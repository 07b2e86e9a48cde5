import ZsecShield.Watch.Rules

/-!
# Quiet steps

Most steps of the watcher touch neither its flags nor its evidence sink: they
count, evict, move deadlines, take events off the queue or record ghost data.
`Quiet` says so of two states.  An argument that does not look at the snapshots
proves the rule for quiet steps once, and `QuietRules` derives from it what
`ScanRules` and `WatchRules` ask for about scans, drains and callbacks.
-/

namespace ZsecShield.Watch

open Effect

variable {w : World}

/-- The moments that say nothing about flags, failures or records. -/
def Moment.quiet : Moment → Bool
  | .started | .passBegan | .drained .. | .scanPending .. | .skipped .. | .opened .. | .passEnded
  | .inspected .. | .inventoried .. | .unchanged .. | .reconcileEnded .. => true
  | _ => false

/-- A history longer by quiet moments. -/
def QuietLog (flag : Bool) (log log' : List LogEntry) : Prop :=
  ∃ moments : List Moment, (∀ m ∈ moments, m.quiet = true) ∧
    log' = moments.map (fun m => ⟨m, flag⟩) ++ log

theorem QuietLog.refl (flag : Bool) (log : List LogEntry) : QuietLog flag log log :=
  ⟨[], nofun, rfl⟩

theorem QuietLog.cons {flag : Bool} {log log' : List LogEntry} {m : Moment}
    (h : QuietLog flag log log') (hm : m.quiet = true) :
    QuietLog flag log (⟨m, flag⟩ :: log') := by
  obtain ⟨moments, hall, rfl⟩ := h
  refine ⟨m :: moments, ?_, rfl⟩
  intro m' hm'
  cases hm' with
  | head => exact hm
  | tail _ hmem => exact hall m' hmem

/-- An entry of the longer history is an old one or a quiet one. -/
theorem QuietLog.mem {flag : Bool} {log log' : List LogEntry} {e : LogEntry}
    (h : QuietLog flag log log') (he : e ∈ log') : e ∈ log ∨ e.moment.quiet = true := by
  obtain ⟨moments, hall, rfl⟩ := h
  rw [List.mem_append, List.mem_map] at he
  obtain ⟨m, hm, rfl⟩ | he := he
  · exact .inr (hall m hm)
  · exact .inl he

theorem QuietLog.mem_of_mem {flag : Bool} {log log' : List LogEntry} {e : LogEntry}
    (h : QuietLog flag log log') (he : e ∈ log) : e ∈ log' := by
  obtain ⟨moments, -, rfl⟩ := h
  exact List.mem_append_right _ he

/-- The second state follows from the first by a step that leaves flags, failures,
records and the scans in progress alone. -/
structure Quiet (s s' : Watcher) : Prop where
  scans : s'.scans = s.scans := by rfl
  operational : s'.operationalIncomplete = s.operationalIncomplete := by rfl
  historical : s'.historicalOperationalIncomplete = s.historicalOperationalIncomplete := by rfl
  persistent : s'.persistentOperationalIncomplete = s.persistentOperationalIncomplete := by rfl
  generation : s'.incompleteGeneration = s.incompleteGeneration := by rfl
  healthIssueKeys : s'.healthIssueKeys = s.healthIssueKeys := by rfl
  sink : s'.sink = s.sink := by rfl
  overflowed : s'.events.overflowed = s.events.overflowed := by rfl
  ingestFailure : s'.eventIngestFailure = s.eventIngestFailure := by rfl
  observerAttached : s'.observerAttached = s.observerAttached := by rfl
  ingestStarted : s'.ingestStarted = s.ingestStarted := by rfl
  ingestAlive : s'.ingestAlive = s.ingestAlive := by rfl
  metadataOnly : s'.reconciliation.metadataOnly = s.reconciliation.metadataOnly := by rfl
  startGeneration : s'.reconciliation.incompleteGeneration =
    s.reconciliation.incompleteGeneration := by rfl
  log : QuietLog s.operationalIncomplete s.ghost.log s'.ghost.log := by exact QuietLog.refl _ _

/-- A step of the counters, the snapshots, the issues and the pass is quiet. -/
theorem Quiet.aside {s : Watcher} {log : List LogEntry}
    (hlog : QuietLog s.operationalIncomplete s.ghost.log log) {reconciliation : Reconciliation}
    (hmetadata : reconciliation.metadataOnly = s.reconciliation.metadataOnly)
    (hgeneration : reconciliation.incompleteGeneration = s.reconciliation.incompleteGeneration)
    {tick recordSequence : Nat} {activeBackend : ActiveBackend} {fallbackReason : Option Text.Str}
    {stats : WatchStats} {healthIssues : List HealthIssue}
    {scanKeys : List (Path × ScanCode × Text.Str)} {snapshot : Snapshot}
    {lastAttempt : Bytes → Option Inspection} {walking inFilter : Bool}
    {passOpened : List (Bytes × Nat)} {visited : List Bytes} :
    Quiet s { s with
      tick := tick, activeBackend := activeBackend, fallbackReason := fallbackReason, stats := stats
      healthIssues := healthIssues, scanIssueKeys := scanKeys, reconciliationSnapshot := snapshot
      recordSequence := recordSequence, reconciliation := reconciliation
      ghost := ⟨log, lastAttempt, walking, inFilter, passOpened, visited⟩ } :=
  { metadataOnly := hmetadata, startGeneration := hgeneration, log := hlog }

/-- The same without a moment and in the pass as it is. -/
theorem Quiet.still {s : Watcher} {tick recordSequence : Nat} {activeBackend : ActiveBackend}
    {fallbackReason : Option Text.Str} {stats : WatchStats} {healthIssues : List HealthIssue}
    {scanKeys : List (Path × ScanCode × Text.Str)} {snapshot : Snapshot}
    {lastAttempt : Bytes → Option Inspection} {walking inFilter : Bool}
    {passOpened : List (Bytes × Nat)} {visited : List Bytes} :
    Quiet s { s with
      tick := tick, activeBackend := activeBackend, fallbackReason := fallbackReason, stats := stats
      healthIssues := healthIssues, scanIssueKeys := scanKeys, reconciliationSnapshot := snapshot
      recordSequence := recordSequence
      ghost := ⟨s.ghost.log, lastAttempt, walking, inFilter, passOpened, visited⟩ } :=
  aside (QuietLog.refl _ _) rfl rfl

theorem Quiet.log_quiet {s : Watcher} {m : Moment} (hm : m.quiet = true) : Quiet s (s.log m) :=
  aside ((QuietLog.refl _ _).cons hm) rfl rfl

theorem Quiet.trans {s s' s'' : Watcher} (h : Quiet s s') (h' : Quiet s' s'') : Quiet s s'' where
  scans := h'.scans.trans h.scans
  operational := h'.operational.trans h.operational
  historical := h'.historical.trans h.historical
  persistent := h'.persistent.trans h.persistent
  generation := h'.generation.trans h.generation
  healthIssueKeys := h'.healthIssueKeys.trans h.healthIssueKeys
  sink := h'.sink.trans h.sink
  overflowed := h'.overflowed.trans h.overflowed
  ingestFailure := h'.ingestFailure.trans h.ingestFailure
  observerAttached := h'.observerAttached.trans h.observerAttached
  ingestStarted := h'.ingestStarted.trans h.ingestStarted
  ingestAlive := h'.ingestAlive.trans h.ingestAlive
  metadataOnly := h'.metadataOnly.trans h.metadataOnly
  startGeneration := h'.startGeneration.trans h.startGeneration
  log := by
    obtain ⟨ms, hms, hlog⟩ := h.log
    obtain ⟨ms', hms', hlog'⟩ := h'.log
    refine ⟨ms' ++ ms, ?_, ?_⟩
    · intro m hm
      exact (List.mem_append.1 hm).elim (hms' m) (hms m)
    · rw [hlog', hlog, h.operational, List.map_append, List.append_assoc]

/-- Taking due paths off the queue is quiet. -/
theorem Quiet.drained (host : Host) (now : ℚ) (maximum : Option Nat) (s : Watcher) :
    ∀ paths, Quiet s ((s.takeDue now maximum).drained host paths) := by
  have hfold : ∀ (paths : List PendingPath) (s' : Watcher), Quiet s s' →
      Quiet s (s'.drained host paths) := by
    intro paths
    induction paths with
    | nil => exact fun s' h => h
    | cons p rest ih => exact fun s' h => ih _ (h.trans (Quiet.log_quiet rfl))
  exact fun paths => hfold paths _ {}

/-- An assertion that quiet steps, the other threads, interruptions and exceptions of
the environment respect. -/
structure Steady (A : Assertion Watcher PyError) : Prop where
  quiet : ∀ {s s'}, Quiet s s' → A.inside s → A.inside s'
  overflow : ∀ {s} events, events.overflowed = true → A.inside s →
    A.inside (Watcher.log .overflow { s with events := events })
  ingestFails : ∀ {s} reason, A.inside s → A.inside (Watcher.log .ingestFailed
    { s with eventIngestFailure := some reason, ingestAlive := false })
  raise : ∀ {s} e, A.inside s → A.raised e s
  stop : ∀ {s}, A.inside s → A.halted s

namespace Steady

variable {A : Assertion Watcher PyError} (h : Steady A)

include h

theorem withEvents {s : Watcher} {events : DebouncedPathQueue} (hg : s.events.Grows events)
    (hs : A.inside s) : A.inside (s.withEvents events) := by
  obtain ⟨ho, heq⟩ | ⟨ho, heq⟩ := Watcher.withEvents_cases hg
  · rw [heq]
    exact h.quiet { overflowed := ho } hs
  · rw [heq]
    exact h.overflow events ho hs

theorem act (s : Watcher) (a : ThreadAction) (hs : A.inside s) : A.inside (s.act w.host a) := by
  obtain heq | ⟨events, hg, heq⟩ | ⟨-, reason, heq⟩ := s.act_cases w.host a
  · rw [heq]
    exact hs
  · rw [heq]
    exact h.withEvents hg hs
  · rw [heq]
    exact h.ingestFails reason hs

theorem point : Keeps w A point :=
  keeps_point h.act (fun _ hs => h.quiet Quiet.still hs) (fun _ hs => h.raise _ hs) fun _ hs => h.stop hs

theorem call {α : Type} (f : World → Nat → α) : Keeps w A (call f) :=
  Keeps.bind h.point fun _ _ hs => hs

theorem update {f : Watcher → Watcher} (hf : ∀ s, Quiet s (f s)) : Keeps w A (Prog.update f) :=
  Keeps.update fun s hs => h.quiet (hf s) hs

theorem ingest : Keeps w A ingest :=
  keeps_ingest h.point (fun _ _ hg hs => h.withEvents hg hs) fun _ hs => h.stop hs

theorem isVanished (allowVanishedRoot : Bool) (i : ScanIssue) :
    Keeps w A (isVanished allowVanishedRoot i) := by
  refine Keeps.bind (Keeps.ask _) fun host => Keeps.ite (fun _ => ?_) fun _ => Keeps.pure false
  refine Keeps.bind (h.call _) fun r => ?_
  cases r with
  | ok m => exact Keeps.pure false
  | error e => exact Keeps.pure _

theorem sortIssue (allowVanishedRoot : Bool) (acc : SortedIssues) (i : ScanIssue) :
    Keeps w A (sortIssue allowVanishedRoot acc i) := by
  refine Keeps.bind (h.isVanished allowVanishedRoot i) fun vanished => ?_
  refine Keeps.ite (fun _ => ?_) fun _ => Keeps.pure _
  exact Keeps.bind (Keeps.ask _) fun key => Keeps.bind (h.update fun _ => Quiet.still) fun _ => Keeps.pure _

/-- Vanished paths are sorted out of the result of a scan. -/
theorem sortOutVanished
    (hsuperseded : ∀ e, WatchEvidenceSink.ignores e = true → Keeps w A (emit e))
    (triggers : List Trigger) (allowVanishedRoot : Bool) (result : ScanResult) {s : Watcher}
    (hs : A.inside s) :
    wp w (sortOutVanished triggers allowVanishedRoot result)
      (A.postWith fun r s' => A.inside s' ∧ Retains result r) s := by
  have hreport : ∀ acc, Keeps w A (reportVanished triggers acc) := by
    intro acc
    refine Keeps.ite (fun _ => hsuperseded _ rfl) fun _ => ?_
    exact Keeps.ite (fun _ => hsuperseded _ rfl) fun _ => Keeps.pure ()
  have hkeeps : Keeps w A (Watch.sortOutVanished triggers allowVanishedRoot result) := by
    refine Keeps.bind (Keeps.foldEach (h.sortIssue allowVanishedRoot) _ _) fun acc => ?_
    refine Keeps.bind (h.update fun _ => Quiet.still) fun _ => ?_
    exact Keeps.bind (hreport acc) fun _ => Keeps.pure _
  exact (wp.and (hkeeps s hs) (sortOutVanished_retains triggers allowVanishedRoot result s)).mono
    ⟨fun _ _ hq => hq, fun _ _ hr => hr.1, fun _ hc => hc.1⟩

theorem toStartRules
    (observer : ∀ {s} attached, A.inside s → A.inside { s with observerAttached := attached }) :
    StartRules w A where
  raise := h.raise
  point := h.point
  observer := observer
  backend backend reason hs := h.quiet Quiet.still hs

/-- The shutdown of a session asks for four more steps. -/
theorem toShutdownRules
    (observer : ∀ {s} attached, A.inside s → A.inside { s with observerAttached := attached })
    (pipeline : Keeps w A eventPipelineIsHealthy)
    (joined : ∀ {s}, A.inside s → A.inside { s with ingestAlive := false })
    (healthIssue : ∀ code message, code ≠ .scanScopeIncomplete →
      Keeps w A (healthIssue code message)) : ShutdownRules w A where
  point := h.point
  count f := h.update fun _ => Quiet.still
  ingest := h.ingest
  pipeline := pipeline
  observer := observer
  joined := joined
  healthIssue := healthIssue

end Steady

/-- What an argument that does not look at the snapshots has to show. -/
structure QuietRules (w : World) (S : Scheme) : Prop where
  stack : ∀ {st s}, S.inside st s → s.scans = st
  failed : ∀ {st s}, S.inside st s → S.failed st s
  cut : ∀ {st s}, S.inside st s → S.cut s
  steady : ∀ st, Steady (S.on st)
  superseded : ∀ st e, WatchEvidenceSink.ignores e = true → Keeps w (S.on st) (emit e)
  healthIssue : ∀ st code message, code ≠ .scanScopeIncomplete →
    Keeps w (S.on st) (healthIssue code message)
  heartbeat : ∀ st operationalIncomplete phase stats progress,
    Keeps w (S.on st) (emitHeartbeat operationalIncomplete false phase stats progress)
  openScan : ∀ {st s} startedAt paths, S.inside st s →
    S.inside (ScanInProgress.start startedAt paths :: st) (s.openScan startedAt paths)
  onScan : ∀ {x st s} f, (f x).issues = x.issues →
    coverageGap (f x).stats = coverageGap x.stats → S.inside (x :: st) s →
      S.inside (f x :: st) (s.onScan f)
  issue : ∀ st path code message, Keeps w (S.within st) (issue path code message)
  gap : ∀ st f, (∀ a, coverageGap (f a) = true) → Keeps w (S.within st) (countGap f)
  swallow : ∀ {st x s} path code e, code = .fileFilterFailed ∨ code = .fileObserverFailed →
    S.failed (x :: st) s → wp w (swallow path code e) (S.within st).post s
  settle : ∀ {st x s} c host completedAt, S.inside (x :: st) s →
    wp w (settle c (x.result host completedAt)) (S.leaving st).post s
  closeFailed : ∀ {st x s}, S.failed (x :: st) s → S.failed st s.closeScan
  closeCut : ∀ {s}, S.cut s → S.cut s.closeScan

namespace QuietRules

variable {S : Scheme} (h : QuietRules w S)

include h

theorem point (st : List ScanInProgress) : Keeps w (S.on st) point := (h.steady st).point

theorem update {f : Watcher → Watcher} (hf : ∀ s, Quiet s (f s)) (st : List ScanInProgress) :
    Keeps w (S.on st) (Prog.update f) := (h.steady st).update hf

/-- A quiet step inside a scan. -/
theorem updateWithin {f : Watcher → Watcher} (hf : ∀ s, Quiet s (f s))
    (st : List ScanInProgress) : Keeps w (S.within st) (Prog.update f) :=
  Scheme.keeps_within fun _ => h.update hf _

/-- A step on the locals of a scan that leaves its issues and gaps alone. -/
theorem updateScan (st : List ScanInProgress) {f : ScanInProgress → ScanInProgress}
    (hissues : ∀ x, (f x).issues = x.issues)
    (hgap : ∀ x, coverageGap (f x).stats = coverageGap x.stats) :
    Keeps w (S.within st) (Prog.update (Watcher.onScan f)) := by
  rintro s ⟨x, hs⟩
  exact ⟨f x, h.onScan f (hissues x) (hgap x) hs⟩

theorem raiseWithin (st : List ScanInProgress) {α : Type} (e : PyError) :
    Keeps w (S.within st) (Prog.raise e : WatchM α) := by
  rintro s ⟨x, hs⟩
  show ite _ _ _
  split
  · exact ⟨x, h.failed hs⟩
  · exact h.cut hs

theorem callWithin (st : List ScanInProgress) {α : Type} (f : World → Nat → α) :
    Keeps w (S.within st) (call f) :=
  Keeps.bind (Scheme.keeps_within fun _ => h.point _) fun _ _ hs => hs

/-- An inspection of a file keeps the assertions, whatever it meets. -/
theorem scanFile (st : List ScanInProgress) (path : Path) (stat : Stat) :
    Keeps w (S.within st) (scanFile path stat) := by
  have inspect : ∀ key inspection, Keeps w (S.within st)
      (Prog.update (Watcher.inspect key inspection)) := fun key inspection =>
    h.updateWithin (fun s => Quiet.aside ((QuietLog.refl _ _).cons rfl) rfl rfl) st
  refine Keeps.bind (Keeps.ask _) fun key => ?_
  refine Keeps.bind (Scheme.keeps_within fun _ => h.point _) fun _ => ?_
  refine Keeps.bind (h.updateWithin (fun s => Quiet.aside ((QuietLog.refl _ _).cons rfl) rfl rfl) st)
    fun _ => ?_
  refine Keeps.bind (h.callWithin st _) fun scan => ?_
  cases scan with
  | hashed bytesRead finding observations =>
      refine Keeps.bind (inspect key _) fun _ => ?_
      exact Keeps.bind (h.updateScan st (fun _ => rfl) fun _ => rfl) fun _ => Keeps.pure _
  | failed code message =>
      refine Keeps.bind (inspect key _) fun _ => ?_
      exact Keeps.bind (h.issue st _ _ _) fun _ => Keeps.pure _
  | tooLarge =>
      refine Keeps.bind (inspect key _) fun _ => ?_
      exact Keeps.bind (h.gap st _ fun a => by simp [coverageGap]) fun _ => Keeps.pure _
  | hashedThenFailed bytesRead observations message =>
      refine Keeps.bind (inspect key _) fun _ => ?_
      refine Keeps.bind (h.updateScan st (fun _ => rfl) fun _ => rfl) fun _ => ?_
      exact Keeps.bind (h.issue st _ _ _) fun _ => Keeps.pure _
  | escaped error =>
      have escape : Keeps w (S.within st) (noteEscape key error) :=
        Keeps.ite (fun _ => inspect key _) fun _ => Keeps.pure ()
      exact Keeps.bind escape fun _ => h.raiseWithin st error

theorem keepFinding (st : List ScanInProgress) (finding : Option FileFinding) :
    Keeps w (S.within st) (keepFinding finding) := by
  cases finding with
  | none => exact Keeps.pure ()
  | some finding => exact h.updateScan st (fun _ => rfl) fun _ => rfl

/-- The exceptions of an observer become issues. -/
theorem applyObserver (st : List ScanInProgress) {observer : FileObserver} {path : Path}
    {stat : Stat} {hashed : Bool} (ho : Keeps w (S.within st) (observer path stat hashed)) :
    Keeps w (S.within st) (applyObserver observer path stat hashed) := by
  refine Keeps.tryExcept ho fun e he s hs => ?_
  have hs : ite _ _ _ := hs
  rw [if_pos he] at hs
  obtain ⟨x, hx⟩ := hs
  exact h.swallow path .fileObserverFailed e (.inr rfl) hx

/-- A file is inspected and its observer called. -/
theorem inspectFile (st : List ScanInProgress) {observer : FileObserver} (path : Path)
    (stat : Stat) (ho : ∀ hashed, Keeps w (S.within st) (observer path stat hashed)) :
    Keeps w (S.within st) (inspectFile observer path stat) := by
  refine Keeps.bind (h.scanFile st path stat) fun r => ?_
  exact Keeps.bind (h.applyObserver st (ho r.1)) fun _ => h.keepFinding st r.2

theorem recordInspection (st : List ScanInProgress) {observer : Option FileObserver}
    (path : Path) (stat : Stat)
    (ho : ∀ f ∈ observer, ∀ hashed, Keeps w (S.within st) (f path stat hashed)) (hashed : Bool) :
    Keeps w (S.within st) (recordInspection observer path stat hashed) := by
  have evicts : Keeps w (S.within st) (evictUnhashed path hashed) :=
    Keeps.ite (fun _ => Keeps.pure ()) fun _ =>
      Keeps.bind (Keeps.ask _) fun _ => h.updateWithin (fun _ => Quiet.still) st
  refine Keeps.bind evicts fun _ => ?_
  cases observer with
  | none => exact Keeps.pure ()
  | some f => exact ho f rfl hashed

theorem toScanRules : ScanRules w S where
  stack := h.stack
  failed := h.failed
  cut := h.cut
  point := h.point
  count st f := h.update (fun _ => Quiet.still) st
  evict st key := h.update (fun _ => Quiet.still) st
  superseded := h.superseded
  healthIssue := h.healthIssue
  scanPending st key submitted := h.update (fun _ => Quiet.log_quiet rfl) st
  openScan := h.openScan
  issue := h.issue
  countScan st f hf := h.updateScan st (fun _ => rfl) fun x => hf x.stats
  gap := h.gap
  inspect st path stat := h.inspectFile st path stat (h.recordInspection st path stat nofun)
  closeFailed := h.closeFailed
  closeCut := h.closeCut

theorem toWalkRules : WalkRules w S where
  toScanRules := h.toScanRules
  progress st f hf := h.update (fun s => {
    metadataOnly := (hf s.reconciliation).1
    startGeneration := (hf s.reconciliation).2.2.2 }) st
  heartbeat := h.heartbeat
  swallow := h.swallow

/-! ## Drains -/

theorem due (st : List ScanInProgress) (maximum : Option Nat) :
    Keeps w (S.on st) (due maximum) := by
  refine Keeps.ite (fun _ => h.toScanRules.raise st _) fun _ => ?_
  refine Keeps.bind (h.steady st).ingest fun _ => ?_
  refine Keeps.bind (h.toScanRules.clock st) fun now => ?_
  refine Keeps.bind (Keeps.ask _) fun host => ?_
  refine Keeps.bind (Keeps.gets _) fun paths => ?_
  exact Keeps.bind (h.update (fun s => Quiet.drained host now maximum s paths) st)
    fun _ => Keeps.pure paths

theorem drainOne (st : List ScanInProgress) (key : Bytes) (p : PendingPath) :
    Keeps w (S.on st) (drainOne key p) := by
  refine Keeps.bind (Keeps.ask _) fun _ => ?_
  refine Keeps.ite (fun _ => h.toScanRules.scanPendingPath h.settle p) fun _ => ?_
  exact h.update (fun _ => Quiet.log_quiet rfl) st

theorem drainPriorityEvents (st : List ScanInProgress) (key : Bytes) :
    Keeps w (S.on st) (drainPriorityEvents key) :=
  h.toWalkRules.drainPriorityEvents_of st key (Q := fun _ => S.inside st) (h.due st _)
    fun paths => Keeps.forEach (h.drainOne st key) paths

/-- The main loop scans the due events. -/
theorem drainDue (st : List ScanInProgress) : Keeps w (S.on st) drainDue := by
  refine Keeps.bind (h.update (fun _ => Quiet.aside ((QuietLog.refl _ _).cons rfl) rfl rfl) st) fun _ => ?_
  refine Keeps.bind (h.due st none) fun paths => ?_
  refine Keeps.bind (Keeps.forEach (h.toScanRules.scanPendingPath h.settle) paths) fun _ => ?_
  exact h.update (fun _ => Quiet.log_quiet rfl) st

/-! ## Callbacks -/

theorem filterUnrepresentable (st : List ScanInProgress) (key : Bytes) (error : PyError) :
    Keeps w (S.on st) (filterUnrepresentable key error) := by
  refine Keeps.bind (Keeps.gets _) fun r => ?_
  refine Keeps.ite (fun _ => h.toScanRules.raise st error) fun _ => ?_
  refine Keeps.bind (h.toWalkRules.emitProgressHeartbeat st) fun _ => ?_
  exact Keeps.bind (h.drainPriorityEvents st key) fun _ => Keeps.pure true

theorem filterInventory (st : List ScanInProgress) (key : Bytes) (fingerprint : Fingerprint) :
    Keeps w (S.on st) (filterInventory key fingerprint) := by
  refine Keeps.bind (h.update (fun _ => { log := (QuietLog.refl _ _).cons rfl }) st) fun _ => ?_
  refine Keeps.bind (h.toWalkRules.emitProgressHeartbeat st) fun _ => ?_
  refine Keeps.bind (h.drainPriorityEvents st key) fun _ => ?_
  exact Keeps.bind (h.update (fun _ => Quiet.log_quiet rfl) st) fun _ => Keeps.pure false

theorem filterChanged (st : List ScanInProgress) (key : Bytes)
    (previousFingerprint : Option Fingerprint) (fingerprint : Fingerprint) :
    Keeps w (S.on st) (filterChanged key previousFingerprint fingerprint) := by
  have beat := h.toWalkRules.emitProgressHeartbeat st
  refine Keeps.bind (Keeps.gets _) fun r => ?_
  refine Keeps.ite (fun _ => Keeps.bind beat fun _ => Keeps.pure true) fun _ => ?_
  refine Keeps.bind (h.update (fun _ => { log := (QuietLog.refl _ _).cons rfl }) st) fun _ => ?_
  refine Keeps.bind beat fun _ => ?_
  exact Keeps.bind (h.update (fun _ => Quiet.log_quiet rfl) st) fun _ => Keeps.pure false

theorem changedSinceLastReconciliation (st : List ScanInProgress) (path : Path) (stat : Stat) :
    Keeps w (S.on st) (changedSinceLastReconciliation path stat) := by
  refine Keeps.bind (Keeps.ask _) fun key => ?_
  refine Keeps.bind (h.update (fun _ => Quiet.aside ((QuietLog.refl _ _).cons rfl) rfl rfl) st) fun _ => ?_
  refine Keeps.bind (h.toWalkRules.progress st _ fun _ => ⟨rfl, rfl, rfl, rfl⟩) fun _ => ?_
  cases fileFingerprint stat with
  | error e => exact h.filterUnrepresentable st key e
  | ok fingerprint =>
      refine Keeps.bind (Keeps.gets _) fun previousFingerprint => ?_
      refine Keeps.bind (h.update (fun _ => Quiet.still) st) fun _ => ?_
      refine Keeps.bind (Keeps.gets _) fun r => ?_
      exact Keeps.ite (fun _ => h.filterInventory st key fingerprint) fun _ =>
        h.filterChanged st key previousFingerprint fingerprint

theorem recordHashed (st : List ScanInProgress) (key : Bytes) (stat : Stat) (wasHashed : Bool) :
    Keeps w (S.on st) (recordHashed key stat wasHashed) := by
  refine Keeps.ite (fun _ => ?_) fun _ => h.update (fun _ => {}) st
  refine Keeps.bind (h.update (fun _ => {}) st) fun _ => ?_
  refine Keeps.bind (Keeps.liftExcept fun e _ s hs => ?_) fun fingerprint => ?_
  · exact h.toScanRules.raise st (α := Unit) e s hs
  · exact h.update (fun _ => {}) st

theorem recordSuccessfulHash (st : List ScanInProgress) (path : Path) (stat : Stat)
    (wasHashed : Bool) : Keeps w (S.on st) (recordSuccessfulHash path stat wasHashed) := by
  refine Keeps.bind (Keeps.ask _) fun key => ?_
  refine Keeps.bind (h.update (fun _ => Quiet.still) st) fun _ => ?_
  refine Keeps.bind (h.recordHashed st key stat wasHashed) fun _ => ?_
  refine Keeps.bind (h.toWalkRules.emitProgressHeartbeat st) fun _ => ?_
  refine Keeps.bind (h.drainPriorityEvents st key) fun _ => ?_
  exact h.update (fun _ => Quiet.log_quiet rfl) st

/-- A file of the walk is visited. -/
theorem visit (m : Bool) (path : Path) (stat : Stat) (st : List ScanInProgress) :
    Keeps w (S.within st) (visitFile (some Watch.changedSinceLastReconciliation)
      (Watch.recordInspection (if m then none else some Watch.recordSuccessfulHash)) path stat) := by
  refine Keeps.bind (h.toWalkRules.applyFilter st ?_) fun wanted => ?_
  · exact Scheme.keeps_within fun _ => h.changedSinceLastReconciliation _ path stat
  · refine Keeps.ite (fun _ => h.inspectFile st path stat ?_) fun _ => Keeps.pure ()
    refine h.recordInspection st path stat fun f hf hashed => ?_
    cases m with
    | true => cases hf
    | false =>
        cases hf
        exact Scheme.keeps_within fun _ => h.recordSuccessfulHash _ path stat hashed

end QuietRules

end ZsecShield.Watch
