import ZsecShield.Watch.Rules

/-!
# Idle steps

Most steps of the watcher are about its counters, flags, records and deadlines.
`Idle` says of two states that a step between them inspected no content, moved no
pass over the files on, and recorded nothing in a snapshot.  It may have evicted
files, and it may have taken time.  An argument about inspections or about passes
proves the rule for idle steps once, and the theorems of this file derive from it
the rules for records, settled scans, the other threads and the shutdown.
-/

namespace ZsecShield.Watch

open Text (Str)
open Effect

variable {w : World}

/-- The moments of a pass over due events or over one walked file. -/
def Moment.ofPass : Moment → Bool
  | .passBegan | .drained .. | .scanPending .. | .skipped .. | .opened .. | .passEnded => true
  | _ => false

/-- The moments that speak about inspections and snapshots. -/
def Moment.ofSnapshot : Moment → Bool
  | .inspected .. | .inventoried .. | .unchanged .. | .reconcileBegan _ | .reconcileEnded ..
  | .recovered .. => true
  | _ => false

/-- The other moments. -/
def Moment.idle (m : Moment) : Bool := !m.ofPass && !m.ofSnapshot

/-- A history longer by idle moments. -/
def IdleLog (log log' : List LogEntry) : Prop :=
  ∃ entries : List LogEntry, (∀ e ∈ entries, e.moment.idle = true) ∧ log' = entries ++ log

theorem IdleLog.refl (log : List LogEntry) : IdleLog log log :=
  ⟨[], fun _ he => absurd he List.not_mem_nil, rfl⟩

theorem IdleLog.cons {log log' : List LogEntry} {e : LogEntry} (h : IdleLog log log')
    (he : e.moment.idle = true) : IdleLog log (e :: log') := by
  obtain ⟨entries, hall, rfl⟩ := h
  refine ⟨e :: entries, ?_, rfl⟩
  intro e' he'
  cases he' with
  | head => exact he
  | tail _ hmem => exact hall e' hmem

theorem IdleLog.trans {log log' log'' : List LogEntry} (h : IdleLog log log')
    (h' : IdleLog log' log'') : IdleLog log log'' := by
  obtain ⟨entries, hall, rfl⟩ := h
  obtain ⟨entries', hall', rfl⟩ := h'
  refine ⟨entries' ++ entries, ?_, (List.append_assoc _ _ _).symm⟩
  intro e he
  exact (List.mem_append.1 he).elim (hall' e) (hall e)

/-- The second state follows from the first by an idle step. -/
structure Idle (s s' : Watcher) : Prop where
  scans : s'.scans = s.scans := by rfl
  lastAttempt : s'.ghost.lastAttempt = s.ghost.lastAttempt := by rfl
  walking : s'.ghost.walking = s.ghost.walking := by rfl
  inFilter : s'.ghost.inFilter = s.ghost.inFilter := by rfl
  passOpened : s'.ghost.passOpened = s.ghost.passOpened := by rfl
  visited : s'.ghost.visited = s.ghost.visited := by rfl
  metadataOnly : s'.reconciliation.metadataOnly = s.reconciliation.metadataOnly := by rfl
  current : s'.reconciliation.current = s.reconciliation.current := by rfl
  unresolved : s'.reconciliation.unresolved = s.reconciliation.unresolved := by rfl
  snapshot : ∀ key, s'.reconciliationSnapshot key = none ∨
    s'.reconciliationSnapshot key = s.reconciliationSnapshot key := by exact fun _ => .inr rfl
  tick : s.tick ≤ s'.tick := by exact le_rfl
  stamped : s.events.StampedBy s.tick → s'.events.StampedBy s'.tick := by exact id
  log : IdleLog s.ghost.log s'.ghost.log := by exact IdleLog.refl _

namespace Idle

theorem trans {s s' s'' : Watcher} (h : Idle s s') (h' : Idle s' s'') : Idle s s'' where
  scans := h'.scans.trans h.scans
  lastAttempt := h'.lastAttempt.trans h.lastAttempt
  walking := h'.walking.trans h.walking
  inFilter := h'.inFilter.trans h.inFilter
  passOpened := h'.passOpened.trans h.passOpened
  visited := h'.visited.trans h.visited
  metadataOnly := h'.metadataOnly.trans h.metadataOnly
  current := h'.current.trans h.current
  unresolved := h'.unresolved.trans h.unresolved
  snapshot key := by
    obtain hnone | hsame := h'.snapshot key
    · exact .inl hnone
    · rw [hsame]
      exact h.snapshot key
  tick := h.tick.trans h'.tick
  stamped := h'.stamped ∘ h.stamped
  log := h.log.trans h'.log

/-- A step of the counters, the flags, the records and the threads is idle. -/
theorem aside {s : Watcher} {log : List LogEntry} (hlog : IdleLog s.ghost.log log)
    {activeBackend : ActiveBackend} {fallbackReason eventIngestFailure : Option Str}
    {stats : WatchStats} {healthIssues : List HealthIssue} {healthKeys : List (HealthCode × Str)}
    {scanKeys : List (Path × ScanCode × Str)} {operational historical persistent : Bool}
    {generation recordSequence : Nat} {sink : WatchEvidenceSink}
    {observerAttached ingestStarted ingestAlive : Bool} :
    Idle s { s with
      activeBackend := activeBackend, fallbackReason := fallbackReason, stats := stats
      healthIssues := healthIssues, healthIssueKeys := healthKeys, scanIssueKeys := scanKeys
      operationalIncomplete := operational, historicalOperationalIncomplete := historical
      persistentOperationalIncomplete := persistent, incompleteGeneration := generation
      eventIngestFailure := eventIngestFailure, recordSequence := recordSequence, sink := sink
      observerAttached := observerAttached, ingestStarted := ingestStarted
      ingestAlive := ingestAlive, ghost := { s.ghost with log := log } } :=
  { log := hlog }

/-- The same without a moment. -/
theorem still {s : Watcher} {activeBackend : ActiveBackend}
    {fallbackReason eventIngestFailure : Option Str}
    {stats : WatchStats} {healthIssues : List HealthIssue} {healthKeys : List (HealthCode × Str)}
    {scanKeys : List (Path × ScanCode × Str)} {operational historical persistent : Bool}
    {generation recordSequence : Nat} {sink : WatchEvidenceSink}
    {observerAttached ingestStarted ingestAlive : Bool} :
    Idle s { s with
      activeBackend := activeBackend, fallbackReason := fallbackReason, stats := stats
      healthIssues := healthIssues, healthIssueKeys := healthKeys, scanIssueKeys := scanKeys
      operationalIncomplete := operational, historicalOperationalIncomplete := historical
      persistentOperationalIncomplete := persistent, incompleteGeneration := generation
      eventIngestFailure := eventIngestFailure, recordSequence := recordSequence, sink := sink
      observerAttached := observerAttached, ingestStarted := ingestStarted
      ingestAlive := ingestAlive } :=
  aside (IdleLog.refl _)

theorem log_idle {s : Watcher} {m : Moment} (hm : m.idle = true) : Idle s (s.log m) :=
  aside ((IdleLog.refl _).cons hm)

theorem evict (key : Bytes) (s : Watcher) :
    Idle s { s with reconciliationSnapshot := s.reconciliationSnapshot.pop key } where
  snapshot k := by
    show ite _ _ _ = _ ∨ ite _ _ _ = _
    split
    · exact .inl rfl
    · exact .inr rfl

theorem withEvents {s : Watcher} {events : DebouncedPathQueue}
    (hstamped : s.events.StampedBy s.tick → events.StampedBy s.tick) :
    Idle s (s.withEvents events) := by
  have hevents : Idle s { s with events := events } := { stamped := hstamped }
  unfold Watcher.withEvents
  simp only
  split
  · exact hevents.trans (log_idle rfl)
  · exact hevents

theorem ingestStep {host : Host} {s s' : Watcher} (h : s.ingestStep host = some s') :
    Idle s s' := by
  simp only [Watcher.ingestStep, Option.map_eq_some_iff] at h
  obtain ⟨events, hstep, rfl⟩ := h
  exact withEvents fun hs => DebouncedPathQueue.stampedBy_ingestOne hs hstep

/-- The other threads are idle: what they submit waits in the queue. -/
theorem act (host : Host) (s : Watcher) (a : ThreadAction) : Idle s (s.act host a) := by
  cases a with
  | submit now path eventType isDirectory =>
      show Idle s (ite _ _ _)
      split
      · exact withEvents fun hs =>
          DebouncedPathQueue.stampedBy_submit hs le_rfl host now path eventType isDirectory
      · exact Idle.still
  | ingest =>
      show Idle s (ite _ _ _)
      split
      · cases hstep : s.ingestStep host with
        | none => exact Idle.still
        | some s' => exact ingestStep hstep
      · exact Idle.still
  | ingestFails reason =>
      show Idle s (ite _ _ _)
      split
      · exact Idle.aside ((IdleLog.refl _).cons rfl)
      · exact Idle.still

theorem recorded (event : WatchEvent) (s : Watcher) : Idle s (s.recorded event) :=
  Idle.aside ((IdleLog.refl _).cons rfl)

end Idle

/-- Evicting a file that was not hashed is idle, and raises nothing. -/
theorem evictUnhashed_idle {path : Path} {hashed : Bool} {Q : Post Watcher PyError Unit}
    {s : Watcher} (hok : ∀ s', Idle s s' → Q.ok () s') : wp w (evictUnhashed path hashed) Q s := by
  cases hashed with
  | true => exact hok s Idle.still
  | false => exact hok _ (Idle.evict (w.host.snapshotPathKey path) s)

/-- An assertion that idle steps, interruptions and exceptions of the environment respect. -/
structure Lasting (A : Assertion Watcher PyError) : Prop where
  idle : ∀ {s s'}, Idle s s' → A.inside s → A.inside s'
  raise : ∀ {s} e, A.inside s → A.raised e s
  stop : ∀ {s}, A.inside s → A.halted s

namespace Lasting

variable {A : Assertion Watcher PyError} (h : Lasting A)

include h

theorem update {f : Watcher → Watcher} (hf : ∀ s, Idle s (f s)) : Keeps w A (Prog.update f) :=
  Keeps.update fun s hs => h.idle (hf s) hs

theorem point : Keeps w A point := by
  refine keeps_point (fun s a hs => h.idle (Idle.act w.host s a) hs) (fun s hs => ?_)
    (fun _ hs => h.raise _ hs) fun _ hs => h.stop hs
  exact h.idle { tick := Nat.le_succ _, stamped := fun hq => hq.mono (Nat.le_succ _) } hs

theorem call {α : Type} (f : World → Nat → α) : Keeps w A (call f) :=
  Keeps.bind h.point fun _ _ hs => hs

theorem throw {α : Type} (e : PyError) : Keeps w A (Prog.raise e : WatchM α) :=
  Keeps.raise fun _ hs => h.raise e hs

theorem count (f : WatchStats → WatchStats) : Keeps w A (count f) :=
  h.update fun _ => Idle.still

theorem evict (key : Bytes) : Keeps w A (evict key) := h.update (Idle.evict key)

theorem emit (event : WatchEvent) : Keeps w A (emit event) := by
  intro s hs
  refine wp_emit h.point (h.idle Idle.still hs) fun s hs => ⟨fun e => h.raise e hs, fun e _ _ => ?_, ?_⟩
  · exact h.raise e (h.idle Idle.still hs)
  · exact h.idle (Idle.recorded event s) hs

theorem healthIssue (code : HealthCode) (message : Str) : Keeps w A (healthIssue code message) := by
  refine Keeps.bind Keeps.state fun s => ?_
  refine Keeps.bind (h.update fun _ => Idle.aside ((IdleLog.refl _).cons rfl)) fun _ => ?_
  refine Keeps.ite (fun _ => Keeps.pure ()) fun _ => ?_
  exact Keeps.bind (h.update fun _ => Idle.still) fun _ => h.emit _

theorem ingest : Keeps w A ingest := by
  have turns : ∀ n, Keeps w A (ingestTurns n) := by
    intro n
    induction n with
    | zero => exact Keeps.halt fun _ hs => h.stop hs
    | succ n ih =>
        refine Keeps.bind h.point fun _ s hs => ?_
        simp only [wp_bind, wp_ask, wp_gets, Post.withOk_ok]
        cases hstep : s.ingestStep w.host with
        | none => exact hs
        | some s' => exact ih _ (h.idle (Idle.ingestStep hstep) hs)
  exact Keeps.bind (fun _ hs => hs) turns

/-! ## Settling a scan -/

theorem isVanished (allowVanishedRoot : Bool) (i : ScanIssue) :
    Keeps w A (isVanished allowVanishedRoot i) := by
  refine Keeps.bind (Keeps.ask _) fun host => Keeps.ite (fun _ => ?_) fun _ => Keeps.pure false
  refine Keeps.bind (h.call _) fun r => ?_
  cases r with
  | ok m => exact Keeps.pure false
  | error e => exact Keeps.pure _

theorem sortIssue (allowVanishedRoot : Bool) (acc : SortedIssues) (i : ScanIssue) :
    Keeps w A (sortIssue allowVanishedRoot acc i) := by
  refine Keeps.bind (h.isVanished allowVanishedRoot i) fun vanished => ?_
  refine Keeps.ite (fun _ => ?_) fun _ => Keeps.pure _
  exact Keeps.bind (Keeps.ask _) fun key => Keeps.bind (h.evict key) fun _ => Keeps.pure _

theorem reportVanished (triggers : List Trigger) (acc : SortedIssues) :
    Keeps w A (reportVanished triggers acc) := by
  refine Keeps.ite (fun _ => h.emit _) fun _ => ?_
  exact Keeps.ite (fun _ => h.emit _) fun _ => Keeps.pure ()

theorem sortOutVanished (triggers : List Trigger) (allowVanishedRoot : Bool) (result : ScanResult) :
    Keeps w A (sortOutVanished triggers allowVanishedRoot result) := by
  refine Keeps.bind (Keeps.foldEach (h.sortIssue allowVanishedRoot) _ _) fun acc => ?_
  refine Keeps.bind (h.count _) fun _ => ?_
  exact Keeps.bind (h.reportVanished triggers acc) fun _ => Keeps.pure _

theorem recordScanIssues (result : ScanResult) : Keeps w A (recordScanIssues result) := by
  refine Keeps.bind (h.update fun _ => Idle.still) fun _ => Keeps.ite (fun _ => ?_) fun _ => Keeps.pure ()
  refine Keeps.bind (h.update fun _ => Idle.aside ((IdleLog.refl _).cons rfl)) fun _ => ?_
  exact Keeps.forEach (fun i => Keeps.bind (Keeps.ask _) h.evict) _

theorem reportCoverageGap (result : ScanResult) : Keeps w A (reportCoverageGap result) :=
  Keeps.ite (fun _ => h.healthIssue _ _) fun _ => Keeps.pure ()

theorem quarantineOne (records : List QuarantineRecord) (finding : FileFinding) :
    Keeps w A (quarantineOne records finding) := by
  have hfail : ∀ f, Keeps w A (Prog.update (Watcher.quarantineFailure f)) := fun f =>
    h.update fun _ => Idle.aside ((IdleLog.refl _).cons rfl)
  refine Keeps.bind (Keeps.ask _) fun host => Keeps.bind (h.call _) fun r => ?_
  cases r with
  | ok entry => exact Keeps.bind (h.count _) fun _ => Keeps.pure _
  | error e =>
      cases e with
      | shield e =>
          cases e with
          | quarantinePartialError text entryId => exact Keeps.bind (hfail _) fun _ => Keeps.pure _
          | _ => exact Keeps.bind (hfail _) fun _ => Keeps.pure _
      | _ => exact h.throw _

theorem quarantineFindings (findings : List FileFinding) :
    Keeps w A (quarantineFindings findings) := by
  refine Keeps.bind (Keeps.ask _) fun config => ?_
  exact Keeps.ite (fun _ => Keeps.foldEach h.quarantineOne _ _) fun _ => Keeps.pure _

/-- A scan is reported after its issues are settled. -/
theorem reportScan (c : ScanCall) (result : ScanResult) :
    Keeps w A (do
      let quarantine ← Watch.quarantineFindings result.findings
      Watch.emit (.scan c.event c.triggers (recordOutcome c.noHashOutcome result) result quarantine)
      pure result) := by
  refine Keeps.bind (h.quarantineFindings result.findings) fun quarantine => ?_
  exact Keeps.bind (h.emit _) fun _ => Keeps.pure _

theorem settleIssues (c : ScanCall) (result : ScanResult) : Keeps w A (settleIssues c result) := by
  refine Keeps.bind (h.sortOutVanished c.triggers c.allowVanishedRoot result) fun result => ?_
  refine Keeps.bind (h.count _) fun _ => Keeps.bind (h.recordScanIssues result) fun _ => ?_
  exact Keeps.bind (h.reportCoverageGap result) fun _ => Keeps.pure _

theorem settle (c : ScanCall) (result : ScanResult) : Keeps w A (settle c result) :=
  Keeps.bind (h.settleIssues c result) fun result => h.reportScan c result

/-! ## Heartbeats and the ends of a session -/

theorem statsSnapshot : Keeps w A statsSnapshot := Keeps.bind (h.call _) fun _ => Keeps.gets _

theorem emitHeartbeat (operationalIncomplete inventoryComplete : Bool) (phase : Option Trigger)
    (stats : WatchStats) (progress : Option ReconciliationProgress) :
    Keeps w A (emitHeartbeat operationalIncomplete inventoryComplete phase stats progress) :=
  Keeps.bind (Keeps.ask _) fun _ => Keeps.bind (Keeps.gets _) fun _ => h.emit _

theorem progress {f : Reconciliation → Reconciliation} (hf : Reconciliation.Bookkeeping f) :
    Keeps w A (progress f) :=
  h.update fun s => {
    metadataOnly := (hf s.reconciliation).1
    current := (hf s.reconciliation).2.1
    unresolved := (hf s.reconciliation).2.2.1 }

theorem emitProgressHeartbeat : Keeps w A emitProgressHeartbeat :=
  keeps_emitProgressHeartbeat h.point (fun _ _ _ _ => h.emitHeartbeat _ _ _ _ _)
    fun _ hf => h.progress hf

theorem drainPriorityEvents (key : Bytes) {Q : List PendingPath → Watcher → Prop}
    (hdue : ∀ s, A.inside s → wp w (due (some 32)) (A.postWith Q) s)
    (hloop : ∀ paths s, Q paths s → wp w (Prog.forEach (drainOne key) paths) A.post s) :
    Keeps w A (drainPriorityEvents key) :=
  keeps_drainPriorityEvents h.point (fun _ hf => h.progress hf) key hdue hloop

theorem pipeline : Keeps w A eventPipelineIsHealthy :=
  keeps_pipeline h.point h.count (fun s hs => h.idle (s := s) {} hs)
    fun code message _ => h.healthIssue code message

theorem toStartRules : StartRules w A where
  raise := h.raise
  point := h.point
  observer _ hs := h.idle Idle.still hs
  backend _ _ hs := h.idle Idle.still hs

theorem emitSessionStarted : Keeps w A emitSessionStarted :=
  Keeps.bind (Keeps.ask _) fun _ => Keeps.bind Keeps.state fun _ => h.emit _

theorem toShutdownRules : ShutdownRules w A where
  point := h.point
  count := h.count
  ingest := h.ingest
  pipeline := h.pipeline
  observer _ hs := h.idle Idle.still hs
  joined hs := h.idle Idle.still hs
  healthIssue code message _ := h.healthIssue code message

end Lasting

end ZsecShield.Watch
