import ZsecShield.Watch.Quiet

/-!
# Persisted health against the flag of the watcher

The sink reconstructs health from the records alone.  The watcher can raise its
operational flag without a record that says so: a quarantine failure in a batch
that is otherwise complete, a `watch_path_unreadable` issue that was announced
before, and an exception that the scanner catches after the flag went up.  These
are the silent entries of the history.  In a run without them the sink is never
healthy while the flag is up, because between two steps a raised flag means a
degraded sink, and a scan that raises the flag emits an incomplete outcome.
-/

namespace ZsecShield.Watch

open Text (Str str)
open Effect

variable {w : World}

/-- The flag goes up, or stays up, and the sink is not told. -/
def LogEntry.silent (e : LogEntry) : Bool :=
  match e.moment with
  | .quarantineFailed flagWasDown => flagWasDown
  | .healthIssue .watchPathUnreadable announced flagWasDown => !announced && flagWasDown
  | .swallowed state => e.operationalIncomplete && decide (state ≠ .degraded)
  | _ => false

/-- A history in which the sink is told of every raised flag. -/
def Told (log : List LogEntry) : Prop := ∀ e ∈ log, e.silent = false

instance (log : List LogEntry) : Decidable (Told log) :=
  inferInstanceAs (Decidable (∀ e ∈ log, _))

/-- Whenever the sink has processed a record and is healthy, the flag is down. -/
def Honest (log : List LogEntry) : Prop :=
  ∀ e ∈ log, e.moment = .recorded .healthy → e.operationalIncomplete = false

instance (m : Moment) : Decidable (m = .recorded .healthy) :=
  decidable_of_iff ((match m with | .recorded .healthy => true | _ => false) = true) (by
    constructor
    · intro h
      split at h
      · rfl
      · cases h
    · rintro rfl
      rfl)

instance (log : List LogEntry) : Decidable (Honest log) :=
  inferInstanceAs (Decidable (∀ e ∈ log, _))

theorem Told.tail {e : LogEntry} {log : List LogEntry} (h : Told (e :: log)) : Told log :=
  fun e' he' => h e' (List.mem_cons_of_mem _ he')

theorem Told.of_quiet {flag : Bool} {log log' : List LogEntry} (hq : QuietLog flag log log')
    (h : Told log') : Told log := fun e he => h e (hq.mem_of_mem he)

theorem Honest.cons {e : LogEntry} {log : List LogEntry} (h : Honest log)
    (he : e.moment = .recorded .healthy → e.operationalIncomplete = false) :
    Honest (e :: log) := by
  intro e' he'
  cases he' with
  | head => exact he
  | tail _ hmem => exact h e' hmem

theorem Honest.of_quiet {flag : Bool} {log log' : List LogEntry} (hq : QuietLog flag log log')
    (h : Honest log) : Honest log' := by
  intro e he hrec
  obtain hold | hquiet := hq.mem he
  · exact h e hold hrec
  · rw [hrec] at hquiet
    cases hquiet

namespace PersistedHealth

/-- What holds of every state: a raised persistent flag means a raised operational
flag, an announced issue that nothing recovers from keeps the persistent flag up,
and the history is honest. -/
structure Base (s : Watcher) : Prop where
  healthFile : s.sink.healthFile = true
  persistent : s.persistentOperationalIncomplete = true → s.operationalIncomplete = true
  announced : ∀ key ∈ s.healthIssueKeys, key.1.recoverable = false →
    s.persistentOperationalIncomplete = true
  honest : Honest s.ghost.log

/-- A raised flag means a degraded sink or a scan that is about to be reported as
incomplete. -/
structure Settling (incomplete : Prop) (s : Watcher) : Prop extends Base s where
  degraded : s.operationalIncomplete = true → s.sink.operationalState = .degraded ∨ incomplete

/-- Between two steps a raised flag means a degraded sink. -/
abbrev Settled (s : Watcher) : Prop := Settling False s

/-- The assertions while a scan with this outcome is settled.  Each holds unless a
silent entry is in the history. -/
def settling (incomplete : Prop) : Scheme where
  inside st s := s.scans = st ∧ (Told s.ghost.log → Settling incomplete s)
  failed st s := s.scans = st ∧ (Told s.ghost.log → Base s)
  cut s := Told s.ghost.log → Base s

/-- The assertions between two steps. -/
abbrev scheme : Scheme := settling False

/-! ## Quiet steps -/

theorem Base.quiet {s s' : Watcher} (hq : Quiet s s') (h : Base s) : Base s' where
  healthFile := by
    rw [hq.sink]
    exact h.healthFile
  persistent := by
    rw [hq.persistent, hq.operational]
    exact h.persistent
  announced := by
    rw [hq.healthIssueKeys, hq.persistent]
    exact h.announced
  honest := h.honest.of_quiet hq.log

theorem Settling.quiet {incomplete : Prop} {s s' : Watcher} (hq : Quiet s s')
    (h : Settling incomplete s) : Settling incomplete s' where
  toBase := h.toBase.quiet hq
  degraded := by
    rw [hq.operational, hq.sink]
    exact h.degraded

/-- An entry that is no record leaves the facts alone. -/
theorem Base.log {s : Watcher} (h : Base s) {m : Moment} (hm : m ≠ .recorded .healthy) :
    Base (s.log m) :=
  ⟨h.healthFile, h.persistent, h.announced, h.honest.cons fun he => absurd he hm⟩

theorem Settling.log {incomplete : Prop} {s : Watcher} (h : Settling incomplete s) {m : Moment}
    (hm : m ≠ .recorded .healthy) : Settling incomplete (s.log m) :=
  ⟨h.toBase.log hm, h.degraded⟩

/-- The state of the queue and of the ingest thread does not matter. -/
theorem Settling.threads {incomplete : Prop} {s : Watcher} (h : Settling incomplete s)
    (events : DebouncedPathQueue) (failure : Option Str) (attached started alive : Bool) :
    Settling incomplete { s with
      events := events
      eventIngestFailure := failure
      observerAttached := attached
      ingestStarted := started
      ingestAlive := alive } :=
  ⟨⟨h.healthFile, h.persistent, h.announced, h.honest⟩, h.degraded⟩

/-- The other threads, quiet steps and interruptions keep the assertions. -/
theorem steady (incomplete : Prop) (st : List ScanInProgress) :
    Steady ((settling incomplete).on st) where
  quiet := by
    rintro s s' hq ⟨hst, hs⟩
    exact ⟨hq.scans.trans hst, fun ht => (hs (ht.of_quiet hq.log)).quiet hq⟩
  overflow := by
    rintro s events - ⟨hst, hs⟩
    exact ⟨hst, fun ht => ((hs ht.tail).threads events _ _ _ _).log nofun⟩
  ingestFails := by
    rintro s reason ⟨hst, hs⟩
    exact ⟨hst, fun ht => ((hs ht.tail).threads _ (some reason) _ _ false).log nofun⟩
  raise := by
    rintro s e ⟨hst, hs⟩
    show ite _ _ _
    split
    · exact ⟨hst, fun ht => (hs ht).toBase⟩
    · exact fun ht => (hs ht).toBase
  stop := fun ⟨_, hs⟩ ht => (hs ht).toBase

/-! ## Records -/

@[simp] theorem after_healthFile (sink : WatchEvidenceSink) (event : WatchEvent) :
    (sink.after event).healthFile = sink.healthFile := by
  unfold WatchEvidenceSink.after
  split
  · rfl
  · cases event with
    | scan e _ _ _ _ => cases e <;> rfl
    | _ => rfl

theorem absorb_healthFile (sink : WatchEvidenceSink) (event : WatchEvent) :
    (sink.absorb event).healthFile = sink.healthFile := by
  cases event with
  | scan e _ _ _ _ => cases e <;> rfl
  | _ => rfl

/-- A record after which a raised flag means a degraded sink settles the state. -/
theorem Base.recorded {s : Watcher} (h : Base s) {event : WatchEvent}
    (hev : s.operationalIncomplete = true → (s.sink.after event).operationalState = .degraded) :
    Settled (s.recorded event) where
  healthFile := (after_healthFile s.sink event).trans h.healthFile
  persistent := h.persistent
  announced := h.announced
  honest := by
    refine h.honest.cons fun he => ?_
    cases hop : s.operationalIncomplete with
    | false => rfl
    | true =>
        have hstate : (s.sink.after event).operationalState = .healthy := Moment.recorded.inj he
        rw [hev hop] at hstate
        cases hstate
  degraded hop := .inl (hev hop)

theorem Base.absorb {s : Watcher} (h : Base s) (event : WatchEvent) :
    Base { s with sink := s.sink.absorb event } :=
  ⟨(absorb_healthFile s.sink event).trans h.healthFile, h.persistent, h.announced, h.honest⟩

/-- Emitting a record keeps or settles the assertions, when it leaves a degraded sink
behind a raised flag. -/
theorem emit_settles {incomplete : Prop} {st : List ScanInProgress} {event : WatchEvent}
    (hev : ∀ s, Settling incomplete s → s.operationalIncomplete = true →
      (s.sink.after event).operationalState = .degraded) {s : Watcher}
    (hs : ((settling incomplete).on st).inside s) :
    wp w (emit event) (((settling incomplete).on st).postWith fun _ => scheme.inside st) s := by
  refine wp_emit (steady incomplete st).point ((steady incomplete st).quiet Quiet.still hs)
    fun s hs => ⟨fun e => (steady incomplete st).raise e hs, fun e _ _ => ?_, hs.1, fun ht => ?_⟩
  · obtain ⟨hst, hs⟩ := hs
    show ite _ _ _
    split
    · exact ⟨hst, fun ht => (hs ht).toBase.absorb event⟩
    · exact fun ht => (hs ht).toBase.absorb event
  · have hset := hs.2 ht.tail
    exact hset.toBase.recorded (hev s hset)

/-- Emitting a record that keeps the sink degraded keeps the assertions. -/
theorem emit_keeps {st : List ScanInProgress} {event : WatchEvent}
    (hev : ∀ sink : WatchEvidenceSink, sink.operationalState = .degraded →
      (sink.after event).operationalState = .degraded) : Keeps w (scheme.on st) (emit event) :=
  fun _ hs => emit_settles (fun s hset hop => hev s.sink ((hset.degraded hop).resolve_right id)) hs

theorem superseded_keeps (st : List ScanInProgress) (event : WatchEvent)
    (hev : WatchEvidenceSink.ignores event = true) : Keeps w (scheme.on st) (emit event) := by
  refine emit_keeps fun sink hsink => ?_
  rw [WatchEvidenceSink.after, if_pos (.inr hev)]
  exact hsink

/-- A record the sink takes in. -/
theorem after_operationalState {sink : WatchEvidenceSink} {event : WatchEvent}
    (hfile : sink.healthFile = true) (hev : WatchEvidenceSink.ignores event = false) :
    (sink.after event).operationalState = (sink.absorb event).operationalState := by
  rw [WatchEvidenceSink.after, if_neg]
  · rfl
  · rw [hfile, hev]
    decide

theorem heartbeat_degraded {sink : WatchEvidenceSink} (hsink : sink.operationalState = .degraded)
    (active : ActiveBackend) (roots : List Path) (operationalIncomplete : Bool)
    (phase : Option Trigger) (stats : WatchStats) (progress : Option ReconciliationProgress)
    (quarantine : Bool) :
    (sink.after (.healthHeartbeat active roots operationalIncomplete false phase stats progress
      quarantine)).operationalState = .degraded := by
  unfold WatchEvidenceSink.after
  split
  · exact hsink
  · cases operationalIncomplete with
    | true => rfl
    | false => exact hsink

theorem heartbeat_keeps (st : List ScanInProgress) (operationalIncomplete : Bool)
    (phase : Option Trigger) (stats : WatchStats) (progress : Option ReconciliationProgress) :
    Keeps w (scheme.on st)
      (emitHeartbeat operationalIncomplete false phase stats progress) := by
  refine Keeps.bind (Keeps.ask _) fun w' => Keeps.bind (Keeps.gets _) fun active => ?_
  exact emit_keeps fun sink hsink => heartbeat_degraded hsink _ _ _ _ _ _ _

/-! ## Health issues -/

/-- A health issue raises the flags. -/
theorem Base.raiseFlags {s : Watcher} (h : Base s) (code : HealthCode) (announced down : Bool) :
    Base ((s.raiseFlags code).log (.healthIssue code announced down)) where
  healthFile := h.healthFile
  persistent _ := rfl
  announced := by
    intro key hkey hrec
    show ite _ _ _ = true
    split
    · exact h.announced key hkey hrec
    · rfl
  honest := h.honest.cons nofun

theorem Base.keepIssue {s : Watcher} (h : Base s) (issue : HealthIssue)
    (hissue : issue.code.recoverable = false → s.persistentOperationalIncomplete = true) :
    Base (s.keepIssue issue) where
  healthFile := h.healthFile
  persistent := h.persistent
  announced := by
    intro key hkey hrec
    cases hkey with
    | head => exact hissue hrec
    | tail _ hmem => exact h.announced key hmem hrec
  honest := h.honest

/-- A new issue is announced, and the sink is degraded afterwards. -/
theorem announce_settles {incomplete : Prop} {st : List ScanInProgress} {code : HealthCode}
    {message : Str} {announced down : Bool} {s : Watcher}
    (hs : ((settling incomplete).on st).inside s) :
    wp w (do
        Prog.update (Watcher.keepIssue ⟨code, message⟩)
        emit (.healthIssue ⟨code, message⟩))
      (scheme.on st).post ((s.raiseFlags code).log (.healthIssue code announced down)) := by
  have hin : ((settling True).on st).inside (Watcher.keepIssue ⟨code, message⟩
      ((s.raiseFlags code).log (.healthIssue code announced down))) := by
    refine ⟨hs.1, fun ht => ⟨?_, fun _ => .inr trivial⟩⟩
    refine ((hs.2 ht.tail).toBase.raiseFlags code announced down).keepIssue _ fun hrec => ?_
    exact if_neg (ne_true_of_eq_false hrec)
  rw [wp_bind, wp_update, Post.withOk_ok]
  exact (emit_settles (fun s hset _ => after_operationalState hset.healthFile rfl) hin).mono
    ⟨fun _ _ hq => hq, fun _ _ hr => hr, fun _ hc => hc⟩

/-- A health issue that the scope of a scan does not explain leaves a degraded sink
behind, unless it is silent. -/
theorem healthIssue_keeps (st : List ScanInProgress) (code : HealthCode) (message : Str)
    (hcode : code ≠ .scanScopeIncomplete) :
    Keeps w (scheme.on st) (healthIssue code message) := by
  intro s hs
  show wp w (Prog.state >>= _) _ s
  simp only [wp_bind, wp_state, wp_update, Post.withOk_ok]
  refine (wp_ite _ _ _ _).2 ⟨fun hknown => ⟨hs.1, fun ht => ?_⟩, fun _ => announce_settles hs⟩
  rw [decide_eq_true_eq] at hknown
  have hset := hs.2 ht.tail
  refine ⟨hset.toBase.raiseFlags code _ _, fun _ => ?_⟩
  refine hset.degraded ?_
  cases hrec : code.recoverable with
  | false => exact hset.persistent (hset.announced _ hknown hrec)
  | true =>
      cases code with
      | watchPathUnreadable =>
          have hloud := ht _ List.mem_cons_self
          simpa [LogEntry.silent, hknown] using hloud
      | scanScopeIncomplete => exact absurd rfl hcode
      | _ => cases hrec

/-! ## Scans -/

/-- The scans in progress do not matter. -/
theorem Settling.scans {incomplete : Prop} {s : Watcher} (h : Settling incomplete s)
    (scans : List ScanInProgress) : Settling incomplete { s with scans := scans } :=
  ⟨⟨h.healthFile, h.persistent, h.announced, h.honest⟩, h.degraded⟩

theorem onScan_scans {s : Watcher} {x : ScanInProgress} {st : List ScanInProgress}
    (f : ScanInProgress → ScanInProgress) (hst : s.scans = x :: st) :
    (s.onScan f).scans = f x :: st := by
  show s.scans.modifyHead f = _
  rw [hst]
  rfl

/-- A step on the locals of a scan, and an entry of the history that is no record. -/
theorem within_log {st : List ScanInProgress} {s : Watcher} {m : Moment}
    (hm : m ≠ .recorded .healthy) (f : ScanInProgress → ScanInProgress)
    (hs : (scheme.within st).inside s) : (scheme.within st).inside ((s.onScan f).log m) := by
  obtain ⟨x, hst, hs⟩ := hs
  exact ⟨f x, onScan_scans f hst, fun ht => ((hs ht.tail).scans _).log hm⟩

theorem issue_keeps (st : List ScanInProgress) (path : Path) (code : ScanCode)
    (message : Str) : Keeps w (scheme.within st) (issue path code message) := by
  intro s hs
  show (scheme.within st).inside ((s.onScan _).log (.issueFound _))
  exact within_log (by nofun) _ hs

theorem gap_keeps (st : List ScanInProgress) (f : ScanStats → ScanStats) :
    Keeps w (scheme.within st) (countGap f) := by
  intro s hs
  show (scheme.within st).inside ((s.onScan _).log .gapFound)
  exact within_log (by nofun) _ hs

/-- An exception the scanner catches leaves a degraded sink behind, unless it is silent. -/
theorem swallow_settles {st : List ScanInProgress} {x : ScanInProgress} {s : Watcher}
    (path : Path) (code : ScanCode) (e : PyError) (hs : scheme.failed (x :: st) s) :
    wp w (swallow path code e) (scheme.within st).post s := by
  show wp w (Prog.update _ >>= _) _ s
  rw [wp_bind, wp_update, Post.withOk_ok, wp_bind, wp_ask, Post.withOk_ok]
  refine issue_keeps st path code _ _ ⟨x, hs.1, fun ht => ⟨(hs.2 ht.tail).log nofun, fun hop => ?_⟩⟩
  have hloud := ht _ List.mem_cons_self
  have hop : s.operationalIncomplete = true := hop
  simp only [LogEntry.silent, hop, Bool.true_and, decide_eq_false_iff_not, not_not] at hloud
  exact .inl hloud

/-! ## Settling a scan -/

/-- A scan that is reported as incomplete. -/
def Incomplete (result : ScanResult) : Prop :=
  result.issues ≠ [] ∨ coverageGap result.stats = true

theorem recordOutcome_incomplete {result : ScanResult} (h : Incomplete result)
    (noHashOutcome : Option Outcome) : recordOutcome noHashOutcome result = .incomplete :=
  if_pos h.symm

theorem Settling.weaken {p q : Prop} {s : Watcher} (hpq : p → q) (h : Settling p s) :
    Settling q s :=
  ⟨h.toBase, fun hop => (h.degraded hop).imp_right hpq⟩

/-- Retained issues raise the flag, and the scan will be reported as incomplete. -/
theorem recordScanIssues_settling (st : List ScanInProgress) (result : ScanResult) {s : Watcher}
    (hs : scheme.inside st s) :
    wp w (recordScanIssues result) ((settling (result.issues ≠ [])).on st).post s := by
  show wp w (Prog.update _ >>= _) _ s
  rw [wp_bind, wp_update, Post.withOk_ok]
  have hcount : scheme.inside st (s.countIssues result.issues) :=
    (steady False st).quiet Quiet.still hs
  refine (wp_ite _ _ _ _).2 ⟨fun hissues => ?_, fun _ => ?_⟩
  · rw [wp_bind, wp_update, Post.withOk_ok]
    refine Keeps.forEach (A := (settling (result.issues ≠ [])).on st) (fun i => ?_) _ _ ?_
    · exact Keeps.bind (Keeps.ask _) fun _ => (steady _ st).update fun _ => Quiet.still
    · refine ⟨hcount.1, fun ht => ?_⟩
      have hset := hcount.2 ht.tail
      exact ⟨⟨hset.healthFile, fun _ => rfl, hset.announced, hset.honest.cons nofun⟩,
        fun _ => .inr hissues⟩
  · exact ⟨hcount.1, fun ht => (hcount.2 ht).weaken False.elim⟩

/-- A coverage gap raises the flag, and the scan will be reported as incomplete. -/
theorem reportCoverageGap_settling (st : List ScanInProgress) (result : ScanResult) {s : Watcher}
    (hs : (settling (result.issues ≠ [])).inside st s) :
    wp w (reportCoverageGap result) ((settling (Incomplete result)).on st).post s := by
  refine (wp_ite _ _ _ _).2 ⟨fun hgap => ?_, fun _ => ?_⟩
  · show wp w (Prog.state >>= _) _ s
    simp only [wp_bind, wp_state, wp_update, Post.withOk_ok]
    refine (wp_ite _ _ _ _).2 ⟨fun hknown => ⟨hs.1, fun ht => ?_⟩, fun _ => ?_⟩
    · exact ⟨(hs.2 ht.tail).toBase.raiseFlags _ _ _, fun _ => .inr (.inr hgap)⟩
    · exact (announce_settles hs).mono
        ⟨fun _ s hq => ⟨hq.1, fun ht => (hq.2 ht).weaken False.elim⟩, fun _ _ hr => hr,
          fun _ hc => hc⟩
  · exact ⟨hs.1, fun ht => (hs.2 ht).weaken Or.inl⟩

/-- A failed quarantine raises the flag, and the scan will be reported as incomplete,
unless the failure is silent. -/
theorem quarantineOne_keeps (st : List ScanInProgress) (incomplete : Prop)
    (records : List QuarantineRecord) (finding : FileFinding) :
    Keeps w ((settling incomplete).on st) (quarantineOne records finding) := by
  have hfail : ∀ f, Keeps w ((settling incomplete).on st)
      (Prog.update (Watcher.quarantineFailure f)) := by
    refine fun f => Keeps.update fun s hs => ⟨hs.1, fun ht => ?_⟩
    have hset := hs.2 ht.tail
    refine ⟨⟨hset.healthFile, fun _ => rfl, fun _ _ _ => rfl, hset.honest.cons nofun⟩, fun _ => ?_⟩
    refine hset.degraded ?_
    have hloud := ht _ List.mem_cons_self
    simpa [LogEntry.silent] using hloud
  refine Keeps.bind (Keeps.ask _) fun host => ?_
  refine Keeps.bind ((steady incomplete st).call _) fun r => ?_
  cases r with
  | ok entry => exact Keeps.bind ((steady incomplete st).update fun _ => Quiet.still) fun _ => Keeps.pure _
  | error e =>
      cases e with
      | shield e =>
          cases e with
          | quarantinePartialError text entryId => exact Keeps.bind (hfail _) fun _ => Keeps.pure _
          | _ => exact Keeps.bind (hfail _) fun _ => Keeps.pure _
      | _ => exact Keeps.raise fun _ hs => (steady incomplete st).raise _ hs

/-- The record of an incomplete scan leaves a degraded sink behind, and no scan record
raises the health of a degraded sink. -/
theorem scan_degraded {s : Watcher} {result : ScanResult} (hset : Settling (Incomplete result) s)
    (hop : s.operationalIncomplete = true) (c : ScanCall) (records : List QuarantineRecord) :
    (s.sink.after (.scan c.event c.triggers (recordOutcome c.noHashOutcome result) result
      records)).operationalState = .degraded := by
  rw [after_operationalState hset.healthFile rfl]
  obtain hdeg | hinc := hset.degraded hop
  · cases c.event with
    | metadataInventoryCompleted =>
        show ite _ _ _ = OperationalState.degraded
        rw [hdeg]
        split <;> rfl
    | _ =>
        show ite _ _ _ = OperationalState.degraded
        rw [hdeg]
        split <;> rfl
  · rw [recordOutcome_incomplete hinc]
    cases c.event <;> rfl

/-- What holds inside a scan holds as it is left. -/
theorem leave {incomplete : Prop} {st : List ScanInProgress} {x : ScanInProgress} {α : Type}
    {p : WatchM α} {s : Watcher} {ok : α → Watcher → Prop}
    (h : wp w p (((settling incomplete).on (x :: st)).postWith ok) s)
    (hok : ∀ a s, ok a s → scheme.inside (x :: st) s) :
    wp w p (scheme.leaving st).post s := by
  refine h.mono ⟨fun a s hq => ?_, fun e s hr => ?_, fun _ hc => hc⟩
  · obtain ⟨hst, hs⟩ := hok a s hq
    exact ⟨congrArg List.tail hst, fun ht => (hs ht).scans _⟩
  · have hbase : ∀ {s : Watcher}, Base s → Base s.closeScan := fun h =>
      ⟨h.healthFile, h.persistent, h.announced, h.honest⟩
    have hr : ite _ _ _ := hr
    show ite _ _ _
    split at hr
    · rename_i he
      rw [if_pos he]
      exact ⟨congrArg List.tail hr.1, fun ht => hbase (hr.2 ht)⟩
    · rename_i he
      rw [if_neg he]
      exact fun ht => hbase (hr ht)

/-- The issues of a scan leave a degraded sink or an incomplete scan behind. -/
theorem settleIssues_settling {st : List ScanInProgress} {s : Watcher} (c : ScanCall)
    (result : ScanResult) (hs : scheme.inside st s) :
    wp w (settleIssues c result)
      ((scheme.on st).postWith fun r s' => (settling (Incomplete r)).inside st s') s := by
  refine ((steady False st).sortOutVanished (superseded_keeps st) _ _ result hs).bind
    (fun result s hs => ?_) (fun _ _ hr => hr) fun _ hc => hc
  obtain ⟨hs, -⟩ := hs
  refine Keeps.wp_bind ((steady False st).update fun _ => Quiet.still) hs fun _ s hs => ?_
  refine (recordScanIssues_settling st result hs).bind (fun _ s hs => ?_) (fun _ _ hr => hr)
    fun _ hc => hc
  exact (reportCoverageGap_settling st result hs).bind (fun _ s hs => hs) (fun _ _ hr => hr)
    fun _ hc => hc

/-- A settled scan leaves a degraded sink behind a raised flag. -/
theorem settle_settles {st : List ScanInProgress} {s : Watcher} (c : ScanCall)
    (result : ScanResult) (hs : scheme.inside st s) :
    wp w (settle c result) ((scheme.on st).postWith fun _ => scheme.inside st) s := by
  refine (settleIssues_settling c result hs).bind (fun result s hs => ?_) (fun _ _ hr => hr)
    fun _ hc => hc
  have hquarantine : Keeps w ((settling (Incomplete result)).on st)
      (quarantineFindings result.findings) := by
    refine Keeps.bind (Keeps.ask _) fun config => ?_
    exact Keeps.ite (fun _ => Keeps.foldEach (quarantineOne_keeps st _) _ _) fun _ => Keeps.pure _
  refine (hquarantine s hs).bind (fun records s hs => ?_) (fun _ _ hr => hr) fun _ hc => hc
  refine (emit_settles (fun s hset hop => scan_degraded hset hop c records) hs).bind
    (fun _ s hs => hs) (fun _ _ hr => hr) fun _ hc => hc

/-- The rules for scans, drains and callbacks. -/
theorem quietRules : QuietRules w scheme where
  stack hs := hs.1
  failed hs := ⟨hs.1, fun ht => (hs.2 ht).toBase⟩
  cut hs ht := (hs.2 ht).toBase
  steady st := steady False st
  superseded := superseded_keeps
  healthIssue := healthIssue_keeps
  heartbeat := heartbeat_keeps
  openScan _ _ hs :=
    ⟨congrArg (_ :: ·) hs.1, fun ht => (hs.2 ht).scans _⟩
  onScan f _ _ hs := ⟨onScan_scans f hs.1, fun ht => (hs.2 ht).scans _⟩
  issue := issue_keeps
  gap st f _ := gap_keeps st f
  swallow path code e _ hs := swallow_settles path code e hs
  settle c _ _ hs := leave (settle_settles c _ hs) fun _ _ hs => hs
  closeFailed hs := ⟨congrArg List.tail hs.1, fun ht =>
    ⟨(hs.2 ht).healthFile, (hs.2 ht).persistent, (hs.2 ht).announced, (hs.2 ht).honest⟩⟩
  closeCut hs ht := ⟨(hs ht).healthFile, (hs ht).persistent, (hs ht).announced, (hs ht).honest⟩

/-! ## Reconciliations and sessions -/

theorem openReconciliation_keeps (trigger : Trigger) (full metadataOnly : Bool) :
    Keeps w (scheme.on []) (openReconciliation trigger full metadataOnly) := by
  have hclock := (steady False []).call World.clock (w := w)
  refine Keeps.bind ((steady False []).update fun _ => Quiet.still) fun _ => ?_
  refine Keeps.bind hclock fun started => ?_
  refine Keeps.bind (Keeps.update fun s hs => ⟨hs.1, fun ht => ?_⟩) fun _ => ?_
  · have hset := hs.2 ht.tail
    exact ⟨⟨hset.healthFile, hset.persistent, hset.announced, hset.honest.cons nofun⟩,
      hset.degraded⟩
  · refine Keeps.bind hclock fun _ => Keeps.bind (Keeps.ask _) fun _ => ?_
    refine Keeps.bind ((steady False []).update fun _ => {}) fun _ => ?_
    exact Keeps.bind hclock fun _ => (steady False []).update fun _ => {}

/-- The assertion while the flag is down. -/
def lowered : Assertion Watcher PyError where
  inside s := scheme.inside [] s ∧ s.operationalIncomplete = false
  raised := (scheme.on []).raised
  halted := scheme.cut

theorem lowered_steady : Steady lowered where
  quiet hq hs := ⟨(steady False []).quiet hq hs.1, hq.operational.trans hs.2⟩
  overflow events ho hs := ⟨(steady False []).overflow events ho hs.1, hs.2⟩
  ingestFails reason hs := ⟨(steady False []).ingestFails reason hs.1, hs.2⟩
  raise e hs := (steady False []).raise e hs.1
  stop hs := (steady False []).stop hs.1

/-- While the flag is down every record is honest. -/
theorem emit_lowered (event : WatchEvent) : Keeps w lowered (emit event) := by
  intro s hs
  show wp w (emit event) (lowered.postWith fun _ => lowered.inside) s
  refine wp_emit lowered_steady.point (lowered_steady.quiet Quiet.still hs) fun s hs =>
    ⟨fun e => lowered_steady.raise e hs, fun e _ _ => ?_, ⟨hs.1.1, fun ht => ?_⟩, hs.2⟩
  · obtain ⟨⟨hst, hs⟩, -⟩ := hs
    show ite _ _ _
    split
    · exact ⟨hst, fun ht => (hs ht).toBase.absorb _⟩
    · exact fun ht => (hs ht).toBase.absorb _
  · refine (hs.1.2 ht.tail).toBase.recorded fun hop => ?_
    rw [hs.2] at hop
    cases hop

theorem closeReconciliation_keeps (result : ScanResult) :
    Keeps w (scheme.on []) (closeReconciliation result) := by
  refine Keeps.bind ((steady False []).update fun _ =>
    Quiet.aside ((QuietLog.refl _ _).cons rfl) rfl rfl) fun _ => ?_
  intro s hs
  rw [wp_bind, wp_gets, Post.withOk_ok]
  refine (wp_ite _ _ _ _).2 ⟨fun hmay => ?_, fun _ => hs⟩
  have hper : s.persistentOperationalIncomplete = false := by
    simp only [Watcher.mayRecover, Bool.and_eq_true, Bool.not_eq_true'] at hmay
    tauto
  have hrec : lowered.inside s.recover := by
    refine ⟨⟨hs.1, fun ht => ?_⟩, rfl⟩
    have hset := hs.2 ht.tail
    refine ⟨⟨hset.healthFile, fun h => ?_, hset.announced, hset.honest.cons nofun⟩, nofun⟩
    have h : s.persistentOperationalIncomplete = true := h
    rw [hper] at h
    cases h
  rw [wp_bind, wp_update, Post.withOk_ok]
  have hstats : Keeps w lowered statsSnapshot :=
    Keeps.bind (lowered_steady.call _) fun _ => Keeps.gets _
  refine (hstats _ hrec).bind (fun stats s hs => ?_) (fun _ _ hr => hr) fun _ hc => hc
  show wp w (Prog.ask _ >>= _) _ s
  simp only [wp_bind, wp_ask, wp_gets, Post.withOk_ok]
  exact (emit_lowered _ s hs).mono ⟨fun _ _ hq => hq.1, fun _ _ hr => hr, fun _ hc => hc⟩

/-! ## Shutdown -/

/-- The assertion for the end of a session. -/
abbrev ended : Assertion Watcher PyError := Assertion.always scheme.cut

theorem ended_steady : Steady ended where
  quiet hq hs ht := (hs (ht.of_quiet hq.log)).quiet hq
  overflow events _ hs ht := by
    have hbase := hs ht.tail
    exact ⟨hbase.healthFile, hbase.persistent, hbase.announced, hbase.honest.cons nofun⟩
  ingestFails reason hs ht := by
    have hbase := hs ht.tail
    exact ⟨hbase.healthFile, hbase.persistent, hbase.announced, hbase.honest.cons nofun⟩
  raise _ hs := hs
  stop hs := hs

/-- At the end of a session a record that leaves no healthy sink is honest. -/
theorem emit_ended {event : WatchEvent} (hev : WatchEvidenceSink.ignores event = false)
    (hstate : ∀ sink : WatchEvidenceSink, (sink.absorb event).operationalState ≠ .healthy) :
    Keeps w ended (emit event) := by
  intro s hs
  refine (wp_emit ended_steady.point (ended_steady.quiet Quiet.still hs)
    fun s hs => ⟨fun _ => hs, fun _ _ _ => ?_, ?_⟩).mono
      ⟨fun _ _ hq => hq, fun _ _ hr => hr, fun _ hc => hc⟩
  · exact fun ht => (hs ht).absorb event
  · intro ht
    have hbase := hs ht.tail
    refine ⟨(after_healthFile _ _).trans hbase.healthFile, hbase.persistent, hbase.announced,
      hbase.honest.cons fun he => ?_⟩
    have hhealthy : (s.sink.after event).operationalState = .healthy := Moment.recorded.inj he
    rw [after_operationalState hbase.healthFile hev] at hhealthy
    exact absurd hhealthy (hstate s.sink)

theorem healthIssue_ended (code : HealthCode) (message : Str) :
    Keeps w ended (healthIssue code message) := by
  intro s hs
  show wp w (Prog.state >>= _) _ s
  simp only [wp_bind, wp_state, wp_update, Post.withOk_ok]
  have hraise : ∀ announced down,
      scheme.cut ((s.raiseFlags code).log (.healthIssue code announced down)) :=
    fun announced down ht => (hs ht.tail).raiseFlags code announced down
  refine (wp_ite _ _ _ _).2 ⟨fun _ => hraise _ _, fun _ => ?_⟩
  refine emit_ended rfl ?_ _ fun ht => ?_
  · intro sink hhealthy
    cases hhealthy
  · refine (hraise _ _ ht).keepIssue _ fun hrec => ?_
    exact if_neg (ne_true_of_eq_false hrec)

theorem runRules : RunRules w lowered scheme (fun _ => scheme)
    (fun _ _ => scheme.inside []) where
  base := quietRules.toScanRules
  walk _ := quietRules.toScanRules
  visit m path stat := quietRules.visit m path stat []
  openReconciliation trigger full m hs := openReconciliation_keeps trigger full m _ hs
  settle c host completedAt hs := leave (settle_settles c _ hs) fun _ _ hs => hs
  closeReconciliation hq := closeReconciliation_keeps _ _ hq
  failed hs := hs
  cut hs := hs
  drainDue := quietRules.drainDue []
  heartbeat operationalIncomplete stats := heartbeat_keeps [] operationalIncomplete none stats none
  pipeline := keeps_pipeline (steady False []).point (fun _ => (steady False []).update fun _ => Quiet.still)
    (fun _ hs => ⟨hs.1, fun ht => (hs.2 ht).threads _ _ _ _ _⟩) (healthIssue_keeps [])
  startIngest hs := ⟨hs.1, fun ht => (hs.2 ht).threads _ _ _ _ _⟩
  before := lowered_steady.toStartRules fun _ hs =>
    ⟨⟨hs.1.1, fun ht => (hs.1.2 ht).threads _ _ _ _ _⟩, hs.2⟩
  cut_of_raised {e s} hr := by
    have hr : ite _ _ _ := hr
    split at hr
    · exact hr.2
    · exact hr
  cut_of_halted hc := hc
  fallback reason := emit_lowered _
  sessionStarted {s} hs := by
    show wp w (Prog.ask _ >>= _) _ s
    simp only [wp_bind, wp_ask, wp_state, Post.withOk_ok]
    exact (emit_lowered _ s hs).mono ⟨fun _ _ hq => hq.1, fun _ _ hr => hr, fun _ hc => hc⟩
  cut_of_failed hs := hs.2
  after := by
    have hcongr : ∀ {s s' : Watcher}, (Base s → Base s') → s'.ghost.log = s.ghost.log →
        scheme.cut s → scheme.cut s' := fun h hlog hs ht => h (hs (hlog ▸ ht))
    have hissue := fun code message (_ : code ≠ .scanScopeIncomplete) =>
      healthIssue_ended (w := w) code message
    refine ended_steady.toShutdownRules (fun _ => hcongr ?_ rfl) (keeps_pipeline
      ended_steady.point (fun _ => ended_steady.update fun _ => Quiet.still) (fun _ => hcongr ?_ rfl) hissue)
      (hcongr ?_ rfl) hissue
    · exact fun h => ⟨h.healthFile, h.persistent, h.announced, h.honest⟩
    · exact fun h => ⟨h.healthFile, h.persistent, h.announced, h.honest⟩
    · exact fun h => ⟨h.healthFile, h.persistent, h.announced, h.honest⟩
  sessionCompleted summary :=
    emit_ended rfl fun _ (h : OperationalState.stopped = .healthy) => nomatch h

end PersistedHealth

/-- The watcher at the start of a session with a health file. -/
def Watcher.withHealthFile (excluded : List Str) (config : WatchConfig) (eventLog : Bool) :
    Watcher :=
  Watcher.new excluded config { healthFile := true, eventLog := eventLog }

/-- In every run without a silent entry, whenever the sink has processed a record and is
healthy, the operational flag of the watcher is down. -/
theorem persisted_health_honest (w : World) (excluded : List Str) (eventLog : Bool)
    (duration : Option ℚ)
    (htold : Told (run duration w (Watcher.withHealthFile excluded w.config eventLog)).2.ghost.log) :
    Honest (run duration w (Watcher.withHealthFile excluded w.config eventLog)).2.ghost.log := by
  refine (PersistedHealth.runRules.run duration ?_ htold).honest
  refine ⟨⟨rfl, fun _ => ⟨⟨rfl, nofun, nofun, ?_⟩, nofun⟩⟩, rfl⟩
  intro e he hrec
  cases he with
  | head => cases hrec
  | tail _ hmem => cases hmem

/-- A world in which a quarantine fails after the inventory. -/
def World.failingQuarantine : World :=
  { World.calm with
    config := { World.calm.config with quarantine := true }
    threads := fun tick =>
      if tick = 5 then [.submit 0 (str "/r/a") .closedAfterWrite false] else []
    scanFile := fun _ path _ => .hashed 3 (some (FileFinding.sample path)) [] }

/-- In its session the persisted health is not honest. -/
instance failingQuarantine_dishonest : Fact (¬ Honest (run none World.failingQuarantine
    (Watcher.withHealthFile [] World.failingQuarantine.config false)).2.ghost.log) :=
  ⟨by decide +kernel⟩

/-- The record of a batch whose quarantine failed leaves the sink healthy while the flag
is up. -/
theorem persisted_health_dishonest :
    ¬ ∀ (w : World) (excluded : List Str) (eventLog : Bool) (duration : Option ℚ),
      Honest (run duration w (Watcher.withHealthFile excluded w.config eventLog)).2.ghost.log := by
  intro h
  exact failingQuarantine_dishonest.out (h World.failingQuarantine [] false none)

/-- A world in which a changed file cannot be opened. -/
def World.failingOpen : World :=
  { World.calm with
    threads := fun tick =>
      if tick = 5 then [.submit 0 (str "/r/a") .closedAfterWrite false] else []
    scanFile := fun _ _ _ => .failed .fileOpenFailed (str "permission denied") }

/-- In its session no entry is silent. -/
instance failingOpen_told : Fact (Told (run none World.failingOpen
    (Watcher.withHealthFile [] World.failingOpen.config false)).2.ghost.log) :=
  ⟨by decide +kernel⟩

/-- A run with an incomplete scan and no silent entry. -/
theorem persisted_health_honest_failingOpen :
    Honest (run none World.failingOpen
      (Watcher.withHealthFile [] World.failingOpen.config false)).2.ghost.log :=
  persisted_health_honest _ [] false none failingOpen_told.out

end ZsecShield.Watch
