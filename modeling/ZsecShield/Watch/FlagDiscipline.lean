import ZsecShield.Watch.Quiet

/-!
# The discipline of the health flags

`FlagState` is the part of the watcher that the discipline speaks about.  The
invariant `Base` holds of every reachable state.  Inside a reconciliation
`Walk` says that a failure since it began has advanced the generation, raised the
persistent flag, overflowed the queue, stopped the ingest thread, or waits in the
local variables of a scan in progress.  The guard of the recovery rules each of
these out, so the flag comes down only after a reconciliation without a failure.
-/

namespace ZsecShield.Watch

open Text (Str str)
open Effect

variable {w : World}

/-! ## Failures -/

/-- A failure the watcher has taken notice of. -/
def Moment.reported : Moment → Bool
  | .issueRetained | .quarantineFailed _ | .healthIssue .. => true
  | _ => false

/-- A failure a scan has found.  An issue that may be put down to a path that vanished
is a failure once it is retained. -/
def Moment.found : Moment → Bool
  | .issueFound vanishable => !vanishable
  | .gapFound => true
  | _ => false

/-- A scan issue, a coverage gap, a quarantine failure, a queue overflow, an ingest
failure or another health issue. -/
def Moment.failure : Moment → Bool
  | .overflow | .ingestFailed => true
  | m => m.reported || m.found

/-- The beginning of a reconciliation. -/
def Moment.begins : Moment → Bool
  | .reconcileBegan _ => true
  | _ => false

theorem Moment.failure_of_reported {m : Moment} (h : m.reported = true) : m.failure = true := by
  cases m <;> first | rfl | cases h

theorem Moment.failure_cases {m : Moment} (h : m.failure = true) :
    m.reported = true ∨ m.found = true ∨ m = .overflow ∨ m = .ingestFailed := by
  cases m with
  | overflow => exact .inr (.inr (.inl rfl))
  | ingestFailed => exact .inr (.inr (.inr rfl))
  | issueRetained | quarantineFailed | healthIssue => exact .inl rfl
  | issueFound | gapFound => exact .inr (.inl h)
  | _ => cases h

theorem Moment.not_failure_of_quiet {m : Moment} (h : m.quiet = true) : m.failure = false := by
  cases m <;> first | rfl | cases h

theorem Moment.not_begins_of_quiet {m : Moment} (h : m.quiet = true) : m.begins = false := by
  cases m <;> first | rfl | cases h

/-- The history since a reconciliation began, in which no other one began.  A failure in
it implies `P`. -/
def Since (metadataOnly : Bool) (log : List LogEntry) (P : Prop) : Prop :=
  ∃ during before flag, log = during ++ ⟨.reconcileBegan metadataOnly, flag⟩ :: before ∧
    (∀ e ∈ during, e.moment.begins = false) ∧ ((∃ e ∈ during, e.moment.failure = true) → P)

theorem Since.mono {m : Bool} {log : List LogEntry} {P Q : Prop} (h : Since m log P)
    (hpq : P → Q) : Since m log Q := by
  obtain ⟨during, before, flag, heq, hbegin, hfail⟩ := h
  exact ⟨during, before, flag, heq, hbegin, fun hex => hpq (hfail hex)⟩

theorem Since.cons {m : Bool} {log : List LogEntry} {P : Prop} {e : LogEntry}
    (h : Since m log P) (hbegin : e.moment.begins = false) (hfail : e.moment.failure = true → P) :
    Since m (e :: log) P := by
  obtain ⟨during, before, flag, rfl, hbegins, hfails⟩ := h
  refine ⟨e :: during, before, flag, rfl, ?_, ?_⟩
  · intro e' he'
    cases he' with
    | head => exact hbegin
    | tail _ hmem => exact hbegins e' hmem
  · rintro ⟨e', he', hf⟩
    cases he' with
    | head => exact hfail hf
    | tail _ hmem => exact hfails ⟨e', hmem, hf⟩

/-- The history ends with the end of a reconciliation that inspects content and during
which no failure occurred. -/
def CleanReconcile (log : List LogEntry) : Prop :=
  (∃ snapshot attempts flag rest, log = ⟨.reconcileEnded snapshot attempts, flag⟩ :: rest) ∧
    Since false log False

/-- The operational flag comes down only as a recovery, at the end of a clean
reconciliation. -/
def Disciplined (log : List LogEntry) : Prop :=
  ∀ later e₂ e₁ earlier, log = later ++ e₂ :: e₁ :: earlier →
    e₁.operationalIncomplete = true → e₂.operationalIncomplete = false →
      (∃ visited attempts, e₂.moment = .recovered visited attempts) ∧
        CleanReconcile (e₁ :: earlier)

theorem Disciplined.cons {log : List LogEntry} {e : LogEntry} (h : Disciplined log)
    (hdown : ∀ e₁ earlier, log = e₁ :: earlier → e₁.operationalIncomplete = true →
      e.operationalIncomplete = false →
        (∃ visited attempts, e.moment = .recovered visited attempts) ∧ CleanReconcile log) :
    Disciplined (e :: log) := by
  intro later e₂ e₁ earlier heq hup hlow
  cases later with
  | nil =>
      obtain ⟨rfl, rfl⟩ := List.cons_eq_cons.1 heq
      exact hdown e₁ earlier rfl hup hlow
  | cons e' later =>
      injection heq with _ hrest
      exact h later e₂ e₁ earlier hrest hup hlow

/-! ## The flags and their history -/

/-- The part of the watcher that the discipline speaks about. -/
structure FlagState where
  operational : Bool
  historical : Bool
  persistent : Bool
  generation : Nat
  startGeneration : Nat
  metadataOnly : Bool
  overflowed : Bool
  ingestFailed : Bool
  attached : Bool
  ingestStarted : Bool
  ingestAlive : Bool
  log : List LogEntry

def Watcher.flags (s : Watcher) : FlagState where
  operational := s.operationalIncomplete
  historical := s.historicalOperationalIncomplete
  persistent := s.persistentOperationalIncomplete
  generation := s.incompleteGeneration
  startGeneration := s.reconciliation.incompleteGeneration
  metadataOnly := s.reconciliation.metadataOnly
  overflowed := s.events.overflowed
  ingestFailed := s.eventIngestFailure.isSome
  attached := s.observerAttached
  ingestStarted := s.ingestStarted
  ingestAlive := s.ingestAlive
  log := s.ghost.log

namespace FlagState

/-- Extend the history. -/
def note (v : FlagState) (m : Moment) : FlagState := { v with log := ⟨m, v.operational⟩ :: v.log }

@[simp] theorem flags_log (s : Watcher) (m : Moment) : (s.log m).flags = s.flags.note m := rfl

/-- What holds of every state, also while the flags are about to go up. -/
structure Core (v : FlagState) : Prop where
  disciplined : Disciplined v.log
  ingest : (∃ e ∈ v.log, e.moment = .ingestFailed) → v.ingestFailed = true
  started : v.ingestAlive = true → v.ingestStarted = true

/-- What holds of every reachable state. -/
structure Base (v : FlagState) : Prop extends Core v where
  persistent : v.persistent = true → v.operational = true
  operational : v.operational = true → v.historical = true
  caused : v.historical = true → ∃ e ∈ v.log, e.moment.reported = true
  newest : ∀ e ∈ v.log.head?, e.operationalIncomplete = true → v.operational = true
  reported : ∀ e ∈ v.log, e.moment.reported = true → v.historical = true
  dropped : (∃ e ∈ v.log, e.moment = .overflow) → v.historical = true ∨ v.overflowed = true

/-- An entry whose consequences the state already shows. -/
theorem Base.note {v : FlagState} (h : Base v) {m : Moment}
    (hreported : m.reported = true → v.historical = true)
    (hoverflow : m = .overflow → v.overflowed = true)
    (hfailed : m = .ingestFailed → v.ingestFailed = true) : Base (v.note m) where
  persistent := h.persistent
  operational := h.operational
  caused hist := by
    obtain ⟨e, he, hf⟩ := h.caused hist
    exact ⟨e, List.mem_cons_of_mem _ he, hf⟩
  disciplined := by
    refine h.disciplined.cons fun e₁ earlier heq hup hlow => ?_
    have hop := h.newest e₁ (by rw [heq]; rfl) hup
    exact absurd (hlow.symm.trans hop) Bool.false_ne_true
  newest := by
    rintro e he hup
    obtain rfl := Option.mem_some_iff.1 he
    exact hup
  reported := by
    intro e he hr
    cases he with
    | head => exact hreported hr
    | tail _ hmem => exact h.reported e hmem hr
  dropped := by
    rintro ⟨e, he, hm⟩
    cases he with
    | head => exact .inr (hoverflow hm)
    | tail _ hmem => exact h.dropped ⟨e, hmem, hm⟩
  ingest := by
    rintro ⟨e, he, hm⟩
    cases he with
    | head => exact hfailed hm
    | tail _ hmem => exact h.ingest ⟨e, hmem, hm⟩
  started := h.started

/-- An entry that is no failure. -/
theorem Base.note_other {v : FlagState} (h : Base v) {m : Moment}
    (hreported : m.reported = false) (hoverflow : m ≠ .overflow) (hfailed : m ≠ .ingestFailed) :
    Base (v.note m) :=
  h.note (fun hr => absurd (hreported.symm.trans hr) Bool.false_ne_true)
    (fun hm => absurd hm hoverflow) fun hm => absurd hm hfailed

/-- The flags go up. -/
def raise (persistent : Bool) (generation : Nat) (v : FlagState) : FlagState :=
  { v with
    operational := true
    historical := true
    persistent := persistent
    generation := generation }

/-- The flags go up, and an entry reports why. -/
theorem Core.raise {v : FlagState} (h : Core v) {m : Moment} (hm : m.reported = true)
    (persistent : Bool) (generation : Nat) :
    Base ((v.raise persistent generation).note m) where
  persistent _ := rfl
  operational _ := rfl
  caused _ := ⟨_, List.mem_cons_self, hm⟩
  disciplined := h.disciplined.cons fun _ _ _ _ hlow => absurd hlow nofun
  newest _ _ _ := rfl
  reported _ _ _ := rfl
  dropped _ := .inl rfl
  ingest := by
    rintro ⟨e, he, hmoment⟩
    cases he with
    | head =>
        have hmoment : m = .ingestFailed := hmoment
        rw [hmoment] at hm
        cases hm
    | tail _ hmem => exact h.ingest ⟨e, hmem, hmoment⟩
  started := h.started


/-- Quiet entries. -/
theorem Base.quiet {v : FlagState} (h : Base v) {log : List LogEntry}
    (hq : QuietLog v.operational v.log log) : Base { v with log := log } := by
  obtain ⟨moments, hall, rfl⟩ := hq
  induction moments with
  | nil => exact h
  | cons m rest ih =>
      have hm := Moment.not_failure_of_quiet (hall m List.mem_cons_self)
      refine (ih fun m' hm' => hall m' (List.mem_cons_of_mem _ hm')).note_other ?_ ?_ ?_
      · cases hr : m.reported with
        | false => rfl
        | true => exact absurd (hm.symm.trans (Moment.failure_of_reported hr)) Bool.false_ne_true
      · rintro rfl
        cases hm
      · rintro rfl
        cases hm

/-- The queue overflows. -/
theorem Base.overflow {v : FlagState} (h : Base v) :
    Base (FlagState.note { v with overflowed := true } .overflow) := by
  have hbase : Base { v with overflowed := true } :=
    ⟨⟨h.disciplined, h.ingest, h.started⟩, h.persistent, h.operational, h.caused, h.newest,
      h.reported, fun _ => .inr rfl⟩
  exact hbase.note nofun (fun _ => rfl) nofun

/-- The ingest thread fails. -/
theorem Base.ingestFails {v : FlagState} (h : Base v) :
    Base (FlagState.note { v with ingestFailed := true, ingestAlive := false } .ingestFailed) := by
  have hbase : Base { v with ingestFailed := true, ingestAlive := false } :=
    ⟨⟨h.disciplined, fun _ => rfl, nofun⟩, h.persistent, h.operational, h.caused, h.newest,
      h.reported, h.dropped⟩
  exact hbase.note nofun nofun fun _ => rfl

/-- The end of a reconciliation lowers the operational flag. -/
theorem Base.recover {v : FlagState} (h : Base v) (hper : v.persistent = false)
    (hclean : CleanReconcile v.log) (visited : List Bytes)
    (attempts : Bytes → Option Inspection) :
    Base (FlagState.note { v with operational := false } (.recovered visited attempts)) where
  disciplined := h.disciplined.cons fun _ _ _ _ _ => ⟨⟨_, _, rfl⟩, hclean⟩
  ingest := by
    rintro ⟨e, he, hm⟩
    cases he with
    | head => cases hm
    | tail _ hmem => exact h.ingest ⟨e, hmem, hm⟩
  started := h.started
  persistent hp := absurd (hper.symm.trans hp) Bool.false_ne_true
  operational := by rintro ⟨⟩
  caused hist := by
    obtain ⟨e, he, hf⟩ := h.caused hist
    exact ⟨e, List.mem_cons_of_mem _ he, hf⟩
  newest := by
    rintro e he hup
    obtain rfl := Option.mem_some_iff.1 he
    cases hup
  reported := by
    intro e he hr
    cases he with
    | head => cases hr
    | tail _ hmem => exact h.reported e hmem hr
  dropped := by
    rintro ⟨e, he, hm⟩
    cases he with
    | head => cases hm
    | tail _ hmem => exact h.dropped ⟨e, hmem, hm⟩

end FlagState

/-! ## Scans in progress -/

/-- The scan holds a failure that is still to be settled. -/
def ScanInProgress.Pending (x : ScanInProgress) : Prop :=
  (∃ i ∈ x.issues, ScanCode.vanishable i.code = false) ∨ coverageGap x.stats = true

/-- One of the scans holds a failure. -/
def Waiting (st : List ScanInProgress) : Prop := ∃ x ∈ st, x.Pending

namespace FlagState

/-- A recovery is out of reach. -/
def Blocked (st : List ScanInProgress) (v : FlagState) : Prop :=
  v.startGeneration < v.generation ∨ v.persistent = true ∨ v.overflowed = true ∨
    v.ingestFailed = true ∨ Waiting st

/-- The reconciliation under way, and a consequence of a failure in it. -/
structure Frame (m : Bool) (P : Prop) (v : FlagState) : Prop where
  mode : v.metadataOnly = m
  generation : v.startGeneration ≤ v.generation
  since : Since m v.log P

/-- Between two steps, with these scans still to be settled.  `o` is the mode of the
reconciliation under way. -/
structure Inside (o : Option Bool) (st : List ScanInProgress) (v : FlagState) : Prop
    extends Base v where
  found : (∃ e ∈ v.log, e.moment.found = true) → v.historical = true ∨ Waiting st
  walk : ∀ m ∈ o, Frame m (Blocked st v) v

/-- After an exception the scanner catches. -/
structure Failed (o : Option Bool) (v : FlagState) : Prop extends Base v where
  walk : ∀ m ∈ o, Frame m True v

theorem Frame.note {m : Bool} {P : Prop} {v : FlagState} (h : Frame m P v) {moment : Moment}
    (hbegin : moment.begins = false) (hfail : moment.failure = true → P) :
    Frame m P (v.note moment) :=
  ⟨h.mode, h.generation, h.since.cons hbegin hfail⟩

theorem Frame.mono {m : Bool} {P Q : Prop} {v : FlagState} (h : Frame m P v) (hpq : P → Q) :
    Frame m Q v := ⟨h.mode, h.generation, h.since.mono hpq⟩

theorem Inside.toFailed {o : Option Bool} {st : List ScanInProgress} {v : FlagState}
    (h : Inside o st v) : Failed o v :=
  ⟨h.toBase, fun m hm => (h.walk m hm).mono fun _ => trivial⟩

theorem Inside.mono {o : Option Bool} {st st' : List ScanInProgress} {v : FlagState}
    (h : Inside o st v) (hst : Waiting st → Waiting st') : Inside o st' v :=
  ⟨h.toBase, fun hf => (h.found hf).imp_right hst, fun m hm => (h.walk m hm).mono fun hb =>
    hb.imp_right (Or.imp_right (Or.imp_right (Or.imp_right hst)))⟩

/-- An entry that is no failure. -/
theorem Inside.note {o : Option Bool} {st : List ScanInProgress} {v : FlagState}
    (h : Inside o st v) {m : Moment} (hfail : m.failure = false) (hbegin : m.begins = false) :
    Inside o st (v.note m) := by
  have hno : ∀ {p : Moment → Bool}, (∀ m, p m = true → m.failure = true) → p m = false := by
    intro p hp
    cases hpm : p m with
    | false => rfl
    | true => exact absurd (hfail.symm.trans (hp m hpm)) Bool.false_ne_true
  refine ⟨h.toBase.note_other (hno fun _ => Moment.failure_of_reported) ?_ ?_, ?_, ?_⟩
  · rintro rfl
    cases hfail
  · rintro rfl
    cases hfail
  · rintro ⟨e, he, hf⟩
    cases he with
    | head =>
        refine absurd ((hno (p := Moment.found) fun m hm => ?_).symm.trans hf) (by rintro ⟨⟩)
        cases m <;> first | exact hm | cases hm
    | tail _ hmem => exact h.found ⟨e, hmem, hf⟩
  · exact fun m' hm' => (h.walk m' hm').note hbegin fun hf =>
      absurd (hfail.symm.trans hf) Bool.false_ne_true

theorem Inside.quiet {o : Option Bool} {st : List ScanInProgress} {v : FlagState}
    (h : Inside o st v) {log : List LogEntry} (hq : QuietLog v.operational v.log log) :
    Inside o st { v with log := log } := by
  obtain ⟨moments, hall, rfl⟩ := hq
  induction moments with
  | nil => exact h
  | cons m rest ih =>
      have hm := hall m List.mem_cons_self
      exact (ih fun m' hm' => hall m' (List.mem_cons_of_mem _ hm')).note
        (Moment.not_failure_of_quiet hm) (Moment.not_begins_of_quiet hm)

/-- The flags go up for a reported failure, which blocks a recovery. -/
theorem Core.raise_inside {o : Option Bool} {v : FlagState} (h : Core v)
    (hwalk : ∀ m ∈ o, Frame m True v) (st : List ScanInProgress) {moment : Moment}
    (hm : moment.reported = true) (persistent : Bool) (generation : Nat)
    (hgen : v.generation ≤ generation) (hblock : persistent = true ∨ v.generation < generation) :
    Inside o st ((v.raise persistent generation).note moment) := by
  refine ⟨h.raise hm persistent generation, fun _ => .inl rfl, fun m' hm' => ?_⟩
  have hframe := hwalk m' hm'
  have hblocked : Blocked st ((v.raise persistent generation).note moment) := by
    obtain hp | hg := hblock
    · exact .inr (.inl hp)
    · exact .inl (lt_of_le_of_lt hframe.generation hg)
  refine ⟨hframe.mode, hframe.generation.trans hgen, ?_⟩
  refine (hframe.since.mono fun _ => hblocked).cons ?_ fun _ => hblocked
  cases moment <;> first | rfl | cases hm

theorem Inside.overflow {o : Option Bool} {st : List ScanInProgress} {v : FlagState}
    (h : Inside o st v) : Inside o st (FlagState.note { v with overflowed := true } .overflow) := by
  refine ⟨h.toBase.overflow, ?_, ?_⟩
  · rintro ⟨e, he, hf⟩
    cases he with
    | head => cases hf
    | tail _ hmem => exact h.found ⟨e, hmem, hf⟩
  · intro m hm
    have hblocked : Blocked st (FlagState.note { v with overflowed := true } .overflow) :=
      .inr (.inr (.inl rfl))
    have hframe := (h.walk m hm).mono fun _ => hblocked
    exact ⟨hframe.mode, hframe.generation, hframe.since.cons rfl fun _ => hblocked⟩

theorem Inside.ingestFails {o : Option Bool} {st : List ScanInProgress} {v : FlagState}
    (h : Inside o st v) :
    Inside o st (FlagState.note { v with ingestFailed := true, ingestAlive := false }
      .ingestFailed) := by
  refine ⟨h.toBase.ingestFails, ?_, ?_⟩
  · rintro ⟨e, he, hf⟩
    cases he with
    | head => cases hf
    | tail _ hmem => exact h.found ⟨e, hmem, hf⟩
  · intro m hm
    have hblocked : Blocked st (FlagState.note { v with ingestFailed := true, ingestAlive := false }
        .ingestFailed) := .inr (.inr (.inr (.inl rfl)))
    have hframe := (h.walk m hm).mono fun _ => hblocked
    exact ⟨hframe.mode, hframe.generation, hframe.since.cons rfl fun _ => hblocked⟩

/-- A scan finds a failure, which then waits in its local variables. -/
theorem Base.find {o : Option Bool} {v : FlagState} (h : Base v) {st : List ScanInProgress}
    (hwalk : ∀ m ∈ o, Frame m True v) (hwait : Waiting st) {moment : Moment}
    (hreported : moment.reported = false) (hbegin : moment.begins = false)
    (hoverflow : moment ≠ .overflow) (hfailed : moment ≠ .ingestFailed) :
    Inside o st (v.note moment) :=
  ⟨h.note_other hreported hoverflow hfailed, fun _ => .inr hwait, fun m hm =>
    ((hwalk m hm).mono fun _ => .inr (.inr (.inr (.inr hwait)))).note hbegin fun _ =>
      .inr (.inr (.inr (.inr hwait)))⟩

theorem flags_quiet {s s' : Watcher} (hq : Quiet s s') :
    s'.flags = { s.flags with log := s'.ghost.log } := by
  unfold Watcher.flags
  rw [hq.operational, hq.historical, hq.persistent, hq.generation, hq.startGeneration,
    hq.metadataOnly, hq.overflowed, hq.ingestFailure, hq.observerAttached, hq.ingestStarted,
    hq.ingestAlive]

/-! ## Assertions -/

/-- An assertion about the flags, their history and the scans in progress. -/
structure OnFlags (w : World) (A : Assertion Watcher PyError) : Prop where
  raise : ∀ {s} e, A.inside s → A.raised e s
  stop : ∀ {s}, A.inside s → A.halted s
  point : Keeps w A point
  congr : ∀ {s s'}, s'.scans = s.scans → s'.flags = s.flags → A.inside s → A.inside s'
  recorded : ∀ {s} state, A.inside s → A.inside (s.log (.recorded state))

theorem OnFlags.of_steady {A : Assertion Watcher PyError} (h : Steady A)
    (congr : ∀ {s s'}, s'.scans = s.scans → s'.flags = s.flags → A.inside s → A.inside s')
    (recorded : ∀ {s} state, A.inside s → A.inside (s.log (.recorded state))) : OnFlags w A :=
  ⟨h.raise, h.stop, h.point, congr, recorded⟩

/-- A record leaves the flags alone. -/
theorem OnFlags.emit {A : Assertion Watcher PyError} (h : OnFlags w A) (event : WatchEvent) :
    Keeps w A (emit event) := by
  intro s hs
  show wp w (Watch.emit event) (A.postWith fun _ => A.inside) s
  refine wp_emit h.point (h.congr (by rfl) (by rfl) hs) fun s hs => ⟨fun e => h.raise e hs, fun e _ _ => ?_, ?_⟩
  · exact h.raise e (h.congr (by rfl) (by rfl) hs)
  · exact h.recorded _ (h.congr (by rfl) (by rfl) hs)

/-- A health issue raises the flags, and nothing else about them changes. -/
theorem OnFlags.healthIssue {A : Assertion Watcher PyError} (h : OnFlags w A) (code : HealthCode)
    (message : Str) {s : Watcher}
    (hs : ∀ announced down,
      A.inside ((s.raiseFlags code).log (.healthIssue code announced down))) :
    wp w (healthIssue code message) A.post s := by
  show wp w (Prog.state >>= _) _ s
  simp only [wp_bind, wp_state, wp_update, Post.withOk_ok]
  refine (wp_ite _ _ _ _).2 ⟨fun _ => hs _ _, fun _ => ?_⟩
  exact h.emit _ _ (h.congr (by rfl) (by rfl) (hs _ _))

/-- The assertion with these scans in progress and these still to be settled. -/
def holding (o : Option Bool) (st waiting : List ScanInProgress) : Assertion Watcher PyError where
  inside s := s.scans = st ∧ Inside o waiting s.flags
  raised e s :=
    if e.isException = true then s.scans = st ∧ Failed o s.flags else Base s.flags
  halted s := Base s.flags

/-- The assertions of the argument. -/
def scheme (o : Option Bool) : Scheme where
  inside st s := s.scans = st ∧ Inside o st s.flags
  failed st s := s.scans = st ∧ Failed o s.flags
  cut s := Base s.flags

theorem scheme_on (o : Option Bool) (st : List ScanInProgress) :
    (scheme o).on st = holding o st st := rfl

theorem holding_steady (o : Option Bool) (st waiting : List ScanInProgress) :
    Steady (holding o st waiting) where
  quiet hq hs := by
    refine ⟨hq.scans.trans hs.1, ?_⟩
    rw [flags_quiet hq]
    exact hs.2.quiet hq.log
  overflow := by
    rintro s events ho ⟨hst, hs⟩
    have hflags : (Watcher.log .overflow { s with events := events }).flags =
        FlagState.note { s.flags with overflowed := true } .overflow := by
      rw [← ho]
      rfl
    refine ⟨hst, ?_⟩
    rw [hflags]
    exact hs.overflow
  ingestFails _ hs := ⟨hs.1, hs.2.ingestFails⟩
  raise := by
    rintro s e ⟨hst, hs⟩
    show ite _ _ _
    split
    · exact ⟨hst, hs.toFailed⟩
    · exact hs.toBase
  stop hs := hs.2.toBase

theorem holding_onFlags (o : Option Bool) (st waiting : List ScanInProgress) :
    OnFlags w (holding o st waiting) :=
  .of_steady (holding_steady o st waiting)
    (fun hscans hflags hs => ⟨hscans.trans hs.1, hflags ▸ hs.2⟩)
    fun _ hs => ⟨hs.1, hs.2.note rfl rfl⟩

/-- A health issue, from any state whose flags are about to go up. -/
theorem healthIssue_raises {o : Option Bool} {st waiting : List ScanInProgress}
    (code : HealthCode) (message : Str) {s : Watcher} (hst : s.scans = st) (hcore : Core s.flags)
    (hwalk : ∀ m ∈ o, Frame m True s.flags) :
    wp w (healthIssue code message) (holding o st waiting).post s :=
  (holding_onFlags o st waiting).healthIssue code message fun _ _ =>
    ⟨hst, hcore.raise_inside hwalk waiting rfl _ _ (Nat.le_succ _) (.inr (Nat.lt_succ_self _))⟩

theorem healthIssue_keeps (o : Option Bool) (st waiting : List ScanInProgress) (code : HealthCode)
    (message : Str) : Keeps w (holding o st waiting) (healthIssue code message) :=
  fun _ hs => healthIssue_raises code message hs.1 hs.2.toCore hs.2.toFailed.walk

/-! ## Steps of a scan -/

theorem onScan_scans {s : Watcher} {x : ScanInProgress} {st : List ScanInProgress}
    (f : ScanInProgress → ScanInProgress) (hst : s.scans = x :: st) :
    (s.onScan f).scans = f x :: st := by
  show s.scans.modifyHead f = _
  rw [hst]
  rfl

/-- Only the innermost scan changes, and it holds a failure as before or a new one. -/
theorem Waiting.head {x x' : ScanInProgress} {st : List ScanInProgress}
    (h : x.Pending → x'.Pending) (hw : Waiting (x :: st)) : Waiting (x' :: st) := by
  obtain ⟨y, hy, hp⟩ := hw
  cases hy with
  | head => exact ⟨x', List.mem_cons_self, h hp⟩
  | tail _ hmem => exact ⟨y, List.mem_cons_of_mem _ hmem, hp⟩

theorem Waiting.cons {x : ScanInProgress} {st : List ScanInProgress} (hw : Waiting st) :
    Waiting (x :: st) := by
  obtain ⟨y, hy, hp⟩ := hw
  exact ⟨y, List.mem_cons_of_mem _ hy, hp⟩

/-- The scanner records an issue. -/
theorem issue_keeps (o : Option Bool) (st : List ScanInProgress) (path : Path) (code : ScanCode)
    (message : Str) : Keeps w ((scheme o).within st) (issue path code message) := by
  rintro s ⟨x, hst, hs⟩
  have hgrow : ∀ i, x.Pending → ({ x with issues := x.issues ++ [i] } : ScanInProgress).Pending :=
    fun i hp => hp.imp_left fun ⟨j, hj, hv⟩ => ⟨j, List.mem_append_left _ hj, hv⟩
  refine ⟨_, onScan_scans _ hst, ?_⟩
  show Inside o _ (s.flags.note (.issueFound (ScanCode.vanishable code)))
  cases hv : ScanCode.vanishable code with
  | true => exact (hs.mono (Waiting.head (hgrow _))).note rfl rfl
  | false =>
      have hpending : ({ x with issues := x.issues ++ [⟨path, code, sanitize message⟩] } :
          ScanInProgress).Pending :=
        .inl ⟨⟨path, code, sanitize message⟩, List.mem_append_right _ List.mem_cons_self, hv⟩
      exact hs.toBase.find hs.toFailed.walk ⟨_, List.mem_cons_self, hpending⟩ rfl rfl
        (by nofun) (by nofun)

/-- The scanner meets a gap. -/
theorem gap_keeps (o : Option Bool) (st : List ScanInProgress) (f : ScanStats → ScanStats)
    (hf : ∀ a, coverageGap (f a) = true) : Keeps w ((scheme o).within st) (countGap f) := by
  rintro s ⟨x, hst, hs⟩
  refine ⟨_, onScan_scans _ hst, ?_⟩
  exact hs.toBase.find hs.toFailed.walk ⟨_, List.mem_cons_self, .inr (hf x.stats)⟩ rfl rfl
    (by nofun) (by nofun)

/-- An exception the scanner catches becomes a failure of its own. -/
theorem swallow_finds {o : Option Bool} {st : List ScanInProgress} {x : ScanInProgress}
    {s : Watcher} (path : Path) {code : ScanCode} (e : PyError)
    (hcode : code = .fileFilterFailed ∨ code = .fileObserverFailed)
    (hs : (scheme o).failed (x :: st) s) :
    wp w (swallow path code e) ((scheme o).within st).post s := by
  have hv : ScanCode.vanishable code = false := by
    obtain rfl | rfl := hcode <;> rfl
  show wp w (Prog.update _ >>= _) _ s
  rw [wp_bind, wp_update, Post.withOk_ok, wp_bind, wp_ask, Post.withOk_ok]
  obtain ⟨hst, hs⟩ := hs
  have hpending : ({ x with issues := x.issues ++ [⟨path, code, sanitize (w.host.text e)⟩] } :
      ScanInProgress).Pending :=
    .inl ⟨⟨path, code, sanitize (w.host.text e)⟩, List.mem_append_right _ List.mem_cons_self, hv⟩
  refine ⟨_, onScan_scans _ hst, ?_⟩
  have hbase : Base (s.flags.note (.swallowed s.sink.operationalState)) :=
    hs.toBase.note_other rfl nofun nofun
  have hwalk : ∀ m ∈ o, Frame m True (s.flags.note (.swallowed s.sink.operationalState)) :=
    fun m hm => (hs.walk m hm).note rfl fun _ => trivial
  have hfind : Inside o ({ x with issues := x.issues ++ [⟨path, code, sanitize (w.host.text e)⟩] }
      :: st) ((s.flags.note (.swallowed s.sink.operationalState)).note (.issueFound false)) :=
    hbase.find hwalk ⟨_, List.mem_cons_self, hpending⟩ rfl rfl nofun nofun
  rw [← hv] at hfind
  exact hfind

/-! ## Settling a scan -/

/-- Retained issues raise the flags, and the scan needs no more settling. -/
theorem recordScanIssues_settles {o : Option Bool} {st waiting waiting' : List ScanInProgress}
    {result : ScanResult} {s : Watcher} (hs : (holding o st waiting).inside s)
    (hw : result.issues = [] → Waiting waiting → Waiting waiting') :
    wp w (recordScanIssues result) (holding o st waiting').post s := by
  show wp w (Prog.update _ >>= _) _ s
  rw [wp_bind, wp_update, Post.withOk_ok]
  have hcount : (holding o st waiting).inside (s.countIssues result.issues) :=
    (holding_steady o st waiting).quiet Quiet.still hs
  refine (wp_ite _ _ _ _).2 ⟨fun hissues => ?_, fun hnone => ?_⟩
  · rw [wp_bind, wp_update, Post.withOk_ok]
    refine Keeps.forEach (A := holding o st waiting') (fun i => ?_) _ _ ⟨hcount.1, ?_⟩
    · exact Keeps.bind (Keeps.ask _) fun _ => (holding_steady o st waiting').update fun _ => Quiet.still
    · exact hcount.2.toCore.raise_inside hcount.2.toFailed.walk waiting' rfl _ _ (Nat.le_succ _)
        (.inr (Nat.lt_succ_self _))
  · exact ⟨hcount.1, hcount.2.mono (hw (not_not.1 hnone))⟩

/-- A failed quarantine raises the flags for good. -/
theorem quarantineOne_keeps (o : Option Bool) (st waiting : List ScanInProgress)
    (records : List QuarantineRecord) (finding : FileFinding) :
    Keeps w (holding o st waiting) (quarantineOne records finding) := by
  have hfail : ∀ f, Keeps w (holding o st waiting)
      (Prog.update (Watcher.quarantineFailure f)) := fun f =>
    Keeps.update fun s hs => ⟨hs.1, hs.2.toCore.raise_inside hs.2.toFailed.walk waiting rfl true
      s.incompleteGeneration le_rfl (.inl rfl)⟩
  have hflags := holding_steady o st waiting
  refine Keeps.bind (Keeps.ask _) fun host => ?_
  refine Keeps.bind (hflags.call _) fun r => ?_
  cases r with
  | ok entry => exact Keeps.bind (hflags.update fun _ => Quiet.still) fun _ => Keeps.pure _
  | error e =>
      cases e with
      | shield e =>
          cases e with
          | quarantinePartialError text entryId => exact Keeps.bind (hfail _) fun _ => Keeps.pure _
          | _ => exact Keeps.bind (hfail _) fun _ => Keeps.pure _
      | _ => exact Keeps.raise fun _ hs => hflags.raise _ hs

/-- A scan that no failure of its own waits in, once its result shows none. -/
theorem not_pending {x : ScanInProgress} {host : Host} {completedAt : Str} {result : ScanResult}
    (hr : Retains (x.result host completedAt) result) (hissues : result.issues = [])
    (hgap : ¬ coverageGap result.stats = true) : ¬ x.Pending := by
  rintro (⟨i, hi, hv⟩ | hg)
  · have hmem : i ∈ (x.result host completedAt).issues :=
      (List.perm_insertionSort _ x.issues).mem_iff.2 hi
    have hret := hr.issues i hmem hv
    rw [hissues] at hret
    cases hret
  · refine hgap (hr.gap.trans ?_)
    exact hg

/-- The issues and gaps of a scan are settled. -/
theorem settleIssues_settles {o : Option Bool} {x : ScanInProgress} {st : List ScanInProgress}
    {s : Watcher} (c : ScanCall) (host : Host) (completedAt : Str)
    (hs : (scheme o).inside (x :: st) s) :
    wp w (settleIssues c (x.result host completedAt)) (holding o (x :: st) st).post s := by
  have hflags := holding_steady o (x :: st) (x :: st)
  have hemit := holding_onFlags (w := w) o (x :: st) (x :: st)
  refine (hflags.sortOutVanished (fun e _ => hemit.emit e) _ _ _ hs).bind
    (fun result s hs => ?_) (fun _ _ hr => hr) fun _ hc => hc
  obtain ⟨hs, hretains⟩ := hs
  refine (hflags.update (fun _ => Quiet.still) s hs).bind (fun _ s hs => ?_) (fun _ _ hr => hr)
    fun _ hc => hc
  by_cases hgap : coverageGap result.stats = true
  · -- The gap raises the flags, whatever the issues did.
    refine (recordScanIssues_settles hs fun _ hw => hw).bind (fun _ s hs => ?_)
      (fun _ _ hr => hr) fun _ hc => hc
    rw [wp_bind, reportCoverageGap, if_pos hgap]
    exact (healthIssue_raises _ _ hs.1 hs.2.toCore hs.2.toFailed.walk).mono
      ⟨fun _ _ hs => hs, fun _ _ hr => hr, fun _ hc => hc⟩
  · have hw : result.issues = [] → Waiting (x :: st) → Waiting st := by
      rintro hissues ⟨y, hy, hp⟩
      cases hy with
      | head => exact absurd hp (not_pending hretains hissues hgap)
      | tail _ hmem => exact ⟨y, hmem, hp⟩
    refine (recordScanIssues_settles hs hw).bind (fun _ s hs => ?_) (fun _ _ hr => hr)
      fun _ hc => hc
    rw [wp_bind, reportCoverageGap, if_neg hgap]
    exact hs

theorem settle_settles {o : Option Bool} {x : ScanInProgress} {st : List ScanInProgress}
    {s : Watcher} (c : ScanCall) (host : Host) (completedAt : Str)
    (hs : (scheme o).inside (x :: st) s) :
    wp w (settle c (x.result host completedAt)) ((scheme o).leaving st).post s := by
  have hsettle : wp w (settle c (x.result host completedAt)) (holding o (x :: st) st).post s := by
    refine (settleIssues_settles c host completedAt hs).bind (fun result s hs => ?_)
      (fun _ _ hr => hr) fun _ hc => hc
    have hflags := holding_onFlags (w := w) o (x :: st) st
    have hrest : Keeps w (holding o (x :: st) st) (do
        let quarantine ← quarantineFindings result.findings
        emit (.scan c.event c.triggers (recordOutcome c.noHashOutcome result) result quarantine)
        pure result) := by
      refine Keeps.bind ?_ fun records => Keeps.bind (hflags.emit _) fun _ => Keeps.pure _
      refine Keeps.bind (Keeps.ask _) fun config => ?_
      exact Keeps.ite (fun _ => Keeps.foldEach (quarantineOne_keeps o _ _) _ _) fun _ =>
        Keeps.pure _
    exact hrest s hs
  refine hsettle.mono ⟨fun _ s hs => ⟨congrArg List.tail hs.1, hs.2⟩, fun e s hr => ?_,
    fun _ hc => hc⟩
  have hr : ite _ _ _ := hr
  show ite _ _ _
  split at hr
  · rename_i he
    rw [if_pos he]
    exact ⟨congrArg List.tail hr.1, hr.2⟩
  · rename_i he
    rw [if_neg he]
    exact hr

/-- The rules for scans, drains and callbacks. -/
theorem quietRules (o : Option Bool) : QuietRules w (scheme o) where
  stack hs := hs.1
  failed hs := ⟨hs.1, hs.2.toFailed⟩
  cut hs := hs.2.toBase
  steady st := holding_steady o st st
  superseded st e _ := (holding_onFlags o st st).emit e
  healthIssue st code message _ := healthIssue_keeps o st st code message
  heartbeat st _ _ _ _ := Keeps.bind (Keeps.ask _) fun _ => Keeps.bind (Keeps.gets _) fun _ =>
    (holding_onFlags o st st).emit _
  openScan _ _ hs := ⟨congrArg (_ :: ·) hs.1, hs.2.mono Waiting.cons⟩
  onScan f hissues hgap hs := ⟨onScan_scans f hs.1, hs.2.mono (Waiting.head fun hp => by
    unfold ScanInProgress.Pending
    rw [hissues, hgap]
    exact hp)⟩
  issue := issue_keeps o
  gap := gap_keeps o
  swallow path _ e hcode hs := swallow_finds path e hcode hs
  settle c host completedAt hs := settle_settles c host completedAt hs
  closeFailed hs := ⟨congrArg List.tail hs.1, hs.2⟩
  closeCut hs := hs

/-! ## Reconciliations -/

/-- A reconciliation begins: no failure has occurred in it yet. -/
theorem Base.begin {v : FlagState} (h : Base v) (found : (∃ e ∈ v.log, e.moment.found = true) →
    v.historical = true ∨ Waiting []) (m : Bool) :
    Inside (some m) []
      (FlagState.note { v with startGeneration := v.generation, metadataOnly := m }
        (.reconcileBegan m)) := by
  have hbase : Base { v with startGeneration := v.generation, metadataOnly := m } :=
    ⟨⟨h.disciplined, h.ingest, h.started⟩, h.persistent, h.operational, h.caused, h.newest,
      h.reported, h.dropped⟩
  refine ⟨hbase.note_other rfl nofun nofun, ?_, ?_⟩
  · rintro ⟨e, he, hf⟩
    cases he with
    | head => cases hf
    | tail _ hmem => exact found ⟨e, hmem, hf⟩
  · rintro m' hm'
    obtain rfl := Option.mem_some_iff.1 hm'
    exact ⟨rfl, le_rfl, [], v.log, _, rfl, nofun, fun ⟨_, he, _⟩ => nomatch he⟩

theorem openReconciliation_begins (trigger : Trigger) (full m : Bool) {s : Watcher}
    (hs : (scheme none).inside [] s) :
    wp w (openReconciliation trigger full m)
      (((scheme none).on []).postWith fun _ => (scheme (some m)).inside []) s := by
  have hbefore := holding_steady none [] []
  have hduring := holding_steady (some m) [] []
  refine Keeps.wp_bind (A := holding none [] []) (hbefore.update fun _ => Quiet.still) hs fun _ s hs => ?_
  refine Keeps.wp_bind (A := holding none [] []) (hbefore.call _) hs fun started s hs => ?_
  rw [wp_bind, wp_update]
  have hbegin : (holding (some m) [] []).inside (s.beginReconcile trigger full m started) :=
    ⟨hs.1, hs.2.toBase.begin hs.2.found m⟩
  have hrest : Keeps w (holding (some m) [] []) (do
      let nextHeartbeat ← clock
      let config ← Prog.ask World.config
      progress fun r => { r with nextProgressHeartbeat := nextHeartbeat + config.heartbeatSeconds }
      let nextDrain ← clock
      progress fun r => { r with nextPriorityDrain := nextDrain }) := by
    refine Keeps.bind (hduring.call _) fun _ => Keeps.bind (Keeps.ask _) fun _ => ?_
    refine Keeps.bind (hduring.update fun _ => {}) fun _ => ?_
    exact Keeps.bind (hduring.call _) fun _ => hduring.update fun _ => {}
  refine (hrest _ hbegin).mono ⟨fun _ _ hq => hq, fun e s hr => ?_, fun _ hc => hc⟩
  have hr : ite _ _ _ := hr
  show ite _ _ _
  split at hr
  · rename_i he
    rw [if_pos he]
    exact ⟨hr.1, hr.2.toBase, nofun⟩
  · rename_i he
    rw [if_neg he]
    exact hr

/-- The guard of the recovery rules out that a failure occurred in the reconciliation. -/
theorem clean_of_mayRecover {m : Bool} {result : ScanResult} {s : Watcher}
    (hs : Inside (some m) [] s.flags) (hmay : s.mayRecover result = true)
    (hended : ∃ snapshot attempts flag rest,
      s.ghost.log = ⟨.reconcileEnded snapshot attempts, flag⟩ :: rest) :
    s.persistentOperationalIncomplete = false ∧ CleanReconcile s.ghost.log := by
  have hwalk := hs.walk m rfl
  simp only [Watcher.mayRecover, Bool.and_eq_true, Bool.not_eq_true', decide_eq_true_eq,
    Option.isNone_iff_eq_none] at hmay
  obtain ⟨⟨⟨⟨⟨⟨⟨⟨⟨hmode, -⟩, -⟩, -⟩, -⟩, hover⟩, hfail⟩, hper⟩, hgen⟩, -⟩ := hmay
  have hm : m = false := hwalk.mode.symm.trans hmode
  subst hm
  refine ⟨hper, hended, hwalk.since.mono ?_⟩
  rintro (hlt | hp | ho | hi | ⟨x, hx, -⟩)
  · have hlt : s.reconciliation.incompleteGeneration < s.incompleteGeneration := hlt
    omega
  · exact absurd (hper.symm.trans hp) Bool.false_ne_true
  · exact absurd (hover.symm.trans ho) Bool.false_ne_true
  · have hi : s.eventIngestFailure.isSome = true := hi
    rw [hfail] at hi
    cases hi
  · cases hx

theorem closeReconciliation_keeps {m : Bool} {result : ScanResult} {s : Watcher}
    (hs : (scheme (some m)).inside [] s) :
    wp w (closeReconciliation result) ((scheme none).on []).post s := by
  have hend : (holding (some m) [] []).inside s.endReconcile :=
    (holding_steady (some m) [] []).quiet { log := (QuietLog.refl _ _).cons rfl } hs
  have hnone := holding_onFlags (w := w) none [] []
  show wp w (Prog.update _ >>= _) _ s
  rw [wp_bind, wp_update, Post.withOk_ok, wp_bind, wp_gets, Post.withOk_ok]
  refine (wp_ite _ _ _ _).2 ⟨fun hmay => ?_, fun _ => ?_⟩
  · obtain ⟨hper, hclean⟩ := clean_of_mayRecover hend.2 hmay ⟨_, _, _, _, rfl⟩
    have hrec : (holding none [] []).inside s.endReconcile.recover := by
      refine ⟨hend.1, hend.2.toBase.recover hper hclean _ _, ?_, nofun⟩
      rintro ⟨e, he, hf⟩
      cases he with
      | head => cases hf
      | tail _ hmem => exact hend.2.found ⟨e, hmem, hf⟩
    have hrest : Keeps w (holding none [] []) (do
        let stats ← statsSnapshot
        emitHeartbeat false true none stats none) := by
      refine Keeps.bind (Keeps.bind ((holding_steady none [] []).call _) fun _ => Keeps.gets _) fun stats => ?_
      refine Keeps.bind (Keeps.ask _) fun _ => Keeps.bind (Keeps.gets _) fun _ => hnone.emit _
    exact hrest _ hrec
  · exact ⟨hend.1, hend.2.toBase, hend.2.found, nofun⟩

/-! ## Sessions -/

/-- The assertion at the end of a session, whatever is still unsettled. -/
abbrev ended : Assertion Watcher PyError := Assertion.always fun s => Base s.flags

theorem ended_steady : Steady ended where
  quiet hq hs := by
    show Base _
    rw [flags_quiet hq]
    exact hs.quiet hq.log
  overflow := by
    rintro s events ho hs
    have hflags : (Watcher.log .overflow { s with events := events }).flags =
        FlagState.note { s.flags with overflowed := true } .overflow := by
      rw [← ho]
      rfl
    show Base _
    rw [hflags]
    exact Base.overflow hs
  ingestFails _ hs := Base.ingestFails hs
  raise _ hs := hs
  stop hs := hs

theorem ended_onFlags : OnFlags w ended := by
  refine .of_steady ended_steady (fun _ hflags hs => ?_) fun _ hs =>
    Base.note_other hs rfl nofun nofun
  show Base _
  rw [hflags]
  exact hs

/-- The check of the event pipeline lowers the overflow flag and raises the others. -/
theorem pipeline_keeps {A : Assertion Watcher PyError} (hA : OnFlags w A)
    (hissue : ∀ code message, Keeps w A (healthIssue code message))
    (hraise : ∀ s, A.inside s → ∀ code stats announced down, A.inside
      ((Watcher.raiseFlags code { s with events := s.events.clearOverflow.2, stats := stats }).log
        (.healthIssue code announced down))) : Keeps w A eventPipelineIsHealthy := by
  refine Keeps.bind (Keeps.gets _) fun failure => ?_
  cases failure with
  | some reason => exact Keeps.bind (hissue _ _) fun _ => Keeps.pure false
  | none =>
      refine Keeps.bind hA.point fun _ => Keeps.bind (Keeps.gets _) fun overflowed => ?_
      refine Keeps.ite (fun _ => Keeps.bind (Keeps.gets _) fun dropped => ?_) fun _ =>
        Keeps.pure true
      intro s hs
      rw [wp_bind, wp_update, Post.withOk_ok, wp_bind, wp_count, Post.withOk_ok]
      exact (hA.healthIssue _ _ fun announced down => hraise s hs _ _ announced down).bind
        (fun _ _ hs => hs) (fun _ _ hr => hr) fun _ hc => hc

theorem Core.cleared {v : FlagState} (h : Core v) : Core { v with overflowed := false } :=
  ⟨h.disciplined, h.ingest, h.started⟩

theorem runRules : RunRules w (holding none [] []) (scheme none) (fun m => scheme (some m))
    (fun m _ => (scheme (some m)).inside []) where
  base := (quietRules none).toScanRules
  walk m := (quietRules (some m)).toScanRules
  visit m path stat := (quietRules (some m)).visit m path stat []
  openReconciliation trigger full m hs := openReconciliation_begins trigger full m hs
  settle c host completedAt hs := settle_settles c host completedAt hs
  closeReconciliation hq := closeReconciliation_keeps hq
  failed hs := ⟨hs.1, hs.2.toBase, nofun⟩
  cut hs := hs
  drainDue := (quietRules none).drainDue []
  heartbeat op stats := (quietRules none).heartbeat [] op none stats none
  pipeline := pipeline_keeps (holding_onFlags none [] []) (healthIssue_keeps none [] [])
    fun s hs code _ _ _ => ⟨hs.1, hs.2.toCore.cleared.raise_inside (by nofun) [] rfl _ _
      (Nat.le_succ _) (.inr (Nat.lt_succ_self _))⟩
  startIngest hs := ⟨hs.1, ⟨⟨hs.2.disciplined, hs.2.ingest, fun _ => rfl⟩, hs.2.persistent,
    hs.2.operational, hs.2.caused, hs.2.newest, hs.2.reported, hs.2.dropped⟩, hs.2.found, nofun⟩
  before := (holding_steady none [] []).toStartRules fun _ hs => ⟨hs.1, ⟨⟨hs.2.disciplined,
    hs.2.ingest, hs.2.started⟩, hs.2.persistent, hs.2.operational, hs.2.caused, hs.2.newest,
    hs.2.reported, hs.2.dropped⟩, hs.2.found, nofun⟩
  cut_of_raised {e s} hr := by
    have hr : ite _ _ _ := hr
    split at hr
    · exact hr.2.toBase
    · exact hr
  cut_of_halted hc := hc
  fallback reason := (holding_onFlags none [] []).emit _
  sessionStarted {s} hs := by
    have hstart : Keeps w (holding none [] []) emitSessionStarted :=
      Keeps.bind (Keeps.ask _) fun _ => Keeps.bind Keeps.state fun _ =>
        (holding_onFlags none [] []).emit _
    exact hstart s hs
  cut_of_failed hs := hs.2.toBase
  after := by
    have hissue : ∀ code message, Keeps w ended (healthIssue code message) :=
      fun code message s hs => ended_onFlags.healthIssue code message fun _ _ =>
        (Base.toCore hs).raise rfl _ _
    refine ended_steady.toShutdownRules (fun _ hs => ?_) (pipeline_keeps ended_onFlags hissue
      fun s hs code _ _ _ => (Base.toCore hs).cleared.raise rfl _ _) (fun hs => ?_)
      fun code message _ => hissue code message
    · exact ⟨⟨hs.disciplined, hs.ingest, hs.started⟩, hs.persistent, hs.operational, hs.caused,
        hs.newest, hs.reported, hs.dropped⟩
    · exact ⟨⟨hs.disciplined, hs.ingest, nofun⟩, hs.persistent, hs.operational, hs.caused,
        hs.newest, hs.reported, hs.dropped⟩
  sessionCompleted summary := ended_onFlags.emit _

end FlagState

end ZsecShield.Watch
