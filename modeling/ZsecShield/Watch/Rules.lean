import ZsecShield.Watch.Run

/-!
# Rules for arguments about a watch session

An argument about every run of the watcher names three assertions: one between
the steps, one after an exception, which the scanner may catch, and one for a
session that was interrupted or is looked at.  The first two depend on the scans
in progress.  `ScanRules` lists what the assertions must satisfy around the steps
of a scan, and `WatchRules` what they must satisfy around a reconciliation and
the main loop.  The theorems of this file carry them through the callbacks, the
nested scans and the loops, once for all arguments.
-/

namespace ZsecShield.Watch

open Text (Str)
open Effect

variable {w : World}

@[simp] theorem wp_answer {α : Type} (f : World → Nat → α) (Q : Post Watcher PyError α)
    (s : Watcher) : wp w (answer f) Q s ↔ Q.ok (f w s.tick) s := Iff.rfl

@[simp] theorem wp_note (m : Moment) (Q : Post Watcher PyError Unit) (s : Watcher) :
    wp w (note m) Q s ↔ Q.ok () (s.log m) := Iff.rfl

@[simp] theorem wp_count (f : WatchStats → WatchStats) (Q : Post Watcher PyError Unit)
    (s : Watcher) : wp w (count f) Q s ↔ Q.ok () { s with stats := f s.stats } := Iff.rfl

@[simp] theorem wp_evict (key : Bytes) (Q : Post Watcher PyError Unit) (s : Watcher) :
    wp w (evict key) Q s ↔
      Q.ok () { s with reconciliationSnapshot := s.reconciliationSnapshot.pop key } := Iff.rfl

@[simp] theorem wp_countScan (f : ScanStats → ScanStats) (Q : Post Watcher PyError Unit)
    (s : Watcher) :
    wp w (countScan f) Q s ↔ Q.ok () (s.onScan fun a => { a with stats := f a.stats }) := Iff.rfl

@[simp] theorem wp_snapshotPathKey (path : Path) (Q : Post Watcher PyError Bytes)
    (s : Watcher) : wp w (snapshotPathKey path) Q s ↔ Q.ok (w.host.snapshotPathKey path) s :=
  Iff.rfl

@[simp] theorem wp_progress (f : Reconciliation → Reconciliation)
    (Q : Post Watcher PyError Unit) (s : Watcher) :
    wp w (progress f) Q s ↔ Q.ok () (s.onReconciliation f) := Iff.rfl

/-- A point keeps what the other threads and the passing of time keep. -/
theorem keeps_point {A : Assertion Watcher PyError}
    (act : ∀ s a, A.inside s → A.inside (s.act w.host a))
    (tick : ∀ s, A.inside s → A.inside { s with tick := s.tick + 1 })
    (interrupt : ∀ s, A.inside s → A.raised .keyboardInterrupt s)
    (stop : ∀ s, A.inside s → A.halted s) : Keeps w A point := by
  intro s hs
  have hacts : ∀ (actions : List ThreadAction) (s : Watcher), A.inside s →
      A.inside (actions.foldl (Watcher.act w.host) s) ∧
        (actions.foldl (Watcher.act w.host) s).tick = s.tick := by
    intro actions
    induction actions with
    | nil => exact fun s hs => ⟨hs, rfl⟩
    | cons a rest ih =>
        intro s hs
        obtain ⟨hin, htick⟩ := ih _ (act s a hs)
        exact ⟨hin, htick.trans (s.act_tick w.host a)⟩
  obtain ⟨hin, htick⟩ := hacts (w.threads s.tick) s hs
  have hnext := tick _ hin
  rw [htick] at hnext
  show Post.Holds _ (point w s)
  unfold point
  cases w.control s.tick with
  | goOn => exact hnext
  | interrupt => exact interrupt _ hnext
  | stop => exact stop _ hnext

/-- `ingest` keeps what a point and one of its turns keep. -/
theorem keeps_ingest {A : Assertion Watcher PyError} (hpoint : Keeps w A point)
    (step : ∀ s events, s.events.Grows events → A.inside s → A.inside (s.withEvents events))
    (stop : ∀ s, A.inside s → A.halted s) : Keeps w A ingest := by
  have turns : ∀ n, Keeps w A (ingestTurns n) := by
    intro n
    induction n with
    | zero => exact Keeps.halt stop
    | succ n ih =>
        refine Keeps.bind hpoint fun _ s hs => ?_
        simp only [wp_bind, wp_ask, wp_gets, Post.withOk_ok]
        cases hstep : s.ingestStep w.host with
        | none => exact hs
        | some s' =>
            obtain ⟨events, hg, rfl⟩ := Watcher.ingestStep_cases hstep
            exact ih _ (step s events hg hs)
  exact Keeps.bind (fun _ hs => hs) turns

/-- The sink after a record. -/
def WatchEvidenceSink.after (sink : WatchEvidenceSink) (event : WatchEvent) : WatchEvidenceSink :=
  if sink.healthFile = false ∨ ignores event = true then sink else (sink.absorb event).persist

/-- The state after a record. -/
def Watcher.recorded (event : WatchEvent) (s : Watcher) : Watcher :=
  Watcher.log (.recorded (s.sink.after event).operationalState)
    { s with sink := s.sink.after event }

/-- A record either goes through, or an exception leaves it before or after the sink
has taken it in. -/
theorem wp_record {event : WatchEvent} {Q : Post Watcher PyError Unit} {s : Watcher}
    (hraised : ∀ e, Q.raised e s)
    (habsorbed : ∀ e, s.sink.healthFile = true → WatchEvidenceSink.ignores event = false →
      Q.raised e { s with sink := s.sink.absorb event })
    (hok : Q.ok () (s.recorded event)) : wp w (record event) Q s := by
  have append : wp w (appendRecord s.sink) (Q.withOk fun _ s' => s' = s) s := by
    refine (wp_ite _ _ _ _).2 ⟨fun _ => ?_, fun _ => rfl⟩
    unfold raiseIf
    rw [wp_bind, wp_answer]
    cases w.appendFails s.tick with
    | none => exact rfl
    | some e => exact hraised e
  show wp w (Prog.gets Watcher.sink >>= _) Q s
  rw [wp_bind, wp_gets, Post.withOk_ok]
  refine append.bind ?_ (fun _ _ hr => hr) fun _ hc => hc
  rintro - s' rfl
  have hafter : s'.recorded event = Watcher.log (.recorded (s'.sink.after event).operationalState)
      { s' with sink := s'.sink.after event } := rfl
  unfold updateHealth
  by_cases hskip : s'.sink.healthFile = false ∨ WatchEvidenceSink.ignores event = true
  · rw [if_pos hskip]
    rw [hafter, show s'.sink.after event = s'.sink from if_pos hskip] at hok
    exact hok
  · rw [if_neg hskip]
    rw [hafter, show s'.sink.after event = (s'.sink.absorb event).persist from if_neg hskip] at hok
    rw [not_or, Bool.not_eq_false, Bool.not_eq_true] at hskip
    unfold raiseIf
    simp only [wp_bind, wp_update, wp_answer, Post.withOk_ok]
    cases w.persistFails s'.tick with
    | none => exact hok
    | some e => exact habsorbed e hskip.1 hskip.2

/-- A record goes out, when a point keeps the assertions and recording leads to `Q`. -/
theorem wp_emit {A : Assertion Watcher PyError} {event : WatchEvent}
    {ok : Watcher → Prop} {s : Watcher} (hpoint : Keeps w A point)
    (hs : A.inside { s with recordSequence := s.recordSequence + 1 })
    (hrecord : ∀ s, A.inside s →
      (∀ e, A.raised e s) ∧
      (∀ e, s.sink.healthFile = true → WatchEvidenceSink.ignores event = false →
        A.raised e { s with sink := s.sink.absorb event }) ∧ ok (s.recorded event)) :
    wp w (emit event) (A.postWith fun _ => ok) s := by
  show wp w (Prog.update _ >>= _) _ s
  rw [wp_bind, wp_update, Post.withOk_ok]
  refine Keeps.wp_bind hpoint hs fun _ s' hs' => ?_
  obtain ⟨hraised, habsorbed, hok⟩ := hrecord s' hs'
  exact wp_record hraised habsorbed hok

/-! ## Settling a scan -/

/-- Of the result of a scan every issue is retained that no vanished path explains, and
its gaps and findings stay. -/
structure Retains (result result' : ScanResult) : Prop where
  issues : ∀ i ∈ result.issues, ScanCode.vanishable i.code = false → i ∈ result'.issues
  gap : coverageGap result'.stats = coverageGap result.stats
  findings : result'.findings = result.findings

/-- A postcondition about the result alone. -/
def resulting {α : Type} (P : α → Prop) : Post Watcher PyError α :=
  ⟨fun a _ => P a, fun _ _ => True, fun _ => True⟩

theorem resulting_trivial {α : Type} {p : WatchM α} {s : Watcher} {P : α → Prop}
    (h : ∀ a, P a) : wp w p (resulting P) s :=
  wp.trivial (fun a _ => h a) (fun _ _ => trivial) fun _ => trivial

/-- An issue that is put down to a vanished path is one that may be. -/
theorem isVanished_vanishable (allowVanishedRoot : Bool) (i : ScanIssue) (s : Watcher) :
    wp w (isVanished allowVanishedRoot i)
      (resulting fun vanished => vanished = true → ScanCode.vanishable i.code = true) s := by
  show wp w (Prog.ask _ >>= _) _ s
  rw [wp_bind, wp_ask, Post.withOk_ok]
  refine (wp_ite _ _ _ _).2 ⟨fun hcode => resulting_trivial fun _ _ => ?_, fun _ => by rintro ⟨⟩⟩
  obtain ⟨hcode | ⟨-, hcode⟩, -⟩ := hcode
  · revert hcode
    cases i.code <;> decide
  · rw [hcode]
    rfl

theorem sortIssue_retains (allowVanishedRoot : Bool) (acc : SortedIssues) (i : ScanIssue)
    (s : Watcher) :
    wp w (sortIssue allowVanishedRoot acc i) (resulting fun acc' => acc.retained ⊆ acc'.retained ∧
      (ScanCode.vanishable i.code = false → i ∈ acc'.retained)) s := by
  refine (isVanished_vanishable allowVanishedRoot i s).bind (fun vanished s hv => ?_)
    (fun _ _ _ => trivial) fun _ _ => trivial
  refine (wp_ite _ _ _ _).2 ⟨fun hvanished => ?_, fun _ => ?_⟩
  · refine ⟨fun _ hj => hj, fun hcode => ?_⟩
    exact absurd (hcode.symm.trans (hv hvanished)) Bool.false_ne_true
  · exact ⟨List.subset_append_left _ _, fun _ => List.mem_append_right _ List.mem_cons_self⟩

/-- Only issues that a vanished path explains are sorted out of the result of a scan. -/
theorem sortOutVanished_retains (triggers : List Trigger) (allowVanishedRoot : Bool)
    (result : ScanResult) (s : Watcher) :
    wp w (sortOutVanished triggers allowVanishedRoot result) (resulting (Retains result)) s := by
  have hloop : wp w (Prog.foldEach (sortIssue allowVanishedRoot) {} result.issues)
      (resulting fun acc => ∀ i ∈ result.issues,
        ScanCode.vanishable i.code = false → i ∈ acc.retained) s := by
    refine wp_foldEach (fun acc rest _ => ∀ i ∈ result.issues,
      ScanCode.vanishable i.code = false → i ∈ acc.retained ∨ i ∈ rest) ?_ ?_ _ _ _
      fun i hi _ => .inr hi
    · intro acc i rest s hall
      refine (sortIssue_retains allowVanishedRoot acc i s).mono
        ⟨fun acc' s' hq j hj hcode => ?_, fun _ _ hr => hr, fun _ hc => hc⟩
      obtain hacc | hrest := hall j hj hcode
      · exact .inl (hq.1 hacc)
      · cases hrest with
        | head => exact .inl (hq.2 hcode)
        | tail _ hmem => exact .inr hmem
    · intro acc s hall i hi hcode
      exact (hall i hi hcode).resolve_right (by simp)
  refine hloop.bind (fun acc s hacc => ?_) (fun _ _ _ => trivial) fun _ _ => trivial
  rw [wp_bind, wp_count, Post.withOk_ok]
  have hretain : Retains result (ScanResult.retain acc.retained result) := by
    unfold ScanResult.retain
    split
    · exact ⟨hacc, rfl, rfl⟩
    · exact ⟨fun _ hi _ => hi, rfl, rfl⟩
  exact (resulting_trivial (P := fun _ => True) fun _ => trivial).bind (fun _ _ _ => hretain)
    (fun _ _ _ => trivial) fun _ _ => trivial

theorem settle_retains (c : ScanCall) (result : ScanResult) (s : Watcher) :
    wp w (settle c result) (resulting (Retains result)) s := by
  have hissues : wp w (settleIssues c result) (resulting (Retains result)) s := by
    refine (sortOutVanished_retains c.triggers c.allowVanishedRoot result s).bind
      (fun r s hr => ?_) (fun _ _ _ => trivial) fun _ _ => trivial
    rw [wp_bind, countBatch, wp_count, Post.withOk_ok]
    refine (resulting_trivial (P := fun _ => True) fun _ => trivial).bind (fun _ s _ => ?_)
      (fun _ _ _ => trivial) fun _ _ => trivial
    exact (resulting_trivial (P := fun _ => True) fun _ => trivial).bind (fun _ _ _ => hr)
      (fun _ _ _ => trivial) fun _ _ => trivial
  refine hissues.bind (fun r s hr => ?_) (fun _ _ _ => trivial) fun _ _ => trivial
  refine (resulting_trivial (P := fun _ => True) fun _ => trivial).bind (fun _ s _ => ?_)
    (fun _ _ _ => trivial) fun _ _ => trivial
  exact (resulting_trivial (P := fun _ => True) fun _ => trivial).bind (fun _ _ _ => hr)
    (fun _ _ _ => trivial) fun _ _ => trivial

/-! ## Schemes -/

/-- The assertions of an argument. -/
structure Scheme where
  inside : List ScanInProgress → Watcher → Prop
  failed : List ScanInProgress → Watcher → Prop
  cut : Watcher → Prop

namespace Scheme

/-- The assertions with these scans in progress. -/
def on (S : Scheme) (st : List ScanInProgress) : Assertion Watcher PyError where
  inside := S.inside st
  raised e s := if e.isException = true then S.failed st s else S.cut s
  halted := S.cut

/-- The assertions inside a scan above these. -/
def within (S : Scheme) (st : List ScanInProgress) : Assertion Watcher PyError where
  inside s := ∃ x, S.inside (x :: st) s
  raised e s := if e.isException = true then ∃ x, S.failed (x :: st) s else S.cut s
  halted := S.cut

/-- The assertions as a scan is settled, which is about to be left. -/
def leaving (S : Scheme) (st : List ScanInProgress) : Assertion Watcher PyError where
  inside s := S.inside st s.closeScan
  raised e s := if e.isException = true then S.failed st s.closeScan else S.cut s.closeScan
  halted := S.cut

@[simp] theorem on_inside (S : Scheme) (st : List ScanInProgress) :
    (S.on st).inside = S.inside st := rfl

@[simp] theorem on_halted (S : Scheme) (st : List ScanInProgress) :
    (S.on st).halted = S.cut := rfl

@[simp] theorem within_halted (S : Scheme) (st : List ScanInProgress) :
    (S.within st).halted = S.cut := rfl

/-- What holds with the scans in progress holds inside the innermost of them. -/
theorem within_of_on {S : Scheme} {x : ScanInProgress} {st : List ScanInProgress} :
    (∀ s, (S.on (x :: st)).inside s → (S.within st).inside s) ∧
      ∀ e s, (S.on (x :: st)).raised e s → (S.within st).raised e s := by
  refine ⟨fun s hs => ⟨x, hs⟩, fun e s hs => ?_⟩
  simp only [on, within] at hs ⊢
  split
  · rename_i he
    exact ⟨x, by simpa only [if_pos he] using hs⟩
  · rename_i he
    simpa only [if_neg he] using hs

/-- A program that keeps the assertions over every stack of scans keeps them inside
a scan. -/
theorem keeps_within {S : Scheme} {st : List ScanInProgress} {α : Type} {p : WatchM α}
    (h : ∀ x, Keeps w (S.on (x :: st)) p) : Keeps w (S.within st) p := by
  rintro s ⟨x, hs⟩
  exact (h x s hs).mono
    ⟨fun _ => within_of_on.1, fun e => within_of_on.2 e, fun _ hc => hc⟩

end Scheme

/-! ## Scans -/

/-- What the assertions satisfy around the steps of a scan without callbacks. -/
structure ScanRules (w : World) (S : Scheme) : Prop where
  stack : ∀ {st s}, S.inside st s → s.scans = st
  failed : ∀ {st s}, S.inside st s → S.failed st s
  cut : ∀ {st s}, S.inside st s → S.cut s
  point : ∀ st, Keeps w (S.on st) point
  count : ∀ st f, Keeps w (S.on st) (count f)
  evict : ∀ st key, Keeps w (S.on st) (evict key)
  superseded : ∀ st e, WatchEvidenceSink.ignores e = true → Keeps w (S.on st) (emit e)
  healthIssue : ∀ st code message, code ≠ .scanScopeIncomplete →
    Keeps w (S.on st) (healthIssue code message)
  scanPending : ∀ st key submitted, Keeps w (S.on st) (note (.scanPending key submitted))
  openScan : ∀ {st s} startedAt paths, S.inside st s →
    S.inside (ScanInProgress.start startedAt paths :: st) (s.openScan startedAt paths)
  issue : ∀ st path code message, Keeps w (S.within st) (issue path code message)
  countScan : ∀ st f, (∀ a, coverageGap (f a) = coverageGap a) →
    Keeps w (S.within st) (countScan f)
  gap : ∀ st f, (∀ a, coverageGap (f a) = true) → Keeps w (S.within st) (countGap f)
  inspect : ∀ st path stat, Keeps w (S.within st) (inspectFile (recordInspection none) path stat)
  closeFailed : ∀ {st x s}, S.failed (x :: st) s → S.failed st s.closeScan
  closeCut : ∀ {s}, S.cut s → S.cut s.closeScan

/-- Settling a scan above these leads back to the assertions. -/
def Scheme.Settles (w : World) (S : Scheme) (st : List ScanInProgress) : Prop :=
  ∀ {x s} c host completedAt, S.inside (x :: st) s →
    wp w (settle c (x.result host completedAt)) (S.leaving st).post s

namespace ScanRules

variable {S : Scheme} (h : ScanRules w S)

include h

theorem raise (st : List ScanInProgress) {α : Type} (e : PyError) :
    Keeps w (S.on st) (Prog.raise e : WatchM α) := by
  refine Keeps.raise fun s hs => ?_
  show ite _ _ _
  split
  · exact h.failed hs
  · exact h.cut hs

theorem halt (st : List ScanInProgress) {α : Type} : Keeps w (S.on st) (Prog.halt : WatchM α) :=
  Keeps.halt fun _ hs => h.cut hs

theorem call (st : List ScanInProgress) {α : Type} (f : World → Nat → α) :
    Keeps w (S.on st) (call f) :=
  Keeps.bind (h.point st) fun _ _ hs => hs

theorem lstat (st : List ScanInProgress) (path : Path) : Keeps w (S.on st) (lstat path) :=
  h.call st _

theorem clock (st : List ScanInProgress) : Keeps w (S.on st) clock := h.call st _

theorem formatUtc (st : List ScanInProgress) : Keeps w (S.on st) formatUtc := h.call st _

/-- The body of the walk, when the visit of a file keeps the assertions. -/
theorem walkItem (st : List ScanInProgress) {filter : Option FileFilter} {observer : FileObserver}
    (hvisit : ∀ path stat, Keeps w (S.within st) (visitFile filter observer path stat))
    (item : WalkItem) : Keeps w (S.within st) (walkItem filter observer item) := by
  cases item with
  | file path stat => exact hvisit path stat
  | unreadable path what message => exact h.issue st path _ message
  | special =>
      exact h.gap st (fun a => { a with skippedSpecial := a.skippedSpecial + 1 })
        fun a => by simp [coverageGap]
  | symlink =>
      exact h.countScan st (fun a => { a with skippedSymlinks := a.skippedSymlinks + 1 })
        fun _ => rfl
  | otherFilesystem =>
      exact h.countScan st (fun a => { a with skippedFilesystems := a.skippedFilesystems + 1 })
        fun _ => rfl
  | excluded =>
      exact h.countScan st (fun a => { a with skippedExcluded := a.skippedExcluded + 1 })
        fun _ => rfl

theorem beginScan (st : List ScanInProgress) (paths : List Path) {s : Watcher}
    (hs : S.inside st s) :
    wp w (beginScan paths) ((S.on st).postWith fun _ => (S.within st).inside) s := by
  refine Keeps.wp_bind (h.formatUtc st) hs fun startedAt s' hs' => ?_
  exact ⟨_, h.openScan startedAt paths hs'⟩

/-- A scan returns the result of its local variables. -/
theorem walkRoots (st : List ScanInProgress) {filter : Option FileFilter}
    {observer : FileObserver}
    (hvisit : ∀ path stat, Keeps w (S.within st) (Watch.visitFile filter observer path stat))
    (paths : List Path) {s : Watcher} (hs : (S.within st).inside s) :
    wp w (walkRoots paths filter observer) ((S.within st).postWith fun r s' =>
      ∃ x host completedAt, S.inside (x :: st) s' ∧ r = x.result host completedAt) s := by
  refine Keeps.wp_bind (Scheme.keeps_within fun x => h.call _ _) hs fun items s hs => ?_
  refine Keeps.wp_bind (Keeps.forEach (h.walkItem st hvisit) items) hs fun _ s hs => ?_
  refine Keeps.wp_bind (Scheme.keeps_within fun x => h.formatUtc _) hs
    fun completedAt s hs => ?_
  obtain ⟨x, hx⟩ := hs
  refine ⟨x, w.host, completedAt, hx, ?_⟩
  show (s.scans.headD _).result _ _ = _
  rw [h.stack hx]
  rfl

/-- `_scan_paths`, when the visits of its walk keep the assertions and settling the
scan leads to `Q`. -/
theorem scanPaths_of (st : List ScanInProgress) {filter : Option FileFilter}
    {observer : Option FileObserver} {c : ScanCall} {Q : ScanResult → Watcher → Prop}
    (hvisit : ∀ path stat,
      Keeps w (S.within st) (Watch.visitFile filter (recordInspection observer) path stat))
    (hsettle : ∀ x s host completedAt, S.inside (x :: st) s →
      wp w (Watch.settle c (x.result host completedAt))
        ((S.leaving st).postWith fun r s' => Q r s'.closeScan) s)
    {s : Watcher} (hs : S.inside st s) :
    wp w (scanPaths c filter observer) ((S.on st).postWith Q) s := by
  refine (h.beginScan st c.paths hs).bind (fun _ s hs => ?_) (fun _ _ hr => hr) fun _ hc => hc
  rw [wp_tryFinally]
  refine (h.walkRoots st hvisit c.paths hs).bind (fun r s hr => ?_) (fun e s hr => ?_)
    fun _ hc => hc
  · obtain ⟨x, host, completedAt, hx, rfl⟩ := hr
    exact (hsettle x s host completedAt hx).mono ⟨fun _ _ hq => hq, fun _ _ hr => hr,
      fun _ hc => hc⟩
  · show ite _ _ _
    have hr : ite _ _ _ := hr
    split at hr
    · rename_i he
      obtain ⟨x, hx⟩ := hr
      rw [if_pos he]
      exact h.closeFailed hx
    · rename_i he
      rw [if_neg he]
      exact h.closeCut hr

/-- Without a filter every file is inspected. -/
theorem visitFile (st : List ScanInProgress) (path : Path) (stat : Stat) :
    Keeps w (S.within st) (visitFile none (recordInspection none) path stat) :=
  h.inspect st path stat

/-- A scan without callbacks keeps the assertions. -/
theorem scanPaths {st : List ScanInProgress} (hst : S.Settles w st) (c : ScanCall) :
    Keeps w (S.on st) (Watch.scanPaths c none none) := by
  intro s hs
  exact (h.scanPaths_of st (Q := fun _ => S.inside st) (h.visitFile st)
    (fun x s host completedAt hx => hst c host completedAt hx) hs).mono
    ⟨fun _ _ hq => hq, fun _ _ hr => hr, fun _ hc => hc⟩

/-- A pending path is scanned, after the history says so. -/
theorem scanKey {st : List ScanInProgress} (hst : S.Settles w st) (key : Bytes)
    (p : PendingPath) : Keeps w (S.on st) (Watch.scanKey key p) := by
  refine Keeps.bind (Keeps.ask _) fun scope => ?_
  cases scope with
  | none => exact h.count st _
  | some scope =>
      refine Keeps.bind (h.lstat st p.path) fun r => ?_
      cases r with
      | error e =>
          refine Keeps.ite (fun _ => ?_) fun _ => ?_
          · refine Keeps.bind (h.count st _) fun _ => ?_
            exact Keeps.bind (h.evict st _) fun _ => h.superseded st _ rfl
          · refine Keeps.bind (h.evict st _) fun _ => ?_
            exact Keeps.bind (Keeps.ask _) fun _ => h.healthIssue st _ _ nofun
      | ok metadata =>
          refine Keeps.bind (Keeps.ask _) fun config => ?_
          refine Keeps.ite (fun _ => ?_) fun _ => ?_
          · exact Keeps.bind (h.count st _) fun _ => h.healthIssue st _ _ nofun
          · exact Keeps.bind (h.scanPaths hst _) fun _ => Keeps.pure ()

/-- A pending path is scanned. -/
theorem scanPendingPath {st : List ScanInProgress} (hst : S.Settles w st) (p : PendingPath) :
    Keeps w (S.on st) (Watch.scanPending p) := by
  refine Keeps.bind (Keeps.ask _) fun key => ?_
  exact Keeps.bind (h.scanPending st _ _) fun _ => h.scanKey hst key p

end ScanRules

/-! ## Reconciliations -/

/-- A change of the locals of `_reconcile` that leaves alone what later steps decide by. -/
def Reconciliation.Bookkeeping (f : Reconciliation → Reconciliation) : Prop :=
  ∀ r, (f r).metadataOnly = r.metadataOnly ∧ (f r).current = r.current ∧
    (f r).unresolved = r.unresolved ∧ (f r).incompleteGeneration = r.incompleteGeneration

/-- A progress heartbeat keeps what a point, a heartbeat and bookkeeping keep. -/
theorem keeps_emitProgressHeartbeat {A : Assertion Watcher PyError} (hpoint : Keeps w A point)
    (hbeat : ∀ operationalIncomplete phase stats progress,
      Keeps w A (emitHeartbeat operationalIncomplete false phase stats progress))
    (hprogress : ∀ f, Reconciliation.Bookkeeping f → Keeps w A (progress f)) :
    Keeps w A emitProgressHeartbeat := by
  have hcall : ∀ f : World → Nat → ℚ, Keeps w A (call f) := fun f =>
    Keeps.bind hpoint fun _ _ hs => hs
  refine Keeps.bind (hcall _) fun now => Keeps.bind (Keeps.gets _) fun r => ?_
  refine Keeps.ite (fun _ => Keeps.pure ()) fun _ => ?_
  refine Keeps.bind (Keeps.bind (hcall _) fun _ => Keeps.gets _) fun stats => ?_
  refine Keeps.bind (Keeps.gets _) fun operationalIncomplete => ?_
  refine Keeps.bind (hbeat _ _ _ _) fun _ => Keeps.bind (Keeps.ask _) fun config => ?_
  exact hprogress _ fun _ => ⟨rfl, rfl, rfl, rfl⟩

/-- `drain_priority_events`, when taking the due paths leads to `Q`, and the loop
over them back to the assertion. -/
theorem keeps_drainPriorityEvents {A : Assertion Watcher PyError} (hpoint : Keeps w A point)
    (hprogress : ∀ f, Reconciliation.Bookkeeping f → Keeps w A (progress f)) (key : Bytes)
    {Q : List PendingPath → Watcher → Prop}
    (hdue : ∀ s, A.inside s → wp w (due (some 32)) (A.postWith Q) s)
    (hloop : ∀ paths s, Q paths s → wp w (Prog.forEach (drainOne key) paths) A.post s) :
    Keeps w A (drainPriorityEvents key) := by
  have hclock : Keeps w A clock := Keeps.bind hpoint fun _ _ hs => hs
  refine Keeps.bind hclock fun now => Keeps.bind (Keeps.gets _) fun r => ?_
  refine Keeps.ite (fun _ => Keeps.pure ()) fun _ => Keeps.bind (Keeps.ask _) fun config => ?_
  refine Keeps.bind (hprogress _ fun _ => ⟨rfl, rfl, rfl, rfl⟩) fun _ => ?_
  intro s hs
  exact (hdue s hs).bind hloop (fun _ _ hr => hr) fun _ hc => hc

/-- What the assertions satisfy around the steps of a walk with callbacks. -/
structure WalkRules (w : World) (S : Scheme) : Prop extends ScanRules w S where
  progress : ∀ st f, Reconciliation.Bookkeeping f → Keeps w (S.on st) (progress f)
  heartbeat : ∀ st operationalIncomplete phase stats progress,
    Keeps w (S.on st) (emitHeartbeat operationalIncomplete false phase stats progress)
  swallow : ∀ {st x s} path code e, code = .fileFilterFailed ∨ code = .fileObserverFailed →
    S.failed (x :: st) s → wp w (swallow path code e) (S.within st).post s

namespace WalkRules

variable {S : Scheme} (h : WalkRules w S)

include h

theorem emitProgressHeartbeat (st : List ScanInProgress) :
    Keeps w (S.on st) emitProgressHeartbeat :=
  keeps_emitProgressHeartbeat (h.point st) (h.heartbeat st) (h.progress st)

/-- `drain_priority_events`, when taking the due paths leads to `Q`, and the loop
over them back to the assertions. -/
theorem drainPriorityEvents_of (st : List ScanInProgress) (key : Bytes)
    {Q : List PendingPath → Watcher → Prop}
    (hdue : ∀ s, S.inside st s → wp w (due (some 32)) ((S.on st).postWith Q) s)
    (hloop : ∀ paths s, Q paths s →
      wp w (Prog.forEach (drainOne key) paths) (S.on st).post s) :
    Keeps w (S.on st) (drainPriorityEvents key) :=
  keeps_drainPriorityEvents (h.point st) (h.progress st) key hdue hloop

/-- An exception of the file filter becomes an issue. -/
theorem applyFilter (st : List ScanInProgress) {filter : FileFilter} {path : Path} {stat : Stat}
    (hf : Keeps w (S.within st) (filter path stat)) :
    Keeps w (S.within st) (applyFilter (some filter) path stat) := by
  refine Keeps.tryExcept hf fun e he s hs => ?_
  have hs : ite _ _ _ := hs
  rw [if_pos he] at hs
  obtain ⟨x, hx⟩ := hs
  exact (h.swallow path .fileFilterFailed e (.inl rfl) hx).bind (fun _ _ hq => hq)
    (fun _ _ hr => hr) fun _ hc => hc

/-- An exception of the file observer becomes an issue. -/
theorem applyObserver (st : List ScanInProgress) {observer : FileObserver} {path : Path}
    {stat : Stat} {hashed : Bool} {s : Watcher}
    (ho : wp w (observer path stat hashed) (S.within st).post s) :
    wp w (applyObserver observer path stat hashed) (S.within st).post s := by
  unfold Watch.applyObserver
  rw [wp_tryExcept]
  refine ho.mono ⟨fun _ _ hq => hq, fun e s hs => ⟨fun he => ?_, fun _ => hs⟩, fun _ hc => hc⟩
  have hs : ite _ _ _ := hs
  rw [if_pos he] at hs
  obtain ⟨x, hx⟩ := hs
  exact h.swallow path .fileObserverFailed e (.inr rfl) hx

end WalkRules

/-- What the assertions satisfy around reconciliations and the main loop.  `R m` holds
inside the walk of a reconciliation, metadata-only or not, and `Q m result` once its
scan is settled. -/
structure WatchRules (w : World) (S : Scheme) (R : Bool → Scheme)
    (Q : Bool → ScanResult → Watcher → Prop) : Prop where
  base : ScanRules w S
  walk : ∀ m, ScanRules w (R m)
  visit : ∀ m path stat, Keeps w ((R m).within [])
    (visitFile (some changedSinceLastReconciliation)
      (recordInspection (if m then none else some recordSuccessfulHash)) path stat)
  openReconciliation : ∀ {s} trigger full m, S.inside [] s →
    wp w (openReconciliation trigger full m)
      ((S.on []).postWith fun _ => (R m).inside []) s
  settle : ∀ {m x s} c host completedAt, (R m).inside [x] s →
    wp w (settle c (x.result host completedAt))
      (((R m).leaving []).postWith fun r s' => Q m r s'.closeScan) s
  closeReconciliation : ∀ {m r s}, Q m r s → wp w (closeReconciliation r) (S.on []).post s
  failed : ∀ {m s}, (R m).failed [] s → S.failed [] s
  cut : ∀ {m s}, (R m).cut s → S.cut s
  drainDue : Keeps w (S.on []) drainDue
  heartbeat : ∀ operationalIncomplete stats,
    Keeps w (S.on []) (emitHeartbeat operationalIncomplete false none stats none)
  pipeline : Keeps w (S.on []) eventPipelineIsHealthy
  startIngest : ∀ {s}, S.inside [] s →
    S.inside [] { s with ingestStarted := true, ingestAlive := true }

namespace WatchRules

variable {S : Scheme} {R : Bool → Scheme} {Q : Bool → ScanResult → Watcher → Prop}
  (h : WatchRules w S R Q)

include h

theorem reconcile (trigger : Trigger) (full metadataOnly : Bool) :
    Keeps w (S.on []) (reconcile trigger full metadataOnly) := by
  refine Keeps.ite (fun _ => h.base.raise [] _) fun _ => ?_
  intro s hs
  refine (h.openReconciliation trigger full metadataOnly hs).bind (fun _ s hs => ?_)
    (fun _ _ hr => hr) fun _ hc => hc
  rw [wp_bind]
  refine ((h.walk metadataOnly).scanPaths_of [] (h.visit metadataOnly)
    (fun x s host completedAt hx => h.settle _ host completedAt hx) hs).bind
    (fun r s hq => h.closeReconciliation hq) (fun e s hr => ?_) fun _ hc => h.cut hc
  have hr : ite _ _ _ := hr
  show ite _ _ _
  split at hr
  · rename_i he
    rw [if_pos he]
    exact h.failed hr
  · rename_i he
    rw [if_neg he]
    exact h.cut hr

theorem checkRoots : ∀ roots : List WatchRoot, Keeps w (S.on []) (checkRoots roots)
  | [] => Keeps.pure true
  | root :: rest => by
      refine Keeps.bind (h.base.lstat [] root.path) fun r => ?_
      have report : ∀ code message, code ≠ .scanScopeIncomplete → Keeps w (S.on []) (do
          healthIssue code message
          pure false) := fun code message hcode =>
        Keeps.bind (h.base.healthIssue [] code message hcode) fun _ => Keeps.pure false
      cases r with
      | error e => exact Keeps.bind (Keeps.ask _) fun _ => report _ _ nofun
      | ok m =>
          refine Keeps.ite (fun _ => report _ _ nofun) fun _ => ?_
          exact Keeps.ite (fun _ => report _ _ nofun) fun _ => checkRoots rest

theorem backendIsHealthy : Keeps w (S.on []) backendIsHealthy := by
  refine Keeps.bind (h.base.call [] _) fun alive => ?_
  refine Keeps.ite (fun _ => Keeps.pure true) fun _ => ?_
  refine Keeps.bind (Keeps.gets _) fun _ => ?_
  exact Keeps.bind (h.base.healthIssue [] _ _ nofun) fun _ => Keeps.pure false

theorem checkTrust (now nextHealthCheck : ℚ) :
    Keeps w (S.on []) (checkTrust now nextHealthCheck) := by
  refine Keeps.ite (fun _ => ?_) fun _ => Keeps.pure _
  refine Keeps.bind (h.base.call [] _) fun answer => ?_
  refine Keeps.bind (Keeps.liftExcept fun e _ s hs => h.base.raise [] (α := Unit) e s hs)
    fun healthError => ?_
  cases healthError with
  | some healthError => exact Keeps.bind (h.base.healthIssue [] _ _ nofun) fun _ => Keeps.pure none
  | none => exact Keeps.bind (Keeps.ask _) fun _ => Keeps.pure _

theorem checks (duration : Option ℚ) (monitoringStarted : ℚ) (d : Deadlines) :
    Keeps w (S.on []) (checks duration monitoringStarted d) := by
  refine Keeps.bind h.pipeline fun healthy => ?_
  refine Keeps.ite (fun _ => ?_) fun _ => Keeps.pure none
  refine Keeps.bind (h.base.clock []) fun now => ?_
  refine Keeps.ite (fun _ => Keeps.pure none) fun _ => ?_
  refine Keeps.bind h.backendIsHealthy fun healthy => ?_
  refine Keeps.ite (fun _ => ?_) fun _ => Keeps.pure none
  refine Keeps.bind (Keeps.bind (Keeps.ask _) h.checkRoots) fun healthy => ?_
  exact Keeps.ite (fun _ => h.checkTrust now _) fun _ => Keeps.pure none

theorem mainHeartbeat : Keeps w (S.on []) Watch.heartbeat := by
  refine Keeps.bind (Keeps.gets _) fun _ => ?_
  refine Keeps.bind (Keeps.bind (h.base.clock []) fun _ => Keeps.gets _) fun _ => ?_
  exact h.heartbeat _ _

theorem heartbeatDue (now : ℚ) (d : Deadlines) : Keeps w (S.on []) (heartbeatDue now d) := by
  refine Keeps.ite (fun _ => ?_) fun _ => Keeps.pure d
  exact Keeps.bind h.mainHeartbeat fun _ => Keeps.bind (Keeps.ask _) fun _ => Keeps.pure _

theorem reconcileDue (now : ℚ) (d : Deadlines) : Keeps w (S.on []) (reconcileDue now d) := by
  refine Keeps.ite (fun _ => ?_) fun _ => Keeps.ite (fun _ => ?_) fun _ => Keeps.pure d
  · exact Keeps.bind (h.reconcile _ _ _) fun _ => Keeps.bind (Keeps.ask _) fun _ => Keeps.pure _
  · exact Keeps.bind (h.reconcile _ _ _) fun _ => Keeps.bind (Keeps.ask _) fun _ => Keeps.pure _

theorem work (d : Deadlines) : Keeps w (S.on []) (work d) := by
  refine Keeps.bind h.drainDue fun _ => ?_
  refine Keeps.bind (h.base.clock []) fun now => ?_
  refine Keeps.bind (h.heartbeatDue now d) fun d => ?_
  refine Keeps.bind (h.reconcileDue now d) fun d => ?_
  exact Keeps.bind (h.base.point []) fun _ => Keeps.pure d

/-- The main loop keeps the assertions, turn by turn. -/
theorem mainLoop (duration : Option ℚ) (monitoringStarted : ℚ) :
    ∀ n d, Keeps w (S.on []) (mainLoop duration monitoringStarted n d)
  | 0, _ => h.base.halt []
  | n + 1, d => by
      refine Keeps.bind (h.checks duration monitoringStarted d) fun r => ?_
      cases r with
      | none => exact Keeps.pure ()
      | some nextHealthCheck =>
          exact Keeps.bind (h.work _) fun d => mainLoop duration monitoringStarted n d

/-- The body of `run` keeps the assertions. -/
theorem watch (duration : Option ℚ) (d : Deadlines) : Keeps w (S.on []) (watch duration d) := by
  have hstart : Keeps w (S.on []) Watch.startIngest := by
    refine Keeps.bind (h.base.call [] _) fun starts => ?_
    exact Keeps.ite (fun _ => Keeps.update fun _ => h.startIngest) fun _ => h.base.raise [] _
  refine Keeps.bind hstart fun _ => ?_
  refine Keeps.bind (h.reconcile _ _ _) fun _ => ?_
  refine Keeps.bind (h.base.clock []) fun monitoringStarted => ?_
  refine Keeps.bind (Keeps.ask _) fun config => ?_
  exact Keeps.bind (fun _ hs => hs) fun turns => h.mainLoop duration _ turns _

end WatchRules

/-! ## Start and shutdown -/

/-- What an assertion satisfies around the start of a session. -/
structure StartRules (w : World) (A : Assertion Watcher PyError) : Prop where
  raise : ∀ {s} e, A.inside s → A.raised e s
  point : Keeps w A point
  observer : ∀ {s} attached, A.inside s → A.inside { s with observerAttached := attached }
  backend : ∀ {s} backend reason, A.inside s →
    A.inside { s with activeBackend := backend, fallbackReason := reason }

namespace StartRules

variable {A : Assertion Watcher PyError} (h : StartRules w A)

include h

theorem call {α : Type} (f : World → Nat → α) : Keeps w A (call f) :=
  Keeps.bind h.point fun _ _ hs => hs

theorem newObserver (backend : ActiveBackend) : Keeps w A (newObserver backend) := by
  refine Keeps.bind (Keeps.update fun _ hs => h.observer true hs) fun _ => ?_
  refine Keeps.bind (h.call _) fun reason => ?_
  cases reason with
  | none => exact Keeps.pure none
  | some reason =>
      refine Keeps.bind (fun _ hs => hs) fun outlives => ?_
      exact Keeps.bind (Keeps.update fun _ hs => h.observer outlives hs) fun _ => Keeps.pure _

theorem startPolling (message : Str) : Keeps w A (startPolling message) := by
  refine Keeps.bind (h.newObserver _) fun reason => ?_
  cases reason with
  | none => exact Keeps.update fun s hs => h.backend _ s.fallbackReason hs
  | some reason => exact Keeps.raise fun _ hs => h.raise _ hs

/-- The observer is started, when the fallback record keeps the assertion. -/
theorem startObserver
    (hfallback : ∀ reason, Keeps w A (emit (.backendFallback reason))) :
    Keeps w A startObserver := by
  refine Keeps.bind (Keeps.ask _) fun config => ?_
  refine Keeps.ite (fun _ => h.startPolling _) fun _ => ?_
  refine Keeps.bind (h.newObserver _) fun reason => ?_
  cases reason with
  | none => exact Keeps.update fun s hs => h.backend _ s.fallbackReason hs
  | some reason =>
      refine Keeps.ite (fun _ => Keeps.raise fun _ hs => h.raise _ hs) fun _ => ?_
      refine Keeps.bind (Keeps.update fun s hs => h.backend s.activeBackend _ hs) fun _ => ?_
      exact Keeps.bind (h.startPolling _) fun _ => hfallback _

end StartRules

/-- The check of the event pipeline, when lowering the overflow flag keeps the assertion. -/
theorem keeps_pipeline {A : Assertion Watcher PyError} (hpoint : Keeps w A point)
    (hcount : ∀ f, Keeps w A (count f))
    (hclear : ∀ s, A.inside s → A.inside { s with events := s.events.clearOverflow.2 })
    (hissue : ∀ code message, code ≠ .scanScopeIncomplete → Keeps w A (healthIssue code message)) :
    Keeps w A eventPipelineIsHealthy := by
  refine Keeps.bind (Keeps.gets _) fun failure => ?_
  cases failure with
  | some reason => exact Keeps.bind (hissue _ _ nofun) fun _ => Keeps.pure false
  | none =>
      refine Keeps.bind hpoint fun _ => ?_
      refine Keeps.bind (Keeps.gets _) fun overflowed => ?_
      refine Keeps.ite (fun _ => ?_) fun _ => Keeps.pure true
      refine Keeps.bind (Keeps.gets _) fun dropped => ?_
      refine Keeps.bind (Keeps.update hclear) fun _ => ?_
      refine Keeps.bind (hcount _) fun _ => ?_
      exact Keeps.bind (hissue _ _ nofun) fun _ => Keeps.pure false

/-- What an assertion satisfies around the shutdown of a session. -/
structure ShutdownRules (w : World) (A : Assertion Watcher PyError) : Prop where
  point : Keeps w A point
  count : ∀ f, Keeps w A (count f)
  ingest : Keeps w A ingest
  pipeline : Keeps w A eventPipelineIsHealthy
  observer : ∀ {s} attached, A.inside s → A.inside { s with observerAttached := attached }
  joined : ∀ {s}, A.inside s → A.inside { s with ingestAlive := false }
  healthIssue : ∀ code message, code ≠ .scanScopeIncomplete →
    Keeps w A (healthIssue code message)

namespace ShutdownRules

variable {A : Assertion Watcher PyError} (h : ShutdownRules w A)

include h

theorem call {α : Type} (f : World → Nat → α) : Keeps w A (call f) :=
  Keeps.bind h.point fun _ _ hs => hs

theorem joinIngest : Keeps w A joinIngest := by
  refine Keeps.bind (Keeps.gets _) fun started => ?_
  refine Keeps.ite (fun _ => ?_) fun _ => Keeps.pure ()
  refine Keeps.bind (h.call _) fun outlives => ?_
  refine Keeps.bind (Keeps.gets _) fun alive => ?_
  exact Keeps.ite (fun _ => h.healthIssue _ _ nofun) fun _ =>
    Keeps.update fun _ hs => h.joined hs

theorem reportBacklog (telemetry : DebouncedPathQueue) : Keeps w A (reportBacklog telemetry) :=
  Keeps.ite (fun _ => h.healthIssue _ _ nofun) fun _ => Keeps.pure ()

theorem stopObserver : Keeps w A stopObserver :=
  Keeps.bind (h.call _) fun outlives => Keeps.update fun _ hs => h.observer outlives hs

theorem shutdown : Keeps w A shutdown := by
  refine Keeps.bind h.stopObserver fun _ => ?_
  refine Keeps.bind h.joinIngest fun _ => ?_
  refine Keeps.bind h.ingest fun _ => ?_
  refine Keeps.bind h.pipeline fun _ => ?_
  refine Keeps.bind (h.call _) fun now => ?_
  refine Keeps.bind (Keeps.gets _) fun telemetry => ?_
  refine Keeps.bind (h.reportBacklog telemetry) fun _ => ?_
  intro s hs
  exact h.count (fun _ => { s with events := telemetry }.statsSnapshot now) s hs

end ShutdownRules

/-- What the assertions satisfy around a whole session.  `B` holds before the first
record of the session. -/
structure RunRules (w : World) (B : Assertion Watcher PyError) (S : Scheme) (R : Bool → Scheme)
    (Q : Bool → ScanResult → Watcher → Prop) : Prop extends WatchRules w S R Q where
  before : StartRules w B
  cut_of_raised : ∀ {e s}, B.raised e s → S.cut s
  cut_of_halted : ∀ {s}, B.halted s → S.cut s
  fallback : ∀ reason, Keeps w B (emit (.backendFallback reason))
  sessionStarted : ∀ {s}, B.inside s →
    wp w emitSessionStarted (B.postWith fun _ => S.inside []) s
  cut_of_failed : ∀ {s}, S.failed [] s → S.cut s
  after : ShutdownRules w (Assertion.always S.cut)
  sessionCompleted : ∀ summary, Keeps w (Assertion.always S.cut) (emit (.sessionCompleted summary))

namespace RunRules

variable {B : Assertion Watcher PyError} {S : Scheme} {R : Bool → Scheme}
  {Q : Bool → ScanResult → Watcher → Prop} (h : RunRules w B S R Q)

include h

/-- However a part of the session ends, the assertion for its end holds. -/
theorem cut_of_keeps {α : Type} {p : WatchM α} (hp : Keeps w (S.on []) p) {s : Watcher}
    (hs : S.inside [] s) : wp w p ((Assertion.always S.cut).postWith fun _ => S.inside []) s := by
  refine (hp s hs).mono ⟨fun _ s' h' => h', fun e s' hr => ?_, fun _ hc => hc⟩
  have hr : ite _ _ _ := hr
  split at hr
  · exact h.cut_of_failed hr
  · exact hr

theorem session (duration : Option ℚ) (d : Deadlines) {s : Watcher} (hs : S.inside [] s) :
    wp w (session duration d) (Assertion.always S.cut).post s := by
  unfold Watch.session
  rw [wp_tryFinally, wp_tryExcept]
  have finish : ∀ s, S.cut s →
      wp w shutdown ((Assertion.always S.cut).post : Post Watcher PyError Unit) s :=
    fun s hc => h.after.shutdown s hc
  refine (h.cut_of_keeps (Keeps.bind (h.watch duration d) fun _ => Keeps.pure false) hs).mono
    ⟨fun _ s' hc => ?_, fun e s' hc => ⟨fun _ => ?_, fun _ => ?_⟩, fun _ hc => hc⟩
  · exact (finish s' (h.base.cut hc)).mono ⟨fun _ _ hc => hc, fun _ _ hc => hc, fun _ hc => hc⟩
  · exact (finish s' hc).mono ⟨fun _ _ hc => hc, fun _ _ hc => hc, fun _ hc => hc⟩
  · exact (finish s' hc).mono ⟨fun _ _ hc => hc, fun _ _ hc => hc, fun _ hc => hc⟩

theorem openSession {s : Watcher} (hs : B.inside s) :
    wp w openSession ((Assertion.always S.cut).postWith fun _ => S.inside []) s := by
  have start : wp w Watch.openSession (B.postWith fun _ => S.inside []) s := by
    refine Keeps.wp_bind (h.before.call _) hs fun startedAt s hs => ?_
    refine Keeps.wp_bind (h.before.startObserver h.fallback) hs fun _ s hs => ?_
    exact (h.sessionStarted hs).bind (fun _ _ hs => hs) (fun _ _ hr => hr) fun _ hc => hc
  exact start.mono
    ⟨fun _ _ hq => hq, fun _ _ hr => h.cut_of_raised hr, fun _ hc => h.cut_of_halted hc⟩

theorem closeSession (startedAt : Str) (interrupted : Bool) :
    Keeps w (Assertion.always S.cut) (closeSession startedAt interrupted) := by
  refine Keeps.bind (h.after.call _) fun _ => Keeps.bind (Keeps.ask _) fun _ => ?_
  refine Keeps.bind (Keeps.gets _) fun summary => ?_
  exact Keeps.bind (h.sessionCompleted summary) fun _ => Keeps.pure summary

/-- The assertion for the end of a session holds of every run, wherever it ends. -/
theorem run (duration : Option ℚ) {s : Watcher} (hs : B.inside s) :
    S.cut (run duration w s).2 := by
  have hrun : wp w (Watch.run duration) (Assertion.always S.cut).post s := by
    refine (wp_ite _ _ _ _).2 ⟨fun _ => h.cut_of_raised (h.before.raise .keyboardInterrupt hs), fun _ => ?_⟩
    refine (h.openSession hs).bind (fun start s hs => ?_) (fun _ _ hc => hc) fun _ hc => hc
    have hdeadlines : Keeps w (S.on []) firstDeadlines := by
      refine Keeps.bind (Keeps.ask _) fun config => ?_
      refine Keeps.bind (h.base.clock []) fun _ => Keeps.bind (h.base.clock []) fun _ => ?_
      exact Keeps.bind (h.base.clock []) fun _ => Keeps.bind (h.base.clock []) fun _ =>
        Keeps.pure _
    refine (h.cut_of_keeps hdeadlines hs).bind (fun d s hs => ?_) (fun _ _ hc => hc) fun _ hc => hc
    refine (h.session duration d hs).bind (fun interrupted s hc => ?_)
      (fun _ _ hc => hc) fun _ hc => hc
    exact h.closeSession start interrupted s hc
  exact hrun.always

end RunRules

end ZsecShield.Watch
