import ZsecShield.Watch.Idle
import ZsecShield.Watch.PersistedHealth

/-!
# Failed inspections are retried

A file whose last inspection failed must be missing from the snapshot that the next
reconciliation compares against.  `Clean` says so of both snapshots.  Between the
failure and the eviction the file is `owed`: it is the `stale` file of the scan that
just inspected it, or an issue of a scan outside of reconciliations still names it.
The walk of a reconciliation does not evict from the snapshot it builds, so the
invariant asks for runs without a `lapse`.
-/

namespace ZsecShield.Watch

open Text (Str str)
open Effect

variable {w : World}

/-! ## Lapses -/

/-- The inspection gave no complete verdict about the content. -/
def Inspection.failing : Inspection → Bool
  | .succeeded => false
  | _ => true

/-- The last inspection of the file failed. -/
def Failing (lastAttempt : Bytes → Option Inspection) (key : Bytes) : Prop :=
  ∃ i ∈ lastAttempt key, Inspection.failing i = true

/-- Inside a reconciliation: an inspection fails of a file that the walk has already
recorded, or after the file was counted as hashed, or by an exception that escapes it.
Or the metadata inventory records a file whose last inspection failed. -/
def Moment.lapse : Moment → Bool
  | .inspected _ .failed walking tracked => walking && tracked
  | .inspected _ .hashedThenFailed walking _ => walking
  | .inspected _ .escaped walking _ => walking
  | .inventoried _ lastAttempt => lastAttempt.any Inspection.failing
  | _ => false

/-- A history without a lapse. -/
def Sound (log : List LogEntry) : Prop := ∀ e ∈ log, e.moment.lapse = false

instance (log : List LogEntry) : Decidable (Sound log) :=
  inferInstanceAs (Decidable (∀ e ∈ log, e.moment.lapse = false))

/-- No failed inspection is forgotten at this moment.  The end of a reconciliation
leaves no file in the snapshot whose last inspection failed, no such file is passed
over as unchanged, and none is visited by a reconciliation that recovers. -/
def Moment.Retries : Moment → Prop
  | .reconcileEnded snapshot lastAttempt => ∀ key, Failing lastAttempt key → snapshot key = none
  | .unchanged _ lastAttempt => ∀ i ∈ lastAttempt, Inspection.failing i = false
  | .recovered visited lastAttempt => ∀ key ∈ visited, ¬ Failing lastAttempt key
  | _ => True

/-- In the whole history no failed inspection is forgotten. -/
def Retried (log : List LogEntry) : Prop := ∀ e ∈ log, e.moment.Retries

theorem Moment.retries_of_ofSnapshot {m : Moment} (h : m.ofSnapshot = false) : m.Retries := by
  cases m <;> trivial

theorem Retried.cons {log : List LogEntry} {e : LogEntry} (h : Retried log)
    (he : e.moment.Retries) : Retried (e :: log) := by
  intro e' he'
  cases he' with
  | head => exact he
  | tail _ hmem => exact h e' hmem

theorem Sound.tail {log : List LogEntry} {e : LogEntry} (h : Sound (e :: log)) : Sound log :=
  fun e' he' => h e' (List.mem_cons_of_mem _ he')

/-! ## The snapshots -/

/-- A step that changes no snapshot, save for evictions, and inspects nothing. -/
structure Calm (s s' : Watcher) : Prop where
  scans : s'.scans = s.scans := by rfl
  lastAttempt : s'.ghost.lastAttempt = s.ghost.lastAttempt := by rfl
  walking : s'.ghost.walking = s.ghost.walking := by rfl
  visited : s'.ghost.visited = s.ghost.visited := by rfl
  metadataOnly : s'.reconciliation.metadataOnly = s.reconciliation.metadataOnly := by rfl
  current : s'.reconciliation.current = s.reconciliation.current := by rfl
  unresolved : s'.reconciliation.unresolved = s.reconciliation.unresolved := by rfl
  snapshot : ∀ key, s'.reconciliationSnapshot key = none ∨
    s'.reconciliationSnapshot key = s.reconciliationSnapshot key := by exact fun _ => .inr rfl
  log : ∃ entries : List LogEntry, (∀ e ∈ entries, e.moment.ofSnapshot = false) ∧
    s'.ghost.log = entries ++ s.ghost.log := by exact ⟨[], by nofun, rfl⟩

theorem Idle.calm {s s' : Watcher} (h : Idle s s') : Calm s s' where
  scans := h.scans
  lastAttempt := h.lastAttempt
  walking := h.walking
  visited := h.visited
  metadataOnly := h.metadataOnly
  current := h.current
  unresolved := h.unresolved
  snapshot := h.snapshot
  log := by
    obtain ⟨entries, hall, heq⟩ := h.log
    refine ⟨entries, fun e he => ?_, heq⟩
    have hidle := hall e he
    simp only [Moment.idle, Bool.and_eq_true, Bool.not_eq_true'] at hidle
    exact hidle.2

theorem Calm.trans {s s' s'' : Watcher} (h : Calm s s') (h' : Calm s' s'') : Calm s s'' where
  scans := h'.scans.trans h.scans
  lastAttempt := h'.lastAttempt.trans h.lastAttempt
  walking := h'.walking.trans h.walking
  visited := h'.visited.trans h.visited
  metadataOnly := h'.metadataOnly.trans h.metadataOnly
  current := h'.current.trans h.current
  unresolved := h'.unresolved.trans h.unresolved
  snapshot key := by
    obtain hnone | hsame := h'.snapshot key
    · exact .inl hnone
    · rw [hsame]
      exact h.snapshot key
  log := by
    obtain ⟨entries, hall, heq⟩ := h.log
    obtain ⟨entries', hall', heq'⟩ := h'.log
    refine ⟨entries' ++ entries, ?_, by rw [heq', heq, List.append_assoc]⟩
    intro e he
    exact (List.mem_append.1 he).elim (hall' e) (hall e)

/-- The steps of a pass. -/
theorem Calm.pass (s : Watcher) (inFilter : Bool) (passOpened : List (Bytes × Nat)) {m : Moment}
    (hm : m.ofPass = true) :
    Calm s (Watcher.log m
      { s with ghost := { s.ghost with inFilter := inFilter, passOpened := passOpened } }) where
  log := by
    refine ⟨[⟨m, s.operationalIncomplete⟩], fun e he => ?_, rfl⟩
    obtain rfl := List.mem_singleton.1 he
    show m.ofSnapshot = false
    cases m <;> first | rfl | cases hm

/-- Taking due paths off the queue leaves the snapshots alone. -/
theorem Calm.drained (host : Host) (now : ℚ) (maximum : Option Nat) (s : Watcher)
    (paths : List PendingPath) : Calm s ((s.takeDue now maximum).drained host paths) := by
  have hfold : ∀ (paths : List PendingPath) (s' : Watcher), Calm s s' →
      Calm s (s'.drained host paths) := by
    intro paths
    induction paths with
    | nil => exact fun s' h => h
    | cons p rest ih =>
        intro s' h
        exact ih _ (h.trans (Calm.pass s' s'.ghost.inFilter s'.ghost.passOpened rfl))
  exact hfold paths _ {}

/-- What holds of the snapshots.  `o` is the mode of the reconciliation under way, `owed`
tells which failed files may still be in the snapshot, and `excused` which visited
files the reconciliation may not have recorded. -/
structure Clean (o : Option Bool) (owed excused : Bytes → Prop) (s : Watcher) : Prop where
  retried : Retried s.ghost.log
  previous : ∀ key, Failing s.ghost.lastAttempt key →
    s.reconciliationSnapshot key = none ∨ owed key
  current : o.isSome = true → ∀ key, Failing s.ghost.lastAttempt key →
    s.reconciliation.current key = none
  visited : o.isSome = true → ∀ key ∈ s.ghost.visited,
    (s.reconciliation.current key).isSome = true ∨ key ∈ s.reconciliation.unresolved ∨ excused key

namespace Clean

variable {o : Option Bool} {owed owed' excused excused' : Bytes → Prop} {s s' : Watcher}

theorem mono (h : Clean o owed excused s) (howed : ∀ key, owed key → owed' key)
    (hexcused : ∀ key, excused key → excused' key) : Clean o owed' excused' s where
  retried := h.retried
  previous key hkey := (h.previous key hkey).imp_right (howed key)
  current := h.current
  visited hwalk key hkey := (h.visited hwalk key hkey).imp_right (Or.imp_right (hexcused key))

theorem calm (h : Clean o owed excused s) (hc : Calm s s') : Clean o owed excused s' where
  retried := by
    obtain ⟨entries, hall, heq⟩ := hc.log
    rw [heq]
    intro e he
    obtain he | he := List.mem_append.1 he
    · exact Moment.retries_of_ofSnapshot (hall e he)
    · exact h.retried e he
  previous key hkey := by
    rw [hc.lastAttempt] at hkey
    obtain hnone | hsame := hc.snapshot key
    · exact .inl hnone
    · rw [hsame]
      exact h.previous key hkey
  current hwalk key hkey := by
    rw [hc.lastAttempt] at hkey
    rw [hc.current]
    exact h.current hwalk key hkey
  visited hwalk key hkey := by
    rw [hc.visited] at hkey
    rw [hc.current, hc.unresolved]
    exact h.visited hwalk key hkey

/-- A file is evicted, and is not owed any longer. -/
theorem evict {key : Bytes} (h : Clean o owed excused s)
    (howed : ∀ k, owed k → k = key ∨ owed' k) :
    Clean o owed' excused
      { s with reconciliationSnapshot := s.reconciliationSnapshot.pop key } where
  retried := h.retried
  previous k hk := by
    show Snapshot.pop _ _ _ = none ∨ _
    by_cases hkey : k = key
    · subst hkey
      exact .inl (Snapshot.pop_self _ _)
    · obtain hnone | ho := h.previous k hk
      · exact .inl ((if_neg hkey).trans hnone)
      · exact .inr ((howed k ho).resolve_left hkey)
  current := h.current
  visited := h.visited

/-- An inspection succeeds. -/
theorem inspect_succeeded {key : Bytes} (h : Clean o owed excused s) :
    Clean o owed excused (s.inspect key .succeeded) := by
  have hfailing : ∀ k, Failing (s.inspect key .succeeded).ghost.lastAttempt k →
      Failing s.ghost.lastAttempt k := by
    rintro k ⟨i, hi, hf⟩
    have hi : i ∈ (if k = key then some Inspection.succeeded else s.ghost.lastAttempt k) := hi
    split at hi
    · obtain rfl := Option.mem_some_iff.1 hi
      cases hf
    · exact ⟨i, hi, hf⟩
  exact ⟨h.retried.cons trivial, fun k hk => h.previous k (hfailing k hk),
    fun hwalk k hk => h.current hwalk k (hfailing k hk), h.visited⟩

/-- An inspection fails, and the file is owed. -/
theorem inspect_failing {key : Bytes} {i : Inspection} (h : Clean o owed excused s)
    (htracked : o.isSome = true → s.reconciliation.current key = none) :
    Clean o (fun k => owed k ∨ k = key) excused (s.inspect key i) := by
  have hfailing : ∀ k, Failing (s.inspect key i).ghost.lastAttempt k →
      k = key ∨ Failing s.ghost.lastAttempt k := by
    rintro k ⟨j, hj, hf⟩
    by_cases hk : k = key
    · exact .inl hk
    · exact .inr ⟨j, ((if_neg hk).symm.trans hj), hf⟩
  refine ⟨h.retried.cons trivial, fun k hk => ?_, fun hwalk k hk => ?_, h.visited⟩
  · obtain rfl | hk := hfailing k hk
    · exact .inr (.inr rfl)
    · exact (h.previous k hk).imp_right .inl
  · obtain rfl | hk := hfailing k hk
    · exact htracked hwalk
    · exact h.current hwalk k hk

/-- The walk turns to a file. -/
theorem beginVisit {key : Bytes} (h : Clean o owed excused s) :
    Clean o owed (fun k => excused k ∨ k = key) (s.beginVisit key) := by
  refine ⟨h.retried.cons trivial, h.previous, h.current, fun hwalk k hk => ?_⟩
  cases hk with
  | head => exact .inr (.inr (.inr rfl))
  | tail _ hmem => exact (h.visited hwalk k hmem).imp_right (Or.imp_right .inl)

/-- The walk records a file. -/
theorem setCurrent {key : Bytes} (h : Clean o owed (fun k => excused k ∨ k = key) s)
    (fingerprint : Fingerprint) (hkey : ¬ Failing s.ghost.lastAttempt key) :
    Clean o owed excused (s.setCurrent key fingerprint) := by
  refine ⟨h.retried, h.previous, fun hwalk k hk => ?_, fun hwalk k hk => ?_⟩
  · have hne : k ≠ key := by
      rintro rfl
      exact hkey hk
    exact (if_neg hne).trans (h.current hwalk k hk)
  · show (Snapshot.set _ _ _ k).isSome = true ∨ _
    by_cases hk' : k = key
    · exact .inl (by simp [Snapshot.set, hk'])
    · have hset : s.reconciliation.current.set key fingerprint k = s.reconciliation.current k :=
        if_neg hk'
      rw [hset]
      exact (h.visited hwalk k hk).imp_right (Or.imp_right fun h => h.resolve_right hk')

end Clean

/-! ## Assertions -/

/-- An issue of one of the scans names the file. -/
def Owed (host : Host) (st : List ScanInProgress) (key : Bytes) : Prop :=
  ∃ x ∈ st, ∃ i ∈ x.issues, host.snapshotPathKey i.path = key

/-- The outermost scan holds an issue that no vanished path explains. -/
def Issued (st : List ScanInProgress) : Prop :=
  ∃ x ∈ st.getLast?, ∃ i ∈ x.issues, ScanCode.vanishable i.code = false

theorem Owed.head {host : Host} {x x' : ScanInProgress} {st : List ScanInProgress} {key : Bytes}
    (h : Owed host (x :: st) key) (hx : x.issues ⊆ x'.issues) : Owed host (x' :: st) key := by
  obtain ⟨y, hy, i, hi, hkey⟩ := h
  cases hy with
  | head => exact ⟨x', List.mem_cons_self, i, hx hi, hkey⟩
  | tail _ hmem => exact ⟨y, List.mem_cons_of_mem _ hmem, i, hi, hkey⟩

theorem Owed.cons {host : Host} {x : ScanInProgress} {st : List ScanInProgress} {key : Bytes}
    (h : Owed host st key) : Owed host (x :: st) key := by
  obtain ⟨y, hy, i, hi, hkey⟩ := h
  exact ⟨y, List.mem_cons_of_mem _ hy, i, hi, hkey⟩

theorem Issued.head {x x' : ScanInProgress} {st : List ScanInProgress} (h : Issued (x :: st))
    (hx : x.issues ⊆ x'.issues) : Issued (x' :: st) := by
  obtain ⟨y, hy, i, hi, hv⟩ := h
  cases st with
  | nil =>
      obtain rfl := Option.mem_some_iff.1 hy
      exact ⟨x', rfl, i, hx hi, hv⟩
  | cons z rest => exact ⟨y, hy, i, hi, hv⟩

theorem Issued.cons {x : ScanInProgress} {st : List ScanInProgress} (h : Issued st) :
    Issued (x :: st) := by
  obtain ⟨y, hy, hissue⟩ := h
  cases st with
  | nil => cases hy
  | cons z rest => exact ⟨y, hy, hissue⟩

theorem Issued.of_cons {x : ScanInProgress} {st : List ScanInProgress} (h : Issued (x :: st))
    (hst : st ≠ []) : Issued st := by
  cases st with
  | nil => exact absurd rfl hst
  | cons z rest => exact h

/-- The place in the run: these scans are in progress, in a reconciliation of this mode. -/
structure Standing (o : Option Bool) (st : List ScanInProgress) (s : Watcher) : Prop where
  scans : s.scans = st
  walking : s.ghost.walking = o.isSome
  mode : ∀ m ∈ o, s.reconciliation.metadataOnly = m

/-- What holds wherever a run ends or is looked at. -/
def NothingForgotten (s : Watcher) : Prop := Sound s.ghost.log → Retried s.ghost.log

/-- What holds after an exception.  Inside a reconciliation the scanner may catch it. -/
structure Thrown (o : Option Bool) (st : List ScanInProgress) (s : Watcher) : Prop where
  nothingForgotten : NothingForgotten s
  standing : o.isSome = true → Standing o st s
  clean : o.isSome = true → Sound s.ghost.log → Clean o (fun _ => False) (fun _ => True) s

/-- The assertion about the snapshots at a place in the run. -/
def snapshots (o : Option Bool) (st : List ScanInProgress) (owed excused : Bytes → Prop) :
    Assertion Watcher PyError where
  inside s := Standing o st s ∧ (Sound s.ghost.log → Clean o owed excused s)
  raised e s := if e.isException = true then Thrown o st s else NothingForgotten s
  halted := NothingForgotten

namespace Retry

variable {o : Option Bool} {st : List ScanInProgress} {owed owed' excused excused' : Bytes → Prop}
  {s s' : Watcher}

theorem standing_calm (h : Standing o st s) (hc : Calm s s') : Standing o st s' :=
  ⟨hc.scans.trans h.scans, hc.walking.trans h.walking, fun m hm =>
    hc.metadataOnly.trans (h.mode m hm)⟩

theorem sound_of_calm (hc : Calm s s') (h : Sound s'.ghost.log) : Sound s.ghost.log := by
  obtain ⟨entries, -, heq⟩ := hc.log
  intro e he
  refine h e ?_
  rw [heq]
  exact List.mem_append_right _ he

theorem inside_calm (h : (snapshots o st owed excused).inside s) (hc : Calm s s') :
    (snapshots o st owed excused).inside s' :=
  ⟨standing_calm h.1 hc, fun hsound => (h.2 (sound_of_calm hc hsound)).calm hc⟩

theorem inside_mono (h : (snapshots o st owed excused).inside s)
    (howed : ∀ key, owed key → owed' key) (hexcused : ∀ key, excused key → excused' key) :
    (snapshots o st owed' excused').inside s :=
  ⟨h.1, fun hsound => (h.2 hsound).mono howed hexcused⟩

theorem nothingForgotten_of_inside (h : (snapshots o st owed excused).inside s) :
    NothingForgotten s := fun hsound => (h.2 hsound).retried

theorem thrown_of_inside (h : (snapshots o st owed excused).inside s)
    (howed : ∀ key, owed key → o = none) : Thrown o st s :=
  ⟨nothingForgotten_of_inside h, fun _ => h.1, fun hwalk hsound => (h.2 hsound).mono
    (fun key hk => by rw [howed key hk] at hwalk; cases hwalk) fun _ _ => trivial⟩

theorem lasting (o : Option Bool) (st : List ScanInProgress) {owed : Bytes → Prop}
    (excused : Bytes → Prop) (howed : ∀ key, owed key → o = none) :
    Lasting (snapshots o st owed excused) where
  idle hidle hs := inside_calm hs hidle.calm
  raise := by
    intro s e hs
    show ite _ _ _
    split
    · exact thrown_of_inside hs howed
    · exact nothingForgotten_of_inside hs
  stop hs := nothingForgotten_of_inside hs

/-- Outside of reconciliations the issues of a scan may still owe evictions. -/
def owing (host : Host) (o : Option Bool) (st : List ScanInProgress) (key : Bytes) : Prop :=
  o = none ∧ Owed host st key

/-- The reconciliation cannot recover, or the file is being visited. -/
def excusing (st : List ScanInProgress) (busy : Option Bytes) (key : Bytes) : Prop :=
  Issued st ∨ key ∈ busy

/-- The assertions of the argument, while the walk visits the file `busy`. -/
def scheme (w : World) (o : Option Bool) (busy : Option Bytes) : Scheme where
  inside st s := (snapshots o st (owing w.host o st) (excusing st busy)).inside s
  failed := Thrown o
  cut := NothingForgotten

theorem scheme_on (o : Option Bool) (busy : Option Bytes) (st : List ScanInProgress) :
    (scheme w o busy).on st = snapshots o st (owing w.host o st) (excusing st busy) := rfl

theorem scheme_lasting (o : Option Bool) (busy : Option Bytes) (st : List ScanInProgress) :
    Lasting ((scheme w o busy).on st) :=
  lasting o st (excusing st busy) fun _ h => h.1

/-! ## Steps of a scan -/

theorem standing_onScan {x : ScanInProgress} {st : List ScanInProgress}
    (h : Standing o (x :: st) s) (f : ScanInProgress → ScanInProgress) :
    Standing o (f x :: st) (s.onScan f) := by
  refine ⟨?_, h.walking, h.mode⟩
  show s.scans.modifyHead f = _
  rw [h.scans]
  rfl

/-- A step on the locals of the scan that forgets no issue. -/
theorem inside_onScan {x : ScanInProgress} {busy : Option Bytes}
    {f : ScanInProgress → ScanInProgress} (hf : x.issues ⊆ (f x).issues)
    (h : (scheme w o busy).inside (x :: st) s) :
    (scheme w o busy).inside (f x :: st) (s.onScan f) := by
  refine ⟨standing_onScan h.1 f, fun hsound => ?_⟩
  have hclean : Clean o (owing w.host o (f x :: st)) (excusing (f x :: st) busy) s :=
    (h.2 hsound).mono (fun _ hk => ⟨hk.1, hk.2.head hf⟩)
      fun _ hk => hk.imp_left fun hi => hi.head hf
  exact ⟨hclean.retried, hclean.previous, hclean.current, hclean.visited⟩

theorem issue_keeps (o : Option Bool) (busy : Option Bytes) (st : List ScanInProgress)
    (path : Path) (code : ScanCode) (message : Str) :
    Keeps w ((scheme w o busy).within st) (issue path code message) := by
  rintro s ⟨x, hs⟩
  have hgrow := inside_onScan (w := w) (f := fun a => { a with issues := a.issues ++
    [⟨path, code, sanitize message⟩] }) (List.subset_append_left _ _) hs
  exact ⟨_, inside_calm hgrow (Idle.log_idle rfl).calm⟩

theorem countScan_keeps (o : Option Bool) (busy : Option Bytes) (st : List ScanInProgress)
    (f : ScanStats → ScanStats) : Keeps w ((scheme w o busy).within st) (countScan f) := by
  rintro s ⟨x, hs⟩
  exact ⟨_, inside_onScan (f := fun a => { a with stats := f a.stats }) (fun _ hi => hi) hs⟩

theorem gap_keeps (o : Option Bool) (busy : Option Bytes) (st : List ScanInProgress)
    (f : ScanStats → ScanStats) : Keeps w ((scheme w o busy).within st) (countGap f) := by
  refine Keeps.bind (countScan_keeps o busy st f) fun _ => ?_
  rintro s ⟨x, hs⟩
  exact ⟨x, inside_calm hs (Idle.log_idle rfl).calm⟩

theorem keepFinding_keeps (o : Option Bool) (busy : Option Bytes) (st : List ScanInProgress)
    (finding : Option FileFinding) :
    Keeps w ((scheme w o busy).within st) (keepFinding finding) := by
  cases finding with
  | none => exact Keeps.pure ()
  | some finding =>
      rintro s ⟨x, hs⟩
      exact ⟨_, inside_onScan (f := fun a => { a with findings := a.findings ++ [finding] })
        (fun _ hi => hi) hs⟩

/-- An exception the scanner catches becomes an issue of the outermost scan. -/
theorem swallow_keeps {x : ScanInProgress} (busy : Option Bytes) (path : Path) (code : ScanCode)
    (e : PyError) (hcode : ScanCode.vanishable code = false) (hs : Thrown o [x] s)
    (ho : o.isSome = true) :
    wp w (swallow path code e) ((scheme w o busy).within []).post s := by
  show wp w (Prog.update _ >>= _) _ s
  rw [wp_bind, wp_update, Post.withOk_ok, wp_bind, wp_ask, Post.withOk_ok]
  let record : ScanInProgress → ScanInProgress := fun a =>
    { a with issues := a.issues ++ [⟨path, code, sanitize (w.host.text e)⟩] }
  have hlog : Calm s (s.log (.swallowed s.sink.operationalState)) := (Idle.log_idle rfl).calm
  have hissued : ∀ key, True → excusing [record x] busy key := fun _ _ =>
    .inl ⟨_, rfl, _, List.mem_append_right _ List.mem_cons_self, hcode⟩
  have hnone : ∀ key, False → owing w.host o [record x] key := fun _ h => h.elim
  have hinside : (scheme w o busy).inside [record x]
      ((s.log (.swallowed s.sink.operationalState)).onScan record) := by
    refine ⟨standing_onScan (standing_calm (hs.standing ho) hlog) record, fun hsound => ?_⟩
    have hclean := ((hs.clean ho (sound_of_calm hlog hsound)).calm hlog).mono hnone hissued
    exact ⟨hclean.retried, hclean.previous, hclean.current, hclean.visited⟩
  exact ⟨_, inside_calm hinside (Idle.log_idle rfl).calm⟩

/-! ## Inspections -/

/-- After an inspection: the scan in progress, and whether the file was counted as hashed.
A file that was not is still to be evicted. -/
def Inspected (w : World) (o : Option Bool) (busy : Option Bytes) (st : List ScanInProgress)
    (key : Bytes) (hashed : Bool) (s : Watcher) : Prop :=
  ∃ x, Standing o (x :: st) s ∧ (Sound s.ghost.log →
    Clean o (fun k => owing w.host o (x :: st) k ∨ (hashed = false ∧ k = key))
      (excusing (x :: st) busy) s ∧
    (o.isSome = true → hashed = true → ¬ Failing s.ghost.lastAttempt key))

/-- The file of a failed inspection is owed as long as its scan has not evicted it. -/
theorem inspect_failed {x : ScanInProgress} {busy : Option Bytes} (key : Bytes) (i : Inspection)
    (hi : ∀ tracked, Moment.lapse (.inspected key i true tracked) = false → tracked = false)
    (hs : (scheme w o busy).inside (x :: st) s) :
    Standing o (x :: st) (s.inspect key i) ∧ (Sound (s.inspect key i).ghost.log →
      Clean o (fun k => owing w.host o (x :: st) k ∨ k = key) (excusing (x :: st) busy)
        (s.inspect key i)) := by
  refine ⟨⟨hs.1.scans, hs.1.walking, hs.1.mode⟩, fun hsound => ?_⟩
  refine (hs.2 hsound.tail).inspect_failing fun hwalk => ?_
  have hlapse := hsound _ List.mem_cons_self
  have hlapse : Moment.lapse (.inspected key i s.ghost.walking
    (s.reconciliation.current key).isSome) = false := hlapse
  rw [hs.1.walking, hwalk] at hlapse
  exact Option.isNone_iff_eq_none.1 (by rw [← Option.not_isSome, hi _ hlapse]; rfl)

/-- The issue of a failed inspection joins the scan. -/
theorem inspected_issue {x : ScanInProgress} {busy : Option Bytes} {path : Path}
    {f : ScanInProgress → ScanInProgress} (hf : x.issues ⊆ (f x).issues) {hashed : Bool}
    (hstanding : Standing o (x :: st) s) {P : Bytes → Prop}
    (hclean : Sound s.ghost.log → Clean o (fun k => owing w.host o (x :: st) k ∨ P k)
      (excusing (x :: st) busy) s)
    (hkey : Sound s.ghost.log → ∀ k, P k →
      owing w.host o (f x :: st) k ∨ (hashed = false ∧ k = w.host.snapshotPathKey path))
    (hhashed : Sound s.ghost.log → o.isSome = true → hashed = true →
      ¬ Failing s.ghost.lastAttempt (w.host.snapshotPathKey path)) {m : Moment}
    (hm : m.idle = true) :
    Inspected w o busy st (w.host.snapshotPathKey path) hashed ((s.onScan f).log m) := by
  have hidle : Calm (s.onScan f) ((s.onScan f).log m) := (Idle.log_idle hm).calm
  refine ⟨f x, standing_calm (standing_onScan hstanding f) hidle, fun hsound => ?_⟩
  have hsound : Sound (s.onScan f).ghost.log := sound_of_calm hidle hsound
  change Sound s.ghost.log at hsound
  have howed : ∀ k, owing w.host o (x :: st) k ∨ P k → owing w.host o (f x :: st) k ∨
      (hashed = false ∧ k = w.host.snapshotPathKey path) := by
    rintro k (hk | hk)
    · exact .inl ⟨hk.1, hk.2.head hf⟩
    · exact hkey hsound k hk
  have hmono : Clean o _ (excusing (f x :: st) busy) s := (hclean hsound).mono howed
    fun _ hk => hk.imp_left fun hi => hi.head hf
  have honScan : Clean o (fun k => owing w.host o (f x :: st) k ∨
      (hashed = false ∧ k = w.host.snapshotPathKey path)) (excusing (f x :: st) busy)
      (s.onScan f) := ⟨hmono.retried, hmono.previous, hmono.current, hmono.visited⟩
  exact ⟨honScan.calm hidle, hhashed hsound⟩

/-- Inside a reconciliation such an inspection is a lapse. -/
theorem none_of_sound {x : ScanInProgress} (key : Bytes) (i : Inspection)
    (hi : ∀ walking tracked, Moment.lapse (.inspected key i walking tracked) = walking)
    (h : Standing o (x :: st) s) (hsound : Sound (s.inspect key i).ghost.log) : o = none := by
  have hlapse : Moment.lapse (.inspected key i s.ghost.walking _) = false :=
    hsound _ List.mem_cons_self
  rw [hi, h.walking] at hlapse
  exact Option.isNone_iff_eq_none.1 (by rw [← Option.not_isSome, hlapse]; rfl)

/-- A step inside a scan that is idle. -/
theorem keeps_within {busy : Option Bytes} {α : Type} {p : WatchM α}
    (hp : ∀ {A : Assertion Watcher PyError}, Lasting A → Keeps w A p) :
    Keeps w ((scheme w o busy).within st) p :=
  Scheme.keeps_within fun x => hp (scheme_lasting o busy (x :: st))

theorem scanFile_inspects {busy : Option Bytes} (path : Path) (stat : Stat) {s : Watcher}
    (hs : ((scheme w o busy).within st).inside s) :
    wp w (scanFile path stat) (((scheme w o busy).within st).postWith fun r s' =>
      Inspected w o busy st (w.host.snapshotPathKey path) r.1 s') s := by
  have hopen : Keeps w ((scheme w o busy).within st)
      (Prog.update (Watcher.openFile (w.host.snapshotPathKey path))) := by
    rintro s ⟨x, hs⟩
    exact ⟨x, inside_calm hs (Calm.pass s s.ghost.inFilter _ rfl)⟩
  show wp w (snapshotPathKey path >>= _) _ s
  rw [wp_bind, wp_snapshotPathKey, Post.withOk_ok]
  refine Keeps.wp_bind (keeps_within fun h => h.point) hs fun _ s hs => ?_
  refine Keeps.wp_bind hopen hs fun _ s hs => ?_
  refine Keeps.wp_bind (keeps_within fun h => h.call _) hs fun scan s hs => ?_
  obtain ⟨x, hs⟩ := hs
  cases scan with
  | hashed bytesRead finding observations =>
      have hinspect : (scheme w o busy).inside (x :: st)
          (s.inspect (w.host.snapshotPathKey path) .succeeded) :=
        ⟨⟨hs.1.scans, hs.1.walking, hs.1.mode⟩, fun hsound => (hs.2 hsound.tail).inspect_succeeded⟩
      have hgrow := inside_onScan (f := ScanInProgress.hashed bytesRead observations)
        (fun _ hi => hi) hinspect
      refine ⟨_, hgrow.1, fun hsound => ⟨(hgrow.2 hsound).mono (fun _ hk => .inl hk)
        fun _ hk => hk, fun _ _ => ?_⟩⟩
      rintro ⟨i, hi, hf⟩
      have hi : i ∈ ite _ _ _ := hi
      rw [if_pos rfl] at hi
      obtain rfl := Option.mem_some_iff.1 hi
      cases hf
  | failed code message =>
      have hfail := inspect_failed (w.host.snapshotPathKey path) .failed (fun _ h => h) hs
      exact inspected_issue (List.subset_append_left _ _) hfail.1 hfail.2
        (fun _ k hk => .inr ⟨rfl, hk⟩) (fun _ _ h => by cases h) rfl
  | tooLarge =>
      have hfail := inspect_failed (w.host.snapshotPathKey path) .failed (fun _ h => h) hs
      exact inspected_issue (fun _ hi => hi) hfail.1 hfail.2
        (fun _ k hk => .inr ⟨rfl, hk⟩) (fun _ _ h => by cases h) rfl
  | hashedThenFailed bytesRead observations message =>
      have hnone := none_of_sound (w.host.snapshotPathKey path) .hashedThenFailed
        (fun _ _ => rfl) hs.1
      have hfail := inspect_failed (w.host.snapshotPathKey path) .hashedThenFailed
        (fun _ h => by cases h) hs
      have hhashed := standing_onScan hfail.1 (ScanInProgress.hashed bytesRead observations)
      -- Outside of reconciliations the issue of the scan owes the eviction.
      refine inspected_issue (List.subset_append_left _ _) hhashed (P := fun k =>
        k = w.host.snapshotPathKey path) (fun hsound => ?_) (fun hsound k hk => .inl ?_)
        (fun hsound hwalk => ?_) rfl
      · have hmono : Clean o (fun k =>
            owing w.host o (ScanInProgress.hashed bytesRead observations x :: st) k ∨
              k = w.host.snapshotPathKey path)
            (excusing (ScanInProgress.hashed bytesRead observations x :: st) busy) _ :=
          (hfail.2 hsound).mono
            (fun _ hk => hk.imp_left fun ho => ⟨ho.1, ho.2.head fun _ hi => hi⟩)
            fun _ hk => hk.imp_left fun hi => hi.head fun _ hi => hi
        exact ⟨hmono.retried, hmono.previous, hmono.current, hmono.visited⟩
      · exact ⟨hnone hsound, _, List.mem_cons_self, _,
          List.mem_append_right _ List.mem_cons_self, hk.symm⟩
      · rw [hnone hsound] at hwalk
        cases hwalk
  | escaped error =>
      have hnone := none_of_sound (w.host.snapshotPathKey path) .escaped (fun _ _ => rfl) hs.1
      have hfail := inspect_failed (w.host.snapshotPathKey path) .escaped (fun _ h => by cases h) hs
      show wp w (noteEscape _ error >>= _) _ s
      rw [wp_bind]
      refine (wp_ite _ _ _ _).2 ⟨fun he => ?_, fun he => ?_⟩
      · show ite _ _ _
        rw [if_pos he]
        refine ⟨x, fun hsound => (hfail.2 hsound).retried, fun _ => hfail.1, fun hwalk hsound => ?_⟩
        rw [hnone hsound] at hwalk
        cases hwalk
      · show ite _ _ _
        rw [if_neg he]
        exact nothingForgotten_of_inside hs

/-- A file that was not hashed leaves the snapshot. -/
theorem evictUnhashed_keeps {busy : Option Bytes} {path : Path} {hashed : Bool} {s : Watcher}
    {Q : Post Watcher PyError Unit}
    (hs : Inspected w o busy st (w.host.snapshotPathKey path) hashed s)
    (hok : ∀ s', (∃ x, (scheme w o busy).inside (x :: st) s') → (Sound s'.ghost.log →
      o.isSome = true → hashed = true →
        ¬ Failing s'.ghost.lastAttempt (w.host.snapshotPathKey path)) → Q.ok () s') :
    wp w (evictUnhashed path hashed) Q s := by
  obtain ⟨x, hstanding, hclean⟩ := hs
  cases hashed with
  | true =>
      refine hok s ⟨x, hstanding, fun hsound => ?_⟩ fun hsound => (hclean hsound).2
      exact (hclean hsound).1.mono (fun k hk => hk.resolve_right fun h => by cases h.1)
        fun _ hk => hk
  | false =>
      refine hok _ ⟨x, ⟨hstanding.scans, hstanding.walking, hstanding.mode⟩, fun hsound => ?_⟩
        fun _ _ h => by cases h
      exact (hclean hsound).1.evict fun k hk => hk.symm.imp_left fun h => h.2

/-- A file is inspected by a scan without callbacks. -/
theorem inspectFile_keeps (o : Option Bool) (busy : Option Bytes) (st : List ScanInProgress)
    (path : Path) (stat : Stat) :
    Keeps w ((scheme w o busy).within st) (inspectFile (recordInspection none) path stat) := by
  intro s hs
  refine (scanFile_inspects path stat hs).bind (fun r s hs => ?_) (fun _ _ hr => hr)
    fun _ hc => hc
  rw [wp_bind]
  unfold applyObserver
  rw [wp_tryExcept]
  show wp w (evictUnhashed path r.1 >>= fun _ => pure ()) _ s
  rw [wp_bind]
  refine evictUnhashed_keeps hs fun s' hs' _ => ?_
  exact keepFinding_keeps o busy st r.2 s' hs'

theorem scanRules (o : Option Bool) (busy : Option Bytes) : ScanRules w (scheme w o busy) where
  stack hs := hs.1.scans
  failed hs := thrown_of_inside hs fun _ hk => hk.1
  cut hs := nothingForgotten_of_inside hs
  point st := (scheme_lasting o busy st).point
  count st := (scheme_lasting o busy st).count
  evict st := (scheme_lasting o busy st).evict
  superseded st e _ := (scheme_lasting o busy st).emit e
  healthIssue st code message _ := (scheme_lasting o busy st).healthIssue code message
  scanPending st key submitted := Keeps.update fun s hs =>
    inside_calm hs (Calm.pass s s.ghost.inFilter s.ghost.passOpened rfl)
  openScan {st s} startedAt paths hs := by
    refine ⟨⟨congrArg (_ :: ·) hs.1.scans, hs.1.walking, hs.1.mode⟩, fun hsound => ?_⟩
    have hclean : Clean o (owing w.host o (ScanInProgress.start startedAt paths :: st))
        (excusing (ScanInProgress.start startedAt paths :: st) busy) s := (hs.2 hsound).mono
      (fun _ hk => ⟨hk.1, hk.2.cons⟩) fun _ hk => hk.imp_left Issued.cons
    exact ⟨hclean.retried, hclean.previous, hclean.current, hclean.visited⟩
  issue := issue_keeps o busy
  countScan st f _ := countScan_keeps o busy st f
  gap st f _ := gap_keeps o busy st f
  inspect := inspectFile_keeps o busy
  closeFailed {st x s} hs := by
    refine ⟨hs.nothingForgotten, fun hwalk => ?_, fun hwalk hsound => ?_⟩
    · have hstanding := hs.standing hwalk
      exact ⟨congrArg List.tail hstanding.scans, hstanding.walking, hstanding.mode⟩
    · have hclean := hs.clean hwalk hsound
      exact ⟨hclean.retried, hclean.previous, hclean.current, hclean.visited⟩
  closeCut hs := hs

/-! ## Settling a scan -/

/-- A scan is left: the assertion over the others holds of the state without it. -/
theorem leaving_of_snapshots {x : ScanInProgress} {busy : Option Bytes} {α : Type}
    {owed excused : Bytes → Prop}
    (howed : ∀ key, owed key → owing w.host o st key)
    (hexcused : ∀ key, excused key → o = none ∨ excusing st busy key) {p : WatchM α} {s : Watcher}
    (hp : wp w p (snapshots o (x :: st) owed excused).post s) :
    wp w p ((scheme w o busy).leaving st).post s := by
  have hclose : ∀ s, Standing o (x :: st) s → Standing o st s.closeScan := fun s hs =>
    ⟨congrArg List.tail hs.scans, hs.walking, hs.mode⟩
  refine hp.mono ⟨fun _ s hs => ⟨hclose s hs.1, fun hsound => ?_⟩, fun e s hr => ?_, fun _ hc => hc⟩
  · have hclean := hs.2 hsound
    refine ⟨hclean.retried, fun k hk => (hclean.previous k hk).imp_right (howed k), hclean.current,
      fun hwalk k hk => (hclean.visited hwalk k hk).imp_right (Or.imp_right fun h => ?_)⟩
    obtain rfl | h := hexcused k h
    · cases hwalk
    · exact h
  · have hr : ite _ _ _ := hr
    show ite _ _ _
    split at hr
    · rename_i he
      rw [if_pos he]
      refine ⟨hr.nothingForgotten, fun hwalk => hclose s (hr.standing hwalk), fun hwalk hsound => ?_⟩
      have hclean := hr.clean hwalk hsound
      exact ⟨hclean.retried, hclean.previous, hclean.current, hclean.visited⟩
    · rename_i he
      rw [if_neg he]
      exact hr

/-- A nested scan of a reconciliation owes nothing. -/
theorem settles_nested (m : Bool) (busy : Option Bytes) (y : ScanInProgress)
    (st : List ScanInProgress) : (scheme w (some m) busy).Settles w (y :: st) := by
  intro x s c host completedAt hs
  have hsettle : wp w (settle c (x.result host completedAt)) (snapshots (some m) (x :: y :: st)
      (owing w.host (some m) (x :: y :: st)) (excusing (x :: y :: st) busy)).post s :=
    (scheme_lasting (some m) busy (x :: y :: st)).settle c _ s hs
  exact leaving_of_snapshots (fun _ hk => nomatch hk.1)
    (fun key hk => .inr (hk.imp_left fun h => h.of_cons (List.cons_ne_nil _ _))) hsettle

/-- The issue names the file. -/
def Names (host : Host) (issues : List ScanIssue) (key : Bytes) : Prop :=
  ∃ i ∈ issues, host.snapshotPathKey i.path = key

theorem Names.mono {host : Host} {issues issues' : List ScanIssue} {key : Bytes}
    (h : Names host issues key) (hsub : issues ⊆ issues') : Names host issues' key := by
  obtain ⟨i, hi, hkey⟩ := h
  exact ⟨i, hsub hi, hkey⟩

/-- Outside of reconciliations: the issues still to be sorted out or recorded. -/
def outstanding (w : World) (st : List ScanInProgress) (x : ScanInProgress)
    (issues : List ScanIssue) : Assertion Watcher PyError :=
  snapshots none (x :: st) (fun key => Names w.host issues key ∨ owing w.host none st key)
    fun _ => True

theorem outstanding_lasting (st : List ScanInProgress) (x : ScanInProgress)
    (issues : List ScanIssue) : Lasting (outstanding w st x issues) :=
  lasting none _ _ fun _ _ => rfl

theorem outstanding_mono {x : ScanInProgress} {issues issues' : List ScanIssue}
    (hsub : issues ⊆ issues') (hs : (outstanding w st x issues).inside s) :
    (outstanding w st x issues').inside s :=
  inside_mono hs (fun _ hk => hk.imp_left fun h => h.mono hsub) fun _ hk => hk

/-- The file of an issue is evicted. -/
theorem outstanding_evict {x : ScanInProgress} {i : ScanIssue} {issues rest : List ScanIssue}
    (hrest : ∀ j ∈ issues, j = i ∨ j ∈ rest) (hs : (outstanding w st x issues).inside s) :
    (outstanding w st x rest).inside
      { s with
        reconciliationSnapshot :=
          s.reconciliationSnapshot.pop (w.host.snapshotPathKey i.path) } := by
  refine ⟨⟨hs.1.scans, hs.1.walking, hs.1.mode⟩, fun hsound => (hs.2 hsound).evict ?_⟩
  rintro k (⟨j, hj, hkey⟩ | hk)
  · obtain rfl | hmem := hrest j hj
    · exact .inl hkey.symm
    · exact .inr (.inl ⟨j, hmem, hkey⟩)
  · exact .inr (.inr hk)

/-- An issue is sorted out with an eviction, or retained. -/
theorem sortIssue_outstanding {x : ScanInProgress} {rest : List ScanIssue}
    (allowVanishedRoot : Bool) (acc : SortedIssues) (i : ScanIssue) {s : Watcher}
    (hs : (outstanding w st x (acc.retained ++ i :: rest)).inside s) :
    wp w (sortIssue allowVanishedRoot acc i)
      ((outstanding w st x []).postWith fun acc' s' =>
        (outstanding w st x (acc'.retained ++ rest)).inside s' ∧
          acc'.retained ⊆ acc.retained ++ [i]) s := by
  refine (((outstanding_lasting st x _).isVanished allowVanishedRoot i) s hs).bind
    (fun vanished s hs => ?_) (fun _ _ hr => hr) fun _ hc => hc
  refine (wp_ite _ _ _ _).2 ⟨fun _ => ?_, fun _ => ?_⟩
  · refine ⟨outstanding_evict (fun j hj => ?_) hs, List.subset_append_left _ _⟩
    obtain hj | hj := List.mem_append.1 hj
    · exact .inr (List.mem_append_left _ hj)
    · exact (List.mem_cons.1 hj).imp_right (List.mem_append_right _)
  · refine ⟨?_, fun _ hj => hj⟩
    show (outstanding w st x ((acc.retained ++ [i]) ++ rest)).inside s
    rw [List.append_assoc]
    exact hs

/-- The issues of a scan evict their files. -/
theorem settleIssues_evicts {x : ScanInProgress} (c : ScanCall) (result : ScanResult)
    {s : Watcher} (hs : (outstanding w st x result.issues).inside s) :
    wp w (settleIssues c result) (outstanding w st x []).post s := by
  have hloop : wp w (Prog.foldEach (sortIssue c.allowVanishedRoot) {} result.issues)
      ((outstanding w st x []).postWith fun acc s' =>
        (outstanding w st x acc.retained).inside s' ∧ acc.retained ⊆ result.issues) s := by
    refine wp_foldEach (fun acc rest s => (outstanding w st x (acc.retained ++ rest)).inside s ∧
      acc.retained ++ rest ⊆ result.issues) ?_ ?_ _ _ _ ⟨hs, fun _ hi => hi⟩
    · rintro acc i rest s ⟨hs, hsub⟩
      refine (sortIssue_outstanding c.allowVanishedRoot acc i hs).mono
        ⟨fun acc' s' hq => ⟨hq.1, ?_⟩, fun _ _ hr => hr, fun _ hc => hc⟩
      intro j hj
      obtain hj | hj := List.mem_append.1 hj
      · obtain hj | hj := List.mem_append.1 (hq.2 hj)
        · exact hsub (List.mem_append_left _ hj)
        · exact hsub (List.mem_append_right _ (List.mem_singleton.1 hj ▸ List.mem_cons_self))
      · exact hsub (List.mem_append_right _ (List.mem_cons_of_mem _ hj))
    · rintro acc s ⟨hs, hsub⟩
      rw [List.append_nil] at hs hsub
      exact ⟨hs, hsub⟩
  have hrecord : ∀ (r : ScanResult) (s : Watcher), (outstanding w st x r.issues).inside s →
      wp w (recordScanIssues r) (outstanding w st x []).post s := by
    intro r s hs
    have hlasting := outstanding_lasting (w := w) st x r.issues
    refine (hlasting.update (f := Watcher.countIssues r.issues) (fun _ => {}) s hs).bind
      (fun _ s hs => ?_) (fun _ _ hr => hr) fun _ hc => hc
    refine (wp_ite _ _ _ _).2 ⟨fun _ => ?_, fun hnone => ?_⟩
    · refine (hlasting.update (f := Watcher.retainIssues)
        (fun _ => { log := (IdleLog.refl _).cons rfl }) s hs).bind
        (fun _ s hs => ?_) (fun _ _ hr => hr) fun _ hc => hc
      refine wp_forEach (fun rest s => (outstanding w st x rest).inside s) ?_ (fun _ hs => hs) _ _ hs
      intro i rest s hs
      exact outstanding_evict (fun j hj => List.mem_cons.1 hj) hs
    · rw [not_not.1 hnone] at hs
      exact hs
  have hlasting := outstanding_lasting (w := w) st x
  have hsort : wp w (sortOutVanished c.triggers c.allowVanishedRoot result)
      ((outstanding w st x []).postWith fun r s' => (outstanding w st x r.issues).inside s') s := by
    refine hloop.bind (fun acc s hs => ?_) (fun _ _ hr => hr) fun _ hc => hc
    refine (((hlasting acc.retained).count _) s hs.1).bind (fun _ s hs' => ?_) (fun _ _ hr => hr)
      fun _ hc => hc
    refine (((hlasting acc.retained).reportVanished c.triggers acc) s hs').bind
      (fun _ s hs' => ?_) (fun _ _ hr => hr) fun _ hc => hc
    show (outstanding w st x (ScanResult.retain acc.retained result).issues).inside s
    unfold ScanResult.retain
    split
    · exact hs'
    · exact outstanding_mono hs.2 hs'
  refine hsort.bind (fun r s hs => ?_) (fun _ _ hr => hr) fun _ hc => hc
  refine (((hlasting r.issues).count _) s hs).bind (fun _ s hs => ?_) (fun _ _ hr => hr)
    fun _ hc => hc
  refine (hrecord r s hs).bind (fun _ s hs => ?_) (fun _ _ hr => hr) fun _ hc => hc
  refine ((hlasting []).reportCoverageGap r s hs).bind (fun _ s hs => hs) (fun _ _ hr => hr)
    fun _ hc => hc

/-- Outside of reconciliations a scan evicts what it owes. -/
theorem settles_outside (busy : Option Bytes) (st : List ScanInProgress) :
    (scheme w none busy).Settles w st := by
  intro x s c host completedAt hs
  have hnothing : ∀ key, Names w.host [] key ∨ owing w.host none st key →
      owing w.host none st key := by
    rintro key (⟨i, hi, -⟩ | hk)
    · cases hi
    · exact hk
  have hsettle : wp w (settle c (x.result host completedAt)) (outstanding w st x []).post s := by
    have hout : (outstanding w st x (x.result host completedAt).issues).inside s := by
      refine inside_mono hs (fun key hk => ?_) fun _ _ => trivial
      obtain ⟨-, y, hy, i, hi, hkey⟩ := hk
      cases hy with
      | head =>
          have hmem : i ∈ (x.result host completedAt).issues :=
            (List.perm_insertionSort _ x.issues).mem_iff.2 hi
          exact .inl ⟨i, hmem, hkey⟩
      | tail _ hmem => exact .inr ⟨rfl, y, hmem, i, hi, hkey⟩
    refine (settleIssues_evicts c _ hout).bind (fun r s hs => ?_) (fun _ _ hr => hr) fun _ hc => hc
    exact (outstanding_lasting st x []).reportScan c r s hs
  exact leaving_of_snapshots hnothing (fun _ _ => .inl rfl) hsettle

/-! ## Drains -/

theorem due_keeps (o : Option Bool) (busy : Option Bytes) (st : List ScanInProgress)
    (maximum : Option Nat) : Keeps w ((scheme w o busy).on st) (due maximum) := by
  have hlasting := scheme_lasting (w := w) o busy st
  refine Keeps.ite (fun _ => hlasting.throw _) fun _ => Keeps.bind hlasting.ingest fun _ => ?_
  refine Keeps.bind (hlasting.call _) fun now => Keeps.bind (Keeps.ask _) fun host => ?_
  refine Keeps.bind (Keeps.gets _) fun paths => ?_
  refine Keeps.bind (Keeps.update fun s hs => ?_) fun _ => Keeps.pure paths
  exact inside_calm hs (Calm.drained host now maximum s paths)

theorem drainPriorityEvents_keeps (m : Bool) (busy : Option Bytes) (key : Bytes) :
    Keeps w ((scheme w (some m) busy).within []) (drainPriorityEvents key) := by
  refine Scheme.keeps_within fun x => ?_
  refine (scheme_lasting (some m) busy [x]).drainPriorityEvents key
    (Q := fun _ => (scheme w (some m) busy).inside [x]) (due_keeps _ _ _ _) fun paths => ?_
  have hone : ∀ p, Keeps w ((scheme w (some m) busy).on [x]) (drainOne key p) := by
    intro p
    refine Keeps.bind (Keeps.ask _) fun k => Keeps.ite (fun _ => ?_) fun _ => ?_
    · exact (scanRules (some m) busy).scanPendingPath (settles_nested m busy x []) p
    · exact Keeps.update fun s hs =>
        inside_calm hs (Calm.pass s s.ghost.inFilter s.ghost.passOpened rfl)
  exact Keeps.forEach hone paths

/-- The main loop scans the due events. -/
theorem drainDue_keeps : Keeps w ((scheme w none none).on []) drainDue := by
  refine Keeps.bind (Keeps.update fun s hs => inside_calm hs (Calm.pass s false [] rfl)) fun _ => ?_
  refine Keeps.bind (due_keeps none none [] none) fun paths => ?_
  refine Keeps.bind (Keeps.forEach
    ((scanRules none none).scanPendingPath (settles_outside none [])) paths) fun _ => ?_
  exact Keeps.update fun s hs =>
    inside_calm hs (Calm.pass s s.ghost.inFilter s.ghost.passOpened rfl)

/-! ## Callbacks -/

/-- The walk leaves a file. -/
theorem endVisit_keeps (m : Bool) :
    Keeps w ((scheme w (some m) none).within []) (Prog.update Watcher.endVisit) := by
  rintro s ⟨x, hs⟩
  exact ⟨x, inside_calm hs (Calm.pass s s.ghost.inFilter s.ghost.passOpened rfl)⟩

/-- The walk records the file it visits, and says so. -/
theorem inside_setCurrent {m : Bool} {x : ScanInProgress} {key : Bytes} {moment : Moment}
    (fingerprint : Fingerprint) (hs : (scheme w (some m) (some key)).inside [x] s)
    (hretries : ¬ Failing s.ghost.lastAttempt key → moment.Retries)
    (hkey : Sound s.ghost.log → moment.lapse = false → ¬ Failing s.ghost.lastAttempt key) :
    (scheme w (some m) none).inside [x] ((s.setCurrent key fingerprint).log moment) := by
  refine ⟨⟨hs.1.scans, hs.1.walking, hs.1.mode⟩, fun hsound => ?_⟩
  have hnot := hkey hsound.tail (hsound _ List.mem_cons_self)
  have hexcused : ∀ k, excusing [x] (some key) k → excusing [x] none k ∨ k = key := by
    rintro k (hissued | hbusy)
    · exact .inl (.inl hissued)
    · exact .inr (Option.mem_some_iff.1 hbusy).symm
  have hset := ((hs.2 hsound.tail).mono (fun _ hk => hk) hexcused).setCurrent fingerprint hnot
  exact ⟨hset.retried.cons (hretries hnot), hset.previous, hset.current, hset.visited⟩

/-- The file filter.  A file that is to be inspected is still being visited. -/
def Filtered (w : World) (m : Bool) (key : Bytes) : Bool → Watcher → Prop
  | true, s => m = false ∧ ((scheme w (some m) (some key)).within []).inside s
  | false, s => ((scheme w (some m) none).within []).inside s

theorem filterUnrepresentable_keeps (m : Bool) (key : Bytes) (e : PyError) {s : Watcher}
    (hs : ((scheme w (some m) (some key)).within []).inside s) :
    wp w (filterUnrepresentable key e)
      (((scheme w (some m) none).within []).postWith (Filtered w m key)) s := by
  show wp w (Prog.gets Watcher.reconciliation >>= _) _ s
  rw [wp_bind, wp_gets, Post.withOk_ok]
  refine (wp_ite _ _ _ _).2 ⟨fun _ => ?_, fun hmode => ?_⟩
  · have hraise : Keeps w ((scheme w (some m) (some key)).within [])
        (Prog.raise e : WatchM Bool) := keeps_within fun h => h.throw e
    exact hraise s hs
  · have hm : m = false := by
      obtain ⟨x, hs⟩ := hs
      rw [hs.1.mode m rfl] at hmode
      exact Bool.eq_false_iff.2 hmode
    refine Keeps.wp_bind (A := (scheme w (some m) (some key)).within [])
      (keeps_within fun h => h.emitProgressHeartbeat) hs fun _ s hs => ?_
    refine Keeps.wp_bind (drainPriorityEvents_keeps m (some key) key) hs fun _ s hs => ?_
    exact ⟨hm, hs⟩

theorem filterInventory_keeps (m : Bool) (key : Bytes) (fingerprint : Fingerprint) {s : Watcher}
    (hs : ((scheme w (some m) (some key)).within []).inside s) :
    wp w (filterInventory key fingerprint)
      (((scheme w (some m) none).within []).postWith (Filtered w m key)) s := by
  obtain ⟨x, hs⟩ := hs
  have hset : (scheme w (some m) none).inside [x] (s.inventory key fingerprint) := by
    refine inside_setCurrent fingerprint hs (fun _ => trivial) fun _ hlapse => ?_
    rintro ⟨i, hi, hf⟩
    have hlapse : (s.ghost.lastAttempt key).any Inspection.failing = false := hlapse
    rw [Option.mem_def.1 hi] at hlapse
    exact absurd (hlapse.symm.trans hf) Bool.false_ne_true
  show wp w (Prog.update _ >>= _) _ s
  rw [wp_bind, wp_update, Post.withOk_ok]
  refine Keeps.wp_bind (A := (scheme w (some m) none).within [])
    (keeps_within fun h => h.emitProgressHeartbeat) ⟨x, hset⟩ fun _ s hs => ?_
  refine Keeps.wp_bind (drainPriorityEvents_keeps m none key) hs fun _ s hs => ?_
  refine Keeps.wp_bind (endVisit_keeps m) hs fun _ s hs => ?_
  exact hs

theorem filterChanged_keeps {m : Bool} (hm : m = false) (key : Bytes)
    (previousFingerprint : Option Fingerprint) (fingerprint : Fingerprint) {s : Watcher}
    (hs : ((scheme w (some m) (some key)).within []).inside s)
    (hprevious : Sound s.ghost.log → previousFingerprint.isSome = true →
      ¬ Failing s.ghost.lastAttempt key) :
    wp w (filterChanged key previousFingerprint fingerprint)
      (((scheme w (some m) none).within []).postWith (Filtered w m key)) s := by
  show wp w (Prog.gets Watcher.reconciliation >>= _) _ s
  rw [wp_bind, wp_gets, Post.withOk_ok]
  refine (wp_ite _ _ _ _).2 ⟨fun _ => ?_, fun hsame => ?_⟩
  · refine Keeps.wp_bind (A := (scheme w (some m) (some key)).within [])
      (keeps_within fun h => h.emitProgressHeartbeat) hs fun _ s hs => ?_
    exact ⟨hm, hs⟩
  · obtain ⟨x, hs⟩ := hs
    have hsome : previousFingerprint.isSome = true := by
      rw [not_or, not_not] at hsame
      rw [hsame.2]
      rfl
    have hbusy : (scheme w (some m) (some key)).inside [x]
        (s.onReconciliation fun r => { r with unchanged := r.unchanged + 1 }) :=
      inside_calm hs {}
    have hset : (scheme w (some m) none).inside [x] (s.passOver key fingerprint) := by
      refine inside_setCurrent fingerprint hbusy (fun hnot i hi => ?_) fun hsound _ =>
        hprevious hsound hsome
      cases hf : Inspection.failing i with
      | false => rfl
      | true => exact absurd ⟨i, hi, hf⟩ hnot
    rw [wp_bind, wp_update, Post.withOk_ok]
    refine Keeps.wp_bind (A := (scheme w (some m) none).within [])
      (keeps_within fun h => h.emitProgressHeartbeat) ⟨x, hset⟩ fun _ s hs => ?_
    refine Keeps.wp_bind (endVisit_keeps m) hs fun _ s hs => ?_
    exact hs

theorem filter_keeps (m : Bool) (path : Path) (stat : Stat) {s : Watcher}
    (hs : ((scheme w (some m) none).within []).inside s) :
    wp w (changedSinceLastReconciliation path stat)
      (((scheme w (some m) none).within []).postWith
        (Filtered w m (w.host.snapshotPathKey path))) s := by
  obtain ⟨x, hs⟩ := hs
  have hbegin : (scheme w (some m) (some (w.host.snapshotPathKey path))).inside [x]
      (s.beginVisit (w.host.snapshotPathKey path)) := by
    refine ⟨⟨hs.1.scans, hs.1.walking, hs.1.mode⟩, fun hsound => ?_⟩
    refine (hs.2 hsound.tail).beginVisit.mono (fun _ hk => hk) ?_
    rintro k ((hissued | hbusy) | rfl)
    · exact .inl hissued
    · cases hbusy
    · exact .inr rfl
  show wp w (snapshotPathKey path >>= _) _ s
  rw [wp_bind, wp_snapshotPathKey, Post.withOk_ok, wp_bind, wp_update, Post.withOk_ok]
  refine Keeps.wp_bind (A := (scheme w (some m) (some (w.host.snapshotPathKey path))).within [])
    (keeps_within fun h => h.progress fun _ => ⟨rfl, rfl, rfl, rfl⟩) ⟨x, hbegin⟩ fun _ s hs => ?_
  cases fileFingerprint stat with
  | error e => exact filterUnrepresentable_keeps m _ e hs
  | ok fingerprint =>
      obtain ⟨x, hs⟩ := hs
      have hprevious : Sound s.ghost.log →
          (s.reconciliationSnapshot (w.host.snapshotPathKey path)).isSome = true →
          ¬ Failing s.ghost.lastAttempt (w.host.snapshotPathKey path) := by
        intro hsound hsome hfailing
        obtain hnone | howed := (hs.2 hsound).previous _ hfailing
        · rw [hnone] at hsome
          cases hsome
        · cases howed.1
      show wp w (Prog.gets _ >>= _) _ s
      rw [wp_bind, wp_gets, Post.withOk_ok, wp_bind, wp_evict, Post.withOk_ok, wp_bind, wp_gets,
        Post.withOk_ok]
      have hevicted := inside_calm hs (Idle.evict (w.host.snapshotPathKey path) s).calm
      refine (wp_ite _ _ _ _).2 ⟨fun _ => ?_, fun hmode => ?_⟩
      · exact filterInventory_keeps m _ fingerprint ⟨x, hevicted⟩
      · have hm : m = false := by
          have hmode : ¬ s.reconciliation.metadataOnly = true := hmode
          rw [hs.1.mode m rfl] at hmode
          exact Bool.eq_false_iff.2 hmode
        exact filterChanged_keeps hm _ _ fingerprint ⟨x, hevicted⟩ hprevious

theorem recordHashed_keeps {x : ScanInProgress} (key : Bytes) (stat : Stat) (hashed : Bool)
    {s : Watcher} (hs : (scheme w (some false) (some key)).inside [x] s)
    (hkey : Sound s.ghost.log → hashed = true → ¬ Failing s.ghost.lastAttempt key) :
    wp w (recordHashed key stat hashed) ((scheme w (some false) none).within []).post s := by
  refine (wp_ite _ _ _ _).2 ⟨fun hhashed => ?_, fun _ => ?_⟩
  · rw [wp_bind, wp_progress, Post.withOk_ok]
    have hcount : (scheme w (some false) (some key)).inside [x] (s.onReconciliation fun r =>
        { r with
          hashedInProgress := r.hashedInProgress + 1
          bytesHashed := r.bytesHashed + stat.size.toNat }) := inside_calm hs {}
    cases fileFingerprint stat with
    | error e =>
        have hraise : Keeps w ((scheme w (some false) (some key)).within [])
            (Prog.raise e : WatchM Unit) := keeps_within fun h => h.throw e
        exact hraise _ ⟨x, hcount⟩
    | ok fingerprint =>
        refine ⟨x, ⟨hcount.1.scans, hcount.1.walking, hcount.1.mode⟩, fun hsound => ?_⟩
        have hexcused : ∀ k, excusing [x] (some key) k → excusing [x] none k ∨ k = key := by
          rintro k (hissued | hbusy)
          · exact .inl (.inl hissued)
          · exact .inr (Option.mem_some_iff.1 hbusy).symm
        exact ((hcount.2 hsound).mono (fun _ hk => hk) hexcused).setCurrent fingerprint
          (hkey hsound hhashed)
  · -- A file that was not hashed is unresolved, so its visit is accounted for.
    refine ⟨x, ⟨hs.1.scans, hs.1.walking, hs.1.mode⟩, fun hsound => ?_⟩
    have hclean := hs.2 hsound
    refine ⟨hclean.retried, hclean.previous, hclean.current, fun hwalk k hk => ?_⟩
    show _ ∨ k ∈ ite _ _ _ ∨ _
    have hmem : ∀ k, k = key ∨ k ∈ s.reconciliation.unresolved → k ∈ (if key ∈
        s.reconciliation.unresolved then s.reconciliation.unresolved
        else key :: s.reconciliation.unresolved) := by
      rintro k (rfl | hk)
      · split
        · assumption
        · exact List.mem_cons_self
      · split
        · exact hk
        · exact List.mem_cons_of_mem _ hk
    obtain hcurrent | hunresolved | hissued | hbusy := hclean.visited hwalk k hk
    · exact .inl hcurrent
    · exact .inr (.inl (hmem k (.inr hunresolved)))
    · exact .inr (.inr (.inl hissued))
    · exact .inr (.inl (hmem k (.inl (Option.mem_some_iff.1 hbusy).symm)))

/-- The file observer. -/
theorem observer_keeps {x : ScanInProgress} (path : Path) (stat : Stat) (hashed : Bool)
    {s : Watcher}
    (hs : (scheme w (some false) (some (w.host.snapshotPathKey path))).inside [x] s)
    (hkey : Sound s.ghost.log → hashed = true →
      ¬ Failing s.ghost.lastAttempt (w.host.snapshotPathKey path)) :
    wp w (recordSuccessfulHash path stat hashed)
      ((scheme w (some false) none).within []).post s := by
  show wp w (snapshotPathKey path >>= _) _ s
  rw [wp_bind, wp_snapshotPathKey, Post.withOk_ok, wp_bind, wp_update, Post.withOk_ok]
  have hfilter : (scheme w (some false) (some (w.host.snapshotPathKey path))).inside [x]
      { s with ghost := { s.ghost with inFilter := false } } := inside_calm hs {}
  refine (recordHashed_keeps _ stat hashed hfilter hkey).bind (fun _ s hs => ?_)
    (fun _ _ hr => hr) fun _ hc => hc
  have hrest : Keeps w ((scheme w (some false) none).within []) (do
      emitProgressHeartbeat
      drainPriorityEvents (w.host.snapshotPathKey path)
      Prog.update Watcher.endVisit) :=
    Keeps.bind (keeps_within fun h => h.emitProgressHeartbeat) fun _ =>
      Keeps.bind (drainPriorityEvents_keeps false none _) fun _ => endVisit_keeps false
  exact hrest s hs

/-- A wanted file is inspected, and the observer told. -/
theorem inspectWanted_keeps (path : Path) (stat : Stat) {s : Watcher}
    (hs : ((scheme w (some false) (some (w.host.snapshotPathKey path))).within []).inside s) :
    wp w (inspectFile (recordInspection (some recordSuccessfulHash)) path stat)
      ((scheme w (some false) none).within []).post s := by
  refine (scanFile_inspects path stat hs).bind (fun r s hs => ?_) (fun _ _ hr => hr)
    fun _ hc => hc
  rw [wp_bind]
  unfold applyObserver
  rw [wp_tryExcept]
  show wp w (evictUnhashed path r.1 >>= fun _ => recordSuccessfulHash path stat r.1) _ s
  rw [wp_bind]
  refine evictUnhashed_keeps hs fun s' hs' hkey => ?_
  obtain ⟨x, hs'⟩ := hs'
  refine (observer_keeps path stat r.1 hs' fun hsound => hkey hsound rfl).mono
    ⟨fun _ s hs => ?_, fun e s hr => ⟨fun he => ?_, fun _ => hr⟩, fun _ hc => hc⟩
  · exact keepFinding_keeps (some false) none [] r.2 s hs
  · have hr : ite _ _ _ := hr
    rw [if_pos he] at hr
    obtain ⟨y, hr⟩ := hr
    exact (swallow_keeps none path .fileObserverFailed e rfl hr rfl).mono
      ⟨fun _ s hs => keepFinding_keeps (some false) none [] r.2 s hs, fun _ _ hr => hr,
        fun _ hc => hc⟩

/-- A file of the walk is visited. -/
theorem visit_keeps (m : Bool) (path : Path) (stat : Stat) :
    Keeps w ((scheme w (some m) none).within []) (visitFile (some changedSinceLastReconciliation)
      (recordInspection (if m then none else some recordSuccessfulHash)) path stat) := by
  intro s hs
  have hfilter : wp w (applyFilter (some changedSinceLastReconciliation) path stat)
      (((scheme w (some m) none).within []).postWith
        (Filtered w m (w.host.snapshotPathKey path))) s := by
    unfold applyFilter
    simp only
    rw [wp_tryExcept]
    refine (filter_keeps m path stat hs).mono
      ⟨fun _ _ hq => hq, fun e s hr => ⟨fun he => ?_, fun _ => hr⟩, fun _ hc => hc⟩
    have hr : ite _ _ _ := hr
    rw [if_pos he] at hr
    obtain ⟨x, hr⟩ := hr
    refine (swallow_keeps none path .fileFilterFailed e rfl hr rfl).bind (fun _ s hs => ?_) (fun _ _ hr => hr)
      fun _ hc => hc
    exact hs
  refine hfilter.bind (fun wanted s hs => ?_) (fun _ _ hr => hr) fun _ hc => hc
  cases wanted with
  | true =>
      obtain ⟨rfl, hs⟩ := hs
      exact inspectWanted_keeps path stat hs
  | false =>
      exact hs

/-! ## Reconciliations -/

/-- What holds once the scan of a reconciliation is settled. -/
def Settled (m : Bool) (result : ScanResult) (s : Watcher) : Prop :=
  Standing (some m) [] s ∧ (Sound s.ghost.log →
    Clean (some m) (fun _ => False) (fun _ => result.issues ≠ []) s)

theorem settle_keeps {m : Bool} {x : ScanInProgress} {s : Watcher} (c : ScanCall) (host : Host)
    (completedAt : Str) (hs : (scheme w (some m) none).inside [x] s) :
    wp w (settle c (x.result host completedAt)) (((scheme w (some m) none).leaving []).postWith
      fun r s' => Settled m r s'.closeScan) s := by
  have hkeeps := (scheme_lasting (w := w) (some m) none [x]).settle (w := w) c
    (x.result host completedAt) s hs
  refine (wp.and hkeeps (settle_retains c (x.result host completedAt) s)).mono
    ⟨?_, fun e s hr => ?_, fun _ hc => hc.1⟩
  · rintro r s ⟨hs, hretains⟩
    refine ⟨⟨congrArg List.tail hs.1.scans, hs.1.walking, hs.1.mode⟩, fun hsound => ?_⟩
    have hclean : Clean (some m) (fun _ => False) (fun _ => r.issues ≠ []) s := by
      refine (hs.2 hsound).mono (fun _ hk => nomatch hk.1) ?_
      rintro key (⟨y, hy, i, hi, hv⟩ | hbusy)
      · obtain rfl := Option.mem_some_iff.1 hy
        have hmem : i ∈ (x.result host completedAt).issues :=
          (List.perm_insertionSort _ x.issues).mem_iff.2 hi
        exact List.ne_nil_of_mem (hretains.issues i hmem hv)
      · cases hbusy
    exact ⟨hclean.retried, hclean.previous, hclean.current, hclean.visited⟩
  · have hr : ite _ _ _ := hr.1
    show ite _ _ _
    split at hr
    · rename_i he
      rw [if_pos he]
      exact (scanRules (w := w) (some m) none).closeFailed hr
    · rename_i he
      rw [if_neg he]
      exact hr

theorem openReconciliation_keeps (trigger : Trigger) (full m : Bool) {s : Watcher}
    (hs : (scheme w none none).inside [] s) :
    wp w (openReconciliation trigger full m)
      (((scheme w none none).on []).postWith fun _ => (scheme w (some m) none).inside []) s := by
  have hbefore := scheme_lasting (w := w) none none []
  have hduring := scheme_lasting (w := w) (some m) none []
  refine Keeps.wp_bind (hbefore.count _) hs fun _ s hs => ?_
  refine Keeps.wp_bind (hbefore.call _) hs fun started s hs => ?_
  rw [wp_bind, wp_update]
  have hbegin : (scheme w (some m) none).inside []
      (s.beginReconcile trigger full m started) := by
    refine ⟨⟨hs.1.scans, rfl, fun m' hm' => Option.mem_some_iff.1 hm'⟩, fun hsound => ?_⟩
    have hclean := hs.2 hsound.tail
    refine ⟨hclean.retried.cons trivial, fun key hk => ?_, fun _ _ _ => rfl, fun _ key hk => ?_⟩
    · refine (hclean.previous key hk).imp_right fun howed => ?_
      obtain ⟨-, y, hy, -⟩ := howed
      cases hy
    · cases hk
  have hrest : Keeps w ((scheme w (some m) none).on []) (do
      let nextHeartbeat ← clock
      let config ← Prog.ask World.config
      progress fun r => { r with nextProgressHeartbeat := nextHeartbeat + config.heartbeatSeconds }
      let nextDrain ← clock
      progress fun r => { r with nextPriorityDrain := nextDrain }) := by
    refine Keeps.bind (hduring.call _) fun _ => Keeps.bind (Keeps.ask _) fun _ => ?_
    refine Keeps.bind (hduring.progress fun _ => ⟨rfl, rfl, rfl, rfl⟩) fun _ => ?_
    exact Keeps.bind (hduring.call _) fun _ => hduring.progress fun _ => ⟨rfl, rfl, rfl, rfl⟩
  refine (hrest _ hbegin).mono ⟨fun _ _ hq => hq, fun e s hr => ?_, fun _ hc => hc⟩
  have hr : ite _ _ _ := hr
  show ite _ _ _
  split at hr
  · rename_i he
    rw [if_pos he]
    exact ⟨hr.nothingForgotten, nofun, nofun⟩
  · rename_i he
    rw [if_neg he]
    exact hr

theorem closeReconciliation_keeps {m : Bool} {result : ScanResult} {s : Watcher}
    (hs : Settled m result s) :
    wp w (closeReconciliation result) ((scheme w none none).on []).post s := by
  have hlasting := scheme_lasting (w := w) none none []
  have hend : (scheme w none none).inside [] s.endReconcile := by
    refine ⟨⟨hs.1.scans, rfl, nofun⟩, fun hsound => ?_⟩
    have hclean := hs.2 hsound.tail
    exact ⟨hclean.retried.cons (hclean.current rfl), fun key hk => .inl (hclean.current rfl key hk),
      nofun, nofun⟩
  show wp w (Prog.update _ >>= _) _ s
  rw [wp_bind, wp_update, Post.withOk_ok, wp_bind, wp_gets, Post.withOk_ok]
  refine (wp_ite _ _ _ _).2 ⟨fun hmay => ?_, fun _ => hend⟩
  have hrecover : (scheme w none none).inside [] s.endReconcile.recover := by
    refine ⟨⟨hs.1.scans, rfl, nofun⟩, fun hsound => ?_⟩
    have hclean := hend.2 hsound.tail
    refine ⟨hclean.retried.cons fun key hk hfailing => ?_, hclean.previous, nofun, nofun⟩
    simp only [Watcher.mayRecover, Bool.and_eq_true, decide_eq_true_eq] at hmay
    obtain ⟨⟨⟨⟨⟨⟨⟨⟨⟨-, hissues⟩, -⟩, -⟩, hunresolved⟩, -⟩, -⟩, -⟩, -⟩, -⟩ := hmay
    have hwalk := hs.2 hsound.tail.tail
    obtain hcurrent | hmem | hne := hwalk.visited rfl key hk
    · rw [hwalk.current rfl key hfailing] at hcurrent
      cases hcurrent
    · have hnil : s.reconciliation.unresolved = [] := List.isEmpty_iff.1 hunresolved
      rw [hnil] at hmem
      cases hmem
    · exact hne (List.isEmpty_iff.1 hissues)
  have hrest : Keeps w ((scheme w none none).on []) (do
      let stats ← statsSnapshot
      emitHeartbeat false true none stats none) :=
    Keeps.bind hlasting.statsSnapshot fun stats => hlasting.emitHeartbeat _ _ _ _ _
  exact hrest _ hrecover

/-! ## Sessions -/

/-- The assertion at the end of a session. -/
abbrev ended : Assertion Watcher PyError := Assertion.always NothingForgotten

theorem ended_lasting : Lasting ended where
  idle {s s'} hidle hs hsound := by
    have hcalm := hidle.calm
    obtain ⟨entries, hall, heq⟩ := hcalm.log
    have hretried := hs (sound_of_calm hcalm hsound)
    rw [heq]
    intro e he
    obtain he | he := List.mem_append.1 he
    · exact Moment.retries_of_ofSnapshot (hall e he)
    · exact hretried e he
  raise _ hs := hs
  stop hs := hs

theorem runRules : RunRules w ((scheme w none none).on []) (scheme w none none)
    (fun m => scheme w (some m) none) Settled where
  base := scanRules none none
  walk m := scanRules (some m) none
  visit := visit_keeps
  openReconciliation trigger full m hs := openReconciliation_keeps trigger full m hs
  settle c host completedAt hs := settle_keeps c host completedAt hs
  closeReconciliation hq := closeReconciliation_keeps hq
  failed hs := ⟨hs.nothingForgotten, nofun, nofun⟩
  cut hs := hs
  drainDue := drainDue_keeps
  heartbeat _ _ := (scheme_lasting none none []).emitHeartbeat _ _ _ _ _
  pipeline := (scheme_lasting none none []).pipeline
  startIngest hs := inside_calm hs {}
  before := (scheme_lasting none none []).toStartRules
  cut_of_raised {e s} hr := by
    have hr : ite _ _ _ := hr
    split at hr
    · exact hr.nothingForgotten
    · exact hr
  cut_of_halted hc := hc
  fallback _ := (scheme_lasting none none []).emit _
  sessionStarted {s} hs := (scheme_lasting none none []).emitSessionStarted s hs
  cut_of_failed hs := hs.nothingForgotten
  after := ended_lasting.toShutdownRules
  sessionCompleted _ := ended_lasting.emit _

end Retry

/-- In every run without a lapse no failed inspection is forgotten. -/
theorem failed_inspections_retried (w : World) (excluded : List Str) (sink : WatchEvidenceSink)
    (duration : Option ℚ)
    (hsound : Sound (run duration w (Watcher.new excluded w.config sink)).2.ghost.log) :
    Retried (run duration w (Watcher.new excluded w.config sink)).2.ghost.log := by
  refine Retry.runRules.run duration ?_ hsound
  refine ⟨⟨rfl, rfl, nofun⟩, fun _ => ⟨?_, fun _ _ => .inl rfl, nofun, nofun⟩⟩
  intro e he
  cases he with
  | head => trivial
  | tail _ hmem => cases hmem

/-- No reconciliation ends at this moment with the file in its snapshot although its last
inspection failed. -/
def Moment.retriesFile (key : Bytes) : Moment → Bool
  | .reconcileEnded snapshot lastAttempt =>
      !((lastAttempt key).any Inspection.failing && (snapshot key).isSome)
  | _ => true

theorem Moment.Retries.file {m : Moment} (h : m.Retries) (key : Bytes) :
    m.retriesFile key = true := by
  cases m with
  | reconcileEnded snapshot lastAttempt =>
      show (!(_ && _)) = true
      cases hlast : lastAttempt key with
      | none => rfl
      | some i =>
          cases hf : Inspection.failing i with
          | false => simp [hf]
          | true =>
              have hnone := h key ⟨i, hlast, hf⟩
              simp [hnone]
  | _ => rfl

/-- A world in which a file the inventory has recorded changes, and cannot be opened. -/
def World.failingDrain : World :=
  { World.calm with
    walk := fun _ paths =>
      if paths = [str "/r"] then
        [.file (str "/r/a") Stat.regular, .file (str "/r/b") Stat.regular]
      else paths.map fun path => .file path Stat.regular
    clock := fun tick => tick
    scanFile := fun _ _ _ => .failed .fileOpenFailed (str "permission denied")
    threads := fun tick =>
      if tick = 16 then [.submit 0 (str "/r/a") .closedAfterWrite false] else [] }

/-- In its session the file is not retried. -/
instance failingDrain_forgets : Fact (¬ ∀ e ∈ (run (some 1) World.failingDrain
    (Watcher.new [] World.failingDrain.config
      { healthFile := false, eventLog := false })).2.ghost.log,
    e.moment.retriesFile (World.failingDrain.host.snapshotPathKey (str "/r/a")) = true) :=
  ⟨by decide +kernel⟩

/-- The drain inside the inventory fails to inspect a file that stays in the snapshot. -/
theorem failed_inspection_forgotten :
    ¬ ∀ (w : World) (excluded : List Str) (sink : WatchEvidenceSink) (duration : Option ℚ),
      Retried (run duration w (Watcher.new excluded w.config sink)).2.ghost.log := by
  intro h
  refine failingDrain_forgets.out fun e he => ?_
  exact (h World.failingDrain [] { healthFile := false, eventLog := false } (some 1) e he).file _

/-- The session in which a changed file cannot be opened has no lapse. -/
instance failingOpen_sound : Fact (Sound (run none World.failingOpen
    (Watcher.new [] World.failingOpen.config
      { healthFile := false, eventLog := false })).2.ghost.log) :=
  ⟨by decide +kernel⟩

/-- A run in which a changed file cannot be opened after the inventory. -/
theorem failed_inspections_retried_failingOpen :
    Retried (run none World.failingOpen (Watcher.new [] World.failingOpen.config
      { healthFile := false, eventLog := false })).2.ghost.log :=
  failed_inspections_retried World.failingOpen [] _ none failingOpen_sound.out

end ZsecShield.Watch
