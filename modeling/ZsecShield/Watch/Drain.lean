import ZsecShield.Watch.Retry

/-!
# No drained event is lost

A pass begins when the main loop turns to the due events, or when the walk of a
reconciliation turns to a file, and it ends when that is done.  Every path that `due`
removes in a pass is served in it: `_scan_pending` gets it, or `_scan_file` opens it
after its last event was submitted.  A drain leaves the path alone that the walk is
about to open, or has opened after the event.  Where it leaves one alone without such
a reason the event is `overlooked`, and the theorem is about runs without that.
-/

namespace ZsecShield.Watch

open Text (Str str)
open Effect

variable {w : World}

/-! ## Passes -/

/-- The pass under way, newest entry first. -/
def currentPass : List LogEntry → Option (List LogEntry)
  | [] => none
  | e :: rest =>
      match e.moment with
      | .passBegan => some []
      | .passEnded => none
      | _ => (currentPass rest).map (e :: ·)

/-- The moment serves a path that was drained with its last event submitted at `t`. -/
def Moment.serves (key : Bytes) (t : Nat) : Moment → Bool
  | .scanPending k t' => decide (k = key ∧ t' = t)
  | .opened k u => decide (k = key ∧ t < u)
  | _ => false

/-- A drain leaves a path alone that the walk neither will open nor has opened since. -/
def Moment.overlooked : Moment → Bool
  | .skipped _ _ covered => !covered
  | _ => false

/-- A history in which no path is overlooked. -/
def Attentive (log : List LogEntry) : Prop := ∀ e ∈ log, e.moment.overlooked = false

instance (log : List LogEntry) : Decidable (Attentive log) :=
  inferInstanceAs (Decidable (∀ e ∈ log, e.moment.overlooked = false))

/-- The pass under way has drained the path and not served it yet. -/
def Owes (log : List LogEntry) (key : Bytes) (t : Nat) : Prop :=
  ∃ pass ∈ currentPass log, (∃ e ∈ pass, e.moment = .drained key t) ∧
    ∀ e ∈ pass, e.moment.serves key t = false

/-- Paths are drained in passes only, and a pass that ends has served what it drained. -/
structure NothingLost (log : List LogEntry) : Prop where
  inPass : ∀ later rest key t flag, log = later ++ ⟨.drained key t, flag⟩ :: rest →
    (currentPass rest).isSome = true
  served : ∀ later rest flag, log = later ++ ⟨.passEnded, flag⟩ :: rest →
    ∀ key t, ¬ Owes rest key t

theorem NothingLost.cons {log : List LogEntry} {e : LogEntry} (h : NothingLost log)
    (hdrained : ∀ key t, e.moment = .drained key t → (currentPass log).isSome = true)
    (hended : e.moment = .passEnded → ∀ key t, ¬ Owes log key t) : NothingLost (e :: log) where
  inPass later rest key t flag heq := by
    cases later with
    | nil =>
        obtain ⟨rfl, rfl⟩ := List.cons_eq_cons.1 heq
        exact hdrained key t rfl
    | cons e' later =>
        injection heq with _ hrest
        exact h.inPass later rest key t flag hrest
  served later rest flag heq := by
    cases later with
    | nil =>
        obtain ⟨rfl, rfl⟩ := List.cons_eq_cons.1 heq
        exact hended rfl
    | cons e' later =>
        injection heq with _ hrest
        exact h.served later rest flag hrest

theorem Attentive.tail {log : List LogEntry} {e : LogEntry} (h : Attentive (e :: log)) :
    Attentive log := fun e' he' => h e' (List.mem_cons_of_mem _ he')

/-- The moments that neither begin nor end a pass. -/
def Moment.inner : Moment → Bool
  | .passBegan | .passEnded => false
  | _ => true

theorem currentPass_inner {log : List LogEntry} {e : LogEntry} (he : e.moment.inner = true) :
    currentPass (e :: log) = (currentPass log).map (e :: ·) := by
  cases hm : e.moment with
  | passBegan => rw [hm] at he; cases he
  | passEnded => rw [hm] at he; cases he
  | _ => simp only [currentPass, hm]

/-- What the pass owes after an entry, it owed before or has just drained. -/
theorem owes_inner {log : List LogEntry} {e : LogEntry} (he : e.moment.inner = true)
    {key : Bytes} {t : Nat} (h : Owes (e :: log) key t) :
    (Owes log key t ∨ e.moment = .drained key t) ∧ e.moment.serves key t = false := by
  obtain ⟨pass, hpass, ⟨d, hd, hdrained⟩, hserves⟩ := h
  rw [currentPass_inner he, Option.mem_map] at hpass
  obtain ⟨pass', hpass', rfl⟩ := hpass
  refine ⟨?_, hserves e List.mem_cons_self⟩
  cases hd with
  | head => exact .inr hdrained
  | tail _ hmem =>
      exact .inl ⟨pass', hpass', ⟨d, hmem, hdrained⟩, fun e' he' =>
        hserves e' (List.mem_cons_of_mem _ he')⟩

theorem not_owes_passBegan {log : List LogEntry} {flag : Bool} {key : Bytes} {t : Nat} :
    ¬ Owes (⟨.passBegan, flag⟩ :: log) key t := by
  rintro ⟨pass, hpass, ⟨d, hd, -⟩, -⟩
  obtain rfl := Option.mem_some_iff.1 hpass
  cases hd

theorem not_owes_passEnded {log : List LogEntry} {flag : Bool} {key : Bytes} {t : Nat} :
    ¬ Owes (⟨.passEnded, flag⟩ :: log) key t := by
  rintro ⟨pass, hpass, -⟩
  cases hpass

theorem inner_of_not_ofPass {m : Moment} (h : m.ofPass = false) : m.inner = true := by
  cases m <;> first | rfl | cases h

theorem not_drained_of_not_ofPass {m : Moment} (h : m.ofPass = false) (key : Bytes) (t : Nat) :
    m ≠ .drained key t := by
  rintro rfl
  cases h

/-- Entries that no pass takes notice of lose nothing. -/
theorem NothingLost.append {log entries : List LogEntry} (h : NothingLost log)
    (hall : ∀ e ∈ entries, e.moment.ofPass = false) : NothingLost (entries ++ log) := by
  induction entries with
  | nil => exact h
  | cons e rest ih =>
      have hofPass := hall e List.mem_cons_self
      have hrest := ih fun e' he' => hall e' (List.mem_cons_of_mem _ he')
      refine hrest.cons (fun key t hm => ?_) fun hm => ?_
      · exact absurd hm (not_drained_of_not_ofPass hofPass key t)
      · rw [hm] at hofPass
        cases hofPass

/-- Entries that no pass takes notice of change nothing about the pass under way. -/
theorem owes_append (log : List LogEntry) {entries : List LogEntry}
    (hall : ∀ e ∈ entries, e.moment.ofPass = false) :
    (∀ {key t}, Owes (entries ++ log) key t → Owes log key t) ∧
      currentPass (entries ++ log) = (currentPass log).map (entries ++ ·) := by
  induction entries with
  | nil =>
      refine ⟨id, ?_⟩
      show currentPass log = (currentPass log).map id
      rw [Option.map_id]
      rfl
  | cons e rest ih =>
      obtain ⟨howes, hpass⟩ := ih fun e' he' => hall e' (List.mem_cons_of_mem _ he')
      have hofPass := hall e List.mem_cons_self
      have hinner := inner_of_not_ofPass hofPass
      refine ⟨fun ho => ?_, ?_⟩
      · exact howes ((owes_inner hinner ho).1.resolve_right (not_drained_of_not_ofPass hofPass _ _))
      · show currentPass (e :: (rest ++ log)) = _
        rw [currentPass_inner hinner, hpass, Option.map_map]
        rfl

/-! ## The books -/

/-- A step that no pass takes notice of. -/
structure Unnoticed (s s' : Watcher) : Prop where
  scans : s'.scans = s.scans := by rfl
  inFilter : s'.ghost.inFilter = s.ghost.inFilter := by rfl
  passOpened : s'.ghost.passOpened = s.ghost.passOpened := by rfl
  metadataOnly : s'.reconciliation.metadataOnly = s.reconciliation.metadataOnly := by rfl
  tick : s.tick ≤ s'.tick := by exact le_rfl
  stamped : s.events.StampedBy s.tick → s'.events.StampedBy s'.tick := by exact id
  log : ∃ entries : List LogEntry, (∀ e ∈ entries, e.moment.ofPass = false) ∧
    s'.ghost.log = entries ++ s.ghost.log := by exact ⟨[], by nofun, rfl⟩

theorem Idle.unnoticed {s s' : Watcher} (h : Idle s s') : Unnoticed s s' where
  scans := h.scans
  inFilter := h.inFilter
  passOpened := h.passOpened
  metadataOnly := h.metadataOnly
  tick := h.tick
  stamped := h.stamped
  log := by
    obtain ⟨entries, hall, heq⟩ := h.log
    refine ⟨entries, fun e he => ?_, heq⟩
    have hidle := hall e he
    simp only [Moment.idle, Bool.and_eq_true, Bool.not_eq_true'] at hidle
    exact hidle.1

/-- What the history owes, and what the ghost state knows of the pass. -/
structure Books (debt : Bytes → Nat → Prop) (s : Watcher) : Prop where
  nothingLost : NothingLost s.ghost.log
  owes : ∀ key t, Owes s.ghost.log key t → debt key t ∧ t ≤ s.tick
  opened : ∀ pass ∈ currentPass s.ghost.log, ∀ o ∈ s.ghost.passOpened,
    ∃ e ∈ pass, e.moment = .opened o.1 o.2
  stamped : s.events.StampedBy s.tick

namespace Books

variable {debt debt' : Bytes → Nat → Prop} {s s' : Watcher}

theorem mono (h : Books debt s) (hdebt : ∀ key t, debt key t → debt' key t) : Books debt' s where
  nothingLost := h.nothingLost
  owes key t ho := ⟨hdebt key t (h.owes key t ho).1, (h.owes key t ho).2⟩
  opened := h.opened
  stamped := h.stamped

/-- An entry that neither begins nor ends a pass, nor drains a path. -/
theorem note (h : Books debt s) {m : Moment} (hinner : m.inner = true)
    (hdrained : ∀ key t, m ≠ .drained key t)
    (hdebt : ∀ key t, debt key t → m.serves key t = false → debt' key t) :
    Books debt' (s.log m) where
  nothingLost := by
    refine h.nothingLost.cons (fun key t hm => absurd hm (hdrained key t)) fun hm => ?_
    have hm : m = .passEnded := hm
    rw [hm] at hinner
    cases hinner
  owes key t ho := by
    obtain ⟨ho | hm, hserves⟩ := owes_inner hinner ho
    · exact ⟨hdebt key t (h.owes key t ho).1 hserves, (h.owes key t ho).2⟩
    · exact absurd hm (hdrained key t)
  opened pass hpass o ho := by
    have hpass : pass ∈ currentPass (⟨m, s.operationalIncomplete⟩ :: s.ghost.log) := hpass
    rw [currentPass_inner hinner, Option.mem_map] at hpass
    obtain ⟨pass', hpass', rfl⟩ := hpass
    obtain ⟨e, he, hm⟩ := h.opened pass' hpass' o ho
    exact ⟨e, List.mem_cons_of_mem _ he, hm⟩
  stamped := h.stamped

theorem unnoticed (h : Books debt s) (hu : Unnoticed s s') : Books debt s' := by
  obtain ⟨entries, hall, heq⟩ := hu.log
  have hpast := owes_append s.ghost.log hall
  refine ⟨?_, fun key t ho => ?_, fun pass hp o ho => ?_, hu.stamped h.stamped⟩
  · rw [heq]
    exact h.nothingLost.append hall
  · rw [heq] at ho
    obtain ⟨hd, ht⟩ := h.owes key t (hpast.1 ho)
    exact ⟨hd, ht.trans hu.tick⟩
  · rw [heq, hpast.2, Option.mem_map] at hp
    obtain ⟨pass', hp', rfl⟩ := hp
    rw [hu.passOpened] at ho
    obtain ⟨e, he, hm⟩ := h.opened pass' hp' o ho
    exact ⟨e, List.mem_append_right _ he, hm⟩

end Books

/-! ## Assertions -/

/-- What holds wherever a run ends or is looked at. -/
def Accounted (s : Watcher) : Prop := Attentive s.ghost.log → NothingLost s.ghost.log

/-- The place in the run: these scans are in progress.  `live`: a pass is under way.
`opens`: the walk may be about to open the file it visits. -/
structure Place (st : List ScanInProgress) (opens : Prop) (live : Bool) (s : Watcher) : Prop where
  scans : s.scans = st
  live : live = true → (currentPass s.ghost.log).isSome = true
  opens : (s.ghost.inFilter && !s.reconciliation.metadataOnly) = true → opens

/-- The assertion about debts at a place in the run. -/
def books (st : List ScanInProgress) (debt : Bytes → Nat → Prop) (opens : Prop) (live : Bool) :
    Assertion Watcher PyError where
  inside s := Place st opens live s ∧ (Attentive s.ghost.log → Books debt s)
  raised e s :=
    if e.isException = true then
      s.scans = st ∧ (Attentive s.ghost.log → Books (fun _ _ => True) s)
    else Accounted s
  halted := Accounted

namespace Drain

variable {st : List ScanInProgress} {debt debt' : Bytes → Nat → Prop} {opens : Prop}
  {live : Bool} {s s' : Watcher}

theorem attentive_of_unnoticed (hu : Unnoticed s s') (h : Attentive s'.ghost.log) :
    Attentive s.ghost.log := by
  obtain ⟨entries, -, heq⟩ := hu.log
  intro e he
  refine h e ?_
  rw [heq]
  exact List.mem_append_right _ he

theorem currentPass_unnoticed (hu : Unnoticed s s') :
    (currentPass s'.ghost.log).isSome = (currentPass s.ghost.log).isSome := by
  obtain ⟨entries, hall, heq⟩ := hu.log
  rw [heq, (owes_append _ hall).2, Option.isSome_map]

theorem inside_unnoticed (hs : (books st debt opens live).inside s) (hu : Unnoticed s s') :
    (books st debt opens live).inside s' := by
  refine ⟨⟨hu.scans.trans hs.1.scans, fun hlive => ?_, fun hopens => ?_⟩, fun hatt =>
    (hs.2 (attentive_of_unnoticed hu hatt)).unnoticed hu⟩
  · exact (currentPass_unnoticed hu).trans (hs.1.live hlive)
  · rw [hu.inFilter, hu.metadataOnly] at hopens
    exact hs.1.opens hopens

theorem accounted_of_inside (hs : (books st debt opens live).inside s) : Accounted s :=
  fun hatt => (hs.2 hatt).nothingLost

theorem lasting (st : List ScanInProgress) (debt : Bytes → Nat → Prop) (opens : Prop)
    (live : Bool) : Lasting (books st debt opens live) where
  idle hidle hs := inside_unnoticed hs hidle.unnoticed
  raise := by
    intro s e hs
    show ite _ _ _
    split
    · exact ⟨hs.1.scans, fun hatt => (hs.2 hatt).mono fun _ _ _ => trivial⟩
    · exact accounted_of_inside hs
  stop hs := accounted_of_inside hs

/-- The assertions of the argument. -/
def scheme (debt : Bytes → Nat → Prop) (opens : Prop) (live : Bool) : Scheme where
  inside st := (books st debt opens live).inside
  failed st s := s.scans = st ∧ (Attentive s.ghost.log → Books (fun _ _ => True) s)
  cut := Accounted

/-- Between the passes, where nobody asks for debts. -/
abbrev outside : Scheme := scheme (fun _ _ => True) True false

/-- Nothing is owed. -/
def nothing : Bytes → Nat → Prop := fun _ _ => False

theorem inside_outside (hs : (books st debt opens live).inside s) : outside.inside st s :=
  ⟨⟨hs.1.scans, by rintro ⟨⟩, fun _ => trivial⟩, fun hatt => (hs.2 hatt).mono fun _ _ _ => trivial⟩

theorem scheme_lasting (debt : Bytes → Nat → Prop) (opens : Prop) (live : Bool)
    (st : List ScanInProgress) : Lasting ((scheme debt opens live).on st) :=
  lasting st debt opens live

/-! ## Steps of a scan -/

theorem onScan_keeps (st : List ScanInProgress) (f : ScanInProgress → ScanInProgress) :
    Keeps w ((scheme debt opens live).within st) (Prog.update (Watcher.onScan f)) := by
  rintro s ⟨x, hplace, hbooks⟩
  refine ⟨f x, ⟨?_, hplace.live, hplace.opens⟩, fun hatt => ?_⟩
  · show s.scans.modifyHead f = _
    rw [hplace.scans]
    rfl
  · have h := hbooks hatt
    exact ⟨h.nothingLost, h.owes, h.opened, h.stamped⟩

/-- A step inside a scan that no pass takes notice of. -/
theorem updateWithin {f : Watcher → Watcher} (hf : ∀ s, Unnoticed s (f s))
    (st : List ScanInProgress) :
    Keeps w ((scheme debt opens live).within st) (Prog.update f) := by
  rintro s ⟨x, hs⟩
  exact ⟨x, inside_unnoticed hs (hf s)⟩

theorem keeps_within {α : Type} {p : WatchM α} (st : List ScanInProgress)
    (hp : ∀ {A : Assertion Watcher PyError}, Lasting A → Keeps w A p) :
    Keeps w ((scheme debt opens live).within st) p :=
  Scheme.keeps_within fun x => hp (scheme_lasting debt opens live (x :: st))

theorem issue_keeps (st : List ScanInProgress) (path : Path) (code : ScanCode) (message : Str) :
    Keeps w ((scheme debt opens live).within st) (issue path code message) :=
  Keeps.bind (onScan_keeps st _) fun _ =>
    updateWithin (fun _ => (Idle.log_idle rfl).unnoticed) st

theorem gap_keeps (st : List ScanInProgress) (f : ScanStats → ScanStats) :
    Keeps w ((scheme debt opens live).within st) (countGap f) :=
  Keeps.bind (onScan_keeps st _) fun _ =>
    updateWithin (fun _ => (Idle.log_idle rfl).unnoticed) st

theorem keepFinding_keeps (st : List ScanInProgress) (finding : Option FileFinding) :
    Keeps w ((scheme debt opens live).within st) (keepFinding finding) := by
  cases finding with
  | none => exact Keeps.pure ()
  | some finding => exact onScan_keeps st _

/-- A file is opened: what was drained of it before is served. -/
theorem inside_openFile {key : Bytes} (hs : (books st debt opens live).inside s)
    (hdebt : ∀ k t, debt k t → ¬ (k = key ∧ t < s.tick) → debt' k t) :
    (books st debt' opens live).inside (s.openFile key) := by
  refine ⟨⟨hs.1.scans, fun hlive => ?_, hs.1.opens⟩, fun hatt => ?_⟩
  · show (currentPass (⟨.opened key s.tick, _⟩ :: s.ghost.log)).isSome = true
    rw [currentPass_inner rfl, Option.isSome_map]
    exact hs.1.live hlive
  · have h := hs.2 hatt.tail
    have hnote : Books debt' (s.log (.opened key s.tick)) := by
      refine h.note rfl (fun _ _ => nofun) fun k t hd hserves => hdebt k t hd ?_
      rintro ⟨rfl, ht⟩
      have hserves : decide (k = k ∧ t < s.tick) = false := hserves
      rw [decide_eq_false_iff_not] at hserves
      exact hserves ⟨rfl, ht⟩
    refine ⟨hnote.nothingLost, hnote.owes, fun pass hpass o ho => ?_, h.stamped⟩
    cases ho with
    | head =>
        have hpass : pass ∈ currentPass (⟨.opened key s.tick, _⟩ :: s.ghost.log) := hpass
        rw [currentPass_inner rfl, Option.mem_map] at hpass
        obtain ⟨pass', -, rfl⟩ := hpass
        exact ⟨_, List.mem_cons_self, rfl⟩
    | tail _ hmem => exact hnote.opened pass hpass o hmem

/-- After a point the clock of the run has moved on. -/
theorem point_tick (s : Watcher) :
    wp w point ⟨fun _ s' => s.tick < s'.tick, fun _ _ => True, fun _ => True⟩ s := by
  have htick : ∀ (actions : List ThreadAction) (s : Watcher),
      (actions.foldl (Watcher.act w.host) s).tick = s.tick := by
    intro actions
    induction actions with
    | nil => exact fun s => rfl
    | cons a rest ih => exact fun s => (ih _).trans (s.act_tick w.host a)
  show Post.Holds _ (point w s)
  unfold point
  cases w.control s.tick with
  | goOn => exact Nat.lt_succ_self s.tick
  | interrupt => exact trivial
  | stop => exact trivial

/-- The inspection of a file serves what was drained of it before. -/
theorem scanFile_serves (path : Path) (stat : Stat) {s : Watcher}
    (hs : ((scheme debt opens live).within st).inside s)
    (hdebt : ∀ k t, debt k t → ¬ (k = w.host.snapshotPathKey path ∧ t ≤ s.tick) → debt' k t) :
    wp w (scanFile path stat) (((scheme debt opens live).within st).postWith fun _ =>
      ((scheme debt' opens live).within st).inside) s := by
  have hpoint : wp w point (((scheme debt opens live).within st).postWith fun _ s' =>
      ((scheme debt opens live).within st).inside s' ∧ s.tick < s'.tick) s :=
    (wp.and (keeps_within st (fun h => h.point) s hs) (point_tick s)).mono
      ⟨fun _ _ hq => hq, fun _ _ hr => hr.1, fun _ hc => hc.1⟩
  have hinspect : ∀ key inspection, Keeps w ((scheme debt' opens live).within st)
      (Prog.update (Watcher.inspect key inspection)) := fun key inspection =>
    updateWithin (fun s => { log := ⟨[_], fun e he => by
      obtain rfl := List.mem_singleton.1 he
      rfl, rfl⟩ }) st
  have hscan : Keeps w ((scheme debt' opens live).within st) (do
      let scan ← call fun w t => w.scanFile t path stat
      concludeScan (w.host.snapshotPathKey path) path scan) := by
    refine Keeps.bind (keeps_within st fun h => h.call _) fun scan => ?_
    cases scan with
    | hashed bytesRead finding observations =>
        refine Keeps.bind (hinspect _ _) fun _ => ?_
        exact Keeps.bind (onScan_keeps st _) fun _ => Keeps.pure _
    | failed code message =>
        refine Keeps.bind (hinspect _ _) fun _ => ?_
        exact Keeps.bind (issue_keeps st _ _ _) fun _ => Keeps.pure _
    | tooLarge =>
        refine Keeps.bind (hinspect _ _) fun _ => ?_
        exact Keeps.bind (gap_keeps st _) fun _ => Keeps.pure _
    | hashedThenFailed bytesRead observations message =>
        refine Keeps.bind (hinspect _ _) fun _ => Keeps.bind (onScan_keeps st _) fun _ => ?_
        exact Keeps.bind (issue_keeps st _ _ _) fun _ => Keeps.pure _
    | escaped error =>
        refine Keeps.bind (Keeps.ite (fun _ => hinspect _ _) fun _ => Keeps.pure ()) fun _ => ?_
        exact keeps_within st fun h => h.throw error
  show wp w (snapshotPathKey path >>= _) _ s
  rw [wp_bind, wp_snapshotPathKey, Post.withOk_ok]
  refine hpoint.bind (fun _ s' hs' => ?_) (fun _ _ hr => hr) fun _ hc => hc
  obtain ⟨⟨x, hs'⟩, htick⟩ := hs'
  rw [wp_bind, wp_update, Post.withOk_ok]
  refine hscan _ ⟨x, inside_openFile hs' (fun k t hd hnot => hdebt k t hd ?_)⟩
  rintro ⟨rfl, ht⟩
  exact hnot ⟨rfl, ht.trans_lt htick⟩

/-- A file is inspected by a scan without callbacks. -/
theorem inspectFile_keeps (st : List ScanInProgress) (path : Path) (stat : Stat) :
    Keeps w ((scheme debt opens live).within st)
      (inspectFile (recordInspection none) path stat) := by
  intro s hs
  refine (scanFile_serves path stat hs fun _ _ hd _ => hd).bind (fun r s hs => ?_)
    (fun _ _ hr => hr) fun _ hc => hc
  rw [wp_bind]
  unfold applyObserver
  rw [wp_tryExcept]
  show wp w (evictUnhashed path r.1 >>= fun _ => pure ()) _ s
  rw [wp_bind]
  refine evictUnhashed_idle fun s' hidle => ?_
  obtain ⟨x, hs⟩ := hs
  exact keepFinding_keeps st r.2 s' ⟨x, inside_unnoticed hs hidle.unnoticed⟩

/-- An exception the scanner catches aborts the pass. -/
theorem swallow_outside (path : Path) (code : ScanCode) (e : PyError) {s : Watcher}
    (hs : ∃ x, outside.failed (x :: st) s) :
    wp w (swallow path code e) (outside.within st).post s := by
  obtain ⟨x, hst, hbooks⟩ := hs
  have hin : (outside.within st).inside s := ⟨x, ⟨hst, by rintro ⟨⟩, fun _ => trivial⟩, hbooks⟩
  have hrest : Keeps w (outside.within st) (swallow path code e) :=
    Keeps.bind (updateWithin (fun _ => (Idle.log_idle rfl).unnoticed) st) fun _ =>
      Keeps.bind (Keeps.ask _) fun message => issue_keeps st path code message
  exact hrest s hin

/-- An entry of the pass that drains nothing. -/
theorem inside_note {m : Moment} (hs : (books st debt opens live).inside s)
    (hinner : m.inner = true) (hdrained : ∀ key t, m ≠ .drained key t)
    (hdebt : Attentive (s.log m).ghost.log → ∀ key t, Owes s.ghost.log key t → debt key t →
      m.serves key t = false → debt' key t) :
    (books st debt' opens live).inside (s.log m) := by
  refine ⟨⟨hs.1.scans, fun hlive => ?_, hs.1.opens⟩, fun hatt => ?_⟩
  · show (currentPass (⟨m, _⟩ :: s.ghost.log)).isSome = true
    rw [currentPass_inner hinner, Option.isSome_map]
    exact hs.1.live hlive
  · have h := hs.2 hatt.tail
    have howed : Books (fun key t => Owes s.ghost.log key t ∧ debt key t) s :=
      ⟨h.nothingLost, fun key t ho => ⟨⟨ho, (h.owes key t ho).1⟩, (h.owes key t ho).2⟩, h.opened,
        h.stamped⟩
    exact howed.note hinner hdrained fun key t hd => hdebt hatt key t hd.1 hd.2

theorem scanRules (debt : Bytes → Nat → Prop) (opens : Prop) (live : Bool) :
    ScanRules w (scheme debt opens live) where
  stack hs := hs.1.scans
  failed hs := ⟨hs.1.scans, fun hatt => (hs.2 hatt).mono fun _ _ _ => trivial⟩
  cut hs := accounted_of_inside hs
  point st := (scheme_lasting debt opens live st).point
  count st := (scheme_lasting debt opens live st).count
  evict st := (scheme_lasting debt opens live st).evict
  superseded st e _ := (scheme_lasting debt opens live st).emit e
  healthIssue st code message _ := (scheme_lasting debt opens live st).healthIssue code message
  scanPending st key submitted := Keeps.update fun s hs =>
    inside_note hs rfl (fun _ _ => nofun) fun _ _ _ _ hd _ => hd
  openScan {st s} startedAt paths hs :=
    ⟨⟨congrArg (_ :: ·) hs.1.scans, hs.1.live, hs.1.opens⟩, fun hatt =>
      have h := hs.2 hatt
      ⟨h.nothingLost, h.owes, h.opened, h.stamped⟩⟩
  issue st path code message := issue_keeps st path code message
  countScan st f _ := onScan_keeps st _
  gap st f _ := gap_keeps st f
  inspect := inspectFile_keeps
  closeFailed {st x s} hs := ⟨congrArg List.tail hs.1, fun hatt =>
    have h := hs.2 hatt
    ⟨h.nothingLost, h.owes, h.opened, h.stamped⟩⟩
  closeCut hs := hs

/-- Settling a scan changes nothing about passes. -/
theorem settles (debt : Bytes → Nat → Prop) (opens : Prop) (live : Bool)
    (st : List ScanInProgress) : (scheme debt opens live).Settles w st := by
  intro x s c host completedAt hs
  have hsettle : wp w (settle c (x.result host completedAt)) (books (x :: st) debt opens live).post
      s := (scheme_lasting debt opens live (x :: st)).settle c _ s hs
  refine hsettle.mono ⟨fun _ s hs => ?_, fun e s hr => ?_, fun _ hc => hc⟩
  · refine ⟨⟨congrArg List.tail hs.1.scans, hs.1.live, hs.1.opens⟩, fun hatt => ?_⟩
    have h := hs.2 hatt
    exact ⟨h.nothingLost, h.owes, h.opened, h.stamped⟩
  · have hr : ite _ _ _ := hr
    show ite _ _ _
    split at hr
    · rename_i he
      rw [if_pos he]
      exact (scanRules debt opens live (w := w)).closeFailed hr
    · rename_i he
      rw [if_neg he]
      exact hr

/-! ## Drains -/

/-- The paths that a drain has still to turn to. -/
def batch (w : World) (paths : List PendingPath) (debt : Bytes → Nat → Prop) :
    Bytes → Nat → Prop := fun key t =>
  debt key t ∨ ∃ p ∈ paths, w.host.snapshotPathKey p.path = key ∧ p.lastSubmitted = t

theorem inside_mono (hs : (books st debt opens live).inside s)
    (hdebt : ∀ key t, debt key t → debt' key t) : (books st debt' opens live).inside s :=
  ⟨hs.1, fun hatt => (hs.2 hatt).mono hdebt⟩

/-- A path leaves the queue. -/
theorem inside_drainedOne {p : PendingPath} (hs : (books st debt opens true).inside s)
    (hstamp : Attentive s.ghost.log → p.lastSubmitted ≤ s.tick) :
    (books st (batch w [p] debt) opens true).inside
      (s.log (.drained (w.host.snapshotPathKey p.path) p.lastSubmitted)) := by
  have hpass : currentPass (⟨.drained (w.host.snapshotPathKey p.path) p.lastSubmitted,
      s.operationalIncomplete⟩ :: s.ghost.log) = (currentPass s.ghost.log).map (_ :: ·) :=
    currentPass_inner rfl
  refine ⟨⟨hs.1.scans, fun _ => ?_, hs.1.opens⟩, fun hatt => ?_⟩
  · show (currentPass (_ :: s.ghost.log)).isSome = true
    rw [hpass, Option.isSome_map]
    exact hs.1.live rfl
  · have h := hs.2 hatt.tail
    refine ⟨h.nothingLost.cons (fun _ _ _ => hs.1.live rfl) nofun, fun key t ho => ?_,
      fun pass hp o ho => ?_, h.stamped⟩
    · obtain ⟨ho | hm, -⟩ := owes_inner (by rfl) ho
      · exact ⟨.inl (h.owes key t ho).1, (h.owes key t ho).2⟩
      · injection hm with hkey ht
        rw [← ht]
        exact ⟨.inr ⟨p, List.mem_cons_self, hkey, rfl⟩, hstamp hatt.tail⟩
    · have hp : pass ∈ currentPass (_ :: s.ghost.log) := hp
      rw [hpass, Option.mem_map] at hp
      obtain ⟨pass', hp', rfl⟩ := hp
      obtain ⟨e, he, hm⟩ := h.opened pass' hp' o ho
      exact ⟨e, List.mem_cons_of_mem _ he, hm⟩

/-- Taking due paths off the queue in a pass makes them debts. -/
theorem inside_drained (now : ℚ) (maximum : Option Nat)
    (hs : (books st debt opens true).inside s) :
    (books st (batch w (s.events.takeDue now maximum).1 debt) opens true).inside
      ((s.takeDue now maximum).drained w.host (s.events.takeDue now maximum).1) := by
  have hfold : ∀ (paths : List PendingPath) (debt : Bytes → Nat → Prop) (s : Watcher),
      (Attentive s.ghost.log → ∀ p ∈ paths, p.lastSubmitted ≤ s.tick) →
      (books st debt opens true).inside s →
      (books st (batch w paths debt) opens true).inside (s.drained w.host paths) := by
    intro paths
    induction paths with
    | nil => exact fun debt s _ hs => inside_mono hs fun _ _ hd => .inl hd
    | cons p rest ih =>
        intro debt s hstamps hs
        have hone := inside_drainedOne (w := w) hs fun hatt => hstamps hatt p List.mem_cons_self
        have htail : Attentive (s.log (.drained (w.host.snapshotPathKey p.path)
            p.lastSubmitted)).ghost.log → ∀ q ∈ rest, q.lastSubmitted ≤ s.tick :=
          fun hatt q hq => hstamps hatt.tail q (List.mem_cons_of_mem _ hq)
        have hrest := ih (batch w [p] debt)
          (s.log (.drained (w.host.snapshotPathKey p.path) p.lastSubmitted)) htail hone
        refine inside_mono hrest ?_
        rintro key t ((hd | ⟨q, hq, hkey⟩) | ⟨q, hq, hkey⟩)
        · exact .inl hd
        · obtain rfl := List.mem_singleton.1 hq
          exact .inr ⟨q, List.mem_cons_self, hkey⟩
        · exact .inr ⟨q, List.mem_cons_of_mem _ hq, hkey⟩
  have htaken : Unnoticed s (s.takeDue now maximum) :=
    { stamped := fun h => (DebouncedPathQueue.stampedBy_takeDue h now maximum).2 }
  exact hfold _ debt _ (fun hatt => (DebouncedPathQueue.stampedBy_takeDue
    (hs.2 hatt).stamped now maximum).1) (inside_unnoticed hs htaken)

/-- In a pass `due` turns what it takes into debts. -/
theorem due_takes (st : List ScanInProgress) (debt : Bytes → Nat → Prop) (opens : Prop)
    (maximum : Option Nat) {s : Watcher} (hs : (books st debt opens true).inside s) :
    wp w (due maximum) ((books st debt opens true).postWith fun paths s' =>
      (books st (batch w paths debt) opens true).inside s') s := by
  have hlasting := lasting st debt opens true
  have hraise : ∀ e, wp w (Prog.raise e : WatchM (List PendingPath))
      ((books st debt opens true).postWith fun paths s' =>
        (books st (batch w paths debt) opens true).inside s') s := fun e => hlasting.raise e hs
  refine (wp_ite _ _ _ _).2 ⟨fun _ => hraise _, fun _ => ?_⟩
  refine Keeps.wp_bind hlasting.ingest hs fun _ s hs => ?_
  refine Keeps.wp_bind (hlasting.call _) hs fun now s hs => ?_
  exact inside_drained now maximum hs

/-- A pending path is scanned, and is no debt any longer. -/
theorem scanPending_serves {p : PendingPath} {rest : List PendingPath}
    (hs : (books st (batch w (p :: rest) debt) opens live).inside s) :
    wp w (scanPending p) (books st (batch w rest debt) opens live).post s := by
  show wp w (snapshotPathKey p.path >>= _) _ s
  rw [wp_bind, wp_snapshotPathKey, Post.withOk_ok, wp_bind, wp_note, Post.withOk_ok]
  refine (scanRules (batch w rest debt) opens live).scanKey (settles _ _ _ st) _ p _ ?_
  refine inside_note hs rfl (fun _ _ => nofun) ?_
  rintro - key t - (hd | ⟨q, hq, rfl, rfl⟩) hserves
  · exact .inl hd
  · cases hq with
    | head =>
        have hserves : decide (w.host.snapshotPathKey p.path = w.host.snapshotPathKey p.path ∧
          p.lastSubmitted = p.lastSubmitted) = false := hserves
        rw [decide_eq_false_iff_not] at hserves
        exact absurd ⟨rfl, rfl⟩ hserves
    | tail _ hmem => exact .inr ⟨q, hmem, rfl, rfl⟩

/-- One turn of the drain inside a walk.  The walk either serves the file it visits, or a
pass has served it already. -/
theorem drainOne_serves {key : Bytes} {p : PendingPath} {rest : List PendingPath}
    (hopens : opens → ∀ t, debt key t)
    (hs : (books st (batch w (p :: rest) debt) opens live).inside s) :
    wp w (drainOne key p) (books st (batch w rest debt) opens live).post s := by
  show wp w (snapshotPathKey p.path >>= _) _ s
  rw [wp_bind, wp_snapshotPathKey, Post.withOk_ok]
  refine (wp_ite _ _ _ _).2 ⟨fun _ => scanPending_serves hs, fun hkey => ?_⟩
  rw [not_not] at hkey
  refine inside_note hs rfl (fun _ _ => nofun) ?_
  rintro hatt k t ho (hd | ⟨q, hq, rfl, rfl⟩) -
  · exact .inl hd
  · cases hq with
    | tail _ hmem => exact .inr ⟨q, hmem, rfl, rfl⟩
    | head =>
        have hcovered : (!s.covers (w.host.snapshotPathKey p.path) p.lastSubmitted) = false :=
          hatt _ List.mem_cons_self
        rw [Bool.not_eq_false', Watcher.covers, Bool.or_eq_true] at hcovered
        obtain hwill | hhas := hcovered
        · rw [hkey]
          exact .inl (hopens (hs.1.opens hwill) _)
        · obtain ⟨o, hmem, hserved⟩ := List.any_eq_true.1 hhas
          obtain ⟨hpath, ht⟩ := of_decide_eq_true hserved
          obtain ⟨pass, hpass, -, hunserved⟩ := ho
          obtain ⟨e, he, hopened⟩ := (hs.2 hatt.tail).opened pass hpass o hmem
          have hnot := hunserved e he
          rw [hopened] at hnot
          exact absurd ⟨hpath, ht⟩ (of_decide_eq_false hnot)

/-- The drain inside a walk pays what it takes. -/
theorem drainPriorityEvents_keeps {key : Bytes} (hopens : opens → ∀ t, debt key t) :
    Keeps w (books st debt opens true) (drainPriorityEvents key) := by
  refine (lasting st debt opens true).drainPriorityEvents key
    (Q := fun paths => (books st (batch w paths debt) opens true).inside)
    (fun s hs => due_takes st debt opens (some 32) hs) ?_
  refine wp_forEach (fun rest => (books st (batch w rest debt) opens true).inside)
    (fun p rest s hs => ?_) fun s hs => ?_
  · exact drainOne_serves hopens hs
  · exact inside_mono hs fun _ _ hd => hd.resolve_right (by simp)

/-! ## The ends of a pass -/

/-- A pass begins without debts. -/
theorem inside_passBegan {s' : Watcher} (hs : (books st debt opens live).inside s)
    (hscans : s'.scans = s.scans) (hlog : s'.ghost.log = s.ghost.log)
    (hopened : s'.ghost.passOpened = []) (hevents : s'.events = s.events)
    (htick : s'.tick = s.tick)
    (hfilter : (s'.ghost.inFilter && !s'.reconciliation.metadataOnly) = true → opens) :
    (books st nothing opens true).inside (s'.log .passBegan) := by
  refine ⟨⟨hscans.trans hs.1.scans, fun _ => rfl, hfilter⟩, fun hatt => ?_⟩
  have hatt : Attentive s'.ghost.log := hatt.tail
  rw [hlog] at hatt
  have h := hs.2 hatt
  refine ⟨?_, fun key t ho => ?_, fun pass _ o ho => ?_, ?_⟩
  · show NothingLost (_ :: s'.ghost.log)
    rw [hlog]
    exact h.nothingLost.cons nofun nofun
  · exact absurd ho not_owes_passBegan
  · have ho : o ∈ s'.ghost.passOpened := ho
    rw [hopened] at ho
    cases ho
  · show s'.events.StampedBy s'.tick
    rw [hevents, htick]
    exact h.stamped

/-- A pass ends, and owes nothing. -/
theorem inside_passEnded (hs : (books st nothing opens live).inside s) :
    outside.inside st s.endVisit := by
  refine ⟨⟨hs.1.scans, by rintro ⟨⟩, fun _ => trivial⟩, fun hatt => ?_⟩
  have h := hs.2 hatt.tail
  refine ⟨h.nothingLost.cons (by rintro _ _ ⟨⟩) fun _ key t ho => (h.owes key t ho).1,
    fun key t ho => ?_, fun pass hpass => ?_, h.stamped⟩
  · exact absurd ho not_owes_passEnded
  · cases hpass

/-- The main loop serves what it drains. -/
theorem drainDue_keeps : Keeps w (outside.on []) drainDue := by
  intro s hs
  show wp w (Prog.update Watcher.beginDrain >>= _) _ s
  rw [wp_bind, wp_update, Post.withOk_ok, wp_bind]
  have hbegin : (books [] nothing True true).inside s.beginDrain :=
    inside_passBegan hs rfl rfl rfl rfl rfl fun _ => trivial
  refine (due_takes [] nothing True none hbegin).mono
    ⟨fun paths s hs => ?_, fun _ _ hr => hr, fun _ hc => hc⟩
  show wp w (Prog.forEach scanPending paths >>= _) _ s
  rw [wp_bind]
  refine wp_forEach (fun rest => (books [] (batch w rest nothing) True true).inside)
    (fun p rest s hs => ?_) (fun s hs => ?_) paths s hs
  · exact (scanPending_serves hs).mono ⟨fun _ _ hq => hq, fun _ _ hr => hr, fun _ hc => hc⟩
  · exact inside_passEnded (inside_mono hs fun _ _ hd => hd.resolve_right (by simp))

/-! ## Callbacks -/

/-- What the walk owes of the file it is about to open. -/
def ofFile (key : Bytes) : Bytes → Nat → Prop := fun k _ => k = key

/-- The file filter.  What it leaves to a file that is to be inspected is about that file. -/
def Filtered (key : Bytes) (st : List ScanInProgress) : Bool → Watcher → Prop
  | true, s => ((scheme (ofFile key) True true).within st).inside s
  | false, s => (outside.within st).inside s

theorem filterUnrepresentable_serves (key : Bytes) (e : PyError) {s : Watcher}
    (hs : ((scheme nothing True true).within st).inside s) :
    wp w (filterUnrepresentable key e) ((outside.within st).postWith (Filtered key st)) s := by
  obtain ⟨x, hs⟩ := hs
  show wp w (Prog.gets Watcher.reconciliation >>= _) _ s
  rw [wp_bind, wp_gets, Post.withOk_ok]
  refine (wp_ite _ _ _ _).2 ⟨fun _ => ?_, fun _ => ?_⟩
  · have hraise : Keeps w (outside.within st) (Prog.raise e : WatchM Bool) :=
      keeps_within st fun h => h.throw e
    exact hraise s ⟨x, inside_outside hs⟩
  · have hfile : (scheme (ofFile key) True true).inside (x :: st) s := inside_mono hs nofun
    refine Keeps.wp_bind (A := (scheme (ofFile key) True true).within st)
      (keeps_within st fun h => h.emitProgressHeartbeat) ⟨x, hfile⟩ fun _ s hs => ?_
    refine Keeps.wp_bind (A := (scheme (ofFile key) True true).within st)
      (Scheme.keeps_within fun x => ?_) hs fun _ s hs => hs
    exact drainPriorityEvents_keeps fun _ _ => rfl

theorem filterInventory_serves (key : Bytes) (fingerprint : Fingerprint) {x : ScanInProgress}
    {s : Watcher} (hs : (books (x :: st) nothing True true).inside s)
    (hmode : s.reconciliation.metadataOnly = true) :
    wp w (filterInventory key fingerprint) ((outside.within st).postWith (Filtered key st)) s := by
  -- The metadata-only inventory opens no file, so a drain may leave none to it.
  have hclosed : (books (x :: st) nothing False true).inside s :=
    ⟨⟨hs.1.scans, hs.1.live, fun hopens => by simp [hmode] at hopens⟩, hs.2⟩
  have hnoted : (books (x :: st) nothing False true).inside (s.inventory key fingerprint) :=
    inside_note (s := s.setCurrent key fingerprint) (inside_unnoticed hclosed {}) rfl
      (fun _ _ => nofun) fun _ _ _ _ hd _ => hd
  show wp w (Prog.update _ >>= _) _ s
  rw [wp_bind, wp_update, Post.withOk_ok]
  refine Keeps.wp_bind (A := (scheme nothing False true).within st)
    (keeps_within st fun h => h.emitProgressHeartbeat) ⟨x, hnoted⟩ fun _ s hs => ?_
  refine Keeps.wp_bind (A := (scheme nothing False true).within st)
    (Scheme.keeps_within fun x => drainPriorityEvents_keeps nofun) hs fun _ s hs => ?_
  obtain ⟨x, hs⟩ := hs
  exact ⟨x, inside_passEnded hs⟩

theorem filterChanged_serves (key : Bytes) (previousFingerprint : Option Fingerprint)
    (fingerprint : Fingerprint) {x : ScanInProgress} {s : Watcher}
    (hs : (books (x :: st) nothing True true).inside s) :
    wp w (filterChanged key previousFingerprint fingerprint)
      ((outside.within st).postWith (Filtered key st)) s := by
  show wp w (Prog.gets Watcher.reconciliation >>= _) _ s
  rw [wp_bind, wp_gets, Post.withOk_ok]
  refine (wp_ite _ _ _ _).2 ⟨fun _ => ?_, fun _ => ?_⟩
  · have hfile : (scheme (ofFile key) True true).inside (x :: st) s := inside_mono hs nofun
    refine Keeps.wp_bind (A := (scheme (ofFile key) True true).within st)
      (keeps_within st fun h => h.emitProgressHeartbeat) ⟨x, hfile⟩ fun _ s hs => hs
  · have hnoted : (books (x :: st) nothing True true).inside (s.passOver key fingerprint) :=
      inside_note (s := (s.onReconciliation fun r => { r with unchanged := r.unchanged + 1 }
        ).setCurrent key fingerprint) (inside_unnoticed hs {}) rfl
        (fun _ _ => nofun) fun _ _ _ _ hd _ => hd
    rw [wp_bind, wp_update, Post.withOk_ok]
    refine Keeps.wp_bind (A := (scheme nothing True true).within st)
      (keeps_within st fun h => h.emitProgressHeartbeat) ⟨x, hnoted⟩ fun _ s hs => ?_
    obtain ⟨x, hs⟩ := hs
    exact ⟨x, inside_passEnded hs⟩

theorem filter_serves (path : Path) (stat : Stat) {s : Watcher}
    (hs : (outside.within st).inside s) :
    wp w (changedSinceLastReconciliation path stat)
      ((outside.within st).postWith (Filtered (w.host.snapshotPathKey path) st)) s := by
  obtain ⟨x, hs⟩ := hs
  have hbegin : (scheme nothing True true).inside (x :: st)
      (s.beginVisit (w.host.snapshotPathKey path)) :=
    inside_passBegan hs rfl rfl rfl rfl rfl fun _ => trivial
  show wp w (snapshotPathKey path >>= _) _ s
  rw [wp_bind, wp_snapshotPathKey, Post.withOk_ok, wp_bind, wp_update, Post.withOk_ok]
  refine Keeps.wp_bind (A := (scheme nothing True true).within st)
    (keeps_within st fun h => h.progress fun _ => ⟨rfl, rfl, rfl, rfl⟩) ⟨x, hbegin⟩
    fun _ s hs => ?_
  cases fileFingerprint stat with
  | error e => exact filterUnrepresentable_serves _ e hs
  | ok fingerprint =>
      obtain ⟨x, hs⟩ := hs
      show wp w (Prog.gets _ >>= _) _ s
      rw [wp_bind, wp_gets, Post.withOk_ok, wp_bind, wp_evict, Post.withOk_ok, wp_bind, wp_gets,
        Post.withOk_ok]
      have hevicted := inside_unnoticed hs (Idle.evict (w.host.snapshotPathKey path) s).unnoticed
      refine (wp_ite _ _ _ _).2 ⟨fun hmode => ?_, fun _ => ?_⟩
      · exact filterInventory_serves _ fingerprint hevicted hmode
      · exact filterChanged_serves _ _ fingerprint hevicted

theorem recordHashed_keeps (key : Bytes) (stat : Stat) (hashed : Bool) :
    Keeps w ((scheme debt opens live).within st) (recordHashed key stat hashed) := by
  have hupdate : ∀ f : Reconciliation → Reconciliation,
      (∀ r, (f r).metadataOnly = r.metadataOnly) →
      Keeps w ((scheme debt opens live).within st) (progress f) := fun f hf =>
    updateWithin (fun s => { metadataOnly := hf s.reconciliation }) st
  refine Keeps.ite (fun _ => ?_) fun _ => hupdate _ fun _ => rfl
  refine Keeps.bind (hupdate _ fun _ => rfl) fun _ => ?_
  have hraise : ∀ e, Keeps w ((scheme debt opens live).within st)
      (Prog.raise e : WatchM Fingerprint) := fun e => keeps_within st fun h => h.throw e
  refine Keeps.bind (Keeps.liftExcept fun e _ s hs => hraise e s hs) fun fingerprint => ?_
  exact updateWithin (fun s => {}) st

/-- The file observer serves what it drains. -/
theorem observer_serves (path : Path) (stat : Stat) (hashed : Bool) {s : Watcher}
    (hs : ((scheme nothing opens true).within st).inside s) :
    wp w (recordSuccessfulHash path stat hashed) (outside.within st).post s := by
  obtain ⟨x, hs⟩ := hs
  have hopened : (scheme nothing False true).inside (x :: st)
      { s with ghost := { s.ghost with inFilter := false } } :=
    ⟨⟨hs.1.scans, hs.1.live, nofun⟩, fun hatt =>
      have h := hs.2 hatt
      ⟨h.nothingLost, h.owes, h.opened, h.stamped⟩⟩
  show wp w (snapshotPathKey path >>= _) _ s
  rw [wp_bind, wp_snapshotPathKey, Post.withOk_ok, wp_bind, wp_update, Post.withOk_ok]
  refine Keeps.wp_bind (A := (scheme nothing False true).within st)
    (recordHashed_keeps _ stat hashed) ⟨x, hopened⟩ fun _ s hs => ?_
  refine Keeps.wp_bind (A := (scheme nothing False true).within st)
    (keeps_within st fun h => h.emitProgressHeartbeat) hs fun _ s hs => ?_
  refine Keeps.wp_bind (A := (scheme nothing False true).within st)
    (Scheme.keeps_within fun x => drainPriorityEvents_keeps nofun) hs fun _ s hs => ?_
  obtain ⟨x, hs⟩ := hs
  exact ⟨x, inside_passEnded hs⟩

/-- A wanted file is inspected, which serves what the walk owes of it, and the observer
told. -/
theorem inspectWanted_serves (path : Path) (stat : Stat) {s : Watcher}
    (hs : ((scheme (ofFile (w.host.snapshotPathKey path)) True true).within st).inside s)
    (howed : ∀ x, (scheme (ofFile (w.host.snapshotPathKey path)) True true).inside (x :: st) s →
      (scheme (fun k t => k = w.host.snapshotPathKey path ∧ t ≤ s.tick) True true).inside
        (x :: st) s) :
    wp w (inspectFile (recordInspection (some recordSuccessfulHash)) path stat)
      (outside.within st).post s := by
  obtain ⟨x, hs⟩ := hs
  have hserved : ((scheme (fun k t => k = w.host.snapshotPathKey path ∧ t ≤ s.tick) True
      true).within st).inside s := ⟨x, howed x hs⟩
  have hscan : wp w (scanFile path stat) ((outside.within st).postWith fun _ =>
      ((scheme nothing True true).within st).inside) s :=
    scanFile_serves path stat hserved fun _ _ hd hnot => hnot hd
  refine hscan.bind (fun r s hs => ?_) (fun _ _ hr => hr) fun _ hc => hc
  rw [wp_bind]
  unfold applyObserver
  rw [wp_tryExcept]
  show wp w (evictUnhashed path r.1 >>= fun _ => recordSuccessfulHash path stat r.1) _ s
  rw [wp_bind]
  refine evictUnhashed_idle fun s' hidle => ?_
  obtain ⟨y, hs⟩ := hs
  refine (observer_serves path stat r.1 ⟨y, inside_unnoticed hs hidle.unnoticed⟩).mono
    ⟨fun _ s hs => ?_, fun e s hr => ⟨fun he => ?_, fun _ => hr⟩, fun _ hc => hc⟩
  · exact keepFinding_keeps st r.2 s hs
  · have hr : ite _ _ _ := hr
    rw [if_pos he] at hr
    exact (swallow_outside path .fileObserverFailed e hr).mono
      ⟨fun _ s hs => keepFinding_keeps st r.2 s hs, fun _ _ hr => hr, fun _ hc => hc⟩

/-- A file of the walk is visited. -/
theorem visit_keeps (m : Bool) (path : Path) (stat : Stat) :
    Keeps w (outside.within []) (visitFile (some changedSinceLastReconciliation)
      (recordInspection (if m then none else some recordSuccessfulHash)) path stat) := by
  intro s hs
  have hfilter : wp w (applyFilter (some changedSinceLastReconciliation) path stat)
      ((outside.within []).postWith (Filtered (w.host.snapshotPathKey path) [])) s := by
    unfold applyFilter
    simp only
    rw [wp_tryExcept]
    refine (filter_serves path stat hs).mono
      ⟨fun _ _ hq => hq, fun e s hr => ⟨fun he => ?_, fun _ => hr⟩, fun _ hc => hc⟩
    have hr : ite _ _ _ := hr
    rw [if_pos he] at hr
    exact (swallow_outside path .fileFilterFailed e hr).bind (fun _ s hs => hs)
      (fun _ _ hr => hr) fun _ hc => hc
  refine hfilter.bind (fun wanted s hs => ?_) (fun _ _ hr => hr) fun _ hc => hc
  cases wanted with
  | false => exact hs
  | true =>
      cases m with
      | true =>
          obtain ⟨x, hs⟩ := hs
          exact inspectFile_keeps [] path stat s ⟨x, inside_outside hs⟩
      | false =>
          refine inspectWanted_serves path stat hs fun x hs => ⟨hs.1, fun hatt => ?_⟩
          have h := hs.2 hatt
          exact ⟨h.nothingLost, fun key t ho => ⟨h.owes key t ho, (h.owes key t ho).2⟩, h.opened,
            h.stamped⟩

/-! ## Sessions -/

theorem outside_lasting (st : List ScanInProgress) : Lasting (outside.on st) :=
  scheme_lasting (fun _ _ => True) True false st

theorem openReconciliation_keeps (trigger : Trigger) (full m : Bool) :
    Keeps w (outside.on []) (openReconciliation trigger full m) := by
  have hlasting := outside_lasting []
  refine Keeps.bind (hlasting.count _) fun _ => Keeps.bind (hlasting.call _) fun started => ?_
  have hbegin : Keeps w (outside.on [])
      (Prog.update (Watcher.beginReconcile trigger full m started)) := by
    intro s hs
    refine ⟨⟨hs.1.scans, by rintro ⟨⟩, fun _ => trivial⟩, fun hatt => ?_⟩
    have hnote := (hs.2 hatt.tail).note (m := .reconcileBegan m) rfl (fun _ _ => by rintro ⟨⟩)
      fun _ _ hd _ => hd
    exact ⟨hnote.nothingLost, hnote.owes, hnote.opened, hnote.stamped⟩
  refine Keeps.bind hbegin fun _ => ?_
  refine Keeps.bind (hlasting.call _) fun _ => Keeps.bind (Keeps.ask _) fun _ => ?_
  refine Keeps.bind (hlasting.progress fun _ => ⟨rfl, rfl, rfl, rfl⟩) fun _ => ?_
  exact Keeps.bind (hlasting.call _) fun _ => hlasting.progress fun _ => ⟨rfl, rfl, rfl, rfl⟩

theorem closeReconciliation_keeps (result : ScanResult) :
    Keeps w (outside.on []) (closeReconciliation result) := by
  have hlasting := outside_lasting []
  have hend : Keeps w (outside.on []) (Prog.update Watcher.endReconcile) := by
    intro s hs
    refine ⟨⟨hs.1.scans, by rintro ⟨⟩, fun _ => trivial⟩, fun hatt => ?_⟩
    have hnote := (hs.2 hatt.tail).note (m := .reconcileEnded s.reconciliation.current
      s.ghost.lastAttempt) rfl (fun _ _ => by rintro ⟨⟩) fun _ _ hd _ => hd
    exact ⟨hnote.nothingLost, hnote.owes, hnote.opened, hnote.stamped⟩
  have hrecover : Keeps w (outside.on []) (Prog.update Watcher.recover) := by
    intro s hs
    refine ⟨⟨hs.1.scans, by rintro ⟨⟩, fun _ => trivial⟩, fun hatt => ?_⟩
    have h := hs.2 hatt.tail
    have hflag : Books (fun _ _ => True) { s with operationalIncomplete := false } :=
      ⟨h.nothingLost, h.owes, h.opened, h.stamped⟩
    exact hflag.note rfl (fun _ _ => by rintro ⟨⟩) fun _ _ hd _ => hd
  refine Keeps.bind hend fun _ => Keeps.bind (Keeps.gets _) fun _ => ?_
  refine Keeps.ite (fun _ => ?_) fun _ => Keeps.pure ()
  refine Keeps.bind hrecover fun _ => Keeps.bind hlasting.statsSnapshot fun stats => ?_
  exact hlasting.emitHeartbeat _ _ _ _ _

theorem accounted_lasting : Lasting (Assertion.always Accounted) where
  idle {s s'} hidle hs := by
    intro hatt
    obtain ⟨entries, hall, heq⟩ := hidle.unnoticed.log
    rw [heq]
    exact (hs (attentive_of_unnoticed hidle.unnoticed hatt)).append hall
  raise _ hs := hs
  stop hs := hs

theorem runRules : RunRules w (outside.on []) outside (fun _ => outside)
    (fun _ _ => outside.inside []) where
  base := scanRules _ True false
  walk _ := scanRules _ True false
  visit := visit_keeps
  openReconciliation trigger full m hs := openReconciliation_keeps trigger full m _ hs
  settle {m x s} c host completedAt hs := settles _ True false [] c host completedAt hs
  closeReconciliation hq := closeReconciliation_keeps _ _ hq
  failed hs := hs
  cut hs := hs
  drainDue := drainDue_keeps
  heartbeat _ _ := (outside_lasting []).emitHeartbeat _ _ _ _ _
  pipeline := (outside_lasting []).pipeline
  startIngest hs := inside_unnoticed hs {}
  before := (outside_lasting []).toStartRules
  cut_of_raised {e s} hr := by
    have hr : ite _ _ _ := hr
    split at hr
    · exact fun hatt => (hr.2 hatt).nothingLost
    · exact hr
  cut_of_halted hc := hc
  fallback _ := (outside_lasting []).emit _
  sessionStarted {s} hs := (outside_lasting []).emitSessionStarted s hs
  cut_of_failed hs := fun hatt => (hs.2 hatt).nothingLost
  after := accounted_lasting.toShutdownRules
  sessionCompleted _ := accounted_lasting.emit _

end Drain

/-- In every run that overlooks no path, no drained event is lost. -/
theorem no_drained_event_lost (w : World) (excluded : List Str) (sink : WatchEvidenceSink)
    (duration : Option ℚ)
    (hattentive : Attentive (run duration w (Watcher.new excluded w.config sink)).2.ghost.log) :
    NothingLost (run duration w (Watcher.new excluded w.config sink)).2.ghost.log := by
  refine Drain.runRules.run duration ?_ hattentive
  have hbegan : NothingLost [⟨.started, false⟩] := by
    refine NothingLost.cons ⟨fun later rest key t flag heq => ?_, fun later rest flag heq => ?_⟩
      (by rintro _ _ ⟨⟩) (by rintro ⟨⟩) <;> cases later <;> cases heq
  refine ⟨⟨rfl, by rintro ⟨⟩, fun _ => trivial⟩, fun _ => ⟨hbegan, ?_, by rintro _ ⟨⟩, ?_⟩⟩
  · rintro key t ⟨pass, hpass, -⟩
    cases hpass
  · exact ⟨by rintro _ ⟨⟩, by rintro _ ⟨⟩⟩

/-- Nothing is submitted while the walk visits a file. -/
instance failingOpen_attentive : Fact (Attentive (run none World.failingOpen
    (Watcher.new [] World.failingOpen.config
      { healthFile := false, eventLog := false })).2.ghost.log) :=
  ⟨by decide +kernel⟩

/-- A run in which nothing is submitted while the walk visits a file. -/
theorem no_drained_event_lost_failingOpen :
    NothingLost (run none World.failingOpen (Watcher.new [] World.failingOpen.config
      { healthFile := false, eventLog := false })).2.ghost.log :=
  no_drained_event_lost World.failingOpen [] _ none failingOpen_attentive.out

/-- Whether the moment drains the path. -/
def Moment.drains (key : Bytes) (t : Nat) : Moment → Bool
  | .drained k t' => decide (k = key ∧ t' = t)
  | _ => false

/-- Whether a pass has ended that owed the path. -/
def lost (key : Bytes) (t : Nat) : List LogEntry → Bool
  | [] => false
  | e :: rest =>
      (match e.moment, currentPass rest with
        | .passEnded, some pass =>
            pass.any (fun e => e.moment.drains key t) &&
              pass.all fun e => !e.moment.serves key t
        | _, _ => false) || lost key t rest

theorem NothingLost.not_lost {log : List LogEntry} (h : NothingLost log) (key : Bytes) (t : Nat) :
    lost key t log = false := by
  have hsuffix : ∀ later rest, log = later ++ rest → lost key t rest = false := by
    intro later rest
    induction rest generalizing later with
    | nil => exact fun _ => rfl
    | cons e rest ih =>
        intro heq
        rw [lost, ih (later ++ [e]) (by simp [heq]), Bool.or_false]
        split
        · rename_i pass hmoment hpass
          obtain ⟨m, flag⟩ := e
          obtain rfl : m = .passEnded := hmoment
          by_contra howed
          rw [Bool.not_eq_false, Bool.and_eq_true, List.any_eq_true, List.all_eq_true] at howed
          obtain ⟨⟨d, hd, hdrains⟩, hserves⟩ := howed
          refine h.served later rest flag heq key t ⟨pass, hpass, ⟨d, hd, ?_⟩, fun e he => ?_⟩
          · cases hm : d.moment with
            | drained k t' =>
                rw [hm] at hdrains
                obtain ⟨rfl, rfl⟩ := of_decide_eq_true hdrains
                rfl
            | _ =>
                rw [hm] at hdrains
                cases hdrains
          · simpa using hserves e he
        · rfl
  exact hsuffix [] log rfl

/-- A world in which the file that the inventory visits changes after it was recorded. -/
def World.changingFile : World :=
  { World.failingDrain with
    threads := fun tick =>
      if tick = 10 then [.submit 0 (str "/r/a") .closedAfterWrite false] else [] }

/-- In its session a pass ends that owes the event. -/
instance changingFile_lost : Fact (lost (World.changingFile.host.snapshotPathKey (str "/r/a")) 10
    (run (some 1) World.changingFile (Watcher.new [] World.changingFile.config
      { healthFile := false, eventLog := false })).2.ghost.log = true) :=
  ⟨by decide +kernel⟩

/-- The drain inside the inventory takes the event of the visited file, which the
inventory does not open, off the queue. -/
theorem drained_event_lost :
    ¬ ∀ (w : World) (excluded : List Str) (sink : WatchEvidenceSink) (duration : Option ℚ),
      NothingLost (run duration w (Watcher.new excluded w.config sink)).2.ghost.log := by
  intro h
  have hkept := (h World.changingFile [] { healthFile := false, eventLog := false }
    (some 1)).not_lost (World.changingFile.host.snapshotPathKey (str "/r/a")) 10
  exact absurd (changingFile_lost.out.symm.trans hkept) nofun

end ZsecShield.Watch
