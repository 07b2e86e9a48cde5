import ZsecShield.Watch.Deadline

/-!
# The quiet period

`due` shall leave a path alone until its events have been quiet for the debounce time.
`submit` writes the due time with the present reading of the clock and `ingest` with the
older reading of the raw event, so a raw event that is merged late takes back the delay of
a newer one.  `InOrder` says when a moment does nothing of the kind.
-/

namespace ZsecShield.Watch.Timeline

open DebouncedPathQueue
open Text (Str str)

variable (τ : Timeline)

/-- An event of the path is submitted at moment `i`. -/
def Submits (i : Nat) (key : Str) : Prop :=
  ∃ path eventType isDirectory, τ.action i = .submit path eventType isDirectory ∧
    τ.host.pathKey path = key

/-- An immediate event was coalesced into the path. -/
def Immediate (p : PendingPath) : Prop := ∃ eventType ∈ p.eventTypes, eventType.immediate = true

/-- A raw event of the path waits at moment `n`. -/
def Waits (n : Nat) (key : Str) : Prop :=
  ∃ event ∈ (τ.queue n).queue, τ.host.pathKey event.path = key

/-- The path may be returned at moment `n`: an immediate event was coalesced into it, its latest
event is as old as the debounce time, or its first observation is as old as the cap. -/
def Quiet (n : Nat) (key : Str) (p : PendingPath) : Prop :=
  Immediate p ∨ (∀ i < n, τ.Submits i key → τ.debounceSeconds ≤ τ.clock n - τ.clock i) ∨
    max 2 τ.debounceSeconds ≤ τ.clock n - p.firstSeenAt

/-- What `due` returns at moment `n` may be returned. -/
def ReturnsQuiet (n : Nat) : Prop :=
  ∀ maximum, τ.action n = .due maximum → ∀ key p,
    (key, p) ∈ (τ.queue n).taken (τ.clock n) maximum → τ.Quiet n key p

/-- Moment `n` keeps the events of a path in the order of their submission: an event is not
dropped while an older one of its path waits, an event is not merged behind one that was
submitted later, and no event of a due path still waits. -/
def InOrder (n : Nat) : Prop :=
  match τ.action n with
  | .submit path _ _ => (τ.queue n).find (τ.host.pathKey path) = none →
      τ.maxEvents ≤ (τ.queue n).pending.length + (τ.queue n).queue.length →
        ¬ τ.Waits n (τ.host.pathKey path)
  | .ingest => ∀ event rest p, (τ.queue n).queue = event :: rest →
      (τ.queue n).find (τ.host.pathKey event.path) = some p → ¬ Immediate p →
        event.eventType.immediate = false → p.lastSubmitted ≤ event.stamp
  | .due _ => ∀ key p, (τ.queue n).find key = some p → p.dueAt ≤ τ.clock n → ¬ τ.Waits n key
  | .clearOverflow => True

/-- Every event of the path that was submitted before moment `n` is behind its pending path or
behind a raw event that waits. -/
def Covered (n : Nat) (key : Str) (i : Nat) : Prop :=
  (∃ p, (τ.queue n).find key = some p ∧ i ≤ p.lastSubmitted) ∨
    ∃ event ∈ (τ.queue n).queue, τ.host.pathKey event.path = key ∧ i ≤ event.stamp

/-- The path is pending or has a raw event. -/
def Tracked (n : Nat) (key : Str) : Prop :=
  (∃ p, (τ.queue n).find key = some p) ∨ τ.Waits n key

/-- What holds at moment `n` of a run in order. -/
structure Ordered (n : Nat) : Prop where
  raw : ∀ event ∈ (τ.queue n).queue, event.observedAt = τ.clock event.stamp ∧ event.stamp < n
  watched : ∀ key, τ.Tracked n key → τ.Watched key
  pending : ∀ key p, (τ.queue n).find key = some p → p.lastSubmitted < n ∧
    (¬ Immediate p → min (τ.clock p.lastSubmitted + τ.debounceSeconds)
      (p.firstSeenAt + τ.cap) ≤ p.dueAt)
  covered : ∀ key, τ.Tracked n key → ∀ i < n, τ.Submits i key → τ.Covered n key i

theorem mem_merge (eventType : EventType) (observedAt : ℚ) (i : Nat) (p : PendingPath) :
    eventType ∈ (τ.merge eventType observedAt i p).eventTypes := by
  simp only [merge]
  split
  · assumption
  · exact List.mem_append_right _ List.mem_cons_self

theorem immediate_merge {p : PendingPath} (h : Immediate p) (eventType : EventType) (observedAt : ℚ)
    (i : Nat) : Immediate (τ.merge eventType observedAt i p) := by
  obtain ⟨e, he, himmediate⟩ := h
  refine ⟨e, ?_, himmediate⟩
  simp only [merge]
  split
  · exact he
  · exact List.mem_append_left _ he

/-- A path that is written in order keeps its due time behind the quiet period. -/
theorem merge_pending {n i : Nat} (eventType : EventType) {p : PendingPath} (hi : i < n)
    (hlast : p.lastSubmitted < n)
    (horder : ¬ Immediate p → eventType.immediate = false → p.lastSubmitted ≤ i) :
    (τ.merge eventType (τ.clock i) i p).lastSubmitted < n ∧
      (¬ Immediate (τ.merge eventType (τ.clock i) i p) →
        min (τ.clock (τ.merge eventType (τ.clock i) i p).lastSubmitted + τ.debounceSeconds)
          (p.firstSeenAt + τ.cap) ≤ (τ.merge eventType (τ.clock i) i p).dueAt) := by
  refine ⟨max_lt hlast hi, fun hnot => ?_⟩
  have hold : ¬ Immediate p := fun h => hnot (τ.immediate_merge h _ _ _)
  have htype : eventType.immediate = false := by
    by_contra h
    exact hnot ⟨eventType, τ.mem_merge _ _ _ _, by simpa using h⟩
  have hmax : max p.lastSubmitted i = i := max_eq_right (horder hold htype)
  simp only [merge, htype, hmax, Bool.false_eq_true, if_false]
  exact le_rfl

variable {τ}

/-! ## One moment -/

/-- A turn without a submission of its own that keeps the coverage of a tracked path. -/
theorem Ordered.covered_step {n : Nat} (h : τ.Ordered n) {key : Str} (htracked : τ.Tracked n key)
    (hsubmit : ¬ τ.Submits n key) (hkeep : ∀ i, τ.Covered n key i → τ.Covered (n + 1) key i) :
    ∀ i < n + 1, τ.Submits i key → τ.Covered (n + 1) key i := by
  intro i hi hi'
  obtain hi | rfl := Nat.lt_succ_iff_lt_or_eq.1 hi
  · exact hkeep i (h.covered key htracked i hi hi')
  · exact absurd hi' hsubmit

theorem not_submits {n : Nat} {action : QueueAction} (haction : τ.action n = action)
    (h : ∀ path eventType isDirectory, action ≠ .submit path eventType isDirectory) (key : Str) :
    ¬ τ.Submits n key := by
  rintro ⟨path, eventType, isDirectory, hsubmit, -⟩
  exact h path eventType isDirectory (haction.symm.trans hsubmit)

theorem submits_iff {n : Nat} {path : Path} {eventType : EventType} {isDirectory : Bool}
    (haction : τ.action n = .submit path eventType isDirectory) (key : Str) :
    τ.Submits n key ↔ τ.host.pathKey path = key := by
  constructor
  · rintro ⟨path', eventType', isDirectory', haction', hkey⟩
    cases haction.symm.trans haction'
    exact hkey
  · exact fun hkey => ⟨path, eventType, isDirectory, haction, hkey⟩

/-- A turn that leaves the raw events and the map alone. -/
theorem Ordered.same {n : Nat} (h : τ.Ordered n)
    (hqueue : (τ.queue (n + 1)).queue = (τ.queue n).queue)
    (hfind : (τ.queue (n + 1)).find = (τ.queue n).find)
    (hsubmit : ∀ key, τ.Tracked n key → ¬ τ.Submits n key) : τ.Ordered (n + 1) := by
  have htracked : ∀ key, τ.Tracked (n + 1) key → τ.Tracked n key := by
    intro key htracked
    simpa only [Tracked, Waits, hqueue, hfind] using htracked
  refine ⟨fun event hevent => ?_, fun key hkey => h.watched key (htracked key hkey),
    fun key p hp => ?_, fun key hkey => ?_⟩
  · rw [hqueue] at hevent
    exact ⟨(h.raw event hevent).1, (h.raw event hevent).2.trans n.lt_succ_self⟩
  · rw [hfind] at hp
    exact ⟨(h.pending key p hp).1.trans n.lt_succ_self, (h.pending key p hp).2⟩
  · refine h.covered_step (htracked key hkey) (hsubmit key (htracked key hkey)) fun i hi => ?_
    simpa only [Covered, hqueue, hfind] using hi

theorem Ordered.coalesced {n : Nat} (h : τ.Ordered n) {path : Path} {eventType : EventType}
    {isDirectory : Bool} {p : PendingPath}
    (haction : τ.action n = .submit path eventType isDirectory)
    (hp : (τ.queue n).find (τ.host.pathKey path) = some p)
    (hqueue : (τ.queue (n + 1)).queue = (τ.queue n).queue)
    (hfind : (τ.queue (n + 1)).find = Function.update (τ.queue n).find (τ.host.pathKey path)
      (some (τ.merge eventType (τ.clock n) n p))) : τ.Ordered (n + 1) := by
  have htracked : ∀ key, τ.Tracked (n + 1) key → τ.Tracked n key := by
    intro key htracked
    by_cases hkey : key = τ.host.pathKey path
    · exact .inl ⟨p, hkey ▸ hp⟩
    · simpa only [Tracked, Waits, hqueue, hfind, Function.update_of_ne hkey] using htracked
  refine ⟨fun event hevent => ?_, fun key hkey => h.watched key (htracked key hkey),
    fun key p' hp' => ?_, fun key hkey => ?_⟩
  · rw [hqueue] at hevent
    exact ⟨(h.raw event hevent).1, (h.raw event hevent).2.trans n.lt_succ_self⟩
  · rw [hfind] at hp'
    by_cases hkey : key = τ.host.pathKey path
    · subst hkey
      rw [Function.update_self] at hp'
      cases hp'
      have hlast : p.lastSubmitted < n := (h.pending _ p hp).1
      exact τ.merge_pending eventType n.lt_succ_self (hlast.trans n.lt_succ_self)
        fun _ _ => hlast.le
    · rw [Function.update_of_ne hkey] at hp'
      exact ⟨(h.pending key p' hp').1.trans n.lt_succ_self, (h.pending key p' hp').2⟩
  · by_cases hkey' : key = τ.host.pathKey path
    · subst hkey'
      intro i hi _
      refine .inl ⟨τ.merge eventType (τ.clock n) n p, ?_, ?_⟩
      · rw [hfind, Function.update_self]
      · exact le_max_of_le_right (Nat.lt_succ_iff.1 hi)
    · refine h.covered_step (htracked key hkey)
        (fun hsubmit => hkey' ((submits_iff haction key).1 hsubmit).symm) fun i hi => ?_
      simpa only [Covered, hqueue, hfind, Function.update_of_ne hkey'] using hi

theorem Ordered.queued {n : Nat} (h : τ.Ordered n) {path : Path} {eventType : EventType}
    {isDirectory : Bool} (haction : τ.action n = .submit path eventType isDirectory)
    (hwatched : τ.Watched (τ.host.pathKey path))
    (hqueue : (τ.queue (n + 1)).queue =
      (τ.queue n).queue ++ [⟨path, eventType, isDirectory, τ.clock n, n⟩])
    (hfind : (τ.queue (n + 1)).find = (τ.queue n).find) : τ.Ordered (n + 1) := by
  have htracked : ∀ key, key ≠ τ.host.pathKey path → τ.Tracked (n + 1) key → τ.Tracked n key := by
    rintro key hkey (⟨p, hp⟩ | ⟨event, hevent, rfl⟩)
    · exact .inl ⟨p, hfind ▸ hp⟩
    · rw [hqueue] at hevent
      obtain hevent | hevent := List.mem_append.1 hevent
      · exact .inr ⟨event, hevent, rfl⟩
      · obtain rfl := List.mem_singleton.1 hevent
        exact absurd rfl hkey
  refine ⟨fun event hevent => ?_, fun key hkey => ?_, fun key p hp => ?_, fun key hkey => ?_⟩
  · rw [hqueue] at hevent
    obtain hevent | hevent := List.mem_append.1 hevent
    · exact ⟨(h.raw event hevent).1, (h.raw event hevent).2.trans n.lt_succ_self⟩
    · obtain rfl := List.mem_singleton.1 hevent
      exact ⟨rfl, n.lt_succ_self⟩
  · by_cases hkey' : key = τ.host.pathKey path
    · exact hkey' ▸ hwatched
    · exact h.watched key (htracked key hkey' hkey)
  · rw [hfind] at hp
    exact ⟨(h.pending key p hp).1.trans n.lt_succ_self, (h.pending key p hp).2⟩
  · by_cases hkey' : key = τ.host.pathKey path
    · subst hkey'
      intro i hi _
      refine .inr ⟨⟨path, eventType, isDirectory, τ.clock n, n⟩, ?_, rfl, Nat.lt_succ_iff.1 hi⟩
      rw [hqueue]
      exact List.mem_append_right _ List.mem_cons_self
    · refine h.covered_step (htracked key hkey' hkey)
        (fun hsubmit => hkey' ((submits_iff haction key).1 hsubmit).symm) fun i hi => ?_
      obtain ⟨p, hp, hi⟩ | ⟨event, hevent, hkey, hi⟩ := hi
      · exact .inl ⟨p, hfind ▸ hp, hi⟩
      · exact .inr ⟨event, hqueue ▸ List.mem_append_left _ hevent, hkey, hi⟩

/-- The oldest raw event goes into the map. -/
theorem Ordered.ingested {n : Nat} (h : τ.Ordered n) {event : QueuedPathEvent}
    {rest : List QueuedPathEvent} {p : PendingPath} (haction : τ.action n = .ingest)
    (hevent : (τ.queue n).queue = event :: rest)
    (hold : ∀ p₀, (τ.queue n).find (τ.host.pathKey event.path) = some p₀ → p₀ = p)
    (hlast : p.lastSubmitted < n)
    (horder : ¬ Immediate p → event.eventType.immediate = false → p.lastSubmitted ≤ event.stamp)
    (hqueue : (τ.queue (n + 1)).queue = rest)
    (hfind : (τ.queue (n + 1)).find = Function.update (τ.queue n).find (τ.host.pathKey event.path)
      (some (τ.merge event.eventType event.observedAt event.stamp p))) : τ.Ordered (n + 1) := by
  have hmem : event ∈ (τ.queue n).queue := hevent ▸ List.mem_cons_self
  have hrest : ∀ e ∈ rest, e ∈ (τ.queue n).queue := fun e he =>
    hevent ▸ List.mem_cons_of_mem _ he
  obtain ⟨hobserved, hstamp⟩ := h.raw event hmem
  have htracked : ∀ key, τ.Tracked (n + 1) key → τ.Tracked n key := by
    rintro key (⟨p', hp'⟩ | ⟨e, he, hkey⟩)
    · by_cases hkey : key = τ.host.pathKey event.path
      · exact .inr ⟨event, hmem, hkey.symm⟩
      · rw [hfind, Function.update_of_ne hkey] at hp'
        exact .inl ⟨p', hp'⟩
    · rw [hqueue] at he
      exact .inr ⟨e, hrest e he, hkey⟩
  refine ⟨fun e he => ?_, fun key hkey => h.watched key (htracked key hkey),
    fun key p' hp' => ?_, fun key hkey => ?_⟩
  · rw [hqueue] at he
    exact ⟨(h.raw e (hrest e he)).1, (h.raw e (hrest e he)).2.trans n.lt_succ_self⟩
  · rw [hfind] at hp'
    by_cases hkey : key = τ.host.pathKey event.path
    · subst hkey
      rw [Function.update_self] at hp'
      cases hp'
      rw [hobserved]
      exact τ.merge_pending event.eventType (hstamp.trans n.lt_succ_self)
        (hlast.trans n.lt_succ_self) horder
    · rw [Function.update_of_ne hkey] at hp'
      exact ⟨(h.pending key p' hp').1.trans n.lt_succ_self, (h.pending key p' hp').2⟩
  · have hsubmit : ¬ τ.Submits n key := not_submits haction (by simp) key
    refine h.covered_step (htracked key hkey) hsubmit fun i hi => ?_
    obtain ⟨p₀, hp₀, hi⟩ | ⟨e, he, hkey', hi⟩ := hi
    · by_cases hkey' : key = τ.host.pathKey event.path
      · subst hkey'
        obtain rfl := hold p₀ hp₀
        refine .inl ⟨τ.merge event.eventType event.observedAt event.stamp p₀, ?_,
          le_max_of_le_left hi⟩
        rw [hfind, Function.update_self]
      · refine .inl ⟨p₀, ?_, hi⟩
        rw [hfind, Function.update_of_ne hkey', hp₀]
    · rw [hevent] at he
      obtain rfl | he := List.mem_cons.1 he
      · subst hkey'
        refine .inl ⟨τ.merge e.eventType e.observedAt e.stamp p, ?_, le_max_of_le_right hi⟩
        rw [hfind, Function.update_self]
      · exact .inr ⟨e, hqueue ▸ he, hkey', hi⟩

theorem Ordered.taken {n : Nat} (h : τ.Ordered n) {maximum : Option Nat}
    (haction : τ.action n = .due maximum) (hin : τ.InOrder n)
    (hqueue : (τ.queue (n + 1)).queue = (τ.queue n).queue)
    (hfind : ∀ key, (τ.queue (n + 1)).find key =
      if key ∈ (τ.queue n).dueKeys (τ.clock n) maximum then none else (τ.queue n).find key) :
    τ.Ordered (n + 1) := by
  rw [InOrder, haction] at hin
  simp only at hin
  -- What `due` takes has no raw event, so it is not tracked any more.
  have hstays : ∀ key, τ.Tracked (n + 1) key →
      (τ.queue (n + 1)).find key = (τ.queue n).find key ∧ τ.Tracked n key := by
    intro key htracked
    by_cases hdue : key ∈ (τ.queue n).dueKeys (τ.clock n) maximum
    · obtain ⟨p, hp, hnow⟩ := find_of_mem_dueKeys (τ.sound n).nodup hdue
      obtain ⟨p', hp'⟩ | ⟨event, hevent, hkey⟩ := htracked
      · rw [hfind key, if_pos hdue] at hp'
        cases hp'
      · exact absurd ⟨event, hqueue ▸ hevent, hkey⟩ (hin key p hp hnow)
    · have hsame : (τ.queue (n + 1)).find key = (τ.queue n).find key := by
        rw [hfind key, if_neg hdue]
      refine ⟨hsame, ?_⟩
      simpa only [Tracked, Waits, hqueue, hsame] using htracked
  refine ⟨fun event hevent => ?_, fun key hkey => h.watched key (hstays key hkey).2,
    fun key p hp => ?_, fun key hkey => ?_⟩
  · rw [hqueue] at hevent
    exact ⟨(h.raw event hevent).1, (h.raw event hevent).2.trans n.lt_succ_self⟩
  · rw [(hstays key (.inl ⟨p, hp⟩)).1] at hp
    exact ⟨(h.pending key p hp).1.trans n.lt_succ_self, (h.pending key p hp).2⟩
  · obtain ⟨hsame, htracked⟩ := hstays key hkey
    refine h.covered_step htracked (not_submits haction (by simp) key) fun i hi => ?_
    simpa only [Covered, hqueue, hsame] using hi

theorem Ordered.step {n : Nat} (h : τ.Ordered n) (hin : τ.InOrder n) : τ.Ordered (n + 1) := by
  cases τ.turn n with
  | idle haction _ hqueue hfind =>
      refine h.same hqueue hfind fun key htracked => ?_
      rintro ⟨path, eventType, isDirectory, hsubmit, rfl⟩
      exact haction path eventType isDirectory hsubmit (h.watched _ htracked)
  | coalesced path eventType isDirectory p haction _ hp hqueue hfind =>
      exact h.coalesced haction hp hqueue hfind
  | dropped path eventType isDirectory haction _ hnone hfull hqueue hfind =>
      rw [InOrder, haction] at hin
      refine h.same hqueue hfind fun key htracked hsubmit => ?_
      obtain rfl := (submits_iff haction key).1 hsubmit
      obtain ⟨p, hp⟩ | hwaits := htracked
      · cases hnone.symm.trans hp
      · exact hin hnone hfull hwaits
  | queued path eventType isDirectory haction hwatched _ hqueue hfind =>
      exact h.queued haction hwatched hqueue hfind
  | entered event rest haction hevent hnone hqueue hfind =>
      have hstamp : event.stamp < n := (h.raw event (hevent ▸ List.mem_cons_self)).2
      refine h.ingested haction hevent (fun p₀ hp₀ => ?_) hstamp (fun _ _ => le_rfl) hqueue hfind
      cases hnone.symm.trans hp₀
  | merged event rest p haction hevent hp hqueue hfind =>
      rw [InOrder, haction] at hin
      refine h.ingested haction hevent (fun p₀ hp₀ => ?_) (h.pending _ p hp).1
        (hin event rest p hevent hp) hqueue hfind
      cases hp.symm.trans hp₀
      rfl
  | taken maximum haction hqueue hfind => exact h.taken haction hin hqueue hfind

/-! ## A run -/

theorem ordered {n : Nat} (hin : ∀ i < n, τ.InOrder i) : τ.Ordered n := by
  induction n with
  | zero =>
      refine ⟨fun event hevent => ?_, fun key hkey => ?_, fun key p hp => ?_, fun key _ i hi => ?_⟩
      · cases hevent
      · obtain ⟨p, hp⟩ | ⟨event, hevent, -⟩ := hkey
        · cases hp
        · cases hevent
      · cases hp
      · cases hi
  | succ n ih => exact (ih fun i hi => hin i (hi.trans n.lt_succ_self)).step (hin n n.lt_succ_self)

/-- A host on which every path is its own key. -/
def plainHost : Host where
  pathKey := id
  isWithin := fun _ _ => false
  digest := fun _ => []
  normcase := id
  casefold := id
  text := fun _ => []

def lateClock : Nat → ℚ
  | 0 => 0
  | 1 | 2 => 1 / 10
  | 3 | 4 => 9 / 10
  | _ => 11 / 10

theorem lateClock_monotone : Monotone lateClock := by
  refine monotone_nat_of_le_succ fun n => ?_
  match n with
  | 0 | 1 | 2 | 3 | 4 => decide +kernel
  | n + 5 => exact le_rfl

/-- Two raw events of one path.  Between their merges a third event is coalesced. -/
def late : Timeline where
  host := plainHost
  excluded := []
  debounceSeconds := 1
  maxEvents := 10
  clock := lateClock
  monotone := lateClock_monotone
  action
    | 0 | 1 | 3 => .submit (str "/w/a") .modified false
    | 2 | 4 => .ingest
    | 5 => .due none
    | _ => .clearOverflow

theorem late_taken : (late.queue 5).taken (late.clock 5) none =
    [(str "/w/a", ⟨str "/w/a", [.modified], 0, 11 / 10, 3⟩)] := by
  decide +kernel

/-- One event, which `due` finds quiet. -/
def calm : Timeline where
  host := plainHost
  excluded := []
  debounceSeconds := 1
  maxEvents := 10
  clock := Nat.cast
  monotone := Nat.mono_cast
  action
    | 0 => .submit (str "/w/a") .modified false
    | 1 => .ingest
    | 2 => .due none
    | _ => .clearOverflow

theorem calm_inOrder (i : Nat) (hi : i ≤ 2) : calm.InOrder i := by
  match i with
  | 0 =>
      intro _ hfull
      exact absurd hfull (by decide)
  | 1 =>
      intro event rest p hqueue hp
      cases hp
  | 2 =>
      rintro key p - - ⟨event, hevent, -⟩
      cases hevent

end ZsecShield.Watch.Timeline
