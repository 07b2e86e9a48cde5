import ZsecShield.Watch.Timeline

/-!
# The coalescing deadline

Every event moves the due time of its path, from two places and with two clocks.  No move
takes it past the cap behind the first observation, unless the clock is past that already.
-/

namespace ZsecShield.Watch.Timeline

open DebouncedPathQueue
open Text (Str)

variable (τ : Timeline)

/-- The longest time for which events can keep a path waiting. -/
def cap : ℚ := max 2 τ.debounceSeconds

/-- What holds of every observation and every due time at moment `n`. -/
structure Timely (n : Nat) : Prop where
  observed : ∀ event ∈ (τ.queue n).queue, event.observedAt ≤ τ.clock n
  due : ∀ key p, (τ.queue n).find key = some p →
    p.dueAt ≤ max (τ.clock n) (p.firstSeenAt + τ.cap)

/-- An event that has been observed leaves the due time within the cap or behind the clock. -/
theorem merge_dueAt_le {eventType : EventType} {observedAt now : ℚ} (h : observedAt ≤ now) (i : Nat)
    (p : PendingPath) : (τ.merge eventType observedAt i p).dueAt ≤
      max now ((τ.merge eventType observedAt i p).firstSeenAt + τ.cap) := by
  simp only [merge]
  split
  · exact le_max_of_le_left h
  · exact le_max_of_le_right (min_le_right _ _)

variable {τ} in
/-- The clock goes on and the bound stays. -/
theorem Timely.later {n : Nat} (h : τ.Timely n) {key : Str} {p : PendingPath}
    (hp : (τ.queue n).find key = some p) :
    p.dueAt ≤ max (τ.clock (n + 1)) (p.firstSeenAt + τ.cap) :=
  (h.due key p hp).trans (max_le_max (τ.monotone n.le_succ) le_rfl)

variable {τ} in
/-- A turn that writes one pending path. -/
theorem Timely.update {n : Nat} (h : τ.Timely n) {key : Str} {p₀ : PendingPath}
    (hfind : (τ.queue (n + 1)).find = Function.update (τ.queue n).find key (some p₀))
    (hp₀ : p₀.dueAt ≤ max (τ.clock n) (p₀.firstSeenAt + τ.cap)) (k : Str) (p : PendingPath)
    (hp : (τ.queue (n + 1)).find k = some p) :
    p.dueAt ≤ max (τ.clock (n + 1)) (p.firstSeenAt + τ.cap) := by
  rw [hfind] at hp
  by_cases hk : k = key
  · subst hk
    rw [Function.update_self] at hp
    cases hp
    exact hp₀.trans (max_le_max (τ.monotone n.le_succ) le_rfl)
  · rw [Function.update_of_ne hk] at hp
    exact h.later hp

theorem timely (n : Nat) : τ.Timely n := by
  induction n with
  | zero =>
      constructor
      · intro event hevent
        cases hevent
      · intro key p hp
        cases hp
  | succ n ih =>
      have hclock : τ.clock n ≤ τ.clock (n + 1) := τ.monotone n.le_succ
      have hold : ∀ event ∈ (τ.queue n).queue, event.observedAt ≤ τ.clock (n + 1) :=
        fun event hevent => (ih.observed event hevent).trans hclock
      cases τ.turn n with
      | idle _ _ hqueue hfind =>
          refine ⟨hqueue ▸ hold, fun key p hp => ?_⟩
          rw [hfind] at hp
          exact ih.later hp
      | coalesced path eventType isDirectory p _ _ _ hqueue hfind =>
          exact ⟨hqueue ▸ hold, ih.update hfind (τ.merge_dueAt_le le_rfl n p)⟩
      | dropped path eventType isDirectory _ _ _ _ hqueue hfind =>
          refine ⟨hqueue ▸ hold, fun key p hp => ?_⟩
          rw [hfind] at hp
          exact ih.later hp
      | queued path eventType isDirectory _ _ _ hqueue hfind =>
          refine ⟨fun event hevent => ?_, fun key p hp => ?_⟩
          · rw [hqueue] at hevent
            obtain hevent | hevent := List.mem_append.1 hevent
            · exact hold event hevent
            · obtain rfl := List.mem_singleton.1 hevent
              exact hclock
          · rw [hfind] at hp
            exact ih.later hp
      | entered event rest _ hevent _ hqueue hfind =>
          have hobserved : event.observedAt ≤ τ.clock n :=
            ih.observed event (hevent ▸ List.mem_cons_self)
          refine ⟨fun e he => hold e ?_, ih.update hfind (τ.merge_dueAt_le hobserved _ _)⟩
          rw [hqueue] at he
          exact hevent ▸ List.mem_cons_of_mem _ he
      | merged event rest p _ hevent _ hqueue hfind =>
          have hobserved : event.observedAt ≤ τ.clock n :=
            ih.observed event (hevent ▸ List.mem_cons_self)
          refine ⟨fun e he => hold e ?_, ih.update hfind (τ.merge_dueAt_le hobserved _ _)⟩
          rw [hqueue] at he
          exact hevent ▸ List.mem_cons_of_mem _ he
      | taken maximum _ hqueue hfind =>
          refine ⟨hqueue ▸ hold, fun key p hp => ?_⟩
          rw [hfind key] at hp
          split at hp
          · cases hp
          · exact ih.later hp

/-! ## The first observation -/

@[simp] theorem merge_firstSeenAt (eventType : EventType) (observedAt : ℚ) (i : Nat)
    (p : PendingPath) : (τ.merge eventType observedAt i p).firstSeenAt = p.firstSeenAt := rfl

variable {τ} in
/-- A turn that coalesces an event into a pending path. -/
theorem firstSeenAt_update {n : Nat} {key k : Str} {p p₀ p₁ p' : PendingPath}
    (hfind : (τ.queue (n + 1)).find = Function.update (τ.queue n).find key (some p₁))
    (hp₀ : (τ.queue n).find key = some p₀) (hfirst : p₁.firstSeenAt = p₀.firstSeenAt)
    (hp : (τ.queue n).find k = some p) (hp' : (τ.queue (n + 1)).find k = some p') :
    p'.firstSeenAt = p.firstSeenAt := by
  rw [hfind] at hp'
  by_cases hk : k = key
  · subst hk
    rw [Function.update_self] at hp'
    cases hp'
    cases hp₀.symm.trans hp
    exact hfirst
  · rw [Function.update_of_ne hk] at hp'
    cases hp.symm.trans hp'
    rfl

theorem firstSeenAt_step {n : Nat} {key : Str} {p p' : PendingPath}
    (hp : (τ.queue n).find key = some p) (hp' : (τ.queue (n + 1)).find key = some p') :
    p'.firstSeenAt = p.firstSeenAt := by
  have hsame : (τ.queue (n + 1)).find = (τ.queue n).find → p'.firstSeenAt = p.firstSeenAt := by
    intro hfind
    rw [hfind] at hp'
    cases hp.symm.trans hp'
    rfl
  cases τ.turn n with
  | idle _ _ _ hfind => exact hsame hfind
  | coalesced path eventType isDirectory p₀ _ _ hp₀ _ hfind =>
      exact firstSeenAt_update hfind hp₀ (τ.merge_firstSeenAt _ _ _ _) hp hp'
  | dropped _ _ _ _ _ _ _ _ hfind => exact hsame hfind
  | queued _ _ _ _ _ _ _ hfind => exact hsame hfind
  | entered event rest _ _ hnone _ hfind =>
      -- The path that enters is not the pending one.
      rw [hfind] at hp'
      have hk : key ≠ τ.host.pathKey event.path := by
        rintro rfl
        cases hp.symm.trans hnone
      rw [Function.update_of_ne hk] at hp'
      cases hp.symm.trans hp'
      rfl
  | merged event rest p₀ _ _ hp₀ _ hfind =>
      exact firstSeenAt_update hfind hp₀ (τ.merge_firstSeenAt _ _ _ _) hp hp'
  | taken maximum _ _ hfind =>
      rw [hfind key] at hp'
      split at hp'
      · cases hp'
      · cases hp.symm.trans hp'
        rfl

/-- While a path stays in the map, the time of its first observation stays. -/
theorem firstSeenAt_eq {i j : Nat} {key : Str} {p p' : PendingPath} (hij : i ≤ j)
    (hstays : ∀ k, i ≤ k → k ≤ j → key ∈ (τ.queue k).keys)
    (hp : (τ.queue i).find key = some p) (hp' : (τ.queue j).find key = some p') :
    p'.firstSeenAt = p.firstSeenAt := by
  induction j, hij using Nat.le_induction generalizing p' with
  | base =>
      cases hp.symm.trans hp'
      rfl
  | succ j hij ih =>
      obtain ⟨p₁, hp₁⟩ := find_of_mem (hstays j hij j.le_succ)
      have hbefore : p₁.firstSeenAt = p.firstSeenAt :=
        ih (fun k hi hj => hstays k hi (hj.trans j.le_succ)) hp₁
      exact (τ.firstSeenAt_step hp₁ hp').trans hbefore

/-- Events cannot postpone a scan: the first observation of a path is fixed while the path is
pending, and once it is as old as the cap, a `due` without a maximum returns the path. -/
theorem never_postponed (τ : Timeline) :
    (∀ i j key p p', i ≤ j → (∀ k, i ≤ k → k ≤ j → key ∈ (τ.queue k).keys) →
      (τ.queue i).find key = some p → (τ.queue j).find key = some p' →
        p'.firstSeenAt = p.firstSeenAt) ∧
    ∀ n key p, τ.action n = .due none → (τ.queue n).find key = some p →
      max 2 τ.debounceSeconds ≤ τ.clock n - p.firstSeenAt →
        p ∈ ((τ.queue n).takeDue (τ.clock n) none).1 := by
  refine ⟨fun i j key p p' hij hstays hp hp' => τ.firstSeenAt_eq hij hstays hp hp', ?_⟩
  intro n key p _ hp hold
  have hbound : p.dueAt ≤ max (τ.clock n) (p.firstSeenAt + τ.cap) := (τ.timely n).due key p hp
  have hcap : p.firstSeenAt + τ.cap ≤ τ.clock n := le_sub_iff_add_le'.1 hold
  have hdue : p.dueAt ≤ τ.clock n := hbound.trans (max_le le_rfl hcap)
  rw [takeDue_fst]
  exact List.mem_map_of_mem (mem_taken.2 ⟨mem_dueKeys hp hdue, hp⟩)

end ZsecShield.Watch.Timeline
