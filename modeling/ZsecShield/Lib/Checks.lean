import Mathlib.Tactic.Common

/-!
# Checks that stop at the first error

A validator is a chain of steps in `Except`.  Its result is taken apart step by step:
`bind_eq_ok` and `bind_eq_error` say what a chain that returned, or that failed, went through.
-/

namespace Checks

variable {ε α β γ : Type}

/-- Go on if the condition holds. -/
def require (c : Prop) [Decidable c] (e : ε) : Except ε Unit := if c then .ok () else .error e

@[simp] theorem require_eq_ok {c : Prop} [Decidable c] {e : ε} {u : Unit} :
    require c e = .ok u ↔ c := by
  unfold require
  split <;> simp_all

@[simp] theorem require_eq_error {c : Prop} [Decidable c] {e e' : ε} :
    require c e = .error e' ↔ ¬ c ∧ e = e' := by
  unfold require
  split <;> simp_all

/-- The value, if the condition holds. -/
def accept (c : Prop) [Decidable c] (e : ε) (a : α) : Except ε α := if c then .ok a else .error e

@[simp] theorem accept_eq_ok {c : Prop} [Decidable c] {e : ε} {a b : α} :
    accept c e a = .ok b ↔ c ∧ a = b := by
  unfold accept
  split <;> simp_all

@[simp] theorem accept_eq_error {c : Prop} [Decidable c] {e e' : ε} {a : α} :
    accept c e a = .error e' ↔ ¬ c ∧ e = e' := by
  unfold accept
  split <;> simp_all

/-- The value of an option that has one. -/
def fromOption (o : Option α) (e : ε) : Except ε α :=
  match o with
  | some a => .ok a
  | none => .error e

@[simp] theorem fromOption_eq_ok {o : Option α} {e : ε} {a : α} :
    fromOption o e = .ok a ↔ o = some a := by
  cases o <;> simp [fromOption]

@[simp] theorem fromOption_eq_error {o : Option α} {e e' : ε} :
    fromOption o e = .error e' ↔ o = none ∧ e = e' := by
  cases o <;> simp [fromOption]

theorem require_pos {c : Prop} [Decidable c] (h : c) (e : ε) : require c e = .ok () := if_pos h

theorem require_neg {c : Prop} [Decidable c] (h : ¬ c) (e : ε) : require c e = .error e := if_neg h

theorem bind_eq_ok {x : Except ε α} {f : α → Except ε β} {b : β} :
    (x >>= f) = .ok b ↔ ∃ a, x = .ok a ∧ f a = .ok b := by
  cases x with
  | error e => exact ⟨nofun, fun ⟨_, h, _⟩ => nomatch h⟩
  | ok a => exact ⟨fun h => ⟨a, rfl, h⟩, fun ⟨_, h, h'⟩ => by cases h; exact h'⟩

theorem bind_eq_error {x : Except ε α} {f : α → Except ε β} {e : ε} :
    (x >>= f) = .error e ↔ x = .error e ∨ ∃ a, x = .ok a ∧ f a = .error e := by
  cases x with
  | error e' =>
      refine ⟨fun h => .inl (by cases h; rfl), fun h => ?_⟩
      obtain h | ⟨_, h, _⟩ := h
      · cases h
        rfl
      · cases h
  | ok a =>
      exact ⟨fun h => .inr ⟨a, rfl, h⟩, fun h => h.elim nofun fun ⟨_, h, h'⟩ => by
        cases h; exact h'⟩

theorem map_eq_ok {x : Except ε α} {f : α → β} {b : β} :
    x.map f = .ok b ↔ ∃ a, x = .ok a ∧ f a = b := by
  cases x with
  | error e => exact iff_of_false nofun nofun
  | ok a => simp [Except.map]

/-- A check of every element. -/
theorem forM_eq_ok {f : α → Except ε Unit} {as : List α} :
    as.forM f = .ok () ↔ ∀ a ∈ as, f a = .ok () := by
  induction as with
  | nil => exact iff_of_true rfl (by simp)
  | cons a as ih =>
      rw [List.forall_mem_cons, ← ih]
      exact bind_eq_ok.trans ⟨fun ⟨_, h, h'⟩ => ⟨h, h'⟩, fun h => ⟨(), h⟩⟩

theorem bind_ok (a : α) (f : α → Except ε β) : (Except.ok a >>= f) = f a := rfl

/-- The results of a step for each element, with the index of the element. -/
def mapIdx (f : α → Nat → Except ε β) : Nat → List α → Except ε (List β)
  | _, [] => .ok []
  | i, a :: as => do
      let b ← f a i
      let bs ← mapIdx f (i + 1) as
      pure (b :: bs)

theorem mapIdx_forall {f : α → Nat → Except ε β} {P : α → Prop} {Q : β → Prop}
    (hf : ∀ a i b, f a i = .ok b → P a ∧ Q b) {as : List α} {i : Nat} {bs : List β}
    (h : mapIdx f i as = .ok bs) : (∀ a ∈ as, P a) ∧ ∀ b ∈ bs, Q b := by
  induction as generalizing i bs with
  | nil =>
      cases h
      exact ⟨by simp, by simp⟩
  | cons a as ih =>
      obtain ⟨b, hb, h⟩ := bind_eq_ok.1 h
      obtain ⟨bs', hbs, h⟩ := bind_eq_ok.1 h
      cases h
      obtain ⟨hP, hQ⟩ := hf a i b hb
      obtain ⟨hPs, hQs⟩ := ih hbs
      exact ⟨List.forall_mem_cons.2 ⟨hP, hPs⟩, List.forall_mem_cons.2 ⟨hQ, hQs⟩⟩

end Checks
