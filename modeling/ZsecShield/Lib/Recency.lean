import Mathlib.Data.List.Pairwise

/-!
# Lists without repetition

`firstOfEach key` keeps the first element with each key, and `front` puts an element in front of a
list that loses the element with its key.  A list of at most `n` elements that grows by `front` holds
the `n` keys that were put there last, the latest first (`take_firstOfEach_cons`).
-/

namespace Recency

variable {α κ : Type} [DecidableEq κ] {key : α → κ}

/-- The elements without a key. -/
def without (key : α → κ) (k : κ) (l : List α) : List α := l.filter fun b => key b ≠ k

/-- The first element with each key. -/
def firstOfEach (key : α → κ) : List α → List α
  | [] => []
  | a :: l => a :: without key (key a) (firstOfEach key l)

/-- Elements with different keys. -/
def Distinct (key : α → κ) (l : List α) : Prop := l.Pairwise fun a b => key a ≠ key b

@[simp] theorem mem_without {k : κ} {l : List α} {b : α} :
    b ∈ without key k l ↔ b ∈ l ∧ key b ≠ k := by
  rw [without, List.mem_filter, decide_eq_true_eq]

theorem without_cons_of_eq {a : α} {k : κ} (h : key a = k) (l : List α) :
    without key k (a :: l) = without key k l := by
  rw [without, List.filter_cons_of_neg (by simp [h]), without]

theorem without_cons_of_ne {a : α} {k : κ} (h : key a ≠ k) (l : List α) :
    without key k (a :: l) = a :: without key k l := by
  rw [without, List.filter_cons_of_pos (by simp [h]), without]

theorem without_eq_self {k : κ} {l : List α} (h : ∀ b ∈ l, key b ≠ k) : without key k l = l :=
  List.filter_eq_self.2 fun b hb => decide_eq_true (h b hb)

omit [DecidableEq κ] in
/-- An element is known by its key. -/
theorem Distinct.eq_of_key {l : List α} (h : Distinct key l) {a b : α} (ha : a ∈ l) (hb : b ∈ l)
    (hkey : key a = key b) : a = b := by
  have : Std.Symm fun a b : α => key a ≠ key b := ⟨fun _ _ hab => hab.symm⟩
  by_contra hne
  exact List.Pairwise.forall h ha hb hne hkey

theorem Distinct.cons_without {l : List α} (h : Distinct key l) (a : α) :
    Distinct key (a :: without key (key a) l) := by
  refine .cons (fun b hb => ?_) (h.filter _)
  exact (mem_without.1 hb).2.symm

theorem distinct_firstOfEach (l : List α) : Distinct key (firstOfEach key l) := by
  induction l with
  | nil => exact .nil
  | cons a l ih => exact ih.cons_without a

theorem firstOfEach_sublist (l : List α) : (firstOfEach key l).Sublist l := by
  induction l with
  | nil => exact .slnil
  | cons a l ih => exact (List.filter_sublist.trans ih).cons_cons a

theorem mem_map_firstOfEach {l : List α} {k : κ} :
    k ∈ (firstOfEach key l).map key ↔ k ∈ l.map key := by
  induction l with
  | nil => rfl
  | cons a l ih =>
      rw [firstOfEach, List.map_cons, List.map_cons, List.mem_cons, List.mem_cons, ← ih]
      by_cases hk : k = key a
      · simp [hk]
      · simp only [hk, false_or, List.mem_map, mem_without]
        constructor
        · rintro ⟨b, ⟨hb, -⟩, rfl⟩
          exact ⟨b, hb, rfl⟩
        · rintro ⟨b, hb, rfl⟩
          exact ⟨b, ⟨hb, hk⟩, rfl⟩

/-- Nothing is lost where no key is there twice. -/
theorem Distinct.firstOfEach_eq {l : List α} (h : Distinct key l) : firstOfEach key l = l := by
  induction l with
  | nil => rfl
  | cons a l ih =>
      obtain ⟨ha, hl⟩ := List.pairwise_cons.1 h
      rw [firstOfEach, ih hl, without_eq_self fun b hb => (ha b hb).symm]

/-! ## Putting an element in front -/

/-- The element in front of the others, from which the first one with its key is gone. -/
def front (key : α → κ) (a : α) (l : List α) : List α :=
  a :: l.eraseP fun b => key b = key a

/-- At most one element has a key. -/
theorem Distinct.eraseP_eq {l : List α} (h : Distinct key l) (k : κ) :
    l.eraseP (fun b => key b = k) = without key k l := by
  induction l with
  | nil => rfl
  | cons a l ih =>
      obtain ⟨ha, hl⟩ := List.pairwise_cons.1 h
      by_cases hk : key a = k
      · rw [without_cons_of_eq hk, without_eq_self fun b hb => hk ▸ (ha b hb).symm]
        simp [List.eraseP, hk]
      · rw [without_cons_of_ne hk, ← ih hl]
        simp [List.eraseP, hk]

theorem Distinct.front {l : List α} (h : Distinct key l) (a : α) :
    Distinct key (front key a l) := by
  rw [Recency.front, h.eraseP_eq]
  exact h.cons_without a

/-- What stands in the first places does not need the last one, if one element is left out. -/
theorem take_without_take {l : List α} (h : Distinct key l) (k : κ) (m : Nat) :
    (without key k (l.take (m + 1))).take m = (without key k l).take m := by
  induction l generalizing m with
  | nil => rfl
  | cons a l ih =>
      obtain ⟨ha, hl⟩ := List.pairwise_cons.1 h
      rw [List.take_succ_cons]
      by_cases hk : key a = k
      · have hrest : ∀ b ∈ l, key b ≠ k := fun b hb => hk ▸ (ha b hb).symm
        rw [without_cons_of_eq hk, without_cons_of_eq hk, without_eq_self hrest,
          without_eq_self fun b hb => hrest b (List.mem_of_mem_take hb), List.take_take,
          Nat.min_self]
      · rw [without_cons_of_ne hk, without_cons_of_ne hk]
        cases m with
        | zero => rfl
        | succ m => rw [List.take_succ_cons, List.take_succ_cons, ih hl m]

/-- The keys that were put in front last. -/
theorem take_firstOfEach_cons (a : α) (l : List α) (n : Nat) :
    (front key a ((firstOfEach key l).take n)).take n = (firstOfEach key (a :: l)).take n := by
  have hdistinct : Distinct key (firstOfEach key l) := distinct_firstOfEach l
  have htake : Distinct key ((firstOfEach key l).take n) := hdistinct.sublist (List.take_sublist n _)
  rw [front, htake.eraseP_eq, firstOfEach]
  cases n with
  | zero => rfl
  | succ m => rw [List.take_succ_cons, List.take_succ_cons, take_without_take hdistinct]

/-! ## Changing an element -/

theorem mem_modify {f : α → α} {l : List α} {i : Nat} {b : α} (h : b ∈ l.modify i f) :
    ∃ a ∈ l, b = a ∨ b = f a := by
  obtain ⟨j, hj, rfl⟩ := List.getElem_of_mem h
  rw [List.length_modify] at hj
  refine ⟨l[j], List.getElem_mem hj, ?_⟩
  rw [List.getElem_modify]
  split
  · exact .inr rfl
  · exact .inl rfl

end Recency
