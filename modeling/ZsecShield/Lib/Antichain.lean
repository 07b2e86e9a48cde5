import Mathlib.Data.List.Basic
import Mathlib.Data.List.Pairwise

/-!
# Greedy antichains

A list is read from the front, and an element is kept unless it lies below one that was kept.
When no element lies strictly below a later one, what is kept is an antichain that covers the
list, and it depends on the members of the list only.
-/

namespace Antichain

variable {α : Type*} (below : α → α → Prop) [DecidableRel below]

/-- A turn: keep an element that lies below none that was kept. -/
def keep (kept : List α) (c : α) : List α := if ∃ r ∈ kept, below c r then kept else kept ++ [c]

/-- The elements that are kept. -/
def prune (l : List α) : List α := l.foldl (keep below) []

/-- No element lies below a later one, unless that lies below it too. -/
def Descending (l : List α) : Prop := l.Pairwise fun a b => below a b → below b a

/-- Neither of two elements lies below the other. -/
def Apart (l : List α) : Prop := l.Pairwise fun a b => ¬ below a b ∧ ¬ below b a

/-- A partial order on the members of a list. -/
structure OrderedOn (l : List α) : Prop where
  refl : ∀ a ∈ l, below a a
  trans : ∀ a ∈ l, ∀ b ∈ l, ∀ c ∈ l, below a b → below b c → below a c
  antisymm : ∀ a ∈ l, ∀ b ∈ l, below a b → below b a → a = b

variable {below}

theorem subset_keep (kept : List α) (c : α) : kept ⊆ keep below kept c := by
  unfold keep
  split
  · exact List.Subset.refl _
  · exact List.subset_append_left _ _

theorem subset_foldl_keep (kept l : List α) : kept ⊆ l.foldl (keep below) kept := by
  induction l generalizing kept with
  | nil => exact List.Subset.refl _
  | cons c l ih => exact List.Subset.trans (subset_keep kept c) (ih (keep below kept c))

theorem foldl_keep_sublist (kept l : List α) : (l.foldl (keep below) kept).Sublist (kept ++ l) := by
  induction l generalizing kept with
  | nil =>
      rw [List.append_nil]
      exact List.Sublist.refl kept
  | cons c l ih =>
      refine (ih (keep below kept c)).trans ?_
      unfold keep
      split
      · exact (List.sublist_cons_self c l).append_left kept
      · rw [List.append_assoc]
        exact List.Sublist.refl _

theorem prune_sublist (l : List α) : (prune below l).Sublist l := foldl_keep_sublist [] l

/-- Every element lies below one that is kept. -/
theorem covered (kept : List α) {l : List α} (hrefl : ∀ a ∈ l, below a a) {c : α} (h : c ∈ l) :
    ∃ r ∈ l.foldl (keep below) kept, below c r := by
  induction l generalizing kept with
  | nil => cases h
  | cons a l ih =>
      obtain rfl | h := List.mem_cons.1 h
      · by_cases hbelow : ∃ r ∈ kept, below c r
        · obtain ⟨r, hr, hcr⟩ := hbelow
          exact ⟨r, subset_foldl_keep _ l (subset_keep kept c hr), hcr⟩
        · refine ⟨c, subset_foldl_keep _ l ?_, hrefl c List.mem_cons_self⟩
          rw [keep, if_neg hbelow]
          exact List.mem_append_right _ List.mem_cons_self
      · exact ih _ (fun a ha => hrefl a (List.mem_cons_of_mem _ ha)) h

theorem apart_foldl {kept l : List α} (hdescending : Descending below (kept ++ l))
    (hkept : Apart below kept) : Apart below (l.foldl (keep below) kept) := by
  induction l generalizing kept with
  | nil => exact hkept
  | cons c l ih =>
      have hcross : ∀ r ∈ kept, below r c → below c r := fun r hr =>
        (List.pairwise_append.1 hdescending).2.2 r hr c List.mem_cons_self
      rw [List.foldl_cons]
      by_cases hbelow : ∃ r ∈ kept, below c r
      · rw [keep, if_pos hbelow]
        refine ih (hdescending.sublist ?_) hkept
        exact (List.sublist_cons_self c l).append_left kept
      · rw [keep, if_neg hbelow]
        refine ih (by rw [List.append_assoc]; exact hdescending) ?_
        refine List.pairwise_append.2 ⟨hkept, List.pairwise_singleton _ _, fun r hr c' hc' => ?_⟩
        obtain rfl := List.mem_singleton.1 hc'
        exact ⟨fun h => hbelow ⟨r, hr, hcross r hr h⟩, fun h => hbelow ⟨r, hr, h⟩⟩

/-- What is kept is an antichain. -/
theorem apart_prune {l : List α} (h : Descending below l) : Apart below (prune below l) :=
  apart_foldl h List.Pairwise.nil

omit [DecidableRel below] in
theorem Apart.eq_of_below {l : List α} (h : Apart below l) {a b : α} (ha : a ∈ l) (hb : b ∈ l)
    (hab : below a b) : a = b := by
  have hsymm : Std.Symm fun a b => ¬ below a b ∧ ¬ below b a := ⟨fun _ _ h => ⟨h.2, h.1⟩⟩
  by_contra hne
  exact (h.forall ha hb hne).1 hab

/-- What is kept are the greatest members of the list. -/
theorem mem_prune {l : List α} (horder : OrderedOn below l) (h : Descending below l) {r : α} :
    r ∈ prune below l ↔ r ∈ l ∧ ∀ x ∈ l, below r x → x = r := by
  constructor
  · intro hr
    have hrl : r ∈ l := (prune_sublist l).subset hr
    refine ⟨hrl, fun x hx hrx => ?_⟩
    obtain ⟨y, hy, hxy⟩ := covered [] horder.refl hx
    have hyl : y ∈ l := (prune_sublist l).subset hy
    have hry : r = y := (apart_prune h).eq_of_below hr hy (horder.trans r hrl x hx y hyl hrx hxy)
    subst hry
    exact horder.antisymm x hx r hrl hxy hrx
  · rintro ⟨hr, hmax⟩
    obtain ⟨y, hy, hry⟩ := covered [] horder.refl hr
    obtain rfl := hmax y ((prune_sublist l).subset hy) hry
    exact hy

end Antichain
