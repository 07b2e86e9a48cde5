import Mathlib.Data.List.DropRight
import Mathlib.Data.List.Infix

/-!
# Searching a stream through a window

A stream arrives in chunks, and a pattern is looked for in each chunk with the end of the
stream before it in front.  An end of `n` elements is enough for every pattern of at most
`n + 1`: `infix_flatten_iff`.
-/

namespace Window

variable {α : Type*} {n : Nat}

theorem rtake_suffix (n : Nat) (l : List α) : l.rtake n <:+ l := List.drop_suffix _ _

theorem take_append_rtake (n : Nat) (l : List α) : l.take (l.length - n) ++ l.rtake n = l :=
  List.take_append_drop _ _

theorem rtake_append_of_le (front : List α) {rest : List α} (h : n ≤ rest.length) :
    (front ++ rest).rtake n = rest.rtake n := by
  rw [List.rtake, List.rtake, List.length_append, Nat.add_sub_assoc h, List.drop_append,
    List.drop_eq_nil_of_le (Nat.le_add_right _ _), List.nil_append, Nat.add_sub_cancel_left]

/-- The end of a list is the end of what it was appended to. -/
theorem rtake_append_rtake (n : Nat) (a b : List α) :
    (a.rtake n ++ b).rtake n = (a ++ b).rtake n := by
  by_cases ha : a.length ≤ n
  · have hwhole : a.rtake n = a := by
      rw [List.rtake, Nat.sub_eq_zero_of_le ha, List.drop_zero]
    rw [hwhole]
  · have hlength : n ≤ (a.rtake n ++ b).length := by
      rw [List.length_append, List.rtake, List.length_drop]
      omega
    rw [← rtake_append_of_le (a.take (a.length - n)) hlength, ← List.append_assoc,
      take_append_rtake]

/-- A pattern that crosses the end of `a` begins among the last elements of `a`. -/
theorem infix_append_iff {p : List α} (hn : p.length ≤ n + 1) (a b : List α) :
    p <:+: a ++ b ↔ p <:+: a ∨ p <:+: a.rtake n ++ b := by
  constructor
  · rintro ⟨s, t, heq⟩
    by_cases hinside : (s ++ p).length ≤ a.length
    · have hprefix : s ++ p <+: a :=
        List.prefix_of_prefix_length_le ⟨t, heq⟩ (List.prefix_append a b) hinside
      exact .inl ((List.suffix_append s p).isInfix.trans hprefix.isInfix)
    · -- The pattern ends behind `a`, so it begins behind all but `n` elements of `a`.
      have hbegin : a.length - n ≤ s.length := by
        rw [List.length_append] at hinside
        omega
      have htail : a.rtake n ++ b = s.drop (a.length - n) ++ p ++ t := by
        have hcut := congrArg (List.drop (a.length - n)) heq
        rw [List.append_assoc, List.drop_append_of_le_length hbegin,
          List.drop_append_of_le_length (Nat.sub_le _ _)] at hcut
        rw [List.append_assoc]
        exact hcut.symm
      exact .inr ⟨_, _, htail.symm⟩
  · rintro (h | h)
    · exact h.trans (List.prefix_append a b).isInfix
    · have hsuffix : a.rtake n ++ b <:+ a ++ b := by
        refine ⟨a.take (a.length - n), ?_⟩
        rw [← List.append_assoc, take_append_rtake]
      exact h.trans hsuffix.isInfix

/-- What is searched for each chunk, `tail` being the end of the stream before. -/
def windows (n : Nat) : List α → List (List α) → List (List α)
  | _, [] => []
  | tail, chunk :: chunks => (tail ++ chunk) :: windows n ((tail ++ chunk).rtake n) chunks

/-- A pattern that was not in the stream before is in the stream when it is in a window. -/
theorem infix_append_flatten_iff {p : List α} (hn : p.length ≤ n + 1) (a : List α)
    (chunks : List (List α)) :
    p <:+: a ++ chunks.flatten ↔ p <:+: a ∨ ∃ w ∈ windows n (a.rtake n) chunks, p <:+: w := by
  induction chunks generalizing a with
  | nil => simp [windows]
  | cons chunk chunks ih =>
      rw [List.flatten_cons, ← List.append_assoc, ih (a ++ chunk), infix_append_iff hn a chunk,
        windows, rtake_append_rtake, or_assoc]
      simp only [List.mem_cons, exists_eq_or_imp]

theorem infix_flatten_iff {p : List α} (hp : p ≠ []) (hn : p.length ≤ n + 1)
    (chunks : List (List α)) :
    p <:+: chunks.flatten ↔ ∃ w ∈ windows n [] chunks, p <:+: w := by
  have hiff := infix_append_flatten_iff hn [] chunks
  rw [List.nil_append, List.rtake_nil, List.infix_nil] at hiff
  rw [hiff, or_iff_right hp]

end Window
