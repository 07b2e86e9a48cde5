import ZsecShield.Browser.ProductNormal
import Mathlib.Data.List.Chain
import Mathlib.Data.List.TakeWhile

/-!
# Titles

`NormalizeTitle` trims a title, makes single blanks of its breaks and runs of blanks, and cuts it at
240 characters.  The cut comes last, so that a title may end in a blank again, or in half of a pair.
Normalizing a title once more takes the blanks at its end off, and nothing else
(`IsTitle.normalize`).
-/

namespace ZsecShield.Browser

open Text (Str str CodePoint)

/-! ## Single blanks -/

/-- No blank follows a blank. -/
def Single (s : Str) : Prop := s.IsChain fun c d => ¬ (c = blank ∧ d = blank)

theorem single_start {s t : Str} (h : Single t) (hstart : s <+: t) : Single s :=
  List.IsChain.infix h hstart.isInfix

theorem replaceBlanks_eq {s : Str} (h : Single s) : replaceBlanks s = s := by
  fun_induction replaceBlanks s with
  | case1 => rfl
  | case2 c => rfl
  | case3 c d s hdouble ih => exact absurd hdouble (List.isChain_cons_cons.1 h).1
  | case4 c d s hsingle ih => rw [ih (List.isChain_cons_cons.1 h).2]

theorem length_replaceBlanks_le (s : Str) : (replaceBlanks s).length ≤ s.length := by
  fun_induction replaceBlanks s with
  | case1 => exact Nat.le_refl _
  | case2 c => exact Nat.le_refl _
  | case3 c d s hdouble ih =>
      simp only [List.length_cons]
      omega
  | case4 c d s hsingle ih =>
      simp only [List.length_cons] at ih ⊢
      omega

/-- A replacement that finds anything makes the text shorter. -/
theorem single_or_shorter (s : Str) : Single s ∨ (replaceBlanks s).length < s.length := by
  fun_induction replaceBlanks s with
  | case1 => exact .inl .nil
  | case2 c => exact .inl (.singleton c)
  | case3 c d s hdouble ih =>
      right
      have hle := length_replaceBlanks_le s
      simp only [List.length_cons]
      omega
  | case4 c d s hsingle ih =>
      rcases ih with hrest | hshorter
      · exact .inl (List.isChain_cons_cons.2 ⟨hsingle, hrest⟩)
      · right
        simp only [List.length_cons] at hshorter ⊢
        omega

theorem iterate_replaceBlanks_eq {s : Str} (h : Single s) (n : Nat) : replaceBlanks^[n] s = s :=
  Function.iterate_fixed (replaceBlanks_eq h) n

theorem single_iterate (n : Nat) : ∀ {s : Str}, s.length ≤ n → Single (replaceBlanks^[n] s) := by
  induction n with
  | zero =>
      intro s hs
      rw [List.length_eq_zero_iff.1 (Nat.le_zero.1 hs)]
      exact .nil
  | succ n ih =>
      intro s hs
      rw [Function.iterate_succ_apply]
      rcases single_or_shorter s with hsingle | hshorter
      · rw [replaceBlanks_eq hsingle, iterate_replaceBlanks_eq hsingle]
        exact hsingle
      · exact ih (by omega)

theorem single_foldBlanks (s : Str) : Single (foldBlanks s) := single_iterate s.length le_rfl

theorem foldBlanks_eq {s : Str} (h : Single s) : foldBlanks s = s := iterate_replaceBlanks_eq h _

theorem head?_replaceBlanks (s : Str) : (replaceBlanks s).head? = s.head? := by
  fun_cases replaceBlanks s with
  | case1 => rfl
  | case2 c => rfl
  | case3 c d s hdouble =>
      rw [hdouble.1]
      rfl
  | case4 c d s hsingle => rfl

theorem replaceBlanks_subset (s : Str) : replaceBlanks s ⊆ s := by
  fun_induction replaceBlanks s with
  | case1 => exact List.Subset.refl _
  | case2 c => exact List.Subset.refl _
  | case3 c d s hdouble ih =>
      rw [hdouble.1]
      exact List.cons_subset_cons _ (List.subset_cons_of_subset _ ih)
  | case4 c d s hsingle ih => exact List.cons_subset_cons _ ih

theorem head?_foldBlanks (s : Str) : (foldBlanks s).head? = s.head? := by
  have hiterate (n : Nat) : ∀ s : Str, (replaceBlanks^[n] s).head? = s.head? := by
    induction n with
    | zero => exact fun _ => rfl
    | succ n ih => exact fun s => (ih (replaceBlanks s)).trans (head?_replaceBlanks s)
  exact hiterate s.length s

theorem foldBlanks_subset (s : Str) : foldBlanks s ⊆ s := by
  have hiterate (n : Nat) : ∀ s : Str, replaceBlanks^[n] s ⊆ s := by
    induction n with
    | zero => exact fun s => List.Subset.refl s
    | succ n ih => exact fun s => List.Subset.trans (ih (replaceBlanks s)) (replaceBlanks_subset s)
  exact hiterate s.length s

/-! ## The cut -/

theorem length16_cons (c : CodePoint) (s : Str) :
    length16 (c :: s) = (if c.val < 0x10000 then 1 else 2) + length16 s := rfl

theorem take16_eq {n : Nat} {s : Str} (h : length16 s ≤ n) : take16 n s = s := by
  fun_induction take16 n s with
  | case1 s =>
      cases s with
      | nil => rfl
      | cons c s =>
          rw [length16_cons] at h
          split at h <;> omega
  | case2 n => rfl
  | case3 n c s hsmall ih =>
      rw [length16_cons, if_pos hsmall] at h
      rw [ih (by omega)]
  | case4 c s hlarge =>
      rw [length16_cons, if_neg hlarge] at h
      omega
  | case5 c s hlarge n ih =>
      rw [length16_cons, if_neg hlarge] at h
      rw [ih (by omega)]

theorem length16_take16_le (n : Nat) (s : Str) : length16 (take16 n s) ≤ n := by
  fun_induction take16 n s with
  | case1 s => exact Nat.le_refl _
  | case2 n => exact Nat.zero_le _
  | case3 n c s hsmall ih =>
      rw [length16_cons, if_pos hsmall]
      omega
  | case4 c s hlarge =>
      have hhigh : (c.val - 0x10000) / 0x400 < 0x400 := by
        have := c.isLt
        omega
      have hval : (Fin.ofNat 0x110000 (0xD800 + (c.val - 0x10000) / 0x400)).val =
          0xD800 + (c.val - 0x10000) / 0x400 := Nat.mod_eq_of_lt (by omega)
      rw [length16_cons, hval, if_pos (by omega)]
      exact Nat.le_refl _
  | case5 c s hlarge n ih =>
      rw [length16_cons, if_neg hlarge]
      omega

/-- A cut text is a start of the text, or one with half of a pair after it. -/
theorem take16_prefix (n : Nat) (s : Str) :
    take16 n s <+: s ∨ ∃ front high, take16 n s = front ++ [high] ∧ front <+: s ∧
      Text.IsSurrogate high := by
  fun_induction take16 n s with
  | case1 s => exact .inl List.nil_prefix
  | case2 n => exact .inl List.nil_prefix
  | case3 n c s hsmall ih =>
      rcases ih with hstart | ⟨front, high, heq, hfront, hhigh⟩
      · exact .inl (List.cons_prefix_cons.2 ⟨rfl, hstart⟩)
      · exact .inr ⟨c :: front, high, by rw [heq]; rfl, List.cons_prefix_cons.2 ⟨rfl, hfront⟩, hhigh⟩
  | case4 c s hlarge =>
      have hhigh : (c.val - 0x10000) / 0x400 < 0x400 := by
        have := c.isLt
        omega
      have hval : (Fin.ofNat 0x110000 (0xD800 + (c.val - 0x10000) / 0x400)).val =
          0xD800 + (c.val - 0x10000) / 0x400 := Nat.mod_eq_of_lt (by omega)
      refine .inr ⟨[], _, rfl, List.nil_prefix, ?_⟩
      rw [Text.IsSurrogate, hval]
      omega
  | case5 c s hlarge n ih =>
      rcases ih with hstart | ⟨front, high, heq, hfront, hhigh⟩
      · exact .inl (List.cons_prefix_cons.2 ⟨rfl, hstart⟩)
      · exact .inr ⟨c :: front, high, by rw [heq]; rfl, List.cons_prefix_cons.2 ⟨rfl, hfront⟩, hhigh⟩

/-! ## Normal titles -/

/-- What `NormalizeTitle` gives. -/
structure IsTitle (t : Str) : Prop where
  head : ∃ c s, t = c :: s ∧ isWhiteSpace c = false
  unbroken : ∀ c ∈ t, replaceBreak c = c
  single : Single t
  length : length16 t ≤ 240

theorem replaceBreak_replaceBreak (c : CodePoint) : replaceBreak (replaceBreak c) = replaceBreak c := by
  by_cases h : c.val = 13 ∨ c.val = 10 ∨ c.val = 9
  · rw [replaceBreak, replaceBreak, if_pos h]
    decide
  · rw [replaceBreak, replaceBreak, if_neg h, if_neg h]

/-- What is neither white space nor a surrogate stays. -/
theorem replaceBreak_of_not {c : CodePoint} (h : isWhiteSpace c = false) : replaceBreak c = c := by
  refine if_neg fun hbreak => ?_
  have hspace := of_decide_eq_false h
  omega

theorem ne_blank_of_not {c : CodePoint} (h : isWhiteSpace c = false) : c ≠ blank := by
  rintro rfl
  have hblank : isWhiteSpace blank = true := by decide
  rw [hblank] at h
  cases h

theorem not_isWhiteSpace_of_surrogate {c : CodePoint} (h : Text.IsSurrogate c) :
    isWhiteSpace c = false := by
  obtain ⟨hlow, hhigh⟩ := h
  exact decide_eq_false (by omega)

/-- A text that starts with no white space has a normal title. -/
theorem isTitle_cut {s : Str} (h : ∃ c rest, s = c :: rest ∧ isWhiteSpace c = false) :
    IsTitle (take16 240 (foldBlanks (s.map replaceBreak))) := by
  obtain ⟨folded, hfolded⟩ : ∃ folded, folded = foldBlanks (s.map replaceBreak) := ⟨_, rfl⟩
  have hunbroken : ∀ c ∈ folded, replaceBreak c = c := by
    intro c hc
    rw [hfolded] at hc
    obtain ⟨d, -, rfl⟩ := List.mem_map.1 (foldBlanks_subset _ hc)
    exact replaceBreak_replaceBreak d
  have hsingle : Single folded := hfolded ▸ single_foldBlanks _
  obtain ⟨c, rest, rfl, hc⟩ := h
  obtain ⟨tail, rfl⟩ : ∃ tail, folded = c :: tail := by
    have hhead : folded.head? = some c := by
      rw [hfolded, head?_foldBlanks, List.map_cons, List.head?_cons, replaceBreak_of_not hc]
    obtain ⟨tail, htail⟩ := List.head?_eq_some_iff.1 hhead
    exact ⟨tail, htail⟩
  rw [← hfolded]
  refine ⟨?_, ?_, ?_, length16_take16_le _ _⟩
  · rw [take16]
    split
    · exact ⟨c, _, rfl, hc⟩
    · exact ⟨c, _, rfl, hc⟩
  · intro d hd
    rcases take16_prefix 240 (c :: tail) with hstart | ⟨front, high, heq, hfront, hhigh⟩
    · exact hunbroken d (hstart.subset hd)
    · rw [heq, List.mem_append, List.mem_singleton] at hd
      rcases hd with hd | rfl
      · exact hunbroken d (hfront.subset hd)
      · exact replaceBreak_of_not (not_isWhiteSpace_of_surrogate hhigh)
  · rcases take16_prefix 240 (c :: tail) with hstart | ⟨front, high, heq, hfront, hhigh⟩
    · exact single_start hsingle hstart
    · rw [heq]
      refine List.isChain_append.2 ⟨single_start hsingle hfront, .singleton high, ?_⟩
      intro x _ y hy hdouble
      obtain rfl : high = y := by simpa using hy
      exact ne_blank_of_not (not_isWhiteSpace_of_surrogate hhigh) hdouble.2

theorem not_blank_trim {s : Str} (h : isBlank s = false) :
    ∃ c rest, trimOf isWhiteSpace s = c :: rest ∧ isWhiteSpace c = false := by
  rw [isBlank, List.all_eq_false] at h
  obtain ⟨d, hd, hspace⟩ := h
  rw [Bool.not_eq_true] at hspace
  cases hdrop : s.dropWhile isWhiteSpace with
  | nil =>
      have hall := List.dropWhile_eq_nil_iff.1 hdrop d hd
      rw [hspace] at hall
      cases hall
  | cons c rest =>
      have hc : isWhiteSpace c = false := by
        have hne : s.dropWhile isWhiteSpace ≠ [] := by simp [hdrop]
        have hnot := List.head_dropWhile_not isWhiteSpace hne
        simpa [hdrop] using hnot
      have hmem : c ∈ trimEndOf isWhiteSpace (c :: rest) :=
        mem_trimEndOf List.mem_cons_self hc
      obtain ⟨back, hback⟩ := trimEndOf_isPrefix isWhiteSpace (c :: rest)
      rw [trimOf, hdrop]
      cases htrim : trimEndOf isWhiteSpace (c :: rest) with
      | nil =>
          rw [htrim] at hmem
          cases hmem
      | cons e tail =>
          rw [htrim] at hback
          obtain ⟨rfl, -⟩ := List.cons.inj hback
          exact ⟨e, tail, rfl, hc⟩

theorem isTitle_normalizeTitle {title : Option Str} {fallback : Str} (hprint : Printable fallback)
    (hne : isBlank fallback = false) : IsTitle (normalizeTitle title fallback) := by
  have hstart : ∃ c rest, (if isBlank (title.getD []) then fallback
      else trimOf isWhiteSpace (title.getD [])) = c :: rest ∧ isWhiteSpace c = false := by
    cases hblank : isBlank (title.getD []) with
    | false =>
        rw [if_neg Bool.false_ne_true]
        exact not_blank_trim hblank
    | true =>
        rw [if_pos rfl]
        have hnot := not_blank_trim hne
        rwa [trim_printable hprint] at hnot
  exact isTitle_cut hstart

/-- Normalizing a title once more takes the white space at its end off. -/
theorem IsTitle.normalize {t : Str} (h : IsTitle t) (fallback : Str) :
    normalizeTitle (some t) fallback = trimEndOf isWhiteSpace t := by
  obtain ⟨c, s, rfl, hc⟩ := h.head
  have hblank : isBlank (c :: s) = false := by
    rw [isBlank, List.all_eq_false]
    exact ⟨c, List.mem_cons_self, by simp [hc]⟩
  have htrim : trimOf isWhiteSpace (c :: s) = trimEndOf isWhiteSpace (c :: s) := by
    rw [trimOf, List.dropWhile_cons_of_neg (by simp [hc])]
  have hstart := trimEndOf_isPrefix isWhiteSpace (c :: s)
  have hmap : (trimEndOf isWhiteSpace (c :: s)).map replaceBreak =
      trimEndOf isWhiteSpace (c :: s) := by
    conv_rhs => rw [← List.map_id (trimEndOf isWhiteSpace (c :: s))]
    exact List.map_congr_left fun d hd => h.unbroken d (hstart.subset hd)
  have hsingle : Single (trimEndOf isWhiteSpace (c :: s)) := single_start h.single hstart
  have hlength : length16 (trimEndOf isWhiteSpace (c :: s)) ≤ 240 :=
    (length16_sublist hstart.sublist).trans h.length
  rw [normalizeTitle, Option.getD_some, hblank, if_neg Bool.false_ne_true, htrim, hmap,
    foldBlanks_eq hsingle, take16_eq hlength]

/-- A title that does not end in white space is its own normal form. -/
theorem IsTitle.normalize_eq_iff {t : Str} (h : IsTitle t) (fallback : Str) :
    normalizeTitle (some t) fallback = t ↔ ∀ c ∈ t.getLast?, isWhiteSpace c = false := by
  rw [h.normalize]
  constructor
  · intro heq c hc
    rw [← heq] at hc
    exact not_of_trimEndOf hc
  · exact trimEndOf_eq

theorem isWhiteSpace_replacePoint (c : CodePoint) : isWhiteSpace (replacePoint c) = isWhiteSpace c := by
  by_cases hc : Text.IsSurrogate c
  · rw [not_isWhiteSpace_of_surrogate hc, replacePoint, if_pos hc]
    decide
  · rw [replacePoint_of_not hc]

theorem replacePoint_eq_blank {c : CodePoint} : replacePoint c = blank ↔ c = blank := by
  by_cases hc : Text.IsSurrogate c
  · rw [replacePoint, if_pos hc]
    refine iff_of_false (by decide) ?_
    rintro rfl
    exact absurd hc (by decide)
  · rw [replacePoint_of_not hc]

/-- A title stays one when its unpaired surrogates are replaced. -/
theorem IsTitle.sanitize {t : Str} (h : IsTitle t) : IsTitle (Browser.sanitize t) := by
  obtain ⟨c, s, rfl, hc⟩ := h.head
  refine ⟨⟨_, _, rfl, (isWhiteSpace_replacePoint c).trans hc⟩, ?_, ?_, ?_⟩
  · intro d hd
    obtain ⟨e, he, rfl⟩ := List.mem_map.1 hd
    by_cases hsurrogate : Text.IsSurrogate e
    · rw [replacePoint, if_pos hsurrogate]
      decide
    · rw [replacePoint_of_not hsurrogate]
      exact h.unbroken e he
  · have hchain : List.IsChain
        (fun c d => ¬ (replacePoint c = blank ∧ replacePoint d = blank)) (c :: s) := by
      simp only [replacePoint_eq_blank]
      exact h.single
    exact (List.isChain_map replacePoint).2 hchain
  · rw [length16_sanitize]
    exact h.length

/-- A title comes back from the file as it is, if it has no unpaired surrogate and does not end in
white space. -/
theorem IsTitle.normalize_sanitize_iff {t : Str} (h : IsTitle t) (fallback : Str) :
    normalizeTitle (some (Browser.sanitize t)) fallback = t ↔
      Text.Encodable t ∧ ∀ c ∈ t.getLast?, isWhiteSpace c = false := by
  constructor
  · intro heq
    have htrim := h.sanitize.normalize fallback
    rw [heq] at htrim
    have hencodable : Text.Encodable t := by
      intro c hc
      rw [htrim] at hc
      exact encodable_sanitize t c ((trimEndOf_isPrefix _ _).subset hc)
    rw [sanitize_eq_iff.2 hencodable] at heq
    exact ⟨hencodable, (h.normalize_eq_iff fallback).1 heq⟩
  · rintro ⟨hencodable, hlast⟩
    rw [sanitize_eq_iff.2 hencodable]
    exact (h.normalize_eq_iff fallback).2 hlast

end ZsecShield.Browser
