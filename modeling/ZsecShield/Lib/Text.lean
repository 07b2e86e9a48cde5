import Mathlib.Algebra.Ring.Nat
import Mathlib.Data.List.Infix
import Mathlib.Data.List.Lex
import Mathlib.Data.List.Sort
import Mathlib.Data.Nat.Cast.Basic
import Mathlib.Data.String.Basic
import Mathlib.Order.Fin.Basic
import Mathlib.Tactic.Common

/-!
# Text and bytes

A text is a list of code points.  Surrogates are code points like any other: a
text may hold one, and only the encoder refuses it.  `encodeUtf8` is partial for
that reason, and `encodeUtf8_isSome` says where it is defined.  The UTF-8 codec
of a single character is the one of the core library, whose round trip gives
`decodeUtf8_encodeUtf8`.
-/

/-- A byte string. -/
abbrev Bytes := List UInt8

namespace Text

/-- A Unicode code point, surrogates included. -/
abbrev CodePoint := Fin 0x110000

/-- A text. -/
abbrev Str := List CodePoint

instance instNeZeroPoints : NeZero (0x110000 : Nat) := ⟨by decide⟩

instance : LawfulBEq CodePoint := inferInstance

instance : LawfulBEq Str := inferInstance

/-- A character as a code point. -/
def ofChar (c : Char) : CodePoint :=
  ⟨c.toNat, by
    have h := c.valid
    simp only [UInt32.isValidChar, Nat.isValidChar] at h
    have hc : c.toNat = c.val.toNat := rfl
    omega⟩

/-- A literal as a text. -/
def str (s : String) : Str := s.toList.map ofChar

/-- The code points UTF-8 has no encoding for. -/
def IsSurrogate (c : CodePoint) : Prop := 0xD800 ≤ c.val ∧ c.val ≤ 0xDFFF

instance (c : CodePoint) : Decidable (IsSurrogate c) := inferInstanceAs (Decidable (_ ∧ _))

/-- A code point as a character, unless it is a surrogate. -/
def toChar (c : CodePoint) : Option Char :=
  if h : IsSurrogate c then none
  else some (Char.ofNatAux c.val (by
    have := c.isLt
    unfold IsSurrogate at h
    unfold Nat.isValidChar
    omega))

theorem toChar_eq_none {c : CodePoint} : toChar c = none ↔ IsSurrogate c := by
  unfold toChar
  by_cases h : IsSurrogate c
  · rw [dif_pos h]
    exact iff_of_true rfl h
  · rw [dif_neg h]
    exact iff_of_false (Option.some_ne_none _) h

theorem ofChar_of_toChar {c : CodePoint} {x : Char} (h : toChar c = some x) : ofChar x = c := by
  unfold toChar at h
  by_cases hs : IsSurrogate c
  · rw [dif_pos hs] at h
    cases h
  · rw [dif_neg hs] at h
    cases h
    exact Fin.ext rfl

theorem toChar_ofChar (x : Char) : toChar (ofChar x) = some x := by
  have hv := x.valid
  simp only [UInt32.isValidChar, Nat.isValidChar] at hv
  have hx : x.toNat = x.val.toNat := rfl
  unfold toChar
  rw [dif_neg (by unfold IsSurrogate ofChar; simp only; omega)]
  congr 1

/-- Two literals are the same text only if they are the same literal. -/
theorem str_injective {s t : String} : str s = str t ↔ s = t := by
  constructor
  · intro h
    have hinj : Function.Injective ofChar := by
      intro a b hab
      have h := congrArg toChar hab
      rw [toChar_ofChar, toChar_ofChar] at h
      exact Option.some.inj h
    exact String.toList_injective (List.map_injective_iff.2 hinj h)
  · rintro rfl
    rfl

/-- A text without surrogates. -/
def Encodable (s : Str) : Prop := ∀ c ∈ s, ¬ IsSurrogate c

instance (s : Str) : Decidable (Encodable s) := inferInstanceAs (Decidable (∀ c ∈ s, _))

@[simp] theorem encodable_nil : Encodable [] := by simp [Encodable]

@[simp] theorem encodable_cons (c : CodePoint) (s : Str) :
    Encodable (c :: s) ↔ ¬ IsSurrogate c ∧ Encodable s := by
  simp [Encodable]

@[simp] theorem encodable_append (s t : Str) :
    Encodable (s ++ t) ↔ Encodable s ∧ Encodable t := by
  simp [Encodable, or_imp, forall_and]

/-- A literal holds no surrogate. -/
theorem encodable_str (s : String) : Encodable (str s) := by
  intro c hc hs
  obtain ⟨x, -, rfl⟩ := List.mem_map.1 hc
  rw [← toChar_eq_none, toChar_ofChar] at hs
  cases hs

/-- The bytes of one code point. -/
def encodePoint (c : CodePoint) : Option Bytes := (toChar c).map String.utf8EncodeChar

/-- `text.encode("utf-8")`: refused when a surrogate stands in the text. -/
def encodeUtf8 : Str → Option Bytes
  | [] => some []
  | c :: s => (encodePoint c).bind fun b => (encodeUtf8 s).map (b ++ ·)

/-- `data.decode("utf-8", "strict")`. -/
def decodeUtf8 (b : Bytes) : Option Str :=
  b.toByteArray.utf8Decode?.map fun cs => cs.toList.map ofChar

theorem encodeUtf8_chars {s : Str} {b : Bytes} (h : encodeUtf8 s = some b) :
    ∃ cs : List Char, s = cs.map ofChar ∧ b = cs.flatMap String.utf8EncodeChar := by
  induction s generalizing b with
  | nil =>
      cases h
      exact ⟨[], rfl, rfl⟩
  | cons c s ih =>
      simp only [encodeUtf8, encodePoint, Option.bind_eq_some_iff, Option.map_eq_some_iff] at h
      obtain ⟨_, ⟨x, hx, rfl⟩, b', hb', rfl⟩ := h
      obtain ⟨cs, rfl, rfl⟩ := ih hb'
      exact ⟨x :: cs, by rw [List.map_cons, ofChar_of_toChar hx], by rw [List.flatMap_cons]⟩

theorem mem_utf8EncodeChar {x : Char} {byte : UInt8} (hlow : byte.toNat < 0x80)
    (h : byte ∈ String.utf8EncodeChar x) : x.val.toNat = byte.toNat := by
  unfold String.utf8EncodeChar at h
  simp only at h
  split at h
  · rw [List.mem_singleton] at h
    subst h
    rw [UInt8.toNat_ofNat_of_lt']
    show _ < 256
    omega
  · exfalso
    have hmulti (n : Nat) (hn : 0x80 ≤ n) (hlt : n < 0x100) : byte ≠ UInt8.ofNat n := by
      rintro rfl
      rw [UInt8.toNat_ofNat_of_lt' hlt] at hlow
      omega
    have hrest (n : Nat) := hmulti (n % 0x40 + 0x80) (by omega) (by omega)
    split at h
    · simp only [List.mem_cons, List.not_mem_nil, or_false] at h
      rcases h with h | h
      · exact hmulti _ (by omega) (by omega) h
      · exact hrest _ h
    · split at h
      · simp only [List.mem_cons, List.not_mem_nil, or_false] at h
        rcases h with h | h | h
        · exact hmulti _ (by omega) (by omega) h
        · exact hrest _ h
        · exact hrest _ h
      · simp only [List.mem_cons, List.not_mem_nil, or_false] at h
        rcases h with h | h | h | h
        · exact hmulti _ (by omega) (by omega) h
        · exact hrest _ h
        · exact hrest _ h
        · exact hrest _ h

/-- A byte below 128 stands in an encoding only for the character of that number. -/
theorem mem_encodeUtf8 {s : Str} {data : Bytes} (h : encodeUtf8 s = some data) {byte : UInt8}
    (hlow : byte.toNat < 0x80) (hmem : byte ∈ data) : ∃ c ∈ s, c.val = byte.toNat := by
  obtain ⟨cs, rfl, rfl⟩ := encodeUtf8_chars h
  obtain ⟨x, hx, hbyte⟩ := List.mem_flatMap.1 hmem
  exact ⟨ofChar x, List.mem_map_of_mem hx, mem_utf8EncodeChar hlow hbyte⟩

theorem encodeUtf8_ofChar {x : Char} {s : Str} {b : Bytes}
    (h : encodeUtf8 (ofChar x :: s) = some b) : ∃ rest, b = String.utf8EncodeChar x ++ rest := by
  simp only [encodeUtf8, encodePoint, toChar_ofChar, Option.map_some, Option.bind_some,
    Option.map_eq_some_iff] at h
  obtain ⟨rest, -, hrest⟩ := h
  exact ⟨rest, hrest.symm⟩

/-- Decoding undoes encoding. -/
theorem decodeUtf8_encodeUtf8 {s : Str} {b : Bytes} (h : encodeUtf8 s = some b) :
    decodeUtf8 b = some s := by
  obtain ⟨cs, rfl, rfl⟩ := encodeUtf8_chars h
  have hdec : (cs.flatMap String.utf8EncodeChar).toByteArray.utf8Decode? = some cs.toArray :=
    List.utf8Decode?_utf8Encode
  unfold decodeUtf8
  rw [hdec, Option.map_some]

/-- A text has an encoding exactly when it holds no surrogate. -/
theorem encodeUtf8_isSome (s : Str) : (encodeUtf8 s).isSome ↔ Encodable s := by
  induction s with
  | nil => simp [encodeUtf8]
  | cons c s ih =>
      rw [encodable_cons, ← ih, ← toChar_eq_none]
      simp only [encodeUtf8, encodePoint]
      cases toChar c with
      | none => simp
      | some x => simp

theorem encodeUtf8_of_encodable {s : Str} (h : Encodable s) : ∃ b, encodeUtf8 s = some b :=
  Option.isSome_iff_exists.mp ((encodeUtf8_isSome s).mpr h)

theorem encodeUtf8_eq_none {s : Str} : encodeUtf8 s = none ↔ ¬ Encodable s := by
  rw [← encodeUtf8_isSome, Option.not_isSome_iff_eq_none]

theorem encodeUtf8_injective {s t : Str} {b : Bytes} (hs : encodeUtf8 s = some b)
    (ht : encodeUtf8 t = some b) : s = t := by
  have h := decodeUtf8_encodeUtf8 hs
  rw [decodeUtf8_encodeUtf8 ht] at h
  exact (Option.some.inj h).symm

theorem encodeUtf8_append {s t : Str} {b c : Bytes} (hs : encodeUtf8 s = some b)
    (ht : encodeUtf8 t = some c) : encodeUtf8 (s ++ t) = some (b ++ c) := by
  induction s generalizing b with
  | nil =>
      cases hs
      exact ht
  | cons x s ih =>
      simp only [encodeUtf8, Option.bind_eq_some_iff, Option.map_eq_some_iff] at hs
      obtain ⟨bx, hx, bs, hbs, rfl⟩ := hs
      rw [List.cons_append, encodeUtf8, hx, ih hbs, Option.bind_some, Option.map_some,
        List.append_assoc]

/-- The number of bytes one code point takes. -/
def pointSize (c : CodePoint) : Nat :=
  if c.val ≤ 0x7f then 1 else if c.val ≤ 0x7ff then 2 else if c.val ≤ 0xffff then 3 else 4

/-- The number of bytes the code points of a text take. -/
def utf8Size (s : Str) : Nat := (s.map pointSize).sum

@[simp] theorem utf8Size_nil : utf8Size [] = 0 := rfl

@[simp] theorem utf8Size_cons (c : CodePoint) (s : Str) :
    utf8Size (c :: s) = pointSize c + utf8Size s := by
  simp [utf8Size]

@[simp] theorem utf8Size_append (s t : Str) : utf8Size (s ++ t) = utf8Size s + utf8Size t := by
  simp [utf8Size]

theorem utf8Size_le (s : Str) : utf8Size s ≤ 4 * s.length := by
  induction s with
  | nil => exact Nat.zero_le _
  | cons c s ih =>
      have hpoint : pointSize c ≤ 4 := by
        unfold pointSize
        split <;> [omega; (split <;> [omega; (split <;> omega)])]
      rw [utf8Size_cons, List.length_cons]
      omega

theorem length_encodePoint {c : CodePoint} {b : Bytes} (h : encodePoint c = some b) :
    b.length = pointSize c := by
  unfold encodePoint at h
  obtain ⟨x, hx, rfl⟩ := Option.map_eq_some_iff.mp h
  have hc : x.val.toNat = c.val := congrArg Fin.val (ofChar_of_toChar hx)
  unfold String.utf8EncodeChar pointSize
  simp only [hc]
  split <;> [rfl; (split <;> [rfl; (split <;> rfl)])]

theorem length_encodeUtf8 {s : Str} {b : Bytes} (h : encodeUtf8 s = some b) :
    b.length = utf8Size s := by
  induction s generalizing b with
  | nil =>
      cases h
      rfl
  | cons c s ih =>
      simp only [encodeUtf8, Option.bind_eq_some_iff, Option.map_eq_some_iff] at h
      obtain ⟨bc, hc, bs, hbs, rfl⟩ := h
      rw [List.length_append, length_encodePoint hc, ih hbs, utf8Size_cons]

end Text
