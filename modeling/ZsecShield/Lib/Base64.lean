import ZsecShield.Lib.Text

/-!
# Base64

`base64.b64encode` and the strict `base64.b64decode(…, validate=True)`.  The decoder
does not look at the bits that padding leaves over, so two texts may stand for the same
bytes.  A caller that wants one text for each byte string encodes again and compares.
-/

namespace Base64

open Text

/-- The character of a six-bit number. -/
def digit (n : Nat) : CodePoint :=
  if n < 26 then Fin.ofNat _ (65 + n)
  else if n < 52 then Fin.ofNat _ (71 + n)
  else if n < 62 then Fin.ofNat _ (n - 4)
  else if n = 62 then ofChar '+'
  else ofChar '/'

/-- The six-bit number of a character. -/
def value (c : CodePoint) : Option Nat :=
  if 65 ≤ c.val ∧ c.val ≤ 90 then some (c.val - 65)
  else if 97 ≤ c.val ∧ c.val ≤ 122 then some (c.val - 71)
  else if 48 ≤ c.val ∧ c.val ≤ 57 then some (c.val + 4)
  else if c = ofChar '+' then some 62
  else if c = ofChar '/' then some 63
  else none

/-- `base64.b64encode`. -/
def encode : Bytes → Str
  | [] => []
  | [a] => [digit (a.toNat / 4), digit (a.toNat % 4 * 16), ofChar '=', ofChar '=']
  | [a, b] =>
      [digit (a.toNat / 4), digit (a.toNat % 4 * 16 + b.toNat / 16), digit (b.toNat % 16 * 4),
        ofChar '=']
  | a :: b :: c :: rest =>
      digit (a.toNat / 4) :: digit (a.toNat % 4 * 16 + b.toNat / 16) ::
        digit (b.toNat % 16 * 4 + c.toNat / 64) :: digit (c.toNat % 64) :: encode rest

/-- The first byte of a group. -/
def first (x y : Nat) : UInt8 := UInt8.ofNat (x * 4 + y / 16)

def second (y z : Nat) : UInt8 := UInt8.ofNat (y % 16 * 16 + z / 4)

def third (z w : Nat) : UInt8 := UInt8.ofNat (z % 4 * 64 + w)

/-- `base64.b64decode(text, validate=True)`. -/
def decode : Str → Option Bytes
  | [] => some []
  | a :: b :: c :: d :: rest =>
      match value a, value b, value c, value d with
      | some x, some y, some z, some w =>
          (decode rest).map fun bytes => first x y :: second y z :: third z w :: bytes
      | some x, some y, some z, none =>
          if d = ofChar '=' ∧ rest = [] then some [first x y, second y z] else none
      | some x, some y, none, none =>
          if c = ofChar '=' ∧ d = ofChar '=' ∧ rest = [] then some [first x y] else none
      | _, _, _, _ => none
  | _ => none

theorem value_digit : ∀ n < 64, value (digit n) = some n := by decide

theorem value_pad : value (ofChar '=') = none := by decide

theorem first_split (a b : Nat) (ha : a < 256) (hb : b < 256) :
    first (a / 4) (a % 4 * 16 + b / 16) = UInt8.ofNat a := by
  unfold first
  congr 1
  omega

theorem second_split (a b c : Nat) (hb : b < 256) (hc : c < 256) :
    second (a % 4 * 16 + b / 16) (b % 16 * 4 + c / 64) = UInt8.ofNat b := by
  unfold second
  congr 1
  omega

theorem third_split (b c : Nat) (hc : c < 256) :
    third (b % 16 * 4 + c / 64) (c % 64) = UInt8.ofNat c := by
  unfold third
  congr 1
  omega

/-- Decoding undoes encoding. -/
theorem decode_encode (bytes : Bytes) : decode (encode bytes) = some bytes := by
  fun_induction encode bytes with
  | case1 => rfl
  | case2 a =>
      have ha := a.toNat_lt
      have h := first_split a.toNat 0 ha (by omega)
      simp only [Nat.zero_div, Nat.add_zero, UInt8.ofNat_toNat] at h
      simp only [decode, value_digit (a.toNat / 4) (by omega),
        value_digit (a.toNat % 4 * 16) (by omega), value_pad, and_self, ↓reduceIte, h]
  | case3 a b =>
      have ha := a.toNat_lt
      have hb := b.toNat_lt
      have h := first_split a.toNat b.toNat ha hb
      have h' := second_split a.toNat b.toNat 0 hb (by omega)
      simp only [Nat.zero_div, Nat.add_zero, UInt8.ofNat_toNat] at h h'
      simp only [decode, value_digit (a.toNat / 4) (by omega),
        value_digit (a.toNat % 4 * 16 + b.toNat / 16) (by omega),
        value_digit (b.toNat % 16 * 4) (by omega), value_pad, and_self, ↓reduceIte, h, h']
  | case4 a b c rest ih =>
      have ha := a.toNat_lt
      have hb := b.toNat_lt
      have hc := c.toNat_lt
      have h := first_split a.toNat b.toNat ha hb
      have h' := second_split a.toNat b.toNat c.toNat hb hc
      have h'' := third_split b.toNat c.toNat hc
      simp only [UInt8.ofNat_toNat] at h h' h''
      simp only [decode, value_digit (a.toNat / 4) (by omega),
        value_digit (a.toNat % 4 * 16 + b.toNat / 16) (by omega),
        value_digit (b.toNat % 16 * 4 + c.toNat / 64) (by omega),
        value_digit (c.toNat % 64) (by omega), ih, Option.map_some, h, h', h'']

theorem encode_injective {a b : Bytes} (h : encode a = encode b) : a = b := by
  have hdec := decode_encode a
  rw [h, decode_encode] at hdec
  exact (Option.some.inj hdec).symm

/-- Four characters for every three bytes begun. -/
theorem length_encode (bytes : Bytes) : (encode bytes).length = 4 * ((bytes.length + 2) / 3) := by
  fun_induction encode bytes with
  | case1 => rfl
  | case2 | case3 => simp
  | case4 a b c rest ih =>
      simp only [List.length_cons, ih]
      omega

/-- The characters of an encoding: letters, digits, `+`, `/` and the padding. -/
def IsDigit (c : CodePoint) : Prop := (∃ n < 64, c = digit n) ∨ c = ofChar '='

theorem isDigit_of_mem_encode {bytes : Bytes} {c : CodePoint} (h : c ∈ encode bytes) :
    IsDigit c := by
  have hdigit : ∀ n, n < 64 → c = digit n → IsDigit c := fun n hn hc => .inl ⟨n, hn, hc⟩
  fun_induction encode bytes with
  | case1 => cases h
  | case2 a =>
      have ha := a.toNat_lt
      simp only [List.mem_cons, List.not_mem_nil, or_false] at h
      obtain h | h | h | h := h
      · exact hdigit _ (by omega) h
      · exact hdigit _ (by omega) h
      · exact .inr h
      · exact .inr h
  | case3 a b =>
      have ha := a.toNat_lt
      have hb := b.toNat_lt
      simp only [List.mem_cons, List.not_mem_nil, or_false] at h
      obtain h | h | h | h := h
      · exact hdigit _ (by omega) h
      · exact hdigit _ (by omega) h
      · exact hdigit _ (by omega) h
      · exact .inr h
  | case4 a b d rest ih =>
      have ha := a.toNat_lt
      have hb := b.toNat_lt
      have hd := d.toNat_lt
      simp only [List.mem_cons] at h
      obtain h | h | h | h | h := h
      · exact hdigit _ (by omega) h
      · exact hdigit _ (by omega) h
      · exact hdigit _ (by omega) h
      · exact hdigit _ (by omega) h
      · exact ih h

end Base64
