import ZsecShield.Lib.Text

/-!
# Numbers as text

Decimal digits of natural numbers and integers, with their inverse, and the text
of a binary64 number.  `reprFloat` takes the shortest digits that are rounded back
to the number, as `float.__repr__` does.
-/

namespace Text

/-- An ASCII digit. -/
def isDigit (c : CodePoint) : Bool := decide (48 ≤ c.val) && decide (c.val ≤ 57)

/-- The digits of a natural number. -/
def digits (n : Nat) : Str := (Nat.toDigits 10 n).map ofChar

/-- The natural number that digits denote. -/
def ofDigits (s : Str) : Nat := s.foldl (fun n c => 10 * n + (c.val - 48)) 0

/-- `str(n)` of an integer. -/
def intText (n : Int) : Str := if n < 0 then str "-" ++ digits n.natAbs else digits n.natAbs

theorem val_ofChar (c : Char) : (ofChar c).val = c.toNat := rfl

theorem ofDigits_digits (n : Nat) : ofDigits (digits n) = n := by
  have hfold : ∀ (l : List Char) (k : Nat),
      (l.map ofChar).foldl (fun n c => 10 * n + (c.val - 48)) k = Nat.ofDigitChars 10 l k := by
    intro l
    induction l with
    | nil => simp
    | cons c l ih =>
        intro k
        rw [List.map_cons, List.foldl_cons, ih, Nat.ofDigitChars_cons]
        rfl
  unfold ofDigits digits
  rw [hfold, Nat.ofDigitChars_ten_toDigits]

theorem isDigit_of_mem_digits {n : Nat} {c : CodePoint} (hc : c ∈ digits n) : isDigit c = true := by
  obtain ⟨x, hx, rfl⟩ := List.mem_map.1 hc
  have hdigit := Nat.isDigit_of_mem_toDigits (by decide) (by decide) hx
  simp only [Char.isDigit, Bool.and_eq_true, decide_eq_true_eq, ge_iff_le] at hdigit
  simp only [isDigit, Bool.and_eq_true, decide_eq_true_eq]
  exact ⟨hdigit.1, hdigit.2⟩

theorem digits_ne_nil (n : Nat) : digits n ≠ [] := by
  simp [digits]

theorem length_digits_le_iff {n k : Nat} (hk : 0 < k) : (digits n).length ≤ k ↔ n < 10 ^ k := by
  unfold digits
  rw [List.length_map, Nat.length_toDigits_le_iff (by decide) hk]

/-- Only zero is written with a leading zero. -/
theorem digits_head (n : Nat) : ∃ c s, digits n = c :: s ∧ (c = ofChar '0' → s = []) := by
  have hchars : ∀ n, ∃ c s, Nat.toDigits 10 n = c :: s ∧ (c = '0' → n = 0 ∧ s = []) := by
    intro n
    induction n using Nat.strong_induction_on with
    | _ n ih =>
        rw [Nat.toDigits_eq_if (by decide)]
        split
        · exact ⟨_, [], rfl, fun h => ⟨Nat.digitChar_eq_zero.1 h, rfl⟩⟩
        · rename_i hn
          obtain ⟨c, s, heq, hzero⟩ := ih (n / 10) (by omega)
          refine ⟨c, s ++ [(n % 10).digitChar], by rw [heq]; rfl, fun h => ?_⟩
          have := (hzero h).1
          omega
  obtain ⟨c, s, heq, hzero⟩ := hchars n
  refine ⟨ofChar c, s.map ofChar, by rw [digits, heq]; rfl, fun h => ?_⟩
  have hc : c = '0' := by
    have h := congrArg toChar h
    rw [toChar_ofChar, toChar_ofChar] at h
    exact Option.some.inj h
  rw [(hzero hc).2]
  rfl

/-! ## Floating point -/

/-- A finite binary64 number as a sign, a mantissa and an exponent of two. -/
structure FloatParts where
  negative : Bool
  mantissa : Nat
  exponent : Int

/-- The parts of a number, or `none` for an infinity or a NaN. -/
def floatParts (x : Float) : Option FloatParts :=
  let bits := x.toBits.toNat
  let exponent : Nat := bits / 2 ^ 52 % 2048
  let fraction : Nat := bits % 2 ^ 52
  let negative := decide (2 ^ 63 ≤ bits)
  if exponent = 2047 then none
  else if exponent = 0 then some ⟨negative, fraction, -1074⟩
  else some ⟨negative, 2 ^ 52 + fraction, (exponent : Int) - 1075⟩

/-- `math.isfinite`. -/
def isFinite (x : Float) : Bool := (floatParts x).isSome

def infinity : Float := 1.0 / 0.0

def nan : Float := 0.0 / 0.0

/-- The number `± digits * 10 ^ exponent`, correctly rounded. -/
def decimalFloat (negative : Bool) (digits : Nat) (exponent : Int) : Float :=
  let x := Float.ofScientific digits (decide (exponent < 0)) exponent.natAbs
  if negative then -x else x

/-- A positive fraction times a power of ten, rounded down. -/
def floorScaled (numerator denominator : Nat) (exponent : Int) : Nat :=
  if exponent < 0 then numerator / (denominator * 10 ^ exponent.natAbs)
  else numerator * 10 ^ exponent.natAbs / denominator

/-- The position of the decimal point: `10 ^ (k - 1) ≤ p / q < 10 ^ k`. -/
def decimalPoint (p q : Nat) : Int :=
  if q ≤ p then (digits (p / q)).length
  else 1 - (digits ((q - 1) / p)).length

/-- A number `d` and a scale `s` with `p / q` about `d / 10 ^ s`, in `count` digits.  One of
the two candidates around it is taken that is rounded to `x`, the nearer one first. -/
def digitsOf (x : Float) (p q count : Nat) : Option (Nat × Int) :=
  let scale : Int := count - decimalPoint p q
  let low := floorScaled p q scale
  let doubled := floorScaled (2 * p) q scale
  let candidates := if doubled = 2 * low then [low, low + 1] else [low + 1, low]
  (candidates.find? fun d => decide (decimalFloat false d (-scale) = x)).map fun d => (d, scale)

/-- The shortest digits that are rounded to a positive number, with their scale. -/
def shortestDigits (x : Float) (p q : Nat) : Nat × Int :=
  ((List.range 17).findSome? fun k => digitsOf x p q (k + 1)).getD
    (floorScaled p q (17 - decimalPoint p q), 17 - decimalPoint p q)

/-- Digits without their trailing zeros. -/
def stripZeros (s : Str) : Str := (s.reverse.dropWhile (· = ofChar '0')).reverse

/-- Digits as `float.__repr__` lays them out. -/
def layFloat (s : Str) (point : Int) : Str :=
  let zeros (n : Nat) : Str := List.replicate n (ofChar '0')
  if -4 < point ∧ point ≤ 16 then
    if point ≤ 0 then str "0." ++ zeros point.natAbs ++ s
    else if s.length ≤ point.toNat then s ++ zeros (point.toNat - s.length) ++ str ".0"
    else s.take point.toNat ++ str "." ++ s.drop point.toNat
  else
    let power := point - 1
    let exponent := digits power.natAbs
    let fraction := if s.length = 1 then [] else str "." ++ s.drop 1
    s.take 1 ++ fraction ++ str "e" ++ (if power < 0 then str "-" else str "+") ++
      (if exponent.length = 1 then str "0" ++ exponent else exponent)

/-- `float.__repr__` of a finite number. -/
def reprFloat (x : Float) : Str :=
  match floatParts x with
  | none => []
  | some parts =>
      let sign := if parts.negative then str "-" else []
      if parts.mantissa = 0 then sign ++ str "0.0"
      else
        let p := if parts.exponent < 0 then parts.mantissa
          else parts.mantissa * 2 ^ parts.exponent.natAbs
        let q := if parts.exponent < 0 then 2 ^ parts.exponent.natAbs else 1
        let magnitude := if parts.negative then -x else x
        let (d, scale) := shortestDigits magnitude p q
        sign ++ layFloat (stripZeros (digits d)) ((digits d).length - scale)

end Text
