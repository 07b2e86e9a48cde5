import ZsecShield.Lib.Json.Decode

/-!
# Writing JSON

`json.dumps` with sorted keys.  `layout` is the text of a value in the order its members
stand in, and `fault` says where the encoder gives up: at a container that is nested too
deep, at an integer with too many digits, and, unless the caller allows it, at a number
that is not finite.
-/

namespace Json

open Text

/-- The arguments of `json.dumps` that shape the text. -/
structure Style where
  ensureAscii : Bool
  allowNan : Bool
  indented : Bool
  keySeparator : Str

namespace Style

/-- `ensure_ascii=False, allow_nan=False, separators=(",", ":")`. -/
def canonical : Style := ⟨false, false, false, Text.str ":"⟩

/-- `indent=2, ensure_ascii=False`. -/
def pretty : Style := ⟨false, true, true, Text.str ": "⟩

/-- `separators=(",", ":")`. -/
def wire : Style := ⟨true, true, false, Text.str ":"⟩

end Style

/-! ## Strings -/

def hexChar (n : Nat) : CodePoint := ofChar (Nat.digitChar n)

/-- `\uXXXX` with the hexadecimal digits of a number below 65536. -/
def unicodeEscape (n : Nat) : Str :=
  [ofChar '\\', ofChar 'u', hexChar (n / 4096 % 16), hexChar (n / 256 % 16), hexChar (n / 16 % 16),
    hexChar (n % 16)]

/-- The text of one character of a string. -/
def escape (σ : Style) (c : CodePoint) : Str :=
  if c = ofChar '"' || c = ofChar '\\' then [ofChar '\\', c]
  else if c.val = 10 then [ofChar '\\', ofChar 'n']
  else if c.val = 13 then [ofChar '\\', ofChar 'r']
  else if c.val = 9 then [ofChar '\\', ofChar 't']
  else if c.val = 12 then [ofChar '\\', ofChar 'f']
  else if c.val = 8 then [ofChar '\\', ofChar 'b']
  else if c.val < 32 then unicodeEscape c.val
  else if σ.ensureAscii && decide (0x7f ≤ c.val) then
    if c.val < 0x10000 then unicodeEscape c.val
    else unicodeEscape (0xD800 + (c.val - 0x10000) / 1024) ++
      unicodeEscape (0xDC00 + (c.val - 0x10000) % 1024)
  else [c]

def quote (σ : Style) (s : Str) : Str :=
  ofChar '"' :: (s.flatMap (escape σ) ++ [ofChar '"'])

/-! ## Values -/

def floatText (x : Float) : Str :=
  if isFinite x then reprFloat x
  else if x = infinity then Text.str "Infinity"
  else if x = -infinity then Text.str "-Infinity"
  else Text.str "NaN"

/-- The line break before an item, `level` containers deep. -/
def lineBreak (σ : Style) (level : Nat) : Str :=
  if σ.indented then ofChar '\n' :: List.replicate (2 * level) (ofChar ' ') else []

/-- Items between brackets. -/
def block (σ : Style) (level : Nat) (left right : CodePoint) : List Str → Str
  | [] => [left, right]
  | item :: items =>
      left :: (lineBreak σ (level + 1) ++ item ++
        (items.flatMap fun i => ofChar ',' :: (lineBreak σ (level + 1) ++ i)) ++
        lineBreak σ level ++ [right])

mutual

/-- The text of a value that stands `level` containers deep. -/
def layout (σ : Style) (level : Nat) : Json → Str
  | .null => Text.str "null"
  | .bool b => Text.str (if b then "true" else "false")
  | .int n => intText n
  | .float x => floatText x
  | .str s => quote σ s
  | .arr elements => block σ level (ofChar '[') (ofChar ']') (layoutElements σ (level + 1) elements)
  | .obj members => block σ level (ofChar '{') (ofChar '}') (layoutMembers σ (level + 1) members)

def layoutElements (σ : Style) (level : Nat) : List Json → List Str
  | [] => []
  | e :: elements => layout σ level e :: layoutElements σ level elements

def layoutMembers (σ : Style) (level : Nat) : List (Str × Json) → List Str
  | [] => []
  | (k, v) :: members =>
      (quote σ k ++ (σ.keySeparator ++ layout σ level v)) :: layoutMembers σ level members

end

/-- The text of a value with sorted keys. -/
def text (σ : Style) (v : Json) : Str := layout σ 0 v.sortKeys

/-! ## Where the encoder gives up -/

/-- Why a value was not written. -/
inductive EncodeFault where
  | nonFinite
  | digits
  | recursion
deriving DecidableEq

/-- What the interpreter allows. -/
structure Writer where
  depth : Nat
  digits : Nat

mutual

/-- The first fault, in the order in which the encoder goes through the value. -/
def fault (w : Writer) (allowNan : Bool) : (depth : Nat) → Json → Option EncodeFault
  | _, .null => none
  | _, .bool _ => none
  | _, .int n => if (Text.digits n.natAbs).length ≤ w.digits then none else some .digits
  | _, .float x => if isFinite x || allowNan then none else some .nonFinite
  | _, .str _ => none
  | 0, .arr _ => some .recursion
  | depth + 1, .arr elements => faultElements w allowNan depth elements
  | 0, .obj _ => some .recursion
  | depth + 1, .obj members => faultMembers w allowNan depth members

def faultElements (w : Writer) (allowNan : Bool) (depth : Nat) : List Json → Option EncodeFault
  | [] => none
  | e :: elements => (fault w allowNan depth e).or (faultElements w allowNan depth elements)

def faultMembers (w : Writer) (allowNan : Bool) (depth : Nat) :
    List (Str × Json) → Option EncodeFault
  | [] => none
  | (_, v) :: members => (fault w allowNan depth v).or (faultMembers w allowNan depth members)

end

/-- `json.dumps(v, sort_keys=True)` in a style. -/
def dumps (w : Writer) (σ : Style) (v : Json) : Except EncodeFault Str :=
  match fault w σ.allowNan w.depth v.sortKeys with
  | some fault => .error fault
  | none => .ok (text σ v)

end Json
