import ZsecShield.Lib.Base64
import ZsecShield.Lib.Checks
import ZsecShield.Models
import ZsecShield.Util

/-!
# Field checks of feed documents

The helpers of `feed.py` that read one field: exact key sets, bounded strings,
timestamps, canonical base64 and the patterns of identifiers and digests.
-/

namespace ZsecShield.Feed

open Text (Str str CodePoint)
open Checks

def feedError (text : Str) : PyError := .shield (.feedError text)

def natText (n : Nat) : Str := Text.digits n

/-- `name[index]`. -/
def indexed (name : String) (index : Nat) : Str := str name ++ str "[" ++ natText index ++ str "]"

/-- `value == text` for a literal `text`. -/
def isText (value : Json) (text : Str) : Bool :=
  match value with
  | .str s => s = text
  | _ => false

theorem isText_iff {value : Json} {text : Str} : isText value text = true ↔ value = .str text := by
  cases value <;> simp [isText]

/-- `value[key]` of a dictionary whose keys were checked. -/
def field (members : List (Str × Json)) (key : String) : Json :=
  (Json.lookup (str key) members).getD .null

/-- `set(value) != expected` with the names of the fields that are missing or unexpected. -/
def expectExactKeys (value : List (Str × Json)) (expected : List Str) (context : Str) :
    Except PyError Unit :=
  let present := value.map Prod.fst
  let missing := (expected.filter fun k => k ∉ present).insertionSort (· ≤ ·)
  let unexpected := (present.filter fun k => k ∉ expected).insertionSort (· ≤ ·)
  let joined (names : List Str) : Str := (str ",").intercalate names
  let details := (if missing = [] then [] else [str "missing=" ++ joined missing]) ++
    (if unexpected = [] then [] else [str "unexpected=" ++ joined unexpected])
  require (Json.keysAre value expected = true) (feedError (str "invalid " ++ context ++
    str " fields (" ++ (str "; ").intercalate details ++ str ")"))

/-- `_bounded_string(value, field, minimum, maximum)`. -/
def boundedString (value : Json) (field : Str) (minimum maximum : Nat) : Except PyError Str := do
  let refusal := feedError (field ++ str " must be a string of " ++ natText minimum ++ str ".." ++
    natText maximum ++ str " characters")
  let text ← fromOption value.strOf refusal
  require (minimum ≤ text.length ∧ text.length ≤ maximum) refusal
  require (text.all (fun c => decide (32 ≤ c.val ∨ c.val = 9)) = true)
    (feedError (field ++ str " contains disallowed control characters"))
  pure text

/-- `_timestamp(value, field)`. -/
def timestamp (value : Json) (field : Str) : Except PyError DateTime := do
  let text ← boundedString value field 20 35
  require (text.getLast? = some (Text.ofChar 'Z'))
    (feedError (field ++ str " must be an RFC 3339 UTC timestamp ending in Z"))
  let parsed ← fromOption (DateTime.fromIsoFormat (text.dropLast ++ str "+00:00"))
    (feedError (field ++ str " is not a valid RFC 3339 timestamp"))
  require (parsed.offset = some 0) (feedError (field ++ str " must use UTC"))
  pure parsed.value

/-- `_decode_base64(value, field, expected_length)`. -/
def decodeBase64 (value : Json) (field : Str) (expectedLength : Option Nat) :
    Except PyError Bytes := do
  let text ← boundedString value field 4 8192
  let decoded ← fromOption (Base64.decode text)
    (feedError (field ++ str " must be canonical base64"))
  require (Base64.encode decoded = text)
    (feedError (field ++ str " must use canonical padded base64"))
  require (∀ n ∈ expectedLength, decoded.length = n)
    (feedError (field ++ str " must decode to " ++ natText (expectedLength.getD 0) ++ str " bytes"))
  pure decoded

def isLower (c : CodePoint) : Bool := decide (97 ≤ c.val) && decide (c.val ≤ 122)

/-- A character of an identifier behind the first one. -/
def isIdPoint (c : CodePoint) : Bool :=
  isLower c || Text.isDigit c || c = Text.ofChar '.' || c = Text.ofChar '_' || c = Text.ofChar ':' ||
    c = Text.ofChar '-'

/-- `RULE_ID_PATTERN.fullmatch`. -/
def isRuleId (s : Str) : Bool :=
  match s with
  | [] => false
  | c :: rest => (isLower c || Text.isDigit c) && decide (2 ≤ rest.length ∧ rest.length ≤ 127) &&
      rest.all isIdPoint

/-- `SHA256_PATTERN.fullmatch`. -/
def isSha256 (s : Str) : Bool := decide (s.length = 64) && s.all fun c => (Json.hexDigit c).isSome

/-- `str.lower()` on ASCII, which is where a digest can be valid. -/
def lower (s : Str) : Str :=
  s.map fun c => if 65 ≤ c.val ∧ c.val ≤ 90 then Fin.ofNat _ (c.val + 32) else c

/-- `value in {…}` for a set of texts: a list or a dictionary has no hash. -/
def memberOf (value : Json) (texts : List Str) : Except PyError Bool :=
  match value with
  | .str s => .ok (decide (s ∈ texts))
  | .arr _ => .error (.typeError (str "unhashable type: 'list'"))
  | .obj _ => .error (.typeError (str "unhashable type: 'dict'"))
  | _ => .ok false

/-- `repr(value)`. -/
def reprOf (rt : Runtime) (value : Json) : Except PyError Str :=
  if value.depth ≤ rt.reprDepth then .ok (rt.reprText value) else .error .recursionError

/-- `current + delta`, which fails beyond the last representable time. -/
def later (current : DateTime) (delta : Nat) : Except PyError Nat :=
  accept (current.instant + delta ≤ DateTime.lastInstant) .overflowError (current.instant + delta)

end ZsecShield.Feed
