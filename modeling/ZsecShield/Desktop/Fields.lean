import ZsecShield.Feed.Fields

/-!
# Field checks of the desktop

The helpers of `contracts.py` that read one field of a payload, and the indexing its
presenters do on a payload that was accepted.  A check refuses with a `ContractError`.  Two
other errors escape a validator or a presenter: a list or a dictionary has no hash and cannot
be looked for in a set, and a key that is not there cannot be read with `[…]`.
-/

namespace ZsecShield.Desktop

open Text (Str str)
open Feed (field isText)
open Checks

/-- What stops the desktop on a payload. -/
inductive Failure where
  | contractError (text : Str)
  | typeError (text : Str)
  | keyError (key : Str)

/-- The text functions the desktop takes from the interpreter. -/
structure Interpreter where
  /-- `str.casefold`. -/
  casefold : Str → Str
  /-- `repr` of a value. -/
  reprText : Json → Str

/-! ## Checks -/

/-- `_object(value, field)`. -/
def object (value : Json) (name : Str) : Except Failure (List (Str × Json)) :=
  fromOption value.objOf (.contractError (name ++ str " must be an object"))

/-- `_list(value, field)`. -/
def list (value : Json) (name : Str) : Except Failure (List Json) :=
  fromOption value.arrOf (.contractError (name ++ str " must be an array"))

/-- `_string(value, field, maximum=maximum)`. -/
def string (value : Json) (name : Str) (maximum : Nat) : Except Failure Str := do
  let refusal := Failure.contractError (name ++ str " must be a non-empty bounded string")
  let text ← fromOption value.strOf refusal
  require (text ≠ [] ∧ text.length ≤ maximum) refusal
  pure text

/-- `_optional_string(value, field, maximum=maximum)`. -/
def optionalString (value : Json) (name : Str) (maximum : Nat) : Except Failure (Option Str) :=
  match value with
  | .null => .ok none
  | value => (string value name maximum).map some

/-- `_bool(value, field)`. -/
def boolean (value : Json) (name : Str) : Except Failure Bool :=
  match value with
  | .bool b => .ok b
  | _ => .error (.contractError (name ++ str " must be a boolean"))

/-- `_integer(value, field, minimum=minimum)`. -/
def integer (value : Json) (name : Str) (minimum : Int) : Except Failure Int := do
  let refusal := Failure.contractError
    (name ++ str " must be an integer >= " ++ Text.intText minimum)
  let n ← fromOption value.intOf refusal
  require (minimum ≤ n) refusal
  pure n

/-- `_schema(payload, expected)`. -/
def schema (payload : Json) (expected : String) : Except Failure (List (Str × Json)) := do
  let root ← object payload (str "payload")
  require (isText (field root "schema") (str expected) = true)
    (.contractError (str "unsupported schema; expected " ++ str expected))
  pure root

/-- `value in {…}` for a set of texts. -/
def oneOf (value : Json) (texts : List String) : Except Failure Bool :=
  match value with
  | .str s => .ok (decide (s ∈ texts.map str))
  | .arr _ => .error (.typeError (str "unhashable type: 'list'"))
  | .obj _ => .error (.typeError (str "unhashable type: 'dict'"))
  | _ => .ok false

/-- `if value not in {…}: raise ContractError(text)`. -/
def known (value : Json) (texts : List String) (text : Str) : Except Failure Unit := do
  let found ← oneOf value texts
  require (found = true) (.contractError text)

/-- `if _bool(value, field): raise ContractError(text)`. -/
def mustBeFalse (value : Json) (name : Str) (text : Str) : Except Failure Unit := do
  let b ← boolean value name
  require (b = false) (.contractError text)

/-- `if not _bool(value, field): raise ContractError(text)`. -/
def mustBeTrue (value : Json) (name : Str) (text : Str) : Except Failure Unit := do
  let b ← boolean value name
  require (b = true) (.contractError text)

/-- `if value is not None: check(value)`. -/
def unlessNull {α : Type} (check : Json → Except Failure α) (value : Json) : Except Failure Unit :=
  match value with
  | .null => .ok ()
  | value => (check value).map fun _ => ()

/-! ## Values of an accepted payload -/

/-- `value is True`. -/
def isTrue : Json → Bool
  | .bool b => b
  | _ => false

/-- `value is False`. -/
def isFalse : Json → Bool
  | .bool b => !b
  | _ => false

/-- `value is None`. -/
def isNull : Json → Bool
  | .null => true
  | _ => false

/-- `bool(value)`. -/
def truthy : Json → Bool
  | .null => false
  | .bool b => b
  | .int n => decide (n ≠ 0)
  | .float x => !(x == 0.0)
  | .str s => decide (s ≠ [])
  | .arr elements => !elements.isEmpty
  | .obj members => !members.isEmpty

/-- `type(value).__name__`. -/
def typeName : Json → Str
  | .null => str "NoneType"
  | .bool _ => str "bool"
  | .int _ => str "int"
  | .float _ => str "float"
  | .str _ => str "str"
  | .arr _ => str "list"
  | .obj _ => str "dict"

/-- The error of indexing a value that is not a dictionary with a text. -/
def notIndexable : Json → Failure
  | .arr _ => .typeError (str "list indices must be integers or slices, not str")
  | .str _ => .typeError (str "string indices must be integers, not 'str'")
  | value => .typeError (str "'" ++ typeName value ++ str "' object is not subscriptable")

/-- `value[key]`. -/
def item (value : Json) (key : String) : Except Failure Json :=
  match value with
  | .obj members => fromOption (Json.lookup (str key) members) (.keyError (str key))
  | value => .error (notIndexable value)

/-! ## What the checks accept -/

@[simp] theorem object_eq_ok {value : Json} {name : Str} {members : List (Str × Json)} :
    object value name = .ok members ↔ value = .obj members := by
  simp [object]

@[simp] theorem list_eq_ok {value : Json} {name : Str} {elements : List Json} :
    list value name = .ok elements ↔ value = .arr elements := by
  simp [list]

theorem string_eq_ok {value : Json} {name : Str} {maximum : Nat} {text : Str} :
    string value name maximum = .ok text ↔
      value = .str text ∧ text ≠ [] ∧ text.length ≤ maximum := by
  simp only [string, bind_eq_ok, fromOption_eq_ok, Json.strOf_eq_some, require_eq_ok]
  constructor
  · rintro ⟨_, rfl, _, hbounded, h⟩
    cases h
    exact ⟨rfl, hbounded⟩
  · rintro ⟨rfl, hbounded⟩
    exact ⟨text, rfl, (), hbounded, rfl⟩

@[simp] theorem boolean_eq_ok {value : Json} {name : Str} {b : Bool} :
    boolean value name = .ok b ↔ value = .bool b := by
  cases value <;> simp [boolean]

theorem integer_eq_ok {value : Json} {name : Str} {minimum n : Int} :
    integer value name minimum = .ok n ↔ value = .int n ∧ minimum ≤ n := by
  simp only [integer, bind_eq_ok, fromOption_eq_ok, Json.intOf_eq_some, require_eq_ok]
  constructor
  · rintro ⟨_, rfl, _, hle, h⟩
    cases h
    exact ⟨rfl, hle⟩
  · rintro ⟨rfl, hle⟩
    exact ⟨n, rfl, (), hle, rfl⟩

theorem schema_eq_ok {payload : Json} {expected : String} {root : List (Str × Json)} :
    schema payload expected = .ok root ↔
      payload = .obj root ∧ field root "schema" = .str (str expected) := by
  simp only [schema, bind_eq_ok, object_eq_ok, require_eq_ok, Feed.isText_iff]
  constructor
  · rintro ⟨_, rfl, _, hschema, h⟩
    cases h
    exact ⟨rfl, hschema⟩
  · rintro ⟨rfl, hschema⟩
    exact ⟨root, rfl, (), hschema, rfl⟩

theorem oneOf_eq_true {value : Json} {texts : List String} :
    oneOf value texts = .ok true ↔ ∃ s ∈ texts, value = .str (str s) := by
  cases value <;> simp [oneOf, eq_comm]

theorem known_eq_ok {value : Json} {texts : List String} {text : Str} {u : Unit} :
    known value texts text = .ok u ↔ ∃ s ∈ texts, value = .str (str s) := by
  rw [← oneOf_eq_true]
  simp only [known, bind_eq_ok, require_eq_ok]
  constructor
  · rintro ⟨_, h, hfound⟩
    rw [h, hfound]
  · exact fun h => ⟨true, h, rfl⟩

@[simp] theorem mustBeFalse_eq_ok {value : Json} {name text : Str} {u : Unit} :
    mustBeFalse value name text = .ok u ↔ value = .bool false := by
  simp [mustBeFalse, bind_eq_ok]

@[simp] theorem mustBeTrue_eq_ok {value : Json} {name text : Str} {u : Unit} :
    mustBeTrue value name text = .ok u ↔ value = .bool true := by
  simp [mustBeTrue, bind_eq_ok]

theorem unlessNull_eq_ok {α : Type} {check : Json → Except Failure α} {value : Json} {u : Unit} :
    unlessNull check value = .ok u ↔ value = .null ∨ ∃ a, check value = .ok a := by
  cases value <;>
    simp only [unlessNull, Except.map, true_or, reduceCtorEq, false_or] <;>
    split <;> simp_all

@[simp] theorem isTrue_iff {value : Json} : isTrue value = true ↔ value = .bool true := by
  cases value <;> simp [isTrue]

@[simp] theorem isFalse_iff {value : Json} : isFalse value = true ↔ value = .bool false := by
  cases value <;> simp [isFalse]

@[simp] theorem isNull_iff {value : Json} : isNull value = true ↔ value = .null := by
  cases value <;> simp [isNull]

/-- The field of a dictionary that is written out. -/
theorem field_cons (name key : String) (value : Json) (members : List (Str × Json)) :
    field ((str name, value) :: members) key =
      if name = key then value else field members key := by
  unfold field
  rw [Json.lookup]
  by_cases h : name = key
  · simp [h]
  · simp [h, Text.str_injective]

/-- A field that is not null is a member. -/
theorem lookup_of_field {members : List (Str × Json)} {key : String} {v : Json}
    (h : field members key = v) (hv : v ≠ .null) : Json.lookup (str key) members = some v := by
  unfold field at h
  cases hl : Json.lookup (str key) members with
  | none =>
      rw [hl] at h
      exact absurd h.symm hv
  | some w =>
      rw [hl] at h
      rw [← h]
      rfl

/-- A field that is not null can be read with `[…]`. -/
theorem item_of_field {members : List (Str × Json)} {key : String} {v : Json}
    (h : field members key = v) (hv : v ≠ .null) : item (.obj members) key = .ok v :=
  fromOption_eq_ok.2 (lookup_of_field h hv)

end ZsecShield.Desktop
