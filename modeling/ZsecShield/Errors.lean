import ZsecShield.Lib.Text

/-!
# Exceptions

The exception types the modelled functions can raise.  `ShieldError` is the
`ZsecShieldError` family of `errors.py`.  The other constructors of `PyError`
are built-in exceptions of the interpreter, which that family does not contain.
-/

namespace ZsecShield

open Text (Str str)

/-- A path, as the text `os.fspath` gives. -/
abbrev Path := Str

/-- An `OSError` with its two codes. -/
structure OsError where
  errno : Nat
  winerror : Option Nat
  text : Str
deriving DecidableEq, Repr

/-- The `ZsecShieldError` family. -/
inductive ShieldError where
  | feedError (text : Str)
  | intelligenceError (text : Str)
  | scanConfigurationError (text : Str)
  | scanWorkerError (text : Str)
  | watchError (text : Str)
  | quarantineError (text : Str)
  | quarantinePartialError (text : Str) (entryId : Str)
deriving DecidableEq, Repr

/-- What a modelled function can raise. -/
inductive PyError where
  | shield (error : ShieldError)
  | os (error : OsError)
  | valueError (text : Str)
  | unicodeEncodeError (text : Str)
  | typeError (text : Str)
  | overflowError
  | recursionError
  | structError
  | keyboardInterrupt
deriving DecidableEq, Repr

namespace PyError

/-- Caught by `except Exception`: everything but `KeyboardInterrupt`. -/
def isException : PyError → Bool
  | .keyboardInterrupt => false
  | _ => true

/-- `str(exc)` of an `OSError` or a `ZsecShieldError`. -/
def text : PyError → Str
  | .os e => e.text
  | .shield (.feedError text) | .shield (.intelligenceError text)
  | .shield (.scanConfigurationError text)
  | .shield (.scanWorkerError text) | .shield (.watchError text)
  | .shield (.quarantineError text) | .shield (.quarantinePartialError text _) => text
  | .valueError text | .unicodeEncodeError text | .typeError text => text
  | .overflowError | .recursionError | .structError | .keyboardInterrupt => []

/-- Caught by `except FeedError`, the error of a catalog being a subclass. -/
def isFeed : PyError → Bool
  | .shield (.feedError _) | .shield (.intelligenceError _) => true
  | _ => false

/-- Caught by `except IntelligenceError`. -/
def isIntelligence : PyError → Bool
  | .shield (.intelligenceError _) => true
  | _ => false

/-- Caught by `except ValueError`, the encoding error being a subclass. -/
def isValue : PyError → Bool
  | .valueError _ | .unicodeEncodeError _ => true
  | _ => false

/-- Caught by `except ZsecShieldError`. -/
def isShield : PyError → Bool
  | .shield _ => true
  | _ => false

/-- Caught by `except OSError`. -/
def isOs : PyError → Bool
  | .os _ => true
  | _ => false

/-- Caught by `except QuarantineError`, the partial error being a subclass. -/
def isQuarantine : PyError → Bool
  | .shield (.quarantineError _) | .shield (.quarantinePartialError _ _) => true
  | _ => false

/-- Caught by `except QuarantinePartialError`. -/
def isPartial : PyError → Bool
  | .shield (.quarantinePartialError _ _) => true
  | _ => false

theorem isShield_of_isQuarantine {e : PyError} (h : e.isQuarantine = true) :
    e.isShield = true := by
  cases e with
  | shield _ => rfl
  | _ => cases h

theorem isQuarantine_of_isPartial {e : PyError} (h : e.isPartial = true) :
    e.isQuarantine = true := by
  cases e with
  | shield e =>
      cases e with
      | quarantinePartialError _ _ => rfl
      | _ => cases h
  | _ => cases h

end PyError

end ZsecShield
