import ZsecShield.Errors
import ZsecShield.Lib.Disk
import ZsecShield.Lib.Json.Size

/-!
# The platform

What the modelled code takes from outside the repository: the limits and texts of the
interpreter (`Runtime`) and the primitives of `hashlib` and `cryptography` (`Crypto`).
Nothing is assumed of them but what their documentation says.
-/

namespace ZsecShield

open Text (Str)

/-- The interpreter the code runs on. -/
structure Runtime where
  /-- The containers `json.loads` opens before it raises `RecursionError`. -/
  scanDepth : Nat
  /-- The same for `json.dumps`, with and without indentation. -/
  dumpDepth : Bool → Nat
  /-- The same for `repr`. -/
  reprDepth : Nat
  /-- `sys.get_int_max_str_digits()`. -/
  intDigits : Nat
  scanDepth_ge : 64 ≤ scanDepth
  dumpDepth_ge : ∀ indented, 64 ≤ dumpDepth indented
  intDigits_ge : 640 ≤ intDigits
  /-- `repr` of a value. -/
  reprText : Json → Str
  /-- The message of the `ValueError` that `json.loads` raises for a text. -/
  decodeText : Str → Str
  /-- The offset of local time, in microseconds. -/
  localOffset : DateTime → Int

/-- An interpreter with the usual limits. -/
def usualRuntime : Runtime where
  scanDepth := 900
  dumpDepth := fun _ => 900
  reprDepth := 900
  intDigits := 4300
  scanDepth_ge := by decide
  dumpDepth_ge := by decide
  intDigits_ge := by decide
  reprText := fun _ => []
  decodeText := fun _ => []
  localOffset := fun _ => 0

/-- Digests and signatures. -/
structure Crypto where
  sha256 : Bytes → Bytes
  length_sha256 : ∀ data, (sha256 data).length = 32
  /-- `Ed25519PublicKey.from_public_bytes(key).verify(signature, data)` does not raise. -/
  ed25519 : (key signature data : Bytes) → Bool

/-- `bytes.hex()`. -/
def hexText (data : Bytes) : Str :=
  data.flatMap fun b => [Json.hexChar (b.toNat / 16), Json.hexChar (b.toNat % 16)]

theorem length_hexText (data : Bytes) : (hexText data).length = 2 * data.length := by
  induction data with
  | nil => rfl
  | cons b data ih =>
      simp only [hexText, List.flatMap_cons, List.length_append, List.length_cons,
        List.length_nil] at ih ⊢
      omega

/-- `hashlib.sha256(data).hexdigest()`. -/
def Crypto.hexdigest (crypto : Crypto) (data : Bytes) : Str := hexText (crypto.sha256 data)

theorem Crypto.length_hexdigest (crypto : Crypto) (data : Bytes) :
    (crypto.hexdigest data).length = 64 := by
  rw [Crypto.hexdigest, length_hexText, crypto.length_sha256]

end ZsecShield
