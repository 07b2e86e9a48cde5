import ZsecShield.Feed.Fields

/-!
# The keyring

`load_keyring`: the trusted keys under their identifiers, in the order of the file.
-/

namespace ZsecShield.Feed

open Text (Str str)
open Effect
open Checks

inductive KeyStatus where
  | active
  | revoked
deriving DecidableEq

structure TrustedKey where
  keyId : Str
  publicKey : Bytes
  status : KeyStatus
  notBefore : Option DateTime
  notAfter : Option DateTime
deriving DecidableEq

abbrev Keyring := List (Str × TrustedKey)

/-- `_timestamp(record[key], key) if key in record else None`. -/
def optionalTimestamp (record : List (Str × Json)) (key : String) :
    Except PyError (Option DateTime) :=
  match Json.lookup (str key) record with
  | none => .ok none
  | some value => (timestamp value (str key)).map some

/-- One entry of the keyring, checked against the keys read so far. -/
def keyringRecord (result : Keyring) (record : Json) (index : Nat) :
    Except PyError TrustedKey := do
  let members ← fromOption record.objOf
    (feedError (str "keyring key " ++ natText index ++ str " must be an object"))
  let required := [str "key_id", str "algorithm", str "public_key", str "status"]
  let allowed := required ++ [str "not_before", str "not_after"]
  let present := members.map Prod.fst
  require ((∀ k ∈ required, k ∈ present) ∧ ∀ k ∈ present, k ∈ allowed)
    (feedError (str "keyring key " ++ natText index ++ str " has invalid fields"))
  let keyId ← boundedString (field members "key_id") (indexed "keys" index ++ str ".key_id") 3 128
  require (isRuleId keyId = true)
    (feedError (indexed "keys" index ++ str ".key_id has an invalid format"))
  require (keyId ∉ result.map Prod.fst) (feedError (str "duplicate key_id rejected: " ++ keyId))
  require (isText (field members "algorithm") (str "ed25519") = true)
    (feedError (str "key " ++ keyId ++ str " uses an unsupported algorithm"))
  let known ← memberOf (field members "status") [str "active", str "revoked"]
  require (known = true) (feedError (str "key " ++ keyId ++ str " has an invalid status"))
  let publicKey ← decodeBase64 (field members "public_key")
    (str "key " ++ keyId ++ str " public_key") (some 32)
  let notBefore ← optionalTimestamp members "not_before"
  let notAfter ← optionalTimestamp members "not_after"
  require (∀ before ∈ notBefore, ∀ after ∈ notAfter, before.instant < after.instant)
    (feedError (str "key " ++ keyId ++ str " validity window is inverted"))
  let status := if isText (field members "status") (str "active") then KeyStatus.active else .revoked
  pure ⟨keyId, publicKey, status, notBefore, notAfter⟩

/-- The entries from the one at `index` on. -/
def keyringRecords (result : Keyring) : (index : Nat) → List Json → Except PyError Keyring
  | _, [] => .ok result
  | index, record :: records => do
      let key ← keyringRecord result record index
      keyringRecords (result ++ [(key.keyId, key)]) (index + 1) records

/-- The checks of `load_keyring` on the decoded file. -/
def checkKeyring (rt : Runtime) (value : Json) : Except PyError Keyring := do
  let root ← fromOption value.objOf (feedError (str "keyring root must be an object"))
  expectExactKeys root [str "schema", str "keys"] (str "keyring")
  if isText (field root "schema") (str "zsec.shield.keyring.v1") then
    let refusal := feedError (str "keyring keys must be an array with at most 64 entries")
    let records ← fromOption (field root "keys").arrOf refusal
    require (records.length ≤ 64) refusal
    keyringRecords [] 0 records
  else
    let text ← reprOf rt (field root "schema")
    .error (feedError (str "unsupported keyring schema: " ++ text))

/-- The keyring in the bytes of the file. -/
def parseKeyring (rt : Runtime) (raw : Bytes) : Except PyError Keyring :=
  Util.strictJsonLoads rt raw >>= checkKeyring rt

def maxKeyringBytes : Nat := 256 * 1024

/-- `load_keyring(path)`. -/
def loadKeyring (rt : Runtime) (path : Path) : Util.Io Keyring := do
  let raw ← Prog.tryExcept
    (do
      let size ← Util.sys (Disk.Action.size path)
      Prog.liftExcept (require (size ≤ maxKeyringBytes)
        (feedError (str "keyring is larger than 256 KiB")))
      Util.sys (Disk.Action.read path))
    PyError.isOs
    fun e => Prog.raise (feedError (str "cannot read keyring: " ++ path ++ str ": " ++ e.text))
  Prog.liftExcept (parseKeyring rt raw)

end ZsecShield.Feed
