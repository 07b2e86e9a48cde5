import ZsecShield.Quarantine.Record

/-!
# The metadata of an entry

The reading side of `quarantine.py`: `_read_metadata` with every check of a decoded file, and
`list_entries`.  An entry of the old schema has no MAC and no vault fields.
-/

namespace ZsecShield.Quarantine

open Text (Str str)
open Feed (field isText memberOf)
open Effect
open Checks

def legacyMetadataSchema : Str := str "zsec.shield.quarantine.v1"
def metadataSchema : Str := str "zero.security.quarantine.v2"

def legacyContentName : Str := str "content.bin"
def contentName : Str := str "content.zsv2"
def metadataName : Str := str "metadata.json"

def maxMetadataBytes : Nat := 256 * 1024

/-- `quarantine_entries_dir(state_dir)`. -/
def entriesDir (stateDir : Path) : Path :=
  Disk.join (Disk.join stateDir (str "quarantine")) (str "entries")

/-! ## Identifiers -/

def isLowerHex (c : Text.CodePoint) : Bool :=
  Text.isDigit c || decide (97 ≤ c.val ∧ c.val ≤ 102)

/-- `str(uuid)` of a UUID: groups of lower hexadecimal digits with dashes between them. -/
def isCanonicalUuid (s : Str) : Bool :=
  decide (s.length = 36) && s.zipIdx.all fun c =>
    if c.2 = 8 ∨ c.2 = 13 ∨ c.2 = 18 ∨ c.2 = 23 then decide (c.1 = Text.ofChar '-')
    else isLowerHex c.1

/-- `_validate_entry_id(entry_id)`. -/
def validateEntryId (S : System) (entryId : Str) : Except PyError Str :=
  if isCanonicalUuid (Feed.lower entryId) then .ok (Feed.lower entryId)
  else if S.isUuid entryId then
    .error (quarantineError (str "quarantine entry ID must use canonical UUID form"))
  else .error (quarantineError (str "quarantine entry ID must be a UUID"))

/-! ## Checks of a decoded file -/

def commonFields : List Str :=
  [str "schema", str "id", str "state", str "original_path", str "sha256", str "size",
    str "original_mode", str "original_modified_ns", str "created_at", str "quarantined_at",
    str "restore_history", str "matches"]

def vaultFields : List Str := [str "zba", str "vault", str "content_tag", str "metadata_mac"]

def entryStates : List Str :=
  [str "copy_ready", str "copy_only", str "quarantined", str "restored"]

/-- `isinstance(value, int)` with `int(value)`: a truth value is an integer. -/
def intValue : Json → Option Int
  | .int n => some n
  | .bool b => some (if b then 1 else 0)
  | _ => none

/-- The two schemas. -/
inductive Schema where
  | legacy
  | current
deriving DecidableEq

/-- The schema of a dictionary. -/
def schemaOf (metadata : List (Str × Json)) : Except PyError Schema :=
  if isText (field metadata "schema") legacyMetadataSchema then .ok .legacy
  else if isText (field metadata "schema") metadataSchema then .ok .current
  else .error (quarantineError (str "unsupported quarantine metadata schema"))

def requiredFields : Schema → List Str
  | .legacy => commonFields
  | .current => commonFields ++ vaultFields

/-- The checks of `_read_metadata` that both schemas share. -/
def checkCommon (entryName : Str) (value : Json) :
    Except PyError (List (Str × Json) × Schema × Str) := do
  let metadata ← fromOption value.objOf
    (quarantineError (str "quarantine metadata must be an object"))
  let schema ← schemaOf metadata
  require (Json.keysAre metadata (requiredFields schema) = true ∧
      isText (field metadata "id") entryName = true)
    (quarantineError (str "quarantine metadata fields or identity are invalid"))
  let digest ← fromOption (field metadata "sha256").strOf
    (quarantineError (str "quarantine metadata digest is invalid"))
  require (isDigest digest = true) (quarantineError (str "quarantine metadata digest is invalid"))
  let size ← fromOption (intValue (field metadata "size"))
    (quarantineError (str "quarantine metadata size is invalid"))
  require (0 ≤ size) (quarantineError (str "quarantine metadata size is invalid"))
  let known ← memberOf (field metadata "state") entryStates
  require (known = true) (quarantineError (str "quarantine state is invalid"))
  require ((field metadata "restore_history").arrOf.isSome ∧
      (field metadata "matches").arrOf.isSome)
    (quarantineError (str "quarantine metadata lists are invalid"))
  pure (metadata, schema, digest)

/-- `_decode_content_tag(value)`. -/
def decodeContentTag (value : Json) : Except PyError Bytes := do
  let text ← fromOption value.strOf (quarantineError (str "vault content tag must be base64 text"))
  let tag ← fromOption (Base64.decode text)
    (quarantineError (str "vault content tag is invalid base64"))
  require (tag.length = 16) (quarantineError (str "vault content tag length is invalid"))
  pure tag

def aadFields : List String :=
  ["schema", "id", "original_path", "sha256", "size", "original_mode", "original_modified_ns",
    "created_at", "matches", "zba"]

/-- `_aad_projection(metadata)`. -/
def aadProjection (metadata : List (Str × Json)) : Json :=
  .obj (aadFields.map fun name => (str name, field metadata name))

/-- The checks of `_read_metadata` with the device root at hand. -/
def checkVault (S : System) (device : DeviceRoot) (entryName digest : Str)
    (metadata : List (Str × Json)) : Except PyError Unit := do
  verifyMetadata S device metadata
  let _ ← VaultEnvelope.fromDict (field metadata "vault")
  require (isText (field ((field metadata "vault").objOf.getD []) "device_key_protection")
      device.protection = true)
    (quarantineError (str "vault device-key protection record is inconsistent"))
  let _ ← decodeContentTag (field metadata "content_tag")
  validateQuarantineRecord S (field metadata "zba") entryName digest
  let _ ← Util.canonicalJsonBytes S.runtime (aadProjection metadata)
  pure ()

/-- The decoded metadata file. -/
def loadMetadata (S : System) (path : Path) : Util.Io Json :=
  Prog.tryExcept
    (do
      let size ← Util.sys (Disk.Action.size path)
      Prog.liftExcept (require (size ≤ maxMetadataBytes)
        (quarantineError (str "quarantine metadata is unexpectedly large")))
      let raw ← Util.sys (Disk.Action.read path)
      Prog.liftExcept (Util.strictJsonLoads S.runtime raw))
    (fun e => e.isFeed || e.isOs)
    fun e =>
      if e.isFeed then
        Prog.raise (quarantineError (str "invalid quarantine metadata: " ++ e.text))
      else Prog.raise (quarantineError (str "cannot read quarantine metadata: " ++ e.text))

/-- The part of `_read_metadata` for the schema with a device root. -/
def authenticate (S : System) (stateDir : Path) (entryName digest : Str)
    (metadata : List (Str × Json)) : Schema → Util.Io Unit
  | .legacy => pure ()
  | .current => do
      let device ← loadDeviceRoot S stateDir false
      Prog.liftExcept (checkVault S device entryName digest metadata)

/-- `_read_metadata(entry, state_dir)` for the entry of a name. -/
def readMetadata (S : System) (stateDir : Path) (entryName : Str) :
    Util.Io (List (Str × Json) × Schema) := do
  let value ← loadMetadata S (Disk.join (Disk.join (entriesDir stateDir) entryName) metadataName)
  let checked ← Prog.liftExcept (checkCommon entryName value)
  authenticate S stateDir entryName checked.2.2 checked.1 checked.2.1
  pure (checked.1, checked.2.1)

/-! ## The listing -/

/-- A record of the listing. -/
structure EntryRecord where
  id : Json
  state : Json
  originalPath : Json
  sha256 : Json
  size : Json
  createdAt : Json
  quarantinedAt : Json
  restoreCount : Nat
  ruleMatches : Json
  encrypted : Bool

def EntryRecord.of (metadata : List (Str × Json)) (schema : Schema) : EntryRecord where
  id := field metadata "id"
  state := field metadata "state"
  originalPath := field metadata "original_path"
  sha256 := field metadata "sha256"
  size := field metadata "size"
  createdAt := field metadata "created_at"
  quarantinedAt := field metadata "quarantined_at"
  restoreCount := ((field metadata "restore_history").arrOf.getD []).length
  ruleMatches := field metadata "matches"
  encrypted := decide (schema = .current)

/-- What `list_entries` returns: the records, and the entries that are not valid with what is
wrong with them. -/
structure Listing where
  records : List EntryRecord := []
  errors : List (Str × Str) := []

/-- One turn of the loop of `list_entries`. -/
def listEntry (S : System) (stateDir : Path) (listing : Listing) (entryName : Str) :
    Util.Io Listing :=
  if entryName.head? = some (Text.ofChar '.') then pure listing
  else
    Prog.tryExcept
      (do
        let _ ← Prog.liftExcept (validateEntryId S entryName)
        let (metadata, schema) ← readMetadata S stateDir entryName
        pure { listing with records := listing.records ++ [EntryRecord.of metadata schema] })
      PyError.isQuarantine
      fun e => pure { listing with errors := listing.errors ++ [(entryName, e.text)] }

/-- `list_entries(state_dir)`, where `names` is what `iterdir` gives. -/
def listEntries (S : System) (stateDir : Path) (names : List Str) : Util.Io Listing := do
  let there ← Util.sys (Disk.Action.existsAt (entriesDir stateDir))
  if there then
    let candidates ← Prog.tryExcept
      (do
        Util.sys Disk.Action.touch
        pure (names.insertionSort (· ≤ ·)))
      PyError.isOs
      fun e => Prog.raise (quarantineError (str "cannot list quarantine: " ++ e.text))
    Prog.foldEach (listEntry S stateDir) {} candidates
  else pure {}

end ZsecShield.Quarantine
