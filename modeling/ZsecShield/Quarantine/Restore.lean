import ZsecShield.Quarantine.Store

/-!
# Restoring a file

`restore_entry`: the content is decrypted, or copied from an entry of the old schema, into a
temporary file beside the destination, checked, and linked under the name of the destination.
Then the restoration is recorded in the metadata.
-/

namespace ZsecShield.Quarantine

open Text (Str str)
open Feed (field isText)
open Effect
open Checks

/-- `int(value)` of a number; a float or a text is converted as `convert` does it. -/
def toInt (convert : Json → Except PyError Int) : Json → Except PyError Int
  | .int n => .ok n
  | .bool b => .ok (if b then 1 else 0)
  | value => convert value

/-- `_validate_regular_content(path)`. -/
def validateRegularContent (path : Path) : Util.Io Disk.File := do
  let node ← Prog.tryExcept (Util.sys (Disk.Action.lstat path)) PyError.isOs
    fun e => Prog.raise (quarantineError (str "cannot inspect quarantine content: " ++ e.text))
  match node with
  | .file f => pure f
  | _ => Prog.raise (quarantineError (str "quarantine content is not a regular, non-link file"))

/-- `with path.open("rb") as handle: for chunk in iter(…): write(chunk)`. -/
def readChunks (fuel : Nat) (path : Path) (write : Nat → Bytes → Util.Io Unit) : Util.Io Bytes := do
  let opened ← Util.sys (Disk.Action.openFile path)
  copyChunks (fun offset => Util.sys (Disk.Action.readAt path opened offset copyChunkBytes)) write
    fuel []

/-- `_decrypt_content(content, output, metadata, state_dir)`. -/
def decryptContent (S : System) (fuel : Nat) (stateDir content output : Path)
    (metadata : List (Str × Json)) : Util.Io (Str × Nat) := do
  let f ← validateRegularContent content
  Prog.liftExcept (require (intValue (field metadata "size") = some (f.content.length : Int))
    (quarantineError (str "encrypted quarantine content size is invalid")))
  let device ← loadDeviceRoot S stateDir false
  let envelope ← Prog.liftExcept (VaultEnvelope.fromDict (field metadata "vault"))
  let aad ← Prog.liftExcept (Util.canonicalJsonBytes S.runtime (aadProjection metadata))
  let contentKey ← Prog.liftExcept (unwrapContentKey S device
    ((field metadata "id").strOf.getD []) envelope aad)
  let tag ← Prog.liftExcept (decodeContentTag (field metadata "content_tag"))
  let ciphertext ← Prog.tryExcept
    (do
      let ciphertext ← readChunks fuel content fun offset chunk =>
        Util.sys (Disk.Action.extend output (S.aead.crypt contentKey envelope.contentNonce offset chunk))
      Prog.liftExcept (require
        (S.aead.tag contentKey envelope.contentNonce aad ciphertext = tag)
        (quarantineError (str "encrypted quarantine content authentication failed")))
      pure ciphertext)
    PyError.isOs
    fun e => Prog.raise (quarantineError (str "cannot decrypt quarantine content: " ++ e.text))
  let plaintext := S.aead.crypt contentKey envelope.contentNonce 0 ciphertext
  pure (S.hexdigest plaintext, plaintext.length)

/-- `_hash_regular_file(path)`. -/
def hashRegularFile (S : System) (fuel : Nat) (path : Path) : Util.Io (Str × Nat) := do
  let _ ← validateRegularContent path
  let data ← Prog.tryExcept (readChunks fuel path fun _ _ => pure ()) PyError.isOs
    fun e => Prog.raise (quarantineError (str "cannot verify quarantine content: " ++ e.text))
  pure (S.hexdigest data, data.length)

/-- `_copy_legacy_content(content, output)`. -/
def copyLegacyContent (S : System) (fuel : Nat) (content output : Path) : Util.Io (Str × Nat) := do
  let expected ← hashRegularFile S fuel content
  let data ← Prog.tryExcept
    (readChunks fuel content fun _ chunk => Util.sys (Disk.Action.extend output chunk))
    PyError.isOs
    fun e => Prog.raise (quarantineError (str "cannot restore legacy quarantine content: " ++ e.text))
  Prog.liftExcept (require (S.hexdigest data = expected.1 ∧ data.length = expected.2)
    (quarantineError (str "legacy restore copy verification failed")))
  pure expected

/-- The destination of a restoration. -/
def restoreTarget (S : System) (metadata : List (Str × Json)) (destination : Option Path) :
    Except PyError Path :=
  match destination with
  | some path => S.expand path
  | none =>
      match field metadata "original_path" with
      | .str path => S.expand (S.pathText path)
      | _ => .error (.typeError (str "argument should be a str or an os.PathLike object"))

/-- The bound of a time stamp, which the platform holds as whole seconds in 64 bits. -/
def fitsTime (ns : Int) : Prop := -(2 ^ 63 * 10 ^ 9) ≤ ns ∧ ns < 2 ^ 63 * 10 ^ 9

instance (ns : Int) : Decidable (fitsTime ns) := inferInstanceAs (Decidable (_ ∧ _))

/-- `except FileExistsError`. -/
def isFileExists : PyError → Bool
  | .os e => decide (e.errno = 17)
  | _ => false

/-- The content of an entry in a temporary file: its digest and its size. -/
def writeContent (S : System) (fuel : Nat) (stateDir entry temporary : Path)
    (metadata : List (Str × Json)) : Schema → Util.Io (Str × Nat)
  | .current => decryptContent S fuel stateDir (Disk.join entry contentName) temporary metadata
  | .legacy => copyLegacyContent S fuel (Disk.join entry legacyContentName) temporary

/-- `os.chmod(temporary, int(metadata["original_mode"]) & 0o777)`. -/
def setMode (convert : Json → Except PyError Int) (temporary : Path) (metadata : List (Str × Json)) :
    Util.Io Unit :=
  Prog.suppress PyError.isOs do
    let mode ← Prog.liftExcept (toInt convert (field metadata "original_mode"))
    Util.sys (Disk.Action.chmod temporary (mode % 0o1000).toNat)

/-- `os.link(temporary, target)`. -/
def linkTarget (temporary target : Path) : Util.Io Unit :=
  Prog.tryExcept (Util.sys (Disk.Action.link temporary target)) PyError.isOs fun e =>
    if isFileExists e then
      Prog.raise (quarantineError (str "restore destination appeared during restore: " ++ target))
    else Prog.raise (quarantineError
      (str "filesystem does not support the required no-overwrite restore operation"))

/-- `os.utime(target, ns=(modified_ns, modified_ns))`. -/
def setTimes (convert : Json → Except PyError Int) (target : Path) (metadata : List (Str × Json)) :
    Util.Io Unit :=
  Prog.suppress PyError.isOs do
    let ns ← Prog.liftExcept (toInt convert (field metadata "original_modified_ns"))
    Prog.liftExcept (require (fitsTime ns) .overflowError)
    Util.sys (Disk.Action.utime target ns)

/-- The guarded part of `restore_entry`: the digest and the size of what was linked. -/
def place (S : System) (convert : Json → Except PyError Int) (fuel : Nat)
    (stateDir entry temporary target : Path) (metadata : List (Str × Json)) (schema : Schema) :
    Util.Io (Str × Nat) := do
  let written ← writeContent S fuel stateDir entry temporary metadata schema
  -- Flush, synchronise and close.
  Util.sys Disk.Action.touch
  Util.sys Disk.Action.touch
  Util.sys Disk.Action.touch
  Prog.liftExcept (require (isText (field metadata "sha256") written.1 = true ∧
      intValue (field metadata "size") = some (written.2 : Int))
    (quarantineError (str "quarantine content failed its SHA-256 or size check")))
  setMode convert temporary metadata
  linkTarget temporary target
  Util.sys (Disk.Action.unlink temporary)
  setTimes convert target metadata
  pure written

/-- The restore history with one more restoration, which keeps the last hundred. -/
def recorded (metadata : List (Str × Json)) (restoredAt : Str) (target : Path) :
    List (Str × Json) :=
  let history := (field metadata "restore_history").arrOf.getD [] ++
    [.obj [(str "restored_at", .str restoredAt), (str "destination", .str target)]]
  Json.insertMember (Json.insertMember metadata (str "state") (.str (str "restored")))
    (str "restore_history") (.arr (history.drop (history.length - 100)))

/-- The new metadata of a restored entry. -/
def recordRestore (S : System) (stateDir path : Path) (updated : List (Str × Json)) :
    Schema → Util.Io Unit
  | .current => do
      let _ ← writeMetadata S stateDir path updated
      pure ()
  | .legacy => Util.atomicWriteJson S.runtime path (.obj updated) 0o600

/-- `target.exists() or target.is_symlink()`. -/
def isTaken (target : Path) : Util.Io Bool := do
  let there ← Util.sys (Disk.Action.existsAt target)
  if there then pure true else Util.sys (Disk.Action.isLink target)

/-- The checks of the destination. -/
def checkTarget (target : Path) : Util.Io Unit := do
  let taken ← isTaken target
  Prog.liftExcept (require (taken = false)
    (quarantineError (str "restore destination already exists: " ++ target)))
  let parent ← Prog.tryExcept (Util.sys (Disk.Action.lstat (Disk.parent target))) PyError.isOs
    fun e => Prog.raise (quarantineError (str "restore parent is unavailable: " ++ e.text))
  Prog.liftExcept (require (parent = .directory)
    (quarantineError (str "restore parent must be an existing, non-reparse directory")))

/-- What `restore_entry` returns. -/
structure Restored where
  id : Str
  destination : Path
  sha256 : Str
  size : Nat
  encrypted : Bool

/-- `restore_entry(entry_id, state_dir, destination)`. -/
def restoreEntry (S : System) (convert : Json → Except PyError Int) (fuel : Nat) (entryId : Str)
    (stateDir : Path) (destination : Option Path) : Util.Io Restored := do
  let normalized ← Prog.liftExcept (validateEntryId S entryId)
  let entry := Disk.join (entriesDir stateDir) normalized
  let (metadata, schema) ← readMetadata S stateDir normalized
  let target ← Prog.liftExcept (restoreTarget S metadata destination)
  checkTarget target
  let temporary ← Util.sys (Disk.Action.mkstemp (Disk.parent target)
    (str ".zero-security-restore."))
  let placed ← Prog.tryExcept
    (place S convert fuel stateDir entry temporary target metadata schema) (fun _ => true)
    fun e => do
      Prog.suppress PyError.isOs (Util.sys (Disk.Action.unlink temporary))
      Prog.raise e
  let restoredAt ← Util.sys Disk.Action.now
  recordRestore S stateDir (Disk.join entry metadataName)
    (recorded metadata (Util.formatUtc restoredAt) target) schema
  pure ⟨normalized, target, placed.1, placed.2, decide (schema = .current)⟩

end ZsecShield.Quarantine
