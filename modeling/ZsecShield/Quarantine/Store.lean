import ZsecShield.Quarantine.Metadata
import ZsecShield.Scan.Inspection

/-!
# Putting a file into quarantine

The writing side of `quarantine.py`: `quarantine_finding` encrypts the source into a temporary
directory, publishes the directory under the name of the entry, and only then removes the source.
A loop that reads a file runs on fuel: out of fuel it is seen in the middle of its run.
-/

namespace ZsecShield.Quarantine

open Text (Str str)
open Feed (field isText)
open Effect
open Checks

def copyChunkBytes : Nat := 1024 * 1024

/-! ## Snapshots -/

structure SourceSnapshot where
  device : Nat
  inode : Nat
  size : Nat
  modifiedNs : Int
  mode : Nat
deriving DecidableEq

/-- `_snapshot(metadata)` of a regular file. -/
def snapshotOf (f : Disk.File) : SourceSnapshot :=
  ⟨f.device, f.inode, f.content.length, f.modifiedNs, f.mode⟩

/-- `_same_snapshot(left, right)`. -/
def sameSnapshot (left right : SourceSnapshot) : Bool :=
  decide (left.device = right.device) &&
    decide (left.inode = 0 ∨ right.inode = 0 ∨ left.inode = right.inode) &&
    decide (left.size = right.size) && decide (left.modifiedNs = right.modifiedNs)

/-- `_inspect_regular_source(source)`. -/
def inspectRegularSource (source : Path) : Util.Io SourceSnapshot := do
  let node ← Prog.tryExcept (Util.sys (Disk.Action.lstat source)) PyError.isOs
    fun e => Prog.raise (quarantineError (str "cannot inspect source file: " ++ e.text))
  match node with
  | .file f => pure (snapshotOf f)
  | _ => Prog.raise (quarantineError (str "quarantine source must be a regular, non-link file"))

/-! ## Copying -/

/-- `while chunk := read(): write(chunk)`, with what was read so far. -/
def copyChunks (read : Nat → Util.Io Bytes) (write : Nat → Bytes → Util.Io Unit) :
    Nat → Bytes → Util.Io Bytes
  | 0, _ => Prog.halt
  | fuel + 1, done => do
      let chunk ← read done.length
      if chunk = [] then pure done
      else do
        write done.length chunk
        copyChunks read write fuel (done ++ chunk)

/-- The guarded part of `_encrypt_regular_source`, with the opened file: what was read. -/
def encryptOpened (S : System) (fuel : Nat) (source destination : Path) (expected : SourceSnapshot)
    (opened : Disk.File) (contentKey contentNonce : Bytes) : Util.Io Bytes := do
  let opened ← Util.sys (Disk.Action.fstat source opened)
  Prog.liftExcept (require (sameSnapshot expected (snapshotOf opened) = true)
    (quarantineError (str "source file identity changed before quarantine encryption")))
  Util.sys (Disk.Action.createNew destination)
  let plaintext ← copyChunks
    (fun offset => Util.sys (Disk.Action.readAt source opened offset
      (min (S.readSize offset) copyChunkBytes)))
    (fun offset chunk => Util.sys (Disk.Action.extend destination
      (S.aead.crypt contentKey contentNonce offset chunk)))
    fuel []
  -- Flush and synchronise.
  Util.sys Disk.Action.touch
  Util.sys Disk.Action.touch
  let after ← Util.sys (Disk.Action.fstat source opened)
  Prog.liftExcept (require (sameSnapshot (snapshotOf opened) (snapshotOf after) = true)
    (quarantineError (str "source file changed during quarantine encryption")))
  let size ← Util.sys (Disk.Action.size destination)
  Prog.liftExcept (require (size = opened.content.length)
    (quarantineError (str "source file changed during quarantine encryption")))
  pure plaintext

/-- What was opened is no regular file any more, or it is encrypted. -/
def encryptNode (S : System) (fuel : Nat) (source destination : Path) (expected : SourceSnapshot)
    (contentKey contentNonce : Bytes) : Disk.Node → Util.Io Bytes
  | .file opened => encryptOpened S fuel source destination expected opened contentKey contentNonce
  | _ => Prog.raise (quarantineError
      (str "source file identity changed before quarantine encryption"))

/-- `_encrypt_regular_source(source, destination, …)`: the digest of the text and the tag. -/
def encryptRegularSource (S : System) (fuel : Nat) (source destination : Path)
    (expected : SourceSnapshot) (contentKey contentNonce aad : Bytes) : Util.Io (Str × Bytes) := do
  let node ← Prog.tryExcept (Util.sys (Disk.Action.openRead source)) PyError.isOs
    fun e => Prog.raise (quarantineError (str "cannot open source file: " ++ e.text))
  let plaintext ← Prog.tryFinally
    (Prog.tryExcept (encryptNode S fuel source destination expected contentKey contentNonce node)
      (fun _ => true)
      fun e => do
        Prog.suppress PyError.isOs (Util.sys (Disk.Action.unlink destination))
        Prog.raise e)
    (Util.sys Disk.Action.touch)
  Prog.suppress PyError.isOs (Util.sys (Disk.Action.chmod destination 0o600))
  pure (S.hexdigest plaintext,
    S.aead.tag contentKey contentNonce aad (S.aead.crypt contentKey contentNonce 0 plaintext))

/-! ## Metadata -/

def kindText : RuleKind → Str
  | .sha256 => str "sha256"
  | .literal => str "literal"

/-- `match.to_dict()`. -/
def matchDict (m : RuleMatch) : Json :=
  .obj [(str "id", .str m.ruleId), (str "name", .str m.name), (str "kind", .str (kindText m.kind)),
    (str "severity", .str (Scan.severityText m.severity)),
    (str "description", .str m.description), (str "source", .str m.source)]

/-- The metadata of a new entry in front of its vault fields. -/
def newMetadata (entryId : Str) (finding : FileFinding) (source : Path) (snapshot : SourceSnapshot)
    (createdAt : Str) (zba : List (Str × Json)) : List (Str × Json) :=
  [(str "schema", .str metadataSchema), (str "id", .str entryId),
    (str "state", .str (str "copy_ready")), (str "original_path", .str source),
    (str "sha256", .str finding.sha256), (str "size", .int snapshot.size),
    (str "original_mode", .int snapshot.mode), (str "original_modified_ns", .int snapshot.modifiedNs),
    (str "created_at", .str createdAt), (str "quarantined_at", .null),
    (str "restore_history", .arr []), (str "matches", .arr (finding.ruleMatches.map matchDict)),
    (str "zba", .obj zba)]

/-- `_write_v2_metadata(path, metadata, state_dir)`. -/
def writeMetadata (S : System) (stateDir path : Path) (metadata : List (Str × Json)) :
    Util.Io (List (Str × Json)) := do
  let device ← loadDeviceRoot S stateDir false
  let signed ← Prog.liftExcept (signMetadata S device metadata)
  Util.atomicWriteJson S.runtime path (.obj signed) 0o600
  pure signed

/-- `str(uuid.uuid4())` from its random bytes. -/
def uuidText (random : Bytes) : Str :=
  let hex := hexText (random.zipIdx.map fun b =>
    if b.2 = 6 then b.1 % 16 + 0x40 else if b.2 = 8 then b.1 % 64 + 0x80 else b.1)
  let dash := str "-"
  hex.take 8 ++ dash ++ (hex.drop 8).take 4 ++ dash ++ (hex.drop 12).take 4 ++ dash ++
    (hex.drop 16).take 4 ++ dash ++ hex.drop 20

/-! ## The protocol -/

/-- The guarded part of `quarantine_finding`: the signed metadata of the published entry. -/
def publish (S : System) (fuel : Nat) (finding : FileFinding) (source temporary final : Path)
    (snapshot : SourceSnapshot) (device : DeviceRoot) (metadata : List (Str × Json))
    (envelope : VaultEnvelope) (contentKey aad : Bytes) : Util.Io (List (Str × Json)) := do
  Prog.suppress PyError.isOs (Util.sys (Disk.Action.chmod temporary 0o700))
  let (digest, contentTag) ← encryptRegularSource S fuel source (Disk.join temporary contentName)
    snapshot contentKey envelope.contentNonce aad
  Prog.liftExcept (require (digest = finding.sha256)
    (quarantineError (str "source no longer matches the verified scan finding")))
  let metadata := metadata ++ [(str "vault", .obj (envelope.toDict device.protection)),
    (str "content_tag", .str (Base64.encode contentTag))]
  let signed ← Prog.liftExcept (signMetadata S device metadata)
  Util.atomicWriteJson S.runtime (Disk.join temporary metadataName) (.obj signed) 0o600
  Util.sys (Disk.Action.renameTree temporary final)
  pure signed

def partialError (text entryId : Str) : PyError := .shield (.quarantinePartialError text entryId)

/-- What is at the path of the source is the file of the snapshot. -/
def isSource (snapshot : SourceSnapshot) : Disk.Node → Bool
  | .file f => sameSnapshot snapshot (snapshotOf f)
  | _ => false

/-- The removal of the source behind its last comparison. -/
def removeSource (source : Path) (snapshot : SourceSnapshot) (entryId : Str) : Util.Io Unit := do
  let node ← Util.sys (Disk.Action.lstat source)
  Prog.liftExcept (require (isSource snapshot node = true) (partialError
    (str "authenticated recovery copy created, but source changed before removal") entryId))
  Util.sys (Disk.Action.unlink source)

/-- What `quarantine_finding` does with a published entry. -/
def finish (S : System) (stateDir source final : Path) (snapshot : SourceSnapshot) (entryId : Str)
    (metadata : List (Str × Json)) : Util.Io (List (Str × Json)) := do
  Prog.tryExcept (removeSource source snapshot entryId) (fun e => e.isPartial || e.isOs)
    fun e => do
      let _ ← writeMetadata S stateDir (Disk.join final metadataName)
        (Json.insertMember metadata (str "state") (.str (str "copy_only")))
      if e.isPartial then Prog.raise e
      else Prog.raise (partialError (str
        "authenticated recovery copy created, but original could not be removed: " ++ e.text) entryId)
  let quarantinedAt ← Util.sys Disk.Action.now
  writeMetadata S stateDir (Disk.join final metadataName)
    (Json.insertMember (Json.insertMember metadata (str "state") (.str (str "quarantined")))
      (str "quarantined_at") (.str (Util.formatUtc quarantinedAt)))

/-- `quarantine_finding` from the temporary directory on. -/
def fillEntry (S : System) (fuel : Nat) (finding : FileFinding) (stateDir source temporary : Path)
    (snapshot : SourceSnapshot) (entryId createdAt : Str) : Util.Io (List (Str × Json)) := do
  let final := Disk.join (entriesDir stateDir) entryId
  let device ← loadDeviceRoot S stateDir true
  let zba ← Prog.liftExcept (createQuarantineRecord S entryId finding.sha256 createdAt)
  let metadata := newMetadata entryId finding source snapshot createdAt zba
  let aad ← Prog.liftExcept (Util.canonicalJsonBytes S.runtime (aadProjection metadata))
  let made ← createEnvelope S device entryId aad
  let signed ← Prog.tryExcept
    (publish S fuel finding source temporary final snapshot device metadata made.1 made.2 aad)
    (fun _ => true)
    fun e => do
      Prog.suppress PyError.isOs (Util.sys (Disk.Action.rmtree temporary))
      Prog.raise e
  finish S stateDir source final snapshot entryId signed

/-- `quarantine_finding(finding, state_dir)`. -/
def quarantineFinding (S : System) (fuel : Nat) (finding : FileFinding) (stateDir : Path) :
    Util.Io (List (Str × Json)) := do
  let source := S.pathText finding.path
  Prog.liftExcept (require (S.isAbsolute source = true)
    (quarantineError (str "quarantine requires an absolute source path")))
  let snapshot ← inspectRegularSource source
  Prog.liftExcept (require (snapshot.size = finding.size)
    (quarantineError (str "source no longer matches the verified scan finding")))
  let entries := entriesDir stateDir
  Util.sys (Disk.Action.mkdir entries)
  Prog.suppress PyError.isOs (Util.sys (Disk.Action.chmod entries 0o700))
  let random ← Util.sys (Disk.Action.urandom 16)
  let entryId := uuidText random
  let created ← Util.sys Disk.Action.now
  let temporary ← Util.sys (Disk.Action.mkdtemp entries (str "." ++ entryId ++ str "."))
  fillEntry S fuel finding stateDir source temporary snapshot entryId (Util.formatUtc created)

end ZsecShield.Quarantine
