import ZsecShield.Feed.Verify

/-!
# The feed store

The installed document and the rollback state beside it: `_read_state`, `inspect_feed`
and `install_feed`.  The two files are replaced one after the other under the update
lock, the document first.
-/

namespace ZsecShield.Feed

open Text (Str str)
open Effect
open Checks

def feedDocumentPath (stateDir : Path) : Path :=
  Disk.join (Disk.join stateDir (str "feed")) (str "current.json")

def feedStatePath (stateDir : Path) : Path :=
  Disk.join (Disk.join stateDir (str "feed")) (str "state.json")

def feedLockPath (stateDir : Path) : Path :=
  Disk.join (Disk.join stateDir (str "feed")) (str ".update.lock")

/-- The rollback state. -/
structure FeedState where
  maxSequence : Int
  currentPayloadSha256 : Str
  keyId : Str
  updatedAt : Str
deriving DecidableEq

def stateFields : List Str :=
  [str "schema", str "max_sequence", str "current_payload_sha256", str "key_id", str "updated_at"]

def stateSchema : Str := str "zsec.shield.feed-state.v1"

/-- The dictionary that `install_feed` writes. -/
def FeedState.toJson (state : FeedState) : Json :=
  .obj [(str "schema", .str stateSchema), (str "max_sequence", .int state.maxSequence),
    (str "current_payload_sha256", .str state.currentPayloadSha256),
    (str "key_id", .str state.keyId), (str "updated_at", .str state.updatedAt)]

/-- The checks of `_read_state` on the decoded file. -/
def checkState (value : Json) : Except PyError FeedState := do
  let members ← fromOption value.objOf (feedError (str "feed state must be an object"))
  expectExactKeys members stateFields (str "feed state")
  require (isText (field members "schema") stateSchema = true)
    (feedError (str "unsupported feed state schema"))
  let sequence ← fromOption (field members "max_sequence").intOf
    (feedError (str "feed state sequence is invalid"))
  require (1 ≤ sequence) (feedError (str "feed state sequence is invalid"))
  let digest ← fromOption (field members "current_payload_sha256").strOf
    (feedError (str "feed state digest is invalid"))
  require (isSha256 digest = true) (feedError (str "feed state digest is invalid"))
  let keyId ← boundedString (field members "key_id") (str "feed state key_id") 3 128
  let _ ← timestamp (field members "updated_at") (str "feed state updated_at")
  pure ⟨sequence, digest, keyId, (field members "updated_at").strOf.getD []⟩

/-- The rollback state in the bytes of its file. -/
def parseState (rt : Runtime) (raw : Bytes) : Except PyError FeedState :=
  Util.strictJsonLoads rt raw >>= checkState

def maxStateBytes : Nat := 64 * 1024

/-- `_read_state(path)`. -/
def readState (rt : Runtime) (path : Path) : Util.Io (Option FeedState) := do
  if ← Util.sys (Disk.Action.existsAt path) then
    let value ← Prog.tryExcept
      (do
        let size ← Util.sys (Disk.Action.size path)
        Prog.liftExcept (require (size ≤ maxStateBytes)
          (feedError (str "feed state is unexpectedly large")))
        let raw ← Util.sys (Disk.Action.read path)
        Prog.liftExcept (Util.strictJsonLoads rt raw))
      PyError.isOs
      fun e => Prog.raise (feedError (str "cannot read feed state: " ++ e.text))
    let state ← Prog.liftExcept (checkState value)
    pure (some state)
  else pure none

/-- The state of `inspect_feed`'s answer. -/
inductive FeedHealth where
  | absent
  | valid
  | invalid
deriving DecidableEq

structure FeedStatus where
  state : FeedHealth
  path : Str
  keyringPath : Str
  sequence : Option Int
  keyId : Option Str
  rulesCount : Nat
  generatedAt : Option Str
  expiresAt : Option Str
  payloadSha256 : Option Str
  error : Option Str

/-- A status without a feed. -/
def FeedStatus.without (state : FeedHealth) (path keyringPath : Str) (error : Option Str) :
    FeedStatus :=
  ⟨state, path, keyringPath, none, none, 0, none, none, none, error⟩

/-- The status of a verified feed. -/
def FeedStatus.of (verified : VerifiedFeed) (path keyringPath : Str) : FeedStatus :=
  ⟨.valid, path, keyringPath, some verified.sequence, some verified.keyId, verified.rules.length,
    some (Util.formatUtc verified.generatedAt), some (Util.formatUtc verified.expiresAt),
    some verified.payloadSha256, none⟩

/-- `document_path.exists() or state_path.exists()`. -/
def anyStored (stateDir : Path) : Util.Io Bool := do
  let documentThere ← Util.sys (Disk.Action.existsAt (feedDocumentPath stateDir))
  if documentThere then pure true else Util.sys (Disk.Action.existsAt (feedStatePath stateDir))

/-- `document_path.is_file() and state_path.is_file()`. -/
def bothStored (stateDir : Path) : Util.Io Bool := do
  let documentThere ← Util.sys (Disk.Action.isFile (feedDocumentPath stateDir))
  if documentThere then Util.sys (Disk.Action.isFile (feedStatePath stateDir)) else pure false

/-- The guarded part of `inspect_feed`. -/
def inspectInstalled (rt : Runtime) (crypto : Crypto) (stateDir keyringPath : Path)
    (current : DateTime) : Util.Io (FeedStatus × List Rule) := do
  let documentPath := feedDocumentPath stateDir
  let statePath := feedStatePath stateDir
  let stored ← bothStored stateDir
  Prog.liftExcept (require (stored = true)
    (feedError (str "feed document and rollback state must both exist")))
  let size ← Util.sys (Disk.Action.size documentPath)
  Prog.liftExcept (require (size ≤ maxFeedBytes)
    (feedError (str "installed feed exceeds the size limit")))
  let keyring ← loadKeyring rt keyringPath
  let raw ← Util.sys (Disk.Action.read documentPath)
  let verified ← Prog.liftExcept (verifyFeedDocument rt crypto raw keyring current)
  match ← readState rt statePath with
  | none => Prog.raise (feedError (str "feed rollback state is missing"))
  | some state =>
      Prog.liftExcept (require (state.maxSequence = verified.sequence)
        (feedError (str "feed sequence does not match rollback state")))
      Prog.liftExcept (require (state.currentPayloadSha256 = verified.payloadSha256)
        (feedError (str "feed payload does not match rollback state")))
      pure (FeedStatus.of verified documentPath keyringPath, verified.rules)

/-- `inspect_feed(state_dir, keyring_path, now)`. -/
def inspectFeed (rt : Runtime) (crypto : Crypto) (stateDir keyringPath : Path)
    (current : DateTime) : Util.Io (FeedStatus × List Rule) := do
  let documentPath := feedDocumentPath stateDir
  let stored ← anyStored stateDir
  if stored then
    Prog.tryExcept (inspectInstalled rt crypto stateDir keyringPath current)
      (fun e => e.isFeed || e.isOs)
      fun e => pure (FeedStatus.without .invalid documentPath keyringPath (some e.text), [])
  else pure (FeedStatus.without .absent documentPath keyringPath none, [])

/-- How an installation ended. -/
inductive InstallOutcome where
  | installed
  | unchanged
deriving DecidableEq

/-- The rollback rule of `install_feed`. -/
def rollbackRule (verified : VerifiedFeed) (previous : Option FeedState) :
    Except PyError InstallOutcome :=
  match previous with
  | none => .ok .installed
  | some state => do
      require (state.maxSequence ≤ verified.sequence)
        (feedError (str "feed rollback rejected: sequence " ++ Text.intText verified.sequence ++
          str " is below " ++ Text.intText state.maxSequence))
      if verified.sequence = state.maxSequence then
        require (verified.payloadSha256 = state.currentPayloadSha256)
          (feedError (str "feed sequence reuse with different signed content was rejected"))
        pure .unchanged
      else pure .installed

/-- The state that commits a verified feed. -/
def FeedState.commits (verified : VerifiedFeed) (current : DateTime) : FeedState :=
  ⟨verified.sequence, verified.payloadSha256, verified.keyId, Util.formatUtc current⟩

/-- What `install_feed` does under the lock. -/
def installVerified (rt : Runtime) (stateDir : Path) (verified : VerifiedFeed)
    (current : DateTime) : Util.Io InstallOutcome := do
  let previous ← readState rt (feedStatePath stateDir)
  let outcome ← Prog.liftExcept (rollbackRule verified previous)
  let normalized ← Prog.liftExcept (Util.encodeJson rt .pretty verified.document)
  Util.atomicWriteBytes (feedDocumentPath stateDir) (normalized ++ [10]) 0o600
  Util.atomicWriteJson rt (feedStatePath stateDir) (FeedState.commits verified current).toJson 0o600
  pure outcome

/-- `install_feed(raw, state_dir, keyring_path, now)`. -/
def installFeed (rt : Runtime) (crypto : Crypto) (raw : Bytes) (stateDir keyringPath : Path)
    (current : DateTime) : Util.Io (InstallOutcome × VerifiedFeed) := do
  let keyring ← loadKeyring rt keyringPath
  let verified ← Prog.liftExcept (verifyFeedDocument rt crypto raw keyring current)
  let outcome ← Util.updateLock (feedLockPath stateDir)
    (installVerified rt stateDir verified current)
  pure (outcome, verified)

end ZsecShield.Feed
