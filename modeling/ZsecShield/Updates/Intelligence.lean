import ZsecShield.Feed.Store
import ZsecShield.Store
import ZsecShield.Updates.Envelope

/-!
# Installing an intelligence envelope

`install_intelligence_envelope` and the automatic update around it.  Under the update lock
the active envelope is copied, and then the catalog, the envelope and the rollback state are
replaced, the state last.
-/

namespace ZsecShield.Updates

open Text (Str str)
open Effect
open Checks
open Feed (feedError field isText natText)
open Intelligence (Members Library)

def intelligenceDirectory (stateDir : Path) : Path := Disk.join stateDir (str "intelligence")

def documentName : Str := str "current.json"
def envelopeName : Str := str "current-envelope.json"
def stateName : Str := str "state.json"
def lastKnownGoodName : Str := str "last-known-good-envelope.json"

def intelligenceDocumentPath (stateDir : Path) : Path :=
  Disk.join (intelligenceDirectory stateDir) documentName

def intelligenceEnvelopePath (stateDir : Path) : Path :=
  Disk.join (intelligenceDirectory stateDir) envelopeName

def intelligenceStatePath (stateDir : Path) : Path :=
  Disk.join (intelligenceDirectory stateDir) stateName

def intelligenceLastKnownGoodPath (stateDir : Path) : Path :=
  Disk.join (intelligenceDirectory stateDir) lastKnownGoodName

def intelligenceLockPath (stateDir : Path) : Path :=
  Disk.join (intelligenceDirectory stateDir) (str ".update.lock")

/-! ## The rollback state -/

/-- The fields of the rollback state that are read again. -/
structure IntelligenceState where
  maxSequence : Int
  catalogSha256 : Json

def intelligenceStateSchema : Str := str "zsec.intelligence.client-state.v1"

def intelligenceStateFields : List Str :=
  [str "schema", str "max_sequence", str "catalog_sha256", str "key_id", str "installed_at"]

/-- The checks of `_load_intelligence_state` on the decoded file. -/
def checkIntelligenceState (value : Json) : Except PyError IntelligenceState := do
  let noFields := feedError (str "intelligence rollback state fields are invalid")
  let members ← fromOption value.objOf noFields
  require (Json.keysAre members intelligenceStateFields = true) noFields
  require (isText (field members "schema") intelligenceStateSchema = true)
    (feedError (str "intelligence rollback state schema is invalid"))
  let noSequence := feedError (str "intelligence rollback sequence is invalid")
  let sequence ← fromOption (field members "max_sequence").intOf noSequence
  require (1 ≤ sequence) noSequence
  pure ⟨sequence, field members "catalog_sha256"⟩

/-- The rollback state in the bytes of its file. -/
def parseIntelligenceState (rt : Runtime) (raw : Bytes) : Except PyError IntelligenceState :=
  Util.strictJsonLoads rt raw >>= checkIntelligenceState

/-- `_load_intelligence_state(state_dir)`. -/
def loadIntelligenceState (rt : Runtime) (stateDir : Path) : Util.Io (Option IntelligenceState) := do
  if ← Util.sys (Disk.Action.existsAt (intelligenceStatePath stateDir)) then
    let raw ← Util.sys (Disk.Action.read (intelligenceStatePath stateDir))
    let state ← Prog.liftExcept (parseIntelligenceState rt raw)
    pure (some state)
  else pure none

/-- The dictionary that commits an envelope. -/
def intelligenceStateJson (verified : VerifiedEnvelope) (current : DateTime) : Json :=
  .obj [(str "schema", .str intelligenceStateSchema), (str "max_sequence", .int verified.sequence),
    (str "catalog_sha256", .str verified.catalogSha256), (str "key_id", .str verified.keyId),
    (str "installed_at", .str (Util.formatUtc current))]

/-! ## Installation -/

/-- The rollback rule of `install_intelligence_envelope`. -/
def rollbackRule (verified : VerifiedEnvelope) (previous : Option IntelligenceState) :
    Except PyError Feed.InstallOutcome :=
  match previous with
  | none => .ok .installed
  | some state => do
      require (state.maxSequence ≤ verified.sequence)
        (feedError (str "intelligence rollback sequence was rejected"))
      if verified.sequence = state.maxSequence then
        require (isText state.catalogSha256 verified.catalogSha256 = true)
          (feedError (str "intelligence sequence reuse with changed content was rejected"))
        pure .unchanged
      else pure .installed

/-- The copy of the active envelope. -/
def backUpEnvelope (stateDir : Path) : Util.Io Unit := do
  if ← Util.sys (Disk.Action.isFile (intelligenceEnvelopePath stateDir)) then
    let active ← Util.sys (Disk.Action.read (intelligenceEnvelopePath stateDir))
    Util.atomicWriteBytes (intelligenceLastKnownGoodPath stateDir) active 0o600
  else pure ()

/-- The replacements behind the copy: the catalog, the envelope and the state. -/
def publish (rt : Runtime) (stateDir : Path) (verified : VerifiedEnvelope)
    (catalog envelope : Bytes) (current : DateTime) : Util.Io Unit := do
  Util.atomicWriteBytes (intelligenceDocumentPath stateDir) catalog 0o600
  Util.atomicWriteBytes (intelligenceEnvelopePath stateDir) envelope 0o600
  Util.atomicWriteJson rt (intelligenceStatePath stateDir) (intelligenceStateJson verified current)
    0o600

/-- What `install_intelligence_envelope` does under the lock. -/
def installEnvelope (rt : Runtime) (stateDir : Path) (verified : VerifiedEnvelope)
    (catalog envelope : Bytes) (current : DateTime) : Util.Io Feed.InstallOutcome := do
  let previous ← loadIntelligenceState rt stateDir
  let outcome ← Prog.liftExcept (rollbackRule verified previous)
  backUpEnvelope stateDir
  publish rt stateDir verified catalog envelope current
  pure outcome

/-- `install_intelligence_envelope(raw, state_dir, keyring_path, now)`. -/
def installIntelligenceEnvelope (rt : Runtime) (crypto : Crypto) (lib : Library) (raw : Bytes)
    (stateDir keyringPath : Path) (current : DateTime) :
    Util.Io (Feed.InstallOutcome × VerifiedEnvelope) := do
  let verified ← verifyIntelligenceEnvelope rt crypto lib raw keyringPath current
  let catalog ← Prog.liftExcept (Util.canonicalJsonBytes rt (field verified.payload "catalog"))
  let envelope ← Prog.liftExcept (Util.encodeJson rt .pretty verified.document)
  let outcome ← Util.updateLock (intelligenceLockPath stateDir)
    (installEnvelope rt stateDir verified (catalog ++ [10]) (envelope ++ [10]) current)
  pure (outcome, verified)

/-! ## The automatic update -/

inductive UpdateState where
  | neverChecked
  | current
  | updated
  | error
deriving DecidableEq

structure AutomaticUpdateStatus where
  state : UpdateState
  lastCheckedAt : Option Str
  lastSuccessAt : Option Str
  nextCheckAt : Str
  feedSequence : Option Int
  feedExpiresAt : Option Str
  source : Str
  error : Option Str
deriving DecidableEq

def updateStatusSchema : Str := str "zsec.shield.automatic-update-status.v1"

def UpdateState.text : UpdateState → Str
  | .neverChecked => str "never_checked"
  | .current => str "current"
  | .updated => str "updated"
  | .error => str "error"

def optionJson {α : Type} (f : α → Json) : Option α → Json
  | none => .null
  | some a => f a

/-- `status.to_dict()`. -/
def AutomaticUpdateStatus.toJson (status : AutomaticUpdateStatus) : Json :=
  .obj [(str "schema", .str updateStatusSchema), (str "state", .str status.state.text),
    (str "last_checked_at", optionJson .str status.lastCheckedAt),
    (str "last_success_at", optionJson .str status.lastSuccessAt),
    (str "next_check_at", .str status.nextCheckAt),
    (str "feed_sequence", optionJson .int status.feedSequence),
    (str "feed_expires_at", optionJson .str status.feedExpiresAt), (str "source", .str status.source),
    (str "error", optionJson .str status.error)]

def updateStatusFields : List Str :=
  [str "schema", str "state", str "last_checked_at", str "last_success_at", str "next_check_at",
    str "feed_sequence", str "feed_expires_at", str "source", str "error"]

def updateStateOf (value : Json) : UpdateState :=
  if isText value (str "never_checked") then .neverChecked
  else if isText value (str "current") then .current
  else if isText value (str "updated") then .updated
  else .error

/-- A time of a status that may be missing. -/
def optionalTime (rt : Runtime) (members : Members) (key : String) : Except PyError (Option Str) :=
  match field members key with
  | .null => .ok none
  | value => do
      let _ ← parseTime rt value (str key)
      pure value.strOf

/-- A sequence of a status that may be missing. -/
def optionalSequence (value : Json) (refusal : PyError) : Except PyError (Option Int) :=
  match value with
  | .null => .ok none
  | value => do
      let sequence ← fromOption value.intOf refusal
      accept (1 ≤ sequence) refusal (some sequence)

/-- An error text of a status that may be missing. -/
def optionalError (value : Json) (refusal : PyError) : Except PyError (Option Str) :=
  match value with
  | .null => .ok none
  | value => do
      let text ← fromOption value.strOf refusal
      accept (1 ≤ text.length ∧ text.length ≤ 500) refusal (some text)

/-- `_validate_status(value)`. -/
def validateStatus (rt : Runtime) (value : Json) : Except PyError AutomaticUpdateStatus := do
  let invalid (what : String) : PyError :=
    feedError (str "automatic update status " ++ str what ++ str " is invalid")
  let noFields := feedError (str "automatic update status fields are invalid")
  let members ← fromOption value.objOf noFields
  require (Json.keysAre members updateStatusFields = true) noFields
  require (isText (field members "schema") updateStatusSchema = true) (invalid "schema")
  let known ← Feed.memberOf (field members "state")
    [str "never_checked", str "current", str "updated", str "error"]
  require (known = true) (invalid "state")
  let source ← fromOption (field members "source").strOf (invalid "source")
  require ((str "https://").isPrefixOf source = true ∧ source.length ≤ 2048) (invalid "source")
  let _ ← parseTime rt (field members "next_check_at") (str "next_check_at")
  let lastCheckedAt ← optionalTime rt members "last_checked_at"
  let lastSuccessAt ← optionalTime rt members "last_success_at"
  let feedExpiresAt ← optionalTime rt members "feed_expires_at"
  let sequence ← optionalSequence (field members "feed_sequence") (invalid "feed_sequence")
  let error ← optionalError (field members "error") (invalid "error")
  pure ⟨updateStateOf (field members "state"), lastCheckedAt, lastSuccessAt,
    (field members "next_check_at").strOf.getD [], sequence, feedExpiresAt, source, error⟩

def automaticUpdateStatusPath (stateDir : Path) : Path :=
  Disk.join (Disk.join stateDir (str "feed")) (str "automatic-update-status.json")

/-- The bytes of a regular file within the limit of status files. -/
def readBounded (path : Path) (refusal : PyError) : Util.Io Bytes := do
  let isFile ← Util.sys (Disk.Action.isFile path)
  Prog.liftExcept (require (isFile = true) refusal)
  let size ← Util.sys (Disk.Action.size path)
  Prog.liftExcept (require (size ≤ statusLimit) refusal)
  Util.sys (Disk.Action.read path)

/-- `load_automatic_update_status(state_dir, source, now)`. -/
def loadAutomaticUpdateStatus (rt : Runtime) (stateDir : Path) (source : Str) (current : DateTime) :
    Util.Io AutomaticUpdateStatus := do
  let path := automaticUpdateStatusPath stateDir
  if ← Util.sys (Disk.Action.existsAt path) then
    let status ← Prog.tryExcept
      (do
        let raw ← readBounded path
          (feedError (str "automatic update status is not a bounded regular file"))
        let value ← Prog.liftExcept (Util.strictJsonLoads rt raw)
        Prog.liftExcept (validateStatus rt value))
      (fun e => e.isOs || e.isFeed)
      fun e => pure ⟨.error, none, none, Util.formatUtc current, none, none, source,
        some (e.text.take 500)⟩
    if status.source = source then pure status
    else pure ⟨.neverChecked, status.lastCheckedAt, status.lastSuccessAt, Util.formatUtc current,
      status.feedSequence, status.feedExpiresAt, source, none⟩
  else pure ⟨.neverChecked, none, none, Util.formatUtc current, none, none, source, none⟩

/-- What a check draws from outside: the two random delays in seconds, and the name of the
class of an exception. -/
structure Draws where
  jitter : Int
  retry : Nat
  className : PyError → Str

/-- `now + delta` in microseconds. -/
def addTime (now : DateTime) (delta : Int) : Except PyError DateTime :=
  Intelligence.astimezone now (-delta)

/-- `_next_check(now)`. -/
def nextCheck (draws : Draws) (now : DateTime) : Except PyError DateTime :=
  addTime now (DateTime.days 1 + draws.jitter * 1000000)

/-- `_next_failed_check(now)`. -/
def nextFailedCheck (draws : Draws) (now : DateTime) : Except PyError DateTime :=
  addTime now (DateTime.minutes 60 + DateTime.seconds draws.retry)

/-- `f"{type(exc).__name__}: {exc}"` on one line, cut after 500 characters. -/
def errorText (draws : Draws) (e : PyError) : Str :=
  ((draws.className e ++ str ": " ++ e.text).map fun c =>
    if c.val = 13 ∨ c.val = 10 then Text.ofChar ' ' else c).take 500

/-- The part of `run_automatic_update` whose feed and system errors become a status. -/
def updateOnce (rt : Runtime) (crypto : Crypto) (lib : Library) (download : Except PyError Bytes)
    (stateDir keyringPath : Path) (source : Str) (current : DateTime) (nextCheckAt : Str) :
    Util.Io AutomaticUpdateStatus := do
  let raw ← Prog.liftExcept download
  let (outcome, verified) ←
    installIntelligenceEnvelope rt crypto lib raw stateDir keyringPath current
  let checkedAt := Util.formatUtc current
  let state := if outcome = .installed then UpdateState.updated else .current
  pure ⟨state, some checkedAt, some checkedAt, nextCheckAt, some verified.sequence,
    (field verified.payload "expires_at").strOf, source, none⟩

/-- The status of a failed update. -/
def failedStatus (draws : Draws) (previous : AutomaticUpdateStatus) (source : Str)
    (current : DateTime) (e : PyError) : Util.Io AutomaticUpdateStatus := do
  let next ← Prog.liftExcept (nextFailedCheck draws current)
  pure ⟨.error, some (Util.formatUtc current), previous.lastSuccessAt, Util.formatUtc next,
    previous.feedSequence, previous.feedExpiresAt, source, some (errorText draws e)⟩

/-- `not force and not automatic_update_due(previous, current)`. -/
def notDue (rt : Runtime) (force : Bool) (nextCheckAt : Str) (current : DateTime) :
    Except PyError Bool :=
  if force then .ok false
  else do
    let next ← parseTime rt (.str nextCheckAt) (str "next_check_at")
    pure (decide (current.instant < next.instant))

/-- `run_automatic_update(state_dir, keyring_path, source, timeout, force, now)`, where
`download` is what `download_intelligence_feed` returns or raises. -/
def runAutomaticUpdate (rt : Runtime) (crypto : Crypto) (lib : Library) (draws : Draws)
    (download : Except PyError Bytes) (stateDir keyringPath : Path) (source : Str) (force : Bool)
    (current : DateTime) : Util.Io AutomaticUpdateStatus := do
  let previous ← loadAutomaticUpdateStatus rt stateDir source current
  let early ← Prog.liftExcept (notDue rt force previous.nextCheckAt current)
  if early then pure previous
  else
    let next ← Prog.liftExcept (nextCheck draws current)
    let status ← Prog.tryExcept
      (updateOnce rt crypto lib download stateDir keyringPath source current (Util.formatUtc next))
      (fun e => e.isFeed || e.isOs) (failedStatus draws previous source current)
    Util.atomicWriteJson rt (automaticUpdateStatusPath stateDir) status.toJson 0o600
    pure status

end ZsecShield.Updates
