import ZsecShield.Feed.Verify
import ZsecShield.Intelligence.Catalog

/-!
# Signed envelopes of the update service

What `automatic_updates.py` checks of an intelligence envelope: its fields, the key, the
signature over the canonical payload with a line break, the validity window, the catalog
and its digest.
-/

namespace ZsecShield.Updates

open Text (Str str)
open Effect
open Checks
open Feed (feedError field isText natText Keyring TrustedKey loadKeyring)
open Intelligence (Members Library)

def maxIntelligenceBytes : Nat := 8 * 1024 * 1024
def statusLimit : Nat := 64 * 1024
def maxClockSkew : Nat := DateTime.minutes 5
def maxValidity : Nat := DateTime.days 14
def envelopeSchema : Str := str "zsec.signed-envelope.v1"
def intelligencePayloadSchema : Str := str "zsec.intelligence.payload.v1"

/-- `_parse_time(value, field)`: a text without an offset stands for local time. -/
def parseTime (rt : Runtime) (value : Json) (field : Str) : Except PyError DateTime := do
  let refusal := feedError (str "automatic update status " ++ field ++ str " is invalid")
  let text ← fromOption value.strOf refusal
  require (text.getLast? = some (Text.ofChar 'Z')) refusal
  let parsed ← fromOption (DateTime.fromIsoFormat (text.dropLast ++ str "+00:00")) refusal
  Intelligence.astimezone parsed.value (parsed.offset.getD (rt.localOffset parsed.value))

/-- `_decode_signature(value)`. -/
def decodeSignature (value : Json) : Except PyError Bytes := do
  let refusal := feedError (str "intelligence signature is invalid")
  let text ← fromOption value.strOf refusal
  require (text.length ≤ 256) refusal
  let decoded ← fromOption (Base64.decode text) refusal
  require (decoded.length = 64 ∧ Base64.encode decoded = text) refusal
  pure decoded

/-- The fields of an envelope and its identity. -/
def openEnvelope (subject : Str) (value : Json) : Except PyError Members := do
  let refusal := feedError (subject ++ str " envelope fields are invalid")
  let members ← fromOption value.objOf refusal
  require (Json.keysAre members Feed.envelopeFields = true) refusal
  require (isText (field members "schema") envelopeSchema = true ∧
      isText (field members "algorithm") (str "ed25519") = true)
    (feedError (subject ++ str " envelope identity is invalid"))
  pure members

/-- The key may sign now. -/
def activeKey (subject : Str) (found : Option TrustedKey) (current : DateTime) :
    Except PyError TrustedKey := do
  let refusal := feedError (subject ++ str " signing key is not active and trusted")
  let trusted ← fromOption found refusal
  require (trusted.status = .active) refusal
  require (∀ before ∈ trusted.notBefore, before.instant ≤ current.instant)
    (feedError (subject ++ str " signing key is not valid yet"))
  require (∀ after ∈ trusted.notAfter, current.instant < after.instant)
    (feedError (subject ++ str " signing key has expired"))
  pure trusted

/-- The signature over the canonical payload and a line break. -/
def verifySignature (rt : Runtime) (crypto : Crypto) (subject : Str) (trusted : TrustedKey)
    (signature : Json) (payload : Members) : Except PyError Unit := do
  let refusal := feedError (subject ++ str " signature verification failed")
  let decoded ← decodeSignature signature
  match Util.canonicalJsonBytes rt (.obj payload) with
  | .error e => .error (if e.isValue then refusal else e)
  | .ok canonical =>
      require (crypto.ed25519 trusted.publicKey decoded (canonical ++ [10]) = true) refusal

def intelligencePayloadFields : List Str :=
  [str "schema", str "sequence", str "generated_at", str "expires_at", str "catalog_sha256",
    str "catalog", str "policy"]

/-- `generated_at` and `expires_at` of an intelligence payload. -/
def intelligenceWindow (rt : Runtime) (payload : Members) (current : DateTime) :
    Except PyError Unit := do
  let generated ← parseTime rt (field payload "generated_at") (str "generated_at")
  let expires ← parseTime rt (field payload "expires_at") (str "expires_at")
  let limit ← Feed.later current maxClockSkew
  require (generated.instant ≤ limit)
    (feedError (str "intelligence generation time is in the future"))
  require (current.instant < expires.instant ∧ generated.instant < expires.instant ∧
      expires.instant ≤ generated.instant + maxValidity)
    (feedError (str "intelligence expiry is invalid"))

/-- The error of the catalog validator as a feed error. -/
def wrapCatalogError (e : PyError) : PyError :=
  if e.isIntelligence then feedError (str "intelligence catalog is invalid: " ++ e.text) else e

/-- The catalog and the digest that the payload names. -/
def verifyCatalog (rt : Runtime) (crypto : Crypto) (lib : Library) (payload : Members) :
    Except PyError Str := do
  let catalog := field payload "catalog"
  let _ ← (Intelligence.validateCatalog rt crypto lib catalog).mapError wrapCatalogError
  let canonical ← Util.canonicalJsonBytes rt catalog
  let digest := crypto.hexdigest (canonical ++ [10])
  require (isText (field payload "catalog_sha256") digest = true)
    (feedError (str "intelligence catalog digest does not match the signed payload"))
  pure digest

/-- The signed payload: its sequence and the digest of its catalog. -/
def verifyIntelligencePayload (rt : Runtime) (crypto : Crypto) (lib : Library) (payload : Members)
    (current : DateTime) : Except PyError (Int × Str) := do
  require (Json.keysAre payload intelligencePayloadFields = true ∧
      isText (field payload "schema") intelligencePayloadSchema = true)
    (feedError (str "intelligence payload fields or schema are invalid"))
  require (Intelligence.isPolicy (field payload "policy") Intelligence.dataOnlyPolicy = true)
    (feedError (str "intelligence payload violates the data-only policy"))
  let refusal := feedError (str "intelligence sequence is invalid")
  let sequence ← fromOption (field payload "sequence").intOf refusal
  require (1 ≤ sequence ∧ sequence < 2 ^ 63) refusal
  intelligenceWindow rt payload current
  let digest ← verifyCatalog rt crypto lib payload
  pure (sequence, digest)

/-- What a verified envelope says. -/
structure VerifiedEnvelope where
  document : Json
  payload : Members
  keyId : Str
  sequence : Int
  catalogSha256 : Str

/-- What is checked before the keyring is read. -/
def readIntelligenceEnvelope (rt : Runtime) (raw : Bytes) : Except PyError (Members × Str) := do
  require (raw.length ≤ maxIntelligenceBytes)
    (feedError (str "intelligence envelope exceeds the size limit"))
  let value ← Util.strictJsonLoads rt raw
  let members ← openEnvelope (str "intelligence") value
  let keyId ← fromOption (field members "key_id").strOf
    (feedError (str "intelligence key ID is invalid"))
  pure (members, keyId)

/-- What is checked with the keyring. -/
def verifyIntelligenceMembers (rt : Runtime) (crypto : Crypto) (lib : Library) (members : Members)
    (keyId : Str) (keyring : Keyring) (current : DateTime) : Except PyError VerifiedEnvelope := do
  let trusted ← activeKey (str "intelligence") (Json.lookup keyId keyring) current
  let payload ← fromOption (field members "payload").objOf
    (feedError (str "intelligence payload must be an object"))
  verifySignature rt crypto (str "intelligence") trusted (field members "signature") payload
  let (sequence, digest) ← verifyIntelligencePayload rt crypto lib payload current
  pure ⟨.obj members, payload, keyId, sequence, digest⟩

/-- `verify_intelligence_envelope(raw, keyring_path, now)`. -/
def verifyIntelligenceEnvelope (rt : Runtime) (crypto : Crypto) (lib : Library) (raw : Bytes)
    (keyringPath : Path) (current : DateTime) : Util.Io VerifiedEnvelope := do
  let (members, keyId) ← Prog.liftExcept (readIntelligenceEnvelope rt raw)
  let keyring ← loadKeyring rt keyringPath
  Prog.liftExcept (verifyIntelligenceMembers rt crypto lib members keyId keyring current)

end ZsecShield.Updates
