import ZsecShield.Feed.Keyring

/-!
# Verification of a feed document

`verify_feed_document`: the envelope, the signature over the canonical payload, the
validity window and every rule.  `verifyRoot` is the part behind the JSON reader.
-/

namespace ZsecShield.Feed

open Text (Str str)
open Checks

def maxFeedBytes : Nat := 2 * 1024 * 1024
def maxRules : Nat := 2048
def maxLiteralBytes : Nat := 4096
def maxFeedLifetime : Nat := DateTime.days 90
def maxClockSkew : Nat := DateTime.minutes 5

structure VerifiedFeed where
  document : Json
  sequence : Int
  generatedAt : DateTime
  expiresAt : DateTime
  keyId : Str
  payloadSha256 : Str
  rules : List Rule

def severityOf (value : Json) : Option Severity :=
  if isText value (str "info") then some .info
  else if isText value (str "low") then some .low
  else if isText value (str "medium") then some .medium
  else if isText value (str "high") then some .high
  else if isText value (str "critical") then some .critical
  else none

def severities : List Str := [str "info", str "low", str "medium", str "high", str "critical"]

def ruleFields : List Str :=
  [str "id", str "name", str "kind", str "severity", str "description", str "source", str "value"]

/-- `_validate_rule(record, index)`. -/
def validateRule (record : Json) (index : Nat) : Except PyError Rule := do
  let rules := indexed "rules" index
  let members ← fromOption record.objOf (feedError (rules ++ str " must be an object"))
  expectExactKeys members ruleFields rules
  let ruleId ← boundedString (field members "id") (rules ++ str ".id") 3 128
  require (isRuleId ruleId = true ∧ ¬ (str "builtin:").isPrefixOf ruleId = true)
    (feedError (rules ++ str ".id has an invalid or reserved format"))
  let name ← boundedString (field members "name") (rules ++ str ".name") 1 160
  let description ← boundedString (field members "description") (rules ++ str ".description") 1 500
  let source ← boundedString (field members "source") (rules ++ str ".source") 1 300
  let kindKnown ← memberOf (field members "kind") [str "sha256", str "literal"]
  require (kindKnown = true) (feedError (rules ++ str ".kind must be sha256 or literal"))
  let severityKnown ← memberOf (field members "severity") severities
  require (severityKnown = true) (feedError (rules ++ str ".severity is invalid"))
  let severity := (severityOf (field members "severity")).getD .info
  let value := field members "value"
  if isText (field members "kind") (str "sha256") then
    let text ← boundedString value (rules ++ str ".value") 64 64
    require (isSha256 (lower text) = true)
      (feedError (rules ++ str ".value must be a SHA-256 hex digest"))
    pure ⟨ruleId, name, .sha256, severity, description, source, some (lower text), none⟩
  else
    let literal ← decodeBase64 value (rules ++ str ".value") none
    require (literal ≠ [] ∧ literal.length ≤ maxLiteralBytes)
      (feedError (rules ++ str ".value must decode to 1.." ++ natText maxLiteralBytes ++
        str " bytes"))
    pure ⟨ruleId, name, .literal, severity, description, source, none, some literal⟩

def envelopeFields : List Str :=
  [str "schema", str "algorithm", str "key_id", str "payload", str "signature"]

def payloadFields : List Str :=
  [str "schema", str "sequence", str "generated_at", str "expires_at", str "rules"]

/-- The key that signed the envelope, if it is trusted at the time. -/
def trustedKey (keyring : Keyring) (keyId : Str) (current : DateTime) :
    Except PyError TrustedKey := do
  let trusted ← fromOption (Json.lookup keyId keyring)
    (feedError (str "feed key is not trusted: " ++ keyId))
  require (trusted.status = .active) (feedError (str "feed key is revoked: " ++ keyId))
  require (∀ before ∈ trusted.notBefore, before.instant ≤ current.instant)
    (feedError (str "feed key is not valid yet: " ++ keyId))
  require (∀ after ∈ trusted.notAfter, current.instant < after.instant)
    (feedError (str "feed key has expired: " ++ keyId))
  pure trusted

/-- The envelope up to its signature: the key and the payload with its canonical bytes. -/
def verifySignature (rt : Runtime) (crypto : Crypto) (root : List (Str × Json)) (keyring : Keyring)
    (current : DateTime) : Except PyError (Str × List (Str × Json) × Bytes) := do
  expectExactKeys root envelopeFields (str "feed envelope")
  require (isText (field root "schema") (str "zsec.shield.feed.v1") = true ∧
      isText (field root "algorithm") (str "ed25519") = true)
    (feedError (str "unsupported feed schema or signature algorithm"))
  let keyId ← boundedString (field root "key_id") (str "key_id") 3 128
  let trusted ← trustedKey keyring keyId current
  let payload ← fromOption (field root "payload").objOf
    (feedError (str "feed payload must be an object"))
  let canonical ← Util.canonicalJsonBytes rt (.obj payload)
  let signature ← decodeBase64 (field root "signature") (str "signature") (some 64)
  require (crypto.ed25519 trusted.publicKey signature canonical = true)
    (feedError (str "feed signature verification failed"))
  pure (keyId, payload, canonical)

/-- `sequence` as an integer that is no boolean, between 1 and 2^63 - 1. -/
def sequenceOf (value : Json) : Except PyError Int := do
  let refusal := feedError (str "sequence must be an integer between 1 and 2^63-1")
  let n ← fromOption value.intOf refusal
  accept (1 ≤ n ∧ n < 2 ^ 63) refusal n

/-- `generated_at` and `expires_at`, which span a window that holds the current time. -/
def validityWindow (payload : List (Str × Json)) (current : DateTime) :
    Except PyError (DateTime × DateTime) := do
  let generatedAt ← timestamp (field payload "generated_at") (str "generated_at")
  let expiresAt ← timestamp (field payload "expires_at") (str "expires_at")
  let limit ← later current maxClockSkew
  require (generatedAt.instant ≤ limit)
    (feedError (str "feed generated_at is too far in the future"))
  require (current.instant < expiresAt.instant) (feedError (str "feed has expired"))
  require (generatedAt.instant < expiresAt.instant)
    (feedError (str "feed expiry must be later than generation time"))
  require (expiresAt.instant ≤ generatedAt.instant + maxFeedLifetime)
    (feedError (str "feed validity window exceeds 90 days"))
  pure (generatedAt, expiresAt)

/-- The rules of the payload. -/
def verifyRules (payload : List (Str × Json)) : Except PyError (List Rule) := do
  let refusal := feedError (str "rules must be an array with at most " ++ natText maxRules ++
    str " entries")
  let records ← fromOption (field payload "rules").arrOf refusal
  require (records.length ≤ maxRules) refusal
  let rules ← mapIdx validateRule 0 records
  require (rules.map Rule.ruleId).Nodup (feedError (str "duplicate rule IDs are not allowed"))
  pure rules

/-- The signed payload. -/
def verifyPayload (rt : Runtime) (payload : List (Str × Json)) (current : DateTime) :
    Except PyError (Int × (DateTime × DateTime) × List Rule) := do
  expectExactKeys payload payloadFields (str "signed payload")
  if isText (field payload "schema") (str "zsec.shield.rules.v1") then
    let sequence ← sequenceOf (field payload "sequence")
    let window ← validityWindow payload current
    let rules ← verifyRules payload
    pure (sequence, window, rules)
  else
    let text ← reprOf rt (field payload "schema")
    .error (feedError (str "unsupported signed payload schema: " ++ text))

/-- What follows the JSON reader in `verify_feed_document`. -/
def verifyRoot (rt : Runtime) (crypto : Crypto) (root : Json) (keyring : Keyring)
    (current : DateTime) : Except PyError VerifiedFeed := do
  let members ← fromOption root.objOf (feedError (str "feed root must be an object"))
  let (keyId, payload, canonical) ← verifySignature rt crypto members keyring current
  let (sequence, (generatedAt, expiresAt), rules) ← verifyPayload rt payload current
  pure ⟨root, sequence, generatedAt, expiresAt, keyId, crypto.hexdigest canonical, rules⟩

/-- `verify_feed_document(raw, keyring, now)`. -/
def verifyFeedDocument (rt : Runtime) (crypto : Crypto) (raw : Bytes) (keyring : Keyring)
    (current : DateTime) : Except PyError VerifiedFeed := do
  require (raw.length ≤ maxFeedBytes)
    (feedError (str "feed is larger than " ++ natText maxFeedBytes ++ str " bytes"))
  let root ← Util.strictJsonLoads rt raw
  verifyRoot rt crypto root keyring current

end ZsecShield.Feed
