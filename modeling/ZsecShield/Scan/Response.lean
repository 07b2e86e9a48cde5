import ZsecShield.Feed.Verify
import ZsecShield.Scan.Inspection

/-!
# The answer of the content worker

The frames of the protocol, the answer to a scan request and what `_validate_response` accepts.  A
frame is read by `json.loads`, so the answer comes back with sorted keys.
-/

namespace ZsecShield.Scan

open Text (Str str)
open Checks
open Feed (field isText memberOf severities)

/-! ## Frames -/

def maxProtocolBytes : Nat := 1024 * 1024

/-- `WORKER_PROTOCOL`. -/
def workerProtocol : Str := str "zsec.scan-worker.v1"

/-- `_encode`. -/
def encodeFrame (rt : Runtime) (value : List (Str × Json)) : Except PyError Bytes := do
  let raw ← Util.encodeJson rt .wire (.obj value)
  require (raw.length ≤ maxProtocolBytes)
    (workerError "content worker protocol frame exceeded 1 MiB")
  return raw

/-- The reader of `_decode`, which lets non-finite numbers pass. -/
def frameReader (rt : Runtime) : Json.Reader := ⟨rt.scanDepth, rt.intDigits, true, false⟩

/-- `_decode`. -/
def decodeFrame (rt : Runtime) (raw : Bytes) : Except PyError (List (Str × Json)) :=
  let malformed := workerError "content worker returned malformed JSON"
  match Text.decodeUtf8 raw with
  | none => .error malformed
  | some text =>
      match Json.loads (frameReader rt) text with
      | .ok (.obj members) => .ok members
      | .ok _ => .error (workerError "content worker frame must be a JSON object")
      | .error (.duplicateKey _) =>
          .error (workerError "content worker JSON contains a duplicate key")
      | .error .malformed | .error (.constant _) => .error malformed
      | .error .digits => .error (.valueError (rt.decodeText text))
      | .error .recursion => .error .recursionError

/-- `_receive` of a frame that was sent.  `recv_bytes` raises for one that is too long. -/
def receiveFrame (rt : Runtime) (raw : Bytes) : Except PyError (List (Str × Json)) :=
  if maxProtocolBytes < raw.length then
    .error (workerError "content worker closed its protocol channel")
  else decodeFrame rt raw

/-! ## The answer -/

/-- So many characters of `"0123456789abcdef"`. -/
def isHexText (length : Nat) (s : Str) : Bool :=
  decide (s.length = length) && s.all fun c => c ∈ str "0123456789abcdef"

/-- What `_worker_main` asks of the correlation ID of a request. -/
def isRequestId (s : Str) : Bool := isHexText 32 s

/-- What `_worker_main` sends for the result of `_scan_stream`. -/
def workerResponse (requestId : Str) (result : StreamScan) : List (Str × Json) :=
  [(str "protocol", .str workerProtocol), (str "request_id", .str requestId),
    (str "ok", .bool true), (str "sha256", .str result.sha256),
    (str "bytes_read", .int result.bytesRead),
    (str "literal_rule_ids", .arr (result.literalRuleIds.map .str)),
    (str "observations", .arr result.observations)]

/-- The runtime of the worker, which never sees a path. -/
def workerRuntime (crypto : Crypto) (ins : Inspectors) : ContentRuntime where
  sha256 := crypto.hexdigest
  absolute := id
  modifiedAt _ := []
  inspectContent value declaredSize := (inspectContent ins value declaredSize).map
    Observation.toJson

/-! ## The checks of the broker -/

structure WorkerScan where
  sha256 : Str
  bytesRead : Int
  literalRuleIds : List Str
  observations : List Json

/-- The number of an instance of `int`, which a boolean is. -/
def integerOf : Json → Option Int
  | .int n => some n
  | .bool b => some (if b then 1 else 0)
  | _ => none

/-- `value is True` and `value is False`. -/
def isFlag (flag : Bool) : Json → Bool
  | .bool b => b = flag
  | _ => false

/-- `_require_fields`. -/
def requireFields (value : List (Str × Json)) (required : List Str) : Except PyError Unit :=
  require (Json.keysAre value required = true)
    (workerError "content worker frame has missing or unknown fields")

/-- A string of some length. -/
def textWithin (value : Json) (minimum maximum : Nat) (refusal : PyError) : Except PyError Str := do
  let text ← fromOption value.strOf refusal
  accept (minimum ≤ text.length ∧ text.length ≤ maximum) refusal text

def observationFields : List Str :=
  [str "provider", str "category", str "severity", str "summary", str "evidence",
    str "quarantine_eligible"]

/-- What a member of the evidence must be. -/
def isEvidence (m : Str × Json) : Bool :=
  decide (1 ≤ m.1.length ∧ m.1.length ≤ 80) &&
    match m.2 with
    | .str s => decide (s.length ≤ 500)
    | .int _ | .bool _ => true
    | _ => false

/-- A turn of the loop of `_validate_response` over the observations. -/
def validateObservation (observation : Json) : Except PyError Json := do
  let schema := workerError "content worker observation schema was invalid"
  let members ← fromOption observation.objOf schema
  require (Json.keysAre members observationFields = true) schema
  let refusal := workerError "content worker observation fields were invalid"
  let _provider ← textWithin (field members "provider") 1 40 refusal
  let _category ← textWithin (field members "category") 1 80 refusal
  let known ← memberOf (field members "severity") severities
  require (known = true) refusal
  let _summary ← textWithin (field members "summary") 1 300 refusal
  let evidence ← fromOption (field members "evidence").objOf refusal
  require (evidence.length ≤ 16) refusal
  require (isFlag false (field members "quarantine_eligible") = true) refusal
  require (evidence.all isEvidence = true)
    (workerError "content worker observation evidence was invalid")
  return observation

/-- The identifiers that the worker may return. -/
def allowedIds (rules : List Rule) : List Str :=
  (rules.filter fun rule => rule.kind = .literal).map Rule.ruleId

/-- `_validate_response` of an answer that is ok. -/
def validateScan (rules : List Rule) (response : List (Str × Json)) (expectedSize : Int) :
    Except PyError WorkerScan := do
  requireFields response [str "protocol", str "request_id", str "ok", str "sha256",
    str "bytes_read", str "literal_rule_ids", str "observations"]
  let refusal := workerError "content worker response schema was invalid"
  let digest ← fromOption (field response "sha256").strOf refusal
  require (isHexText 64 digest = true) refusal
  let bytesRead ← fromOption (integerOf (field response "bytes_read")) refusal
  require (bytesRead = expectedSize) refusal
  let elements ← fromOption (field response "literal_rule_ids").arrOf refusal
  let identifiers ← fromOption (elements.mapM Json.strOf) refusal
  let observations ← fromOption (field response "observations").arrOf refusal
  require (observations.length ≤ 32) refusal
  require (identifiers.Nodup ∧ ∀ identifier ∈ identifiers, identifier ∈ allowedIds rules)
    (workerError "content worker returned an unknown or duplicate rule ID")
  let validated ← observations.mapM validateObservation
  return ⟨digest, bytesRead, identifiers, validated⟩

/-- `_validate_response`. -/
def validateResponse (rules : List Rule) (response : List (Str × Json)) (expectedSize : Int)
    (requestId : Str) : Except PyError WorkerScan := do
  require (isText (field response "protocol") workerProtocol = true)
    (workerError "content worker response protocol mismatch")
  require (isText (field response "request_id") requestId = true)
    (workerError "content worker response correlation mismatch")
  if isFlag true (field response "ok") then validateScan rules response expectedSize
  else
    requireFields response [str "protocol", str "request_id", str "ok", str "error"]
    match field response "error" with
    | .str message => .error (.shield (.scanWorkerError (message.take 500)))
    | _ => .error (workerError "content worker failed")

/-! ## The rules -/

/-- `builtin_rules()`. -/
def builtinRules : List Rule :=
  [{  ruleId := str "builtin:eicar-test-file"
      name := str "EICAR antivirus test file"
      kind := .literal
      severity := .high
      description := str "Harmless industry-standard antivirus test pattern; not malware."
      source := str "ZSEC Shield built-in"
      digest := none
      literal := some (bytes "X5O!P%@AP[4\\PZX54(P^)7CC)7\x7d$EIC" ++
        bytes "AR-STANDARD-ANTIVIRUS-TEST-FILE!$H+H*") },
    { ruleId := str "builtin:eicar-test-file-sha256"
      name := str "EICAR antivirus test file SHA-256"
      kind := .sha256
      severity := .high
      description := str "Exact SHA-256 of the canonical EICAR test file; not malware."
      source := str "ZSEC Shield built-in"
      digest := some (str "275a021bbfb6489e54d471899f7db9d1663fc695ec2fe2a2c4538aabf651fd0f")
      literal := none }]

end ZsecShield.Scan
