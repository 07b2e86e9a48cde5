import ZsecShield.Desktop.Status
import ZsecShield.Quarantine.DeviceKey

/-!
# Boundary records

`zba.py`: the record that an entry of the quarantine carries, with the commitment to its other
fields, and the check of such a record.
-/

namespace ZsecShield.Quarantine

open Text (Str str CodePoint)
open Feed (field isText)
open Checks

/-- The white space between the bytes that `bytes.fromhex` passes over. -/
def isAsciiSpace (c : CodePoint) : Bool := decide (9 ≤ c.val ∧ c.val ≤ 13 ∨ c.val = 32)

/-- `bytes.fromhex(text)`, nothing where it raises `ValueError`. -/
def fromHex : Str → Option Bytes
  | [] => some []
  | [c] => if isAsciiSpace c then some [] else none
  | c :: d :: rest =>
      if isAsciiSpace c then fromHex (d :: rest)
      else
        match Json.hexDigit c, Json.hexDigit d with
        | some high, some low => (fromHex rest).map (UInt8.ofNat (16 * high + low) :: ·)
        | _, _ => none

/-- `_is_sha256(value)` and `_valid_sha256(value)`. -/
def isDigest (value : Str) : Bool :=
  decide (value.length = 64) && (fromHex value).isSome && decide (Feed.lower value = value)

def zeroCommitment : Str := List.replicate 64 (Text.ofChar '0')

/-- The members that are committed to. -/
def projection (record : List (Str × Json)) : List (Str × Json) :=
  record.filter fun m => m.1 ≠ str "commitment"

/-- `_commitment(record)`. -/
def commitment (S : System) (record : List (Str × Json)) : Except PyError Str := do
  let refusal := quarantineError (str "ZBA predecessor commitment is invalid")
  let previous ← fromOption (field (projection record) "previous_commitment").strOf refusal
  require (isDigest previous = true) refusal
  let predecessor ← fromOption (fromHex previous) refusal
  let data ← Util.canonicalJsonBytes S.runtime (.obj (projection record))
  pure (S.hexdigest (ascii "ZERO-SECURITY/ZBA-QUARANTINE/V1" ++ [0] ++ predecessor ++ data))

/-- The fields of a record with one value, in the order in which they are checked. -/
def recordConstants (entryId payloadSha256 : Str) : List (String × Json) :=
  [("spec", .str (str "zero.security.zba.quarantine.v1")), ("asset_id", .str entryId),
    ("sequence", .int 0), ("operation", .str (str "quarantine.encrypt")),
    ("polarity", .str (str "neutral")), ("phase", .str (str "boundary")),
    ("recursion_depth", .int 0), ("policy_id", .str (str "zero-security-quarantine")),
    ("policy_version", .int 1), ("previous_commitment", .str zeroCommitment),
    ("payload_commitment", .str payloadSha256), ("actor_id", .str (str "local-device")),
    ("evidence_status", .str (str "sealed")), ("commitment_algorithm", .str (str "sha256"))]

/-- The record in front of its commitment. -/
def uncommitted (entryId payloadSha256 createdAt : Str) : List (Str × Json) :=
  (recordConstants entryId payloadSha256).map (fun m => (str m.1, m.2)) ++
    [(str "event_time", .str createdAt)]

/-- `create_quarantine_record(entry_id, payload_sha256, created_at)`. -/
def createQuarantineRecord (S : System) (entryId payloadSha256 createdAt : Str) :
    Except PyError (List (Str × Json)) := do
  let record := uncommitted entryId payloadSha256 createdAt
  let committed ← commitment S record
  pure (record ++ [(str "commitment", .str committed)])

/-- `value == expected` for a text or an integer. -/
def equals (value expected : Json) : Bool :=
  match expected with
  | .str s => isText value s
  | .int n => Desktop.equalsInt value n
  | _ => false

/-- `validate_quarantine_record(record, entry_id, payload_sha256)`. -/
def validateQuarantineRecord (S : System) (record : Json) (entryId payloadSha256 : Str) :
    Except PyError Unit := do
  let members ← fromOption record.objOf (quarantineError (str "ZBA record must be an object"))
  require (Json.keysAre members
      ((uncommitted entryId payloadSha256 []).map Prod.fst ++ [str "commitment"]) = true)
    (quarantineError (str "ZBA record fields are invalid"))
  (recordConstants entryId payloadSha256).forM fun constant =>
    require (equals (field members constant.1) constant.2 = true)
      (quarantineError (str "ZBA record field is invalid: " ++ str constant.1))
  let eventTime ← fromOption (field members "event_time").strOf
    (quarantineError (str "ZBA event time is invalid"))
  require (eventTime.getLast? = some (Text.ofChar 'Z'))
    (quarantineError (str "ZBA event time is invalid"))
  let committed ← fromOption (field members "commitment").strOf
    (quarantineError (str "ZBA commitment is invalid"))
  require (isDigest committed = true) (quarantineError (str "ZBA commitment is invalid"))
  let expected ← commitment S members
  let same ← compareDigest committed expected
  require (same = true) (quarantineError (str "ZBA commitment verification failed"))

end ZsecShield.Quarantine
