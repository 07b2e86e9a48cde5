import ZsecShield.Status.LastScan

/-!
# The payload of the status command

`_command_status` of `cli.py`, as a function of what its parts were found to be.
-/

namespace ZsecShield.Status

open Text (Str str)
open Feed (field FeedStatus FeedHealth)

/-- `__version__`. -/
def version : String := "0.3.38"

/-- An optional text as a value. -/
def ofText (text : Option Str) : Json := text.elim .null .str

/-- An optional number as a value. -/
def ofInt (n : Option Int) : Json := n.elim .null .int

def feedHealthName : FeedHealth → String
  | .absent => "absent"
  | .valid => "valid"
  | .invalid => "invalid"

/-- `FeedStatus.to_dict`. -/
def feedMembers (feed : FeedStatus) : List (Str × Json) :=
  [(str "state", .str (str (feedHealthName feed.state))), (str "path", .str feed.path),
    (str "keyring_path", .str feed.keyringPath), (str "sequence", ofInt feed.sequence),
    (str "key_id", ofText feed.keyId), (str "rules_count", .int feed.rulesCount),
    (str "generated_at", ofText feed.generatedAt), (str "expires_at", ofText feed.expiresAt),
    (str "payload_sha256", ofText feed.payloadSha256), (str "error", ofText feed.error)]

inductive UpdateState where
  | neverChecked
  | current
  | updated
  | error
deriving DecidableEq

def UpdateState.name : UpdateState → String
  | .neverChecked => "never_checked"
  | .current => "current"
  | .updated => "updated"
  | .error => "error"

structure AutomaticUpdateStatus where
  state : UpdateState
  lastCheckedAt : Option Str
  lastSuccessAt : Option Str
  nextCheckAt : Str
  feedSequence : Option Int
  feedExpiresAt : Option Str
  source : Str
  error : Option Str

/-- `AutomaticUpdateStatus.to_dict` without the schema. -/
def AutomaticUpdateStatus.members (update : AutomaticUpdateStatus) : List (Str × Json) :=
  [(str "state", .str (str update.state.name)), (str "last_checked_at", ofText update.lastCheckedAt),
    (str "last_success_at", ofText update.lastSuccessAt),
    (str "next_check_at", .str update.nextCheckAt),
    (str "feed_sequence", ofInt update.feedSequence),
    (str "feed_expires_at", ofText update.feedExpiresAt), (str "source", .str update.source),
    (str "error", ofText update.error)]

/-- What the status command found, but for the last scan. -/
structure StatusParts where
  generatedAt : DateTime
  /-- `platform_name`. -/
  platform : Str
  stateDir : Path
  builtInRules : Nat
  feed : FeedStatus
  update : AutomaticUpdateStatus
  /-- The application update status without its schema. -/
  applicationUpdate : List (Str × Json)
  /-- The state of each quarantine entry. -/
  entryStates : List Str
  metadataErrors : List Json
  inventory : Json

/-- `counts`: how many entries are in each state. -/
def countStates (states : List Str) : List (Str × Nat) :=
  states.foldl (fun counts state =>
    Json.insertMember counts state ((Json.lookup state counts).getD 0 + 1)) []

/-- `definitions`. -/
def definitionsText (feed : FeedStatus) : Str :=
  let label := match feed.sequence with
    | some sequence => str "sequence-" ++ Text.intText sequence
    | none => str (feedHealthName feed.state)
  (str "built-in:" ++ str version ++ str ";feed:" ++ label).take 80

/-- `last_scan[key] if last_scan else otherwise`. -/
def ofLastScan (lastScan : Option (List (Str × Json))) (key : String) (otherwise : Json) : Json :=
  lastScan.elim otherwise fun summary => field summary key

/-- The payload, for what `load_last_scan` returned. -/
def statusMembers (parts : StatusParts)
    (loaded : Option (List (Str × Json)) × Option Str) : List (Str × Json) :=
  [(str "schema", .str (str "zsec.shield.status.v2")), (str "contract_version", .int 2),
    (str "version", .str (str version)),
    (str "generated_at", .str (Util.formatUtc parts.generatedAt)),
    (str "platform", .str parts.platform), (str "definitions", .str (definitionsText parts.feed)),
    (str "last_scan", ofLastScan loaded.1 "completed_at" .null),
    (str "findings", ofLastScan loaded.1 "findings" (.int 0)),
    (str "observations", ofLastScan loaded.1 "observations" (.int 0)),
    (str "last_scan_outcome", ofLastScan loaded.1 "outcome" .null),
    (str "last_scan_errors", ofLastScan loaded.1 "issues" (.int 0)),
    (str "last_scan_files_hashed", ofLastScan loaded.1 "files_hashed" .null),
    (str "last_scan_bytes_hashed", ofLastScan loaded.1 "bytes_hashed" .null),
    (str "last_scan_diagnostic", .obj [(str "available", .bool loaded.1.isSome),
      (str "error", ofText loaded.2)]),
    (str "quarantine_count", .int parts.entryStates.length),
    (str "scanner_mode", .str (str "on-demand")),
    (str "content_worker", .obj [
      (str "mode", .str (str "bounded_out_of_process_rules_and_review_providers")),
      (str "path_disclosure", .bool false), (str "broker_digest_verification", .bool true),
      (str "reduced_privilege", .bool false),
      (str "hostile_format_parser_gate_met", .bool false)]),
    (str "real_time_protection", .bool false), (str "state_dir", .str parts.stateDir),
    (str "built_in_rules", .int parts.builtInRules), (str "feed", .obj (feedMembers parts.feed)),
    (str "update_status", .obj parts.update.members),
    (str "application_update_status", .obj parts.applicationUpdate),
    (str "quarantine", .obj [(str "entries", .int parts.entryStates.length),
      (str "states", .obj ((countStates parts.entryStates).map fun m => (m.1, .int m.2))),
      (str "metadata_errors", .arr parts.metadataErrors)]),
    (str "inventory", parts.inventory)]

end ZsecShield.Status
