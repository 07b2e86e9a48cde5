import ZsecShield.Desktop.Presentation

/-!
# The status of the scanner on the desktop

`validate_status` and `status_presentation` of `contracts.py`.
-/

namespace ZsecShield.Desktop

open Text (Str str)
open Feed (field isText)
open Checks

/-! ## Checks -/

/-- `value == n`. -/
def equalsInt (value : Json) (n : Int) : Bool :=
  match value with
  | .bool b => decide ((if b then 1 else 0) = n)
  | .int m => decide (m = n)
  | .float x => x == Float.ofInt n
  | _ => false

/-- `_optional_utc_timestamp(value, field)`. -/
def optionalUtcTimestamp (value : Json) (name : Str) : Except Failure (Option Str) := do
  let refusal := Failure.contractError (name ++ str " must be a UTC timestamp")
  match ← optionalString value name 80 with
  | none => pure none
  | some text => do
      require (text.getLast? = some (Text.ofChar 'Z')) refusal
      let _ ← fromOption (DateTime.fromIsoFormat (text.dropLast ++ str "+00:00")) refusal
      pure (some text)

/-- The part of `validate_status` about the content worker. -/
def checkContentWorker (root : List (Str × Json)) : Except Failure Unit := do
  let worker ← object (field root "content_worker") (str "content_worker")
  require (isText (field worker "mode")
      (str "bounded_out_of_process_rules_and_review_providers") = true)
    (.contractError (str "status content_worker mode is unsupported"))
  mustBeFalse (field worker "path_disclosure") (str "content_worker.path_disclosure")
    (str "content worker unexpectedly receives a source path")
  mustBeTrue (field worker "broker_digest_verification")
    (str "content_worker.broker_digest_verification")
    (str "content worker must retain broker digest verification")
  mustBeFalse (field worker "reduced_privilege") (str "content_worker.reduced_privilege")
    (str "this build cannot assert a reduced-privilege worker")
  mustBeFalse (field worker "hostile_format_parser_gate_met")
    (str "content_worker.hostile_format_parser_gate_met")
    (str "this build cannot assert the hostile-parser gate")

/-- The part of `validate_status` about the last scan. -/
def checkLastScanStatus (root : List (Str × Json)) : Except Failure Unit := do
  let findings ← integer (field root "findings") (str "findings") 0
  let observations ← integer (field root "observations") (str "observations") 0
  let errors ← integer (field root "last_scan_errors") (str "last_scan_errors") 0
  let diagnostic ← object (field root "last_scan_diagnostic") (str "last_scan_diagnostic")
  let available ← boolean (field diagnostic "available") (str "last_scan_diagnostic.available")
  let diagnosticError ← optionalString (field diagnostic "error")
    (str "last_scan_diagnostic.error") 1000
  let lastScan := field root "last_scan"
  unlessNull (fun value => string value (str "last_scan") 80) lastScan
  let outcome := field root "last_scan_outcome"
  unlessNull (fun value => known value ["no_configured_rule_matches",
    "configured_rule_matches_detected", "review_observations", "incomplete"]
    (str "last_scan_outcome is unknown")) outcome
  require (available = !isNull lastScan)
    (.contractError (str "last-scan availability and timestamp are inconsistent"))
  require (¬ (isText outcome (str "no_configured_rule_matches") = true ∧
      (findings ≠ 0 ∨ observations ≠ 0 ∨ errors ≠ 0)))
    (.contractError (str "no-match outcome has inconsistent counters"))
  require (¬ (isText outcome (str "configured_rule_matches_detected") = true ∧ findings = 0))
    (.contractError (str "finding outcome has a zero finding counter"))
  require (¬ (isText outcome (str "review_observations") = true ∧
      (observations = 0 ∨ findings ≠ 0 ∨ errors ≠ 0)))
    (.contractError (str "review-observation outcome has inconsistent counters"))
  require (¬ (diagnosticError.isSome = true ∧ available = true))
    (.contractError (str "validated last-scan state cannot also have a diagnostic error"))

/-- The address of the advisory catalog. -/
def releaseSource : String := "https://talktoai.org/zsec/intelligence/v1/feed.json"

/-- The part of `validate_status` about the automatic update. -/
def checkUpdateStatus (value : Json) : Except Failure Unit := do
  let update ← object value (str "update_status")
  known (field update "state") ["never_checked", "current", "updated", "error"]
    (str "update_status.state is unknown")
  forEach ["last_checked_at", "last_success_at", "feed_expires_at"] fun name =>
    (optionalUtcTimestamp (field update name) (str "update_status." ++ str name)).map fun _ => ()
  let _ ← optionalString (field update "error") (str "update_status.error") 500
  let _ ← optionalUtcTimestamp (field update "next_check_at") (str "update_status.next_check_at")
  let source ← string (field update "source") (str "update_status.source") 2048
  require (source = str releaseSource)
    (.contractError (str "automatic advisory update source is not release-owned"))
  unlessNull (fun sequence => do
    let n ← integer sequence (str "update_status.feed_sequence") 0
    require (1 ≤ n) (.contractError (str "update_status.feed_sequence is invalid")))
    (field update "feed_sequence")

/-- The part of `validate_status` about the quarantine. -/
def checkQuarantineStatus (root : List (Str × Json)) : Except Failure Unit := do
  let count ← integer (field root "quarantine_count") (str "quarantine_count") 0
  let quarantine ← object (field root "quarantine") (str "quarantine")
  let entries ← integer (field quarantine "entries") (str "quarantine.entries") 0
  require (entries = count) (.contractError (str "quarantine counters are inconsistent"))
  let _ ← list (field quarantine "metadata_errors") (str "quarantine.metadata_errors")
  pure ()

/-- `validate_status(payload)`. -/
def validateStatus (payload : Json) : Except Failure (List (Str × Json)) := do
  let root ← schema payload "zsec.shield.status.v2"
  require (equalsInt (field root "contract_version") 2 = true)
    (.contractError (str "unsupported status contract_version"))
  let _ ← string (field root "version") (str "version") 80
  let _ ← string (field root "generated_at") (str "generated_at") 80
  let _ ← string (field root "platform") (str "platform") 80
  require (isText (field root "scanner_mode") (str "on-demand") = true)
    (.contractError (str "status scanner_mode is inconsistent with this desktop build"))
  checkContentWorker root
  mustBeFalse (field root "real_time_protection") (str "real_time_protection")
    (str "desktop status unexpectedly asserts real-time protection")
  checkLastScanStatus root
  let feed ← object (field root "feed") (str "feed")
  known (field feed "state") ["absent", "valid", "invalid"] (str "feed.state is unknown")
  unlessNull checkUpdateStatus (field root "update_status")
  checkQuarantineStatus root
  pure root

/-! ## The presentation -/

inductive ScanState where
  | unavailable
  | notRun
  | incomplete
  | matched
  | review
  | noMatches
  | unknown
deriving DecidableEq

/-- The name of a state in the source. -/
def ScanState.name : ScanState → Str
  | .unavailable => str "unavailable"
  | .notRun => str "not_run"
  | .incomplete => str "incomplete"
  | .matched => str "matches"
  | .review => str "review"
  | .noMatches => str "no_matches"
  | .unknown => str "unknown"

structure ScanPresentation where
  state : ScanState
  headline : Str
  detail : Str
  accent : Str

/-- `not diagnostic["available"] or status["last_scan"] is None`. -/
def withoutScan (status : List (Str × Json)) (diagnostic : Json) : Except Failure Bool := do
  let available ← item diagnostic "available"
  if truthy available then (item (.obj status) "last_scan").map isNull
  else pure true

/-- The presentation of the outcome of a completed scan. -/
def outcomePresentation (py : Interpreter) (status : List (Str × Json)) (outcome : Json) :
    Except Failure ScanPresentation :=
  if isText outcome (str "incomplete") then do
    let errors ← item (.obj status) "last_scan_errors"
    pure ⟨.incomplete, str "Last scan incomplete",
      textOf py errors ++ str " issue(s) prevented a complete result.", str "#ef4444"⟩
  else if isText outcome (str "configured_rule_matches_detected") then do
    let findings ← item (.obj status) "findings"
    pure ⟨.matched, str "Configured rules matched",
      textOf py findings ++ str " file finding(s) require review.", str "#ef4444"⟩
  else if isText outcome (str "review_observations") then do
    let observations ← item (.obj status) "observations"
    pure ⟨.review, str "No malware rule matches",
      textOf py observations ++ str (" item(s) are available for review. " ++
        "These conservative observations are not malware detections, and nothing " ++
        "was quarantined."), str "#26d9d1"⟩
  else if isText outcome (str "no_configured_rule_matches") then
    pure ⟨.noMatches, str "No configured rule matches",
      str "This completed scan is not proof that the computer is clean.", str "#22c55e"⟩
  else
    pure ⟨.unknown, str "Scan state unavailable",
      str "The last-scan outcome is unavailable.", str "#f59e0b"⟩

/-- `status_presentation(status)`. -/
def statusPresentation (py : Interpreter) (status : List (Str × Json)) :
    Except Failure ScanPresentation := do
  let diagnostic ← item (.obj status) "last_scan_diagnostic"
  let outcome ← item (.obj status) "last_scan_outcome"
  let error ← item diagnostic "error"
  if isNull error then do
    let missing ← withoutScan status diagnostic
    if missing then
      pure ⟨.notRun, str "No completed scan",
        str "Run an on-demand scan to create local evidence.", str "#f59e0b"⟩
    else outcomePresentation py status outcome
  else pure ⟨.unavailable, str "Scan evidence unavailable", textOf py error, str "#ef4444"⟩

end ZsecShield.Desktop
