import ZsecShield.Desktop.Fields

/-!
# The companion payload

`validate_companion_status` of `contracts.py`.  The function is one chain of checks; its parts
stand here under the name of the object they read.
-/

namespace ZsecShield.Desktop

open Text (Str str)
open Feed (field isText indexed)
open Checks

/-- A check for each element of a tuple of names. -/
def forEach (names : List String) (check : String → Except Failure Unit) : Except Failure Unit :=
  match names with
  | [] => .ok ()
  | name :: names => do
      check name
      forEach names check

/-! ## The head of the payload -/

/-- The answers every payload has to give, and the state it claims. -/
structure CompanionHead where
  installed : Bool
  healthy : Bool
  decision : Json

def companionDecisions : List String :=
  ["not_installed", "baseline_in_progress", "metadata_inventory_in_progress", "degraded",
    "healthy_companion"]

/-- The claims a companion may not make, and its decision. -/
def checkHead (root : List (Str × Json)) : Except Failure CompanionHead := do
  forEach ["primary_antivirus", "real_time_protection", "pre_access_enforcement"] fun name =>
    mustBeFalse (field root name) (str name) (str "companion unexpectedly asserts " ++ str name)
  mustBeTrue (field root "existing_protection_must_remain_active")
    (str "existing_protection_must_remain_active")
    (str "companion must preserve existing protection")
  mustBeFalse (field root "primary_provider_uninstall_allowed")
    (str "primary_provider_uninstall_allowed")
    (str "companion cannot authorize provider uninstall")
  mustBeFalse (field root "cutover_allowed") (str "cutover_allowed")
    (str "companion cannot authorize cutover")
  let installed ← boolean (field root "installed") (str "installed")
  let healthy ← boolean (field root "healthy") (str "healthy")
  let decision := field root "decision"
  known decision companionDecisions (str "companion decision is unknown")
  pure ⟨installed, healthy, decision⟩

/-- The reasons of the decision. -/
def checkReasons (root : List (Str × Json)) : Except Failure Unit := do
  let reasons ← list (field root "reasons") (str "reasons")
  require (reasons.length ≤ 32) (.contractError (str "companion reasons exceed their bound"))
  let _ ← mapIdx (fun reason index => string reason (indexed "reasons" index) 500) 0 reasons
  pure ()

/-! ## The existing protection -/

/-- The aggregate health, which Windows Security Center reports. -/
def checkAggregate (existing : List (Str × Json)) : Except Failure Bool := do
  require (isText (field existing "method")
      (str "WscGetSecurityProviderHealth(WSC_SECURITY_PROVIDER_ANTIVIRUS)") = true)
    (.contractError (str "existing protection uses an unsupported health source"))
  let aggregateGood ← boolean (field existing "aggregate_good")
    (str "existing_primary_protection.aggregate_good")
  known (field existing "aggregate_health") ["GOOD", "NOTMONITORED", "POOR", "SNOOZE", "UNKNOWN"]
    (str "Windows Security Center aggregate health is unknown")
  pure aggregateGood

/-- One registered product, whose identity is not one of the products before it. -/
def checkRegistration (py : Interpreter) (seen : List (Str × Str)) (value : Json) (index : Nat) :
    Except Failure (Str × Str) := do
  let context := indexed "registered_products" index
  let registration ← object value context
  let name ← string (field registration "display_name") (context ++ str ".display_name") 256
  let guid ← string (field registration "instance_guid") (context ++ str ".instance_guid") 128
  let _ ← integer (field registration "product_state_raw") (context ++ str ".product_state_raw") 0
  mustBeFalse (field registration "product_state_interpreted")
    (context ++ str ".product_state_interpreted")
    (str "raw SecurityCenter2 productState cannot be interpreted")
  let identity := (py.casefold name, py.casefold guid)
  require (identity ∉ seen)
    (.contractError (str "registered antivirus inventory contains a duplicate"))
  pure identity

/-- The registered products from an index on. -/
def checkRegistrations (py : Interpreter) (seen : List (Str × Str)) (index : Nat) :
    List Json → Except Failure Unit
  | [] => .ok ()
  | value :: values => do
      let identity ← checkRegistration py seen value index
      checkRegistrations py (identity :: seen) (index + 1) values

/-- The inventory of registered products. -/
def checkInventory (py : Interpreter) (existing : List (Str × Json)) : Except Failure Unit := do
  let registrations ← list (field existing "registered_products")
    (str "existing_primary_protection.registered_products")
  require (registrations.length ≤ 64)
    (.contractError (str "registered antivirus inventory exceeds its bound"))
  checkRegistrations py [] 0 registrations
  let _ ← boolean (field existing "registration_inventory_complete")
    (str "existing_primary_protection.registration_inventory_complete")
  let _ ← optionalString (field existing "registration_inventory_error")
    (str "existing_primary_protection.registration_inventory_error") 1000
  pure ()

def expectedServices : List Str :=
  [str "WinDefend", str "WdNisSvc", str "MDCoreSvc", str "wscsvc", str "SecurityHealthService"]

/-- One security service, which is expected and was not seen before. -/
def checkService (actual : List Str) (value : Json) (index : Nat) : Except Failure Str := do
  let context := indexed "security_services" index
  let service ← object value context
  let name ← string (field service "name") (context ++ str ".name") 80
  require (name ∈ expectedServices ∧ name ∉ actual)
    (.contractError (str "Windows security service inventory is inconsistent"))
  let _ ← boolean (field service "available") (context ++ str ".available")
  let _ ← string (field service "status") (context ++ str ".status") 80
  pure name

/-- The names of the security services from an index on. -/
def checkServices (actual : List Str) (index : Nat) : List Json → Except Failure (List Str)
  | [] => .ok actual
  | value :: values => do
      let name ← checkService actual value index
      checkServices (name :: actual) (index + 1) values

/-- The services of Windows security, every one of them. -/
def checkServiceInventory (existing : List (Str × Json)) : Except Failure Unit := do
  let services ← list (field existing "security_services")
    (str "existing_primary_protection.security_services")
  let actual ← checkServices [] 0 services
  require (∀ name ∈ expectedServices, name ∈ actual)
    (.contractError (str "Windows security service inventory is incomplete"))

/-! ## Defender -/

/-- The summary Defender evidence is reduced to. -/
structure DefenderSummary where
  confirmedActive : Bool
  baselineConfirmed : Bool
  signaturesCurrent : Bool
  updateRecommended : Bool

/-- The features, each of which may be unknown, and the tamper protection. -/
def checkFeatures (defender : List (Str × Json)) : Except Failure Unit := do
  forEach ["antivirus_enabled", "real_time_protection_enabled", "antispyware_enabled",
      "service_enabled", "behavior_monitor_enabled", "ioav_protection_enabled",
      "on_access_protection_enabled", "network_inspection_enabled", "reboot_required"] fun name =>
    unlessNull (fun value => boolean value (str "defender." ++ str name)) (field defender name)
  known (field defender "tamper_protection") ["enabled", "disabled", "unknown"]
    (str "Defender tamper-protection state is unknown")

/-- The raw value of Network Protection. -/
def checkRawProtection (value : Json) : Except Failure Unit := do
  let n ← integer value (str "defender.network_protection.raw_value") 0
  require (n = 0 ∨ n = 1 ∨ n = 2)
    (.contractError (str "Defender Network Protection raw value is unsupported"))

def checkNetworkProtection (defender : List (Str × Json)) : Except Failure Unit := do
  let protection ← object (field defender "network_protection") (str "defender.network_protection")
  known (field protection "state") ["active", "audit", "disabled", "unavailable"]
    (str "Defender Network Protection state is unknown")
  unlessNull checkRawProtection (field protection "raw_value")
  require (isText (field protection "source") (str "Get-MpPreference.EnableNetworkProtection") = true)
    (.contractError (str "Defender Network Protection evidence uses an unsupported source"))
  let _ ← string (field protection "note") (str "defender.network_protection.note") 500
  pure ()

/-- `required_active`. -/
def requiredActive (defender : List (Str × Json)) : Bool :=
  isTrue (field defender "antivirus_enabled") &&
    isTrue (field defender "real_time_protection_enabled") &&
    isTrue (field defender "service_enabled")

/-- `required_baseline`. -/
def requiredBaseline (defender : List (Str × Json)) (confirmedActive : Bool) : Bool :=
  confirmedActive && isTrue (field defender "behavior_monitor_enabled") &&
    isTrue (field defender "ioav_protection_enabled") &&
    isTrue (field defender "on_access_protection_enabled") &&
    isTrue (field defender "network_inspection_enabled")

/-- The summary of the features against the features themselves. -/
def checkSummary (defender : List (Str × Json)) (available : Bool) :
    Except Failure DefenderSummary := do
  let confirmedActive ← boolean (field defender "confirmed_active") (str "defender.confirmed_active")
  let baselineConfirmed ← boolean (field defender "baseline_features_confirmed")
    (str "defender.baseline_features_confirmed")
  let signaturesCurrent ← boolean (field defender "signatures_current")
    (str "defender.signatures_current")
  let updateRecommended ← boolean (field defender "update_recommended")
    (str "defender.update_recommended")
  require (¬ (confirmedActive = true ∧ available = false))
    (.contractError (str "Defender active state contradicts provider availability"))
  require (confirmedActive = requiredActive defender)
    (.contractError (str "Defender active state contradicts its feature evidence"))
  require (baselineConfirmed = requiredBaseline defender confirmedActive)
    (.contractError (str "Defender baseline state contradicts its feature evidence"))
  pure ⟨confirmedActive, baselineConfirmed, signaturesCurrent, updateRecommended⟩

/-- `signature_material_present`. -/
def signatureMaterialPresent (signatures : List (Str × Json)) : Bool :=
  !isNull (field signatures "antivirus_version") &&
    !isNull (field signatures "antivirus_last_updated")

/-- What the provider reports about its signatures, against the summary. -/
def checkReported (signatures : List (Str × Json)) (summary : DefenderSummary) (value : Json) :
    Except Failure Unit := do
  let outOfDate ← boolean value (str "defender.signatures.defender_reports_out_of_date")
  let material := signatureMaterialPresent signatures
  require (¬ (summary.signaturesCurrent ≠ (!outOfDate && material) ∨
      summary.updateRecommended ≠ (outOfDate || !material)))
    (.contractError (str "Defender signature summary contradicts provider evidence"))

def checkSignatures (defender : List (Str × Json)) (summary : DefenderSummary) :
    Except Failure Unit := do
  let signatures ← object (field defender "signatures") (str "defender.signatures")
  forEach ["engine_version", "product_version", "antivirus_version", "antivirus_last_updated"]
    fun name =>
      (optionalString (field signatures name) (str "defender.signatures." ++ str name) 160).map
        fun _ => ()
  unlessNull (fun age => integer age (str "defender.signatures.antivirus_age_days") 0)
    (field signatures "antivirus_age_days")
  unlessNull (checkReported signatures summary) (field signatures "defender_reports_out_of_date")

def checkScans (defender : List (Str × Json)) : Except Failure Unit := do
  let scans ← object (field defender "scans") (str "defender.scans")
  forEach ["quick_scan_age_days", "full_scan_age_days"] fun name =>
    unlessNull (fun value => integer value (str "defender.scans." ++ str name) 0) (field scans name)
  forEach ["quick_scan_end", "full_scan_end"] fun name =>
    (optionalString (field scans name) (str "defender.scans." ++ str name) 160).map fun _ => ()
  let _ ← string (field defender "note") (str "defender.note") 1000
  pure ()

def checkDefender (existing : List (Str × Json)) : Except Failure Unit := do
  let defender ← object (field existing "defender") (str "existing_primary_protection.defender")
  require (isText (field defender "source") (str "Get-MpComputerStatus") = true)
    (.contractError (str "Defender evidence uses an unsupported source"))
  let available ← boolean (field defender "available") (str "defender.available")
  checkFeatures defender
  checkNetworkProtection defender
  let summary ← checkSummary defender available
  checkSignatures defender summary
  checkScans defender

/-! ## The decision -/

/-- The supervisor, the hashes and the heartbeat of a companion that runs; `kind` is the word
for the state it is in. -/
def checkRunning (root : List (Str × Json)) (kind : String) :
    Except Failure (List (Str × Json)) := do
  let supervisor ← object (field root "supervisor") (str "supervisor")
  mustBeTrue (field supervisor "registration_verified") (str "supervisor.registration_verified")
    (str kind ++ str " companion supervisor registration is unverified")
  known (field supervisor "state") ["registered_for_logon", "registered_and_running"]
    (str kind ++ str " companion supervisor state is unsupported")
  let integrity ← object (field root "integrity") (str "integrity")
  forEach ["cli_hash_verified", "runtime_hash_verified", "launcher_hash_verified"] fun name =>
    mustBeTrue (field integrity name) (str "integrity." ++ str name)
      (str kind ++ str " companion lacks " ++ str name)
  let health ← object (field root "health") (str "health")
  forEach ["schema_valid", "fresh", "process_verified"] fun name =>
    mustBeTrue (field health name) (str "health." ++ str name)
      (str kind ++ str " companion lacks " ++ str name)
  pure health

/-- `value == [reason]`. -/
def reasonsAre (value : Json) (reason : Str) : Bool :=
  match value with
  | .arr [.str s] => decide (s = reason)
  | _ => false

/-- A companion whose first inventory is in progress. -/
def checkInitializing (root : List (Str × Json)) (head : CompanionHead) (aggregateGood : Bool) :
    Except Failure Unit := do
  let metadata := isText head.decision (str "metadata_inventory_in_progress")
  require (¬ (head.installed = false ∨ head.healthy = true ∨ aggregateGood = false))
    (.contractError (str "initializing companion decision contradicts protection evidence"))
  let expectedReason := if metadata
    then str "initial protected-folder metadata inventory is in progress"
    else str "initial protected-folder baseline is in progress"
  require (reasonsAre (field root "reasons") expectedReason = true)
    (.contractError (str "initializing companion reason is inconsistent"))
  let health ← checkRunning root "initializing"
  let lastRecord ← object (field health "last_record") (str "health.last_record")
  let expectedState := if metadata then str "inventorying_metadata" else str "baselining"
  require (isText (field lastRecord "operational_state") expectedState = true)
    (.contractError (str "initializing companion health state is inconsistent"))

/-- The decision against the rest of the payload. -/
def checkDecision (root : List (Str × Json)) (head : CompanionHead) (aggregateGood : Bool) :
    Except Failure Unit :=
  if isText head.decision (str "not_installed") then
    require (¬ (head.installed = true ∨ head.healthy = true))
      (.contractError (str "not_installed companion decision contradicts installed/healthy state"))
  else if isText head.decision (str "degraded") then
    require (head.healthy = false)
      (.contractError (str "degraded companion decision contradicts healthy state"))
  else if isText head.decision (str "baseline_in_progress") ||
      isText head.decision (str "metadata_inventory_in_progress") then
    checkInitializing root head aggregateGood
  else do
    require (¬ (head.installed = false ∨ head.healthy = false ∨ aggregateGood = false))
      (.contractError (str "healthy companion decision lacks required protection evidence"))
    let _ ← checkRunning root "healthy"
    pure ()

/-- `validate_companion_status(payload)`. -/
def validateCompanionStatus (py : Interpreter) (payload : Json) :
    Except Failure (List (Str × Json)) := do
  let root ← schema payload "zsec.antivirus.windows-companion-status.v1"
  let head ← checkHead root
  checkReasons root
  let existing ← object (field root "existing_primary_protection")
    (str "existing_primary_protection")
  let aggregateGood ← checkAggregate existing
  checkInventory py existing
  checkServiceInventory existing
  checkDefender existing
  checkDecision root head aggregateGood
  pure root

end ZsecShield.Desktop
