import ZsecShield.Desktop.Companion

/-!
# What the desktop shows of a companion

`companion_presentation`, `protection_layers_presentation` and `windows_cutover_presentation` of
`contracts.py`.  They index into the payload directly, so a key that the validator does not force
ends a presentation with a `KeyError`.
-/

namespace ZsecShield.Desktop

open Text (Str str)
open Feed (field isText)
open Checks

inductive Accent where
  | green
  | amber
  | cyan
  | red
  deriving DecidableEq

inductive CompanionState where
  | healthy
  | notInstalled
  | inventorying
  | baselining
  | stale
  | recovering
  | coverageReview
  | degraded
  deriving DecidableEq

/-- The name of a state in the source. -/
def CompanionState.name : CompanionState → Str
  | .healthy => str "healthy"
  | .notInstalled => str "not_installed"
  | .inventorying => str "inventorying"
  | .baselining => str "baselining"
  | .stale => str "stale"
  | .recovering => str "recovering"
  | .coverageReview => str "coverage_review"
  | .degraded => str "degraded"

structure CompanionPresentation where
  state : CompanionState
  headline : Str
  detail : Str
  accent : Accent

/-! ## Texts of a payload -/

/-- `value[:count]`. -/
def firstOf (value : Json) (count : Nat) : Except Failure (List Json) :=
  match value with
  | .arr elements => .ok (elements.take count)
  | .str s => .ok ((s.take count).map fun c => .str [c])
  | .obj _ => .error (.typeError (str "unhashable type: 'slice'"))
  | value => .error (notIndexable value)

/-- The texts to join, from an index on. -/
def textsOf (index : Nat) : List Json → Except Failure (List Str)
  | [] => .ok []
  | value :: values => do
      let text ← fromOption value.strOf (.typeError (str "sequence item " ++ Text.digits index ++
        str ": expected str instance, " ++ typeName value ++ str " found"))
      let texts ← textsOf (index + 1) values
      pure (text :: texts)

/-- `"; ".join(texts)`. -/
def joined (texts : List Str) : Str := (str "; ").intercalate texts

/-- `text or otherwise`. -/
def orElse (text otherwise : Str) : Str := if text = [] then otherwise else text

/-- `fragment in text`. -/
def contains (fragment : String) (text : Str) : Bool := decide (str fragment <:+: text)

/-- `value.get(key)` of a value that is a dictionary, and nothing of another one. -/
def memberOf (value : Json) (key : String) : Option Json :=
  value.objOf.map fun members => field members key

/-! ## The companion -/

/-- `integrity_failed`. -/
def integrityFailed (payload : List (Str × Json)) : Bool :=
  ["cli_hash_verified", "runtime_hash_verified", "launcher_hash_verified"].any fun name =>
    (memberOf (field payload "integrity") name).any isFalse

/-- `supervisor_verified`. -/
def supervisorVerified (payload : List (Str × Json)) : Bool :=
  (memberOf (field payload "supervisor") "registration_verified").any isTrue

/-- `live_process_verified`. -/
def liveProcessVerified (payload : List (Str × Json)) : Bool :=
  ["schema_valid", "fresh", "process_verified"].all fun name =>
    (memberOf (field payload "health") name).any isTrue

/-- The presentation of a companion whose first inventory is in progress. -/
def inventoryPresentation (metadataInventory defenderConfirmedActive : Bool) :
    CompanionPresentation where
  state := if metadataInventory then .inventorying else .baselining
  headline := str "ZSEC post-change monitoring running"
  detail := (if defenderConfirmedActive then str "Microsoft Defender real-time enforcement"
      else str "Windows antivirus protection") ++
    str " is active. ZSEC change monitoring is running while the one-time " ++
    (if metadataInventory then str "protected-folder metadata inventory completes automatically."
      else str "coverage inventory completes automatically.")
  accent := .cyan

/-- The presentation of a degraded companion next to a healthy provider. -/
def supportedPresentation (payload : List (Str × Json)) (reasons : Str)
    (normalizedReasons : List Str) (defenderConfirmedActive : Bool) : CompanionPresentation :=
  let protectionName := if defenderConfirmedActive then str "Microsoft Defender protection"
    else str "Windows antivirus protection"
  let staleHeartbeat :=
    normalizedReasons.any (contains "health heartbeat is stale or from the future")
  let processUnavailable := normalizedReasons.any (contains "heartbeat process is absent")
  if staleHeartbeat then {
    state := .stale
    headline := str "ZSEC post-change monitoring evidence stale"
    detail := protectionName ++ str (" remains active as primary enforcement. A fresh " ++
      "ZSEC monitoring heartbeat is not currently verified. " ++
      "ZSEC will refresh this evidence automatically. Current evidence: ") ++ reasons
    accent := .amber }
  else if supervisorVerified payload && processUnavailable then {
    state := .recovering
    headline := str "ZSEC post-change companion restarting"
    detail := protectionName ++ str (" remains active as primary enforcement. The verified " ++
      "ZSEC supervisor will restart local monitoring automatically. Current " ++
      "evidence: ") ++ reasons
    accent := .amber }
  else if liveProcessVerified payload &&
      decide (normalizedReasons = [str "watch session reports degraded"]) then {
    state := .coverageReview
    headline := str "ZSEC post-change monitoring running · scoped coverage limited"
    detail := protectionName ++ str (" remains active as primary enforcement. The verified " ++
      "ZSEC change-monitoring process is running, but at least one protected " ++
      "path could not be inspected or was excluded by its fail-closed path " ++
      "policy. Coverage remains incomplete while five-minute reconciliation " ++
      "retries automatically.")
    accent := .amber }
  else {
    state := .degraded
    headline := str "ZSEC post-change monitoring not verified"
    detail := protectionName ++ str (" remains active as primary enforcement, but ZSEC " ++
      "monitoring is not currently verified. Current evidence: ") ++
      orElse reasons (str "monitoring evidence is incomplete.")
    accent := .amber }

/-- The presentation of a degraded companion. -/
def degradedPresentation (py : Interpreter) (payload : List (Str × Json)) :
    Except Failure CompanionPresentation := do
  let value ← item (.obj payload) "reasons"
  let reasonValues ← firstOf value 3
  let texts ← textsOf 0 reasonValues
  let reasons := joined texts
  let normalizedReasons := texts.map py.casefold
  let primaryProtection ← item (.obj payload) "existing_primary_protection"
  let aggregateGood ← item primaryProtection "aggregate_good"
  let defender ← item primaryProtection "defender"
  let confirmedActive ← item defender "confirmed_active"
  if truthy aggregateGood && !integrityFailed payload then
    pure (supportedPresentation payload reasons normalizedReasons (truthy confirmedActive))
  else
    pure {
      state := .degraded
      headline := str "Windows real-time protection unverified · ZSEC monitoring degraded"
      detail := orElse reasons
        (str "Primary protection and ZSEC monitoring evidence are incomplete.")
      accent := .red }

/-- `companion_presentation(payload)`. -/
def companionPresentation (py : Interpreter) (payload : List (Str × Json)) :
    Except Failure CompanionPresentation := do
  let decision ← item (.obj payload) "decision"
  if isText decision (str "healthy_companion") then
    pure {
      state := .healthy
      headline := str "ZSEC post-change companion running"
      detail := str ("Process, hashes, heartbeat and logon supervisor are verified. ZSEC " ++
        "inspects changes after they occur; the existing antivirus remains the " ++
        "primary real-time enforcement layer.")
      accent := .green }
  else if isText decision (str "not_installed") then
    pure {
      state := .notInstalled
      headline := str "ZSEC post-change companion not installed"
      detail := str ("ZSEC is not a primary antivirus. Microsoft Defender or another existing " ++
        "antivirus must remain active.")
      accent := .amber }
  else do
    let initializing ← oneOf decision ["baseline_in_progress", "metadata_inventory_in_progress"]
    if initializing then do
      let primaryProtection ← item (.obj payload) "existing_primary_protection"
      let defender ← item primaryProtection "defender"
      let confirmedActive ← item defender "confirmed_active"
      pure (inventoryPresentation (isText decision (str "metadata_inventory_in_progress"))
        (truthy confirmedActive))
    else
      degradedPresentation py payload

/-! ## The layers of protection -/

structure ProtectionLayerPresentation where
  key : Str
  title : Str
  status : Str
  detail : Str
  accent : Accent

/-- The layer of the provider. -/
def windowsLayer (defenderActive aggregateGood : Bool) : ProtectionLayerPresentation :=
  if defenderActive && aggregateGood then {
    key := str "windows"
    title := str "Microsoft Defender real-time protection"
    status := str "ACTIVE"
    detail := str "Verified real-time, pre-access enforcement; ZSEC is not primary"
    accent := .green }
  else if defenderActive then {
    key := str "windows"
    title := str "Microsoft Defender real-time protection"
    status := str "ACTIVE · HEALTH REVIEW"
    detail := str "Real-time controls are confirmed, but aggregate provider health is not GOOD"
    accent := .amber }
  else if aggregateGood then {
    key := str "windows"
    title := str "Windows antivirus protection"
    status := str "ACTIVE PROVIDER"
    detail := str "Windows Security reports GOOD; Defender is not confirmed as active"
    accent := .amber }
  else {
    key := str "windows"
    title := str "Windows real-time protection"
    status := str "NOT VERIFIED"
    detail := str "Keep the existing antivirus active and review provider evidence"
    accent := .red }

/-- A row of a table of states: status, detail and accent. -/
abbrev LayerRow := Str × Str × Accent

/-- `table[state]`. -/
def rowOf (table : List (CompanionState × LayerRow)) (state : CompanionState) :
    Except Failure LayerRow :=
  fromOption (table.lookup state) (.keyError state.name)

/-- The accent of a degraded companion in a table. -/
def degradedAccent (companion : CompanionPresentation) : Accent :=
  if companion.accent = .red then .red else .amber

def companionStates (companion : CompanionPresentation) : List (CompanionState × LayerRow) :=
  [(.healthy, str "RUNNING",
      str "Process, integrity, heartbeat and sign-in supervisor verified", .green),
    (.baselining, str "RUNNING · INVENTORY IN PROGRESS",
      str "Post-change monitoring is active while initial coverage is inventoried", .cyan),
    (.inventorying, str "RUNNING · INVENTORY IN PROGRESS",
      str "Post-change monitoring is active while folder metadata is inventoried", .cyan),
    (.coverageReview, str "RUNNING · COVERAGE EXCEPTION",
      str "Process verified; at least one protected path remains uninspected", .amber),
    (.stale, str "EVIDENCE STALE",
      str "A fresh monitoring heartbeat is not currently verified", .amber),
    (.recovering, str "RESTARTING",
      str "Verified supervisor is retrying the post-change companion", .amber),
    (.degraded, str "NOT VERIFIED",
      str "Post-change monitoring evidence is incomplete", degradedAccent companion),
    (.notInstalled, str "NOT INSTALLED",
      str "No automatic ZSEC post-change companion is installed", .amber)]

def scopeStates (companion : CompanionPresentation) : List (CompanionState × LayerRow) :=
  [(.healthy, str "SCOPED",
      str "Protected folders only; post-change inspection, not pre-access coverage", .cyan),
    (.baselining, str "SCOPED · INVENTORY IN PROGRESS",
      str "Protected-folder coverage is still being established", .amber),
    (.inventorying, str "SCOPED · INVENTORY IN PROGRESS",
      str "Protected-folder metadata coverage is still being established", .amber),
    (.coverageReview, str "LIMITED",
      str "At least one protected path was not inspected; reconciliation will retry", .amber),
    (.stale, str "UNVERIFIED",
      str "Current protected-folder coverage cannot be confirmed from stale evidence", .amber),
    (.recovering, str "UNVERIFIED DURING RESTART",
      str "Current protected-folder coverage is not confirmed until monitoring recovers", .amber),
    (.degraded, str "INCOMPLETE",
      str "Review the monitoring evidence; do not infer whole-device ZSEC coverage",
      degradedAccent companion),
    (.notInstalled, str "UNAVAILABLE",
      str "ZSEC protected-folder monitoring is not installed", .amber)]

/-- `protection_layers_presentation(payload)`. -/
def protectionLayersPresentation (py : Interpreter) (payload : List (Str × Json)) :
    Except Failure (List ProtectionLayerPresentation) := do
  let primary ← item (.obj payload) "existing_primary_protection"
  let defender ← item primary "defender"
  let defenderActive ← item defender "confirmed_active"
  let aggregateGood ← item primary "aggregate_good"
  let windows := windowsLayer (truthy defenderActive) (truthy aggregateGood)
  let companion ← companionPresentation py payload
  let (zsecStatus, zsecDetail, zsecAccent) ← rowOf (companionStates companion) companion.state
  let (scopeStatus, scopeDetail, scopeAccent) ← rowOf (scopeStates companion) companion.state
  pure [windows,
    ⟨str "zsec", str "ZSEC post-change companion", zsecStatus, zsecDetail, zsecAccent⟩,
    ⟨str "scope", str "ZSEC coverage boundary", scopeStatus, scopeDetail, scopeAccent⟩]

/-! ## The handoff to Defender -/

inductive CutoverState where
  | eligibleOperatorCutover
  | cutoverVerified
  | blocked
  deriving DecidableEq

structure WindowsCutoverPresentation where
  state : CutoverState
  headline : Str
  detail : Str
  accent : Accent

/-- `str(value)`. -/
def textOf (py : Interpreter) (value : Json) : Str := value.strOf.getD (py.reprText value)

/-- `[str(product["display_name"]) for product in products]`. -/
def displayNames (py : Interpreter) : List Json → Except Failure (List Str)
  | [] => .ok []
  | product :: products => do
      let name ← item product "display_name"
      let names ← displayNames py products
      pure (textOf py name :: names)

/-- What a `for` clause goes through: a dictionary gives its keys, a text its characters. -/
def iterated : Json → Except Failure (List Json)
  | .arr elements => .ok elements
  | .obj members => .ok (members.map fun m => .str m.1)
  | .str s => .ok (s.map fun c => .str [c])
  | value => .error (.typeError (str "'" ++ typeName value ++ str "' object is not iterable"))

/-- `and` over conditions that read a key: the first one that does not hold ends it. -/
def allOf : List (Json × String × (Json → Bool)) → Except Failure Bool
  | [] => .ok true
  | (value, key, condition) :: rest => do
      let found ← item value key
      if condition found then allOf rest else pure false

/-- `defender_ready`. -/
def defenderReady (existing defender : Json) : Except Failure Bool :=
  allOf [(existing, "aggregate_good", isTrue),
    (existing, "registration_inventory_complete", isTrue),
    (defender, "available", isTrue),
    (defender, "confirmed_active", isTrue),
    (defender, "baseline_features_confirmed", isTrue),
    (defender, "signatures_current", isTrue),
    (defender, "tamper_protection", fun value => isText value (str "enabled")),
    (defender, "reboot_required", isFalse)]

/-- The blockers of conditions that do not hold, in order. -/
def blockersOf : List (Json × String × (Json → Bool) × String) → Except Failure (List Str)
  | [] => .ok []
  | (value, key, condition, blocker) :: rest => do
      let found ← item value key
      let blockers ← blockersOf rest
      pure (if condition found then blockers else str blocker :: blockers)

/-- The blockers of the handoff. -/
def cutoverBlockers (existing defender : Json) : Except Failure (List Str) :=
  blockersOf [(existing, "registration_inventory_complete", isTrue,
      "provider inventory incomplete"),
    (existing, "aggregate_good", isTrue, "Windows Security aggregate not GOOD"),
    (defender, "confirmed_active", isTrue, "Defender real-time enforcement inactive"),
    (defender, "baseline_features_confirmed", isTrue, "Defender baseline controls incomplete"),
    (defender, "signatures_current", isTrue, "Defender intelligence not confirmed current"),
    (defender, "tamper_protection", fun value => isText value (str "enabled"),
      "Defender tamper protection not confirmed enabled"),
    (defender, "reboot_required", isFalse, "Defender reboot state is unknown or pending")]

/-- `windows_cutover_presentation(payload)`. -/
def windowsCutoverPresentation (py : Interpreter) (payload : List (Str × Json)) :
    Except Failure WindowsCutoverPresentation := do
  let existing ← item (.obj payload) "existing_primary_protection"
  let defender ← item existing "defender"
  let products ← item existing "registered_products"
  let values ← iterated products
  let registeredNames ← displayNames py values
  let malwarebytesPresent := registeredNames.any fun name =>
    contains "malwarebytes" (py.casefold name)
  let ready ← defenderReady existing defender
  if malwarebytesPresent && ready then
    pure {
      state := .eligibleOperatorCutover
      headline := str "Eligible for operator cutover"
      detail := str ("Defender is active with baseline controls, current security intelligence, " ++
        "tamper protection, and no pending reboot; Defender must remain the " ++
        "enforcement provider. ZSEC does not remove Malwarebytes.")
      accent := .amber }
  else if !malwarebytesPresent && ready then
    pure {
      state := .cutoverVerified
      headline := str "Defender-backed cutover verified"
      detail := str ("Malwarebytes is absent from the complete registration inventory and " ++
        "Defender enforcement is active with baseline controls, current intelligence, tamper " ++
        "protection, and no pending reboot.")
      accent := .green }
  else do
    let found ← cutoverBlockers existing defender
    let blockers := if malwarebytesPresent then str "Malwarebytes remains registered" :: found
      else found
    pure {
      state := .blocked
      headline := str "Malwarebytes removal blocked"
      detail := orElse (joined blockers)
        (str "required Defender handoff evidence is incomplete")
      accent := .red }

end ZsecShield.Desktop
