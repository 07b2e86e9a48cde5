import ZsecShield.Shields.RuntimeHealth

/-!
# The service worker

The operations of `service-worker.js` on the stored settings and the network rules, with
`applyVerifiedSettings` of `settings-transaction.js`.
-/

namespace ZsecShield.Shields

open Text (Str str CodePoint)
open Effect

/-! ## Health records -/

/-- The record of the verifier as a value. -/
def Details.toJson (d : Details) : Json :=
  let ids := fun ids : List Nat => Json.arr (ids.map fun id => .int id)
  let names := fun names : List Str => Json.arr (names.map .str)
  .obj
    [ (str "schema", .str runtimeHealthSchema),
      (str "policyRevision", .str runtimePolicyRevision),
      (str "filteringMode", .str d.filteringMode),
      (str "enabledRulesets", names d.enabledRulesets),
      (str "expectedRulesets", names d.expectedRulesets),
      (str "disabledRuleIds", .obj (d.disabledRuleIds.map fun m => (m.1, ids m.2))),
      (str "dynamicRuleIds", ids d.dynamicRuleIds),
      (str "expectedDynamicRuleIds", ids d.expectedDynamicRuleIds),
      (str "dynamicRulesVerified", .int d.dynamicRuleIds.length),
      (str "packagedStaticRuleCount", .int packagedStaticRuleCount),
      (str "additionalStaticRuleCapacity", .int d.additionalStaticRuleCapacity),
      (str "guaranteedMinimumStaticRules", .int d.guaranteedMinimumStaticRules),
      (str "regexRulesVerified", .int d.regexResults.length),
      (str "regexResults", .arr (d.regexResults.map fun id =>
        .obj [(str "id", .int id), (str "isSupported", .bool true)])),
      (str "dynamicRegexRulesVerified", .int d.dynamicRegexRulesVerified),
      (str "representativeMatchStatus", .str d.representativeMatchStatus),
      (str "representativeMatches", .arr (d.representativeMatches.map fun probe =>
        .obj
          [ (str "name", .str probe.name),
            (str "rulesetId", .str probe.rulesetId),
            (str "ruleId", .int probe.ruleId),
            (str "expected", .str (str (if probe.shouldMatch then "match" else "no_match"))),
            (str "verified", .bool true)]))]

/-- The UTF-16 units of a text. -/
def charCodes (s : Str) : List Nat :=
  s.flatMap fun c =>
    if c.val < 0x10000 then [c.val]
    else [0xD800 + (c.val - 0x10000) / 1024, 0xDC00 + (c.val - 0x10000) % 1024]

/-- `fnv1a32`. -/
def fnv1a32 (value : Str) : Str :=
  let hash := (charCodes value).foldl (fun hash code => (hash ^^^ code) * 0x01000193 % 2 ^ 32)
    0x811c9dc5
  let digits := (Nat.toDigits 16 hash).map Text.ofChar
  List.replicate (8 - digits.length) (Text.ofChar '0') ++ digits

/-- `settingsRevision`. -/
def settingsRevision (settings : Settings) : Str :=
  let serialized := Json.layout .canonical 0 (.obj settings.items)
  str "fnv1a32-" ++ fnv1a32 serialized ++ str "-" ++ Text.digits (charCodes serialized).length

structure RuntimeHealth where
  ok : Bool
  extensionVersion : Str
  settingsRevision : Str
  state : Str
  error : Option Str
  diagnostic : Option Str
  details : Option Details
  recordedAt : Str

/-- The record as a value. -/
def RuntimeHealth.toJson (health : RuntimeHealth) : Json :=
  let nullable := fun text : Option Str => text.elim Json.null .str
  .obj
    [ (str "ok", .bool health.ok),
      (str "schema", .str runtimeHealthSchema),
      (str "extensionVersion", .str health.extensionVersion),
      (str "policyRevision", .str runtimePolicyRevision),
      (str "settingsRevision", .str health.settingsRevision),
      (str "state", .str health.state),
      (str "error", nullable health.error),
      (str "diagnostic", nullable health.diagnostic),
      (str "details", health.details.elim Json.null Details.toJson),
      (str "recordedAt", .str health.recordedAt)]

/-- `[a-z0-9_:;-]`. -/
def isDiagnosticChar (c : CodePoint) : Bool :=
  decide (0x61 ≤ c.val ∧ c.val ≤ 0x7A ∨ 0x30 ≤ c.val ∧ c.val ≤ 0x39 ∨ c.val = 0x5F ∨
    c.val = 0x3A ∨ c.val = 0x3B ∨ c.val = 0x2D)

/-- `safeDiagnostic`. -/
def safeDiagnostic (error : Option JsError) : Str :=
  let value :=
    match error with
    | some (.error message) => message
    | _ => str "unknown_failure"
  if value ≠ [] ∧ value.all isDiagnosticChar = true then value else str "runtime_api_failure"

/-- `buildRuntimeHealth`; the state follows from the details where none is given. -/
def buildRuntimeHealth (ok : Bool) (settings : Settings) (error : Option JsError)
    (details : Option Details) (state : Option Str) : Task RuntimeHealth := do
  let chrome ← Prog.ask id
  let recordedAt ← Prog.gets fun s => chrome.now s.calls
  let filteringMode := details.map Details.filteringMode
  let representativeUnavailable :=
    details.map Details.representativeMatchStatus = some (str "api_unavailable")
  pure {
    ok
    extensionVersion := chrome.extensionVersion
    settingsRevision := settingsRevision settings
    state := state.getD (str (
      if ok = false then "degraded"
      else if filteringMode = some (str "off") then "disabled_by_user"
      else if representativeUnavailable then "verified_limited" else "verified"))
    error := if ok then none else some (str "Local filtering verification failed")
    diagnostic := if ok then none else some (safeDiagnostic error)
    details := if ok then details else none
    recordedAt }

/-! ## Storage -/

/-- `HEALTH_KEY`. -/
def healthKey : Str := str "runtimeHealth"

/-- The settings that a storage holds. -/
def storedSettings (script : Script) (storage : List (Str × Json)) : Settings :=
  normalizeSettings script (.obj (defaultSettings.items.map fun m =>
    (m.1, (Json.lookup m.1 storage).getD m.2)))

/-- Put items into a storage. -/
def store (storage items : List (Str × Json)) : List (Str × Json) :=
  items.foldl (fun storage m => Json.insertMember storage m.1 m.2) storage

/-- `readSettings`. -/
def readSettings : Task Settings := do
  let call ← nextCall
  failWith (← Prog.ask fun chrome => chrome.storageFailure call)
  let chrome ← Prog.ask id
  Prog.gets fun s => storedSettings chrome.script s.storage

/-- `chrome.storage.local.set`; a write that fails leaves the storage as it was. -/
def setStorage (items : List (Str × Json)) : Task Unit := do
  let call ← nextCall
  failWith (← Prog.ask fun chrome => chrome.storageFailure call)
  Prog.update fun s =>
    { s with storage := store s.storage items, written := s.written ++ [items] }

/-- `recordRuntimeHealth`; the badge it sets is read by nobody. -/
def recordRuntimeHealth (health : RuntimeHealth) : Task RuntimeHealth := do
  setStorage [(healthKey, health.toJson)]
  pure health

/-! ## Network rules -/

/-- A call that changes the network rules. -/
def updateNetwork (change : Chrome → Nat → Network → Network × Option JsError) : Task Unit := do
  let call ← nextCall
  let chrome ← Prog.ask id
  let network ← Prog.gets Runtime.network
  let answer := change chrome call network
  Prog.update fun s => { s with network := answer.1 }
  failWith answer.2

/-- `applyNetworkSettings`. -/
def applyNetworkSettings (normalized : Settings) : Task Unit := do
  updateNetwork fun chrome call => chrome.updateEnabledRulesets call
    (if normalized.protectionEnabled then expectedRulesetIds else [])
    (if normalized.protectionEnabled then [] else expectedRulesetIds)
  updateNetwork fun chrome call =>
    chrome.updateDynamicRules call removeRuleIds (dynamicRulesFor normalized)

/-! ## The transaction -/

/-- The result of `applyVerifiedSettings`.  `committed` is what `persist` leaves in the variables
of its caller. -/
structure Applied (κ : Type) where
  settings : Settings
  verification : Details
  rollback : Str
  committed : κ

/-- The attempt of `applyVerifiedSettings`. -/
def attempt {κ : Type} (desired : Settings) (apply : Settings → Task Unit)
    (verify : Settings → Task Details) (persist : Settings → Details → Bool → Task κ) :
    Task (Applied κ) := do
  apply desired
  let verification ← verify desired
  let committed ← persist desired verification false
  pure { settings := desired, verification, rollback := str "not_needed", committed }

/-- The way back of `applyVerifiedSettings`. -/
def restore {κ : Type} (error : JsError) (previous : Settings) (apply : Settings → Task Unit)
    (verify : Settings → Task Details) (persist : Settings → Details → Bool → Task κ) :
    Task FailureReport :=
  Prog.tryExcept
    (do
      apply previous
      let verification ← verify previous
      let _ ← persist previous verification true
      pure ⟨error, true, none⟩)
    (fun _ => true) fun caught => pure ⟨error, false, some caught⟩

/-- `applyVerifiedSettings`. -/
def applyVerifiedSettings {κ : Type} (desired previous : Settings)
    (apply : Settings → Task Unit) (verify : Settings → Task Details)
    (persist : Settings → Details → Bool → Task κ) (recordFailure : FailureReport → Task Unit) :
    Task (Applied κ) :=
  Prog.tryExcept (attempt desired apply verify persist) (fun _ => true) fun error => do
    let report ← restore error previous apply verify persist
    recordFailure report
    Prog.raise error

/-- `persist` of `writeSettings`. -/
def persistSettings (candidate : Settings) (runtime : Details) (rollback : Bool) :
    Task (Option RuntimeHealth) := do
  if rollback then
    setStorage candidate.items
    pure none
  else
    let committedHealth ← buildRuntimeHealth true candidate none (some runtime) none
    setStorage (candidate.items ++ [(healthKey, committedHealth.toJson)])
    pure (some committedHealth)

/-- The message of the error that `recordFailure` of `writeSettings` records. -/
def failureDiagnostic (report : FailureReport) : Str :=
  safeDiagnostic (some report.error) ++ str ";rollback_" ++
    str (if report.rollbackVerified then "verified" else "failed") ++
    match report.rollbackError with
    | none | some (.other false) => []
    | some e => str ":" ++ safeDiagnostic (some e)

/-- `recordFailure` of `writeSettings`. -/
def recordFailure (previous : Settings) (report : FailureReport) : Task Unit := do
  Prog.update fun s => { s with reported := s.reported ++ [report] }
  let health ← buildRuntimeHealth false previous (some (.error (failureDiagnostic report))) none
    (some (str "degraded"))
  let _ ← recordRuntimeHealth health
  pure ()

/-- `writeSettings`. -/
def writeSettings (settings : Json) : Task (Settings × Option RuntimeHealth) := do
  let chrome ← Prog.ask id
  let normalized := normalizeSettings chrome.script settings
  let previous ← readSettings
  let result ← applyVerifiedSettings normalized previous applyNetworkSettings
    verifyNetworkSettings persistSettings (recordFailure previous)
  pure (result.settings, result.committed)

/-- `refreshRuntimeHealth`. -/
def refreshRuntimeHealth (settings : Settings) : Task RuntimeHealth :=
  Prog.tryExcept
    (do
      let details ← verifyNetworkSettings settings
      let health ← buildRuntimeHealth true settings none (some details) none
      recordRuntimeHealth health)
    (fun _ => true) fun error => do
      let health ← buildRuntimeHealth false settings (some error) none (some (str "degraded"))
      recordRuntimeHealth health

/-- `initialiseRules`. -/
def initialiseRules : Task Unit := do
  let settings ← readSettings
  let _ ← writeSettings (.obj settings.items)
  pure ()

end ZsecShield.Shields
