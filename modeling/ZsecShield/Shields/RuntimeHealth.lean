import ZsecShield.Lib.Effect
import ZsecShield.Lib.Json.Encode
import ZsecShield.Shields.Rules

/-!
# The verifier

`verifyDnrRuntime` asks the browser for the network rules that are in force and compares them
with what the settings call for.  `Verified` says what has to hold of the network for that.
The verifier changes nothing, returns only in a network that is `Verified`, and in such a
network fails only with the error of a call of the browser (`passes_verifyNetworkSettings`).
-/

namespace ZsecShield.Shields

open Text (Str str CodePoint)
open Browser (texts)
open Effect

/-! ## The browser -/

/-- The network rules that are in force. -/
structure Network where
  enabledRulesets : List Str
  disabledRuleIds : Str → List Nat
  dynamicRules : List Rule

/-- What a promise is rejected with: an `Error`, or a value that is none. -/
inductive JsError where
  | error (message : Str)
  | other (truthy : Bool)
deriving DecidableEq

/-- A request of a probe. -/
structure ProbeRequest where
  url : Str
  initiator : Option Str
  type : Str

/-- The browser around the extension.  Calls are counted, and any of them may fail.  What an
update leaves behind is up to the browser, whether the call fails or not. -/
structure Chrome where
  script : Script
  extensionVersion : Str
  available : Bool
  updateEnabledRulesets :
    Nat → (enableRulesetIds disableRulesetIds : List Str) → Network → Network × Option JsError
  updateDynamicRules :
    Nat → (removeRuleIds : List Nat) → (addRules : List Rule) → Network → Network × Option JsError
  readFailure : Nat → Option JsError
  /-- The answer where it is an integer. -/
  availableStaticRuleCount : Network → Option Int
  guaranteedMinimumStaticRules : Option Int
  isRegexSupported : (regex : Str) → (isCaseSensitive : Bool) → Bool
  /-- The ruleset and the id of each rule that matches; older browsers have no such call. -/
  testMatchOutcome : Option (Network → ProbeRequest → List (Str × Nat))
  storageFailure : Nat → Option JsError
  /-- `new Date().toISOString()`. -/
  now : Nat → Str

/-- The arguments of a call of `recordFailure`. -/
structure FailureReport where
  error : JsError
  rollbackVerified : Bool
  rollbackError : Option JsError

/-- What the extension works on.  `written` and `reported` keep the writes that took effect and
the failures that were reported; no function reads them. -/
structure Runtime where
  calls : Nat
  network : Network
  storage : List (Str × Json)
  written : List (List (Str × Json))
  reported : List FailureReport

/-- A program of the extension. -/
abbrev Task (α : Type) : Type := Prog Chrome Runtime JsError α

/-- Count a call of the browser. -/
def nextCall : Task Nat := do
  let s ← Prog.state
  Prog.update fun s => { s with calls := s.calls + 1 }
  pure s.calls

/-- A call that fails with the error it is given. -/
def failWith : Option JsError → Task Unit
  | none => pure ()
  | some e => Prog.raise e

/-- A call that reads the network rules. -/
def readNetwork {α : Type} (f : Chrome → Network → α) : Task α := do
  let call ← nextCall
  failWith (← Prog.ask fun chrome => chrome.readFailure call)
  let chrome ← Prog.ask id
  Prog.gets fun s => f chrome s.network

/-- `if (!c) throw new Error(message)`. -/
def ensure (c : Bool) (message : Str) : Task Unit :=
  if c then pure () else Prog.raise (.error message)

/-! ## What is expected -/

/-- `RUNTIME_HEALTH_SCHEMA`. -/
def runtimeHealthSchema : Str := str "zsec.chrome-shields.runtime-health.v3"

/-- `EXPECTED_RULESET_IDS`. -/
def expectedRulesetIds : List Str := texts ["privacy_rules", "link_cleanup", "easylist_ads"]

/-- `PACKAGED_STATIC_RULE_COUNT`. -/
def packagedStaticRuleCount : Nat := 49505

/-- `RUNTIME_POLICY_REVISION`. -/
def runtimePolicyRevision : Str :=
  str "0.5.3:login-compatibility-v1:81d9ba06866a37595397ce62cbc4ccd310c8d9bdc6ed92c9b8b9c89b194ea9d6"

structure RegexRule where
  id : Nat
  regex : Str
  isCaseSensitive : Bool

/-- `REQUIRED_REGEX_RULES`. -/
def requiredRegexRules : List RegexRule :=
  [ ⟨744738, str "^https?:\\/\\/[0-9a-z]\x7b5,\x7d\\.com\\/.*", false⟩,
    ⟨744739, str "^https?:\\/\\/[0-9a-z]\x7b8,\x7d\\.xyz\\/.*", false⟩,
    ⟨744740, str "\\/[0-9a-f]\x7b32\x7d\\/invoke\\.js", false⟩,
    ⟨744801,
      str "^https?:\\/\\/www\\.[0-9a-z]\x7b8,\x7d\\.com\\/[0-9a-z]\x7b1,4\x7d\\.js$", false⟩,
    ⟨744802, str "\\.gsmarena\\.com\\/[0-9]+\\.[a-z]+\\?s?Search=", false⟩,
    ⟨745461, str "^https?:\\/\\/.*\\/.*sw[0-9._].*", false⟩]

structure Probe where
  name : Str
  rulesetId : Str
  ruleId : Nat
  shouldMatch : Bool
  request : ProbeRequest

/-- `secureUrl`. -/
def secureUrl (host path : Str) : Str :=
  str "https://" ++ host ++ str "/" ++ path.dropWhile (· = Browser.slash)

/-- `REPRESENTATIVE_MATCH_PROBES`. -/
def representativeMatchProbes : List Probe :=
  let own := str "talktoai.org"
  let youtube := str "www.youtube.com"
  let watch := some (secureUrl youtube (str "/watch?v=zsec-runtime-probe"))
  [ { name := str "zsec_local_privacy"
      rulesetId := str "privacy_rules"
      ruleId := 39
      shouldMatch := true
      request := {
        url := secureUrl own (str "/zero-chrome/runtime-check/blocked.js")
        initiator := some (secureUrl own (str "/"))
        type := str "script" } },
    { name := str "link_cleanup"
      rulesetId := str "link_cleanup"
      ruleId := 1001
      shouldMatch := true
      request := {
        url := secureUrl (str "example.test") (str "/?utm_source=zsec-runtime-probe")
        initiator := none
        type := str "main_frame" } },
    { name := str "easylist_youtube_pagead"
      rulesetId := str "easylist_ads"
      ruleId := 744733
      shouldMatch := true
      request := {
        url := secureUrl youtube (str "/pagead/zsec-runtime-probe")
        initiator := watch
        type := str "xmlhttprequest" } },
    { name := str "easylist_youtube_ad_break"
      rulesetId := str "easylist_ads"
      ruleId := 744734
      shouldMatch := true
      request := {
        url := secureUrl youtube (str "/youtubei/v1/player/ad_break")
        initiator := watch
        type := str "xmlhttprequest" } },
    { name := str "easylist_youtube_ad_break_control"
      rulesetId := str "easylist_ads"
      ruleId := 744734
      shouldMatch := false
      request := {
        url := secureUrl youtube (str "/youtubei/v1/player")
        initiator := watch
        type := str "xmlhttprequest" } }]

/-! ## Comparing rules -/

/-- `canonicalize` of a list of texts. -/
def canonicalTexts (script : Script) (values : List Str) : List Str :=
  values.insertionSort fun a b => script.localeLe a b = true

/-- `canonicalize` of a rule. -/
def canonicalize (script : Script) (rule : Rule) : Rule :=
  let sorted := Option.map (canonicalTexts script)
  { rule with
    condition := { rule.condition with
      requestDomains := sorted rule.condition.requestDomains
      initiatorDomains := sorted rule.condition.initiatorDomains
      excludedInitiatorDomains := sorted rule.condition.excludedInitiatorDomains
      resourceTypes := canonicalTexts script rule.condition.resourceTypes } }

/-- `canonicalRules`. -/
def canonicalRules (script : Script) (rules : List Rule) : List Rule :=
  (rules.map (canonicalize script)).insertionSort fun left right => left.id ≤ right.id

/-! ## The verifier -/

/-- What the verifier has seen. -/
structure Details where
  filteringMode : Str
  enabledRulesets : List Str
  expectedRulesets : List Str
  disabledRuleIds : List (Str × List Nat)
  dynamicRuleIds : List Nat
  expectedDynamicRuleIds : List Nat
  additionalStaticRuleCapacity : Int
  guaranteedMinimumStaticRules : Int
  regexResults : List Nat
  dynamicRegexRulesVerified : Nat
  representativeMatchStatus : Str
  representativeMatches : List Probe

/-- `Number.isSafeInteger`. -/
def isSafeInteger (n : Int) : Bool := decide (n.natAbs ≤ 2 ^ 53 - 1)

/-- The regular expression of a rule, where it has one. -/
def Rule.regex? (rule : Rule) : Option Str :=
  if rule.condition.regexFilter.getD [] = [] then none else rule.condition.regexFilter

/-- One turn of the loop of `representativeMatches`. -/
def runProbe (outcome : Network → ProbeRequest → List (Str × Nat)) (probe : Probe) : Task Unit := do
  let matchedRules ← readNetwork fun _ network => outcome network probe.request
  ensure (decide ((probe.rulesetId, probe.ruleId) ∈ matchedRules) == probe.shouldMatch)
    (str "representative_match_" ++ probe.name ++ str "_failed")

/-- `representativeMatches`. -/
def representativeMatches (protectionEnabled : Bool) : Task (Str × List Probe) := do
  if protectionEnabled = false then pure (str "not_applicable", [])
  else
    match ← Prog.ask Chrome.testMatchOutcome with
    | none => pure (str "api_unavailable", [])
    | some outcome =>
        Prog.forEach (runProbe outcome) representativeMatchProbes
        pure (str "verified", representativeMatchProbes)

/-- `dnr.isRegexSupported`. -/
def checkRegex (regex : Str) (isCaseSensitive : Bool) (message : Str) : Task Unit := do
  let supported ← readNetwork fun chrome _ => chrome.isRegexSupported regex isCaseSensitive
  ensure supported message

/-- One turn of the loop over the rules that are expected. -/
def checkDynamicRegex (rule : Rule) : Task Unit :=
  match rule.regex? with
  | none => pure ()
  | some regex =>
      checkRegex regex (rule.condition.isUrlFilterCaseSensitive == some true)
        (str "dynamic_regex_rule_" ++ Text.digits rule.id ++ str "_unsupported")

/-- One turn of the loop over the rulesets. -/
def checkDisabledRules (rulesetId : Str) : Task Unit := do
  let disabled ← readNetwork fun _ network => network.disabledRuleIds rulesetId
  ensure (decide (disabled.length ≤ 0)) (str "disabled_rules_" ++ rulesetId)

/-- `verifyDnrRuntime`. -/
def verifyDnrRuntime (protectionEnabled : Bool) (expectedDynamicRules : List Rule) :
    Task Details := do
  let chrome ← Prog.ask id
  ensure chrome.available (str "dnr_api_unavailable")
  let enabledRulesets ← readNetwork fun _ network =>
    network.enabledRulesets.insertionSort (· ≤ ·)
  let expectedRulesets :=
    if protectionEnabled then expectedRulesetIds.insertionSort (· ≤ ·) else []
  ensure (decide (enabledRulesets = expectedRulesets)) (str "enabled_ruleset_mismatch")
  Prog.forEach checkDisabledRules expectedRulesetIds
  let dynamicRules ← readNetwork fun _ network =>
    canonicalRules chrome.script network.dynamicRules
  let expectedDynamic := canonicalRules chrome.script expectedDynamicRules
  ensure (decide (dynamicRules = expectedDynamic)) (str "dynamic_rule_mismatch")
  let capacity ← readNetwork Chrome.availableStaticRuleCount
  ensure (capacity.any fun count => isSafeInteger count && decide (0 ≤ count))
    (str "invalid_static_rule_capacity")
  Prog.forEach (fun rule : RegexRule => checkRegex rule.regex rule.isCaseSensitive
    (str "regex_rule_" ++ Text.digits rule.id ++ str "_unsupported")) requiredRegexRules
  Prog.forEach checkDynamicRegex expectedDynamic
  let representative ← representativeMatches protectionEnabled
  pure {
    filteringMode := str (if protectionEnabled then "on" else "off")
    enabledRulesets
    expectedRulesets
    disabledRuleIds := expectedRulesetIds.map fun rulesetId => (rulesetId, [])
    dynamicRuleIds := dynamicRules.map Rule.id
    expectedDynamicRuleIds := expectedDynamic.map Rule.id
    additionalStaticRuleCapacity := capacity.getD 0
    guaranteedMinimumStaticRules :=
      (chrome.guaranteedMinimumStaticRules.filter isSafeInteger).getD 30000
    regexResults := requiredRegexRules.map RegexRule.id
    dynamicRegexRulesVerified := (expectedDynamic.filterMap Rule.regex?).length
    representativeMatchStatus := representative.1
    representativeMatches := representative.2 }

/-- `verifyNetworkSettings`. -/
def verifyNetworkSettings (candidate : Settings) : Task Details :=
  verifyDnrRuntime candidate.protectionEnabled (dynamicRulesFor candidate)

/-! ## Programs that only look -/

/-- Nothing but the number of calls has changed. -/
def Quiet (s s' : Runtime) : Prop := s' = { s with calls := s'.calls }

theorem Quiet.refl (s : Runtime) : Quiet s s := rfl

theorem Quiet.trans {s s' s'' : Runtime} (h : Quiet s s') (h' : Quiet s' s'') : Quiet s s'' := by
  rw [Quiet] at h h' ⊢
  rw [h', h]

theorem Quiet.network {s s' : Runtime} (h : Quiet s s') : s'.network = s.network := by rw [h]

variable {chrome : Chrome} {s : Runtime} {α β : Type} {fault : Prop} {P : α → Prop}

/-- The program changes nothing.  What it returns has a property, and its errors come from a
call of the browser unless there is a fault. -/
def Passes (chrome : Chrome) (s : Runtime) (fault : Prop) (p : Task α) (P : α → Prop) : Prop :=
  wp chrome p ⟨fun a s' => Quiet s s' ∧ P a,
    fun e s' => Quiet s s' ∧ (fault ∨ ∃ call, chrome.readFailure call = some e),
    fun _ => False⟩ s

theorem Passes.pure {a : α} (h : P a) : Passes chrome s fault (Pure.pure a) P := ⟨.refl s, h⟩

theorem Passes.bind {p : Task α} {f : α → Task β} {Q : β → Prop}
    (hp : Passes chrome s fault p P)
    (hf : ∀ a s', Quiet s s' → P a → Passes chrome s' fault (f a) Q) :
    Passes chrome s fault (p >>= f) Q := by
  refine wp.bind hp ?_ (fun _ _ h => h) fun _ h => h
  rintro a s' ⟨hquiet, ha⟩
  exact (hf a s' hquiet ha).mono
    ⟨fun _ _ h => ⟨hquiet.trans h.1, h.2⟩, fun _ _ h => ⟨hquiet.trans h.1, h.2⟩, fun _ h => h⟩

theorem Passes.mono {p : Task α} {Q : α → Prop} (hp : Passes chrome s fault p P)
    (h : ∀ a, P a → Q a) : Passes chrome s fault p Q :=
  wp.mono hp ⟨fun a _ ha => ⟨ha.1, h a ha.2⟩, fun _ _ h => h, fun _ h => h⟩

theorem passes_ask (f : Chrome → α) : Passes chrome s fault (Prog.ask f) (· = f chrome) :=
  ⟨.refl s, rfl⟩

theorem passes_readNetwork (f : Chrome → Network → α) :
    Passes chrome s fault (readNetwork f) (· = f chrome s.network) := by
  have hcall : Passes chrome s fault nextCall fun _ => True := by
    simp only [Passes, nextCall, wp_bind, wp_state, wp_update, wp_pure, Post.withOk_ok, and_true]
    rfl
  refine hcall.bind fun call s₁ hquiet _ => (passes_ask _).bind fun e s₂ hquiet' he => ?_
  have hquiet : Quiet s s₂ := hquiet.trans hquiet'
  cases e with
  | none =>
      exact (Passes.pure (P := fun _ => True) trivial).bind fun _ s₃ h _ =>
        (passes_ask _).bind fun b s₄ h' hb => by
          obtain rfl : b = chrome := hb
          exact ⟨.refl _, congrArg (f b) ((hquiet.trans h).trans h').network⟩
  | some e => exact ⟨.refl s₂, .inr ⟨call, he.symm⟩⟩

theorem passes_ensure {c : Bool} {message : Str} (h : c = false → fault) :
    Passes chrome s fault (ensure c message) fun _ => c = true := by
  cases c with
  | true => exact ⟨.refl s, rfl⟩
  | false => exact ⟨.refl s, .inl (h rfl)⟩

theorem passes_forEach {body : α → Task Unit} :
    ∀ {xs : List α} {s : Runtime},
      (∀ x ∈ xs, ∀ s', Quiet s s' → Passes chrome s' fault (body x) fun _ => P x) →
        Passes chrome s fault (Prog.forEach body xs) fun _ => ∀ x ∈ xs, P x
  | [], s, _ => ⟨.refl s, List.forall_mem_nil _⟩
  | x :: xs, s, h => by
      refine (h x List.mem_cons_self s (.refl s)).bind fun _ s' hquiet hx => ?_
      refine (passes_forEach fun y hy s'' hquiet' =>
        h y (List.mem_cons_of_mem x hy) s'' (hquiet.trans hquiet')).mono fun _ hxs => ?_
      exact List.forall_mem_cons.2 ⟨hx, hxs⟩

/-! ## What the verifier decides -/

/-- The network rules satisfy the verifier for the settings. -/
structure Verified (chrome : Chrome) (network : Network) (settings : Settings) : Prop where
  available : chrome.available = true
  rulesets : network.enabledRulesets.insertionSort (· ≤ ·) =
    if settings.protectionEnabled then expectedRulesetIds.insertionSort (· ≤ ·) else []
  disabled : ∀ id ∈ expectedRulesetIds, network.disabledRuleIds id = []
  rules : canonicalRules chrome.script network.dynamicRules =
    canonicalRules chrome.script (dynamicRulesFor settings)
  capacity : ∃ count, chrome.availableStaticRuleCount network = some count ∧
    isSafeInteger count = true ∧ 0 ≤ count
  regexes : ∀ rule ∈ requiredRegexRules,
    chrome.isRegexSupported rule.regex rule.isCaseSensitive = true
  dynamicRegexes : ∀ rule ∈ canonicalRules chrome.script (dynamicRulesFor settings),
    ∀ regex, rule.regex? = some regex → chrome.isRegexSupported regex
      (rule.condition.isUrlFilterCaseSensitive == some true) = true
  probes : settings.protectionEnabled = true → ∀ outcome, chrome.testMatchOutcome = some outcome →
    ∀ probe ∈ representativeMatchProbes,
      ((probe.rulesetId, probe.ruleId) ∈ outcome network probe.request ↔ probe.shouldMatch = true)

/-- In a network that satisfies the verifier, the rules are those of the settings, in some order
and with the texts of their lists in some order. -/
theorem Verified.perm {chrome : Chrome} {network : Network} {settings : Settings}
    (h : Verified chrome network settings) :
    network.enabledRulesets.Perm (if settings.protectionEnabled then expectedRulesetIds else []) ∧
      (network.dynamicRules.map (canonicalize chrome.script)).Perm
        ((dynamicRulesFor settings).map (canonicalize chrome.script)) := by
  refine ⟨?_, ?_⟩
  · have hsorted := (List.perm_insertionSort (· ≤ ·) network.enabledRulesets).symm
    rw [h.rulesets] at hsorted
    cases hon : settings.protectionEnabled with
    | true =>
        rw [hon] at hsorted
        exact hsorted.trans (List.perm_insertionSort (· ≤ ·) expectedRulesetIds)
    | false =>
        rw [hon] at hsorted
        exact hsorted
  · have hrules := (List.perm_insertionSort (fun left right : Rule => left.id ≤ right.id)
      (network.dynamicRules.map (canonicalize chrome.script))).symm
    exact (hrules.trans (.of_eq h.rules)).trans (List.perm_insertionSort _ _)

theorem passes_checkRegex {regex message : Str} {isCaseSensitive : Bool}
    (h : chrome.isRegexSupported regex isCaseSensitive = false → fault) :
    Passes chrome s fault (checkRegex regex isCaseSensitive message)
      fun _ => chrome.isRegexSupported regex isCaseSensitive = true := by
  refine (passes_readNetwork _).bind fun supported s' _ hsupported => ?_
  subst hsupported
  exact passes_ensure h

theorem passes_checkDynamicRegex {rule : Rule}
    (h : ∀ regex, rule.regex? = some regex → chrome.isRegexSupported regex
      (rule.condition.isUrlFilterCaseSensitive == some true) = false → fault) :
    Passes chrome s fault (checkDynamicRegex rule) fun _ =>
      ∀ regex, rule.regex? = some regex → chrome.isRegexSupported regex
        (rule.condition.isUrlFilterCaseSensitive == some true) = true := by
  rw [checkDynamicRegex]
  cases hregex : rule.regex? with
  | none => exact Passes.pure nofun
  | some regex =>
      refine (passes_checkRegex (h regex hregex)).mono fun _ hsupported regex' heq => ?_
      cases heq
      exact hsupported

theorem passes_runProbe {outcome : Network → ProbeRequest → List (Str × Nat)} {probe : Probe}
    (h : ¬ ((probe.rulesetId, probe.ruleId) ∈ outcome s.network probe.request ↔
      probe.shouldMatch = true) → fault) :
    Passes chrome s fault (runProbe outcome probe) fun _ =>
      ((probe.rulesetId, probe.ruleId) ∈ outcome s.network probe.request ↔
        probe.shouldMatch = true) := by
  have hmatch : ∀ {m : List (Str × Nat)}, (decide ((probe.rulesetId, probe.ruleId) ∈ m) ==
      probe.shouldMatch) = true ↔
        ((probe.rulesetId, probe.ruleId) ∈ m ↔ probe.shouldMatch = true) := by
    intro m
    rw [beq_iff_eq, Bool.eq_iff_iff, decide_eq_true_eq]
  refine (passes_readNetwork _).bind fun matched s' _ hmatched => ?_
  subst hmatched
  refine (passes_ensure fun hfalse => h fun hprobe => ?_).mono fun _ htrue => hmatch.1 htrue
  exact Bool.false_ne_true (hfalse.symm.trans (hmatch.2 hprobe))

theorem passes_representativeMatches {protectionEnabled : Bool}
    (h : protectionEnabled = true → ∀ outcome, chrome.testMatchOutcome = some outcome →
      ∀ probe ∈ representativeMatchProbes,
        ¬ ((probe.rulesetId, probe.ruleId) ∈ outcome s.network probe.request ↔
          probe.shouldMatch = true) → fault) :
    Passes chrome s fault (representativeMatches protectionEnabled) fun _ =>
      protectionEnabled = true → ∀ outcome, chrome.testMatchOutcome = some outcome →
        ∀ probe ∈ representativeMatchProbes,
          ((probe.rulesetId, probe.ruleId) ∈ outcome s.network probe.request ↔
            probe.shouldMatch = true) := by
  rw [representativeMatches]
  cases protectionEnabled with
  | false => exact Passes.pure nofun
  | true =>
      rw [if_neg (by decide)]
      refine (passes_ask _).bind fun answer s₁ hquiet hanswer => ?_
      subst hanswer
      cases houtcome : chrome.testMatchOutcome with
      | none => exact Passes.pure fun _ outcome heq => nomatch heq
      | some outcome =>
          have hprobes : Passes chrome s₁ fault
              (Prog.forEach (runProbe outcome) representativeMatchProbes) fun _ =>
                ∀ probe ∈ representativeMatchProbes,
                  ((probe.rulesetId, probe.ruleId) ∈ outcome s.network probe.request ↔
                    probe.shouldMatch = true) := by
            refine passes_forEach fun probe hprobe s₂ hquiet' => ?_
            rw [← (hquiet.trans hquiet').network]
            refine passes_runProbe fun hnot => h rfl outcome houtcome probe hprobe ?_
            rwa [← (hquiet.trans hquiet').network]
          refine hprobes.bind fun _ s₂ _ hall => Passes.pure fun _ outcome' heq => ?_
          cases heq
          exact hall

/-- The verifier decides whether the network is that of the settings. -/
theorem passes_verifyNetworkSettings (candidate : Settings) :
    Passes chrome s (¬ Verified chrome s.network candidate) (verifyNetworkSettings candidate)
      fun _ => Verified chrome s.network candidate := by
  have hfault : ∀ {c : Bool}, (Verified chrome s.network candidate → c = true) →
      c = false → ¬ Verified chrome s.network candidate := fun h hc hv =>
    Bool.false_ne_true (hc.symm.trans (h hv))
  rw [verifyNetworkSettings, verifyDnrRuntime]
  refine (passes_ask _).bind fun b s₁ h₁ hb => ?_
  obtain rfl : b = chrome := hb
  refine (passes_ensure (hfault fun hv => hv.available)).bind fun _ s₂ h₂ havailable => ?_
  have h₂ : Quiet s s₂ := h₁.trans h₂
  refine (passes_readNetwork _).bind fun enabled s₃ h₃ henabled => ?_
  obtain rfl := henabled
  rw [h₂.network]
  have h₃ : Quiet s s₃ := h₂.trans h₃
  refine (passes_ensure (hfault fun hv => decide_eq_true hv.rulesets)).bind
    fun _ s₄ h₄ hrulesets => ?_
  have h₄ : Quiet s s₄ := h₃.trans h₄
  have hdisabled : Passes b s₄ (¬ Verified b s.network candidate)
      (Prog.forEach checkDisabledRules expectedRulesetIds) fun _ =>
        ∀ id ∈ expectedRulesetIds, s.network.disabledRuleIds id = [] := by
    refine passes_forEach fun id hid s' h' => (passes_readNetwork _).bind fun disabled s'' _ hd => ?_
    obtain rfl := hd
    rw [(h₄.trans h').network]
    refine (passes_ensure (hfault fun hv => ?_)).mono fun _ hc => ?_
    · rw [hv.disabled id hid]
      rfl
    · exact List.eq_nil_of_length_eq_zero (Nat.le_zero.1 (of_decide_eq_true hc))
  refine hdisabled.bind fun _ s₅ h₅ hdisabled => ?_
  have h₅ : Quiet s s₅ := h₄.trans h₅
  refine (passes_readNetwork _).bind fun rules s₆ h₆ hrules => ?_
  obtain rfl := hrules
  rw [h₅.network]
  have h₆ : Quiet s s₆ := h₅.trans h₆
  refine (passes_ensure (hfault fun hv => decide_eq_true hv.rules)).bind fun _ s₇ h₇ hrules => ?_
  have h₇ : Quiet s s₇ := h₆.trans h₇
  refine (passes_readNetwork _).bind fun capacity s₈ h₈ hcapacity => ?_
  obtain rfl := hcapacity
  rw [h₇.network]
  have h₈ : Quiet s s₈ := h₇.trans h₈
  refine (passes_ensure (hfault fun hv => ?_)).bind fun _ s₉ h₉ hcapacity => ?_
  · obtain ⟨count, hcount, hsafe, hpos⟩ := hv.capacity
    rw [hcount, Option.any_some, hsafe, Bool.true_and, decide_eq_true hpos]
  have h₉ : Quiet s s₉ := h₈.trans h₉
  refine (passes_forEach fun rule hrule s' _ =>
    passes_checkRegex (hfault fun hv => hv.regexes rule hrule)).bind fun _ s₁₀ h₁₀ hregexes => ?_
  have h₁₀ : Quiet s s₁₀ := h₉.trans h₁₀
  refine (passes_forEach fun rule hrule s' _ => passes_checkDynamicRegex fun regex hregex =>
    hfault fun hv => hv.dynamicRegexes rule hrule regex hregex).bind
      fun _ s₁₁ h₁₁ hdynamic => ?_
  have h₁₁ : Quiet s s₁₁ := h₁₀.trans h₁₁
  refine (passes_representativeMatches fun hon outcome houtcome probe hprobe hnot hv => ?_).bind
    fun _ s₁₂ _ hprobes => ?_
  · rw [h₁₁.network] at hnot
    exact hnot (hv.probes hon outcome houtcome probe hprobe)
  rw [h₁₁.network] at hprobes
  refine Passes.pure {
    available := havailable
    rulesets := of_decide_eq_true hrulesets
    disabled := hdisabled
    rules := of_decide_eq_true hrules
    capacity := ?_
    regexes := hregexes
    dynamicRegexes := hdynamic
    probes := hprobes }
  cases hcount : b.availableStaticRuleCount s.network with
  | none =>
      rw [hcount] at hcapacity
      cases hcapacity
  | some count =>
      rw [hcount, Option.any_some, Bool.and_eq_true] at hcapacity
      exact ⟨count, rfl, hcapacity.1, of_decide_eq_true hcapacity.2⟩

end ZsecShield.Shields
