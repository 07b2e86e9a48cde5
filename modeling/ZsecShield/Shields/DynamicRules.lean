import ZsecShield.Shields.Transaction

/-!
# Updates of the dynamic rules

With the browser doing what its documentation says, an update from the rules of any settings to
those of any others leaves exactly the rules of the latter.  Nothing survives, because every id of
the old rules is in the removal list, and nothing fails, because the new ids are different.
-/

namespace ZsecShield.Shields

open Text (Str str)
open Effect

/-- What is documented of `updateDynamicRules`: the listed ids go, then the rules are added, and
an id that is used twice makes the call fail. -/
def Network.updateDynamicRules (network : Network) (removeRuleIds : List Nat)
    (addRules : List Rule) : Network × Option JsError :=
  let rules := network.dynamicRules.filter (fun rule => decide (rule.id ∉ removeRuleIds)) ++ addRules
  if (rules.map Rule.id).Nodup then ({ network with dynamicRules := rules }, none)
  else (network, some (.error (str "Rule does not have a unique ID.")))

/-- What is documented of `updateEnabledRulesets`. -/
def Network.updateEnabledRulesets (network : Network)
    (enableRulesetIds disableRulesetIds : List Str) : Network :=
  { network with
    enabledRulesets := (network.enabledRulesets ++ enableRulesetIds).eraseDups.filter fun id =>
      decide (id ∉ disableRulesetIds ∨ id ∈ enableRulesetIds) }

/-- The browser with the documented updates. -/
def Chrome.documented (chrome : Chrome) : Chrome :=
  { chrome with
    updateEnabledRulesets := fun _ enable disable network =>
      (network.updateEnabledRulesets enable disable, none)
    updateDynamicRules := fun _ remove add network => network.updateDynamicRules remove add }

/-- An update that removes every id there is leaves the rules it adds. -/
theorem updateDynamicRules_eq (network : Network) {addRules : List Rule} {remove : List Nat}
    (hremove : ∀ rule ∈ network.dynamicRules, rule.id ∈ remove)
    (hnodup : (addRules.map Rule.id).Nodup) :
    network.updateDynamicRules remove addRules =
      ({ network with dynamicRules := addRules }, none) := by
  have hrest : network.dynamicRules.filter (fun rule => decide (rule.id ∉ remove)) = [] := by
    rw [List.filter_eq_nil_iff]
    intro rule hrule hkept
    exact of_decide_eq_true hkept (hremove rule hrule)
  simp only [Network.updateDynamicRules, hrest, List.nil_append, if_pos hnodup]

/-- The rules of the extension, in a network that holds the rules of some normalized settings. -/
theorem wp_applyNetworkSettings_documented {chrome : Chrome} {s : Runtime} {settings : Settings}
    (hshort : settings.pausedSites.length ≤ 200)
    (hremove : ∀ rule ∈ s.network.dynamicRules, rule.id ∈ removeRuleIds) :
    wp chrome.documented (applyNetworkSettings settings)
      ⟨fun _ s' => s'.network.dynamicRules = dynamicRulesFor settings, fun _ _ => False,
        fun _ => False⟩ s := by
  simp only [applyNetworkSettings, updateNetwork, wp_bind, wp_nextCall, wp_ask, wp_gets, wp_update,
    Post.withOk_ok, Chrome.documented, id, failWith, wp_pure]
  rw [updateDynamicRules_eq (s.network.updateEnabledRulesets _ _) hremove (nodup_ids hshort)]
  exact rfl

/-- The dynamic rules converge to those of the settings that are applied. -/
theorem applyNetworkSettings_exact (chrome : Chrome) (v w : Json) (s : Runtime) :
    let settings := normalizeSettings chrome.script v
    let next := normalizeSettings chrome.script w
    let start :=
      { s with network := { s.network with dynamicRules := dynamicRulesFor settings } }
    (∃ s', applyNetworkSettings next chrome.documented start = (.ok (), s') ∧
        s'.network.dynamicRules = dynamicRulesFor next) ∧
      ((dynamicRulesFor settings).map Rule.id).Nodup ∧
      ∀ rule ∈ dynamicRulesFor settings, rule.id ∈ removeRuleIds := by
  intro settings next start
  have hsettings : settings.pausedSites.length ≤ 200 := (normalizeSettings_normalized v).short
  have hnext : next.pausedSites.length ≤ 200 := (normalizeSettings_normalized w).short
  have hremove : ∀ rule ∈ dynamicRulesFor settings, rule.id ∈ removeRuleIds := fun rule hrule =>
    mem_removeRuleIds hsettings (List.mem_map_of_mem hrule)
  refine ⟨?_, nodup_ids hsettings, hremove⟩
  obtain ⟨_, s', hrun, hrules⟩ :=
    (wp_applyNetworkSettings_documented (s := start) hnext hremove).returns
  exact ⟨s', hrun, hrules⟩

/-! ## A browser without faults -/

/-- No call fails, the updates do what is documented, and every expression is supported. -/
structure Calm (chrome : Chrome) : Prop where
  available : chrome.available = true
  reads : ∀ call, chrome.readFailure call = none
  storage : ∀ call, chrome.storageFailure call = none
  rulesets : ∀ call enable disable network,
    chrome.updateEnabledRulesets call enable disable network =
      ({ network with enabledRulesets := enable }, none)
  rules : ∀ call remove add network,
    chrome.updateDynamicRules call remove add network = network.updateDynamicRules remove add
  capacity : ∀ network, ∃ count, chrome.availableStaticRuleCount network = some count ∧
    isSafeInteger count = true ∧ 0 ≤ count
  regexes : ∀ regex isCaseSensitive, chrome.isRegexSupported regex isCaseSensitive = true
  probes : chrome.testMatchOutcome = none

/-- The network rules are the extension's own. -/
structure Network.Own (network : Network) : Prop where
  rules : ∀ rule ∈ network.dynamicRules, rule.id ∈ removeRuleIds
  disabled : ∀ id, network.disabledRuleIds id = []

section Calm

variable {chrome : Chrome} {s : Runtime} {settings : Settings}

theorem Calm.wp_apply (h : Calm chrome) (hown : s.network.Own)
    (hshort : settings.pausedSites.length ≤ 200) :
    wp chrome (applyNetworkSettings settings)
      ⟨fun _ s' => s'.network.Own ∧ Verified chrome s'.network settings, fun _ _ => False,
        fun _ => False⟩ s := by
  have hupdate : ∀ enabledRulesets : List Str,
      ({ s.network with enabledRulesets } : Network).updateDynamicRules removeRuleIds
          (dynamicRulesFor settings) =
        ({ s.network with enabledRulesets, dynamicRules := dynamicRulesFor settings }, none) :=
    fun _ => updateDynamicRules_eq _ hown.rules (nodup_ids hshort)
  simp only [applyNetworkSettings, updateNetwork, wp_bind, wp_nextCall, wp_ask, wp_gets, wp_update,
    Post.withOk_ok, id, h.rulesets, h.rules, failWith, wp_pure, hupdate]
  refine ⟨⟨fun rule hrule => mem_removeRuleIds hshort (List.mem_map_of_mem hrule),
    hown.disabled⟩, {
      available := h.available
      rulesets := ?_
      disabled := fun id _ => hown.disabled id
      rules := rfl
      capacity := h.capacity _
      regexes := fun _ _ => h.regexes _ _
      dynamicRegexes := fun _ _ _ _ => h.regexes _ _
      probes := fun _ outcome houtcome => by simp [h.probes] at houtcome }⟩
  split <;> rfl

theorem Calm.wp_verify (h : Calm chrome) (hverified : Verified chrome s.network settings) :
    wp chrome (verifyNetworkSettings settings)
      ⟨fun _ s' => Quiet s s', fun _ _ => False, fun _ => False⟩ s := by
  refine wp.mono (passes_verifyNetworkSettings settings)
    ⟨fun _ _ hok => hok.1, ?_, fun _ hf => hf⟩
  rintro e s' ⟨-, hfault | ⟨call, hcall⟩⟩
  · exact hfault hverified
  · rw [h.reads] at hcall
    cases hcall

theorem Calm.wp_setStorage (h : Calm chrome) (items : List (Str × Json)) :
    wp chrome (setStorage items)
      ⟨fun _ s' => s'.network = s.network, fun _ _ => False, fun _ => False⟩ s := by
  simp only [setStorage, wp_bind, wp_nextCall, wp_ask, wp_update, Post.withOk_ok, h.storage,
    failWith, wp_pure]

/-- A browser without faults carries out every write. -/
theorem Calm.wp_writeSettings (h : Calm chrome) (hown : s.network.Own) (value : Json) :
    wp chrome (writeSettings value)
      ⟨fun _ s' => s'.network.Own, fun _ _ => False, fun _ => False⟩ s := by
  have hread : wp chrome readSettings
      ⟨fun _ s' => s'.network = s.network, fun _ _ => False, fun _ => False⟩ s := by
    simp only [readSettings, wp_bind, wp_nextCall, wp_ask, wp_gets, Post.withOk_ok, h.storage,
      failWith, wp_pure]
  rw [writeSettings, wp_bind, wp_ask]
  refine wp.bind hread (fun previous s₁ h₁ => ?_) (by rintro _ _ ⟨⟩) (by rintro _ ⟨⟩)
  have h₁ : s₁.network.Own := by
    rw [h₁]
    exact hown
  rw [wp_bind, applyVerifiedSettings, wp_tryExcept, attempt]
  refine wp.bind (h.wp_apply h₁ (normalizeSettings_normalized value).short) ?_ (by rintro _ _ ⟨⟩)
    (by rintro _ ⟨⟩)
  rintro _ s₂ ⟨h₂, hverified⟩
  refine wp.bind (h.wp_verify hverified) (fun details s₃ h₃ => ?_) (by rintro _ _ ⟨⟩)
    (by rintro _ ⟨⟩)
  have h₃ : s₃.network.Own := by
    rw [h₃.network]
    exact h₂
  rw [persistSettings, if_neg Bool.false_ne_true, wp_bind, wp_bind]
  refine wp_buildRuntimeHealth fun health _ _ => ?_
  refine wp.bind (h.wp_setStorage _) (fun _ s₄ h₄ => ?_) (by rintro _ _ ⟨⟩) (by rintro _ ⟨⟩)
  change s₄.network.Own
  rw [h₄]
  exact h₃

end Calm

end ZsecShield.Shields
