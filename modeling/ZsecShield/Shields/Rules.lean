import ZsecShield.Shields.Settings
import ZsecShield.Browser.LoginCompatibility

/-!
# Dynamic rules

The rules that the extension installs for its settings: one for each paused site, the
compatibility rules for logins and the two of the high-risk profile.  The three generators take
their ids from three ranges.  Two facts about the ids matter: no id is used twice
(`nodup_ids`), and an update first removes every id that any settings can use
(`mem_removeRuleIds`).
-/

namespace ZsecShield.Shields

open Text (Str str CodePoint)
open Browser (dot texts Group)

/-! ## Rules -/

inductive Action where
  | allow
  | block
deriving DecidableEq

/-- The condition of a rule; what is not given does not restrict it. -/
structure Condition where
  urlFilter : Option Str := none
  regexFilter : Option Str := none
  isUrlFilterCaseSensitive : Option Bool := none
  domainType : Option Str := none
  requestDomains : Option (List Str) := none
  initiatorDomains : Option (List Str) := none
  excludedInitiatorDomains : Option (List Str) := none
  resourceTypes : List Str
deriving DecidableEq

structure Rule where
  id : Nat
  priority : Nat
  action : Action
  condition : Condition
deriving DecidableEq

/-! ## Paused sites -/

/-- `PAUSE_RULE_BASE`. -/
def pauseRuleBase : Nat := 100000

/-- `PAUSED_RESOURCE_TYPES`. -/
def pausedResourceTypes : List Str :=
  texts ["script", "image", "stylesheet", "font", "media", "xmlhttprequest", "ping", "websocket",
    "sub_frame", "other"]

/-- `buildPauseRules`. -/
def buildPauseRules (domains : List Str) : List Rule :=
  domains.mapIdx fun index domain =>
    { id := pauseRuleBase + index
      priority := 100
      action := .allow
      condition := {
        initiatorDomains := some [domain]
        resourceTypes := pausedResourceTypes } }

/-- `pauseRuleIds`. -/
def pauseRuleIds : List Nat := (List.range 200).map (pauseRuleBase + ·)

/-! ## The high-risk profile -/

/-- `HIGH_RISK_RULE_PRIORITY`. -/
def highRiskRulePriority : Nat := 1000

/-- `HIGH_RISK_ACTIVE_RESOURCE_TYPES`. -/
def highRiskActiveResourceTypes : List Str := texts ["script", "sub_frame", "object", "websocket"]

/-- `highRiskRuleIds`. -/
def highRiskRuleIds : List Nat := [200000, 200001]

/-- `buildHighRiskRules`. -/
def buildHighRiskRules (enabled : Bool) : List Rule :=
  if enabled = false then []
  else
    [ { id := 200000
        priority := highRiskRulePriority
        action := .block
        condition := {
          urlFilter := some (str "|http://")
          resourceTypes := texts ["main_frame"] } },
      { id := 200001
        priority := highRiskRulePriority
        action := .block
        condition := {
          domainType := some (str "thirdParty")
          resourceTypes := highRiskActiveResourceTypes } }]

/-- `buildHighRiskRulesForSettings`. -/
def buildHighRiskRulesForSettings (settings : Settings) : List Rule :=
  buildHighRiskRules (settings.protectionEnabled && settings.highRiskMode)

/-! ## Login compatibility -/

def backslash : CodePoint := Text.ofChar '\\'

/-- `host.replaceAll(".", "\\.")`. -/
def escapeDots (host : Str) : Str := host.flatMap fun c => if c = dot then [backslash, dot] else [c]

/-- The text of `exactHttpsHostPattern`. -/
def exactHttpsHostPattern (host : Str) : Str :=
  str "^https:\\/\\/" ++ escapeDots host ++ str "(?::443)?\\/"

/-- The text of `secureCdnHostPattern`. -/
def secureCdnHostPattern (domains : List Str) : Str :=
  str "^https:\\/\\/(?:[a-z0-9-]+\\.)*(?:" ++ (str "|").intercalate (domains.map escapeDots) ++
    str ")(?::443)?\\/"

/-- `RESOURCE_TYPES`. -/
def resourceTypes : List Str :=
  texts ["script", "image", "stylesheet", "font", "xmlhttprequest", "websocket", "sub_frame",
    "media", "other"]

/-- The conditions of the resources of a group. -/
def groupConditions (group : Group) : List Condition :=
  group.hosts.map (fun host =>
    { regexFilter := some (exactHttpsHostPattern host)
      initiatorDomains := some group.sites
      excludedInitiatorDomains := some Browser.excludedInitiators
      resourceTypes }) ++
    if group.cdnDomains = [] then []
    else
      [{  regexFilter := some (secureCdnHostPattern group.cdnDomains)
          requestDomains := some group.cdnDomains
          initiatorDomains := some group.sites
          excludedInitiatorDomains := some Browser.excludedInitiators
          resourceTypes }]

/-- `buildLoginCompatibilityRules`. -/
def buildLoginCompatibilityRules (enabled : Bool) : List Rule :=
  if enabled = false then []
  else
    (Browser.navigableHosts.map (fun host =>
        { regexFilter := some (exactHttpsHostPattern host)
          resourceTypes := texts ["main_frame"] : Condition }) ++
        Browser.loginCompatibilityGroups.flatMap groupConditions).mapIdx fun index condition =>
      { id := Browser.ruleBase + index
        priority := Browser.loginCompatibilityPriority
        action := .allow
        condition }

/-- `loginCompatibilityRuleIds`. -/
def loginCompatibilityRuleIds : List Nat := (buildLoginCompatibilityRules true).map Rule.id

/-! ## All rules -/

/-- `dynamicRulesFor`. -/
def dynamicRulesFor (settings : Settings) : List Rule :=
  buildPauseRules (if settings.protectionEnabled then settings.pausedSites else []) ++
    buildLoginCompatibilityRules settings.protectionEnabled ++
    buildHighRiskRulesForSettings settings

/-- The ids that an update removes. -/
def removeRuleIds : List Nat := pauseRuleIds ++ highRiskRuleIds ++ loginCompatibilityRuleIds

/-! ## Ids -/

/-- Ids given out by position from a first one. -/
theorem ids_mapIdx {α : Type} (base : Nat) (f : Nat → α → Rule) (l : List α)
    (hid : ∀ i a, (f i a).id = base + i) :
    (l.mapIdx f).map Rule.id = (List.range l.length).map (base + ·) := by
  refine List.ext_getElem (by simp) fun i h _ => ?_
  simp [hid]

theorem nodup_range_map (base n : Nat) : ((List.range n).map (base + ·)).Nodup :=
  List.Nodup.map (fun _ _ h => Nat.add_left_cancel h) List.nodup_range

theorem ids_pause (domains : List Str) :
    (buildPauseRules domains).map Rule.id = (List.range domains.length).map (pauseRuleBase + ·) :=
  ids_mapIdx _ _ _ fun _ _ => rfl

theorem ids_login (enabled : Bool) :
    ∃ n, (buildLoginCompatibilityRules enabled).map Rule.id =
      (List.range n).map (Browser.ruleBase + ·) := by
  rw [buildLoginCompatibilityRules]
  split
  · exact ⟨0, rfl⟩
  · exact ⟨_, ids_mapIdx _ _ _ fun _ _ => rfl⟩

theorem ids_highRisk (enabled : Bool) :
    (buildHighRiskRules enabled).map Rule.id = if enabled = false then [] else highRiskRuleIds := by
  cases enabled <;> rfl

theorem mem_pause {n i : Nat} (hn : n ≤ 200) (hi : i ∈ (List.range n).map (pauseRuleBase + ·)) :
    i ∈ pauseRuleIds := by
  obtain ⟨index, hindex, rfl⟩ := List.mem_map.1 hi
  have hlt : index < 200 := (List.mem_range.1 hindex).trans_le hn
  exact List.mem_map_of_mem (List.mem_range.2 hlt)

/-- The rules of the extension have different ids. -/
theorem nodup_ids {settings : Settings} (hshort : settings.pausedSites.length ≤ 200) :
    ((dynamicRulesFor settings).map Rule.id).Nodup := by
  obtain ⟨logins, hlogins⟩ := ids_login settings.protectionEnabled
  rw [dynamicRulesFor, List.map_append, List.map_append, ids_pause, hlogins,
    buildHighRiskRulesForSettings, ids_highRisk]
  have hpaused : (if settings.protectionEnabled then settings.pausedSites else []).length ≤ 200 := by
    split
    · exact hshort
    · exact Nat.zero_le _
  have hrisk : (if (settings.protectionEnabled && settings.highRiskMode) = false then []
      else highRiskRuleIds).Sublist highRiskRuleIds := by
    split
    · exact List.nil_sublist _
    · exact List.Sublist.refl _
  -- The ranges begin at 100000, 200000 and 210000 and the first ends before 100200.
  rw [List.nodup_append, List.nodup_append]
  refine ⟨⟨nodup_range_map _ _, nodup_range_map _ _, ?_⟩, ?_, ?_⟩
  · intro a ha b hb hab
    obtain ⟨i, hi, rfl⟩ := List.mem_map.1 ha
    obtain ⟨j, -, rfl⟩ := List.mem_map.1 hb
    have hlt := List.mem_range.1 hi
    simp only [pauseRuleBase, Browser.ruleBase] at hab
    omega
  · exact (by decide : highRiskRuleIds.Nodup).sublist hrisk
  · intro a ha b hb hab
    have hb : b = 200000 ∨ b = 200001 := by simpa [highRiskRuleIds] using hrisk.subset hb
    rcases List.mem_append.1 ha with ha | ha
    · obtain ⟨i, hi, rfl⟩ := List.mem_map.1 ha
      have hlt := List.mem_range.1 hi
      simp only [pauseRuleBase] at hab
      omega
    · obtain ⟨i, -, rfl⟩ := List.mem_map.1 ha
      simp only [Browser.ruleBase] at hab
      omega

/-- Every id of the rules for some settings is removed by an update. -/
theorem mem_removeRuleIds {settings : Settings} (hshort : settings.pausedSites.length ≤ 200)
    {id : Nat} (hid : id ∈ (dynamicRulesFor settings).map Rule.id) : id ∈ removeRuleIds := by
  rw [dynamicRulesFor, List.map_append, List.map_append] at hid
  rw [removeRuleIds]
  rcases List.mem_append.1 hid with hid | hrisk
  · rcases List.mem_append.1 hid with hpause | hlogin
    · rw [ids_pause] at hpause
      refine List.mem_append_left _ (List.mem_append_left _ (mem_pause ?_ hpause))
      split
      · exact hshort
      · exact Nat.zero_le _
    · refine List.mem_append_right _ ?_
      cases hprotection : settings.protectionEnabled with
      | true => rwa [hprotection] at hlogin
      | false =>
          rw [hprotection] at hlogin
          cases hlogin
  · refine List.mem_append_left _ (List.mem_append_right _ ?_)
    rw [buildHighRiskRulesForSettings, ids_highRisk] at hrisk
    split at hrisk
    · cases hrisk
    · exact hrisk

end ZsecShield.Shields
