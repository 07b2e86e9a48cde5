import ZsecShield.Desktop.Presentation

/-!
# What the companion validator guarantees

`AcceptedCompanion` collects what the presenters may rely on: which keys are there and what
stands under them.  The presenters read nothing else but `reboot_required`, which the validator
lets a payload leave out, and they trust `signatures_current`, which the validator compares with
the evidence only when the provider reports whether its signatures are out of date.
-/

namespace ZsecShield.Desktop

open Text (Str str str_injective)
open Feed (field isText isText_iff)
open Checks

/-! ## Facts of an accepted payload -/

theorem forEach_eq_ok {names : List String} {check : String → Except Failure Unit} {u : Unit} :
    forEach names check = .ok u ↔ ∀ name ∈ names, check name = .ok () := by
  induction names with
  | nil => simp [forEach]
  | cons name names ih =>
      simp only [forEach, bind_eq_ok, ih, List.forall_mem_cons]
      exact ⟨fun ⟨_, h, hs⟩ => ⟨h, hs⟩, fun ⟨h, hs⟩ => ⟨(), h, hs⟩⟩

/-- The evidence under the key `defender`. -/
structure AcceptedDefender (defender : List (Str × Json)) (summary : DefenderSummary) : Prop where
  available : ∃ b, field defender "available" = .bool b
  tamper : ∃ s, field defender "tamper_protection" = .str s
  active : field defender "confirmed_active" = .bool summary.confirmedActive
  baseline : field defender "baseline_features_confirmed" = .bool summary.baselineConfirmed
  current : field defender "signatures_current" = .bool summary.signaturesCurrent
  active_iff : summary.confirmedActive = requiredActive defender
  baseline_iff : summary.baselineConfirmed = requiredBaseline defender summary.confirmedActive
  signatures : ∃ signatures, field defender "signatures" = .obj signatures ∧
    (field signatures "defender_reports_out_of_date" = .null ∨
      ∃ b, field signatures "defender_reports_out_of_date" = .bool b ∧
        summary.signaturesCurrent = (!b && signatureMaterialPresent signatures))

/-- The evidence under the key `existing_primary_protection`. -/
structure AcceptedProtection (existing : List (Str × Json)) : Prop where
  aggregate : ∃ b, field existing "aggregate_good" = .bool b
  complete : ∃ b, field existing "registration_inventory_complete" = .bool b
  products : ∃ products, field existing "registered_products" = .arr products ∧
    ∀ p ∈ products, ∃ members name, p = .obj members ∧ field members "display_name" = .str name
  defender : ∃ defender summary, field existing "defender" = .obj defender ∧
    AcceptedDefender defender summary

/-- A payload the validator accepts. -/
structure AcceptedCompanion (root : List (Str × Json)) : Prop where
  decision : ∃ s ∈ companionDecisions, field root "decision" = .str (str s)
  reasons : ∃ reasons, field root "reasons" = .arr reasons ∧ ∀ r ∈ reasons, ∃ s, r = .str s
  existing : ∃ existing, field root "existing_primary_protection" = .obj existing ∧
    AcceptedProtection existing

theorem decision_of_checkHead {root : List (Str × Json)} {head : CompanionHead}
    (h : checkHead root = .ok head) :
    ∃ s ∈ companionDecisions, field root "decision" = .str (str s) := by
  simp only [checkHead, bind_eq_ok] at h
  obtain ⟨_, -, _, -, _, -, _, -, _, -, _, -, _, hknown, -⟩ := h
  exact known_eq_ok.1 hknown

theorem reasons_of_checkReasons {root : List (Str × Json)} {u : Unit}
    (h : checkReasons root = .ok u) :
    ∃ reasons, field root "reasons" = .arr reasons ∧ ∀ r ∈ reasons, ∃ s, r = .str s := by
  simp only [checkReasons, bind_eq_ok, list_eq_ok] at h
  obtain ⟨reasons, hreasons, _, -, _, hall, -⟩ := h
  have hstr := mapIdx_forall (P := fun r => ∃ s, r = .str s) (Q := fun _ => True)
    (fun r i s hs => ⟨⟨s, (string_eq_ok.1 hs).1⟩, trivial⟩) hall
  exact ⟨reasons, hreasons, hstr.1⟩

theorem aggregate_of_checkAggregate {existing : List (Str × Json)} {b : Bool}
    (h : checkAggregate existing = .ok b) : field existing "aggregate_good" = .bool b := by
  simp only [checkAggregate, bind_eq_ok, boolean_eq_ok] at h
  obtain ⟨_, -, b', hb, _, -, h⟩ := h
  cases h
  exact hb

theorem named_of_checkRegistrations {py : Interpreter} {values : List Json}
    {seen : List (Str × Str)} {index : Nat} {u : Unit}
    (h : checkRegistrations py seen index values = .ok u) :
    ∀ p ∈ values, ∃ members name, p = .obj members ∧ field members "display_name" = .str name := by
  induction values generalizing seen index with
  | nil => simp
  | cons value values ih =>
      obtain ⟨identity, hvalue, hvalues⟩ := bind_eq_ok.1 h
      simp only [checkRegistration, bind_eq_ok, object_eq_ok, string_eq_ok] at hvalue
      obtain ⟨members, rfl, name, ⟨hname, -⟩, -⟩ := hvalue
      exact List.forall_mem_cons.2 ⟨⟨members, name, rfl, hname⟩, ih hvalues⟩

theorem inventory_of_checkInventory {py : Interpreter} {existing : List (Str × Json)} {u : Unit}
    (h : checkInventory py existing = .ok u) :
    (∃ products, field existing "registered_products" = .arr products ∧
      ∀ p ∈ products, ∃ members name,
        p = .obj members ∧ field members "display_name" = .str name) ∧
      ∃ b, field existing "registration_inventory_complete" = .bool b := by
  simp only [checkInventory, bind_eq_ok, list_eq_ok, boolean_eq_ok] at h
  obtain ⟨products, hproducts, _, -, _, hnamed, b, hb, -⟩ := h
  exact ⟨⟨products, hproducts, named_of_checkRegistrations hnamed⟩, b, hb⟩

theorem tamper_of_checkFeatures {defender : List (Str × Json)} {u : Unit}
    (h : checkFeatures defender = .ok u) : ∃ s, field defender "tamper_protection" = .str s := by
  simp only [checkFeatures, bind_eq_ok] at h
  obtain ⟨_, -, hknown⟩ := h
  obtain ⟨s, -, hs⟩ := known_eq_ok.1 hknown
  exact ⟨str s, hs⟩

theorem reported_of_checkSignatures {defender : List (Str × Json)} {summary : DefenderSummary}
    {u : Unit} (h : checkSignatures defender summary = .ok u) :
    ∃ signatures, field defender "signatures" = .obj signatures ∧
      (field signatures "defender_reports_out_of_date" = .null ∨
        ∃ b, field signatures "defender_reports_out_of_date" = .bool b ∧
          summary.signaturesCurrent = (!b && signatureMaterialPresent signatures)) := by
  simp only [checkSignatures, bind_eq_ok, object_eq_ok] at h
  obtain ⟨signatures, hsignatures, _, -, _, -, hreported⟩ := h
  refine ⟨signatures, hsignatures, ?_⟩
  rcases unlessNull_eq_ok.1 hreported with hnull | ⟨_, hchecked⟩
  · exact .inl hnull
  · simp only [checkReported, bind_eq_ok, boolean_eq_ok, require_eq_ok] at hchecked
    obtain ⟨b, hb, hsame⟩ := hchecked
    exact .inr ⟨b, hb, Classical.not_not.1 fun hne => hsame (.inl hne)⟩

theorem accepted_of_checkDefender {existing : List (Str × Json)} {u : Unit}
    (h : checkDefender existing = .ok u) :
    ∃ defender summary, field existing "defender" = .obj defender ∧
      AcceptedDefender defender summary := by
  simp only [checkDefender, bind_eq_ok, object_eq_ok, boolean_eq_ok] at h
  obtain ⟨defender, hdefender, _, -, available, havailable, _, hfeatures, _, -, summary, hsummary,
    _, hsignatures, -⟩ := h
  simp only [checkSummary, bind_eq_ok, boolean_eq_ok, require_eq_ok] at hsummary
  obtain ⟨active, hactive, baseline, hbaseline, current, hcurrent, update, -, _, -, _, hrequired,
    _, hbaselined, hmake⟩ := hsummary
  cases hmake
  refine ⟨defender, ⟨active, baseline, current, update⟩, hdefender, ?_⟩
  exact {
    available := ⟨available, havailable⟩
    tamper := tamper_of_checkFeatures hfeatures
    active := hactive
    baseline := hbaseline
    current := hcurrent
    active_iff := hrequired
    baseline_iff := hbaselined
    signatures := reported_of_checkSignatures hsignatures }

theorem accepted_of_validateCompanionStatus {py : Interpreter} {payload : Json}
    {root : List (Str × Json)} (h : validateCompanionStatus py payload = .ok root) :
    payload = .obj root ∧ AcceptedCompanion root := by
  simp only [validateCompanionStatus, bind_eq_ok, schema_eq_ok, object_eq_ok] at h
  obtain ⟨root', ⟨hpayload, -⟩, head, hhead, _, hreasons, existing, hexisting, aggregate,
    haggregate, _, hinventory, _, -, _, hdefender, _, -, hroot⟩ := h
  cases hroot
  obtain ⟨hproducts, hcomplete⟩ := inventory_of_checkInventory hinventory
  refine ⟨hpayload, ?_⟩
  exact {
    decision := decision_of_checkHead hhead
    reasons := reasons_of_checkReasons hreasons
    existing := ⟨existing, hexisting, {
      aggregate := ⟨aggregate, aggregate_of_checkAggregate haggregate⟩
      complete := hcomplete
      products := hproducts
      defender := accepted_of_checkDefender hdefender }⟩ }

/-! ## The presenters -/

/-- A computation that does not raise. -/
def Returns {α : Type} (x : Except Failure α) : Prop := ∃ a, x = .ok a

theorem textsOf_returns {values : List Json} (index : Nat) (h : ∀ v ∈ values, ∃ s, v = .str s) :
    Returns (textsOf index values) := by
  induction values generalizing index with
  | nil => exact ⟨[], rfl⟩
  | cons value values ih =>
      obtain ⟨s, rfl⟩ := h value List.mem_cons_self
      obtain ⟨texts, htexts⟩ := ih (index + 1) fun v hv => h v (List.mem_cons_of_mem _ hv)
      refine ⟨s :: texts, ?_⟩
      rw [textsOf, htexts]
      rfl

theorem displayNames_returns {py : Interpreter} {products : List Json}
    (h : ∀ p ∈ products, ∃ members name,
      p = .obj members ∧ field members "display_name" = .str name) :
    Returns (displayNames py products) := by
  induction products with
  | nil => exact ⟨[], rfl⟩
  | cons product products ih =>
      obtain ⟨members, name, rfl, hname⟩ := h product List.mem_cons_self
      obtain ⟨names, hnames⟩ := ih fun p hp => h p (List.mem_cons_of_mem _ hp)
      refine ⟨textOf py (.str name) :: names, ?_⟩
      rw [displayNames, item_of_field hname nofun, bind_ok, hnames]
      rfl

/-- Every condition of an `and` that came out true was read and holds. -/
theorem allOf_eq_true {conditions : List (Json × String × (Json → Bool))} :
    allOf conditions = .ok true ↔
      ∀ c ∈ conditions, ∃ v, item c.1 c.2.1 = .ok v ∧ c.2.2 v = true := by
  induction conditions with
  | nil => simp [allOf]
  | cons c conditions ih =>
      obtain ⟨value, key, condition⟩ := c
      simp only [allOf, bind_eq_ok, List.forall_mem_cons, ← ih]
      constructor
      · rintro ⟨v, hv, h⟩
        split at h
        · rename_i hcondition
          exact ⟨⟨v, hv, hcondition⟩, h⟩
        · cases h
      · rintro ⟨⟨v, hv, hcondition⟩, h⟩
        exact ⟨v, hv, by rw [if_pos hcondition, h]⟩

theorem allOf_returns {conditions : List (Json × String × (Json → Bool))}
    (h : ∀ c ∈ conditions, Returns (item c.1 c.2.1)) : Returns (allOf conditions) := by
  induction conditions with
  | nil => exact ⟨true, rfl⟩
  | cons c conditions ih =>
      obtain ⟨value, key, condition⟩ := c
      obtain ⟨v, hv⟩ := h _ List.mem_cons_self
      obtain ⟨b, hb⟩ := ih fun c hc => h c (List.mem_cons_of_mem _ hc)
      rw [allOf, hv, bind_ok]
      split
      · exact ⟨b, hb⟩
      · exact ⟨false, rfl⟩

/-- The blockers read every key they are about. -/
theorem blockersOf_returns {conditions : List (Json × String × (Json → Bool) × String)} :
    Returns (blockersOf conditions) ↔ ∀ c ∈ conditions, Returns (item c.1 c.2.1) := by
  induction conditions with
  | nil => simp [blockersOf, Returns]
  | cons c conditions ih =>
      obtain ⟨value, key, condition, blocker⟩ := c
      rw [List.forall_mem_cons, ← ih]
      constructor
      · rintro ⟨_, h⟩
        obtain ⟨v, hv, h⟩ := bind_eq_ok.1 h
        obtain ⟨blockers, hblockers, -⟩ := bind_eq_ok.1 h
        exact ⟨⟨v, hv⟩, blockers, hblockers⟩
      · rintro ⟨⟨v, hv⟩, blockers, hblockers⟩
        exact ⟨_, by rw [blockersOf, hv, bind_ok, hblockers, bind_ok]; rfl⟩

/-- Both tables have a row for every state. -/
theorem rowOf_returns (companion : CompanionPresentation) (state : CompanionState) :
    Returns (rowOf (companionStates companion) state) ∧
      Returns (rowOf (scopeStates companion) state) := by
  cases state <;> exact ⟨⟨_, rfl⟩, ⟨_, rfl⟩⟩

section Accepted

variable {py : Interpreter} {root existing defender : List (Str × Json)} {summary : DefenderSummary}

theorem companionPresentation_returns (h : AcceptedCompanion root) :
    Returns (companionPresentation py root) := by
  obtain ⟨s, -, hdecision⟩ := h.decision
  obtain ⟨reasons, hreasons, htexts⟩ := h.reasons
  obtain ⟨existing, hexisting, hprotection⟩ := h.existing
  obtain ⟨good, hgood⟩ := hprotection.aggregate
  obtain ⟨defender, summary, hdefender, haccepted⟩ := hprotection.defender
  obtain ⟨texts, hjoined⟩ := textsOf_returns 0
    fun v hv => htexts v (List.mem_of_mem_take hv)
  rw [companionPresentation, item_of_field hdecision (by rintro ⟨⟩), bind_ok]
  split
  · exact ⟨_, rfl⟩
  split
  · exact ⟨_, rfl⟩
  rw [oneOf, bind_ok]
  split
  · rw [item_of_field hexisting (by rintro ⟨⟩), bind_ok,
      item_of_field hdefender (by rintro ⟨⟩), bind_ok,
      item_of_field haccepted.active (by rintro ⟨⟩), bind_ok]
    exact ⟨_, rfl⟩
  · rw [degradedPresentation, item_of_field hreasons (by rintro ⟨⟩), bind_ok, firstOf, bind_ok,
      hjoined, bind_ok, item_of_field hexisting (by rintro ⟨⟩), bind_ok,
      item_of_field hgood (by rintro ⟨⟩), bind_ok, item_of_field hdefender (by rintro ⟨⟩), bind_ok,
      item_of_field haccepted.active (by rintro ⟨⟩), bind_ok]
    split
    · exact ⟨_, rfl⟩
    · exact ⟨_, rfl⟩

theorem protectionLayersPresentation_returns (h : AcceptedCompanion root) :
    Returns (protectionLayersPresentation py root) := by
  obtain ⟨companion, hcompanion⟩ : Returns (companionPresentation py root) :=
    companionPresentation_returns h
  obtain ⟨existing, hexisting, hprotection⟩ := h.existing
  obtain ⟨good, hgood⟩ := hprotection.aggregate
  obtain ⟨defender, summary, hdefender, haccepted⟩ := hprotection.defender
  obtain ⟨⟨row, hrow⟩, scope, hscope⟩ := rowOf_returns companion companion.state
  rw [protectionLayersPresentation, item_of_field hexisting nofun, bind_ok,
    item_of_field hdefender nofun, bind_ok, item_of_field haccepted.active nofun, bind_ok,
    item_of_field hgood nofun, bind_ok, hcompanion, bind_ok, hrow, bind_ok, hscope]
  exact ⟨_, rfl⟩

/-- A handoff that is shown: it is blocked exactly if Defender is not ready, and then every
blocker was read. -/
theorem windowsCutoverPresentation_cases {p : WindowsCutoverPresentation}
    (hexisting : field root "existing_primary_protection" = .obj existing)
    (hdefender : field existing "defender" = .obj defender)
    (h : windowsCutoverPresentation py root = .ok p) :
    (p.state ≠ .blocked ∧ defenderReady (.obj existing) (.obj defender) = .ok true) ∨
      (p.state = .blocked ∧ Returns (cutoverBlockers (.obj existing) (.obj defender))) := by
  rw [windowsCutoverPresentation, item_of_field hexisting nofun, bind_ok,
    item_of_field hdefender nofun, bind_ok] at h
  obtain ⟨products, -, h⟩ := bind_eq_ok.1 h
  obtain ⟨values, -, h⟩ := bind_eq_ok.1 h
  obtain ⟨names, -, h⟩ := bind_eq_ok.1 h
  obtain ⟨ready, hready, h⟩ := bind_eq_ok.1 h
  split at h
  · rename_i hboth
    cases h
    rw [Bool.and_eq_true] at hboth
    rw [hboth.2] at hready
    exact .inl ⟨nofun, hready⟩
  split at h
  · rename_i hboth
    cases h
    rw [Bool.and_eq_true] at hboth
    rw [hboth.2] at hready
    exact .inl ⟨nofun, hready⟩
  · obtain ⟨blockers, hblockers, h⟩ := bind_eq_ok.1 h
    cases h
    exact .inr ⟨rfl, blockers, hblockers⟩

/-- A handoff that is shown has read `reboot_required`. -/
theorem reboot_of_windowsCutoverPresentation
    (hexisting : field root "existing_primary_protection" = .obj existing)
    (hdefender : field existing "defender" = .obj defender)
    (h : Returns (windowsCutoverPresentation py root)) :
    Returns (item (.obj defender) "reboot_required") := by
  obtain ⟨p, hp⟩ := h
  rcases windowsCutoverPresentation_cases hexisting hdefender hp with ⟨-, hready⟩ | ⟨-, hblockers⟩
  · obtain ⟨v, hv, -⟩ := allOf_eq_true.1 hready (.obj defender, "reboot_required", isFalse)
      (by simp)
    exact ⟨v, hv⟩
  · exact blockersOf_returns.1 hblockers (.obj defender, "reboot_required", isFalse,
      "Defender reboot state is unknown or pending") (by simp)

/-- Every key of the handoff but `reboot_required` is there. -/
theorem windowsCutoverPresentation_returns {reboot : Json} (h : AcceptedProtection existing)
    (haccepted : AcceptedDefender defender summary)
    (hexisting : field root "existing_primary_protection" = .obj existing)
    (hdefender : field existing "defender" = .obj defender)
    (hreboot : item (.obj defender) "reboot_required" = .ok reboot) :
    Returns (windowsCutoverPresentation py root) := by
  obtain ⟨good, hgood⟩ := h.aggregate
  obtain ⟨complete, hcomplete⟩ := h.complete
  obtain ⟨products, hproducts, hnamed⟩ := h.products
  obtain ⟨available, havailable⟩ := haccepted.available
  obtain ⟨tamper, htamper⟩ := haccepted.tamper
  obtain ⟨names, hnames⟩ : Returns (displayNames py products) := displayNames_returns hnamed
  have hgood := item_of_field hgood nofun
  have hcomplete := item_of_field hcomplete nofun
  have havailable := item_of_field havailable nofun
  have htamper := item_of_field htamper nofun
  have hactive := item_of_field haccepted.active nofun
  have hbaseline := item_of_field haccepted.baseline nofun
  have hcurrent := item_of_field haccepted.current nofun
  obtain ⟨ready, hready⟩ : Returns (defenderReady (.obj existing) (.obj defender)) := by
    apply allOf_returns
    simp only [List.forall_mem_cons, Returns, hgood, hcomplete, havailable, hactive, hbaseline,
      hcurrent, htamper, hreboot, Except.ok.injEq, exists_eq', true_and]
    exact List.forall_mem_nil _
  obtain ⟨blockers, hblockers⟩ : Returns (cutoverBlockers (.obj existing) (.obj defender)) := by
    apply blockersOf_returns.2
    simp only [List.forall_mem_cons, Returns, hgood, hcomplete, hactive, hbaseline, hcurrent,
      htamper, hreboot, Except.ok.injEq, exists_eq', true_and]
    exact List.forall_mem_nil _
  rw [windowsCutoverPresentation, item_of_field hexisting nofun, bind_ok,
    item_of_field hdefender nofun, bind_ok, item_of_field hproducts nofun, bind_ok, iterated,
    bind_ok, hnames, bind_ok, hready, bind_ok]
  split
  · exact ⟨_, rfl⟩
  split
  · exact ⟨_, rfl⟩
  · rw [hblockers]
    exact ⟨_, rfl⟩

end Accepted

/-! ## A payload -/

namespace Sample

/-- The text functions on ASCII. -/
def interpreter : Interpreter where
  casefold := Feed.lower
  reprText _ := []

/-- A text nothing depends on. -/
def note : Json := .str [Text.ofChar 'x']

def service (name : Str) : Json :=
  .obj [(str "name", .str name), (str "available", .bool true), (str "status", note)]

def services : List Json := expectedServices.map service

def networkProtection : List (Str × Json) :=
  [(str "state", .str (str "active")),
    (str "source", .str (str "Get-MpPreference.EnableNetworkProtection")), (str "note", note)]

/-- Signatures of which the provider reports `reported`. -/
def signatures (reported : Json) : List (Str × Json) :=
  [(str "antivirus_version", note), (str "antivirus_last_updated", note),
    (str "defender_reports_out_of_date", reported)]

/-- An active Defender with the members `reboot` at its end. -/
def defender (reboot : List (Str × Json)) (reported : Json) : List (Str × Json) :=
  [(str "source", .str (str "Get-MpComputerStatus")), (str "available", .bool true),
    (str "antivirus_enabled", .bool true), (str "real_time_protection_enabled", .bool true),
    (str "service_enabled", .bool true), (str "behavior_monitor_enabled", .bool true),
    (str "ioav_protection_enabled", .bool true), (str "on_access_protection_enabled", .bool true),
    (str "network_inspection_enabled", .bool true), (str "tamper_protection", .str (str "enabled")),
    (str "network_protection", .obj networkProtection), (str "confirmed_active", .bool true),
    (str "baseline_features_confirmed", .bool true), (str "signatures_current", .bool true),
    (str "update_recommended", .bool false), (str "signatures", .obj (signatures reported)),
    (str "scans", .obj []), (str "note", note)] ++ reboot

def existing (reboot : List (Str × Json)) (reported : Json) : List (Str × Json) :=
  [(str "method", .str (str "WscGetSecurityProviderHealth(WSC_SECURITY_PROVIDER_ANTIVIRUS)")),
    (str "aggregate_good", .bool true), (str "aggregate_health", .str (str "GOOD")),
    (str "registered_products", .arr []), (str "registration_inventory_complete", .bool true),
    (str "security_services", .arr services),
    (str "defender", .obj (defender reboot reported))]

/-- A payload of a computer without the companion. -/
def root (reboot : List (Str × Json)) (reported : Json) : List (Str × Json) :=
  [(str "schema", .str (str "zsec.antivirus.windows-companion-status.v1")),
    (str "primary_antivirus", .bool false), (str "real_time_protection", .bool false),
    (str "pre_access_enforcement", .bool false),
    (str "existing_protection_must_remain_active", .bool true),
    (str "primary_provider_uninstall_allowed", .bool false), (str "cutover_allowed", .bool false),
    (str "installed", .bool false), (str "healthy", .bool false),
    (str "decision", .str (str "not_installed")), (str "reasons", .arr []),
    (str "existing_primary_protection", .obj (existing reboot reported))]

theorem field_cons {key : String} {k : String} {v : Json} {members : List (Str × Json)} :
    field ((str k, v) :: members) key = if k = key then v else field members key := by
  simp only [field, Json.lookup, str_injective]
  split <;> rfl

@[simp] theorem field_nil {key : String} : field [] key = .null := rfl

theorem string_note (name : Str) (maximum : Nat) (h : 1 ≤ maximum) :
    string note name maximum = .ok [Text.ofChar 'x'] :=
  string_eq_ok.2 ⟨rfl, by simp, h⟩

variable {reboot : List (Str × Json)} {reported : Json}

theorem field_root : field (root reboot reported) "existing_primary_protection" =
    .obj (existing reboot reported) := by
  simp [root, field_cons]

theorem field_existing : field (existing reboot reported) "defender" =
    .obj (defender reboot reported) := by
  simp [existing, field_cons]

theorem field_defender : field (defender reboot reported) "signatures" =
    .obj (signatures reported) := by
  simp [defender, field_cons]

/-- `reboot_required` is looked for among the members at the end. -/
theorem field_reboot : field (defender reboot reported) "reboot_required" =
    field reboot "reboot_required" := by
  simp [defender, field_cons]

theorem field_reported :
    field (signatures reported) "defender_reports_out_of_date" = reported := by
  simp [signatures, field_cons]

theorem checkHead_root (reboot : List (Str × Json)) (reported : Json) :
    ∃ head, checkHead (root reboot reported) = .ok head ∧ head.installed = false ∧
      head.healthy = false ∧ head.decision = .str (str "not_installed") := by
  refine ⟨⟨false, false, _⟩, ?_, rfl, rfl, rfl⟩
  simp [checkHead, root, field_cons, forEach, mustBeFalse, mustBeTrue, boolean, known, oneOf,
    companionDecisions, bind_ok, require, pure, Except.pure]

theorem checkReasons_root : checkReasons (root reboot reported) = .ok () := by
  simp [checkReasons, root, field_cons, list, fromOption, Json.arrOf, mapIdx, bind_ok, require,
    pure, Except.pure]

theorem checkAggregate_existing : checkAggregate (existing reboot reported) = .ok true := by
  simp [checkAggregate, existing, field_cons, isText, boolean, known, oneOf, bind_ok, require,
    pure, Except.pure]

theorem checkInventory_existing (py : Interpreter) :
    checkInventory py (existing reboot reported) = .ok () := by
  simp [checkInventory, existing, field_cons, list, fromOption, Json.arrOf, checkRegistrations,
    boolean, optionalString, bind_ok, require, pure, Except.pure]

theorem checkService_service {actual : List Str} {name : Str} {index : Nat}
    (h : name ∈ expectedServices) (hnew : name ∉ actual) :
    checkService actual (service name) index = .ok name := by
  have hbounded : ∀ name ∈ expectedServices, name ≠ [] ∧ name.length ≤ 80 := by decide
  have hname (context : Str) : string (.str name) context 80 = .ok name :=
    string_eq_ok.2 ⟨rfl, hbounded name h⟩
  simp [checkService, service, field_cons, object, fromOption, Json.objOf, string_note, hname, h,
    hnew, boolean, bind_ok, require, pure, Except.pure]

/-- Expected services that were not seen before are taken one by one. -/
theorem checkServices_services {names actual : List Str} {index : Nat}
    (h : ∀ name ∈ names, name ∈ expectedServices) (hnew : names.Nodup)
    (hseen : ∀ name ∈ names, name ∉ actual) :
    checkServices actual index (names.map service) = .ok (names.reverse ++ actual) := by
  induction names generalizing actual index with
  | nil => rfl
  | cons name names ih =>
      rw [List.nodup_cons] at hnew
      rw [List.map_cons, checkServices, checkService_service (h name List.mem_cons_self)
        (hseen name List.mem_cons_self), bind_ok,
        ih (fun n hn => h n (List.mem_cons_of_mem _ hn)) hnew.2, List.reverse_cons,
        List.append_assoc, List.singleton_append]
      intro n hn hactual
      rcases List.mem_cons.1 hactual with rfl | hactual
      · exact hnew.1 hn
      · exact hseen n (List.mem_cons_of_mem _ hn) hactual

theorem checkServiceInventory_existing :
    checkServiceInventory (existing reboot reported) = .ok () := by
  have hservices : field (existing reboot reported) "security_services" = .arr services := by
    simp [existing, field_cons]
  have hnodup : expectedServices.Nodup := by decide
  rw [checkServiceInventory, hservices, list_eq_ok.2 rfl, bind_ok, services,
    checkServices_services (fun _ h => h) hnodup (fun _ _ => List.not_mem_nil), bind_ok]
  exact require_pos (fun name h => by simpa using h) _

theorem checkNetworkProtection_defender :
    checkNetworkProtection (defender reboot reported) = .ok () := by
  simp [checkNetworkProtection, defender, networkProtection, field_cons, object, fromOption,
    Json.objOf, known, oneOf, unlessNull, isText, string_note, bind_ok, require, pure, Except.pure]

theorem checkSignatures_defender (h : reported = .null ∨ reported = .bool false)
    (summary : DefenderSummary) (hcurrent : summary.signaturesCurrent = true)
    (hupdate : summary.updateRecommended = false) :
    checkSignatures (defender reboot reported) summary = .ok () := by
  rcases h with rfl | rfl <;>
    simp [checkSignatures, checkReported, defender, signatures, signatureMaterialPresent, isNull,
      note, string, Json.strOf, field_cons, object, fromOption, Json.objOf, forEach, unlessNull,
      optionalString, boolean, hcurrent, hupdate, Except.map, bind_ok, require, pure, Except.pure]

theorem checkScans_defender : checkScans (defender reboot reported) = .ok () := by
  simp [checkScans, defender, field_cons, object, fromOption, Json.objOf, forEach, unlessNull,
    optionalString, string_note, Except.map, bind_ok, pure, Except.pure]

theorem checkFeatures_defender
    (h : field reboot "reboot_required" = .null ∨ field reboot "reboot_required" = .bool false)
    (hspyware : field reboot "antispyware_enabled" = .null) :
    checkFeatures (defender reboot reported) = .ok () := by
  rcases h with h | h <;>
    simp [checkFeatures, defender, field_cons, h, hspyware, forEach, unlessNull, boolean, known,
      oneOf, Except.map, bind_ok, require]

theorem requiredActive_defender : requiredActive (defender reboot reported) = true := by
  simp [requiredActive, defender, field_cons, isTrue]

theorem requiredBaseline_defender : requiredBaseline (defender reboot reported) true = true := by
  simp [requiredBaseline, defender, field_cons, isTrue]

theorem checkSummary_defender :
    checkSummary (defender reboot reported) true = .ok ⟨true, true, true, false⟩ := by
  have hactive : field (defender reboot reported) "confirmed_active" = .bool true := by
    simp [defender, field_cons]
  have hbaseline : field (defender reboot reported) "baseline_features_confirmed" = .bool true := by
    simp [defender, field_cons]
  have hcurrent : field (defender reboot reported) "signatures_current" = .bool true := by
    simp [defender, field_cons]
  have hupdate : field (defender reboot reported) "update_recommended" = .bool false := by
    simp [defender, field_cons]
  rw [checkSummary, hactive, boolean_eq_ok.2 rfl, bind_ok, hbaseline, boolean_eq_ok.2 rfl, bind_ok,
    hcurrent, boolean_eq_ok.2 rfl, bind_ok, hupdate, boolean_eq_ok.2 rfl, bind_ok,
    require_pos (by simp), bind_ok, require_pos requiredActive_defender.symm, bind_ok,
    require_pos requiredBaseline_defender.symm, bind_ok]
  rfl

/-- The payload is accepted, with or without `reboot_required` and the report. -/
theorem accepted (py : Interpreter) (hreported : reported = .null ∨ reported = .bool false)
    (h : field reboot "reboot_required" = .null ∨ field reboot "reboot_required" = .bool false)
    (hspyware : field reboot "antispyware_enabled" = .null) :
    validateCompanionStatus py (.obj (root reboot reported)) = .ok (root reboot reported) := by
  obtain ⟨head, hhead, hinstalled, hhealthy, hdecision⟩ :=
    checkHead_root reboot reported
  have hschema : schema (.obj (root reboot reported)) "zsec.antivirus.windows-companion-status.v1" =
      .ok (root reboot reported) :=
    schema_eq_ok.2 ⟨rfl, by simp [root, field_cons]⟩
  have hdefender : checkDefender (existing reboot reported) = .ok () := by
    have hsource : field (defender reboot reported) "source" = .str (str "Get-MpComputerStatus") := by
      simp [defender, field_cons]
    have havailable : field (defender reboot reported) "available" = .bool true := by
      simp [defender, field_cons]
    rw [checkDefender, field_existing, object_eq_ok.2 rfl, bind_ok, hsource, isText_iff.2 rfl,
      require_pos rfl, bind_ok, havailable, boolean_eq_ok.2 rfl, bind_ok,
      checkFeatures_defender h hspyware, bind_ok, checkNetworkProtection_defender, bind_ok,
      checkSummary_defender, bind_ok, checkSignatures_defender hreported _ rfl rfl, bind_ok,
      checkScans_defender]
  have hdecided : checkDecision (root reboot reported) head true = .ok () := by
    simp [checkDecision, hdecision, hinstalled, hhealthy, isText, require]
  rw [validateCompanionStatus, hschema, bind_ok, hhead, bind_ok, checkReasons_root, bind_ok,
    field_root, object_eq_ok.2 rfl, bind_ok, checkAggregate_existing, bind_ok,
    checkInventory_existing, bind_ok, checkServiceInventory_existing, bind_ok, hdefender, bind_ok,
    hdecided, bind_ok]
  rfl

theorem accepted_rebooted {reported : Json} (h : reported = .null ∨ reported = .bool false) :
    validateCompanionStatus interpreter
        (.obj (root [(str "reboot_required", .bool false)] reported)) =
      .ok (root [(str "reboot_required", .bool false)] reported) :=
  accepted interpreter h (.inr (field_cons.trans (if_pos rfl)))
    (field_cons.trans (if_neg (by decide)))

end Sample

/-! ## What a payload reports -/

/-- The value under a path of keys. -/
def member (value : Json) : List String → Option Json
  | [] => some value
  | key :: path => (value.objOf.bind (Json.lookup (str key))).bind fun v => member v path

/-- The path of a key of the Defender evidence. -/
def defenderPath (path : List String) : List String :=
  "existing_primary_protection" :: "defender" :: path

theorem member_cons {members : List (Str × Json)} {key : String} {path : List String} {v : Json}
    (h : field members key = v) (hv : v ≠ .null) :
    member (.obj members) (key :: path) = member v path := by
  simp [member, Json.objOf, lookup_of_field h hv]

theorem member_of_item {value v : Json} {key : String} :
    item value key = .ok v ↔ member value [key] = some v := by
  cases value <;> simp [item, member, Json.objOf]

/-- An accepted payload can be presented exactly if it has the key `reboot_required`. -/
theorem companion_presentable {py : Interpreter} {payload : Json} {root : List (Str × Json)}
    (h : validateCompanionStatus py payload = .ok root) :
    (Returns (companionPresentation py root) ∧ Returns (protectionLayersPresentation py root) ∧
      Returns (windowsCutoverPresentation py root)) ↔
    (member payload (defenderPath ["reboot_required"])).isSome := by
  obtain ⟨rfl, hroot⟩ := accepted_of_validateCompanionStatus h
  obtain ⟨existing, hexisting, hprotection⟩ := hroot.existing
  obtain ⟨defender, summary, hdefender, haccepted⟩ := hprotection.defender
  rw [defenderPath, member_cons hexisting nofun, member_cons hdefender nofun,
    Option.isSome_iff_exists]
  constructor
  · rintro ⟨-, -, hcutover⟩
    obtain ⟨v, hv⟩ := reboot_of_windowsCutoverPresentation hexisting hdefender hcutover
    exact ⟨v, member_of_item.1 hv⟩
  · rintro ⟨v, hv⟩
    exact ⟨companionPresentation_returns hroot, protectionLayersPresentation_returns hroot,
      windowsCutoverPresentation_returns hprotection haccepted hexisting hdefender
        (member_of_item.2 hv)⟩

/-- A payload that says whether a reboot is required. -/
theorem companion_presentable_rebooted :
    Returns (windowsCutoverPresentation Sample.interpreter
      (Sample.root [(str "reboot_required", .bool false)] .null)) := by
  refine ((companion_presentable (Sample.accepted_rebooted (.inl rfl))).2 ?_).2.2
  rw [defenderPath, member_cons Sample.field_root nofun, member_cons Sample.field_existing nofun,
    member_cons (v := .bool false)
      (Sample.field_reboot.trans (Sample.field_cons.trans (if_pos rfl))) nofun]
  rfl

/-- A payload that does not say so is accepted and cannot be presented. -/
theorem companion_unpresentable :
    validateCompanionStatus Sample.interpreter (.obj (Sample.root [] .null)) =
      .ok (Sample.root [] .null) ∧
    ¬ Returns (windowsCutoverPresentation Sample.interpreter (Sample.root [] .null)) := by
  refine ⟨Sample.accepted _ (.inl rfl) (.inl rfl) rfl, fun h => ?_⟩
  obtain ⟨v, hv⟩ := reboot_of_windowsCutoverPresentation Sample.field_root Sample.field_existing h
  simp [item, Sample.defender, Json.lookup, str_injective, fromOption] at hv

/-- What a green handoff stands for. -/
structure DefenderEvidence (payload : Json) : Prop where
  features : ∀ name ∈ ["antivirus_enabled", "real_time_protection_enabled", "service_enabled",
    "behavior_monitor_enabled", "ioav_protection_enabled", "on_access_protection_enabled",
    "network_inspection_enabled"], member payload (defenderPath [name]) = some (.bool true)
  reported : member payload (defenderPath ["signatures", "defender_reports_out_of_date"]) =
    some (.bool false)
  signatures : ∀ name ∈ ["antivirus_version", "antivirus_last_updated"],
    ∃ v, member payload (defenderPath ["signatures", name]) = some v ∧ v ≠ .null
  tamper : member payload (defenderPath ["tamper_protection"]) = some (.str (str "enabled"))
  reboot : member payload (defenderPath ["reboot_required"]) = some (.bool false)
  inventory : member payload ["existing_primary_protection", "registration_inventory_complete"] =
    some (.bool true)

theorem field_of_member {members : List (Str × Json)} {key : String} {v : Json}
    (h : member (.obj members) [key] = some v) : field members key = v := by
  rw [← member_of_item, item, fromOption_eq_ok] at h
  rw [field, h]
  rfl

/-- A truth value that a presenter read is the one the validator saw. -/
theorem bool_of_item {members : List (Str × Json)} {key : String} {b c : Bool}
    (h : field members key = .bool b) (hitem : item (.obj members) key = .ok (.bool c)) :
    b = c := by
  rw [field_of_member (member_of_item.1 hitem)] at h
  injection h with h
  exact h.symm

/-- A feature that is on, as a member. -/
theorem member_of_isTrue {defender : List (Str × Json)} {name : String}
    (h : isTrue (field defender name) = true) :
    member (.obj defender) [name] = some (.bool true) := by
  rw [isTrue_iff] at h
  rw [member_cons h nofun, member]

/-- The features behind a baseline that is confirmed. -/
theorem features_of_baseline {defender : List (Str × Json)} {summary : DefenderSummary}
    (h : AcceptedDefender defender summary) (hactive : summary.confirmedActive = true)
    (hbaseline : summary.baselineConfirmed = true) :
    ∀ name ∈ ["antivirus_enabled", "real_time_protection_enabled", "service_enabled",
      "behavior_monitor_enabled", "ioav_protection_enabled", "on_access_protection_enabled",
      "network_inspection_enabled"], member (.obj defender) [name] = some (.bool true) := by
  have hrequired := h.active_iff
  have hbaselined := h.baseline_iff
  rw [hactive] at hrequired hbaselined
  rw [hbaseline] at hbaselined
  simp only [requiredActive, eq_comm (a := true), Bool.and_eq_true] at hrequired
  simp only [requiredBaseline, eq_comm (a := true), Bool.and_eq_true] at hbaselined
  obtain ⟨⟨hantivirus, hrealTime⟩, hservice⟩ := hrequired
  obtain ⟨⟨⟨⟨-, hbehavior⟩, hioav⟩, haccess⟩, hnetwork⟩ := hbaselined
  simp only [List.forall_mem_cons]
  exact ⟨member_of_isTrue hantivirus, member_of_isTrue hrealTime, member_of_isTrue hservice,
    member_of_isTrue hbehavior, member_of_isTrue hioav, member_of_isTrue haccess,
    member_of_isTrue hnetwork, List.forall_mem_nil _⟩

/-- What a handoff that is not blocked has read. -/
theorem ready_of_unblocked {py : Interpreter} {root existing defender : List (Str × Json)}
    {p : WindowsCutoverPresentation}
    (hexisting : field root "existing_primary_protection" = .obj existing)
    (hdefender : field existing "defender" = .obj defender)
    (hp : windowsCutoverPresentation py root = .ok p) (hgreen : p.state ≠ .blocked) :
    member (.obj existing) ["registration_inventory_complete"] = some (.bool true) ∧
      item (.obj defender) "confirmed_active" = .ok (.bool true) ∧
      item (.obj defender) "baseline_features_confirmed" = .ok (.bool true) ∧
      item (.obj defender) "signatures_current" = .ok (.bool true) ∧
      member (.obj defender) ["tamper_protection"] = some (.str (str "enabled")) ∧
      member (.obj defender) ["reboot_required"] = some (.bool false) := by
  rcases windowsCutoverPresentation_cases hexisting hdefender hp with ⟨-, hready⟩ | ⟨hblocked, -⟩
  · have hall := allOf_eq_true.1 hready
    simp only [List.forall_mem_cons, isTrue_iff, isFalse_iff, isText_iff, exists_eq_right] at hall
    obtain ⟨-, hcomplete, -, hactive, hbaseline, hcurrent, htamper, hreboot, -⟩ := hall
    exact ⟨member_of_item.1 hcomplete, hactive, hbaseline, hcurrent, member_of_item.1 htamper,
      member_of_item.1 hreboot⟩
  · exact absurd hblocked hgreen

/-- A green handoff has its evidence exactly if the provider reports whether its signatures are
out of date. -/
theorem green_cutover_evidence {py : Interpreter} {payload : Json} {root : List (Str × Json)}
    {p : WindowsCutoverPresentation} (h : validateCompanionStatus py payload = .ok root)
    (hp : windowsCutoverPresentation py root = .ok p)
    (hgreen : p.state = .cutoverVerified ∨ p.state = .eligibleOperatorCutover) :
    DefenderEvidence payload ↔
      ∃ v, member payload (defenderPath ["signatures", "defender_reports_out_of_date"]) = some v ∧
        v ≠ .null := by
  obtain ⟨rfl, hroot⟩ := accepted_of_validateCompanionStatus h
  obtain ⟨existing, hexisting, hprotection⟩ := hroot.existing
  obtain ⟨defender, summary, hdefender, haccepted⟩ := hprotection.defender
  obtain ⟨signatures, hsignatures, hreported⟩ := haccepted.signatures
  constructor
  · intro hevidence
    exact ⟨_, hevidence.reported, nofun⟩
  · rintro ⟨v, hv, hvalue⟩
    have hunblocked : p.state ≠ .blocked := by
      rcases hgreen with hgreen | hgreen <;> simp [hgreen]
    obtain ⟨hcomplete, hactive, hbaseline, hcurrent, htamper, hreboot⟩ :=
      ready_of_unblocked hexisting hdefender hp hunblocked
    have under (path : List String) : member (.obj root) (defenderPath path) =
        member (.obj defender) path := by
      rw [defenderPath, member_cons hexisting nofun, member_cons hdefender nofun]
    have hfeatures := features_of_baseline haccepted (bool_of_item haccepted.active hactive)
      (bool_of_item haccepted.baseline hbaseline)
    rw [under, member_cons hsignatures nofun] at hv
    rcases hreported with hnull | ⟨b, hb, hsame⟩
    · rw [field_of_member hv] at hnull
      exact absurd hnull hvalue
    · -- The summary was compared with the report and with the two signature fields.
      rw [bool_of_item haccepted.current hcurrent, eq_comm, Bool.and_eq_true, Bool.not_eq_true',
        signatureMaterialPresent, Bool.and_eq_true, Bool.not_eq_true', Bool.not_eq_true'] at hsame
      obtain ⟨rfl, hversion, hupdated⟩ := hsame
      have present {name : String} (hname : isNull (field signatures name) = false) :
          ∃ v, member (.obj root) (defenderPath ["signatures", name]) = some v ∧ v ≠ .null := by
        have hne : field signatures name ≠ .null := by
          intro hnull
          rw [hnull] at hname
          cases hname
        exact ⟨_, by rw [under, member_cons hsignatures nofun, member_cons rfl hne, member], hne⟩
      exact {
        features := fun name hname => by rw [under, hfeatures name hname]
        reported := by rw [under, member_cons hsignatures nofun, member_cons hb nofun, member]
        signatures := by
          simp only [List.forall_mem_cons]
          exact ⟨present hversion, present hupdated, List.forall_mem_nil _⟩
        tamper := by rw [under, htamper]
        reboot := by rw [under, hreboot]
        inventory := by rw [member_cons hexisting nofun, hcomplete] }

namespace Sample

/-- The handoff of the payload is shown as verified. -/
theorem windowsCutoverPresentation_root (reported : Json) : ∃ p,
    windowsCutoverPresentation interpreter
      (root [(str "reboot_required", .bool false)] reported) = .ok p ∧
    p.state = .cutoverVerified := by
  have hready : defenderReady (.obj (existing [(str "reboot_required", .bool false)] reported))
      (.obj (defender [(str "reboot_required", .bool false)] reported)) = .ok true := by
    simp [defenderReady, allOf, item, existing, defender, Json.lookup, str_injective, fromOption,
      isText, isTrue, isFalse, bind_ok]
  have hproducts : field (existing [(str "reboot_required", .bool false)] reported)
      "registered_products" = .arr [] := by
    simp [existing, field_cons]
  rw [windowsCutoverPresentation, item_of_field field_root (by rintro ⟨⟩), bind_ok,
    item_of_field field_existing (by rintro ⟨⟩), bind_ok, item_of_field hproducts (by rintro ⟨⟩),
    bind_ok, iterated, bind_ok, displayNames, bind_ok, hready]
  exact ⟨_, rfl, rfl⟩

end Sample

/-- A green handoff with its evidence. -/
theorem green_cutover_evidence_reported :
    DefenderEvidence (.obj (Sample.root [(str "reboot_required", .bool false)] (.bool false))) := by
  obtain ⟨p, hp, hgreen⟩ := Sample.windowsCutoverPresentation_root (.bool false)
  refine (green_cutover_evidence (Sample.accepted_rebooted (.inr rfl)) hp (.inl hgreen)).2 ?_
  rw [defenderPath, member_cons Sample.field_root nofun, member_cons Sample.field_existing nofun,
    member_cons Sample.field_defender nofun,
    member_cons (v := .bool false) Sample.field_reported nofun]
  exact ⟨.bool false, rfl, nofun⟩

/-- A handoff shown as verified although nothing is reported about the signatures. -/
theorem green_cutover_unreported :
    validateCompanionStatus Sample.interpreter
        (.obj (Sample.root [(str "reboot_required", .bool false)] .null)) =
      .ok (Sample.root [(str "reboot_required", .bool false)] .null) ∧
    (∃ p, windowsCutoverPresentation Sample.interpreter
      (Sample.root [(str "reboot_required", .bool false)] .null) = .ok p ∧
        p.state = .cutoverVerified) ∧
    ¬ DefenderEvidence (.obj (Sample.root [(str "reboot_required", .bool false)] .null)) := by
  refine ⟨Sample.accepted_rebooted (.inl rfl), Sample.windowsCutoverPresentation_root .null, ?_⟩
  intro h
  have hreported := h.reported
  rw [defenderPath, member_cons Sample.field_root nofun, member_cons Sample.field_existing nofun,
    member_cons Sample.field_defender nofun] at hreported
  cases (field_of_member hreported).symm.trans Sample.field_reported

end ZsecShield.Desktop
