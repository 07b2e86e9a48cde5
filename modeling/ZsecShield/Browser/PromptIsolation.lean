import ZsecShield.Browser.PromptSession

/-!
# What a prompt may change

A prompt leads from a posted message to the vault.  It changes nothing, or adds the one entry of the
message, or gives the one entry it was planned for a new password (`PromptIsolation`).  What it adds
is read back under the username of the message as long as UTF-8 has an encoding for that username.
-/

namespace ZsecShield.Browser

open Text (Str str CodePoint)
open Checks

/-- The other files of a vault are as they were. -/
structure Others (v v' : Vault) (id : Str) : Prop where
  disposed : v'.disposed = v.disposed
  masterKey : v'.masterKey = v.masterKey
  file : ∀ stem, stem ≠ id → Json.lookup stem v'.records = Json.lookup stem v.records

/-- A file that is new is the one that was written. -/
theorem Others.eq_of_new {v v' : Vault} {id stem : Str} (h : Others v v' id)
    (hold : stem ∉ v.records.map Prod.fst) (hnew : stem ∈ v'.records.map Prod.fst) : stem = id := by
  by_contra hne
  have hsame := h.file stem hne
  rw [Json.lookup_eq_none.2 hold] at hsame
  exact Json.lookup_eq_none.1 hsame hnew

/-- The list has the origin and the username of every record of the vault. -/
def Shows (P : VaultPlatform) (v : Vault) (entries : List (Option VaultEntry)) : Prop :=
  ∀ id c, retrieve P v id = .ok c →
    ∃ e, some e ∈ entries ∧ e.url = some c.url ∧ e.username = some c.username

/-- The changes that a prompt may make. -/
inductive Change (W : WorkflowPlatform) (message : CredentialMessage)
    (entries : List (Option VaultEntry)) (v v' : Vault) : Prop
  | nothing : v' = v → Change W message entries v v'
  | added (c : Credential) : c.id ∉ v.records.map Prod.fst →
      retrieve W.toVaultPlatform v' c.id = .ok c → Matches W message (toEntry c) →
      (∀ e, some e ∈ entries → ¬ Matches W message e) →
      (Shows W.toVaultPlatform v entries →
        ∀ id d, retrieve W.toVaultPlatform v id = .ok d → ¬ Matches W message (toEntry d)) →
      Others v v' c.id → Change W message entries v v'
  | updated (c : Credential) (password updatedAtUtc : Str) :
      retrieve W.toVaultPlatform v c.id = .ok c → Matches W message (toEntry c) →
      retrieve W.toVaultPlatform v' c.id = .ok { c with password, updatedAtUtc } →
      Others v v' c.id → Change W message entries v v'

/-- The promise of a prompt. -/
structure PromptIsolation (W : WorkflowPlatform) (settings : BrowserSettings)
    (message : CredentialMessage) (entries : Option (List (Option VaultEntry))) (v v' : Vault) :
    Prop where
  change : Change W message (entries.getD []) v v'
  neverSave : message.origin ∈ settings.passwordNeverSaveOrigins.getD [] →
    ∀ plan, evaluateSavePrompt W settings message entries = .ok plan → plan.kind = .none
  refuses : ∀ plan decision existing result,
    buildAcceptedSave W message plan decision existing = .ok result →
      ∃ p, plan = some p ∧ p.origin = message.origin ∧
        Accepted W message p decision existing result

/-- The username holds no unpaired surrogate, and the origin, as it is stored, is within the bound
of a URL. -/
def Storable (W : WorkflowPlatform) (message : CredentialMessage) : Prop :=
  Text.Encodable (message.username.getD []) ∧
    ∀ uri, W.tryCreate message.origin = some uri → length16 uri.text ≤ 2048

variable {W : WorkflowPlatform}

/-! ## Saves of the workflow -/

theorem others_saved {P : VaultPlatform} {v v' : Vault}
    {id displayName url username password notes : Option Str} {fresh : Fresh} {c : Credential}
    (h : saveCredential P v id displayName url username password notes fresh = .ok (c, v')) :
    Others v v' c.id ∧ c.id ∈ v'.records.map Prod.fst := by
  obtain ⟨_, _, _, _, _, _, _, _, _, _, hwrite⟩ := saveCredential_eq_ok h
  obtain ⟨text, _, _, _, _, rfl⟩ := writeJsonAtomic_eq_ok hwrite
  refine ⟨⟨rfl, rfl, fun stem hstem => ?_⟩, ((records_saved h).1 c.id).2 (.inr rfl)⟩
  rw [Json.lookup_insertMember, if_neg (Ne.symm hstem)]

/-- The record of a save, with the time of its creation. -/
theorem created_saved {P : VaultPlatform} {v v' : Vault}
    {id displayName url username password notes : Option Str} {fresh : Fresh} {c : Credential}
    (h : saveCredential P v id displayName url username password notes fresh = .ok (c, v')) :
    ∃ creating, identify P v id fresh = .ok (c.id, c.createdAtUtc, creating) ∧
      (creating = true → c.id ∉ v.records.map Prod.fst) := by
  simp only [saveCredential, bind_eq_ok, fromOption_eq_ok] at h
  obtain ⟨_, _, ⟨_, _, _, _, _⟩, _, ⟨safeId, created, creating⟩, hidentify, _, _, _, _, _, hwrite,
    h⟩ := h
  cases h
  obtain ⟨_, _, _, _, hnew, _⟩ := writeJsonAtomic_eq_ok hwrite
  exact ⟨creating, hidentify, fun hcreating => Json.lookup_eq_none.1 (hnew hcreating)⟩

theorem identify_none {P : VaultPlatform} {v : Vault} {fresh : Fresh} {id created : Str}
    {creating : Bool} (h : identify P v none fresh = .ok (id, created, creating)) :
    creating = true := by
  obtain ⟨_, _, h⟩ := bind_eq_ok.1 h
  split at h
  · cases h
    rfl
  · rename_i hblank
    exact absurd rfl hblank

/-- An id that is not blank is that of the record that is saved again. -/
theorem identify_some {P : VaultPlatform} {v : Vault} {fresh : Fresh} {c : Credential}
    (hread : retrieve P v c.id = .ok c) {id created : Str} {creating : Bool}
    (h : identify P v (some c.id) fresh = .ok (id, created, creating)) :
    id = c.id ∧ created = c.createdAtUtc := by
  have hid := retrieve_id hread
  obtain ⟨_, _, h⟩ := bind_eq_ok.1 h
  split at h
  · rename_i hblank
    obtain ⟨hlength, hdigits⟩ := isId_of_validateId hid
    have hspace : ∀ d ∈ c.id, isWhiteSpace d = true := List.all_eq_true.1 hblank
    cases hc : c.id with
    | nil =>
        rw [hc] at hlength
        cases hlength
    | cons d rest =>
        have hmem : d ∈ c.id := by
          rw [hc]
          exact List.mem_cons_self
        have hdigit := hdigits d hmem
        have hprinted : isWhiteSpace d = false := not_isWhiteSpace (by omega)
        rw [hspace d hmem] at hprinted
        cases hprinted
  · simp only [Option.getD_some, hid, hread, bind_ok] at h
    cases h
    exact ⟨rfl, rfl⟩

/-- The save of a new entry: its file is new, and is read as far as the texts can be kept. -/
theorem save_newEntry (hW : W.Assumed) {message : CredentialMessage} {v v' : Vault} {fresh : Fresh}
    {saved : VaultEntry}
    (h : save W.toVaultPlatform v (newEntry message) fresh = .ok (saved, v')) :
    ∃ (c : Credential) (uri : Url), W.tryCreate message.origin = some uri ∧ c.url = uri.text ∧
      c.username = message.username.getD [] ∧ IsId c.id ∧ c.id ∉ v.records.map Prod.fst ∧
      c.id ∈ v'.records.map Prod.fst ∧ Others v v' c.id ∧
      retrieve W.toVaultPlatform v' c.id = if length16 c.url ≤ 2048 then .ok c.written
        else .error (.argument (str "Credential URL must be a bounded HTTP(S) URL.")) := by
  obtain ⟨c, hsave, -, -, husername, -, -, url, uri, hurl, huri, htext⟩ := save_eq_ok h
  cases hurl
  obtain ⟨creating, hidentify, hnew⟩ := created_saved hsave
  obtain ⟨hothers, hfile⟩ := others_saved hsave
  exact ⟨c, uri, huri, htext, husername, isId_of_identify hidentify, hnew (identify_none hidentify),
    hfile, hothers, retrieve_saved hW.vault hsave⟩

/-- A new entry has the origin of its message. -/
theorem normalize_stored (hW : W.Assumed) {origin : Str} (horigin : IsOrigin W origin) {uri : Url}
    (hlength : length16 origin ≤ 2048) (huri : W.tryCreate origin = some uri)
    (hbound : length16 uri.text ≤ 2048) :
    normalizeSecureOriginText W (some uri.text) = .ok origin := by
  obtain ⟨-, root, hroot, hnormal⟩ := horigin
  rw [huri] at hroot
  cases hroot
  exact normalizeSecureOriginText_eq_ok.2 ⟨uri.text, uri, rfl, not_isBlank_text uri, hbound,
    hW.vault.stable origin uri hlength huri, hnormal⟩

/-- The save of an entry of the vault under a new password. -/
theorem save_changed (hW : W.Assumed) {v v' : Vault} {kept : Str → Option VaultEntry}
    (hv : Held W.toVaultPlatform v kept) {c : Credential} {password : Option Str} {fresh : Fresh}
    {saved : VaultEntry} (hread : retrieve W.toVaultPlatform v c.id = .ok c)
    (h : save W.toVaultPlatform v { toEntry c with password := password } fresh = .ok (saved, v')) :
    ∃ password' updatedAtUtc, Others v v' c.id ∧ retrieve W.toVaultPlatform v' c.id =
      .ok { c with password := password', updatedAtUtc := updatedAtUtc } := by
  have hwritten := hv.written hread
  obtain ⟨d, hsave, -, hname, husername, -, hnotes, -⟩ := save_eq_ok h
  obtain ⟨creating, hidentify, -⟩ := created_saved hsave
  obtain ⟨hid, hcreated⟩ := identify_some hread hidentify
  obtain ⟨hothers, -⟩ := others_saved hsave
  obtain ⟨_, _, _, _, _, _, hcheck, _⟩ := saveCredential_eq_ok hsave
  obtain ⟨hurl, -⟩ := checkRecord_eq_ok hcheck
  obtain ⟨_, _, _, _, _, _, _, _, hc⟩ := retrieve_eq_ok.1 hread
  have hstored : ∃ value, normalizeUrl W.toVaultPlatform value = .ok c.url := by
    simp only [readCredential, bind_eq_ok] at hc
    obtain ⟨_, _, raw, _, _, _, url, hnormal, _, _, _, _, _, _, _, _, hc⟩ := hc
    cases hc
    exact ⟨raw.url, hnormal⟩
  obtain ⟨value, hvalue⟩ := hstored
  have hsame : sanitize c.url = c.url := congrArg Credential.url hwritten
  have hagain := normalizeUrl_again hW.vault hvalue
  rw [hsame] at hagain
  have hurls : d.url = c.url ∧ length16 c.url ≤ 2048 := by
    have hurl' : normalizeUrl W.toVaultPlatform (some c.url) = .ok d.url := hurl
    rw [hagain] at hurl'
    split at hurl'
    · exact ⟨(Except.ok.inj hurl').symm, ‹_›⟩
    · cases hurl'
  have hsaved := retrieve_saved hW.vault hsave
  rw [hurls.1, if_pos hurls.2, hid] at hsaved
  refine ⟨sanitize d.password, sanitize d.updatedAtUtc, hid ▸ hothers, ?_⟩
  rw [hsaved, Except.ok.injEq]
  have hfields : d.displayName = c.displayName ∧ d.username = c.username ∧ d.notes = c.notes :=
    ⟨hname, husername, hnotes⟩
  conv_rhs => rw [← hwritten]
  simp only [Credential.written, hid, hfields, hurls.1, hcreated]

/-! ## The promise -/

theorem never_planned (hW : W.Assumed) {settings : BrowserSettings} {message : CredentialMessage}
    (horigin : IsOrigin W message.origin)
    (hnever : message.origin ∈ settings.passwordNeverSaveOrigins.getD [])
    {entries : Option (List (Option VaultEntry))} {plan : PromptPlan}
    (h : evaluateSavePrompt W settings message entries = .ok plan) : plan.kind = .none := by
  rcases evaluateSavePrompt_eq_ok hW horigin h with hnone | ⟨-, hallowed, -⟩
  · exact hnone
  · exact absurd hnever hallowed

/-- A list that shows the vault has a matching entry for every matching record. -/
theorem not_matches_of_shows {message : CredentialMessage} {v : Vault}
    {entries : List (Option VaultEntry)}
    (hnone : ∀ e, some e ∈ entries → ¬ Matches W message e)
    (hshows : Shows W.toVaultPlatform v entries) {id : Str} {d : Credential}
    (hread : retrieve W.toVaultPlatform v id = .ok d) : ¬ Matches W message (toEntry d) := by
  obtain ⟨e, he, hurl, husername⟩ := hshows id d hread
  intro hmatches
  refine hnone e he ⟨?_, ?_⟩
  · rw [hurl]
    exact hmatches.1
  · rw [husername]
    exact hmatches.2

/-- What a prompt comes to. -/
theorem runPrompt_cases (hW : W.Assumed) {settings : BrowserSettings} {message : CredentialMessage}
    (horigin : IsOrigin W message.origin) {entries : Option (List (Option VaultEntry))}
    {decision : PromptDecision} {v v' : Vault} {fresh : Fresh} {result : Option VaultEntry}
    (h : runPrompt W settings message entries decision v fresh = .ok (result, v')) :
    (v' = v ∧ decision ≠ .save) ∨
    (decision = .save ∧ length16 message.origin ≤ 2048 ∧
      (∀ e, some e ∈ entries.getD [] → ¬ Matches W message e) ∧
      ∃ saved, save W.toVaultPlatform v (newEntry message) fresh = .ok (saved, v')) ∨
    (decision = .update ∧ ∃ c saved, retrieve W.toVaultPlatform v c.id = .ok c ∧
      Matches W message (toEntry c) ∧ save W.toVaultPlatform v
        { toEntry c with password := message.password } fresh = .ok (saved, v')) := by
  simp only [runPrompt, bind_eq_ok] at h
  obtain ⟨plan, hplan, existing, hexisting, accepted, haccepted, h⟩ := h
  obtain ⟨p, hp, -, haccepted⟩ := accepted_of_buildAcceptedSave horigin haccepted
  cases hp
  cases haccepted with
  | declined hdecision =>
      cases h
      refine .inl ⟨rfl, ?_⟩
      rintro rfl
      rcases hdecision with hdecision | hdecision <;> cases hdecision
  | added hkind =>
      obtain ⟨⟨saved, w⟩, hsave, h⟩ := bind_eq_ok.1 h
      cases h
      rcases evaluateSavePrompt_eq_ok hW horigin hplan with
        hnone | ⟨hbound, -, found, hfinds, rfl⟩
      · rw [hnone] at hkind
        cases hkind
      · cases found with
        | none => exact .inr (.inl ⟨rfl, hbound, hfinds, saved, mapError_eq_ok.1 hsave⟩)
        | some e =>
            rw [planFor] at hkind
            split at hkind <;> cases hkind
  | @changed e hkind hid hmatches =>
      obtain ⟨⟨saved, w⟩, hsave, h⟩ := bind_eq_ok.1 h
      cases h
      rw [namedEntry, if_pos hkind] at hexisting
      obtain ⟨got, hgot, hexisting⟩ := bind_eq_ok.1 hexisting
      cases hexisting
      obtain ⟨id, -, hget⟩ := bind_eq_ok.1 hgot
      obtain ⟨c, hread, hentry⟩ := bind_eq_ok.1 (mapError_eq_ok.1 hget)
      cases hentry
      exact .inr (.inr ⟨rfl, c, saved, retrieve_own hread, hmatches, mapError_eq_ok.1 hsave⟩)

/-! ## New entries -/

section Added

variable {message : CredentialMessage} {username : Str} {v v' : Vault} {fresh : Fresh}
  {saved : VaultEntry} {entries : List (Option VaultEntry)}

/-- A new entry that keeps the promise could be stored. -/
theorem storable_of_change (hW : W.Assumed) (husername : message.username = some username)
    (hsave : save W.toVaultPlatform v (newEntry message) fresh = .ok (saved, v'))
    (hchange : Change W message entries v v') : Storable W message := by
  obtain ⟨c, uri, huri, hurl, huser, -, hnew, hfile, -, hread⟩ := save_newEntry hW hsave
  rw [husername, Option.getD_some] at huser
  cases hchange with
  | nothing hsame =>
      rw [hsame] at hfile
      exact absurd hfile hnew
  | added d _ hd hmatches _ _ hrest =>
      rw [← hrest.eq_of_new hnew hfile, hread] at hd
      split at hd
      · rename_i hlength
        cases hd
        refine ⟨?_, fun uri' huri' => ?_⟩
        · rw [husername, Option.getD_some, ← sanitize_eq_iff, ← huser]
          have hsame := hmatches.2.trans husername
          rw [← huser] at hsame
          exact Option.some.inj hsame
        · rw [huri] at huri'
          cases huri'
          rw [← hurl]
          exact hlength
      · cases hd
  | updated d _ _ hd _ _ hrest =>
      exact absurd (file_of_retrieve hd) (hrest.eq_of_new hnew hfile ▸ hnew)

/-- A new entry that can be stored is the one of its message. -/
theorem change_of_storable (hW : W.Assumed) (horigin : IsOrigin W message.origin)
    (hbound : length16 message.origin ≤ 2048) (husername : message.username = some username)
    (hnone : ∀ e, some e ∈ entries → ¬ Matches W message e)
    (hsave : save W.toVaultPlatform v (newEntry message) fresh = .ok (saved, v'))
    (hstorable : Storable W message) : Change W message entries v v' := by
  obtain ⟨c, uri, huri, hurl, huser, hid, hnew, -, hothers, hread⟩ := save_newEntry hW hsave
  obtain ⟨hencodable, hlength⟩ := hstorable
  have hstored := hlength uri huri
  rw [husername, Option.getD_some] at huser hencodable
  rw [hurl, if_pos hstored] at hread
  have hsameId : c.written.id = c.id := sanitize_eq_iff.2 hid.ascii.encodable
  have hsameUrl : c.written.url = uri.text := by
    rw [← hurl]
    exact sanitize_eq_iff.2 (hurl ▸ hW.vault.encodes _ _ huri)
  have hsameUser : c.written.username = username := by
    rw [← huser] at hencodable ⊢
    exact sanitize_eq_iff.2 hencodable
  refine .added c.written ?_ ?_ ⟨?_, ?_⟩ hnone
    (fun hshows _ _ => not_matches_of_shows hnone hshows) ?_
  · rw [hsameId]
    exact hnew
  · rw [hsameId]
    exact hread
  · show normalizeSecureOriginText W (some c.written.url) = _
    rw [hsameUrl]
    exact normalize_stored hW horigin hbound huri hstored
  · show some c.written.username = _
    rw [hsameUser, husername]
  · rw [hsameId]
    exact hothers

end Added

/-- A prompt keeps its promise exactly if the texts of an entry it adds can be stored. -/
theorem prompt_isolation_iff (hW : W.Assumed) {text json : Str} {source : Url}
    (hsource : W.tryCreate text = some source) {message : CredentialMessage}
    (hmessage : parse W json source = .ok message) (hkind : message.kind = .saveCandidate)
    {v v' : Vault} {kept : Str → Option VaultEntry} (hv : Stored W.toVaultPlatform v kept)
    {settings : BrowserSettings} {entries : Option (List (Option VaultEntry))}
    {decision : PromptDecision} {fresh : Fresh} {result : Option VaultEntry}
    (h : runPrompt W settings message entries decision v fresh = .ok (result, v')) :
    PromptIsolation W settings message entries v v' ↔ (decision = .save → Storable W message) := by
  obtain ⟨horigin, hcandidate⟩ := parsed_of_parse hW hsource hmessage
  obtain ⟨username, -, husername, -⟩ := hcandidate hkind
  have hrest (hchange : Change W message (entries.getD []) v v') :
      PromptIsolation W settings message entries v v' :=
    ⟨hchange, fun hnever _ => never_planned hW horigin hnever,
      fun _ _ _ _ => accepted_of_buildAcceptedSave horigin⟩
  rcases runPrompt_cases hW horigin h with
    ⟨rfl, hdecision⟩ | ⟨rfl, hbound, hnone, saved, hsave⟩ | ⟨rfl, c, saved, hread, hmatches, hsave⟩
  · exact ⟨fun _ hsaved => absurd hsaved hdecision, fun _ => hrest (.nothing rfl)⟩
  · constructor
    · intro hisolated _
      exact storable_of_change hW husername hsave hisolated.change
    · intro hstorable
      exact hrest (change_of_storable hW horigin hbound husername hnone hsave (hstorable rfl))
  · obtain ⟨password, updatedAtUtc, hothers, hafter⟩ :=
      save_changed hW (hv.held hW.vault) hread hsave
    exact ⟨fun _ => nofun,
      fun _ => hrest (.updated c password updatedAtUtc hread hmatches hafter hothers)⟩

/-- A candidate that is saved as it was posted. -/
theorem prompt_isolation_user : ∃ v' result,
    runPrompt (Sample.workflow Sample.userPrompt) Sample.settings (Sample.candidate Sample.user)
      (some []) .save Sample.vault Sample.fresh = .ok (result, v') ∧
    PromptIsolation (Sample.workflow Sample.userPrompt) Sample.settings
      (Sample.candidate Sample.user) (some []) Sample.vault v' := by
  have hsession := Sample.savesCandidate_user
  obtain ⟨v', -, hrun⟩ := Sample.runPrompt_candidate hsession (by decide) (by decide)
  refine ⟨v', _, hrun, (prompt_isolation_iff (Sample.assumed_workflow hsession.given hsession.url)
    (Sample.tryCreate_site hsession.url)
    (Sample.parse_posted hsession.given hsession.url (by decide) (by decide) (by decide)) rfl
    (.empty rfl) hrun).2 ?_⟩
  intro _
  refine ⟨Text.encodable_str _, fun uri huri => ?_⟩
  rw [Sample.tryCreate_eq_some hsession.url huri]
  decide

/-- A username with half a pair is stored as another one. -/
theorem prompt_not_isolated_halfPair :
    (Sample.workflow Sample.halfPairPrompt).Assumed ∧
      parse (Sample.workflow Sample.halfPairPrompt) (Sample.posted Sample.halfPair) Sample.site =
        .ok (Sample.candidate Sample.halfPair) ∧
      Stored (Sample.workflow Sample.halfPairPrompt).toVaultPlatform Sample.vault (fun _ => none) ∧
      ∃ v' result, runPrompt (Sample.workflow Sample.halfPairPrompt) Sample.settings
          (Sample.candidate Sample.halfPair) (some []) .save Sample.vault Sample.fresh =
            .ok (result, v') ∧
        ¬ PromptIsolation (Sample.workflow Sample.halfPairPrompt) Sample.settings
          (Sample.candidate Sample.halfPair) (some []) Sample.vault v' := by
  have hsession := Sample.savesCandidate_halfPair
  have hassumed := Sample.assumed_workflow hsession.given hsession.url
  obtain ⟨v', hsave, hrun⟩ := Sample.runPrompt_candidate hsession (by decide) (by decide)
  refine ⟨hassumed, Sample.parse_posted hsession.given hsession.url (by decide) (by decide)
    (by decide), .empty rfl, v', _, hrun, fun hisolated => ?_⟩
  have hstorable := storable_of_change hassumed rfl hsave hisolated.change
  exact hstorable.1 0xD800 List.mem_cons_self (by decide)

end ZsecShield.Browser
