import ZsecShield.Browser.PromptIsolation

/-!
# What the assistant decides

`BrowserLoginAssistant.EvaluateSave` plans over a search for the username of the message.  The
search never hides the entry the message is about (`matchesQuery_username`), but it leaves the
passwords out, so that a password that is stored already is planned as a new one.
-/

namespace ZsecShield.Browser

open Text (Str str CodePoint)
open Checks

/-! ## Terms of a username -/

theorem units_append (s t : Str) : units (s ++ t) = units s ++ units t := List.flatMap_append

theorem units_isInfix {s t : Str} (h : s <:+: t) : units s <:+: units t := by
  obtain ⟨front, back, rfl⟩ := h
  rw [units_append, units_append]
  exact ⟨units front, units back, rfl⟩

theorem units_cons (c : CodePoint) (s : Str) : units (c :: s) = units [c] ++ units s := by
  rw [← units_append, List.singleton_append]

/-- The start of a text is a start of its units, also where it ends within a pair. -/
theorem units_take16 (n : Nat) (s : Str) : units (take16 n s) <+: units s := by
  fun_induction take16 n s with
  | case1 s => exact List.nil_prefix
  | case2 n => exact List.nil_prefix
  | case3 n c s hsmall ih =>
      rw [units_cons, units_cons c s]
      exact (List.prefix_append_right_inj _).2 ih
  | case4 c s hsmall =>
      have hhigh : (c.val - 0x10000) / 0x400 < 0x400 := by
        have := c.isLt
        omega
      have hval : (Fin.ofNat 0x110000 (0xD800 + (c.val - 0x10000) / 0x400)).val =
          0xD800 + (c.val - 0x10000) / 0x400 := Nat.mod_eq_of_lt (by omega)
      have hunits : units [Fin.ofNat 0x110000 (0xD800 + (c.val - 0x10000) / 0x400)] =
          [0xD800 + (c.val - 0x10000) / 0x400] := by
        rw [units, List.flatMap_singleton, hval, if_pos (by omega)]
      rw [hunits, units, List.flatMap_cons, if_neg hsmall]
      exact List.cons_prefix_cons.2 ⟨rfl, List.nil_prefix⟩
  | case5 c s hsmall n ih =>
      rw [units_cons, units_cons c s]
      exact (List.prefix_append_right_inj _).2 ih

theorem trimEndOf_isPrefix (p : CodePoint → Bool) (s : Str) : trimEndOf p s <+: s := by
  rw [← List.reverse_suffix, trimEndOf, List.reverse_reverse]
  exact List.dropWhile_suffix p

theorem trimOf_isInfix (p : CodePoint → Bool) (s : Str) : trimOf p s <:+: s :=
  (trimEndOf_isPrefix p _).isInfix.trans (List.dropWhile_suffix p).isInfix

theorem units_normalizeSearch (query : Str) :
    units (normalizeSearch (some query)) <:+: units query :=
  (units_take16 256 _).isInfix.trans (units_isInfix (trimOf_isInfix isWhiteSpace query))

/-- The pieces of a text: one at its start, and others within it. -/
theorem splitOnP_pieces (p : CodePoint → Bool) (s : Str) :
    ∃ piece pieces, s.splitOnP p = piece :: pieces ∧ piece <+: s ∧ ∀ x ∈ pieces, x <:+: s := by
  induction s with
  | nil => exact ⟨[], [], List.splitOnP_nil, List.nil_prefix, List.forall_mem_nil _⟩
  | cons c s ih =>
      obtain ⟨piece, pieces, hsplit, hpiece, hpieces⟩ := ih
      have hwithin (x : Str) (hx : x <:+: s) : x <:+: c :: s :=
        hx.trans (List.suffix_cons c s).isInfix
      rw [List.splitOnP_cons_eq_if_modifyHead, hsplit]
      split
      · refine ⟨[], piece :: pieces, rfl, List.nil_prefix, ?_⟩
        exact List.forall_mem_cons.2
          ⟨hwithin piece hpiece.isInfix, fun x hx => hwithin x (hpieces x hx)⟩
      · exact ⟨c :: piece, pieces, rfl, List.cons_prefix_cons.2 ⟨rfl, hpiece⟩,
          fun x hx => hwithin x (hpieces x hx)⟩

theorem infix_of_mem_searchTerms {query term : Str} (h : term ∈ searchTerms query) :
    term <:+: query := by
  have hmem := (List.mem_filter.1 h).1
  obtain ⟨piece, pieces, hsplit, hpiece, hpieces⟩ := splitOnP_pieces _ query
  rw [hsplit, List.mem_cons] at hmem
  rcases hmem with rfl | hmem
  · exact hpiece.isInfix
  · exact hpieces term hmem

variable {W : WorkflowPlatform}

/-- A search for a username shows the entries that have it. -/
theorem matchesQuery_username (hW : W.Assumed) {entry : VaultEntry} {username : Str}
    (h : entry.username = some username) :
    matchesQuery W.toVaultPlatform entry (normalizeSearch (some username)) = true := by
  rw [matchesQuery, List.all_eq_true]
  intro term hterm
  have hunits : units term <:+: units username :=
    ((units_isInfix (infix_of_mem_searchTerms hterm)).trans (units_normalizeSearch _)).trans
      (units_normalizeSearch username)
  have hfound : W.containsIgnoreCase (entry.username.getD []) term = true := by
    rw [h]
    exact hW.contains username term hunits
  simp only [hfound, Bool.or_true, Bool.true_or]

/-! ## Searches -/

theorem mem_listFrom {P : VaultPlatform} {v : Vault} {count : Nat} {stems : List Str}
    {items : List CredentialSummary} (h : listFrom P v count stems = .ok items) {stem : Str}
    (hstem : stem ∈ stems) {c : Credential} (hread : retrieve P v stem = .ok c) :
    ∃ item ∈ items, item.id = c.id := by
  induction stems generalizing count items with
  | nil => cases hstem
  | cons s stems ih =>
      simp only [listFrom, bind_eq_ok] at h
      obtain ⟨_, _, d, hd, rest, hrest, h⟩ := h
      cases h
      rcases List.mem_cons.1 hstem with rfl | hstem
      · rw [hread] at hd
        cases hd
        exact ⟨_, List.mem_cons_self, rfl⟩
      · obtain ⟨item, hitem, hid⟩ := ih hrest hstem
        exact ⟨item, List.mem_cons_of_mem _ hitem, hid⟩

theorem mem_entriesOf {P : VaultPlatform} {v : Vault} {items : List CredentialSummary}
    {entries : List VaultEntry} (h : entriesOf P v items = .ok entries) (e : VaultEntry) :
    e ∈ entries ↔ ∃ item ∈ items, ∃ c, retrieve P v item.id = .ok c ∧
      e = { toEntry c with password := none } := by
  induction items generalizing entries with
  | nil =>
      cases h
      simp
  | cons item items ih =>
      simp only [entriesOf, bind_eq_ok] at h
      obtain ⟨c, hc, rest, hrest, h⟩ := h
      cases h
      rw [List.mem_cons, ih hrest, List.exists_mem_cons_iff]
      refine or_congr ⟨fun he => ⟨c, hc, he⟩, ?_⟩ Iff.rfl
      rintro ⟨d, hd, he⟩
      rw [hc] at hd
      cases hd
      exact he

/-- What a search shows: the records that match, without their passwords. -/
theorem mem_search {P : VaultPlatform} {v : Vault} {query : Option Str} {entries : List VaultEntry}
    (h : search P v query = .ok entries) (e : VaultEntry) :
    e ∈ entries ↔ (∃ c, retrieve P v c.id = .ok c ∧ e = { toEntry c with password := none }) ∧
      matchesQuery P e (normalizeSearch query) = true := by
  obtain ⟨items, hitems, h⟩ := bind_eq_ok.1 h
  obtain ⟨found, hfound, h⟩ := bind_eq_ok.1 h
  cases h
  rw [List.mem_filter, mem_entriesOf hfound]
  refine and_congr_left fun _ => ?_
  obtain ⟨_, _, hitems⟩ := bind_eq_ok.1 hitems
  obtain ⟨listed, hlisted, hitems⟩ := bind_eq_ok.1 hitems
  cases hitems
  have hperm : (ordered listed).Perm listed := List.mergeSort_perm _ _
  constructor
  · rintro ⟨item, hitem, c, hread, rfl⟩
    exact ⟨c, retrieve_own hread, rfl⟩
  · rintro ⟨c, hread, rfl⟩
    obtain ⟨stem, hstem, hread'⟩ : ∃ stem ∈ v.records.map Prod.fst, retrieve P v stem = .ok c :=
      ⟨c.id, file_of_retrieve hread, hread⟩
    obtain ⟨item, hitem, hid⟩ := mem_listFrom hlisted hstem hread'
    exact ⟨item, hperm.mem_iff.2 hitem, c, by rw [hid]; exact hread, rfl⟩

/-! ## Decisions -/

/-- A record of the vault with the exact origin and the username of the message. -/
def Standing (W : WorkflowPlatform) (v : Vault) (message : CredentialMessage) (c : Credential) :
    Prop :=
  retrieve W.toVaultPlatform v c.id = .ok c ∧ Matches W message (toEntry c)

/-- At most one entry for each exact origin and username. -/
def AtMostOne (W : WorkflowPlatform) (v : Vault) : Prop :=
  ∀ c d origin, retrieve W.toVaultPlatform v c.id = .ok c →
    retrieve W.toVaultPlatform v d.id = .ok d →
    normalizeSecureOriginText W (some c.url) = .ok origin →
    normalizeSecureOriginText W (some d.url) = .ok origin → c.username = d.username → c = d

/-- A plan that saves what is new, updates what differs, and leaves what is stored. -/
structure Decides (W : WorkflowPlatform) (v : Vault) (message : CredentialMessage)
    (plan : PromptPlan) : Prop where
  save : plan.kind = .save ↔ ¬ ∃ c, Standing W v message c
  update : plan.kind = .update ↔ ∃ c, Standing W v message c ∧ some c.password ≠ message.password
  names : plan.kind = .update → ∀ c, Standing W v message c → plan.existingEntryId = some c.id
  none : plan.kind = .none ↔ ∃ c, Standing W v message c ∧ some c.password = message.password

theorem AtMostOne.unique {v : Vault} {message : CredentialMessage} (h : AtMostOne W v)
    {c d : Credential} (hc : Standing W v message c) (hd : Standing W v message d) : c = d :=
  h c d message.origin hc.1 hd.1 hc.2.1 hd.2.1 (Option.some.inj (hc.2.2.trans hd.2.2.symm))

/-- An unlocked vault is asked as it is. -/
theorem evaluateSave_eq_ok {v : Vault} {masterKey : Bytes}
    (hkey : requireUnlocked v = .ok masterKey) {unlock : Vault → Except VaultError Vault}
    {settings : BrowserSettings} {message : CredentialMessage} {plan : PromptPlan} :
    evaluateSave W unlock settings message v = .ok plan ↔
      ∃ entries, search W.toVaultPlatform v (some (message.username.getD [])) = .ok entries ∧
        evaluateSavePrompt W settings message (some (entries.map some)) = .ok plan := by
  have hmaster : v.masterKey.isSome = true := by
    unfold requireUnlocked at hkey
    split at hkey
    · cases hkey
    · rw [fromOption_eq_ok.1 hkey]
      rfl
  have hstatus (status : VaultStatus) (h : getStatus W.toVaultPlatform v = .ok status) :
      status.isUnlocked = true := by
    rw [getStatus, if_pos hmaster] at h
    obtain ⟨items, -, h⟩ := bind_eq_ok.1 h
    cases h
    rfl
  simp only [evaluateSave, ensureUnlocked, bind_eq_ok, mapError_eq_ok]
  constructor
  · rintro ⟨w, ⟨status, hgot, hw⟩, entries, hentries, hplan⟩
    rw [if_pos (hstatus status hgot)] at hw
    cases hw
    exact ⟨entries, hentries, hplan⟩
  · rintro ⟨entries, hentries, hplan⟩
    obtain ⟨status, hgot⟩ := (getStatus_eq_ok hkey).2 (search_eq_ok.1 ⟨entries, hentries⟩)
    refine ⟨v, ⟨status, hgot, ?_⟩, entries, hentries, hplan⟩
    rw [if_pos (hstatus status hgot)]
    rfl

section Message

variable {message : CredentialMessage} {username password : Str} {v : Vault}

/-- The plan over a search: an entry that stands is found, and is planned to be updated. -/
theorem planned_over_search (hW : W.Assumed) (husername : message.username = some username)
    (hpassword : message.password = some password) {entries : List VaultEntry}
    (hsearch : search W.toVaultPlatform v (some (message.username.getD [])) = .ok entries)
    {found : Option VaultEntry} (hfinds : Finds W message (entries.map some) found) :
    (planFor message found).kind = .save ∧ (¬ ∃ c, Standing W v message c) ∨
      (planFor message found).kind = .update ∧ ∃ c, Standing W v message c ∧
        (planFor message found).existingEntryId = some c.id := by
  cases found with
  | none =>
      refine .inl ⟨rfl, ?_⟩
      rintro ⟨c, hread, hmatches⟩
      have huser : some c.username = some username := hmatches.2.trans husername
      have hshown : { toEntry c with password := none } ∈ entries := by
        refine (mem_search hsearch _).2 ⟨⟨c, hread, rfl⟩, ?_⟩
        rw [husername, Option.getD_some]
        exact matchesQuery_username hW huser
      exact hfinds _ (List.mem_map_of_mem hshown) hmatches
  | some e =>
      obtain ⟨hmem, hmatches⟩ := hfinds
      obtain ⟨e', he', hsame⟩ := List.mem_map.1 hmem
      cases hsame
      obtain ⟨⟨c, hread, rfl⟩, -⟩ := (mem_search hsearch e).1 he'
      have hplan : planFor message (some { toEntry c with password := none }) =
          ⟨.update, message.origin, some c.id, str "password changed"⟩ := by
        rw [planFor, if_neg]
        · rfl
        · rw [hpassword]
          rintro ⟨⟩
      rw [hplan]
      exact .inr ⟨rfl, c, ⟨hread, hmatches⟩, rfl⟩

end Message

/-- A plan needs an origin within the bound. -/
theorem bound_of_evaluateSavePrompt {settings : BrowserSettings} {message : CredentialMessage}
    {entries : Option (List (Option VaultEntry))} {plan : PromptPlan}
    (henabled : settings.passwordSaveEnabled = true)
    (h : evaluateSavePrompt W settings message entries = .ok plan) :
    length16 message.origin ≤ 2048 := by
  obtain ⟨_, _, h⟩ := bind_eq_ok.1 h
  rw [henabled, if_neg (by decide)] at h
  obtain ⟨_, hnever, -⟩ := bind_eq_ok.1 h
  obtain ⟨_, hnormalized, -⟩ := bind_eq_ok.1 hnever
  obtain ⟨s, _, hs, -, hbound, -⟩ := normalizeSecureOriginText_eq_ok.1 hnormalized
  cases hs
  exact hbound

/-- What the assistant plans over a vault that can be listed: never nothing. -/
theorem evaluateSave_planned (hW : W.Assumed) {message : CredentialMessage}
    (hmessage : message.Parsed W) (hkind : message.kind = .saveCandidate) {v : Vault}
    {masterKey : Bytes} (hkey : requireUnlocked v = .ok masterKey)
    (hlists : ∃ items, list W.toVaultPlatform v = .ok items) {settings : BrowserSettings}
    (henabled : settings.passwordSaveEnabled = true)
    (hallowed : message.origin ∉ settings.passwordNeverSaveOrigins.getD [])
    (hbound : length16 message.origin ≤ 2048) (unlock : Vault → Except VaultError Vault) :
    ∃ plan, evaluateSave W unlock settings message v = .ok plan ∧
      (plan.kind = .save ∧ (¬ ∃ c, Standing W v message c) ∨
        plan.kind = .update ∧ ∃ c, Standing W v message c ∧ plan.existingEntryId = some c.id) := by
  obtain ⟨username, password, husername, hpassword⟩ := hmessage.candidate hkind
  have hsearched : ∃ entries,
      search W.toVaultPlatform v (some (message.username.getD [])) = .ok entries :=
    search_eq_ok.2 hlists
  obtain ⟨entries, hsearch⟩ := hsearched
  obtain ⟨found, hfinds, heval⟩ := evaluateSavePrompt_of_allowed hW hmessage.origin hkind henabled
    hallowed hbound (some (entries.map some))
  exact ⟨_, (evaluateSave_eq_ok hkey).2 ⟨entries, hsearch, heval⟩,
    planned_over_search hW husername hpassword hsearch hfinds⟩

/-- The assistant decides rightly exactly if the vault can be listed and the password is not stored
already. -/
theorem evaluateSave_decides_iff (hW : W.Assumed) {text json : Str} {source : Url}
    (hsource : W.tryCreate text = some source) {message : CredentialMessage}
    (hmessage : parse W json source = .ok message) (hkind : message.kind = .saveCandidate)
    {v : Vault} {kept : Str → Option VaultEntry} (hv : Stored W.toVaultPlatform v kept)
    {masterKey : Bytes} (hkey : requireUnlocked v = .ok masterKey) (hone : AtMostOne W v)
    {settings : BrowserSettings} (henabled : settings.passwordSaveEnabled = true)
    (hallowed : message.origin ∉ settings.passwordNeverSaveOrigins.getD [])
    (unlock : Vault → Except VaultError Vault) :
    (∃ plan, evaluateSave W unlock settings message v = .ok plan ∧ Decides W v message plan) ↔
      length16 message.origin ≤ 2048 ∧
        (∀ id saved, kept id = some saved → length16 (saved.url.getD []) ≤ 2048) ∧
        ∀ c, Standing W v message c → some c.password ≠ message.password := by
  have hparsed := parsed_of_parse hW hsource hmessage
  have hurls := (hv.held hW.vault).list_eq_ok hkey
  have hplans (hbound : length16 message.origin ≤ 2048)
      (hlists : ∃ items, list W.toVaultPlatform v = .ok items) :=
    evaluateSave_planned hW hparsed hkind hkey hlists henabled hallowed hbound unlock
  constructor
  · rintro ⟨plan, hplan, hdecides⟩
    obtain ⟨entries, hsearch, heval⟩ := (evaluateSave_eq_ok hkey).1 hplan
    have hbound := bound_of_evaluateSavePrompt henabled heval
    have hlists := search_eq_ok.1 ⟨entries, hsearch⟩
    refine ⟨hbound, hurls.1 hlists, fun c hc hsame => ?_⟩
    have hnone := hdecides.none.2 ⟨c, hc, hsame⟩
    obtain ⟨_, hplan', hkinds⟩ := hplans hbound hlists
    rw [hplan] at hplan'
    cases hplan'
    rcases hkinds with ⟨hsave, -⟩ | ⟨hupdate, -⟩
    · rw [hsave] at hnone
      cases hnone
    · rw [hupdate] at hnone
      cases hnone
  · rintro ⟨hbound, hstored, hdiffers⟩
    obtain ⟨plan, hplan, hkinds⟩ := hplans hbound (hurls.2 hstored)
    have hnoneStored : ¬ ∃ c, Standing W v message c ∧ some c.password = message.password :=
      fun ⟨c, hc, hsame⟩ => hdiffers c hc hsame
    refine ⟨plan, hplan, ?_⟩
    rcases hkinds with ⟨hsave, hnew⟩ | ⟨hupdate, c, hc, hid⟩
    · constructor
      · exact ⟨fun _ => hnew, fun _ => hsave⟩
      · rw [hsave]
        exact ⟨nofun, fun ⟨c, hc, _⟩ => absurd ⟨c, hc⟩ hnew⟩
      · rw [hsave]
        exact nofun
      · rw [hsave]
        exact ⟨nofun, fun h => absurd h hnoneStored⟩
    · constructor
      · rw [hupdate]
        exact ⟨nofun, fun h => absurd ⟨c, hc⟩ h⟩
      · exact ⟨fun _ => ⟨c, hc, hdiffers c hc⟩, fun _ => hupdate⟩
      · intro _ d hd
        rw [hid, hone.unique hc hd]
      · rw [hupdate]
        exact ⟨nofun, fun h => absurd h hnoneStored⟩

/-! ## A vault with one entry -/

namespace Sample

/-- What the vault holds once the candidate was saved. -/
def keptUser : Str → Option VaultEntry :=
  Function.update (fun _ => none) id (some (toEntry (siteRecord user)))

/-- The vault in which a candidate was saved. -/
structure HoldsUser (v : Vault) : Prop where
  stored : Stored userPrompt.platform v keptUser
  unlocked : requireUnlocked v = .ok form.masterKey.data

theorem holdsUser_saved : ∃ v, HoldsUser v := by
  obtain ⟨v, hsave⟩ := save_candidate savesCandidate_user (by decide) (by decide)
  refine ⟨v, .save (.empty rfl) hsave rfl, ?_⟩
  obtain ⟨c, hrecord, -⟩ := save_eq_ok hsave
  obtain ⟨hothers, -⟩ := others_saved hrecord
  rw [requireUnlocked, hothers.disposed, hothers.masterKey]
  rfl

theorem urls_keptUser (stem : Str) (saved : VaultEntry) (hsaved : keptUser stem = some saved) :
    length16 (saved.url.getD []) ≤ 2048 := by
  by_cases hstem : stem = id
  · rw [hstem, keptUser, Function.update_self] at hsaved
    cases hsaved
    decide
  · rw [keptUser, Function.update_of_ne hstem] at hsaved
    cases hsaved

section HoldsUser

variable {v : Vault} (h : HoldsUser v)

include h

theorem HoldsUser.held : Held userPrompt.platform v keptUser := h.stored.held userPrompt.assumed

/-- The one record of the vault. -/
theorem HoldsUser.record {c : Credential} (hread : retrieve userPrompt.platform v c.id = .ok c) :
    c.id = id ∧ c.url = site.text ∧ c.username = user ∧ c.password = secret := by
  obtain ⟨d, hkept, hc, -⟩ := h.held.of_retrieve hread
  have hid : c.id = id := by
    by_contra hne
    rw [keptUser, Function.update_of_ne hne] at hkept
    cases hkept
  rw [hid, keptUser, Function.update_self] at hkept
  have hsame := Option.some.inj hkept
  have hurl : site.text = d.url := Option.some.inj (congrArg VaultEntry.url hsame)
  have huser : user = d.username := Option.some.inj (congrArg VaultEntry.username hsame)
  have hsecret : secret = d.password := Option.some.inj (congrArg VaultEntry.password hsame)
  refine ⟨hid, ?_, ?_, ?_⟩
  · rw [hc, Credential.written, ← hurl]
    exact sanitize_eq_iff.2 (encodable_address (Text.encodable_str _))
  · rw [hc, Credential.written, ← huser]
    exact sanitize_eq_iff.2 (Text.encodable_str _)
  · rw [hc, Credential.written, ← hsecret]
    exact sanitize_eq_iff.2 (Text.encodable_str _)

theorem HoldsUser.atMostOne : AtMostOne (workflow userPrompt) v := by
  intro c d _ hc hd _ _ _
  have hsame : c.id = d.id := (h.record hc).1.trans (h.record hd).1.symm
  have hread : retrieve userPrompt.platform v c.id = .ok d := hsame ▸ hd
  exact Except.ok.inj (hc.symm.trans hread)

theorem HoldsUser.lists : ∃ items, list userPrompt.platform v = .ok items :=
  (h.held.list_eq_ok h.unlocked).2 urls_keptUser

/-- The record is that of the candidate. -/
theorem HoldsUser.standing :
    ∃ c, Standing (workflow userPrompt) v (candidate user) c ∧ c.password = secret := by
  have hkept : (keptUser id).isSome = true := by
    rw [keptUser, Function.update_self]
    rfl
  obtain ⟨-, -, hreads⟩ := list_eq_ok.1 h.lists
  obtain ⟨c, hread⟩ := hreads id ((h.held.file id).2 hkept)
  obtain ⟨-, hurl, huser, hsecret⟩ := h.record (retrieve_own hread)
  have hsession := savesCandidate_user
  refine ⟨c, ⟨retrieve_own hread, ?_, congrArg some huser⟩, hsecret⟩
  exact normalizeSecureOriginText_eq_ok.2 ⟨site.text, site, congrArg some hurl,
    not_isBlank_text site, by decide, tryCreate_site hsession.url, normalizeSecureOrigin_site hsession.url⟩

end HoldsUser

end Sample

/-- Another username of the site is planned to be saved. -/
theorem evaluateSave_decides_halfPair : ∃ v, Sample.HoldsUser v ∧
    ∃ plan, evaluateSave (Sample.workflow Sample.userPrompt) .ok Sample.settings
        (Sample.candidate Sample.halfPair) v = .ok plan ∧
      Decides (Sample.workflow Sample.userPrompt) v (Sample.candidate Sample.halfPair) plan := by
  have hsession := Sample.savesCandidate_user
  have hassumed := Sample.assumed_workflow hsession.given hsession.url
  obtain ⟨v, hv⟩ := Sample.holdsUser_saved
  refine ⟨v, hv, (evaluateSave_decides_iff hassumed (Sample.tryCreate_site hsession.url)
    (Sample.parse_posted hsession.given hsession.url (by decide) (by decide) (by decide)) rfl
    hv.stored hv.unlocked hv.atMostOne rfl List.not_mem_nil .ok).2
      ⟨by decide, Sample.urls_keptUser, ?_⟩⟩
  rintro c ⟨hread, -, husername⟩
  have hsame : some c.username = some Sample.halfPair := husername
  rw [(hv.record hread).2.2.1] at hsame
  exact absurd hsame (by decide)

/-- A password that is stored already is planned to be updated. -/
theorem evaluateSave_updates_stored : ∃ v, Sample.HoldsUser v ∧
    (Sample.workflow Sample.userPrompt).Assumed ∧ AtMostOne (Sample.workflow Sample.userPrompt) v ∧
    parse (Sample.workflow Sample.userPrompt) (Sample.posted Sample.user) Sample.site =
      .ok (Sample.candidate Sample.user) ∧
    (∃ c, Standing (Sample.workflow Sample.userPrompt) v (Sample.candidate Sample.user) c ∧
      some c.password = (Sample.candidate Sample.user).password) ∧
    ∃ plan, evaluateSave (Sample.workflow Sample.userPrompt) .ok Sample.settings
        (Sample.candidate Sample.user) v = .ok plan ∧ plan.kind = .update ∧
      ¬ Decides (Sample.workflow Sample.userPrompt) v (Sample.candidate Sample.user) plan := by
  have hsession := Sample.savesCandidate_user
  have hassumed := Sample.assumed_workflow hsession.given hsession.url
  have hparse : parse (Sample.workflow Sample.userPrompt) (Sample.posted Sample.user) Sample.site =
      .ok (Sample.candidate Sample.user) :=
    Sample.parse_posted hsession.given hsession.url (by decide) (by decide) (by decide)
  obtain ⟨v, hv⟩ := Sample.holdsUser_saved
  obtain ⟨c, hc, hsecret⟩ := hv.standing
  have hstored : some c.password = (Sample.candidate Sample.user).password := congrArg some hsecret
  have henabled : Sample.settings.passwordSaveEnabled = true := rfl
  obtain ⟨plan, hplan, hkinds⟩ := evaluateSave_planned hassumed
    (parsed_of_parse hassumed (Sample.tryCreate_site hsession.url) hparse) rfl hv.unlocked hv.lists
    henabled List.not_mem_nil (by decide) .ok
  have hupdate : plan.kind = .update := by
    rcases hkinds with ⟨-, hnew⟩ | ⟨hupdate, -⟩
    · exact absurd ⟨c, hc⟩ hnew
    · exact hupdate
  refine ⟨v, hv, hassumed, hv.atMostOne, hparse, ⟨c, hc, hstored⟩, plan, hplan, hupdate, ?_⟩
  intro hdecides
  have hnone := hdecides.none.2 ⟨c, hc, hstored⟩
  rw [hupdate] at hnone
  cases hnone

end ZsecShield.Browser
