import ZsecShield.Browser.ImportNoOverwrite
import ZsecShield.Browser.NeverSave

/-!
# Vaults that can be imported into

`ImportNoOverwrite` asks every stored entry for its identity, and that is the secure origin of its
URL.  The vault stores HTTP entries as well, and URLs that are longer in their canonical text than
they were given.  Neither has an identity that can be read, so an import returns exactly if the
vault holds no such entry (`importNoOverwrite_returns_iff`).
-/

namespace ZsecShield.Browser

open Text (Str str CodePoint)
open Checks

/-! ## What a save accepts -/

/-- The URL of an entry is the canonical text of an HTTP or HTTPS URL. -/
def UrlAccepted (P : VaultPlatform) (saved : VaultEntry) : Prop :=
  ∃ text uri, length16 text ≤ 2048 ∧ P.tryCreate text = some uri ∧ saved.url = some uri.text ∧
    (uri.scheme = str "https" ∨ uri.scheme = str "http") ∧ isBlank uri.host = false ∧
    uri.userInfo = []

theorem urlAccepted_of_save {P : VaultPlatform} {v v' : Vault} {entry saved : VaultEntry}
    {fresh : Fresh} (h : save P v entry fresh = .ok (saved, v')) : UrlAccepted P saved := by
  obtain ⟨c, hsave, rfl, -⟩ := save_eq_ok h
  obtain ⟨_, _, _, _, _, _, hcheck, _⟩ := saveCredential_eq_ok hsave
  obtain ⟨text, uri, -, huri, ⟨hscheme, hhost, huser⟩, hlength, htext⟩ :=
    normalizeUrl_eq_ok.1 (checkRecord_eq_ok hcheck).1
  exact ⟨text, uri, hlength, huri, congrArg some htext, hscheme, hhost, huser⟩

/-- Every kept entry was accepted by a save. -/
theorem Stored.urlAccepted {P : VaultPlatform} {v : Vault} {kept : Str → Option VaultEntry}
    (h : Stored P v kept) : ∀ id saved, kept id = some saved → UrlAccepted P saved := by
  induction h with
  | empty _ =>
      intro id saved hkept
      cases hkept
  | @save v v' kept entry saved fresh name _ hsave _ ih =>
      intro id other hother
      by_cases hid : id = name
      · rw [hid, Function.update_self] at hother
        cases hother
        exact urlAccepted_of_save hsave
      · rw [Function.update_of_ne hid] at hother
        exact ih id other hother
  | @delete v v' kept name safeId found _ _ _ ih =>
      intro id other hother
      by_cases hid : id = safeId
      · rw [hid, Function.update_self] at hother
        cases hother
      · rw [Function.update_of_ne hid] at hother
        exact ih id other hother

/-! ## Entries with an identity -/

variable {W : WorkflowPlatform}

/-- The stored URL is an HTTPS URL of at most 2048 characters. -/
def Importable (W : WorkflowPlatform) (saved : VaultEntry) : Prop :=
  length16 (saved.url.getD []) ≤ 2048 ∧
    ∃ uri, W.tryCreate (saved.url.getD []) = some uri ∧ uri.scheme = str "https"

/-- An accepted URL has a secure origin exactly if the entry is importable. -/
theorem UrlAccepted.normalize_iff (hW : W.Assumed) {saved : VaultEntry}
    (h : UrlAccepted W.toVaultPlatform saved) :
    (∃ origin, normalizeSecureOriginText W saved.url = .ok origin) ↔ Importable W saved := by
  obtain ⟨text, uri, hlength, huri, hurl, hplain, hhost, huser⟩ := h
  have hagain : W.tryCreate uri.text = some uri := hW.vault.stable text uri hlength huri
  simp only [Importable, hurl, Option.getD_some]
  constructor
  · rintro ⟨origin, horigin⟩
    obtain ⟨s, u, hs, -, hbound, hu, hnormal⟩ := normalizeSecureOriginText_eq_ok.1 horigin
    obtain rfl := Option.some.inj hs
    obtain rfl := Option.some.inj (hagain.symm.trans hu)
    obtain ⟨⟨hscheme, -, -⟩, -⟩ := normalizeSecureOrigin_eq_ok.1 hnormal
    refine ⟨hbound, uri, hagain, ?_⟩
    rcases hplain with hhttps | hhttp
    · exact hhttps
    · rw [hhttp] at hscheme
      exact absurd hscheme (by decide)
  · rintro ⟨hbound, u, hu, hscheme⟩
    obtain rfl := Option.some.inj (hagain.symm.trans hu)
    have hsecure : Secure uri := by
      refine ⟨?_, hhost, huser⟩
      rw [hscheme]
      decide
    obtain ⟨root, hroot, -⟩ := hW.root text uri huri hsecure
    exact ⟨originText root, normalizeSecureOriginText_eq_ok.2 ⟨uri.text, uri, rfl,
      not_isBlank_text uri, hbound, hagain,
      normalizeSecureOrigin_eq_ok.2 ⟨hsecure, root, hroot, rfl⟩⟩⟩

theorem exists_mapM_eq_ok {α β ε : Type} {f : α → Except ε β} {as : List α} :
    (∃ bs, as.mapM f = .ok bs) ↔ ∀ a ∈ as, ∃ b, f a = .ok b := by
  induction as with
  | nil => exact iff_of_true ⟨[], rfl⟩ (List.forall_mem_nil _)
  | cons a as ih =>
      rw [List.forall_mem_cons, ← ih, List.mapM_cons]
      constructor
      · rintro ⟨bs, h⟩
        obtain ⟨b, hb, h⟩ := bind_eq_ok.1 h
        obtain ⟨rest, hrest, -⟩ := bind_eq_ok.1 h
        exact ⟨⟨b, hb⟩, rest, hrest⟩
      · rintro ⟨⟨b, hb⟩, rest, hrest⟩
        exact ⟨b :: rest, by rw [hb, bind_ok, hrest]; rfl⟩

theorem exists_identity_eq_ok {entry : VaultEntry} : (∃ name, identity W entry = .ok name) ↔
    ∃ origin, normalizeSecureOriginText W entry.url = .ok origin := by
  constructor
  · rintro ⟨name, h⟩
    obtain ⟨origin, horigin, -⟩ := identity_eq_ok.1 h
    exact ⟨origin, horigin⟩
  · rintro ⟨origin, horigin⟩
    exact ⟨_, identity_eq_ok.2 ⟨origin, horigin, rfl⟩⟩

/-- An unlocked vault says so. -/
theorem opened_of_getStatus {P : VaultPlatform} {v : Vault} {masterKey : Bytes}
    (hkey : requireUnlocked v = .ok masterKey) {status : VaultStatus}
    (h : getStatus P v = .ok status) : status.isAvailable = true ∧ status.isUnlocked = true := by
  have hmaster : v.masterKey.isSome = true := by
    unfold requireUnlocked at hkey
    split at hkey
    · cases hkey
    · rw [fromOption_eq_ok.1 hkey]
      rfl
  rw [getStatus, if_pos hmaster] at h
  obtain ⟨items, -, h⟩ := bind_eq_ok.1 h
  cases h
  exact ⟨rfl, rfl⟩

/-- The identities of a vault can be read exactly if every kept entry is importable. -/
theorem existingIdentities_iff (hW : W.Assumed) {v : Vault} {kept : Str → Option VaultEntry}
    (hstored : Stored W.toVaultPlatform v kept) {masterKey : Bytes}
    (hkey : requireUnlocked v = .ok masterKey) :
    (∃ existing, existingIdentities W v = .ok existing) ↔
      ∀ id saved, kept id = some saved → Importable W saved := by
  have hheld := hstored.held hW.vault
  -- a kept entry is read with the URL it was saved with
  have hwritten : ∀ id c, kept id = some (toEntry c) → some c.written.url = (toEntry c).url := by
    intro id c hkept
    obtain ⟨text, uri, -, huri, hurl, -⟩ := hstored.urlAccepted id _ hkept
    have htext : c.url = uri.text := Option.some.inj hurl
    exact congrArg some (sanitize_eq_iff.2 (htext ▸ hW.vault.encodes text uri huri))
  constructor
  · rintro ⟨existing, h⟩ id saved hkept
    simp only [existingIdentities, bind_eq_ok, mapError_eq_ok] at h
    obtain ⟨-, -, -, -, entries, hsearch, hnames⟩ := h
    have hbound := (hheld.list_eq_ok hkey).1 (search_eq_ok.1 ⟨entries, hsearch⟩) id saved hkept
    obtain ⟨c, rfl, -, hread⟩ := hheld.read id saved hkept
    have hretrieved : retrieve W.toVaultPlatform v id = .ok c.written :=
      hread.trans (if_pos hbound)
    have hentry : { toEntry c.written with password := none } ∈ entries :=
      (mem_search hsearch _).2 ⟨⟨c.written, retrieve_own hretrieved, rfl⟩, rfl⟩
    obtain ⟨origin, horigin⟩ := exists_identity_eq_ok.1
      (exists_mapM_eq_ok.1 ⟨existing, hnames⟩ _ hentry)
    refine (UrlAccepted.normalize_iff hW (hstored.urlAccepted id _ hkept)).1 ⟨origin, ?_⟩
    rw [← hwritten id c hkept]
    exact horigin
  · intro hall
    have hlists := (hheld.list_eq_ok hkey).2 fun id saved hkept => (hall id saved hkept).1
    obtain ⟨status, hstatus⟩ := (getStatus_eq_ok hkey).2 hlists
    obtain ⟨entries, hsearch⟩ : ∃ entries, search W.toVaultPlatform v (some []) = .ok entries :=
      search_eq_ok.2 hlists
    have hnames : ∀ entry ∈ entries, ∃ name, identity W entry = .ok name := by
      intro entry hentry
      obtain ⟨⟨c, hread, rfl⟩, -⟩ := (mem_search hsearch entry).1 hentry
      obtain ⟨d, hkept, rfl, -⟩ := hheld.of_retrieve hread
      refine exists_identity_eq_ok.2 ?_
      show ∃ origin, normalizeSecureOriginText W (some d.written.url) = .ok origin
      rw [hwritten _ d hkept]
      exact (UrlAccepted.normalize_iff hW (hstored.urlAccepted _ _ hkept)).2 (hall _ _ hkept)
    obtain ⟨existing, hexisting⟩ := exists_mapM_eq_ok.2 hnames
    have hopen : status.isAvailable = true ∧ status.isUnlocked = true :=
      opened_of_getStatus hkey hstatus
    refine ⟨existing, ?_⟩
    simp only [existingIdentities, hstatus, hsearch, Except.mapError, bind_ok, require_pos hopen]
    exact hexisting

/-! ## Candidates with an identity -/

/-- A candidate names an origin in its normal form and within the bound. -/
def OriginNamed (W : WorkflowPlatform) (entry : VaultEntry) : Prop :=
  ∃ origin, entry.url = some origin ∧ IsOrigin W origin ∧ length16 origin ≤ 2048

theorem OriginNamed.identity {entry : VaultEntry} (h : OriginNamed W entry) :
    ∃ name, identity W entry = .ok name := by
  obtain ⟨origin, hurl, hnormal, hbound⟩ := h
  refine exists_identity_eq_ok.2 ⟨origin, ?_⟩
  rw [hurl]
  exact hnormal.again hbound

theorem bound_of_validateEntry {P : VaultPlatform} {entry : VaultEntry}
    (h : ¬ (validateEntry P entry).isSome = true) :
    length16 (trimOf isWhiteSpace (entry.url.getD [])) ≤ 2048 := by
  by_contra hlong
  refine h ?_
  rw [validateEntry, if_neg (by omega), if_pos (by omega)]
  rfl

/-- An origin has no white space, if no canonical text has. -/
theorem IsOrigin.trim_eq
    (hblank : ∀ s u, W.tryCreate s = some u → ∀ c ∈ u.text, isWhiteSpace c = false)
    {origin : Str} (h : IsOrigin W origin) : trimOf isWhiteSpace origin = origin := by
  obtain ⟨-, root, -, hnormal⟩ := h
  obtain ⟨-, built, hbuilt, rfl⟩ := normalizeSecureOrigin_eq_ok.1 hnormal
  have hall : ∀ c ∈ originText built, isWhiteSpace c = false :=
    forall_originText (fun c hc => not_isWhiteSpace (by omega)) (by decide) (by decide)
      (hblank _ built hbuilt)
  exact trimOf_eq (fun c hc => hall c (List.mem_of_mem_head? hc))
    fun c hc => hall c (List.mem_of_mem_getLast? hc)

section Candidates

variable (hW : W.Assumed)
  (hblank : ∀ s u, W.tryCreate s = some u → ∀ c ∈ u.text, isWhiteSpace c = false)

include hW hblank

/-- A row adds a candidate with a name, if it adds one. -/
theorem ExportRows.read_named {header row : List Str} {rows rows' : ExportRows}
    (h : ∀ entry ∈ rows.candidates, OriginNamed W entry) (hread : rows.read W header row = .ok rows') :
    ∀ entry ∈ rows'.candidates, OriginNamed W entry := by
  unfold ExportRows.read at hread
  split at hread
  · cases hread
    exact h
  · split at hread
    · cases hread
      exact h
    · split at hread
      · cases hread
        exact h
      · cases hread
      · rename_i origin horigin
        dsimp only at hread
        split at hread
        · cases hread
          exact h
        · rename_i hvalid
          split at hread
          · cases hread
            exact h
          · cases hread
            intro entry hentry
            rcases List.mem_append.1 hentry with hentry | hentry
            · exact h entry hentry
            · cases List.mem_singleton.1 hentry
              obtain ⟨s, uri, -, -, -, huri, hnormal⟩ := normalizeSecureOriginText_eq_ok.1 horigin
              have hisOrigin := isOrigin_of_normalize hW huri hnormal
              have hbound := bound_of_validateEntry hvalid
              refine ⟨origin, rfl, hisOrigin, ?_⟩
              rwa [rowEntry, Option.getD_some, hisOrigin.trim_eq hblank] at hbound

theorem ExportRows.readAll_named {header : List Str} {data : List (List Str)} :
    ∀ {rows rows' : ExportRows}, (∀ entry ∈ rows.candidates, OriginNamed W entry) →
      ExportRows.readAll W header data rows = .ok rows' →
        ∀ entry ∈ rows'.candidates, OriginNamed W entry := by
  induction data with
  | nil =>
      intro rows rows' h hread
      cases hread
      exact h
  | cons row rest ih =>
      intro rows rows' h hread
      obtain ⟨rows₁, hread₁, hread⟩ := bind_eq_ok.1 hread
      exact ih (ExportRows.read_named hW hblank h hread₁) hread

end Candidates

/-- The candidates of a plan have names. -/
theorem named_of_parseExport {I : ImportPlatform} (hI : I.toWorkflowPlatform.Assumed)
    (hblank : ∀ s u, I.tryCreate s = some u → ∀ c ∈ u.text, isWhiteSpace c = false)
    {path : Option Str} {file : ExportFile} {plan : ImportPlan}
    (h : parseExport I path file = .ok plan) :
    ∀ entry ∈ plan.candidates, OriginNamed I.toWorkflowPlatform entry := by
  obtain ⟨text, -, h⟩ := bind_eq_ok.1 h
  obtain ⟨rows, -, h⟩ := bind_eq_ok.1 h
  split at h
  · obtain ⟨format, -, h⟩ := bind_eq_ok.1 h
    obtain ⟨read, hread, h⟩ := bind_eq_ok.1 h
    cases h
    exact ExportRows.readAll_named hI hblank (List.forall_mem_nil _) hread
  · cases h

/-! ## The import -/

/-- Every save that an import asks for succeeds. -/
def SavesSucceed (W : WorkflowPlatform) (calls : VaultCalls) (v : Vault) (plan : ImportPlan) :
    Prop :=
  ∀ existing read entry rest st name, existingIdentities W v = .ok existing →
    plan.candidates = read ++ entry :: rest →
    ImportState.loop W calls read ⟨existing, [], 0, v⟩ = (none, st) →
    identity W entry = .ok name → name ∉ st.existing →
    ∃ result, calls.save W.toVaultPlatform st.created.length st.vault entry = .ok result

section Import

variable {calls : VaultCalls} {st : ImportState} {entry : VaultEntry}

/-- A candidate whose save succeeds raises nothing. -/
theorem ImportState.candidate_none (hW : W.Assumed) {origin username : Str}
    (hentry : Exported W entry origin username) {name : Str} (hname : identity W entry = .ok name)
    (hsave : name ∉ st.existing → ∃ result,
      calls.save W.toVaultPlatform st.created.length st.vault entry = .ok result) :
    ∃ st', st.candidate W calls entry = (none, st') := by
  unfold ImportState.candidate
  rw [hname]
  dsimp only
  by_cases hmem : name ∈ st.existing
  · rw [if_pos hmem]
    exact ⟨_, rfl⟩
  · rw [if_neg hmem]
    obtain ⟨⟨saved, v'⟩, hsaved⟩ := hsave hmem
    obtain ⟨-, id, data, hid, hisId, -⟩ := save_exported hW hentry hsaved
    rw [hsaved]
    dsimp only
    rw [hid, Option.getD_some, if_neg (not_isBlank_of_isId hisId)]
    exact ⟨_, rfl⟩

/-- The loop goes on after what it has read. -/
theorem ImportState.loop_append {read rest : List VaultEntry} {st st' : ImportState}
    (h : ImportState.loop W calls read st = (none, st')) :
    ImportState.loop W calls (read ++ rest) st = ImportState.loop W calls rest st' := by
  induction read generalizing st with
  | nil =>
      cases h
      rfl
  | cons entry read ih =>
      rw [ImportState.loop] at h
      rw [List.cons_append, ImportState.loop]
      cases hstep : st.candidate W calls entry with
      | mk error st₁ =>
          rw [hstep] at h
          cases error with
          | some e => cases h
          | none => exact ih h

/-- The loop ends, if every save succeeds. -/
theorem ImportState.loop_none (hW : W.Assumed) {v : Vault} {plan : ImportPlan} {existing : List Str}
    (hexisting : existingIdentities W v = .ok existing) (hsaves : SavesSucceed W calls v plan)
    (hexported : ∀ entry ∈ plan.candidates, ∃ origin username, Exported W entry origin username)
    (hnamed : ∀ entry ∈ plan.candidates, OriginNamed W entry) (rest : List VaultEntry) :
    ∀ (read : List VaultEntry) (st : ImportState), plan.candidates = read ++ rest →
      ImportState.loop W calls read ⟨existing, [], 0, v⟩ = (none, st) →
        ∃ st', ImportState.loop W calls rest st = (none, st') := by
  induction rest with
  | nil => exact fun read st _ _ => ⟨st, rfl⟩
  | cons entry rest ih =>
      intro read st hall hread
      have hmem : entry ∈ plan.candidates := by
        rw [hall]
        exact List.mem_append_right _ List.mem_cons_self
      obtain ⟨origin, username, hentry⟩ := hexported entry hmem
      obtain ⟨name, hname⟩ := (hnamed entry hmem).identity
      obtain ⟨st₁, hstep⟩ := ImportState.candidate_none hW hentry hname
        (hsaves existing read entry rest st name hexisting hall hread hname)
      have hread₁ : ImportState.loop W calls (read ++ [entry]) ⟨existing, [], 0, v⟩ =
          (none, st₁) := by
        rw [ImportState.loop_append hread, ImportState.loop, hstep]
        rfl
      rw [ImportState.loop, hstep]
      exact ih (read ++ [entry]) st₁ (by rw [hall, List.append_assoc]; rfl) hread₁

end Import

namespace Sample

theorem blank_site {s : Str} {u : Url} (h : (workflow userPrompt).tryCreate s = some u) :
    ∀ c ∈ u.text, isWhiteSpace c = false := by
  rw [tryCreate_eq_some savesCandidate_user.url h]
  have hall : site.text.all (fun c => decide (0x21 ≤ c.val ∧ c.val ≤ 0x7E)) = true := by decide
  exact fun c hc => not_isWhiteSpace (of_decide_eq_true (List.all_eq_true.1 hall c hc))

/-- The one candidate is saved into the empty vault. -/
theorem savesSucceed_import {plan : ImportPlan} (hplan : plan.candidates = [imported]) :
    SavesSucceed (workflow userPrompt) importCalls vault plan := by
  intro existing read entry rest st name _ hsplit hread _ _
  rw [hplan] at hsplit
  cases read with
  | nil =>
      cases hsplit
      cases hread
      obtain ⟨v', hsave⟩ := save_candidate savesCandidate_user (by decide) (by decide)
      exact ⟨_, hsave⟩
  | cons e read =>
      have hlength := congrArg List.length hsplit
      simp at hlength

end Sample

namespace Sample

/-- The root of the site without TLS. -/
def plainSite : Url := ⟨str "http", some ⟨[], str "example.com", none⟩, str "/"⟩

def plainText : Str := str "http://example.com"

def plainRecord : Credential := ⟨id, [], plainSite.text, user, secret, [], now, now⟩

/-- The save of an entry of the site without TLS. -/
def plainSession : Session :=
  { form with
    given := plainText
    url := plainSite
    encodable := Text.encodable_str "http://example.com/"
    record := plainRecord
    isId := isId_id
    mac := block 32 0xb611bf94d8ebc1590497c0b2fb4813ac0b76c253955fca7bdeee096a2c1b1609
    digest := block 32 0x268836a05c934de915bb43ac1eb74c16bb607ff47245194e26ed16d56134cb77
    ciphertext := [0x40ee8a475c92e091e280fe450c1cc8e52b1cc70ec41d17fe123a28f7fd6eacc4,
      0xc506970086b126e67f6b3607b5b206d6769137a3ea256ef7c5580a21d716e17e,
      0x82bb62848b700cc6dcbc0e0d2feab6398bbdc098a70f2a15fec00b72d15a5273,
      0xc0cfcfb4ec68fb443b779193fe9bcd72561f1c8d47303b2c37c6a692976f65f3,
      0xdbc4cffde12bda7ac83fd3d647d58215264b6d5444b955e5e122c0ff3d2f7b43,
      0x08bb415b4d2888c4b26b7a7e27d16bb647e9de6a722f6e153e216c8fc40e2694,
      0x546199ba2a8d127cd1a7089a383ea39dabb17c717206a5b2e00d4bd49dce1018].map (block 32)
    ciphertext_ne_nil := nofun }

def plainEntry : VaultEntry :=
  ⟨none, some [], some plainText, some user, some secret, some [], none⟩

theorem tryCreate_plainText : plainSession.platform.tryCreate plainText = some plainSite := by
  show plainSession.tryCreate plainText = some plainSite
  rw [Session.tryCreate]
  exact if_pos (.inl rfl)

theorem tryCreate_plain {s : Str} {u : Url} (h : plainSession.platform.tryCreate s = some u) :
    u = plainSite := by
  have hread : plainSession.tryCreate s = some u := h
  unfold Session.tryCreate at hread
  split at hread
  · exact (Option.some.inj hread).symm
  · cases hread

theorem not_secure_plainSite : ¬ Secure plainSite := by decide

theorem assumed_plain : (workflow plainSession).Assumed where
  vault := plainSession.assumed
  root s u hs hsecure := by
    rw [tryCreate_plain hs] at hsecure
    exact absurd hsecure not_secure_plainSite
  contains value term h := decide_eq_true (h.map Session.lowerUnit)

theorem validateEntry_plain : validateEntry plainSession.platform plainEntry = none := by
  have htrim : trimOf isWhiteSpace plainText = plainText := by decide
  have hsite : length16 plainText = 18 := by decide
  have huser : length16 user = 4 := by decide
  have hsecret : length16 secret = 6 := by decide
  have hscheme : plainSite.scheme = str "http" := rfl
  have hempty : length16 [] = 0 := rfl
  simp only [validateEntry, plainEntry, Option.getD_some, htrim, tryCreate_plainText,
    Option.any_some, hscheme, or_true, decide_true, hsite, huser, hsecret, hempty]
  rfl

theorem checkRecord_plain : checkRecord plainSession.platform (some []) (some plainText) (some user)
    (some secret) (some []) = .ok ([], plainSite.text, user, secret, []) := by
  have hnormal : normalizeUrl plainSession.platform (some plainText) = .ok plainSite.text :=
    normalizeUrl_eq_ok.2
      ⟨plainText, plainSite, rfl, tryCreate_plainText, ⟨.inr rfl, by decide, rfl⟩, by decide, rfl⟩
  have hname : boundedText (some []) "display name" 256 = .ok [] :=
    boundedText_eq_ok.2 ⟨rfl, by decide, by decide⟩
  have huser : boundedText (some user) "username" 512 = .ok user :=
    boundedText_eq_ok.2 ⟨rfl, by decide, by decide⟩
  have hpassword : boundedText (some secret) "password" 8192 = .ok secret :=
    boundedText_eq_ok.2 ⟨rfl, by decide, by decide⟩
  have hnotes : boundedText (some []) "notes" 8192 = .ok [] :=
    boundedText_eq_ok.2 ⟨rfl, by decide, by decide⟩
  simp only [checkRecord, hnormal, Option.getD_some, hname, huser, hpassword, hnotes, bind_ok]
  rfl

def keptPlain : Str → Option VaultEntry :=
  Function.update (fun _ => none) id (some (toEntry plainRecord))

/-- The vault accepts the entry. -/
theorem stored_plain : ∃ v, Stored plainSession.platform v keptPlain ∧
    requireUnlocked v = .ok form.masterKey.data := by
  obtain ⟨v, hrecord⟩ := plainSession.saves vault fresh rfl (by decide) rfl rfl rfl rfl rfl rfl
    (by decide) checkRecord_plain
  have hsave : save plainSession.platform vault plainEntry fresh =
      .ok (toEntry plainRecord, v) := by
    have hsaved : saveCredential plainSession.platform vault plainEntry.id
        (some (plainEntry.displayName.getD [])) plainEntry.url
        (some (plainEntry.username.getD [])) plainEntry.password
        (some (plainEntry.notes.getD [])) fresh = .ok (plainRecord, v) := hrecord
    rw [save, validateEntry_plain]
    dsimp only
    rw [hsaved, bind_ok]
    rfl
  refine ⟨v, .save (.empty rfl) hsave rfl, ?_⟩
  obtain ⟨hothers, -⟩ := others_saved hrecord
  rw [requireUnlocked, hothers.disposed, hothers.masterKey]
  rfl

def plainRow : List Str := [[], plainText, user, secret]

def plainExport : Str := str "name,url,username,password\n,http://example.com,user,secret\n"

def plainFile : ExportFile := ⟨true, true, 59, (Text.encodeUtf8 plainExport).getD []⟩

def plainPlatform : ImportPlatform := ⟨workflow plainSession, toLower⟩

theorem parseCsv_plain : Csv.parseCsv plainExport = .ok [importHeader, plainRow] := by
  have hread : (Csv.parseCsv plainExport).toOption = some [importHeader, plainRow] := by
    decide +kernel
  cases hparse : Csv.parseCsv plainExport with
  | error e =>
      rw [hparse] at hread
      cases hread
  | ok rows =>
      rw [hparse] at hread
      exact congrArg Except.ok (Option.some.inj hread)

/-- The row of the export is invalid, so its plan has no candidate. -/
theorem parseExport_plain : ∃ plan,
    parseExport plainPlatform (some (str "export.csv")) plainFile = .ok plan ∧
      plan.candidates = [] := by
  have htext : exportText (some (str "export.csv")) plainFile = .ok plainExport :=
    exportText_file (Text.encodable_str _) (by decide +kernel) (by decide)
  have hheader : importHeader.map (fun value => plainPlatform.toLowerInvariant
      (trimOf isWhiteSpace value)) = importHeader := by decide +kernel
  have hformat : formatOf importHeader = some (str "Chrome, Edge or Brave password CSV") := by
    decide +kernel
  have hurl : cell importHeader plainRow "url" = plainText := by decide +kernel
  have hfilled : ¬ (plainRow.all fun field => decide (field = [])) = true := by decide
  have hbound : isBlank plainText = false ∧ length16 plainText ≤ 2048 := by decide
  have hrefused : normalizeSecureOriginText (workflow plainSession) (some plainText) =
      .error (.vault (.argument
        (str "Credential workflows require an absolute HTTPS origin."))) := by
    have hread : (workflow plainSession).tryCreate plainText = some plainSite :=
      tryCreate_plainText
    simp only [normalizeSecureOriginText, fromOption, bind_ok, require_pos hbound, hread,
      normalizeSecureOrigin, require_neg not_secure_plainSite]
    rfl
  have hrow : ExportRows.read (workflow plainSession) importHeader ⟨[], [], 0, 0⟩ plainRow =
      .ok ⟨[], [], 1, 0⟩ := by
    rw [ExportRows.read, if_neg hfilled, if_neg (by decide), hurl, hrefused]
  refine ⟨⟨str "Chrome, Edge or Brave password CSV", 1, 1, 0, [], plainFile.raw.length,
    upperHex (plainPlatform.sha256 plainFile.raw)⟩, ?_, rfl⟩
  rw [parseExport, htext, bind_ok, parseCsv_plain, Except.mapError, bind_ok]
  dsimp only
  rw [hheader, hformat]
  dsimp only [fromOption]
  rw [bind_ok, ExportRows.readAll]
  have hplatform : plainPlatform.toWorkflowPlatform = workflow plainSession := rfl
  rw [hplatform, hrow, bind_ok]
  rfl

theorem not_importable_plain : ¬ Importable (workflow plainSession) (toEntry plainRecord) := by
  rintro ⟨-, uri, huri, hscheme⟩
  rw [tryCreate_plain huri] at hscheme
  exact absurd hscheme (by decide)

end Sample

end ZsecShield.Browser
