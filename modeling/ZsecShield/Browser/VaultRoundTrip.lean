import ZsecShield.Browser.VaultSession

/-!
# What a save leaves readable

After a save the other records read as before, and the saved one reads back as its bytes hold it
if the normalized URL is within the bound that the given one was checked against.  One record that
cannot be read stops every listing of the vault.
-/

namespace ZsecShield.Browser

open Text (Str str CodePoint)
open Checks

variable {P : VaultPlatform}

/-! ## One record -/

/-- Reading a record looks at its own file only. -/
theorem retrieve_congr {v v' : Vault} (hdisposed : v'.disposed = v.disposed)
    (hkey : v'.masterKey = v.masterKey) {id : Str}
    (hfile : ∀ safeId, validateId id = .ok safeId →
      Json.lookup safeId v'.records = Json.lookup safeId v.records) :
    retrieve P v' id = retrieve P v id := by
  have hunlocked : requireUnlocked v' = requireUnlocked v := by
    rw [requireUnlocked, requireUnlocked, hdisposed, hkey]
  cases hid : validateId id with
  | error e => simp only [retrieve, hunlocked, hid]; rfl
  | ok safeId =>
      simp only [retrieve, hunlocked, hid, bind_ok, readEnvelope, readObject, hfile safeId hid]

theorem retrieve_id {v : Vault} {id : Str} {c : Credential} (h : retrieve P v id = .ok c) :
    validateId id = .ok c.id := by
  obtain ⟨masterKey, safeId, members, plaintext, -, hid, -, -, hc⟩ := retrieve_eq_ok.1 h
  simp only [readCredential, bind_eq_ok] at hc
  obtain ⟨_, _, raw, _, _, _, _, _, _, _, _, _, _, _, _, _, hc⟩ := hc
  cases hc
  exact hid

/-- A record that is read by a name is read by its id. -/
theorem retrieve_own {v : Vault} {id : Str} {c : Credential} (h : retrieve P v id = .ok c) :
    retrieve P v c.id = .ok c := by
  obtain ⟨masterKey, safeId, members, plaintext, hkey, hid, hmembers, hplaintext, hc⟩ :=
    retrieve_eq_ok.1 h
  have hsame : safeId = c.id := Except.ok.inj (hid.symm.trans (retrieve_id h))
  subst hsame
  exact retrieve_eq_ok.2 ⟨masterKey, c.id, members, plaintext, hkey,
    validateId_of_isId (isId_of_validateId hid), hmembers, hplaintext, hc⟩

section Saved

variable {v v' : Vault} {id displayName url username password notes : Option Str} {fresh : Fresh}
  {c : Credential}

/-- What `Retrieve` gives for a record just saved. -/
theorem retrieve_saved (hP : P.Assumed)
    (h : saveCredential P v id displayName url username password notes fresh = .ok (c, v')) :
    retrieve P v' c.id = if length16 c.url ≤ 2048 then .ok c.written
      else .error (.argument (str "Credential URL must be a bounded HTTP(S) URL.")) := by
  obtain ⟨masterKey, text, d, created, creating, hkey, hcheck, hidentify, htext, hseal, hwrite⟩ :=
    saveCredential_eq_ok h
  have hid := isId_of_identify hidentify
  obtain ⟨hbounded, hread⟩ := readEnvelope_written hP hid hseal hwrite
  obtain ⟨-, henvelope, -⟩ := sealRecord_eq_ok hseal
  obtain ⟨_, _, _, _, _, hv'⟩ := writeJsonAtomic_eq_ok hwrite
  have hunlocked : requireUnlocked v' = .ok masterKey := by
    rw [hv']
    exact hkey
  rw [henvelope] at hbounded hread
  simp only [retrieve, hunlocked, validateId_of_isId hid, hread, bind_ok,
    decryptEnvelope_encryptEnvelope hP hbounded]
  exact readCredential_written hP hid ⟨_, _, _, _, _, hcheck⟩ htext

/-- The other records are read as before. -/
theorem retrieve_other
    (h : saveCredential P v id displayName url username password notes fresh = .ok (c, v'))
    {stem : Str} (hstem : validateId stem ≠ .ok c.id) : retrieve P v' stem = retrieve P v stem := by
  obtain ⟨_, _, _, _, _, _, _, _, _, _, hwrite⟩ := saveCredential_eq_ok h
  obtain ⟨text, _, _, _, _, hv'⟩ := writeJsonAtomic_eq_ok hwrite
  refine retrieve_congr (by rw [hv']) (by rw [hv']) ?_
  intro safeId hid
  have hne : c.id ≠ safeId := by
    rintro rfl
    exact hstem hid
  rw [hv']
  exact (Json.lookup_insertMember _ _ _ _).trans (if_neg hne)

/-- The names of the files after a save; there is room for the new one. -/
theorem records_saved
    (h : saveCredential P v id displayName url username password notes fresh = .ok (c, v')) :
    (∀ stem, stem ∈ v'.records.map Prod.fst ↔ stem ∈ v.records.map Prod.fst ∨ stem = c.id) ∧
      (v.records.length ≤ maximumRecords → v'.records.length ≤ maximumRecords) := by
  obtain ⟨_, _, _, _, creating, _, _, hidentify, _, _, hwrite⟩ := saveCredential_eq_ok h
  obtain ⟨text, _, _, _, _, hv'⟩ := writeJsonAtomic_eq_ok hwrite
  have hkeys := Json.keys_insertMember v.records c.id (getBytes text)
  have hlength : v'.records.length = (v'.records.map Prod.fst).length := (List.length_map _).symm
  rw [hlength, hv', hkeys]
  by_cases hmem : c.id ∈ v.records.map Prod.fst
  · rw [if_pos hmem, List.length_map]
    refine ⟨fun stem => ⟨.inl, ?_⟩, fun hroom => hroom⟩
    rintro (hstem | rfl)
    · exact hstem
    · exact hmem
  · rw [if_neg hmem, List.length_append, List.length_map]
    refine ⟨fun stem => by simp, fun _ => ?_⟩
    obtain ⟨_, hroom, h⟩ := bind_eq_ok.1 hidentify
    rw [require_eq_ok] at hroom
    split at h
    · rename_i hcreating
      have hless : ¬ maximumRecords ≤ v.records.length := fun hfull => hroom ⟨hcreating, hfull⟩
      exact Nat.lt_of_not_le hless
    · -- an update reads the file first
      obtain ⟨safeId, _, h⟩ := bind_eq_ok.1 h
      obtain ⟨previous, hprevious, h⟩ := bind_eq_ok.1 h
      have hsame : safeId = c.id := congrArg Prod.fst (Except.ok.inj h)
      subst hsame
      have hfile : Json.lookup c.id v.records = none := Json.lookup_eq_none.2 hmem
      obtain ⟨_, _, _, _, _, hid, hread, _, _⟩ := retrieve_eq_ok.1 hprevious
      rw [validateId_of_isId (isId_of_identify hidentify)] at hid
      cases hid
      simp [readEnvelope, readObject, hfile, fromOption, bind_eq_ok] at hread

end Saved

/-! ## Listings -/

theorem listFrom_eq_ok (v : Vault) (count : Nat) (stems : List Str) :
    (∃ items, listFrom P v count stems = .ok items) ↔
      (stems ≠ [] → count + stems.length ≤ maximumRecords) ∧
        ∀ stem ∈ stems, ∃ c, retrieve P v stem = .ok c := by
  induction stems generalizing count with
  | nil => simp [listFrom]
  | cons stem stems ih =>
      rw [List.forall_mem_cons, List.length_cons]
      constructor
      · rintro ⟨items, h⟩
        simp only [listFrom, bind_eq_ok, require_eq_ok] at h
        obtain ⟨-, hcount, c, hc, rest, hrest, -⟩ := h
        obtain ⟨hlength, hall⟩ := (ih _).1 ⟨rest, hrest⟩
        refine ⟨fun _ => ?_, ⟨c, hc⟩, hall⟩
        cases stems with
        | nil => exact hcount
        | cons s stems =>
            have := hlength (List.cons_ne_nil _ _)
            omega
      · rintro ⟨hlength, ⟨c, hc⟩, hall⟩
        have hcount := hlength (List.cons_ne_nil _ _)
        obtain ⟨rest, hrest⟩ := (ih (count + 1)).2 ⟨fun _ => by omega, hall⟩
        have hroom : count < maximumRecords := by omega
        exact ⟨_, by simp only [listFrom, require_pos hroom, hc, hrest, bind_ok]; rfl⟩

/-- A listing of the vault succeeds exactly if every file in it can be read. -/
theorem list_eq_ok {v : Vault} :
    (∃ items, list P v = .ok items) ↔ (∃ masterKey, requireUnlocked v = .ok masterKey) ∧
      v.records.length ≤ maximumRecords ∧
      ∀ stem ∈ v.records.map Prod.fst, ∃ c, retrieve P v stem = .ok c := by
  constructor
  · rintro ⟨items, h⟩
    obtain ⟨masterKey, hkey, h⟩ := bind_eq_ok.1 h
    obtain ⟨found, hfound, -⟩ := bind_eq_ok.1 h
    obtain ⟨hlength, hall⟩ := (listFrom_eq_ok _ _ _).1 ⟨found, hfound⟩
    refine ⟨⟨masterKey, hkey⟩, ?_, hall⟩
    by_cases hempty : v.records.map Prod.fst = []
    · rw [List.map_eq_nil_iff] at hempty
      simp [hempty]
    · simpa using hlength hempty
  · rintro ⟨⟨masterKey, hkey⟩, hlength, hall⟩
    obtain ⟨found, hfound⟩ := (listFrom_eq_ok v 0 _).2 ⟨fun _ => by simpa using hlength, hall⟩
    exact ⟨_, by simp only [list, hkey, hfound, bind_ok]; rfl⟩

/-- The summaries are those of records that were read. -/
theorem retrieve_of_mem_listFrom {v : Vault} {count : Nat} {stems : List Str}
    {items : List CredentialSummary} (h : listFrom P v count stems = .ok items) :
    ∀ item ∈ items, ∃ c, retrieve P v item.id = .ok c := by
  induction stems generalizing count items with
  | nil =>
      cases h
      exact List.forall_mem_nil _
  | cons stem stems ih =>
      simp only [listFrom, bind_eq_ok] at h
      obtain ⟨_, _, c, hc, rest, hrest, h⟩ := h
      cases h
      exact List.forall_mem_cons.2 ⟨⟨c, retrieve_own hc⟩, ih hrest⟩

theorem entriesOf_eq_ok {v : Vault} {items : List CredentialSummary}
    (h : ∀ item ∈ items, ∃ c, retrieve P v item.id = .ok c) :
    ∃ entries, entriesOf P v items = .ok entries := by
  induction items with
  | nil => exact ⟨[], rfl⟩
  | cons item items ih =>
      obtain ⟨⟨c, hc⟩, hall⟩ := List.forall_mem_cons.1 h
      obtain ⟨entries, hentries⟩ := ih hall
      exact ⟨_, by simp only [entriesOf, hc, hentries, bind_ok]; rfl⟩

/-- A search succeeds exactly if a listing does. -/
theorem search_eq_ok {v : Vault} {query : Option Str} :
    (∃ entries, search P v query = .ok entries) ↔ ∃ items, list P v = .ok items := by
  constructor
  · rintro ⟨entries, h⟩
    obtain ⟨items, hitems, -⟩ := bind_eq_ok.1 h
    exact ⟨items, hitems⟩
  · rintro ⟨items, hitems⟩
    obtain ⟨masterKey, -, h⟩ := bind_eq_ok.1 hitems
    obtain ⟨found, hfound, h⟩ := bind_eq_ok.1 h
    cases h
    have hall : ∀ item ∈ ordered found, ∃ c, retrieve P v item.id = .ok c := fun item hitem =>
      retrieve_of_mem_listFrom hfound item ((List.mergeSort_perm _ _).mem_iff.1 hitem)
    obtain ⟨entries, hentries⟩ := entriesOf_eq_ok hall
    exact ⟨_, by simp only [search, hitems, hentries, bind_ok]; rfl⟩

/-- What is read by a name depends on the id it stands for. -/
theorem retrieve_of_validateId {v : Vault} {stem safeId : Str} (h : validateId stem = .ok safeId) :
    retrieve P v stem = retrieve P v safeId := by
  simp only [retrieve, h, validateId_of_isId (isId_of_validateId h)]

/-- After a save the vault lists exactly if the URL that was saved is still within the bound. -/
theorem list_saved (hP : P.Assumed) {v v' : Vault}
    {id displayName url username password notes : Option Str} {fresh : Fresh} {c : Credential}
    (h : saveCredential P v id displayName url username password notes fresh = .ok (c, v'))
    (hbefore : ∃ items, list P v = .ok items) :
    (∃ items, list P v' = .ok items) ↔ length16 c.url ≤ 2048 := by
  have hsaved := retrieve_saved hP h
  obtain ⟨hstems, hroom⟩ := records_saved h
  obtain ⟨⟨masterKey, hkey⟩, hlength, hall⟩ := list_eq_ok.1 hbefore
  rw [list_eq_ok]
  constructor
  · rintro ⟨-, -, hall'⟩
    obtain ⟨read, hread⟩ := hall' c.id ((hstems _).2 (.inr rfl))
    by_contra hlong
    rw [hsaved, if_neg hlong] at hread
    cases hread
  · intro hbound
    rw [if_pos hbound] at hsaved
    refine ⟨?_, hroom hlength, ?_⟩
    · obtain ⟨_, _, _, _, hkey', _⟩ := retrieve_eq_ok.1 hsaved
      exact ⟨_, hkey'⟩
    · intro stem hstem
      by_cases hid : validateId stem = .ok c.id
      · exact ⟨c.written, (retrieve_of_validateId hid).trans hsaved⟩
      · rw [retrieve_other h hid]
        rcases (hstems stem).1 hstem with hstem | rfl
        · exact hall stem hstem
        · obtain ⟨_, _, _, _, _, _, _, hidentify, _⟩ := saveCredential_eq_ok h
          exact absurd (validateId_of_isId (isId_of_identify hidentify)) hid

/-! ## The promise of a save -/

/-- `Get` gives the saved texts back, and what listed the vault before lists it now. -/
structure RoundTrip (P : VaultPlatform) (v v' : Vault) (entry saved : VaultEntry) : Prop where
  got : ∃ id read, saved.id = some id ∧ get P v' id = .ok read ∧
    read.displayName = some (entry.displayName.getD []) ∧ read.url = saved.url ∧
    read.username = some (entry.username.getD []) ∧ read.password = entry.password ∧
    read.notes = some (entry.notes.getD [])
  lists : (∃ items, list P v = .ok items) → ∃ items, list P v' = .ok items
  searches : (∀ query, ∃ entries, search P v query = .ok entries) →
    ∀ query, ∃ entries, search P v' query = .ok entries
  reports : (∃ status, getStatus P v = .ok status) → ∃ status, getStatus P v' = .ok status

/-- The URL is within the bound in its normalized form too, and no text holds an unpaired
surrogate. -/
def KeepsItsForm (P : VaultPlatform) (entry : VaultEntry) : Prop :=
  (∀ url uri, entry.url = some url → P.tryCreate url = some uri → length16 uri.text ≤ 2048) ∧
    Text.Encodable (entry.displayName.getD []) ∧ Text.Encodable (entry.username.getD []) ∧
    Text.Encodable (entry.password.getD []) ∧ Text.Encodable (entry.notes.getD [])

/-- What `Save` has given to the vault. -/
theorem save_eq_ok {v v' : Vault} {entry saved : VaultEntry} {fresh : Fresh}
    (h : save P v entry fresh = .ok (saved, v')) :
    ∃ c, saveCredential P v entry.id (some (entry.displayName.getD [])) entry.url
        (some (entry.username.getD [])) entry.password (some (entry.notes.getD [])) fresh =
          .ok (c, v') ∧ saved = toEntry c ∧
      c.displayName = entry.displayName.getD [] ∧ c.username = entry.username.getD [] ∧
      entry.password = some c.password ∧ c.notes = entry.notes.getD [] ∧
      ∃ url uri, entry.url = some url ∧ P.tryCreate url = some uri ∧ c.url = uri.text := by
  unfold save at h
  split at h
  · cases h
  · obtain ⟨⟨c, w⟩, hsave, h⟩ := bind_eq_ok.1 h
    cases h
    obtain ⟨_, _, _, _, _, _, hcheck, _⟩ := saveCredential_eq_ok hsave
    obtain ⟨hurl, hname, huser, hpassword, hnotes⟩ := checkRecord_eq_ok hcheck
    obtain ⟨url, uri, hvalue, huri, _, _, htext⟩ := normalizeUrl_eq_ok.1 hurl
    exact ⟨c, hsave, rfl, (Option.some.inj (boundedText_eq_ok.1 hname).1).symm,
      (Option.some.inj (boundedText_eq_ok.1 huser).1).symm, (boundedText_eq_ok.1 hpassword).1,
      (Option.some.inj (boundedText_eq_ok.1 hnotes).1).symm, url, uri, hvalue, huri, htext⟩

/-- The status of an unlocked vault counts its records. -/
theorem getStatus_eq_ok {v : Vault} {masterKey : Bytes} (h : requireUnlocked v = .ok masterKey) :
    (∃ status, getStatus P v = .ok status) ↔ ∃ items, list P v = .ok items := by
  have hkey : v.masterKey = some masterKey := by
    unfold requireUnlocked at h
    split at h
    · cases h
    · exact fromOption_eq_ok.1 h
  rw [getStatus, if_pos (by rw [hkey]; rfl)]
  constructor
  · rintro ⟨status, h⟩
    obtain ⟨items, hitems, -⟩ := bind_eq_ok.1 h
    exact ⟨items, hitems⟩
  · rintro ⟨items, hitems⟩
    exact ⟨_, by simp only [hitems, bind_ok]; rfl⟩

/-- A save keeps its promise exactly if its texts keep their form. -/
theorem round_trip_iff_keepsItsForm (hP : P.Assumed) {v v' : Vault} {entry saved : VaultEntry}
    {fresh : Fresh} (h : save P v entry fresh = .ok (saved, v')) :
    RoundTrip P v v' entry saved ↔ KeepsItsForm P entry := by
  obtain ⟨c, hsave, rfl, hname, huser, hpassword, hnotes, url, uri, hurl, huri, htext⟩ :=
    save_eq_ok h
  have hsaved := retrieve_saved hP hsave
  obtain ⟨masterKey, _, _, _, _, hkey, _, _, _, _, hwrite⟩ := saveCredential_eq_ok hsave
  have hkey' : requireUnlocked v' = .ok masterKey := by
    obtain ⟨_, _, _, _, _, hv'⟩ := writeJsonAtomic_eq_ok hwrite
    rw [hv']
    exact hkey
  have hbounds : (∀ url' uri', entry.url = some url' → P.tryCreate url' = some uri' →
      length16 uri'.text ≤ 2048) ↔ length16 c.url ≤ 2048 := by
    rw [htext]
    constructor
    · intro hall
      exact hall url uri hurl huri
    · intro hbound url' uri' hurl' huri'
      rw [hurl] at hurl'
      cases hurl'
      rw [huri] at huri'
      cases huri'
      exact hbound
  have hform : KeepsItsForm P entry ↔ length16 c.url ≤ 2048 ∧ sanitize c.displayName = c.displayName ∧
      sanitize c.username = c.username ∧ sanitize c.password = c.password ∧
      sanitize c.notes = c.notes := by
    simp only [KeepsItsForm, hbounds, hpassword, ← hname, ← huser, ← hnotes, sanitize_eq_iff,
      Option.getD_some]
  rw [hform]
  constructor
  · rintro ⟨⟨id, read, hid, hget, hreads⟩, -, -, -⟩
    cases hid
    obtain ⟨record, hrecord, hread⟩ := bind_eq_ok.1 hget
    by_cases hbound : length16 c.url ≤ 2048
    · rw [hsaved, if_pos hbound] at hrecord
      cases hrecord
      cases hread
      obtain ⟨hreadName, -, hreadUser, hreadPassword, hreadNotes⟩ := hreads
      rw [hpassword] at hreadPassword
      rw [← hname] at hreadName
      rw [← huser] at hreadUser
      rw [← hnotes] at hreadNotes
      exact ⟨hbound, Option.some.inj hreadName, Option.some.inj hreadUser,
        Option.some.inj hreadPassword, Option.some.inj hreadNotes⟩
    · rw [hsaved, if_neg hbound] at hrecord
      cases hrecord
  · rintro ⟨hbound, hsameName, hsameUser, hsamePassword, hsameNotes⟩
    rw [if_pos hbound] at hsaved
    have hlists (hbefore : ∃ items, list P v = .ok items) : ∃ items, list P v' = .ok items :=
      (list_saved hP hsave hbefore).2 hbound
    constructor
    · refine ⟨c.id, toEntry c.written, rfl, ?_, ?_⟩
      · rw [get, hsaved]
        rfl
      · have hsameUrl : sanitize c.url = c.url := by
          rw [htext]
          exact sanitize_eq_iff.2 (hP.encodes _ _ huri)
        rw [← hname, ← huser, ← hnotes, hpassword]
        simp only [toEntry, Credential.written, hsameName, hsameUser, hsamePassword, hsameNotes,
          hsameUrl, and_self]
    · exact hlists
    · intro hbefore query
      exact search_eq_ok.2 (hlists (search_eq_ok.1 (hbefore none)))
    · intro hbefore
      exact (getStatus_eq_ok hkey').2 (hlists ((getStatus_eq_ok hkey).1 hbefore))

/-! ## Two saves -/

namespace Sample

def id : Str := str "0123456789abcdef0123456789abcdef"

def now : Str := str "2026-01-02T03:04:05.678Z"

theorem isId_id : IsId id := by
  have hall : id.all (fun c => decide (48 ≤ c.val ∧ c.val ≤ 57 ∨ 97 ≤ c.val ∧ c.val ≤ 102)) =
      true := by decide
  exact ⟨by decide, fun c hc => of_decide_eq_true (List.all_eq_true.1 hall c hc)⟩

/-- A URL of `example.com`. -/
def address (rest : Str) : Url := ⟨str "https", some ⟨[], str "example.com", none⟩, rest⟩

theorem text_address (rest : Str) : (address rest).text = str "https://example.com" ++ rest := rfl

theorem encodable_address {rest : Str} (h : Text.Encodable rest) :
    Text.Encodable (address rest).text := by
  rw [text_address, Text.encodable_append]
  exact ⟨Text.encodable_str _, h⟩

def record (rest : Str) : Credential :=
  ⟨id, str "Example account", (address rest).text, str "user", str "secret", [], now, now⟩

/-- A save of the record for a URL, with the keys that follow from the id and the salt. -/
def session (given rest : Str) (h : Text.Encodable rest) (mac digest first : Nat)
    (more : List Nat) : Session where
  given
  url := address rest
  encodable := encodable_address h
  record := record rest
  isId := isId_id
  masterKey := block 32 0x000102030405060708090a0b0c0d0e0f101112131415161718191a1b1c1d1e1f
  salt := block 32 0x202122232425262728292a2b2c2d2e2f303132333435363738393a3b3c3d3e3f
  iv := block 16 0x404142434445464748494a4b4c4d4e4f
  extracted := block 32 0xa27b86e7a70a029cba778d6f738d952696d6d8361b95103dd84ae9df6af063af
  first := block 32 0x1ca8b6c173fb08e6d836430c9b7484a421d18ed08b984915412f92726e913378
  second := block 32 0x4f28113eafed749f2a1ffea6f1bd89f8e5660880d0fc9c38f03ac6dced1f4a39
  mac := block 32 mac
  ciphertext := (first :: more).map (block 32)
  ciphertext_ne_nil := nofun
  digest := block 32 digest

/-- The address of a form, which is canonical as it is given. -/
def formPath : Str := str "/login"

theorem encodable_formPath : Text.Encodable formPath := Text.encodable_str _

def form : Session :=
  session (address formPath).text formPath encodable_formPath
    0x825a8e51e23262f11bc6422104bb1a451dc079718cd123eb914b96f020403582
    0x4188bcc2fadf6019b080632b223cfcb69ec9cef7983efde10bfec6d2d330751b
    0x40ee8a475c92e091e280fe450c1cc8e52b1cc70ec41d17fe123a28f7fd6eacc4
    [0xc506970086b126e67f6b3607b5b206d62d38f8fad92e39065844165d4eb2764d,
      0xa103e11fa9f15ac1b3534e7b7124dc33c4d30ce9e869e2465e2a21a718422dce,
      0xf963a831f6eec273008bf1eb265187df2b609cd5932ab3dfd75d04c42a95541b,
      0x8ae4ef033ff59d0a894e14dfaa0d0e09253594dc64269d5c74f47a21cd4f3071,
      0x0f09d2166ae7dfa963003b8fd628a48b866546e4058fa6eed341bf4d4368559e,
      0x73b08fdc2ce9f40130bd2440bb0535f65e24bb985d237c8591ddaad876170a44,
      0xcb0849aa0fa9167fbb04e5680a6aad4a6bd6fd7a2c4080199467f8580f1401d2]

/-- A path of 339 letters that are percent-encoded, six characters for each. -/
def longPath : Str := slash :: (List.replicate 339 (str "%C3%BC")).flatten

def longAddress : Str := str "https://example.com/" ++ List.replicate 339 0xFC

theorem encodable_longPath : Text.Encodable longPath := by
  intro c hc
  rcases List.mem_cons.1 hc with rfl | hc
  · decide
  · obtain ⟨l, hl, hc⟩ := List.mem_flatten.1 hc
    rw [List.eq_of_mem_replicate hl] at hc
    exact Text.encodable_str _ c hc

def long : Session :=
  session longAddress longPath encodable_longPath
    0xe8ecf4679b3a441fa5dc6b13f81fbc4712a65eeedf19047d799a4d359fb84f78
    0xee72ae64ba3f6d519fcd43e0861090f0667b40a78af2e2e52041eb3ec0cfb230
    0x40ee8a475c92e091e280fe450c1cc8e52b1cc70ec41d17fe123a28f7fd6eacc4
    [0xc506970086b126e67f6b3607b5b206d62d38f8fad92e39065844165d4eb2764d,
      0xa103e11fa9f15ac1b3534e7b7124dc33c4d30ce9e869e2465e2a21a718422dce,
      0x9ab95360d3580a643aefe52e82457774f60364a52cb3509d1e1c251712bef5de,
      0xc863f240d06921b83cd9098a8c0c30ba869f0008e7c52edff2784e1fa4cc4c5d,
      0x893cd5f6efdfcb7f5e1cf65d07ad1f6cabf64e8dabf78f2a9f669a074a8a3d5c,
      0x944873d71b3b4b6ce1a1b24c2d61d2a4a28bf34df1e9d5e9615356cb434137ca,
      0x02b2ffd7831dbde0b280a2fe617505f2f1544427b6670cb8c31ec8e5c19a25b2,
      0x4fea61c0445274e4554b6edaf9ef11279c4cbbc9099c490af67d16a430438587,
      0x1c329d46eebd302638dfadd14e1f68d0ffe35a916b1707a1f885e3f281642e89,
      0xc51cf403312019f4a632e79e2e409128ec3c15d3eed20d85ee13714de3bf65a4,
      0x53253590fae95257341778f89d8064bb1ad4e6529d334d4ece29eebebfcbacd7,
      0x7ae47f746e911e80d9bfb83eb4d5a4ad42b6590abe0f6c428d094f3874475bf8,
      0xc3f231953ab2bcba9fad6bb5da3b32962257c0f7682b330b00a4545d56e2d31a,
      0xfb8df6dbbe20e917cc0e73c147c4ead96325c434aba34b0aecdab0757060e210,
      0xedcfdd311dad53aea7d5973b1e9103c80eaab120d83da0895fba8f77cbc8f79d,
      0xe7cc69596849d5a06a4a6b328b4ba9c249c93c88d6357edf47b31b56df63dc6b,
      0x5b884a574a9b6e21e3195947da005db5d4205789fab5d6661e3df82dc897f1d7,
      0xfab29c3cd312db315ffe2149303106b100bfaa4293a7873bc711a61dc6cbeb07,
      0x15af0908ca19d47f269f0cbc454fbe29b05ad1cff245d811d898552321d3b6ad,
      0x8a3095f631e1b2a8c082a6703b82d2bc9dcf12a9d1164dbef9e7670d346069e0,
      0xdf12dc745a14d246f2884f45c3f97726a3daab62a6c6d106059ac479f3f3d280,
      0x7fecbd03396442155fd7e43a1218fa5470fa64937e3ca2ca9c8a6a5c835ebc09,
      0xd596e5c9006a0348a127beb6ede3eb3779cab0fdb7b80aad3ab9aa74007abc21,
      0x7b792466e10488d9506cd73c157748319377d405f0b4eecc77ded5c8743fe4a4,
      0x77ff45ae2c4dcabdb3227996ee7a68199a9073d2c40e9493926d588fbab43994,
      0xc86d9e9bd3f83c83342c127c6fefe51bbfcf2630bf306cfe9343a4689cb72437,
      0xe6106b91b0af0c704d23f72020f7ab7c39c601284028272515ff815aa2fc63fb,
      0x1e37f09addd38fb4afb84d67c611b5a2478e9b6ff31c7dcddfb6399bffdd7caa,
      0xd009404f571122951bf9d6cdb9bf8aa7a6627897216f8b0aa69b5e6daf935f6b,
      0x81f22f4f3dd4b95ec92a03cced5efba601bf741008d563f45cc6a5543490db3e,
      0xa79ea9db520c16c883d892c4624e9cdd02dad5f2fadc34ea7146fa46c7fe0e02,
      0x97c3a27bf8cf7c524e63166d395c88b168f2f9d2dea8f1d3f08051b884af7d62,
      0x3e7eed4520673ac293996807f735645b02737972f7e0e034d446b3cdb6570009,
      0x9c108f43933bcaca1b13e37f383e6bcdb357d74c3ac8403272719517e0899902,
      0x410b68b6cc69eeb404df0d95a7922862e8c04ea67e07cc2bdafff73888f000d3,
      0xb00ded31d36fcc0e21f7c0babf24800289cba57374f86bfddaa5dbb2ee4d3f48,
      0x3e8abf791d117b67e37bcfd336abf8b46ff6701fec577783676f8d3e19bf4d5e,
      0x25277f9721c7ff99647419f5963738a68e1a94cc4ec890d4cb30c0b19de2f862,
      0xd75b29ec59739089ea5fe3a9526223a726c4f97021b0b1cec2117354b6942c4a,
      0xc2ec7654c599a8e4f533bbf530c47d10b30fef71d11350b6816484eaa5696dee,
      0x3da6876b035369adf5fb31a9d6c5604cfe622dfa231ec116ab861ca9c63024ec,
      0x526fe46c74535a92e848e055e2daa3a2fb67f0ff0ce56f13f613fd8270313356,
      0x68e34d6339f41ac3120198eedaf5e0101aeb70625d80e38a3ff25794856b444f,
      0x619e0a257bee8527d013ae60ae0db418eb2ab4bd2e76f911899232fb72a14e23,
      0xcdea5259a46e1b492aeb59ca5eca167026f780eb0d8f02b03282d4b46bd8af24,
      0x30817137b42286acaf35111b1756241cf6021ae76cc8a6d59f65ec376d6ad368,
      0xf417205c340e5ccde2337a46406145df5395e100fa4dd335f506d218be689dfa,
      0x6bc6732442d93b3a23ef3d53a363f4d313f44462e0ed85a93e03cb3a5a54ba73,
      0x888d0a9af98597e8fef6aa314f2f5683838a7a66966af8804d4858c0f49d844a,
      0x186f7096cc62d737627ef6815d87a64e3ad4b8949593bd5b2993c7d8bc0d0fe5,
      0x0e080484894ab6bb33b4420117462f39d76fd8d74d729d56df704218d111bbf3,
      0x7fce76e421052994b69dc3c8f00e033fbb537305064e43d5b2d248e90f99748f,
      0xa105f9667562c6017c6bf2ddc2c2f8c1ff68f7605f24298887d2abf8838ee972,
      0x3b75521bc7b9f6aa354cc3bc2d6213391500894b2b734a32e82c796984ab4891,
      0xdb0a3ef3cd1641320cc05df0c9984b69e67f5eae83c691caa21fce417d99dbee,
      0x9e851c66b3cf6ebacf5325403c1cc326b8eb901cdb23856c70dc4ebc04f810fd,
      0x38bdeb79170df996ef8411bae44ff301976ba2f53ffe60b50c347b81ad3169cf,
      0xfeea392d5cbf6ab25e30033b20970b31bf0d4d721133825439b550221e507196,
      0xe585c9db47dcdf4a0fe456b4b15c2f61b13efb0cd64c9c7d5949f47b308bd284,
      0x54def5838b1c3e14ac386312e08263df942c8f7e1864b138b82668a07f3b3871,
      0x9cb16bc39dc848fdc3486b1a693a482391ed04587ae9f58eee765142a7615743,
      0xc6a74e4a36171d50cf11f4a7921e4ecd294aa297201f473d1be9827e7de63180,
      0x1735c0d2c387f8eeabfdb1336d1c9bc6fc3da2a7d19053f7b2b16abd4a222983,
      0x5dd59d5850dde8317335dfb12931f6ad7ae37044c99edb53b65faaa63c1a23ac,
      0xa9588480090aac837cbc030fd628772eaeca3ea465251afd5c15a9671f82bb69,
      0x690b62d7275ac85b659efa3034551d233116950d7423d8841f250edd76d659db,
      0xfb2b3f91c290d1fafd84164ac87d1b4ab903ebd8417738f438ac8678c16a14a5,
      0x8ecde3c8af92f4cd35b8e5f84cfeb131c5fcb5a368f72f87a56e66c4df88c497,
      0xa5a3022f2f12ae48a27c642e4e6330591bdaa6eb33dcc153bb3aa3f03d7410c3,
      0x5eafc49dadefd3d37180d6d975c95af89a844a9412e2d2a355a2e94891a57dbf]

/-- The empty vault under the key of the sessions. -/
def vault : Vault where
  disposed := false
  masterKey := some form.masterKey.data
  records := []

def fresh : Fresh where
  guid := id
  now := now
  salt := form.salt.data
  iv := form.iv.data
  guid_valid := validateId_of_isId isId_id
  length_salt := form.salt.length_data
  length_iv := form.iv.length_data

/-- The entry of a new record. -/
def entry (given : Str) : VaultEntry where
  id := none
  displayName := some (str "Example account")
  url := some given
  username := some (str "user")
  password := some (str "secret")
  notes := some []
  updatedAtUtc := none

theorem lists_vault (P : VaultPlatform) : ∃ items, list P vault = .ok items :=
  list_eq_ok.2 ⟨⟨_, rfl⟩, Nat.zero_le _, List.forall_mem_nil _⟩

section Save

variable {given rest : Str} {h : Text.Encodable rest} {mac digest first : Nat} {more : List Nat}

theorem validateEntry_entry (htrim : trimOf isWhiteSpace given = given) (hpos : 0 < length16 given)
    (hlength : length16 given ≤ 2048) :
    validateEntry (session given rest h mac digest first more).platform (entry given) = none := by
  have hread : (session given rest h mac digest first more).platform.tryCreate given =
      some (address rest) := if_pos (.inl rfl)
  simp only [validateEntry, entry, Option.getD_some, htrim, hread, Option.any_some, address,
    true_or, decide_true, Bool.true_eq_false, if_neg (Nat.pos_iff_ne_zero.1 hpos),
    if_neg (Nat.not_lt.2 hlength), if_false]
  rfl

theorem checkRecord_entry (hlength : length16 given ≤ 2048) :
    checkRecord (session given rest h mac digest first more).platform (some (str "Example account"))
      (some given) (some (str "user")) (some (str "secret")) (some []) =
        .ok (str "Example account", (address rest).text, str "user", str "secret", []) := by
  have hread : (session given rest h mac digest first more).platform.tryCreate given =
      some (address rest) := if_pos (.inl rfl)
  have hhost : isBlank (address rest).host = false := (by decide : isBlank (str "example.com") = false)
  have hurl : normalizeUrl (session given rest h mac digest first more).platform (some given) =
      .ok (address rest).text :=
    normalizeUrl_eq_ok.2 ⟨given, address rest, rfl, hread, ⟨.inl rfl, hhost, rfl⟩, hlength, rfl⟩
  have hname : boundedText (some (str "Example account")) "display name" 256 =
      .ok (str "Example account") := boundedText_eq_ok.2 ⟨rfl, by decide, by decide⟩
  have huser : boundedText (some (str "user")) "username" 512 = .ok (str "user") :=
    boundedText_eq_ok.2 ⟨rfl, by decide, by decide⟩
  have hpassword : boundedText (some (str "secret")) "password" 8192 = .ok (str "secret") :=
    boundedText_eq_ok.2 ⟨rfl, by decide, by decide⟩
  have hnotes : boundedText (some []) "notes" 8192 = .ok [] :=
    boundedText_eq_ok.2 ⟨rfl, by decide, by decide⟩
  simp only [checkRecord, hurl, Option.getD_some, hname, huser, hpassword, hnotes, bind_ok]
  rfl

/-- The entry is saved. -/
theorem saves (htrim : trimOf isWhiteSpace given = given) (hpos : 0 < length16 given)
    (hlength : length16 given ≤ 2048) (hmore : more.length < 256) :
    ∃ v', save (session given rest h mac digest first more).platform vault (entry given) fresh =
      .ok (toEntry (record rest), v') := by
  obtain ⟨v', hv'⟩ := (session given rest h mac digest first more).saves vault fresh
    rfl (by decide) rfl rfl rfl rfl rfl rfl
    (by simpa [session] using Nat.succ_le_of_lt hmore) (checkRecord_entry hlength)
  have hsave : saveCredential (session given rest h mac digest first more).platform vault
      (entry given).id (some ((entry given).displayName.getD [])) (entry given).url
      (some ((entry given).username.getD [])) (entry given).password
      (some ((entry given).notes.getD [])) fresh = .ok (record rest, v') := hv'
  refine ⟨v', ?_⟩
  rw [save, validateEntry_entry htrim hpos hlength]
  dsimp only
  rw [hsave, bind_ok]
  rfl

end Save

theorem saves_form : ∃ v', save form.platform vault (entry (address formPath).text) fresh =
    .ok (toEntry (record formPath), v') :=
  saves (by decide) (by decide) (by decide) (by decide)

theorem length16_replicate (n : Nat) (c : CodePoint) (h : c.val < 0x10000) :
    length16 (List.replicate n c) = n := by
  simp [length16, h]

theorem trim_longAddress : trimOf isWhiteSpace longAddress = longAddress := by
  refine trimOf_eq ?_ ?_
  · intro c hc
    cases hc
    decide
  · intro c hc
    rw [longAddress, List.getLast?_append, List.getLast?_replicate] at hc
    cases hc
    decide

theorem length16_longAddress : length16 longAddress = 359 := by
  rw [longAddress, length16_append, length16_replicate _ _ (by decide)]
  decide

theorem saves_long : ∃ v', save long.platform vault (entry longAddress) fresh =
    .ok (toEntry (record longPath), v') :=
  saves trim_longAddress (by rw [length16_longAddress]; omega)
    (by rw [length16_longAddress]; omega) (by decide)

/-- The URL that is stored for the long address. -/
theorem length16_stored : length16 (record longPath).url = 2054 := by
  have hpath : length16 longPath = 2035 := by
    have hletters (n : Nat) : length16 (List.replicate n (str "%C3%BC")).flatten = 6 * n := by
      induction n with
      | zero => rfl
      | succ n ih =>
          have hletter : length16 (str "%C3%BC") = 6 := by decide
          rw [List.replicate_succ, List.flatten_cons, length16_append, ih, hletter]
          omega
    have hslash : length16 [slash] = 1 := by decide
    rw [longPath, ← List.singleton_append, length16_append, hletters, hslash]
  have hsite : length16 (str "https://example.com") = 19 := by decide
  show length16 (address longPath).text = 2054
  rw [text_address, length16_append, hpath, hsite]

end Sample

/-- A record that comes back. -/
theorem round_trip_of_form : ∃ v' saved,
    save Sample.form.platform Sample.vault (Sample.entry (Sample.address Sample.formPath).text)
      Sample.fresh = .ok (saved, v') ∧
    RoundTrip Sample.form.platform Sample.vault v'
      (Sample.entry (Sample.address Sample.formPath).text) saved := by
  obtain ⟨v', hv'⟩ := Sample.saves_form
  refine ⟨v', _, hv', (round_trip_iff_keepsItsForm Sample.form.assumed hv').2 ⟨?_, ?_⟩⟩
  · intro url uri hurl huri
    cases hurl
    cases huri
    decide
  · exact ⟨Text.encodable_str _, Text.encodable_str _, Text.encodable_str _, Text.encodable_nil⟩

/-- A record that is saved, and after which the vault lists no more. -/
theorem no_round_trip_of_long_url : Sample.long.platform.Assumed ∧
    ∃ v' saved, save Sample.long.platform Sample.vault (Sample.entry Sample.longAddress)
        Sample.fresh = .ok (saved, v') ∧
      (∃ items, list Sample.long.platform Sample.vault = .ok items) ∧
      (¬ ∃ items, list Sample.long.platform v' = .ok items) ∧
      ¬ RoundTrip Sample.long.platform Sample.vault v' (Sample.entry Sample.longAddress) saved := by
  obtain ⟨v', hv'⟩ := Sample.saves_long
  have hbefore := Sample.lists_vault Sample.long.platform
  obtain ⟨c, hsave, hsaved, -⟩ := save_eq_ok hv'
  have hlong : ¬ length16 c.url ≤ 2048 := by
    have hurl : some (Sample.record Sample.longPath).url = some c.url := congrArg VaultEntry.url hsaved
    rw [← Option.some.inj hurl, Sample.length16_stored]
    omega
  have hafter : ¬ ∃ items, list Sample.long.platform v' = .ok items := fun h =>
    hlong ((list_saved Sample.long.assumed hsave hbefore).1 h)
  exact ⟨Sample.long.assumed, v', _, hv', hbefore, hafter, fun h => hafter (h.lists hbefore)⟩

end ZsecShield.Browser
