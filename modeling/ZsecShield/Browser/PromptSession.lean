import ZsecShield.Browser.CredentialWorkflow
import ZsecShield.Browser.StoredVault

/-!
# The workflow over a session

`Sample.workflow` is the credential workflow over the platform of a session in which one candidate
of `https://example.com` was saved.  The message a page posts for it is parsed
(`Sample.parse_posted`) and its prompt saves it into the empty vault (`Sample.runPrompt_candidate`),
for every username.
-/

namespace ZsecShield.Browser

open Text (Str str CodePoint)
open Checks

theorem length_getBytes_sanitize (s : Str) : (getBytes s).length = Text.utf8Size (sanitize s) := by
  have hsame : getBytes s = getBytes (sanitize s) := by
    rw [getBytes, getBytes, sanitize_sanitize]
  rw [hsame, length_getBytes_of_encodable (encodable_sanitize s)]

theorem messageText_of_lookup {members : List (Str × Json)} {key : String} {text : Str}
    {maximum : Nat} {allowEmpty : Bool} (h : Json.lookup (str key) members = some (.str text))
    (hlength : length16 text ≤ maximum) (hempty : allowEmpty = true ∨ text ≠ []) (hnul : 0 ∉ text) :
    messageText members key maximum allowEmpty = .ok text := by
  have hall : length16 text ≤ maximum ∧ (allowEmpty = true ∨ text ≠ []) ∧ 0 ∉ text :=
    ⟨hlength, hempty, hnul⟩
  simp only [messageText, h, fromOption, Json.strOf, bind_ok, require_pos hall]
  rfl

namespace Sample

/-- The root of a site, and its origin. -/
def site : Url := address (str "/")

def siteText : Str := str "https://example.com"

/-- A new entry of the site. -/
def siteRecord (username : Str) : Credential :=
  ⟨id, [], site.text, username, str "secret", [], now, now⟩

/-- The save of a new entry. -/
def prompted (username : Str) (mac digest first : Nat) (more : List Nat) : Session :=
  { session siteText (str "/") (Text.encodable_str _) mac digest first more with
    record := siteRecord username
    isId := isId_id }

/-- The workflow over the platform of a session. -/
def workflow (r : Session) : WorkflowPlatform where
  toVaultPlatform := r.platform
  idnHost := Url.host
  deserializeMessage := readValue

def schema : Str := str "zsec.browser.credential-save-candidate.v1"

def secret : Str := str "secret"

/-- What the page posts. -/
def members (username : Str) : List (Str × Json) :=
  [(str "schema", .str schema), (str "request_id", .str id), (str "origin", .str siteText),
    (str "username", .str username), (str "password", .str secret)]

def posted (username : Str) : Str := compact (.obj (members username))

def candidate (username : Str) : CredentialMessage :=
  ⟨.saveCandidate, id, siteText, some username, some secret⟩

def settings : BrowserSettings := ⟨true, none⟩

theorem secure_site : Secure site := by decide

theorem originText_site : originText site = siteText := by decide

theorem rootText_site (r : Session) : rootText (workflow r) site = site.text := by
  have hhost : (workflow r).idnHost site = str "example.com" := rfl
  rw [rootText, hhost]
  decide

/-! ## The message -/

section Message

variable (username : Str)

theorem lookup_members :
    Json.lookup (str "schema") (members username) = some (.str schema) ∧
      Json.lookup (str "request_id") (members username) = some (.str id) ∧
      Json.lookup (str "origin") (members username) = some (.str siteText) ∧
      Json.lookup (str "username") (members username) = some (.str username) ∧
      Json.lookup (str "password") (members username) = some (.str secret) := by
  simp [members, Json.lookup, Text.str_injective]

theorem plain_members : Json.Plain 4300 (.obj (members username)) := by
  refine .obj _ ?_ ?_
  · simp [members, Text.str_injective]
  · simp [members, Json.Plain.str]

theorem readValue_posted : readValue (posted username) = some (.obj (members username)) := by
  have hdepth : (Json.obj (members username)).depth ≤ 100 := by
    simp [members, Json.depth, Json.depthMembers]
  exact congrArg Except.toOption (loads_compact (plain_members username) hdepth)

theorem not_isBlank_posted : isBlank (posted username) = false := by
  have hhead : ∃ rest, posted username = Text.ofChar '\x7b' :: rest := ⟨_, rfl⟩
  obtain ⟨rest, hrest⟩ := hhead
  have hopen : isWhiteSpace (Text.ofChar '\x7b') = false := by decide
  rw [hrest, isBlank, List.all_cons, hopen, Bool.false_and]

theorem length_posted (hsize : username.length ≤ 320) :
    (getBytes (posted username)).length ≤ maximumMessageBytes := by
  have htexts : Json.obj (members username) = objectOf [("schema", schema), ("request_id", id),
    ("origin", siteText), ("username", username), ("password", secret)] := rfl
  rw [length_getBytes_sanitize, posted, htexts, sanitize_compact]
  refine (Json.utf8Size_layout_le .canonical _ 0).trans ?_
  have hbreak (n : Nat) : Json.breakSize .canonical n = 0 := rfl
  have hseparator : Text.utf8Size Json.Style.canonical.keySeparator = 1 := rfl
  have hnames : (str "schema").length = 6 ∧ (str "request_id").length = 10 ∧
      (str "origin").length = 6 ∧ (str "username").length = 8 ∧ (str "password").length = 8 ∧
      schema.length = 41 ∧ id.length = 32 ∧ siteText.length = 19 ∧ secret.length = 6 := by
    decide
  simp only [objectOf, List.map_cons, List.map_nil, Json.weight, Json.membersWeight, hbreak,
    hseparator, sanitize, List.length_map, hnames, maximumMessageBytes]
  omega

theorem parseContent_members (hlength : length16 username ≤ 320) (hnul : 0 ∉ username) :
    parseContent (members username) = .ok (.saveCandidate, some username, some secret) := by
  obtain ⟨hschema, -, -, huser, hsecret⟩ := lookup_members username
  have hschemaText : schema = str "zsec.browser.credential-save-candidate.v1" := rfl
  have hexact : exactKeys (members username)
      ["schema", "request_id", "origin", "username", "password"] = .ok () := by
    refine require_pos ⟨rfl, ?_⟩ _
    simp [members]
  rw [parseContent, messageText_of_lookup hschema (by decide) (.inr (by decide)) (by decide),
    bind_ok, if_pos hschemaText, hexact, bind_ok,
    messageText_of_lookup huser hlength (.inl rfl) hnul, bind_ok,
    messageText_of_lookup hsecret (by decide) (.inr (by decide)) (by decide), bind_ok]
  rfl

theorem parseRequestId_members : parseRequestId (members username) = .ok id := by
  obtain ⟨-, hid, -⟩ := lookup_members username
  have hguid := validateId_of_isId isId_id
  rw [validateId, if_pos isId_id.1, fromOption_eq_ok] at hguid
  rw [parseRequestId, messageText_of_lookup hid (by decide) (.inr (by decide)) (by decide), bind_ok,
    parseGuid, if_pos isId_id.1, hguid]
  rfl

end Message

/-! ## The workflow of a session -/

section Session

variable {r : Session} (hgiven : r.given = siteText) (hurl : r.url = site)

include hurl

theorem tryCreate_eq_some {s : Str} {u : Url} (h : (workflow r).tryCreate s = some u) :
    u = site := by
  have hread : r.tryCreate s = some u := h
  unfold Session.tryCreate at hread
  split at hread
  · exact (Option.some.inj hread).symm.trans hurl
  · cases hread

theorem tryCreate_site : (workflow r).tryCreate site.text = some site := by
  show r.tryCreate site.text = some site
  rw [Session.tryCreate, hurl, if_pos (.inr rfl)]

theorem normalizeSecureOrigin_site : normalizeSecureOrigin (workflow r) site = .ok siteText := by
  refine normalizeSecureOrigin_eq_ok.2 ⟨secure_site, site, ?_, originText_site⟩
  rw [rootText_site]
  exact tryCreate_site hurl

include hgiven

theorem tryCreate_siteText : (workflow r).tryCreate siteText = some site := by
  show r.tryCreate siteText = some site
  rw [Session.tryCreate, hurl, hgiven, if_pos (.inl rfl)]

theorem assumed_workflow : (workflow r).Assumed where
  vault := r.assumed
  root s u hs _ := by
    rw [tryCreate_eq_some hurl hs]
    refine ⟨site, ?_, secure_site, ?_, rfl, ?_⟩
    · rw [rootText_site]
      exact tryCreate_site hurl
    · have hhost : site.host = toLower site.host := by decide
      exact hhost
    · rw [originText_site]
      exact tryCreate_siteText hgiven hurl
  contains value term h := decide_eq_true (h.map Session.lowerUnit)

theorem parseOrigin_members (username : Str) :
    parseOrigin (workflow r) (members username) = .ok siteText := by
  obtain ⟨-, -, horigin, -⟩ := lookup_members username
  rw [parseOrigin, messageText_of_lookup horigin (by decide) (.inr (by decide)) (by decide),
    bind_ok, tryCreate_siteText hgiven hurl]
  dsimp only [fromOption]
  rw [bind_ok, normalizeSecureOrigin_site hurl]

/-- The message is read as it was posted. -/
theorem parse_posted {username : Str} (hlength : length16 username ≤ 320)
    (hsize : username.length ≤ 320) (hnul : 0 ∉ username) :
    parse (workflow r) (posted username) site = .ok (candidate username) := by
  have hdecoded : (workflow r).deserializeMessage = readValue := rfl
  rw [parse, require_pos (not_isBlank_posted username), bind_ok,
    require_pos (length_posted username hsize), bind_ok, normalizeSecureOrigin_site hurl,
    bind_ok, hdecoded, readValue_posted]
  dsimp only [fromOption, Json.objOf]
  rw [bind_ok, bind_ok, parseContent_members username hlength hnul, bind_ok]
  dsimp only
  rw [parseRequestId_members, bind_ok, parseOrigin_members hgiven hurl, bind_ok, require_pos rfl,
    bind_ok]
  rfl

/-! ## The save -/

theorem validateEntry_candidate {username : Str} (hlength : length16 username ≤ 320) :
    validateEntry r.platform (newEntry (candidate username)) = none := by
  have hread : r.platform.tryCreate siteText = some site := tryCreate_siteText hgiven hurl
  have htrim : trimOf isWhiteSpace siteText = siteText := by decide
  have hsite : length16 siteText = 19 := by decide
  have hsecret : length16 secret = 6 := by decide
  have hscheme : site.scheme = str "https" := rfl
  have hempty : length16 [] = 0 := rfl
  simp only [validateEntry, newEntry, candidate, Option.getD_some, Option.getD_none, htrim, hread,
    Option.any_some, hscheme, true_or, decide_true, hsite, hsecret, hempty,
    if_neg (Nat.not_lt.2 hlength)]
  rfl

theorem checkRecord_candidate {username : Str} (hlength : length16 username ≤ 320)
    (hnul : 0 ∉ username) :
    checkRecord r.platform (some []) (some siteText) (some username) (some secret) (some []) =
      .ok ([], site.text, username, secret, []) := by
  have hread : r.platform.tryCreate siteText = some site := tryCreate_siteText hgiven hurl
  have hnormal : normalizeUrl r.platform (some siteText) = .ok site.text :=
    normalizeUrl_eq_ok.2 ⟨siteText, site, rfl, hread, ⟨.inl rfl, by decide, rfl⟩, by decide, rfl⟩
  have hname : boundedText (some []) "display name" 256 = .ok [] :=
    boundedText_eq_ok.2 ⟨rfl, by decide, by decide⟩
  have huser : boundedText (some username) "username" 512 = .ok username :=
    boundedText_eq_ok.2 ⟨rfl, hlength.trans (by omega), hnul⟩
  have hpassword : boundedText (some secret) "password" 8192 = .ok secret :=
    boundedText_eq_ok.2 ⟨rfl, by decide, by decide⟩
  have hnotes : boundedText (some []) "notes" 8192 = .ok [] :=
    boundedText_eq_ok.2 ⟨rfl, by decide, by decide⟩
  simp only [checkRecord, hnormal, Option.getD_some, hname, huser, hpassword, hnotes, bind_ok]
  rfl

/-- A session in which a candidate was saved. -/
structure SavesCandidate (r : Session) (username : Str) : Prop where
  given : r.given = siteText
  url : r.url = site
  record : r.record = siteRecord username
  masterKey : r.masterKey.data = form.masterKey.data
  salt : r.salt.data = form.salt.data
  iv : r.iv.data = form.iv.data
  short : r.ciphertext.length ≤ 256

omit hgiven hurl in
theorem save_candidate {username : Str} (h : SavesCandidate r username)
    (hlength : length16 username ≤ 320) (hnul : 0 ∉ username) :
    ∃ v', save r.platform vault (newEntry (candidate username)) fresh =
      .ok (toEntry (siteRecord username), v') := by
  have hkey : requireUnlocked vault = .ok r.masterKey.data := by
    rw [h.masterKey]
    rfl
  obtain ⟨v', hv'⟩ := r.saves vault fresh hkey (by decide) rfl (by rw [h.record]; rfl)
    (by rw [h.record]; rfl) (by rw [h.record]; rfl) h.salt.symm h.iv.symm h.short
    (by rw [h.record]; exact checkRecord_candidate h.given h.url hlength hnul)
  rw [h.record] at hv'
  refine ⟨v', ?_⟩
  rw [save, validateEntry_candidate h.given h.url hlength]
  dsimp only
  have hsave : saveCredential r.platform vault (newEntry (candidate username)).id
      (some ((newEntry (candidate username)).displayName.getD []))
      (newEntry (candidate username)).url
      (some ((newEntry (candidate username)).username.getD []))
      (newEntry (candidate username)).password
      (some ((newEntry (candidate username)).notes.getD [])) fresh =
        .ok (siteRecord username, v') := hv'
  rw [hsave, bind_ok]
  rfl

/-! ## The prompt -/

omit hgiven hurl in
/-- The candidate is saved into the empty vault. -/
theorem runPrompt_candidate {username : Str} (h : SavesCandidate r username)
    (hlength : length16 username ≤ 320) (hnul : 0 ∉ username) :
    ∃ v', save r.platform vault (newEntry (candidate username)) fresh =
        .ok (toEntry (siteRecord username), v') ∧
      runPrompt (workflow r) settings (candidate username) (some []) .save vault fresh =
        .ok (some (toEntry (siteRecord username)), v') := by
  obtain ⟨v', hv'⟩ := save_candidate h hlength hnul
  have horigin : IsOrigin (workflow r) siteText :=
    ⟨by decide, site, tryCreate_siteText h.given h.url, normalizeSecureOrigin_site h.url⟩
  have hbound : length16 siteText ≤ 2048 := by decide
  have hplanned : ∃ found, Finds (workflow r) (candidate username) [] found ∧
      evaluateSavePrompt (workflow r) settings (candidate username) (some []) =
        .ok (planFor (candidate username) found) :=
    evaluateSavePrompt_of_allowed (assumed_workflow h.given h.url) horigin rfl rfl List.not_mem_nil
      hbound (some [])
  obtain ⟨found, hfinds, hplan⟩ := hplanned
  have hfound : found = none := by
    cases found with
    | none => rfl
    | some e => exact absurd hfinds.1 List.not_mem_nil
  rw [hfound] at hplan
  have hnamed : namedEntry (workflow r).toVaultPlatform vault (planFor (candidate username) none) =
      .ok none := rfl
  have hbuilt : buildAcceptedSave (workflow r) (candidate username)
      (some (planFor (candidate username) none)) .save none =
        .ok (some (newEntry (candidate username))) := buildAcceptedSave_added rfl rfl rfl
  have hsaved : save (workflow r).toVaultPlatform vault (newEntry (candidate username)) fresh =
      .ok (toEntry (siteRecord username), v') := hv'
  refine ⟨v', hv', ?_⟩
  rw [runPrompt, hplan, bind_ok, hnamed, bind_ok, hbuilt, bind_ok]
  dsimp only
  rw [hsaved]
  rfl

end Session

/-! ## The usernames -/

theorem savesCandidate_prompted (username : Str) (mac digest first : Nat) {more : List Nat}
    (hmore : more.length < 256) :
    SavesCandidate (prompted username mac digest first more) username := by
  refine ⟨rfl, rfl, rfl, rfl, rfl, rfl, ?_⟩
  have hlength : (prompted username mac digest first more).ciphertext.length = more.length + 1 :=
    List.length_map _
  omega

def user : Str := str "user"

def userPrompt : Session :=
  prompted user 0x02e2cd80f1c8dc07fcbef284e27fdf455d9a29773e67a105a701ae40e7b7247a
    0x64ec46ad306b2b371576a1c4e29a379365553458b556b3bf4a74955bb89e086e
    0x40ee8a475c92e091e280fe450c1cc8e52b1cc70ec41d17fe123a28f7fd6eacc4
    [0xc506970086b126e67f6b3607b5b206d6769137a3ea256ef7c5580a21d716e17e,
      0xd8e498cab7b38f097d10a214f056feb405636e36aef611989f904c6c6e26b82e,
      0x28dc01ecd20cc8844961b5fca29f9f0e0cc155959406ec1d85e0079555d0dadd,
      0x5382639a13cb81284384144e1313e4a53551040d5a6e18801ed688bd7ad064e0,
      0x7f4013b93a017dd9ff74224e661a6b28cb68f0055a715127922ec30c27923f81,
      0x3f06b2c9fb288f4d48a7ba4d5f56d83172dd857c99653ddeb23b69c39d101050]

/-- The first half of a pair, and a letter. -/
def halfPair : Str := [0xD800, Text.ofChar 'r']

def halfPairPrompt : Session :=
  prompted halfPair 0x21489a0beb5418247b1823630ffe41f817c68517a1924b670e92d00d4ab403ff
    0x0100d06af879ebdafd39cfadcb118f4dd545efa3de627119c3e61b21498a88ad
    0x40ee8a475c92e091e280fe450c1cc8e52b1cc70ec41d17fe123a28f7fd6eacc4
    [0xc506970086b126e67f6b3607b5b206d6769137a3ea256ef7c5580a21d716e17e,
      0xd8e498cab7b38f097d10a214f056feb405636e36aef611989f904c6c6e26b82e,
      0x9f8fb3522590ceeb8e3214dc15e1dbbb3b1c9937d7cfb43b169ea00b4e9b139d,
      0xad6c220206d0278c8d317f89e8081839e537aba9a25d5d6771bcbb051c6dc363,
      0x1f04f7d8959de1e7ef2f7d0e092e56d7ab8df8069af947c88a2883c3f6fb703d,
      0xc0c3ce70aac1e227bba21414fff37c0dc717e034b77945328ca7a65bbc122cf1]

theorem savesCandidate_user : SavesCandidate userPrompt user :=
  savesCandidate_prompted _ _ _ _ (by decide)

theorem savesCandidate_halfPair : SavesCandidate halfPairPrompt halfPair :=
  savesCandidate_prompted _ _ _ _ (by decide)

end Sample

end ZsecShield.Browser
