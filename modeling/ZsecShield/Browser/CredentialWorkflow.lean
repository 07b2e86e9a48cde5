import ZsecShield.Browser.Origin
import ZsecShield.Browser.VaultRoundTrip

/-!
# Credential prompts

`BrowserCredentialMessage.Parse` reads what a page has posted, `EvaluateSavePrompt` plans a prompt
from the entries of the vault, and `BuildAcceptedSave` makes of a decision the entry to save.
`BrowserLoginAssistant` runs them over the vault.
-/

namespace ZsecShield.Browser

open Text (Str str CodePoint)
open Checks

/-! ## Messages -/

/-- `BrowserCredentialMessageKind`. -/
inductive MessageKind where
  | saveCandidate
  | fillRequest
  deriving DecidableEq

/-- `BrowserCredentialMessage`. -/
structure CredentialMessage where
  kind : MessageKind
  requestId : Str
  origin : Str
  username : Option Str
  password : Option Str

def maximumMessageBytes : Nat := 24 * 1024

/-- `InvalidDataException`. -/
def invalidMessage (text : String) : WorkflowError := .vault (.invalidData (str text))

/-- `Text` of a field. -/
def messageText (members : List (Str × Json)) (key : String) (maximum : Nat) (allowEmpty : Bool) :
    Except WorkflowError Str := do
  let refusal := WorkflowError.vault
    (.invalidData (str "Credential message field is invalid: " ++ str key ++ str "."))
  let value ← fromOption (Json.lookup (str key) members) refusal
  let text ← fromOption value.strOf refusal
  require (length16 text ≤ maximum ∧ (allowEmpty = true ∨ text ≠ []) ∧ 0 ∉ text) refusal
  pure text

/-- `Exact`. -/
def exactKeys (members : List (Str × Json)) (keys : List String) : Except WorkflowError Unit :=
  require (members.length = keys.length ∧ ∀ k ∈ keys, str k ∈ members.map Prod.fst)
    (invalidMessage "Credential message fields are invalid.")

/-- The kind of a message, with its username and its password. -/
def parseContent (members : List (Str × Json)) :
    Except WorkflowError (MessageKind × Option Str × Option Str) := do
  let schema ← messageText members "schema" 80 false
  if schema = str "zsec.browser.credential-save-candidate.v1" then do
    exactKeys members ["schema", "request_id", "origin", "username", "password"]
    let username ← messageText members "username" 320 true
    let password ← messageText members "password" 4096 false
    pure (.saveCandidate, some username, some password)
  else if schema = str "zsec.browser.credential-fill-request.v1" then do
    exactKeys members ["schema", "request_id", "origin"]
    pure (.fillRequest, none, none)
  else .error (invalidMessage "Credential message schema is unsupported.")

/-- `Guid.TryParseExact(value, "N", out request)`, and its text. -/
def parseGuid (value : Str) : Option Str := if value.length = 32 then value.mapM hexLower else none

def parseRequestId (members : List (Str × Json)) : Except WorkflowError Str := do
  let text ← messageText members "request_id" 32 false
  fromOption (parseGuid text) (invalidMessage "Credential request ID is invalid.")

/-- The origin a message declares. -/
def parseOrigin (W : WorkflowPlatform) (members : List (Str × Json)) :
    Except WorkflowError Str := do
  let refusal := invalidMessage "Credential message origin is invalid."
  let text ← messageText members "origin" 2048 false
  let uri ← fromOption (W.tryCreate text) refusal
  match normalizeSecureOrigin W uri with
  | .error (.vault (.argument _)) => .error refusal
  | result => result

/-- `Parse`. -/
def parse (W : WorkflowPlatform) (json : Str) (source : Url) :
    Except WorkflowError CredentialMessage := do
  require (isBlank json = false) (invalidMessage "Credential message is empty.")
  require ((getBytes json).length ≤ maximumMessageBytes)
    (invalidMessage "Credential message exceeds its size limit.")
  let sourceOrigin ← normalizeSecureOrigin W source
  let decoded ← fromOption (W.deserializeMessage json)
    (invalidMessage "Credential message is invalid JSON.")
  let members ← fromOption decoded.objOf (invalidMessage "Credential message must be an object.")
  let (kind, username, password) ← parseContent members
  let requestId ← parseRequestId members
  let declaredOrigin ← parseOrigin W members
  require (declaredOrigin = sourceOrigin)
    (invalidMessage "Credential message origin does not match its source.")
  pure ⟨kind, requestId, sourceOrigin, username, password⟩

/-! ## Plans -/

/-- What the workflow reads of `BrowserSettings`. -/
structure BrowserSettings where
  passwordSaveEnabled : Bool
  passwordNeverSaveOrigins : Option (List Str)

/-- `BrowserCredentialPromptKind`. -/
inductive PromptKind where
  | none
  | save
  | update
  deriving DecidableEq

/-- `BrowserCredentialPromptDecision`. -/
inductive PromptDecision where
  | save
  | update
  | notNow
  | neverForSite
  deriving DecidableEq

/-- `BrowserCredentialPromptPlan`. -/
structure PromptPlan where
  kind : PromptKind
  origin : Str
  existingEntryId : Option Str
  reason : Str

/-- `None`. -/
def nonePlan (origin : Str) (reason : String) : PromptPlan := ⟨.none, origin, none, str reason⟩

/-- `IsNeverSaveOrigin`. -/
def isNeverSaveOrigin (W : WorkflowPlatform) (settings : BrowserSettings) (origin : Str) :
    Except WorkflowError Bool := do
  let normalized ← normalizeSecureOriginText W (some origin)
  pure (decide (normalized ∈ settings.passwordNeverSaveOrigins.getD []))

/-- `EntryMatchesExactOrigin`. -/
def entryMatchesExactOrigin (W : WorkflowPlatform) (entry : Option VaultEntry) (origin : Str) :
    Except WorkflowError Bool :=
  match entry with
  | none => .ok false
  | some entry =>
      let compared : Except WorkflowError Bool := do
        let url ← normalizeSecureOriginText W entry.url
        let exact ← normalizeSecureOriginText W (some origin)
        pure (decide (url = exact))
      match compared with
      | .error (.vault (.argument _)) => .ok false
      | result => result

/-- The entry has the origin and the username of the message. -/
def matchesCandidate (W : WorkflowPlatform) (message : CredentialMessage)
    (entry : Option VaultEntry) : Except WorkflowError Bool := do
  let sameOrigin ← entryMatchesExactOrigin W entry message.origin
  let username := (entry.bind VaultEntry.username).getD []
  pure (sameOrigin && decide (some username = message.username))

/-- `FirstOrDefault`. -/
def firstMatching (W : WorkflowPlatform) (message : CredentialMessage) :
    List (Option VaultEntry) → Except WorkflowError (Option VaultEntry)
  | [] => .ok none
  | entry :: entries => do
      let matching ← matchesCandidate W message entry
      if matching then pure entry else firstMatching W message entries

/-- The plan for an entry that was found, or for none. -/
def planFor (message : CredentialMessage) : Option VaultEntry → PromptPlan
  | none => ⟨.save, message.origin, none, str "new exact-origin credential"⟩
  | some existing =>
      if existing.password = message.password then
        nonePlan message.origin "stored credential is unchanged"
      else ⟨.update, message.origin, existing.id, str "password changed"⟩

/-- `EvaluateSavePrompt`. -/
def evaluateSavePrompt (W : WorkflowPlatform) (settings : BrowserSettings)
    (message : CredentialMessage) (existingEntries : Option (List (Option VaultEntry))) :
    Except WorkflowError PromptPlan := do
  require (message.kind = .saveCandidate)
    (.vault (.argument (str "A validated save-candidate message is required.")))
  if settings.passwordSaveEnabled = false then
    pure (nonePlan message.origin "password saving is disabled")
  else do
    let never ← isNeverSaveOrigin W settings message.origin
    if never then pure (nonePlan message.origin "site is on the never-save list")
    else do
      let existing ← firstMatching W message (existingEntries.getD [])
      pure (planFor message existing)

/-! ## Decisions -/

/-- The entry of a new credential. -/
def newEntry (message : CredentialMessage) : VaultEntry :=
  ⟨none, none, some message.origin, message.username, message.password, some [], none⟩

/-- The entry that an update was planned for. -/
def checkExisting (W : WorkflowPlatform) (message : CredentialMessage) (plan : PromptPlan)
    (existingEntry : Option VaultEntry) : Except WorkflowError VaultEntry := do
  let refusal := WorkflowError.vault
    (.invalidOperation (str "Update decision does not match the stored entry."))
  let existing ← fromOption existingEntry refusal
  require (existing.id = plan.existingEntryId) refusal
  let matching ← matchesCandidate W message existing
  require (matching = true) refusal
  pure existing

/-- `BuildAcceptedSave`. -/
def buildAcceptedSave (W : WorkflowPlatform) (message : CredentialMessage)
    (plan : Option PromptPlan) (decision : PromptDecision) (existingEntry : Option VaultEntry) :
    Except WorkflowError (Option VaultEntry) := do
  let foreign := WorkflowError.vault
    (.invalidOperation (str "Save prompt plan does not match the candidate."))
  require (message.kind = .saveCandidate)
    (.vault (.argument (str "A validated save candidate is required.")))
  let plan ← fromOption plan foreign
  require (plan.origin = message.origin) foreign
  if decision = .notNow ∨ decision = .neverForSite then pure none
  else if plan.kind = .save ∧ decision = .save then do
    require (existingEntry.isNone = true)
      (.vault (.invalidOperation (str "New-save decision received an existing entry.")))
    pure (some (newEntry message))
  else if plan.kind = .update ∧ decision = .update then do
    let existing ← checkExisting W message plan existingEntry
    pure (some { existing with password := message.password })
  else .error (.vault (.invalidOperation (str "Prompt decision is inconsistent with its plan.")))

/-! ## The assistant -/

/-- `vault.Get(id)`. -/
def getEntry (P : VaultPlatform) (v : Vault) (id : Option Str) :
    Except WorkflowError VaultEntry := do
  let id ← fromOption id (.vault (.argument (str "Password record ID is invalid.")))
  (get P v id).mapError .vault

/-- The entry that a plan names. -/
def namedEntry (P : VaultPlatform) (v : Vault) (plan : PromptPlan) :
    Except WorkflowError (Option VaultEntry) :=
  if plan.kind = .update then do
    let entry ← getEntry P v plan.existingEntryId
    pure (some entry)
  else .ok none

/-- `EnsureUnlocked`, where `unlock` asks the machine for the key. -/
def ensureUnlocked (P : VaultPlatform) (unlock : Vault → Except VaultError Vault) (v : Vault) :
    Except WorkflowError Vault := do
  let status ← (getStatus P v).mapError .vault
  if status.isUnlocked then pure v else (unlock v).mapError .vault

/-- `BrowserLoginAssistant.EvaluateSave`. -/
def evaluateSave (W : WorkflowPlatform) (unlock : Vault → Except VaultError Vault)
    (settings : BrowserSettings) (message : CredentialMessage) (v : Vault) :
    Except WorkflowError PromptPlan := do
  let v ← ensureUnlocked W.toVaultPlatform unlock v
  let entries ← (search W.toVaultPlatform v (some (message.username.getD []))).mapError .vault
  evaluateSavePrompt W settings message (some (entries.map some))

/-- A prompt from its plan to the vault: the plan, the entry it names, the entry that the decision
makes of it, and its save. -/
def runPrompt (W : WorkflowPlatform) (settings : BrowserSettings) (message : CredentialMessage)
    (existingEntries : Option (List (Option VaultEntry))) (decision : PromptDecision) (v : Vault)
    (fresh : Fresh) : Except WorkflowError (Option VaultEntry × Vault) := do
  let plan ← evaluateSavePrompt W settings message existingEntries
  let existing ← namedEntry W.toVaultPlatform v plan
  let accepted ← buildAcceptedSave W message (some plan) decision existing
  match accepted with
  | none => pure (none, v)
  | some entry => do
      let (saved, v) ← (save W.toVaultPlatform v entry fresh).mapError .vault
      pure (some saved, v)

/-! ## What a parsed message is -/

variable {W : WorkflowPlatform}

theorem mapError_eq_ok {ε ε' α : Type} {f : ε → ε'} {x : Except ε α} {a : α} :
    x.mapError f = .ok a ↔ x = .ok a := by
  cases x <;> simp [Except.mapError]

/-- A parsed message: its origin is a normal form, and a save candidate has both texts. -/
structure CredentialMessage.Parsed (W : WorkflowPlatform) (message : CredentialMessage) : Prop where
  origin : IsOrigin W message.origin
  candidate : message.kind = .saveCandidate → ∃ username password,
    message.username = some username ∧ message.password = some password

theorem parseContent_eq_ok {members : List (Str × Json)} {kind : MessageKind}
    {username password : Option Str}
    (h : parseContent members = .ok (kind, username, password)) (hkind : kind = .saveCandidate) :
    ∃ user secret, username = some user ∧ password = some secret := by
  obtain ⟨schema, -, h⟩ := bind_eq_ok.1 h
  split at h
  · simp only [bind_eq_ok] at h
    obtain ⟨-, -, user, -, secret, -, h⟩ := h
    cases h
    exact ⟨user, secret, rfl, rfl⟩
  · split at h
    · obtain ⟨-, -, h⟩ := bind_eq_ok.1 h
      cases h
      cases hkind
    · cases h

theorem parsed_of_parse (hW : W.Assumed) {text json : Str} {source : Url}
    (hsource : W.tryCreate text = some source) {message : CredentialMessage}
    (h : parse W json source = .ok message) : message.Parsed W := by
  simp only [parse, bind_eq_ok] at h
  obtain ⟨-, -, -, -, origin, horigin, _, -, members, -, ⟨kind, username, password⟩, hcontent,
    requestId, -, _, -, -, -, h⟩ := h
  cases h
  exact ⟨isOrigin_of_normalize hW hsource horigin, parseContent_eq_ok hcontent⟩

/-! ## Entries of the message -/

/-- The entry has the exact origin and the username of the message. -/
def Matches (W : WorkflowPlatform) (message : CredentialMessage) (entry : VaultEntry) : Prop :=
  normalizeSecureOriginText W entry.url = .ok message.origin ∧
    some (entry.username.getD []) = message.username

theorem entryMatchesExactOrigin_none (origin : Str) :
    entryMatchesExactOrigin W none origin = .ok false := rfl

/-- Whether an entry has the origin: nothing but an answer comes of it. -/
theorem entryMatchesExactOrigin_some (hW : W.Assumed) {origin : Str} (horigin : IsOrigin W origin)
    (hbound : length16 origin ≤ 2048) (entry : VaultEntry) :
    ∃ b, entryMatchesExactOrigin W (some entry) origin = .ok b ∧
      (b = true ↔ normalizeSecureOriginText W entry.url = .ok origin) := by
  rcases normalizeSecureOriginText_cases hW entry.url with ⟨o, ho⟩ | ⟨text, htext⟩
  · refine ⟨decide (o = origin), ?_, ?_⟩
    · simp only [entryMatchesExactOrigin, ho, horigin.again hbound, bind_ok]
      rfl
    · rw [decide_eq_true_eq, ho, Except.ok.injEq]
  · refine ⟨false, ?_, ?_⟩
    · simp only [entryMatchesExactOrigin, htext]
      rfl
    · rw [htext]
      exact ⟨nofun, nofun⟩

theorem matchesCandidate_some (hW : W.Assumed) {message : CredentialMessage}
    (horigin : IsOrigin W message.origin) (hbound : length16 message.origin ≤ 2048)
    (entry : VaultEntry) : ∃ b, matchesCandidate W message (some entry) = .ok b ∧
      (b = true ↔ Matches W message entry) := by
  obtain ⟨b, hb, hiff⟩ := entryMatchesExactOrigin_some hW horigin hbound entry
  refine ⟨b && decide (some (entry.username.getD []) = message.username), ?_, ?_⟩
  · simp only [matchesCandidate, hb, bind_ok]
    rfl
  · rw [Bool.and_eq_true, decide_eq_true_eq, hiff, Matches]

/-- An entry of the list that matches, or none where no entry does. -/
def Finds (W : WorkflowPlatform) (message : CredentialMessage)
    (entries : List (Option VaultEntry)) : Option VaultEntry → Prop
  | none => ∀ e, some e ∈ entries → ¬ Matches W message e
  | some e => some e ∈ entries ∧ Matches W message e

theorem Finds.cons {message : CredentialMessage} {entries : List (Option VaultEntry)}
    {found entry : Option VaultEntry} (h : Finds W message entries found)
    (hentry : ∀ e, entry = some e → ¬ Matches W message e) :
    Finds W message (entry :: entries) found := by
  cases found with
  | none =>
      intro e he
      rcases List.mem_cons.1 he with he | he
      · exact hentry e he.symm
      · exact h e he
  | some e => exact ⟨List.mem_cons_of_mem _ h.1, h.2⟩

theorem firstMatching_finds (hW : W.Assumed) {message : CredentialMessage}
    (horigin : IsOrigin W message.origin) (hbound : length16 message.origin ≤ 2048)
    (entries : List (Option VaultEntry)) :
    ∃ found, firstMatching W message entries = .ok found ∧ Finds W message entries found := by
  induction entries with
  | nil => exact ⟨none, rfl, fun e he => absurd he List.not_mem_nil⟩
  | cons entry entries ih =>
      obtain ⟨found, hfound, hfinds⟩ := ih
      cases entry with
      | none => exact ⟨found, hfound, hfinds.cons nofun⟩
      | some e =>
          obtain ⟨b, hb, hiff⟩ := matchesCandidate_some hW horigin hbound e
          cases b with
          | false =>
              refine ⟨found, ?_, hfinds.cons ?_⟩
              · rw [firstMatching, hb]
                exact hfound
              · rintro _ ⟨⟩ hmatches
                exact absurd (hiff.2 hmatches) Bool.false_ne_true
          | true =>
              refine ⟨some e, ?_, List.mem_cons_self, hiff.1 rfl⟩
              rw [firstMatching, hb]
              rfl

/-! ## Plans and decisions -/

theorem planFor_origin (message : CredentialMessage) (found : Option VaultEntry) :
    (planFor message found).origin = message.origin := by
  cases found with
  | none => rfl
  | some e =>
      rw [planFor]
      split <;> rfl

/-- Why a plan is the one that was made. -/
theorem evaluateSavePrompt_eq_ok (hW : W.Assumed) {settings : BrowserSettings}
    {message : CredentialMessage} (horigin : IsOrigin W message.origin)
    {entries : Option (List (Option VaultEntry))} {plan : PromptPlan}
    (h : evaluateSavePrompt W settings message entries = .ok plan) :
    plan.kind = .none ∨ length16 message.origin ≤ 2048 ∧
      message.origin ∉ settings.passwordNeverSaveOrigins.getD [] ∧
      ∃ found, Finds W message (entries.getD []) found ∧ plan = planFor message found := by
  obtain ⟨-, -, h⟩ := bind_eq_ok.1 h
  split at h
  · cases h
    exact .inl rfl
  · obtain ⟨never, hnever, h⟩ := bind_eq_ok.1 h
    obtain ⟨normalized, hnormalized, hnever⟩ := bind_eq_ok.1 hnever
    have hsame := horigin.eq_of_normalize hnormalized
    subst hsame
    obtain ⟨s, -, hs, -, hbound, -, -⟩ := normalizeSecureOriginText_eq_ok.1 hnormalized
    cases hs
    split at h
    · cases h
      exact .inl rfl
    · rename_i hallowed
      have hnot : message.origin ∉ settings.passwordNeverSaveOrigins.getD [] := fun hmem => by
        rw [← Except.ok.inj hnever] at hallowed
        exact hallowed (decide_eq_true hmem)
      obtain ⟨existing, hexisting, h⟩ := bind_eq_ok.1 h
      obtain ⟨found, hfound, hfinds⟩ := firstMatching_finds hW horigin hbound (entries.getD [])
      rw [hfound] at hexisting
      cases hexisting
      cases h
      exact .inr ⟨hbound, hnot, _, hfinds, rfl⟩

/-- The plan for a candidate that may be saved. -/
theorem evaluateSavePrompt_of_allowed (hW : W.Assumed) {settings : BrowserSettings}
    {message : CredentialMessage} (horigin : IsOrigin W message.origin)
    (hkind : message.kind = .saveCandidate) (henabled : settings.passwordSaveEnabled = true)
    (hallowed : message.origin ∉ settings.passwordNeverSaveOrigins.getD [])
    (hbound : length16 message.origin ≤ 2048) (entries : Option (List (Option VaultEntry))) :
    ∃ found, Finds W message (entries.getD []) found ∧
      evaluateSavePrompt W settings message entries = .ok (planFor message found) := by
  obtain ⟨found, hfound, hfinds⟩ := firstMatching_finds hW horigin hbound (entries.getD [])
  refine ⟨found, hfinds, ?_⟩
  have hnever : isNeverSaveOrigin W settings message.origin = .ok false := by
    rw [isNeverSaveOrigin, horigin.again hbound, bind_ok, decide_eq_false hallowed]
    rfl
  rw [evaluateSavePrompt, require_pos hkind, bind_ok, henabled, if_neg (by decide), hnever, bind_ok,
    if_neg (by decide), hfound, bind_ok]
  rfl

/-- A planned save that is decided for. -/
theorem buildAcceptedSave_added {message : CredentialMessage}
    (hkind : message.kind = .saveCandidate) {plan : PromptPlan} (horigin : plan.origin = message.origin) (hplan : plan.kind = .save) :
    buildAcceptedSave W message (some plan) .save none = .ok (some (newEntry message)) := by
  have hdecision : ¬ (PromptDecision.save = .notNow ∨ PromptDecision.save = .neverForSite) := by
    decide
  rw [buildAcceptedSave, require_pos hkind, bind_ok]
  dsimp only [fromOption]
  rw [bind_ok, require_pos horigin, bind_ok, if_neg hdecision, if_pos ⟨hplan, rfl⟩]
  rfl

/-- What a decision may come to: nothing, the new entry of a planned save, or the named entry with
the new password for a planned update. -/
inductive Accepted (W : WorkflowPlatform) (message : CredentialMessage) :
    PromptPlan → PromptDecision → Option VaultEntry → Option VaultEntry → Prop
  | declined {plan : PromptPlan} {decision : PromptDecision} {existing : Option VaultEntry} :
      decision = .notNow ∨ decision = .neverForSite → Accepted W message plan decision existing none
  | added {plan : PromptPlan} : plan.kind = .save →
      Accepted W message plan .save none (some (newEntry message))
  | changed {plan : PromptPlan} {e : VaultEntry} : plan.kind = .update →
      e.id = plan.existingEntryId → Matches W message e →
      Accepted W message plan .update (some e) (some { e with password := message.password })

theorem checkExisting_eq_ok {message : CredentialMessage} (horigin : IsOrigin W message.origin)
    {plan : PromptPlan} {existing : Option VaultEntry} {e : VaultEntry}
    (h : checkExisting W message plan existing = .ok e) :
    existing = some e ∧ e.id = plan.existingEntryId ∧ Matches W message e := by
  simp only [checkExisting, bind_eq_ok, fromOption_eq_ok, require_eq_ok] at h
  obtain ⟨found, hfound, -, hid, b, hb, -, hmatching, h⟩ := h
  cases h
  refine ⟨hfound, hid, ?_⟩
  obtain ⟨same, hsame, hb⟩ := bind_eq_ok.1 hb
  rw [hmatching] at hb
  have hboth := Except.ok.inj hb
  rw [Bool.and_eq_true, decide_eq_true_eq] at hboth
  obtain ⟨htrue, husername⟩ := hboth
  rw [htrue] at hsame
  refine ⟨?_, husername⟩
  simp only [entryMatchesExactOrigin] at hsame
  split at hsame
  · cases hsame
  · simp only [bind_eq_ok] at hsame
    obtain ⟨url, hurl, exact, hexact, hsame⟩ := hsame
    have heq := of_decide_eq_true (Except.ok.inj hsame)
    rw [hurl, heq, horigin.eq_of_normalize hexact]

/-- Every other combination of plan, decision and entry is refused. -/
theorem accepted_of_buildAcceptedSave {message : CredentialMessage}
    (horigin : IsOrigin W message.origin) {plan : Option PromptPlan} {decision : PromptDecision}
    {existing result : Option VaultEntry}
    (h : buildAcceptedSave W message plan decision existing = .ok result) :
    ∃ p, plan = some p ∧ p.origin = message.origin ∧
      Accepted W message p decision existing result := by
  simp only [buildAcceptedSave, bind_eq_ok, require_eq_ok, fromOption_eq_ok] at h
  obtain ⟨-, -, p, hplan, -, hp, h⟩ := h
  refine ⟨p, hplan, hp, ?_⟩
  split at h
  · cases h
    exact .declined ‹_›
  · split at h
    · rename_i hboth
      obtain ⟨_, hnone, h⟩ := bind_eq_ok.1 h
      rw [require_eq_ok, Option.isNone_iff_eq_none] at hnone
      cases h
      rw [hboth.2, hnone]
      exact .added hboth.1
    · split at h
      · rename_i hboth
        obtain ⟨e, he, h⟩ := bind_eq_ok.1 h
        obtain ⟨hexisting, hid, hmatches⟩ := checkExisting_eq_ok horigin he
        cases h
        rw [hboth.2, hexisting]
        exact .changed hboth.1 hid hmatches
      · cases h

end ZsecShield.Browser
