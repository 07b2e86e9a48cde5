import ZsecShield.Browser.VaultRecords

/-!
# Secure origins

`NormalizeSecureOrigin` of `BrowserCredentialWorkflowPolicy` builds the root of a secure URI from
its IDN host and its port and takes the authority of what it has built.  Under
`WorkflowPlatform.Assumed` an origin in this form is its own normal form (`IsOrigin.again`).
-/

namespace ZsecShield.Browser

open Text (Str str CodePoint)
open Checks

/-- The exceptions of the credential workflow. -/
inductive WorkflowError where
  | vault (e : VaultError)
  /-- `UriFormatException`, which is no `ArgumentException`. -/
  | uriFormat

/-- What the credential workflow takes from .NET. -/
structure WorkflowPlatform extends VaultPlatform where
  /-- `uri.IdnHost`. -/
  idnHost : Url → Str
  /-- `serializer.DeserializeObject` under the bounds of a message. -/
  deserializeMessage : Str → Option Json

/-! ## Building a URI -/

/-- The host of a `UriBuilder`: an address is put in brackets. -/
def builderHost (host : Str) : Str :=
  if colon ∈ host ∧ host.head? ≠ some bracket then bracket :: (host ++ [Text.ofChar ']']) else host

/-- The port of a URI where it is not the default one. -/
def explicitPort (u : Url) : Option Nat :=
  (u.authority.bind Authority.explicitPort).filter fun n => (n : Int) ≠ Url.defaultPort u.scheme

/-- `normalized.ToString()`. -/
def rootText (W : WorkflowPlatform) (u : Url) : Str :=
  let host := toLower (builderHost (W.idnHost u))
  let port := match explicitPort u with
    | none => []
    | some n => colon :: Text.digits n
  str "https://" ++ builderHost host ++ port ++ [slash]

/-- `uri.GetLeftPart(UriPartial.Authority)`. -/
def leftPart (u : Url) : Str :=
  u.scheme ++ colon :: slash :: slash :: (u.authority.map Authority.text).getD []

/-- The origin of a URI that was built. -/
def originText (u : Url) : Str := toLower (trimEndOf (fun c => decide (c = slash)) (leftPart u))

/-- An absolute HTTPS URI without credentials. -/
def Secure (u : Url) : Prop :=
  toLower u.scheme = str "https" ∧ isBlank u.host = false ∧ u.userInfo = []

instance (u : Url) : Decidable (Secure u) := inferInstanceAs (Decidable (_ ∧ _ ∧ _))

/-- `NormalizeSecureOrigin` of a URI. -/
def normalizeSecureOrigin (W : WorkflowPlatform) (uri : Url) : Except WorkflowError Str := do
  require (Secure uri)
    (.vault (.argument (str "Credential workflows require an absolute HTTPS origin.")))
  let normalized ← fromOption (W.tryCreate (rootText W uri)) .uriFormat
  pure (originText normalized)

/-- `NormalizeSecureOrigin` of a text. -/
def normalizeSecureOriginText (W : WorkflowPlatform) (value : Option Str) :
    Except WorkflowError Str := do
  let refusal := WorkflowError.vault (.argument (str "Credential origin is invalid."))
  let value ← fromOption value refusal
  require (isBlank value = false ∧ length16 value ≤ 2048) refusal
  let uri ← fromOption (W.tryCreate value) refusal
  normalizeSecureOrigin W uri

/-- What the workflow relies on.  The URI that is built from the IDN host and the port of a secure
URI has that host and port, and its origin is parsed as that URI. -/
structure WorkflowPlatform.Assumed (W : WorkflowPlatform) : Prop where
  vault : W.toVaultPlatform.Assumed
  root : ∀ s u, W.tryCreate s = some u → Secure u → ∃ root,
    W.tryCreate (rootText W u) = some root ∧ Secure root ∧
      W.idnHost root = toLower (W.idnHost u) ∧ explicitPort root = explicitPort u ∧
      W.tryCreate (originText root) = some root
  /-- A text is found where its UTF-16 units stand. -/
  contains : ∀ value term, units term <:+: units value → W.containsIgnoreCase value term = true

/-! ## Letters -/

theorem val_toLowerPoint {c : CodePoint} (h : 65 ≤ c.val ∧ c.val ≤ 90) :
    (Fin.ofNat 0x110000 (c.val + 32)).val = c.val + 32 :=
  Nat.mod_eq_of_lt (by omega)

theorem toLower_toLower (s : Str) : toLower (toLower s) = toLower s := by
  refine toLower_eq fun c hc => ?_
  obtain ⟨d, -, rfl⟩ := List.mem_map.1 hc
  split
  · rename_i h
    rw [val_toLowerPoint h]
    omega
  · assumption

/-- A character that is no letter stays, and no letter becomes one. -/
theorem mem_toLower {s : Str} {c : CodePoint} (h : c.val < 65 ∨ 90 < c.val ∧ c.val < 97) :
    c ∈ toLower s ↔ c ∈ s := by
  rw [toLower, List.mem_map]
  constructor
  · rintro ⟨d, hd, rfl⟩
    split at h
    · rename_i hletter
      rw [val_toLowerPoint hletter] at h
      omega
    · rw [if_neg ‹_›]
      exact hd
  · intro hc
    exact ⟨c, hc, if_neg (by omega)⟩

theorem head_toLower (s : Str) : (toLower s).head? = some bracket ↔ s.head? = some bracket := by
  cases s with
  | nil => rfl
  | cons c s =>
      have hpoint : (if 65 ≤ c.val ∧ c.val ≤ 90 then Fin.ofNat 0x110000 (c.val + 32) else c) =
          bracket ↔ c = bracket := by
        split
        · rename_i h
          constructor
          · intro heq
            have hval := congrArg Fin.val heq
            rw [val_toLowerPoint h, val_bracket] at hval
            omega
          · rintro rfl
            rw [val_bracket] at h
            omega
        · rfl
      simpa [toLower] using hpoint

theorem toLower_builderHost (host : Str) :
    toLower (builderHost host) = builderHost (toLower host) := by
  have hcolon : colon ∈ toLower host ↔ colon ∈ host := mem_toLower (.inl (by decide))
  have hhead : (toLower host).head? ≠ some bracket ↔ host.head? ≠ some bracket :=
    not_congr (head_toLower host)
  simp only [builderHost, hcolon, hhead]
  split
  · have hopen : toLower [bracket] = [bracket] := by decide
    have hclose : toLower [Text.ofChar ']'] = [Text.ofChar ']'] := by decide
    have happend (s t : Str) : toLower (s ++ t) = toLower s ++ toLower t := List.map_append
    rw [← List.singleton_append, happend, happend, hopen, hclose, List.singleton_append]
  · rfl

theorem builderHost_builderHost (host : Str) :
    builderHost (builderHost host) = builderHost host := by
  by_cases h : colon ∈ host ∧ host.head? ≠ some bracket
  · have hhead : ¬ (colon ∈ builderHost host ∧ (builderHost host).head? ≠ some bracket) := by
      rw [builderHost, if_pos h]
      simp
    rw [builderHost, if_neg hhead]
  · rw [builderHost, builderHost, if_neg h, if_neg h]

/-- The root of a root is built from the same text. -/
theorem rootText_congr {W : WorkflowPlatform} {u root : Url}
    (hhost : W.idnHost root = toLower (W.idnHost u)) (hport : explicitPort root = explicitPort u) :
    rootText W root = rootText W u := by
  simp only [rootText, hhost, hport, toLower_builderHost, toLower_toLower]

/-! ## Colons -/

theorem mem_trimEndOf {p : CodePoint → Bool} {s : Str} {c : CodePoint} (hc : c ∈ s)
    (hp : p c = false) : c ∈ trimEndOf p s := by
  rw [trimEndOf, List.mem_reverse]
  have hsplit : s.reverse.takeWhile p ++ s.reverse.dropWhile p = s.reverse :=
    List.takeWhile_append_dropWhile
  rw [← List.mem_reverse, ← hsplit, List.mem_append] at hc
  rcases hc with hc | hc
  · rw [List.all_eq_true.1 List.all_takeWhile c hc] at hp
    cases hp
  · exact hc

theorem not_isBlank_of_colon {s : Str} (h : colon ∈ s) : isBlank s = false := by
  have hcolon : isWhiteSpace colon = false := by decide
  rw [isBlank, List.all_eq_false]
  exact ⟨colon, h, by simp [hcolon]⟩

theorem not_isBlank_text (u : Url) : isBlank u.text = false :=
  not_isBlank_of_colon (List.mem_append_right _ List.mem_cons_self)

theorem not_isBlank_originText (u : Url) : isBlank (originText u) = false := by
  have hcolon : colon ∈ leftPart u := List.mem_append_right _ List.mem_cons_self
  exact not_isBlank_of_colon ((mem_toLower (.inl (by decide))).2 (mem_trimEndOf hcolon (by decide)))

/-! ## Normal forms -/

variable {W : WorkflowPlatform}

theorem normalizeSecureOrigin_eq_ok {uri : Url} {o : Str} :
    normalizeSecureOrigin W uri = .ok o ↔
      Secure uri ∧ ∃ root, W.tryCreate (rootText W uri) = some root ∧ originText root = o := by
  simp only [normalizeSecureOrigin, bind_eq_ok, require_eq_ok, fromOption_eq_ok, exists_and_left,
    exists_const, pure, Except.pure, Except.ok.injEq]

theorem normalizeSecureOriginText_eq_ok {value : Option Str} {o : Str} :
    normalizeSecureOriginText W value = .ok o ↔ ∃ s uri, value = some s ∧ isBlank s = false ∧
      length16 s ≤ 2048 ∧ W.tryCreate s = some uri ∧ normalizeSecureOrigin W uri = .ok o := by
  simp only [normalizeSecureOriginText, bind_eq_ok, require_eq_ok, fromOption_eq_ok,
    exists_and_left, exists_const, and_assoc]

/-- Refusals are argument errors: what is built from a parsed URI is a URI. -/
theorem normalizeSecureOrigin_cases (hW : W.Assumed) {s : Str} {uri : Url}
    (hs : W.tryCreate s = some uri) :
    (∃ o, normalizeSecureOrigin W uri = .ok o) ∨
      ∃ text, normalizeSecureOrigin W uri = .error (.vault (.argument text)) := by
  by_cases hsecure : Secure uri
  · obtain ⟨root, hroot, -⟩ := hW.root s uri hs hsecure
    exact .inl ⟨_, normalizeSecureOrigin_eq_ok.2 ⟨hsecure, root, hroot, rfl⟩⟩
  · refine .inr ⟨str "Credential workflows require an absolute HTTPS origin.", ?_⟩
    rw [normalizeSecureOrigin, require_neg hsecure]
    rfl

theorem normalizeSecureOriginText_cases (hW : W.Assumed) (value : Option Str) :
    (∃ o, normalizeSecureOriginText W value = .ok o) ∨
      ∃ text, normalizeSecureOriginText W value = .error (.vault (.argument text)) := by
  cases hvalue : value with
  | none => exact .inr ⟨_, rfl⟩
  | some s =>
      by_cases hbound : isBlank s = false ∧ length16 s ≤ 2048
      · cases huri : W.tryCreate s with
        | none =>
            refine .inr ⟨str "Credential origin is invalid.", ?_⟩
            simp only [normalizeSecureOriginText, fromOption, bind_ok, require_pos hbound, huri]
            rfl
        | some uri =>
            have hread : normalizeSecureOriginText W (some s) = normalizeSecureOrigin W uri := by
              simp only [normalizeSecureOriginText, fromOption, bind_ok, require_pos hbound, huri]
            rw [hread]
            exact normalizeSecureOrigin_cases hW huri
      · refine .inr ⟨str "Credential origin is invalid.", ?_⟩
        simp only [normalizeSecureOriginText, fromOption, bind_ok, require_neg hbound]
        rfl

/-- An origin in its normal form. -/
def IsOrigin (W : WorkflowPlatform) (o : Str) : Prop :=
  isBlank o = false ∧ ∃ root, W.tryCreate o = some root ∧ normalizeSecureOrigin W root = .ok o

theorem isOrigin_of_normalize (hW : W.Assumed) {s o : Str} {uri : Url}
    (hs : W.tryCreate s = some uri) (h : normalizeSecureOrigin W uri = .ok o) : IsOrigin W o := by
  obtain ⟨hsecure, built, hbuilt, rfl⟩ := normalizeSecureOrigin_eq_ok.1 h
  obtain ⟨root, hroot, hrootSecure, hhost, hport, horigin⟩ := hW.root s uri hs hsecure
  have hsame : built = root := Option.some.inj (hbuilt.symm.trans hroot)
  subst hsame
  refine ⟨not_isBlank_originText built, built, horigin, ?_⟩
  refine normalizeSecureOrigin_eq_ok.2 ⟨hrootSecure, built, ?_, rfl⟩
  rw [rootText_congr hhost hport]
  exact hroot

/-- A normalized origin is its own normal form, if it is within the bound. -/
theorem IsOrigin.again {o : Str} (h : IsOrigin W o) (hbound : length16 o ≤ 2048) :
    normalizeSecureOriginText W (some o) = .ok o := by
  obtain ⟨hblank, root, hroot, hnormal⟩ := h
  exact normalizeSecureOriginText_eq_ok.2 ⟨o, root, rfl, hblank, hbound, hroot, hnormal⟩

theorem IsOrigin.eq_of_normalize {o o' : Str} (h : IsOrigin W o)
    (ho : normalizeSecureOriginText W (some o) = .ok o') : o' = o := by
  obtain ⟨s, uri, hs, -, hbound, -⟩ := normalizeSecureOriginText_eq_ok.1 ho
  cases hs
  exact Except.ok.inj (ho.symm.trans (h.again hbound))

end ZsecShield.Browser
