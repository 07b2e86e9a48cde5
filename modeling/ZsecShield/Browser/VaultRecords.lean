import ZsecShield.Browser.Vault
import ZsecShield.Lib.Json.Shape

/-!
# Records and what is read back

`VaultPlatform.Assumed` collects what the vault relies on: the cipher gives a plaintext back, the
serializer its values, and the URI parser its own canonical text.  From it come the rules of the
layers: text through bytes, a document through its file, an envelope through its fields.
-/

namespace ZsecShield.Browser

open Text (Str str CodePoint)
open Checks

/-! ## Strings through bytes -/

theorem replacePoint_of_not {c : CodePoint} (h : ¬ Text.IsSurrogate c) : replacePoint c = c :=
  if_neg h

theorem not_isSurrogate_replacePoint (c : CodePoint) : ¬ Text.IsSurrogate (replacePoint c) := by
  unfold replacePoint
  split
  · decide
  · assumption

theorem encodable_sanitize (s : Str) : Text.Encodable (sanitize s) := by
  intro c hc
  obtain ⟨d, -, rfl⟩ := List.mem_map.1 hc
  exact not_isSurrogate_replacePoint d

/-- A text stays as it is exactly if it holds no unpaired surrogate. -/
theorem sanitize_eq_iff {s : Str} : sanitize s = s ↔ Text.Encodable s := by
  constructor
  · intro h
    rw [← h]
    exact encodable_sanitize s
  · intro h
    rw [sanitize]
    conv_rhs => rw [← List.map_id s]
    exact List.map_congr_left fun c hc => replacePoint_of_not (h c hc)

theorem length16_sanitize (s : Str) : length16 (sanitize s) = length16 s := by
  have hpoint (c : CodePoint) : (if (replacePoint c).val < 0x10000 then 1 else 2) =
      if c.val < 0x10000 then 1 else 2 := by
    unfold replacePoint
    split
    · rename_i h
      rw [if_pos (by decide), if_pos (by have := h.2; omega)]
    · rfl
  rw [length16, length16, sanitize, List.map_map]
  exact congrArg List.sum (List.map_congr_left fun c _ => hpoint c)

theorem zero_mem_sanitize {s : Str} : 0 ∈ sanitize s ↔ 0 ∈ s := by
  rw [sanitize, List.mem_map]
  constructor
  · rintro ⟨c, hc, heq⟩
    unfold replacePoint at heq
    split at heq
    · cases heq
    · rw [← heq]
      exact hc
  · intro h
    exact ⟨0, h, replacePoint_of_not (by decide)⟩

theorem getString_getBytes (P : VaultPlatform) (s : Str) : getString P (getBytes s) = sanitize s := by
  obtain ⟨b, hb⟩ := Text.encodeUtf8_of_encodable (encodable_sanitize s)
  rw [getString, getBytes, hb, Option.getD_some, Text.decodeUtf8_encodeUtf8 hb, Option.getD_some]

theorem length_getBytes_of_encodable {s : Str} (h : Text.Encodable s) :
    (getBytes s).length = Text.utf8Size s := by
  obtain ⟨b, hb⟩ := Text.encodeUtf8_of_encodable h
  rw [getBytes, sanitize_eq_iff.2 h, hb, Option.getD_some, Text.length_encodeUtf8 hb]

theorem length_getBytes {s : Str} (h : Json.Ascii s) : (getBytes s).length = s.length := by
  have hone : ∀ c ∈ s, Text.pointSize c = 1 := fun c hc => by
    have := h c hc
    exact if_pos (by omega)
  rw [length_getBytes_of_encodable h.encodable, Text.utf8Size, List.map_congr_left hone]
  simp

theorem readAllText_getBytes (P : VaultPlatform) {s : Str} (h : Json.Ascii s) :
    readAllText P (getBytes s) = s := by
  rw [readAllText, getString_getBytes, sanitize_eq_iff.2 h.encodable]
  cases s with
  | nil => rfl
  | cons c s =>
      have := h c List.mem_cons_self
      exact if_neg (by omega)

theorem length16_ascii {s : Str} (h : Json.Ascii s) : length16 s = s.length := by
  have hone : ∀ c ∈ s, (if c.val < 0x10000 then 1 else 2) = 1 := fun c hc =>
    if_pos (by have := h c hc; omega)
  rw [length16, List.map_congr_left hone]
  simp

/-! ## Identifiers -/

theorem hexLower_cases {c d : CodePoint} (h : hexLower c = some d) :
    48 ≤ d.val ∧ d.val ≤ 57 ∨ 97 ≤ d.val ∧ d.val ≤ 102 := by
  unfold hexLower at h
  split at h
  · cases h
    assumption
  · split at h
    · rename_i hupper
      cases h
      have hval : (Fin.ofNat 0x110000 (c.val + 32)).val = c.val + 32 :=
        Nat.mod_eq_of_lt (by omega)
      rw [hval]
      omega
    · cases h

theorem hexLower_self {d : CodePoint} (h : 48 ≤ d.val ∧ d.val ≤ 57 ∨ 97 ≤ d.val ∧ d.val ≤ 102) :
    hexLower d = some d := if_pos h

/-- An id the vault works with. -/
def IsId (id : Str) : Prop :=
  id.length = 32 ∧ ∀ c ∈ id, 48 ≤ c.val ∧ c.val ≤ 57 ∨ 97 ≤ c.val ∧ c.val ≤ 102

theorem isId_of_validateId {id safeId : Str} (h : validateId id = .ok safeId) : IsId safeId := by
  unfold validateId at h
  split at h
  · rename_i hlength
    rw [fromOption_eq_ok] at h
    rw [IsId, ← hlength]
    clear hlength
    induction id generalizing safeId with
    | nil =>
        cases h
        simp
    | cons c id ih =>
        rw [List.mapM_cons] at h
        cases hc : hexLower c with
        | none => simp [hc] at h
        | some d =>
            cases hid : id.mapM hexLower with
            | none => simp [hc, hid] at h
            | some rest =>
                simp only [hc, hid, Option.pure_def, Option.bind_eq_bind, Option.bind_some,
                  Option.some.injEq] at h
                obtain ⟨hlength, hdigits⟩ := ih hid
                rw [← h]
                exact ⟨congrArg Nat.succ hlength,
                  List.forall_mem_cons.2 ⟨hexLower_cases hc, hdigits⟩⟩
  · cases h

theorem validateId_of_isId {id : Str} (h : IsId id) : validateId id = .ok id := by
  rw [validateId, if_pos h.1, fromOption_eq_ok]
  have hall := h.2
  clear h
  induction id with
  | nil => rfl
  | cons c id ih =>
      rw [List.forall_mem_cons] at hall
      rw [List.mapM_cons, hexLower_self hall.1, ih hall.2]
      rfl

theorem IsId.ascii {id : Str} (h : IsId id) : Json.Ascii id := fun c hc => by
  have := h.2 c hc
  omega

theorem length_recordContext {id : Str} (h : IsId id) : (recordContext id).length = 64 := by
  rw [recordContext, nulTerminated, List.length_append, List.length_append, h.1]
  rfl

theorem ascii_recordContext {id : Str} (h : IsId id) : Json.Ascii (recordContext id) :=
  Json.ascii_append (Json.ascii_append (Json.ascii_literal (by decide)) (Json.ascii_literal (by decide)))
    h.ascii

/-! ## What the vault relies on -/

/-- A credential as its bytes hold it. -/
def Credential.written (c : Credential) : Credential :=
  ⟨sanitize c.id, sanitize c.displayName, sanitize c.url, sanitize c.username, sanitize c.password,
    sanitize c.notes, sanitize c.createdAtUtc, sanitize c.updatedAtUtc⟩

/-- What the vault relies on: the cipher gives every plaintext back, the serializer every value,
and the URI parser takes its own canonical text for what it is. -/
structure VaultPlatform.Assumed (P : VaultPlatform) : Prop where
  decrypts : ∀ key iv plaintext, key.length = 32 → iv.length = 16 →
    P.aesDecrypt key iv (P.aesEncrypt key iv plaintext) = some plaintext
  /-- A padded plaintext is a block at least. -/
  padded : ∀ key iv plaintext, 16 ≤ (P.aesEncrypt key iv plaintext).length
  readsDocument : ∀ (d : RecordDocument) s, P.serialize d.toJson = some s →
    P.deserializeObject s = some d.toJson
  /-- Texts in ASCII are serialized in ASCII. -/
  asciiDocument : ∀ (d : RecordDocument) s, Json.Ascii d.id → Json.Ascii d.commitment →
    P.serialize d.toJson = some s → Json.Ascii s
  /-- A serialized document holds its texts. -/
  holds : ∀ (d : RecordDocument) s, P.serialize d.toJson = some s →
    length16 (Base64.encode d.envelope.ciphertext) ≤ length16 s
  readsCredential : ∀ c s, P.serializeCredential c = some s →
    P.deserializeCredential s = some (some c.raw)
  /-- Unpaired surrogates are serialized as they are. -/
  replaces : ∀ c s, P.serializeCredential c = some s →
    P.serializeCredential c.written = some (sanitize s)
  stable : ∀ s u, length16 s ≤ 2048 → P.tryCreate s = some u → P.tryCreate u.text = some u
  /-- A canonical text is percent-encoded. -/
  encodes : ∀ s u, P.tryCreate s = some u → Text.Encodable u.text

/-! ## Envelopes -/

variable {P : VaultPlatform}

theorem length_hkdfSha256 (input salt info : Bytes) :
    (hkdfSha256 P input salt info 64).length = 64 := by
  simp [hkdfSha256, hkdfBlocks, P.length_hmac]

theorem length_encryptionKey (rootKey salt context : Bytes) :
    (encryptionKey P rootKey salt context).length = 32 := by
  simp [encryptionKey, material, length_hkdfSha256]

theorem printable_encode (data : Bytes) : Printable (Base64.encode data) := by
  have hdigit : ∀ n < 64, 0x21 ≤ (Base64.digit n).val ∧ (Base64.digit n).val ≤ 0x7E := by decide
  intro c hc
  rcases Base64.isDigit_of_mem_encode hc with ⟨n, hn, rfl⟩ | rfl
  · exact hdigit n hn
  · decide

theorem ascii_encode (data : Bytes) : Json.Ascii (Base64.encode data) := fun c hc => by
  have := printable_encode data c hc
  omega

theorem not_isBlank_encode {data : Bytes} (h : 0 < data.length) :
    isBlank (Base64.encode data) = false := by
  cases hencode : Base64.encode data with
  | nil =>
      have hlength := Base64.length_encode data
      rw [hencode] at hlength
      simp at hlength
      omega
  | cons c rest =>
      have hc := printable_encode data c (hencode ▸ List.mem_cons_self)
      simp [isBlank, not_isWhiteSpace hc]

theorem decodeBounded_encode {data : Bytes} {minimum maximum : Nat} {name : String}
    (hpos : 0 < minimum) (hmin : minimum ≤ data.length) (hmax : data.length ≤ maximum)
    (htext : length16 (Base64.encode data) ≤ maximum * 2) :
    decodeBounded (.str (Base64.encode data)) minimum maximum name = .ok data := by
  have hblank : isBlank (Base64.encode data) = false := not_isBlank_encode (by omega)
  simp only [decodeBounded, bind_eq_ok, fromOption_eq_ok, require_eq_ok, Json.strOf_eq_some]
  exact ⟨_, rfl, (), ⟨hblank, htext⟩, data, Base64.decode_encode data, (), ⟨hmin, hmax, rfl⟩, rfl⟩

/-- An envelope within the bounds of the reader. -/
structure Envelope.Bounded (e : Envelope) : Prop where
  salt : e.salt.length = 32
  iv : e.iv.length = 16
  ciphertext : 16 ≤ e.ciphertext.length
  held : length16 (Base64.encode e.ciphertext) ≤ maximumFileBytes
  mac : e.mac.length = 32

theorem length_le_of_encode {data : Bytes} {n : Nat} (h : length16 (Base64.encode data) ≤ n) :
    data.length ≤ n := by
  rw [length16_ascii (ascii_encode data), Base64.length_encode] at h
  omega

theorem lookup_members (e : Envelope) :
    Json.lookup (str "cipher") e.members = some (.str (str "AES-256-CBC-HMAC-SHA256")) ∧
      Json.lookup (str "kdf") e.members = some (.str (str "HKDF-SHA256")) ∧
      Json.lookup (str "salt") e.members = some (.str (Base64.encode e.salt)) ∧
      Json.lookup (str "iv") e.members = some (.str (Base64.encode e.iv)) ∧
      Json.lookup (str "ciphertext") e.members = some (.str (Base64.encode e.ciphertext)) ∧
      Json.lookup (str "mac") e.members = some (.str (Base64.encode e.mac)) := by
  simp [Envelope.members, Json.lookup, Text.str_injective]

theorem indexed_of_lookup {members : List (Str × Json)} {key : String} {v : Json}
    (h : Json.lookup (str key) members = some v) : indexed members key = .ok v :=
  fromOption_eq_ok.2 h

theorem requireText_of_lookup {members : List (Str × Json)} {key : String} {text : Str}
    {maximum : Nat} (h : Json.lookup (str key) members = some (.str text))
    (hlength : length16 text ≤ maximum) : requireText members key text maximum = .ok () := by
  simp only [requireText, indexed_of_lookup h, bind_ok]
  exact require_pos ⟨hlength, rfl⟩ _

theorem length16_encode (data : Bytes) :
    length16 (Base64.encode data) = 4 * ((data.length + 2) / 3) := by
  rw [length16_ascii (ascii_encode data), Base64.length_encode]

/-- What is written as an envelope is read as that envelope. -/
theorem openEnvelope_members {e : Envelope} (h : e.Bounded) : openEnvelope e.members = .ok e := by
  obtain ⟨hcipher, hkdf, hsalt, hiv, hciphertext, hmac⟩ := lookup_members e
  have hkeys : requireExactKeys e.members ["cipher", "kdf", "salt", "iv", "ciphertext", "mac"] =
      .ok () := by
    refine require_pos ⟨rfl, ?_⟩ _
    simp [Envelope.members]
  have hcipherText : requireText e.members "cipher" (str "AES-256-CBC-HMAC-SHA256") 80 = .ok () :=
    requireText_of_lookup hcipher (by decide)
  have hkdfText : requireText e.members "kdf" (str "HKDF-SHA256") 80 = .ok () :=
    requireText_of_lookup hkdf (by decide)
  have hsaltBytes : decodeBounded (.str (Base64.encode e.salt)) 32 32 "salt" = .ok e.salt :=
    decodeBounded_encode (by omega) h.salt.ge h.salt.le (by rw [length16_encode, h.salt]; omega)
  have hivBytes : decodeBounded (.str (Base64.encode e.iv)) 16 16 "IV" = .ok e.iv :=
    decodeBounded_encode (by omega) h.iv.ge h.iv.le (by rw [length16_encode, h.iv]; omega)
  have hciphertextBytes : decodeBounded (.str (Base64.encode e.ciphertext)) 16 maximumFileBytes
      "ciphertext" = .ok e.ciphertext :=
    decodeBounded_encode (by omega) h.ciphertext (length_le_of_encode h.held)
      (h.held.trans (Nat.le_mul_of_pos_right _ (by omega)))
  have hmacBytes : decodeBounded (.str (Base64.encode e.mac)) 32 32 "MAC" = .ok e.mac :=
    decodeBounded_encode (by omega) h.mac.ge h.mac.le (by rw [length16_encode, h.mac]; omega)
  simp only [openEnvelope, hkeys, hcipherText, hkdfText, indexed_of_lookup hsalt, hsaltBytes,
    indexed_of_lookup hiv, hivBytes, indexed_of_lookup hciphertext, hciphertextBytes,
    indexed_of_lookup hmac, hmacBytes, bind_ok]
  rfl

theorem decryptEnvelope_eq_ok {members : List (Str × Json)} {rootKey plaintext : Bytes}
    {context : Str} : decryptEnvelope P members rootKey context = .ok plaintext ↔
      ∃ e, openEnvelope members = .ok e ∧
        e.mac = P.hmac (macKey P rootKey e.salt (getBytes context))
          (authenticated (getBytes context) e.salt e.iv e.ciphertext) ∧
        P.aesDecrypt (encryptionKey P rootKey e.salt (getBytes context)) e.iv e.ciphertext =
          some plaintext := by
  simp only [decryptEnvelope, bind_eq_ok, require_eq_ok, fromOption_eq_ok, exists_and_left,
    exists_const]

/-- An envelope decrypts to what was encrypted. -/
theorem decryptEnvelope_encryptEnvelope (hP : P.Assumed) {plaintext rootKey salt iv : Bytes}
    {context : Str} (h : (encryptEnvelope P plaintext rootKey context salt iv).Bounded) :
    decryptEnvelope P (encryptEnvelope P plaintext rootKey context salt iv).members rootKey
      context = .ok plaintext :=
  decryptEnvelope_eq_ok.2 ⟨_, openEnvelope_members h, rfl,
    hP.decrypts _ _ _ (length_encryptionKey _ _ _) h.iv⟩

theorem ascii_hexText (data : Bytes) : Json.Ascii (hexText data) := by
  have hdigit : ∀ n < 16, (Text.ofChar (Nat.digitChar n)).val < 128 := by decide
  intro c hc
  obtain ⟨b, -, hb⟩ := List.mem_flatMap.1 hc
  have hlt := b.toNat_lt
  simp only [hexByte, List.mem_cons, List.not_mem_nil, or_false] at hb
  rcases hb with rfl | rfl
  · exact hdigit _ (by omega)
  · exact hdigit _ (by omega)

theorem length_hexText (data : Bytes) : (hexText data).length = 2 * data.length := by
  induction data with
  | nil => rfl
  | cons b data ih =>
      simp only [hexText, List.flatMap_cons, List.length_append] at ih ⊢
      rw [ih]
      simp [hexByte]
      omega

/-- The commitment of an envelope of our own. -/
theorem commitment_members (P : VaultPlatform) (id : Str) (e : Envelope) :
    ∃ bound, commitment P id e.members = .ok bound ∧ Json.Ascii bound ∧ length16 bound = 64 := by
  obtain ⟨-, -, hsalt, hiv, hciphertext, hmac⟩ := lookup_members e
  have htext {key : String} {text : Str} (h : Json.lookup (str key) e.members = some (.str text)) :
      memberText P e.members key = .ok text := by
    rw [memberText, indexed_of_lookup h]
    rfl
  simp only [commitment, htext hsalt, htext hiv, htext hciphertext, htext hmac, bind_ok]
  exact ⟨_, rfl, ascii_hexText _, by
    rw [length16_ascii (ascii_hexText _), length_hexText, P.length_sha256]⟩

/-! ## Files -/

/-- The document of a record as it is sealed. -/
theorem sealRecord_eq_ok {masterKey plaintext : Bytes} {safeId : Str} {fresh : Fresh}
    {d : RecordDocument} (h : sealRecord P masterKey plaintext safeId fresh = .ok d) :
    d.id = safeId ∧
      d.envelope = encryptEnvelope P plaintext masterKey (recordContext safeId) fresh.salt fresh.iv ∧
      commitment P safeId d.envelope.members = .ok d.commitment := by
  obtain ⟨bound, hbound, h⟩ := bind_eq_ok.1 h
  cases h
  exact ⟨rfl, rfl, hbound⟩

theorem writeJsonAtomic_eq_ok {v v' : Vault} {stem : Str} {value : Json} {newOnly : Bool}
    (h : writeJsonAtomic P v stem value newOnly = .ok v') :
    ∃ text, P.serialize value = some text ∧ 0 < (getBytes text).length ∧
      (getBytes text).length ≤ maximumFileBytes ∧
      (newOnly = true → Json.lookup stem v.records = none) ∧
      v' = { v with records := Json.insertMember v.records stem (getBytes text) } := by
  simp only [writeJsonAtomic, bind_eq_ok, fromOption_eq_ok, require_eq_ok] at h
  obtain ⟨text, htext, -, hsize, -, hnew, hv'⟩ := h
  cases hv'
  exact ⟨text, htext, hsize.1, hsize.2, fun hcreate => by simpa [hcreate] using hnew, rfl⟩

theorem lookup_document (d : RecordDocument) :
    ∃ members, d.toJson = .obj members ∧
      requireExactKeys members ["schema", "id", "envelope", "zmath_commitment"] = .ok () ∧
      Json.lookup (str "schema") members = some (.str recordSchema) ∧
      Json.lookup (str "id") members = some (.str d.id) ∧
      Json.lookup (str "envelope") members = some (.obj d.envelope.members) ∧
      Json.lookup (str "zmath_commitment") members = some (.str d.commitment) := by
  refine ⟨_, rfl, ?_, ?_⟩
  · refine require_pos ⟨rfl, ?_⟩ _
    simp
  · simp [Json.lookup, Text.str_injective]

/-- A sealed record is read from its file. -/
theorem readEnvelope_written (hP : P.Assumed) {v v' : Vault} {masterKey plaintext : Bytes}
    {id : Str} {fresh : Fresh} {d : RecordDocument} {newOnly : Bool} (hid : IsId id)
    (hseal : sealRecord P masterKey plaintext id fresh = .ok d)
    (hwrite : writeJsonAtomic P v id d.toJson newOnly = .ok v') :
    d.envelope.Bounded ∧ readEnvelope P v' id = .ok d.envelope.members := by
  obtain ⟨hdid, henvelope, hbound⟩ := sealRecord_eq_ok hseal
  obtain ⟨text, htext, hpos, hmax, -, rfl⟩ := writeJsonAtomic_eq_ok hwrite
  obtain ⟨bound, hbound', hascii, hlength⟩ := commitment_members P id d.envelope
  have hsame : d.commitment = bound := Except.ok.inj (hbound.symm.trans hbound')
  have htextAscii : Json.Ascii text :=
    hP.asciiDocument d text (hdid ▸ hid.ascii) (hsame ▸ hascii) htext
  constructor
  · have hheld := hP.holds d text htext
    rw [length_getBytes htextAscii, ← length16_ascii htextAscii] at hmax
    constructor
    · rw [henvelope]
      exact fresh.length_salt
    · rw [henvelope]
      exact fresh.length_iv
    · rw [henvelope]
      exact hP.padded _ _ _
    · exact hheld.trans hmax
    · rw [henvelope]
      exact P.length_hmac _ _
  · obtain ⟨members, hmembers, hkeys, hschema, hidField, henvelopeField, hcommitment⟩ :=
      lookup_document d
    have hread : readObject P { v with records := Json.insertMember v.records id (getBytes text) }
        id = .ok members := by
      simp only [readObject, Json.lookup_insertMember, if_pos, fromOption, bind_ok,
        require_pos (⟨hpos, hmax⟩ : 0 < _ ∧ _), readAllText_getBytes P htextAscii,
        hP.readsDocument d text htext, hmembers]
      rfl
    have hidLength : length16 id ≤ 64 := by
      rw [length16_ascii hid.ascii, hid.1]
      omega
    rw [hdid] at hidField
    rw [hsame] at hcommitment
    have hschemaText : requireText members "schema" recordSchema 80 = .ok () :=
      requireText_of_lookup hschema (by decide)
    simp only [readEnvelope, hread, bind_ok, hkeys, hschemaText,
      requireText_of_lookup hidField hidLength, indexed_of_lookup henvelopeField, asObject,
      Json.objOf, fromOption, hbound', requireText_of_lookup hcommitment hlength.le]
    rfl

/-! ## Credentials -/

theorem normalizeUrl_eq_ok {value : Option Str} {text : Str} :
    normalizeUrl P value = .ok text ↔ ∃ url uri, value = some url ∧ P.tryCreate url = some uri ∧
      ((uri.scheme = str "https" ∨ uri.scheme = str "http") ∧ isBlank uri.host = false ∧
        uri.userInfo = []) ∧ length16 url ≤ 2048 ∧ text = uri.text := by
  simp only [normalizeUrl, bind_eq_ok, fromOption_eq_ok, require_eq_ok, exists_and_left,
    exists_const, pure, Except.pure, Except.ok.injEq]
  constructor
  · rintro ⟨url, hvalue, uri, huri, ⟨hscheme, hhost, huser, hlength⟩, htext⟩
    exact ⟨url, hvalue, uri, huri, ⟨hscheme, hhost, huser⟩, hlength, htext.symm⟩
  · rintro ⟨url, hvalue, uri, huri, ⟨hscheme, hhost, huser⟩, hlength, htext⟩
    exact ⟨url, hvalue, uri, huri, ⟨hscheme, hhost, huser, hlength⟩, htext.symm⟩

theorem boundedText_eq_ok {value : Option Str} {name : String} {maximum : Nat} {text : Str} :
    boundedText value name maximum = .ok text ↔
      value = some text ∧ length16 text ≤ maximum ∧ 0 ∉ text := by
  simp only [boundedText, bind_eq_ok, fromOption_eq_ok, require_eq_ok, exists_and_left,
    exists_const, pure, Except.pure, Except.ok.injEq]
  constructor
  · rintro ⟨text', rfl, h, rfl⟩
    exact ⟨rfl, h⟩
  · rintro ⟨rfl, h⟩
    exact ⟨text, rfl, h, rfl⟩

/-- A text that was accepted is accepted again as its bytes hold it. -/
theorem boundedText_sanitize {value : Option Str} {name : String} {maximum : Nat} {text : Str}
    (h : boundedText value name maximum = .ok text) :
    boundedText (some (sanitize text)) name maximum = .ok (sanitize text) := by
  obtain ⟨-, hlength, hnul⟩ := boundedText_eq_ok.1 h
  exact boundedText_eq_ok.2
    ⟨rfl, (length16_sanitize text).le.trans hlength, mt zero_mem_sanitize.1 hnul⟩

/-- A normalized URL is accepted again exactly if it is within the bound itself. -/
theorem normalizeUrl_again (hP : P.Assumed) {value : Option Str} {text : Str}
    (h : normalizeUrl P value = .ok text) :
    normalizeUrl P (some (sanitize text)) = if length16 text ≤ 2048 then .ok text
      else .error (.argument (str "Credential URL must be a bounded HTTP(S) URL.")) := by
  obtain ⟨url, uri, -, huri, hparts, hlength, rfl⟩ := normalizeUrl_eq_ok.1 h
  rw [sanitize_eq_iff.2 (hP.encodes url uri huri)]
  split
  · rename_i hbound
    exact normalizeUrl_eq_ok.2
      ⟨_, uri, rfl, hP.stable url uri hlength huri, hparts, hbound, rfl⟩
  · rename_i hbound
    simp only [normalizeUrl, fromOption, bind_ok, hP.stable url uri hlength huri]
    rw [require_neg fun hall => hbound hall.2.2.2]
    rfl

/-- The texts of a record as `SaveCredential` has checked them. -/
def Checked (P : VaultPlatform) (c : Credential) : Prop :=
  ∃ displayName url username password notes,
    checkRecord P displayName url username password notes =
      .ok (c.displayName, c.url, c.username, c.password, c.notes)

theorem checkRecord_eq_ok {displayName url username password notes : Option Str} {c : Credential}
    (h : checkRecord P displayName url username password notes =
      .ok (c.displayName, c.url, c.username, c.password, c.notes)) :
    normalizeUrl P url = .ok c.url ∧
      boundedText (some (displayName.getD [])) "display name" 256 = .ok c.displayName ∧
      boundedText username "username" 512 = .ok c.username ∧
      boundedText password "password" 8192 = .ok c.password ∧
      boundedText (some (notes.getD [])) "notes" 8192 = .ok c.notes := by
  simp only [checkRecord, bind_eq_ok] at h
  obtain ⟨_, hurl, _, hname, _, huser, _, hpassword, _, hnotes, h⟩ := h
  cases h
  exact ⟨hurl, hname, huser, hpassword, hnotes⟩

/-- What is read from the plaintext of a record: the record as its bytes hold it, if its URL is
still within the bound. -/
theorem readCredential_written (hP : P.Assumed) {c : Credential} {text : Str} (hid : IsId c.id)
    (hchecked : Checked P c) (htext : P.serializeCredential c = some text) :
    readCredential P c.id (getBytes text) = if length16 c.url ≤ 2048 then .ok c.written
      else .error (.argument (str "Credential URL must be a bounded HTTP(S) URL.")) := by
  obtain ⟨displayName, url, username, password, notes, hcheck⟩ := hchecked
  obtain ⟨hurl, hname, huser, hpassword, hnotes⟩ := checkRecord_eq_ok hcheck
  have hread := hP.readsCredential _ _ (hP.replaces c text htext)
  have hidSame : sanitize c.id = c.id := sanitize_eq_iff.2 hid.ascii.encodable
  simp only [readCredential, getString_getBytes, hread, Credential.raw, Credential.written,
    fromOption, bind_ok, Option.getD_some, hidSame, normalizeUrl_again hP hurl]
  split
  · have hurlSame : sanitize c.url = c.url := by
      obtain ⟨_, _, _, huri, _, _, hsame⟩ := normalizeUrl_eq_ok.1 hurl
      rw [hsame]
      exact sanitize_eq_iff.2 (hP.encodes _ _ huri)
    simp only [bind_ok, boundedText_sanitize hname, boundedText_sanitize huser,
      boundedText_sanitize hpassword, boundedText_sanitize hnotes, hurlSame]
    rfl
  · rfl

/-! ## Writing and reading -/

/-- What a save has done: the record is checked, sealed under the key of the vault, and stands in
the file of its id. -/
theorem saveCredential_eq_ok {v v' : Vault} {id displayName url username password notes : Option Str}
    {fresh : Fresh} {c : Credential}
    (h : saveCredential P v id displayName url username password notes fresh = .ok (c, v')) :
    ∃ masterKey text d created creating, requireUnlocked v = .ok masterKey ∧
      checkRecord P displayName url username password notes =
        .ok (c.displayName, c.url, c.username, c.password, c.notes) ∧
      identify P v id fresh = .ok (c.id, created, creating) ∧
      P.serializeCredential c = some text ∧
      sealRecord P masterKey (getBytes text) c.id fresh = .ok d ∧
      writeJsonAtomic P v c.id d.toJson creating = .ok v' := by
  simp only [saveCredential, bind_eq_ok, fromOption_eq_ok] at h
  obtain ⟨masterKey, hkey, ⟨name, uri, user, secret, note⟩, hcheck, ⟨safeId, created, creating⟩,
    hidentify, text, htext, d, hseal, w, hwrite, h⟩ := h
  cases h
  exact ⟨masterKey, text, d, created, creating, hkey, hcheck, hidentify, htext, hseal, hwrite⟩

theorem isId_of_identify {v : Vault} {id : Option Str} {fresh : Fresh} {safeId created : Str}
    {creating : Bool} (h : identify P v id fresh = .ok (safeId, created, creating)) :
    IsId safeId := by
  obtain ⟨_, _, h⟩ := bind_eq_ok.1 h
  split at h
  · cases h
    exact isId_of_validateId fresh.guid_valid
  · obtain ⟨safeId', hid, h⟩ := bind_eq_ok.1 h
    obtain ⟨_, _, h⟩ := bind_eq_ok.1 h
    cases h
    exact isId_of_validateId hid

theorem retrieve_eq_ok {v : Vault} {id : Str} {c : Credential} :
    retrieve P v id = .ok c ↔ ∃ masterKey safeId members plaintext,
      requireUnlocked v = .ok masterKey ∧ validateId id = .ok safeId ∧
      readEnvelope P v safeId = .ok members ∧
      decryptEnvelope P members masterKey (recordContext safeId) = .ok plaintext ∧
      readCredential P safeId plaintext = .ok c := by
  simp only [retrieve, bind_eq_ok]
  constructor
  · rintro ⟨masterKey, hkey, safeId, hid, members, hmembers, plaintext, hplaintext, hc⟩
    exact ⟨masterKey, safeId, members, plaintext, hkey, hid, hmembers, hplaintext, hc⟩
  · rintro ⟨masterKey, safeId, members, plaintext, hkey, hid, hmembers, hplaintext, hc⟩
    exact ⟨masterKey, hkey, safeId, hid, members, hmembers, plaintext, hplaintext, hc⟩

end ZsecShield.Browser
