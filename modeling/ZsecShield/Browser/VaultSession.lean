import ZsecShield.Browser.VaultRecords

/-!
# A platform known on one session

`Session.platform` has the serializer's layout, and gives what the URI parser and the primitives
gave while one record was saved.  On any other input it has simple answers, so that it satisfies
`VaultPlatform.Assumed` whatever the session was (`Session.assumed`).
-/

namespace ZsecShield.Browser

open Text (Str str CodePoint)
open Checks

/-! ## Bytes -/

/-- The bytes of a number, the highest first. -/
def bigEndian : (size n : Nat) → Bytes
  | 0, _ => []
  | size + 1, n => UInt8.ofNat (n / 256 ^ size) :: bigEndian size n

theorem length_bigEndian (size n : Nat) : (bigEndian size n).length = size := by
  induction size with
  | zero => rfl
  | succ size ih => exact congrArg Nat.succ ih

/-- Bytes of a fixed number. -/
structure Block (size : Nat) where
  data : Bytes
  length_data : data.length = size

def block (size n : Nat) : Block size := ⟨bigEndian size n, length_bigEndian size n⟩

/-! ## The serializer -/

/-- An object of texts. -/
def objectOf (texts : List (String × Str)) : Json := .obj (texts.map fun m => (str m.1, .str m.2))

def Credential.texts (c : Credential) : List (String × Str) :=
  [("Id", c.id), ("DisplayName", c.displayName), ("Url", c.url), ("Username", c.username),
    ("Password", c.password), ("Notes", c.notes), ("CreatedAtUtc", c.createdAtUtc),
    ("UpdatedAtUtc", c.updatedAtUtc)]

/-- The text of a value, without blanks and in the order of its members. -/
def compact (value : Json) : Str := Json.layout .canonical 0 value

/-- What the serializer reads: up to a hundred levels. -/
def serializerReader : Json.Reader := ⟨100, 4300, true, true⟩

def RawCredential.ofMembers (members : List (Str × Json)) : RawCredential :=
  let text (key : String) := (Json.lookup (str key) members).bind Json.strOf
  ⟨text "Id", text "DisplayName", text "Url", text "Username", text "Password", text "Notes",
    text "CreatedAtUtc", text "UpdatedAtUtc"⟩

def parseCredential (s : Str) : Option (Option RawCredential) :=
  match Json.loads serializerReader s with
  | .ok .null => some none
  | .ok (.obj members) => some (some (.ofMembers members))
  | _ => none

theorem loads_compact {v : Json} (h : Json.Plain 4300 v) (hdepth : v.depth ≤ 100) :
    Json.loads serializerReader (compact v) = .ok v := by
  have hread := Json.loads_layout (r := serializerReader) rfl Json.separates_canonical h hdepth nofun
    (.inl rfl)
  rwa [List.append_nil] at hread

theorem plain_texts {texts : List (String × Str)} (h : (texts.map Prod.fst).Nodup) :
    Json.Plain 4300 (objectOf texts) := by
  refine .obj _ ?_ ?_
  · rw [List.map_map]
    have hkeys : (texts.map Prod.fst).map str = texts.map (Prod.fst ∘ fun m => (str m.1, Json.str m.2)) := by
      rw [List.map_map]
      rfl
    rw [← hkeys]
    exact h.map fun _ _ heq => Text.str_injective.1 heq
  · intro m hm
    obtain ⟨x, -, rfl⟩ := List.mem_map.1 hm
    exact .str _

theorem depth_texts (texts : List (String × Str)) : (objectOf texts).depth ≤ 1 := by
  have hmembers : Json.depthMembers (texts.map fun m => (str m.1, Json.str m.2)) ≤ 0 := by
    refine Json.depthMembers_le fun m hm => ?_
    obtain ⟨x, -, rfl⟩ := List.mem_map.1 hm
    exact Nat.le_refl 0
  exact Nat.succ_le_succ hmembers

theorem parseCredential_compact (c : Credential) :
    parseCredential (compact (objectOf c.texts)) = some (some c.raw) := by
  have hkeys : (c.texts.map Prod.fst).Nodup := by simp [Credential.texts]
  rw [parseCredential, loads_compact (plain_texts hkeys) ((depth_texts _).trans (by omega))]
  simp [objectOf, Credential.texts, RawCredential.ofMembers, Credential.raw, Json.lookup,
    Text.str_injective, Json.strOf]

theorem RecordDocument.plain (d : RecordDocument) : Json.Plain 4300 d.toJson := by
  refine .obj _ ?_ ?_
  · simp [Text.str_injective]
  · have henvelope : Json.Plain 4300 (.obj d.envelope.members) := by
      refine .obj _ ?_ ?_
      · simp [Envelope.members, Text.str_injective]
      · simp [Envelope.members, Json.Plain.str]
    simp [henvelope, Json.Plain.str]

theorem RecordDocument.depth_le (d : RecordDocument) : d.toJson.depth ≤ 100 := by
  simp [RecordDocument.toJson, Envelope.members, Json.depth, Json.depthMembers]

theorem ascii_compact {d : RecordDocument} (hid : Json.Ascii d.id)
    (hcommitment : Json.Ascii d.commitment) : Json.Ascii (compact d.toJson) := by
  have hliteral {s : String} (h : (str s).all (fun c => decide (c.val < 128)) = true) :
      Json.Ascii (str s) := Json.ascii_literal h
  refine Json.ascii_layout _ (Json.ascii_literal (by decide)) (.obj _ ?_ ?_) 0
  · simp only [List.forall_mem_cons]
    exact ⟨hliteral (by decide), hliteral (by decide), hliteral (by decide), hliteral (by decide),
      List.forall_mem_nil _⟩
  · have henvelope : Json.Strings Json.Ascii (.obj d.envelope.members) := by
      refine .obj _ ?_ ?_
      · simp only [Envelope.members, List.forall_mem_cons]
        exact ⟨hliteral (by decide), hliteral (by decide), hliteral (by decide),
          hliteral (by decide), hliteral (by decide), hliteral (by decide), List.forall_mem_nil _⟩
      · simp only [Envelope.members, List.forall_mem_cons]
        exact ⟨.str _ (hliteral (by decide)), .str _ (hliteral (by decide)),
          .str _ (ascii_encode _), .str _ (ascii_encode _), .str _ (ascii_encode _),
          .str _ (ascii_encode _), List.forall_mem_nil _⟩
    simp only [List.forall_mem_cons]
    exact ⟨.str _ (hliteral (by decide)), .str _ hid, henvelope, .str _ hcommitment,
      List.forall_mem_nil _⟩

/-- A text is read as a value. -/
def readValue (s : Str) : Option Json := (Json.loads serializerReader s).toOption

theorem read_document (d : RecordDocument) : readValue (compact d.toJson) = some d.toJson :=
  congrArg Except.toOption (loads_compact d.plain d.depth_le)

/-! ## What a text holds -/

theorem length16_append (s t : Str) : length16 (s ++ t) = length16 s + length16 t := by
  simp only [length16, List.map_append, List.sum_append]

theorem length16_sublist {s t : Str} (h : s.Sublist t) : length16 s ≤ length16 t := by
  induction h with
  | slnil => exact Nat.le_refl _
  | cons c _ ih =>
      simp only [length16, List.map_cons, List.sum_cons] at ih ⊢
      omega
  | cons_cons c _ ih =>
      simp only [length16, List.map_cons, List.sum_cons] at ih ⊢
      omega

theorem sublist_block {σ : Json.Style} {level : Nat} {left right : CodePoint} {items : List Str}
    {i : Str} (h : i ∈ items) : i.Sublist (Json.block σ level left right items) := by
  cases items with
  | nil => cases h
  | cons x items =>
      rw [Json.block_cons]
      rcases List.mem_cons.1 h with rfl | h
      · exact ((List.sublist_append_left i _).trans (List.sublist_append_right _ _)).cons _
      · have hitem : i.Sublist (Text.ofChar ',' :: (Json.lineBreak σ (level + 1) ++ i)) :=
          (List.sublist_append_right _ i).cons _
        have hfollowing : i.Sublist (Json.following σ (level + 1) items) := by
          rw [Json.following, List.flatMap]
          exact hitem.trans (List.sublist_flatten_of_mem
            (List.mem_map_of_mem (f := fun i => Text.ofChar ',' :: (Json.lineBreak σ (level + 1) ++ i)) h))
        exact (((hfollowing.trans (List.sublist_append_left _ _)).trans
          (List.sublist_append_right x _)).trans (List.sublist_append_right _ _)).cons _

theorem sublist_member {σ : Json.Style} {level : Nat} {members : List (Str × Json)}
    {m : Str × Json} (h : m ∈ members) :
    (Json.layout σ (level + 1) m.2).Sublist (Json.layout σ level (.obj members)) := by
  rw [Json.layout, Json.layoutMembers_eq_map]
  have hvalue : (Json.layout σ (level + 1) m.2).Sublist (Json.layoutMember σ (level + 1) m) :=
    (List.sublist_append_right _ _).trans (List.sublist_append_right _ _)
  exact hvalue.trans (sublist_block (List.mem_map_of_mem h))

/-- A serialized document holds its ciphertext. -/
theorem length16_ciphertext_le (d : RecordDocument) :
    length16 (Base64.encode d.envelope.ciphertext) ≤ length16 (compact d.toJson) := by
  have hliteral : ∀ c ∈ Base64.encode d.envelope.ciphertext, Json.Literal c := by
    intro c hc
    have hdigit : ∀ n < 64, Json.Literal (Base64.digit n) := by decide
    rcases Base64.isDigit_of_mem_encode hc with ⟨n, hn, rfl⟩ | rfl
    · exact hdigit n hn
    · decide
  have hquote : (Base64.encode d.envelope.ciphertext).Sublist
      (Json.layout .canonical 2 (.str (Base64.encode d.envelope.ciphertext))) := by
    rw [Json.layout, Json.quote_literal _ hliteral]
    exact (List.sublist_append_left _ _).cons _
  have hinner : (str "ciphertext", Json.str (Base64.encode d.envelope.ciphertext)) ∈
      d.envelope.members := by
    simp [Envelope.members]
  have houter : (str "envelope", Json.obj d.envelope.members) ∈
      [(str "schema", Json.str recordSchema), (str "id", .str d.id),
        (str "envelope", .obj d.envelope.members), (str "zmath_commitment", .str d.commitment)] := by
    simp
  exact length16_sublist ((hquote.trans (sublist_member hinner)).trans (sublist_member houter))

/-! ## Unpaired surrogates in a text -/

theorem sanitize_append (s t : Str) : sanitize (s ++ t) = sanitize s ++ sanitize t :=
  List.map_append

theorem sanitize_of_ascii {s : Str} (h : Json.Ascii s) : sanitize s = s :=
  sanitize_eq_iff.2 h.encodable

theorem sanitize_escape (c : CodePoint) :
    sanitize (Json.escape .canonical c) = Json.escape .canonical (replacePoint c) := by
  by_cases hc : Text.IsSurrogate c
  · rw [Json.escape_surrogate rfl hc, replacePoint, if_pos hc, sanitize, List.map_singleton,
      replacePoint, if_pos hc]
    decide
  · rw [replacePoint_of_not hc, sanitize_eq_iff]
    exact Json.AllOf.escape (fun _ _ hx hs => absurd hs.1 (by omega)) _ fun _ => hc

theorem sanitize_quote (s : Str) :
    sanitize (Json.quote .canonical s) = Json.quote .canonical (sanitize s) := by
  have hbody : sanitize (s.flatMap (Json.escape .canonical)) =
      (sanitize s).flatMap (Json.escape .canonical) := by
    induction s with
    | nil => rfl
    | cons c s ih =>
        rw [List.flatMap_cons, sanitize_append, sanitize_escape, ih]
        rfl
  have hmark : replacePoint (Text.ofChar '"') = Text.ofChar '"' := replacePoint_of_not (by decide)
  rw [Json.quote, Json.quote, ← hbody, sanitize, List.map_cons, List.map_append, List.map_singleton,
    hmark]
  rfl

theorem sanitize_block (level : Nat) {left right : CodePoint} (hleft : ¬ Text.IsSurrogate left)
    (hright : ¬ Text.IsSurrogate right) (items : List Str) :
    sanitize (Json.block .canonical level left right items) =
      Json.block .canonical level left right (items.map sanitize) := by
  have hbreak (n : Nat) : Json.lineBreak .canonical n = [] := rfl
  have hcomma : replacePoint (Text.ofChar ',') = Text.ofChar ',' := replacePoint_of_not (by decide)
  cases items with
  | nil =>
      simp [Json.block, sanitize, replacePoint_of_not hleft, replacePoint_of_not hright]
  | cons i items =>
      have hitems : sanitize (items.flatMap fun i => Text.ofChar ',' :: i) =
          (items.map sanitize).flatMap fun i => Text.ofChar ',' :: i := by
        induction items with
        | nil => rfl
        | cons i items ih =>
            rw [List.flatMap_cons, sanitize_append, ih, List.map_cons, List.flatMap_cons, sanitize,
              List.map_cons, hcomma]
            rfl
      simp only [Json.block, hbreak, List.nil_append, List.append_nil, List.map_cons]
      rw [sanitize, List.map_cons, replacePoint_of_not hleft, List.map_append, List.map_append,
        List.map_singleton, replacePoint_of_not hright, ← hitems]
      rfl

/-- The text of a record without unpaired surrogates is that of the record with its own replaced. -/
theorem sanitize_compact (texts : List (String × Str)) :
    sanitize (compact (objectOf texts)) =
      compact (objectOf (texts.map fun m => (m.1, sanitize m.2))) := by
  have hmark : sanitize (str ":") = str ":" := sanitize_of_ascii (Json.ascii_literal (by decide))
  have hmember (m : String × Str) : sanitize (Json.layoutMember .canonical 1 (str m.1, .str m.2)) =
      Json.layoutMember .canonical 1 (str m.1, .str (sanitize m.2)) := by
    have hkey : sanitize (str m.1) = str m.1 := sanitize_eq_iff.2 (Text.encodable_str m.1)
    have hseparator : Json.Style.canonical.keySeparator = str ":" := rfl
    simp only [Json.layoutMember, Json.layout, sanitize_append, sanitize_quote, hkey, hseparator,
      hmark]
  rw [compact, compact, objectOf, objectOf, Json.layout, Json.layout, Json.layoutMembers_eq_map,
    Json.layoutMembers_eq_map, sanitize_block 0 (by decide) (by decide), List.map_map, List.map_map,
    List.map_map, List.map_map]
  congr 1
  exact List.map_congr_left fun m _ => hmember m

theorem texts_written (c : Credential) :
    c.written.texts = c.texts.map fun m => (m.1, sanitize m.2) := rfl

/-! ## The session -/

/-- What the real functions gave while a record was saved. -/
structure Session where
  /-- The URL as it was given, and as it was parsed. -/
  given : Str
  url : Url
  encodable : Text.Encodable url.text
  record : Credential
  isId : IsId record.id
  masterKey : Block 32
  salt : Block 32
  iv : Block 16
  /-- The values of HMAC: the extracted key, the two blocks of key material and the MAC. -/
  extracted : Block 32
  first : Block 32
  second : Block 32
  mac : Block 32
  /-- The ciphertext, 32 bytes at a time. -/
  ciphertext : List (Block 32)
  ciphertext_ne_nil : ciphertext ≠ []
  /-- The value of SHA-256. -/
  digest : Block 32

namespace Session

variable (r : Session)

def info : Bytes := getBytes (recordContext r.record.id)

def plaintext : Bytes := getBytes (compact (objectOf r.record.texts))

def encrypted : Bytes := r.ciphertext.flatMap Block.data

/-- The bytes of the commitment. -/
def committed : Bytes :=
  getBytes (nulTerminated "ZSEC-ZMATH-BOUNDARY-COMMITMENT-V1" ++ (r.record.id ++ [0] ++
    Base64.encode r.salt.data ++ [0] ++ Base64.encode r.iv.data ++ [0] ++
    Base64.encode r.encrypted ++ [0] ++ Base64.encode r.mac.data))

def nothing : Block 32 := block 32 0

def hmac (key data : Bytes) : Block 32 :=
  if key = r.salt.data ∧ data = r.masterKey.data then r.extracted
  else if key = r.extracted.data ∧ data = r.info ++ [1] then r.first
  else if key = r.extracted.data ∧ data = r.first.data ++ r.info ++ [2] then r.second
  else if key = r.second.data ∧ data = authenticated r.info r.salt.data r.iv.data r.encrypted then r.mac
  else nothing

/-- The padding of a plaintext that is not the one of the session. -/
def padded (plaintext : Bytes) : Bytes :=
  let ciphertext := plaintext ++ List.replicate 16 0
  if ciphertext = r.encrypted then plaintext ++ List.replicate 16 1 else ciphertext

def aesEncrypt (key iv plaintext : Bytes) : Bytes :=
  if key = r.first.data ∧ iv = r.iv.data ∧ plaintext = r.plaintext then r.encrypted
  else r.padded plaintext

def aesDecrypt (key iv ciphertext : Bytes) : Option Bytes :=
  if key = r.first.data ∧ iv = r.iv.data ∧ ciphertext = r.encrypted then some r.plaintext
  else some (ciphertext.take (ciphertext.length - 16))

def tryCreate (value : Str) : Option Url :=
  if value = r.given ∨ value = r.url.text then some r.url else none

/-- A UTF-16 unit without its case, in ASCII. -/
def lowerUnit (n : Nat) : Nat := if 65 ≤ n ∧ n ≤ 90 then n + 32 else n

/-- The platform of the session. -/
def platform : VaultPlatform where
  tryCreate := r.tryCreate
  serialize v := some (compact v)
  deserializeObject := readValue
  serializeCredential c := some (compact (objectOf c.texts))
  deserializeCredential := parseCredential
  replaced _ := []
  toText _ := []
  hmac key data := (r.hmac key data).data
  length_hmac key data := (r.hmac key data).length_data
  sha256 data := (if data = r.committed then r.digest else nothing).data
  length_sha256 data := (if data = r.committed then r.digest else nothing).length_data
  aesEncrypt := r.aesEncrypt
  aesDecrypt := r.aesDecrypt
  containsIgnoreCase value term :=
    decide ((units term).map lowerUnit <:+: (units value).map lowerUnit)

theorem platform_deserializeObject : r.platform.deserializeObject = readValue := rfl

theorem platform_deserializeCredential : r.platform.deserializeCredential = parseCredential := rfl

theorem length_encrypted : r.encrypted.length = 32 * r.ciphertext.length := by
  rw [encrypted]
  induction r.ciphertext with
  | nil => rfl
  | cons b blocks ih =>
      rw [List.flatMap_cons, List.length_append, ih, b.length_data, List.length_cons]
      omega

theorem length_padded (plaintext : Bytes) : (r.padded plaintext).length = plaintext.length + 16 := by
  unfold padded
  dsimp only
  split <;> simp

theorem padded_ne (plaintext : Bytes) : r.padded plaintext ≠ r.encrypted := by
  unfold padded
  dsimp only
  split
  · rename_i h
    rw [← h]
    intro heq
    cases List.append_cancel_left heq
  · assumption

theorem take_padded (plaintext : Bytes) :
    (r.padded plaintext).take ((r.padded plaintext).length - 16) = plaintext := by
  rw [length_padded, Nat.add_sub_cancel]
  unfold padded
  dsimp only
  split <;> exact List.take_left

theorem decrypts (key iv plaintext : Bytes) :
    r.aesDecrypt key iv (r.aesEncrypt key iv plaintext) = some plaintext := by
  unfold aesEncrypt
  split
  · rename_i h
    rw [aesDecrypt, if_pos ⟨h.1, h.2.1, rfl⟩, h.2.2]
  · rw [aesDecrypt, if_neg fun h => r.padded_ne plaintext h.2.2, take_padded]

/-- The platform does what the vault relies on. -/
theorem assumed : r.platform.Assumed where
  decrypts key iv plaintext _ _ := r.decrypts key iv plaintext
  padded key iv plaintext := by
    show 16 ≤ (r.aesEncrypt key iv plaintext).length
    unfold aesEncrypt
    split
    · have hpos := List.length_pos_of_ne_nil r.ciphertext_ne_nil
      rw [length_encrypted]
      omega
    · rw [length_padded]
      omega
  readsDocument d s h := by
    have hs : compact d.toJson = s := Option.some.inj h
    subst hs
    rw [r.platform_deserializeObject]
    exact read_document d
  asciiDocument d s hid hcommitment h := by
    have hs : compact d.toJson = s := Option.some.inj h
    subst hs
    exact ascii_compact hid hcommitment
  holds d s h := by
    have hs : compact d.toJson = s := Option.some.inj h
    subst hs
    exact length16_ciphertext_le d
  readsCredential c s h := by
    have hs : compact (objectOf c.texts) = s := Option.some.inj h
    subst hs
    rw [r.platform_deserializeCredential]
    exact parseCredential_compact c
  replaces c s h := by
    have hs : compact (objectOf c.texts) = s := Option.some.inj h
    subst hs
    rw [sanitize_compact, ← texts_written]
    rfl
  stable s u _ h := by
    have hu : r.url = u := by
      change r.tryCreate s = some u at h
      unfold tryCreate at h
      split at h
      · exact Option.some.inj h
      · cases h
    rw [← hu]
    exact if_pos (.inr rfl)
  encodes s u h := by
    change r.tryCreate s = some u at h
    unfold tryCreate at h
    split at h
    · cases h
      exact r.encodable
    · cases h

/-! ## The save of the session -/

theorem length_info : r.info.length = 64 := by
  rw [info, length_getBytes (ascii_recordContext r.isId), length_recordContext r.isId]

theorem hmac_extract : r.hmac r.salt.data r.masterKey.data = r.extracted := if_pos ⟨rfl, rfl⟩

theorem hmac_first : r.hmac r.extracted.data (r.info ++ [1]) = r.first := by
  have hextract : ¬ (r.extracted.data = r.salt.data ∧ r.info ++ [1] = r.masterKey.data) := by
    rintro ⟨-, h⟩
    have hlength := congrArg List.length h
    simp [r.length_info, r.masterKey.length_data] at hlength
  rw [hmac, if_neg hextract, if_pos ⟨rfl, rfl⟩]

theorem hmac_second : r.hmac r.extracted.data (r.first.data ++ r.info ++ [2]) = r.second := by
  have hextract : ¬ (r.extracted.data = r.salt.data ∧
      r.first.data ++ r.info ++ [2] = r.masterKey.data) := by
    rintro ⟨-, h⟩
    have hlength := congrArg List.length h
    simp [r.length_info, r.masterKey.length_data, r.first.length_data] at hlength
  have hfirst : ¬ (r.extracted.data = r.extracted.data ∧
      r.first.data ++ r.info ++ [2] = r.info ++ [1]) := by
    rintro ⟨-, h⟩
    have hlength := congrArg List.length h
    simp [r.length_info, r.first.length_data] at hlength
  rw [hmac, if_neg hextract, if_neg hfirst, if_pos ⟨rfl, rfl⟩]

theorem material_eq :
    material r.platform r.masterKey.data r.salt.data r.info = r.first.data ++ r.second.data := by
  have hprk : r.platform.hmac r.salt.data r.masterKey.data = r.extracted.data :=
    congrArg Block.data r.hmac_extract
  have hfirst : r.platform.hmac r.extracted.data (r.info ++ [1]) = r.first.data :=
    congrArg Block.data r.hmac_first
  have hsecond : r.platform.hmac r.extracted.data (r.first.data ++ r.info ++ [2]) = r.second.data :=
    congrArg Block.data r.hmac_second
  have hlength : (r.first.data ++ r.second.data).length = 64 := by
    rw [List.length_append, r.first.length_data, r.second.length_data]
  have hblocks : hkdfBlocks r.platform r.extracted.data r.info 2 1 [] =
      r.first.data ++ r.second.data := by
    simp only [hkdfBlocks, List.nil_append, List.append_nil]
    rw [show UInt8.ofNat 1 = 1 from rfl, show UInt8.ofNat (1 + 1) = 2 from rfl, hfirst, hsecond]
  rw [material, hkdfSha256, hprk, show (64 + 31) / 32 = 2 from rfl, hblocks, ← hlength,
    List.take_length]

theorem encryptionKey_eq :
    encryptionKey r.platform r.masterKey.data r.salt.data r.info = r.first.data := by
  rw [encryptionKey, material_eq, List.take_left' r.first.length_data]

/-- The record of the session is encrypted as it was. -/
theorem ciphertext_eq :
    (encryptEnvelope r.platform r.plaintext r.masterKey.data (recordContext r.record.id) r.salt.data
      r.iv.data).ciphertext = r.encrypted := by
  change r.aesEncrypt (encryptionKey r.platform r.masterKey.data r.salt.data r.info) r.iv.data
    r.plaintext = r.encrypted
  rw [encryptionKey_eq]
  exact if_pos ⟨rfl, rfl, rfl⟩

end Session

/-- A document whose ciphertext is not long fits into its file. -/
theorem fits_of_ciphertext {d : RecordDocument} (hid : IsId d.id) (hcommitment : Json.Ascii d.commitment)
    (hlength : length16 d.commitment = 64) (hsalt : d.envelope.salt.length = 32)
    (hiv : d.envelope.iv.length = 16) (hmac : d.envelope.mac.length = 32)
    (hciphertext : d.envelope.ciphertext.length ≤ 8192) :
    0 < (getBytes (compact d.toJson)).length ∧
      (getBytes (compact d.toJson)).length ≤ maximumFileBytes := by
  have hascii := ascii_compact hid.ascii hcommitment
  have hid32 := hid.1
  rw [length16_ascii hcommitment] at hlength
  have hweight := Json.utf8Size_layout_le .canonical d.toJson 0
  constructor
  · obtain ⟨c, s, hhead, -⟩ := Json.layout_head .canonical 0 d.plain
    rw [length_getBytes hascii, compact, hhead]
    exact Nat.succ_pos _
  · rw [length_getBytes_of_encodable hascii.encodable]
    refine hweight.trans ?_
    have hbreak (n : Nat) : Json.breakSize .canonical n = 0 := rfl
    have hseparator : Text.utf8Size Json.Style.canonical.keySeparator = 1 := rfl
    have hnames : (str "schema").length = 6 ∧ (str "id").length = 2 ∧ (str "envelope").length = 8 ∧
        (str "zmath_commitment").length = 16 ∧ (str "cipher").length = 6 ∧ (str "kdf").length = 3 ∧
        (str "salt").length = 4 ∧ (str "iv").length = 2 ∧ (str "ciphertext").length = 10 ∧
        (str "mac").length = 3 ∧ recordSchema.length = 31 ∧
        (str "AES-256-CBC-HMAC-SHA256").length = 23 ∧ (str "HKDF-SHA256").length = 11 := by
      decide
    simp only [RecordDocument.toJson, Envelope.members, Json.weight, Json.membersWeight, hbreak,
      hseparator, hnames, hid32, hlength, Base64.length_encode, hsalt, hiv, hmac, maximumFileBytes]
    omega

namespace Session

variable (r : Session)

/-- In a vault with room for it, the record of the session is saved. -/
theorem saves (v : Vault) (fresh : Fresh) {displayName url username password notes : Option Str}
    (hkey : requireUnlocked v = .ok r.masterKey.data) (hroom : v.records.length < maximumRecords)
    (hnew : Json.lookup r.record.id v.records = none) (hguid : fresh.guid = r.record.id)
    (hcreated : fresh.now = r.record.createdAtUtc) (hupdated : fresh.now = r.record.updatedAtUtc)
    (hsalt : fresh.salt = r.salt.data) (hiv : fresh.iv = r.iv.data)
    (hshort : r.ciphertext.length ≤ 256)
    (hcheck : checkRecord r.platform displayName url username password notes =
      .ok (r.record.displayName, r.record.url, r.record.username, r.record.password,
        r.record.notes)) :
    ∃ v', saveCredential r.platform v none displayName url username password notes fresh =
      .ok (r.record, v') := by
  have hidentify : identify r.platform v none fresh =
      .ok (r.record.id, r.record.createdAtUtc, true) := by
    have hlimit : ¬ (isBlank [] = true ∧ maximumRecords ≤ v.records.length) := fun h =>
      Nat.not_le_of_lt hroom h.2
    rw [← hguid, ← hcreated, identify, Option.getD_none, require_pos hlimit, bind_ok]
    rfl
  have hrecord : (⟨r.record.id, r.record.displayName, r.record.url, r.record.username,
      r.record.password, r.record.notes, r.record.createdAtUtc, fresh.now⟩ : Credential) =
      r.record := by
    rw [hupdated]
  obtain ⟨e, he⟩ : ∃ e, e = encryptEnvelope r.platform r.plaintext r.masterKey.data
    (recordContext r.record.id) r.salt.data r.iv.data := ⟨_, rfl⟩
  obtain ⟨bound, hbound, hascii, hlength⟩ := commitment_members r.platform r.record.id e
  obtain ⟨d, hd⟩ : ∃ d, d = RecordDocument.mk r.record.id e bound := ⟨_, rfl⟩
  have hseal : sealRecord r.platform r.masterKey.data r.plaintext r.record.id fresh = .ok d := by
    rw [sealRecord, hsalt, hiv, ← he, hbound, hd]
    rfl
  have hciphertext : d.envelope.ciphertext.length ≤ 8192 := by
    rw [hd, he, ciphertext_eq, length_encrypted]
    omega
  have hsize : 0 < (getBytes (compact d.toJson)).length ∧
      (getBytes (compact d.toJson)).length ≤ maximumFileBytes := by
    refine fits_of_ciphertext ?_ ?_ ?_ ?_ ?_ ?_ hciphertext
    · rw [hd]
      exact r.isId
    · rw [hd]
      exact hascii
    · rw [hd]
      exact hlength
    · rw [hd, he]
      exact r.salt.length_data
    · rw [hd, he]
      exact r.iv.length_data
    · rw [hd, he]
      exact r.platform.length_hmac _ _
  have hnewOnly : ¬ (true = true ∧ (Json.lookup r.record.id v.records).isSome) := by
    rw [hnew]
    simp
  have hserialize : r.platform.serialize d.toJson = some (compact d.toJson) := rfl
  have hwrite : writeJsonAtomic r.platform v r.record.id d.toJson true = .ok { v with
      records := Json.insertMember v.records r.record.id (getBytes (compact d.toJson)) } := by
    rw [writeJsonAtomic, hserialize, fromOption, bind_ok]
    dsimp only
    rw [require_pos hsize, bind_ok, require_pos hnewOnly, bind_ok]
    rfl
  have htext : r.platform.serializeCredential r.record = some (compact (objectOf r.record.texts)) := rfl
  have hplaintext : getBytes (compact (objectOf r.record.texts)) = r.plaintext := rfl
  refine ⟨{ v with records := Json.insertMember v.records r.record.id (getBytes (compact d.toJson)) },
    ?_⟩
  rw [saveCredential, hkey, bind_ok, hcheck, bind_ok]
  dsimp only
  rw [hidentify, bind_ok]
  dsimp only
  rw [hrecord, htext, fromOption, bind_ok, hplaintext, hseal, bind_ok, hwrite, bind_ok]
  rfl

end Session

end ZsecShield.Browser
