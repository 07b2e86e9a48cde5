import ZsecShield.Feed.Accepted
import ZsecShield.Quarantine.BoundaryRecord
import ZsecShield.Quarantine.Restore

/-!
# Entries

What an entry of the quarantine is.  An `Entry` holds what it is fixed to when it is made, and a
`Progress` what changes over its life.  `Entry.members` is the dictionary of both, and
`Entry.Lawful` says that the vault fields belong to a text.  The checks of `_read_metadata` accept
what was signed, written and read back, whatever the progress is.
-/

namespace ZsecShield.Quarantine

open Text (Str str)
open Feed (field isText memberOf)
open Checks
open Json (Agree)

/-- What an entry is fixed to. -/
structure Entry where
  id : Str
  originalPath : Path
  sha256 : Str
  size : Nat
  mode : Nat
  modifiedNs : Int
  createdAt : Str
  ruleMatches : List Json
  zba : List (Str × Json)
  envelope : VaultEnvelope
  protection : Str
  contentTag : Bytes

/-- What changes over the life of an entry. -/
structure Progress where
  state : Str
  quarantinedAt : Json
  history : List Json

namespace Entry

/-- The metadata of an entry in front of its MAC. -/
def members (e : Entry) (w : Progress) : List (Str × Json) :=
  [(str "schema", .str metadataSchema), (str "id", .str e.id), (str "state", .str w.state),
    (str "original_path", .str e.originalPath), (str "sha256", .str e.sha256),
    (str "size", .int e.size), (str "original_mode", .int e.mode),
    (str "original_modified_ns", .int e.modifiedNs), (str "created_at", .str e.createdAt),
    (str "quarantined_at", w.quarantinedAt), (str "restore_history", .arr w.history),
    (str "matches", .arr e.ruleMatches), (str "zba", .obj e.zba),
    (str "vault", .obj (e.envelope.toDict e.protection)),
    (str "content_tag", .str (Base64.encode e.contentTag))]

variable (e : Entry) (w : Progress)

def memberKeys : List Str :=
  commonFields ++ [str "zba", str "vault", str "content_tag"]

theorem keys_members : (e.members w).map Prod.fst = memberKeys := rfl

theorem nodup_members : ((e.members w).map Prod.fst).Nodup := by
  rw [keys_members]
  decide

theorem mac_notMem : str "metadata_mac" ∉ (e.members w).map Prod.fst := by
  rw [keys_members]
  decide

/-- The metadata with its MAC. -/
def signed (S : System) (device : DeviceRoot) (data : Bytes) : List (Str × Json) :=
  e.members w ++ [(str "metadata_mac", .str (macOf S device data))]

theorem keys_signed (S : System) (device : DeviceRoot) (data : Bytes) :
    (e.signed w S device data).map Prod.fst = requiredFields .current := by
  rw [signed, List.map_append, keys_members]
  rfl

theorem nodup_signed (S : System) (device : DeviceRoot) (data : Bytes) :
    ((e.signed w S device data).map Prod.fst).Nodup := by
  rw [keys_signed]
  decide

/-- The projection that the content is bound to. -/
def aad : Json := aadProjection (e.members ⟨[], .null, []⟩)

@[simp] theorem field_schema : field (e.members w) "schema" = .str metadataSchema := rfl

@[simp] theorem field_id : field (e.members w) "id" = .str e.id := rfl

@[simp] theorem field_state : field (e.members w) "state" = .str w.state := rfl

@[simp] theorem field_originalPath : field (e.members w) "original_path" = .str e.originalPath := rfl

@[simp] theorem field_sha256 : field (e.members w) "sha256" = .str e.sha256 := rfl

@[simp] theorem field_size : field (e.members w) "size" = .int e.size := rfl

@[simp] theorem field_mode : field (e.members w) "original_mode" = .int e.mode := rfl

@[simp] theorem field_modifiedNs :
    field (e.members w) "original_modified_ns" = .int e.modifiedNs := rfl

@[simp] theorem field_createdAt : field (e.members w) "created_at" = .str e.createdAt := rfl

@[simp] theorem field_history : field (e.members w) "restore_history" = .arr w.history := rfl

@[simp] theorem field_ruleMatches : field (e.members w) "matches" = .arr e.ruleMatches := rfl

@[simp] theorem field_zba : field (e.members w) "zba" = .obj e.zba := rfl

@[simp] theorem field_vault :
    field (e.members w) "vault" = .obj (e.envelope.toDict e.protection) := rfl

@[simp] theorem field_contentTag :
    field (e.members w) "content_tag" = .str (Base64.encode e.contentTag) := rfl

/-- The projection does not depend on the progress. -/
theorem aadProjection_members : aadProjection (e.members w) = e.aad := by
  simp [aad, aadProjection, aadFields]

theorem field_signed (S : System) (device : DeviceRoot) (data : Bytes) {name : String}
    (h : str name ≠ str "metadata_mac") :
    field (e.signed w S device data) name = field (e.members w) name := by
  rw [field, field, signed, Json.lookup_append]
  cases Json.lookup (str name) (e.members w) with
  | some v => rfl
  | none => rw [Option.none_or, Json.lookup, if_neg (Ne.symm h)]; rfl

theorem field_mac (S : System) (device : DeviceRoot) (data : Bytes) :
    field (e.signed w S device data) "metadata_mac" = .str (macOf S device data) := by
  rw [field, signed, Json.lookup_append, Json.lookup_eq_none.2 (e.mac_notMem w)]
  rfl

end Entry

/-! ## Envelopes -/

def envelopeKeys (envelope : VaultEnvelope) (protection : Str) : List Str :=
  (envelope.toDict protection).map Prod.fst

theorem keys_toDict (envelope : VaultEnvelope) (protection : Str) :
    (envelope.toDict protection).map Prod.fst = envelopeFields := rfl

theorem nodup_toDict (envelope : VaultEnvelope) (protection : Str) :
    ((envelope.toDict protection).map Prod.fst).Nodup := by
  rw [keys_toDict]
  decide

/-- The lengths that the reader asks for. -/
structure VaultEnvelope.Sized (envelope : VaultEnvelope) : Prop where
  salt : envelope.salt.length = saltBytes
  wrapNonce : envelope.wrapNonce.length = nonceBytes
  wrappedKey : envelope.wrappedKey.length = keyBytes + 16
  contentNonce : envelope.contentNonce.length = nonceBytes

theorem decode_encode {data : Bytes} {expectedLength : Nat} (h : data.length = expectedLength)
    (label : Str) : decode (.str (Base64.encode data)) expectedLength label = .ok data := by
  simp only [decode, decodeVariable, Json.strOf, fromOption, bind_ok, Base64.decode_encode,
    require_pos h]
  rfl

theorem field_protection (envelope : VaultEnvelope) (protection : Str) :
    field (envelope.toDict protection) "device_key_protection" = .str protection := rfl

/-- An envelope is read back from its dictionary. -/
theorem fromDict_of_agree {envelope : VaultEnvelope} {protection : Str} {ms : List (Str × Json)}
    (h : Agree ms (envelope.toDict protection)) (hsized : envelope.Sized)
    (hprotection : protection ∈ [windowsProtection, previewProtection]) :
    VaultEnvelope.fromDict (.obj ms) = .ok envelope := by
  have hkeys : Json.keysAre ms envelopeFields = true := by
    rw [h.keysAre, ← keys_toDict envelope protection]
    exact Json.keysAre_self _
  have hconstants : envelopeConstants.forM (fun constant =>
      require (isText (field ms constant.1) constant.2 = true)
        (quarantineError (str "unsupported vault envelope field: " ++ str constant.1))) = .ok () := by
    refine forM_eq_ok.2 fun constant hconstant => require_pos ?_ _
    refine Feed.isText_iff.2 (field_str h (field_of_mem (nodup_toDict envelope protection) ?_))
    exact List.mem_append_left _ (List.mem_map_of_mem hconstant)
  have hsupported : memberOf (field ms "device_key_protection")
      [windowsProtection, previewProtection] = .ok true := by
    rw [field_str h (field_protection envelope protection)]
    exact congrArg Except.ok (decide_eq_true hprotection)
  have hsalt : field ms "salt" = .str (Base64.encode envelope.salt) := field_str h rfl
  have hwrapNonce : field ms "wrap_nonce" = .str (Base64.encode envelope.wrapNonce) :=
    field_str h rfl
  have hwrappedKey : field ms "wrapped_key" = .str (Base64.encode envelope.wrappedKey) :=
    field_str h rfl
  have hcontentNonce : field ms "content_nonce" = .str (Base64.encode envelope.contentNonce) :=
    field_str h rfl
  simp only [VaultEnvelope.fromDict, bind_eq_ok, fromOption_eq_ok, require_eq_ok]
  exact ⟨ms, rfl, (), hkeys, (), hconstants, true, hsupported, (), rfl,
    envelope.salt, hsalt ▸ decode_encode hsized.salt _,
    envelope.wrapNonce, hwrapNonce ▸ decode_encode hsized.wrapNonce _,
    envelope.wrappedKey, hwrappedKey ▸ decode_encode hsized.wrappedKey _,
    envelope.contentNonce, hcontentNonce ▸ decode_encode hsized.contentNonce _, rfl⟩

/-! ## Identifiers -/

section Identifiers

/-- The bytes of an identifier. -/
def asciiBytes (s : Str) : Bytes := s.map fun c => UInt8.ofNat c.val

theorem isCanonicalUuid_spec {s : Str} (h : isCanonicalUuid s = true) :
    s.length = 36 ∧ ∀ c ∈ s, c = Text.ofChar '-' ∨ isLowerHex c = true := by
  rw [isCanonicalUuid, Bool.and_eq_true, decide_eq_true_eq, List.all_eq_true] at h
  refine ⟨h.1, fun c hc => ?_⟩
  obtain ⟨i, hi, heq⟩ := List.mem_iff_getElem.1 hc
  have hpair := h.2 (c, i) (List.mem_zipIdx_iff_getElem?.2 (by rw [List.getElem?_eq_getElem hi, heq]))
  simp only at hpair
  split at hpair
  · exact .inl (of_decide_eq_true hpair)
  · exact .inr hpair

theorem isLowerHex_spec {c : Text.CodePoint} (h : isLowerHex c = true) :
    48 ≤ c.val ∧ c.val ≤ 57 ∨ 97 ≤ c.val ∧ c.val ≤ 102 := by
  simpa [isLowerHex, Text.isDigit] using h

/-- A canonical identifier is plain ASCII in lower case. -/
theorem point_of_isCanonicalUuid {s : Str} (h : isCanonicalUuid s = true) {c : Text.CodePoint}
    (hc : c ∈ s) : c.val = 45 ∨ 48 ≤ c.val ∧ c.val ≤ 57 ∨ 97 ≤ c.val ∧ c.val ≤ 102 := by
  obtain rfl | hhex := (isCanonicalUuid_spec h).2 c hc
  · exact .inl rfl
  · exact .inr (isLowerHex_spec hhex)

theorem lower_of_isCanonicalUuid {s : Str} (h : isCanonicalUuid s = true) : Feed.lower s = s := by
  have hsame : ∀ c ∈ s, (if 65 ≤ c.val ∧ c.val ≤ 90 then Fin.ofNat _ (c.val + 32) else c) = c := by
    intro c hc
    refine if_neg ?_
    obtain hv | hv := point_of_isCanonicalUuid h hc <;> omega
  exact (List.map_congr_left hsame).trans (List.map_id _)

theorem validateEntryId_canonical (S : System) {s : Str} (h : isCanonicalUuid s = true) :
    validateEntryId S s = .ok s := by
  unfold validateEntryId
  rw [lower_of_isCanonicalUuid h, if_pos h]

theorem encodeAscii_canonical {s : Str} (h : isCanonicalUuid s = true) :
    encodeAscii s = .ok (asciiBytes s) := by
  unfold encodeAscii
  rw [accept_eq_ok]
  refine ⟨isAscii_iff.2 fun c hc => ?_, rfl⟩
  obtain hv | hv := point_of_isCanonicalUuid h hc <;> omega

/-- A part of an identifier between two dashes. -/
theorem all_group {s : Str} {n : Nat} (hs : ∀ c ∈ s, isLowerHex c = true)
    (hn : ∀ i, n ≤ i → i < n + s.length → ¬ (i = 8 ∨ i = 13 ∨ i = 18 ∨ i = 23)) :
    ((s.zipIdx n).all fun c =>
      if c.2 = 8 ∨ c.2 = 13 ∨ c.2 = 18 ∨ c.2 = 23 then decide (c.1 = Text.ofChar '-')
      else isLowerHex c.1) = true := by
  rw [List.all_eq_true]
  rintro ⟨c, i⟩ hc
  obtain ⟨hlow, hhigh, -⟩ := List.mem_zipIdx hc
  rw [if_neg (hn i hlow hhigh)]
  exact hs c (List.fst_mem_of_mem_zipIdx hc)

/-- The text of a random identifier is canonical. -/
theorem isCanonicalUuid_uuidText {random : Bytes} (h : random.length = 16) :
    isCanonicalUuid (uuidText random) = true := by
  have hlength : (hexText (random.zipIdx.map fun b =>
      if b.2 = 6 then b.1 % 16 + 0x40 else if b.2 = 8 then b.1 % 64 + 0x80 else b.1)).length = 32 := by
    rw [length_hexText, List.length_map, List.length_zipIdx, h]
  have hhex : ∀ c ∈ hexText (random.zipIdx.map fun b =>
      if b.2 = 6 then b.1 % 16 + 0x40 else if b.2 = 8 then b.1 % 64 + 0x80 else b.1),
      isLowerHex c = true := by
    intro c hc
    obtain ⟨n, hn, rfl⟩ := mem_hexText hc
    exact (hexChar_spec n hn).2.2.2.2
  unfold uuidText
  generalize hexText (random.zipIdx.map fun b =>
    if b.2 = 6 then b.1 % 16 + 0x40 else if b.2 = 8 then b.1 % 64 + 0x80 else b.1) = hex at *
  have htake : ∀ m n, ∀ c ∈ (hex.drop m).take n, isLowerHex c = true :=
    fun m n c hc => hhex c (List.mem_of_mem_drop (List.mem_of_mem_take hc))
  have hdash : (str "-").length = 1 := rfl
  rw [isCanonicalUuid, Bool.and_eq_true, decide_eq_true_eq]
  constructor
  · simp only [List.length_append, List.length_take, List.length_drop, hlength, hdash]
    omega
  · simp only [List.zipIdx_append, List.all_append, Bool.and_eq_true, List.length_append,
      List.length_take, List.length_drop, hlength, hdash]
    refine ⟨⟨⟨⟨⟨⟨⟨⟨?_, ?_⟩, ?_⟩, ?_⟩, ?_⟩, ?_⟩, ?_⟩, ?_⟩, ?_⟩
    · refine all_group (htake 0 8) fun i _ hi => ?_
      rw [List.length_take, hlength] at hi
      omega
    · rfl
    · refine all_group (htake 8 4) fun i hlow hi => ?_
      rw [List.length_take, List.length_drop, hlength] at hi
      omega
    · rfl
    · refine all_group (htake 12 4) fun i hlow hi => ?_
      rw [List.length_take, List.length_drop, hlength] at hi
      omega
    · rfl
    · refine all_group (htake 16 4) fun i hlow hi => ?_
      rw [List.length_take, List.length_drop, hlength] at hi
      omega
    · rfl
    · refine all_group (fun c hc => hhex c (List.mem_of_mem_drop hc)) fun i hlow hi => ?_
      rw [List.length_drop, hlength] at hi
      omega

end Identifiers

/-! ## Lawful entries -/

/-- The vault fields of an entry belong to a text, under a content key. -/
structure Entry.Lawful (S : System) (device : DeviceRoot) (text contentKey aad : Bytes) (e : Entry) :
    Prop where
  id : isCanonicalUuid e.id = true
  sha256 : e.sha256 = S.hexdigest text
  size : e.size = text.length
  createdAt : e.createdAt.getLast? = some (Text.ofChar 'Z')
  zba : createQuarantineRecord S e.id e.sha256 e.createdAt = .ok e.zba
  protection : e.protection = device.protection
  supported : device.protection ∈ [windowsProtection, previewProtection]
  sized : e.envelope.Sized
  aadBytes : Util.canonicalJsonBytes S.runtime e.aad = .ok aad
  keyLength : contentKey.length = keyBytes
  wrapped : e.envelope.wrappedKey = S.aead.encrypt
    (wrapKey S device e.envelope.salt (asciiBytes e.id)) e.envelope.wrapNonce aad contentKey
  contentTag : e.contentTag = S.aead.tag contentKey e.envelope.contentNonce aad
    (S.aead.crypt contentKey e.envelope.contentNonce 0 text)

section Lawful

variable {S : System} {device : DeviceRoot} {text contentKey aad data : Bytes} {e : Entry}
  {w : Progress} {ms : List (Str × Json)}

/-- The common checks accept the signed metadata of an entry. -/
theorem checkCommon_of_signed (hagree : Agree ms (e.signed w S device data))
    (hdigest : isDigest e.sha256 = true) (hstate : w.state ∈ entryStates) :
    checkCommon e.id (.obj ms) = .ok (ms, .current, e.sha256) := by
  have hfield : ∀ {name : String} {s : Str}, str name ≠ str "metadata_mac" →
      field (e.members w) name = .str s → field ms name = .str s := by
    intro name s hname hs
    exact field_str hagree ((e.field_signed w S device data hname).trans hs)
  have hlist : ∀ {name : String} {vs : List Json}, str name ≠ str "metadata_mac" →
      field (e.members w) name = .arr vs → (field ms name).arrOf.isSome := by
    intro name vs hname hvs
    obtain ⟨us, hus, -⟩ := field_arr hagree ((e.field_signed w S device data hname).trans hvs)
    rw [hus]
    rfl
  have hschema : schemaOf ms = .ok .current := by
    rw [schemaOf, hfield (by decide) (e.field_schema w)]
    rfl
  have hkeys : Json.keysAre ms (requiredFields .current) = true := by
    rw [hagree.keysAre, ← e.keys_signed w S device data]
    exact Json.keysAre_self _
  have hid : isText (field ms "id") e.id = true :=
    Feed.isText_iff.2 (hfield (by decide) (e.field_id w))
  have hsha : field ms "sha256" = .str e.sha256 := hfield (by decide) (e.field_sha256 w)
  have hsize : field ms "size" = .int e.size :=
    field_int hagree ((e.field_signed w S device data (by decide)).trans (e.field_size w))
  have hknown : memberOf (field ms "state") entryStates = .ok true := by
    rw [hfield (by decide) (e.field_state w)]
    exact congrArg Except.ok (decide_eq_true hstate)
  simp only [checkCommon, bind_eq_ok, fromOption_eq_ok, require_eq_ok]
  exact ⟨ms, rfl, .current, hschema, (), ⟨hkeys, hid⟩, e.sha256, by rw [hsha]; rfl, (), hdigest,
    e.size, by rw [hsize]; rfl, (), Int.natCast_nonneg _, true, hknown, (), rfl, (),
    ⟨hlist (by decide) (e.field_history w), hlist (by decide) (e.field_ruleMatches w)⟩, rfl⟩

theorem agree_unsigned (hagree : Agree ms (e.signed w S device data)) :
    Agree (unsigned ms) (e.members w) := by
  have hout : unsigned (e.signed w S device data) = e.members w := by
    have hmac : [(str "metadata_mac", Json.str (macOf S device data))].filter
        (fun m => m.1 ≠ str "metadata_mac") = [] := List.filter_cons_of_neg (by simp)
    rw [unsigned, Entry.signed, List.filter_append, hmac, List.append_nil]
    refine List.filter_eq_self.2 fun m hm => decide_eq_true ?_
    rintro heq
    exact e.mac_notMem w (heq ▸ List.mem_map_of_mem hm)
  rw [← hout]
  exact hagree.erase (str "metadata_mac")

theorem encodeJson_of_agree {a b : List (Str × Json)} (h : Agree a b) (rt : Runtime)
    (σ : Json.Style) : Util.encodeJson rt σ (.obj a) = Util.encodeJson rt σ (.obj b) := by
  rw [← Util.encodeJson_sortKeys, h.sortKeys, Util.encodeJson_sortKeys]

theorem canonical_of_agree {a b : List (Str × Json)} (h : Agree a b) (rt : Runtime) :
    Util.canonicalJsonBytes rt (.obj a) = Util.canonicalJsonBytes rt (.obj b) :=
  encodeJson_of_agree h rt .canonical

/-- The MAC of the signed metadata is verified. -/
theorem verifyMetadata_of_signed (hagree : Agree ms (e.signed w S device data))
    (hdata : Util.canonicalJsonBytes S.runtime (.obj (e.members w)) = .ok data) :
    verifyMetadata S device ms = .ok () := by
  have hmac : field ms "metadata_mac" = .str (macOf S device data) :=
    field_str hagree (e.field_mac w S device data)
  have hcanonical : Util.canonicalJsonBytes S.runtime (.obj (unsigned ms)) = .ok data := by
    rw [canonical_of_agree (agree_unsigned hagree), hdata]
  have hlength : (macOf S device data).length = 64 := by
    rw [macOf, length_hexText, S.length_hmac]
  have hsame : compareDigest (macOf S device data) (macOf S device data) = .ok true :=
    compareDigest_hexText _
  simp only [verifyMetadata, bind_eq_ok, fromOption_eq_ok, require_eq_ok]
  exact ⟨macOf S device data, by rw [hmac]; rfl, (), hlength, data, hcanonical, true, hsame, rfl⟩

theorem aadProjection_of_agree (hagree : Agree ms (e.signed w S device data)) :
    Util.canonicalJsonBytes S.runtime (aadProjection ms) =
      Util.canonicalJsonBytes S.runtime e.aad := by
  have hkeys : ∀ members : List (Str × Json),
      (aadFields.map fun name => (str name, field members name)).map Prod.fst =
        aadFields.map str := by
    intro members
    rw [List.map_map]
    rfl
  have hnodup : (aadFields.map str).Nodup := by decide
  have hvalues : (aadFields.map fun name => (str name, (field ms name).sortKeys)) =
      aadFields.map fun name => (str name, (field (e.members w) name).sortKeys) := by
    refine List.map_congr_left fun name hname => ?_
    have hne : str name ≠ str "metadata_mac" := by
      have hall : ∀ name ∈ aadFields, str name ≠ str "metadata_mac" := by decide
      exact hall name hname
    rw [field_agree hagree, e.field_signed w S device data hne]
  have hsort : (aadProjection ms).sortKeys = (aadProjection (e.members w)).sortKeys := by
    have hsorted : ∀ members : List (Str × Json),
        Json.sortValues (aadFields.map fun name => (str name, field members name)) =
          aadFields.map fun name => (str name, (field members name).sortKeys) := by
      intro members
      rw [Json.sortValues_eq_map, List.map_map]
      rfl
    rw [aadProjection, aadProjection, Json.sortKeys, Json.sortKeys, hsorted, hsorted, hvalues]
  rw [Util.canonicalJsonBytes, Util.canonicalJsonBytes, ← Util.encodeJson_sortKeys, hsort,
    Util.encodeJson_sortKeys, e.aadProjection_members]

/-- The checks with the device root accept the signed metadata of a lawful entry. -/
theorem checkVault_of_signed (hagree : Agree ms (e.signed w S device data))
    (hlawful : e.Lawful S device text contentKey aad)
    (hdata : Util.canonicalJsonBytes S.runtime (.obj (e.members w)) = .ok data) :
    checkVault S device e.id e.sha256 ms = .ok () := by
  have hprotection : e.protection ∈ [windowsProtection, previewProtection] :=
    hlawful.protection ▸ hlawful.supported
  obtain ⟨vault, hvault, hagreeVault⟩ := field_obj hagree
    ((e.field_signed w S device data (by decide)).trans (e.field_vault w))
    (nodup_toDict e.envelope e.protection)
  obtain ⟨record, hrecord, hagreeRecord⟩ := field_obj hagree
    ((e.field_signed w S device data (by decide)).trans (e.field_zba w)) (nodup_record hlawful.zba)
  have htag : field ms "content_tag" = .str (Base64.encode e.contentTag) :=
    field_str hagree ((e.field_signed w S device data (by decide)).trans (e.field_contentTag w))
  have hlength : e.contentTag.length = 16 := by
    rw [hlawful.contentTag, S.aead.length_tag]
  have hdecode : decodeContentTag (field ms "content_tag") = .ok e.contentTag := by
    simp only [decodeContentTag, bind_eq_ok, fromOption_eq_ok, require_eq_ok]
    exact ⟨_, by rw [htag]; rfl, _, Base64.decode_encode _, (), hlength, rfl⟩
  have hsame : isText (field ((field ms "vault").objOf.getD []) "device_key_protection")
      device.protection = true := by
    rw [hvault]
    refine Feed.isText_iff.2 (field_str hagreeVault ?_)
    rw [field_protection, hlawful.protection]
  simp only [checkVault, bind_eq_ok, require_eq_ok]
  exact ⟨(), verifyMetadata_of_signed hagree hdata, e.envelope,
    hvault ▸ fromDict_of_agree hagreeVault hlawful.sized hprotection, (), hsame, e.contentTag,
    hdecode, (), hrecord ▸ validateQuarantineRecord_of_agree hlawful.zba hagreeRecord
      hlawful.createdAt, aad, (aadProjection_of_agree hagree).trans hlawful.aadBytes, rfl⟩

end Lawful

/-! ## Progress -/

/-- A dictionary, with a MAC or without one, has the members of an entry. -/
structure Entry.Fits (e : Entry) (w : Progress) (metadata : List (Str × Json)) : Prop where
  nodup : (metadata.map Prod.fst).Nodup
  agree : Agree (unsigned metadata) (e.members w)

/-- What an entry holds is flat. -/
structure Entry.Regular (e : Entry) (w : Progress) : Prop where
  ruleMatches : ∀ v ∈ e.ruleMatches, Json.Shaped (fun _ => False) 1 v
  zba : Json.Shaped (fun _ => False) 1 (.obj e.zba)
  quarantinedAt : Json.Shaped (fun _ => False) 0 w.quarantinedAt
  history : ∀ v ∈ w.history, Json.Shaped (fun _ => False) 1 v

section Progress

variable {S : System} {device : DeviceRoot} {data : Bytes} {e : Entry} {w w' : Progress}
  {metadata signed : List (Str × Json)}

theorem Entry.Fits.of_signed (h : Agree metadata (e.signed w S device data)) :
    e.Fits w metadata := ⟨h.left, agree_unsigned h⟩

/-- One member is set. -/
theorem Entry.Fits.insert (h : e.Fits w metadata) {key : Str} (hkey : key ≠ str "metadata_mac")
    {v u : Json} (hv : v.sortKeys = u.sortKeys)
    (hmembers : Json.insertMember (e.members w) key u = e.members w') :
    e.Fits w' (Json.insertMember metadata key v) := by
  refine ⟨((Agree.refl h.nodup).insert key (v := v) rfl).left, ?_⟩
  rw [← hmembers]
  exact (Json.agree_filter_insertMember h.nodup hkey v).trans (h.agree.insert key hv)

theorem Entry.Fits.setState (h : e.Fits w metadata) (state : Str) :
    e.Fits { w with state := state } (Json.insertMember metadata (str "state") (.str state)) :=
  h.insert (by decide) rfl rfl

theorem Entry.Fits.setQuarantinedAt (h : e.Fits w metadata) (time : Str) :
    e.Fits { w with quarantinedAt := .str time }
      (Json.insertMember metadata (str "quarantined_at") (.str time)) :=
  h.insert (by decide) rfl rfl

theorem Entry.Fits.setHistory (h : e.Fits w metadata) {history history' : List Json}
    (hsame : history.map Json.sortKeys = history'.map Json.sortKeys) :
    e.Fits { w with history := history' }
      (Json.insertMember metadata (str "restore_history") (.arr history)) := by
  refine h.insert (by decide) (u := .arr history') ?_ rfl
  rw [Json.sortKeys, Json.sortKeys, Json.sortElements_eq_map, Json.sortElements_eq_map, hsame]

/-- What is signed is the signed metadata of the entry. -/
theorem agree_of_signMetadata (h : e.Fits w metadata)
    (hsigned : signMetadata S device metadata = .ok signed) :
    ∃ data, Util.canonicalJsonBytes S.runtime (.obj (e.members w)) = .ok data ∧
      Agree signed (e.signed w S device data) := by
  obtain ⟨data, hdata, heq⟩ := bind_eq_ok.1 hsigned
  cases heq
  refine ⟨data, by rw [← canonical_of_agree h.agree, hdata], h.agree.snoc ?_ (e.mac_notMem w) _⟩
  intro hmem
  obtain ⟨m, hm, hkey⟩ := List.mem_map.1 hmem
  exact of_decide_eq_true (List.mem_filter.1 hm).2 hkey

theorem shaped_toDict (envelope : VaultEnvelope) (protection : Str) :
    Json.Shaped (fun _ => False) 1 (.obj (envelope.toDict protection)) := by
  refine .obj 0 _ (nodup_toDict envelope protection) fun m hm => ?_
  simp only [VaultEnvelope.toDict, envelopeConstants, List.map_cons, List.map_nil, List.cons_append,
    List.nil_append, List.mem_cons, List.not_mem_nil, or_false] at hm
  rcases hm with rfl | rfl | rfl | rfl | rfl | rfl | rfl | rfl | rfl <;> exact .str 0 _

theorem Entry.Regular.shaped (h : e.Regular w) (S : System) (device : DeviceRoot) (data : Bytes) :
    Json.Shaped (fun _ => False) 3 (.obj (e.signed w S device data)) := by
  refine .obj 2 _ (e.nodup_signed w S device data) fun m hm => ?_
  simp only [Entry.signed, Entry.members, List.cons_append, List.nil_append, List.mem_cons,
    List.not_mem_nil, or_false] at hm
  rcases hm with rfl | rfl | rfl | rfl | rfl | rfl | rfl | rfl | rfl | rfl | rfl | rfl | rfl | rfl |
    rfl | rfl
  all_goals first
    | exact .str 2 _
    | exact .int 2 _
    | exact h.quarantinedAt.mono (by omega)
    | exact .arr 1 _ h.history
    | exact .arr 1 _ h.ruleMatches
    | exact h.zba.mono (by omega)
    | exact (shaped_toDict _ _).mono (by omega)

/-- What was written of an entry can be read. -/
theorem Entry.Regular.writable (h : e.Regular w) {text : Bytes}
    (htext : Util.encodeJson S.runtime .pretty (.obj (e.signed w S device data)) = .ok text) :
    Util.Writable S.runtime (.obj (e.signed w S device data)) where
  plain := Json.plain_of_shaped (h.shaped S device data) (Util.fault_of_encodeJson htext)
  depth := (h.shaped S device data).depth_le.trans (by omega)
  encodable := Util.encodable_of_encodeJson rfl htext

end Progress

end ZsecShield.Quarantine
