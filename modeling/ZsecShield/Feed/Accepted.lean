import ZsecShield.Feed.FieldFacts
import ZsecShield.Feed.Store

/-!
# What an accepted feed looks like

An accepted document is made of strings, one integer and three levels of containers, so
it can be written again (`writable_of_verifyRoot`), and sorting its keys, which is what
writing it does, makes no difference to the verifier (`verifyRoot_sortKeys`).
-/

namespace ZsecShield.Feed

open Text (Str str)
open Checks

/-! ## Keyrings -/

theorem isRuleId_of_keyringRecord {result : Keyring} {record : Json} {index : Nat}
    {key : TrustedKey} (h : keyringRecord result record index = .ok key) :
    isRuleId key.keyId = true := by
  simp only [keyringRecord, bind_eq_ok, require_eq_ok] at h
  obtain ⟨_, -, _, -, keyId, -, _, hid, _, -, _, -, _, -, _, -, _, -, _, -, _, -, _, -, h⟩ := h
  cases h
  exact hid

/-- Every key of the keyring stands under an identifier. -/
def Identified (keyring : Keyring) : Prop := ∀ k ∈ keyring.map Prod.fst, isRuleId k = true

theorem identified_of_keyringRecords {records : List Json} :
    ∀ {result keyring : Keyring} {index : Nat}, Identified result →
      keyringRecords result index records = .ok keyring → Identified keyring := by
  induction records with
  | nil =>
      intro result keyring index hresult h
      cases h
      exact hresult
  | cons record records ih =>
      intro result keyring index hresult h
      obtain ⟨key, hkey, h⟩ := bind_eq_ok.1 h
      refine ih ?_ h
      intro k hk
      rw [List.map_append, List.mem_append] at hk
      obtain hk | hk := hk
      · exact hresult k hk
      · rw [List.map_singleton, List.mem_singleton] at hk
        subst hk
        exact isRuleId_of_keyringRecord hkey

theorem identified_of_parseKeyring {rt : Runtime} {raw : Bytes} {keyring : Keyring}
    (h : parseKeyring rt raw = .ok keyring) : Identified keyring := by
  simp only [parseKeyring, checkKeyring, bind_eq_ok] at h
  obtain ⟨_, -, root, -, _, -, h⟩ := h
  split at h
  · simp only [bind_eq_ok] at h
    obtain ⟨_, -, _, -, h⟩ := h
    exact identified_of_keyringRecords (by simp [Identified]) h
  · obtain ⟨_, -, h⟩ := bind_eq_ok.1 h
    cases h

/-! ## Records -/

/-- What holds of the value under each expected key holds of all members. -/
theorem members_of_fields {members : List (Str × Json)} {expected : List Str} {P : Json → Prop}
    (hkeys : Json.keysAre members expected = true) (hnodup : (members.map Prod.fst).Nodup)
    (h : ∀ k ∈ expected, P ((Json.lookup k members).getD .null)) : ∀ m ∈ members, P m.2 := by
  intro m hm
  simp only [Json.keysAre, Bool.and_eq_true, decide_eq_true_eq] at hkeys
  have hvalue := h m.1 (hkeys.1 m hm)
  rw [Json.lookup_eq_some_of_mem hnodup hm] at hvalue
  exact hvalue

/-- A plain value with few levels of containers. -/
def Flat (rt : Runtime) (levels : Nat) (value : Json) : Prop :=
  Json.Plain rt.intDigits value ∧ value.depth ≤ levels

theorem flat_str (rt : Runtime) (levels : Nat) (s : Str) : Flat rt levels (.str s) :=
  ⟨.str s, Nat.zero_le _⟩

theorem flat_int (rt : Runtime) (levels : Nat) {n : Int} (h : n.natAbs < 10 ^ 640) :
    Flat rt levels (.int n) := by
  have hlen := (Text.length_digits_le_iff (by omega)).2 h
  exact ⟨.int n (hlen.trans rt.intDigits_ge), Nat.zero_le _⟩

theorem flat_arr {rt : Runtime} {levels : Nat} {elements : List Json}
    (h : ∀ e ∈ elements, Flat rt levels e) : Flat rt (levels + 1) (.arr elements) := by
  refine ⟨.arr elements fun e he => (h e he).1, ?_⟩
  have hdepth := Json.depthElements_le fun e he => (h e he).2
  rw [Json.depth]
  omega

theorem flat_obj {rt : Runtime} {levels : Nat} {members : List (Str × Json)}
    (hnodup : (members.map Prod.fst).Nodup) (h : ∀ m ∈ members, Flat rt levels m.2) :
    Flat rt (levels + 1) (.obj members) := by
  refine ⟨.obj members hnodup fun m hm => (h m hm).1, ?_⟩
  have hdepth := Json.depthMembers_le fun m hm => (h m hm).2
  rw [Json.depth]
  omega

/-! ## Rules -/

theorem flat_of_validateRule (rt : Runtime) {record : Json} {index : Nat} {rule : Rule}
    (hd : Json.Distinct record) (h : validateRule record index = .ok rule) :
    Flat rt 1 record := by
  simp only [validateRule, bind_eq_ok, fromOption_eq_ok, Json.objOf_eq_some,
    expectExactKeys_eq_ok, boundedString_eq_ok] at h
  obtain ⟨members, rfl, _, hkeys, ruleId, ⟨hid, -⟩, _, -, name, ⟨hname, -⟩, description, ⟨hdesc, -⟩,
    source, ⟨hsource, -⟩, kindKnown, hkind, _, hkind', severityKnown, hsev, _, hsev', h⟩ := h
  rw [require_eq_ok] at hkind' hsev'
  subst hkind' hsev'
  obtain ⟨kind, -, hkind⟩ := memberOf_eq_true hkind
  obtain ⟨severity, -, hsev⟩ := memberOf_eq_true hsev
  have hvalue : ∃ s, field members "value" = .str s := by
    split at h
    · simp only [bind_eq_ok, boundedString_eq_ok] at h
      obtain ⟨text, ⟨htext, -⟩, -⟩ := h
      exact ⟨text, htext⟩
    · simp only [bind_eq_ok, decodeBase64_eq_ok] at h
      obtain ⟨data, ⟨hdata, -⟩, -⟩ := h
      exact ⟨_, hdata⟩
  obtain ⟨value, hvalue⟩ := hvalue
  cases hd with
  | obj _ hnodup _ =>
      refine flat_obj hnodup (members_of_fields hkeys hnodup fun k hk => ?_)
      simp only [ruleFields, List.mem_cons, List.not_mem_nil, or_false] at hk
      unfold field at hid hname hdesc hsource hkind hsev hvalue
      rcases hk with rfl | rfl | rfl | rfl | rfl | rfl | rfl
      · rw [hid]
        exact flat_str rt 0 _
      · rw [hname]
        exact flat_str rt 0 _
      · rw [hkind]
        exact flat_str rt 0 _
      · rw [hsev]
        exact flat_str rt 0 _
      · rw [hdesc]
        exact flat_str rt 0 _
      · rw [hsource]
        exact flat_str rt 0 _
      · rw [hvalue]
        exact flat_str rt 0 _

@[simp] theorem severityOf_sortKeys (value : Json) :
    severityOf value.sortKeys = severityOf value := by
  simp only [severityOf, isText_sortKeys]

theorem expectExactKeys_sortKeys {members : List (Str × Json)} {expected : List Str}
    {context : Str} {u : Unit} (h : expectExactKeys members expected context = .ok u) :
    expectExactKeys (Json.sortMembers (Json.sortValues members)) expected context = .ok u := by
  rw [expectExactKeys_eq_ok] at h ⊢
  rw [Json.keysAre_sortMembers]
  exact h

theorem validateRule_sortKeys {record : Json} {index : Nat} {rule : Rule}
    (hd : Json.Distinct record) (h : validateRule record index = .ok rule) :
    validateRule record.sortKeys index = .ok rule := by
  obtain ⟨members, hobj, hchecks⟩ := bind_eq_ok.1 h
  obtain ⟨_, hkeys, hfields⟩ := bind_eq_ok.1 hchecks
  rw [fromOption_eq_ok, Json.objOf_eq_some] at hobj
  subst hobj
  cases hd with
  | obj _ hnodup _ =>
      refine bind_eq_ok.2 ⟨_, fromOption_eq_ok.2 rfl, bind_eq_ok.2
        ⟨(), expectExactKeys_sortKeys hkeys, ?_⟩⟩
      simpa only [field_sortKeys hnodup, boundedString_sortKeys, memberOf_sortKeys,
        severityOf_sortKeys, isText_sortKeys, decodeBase64_sortKeys] using hfields

theorem mapIdx_sortKeys {records : List Json} : ∀ {index : Nat} {rules : List Rule},
    (∀ r ∈ records, Json.Distinct r) → mapIdx validateRule index records = .ok rules →
      mapIdx validateRule index (records.map Json.sortKeys) = .ok rules := by
  induction records with
  | nil => exact fun _ h => h
  | cons record records ih =>
      intro index rules hd h
      obtain ⟨rule, hrule, h⟩ := bind_eq_ok.1 h
      obtain ⟨rest, hrest, h⟩ := bind_eq_ok.1 h
      have hrule' := validateRule_sortKeys (hd record List.mem_cons_self) hrule
      have hrest' := ih (fun r hr => hd r (List.mem_cons_of_mem _ hr)) hrest
      exact bind_eq_ok.2 ⟨rule, hrule', bind_eq_ok.2 ⟨rest, hrest', h⟩⟩

/-! ## The payload -/

/-- The value under a key of a dictionary without repeated keys. -/
theorem distinct_field {members : List (Str × Json)} (h : Json.Distinct (.obj members))
    (key : String) : Json.Distinct (field members key) := by
  unfold field
  cases hl : Json.lookup (str key) members with
  | none => exact .null
  | some v =>
      cases h with
      | obj _ _ hvalues => exact hvalues _ (Json.mem_of_lookup hl)

theorem flat_of_verifyPayload {rt : Runtime} {payload : List (Str × Json)} {current : DateTime}
    {result : Int × (DateTime × DateTime) × List Rule} (hd : Json.Distinct (.obj payload))
    (h : verifyPayload rt payload current = .ok result) : Flat rt 3 (.obj payload) := by
  simp only [verifyPayload, bind_eq_ok, expectExactKeys_eq_ok] at h
  obtain ⟨_, hkeys, h⟩ := h
  split at h
  · rename_i hschema
    rw [isText_iff] at hschema
    simp only [bind_eq_ok, sequenceOf, fromOption_eq_ok, Json.intOf_eq_some, accept_eq_ok,
      validityWindow, timestamp_eq_ok, verifyRules, Json.arrOf_eq_some] at h
    obtain ⟨sequence, ⟨_, hsequence, hrange, rfl⟩, window, ⟨_, ⟨generated, hgenerated, -⟩, _,
      ⟨expires, hexpires, -⟩, -⟩, rules, ⟨records, hrecords, _, -, rules', hrules, -⟩, -⟩ := h
    have hrecord : ∀ r ∈ records, Flat rt 1 r := by
      have hall := mapIdx_forall (P := fun r => Json.Distinct r → Flat rt 1 r) (Q := fun _ => True)
        (fun r i rule hrule => ⟨fun hr => flat_of_validateRule rt hr hrule, trivial⟩) hrules
      have harr := distinct_field hd "rules"
      rw [hrecords] at harr
      cases harr with
      | arr _ hdistinct => exact fun r hr => hall.1 r hr (hdistinct r hr)
    have hnodup : (payload.map Prod.fst).Nodup := by
      cases hd with
      | obj _ hnodup _ => exact hnodup
    refine flat_obj hnodup (members_of_fields hkeys hnodup fun k hk => ?_)
    simp only [payloadFields, List.mem_cons, List.not_mem_nil, or_false] at hk
    unfold field at hschema hsequence hgenerated hexpires hrecords
    rcases hk with rfl | rfl | rfl | rfl | rfl
    · rw [hschema]
      exact flat_str rt 2 _
    · rw [hsequence]
      exact flat_int rt 2 (by omega)
    · rw [hgenerated]
      exact flat_str rt 2 _
    · rw [hexpires]
      exact flat_str rt 2 _
    · rw [hrecords]
      exact flat_arr hrecord
  · obtain ⟨_, -, h⟩ := bind_eq_ok.1 h
    cases h

theorem sequenceOf_of_verifyPayload {rt : Runtime} {payload : List (Str × Json)}
    {current : DateTime} {result : Int × (DateTime × DateTime) × List Rule}
    (h : verifyPayload rt payload current = .ok result) :
    sequenceOf (field payload "sequence") = .ok result.1 := by
  obtain ⟨_, -, hbody⟩ := bind_eq_ok.1 h
  split at hbody
  · obtain ⟨sequence, hsequence, hrest⟩ := bind_eq_ok.1 hbody
    obtain ⟨window, -, hlast⟩ := bind_eq_ok.1 hrest
    obtain ⟨rules, -, hpure⟩ := bind_eq_ok.1 hlast
    cases hpure
    exact hsequence
  · obtain ⟨_, -, herror⟩ := bind_eq_ok.1 hbody
    cases herror

@[simp] theorem sequenceOf_sortKeys (value : Json) :
    sequenceOf value.sortKeys = sequenceOf value := by
  cases value <;> rfl

theorem verifyRules_sortKeys {payload : List (Str × Json)} {rules : List Rule}
    (hd : Json.Distinct (.obj payload)) (h : verifyRules payload = .ok rules) :
    verifyRules (Json.sortMembers (Json.sortValues payload)) = .ok rules := by
  simp only [verifyRules, bind_eq_ok, fromOption_eq_ok, Json.arrOf_eq_some, require_eq_ok] at h ⊢
  obtain ⟨records, hrecords, _, hcount, rules', hrules, hids⟩ := h
  have harr := distinct_field hd "rules"
  rw [hrecords] at harr
  cases harr with
  | arr _ hdistinct =>
      cases hd with
      | obj _ hnodup _ =>
          refine ⟨records.map Json.sortKeys, ?_, (), ?_, rules', mapIdx_sortKeys hdistinct hrules,
            hids⟩
          · rw [field_sortKeys hnodup, hrecords, Json.sortKeys, Json.sortElements_eq_map]
          · rwa [List.length_map]

theorem verifyPayload_sortKeys {rt : Runtime} {payload : List (Str × Json)} {current : DateTime}
    {result : Int × (DateTime × DateTime) × List Rule} (hd : Json.Distinct (.obj payload))
    (h : verifyPayload rt payload current = .ok result) :
    verifyPayload rt (Json.sortMembers (Json.sortValues payload)) current = .ok result := by
  obtain ⟨_, hkeys, hbody⟩ := bind_eq_ok.1 h
  have hnodup : (payload.map Prod.fst).Nodup := by
    cases hd with
    | obj _ hnodup _ => exact hnodup
  refine bind_eq_ok.2 ⟨(), expectExactKeys_sortKeys hkeys, ?_⟩
  rw [field_sortKeys hnodup, isText_sortKeys]
  by_cases hschema : isText (field payload "schema") (str "zsec.shield.rules.v1") = true
  · rw [if_pos hschema] at hbody ⊢
    obtain ⟨sequence, hsequence, hrest⟩ := bind_eq_ok.1 hbody
    obtain ⟨window, hwindow, hlast⟩ := bind_eq_ok.1 hrest
    obtain ⟨rules, hrules, hpure⟩ := bind_eq_ok.1 hlast
    refine bind_eq_ok.2 ⟨sequence, ?_, bind_eq_ok.2 ⟨window, ?_, bind_eq_ok.2 ⟨rules, ?_, hpure⟩⟩⟩
    · rw [field_sortKeys hnodup, sequenceOf_sortKeys, hsequence]
    · simpa only [validityWindow, field_sortKeys hnodup, timestamp_sortKeys] using hwindow
    · exact verifyRules_sortKeys hd hrules
  · rw [if_neg hschema] at hbody
    obtain ⟨_, -, herror⟩ := bind_eq_ok.1 hbody
    cases herror

/-! ## The document -/

/-- What the envelope of an accepted document holds. -/
theorem verifySignature_eq_ok {rt : Runtime} {crypto : Crypto} {root : List (Str × Json)}
    {keyring : Keyring} {current : DateTime} {keyId : Str} {payload : List (Str × Json)}
    {canonical : Bytes} :
    verifySignature rt crypto root keyring current = .ok (keyId, payload, canonical) ↔
      Json.keysAre root envelopeFields = true ∧
      (field root "schema" = .str (str "zsec.shield.feed.v1") ∧
        field root "algorithm" = .str (str "ed25519")) ∧
      (field root "key_id" = .str keyId ∧ Bounded keyId 3 128) ∧
      field root "payload" = .obj payload ∧
      Util.canonicalJsonBytes rt (.obj payload) = .ok canonical ∧
      ∃ trusted, trustedKey keyring keyId current = .ok trusted ∧
        ∃ signature, decodeBase64 (field root "signature") (str "signature") (some 64) =
          .ok signature ∧ crypto.ed25519 trusted.publicKey signature canonical = true := by
  simp only [verifySignature, bind_eq_ok, expectExactKeys_eq_ok, require_eq_ok, isText_iff,
    boundedString_eq_ok, fromOption_eq_ok, Json.objOf_eq_some]
  constructor
  · rintro ⟨_, hkeys, _, hschema, _, hid, trusted, htrusted, _, hpayload, _, hcanonical, signature,
      hsignature, _, hverified, h⟩
    cases h
    exact ⟨hkeys, hschema, hid, hpayload, hcanonical, trusted, htrusted, signature, hsignature,
      hverified⟩
  · rintro ⟨hkeys, hschema, hid, hpayload, hcanonical, trusted, htrusted, signature, hsignature,
      hverified⟩
    exact ⟨(), hkeys, (), hschema, keyId, hid, trusted, htrusted, payload, hpayload, canonical,
      hcanonical, signature, hsignature, (), hverified, rfl⟩

theorem mem_of_trustedKey {keyring : Keyring} {keyId : Str} {current : DateTime}
    {trusted : TrustedKey} (h : trustedKey keyring keyId current = .ok trusted) :
    keyId ∈ keyring.map Prod.fst := by
  simp only [trustedKey, bind_eq_ok, fromOption_eq_ok] at h
  obtain ⟨found, hfound, -⟩ := h
  exact List.mem_map.2 ⟨_, Json.mem_of_lookup hfound, rfl⟩

/-- The parts of a verified document. -/
theorem verifyRoot_eq_ok {rt : Runtime} {crypto : Crypto} {root : Json} {keyring : Keyring}
    {current : DateTime} {verified : VerifiedFeed} :
    verifyRoot rt crypto root keyring current = .ok verified ↔
      ∃ members, root = .obj members ∧ ∃ keyId payload canonical,
        verifySignature rt crypto members keyring current = .ok (keyId, payload, canonical) ∧
        ∃ sequence generatedAt expiresAt rules,
          verifyPayload rt payload current = .ok (sequence, (generatedAt, expiresAt), rules) ∧
          verified = ⟨root, sequence, generatedAt, expiresAt, keyId, crypto.hexdigest canonical,
            rules⟩ := by
  simp only [verifyRoot, bind_eq_ok, fromOption_eq_ok, Json.objOf_eq_some]
  constructor
  · rintro ⟨members, hroot, ⟨keyId, payload, canonical⟩, hsignature,
      ⟨sequence, ⟨generatedAt, expiresAt⟩, rules⟩, hpayload, h⟩
    cases h
    exact ⟨members, hroot, keyId, payload, canonical, hsignature, sequence, generatedAt, expiresAt,
      rules, hpayload, rfl⟩
  · rintro ⟨members, hroot, keyId, payload, canonical, hsignature, sequence, generatedAt, expiresAt,
      rules, hpayload, rfl⟩
    exact ⟨members, hroot, (keyId, payload, canonical), hsignature,
      (sequence, (generatedAt, expiresAt), rules), hpayload, rfl⟩

/-- A verified document can be written. -/
theorem writable_of_verifyRoot {rt : Runtime} {crypto : Crypto} {root : Json} {keyring : Keyring}
    {current : DateTime} {verified : VerifiedFeed} (hkeyring : Identified keyring)
    (hd : Json.Distinct root) (h : verifyRoot rt crypto root keyring current = .ok verified) :
    Util.Writable rt root := by
  obtain ⟨members, rfl, keyId, payload, canonical, hsignature, sequence, generatedAt, expiresAt,
    rules, hverified, -⟩ := verifyRoot_eq_ok.1 h
  obtain ⟨hkeys, ⟨hschema, halgorithm⟩, ⟨hid, -⟩, hpayload, hcanonical, trusted, htrusted,
    signature, hdecoded, -⟩ := verifySignature_eq_ok.1 hsignature
  have hencoded := (decodeBase64_eq_ok.1 hdecoded).1
  have hdistinct := distinct_field hd "payload"
  rw [hpayload] at hdistinct
  have hflat := flat_of_verifyPayload hdistinct hverified
  have hstrings := Util.encodable_of_encodeJson rfl hcanonical
  have hidEncodable : Text.Encodable keyId :=
    encodable_of_isRuleId (hkeyring keyId (mem_of_trustedKey htrusted))
  have hnodup : (members.map Prod.fst).Nodup := by
    cases hd with
    | obj _ hnodup _ => exact hnodup
  have hfields : ∀ m ∈ members, Flat rt 3 m.2 ∧ Json.Strings Text.Encodable m.2 := by
    refine members_of_fields (P := fun v => Flat rt 3 v ∧ Json.Strings Text.Encodable v) hkeys
      hnodup fun k hk => ?_
    simp only [envelopeFields, List.mem_cons, List.not_mem_nil, or_false] at hk
    unfold field at hschema halgorithm hid hpayload hencoded
    rcases hk with rfl | rfl | rfl | rfl | rfl
    · rw [hschema]
      exact ⟨flat_str rt 3 _, .str _ (Text.encodable_str _)⟩
    · rw [halgorithm]
      exact ⟨flat_str rt 3 _, .str _ (Text.encodable_str _)⟩
    · rw [hid]
      exact ⟨flat_str rt 3 _, .str _ hidEncodable⟩
    · rw [hpayload]
      exact ⟨hflat, hstrings⟩
    · rw [hencoded]
      exact ⟨flat_str rt 3 _, .str _ (encodable_encode _)⟩
  have hkeysEncodable : ∀ m ∈ members, Text.Encodable m.1 := by
    intro m hm
    simp only [Json.keysAre, Bool.and_eq_true, decide_eq_true_eq] at hkeys
    have hmem := hkeys.1 m hm
    simp only [envelopeFields, List.mem_cons, List.not_mem_nil, or_false] at hmem
    rcases hmem with heq | heq | heq | heq | heq <;> rw [heq] <;> exact Text.encodable_str _
  have hroot := flat_obj hnodup fun m hm => (hfields m hm).1
  exact ⟨hroot.1, hroot.2.trans (by omega), .obj members hkeysEncodable fun m hm => (hfields m hm).2⟩

/-- A verified document with sorted keys is verified to the same feed. -/
theorem verifyRoot_sortKeys {rt : Runtime} {crypto : Crypto} {root : Json} {keyring : Keyring}
    {current : DateTime} {verified : VerifiedFeed} (hd : Json.Distinct root)
    (h : verifyRoot rt crypto root keyring current = .ok verified) :
    verifyRoot rt crypto root.sortKeys keyring current =
      .ok { verified with document := root.sortKeys } := by
  obtain ⟨members, rfl, keyId, payload, canonical, hsignature, sequence, generatedAt, expiresAt,
    rules, hverified, rfl⟩ := verifyRoot_eq_ok.1 h
  obtain ⟨hkeys, ⟨hschema, halgorithm⟩, ⟨hid, hbounded⟩, hpayload, hcanonical, trusted, htrusted,
    signature, hdecoded, hed⟩ := verifySignature_eq_ok.1 hsignature
  have hdistinct := distinct_field hd "payload"
  rw [hpayload] at hdistinct
  have hnodup : (members.map Prod.fst).Nodup := by
    cases hd with
    | obj _ hnodup _ => exact hnodup
  refine verifyRoot_eq_ok.2 ⟨_, rfl, keyId, Json.sortMembers (Json.sortValues payload), canonical,
    verifySignature_eq_ok.2 ?_, sequence, generatedAt, expiresAt, rules,
    verifyPayload_sortKeys hdistinct hverified, rfl⟩
  refine ⟨?_, ?_, ?_, ?_, ?_, trusted, htrusted, signature, ?_, hed⟩
  · rw [Json.keysAre_sortMembers]
    exact hkeys
  · rw [field_sortKeys hnodup, field_sortKeys hnodup, hschema, halgorithm]
    exact ⟨rfl, rfl⟩
  · rw [field_sortKeys hnodup, hid]
    exact ⟨rfl, hbounded⟩
  · rw [field_sortKeys hnodup, hpayload]
    rfl
  · rw [← hcanonical]
    exact Util.encodeJson_sortKeys rt .canonical (.obj payload)
  · rw [field_sortKeys hnodup, decodeBase64_sortKeys]
    exact hdecoded

end ZsecShield.Feed
