import ZsecShield.Feed.Rollback
import ZsecShield.Scan.Exact
import ZsecShield.Scan.Reports
import ZsecShield.Scan.Response

/-!
# The answer of an honest worker

Whatever is in a file, the answer of the worker fits into a frame, and the broker accepts it
(`honest_accepted`).  The identifiers in it are those of literal rules, which a feed bounds in
number and length, and the observations are few and short.
-/

namespace ZsecShield.Scan

open Text (Str str Encodable)
open Checks

/-! ## The identifiers -/

theorem nodup_addMatches {literals : Literals} {window : Bytes} {found : List Str}
    (h : found.Nodup) : (addMatches literals window found).Nodup := by
  unfold addMatches
  induction literals generalizing found with
  | nil => exact h
  | cons literal literals ih =>
      rw [List.foldl_cons]
      refine ih ?_
      split
      · rename_i hnew
        refine List.nodup_append.2 ⟨h, List.nodup_singleton _, ?_⟩
        rintro identifier hfound _ hmem rfl
        rw [List.mem_singleton] at hmem
        exact hnew.1 (hmem ▸ hfound)
      · exact h

theorem nodup_feedAll {literals : Literals} {m : Matching} (h : m.literalMatches.Nodup)
    (chunks : List Bytes) : (m.feedAll literals chunks).literalMatches.Nodup := by
  induction chunks generalizing m with
  | nil => exact h
  | cons chunk chunks ih => exact ih (m := m.feed literals chunk) (nodup_addMatches h)

theorem mem_allowedIds_of_mem_feedAll (s : Scanner) {identifier : Str} {chunks : List Bytes}
    (h : identifier ∈ (Matching.start.feedAll s.literals chunks).literalMatches) :
    identifier ∈ allowedIds s.rules := by
  obtain ⟨literal, hliteral, rfl, -⟩ := (mem_feedAll_start (literals_nonempty s) chunks).1 h
  obtain ⟨rule, hrule, rfl⟩ := List.mem_map.1 hliteral
  exact List.mem_map_of_mem hrule

theorem length_feedAll_le (s : Scanner) (chunks : List Bytes) :
    (Matching.start.feedAll s.literals chunks).literalMatches.length ≤ s.rules.length := by
  have hsub := List.subperm_of_subset (nodup_feedAll List.nodup_nil chunks)
    fun identifier => mem_allowedIds_of_mem_feedAll s
  have hallowed : (allowedIds s.rules).length ≤ s.rules.length := by
    rw [allowedIds, List.length_map]
    exact List.length_filter_le _ _
  exact hsub.length_le.trans hallowed

/-- An identifier that every style writes as it is. -/
def IsPlainId (identifier : Str) : Prop :=
  identifier.length ≤ 128 ∧ ∀ c ∈ identifier, Json.Literal c

theorem isPlainId_of_isRuleId {s : Str} (h : Feed.isRuleId s = true) : IsPlainId s := by
  have hpoint : ∀ c : Text.CodePoint, Feed.isIdPoint c = true → Json.Literal c := by
    intro c hc
    have hquote : (Text.ofChar '"').val = 34 := rfl
    have hslash : (Text.ofChar '\\').val = 92 := rfl
    have hrange {n m : Nat} (hn : 35 ≤ n) (hm : m < 127) (hskip : 92 < n ∨ m < 92)
        (hlow : n ≤ c.val) (hhigh : c.val ≤ m) : Json.Literal c := by
      refine ⟨by omega, by omega, ?_, ?_⟩
      · rintro rfl
        omega
      · rintro rfl
        omega
    simp only [Feed.isIdPoint, Feed.isLower, Text.isDigit, Bool.or_eq_true, Bool.and_eq_true,
      decide_eq_true_eq] at hc
    obtain ((((hc | hc) | rfl) | rfl) | rfl) | rfl := hc
    · exact hrange (by decide) (by decide) (.inl (by decide)) hc.1 hc.2
    · exact hrange (by decide) (by decide) (.inr (by decide)) hc.1 hc.2
    all_goals decide
  cases s with
  | nil => cases h
  | cons c rest =>
      simp only [Feed.isRuleId, Bool.and_eq_true, decide_eq_true_eq, List.all_eq_true] at h
      obtain ⟨⟨hhead, hlength⟩, hrest⟩ := h
      have hid : Feed.isIdPoint c = true := by
        simp only [Feed.isIdPoint, Bool.or_eq_true] at hhead ⊢
        exact .inl (.inl (.inl (.inl hhead)))
      refine ⟨?_, List.forall_mem_cons.2 ⟨hpoint c hid, fun x hx => hpoint x (hrest x hx)⟩⟩
      rw [List.length_cons]
      omega

/-! ## The rules of a feed -/

theorem length_mapIdx {ε α β : Type} {f : α → Nat → Except ε β} {as : List α} {i : Nat}
    {bs : List β} (h : mapIdx f i as = .ok bs) : bs.length = as.length := by
  induction as generalizing i bs with
  | nil =>
      cases h
      rfl
  | cons a as ih =>
      obtain ⟨b, -, h⟩ := bind_eq_ok.1 h
      obtain ⟨rest, hrest, h⟩ := bind_eq_ok.1 h
      cases h
      rw [List.length_cons, List.length_cons, ih hrest]

theorem isRuleId_of_validateRule {record : Json} {index : Nat} {rule : Rule}
    (h : Feed.validateRule record index = .ok rule) : Feed.isRuleId rule.ruleId = true := by
  simp only [Feed.validateRule, bind_eq_ok, require_eq_ok] at h
  obtain ⟨members, -, _, -, ruleId, -, _, hid, name, -, description, -, source, -, known, -, _, -,
    severity, -, _, -, h⟩ := h
  split at h
  · obtain ⟨text, -, h⟩ := bind_eq_ok.1 h
    obtain ⟨_, -, h⟩ := bind_eq_ok.1 h
    cases h
    exact hid.1
  · obtain ⟨literal, -, h⟩ := bind_eq_ok.1 h
    obtain ⟨_, -, h⟩ := bind_eq_ok.1 h
    cases h
    exact hid.1

/-- The rules of an accepted feed are limited in number, and their identifiers in length. -/
theorem rules_of_verifyFeedDocument {rt : Runtime} {crypto : Crypto} {raw : Bytes}
    {keyring : Feed.Keyring} {current : DateTime} {feed : Feed.VerifiedFeed}
    (h : Feed.verifyFeedDocument rt crypto raw keyring current = .ok feed) :
    feed.rules.length ≤ 2048 ∧ ∀ rule ∈ feed.rules, IsPlainId rule.ruleId := by
  obtain ⟨_, -, h⟩ := bind_eq_ok.1 h
  obtain ⟨root, -, h⟩ := bind_eq_ok.1 h
  obtain ⟨members, -, keyId, payload, canonical, -, sequence, generatedAt, expiresAt, rules,
    hpayload, rfl⟩ := Feed.verifyRoot_eq_ok.1 h
  obtain ⟨_, -, hpayload⟩ := bind_eq_ok.1 hpayload
  split at hpayload
  · obtain ⟨_, -, hpayload⟩ := bind_eq_ok.1 hpayload
    obtain ⟨_, -, hpayload⟩ := bind_eq_ok.1 hpayload
    obtain ⟨rules', hrules, hpayload⟩ := bind_eq_ok.1 hpayload
    cases hpayload
    simp only [Feed.verifyRules, bind_eq_ok, require_eq_ok] at hrules
    obtain ⟨records, -, _, hcount, rules', hrules, _, -, h⟩ := hrules
    cases h
    refine ⟨(length_mapIdx hrules).trans_le hcount, fun rule hrule => ?_⟩
    exact isPlainId_of_isRuleId ((mapIdx_forall (P := fun _ => True)
      (Q := fun rule => Feed.isRuleId rule.ruleId = true)
      (fun _ _ _ hrecord => ⟨trivial, isRuleId_of_validateRule hrecord⟩) hrules).2 rule hrule)
  · obtain ⟨_, -, hpayload⟩ := bind_eq_ok.1 hpayload
    cases hpayload

theorem maxFileBytes_le (s : Scanner) : s.config.maxFileBytes ≤ 16 * 1024 * 1024 * 1024 := by
  have hbounded := s.bounded
  unfold ScannerConfig.fault at hbounded
  split at hbounded
  · cases hbounded
  · rename_i hmax
    exact (not_not.1 hmax).2

/-- The rules of a scanner with the built-in rules and those of an accepted feed. -/
structure FeedScanner (s : Scanner) : Prop where
  count : s.rules.length ≤ 2050
  ids : ∀ rule ∈ s.rules, IsPlainId rule.ruleId

theorem feedScanner_new {rt : Runtime} {crypto : Crypto} {raw : Bytes} {keyring : Feed.Keyring}
    {current : DateTime} {feed : Feed.VerifiedFeed}
    (hfeed : Feed.verifyFeedDocument rt crypto raw keyring current = .ok feed)
    {pathKey : Path → Str} {config : ScannerConfig} {s : Scanner}
    (h : Scanner.new pathKey (builtinRules ++ feed.rules) config = .ok s) : FeedScanner s := by
  obtain ⟨hcount, hids⟩ := rules_of_verifyFeedDocument hfeed
  have hperm : s.rules.Perm (builtinRules ++ feed.rules) := by
    rw [(new_rules h).1]
    exact List.perm_insertionSort _ _
  constructor
  · have hbuiltin : builtinRules.length = 2 := rfl
    rw [hperm.length_eq, List.length_append]
    omega
  · intro rule hrule
    rcases List.mem_append.1 (hperm.mem_iff.1 hrule) with hbuiltin | hrule
    · simp only [builtinRules, List.mem_cons, List.not_mem_nil, or_false] at hbuiltin
      rcases hbuiltin with rfl | rfl
      · exact isPlainId_of_isRuleId (by decide)
      · exact isPlainId_of_isRuleId (by decide)
    · exact hids rule hrule

/-! ## Observations on the wire -/

section Observations

variable {o : Observation}

theorem keys_evidence (evidence : List (Str × EvidenceValue)) :
    (evidence.map fun m => (m.1, m.2.toJson)).map Prod.fst = evidence.map Prod.fst := by
  rw [List.map_map]
  rfl

theorem keys_members (o : Observation) : o.members.map Prod.fst = observationFields := rfl

theorem nodup_members (o : Observation) : (o.members.map Prod.fst).Nodup := by
  rw [keys_members]
  decide

theorem encodable_severityText (severity : Severity) : Encodable (severityText severity) := by
  cases severity <;> exact Text.encodable_str _

theorem flat_evidenceValue (rt : Runtime) {value : EvidenceValue} (h : value.Short) (levels : Nat) :
    Feed.Flat rt levels value.toJson := by
  cases value with
  | text s => exact Feed.flat_str rt levels s
  | number n =>
      have hdigits : (Text.digits n.natAbs).length ≤ 40 :=
        (Text.length_digits_le_iff (by decide)).2 h
      have hlimit := rt.intDigits_ge
      exact ⟨.int n (by omega), Nat.zero_le _⟩
  | flag b => exact ⟨.bool b, Nat.zero_le _⟩

/-- An observation has two levels of containers. -/
theorem flat_observation (rt : Runtime) (h : o.Short) : Feed.Flat rt 2 o.toJson := by
  refine Feed.flat_obj (nodup_members o) ?_
  simp only [Observation.members, List.forall_mem_cons]
  refine ⟨Feed.flat_str rt 1 _, Feed.flat_str rt 1 _, Feed.flat_str rt 1 _, Feed.flat_str rt 1 _,
    Feed.flat_obj ?_ ?_, ⟨.bool false, Nat.zero_le _⟩, nofun⟩
  · rw [keys_evidence]
    exact h.evidence.nodup
  · intro m hm
    obtain ⟨m', hm', rfl⟩ := List.mem_map.1 hm
    exact flat_evidenceValue rt (h.evidence.values m' hm') 0

theorem strings_observation (h : o.Short) : Json.Strings Encodable o.toJson := by
  have hevidence : Json.Strings Encodable (.obj (o.evidence.map fun m => (m.1, m.2.toJson))) := by
    refine .obj _ (List.forall_mem_map.2 fun m hm => (h.evidence.keys m hm).2)
      (List.forall_mem_map.2 fun m hm => ?_)
    have hvalue := h.evidence.values m hm
    cases hm2 : m.2 with
    | text s =>
        rw [hm2] at hvalue
        exact .str s hvalue.2
    | number n => exact .int n
    | flag b => exact .bool b
  refine .obj _ ?_ ?_
  · simp only [Observation.members, List.forall_mem_cons]
    exact ⟨Text.encodable_str _, Text.encodable_str _, Text.encodable_str _, Text.encodable_str _,
      Text.encodable_str _, Text.encodable_str _, nofun⟩
  · simp only [Observation.members, List.forall_mem_cons]
    exact ⟨.str _ h.provider.2, .str _ h.category.2, .str _ (encodable_severityText _),
      .str _ h.summary.2, hevidence, .bool false, nofun⟩

/-! ### Sizes -/

theorem utf8Size_member_wire (level : Nat) (key : String) {v : Json} {bound : Nat}
    (h : Text.utf8Size (Json.layout .wire level v) ≤ bound) :
    Text.utf8Size (Json.layoutMember .wire level (str key, v)) ≤ 48 * key.length + 9 + bound := by
  have hmember := Json.utf8Size_member_le .wire level (str key, v)
  have hsep : Text.utf8Size Json.Style.wire.keySeparator = 1 := rfl
  have hlength : (str key).length = key.length := length_str key
  rw [hsep] at hmember
  dsimp only at hmember
  omega

theorem utf8Size_str_le (level : Nat) {s : Str} {bound : Nat} (h : s.length ≤ bound) :
    Text.utf8Size (Json.layout .wire level (.str s)) ≤ 48 * bound + 8 := by
  have hquote := Json.utf8Size_quote_le .wire s
  rw [Json.layout]
  omega

theorem utf8Size_int_le (level : Nat) {n : Int} (h : n.natAbs < 10 ^ 40) :
    Text.utf8Size (Json.layout .wire level (.int n)) ≤ 41 := by
  have hdigits : (Text.digits n.natAbs).length ≤ 40 :=
    (Text.length_digits_le_iff (by decide)).2 h
  have hsign : (str "-").length = 1 := rfl
  rw [Json.layout, (Json.ascii_intText n).utf8Size]
  unfold Text.intText
  split
  · rw [List.length_append]
    omega
  · omega

theorem utf8Size_bool_le (level : Nat) (b : Bool) :
    Text.utf8Size (Json.layout .wire level (.bool b)) ≤ 5 :=
  Json.utf8Size_layout_le .wire (.bool b) level

theorem utf8Size_evidenceValue_le (level : Nat) {value : EvidenceValue} (h : value.Short) :
    Text.utf8Size (Json.layout .wire level value.toJson) ≤ 6536 := by
  cases value with
  | text s => exact utf8Size_str_le level h.1
  | number n => exact (utf8Size_int_le level h).trans (by decide)
  | flag b => exact (utf8Size_bool_le level b).trans (by decide)

theorem utf8Size_evidence_le (level : Nat) {evidence : List (Str × EvidenceValue)}
    (h : ShortEvidence evidence) :
    Text.utf8Size (Json.layout .wire level (.obj (evidence.map fun m => (m.1, m.2.toJson)))) ≤
      40000 := by
  have hsep : Text.utf8Size Json.Style.wire.keySeparator = 1 := rfl
  have hbreak (level : Nat) : Json.breakSize .wire level = 0 := rfl
  have hmembers : ∀ m ∈ evidence.map (fun m => (m.1, m.2.toJson)),
      Text.utf8Size (Json.layoutMember .wire (level + 1) m) ≤ 7985 := by
    refine List.forall_mem_map.2 fun m hm => ?_
    have hkey := (h.keys m hm).1.2
    have hvalue := utf8Size_evidenceValue_le (level + 1) (h.values m hm)
    have hmember := Json.utf8Size_member_le .wire (level + 1) (m.1, m.2.toJson)
    rw [hsep] at hmember
    dsimp only at hmember
    omega
  have hsize := Json.utf8Size_obj_le .wire level hmembers
  have hcount := h.count
  rw [hbreak, hbreak, List.length_map] at hsize
  omega

theorem utf8Size_observation_le (level : Nat) (h : o.Short) :
    Text.utf8Size (Json.layout .wire level o.toJson) ≤ 60000 := by
  have hbreak (level : Nat) : Json.breakSize .wire level = 0 := rfl
  have hseverity : (severityText o.severity).length ≤ 8 := by
    cases o.severity <;> decide
  have hprovider := utf8Size_member_wire (level + 1) "provider"
    (utf8Size_str_le (level + 1) h.provider.1.2)
  have hcategory := utf8Size_member_wire (level + 1) "category"
    (utf8Size_str_le (level + 1) h.category.1.2)
  have hseverity := utf8Size_member_wire (level + 1) "severity"
    (utf8Size_str_le (level + 1) hseverity)
  have hsummary := utf8Size_member_wire (level + 1) "summary"
    (utf8Size_str_le (level + 1) h.summary.1.2)
  have hevidence := utf8Size_member_wire (level + 1) "evidence"
    (utf8Size_evidence_le (level + 1) h.evidence)
  have heligible := utf8Size_member_wire (level + 1) "quarantine_eligible"
    (utf8Size_bool_le (level + 1) false)
  have hblock := Json.blockSize_le .wire level
    (o.members.map fun m => Text.utf8Size (Json.layoutMember .wire (level + 1) m))
  rw [Observation.toJson, Json.utf8Size_obj]
  simp only [Observation.members, Json.itemsSize, List.map_cons, List.map_nil, List.sum_cons,
    List.sum_nil, hbreak] at hblock ⊢
  have h8 : "provider".length = 8 ∧ "category".length = 8 ∧ "severity".length = 8 ∧
    "summary".length = 7 ∧ "evidence".length = 8 ∧ "quarantine_eligible".length = 19 := by decide
  omega

/-! ### What the broker accepts -/

theorem textWithin_str {s : Str} {minimum maximum : Nat} (refusal : PyError)
    (h : minimum ≤ s.length ∧ s.length ≤ maximum) :
    textWithin (.str s) minimum maximum refusal = .ok s :=
  bind_eq_ok.2 ⟨s, rfl, accept_eq_ok.2 ⟨h, rfl⟩⟩

theorem isEvidence_sorted {evidence : List (Str × EvidenceValue)} (h : ShortEvidence evidence)
    {m : Str × Json}
    (hm : m ∈ Json.sortMembers (Json.sortValues (evidence.map fun m => (m.1, m.2.toJson)))) :
    isEvidence m = true := by
  obtain ⟨m', hm', rfl⟩ := Json.mem_sortMembers hm
  obtain ⟨e, he, rfl⟩ := List.mem_map.1 hm'
  have hkey := (h.keys e he).1
  have hvalue := h.values e he
  rw [isEvidence, Bool.and_eq_true, decide_eq_true_eq]
  refine ⟨⟨hkey.1, hkey.2.trans (by decide)⟩, ?_⟩
  dsimp only
  cases hkind : e.2 with
  | text s =>
      rw [hkind] at hvalue
      exact decide_eq_true (by have := hvalue.1; omega)
  | number n => rfl
  | flag b => rfl

/-- The broker accepts a short observation as `json.loads` gives it. -/
theorem validateObservation_sorted (h : o.Short) :
    validateObservation o.toJson.sortKeys = .ok o.toJson.sortKeys := by
  have hfield (key : String) : Feed.field (Json.sortMembers (Json.sortValues o.members)) key =
      (Feed.field o.members key).sortKeys := Feed.field_sortKeys (nodup_members o) key
  have hkeys : Json.keysAre (Json.sortMembers (Json.sortValues o.members)) observationFields =
      true := by
    rw [Json.keysAre_sortMembers]
    exact Json.keysAre_self o.members
  have hcategory := h.category.1
  have hsummary := h.summary.1
  have hknown : Feed.memberOf (.str (severityText o.severity)) Feed.severities = .ok true := by
    cases o.severity <;> rfl
  have hcount : (Json.sortMembers (Json.sortValues
      (o.evidence.map fun m => (m.1, m.2.toJson)))).length ≤ 16 := by
    have hfive := h.evidence.count
    rw [(Json.perm_sortMembers _).length_eq, Json.sortValues_eq_map, List.length_map,
      List.length_map]
    omega
  refine bind_eq_ok.2 ⟨_, fromOption_eq_ok.2 rfl, bind_eq_ok.2 ⟨(), require_eq_ok.2 hkeys, ?_⟩⟩
  simp only [hfield]
  refine bind_eq_ok.2 ⟨o.provider, textWithin_str _ h.provider.1, ?_⟩
  refine bind_eq_ok.2 ⟨o.category, textWithin_str _ ⟨hcategory.1, by omega⟩, ?_⟩
  refine bind_eq_ok.2 ⟨true, hknown, bind_eq_ok.2 ⟨(), require_eq_ok.2 rfl, ?_⟩⟩
  refine bind_eq_ok.2 ⟨o.summary, textWithin_str _ ⟨hsummary.1, by omega⟩, ?_⟩
  refine bind_eq_ok.2 ⟨_, fromOption_eq_ok.2 rfl, bind_eq_ok.2 ⟨(), require_eq_ok.2 hcount, ?_⟩⟩
  refine bind_eq_ok.2 ⟨(), require_eq_ok.2 rfl, bind_eq_ok.2 ⟨(), require_eq_ok.2 ?_, rfl⟩⟩
  exact List.all_eq_true.2 fun m hm => isEvidence_sorted h.evidence hm

end Observations

/-! ## The answer -/

/-- An answer to a request for so many bytes that the worker of a scanner gives. -/
structure Answer (s : Scanner) (expectedSize : Nat) (result : StreamScan) : Prop where
  sha256 : isHexText 64 result.sha256 = true
  bytesRead : result.bytesRead = expectedSize
  nodup : result.literalRuleIds.Nodup
  allowed : ∀ identifier ∈ result.literalRuleIds, identifier ∈ allowedIds s.rules
  count : result.literalRuleIds.length ≤ s.rules.length
  observations : ∃ observations, Reports 10 observations ∧
    result.observations = observations.map Observation.toJson

theorem isHexText_spec {length : Nat} {s : Str} (h : isHexText length s = true) :
    s.length = length ∧ Encodable s := by
  rw [isHexText, Bool.and_eq_true, decide_eq_true_eq, List.all_eq_true] at h
  refine ⟨h.1, fun c hc => ?_⟩
  exact Text.encodable_str "0123456789abcdef" c (of_decide_eq_true (h.2 c hc))

theorem isHexText_hexdigest (crypto : Crypto) (data : Bytes) :
    isHexText 64 (crypto.hexdigest data) = true := by
  have hhex : ∀ n < 16, Json.hexChar n ∈ str "0123456789abcdef" := by decide
  rw [isHexText, Bool.and_eq_true, decide_eq_true_eq, List.all_eq_true]
  refine ⟨crypto.length_hexdigest data, fun c hc => decide_eq_true ?_⟩
  simp only [Crypto.hexdigest, hexText, List.mem_flatMap, List.mem_cons, List.not_mem_nil,
    or_false] at hc
  obtain ⟨b, -, rfl | rfl⟩ := hc
  · exact hhex _ (by have := b.toNat_lt; omega)
  · exact hhex _ (Nat.mod_lt _ (by decide))

/-- The worker answers a stream of frames that keeps to the policy. -/
theorem answer_scanStream (s : Scanner) (crypto : Crypto) {ins : Inspectors} (hzip : ReadsZip ins)
    {chunkBytes maxFileBytes : Int} {chunks : List Bytes} (hchunks : ∀ chunk ∈ chunks, chunk ≠ [])
    (hframes : ∀ chunk ∈ chunks, (chunk.length : Int) ≤ chunkBytes)
    (hmax : (chunks.flatten.length : Int) ≤ maxFileBytes) (hlimit : maxFileBytes < 10 ^ 40) :
    ∃ result, scanStream (workerRuntime crypto ins) (some chunks.flatten.length) s.literals
        chunkBytes maxFileBytes chunks = .ok result ∧
      Answer s chunks.flatten.length result := by
  have hids := List.perm_insertionSort (fun a b : Str => a ≤ b)
    (Matching.start.feedAll s.literals chunks).literalMatches
  have hkept : (chunks.flatten.take maxInspectionBytes).length ≤ maxInspectionBytes :=
    List.length_take_le _ _
  have hreports : Reports 10 (inspectContent ins (chunks.flatten.take maxInspectionBytes)
      chunks.flatten.length) := reports_inspectContent hzip hkept (by omega)
  refine ⟨_, scanStream_eq _ hchunks hframes hmax, ?_⟩
  constructor
  · exact isHexText_hexdigest crypto _
  · rfl
  · exact hids.nodup_iff.2 (nodup_feedAll List.nodup_nil chunks)
  · exact fun identifier hmem => mem_allowedIds_of_mem_feedAll s (hids.mem_iff.1 hmem)
  · exact hids.length_eq.trans_le (length_feedAll_le s chunks)
  · exact ⟨_, hreports, rfl⟩

section Answer

variable {s : Scanner} {expectedSize : Nat} {result : StreamScan} {requestId : Str}

def responseFields : List Str :=
  [str "protocol", str "request_id", str "ok", str "sha256", str "bytes_read",
    str "literal_rule_ids", str "observations"]

theorem keys_workerResponse (requestId : Str) (result : StreamScan) :
    (workerResponse requestId result).map Prod.fst = responseFields := rfl

theorem nodup_workerResponse (requestId : Str) (result : StreamScan) :
    ((workerResponse requestId result).map Prod.fst).Nodup := by
  rw [keys_workerResponse]
  decide

theorem plainId_of_answer (hfeed : FeedScanner s) (h : Answer s expectedSize result)
    {identifier : Str} (hmem : identifier ∈ result.literalRuleIds) : IsPlainId identifier := by
  obtain ⟨rule, hrule, rfl⟩ := List.mem_map.1 (h.allowed identifier hmem)
  exact hfeed.ids rule (List.mem_of_mem_filter hrule)

theorem encodable_of_literal {text : Str} (h : ∀ c ∈ text, Json.Literal c) : Encodable text := by
  intro c hc hsurrogate
  have hlow : 0xD800 ≤ c.val := hsurrogate.1
  have hhigh := (h c hc).2.1
  omega

/-- `json.dumps` writes the answer. -/
theorem writable_workerResponse (rt : Runtime) (hfeed : FeedScanner s)
    (h : Answer s expectedSize result) (hsize : expectedSize < 10 ^ 40)
    (hrequest : isRequestId requestId = true) :
    Util.Writable rt (.obj (workerResponse requestId result)) := by
  obtain ⟨observations, hreports, hobservations⟩ := h.observations
  have hbytes := h.bytesRead
  have hshort : (EvidenceValue.number result.bytesRead).Short := short_nat (by omega)
  have hcount : Feed.Flat rt 3 (.int result.bytesRead) := flat_evidenceValue rt hshort 3
  have hids : Feed.Flat rt 3 (.arr (result.literalRuleIds.map .str)) :=
    Feed.flat_arr (List.forall_mem_map.2 fun identifier _ => Feed.flat_str rt 2 identifier)
  have hlist : Feed.Flat rt 3 (.arr result.observations) := by
    rw [hobservations]
    exact Feed.flat_arr
      (List.forall_mem_map.2 fun o ho => flat_observation rt (hreports.short o ho))
  have hflat : Feed.Flat rt 4 (.obj (workerResponse requestId result)) := by
    refine Feed.flat_obj (nodup_workerResponse requestId result) ?_
    simp only [workerResponse, List.forall_mem_cons]
    exact ⟨Feed.flat_str rt 3 _, Feed.flat_str rt 3 _, ⟨.bool true, Nat.zero_le _⟩,
      Feed.flat_str rt 3 _, hcount, hids, hlist, nofun⟩
  have hstrings : Json.Strings Encodable (.arr (result.literalRuleIds.map .str)) :=
    .arr _ (List.forall_mem_map.2 fun identifier hmem =>
      .str _ (encodable_of_literal (plainId_of_answer hfeed h hmem).2))
  have hreported : Json.Strings Encodable (.arr result.observations) := by
    rw [hobservations]
    exact .arr _ (List.forall_mem_map.2 fun o ho => strings_observation (hreports.short o ho))
  refine ⟨hflat.1, hflat.2.trans (by decide), .obj _ ?_ ?_⟩
  · simp only [workerResponse, List.forall_mem_cons]
    exact ⟨Text.encodable_str _, Text.encodable_str _, Text.encodable_str _, Text.encodable_str _,
      Text.encodable_str _, Text.encodable_str _, Text.encodable_str _, nofun⟩
  · simp only [workerResponse, List.forall_mem_cons]
    exact ⟨.str _ (Text.encodable_str _), .str _ (isHexText_spec hrequest).2, .bool true,
      .str _ (isHexText_spec h.sha256).2, .int _, hstrings, hreported, nofun⟩

/-- The answer fits into a frame. -/
theorem utf8Size_workerResponse_le (hfeed : FeedScanner s) (h : Answer s expectedSize result)
    (hsize : expectedSize < 10 ^ 40) (hrequest : isRequestId requestId = true) :
    Text.utf8Size (Json.layout .wire 0 (.obj (workerResponse requestId result))) ≤
      maxProtocolBytes := by
  obtain ⟨observations, hreports, hobservations⟩ := h.observations
  have hbreak (level : Nat) : Json.breakSize .wire level = 0 := rfl
  have hbytes := h.bytesRead
  have hids : Text.utf8Size (Json.layout .wire 1 (.arr (result.literalRuleIds.map .str))) ≤
      268552 := by
    have hitems : ∀ e ∈ result.literalRuleIds.map Json.str,
        Text.utf8Size (Json.layout .wire 2 e) ≤ 130 := by
      refine List.forall_mem_map.2 fun identifier hmem => ?_
      obtain ⟨hlength, hliteral⟩ := plainId_of_answer hfeed h hmem
      rw [Json.layout, Json.utf8Size_quote_literal .wire hliteral]
      omega
    have hlist := Json.utf8Size_arr_le .wire 1 hitems
    have hcount := h.count.trans hfeed.count
    rw [hbreak, hbreak, List.length_map] at hlist
    omega
  have hlist : Text.utf8Size (Json.layout .wire 1 (.arr result.observations)) ≤ 600012 := by
    have hitems : ∀ e ∈ result.observations,
        Text.utf8Size (Json.layout .wire 2 e) ≤ 60000 := by
      rw [hobservations]
      exact List.forall_mem_map.2 fun o ho => utf8Size_observation_le 2 (hreports.short o ho)
    have harr := Json.utf8Size_arr_le .wire 1 hitems
    have hlength : result.observations.length ≤ 10 := by
      rw [hobservations, List.length_map]
      exact hreports.length
    rw [hbreak, hbreak] at harr
    omega
  have hprotocol := utf8Size_member_wire 1 "protocol"
    (utf8Size_str_le 1 (by decide : workerProtocol.length ≤ 19))
  have hid := utf8Size_member_wire 1 "request_id"
    (utf8Size_str_le 1 (isHexText_spec hrequest).1.le)
  have hok := utf8Size_member_wire 1 "ok" (utf8Size_bool_le 1 true)
  have hdigest := utf8Size_member_wire 1 "sha256" (utf8Size_str_le 1 (isHexText_spec h.sha256).1.le)
  have hread := utf8Size_member_wire 1 "bytes_read"
    (utf8Size_int_le 1 (by omega : (result.bytesRead : Int).natAbs < 10 ^ 40))
  have hrules := utf8Size_member_wire 1 "literal_rule_ids" hids
  have hreported := utf8Size_member_wire 1 "observations" hlist
  have hblock := Json.blockSize_le .wire 0 ((workerResponse requestId result).map
    fun m => Text.utf8Size (Json.layoutMember .wire 1 m))
  rw [Json.utf8Size_obj]
  simp only [workerResponse, Json.itemsSize, List.map_cons, List.map_nil, List.sum_cons,
    List.sum_nil, hbreak, Nat.zero_add] at hblock ⊢
  have hkeys : "protocol".length = 8 ∧ "request_id".length = 10 ∧ "ok".length = 2 ∧
    "sha256".length = 6 ∧ "bytes_read".length = 10 ∧ "literal_rule_ids".length = 16 ∧
    "observations".length = 12 := by decide
  have hmax : maxProtocolBytes = 1048576 := rfl
  omega

/-- What was sent is what is received, with its keys sorted. -/
theorem receiveFrame_encodeFrame (rt : Runtime) (hfeed : FeedScanner s)
    (h : Answer s expectedSize result) (hsize : expectedSize < 10 ^ 40)
    (hrequest : isRequestId requestId = true) :
    ∃ frame, encodeFrame rt (workerResponse requestId result) = .ok frame ∧
      frame.length ≤ maxProtocolBytes ∧ receiveFrame rt frame =
        .ok (Json.sortMembers (Json.sortValues (workerResponse requestId result))) := by
  have hwritable := writable_workerResponse rt hfeed h hsize hrequest
  have hfits := utf8Size_workerResponse_le hfeed h hsize hrequest
  obtain ⟨frame, hframe⟩ := hwritable.encodeJson (σ := .wire) (Text.encodable_str ":")
  have htext := Util.encodeJson_eq_ok hframe
  have hlength : frame.length ≤ maxProtocolBytes := by
    rw [Text.length_encodeUtf8 htext, Json.text, Json.utf8Size_sortKeys]
    exact hfits
  have hloads := Json.loads_text (r := frameReader rt) rfl Json.separates_wire hwritable.plain
    (hwritable.depth.trans rt.scanDepth_ge)
    (fun _ => hwritable.encodable.sortKeys.mono fun _ => Json.faithful_of_encodable) (.inl rfl)
  rw [List.append_nil] at hloads
  refine ⟨frame, bind_eq_ok.2 ⟨frame, hframe, bind_eq_ok.2 ⟨(), require_eq_ok.2 hlength, rfl⟩⟩,
    hlength, ?_⟩
  rw [receiveFrame, if_neg (not_lt.2 hlength)]
  simp only [decodeFrame, Text.decodeUtf8_encodeUtf8 htext, hloads, Json.sortKeys]

theorem mapM_eq_ok {ε α β : Type} {f : α → Except ε β} {g : α → β} {l : List α}
    (h : ∀ a ∈ l, f a = .ok (g a)) : l.mapM f = .ok (l.map g) := by
  induction l with
  | nil => rfl
  | cons a l ih =>
      rw [List.mapM_cons, h a List.mem_cons_self,
        ih fun b hb => h b (List.mem_cons_of_mem a hb)]
      rfl

theorem mapM_strOf (texts : List Str) :
    ((texts.map Json.str).map Json.sortKeys).mapM Json.strOf = some texts := by
  induction texts with
  | nil => rfl
  | cons text texts ih =>
      rw [List.map_cons, List.map_cons, List.mapM_cons, ih]
      rfl

variable (requestId) in
/-- The broker accepts the answer as it is received. -/
theorem validateResponse_sorted (h : Answer s expectedSize result) :
    validateResponse s.rules
        (Json.sortMembers (Json.sortValues (workerResponse requestId result))) expectedSize
        requestId =
      .ok ⟨result.sha256, expectedSize, result.literalRuleIds,
        result.observations.map Json.sortKeys⟩ := by
  obtain ⟨observations, hreports, hobservations⟩ := h.observations
  have hfield (key : String) :
      Feed.field (Json.sortMembers (Json.sortValues (workerResponse requestId result))) key =
        (Feed.field (workerResponse requestId result) key).sortKeys :=
    Feed.field_sortKeys (nodup_workerResponse requestId result) key
  have hkeys : Json.keysAre
      (Json.sortMembers (Json.sortValues (workerResponse requestId result))) responseFields =
        true := by
    rw [Json.keysAre_sortMembers]
    exact Json.keysAre_self (workerResponse requestId result)
  have hbytes : (result.bytesRead : Int) = expectedSize := congrArg Int.ofNat h.bytesRead
  have hids : (Json.arr (result.literalRuleIds.map .str)).sortKeys =
      .arr ((result.literalRuleIds.map .str).map Json.sortKeys) := by
    rw [Json.sortKeys, Json.sortElements_eq_map]
  have hlist : (Json.arr result.observations).sortKeys =
      .arr (result.observations.map Json.sortKeys) := by
    rw [Json.sortKeys, Json.sortElements_eq_map]
  have hcount : (result.observations.map Json.sortKeys).length ≤ 32 := by
    rw [hobservations, List.length_map, List.length_map]
    exact hreports.length.trans (by decide)
  have hvalid : (result.observations.map Json.sortKeys).mapM validateObservation =
      .ok (result.observations.map Json.sortKeys) := by
    have hall : ∀ value ∈ result.observations.map Json.sortKeys,
        validateObservation value = .ok (id value) := by
      rw [hobservations]
      refine List.forall_mem_map.2 (List.forall_mem_map.2 fun o ho => ?_)
      exact validateObservation_sorted (hreports.short o ho)
    rw [mapM_eq_ok hall, List.map_id]
  refine bind_eq_ok.2 ⟨(), require_eq_ok.2 ?_, bind_eq_ok.2 ⟨(), require_eq_ok.2 ?_, ?_⟩⟩
  · rw [hfield]
    exact Feed.isText_iff.2 rfl
  · rw [hfield]
    exact Feed.isText_iff.2 rfl
  · have hok : isFlag true (Feed.field
        (Json.sortMembers (Json.sortValues (workerResponse requestId result))) "ok") = true := by
      rw [hfield]
      rfl
    rw [if_pos hok]
    refine bind_eq_ok.2 ⟨(), require_eq_ok.2 hkeys, ?_⟩
    simp only [hfield]
    refine bind_eq_ok.2 ⟨result.sha256, rfl, bind_eq_ok.2 ⟨(), require_eq_ok.2 h.sha256, ?_⟩⟩
    refine bind_eq_ok.2 ⟨result.bytesRead, rfl, bind_eq_ok.2 ⟨(), require_eq_ok.2 hbytes, ?_⟩⟩
    refine bind_eq_ok.2 ⟨_, fromOption_eq_ok.2 (Json.arrOf_eq_some.2 hids), ?_⟩
    refine bind_eq_ok.2 ⟨_, fromOption_eq_ok.2 (mapM_strOf _), ?_⟩
    refine bind_eq_ok.2 ⟨_, fromOption_eq_ok.2 (Json.arrOf_eq_some.2 hlist), ?_⟩
    refine bind_eq_ok.2 ⟨(), require_eq_ok.2 hcount, ?_⟩
    refine bind_eq_ok.2 ⟨(), require_eq_ok.2 ⟨h.nodup, h.allowed⟩, ?_⟩
    refine bind_eq_ok.2 ⟨_, hvalid, ?_⟩
    rw [hbytes]
    rfl

end Answer

/-! ## An honest worker -/

/-- Whatever is in a file that keeps to the size policy, the worker answers, its answer fits into a
frame, and the broker accepts what it receives. -/
theorem honest_accepted (rt : Runtime) (crypto : Crypto) {ins : Inspectors} (hzip : ReadsZip ins)
    {raw : Bytes} {keyring : Feed.Keyring} {current : DateTime} {feed : Feed.VerifiedFeed}
    (hfeed : Feed.verifyFeedDocument rt crypto raw keyring current = .ok feed)
    {pathKey : Path → Str} {config : ScannerConfig} {s : Scanner}
    (hs : Scanner.new pathKey (builtinRules ++ feed.rules) config = .ok s)
    {chunks : List Bytes} (hchunks : ∀ chunk ∈ chunks, chunk ≠ [])
    (hframes : ∀ chunk ∈ chunks, (chunk.length : Int) ≤ s.config.chunkBytes)
    (hmax : (chunks.flatten.length : Int) ≤ s.config.maxFileBytes)
    {requestId : Str} (hrequest : isRequestId requestId = true) :
    ∃ literals result frame response,
      decodeLiterals (rulesPayload s.rules) = .ok literals ∧
      scanStream (workerRuntime crypto ins) (some chunks.flatten.length) literals
        s.config.chunkBytes s.config.maxFileBytes chunks = .ok result ∧
      encodeFrame rt (workerResponse requestId result) = .ok frame ∧
      frame.length ≤ maxProtocolBytes ∧
      receiveFrame rt frame = .ok response ∧
      validateResponse s.rules response chunks.flatten.length requestId =
        .ok ⟨crypto.hexdigest chunks.flatten, chunks.flatten.length, result.literalRuleIds,
          result.observations.map Json.sortKeys⟩ := by
  have hscanner := feedScanner_new hfeed hs
  have hlimit := maxFileBytes_le s
  obtain ⟨result, hresult, hanswer⟩ := answer_scanStream s crypto hzip hchunks hframes hmax
    (by omega)
  obtain ⟨frame, hframe, hlength, hreceived⟩ := receiveFrame_encodeFrame rt hscanner hanswer
    (by omega) hrequest
  have hdigest : result.sha256 = crypto.hexdigest chunks.flatten := by
    cases hresult.symm.trans (scanStream_eq _ hchunks hframes hmax)
    rfl
  have haccepted := validateResponse_sorted requestId hanswer
  rw [hdigest] at haccepted
  exact ⟨s.literals, result, frame, _, decodeLiterals_payload s, hresult, hframe, hlength,
    hreceived, haccepted⟩

namespace Sample

/-- Inspectors whose ZIP parser reads nothing. -/
def inspectors : Inspectors where
  highEntropy _ := false
  lower := id
  zipEntries _ := .error (str "BadZipFile")

theorem readsZip_inspectors : ReadsZip inspectors where
  raised value name h := by
    cases h
    exact ⟨"BadZipFile", by decide, rfl⟩
  sizes value entries h := by cases h
  count value entries h := by cases h

def requestId : Str := List.replicate 32 (Text.ofChar '0')

instance feed_rules : Fact ((Feed.verifyRoot Feed.Sample.runtime Feed.Sample.crypto
    Feed.Sample.document Feed.Sample.keyring Feed.Sample.current).map Feed.VerifiedFeed.rules =
      .ok []) := ⟨by decide +kernel⟩

instance builtin_scanner :
    Fact ((Scanner.new id (builtinRules ++ []) {}).isOk = true) := ⟨by decide +kernel⟩

/-- A feed without rules. -/
theorem verified_feed : ∃ feed : Feed.VerifiedFeed, feed.rules = [] ∧
    Feed.verifyFeedDocument Feed.Sample.runtime Feed.Sample.crypto
      (Feed.Sample.bytes Feed.Sample.document) Feed.Sample.keyring Feed.Sample.current =
        .ok feed := by
  have hrules := feed_rules.out
  cases hroot : Feed.verifyRoot Feed.Sample.runtime Feed.Sample.crypto Feed.Sample.document
      Feed.Sample.keyring Feed.Sample.current with
  | error e =>
      rw [hroot] at hrules
      cases hrules
  | ok feed =>
      rw [hroot] at hrules
      have hempty : feed.rules = [] := Except.ok.inj hrules
      exact ⟨{ feed with document := Feed.Sample.document.sortKeys }, hempty,
        Feed.Sample.verifyFeedDocument_document hroot⟩

/-- The scanner with the built-in rules. -/
theorem scanner_builtin : ∃ s, Scanner.new id (builtinRules ++ []) {} = .ok s := by
  have hok := builtin_scanner.out
  cases hnew : Scanner.new id (builtinRules ++ []) {} with
  | error e =>
      rw [hnew] at hok
      cases hok
  | ok s => exact ⟨s, rfl⟩

end Sample

/-- A file of two bytes. -/
theorem honest_accepted_short : ∃ rules result frame response,
    encodeFrame Feed.Sample.runtime (workerResponse Sample.requestId result) = .ok frame ∧
      receiveFrame Feed.Sample.runtime frame = .ok response ∧
      validateResponse rules response 2 Sample.requestId =
        .ok ⟨Feed.Sample.crypto.hexdigest [77, 90], 2, result.literalRuleIds,
          result.observations.map Json.sortKeys⟩ := by
  obtain ⟨feed, hrules, hfeed⟩ := Sample.verified_feed
  obtain ⟨s, hs⟩ := Sample.scanner_builtin
  have hconfig : s.config = {} := (new_rules hs).2
  obtain ⟨literals, result, frame, response, -, -, hframe, -, hreceived, haccepted⟩ :=
    honest_accepted Feed.Sample.runtime Feed.Sample.crypto Sample.readsZip_inspectors hfeed
      (by rw [hrules]; exact hs) (by decide : ∀ chunk ∈ ([[77, 90]] : List Bytes), chunk ≠ [])
      (by rw [hconfig]; decide) (by rw [hconfig]; decide)
      (by decide : isRequestId Sample.requestId = true)
  exact ⟨s.rules, result, frame, response, hframe, hreceived, haccepted⟩

end ZsecShield.Scan
