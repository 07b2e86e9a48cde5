import ZsecShield.Feed.Inspect
import ZsecShield.Intelligence.Accepted
import ZsecShield.Updates.Intelligence

/-!
# What an installation of an envelope does to the store

`wp_installIntelligenceEnvelope`: a call leaves the files as they were, or it has verified
an envelope that the rollback rule admits and has carried out the first of its replacements
(`callWrites`), all of them if it returned.
-/

namespace ZsecShield

open Text (Str str)
open Effect
open Checks

namespace Updates

open Feed (feedError field isText isText_iff Keyring loadKeyring parseKeyring maxKeyringBytes
  Identified identified_of_parseKeyring members_of_fields distinct_field)
open Intelligence (Members Library TruthFloat)
open Json (Shaped)

/-! ## Verified envelopes -/

theorem mapError_eq_ok {ε ε' α : Type} {f : ε → ε'} {x : Except ε α} {a : α} :
    x.mapError f = .ok a ↔ x = .ok a := by
  cases x <;> simp [Except.mapError]

/-- What is known of a payload that was accepted. -/
structure AcceptedPayload (rt : Runtime) (crypto : Crypto) (lib : Library) (payload : Members)
    (sequence : Int) (digest : Str) : Prop where
  keys : Json.keysAre payload intelligencePayloadFields = true
  schema : field payload "schema" = .str intelligencePayloadSchema
  policy : Intelligence.isPolicy (field payload "policy") Intelligence.dataOnlyPolicy = true
  sequenceField : field payload "sequence" = .int sequence
  range : 1 ≤ sequence ∧ sequence < 2 ^ 63
  generatedAt : ∃ s, field payload "generated_at" = .str s
  expiresAt : ∃ s, field payload "expires_at" = .str s
  valid : ∃ sources, Intelligence.validateCatalog rt crypto lib (field payload "catalog") = .ok sources
  digestField : field payload "catalog_sha256" = .str digest
  catalog : ∃ canonical, Util.canonicalJsonBytes rt (field payload "catalog") = .ok canonical ∧
    digest = crypto.hexdigest (canonical ++ [10])

theorem str_of_parseTime {rt : Runtime} {value : Json} {name : Str} {d : DateTime}
    (h : parseTime rt value name = .ok d) : ∃ s, value = .str s := by
  obtain ⟨s, hs, -⟩ := bind_eq_ok.1 h
  exact ⟨s, Json.strOf_eq_some.1 (fromOption_eq_ok.1 hs)⟩

theorem accepted_of_verifyIntelligencePayload {rt : Runtime} {crypto : Crypto} {lib : Library}
    {payload : Members} {current : DateTime} {r : Int × Str}
    (h : verifyIntelligencePayload rt crypto lib payload current = .ok r) :
    AcceptedPayload rt crypto lib payload r.1 r.2 := by
  simp only [verifyIntelligencePayload, intelligenceWindow, verifyCatalog, bind_eq_ok,
    require_eq_ok, fromOption_eq_ok, Json.intOf_eq_some, mapError_eq_ok, isText_iff] at h
  obtain ⟨_, ⟨hkeys, hschema⟩, _, hpolicy, sequence, hsequence, _, hrange, _, ⟨_, hgenerated, _,
    hexpires, -⟩, digest, ⟨sources, hvalid, canonical, hcanonical, _, hdigest, heq⟩, h⟩ := h
  cases heq
  cases h
  exact ⟨hkeys, hschema, hpolicy, hsequence, hrange, str_of_parseTime hgenerated,
    str_of_parseTime hexpires, ⟨sources, hvalid⟩, hdigest, canonical, hcanonical, rfl⟩

/-- An accepted payload has at most five levels. -/
theorem AcceptedPayload.shaped {rt : Runtime} {crypto : Crypto} {lib : Library} {payload : Members}
    {sequence : Int} {digest : Str} (h : AcceptedPayload rt crypto lib payload sequence digest)
    (hd : Json.Distinct (.obj payload)) : Shaped TruthFloat 5 (.obj payload) := by
  have hnodup : (payload.map Prod.fst).Nodup := by
    cases hd with
    | obj _ hnodup _ => exact hnodup
  have htext : ∀ {v : Json}, (∃ s, v = .str s) → Shaped TruthFloat 4 v := by
    rintro v ⟨s, rfl⟩
    exact .str 4 s
  obtain ⟨sources, hvalid⟩ := h.valid
  refine .obj 4 _ hnodup (members_of_fields (P := Shaped TruthFloat 4) h.keys hnodup fun k hk => ?_)
  simp only [intelligencePayloadFields, List.mem_cons, List.not_mem_nil, or_false] at hk
  rcases hk with rfl | rfl | rfl | rfl | rfl | rfl | rfl
  · exact htext ⟨_, h.schema⟩
  · have hfield : (Json.lookup (str "sequence") payload).getD .null = .int sequence :=
      h.sequenceField
    rw [hfield]
    exact .int 4 sequence
  · exact htext h.generatedAt
  · exact htext h.expiresAt
  · exact htext ⟨_, h.digestField⟩
  · exact Intelligence.shaped_of_validateCatalog (distinct_field hd "catalog") hvalid
  · exact (Intelligence.shaped_policy (distinct_field hd "policy") h.policy).mono (by omega)

/-- What is known of an envelope that was verified. -/
structure VerifiedEnvelope.Valid (rt : Runtime) (crypto : Crypto) (lib : Library)
    (verified : VerifiedEnvelope) : Prop where
  payload : AcceptedPayload rt crypto lib verified.payload verified.sequence verified.catalogSha256
  nodup : (verified.payload.map Prod.fst).Nodup
  canonical : ∃ data, Util.canonicalJsonBytes rt (.obj verified.payload) = .ok data
  keyId : Text.Encodable verified.keyId
  document : ∃ members, verified.document = .obj members ∧
    field members "payload" = .obj verified.payload ∧ field members "key_id" = .str verified.keyId
  encodes : ∃ data, Util.encodeJson rt .pretty verified.document = .ok data

theorem keyId_of_activeKey {subject : Str} {keyring : Keyring} {keyId : Str} {current : DateTime}
    {trusted : Feed.TrustedKey} (hkeyring : Identified keyring)
    (h : activeKey subject (Json.lookup keyId keyring) current = .ok trusted) :
    Text.Encodable keyId := by
  obtain ⟨_, hfound, -⟩ := bind_eq_ok.1 h
  have hmem := Json.mem_of_lookup (fromOption_eq_ok.1 hfound)
  exact Feed.encodable_of_isRuleId (hkeyring keyId (List.mem_map_of_mem hmem))

theorem openEnvelope_eq_ok {subject : Str} {value : Json} {members : Members}
    (h : openEnvelope subject value = .ok members) : value = .obj members ∧
      Json.keysAre members Feed.envelopeFields = true ∧
      field members "schema" = .str envelopeSchema ∧
      field members "algorithm" = .str (str "ed25519") := by
  simp only [openEnvelope, bind_eq_ok, fromOption_eq_ok, Json.objOf_eq_some, require_eq_ok,
    isText_iff] at h
  obtain ⟨_, hmembers, _, hkeys, _, hidentity, h⟩ := h
  cases h
  exact ⟨hmembers, hkeys, hidentity.1, hidentity.2⟩

theorem decodeSignature_eq_ok {value : Json} {data : Bytes} (h : decodeSignature value = .ok data) :
    value = .str (Base64.encode data) := by
  simp only [decodeSignature, bind_eq_ok, fromOption_eq_ok, Json.strOf_eq_some, require_eq_ok] at h
  obtain ⟨text, htext, _, -, decoded, -, _, ⟨-, hencode⟩, h⟩ := h
  cases h
  rw [htext, hencode]

theorem verifySignature_eq_ok {rt : Runtime} {crypto : Crypto} {subject : Str}
    {trusted : Feed.TrustedKey} {signature : Json} {payload : Members} {u : Unit}
    (h : verifySignature rt crypto subject trusted signature payload = .ok u) :
    ∃ decoded canonical, decodeSignature signature = .ok decoded ∧
      Util.canonicalJsonBytes rt (.obj payload) = .ok canonical ∧
      crypto.ed25519 trusted.publicKey decoded (canonical ++ [10]) = true := by
  obtain ⟨decoded, hdecoded, h⟩ := bind_eq_ok.1 h
  cases hcanonical : Util.canonicalJsonBytes rt (.obj payload) with
  | error e =>
      rw [hcanonical] at h
      cases h
  | ok canonical =>
      rw [hcanonical] at h
      exact ⟨decoded, canonical, hdecoded, rfl, require_eq_ok.1 h⟩

theorem valid_of_verifyIntelligenceMembers {rt : Runtime} {crypto : Crypto} {lib : Library}
    {members : Members} {keyId : Str} {raw : Bytes} {keyring : Keyring} {current : DateTime}
    {verified : VerifiedEnvelope} (hkeyring : Identified keyring)
    (hread : readIntelligenceEnvelope rt raw = .ok (members, keyId))
    (h : verifyIntelligenceMembers rt crypto lib members keyId keyring current = .ok verified) :
    verified.Valid rt crypto lib := by
  simp only [readIntelligenceEnvelope, bind_eq_ok, fromOption_eq_ok, Json.strOf_eq_some] at hread
  obtain ⟨_, -, value, hloads, opened, hopen, _, hkey, hread⟩ := hread
  cases hread
  simp only [verifyIntelligenceMembers, bind_eq_ok, fromOption_eq_ok, Json.objOf_eq_some] at h
  obtain ⟨trusted, hactive, payload, hpayload, _, hsignature, ⟨sequence, digest⟩, hverified, h⟩ := h
  cases h
  obtain ⟨hvalue, hkeys, hschema, halgorithm⟩ := openEnvelope_eq_ok hopen
  subst hvalue
  have hd := Util.distinct_of_strictJsonLoads hloads
  have haccepted := accepted_of_verifyIntelligencePayload hverified
  have hkeyId := keyId_of_activeKey hkeyring hactive
  obtain ⟨decoded, canonical, hdecoded, hcanonical, -⟩ := verifySignature_eq_ok hsignature
  have hdpayload := distinct_field hd "payload"
  rw [hpayload] at hdpayload
  have hshaped := haccepted.shaped hdpayload
  have hnodup : (members.map Prod.fst).Nodup := by
    cases hd with
    | obj _ hnodup _ => exact hnodup
  -- Every member is a text, or it is the payload.
  have hmember : ∀ m ∈ members, (∃ s, m.2 = .str s ∧ Text.Encodable s) ∨ m.2 = .obj payload := by
    refine members_of_fields (P := fun v => (∃ s, v = .str s ∧ Text.Encodable s) ∨ v = .obj payload)
      hkeys hnodup fun k hk => ?_
    simp only [Feed.envelopeFields, List.mem_cons, List.not_mem_nil, or_false] at hk
    rcases hk with rfl | rfl | rfl | rfl | rfl
    · exact .inl ⟨_, hschema, Text.encodable_str _⟩
    · exact .inl ⟨_, halgorithm, Text.encodable_str _⟩
    · exact .inl ⟨_, hkey, hkeyId⟩
    · exact .inr hpayload
    · exact .inl ⟨_, decodeSignature_eq_ok hdecoded, Feed.encodable_encode _⟩
  have hdepth : (Json.obj members).depth ≤ 6 := by
    rw [Json.depth]
    refine Nat.succ_le_succ (Json.depthMembers_le fun m hm => ?_)
    rcases hmember m hm with ⟨s, hs, -⟩ | hm'
    · rw [hs]
      exact Nat.zero_le _
    · rw [hm']
      exact hshaped.depth_le
  have hdump : Json.Dumpable rt.intDigits (Json.obj members).sortKeys := by
    rw [Json.sortKeys]
    refine Json.dumpable_obj fun m hm => ?_
    obtain ⟨m', hm', rfl⟩ := Json.mem_sortMembers hm
    rcases hmember m' hm' with ⟨s, hs, -⟩ | hp
    · rw [hs]
      exact Json.dumpable_str _ s
    · rw [hp]
      exact Util.dumpable_of_encodeJson rfl hcanonical
  have hstrings : Json.Strings Text.Encodable (.obj members) := by
    refine .obj _ ?_ ?_
    · intro m hm
      simp only [Json.keysAre, Bool.and_eq_true, decide_eq_true_eq] at hkeys
      have hmem := hkeys.1 m hm
      simp only [Feed.envelopeFields, List.mem_cons, List.not_mem_nil, or_false] at hmem
      rcases hmem with heq | heq | heq | heq | heq <;> rw [heq] <;> exact Text.encodable_str _
    · intro m hm
      rcases hmember m hm with ⟨s, hs, hencodable⟩ | hp
      · rw [hs]
        exact .str s hencodable
      · rw [hp]
        exact Util.encodable_of_encodeJson rfl hcanonical
  have hnodup' : (payload.map Prod.fst).Nodup := by
    cases hdpayload with
    | obj _ hnodup _ => exact hnodup
  exact ⟨haccepted, hnodup', ⟨canonical, hcanonical⟩, hkeyId, ⟨members, rfl, hpayload, hkey⟩,
    Util.encodeJson_of_dumpable (Text.encodable_str _) hdump (hdepth.trans (by omega)) hstrings⟩

/-! ## The rollback state on the disk -/

/-- What is committed in the store. -/
def Committed (rt : Runtime) (stateDir : Path) (nodes : Disk.Nodes)
    (state : Option IntelligenceState) : Prop :=
  Util.Holds (parseIntelligenceState rt) nodes (intelligenceStatePath stateDir) state

/-- The state that commits an envelope. -/
def IntelligenceState.commits (verified : VerifiedEnvelope) : IntelligenceState :=
  ⟨verified.sequence, .str verified.catalogSha256⟩

section State

variable {rt : Runtime} {crypto : Crypto} {lib : Library} {verified : VerifiedEnvelope}
  {current : DateTime}

theorem AcceptedPayload.isSha256 {payload : Members} {sequence : Int} {digest : Str}
    (h : AcceptedPayload rt crypto lib payload sequence digest) : Feed.isSha256 digest = true := by
  obtain ⟨canonical, -, rfl⟩ := h.catalog
  exact Feed.isSha256_hexdigest crypto _

theorem nodup_stateJson : (intelligenceStateFields).Nodup := by decide

/-- The members of the written dictionary. -/
def stateMembers (verified : VerifiedEnvelope) (current : DateTime) : Members :=
  [(str "schema", .str intelligenceStateSchema), (str "max_sequence", .int verified.sequence),
    (str "catalog_sha256", .str verified.catalogSha256), (str "key_id", .str verified.keyId),
    (str "installed_at", .str (Util.formatUtc current))]

theorem writable_stateJson (h : verified.Valid rt crypto lib) (current : DateTime) :
    Util.Writable rt (intelligenceStateJson verified current) := by
  have hrange := h.payload.range
  have hflat : Feed.Flat rt 1 (intelligenceStateJson verified current) := by
    refine Feed.flat_obj nodup_stateJson ?_
    simp only [List.forall_mem_cons]
    exact ⟨Feed.flat_str rt 0 _, Feed.flat_int rt 0 (by omega), Feed.flat_str rt 0 _,
      Feed.flat_str rt 0 _, Feed.flat_str rt 0 _, by simp⟩
  refine ⟨hflat.1, hflat.2.trans (by omega), .obj _ ?_ ?_⟩
  · simp only [List.forall_mem_cons, Text.encodable_str, true_and]
    simp
  · simp only [List.forall_mem_cons]
    exact ⟨.str _ (Text.encodable_str _), .int _,
      .str _ (Feed.encodable_of_isSha256 h.payload.isSha256), .str _ h.keyId,
      .str _ (Feed.encodable_formatUtc current), by simp⟩

theorem checkIntelligenceState_stateJson (h : 1 ≤ verified.sequence) (current : DateTime) :
    checkIntelligenceState (intelligenceStateJson verified current).sortKeys =
      .ok (IntelligenceState.commits verified) := by
  have hnodup : ((stateMembers verified current).map Prod.fst).Nodup := nodup_stateJson
  have hfield := Feed.field_sortKeys hnodup
  have hkeys : Json.keysAre (stateMembers verified current) intelligenceStateFields = true :=
    Json.keysAre_self (stateMembers verified current)
  have hsequence : field (stateMembers verified current) "max_sequence" = .int verified.sequence :=
    rfl
  have hdigest : field (stateMembers verified current) "catalog_sha256" =
    .str verified.catalogSha256 := rfl
  simp only [checkIntelligenceState, bind_eq_ok, fromOption_eq_ok, require_eq_ok]
  refine ⟨Json.sortMembers (Json.sortValues (stateMembers verified current)), rfl, (), ?_, (), ?_,
    verified.sequence, ?_, (), h, ?_⟩
  · rw [Json.keysAre_sortMembers]
    exact hkeys
  · rw [hfield]
    exact isText_iff.2 rfl
  · rw [hfield, hsequence]
    rfl
  · rw [hfield, hdigest]
    rfl

/-- The written state is read back. -/
theorem parse_stateJson (h : verified.Valid rt crypto lib) {data : Bytes}
    (hdata : Util.encodeJson rt .pretty (intelligenceStateJson verified current) = .ok data) :
    parseIntelligenceState rt (data ++ [10]) = .ok (IntelligenceState.commits verified) := by
  have hread := (writable_stateJson h current).strictJsonLoads Json.separates_pretty rfl hdata
    (.inr rfl)
  rw [parseIntelligenceState, hread, bind_ok]
  exact checkIntelligenceState_stateJson h.payload.range.1 current

end State

/-! ## The replacements of a call -/

/-- The replacements of a call, the last one first: the copy of the active envelope, if there
is one, the catalog, the envelope and the state. -/
def callWrites (stateDir : Path) (active : Option Bytes) (catalog envelope state : Bytes) :
    Util.Writes :=
  [(intelligenceStatePath stateDir, state), (intelligenceEnvelopePath stateDir, envelope),
    (intelligenceDocumentPath stateDir, catalog)] ++
  (active.map fun raw => (intelligenceLastKnownGoodPath stateDir, raw)).toList

/-- The bytes that a call writes for an envelope. -/
structure Encodes (rt : Runtime) (verified : VerifiedEnvelope) (current : DateTime)
    (catalog envelope state : Bytes) : Prop where
  catalog : ∃ data, Util.canonicalJsonBytes rt (field verified.payload "catalog") = .ok data ∧
    catalog = data ++ [10]
  envelope : ∃ data, Util.encodeJson rt .pretty verified.document = .ok data ∧
    envelope = data ++ [10]
  state : ∃ data, Util.encodeJson rt .pretty (intelligenceStateJson verified current) = .ok data ∧
    state = data ++ [10]

/-- The rollback rule admits the envelope with an outcome. -/
def Admits (rt : Runtime) (stateDir : Path) (nodes : Disk.Nodes) (verified : VerifiedEnvelope)
    (outcome : Feed.InstallOutcome) : Prop :=
  ∃ previous, Committed rt stateDir nodes previous ∧ rollbackRule verified previous = .ok outcome

/-- A call for an admitted envelope that may have been cut. -/
def Halfway (rt : Runtime) (stateDir : Path) (T : Path → Prop) (nodes : Disk.Nodes)
    (verified : VerifiedEnvelope) (current : DateTime) (nodes' : Disk.Nodes) : Prop :=
  ∃ outcome catalog envelope state, Admits rt stateDir nodes verified outcome ∧
    Encodes rt verified current catalog envelope state ∧
    Util.Partly T (callWrites stateDir (Disk.content nodes (intelligenceEnvelopePath stateDir))
      catalog envelope state) nodes nodes'

/-- A call that has installed an admitted envelope. -/
def Installed (rt : Runtime) (stateDir : Path) (T : Path → Prop) (nodes : Disk.Nodes)
    (verified : VerifiedEnvelope) (current : DateTime) (outcome : Feed.InstallOutcome)
    (nodes' : Disk.Nodes) : Prop :=
  ∃ catalog envelope state, Admits rt stateDir nodes verified outcome ∧
    Encodes rt verified current catalog envelope state ∧
    Util.Wrote T (callWrites stateDir (Disk.content nodes (intelligenceEnvelopePath stateDir))
      catalog envelope state) nodes nodes'

/-- A set of paths that holds the files of the store, that other processes leave alone and that
a call uses for nothing else. -/
structure Watched (env : Util.Os) (stateDir : Path) (T : Path → Prop) : Prop where
  quiet : Util.Quiet env (intelligenceDirectory stateDir)
  others : ∀ t nodes, Disk.Same T nodes (env.others t nodes)
  parent : ∀ p, T p → Disk.Action.isParent p (intelligenceDirectory stateDir) = false
  inside : ∀ s, ¬ T (Disk.join (intelligenceDirectory stateDir) (str "." ++ s))
  entries : ∀ p, Util.Entries (intelligenceDirectory stateDir) p → T p

theorem ordinary_names : Util.Ordinary documentName ∧ Util.Ordinary envelopeName ∧
    Util.Ordinary stateName ∧ Util.Ordinary lastKnownGoodName := by decide

theorem watched_entries {env : Util.Os} {stateDir : Path}
    (h : Util.Quiet env (intelligenceDirectory stateDir)) :
    Watched env stateDir (Util.Entries (intelligenceDirectory stateDir)) :=
  ⟨h, h.others, fun _ => Util.Entries.isParent, fun s => Util.not_entries_dot _ s, fun _ hp => hp⟩

section Writing

variable {rt : Runtime} {crypto : Crypto} {lib : Library} {env : Util.Os} {stateDir : Path}
  {T : Path → Prop} {nodes : Disk.Nodes} {verified : VerifiedEnvelope} {current : DateTime}
  {m : Disk.Machine}

theorem Watched.tracked (h : Watched env stateDir T) {name : Str} (hname : Util.Ordinary name) :
    Util.Tracked env (Disk.join (intelligenceDirectory stateDir) name) T :=
  h.quiet.tracked_of hname h.others h.parent h.inside

theorem Watched.entry (h : Watched env stateDir T) {name : Str} (hname : Util.Ordinary name) :
    T (Disk.join (intelligenceDirectory stateDir) name) := h.entries _ (hname.entry _)

/-- `_load_intelligence_state` returns what is committed. -/
theorem wp_loadIntelligenceState (h : Watched env stateDir T) (hm : Disk.Same T nodes m.nodes) :
    wp env (loadIntelligenceState rt stateDir)
      ⟨fun state m' => Disk.Same T nodes m'.nodes ∧ Committed rt stateDir nodes state,
        fun _ m' => Disk.Same T nodes m'.nodes, fun m' => Disk.Same T nodes m'.nodes⟩ m := by
  have hpath : T (intelligenceStatePath stateDir) := h.entry ordinary_names.2.2.1
  unfold loadIntelligenceState
  refine wp.bind (Disk.wp_look h.others hm) ?_ (fun _ _ hs => hs) fun _ hs => hs
  intro found m' hm'
  cases found with
  | false =>
      refine ⟨hm'.2, ?_⟩
      have hnone := Option.some.inj hm'.1
      rw [hm'.2 _ hpath, Option.isSome_eq_false_iff, Option.isNone_iff_eq_none] at hnone
      exact hnone
  | true =>
      refine wp.bind (Disk.wp_look h.others hm'.2) ?_ (fun _ _ hs => hs) fun _ hs => hs
      intro raw m₁ hm₁
      rw [wp_bind, wp_liftExcept]
      refine ⟨fun state hstate => ⟨hm₁.2, raw, ?_, hstate⟩, fun _ _ => hm₁.2⟩
      have hraw := hm₁.1
      rw [Disk.content, hm₁.2 _ hpath] at hraw
      exact hraw

/-- The copy of the active envelope. -/
theorem wp_backUpEnvelope (h : Watched env stateDir T) (hm : Disk.Same T nodes m.nodes) :
    wp env (backUpEnvelope stateDir)
      ⟨fun _ m' => Util.Wrote T ((Disk.content nodes (intelligenceEnvelopePath stateDir)).map
          fun raw => (intelligenceLastKnownGoodPath stateDir, raw)).toList nodes m'.nodes,
        fun _ m' => Util.Partly T ((Disk.content nodes (intelligenceEnvelopePath stateDir)).map
          fun raw => (intelligenceLastKnownGoodPath stateDir, raw)).toList nodes m'.nodes,
        fun m' => Util.Partly T ((Disk.content nodes (intelligenceEnvelopePath stateDir)).map
          fun raw => (intelligenceLastKnownGoodPath stateDir, raw)).toList nodes m'.nodes⟩ m := by
  have hpath : T (intelligenceEnvelopePath stateDir) := h.entry ordinary_names.2.1
  unfold backUpEnvelope
  refine wp.bind (Disk.wp_look h.others hm) ?_ (fun _ _ hs => Util.partly_of_same hs _)
    fun _ hs => Util.partly_of_same hs _
  intro found m' hm'
  cases found with
  | false =>
      have hnone : Disk.content nodes (intelligenceEnvelopePath stateDir) = none := by
        have hlook := hm'.1
        rw [hm'.2 _ hpath] at hlook
        unfold Disk.content
        split at hlook
        · cases hlook
        · rfl
      rw [hnone]
      exact Util.wrote_nil.2 hm'.2
  | true =>
      refine wp.bind (Disk.wp_look h.others hm'.2) ?_ (fun _ _ hs => Util.partly_of_same hs _)
        fun _ hs => Util.partly_of_same hs _
      intro raw m₁ hm₁
      have hraw := hm₁.1
      rw [Disk.content, hm₁.2 _ hpath] at hraw
      change Disk.content nodes (intelligenceEnvelopePath stateDir) = some raw at hraw
      rw [hraw]
      exact Util.wp_write (h.tracked ordinary_names.2.2.2) 0o600 (Util.wrote_nil.2 hm₁.2)

/-- The replacements behind the copy. -/
theorem wp_publish (h : Watched env stateDir T) {catalog envelope state : Bytes}
    {writes : Util.Writes} (hm : Util.Wrote T writes nodes m.nodes)
    (hencodes : Encodes rt verified current catalog envelope state) :
    wp env (publish rt stateDir verified catalog envelope current)
      ⟨fun _ m' => Util.Wrote T ([(intelligenceStatePath stateDir, state),
          (intelligenceEnvelopePath stateDir, envelope),
          (intelligenceDocumentPath stateDir, catalog)] ++ writes) nodes m'.nodes,
        fun _ m' => Util.Partly T ([(intelligenceStatePath stateDir, state),
          (intelligenceEnvelopePath stateDir, envelope),
          (intelligenceDocumentPath stateDir, catalog)] ++ writes) nodes m'.nodes,
        fun m' => Util.Partly T ([(intelligenceStatePath stateDir, state),
          (intelligenceEnvelopePath stateDir, envelope),
          (intelligenceDocumentPath stateDir, catalog)] ++ writes) nodes m'.nodes⟩ m := by
  obtain ⟨data, hdata, rfl⟩ := hencodes.state
  have hone : ∀ {w : Util.Writes}, w <:+ w := List.suffix_refl _
  unfold publish
  refine wp.bind (Util.wp_write (h.tracked ordinary_names.1) 0o600 hm) ?_ ?_ ?_
  · intro _ m₁ hm₁
    refine wp.bind (Util.wp_write (h.tracked ordinary_names.2.1) 0o600 hm₁) ?_ ?_ ?_
    · intro _ m₂ hm₂
      unfold Util.atomicWriteJson
      rw [wp_bind, hdata, wp_liftExcept_ok, Post.withOk_ok]
      exact Util.wp_write (h.tracked ordinary_names.2.2.1) 0o600 hm₂
    · exact fun _ _ hp => hp.of_suffix (List.suffix_cons _ _)
    · exact fun _ hp => hp.of_suffix (List.suffix_cons _ _)
  · exact fun _ _ hp => hp.of_suffix ((List.suffix_cons _ _).trans (List.suffix_cons _ _))
  · exact fun _ hp => hp.of_suffix ((List.suffix_cons _ _).trans (List.suffix_cons _ _))

theorem wp_installEnvelope (h : Watched env stateDir T) (hm : Disk.Same T nodes m.nodes)
    {catalog envelope state : Bytes} (hencodes : Encodes rt verified current catalog envelope state) :
    wp env (installEnvelope rt stateDir verified catalog envelope current)
      ⟨fun outcome m' => Installed rt stateDir T nodes verified current outcome m'.nodes,
        fun _ m' => Disk.Same T nodes m'.nodes ∨
          Halfway rt stateDir T nodes verified current m'.nodes,
        fun m' => Disk.Same T nodes m'.nodes ∨
          Halfway rt stateDir T nodes verified current m'.nodes⟩ m := by
  unfold installEnvelope
  refine wp.bind (wp_loadIntelligenceState h hm) ?_ (fun _ _ hs => .inl hs) fun _ hs => .inl hs
  intro previous m₁ hm₁
  rw [wp_bind, wp_liftExcept]
  refine ⟨?_, fun _ _ => .inl hm₁.1⟩
  intro outcome hrule
  have hadmits : Admits rt stateDir nodes verified outcome := ⟨previous, hm₁.2, hrule⟩
  have hcut : ∀ {done : Util.Writes} {n : Disk.Nodes}, Util.Partly T done nodes n →
      done <:+ callWrites stateDir (Disk.content nodes (intelligenceEnvelopePath stateDir))
        catalog envelope state → Halfway rt stateDir T nodes verified current n :=
    fun hp hs => ⟨outcome, catalog, envelope, state, hadmits, hencodes, hp.of_suffix hs⟩
  rw [Post.withOk_ok]
  refine wp.bind (wp_backUpEnvelope h hm₁.1) ?_
    (fun _ _ hp => .inr (hcut hp (List.suffix_append _ _)))
    fun _ hp => .inr (hcut hp (List.suffix_append _ _))
  intro _ m₂ hm₂
  refine wp.bind (wp_publish h hm₂ hencodes) ?_
    (fun _ _ hp => .inr (hcut hp (List.suffix_refl _))) fun _ hp => .inr (hcut hp (List.suffix_refl _))
  intro _ m₃ hm₃
  exact ⟨catalog, envelope, state, hadmits, hencodes, hm₃⟩

/-- The envelope is verified with a keyring that the keyring file held during the call. -/
def VerifiedFrom (rt : Runtime) (crypto : Crypto) (lib : Library) (raw : Bytes)
    (current : DateTime) (verified : VerifiedEnvelope) : Prop :=
  ∃ members keyId source keyring, readIntelligenceEnvelope rt raw = .ok (members, keyId) ∧
    parseKeyring rt source = .ok keyring ∧
    verifyIntelligenceMembers rt crypto lib members keyId keyring current = .ok verified

theorem VerifiedFrom.valid {raw : Bytes} (h : VerifiedFrom rt crypto lib raw current verified) :
    verified.Valid rt crypto lib := by
  obtain ⟨members, keyId, source, keyring, hread, hsource, hverified⟩ := h
  exact valid_of_verifyIntelligenceMembers (identified_of_parseKeyring hsource) hread hverified

theorem wp_verifyIntelligenceEnvelope (h : Watched env stateDir T) (raw : Bytes)
    (keyringPath : Path) (hm : Disk.Same T nodes m.nodes) :
    wp env (verifyIntelligenceEnvelope rt crypto lib raw keyringPath current)
      ⟨fun verified m' => Disk.Same T nodes m'.nodes ∧
          VerifiedFrom rt crypto lib raw current verified,
        fun _ m' => Disk.Same T nodes m'.nodes, fun m' => Disk.Same T nodes m'.nodes⟩ m := by
  unfold verifyIntelligenceEnvelope
  rw [wp_bind, wp_liftExcept]
  refine ⟨?_, fun _ _ => hm⟩
  intro opened hread
  refine wp.bind (Feed.wp_loadKeyring h.others rt keyringPath hm) ?_ (fun _ _ hs => hs) fun _ hs => hs
  intro keyring m' hm'
  obtain ⟨hsame, source, hsource, -⟩ := hm'
  rw [wp_liftExcept]
  refine ⟨?_, fun _ _ => hsame⟩
  intro verified hverified
  exact ⟨hsame, opened.1, opened.2, source, keyring, hread, hsource, hverified⟩

theorem Installed.trans {outcome : Feed.InstallOutcome} {n n' : Disk.Nodes}
    (h : Installed rt stateDir T nodes verified current outcome n) (hs : Disk.Same T n n') :
    Installed rt stateDir T nodes verified current outcome n' := by
  obtain ⟨catalog, envelope, state, hadmits, hencodes, hwrote⟩ := h
  exact ⟨catalog, envelope, state, hadmits, hencodes, hwrote.trans hs⟩

theorem Installed.halfway {outcome : Feed.InstallOutcome} {n : Disk.Nodes}
    (h : Installed rt stateDir T nodes verified current outcome n) :
    Halfway rt stateDir T nodes verified current n := by
  obtain ⟨catalog, envelope, state, hadmits, hencodes, hwrote⟩ := h
  exact ⟨outcome, catalog, envelope, state, hadmits, hencodes, hwrote.partly⟩

theorem Halfway.trans {n n' : Disk.Nodes} (h : Halfway rt stateDir T nodes verified current n)
    (hs : Disk.Same T n n') : Halfway rt stateDir T nodes verified current n' := by
  obtain ⟨outcome, catalog, envelope, state, hadmits, hencodes, hpartly⟩ := h
  exact ⟨outcome, catalog, envelope, state, hadmits, hencodes, hpartly.trans hs⟩

theorem VerifiedEnvelope.Valid.encodes_state (h : verified.Valid rt crypto lib)
    (current : DateTime) {catalog envelope : Bytes}
    (hcatalog : Util.canonicalJsonBytes rt (field verified.payload "catalog") = .ok catalog)
    (henvelope : Util.encodeJson rt .pretty verified.document = .ok envelope) :
    ∃ state, Encodes rt verified current (catalog ++ [10]) (envelope ++ [10]) state := by
  obtain ⟨data, hdata⟩ := (writable_stateJson h current).encodeJson (σ := .pretty)
    (Text.encodable_str _)
  exact ⟨data ++ [10], ⟨catalog, hcatalog, rfl⟩, ⟨envelope, henvelope, rfl⟩, ⟨data, hdata, rfl⟩⟩

/-- What a call leaves behind: the files as they were, or the first replacements of an
admitted envelope. -/
theorem wp_installIntelligenceEnvelope (h : Watched env stateDir T) (raw : Bytes)
    (keyringPath : Path) (m : Disk.Machine) :
    wp env (installIntelligenceEnvelope rt crypto lib raw stateDir keyringPath current)
      ⟨fun r m' => VerifiedFrom rt crypto lib raw current r.2 ∧
          Installed rt stateDir T m.nodes r.2 current r.1 m'.nodes,
        fun _ m' => Disk.Same T m.nodes m'.nodes ∨ ∃ verified,
          VerifiedFrom rt crypto lib raw current verified ∧
            Halfway rt stateDir T m.nodes verified current m'.nodes,
        fun m' => Disk.Same T m.nodes m'.nodes ∨ ∃ verified,
          VerifiedFrom rt crypto lib raw current verified ∧
            Halfway rt stateDir T m.nodes verified current m'.nodes⟩ m := by
  unfold installIntelligenceEnvelope
  refine wp.bind (wp_verifyIntelligenceEnvelope h raw keyringPath (Disk.Same.refl T m.nodes)) ?_
    (fun _ _ hs => .inl hs) fun _ hs => .inl hs
  intro verified m₁ hm₁
  obtain ⟨hsame, hfrom⟩ := hm₁
  rw [wp_bind, wp_liftExcept]
  refine ⟨?_, fun _ _ => .inl hsame⟩
  intro catalog hcatalog
  rw [Post.withOk_ok, wp_bind, wp_liftExcept]
  refine ⟨?_, fun _ _ => .inl hsame⟩
  intro envelope henvelope
  obtain ⟨state, hencodes⟩ := hfrom.valid.encodes_state current hcatalog henvelope
  let ok (outcome : Feed.InstallOutcome) (n : Disk.Nodes) : Prop :=
    Installed rt stateDir T m.nodes verified current outcome n
  let partly (n : Disk.Nodes) : Prop :=
    Disk.Same T m.nodes n ∨ Halfway rt stateDir T m.nodes verified current n
  have hpartly : ∀ n n', Disk.Same T n n' → partly n → partly n' := by
    intro n n' hs hn
    rcases hn with hn | hn
    · exact .inl (hn.trans hs)
    · exact .inr (hn.trans hs)
  have hend : ∀ n, partly n → Disk.Same T m.nodes n ∨ ∃ verified,
      VerifiedFrom rt crypto lib raw current verified ∧
        Halfway rt stateDir T m.nodes verified current n := by
    intro n hn
    rcases hn with hn | hn
    · exact .inl hn
    · exact .inr ⟨verified, hfrom, hn⟩
  have hlocked : wp env (Util.updateLock (intelligenceLockPath stateDir)
      (installEnvelope rt stateDir verified (catalog ++ [10]) (envelope ++ [10]) current))
      ⟨fun outcome m' => ok outcome m'.nodes, fun _ m' => partly m'.nodes,
        fun m' => partly m'.nodes⟩ m₁ := by
    refine Util.wp_updateLock (Util.Quiet.locked_of h.others h.parent h.inside)
      (fun _ _ _ hs ho => Installed.trans ho hs) hpartly (fun n hs => .inl (hsame.trans hs))
      (fun _ _ ho => .inr ho.halfway) ?_
    intro m' hm'
    exact wp_installEnvelope h (hsame.trans hm') hencodes
  rw [Post.withOk_ok]
  refine wp.bind hlocked ?_ (fun _ m' hm' => hend _ hm') fun m' hm' => hend _ hm'
  intro outcome m' hm'
  exact ⟨hfrom, hm'⟩

end Writing

end Updates

end ZsecShield
