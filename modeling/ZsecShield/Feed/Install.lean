import ZsecShield.Feed.Accepted

/-!
# What an installation does to the store

`wp_installFeed`: a call of `install_feed` leaves the two files as they were, has replaced
the document, or has replaced both, and it has replaced anything only for a feed that was
verified and that the rollback rule admits.
-/

namespace ZsecShield.Feed

open Text (Str str)
open Effect
open Checks

/-! ## The rollback state on the disk -/

/-- What `_read_state` finds under a path. -/
def StateIn (rt : Runtime) (nodes : Disk.Nodes) (path : Path) : Option FeedState → Prop
  | none => nodes path = none
  | some state => ∃ raw, Disk.content nodes path = some raw ∧ raw.length ≤ maxStateBytes ∧
      parseState rt raw = .ok state

theorem StateIn.unique {rt : Runtime} {nodes : Disk.Nodes} {path : Path} {a b : Option FeedState}
    (ha : StateIn rt nodes path a) (hb : StateIn rt nodes path b) : a = b := by
  cases a with
  | none =>
      cases b with
      | none => rfl
      | some _ =>
          obtain ⟨raw, hraw, -⟩ := hb
          rw [StateIn] at ha
          rw [Disk.content, ha] at hraw
          cases hraw
  | some _ =>
      obtain ⟨raw, hraw, -, hparse⟩ := ha
      cases b with
      | none =>
          rw [StateIn] at hb
          rw [Disk.content, hb] at hraw
          cases hraw
      | some _ =>
          obtain ⟨raw', hraw', -, hparse'⟩ := hb
          rw [hraw] at hraw'
          cases hraw'
          rw [hparse] at hparse'
          cases hparse'
          rfl

theorem StateIn.of_eq {rt : Runtime} {nodes nodes' : Disk.Nodes} {path : Path}
    {state : Option FeedState} (h : StateIn rt nodes path state)
    (heq : nodes' path = nodes path) : StateIn rt nodes' path state := by
  cases state with
  | none => exact heq.trans h
  | some _ =>
      obtain ⟨raw, hraw, hsize, hparse⟩ := h
      refine ⟨raw, ?_, hsize, hparse⟩
      rw [← hraw, Disk.content, Disk.content, heq]

/-- A state as an installation writes it. -/
structure FeedState.Valid (state : FeedState) : Prop where
  sequence : 1 ≤ state.maxSequence ∧ state.maxSequence < 2 ^ 63
  digest : isSha256 state.currentPayloadSha256 = true
  bounded : Bounded state.keyId 3 128
  encodable : Text.Encodable state.keyId
  updatedAt : ∃ d, state.updatedAt = Util.formatUtc d

theorem encodable_formatUtc (d : DateTime) : Text.Encodable (Util.formatUtc d) := by
  intro c hc hs
  have hlow : 0xD800 ≤ c.val := hs.1
  simp only [Util.formatUtc, DateTime.isoSecond, DateTime.fourDigits, DateTime.twoDigits,
    List.cons_append, List.nil_append, List.mem_cons] at hc
  have hdigit : ∀ n, (DateTime.lastDigit n).val < 0xD800 := by
    intro n
    simp only [DateTime.lastDigit]
    omega
  rcases hc with rfl | rfl | rfl | rfl | rfl | rfl | rfl | rfl | rfl | rfl | rfl | rfl | rfl |
    rfl | rfl | rfl | rfl | rfl | rfl | hc
  all_goals first
    | exact absurd hlow (Nat.not_le_of_lt (hdigit _))
    | exact absurd hlow (by decide)
    | skip
  rw [List.mem_singleton.1 hc] at hlow
  exact absurd hlow (by decide)

/-- The members of the written dictionary. -/
def FeedState.members (state : FeedState) : List (Str × Json) :=
  [(str "schema", .str stateSchema), (str "max_sequence", .int state.maxSequence),
    (str "current_payload_sha256", .str state.currentPayloadSha256),
    (str "key_id", .str state.keyId), (str "updated_at", .str state.updatedAt)]

theorem FeedState.nodup_members (state : FeedState) :
    (state.members.map Prod.fst).Nodup := by
  change stateFields.Nodup
  decide

namespace FeedState.Valid

variable {state : FeedState}

theorem writable (h : state.Valid) (rt : Runtime) : Util.Writable rt state.toJson := by
  obtain ⟨d, hd⟩ := h.updatedAt
  have hflat : Flat rt 1 state.toJson := by
    refine flat_obj state.nodup_members ?_
    simp only [FeedState.members, List.forall_mem_cons]
    exact ⟨flat_str rt 0 _, flat_int rt 0 (by have := h.sequence; omega), flat_str rt 0 _,
      flat_str rt 0 _, flat_str rt 0 _, by simp⟩
  refine ⟨hflat.1, hflat.2.trans (by omega), .obj _ ?_ ?_⟩
  · simp only [List.forall_mem_cons, Text.encodable_str, true_and]
    simp
  · simp only [List.forall_mem_cons]
    exact ⟨.str _ (Text.encodable_str _), .int _, .str _ (encodable_of_isSha256 h.digest),
      .str _ h.encodable, .str _ (hd ▸ encodable_formatUtc d), by simp⟩

/-- The state is read back from its own dictionary. -/
theorem checkState_toJson (h : state.Valid) : checkState state.toJson.sortKeys = .ok state := by
  obtain ⟨d, hd⟩ := h.updatedAt
  have hfield := field_sortKeys state.nodup_members
  have hkeys : Json.keysAre state.members stateFields = true := Json.keysAre_self state.members
  have hschema : field state.members "schema" = .str stateSchema := rfl
  have hsequence : field state.members "max_sequence" = .int state.maxSequence := rfl
  have hdigest : field state.members "current_payload_sha256" =
    .str state.currentPayloadSha256 := rfl
  have hkey : field state.members "key_id" = .str state.keyId := rfl
  have hupdated : field state.members "updated_at" = .str state.updatedAt := rfl
  have htime : ∀ name, timestamp (.str state.updatedAt) name = .ok d.wholeSecond := by
    intro name
    rw [hd]
    exact timestamp_formatUtc d name
  simp only [checkState, bind_eq_ok, fromOption_eq_ok, require_eq_ok, expectExactKeys_eq_ok,
    boundedString_eq_ok]
  refine ⟨Json.sortMembers (Json.sortValues state.members), rfl, (), ?_, (), ?_,
    state.maxSequence, ?_, (), h.sequence.1, state.currentPayloadSha256, ?_, (), h.digest,
    state.keyId, ⟨?_, h.bounded⟩, d.wholeSecond, ?_, ?_⟩
  · rw [Json.keysAre_sortMembers]
    exact hkeys
  · rw [hfield, hschema]
    exact isText_iff.2 rfl
  · rw [hfield, hsequence]
    rfl
  · rw [hfield, hdigest]
    rfl
  · rw [hfield, hkey]
    rfl
  · rw [hfield, hupdated]
    exact htime _
  · rw [hfield, hupdated]
    rfl

/-- The written state is far below the limit of the reader. -/
theorem length_le (h : state.Valid) {rt : Runtime} {data : Bytes}
    (hdata : Util.encodeJson rt .pretty state.toJson = .ok data) :
    data.length + 1 ≤ maxStateBytes := by
  have hlen := Text.length_encodeUtf8 (Util.encodeJson_eq_ok hdata)
  rw [Json.text, Json.utf8Size_sortKeys] at hlen
  change _ = Text.utf8Size (Json.layout .pretty 0 (.obj state.members)) at hlen
  rw [Json.utf8Size_obj] at hlen
  have hmember : ∀ m ∈ state.members, Text.utf8Size (Json.layoutMember .pretty 1 m) ≤ 8000 := by
    intro m hm
    have hkey : m.1.length ≤ 22 := by
      have hmem : m.1 ∈ stateFields := List.mem_map_of_mem hm
      simp only [stateFields, List.mem_cons, List.not_mem_nil, or_false] at hmem
      rcases hmem with heq | heq | heq | heq | heq <;> rw [heq] <;> decide
    have hquote := Json.utf8Size_quote_le .pretty m.1
    have hsep : Text.utf8Size Json.Style.pretty.keySeparator = 2 := rfl
    have hvalue : Text.utf8Size (Json.layout .pretty 1 m.2) ≤ 6200 := by
      have hstr : ∀ t : Str, t.length ≤ 128 →
          Text.utf8Size (Json.layout .pretty 1 (.str t)) ≤ 6200 := by
        intro t ht
        have := Json.utf8Size_quote_le .pretty t
        rw [Json.layout]
        omega
      simp only [FeedState.members, List.mem_cons, List.not_mem_nil, or_false] at hm
      rcases hm with rfl | rfl | rfl | rfl | rfl
      · exact hstr _ (by decide)
      · have hdigits := (Text.length_digits_le_iff (n := state.maxSequence.natAbs) (k := 20)
          (by omega)).2 (by have := h.sequence; omega)
        have hint := Text.utf8Size_le (Text.intText state.maxSequence)
        have hneg : ¬ state.maxSequence < 0 := by have := h.sequence; omega
        rw [Text.intText, if_neg hneg] at hint
        rw [Json.layout, Text.intText, if_neg hneg]
        omega
      · have hdigest := h.digest
        simp only [isSha256, Bool.and_eq_true, decide_eq_true_eq] at hdigest
        exact hstr _ (by omega)
      · exact hstr _ h.bounded.1.2
      · obtain ⟨d, hd⟩ := h.updatedAt
        have := (bounded_formatUtc d).1.2
        exact hstr _ (by rw [hd]; omega)
    simp only [Json.layoutMember, Text.utf8Size_append, hsep]
    omega
  simp only [FeedState.members, List.forall_mem_cons] at hmember
  obtain ⟨h1, h2, h3, h4, h5, -⟩ := hmember
  simp only [FeedState.members, List.map_cons, List.map_nil, Json.blockSize, Json.itemsSize,
    List.sum_cons, List.sum_nil, List.cons_ne_nil, ↓reduceIte, Json.breakSize, Json.Style.pretty,
    Nat.zero_add] at hlen
  simp only [Json.Style.pretty] at h1 h2 h3 h4 h5
  unfold maxStateBytes
  omega

/-- The file of a written state holds that state. -/
theorem stateIn (h : state.Valid) {rt : Runtime} {data : Bytes}
    (hdata : Util.encodeJson rt .pretty state.toJson = .ok data) {nodes : Disk.Nodes} {path : Path}
    (hcontent : Disk.content nodes path = some (data ++ [10])) :
    StateIn rt nodes path (some state) := by
  refine ⟨_, hcontent, ?_, ?_⟩
  · have := h.length_le hdata
    rw [List.length_append, List.length_singleton]
    omega
  · have hread := (h.writable rt).strictJsonLoads Json.separates_pretty rfl hdata (.inr rfl)
    rw [parseState, hread]
    exact h.checkState_toJson

end FeedState.Valid

/-- What an installation commits is valid. -/
theorem valid_commits {rt : Runtime} {crypto : Crypto} {raw : Bytes} {keyring : Keyring}
    {current : DateTime} {verified : VerifiedFeed} (hkeyring : Identified keyring)
    (h : verifyFeedDocument rt crypto raw keyring current = .ok verified) (now : DateTime) :
    (FeedState.commits verified now).Valid := by
  obtain ⟨_, -, hparsed⟩ := bind_eq_ok.1 h
  obtain ⟨root, -, hroot⟩ := bind_eq_ok.1 hparsed
  obtain ⟨members, rfl, keyId, payload, canonical, hsignature, sequence, generatedAt, expiresAt,
    rules, hpayload, rfl⟩ := verifyRoot_eq_ok.1 hroot
  obtain ⟨-, -, ⟨-, hbounded⟩, -, -, trusted, htrusted, -⟩ := verifySignature_eq_ok.1 hsignature
  refine ⟨?_, isSha256_hexdigest crypto canonical, hbounded,
    encodable_of_isRuleId (hkeyring keyId (mem_of_trustedKey htrusted)), now, rfl⟩
  have hsequence := sequenceOf_of_verifyPayload hpayload
  simp only [sequenceOf, bind_eq_ok, accept_eq_ok] at hsequence
  obtain ⟨_, -, hrange, rfl⟩ := hsequence
  exact hrange

/-! ## Reading -/

section Reading

variable {env : Util.Os} {T : Path → Prop} {nodes : Disk.Nodes} {m : Disk.Machine}

/-- `load_keyring` returns a keyring that the file holds. -/
theorem wp_loadKeyring (hothers : ∀ t n, Disk.Same T n (env.others t n)) (rt : Runtime)
    (path : Path) (hm : Disk.Same T nodes m.nodes) :
    wp env (loadKeyring rt path)
      ⟨fun keyring m' => Disk.Same T nodes m'.nodes ∧ ∃ raw, parseKeyring rt raw = .ok keyring ∧
          (T path → Disk.content nodes path = some raw ∧ raw.length ≤ maxKeyringBytes),
        fun _ m' => Disk.Same T nodes m'.nodes, fun m' => Disk.Same T nodes m'.nodes⟩ m := by
  have hcontent : ∀ m' : Disk.Machine, T path → Disk.Same T nodes m'.nodes →
      Disk.content m'.nodes path = Disk.content nodes path := by
    intro m' hpath hsame
    rw [Disk.content, Disk.content, hsame path hpath]
  unfold loadKeyring
  refine wp.bind (R := ⟨fun raw m' => Disk.Same T nodes m'.nodes ∧
      (T path → Disk.content nodes path = some raw ∧ raw.length ≤ maxKeyringBytes),
    fun _ m' => Disk.Same T nodes m'.nodes, fun m' => Disk.Same T nodes m'.nodes⟩) ?_ ?_
    (fun _ _ hs => hs) fun _ hs => hs
  · rw [wp_tryExcept]
    refine wp.bind (Disk.wp_look hothers hm) ?_ ?_ fun _ hs => hs
    · intro size m' hm'
      rw [wp_bind, wp_liftExcept]
      refine ⟨?_, fun _ _ => ⟨fun _ => hm'.2, fun _ => hm'.2⟩⟩
      intro _ hsize
      rw [require_eq_ok] at hsize
      refine (Disk.wp_look hothers hm'.2).mono ⟨?_, ?_, fun _ hs => hs⟩
      · intro raw m'' hm''
        refine ⟨hm''.2, fun hpath => ?_⟩
        have hraw : Disk.content nodes path = some raw := by
          rw [← hcontent m'' hpath hm''.2]
          exact hm''.1
        refine ⟨hraw, ?_⟩
        have hlen : (Disk.content m'.nodes path).map List.length = some size := hm'.1
        rw [hcontent m' hpath hm'.2, hraw] at hlen
        cases hlen
        exact hsize
      · intro e m'' hm''
        exact ⟨fun _ => hm'', fun _ => hm''⟩
    · intro e m' hm'
      exact ⟨fun _ => hm', fun _ => hm'⟩
  · intro raw m' hm'
    rw [wp_liftExcept]
    exact ⟨fun keyring hkeyring => ⟨hm'.1, raw, hkeyring, hm'.2⟩, fun _ _ => hm'.1⟩

/-- `_read_state` returns what is under the path. -/
theorem wp_readState (hothers : ∀ t n, Disk.Same T n (env.others t n)) (rt : Runtime) {path : Path}
    (hpath : T path) (hm : Disk.Same T nodes m.nodes) :
    wp env (readState rt path)
      ⟨fun state m' => Disk.Same T nodes m'.nodes ∧ StateIn rt nodes path state,
        fun _ m' => Disk.Same T nodes m'.nodes, fun m' => Disk.Same T nodes m'.nodes⟩ m := by
  have hcontent : ∀ m' : Disk.Machine, Disk.Same T nodes m'.nodes →
      Disk.content m'.nodes path = Disk.content nodes path := by
    intro m' hsame
    rw [Disk.content, Disk.content, hsame path hpath]
  unfold readState
  refine wp.bind (Disk.wp_look hothers hm) ?_ (fun _ _ hs => hs) fun _ hs => hs
  intro found m' hm'
  cases found with
  | false =>
      refine ⟨hm'.2, ?_⟩
      have hnone := Option.some.inj hm'.1
      rw [hm'.2 path hpath, Option.isSome_eq_false_iff, Option.isNone_iff_eq_none] at hnone
      exact hnone
  | true =>
      refine wp.bind (R := ⟨fun value m' => Disk.Same T nodes m'.nodes ∧ ∃ raw,
          Disk.content nodes path = some raw ∧ raw.length ≤ maxStateBytes ∧
            Util.strictJsonLoads rt raw = .ok value,
        fun _ m' => Disk.Same T nodes m'.nodes, fun m' => Disk.Same T nodes m'.nodes⟩) ?_ ?_
        (fun _ _ hs => hs) fun _ hs => hs
      · rw [wp_tryExcept]
        refine wp.bind (Disk.wp_look hothers hm'.2) ?_ ?_ fun _ hs => hs
        · intro size m₁ hm₁
          rw [wp_bind, wp_liftExcept]
          refine ⟨?_, fun _ _ => ⟨fun _ => hm₁.2, fun _ => hm₁.2⟩⟩
          intro _ hsize
          rw [require_eq_ok] at hsize
          refine wp.bind (Disk.wp_look hothers hm₁.2) ?_ ?_ fun _ hs => hs
          · intro raw m₂ hm₂
            rw [wp_liftExcept]
            refine ⟨?_, fun _ _ => ⟨fun _ => hm₂.2, fun _ => hm₂.2⟩⟩
            intro value hvalue
            have hraw : Disk.content nodes path = some raw := by
              rw [← hcontent m₂ hm₂.2]
              exact hm₂.1
            refine ⟨hm₂.2, raw, hraw, ?_, hvalue⟩
            have hlen : (Disk.content m₁.nodes path).map List.length = some size := hm₁.1
            rw [hcontent m₁ hm₁.2, hraw] at hlen
            cases hlen
            exact hsize
          · intro e m₂ hm₂
            exact ⟨fun _ => hm₂, fun _ => hm₂⟩
        · intro e m₁ hm₁
          exact ⟨fun _ => hm₁, fun _ => hm₁⟩
      · intro value m₁ hm₁
        obtain ⟨hsame, raw, hraw, hsize, hvalue⟩ := hm₁
        rw [wp_bind, wp_liftExcept]
        refine ⟨?_, fun _ _ => hsame⟩
        intro state hstate
        refine ⟨hsame, raw, hraw, hsize, ?_⟩
        rw [parseState, hvalue]
        exact hstate

end Reading

/-! ## Writing -/

def feedDirectory (stateDir : Path) : Path := Disk.join stateDir (str "feed")

/-- A set of paths that holds the two files, that other processes leave alone and that an
installation uses for nothing else. -/
structure Watched (env : Util.Os) (stateDir : Path) (T : Path → Prop) : Prop where
  document : T (feedDocumentPath stateDir)
  state : T (feedStatePath stateDir)
  lock : Util.Locked env (feedLockPath stateDir) T
  trackedDocument : Util.Tracked env (feedDocumentPath stateDir) T
  trackedState : Util.Tracked env (feedStatePath stateDir) T

section Writing

variable {rt : Runtime} {crypto : Crypto} {env : Util.Os} {stateDir : Path} {T : Path → Prop}
  {nodes : Disk.Nodes} {verified : VerifiedFeed} {current : DateTime}

/-- The rollback rule admits the feed, and these are the bytes to store. -/
structure Admits (rt : Runtime) (stateDir : Path) (nodes : Disk.Nodes) (verified : VerifiedFeed)
    (current : DateTime) (outcome : InstallOutcome) (document state : Bytes) : Prop where
  rule : ∃ previous, StateIn rt nodes (feedStatePath stateDir) previous ∧
    rollbackRule verified previous = .ok outcome
  document : Util.encodeJson rt .pretty verified.document = .ok document
  state : Util.encodeJson rt .pretty (FeedState.commits verified current).toJson = .ok state

/-- Both files hold the feed. -/
def Installed (rt : Runtime) (stateDir : Path) (T : Path → Prop) (nodes : Disk.Nodes)
    (verified : VerifiedFeed) (current : DateTime) (outcome : InstallOutcome)
    (m : Disk.Machine) : Prop :=
  ∃ document state, Admits rt stateDir nodes verified current outcome document state ∧
    ∃ m', Util.Replaced T (feedDocumentPath stateDir) (document ++ [10]) nodes m' ∧
      Util.Replaced T (feedStatePath stateDir) (state ++ [10]) m'.nodes m

/-- The document is replaced and the state is not. -/
def Halfway (rt : Runtime) (stateDir : Path) (T : Path → Prop) (nodes : Disk.Nodes)
    (verified : VerifiedFeed) (m : Disk.Machine) : Prop :=
  ∃ previous outcome document, StateIn rt nodes (feedStatePath stateDir) previous ∧
    rollbackRule verified previous = .ok outcome ∧
    Util.encodeJson rt .pretty verified.document = .ok document ∧
    Util.Replaced T (feedDocumentPath stateDir) (document ++ [10]) nodes m

/-- An installation that may have been cut. -/
def Partly (rt : Runtime) (stateDir : Path) (T : Path → Prop) (nodes : Disk.Nodes)
    (verified : VerifiedFeed) (current : DateTime) (m : Disk.Machine) : Prop :=
  Util.Before T nodes m ∨ Halfway rt stateDir T nodes verified m ∨
    ∃ outcome, Installed rt stateDir T nodes verified current outcome m

theorem Installed.trans {outcome : InstallOutcome} {m m' : Disk.Machine}
    (h : Installed rt stateDir T nodes verified current outcome m)
    (hs : Disk.Same T m.nodes m'.nodes) :
    Installed rt stateDir T nodes verified current outcome m' := by
  obtain ⟨document, state, hadmits, mid, hdocument, hstate⟩ := h
  exact ⟨document, state, hadmits, mid, hdocument, hstate.trans hs⟩

theorem Partly.trans {m m' : Disk.Machine} (h : Partly rt stateDir T nodes verified current m)
    (hs : Disk.Same T m.nodes m'.nodes) : Partly rt stateDir T nodes verified current m' := by
  rcases h with h | ⟨previous, outcome, document, hstate, hrule, hdocument, h⟩ | ⟨outcome, h⟩
  · exact .inl (h.trans hs)
  · exact .inr (.inl ⟨previous, outcome, document, hstate, hrule, hdocument, h.trans hs⟩)
  · exact .inr (.inr ⟨outcome, h.trans hs⟩)

theorem wp_installVerified (h : Watched env stateDir T) {m : Disk.Machine}
    (hm : Disk.Same T nodes m.nodes) :
    wp env (installVerified rt stateDir verified current)
      ⟨fun outcome => Installed rt stateDir T nodes verified current outcome,
        fun _ => Partly rt stateDir T nodes verified current,
        Partly rt stateDir T nodes verified current⟩ m := by
  unfold installVerified
  refine wp.bind (wp_readState h.lock.others rt h.state hm) ?_ (fun _ _ hs => .inl hs)
    fun _ hs => .inl hs
  intro previous m₁ hm₁
  rw [wp_bind, wp_liftExcept]
  refine ⟨?_, fun _ _ => .inl hm₁.1⟩
  intro outcome hrule
  rw [Post.withOk_ok, wp_bind, wp_liftExcept]
  refine ⟨?_, fun _ _ => .inl hm₁.1⟩
  intro document hdocument
  have hhalf : ∀ {m' : Disk.Machine},
      Util.Replaced T (feedDocumentPath stateDir) (document ++ [10]) m₁.nodes m' →
        Halfway rt stateDir T nodes verified m' := by
    intro m' hm'
    exact ⟨previous, outcome, document, hm₁.2, hrule, hdocument, hm'.of_before hm₁.1⟩
  have hpartly : ∀ {m' : Disk.Machine}, Util.Before T m₁.nodes m' ∨
      Util.Replaced T (feedDocumentPath stateDir) (document ++ [10]) m₁.nodes m' →
        Partly rt stateDir T nodes verified current m' := by
    intro m' hm'
    rcases hm' with hm' | hm'
    · exact .inl (Util.Before.trans hm₁.1 hm')
    · exact .inr (.inl (hhalf hm'))
  rw [Post.withOk_ok]
  refine wp.bind (Util.wp_atomicWriteBytes h.trackedDocument _ _ m₁) ?_ (fun _ _ => hpartly)
    fun _ => hpartly
  intro _ m₂ hm₂
  unfold Util.atomicWriteJson
  rw [wp_bind, wp_bind, wp_liftExcept]
  refine ⟨?_, fun _ _ => .inr (.inl (hhalf hm₂))⟩
  intro state hstate
  have hinstalled : ∀ {m' : Disk.Machine},
      Util.Replaced T (feedStatePath stateDir) (state ++ [10]) m₂.nodes m' →
        Installed rt stateDir T nodes verified current outcome m' := by
    intro m' hm'
    exact ⟨document, state, ⟨⟨previous, hm₁.2, hrule⟩, hdocument, hstate⟩, m₂,
      hm₂.of_before hm₁.1, hm'⟩
  have hlast : ∀ {m' : Disk.Machine}, Util.Before T m₂.nodes m' ∨
      Util.Replaced T (feedStatePath stateDir) (state ++ [10]) m₂.nodes m' →
        Partly rt stateDir T nodes verified current m' := by
    intro m' hm'
    rcases hm' with hm' | hm'
    · exact .inr (.inl (hhalf (hm₂.trans hm')))
    · exact .inr (.inr ⟨outcome, hinstalled hm'⟩)
  exact (Util.wp_atomicWriteBytes h.trackedState _ _ m₂).mono
    ⟨fun _ _ => hinstalled, fun _ _ => hlast, fun _ => hlast⟩

/-- The feed is verified with a keyring that the keyring file held during the call; if other
processes leave the file alone (`K`), it is the file there was before. -/
def VerifiedFrom (rt : Runtime) (crypto : Crypto) (raw : Bytes) (keyringPath : Path)
    (current : DateTime) (K : Path → Prop) (nodes : Disk.Nodes) (verified : VerifiedFeed) : Prop :=
  ∃ source keyring, parseKeyring rt source = .ok keyring ∧
    (K keyringPath → Disk.content nodes keyringPath = some source ∧
      source.length ≤ maxKeyringBytes) ∧
    verifyFeedDocument rt crypto raw keyring current = .ok verified

/-- A call of `install_feed`: it may be cut anywhere. -/
theorem wp_installFeed (h : Watched env stateDir T) {K : Path → Prop}
    (hK : ∀ t n, Disk.Same K n (env.others t n)) (raw : Bytes) (keyringPath : Path)
    (m : Disk.Machine) :
    wp env (installFeed rt crypto raw stateDir keyringPath current)
      ⟨fun r m' => VerifiedFrom rt crypto raw keyringPath current K m.nodes r.2 ∧
          Installed rt stateDir T m.nodes r.2 current r.1 m',
        fun _ m' => Util.Before T m.nodes m' ∨ ∃ verified,
          VerifiedFrom rt crypto raw keyringPath current K m.nodes verified ∧
            Partly rt stateDir T m.nodes verified current m',
        fun m' => Util.Before T m.nodes m' ∨ ∃ verified,
          VerifiedFrom rt crypto raw keyringPath current K m.nodes verified ∧
            Partly rt stateDir T m.nodes verified current m'⟩ m := by
  have hboth : ∀ t n, Disk.Same (fun p => T p ∨ K p) n (env.others t n) := by
    intro t n p hp
    rcases hp with hp | hp
    · exact h.lock.others t n p hp
    · exact hK t n p hp
  have hstored : ∀ {m' : Disk.Machine}, Disk.Same (fun p => T p ∨ K p) m.nodes m'.nodes →
      Disk.Same T m.nodes m'.nodes := fun hs p hp => hs p (.inl hp)
  unfold installFeed
  refine wp.bind (wp_loadKeyring hboth rt keyringPath (Disk.Same.refl _ m.nodes)) ?_
    (fun _ _ hs => .inl (hstored hs)) fun _ hs => .inl (hstored hs)
  intro keyring m₁ hm₁
  obtain ⟨hread, source, hsource, hcontent⟩ := hm₁
  have hsame := hstored hread
  rw [wp_bind, wp_liftExcept]
  refine ⟨?_, fun _ _ => .inl hsame⟩
  intro verified hverified
  have hfrom : VerifiedFrom rt crypto raw keyringPath current K m.nodes verified :=
    ⟨source, keyring, hsource, fun hkept => hcontent (.inr hkept), hverified⟩
  let ok (outcome : InstallOutcome) (n : Disk.Nodes) : Prop :=
    Installed rt stateDir T m.nodes verified current outcome ⟨n, 0⟩
  let partly (n : Disk.Nodes) : Prop := Partly rt stateDir T m.nodes verified current ⟨n, 0⟩
  have hlocked : wp env (Util.updateLock (feedLockPath stateDir)
      (installVerified rt stateDir verified current))
      ⟨fun outcome m' => ok outcome m'.nodes, fun _ m' => partly m'.nodes,
        fun m' => partly m'.nodes⟩ m₁ := by
    refine Util.wp_updateLock h.lock (fun _ _ _ hs ho => Installed.trans ho hs)
      (fun _ _ hs ho => Partly.trans ho hs) (fun n hs => .inl (hsame.trans hs))
      (fun outcome _ ho => .inr (.inr ⟨outcome, ho⟩)) ?_
    intro m' hm'
    exact wp_installVerified h (hsame.trans hm')
  rw [Post.withOk_ok]
  refine wp.bind hlocked ?_ ?_ ?_
  · intro outcome m' hm'
    exact ⟨hfrom, hm'⟩
  · intro e m' hm'
    exact .inr ⟨verified, hfrom, hm'⟩
  · intro m' hm'
    exact .inr ⟨verified, hfrom, hm'⟩

end Writing

end ZsecShield.Feed
