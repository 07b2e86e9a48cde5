import ZsecShield.Updates.Converge

/-!
# What a sequence number stands for

The rollback state keeps the sequence and the digest of the catalog.  So two envelopes that
are accepted with one sequence have the same catalog, while their validity windows and the
spelling of their policies are not compared: `sequence_names_payload` holds of runs in which
these are not changed, and `sequence_reused` is a run with another expiry.
-/

namespace ZsecShield.Updates

open Text (Str str)
open Effect
open Checks
open Feed (field isText_iff)
open Intelligence (Members Library)

/-- What a call has accepted. -/
def acceptedBy : Exit PyError (Feed.InstallOutcome × VerifiedEnvelope) → List VerifiedEnvelope
  | .ok (_, verified) => [verified]
  | _ => []

theorem eq_of_mem_acceptedBy {exit : Exit PyError (Feed.InstallOutcome × VerifiedEnvelope)}
    {a b : VerifiedEnvelope} (ha : a ∈ acceptedBy exit) (hb : b ∈ acceptedBy exit) : a = b := by
  cases exit with
  | ok r => exact (List.mem_singleton.1 ha).trans (List.mem_singleton.1 hb).symm
  | raised _ => cases ha
  | halted => cases ha

/-- A run of calls with any bytes at any time, each of which may end in any way, and the
envelopes it has accepted.  Every call satisfies `C`, which is about what was accepted
before, the disk, the bytes and the time. -/
inductive Run (rt : Runtime) (crypto : Crypto) (lib : Library) (stateDir : Path)
    (C : List VerifiedEnvelope → Disk.Nodes → Bytes → DateTime → Prop) (start : Disk.Nodes) :
    List VerifiedEnvelope → Disk.Nodes → Prop
  | start : Run rt crypto lib stateDir C start [] start
  | call {accepted : List VerifiedEnvelope} {m : Disk.Machine}
      (run : Run rt crypto lib stateDir C start accepted m.nodes) (env : Util.Os) (raw : Bytes)
      (keyringPath : Path) (current : DateTime)
      (hquiet : Util.Quiet env (intelligenceDirectory stateDir))
      (hcall : C accepted m.nodes raw current) :
      Run rt crypto lib stateDir C start
        (accepted ++ acceptedBy
          (installIntelligenceEnvelope rt crypto lib raw stateDir keyringPath current env m).1)
        (installIntelligenceEnvelope rt crypto lib raw stateDir keyringPath current env m).2.nodes

/-- The payloads state the same validity window and the same policy. -/
structure SameTerms (p q : Members) : Prop where
  generatedAt : field p "generated_at" = field q "generated_at"
  expiresAt : field p "expires_at" = field q "expires_at"
  policy : Json.text .canonical (field p "policy") = Json.text .canonical (field q "policy")

/-- An envelope that repeats the committed sequence and its catalog repeats the terms of the
envelopes that were accepted with that sequence. -/
def RepeatsTerms (rt : Runtime) (crypto : Crypto) (lib : Library) (stateDir : Path)
    (accepted : List VerifiedEnvelope) (nodes : Disk.Nodes) (raw : Bytes) (current : DateTime) :
    Prop :=
  ∀ verified, VerifiedFrom rt crypto lib raw current verified →
    Committed rt stateDir nodes (some (IntelligenceState.commits verified)) →
    ∀ a ∈ accepted, a.sequence = verified.sequence → SameTerms a.payload verified.payload

section Payloads

variable {rt : Runtime} {crypto : Crypto} {lib : Library} {p q : Members} {sequence : Int}
  {digest : Str}

/-- The text of a canonical value is read off its bytes. -/
theorem text_of_canonicalJsonBytes {a b : Json} {data : Bytes}
    (ha : Util.canonicalJsonBytes rt a = .ok data) (hb : Util.canonicalJsonBytes rt b = .ok data) :
    Json.text .canonical a = Json.text .canonical b :=
  Text.encodeUtf8_injective (Util.encodeJson_eq_ok ha) (Util.encodeJson_eq_ok hb)

/-- Payloads with one sequence, one catalog and the same terms have the same text. -/
theorem text_payload (hp : AcceptedPayload rt crypto lib p sequence digest)
    (hq : AcceptedPayload rt crypto lib q sequence digest) (hdp : (p.map Prod.fst).Nodup)
    (hdq : (q.map Prod.fst).Nodup)
    (hcatalog : Json.text .canonical (field p "catalog") = Json.text .canonical (field q "catalog"))
    (hterms : SameTerms p q) :
    Json.text .canonical (.obj p) = Json.text .canonical (.obj q) := by
  have hsame : ∀ {name : String}, field p name = field q name →
      Json.text .canonical (field p name) = Json.text .canonical (field q name) := congrArg _
  refine Json.text_obj_congr rfl hp.keys hq.keys hdp hdq fun k hk => ?_
  simp only [intelligencePayloadFields, List.mem_cons, List.not_mem_nil, or_false] at hk
  rcases hk with rfl | rfl | rfl | rfl | rfl | rfl | rfl
  · exact hsame (hp.schema.trans hq.schema.symm)
  · exact hsame (hp.sequenceField.trans hq.sequenceField.symm)
  · exact hsame hterms.generatedAt
  · exact hsame hterms.expiresAt
  · exact hsame (hp.digestField.trans hq.digestField.symm)
  · exact hcatalog
  · exact hterms.policy

end Payloads

section Runs

variable {rt : Runtime} {crypto : Crypto} {lib : Library} {stateDir : Path}
  {C : List VerifiedEnvelope → Disk.Nodes → Bytes → DateTime → Prop} {start nodes : Disk.Nodes}
  {accepted : List VerifiedEnvelope}

/-- What a call accepts was admitted by the rollback rule and is committed. -/
theorem committed_of_acceptedBy {env : Util.Os} {raw : Bytes} {keyringPath : Path}
    {current : DateTime} {m : Disk.Machine} {verified : VerifiedEnvelope}
    (hquiet : Util.Quiet env (intelligenceDirectory stateDir))
    (h : verified ∈ acceptedBy
      (installIntelligenceEnvelope rt crypto lib raw stateDir keyringPath current env m).1) :
    VerifiedFrom rt crypto lib raw current verified ∧
      (∃ outcome, Admits rt stateDir m.nodes verified outcome) ∧
      Committed rt stateDir
        (installIntelligenceEnvelope rt crypto lib raw stateDir keyringPath current env m).2.nodes
        (some (IntelligenceState.commits verified)) := by
  have hwatched := watched_entries hquiet
  cases hcall : installIntelligenceEnvelope rt crypto lib raw stateDir keyringPath current env m with
  | mk exit m' =>
      rw [hcall] at h
      cases exit with
      | raised e => cases h
      | halted => cases h
      | ok r =>
          obtain ⟨outcome, v⟩ := r
          rw [acceptedBy, List.mem_singleton] at h
          subst h
          obtain ⟨hfrom, hinstalled⟩ :=
            (wp_installIntelligenceEnvelope hwatched raw keyringPath m).of_ok hcall
          have hnames := hinstalled.namesCatalog hfrom.valid fun name hname =>
            hwatched.entry (ordinary_storeNames name hname)
          obtain ⟨_, _, _, hadmits, -⟩ := hinstalled
          exact ⟨hfrom, ⟨outcome, hadmits⟩, hnames.state⟩

/-- What was accepted is followed by what is committed. -/
theorem Run.follows (h : Run rt crypto lib stateDir C start accepted nodes) :
    ∀ a ∈ accepted, a.Valid rt crypto lib ∧
      ∃ state, Committed rt stateDir nodes (some state) ∧
        Follows (IntelligenceState.commits a) state := by
  induction h with
  | start => exact fun _ ha => nomatch ha
  | @call accepted m run env raw keyringPath current hquiet hcall ih =>
      intro a ha
      rcases List.mem_append.1 ha with ha | ha
      · obtain ⟨hvalid, state, hstate, hfollows⟩ := ih a ha
        have hstep : Step rt crypto lib stateDir m.nodes _ :=
          .install env raw keyringPath current m hquiet
        obtain ⟨_, hcommitted, hsucceeds⟩ := hstep.committed hstate
        obtain ⟨state', rfl, hfollows'⟩ := hsucceeds state rfl
        exact ⟨hvalid, state', hcommitted, hfollows.trans hfollows'⟩
      · obtain ⟨hfrom, -, hcommitted⟩ := committed_of_acceptedBy hquiet ha
        exact ⟨hfrom.valid, _, hcommitted, Follows.refl _⟩

/-- The digest tells the accepted catalogs apart. -/
def TellsApart (rt : Runtime) (crypto : Crypto) (accepted : List VerifiedEnvelope) : Prop :=
  ∀ a ∈ accepted, ∀ b ∈ accepted, ∀ data data',
    Util.canonicalJsonBytes rt (field a.payload "catalog") = .ok data →
    Util.canonicalJsonBytes rt (field b.payload "catalog") = .ok data' →
    crypto.hexdigest (data ++ [10]) = crypto.hexdigest (data' ++ [10]) → data = data'

theorem TellsApart.mono {some : List VerifiedEnvelope} (h : TellsApart rt crypto accepted)
    (hsub : some ⊆ accepted) : TellsApart rt crypto some :=
  fun a ha b hb => h a (hsub ha) b (hsub hb)

/-- Accepted catalogs with one digest have one text. -/
theorem TellsApart.text (h : TellsApart rt crypto accepted) {a b : VerifiedEnvelope}
    (ha : a ∈ accepted) (hb : b ∈ accepted) (hva : a.Valid rt crypto lib)
    (hvb : b.Valid rt crypto lib) (hdigest : a.catalogSha256 = b.catalogSha256) :
    Json.text .canonical (field a.payload "catalog") =
      Json.text .canonical (field b.payload "catalog") := by
  obtain ⟨data, hdata, hda⟩ := hva.payload.catalog
  obtain ⟨data', hdata', hdb⟩ := hvb.payload.catalog
  have heq := h a ha b hb data data' hdata hdata' (hda.symm.trans (hdigest.trans hdb))
  subst heq
  exact text_of_canonicalJsonBytes hdata hdata'

/-- A call that accepts an envelope again accepts its text. -/
theorem text_of_acceptedBy (hsha : TellsApart rt crypto accepted) {old : List VerifiedEnvelope}
    {env : Util.Os} {raw : Bytes} {keyringPath : Path} {current : DateTime} {m : Disk.Machine}
    (hrun : Run rt crypto lib stateDir C start old m.nodes)
    (hquiet : Util.Quiet env (intelligenceDirectory stateDir))
    (hrepeats : RepeatsTerms rt crypto lib stateDir old m.nodes raw current)
    {a b : VerifiedEnvelope} (ha : a ∈ old) (hb : b ∈ acceptedBy
      (installIntelligenceEnvelope rt crypto lib raw stateDir keyringPath current env m).1)
    (hina : a ∈ accepted) (hinb : b ∈ accepted) (hsequence : a.sequence = b.sequence) :
    Json.text .canonical (.obj a.payload) = Json.text .canonical (.obj b.payload) := by
  obtain ⟨hva, state, hstate, hfollows⟩ := hrun.follows a ha
  obtain ⟨hfrom, ⟨outcome, previous, hprevious, hrule⟩, -⟩ := committed_of_acceptedBy hquiet hb
  cases hstate.unique hprevious
  have hadmitted := atLeast_of_rollbackRule hrule state rfl
  -- The committed state has the sequence and the digest of both.
  have hcommitted : state = IntelligenceState.commits b := by
    have hmax : state.maxSequence = b.sequence :=
      le_antisymm hadmitted.1 (hsequence ▸ hfollows.1)
    have hdigest := hadmitted.2 hmax.symm
    cases state
    cases hmax
    exact congrArg _ hdigest.symm
  subst hcommitted
  have hdigest : a.catalogSha256 = b.catalogSha256 :=
    (Json.str.inj (hfollows.2 hsequence.symm)).symm
  have hvb := hfrom.valid
  have hterms := hrepeats b hfrom hstate a ha hsequence
  have hpayload := hvb.payload
  rw [← hsequence, ← hdigest] at hpayload
  exact text_payload hva.payload hpayload hva.nodup hvb.nodup
    (hsha.text hina hinb hva hvb hdigest) hterms

end Runs

/-- In a run in which no call repeats the committed sequence and its catalog under other
terms, the envelopes that are accepted with one sequence have the same signed payload. -/
theorem sequence_names_payload (rt : Runtime) (crypto : Crypto) (lib : Library) (stateDir : Path)
    {start nodes : Disk.Nodes} {accepted : List VerifiedEnvelope}
    (hsha : TellsApart rt crypto accepted)
    (h : Run rt crypto lib stateDir (RepeatsTerms rt crypto lib stateDir) start accepted nodes) :
    ∀ a ∈ accepted, ∀ b ∈ accepted, a.sequence = b.sequence →
      ∃ data, Util.canonicalJsonBytes rt (.obj a.payload) = .ok data ∧
        Util.canonicalJsonBytes rt (.obj b.payload) = .ok data := by
  have htext : ∀ old, (∀ a ∈ old, a ∈ accepted) → ∀ n,
      Run rt crypto lib stateDir (RepeatsTerms rt crypto lib stateDir) start old n →
      ∀ a ∈ old, ∀ b ∈ old, a.sequence = b.sequence →
        Json.text .canonical (.obj a.payload) = Json.text .canonical (.obj b.payload) := by
    intro old hin n hrun
    induction hrun with
    | start => exact fun _ ha => nomatch ha
    | @call old m run env raw keyringPath current hquiet hcall ih =>
        have hold : ∀ a ∈ old, a ∈ accepted := fun a ha => hin a (List.mem_append_left _ ha)
        intro a ha b hb hsequence
        rcases List.mem_append.1 ha with ha' | ha' <;> rcases List.mem_append.1 hb with hb' | hb'
        · exact ih hold a ha' b hb' hsequence
        · exact text_of_acceptedBy hsha run hquiet hcall ha' hb' (hin a ha) (hin b hb) hsequence
        · exact (text_of_acceptedBy hsha run hquiet hcall hb' ha' (hin b hb) (hin a ha)
            hsequence.symm).symm
        · rw [eq_of_mem_acceptedBy ha' hb']
  intro a ha b hb hsequence
  obtain ⟨hva, -⟩ := h.follows a ha
  obtain ⟨hvb, -⟩ := h.follows b hb
  obtain ⟨data, hdata⟩ := hva.canonical
  obtain ⟨data', hdata'⟩ := hvb.canonical
  have hbytes := Util.encodeJson_eq_ok hdata
  rw [htext accepted (fun _ hx => hx) nodes h a ha b hb hsequence,
    Util.encodeJson_eq_ok hdata'] at hbytes
  cases hbytes
  exact ⟨data, hdata, hdata'⟩

namespace Sample

open Feed.Sample (runtime keyringPath stateDir current env)
open Intelligence.Sample (library canonical)

/-- A run that accepts the first envelope and then another one with its sequence. -/
theorem run_pair {s : Signed} (hs : s ∈ [first, again]) {C : List VerifiedEnvelope → Disk.Nodes →
      Bytes → DateTime → Prop}
    (hfirst : C [] Feed.Sample.nodes (Feed.Sample.bytes (.obj first.document)) current)
    (hsecond : ∀ nodes, C [first.verified] nodes (Feed.Sample.bytes (.obj s.document)) current) :
    ∃ nodes, Run runtime crypto library stateDir C Feed.Sample.nodes [first.verified, s.verified]
      nodes := by
  have hmem : s ∈ [first, again, second] := by
    rcases List.mem_cons.1 hs with rfl | hs
    · exact List.mem_cons_self
    · exact List.mem_cons_of_mem _ (List.mem_cons.2 (.inl (List.mem_singleton.1 hs)))
  have hsame : s.sequence = first.sequence := by
    rcases List.mem_cons.1 hs with rfl | hs
    · rfl
    · rw [List.mem_singleton.1 hs]
      rfl
  obtain ⟨m₁, hcall₁, hinstalled, hready⟩ :=
    ready_nodes.installs (s := first) (by simp) nothing_committed rfl 0
  have hcommitted := committed_of_installed (by simp) hinstalled
  have hrule : rollbackRule s.verified (some (IntelligenceState.commits first.verified)) =
      .ok .unchanged := by
    refine bind_eq_ok.2 ⟨(), require_eq_ok.2 (le_of_eq hsame.symm), ?_⟩
    rw [if_pos (show s.verified.sequence = (IntelligenceState.commits first.verified).maxSequence
      from hsame)]
    exact bind_eq_ok.2 ⟨(), require_eq_ok.2 (isText_iff.2 rfl), rfl⟩
  obtain ⟨m₂, hcall₂, -, -⟩ := hready.installs hmem hcommitted hrule m₁.tick
  have hrun₁ : Run runtime crypto library stateDir C Feed.Sample.nodes _ _ :=
    .call (m := ⟨Feed.Sample.nodes, 0⟩) .start (env .done)
      (Feed.Sample.bytes (.obj first.document)) keyringPath current (fun _ _ _ => rfl) hfirst
  rw [hcall₁] at hrun₁
  have hrun₂ : Run runtime crypto library stateDir C Feed.Sample.nodes _ _ :=
    .call hrun₁ (env .done) (Feed.Sample.bytes (.obj s.document)) keyringPath current
      (fun _ _ _ => rfl) (hsecond m₁.nodes)
  rw [hcall₂] at hrun₂
  exact ⟨m₂.nodes, hrun₂⟩

/-- The two payloads with the sequence 7 have different texts. -/
theorem payloads_differ : canonical (.obj first.payload) ≠ canonical (.obj again.payload) := by
  have hsorted : (Json.obj first.payload).sortKeys ≠ (Json.obj again.payload).sortKeys := by
    rw [sorted_payload (by simp), sorted_payload (by simp)]
    intro heq
    have hfield := congrArg (fun p => field p "expires_at") (Json.obj.inj heq)
    have hne : str "2026-01-14T00:00:00Z" ≠ str "2026-01-15T00:00:00Z" := by decide
    exact hne (Json.str.inj hfield)
  have hne := Intelligence.Sample.canonical_ne (s := []) (t := []) (writable_payload (by simp))
    (writable_payload (by simp)) hsorted (.inl rfl) (.inl rfl)
  rwa [List.append_nil, List.append_nil] at hne

/-- The first envelope repeats its own terms. -/
theorem repeats_first (nodes : Disk.Nodes) : RepeatsTerms runtime crypto library stateDir
    [first.verified] nodes (Feed.Sample.bytes (.obj first.document)) current := by
  rintro verified ⟨members, keyId, source, keyring, hread, -, hverified⟩ - a ha -
  rw [readIntelligenceEnvelope_bytes (by simp)] at hread
  cases hread
  simp only [verifyIntelligenceMembers, bind_eq_ok, fromOption_eq_ok] at hverified
  obtain ⟨_, -, payload, hpayload, _, -, _, -, hverified⟩ := hverified
  have hfield : (field first.document "payload").objOf = some first.payload := rfl
  rw [hfield] at hpayload
  cases hpayload
  cases hverified
  rw [List.mem_singleton.1 ha]
  exact ⟨rfl, rfl, rfl⟩

end Sample

open Sample in
/-- One envelope accepted twice. -/
theorem sequence_names_payload_twice : ∃ nodes, Run Feed.Sample.runtime crypto
      Intelligence.Sample.library Feed.Sample.stateDir (RepeatsTerms Feed.Sample.runtime crypto
        Intelligence.Sample.library Feed.Sample.stateDir) Feed.Sample.nodes
      [first.verified, first.verified] nodes ∧
    ∃ data, Util.canonicalJsonBytes Feed.Sample.runtime (.obj first.payload) = .ok data ∧
      Util.canonicalJsonBytes Feed.Sample.runtime (.obj first.payload) = .ok data := by
  have hmem : ∀ a ∈ [first.verified, first.verified], a = first.verified := by
    intro a ha
    simpa using ha
  have htells : TellsApart Feed.Sample.runtime crypto [first.verified, first.verified] := by
    intro a ha b hb data data' hdata hdata' _
    rw [hmem a ha] at hdata
    rw [hmem b hb, hdata] at hdata'
    exact Except.ok.inj hdata'
  obtain ⟨nodes, hrun⟩ := run_pair (s := first) (by simp) (fun _ _ _ a ha => nomatch ha)
    fun nodes => repeats_first nodes
  exact ⟨nodes, hrun, sequence_names_payload Feed.Sample.runtime crypto Intelligence.Sample.library
    Feed.Sample.stateDir htells hrun first.verified (by simp) first.verified (by simp) rfl⟩

open Sample in
/-- Two envelopes with the sequence 7 and different expiries are accepted one after the other. -/
theorem sequence_reused : ∃ accepted nodes, Run Feed.Sample.runtime crypto
      Intelligence.Sample.library Feed.Sample.stateDir (fun _ _ _ _ => True) Feed.Sample.nodes
      accepted nodes ∧
    ∃ a ∈ accepted, ∃ b ∈ accepted, a.sequence = b.sequence ∧
      Util.canonicalJsonBytes Feed.Sample.runtime (.obj a.payload) ≠
        Util.canonicalJsonBytes Feed.Sample.runtime (.obj b.payload) := by
  obtain ⟨nodes, hrun⟩ := run_pair (s := again) (C := fun _ _ _ _ => True) (by simp) trivial
    fun _ => trivial
  refine ⟨_, nodes, hrun, first.verified, by simp, again.verified, by simp, rfl, ?_⟩
  have hfirst := Intelligence.Sample.canonical_eq (writable_payload (s := first) (by simp))
  have hagain := Intelligence.Sample.canonical_eq (writable_payload (s := again) (by simp))
  change Util.canonicalJsonBytes Feed.Sample.runtime (.obj first.payload) ≠
    Util.canonicalJsonBytes Feed.Sample.runtime (.obj again.payload)
  rw [hfirst, hagain]
  intro heq
  exact payloads_differ (Except.ok.inj heq)

end ZsecShield.Updates
