import ZsecShield.Updates.Installed

/-!
# Intelligence updates converge

A history is a sequence of calls of `install_intelligence_envelope`, any of which may fail or
be cut anywhere.  Over a history the committed sequence does not decrease and keeps its digest
while it stays the same (`Reaches.committed`), and from every state so reached a further call
that nothing interrupts installs an envelope at or above the committed sequence
(`calm_installIntelligenceEnvelope`).
-/

namespace ZsecShield.Updates

open Text (Str str)
open Effect
open Checks
open Feed (field isText isText_iff Keyring parseKeyring maxKeyringBytes identified_of_parseKeyring)
open Intelligence (Members Library)

/-! ## Histories -/

/-- A call with any bytes at any time, which may end in any way. -/
inductive Step (rt : Runtime) (crypto : Crypto) (lib : Library) (stateDir : Path) :
    Disk.Nodes → Disk.Nodes → Prop
  | install (env : Util.Os) (raw : Bytes) (keyringPath : Path) (current : DateTime)
      (m : Disk.Machine) (h : Util.Quiet env (intelligenceDirectory stateDir)) :
      Step rt crypto lib stateDir m.nodes
        (installIntelligenceEnvelope rt crypto lib raw stateDir keyringPath current env m).2.nodes

abbrev Reaches (rt : Runtime) (crypto : Crypto) (lib : Library) (stateDir : Path) :
    Disk.Nodes → Disk.Nodes → Prop :=
  Relation.ReflTransGen (Step rt crypto lib stateDir)

/-- A state may follow another one: the sequence does not decrease, and the digest changes
only with it. -/
def Follows (old new : IntelligenceState) : Prop :=
  old.maxSequence ≤ new.maxSequence ∧
    (new.maxSequence = old.maxSequence → new.catalogSha256 = old.catalogSha256)

theorem Follows.refl (state : IntelligenceState) : Follows state state := ⟨le_refl _, fun _ => rfl⟩

theorem Follows.trans {a b c : IntelligenceState} (h : Follows a b) (h' : Follows b c) :
    Follows a c := by
  refine ⟨h.1.trans h'.1, ?_⟩
  intro heq
  have hab : b.maxSequence = a.maxSequence := le_antisymm (heq ▸ h'.1) h.1
  exact (h'.2 (heq.trans hab.symm)).trans (h.2 hab)

/-- What is committed later than something else: a state is never lost. -/
def Succeeds (old new : Option IntelligenceState) : Prop :=
  ∀ state, old = some state → ∃ state', new = some state' ∧ Follows state state'

theorem Succeeds.refl (state : Option IntelligenceState) : Succeeds state state :=
  fun s hs => ⟨s, hs, Follows.refl s⟩

theorem Succeeds.trans {a b c : Option IntelligenceState} (h : Succeeds a b) (h' : Succeeds b c) :
    Succeeds a c := by
  intro state hstate
  obtain ⟨mid, hmid, hfollows⟩ := h state hstate
  obtain ⟨last, hlast, hfollows'⟩ := h' mid hmid
  exact ⟨last, hlast, hfollows.trans hfollows'⟩

/-- The envelope is at or above the committed sequence, with the same catalog when equal. -/
def AtLeast (verified : VerifiedEnvelope) (previous : Option IntelligenceState) : Prop :=
  ∀ state, previous = some state → Follows state (IntelligenceState.commits verified)

theorem atLeast_of_rollbackRule {verified : VerifiedEnvelope} {previous : Option IntelligenceState}
    {outcome : Feed.InstallOutcome} (h : rollbackRule verified previous = .ok outcome) :
    AtLeast verified previous := by
  rintro state rfl
  simp only [rollbackRule, bind_eq_ok, require_eq_ok] at h
  obtain ⟨_, hle, h⟩ := h
  refine ⟨hle, ?_⟩
  intro (heq : verified.sequence = state.maxSequence)
  rw [if_pos heq] at h
  obtain ⟨_, hdigest, -⟩ := bind_eq_ok.1 h
  exact (isText_iff.1 (require_eq_ok.1 hdigest)).symm

theorem rollbackRule_of_atLeast {verified : VerifiedEnvelope}
    {previous : Option IntelligenceState} (h : AtLeast verified previous) :
    ∃ outcome, rollbackRule verified previous = .ok outcome := by
  cases previous with
  | none => exact ⟨.installed, rfl⟩
  | some state =>
      obtain ⟨hle, hdigest⟩ := h state rfl
      by_cases heq : verified.sequence = state.maxSequence
      · refine ⟨.unchanged, bind_eq_ok.2 ⟨(), require_eq_ok.2 hle, ?_⟩⟩
        rw [if_pos heq]
        exact bind_eq_ok.2 ⟨(), require_eq_ok.2 (isText_iff.2 (hdigest heq).symm), rfl⟩
      · refine ⟨.installed, bind_eq_ok.2 ⟨(), require_eq_ok.2 hle, ?_⟩⟩
        rw [if_neg heq]
        rfl

section Histories

variable {rt : Runtime} {crypto : Crypto} {lib : Library} {stateDir : Path} {T : Path → Prop}
  {nodes nodes' : Disk.Nodes} {verified : VerifiedEnvelope} {current : DateTime}

/-- The bytes of the state file commit the envelope. -/
theorem committed_of_content (h : verified.Valid rt crypto lib) {catalog envelope state : Bytes}
    (hencodes : Encodes rt verified current catalog envelope state)
    (hcontent : Disk.content nodes (intelligenceStatePath stateDir) = some state) :
    Committed rt stateDir nodes (some (IntelligenceState.commits verified)) := by
  obtain ⟨data, hdata, rfl⟩ := hencodes.state
  exact ⟨_, hcontent, parse_stateJson h hdata⟩

/-- A call replaces entries of the directory. -/
theorem callWrites_join {active : Option Bytes} {catalog envelope state : Bytes} {w : Path × Bytes}
    (h : w ∈ callWrites stateDir active catalog envelope state) :
    ∃ name, w.1 = Disk.join (intelligenceDirectory stateDir) name := by
  rcases List.mem_append.1 h with h | h
  · simp only [List.mem_cons, List.not_mem_nil, or_false] at h
    rcases h with rfl | rfl | rfl
    · exact ⟨stateName, rfl⟩
    · exact ⟨envelopeName, rfl⟩
    · exact ⟨documentName, rfl⟩
  · cases active with
    | none => cases h
    | some raw =>
        rw [Option.map_some, Option.toList_some, List.mem_singleton] at h
        subst h
        exact ⟨lastKnownGoodName, rfl⟩

theorem lookup_state (stateDir : Path) (active : Option Bytes) (catalog envelope : Bytes) :
    Json.lookup (intelligenceStatePath stateDir)
      ([(intelligenceEnvelopePath stateDir, envelope), (intelligenceDocumentPath stateDir, catalog)] ++
        (active.map fun raw => (intelligenceLastKnownGoodPath stateDir, raw)).toList) = none := by
  have henvelope : envelopeName ≠ stateName := by decide
  have hdocument : documentName ≠ stateName := by decide
  have hlast : lastKnownGoodName ≠ stateName := by decide
  unfold intelligenceStatePath intelligenceEnvelopePath intelligenceDocumentPath
    intelligenceLastKnownGoodPath
  cases active with
  | none =>
      simp [Util.lookup_join, henvelope, hdocument]
      rfl
  | some raw =>
      simp [Util.lookup_join, henvelope, hdocument, hlast]
      rfl

/-- A call that was cut has committed its envelope, or the state file is as it was. -/
theorem Halfway.committed (h : Halfway rt stateDir T nodes verified current nodes')
    (hvalid : verified.Valid rt crypto lib) (hT : T (intelligenceStatePath stateDir)) :
    nodes' (intelligenceStatePath stateDir) = nodes (intelligenceStatePath stateDir) ∨
      (∃ outcome, Admits rt stateDir nodes verified outcome) ∧
      Committed rt stateDir nodes' (some (IntelligenceState.commits verified)) := by
  obtain ⟨outcome, catalog, envelope, state, hadmits, hencodes, done, hdone, hwrote⟩ := h
  rcases List.suffix_cons_iff.1 hdone with rfl | hrest
  · refine .inr ⟨⟨outcome, hadmits⟩, committed_of_content hvalid hencodes (hwrote.content hT ?_)⟩
    rw [Json.lookup, if_pos rfl]
  · exact .inl (Util.Partly.other ⟨done, hrest, hwrote⟩ hT (lookup_state stateDir _ _ _))

theorem Step.committed (h : Step rt crypto lib stateDir nodes nodes')
    {state : Option IntelligenceState} (hstate : Committed rt stateDir nodes state) :
    ∃ state', Committed rt stateDir nodes' state' ∧ Succeeds state state' := by
  cases h with
  | install env raw keyringPath current m hquiet =>
      have hwatched := watched_entries hquiet
      have hcut : ∀ n, (Disk.Same (Util.Entries (intelligenceDirectory stateDir)) m.nodes n ∨
          ∃ verified, VerifiedFrom rt crypto lib raw current verified ∧
            Halfway rt stateDir (Util.Entries (intelligenceDirectory stateDir)) m.nodes verified
              current n) →
          ∃ state', Committed rt stateDir n state' ∧ Succeeds state state' := by
        intro n hn
        have hpath : Util.Entries (intelligenceDirectory stateDir) (intelligenceStatePath stateDir) :=
          hwatched.entry ordinary_names.2.2.1
        rcases hn with hsame | ⟨verified, hfrom, hhalfway⟩
        · exact ⟨state, hstate.of_eq (hsame _ hpath), Succeeds.refl state⟩
        rcases hhalfway.committed hfrom.valid hpath with heq | ⟨⟨outcome, previous, hprevious, hrule⟩,
          hcommitted⟩
        · exact ⟨state, hstate.of_eq heq, Succeeds.refl state⟩
        · cases hstate.unique hprevious
          exact ⟨_, hcommitted, fun s hs => ⟨_, rfl, atLeast_of_rollbackRule hrule s hs⟩⟩
      refine Effect.wp.always (I := fun m' : Disk.Machine => ∃ state',
        Committed rt stateDir m'.nodes state' ∧ Succeeds state state')
        ((wp_installIntelligenceEnvelope hwatched raw keyringPath m).mono
          ⟨?_, fun _ m' => hcut m'.nodes, fun m' => hcut m'.nodes⟩)
      intro r m' hm'
      exact hcut m'.nodes (.inr ⟨r.2, hm'.1, hm'.2.halfway⟩)

/-- Over a history the committed state is only ever replaced by one that may follow it. -/
theorem Reaches.committed (h : Reaches rt crypto lib stateDir nodes nodes')
    {state : Option IntelligenceState} (hstate : Committed rt stateDir nodes state) :
    ∃ state', Committed rt stateDir nodes' state' ∧ Succeeds state state' := by
  induction h with
  | refl => exact ⟨state, hstate, Succeeds.refl state⟩
  | tail _ hstep ih =>
      obtain ⟨mid, hmid, hsucceeds⟩ := ih
      obtain ⟨last, hlast, hsucceeds'⟩ := hstep.committed hmid
      exact ⟨last, hlast, hsucceeds.trans hsucceeds'⟩

/-- No call makes a directory among the files of the store. -/
theorem Step.plain (h : Step rt crypto lib stateDir nodes nodes')
    (hplain : Util.Plain (intelligenceDirectory stateDir) nodes) :
    Util.Plain (intelligenceDirectory stateDir) nodes' := by
  cases h with
  | install env raw keyringPath current m hquiet =>
      let dir := intelligenceDirectory stateDir
      have hlift : ∀ {α : Type} (r : Except PyError α),
          Keeps env (Assertion.always fun m : Disk.Machine => Util.Plain dir m.nodes)
            (Prog.liftExcept r) := fun _ => Keeps.liftExcept fun _ _ _ hs => hs
      have hkeyring : Keeps env (Assertion.always fun m => Util.Plain dir m.nodes)
          (Feed.loadKeyring rt keyringPath) := by
        intro m hm
        refine (Feed.wp_loadKeyring (T := fun p => ∃ name, p = Disk.join dir name) ?_ rt keyringPath
          (Disk.Same.refl _ m.nodes)).mono ⟨?_, ?_, ?_⟩
        · rintro t n p ⟨name, rfl⟩
          exact hquiet t n name
        · exact fun _ _ hs => hm.of_same (fun name => ⟨name, rfl⟩) hs.1
        · exact fun _ _ hs => hm.of_same (fun name => ⟨name, rfl⟩) hs
        · exact fun _ hs => hm.of_same (fun name => ⟨name, rfl⟩) hs
      have hwrite : ∀ {name : Str} (data : Bytes), Util.Ordinary name →
          Keeps env (Assertion.always fun m => Util.Plain dir m.nodes)
            (Util.atomicWriteBytes (Disk.join dir name) data 0o600) :=
        fun data hname => Util.keeps_plain_write hquiet hname data 0o600
      have hbody : ∀ verified catalog envelope,
          Keeps env (Assertion.always fun m => Util.Plain dir m.nodes)
            (installEnvelope rt stateDir verified catalog envelope current) := by
        intro verified catalog envelope
        refine Keeps.bind ?_ fun previous => Keeps.bind (hlift _) fun outcome =>
          Keeps.bind ?_ fun _ => Keeps.bind ?_ fun _ => Keeps.pure outcome
        · refine Keeps.bind (Util.keeps_plain_look hquiet _) fun found => Keeps.ite (fun _ => ?_)
            fun _ => Keeps.pure none
          exact Keeps.bind (Util.keeps_plain_look hquiet _) fun _ =>
            Keeps.bind (hlift _) fun state => Keeps.pure (some state)
        · refine Keeps.bind (Util.keeps_plain_look hquiet _) fun found => Keeps.ite (fun _ => ?_)
            fun _ => Keeps.pure ()
          exact Keeps.bind (Util.keeps_plain_look hquiet _) fun _ => hwrite _ ordinary_names.2.2.2
        · exact Keeps.bind (hwrite _ ordinary_names.1) fun _ =>
            Keeps.bind (hwrite _ ordinary_names.2.1) fun _ =>
              Util.keeps_plain_writeJson hquiet ordinary_names.2.2.1 rt _ _
      have hcall : Keeps env (Assertion.always fun m => Util.Plain dir m.nodes)
          (installIntelligenceEnvelope rt crypto lib raw stateDir keyringPath current) := by
        refine Keeps.bind (Keeps.bind (hlift _) fun _ => Keeps.bind hkeyring fun _ => hlift _)
          fun verified => Keeps.bind (hlift _) fun _ => Keeps.bind (hlift _) fun _ => Keeps.bind ?_
            fun outcome => Keeps.pure (outcome, verified)
        exact Util.keeps_plain_lock hquiet (by decide) (hbody _ _ _)
      exact Effect.wp.always (hcall m hplain)

theorem Reaches.plain (h : Reaches rt crypto lib stateDir nodes nodes')
    (hplain : Util.Plain (intelligenceDirectory stateDir) nodes) :
    Util.Plain (intelligenceDirectory stateDir) nodes' := by
  induction h with
  | refl => exact hplain
  | tail _ hstep ih => exact hstep.plain ih

end Histories

/-! ## A call that nothing interrupts -/

/-- The names of the files of the store. -/
def storeNames : List Str := [documentName, envelopeName, stateName, lastKnownGoodName]

theorem ordinary_storeNames : ∀ name ∈ storeNames, Util.Ordinary name := by decide

/-- Nothing interrupts the call: every system call is done and nobody else is at work, and
`mkstemp` finds names that are free.  The keyring file holds a keyring with which the envelope
is still valid. -/
structure Uninterrupted (rt : Runtime) (crypto : Crypto) (lib : Library) (env : Util.Os)
    (raw : Bytes) (stateDir keyringPath : Path) (current : DateTime) (nodes : Disk.Nodes)
    (verified : VerifiedEnvelope) : Prop where
  calm : Disk.Calm env
  free : ∀ name ∈ storeNames, ∀ t, nodes (Disk.join (intelligenceDirectory stateDir)
    (str "." ++ name ++ str "." ++ env.fresh t)) = none
  stillValid : ∃ members keyId source keyring,
    readIntelligenceEnvelope rt raw = .ok (members, keyId) ∧
    Disk.content nodes keyringPath = some source ∧ source.length ≤ maxKeyringBytes ∧
    parseKeyring rt source = .ok keyring ∧
    verifyIntelligenceMembers rt crypto lib members keyId keyring current = .ok verified

/-- The catalog document, the envelope and the state name the same catalog. -/
structure NamesCatalog (rt : Runtime) (crypto : Crypto) (stateDir : Path) (nodes : Disk.Nodes)
    (verified : VerifiedEnvelope) : Prop where
  document : ∃ catalog, Disk.content nodes (intelligenceDocumentPath stateDir) = some catalog ∧
    crypto.hexdigest catalog = verified.catalogSha256
  envelope : ∃ members data, verified.document = .obj members ∧
    field members "payload" = .obj verified.payload ∧
    field verified.payload "catalog_sha256" = .str verified.catalogSha256 ∧
    Util.encodeJson rt .pretty verified.document = .ok data ∧
    Disk.content nodes (intelligenceEnvelopePath stateDir) = some (data ++ [10])
  state : Committed rt stateDir nodes (some (IntelligenceState.commits verified))

section Calm

variable {rt : Runtime} {crypto : Crypto} {lib : Library} {env : Util.Os}
  {stateDir keyringPath : Path} {nodes : Disk.Nodes} {verified : VerifiedEnvelope}
  {current : DateTime} {raw : Bytes} {m : Disk.Machine} {previous : Option IntelligenceState}

theorem calm_loadIntelligenceState (h : Disk.Calm env)
    (hprevious : Committed rt stateDir m.nodes previous) :
    wp env (loadIntelligenceState rt stateDir)
      ⟨fun r m' => r = previous ∧ m'.nodes = m.nodes, fun _ _ => False, fun _ => False⟩ m := by
  unfold loadIntelligenceState
  rw [wp_bind]
  refine h.wp_existsAt ?_
  cases previous with
  | none =>
      rw [Committed, Util.Holds] at hprevious
      rw [hprevious]
      exact ⟨rfl, rfl⟩
  | some state =>
      obtain ⟨raw, hraw, hparse⟩ := hprevious
      obtain ⟨f, hf, -⟩ := Util.isFile_of_content hraw
      rw [hf, Post.withOk_ok, Option.isSome_some, if_pos rfl, wp_bind]
      refine h.wp_read hraw ?_
      rw [Post.withOk_ok, wp_bind, hparse, wp_liftExcept_ok]
      exact ⟨rfl, rfl⟩

/-- The writes so far, and the files can still be written. -/
def Going (env : Util.Os) (stateDir : Path) (writes : Util.Writes) (nodes nodes' : Disk.Nodes) :
    Prop :=
  Util.Wrote (Util.Beside (intelligenceDirectory stateDir)) writes nodes nodes' ∧
    Util.Clear env (intelligenceDirectory stateDir) storeNames nodes'

theorem calm_store (h : Disk.Calm env) {name : Str} (hname : name ∈ storeNames) (data : Bytes)
    {writes : Util.Writes} (hm : Going env stateDir writes nodes m.nodes) :
    wp env (Util.atomicWriteBytes (Disk.join (intelligenceDirectory stateDir) name) data 0o600)
      ⟨fun _ m' => Going env stateDir
          ((Disk.join (intelligenceDirectory stateDir) name, data) :: writes) nodes m'.nodes,
        fun _ _ => False, fun _ => False⟩ m :=
  Util.calm_write h ordinary_storeNames hname data 0o600 hm.1 hm.2

theorem calm_backUpEnvelope (h : Disk.Calm env) (hm : Going env stateDir [] nodes m.nodes) :
    wp env (backUpEnvelope stateDir)
      ⟨fun _ m' => Going env stateDir ((Disk.content nodes (intelligenceEnvelopePath stateDir)).map
          fun raw => (intelligenceLastKnownGoodPath stateDir, raw)).toList nodes m'.nodes,
        fun _ _ => False, fun _ => False⟩ m := by
  have hsame : m.nodes (intelligenceEnvelopePath stateDir) = nodes (intelligenceEnvelopePath stateDir) :=
    hm.1 _ (Util.beside_join ordinary_names.2.1.ne_lockName)
  unfold backUpEnvelope
  rw [wp_bind]
  cases hcontent : Disk.content nodes (intelligenceEnvelopePath stateDir) with
  | none =>
      refine h.wp_look (a := false) ?_ hm
      rw [hsame]
      unfold Disk.content at hcontent
      split at hcontent
      · cases hcontent
      · rfl
  | some active =>
      obtain ⟨f, hf, hactive⟩ := Util.isFile_of_content hcontent
      have hf' := hsame.trans hf
      refine h.wp_isFile hf' ?_
      rw [Post.withOk_ok, if_pos rfl, wp_bind]
      have hread : Disk.content m.nodes (intelligenceEnvelopePath stateDir) = some active := by
        simp only [Disk.content, hf', hactive]
      refine h.wp_read hread ?_
      rw [Post.withOk_ok]
      exact calm_store h (show lastKnownGoodName ∈ storeNames by decide) active hm

/-- The three replacements behind the copy. -/
theorem calm_publish (h : Disk.Calm env) {writes : Util.Writes}
    (hm : Going env stateDir writes nodes m.nodes) {catalog envelope state : Bytes}
    (hencodes : Encodes rt verified current catalog envelope state) :
    wp env (publish rt stateDir verified catalog envelope current)
      ⟨fun _ m' => Going env stateDir ([(intelligenceStatePath stateDir, state),
          (intelligenceEnvelopePath stateDir, envelope),
          (intelligenceDocumentPath stateDir, catalog)] ++ writes) nodes m'.nodes,
        fun _ _ => False, fun _ => False⟩ m := by
  obtain ⟨data, hdata, rfl⟩ := hencodes.state
  unfold publish
  refine wp.bind (calm_store h (by decide) _ hm) ?_ (fun _ _ => False.elim) fun _ => False.elim
  intro _ m₁ hm₁
  refine wp.bind (calm_store h (by decide) _ hm₁) ?_ (fun _ _ => False.elim) fun _ => False.elim
  intro _ m₂ hm₂
  unfold Util.atomicWriteJson
  rw [wp_bind, hdata, wp_liftExcept_ok, Post.withOk_ok]
  exact calm_store h (show stateName ∈ storeNames by decide) _ hm₂

theorem calm_installEnvelope (h : Disk.Calm env) (hm : Going env stateDir [] nodes m.nodes)
    (hprevious : Committed rt stateDir nodes previous) {outcome : Feed.InstallOutcome}
    (hrule : rollbackRule verified previous = .ok outcome) {catalog envelope state : Bytes}
    (hencodes : Encodes rt verified current catalog envelope state) :
    wp env (installEnvelope rt stateDir verified catalog envelope current)
      ⟨fun r m' => r = outcome ∧ Going env stateDir (callWrites stateDir
          (Disk.content nodes (intelligenceEnvelopePath stateDir)) catalog envelope state) nodes m'.nodes,
        fun _ _ => False, fun _ => False⟩ m := by
  have hstate : m.nodes (intelligenceStatePath stateDir) = nodes (intelligenceStatePath stateDir) :=
    hm.1 _ (Util.beside_join ordinary_names.2.2.1.ne_lockName)
  unfold installEnvelope
  refine wp.bind (calm_loadIntelligenceState h (hprevious.of_eq hstate)) ?_ (fun _ _ => False.elim)
    fun _ => False.elim
  rintro _ m₁ ⟨rfl, hm₁⟩
  rw [wp_bind, hrule, wp_liftExcept_ok, Post.withOk_ok]
  refine wp.bind (calm_backUpEnvelope h (hm₁ ▸ hm)) ?_ (fun _ _ => False.elim) fun _ => False.elim
  intro _ m₂ hm₂
  refine wp.bind (calm_publish h hm₂ hencodes) ?_ (fun _ _ => False.elim) fun _ => False.elim
  intro _ m₃ hm₃
  exact ⟨rfl, hm₃⟩

/-- A call that nothing interrupts installs an envelope at or above the committed sequence, and
the files can be written again. -/
theorem calm_installIntelligenceEnvelope
    (h : Uninterrupted rt crypto lib env raw stateDir keyringPath current m.nodes verified)
    (hplain : Util.Plain (intelligenceDirectory stateDir) m.nodes)
    (hprevious : Committed rt stateDir m.nodes previous) {outcome : Feed.InstallOutcome}
    (hrule : rollbackRule verified previous = .ok outcome) :
    wp env (installIntelligenceEnvelope rt crypto lib raw stateDir keyringPath current)
      ⟨fun r m' => r = (outcome, verified) ∧
          Installed rt stateDir (Util.Beside (intelligenceDirectory stateDir)) m.nodes verified
            current outcome m'.nodes ∧
          Util.Clear env (intelligenceDirectory stateDir) storeNames m'.nodes,
        fun _ _ => False, fun _ => False⟩ m := by
  obtain ⟨members, keyId, source, keyring, hread, hsource, hsize, hkeyring, hverified⟩ := h.stillValid
  have hvalid := valid_of_verifyIntelligenceMembers (identified_of_parseKeyring hkeyring) hread
    hverified
  obtain ⟨catalog, hcatalog, -⟩ := hvalid.payload.catalog
  obtain ⟨envelope, henvelope⟩ := hvalid.encodes
  obtain ⟨state, hencodes⟩ := hvalid.encodes_state current hcatalog henvelope
  have hclear : Util.Clear env (intelligenceDirectory stateDir) storeNames m.nodes :=
    ⟨fun name _ => hplain name, h.free⟩
  unfold installIntelligenceEnvelope verifyIntelligenceEnvelope
  rw [wp_bind, wp_bind, hread, wp_liftExcept_ok, Post.withOk_ok]
  refine wp.bind (Feed.calm_loadKeyring h.calm hsource hsize hkeyring) ?_ (fun _ _ => False.elim)
    fun _ => False.elim
  rintro _ m₁ ⟨rfl, hm₁⟩
  rw [hverified, wp_liftExcept_ok, Post.withOk_ok, wp_bind, hcatalog, wp_liftExcept_ok,
    Post.withOk_ok, wp_bind, henvelope, wp_liftExcept_ok, Post.withOk_ok]
  let ok (r : Feed.InstallOutcome) (n : Disk.Nodes) : Prop :=
    r = outcome ∧ Going env stateDir (callWrites stateDir
      (Disk.content m.nodes (intelligenceEnvelopePath stateDir)) (catalog ++ [10]) (envelope ++ [10])
        state) m.nodes n
  have hlocked : wp env (Util.updateLock (intelligenceLockPath stateDir)
      (installEnvelope rt stateDir verified (catalog ++ [10]) (envelope ++ [10]) current))
      ⟨fun r m' => ok r m'.nodes, fun _ _ => False, fun _ => False⟩ m₁ := by
    refine Util.calm_lock h.calm ordinary_storeNames (hm₁ ▸ hclear) ?_ ?_
    · rw [hm₁]
      exact hplain _
    · intro m' hsame hclear'
      exact calm_installEnvelope h.calm ⟨hm₁ ▸ hsame, hclear'⟩ hprevious hrule hencodes
  refine wp.bind hlocked ?_ (fun _ _ => False.elim) fun _ => False.elim
  rintro _ m₂ ⟨rfl, hwrote, hclear'⟩
  exact ⟨rfl, ⟨_, _, _, ⟨previous, hprevious, hrule⟩, hencodes, hwrote⟩, hclear'⟩

/-- After a call that returned the three files name the same catalog. -/
theorem Installed.namesCatalog {T : Path → Prop} {outcome : Feed.InstallOutcome}
    {nodes' : Disk.Nodes} (h : Installed rt stateDir T nodes verified current outcome nodes')
    (hvalid : verified.Valid rt crypto lib)
    (hT : ∀ name ∈ storeNames, T (Disk.join (intelligenceDirectory stateDir) name)) :
    NamesCatalog rt crypto stateDir nodes' verified := by
  obtain ⟨catalog, envelope, state, -, hencodes, hwrote⟩ := h
  have hstored : Disk.content nodes' (intelligenceDocumentPath stateDir) = some catalog := by
    refine hwrote.content (hT documentName (by decide)) ?_
    change Json.lookup (Disk.join _ documentName) ((Disk.join _ stateName, state) ::
      (Disk.join _ envelopeName, envelope) :: (Disk.join _ documentName, catalog) :: _) = _
    rw [Util.lookup_join, if_neg (by decide), Util.lookup_join, if_neg (by decide),
      Util.lookup_join, if_pos rfl]
  have hsigned : Disk.content nodes' (intelligenceEnvelopePath stateDir) = some envelope := by
    refine hwrote.content (hT envelopeName (by decide)) ?_
    change Json.lookup (Disk.join _ envelopeName) ((Disk.join _ stateName, state) ::
      (Disk.join _ envelopeName, envelope) :: _) = _
    rw [Util.lookup_join, if_neg (by decide), Util.lookup_join, if_pos rfl]
  have hstate : Disk.content nodes' (intelligenceStatePath stateDir) = some state := by
    refine hwrote.content (hT stateName (by decide)) ?_
    change Json.lookup (Disk.join _ stateName) ((Disk.join _ stateName, state) :: _) = _
    rw [Util.lookup_join, if_pos rfl]
  obtain ⟨members, hdocument, hpayload, -⟩ := hvalid.document
  obtain ⟨canonical, hcanonical, hdigest⟩ := hvalid.payload.catalog
  obtain ⟨data, hdata, rfl⟩ := hencodes.catalog
  obtain ⟨text, htext, rfl⟩ := hencodes.envelope
  rw [hdata] at hcanonical
  cases hcanonical
  exact ⟨⟨_, hstored, hdigest.symm⟩,
    ⟨members, text, hdocument, hpayload, hvalid.payload.digestField, htext, hsigned⟩,
    committed_of_content hvalid hencodes hstate⟩

theorem beside_storeNames (stateDir : Path) : ∀ name ∈ storeNames,
    Util.Beside (intelligenceDirectory stateDir) (Disk.join (intelligenceDirectory stateDir) name) :=
  fun name hname => Util.beside_join (ordinary_storeNames name hname).ne_lockName

theorem Uninterrupted.valid
    (h : Uninterrupted rt crypto lib env raw stateDir keyringPath current nodes verified) :
    verified.Valid rt crypto lib := by
  obtain ⟨_, _, _, _, hread, -, -, hkeyring, hverified⟩ := h.stillValid
  exact valid_of_verifyIntelligenceMembers (identified_of_parseKeyring hkeyring) hread hverified

end Calm

/-! ## Convergence -/

/-- Over every history of calls that may be cut anywhere: the committed sequence does not
decrease and has one digest, and from the state so reached a call that nothing interrupts
installs every envelope that is still valid and at or above the committed sequence, and then
the three files name the same catalog. -/
theorem updates_converge (rt : Runtime) (crypto : Crypto) (lib : Library) (stateDir : Path)
    {nodes nodes' : Disk.Nodes} {start : Option IntelligenceState}
    (hplain : Util.Plain (intelligenceDirectory stateDir) nodes)
    (hstart : Committed rt stateDir nodes start)
    (h : Reaches rt crypto lib stateDir nodes nodes') :
    ∃ reached, Committed rt stateDir nodes' reached ∧
      (∀ state, start = some state → ∃ state', reached = some state' ∧
        state.maxSequence ≤ state'.maxSequence ∧
        (state'.maxSequence = state.maxSequence → state'.catalogSha256 = state.catalogSha256)) ∧
      ∀ env raw keyringPath current tick verified,
        Uninterrupted rt crypto lib env raw stateDir keyringPath current nodes' verified →
        (∀ state, reached = some state → state.maxSequence ≤ verified.sequence ∧
          (verified.sequence = state.maxSequence →
            .str verified.catalogSha256 = state.catalogSha256)) →
        ∃ outcome m, installIntelligenceEnvelope rt crypto lib raw stateDir keyringPath current env
            ⟨nodes', tick⟩ = (.ok (outcome, verified), m) ∧
          NamesCatalog rt crypto stateDir m.nodes verified := by
  obtain ⟨reached, hreached, hsucceeds⟩ := h.committed hstart
  refine ⟨reached, hreached, hsucceeds, ?_⟩
  intro env raw keyringPath current tick verified huninterrupted hatLeast
  obtain ⟨outcome, hrule⟩ := rollbackRule_of_atLeast hatLeast
  have hcalm := calm_installIntelligenceEnvelope (m := ⟨nodes', tick⟩) huninterrupted
    (h.plain hplain) hreached hrule
  obtain ⟨_, m, hreturned, rfl, hinstalled, -⟩ := hcalm.returns
  exact ⟨outcome, m, hreturned,
    hinstalled.namesCatalog huninterrupted.valid (beside_storeNames stateDir)⟩

/-! ### A store for one key -/

namespace Sample

open Intelligence.Sample (catalog canonical catalogDigest library)
open Feed.Sample (runtime keyring keyringFile keyringPath stateDir current env)

/-- A payload with the catalog. -/
def payload (sequence : Int) (expires : String) : Members :=
  [(str "catalog", .obj catalog), (str "catalog_sha256", .str (hexText catalogDigest)),
    (str "expires_at", .str (str expires)), (str "generated_at", Intelligence.Sample.day),
    (str "policy", Intelligence.Sample.policy), (str "schema", .str intelligencePayloadSchema),
    (str "sequence", .int sequence)]

def document (payload : Members) (signature : Bytes) : Members :=
  [(str "algorithm", .str (str "ed25519")), (str "key_id", .str (str "key-1")),
    (str "payload", .obj payload), (str "schema", .str envelopeSchema),
    (str "signature", .str (Base64.encode signature))]

/-- A payload with its signature. -/
structure Signed where
  sequence : Int
  expires : String
  signature : Str

def Signed.payload (s : Signed) : Members := Sample.payload s.sequence s.expires

def Signed.bytes (s : Signed) : Bytes := (Base64.decode s.signature).getD []

def Signed.document (s : Signed) : Members := Sample.document s.payload s.bytes

/-- What is verified of the envelope. -/
def Signed.verified (s : Signed) : VerifiedEnvelope :=
  ⟨.obj s.document, s.payload, str "key-1", s.sequence, hexText catalogDigest⟩

def first : Signed := ⟨7, "2026-01-14T00:00:00Z", str
  "djXvtQpBQ+fihVqRtYAeYSoq5GuR1P7iyVnrsTbxN/HEQ51DowQv/p0NCBlK8+gOuCwyh9zfTPVwAr0dLPm7AQ=="⟩

/-- The sequence and the catalog of the first envelope, with another expiry. -/
def again : Signed := ⟨7, "2026-01-15T00:00:00Z", str
  "VwwrwF4OORUhVf8vElTyxd5REII4THNb0z+dwAJCG07+gML45o6vA9chBGQx+nklrEbUm6REYOpNsjagU6vzAQ=="⟩

def second : Signed := ⟨8, "2026-01-14T00:00:00Z", str
  "sBJO8PE5dLrjG63hQmEjIfR9GEN56C/MbjgVfgITarLTSjEpfse8kS9etLzobB/ihdfzh+I3rbIDPMpTMoYZDQ=="⟩

def crypto : Crypto := Intelligence.Sample.crypto
  ([first, again, second].map fun s => (s.bytes, canonical (.obj s.payload) ++ [10]))

/-- What is evaluated of the three envelopes. -/
instance evaluated : Fact (
    ∀ s ∈ [first, again, second], Json.Ordered s.payload ∧ Json.Ordered s.document ∧
    (s.bytes.length = 64 ∧ (Base64.encode s.bytes).length ≤ 256) ∧
    Json.isPlain runtime.intDigits (.int s.sequence) = true ∧
    (1 ≤ s.sequence ∧ s.sequence < 2 ^ 63) ∧
    (Json.keysAre s.payload intelligencePayloadFields = true ∧
      isText (field s.payload "schema") intelligencePayloadSchema = true) ∧
    Intelligence.isPolicy (field s.payload "policy") Intelligence.dataOnlyPolicy = true ∧
    intelligenceWindow runtime s.payload current = .ok () ∧
    Json.keysAre s.document Feed.envelopeFields = true ∧
    (isText (field s.document "schema") envelopeSchema = true ∧
      isText (field s.document "algorithm") (str "ed25519") = true) ∧
    Json.weight .pretty 0 (.obj s.document) ≤ maxIntelligenceBytes) :=
  ⟨by decide +kernel⟩

variable {s : Signed} (hs : s ∈ [first, again, second])

include hs

theorem plain_payload : Json.isPlain runtime.intDigits (.obj s.payload) = true := by
  obtain ⟨hordered, -, -, hsequence, -⟩ := evaluated.out s hs
  refine (Json.isPlain_obj _ _).2 ⟨hordered.nodup, ?_, ?_⟩
  · simp [Signed.payload, payload, Text.encodable_str]
  · have hdigest : Text.Encodable (hexText catalogDigest) :=
      Feed.encodable_of_isSha256 (Feed.isSha256_hexText rfl)
    simp [Signed.payload, payload, Text.encodable_str, Intelligence.Sample.plain_catalog,
      Intelligence.Sample.plain_policy, Intelligence.Sample.day, intelligencePayloadSchema, hdigest,
      hsequence]

theorem plain_document : Json.isPlain runtime.intDigits (.obj s.document) = true := by
  obtain ⟨-, hordered, -⟩ := evaluated.out s hs
  have hpayload := plain_payload hs
  refine (Json.isPlain_obj _ _).2 ⟨hordered.nodup, ?_, ?_⟩
  · simp [Signed.document, document, Text.encodable_str]
  · simp [Signed.document, document, Text.encodable_str, hpayload, envelopeSchema,
      Feed.encodable_encode]

theorem sorted_payload : (Json.obj s.payload).sortKeys = .obj s.payload := by
  obtain ⟨hpayload, -⟩ := evaluated.out s hs
  refine Json.sortKeys_obj_of_ordered hpayload ?_
  simp only [Signed.payload, payload, List.forall_mem_cons, Intelligence.Sample.sorted_catalog,
    Intelligence.Sample.sorted_policy, Intelligence.Sample.day]
  simp [Json.sortKeys]

theorem sorted_document : (Json.obj s.document).sortKeys = .obj s.document := by
  obtain ⟨-, hdocument, -⟩ := evaluated.out s hs
  have hsorted := sorted_payload hs
  refine Json.sortKeys_obj_of_ordered hdocument ?_
  simp only [Signed.document, document, List.forall_mem_cons, hsorted]
  simp [Json.sortKeys]

theorem writable_document : Util.Writable runtime (.obj s.document) := by
  refine Intelligence.Sample.writable_of_isPlain (plain_document hs) ?_
  change (Json.obj (document (payload 0 "") [])).depth ≤ 64
  decide

theorem writable_payload : Util.Writable runtime (.obj s.payload) := by
  refine Intelligence.Sample.writable_of_isPlain (plain_payload hs) ?_
  change (Json.obj (payload 0 "")).depth ≤ 64
  decide

/-- The bytes of an envelope are read. -/
theorem readIntelligenceEnvelope_bytes :
    readIntelligenceEnvelope runtime (Feed.Sample.bytes (.obj s.document)) =
      .ok (s.document, str "key-1") := by
  obtain ⟨-, -, -, -, -, -, -, -, hkeys, hidentity, hweight⟩ := evaluated.out s hs
  have hwritable := writable_document hs
  have hsize : (Feed.Sample.bytes (.obj s.document)).length ≤ maxIntelligenceBytes := by
    have hencoded := Util.encodeJson_eq_ok (Feed.Sample.bytes_eq hwritable)
    rw [Text.length_encodeUtf8 hencoded, Json.text, Json.utf8Size_sortKeys]
    exact (Json.utf8Size_layout_le _ _ 0).trans hweight
  have hloads := Feed.Sample.loads_bytes hwritable
  rw [sorted_document hs] at hloads
  have hopen : openEnvelope (str "intelligence") (.obj s.document) = .ok s.document := by
    simp only [openEnvelope, bind_eq_ok, fromOption_eq_ok, require_eq_ok]
    exact ⟨_, rfl, (), hkeys, (), hidentity, rfl⟩
  simp only [readIntelligenceEnvelope, bind_eq_ok, require_eq_ok, fromOption_eq_ok]
  exact ⟨(), hsize, _, hloads, _, hopen, str "key-1", rfl, rfl⟩

theorem verifySignature_payload : verifySignature runtime crypto (str "intelligence")
    ⟨str "key-1", Feed.Sample.publicKey, .active, none, none⟩ (field s.document "signature")
      s.payload = .ok () := by
  obtain ⟨-, -, ⟨hlength, hencoded⟩, -⟩ := evaluated.out s hs
  have hdecoded : decodeSignature (field s.document "signature") = .ok s.bytes := by
    simp only [decodeSignature, bind_eq_ok, fromOption_eq_ok, require_eq_ok]
    exact ⟨_, rfl, (), hencoded, _, Base64.decode_encode _, (), ⟨hlength, rfl⟩, rfl⟩
  have hcanonical := Intelligence.Sample.canonical_eq (writable_payload hs)
  have hmem : (s.bytes, canonical (.obj s.payload) ++ [10]) ∈
      [first, again, second].map fun s => (s.bytes, canonical (.obj s.payload) ++ [10]) :=
    List.mem_map_of_mem hs
  refine bind_eq_ok.2 ⟨_, hdecoded, ?_⟩
  rw [hcanonical]
  exact require_eq_ok.2 (decide_eq_true ⟨rfl, hmem⟩)

theorem verifyIntelligencePayload_payload :
    verifyIntelligencePayload runtime crypto library s.payload current =
      .ok (s.sequence, hexText catalogDigest) := by
  obtain ⟨-, -, -, -, hrange, hkeys, hpolicy, hwindow, -⟩ := evaluated.out s hs
  have hcatalog : verifyCatalog runtime crypto library s.payload = .ok (hexText catalogDigest) := by
    have hvalid := Intelligence.Sample.catalog_valid
      ([first, again, second].map fun s => (s.bytes, canonical (.obj s.payload) ++ [10]))
    have hfield : field s.payload "catalog" = .obj catalog := rfl
    simp only [verifyCatalog, hfield, bind_eq_ok, mapError_eq_ok, require_eq_ok]
    refine ⟨_, hvalid, _, Intelligence.Sample.canonical_eq Intelligence.Sample.writable_catalog, (),
      ?_, ?_⟩
    · rw [crypto, Intelligence.Sample.hexdigest_crypto, Intelligence.Sample.digest_catalog]
      exact isText_iff.2 rfl
    · rw [crypto, Intelligence.Sample.hexdigest_crypto, Intelligence.Sample.digest_catalog]
      rfl
  simp only [verifyIntelligencePayload, bind_eq_ok, require_eq_ok, fromOption_eq_ok]
  exact ⟨(), hkeys, (), hpolicy, s.sequence, rfl, (), hrange, (), hwindow, _, hcatalog, rfl⟩

/-- The envelope is verified with the keyring. -/
theorem verifyIntelligenceMembers_document :
    verifyIntelligenceMembers runtime crypto library s.document (str "key-1") keyring current =
      .ok s.verified := by
  have hactive : activeKey (str "intelligence") (Json.lookup (str "key-1") keyring) current =
      .ok ⟨str "key-1", Feed.Sample.publicKey, .active, none, none⟩ := rfl
  simp only [verifyIntelligenceMembers, bind_eq_ok, fromOption_eq_ok]
  exact ⟨_, hactive, _, rfl, (), verifySignature_payload hs, _, verifyIntelligencePayload_payload hs,
    rfl⟩

omit hs

theorem nodes_eq_none (name : Str) :
    Feed.Sample.nodes (Disk.join (intelligenceDirectory stateDir) name) = none := by
  refine if_neg ?_
  intro heq
  have hhead := congrArg (fun p : Str => p[1]?) heq
  have hne : some (Text.ofChar 's') ≠ some (Text.ofChar 'k') := by decide
  exact hne hhead

theorem plain_nodes : Util.Plain (intelligenceDirectory stateDir) Feed.Sample.nodes := by
  intro name
  rw [nodes_eq_none]
  simp

theorem nothing_committed : Committed runtime stateDir Feed.Sample.nodes none := nodes_eq_none _

/-- The keyring file is there, and the files of the store can be written. -/
structure Ready (nodes : Disk.Nodes) : Prop where
  keyring : Disk.content nodes keyringPath = some (Feed.Sample.bytes keyringFile)
  clear : Util.Clear (env .done) (intelligenceDirectory stateDir) storeNames nodes
  plain : Util.Plain (intelligenceDirectory stateDir) nodes

theorem ready_nodes : Ready Feed.Sample.nodes :=
  ⟨Feed.Sample.keyring_content, ⟨fun name _ => plain_nodes name, fun _ _ _ => nodes_eq_none _⟩,
    plain_nodes⟩

/-- Nothing interrupts a call. -/
theorem Ready.uninterrupted {nodes : Disk.Nodes} (h : Ready nodes) (hs : s ∈ [first, again, second]) :
    Uninterrupted runtime crypto library (env .done) (Feed.Sample.bytes (.obj s.document)) stateDir
      keyringPath current nodes s.verified :=
  ⟨Feed.Sample.calm, h.clear.free, s.document, str "key-1", Feed.Sample.bytes keyringFile,
    Feed.Sample.keyring, readIntelligenceEnvelope_bytes hs, h.keyring,
    Feed.Sample.bytes_small.out.1, Feed.Sample.parsed_keyring, verifyIntelligenceMembers_document hs⟩

theorem keyringPath_ne (name : Str) : keyringPath ≠ Disk.join (intelligenceDirectory stateDir) name := by
  intro heq
  have hhead := congrArg (fun p : Str => p[1]?) heq
  have hne : some (Text.ofChar 'k') ≠ some (Text.ofChar 's') := by decide
  exact hne hhead

theorem valid_verified (hs : s ∈ [first, again, second]) : s.verified.Valid runtime crypto library :=
  (ready_nodes.uninterrupted hs).valid

/-- A call with an admitted envelope returns, and the next call can be made. -/
theorem Ready.installs {nodes : Disk.Nodes} (h : Ready nodes) (hs : s ∈ [first, again, second])
    {previous : Option IntelligenceState} {outcome : Feed.InstallOutcome}
    (hprevious : Committed runtime stateDir nodes previous)
    (hrule : rollbackRule s.verified previous = .ok outcome) (tick : Nat) :
    ∃ m, installIntelligenceEnvelope runtime crypto library (Feed.Sample.bytes (.obj s.document))
        stateDir keyringPath current (env .done) ⟨nodes, tick⟩ = (.ok (outcome, s.verified), m) ∧
      Installed runtime stateDir (Util.Beside (intelligenceDirectory stateDir)) nodes s.verified
        current outcome m.nodes ∧ Ready m.nodes := by
  have hcalm := calm_installIntelligenceEnvelope (m := ⟨nodes, tick⟩) (h.uninterrupted hs) h.plain
    hprevious hrule
  obtain ⟨_, m, hreturned, rfl, hinstalled, hclear⟩ := hcalm.returns
  have hstep : Step runtime crypto library stateDir nodes _ :=
    .install (env .done) (Feed.Sample.bytes (.obj s.document)) keyringPath current ⟨nodes, tick⟩
      fun _ _ _ => rfl
  rw [hreturned] at hstep
  refine ⟨m, hreturned, hinstalled, ?_, hclear, hstep.plain h.plain⟩
  obtain ⟨catalog, envelope, state, -, -, hwrote⟩ := hinstalled
  have hbeside : Util.Beside (intelligenceDirectory stateDir) keyringPath :=
    ⟨by decide, keyringPath_ne _⟩
  have hkept := hwrote.other hbeside ?_
  · rw [Disk.content, hkept]
    exact h.keyring
  · refine Json.lookup_eq_none.2 fun hmem => ?_
    obtain ⟨w, hw, hpath⟩ := List.mem_map.1 hmem
    obtain ⟨name, hname⟩ := callWrites_join hw
    exact keyringPath_ne name (hpath.symm.trans hname)

theorem committed_of_installed {nodes nodes' : Disk.Nodes} {outcome : Feed.InstallOutcome}
    (hs : s ∈ [first, again, second])
    (h : Installed runtime stateDir (Util.Beside (intelligenceDirectory stateDir)) nodes s.verified
      current outcome nodes') :
    Committed runtime stateDir nodes' (some (IntelligenceState.commits s.verified)) :=
  (h.namesCatalog (valid_verified hs) (beside_storeNames stateDir)).state

end Sample

open Sample in
/-- A call that is cut at once, and then one that installs the envelope with sequence 7. -/
theorem updates_converge_cutAtOnce : ∃ outcome m,
    installIntelligenceEnvelope Feed.Sample.runtime crypto Intelligence.Sample.library
        (Feed.Sample.bytes (.obj first.document)) Feed.Sample.stateDir Feed.Sample.keyringPath
        Feed.Sample.current (Feed.Sample.env .done) ⟨Feed.Sample.nodes, 0⟩ =
      (.ok (outcome, first.verified), m) ∧
    NamesCatalog Feed.Sample.runtime crypto Feed.Sample.stateDir m.nodes first.verified := by
  have hcut : (installIntelligenceEnvelope Feed.Sample.runtime crypto Intelligence.Sample.library
      (Feed.Sample.bytes (.obj first.document)) Feed.Sample.stateDir Feed.Sample.keyringPath
      Feed.Sample.current (Feed.Sample.env .stops) ⟨Feed.Sample.nodes, 0⟩).2.nodes =
        Feed.Sample.nodes := by
    unfold installIntelligenceEnvelope verifyIntelligenceEnvelope
    rw [readIntelligenceEnvelope_bytes (by simp)]
    rfl
  have hstep : Step Feed.Sample.runtime crypto Intelligence.Sample.library Feed.Sample.stateDir
      Feed.Sample.nodes _ := .install (Feed.Sample.env .stops)
    (Feed.Sample.bytes (.obj first.document)) Feed.Sample.keyringPath Feed.Sample.current
    ⟨Feed.Sample.nodes, 0⟩ fun _ _ _ => rfl
  rw [hcut] at hstep
  have hreached : Reaches Feed.Sample.runtime crypto Intelligence.Sample.library
      Feed.Sample.stateDir Feed.Sample.nodes Feed.Sample.nodes := .single hstep
  obtain ⟨reached, hreached, hlater, hinstalls⟩ := updates_converge Feed.Sample.runtime crypto
    Intelligence.Sample.library Feed.Sample.stateDir plain_nodes nothing_committed hreached
  have hnone : reached = none := hreached.unique nothing_committed
  refine hinstalls _ _ _ _ 0 first.verified (ready_nodes.uninterrupted (by simp)) ?_
  rw [hnone]
  nofun

end ZsecShield.Updates
