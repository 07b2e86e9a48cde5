import ZsecShield.Feed.Inspect

/-!
# Rollback protection over runs

A run is a sequence of calls of `install_feed` on one store, any of which may fail or be
cut anywhere.  Over a run the committed sequence does not decrease and keeps its digest
while it stays the same (`Reaches.commits`), and a feed whose call was cut can be installed
again (`calm_installFeed`).
-/

namespace ZsecShield.Feed

open Text (Str str)
open Effect
open Checks

/-! ## The paths of the store -/

theorem parent_document (stateDir : Path) :
    Disk.parent (feedDocumentPath stateDir) = feedDirectory stateDir :=
  Disk.parent_join (by decide)

theorem parent_state (stateDir : Path) :
    Disk.parent (feedStatePath stateDir) = feedDirectory stateDir :=
  Disk.parent_join (by decide)

theorem parent_lock (stateDir : Path) :
    Disk.parent (feedLockPath stateDir) = feedDirectory stateDir :=
  Disk.parent_join (by decide)

theorem temporary_document (stateDir : Path) :
    Util.temporaryPrefix (feedDocumentPath stateDir) = str ".current.json." := by
  rw [Util.temporaryPrefix, feedDocumentPath, Disk.name_join (by decide)]
  decide

theorem temporary_state (stateDir : Path) :
    Util.temporaryPrefix (feedStatePath stateDir) = str ".state.json." := by
  rw [Util.temporaryPrefix, feedStatePath, Disk.name_join (by decide)]
  decide

/-- Names of the directory that differ in their first character are different paths. -/
theorem join_ne {directory a b : Str} (h : a.head? ≠ b.head?) :
    Disk.join directory a ≠ Disk.join directory b := by
  intro heq
  exact h (congrArg List.head? (Disk.join_inj heq))

/-- A temporary name that starts like no stored name. -/
theorem temporary_ne {directory t n : Str} (s : Str) (ht : t ≠ []) (h : t.head? ≠ n.head?) :
    Disk.join directory (t ++ s) ≠ Disk.join directory n := by
  refine join_ne ?_
  rw [List.head?_append_of_ne_nil _ ht]
  exact h

theorem document_ne_state (stateDir : Path) :
    feedDocumentPath stateDir ≠ feedStatePath stateDir := join_ne (by decide)

theorem document_ne_lock (stateDir : Path) :
    feedDocumentPath stateDir ≠ feedLockPath stateDir := join_ne (by decide)

theorem state_ne_lock (stateDir : Path) :
    feedStatePath stateDir ≠ feedLockPath stateDir := join_ne (by decide)

theorem temporary_ne_lock {stateDir : Path} {name : Str}
    (h : name = str ".current.json." ∨ name = str ".state.json.") (s : Str) :
    Disk.join (feedDirectory stateDir) (name ++ s) ≠ feedLockPath stateDir := by
  intro heq
  have hsecond := congrArg (fun n : Str => n[1]?) (Disk.join_inj heq)
  rcases h with rfl | rfl
  · have hne : some (Text.ofChar 'c') ≠ some (Text.ofChar 'u') := by decide
    exact hne hsecond
  · have hne : some (Text.ofChar 's') ≠ some (Text.ofChar 'u') := by decide
    exact hne hsecond

/-- The two files of the store. -/
def Stored (stateDir : Path) (p : Path) : Prop :=
  p = feedDocumentPath stateDir ∨ p = feedStatePath stateDir

/-- Other processes leave the files of the store alone. -/
def Undisturbed (env : Util.Os) (stateDir : Path) : Prop :=
  ∀ t nodes name, env.others t nodes (Disk.join (feedDirectory stateDir) name) =
    nodes (Disk.join (feedDirectory stateDir) name)

theorem Undisturbed.watched_of {env : Util.Os} {stateDir : Path} (h : Undisturbed env stateDir)
    {T : Path → Prop} (hstored : ∀ p, Stored stateDir p → T p)
    (hothers : ∀ t nodes, Disk.Same T nodes (env.others t nodes))
    (hparent : ∀ p, T p → Disk.Action.isParent p (feedDirectory stateDir) = false)
    (hinside : ∀ name, T (Disk.join (feedDirectory stateDir) name) →
      Stored stateDir (Disk.join (feedDirectory stateDir) name)) : Watched env stateDir T := by
  refine ⟨hstored _ (.inl rfl), hstored _ (.inr rfl), ⟨hothers, ?_, ?_⟩, ⟨hothers, ?_, ?_, ?_⟩,
    ⟨hothers, ?_, ?_, ?_⟩⟩
  · rw [parent_lock]
    exact hparent
  · intro hlock
    rcases hinside _ hlock with hlock | hlock
    · exact document_ne_lock stateDir hlock.symm
    · exact state_ne_lock stateDir hlock.symm
  · intro t nodes s
    rw [parent_document]
    exact h t nodes _
  · rw [parent_document]
    exact hparent
  · intro s hs
    rw [parent_document, temporary_document] at hs
    rcases hinside _ hs with hs | hs <;> exact temporary_ne s (by decide) (by decide) hs
  · intro t nodes s
    rw [parent_state]
    exact h t nodes _
  · rw [parent_state]
    exact hparent
  · intro s hs
    rw [parent_state, temporary_state] at hs
    rcases hinside _ hs with hs | hs <;> exact temporary_ne s (by decide) (by decide) hs

theorem Undisturbed.watched {env : Util.Os} {stateDir : Path} (h : Undisturbed env stateDir) :
    Watched env stateDir (Stored stateDir) := by
  refine h.watched_of (fun _ hp => hp) ?_ ?_ fun _ hp => hp
  · intro t nodes p hp
    rcases hp with rfl | rfl <;> exact h t nodes _
  · intro p hp
    rcases hp with rfl | rfl <;> exact Disk.isParent_join _ _

/-! ## Runs -/

/-- What is committed on a disk. -/
def Committed (rt : Runtime) (stateDir : Path) (nodes : Disk.Nodes) (state : Option FeedState) :
    Prop :=
  StateIn rt nodes (feedStatePath stateDir) state

/-- A call of `install_feed` with any bytes at any time, which may end in any way. -/
inductive Step (rt : Runtime) (crypto : Crypto) (stateDir : Path) : Disk.Nodes → Disk.Nodes → Prop
  | install (env : Util.Os) (raw : Bytes) (keyringPath : Path) (current : DateTime)
      (m : Disk.Machine) (h : Undisturbed env stateDir) :
      Step rt crypto stateDir m.nodes
        (installFeed rt crypto raw stateDir keyringPath current env m).2.nodes

abbrev Reaches (rt : Runtime) (crypto : Crypto) (stateDir : Path) :
    Disk.Nodes → Disk.Nodes → Prop :=
  Relation.ReflTransGen (Step rt crypto stateDir)

/-- A state may follow another one: the sequence does not decrease, and the digest changes
only with it. -/
def Follows (old new : FeedState) : Prop :=
  old.maxSequence ≤ new.maxSequence ∧
    (new.maxSequence = old.maxSequence → new.currentPayloadSha256 = old.currentPayloadSha256)

theorem Follows.refl (state : FeedState) : Follows state state := ⟨le_refl _, fun _ => rfl⟩

theorem Follows.trans {a b c : FeedState} (h : Follows a b) (h' : Follows b c) : Follows a c := by
  refine ⟨h.1.trans h'.1, ?_⟩
  intro heq
  have hab : b.maxSequence = a.maxSequence := le_antisymm (heq ▸ h'.1) h.1
  exact (h'.2 (heq.trans hab.symm)).trans (h.2 hab)

/-- What the rollback rule admits may follow the previous state. -/
theorem follows_of_rollbackRule {verified : VerifiedFeed} {previous : FeedState}
    {outcome : InstallOutcome} (h : rollbackRule verified (some previous) = .ok outcome)
    (current : DateTime) : Follows previous (FeedState.commits verified current) := by
  simp only [rollbackRule, bind_eq_ok, require_eq_ok] at h
  obtain ⟨_, hle, h⟩ := h
  refine ⟨hle, ?_⟩
  intro (heq : verified.sequence = previous.maxSequence)
  rw [if_pos heq] at h
  obtain ⟨_, hdigest, -⟩ := bind_eq_ok.1 h
  exact require_eq_ok.1 hdigest

section Runs

variable {rt : Runtime} {crypto : Crypto} {stateDir : Path} {T : Path → Prop} {nodes : Disk.Nodes}
  {verified : VerifiedFeed} {current : DateTime} {raw : Bytes} {keyringPath : Path}

theorem VerifiedFrom.valid (h : VerifiedFrom rt crypto raw keyringPath current T nodes verified) :
    (FeedState.commits verified current).Valid := by
  obtain ⟨source, keyring, hsource, -, hverified⟩ := h
  exact valid_commits (identified_of_parseKeyring hsource) hverified current

/-- After both replacements the feed is committed. -/
theorem Installed.stateIn {outcome : InstallOutcome} {m : Disk.Machine}
    (h : Installed rt stateDir T nodes verified current outcome m)
    (hvalid : (FeedState.commits verified current).Valid) (hT : T (feedStatePath stateDir)) :
    Committed rt stateDir m.nodes (some (FeedState.commits verified current)) := by
  obtain ⟨document, state, hadmits, mid, -, hstate⟩ := h
  exact hvalid.stateIn hadmits.state (hstate.content hT)

/-- What a call may leave behind, as the rollback state sees it: nothing has changed, or
an admitted feed is committed. -/
theorem Partly.committed {m : Disk.Machine} (h : Partly rt stateDir T nodes verified current m)
    (hvalid : (FeedState.commits verified current).Valid) (hT : T (feedStatePath stateDir)) :
    m.nodes (feedStatePath stateDir) = nodes (feedStatePath stateDir) ∨
      (∃ previous outcome, Committed rt stateDir nodes previous ∧
        rollbackRule verified previous = .ok outcome) ∧
      Committed rt stateDir m.nodes (some (FeedState.commits verified current)) := by
  rcases h with h | ⟨_, _, _, -, -, -, h⟩ | ⟨outcome, h⟩
  · exact .inl (h _ hT)
  · exact .inl (h.other hT (document_ne_state stateDir).symm)
  · have hcommitted := h.stateIn hvalid hT
    obtain ⟨_, _, hadmits, -⟩ := h
    obtain ⟨previous, hprevious, hrule⟩ := hadmits.rule
    exact .inr ⟨⟨previous, outcome, hprevious, hrule⟩, hcommitted⟩

/-- A call has committed the feed it was given. -/
def CommitsFeed (rt : Runtime) (crypto : Crypto) (raw : Bytes) (stateDir keyringPath : Path)
    (current : DateTime) (nodes nodes' : Disk.Nodes) : Prop :=
  ∃ verified, VerifiedFrom rt crypto raw keyringPath current (fun _ => False) nodes verified ∧
    (∃ previous outcome, Committed rt stateDir nodes previous ∧
      rollbackRule verified previous = .ok outcome) ∧
    Committed rt stateDir nodes' (some (FeedState.commits verified current))

/-- One call keeps the committed state or commits an admitted feed. -/
theorem wp_commits {env : Util.Os} (h : Undisturbed env stateDir) (raw : Bytes)
    (keyringPath : Path) (current : DateTime) (m : Disk.Machine) :
    wp env (installFeed rt crypto raw stateDir keyringPath current)
      (Assertion.always fun m' =>
        m'.nodes (feedStatePath stateDir) = m.nodes (feedStatePath stateDir) ∨
          CommitsFeed rt crypto raw stateDir keyringPath current m.nodes m'.nodes).post m := by
  have hcut : ∀ m' : Disk.Machine, (Util.Before (Stored stateDir) m.nodes m' ∨ ∃ verified,
      VerifiedFrom rt crypto raw keyringPath current (fun _ => False) m.nodes verified ∧
        Partly rt stateDir (Stored stateDir) m.nodes verified current m') →
      m'.nodes (feedStatePath stateDir) = m.nodes (feedStatePath stateDir) ∨
        CommitsFeed rt crypto raw stateDir keyringPath current m.nodes m'.nodes := by
    intro m' hm'
    rcases hm' with hm' | ⟨verified, hfrom, hpartly⟩
    · exact .inl (hm' _ (.inr rfl))
    · rcases hpartly.committed hfrom.valid (.inr rfl) with hsame | hcommitted
      · exact .inl hsame
      · exact .inr ⟨verified, hfrom, hcommitted⟩
  refine (wp_installFeed h.watched (fun _ _ _ => False.elim) raw keyringPath m).mono ⟨?_, fun _ => hcut, hcut⟩
  intro r m' hm'
  exact hcut m' (.inr ⟨r.2, hm'.1, .inr (.inr ⟨r.1, hm'.2⟩)⟩)

theorem Step.commits {nodes nodes' : Disk.Nodes} (h : Step rt crypto stateDir nodes nodes')
    {state : FeedState} (hstate : Committed rt stateDir nodes (some state)) :
    ∃ state', Committed rt stateDir nodes' (some state') ∧ Follows state state' := by
  cases h with
  | install env raw keyringPath current m hothers =>
      rcases (wp_commits hothers raw keyringPath current m).always with
        hsame | ⟨verified, -, ⟨previous, outcome, hprevious, hrule⟩, hcommitted⟩
      · exact ⟨state, hstate.of_eq hsame, Follows.refl state⟩
      · cases hstate.unique hprevious
        exact ⟨_, hcommitted, follows_of_rollbackRule hrule current⟩

/-- Over a run the committed state is only ever replaced by one that may follow it. -/
theorem Reaches.commits {nodes nodes' : Disk.Nodes} (h : Reaches rt crypto stateDir nodes nodes')
    {state : FeedState} (hstate : Committed rt stateDir nodes (some state)) :
    ∃ state', Committed rt stateDir nodes' (some state') ∧ Follows state state' := by
  induction h with
  | refl => exact ⟨state, hstate, Follows.refl state⟩
  | tail _ hstep ih =>
      obtain ⟨mid, hmid, hfollows⟩ := ih
      obtain ⟨last, hlast, hfollows'⟩ := hstep.commits hmid
      exact ⟨last, hlast, hfollows.trans hfollows'⟩

end Runs

/-! ## A call that nothing stands in the way of -/

/-- The environment is calm, the files of the store can be written, and the keyring file
holds a keyring that verifies the feed. -/
structure Unhindered (rt : Runtime) (crypto : Crypto) (env : Util.Os) (raw : Bytes)
    (stateDir keyringPath : Path) (current : DateTime) (nodes : Disk.Nodes)
    (verified : VerifiedFeed) : Prop where
  calm : Disk.Calm env
  document : nodes (feedDocumentPath stateDir) ≠ some .directory
  lock : nodes (feedLockPath stateDir) ≠ some .directory
  free : ∀ name t, name = str ".current.json." ∨ name = str ".state.json." →
    nodes (Disk.join (feedDirectory stateDir) (name ++ env.fresh t)) = none
  keyring : ∃ source keyring, Disk.content nodes keyringPath = some source ∧
    source.length ≤ maxKeyringBytes ∧ parseKeyring rt source = .ok keyring ∧
    verifyFeedDocument rt crypto raw keyring current = .ok verified

section Unhindered

variable {rt : Runtime} {crypto : Crypto} {env : Util.Os} {stateDir keyringPath : Path}
  {current : DateTime} {raw : Bytes} {verified : VerifiedFeed} {m : Disk.Machine}

/-- An accepted document is written. -/
theorem encodeJson_document {keyring : Keyring} (hkeyring : Identified keyring)
    (h : verifyFeedDocument rt crypto raw keyring current = .ok verified) :
    ∃ document, Util.encodeJson rt .pretty verified.document = .ok document := by
  obtain ⟨_, -, hparsed⟩ := bind_eq_ok.1 h
  obtain ⟨root, hloads, hroot⟩ := bind_eq_ok.1 hparsed
  have hwritable := writable_of_verifyRoot hkeyring (Util.distinct_of_strictJsonLoads hloads) hroot
  obtain ⟨_, rfl, _, _, _, -, _, _, _, _, -, rfl⟩ := verifyRoot_eq_ok.1 hroot
  exact hwritable.encodeJson (Text.encodable_str _)

theorem isParent_stored (stateDir name : Path) :
    Disk.Action.isParent (Disk.join (feedDirectory stateDir) name) (feedDirectory stateDir) =
      false := Disk.isParent_join _ _

theorem isParent_document (stateDir : Path) :
    Disk.Action.isParent (feedDocumentPath stateDir) (feedDirectory stateDir) = false :=
  Disk.isParent_join _ _

theorem isParent_state (stateDir : Path) :
    Disk.Action.isParent (feedStatePath stateDir) (feedDirectory stateDir) = false :=
  Disk.isParent_join _ _

theorem not_directory_of_stateIn {nodes : Disk.Nodes} {path : Path} {state : Option FeedState}
    (h : StateIn rt nodes path state) : nodes path ≠ some .directory := by
  cases state with
  | none =>
      rw [StateIn] at h
      rw [h]
      simp
  | some _ =>
      obtain ⟨raw, hraw, -⟩ := h
      obtain ⟨f, hf⟩ := isFile_of_content hraw
      rw [hf]
      simp

/-- The part under the lock. -/
theorem calm_installVerified (h : Disk.Calm env) {previous : Option FeedState}
    {outcome : InstallOutcome} {document : Bytes}
    (hvalid : (FeedState.commits verified current).Valid)
    (hdocument : m.nodes (feedDocumentPath stateDir) ≠ some .directory)
    (hfree : ∀ name t, name = str ".current.json." ∨ name = str ".state.json." →
      m.nodes (Disk.join (feedDirectory stateDir) (name ++ env.fresh t)) = none)
    (hprevious : Committed rt stateDir m.nodes previous)
    (hrule : rollbackRule verified previous = .ok outcome)
    (hencode : Util.encodeJson rt .pretty verified.document = .ok document) :
    wp env (installVerified rt stateDir verified current)
      ⟨fun r m' => r = outcome ∧
          Disk.content m'.nodes (feedDocumentPath stateDir) = some (document ++ [10]) ∧
          Committed rt stateDir m'.nodes (some (FeedState.commits verified current)),
        fun _ _ => False, fun _ => False⟩ m := by
  obtain ⟨state, hstate⟩ := (hvalid.writable rt).encodeJson (σ := .pretty) (Text.encodable_str _)
  unfold installVerified
  refine wp.bind (calm_readState h hprevious) ?_ (fun _ _ => False.elim) fun _ => False.elim
  rintro _ m₁ ⟨rfl, hm₁⟩
  rw [wp_bind, hrule, wp_liftExcept_ok, Post.withOk_ok, wp_bind, hencode, wp_liftExcept_ok,
    Post.withOk_ok]
  refine wp.bind (Util.calm_atomicWriteBytes h _ _ m₁ ?_ ?_ ?_ ?_ ?_) ?_
    (fun _ _ => False.elim) fun _ => False.elim
  · rw [parent_document]
    exact isParent_stored stateDir _
  · intro s
    rw [parent_document]
    exact isParent_stored stateDir _
  · intro t
    rw [parent_document, temporary_document, hm₁]
    exact hfree _ t (.inl rfl)
  · intro s
    rw [parent_document, temporary_document]
    exact (temporary_ne s (by decide) (by decide)).symm
  · rw [hm₁]
    exact hdocument
  rintro _ m₂ ⟨f, hf, hm₂⟩
  rw [parent_document] at hm₂
  have hother : ∀ p, Disk.Action.isParent p (feedDirectory stateDir) = false →
      p ≠ feedDocumentPath stateDir → m₂.nodes p = m.nodes p := by
    intro p hp hne
    rw [hm₂ p hp, Disk.put_other hne, hm₁]
  unfold Util.atomicWriteJson
  rw [wp_bind, wp_bind, hstate, wp_liftExcept_ok, Post.withOk_ok]
  refine (Util.calm_atomicWriteBytes h _ _ m₂ ?_ ?_ ?_ ?_ ?_).mono
    ⟨?_, fun _ _ => False.elim, fun _ => False.elim⟩
  · rw [parent_state]
    exact isParent_stored stateDir _
  · intro s
    rw [parent_state]
    exact isParent_stored stateDir _
  · intro t
    rw [parent_state, temporary_state, hother _ (isParent_stored stateDir _)
      (temporary_ne _ (by decide) (by decide))]
    exact hfree _ t (.inr rfl)
  · intro s
    rw [parent_state, temporary_state]
    exact (temporary_ne s (by decide) (by decide)).symm
  · rw [hother _ (isParent_state stateDir) (document_ne_state stateDir).symm]
    exact not_directory_of_stateIn hprevious
  rintro _ m₃ ⟨g, hg, hm₃⟩
  rw [parent_state] at hm₃
  refine ⟨rfl, ?_, ?_⟩
  · have hkept := hm₃ (feedDocumentPath stateDir) (isParent_document stateDir)
    have hwritten := hm₂ (feedDocumentPath stateDir) (isParent_document stateDir)
    rw [Disk.put_other (document_ne_state stateDir), hwritten, Disk.put_self] at hkept
    simp only [Disk.content, hkept, hf]
  · refine hvalid.stateIn hstate ?_
    have hwritten := hm₃ (feedStatePath stateDir) (isParent_state stateDir)
    rw [Disk.put_self] at hwritten
    simp only [Disk.content, hwritten, hg]

/-- A verified feed that the rollback rule admits is installed. -/
theorem calm_installFeed {previous : Option FeedState} {outcome : InstallOutcome}
    (h : Unhindered rt crypto env raw stateDir keyringPath current m.nodes verified)
    (hprevious : Committed rt stateDir m.nodes previous)
    (hrule : rollbackRule verified previous = .ok outcome) :
    wp env (installFeed rt crypto raw stateDir keyringPath current)
      ⟨fun r m' => r = (outcome, verified) ∧
          Committed rt stateDir m'.nodes (some (FeedState.commits verified current)),
        fun _ _ => False, fun _ => False⟩ m := by
  obtain ⟨source, keyring, hsource, hsize, hkeyring, hverified⟩ := h.keyring
  have hidentified := identified_of_parseKeyring hkeyring
  obtain ⟨document, hencode⟩ := encodeJson_document hidentified hverified
  have hvalid := valid_commits hidentified hverified current
  unfold installFeed
  refine wp.bind (calm_loadKeyring h.calm hsource hsize hkeyring) ?_ (fun _ _ => False.elim)
    fun _ => False.elim
  rintro _ m₁ ⟨rfl, hm₁⟩
  rw [wp_bind, hverified, wp_liftExcept_ok, Post.withOk_ok]
  let ok (r : InstallOutcome) (n : Disk.Nodes) : Prop :=
    r = outcome ∧ Committed rt stateDir n (some (FeedState.commits verified current))
  have hlocked : wp env (Util.updateLock (feedLockPath stateDir)
      (installVerified rt stateDir verified current))
      ⟨fun r m' => ok r m'.nodes, fun _ _ => False, fun _ => False⟩ m₁ := by
    refine Util.calm_updateLock h.calm ?_ ?_ ?_
    · rw [parent_lock]
      exact isParent_stored stateDir _
    · rw [hm₁]
      exact h.lock
    · intro m' hm'
      rw [parent_lock] at hm'
      have hsame : ∀ p, Disk.Action.isParent p (feedDirectory stateDir) = false →
          p ≠ feedLockPath stateDir → m'.nodes p = m.nodes p := by
        intro p hp hne
        rw [hm' p hne hp, hm₁]
      refine (calm_installVerified h.calm hvalid ?_ ?_ ?_ hrule hencode).mono ⟨?_, fun _ _ => False.elim, fun _ => False.elim⟩
      · rw [hsame _ (isParent_document stateDir) (document_ne_lock stateDir)]
        exact h.document
      · intro name t hname
        rw [hsame _ (isParent_stored stateDir _) (temporary_ne_lock hname _)]
        exact h.free name t hname
      · exact hprevious.of_eq (hsame _ (isParent_state stateDir) (state_ne_lock stateDir))
      · intro r m'' hm''
        exact ⟨hm''.1, hm''.2.2⟩
  refine wp.bind hlocked ?_ (fun _ _ => False.elim) fun _ => False.elim
  rintro r m₂ ⟨rfl, hm₂⟩
  exact ⟨rfl, hm₂⟩

/-- The sequence and the digest of a verified feed are read off its bytes. -/
theorem verified_unique {keyring keyring' : Keyring} {current' : DateTime}
    {verified' : VerifiedFeed}
    (h : verifyFeedDocument rt crypto raw keyring current = .ok verified)
    (h' : verifyFeedDocument rt crypto raw keyring' current' = .ok verified') :
    verified.sequence = verified'.sequence ∧ verified.payloadSha256 = verified'.payloadSha256 := by
  obtain ⟨_, -, hparsed⟩ := bind_eq_ok.1 h
  obtain ⟨root, hloads, hroot⟩ := bind_eq_ok.1 hparsed
  obtain ⟨_, -, hparsed'⟩ := bind_eq_ok.1 h'
  obtain ⟨root', hloads', hroot'⟩ := bind_eq_ok.1 hparsed'
  rw [hloads] at hloads'
  cases hloads'
  obtain ⟨members, rfl, keyId, payload, canonical, hsignature, sequence, _, _, _, hverified, rfl⟩ :=
    verifyRoot_eq_ok.1 hroot
  obtain ⟨members', heq, keyId', payload', canonical', hsignature', sequence', _, _, _, hverified',
    rfl⟩ := verifyRoot_eq_ok.1 hroot'
  cases heq
  obtain ⟨-, -, -, hpayload, hcanonical, -⟩ := verifySignature_eq_ok.1 hsignature
  obtain ⟨-, -, -, hpayload', hcanonical', -⟩ := verifySignature_eq_ok.1 hsignature'
  rw [hpayload] at hpayload'
  cases hpayload'
  rw [hcanonical] at hcanonical'
  cases hcanonical'
  refine ⟨?_, rfl⟩
  have hsequence := sequenceOf_of_verifyPayload hverified
  rw [sequenceOf_of_verifyPayload hverified'] at hsequence
  cases hsequence
  rfl

theorem rollbackRule_congr {verified' : VerifiedFeed} (hsequence : verified.sequence = verified'.sequence)
    (hdigest : verified.payloadSha256 = verified'.payloadSha256) (previous : Option FeedState) :
    rollbackRule verified previous = rollbackRule verified' previous := by
  simp only [rollbackRule, hsequence, hdigest]

/-- A committed feed is admitted again. -/
theorem rollbackRule_commits (verified : VerifiedFeed) (current : DateTime) :
    rollbackRule verified (some (FeedState.commits verified current)) = .ok .unchanged := by
  refine bind_eq_ok.2 ⟨(), require_eq_ok.2 (le_refl _), ?_⟩
  rw [if_pos (show verified.sequence = (FeedState.commits verified current).maxSequence from rfl)]
  exact bind_eq_ok.2 ⟨(), require_eq_ok.2 rfl, rfl⟩

/-- However a call ends, the rollback rule still admits its feed, if it did before. -/
theorem admitted_after {current' : DateTime} {previous : Option FeedState} {outcome : InstallOutcome} (h : Undisturbed env stateDir)
    {keyring : Keyring} (hverified : verifyFeedDocument rt crypto raw keyring current' = .ok verified)
    (hprevious : Committed rt stateDir m.nodes previous)
    (hrule : rollbackRule verified previous = .ok outcome) :
    ∃ previous' outcome', Committed rt stateDir
      (installFeed rt crypto raw stateDir keyringPath current env m).2.nodes previous' ∧
        rollbackRule verified previous' = .ok outcome' := by
  rcases (wp_commits h raw keyringPath current m).always with
    hsame | ⟨verified', ⟨source, keyring', -, -, hverified'⟩, -, hcommitted⟩
  · exact ⟨previous, outcome, hprevious.of_eq hsame, hrule⟩
  · obtain ⟨hsequence, hdigest⟩ := verified_unique hverified hverified'
    refine ⟨_, .unchanged, hcommitted, ?_⟩
    rw [rollbackRule_congr hsequence hdigest]
    exact rollbackRule_commits verified' current

end Unhindered

/-! ## Rollback protection -/

/-- Over every run of calls that may be cut anywhere: the committed sequence does not
decrease and has one digest; an inspection that answers `valid` has found the document that
the committed state names; and a feed that the rollback rule admitted before a call of it
was cut is installed by a further call that nothing stands in the way of. -/
theorem rollback_protection (rt : Runtime) (crypto : Crypto) (stateDir : Path)
    {nodes nodes' : Disk.Nodes} (h : Reaches rt crypto stateDir nodes nodes') :
    (∀ state, Committed rt stateDir nodes (some state) →
      ∃ state', Committed rt stateDir nodes' (some state') ∧
        state.maxSequence ≤ state'.maxSequence ∧
        (state'.maxSequence = state.maxSequence →
          state'.currentPayloadSha256 = state.currentPayloadSha256)) ∧
    (∀ env keyringPath current tick status rules m, Undisturbed env stateDir →
      inspectFeed rt crypto stateDir keyringPath current env ⟨nodes', tick⟩ =
        (.ok (status, rules), m) →
      status.state = .valid →
      ∃ verified, Named rt crypto stateDir current nodes' verified ∧
        status = FeedStatus.of verified (feedDocumentPath stateDir) keyringPath ∧
        rules = verified.rules) ∧
    (∀ env raw keyringPath current tick m, Undisturbed env stateDir →
      installFeed rt crypto raw stateDir keyringPath current env ⟨nodes', tick⟩ = (.halted, m) →
      ∀ env' keyringPath' current' tick' verified previous outcome,
        Unhindered rt crypto env' raw stateDir keyringPath' current' m.nodes verified →
        Committed rt stateDir nodes' previous → rollbackRule verified previous = .ok outcome →
        ∃ outcome' m', installFeed rt crypto raw stateDir keyringPath' current' env'
            ⟨m.nodes, tick'⟩ = (.ok (outcome', verified), m') ∧
          Committed rt stateDir m'.nodes (some (FeedState.commits verified current'))) := by
  refine ⟨?_, ?_, ?_⟩
  · intro state hstate
    exact h.commits hstate
  · intro env keyringPath current tick status rules m hothers hrun hvalid
    have hwatched := hothers.watched
    obtain ⟨verified, hnamed, heq⟩ := (wp_inspectFeed hwatched.lock.others hwatched.document
      hwatched.state ⟨nodes', tick⟩).of_ok hrun hvalid
    cases heq
    exact ⟨verified, hnamed, rfl, rfl⟩
  · intro env raw keyringPath current tick m hothers hrun env' keyringPath' current' tick' verified
      previous outcome hunhindered hprevious hrule
    obtain ⟨_, keyring, -, -, -, hverified⟩ := hunhindered.keyring
    obtain ⟨previous', outcome', hprevious', hrule'⟩ := admitted_after (m := ⟨nodes', tick⟩)
      hothers hverified hprevious hrule
    rw [hrun] at hprevious'
    have hcalm := calm_installFeed (m := ⟨m.nodes, tick'⟩) hunhindered hprevious' hrule'
    obtain ⟨r, m', hreturned, rfl, hcommitted⟩ := hcalm.returns
    exact ⟨outcome', m', hreturned, hcommitted⟩

/-! ### A store with one key -/

namespace Sample

/-- An interpreter with the limits of CPython. -/
def runtime : Runtime where
  scanDepth := 900
  dumpDepth := fun _ => 900
  reprDepth := 900
  intDigits := 4300
  scanDepth_ge := usualRuntime.scanDepth_ge
  dumpDepth_ge := usualRuntime.dumpDepth_ge
  intDigits_ge := usualRuntime.intDigits_ge
  reprText := fun _ => []
  decodeText := fun _ => []
  localOffset := fun _ => 0

def publicKey : Bytes := (Base64.decode (str "A6EHv/POEL4dcN0Y50vAmWfk1jCbpQ1fHdyGZBJVMbg=")).getD []

def signature : Bytes := (Base64.decode (str ("O01SqGFn6DX6GraQ83LlsiEr8CkfGH/f2nznV++uIMqYeQvN" ++
  "LlhzUwteJEK12/npVhthqqj+vsgNa+8vPa1lAQ=="))).getD []

def payload : Json :=
  .obj [(str "schema", .str (str "zsec.shield.rules.v1")), (str "sequence", .int 7),
    (str "generated_at", .str (str "2026-01-01T00:00:00Z")),
    (str "expires_at", .str (str "2026-02-01T00:00:00Z")), (str "rules", .arr [])]

def document : Json :=
  .obj [(str "schema", .str (str "zsec.shield.feed.v1")), (str "algorithm", .str (str "ed25519")),
    (str "key_id", .str (str "key-1")), (str "payload", payload),
    (str "signature", .str (Base64.encode signature))]

def keyringFile : Json :=
  .obj [(str "schema", .str (str "zsec.shield.keyring.v1")),
    (str "keys", .arr [.obj [(str "key_id", .str (str "key-1")),
      (str "algorithm", .str (str "ed25519")), (str "public_key", .str (Base64.encode publicKey)),
      (str "status", .str (str "active"))]])]

/-- The bytes of the canonical payload. -/
def canonical : Bytes := (Util.canonicalJsonBytes runtime payload).toOption.getD []

/-- The digest and the signature of the one payload that is signed here. -/
def crypto : Crypto where
  sha256 := fun data =>
    if data = canonical then
      [55, 127, 139, 195, 241, 8, 76, 162, 21, 108, 198, 182, 223, 202, 159, 79, 213, 95, 251, 27,
        247, 67, 6, 59, 107, 32, 53, 45, 8, 206, 227, 170]
    else List.replicate 32 0
  length_sha256 := by
    intro data
    split <;> rfl
  ed25519 := fun key sig data => key = publicKey && sig = signature && data = canonical

def current : DateTime := ⟨2026, 1, 10, 0, 0, 0, 0, by decide, by decide⟩

def bytes (value : Json) : Bytes := (Util.encodeJson runtime .pretty value).toOption.getD []

def keyring : Keyring := [(str "key-1", ⟨str "key-1", publicKey, .active, none, none⟩)]

def stateDir : Path := str "/state"

def keyringPath : Path := str "/keys.json"

/-- A disk with a keyring and no feed. -/
def nodes : Disk.Nodes := fun p =>
  if p = keyringPath then some (.file ⟨bytes keyringFile, 0, 0, 0, 0o600⟩) else none

/-- Nobody else is at work, and every call has the given fate. -/
def env (fate : Disk.Fate) : Util.Os where
  fate := fun _ => fate
  error := fun _ => ⟨5, none, []⟩
  others := fun _ n => n
  fresh := fun t => Text.digits t
  random := fun _ n => List.replicate n 0
  length_random := by simp
  clock := fun _ => current
  created := fun _ => ⟨[], 0, 0, 0, 0o600⟩

theorem calm : Disk.Calm (env .done) := ⟨fun _ => rfl, fun _ _ => rfl⟩

theorem undisturbed (fate : Disk.Fate) : Undisturbed (env fate) stateDir := fun _ _ _ => rfl

theorem bytes_eq {value : Json} (h : Util.Writable runtime value) :
    Util.encodeJson runtime .pretty value = .ok (bytes value) := by
  obtain ⟨data, hdata⟩ := h.encodeJson (σ := .pretty) (Text.encodable_str _)
  rw [bytes, hdata]
  rfl

/-- What was written is read back. -/
theorem loads_bytes {value : Json} (h : Util.Writable runtime value) :
    Util.strictJsonLoads runtime (bytes value) = .ok value.sortKeys := by
  have hread := h.strictJsonLoads Json.separates_pretty rfl (bytes_eq h) (.inl rfl)
  rwa [List.append_nil] at hread

theorem flat_keyringFile : Flat runtime 3 keyringFile := by
  refine flat_obj (by decide) ?_
  simp only [List.forall_mem_cons]
  refine ⟨flat_str _ 2 _, flat_arr ?_, by simp⟩
  simp only [List.forall_mem_cons]
  refine ⟨flat_obj (by decide) ?_, by simp⟩
  simp only [List.forall_mem_cons]
  exact ⟨flat_str _ 0 _, flat_str _ 0 _, flat_str _ 0 _, flat_str _ 0 _, by simp⟩

theorem strings_keyringFile : Json.Strings Text.Encodable keyringFile := by
  refine .obj _ ?_ ?_
  · simp only [List.forall_mem_cons, Text.encodable_str, true_and]
    simp
  simp only [List.forall_mem_cons]
  refine ⟨.str _ (Text.encodable_str _), .arr _ ?_, by simp⟩
  simp only [List.forall_mem_cons]
  refine ⟨.obj _ ?_ ?_, by simp⟩
  · simp only [List.forall_mem_cons, Text.encodable_str, true_and]
    simp
  simp only [List.forall_mem_cons]
  exact ⟨.str _ (Text.encodable_str _), .str _ (Text.encodable_str _), .str _ (encodable_encode _),
    .str _ (Text.encodable_str _), by simp⟩

theorem writable_keyringFile : Util.Writable runtime keyringFile :=
  ⟨flat_keyringFile.1, flat_keyringFile.2.trans (by decide), strings_keyringFile⟩

theorem distinct_document : Json.Distinct document := by
  have hpayload : Json.Distinct payload := by
    refine .obj _ (by decide) ?_
    simp only [List.forall_mem_cons]
    exact ⟨.str _, .int _, .str _, .str _, .arr _ (by simp), by simp⟩
  refine .obj _ (by decide) ?_
  simp only [List.forall_mem_cons]
  exact ⟨.str _, .str _, .str _, hpayload, .str _, by simp⟩

instance keyring_checked : Fact (checkKeyring runtime keyringFile.sortKeys = .ok keyring) :=
  ⟨by decide +kernel⟩

instance document_verified :
    Fact ((verifyRoot runtime crypto document keyring current).isOk = true) := ⟨by decide +kernel⟩

instance bytes_small : Fact ((bytes keyringFile).length ≤ maxKeyringBytes ∧
    (bytes document).length ≤ maxFeedBytes) := ⟨by decide +kernel⟩

theorem parsed_keyring : parseKeyring runtime (bytes keyringFile) = .ok keyring :=
  bind_eq_ok.2 ⟨_, loads_bytes writable_keyringFile, keyring_checked.out⟩

theorem keyring_content :
    Disk.content nodes keyringPath = some (bytes keyringFile) := by
  simp only [Disk.content, nodes, ↓reduceIte]

theorem writable_document : Util.Writable runtime document := by
  cases hroot : verifyRoot runtime crypto document keyring current with
  | error e =>
      have hok := document_verified.out
      rw [hroot] at hok
      cases hok
  | ok verified =>
      exact writable_of_verifyRoot (identified_of_parseKeyring parsed_keyring) distinct_document hroot

theorem verifyFeedDocument_document {verified : VerifiedFeed}
    (hroot : verifyRoot runtime crypto document keyring current = .ok verified) :
    verifyFeedDocument runtime crypto (bytes document) keyring current =
      .ok { verified with document := document.sortKeys } :=
  bind_eq_ok.2 ⟨(), require_eq_ok.2 bytes_small.out.2, bind_eq_ok.2
    ⟨_, loads_bytes writable_document, verifyRoot_sortKeys distinct_document hroot⟩⟩

/-- The document is accepted. -/
theorem verified_document : ∃ verified, verified.sequence = 7 ∧
    verifyFeedDocument runtime crypto (bytes document) keyring current = .ok verified := by
  cases hroot : verifyRoot runtime crypto document keyring current with
  | error e =>
      have hok := document_verified.out
      rw [hroot] at hok
      cases hok
  | ok verified =>
      refine ⟨{ verified with document := document.sortKeys }, ?_,
        verifyFeedDocument_document hroot⟩
      obtain ⟨members, heq, _, payload, _, hsignature, sequence, _, _, _, hpayload, rfl⟩ :=
        verifyRoot_eq_ok.1 hroot
      cases heq
      obtain ⟨-, -, -, hfield, -⟩ := verifySignature_eq_ok.1 hsignature
      cases hfield
      have hsequence := sequenceOf_of_verifyPayload hpayload
      cases hsequence
      rfl

theorem nodes_eq_none (name : Str) :
    nodes (Disk.join (feedDirectory stateDir) name) = none := by
  refine if_neg ?_
  intro heq
  have hhead := congrArg (fun p : Str => p[1]?) heq
  have hne : some (Text.ofChar 's') ≠ some (Text.ofChar 'k') := by decide
  exact hne hhead

theorem nothing_committed : Committed runtime stateDir nodes none := nodes_eq_none _

/-- Nothing stands in the way of a call on the disk without a feed. -/
theorem unhindered {crypto : Crypto} {raw : Bytes} {verified : VerifiedFeed}
    (h : verifyFeedDocument runtime crypto raw keyring current = .ok verified) :
    Unhindered runtime crypto (env .done) raw stateDir keyringPath current nodes verified := by
  refine ⟨calm, ?_, ?_, fun _ _ _ => nodes_eq_none _, ?_⟩
  · rw [feedDocumentPath, ← feedDirectory, nodes_eq_none]
    simp
  · rw [feedLockPath, ← feedDirectory, nodes_eq_none]
    simp
  · exact ⟨_, keyring, keyring_content, bytes_small.out.1, parsed_keyring, h⟩

/-- A call with a verified feed returns and leaves the keyring file alone. -/
theorem installs {crypto : Crypto} {raw : Bytes} {verified : VerifiedFeed}
    (h : verifyFeedDocument runtime crypto raw keyring current = .ok verified) :
    ∃ outcome m, installFeed runtime crypto raw stateDir keyringPath current (env .done)
        ⟨nodes, 0⟩ = (.ok (outcome, verified), m) ∧
      Disk.content m.nodes keyringPath = Disk.content nodes keyringPath := by
  obtain ⟨start, hstart⟩ : ∃ start : Disk.Machine, start = ⟨nodes, 0⟩ := ⟨_, rfl⟩
  have hnodes : start.nodes = nodes := by rw [hstart]
  have hnothing : Committed runtime stateDir start.nodes none := by
    rw [hnodes]
    exact nothing_committed
  have hunhindered : Unhindered runtime crypto (env .done) raw stateDir keyringPath current
      start.nodes verified := by
    rw [hnodes]
    exact unhindered h
  have hcalm := calm_installFeed hunhindered hnothing rfl
  obtain ⟨r, m, hreturned, heq, -⟩ := hcalm.returns
  subst heq
  refine ⟨_, m, hstart ▸ hreturned, ?_⟩
  have houtside : ∀ name, keyringPath ≠ Disk.join (feedDirectory stateDir) name := by
    intro name heq
    have hhead := congrArg (fun p : Str => p[1]?) heq
    have hne : some (Text.ofChar 'k') ≠ some (Text.ofChar 's') := by decide
    exact hne hhead
  have hwatched : Watched (env .done) stateDir fun p => Stored stateDir p ∨ p = keyringPath := by
    refine (undisturbed .done).watched_of (fun _ hp => .inl hp) (fun _ _ _ _ => rfl) ?_ ?_
    · intro p hp
      rcases hp with (rfl | rfl) | rfl
      · exact Disk.isParent_join _ _
      · exact Disk.isParent_join _ _
      · decide
    · intro name hname
      rcases hname with hname | hname
      · exact hname
      · exact absurd hname.symm (houtside name)
  obtain ⟨-, document, state, -, mid, hdocument, hstate⟩ := (wp_installFeed hwatched
    (K := fun _ => False) (fun _ _ _ => False.elim) raw keyringPath start).of_ok hreturned
  rw [Disk.content, hstate.other (.inr rfl) (houtside _), hdocument.other (.inr rfl) (houtside _),
    hnodes]
  rfl

end Sample

open Sample in
/-- A call that is cut at once, and then one that installs the feed with sequence 7. -/
theorem rollback_protection_cutAtOnce : ∃ outcome verified m, verified.sequence = 7 ∧
    installFeed runtime crypto (bytes document) stateDir keyringPath current (env .done)
      ⟨nodes, 0⟩ = (.ok (outcome, verified), m) ∧
    Committed runtime stateDir m.nodes (some (FeedState.commits verified current)) := by
  obtain ⟨verified, hsequence, hverified⟩ := verified_document
  have hunhindered := unhindered hverified
  have hcut : installFeed runtime crypto (bytes document) stateDir keyringPath current (env .stops)
      ⟨nodes, 0⟩ = (.halted, ⟨nodes, 1⟩) := rfl
  have hreached : Reaches runtime crypto stateDir nodes nodes :=
    .single (Step.install (env .stops) (bytes document) keyringPath current ⟨nodes, 0⟩
      (undisturbed .stops))
  obtain ⟨outcome, m, hreturned, hcommitted⟩ :=
    (rollback_protection runtime crypto stateDir hreached).2.2 (env .stops) (bytes document)
      keyringPath current 0 _ (undisturbed .stops) hcut (env .done) keyringPath current 0 verified
      none .installed hunhindered nothing_committed rfl
  exact ⟨outcome, verified, m, hsequence, hreturned, hcommitted⟩

end ZsecShield.Feed
