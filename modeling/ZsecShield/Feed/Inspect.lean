import ZsecShield.Feed.Install

/-!
# What an inspection says about the store

`wp_inspectFeed`: a status `valid` names the stored document and the committed state.
In a calm environment the reading functions find what is on the disk, and
`calm_inspectFeed` says when the answer is `valid`.
-/

namespace ZsecShield.Feed

open Text (Str str)
open Effect
open Checks

/-! ## A valid answer -/

/-- The stored document is a verified feed, and the committed state names it. -/
structure Named (rt : Runtime) (crypto : Crypto) (stateDir : Path) (current : DateTime)
    (nodes : Disk.Nodes) (verified : VerifiedFeed) : Prop where
  document : ∃ raw keyring, Disk.content nodes (feedDocumentPath stateDir) = some raw ∧
    verifyFeedDocument rt crypto raw keyring current = .ok verified
  state : ∃ state, StateIn rt nodes (feedStatePath stateDir) (some state) ∧
    state.maxSequence = verified.sequence ∧ state.currentPayloadSha256 = verified.payloadSha256

section Valid

variable {rt : Runtime} {crypto : Crypto} {env : Util.Os} {stateDir keyringPath : Path}
  {current : DateTime} {T : Path → Prop} {nodes : Disk.Nodes}

/-- A look keeps the tracked paths. -/
theorem keeps_probe {f : Disk.Nodes → Option Bool}
    (hothers : ∀ t n, Disk.Same T n (env.others t n)) :
    Keeps env ⟨fun m => Disk.Same T nodes m.nodes, fun _ _ => True, fun _ => True⟩
      (Util.sys (Disk.Action.look f)) := by
  intro m hm
  refine wp.mono (Disk.wp_look hothers hm) ⟨?_, fun _ _ _ => trivial, fun _ _ => trivial⟩
  intro _ m' hm'
  exact hm'.2

theorem wp_bothStored (hothers : ∀ t n, Disk.Same T n (env.others t n)) {m : Disk.Machine}
    (hm : Disk.Same T nodes m.nodes) :
    wp env (bothStored stateDir)
      ⟨fun _ m' => Disk.Same T nodes m'.nodes, fun _ _ => True, fun _ => True⟩ m := by
  have hkeeps : Keeps env ⟨fun m => Disk.Same T nodes m.nodes, fun _ _ => True, fun _ => True⟩
      (bothStored stateDir) := by
    refine Keeps.bind (keeps_probe hothers) fun documentThere => ?_
    exact Keeps.ite (fun _ => keeps_probe hothers) fun _ => Keeps.pure false
  exact hkeeps m hm

theorem wp_anyStored (hothers : ∀ t n, Disk.Same T n (env.others t n)) (m : Disk.Machine) :
    wp env (anyStored stateDir)
      ⟨fun _ m' => Disk.Same T m.nodes m'.nodes, fun _ _ => True, fun _ => True⟩ m := by
  have hkeeps : Keeps env ⟨fun m' => Disk.Same T m.nodes m'.nodes, fun _ _ => True, fun _ => True⟩
      (anyStored stateDir) := by
    refine Keeps.bind (keeps_probe hothers) fun documentThere => ?_
    exact Keeps.ite (fun _ => Keeps.pure true) fun _ => keeps_probe hothers
  exact hkeeps m (Disk.Same.refl T m.nodes)

theorem wp_inspectInstalled (hothers : ∀ t n, Disk.Same T n (env.others t n))
    (hdocument : T (feedDocumentPath stateDir)) (hstate : T (feedStatePath stateDir))
    {m : Disk.Machine} (hm : Disk.Same T nodes m.nodes) :
    wp env (inspectInstalled rt crypto stateDir keyringPath current)
      ⟨fun r _ => ∃ verified, Named rt crypto stateDir current nodes verified ∧
          r = (FeedStatus.of verified (feedDocumentPath stateDir) keyringPath, verified.rules),
        fun _ _ => True, fun _ => True⟩ m := by
  unfold inspectInstalled
  refine wp.bind (wp_bothStored hothers hm) ?_ (fun _ _ _ => trivial) fun _ _ => trivial
  intro stored m₂ hm₂
  rw [wp_bind, wp_liftExcept]
  refine ⟨fun _ _ => ?_, fun _ _ => trivial⟩
  refine wp.bind (Disk.wp_look hothers hm₂) ?_ (fun _ _ _ => trivial) fun _ _ => trivial
  intro size m₃ hm₃
  rw [wp_bind, wp_liftExcept]
  refine ⟨fun _ _ => ?_, fun _ _ => trivial⟩
  refine wp.bind (wp_loadKeyring hothers rt keyringPath hm₃.2) ?_ (fun _ _ _ => trivial)
    fun _ _ => trivial
  intro keyring m₄ hm₄
  refine wp.bind (Disk.wp_look hothers hm₄.1) ?_ (fun _ _ _ => trivial) fun _ _ => trivial
  intro raw m₅ hm₅
  have hraw : Disk.content nodes (feedDocumentPath stateDir) = some raw := by
    rw [← hm₅.1, Disk.content, Disk.content, hm₅.2 _ hdocument]
  rw [wp_bind, wp_liftExcept]
  refine ⟨?_, fun _ _ => trivial⟩
  intro verified hverified
  refine wp.bind (wp_readState hothers rt hstate hm₅.2) ?_ (fun _ _ _ => trivial) fun _ _ => trivial
  intro state m₆ hm₆
  cases state with
  | none => exact trivial
  | some state =>
      change wp env (_ >>= _) _ m₆
      rw [wp_bind, wp_liftExcept]
      refine ⟨?_, fun _ _ => trivial⟩
      intro _ hsequence
      rw [Post.withOk_ok, wp_bind, wp_liftExcept]
      refine ⟨?_, fun _ _ => trivial⟩
      intro _ hdigest
      rw [require_eq_ok] at hsequence hdigest
      exact ⟨verified, ⟨⟨raw, keyring, hraw, hverified⟩, state, hm₆.2, hsequence, hdigest⟩, rfl⟩

/-- An answer `valid` names the document and the state on the disk. -/
theorem wp_inspectFeed (hothers : ∀ t n, Disk.Same T n (env.others t n))
    (hdocument : T (feedDocumentPath stateDir)) (hstate : T (feedStatePath stateDir))
    (m : Disk.Machine) :
    wp env (inspectFeed rt crypto stateDir keyringPath current)
      ⟨fun r _ => r.1.state = .valid →
          ∃ verified, Named rt crypto stateDir current m.nodes verified ∧
            r = (FeedStatus.of verified (feedDocumentPath stateDir) keyringPath, verified.rules),
        fun _ _ => True, fun _ => True⟩ m := by
  unfold inspectFeed
  refine wp.bind (wp_anyStored hothers m) ?_ (fun _ _ _ => trivial) fun _ _ => trivial
  intro stored m₂ hm₂
  rw [wp_ite]
  refine ⟨fun _ => ?_, fun _ => ?_⟩
  · rw [wp_tryExcept]
    refine (wp_inspectInstalled hothers hdocument hstate hm₂).mono ⟨?_, ?_, fun _ _ => trivial⟩
    · intro r m' hr _
      exact hr
    · intro e m' _
      refine ⟨fun _ => ?_, fun _ => trivial⟩
      intro hvalid
      cases hvalid
  · intro hvalid
    cases hvalid

end Valid

/-! ## Reading in a calm environment -/

theorem isFile_of_content {nodes : Disk.Nodes} {path : Path} {raw : Bytes}
    (hraw : Disk.content nodes path = some raw) : ∃ f, nodes path = some (.file f) := by
  unfold Disk.content at hraw
  split at hraw
  · rename_i f hfile
    exact ⟨f, hfile⟩
  · cases hraw

section Calm

variable {env : Util.Os} (h : Disk.Calm env)

include h

theorem calm_loadKeyring {rt : Runtime} {path : Path} {m : Disk.Machine} {raw : Bytes}
    {keyring : Keyring} (hraw : Disk.content m.nodes path = some raw)
    (hsize : raw.length ≤ maxKeyringBytes) (hparse : parseKeyring rt raw = .ok keyring) :
    wp env (loadKeyring rt path)
      ⟨fun r m' => r = keyring ∧ m'.nodes = m.nodes, fun _ _ => False, fun _ => False⟩ m := by
  unfold loadKeyring
  rw [wp_bind, wp_tryExcept, wp_bind]
  refine h.wp_size hraw ?_
  rw [Post.withOk_ok, wp_bind, require_pos hsize, wp_liftExcept_ok]
  refine h.wp_read hraw ?_
  rw [Post.withOk_ok, hparse]
  exact ⟨rfl, rfl⟩

theorem calm_readState {rt : Runtime} {path : Path} {m : Disk.Machine} {state : Option FeedState}
    (hstate : StateIn rt m.nodes path state) :
    wp env (readState rt path)
      ⟨fun r m' => r = state ∧ m'.nodes = m.nodes, fun _ _ => False, fun _ => False⟩ m := by
  unfold readState
  rw [wp_bind]
  refine h.wp_existsAt ?_
  cases state with
  | none =>
      rw [StateIn] at hstate
      rw [hstate]
      exact ⟨rfl, rfl⟩
  | some state =>
      obtain ⟨raw, hraw, hsize, hparse⟩ := hstate
      obtain ⟨f, hf⟩ := isFile_of_content hraw
      obtain ⟨value, hvalue, hcheck⟩ := bind_eq_ok.1 hparse
      rw [hf, Post.withOk_ok, Option.isSome_some, if_pos rfl, wp_bind, wp_tryExcept, wp_bind]
      refine h.wp_size hraw ?_
      rw [Post.withOk_ok, wp_bind, require_pos hsize, wp_liftExcept_ok, Post.withOk_ok, wp_bind]
      refine h.wp_read hraw ?_
      rw [Post.withOk_ok, hvalue, wp_liftExcept_ok, Post.withOk_ok, wp_bind, hcheck,
        wp_liftExcept_ok]
      exact ⟨rfl, rfl⟩

/-- The stored document verifies, and the committed state names it. -/
structure Consistent (rt : Runtime) (crypto : Crypto) (stateDir keyringPath : Path)
    (current : DateTime) (nodes : Disk.Nodes) (raw : Bytes) (verified : VerifiedFeed) : Prop where
  document : Disk.content nodes (feedDocumentPath stateDir) = some raw
  size : raw.length ≤ maxFeedBytes
  keyring : ∃ source keyring, Disk.content nodes keyringPath = some source ∧
    source.length ≤ maxKeyringBytes ∧ parseKeyring rt source = .ok keyring ∧
    verifyFeedDocument rt crypto raw keyring current = .ok verified
  state : ∃ state, StateIn rt nodes (feedStatePath stateDir) (some state) ∧
    state.maxSequence = verified.sequence ∧ state.currentPayloadSha256 = verified.payloadSha256

theorem calm_inspectFeed {rt : Runtime} {crypto : Crypto} {stateDir keyringPath : Path}
    {current : DateTime} {m : Disk.Machine} {raw : Bytes} {verified : VerifiedFeed}
    (hstore : Consistent rt crypto stateDir keyringPath current m.nodes raw verified) :
    wp env (inspectFeed rt crypto stateDir keyringPath current)
      ⟨fun r m' => m'.nodes = m.nodes ∧
          r = (FeedStatus.of verified (feedDocumentPath stateDir) keyringPath, verified.rules),
        fun _ _ => False, fun _ => False⟩ m := by
  obtain ⟨source, keyring, hsource, hkeyringSize, hkeyring, hverified⟩ := hstore.keyring
  obtain ⟨state, hstate, hsequence, hdigest⟩ := hstore.state
  obtain ⟨f, hf⟩ := isFile_of_content hstore.document
  obtain ⟨g, hg⟩ : ∃ g, m.nodes (feedStatePath stateDir) = some (.file g) := by
    obtain ⟨stateRaw, hstateRaw, -⟩ := hstate
    exact isFile_of_content hstateRaw
  have hany : wp env (anyStored stateDir)
      ⟨fun r m' => r = true ∧ m'.nodes = m.nodes, fun _ _ => False, fun _ => False⟩ m := by
    unfold anyStored
    rw [wp_bind]
    refine h.wp_existsAt ?_
    rw [hf]
    exact ⟨rfl, rfl⟩
  have hboth : ∀ m' : Disk.Machine, m'.nodes = m.nodes → wp env (bothStored stateDir)
      ⟨fun r m' => r = true ∧ m'.nodes = m.nodes, fun _ _ => False, fun _ => False⟩ m' := by
    intro m' hm'
    unfold bothStored
    rw [wp_bind]
    refine h.wp_isFile ((congrFun hm' _).trans hf) ?_
    rw [Post.withOk_ok, if_pos rfl]
    exact h.wp_isFile ((congrFun hm' _).trans hg) ⟨rfl, hm'⟩
  unfold inspectFeed
  refine wp.bind hany ?_ (fun _ _ => False.elim) fun _ => False.elim
  rintro _ m₁ ⟨rfl, hm₁⟩
  rw [if_pos rfl, wp_tryExcept]
  unfold inspectInstalled
  refine wp.bind (hboth m₁ hm₁) ?_ (fun _ _ => False.elim) fun _ => False.elim
  rintro _ m₂ ⟨rfl, hm₂⟩
  rw [wp_bind, require_pos rfl, wp_liftExcept_ok, Post.withOk_ok, wp_bind]
  refine h.wp_size (by rw [hm₂]; exact hstore.document) ?_
  rw [Post.withOk_ok, wp_bind, require_pos hstore.size, wp_liftExcept_ok]
  refine wp.bind (calm_loadKeyring h (by rw [hm₂]; exact hsource) hkeyringSize hkeyring) ?_
    (fun _ _ => False.elim) fun _ => False.elim
  rintro _ m₃ ⟨rfl, hm₃⟩
  have hsame : m₃.nodes = m.nodes := hm₃.trans hm₂
  rw [wp_bind]
  refine h.wp_read (by rw [hsame]; exact hstore.document) ?_
  rw [Post.withOk_ok, wp_bind, hverified, wp_liftExcept_ok]
  refine wp.bind (calm_readState h (hstate.of_eq (congrFun hsame _))) ?_
    (fun _ _ => False.elim) fun _ => False.elim
  rintro _ m₄ ⟨rfl, hm₄⟩
  change wp env (_ >>= _) _ _
  rw [wp_bind, require_pos hsequence, wp_liftExcept_ok, Post.withOk_ok, wp_bind,
    require_pos hdigest, wp_liftExcept_ok]
  exact ⟨hm₄.trans hsame, rfl⟩

end Calm

end ZsecShield.Feed
