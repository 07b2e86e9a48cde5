import ZsecShield.Quarantine.NeverLoses

/-!
# What a restoration leaves at its destination

`restore_entry` fills a temporary file, checks the digest and the size of what it wrote, and links
the file under the name of the destination.  So at every point the destination is free or holds the
whole content, whose digest and size are those of metadata that passed the checks, whatever the
store holds (`verified_restoreEntry`).  The content of a published entry is its text
(`exact_restoreEntry`).
-/

namespace ZsecShield.Quarantine

open Text (Str str)
open Feed (field isText)
open Effect
open Checks
open Disk (Aside Bystander Kept Below)
open Json (Agree)
open Util (Os Io)

section Content

variable {S : System} {stateDir temporary : Path} {env : Os} {J : Disk.Nodes → Prop}
  {m : Disk.Machine}

theorem bystander_leaves {path : Path} (h : Leaves env path) (data : Bytes) :
    Bystander env (· = path) (HoldsBytes path data) where
  others t nodes hJ := (content_congr (h t nodes)).trans hJ
  present nodes hJ := by
    rintro p rfl
    exact ne_none_of_content hJ
  blind nodes nodes' hsame hJ := (content_congr (hsame _ rfl)).trans hJ

/-- Other processes keep the bytes of the temporary file. -/
theorem others_holds (h : Aside env temporary J) (hleaves : Leaves env temporary) (data : Bytes)
    (t : Nat) (nodes : Disk.Nodes) (hn : J nodes ∧ HoldsBytes temporary data nodes) :
    J (env.others t nodes) ∧ HoldsBytes temporary data (env.others t nodes) :=
  ⟨h.others t nodes hn.1, (content_congr (hleaves t nodes)).trans hn.2⟩

/-- The chunks of a file are written to the temporary file one behind the other. -/
theorem wp_readChunks (h : Aside env temporary J) (hleaves : Leaves env temporary) (fuel : Nat)
    (path : Path) {G : Bytes → Bytes} {P : Nat → Bytes → Bytes}
    (hG : ∀ done chunk, G (done ++ chunk) = G done ++ P done.length chunk)
    (hm : J m.nodes) (hstart : HoldsBytes temporary (G []) m.nodes) :
    wp env (readChunks fuel path fun offset chunk =>
        Util.sys (Disk.Action.extend temporary (P offset chunk)))
      ((Assertion.always fun m => J m.nodes).postWith fun all m =>
        (∀ f, Fixes J path f → all = f.content) ∧ J m.nodes ∧ HoldsBytes temporary (G all) m.nodes)
      m := by
  have hothers := others_holds h hleaves
  unfold readChunks
  rw [wp_bind]
  refine Disk.wp_sys_of (hothers _) ⟨hm, hstart⟩ (fun _ hn => hn.1) (fun _ _ hn => hn.1) ?_
  intro t n opened n' hn ha tick
  obtain ⟨hopened, rfl⟩ := Disk.Action.look_some ha
  have hfixed : ∀ f, Fixes J path f → opened = f := by
    intro f hf
    rw [hf _ hn.1] at hopened
    exact (Option.some.inj hopened).symm
  refine wp_copyChunks (J := J)
    (K := fun done nodes => (∀ f, Fixes J path f → done <+: f.content) ∧ J nodes ∧
      HoldsBytes temporary (G done) nodes)
    (R := fun done chunk nodes => (∀ f, Fixes J path f → done ++ chunk <+: f.content) ∧ J nodes ∧
      HoldsBytes temporary (G done) nodes)
    (Q := fun all nodes => (∀ f, Fixes J path f → all = f.content) ∧ J nodes ∧
      HoldsBytes temporary (G all) nodes)
    ?_ ?_ (fun _ _ hK => hK.2.1) fuel [] ⟨n', tick⟩ ⟨fun _ _ => List.nil_prefix, hn⟩
  · rintro done m ⟨hread, hm⟩
    refine Disk.wp_sys_of (hothers _) hm (fun _ hn => hn.1) (fun _ _ hn => hn.1) ?_
    intro t n chunk n' hn ha tick
    obtain ⟨-, rfl⟩ := Disk.Action.look_some ha
    have hchunk := fun f (hf : Fixes J path f) =>
      chunk_of_readAt (by decide) hf hn.1 (hfixed f hf) (hread f hf) ha
    exact ⟨fun hnil => ⟨fun f hf => (hchunk f hf).1 hnil, hn⟩,
      fun _ => ⟨fun f hf => (hchunk f hf).2, hn⟩⟩
  · rintro done chunk m ⟨hread, hm⟩
    refine Disk.wp_sys_of (hothers _) hm (fun _ hn => hn.1) (fun _ _ hn => hn.1) ?_
    rintro t n _ n' ⟨hJ, hbytes⟩ ha tick
    refine ⟨hread, h.step (Disk.only_extend _ _) hJ ha, ?_⟩
    obtain ⟨f, hf, hcontent⟩ := Util.isFile_of_content hbytes
    change HoldsBytes temporary _ n'
    rw [HoldsBytes, Disk.Action.extend_some hf ha, Disk.content, Disk.put_self, hcontent, hG]

/-- The device root and the ciphertext are those that the property fixes. -/
def Known (S : System) (stateDir content : Path) (J : Disk.Nodes → Prop) (device : DeviceRoot)
    (ciphertext : Bytes) : Prop :=
  (∀ d, (∀ nodes, J nodes → DeviceIn S stateDir d nodes) → device = d) ∧
    ∀ f, Fixes J content f → ciphertext = f.content

/-- The vault fields of the metadata open to the data, which the content tag authenticates. -/
def Decrypts (S : System) (metadata : List (Str × Json)) (K : DeviceRoot → Bytes → Prop)
    (data : Bytes) : Prop :=
  ∃ device envelope aad contentKey ciphertext, K device ciphertext ∧
    VaultEnvelope.fromDict (field metadata "vault") = .ok envelope ∧
    Util.canonicalJsonBytes S.runtime (aadProjection metadata) = .ok aad ∧
    unwrapContentKey S device ((field metadata "id").strOf.getD []) envelope aad = .ok contentKey ∧
    decodeContentTag (field metadata "content_tag") =
      .ok (S.aead.tag contentKey envelope.contentNonce aad ciphertext) ∧
    data = S.aead.crypt contentKey envelope.contentNonce 0 ciphertext

section Looks

variable (hothers : ∀ t nodes, J nodes → J (env.others t nodes))

include hothers

/-- The device root that was loaded is the one that the property fixes. -/
theorem wp_loadExisting (hm : J m.nodes) :
    wp env (loadDeviceRoot S stateDir false) ((Assertion.always fun m => J m.nodes).postWith
      fun device m => (∀ d, (∀ nodes, J nodes → DeviceIn S stateDir d nodes) → device = d) ∧
        J m.nodes) m := by
  have hensure : Kept env J (ensureDeviceRoot S stateDir false) :=
    Keeps.bind (Kept.look hothers _) fun _ => Keeps.ite (fun _ => Keeps.pure _) fun _ => Kept.raise _
  unfold loadDeviceRoot
  refine Keeps.wp_bind hensure hm fun _ m hm => ?_
  unfold readDeviceRoot
  rw [wp_bind, wp_tryExcept, wp_bind]
  refine Disk.wp_sys_of hothers hm (fun _ hJ => hJ) (fun _ _ hJ => ⟨fun _ => hJ, fun _ => hJ⟩) ?_
  intro t n raw n' hJ ha tick
  obtain ⟨hraw, rfl⟩ := Disk.Action.look_some ha
  rw [Post.withOk_ok, wp_liftExcept]
  refine ⟨fun value hvalue => ?_, fun e _ => ⟨fun _ => hJ, fun _ => hJ⟩⟩
  refine (wp_liftExcept _ _).2 ⟨fun device hdevice => ⟨fun d hd => ?_, hJ⟩, fun _ _ => hJ⟩
  have hread : DeviceIn S stateDir device n' := by
    refine ⟨raw, hraw, ?_⟩
    rw [parseDeviceRoot, hvalue]
    exact hdevice
  exact hread.unique (hd n' hJ)

theorem kept_validateContent (path : Path) : Kept env J (validateRegularContent path) := by
  refine Keeps.bind (Kept.tryExcept (Kept.look hothers _) _ fun _ => Kept.raise _) fun node => ?_
  cases node with
  | file f => exact Keeps.pure f
  | directory => exact Kept.raise _
  | link => exact Kept.raise _
  | special => exact Kept.raise _

theorem kept_hashRegularFile (fuel : Nat) (path : Path) :
    Kept env J (hashRegularFile S fuel path) := by
  refine Keeps.bind (kept_validateContent hothers path) fun _ => ?_
  refine Keeps.bind (Kept.tryExcept ?_ _ fun _ => Kept.raise _) fun _ => Keeps.pure _
  exact Keeps.bind (Kept.look hothers _) fun _ =>
    kept_copyChunks (fun _ => Kept.look hothers _) (fun _ _ => Keeps.pure _) fuel []

end Looks

/-- What `_decrypt_content` wrote is what it returns the digest and the size of. -/
theorem wp_decryptContent (h : Aside env temporary J) (hleaves : Leaves env temporary) (fuel : Nat)
    (content : Path) (metadata : List (Str × Json)) (hm : J m.nodes)
    (hstart : HoldsBytes temporary [] m.nodes) :
    wp env (decryptContent S fuel stateDir content temporary metadata)
      ((Assertion.always fun m => J m.nodes).postWith fun written m => ∃ data : Bytes,
        (written = (S.hexdigest data, data.length) ∧
          Decrypts S metadata (Known S stateDir content J) data) ∧
        J m.nodes ∧ HoldsBytes temporary data m.nodes) m := by
  have hothers := others_holds h hleaves []
  have himp : ∀ nodes, J nodes ∧ HoldsBytes temporary [] nodes → J nodes := fun _ hn => hn.1
  have hboth : J m.nodes ∧ HoldsBytes temporary [] m.nodes := ⟨hm, hstart⟩
  unfold decryptContent
  refine Kept.wp_bind_of himp (kept_validateContent hothers content) hboth fun f m hm => ?_
  refine Kept.wp_bind_of himp (Kept.liftExcept _) hm fun _ m hm => ?_
  rw [wp_bind]
  refine (wp_loadExisting hothers hm).mono ⟨?_, fun _ _ hn => hn.1, fun _ hn => hn.1⟩
  rintro device m ⟨hdevice, hm⟩
  refine Kept.wp_lift_bind hm.1 fun envelope henvelope => ?_
  refine Kept.wp_lift_bind hm.1 fun aad haad => ?_
  refine Kept.wp_lift_bind hm.1 fun contentKey hcontentKey => ?_
  refine Kept.wp_lift_bind hm.1 fun tag htag => ?_
  rw [wp_bind]
  refine (?_ : wp env _ ((Assertion.always fun m : Disk.Machine => J m.nodes).postWith
    fun ciphertext m => (S.aead.tag contentKey envelope.contentNonce aad ciphertext = tag ∧
      ∀ f, Fixes J content f → ciphertext = f.content) ∧ J m.nodes ∧ HoldsBytes temporary
      (S.aead.crypt contentKey envelope.contentNonce 0 ciphertext) m.nodes) _).mono
    ⟨?_, fun _ _ hJ => hJ, fun _ hJ => hJ⟩
  refine Kept.wp_tryExcept ?_ fun _ _ hJ => hJ
  · rw [wp_bind]
    refine (wp_readChunks h hleaves fuel content (G := S.aead.crypt contentKey envelope.contentNonce 0)
      (P := S.aead.crypt contentKey envelope.contentNonce) ?_ hm.1 hm.2).mono
      ⟨?_, fun _ _ hJ => hJ, fun _ hJ => hJ⟩
    · intro done chunk
      rw [S.aead.crypt_append, Nat.zero_add]
    · rintro ciphertext m ⟨hfixed, hm⟩
      exact Kept.wp_lift_bind hm.1 fun _ hequal => ⟨⟨require_eq_ok.1 hequal, hfixed⟩, hm⟩
  · rintro ciphertext m ⟨⟨rfl, hfixed⟩, hm⟩
    exact ⟨_, ⟨rfl, device, envelope, aad, contentKey, ciphertext, ⟨fun d hd => hdevice d
      fun nodes hn => hd nodes hn.1, hfixed⟩, henvelope, haad, hcontentKey, htag, rfl⟩, hm⟩

/-- What `_copy_legacy_content` wrote is what it returns the digest and the size of. -/
theorem wp_copyLegacyContent (h : Aside env temporary J) (hleaves : Leaves env temporary)
    (fuel : Nat) (content : Path) (hm : J m.nodes) (hstart : HoldsBytes temporary [] m.nodes) :
    wp env (copyLegacyContent S fuel content temporary)
      ((Assertion.always fun m => J m.nodes).postWith fun written m => ∃ data : Bytes,
        written = (S.hexdigest data, data.length) ∧
        J m.nodes ∧ HoldsBytes temporary data m.nodes) m := by
  have hothers := others_holds h hleaves []
  have himp : ∀ nodes, J nodes ∧ HoldsBytes temporary [] nodes → J nodes := fun _ hn => hn.1
  unfold copyLegacyContent
  refine Kept.wp_bind_of himp (kept_hashRegularFile hothers fuel content) ⟨hm, hstart⟩
    fun expected m hm => ?_
  rw [wp_bind]
  refine (?_ : wp env _ ((Assertion.always fun m : Disk.Machine => J m.nodes).postWith
    fun data m => J m.nodes ∧ HoldsBytes temporary data m.nodes) _).mono
    ⟨?_, fun _ _ hJ => hJ, fun _ hJ => hJ⟩
  · refine Kept.wp_tryExcept ?_ fun _ _ hJ => hJ
    exact (wp_readChunks h hleaves fuel content (G := id) (P := fun _ chunk => chunk)
      (fun _ _ => rfl) hm.1 hm.2).mono ⟨fun _ _ hn => hn.2, fun _ _ hJ => hJ, fun _ hJ => hJ⟩
  rintro data m hm
  refine Kept.wp_lift_bind hm.1 fun _ hequal => ⟨data, ?_, hm⟩
  obtain ⟨hdigest, hlength⟩ := require_eq_ok.1 hequal
  exact (Prod.ext hdigest hlength).symm

end Content

/-! ## The destination -/

/-- What a restoration knows about the bytes that it links. -/
structure Verified (S : System) (metadata : List (Str × Json)) (schema : Schema)
    (K : DeviceRoot → Bytes → Prop) (data : Bytes) : Prop where
  digest : isText (field metadata "sha256") (S.hexdigest data) = true
  size : intValue (field metadata "size") = some (data.length : Int)
  decrypts : schema = .current → Decrypts S metadata K data

/-- The destination is free or holds verified bytes. -/
def Clean (S : System) (metadata : List (Str × Json)) (schema : Schema)
    (K : DeviceRoot → Bytes → Prop) (target : Path) (nodes : Disk.Nodes) : Prop :=
  nodes target = none ∨ ∃ data, Verified S metadata schema K data ∧ HoldsBytes target data nodes

section Place

variable {S : System} {stateDir entry temporary target : Path} {env : Os} {J : Disk.Nodes → Prop}
  {m : Disk.Machine} {metadata : List (Str × Json)} {schema : Schema}
  {convert : Json → Except PyError Int}

theorem aside_free (h : Aside env temporary J) (htarget : Leaves env target)
    (hne : target ≠ temporary) :
    Aside env temporary fun nodes => J nodes ∧ nodes target = none where
  others t nodes hn := ⟨h.others t nodes hn.1, (htarget t nodes).trans hn.2⟩
  blind nodes node hn := ⟨h.blind nodes node hn.1, (Disk.put_other hne node).trans hn.2⟩

/-- Whether the destination is clean does not depend on the temporary file. -/
theorem aside_clean {K : DeviceRoot → Bytes → Prop} (htarget : Leaves env target)
    (hne : target ≠ temporary) : Aside env temporary (Clean S metadata schema K target) where
  others t nodes hn := by
    obtain hnone | ⟨data, hverified, hbytes⟩ := hn
    · exact .inl ((htarget t nodes).trans hnone)
    · exact .inr ⟨data, hverified, (content_congr (htarget t nodes)).trans hbytes⟩
  blind nodes node hn := by
    have hsame : Disk.put nodes temporary node target = nodes target := Disk.put_other hne node
    obtain hnone | ⟨data, hverified, hbytes⟩ := hn
    · exact .inl (hsame.trans hnone)
    · exact .inr ⟨data, hverified, (content_congr hsame).trans hbytes⟩

theorem wp_writeContent (h : Aside env temporary J) (hleaves : Leaves env temporary) (fuel : Nat)
    (hm : J m.nodes) (hstart : HoldsBytes temporary [] m.nodes) :
    wp env (writeContent S fuel stateDir entry temporary metadata schema)
      ((Assertion.always fun m => J m.nodes).postWith fun written m => ∃ data : Bytes,
        (written = (S.hexdigest data, data.length) ∧ (schema = .current →
          Decrypts S metadata (Known S stateDir (contentPath entry) J) data)) ∧
        J m.nodes ∧ HoldsBytes temporary data m.nodes) m := by
  cases schema with
  | current =>
      refine (wp_decryptContent h hleaves fuel (contentPath entry) metadata hm hstart).mono
        ⟨?_, fun _ _ hJ => hJ, fun _ hJ => hJ⟩
      rintro written m ⟨data, ⟨hwritten, hdecrypts⟩, hm⟩
      exact ⟨data, ⟨hwritten, fun _ => hdecrypts⟩, hm⟩
  | legacy =>
      refine (wp_copyLegacyContent h hleaves fuel _ hm hstart).mono
        ⟨?_, fun _ _ hJ => hJ, fun _ hJ => hJ⟩
      rintro written m ⟨data, hwritten, hm⟩
      exact ⟨data, ⟨hwritten, nofun⟩, hm⟩

/-- A new time stamp leaves the bytes of a file. -/
theorem kept_setTimes (htarget : Leaves env target) (data : Bytes) :
    Kept env (HoldsBytes target data) (setTimes convert target metadata) := by
  refine Kept.suppress (Keeps.bind (Kept.liftExcept _) fun ns => Keeps.bind (Kept.liftExcept _)
    fun _ => Disk.keeps_sys (bystander_leaves htarget data).others ?_) _
  intro t n _ n' hbytes ha
  obtain ⟨f, hf, rfl⟩ | rfl := Disk.Action.utime_some ha
  · obtain ⟨f', hf', hcontent⟩ := Util.isFile_of_content hbytes
    rw [hf, Option.some.injEq, Disk.Node.file.injEq] at hf'
    subst hf'
    rw [HoldsBytes, Disk.content, Disk.put_self]
    exact congrArg some hcontent
  · exact hbytes

/-- The destination is clean all along, and holds verified bytes at the end. -/
theorem wp_place (h : Aside env temporary J) (hleaves : Leaves env temporary)
    (htarget : Leaves env target) (hne : target ≠ temporary) (fuel : Nat) (hm : J m.nodes)
    (hfree : m.nodes target = none) (hstart : HoldsBytes temporary [] m.nodes) :
    wp env (place S convert fuel stateDir entry temporary target metadata schema)
      ((Assertion.always fun m => Clean S metadata schema (Known S stateDir (contentPath entry)
          fun nodes => J nodes ∧ nodes target = none) target m.nodes).postWith fun written m =>
        ∃ data : Bytes, written = (S.hexdigest data, data.length) ∧
          Verified S metadata schema (Known S stateDir (contentPath entry)
            fun nodes => J nodes ∧ nodes target = none) data ∧
          HoldsBytes target data m.nodes) m := by
  have hone := aside_free h htarget hne
  unfold place
  generalize hK : (Known S stateDir (contentPath entry) fun nodes => J nodes ∧ nodes target = none) = K
  rw [wp_bind]
  refine (wp_writeContent hone hleaves fuel ⟨hm, hfree⟩ hstart).mono
    ⟨?_, fun _ _ hn => .inl hn.2, fun _ hn => .inl hn.2⟩
  rintro written m ⟨data, ⟨rfl, hdecrypts⟩, hm⟩
  rw [hK] at hdecrypts
  have hothers := others_holds hone hleaves data
  have himp : ∀ nodes, (J nodes ∧ nodes target = none) ∧ HoldsBytes temporary data nodes →
      Clean S metadata schema K target nodes :=
    fun _ hn => .inl hn.1.2
  refine Kept.wp_bind_of himp (Kept.look hothers _) hm fun _ m hm => ?_
  refine Kept.wp_bind_of himp (Kept.look hothers _) hm fun _ m hm => ?_
  refine Kept.wp_bind_of himp (Kept.look hothers _) hm fun _ m hm => ?_
  refine Kept.wp_lift_bind (himp _ hm) fun _ hequal => ?_
  obtain ⟨hdigest, hsize⟩ := require_eq_ok.1 hequal
  have hverified : Verified S metadata schema K data := ⟨hdigest, hsize, hdecrypts⟩
  have hmode : Kept env
      (fun nodes => (J nodes ∧ nodes target = none) ∧ HoldsBytes temporary data nodes)
      (setMode convert temporary metadata) := by
    refine Kept.suppress (Keeps.bind (Kept.liftExcept _) fun mode => Disk.keeps_sys hothers ?_) _
    rintro t n _ n' ⟨hJ, hbytes⟩ ha
    obtain ⟨f, hf, hcontent⟩ := Util.isFile_of_content hbytes
    refine ⟨hone.step (Disk.only_chmod _ _) hJ ha, ?_⟩
    rw [HoldsBytes, Disk.Action.chmod_some hf ha, Disk.content, Disk.put_self]
    exact congrArg some hcontent
  refine Kept.wp_bind_of himp hmode hm fun _ m hm => ?_
  rw [wp_bind]
  unfold linkTarget
  rw [wp_tryExcept]
  refine Disk.wp_sys_of hothers hm (fun _ => himp _)
    (fun e m hn => ⟨fun _ => ?_, fun _ => himp _ hn⟩) ?_
  · exact (wp_ite _ _ _ _).2 ⟨fun _ => himp _ hn, fun _ => himp _ hn⟩
  rintro t n _ n' ⟨-, hbytes⟩ ha tick
  obtain ⟨f, hf, -, rfl⟩ := Disk.Action.link_some ha
  obtain ⟨f', hf', hcontent⟩ := Util.isFile_of_content hbytes
  rw [hf, Option.some.injEq, Disk.Node.file.injEq] at hf'
  subst hf'
  have hplaced : HoldsBytes target data (Disk.put n target (some (.file f))) := by
    rw [HoldsBytes, Disk.content, Disk.put_self]
    exact congrArg some hcontent
  have hdone : ∀ nodes, HoldsBytes target data nodes → Clean S metadata schema K target nodes :=
    fun _ hn => .inr ⟨data, hverified, hn⟩
  refine (?_ : wp env _ ((Assertion.always fun m : Disk.Machine =>
    Clean S metadata schema K target m.nodes).postWith _) _)
  refine Kept.wp_bind_of hdone ((bystander_leaves htarget data).keeps_at (Disk.changes_unlink _)
    (Ne.symm hne)) hplaced fun _ m hm => ?_
  exact Kept.wp_bind_of hdone (kept_setTimes htarget data) hm fun _ m hm => ⟨data, rfl, hverified, hm⟩

end Place

/-! ## The whole restoration -/

/-- The names of the temporary files of a restoration. -/
def Temporary (target p : Path) : Prop :=
  ∃ s, p = Disk.join (Disk.parent target) (str ".zero-security-restore." ++ s)

/-- The destination is no path of the quarantine, and nothing else touches it or the temporary
files beside it. -/
structure Undisturbed (env : Os) (stateDir target : Path) : Prop where
  outside : ¬ InStore stateDir target
  own : ¬ Temporary target target
  temporary : ∀ p, Temporary target p → Leaves env p
  leaves : Leaves env target

section Whole

variable {S : System} {stateDir target : Path} {env : Os} {J : Disk.Nodes → Prop}
  {m : Disk.Machine} {convert : Json → Except PyError Int} {entryId : Str}
  {destination : Option Path} {M : Str → List (Str × Json) → Schema → Prop}

/-- The destination is free or holds verified bytes of the entry. -/
def Settled (S : System) (target : Path) (M : Str → List (Str × Json) → Schema → Prop)
    (K : Str → DeviceRoot → Bytes → Prop) (nodes : Disk.Nodes) : Prop :=
  nodes target = none ∨ ∃ name metadata schema data, M name metadata schema ∧
    Verified S metadata schema (K name) data ∧ HoldsBytes target data nodes

/-- The destination holds verified bytes of an entry, as the result says. -/
def Delivered (S : System) (target : Path) (M : Str → List (Str × Json) → Schema → Prop)
    (K : Str → DeviceRoot → Bytes → Prop) (r : Restored) (nodes : Disk.Nodes) : Prop :=
  ∃ metadata schema data, M r.id metadata schema ∧ Verified S metadata schema (K r.id) data ∧
    HoldsBytes target data nodes ∧
    r.destination = target ∧ r.sha256 = S.hexdigest data ∧ r.size = data.length

/-- What the store tells about the device root and the ciphertext of an entry. -/
def KnownIn (S : System) (stateDir target : Path) (J : Disk.Nodes → Prop) (name : Str) :
    DeviceRoot → Bytes → Prop :=
  Known S stateDir (contentPath (entryPath stateDir name)) fun nodes => J nodes ∧ nodes target = none

/-- Whatever is known about the metadata and the store, the destination is settled all along. -/
theorem wp_restoreEntry (hplain : Undisturbed env stateDir target)
    (hothers : ∀ t nodes, J nodes → J (env.others t nodes))
    (haside : ∀ p, Temporary target p → Aside env p J)
    (hread : ∀ name m, validateEntryId S entryId = .ok name → J m.nodes ∧ m.nodes target = none →
      wp env (readMetadata S stateDir name)
        ((Assertion.always fun m => J m.nodes ∧ m.nodes target = none).postWith fun read m =>
          M name read.1 read.2 ∧ J m.nodes ∧ m.nodes target = none) m)
    (hrestore : ∀ name metadata schema path, M name metadata schema →
      restoreTarget S metadata destination = .ok path → path = target)
    (fuel : Nat) (hm : J m.nodes) (hfree : m.nodes target = none) :
    wp env (restoreEntry S convert fuel entryId stateDir destination)
      ((Assertion.always fun m =>
          Settled S target M (KnownIn S stateDir target J) m.nodes).postWith fun r m =>
        Delivered S target M (KnownIn S stateDir target J) r m.nodes) m := by
  have hboth : ∀ t nodes, (J nodes ∧ nodes target = none) →
      J (env.others t nodes) ∧ env.others t nodes target = none :=
    fun t nodes hn => ⟨hothers t nodes hn.1, (hplain.leaves t nodes).trans hn.2⟩
  have hstill : ∀ nodes, (J nodes ∧ nodes target = none) →
      Settled S target M (KnownIn S stateDir target J) nodes := fun _ hn => .inl hn.2
  unfold restoreEntry
  refine Kept.wp_lift_bind (.inl hfree) fun name hname => ?_
  rw [wp_bind]
  refine (hread name m hname ⟨hm, hfree⟩).mono
    ⟨?_, fun _ _ hn => hstill _ hn, fun _ hn => hstill _ hn⟩
  rintro ⟨metadata, schema⟩ m ⟨hmeta, hm⟩
  refine Kept.wp_lift_bind (hstill _ hm) fun path hpath => ?_
  obtain rfl := hrestore name metadata schema path hmeta hpath
  refine Kept.wp_bind_of hstill (kept_checkTarget hboth path) hm fun _ m hm => ?_
  rw [wp_bind]
  refine Disk.wp_sys_of hboth hm (fun _ => hstill _) (fun _ _ => hstill _) ?_
  intro t n temporary n' hn ha tick
  obtain ⟨hname, -, hmade⟩ := Disk.Action.mkstemp_some ha
  have htemporary : Temporary path temporary := ⟨_, hname⟩
  have hne : path ≠ temporary := by
    rintro rfl
    exact hplain.own htemporary
  have hone := haside temporary htemporary
  have hleaves := hplain.temporary temporary htemporary
  have hJ : J n' := hmade ▸ hone.blind n _ hn.1
  have hstart : HoldsBytes temporary [] n' := by
    rw [hmade, HoldsBytes, Disk.content, Disk.put_self]
  have hfree : n' path = none := by
    rw [hmade]
    exact (Disk.put_other hne _).trans hn.2
  have hdone : ∀ nodes, Clean S metadata schema (KnownIn S stateDir path J name) path nodes →
      Settled S path M (KnownIn S stateDir path J) nodes := by
    rintro nodes (hnone | ⟨data, hverified, hbytes⟩)
    · exact .inl hnone
    · exact .inr ⟨name, metadata, schema, data, hmeta, hverified, hbytes⟩
  have hclean : Aside env temporary (Clean S metadata schema (KnownIn S stateDir path J name) path) :=
    aside_clean hplain.leaves hne
  rw [Post.withOk_ok, wp_bind, wp_tryExcept]
  refine (wp_place (m := ⟨n', tick⟩) hone hleaves hplain.leaves hne fuel hJ hfree hstart).mono
    ⟨?_, fun e m hm => ⟨fun _ => ?_, by rintro ⟨⟩⟩, fun _ hm => hdone _ hm⟩
  · rintro written m ⟨data, rfl, hverified, hbytes⟩
    have hheld : ∀ nodes, HoldsBytes path data nodes →
        Settled S path M (KnownIn S stateDir path J) nodes :=
      fun _ hn => .inr ⟨name, metadata, schema, data, hmeta, hverified, hn⟩
    have h := bystander_leaves hplain.leaves data
    have hkeys : ¬ keyDirectory stateDir = path :=
      fun heq => hplain.outside (heq ▸ .inr (Disk.below_refl _))
    have hpath : ¬ metadataPath (entryPath stateDir name) = path := fun heq =>
      hplain.outside (heq ▸ inStore_of_below (below_entryPath stateDir name) (below_metadataPath _))
    refine (?_ : wp env _ ((Assertion.always fun m : Disk.Machine =>
      Settled S path M (KnownIn S stateDir path J) m.nodes).postWith _) _)
    refine Kept.wp_bind_of hheld (kept_now h) hbytes fun restoredAt m hm => ?_
    exact Kept.wp_bind_of hheld (kept_recordRestore h hkeys S hpath _ schema) hm fun _ m hm =>
      ⟨metadata, schema, data, hmeta, hverified, hm, rfl, rfl, rfl⟩
  · exact wp.bind (Kept.suppress (hclean.keeps (Disk.only_unlink _)) _ m hm)
      (fun _ m hm => hdone _ hm) (fun _ _ hm => hdone _ hm) fun _ hm => hdone _ hm

end Whole

/-! ## From any store -/

/-- The metadata passed the checks of its reader. -/
def Checked (S : System) (name : Str) (metadata : List (Str × Json)) (schema : Schema) : Prop :=
  ∃ value digest, checkCommon name value = .ok (metadata, schema, digest) ∧
    (schema = .current → ∃ device, checkVault S device name digest metadata = .ok ())

section AnyStore

variable {S : System} {stateDir target : Path} {env : Os} {J : Disk.Nodes → Prop}
  {m : Disk.Machine} {convert : Json → Except PyError Int} {entryId : Str}
  {metadata : List (Str × Json)} {schema : Schema} {data : Bytes}

theorem wp_readChecked (hothers : ∀ t nodes, J nodes → J (env.others t nodes)) (name : Str)
    (hm : J m.nodes) :
    wp env (readMetadata S stateDir name) ((Assertion.always fun m => J m.nodes).postWith
      fun read m => Checked S name read.1 read.2 ∧ J m.nodes) m := by
  have hload : Kept env J
      (loadMetadata S (metadataPath (entryPath stateDir name))) := by
    refine Kept.tryExcept ?_ _ fun e => Keeps.ite (fun _ => Kept.raise _) fun _ => Kept.raise _
    exact Keeps.bind (Kept.look hothers _) fun _ => Keeps.bind (Kept.liftExcept _) fun _ =>
      Keeps.bind (Kept.look hothers _) fun _ => Kept.liftExcept _
  unfold readMetadata
  refine Keeps.wp_bind hload hm fun value m hm => ?_
  refine Kept.wp_lift_bind hm fun checked hchecked => ?_
  obtain ⟨metadata, schema, digest⟩ := checked
  cases schema with
  | legacy => exact ⟨⟨value, digest, hchecked, nofun⟩, hm⟩
  | current =>
      rw [wp_bind, authenticate, wp_bind]
      refine (wp_loadExisting hothers hm).mono ⟨?_, fun _ _ hJ => hJ, fun _ hJ => hJ⟩
      rintro device m ⟨-, hm⟩
      refine (wp_liftExcept _ _).2 ⟨fun _ hvault => ?_, fun _ _ => hm⟩
      exact ⟨⟨value, digest, hchecked, fun _ => ⟨device, hvault⟩⟩, hm⟩

theorem Verified.mono {K K' : DeviceRoot → Bytes → Prop} (h : Verified S metadata schema K data)
    (himp : ∀ device ciphertext, K device ciphertext → K' device ciphertext) :
    Verified S metadata schema K' data where
  digest := h.digest
  size := h.size
  decrypts hschema := by
    obtain ⟨device, envelope, aad, contentKey, ciphertext, hK, h⟩ := h.decrypts hschema
    exact ⟨device, envelope, aad, contentKey, ciphertext, himp _ _ hK, h⟩

end AnyStore

namespace Sample

def target : Path := str "/g"

theorem undisturbed : Undisturbed env stateDir target where
  outside := by
    unfold InStore Disk.Below
    decide
  own := by
    rintro ⟨s, hs⟩
    have hsecond : target[1]? = some (Text.ofChar '.') := by
      rw [hs]
      rfl
    exact absurd hsecond (by decide)
  temporary := fun p _ => leaves p
  leaves := leaves target

end Sample

section Exact

variable {S : System} {stateDir target : Path} {env : Os} {m : Disk.Machine}
  {convert : Json → Except PyError Int} {device : DeviceRoot} {e : Entry} {w : Progress}
  {text contentKey aad data : Bytes} {metadata : List (Str × Json)} {destination : Option Path}

/-- The ciphertext of a lawful entry opens to its text. -/
theorem decrypts_of_lawful (hagree : Agree metadata (e.signed w S device data))
    (hlawful : e.Lawful S device text contentKey aad) {K : DeviceRoot → Bytes → Prop}
    (hK : ∀ d c, K d c → d = device ∧ c = S.aead.crypt contentKey e.envelope.contentNonce 0 text)
    {written : Bytes} (h : Decrypts S metadata K written) : written = text := by
  obtain ⟨d, envelope, aad', key, ciphertext, hknown, henvelope, haad, hkey, -, rfl⟩ := h
  obtain ⟨rfl, rfl⟩ := hK d ciphertext hknown
  have hprotection : e.protection ∈ [windowsProtection, previewProtection] :=
    hlawful.protection ▸ hlawful.supported
  obtain ⟨vault, hvault, hagreeVault⟩ := field_obj hagree
    ((e.field_signed w S d data (by decide)).trans (e.field_vault w))
    (nodup_toDict e.envelope e.protection)
  rw [hvault, fromDict_of_agree hagreeVault hlawful.sized hprotection, Except.ok.injEq] at henvelope
  subst henvelope
  rw [aadProjection_of_agree hagree, hlawful.aadBytes, Except.ok.injEq] at haad
  subst haad
  have hid : field metadata "id" = .str e.id :=
    field_str hagree ((e.field_signed w S d data (by decide)).trans (e.field_id w))
  have hopened : unwrapContentKey S d e.id e.envelope aad = .ok contentKey := by
    simp only [unwrapContentKey, bind_eq_ok, fromOption_eq_ok, require_eq_ok]
    refine ⟨_, encodeAscii_canonical hlawful.id, contentKey, ?_, (), hlawful.keyLength, rfl⟩
    rw [hlawful.wrapped, Aead.decrypt_encrypt]
  rw [hid] at hkey
  obtain rfl := Except.ok.inj (hopened.symm.trans hkey)
  exact S.aead.crypt_crypt contentKey e.envelope.contentNonce 0 text

/-- The destination of a restoration does not depend on the MAC. -/
theorem restoreTarget_of_agree (hagree : Agree metadata (e.signed w S device data)) :
    restoreTarget S metadata destination = restoreTarget S (e.members w) destination := by
  cases destination with
  | some path => rfl
  | none =>
      have horiginal : field metadata "original_path" = .str e.originalPath :=
        field_str hagree ((e.field_signed w S device data (by decide)).trans (e.field_originalPath w))
      rw [restoreTarget, restoreTarget, horiginal, e.field_originalPath]

/-- The destination of a published entry is free or holds the text of the entry, and a restoration
that returns has put it there. -/
theorem exact_restoreEntry (hquiet : QuietStore env stateDir)
    (hplain : Undisturbed env stateDir target)
    (hbesides : ∀ p, Temporary target p → ¬ InStore stateDir p)
    (hlawful : e.Lawful S device text contentKey aad) (hstate : w.state ∈ entryStates)
    (hdestination : restoreTarget S (e.members w) destination = .ok target) (fuel : Nat)
    (hm : Filed S stateDir (entryPath stateDir e.id) device e w text contentKey m.nodes)
    (hfree : m.nodes target = none) :
    wp env (restoreEntry S convert fuel e.id stateDir destination)
      ((Assertion.always fun m => m.nodes target = none ∨ HoldsBytes target text m.nodes).postWith
        fun r m => (r.id = e.id ∧ r.destination = target ∧ r.sha256 = S.hexdigest text ∧
          r.size = text.length) ∧ HoldsBytes target text m.nodes) m := by
  obtain ⟨f, hf, hcontent⟩ := Util.isFile_of_content hm.1.content
  have hbelow := below_entryPath stateDir e.id
  have hentry := bystander_entry hquiet hbelow S device e w text contentKey
  have hin : InStore stateDir (contentPath (entryPath stateDir e.id)) :=
    inStore_of_below hbelow (below_contentPath _)
  -- The entry, with its content file as it is.
  let J : Disk.Nodes → Prop := fun nodes =>
    Filed S stateDir (entryPath stateDir e.id) device e w text contentKey nodes ∧
      nodes (contentPath (entryPath stateDir e.id)) = some (.file f)
  have hothers : ∀ t nodes, J nodes → J (env.others t nodes) :=
    fun t nodes hJ => ⟨hentry.others t nodes hJ.1, (hquiet t nodes _ hin).trans hJ.2⟩
  have haside : ∀ p, Temporary target p → Aside env p J := by
    refine fun p hp => ⟨hothers, fun nodes node hJ => ⟨?_, ?_⟩⟩
    · refine hentry.blind nodes _ (Disk.same_put ?_ nodes node) hJ.1
      exact fun hpath => hbesides p hp (inStore_entryPaths hbelow hpath)
    · refine (Disk.put_other ?_ node).trans hJ.2
      rintro rfl
      exact hbesides _ hp hin
  have hknown : ∀ d c, KnownIn S stateDir target J e.id d c →
      d = device ∧ c = S.aead.crypt contentKey e.envelope.contentNonce 0 text := by
    rintro d c ⟨hdevice, hcipher⟩
    exact ⟨hdevice device fun nodes hn => hn.1.1.1.key,
      (hcipher f fun nodes hn => hn.1.2).trans hcontent⟩
  have hexact : ∀ {metadata schema written}, (∃ data, Agree metadata (e.signed w S device data)) →
      schema = .current → Verified S metadata schema (KnownIn S stateDir target J e.id) written →
      written = text := by
    rintro metadata schema written ⟨data, hagree⟩ hschema hverified
    exact decrypts_of_lawful hagree hlawful hknown (hverified.decrypts hschema)
  refine (wp_restoreEntry (J := J) (M := fun name metadata schema => name = e.id ∧
      schema = .current ∧ ∃ data, Agree metadata (e.signed w S device data))
    hplain hothers haside (fun name m hname hm => ?_) (fun name metadata schema path hread hpath => ?_)
    fuel ⟨hm, hf⟩ hfree).mono ⟨?_, fun _ m hsettled => ?_, fun m hsettled => ?_⟩
  · obtain rfl : name = e.id :=
      Except.ok.inj (hname.symm.trans (validateEntryId_canonical S hlawful.id))
    have hfixed : ∀ t nodes, nodes (contentPath (entryPath stateDir e.id)) = some (.file f) ∧
        nodes target = none → env.others t nodes (contentPath (entryPath stateDir e.id)) =
          some (.file f) ∧ env.others t nodes target = none :=
      fun t nodes hn => ⟨(hquiet t nodes _ hin).trans hn.1, (hplain.leaves t nodes).trans hn.2⟩
    refine (wp.and (wp_readMetadata hquiet hlawful hstate hm.1.1)
      (wp_readChecked hfixed e.id ⟨hm.1.2, hm.2⟩)).mono ⟨?_, ?_, ?_⟩
    · rintro read m ⟨⟨⟨hschema, hagree⟩, hfiled⟩, -, hnode, hfree⟩
      exact ⟨⟨rfl, hschema, hagree⟩, ⟨hfiled, hnode⟩, hfree⟩
    · exact fun _ m h => ⟨⟨h.1, h.2.1⟩, h.2.2⟩
    · exact fun m h => ⟨⟨h.1, h.2.1⟩, h.2.2⟩
  · obtain ⟨-, -, data, hagree⟩ := hread
    rw [restoreTarget_of_agree hagree, hdestination, Except.ok.injEq] at hpath
    exact hpath.symm
  · rintro r m ⟨metadata, schema, written, ⟨hid, hschema, hagree⟩, hverified, hbytes, hresult⟩
    rw [hid] at hverified
    obtain rfl := hexact hagree hschema hverified
    exact ⟨⟨hid, hresult⟩, hbytes⟩
  · obtain hnone | ⟨name, metadata, schema, written, ⟨rfl, hschema, hagree⟩, hverified, hbytes⟩ :=
      hsettled
    · exact .inl hnone
    · exact .inr (hexact hagree hschema hverified ▸ hbytes)
  · obtain hnone | ⟨name, metadata, schema, written, ⟨rfl, hschema, hagree⟩, hverified, hbytes⟩ :=
      hsettled
    · exact .inl hnone
    · exact .inr (hexact hagree hschema hverified ▸ hbytes)

end Exact

section Runs

variable {S : System} {stateDir : Path} {env : Os} {m : Disk.Machine}
  {convert : Json → Except PyError Int}

/-- A destination that a restoration can fill. -/
structure Target (S : System) (env : Os) (stateDir path target : Path) (nodes : Disk.Nodes) :
    Prop where
  expanded : S.expand path = .ok target
  plain : Undisturbed env stateDir target
  besides : ∀ p, Temporary target p → ¬ InStore stateDir p
  free : nodes target = none

/-- A published entry gives its text back after any run, and stays published. -/
theorem exact_after {id : Str} {text : Bytes} {calls : List Call} (hquiet : QuietStore env stateDir)
    (houtside : ∀ call ∈ calls, call.Outside S stateDir)
    (hm : Published S stateDir id text m.nodes) {path target : Path}
    (htarget : Target S env stateDir path target (after S convert stateDir env calls m).nodes)
    (fuel : Nat) :
    wp env (restoreEntry S convert fuel id stateDir (some path))
      ((Assertion.always fun m => (m.nodes target = none ∨ HoldsBytes target text m.nodes) ∧
          Published S stateDir id text m.nodes).postWith
        fun r m => ((r.id = id ∧ r.destination = target ∧ r.sha256 = S.hexdigest text ∧
          r.size = text.length) ∧ HoldsBytes target text m.nodes) ∧
          Published S stateDir id text m.nodes) (after S convert stateDir env calls m) := by
  have hlater : Published S stateDir id text (after S convert stateDir env calls m).nodes :=
    published_after hquiet houtside hm
  have hagain := published_restoreEntry hquiet convert fuel id (some path) hlater
  obtain ⟨device, e, contentKey, aad, w, rfl, hlawful, hstate, hfiled⟩ := hlater
  have hdestination : restoreTarget S (e.members w) (some path) = .ok target := htarget.expanded
  exact wp.and (exact_restoreEntry hquiet htarget.plain htarget.besides hlawful hstate hdestination
    fuel hfiled htarget.free) hagain

/-- An entry gives a text back after whatever calls outside of the store. -/
def Restorable (S : System) (convert : Json → Except PyError Int) (stateDir : Path) (env : Os)
    (id : Str) (text : Bytes) (m : Disk.Machine) : Prop :=
  ∀ calls : List Call, (∀ call ∈ calls, call.Outside S stateDir) → ∀ path target fuel,
    Target S env stateDir path target (after S convert stateDir env calls m).nodes →
    wp env (restoreEntry S convert fuel id stateDir (some path))
      ((Assertion.always fun m => (m.nodes target = none ∨ HoldsBytes target text m.nodes) ∧
          Published S stateDir id text m.nodes).postWith
        fun r m => ((r.id = id ∧ r.destination = target ∧ r.sha256 = S.hexdigest text ∧
          r.size = text.length) ∧ HoldsBytes target text m.nodes) ∧
          Published S stateDir id text m.nodes) (after S convert stateDir env calls m)

end Runs

end ZsecShield.Quarantine
