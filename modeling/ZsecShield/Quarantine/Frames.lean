import ZsecShield.Lib.Bystander
import ZsecShield.Quarantine.Entry

/-!
# What the quarantine leaves alone

A property of paths that a call does not name is kept by the call, however the call ends: by
`quarantine_finding`, `restore_entry` and `list_entries`, and by the helpers they are made of.
-/

namespace ZsecShield

open Text (Str str)
open Effect
open Disk (Bystander Kept)

namespace Util

variable {env : Os} {F : Path → Prop} {J : Disk.Nodes → Prop}

theorem kept_touch (h : Bystander env F J) : Kept env J (sys Disk.Action.touch) :=
  h.keeps_free (Disk.changes_look _)

theorem kept_atomicWriteBytes (h : Bystander env F J) {path : Path} (hpath : ¬ F path)
    (data : Bytes) (mode : Nat) : Kept env J (atomicWriteBytes path data mode) := by
  have hfill : ∀ temporary, ¬ F temporary →
      Kept env J (fillAndReplace temporary path data mode) := by
    intro temporary htemporary
    refine Keeps.bind (h.keeps_at (Disk.changes_write _ _) htemporary) fun _ => ?_
    refine Keeps.bind (kept_touch h) fun _ => ?_
    refine Keeps.bind (Kept.suppress (h.keeps_at (Disk.changes_chmod _ _) htemporary) _) fun _ => ?_
    refine Keeps.bind (h.keeps (Disk.changes_replace _ _) ?_) fun _ => keeps_fsyncDirectory h.others
    rintro p hp (rfl | rfl)
    · exact htemporary hp
    · exact hpath hp
  unfold atomicWriteBytes
  refine Keeps.bind (h.keeps_free (Disk.changes_mkdir _)) fun _ => ?_
  intro m hm
  rw [wp_bind]
  refine (h.wp_fresh (Disk.changes_mkstemp _ _) (fun _ _ _ _ ha => (Disk.Action.mkstemp_some ha).2.1)
    hm).mono ⟨?_, fun _ _ hJ => hJ, fun _ hJ => hJ⟩
  rintro temporary m' ⟨htemporary, hJ⟩
  refine Kept.tryExcept (hfill temporary htemporary) _ (fun e => ?_) m' hJ
  exact Keeps.bind (Kept.suppress (h.keeps_at (Disk.changes_unlink _) htemporary) _)
    fun _ => Kept.raise e

theorem kept_atomicWriteJson (h : Bystander env F J) {path : Path} (hpath : ¬ F path) (rt : Runtime)
    (value : Json) (mode : Nat) : Kept env J (atomicWriteJson rt path value mode) :=
  Keeps.bind (Kept.liftExcept _) fun data => kept_atomicWriteBytes h hpath (data ++ [10]) mode

end Util

namespace Quarantine

open Util (Os Io kept_touch kept_atomicWriteBytes kept_atomicWriteJson)

variable {env : Os} {F : Path → Prop} {J : Disk.Nodes → Prop}

section Helpers

theorem kept_look {α : Type} (h : Bystander env F J) (f : Disk.Nodes → Option α) :
    Kept env J (Util.sys (Disk.Action.look f)) :=
  h.keeps_free (Disk.changes_look f)

theorem kept_chmod (h : Bystander env F J) {path : Path} (hpath : ¬ F path) (mode : Nat) :
    Kept env J (Prog.suppress PyError.isOs (Util.sys (Disk.Action.chmod path mode))) :=
  Kept.suppress (h.keeps_at (Disk.changes_chmod path mode) hpath) _

theorem kept_urandom (h : Bystander env F J) (n : Nat) :
    Kept env J (Util.sys (Disk.Action.urandom n)) :=
  h.keeps_free (Disk.changes_urandom n)

theorem kept_now (h : Bystander env F J) : Kept env J (Util.sys Disk.Action.now) :=
  h.keeps_free Disk.changes_now

/-- A key that is there is never made again, so the key may be one of the paths. -/
theorem kept_ensureDeviceRoot (h : Bystander env F J) (S : System) (stateDir : Path)
    (hdirectory : ¬ F (keyDirectory stateDir)) (create : Bool) :
    Kept env J (ensureDeviceRoot S stateDir create) := by
  have hcreate : ¬ F (deviceKeyPath stateDir) → Kept env J (createDeviceRoot S stateDir) := by
    intro hkey
    refine Keeps.bind (h.keeps_free (Disk.changes_mkdir _)) fun _ => ?_
    refine Keeps.bind (kept_chmod h hdirectory _) fun _ => ?_
    exact Keeps.bind (kept_urandom h _) fun _ => Keeps.bind (Kept.liftExcept _) fun _ =>
      kept_atomicWriteJson h hkey _ _ _
  unfold ensureDeviceRoot
  intro m hm
  rw [wp_bind]
  refine Disk.wp_sys_of h.others hm (fun _ hJ => hJ) (fun _ _ hJ => hJ) ?_
  intro t n there n' hJ ha tick
  have hn : n' = n ∧ there = (n (deviceKeyPath stateDir)).isSome := by
    cases ha
    exact ⟨rfl, rfl⟩
  obtain ⟨rfl, hthere⟩ := hn
  rw [Post.withOk_ok]
  refine (?_ : Kept env J _) ⟨n', tick⟩ hJ
  refine Keeps.ite (fun _ => Keeps.pure ()) fun hfree => Keeps.ite (fun _ => ?_) fun _ => Kept.raise _
  refine hcreate (h.free hJ ?_)
  cases hnone : n' (deviceKeyPath stateDir) with
  | none => rfl
  | some node => exact absurd (hthere.trans (by rw [hnone]; rfl)) hfree

theorem kept_loadDeviceRoot (h : Bystander env F J) (S : System) (stateDir : Path)
    (hdirectory : ¬ F (keyDirectory stateDir)) (create : Bool) :
    Kept env J (loadDeviceRoot S stateDir create) := by
  refine Keeps.bind (kept_ensureDeviceRoot h S stateDir hdirectory create) fun _ => ?_
  refine Keeps.bind (Kept.tryExcept (Keeps.bind (kept_look h _) fun _ => Kept.liftExcept _) _
    fun _ => Kept.raise _) fun _ => Kept.liftExcept _

theorem kept_createEnvelope (h : Bystander env F J) (S : System) (device : DeviceRoot)
    (entryId : Str) (aad : Bytes) : Kept env J (createEnvelope S device entryId aad) := by
  unfold createEnvelope
  refine Keeps.bind (kept_urandom h _) fun _ => Keeps.bind (kept_urandom h _) fun _ => ?_
  refine Keeps.bind (kept_urandom h _) fun _ => Keeps.bind (kept_urandom h _) fun _ => ?_
  exact Keeps.bind (Kept.liftExcept _) fun _ => Keeps.pure _

theorem kept_writeMetadata (h : Bystander env F J) (S : System) {stateDir path : Path}
    (hdirectory : ¬ F (keyDirectory stateDir)) (hpath : ¬ F path) (metadata : List (Str × Json)) :
    Kept env J (writeMetadata S stateDir path metadata) :=
  Keeps.bind (kept_loadDeviceRoot h S stateDir hdirectory false) fun _ =>
    Keeps.bind (Kept.liftExcept _) fun _ =>
      Keeps.bind (kept_atomicWriteJson h hpath _ _ _) fun _ => Keeps.pure _

theorem kept_readMetadata (h : Bystander env F J) (S : System) (stateDir : Path)
    (hdirectory : ¬ F (keyDirectory stateDir)) (entryName : Str) :
    Kept env J (readMetadata S stateDir entryName) := by
  refine Keeps.bind (Kept.tryExcept ?_ _ fun e => ?_) fun value => ?_
  · exact Keeps.bind (kept_look h _) fun _ => Keeps.bind (Kept.liftExcept _) fun _ =>
      Keeps.bind (kept_look h _) fun _ => Kept.liftExcept _
  · exact Keeps.ite (fun _ => Kept.raise _) fun _ => Kept.raise _
  · refine Keeps.bind (Kept.liftExcept _) fun ⟨metadata, schema, digest⟩ =>
      Keeps.bind ?_ fun _ => Keeps.pure _
    cases schema with
    | legacy => exact Keeps.pure _
    | current =>
        exact Keeps.bind (kept_loadDeviceRoot h S stateDir hdirectory false) fun _ =>
          Kept.liftExcept _

theorem kept_listEntries (h : Bystander env F J) (S : System) (stateDir : Path)
    (hdirectory : ¬ F (keyDirectory stateDir)) (names : List Str) :
    Kept env J (listEntries S stateDir names) := by
  have hentry : ∀ listing name, Kept env J (listEntry S stateDir listing name) := by
    intro listing name
    refine Keeps.ite (fun _ => Keeps.pure _) fun _ => Kept.tryExcept ?_ _ fun _ => Keeps.pure _
    exact Keeps.bind (Kept.liftExcept _) fun _ =>
      Keeps.bind (kept_readMetadata h S stateDir hdirectory name) fun _ => Keeps.pure _
  unfold listEntries
  refine Keeps.bind (kept_look h _) fun there => Keeps.ite (fun _ => ?_) fun _ => Keeps.pure _
  refine Keeps.bind (Kept.tryExcept ?_ _ fun _ => Kept.raise _) fun _ => Keeps.foldEach hentry _ _
  exact Keeps.bind (kept_touch h) fun _ => Keeps.pure _

theorem kept_copyChunks {read : Nat → Io Bytes} {write : Nat → Bytes → Io Unit}
    (hread : ∀ offset, Kept env J (read offset))
    (hwrite : ∀ offset chunk, Kept env J (write offset chunk)) :
    ∀ fuel done, Kept env J (copyChunks read write fuel done)
  | 0, _ => Kept.halt
  | fuel + 1, done => Keeps.bind (hread _) fun _ => Keeps.ite (fun _ => Keeps.pure _) fun _ =>
      Keeps.bind (hwrite _ _) fun _ => kept_copyChunks hread hwrite fuel _

theorem kept_readChunks (h : Bystander env F J) (fuel : Nat) (path : Path)
    {write : Nat → Bytes → Io Unit} (hwrite : ∀ offset chunk, Kept env J (write offset chunk)) :
    Kept env J (readChunks fuel path write) :=
  Keeps.bind (kept_look h _) fun _ => kept_copyChunks (fun _ => kept_look h _) hwrite fuel []

end Helpers

/-! ## The calls -/

/-- The paths of `F` lie outside of what a call makes for itself: they are no temporary directory of
the quarantine and lie below none, and one that lies below an entry comes with the entry. -/
structure Apart (stateDir : Path) (F : Path → Prop) : Prop where
  keys : ¬ F (keyDirectory stateDir)
  entries : ¬ F (entriesDir stateDir)
  hidden : ∀ s p, F p → ¬ Disk.Below (Disk.join (entriesDir stateDir) (str "." ++ s)) p
  rooted : ∀ name p, Text.ofChar '/' ∉ name → F p →
    Disk.Below (Disk.join (entriesDir stateDir) name) p → F (Disk.join (entriesDir stateDir) name)

theorem flat_of_isCanonicalUuid {s : Str} (h : isCanonicalUuid s = true) : Text.ofChar '/' ∉ s := by
  intro hmem
  have hpoint := point_of_isCanonicalUuid h hmem
  have hslash : (Text.ofChar '/').val = 47 := rfl
  omega

section Calls

variable {stateDir : Path}

theorem kept_encryptRegularSource (h : Bystander env F J) (S : System) (fuel : Nat)
    {source destination : Path} (hdestination : ¬ F destination) (expected : SourceSnapshot)
    (contentKey contentNonce aad : Bytes) :
    Kept env J (encryptRegularSource S fuel source destination expected contentKey contentNonce
      aad) := by
  have hopened : ∀ opened, Kept env J
      (encryptOpened S fuel source destination expected opened contentKey contentNonce) := by
    intro opened
    refine Keeps.bind (kept_look h _) fun _ => Keeps.bind (Kept.liftExcept _) fun _ => ?_
    refine Keeps.bind (h.keeps_free (Disk.changes_createNew _)) fun _ => ?_
    refine Keeps.bind (kept_copyChunks (fun _ => kept_look h _)
      (fun _ _ => h.keeps_at (Disk.changes_extend _ _) hdestination) fuel []) fun _ => ?_
    refine Keeps.bind (kept_touch h) fun _ => Keeps.bind (kept_touch h) fun _ => ?_
    refine Keeps.bind (kept_look h _) fun _ => Keeps.bind (Kept.liftExcept _) fun _ => ?_
    exact Keeps.bind (kept_look h _) fun _ => Keeps.bind (Kept.liftExcept _) fun _ => Keeps.pure _
  unfold encryptRegularSource
  refine Keeps.bind (Kept.tryExcept (kept_look h _) _ fun _ => Kept.raise _) fun node => ?_
  refine Keeps.bind (Kept.tryFinally (Kept.tryExcept ?_ _ fun e => ?_) (kept_touch h)) fun _ =>
    Keeps.bind (kept_chmod h hdestination _) fun _ => Keeps.pure _
  · cases node with
    | file opened => exact hopened opened
    | directory => exact Kept.raise _
    | link => exact Kept.raise _
    | special => exact Kept.raise _
  · exact Keeps.bind (Kept.suppress (h.keeps_at (Disk.changes_unlink _) hdestination) _)
      fun _ => Kept.raise e

/-- A published entry had a name that was free. -/
theorem kept_publish (h : Bystander env F J) (hapart : Apart stateDir F) (S : System) (fuel : Nat)
    (finding : FileFinding) (source : Path) {temporary final : Path} {s id : Str}
    (htemporary : temporary = Disk.join (entriesDir stateDir) (str "." ++ s))
    (hfinal : final = Disk.join (entriesDir stateDir) id) (hflat : Text.ofChar '/' ∉ id)
    (snapshot : SourceSnapshot) (device : DeviceRoot) (metadata : List (Str × Json))
    (envelope : VaultEnvelope) (contentKey aad : Bytes) {m : Disk.Machine} (hm : J m.nodes) :
    wp env (publish S fuel finding source temporary final snapshot device metadata envelope contentKey
      aad) ((Assertion.always fun m => J m.nodes).postWith fun _ m => ¬ F final ∧ J m.nodes) m := by
  have hbelow : ∀ p, F p → ¬ Disk.Below temporary p := htemporary ▸ hapart.hidden s
  have hself : ¬ F temporary := fun hF => hbelow _ hF (Disk.below_refl _)
  have hinside : ∀ name, ¬ F (Disk.join temporary name) :=
    fun name hF => hbelow _ hF (Disk.below_join _ _)
  unfold publish
  refine Keeps.wp_bind (kept_chmod h hself _) hm fun _ m hm => ?_
  refine Keeps.wp_bind (kept_encryptRegularSource h S fuel (hinside _) _ _ _ _) hm
    fun ⟨digest, contentTag⟩ m hm => ?_
  refine Keeps.wp_bind (Kept.liftExcept _) hm fun _ m hm => ?_
  refine Keeps.wp_bind (Kept.liftExcept _) hm fun signed m hm => ?_
  refine Keeps.wp_bind (kept_atomicWriteJson h (hinside _) _ _ _) hm fun _ m hm => ?_
  rw [wp_bind]
  refine Disk.wp_sys_of h.others hm (fun _ hJ => hJ) (fun _ _ hJ => hJ) fun t n _ n' hJ ha tick => ?_
  obtain ⟨-, hfree, -⟩ := Disk.Action.renameTree_some ha
  have hentry : ¬ F final := h.free hJ hfree
  refine ⟨hentry, h.step (Disk.changes_renameTree _ _) ?_ hJ ha⟩
  rintro p hp (hsource | htarget)
  · exact hbelow p hp hsource
  · rw [hfinal] at hentry htarget
    exact hentry (hapart.rooted id p hflat hp htarget)

theorem kept_removeSource (h : Bystander env F J) {source : Path} (hsource : ¬ F source)
    (snapshot : SourceSnapshot) (entryId : Str) :
    Kept env J (removeSource source snapshot entryId) :=
  Keeps.bind (kept_look h _) fun _ => Keeps.bind (Kept.liftExcept _) fun _ =>
    h.keeps_at (Disk.changes_unlink _) hsource

theorem kept_finish (h : Bystander env F J) (hapart : Apart stateDir F) (S : System)
    {source final : Path} {id : Str} (hsource : ¬ F source)
    (hfinal : final = Disk.join (entriesDir stateDir) id) (hflat : Text.ofChar '/' ∉ id)
    (hentry : ¬ F final) (snapshot : SourceSnapshot) (metadata : List (Str × Json)) :
    Kept env J (finish S stateDir source final snapshot id metadata) := by
  have hmetadata : ¬ F (Disk.join final metadataName) := by
    intro hF
    subst hfinal
    exact hentry (hapart.rooted id _ hflat hF (Disk.below_join _ _))
  unfold finish
  refine Keeps.bind (Kept.tryExcept (kept_removeSource h hsource _ _) _ fun e => ?_) fun _ => ?_
  · refine Keeps.bind (kept_writeMetadata h S hapart.keys hmetadata _) fun _ => ?_
    exact Keeps.ite (fun _ => Kept.raise _) fun _ => Kept.raise _
  · exact Keeps.bind (kept_now h) fun _ => kept_writeMetadata h S hapart.keys hmetadata _

theorem kept_inspectRegularSource (h : Bystander env F J) (source : Path) :
    Kept env J (inspectRegularSource source) := by
  refine Keeps.bind (Kept.tryExcept (kept_look h _) _ fun _ => Kept.raise _) fun node => ?_
  cases node with
  | file f => exact Keeps.pure _
  | directory => exact Kept.raise _
  | link => exact Kept.raise _
  | special => exact Kept.raise _

theorem kept_fillEntry (h : Bystander env F J) (hapart : Apart stateDir F) (S : System) (fuel : Nat)
    (finding : FileFinding) {source temporary : Path} {s id : Str} (hsource : ¬ F source)
    (htemporary : temporary = Disk.join (entriesDir stateDir) (str "." ++ s))
    (hflat : Text.ofChar '/' ∉ id) (snapshot : SourceSnapshot) (createdAt : Str) :
    Kept env J (fillEntry S fuel finding stateDir source temporary snapshot id createdAt) := by
  unfold fillEntry
  refine Keeps.bind (kept_loadDeviceRoot h S stateDir hapart.keys true) fun device => ?_
  refine Keeps.bind (Kept.liftExcept _) fun zba => Keeps.bind (Kept.liftExcept _) fun aad => ?_
  refine Keeps.bind (kept_createEnvelope h S device id aad) fun made => ?_
  intro m hm
  rw [wp_bind, wp_tryExcept]
  refine (kept_publish h hapart S fuel finding _ htemporary rfl hflat snapshot device _ made.1
    made.2 aad hm).mono ⟨?_, fun e m hm => ⟨fun _ => ?_, nofun⟩, fun _ hJ => hJ⟩
  · rintro signed m ⟨hentry, hm⟩
    exact kept_finish h hapart S hsource rfl hflat hentry snapshot signed m hm
  · refine Keeps.wp_bind (Kept.suppress (h.keeps (Disk.changes_rmtree _) ?_) _) hm fun _ m hm => hm
    rw [htemporary]
    exact hapart.hidden _

/-- `quarantine_finding` changes what it names: its source and the entry it makes. -/
theorem kept_quarantineFinding (h : Bystander env F J) (hapart : Apart stateDir F) (S : System)
    (fuel : Nat) (finding : FileFinding) (hsource : ¬ F (S.pathText finding.path)) :
    Kept env J (quarantineFinding S fuel finding stateDir) := by
  unfold quarantineFinding
  refine Keeps.bind (Kept.liftExcept _) fun _ => ?_
  refine Keeps.bind (kept_inspectRegularSource h _) fun snapshot => ?_
  refine Keeps.bind (Kept.liftExcept _) fun _ => ?_
  refine Keeps.bind (h.keeps_free (Disk.changes_mkdir _)) fun _ => ?_
  refine Keeps.bind (kept_chmod h hapart.entries _) fun _ => ?_
  intro m hm
  rw [wp_bind]
  refine Disk.wp_sys_of h.others hm (fun _ hJ => hJ) (fun _ _ hJ => hJ) ?_
  intro t n random n' hJ ha tick
  have hrandom : n' = n ∧ isCanonicalUuid (uuidText random) = true := by
    cases ha
    exact ⟨rfl, isCanonicalUuid_uuidText (env.length_random _ _)⟩
  obtain ⟨rfl, hid⟩ := hrandom
  rw [Post.withOk_ok]
  refine Keeps.wp_bind (kept_now h) hJ fun created m hm => ?_
  refine h.wp_call hm fun t n temporary n' tick hJ ha => ?_
  obtain ⟨htemporary, -, -⟩ := Disk.Action.mkdtemp_some ha
  rw [List.append_assoc, List.append_assoc] at htemporary
  exact kept_fillEntry h hapart S fuel finding hsource htemporary (flat_of_isCanonicalUuid hid)
    snapshot _ ⟨n', tick⟩ (h.step (Disk.changes_mkdtemp _ _) (fun _ _ => not_false) hJ ha)

theorem kept_validateRegularContent (h : Bystander env F J) (path : Path) :
    Kept env J (validateRegularContent path) := by
  refine Keeps.bind (Kept.tryExcept (kept_look h _) _ fun _ => Kept.raise _) fun node => ?_
  cases node with
  | file f => exact Keeps.pure f
  | directory => exact Kept.raise _
  | link => exact Kept.raise _
  | special => exact Kept.raise _

theorem kept_decryptContent (h : Bystander env F J) (hkeys : ¬ F (keyDirectory stateDir))
    (S : System) (fuel : Nat) (content : Path) {output : Path} (houtput : ¬ F output)
    (metadata : List (Str × Json)) :
    Kept env J (decryptContent S fuel stateDir content output metadata) := by
  unfold decryptContent
  refine Keeps.bind (kept_validateRegularContent h content) fun f => ?_
  refine Keeps.bind (Kept.liftExcept _) fun _ => ?_
  refine Keeps.bind (kept_loadDeviceRoot h S stateDir hkeys false) fun device => ?_
  refine Keeps.bind (Kept.liftExcept _) fun envelope => Keeps.bind (Kept.liftExcept _) fun aad => ?_
  refine Keeps.bind (Kept.liftExcept _) fun contentKey => Keeps.bind (Kept.liftExcept _) fun tag => ?_
  refine Keeps.bind (Kept.tryExcept ?_ _ fun _ => Kept.raise _) fun ciphertext => Keeps.pure _
  refine Keeps.bind (kept_readChunks h fuel content fun _ _ =>
    h.keeps_at (Disk.changes_extend _ _) houtput) fun ciphertext => ?_
  exact Keeps.bind (Kept.liftExcept _) fun _ => Keeps.pure _

theorem kept_copyLegacyContent (h : Bystander env F J) (S : System) (fuel : Nat) (content : Path)
    {output : Path} (houtput : ¬ F output) :
    Kept env J (copyLegacyContent S fuel content output) := by
  have hhash : Kept env J (hashRegularFile S fuel content) := by
    refine Keeps.bind (kept_validateRegularContent h content) fun _ => ?_
    refine Keeps.bind (Kept.tryExcept ?_ _ fun _ => Kept.raise _) fun _ => Keeps.pure _
    exact kept_readChunks h fuel content fun _ _ => Keeps.pure _
  unfold copyLegacyContent
  refine Keeps.bind hhash fun expected => ?_
  refine Keeps.bind (Kept.tryExcept (kept_readChunks h fuel content fun _ _ =>
    h.keeps_at (Disk.changes_extend _ _) houtput) _ fun _ => Kept.raise _) fun data => ?_
  exact Keeps.bind (Kept.liftExcept _) fun _ => Keeps.pure _

/-- What takes the name of the destination finds it free. -/
theorem wp_linkTarget (h : Bystander env F J) (temporary target : Path) {m : Disk.Machine}
    (hm : J m.nodes) :
    wp env (linkTarget temporary target)
      ((Assertion.always fun m => J m.nodes).postWith fun _ m => ¬ F target ∧ J m.nodes) m := by
  unfold linkTarget
  rw [wp_tryExcept]
  refine Disk.wp_sys_of h.others hm (fun _ hJ => hJ) (fun e m hJ => ⟨fun _ => ?_, fun _ => hJ⟩) ?_
  · rw [wp_ite]
    exact ⟨fun _ => hJ, fun _ => hJ⟩
  · intro t n _ n' hJ ha tick
    obtain ⟨f, -, hfree, -⟩ := Disk.Action.link_some ha
    exact ⟨h.free hJ hfree, h.step (Disk.changes_link _ _) (fun _ _ => not_false) hJ ha⟩

theorem kept_place (h : Bystander env F J) (hkeys : ¬ F (keyDirectory stateDir)) (S : System)
    (convert : Json → Except PyError Int) (fuel : Nat) (entry : Path) {temporary : Path}
    (htemporary : ¬ F temporary) (target : Path) (metadata : List (Str × Json)) (schema : Schema) :
    Kept env J (place S convert fuel stateDir entry temporary target metadata schema) := by
  have hcontent : Kept env J (writeContent S fuel stateDir entry temporary metadata schema) := by
    cases schema with
    | current => exact kept_decryptContent h hkeys S fuel _ htemporary metadata
    | legacy => exact kept_copyLegacyContent h S fuel _ htemporary
  have hmode : Kept env J (setMode convert temporary metadata) :=
    Kept.suppress (Keeps.bind (Kept.liftExcept _) fun _ =>
      h.keeps_at (Disk.changes_chmod _ _) htemporary) _
  unfold place
  refine Keeps.bind hcontent fun written => ?_
  refine Keeps.bind (kept_touch h) fun _ => Keeps.bind (kept_touch h) fun _ => ?_
  refine Keeps.bind (kept_touch h) fun _ => Keeps.bind (Kept.liftExcept _) fun _ => ?_
  refine Keeps.bind hmode fun _ => ?_
  intro m hm
  rw [wp_bind]
  refine (wp_linkTarget h temporary target hm).mono ⟨?_, fun _ _ hJ => hJ, fun _ hJ => hJ⟩
  rintro _ m ⟨htarget, hm⟩
  have htimes : Kept env J (setTimes convert target metadata) :=
    Kept.suppress (Keeps.bind (Kept.liftExcept _) fun _ => Keeps.bind (Kept.liftExcept _) fun _ =>
      h.keeps_at (Disk.changes_utime _ _) htarget) _
  refine (?_ : Kept env J _) m hm
  refine Keeps.bind (h.keeps_at (Disk.changes_unlink _) htemporary) fun _ => ?_
  exact Keeps.bind htimes fun _ => Keeps.pure _

theorem kept_checkTarget (hothers : ∀ t nodes, J nodes → J (env.others t nodes)) (target : Path) :
    Kept env J (checkTarget target) := by
  have htaken : Kept env J (isTaken target) :=
    Keeps.bind (Kept.look hothers _) fun _ => Keeps.ite (fun _ => Keeps.pure _)
      fun _ => Kept.look hothers _
  refine Keeps.bind htaken fun _ => Keeps.bind (Kept.liftExcept _) fun _ => ?_
  exact Keeps.bind (Kept.tryExcept (Kept.look hothers _) _ fun _ => Kept.raise _) fun _ =>
    Kept.liftExcept _

theorem kept_recordRestore (h : Bystander env F J) (hkeys : ¬ F (keyDirectory stateDir))
    (S : System) {path : Path} (hpath : ¬ F path) (updated : List (Str × Json)) (schema : Schema) :
    Kept env J (recordRestore S stateDir path updated schema) := by
  cases schema with
  | current => exact Keeps.bind (kept_writeMetadata h S hkeys hpath _) fun _ => Keeps.pure _
  | legacy => exact kept_atomicWriteJson h hpath _ _ _

/-- `restore_entry` changes what it names: its destination and the metadata of its entry. -/
theorem kept_restoreEntry (h : Bystander env F J) (hkeys : ¬ F (keyDirectory stateDir)) (S : System)
    (convert : Json → Except PyError Int) (fuel : Nat) {entryId : Str} (destination : Option Path)
    (hmetadata : ∀ name, validateEntryId S entryId = .ok name →
      ¬ F (Disk.join (Disk.join (entriesDir stateDir) name) metadataName)) :
    Kept env J (restoreEntry S convert fuel entryId stateDir destination) := by
  unfold restoreEntry
  intro m hm
  rw [wp_bind, wp_liftExcept]
  refine ⟨fun normalized hnormalized => ?_, fun _ _ => hm⟩
  have hpath := hmetadata normalized hnormalized
  refine (?_ : Kept env J _) m hm
  refine Keeps.bind (kept_readMetadata h S stateDir hkeys normalized) fun ⟨metadata, schema⟩ => ?_
  refine Keeps.bind (Kept.liftExcept _) fun target => ?_
  refine Keeps.bind (kept_checkTarget h.others target) fun _ => ?_
  intro m hm
  rw [wp_bind]
  refine (h.wp_fresh (Disk.changes_mkstemp _ _)
    (fun _ _ _ _ ha => (Disk.Action.mkstemp_some ha).2.1) hm).mono
    ⟨?_, fun _ _ hJ => hJ, fun _ hJ => hJ⟩
  rintro temporary m ⟨htemporary, hm⟩
  refine (?_ : Kept env J _) m hm
  refine Keeps.bind (Kept.tryExcept (kept_place h hkeys S convert fuel _ htemporary target metadata
    schema) _ fun e => ?_) fun placed => ?_
  · exact Keeps.bind (Kept.suppress (h.keeps_at (Disk.changes_unlink _) htemporary) _)
      fun _ => Kept.raise e
  refine Keeps.bind (kept_now h) fun restoredAt => ?_
  exact Keeps.bind (kept_recordRestore h hkeys S hpath _ schema) fun _ => Keeps.pure _

end Calls

end Quarantine

end ZsecShield
