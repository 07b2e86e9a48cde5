import ZsecShield.Quarantine.Published

/-!
# How an entry is published

The steps of `quarantine_finding` one by one.  The source is copied chunk by chunk, so what is
encrypted is what was read (`wp_encryptRegularSource`), the metadata is written beside it, and the
directory with both takes the name of the entry in one step (`wp_publish`).  From then on the entry
is published, whatever becomes of the source (`published_finish`).
-/

namespace ZsecShield.Quarantine

open Text (Str str)
open Feed (field)
open Effect
open Checks
open Disk (Bystander Kept Below)
open Json (Agree)
open Util (Os Io kept_touch kept_atomicWriteBytes)

/-! ## Copying -/

section Copying

variable {env : Os} {J : Disk.Nodes → Prop} {K Q : Bytes → Disk.Nodes → Prop}
  {R : Bytes → Bytes → Disk.Nodes → Prop}

/-- The rule for a copy: `K` speaks about what was read so far, `R` about one more chunk, and `Q`
about all of it. -/
theorem wp_copyChunks {read : Nat → Io Bytes} {write : Nat → Bytes → Io Unit}
    (hread : ∀ done m, K done m.nodes → wp env (read done.length)
      ((Assertion.always fun m => J m.nodes).postWith fun chunk m =>
        (chunk = [] → Q done m.nodes) ∧ (chunk ≠ [] → R done chunk m.nodes)) m)
    (hwrite : ∀ done chunk m, R done chunk m.nodes → wp env (write done.length chunk)
      ((Assertion.always fun m => J m.nodes).postWith fun _ m => K (done ++ chunk) m.nodes) m)
    (himp : ∀ done nodes, K done nodes → J nodes) :
    ∀ fuel done (m : Disk.Machine), K done m.nodes → wp env (copyChunks read write fuel done)
      ((Assertion.always fun m => J m.nodes).postWith fun text m => Q text m.nodes) m
  | 0, done, m, hK => himp done m.nodes hK
  | fuel + 1, done, m, hK => by
      rw [copyChunks, wp_bind]
      refine (hread done m hK).mono ⟨fun chunk m hchunk => ?_, fun _ _ hJ => hJ, fun _ hJ => hJ⟩
      refine (wp_ite _ _ _ _).2 ⟨fun hnil => hchunk.1 hnil, fun hcons => ?_⟩
      rw [wp_bind]
      exact (hwrite done chunk m (hchunk.2 hcons)).mono
        ⟨fun _ m hK => wp_copyChunks hread hwrite himp fuel _ m hK, fun _ _ hJ => hJ, fun _ hJ => hJ⟩

/-- The property fixes the file under a path. -/
def Fixes (J : Disk.Nodes → Prop) (path : Path) (f : Disk.File) : Prop :=
  ∀ nodes, J nodes → nodes path = some (.file f)

/-- The text is the content of the file, if the file is fixed. -/
def Original (J : Disk.Nodes → Prop) (path : Path) (text : Bytes) : Prop :=
  ∀ f, Fixes J path f → text = f.content

theorem Original.weaken {J' : Disk.Nodes → Prop} {path : Path} {text : Bytes}
    (h : Original J path text) (himp : ∀ nodes, J nodes → J' nodes) : Original J' path text :=
  fun f hf => h f fun nodes hJ => hf nodes (himp nodes hJ)

/-- A chunk of a file behind what was read of it. -/
theorem chunk_spec {content done chunk : Bytes} {count : Nat} (hcount : 0 < count)
    (hdone : done <+: content) (hchunk : (content.drop done.length).take count = chunk) :
    (chunk = [] → done = content) ∧ done ++ chunk <+: content := by
  obtain ⟨rest, rfl⟩ := hdone
  rw [List.drop_left] at hchunk
  subst hchunk
  refine ⟨fun hnil => ?_, (List.prefix_append_right_inj done).2 (List.take_prefix _ _)⟩
  obtain hzero | hrest := List.take_eq_nil_iff.1 hnil
  · exact absurd hzero (Nat.ne_of_gt hcount)
  · rw [hrest, List.append_nil]

/-- The rule for a read of an open file that is fixed. -/
theorem chunk_of_readAt {path : Path} {opened f : Disk.File} {done chunk : Bytes} {count t : Nat}
    {n n' : Disk.Nodes} (hcount : 0 < count) (hf : Fixes J path f) (hJ : J n) (hopened : opened = f)
    (hdone : done <+: f.content)
    (ha : Disk.Action.readAt path opened done.length count env t n = some (chunk, n')) :
    (chunk = [] → done = f.content) ∧ done ++ chunk <+: f.content := by
  obtain ⟨hchunk, -⟩ := Disk.Action.look_some ha
  refine chunk_spec hcount hdone ?_
  rw [← Option.some.inj hchunk, hopened, Disk.opened_of_file (hf n hJ) rfl rfl]

end Copying

section Encryption

variable {S : System} {stateDir source destination : Path} {env : Os} {F : Path → Prop}
  {J : Disk.Nodes → Prop} {expected : SourceSnapshot} {contentKey nonce aad : Bytes}
  {m : Disk.Machine}

/-- The file under a path holds bytes. -/
def HoldsBytes (path : Path) (data : Bytes) (nodes : Disk.Nodes) : Prop :=
  Disk.content nodes path = some data

theorem bystander_holds (hquiet : QuietStore env stateDir) {path : Path}
    (hpath : InStore stateDir path) (data : Bytes) :
    Bystander env (· = path) (HoldsBytes path data) :=
  hquiet.bystander (by rintro p rfl; exact hpath)
    (by rintro nodes hJ p rfl; exact ne_none_of_content hJ)
    fun nodes nodes' hsame hJ => (content_congr (hsame _ rfl)).trans hJ

theorem size_of_sameSnapshot {a b : SourceSnapshot} (h : sameSnapshot a b = true) :
    a.size = b.size := by
  simp only [sameSnapshot, Bool.and_eq_true, decide_eq_true_eq] at h
  exact h.1.2

/-- The destination holds the encrypted text that was read, and the text has the size expected. -/
theorem wp_encryptOpened (hquiet : QuietStore env stateDir) (h : Bystander env F J)
    (hF : ¬ F destination) (hdestination : InStore stateDir destination) (fuel : Nat)
    {opened : Disk.File} (hopened : ∀ f, Fixes J source f → opened = f) (hm : J m.nodes) :
    wp env (encryptOpened S fuel source destination expected opened contentKey nonce)
      ((Assertion.always fun m => J m.nodes).postWith fun text m =>
        (text.length = expected.size ∧ Original J source text) ∧ J m.nodes ∧
        HoldsBytes destination (S.aead.crypt contentKey nonce 0 text) m.nodes) m := by
  have hboth : ∀ text : Bytes, Bystander env (fun p => F p ∨ p = destination) fun nodes =>
      J nodes ∧ HoldsBytes destination (S.aead.crypt contentKey nonce 0 text) nodes :=
    fun text => h.and (bystander_holds hquiet hdestination _)
  unfold encryptOpened
  refine h.wp_call hm fun t n again n' tick hJ ha => ?_
  obtain ⟨hagain, rfl⟩ := Disk.Action.look_some ha
  -- The descriptor still stands for the file, if that is fixed.
  have hopened : ∀ f, Fixes J source f → again = f := by
    intro f hf
    rw [← Option.some.inj hagain, hopened f hf]
    exact Disk.opened_of_file (hf n' hJ) rfl rfl
  refine Kept.wp_lift_bind hJ fun _ hsame => ?_
  have hsize := size_of_sameSnapshot (require_eq_ok.1 hsame)
  refine h.wp_call hJ fun t n _ n' tick hJ ha => ?_
  have hnew : J n' := h.step (Disk.changes_createNew _) (fun _ _ => not_false) hJ ha
  have hempty : HoldsBytes destination (S.aead.crypt contentKey nonce 0 []) n' := by
    rw [(Disk.Action.createNew_some ha).2, HoldsBytes, Disk.content, Disk.put_self]
    rfl
  rw [wp_bind]
  let K := fun (text : Bytes) (nodes : Disk.Nodes) => J nodes ∧
    HoldsBytes destination (S.aead.crypt contentKey nonce 0 text) nodes
  refine (wp_copyChunks (J := J)
    (K := fun text nodes => (∀ f, Fixes J source f → text <+: f.content) ∧ K text nodes)
    (R := fun text chunk nodes =>
      (∀ f, Fixes J source f → text ++ chunk <+: f.content) ∧ K text nodes)
    (Q := fun text nodes => Original J source text ∧ K text nodes) ?_ ?_
    (fun _ _ hK => hK.2.1) fuel [] ⟨n', tick⟩ ⟨fun _ _ => List.nil_prefix, hnew, hempty⟩).mono
    ⟨fun text m hK => ?_, fun _ _ hJ => hJ, fun _ hJ => hJ⟩
  · rintro text m ⟨hdone, hK⟩
    refine Disk.wp_sys_of (hboth text).others hK (fun _ hK => hK.1) (fun _ _ hK => hK.1) ?_
    intro t n chunk n' hK ha tick
    obtain ⟨-, rfl⟩ := Disk.Action.look_some ha
    have hchunk := fun f (hf : Fixes J source f) => chunk_of_readAt
      (Nat.lt_min.2 ⟨S.readSize_pos _, by decide⟩) hf hK.1 (hopened f hf) (hdone f hf) ha
    exact ⟨fun hnil => ⟨fun f hf => (hchunk f hf).1 hnil, hK⟩,
      fun _ => ⟨fun f hf => (hchunk f hf).2, hK⟩⟩
  · rintro done chunk m ⟨hread, hK⟩
    refine Disk.wp_sys_of (hboth done).others hK (fun _ hK => hK.1) (fun _ _ hK => hK.1) ?_
    rintro t n _ n' ⟨hJ, hbytes⟩ ha tick
    refine ⟨hread, h.step (Disk.changes_extend _ _) (by rintro p hp rfl; exact hF hp) hJ ha, ?_⟩
    obtain ⟨f, hf, hcontent⟩ := Util.isFile_of_content hbytes
    change HoldsBytes destination _ n'
    rw [HoldsBytes, Disk.Action.extend_some hf ha, Disk.content, Disk.put_self, hcontent,
      S.aead.crypt_append, Nat.zero_add]
  · obtain ⟨horiginal, hK⟩ := hK
    refine (?_ : wp env _ ((Assertion.always fun m => J m.nodes).postWith _) m)
    have himp : ∀ nodes, J nodes ∧
        HoldsBytes destination (S.aead.crypt contentKey nonce 0 text) nodes → J nodes :=
      fun _ hK => hK.1
    refine Kept.wp_bind_of himp (kept_touch (hboth text)) hK fun _ m hK => ?_
    refine Kept.wp_bind_of himp (kept_touch (hboth text)) hK fun _ m hK => ?_
    refine Kept.wp_bind_of himp (kept_look (hboth text) _) hK fun after m hK => ?_
    refine Kept.wp_bind_of himp (Kept.liftExcept _) hK fun _ m hK => ?_
    refine (hboth text).wp_call_of himp hK fun t n size n' tick hK ha => ?_
    obtain ⟨hlength, rfl⟩ := Disk.Action.look_some ha
    rw [hK.2, Option.map_some, Option.some.injEq, S.aead.length_crypt] at hlength
    refine Kept.wp_lift_bind hK.1 fun _ hequal => ⟨⟨?_, horiginal⟩, hK⟩
    rw [hlength, require_eq_ok.1 hequal, hsize]
    rfl

/-- A new mode leaves the bytes of a file. -/
theorem kept_chmod_bytes (hquiet : QuietStore env stateDir) (h : Bystander env F J)
    (hF : ¬ F destination) (hdestination : InStore stateDir destination) (data : Bytes) (mode : Nat) :
    Kept env (fun nodes => J nodes ∧ HoldsBytes destination data nodes)
      (Prog.suppress PyError.isOs (Util.sys (Disk.Action.chmod destination mode))) := by
  have hboth := h.and (bystander_holds hquiet hdestination data)
  refine Kept.suppress (Disk.keeps_sys hboth.others ?_) _
  rintro t n _ n' ⟨hJ, hbytes⟩ ha
  obtain ⟨f, hf, hcontent⟩ := Util.isFile_of_content hbytes
  refine ⟨h.step (Disk.changes_chmod _ _) (by rintro p hp rfl; exact hF hp) hJ ha, ?_⟩
  rw [HoldsBytes, Disk.Action.chmod_some hf ha, Disk.content, Disk.put_self, hcontent]

/-- What `_encrypt_regular_source` returns is the digest of the text it read and its tag. -/
theorem wp_encryptRegularSource (hquiet : QuietStore env stateDir) (h : Bystander env F J)
    (hF : ¬ F destination) (hdestination : InStore stateDir destination) (fuel : Nat)
    (hm : J m.nodes) :
    wp env (encryptRegularSource S fuel source destination expected contentKey nonce aad)
      ((Assertion.always fun m => J m.nodes).postWith fun result m => ∃ text : Bytes,
        (result.1 = S.hexdigest text ∧ result.2 = S.aead.tag contentKey nonce aad
          (S.aead.crypt contentKey nonce 0 text) ∧
          (text.length = expected.size ∧ Original J source text)) ∧
        J m.nodes ∧ HoldsBytes destination (S.aead.crypt contentKey nonce 0 text) m.nodes) m := by
  have hbody : ∀ (node : Disk.Node) (m : Disk.Machine),
      (∀ f, Fixes J source f → node = .file f) → J m.nodes →
      wp env (encryptNode S fuel source destination expected contentKey nonce node)
        ((Assertion.always fun m => J m.nodes).postWith fun text m =>
          (text.length = expected.size ∧ Original J source text) ∧ J m.nodes ∧
          HoldsBytes destination (S.aead.crypt contentKey nonce 0 text) m.nodes) m := by
    intro node m hnode hJ
    cases node with
    | file opened =>
        exact wp_encryptOpened hquiet h hF hdestination fuel
          (fun f hf => Disk.Node.file.inj (hnode f hf)) hJ
    | directory => exact hJ
    | link => exact hJ
    | special => exact hJ
  unfold encryptRegularSource
  have hopen : wp env (Prog.tryExcept (Util.sys (Disk.Action.openRead source)) PyError.isOs
      fun e => Prog.raise (quarantineError (str "cannot open source file: " ++ e.text)))
      ((Assertion.always fun m => J m.nodes).postWith fun node m =>
        (∀ f, Fixes J source f → node = .file f) ∧ J m.nodes) m := by
    refine Kept.wp_tryExcept ?_ fun _ _ hJ => hJ
    refine Disk.wp_sys_of h.others hm (fun _ hJ => hJ) (fun _ _ hJ => hJ) ?_
    intro t n node n' hJ ha tick
    obtain ⟨hnode, rfl⟩ := Disk.Action.look_some ha
    refine ⟨fun f hf => ?_, hJ⟩
    rw [hf n' hJ] at hnode
    exact (Option.some.inj hnode).symm
  rw [wp_bind]
  refine hopen.mono ⟨?_, fun _ _ hJ => hJ, fun _ hJ => hJ⟩
  rintro node m ⟨hnode, hm⟩
  rw [Post.withOk_ok, wp_bind]
  refine (Kept.wp_tryFinally (K := fun text nodes =>
    (text.length = expected.size ∧ Original J source text) ∧ J nodes ∧
    HoldsBytes destination (S.aead.crypt contentKey nonce 0 text) nodes)
    (Kept.wp_tryExcept (hbody node m hnode hm) fun error m hJ => ?_) (fun _ _ hK => hK.2.1)
    (fun text => ?_) (kept_touch h)).mono ⟨?_, fun _ _ hJ => hJ, fun _ hJ => hJ⟩
  · exact Keeps.wp_bind (Kept.suppress (h.keeps_at (Disk.changes_unlink _) hF) _) hJ
      fun _ _ hJ => hJ
  · intro m hK
    exact (kept_touch (h.and (bystander_holds hquiet hdestination _)) m hK.2).mono
      ⟨fun _ _ hm => ⟨hK.1, hm⟩, fun _ _ hm => ⟨hK.1, hm⟩, fun _ hm => ⟨hK.1, hm⟩⟩
  · rintro text m ⟨hlength, hK⟩
    refine Kept.wp_bind_of (fun _ hK => hK.1)
      (kept_chmod_bytes hquiet h hF hdestination _ 0o600) hK fun _ m hK => ?_
    exact ⟨text, ⟨rfl, rfl, hlength⟩, hK⟩

/-! ## Envelopes -/

/-- The envelope wraps the content key for an entry. -/
structure Wraps (S : System) (device : DeviceRoot) (id : Str) (aad : Bytes)
    (envelope : VaultEnvelope) (contentKey : Bytes) : Prop where
  sized : envelope.Sized
  keyLength : contentKey.length = keyBytes
  wrapped : envelope.wrappedKey = S.aead.encrypt
    (wrapKey S device envelope.salt (asciiBytes id)) envelope.wrapNonce aad contentKey

theorem wp_createEnvelope (h : Bystander env F J) (device : DeviceRoot) {id : Str}
    (hid : isCanonicalUuid id = true) (hm : J m.nodes) :
    wp env (createEnvelope S device id aad) ((Assertion.always fun m => J m.nodes).postWith
      fun made m => Wraps S device id aad made.1 made.2 ∧ J m.nodes) m := by
  have hrandom : ∀ {k t : Nat} {n n' : Disk.Nodes} {data : Bytes},
      Disk.Action.urandom k env t n = some (data, n') → data.length = k ∧ n' = n := by
    intro k t n n' data ha
    cases ha
    exact ⟨env.length_random t k, rfl⟩
  unfold createEnvelope
  refine h.wp_call hm fun t n contentKey n' tick hJ ha => ?_
  obtain ⟨hkey, rfl⟩ := hrandom ha
  refine h.wp_call hJ fun t n salt n' tick hJ ha => ?_
  obtain ⟨hsalt, rfl⟩ := hrandom ha
  refine h.wp_call hJ fun t n wrapNonce n' tick hJ ha => ?_
  obtain ⟨hwrapNonce, rfl⟩ := hrandom ha
  refine h.wp_call hJ fun t n contentNonce n' tick hJ ha => ?_
  obtain ⟨hcontentNonce, rfl⟩ := hrandom ha
  rw [encodeAscii_canonical hid]
  refine ⟨⟨⟨hsalt, hwrapNonce, ?_, hcontentNonce⟩, hkey, rfl⟩, hJ⟩
  rw [S.aead.length_encrypt, hkey]

end Encryption

/-! ## New entries -/

def newProgress : Progress := ⟨str "copy_ready", .null, []⟩

/-- The entry that `quarantine_finding` makes. -/
def newEntry (id : Str) (finding : FileFinding) (source : Path) (snapshot : SourceSnapshot)
    (createdAt : Str) (zba : List (Str × Json)) (envelope : VaultEnvelope) (protection : Str)
    (contentTag : Bytes) : Entry where
  id := id
  originalPath := source
  sha256 := finding.sha256
  size := snapshot.size
  mode := snapshot.mode
  modifiedNs := snapshot.modifiedNs
  createdAt := createdAt
  ruleMatches := finding.ruleMatches.map matchDict
  zba := zba
  envelope := envelope
  protection := protection
  contentTag := contentTag

section NewEntry

variable {S : System} {id createdAt : Str} {finding : FileFinding} {source : Path}
  {snapshot : SourceSnapshot} {zba : List (Str × Json)}

theorem members_newEntry (envelope : VaultEnvelope) (protection : Str) (contentTag : Bytes) :
    newMetadata id finding source snapshot createdAt zba ++
        [(str "vault", .obj (envelope.toDict protection)),
          (str "content_tag", .str (Base64.encode contentTag))] =
      (newEntry id finding source snapshot createdAt zba envelope protection contentTag).members
        newProgress := rfl

/-- The projection is made of what is there before the vault fields. -/
theorem aad_newEntry (envelope : VaultEnvelope) (protection : Str) (contentTag : Bytes) :
    aadProjection (newMetadata id finding source snapshot createdAt zba) =
      (newEntry id finding source snapshot createdAt zba envelope protection contentTag).aad := rfl

theorem shaped_matchDict (m : RuleMatch) : Json.Shaped (fun _ => False) 1 (matchDict m) := by
  have hkeys : [str "id", str "name", str "kind", str "severity", str "description",
    str "source"].Nodup := by decide
  refine .obj 0 _ hkeys fun m hm => ?_
  simp only [List.mem_cons, List.not_mem_nil, or_false] at hm
  rcases hm with rfl | rfl | rfl | rfl | rfl | rfl <;> exact .str 0 _

theorem shaped_record (h : createQuarantineRecord S id finding.sha256 createdAt = .ok zba) :
    Json.Shaped (fun _ => False) 1 (.obj zba) := by
  refine .obj 0 _ (nodup_record h) fun m hm => ?_
  obtain ⟨data, -, rfl⟩ := createQuarantineRecord_eq_ok h
  simp only [uncommitted, recordConstants, List.map_cons, List.map_nil, List.cons_append,
    List.nil_append, List.mem_cons, List.not_mem_nil, or_false] at hm
  rcases hm with rfl | rfl | rfl | rfl | rfl | rfl | rfl | rfl | rfl | rfl | rfl | rfl | rfl | rfl |
    rfl | rfl
  all_goals first
    | exact .str 0 _
    | exact .int 0 _

theorem regular_newEntry (h : createQuarantineRecord S id finding.sha256 createdAt = .ok zba)
    (envelope : VaultEnvelope) (protection : Str) (contentTag : Bytes) :
    (newEntry id finding source snapshot createdAt zba envelope protection contentTag).Regular
      newProgress where
  ruleMatches v hv := by
    obtain ⟨m, -, rfl⟩ := List.mem_map.1 hv
    exact shaped_matchDict m
  zba := shaped_record h
  quarantinedAt := .null 0
  history := nofun

theorem getLast_formatUtc (t : DateTime) :
    (Util.formatUtc t).getLast? = some (Text.ofChar 'Z') := by
  unfold Util.formatUtc
  exact List.getLast?_concat

/-- A key that was opened is protected in one of the two ways. -/
theorem protection_of_parse {raw : Bytes} {device : DeviceRoot}
    (h : parseDeviceRoot S raw = .ok device) :
    device.protection ∈ [windowsProtection, previewProtection] := by
  obtain ⟨value, -, hopen⟩ := bind_eq_ok.1 h
  simp only [openDeviceRoot, bind_eq_ok] at hopen
  obtain ⟨members, -, -, -, -, -, protection, -, protectedKey, -, key, hkey, -, -, heq⟩ := hopen
  cases heq
  change protection ∈ _
  unfold unsealKey at hkey
  by_cases hwindows : protection = windowsProtection
  · rw [hwindows]
    exact List.mem_cons_self
  · by_cases hpreview : protection = previewProtection
    · rw [hpreview]
      exact List.mem_cons_of_mem _ List.mem_cons_self
    · rw [if_neg hwindows, if_neg hpreview] at hkey
      cases hkey

end NewEntry

/-! ## The name of the entry -/

section Publish

variable {S : System} {stateDir source temporary : Path} {env : Os} {F : Path → Prop}
  {J : Disk.Nodes → Prop} {m : Disk.Machine} {device : DeviceRoot} {id createdAt : Str}
  {finding : FileFinding} {snapshot : SourceSnapshot} {zba : List (Str × Json)}
  {envelope : VaultEnvelope} {contentKey aad : Bytes}

theorem bystander_directory (hquiet : QuietStore env stateDir) {path : Path}
    (hpath : InStore stateDir path) :
    Bystander env (· = path) fun nodes => nodes path = some .directory :=
  hquiet.bystander (by rintro p rfl; exact hpath)
    (by rintro nodes hJ p rfl; rw [hJ]; nofun)
    fun nodes nodes' hsame hJ => (hsame _ rfl).trans hJ

theorem bystander_recorded (hquiet : QuietStore env stateDir) {path : Path}
    (hpath : InStore stateDir path) (S : System) (device : DeviceRoot) (e : Entry) (w : Progress) :
    Bystander env (· = path) (Recorded S device e w path) :=
  hquiet.bystander (by rintro p rfl; exact hpath)
    (by rintro nodes hJ p rfl; exact hJ.present)
    fun nodes nodes' hsame hJ => hJ.congr (hsame _ rfl)

/-- A new mode leaves a directory. -/
theorem kept_chmod_directory (hquiet : QuietStore env stateDir) (h : Bystander env F J) {path : Path}
    (hF : ¬ F path) (hpath : InStore stateDir path) (mode : Nat) :
    Kept env (fun nodes => J nodes ∧ nodes path = some .directory)
      (Prog.suppress PyError.isOs (Util.sys (Disk.Action.chmod path mode))) := by
  have hboth := h.and (bystander_directory hquiet hpath)
  refine Kept.suppress (Disk.keeps_sys hboth.others ?_) _
  rintro t n _ n' ⟨hJ, hdirectory⟩ ha
  refine ⟨h.step (Disk.changes_chmod _ _) (by rintro p hp rfl; exact hF hp) hJ ha, ?_⟩
  simp only [Disk.Action.chmod, hdirectory] at ha
  cases ha
  exact hdirectory

/-- A fresh entry is filed under its name. -/
def FreshlyFiled (S : System) (stateDir : Path) (device : DeviceRoot) (id digest : Str)
    (P : Bytes → Prop) (signed : List (Str × Json)) (nodes : Disk.Nodes) : Prop :=
  ∃ e text data contentKey aad, e.id = id ∧ (S.hexdigest text = digest ∧ P text) ∧
    e.Lawful S device text contentKey aad ∧ Agree signed (e.signed newProgress S device data) ∧
    Filed S stateDir (entryPath stateDir e.id) device e newProgress text contentKey nodes

theorem filed_moved {e : Entry} {w : Progress} {text : Bytes} {nodes : Disk.Nodes} {final : Path}
    (h : Filed S stateDir temporary device e w text contentKey nodes)
    (hkey : DeviceIn S stateDir device (Disk.Action.moved temporary final nodes)) :
    Filed S stateDir final device e w text contentKey (Disk.Action.moved temporary final nodes) := by
  have hcontent : ∀ name, Disk.content (Disk.Action.moved temporary final nodes)
      (Disk.join final name) = Disk.content nodes (Disk.join temporary name) := by
    intro name
    rw [Disk.content, Disk.content, Disk.moved_join]
  obtain ⟨hstored, hregular, data, pretty, hdata, hpretty, hbytes⟩ := h
  exact ⟨⟨hkey, Disk.moved_self.trans hstored.directory, (hcontent _).trans hstored.content⟩,
    hregular, data, pretty, hdata, hpretty, (hcontent _).trans hbytes⟩

/-- Signed metadata is written beside what is there. -/
theorem wp_writeSigned {dir : Path} (hquiet : QuietStore env stateDir) (h : Bystander env F J)
    (hdir : Below (entriesDir stateDir) dir) (hF : ¬ F (metadataPath dir)) {e : Entry} {w : Progress}
    {signed : List (Str × Json)} {data : Bytes} (hagree : Agree signed (e.signed w S device data))
    (hdata : Util.canonicalJsonBytes S.runtime (.obj (e.members w)) = .ok data)
    (hregular : e.Regular w) (hm : J m.nodes) :
    wp env (Util.atomicWriteJson S.runtime (metadataPath dir) (.obj signed) 0o600)
      ((Assertion.always fun m => J m.nodes).postWith fun _ m => J m.nodes ∧
        Recorded S device e w (metadataPath dir) m.nodes) m := by
  have htracked := (hquiet.quiet hdir).tracked ordinary_metadataName
  unfold Util.atomicWriteJson
  refine Kept.wp_lift_bind hm fun pretty hpretty => ?_
  rw [encodeJson_of_agree hagree] at hpretty
  refine (Kept.both (kept_atomicWriteBytes h hF _ 0o600) hm
    (Util.wp_atomicWriteBytes htracked (pretty ++ [10]) 0o600 m)).mono
    ⟨?_, fun _ _ hK => hK.2, fun _ hK => hK.2⟩
  rintro _ m' ⟨hreplaced, hJ⟩
  exact ⟨hJ, hregular, data, pretty, hdata, hpretty,
    hreplaced.content (ordinary_metadataName.entry dir)⟩

/-- What `publish` returns is filed under the name of the entry. -/
theorem wp_publish (hquiet : QuietStore env stateDir) (h : Bystander env F J)
    (hdevice : ∀ nodes, J nodes → DeviceIn S stateDir device nodes) (hapart : Apart stateDir F)
    (fuel : Nat) {s : Str} (htemporary : temporary = Disk.join (entriesDir stateDir) (str "." ++ s))
    (hid : isCanonicalUuid id = true)
    (hzba : createQuarantineRecord S id finding.sha256 createdAt = .ok zba)
    (hcreated : createdAt.getLast? = some (Text.ofChar 'Z'))
    (haad : Util.canonicalJsonBytes S.runtime
      (aadProjection (newMetadata id finding source snapshot createdAt zba)) = .ok aad)
    (hwraps : Wraps S device id aad envelope contentKey) (hm : J m.nodes)
    (hdirectory : m.nodes temporary = some .directory) :
    wp env (publish S fuel finding source temporary (entryPath stateDir id) snapshot device
        (newMetadata id finding source snapshot createdAt zba) envelope contentKey aad)
      ((Assertion.always fun m => J m.nodes).postWith fun signed m => J m.nodes ∧
        FreshlyFiled S stateDir device id finding.sha256 (Original J source) signed m.nodes) m := by
  have hbelow : Below (entriesDir stateDir) temporary := htemporary ▸ Disk.below_join _ _
  have hout : ∀ p, F p → ¬ Below temporary p := htemporary ▸ hapart.hidden s
  have hself : ¬ F temporary := fun hF => hout _ hF (Disk.below_refl _)
  have hstore : ∀ name, InStore stateDir (Disk.join temporary name) :=
    fun name => inStore_of_below hbelow (Disk.below_join _ _)
  have hjoin : ∀ name, ¬ Disk.join temporary name = temporary := by
    intro name heq
    have hlength := congrArg List.length heq
    simp [Disk.join] at hlength
  have hhere : Bystander env (· = temporary) fun nodes => nodes temporary = some .directory :=
    bystander_directory hquiet (.inl hbelow)
  have hone := h.and hhere
  have hdestination : ¬ (F (contentPath temporary) ∨ contentPath temporary = temporary) := by
    rintro (hF | heq)
    · exact hout _ hF (below_contentPath _)
    · exact hjoin _ heq
  unfold publish
  refine Kept.wp_bind_of (fun _ hK => hK.1)
    (kept_chmod_directory hquiet h hself (.inl hbelow) 0o700) ⟨hm, hdirectory⟩ fun _ m hm => ?_
  rw [wp_bind]
  refine (wp_encryptRegularSource hquiet hone hdestination (hstore _) fuel hm).mono
    ⟨?_, fun _ _ hK => hK.1, fun _ hK => hK.1⟩
  rintro ⟨digest, contentTag⟩ m ⟨text, ⟨rfl, rfl, hlength, horiginal⟩, hm⟩
  have htwo := hone.and (bystander_holds hquiet (hstore contentName)
    (S.aead.crypt contentKey envelope.contentNonce 0 text))
  have himp : ∀ nodes, (J nodes ∧ nodes temporary = some .directory) ∧ HoldsBytes
      (Disk.join temporary contentName) (S.aead.crypt contentKey envelope.contentNonce 0 text) nodes →
      J nodes := fun _ hK => hK.1.1
  refine Kept.wp_lift_bind hm.1.1 fun _ hdigest => ?_
  have hsame : S.hexdigest text = finding.sha256 := require_eq_ok.1 hdigest
  -- The entry that is signed.
  let e := newEntry id finding source snapshot createdAt zba envelope device.protection
    (S.aead.tag contentKey envelope.contentNonce aad
      (S.aead.crypt contentKey envelope.contentNonce 0 text))
  have hlawful : e.Lawful S device text contentKey aad := by
    obtain ⟨raw, -, hparse⟩ := hdevice _ hm.1.1
    exact ⟨hid, hsame.symm, hlength.symm, hcreated, hzba, rfl, protection_of_parse hparse,
      hwraps.sized, haad, hwraps.keyLength, hwraps.wrapped, rfl⟩
  have hregular : e.Regular newProgress := regular_newEntry hzba _ _ _
  refine Kept.wp_lift_bind hm.1.1 fun signed hsigned => ?_
  have hfits : e.Fits newProgress (e.members newProgress) :=
    ⟨e.nodup_members _, by
      have hunsigned : unsigned (e.members newProgress) = e.members newProgress := by
        refine List.filter_eq_self.2 fun m hm => decide_eq_true ?_
        rintro heq
        exact e.mac_notMem newProgress (heq ▸ List.mem_map_of_mem hm)
      rw [hunsigned]
      exact Agree.refl (e.nodup_members _)⟩
  obtain ⟨data, hdata, hagree⟩ := agree_of_signMetadata hfits hsigned
  have hmetadata : ¬ ((F (metadataPath temporary) ∨ metadataPath temporary = temporary) ∨
      metadataPath temporary = contentPath temporary) := by
    rintro ((hF | heq) | heq)
    · exact hout _ hF (below_metadataPath _)
    · exact hjoin _ heq
    · exact absurd (Disk.join_inj heq) (by decide)
  rw [wp_bind]
  refine (wp_writeSigned hquiet htwo hbelow hmetadata hagree hdata hregular hm).mono
    ⟨?_, fun _ _ hK => hK.1.1, fun _ hK => hK.1.1⟩
  rintro _ m ⟨hm, hrecorded⟩
  have hthree := htwo.and (bystander_recorded hquiet (hstore metadataName) S device e newProgress)
  refine hthree.wp_call_of (fun _ hK => hK.1.1.1) ⟨hm, hrecorded⟩ fun t n _ n' tick hK ha => ?_
  obtain ⟨-, hfree, hmoved⟩ := Disk.Action.renameTree_some ha
  obtain ⟨⟨⟨hJ, hdirectory⟩, hbytes⟩, hrecorded⟩ := hK
  have hentry : ¬ F (entryPath stateDir id) := h.free hJ hfree
  have hJ' : J n' := by
    refine h.step (Disk.changes_renameTree _ _) ?_ hJ ha
    rintro p hp (hsource | htarget)
    · exact hout p hp hsource
    · exact hentry (hapart.rooted id p (flat_of_isCanonicalUuid hid) hp htarget)
  refine ⟨hJ', e, text, data, contentKey, aad, rfl,
    ⟨hsame, horiginal.weaken fun _ hn => hn.1⟩, hlawful, hagree, ?_⟩
  have hfiled : Filed S stateDir temporary device e newProgress text contentKey n :=
    ⟨⟨hdevice n hJ, hdirectory, hbytes⟩, hrecorded⟩
  rw [hmoved] at hJ' ⊢
  exact filed_moved hfiled (hdevice _ hJ')

end Publish

end ZsecShield.Quarantine
