import ZsecShield.Quarantine.Frames
import ZsecShield.Store

/-!
# Published entries

A `Published` entry is one that gives its text back: the device key is there, the content file holds
the text under the content key, and the metadata file holds the signed metadata of a lawful entry.
Other processes leave the quarantine and the device key alone (`QuietStore`).  Then reading the
metadata gives what was signed, and writing new progress leaves the entry published.
-/

namespace ZsecShield.Quarantine

open Text (Str str)
open Feed (field)
open Effect
open Checks
open Disk (Bystander Kept Below)
open Json (Agree)
open Util (Os Io kept_atomicWriteBytes)

/-! ## The store -/

/-- The paths that are the quarantine's own. -/
def InStore (stateDir p : Path) : Prop :=
  Below (entriesDir stateDir) p ∨ Below (keyDirectory stateDir) p

/-- Other processes leave the store alone. -/
def QuietStore (env : Os) (stateDir : Path) : Prop :=
  ∀ t nodes p, InStore stateDir p → env.others t nodes p = nodes p

/-- Other processes leave a path alone. -/
def Leaves (env : Os) (path : Path) : Prop := ∀ t nodes, env.others t nodes path = nodes path

theorem Leaves.bystander {env : Os} {path : Path} (h : Leaves env path) (node : Disk.Node) :
    Bystander env (· = path) fun nodes => nodes path = some node where
  others t nodes hn := (h t nodes).trans hn
  present nodes hn := by
    rintro p rfl
    rw [hn]
    nofun
  blind nodes nodes' hsame hn := (hsame path rfl).trans hn

def entryPath (stateDir : Path) (id : Str) : Path := Disk.join (entriesDir stateDir) id

def contentPath (dir : Path) : Path := Disk.join dir contentName

def metadataPath (dir : Path) : Path := Disk.join dir metadataName

theorem inStore_key (stateDir : Path) : InStore stateDir (deviceKeyPath stateDir) :=
  .inr (Disk.below_join _ _)

/-- A property of paths of the store is one that others keep. -/
theorem QuietStore.bystander {env : Os} {stateDir : Path} (h : QuietStore env stateDir)
    {F : Path → Prop} {J : Disk.Nodes → Prop} (hF : ∀ p, F p → InStore stateDir p)
    (hpresent : ∀ nodes, J nodes → ∀ p, F p → nodes p ≠ none)
    (hblind : ∀ nodes nodes', Disk.Same F nodes nodes' → J nodes → J nodes') :
    Bystander env F J where
  others t nodes hJ := hblind nodes _ (fun p hp => h t nodes p (hF p hp)) hJ
  present := hpresent
  blind := hblind

/-- The device root that the quarantine reads. -/
def DeviceIn (S : System) (stateDir : Path) (device : DeviceRoot) (nodes : Disk.Nodes) : Prop :=
  ∃ raw, Disk.content nodes (deviceKeyPath stateDir) = some raw ∧ parseDeviceRoot S raw = .ok device

/-- A directory holds the encrypted text of an entry, and the key is there. -/
structure Stored (S : System) (stateDir dir : Path) (device : DeviceRoot) (e : Entry)
    (text contentKey : Bytes) (nodes : Disk.Nodes) : Prop where
  key : DeviceIn S stateDir device nodes
  directory : nodes dir = some .directory
  content : Disk.content nodes (contentPath dir) =
    some (S.aead.crypt contentKey e.envelope.contentNonce 0 text)

/-- The file under a path holds the signed metadata of an entry. -/
def Recorded (S : System) (device : DeviceRoot) (e : Entry) (w : Progress) (path : Path)
    (nodes : Disk.Nodes) : Prop :=
  e.Regular w ∧ ∃ data text, Util.canonicalJsonBytes S.runtime (.obj (e.members w)) = .ok data ∧
    Util.encodeJson S.runtime .pretty (.obj (e.signed w S device data)) = .ok text ∧
    Disk.content nodes path = some (text ++ [10])

/-- A directory holds an entry: its text and its metadata. -/
def Filed (S : System) (stateDir dir : Path) (device : DeviceRoot) (e : Entry) (w : Progress)
    (text contentKey : Bytes) (nodes : Disk.Nodes) : Prop :=
  Stored S stateDir dir device e text contentKey nodes ∧
    Recorded S device e w (metadataPath dir) nodes

/-- An entry that gives its text back. -/
def Published (S : System) (stateDir : Path) (id : Str) (text : Bytes) (nodes : Disk.Nodes) : Prop :=
  ∃ device e contentKey aad w, e.id = id ∧ e.Lawful S device text contentKey aad ∧
    w.state ∈ entryStates ∧
    Filed S stateDir (entryPath stateDir e.id) device e w text contentKey nodes

/-- The paths of what is stored in a directory. -/
def StoredPaths (stateDir dir p : Path) : Prop :=
  p = deviceKeyPath stateDir ∨ p = dir ∨ p = contentPath dir

/-- The paths of a published entry. -/
def EntryPaths (stateDir dir p : Path) : Prop := StoredPaths stateDir dir p ∨ p = metadataPath dir

theorem ne_none_of_content {nodes : Disk.Nodes} {path : Path} {data : Bytes}
    (h : Disk.content nodes path = some data) : nodes path ≠ none := by
  intro hnone
  rw [Disk.content, hnone] at h
  cases h

section Store

variable {S : System} {stateDir dir : Path} {device : DeviceRoot} {e : Entry} {w : Progress}
  {text contentKey : Bytes} {nodes nodes' : Disk.Nodes} {env : Os}

theorem content_congr {p : Path} (h : nodes' p = nodes p) :
    Disk.content nodes' p = Disk.content nodes p := by
  rw [Disk.content, Disk.content, h]

theorem DeviceIn.congr (h : DeviceIn S stateDir device nodes)
    (hsame : nodes' (deviceKeyPath stateDir) = nodes (deviceKeyPath stateDir)) :
    DeviceIn S stateDir device nodes' := by
  obtain ⟨raw, hraw, hparse⟩ := h
  exact ⟨raw, (content_congr hsame).trans hraw, hparse⟩

/-- There is one device root. -/
theorem DeviceIn.unique {device' : DeviceRoot} (h : DeviceIn S stateDir device nodes)
    (h' : DeviceIn S stateDir device' nodes) : device = device' := by
  obtain ⟨raw, hraw, hparse⟩ := h
  obtain ⟨raw', hraw', hparse'⟩ := h'
  rw [hraw, Option.some.injEq] at hraw'
  subst hraw'
  rw [hparse, Except.ok.injEq] at hparse'
  exact hparse'

theorem Recorded.congr {path : Path} (h : Recorded S device e w path nodes)
    (hsame : nodes' path = nodes path) : Recorded S device e w path nodes' := by
  obtain ⟨hregular, data, text, hdata, htext, hcontent⟩ := h
  exact ⟨hregular, data, text, hdata, htext, (content_congr hsame).trans hcontent⟩

theorem Stored.congr (h : Stored S stateDir dir device e text contentKey nodes)
    (hsame : Disk.Same (StoredPaths stateDir dir) nodes nodes') :
    Stored S stateDir dir device e text contentKey nodes' where
  key := h.key.congr (hsame _ (.inl rfl))
  directory := (hsame dir (.inr (.inl rfl))).trans h.directory
  content := (content_congr (hsame _ (.inr (.inr rfl)))).trans h.content

theorem Stored.present (h : Stored S stateDir dir device e text contentKey nodes) {p : Path}
    (hp : StoredPaths stateDir dir p) : nodes p ≠ none := by
  obtain rfl | rfl | rfl := hp
  · obtain ⟨raw, hraw, -⟩ := h.key
    exact ne_none_of_content hraw
  · rw [h.directory]
    nofun
  · exact ne_none_of_content h.content

theorem Recorded.present {path : Path} (h : Recorded S device e w path nodes) :
    nodes path ≠ none := by
  obtain ⟨-, data, text, -, -, hcontent⟩ := h
  exact ne_none_of_content hcontent

theorem below_contentPath (dir : Path) : Below dir (contentPath dir) := Disk.below_join _ _

theorem below_metadataPath (dir : Path) : Below dir (metadataPath dir) := Disk.below_join _ _

theorem below_entryPath (stateDir : Path) (id : Str) :
    Below (entriesDir stateDir) (entryPath stateDir id) := Disk.below_join _ _

theorem inStore_of_below {p : Path} (hdir : Below (entriesDir stateDir) dir) (hp : Below dir p) :
    InStore stateDir p := .inl (Disk.below_trans hdir hp)

theorem inStore_storedPaths (hdir : Below (entriesDir stateDir) dir) {p : Path}
    (hp : StoredPaths stateDir dir p) : InStore stateDir p := by
  obtain rfl | rfl | rfl := hp
  · exact inStore_key stateDir
  · exact .inl hdir
  · exact inStore_of_below hdir (below_contentPath dir)

theorem inStore_entryPaths (hdir : Below (entriesDir stateDir) dir) {p : Path}
    (hp : EntryPaths stateDir dir p) : InStore stateDir p := by
  obtain hp | rfl := hp
  · exact inStore_storedPaths hdir hp
  · exact inStore_of_below hdir (below_metadataPath dir)

theorem bystander_deviceIn (h : QuietStore env stateDir) (S : System) (device : DeviceRoot) :
    Bystander env (· = deviceKeyPath stateDir) (DeviceIn S stateDir device) :=
  h.bystander (by rintro p rfl; exact inStore_key stateDir)
    (by rintro nodes ⟨raw, hraw, -⟩ p rfl; exact ne_none_of_content hraw)
    fun nodes nodes' hsame hJ => hJ.congr (hsame _ rfl)

theorem bystander_stored (h : QuietStore env stateDir) (hdir : Below (entriesDir stateDir) dir)
    (S : System) (device : DeviceRoot) (e : Entry) (text contentKey : Bytes) :
    Bystander env (StoredPaths stateDir dir) (Stored S stateDir dir device e text contentKey) :=
  h.bystander (fun _ => inStore_storedPaths hdir) (fun _ hJ _ hp => hJ.present hp)
    fun _ _ hsame hJ => hJ.congr hsame

theorem bystander_entry (h : QuietStore env stateDir) (hdir : Below (entriesDir stateDir) dir)
    (S : System) (device : DeviceRoot) (e : Entry) (w : Progress) (text contentKey : Bytes) :
    Bystander env (EntryPaths stateDir dir) (Filed S stateDir dir device e w text contentKey) := by
  refine h.bystander (fun _ => inStore_entryPaths hdir) ?_ fun _ _ hsame hJ =>
    ⟨hJ.1.congr fun p hp => hsame p (.inl hp), hJ.2.congr (hsame _ (.inr rfl))⟩
  rintro nodes ⟨hstored, hrecorded⟩ p (hp | rfl)
  · exact hstored.present hp
  · exact hrecorded.present

end Store

/-! ## Reading -/

section Reading

variable {S : System} {stateDir dir : Path} {device : DeviceRoot} {e : Entry} {w : Progress}
  {text contentKey aad data : Bytes} {env : Os} {F : Path → Prop} {J : Disk.Nodes → Prop}
  {m : Disk.Machine}

/-- The device root that was loaded is the one of the store. -/
theorem wp_loadDeviceRoot (h : Bystander env F J) (hkeys : ¬ F (keyDirectory stateDir))
    (create : Bool) (hm : J m.nodes) :
    wp env (loadDeviceRoot S stateDir create) ((Assertion.always fun m => J m.nodes).postWith
      fun device m => DeviceIn S stateDir device m.nodes ∧ J m.nodes) m := by
  unfold loadDeviceRoot
  refine Keeps.wp_bind (kept_ensureDeviceRoot h S stateDir hkeys create) hm fun _ m hm => ?_
  unfold readDeviceRoot
  rw [wp_bind, wp_tryExcept, wp_bind]
  refine Disk.wp_sys_of h.others hm (fun _ hJ => hJ) (fun _ _ hJ => ⟨fun _ => hJ, fun _ => hJ⟩) ?_
  intro t n raw n' hJ ha tick
  obtain ⟨hraw, rfl⟩ := Disk.Action.look_some ha
  rw [Post.withOk_ok, wp_liftExcept]
  refine ⟨fun value hvalue => ?_, fun e _ => ⟨fun _ => hJ, fun _ => hJ⟩⟩
  refine (wp_liftExcept _ _).2 ⟨fun device hdevice => ⟨⟨raw, hraw, ?_⟩, hJ⟩, fun _ _ => hJ⟩
  rw [parseDeviceRoot, hvalue]
  exact hdevice

/-- The metadata that was signed is read back. -/
theorem strictJsonLoads_signed (hregular : e.Regular w) {pretty : Bytes}
    (hpretty : Util.encodeJson S.runtime .pretty (.obj (e.signed w S device data)) = .ok pretty) :
    ∃ ms, Util.strictJsonLoads S.runtime (pretty ++ [10]) = .ok (.obj ms) ∧
      Agree ms (e.signed w S device data) :=
  ⟨_, (hregular.writable hpretty).strictJsonLoads Json.separates_pretty rfl hpretty (.inr rfl),
    Json.agree_sortMembers (e.nodup_signed w S device data)⟩

/-- A lawful entry has a digest. -/
theorem Entry.Lawful.isDigest (h : e.Lawful S device text contentKey aad) :
    isDigest e.sha256 = true := by
  rw [h.sha256]
  exact isDigest_hexdigest S text

/-- Nothing lies both in the quarantine and beside the device key. -/
theorem entries_disjoint {p : Path} (h : Below (entriesDir stateDir) p) :
    ¬ Below (keyDirectory stateDir) p := by
  intro hkeys
  have hvault : Below (Disk.join stateDir (str "vault")) p :=
    Disk.below_trans (Disk.below_join _ _) hkeys
  have hquarantine : Below (Disk.join stateDir (str "quarantine")) p :=
    Disk.below_trans (Disk.below_join _ _) h
  obtain hup | hup := Disk.below_total hvault hquarantine
  · exact Disk.not_below_entries (by decide) (by decide) hup
  · exact Disk.not_below_entries (by decide) (by decide) hup

theorem not_keys_storedPaths (hdir : Below (entriesDir stateDir) dir) :
    ¬ StoredPaths stateDir dir (keyDirectory stateDir) := by
  rintro (heq | rfl | heq)
  · have hlength := congrArg List.length heq
    simp [deviceKeyPath, Disk.join] at hlength
  · exact entries_disjoint hdir (Disk.below_refl _)
  · have hbelow := Disk.below_trans hdir (below_contentPath dir)
    rw [← heq] at hbelow
    exact entries_disjoint hbelow (Disk.below_refl _)

theorem not_keys_entryPaths (hdir : Below (entriesDir stateDir) dir) :
    ¬ EntryPaths stateDir dir (keyDirectory stateDir) := by
  rintro (hp | hp)
  · exact not_keys_storedPaths hdir hp
  · exact not_keys_storedPaths (Disk.below_trans hdir (below_metadataPath dir)) (.inr (.inl hp))

/-- What `_read_metadata` gives of a published entry is what was signed. -/
theorem wp_readMetadata (hquiet : QuietStore env stateDir)
    (hlawful : e.Lawful S device text contentKey aad) (hstate : w.state ∈ entryStates)
    (hm : Filed S stateDir (entryPath stateDir e.id) device e w text contentKey m.nodes) :
    wp env (readMetadata S stateDir e.id)
      ((Assertion.always fun m =>
          Filed S stateDir (entryPath stateDir e.id) device e w text contentKey m.nodes).postWith
        fun read m => (read.2 = .current ∧ ∃ data, Agree read.1 (e.signed w S device data)) ∧
          Filed S stateDir (entryPath stateDir e.id) device e w text contentKey m.nodes) m := by
  have hbelow := below_entryPath stateDir e.id
  have h := bystander_entry hquiet hbelow S device e w text contentKey
  have hkeys := not_keys_entryPaths hbelow
  -- What the file holds is the signed metadata.
  have hload : wp env (loadMetadata S (metadataPath (entryPath stateDir e.id)))
      ((Assertion.always fun m =>
          Filed S stateDir (entryPath stateDir e.id) device e w text contentKey m.nodes).postWith
        fun value m => (∃ ms data, value = .obj ms ∧ Agree ms (e.signed w S device data)) ∧
            Filed S stateDir (entryPath stateDir e.id) device e w text contentKey m.nodes) m := by
    refine Kept.wp_tryExcept ?_ fun e m hJ => ?_
    · refine Keeps.wp_bind (kept_look h _) hm fun size m hm => ?_
      refine Keeps.wp_bind (Kept.liftExcept _) hm fun _ m hm => ?_
      rw [wp_bind]
      refine Disk.wp_sys_of h.others hm (fun _ hJ => hJ) (fun _ _ hJ => hJ) ?_
      intro t n raw n' hJ ha tick
      obtain ⟨hraw, rfl⟩ := Disk.Action.look_some ha
      obtain ⟨hregular, data, pretty, -, hpretty, hcontent⟩ := hJ.2
      rw [hcontent, Option.some.injEq] at hraw
      subst hraw
      obtain ⟨ms, hms, hagree⟩ := strictJsonLoads_signed hregular hpretty
      refine Kept.wp_liftExcept hJ fun value hvalue => ?_
      rw [hms, Except.ok.injEq] at hvalue
      exact ⟨⟨ms, data, hvalue.symm, hagree⟩, hJ⟩
    · exact (wp_ite _ _ _ _).2 ⟨fun _ => hJ, fun _ => hJ⟩
  unfold readMetadata
  rw [wp_bind]
  refine hload.mono ⟨?_, fun _ _ hJ => hJ, fun _ hJ => hJ⟩
  rintro _ m ⟨⟨ms, data, rfl, hagree⟩, hm⟩
  have hcommon := checkCommon_of_signed hagree hlawful.isDigest hstate
  rw [Post.withOk_ok, hcommon, wp_bind, wp_liftExcept_ok, Post.withOk_ok]
  refine Keeps.wp_bind ?_ hm fun _ m hm => ⟨⟨rfl, data, hagree⟩, hm⟩
  exact Keeps.bind (kept_loadDeviceRoot h S stateDir hkeys false) fun _ => Kept.liftExcept _

end Reading

/-! ## Writing -/

section Writing

variable {S : System} {stateDir dir : Path} {device : DeviceRoot} {e : Entry} {w w' : Progress}
  {text contentKey aad data : Bytes} {env : Os} {m : Disk.Machine}

theorem QuietStore.quiet (h : QuietStore env stateDir) (hdir : Below (entriesDir stateDir) dir) :
    Util.Quiet env dir :=
  fun t nodes name => h t nodes _ (inStore_of_below hdir (Disk.below_join dir name))

theorem ordinary_metadataName : Util.Ordinary metadataName := by decide

theorem not_storedPaths_metadataPath (hdir : Below (entriesDir stateDir) dir) :
    ¬ StoredPaths stateDir dir (metadataPath dir) := by
  have hbelow := Disk.below_trans hdir (below_metadataPath dir)
  rintro (heq | heq | heq)
  · rw [heq] at hbelow
    exact entries_disjoint hbelow (Disk.below_join _ _)
  · have hlength := congrArg List.length heq
    simp [metadataPath, Disk.join] at hlength
  · exact absurd (Disk.join_inj heq) (by decide)

/-- New progress is written, or the old one stays. -/
theorem wp_writeRecord (hquiet : QuietStore env stateDir) (hdir : Below (entriesDir stateDir) dir)
    {metadata : List (Str × Json)} (hfits : e.Fits w' metadata) (hregular : e.Regular w')
    (hm : Filed S stateDir dir device e w text contentKey m.nodes) :
    wp env (writeMetadata S stateDir (metadataPath dir) metadata)
      ⟨fun signed m => (∃ data, Agree signed (e.signed w' S device data)) ∧
          Filed S stateDir dir device e w' text contentKey m.nodes,
        fun _ m => Filed S stateDir dir device e w text contentKey m.nodes ∨
          Filed S stateDir dir device e w' text contentKey m.nodes,
        fun m => Filed S stateDir dir device e w text contentKey m.nodes ∨
          Filed S stateDir dir device e w' text contentKey m.nodes⟩ m := by
  have hentry := bystander_entry hquiet hdir S device e w text contentKey
  have hstored := bystander_stored hquiet hdir S device e text contentKey
  have htracked := (hquiet.quiet hdir).tracked ordinary_metadataName
  unfold writeMetadata
  refine wp.bind (wp_loadDeviceRoot hentry (not_keys_entryPaths hdir) false hm) ?_
    (fun _ _ hJ => .inl hJ) fun _ hJ => .inl hJ
  rintro device' m ⟨hdevice, hm⟩
  obtain rfl := hdevice.unique hm.1.key
  rw [wp_bind, wp_liftExcept]
  refine ⟨fun signed hsigned => ?_, fun _ _ => .inl hm⟩
  obtain ⟨data, hdata, hagree⟩ := agree_of_signMetadata hfits hsigned
  unfold Util.atomicWriteJson
  rw [Post.withOk_ok, wp_bind, wp_bind, wp_liftExcept]
  refine ⟨fun pretty hpretty => ?_, fun _ _ => .inl hm⟩
  rw [encodeJson_of_agree hagree] at hpretty
  -- The file holds its old bytes or the new ones, and the rest of the entry is as it was.
  have hnew : ∀ m' : Disk.Machine, Util.Replaced (Util.Entries dir) (Disk.join dir metadataName)
      (pretty ++ [10]) m.nodes m' → Recorded S device' e w' (metadataPath dir) m'.nodes :=
    fun m' hreplaced => ⟨hregular, data, pretty, hdata, hpretty,
      hreplaced.content (ordinary_metadataName.entry dir)⟩
  have hold : ∀ m' : Disk.Machine, Util.Before (Util.Entries dir) m.nodes m' →
      Recorded S device' e w (metadataPath dir) m'.nodes :=
    fun m' hbefore => hm.2.congr (hbefore _ (ordinary_metadataName.entry dir))
  refine (Kept.both (kept_atomicWriteBytes hstored (not_storedPaths_metadataPath hdir) _ 0o600) hm.1
    (Util.wp_atomicWriteBytes htracked (pretty ++ [10]) 0o600 m)).mono ⟨?_, ?_, ?_⟩
  · rintro _ m' ⟨hreplaced, hrest⟩
    exact ⟨⟨data, hagree⟩, hrest, hnew m' hreplaced⟩
  · rintro _ m' ⟨hbefore | hreplaced, hrest⟩
    · exact .inl ⟨hrest, hold m' hbefore⟩
    · exact .inr ⟨hrest, hnew m' hreplaced⟩
  · rintro m' ⟨hbefore | hreplaced, hrest⟩
    · exact .inl ⟨hrest, hold m' hbefore⟩
    · exact .inr ⟨hrest, hnew m' hreplaced⟩

end Writing

end ZsecShield.Quarantine
