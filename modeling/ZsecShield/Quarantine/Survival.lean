import ZsecShield.Quarantine.Published

/-!
# Published entries survive

Whatever the quarantine does next, a published entry stays published: a file that is quarantined,
an entry that is restored, this one or another, and a listing, each of them also when it fails or
the process stops inside it.  So it is over any run of such calls (`published_after`).
-/

namespace ZsecShield.Quarantine

open Text (Str str)
open Feed (field)
open Effect
open Checks
open Disk (Bystander Kept Below)
open Json (Agree)
open Util (Os Io)

section Apart

variable {stateDir : Path} {id : Str}

theorem cons_of_isCanonicalUuid (h : isCanonicalUuid id = true) :
    ∃ c rest, id = c :: rest ∧ isLowerHex c = true := by
  have hlength := (isCanonicalUuid_spec h).1
  cases id with
  | nil => cases hlength
  | cons c rest =>
      refine ⟨c, rest, rfl, ?_⟩
      rw [isCanonicalUuid, Bool.and_eq_true, List.all_eq_true] at h
      have hfirst := h.2 (c, 0) (by rw [List.zipIdx_cons]; exact List.mem_cons_self)
      exact hfirst

theorem entryPaths_cases {p : Path} (h : EntryPaths stateDir (entryPath stateDir id) p) :
    p = deviceKeyPath stateDir ∨ Below (entryPath stateDir id) p := by
  obtain (rfl | rfl | rfl) | rfl := h
  · exact .inl rfl
  · exact .inr (Disk.below_refl _)
  · exact .inr (below_contentPath _)
  · exact .inr (below_metadataPath _)

/-- The paths of an entry are apart from what a new entry is made of. -/
theorem apart_entryPaths (h : isCanonicalUuid id = true) :
    Apart stateDir (EntryPaths stateDir (entryPath stateDir id)) where
  keys := not_keys_entryPaths (below_entryPath stateDir id)
  entries := by
    intro hentries
    obtain heq | hbelow := entryPaths_cases hentries
    · have hkeys : Below (keyDirectory stateDir) (entriesDir stateDir) := by
        rw [heq]
        exact Disk.below_join _ _
      exact entries_disjoint (Disk.below_refl _) hkeys
    · have hlength := Disk.Below.length_le hbelow
      simp [entryPath, Disk.join] at hlength
  hidden := by
    intro s p hp hbelow
    have hentries := Disk.below_trans (Disk.below_join (entriesDir stateDir) (str "." ++ s)) hbelow
    obtain rfl | hentry := entryPaths_cases hp
    · exact entries_disjoint hentries (Disk.below_join _ _)
    · obtain ⟨c, rest, rfl, hc⟩ := cons_of_isCanonicalUuid h
      have hdot : isLowerHex (Text.ofChar '.') = false := by decide
      have hne : c ≠ Text.ofChar '.' := by
        rintro rfl
        rw [hdot] at hc
        cases hc
      obtain hup | hup := Disk.below_total hbelow hentry
      · exact hne (Disk.head_of_below hup).symm
      · exact hne (Disk.head_of_below hup)
  rooted := by
    intro name p hflat hp hbelow
    have hentries := Disk.below_trans (Disk.below_join (entriesDir stateDir) name) hbelow
    obtain rfl | hentry := entryPaths_cases hp
    · exact absurd (Disk.below_join _ _) (entries_disjoint hentries)
    · have hname : name = id := by
        by_contra hne
        obtain hup | hup := Disk.below_total hbelow hentry
        · exact Disk.not_below_entries (flat_of_isCanonicalUuid h) hne hup
        · exact Disk.not_below_entries hflat (Ne.symm hne) hup
      rw [hname]
      exact .inl (.inr (.inl rfl))

/-- The metadata of another entry is none of the paths of an entry. -/
theorem not_entryPaths_other {name : Str} (h : isCanonicalUuid id = true)
    (hname : isCanonicalUuid name = true) (hne : name ≠ id) :
    ¬ EntryPaths stateDir (entryPath stateDir id) (metadataPath (entryPath stateDir name)) := by
  intro hp
  have hbelow := below_metadataPath (entryPath stateDir name)
  obtain heq | hentry := entryPaths_cases hp
  · refine entries_disjoint (Disk.below_trans (below_entryPath stateDir name) hbelow) ?_
    rw [heq]
    exact Disk.below_join _ _
  · obtain hup | hup := Disk.below_total hbelow hentry
    · exact Disk.not_below_entries (flat_of_isCanonicalUuid h) hne hup
    · exact Disk.not_below_entries (flat_of_isCanonicalUuid hname) (Ne.symm hne) hup

end Apart

/-! ## The progress of a restoration -/

/-- One more restoration. -/
def Progress.restored (w : Progress) (restoredAt : Str) (target : Path) : Progress :=
  let history := w.history ++
    [.obj [(str "restored_at", .str restoredAt), (str "destination", .str target)]]
  { w with state := str "restored", history := history.drop (history.length - 100) }

section Progress

variable {S : System} {device : DeviceRoot} {data : Bytes} {e : Entry} {w : Progress}
  {metadata : List (Str × Json)}

theorem Entry.Fits.restored (h : Agree metadata (e.signed w S device data)) (restoredAt : Str)
    (target : Path) :
    e.Fits (w.restored restoredAt target) (recorded metadata restoredAt target) := by
  obtain ⟨us, hus, hsame⟩ := field_arr h
    ((e.field_signed w S device data (by decide)).trans (e.field_history w))
  have hlength : us.length = w.history.length := by
    have := congrArg List.length hsame
    rwa [List.length_map, List.length_map] at this
  unfold recorded
  rw [hus]
  refine ((Entry.Fits.of_signed h).setState (str "restored")).setHistory ?_
  simp only [Json.arrOf, Option.getD_some, List.length_append, hlength, List.map_drop,
    List.map_append, hsame]

theorem Entry.Regular.restored (h : e.Regular w) (restoredAt : Str) (target : Path) :
    e.Regular (w.restored restoredAt target) where
  ruleMatches := h.ruleMatches
  zba := h.zba
  quarantinedAt := h.quarantinedAt
  history v hv := by
    obtain hv | hv := List.mem_append.1 (List.mem_of_mem_drop hv)
    · exact h.history v hv
    · rw [List.mem_singleton.1 hv]
      have hkeys : [str "restored_at", str "destination"].Nodup := by decide
      refine .obj 0 _ hkeys fun m hm => ?_
      simp only [List.mem_cons, List.not_mem_nil, or_false] at hm
      rcases hm with rfl | rfl <;> exact .str 0 _

theorem restored_mem_entryStates (w : Progress) (restoredAt : Str) (target : Path) :
    (w.restored restoredAt target).state ∈ entryStates := by
  change str "restored" ∈ entryStates
  decide

end Progress

/-! ## One call -/

section Call

variable {S : System} {stateDir : Path} {id : Str} {text : Bytes} {env : Os} {m : Disk.Machine}

theorem Published.canonical (h : Published S stateDir id text m.nodes) :
    isCanonicalUuid id = true := by
  obtain ⟨device, e, contentKey, aad, w, rfl, hlawful, -, -⟩ := h
  exact hlawful.id

/-- A program that leaves the paths of an entry alone leaves the entry published. -/
theorem published_of_kept {α : Type} {p : Io α} (hquiet : QuietStore env stateDir)
    (hkept : ∀ J, Bystander env (EntryPaths stateDir (entryPath stateDir id)) J → Kept env J p)
    (hm : Published S stateDir id text m.nodes) :
    wp env p (Assertion.always fun m => Published S stateDir id text m.nodes).post m := by
  obtain ⟨device, e, contentKey, aad, w, rfl, hlawful, hstate, hfiled⟩ := hm
  have hentry := bystander_entry hquiet (below_entryPath stateDir e.id) S device e w text contentKey
  have hdone : ∀ m : Disk.Machine,
      Filed S stateDir (entryPath stateDir e.id) device e w text contentKey m.nodes →
      Published S stateDir e.id text m.nodes :=
    fun _ hfiled => ⟨device, e, contentKey, aad, w, rfl, hlawful, hstate, hfiled⟩
  exact (hkept _ hentry m hfiled).mono ⟨fun _ => hdone, fun _ => hdone, hdone⟩

/-- A quarantined file leaves an entry published, if the file is not one of the store's. -/
theorem published_quarantineFinding (hquiet : QuietStore env stateDir) (fuel : Nat)
    {finding : FileFinding} (hsource : ¬ InStore stateDir (S.pathText finding.path))
    (hm : Published S stateDir id text m.nodes) :
    wp env (quarantineFinding S fuel finding stateDir)
      (Assertion.always fun m => Published S stateDir id text m.nodes).post m :=
  published_of_kept hquiet (fun _ h => kept_quarantineFinding h (apart_entryPaths hm.canonical) S fuel
    finding fun hF => hsource (inStore_entryPaths (below_entryPath stateDir id) hF)) hm

theorem published_listEntries (hquiet : QuietStore env stateDir) (names : List Str)
    (hm : Published S stateDir id text m.nodes) :
    wp env (listEntries S stateDir names)
      (Assertion.always fun m => Published S stateDir id text m.nodes).post m :=
  published_of_kept hquiet (fun _ h => kept_listEntries h S stateDir
    (not_keys_entryPaths (below_entryPath stateDir id)) names) hm

theorem canonical_of_validateEntryId {entryId name : Str}
    (h : validateEntryId S entryId = .ok name) : isCanonicalUuid name = true := by
  unfold validateEntryId at h
  split at h
  · cases h
    assumption
  · split at h <;> cases h

/-- The restoration of the entry itself records one more restoration, or nothing. -/
theorem published_restoreSelf (hquiet : QuietStore env stateDir)
    (convert : Json → Except PyError Int) (fuel : Nat) {entryId : Str} (destination : Option Path)
    (hname : validateEntryId S entryId = .ok id) (hm : Published S stateDir id text m.nodes) :
    wp env (restoreEntry S convert fuel entryId stateDir destination)
      (Assertion.always fun m => Published S stateDir id text m.nodes).post m := by
  obtain ⟨device, e, contentKey, aad, w, rfl, hlawful, hstate, hfiled⟩ := hm
  have hbelow := below_entryPath stateDir e.id
  have hentry := bystander_entry hquiet hbelow S device e w text contentKey
  have hkeys := not_keys_entryPaths hbelow
  have hpublished : ∀ {w : Progress} {m : Disk.Machine}, w.state ∈ entryStates →
      Filed S stateDir (entryPath stateDir e.id) device e w text contentKey m.nodes →
      Published S stateDir e.id text m.nodes :=
    fun hstate hfiled => ⟨device, e, contentKey, aad, _, rfl, hlawful, hstate, hfiled⟩
  have hdone := fun m : Disk.Machine => hpublished (m := m) hstate
  unfold restoreEntry
  rw [hname, wp_bind, wp_liftExcept_ok, Post.withOk_ok]
  refine wp.bind (wp_readMetadata hquiet hlawful hstate hfiled) ?_ (fun _ => hdone) hdone
  rintro ⟨metadata, schema⟩ m ⟨⟨hschema, data, hagree⟩, hm⟩
  subst hschema
  rw [wp_bind, wp_liftExcept]
  refine ⟨fun target _ => ?_, fun _ _ => hdone m hm⟩
  refine wp.bind (kept_checkTarget hentry.others target m hm) (fun _ m hm => ?_) (fun _ => hdone) hdone
  refine wp.bind (hentry.wp_fresh (Disk.changes_mkstemp _ _)
    (fun _ _ _ _ ha => (Disk.Action.mkstemp_some ha).2.1) hm) ?_ (fun _ => hdone) hdone
  rintro temporary m ⟨htemporary, hm⟩
  refine wp.bind (Kept.tryExcept (kept_place hentry hkeys S convert fuel _ htemporary target metadata
    .current) (fun _ => true) (fun error => Keeps.bind (Kept.suppress
      (hentry.keeps_at (Disk.changes_unlink _) htemporary) _) fun _ => Kept.raise error) m hm)
    (fun placed m hm => ?_) (fun _ => hdone) hdone
  refine wp.bind (kept_now hentry m hm) (fun restoredAt m hm => ?_) (fun _ => hdone) hdone
  have hnew := restored_mem_entryStates w (Util.formatUtc restoredAt) target
  have hrecord : wp env (recordRestore S stateDir (metadataPath (entryPath stateDir e.id))
      (recorded metadata (Util.formatUtc restoredAt) target) .current)
      (Assertion.always fun m => Published S stateDir e.id text m.nodes).post m := by
    refine wp.bind (wp_writeRecord hquiet hbelow (Entry.Fits.restored hagree _ target)
      (hm.2.1.restored _ target) hm) (fun _ m h => hpublished hnew h.2) ?_ ?_
    · rintro _ m (h | h)
      · exact hpublished hstate h
      · exact hpublished hnew h
    · rintro m (h | h)
      · exact hpublished hstate h
      · exact hpublished hnew h
  exact wp.bind hrecord (fun _ _ h => h) (fun _ _ h => h) fun _ h => h

/-- A restoration leaves an entry published, whichever entry is restored. -/
theorem published_restoreEntry (hquiet : QuietStore env stateDir)
    (convert : Json → Except PyError Int) (fuel : Nat) (entryId : Str) (destination : Option Path)
    (hm : Published S stateDir id text m.nodes) :
    wp env (restoreEntry S convert fuel entryId stateDir destination)
      (Assertion.always fun m => Published S stateDir id text m.nodes).post m := by
  by_cases hname : validateEntryId S entryId = .ok id
  · exact published_restoreSelf hquiet convert fuel destination hname hm
  · have hkeys := not_keys_entryPaths (below_entryPath stateDir id)
    refine published_of_kept hquiet (fun _ h => kept_restoreEntry h hkeys S convert fuel destination
      fun name hother => ?_) hm
    refine not_entryPaths_other hm.canonical (canonical_of_validateEntryId hother) ?_
    rintro rfl
    exact hname hother

end Call

end ZsecShield.Quarantine
