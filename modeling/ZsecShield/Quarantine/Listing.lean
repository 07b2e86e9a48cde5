import ZsecShield.Quarantine.Restoration

/-!
# The listing

`list_entries` goes through the names of the directory in their order.  Whatever happens to its
calls, and whatever stands in the files, a listing that is returned has one line for every visible
name: a record of metadata that passed the checks under that name, or an error
(`covers_listEntries`).
-/

namespace ZsecShield.Quarantine

open Text (Str str)
open Feed (field isText)
open Effect
open Checks
open Disk (Kept)
open Util (Os Io)

/-- The names that are no temporary directories. -/
def visible (names : List Str) : List Str :=
  names.filter fun name => decide (name.head? ≠ some (Text.ofChar '.'))

theorem visible_concat_of_hidden {names : List Str} {name : Str}
    (h : name.head? = some (Text.ofChar '.')) : visible (names ++ [name]) = visible names := by
  simp [visible, h]

theorem visible_concat_of_shown {names : List Str} {name : Str}
    (h : ¬ name.head? = some (Text.ofChar '.')) :
    visible (names ++ [name]) = visible names ++ [name] := by
  simp [visible, h]

/-- A listing has one line for each name: a record of metadata that passed the checks under that
name, or an error. -/
structure Covers (S : System) (listing : Listing) (names : List Str) : Prop where
  records : ∀ r ∈ listing.records, ∃ name metadata schema,
    Checked S name metadata schema ∧ r = EntryRecord.of metadata schema
  recordOrder : (listing.records.map EntryRecord.id).Sublist (names.map Json.str)
  errorOrder : (listing.errors.map Prod.fst).Sublist names
  once : (listing.records.map EntryRecord.id ++ listing.errors.map fun e => Json.str e.1).Perm
    (names.map Json.str)

section Covers

variable {S : System} {listing : Listing} {names : List Str} {name : Str}
  {metadata : List (Str × Json)} {schema : Schema}

theorem covers_nil : Covers S {} [] where
  records := by
    intro r hr
    cases hr
  recordOrder := .slnil
  errorOrder := .slnil
  once := .nil

/-- Metadata that passed the checks names its entry. -/
theorem Checked.id_eq (h : Checked S name metadata schema) : field metadata "id" = .str name := by
  obtain ⟨value, digest, hcommon, -⟩ := h
  simp only [checkCommon, bind_eq_ok, fromOption_eq_ok, require_eq_ok] at hcommon
  obtain ⟨members, -, schema', -, _, ⟨-, hid⟩, _, -, _, -, _, -, _, -, _, -, _, -, _, -, heq⟩ :=
    hcommon
  cases heq
  exact Feed.isText_iff.1 hid

theorem Covers.record (h : Covers S listing names) (hchecked : Checked S name metadata schema) :
    Covers S { listing with records := listing.records ++ [EntryRecord.of metadata schema] }
      (names ++ [name]) := by
  have hid : (EntryRecord.of metadata schema).id = .str name := hchecked.id_eq
  refine ⟨fun r hr => ?_, ?_, ?_, ?_⟩
  · obtain hr | hr := List.mem_append.1 hr
    · exact h.records r hr
    · exact ⟨name, metadata, schema, hchecked, List.mem_singleton.1 hr⟩
  · rw [List.map_append, List.map_append, List.map_singleton, List.map_singleton, hid]
    exact h.recordOrder.append (.refl _)
  · exact h.errorOrder.trans (List.sublist_append_left _ _)
  · rw [List.map_append, List.map_append, List.map_singleton, List.map_singleton, hid,
      List.append_assoc]
    refine (List.Perm.append_left _ List.perm_append_comm).trans ?_
    rw [← List.append_assoc]
    exact h.once.append_right _

theorem Covers.error (h : Covers S listing names) (text : Str) :
    Covers S { listing with errors := listing.errors ++ [(name, text)] } (names ++ [name]) := by
  refine ⟨h.records, ?_, ?_, ?_⟩
  · rw [List.map_append]
    exact h.recordOrder.trans (List.sublist_append_left _ _)
  · rw [List.map_append, List.map_singleton]
    exact h.errorOrder.append (.refl _)
  · rw [List.map_append, List.map_append, List.map_singleton, List.map_singleton,
      ← List.append_assoc]
    exact h.once.append_right _

end Covers

section AnyStore

variable {S : System} {stateDir : Path} {env : Os} {m : Disk.Machine}

/-- One name adds its line, or none if it is hidden. -/
theorem covers_listEntry {listing : Listing} {names : List Str} (name : Str)
    (h : Covers S listing (visible names)) :
    wp env (listEntry S stateDir listing name)
      ((Assertion.always fun _ => True).postWith fun listing _ =>
        Covers S listing (visible (names ++ [name]))) m := by
  refine (wp_ite _ _ _ _).2 ⟨fun hhidden => ?_, fun hshown => ?_⟩
  · rw [visible_concat_of_hidden hhidden]
    exact h
  · rw [visible_concat_of_shown hshown]
    refine Kept.wp_tryExcept (J := fun _ => True) ?_ fun e m _ => h.error e.text
    refine Kept.wp_lift_bind (J := fun _ => True) trivial fun _ _ => ?_
    rw [wp_bind]
    refine (wp_readChecked (J := fun _ => True) (fun _ _ _ => trivial) name trivial).mono
      ⟨?_, fun _ _ h => h, fun _ h => h⟩
    rintro ⟨metadata, schema⟩ m ⟨hchecked, -⟩
    exact h.record hchecked

/-- If the directory is there and stays, a listing that is returned has one line for every visible
name: whichever calls fail, and whatever the files of the entries hold. -/
theorem covers_listEntries
    (hothers : ∀ t nodes, (nodes (entriesDir stateDir)).isSome = true →
      (env.others t nodes (entriesDir stateDir)).isSome = true)
    (names : List Str) (hm : (m.nodes (entriesDir stateDir)).isSome = true) :
    wp env (listEntries S stateDir names)
      ((Assertion.always fun _ => True).postWith fun listing _ =>
        Covers S listing (visible (names.insertionSort (· ≤ ·)))) m := by
  have hloop : ∀ m, wp env (Prog.foldEach (listEntry S stateDir) {} (names.insertionSort (· ≤ ·)))
      ((Assertion.always fun _ => True).postWith fun listing _ =>
        Covers S listing (visible (names.insertionSort (· ≤ ·)))) m := by
    intro m
    refine wp_foldEach (fun listing rest _ => ∃ front,
      front ++ rest = names.insertionSort (· ≤ ·) ∧ Covers S listing (visible front)) ?_ ?_ _ _ m
      ⟨[], rfl, covers_nil⟩
    · rintro listing name rest m ⟨front, hsplit, h⟩
      refine (covers_listEntry name h).monoOk fun listing m h => ?_
      exact ⟨front ++ [name], by rw [List.append_assoc, List.singleton_append, hsplit], h⟩
    · rintro listing m ⟨front, hsplit, h⟩
      rw [List.append_nil] at hsplit
      rw [← hsplit]
      exact h
  unfold listEntries
  rw [wp_bind]
  refine Disk.wp_sys_of (I := fun nodes => (nodes (entriesDir stateDir)).isSome = true) hothers hm
    (fun _ _ => trivial) (fun _ _ _ => trivial) ?_
  intro t nodes there n' hn ha tick
  obtain ⟨hthere, -⟩ := Disk.Action.look_some ha
  rw [hn] at hthere
  obtain rfl := Option.some.inj hthere
  refine (wp_ite _ _ _ _).2 ⟨fun _ => ?_, fun hnot => absurd rfl hnot⟩
  have hcandidates : wp env
      (Prog.tryExcept
        (do
          Util.sys Disk.Action.touch
          pure (names.insertionSort (· ≤ ·)))
        PyError.isOs
        fun e => Prog.raise (quarantineError (str "cannot list quarantine: " ++ e.text)))
      ((Assertion.always fun _ => True).postWith fun candidates _ =>
        candidates = names.insertionSort (· ≤ ·)) ⟨n', tick⟩ := by
    refine Kept.wp_tryExcept (J := fun _ => True) ?_ fun _ _ _ => trivial
    exact Kept.wp_bind_of (K := fun _ => True) (fun _ h => h) (Kept.look (fun _ _ h => h) _) trivial
      fun _ _ _ => rfl
  rw [wp_bind]
  refine hcandidates.mono ⟨?_, fun _ _ h => h, fun _ h => h⟩
  rintro _ m rfl
  exact hloop m

end AnyStore

namespace Sample

/-- A store without entries. -/
def shelf : Disk.Machine := ⟨fun p => if p = entriesDir stateDir then some .directory else none, 0⟩

end Sample

theorem covers_listEntries_sample :
    wp Sample.env (listEntries Sample.system Sample.stateDir [str "b", str ".t", str "a"])
      ((Assertion.always fun _ => True).postWith fun listing _ =>
        Covers Sample.system listing
          (visible ([str "b", str ".t", str "a"].insertionSort (· ≤ ·)))) Sample.shelf := by
  refine covers_listEntries (fun t nodes h => ?_) _ ?_
  · rw [Sample.leaves _ t nodes]
    exact h
  · simp only [Sample.shelf, ↓reduceIte, Option.isSome_some]

end ZsecShield.Quarantine
