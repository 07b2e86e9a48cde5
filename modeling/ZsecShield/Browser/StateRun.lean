import ZsecShield.Browser.History

/-!
# Calls in any order

The store over calls of `AddHistory`, `AddBookmark` and `RemoveBookmark` from the default data.  A call
changes the data in memory also where its `Save` throws, and then the file stays as it was.  Whatever
the calls were, the entries in memory have canonical URLs within the bound, and the settings are the
default ones in their normal form (`reached_run`).
-/

namespace ZsecShield.Browser

open Text (Str str CodePoint)
open Checks
open Recency

/-! ## Calls -/

/-- A call that changes the entries, and its time. -/
inductive Call where
  | addHistory (now : Str) (title url : Option Str) (typed : Bool)
  | addBookmark (now : Str) (title url : Option Str)
  | removeBookmark (now : Str) (url : Option Str)

def Call.now : Call → Str
  | .addHistory now _ _ _ => now
  | .addBookmark now _ _ => now
  | .removeBookmark now _ => now

/-- What a call leaves in memory, and what the write of its `Save` gave. -/
structure Left where
  data : ProductData
  written : Option (Except StateError Bytes)

def Outcome.left {α : Type} (o : Outcome α) : Left := ⟨o.data, o.written⟩

def Call.apply (P : StatePlatform) (d : ProductData) : Call → Except StateError Left
  | .addHistory now title url typed => (Browser.addHistory P now d title url typed).map Outcome.left
  | .addBookmark now title url => (Browser.addBookmark P now d title url).map Outcome.left
  | .removeBookmark now url => (Browser.removeBookmark P now d url).map Outcome.left

/-- The store between two calls. -/
structure Store where
  data : ProductData
  file : Option Bytes

/-- The store after a call.  A write that throws leaves the file as it was. -/
def Store.after (s : Store) (left : Left) : Store where
  data := left.data
  file := match left.written with
    | some (.ok bytes) => some bytes
    | _ => s.file

def Store.call (P : StatePlatform) (s : Store) (c : Call) : Except StateError Store :=
  (c.apply P s.data).map s.after

/-- The store after calls from the default data. -/
def Store.run (P : StatePlatform) (calls : List Call) : Except StateError Store :=
  calls.foldlM (Store.call P) ⟨createDefault P, none⟩

variable {P : StatePlatform}

/-! ## One call -/

/-- Entries with canonical URLs, and counts that are numbers of the code. -/
structure Canonical (P : StatePlatform) (d : ProductData) : Prop where
  bookmarks : ∀ b ∈ d.bookmarks, b.IsWeb P
  history : ∀ e ∈ d.history, e.IsWeb P ∧ IsInt e.typedCount

theorem isInt_wrap32 (n : Int) : IsInt (wrap32 n) := by
  have hlow := Int.le_bmod (x := n) (m := 2 ^ 32) (by omega)
  have hhigh := Int.bmod_lt (x := n) (m := 2 ^ 32) (by omega)
  rw [IsInt, wrap32]
  omega

/-- What a call does: nothing, or a `Save` of the data with other entries. -/
theorem apply_cases (hP : P.Assumed) {d : ProductData} (h : Canonical P d) (c : Call) :
    c.apply P d = .ok ⟨d, none⟩ ∨ ∃ bookmarks history,
      Canonical P { d with bookmarks, history } ∧
        c.apply P d = (saveState P c.now { d with bookmarks, history }.raw ()).map Outcome.left := by
  have hmap (data : RawData) (now : Str) (result : Bool) :
      (saveState P now data result).map Outcome.left =
        (saveState P now data ()).map Outcome.left := by
    rw [saveState, saveState]
    cases normalizeData P now (some data) <;> rfl
  cases c with
  | addHistory now title url typed =>
      rw [Call.apply, Call.now]
      cases hrecords : d.settings.recordHistory with
      | false =>
          left
          rw [addHistory, if_pos hrecords]
          rfl
      | true =>
          cases hread : tryNormalizeWebUrl P url with
          | none =>
              left
              rw [addHistory_of_none hread]
              rfl
          | some u =>
              refine .inr ⟨d.bookmarks, withVisit P now d title u typed, ⟨h.bookmarks, ?_⟩, ?_⟩
              · intro e he
                rcases List.mem_cons.1 (List.mem_of_mem_take he) with rfl | he
                · refine ⟨⟨u, isWebUrl_of_read hP hread⟩, ?_⟩
                  dsimp only
                  split
                  · cases typed <;> exact ⟨by decide, by decide⟩
                  · exact isInt_wrap32 _
                · exact h.history e (List.mem_of_mem_eraseP he)
              · rw [addHistory_of_read hrecords hread]
  | addBookmark now title url =>
      rw [Call.apply, Call.now, addBookmark]
      cases hread : tryNormalizeWebUrl P url with
      | none => exact .inl rfl
      | some u =>
          right
          dsimp only
          split
          · refine ⟨_, d.history, ?_, hmap _ _ _⟩
            refine ⟨fun b hb => ?_, h.history⟩
            obtain ⟨a, ha, rfl | rfl⟩ := mem_modify hb
            · exact h.bookmarks _ ha
            · exact h.bookmarks a ha
          · refine ⟨_, d.history, ?_, hmap _ _ _⟩
            refine ⟨fun b hb => ?_, h.history⟩
            rcases List.mem_cons.1 (List.mem_of_mem_take hb) with rfl | hb
            · exact ⟨u, isWebUrl_of_read hP hread⟩
            · exact h.bookmarks b hb
  | removeBookmark now url =>
      rw [Call.apply, Call.now, removeBookmark]
      split
      · refine .inr ⟨_, d.history, ?_, hmap _ _ _⟩
        refine ⟨fun b hb => ?_, h.history⟩
        exact h.bookmarks b (List.mem_of_mem_filter hb)
      · exact .inl rfl

/-! ## Normalizing what a call leaves -/

/-- The default settings and their normal form. -/
structure Settled (P : StatePlatform) (normal : ProductSettings) : Prop where
  default : normalizeSettings P (defaultSettings P).raw = .ok normal
  again : normalizeSettings P normal.raw = .ok normal

theorem normalizeData_settled {normal : ProductSettings} (hS : Settled P normal) {d : ProductData}
    (hschema : d.schemaVersion = 3)
    (hsettings : d.settings = defaultSettings P ∨ d.settings = normal) (now : Str) :
    normalizeData P now (some d.raw) =
      .ok ⟨3, keptBookmarks P now (d.bookmarks.map fun b => some b.raw),
        keptHistory P now (d.history.map fun e => some e.raw), normal⟩ := by
  have hlegacy : legacySettings P d.raw = d.settings.raw := by
    have hnew : ¬ d.schemaVersion < 2 := by omega
    exact if_neg hnew
  refine normalizeData_raw_eq_ok.2 ⟨normal, ?_, rfl⟩
  rw [hlegacy]
  rcases hsettings with hdefault | hnormal
  · rw [hdefault]
    exact hS.default
  · rw [hnormal]
    exact hS.again

/-- An entry that is kept comes from one of the data. -/
theorem mem_keptHistory_raw {now : Str} {history : List HistoryEntry} {e : HistoryEntry}
    (h : e ∈ keptHistory P now (history.map fun e => some e.raw)) :
    ∃ e₀ ∈ history, normalizeHistory P now e₀.raw = some e := by
  obtain ⟨item, hitem, he⟩ := List.mem_filterMap.1 (List.mem_of_mem_take h)
  obtain ⟨e₀, he₀, rfl⟩ := List.mem_map.1 hitem
  exact ⟨e₀, he₀, he⟩

theorem mem_keptBookmarks_raw {now : Str} {bookmarks : List Bookmark} {b : Bookmark}
    (h : b ∈ keptBookmarks P now (bookmarks.map fun b => some b.raw)) :
    ∃ b₀ ∈ bookmarks, normalizeBookmark P now b₀.raw = some b := by
  have hmem := (firstOfEach_sublist _).subset (List.mem_of_mem_take h)
  obtain ⟨item, hitem, hb⟩ := List.mem_filterMap.1 hmem
  obtain ⟨b₀, hb₀, rfl⟩ := List.mem_map.1 hitem
  exact ⟨b₀, hb₀, hb⟩

theorem Canonical.normalizeData (hP : P.Assumed) {now : Str} {d n : ProductData}
    (h : Canonical P d) (hn : Browser.normalizeData P now (some d.raw) = .ok n) : Canonical P n := by
  obtain ⟨settings, -, rfl⟩ := normalizeData_raw_eq_ok.1 hn
  constructor
  · intro b hb
    obtain ⟨item, hitem⟩ := mem_keptBookmarks hb
    exact isWeb_of_normalizeBookmark hP hitem
  · intro e he
    obtain ⟨e₀, he₀, hitem⟩ := mem_keptHistory_raw he
    refine ⟨isWeb_of_normalizeHistory hP hitem, ?_⟩
    obtain ⟨hlow, hhigh⟩ := (h.history e₀ he₀).2
    obtain ⟨u, -, rfl⟩ := Option.map_eq_some_iff.1 hitem
    exact ⟨hlow.trans (le_max_right _ _), max_lt (by decide) hhigh⟩

/-! ## Runs -/

/-- What the store holds after calls. -/
structure Reached (P : StatePlatform) (normal : ProductSettings) (s : Store) : Prop where
  entries : Canonical P s.data
  schema : s.data.schemaVersion = 3
  settings : s.data.settings = defaultSettings P ∨ s.data.settings = normal
  bookmarks : s.data.bookmarks.length ≤ maximumBookmarks
  history : s.data.history.length ≤ maximumHistoryEntries
  file : ∀ bytes, s.file = some bytes → bytes.length ≤ maximumStateBytes

/-- A call returns or throws out of its `Save`, and leaves such a store in both cases. -/
theorem Reached.apply (hP : P.Assumed) {normal : ProductSettings} (hS : Settled P normal) {s : Store}
    (h : Reached P normal s) (c : Call) :
    ∃ left, c.apply P s.data = .ok left ∧ Reached P normal (s.after left) ∧
      (left = ⟨s.data, none⟩ ∨ ∃ d, Canonical P d ∧
        normalizeData P c.now (some d.raw) = .ok left.data ∧ left.data.settings = normal ∧
        left.written = some (writeState P left.data)) := by
  rcases apply_cases hP h.entries c with hnone | ⟨bookmarks, history, hcanonical, hsave⟩
  · exact ⟨_, hnone, ⟨h.entries, h.schema, h.settings, h.bookmarks, h.history, h.file⟩, .inl rfl⟩
  · obtain ⟨d, hd⟩ : ∃ d : ProductData, d = { s.data with bookmarks, history } := ⟨_, rfl⟩
    have hschema : d.schemaVersion = 3 := by
      rw [hd]
      exact h.schema
    have hsettings : d.settings = defaultSettings P ∨ d.settings = normal := by
      rw [hd]
      exact h.settings
    rw [← hd] at hcanonical hsave
    have hnormal := normalizeData_settled hS hschema hsettings c.now
    obtain ⟨n, hn⟩ : ∃ n, n = ProductData.mk 3 (keptBookmarks P c.now (d.bookmarks.map fun b => some b.raw))
      (keptHistory P c.now (d.history.map fun e => some e.raw)) normal := ⟨_, rfl⟩
    rw [← hn] at hnormal
    have hleft : c.apply P s.data = .ok ⟨n, some (writeState P n)⟩ := by
      rw [hsave, saveState, hnormal]
      rfl
    refine ⟨_, hleft, ⟨hcanonical.normalizeData hP hnormal, ?_, ?_, ?_, ?_, ?_⟩,
      .inr ⟨d, hcanonical, hnormal, congrArg ProductData.settings hn, rfl⟩⟩
    · exact congrArg ProductData.schemaVersion hn
    · exact .inr (congrArg ProductData.settings hn)
    · dsimp only [Store.after]
      rw [hn]
      exact List.length_take_le _ _
    · dsimp only [Store.after]
      rw [hn]
      exact List.length_take_le _ _
    · intro bytes hbytes
      dsimp only [Store.after] at hbytes
      split at hbytes
      · rename_i written hwritten
        obtain ⟨text, -, hbound, rfl⟩ := writeState_eq_ok.1 (Option.some.inj hwritten)
        obtain rfl := Option.some.inj hbytes
        exact hbound
      · exact h.file bytes hbytes

theorem run_snoc (calls : List Call) (c : Call) :
    Store.run P (calls ++ [c]) = Store.run P calls >>= fun s => s.call P c := by
  simp only [Store.run, List.foldlM_append, List.foldlM_cons, List.foldlM_nil, bind_pure]

/-- The store after calls, whatever they are. -/
theorem reached_run (hP : P.Assumed) {normal : ProductSettings} (hS : Settled P normal)
    (calls : List Call) : ∃ s, Store.run P calls = .ok s ∧ Reached P normal s := by
  induction calls using List.reverseRecOn with
  | nil =>
      refine ⟨_, rfl, ⟨⟨List.forall_mem_nil _, List.forall_mem_nil _⟩, rfl, .inl rfl, Nat.zero_le _,
        Nat.zero_le _, nofun⟩⟩
  | append_singleton calls c ih =>
      obtain ⟨s, hs, hreached⟩ := ih
      obtain ⟨left, hleft, hnext, -⟩ := hreached.apply hP hS c
      refine ⟨s.after left, ?_, hnext⟩
      rw [run_snoc, hs, bind_ok, Store.call, hleft]
      rfl

end ZsecShield.Browser
