import ZsecShield.Browser.BookmarkHtml

/-!
# Bookmarks that are reached

The bookmarks after calls of `AddBookmark`, `RemoveBookmark` and `ImportBookmarksHtml` from the default
data.  Every call that changes them ends in a `Save`, and so their titles were normalized twice, which
makes them their own normal forms (`shelf_run`).
-/

namespace ZsecShield.Browser

open Text (Str str CodePoint)
open Checks
open Recency

/-! ## Calls -/

/-- A call that changes the bookmarks. -/
inductive Edit where
  | addBookmark (now : Str) (title url : Option Str)
  | removeBookmark (now : Str) (url : Option Str)
  | importBookmarks (now : Str) (file : Option ImportFile)

/-- The data in memory after a call, whether or not the file could be written. -/
def Edit.apply (P : BookmarkPlatform) (d : ProductData) : Edit → Except StateError ProductData
  | .addBookmark now title url => (Browser.addBookmark P.toStatePlatform now d title url).map Outcome.data
  | .removeBookmark now url => (Browser.removeBookmark P.toStatePlatform now d url).map Outcome.data
  | .importBookmarks now file => (importBookmarksHtml P now d file).map Outcome.data

/-- The data after calls from the default data. -/
def edited (P : BookmarkPlatform) (edits : List Edit) : Except StateError ProductData :=
  edits.foldlM (Edit.apply P) (createDefault P.toStatePlatform)

variable {P : StatePlatform}

/-! ## Bookmarks before and after a `Save` -/

/-- A canonical URL and a normal title. -/
def Draft (P : StatePlatform) (b : Bookmark) : Prop := b.IsWeb P ∧ IsTitle b.title

/-- A bookmark that is its own normal form, its time apart. -/
structure Shelved (P : StatePlatform) (b : Bookmark) : Prop where
  draft : Draft P b
  length : length16 b.url ≤ 4096
  title : ∀ fallback, normalizeTitle (some b.title) fallback = b.title

/-- Bookmarks after a `Save`. -/
structure Shelf (P : StatePlatform) (bookmarks : List Bookmark) : Prop where
  shelved : ∀ b ∈ bookmarks, Shelved P b
  distinct : Distinct (fun b : Bookmark => ignoreCase P b.url) bookmarks
  length : bookmarks.length ≤ maximumBookmarks

theorem IsTitle.trimmed {t : Str} (h : IsTitle t) (fallback : Str) :
    IsTitle (normalizeTitle (some t) fallback) ∧
      ∀ c ∈ (normalizeTitle (some t) fallback).getLast?, isWhiteSpace c = false := by
  obtain ⟨c, s, ht, hc⟩ := h.head
  have htitle : IsTitle (normalizeTitle (some t) fallback) := by
    have hblank : isBlank t = false := by
      rw [ht, isBlank, List.all_cons, hc, Bool.false_and]
    have hcut := isTitle_cut (not_blank_trim hblank)
    rw [normalizeTitle, Option.getD_some, hblank]
    exact hcut
  refine ⟨htitle, fun d hd => ?_⟩
  rw [h.normalize] at hd
  exact not_of_trimEndOf hd

theorem Draft.shelved (hP : P.Assumed) {now : Str} {b b' : Bookmark} (h : Draft P b)
    (hb : normalizeBookmark P now b.raw = some b') : Shelved P b' := by
  obtain ⟨u, hu⟩ := h.1
  have hweb := isWeb_of_normalizeBookmark hP hb
  obtain ⟨v, hv, rfl⟩ := Option.map_eq_some_iff.1 hb
  obtain rfl : v = u := hu.unique hv
  obtain ⟨htitle, hlast⟩ := h.2.trimmed v.host
  have hlength : length16 v.text ≤ 4096 := by
    rw [hu.text]
    exact (tryNormalizeWebUrl_eq_some.1 hv).2.1
  exact ⟨⟨hweb, htitle⟩, hlength, fun fallback => (htitle.normalize_eq_iff fallback).2 hlast⟩

/-- What a `Save` keeps. -/
theorem shelf_keptBookmarks (hP : P.Assumed) {now : Str} {bookmarks : List Bookmark}
    (h : ∀ b ∈ bookmarks, Draft P b) :
    Shelf P (keptBookmarks P now (bookmarks.map fun b => some b.raw)) := by
  refine ⟨fun b hb => ?_, ?_, List.length_take_le _ _⟩
  · have hmem := (firstOfEach_sublist _).subset (List.mem_of_mem_take hb)
    rw [filterMap_map_some (normalizeBookmark P now) Bookmark.raw] at hmem
    obtain ⟨b₀, hb₀, hb⟩ := List.mem_filterMap.1 hmem
    exact (h b₀ hb₀).shelved hP hb
  · exact (distinct_firstOfEach _).sublist (List.take_sublist _ _)

theorem Shelved.normalize {now : Str} {b : Bookmark} (h : Shelved P b) :
    normalizeBookmark P now b.raw =
      some ⟨b.title, b.url, normalizeTimestamp P now (some b.createdAtUtc)⟩ := by
  obtain ⟨u, hu⟩ := h.draft.1
  have hread : tryNormalizeWebUrl P b.raw.url = some u := hu.normalize_eq h.length
  rw [normalizeBookmark, hread, Option.map_some, hu.text]
  exact congrArg (fun title => some (Bookmark.mk title b.url _)) (h.title u.host)

/-- A title and a URL. -/
def Bookmark.link (b : Bookmark) : Str × Str := (b.title, b.url)

/-- A `Save` keeps the titles and the URLs, in their order. -/
theorem Shelf.kept {bookmarks : List Bookmark} (h : Shelf P bookmarks) (now : Str) :
    (keptBookmarks P now (bookmarks.map fun b => some b.raw)).map Bookmark.link =
      bookmarks.map Bookmark.link := by
  obtain ⟨kept, hkept⟩ : ∃ kept, kept = bookmarks.map fun b : Bookmark =>
    Bookmark.mk b.title b.url (normalizeTimestamp P now (some b.createdAtUtc)) := ⟨_, rfl⟩
  have hfilter : bookmarks.filterMap (fun b => normalizeBookmark P now b.raw) = kept := by
    rw [hkept, ← List.filterMap_eq_map]
    exact List.filterMap_congr fun b hb => (h.shelved b hb).normalize
  have hdistinct : Distinct (fun b : Bookmark => ignoreCase P b.url) kept := by
    rw [hkept]
    exact List.pairwise_map.2 h.distinct
  have hlength : kept.length ≤ maximumBookmarks := by
    rw [hkept, List.length_map]
    exact h.length
  rw [keptBookmarks, filterMap_map_some (normalizeBookmark P now) Bookmark.raw, hfilter,
    hdistinct.firstOfEach_eq, List.take_of_length_le hlength, hkept, List.map_map]
  rfl

/-! ## Calls keep the shelf -/

theorem Shelf.drafts {bookmarks : List Bookmark} (h : Shelf P bookmarks) :
    ∀ b ∈ bookmarks, Draft P b := fun b hb => (h.shelved b hb).draft

theorem draft_of_read (hP : P.Assumed) {url : Option Str} {u : Url}
    (h : tryNormalizeWebUrl P url = some u) (title : Option Str) (now : Str) :
    Draft P ⟨normalizeTitle title u.host, u.text, now⟩ := by
  have hu := isWebUrl_of_read hP h
  exact ⟨⟨u, hu⟩, isTitle_normalizeTitle (printable_host hu.printable) hu.host⟩

/-- The bookmarks that a `Save` leaves in memory. -/
theorem shelf_saveState (hP : P.Assumed) {α : Type} {now : Str} {d : ProductData}
    {bookmarks : List Bookmark} {result : α} {o : Outcome α} (h : ∀ b ∈ bookmarks, Draft P b)
    (ho : saveState P now { d with bookmarks }.raw result = .ok o) :
    o.data.bookmarks = keptBookmarks P now (bookmarks.map fun b => some b.raw) ∧
      Shelf P o.data.bookmarks := by
  obtain ⟨saved, hsaved, rfl⟩ := saveState_eq_ok.1 ho
  obtain ⟨settings, -, rfl⟩ := normalizeData_raw_eq_ok.1 hsaved
  exact ⟨rfl, shelf_keptBookmarks hP h⟩

theorem shelf_addBookmark (hP : P.Assumed) {now : Str} {d : ProductData} {title url : Option Str}
    {o : Outcome Bool} (h : Shelf P d.bookmarks) (ho : addBookmark P now d title url = .ok o) :
    Shelf P o.data.bookmarks := by
  unfold addBookmark at ho
  cases hread : tryNormalizeWebUrl P url with
  | none =>
      rw [hread] at ho
      obtain rfl := Except.ok.inj ho
      exact h
  | some u =>
      rw [hread] at ho
      dsimp only at ho
      split at ho
      · refine (shelf_saveState hP (fun b hb => ?_) ho).2
        obtain ⟨a, ha, rfl | rfl⟩ := mem_modify hb
        · exact h.drafts _ ha
        · exact ⟨(h.drafts a ha).1, (draft_of_read hP hread title now).2⟩
      · refine (shelf_saveState hP (fun b hb => ?_) ho).2
        rcases List.mem_cons.1 (List.mem_of_mem_take hb) with rfl | hb
        · exact draft_of_read hP hread title now
        · exact h.drafts b hb

theorem shelf_removeBookmark (hP : P.Assumed) {now : Str} {d : ProductData} {url : Option Str}
    {o : Outcome Bool} (h : Shelf P d.bookmarks) (ho : removeBookmark P now d url = .ok o) :
    Shelf P o.data.bookmarks := by
  unfold removeBookmark at ho
  dsimp only at ho
  split at ho
  · exact (shelf_saveState hP (fun b hb => h.drafts b (List.mem_of_mem_filter hb)) ho).2
  · obtain rfl := Except.ok.inj ho
    exact h

section Import

variable {P : BookmarkPlatform}

/-- What a page adds are drafts. -/
theorem draft_collectBookmarks (hP : P.toStatePlatform.Assumed) (now : Str)
    (found : List (List (AnchorGroup × Str))) {bookmarks : List Bookmark} (added : Nat)
    (h : ∀ b ∈ bookmarks, Draft P.toStatePlatform b) :
    ∀ b ∈ (collectBookmarks P now bookmarks added found).1, Draft P.toStatePlatform b := by
  induction found generalizing bookmarks added with
  | nil => exact h
  | cons groups rest ih =>
      rw [collectBookmarks]
      split
      · exact h
      · dsimp only
        split
        · exact ih _ h
        · rename_i u hread
          split
          · exact ih _ h
          · refine ih _ fun b hb => ?_
            rcases List.mem_append.1 hb with hb | hb
            · exact h b hb
            · rw [List.mem_singleton.1 hb]
              exact draft_of_read hP hread _ now

/-- What `ImportBookmarksHtml` does with a file that it reads. -/
theorem importBookmarksHtml_eq_ok {now : Str} {d : ProductData} {file : Option ImportFile}
    {o : Outcome Nat} : importBookmarksHtml P now d file = .ok o ↔
      ∃ bytes, getRegularBoundedFile file maximumImportBytes = .ok bytes ∧
        ∃ bookmarks added, collectBookmarks P now d.bookmarks 0 (Backtrack.matchesOf (bookmarkAnchor P)
            (readAllText P.toVaultPlatform bytes)) = (bookmarks, added) ∧
          (if 0 < added then saveState P.toStatePlatform now { d with bookmarks }.raw added
            else .ok ⟨added, d, none⟩) = .ok o := by
  rw [importBookmarksHtml, bind_eq_ok]
  refine exists_congr fun bytes => and_congr_right fun _ => ?_
  constructor
  · exact fun h => ⟨_, _, rfl, h⟩
  · rintro ⟨bookmarks, added, hcollect, h⟩
    dsimp only
    rw [hcollect]
    exact h

theorem shelf_import (hP : P.toStatePlatform.Assumed) {now : Str} {d : ProductData}
    {file : Option ImportFile} {o : Outcome Nat} (h : Shelf P.toStatePlatform d.bookmarks)
    (ho : importBookmarksHtml P now d file = .ok o) : Shelf P.toStatePlatform o.data.bookmarks := by
  obtain ⟨bytes, -, bookmarks, added, hcollect, ho⟩ := importBookmarksHtml_eq_ok.1 ho
  have hdrafts := draft_collectBookmarks hP now
    (Backtrack.matchesOf (bookmarkAnchor P) (readAllText P.toVaultPlatform bytes)) 0 h.drafts
  rw [hcollect] at hdrafts
  split at ho
  · exact (shelf_saveState hP hdrafts ho).2
  · obtain rfl := Except.ok.inj ho
    exact h

theorem Edit.shelf (hP : P.toStatePlatform.Assumed) {d d' : ProductData} {e : Edit}
    (h : Shelf P.toStatePlatform d.bookmarks) (he : e.apply P d = .ok d') :
    Shelf P.toStatePlatform d'.bookmarks := by
  cases e with
  | addBookmark now title url =>
      obtain ⟨o, ho, rfl⟩ := map_eq_ok.1 he
      exact shelf_addBookmark hP h ho
  | removeBookmark now url =>
      obtain ⟨o, ho, rfl⟩ := map_eq_ok.1 he
      exact shelf_removeBookmark hP h ho
  | importBookmarks now file =>
      obtain ⟨o, ho, rfl⟩ := map_eq_ok.1 he
      exact shelf_import hP h ho

/-- The bookmarks after calls from the default data. -/
theorem shelf_edited (hP : P.toStatePlatform.Assumed) {edits : List Edit} :
    ∀ {d : ProductData}, edited P edits = .ok d → Shelf P.toStatePlatform d.bookmarks := by
  induction edits using List.reverseRecOn with
  | nil =>
      intro d hd
      obtain rfl := Except.ok.inj hd
      exact ⟨List.forall_mem_nil _, .nil, Nat.zero_le _⟩
  | append_singleton edits e ih =>
      intro d' hd'
      have hsplit : edited P (edits ++ [e]) = edited P edits >>= fun d => e.apply P d := by
        simp only [edited, List.foldlM_append, List.foldlM_cons, List.foldlM_nil, bind_pure]
      obtain ⟨d, hd, he⟩ := bind_eq_ok.1 (hsplit.symm.trans hd')
      exact e.shelf hP (ih hd) he

end Import

end ZsecShield.Browser
