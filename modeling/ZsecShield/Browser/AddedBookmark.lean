import ZsecShield.Browser.StateSession

/-!
# An added bookmark

`AddBookmark` checks the length of a URL as it is given, and then stores the canonical text of it,
which may be longer.  `Save` checks the length of what is stored, and drops the bookmark again if it is
beyond the bound, although the call returns that it was added (`addBookmark_kept_iff`).
-/

namespace ZsecShield.Browser

open Text (Str str CodePoint)
open Checks
open Recency

variable {P : StatePlatform}

/-- The first bookmark is kept, if it has a normal form. -/
theorem keptBookmarks_cons {now : Str} {item : RawBookmark} {b : Bookmark}
    (h : normalizeBookmark P now item = some b) (items : List (Option RawBookmark)) :
    ∃ rest, keptBookmarks P now (some item :: items) = b :: rest := by
  have hfirst := List.filterMap_cons_some (a := some item) (l := items)
    (f := fun item : Option RawBookmark => item.bind (normalizeBookmark P now)) h
  rw [keptBookmarks, hfirst, firstOfEach]
  exact ⟨_, rfl⟩

/-- A bookmark with a canonical URL within the bound, as it is in memory or in the file. -/
theorem normalize_web {url : Str} {u : Url} (hu : IsWebUrl P url u) (hlength : length16 url ≤ 4096)
    (now : Str) {item : RawBookmark} (hitem : item.url = some url) :
    ∃ b, normalizeBookmark P now item = some b ∧ b.url = url := by
  rw [normalizeBookmark, hitem, hu.normalize_eq hlength]
  exact ⟨_, rfl, hu.text⟩

/-- A bookmark that comes back from the file has a URL within the bound. -/
theorem length_of_loaded (hP : P.Assumed) {now later : Str} {items : List (Option RawBookmark)}
    {b : Bookmark}
    (h : b ∈ keptBookmarks P later ((keptBookmarks P now items).map fun b => some b.written.raw)) :
    length16 b.url ≤ 4096 := by
  have hmem := (firstOfEach_sublist _).subset (List.mem_of_mem_take h)
  obtain ⟨item, hitem, hb⟩ := List.mem_filterMap.1 hmem
  obtain ⟨stored, hstored, rfl⟩ := List.mem_map.1 hitem
  obtain ⟨raw, hraw⟩ := mem_keptBookmarks hstored
  obtain ⟨u, hu⟩ := isWeb_of_normalizeBookmark hP hraw
  obtain ⟨v, hv, rfl⟩ := Option.map_eq_some_iff.1 hb
  have hurl : stored.written.raw.url = some stored.url :=
    congrArg some (sanitize_of_printable hu.printable)
  rw [hurl] at hv
  have hlength := (tryNormalizeWebUrl_eq_some.1 hv).2.1
  rw [hu.unique hv, hu.text]
  exact hlength

/-- What `AddBookmark` does when it returns that a bookmark was added. -/
theorem addBookmark_eq_ok {now : Str} {d : ProductData} {title url : Option Str} {o : Outcome Bool}
    (h : addBookmark P now d title url = .ok o) (hresult : o.result = true) :
    ∃ u, tryNormalizeWebUrl P url = some u ∧ ∃ saved, normalizeData P now (some ({ d with
        bookmarks := (⟨normalizeTitle title u.host, u.text, now⟩ :: d.bookmarks).take
          maximumBookmarks } : ProductData).raw) = .ok saved ∧
      o = ⟨true, saved, some (writeState P saved)⟩ := by
  unfold addBookmark at h
  split at h
  · obtain rfl := Except.ok.inj h
    cases hresult
  · rename_i u hread
    dsimp only at h
    split at h
    · obtain ⟨saved, -, rfl⟩ := saveState_eq_ok.1 h
      cases hresult
    · exact ⟨u, hread, saveState_eq_ok.1 h⟩

/-- The URL of a bookmark that was added is there on return, and after a `Load`, exactly if its
canonical text is within the bound. -/
theorem addBookmark_kept_iff (hP : P.Assumed) (hS : P.Serializes) (hN : P.Settles) {now later : Str}
    {d : ProductData} {title url : Option Str} {o : Outcome Bool} {bytes : Bytes}
    (hadd : addBookmark P now d title url = .ok o) (hresult : o.result = true)
    (hwritten : o.written = some (.ok bytes)) :
    ∃ u, tryNormalizeWebUrl P url = some u ∧
      ((u.text ∈ o.data.bookmarks.map Bookmark.url ∧
          ∃ d', loadState P later (some bytes) = .ok d' ∧ u.text ∈ d'.bookmarks.map Bookmark.url) ↔
        length16 u.text ≤ 4096) := by
  obtain ⟨u, hread, saved, hsaved, rfl⟩ := addBookmark_eq_ok hadd hresult
  have hu := isWebUrl_of_read hP hread
  obtain ⟨settings, hload, -⟩ :=
    loadState_saved hP hS hN hsaved (Option.some.inj hwritten) later
  obtain ⟨_, -, hdata⟩ := normalizeData_raw_eq_ok.1 hsaved
  have hbookmarks := congrArg ProductData.bookmarks hdata
  refine ⟨u, hread, ?_⟩
  constructor
  · rintro ⟨-, d', hd', hmem⟩
    obtain rfl := Except.ok.inj (hload.symm.trans hd')
    obtain ⟨b, hb, hurl⟩ := List.mem_map.1 hmem
    dsimp only at hb
    rw [hbookmarks] at hb
    rw [← hurl]
    exact length_of_loaded hP hb
  · intro hlength
    have hpos : maximumBookmarks = 999 + 1 := rfl
    -- the new bookmark is the first one, in memory as in the file
    have hnew : (Bookmark.mk (normalizeTitle title u.host) u.text now).raw.url = some u.text := rfl
    obtain ⟨b, hb, hburl⟩ := normalize_web hu hlength now hnew
    obtain ⟨rest, hrest⟩ : ∃ rest, saved.bookmarks = b :: rest := by
      rw [hbookmarks]
      dsimp only
      rw [hpos, List.take_succ_cons, List.map_cons]
      exact keptBookmarks_cons hb _
    have hstored : b.written.raw.url = some u.text := by
      refine congrArg some ?_
      dsimp only [Bookmark.written]
      rw [hburl, sanitize_of_printable hu.printable]
    obtain ⟨b', hb', hburl'⟩ := normalize_web hu hlength later hstored
    obtain ⟨rest', hrest'⟩ := keptBookmarks_cons hb' (rest.map fun b => some b.written.raw)
    refine ⟨?_, _, hload, ?_⟩
    · dsimp only
      rw [hrest, List.map_cons, hburl]
      exact List.mem_cons_self
    · dsimp only
      rw [hrest, List.map_cons, hrest', List.map_cons, hburl']
      exact List.mem_cons_self

namespace Sample

/-- A URL of 1020 characters, whose canonical text has 6020. -/
def umlauts : Str := str "https://example.com/" ++ List.replicate 1000 0xFC

/-- The URLs of the bookmarks after `AddBookmark` of a URL to the default data, if it returned that the
bookmark was added. -/
def urlsAfter (url : Str) : Option (List Str) :=
  match addBookmark browser visitedAt (createDefault browser) (some (str "A page")) (some url) with
  | .ok ⟨true, d, some (.ok _)⟩ => some (d.bookmarks.map Bookmark.url)
  | _ => none

theorem added_of_urlsAfter {url : Str} {urls : List Str} (h : urlsAfter url = some urls) :
    ∃ o bytes, addBookmark browser visitedAt (createDefault browser) (some (str "A page"))
        (some url) = .ok o ∧ o.result = true ∧ o.written = some (.ok bytes) ∧
      o.data.bookmarks.map Bookmark.url = urls := by
  unfold urlsAfter at h
  split at h
  · rename_i d bytes hadd
    exact ⟨_, bytes, hadd, rfl, rfl, Option.some.inj h⟩
  · cases h

end Sample

theorem addBookmark_kept_iff_of_page : ∃ o bytes u,
    addBookmark Sample.browser Sample.visitedAt (createDefault Sample.browser) (some (str "A page"))
        (some (str "https://example.com/a")) = .ok o ∧
      o.result = true ∧ o.written = some (.ok bytes) ∧
      tryNormalizeWebUrl Sample.browser (some (str "https://example.com/a")) = some u ∧
      ((u.text ∈ o.data.bookmarks.map Bookmark.url ∧
          ∃ d', loadState Sample.browser Sample.visitedAt (some bytes) = .ok d' ∧
            u.text ∈ d'.bookmarks.map Bookmark.url) ↔
        length16 u.text ≤ 4096) := by
  have hurls : Sample.urlsAfter (str "https://example.com/a") =
      some [str "https://example.com/a"] := by
    decide +kernel
  obtain ⟨o, bytes, hadd, hresult, hwritten, -⟩ := Sample.added_of_urlsAfter hurls
  obtain ⟨u, hread, hkept⟩ := addBookmark_kept_iff Sample.assumed_browser Sample.serializes_browser
    Sample.settles_browser hadd hresult hwritten
  exact ⟨o, bytes, u, hadd, hresult, hwritten, hread, hkept⟩

/-- A bookmark is not kept although it was added. -/
theorem addBookmark_drops_umlauts : Sample.browser.Assumed ∧ Sample.browser.Serializes ∧
    Sample.browser.Settles ∧ ∃ o bytes u,
      addBookmark Sample.browser Sample.visitedAt (createDefault Sample.browser)
          (some (str "A page")) (some Sample.umlauts) = .ok o ∧
        o.result = true ∧ o.written = some (.ok bytes) ∧
        tryNormalizeWebUrl Sample.browser (some Sample.umlauts) = some u ∧
        u.text ∉ o.data.bookmarks.map Bookmark.url := by
  have hurls : Sample.urlsAfter Sample.umlauts = some [] := by decide +kernel
  obtain ⟨o, bytes, hadd, hresult, hwritten, hempty⟩ := Sample.added_of_urlsAfter hurls
  obtain ⟨u, hread, -⟩ := addBookmark_eq_ok hadd hresult
  refine ⟨Sample.assumed_browser, Sample.serializes_browser, Sample.settles_browser, o, bytes, u, hadd,
    hresult, hwritten, hread, ?_⟩
  rw [hempty]
  exact List.not_mem_nil

end ZsecShield.Browser
