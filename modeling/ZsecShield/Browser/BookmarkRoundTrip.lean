import ZsecShield.Browser.BookmarkEncoding
import ZsecShield.Browser.BookmarkReached
import ZsecShield.Browser.StateSession

/-!
# Bookmarks there and back

An exported page that is imported into an empty store gives the same titles and URLs in their order
exactly if no bookmark but the last has a URL that ends in `href=`, and the page is within
`MaximumImportBytes` (`export_import_iff`).  Otherwise the import throws, or it loses bookmarks.
-/

namespace ZsecShield.Browser

open Text (Str str CodePoint utf8Size)
open Checks
open Recency

/-- What the links rely on: `HtmlDecode` inverts the encodings, and a canonical URL has no `>`. -/
structure BookmarkPlatform.Decodes (P : BookmarkPlatform) : Prop where
  words : P.HasWords
  decodeText : ∀ s : Str, (∀ c ∈ s, IsUnit c) → P.htmlDecode (htmlEncode s) = s
  decodeAttribute : ∀ s : Str, P.htmlDecode (htmlAttributeEncode s) = s
  escaped : ∀ s u, P.tryCreate s = some u → greater ∉ u.text

variable {P : BookmarkPlatform}

/-- `ExportBookmarksHtml` and then `ImportBookmarksHtml` into an empty store, at a time. -/
def RoundTrips (P : BookmarkPlatform) (now : Str) (d : ProductData) : Prop :=
  ∃ bytes o, exportBookmarksHtml P.toStatePlatform true d = .ok bytes ∧
    importBookmarksHtml P now (createDefault P.toStatePlatform) (some ⟨false, bytes⟩) = .ok o ∧
      o.data.bookmarks.map Bookmark.link = d.bookmarks.map Bookmark.link

/-! ## The page -/

theorem exportLine_shelved {b : Bookmark} (h : Shelved P.toStatePlatform b) :
    exportLine P.toStatePlatform b = bookmarkLine (encodedLink b).1 (encodedLink b).2 := by
  obtain ⟨u, hu⟩ := h.draft.1
  rw [exportLine, hu.normalize_eq h.length]
  dsimp only
  rw [hu.text, h.title]
  rfl

theorem export_shelf {d : ProductData} (h : Shelf P.toStatePlatform d.bookmarks) :
    exportBookmarksHtml P.toStatePlatform true d = .ok (getBytes (bookmarksPage d.bookmarks)) := by
  have hlines : d.bookmarks.flatMap (exportLine P.toStatePlatform) =
      linkLines (d.bookmarks.map encodedLink) := by
    rw [linkLines, List.flatMap_map]
    exact List.flatMap_congr fun b hb => exportLine_shelved (h.shelved b hb)
  rw [exportBookmarksHtml, hlines]
  rfl

theorem isLink_shelved (hD : P.Decodes) {b : Bookmark} (h : Shelved P.toStatePlatform b) :
    IsLink (encodedLink b) := by
  obtain ⟨u, hu⟩ := h.draft.1
  have hmark : greater ∉ b.url := by
    rw [← hu.text]
    exact hD.escaped _ u hu.read
  exact ⟨isValue_encode hu.printable hmark, marks_encode b.title⟩

theorem encodable_value {s : Str} (h : IsValue s) : Text.Encodable s := by
  intro c hc hs
  obtain ⟨hlow, -⟩ := hs
  have hpoint := (h c hc).1
  omega

theorem encodable_htmlPoint {c : CodePoint} (hc : IsUnit c) : Text.Encodable (htmlPoint c) := by
  unfold htmlPoint
  split
  · exact Text.encodable_str _
  · split
    · rw [Text.encodable_append, Text.encodable_append]
      exact ⟨⟨Text.encodable_str _, (Json.ascii_digits _).encodable⟩, Text.encodable_str _⟩
    · rw [replacePoint_of_not hc.2]
      unfold attributePoint
      split_ifs
      · exact Text.encodable_str _
      · exact Text.encodable_str _
      · exact Text.encodable_str _
      · exact Text.encodable_str _
      · exact (Text.encodable_cons c []).2 ⟨hc.2, Text.encodable_nil⟩

theorem encodable_newLine : Text.Encodable newLine := sanitize_eq_iff.1 rfl

theorem encodable_htmlEncode {title : Str} (h : ∀ c ∈ title, IsUnit c) :
    Text.Encodable (htmlEncode title) := by
  intro d hd
  obtain ⟨c, hc, hd⟩ := List.mem_flatMap.1 hd
  exact encodable_htmlPoint (h c hc) d hd

theorem encodable_page (hD : P.Decodes) {bookmarks : List Bookmark}
    (h : ∀ b ∈ bookmarks, Shelved P.toStatePlatform b)
    (htitles : ∀ b ∈ bookmarks, ∀ c ∈ b.title, IsUnit c) :
    Text.Encodable (bookmarksPage bookmarks) := by
  have hlines : Text.Encodable (linkLines (bookmarks.map encodedLink)) := by
    intro c hc
    obtain ⟨link, hlink, hc⟩ := List.mem_flatMap.1 hc
    obtain ⟨b, hb, rfl⟩ := List.mem_map.1 hlink
    have hline : Text.Encodable (bookmarkLine (encodedLink b).1 (encodedLink b).2) := by
      simp only [bookmarkLine, Text.encodable_append]
      exact ⟨Text.encodable_str _, encodable_value (isLink_shelved hD (h b hb)).1, Text.encodable_str _,
        encodable_htmlEncode (htitles b hb), Text.encodable_str _, encodable_newLine⟩
    exact hline c hc
  simp only [bookmarksPage, exportHead, exportFoot, Text.encodable_append, Text.encodable_str,
    encodable_newLine, hlines, and_self]

/-- The page is read as it was written. -/
theorem read_page (hD : P.Decodes) {bookmarks : List Bookmark}
    (h : ∀ b ∈ bookmarks, Shelved P.toStatePlatform b)
    (htitles : ∀ b ∈ bookmarks, ∀ c ∈ b.title, IsUnit c) :
    readAllText P.toVaultPlatform (getBytes (bookmarksPage bookmarks)) = bookmarksPage bookmarks := by
  obtain ⟨tail, htail⟩ : ∃ tail, bookmarksPage bookmarks = less :: tail := ⟨_, rfl⟩
  rw [readAllText, getString_getBytes, sanitize_eq_iff.2 (encodable_page hD h htitles), htail]
  exact if_neg (by decide)

/-! ## The import -/

theorem removed_htmlTag {s : Str} (h : ∀ c ∈ s, c ≠ less) : Backtrack.removed htmlTag s = s := by
  have hnone : ∀ last c t, c :: t <:+ s →
      Backtrack.matchAt htmlTag last (c :: t ++ []) = none := by
    intro last c t ht
    rw [Backtrack.matchAt, htmlTag, Backtrack.run_seq]
    refine Backtrack.run_one_none fun d hd => decide_eq_false ?_
    obtain rfl : c = d := Option.some.inj hd
    exact h c (ht.subset List.mem_cons_self)
  have hempty (last : Option CodePoint) : Backtrack.pieces htmlTag 0 last [] = [] := rfl
  have hpieces : Backtrack.pieces htmlTag 0 none (s ++ []) =
      s.map .inl ++ Backtrack.pieces htmlTag 0 (Backtrack.after none s) [] :=
    Backtrack.pieces_none hnone
  rw [List.append_nil, hempty, List.append_nil] at hpieces
  rw [Backtrack.removed, hpieces, List.filterMap_map]
  exact List.filterMap_some

/-- The bookmark that a link is imported as. -/
def imported (now : Str) (b : Bookmark) : Bookmark := ⟨b.title, b.url, now⟩

/-- The links of bookmarks are imported one after the other. -/
theorem collect_links (hD : P.Decodes) {now : Str} {rest : List Bookmark} :
    ∀ {done : List Bookmark} {added : Nat}, (∀ b ∈ rest, Shelved P.toStatePlatform b) →
      (∀ b ∈ rest, ∀ c ∈ b.title, IsUnit c) →
      Distinct (fun b : Bookmark => ignoreCase P.toStatePlatform b.url) (done ++ rest) →
      (done ++ rest).length ≤ maximumBookmarks →
      collectBookmarks P now done added (rest.map fun b => linkGroups (encodedLink b)) =
        (done ++ rest.map (imported now), added + rest.length) := by
  induction rest with
  | nil =>
      intro done added _ _ _ _
      rw [List.map_nil, List.map_nil, List.append_nil]
      rfl
  | cons b rest ih =>
      intro done added hshelved htitles hdistinct hlength
      obtain ⟨hb, hrest⟩ := List.forall_mem_cons.1 hshelved
      obtain ⟨htitle, htitles⟩ := List.forall_mem_cons.1 htitles
      obtain ⟨u, hu⟩ := hb.draft.1
      have hroom : ¬ maximumBookmarks ≤ done.length := by
        rw [List.length_append, List.length_cons] at hlength
        omega
      have hread : tryNormalizeWebUrl P.toStatePlatform (some b.url) = some u :=
        hu.normalize_eq hb.length
      have hfresh : ¬ (done.any fun item => decide (ignoreCase P.toStatePlatform item.url =
          ignoreCase P.toStatePlatform u.text)) = true := by
        rw [List.any_eq_true]
        rintro ⟨item, hitem, hsame⟩
        have hne := (List.pairwise_append.1 hdistinct).2.2 item hitem b List.mem_cons_self
        rw [hu.text] at hsame
        exact hne (of_decide_eq_true hsame)
      have hplain : Backtrack.removed htmlTag (htmlEncode b.title) = htmlEncode b.title :=
        removed_htmlTag fun c hc => (marks_encode b.title c hc).1
      have hdouble : (linkGroups (encodedLink b)).lookup .double = some (htmlAttributeEncode b.url) := rfl
      have htext : (linkGroups (encodedLink b)).lookup .title = some (htmlEncode b.title) := rfl
      rw [List.map_cons, collectBookmarks, if_neg hroom]
      dsimp only
      rw [hdouble, Option.getD_some, hD.decodeAttribute, hread]
      dsimp only
      rw [if_neg hfresh, htext, Option.getD_some, hplain, hD.decodeText _ htitle, hb.title, hu.text]
      have hkeys : Distinct (fun b : Bookmark => ignoreCase P.toStatePlatform b.url)
          (done ++ [imported now b] ++ rest) := by
        rw [Distinct, ← List.pairwise_map] at hdistinct ⊢
        rw [List.append_assoc, List.singleton_append]
        simpa only [List.map_append, List.map_cons, imported] using hdistinct
      have hcount : (done ++ [imported now b] ++ rest).length ≤ maximumBookmarks := by
        rwa [List.append_assoc, List.singleton_append, List.length_append, List.length_cons,
          ← List.length_cons, ← List.length_append]
      refine (ih hrest htitles hkeys hcount).trans ?_
      rw [List.map_cons, List.append_assoc, List.singleton_append, List.length_cons, Nat.add_assoc,
        Nat.add_comm 1]

/-- Every link adds one bookmark at most. -/
theorem length_collect_le (P : BookmarkPlatform) (now : Str) (found : List (List (AnchorGroup × Str))) :
    ∀ (done : List Bookmark) (added : Nat),
      (collectBookmarks P now done added found).1.length ≤ done.length + found.length := by
  induction found with
  | nil => exact fun _ _ => Nat.le_refl _
  | cons groups rest ih =>
      intro done added
      have hmore : done.length + rest.length ≤ done.length + (groups :: rest).length := by
        rw [List.length_cons]
        omega
      rw [collectBookmarks]
      split
      · exact Nat.le_add_right _ _
      · dsimp only
        split
        · exact (ih _ _).trans hmore
        · split
          · exact (ih _ _).trans hmore
          · refine (ih _ _).trans ?_
            simp only [List.length_append, List.length_cons, List.length_nil]
            omega

theorem length_keptBookmarks_le {P : StatePlatform} {now : Str} (bookmarks : List Bookmark) :
    (keptBookmarks P now (bookmarks.map fun b => some b.raw)).length ≤ bookmarks.length := by
  rw [keptBookmarks, filterMap_map_some (normalizeBookmark P now) Bookmark.raw]
  exact (List.length_take_le' _ _).trans ((firstOfEach_sublist _).length_le.trans
    (List.length_filterMap_le _ _))

/-- The default data are normalized where the folder of the downloads is a path. -/
theorem normalizeData_default {P : StatePlatform} {p : Str} (hp : P.fullPath P.downloads = some p)
    (now : Str) (bookmarks : List Bookmark) : ∃ d,
      normalizeData P now (some { createDefault P with bookmarks }.raw) = .ok d := by
  have hdownloads : normalizeDownloads P (some P.downloads) = .ok p := by
    rw [normalizeDownloads, Option.getD_some, ite_self, hp]
    rfl
  exact ⟨_, normalizeData_raw_eq_ok.2 ⟨_, normalizeSettings_eq_ok.2 ⟨p, [], hdownloads, rfl, rfl⟩, rfl⟩⟩

/-- A file is read if it is within the bound. -/
theorem getRegularBoundedFile_eq_ok {bytes bytes' : Bytes} {maximum : Nat} :
    getRegularBoundedFile (some ⟨false, bytes⟩) maximum = .ok bytes' ↔
      (0 < bytes.length ∧ bytes.length ≤ maximum) ∧ bytes' = bytes := by
  constructor
  · intro h
    obtain ⟨file, hfile, h⟩ := bind_eq_ok.1 h
    obtain rfl := Option.some.inj (fromOption_eq_ok.1 hfile)
    obtain ⟨_, -, h⟩ := bind_eq_ok.1 h
    obtain ⟨_, hbound, h⟩ := bind_eq_ok.1 h
    exact ⟨require_eq_ok.1 hbound, (Except.ok.inj h).symm⟩
  · rintro ⟨hbound, rfl⟩
    exact bind_eq_ok.2 ⟨_, rfl, bind_eq_ok.2 ⟨(), rfl, bind_eq_ok.2 ⟨(), require_eq_ok.2 hbound, rfl⟩⟩⟩

/-! ## There and back -/

section Shelf

variable (hD : P.Decodes) {d : ProductData} (h : Shelf P.toStatePlatform d.bookmarks)
  (htitles : ∀ b ∈ d.bookmarks, ∀ c ∈ b.title, IsUnit c)
include hD h htitles

theorem length_page : (getBytes (bookmarksPage d.bookmarks)).length = exportedSize d.bookmarks := by
  rw [length_getBytes_of_encodable (encodable_page hD h.shelved htitles), size_bookmarksPage htitles]

/-- What the import finds in the page. -/
theorem found_page : Backtrack.matchesOf (bookmarkAnchor P)
    (readAllText P.toVaultPlatform (getBytes (bookmarksPage d.bookmarks))) =
      scanned P (d.bookmarks.map encodedLink) := by
  rw [read_page hD h.shelved htitles]
  exact matchesOf_page hD.words
    (List.forall_mem_map.2 fun b hb => isLink_shelved hD (h.shelved b hb))

/-- A page that comes back has been read, and no link in it was lost. -/
theorem RoundTrips.closed {now : Str} (ho : RoundTrips P now d) :
    (∀ link ∈ (d.bookmarks.map encodedLink).dropLast, endsOpen P link.1 = false) ∧
      exportedSize d.bookmarks ≤ maximumImportBytes := by
  obtain ⟨bytes, o, hexport, himport, hsame⟩ := ho
  obtain rfl := Except.ok.inj ((export_shelf h).symm.trans hexport)
  obtain ⟨bytes, hbytes, bookmarks, added, hcollect, ho⟩ := importBookmarksHtml_eq_ok.1 himport
  rw [getRegularBoundedFile_eq_ok, length_page hD h htitles] at hbytes
  obtain ⟨hbound, heq⟩ := hbytes
  refine ⟨fun link hlink => ?_, hbound.2⟩
  by_contra hopen
  rw [Bool.not_eq_false] at hopen
  -- fewer links are found than there are bookmarks
  have hfew := length_scanned_lt ⟨link, hlink, hopen⟩
  have hadded : bookmarks.length ≤ (scanned P (d.bookmarks.map encodedLink)).length := by
    have hle := length_collect_le P now (scanned P (d.bookmarks.map encodedLink)) [] 0
    rw [heq, found_page hD h htitles] at hcollect
    have hfirst : collectBookmarks P now [] 0 (scanned P (d.bookmarks.map encodedLink)) =
        (bookmarks, added) := hcollect
    rwa [hfirst, List.length_nil, Nat.zero_add] at hle
  have hkept : o.data.bookmarks.length ≤ bookmarks.length := by
    split at ho
    · obtain ⟨saved, hsaved, rfl⟩ := saveState_eq_ok.1 ho
      obtain ⟨settings, -, rfl⟩ := normalizeData_raw_eq_ok.1 hsaved
      exact length_keptBookmarks_le bookmarks
    · obtain rfl := Except.ok.inj ho
      exact Nat.zero_le _
  have hlength := congrArg List.length hsame
  rw [List.length_map, List.length_map] at hlength
  rw [List.length_map] at hfew
  omega

/-- A page in which no link is lost comes back. -/
theorem roundTrips_of_closed {p : Str} (hp : P.fullPath P.downloads = some p) (now : Str)
    (hclosed : ∀ link ∈ (d.bookmarks.map encodedLink).dropLast, endsOpen P link.1 = false)
    (hbound : exportedSize d.bookmarks ≤ maximumImportBytes) : RoundTrips P now d := by
  have hcollect : collectBookmarks P now [] 0 (scanned P (d.bookmarks.map encodedLink)) =
      ([] ++ d.bookmarks.map (imported now), 0 + d.bookmarks.length) := by
    rw [scanned_of_closed hclosed, List.map_map]
    exact collect_links hD h.shelved htitles h.distinct h.length
  rw [List.nil_append, Nat.zero_add] at hcollect
  have hread : getRegularBoundedFile (some ⟨false, getBytes (bookmarksPage d.bookmarks)⟩)
      maximumImportBytes = .ok (getBytes (bookmarksPage d.bookmarks)) := by
    rw [getRegularBoundedFile_eq_ok, length_page hD h htitles]
    refine ⟨⟨?_, hbound⟩, rfl⟩
    rw [exportedSize]
    omega
  have himport : ∀ o, (if 0 < d.bookmarks.length then saveState P.toStatePlatform now
      { createDefault P.toStatePlatform with bookmarks := d.bookmarks.map (imported now) }.raw
        d.bookmarks.length
      else .ok ⟨d.bookmarks.length, createDefault P.toStatePlatform, none⟩) = .ok o →
      importBookmarksHtml P now (createDefault P.toStatePlatform)
        (some ⟨false, getBytes (bookmarksPage d.bookmarks)⟩) = .ok o := by
    intro o ho
    refine importBookmarksHtml_eq_ok.2 ⟨_, hread, _, _, ?_, ho⟩
    rw [found_page hD h htitles]
    exact hcollect
  have hshelf : Shelf P.toStatePlatform (d.bookmarks.map (imported now)) := by
    refine ⟨List.forall_mem_map.2 fun b hb => ?_, List.pairwise_map.2 h.distinct, ?_⟩
    · obtain ⟨hdraft, hlength, htitle⟩ := h.shelved b hb
      exact ⟨hdraft, hlength, htitle⟩
    · rw [List.length_map]
      exact h.length
  have hsame : (d.bookmarks.map (imported now)).map Bookmark.link = d.bookmarks.map Bookmark.link := by
    rw [List.map_map]
    rfl
  by_cases hsome : 0 < d.bookmarks.length
  · obtain ⟨saved, hsaved⟩ := normalizeData_default hp now (d.bookmarks.map (imported now))
    refine ⟨_, _, export_shelf h, himport _ ((if_pos hsome).trans
      (saveState_eq_ok.2 ⟨saved, hsaved, rfl⟩)), ?_⟩
    obtain ⟨settings, -, rfl⟩ := normalizeData_raw_eq_ok.1 hsaved
    exact (hshelf.kept now).trans hsame
  · refine ⟨_, _, export_shelf h, himport _ (if_neg hsome), ?_⟩
    rw [List.length_eq_zero_iff.1 (Nat.eq_zero_of_not_pos hsome)]
    rfl

end Shelf

/-- The bookmarks after any calls that start from the default data come back with their titles and
URLs, in their order, exactly if no URL but the last one ends in `href=` and the page is within the
bound of the import. -/
theorem export_import_iff (hP : P.toStatePlatform.Assumed) (hD : P.Decodes) {p : Str}
    (hp : P.fullPath P.downloads = some p) {edits : List Edit} {d : ProductData}
    (hrun : edited P edits = .ok d) (htitles : ∀ b ∈ d.bookmarks, ∀ c ∈ b.title, IsUnit c)
    (now : Str) :
    RoundTrips P now d ↔ (∀ b ∈ d.bookmarks.dropLast, endsOpen P b.url = false) ∧
      exportedSize d.bookmarks ≤ 8 * 1024 * 1024 := by
  have h := shelf_edited hP hrun
  have hclosed : (∀ b ∈ d.bookmarks.dropLast, endsOpen P b.url = false) ↔
      ∀ link ∈ (d.bookmarks.map encodedLink).dropLast, endsOpen P link.1 = false := by
    rw [← List.map_dropLast, List.forall_mem_map]
    exact forall₂_congr fun b _ => by rw [encodedLink, endsOpen_encode hD.words]
  rw [hclosed]
  constructor
  · exact fun ho => ho.closed hD h htitles
  · rintro ⟨hnone, hbound⟩
    exact roundTrips_of_closed hD h htitles hp now hnone hbound

/-! ## A platform -/

namespace Sample

/-- A letter, a digit or the underscore. -/
def isWordPoint (c : CodePoint) : Bool :=
  decide (0x30 ≤ c.val ∧ c.val ≤ 0x39 ∨ 0x41 ≤ c.val ∧ c.val ≤ 0x5A ∨ 0x61 ≤ c.val ∧ c.val ≤ 0x7A ∨
    c.val = 0x5F)

/-- The character of an entity. -/
def entityOf (name : Str) : Option CodePoint :=
  match name with
  | [] => none
  | c :: rest =>
      if c = Text.ofChar '#' then some (Fin.ofNat _ (Text.ofDigits rest))
      else [(str "quot", quotation), (str "amp", ampersand), (str "lt", less),
        (str "gt", greater)].lookup name

def decodeEntities : Nat → Str → Str
  | 0, s => s
  | _ + 1, [] => []
  | n + 1, c :: s =>
      let name := s.takeWhile fun d => !decide (d = semicolon)
      match if c = ampersand then entityOf name else none with
      | some d => d :: decodeEntities n (s.drop (name.length + 1))
      | none => c :: decodeEntities n s

def links : BookmarkPlatform :=
  { browser with
    isWord := isWordPoint
    htmlDecode := fun s => decodeEntities s.length s }

theorem decode_entity {n : Nat} {name rest : Str} {d : CodePoint} (hname : semicolon ∉ name)
    (hd : entityOf name = some d) :
    decodeEntities (n + 1) (ampersand :: (name ++ semicolon :: rest)) = d :: decodeEntities n rest := by
  have htake : (name ++ semicolon :: rest).takeWhile (fun c => !decide (c = semicolon)) = name := by
    rw [List.takeWhile_append_of_pos, List.takeWhile_cons_of_neg, List.append_nil]
    · simp
    · exact fun c hc => by simpa using fun heq : c = semicolon => hname (heq ▸ hc)
  have hdrop : (name ++ semicolon :: rest).drop (name.length + 1) = rest := by
    rw [← List.drop_drop, List.drop_left]
    rfl
  rw [decodeEntities, htake, if_pos rfl, hd, hdrop]

theorem decode_point {n : Nat} {c : CodePoint} {rest : Str} (hc : c ≠ ampersand) :
    decodeEntities (n + 1) (c :: rest) = c :: decodeEntities n rest := by
  rw [decodeEntities, if_neg hc]

/-- Encoded characters are decoded one after the other. -/
theorem decode_flatMap {f : CodePoint → Str} {s : Str}
    (h : ∀ c ∈ s, f c ≠ [] ∧ ∀ n rest, decodeEntities (n + 1) (f c ++ rest) =
      c :: decodeEntities n rest) :
    ∀ n, (s.flatMap f).length ≤ n → decodeEntities n (s.flatMap f) = s := by
  induction s with
  | nil =>
      intro n _
      cases n <;> rfl
  | cons c s ih =>
      intro n hn
      obtain ⟨⟨hne, hc⟩, hs⟩ := List.forall_mem_cons.1 h
      rw [List.flatMap_cons, List.length_append] at hn
      have hpos := List.length_pos_of_ne_nil hne
      obtain ⟨n, rfl⟩ := Nat.exists_eq_succ_of_ne_zero (show n ≠ 0 by omega)
      rw [List.flatMap_cons, hc, ih hs n (by omega)]

theorem decode_attributePoint (c : CodePoint) : attributePoint c ≠ [] ∧ ∀ n rest,
    decodeEntities (n + 1) (attributePoint c ++ rest) = c :: decodeEntities n rest := by
  have hentity {name : String} {d : CodePoint} (hname : semicolon ∉ str name)
      (hd : entityOf (str name) = some d) : ∀ n rest,
        decodeEntities (n + 1) (ampersand :: (str name ++ semicolon :: rest)) =
          d :: decodeEntities n rest := fun n rest => decode_entity hname hd
  unfold attributePoint
  split
  · rename_i hc
    exact ⟨List.cons_ne_nil _ _, hc ▸ hentity (by decide : semicolon ∉ str "quot") (by decide)⟩
  · split
    · rename_i hc
      exact ⟨List.cons_ne_nil _ _, hc ▸ hentity (by decide : semicolon ∉ str "amp") (by decide)⟩
    · rename_i hampersand
      split
      · rename_i hc
        exact ⟨List.cons_ne_nil _ _, hc ▸ hentity (by decide : semicolon ∉ str "lt") (by decide)⟩
      · split
        · rename_i hc
          exact ⟨List.cons_ne_nil _ _, hc ▸ hentity (by decide : semicolon ∉ str "#39") (by decide)⟩
        · exact ⟨List.cons_ne_nil _ _, fun n rest => decode_point hampersand⟩

theorem decode_htmlPoint {c : CodePoint} (hc : IsUnit c) : htmlPoint c ≠ [] ∧ ∀ n rest,
    decodeEntities (n + 1) (htmlPoint c ++ rest) = c :: decodeEntities n rest := by
  unfold htmlPoint
  split
  · rename_i hgreater
    rw [hgreater]
    exact ⟨List.cons_ne_nil _ _, fun n rest =>
      decode_entity (by decide : semicolon ∉ str "gt") (by decide)⟩
  · split
    · have hname : semicolon ∉ Text.ofChar '#' :: Text.digits c.val := by
        rw [List.mem_cons, not_or]
        refine ⟨by decide, fun hmem => ?_⟩
        exact absurd (Text.isDigit_of_mem_digits hmem) (by decide)
      have hentity : entityOf (Text.ofChar '#' :: Text.digits c.val) = some c := by
        rw [entityOf, if_pos rfl, Text.ofDigits_digits]
        exact congrArg some (Fin.ofNat_val_eq_self c)
      have htext (rest : Str) : str "&#" ++ Text.digits c.val ++ str ";" ++ rest =
          ampersand :: ((Text.ofChar '#' :: Text.digits c.val) ++ semicolon :: rest) := by
        rw [List.append_assoc, List.append_assoc]
        rfl
      refine ⟨List.cons_ne_nil _ _, fun n rest => ?_⟩
      rw [htext]
      exact decode_entity hname hentity
    · rw [replacePoint_of_not hc.2]
      exact decode_attributePoint c

theorem assumed_links : links.toStatePlatform.Assumed := assumed_browser

theorem decodes_links : links.Decodes where
  words _ _ := rfl
  decodeText s hs := decode_flatMap (fun c hc => decode_htmlPoint (hs c hc)) _ le_rfl
  decodeAttribute s := decode_flatMap (fun c _ => decode_attributePoint c) _ le_rfl
  escaped s u h := by
    obtain ⟨host, path, rfl, -, hhost, hpath⟩ := (isUrl_of_read h).eq
    have hscheme : greater ∉ str "https://" := by decide
    rw [text_urlAt, List.mem_append, List.mem_append, List.mem_cons]
    rintro (hmem | hmem | hmem | hmem)
    · exact hscheme hmem
    · exact absurd (hhost _ hmem) (by decide)
    · exact absurd hmem (by decide)
    · exact absurd (hpath _ hmem) (by decide)

/-! ## Two bookmarks -/

def openUrl : Str := str "https://example.com/?href="

def plainUrl : Str := str "https://example.com/b"

/-- Two bookmarks are added, the latest one in front. -/
def twoEdits (url : Str) : List Edit :=
  [.addBookmark visitedAt none (some plainUrl), .addBookmark visitedAt none (some url)]

def twoBookmarks (url : Str) : List Bookmark :=
  [⟨str "example.com", url, visitedAt⟩, ⟨str "example.com", plainUrl, visitedAt⟩]

/-- The bookmarks are there after the calls. -/
def addsTwo (url : Str) : Bool :=
  match edited links (twoEdits url) with
  | .ok d => decide (d.bookmarks = twoBookmarks url)
  | .error _ => false

theorem edited_two {url : Str} (h : addsTwo url = true) : ∃ d,
    edited links (twoEdits url) = .ok d ∧ d.bookmarks = twoBookmarks url := by
  unfold addsTwo at h
  split at h
  · rename_i d hd
    exact ⟨d, hd, of_decide_eq_true h⟩
  · cases h

theorem units_two (url : Str) : ∀ b ∈ twoBookmarks url, ∀ c ∈ b.title, IsUnit c := by
  have hhost : (str "example.com").all (fun c => decide (c.val < 0x80)) = true := by decide
  intro b hb c hc
  have hascii : c.val < 0x80 := by
    rw [twoBookmarks, List.mem_cons, List.mem_singleton] at hb
    rcases hb with rfl | rfl <;> exact of_decide_eq_true (List.all_eq_true.1 hhost c hc)
  refine ⟨by omega, fun hs => ?_⟩
  obtain ⟨hlow, -⟩ := hs
  omega

theorem export_import_iff_of_two : ∃ d,
    edited links (twoEdits (str "https://example.com/c")) = .ok d ∧
      (RoundTrips links visitedAt d ↔ (∀ b ∈ d.bookmarks.dropLast, endsOpen links b.url = false) ∧
        exportedSize d.bookmarks ≤ 8 * 1024 * 1024) := by
  obtain ⟨d, hd, hbookmarks⟩ := edited_two (by decide +kernel : addsTwo (str "https://example.com/c") = true)
  refine ⟨d, hd, ?_⟩
  exact export_import_iff assumed_links decodes_links (p := links.downloads) (by decide) hd
    (hbookmarks ▸ units_two _) visitedAt

/-- The first of two bookmarks ends in `href=`: they do not come back. -/
theorem export_import_loses_open : ∃ d, edited links (twoEdits openUrl) = .ok d ∧
    (∀ b ∈ d.bookmarks, ∀ c ∈ b.title, IsUnit c) ∧ ¬ RoundTrips links visitedAt d := by
  obtain ⟨d, hd, hbookmarks⟩ := edited_two (by decide +kernel : addsTwo openUrl = true)
  have htitles : ∀ b ∈ d.bookmarks, ∀ c ∈ b.title, IsUnit c := hbookmarks ▸ units_two openUrl
  refine ⟨d, hd, htitles, fun ho => ?_⟩
  obtain ⟨hclosed, -⟩ := ho.closed decodes_links (shelf_edited assumed_links hd) htitles
  rw [hbookmarks] at hclosed
  have hopen : endsOpen links (htmlAttributeEncode openUrl) = true := by decide +kernel
  have hnot := hclosed (encodedLink ⟨str "example.com", openUrl, visitedAt⟩) List.mem_cons_self
  rw [encodedLink, hopen] at hnot
  cases hnot

end Sample

end ZsecShield.Browser
