import ZsecShield.Browser.StoredSettings

/-!
# The state in its file

What `Save` writes is the text of the data with unpaired surrogates replaced, and `Load` normalizes what
it reads of it.  An entry comes back as it is exactly if its URL is within the bound and its title has
no unpaired surrogate and does not end in white space (`Stored.normalize_iff`).
-/

namespace ZsecShield.Browser

open Text (Str str CodePoint)
open Checks
open Recency

def Bookmark.written (b : Bookmark) : Bookmark :=
  ⟨sanitize b.title, sanitize b.url, sanitize b.createdAtUtc⟩

def HistoryEntry.written (e : HistoryEntry) : HistoryEntry :=
  ⟨sanitize e.title, sanitize e.url, sanitize e.visitedAtUtc, e.typedCount⟩

/-- The data as their file has them. -/
def ProductData.written (d : ProductData) : ProductData :=
  ⟨d.schemaVersion, d.bookmarks.map Bookmark.written, d.history.map HistoryEntry.written,
    d.settings.written⟩

/-- A number of the code's `int`. -/
def IsInt (n : Int) : Prop := -2 ^ 31 ≤ n ∧ n < 2 ^ 31

instance (n : Int) : Decidable (IsInt n) := inferInstanceAs (Decidable (_ ∧ _))

/-- The numbers of the data are of the code's `int`. -/
def ProductData.HasInts (d : ProductData) : Prop :=
  IsInt d.schemaVersion ∧ ∀ e ∈ d.history, IsInt e.typedCount

instance (d : ProductData) : Decidable d.HasInts := inferInstanceAs (Decidable (_ ∧ _))

/-- The serializer reads what it wrote, and an object starts with a brace. -/
structure StatePlatform.Serializes (P : StatePlatform) : Prop where
  reads : ∀ d s, P.serializeState d = some s → (getBytes (s ++ newLine)).length ≤ maximumStateBytes →
    P.deserializeState (sanitize s ++ newLine) = some (some d.written.raw)
  object : ∀ d s, P.serializeState d = some s → s.head? = some (Text.ofChar '{')

variable {P : StatePlatform}

/-! ## The file -/

theorem writeState_eq_ok {d : ProductData} {bytes : Bytes} :
    writeState P d = .ok bytes ↔ ∃ s, P.serializeState d = some s ∧
      (getBytes (s ++ newLine)).length ≤ maximumStateBytes ∧ bytes = getBytes (s ++ newLine) := by
  constructor
  · intro h
    obtain ⟨s, hs, h⟩ := bind_eq_ok.1 h
    obtain ⟨_, hbound, h⟩ := bind_eq_ok.1 h
    exact ⟨s, fromOption_eq_ok.1 hs, require_eq_ok.1 hbound, (Except.ok.inj h).symm⟩
  · rintro ⟨s, hs, hbound, rfl⟩
    exact bind_eq_ok.2 ⟨s, fromOption_eq_ok.2 hs,
      bind_eq_ok.2 ⟨(), require_eq_ok.2 hbound, rfl⟩⟩

/-- `Load` of what was written. -/
theorem loadState_written (hS : P.Serializes) {d : ProductData} {bytes : Bytes}
    (h : writeState P d = .ok bytes) (later : Str) :
    loadState P later (some bytes) = normalizeData P later (some d.written.raw) := by
  obtain ⟨s, hs, hbound, rfl⟩ := writeState_eq_ok.1 h
  have hmap : sanitize (s ++ newLine) = sanitize s ++ newLine := sanitize_append s newLine
  obtain ⟨rest, rfl⟩ : ∃ rest, s = Text.ofChar '{' :: rest :=
    List.head?_eq_some_iff.1 (hS.object d s hs)
  have hread : readAllText P.toVaultPlatform (getBytes (Text.ofChar '{' :: rest ++ newLine)) =
      sanitize (Text.ofChar '{' :: rest) ++ newLine := by
    rw [readAllText, getString_getBytes, hmap]
    exact if_neg (by decide)
  have hpos : 0 < (getBytes (Text.ofChar '{' :: rest ++ newLine)).length := by
    rw [length_getBytes_sanitize, List.cons_append]
    exact Nat.lt_of_lt_of_le (by decide : 0 < Text.pointSize (replacePoint (Text.ofChar '{')))
      (Nat.le_add_right _ _)
  rw [loadState, require_pos ⟨hpos, hbound⟩, bind_ok, hread, hS.reads d _ hs hbound]
  rfl

/-! ## Entries -/

/-- What is stored of an entry: a canonical URL, a normal title and a time. -/
structure Stored.Entry (P : StatePlatform) (title url time : Str) : Prop where
  web : ∃ u, IsWebUrl P url u
  title : IsTitle title
  time : Text.Encodable time ∧ P.timestamp (some time) = some time

/-- The entry comes back from the file as it is. -/
def Stored.Returns (title url : Str) : Prop :=
  length16 url ≤ 4096 ∧ Text.Encodable title ∧ ∀ c ∈ title.getLast?, isWhiteSpace c = false

theorem printable_host {u : Url} (h : Printable u.text) : Printable u.host := by
  intro c hc
  cases ha : u.authority with
  | none =>
      rw [Url.host, ha] at hc
      cases hc
  | some a =>
      rw [Url.host, ha] at hc
      refine h c (List.mem_append_right _ (List.mem_cons_of_mem _ ?_))
      rw [ha]
      refine List.mem_cons_of_mem _ (List.mem_cons_of_mem _ (List.mem_append_left _ ?_))
      exact List.mem_append_left _ (List.mem_append_right _ hc)

theorem normalizeTimestamp_time (hN : P.Settles) {now : Str} (hnow : P.timestamp (some now) = some now)
    (value : Option Str) : Text.Encodable (normalizeTimestamp P now value) ∧
      P.timestamp (some (normalizeTimestamp P now value)) =
        some (normalizeTimestamp P now value) := by
  rw [normalizeTimestamp]
  cases hread : P.timestamp value with
  | none => exact hN.timestamp _ _ hnow
  | some t => exact hN.timestamp _ _ hread

theorem stored_normalize (hP : P.Assumed) (hN : P.Settles) {now : Str}
    (hnow : P.timestamp (some now) = some now) {url title time : Option Str} {u : Url}
    (h : tryNormalizeWebUrl P url = some u) :
    Stored.Entry P (normalizeTitle title u.host) u.text (normalizeTimestamp P now time) := by
  have hu := isWebUrl_of_read hP h
  exact ⟨⟨u, hu⟩, isTitle_normalizeTitle (printable_host hu.printable) hu.host,
    normalizeTimestamp_time hN hnow time⟩

theorem stored_normalizeBookmark (hP : P.Assumed) (hN : P.Settles) {now : Str}
    (hnow : P.timestamp (some now) = some now) {item : RawBookmark} {b : Bookmark}
    (h : normalizeBookmark P now item = some b) :
    Stored.Entry P b.title b.url b.createdAtUtc := by
  obtain ⟨u, hu, rfl⟩ := Option.map_eq_some_iff.1 h
  exact stored_normalize hP hN hnow hu

theorem stored_normalizeHistory (hP : P.Assumed) (hN : P.Settles) {now : Str}
    (hnow : P.timestamp (some now) = some now) {item : RawHistoryEntry} {e : HistoryEntry}
    (h : normalizeHistory P now item = some e) :
    Stored.Entry P e.title e.url e.visitedAtUtc ∧ 0 ≤ e.typedCount := by
  obtain ⟨u, hu, rfl⟩ := Option.map_eq_some_iff.1 h
  exact ⟨stored_normalize hP hN hnow hu, le_max_left _ _⟩

section Again

variable {title url time : Str} (h : Stored.Entry P title url time)
include h

theorem Stored.Entry.url_eq : sanitize url = url := by
  obtain ⟨u, hu⟩ := h.web
  exact sanitize_of_printable hu.printable

/-- The time of an entry stays, whatever the time of the load is. -/
theorem Stored.Entry.time_eq (later : Str) :
    normalizeTimestamp P later (some (sanitize time)) = time := by
  rw [sanitize_eq_iff.2 h.time.1, normalizeTimestamp, h.time.2]
  rfl

/-- The parts of an entry that is read again. -/
theorem Stored.Entry.normalize_iff :
    (∃ u, tryNormalizeWebUrl P (some (sanitize url)) = some u ∧ u.text = url ∧
      normalizeTitle (some (sanitize title)) u.host = title) ↔ Stored.Returns title url := by
  obtain ⟨u, hu⟩ := h.web
  rw [h.url_eq]
  constructor
  · rintro ⟨v, hv, -, htitle⟩
    exact ⟨(tryNormalizeWebUrl_eq_some.1 hv).2.1, (h.title.normalize_sanitize_iff _).1 htitle⟩
  · rintro ⟨hlength, htitle⟩
    exact ⟨u, hu.normalize_eq hlength, hu.text, (h.title.normalize_sanitize_iff _).2 htitle⟩

end Again

theorem normalizeBookmark_written_iff {b : Bookmark}
    (h : Stored.Entry P b.title b.url b.createdAtUtc) (later : Str) :
    normalizeBookmark P later b.written.raw = some b ↔ Stored.Returns b.title b.url := by
  rw [← h.normalize_iff, normalizeBookmark, Option.map_eq_some_iff]
  refine exists_congr fun u => and_congr_right fun _ => ?_
  dsimp only [Bookmark.written, Bookmark.raw]
  rw [h.time_eq]
  constructor
  · intro heq
    exact ⟨congrArg Bookmark.url heq, congrArg Bookmark.title heq⟩
  · rintro ⟨hurl, htitle⟩
    rw [hurl, htitle]

theorem normalizeHistory_written_iff {e : HistoryEntry}
    (h : Stored.Entry P e.title e.url e.visitedAtUtc) (hcount : 0 ≤ e.typedCount) (later : Str) :
    normalizeHistory P later e.written.raw = some e ↔ Stored.Returns e.title e.url := by
  rw [← h.normalize_iff, normalizeHistory, Option.map_eq_some_iff]
  refine exists_congr fun u => and_congr_right fun _ => ?_
  dsimp only [HistoryEntry.written, HistoryEntry.raw]
  rw [h.time_eq, max_eq_right hcount]
  constructor
  · intro heq
    exact ⟨congrArg HistoryEntry.url heq, congrArg HistoryEntry.title heq⟩
  · rintro ⟨hurl, htitle⟩
    rw [hurl, htitle]

/-! ## Lists -/

/-- A list of which everything is kept has lost nothing on the way. -/
theorem sublist_filterMap_eq_iff {α : Type} {f : α → Option α} (cut : List α → List α)
    (hcut : ∀ l, (cut l).Sublist l) {l : List α} (hself : cut l = l) :
    cut (l.filterMap f) = l ↔ ∀ a ∈ l, f a = some a := by
  have hid : l.filterMap f = l ↔ ∀ a ∈ l, f a = some a := by
    have hmap := List.filterMap_eq_map_iff_forall_eq_some (f := f) (g := id) (l := l)
    rwa [List.map_id] at hmap
  rw [← hid]
  constructor
  · intro heq
    have hlength : l.length ≤ (l.filterMap f).length := by
      have hle := (hcut (l.filterMap f)).length_le
      rwa [heq] at hle
    have hsame := (hcut (l.filterMap f)).eq_of_length_le (by
      rw [heq]
      exact List.length_filterMap_le f l)
    rw [← hsame, heq]
  · intro heq
    rw [heq, hself]

theorem filterMap_map_some {α β γ : Type} (f : β → Option γ) (g : α → β) (l : List α) :
    (l.map fun a => some (g a)).filterMap (fun item => item.bind f) = l.filterMap fun a => f (g a) := by
  rw [List.filterMap_map]
  rfl

theorem mem_keptBookmarks {now : Str} {items : List (Option RawBookmark)} {b : Bookmark}
    (h : b ∈ keptBookmarks P now items) : ∃ item, normalizeBookmark P now item = some b := by
  have hmem := (firstOfEach_sublist _).subset (List.mem_of_mem_take h)
  obtain ⟨item, -, hitem⟩ := List.mem_filterMap.1 hmem
  obtain ⟨raw, -, hraw⟩ := Option.bind_eq_some_iff.1 hitem
  exact ⟨raw, hraw⟩

theorem mem_keptHistory {now : Str} {items : List (Option RawHistoryEntry)} {e : HistoryEntry}
    (h : e ∈ keptHistory P now items) : ∃ item, normalizeHistory P now item = some e := by
  obtain ⟨item, -, hitem⟩ := List.mem_filterMap.1 (List.mem_of_mem_take h)
  obtain ⟨raw, -, hraw⟩ := Option.bind_eq_some_iff.1 hitem
  exact ⟨raw, hraw⟩

/-- The bookmarks come back from the file as they are exactly if each of them does. -/
theorem keptBookmarks_written_iff (hP : P.Assumed) (hN : P.Settles) {now : Str}
    (hnow : P.timestamp (some now) = some now) {items : List (Option RawBookmark)}
    {bookmarks : List Bookmark} (hkept : keptBookmarks P now items = bookmarks) (later : Str) :
    keptBookmarks P later (bookmarks.map fun b => some b.written.raw) = bookmarks ↔
      ∀ b ∈ bookmarks, Stored.Returns b.title b.url := by
  have hdistinct : Distinct (fun b : Bookmark => ignoreCase P b.url) bookmarks := by
    rw [← hkept]
    exact (distinct_firstOfEach _).sublist (List.take_sublist _ _)
  have hlength : bookmarks.length ≤ maximumBookmarks := by
    rw [← hkept]
    exact List.length_take_le _ _
  have hself : (firstOfEach (fun b : Bookmark => ignoreCase P b.url) bookmarks).take
      maximumBookmarks = bookmarks := by
    rw [hdistinct.firstOfEach_eq, List.take_of_length_le hlength]
  rw [keptBookmarks, filterMap_map_some (normalizeBookmark P later) fun b : Bookmark => b.written.raw]
  refine (sublist_filterMap_eq_iff
    (fun l => (firstOfEach (fun b : Bookmark => ignoreCase P b.url) l).take maximumBookmarks)
    (fun l => (List.take_sublist _ _).trans (firstOfEach_sublist l)) hself).trans ?_
  refine forall₂_congr fun b hb => ?_
  obtain ⟨item, hitem⟩ := mem_keptBookmarks (hkept ▸ hb)
  exact normalizeBookmark_written_iff (stored_normalizeBookmark hP hN hnow hitem) later

theorem keptHistory_written_iff (hP : P.Assumed) (hN : P.Settles) {now : Str}
    (hnow : P.timestamp (some now) = some now) {items : List (Option RawHistoryEntry)}
    {history : List HistoryEntry} (hkept : keptHistory P now items = history) (later : Str) :
    keptHistory P later (history.map fun e => some e.written.raw) = history ↔
      ∀ e ∈ history, Stored.Returns e.title e.url := by
  have hlength : history.length ≤ maximumHistoryEntries := by
    rw [← hkept]
    exact List.length_take_le _ _
  rw [keptHistory, filterMap_map_some (normalizeHistory P later) fun e : HistoryEntry => e.written.raw]
  refine (sublist_filterMap_eq_iff (List.take maximumHistoryEntries)
    (List.take_sublist _) (List.take_of_length_le hlength)).trans ?_
  refine forall₂_congr fun e he => ?_
  obtain ⟨item, hitem⟩ := mem_keptHistory (hkept ▸ he)
  obtain ⟨hentry, hcount⟩ := stored_normalizeHistory hP hN hnow hitem
  exact normalizeHistory_written_iff hentry hcount later

/-! ## Loading what was saved -/

/-- `Load` of saved data returns, with the settings as they come back. -/
theorem loadState_saved (hP : P.Assumed) (hS : P.Serializes) (hN : P.Settles) {now : Str}
    {data : RawData} {d : ProductData} (hd : normalizeData P now (some data) = .ok d) {bytes : Bytes}
    (hbytes : writeState P d = .ok bytes) (later : Str) :
    ∃ settings, loadState P later (some bytes) =
        .ok ⟨3, keptBookmarks P later (d.bookmarks.map fun b => some b.written.raw),
          keptHistory P later (d.history.map fun e => some e.written.raw), settings⟩ ∧
      (settings = d.settings ↔
        length16 d.settings.customStartupUrl ≤ 4096 ∧ Text.Encodable d.settings.downloadDirectory) := by
  obtain ⟨settings, hsettings, rfl⟩ := normalizeData_eq_ok.1 hd
  obtain ⟨again, hagain, hsame⟩ := again_normalizeSettings hP hN hsettings
  refine ⟨again, ?_, hsame⟩
  rw [loadState_written hS hbytes]
  refine normalizeData_raw_eq_ok.2 ⟨again, hagain, ?_⟩
  dsimp only [ProductData.written]
  rw [List.map_map, List.map_map]
  rfl

/-- Saved data come back as they are exactly if every entry does, the startup URL is within the bound
and the path of the downloads has no unpaired surrogate. -/
theorem loadState_eq_iff (hP : P.Assumed) (hS : P.Serializes) (hN : P.Settles) {now : Str}
    (hnow : P.timestamp (some now) = some now) {data : RawData} {d : ProductData}
    (hd : normalizeData P now (some data) = .ok d) {bytes : Bytes}
    (hbytes : writeState P d = .ok bytes) (later : Str) :
    loadState P later (some bytes) = .ok d ↔
      (∀ b ∈ d.bookmarks, Stored.Returns b.title b.url) ∧
      (∀ e ∈ d.history, Stored.Returns e.title e.url) ∧
      length16 d.settings.customStartupUrl ≤ 4096 ∧ Text.Encodable d.settings.downloadDirectory := by
  obtain ⟨settings, hload, hsettings⟩ := loadState_saved hP hS hN hd hbytes later
  obtain ⟨_, -, hdata⟩ := normalizeData_eq_ok.1 hd
  have hschema : d.schemaVersion = 3 := congrArg ProductData.schemaVersion hdata
  have hbookmarks :=
    keptBookmarks_written_iff hP hN hnow (congrArg ProductData.bookmarks hdata).symm later
  have hhistory := keptHistory_written_iff hP hN hnow (congrArg ProductData.history hdata).symm later
  rw [hload, ← hbookmarks, ← hhistory, ← hsettings, Except.ok.injEq]
  constructor
  · intro heq
    exact ⟨congrArg ProductData.bookmarks heq, congrArg ProductData.history heq,
      congrArg ProductData.settings heq⟩
  · rintro ⟨hb, he, hs⟩
    rw [hb, he, hs, ← hschema]

end ZsecShield.Browser
