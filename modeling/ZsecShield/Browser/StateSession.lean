import ZsecShield.Browser.StoredState

/-!
# A platform for the state

`Sample.browser` parses plain URLs, writes the data as JSON without blanks and reads them back.  It does
what the store relies on (`Sample.assumed_browser`, `Sample.settles_browser`,
`Sample.serializes_browser`).
-/

namespace ZsecShield.Browser

open Text (Str str CodePoint)
open Checks

namespace Sample

/-! ## URLs -/

/-- The URL of a host. -/
def urlAt (host rest : Str) : Url := ⟨str "https", some ⟨[], host, none⟩, rest⟩

/-- A small letter or a dot. -/
def isHost (c : CodePoint) : Bool := decide (0x61 ≤ c.val ∧ c.val ≤ 0x7A ∨ c.val = 0x2E)

/-- A letter, a digit, or one of `%`, `-`, `.`, `/`, `=` and `?`. -/
def isPath (c : CodePoint) : Bool :=
  decide (0x61 ≤ c.val ∧ c.val ≤ 0x7A ∨ 0x41 ≤ c.val ∧ c.val ≤ 0x5A ∨ 0x2D ≤ c.val ∧ c.val ≤ 0x39 ∨
    c.val = 0x25 ∨ c.val = 0x3D ∨ c.val = 0x3F)

/-- A character of a path: `ü` is percent-encoded. -/
def encodePath (c : CodePoint) : Str := if c.val = 0xFC then str "%C3%BC" else [c]

/-- A URL without anything but a host and a path. -/
def readUrl (s : Str) : Option Url :=
  let tail := s.drop 8
  let host := tail.takeWhile isHost
  if s.take 8 ≠ str "https://" ∨ host = [] then none
  else match tail.dropWhile isHost with
    | [] => some (urlAt host [slash])
    | c :: path =>
        if c = slash ∧ path.all (fun c => isPath c || decide (c.val = 0xFC)) = true then
          some (urlAt host (slash :: path.flatMap encodePath))
        else none

/-- A URL that `readUrl` gives. -/
structure IsUrl (u : Url) : Prop where
  eq : ∃ host path, u = urlAt host (slash :: path) ∧ host ≠ [] ∧ (∀ c ∈ host, isHost c = true) ∧
    ∀ c ∈ path, isPath c = true

theorem isPath_encodePath {c : CodePoint} (h : isPath c = true ∨ c.val = 0xFC) :
    ∀ d ∈ encodePath c, isPath d = true := by
  intro d hd
  unfold encodePath at hd
  split at hd
  · have hall : (str "%C3%BC").all isPath = true := by decide
    exact List.all_eq_true.1 hall d hd
  · rename_i hne
    rw [List.mem_singleton.1 hd]
    exact h.resolve_right hne

theorem isUrl_of_read {s : Str} {u : Url} (h : readUrl s = some u) : IsUrl u := by
  unfold readUrl at h
  dsimp only at h
  split at h
  · cases h
  · rename_i hstart
    rw [not_or, not_not] at hstart
    have hhost : ∀ c ∈ (s.drop 8).takeWhile isHost, isHost c = true :=
      fun c hc => List.all_eq_true.1 List.all_takeWhile c hc
    split at h
    · obtain rfl := Option.some.inj h
      exact ⟨_, [], rfl, hstart.2, hhost, List.forall_mem_nil _⟩
    · rename_i c path _
      split at h
      · rename_i hpath
        obtain rfl := Option.some.inj h
        refine ⟨_, path.flatMap encodePath, rfl, hstart.2, hhost, ?_⟩
        intro d hd
        obtain ⟨e, he, hd⟩ := List.mem_flatMap.1 hd
        have hallowed := List.all_eq_true.1 hpath.2 e he
        rw [Bool.or_eq_true, decide_eq_true_eq] at hallowed
        exact isPath_encodePath hallowed d hd
      · cases h

theorem flatMap_encodePath {path : Str} (h : ∀ c ∈ path, isPath c = true) :
    path.flatMap encodePath = path := by
  induction path with
  | nil => rfl
  | cons c path ih =>
      obtain ⟨hc, hpath⟩ := List.forall_mem_cons.1 h
      have hne : ¬ c.val = 0xFC := by
        have hpoint := of_decide_eq_true hc
        omega
      rw [List.flatMap_cons, encodePath, if_neg hne, ih hpath]
      rfl

/-- The text of a URL of a host, taken apart. -/
theorem text_urlAt (host rest : Str) : (urlAt host rest).text = str "https://" ++ (host ++ rest) := by
  have htext : (urlAt host rest).text = str "https://" ++ ([] ++ host ++ [] ++ rest) := rfl
  rw [htext, List.nil_append, List.append_nil]

theorem takeWhile_host {host : Str} (hhost : ∀ c ∈ host, isHost c = true) {rest : Str}
    (hrest : ∀ c ∈ rest.head?, isHost c = false) :
    (host ++ rest).takeWhile isHost = host ∧ (host ++ rest).dropWhile isHost = rest := by
  rw [List.takeWhile_append_of_pos hhost, List.dropWhile_append_of_pos hhost]
  cases rest with
  | nil => exact ⟨List.append_nil host, rfl⟩
  | cons c rest =>
      have hc : isHost c = false := hrest c rfl
      rw [List.takeWhile_cons_of_neg (by simp [hc]), List.dropWhile_cons_of_neg (by simp [hc]),
        List.append_nil]
      exact ⟨rfl, rfl⟩

/-- The root of a host. -/
theorem readUrl_root {host : Str} (hne : host ≠ []) (hhost : ∀ c ∈ host, isHost c = true) :
    readUrl (str "https://" ++ host) = some (urlAt host [slash]) := by
  have hnone : ∀ c ∈ ([] : Str).head?, isHost c = false := nofun
  obtain ⟨htake, hdrop⟩ := takeWhile_host hhost hnone
  rw [List.append_nil] at htake hdrop
  have hlength : (str "https://").length = 8 := rfl
  have htail : (str "https://" ++ host).drop 8 = host := by
    rw [← hlength, List.drop_left]
  have hscheme : (str "https://" ++ host).take 8 = str "https://" := by
    rw [← hlength, List.take_left]
  unfold readUrl
  dsimp only
  rw [htail, hscheme, htake, hdrop, if_neg (by simp [hne])]

/-- A path of a host. -/
theorem readUrl_path {host path : Str} (hne : host ≠ []) (hhost : ∀ c ∈ host, isHost c = true)
    (hpath : ∀ c ∈ path, isPath c = true ∨ c.val = 0xFC) :
    readUrl (str "https://" ++ (host ++ slash :: path)) =
      some (urlAt host (slash :: path.flatMap encodePath)) := by
  have hslash : ∀ c ∈ (slash :: path).head?, isHost c = false := by
    intro c hc
    obtain rfl : slash = c := Option.some.inj hc
    decide
  obtain ⟨htake, hdrop⟩ := takeWhile_host hhost hslash
  have hlength : (str "https://").length = 8 := rfl
  have htail : (str "https://" ++ (host ++ slash :: path)).drop 8 = host ++ slash :: path := by
    rw [← hlength, List.drop_left]
  have hscheme : (str "https://" ++ (host ++ slash :: path)).take 8 = str "https://" := by
    rw [← hlength, List.take_left]
  have hall : path.all (fun c => isPath c || decide (c.val = 0xFC)) = true := by
    rw [List.all_eq_true]
    intro c hc
    rw [Bool.or_eq_true, decide_eq_true_eq]
    exact hpath c hc
  unfold readUrl
  dsimp only
  rw [htail, hscheme, htake, hdrop, if_neg (by simp [hne])]
  exact if_pos ⟨rfl, hall⟩

/-- A URL is parsed as itself. -/
theorem IsUrl.read {u : Url} (h : IsUrl u) : readUrl u.text = some u := by
  obtain ⟨host, path, rfl, hne, hhost, hpath⟩ := h.eq
  rw [text_urlAt, readUrl_path hne hhost fun c hc => .inl (hpath c hc), flatMap_encodePath hpath]

theorem IsUrl.printable {u : Url} (h : IsUrl u) : Printable u.text := by
  obtain ⟨host, path, rfl, -, hhost, hpath⟩ := h.eq
  have hscheme : (str "https://").all (fun c => decide (0x21 ≤ c.val ∧ c.val ≤ 0x7E)) = true := by
    decide
  rw [text_urlAt]
  intro c hc
  rw [List.mem_append, List.mem_append, List.mem_cons] at hc
  rcases hc with hc | hc | rfl | hc
  · exact of_decide_eq_true (List.all_eq_true.1 hscheme c hc)
  · have hpoint := of_decide_eq_true (hhost c hc)
    omega
  · rw [val_slash]
    omega
  · have hpoint := of_decide_eq_true (hpath c hc)
    omega

/-! ## The text of the data -/

def bookmarkJson (b : Bookmark) : Json :=
  .obj [(str "Title", .str b.title), (str "Url", .str b.url), (str "CreatedAtUtc", .str b.createdAtUtc)]

def historyJson (e : HistoryEntry) : Json :=
  .obj [(str "Title", .str e.title), (str "Url", .str e.url), (str "VisitedAtUtc", .str e.visitedAtUtc),
    (str "TypedCount", .int e.typedCount)]

def settingsJson (s : ProductSettings) : Json :=
  .obj [(str "StartupMode", .str s.startupMode), (str "CustomStartupUrl", .str s.customStartupUrl),
    (str "RecordHistory", .bool s.recordHistory),
    (str "ClearHistoryOnExit", .bool s.clearHistoryOnExit),
    (str "ShowBookmarksBar", .bool s.showBookmarksBar), (str "MinimizeToTray", .bool s.minimizeToTray),
    (str "CloseToTray", .bool s.closeToTray), (str "AskDownloadLocation", .bool s.askDownloadLocation),
    (str "DownloadDirectory", .str s.downloadDirectory),
    (str "NativeStrictMode", .bool s.nativeStrictMode), (str "BlockYoutubeAds", .bool s.blockYoutubeAds),
    (str "SearchEngine", .str s.searchEngine),
    (str "PasswordSaveEnabled", .bool s.passwordSaveEnabled),
    (str "PasswordAutofillEnabled", .bool s.passwordAutofillEnabled),
    (str "PasswordNeverSaveOrigins", .arr (s.passwordNeverSaveOrigins.map .str)),
    (str "PopupAllowedOrigins", .arr (s.popupAllowedOrigins.map .str)), (str "Theme", .str s.theme),
    (str "AccentColor", .str s.accentColor)]

def stateMembers (d : ProductData) : List (Str × Json) :=
  [(str "SchemaVersion", .int d.schemaVersion), (str "Bookmarks", .arr (d.bookmarks.map bookmarkJson)),
    (str "History", .arr (d.history.map historyJson)), (str "Settings", settingsJson d.settings)]

def stateJson (d : ProductData) : Json := .obj (stateMembers d)

def writeText (d : ProductData) : Option Str :=
  if d.HasInts ∧ length16 (compact (stateJson d)) ≤ maximumStateBytes then some (compact (stateJson d))
  else none

/-! ## Reading it -/

def textAt (members : List (Str × Json)) (key : String) : Option Str :=
  (Json.lookup (str key) members).bind Json.strOf

def intAt (members : List (Str × Json)) (key : String) : Int :=
  ((Json.lookup (str key) members).bind Json.intOf).getD 0

def boolAt (members : List (Str × Json)) (key : String) : Bool :=
  match Json.lookup (str key) members with
  | some (.bool b) => b
  | _ => false

def itemsAt {α : Type} (members : List (Str × Json)) (key : String) (read : Json → Option α) :
    Option (List (Option α)) :=
  ((Json.lookup (str key) members).bind Json.arrOf).map fun items => items.map read

def readBookmark (v : Json) : Option RawBookmark :=
  v.objOf.map fun members => ⟨textAt members "Title", textAt members "Url", textAt members "CreatedAtUtc"⟩

def readHistory (v : Json) : Option RawHistoryEntry :=
  v.objOf.map fun members =>
    ⟨textAt members "Title", textAt members "Url", textAt members "VisitedAtUtc", intAt members "TypedCount"⟩

def readSettings (v : Json) : Option RawSettings :=
  v.objOf.map fun members => {
    startupMode := textAt members "StartupMode"
    customStartupUrl := textAt members "CustomStartupUrl"
    recordHistory := boolAt members "RecordHistory"
    clearHistoryOnExit := boolAt members "ClearHistoryOnExit"
    showBookmarksBar := boolAt members "ShowBookmarksBar"
    minimizeToTray := boolAt members "MinimizeToTray"
    closeToTray := boolAt members "CloseToTray"
    askDownloadLocation := boolAt members "AskDownloadLocation"
    downloadDirectory := textAt members "DownloadDirectory"
    nativeStrictMode := boolAt members "NativeStrictMode"
    blockYoutubeAds := boolAt members "BlockYoutubeAds"
    searchEngine := textAt members "SearchEngine"
    passwordSaveEnabled := boolAt members "PasswordSaveEnabled"
    passwordAutofillEnabled := boolAt members "PasswordAutofillEnabled"
    passwordNeverSaveOrigins := itemsAt members "PasswordNeverSaveOrigins" Json.strOf
    popupAllowedOrigins := itemsAt members "PopupAllowedOrigins" Json.strOf
    theme := textAt members "Theme"
    accentColor := textAt members "AccentColor" }

def readState : Json → Option (Option RawData)
  | .null => some none
  | .obj members => some (some {
      schemaVersion := intAt members "SchemaVersion"
      bookmarks := itemsAt members "Bookmarks" readBookmark
      history := itemsAt members "History" readHistory
      settings := (Json.lookup (str "Settings") members).bind readSettings })
  | _ => none

/-- What is read of a text, white space at its end apart. -/
def readText (s : Str) : Option (Option RawData) :=
  match Json.loads serializerReader (trimEndOf isWhiteSpace s) with
  | .ok v => readState v
  | .error _ => none

theorem readBookmark_bookmarkJson (b : Bookmark) : readBookmark (bookmarkJson b) = some b.raw := by
  simp [readBookmark, bookmarkJson, Json.objOf, textAt, Json.lookup, Text.str_injective, Json.strOf,
    Bookmark.raw]

theorem readHistory_historyJson (e : HistoryEntry) : readHistory (historyJson e) = some e.raw := by
  simp [readHistory, historyJson, Json.objOf, textAt, intAt, Json.lookup, Text.str_injective,
    Json.strOf, Json.intOf, HistoryEntry.raw]

theorem itemsAt_map {α β : Type} {members : List (Str × Json)} {key : String} {read : Json → Option β}
    {write : α → Json} {raw : α → β} {l : List α}
    (hlookup : Json.lookup (str key) members = some (.arr (l.map write)))
    (hread : ∀ a, read (write a) = some (raw a)) :
    itemsAt members key read = some (l.map fun a => some (raw a)) := by
  rw [itemsAt, hlookup, Option.bind_some, Json.arrOf, Option.map_some, List.map_map]
  exact congrArg some (List.map_congr_left fun a _ => hread a)

theorem readSettings_settingsJson (s : ProductSettings) :
    readSettings (settingsJson s) = some s.raw := by
  simp only [readSettings, settingsJson, Json.objOf, textAt, boolAt, itemsAt, Json.lookup,
    Text.str_injective, Option.map_some, Json.strOf, Json.arrOf]
  simp [ProductSettings.raw]

theorem lookup_stateMembers (d : ProductData) :
    Json.lookup (str "SchemaVersion") (stateMembers d) = some (.int d.schemaVersion) ∧
      Json.lookup (str "Bookmarks") (stateMembers d) = some (.arr (d.bookmarks.map bookmarkJson)) ∧
      Json.lookup (str "History") (stateMembers d) = some (.arr (d.history.map historyJson)) ∧
      Json.lookup (str "Settings") (stateMembers d) = some (settingsJson d.settings) := by
  simp [stateMembers, Json.lookup, Text.str_injective]

/-- The data are read from their own text. -/
theorem readState_stateJson (d : ProductData) : readState (stateJson d) = some (some d.raw) := by
  obtain ⟨hversion, hbookmarks, hhistory, hsettings⟩ := lookup_stateMembers d
  rw [stateJson, readState, itemsAt_map hbookmarks readBookmark_bookmarkJson,
    itemsAt_map hhistory readHistory_historyJson, intAt, hversion, hsettings, Option.bind_some,
    Option.bind_some, readSettings_settingsJson]
  rfl

/-! ## The shape of the text -/

theorem plain_int {n : Int} (h : IsInt n) : Json.Plain 4300 (.int n) := by
  have hsize : n.natAbs < 10 ^ 10 := by
    obtain ⟨hlow, hhigh⟩ := h
    omega
  have hdigits := (Text.length_digits_le_iff (k := 10) (by omega)).2 hsize
  exact .int n (by omega)

theorem plain_bookmarkJson (b : Bookmark) : Json.Plain 4300 (bookmarkJson b) := by
  refine .obj _ (by simp [Text.str_injective]) ?_
  simp [Json.Plain.str]

theorem plain_historyJson {e : HistoryEntry} (h : IsInt e.typedCount) :
    Json.Plain 4300 (historyJson e) := by
  refine .obj _ (by simp [Text.str_injective]) ?_
  simp [Json.Plain.str, plain_int h]

theorem plain_settingsJson (s : ProductSettings) : Json.Plain 4300 (settingsJson s) := by
  have hnames (values : List Str) : Json.Plain 4300 (.arr (values.map .str)) :=
    .arr _ (List.forall_mem_map.2 fun t _ => .str t)
  refine .obj _ (by simp [Text.str_injective]) ?_
  simp [Json.Plain.str, Json.Plain.bool, hnames]

theorem plain_stateJson {d : ProductData} (h : d.HasInts) : Json.Plain 4300 (stateJson d) := by
  have hbookmarks : Json.Plain 4300 (.arr (d.bookmarks.map bookmarkJson)) :=
    .arr _ (List.forall_mem_map.2 fun b _ => plain_bookmarkJson b)
  have hhistory : Json.Plain 4300 (.arr (d.history.map historyJson)) :=
    .arr _ (List.forall_mem_map.2 fun e he => plain_historyJson (h.2 e he))
  refine .obj _ (by simp [stateMembers, Text.str_injective]) ?_
  simp [stateMembers, plain_int h.1, hbookmarks, hhistory, plain_settingsJson]

theorem depth_stateJson (d : ProductData) : (stateJson d).depth ≤ 100 := by
  have hbookmarks : Json.depthElements (d.bookmarks.map bookmarkJson) ≤ 1 :=
    Json.depthElements_le (List.forall_mem_map.2 fun b _ => Nat.le_of_eq rfl)
  have hhistory : Json.depthElements (d.history.map historyJson) ≤ 1 :=
    Json.depthElements_le (List.forall_mem_map.2 fun e _ => Nat.le_of_eq rfl)
  have hnames (values : List Str) : Json.depthElements (values.map .str) ≤ 0 :=
    Json.depthElements_le (List.forall_mem_map.2 fun t _ => Nat.le_of_eq rfl)
  have hsaved := hnames d.settings.passwordNeverSaveOrigins
  have hallowed := hnames d.settings.popupAllowedOrigins
  simp only [stateJson, stateMembers, settingsJson, Json.depth, Json.depthMembers]
  omega

/-- The brace at the end is no white space. -/
theorem trim_compact (members : List (Str × Json)) :
    trimEndOf isWhiteSpace (compact (.obj members) ++ newLine) = compact (.obj members) := by
  obtain ⟨front, hfront⟩ : ∃ front, compact (.obj members) = front ++ [Text.ofChar '}'] := by
    rw [compact, Json.layout]
    cases Json.layoutMembers .canonical (0 + 1) members with
    | nil => exact ⟨[Text.ofChar '{'], rfl⟩
    | cons i items => exact ⟨_ :: _, rfl⟩
  have hbrace : isWhiteSpace (Text.ofChar '}') = false := by decide
  have hbreak : ∀ c ∈ newLine.reverse, isWhiteSpace c = true := by
    intro c hc
    rcases List.mem_cons.1 hc with rfl | hc
    · rfl
    · rw [List.mem_singleton.1 hc]
      rfl
  rw [hfront, trimEndOf, List.reverse_append, List.dropWhile_append_of_pos hbreak,
    List.reverse_append, List.reverse_singleton, List.singleton_append,
    List.dropWhile_cons_of_neg (by simp [hbrace]), List.reverse_cons, List.reverse_reverse]

theorem readText_compact {d : ProductData} (h : d.HasInts) :
    readText (compact (stateJson d) ++ newLine) = some (some d.raw) := by
  have hloads := loads_compact (plain_stateJson h) (depth_stateJson d)
  have htrim : trimEndOf isWhiteSpace (compact (stateJson d) ++ newLine) = compact (stateJson d) :=
    trim_compact (stateMembers d)
  rw [readText, htrim, hloads]
  exact readState_stateJson d

/-! ## Its unpaired surrogates -/

/-- The text of the first value is that of the second when its unpaired surrogates are replaced. -/
def Replaced (v w : Json) : Prop :=
  ∀ level, sanitize (Json.layout .canonical level v) = Json.layout .canonical level w

theorem Replaced.str (s : Str) : Replaced (.str s) (.str (sanitize s)) := fun _ => sanitize_quote s

theorem Replaced.bool (b : Bool) : Replaced (.bool b) (.bool b) := by
  intro level
  cases b <;> rfl

theorem Replaced.int (n : Int) : Replaced (.int n) (.int n) :=
  fun _ => sanitize_of_ascii (Json.ascii_intText n)

theorem Replaced.arr {α : Type} {f g : α → Json} {l : List α} (h : ∀ a ∈ l, Replaced (f a) (g a)) :
    Replaced (.arr (l.map f)) (.arr (l.map g)) := by
  intro level
  rw [Json.layout, Json.layout, Json.layoutElements_eq_map, Json.layoutElements_eq_map,
    sanitize_block level (by decide) (by decide), List.map_map, List.map_map, List.map_map]
  exact congrArg _ (List.map_congr_left fun a ha => h a ha (level + 1))

/-- Members of an object, each with the value that it gets. -/
theorem Replaced.obj (members : List (String × Json × Json))
    (h : ∀ m ∈ members, Replaced m.2.1 m.2.2) :
    Replaced (.obj (members.map fun m => (Text.str m.1, m.2.1)))
      (.obj (members.map fun m => (Text.str m.1, m.2.2))) := by
  intro level
  have hmark : sanitize (Text.str ":") = Text.str ":" :=
    sanitize_of_ascii (Json.ascii_literal (by decide))
  have hseparator : Json.Style.canonical.keySeparator = Text.str ":" := rfl
  rw [Json.layout, Json.layout, Json.layoutMembers_eq_map, Json.layoutMembers_eq_map,
    sanitize_block level (by decide) (by decide), List.map_map, List.map_map, List.map_map]
  refine congrArg _ (List.map_congr_left fun m hm => ?_)
  have hkey : sanitize (Text.str m.1) = Text.str m.1 := sanitize_eq_iff.2 (Text.encodable_str m.1)
  simp only [Function.comp_apply, Json.layoutMember, sanitize_append, sanitize_quote, hkey,
    hseparator, hmark, h m hm (level + 1)]

theorem replaced_bookmarkJson (b : Bookmark) :
    Replaced (bookmarkJson b) (bookmarkJson b.written) := by
  refine Replaced.obj [("Title", .str b.title, .str (sanitize b.title)),
    ("Url", .str b.url, .str (sanitize b.url)),
    ("CreatedAtUtc", .str b.createdAtUtc, .str (sanitize b.createdAtUtc))] ?_
  simp only [List.forall_mem_cons]
  exact ⟨.str _, .str _, .str _, List.forall_mem_nil _⟩

theorem replaced_historyJson (e : HistoryEntry) :
    Replaced (historyJson e) (historyJson e.written) := by
  refine Replaced.obj [("Title", .str e.title, .str (sanitize e.title)),
    ("Url", .str e.url, .str (sanitize e.url)),
    ("VisitedAtUtc", .str e.visitedAtUtc, .str (sanitize e.visitedAtUtc)),
    ("TypedCount", .int e.typedCount, .int e.typedCount)] ?_
  simp only [List.forall_mem_cons]
  exact ⟨.str _, .str _, .str _, .int _, List.forall_mem_nil _⟩

theorem replaced_names (values : List Str) :
    Replaced (.arr (values.map .str)) (.arr ((values.map sanitize).map .str)) := by
  rw [List.map_map]
  exact Replaced.arr fun t _ => .str t

theorem replaced_settingsJson (s : ProductSettings) :
    Replaced (settingsJson s) (settingsJson s.written) := by
  refine Replaced.obj [("StartupMode", .str s.startupMode, .str (sanitize s.startupMode)),
    ("CustomStartupUrl", .str s.customStartupUrl, .str (sanitize s.customStartupUrl)),
    ("RecordHistory", .bool s.recordHistory, .bool s.recordHistory),
    ("ClearHistoryOnExit", .bool s.clearHistoryOnExit, .bool s.clearHistoryOnExit),
    ("ShowBookmarksBar", .bool s.showBookmarksBar, .bool s.showBookmarksBar),
    ("MinimizeToTray", .bool s.minimizeToTray, .bool s.minimizeToTray),
    ("CloseToTray", .bool s.closeToTray, .bool s.closeToTray),
    ("AskDownloadLocation", .bool s.askDownloadLocation, .bool s.askDownloadLocation),
    ("DownloadDirectory", .str s.downloadDirectory, .str (sanitize s.downloadDirectory)),
    ("NativeStrictMode", .bool s.nativeStrictMode, .bool s.nativeStrictMode),
    ("BlockYoutubeAds", .bool s.blockYoutubeAds, .bool s.blockYoutubeAds),
    ("SearchEngine", .str s.searchEngine, .str (sanitize s.searchEngine)),
    ("PasswordSaveEnabled", .bool s.passwordSaveEnabled, .bool s.passwordSaveEnabled),
    ("PasswordAutofillEnabled", .bool s.passwordAutofillEnabled, .bool s.passwordAutofillEnabled),
    ("PasswordNeverSaveOrigins", .arr (s.passwordNeverSaveOrigins.map .str),
      .arr ((s.passwordNeverSaveOrigins.map sanitize).map .str)),
    ("PopupAllowedOrigins", .arr (s.popupAllowedOrigins.map .str),
      .arr ((s.popupAllowedOrigins.map sanitize).map .str)),
    ("Theme", .str s.theme, .str (sanitize s.theme)),
    ("AccentColor", .str s.accentColor, .str (sanitize s.accentColor))] ?_
  simp only [List.forall_mem_cons]
  exact ⟨.str _, .str _, .bool _, .bool _, .bool _, .bool _, .bool _, .bool _, .str _, .bool _,
    .bool _, .str _, .bool _, .bool _, replaced_names _, replaced_names _, .str _, .str _,
    List.forall_mem_nil _⟩

theorem replaced_stateJson (d : ProductData) : Replaced (stateJson d) (stateJson d.written) := by
  have hbookmarks : Replaced (.arr (d.bookmarks.map bookmarkJson))
      (.arr ((d.bookmarks.map Bookmark.written).map bookmarkJson)) := by
    rw [List.map_map]
    exact Replaced.arr fun b _ => replaced_bookmarkJson b
  have hhistory : Replaced (.arr (d.history.map historyJson))
      (.arr ((d.history.map HistoryEntry.written).map historyJson)) := by
    rw [List.map_map]
    exact Replaced.arr fun e _ => replaced_historyJson e
  refine Replaced.obj [("SchemaVersion", .int d.schemaVersion, .int d.schemaVersion),
    ("Bookmarks", .arr (d.bookmarks.map bookmarkJson),
      .arr ((d.bookmarks.map Bookmark.written).map bookmarkJson)),
    ("History", .arr (d.history.map historyJson),
      .arr ((d.history.map HistoryEntry.written).map historyJson)),
    ("Settings", settingsJson d.settings, settingsJson d.settings.written)] ?_
  simp only [List.forall_mem_cons]
  exact ⟨.int _, hbookmarks, hhistory, replaced_settingsJson _, List.forall_mem_nil _⟩

/-! ## The platform -/

def visitedAt : Str := str "2026-01-02T03:04:05Z"

/-- Paths are taken as they are. -/
def readPath (s : Str) : Option Str :=
  if isBlank s = true ∨ Text.ofChar '"' ∈ s then none else some s

def browser : StatePlatform where
  toWorkflowPlatform := { workflow userPrompt with tryCreate := readUrl }
  upper n := if 97 ≤ n ∧ n ≤ 122 then n - 32 else n
  toLowerInvariant := toLower
  timestamp v := if v = some visitedAt then v else none
  fullPath := readPath
  downloads := str "C:\\Users\\me\\Downloads"
  serializeState := writeText
  deserializeState := readText

theorem assumed_browser : browser.Assumed where
  printable _ _ h := (isUrl_of_read h).printable
  stable _ _ _ h := (isUrl_of_read h).read
  upper _ _ := rfl

theorem serializes_browser : browser.Serializes where
  reads d s h _ := by
    change writeText d = some s at h
    unfold writeText at h
    split at h
    · rename_i hints
      obtain rfl := Option.some.inj h
      have hreplaced : sanitize (compact (stateJson d)) = compact (stateJson d.written) :=
        replaced_stateJson d 0
      have hwritten : d.written.HasInts :=
        ⟨hints.1.1, List.forall_mem_map.2 fun e he => hints.1.2 e he⟩
      rw [hreplaced]
      exact readText_compact hwritten
    · cases h
  object d s h := by
    change writeText d = some s at h
    unfold writeText at h
    split at h
    · obtain rfl := Option.some.inj h
      rfl
    · cases h

/-! ## Origins -/

/-- The host of a URL that is read. -/
def IsUrlHost (host : Str) : Prop := host ≠ [] ∧ ∀ c ∈ host, isHost c = true

theorem toLower_host {host : Str} (h : IsUrlHost host) : toLower host = host :=
  toLower_eq fun c hc => by
    have hpoint := of_decide_eq_true (h.2 c hc)
    omega

theorem printable_rootOf {host : Str} (h : IsUrlHost host) : Printable (str "https://" ++ host) := by
  have hprint := (IsUrl.mk ⟨host, [], rfl, h.1, h.2, List.forall_mem_nil _⟩).printable
  rw [text_urlAt, ← List.append_assoc] at hprint
  exact fun c hc => hprint c (List.mem_append_left _ hc)

theorem not_isBlank_host {host : Str} (h : IsUrlHost host) : isBlank host = false := by
  obtain ⟨c, rest, rfl⟩ := List.exists_cons_of_ne_nil h.1
  have hpoint := of_decide_eq_true (h.2 c List.mem_cons_self)
  have hspace : isWhiteSpace c = false := not_isWhiteSpace (by omega)
  rw [isBlank, List.all_cons, hspace, Bool.false_and]

/-- What is read has a host, and its text is not shorter than the root of the host. -/
theorem host_of_read {s : Str} {u : Url} (h : readUrl s = some u) :
    ∃ host rest, u = urlAt host rest ∧ IsUrlHost host ∧ length16 (str "https://" ++ host) ≤ length16 s := by
  obtain ⟨host, path, rfl, hne, hhost, -⟩ := (isUrl_of_read h).eq
  refine ⟨host, _, rfl, ⟨hne, hhost⟩, ?_⟩
  have hparts : s.take 8 = str "https://" ∧ (s.drop 8).takeWhile isHost = host := by
    unfold readUrl at h
    dsimp only at h
    split at h
    · cases h
    · rename_i hstart
      rw [not_or, not_not] at hstart
      refine ⟨hstart.1, ?_⟩
      split at h
      · have heq := Option.some.inj h
        simp only [urlAt, Url.mk.injEq, Option.some.injEq, Authority.mk.injEq] at heq
        exact heq.2.1.2.1
      · split at h
        · have heq := Option.some.inj h
          simp only [urlAt, Url.mk.injEq, Option.some.injEq, Authority.mk.injEq] at heq
          exact heq.2.1.2.1
        · cases h
  rw [← hparts.1, ← hparts.2]
  have hsub : (s.take 8 ++ (s.drop 8).takeWhile isHost).Sublist (s.take 8 ++ s.drop 8) :=
    (List.takeWhile_sublist _).append_left _
  rw [List.take_append_drop] at hsub
  exact length16_sublist hsub

theorem originText_urlAt {host : Str} (h : IsUrlHost host) (rest : Str) :
    originText (urlAt host rest) = str "https://" ++ host := by
  have hleft : leftPart (urlAt host rest) = str "https://" ++ host := by
    have heq : leftPart (urlAt host rest) = str "https://" ++ ([] ++ host ++ []) := rfl
    rw [heq, List.nil_append, List.append_nil]
  have htrim : trimEndOf (fun c => decide (c = slash)) (str "https://" ++ host) =
      str "https://" ++ host := by
    refine trimEndOf_eq fun c hc => decide_eq_false ?_
    rw [List.getLast?_append_of_ne_nil _ h.1] at hc
    have hpoint := of_decide_eq_true (h.2 c (List.mem_of_mem_getLast? hc))
    rintro rfl
    rw [val_slash] at hpoint
    omega
  have hscheme : toLower (str "https://") = str "https://" := by decide
  rw [originText, hleft, htrim, toLower, List.map_append]
  exact congrArg₂ (· ++ ·) hscheme (toLower_host h)

theorem normalizeSecureOrigin_urlAt {host : Str} (h : IsUrlHost host) (rest : Str) :
    normalizeSecureOrigin browser.toWorkflowPlatform (urlAt host rest) =
      .ok (str "https://" ++ host) := by
  have hcolon : colon ∉ host := fun hc => by
    have hpoint := of_decide_eq_true (h.2 colon hc)
    rw [val_colon] at hpoint
    omega
  have hbuilt : builderHost host = host := if_neg fun hboth => hcolon hboth.1
  have hroot : rootText browser.toWorkflowPlatform (urlAt host rest) =
      str "https://" ++ (host ++ [slash]) := by
    have hidn : browser.toWorkflowPlatform.idnHost (urlAt host rest) = host := rfl
    have hport : explicitPort (urlAt host rest) = none := rfl
    rw [rootText, hidn, hport, hbuilt, toLower_host h, hbuilt, List.append_nil, List.append_assoc]
  refine normalizeSecureOrigin_eq_ok.2 ⟨⟨?_, not_isBlank_host h, rfl⟩, urlAt host [slash], ?_, ?_⟩
  · have hscheme : toLower (str "https") = str "https" := by decide
    exact hscheme
  · rw [hroot]
    exact readUrl_path h.1 h.2 (List.forall_mem_nil _)
  · exact originText_urlAt h _

theorem normalizes_browser : browser.toWorkflowPlatform.Normalizes where
  encodes s u h := sanitize_eq_iff.1 (sanitize_of_printable (isUrl_of_read h).printable)
  idempotent value o h := by
    obtain ⟨s, uri, -, -, hlength, hread, hnormal⟩ := normalizeSecureOriginText_eq_ok.1 h
    obtain ⟨host, rest, rfl, hhost, hle⟩ := host_of_read hread
    rw [normalizeSecureOrigin_urlAt hhost] at hnormal
    obtain rfl := Except.ok.inj hnormal
    have hblank : isBlank (str "https://" ++ host) = false := by
      have hcolon : colon ∈ str "https://" := by decide
      exact not_isBlank_of_colon (List.mem_append_left _ hcolon)
    exact normalizeSecureOriginText_eq_ok.2 ⟨_, urlAt host [slash], rfl, hblank, hle.trans hlength,
      readUrl_root hhost.1 hhost.2, normalizeSecureOrigin_urlAt hhost _⟩

/-- The origin of a URL may open windows. -/
theorem tryNormalizeOrigin_eq_some {s o : Str} (h : tryNormalizeOrigin readUrl s = some o) :
    ∃ host, IsUrlHost host ∧ o = str "https://" ++ host ∧
      length16 (str "https://" ++ host) ≤ maximumOriginInputLength := by
  unfold tryNormalizeOrigin at h
  split at h
  · cases h
  · rename_i hbound
    simp only [Bool.or_eq_true, decide_eq_true_eq, not_or, Nat.not_lt] at hbound
    split at h
    · cases h
    · rename_i u hread
      obtain ⟨host, rest, rfl, hhost, hle⟩ := host_of_read hread
      split at h
      · cases h
      · have horigin : str "https" ++ str "://" ++ ([] ++ host ++ []) = o := Option.some.inj h
        rw [List.nil_append, List.append_nil] at horigin
        exact ⟨host, hhost, horigin.symm, hle.trans hbound.1.1.2⟩

theorem settles_browser : browser.Settles where
  origins := normalizes_browser
  allowed s o h := by
    obtain ⟨host, hhost, rfl, hlength⟩ := tryNormalizeOrigin_eq_some h
    have hprint := printable_rootOf hhost
    have hblank : isBlank (str "https://" ++ host) = false := by
      have hcolon : colon ∈ str "https://" := by decide
      exact not_isBlank_of_colon (List.mem_append_left _ hcolon)
    have hcontrol : (str "https://" ++ host).any isControl = false := by
      rw [List.any_eq_false]
      intro c hc
      rw [not_isControl (hprint c hc)]
      exact Bool.false_ne_true
    have hread : browser.tryCreate (str "https://" ++ host) = some (urlAt host [slash]) :=
      readUrl_root hhost.1 hhost.2
    have hsecure : ¬ ((urlAt host [slash]).scheme ≠ str "https" ∨
        isBlank (urlAt host [slash]).host = true ∨ (urlAt host [slash]).userInfo ≠ []) := by
      have hnot : isBlank (urlAt host [slash]).host = false := not_isBlank_host hhost
      rw [hnot]
      rintro (hscheme | hbool | huser)
      · exact hscheme rfl
      · cases hbool
      · exact huser rfl
    have hlong : ¬ maximumOriginInputLength < length16 (str "https://" ++ host) := Nat.not_lt.2 hlength
    rw [tryNormalizeOrigin, hblank, hcontrol, trim_printable hprint, hread]
    simp only [hlong, decide_false, Bool.or_self, Bool.false_eq_true, ↓reduceIte, ne_eq, not_true_eq_false, hsecure]
    have horigin : str "https" ++ str "://" ++ ([] ++ host ++ []) = str "https://" ++ host := by
      rw [List.nil_append, List.append_nil]
      rfl
    exact congrArg some horigin
  startup u h := by
    have hread : readUrl defaultStartupUrl =
        some (urlAt (str "talktoai.org") (str "/zero-browser/")) := by rfl
    have hu : urlAt (str "talktoai.org") (str "/zero-browser/") = u :=
      Option.some.inj (hread.symm.trans h)
    rw [← hu]
    decide
  fullPath s p h := by
    have hpath : readPath s = some p := h
    unfold readPath at hpath
    split at hpath
    · cases hpath
    · rename_i hgood
      obtain rfl := Option.some.inj hpath
      rw [not_or, Bool.not_eq_true] at hgood
      refine ⟨hgood.1, hgood.2, if_neg ?_⟩
      rw [isBlank_sanitize, hgood.1, mem_sanitize (by decide)]
      exact fun h => h.elim Bool.false_ne_true hgood.2
  lower s _ := rfl
  timestamp v t h := by
    have hread : (if v = some visitedAt then v else none) = some t := h
    split at hread
    · rename_i hv
      obtain rfl : visitedAt = t := Option.some.inj (hv.symm.trans hread)
      exact ⟨Text.encodable_str _, rfl⟩
    · cases hread

end Sample

end ZsecShield.Browser
