import ZsecShield.Browser.LoginCompatibility
import ZsecShield.Browser.NeverSave
import ZsecShield.Lib.Recency

/-!
# Bookmarks, history and settings

`BrowserDataStore` keeps the data of the browser in one JSON file.  `Save` normalizes the data in
place before it writes them, and `Load` normalizes what it reads.  The URI parser, the serializer, the
reading of timestamps and `Path.GetFullPath` are parameters, `StatePlatform`.
-/

namespace ZsecShield.Browser

open Text (Str str CodePoint)
open Checks
open Recency

/-- The exceptions of the store. -/
inductive StateError where
  | workflow (e : WorkflowError)
  | invalidOperation (text : Str)
  | invalidData (text : Str)
  /-- Raised by `Path.GetFullPath`. -/
  | path
  /-- Raised by the serializer. -/
  | serializer

/-! ## The data -/

/-- `BrowserBookmark`. -/
structure Bookmark where
  title : Str
  url : Str
  createdAtUtc : Str
  deriving DecidableEq

/-- `BrowserHistoryEntry`. -/
structure HistoryEntry where
  title : Str
  url : Str
  visitedAtUtc : Str
  typedCount : Int
  deriving DecidableEq

/-- `BrowserSettings` with all its properties. -/
structure ProductSettings where
  startupMode : Str
  customStartupUrl : Str
  recordHistory : Bool
  clearHistoryOnExit : Bool
  showBookmarksBar : Bool
  minimizeToTray : Bool
  closeToTray : Bool
  askDownloadLocation : Bool
  downloadDirectory : Str
  nativeStrictMode : Bool
  blockYoutubeAds : Bool
  searchEngine : Str
  passwordSaveEnabled : Bool
  passwordAutofillEnabled : Bool
  passwordNeverSaveOrigins : List Str
  popupAllowedOrigins : List Str
  theme : Str
  accentColor : Str
  deriving DecidableEq

/-- `BrowserProductData`, as the browser holds it. -/
structure ProductData where
  schemaVersion : Int
  bookmarks : List Bookmark
  history : List HistoryEntry
  settings : ProductSettings
  deriving DecidableEq

/-- A bookmark as it is read, in which every text may be null. -/
structure RawBookmark where
  title : Option Str
  url : Option Str
  createdAtUtc : Option Str

structure RawHistoryEntry where
  title : Option Str
  url : Option Str
  visitedAtUtc : Option Str
  typedCount : Int

structure RawSettings where
  startupMode : Option Str
  customStartupUrl : Option Str
  recordHistory : Bool
  clearHistoryOnExit : Bool
  showBookmarksBar : Bool
  minimizeToTray : Bool
  closeToTray : Bool
  askDownloadLocation : Bool
  downloadDirectory : Option Str
  nativeStrictMode : Bool
  blockYoutubeAds : Bool
  searchEngine : Option Str
  passwordSaveEnabled : Bool
  passwordAutofillEnabled : Bool
  passwordNeverSaveOrigins : Option (List (Option Str))
  popupAllowedOrigins : Option (List (Option Str))
  theme : Option Str
  accentColor : Option Str

/-- Data as they are read, in which lists and their items may be null too. -/
structure RawData where
  schemaVersion : Int
  bookmarks : Option (List (Option RawBookmark))
  history : Option (List (Option RawHistoryEntry))
  settings : Option RawSettings

def Bookmark.raw (b : Bookmark) : RawBookmark := ⟨some b.title, some b.url, some b.createdAtUtc⟩

def HistoryEntry.raw (e : HistoryEntry) : RawHistoryEntry :=
  ⟨some e.title, some e.url, some e.visitedAtUtc, e.typedCount⟩

def ProductSettings.raw (s : ProductSettings) : RawSettings where
  startupMode := some s.startupMode
  customStartupUrl := some s.customStartupUrl
  recordHistory := s.recordHistory
  clearHistoryOnExit := s.clearHistoryOnExit
  showBookmarksBar := s.showBookmarksBar
  minimizeToTray := s.minimizeToTray
  closeToTray := s.closeToTray
  askDownloadLocation := s.askDownloadLocation
  downloadDirectory := some s.downloadDirectory
  nativeStrictMode := s.nativeStrictMode
  blockYoutubeAds := s.blockYoutubeAds
  searchEngine := some s.searchEngine
  passwordSaveEnabled := s.passwordSaveEnabled
  passwordAutofillEnabled := s.passwordAutofillEnabled
  passwordNeverSaveOrigins := some (s.passwordNeverSaveOrigins.map some)
  popupAllowedOrigins := some (s.popupAllowedOrigins.map some)
  theme := some s.theme
  accentColor := some s.accentColor

def ProductData.raw (d : ProductData) : RawData :=
  ⟨d.schemaVersion, some (d.bookmarks.map fun b => some b.raw),
    some (d.history.map fun e => some e.raw), some d.settings.raw⟩

/-- What the store takes from .NET. -/
structure StatePlatform extends WorkflowPlatform where
  /-- A UTF-16 unit in upper case, as `StringComparison.OrdinalIgnoreCase` takes it. -/
  upper : Nat → Nat
  /-- `value.ToLowerInvariant()`. -/
  toLowerInvariant : Str → Str
  /-- A text that `DateTimeOffset.TryParse` reads, as `yyyy-MM-ddTHH:mm:ssZ`. -/
  timestamp : Option Str → Option Str
  /-- `Path.GetFullPath`. -/
  fullPath : Str → Option Str
  /-- The downloads folder of the user profile. -/
  downloads : Str
  /-- `serializer.Serialize`; nothing beyond `MaxJsonLength`. -/
  serializeState : ProductData → Option Str
  /-- `serializer.Deserialize<BrowserProductData>`, which may give null. -/
  deserializeState : Str → Option (Option RawData)

/-! ## Texts -/

/-- `MaximumBookmarks`. -/
def maximumBookmarks : Nat := 1000

/-- `MaximumHistoryEntries`. -/
def maximumHistoryEntries : Nat := 5000

/-- `MaximumStateBytes`. -/
def maximumStateBytes : Nat := 4 * 1024 * 1024

def blank : CodePoint := Text.ofChar ' '

/-- `Environment.NewLine`. -/
def newLine : Str := [13, 10]

/-- What `StringComparison.OrdinalIgnoreCase` compares. -/
def ignoreCase (P : StatePlatform) (s : Str) : List Nat := (units s).map P.upper

/-- `value.Replace("  ", " ")`. -/
def replaceBlanks : Str → Str
  | [] => []
  | [c] => [c]
  | c :: d :: s =>
      if c = blank ∧ d = blank then blank :: replaceBlanks s else c :: replaceBlanks (d :: s)

/-- `while (value.Contains("  ")) value = value.Replace("  ", " ")`.  The loop ends within as many
turns as there are characters, and a further turn changes nothing. -/
def foldBlanks (s : Str) : Str := replaceBlanks^[s.length] s

/-- The line breaks and tabs of a title are blanks. -/
def replaceBreak (c : CodePoint) : CodePoint := if c.val = 13 ∨ c.val = 10 ∨ c.val = 9 then blank else c

/-- `NormalizeTitle`. -/
def normalizeTitle (title : Option Str) (fallback : Str) : Str :=
  let value := if isBlank (title.getD []) then fallback else trimOf isWhiteSpace (title.getD [])
  take16 240 (foldBlanks (value.map replaceBreak))

/-- `NormalizeTimestamp` at a time. -/
def normalizeTimestamp (P : StatePlatform) (now : Str) (value : Option Str) : Str :=
  (P.timestamp value).getD now

/-- `TryNormalizeWebUrl`. -/
def tryNormalizeWebUrl (P : StatePlatform) (candidate : Option Str) : Option Url :=
  if isBlank (candidate.getD []) = true ∨ 4096 < length16 (candidate.getD []) then none
  else
    match P.tryCreate (trimOf isWhiteSpace (candidate.getD [])) with
    | none => none
    | some value =>
        if value.scheme ≠ str "https" ∧ value.scheme ≠ str "http" then none
        else if isBlank value.host = true then none
        else some value

/-! ## Settings -/

/-- `BrowserSearchProviders.NormalizeKey`. -/
def normalizeKey (P : StatePlatform) (candidate : Option Str) : Str :=
  let keys := texts ["brave", "duckduckgo", "startpage", "qwant", "ecosia", "bing", "google"]
  (keys.find? fun key =>
    candidate.any fun c => decide (ignoreCase P key = ignoreCase P c)).getD (str "brave")

/-- The key of a palette, and a default where there is none. -/
def paletteKey (P : StatePlatform) (keys : List String) (default : String) (value : Option Str) :
    Str :=
  let key := P.toLowerInvariant (trimOf isWhiteSpace (value.getD []))
  if key ∈ texts keys then key else str default

/-- `BrowserThemePalette.NormalizeTheme`. -/
def normalizeTheme (P : StatePlatform) (value : Option Str) : Str :=
  paletteKey P ["soft_dark", "slate", "midnight"] "soft_dark" value

/-- `BrowserThemePalette.NormalizeAccent`. -/
def normalizeAccent (P : StatePlatform) (value : Option Str) : Str :=
  paletteKey P ["teal", "blue", "violet", "amber"] "teal" value

/-- The startup mode of the settings. -/
def normalizeMode (P : StatePlatform) (value : Option Str) : Str :=
  paletteKey P ["home", "new_tab", "custom"] "home" value

/-- `BrowserPopupPolicy.MaximumAllowedOrigins`. -/
def maximumAllowedOrigins : Nat := 100

/-- The loop of `NormalizeAllowedOrigins`. -/
def collectAllowed (P : StatePlatform) (result : List Str) : List (Option Str) → List Str
  | [] => result
  | value :: values =>
      match tryNormalizeOrigin P.tryCreate (value.getD []) with
      | none => collectAllowed P result values
      | some origin =>
          if ignoreCase P origin ∈ result.map (ignoreCase P) then collectAllowed P result values
          else if maximumAllowedOrigins ≤ (result ++ [origin]).length then result ++ [origin]
          else collectAllowed P (result ++ [origin]) values

/-- `OrderBy(value => value, StringComparer.OrdinalIgnoreCase)`. -/
def orderIgnoreCase (P : StatePlatform) (values : List Str) : List Str :=
  values.insertionSort fun a b => ignoreCase P a ≤ ignoreCase P b

/-- `BrowserPopupPolicy.NormalizeAllowedOrigins`. -/
def normalizeAllowedOrigins (P : StatePlatform) (values : Option (List (Option Str))) : List Str :=
  orderIgnoreCase P (collectAllowed P [] (values.getD []))

def defaultStartupUrl : Str := str "https://talktoai.org/zero-browser/"

/-- The custom startup URL of the settings. -/
def normalizeStartupUrl (P : StatePlatform) (value : Option Str) : Str :=
  match tryNormalizeWebUrl P value with
  | some custom => if custom.scheme = str "https" then custom.text else defaultStartupUrl
  | none => defaultStartupUrl

/-- The download directory of the settings. -/
def normalizeDownloads (P : StatePlatform) (value : Option Str) : Except StateError Str :=
  let downloads := value.getD []
  fromOption (P.fullPath (if isBlank downloads = true ∨ Text.ofChar '"' ∈ downloads then P.downloads
    else downloads)) .path

/-- `NormalizeSettings`.  `NormalizeNeverSaveOrigins` refuses a null as it refuses the empty text. -/
def normalizeSettings (P : StatePlatform) (s : RawSettings) : Except StateError ProductSettings := do
  let downloadDirectory ← normalizeDownloads P s.downloadDirectory
  let neverSave ← (normalizeNeverSaveOrigins P.toWorkflowPlatform
    (s.passwordNeverSaveOrigins.map fun values => values.map fun value => value.getD [])).mapError
      .workflow
  pure {
    startupMode := normalizeMode P s.startupMode
    customStartupUrl := normalizeStartupUrl P s.customStartupUrl
    recordHistory := s.recordHistory
    clearHistoryOnExit := s.clearHistoryOnExit
    showBookmarksBar := s.showBookmarksBar
    minimizeToTray := s.minimizeToTray
    closeToTray := s.closeToTray
    askDownloadLocation := s.askDownloadLocation
    downloadDirectory
    nativeStrictMode := s.nativeStrictMode
    blockYoutubeAds := s.blockYoutubeAds
    searchEngine := normalizeKey P s.searchEngine
    passwordSaveEnabled := s.passwordSaveEnabled
    passwordAutofillEnabled := s.passwordAutofillEnabled
    passwordNeverSaveOrigins := neverSave
    popupAllowedOrigins := normalizeAllowedOrigins P s.popupAllowedOrigins
    theme := normalizeTheme P s.theme
    accentColor := normalizeAccent P s.accentColor }

/-- `BrowserSettings.CreateDefault`. -/
def defaultSettings (P : StatePlatform) : ProductSettings where
  startupMode := str "home"
  customStartupUrl := defaultStartupUrl
  recordHistory := true
  clearHistoryOnExit := false
  showBookmarksBar := true
  minimizeToTray := true
  closeToTray := false
  askDownloadLocation := true
  downloadDirectory := P.downloads
  nativeStrictMode := false
  blockYoutubeAds := true
  searchEngine := str "brave"
  passwordSaveEnabled := false
  passwordAutofillEnabled := false
  passwordNeverSaveOrigins := []
  popupAllowedOrigins := []
  theme := str "soft_dark"
  accentColor := str "teal"

/-- `BrowserProductData.CreateDefault`. -/
def createDefault (P : StatePlatform) : ProductData := ⟨3, [], [], defaultSettings P⟩

/-! ## Normal forms -/

/-- `NormalizeBookmark`. -/
def normalizeBookmark (P : StatePlatform) (now : Str) (item : RawBookmark) : Option Bookmark :=
  (tryNormalizeWebUrl P item.url).map fun parsed =>
    ⟨normalizeTitle item.title parsed.host, parsed.text, normalizeTimestamp P now item.createdAtUtc⟩

/-- `NormalizeHistory`. -/
def normalizeHistory (P : StatePlatform) (now : Str) (item : RawHistoryEntry) : Option HistoryEntry :=
  (tryNormalizeWebUrl P item.url).map fun parsed =>
    ⟨normalizeTitle item.title parsed.host, parsed.text, normalizeTimestamp P now item.visitedAtUtc,
      max 0 item.typedCount⟩

/-- The bookmarks that `Normalize` keeps. -/
def keptBookmarks (P : StatePlatform) (now : Str) (items : List (Option RawBookmark)) :
    List Bookmark :=
  (firstOfEach (fun b : Bookmark => ignoreCase P b.url)
    (items.filterMap fun item => item.bind (normalizeBookmark P now))).take maximumBookmarks

/-- The history that `Normalize` keeps. -/
def keptHistory (P : StatePlatform) (now : Str) (items : List (Option RawHistoryEntry)) :
    List HistoryEntry :=
  (items.filterMap fun item => item.bind (normalizeHistory P now)).take maximumHistoryEntries

/-- The settings of the data, in which an old schema turns the protection on. -/
def legacySettings (P : StatePlatform) (data : RawData) : RawSettings :=
  match data.settings with
  | none => (defaultSettings P).raw
  | some s => if data.schemaVersion < 2 then { s with blockYoutubeAds := true } else s

/-- `Normalize` at a time. -/
def normalizeData (P : StatePlatform) (now : Str) (data : Option RawData) :
    Except StateError ProductData := do
  let data := data.getD (createDefault P).raw
  let settings ← normalizeSettings P (legacySettings P data)
  pure ⟨3, keptBookmarks P now (data.bookmarks.getD []), keptHistory P now (data.history.getD []),
    settings⟩

/-! ## The file -/

/-- What `Save` writes of normalized data. -/
def writeState (P : StatePlatform) (d : ProductData) : Except StateError Bytes := do
  let json ← fromOption (P.serializeState d) .serializer
  let bytes := getBytes (json ++ newLine)
  require (bytes.length ≤ maximumStateBytes)
    (.invalidOperation (str "The ZSEC browser data file exceeds its safety bound."))
  pure bytes

/-- What a call leaves: its result, the data in memory, and what the write of `Save` gave, if the
call saves. -/
structure Outcome (α : Type) where
  result : α
  data : ProductData
  written : Option (Except StateError Bytes)

/-- `Save` of the data in memory, and the result of the caller once it has returned. -/
def saveState {α : Type} (P : StatePlatform) (now : Str) (data : RawData) (result : α) :
    Except StateError (Outcome α) := do
  let normalized ← normalizeData P now (some data)
  pure ⟨result, normalized, some (writeState P normalized)⟩

/-- The call did what it has to: if it saved, the file was written. -/
def Outcome.Succeeded {α : Type} (o : Outcome α) : Prop :=
  ∀ written, o.written = some written → ∃ bytes, written = .ok bytes

/-- `Load` of the file, at a time; there may be none. -/
def loadState (P : StatePlatform) (now : Str) (file : Option Bytes) :
    Except StateError ProductData :=
  match file with
  | none => .ok (createDefault P)
  | some bytes => do
      require (0 < bytes.length ∧ bytes.length ≤ maximumStateBytes)
        (.invalidData (str "The ZSEC browser data file has an invalid size."))
      let data ← fromOption (P.deserializeState (readAllText P.toVaultPlatform bytes)) .serializer
      normalizeData P now data

/-! ## Changes -/

/-- `AddBookmark` at a time. -/
def addBookmark (P : StatePlatform) (now : Str) (data : ProductData) (title url : Option Str) :
    Except StateError (Outcome Bool) :=
  match tryNormalizeWebUrl P url with
  | none => .ok ⟨false, data, none⟩
  | some parsed =>
      let isSame (item : Bookmark) : Bool :=
        decide (ignoreCase P item.url = ignoreCase P parsed.text)
      let safeTitle := normalizeTitle title parsed.host
      match data.bookmarks.findIdx? isSame with
      | some index =>
          let changed := data.bookmarks.modify index fun item => { item with title := safeTitle }
          saveState P now { data with bookmarks := changed }.raw false
      | none =>
          let added := (⟨safeTitle, parsed.text, now⟩ :: data.bookmarks).take maximumBookmarks
          saveState P now { data with bookmarks := added }.raw true

/-- `RemoveBookmark` at a time. -/
def removeBookmark (P : StatePlatform) (now : Str) (data : ProductData) (url : Option Str) :
    Except StateError (Outcome Bool) :=
  let rest := data.bookmarks.filter fun item =>
    !url.any fun u => decide (ignoreCase P item.url = ignoreCase P u)
  if rest.length < data.bookmarks.length then
    saveState P now { data with bookmarks := rest }.raw true
  else .ok ⟨false, data, none⟩

/-- A sum of the code's `int`. -/
def wrap32 (n : Int) : Int := n.bmod (2 ^ 32)

/-- `AddHistory` at a time. -/
def addHistory (P : StatePlatform) (now : Str) (data : ProductData) (title url : Option Str)
    (typed : Bool) : Except StateError (Outcome Unit) :=
  if data.settings.recordHistory = false then .ok ⟨(), data, none⟩
  else
    match tryNormalizeWebUrl P url with
    | none => .ok ⟨(), data, none⟩
    | some parsed =>
        let isSame (item : HistoryEntry) : Bool :=
          decide (ignoreCase P item.url = ignoreCase P parsed.text)
        let typedCount : Int := if typed then 1 else 0
        let typedCount := match data.history.find? isSame with
          | none => typedCount
          | some existing => wrap32 (typedCount + max 0 existing.typedCount)
        let entry := ⟨normalizeTitle title parsed.host, parsed.text, now, typedCount⟩
        let history := (entry :: data.history.eraseP isSame).take maximumHistoryEntries
        saveState P now { data with history }.raw ()

end ZsecShield.Browser
