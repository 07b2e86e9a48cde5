import ZsecShield.Browser.StateRun
import Mathlib.Algebra.Group.Action.Defs
import Mathlib.Algebra.Order.BigOperators.Group.List
import Mathlib.Algebra.Order.Group.Nat

/-!
# The size of the state

The limits on the entries and their texts give a bound on the bytes of the data (`weight_saved`), which
is far above `MaximumStateBytes`: 5000 entries may have URLs of 4096 characters.
-/

namespace ZsecShield.Browser

open Text (Str str CodePoint utf8Size)
open Checks
open Recency

/-! ## A bound from the lengths -/

/-- The bytes of a text in JSON: at most six for a character, in quotation marks. -/
def textWeight (s : Str) : Nat := 6 * length16 s + 2

/-- The bytes of an entry with the names of its members and the comma behind it. -/
def Bookmark.weight (b : Bookmark) : Nat :=
  textWeight b.title + textWeight b.url + textWeight b.createdAtUtc + 35

def HistoryEntry.weight (e : HistoryEntry) : Nat :=
  textWeight e.title + textWeight e.url + textWeight e.visitedAtUtc + 60

def namesWeight (values : List Str) : Nat := (values.map fun value => textWeight value + 1).sum

def ProductSettings.weight (s : ProductSettings) : Nat :=
  textWeight s.startupMode + textWeight s.customStartupUrl + textWeight s.downloadDirectory +
    textWeight s.searchEngine + textWeight s.theme + textWeight s.accentColor +
    namesWeight s.passwordNeverSaveOrigins + namesWeight s.popupAllowedOrigins + 500

def ProductData.weight (d : ProductData) : Nat :=
  (d.bookmarks.map Bookmark.weight).sum + (d.history.map HistoryEntry.weight).sum +
    d.settings.weight + 100

/-- What the size relies on.  The serializer writes data that fit, a path of Windows has at most 32767
characters and a timestamp 20, and the path of the downloads is a path. -/
structure StatePlatform.Sizes (P : StatePlatform) : Prop where
  serializes : ∀ d : ProductData, d.HasInts → d.weight ≤ maximumStateBytes →
    ∃ s, P.serializeState d = some s ∧ (getBytes (s ++ newLine)).length ≤ d.weight
  timestamp : ∀ v t, P.timestamp v = some t → length16 t ≤ 20
  downloads : ∃ p, P.fullPath P.downloads = some p ∧ Text.Encodable p ∧ length16 p ≤ 32767

variable {P : StatePlatform}

/-! ## The settings -/

theorem normalizeStartupUrl_default (hP : P.Assumed) (hN : P.Settles) :
    normalizeStartupUrl P (some defaultStartupUrl) = defaultStartupUrl := by
  have hnone : normalizeStartupUrl P none = defaultStartupUrl := rfl
  have hlength : length16 defaultStartupUrl ≤ 4096 := by decide
  have hsame := normalizeStartupUrl_sanitize hP hN none
  have hprint := printable_normalizeStartupUrl hP none
  rw [hnone] at hsame hprint
  rw [sanitize_of_printable hprint] at hsame
  exact hsame.2 hlength

theorem length16_of_mem {keys : List String} {k : Str} (hk : k ∈ texts keys)
    (h : (texts keys).all (fun k => decide (length16 k ≤ 16)) = true) : textWeight k ≤ 98 := by
  have hlength : length16 k ≤ 16 := of_decide_eq_true (List.all_eq_true.1 h k hk)
  rw [textWeight]
  omega

/-- The default settings have a normal form, which is its own, and short texts apart from a path. -/
theorem settled_default (hP : P.Assumed) (hN : P.Settles) (hZ : P.Sizes) :
    ∃ normal, Settled P normal ∧ normal.weight ≤ 198000 := by
  obtain ⟨p, hp, hencodable, hlength⟩ := hZ.downloads
  have hdownloads : normalizeDownloads P (some P.downloads) = .ok p := by
    rw [normalizeDownloads, Option.getD_some, ite_self, hp]
    rfl
  obtain ⟨normal, hform⟩ : ∃ normal, normal = ProductSettings.mk (normalizeMode P (some (str "home")))
    (normalizeStartupUrl P (some defaultStartupUrl)) true false true true false true p false true
    (normalizeKey P (some (str "brave"))) false false [] [] (normalizeTheme P (some (str "soft_dark")))
    (normalizeAccent P (some (str "teal"))) := ⟨_, rfl⟩
  have hnormal : normalizeSettings P (defaultSettings P).raw = .ok normal :=
    normalizeSettings_eq_ok.2 ⟨p, [], hdownloads, rfl, hform⟩
  have hstartup : normal.customStartupUrl = defaultStartupUrl := by
    rw [hform]
    exact normalizeStartupUrl_default hP hN
  have hpath : normal.downloadDirectory = p := congrArg ProductSettings.downloadDirectory hform
  refine ⟨normal, ⟨hnormal, ?_⟩, ?_⟩
  · obtain ⟨again, hagain, hsame⟩ := again_normalizeSettings hP hN hnormal
    have hself : normal.written = normal := by
      rw [written_normalizeSettings hP hN hnormal, hpath, sanitize_eq_iff.2 hencodable, ← hpath]
    rw [hself, hsame.2 ⟨by rw [hstartup]; decide, by rw [hpath]; exact hencodable⟩] at hagain
    exact hagain
  · have hmode := length16_of_mem (normalizeMode_mem (P := P) (some (str "home"))) (by decide)
    have hkey := length16_of_mem (normalizeKey_mem (P := P) (some (str "brave"))) (by decide)
    have htheme := length16_of_mem (normalizeTheme_mem (P := P) (some (str "soft_dark"))) (by decide)
    have haccent := length16_of_mem (normalizeAccent_mem (P := P) (some (str "teal"))) (by decide)
    have hdefault : textWeight normal.customStartupUrl = 206 := by
      rw [hstartup]
      decide
    have hwhole : normal.weight = textWeight (normalizeMode P (some (str "home"))) +
        textWeight normal.customStartupUrl + textWeight p +
        textWeight (normalizeKey P (some (str "brave"))) +
        textWeight (normalizeTheme P (some (str "soft_dark"))) +
        textWeight (normalizeAccent P (some (str "teal"))) + 0 + 0 + 500 := by
      rw [hform]
      rfl
    rw [hwhole, hdefault, textWeight.eq_def p]
    omega

/-! ## The entries -/

theorem weight_entry {title url time : Str} (hZ : P.Sizes) (h : Stored.Entry P title url time)
    (hurl : length16 url ≤ 4096) :
    textWeight title + textWeight url + textWeight time ≤ 26142 := by
  have htitle := h.title.length
  have htime := hZ.timestamp _ _ h.time.2
  simp only [textWeight]
  omega

theorem sum_weight_le {α : Type} {weight : α → Nat} {bound : Nat} {l : List α}
    (h : ∀ a ∈ l, weight a ≤ bound) : (l.map weight).sum ≤ l.length * bound := by
  have hsum := List.sum_le_card_nsmul (l.map weight) bound (List.forall_mem_map.2 h)
  rwa [List.length_map, smul_eq_mul] at hsum

/-- A URL that has a normal form is within the bound. -/
theorem length_of_normalizeBookmark {now : Str} {b b' : Bookmark} (h : b.IsWeb P)
    (hb : normalizeBookmark P now b.raw = some b') : length16 b'.url ≤ 4096 := by
  rcases @Bookmark.IsWeb.normalize P now b h with ⟨hlength, c, hc, hurl⟩ | ⟨-, hnone⟩
  · obtain rfl := Option.some.inj (hc.symm.trans hb)
    exact hurl ▸ hlength
  · cases hnone.symm.trans hb

theorem length_of_normalizeHistory {now : Str} {e e' : HistoryEntry} (h : e.IsWeb P)
    (he : normalizeHistory P now e.raw = some e') : length16 e'.url ≤ 4096 := by
  rcases @HistoryEntry.IsWeb.normalize P now e h with ⟨hlength, c, hc, hurl, -⟩ | ⟨-, hnone⟩
  · obtain rfl := Option.some.inj (hc.symm.trans he)
    exact hurl ▸ hlength
  · cases hnone.symm.trans he

/-- Data that were saved are as large as the number of their entries allows. -/
theorem weight_saved (hP : P.Assumed) (hN : P.Settles) (hZ : P.Sizes) {now : Str}
    (hnow : P.timestamp (some now) = some now) {d n : ProductData} (hd : Canonical P d)
    (hn : normalizeData P now (some d.raw) = .ok n) :
    n.weight ≤ (n.bookmarks.length + n.history.length) * 26202 + n.settings.weight + 100 := by
  obtain ⟨settings, -, hdata⟩ := normalizeData_raw_eq_ok.1 hn
  have hbookmarks : ∀ b ∈ n.bookmarks, b.weight ≤ 26202 := by
    intro b hb
    rw [hdata] at hb
    obtain ⟨b₀, hb₀, hb⟩ := mem_keptBookmarks_raw hb
    have hweight := weight_entry hZ (stored_normalizeBookmark hP hN hnow hb)
      (length_of_normalizeBookmark (hd.bookmarks b₀ hb₀) hb)
    rw [Bookmark.weight]
    omega
  have hhistory : ∀ e ∈ n.history, e.weight ≤ 26202 := by
    intro e he
    rw [hdata] at he
    obtain ⟨e₀, he₀, he⟩ := mem_keptHistory_raw he
    have hweight := weight_entry hZ (stored_normalizeHistory hP hN hnow he).1
      (length_of_normalizeHistory (hd.history e₀ he₀).1 he)
    rw [HistoryEntry.weight]
    omega
  have hsum := sum_weight_le hbookmarks
  have hsum' := sum_weight_le hhistory
  rw [ProductData.weight]
  omega

/-! ## Saves -/

/-- The serialized data are within the bound. -/
def Fits (P : StatePlatform) (d : ProductData) : Prop :=
  ∃ s, P.serializeState d = some s ∧ (getBytes (s ++ newLine)).length ≤ maximumStateBytes

theorem fits_iff {d : ProductData} : Fits P d ↔ ∃ bytes, writeState P d = .ok bytes := by
  constructor
  · rintro ⟨s, hs, hbound⟩
    exact ⟨_, writeState_eq_ok.2 ⟨s, hs, hbound, rfl⟩⟩
  · rintro ⟨bytes, hbytes⟩
    obtain ⟨s, hs, hbound, -⟩ := writeState_eq_ok.1 hbytes
    exact ⟨s, hs, hbound⟩

/-! ## The bytes of the sample -/

namespace Sample

variable {level : Nat}

/-- What is written for a character takes at most six bytes. -/
theorem size_escape_le (c : CodePoint) : utf8Size (Json.escape .canonical c) ≤ 6 := by
  have hascii : Json.Style.canonical.ensureAscii = false := rfl
  by_cases hsmall : c.val < 128
  · have hall : Json.Ascii (Json.escape .canonical c) :=
      Json.AllOf.escape (Q := fun d => d.val < 128) (fun _ _ h => h) .canonical (c := c) (fun _ => hsmall)
    have hescape (n : Nat) : (Json.unicodeEscape n).length = 6 := rfl
    rw [hall.utf8Size, Json.escape, hascii, Bool.false_and, if_neg Bool.false_ne_true]
    split_ifs <;> first | exact (hescape _).le | simp only [List.length_cons, List.length_nil] ; omega
  · have hquote : (Text.ofChar '"').val = 34 ∧ (Text.ofChar '\\').val = 92 := ⟨rfl, rfl⟩
    have hself : Json.escape .canonical c = [c] := by
      have hno : ¬ (decide (c = Text.ofChar '"') || decide (c = Text.ofChar '\\')) = true := by
        rw [Bool.or_eq_true, decide_eq_true_eq, decide_eq_true_eq]
        rintro (rfl | rfl)
        · omega
        · omega
      rw [Json.escape, hascii, Bool.false_and, if_neg Bool.false_ne_true, if_neg hno,
        if_neg (by omega), if_neg (by omega), if_neg (by omega), if_neg (by omega),
        if_neg (by omega), if_neg (by omega)]
    rw [hself, Text.utf8Size_cons, Text.utf8Size_nil, Text.pointSize]
    split_ifs <;> omega

/-- A text in JSON takes no more than its weight. -/
theorem size_quote (s : Str) : utf8Size (Json.quote .canonical s) ≤ textWeight s := by
  have hbody : utf8Size (s.flatMap (Json.escape .canonical)) ≤ 6 * length16 s := by
    induction s with
    | nil => exact Nat.le_refl 0
    | cons c s ih =>
        have hc := size_escape_le c
        rw [List.flatMap_cons, Text.utf8Size_append, length16_cons]
        split <;> omega
  have hmark : Text.pointSize (Text.ofChar '"') = 1 := rfl
  rw [Json.quote, Text.utf8Size_cons, Text.utf8Size_append, Text.utf8Size_cons, Text.utf8Size_nil,
    hmark, textWeight]
  omega

theorem size_str (s : Str) :
    utf8Size (Json.layout .canonical level (.str s)) ≤ textWeight s := size_quote s

theorem size_int {n : Int} (h : IsInt n) : utf8Size (Text.intText n) ≤ 11 := by
  have hsize : n.natAbs < 10 ^ 10 := by
    obtain ⟨hlow, hhigh⟩ := h
    omega
  have hdigits := (Text.length_digits_le_iff (k := 10) (by omega)).2 hsize
  rw [(Json.ascii_intText n).utf8Size, Text.intText]
  split
  · rw [List.length_append]
    have hsign : (str "-").length = 1 := rfl
    omega
  · omega

/-- An object whose keys need no escapes: each member has a colon, quotation marks and the comma. -/
theorem size_obj (level : Nat) (keys : List String)
    (hkeys : keys.all (fun key => (str key).all fun c => decide (Json.Literal c)) = true)
    {values : List Json} {weights : List Nat}
    (h : List.Forall₂ (fun v n => utf8Size (Json.layout .canonical (level + 1) v) ≤ n) values
      weights) :
    utf8Size (Json.layout .canonical level (.obj ((keys.zip values).map fun m => (str m.1, m.2)))) ≤
      2 + ((keys.map fun key => (str key).length + 4).sum + weights.sum) := by
  have hbreak (n : Nat) : Json.breakSize .canonical n = 0 := rfl
  have hseparator : utf8Size Json.Style.canonical.keySeparator = 1 := rfl
  have hitems : Json.itemsSize .canonical (level + 1)
      (((keys.zip values).map fun m => (str m.1, m.2)).map fun m =>
        utf8Size (Json.layoutMember .canonical (level + 1) m)) ≤
      (keys.map fun key => (str key).length + 4).sum + weights.sum := by
    induction h generalizing keys with
    | nil => 
        rw [List.zip_nil_right]
        exact Nat.zero_le _
    | cons hv _ ih =>
        cases keys with
        | nil => exact Nat.zero_le _
        | cons key keys =>
            rw [List.all_cons, Bool.and_eq_true] at hkeys
            have hliteral := fun c hc => of_decide_eq_true (List.all_eq_true.1 hkeys.1 c hc)
            have hrest := ih keys hkeys.2
            simp only [Json.itemsSize, List.zip_cons_cons, List.map_cons, List.sum_cons, hbreak] at hrest ⊢
            rw [Json.utf8Size_member .canonical (level + 1) hliteral, hseparator]
            omega
  have hblock := Json.blockSize_le .canonical level
    (((keys.zip values).map fun m => (str m.1, m.2)).map fun m =>
      utf8Size (Json.layoutMember .canonical (level + 1) m))
  rw [Json.utf8Size_obj]
  rw [hbreak] at hblock
  omega

theorem size_arr {α : Type} (write : α → Json) (weight : α → Nat) (l : List α)
    (h : ∀ a ∈ l, utf8Size (Json.layout .canonical (level + 1) (write a)) + 1 ≤ weight a) :
    utf8Size (Json.layout .canonical level (.arr (l.map write))) ≤ 2 + (l.map weight).sum := by
  have hbreak (n : Nat) : Json.breakSize .canonical n = 0 := rfl
  have hblock := Json.blockSize_le .canonical level
    ((l.map write).map fun e => utf8Size (Json.layout .canonical (level + 1) e))
  have hitems : Json.itemsSize .canonical (level + 1)
      ((l.map write).map fun e => utf8Size (Json.layout .canonical (level + 1) e)) ≤
        (l.map weight).sum := by
    rw [Json.itemsSize, List.map_map, List.map_map]
    exact List.sum_le_sum h
  rw [Json.utf8Size_arr]
  rw [hbreak] at hblock
  omega

theorem size_bookmarkJson (b : Bookmark) :
    utf8Size (Json.layout .canonical level (bookmarkJson b)) + 1 ≤ b.weight := by
  have hmembers := size_obj level ["Title", "Url", "CreatedAtUtc"] (by decide)
    (.cons (size_str b.title) (.cons (size_str b.url) (.cons (size_str b.createdAtUtc) .nil)))
  have hkeys : (["Title", "Url", "CreatedAtUtc"].map fun key => (str key).length + 4).sum = 32 := by
    decide
  rw [hkeys] at hmembers
  simp only [List.sum_cons, List.sum_nil] at hmembers
  have heq : bookmarkJson b = .obj ((["Title", "Url", "CreatedAtUtc"].zip
    [.str b.title, .str b.url, .str b.createdAtUtc]).map fun m => (str m.1, m.2)) := rfl
  rw [heq, Bookmark.weight]
  omega

theorem size_historyJson {e : HistoryEntry} (h : IsInt e.typedCount) :
    utf8Size (Json.layout .canonical level (historyJson e)) + 1 ≤ e.weight := by
  have hcount : utf8Size (Json.layout .canonical (level + 1) (.int e.typedCount)) ≤ 11 := size_int h
  have hmembers := size_obj level ["Title", "Url", "VisitedAtUtc", "TypedCount"] (by decide)
    (.cons (size_str e.title) (.cons (size_str e.url) (.cons (size_str e.visitedAtUtc)
      (.cons hcount .nil))))
  have hkeys : (["Title", "Url", "VisitedAtUtc", "TypedCount"].map fun key =>
      (str key).length + 4).sum = 46 := by
    decide
  rw [hkeys] at hmembers
  simp only [List.sum_cons, List.sum_nil] at hmembers
  have heq : historyJson e = .obj ((["Title", "Url", "VisitedAtUtc", "TypedCount"].zip
    [.str e.title, .str e.url, .str e.visitedAtUtc, .int e.typedCount]).map
      fun m => (str m.1, m.2)) := rfl
  rw [heq, HistoryEntry.weight]
  omega

theorem size_bool (b : Bool) : utf8Size (Json.layout .canonical level (.bool b)) ≤ 5 := by
  have hboth : ∀ b : Bool, utf8Size (str (if b then "true" else "false")) ≤ 5 := by decide
  exact hboth b

theorem size_names (values : List Str) :
    utf8Size (Json.layout .canonical level (.arr (values.map .str))) ≤ 2 + namesWeight values :=
  size_arr .str (fun value => textWeight value + 1) values fun value _ =>
    Nat.add_le_add_right (size_str value) 1

/-- The names of the settings, in their order. -/
def settingsKeys : List String :=
  ["StartupMode", "CustomStartupUrl", "RecordHistory", "ClearHistoryOnExit", "ShowBookmarksBar",
    "MinimizeToTray", "CloseToTray", "AskDownloadLocation", "DownloadDirectory", "NativeStrictMode",
    "BlockYoutubeAds", "SearchEngine", "PasswordSaveEnabled", "PasswordAutofillEnabled",
    "PasswordNeverSaveOrigins", "PopupAllowedOrigins", "Theme", "AccentColor"]

theorem size_settingsJson (s : ProductSettings) :
    utf8Size (Json.layout .canonical level (settingsJson s)) + 1 ≤ s.weight := by
  have hmembers := size_obj level settingsKeys (by decide)
    (.cons (size_str s.startupMode) (.cons (size_str s.customStartupUrl)
    (.cons (size_bool s.recordHistory) (.cons (size_bool s.clearHistoryOnExit)
    (.cons (size_bool s.showBookmarksBar) (.cons (size_bool s.minimizeToTray)
    (.cons (size_bool s.closeToTray) (.cons (size_bool s.askDownloadLocation)
    (.cons (size_str s.downloadDirectory) (.cons (size_bool s.nativeStrictMode)
    (.cons (size_bool s.blockYoutubeAds) (.cons (size_str s.searchEngine)
    (.cons (size_bool s.passwordSaveEnabled) (.cons (size_bool s.passwordAutofillEnabled)
    (.cons (size_names s.passwordNeverSaveOrigins) (.cons (size_names s.popupAllowedOrigins)
    (.cons (size_str s.theme) (.cons (size_str s.accentColor) .nil))))))))))))))))))
  have hkeys : (settingsKeys.map fun key => (str key).length + 4).sum = 351 := by
    decide
  rw [hkeys] at hmembers
  simp only [List.sum_cons, List.sum_nil] at hmembers
  have hsize : utf8Size (Json.layout .canonical level (settingsJson s)) ≤ _ := hmembers
  rw [ProductSettings.weight]
  omega

theorem size_stateJson {d : ProductData} (h : d.HasInts) :
    utf8Size (compact (stateJson d)) + 2 ≤ d.weight := by
  have hversion : utf8Size (Json.layout .canonical 1 (.int d.schemaVersion)) ≤ 11 := size_int h.1
  have hsettings : utf8Size (Json.layout .canonical 1 (settingsJson d.settings)) ≤ d.settings.weight :=
    Nat.le_of_succ_le (size_settingsJson d.settings)
  have hmembers := size_obj 0 ["SchemaVersion", "Bookmarks", "History", "Settings"]
    (by decide)
    (.cons hversion (.cons (size_arr bookmarkJson Bookmark.weight d.bookmarks
        fun b _ => size_bookmarkJson b)
      (.cons (size_arr historyJson HistoryEntry.weight d.history fun e he => size_historyJson (h.2 e he))
        (.cons hsettings .nil))))
  have hkeys : (["SchemaVersion", "Bookmarks", "History", "Settings"].map fun key =>
      (str key).length + 4).sum = 53 := by
    decide
  rw [hkeys] at hmembers
  simp only [List.sum_cons, List.sum_nil] at hmembers
  have hsize : utf8Size (compact (stateJson d)) ≤ _ := hmembers
  rw [ProductData.weight]
  omega

/-! ## The platform -/

theorem length16_le_utf8Size (s : Str) : length16 s ≤ utf8Size s := by
  induction s with
  | nil => exact Nat.le_refl 0
  | cons c s ih =>
      rw [length16_cons, Text.utf8Size_cons, Text.pointSize]
      split_ifs <;> omega

/-- The bytes of the data, which are read back as the text of `ProductData.written`. -/
theorem length_stateBytes (d : ProductData) :
    (getBytes (compact (stateJson d) ++ newLine)).length =
      utf8Size (compact (stateJson d.written)) + 2 := by
  have hreplaced : sanitize (compact (stateJson d)) = compact (stateJson d.written) :=
    replaced_stateJson d 0
  have hbreak : sanitize newLine = newLine := rfl
  rw [length_getBytes_sanitize, sanitize_append, hreplaced, hbreak, Text.utf8Size_append]
  rfl

theorem weight_written (d : ProductData) : d.written.weight = d.weight := by
  have htext (s : Str) : textWeight (sanitize s) = textWeight s := by
    rw [textWeight, length16_sanitize, textWeight]
  have hbookmark (b : Bookmark) : b.written.weight = b.weight := by
    simp only [Bookmark.weight, Bookmark.written, htext]
  have hentry (e : HistoryEntry) : e.written.weight = e.weight := by
    simp only [HistoryEntry.weight, HistoryEntry.written, htext]
  have hnames (values : List Str) : namesWeight (values.map sanitize) = namesWeight values := by
    rw [namesWeight, List.map_map, namesWeight]
    exact congrArg List.sum (List.map_congr_left fun s _ => congrArg (· + 1) (htext s))
  have hsettings (s : ProductSettings) : s.written.weight = s.weight := by
    simp only [ProductSettings.weight, ProductSettings.written, htext, hnames]
  simp only [ProductData.weight, ProductData.written, List.map_map, hsettings]
  congr 3
  · exact congrArg List.sum (List.map_congr_left fun b _ => hbookmark b)
  · exact congrArg List.sum (List.map_congr_left fun e _ => hentry e)

theorem hasInts_written {d : ProductData} (h : d.HasInts) : d.written.HasInts :=
  ⟨h.1, List.forall_mem_map.2 fun e he => h.2 e he⟩

theorem sizes_browser : browser.Sizes where
  serializes d hints hweight := by
    have hsize := size_stateJson hints
    have hwritten := size_stateJson (hasInts_written hints)
    have hlength := length16_le_utf8Size (compact (stateJson d))
    refine ⟨_, if_pos ⟨hints, by omega⟩, ?_⟩
    rw [length_stateBytes, ← weight_written d]
    exact hwritten
  timestamp v t h := by
    have hread : (if v = some visitedAt then v else none) = some t := h
    split at hread
    · rename_i hv
      obtain rfl : visitedAt = t := Option.some.inj (hv.symm.trans hread)
      decide
    · cases hread
  downloads := ⟨str "C:\\Users\\me\\Downloads", by decide, Text.encodable_str _, by decide⟩

end Sample

end ZsecShield.Browser
