import ZsecShield.Browser.Titles

/-!
# Settings that were normalized

Each of the settings that `NormalizeSettings` gives is its own normal form, also after its unpaired
surrogates are replaced in the file: the keys of the palettes, the origins and the URL, if it is within
the bound, are texts in ASCII, and the path of the downloads stays a path (`again_normalizeSettings`).
-/

namespace ZsecShield.Browser

open Text (Str str CodePoint)
open Checks

def ProductSettings.written (s : ProductSettings) : ProductSettings where
  startupMode := sanitize s.startupMode
  customStartupUrl := sanitize s.customStartupUrl
  recordHistory := s.recordHistory
  clearHistoryOnExit := s.clearHistoryOnExit
  showBookmarksBar := s.showBookmarksBar
  minimizeToTray := s.minimizeToTray
  closeToTray := s.closeToTray
  askDownloadLocation := s.askDownloadLocation
  downloadDirectory := sanitize s.downloadDirectory
  nativeStrictMode := s.nativeStrictMode
  blockYoutubeAds := s.blockYoutubeAds
  searchEngine := sanitize s.searchEngine
  passwordSaveEnabled := s.passwordSaveEnabled
  passwordAutofillEnabled := s.passwordAutofillEnabled
  passwordNeverSaveOrigins := s.passwordNeverSaveOrigins.map sanitize
  popupAllowedOrigins := s.popupAllowedOrigins.map sanitize
  theme := sanitize s.theme
  accentColor := sanitize s.accentColor

/-- What normal forms rely on.  The normal form of an origin, of a path or of a timestamp is its own
normal form; a path holds no quotation mark, and stays a path when characters of it are replaced. -/
structure StatePlatform.Settles (P : StatePlatform) : Prop where
  origins : P.toWorkflowPlatform.Normalizes
  allowed : ∀ s o, tryNormalizeOrigin P.tryCreate s = some o →
    tryNormalizeOrigin P.tryCreate o = some o
  startup : ∀ u, P.tryCreate defaultStartupUrl = some u → u.text = defaultStartupUrl
  fullPath : ∀ s p, P.fullPath s = some p → isBlank p = false ∧ Text.ofChar '"' ∉ p ∧
    P.fullPath (sanitize p) = some (sanitize p)
  lower : ∀ s, Json.Ascii s → P.toLowerInvariant s = toLower s
  timestamp : ∀ v t, P.timestamp v = some t → Text.Encodable t ∧ P.timestamp (some t) = some t

variable {P : StatePlatform}

/-! ## Keys -/

/-- The texts are words in small letters. -/
def Words (keys : List String) : Prop :=
  (texts keys).all (fun k => k.all fun c => decide (0x61 ≤ c.val ∧ c.val ≤ 0x7A ∨ c.val = 0x5F)) =
    true

theorem Words.point {keys : List String} (h : Words keys) {k : Str} (hk : k ∈ texts keys)
    {c : CodePoint} (hc : c ∈ k) : 0x61 ≤ c.val ∧ c.val ≤ 0x7A ∨ c.val = 0x5F :=
  of_decide_eq_true (List.all_eq_true.1 (List.all_eq_true.1 h k hk) c hc)

theorem Words.printable {keys : List String} (h : Words keys) {k : Str} (hk : k ∈ texts keys) :
    Printable k := by
  intro c hc
  have hpoint := h.point hk hc
  omega

theorem sanitize_of_printable {s : Str} (h : Printable s) : sanitize s = s := by
  refine sanitize_eq_iff.2 fun c hc hsurrogate => ?_
  have hlow := hsurrogate.1
  have hhigh := (h c hc).2
  omega

theorem paletteKey_mem (keys : List String) {default : String} (hdefault : default ∈ keys)
    (value : Option Str) : paletteKey P keys default value ∈ texts keys := by
  unfold paletteKey
  dsimp only
  split
  · assumption
  · exact List.mem_map_of_mem hdefault

/-- The key of a palette is its own key. -/
theorem paletteKey_sanitize (hN : P.Settles) {keys : List String} (hwords : Words keys) {k : Str}
    (hk : k ∈ texts keys) (default : String) :
    paletteKey P keys default (some (sanitize k)) = k := by
  have hprint := hwords.printable hk
  have hascii : Json.Ascii k := fun c hc => by
    have hhigh := (hprint c hc).2
    omega
  have hlower : toLower k = k := toLower_eq fun c hc => by
    have hpoint := hwords.point hk hc
    omega
  have hsame : P.toLowerInvariant (trimOf isWhiteSpace k) = k := by
    rw [trim_printable hprint, hN.lower k hascii, hlower]
  rw [paletteKey, Option.getD_some, sanitize_of_printable hprint, hsame]
  exact if_pos hk

/-- The keys of `BrowserSearchProviders`. -/
def searchKeys : List String :=
  ["brave", "duckduckgo", "startpage", "qwant", "ecosia", "bing", "google"]

theorem words_searchKeys : Words searchKeys := by
  unfold Words
  decide

theorem normalizeKey_mem (value : Option Str) : normalizeKey P value ∈ texts searchKeys := by
  unfold normalizeKey
  dsimp only
  cases hfound : (texts ["brave", "duckduckgo", "startpage", "qwant", "ecosia", "bing",
      "google"]).find? fun key => value.any fun c => decide (ignoreCase P key = ignoreCase P c) with
  | none => exact List.mem_map_of_mem List.mem_cons_self
  | some key => exact List.mem_of_find?_eq_some hfound

theorem normalizeKey_sanitize (hP : P.Assumed) {k : Str} (hk : k ∈ texts searchKeys) :
    normalizeKey P (some (sanitize k)) = k := by
  have hprint := words_searchKeys.printable hk
  have hsame : ∀ key ∈ texts searchKeys,
      decide (ignoreCase P key = ignoreCase P k) = true ↔ key = k := by
    intro key hkey
    rw [decide_eq_true_iff, ignoreCase_iff hP (words_searchKeys.printable hkey) hprint]
    have hlower : ∀ t ∈ texts searchKeys, toLower t = t := fun t ht => toLower_eq fun c hc => by
      have hpoint := words_searchKeys.point ht hc
      omega
    rw [hlower key hkey, hlower k hk]
  rw [normalizeKey, sanitize_of_printable hprint]
  dsimp only [Option.any_some]
  cases hfound : (texts ["brave", "duckduckgo", "startpage", "qwant", "ecosia", "bing",
      "google"]).find? fun key => decide (ignoreCase P key = ignoreCase P k) with
  | none => exact absurd ((hsame k hk).2 rfl) (List.find?_eq_none.1 hfound k hk)
  | some key =>
      have hholds := List.find?_some hfound
      exact (hsame key (List.mem_of_find?_eq_some hfound)).1 hholds

/-! ## The startup URL -/

theorem printable_normalizeStartupUrl (hP : P.Assumed) (value : Option Str) :
    Printable (normalizeStartupUrl P value) := by
  have hdefault : Printable defaultStartupUrl := by
    have hall : defaultStartupUrl.all (fun c => decide (0x21 ≤ c.val ∧ c.val ≤ 0x7E)) = true := by
      decide
    exact fun c hc => of_decide_eq_true (List.all_eq_true.1 hall c hc)
  unfold normalizeStartupUrl
  split
  · rename_i custom hread
    split
    · exact (isWebUrl_of_read hP hread).printable
    · exact hdefault
  · exact hdefault

/-- The startup URL is its own normal form exactly if it is within the bound. -/
theorem normalizeStartupUrl_sanitize (hP : P.Assumed) (hN : P.Settles) (value : Option Str) :
    normalizeStartupUrl P (some (sanitize (normalizeStartupUrl P value))) =
        normalizeStartupUrl P value ↔
      length16 (normalizeStartupUrl P value) ≤ 4096 := by
  have hdefault : length16 defaultStartupUrl ≤ 4096 := by decide
  rw [sanitize_of_printable (printable_normalizeStartupUrl hP value)]
  constructor
  · intro hsame
    by_contra hlong
    have hread := normalize_eq_none (P := P) hlong
    rw [normalizeStartupUrl, hread] at hsame
    exact hlong (hsame ▸ hdefault)
  · intro hlength
    have hagain : normalizeStartupUrl P (some defaultStartupUrl) = defaultStartupUrl := by
      rw [normalizeStartupUrl]
      split
      · rename_i custom hread
        split
        · obtain ⟨-, -, hparsed, -⟩ := tryNormalizeWebUrl_eq_some.1 hread
          have hprint : Printable defaultStartupUrl := by
            have hnone : normalizeStartupUrl P none = defaultStartupUrl := rfl
            rw [← hnone]
            exact printable_normalizeStartupUrl hP none
          rw [Option.getD_some, trim_printable hprint] at hparsed
          exact hN.startup custom hparsed
        · rfl
      · rfl
    cases hread : tryNormalizeWebUrl P value with
    | none =>
        have hvalue : normalizeStartupUrl P value = defaultStartupUrl := by
          rw [normalizeStartupUrl, hread]
        rw [hvalue, hagain]
    | some custom =>
        by_cases hscheme : custom.scheme = str "https"
        · have hvalue : normalizeStartupUrl P value = custom.text := by
            rw [normalizeStartupUrl, hread]
            exact if_pos hscheme
          rw [hvalue] at hlength ⊢
          rw [normalizeStartupUrl, (isWebUrl_of_read hP hread).normalize_eq hlength]
          exact if_pos hscheme
        · have hvalue : normalizeStartupUrl P value = defaultStartupUrl := by
            rw [normalizeStartupUrl, hread]
            exact if_neg hscheme
          rw [hvalue, hagain]

/-! ## The download directory -/

theorem isBlank_sanitize (s : Str) : isBlank (sanitize s) = isBlank s := by
  rw [isBlank, isBlank, sanitize, List.all_map]
  exact congrArg (List.all s) (funext isWhiteSpace_replacePoint)

theorem mem_sanitize {s : Str} {c : CodePoint} (hc : c.val < 0x80) : c ∈ sanitize s ↔ c ∈ s := by
  have hsurrogate : ¬ Text.IsSurrogate c := fun h => by
    have hlow := h.1
    omega
  rw [sanitize, List.mem_map]
  constructor
  · rintro ⟨d, hd, rfl⟩
    by_cases hdsurrogate : Text.IsSurrogate d
    · rw [replacePoint, if_pos hdsurrogate] at hc
      exact absurd hc (by decide)
    · rwa [replacePoint_of_not hdsurrogate]
  · exact fun h => ⟨c, h, replacePoint_of_not hsurrogate⟩

theorem normalizeDownloads_sanitize (hN : P.Settles) {value : Option Str} {p : Str}
    (h : normalizeDownloads P value = .ok p) :
    normalizeDownloads P (some (sanitize p)) = .ok (sanitize p) := by
  obtain ⟨hblank, hquote, hagain⟩ := hN.fullPath _ p (fromOption_eq_ok.1 h)
  have hnone : ¬ (isBlank (sanitize p) = true ∨ Text.ofChar '"' ∈ sanitize p) := by
    rw [isBlank_sanitize, hblank, mem_sanitize (by decide)]
    exact fun h => h.elim Bool.false_ne_true hquote
  rw [normalizeDownloads, Option.getD_some, if_neg hnone, hagain]
  rfl

/-! ## The never-save list -/

theorem collectNormalized_normal {W : WorkflowPlatform} (hW : W.Normalizes) {values : List Str} :
    ∀ {normalized list : List Str},
      (∀ o ∈ normalized, normalizeSecureOriginText W (some o) = .ok o) → normalized.Nodup →
      normalized.length ≤ maximumNeverSaveOrigins →
      collectNormalized W normalized values = .ok list →
        (∀ o ∈ list, normalizeSecureOriginText W (some o) = .ok o) ∧ list.Nodup ∧
          list.length ≤ maximumNeverSaveOrigins := by
  induction values with
  | nil =>
      intro normalized list hnormal hnodup hlength h
      obtain rfl : normalized = list := Except.ok.inj h
      exact ⟨hnormal, hnodup, hlength⟩
  | cons value values ih =>
      intro normalized list hnormal hnodup hlength h
      rw [collectNormalized] at h
      split at h
      · obtain rfl : normalized = list := Except.ok.inj h
        exact ⟨hnormal, hnodup, hlength⟩
      · rename_i hroom
        obtain ⟨next, hnext, hrest⟩ := bind_eq_ok.1 h
        unfold addNormalized at hnext
        split at hnext
        · rename_i origin horigin
          obtain rfl := Except.ok.inj hnext
          by_cases hmem : origin ∈ normalized
          · rw [if_pos hmem] at hrest
            exact ih hnormal hnodup hlength hrest
          · rw [if_neg hmem] at hrest
            refine ih ?_ ?_ ?_ hrest
            · intro o ho
              rcases List.mem_append.1 ho with ho | ho
              · exact hnormal o ho
              · rw [List.mem_singleton.1 ho]
                exact hW.idempotent _ _ horigin
            · exact hnodup.append (List.nodup_singleton _) (List.disjoint_singleton.2 hmem)
            · rw [List.length_append, List.length_singleton]
              omega
        · obtain rfl := Except.ok.inj hnext
          exact ih hnormal hnodup hlength hrest
        · cases hnext

theorem neverSaveList_normalizeNeverSaveOrigins {W : WorkflowPlatform} (hW : W.Normalizes)
    {values : Option (List Str)} {list : List Str}
    (h : normalizeNeverSaveOrigins W values = .ok list) : NeverSaveList W list := by
  cases values with
  | none =>
      obtain rfl : [] = list := Except.ok.inj h
      exact neverSaveList_nil
  | some values =>
      obtain ⟨normalized, hcollect, hsort⟩ := bind_eq_ok.1 h
      obtain rfl := Except.ok.inj hsort
      obtain ⟨hnormal, hnodup, hlength⟩ :=
        collectNormalized_normal hW (List.forall_mem_nil _) .nil (Nat.zero_le _) hcollect
      exact neverSaveList_orderOrdinal hW hnormal hnodup hlength

theorem map_sanitize_eq {values : List Str} (h : ∀ o ∈ values, Text.Encodable o) :
    values.map sanitize = values := by
  conv_rhs => rw [← List.map_id values]
  exact List.map_congr_left fun o ho => sanitize_eq_iff.2 (h o ho)

theorem NeverSaveList.map_sanitize {W : WorkflowPlatform} (hW : W.Normalizes) {values : List Str}
    (h : NeverSaveList W values) : values.map Browser.sanitize = values :=
  map_sanitize_eq fun o ho => hW.encodable (h.normal o ho)

/-! ## The origins that may open windows -/

/-- What `NormalizeAllowedOrigins` gives. -/
structure AllowedList (P : StatePlatform) (values : List Str) : Prop where
  normal : ∀ o ∈ values, tryNormalizeOrigin P.tryCreate o = some o
  nodup : (values.map (ignoreCase P)).Nodup
  sorted : values.Pairwise fun a b => ignoreCase P a ≤ ignoreCase P b
  length : values.length ≤ maximumAllowedOrigins

theorem perm_orderIgnoreCase (values : List Str) : (orderIgnoreCase P values).Perm values :=
  List.perm_insertionSort _ _

theorem pairwise_orderIgnoreCase (values : List Str) :
    (orderIgnoreCase P values).Pairwise fun a b => ignoreCase P a ≤ ignoreCase P b := by
  have : Std.Total fun a b : Str => ignoreCase P a ≤ ignoreCase P b := ⟨fun _ _ => le_total _ _⟩
  have : IsTrans Str fun a b => ignoreCase P a ≤ ignoreCase P b := ⟨fun _ _ _ => le_trans⟩
  exact List.pairwise_insertionSort _ values

theorem collectAllowed_normal (hN : P.Settles) (values : List (Option Str)) :
    ∀ {result : List Str}, (∀ o ∈ result, tryNormalizeOrigin P.tryCreate o = some o) →
      (result.map (ignoreCase P)).Nodup → result.length < maximumAllowedOrigins →
        (∀ o ∈ collectAllowed P result values, tryNormalizeOrigin P.tryCreate o = some o) ∧
          ((collectAllowed P result values).map (ignoreCase P)).Nodup ∧
          (collectAllowed P result values).length ≤ maximumAllowedOrigins := by
  induction values with
  | nil => exact fun hnormal hnodup hlength => ⟨hnormal, hnodup, hlength.le⟩
  | cons value values ih =>
      intro result hnormal hnodup hlength
      rw [collectAllowed]
      split
      · exact ih hnormal hnodup hlength
      · rename_i origin horigin
        split
        · exact ih hnormal hnodup hlength
        · rename_i hnew
          have hnormal' : ∀ o ∈ result ++ [origin], tryNormalizeOrigin P.tryCreate o = some o := by
            intro o ho
            rcases List.mem_append.1 ho with ho | ho
            · exact hnormal o ho
            · rw [List.mem_singleton.1 ho]
              exact hN.allowed _ _ horigin
          have hnodup' : ((result ++ [origin]).map (ignoreCase P)).Nodup := by
            rw [List.map_append, List.map_singleton]
            exact hnodup.append (List.nodup_singleton _) (List.disjoint_singleton.2 hnew)
          have hlength' : (result ++ [origin]).length ≤ maximumAllowedOrigins := by
            rw [List.length_append, List.length_singleton]
            exact hlength
          split
          · exact ⟨hnormal', hnodup', hlength'⟩
          · exact ih hnormal' hnodup' (by omega)

theorem allowedList_normalizeAllowedOrigins (hN : P.Settles) (values : Option (List (Option Str))) :
    AllowedList P (normalizeAllowedOrigins P values) := by
  have hstart : ([] : List Str).length < maximumAllowedOrigins := Nat.succ_pos 99
  obtain ⟨hnormal, hnodup, hlength⟩ :=
    collectAllowed_normal hN (values.getD []) (List.forall_mem_nil _) .nil hstart
  have hperm := perm_orderIgnoreCase (P := P) (collectAllowed P [] (values.getD []))
  refine ⟨fun o ho => hnormal o (hperm.mem_iff.1 ho), ?_, pairwise_orderIgnoreCase _, ?_⟩
  · exact (hperm.map _).nodup_iff.2 hnodup
  · rw [normalizeAllowedOrigins, hperm.length_eq]
    exact hlength

theorem collectAllowed_eq {values : List Str} :
    ∀ {result : List Str}, (∀ o ∈ values, tryNormalizeOrigin P.tryCreate o = some o) →
      ((result ++ values).map (ignoreCase P)).Nodup →
      (result ++ values).length ≤ maximumAllowedOrigins →
        collectAllowed P result (values.map some) = result ++ values := by
  induction values with
  | nil =>
      intro result _ _ _
      rw [List.append_nil]
      rfl
  | cons value values ih =>
      intro result hnormal hnodup hlength
      obtain ⟨hvalue, hnormal⟩ := List.forall_mem_cons.1 hnormal
      have hsplit : result ++ value :: values = (result ++ [value]) ++ values := by
        rw [List.append_assoc, List.singleton_append]
      have hnew : ignoreCase P value ∉ result.map (ignoreCase P) := by
        rw [List.map_append, List.nodup_append] at hnodup
        exact fun hmem => hnodup.2.2 _ hmem _ List.mem_cons_self rfl
      rw [hsplit] at hnodup hlength ⊢
      rw [List.map_cons, collectAllowed, Option.getD_some, hvalue]
      dsimp only
      rw [if_neg hnew]
      split
      · rename_i hfull
        rw [List.length_append] at hlength
        rw [List.length_eq_zero_iff.1 (by omega : values.length = 0), List.append_nil]
      · exact ih hnormal hnodup hlength

/-- Nothing of a list is lost when it is normalized again. -/
theorem AllowedList.normalize_eq {values : List Str} (h : AllowedList P values) :
    normalizeAllowedOrigins P (some (values.map some)) = values := by
  have hcollect : collectAllowed P [] (values.map some) = values := by
    refine (collectAllowed_eq h.normal ?_ ?_).trans (List.nil_append _)
    · rw [List.nil_append]
      exact h.nodup
    · rw [List.nil_append]
      exact h.length
  rw [normalizeAllowedOrigins, Option.getD_some, hcollect]
  exact h.sorted.insertionSort_eq

theorem printable_tryNormalizeOrigin (hP : P.Assumed) {s o : Str}
    (h : tryNormalizeOrigin P.tryCreate s = some o) : Printable o := by
  unfold tryNormalizeOrigin at h
  split at h
  · cases h
  · split at h
    · cases h
    · rename_i u hread
      split at h
      · cases h
      · rename_i hsecure
        obtain rfl := Option.some.inj h
        have hprint := hP.printable _ u hread
        have hmarks : Printable (str "://") := by
          have hall : (str "://").all (fun c => decide (0x21 ≤ c.val ∧ c.val ≤ 0x7E)) = true := by
            decide
          exact fun c hc => of_decide_eq_true (List.all_eq_true.1 hall c hc)
        intro c hc
        rw [List.mem_append, List.mem_append] at hc
        rcases hc with (hc | hc) | hc
        · exact hprint c (List.mem_append_left _ hc)
        · exact hmarks c hc
        · cases ha : u.authority with
          | none =>
              rw [ha] at hc
              cases hc
          | some a =>
              rw [ha] at hc
              refine hprint c (List.mem_append_right _ (List.mem_cons_of_mem _ ?_))
              rw [ha]
              exact List.mem_cons_of_mem _ (List.mem_cons_of_mem _ (List.mem_append_left _ hc))

theorem AllowedList.map_sanitize (hP : P.Assumed) {values : List Str} (h : AllowedList P values) :
    values.map Browser.sanitize = values := by
  refine map_sanitize_eq fun o ho => ?_
  rw [← sanitize_eq_iff]
  exact sanitize_of_printable (printable_tryNormalizeOrigin hP (h.normal o ho))

/-! ## All of them -/

theorem normalizeSettings_eq_ok {raw : RawSettings} {s : ProductSettings} :
    normalizeSettings P raw = .ok s ↔ ∃ downloads neverSave,
      normalizeDownloads P raw.downloadDirectory = .ok downloads ∧
      normalizeNeverSaveOrigins P.toWorkflowPlatform
        (raw.passwordNeverSaveOrigins.map fun values => values.map fun value => value.getD []) =
          .ok neverSave ∧
      s = {
        startupMode := normalizeMode P raw.startupMode
        customStartupUrl := normalizeStartupUrl P raw.customStartupUrl
        recordHistory := raw.recordHistory
        clearHistoryOnExit := raw.clearHistoryOnExit
        showBookmarksBar := raw.showBookmarksBar
        minimizeToTray := raw.minimizeToTray
        closeToTray := raw.closeToTray
        askDownloadLocation := raw.askDownloadLocation
        downloadDirectory := downloads
        nativeStrictMode := raw.nativeStrictMode
        blockYoutubeAds := raw.blockYoutubeAds
        searchEngine := normalizeKey P raw.searchEngine
        passwordSaveEnabled := raw.passwordSaveEnabled
        passwordAutofillEnabled := raw.passwordAutofillEnabled
        passwordNeverSaveOrigins := neverSave
        popupAllowedOrigins := normalizeAllowedOrigins P raw.popupAllowedOrigins
        theme := normalizeTheme P raw.theme
        accentColor := normalizeAccent P raw.accentColor } := by
  constructor
  · intro h
    obtain ⟨downloads, hdownloads, h⟩ := bind_eq_ok.1 h
    obtain ⟨neverSave, hneverSave, h⟩ := bind_eq_ok.1 h
    exact ⟨downloads, neverSave, hdownloads, mapError_eq_ok.1 hneverSave, (Except.ok.inj h).symm⟩
  · rintro ⟨downloads, neverSave, hdownloads, hneverSave, rfl⟩
    exact bind_eq_ok.2 ⟨downloads, hdownloads,
      bind_eq_ok.2 ⟨neverSave, mapError_eq_ok.2 hneverSave, rfl⟩⟩

theorem words_modes : Words ["home", "new_tab", "custom"] := by
  unfold Words
  decide

theorem words_themes : Words ["soft_dark", "slate", "midnight"] := by
  unfold Words
  decide

theorem words_accents : Words ["teal", "blue", "violet", "amber"] := by
  unfold Words
  decide

theorem normalizeMode_mem (value : Option Str) :
    normalizeMode P value ∈ texts ["home", "new_tab", "custom"] :=
  paletteKey_mem _ List.mem_cons_self value

theorem normalizeTheme_mem (value : Option Str) :
    normalizeTheme P value ∈ texts ["soft_dark", "slate", "midnight"] :=
  paletteKey_mem _ List.mem_cons_self value

theorem normalizeAccent_mem (value : Option Str) :
    normalizeAccent P value ∈ texts ["teal", "blue", "violet", "amber"] :=
  paletteKey_mem _ List.mem_cons_self value

/-- Of normalized settings only the path of the downloads may have unpaired surrogates. -/
theorem written_normalizeSettings (hP : P.Assumed) (hN : P.Settles) {raw : RawSettings}
    {s : ProductSettings} (h : normalizeSettings P raw = .ok s) :
    s.written = { s with downloadDirectory := sanitize s.downloadDirectory } := by
  obtain ⟨downloads, neverSave, -, hneverSave, rfl⟩ := normalizeSettings_eq_ok.1 h
  have hlist := neverSaveList_normalizeNeverSaveOrigins hN.origins hneverSave
  have hallowed := allowedList_normalizeAllowedOrigins hN raw.popupAllowedOrigins
  have hmode := sanitize_of_printable
    (words_modes.printable (normalizeMode_mem (P := P) raw.startupMode))
  have htheme := sanitize_of_printable
    (words_themes.printable (normalizeTheme_mem (P := P) raw.theme))
  have haccent := sanitize_of_printable
    (words_accents.printable (normalizeAccent_mem (P := P) raw.accentColor))
  have hsearch := sanitize_of_printable
    (words_searchKeys.printable (normalizeKey_mem (P := P) raw.searchEngine))
  have hstartup := sanitize_of_printable (printable_normalizeStartupUrl hP raw.customStartupUrl)
  simp only [ProductSettings.written, hlist.map_sanitize hN.origins, hallowed.map_sanitize hP, hmode,
    htheme, haccent, hsearch, hstartup]

/-- Settings that come back from the file differ in the startup URL, if it is beyond the bound, and in
the path of the downloads, if it has unpaired surrogates. -/
theorem again_normalizeSettings (hP : P.Assumed) (hN : P.Settles) {raw : RawSettings}
    {s : ProductSettings} (h : normalizeSettings P raw = .ok s) :
    ∃ s', normalizeSettings P s.written.raw = .ok s' ∧
      (s' = s ↔ length16 s.customStartupUrl ≤ 4096 ∧ Text.Encodable s.downloadDirectory) := by
  obtain ⟨downloads, neverSave, hdownloads, hneverSave, rfl⟩ := normalizeSettings_eq_ok.1 h
  have hlist := neverSaveList_normalizeNeverSaveOrigins hN.origins hneverSave
  have hallowed := allowedList_normalizeAllowedOrigins hN raw.popupAllowedOrigins
  have hnames (values : List Str) : (values.map some).map (fun value => value.getD []) = values := by
    rw [List.map_map]
    exact List.map_id values
  have hmode : normalizeMode P (some (sanitize (normalizeMode P raw.startupMode))) =
      normalizeMode P raw.startupMode := paletteKey_sanitize hN words_modes (normalizeMode_mem _) _
  have htheme : normalizeTheme P (some (sanitize (normalizeTheme P raw.theme))) =
      normalizeTheme P raw.theme := paletteKey_sanitize hN words_themes (normalizeTheme_mem _) _
  have haccent : normalizeAccent P (some (sanitize (normalizeAccent P raw.accentColor))) =
      normalizeAccent P raw.accentColor :=
    paletteKey_sanitize hN words_accents (normalizeAccent_mem _) _
  have hsearch := normalizeKey_sanitize hP (normalizeKey_mem (P := P) raw.searchEngine)
  refine ⟨_, normalizeSettings_eq_ok.2 ⟨sanitize downloads, neverSave,
    normalizeDownloads_sanitize hN hdownloads, ?_, rfl⟩, ?_⟩
  · dsimp only [ProductSettings.written, ProductSettings.raw, Option.map_some]
    rw [hlist.map_sanitize hN.origins, hnames]
    exact normalizeNeverSaveOrigins_eq hlist
  · dsimp only [ProductSettings.written, ProductSettings.raw]
    rw [hallowed.map_sanitize hP, hallowed.normalize_eq, hmode, htheme, haccent, hsearch]
    simp only [ProductSettings.mk.injEq, true_and, and_true]
    exact and_congr (normalizeStartupUrl_sanitize hP hN raw.customStartupUrl) sanitize_eq_iff

end ZsecShield.Browser
