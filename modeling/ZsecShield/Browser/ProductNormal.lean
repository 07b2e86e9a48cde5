import ZsecShield.Browser.ProductState
import ZsecShield.Browser.SaveDecision

/-!
# What normalization keeps

The canonical text of a web URL is its own normal form, if it is within the bound of 4096 characters
(`tryNormalizeWebUrl_text`).  So entries whose URLs are canonical and within the bound go through
`Normalize` with their URLs and in their order.
-/

namespace ZsecShield.Browser

open Text (Str str CodePoint)
open Checks
open Recency

/-- What the store relies on: a canonical text is percent-encoded and taken for what it is, and upper
case is that of the letters in ASCII. -/
structure StatePlatform.Assumed (P : StatePlatform) : Prop where
  printable : ∀ s u, P.tryCreate s = some u → Printable u.text
  stable : ∀ s u, length16 s ≤ 4096 → P.tryCreate s = some u → P.tryCreate u.text = some u
  upper : ∀ n < 128, P.upper n = if 97 ≤ n ∧ n ≤ 122 then n - 32 else n

variable {P : StatePlatform}

/-! ## Comparing without case -/

theorem units_of_printable {s : Str} (h : Printable s) : units s = s.map Fin.val := by
  induction s with
  | nil => rfl
  | cons c s ih =>
      obtain ⟨hc, hs⟩ := List.forall_mem_cons.1 h
      rw [units_eq_cons, if_pos (by omega), ih hs, List.map_cons]

/-- Texts in ASCII are compared by their lower case. -/
theorem ignoreCase_iff (hP : P.Assumed) {s t : Str} (hs : Printable s) (ht : Printable t) :
    ignoreCase P s = ignoreCase P t ↔ toLower s = toLower t := by
  rw [ignoreCase, ignoreCase, units_of_printable hs, units_of_printable ht, List.map_map,
    List.map_map, toLower, toLower]
  have hpoint : ∀ c d : CodePoint, (0x21 ≤ c.val ∧ c.val ≤ 0x7E) → (0x21 ≤ d.val ∧ d.val ≤ 0x7E) →
      ((P.upper ∘ Fin.val) c = (P.upper ∘ Fin.val) d ↔
        (if 65 ≤ c.val ∧ c.val ≤ 90 then Fin.ofNat 0x110000 (c.val + 32) else c) =
          if 65 ≤ d.val ∧ d.val ≤ 90 then Fin.ofNat 0x110000 (d.val + 32) else d) := by
    intro c d hc hd
    have hlower (e : CodePoint) (he : e.val ≤ 0x7E) :
        (if 65 ≤ e.val ∧ e.val ≤ 90 then Fin.ofNat 0x110000 (e.val + 32) else e).val =
          if 65 ≤ e.val ∧ e.val ≤ 90 then e.val + 32 else e.val := by
      split
      · exact val_toLowerPoint ‹_›
      · rfl
    rw [Function.comp_apply, Function.comp_apply, hP.upper _ (by omega), hP.upper _ (by omega),
      ← Fin.val_inj, hlower c hc.2, hlower d hd.2]
    split <;> split <;> split <;> split <;> omega
  induction s generalizing t with
  | nil => cases t <;> simp
  | cons c s ih =>
      cases t with
      | nil => simp
      | cons d t =>
          obtain ⟨hc, hs⟩ := List.forall_mem_cons.1 hs
          obtain ⟨hd, ht⟩ := List.forall_mem_cons.1 ht
          rw [List.map_cons, List.map_cons, List.map_cons, List.map_cons, List.cons_eq_cons,
            List.cons_eq_cons]
          exact and_congr (hpoint c d hc hd) (ih hs ht)

/-! ## Web URLs -/

theorem tryNormalizeWebUrl_eq_some {candidate : Option Str} {u : Url} :
    tryNormalizeWebUrl P candidate = some u ↔
      isBlank (candidate.getD []) = false ∧ length16 (candidate.getD []) ≤ 4096 ∧
        P.tryCreate (trimOf isWhiteSpace (candidate.getD [])) = some u ∧
        (u.scheme = str "https" ∨ u.scheme = str "http") ∧ isBlank u.host = false := by
  unfold tryNormalizeWebUrl
  by_cases hbound : isBlank (candidate.getD []) = true ∨ 4096 < length16 (candidate.getD [])
  · rw [if_pos hbound]
    refine iff_of_false nofun ?_
    rintro ⟨hblank, hlength, -⟩
    rcases hbound with hempty | hlong
    · rw [hblank] at hempty
      cases hempty
    · omega
  · rw [if_neg hbound]
    rw [not_or, Bool.not_eq_true, Nat.not_lt] at hbound
    cases hread : P.tryCreate (trimOf isWhiteSpace (candidate.getD [])) with
    | none => exact iff_of_false nofun fun h => nomatch h.2.2.1
    | some value =>
        dsimp only
        by_cases hscheme : value.scheme ≠ str "https" ∧ value.scheme ≠ str "http"
        · rw [if_pos hscheme]
          refine iff_of_false nofun ?_
          rintro ⟨-, -, hsame, hone, -⟩
          obtain rfl := Option.some.inj hsame
          exact hone.elim hscheme.1 hscheme.2
        · rw [if_neg hscheme]
          have hone : value.scheme = str "https" ∨ value.scheme = str "http" := by
            by_contra hnone
            exact hscheme (not_or.1 hnone)
          by_cases hhost : isBlank value.host = true
          · rw [if_pos hhost]
            refine iff_of_false nofun ?_
            rintro ⟨-, -, hsame, -, hnonblank⟩
            obtain rfl := Option.some.inj hsame
            rw [hhost] at hnonblank
            cases hnonblank
          · rw [if_neg hhost, Bool.not_eq_true] at *
            constructor
            · intro hsame
              obtain rfl := Option.some.inj hsame
              exact ⟨hbound.1, hbound.2, rfl, hone, hhost⟩
            · exact fun h => h.2.2.1

/-- A text that is the canonical text of a web URL. -/
structure IsWebUrl (P : StatePlatform) (s : Str) (u : Url) : Prop where
  read : P.tryCreate s = some u
  text : u.text = s
  scheme : u.scheme = str "https" ∨ u.scheme = str "http"
  host : isBlank u.host = false
  printable : Printable s

theorem length16_trimOf_le (p : CodePoint → Bool) (s : Str) : length16 (trimOf p s) ≤ length16 s :=
  length16_sublist (trimOf_isInfix p s).sublist

/-- What is read of a web URL has a canonical text. -/
theorem isWebUrl_of_read (hP : P.Assumed) {candidate : Option Str} {u : Url}
    (h : tryNormalizeWebUrl P candidate = some u) : IsWebUrl P u.text u := by
  obtain ⟨-, hlength, hread, hscheme, hhost⟩ := tryNormalizeWebUrl_eq_some.1 h
  exact ⟨hP.stable _ u ((length16_trimOf_le _ _).trans hlength) hread, rfl, hscheme, hhost,
    hP.printable _ u hread⟩

/-- The normal form of a canonical text is itself, if it is within the bound. -/
theorem IsWebUrl.normalize_eq {s : Str} {u : Url} (h : IsWebUrl P s u) (hlength : length16 s ≤ 4096) :
    tryNormalizeWebUrl P (some s) = some u := by
  refine tryNormalizeWebUrl_eq_some.2 ⟨?_, hlength, ?_, h.scheme, h.host⟩
  · rw [Option.getD_some, ← h.text]
    exact not_isBlank_text u
  · rw [Option.getD_some, trim_printable h.printable]
    exact h.read

theorem normalize_eq_none {s : Str} (hlength : ¬ length16 s ≤ 4096) :
    tryNormalizeWebUrl P (some s) = none := by
  cases h : tryNormalizeWebUrl P (some s) with
  | none => rfl
  | some u => exact absurd (tryNormalizeWebUrl_eq_some.1 h).2.1 hlength

theorem IsWebUrl.unique {s : Str} {u v : Url} (h : IsWebUrl P s u)
    (hv : tryNormalizeWebUrl P (some s) = some v) : v = u := by
  obtain ⟨-, -, hread, -⟩ := tryNormalizeWebUrl_eq_some.1 hv
  rw [Option.getD_some, trim_printable h.printable, h.read] at hread
  exact (Option.some.inj hread).symm

/-! ## Entries -/

/-- A bookmark whose URL is canonical. -/
def Bookmark.IsWeb (P : StatePlatform) (b : Bookmark) : Prop := ∃ u, IsWebUrl P b.url u

def HistoryEntry.IsWeb (P : StatePlatform) (e : HistoryEntry) : Prop := ∃ u, IsWebUrl P e.url u

theorem isWeb_of_normalizeBookmark (hP : P.Assumed) {now : Str} {item : RawBookmark} {b : Bookmark}
    (h : normalizeBookmark P now item = some b) : b.IsWeb P := by
  obtain ⟨u, hu, rfl⟩ := Option.map_eq_some_iff.1 h
  exact ⟨u, isWebUrl_of_read hP hu⟩

theorem isWeb_of_normalizeHistory (hP : P.Assumed) {now : Str} {item : RawHistoryEntry}
    {e : HistoryEntry} (h : normalizeHistory P now item = some e) : e.IsWeb P := by
  obtain ⟨u, hu, rfl⟩ := Option.map_eq_some_iff.1 h
  exact ⟨u, isWebUrl_of_read hP hu⟩

/-- The normal form of a bookmark with a canonical URL has that URL, if it is within the bound. -/
theorem Bookmark.IsWeb.normalize {now : Str} {b : Bookmark} (h : b.IsWeb P) :
    (length16 b.url ≤ 4096 ∧ ∃ b', normalizeBookmark P now b.raw = some b' ∧ b'.url = b.url) ∨
      (¬ length16 b.url ≤ 4096 ∧ normalizeBookmark P now b.raw = none) := by
  obtain ⟨u, hu⟩ := h
  by_cases hlength : length16 b.url ≤ 4096
  · refine .inl ⟨hlength, ?_⟩
    have hread : tryNormalizeWebUrl P b.raw.url = some u := hu.normalize_eq hlength
    rw [normalizeBookmark, hread]
    exact ⟨_, rfl, hu.text⟩
  · refine .inr ⟨hlength, ?_⟩
    have hread : tryNormalizeWebUrl P b.raw.url = none := normalize_eq_none hlength
    rw [normalizeBookmark, hread]
    rfl

theorem HistoryEntry.IsWeb.normalize {now : Str} {e : HistoryEntry} (h : e.IsWeb P) :
    (length16 e.url ≤ 4096 ∧ ∃ e', normalizeHistory P now e.raw = some e' ∧ e'.url = e.url ∧
      e'.typedCount = max 0 e.typedCount) ∨
      (¬ length16 e.url ≤ 4096 ∧ normalizeHistory P now e.raw = none) := by
  obtain ⟨u, hu⟩ := h
  by_cases hlength : length16 e.url ≤ 4096
  · refine .inl ⟨hlength, ?_⟩
    have hread : tryNormalizeWebUrl P e.raw.url = some u := hu.normalize_eq hlength
    rw [normalizeHistory, hread]
    exact ⟨_, rfl, hu.text, rfl⟩
  · refine .inr ⟨hlength, ?_⟩
    have hread : tryNormalizeWebUrl P e.raw.url = none := normalize_eq_none hlength
    rw [normalizeHistory, hread]
    rfl

/-! ## Data -/

/-- What `Normalize` gives, taken apart. -/
theorem normalizeData_eq_ok {now : Str} {data : Option RawData} {d : ProductData} :
    normalizeData P now data = .ok d ↔ ∃ settings,
      normalizeSettings P (legacySettings P (data.getD (createDefault P).raw)) = .ok settings ∧
        d = ⟨3, keptBookmarks P now ((data.getD (createDefault P).raw).bookmarks.getD []),
          keptHistory P now ((data.getD (createDefault P).raw).history.getD []), settings⟩ := by
  rw [normalizeData, bind_eq_ok]
  refine exists_congr fun settings => and_congr_right fun _ => ?_
  exact ⟨fun h => (Except.ok.inj h).symm, fun h => congrArg Except.ok h.symm⟩

/-- Data as the browser holds them. -/
theorem normalizeData_raw_eq_ok {now : Str} {data d : ProductData} :
    normalizeData P now (some data.raw) = .ok d ↔ ∃ settings,
      normalizeSettings P (legacySettings P data.raw) = .ok settings ∧
        d = ⟨3, keptBookmarks P now (data.bookmarks.map fun b => some b.raw),
          keptHistory P now (data.history.map fun e => some e.raw), settings⟩ :=
  normalizeData_eq_ok

theorem recordHistory_legacySettings (data : ProductData) :
    (legacySettings P data.raw).recordHistory = data.settings.recordHistory := by
  by_cases hlegacy : data.schemaVersion < 2
  · simp [legacySettings, ProductData.raw, hlegacy, ProductSettings.raw]
  · simp [legacySettings, ProductData.raw, hlegacy, ProductSettings.raw]

theorem recordHistory_of_normalizeSettings {s : RawSettings} {settings : ProductSettings}
    (h : normalizeSettings P s = .ok settings) : settings.recordHistory = s.recordHistory := by
  obtain ⟨_, _, h⟩ := bind_eq_ok.1 h
  obtain ⟨_, _, h⟩ := bind_eq_ok.1 h
  cases h
  rfl

theorem saveState_eq_ok {α : Type} {now : Str} {data : RawData} {result : α} {o : Outcome α} :
    saveState P now data result = .ok o ↔ ∃ d, normalizeData P now (some data) = .ok d ∧
      o = ⟨result, d, some (writeState P d)⟩ := by
  rw [saveState, bind_eq_ok]
  refine exists_congr fun d => and_congr_right fun _ => ?_
  exact ⟨fun h => (Except.ok.inj h).symm, fun h => congrArg Except.ok h.symm⟩

/-- A list whose elements have normal forms keeps what these keep. -/
theorem map_filterMap_eq {α β γ : Type} {f : α → Option β} {g : β → γ} {k : α → γ} {l : List α}
    (h : ∀ a ∈ l, ∃ b, f a = some b ∧ g b = k a) : (l.filterMap f).map g = l.map k := by
  induction l with
  | nil => rfl
  | cons a l ih =>
      obtain ⟨⟨b, hb, hkey⟩, hl⟩ := List.forall_mem_cons.1 h
      rw [List.filterMap_cons_some hb, List.map_cons, List.map_cons, hkey, ih hl]

end ZsecShield.Browser
