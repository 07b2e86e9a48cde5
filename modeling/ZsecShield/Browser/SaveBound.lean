import ZsecShield.Browser.StateSize

/-!
# Saves within the bound

`Save` throws where the serialized data are larger than `MaximumStateBytes`, and the limits on the
entries do not exclude that.  The guard keeps the file within its bound, and with at most 150 entries in
all it is not needed (`save_within_bound`).
-/

namespace ZsecShield.Browser

open Text (Str str CodePoint utf8Size)
open Checks
open Recency

variable {P : StatePlatform}

/-- After any calls from the default data, whether their saves threw or not: the lists are within their
limits and the file within its bound.  A further call returns, or its `Save` throws, which it does
exactly if the serialized data are beyond the bound; then the file stays as it was.  With at most 150
entries they are never beyond it. -/
theorem save_within_bound (hP : P.Assumed) (hN : P.Settles) (hZ : P.Sizes) (calls : List Call) :
    ∃ s, Store.run P calls = .ok s ∧ s.data.bookmarks.length ≤ 1000 ∧
      s.data.history.length ≤ 5000 ∧
      (∀ bytes, s.file = some bytes → bytes.length ≤ 4 * 1024 * 1024) ∧
      ∀ c : Call, P.timestamp (some c.now) = some c.now → ∃ left, c.apply P s.data = .ok left ∧
        ∀ written, left.written = some written →
          ((∃ bytes, written = .ok bytes) ↔ Fits P left.data) ∧
          (∀ bytes, written = .ok bytes → (s.after left).file = some bytes) ∧
          (∀ e, written = .error e → (s.after left).file = s.file) ∧
          (left.data.bookmarks.length + left.data.history.length ≤ 150 →
            ∃ bytes, written = .ok bytes) := by
  obtain ⟨normal, hsettled, hweight⟩ := settled_default hP hN hZ
  obtain ⟨s, hrun, hreached⟩ := reached_run hP hsettled calls
  refine ⟨s, hrun, hreached.bookmarks, hreached.history, hreached.file, fun c hnow => ?_⟩
  obtain ⟨left, hleft, hnext, hcases⟩ := hreached.apply hP hsettled c
  refine ⟨left, hleft, fun written hwritten => ?_⟩
  rcases hcases with rfl | ⟨d, hd, hn, hsettings, hsaved⟩
  · cases hwritten
  · obtain rfl : writeState P left.data = written :=
      Option.some.inj (hsaved.symm.trans hwritten)
    refine ⟨fits_iff.symm, fun bytes hbytes => ?_, fun e he => ?_, fun hfew => ?_⟩
    · rw [Store.after, hsaved, hbytes]
    · rw [Store.after, hsaved, he]
    · have hsize := weight_saved hP hN hZ hnow hd hn
      rw [hsettings] at hsize
      have hentries := Nat.mul_le_mul_right 26202 hfew
      have hbound : left.data.weight ≤ maximumStateBytes := by
        rw [maximumStateBytes]
        omega
      have hints : left.data.HasInts := by
        refine ⟨?_, fun e he => (hnext.entries.history e he).2⟩
        have hschema : left.data.schemaVersion = 3 := hnext.schema
        rw [hschema]
        decide
      obtain ⟨text, htext, hlength⟩ := hZ.serializes left.data hints hbound
      exact fits_iff.1 ⟨text, htext, hlength.trans hbound⟩


namespace Sample

theorem save_within_bound_for_visit : ∃ s,
    Store.run browser [.addHistory visitedAt none (some (str "https://example.com")) true] = .ok s ∧
      s.data.bookmarks.length ≤ 1000 ∧ s.data.history.length ≤ 5000 ∧
      (∀ bytes, s.file = some bytes → bytes.length ≤ 4 * 1024 * 1024) ∧
      ∀ c : Call, browser.timestamp (some c.now) = some c.now →
        ∃ left, c.apply browser s.data = .ok left ∧ ∀ written, left.written = some written →
          ((∃ bytes, written = .ok bytes) ↔ Fits browser left.data) ∧
          (∀ bytes, written = .ok bytes → (s.after left).file = some bytes) ∧
          (∀ e, written = .error e → (s.after left).file = s.file) ∧
          (left.data.bookmarks.length + left.data.history.length ≤ 150 →
            ∃ bytes, written = .ok bytes) :=
  save_within_bound assumed_browser settles_browser sizes_browser _

/-! ## Data that cannot be written -/

def letterA : CodePoint := Text.ofChar 'a'

def letterB : CodePoint := Text.ofChar 'b'

/-- A path of 4000 letters. -/
def deepPath (n : Nat) : Str := List.replicate n letterA ++ List.replicate (4000 - n) letterB

/-- A page of a site, with a long URL. -/
def deepPage (n : Nat) : Str := str "https://" ++ (str "example.com" ++ slash :: deepPath n)

/-- Visits of that many pages. -/
def deepVisits (n : Nat) : List Call :=
  (List.range n).map fun k => .addHistory visitedAt none (some (deepPage k)) false

theorem mem_deepPath {n : Nat} {c : CodePoint} (h : c ∈ deepPath n) : c = letterA ∨ c = letterB := by
  rcases List.mem_append.1 h with h | h
  · exact .inl (List.eq_of_mem_replicate h)
  · exact .inr (List.eq_of_mem_replicate h)

theorem length_deepPath {n : Nat} (h : n ≤ 4000) : (deepPath n).length = 4000 := by
  rw [deepPath, List.length_append, List.length_replicate, List.length_replicate]
  omega

theorem count_deepPath (n : Nat) : (deepPath n).count letterA = n := by
  have hother : letterB ≠ letterA := by decide
  rw [deepPath, List.count_append, List.count_replicate_self,
    List.count_replicate, if_neg (by simp [hother]), Nat.add_zero]

theorem deepPage_injective {m n : Nat} (h : deepPage m = deepPage n) : m = n := by
  have hpath : deepPath m = deepPath n := by
    have hrest := List.append_cancel_left (List.append_cancel_left h)
    exact (List.cons.inj hrest).2
  rw [← count_deepPath m, hpath, count_deepPath]

theorem isPath_deepPath (n : Nat) : ∀ c ∈ deepPath n, isPath c = true := by
  intro c hc
  rcases mem_deepPath hc with rfl | rfl <;> decide

theorem isUrl_deepPage (n : Nat) : IsUrl (urlAt (str "example.com") (slash :: deepPath n)) := by
  have hhost : (str "example.com").all isHost = true := by decide
  exact ⟨_, _, rfl, by decide, fun c hc => List.all_eq_true.1 hhost c hc, isPath_deepPath n⟩

theorem isWebUrl_deepPage (n : Nat) :
    IsWebUrl browser (deepPage n) (urlAt (str "example.com") (slash :: deepPath n)) where
  read := by
    have hread := (isUrl_deepPage n).read
    rwa [text_urlAt] at hread
  text := text_urlAt _ _
  scheme := .inl rfl
  host := by
    have hhost : isBlank (str "example.com") = false := by decide
    exact hhost
  printable := by
    have hprint := (isUrl_deepPage n).printable
    rwa [text_urlAt] at hprint

theorem literal_deepPage (n : Nat) : ∀ c ∈ deepPage n, Json.Literal c := by
  have hstart : (str "https://" ++ (str "example.com" ++ [slash])).all
      (fun c => decide (Json.Literal c)) = true := by
    decide
  have hsplit : deepPage n = str "https://" ++ (str "example.com" ++ [slash]) ++ deepPath n := by
    simp [deepPage]
  rw [hsplit]
  intro c hc
  rcases List.mem_append.1 hc with hc | hc
  · exact of_decide_eq_true (List.all_eq_true.1 hstart c hc)
  · rcases mem_deepPath hc with rfl | rfl <;> decide

theorem length_deepPage {n : Nat} (h : n ≤ 4000) : (deepPage n).length = 4020 := by
  have hstart : (str "https://").length = 8 ∧ (str "example.com").length = 11 := ⟨rfl, rfl⟩
  rw [deepPage, List.length_append, List.length_append, List.length_cons, length_deepPath h,
    hstart.1, hstart.2]

theorem length16_deepPage {n : Nat} (h : n ≤ 4000) : length16 (deepPage n) = 4020 := by
  have hascii : Json.Ascii (deepPage n) := fun c hc => by
    have hpoint := (literal_deepPage n c hc).2.1
    omega
  rw [length16_ascii hascii, length_deepPage h]

theorem toLower_deepPage (n : Nat) : toLower (deepPage n) = deepPage n := by
  have hstart : toLower (str "https://") = str "https://" ∧
      toLower (str "example.com") = str "example.com" ∧ toLower [slash] = [slash] := by
    decide
  have hpath : toLower (deepPath n) = deepPath n := by
    refine toLower_eq fun c hc => ?_
    rcases mem_deepPath hc with rfl | rfl <;> decide
  have hsplit : deepPage n = str "https://" ++ (str "example.com" ++ ([slash] ++ deepPath n)) := rfl
  rw [hsplit, toLower, List.map_append, List.map_append, List.map_append]
  exact congrArg₂ (· ++ ·) hstart.1 (congrArg₂ (· ++ ·) hstart.2.1 (congrArg₂ (· ++ ·) hstart.2.2 hpath))

theorem deepVisits_succ (n : Nat) : deepVisits (n + 1) =
    deepVisits n ++ [.addHistory visitedAt none (some (deepPage n)) false] := by
  rw [deepVisits, List.range_succ, List.map_append]
  rfl

/-- A page that was not visited is put in front. -/
theorem visited_deepPage {n : Nat} (h : n ≤ 4000) {recent : List (Str × Int)}
    (hurls : recent.map Prod.fst = ((List.range n).map deepPage).reverse) :
    (visited (deepPage n) false recent).map Prod.fst =
      ((List.range (n + 1)).map deepPage).reverse := by
  have hfresh : ∀ url ∈ ((List.range n).map deepPage).reverse,
      ¬ decide (toLower url = toLower (deepPage n)) = true := by
    intro url hurl
    obtain ⟨k, hk, rfl⟩ := List.mem_map.1 (List.mem_reverse.1 hurl)
    rw [decide_eq_true_eq, toLower_deepPage, toLower_deepPage]
    intro hsame
    have hlt := List.mem_range.1 hk
    have heq := deepPage_injective hsame
    omega
  have hnew : deepPage n :: ((List.range n).map deepPage).reverse =
      ((List.range (n + 1)).map deepPage).reverse := by
    rw [List.range_succ, List.map_append, List.reverse_append]
    rfl
  rw [visited, List.map_take, map_front, hurls, front, List.eraseP_of_forall_not hfresh, hnew]
  refine List.take_of_length_le ?_
  rw [List.length_reverse, List.length_map, List.length_range, maximumHistoryEntries]
  omega

/-- The data after the visits: the history has all the pages. -/
structure Deep (n : Nat) (d : ProductData) : Prop where
  records : d.settings.recordHistory = true
  counted : ∀ p ∈ entries d, IsCounted browser p
  urls : (entries d).map Prod.fst = ((List.range n).map deepPage).reverse

theorem Deep.apply {n : Nat} {d : ProductData} (h : Deep n d) (hn : n ≤ 4000) {left : Left}
    (hleft : (Call.addHistory visitedAt none (some (deepPage n)) false).apply browser d = .ok left) :
    Deep (n + 1) left.data := by
  have hlength : length16 (deepPage n) ≤ 4096 := by
    rw [length16_deepPage hn]
    omega
  have hread := (isWebUrl_deepPage n).normalize_eq hlength
  have htext := (isWebUrl_deepPage n).text
  rw [Call.apply] at hleft
  cases hadd : Browser.addHistory browser visitedAt d none (some (deepPage n)) false with
  | error e =>
      rw [hadd] at hleft
      cases hleft
  | ok o =>
      rw [hadd] at hleft
      obtain rfl := Except.ok.inj hleft
      have hkept := entries_addHistory assumed_browser h.records h.counted hread
        (by rw [htext]; exact hlength) hadd
      rw [htext] at hkept
      refine ⟨hkept.1, ?_, ?_⟩
      · intro p hp
        exact isCounted_visited ⟨_, isWebUrl_deepPage n⟩ hlength h.counted p (hkept.2 ▸ hp)
      · exact (congrArg (List.map Prod.fst) hkept.2).trans (visited_deepPage hn h.urls)

theorem deep_run {normal : ProductSettings} (hsettled : Settled browser normal) {n : Nat}
    (hn : n ≤ 4000) : ∃ s, Store.run browser (deepVisits n) = .ok s ∧ Deep n s.data ∧
      Reached browser normal s := by
  induction n with
  | zero =>
      obtain ⟨s, hs, hreached⟩ := reached_run assumed_browser hsettled (deepVisits 0)
      obtain rfl := Except.ok.inj hs
      exact ⟨_, hs, ⟨rfl, List.forall_mem_nil _, rfl⟩, hreached⟩
  | succ n ih =>
      obtain ⟨s, hrun, hdeep, hreached⟩ := ih (Nat.le_of_succ_le hn)
      obtain ⟨left, hleft, hnext, -⟩ := hreached.apply assumed_browser hsettled
        (.addHistory visitedAt none (some (deepPage n)) false)
      refine ⟨s.after left, ?_, hdeep.apply (Nat.le_of_succ_le hn) hleft, hnext⟩
      rw [deepVisits_succ, run_snoc, hrun, bind_ok, Store.call, hleft]
      rfl

/-! ## The bytes of the pages -/

theorem sum_le_size_block (level : Nat) (sizes : List Nat) :
    sizes.sum ≤ Json.blockSize .canonical level sizes := by
  have hitems : sizes.sum ≤ Json.itemsSize .canonical (level + 1) sizes := by
    rw [Json.itemsSize]
    induction sizes with
    | nil => exact Nat.le_refl 0
    | cons n sizes ih =>
        rw [List.sum_cons, List.map_cons, List.sum_cons]
        omega
  unfold Json.blockSize
  split
  · rename_i hnil
    rw [hnil]
    exact Nat.zero_le _
  · omega

/-- A member is no larger than the object. -/
theorem size_member_le {level : Nat} {members : List (Str × Json)} (key : Str) {v : Json}
    (h : (key, v) ∈ members) : utf8Size (Json.layout .canonical (level + 1) v) ≤
      utf8Size (Json.layout .canonical level (.obj members)) := by
  rw [Json.utf8Size_obj]
  refine le_trans ?_ (sum_le_size_block level _)
  refine le_trans ?_ (List.single_le_sum (fun _ _ => Nat.zero_le _) _ (List.mem_map_of_mem h))
  rw [Json.layoutMember, Text.utf8Size_append, Text.utf8Size_append]
  dsimp only
  omega

/-- The history is no smaller than all its URLs. -/
theorem size_history_le {d : ProductData} {bound : Nat}
    (h : ∀ e ∈ d.history, (∀ c ∈ e.url, Json.Literal c) ∧ bound ≤ e.url.length) :
    d.history.length * bound ≤ utf8Size (compact (stateJson d)) := by
  have hentry : ∀ e ∈ d.history, bound ≤ utf8Size (Json.layout .canonical 2 (historyJson e)) := by
    intro e he
    obtain ⟨hliteral, hlength⟩ := h e he
    have hurl : utf8Size (Json.layout .canonical 3 (.str e.url)) = e.url.length + 2 :=
      Json.utf8Size_quote_literal .canonical hliteral
    have hmember : utf8Size (Json.layout .canonical 3 (.str e.url)) ≤
        utf8Size (Json.layout .canonical 2 (historyJson e)) :=
      size_member_le (str "Url") (List.mem_cons_of_mem _ List.mem_cons_self)
    omega
  have hlist : d.history.length * bound ≤
      utf8Size (Json.layout .canonical 1 (.arr (d.history.map historyJson))) := by
    rw [Json.utf8Size_arr]
    refine le_trans ?_ (sum_le_size_block 1 _)
    have hsum := List.card_nsmul_le_sum
      ((d.history.map historyJson).map fun v => utf8Size (Json.layout .canonical 2 v)) bound
        (by
          rw [List.map_map]
          exact List.forall_mem_map.2 hentry)
    rwa [List.length_map, List.length_map, smul_eq_mul] at hsum
  have hmember : utf8Size (Json.layout .canonical 1 (.arr (d.history.map historyJson))) ≤
      utf8Size (compact (stateJson d)) :=
    size_member_le (str "History")
      (List.mem_cons_of_mem _ (List.mem_cons_of_mem _ List.mem_cons_self))
  exact hlist.trans hmember

theorem Deep.history {d : ProductData} {n : Nat} (h : Deep n d) (hn : n ≤ 4000) :
    d.history.length = n ∧ ∀ e ∈ d.history, ∃ k, k ≤ 4000 ∧ e.url = deepPage k := by
  constructor
  · have hlength := congrArg List.length h.urls
    rwa [entries, List.length_map, List.length_map, List.length_reverse, List.length_map,
      List.length_range] at hlength
  · intro e he
    have hmem : e.url ∈ (entries d).map Prod.fst :=
      List.mem_map_of_mem (List.mem_map_of_mem he)
    rw [h.urls, List.mem_reverse] at hmem
    obtain ⟨k, hk, hurl⟩ := List.mem_map.1 hmem
    exact ⟨k, (List.mem_range.1 hk).le.trans hn, hurl.symm⟩

/-- The data of 1100 pages do not fit. -/
theorem Deep.exceeds {d : ProductData} (h : Deep 1100 d) :
    maximumStateBytes < (getBytes (compact (stateJson d) ++ newLine)).length := by
  obtain ⟨hlength, hpages⟩ := h.history (by omega)
  have hwritten : ∀ e ∈ d.written.history,
      (∀ c ∈ e.url, Json.Literal c) ∧ 4020 ≤ e.url.length := by
    intro e he
    obtain ⟨e₀, he₀, rfl⟩ := List.mem_map.1 he
    obtain ⟨k, hk, hurl⟩ := hpages e₀ he₀
    have hsame : e₀.written.url = deepPage k :=
      (congrArg sanitize hurl).trans (sanitize_of_printable (isWebUrl_deepPage k).printable)
    rw [hsame]
    exact ⟨literal_deepPage k, (length_deepPage hk).ge⟩
  have hsize := size_history_le hwritten
  have hsame : d.written.history.length = d.history.length := List.length_map _
  rw [hsame, hlength] at hsize
  rw [length_stateBytes, maximumStateBytes]
  omega

/-- A visit after which the data are larger than the bound, so that its `Save` throws. -/
theorem save_exceeds_bound : ∃ (calls : List Call) (s : Store) (c : Call) (left : Left)
    (e : StateError), Store.run browser calls = .ok s ∧ c.apply browser s.data = .ok left ∧
      left.written = some (.error e) ∧
      maximumStateBytes < (getBytes (compact (stateJson left.data) ++ newLine)).length := by
  obtain ⟨normal, hsettled, -⟩ := settled_default assumed_browser settles_browser sizes_browser
  obtain ⟨s, hrun, hdeep, hreached⟩ := deep_run hsettled (n := 1099) (by omega)
  obtain ⟨left, hleft, -, hcases⟩ := hreached.apply assumed_browser hsettled
    (.addHistory visitedAt none (some (deepPage 1099)) false)
  have hlast : Deep 1100 left.data := hdeep.apply (by omega) hleft
  have hexceeds := hlast.exceeds
  rcases hcases with rfl | ⟨d, -, -, -, hsaved⟩
  · have hmore := (hlast.history (by omega)).1
    have hless := (hdeep.history (by omega)).1
    exact absurd (hless.symm.trans hmore) (by decide)
  · cases hwrite : writeState browser left.data with
    | error e =>
        rw [hwrite] at hsaved
        exact ⟨_, s, _, left, e, hrun, hleft, hsaved, hexceeds⟩
    | ok bytes =>
        obtain ⟨text, htext, hbound, -⟩ := writeState_eq_ok.1 hwrite
        have hcompact : compact (stateJson left.data) = text := by
          have hwritten : writeText left.data = some text := htext
          unfold writeText at hwritten
          split at hwritten
          · exact Option.some.inj hwritten
          · cases hwritten
        rw [hcompact] at hexceeds
        omega

end Sample

end ZsecShield.Browser
