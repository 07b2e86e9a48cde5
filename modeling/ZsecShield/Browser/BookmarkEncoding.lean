import ZsecShield.Browser.BookmarkScan

/-!
# Encoded links

An encoded URL has none of the marks that end a value, and an encoded title no `<` and no quotation
mark, so an exported page is one of links.  Encoding does not change whether a URL ends in `href=`
(`endsOpen_encode`), and the size of what is written follows from the characters.
-/

namespace ZsecShield.Browser

open Text (Str str CodePoint utf8Size)

variable {P : BookmarkPlatform}

/-- A character of one UTF-16 unit that is no half of a pair. -/
def IsUnit (c : CodePoint) : Prop := c.val < 0x10000 ∧ ¬ Text.IsSurrogate c

/-! ## Marks -/

theorem isValue_attributePoint {c : CodePoint} (hc : 0x21 ≤ c.val ∧ c.val ≤ 0x7E)
    (hmark : c ≠ greater) : IsValue (attributePoint c) := by
  have hnamed {s : String} (hs : (str s).all (fun c => decide ((0x21 ≤ c.val ∧ c.val ≤ 0x7E) ∧
      c ≠ quotation ∧ c ≠ apostrophe ∧ c ≠ greater)) = true) : IsValue (str s) :=
    fun c hc => of_decide_eq_true (List.all_eq_true.1 hs c hc)
  unfold attributePoint
  split
  · exact hnamed (by decide)
  · rename_i hquotation
    split
    · exact hnamed (by decide)
    · split
      · exact hnamed (by decide)
      · split
        · exact hnamed (by decide)
        · rename_i hapostrophe
          intro d hd
          rw [List.mem_singleton.1 hd]
          exact ⟨hc, hquotation, hapostrophe, hmark⟩

theorem isValue_encode {url : Str} (hurl : Printable url) (hmark : greater ∉ url) :
    IsValue (htmlAttributeEncode url) := by
  intro d hd
  obtain ⟨c, hc, hd⟩ := List.mem_flatMap.1 hd
  exact isValue_attributePoint (hurl c hc) (fun heq => hmark (heq ▸ hc)) d hd

theorem marks_htmlPoint (c : CodePoint) : ∀ d ∈ htmlPoint c, d ≠ less ∧ d ≠ quotation := by
  have hnamed {s : String} (hs : (str s).all (fun c => decide (c ≠ less ∧ c ≠ quotation)) = true) :
      ∀ d ∈ str s, d ≠ less ∧ d ≠ quotation :=
    fun c hc => of_decide_eq_true (List.all_eq_true.1 hs c hc)
  unfold htmlPoint
  split
  · exact hnamed (by decide)
  · split
    · intro d hd
      rcases List.mem_append.1 hd with hd | hd
      · rcases List.mem_append.1 hd with hd | hd
        · exact hnamed (by decide) d hd
        · have hdigit := Text.isDigit_of_mem_digits hd
          constructor
          · rintro rfl
            exact absurd hdigit (by decide)
          · rintro rfl
            exact absurd hdigit (by decide)
      · exact hnamed (by decide) d hd
    · unfold attributePoint
      split
      · exact hnamed (by decide)
      · rename_i hquotation
        split
        · exact hnamed (by decide)
        · split
          · exact hnamed (by decide)
          · rename_i hless
            split
            · exact hnamed (by decide)
            · intro d hd
              rw [List.mem_singleton.1 hd]
              exact ⟨hless, hquotation⟩

theorem marks_encode (title : Str) : ∀ c ∈ htmlEncode title, c ≠ less ∧ c ≠ quotation := by
  intro d hd
  obtain ⟨c, -, hd⟩ := List.mem_flatMap.1 hd
  exact marks_htmlPoint c d hd

/-! ## The end of a URL -/

def semicolon : CodePoint := Text.ofChar ';'

/-- A character that is encoded ends in a semicolon. -/
theorem attributePoint_cases (c : CodePoint) : attributePoint c = [c] ∨
    (∃ front, attributePoint c = front ++ [semicolon]) ∧
      (c = quotation ∨ c = ampersand ∨ c = less ∨ c = apostrophe) := by
  unfold attributePoint
  split
  · rename_i hc
    exact .inr ⟨⟨str "&quot", rfl⟩, .inl hc⟩
  · split
    · rename_i hc
      exact .inr ⟨⟨str "&amp", rfl⟩, .inr (.inl hc)⟩
    · split
      · rename_i hc
        exact .inr ⟨⟨str "&lt", rfl⟩, .inr (.inr (.inl hc))⟩
      · split
        · rename_i hc
          exact .inr ⟨⟨str "&#39", rfl⟩, .inr (.inr (.inr hc))⟩
        · exact .inl rfl

/-- An end without semicolons was not encoded. -/
theorem encode_split {back : Str} (hback : semicolon ∉ back) : ∀ {url front : Str},
    htmlAttributeEncode url = front ++ back →
      ∃ start, url = start ++ back ∧ htmlAttributeEncode start = front := by
  induction back using List.reverseRecOn with
  | nil =>
      intro url front h
      rw [List.append_nil] at h
      exact ⟨url, (List.append_nil url).symm, h⟩
  | append_singleton back d ih =>
      intro url front h
      rw [List.mem_append, not_or] at hback
      rcases List.eq_nil_or_concat url with rfl | ⟨url, c, rfl⟩
      · rw [← List.append_assoc] at h
        exact absurd h.symm (List.append_ne_nil_of_right_ne_nil _ (List.cons_ne_nil d []))
      · have hsplit : htmlAttributeEncode url ++ attributePoint c = (front ++ back) ++ [d] := by
          rw [List.append_assoc, ← h, htmlAttributeEncode, htmlAttributeEncode,
            List.concat_eq_append, List.flatMap_append, List.flatMap_singleton]
        rcases attributePoint_cases c with hc | ⟨⟨more, hc⟩, -⟩
        · rw [hc] at hsplit
          obtain ⟨hurl, hlast⟩ := List.append_inj' hsplit rfl
          obtain ⟨start, rfl, hstart⟩ := ih hback.1 hurl
          obtain rfl := List.singleton_inj.1 hlast
          exact ⟨start, by rw [List.concat_eq_append, List.append_assoc], hstart⟩
        · rw [hc, ← List.append_assoc] at hsplit
          obtain ⟨-, hlast⟩ := List.append_inj' hsplit rfl
          exact absurd (List.mem_singleton.2 (List.singleton_inj.1 hlast)) hback.2

theorem toLower_mem {t : Str} {s : String} (ht : toLower t = str s) {c : CodePoint} (hc : c ∈ t) :
    ∃ d ∈ str s, toLower [c] = [d] := by
  have hmem : (if 65 ≤ c.val ∧ c.val ≤ 90 then Fin.ofNat _ (c.val + 32) else c) ∈ toLower t :=
    List.mem_map_of_mem hc
  rw [ht] at hmem
  exact ⟨_, hmem, rfl⟩

/-- The letters of `href=` are written as they are. -/
theorem encode_href {t : Str} (ht : toLower t = str "href=") :
    htmlAttributeEncode t = t ∧ semicolon ∉ t := by
  have hletters : ∀ c ∈ t, c ≠ quotation ∧ c ≠ ampersand ∧ c ≠ less ∧ c ≠ apostrophe ∧
      c ≠ semicolon := by
    intro c hc
    obtain ⟨d, hd, hlower⟩ := toLower_mem ht hc
    have hne {mark : CodePoint} (hmark : toLower [mark] = [mark])
        (hnot : (str "href=").all (otherThan mark) = true) : c ≠ mark := by
      rintro rfl
      rw [hmark] at hlower
      exact of_decide_eq_true (List.all_eq_true.1 hnot d hd) (List.singleton_inj.1 hlower).symm
    exact ⟨hne (by decide) (by decide), hne (by decide) (by decide), hne (by decide) (by decide),
      hne (by decide) (by decide), hne (by decide) (by decide)⟩
  constructor
  · rw [htmlAttributeEncode]
    have hpoint : ∀ c ∈ t, attributePoint c = [c] := by
      intro c hc
      obtain ⟨hquotation, hampersand, hless, hapostrophe, -⟩ := hletters c hc
      rw [attributePoint, if_neg hquotation, if_neg hampersand, if_neg hless, if_neg hapostrophe]
    rw [List.flatMap_congr hpoint]
    exact List.flatMap_singleton' t
  · exact fun hmem => (hletters semicolon hmem).2.2.2.2 rfl

/-- Encoding does not change whether a URL is taken for the start of an attribute. -/
theorem endsOpen_encode (hW : P.HasWords) (url : Str) :
    endsOpen P (htmlAttributeEncode url) = endsOpen P url := by
  have hmark {c : CodePoint} (hc : c = quotation ∨ c = ampersand ∨ c = less ∨ c = apostrophe) :
      P.isWord c = false := by
    rcases hc with rfl | rfl | rfl | rfl <;> rw [hW _ (by decide)] <;> decide
  have hsemicolon : P.isWord semicolon = false := by
    rw [hW _ (by decide)]
    decide
  -- the last character before the end, encoded and not
  have hlast (front : Str) : (∀ c ∈ (htmlAttributeEncode front).getLast?, P.isWord c = false) ↔
      ∀ c ∈ front.getLast?, P.isWord c = false := by
    rcases List.eq_nil_or_concat front with rfl | ⟨front, c, rfl⟩
    · exact Iff.rfl
    · rw [List.concat_eq_append, htmlAttributeEncode, List.flatMap_append, List.flatMap_singleton,
        List.getLast?_concat]
      rcases attributePoint_cases c with hc | ⟨⟨more, hc⟩, hspecial⟩
      · rw [hc, List.getLast?_concat]
      · rw [hc, ← List.append_assoc, List.getLast?_concat]
        simp [hsemicolon, hmark hspecial]
  rw [Bool.eq_iff_iff, endsOpen_iff, endsOpen_iff]
  constructor
  · rintro ⟨front, back, hsplit, hback, hfront⟩
    obtain ⟨start, rfl, rfl⟩ := encode_split (encode_href hback).2 hsplit
    exact ⟨start, back, rfl, hback, (hlast start).1 hfront⟩
  · rintro ⟨front, back, rfl, hback, hfront⟩
    refine ⟨htmlAttributeEncode front, back, ?_, hback, (hlast front).2 hfront⟩
    rw [htmlAttributeEncode, List.flatMap_append]
    exact congrArg _ (encode_href hback).1

/-! ## Sizes -/

/-- The bytes of a character in an attribute. -/
def attributeBytes (c : CodePoint) : Nat :=
  if c = quotation then 6
  else if c = ampersand ∨ c = apostrophe then 5
  else if c = less then 4
  else Text.pointSize c

/-- The bytes of a character in a text. -/
def htmlBytes (c : CodePoint) : Nat :=
  if c = greater then 4 else if 160 ≤ c.val ∧ c.val < 256 then 6 else attributeBytes c

/-- The bytes of a page with these bookmarks. -/
def exportedSize (bookmarks : List Bookmark) : Nat :=
  152 + (bookmarks.map fun b =>
    23 + ((b.url.map attributeBytes).sum + (b.title.map htmlBytes).sum)).sum

theorem size_attributePoint (c : CodePoint) : utf8Size (attributePoint c) = attributeBytes c := by
  unfold attributePoint attributeBytes
  split
  · rfl
  · by_cases hampersand : c = ampersand
    · rw [if_pos hampersand, if_pos (.inl hampersand)]
      rfl
    · rw [if_neg hampersand]
      by_cases hless : c = less
      · rw [if_pos hless, if_neg (by rw [hless]; decide), if_pos hless]
        rfl
      · rw [if_neg hless]
        by_cases hapostrophe : c = apostrophe
        · rw [if_pos hapostrophe, if_pos (.inr hapostrophe)]
          rfl
        · rw [if_neg hapostrophe, if_neg (not_or.2 ⟨hampersand, hapostrophe⟩), if_neg hless]
          exact Nat.add_zero _

theorem size_htmlPoint {c : CodePoint} (hc : IsUnit c) : utf8Size (htmlPoint c) = htmlBytes c := by
  have hpair : ¬ 0x10000 ≤ c.val := Nat.not_le.2 hc.1
  unfold htmlPoint htmlBytes
  split
  · rfl
  · by_cases hnumber : 160 ≤ c.val ∧ c.val < 256
    · have hshort : ¬ (Text.digits c.val).length ≤ 2 := by
        rw [Text.length_digits_le_iff (by omega)]
        omega
      have hlong := (Text.length_digits_le_iff (n := c.val) (k := 3) (by omega)).2 (by omega)
      have hmarks : utf8Size (str "&#") = 2 ∧ utf8Size (str ";") = 1 := ⟨rfl, rfl⟩
      rw [if_pos (.inl hnumber), if_pos hnumber, Text.utf8Size_append, Text.utf8Size_append,
        (Json.ascii_digits _).utf8Size, hmarks.1, hmarks.2]
      omega
    · rw [if_neg (not_or.2 ⟨hnumber, hpair⟩), if_neg hnumber, replacePoint_of_not hc.2]
      exact size_attributePoint c

theorem size_flatMap {f : CodePoint → Str} {g : CodePoint → Nat} {s : Str}
    (h : ∀ c ∈ s, utf8Size (f c) = g c) : utf8Size (s.flatMap f) = (s.map g).sum := by
  induction s with
  | nil => rfl
  | cons c s ih =>
      obtain ⟨hc, hs⟩ := List.forall_mem_cons.1 h
      rw [List.flatMap_cons, Text.utf8Size_append, hc, ih hs, List.map_cons, List.sum_cons]

/-- The parts of a bookmark in a page. -/
def encodedLink (b : Bookmark) : Str × Str := (htmlAttributeEncode b.url, htmlEncode b.title)

/-- A page with bookmarks. -/
def bookmarksPage (bookmarks : List Bookmark) : Str :=
  exportHead ++ (linkLines (bookmarks.map encodedLink) ++ exportFoot)

theorem size_bookmarksPage {bookmarks : List Bookmark}
    (h : ∀ b ∈ bookmarks, ∀ c ∈ b.title, IsUnit c) :
    utf8Size (bookmarksPage bookmarks) = exportedSize bookmarks := by
  have hmarkup : utf8Size (str "  <dt><a href=\"") = 15 ∧ utf8Size (str "\">") = 2 ∧
      utf8Size (str "</a>") = 4 ∧ utf8Size newLine = 2 := ⟨rfl, rfl, rfl, rfl⟩
  have hends : utf8Size exportHead + utf8Size exportFoot = 152 := by decide +kernel
  have hlines : utf8Size (linkLines (bookmarks.map encodedLink)) =
      (bookmarks.map fun b =>
        23 + ((b.url.map attributeBytes).sum + (b.title.map htmlBytes).sum)).sum := by
    induction bookmarks with
    | nil => rfl
    | cons b bookmarks ih =>
        obtain ⟨hb, hbookmarks⟩ := List.forall_mem_cons.1 h
        have hurl : utf8Size (b.url.flatMap attributePoint) = (b.url.map attributeBytes).sum :=
          size_flatMap fun c _ => size_attributePoint c
        have htitle : utf8Size (b.title.flatMap htmlPoint) = (b.title.map htmlBytes).sum :=
          size_flatMap fun c hc => size_htmlPoint (hb c hc)
        rw [linkLines] at ih ⊢
        rw [List.map_cons, List.flatMap_cons, Text.utf8Size_append, ih hbookmarks, List.map_cons,
          List.sum_cons, encodedLink, bookmarkLine]
        simp only [Text.utf8Size_append, htmlAttributeEncode, htmlEncode, hurl, htitle, hmarkup]
        omega
  rw [bookmarksPage, Text.utf8Size_append, Text.utf8Size_append, hlines, exportedSize]
  omega

end ZsecShield.Browser
