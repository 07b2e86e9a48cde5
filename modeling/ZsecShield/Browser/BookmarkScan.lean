import ZsecShield.Browser.BookmarkHtml

/-!
# The links of a page

What `BookmarkAnchor` finds in a page that `ExportBookmarksHtml` wrote.  The repetition before `href`
takes as many characters as it can, and so a URL that ends in `href=` is taken for the start of the
attribute, and its closing mark for the opening one.  Then the link and the next one are one match
(`matchesOf_page`).
-/

namespace ZsecShield.Browser

open Text (Str str CodePoint)
open Backtrack

variable {P : BookmarkPlatform} {β : Type} {next : Place CodePoint AnchorGroup → Option β}
  {last : Option CodePoint} {groups : List (AnchorGroup × Str)}

/-! ## Letters -/

/-- `\b` takes the letters, the digits and the underscore of ASCII for those of words. -/
def BookmarkPlatform.HasWords (P : BookmarkPlatform) : Prop :=
  ∀ c : CodePoint, c.val < 128 → P.isWord c =
    decide (0x30 ≤ c.val ∧ c.val ≤ 0x39 ∨ 0x41 ≤ c.val ∧ c.val ≤ 0x5A ∨
      0x61 ≤ c.val ∧ c.val ≤ 0x7A ∨ c.val = 0x5F)

theorem forall₂_ignoringCase {s : List Char} {t : Str} :
    List.Forall₂ (fun p c => p c = true) (s.map ignoringCase) t ↔ toLower t = s.map Text.ofChar := by
  induction s generalizing t with
  | nil =>
      rw [List.map_nil, List.forall₂_nil_left_iff, List.map_nil, toLower, List.map_eq_nil_iff]
  | cons d s ih =>
      cases t with
      | nil => exact iff_of_false (by rintro ⟨⟩) (by rintro ⟨⟩)
      | cons c t =>
          rw [List.map_cons, List.forall₂_cons, ih, ignoringCase, decide_eq_true_eq, toLower, toLower,
            toLower, List.map_cons, List.map_nil, List.map_cons, List.map_cons, List.cons_eq_cons,
            List.cons_eq_cons]
          exact and_congr_left fun _ => ⟨fun h => h.1, fun h => ⟨h, rfl⟩⟩

theorem run_anyCase {s : String} {t : Str} (h : toLower t = str s) {rest : Str} :
    run (anyCase s) next ⟨last, t ++ rest, groups⟩ = next ⟨after last t, rest, groups⟩ :=
  run_letters (forall₂_ignoringCase.2 h)

theorem run_anyCase_none {s : String} {text : Str}
    (h : ∀ t rest, text = t ++ rest → toLower t ≠ str s) :
    run (anyCase s) next ⟨last, text, groups⟩ = none := by
  rcases run_letters_cases (s.toList.map ignoringCase) next last text groups with
    ⟨t, rest, htext, ht⟩ | hnone
  · exact absurd (forall₂_ignoringCase.1 ht) (h t rest htext)
  · exact hnone

/-- A text does not begin with letters if its first character is none of the first letter. -/
theorem not_starts {s : String} {d : Char} {tail : List Char} (hs : s.toList = d :: tail)
    {c : CodePoint} {text : Str} (hc : toLower [c] ≠ [Text.ofChar d]) :
    ∀ t rest, c :: text = t ++ rest → toLower t ≠ str s := by
  intro t rest htext ht
  have hlist : toLower t = Text.ofChar d :: tail.map Text.ofChar := by
    rw [ht, str, hs, List.map_cons]
  cases t with
  | nil => cases hlist
  | cons e t =>
      obtain ⟨rfl, -⟩ := List.cons.inj htext
      exact hc (congrArg (fun l => l.take 1) hlist)

/-- A character that is no letter is the only one that is it in lower case. -/
theorem eq_of_toLower {c d : CodePoint} (h : toLower [c] = [d]) (hd : d.val < 0x61) : c = d := by
  rw [toLower, List.map_singleton, List.singleton_inj] at h
  split at h
  · rename_i hc
    have hval := congrArg Fin.val h
    have hsum : (Fin.ofNat 0x110000 (c.val + 32)).val = c.val + 32 := Nat.mod_eq_of_lt (by omega)
    omega
  · exact h

/-! ## Behind the value -/

theorem run_anchorEnd {front title rest : Str} (hfront : ∀ c ∈ front, c ≠ greater)
    (htitle : ∀ c ∈ title, c ≠ less) {b : β}
    (hnext : next ⟨some greater, rest, (.title, title) :: groups⟩ = some b) :
    run anchorEnd next ⟨last, front ++ greater :: (title ++ (str "</a>" ++ rest)), groups⟩ =
      some b := by
  have hclose : toLower (str "</a>") = str "</a>" := by decide
  have hmark : isPoint greater greater = true := decide_eq_true rfl
  rw [anchorEnd, run_seq, run_many]
  refine runMany_longest (fun c hc => decide_eq_true (hfront c hc)) ?_ ?_
  · intro c hc
    obtain rfl : greater = c := Option.some.inj hc
    decide
  · rw [run_seq, run_one hmark, run_seq, run_group, run_few]
    refine runFew_shortest (fun _ _ => rfl) ?_ ?_
    · intro l c t ht
      refine run_anyCase_none (not_starts (d := '<') rfl ?_)
      exact fun hc => htitle c (ht.subset List.mem_cons_self) (eq_of_toLower hc (by decide))
    · rw [run_anyCase hclose, List.length_append, Nat.add_sub_cancel, List.take_left]
      exact hnext

/-! ## The value -/

/-- A value between two marks. -/
theorem run_between {mark : CodePoint} {name : AnchorGroup} {value rest : Str}
    (hvalue : ∀ c ∈ value, c ≠ mark) {b : β}
    (hnext : next ⟨some mark, rest, (name, value) :: groups⟩ = some b) :
    run (between mark name) next ⟨last, mark :: (value ++ mark :: rest), groups⟩ = some b := by
  have hmark : isPoint mark mark = true := decide_eq_true rfl
  rw [between, run_seq, run_one hmark, run_seq, run_group, run_many]
  refine runMany_longest (fun c hc => decide_eq_true (hvalue c hc)) ?_ ?_
  · intro c hc
    obtain rfl : mark = c := Option.some.inj hc
    exact decide_eq_false (not_not.2 rfl)
  · rw [run_one hmark, List.length_append, Nat.add_sub_cancel, List.take_left]
    exact hnext

/-- No second mark is there. -/
theorem run_between_open {mark : CodePoint} {name : AnchorGroup} {rest : Str} (h : mark ∉ rest) :
    run (between mark name) next ⟨last, mark :: rest, groups⟩ = none := by
  have hmark : isPoint mark mark = true := decide_eq_true rfl
  have hall : ∀ c ∈ rest, otherThan mark c = true :=
    fun c hc => decide_eq_true fun heq => h (heq ▸ hc)
  rw [between, run_seq, run_one hmark, run_seq, run_group, run_many, ← List.append_nil rest]
  refine runMany_none hall nofun fun u v huv => ?_
  refine run_one_none fun c hc => decide_eq_false fun heq => h ?_
  rw [List.append_nil] at hc
  rw [← huv, ← heq]
  exact List.mem_append_right u (List.mem_of_mem_head? hc)

/-- Another mark is there. -/
theorem run_between_none {mark : CodePoint} {name : AnchorGroup} {text : Str}
    (h : ∀ c ∈ text.head?, c ≠ mark) :
    run (between mark name) next ⟨last, text, groups⟩ = none := by
  rw [between, run_seq]
  exact run_one_none fun c hc => decide_eq_false (h c hc)

/-- The value of the attribute: in quotation marks or in apostrophes. -/
def anchorQuoted : Expression CodePoint AnchorGroup :=
  .either (between quotation .double) (between apostrophe .single)

theorem run_anchorValue {text : Str} (h : ∀ c ∈ text.head?, isWhiteSpace c = false) :
    run anchorValue next ⟨last, equals :: text, groups⟩ =
      run anchorQuoted (run anchorEnd next) ⟨some equals, text, groups⟩ := by
  have hmark : isPoint equals equals = true := decide_eq_true rfl
  have hequals : ∀ c ∈ (equals :: text).head?, isWhiteSpace c = false := by
    intro c hc
    obtain rfl : equals = c := Option.some.inj hc
    decide
  rw [anchorValue, run_seq, run_many, runMany_of_neg hequals, run_seq, run_one hmark, run_seq,
    run_many, runMany_of_neg h]
  rfl

theorem run_anchorValue_none {text : Str}
    (h : ∀ c ∈ text.head?, isWhiteSpace c = false ∧ c ≠ equals) :
    run anchorValue next ⟨last, text, groups⟩ = none := by
  rw [anchorValue, run_seq, run_many, runMany_of_neg fun c hc => (h c hc).1, run_seq]
  exact run_one_none fun c hc => decide_eq_false (h c hc).2

theorem run_anchorQuoted_none {text : Str}
    (h : ∀ c ∈ text.head?, c ≠ quotation ∧ c ≠ apostrophe) :
    run anchorQuoted next ⟨last, text, groups⟩ = none := by
  rw [anchorQuoted, run_either, run_between_none fun c hc => (h c hc).1,
    run_between_none fun c hc => (h c hc).2]
  rfl

/-- A value in quotation marks. -/
theorem run_anchorQuoted {value rest : Str} (hvalue : ∀ c ∈ value, c ≠ quotation) {b : β}
    (hnext : next ⟨some quotation, rest, (.double, value) :: groups⟩ = some b) :
    run anchorQuoted next ⟨last, quotation :: (value ++ quotation :: rest), groups⟩ = some b := by
  rw [anchorQuoted, run_either, run_between hvalue hnext]
  rfl

theorem run_anchorQuoted_open {rest : Str} (h : quotation ∉ rest) :
    run anchorQuoted next ⟨last, quotation :: rest, groups⟩ = none := by
  have hother : ∀ c ∈ (quotation :: rest).head?, c ≠ apostrophe := by
    intro c hc
    obtain rfl : quotation = c := Option.some.inj hc
    decide
  rw [anchorQuoted, run_either, run_between_open h, run_between_none hother]
  rfl

/-! ## The attribute -/

/-- The text of a value: no blanks, no marks and no brackets. -/
def IsValue (s : Str) : Prop :=
  ∀ c ∈ s, (0x21 ≤ c.val ∧ c.val ≤ 0x7E) ∧ c ≠ quotation ∧ c ≠ apostrophe ∧ c ≠ greater

/-- Nothing goes through where there is no `h`. -/
theorem run_anchorHref_first {c : CodePoint} {text : Str} (hc : toLower [c] ≠ [Text.ofChar 'h']) :
    run (anchorHref P) next ⟨last, c :: text, groups⟩ = none := by
  rw [anchorHref, run_seq]
  by_cases hbound : atBoundary P.isWord
      (⟨last, c :: text, groups⟩ : Place CodePoint AnchorGroup) = true
  · rw [run_boundary hbound, run_seq]
    exact run_anyCase_none (not_starts (s := "href") rfl hc)
  · exact run_boundary_none (Bool.not_eq_true _ ▸ hbound)

/-- The letters of `href` in any case are letters of a word. -/
theorem isWord_of_href (hW : P.HasWords) {t : Str} (ht : toLower t = str "href") :
    ∃ c tail, t = c :: tail ∧ P.isWord c = true := by
  cases t with
  | nil => cases ht
  | cons c tail =>
      refine ⟨c, tail, rfl, ?_⟩
      have hc : toLower [c] = [Text.ofChar 'h'] := congrArg (fun l => l.take 1) ht
      rw [toLower, List.map_singleton, List.singleton_inj] at hc
      have hval : (Text.ofChar 'h').val = 0x68 := rfl
      split at hc
      · rename_i hupper
        rw [hW c (by omega)]
        exact decide_eq_true (by omega)
      · have hlower : c.val = 0x68 := by rw [hc, hval]
        rw [hW c (by omega)]
        exact decide_eq_true (by omega)

/-- `href=` in any case, taken apart. -/
theorem toLower_href {t : Str} : toLower t = str "href=" ↔ ∃ name, t = name ++ [equals] ∧
    toLower name = str "href" := by
  constructor
  · intro ht
    rcases List.eq_nil_or_concat t with rfl | ⟨name, c, rfl⟩
    · cases ht
    · have hsplit : str "href=" = str "href" ++ [equals] := rfl
      rw [List.concat_eq_append] at ht ⊢
      rw [hsplit, toLower, List.map_append] at ht
      obtain ⟨hname, hc⟩ := List.append_inj' ht rfl
      rw [eq_of_toLower hc (by decide)]
      exact ⟨name, rfl, hname⟩
  · rintro ⟨name, rfl, hname⟩
    rw [toLower, List.map_append]
    exact congrArg (· ++ [equals]) hname

/-- Within a value nothing goes through, unless it is `href=` at its end. -/
theorem run_anchorHref_none (hW : P.HasWords) {value rest : Str} (hvalue : IsValue value)
    (hopen : toLower value = str "href=" → ∃ c ∈ last, P.isWord c = true) :
    run (anchorHref P) next ⟨last, value ++ quotation :: rest, groups⟩ = none := by
  rw [anchorHref, run_seq]
  by_cases hbound : atBoundary P.isWord
      (⟨last, value ++ quotation :: rest, groups⟩ : Place CodePoint AnchorGroup) = true
  swap
  · exact run_boundary_none (Bool.not_eq_true _ ▸ hbound)
  rw [run_boundary hbound, run_seq]
  rcases run_letters_cases ("href".toList.map ignoringCase) (run anchorValue next) last
    (value ++ quotation :: rest) groups with ⟨t, behind, htext, ht⟩ | hnone
  swap
  · exact hnone
  rw [forall₂_ignoringCase] at ht
  have ht : toLower t = str "href" := ht
  rw [htext, run_anyCase ht]
  have hnext {c : CodePoint} {tail : Str} (hc : c ∈ value) :
      isWhiteSpace c = false := not_isWhiteSpace (hvalue c hc).1
  -- the letters stand in the value
  obtain ⟨tail, hsplit, hbehind⟩ : ∃ tail, value = t ++ tail ∧ behind = tail ++ quotation :: rest := by
    rcases List.append_eq_append_iff.1 htext with ⟨more, hmore, hrest⟩ | ⟨tail, hvalue, hbehind⟩
    · cases more with
      | nil =>
          refine ⟨[], ?_, hrest.symm⟩
          rw [List.append_nil] at hmore ⊢
          exact hmore.symm
      | cons c more =>
          obtain ⟨rfl, -⟩ := List.cons.inj hrest
          have hmem : quotation ∈ toLower t := by
            rw [hmore, toLower, List.map_append]
            exact List.mem_append_right _ List.mem_cons_self
          rw [ht] at hmem
          exact absurd hmem (by decide)
    · exact ⟨tail, hvalue, hbehind⟩
  rw [hbehind]
  cases tail with
  | nil =>
      refine run_anchorValue_none fun c hc => ?_
      obtain rfl : quotation = c := Option.some.inj hc
      decide
  | cons c tail =>
      have hc : c ∈ value := hsplit ▸ List.mem_append_right _ List.mem_cons_self
      by_cases hequals : c = equals
      swap
      · refine run_anchorValue_none fun d hd => ?_
        obtain rfl : c = d := Option.some.inj hd
        exact ⟨not_isWhiteSpace (hvalue c hc).1, hequals⟩
      rw [hequals, List.cons_append]
      cases tail with
      | nil =>
          -- the value is `href=`, and there is no boundary before it
          obtain ⟨d, hd, hword⟩ := hopen (toLower_href.2 ⟨t, by rw [hsplit, hequals], ht⟩)
          obtain ⟨h, more, rfl, hh⟩ := isWord_of_href hW ht
          obtain rfl : last = some d := hd
          rw [htext, atBoundary] at hbound
          simp [hword, hh] at hbound
      | cons d tail =>
          have hd := hvalue d (hsplit ▸ List.mem_append_right _ (List.mem_cons_of_mem _
            List.mem_cons_self))
          rw [List.cons_append, run_anchorValue, run_anchorQuoted_none]
          · intro x hx
            obtain rfl : d = x := Option.some.inj hx
            exact ⟨hd.2.1, hd.2.2.1⟩
          · intro x hx
            obtain rfl : d = x := Option.some.inj hx
            exact not_isWhiteSpace hd.1

/-- After a character that is of no word `href=` is the start of an attribute. -/
theorem run_anchorHref (hW : P.HasWords) {t text : Str} (ht : toLower t = str "href=")
    (hlast : ∀ c ∈ last, P.isWord c = false) :
    run (anchorHref P) next ⟨last, t ++ quotation :: text, groups⟩ =
      run anchorQuoted (run anchorEnd next) ⟨some equals, quotation :: text, groups⟩ := by
  obtain ⟨name, rfl, hname⟩ := toLower_href.1 ht
  obtain ⟨c, tail, rfl, hc⟩ := isWord_of_href hW hname
  have hbound : atBoundary P.isWord
      (⟨last, (c :: tail) ++ (equals :: quotation :: text), groups⟩ :
        Place CodePoint AnchorGroup) = true := by
    cases last with
    | none => simp [atBoundary, hc]
    | some d => simp [atBoundary, hc, hlast d rfl]
  rw [List.append_assoc, List.singleton_append, anchorHref, run_seq, run_boundary hbound, run_seq,
    run_anyCase hname, run_anchorValue]
  intro x hx
  obtain rfl : quotation = x := Option.some.inj hx
  decide

/-! ## A link -/

/-- The URL ends in `href=`, after a character that is of no word. -/
def endsOpen (P : BookmarkPlatform) (url : Str) : Bool :=
  decide (toLower (url.drop (url.length - 5)) = str "href=") &&
    (url.take (url.length - 5)).getLast?.all fun c => !P.isWord c

theorem endsOpen_iff {url : Str} : endsOpen P url = true ↔
    ∃ front back, url = front ++ back ∧ toLower back = str "href=" ∧
      ∀ c ∈ front.getLast?, P.isWord c = false := by
  rw [endsOpen, Bool.and_eq_true, decide_eq_true_eq, Option.all_eq_true]
  constructor
  · rintro ⟨hback, hfront⟩
    refine ⟨_, _, (List.take_append_drop _ url).symm, hback, fun c hc => ?_⟩
    simpa using hfront c hc
  · rintro ⟨front, back, rfl, hback, hfront⟩
    have hlength : back.length = 5 := by
      have hsame := congrArg List.length hback
      rwa [toLower, List.length_map] at hsame
    have hstart : (front ++ back).length - 5 = front.length := by
      rw [List.length_append, hlength, Nat.add_sub_cancel]
    rw [hstart, List.drop_left, List.take_left]
    exact ⟨hback, fun c hc => by simpa using hfront c hc⟩

/-- A link, and what is behind it. -/
def linkText (url title rest : Str) : Str :=
  str "<a" ++ blank :: (str "href=" ++ quotation ::
    (url ++ quotation :: greater :: (title ++ (str "</a>" ++ rest))))

/-- What goes through behind `<a` is what the repetition before `href` finds. -/
theorem run_bookmarkAnchor (hW : P.HasWords) {text : Str} :
    run (bookmarkAnchor P) next ⟨last, str "<a" ++ blank :: text, groups⟩ =
      runMany (otherThan greater) (fun last s => run (anchorHref P) next ⟨last, s, groups⟩)
        (some (Text.ofChar 'a')) (blank :: text) := by
  have hstart : toLower (str "<a") = str "<a" := by decide
  have hlast : after last (str "<a") = some (Text.ofChar 'a') := rfl
  have hword : P.isWord (Text.ofChar 'a') = true := by
    rw [hW _ (by decide)]
    decide
  have hblank : P.isWord blank = false := by
    rw [hW _ (by decide)]
    decide
  rw [bookmarkAnchor, run_seq, run_anyCase hstart, hlast, run_seq, run_boundary, run_seq, run_many]
  simp [atBoundary, hword, hblank]

theorem append_eq_cons {u v : Str} {c : CodePoint} {s : Str} (h : u ++ v = c :: s) (hne : u ≠ []) :
    ∃ tail, u = c :: tail ∧ tail ++ v = s := by
  cases u with
  | nil => exact absurd rfl hne
  | cons d tail =>
      obtain ⟨rfl, hrest⟩ := List.cons.inj h
      exact ⟨tail, rfl, hrest⟩

/-- Nothing goes through within letters that are no `h`. -/
theorem run_anchorHref_within {marks t u v behind : Str}
    (hmarks : ∀ c ∈ marks, toLower [c] ≠ [Text.ofChar 'h']) (huv : u ++ v = marks ++ t) :
    run (anchorHref P) next ⟨last, v ++ behind, groups⟩ = none ∨
      ∃ tail, u = marks ++ tail ∧ tail ++ v = t := by
  rcases List.append_eq_append_iff.1 huv with ⟨within, hwithin, hv⟩ | ⟨tail, hu, ht⟩
  · cases within with
    | nil =>
        right
        rw [List.append_nil] at hwithin
        exact ⟨[], by rw [hwithin, List.append_nil], hv⟩
    | cons c within =>
        left
        rw [hv, List.cons_append]
        refine run_anchorHref_first (hmarks c ?_)
        rw [hwithin]
        exact List.mem_append_right _ List.mem_cons_self
  · exact .inr ⟨tail, hu, ht.symm⟩

/-- Behind the mark that closes a value nothing goes through. -/
theorem run_anchorHref_greater {rest : Str} :
    run (anchorHref P) next ⟨last, greater :: rest, groups⟩ = none :=
  run_anchorHref_first (by decide)

theorem marks_of_href : ∀ c ∈ str "ref=" ++ [quotation], toLower [c] ≠ [Text.ofChar 'h'] := by
  have hall : (str "ref=" ++ [quotation]).all
      (fun c => decide (toLower [c] ≠ [Text.ofChar 'h'])) = true := by
    decide
  exact fun c hc => of_decide_eq_true (List.all_eq_true.1 hall c hc)

/-- From within a URL nothing goes through, if it is not taken for the start of an attribute. -/
theorem run_anchorHref_value (hW : P.HasWords) {url front v behind : Str} (hurl : IsValue url)
    (hsplit : front ++ v = url ++ [quotation])
    (hbehind : ∀ last, run (anchorHref P) next ⟨last, behind, groups⟩ = none)
    (hclosed : endsOpen P url = true → quotation ∉ behind) :
    run (anchorHref P) next ⟨after (some quotation) front, v ++ behind, groups⟩ = none := by
  rcases List.eq_nil_or_concat v with rfl | ⟨value, d, rfl⟩
  · exact hbehind _
  · rw [List.concat_eq_append, ← List.append_assoc] at hsplit
    obtain ⟨rfl, hd⟩ := List.append_inj' hsplit rfl
    obtain rfl : d = quotation := List.singleton_inj.1 hd
    have hvalue : IsValue value := fun c hc => hurl c (List.mem_append_right _ hc)
    rw [List.concat_eq_append, List.append_assoc, List.singleton_append]
    by_cases hhref : toLower value = str "href="
    · by_cases hword : ∃ c ∈ after (some quotation) front, P.isWord c = true
      · exact run_anchorHref_none hW hvalue fun _ => hword
      · have hnot : ∀ c ∈ after (some quotation) front, P.isWord c = false := fun c hc =>
          Bool.not_eq_true _ ▸ fun h => hword ⟨c, hc, h⟩
        have hopen : endsOpen P (front ++ value) = true := by
          refine endsOpen_iff.2 ⟨front, value, rfl, hhref, fun c hc => hnot c ?_⟩
          have hlast : front.getLast? = some c := hc
          rw [after, hlast]
          rfl
        rw [run_anchorHref hW hhref hnot]
        exact run_anchorQuoted_open (hclosed hopen)
    · exact run_anchorHref_none hW hvalue fun h => absurd h hhref

theorem otherThan_attribute {url : Str} (hurl : IsValue url) :
    ∀ c ∈ blank :: (str "href=" ++ quotation :: (url ++ [quotation])), otherThan greater c = true := by
  have hname : (blank :: str "href=").all (otherThan greater) = true := by decide
  intro c hc
  rw [← List.cons_append, List.mem_append] at hc
  rcases hc with hc | hc
  · exact List.all_eq_true.1 hname c hc
  · refine decide_eq_true ?_
    rcases List.mem_cons.1 hc with rfl | hc
    · decide
    · rcases List.mem_append.1 hc with hc | hc
      · exact (hurl c hc).2.2.2
      · rw [List.mem_singleton.1 hc]
        decide

/-- A link whose URL is not taken for the start of an attribute. -/
theorem run_link (hW : P.HasWords) {url title rest : Str} (hurl : IsValue url)
    (htitle : ∀ c ∈ title, c ≠ less)
    (hclosed : endsOpen P url = true → quotation ∉ greater :: (title ++ (str "</a>" ++ rest))) {b : β}
    (hnext : next ⟨some greater, rest, (.title, title) :: (.double, url) :: groups⟩ = some b) :
    run (bookmarkAnchor P) next ⟨last, linkText url title rest, groups⟩ = some b := by
  obtain ⟨behind, hbehind⟩ : ∃ behind, behind = greater :: (title ++ (str "</a>" ++ rest)) :=
    ⟨_, rfl⟩
  have hend : ∀ last, run anchorEnd next ⟨last, behind, (.double, url) :: groups⟩ = some b := by
    intro last
    rw [hbehind]
    exact run_anchorEnd (List.forall_mem_nil _) htitle hnext
  have hvalue : ∀ c ∈ url, c ≠ quotation := fun c hc => (hurl c hc).2.1
  have htext : linkText url title rest = str "<a" ++ blank ::
      ((str "href=" ++ quotation :: (url ++ [quotation])) ++ behind) := by
    rw [hbehind, linkText]
    simp only [List.append_assoc, List.cons_append, List.nil_append]
  have hbehind' : ∀ last, run (anchorHref P) next ⟨last, behind, groups⟩ = none := fun last => by
    rw [hbehind]
    exact run_anchorHref_greater
  rw [← hbehind] at hclosed
  rw [htext, run_bookmarkAnchor hW, ← List.singleton_append (x := blank)]
  refine runMany_at ?_ ?_ ?_ ?_
  · exact otherThan_attribute hurl
  · intro c hc
    rw [hbehind] at hc
    obtain rfl : greater = c := Option.some.inj hc
    decide
  · intro u v huv hne
    have hhead : u ++ v = Text.ofChar 'h' :: ((str "ref=" ++ [quotation]) ++ (url ++ [quotation])) :=
      huv
    obtain ⟨u, rfl, hsplit⟩ := append_eq_cons hhead hne
    rcases run_anchorHref_within marks_of_href hsplit with hnone | ⟨front, rfl, hfront⟩
    · exact hnone
    · have hlast : after (after (some (Text.ofChar 'a')) [blank])
          (Text.ofChar 'h' :: ((str "ref=" ++ [quotation]) ++ front)) = after (some quotation) front := by
        rw [← List.cons_append, after_append]
        rfl
      rw [hlast]
      exact run_anchorHref_value hW hurl hfront hbehind' hclosed
  · have hblank : ∀ c ∈ some blank, P.isWord c = false := by
      intro c hc
      obtain rfl : blank = c := Option.some.inj hc
      rw [hW _ (by decide)]
      decide
    rw [List.append_assoc, List.cons_append, List.append_assoc, List.singleton_append]
    refine (run_anchorHref hW (by decide) hblank).trans ?_
    exact run_anchorQuoted hvalue (hend _)

/-- A link whose URL is taken for the start of an attribute: its match goes on to the end of the link
whose value begins with the next quotation mark. -/
theorem run_link_open (hW : P.HasWords) {url title middle url' title' rest : Str}
    (hurl : IsValue url) (hopen : endsOpen P url = true)
    (hmiddle : ∀ c ∈ greater :: (title ++ (str "</a>" ++ middle)), c ≠ quotation)
    (hurl' : ∀ c ∈ url', c ≠ greater) (htitle' : ∀ c ∈ title', c ≠ less) {b : β}
    (hnext : next ⟨some greater, rest, (.title, title') ::
      (.double, greater :: (title ++ (str "</a>" ++ middle))) :: groups⟩ = some b) :
    run (bookmarkAnchor P) next ⟨last, linkText url title (middle ++ quotation :: (url' ++ quotation ::
      greater :: (title' ++ (str "</a>" ++ rest)))), groups⟩ = some b := by
  obtain ⟨front, back, rfl, hback, hfront⟩ := endsOpen_iff.1 hopen
  obtain ⟨behind, hbehind⟩ : ∃ behind, behind = url' ++ quotation :: greater ::
    (title' ++ (str "</a>" ++ rest)) := ⟨_, rfl⟩
  have hend : ∀ last, run anchorEnd next ⟨last, behind,
      (.double, greater :: (title ++ (str "</a>" ++ middle))) :: groups⟩ = some b := by
    intro last
    have hvalue : ∀ c ∈ url' ++ [quotation], c ≠ greater := by
      intro c hc
      rcases List.mem_append.1 hc with hc | hc
      · exact hurl' c hc
      · rw [List.mem_singleton.1 hc]
        decide
    have hanchor : run anchorEnd next ⟨last, (url' ++ [quotation]) ++ greater ::
        (title' ++ (str "</a>" ++ rest)),
        (.double, greater :: (title ++ (str "</a>" ++ middle))) :: groups⟩ = some b :=
      run_anchorEnd hvalue htitle' hnext
    rwa [List.append_assoc, List.singleton_append, ← hbehind] at hanchor
  have htext : linkText (front ++ back) title (middle ++ quotation :: behind) =
      str "<a" ++ blank :: ((str "href=" ++ quotation :: front) ++ ((back ++ [quotation]) ++
        (greater :: (title ++ (str "</a>" ++ middle)) ++ quotation :: behind))) := by
    rw [linkText]
    simp only [List.append_assoc, List.cons_append, List.nil_append]
  have hlast : ∀ c ∈ after (some (Text.ofChar 'a')) (blank :: (str "href=" ++ quotation :: front)),
      P.isWord c = false := by
    have hfollow : after (some (Text.ofChar 'a')) (blank :: (str "href=" ++ quotation :: front)) =
        after (some quotation) front := by
      rw [after_cons, after_append, after_cons]
    rw [hfollow]
    intro c hc
    cases hend : front.getLast? with
    | none =>
        rw [after, hend] at hc
        obtain rfl : quotation = c := Option.some.inj hc
        rw [hW _ (by decide)]
        decide
    | some d =>
        rw [after, hend] at hc
        obtain rfl : d = c := Option.some.inj hc
        exact hfront d hend
  rw [← hbehind, htext, run_bookmarkAnchor hW, ← List.cons_append]
  refine runMany_at ?_ ?_ ?_ ?_
  · have hsame : blank :: (str "href=" ++ quotation :: front) ++ (back ++ [quotation]) =
        blank :: (str "href=" ++ quotation :: (front ++ back ++ [quotation])) := by
      simp only [List.append_assoc, List.cons_append]
    rw [hsame]
    exact otherThan_attribute hurl
  · intro c hc
    obtain rfl : greater = c := Option.some.inj hc
    decide
  · intro u v huv hne
    rcases List.eq_nil_or_concat v with rfl | ⟨value, d, rfl⟩
    · exact run_anchorHref_greater
    · rw [List.concat_eq_append, ← List.append_assoc] at huv
      obtain ⟨rfl, hd⟩ := List.append_inj' huv rfl
      obtain rfl : d = quotation := List.singleton_inj.1 hd
      rw [List.concat_eq_append, List.append_assoc, List.singleton_append]
      refine run_anchorHref_none hW (fun c hc => hurl c ?_) fun hvalue => ?_
      · exact List.mem_append_right _ (List.mem_append_right _ hc)
      · -- only the whole of `href=` is as long as it
        have hlength := congrArg List.length (hback.trans hvalue.symm)
        have hpos := List.length_pos_of_ne_nil hne
        rw [toLower, toLower, List.length_map, List.length_map, List.length_append] at hlength
        omega
  · rw [List.append_assoc, List.singleton_append]
    refine (run_anchorHref hW hback hlast).trans ?_
    exact run_anchorQuoted hmiddle (hend _)

/-! ## A page -/

/-- No link begins in the text, or at its end. -/
def hasNoLink : Str → Bool
  | [] => true
  | [c] => !decide (c = less)
  | c :: d :: s => (!decide (c = less) || !decide (toLower [d] = [Text.ofChar 'a'])) && hasNoLink (d :: s)

theorem matchAt_none {text : Str} (h : ∀ t rest, text = t ++ rest → toLower t ≠ str "<a") :
    matchAt (bookmarkAnchor P) last text = none := by
  rw [matchAt, bookmarkAnchor, run_seq]
  exact run_anyCase_none h

theorem starts_link {t rest text : Str} (htext : text = t ++ rest) (ht : toLower t = str "<a") :
    ∃ d tail, text = less :: d :: tail ∧ toLower [d] = [Text.ofChar 'a'] := by
  match t with
  | [] => cases ht
  | [c] => cases congrArg List.length ht
  | c :: d :: e :: more => cases congrArg List.length ht
  | [c, d] =>
      have hc : toLower [c] = [less] := congrArg (fun l => l.take 1) ht
      have hd : toLower [d] = [Text.ofChar 'a'] := congrArg (fun l => l.drop 1) ht
      exact ⟨d, rest, by rw [htext, eq_of_toLower hc (by decide)]; rfl, hd⟩

theorem matchAt_hasNoLink {c : CodePoint} {s rest : Str} (h : hasNoLink (c :: s) = true) :
    matchAt (bookmarkAnchor P) last (c :: s ++ rest) = none := by
  refine matchAt_none fun t behind htext ht => ?_
  obtain ⟨d, tail, hlink, hd⟩ := starts_link htext ht
  obtain ⟨rfl, htail⟩ := List.cons.inj hlink
  cases s with
  | nil => simp [hasNoLink] at h
  | cons e s =>
      obtain ⟨rfl, -⟩ := List.cons.inj htail
      simp [hasNoLink, hd] at h

theorem hasNoLink_suffix {s : Str} (h : hasNoLink s = true) : ∀ t, t <:+ s → hasNoLink t = true := by
  induction s with
  | nil =>
      intro t ht
      rw [List.suffix_nil.1 ht]
      rfl
  | cons c s ih =>
      intro t ht
      rcases List.suffix_cons_iff.1 ht with rfl | ht
      · exact h
      · refine ih ?_ t ht
        cases s with
        | nil => rfl
        | cons d s =>
            rw [hasNoLink, Bool.and_eq_true] at h
            exact h.2

/-- Such a text is passed over. -/
theorem pieces_hasNoLink {s rest : Str} (h : hasNoLink s = true) :
    (pieces (bookmarkAnchor P) 0 last (s ++ rest)).filterMap Sum.getRight? =
      (pieces (bookmarkAnchor P) 0 (after last s) rest).filterMap Sum.getRight? := by
  have hnone : (s.map (Sum.inl (β := List (AnchorGroup × Str)))).filterMap Sum.getRight? = [] :=
    List.filterMap_eq_nil_iff.2 (List.forall_mem_map.2 fun _ _ => rfl)
  rw [pieces_none fun last c t ht => matchAt_hasNoLink (hasNoLink_suffix h _ ht), List.filterMap_append,
    hnone, List.nil_append]

theorem linkText_append (url title rest : Str) :
    linkText url title rest = linkText url title [] ++ rest := by
  rw [linkText, linkText]
  simp only [List.append_assoc, List.cons_append, List.append_nil]

/-- The groups of a link. -/
def linkGroups (link : Str × Str) : List (AnchorGroup × Str) := [(.title, link.2), (.double, link.1)]

theorem linkText_ne_nil {url title : Str} : linkText url title [] ≠ [] := List.cons_ne_nil _ _

theorem pieces_link (hW : P.HasWords) {link : Str × Str} {rest : Str} (hurl : IsValue link.1)
    (htitle : ∀ c ∈ link.2, c ≠ less)
    (hclosed : endsOpen P link.1 = true →
      quotation ∉ greater :: (link.2 ++ (str "</a>" ++ rest))) :
    (pieces (bookmarkAnchor P) 0 last (linkText link.1 link.2 rest)).filterMap Sum.getRight? =
      linkGroups link :: (pieces (bookmarkAnchor P) 0 (after last (linkText link.1 link.2 [])) rest).filterMap
        Sum.getRight? := by
  have hmatch : matchAt (bookmarkAnchor P) last (linkText link.1 link.2 rest) =
      some ⟨(linkText link.1 link.2 []).length, linkGroups link⟩ := by
    refine run_link hW hurl htitle hclosed ?_
    rw [linkText_append, List.length_append, Nat.add_sub_cancel]
    rfl
  rw [linkText_append] at hmatch ⊢
  rw [pieces_match linkText_ne_nil hmatch rfl]
  rfl

/-- The groups of a match that begins with one link and ends with the next one. -/
def swallowedGroups (link next : Str × Str) : List (AnchorGroup × Str) :=
  [(.title, next.2),
    (.double, greater :: (link.2 ++ (str "</a>" ++ (newLine ++ str "  <dt><a href="))))]

theorem bookmarkLine_append (link : Str × Str) (rest : Str) :
    bookmarkLine link.1 link.2 ++ rest =
      str "  <dt>" ++ linkText link.1 link.2 (newLine ++ rest) := by
  have hstart : str "  <dt><a href=\"" = str "  <dt>" ++ (str "<a" ++ blank :: (str "href=" ++ [quotation])) :=
    rfl
  have hmark : str "\">" = [quotation, greater] := rfl
  rw [bookmarkLine, linkText, hstart, hmark]
  simp only [List.append_assoc, List.cons_append, List.nil_append]

theorem bookmarkLine_append' (link : Str × Str) (rest : Str) :
    newLine ++ (bookmarkLine link.1 link.2 ++ rest) =
      (newLine ++ str "  <dt><a href=") ++ quotation :: (link.1 ++ quotation :: greater ::
        (link.2 ++ (str "</a>" ++ (newLine ++ rest)))) := by
  have hstart : str "  <dt><a href=\"" = str "  <dt><a href=" ++ [quotation] := rfl
  have hmark : str "\">" = [quotation, greater] := rfl
  rw [bookmarkLine, hstart, hmark]
  simp only [List.append_assoc, List.cons_append, List.nil_append]

theorem quotation_notMem {title rest : Str} (htitle : ∀ c ∈ title, c ≠ quotation)
    (hrest : rest.all (otherThan quotation) = true) :
    quotation ∉ greater :: (title ++ (str "</a>" ++ rest)) := by
  have hclose : quotation ∉ str "</a>" := by decide
  rw [List.mem_cons, List.mem_append, List.mem_append]
  rintro (hmark | hmem | hmem | hmem)
  · exact absurd hmark (by decide)
  · exact htitle _ hmem rfl
  · exact hclose hmem
  · exact of_decide_eq_true (List.all_eq_true.1 hrest _ hmem) rfl

theorem pieces_swallowed (hW : P.HasWords) (last : Option CodePoint) {link other : Str × Str}
    (rest : Str) (hurl : IsValue link.1) (hopen : endsOpen P link.1 = true)
    (htitle : ∀ c ∈ link.2, c ≠ less ∧ c ≠ quotation) (hurl' : IsValue other.1)
    (htitle' : ∀ c ∈ other.2, c ≠ less ∧ c ≠ quotation) :
    ∃ last', (pieces (bookmarkAnchor P) 0 last
      (linkText link.1 link.2 (newLine ++ (bookmarkLine other.1 other.2 ++ rest)))).filterMap
        Sum.getRight? = swallowedGroups link other ::
          (pieces (bookmarkAnchor P) 0 last' (newLine ++ rest)).filterMap Sum.getRight? := by
  obtain ⟨whole, hwhole⟩ : ∃ whole, whole = linkText link.1 link.2
    ((newLine ++ str "  <dt><a href=") ++ quotation :: (other.1 ++ quotation :: greater ::
      (other.2 ++ str "</a>"))) := ⟨_, rfl⟩
  have htext : linkText link.1 link.2 (newLine ++ (bookmarkLine other.1 other.2 ++ rest)) =
      whole ++ (newLine ++ rest) := by
    rw [bookmarkLine_append', hwhole, linkText, linkText]
    simp only [List.append_assoc, List.cons_append]
  have hmiddle : ∀ c ∈ greater :: (link.2 ++ (str "</a>" ++ (newLine ++ str "  <dt><a href="))),
      c ≠ quotation := by
    intro c hc hmark
    exact quotation_notMem (fun d hd => (htitle d hd).2) (by decide) (hmark ▸ hc)
  have hmatch : matchAt (bookmarkAnchor P) last (whole ++ (newLine ++ rest)) =
      some ⟨whole.length, swallowedGroups link other⟩ := by
    rw [← htext, bookmarkLine_append']
    refine run_link_open hW hurl hopen hmiddle (fun c hc => (hurl' c hc).2.2.2)
      (fun c hc => (htitle' c hc).1) ?_
    rw [← bookmarkLine_append', htext, List.length_append, Nat.add_sub_cancel]
    rfl
  have hne : whole ≠ [] := by
    rw [hwhole]
    exact List.cons_ne_nil _ _
  refine ⟨after last whole, ?_⟩
  rw [htext, pieces_match hne hmatch rfl]
  rfl

/-- What is found of links that stand on their lines. -/
def scanned (P : BookmarkPlatform) : List (Str × Str) → List (List (AnchorGroup × Str))
  | [] => []
  | [link] => [linkGroups link]
  | link :: other :: links =>
      if endsOpen P link.1 then swallowedGroups link other :: scanned P links
      else linkGroups link :: scanned P (other :: links)

/-- Links that an exported page may have. -/
def IsLink (link : Str × Str) : Prop :=
  IsValue link.1 ∧ ∀ c ∈ link.2, c ≠ less ∧ c ≠ quotation

/-- The lines of links. -/
def linkLines (links : List (Str × Str)) : Str := links.flatMap fun link => bookmarkLine link.1 link.2

theorem pieces_linkLines (hW : P.HasWords) (links : List (Str × Str))
    (hlinks : ∀ link ∈ links, IsLink link) : ∀ last,
      (pieces (bookmarkAnchor P) 0 last (linkLines links ++ exportFoot)).filterMap Sum.getRight? =
        scanned P links := by
  have hstart : hasNoLink (str "  <dt>") = true := by decide
  have hbreak : hasNoLink newLine = true := rfl
  have hfoot : hasNoLink exportFoot = true := by decide
  have hfinish (last : Option CodePoint) :
      (pieces (bookmarkAnchor P) 0 last exportFoot).filterMap Sum.getRight? = [] := by
    have hnone : matchAt (bookmarkAnchor P) (after last exportFoot) [] = none := by
      refine matchAt_none fun t rest htext ht => ?_
      rw [(List.append_eq_nil_iff.1 htext.symm).1] at ht
      cases ht
    rw [← List.append_nil exportFoot, pieces_hasNoLink hfoot, pieces, hnone]
    rfl
  fun_induction scanned P links with
  | case1 => exact hfinish
  | case2 link =>
      intro last
      obtain ⟨hurl, htitle⟩ := hlinks link List.mem_cons_self
      have hlast : endsOpen P link.1 = true → quotation ∉ greater ::
          (link.2 ++ (str "</a>" ++ (newLine ++ exportFoot))) := fun _ =>
        quotation_notMem (fun c hc => (htitle c hc).2) (by decide)
      have hempty := hfinish (after (after (after last (str "  <dt>")) (linkText link.1 link.2 [])) newLine)
      rw [linkLines, List.flatMap_singleton, bookmarkLine_append, pieces_hasNoLink hstart,
        pieces_link hW hurl (fun c hc => (htitle c hc).1) hlast, pieces_hasNoLink hbreak, hempty]
  | case3 link other links hopen ih =>
      intro last
      obtain ⟨⟨hurl, htitle⟩, hothers⟩ := List.forall_mem_cons.1 hlinks
      obtain ⟨⟨hurl', htitle'⟩, hrest⟩ := List.forall_mem_cons.1 hothers
      have hlines : linkLines (link :: other :: links) ++ exportFoot = bookmarkLine link.1 link.2 ++
          (bookmarkLine other.1 other.2 ++ (linkLines links ++ exportFoot)) := by
        simp only [linkLines, List.flatMap_cons, List.append_assoc]
      obtain ⟨last', hpieces⟩ := pieces_swallowed hW (after last (str "  <dt>"))
        (linkLines links ++ exportFoot) hurl hopen htitle hurl' htitle'
      rw [hlines, bookmarkLine_append, pieces_hasNoLink hstart, hpieces, pieces_hasNoLink hbreak,
        ih hrest]
  | case4 link other links hclosed ih =>
      intro last
      obtain ⟨⟨hurl, htitle⟩, hothers⟩ := List.forall_mem_cons.1 hlinks
      have hlines : linkLines (link :: other :: links) ++ exportFoot = bookmarkLine link.1 link.2 ++
          (linkLines (other :: links) ++ exportFoot) := by
        simp only [linkLines, List.flatMap_cons, List.append_assoc]
      rw [hlines, bookmarkLine_append, pieces_hasNoLink hstart,
        pieces_link hW hurl (fun c hc => (htitle c hc).1) (fun h => absurd h hclosed),
        pieces_hasNoLink hbreak, ih hothers]

/-- What `BookmarkAnchor` finds in an exported page. -/
theorem matchesOf_page (hW : P.HasWords) {links : List (Str × Str)}
    (hlinks : ∀ link ∈ links, IsLink link) :
    matchesOf (bookmarkAnchor P) (exportHead ++ (linkLines links ++ exportFoot)) =
      scanned P links := by
  have hhead : hasNoLink exportHead = true := by decide
  rw [matchesOf, pieces_hasNoLink hhead, pieces_linkLines hW links hlinks]

theorem scanned_of_closed {links : List (Str × Str)}
    (h : ∀ link ∈ links.dropLast, endsOpen P link.1 = false) :
    scanned P links = links.map linkGroups := by
  fun_induction scanned P links with
  | case1 => rfl
  | case2 link => rfl
  | case3 link other links hopen ih =>
      have hfirst := h link List.mem_cons_self
      rw [hopen] at hfirst
      cases hfirst
  | case4 link other links hclosed ih =>
      rw [List.map_cons, ih fun l hl => h l (List.mem_cons_of_mem _ hl)]

theorem length_scanned_le (links : List (Str × Str)) : (scanned P links).length ≤ links.length := by
  fun_induction scanned P links with
  | case1 => exact Nat.le_refl _
  | case2 link => exact Nat.le_refl _
  | case3 link other links hopen ih =>
      simp only [List.length_cons]
      omega
  | case4 link other links hclosed ih =>
      simp only [List.length_cons] at ih ⊢
      omega

/-- A link is lost where one but the last has such a URL. -/
theorem length_scanned_lt {links : List (Str × Str)}
    (h : ∃ link ∈ links.dropLast, endsOpen P link.1 = true) :
    (scanned P links).length < links.length := by
  obtain ⟨bad, hbad, hopenBad⟩ := h
  fun_induction scanned P links with
  | case1 => cases hbad
  | case2 link => cases hbad
  | case3 link other links hopen ih =>
      have hle := length_scanned_le (P := P) links
      simp only [List.length_cons]
      omega
  | case4 link other links hclosed ih =>
      rw [List.dropLast_cons_cons, List.mem_cons] at hbad
      rcases hbad with rfl | hbad
      · exact absurd hopenBad hclosed
      · have hlt := ih hbad
        simp only [List.length_cons] at hlt ⊢
        omega

end ZsecShield.Browser
