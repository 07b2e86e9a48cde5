import ZsecShield.Lib.Json.Encode

/-!
# Reading back what was written

Scanning the layout of a plain value gives the value back and stops where the layout
ends.  What follows the layout has to end a number, so the statement is about a rest that
starts with a separator (`Ends`).  With `ensure_ascii`, a string keeps its characters only
if no low surrogate stands behind a high one (`Faithful`), because two such escapes are
read as one character.
-/

namespace Json

open Text

/-! ## Strings -/

/-- No two characters would be read as one. -/
def Faithful (s : Str) : Prop := s.IsChain fun a b => ¬ (isHigh a = true ∧ isLow b = true)

/-- A text without surrogates has no such pair. -/
theorem faithful_of_encodable {s : Str} (h : Encodable s) : Faithful s := by
  have hlow {c : CodePoint} (hc : ¬ IsSurrogate c) : isHigh c = false := by
    by_contra hhigh
    rw [Bool.not_eq_false, isHigh, Bool.and_eq_true, decide_eq_true_eq, decide_eq_true_eq] at hhigh
    exact hc ⟨hhigh.1, by omega⟩
  induction s with
  | nil => exact .nil
  | cons c s ih =>
      obtain ⟨hc, hs⟩ := (encodable_cons c s).1 h
      cases s with
      | nil => exact .singleton c
      | cons d s =>
          refine List.isChain_cons_cons.2 ⟨fun hpair => ?_, ih hs⟩
          rw [hlow hc] at hpair
          exact Bool.false_ne_true hpair.1

/-- The points the scanner finds in the text of one character. -/
def pointsOf (σ : Style) (c : CodePoint) : List Point :=
  if c = ofChar '"' || c = ofChar '\\' then [(false, c)]
  else if c.val = 10 || c.val = 13 || c.val = 9 || c.val = 12 || c.val = 8 then [(false, c)]
  else if c.val < 32 then [(true, c)]
  else if σ.ensureAscii && decide (0x7f ≤ c.val) then
    if c.val < 0x10000 then [(true, c)]
    else [(true, ⟨0xD800 + (c.val - 0x10000) / 1024, by omega⟩),
      (true, ⟨0xDC00 + (c.val - 0x10000) % 1024, by omega⟩)]
  else [(false, c)]

theorem Scan.map_map {α β γ : Type} (f : α → β) (g : β → γ) (r : Scan α) :
    (r.map f).map g = r.map fun a => g (f a) := by
  cases r <;> rfl

theorem hexDigit_hexChar : ∀ n < 16, hexDigit (hexChar n) = some n := by decide

theorem lt_points {n : Nat} (h : n < 0x10000) : n < 0x110000 := by omega

/-- The digits of an escape name its number. -/
theorem hexPoint_hexChar {n : Nat} (h : n < 0x10000) :
    hexPoint (hexChar (n / 4096 % 16)) (hexChar (n / 256 % 16)) (hexChar (n / 16 % 16))
      (hexChar (n % 16)) = some ⟨n, lt_points h⟩ := by
  have hn : 4096 * (n / 4096 % 16) + 256 * (n / 256 % 16) + 16 * (n / 16 % 16) + n % 16 = n := by
    omega
  simp only [hexPoint, hexDigit_hexChar _ (Nat.mod_lt _ (by omega : 0 < 16)), Option.bind_some, hn]
  exact dif_pos (by omega)

theorem scanPoints_unicodeEscape {n : Nat} (h : n < 0x10000) (s : Str) :
    scanPoints (unicodeEscape n ++ s) = (scanPoints s).map ((true, ⟨n, lt_points h⟩) :: ·) := by
  have hq : ofChar '\\' ≠ ofChar '"' := by decide
  have hlow : ¬ (ofChar '\\').val < 32 := by decide
  simp only [unicodeEscape, List.cons_append, List.nil_append]
  rw [scanPoints, if_neg hq, if_neg hlow, if_pos rfl]
  simp only [↓reduceIte, hexPoint_hexChar h]

theorem scanPoints_shortEscape {e x : CodePoint} (hu : e ≠ ofChar 'u')
    (h : shortEscape e = some x) (s : Str) :
    scanPoints (ofChar '\\' :: e :: s) = (scanPoints s).map ((false, x) :: ·) := by
  have hq : ofChar '\\' ≠ ofChar '"' := by decide
  have hlow : ¬ (ofChar '\\').val < 32 := by decide
  rw [scanPoints.eq_def]
  simp only [if_neg hq, if_neg hlow, ↓reduceIte, if_neg hu, h]

/-- The scanner takes the text of a character for its points. -/
theorem scanPoints_escape (σ : Style) (c : CodePoint) (s : Str) :
    scanPoints (escape σ c ++ s) = (scanPoints s).map (pointsOf σ c ++ ·) := by
  have hshort : ∀ {e x : CodePoint}, e ≠ ofChar 'u' → shortEscape e = some x → c = x →
      scanPoints ([ofChar '\\', e] ++ s) = (scanPoints s).map ([(false, c)] ++ ·) := by
    intro e x hu hx hc
    rw [hc]
    exact scanPoints_shortEscape hu hx s
  unfold escape pointsOf
  by_cases hquote : (c = ofChar '"' || c = ofChar '\\') = true
  · rw [if_pos hquote, if_pos hquote]
    have hx : shortEscape c = some c := by
      unfold shortEscape
      rw [if_pos (by rw [hquote]; rfl)]
    refine hshort ?_ hx rfl
    intro hu
    rw [hu] at hquote
    revert hquote
    decide
  rw [if_neg hquote, if_neg hquote]
  by_cases h10 : c.val = 10
  · rw [if_pos h10, if_pos (by simp [h10])]
    exact hshort (by decide) (by decide : shortEscape (ofChar 'n') = some 10) (Fin.ext h10)
  rw [if_neg h10]
  by_cases h13 : c.val = 13
  · rw [if_pos h13, if_pos (by simp [h13])]
    exact hshort (by decide) (by decide : shortEscape (ofChar 'r') = some 13) (Fin.ext h13)
  rw [if_neg h13]
  by_cases h9 : c.val = 9
  · rw [if_pos h9, if_pos (by simp [h9])]
    exact hshort (by decide) (by decide : shortEscape (ofChar 't') = some 9) (Fin.ext h9)
  rw [if_neg h9]
  by_cases h12 : c.val = 12
  · rw [if_pos h12, if_pos (by simp [h12])]
    exact hshort (by decide) (by decide : shortEscape (ofChar 'f') = some 12) (Fin.ext h12)
  rw [if_neg h12]
  by_cases h8 : c.val = 8
  · rw [if_pos h8, if_pos (by simp [h8])]
    exact hshort (by decide) (by decide : shortEscape (ofChar 'b') = some 8) (Fin.ext h8)
  have hplain : ¬ (c.val = 10 || c.val = 13 || c.val = 9 || c.val = 12 || c.val = 8) = true := by
    simp [h10, h13, h9, h12, h8]
  rw [if_neg h8, if_neg hplain]
  by_cases hcontrol : c.val < 32
  · rw [if_pos hcontrol, if_pos hcontrol, scanPoints_unicodeEscape (by omega)]
    rfl
  rw [if_neg hcontrol, if_neg hcontrol]
  by_cases hascii : (σ.ensureAscii && decide (0x7f ≤ c.val)) = true
  · rw [if_pos hascii, if_pos hascii]
    by_cases hbmp : c.val < 0x10000
    · rw [if_pos hbmp, if_pos hbmp, scanPoints_unicodeEscape hbmp]
      rfl
    · rw [if_neg hbmp, if_neg hbmp, List.append_assoc, scanPoints_unicodeEscape (by omega),
        scanPoints_unicodeEscape (by omega), Scan.map_map]
      rfl
  · rw [if_neg hascii, if_neg hascii]
    simp only [Bool.or_eq_true, decide_eq_true_eq, not_or] at hquote
    simp only [List.cons_append, List.nil_append]
    rw [scanPoints.eq_def]
    simp only [if_neg hquote.1, if_neg hcontrol, if_neg hquote.2]

theorem Scan.map_id {α : Type} (r : Scan α) : (r.map fun a => a) = r := by
  cases r <;> rfl

theorem scanPoints_flatMap (σ : Style) (s rest : Str) :
    scanPoints (s.flatMap (escape σ) ++ ofChar '"' :: rest) = .ok (s.flatMap (pointsOf σ), rest) := by
  induction s with
  | nil =>
      simp only [List.flatMap_nil, List.nil_append]
      rw [scanPoints.eq_def]
      simp only [↓reduceIte]
  | cons c s ih =>
      rw [List.flatMap_cons, List.flatMap_cons, List.append_assoc, scanPoints_escape, ih]
      rfl

/-! ## Joining surrogates -/

theorem joinPoints_literal (c : CodePoint) (points : List Point) :
    joinPoints ((false, c) :: points) = c :: joinPoints points := by
  cases points with
  | nil => rfl
  | cons p points => simp [joinPoints]

/-- An escaped character keeps to itself unless it is a high surrogate before a low one. -/
theorem joinPoints_escaped {c : CodePoint} {points : List Point}
    (h : isHigh c = true → ∀ p ∈ points.head?, isLow p.2 = false) :
    joinPoints ((true, c) :: points) = c :: joinPoints points := by
  cases points with
  | nil => rfl
  | cons p points =>
      rw [joinPoints, if_neg]
      intro hjoin
      simp only [Bool.and_eq_true] at hjoin
      have hlow := h hjoin.1.2 p rfl
      rw [hjoin.2] at hlow
      cases hlow

theorem joinPoints_pair {high low : CodePoint} (hhigh : isHigh high = true)
    (hlow : isLow low = true) (points : List Point) :
    joinPoints ((true, high) :: (true, low) :: points) =
      joinSurrogates high low :: joinPoints points := by
  rw [joinPoints, if_pos (by rw [hhigh, hlow]; rfl)]

theorem isHigh_iff (c : CodePoint) : isHigh c = true ↔ 0xD800 ≤ c.val ∧ c.val ≤ 0xDBFF := by
  rw [isHigh, Bool.and_eq_true, decide_eq_true_eq, decide_eq_true_eq]

theorem isLow_iff (c : CodePoint) : isLow c = true ↔ 0xDC00 ≤ c.val ∧ c.val ≤ 0xDFFF := by
  rw [isLow, Bool.and_eq_true, decide_eq_true_eq, decide_eq_true_eq]

/-- A character outside the basic plane is what its two surrogates join to. -/
theorem joinPoints_split {c high low : CodePoint} (hc : 0x10000 ≤ c.val)
    (hhigh : high.val = 0xD800 + (c.val - 0x10000) / 1024)
    (hlow : low.val = 0xDC00 + (c.val - 0x10000) % 1024) (points : List Point) :
    joinPoints ((true, high) :: (true, low) :: points) = c :: joinPoints points := by
  have hlt := c.isLt
  have hjoin : joinSurrogates high low = c := by
    apply Fin.ext
    simp only [joinSurrogates, hhigh, hlow]
    omega
  rw [joinPoints_pair ((isHigh_iff _).2 (by omega)) ((isLow_iff _).2 (by omega)), hjoin]

/-- The first point of a character is a low surrogate only if the character is one. -/
theorem isLow_pointsOf {σ : Style} {c : CodePoint} {p : Point} (hp : p ∈ (pointsOf σ c).head?)
    (h : isLow p.2 = true) : isLow c = true := by
  unfold pointsOf at hp
  split at hp
  · cases hp
    exact h
  · split at hp
    · cases hp
      exact h
    · split at hp
      · cases hp
        exact h
      · split at hp
        · split at hp
          · cases hp
            exact h
          · cases hp
            have := c.isLt
            simp only [isLow, Bool.and_eq_true, decide_eq_true_eq] at h
            omega
        · cases hp
          exact h

theorem pointsOf_ne_nil (σ : Style) (c : CodePoint) : pointsOf σ c ≠ [] := by
  unfold pointsOf
  split
  · simp
  · split
    · simp
    · split
      · simp
      · split
        · split <;> simp
        · simp

/-- The points of a character are joined to the character again. -/
theorem joinPoints_pointsOf {σ : Style} {c : CodePoint} {points : List Point}
    (h : σ.ensureAscii = true → isHigh c = true → ∀ p ∈ points.head?, isLow p.2 = false) :
    joinPoints (pointsOf σ c ++ points) = c :: joinPoints points := by
  unfold pointsOf
  split
  · exact joinPoints_literal c points
  · split
    · exact joinPoints_literal c points
    · split
      · rename_i hcontrol
        refine joinPoints_escaped fun hhigh => ?_
        simp only [isHigh, Bool.and_eq_true, decide_eq_true_eq] at hhigh
        omega
      · split
        · rename_i hascii
          rw [Bool.and_eq_true] at hascii
          split
          · exact joinPoints_escaped (h hascii.1)
          · rename_i hbmp
            have hc : 0x10000 ≤ c.val := Nat.le_of_not_lt hbmp
            apply joinPoints_split hc
            · simp only
            · simp only
        · exact joinPoints_literal c points

theorem joinPoints_flatMap {σ : Style} {s : Str} (h : σ.ensureAscii = true → Faithful s) :
    joinPoints (s.flatMap (pointsOf σ)) = s := by
  induction s with
  | nil => rfl
  | cons c s ih =>
      rw [List.flatMap_cons, joinPoints_pointsOf, ih fun hσ => List.IsChain.of_cons (h hσ)]
      intro hσ hhigh p hp
      cases s with
      | nil => cases hp
      | cons c' s =>
          rw [List.flatMap_cons, List.head?_append_of_ne_nil _ (pointsOf_ne_nil σ c')] at hp
          have hpair := (List.isChain_cons_cons.1 (h hσ)).1
          cases hlow : isLow p.2 with
          | false => rfl
          | true => exact absurd ⟨hhigh, isLow_pointsOf hp hlow⟩ hpair

/-- A string is read back. -/
theorem scanString_quote {σ : Style} {s : Str} (h : σ.ensureAscii = true → Faithful s) (rest : Str) :
    scanString (s.flatMap (escape σ) ++ ofChar '"' :: rest) = .ok (s, rest) := by
  rw [scanString, scanPoints_flatMap]
  exact congrArg (fun t => Except.ok (t, rest)) (joinPoints_flatMap h)

/-! ## Numbers -/

/-- What follows a value: nothing, a separator or a line break. -/
def Ends (rest : Str) : Prop :=
  ∀ c ∈ rest.head?, c = ofChar ',' ∨ c = ofChar ']' ∨ c = ofChar '}' ∨ c = ofChar '\n'

theorem ends_nil : Ends [] := by simp [Ends]

theorem ends_cons {c : CodePoint} (h : c = ofChar ',' ∨ c = ofChar ']' ∨ c = ofChar '}' ∨
    c = ofChar '\n') (rest : Str) : Ends (c :: rest) := by
  intro x hx
  cases hx
  exact h

/-- A separator is none of the characters that go on with a number. -/
theorem Ends.not_numeral {c : CodePoint} {rest : Str} (h : Ends (c :: rest)) :
    isDigit c = false ∧ c ≠ ofChar '.' ∧ c ≠ ofChar 'e' ∧ c ≠ ofChar 'E' := by
  obtain rfl | rfl | rfl | rfl := h c rfl <;> decide

theorem takeWhile_digits {s rest : Str} (hs : ∀ c ∈ s, isDigit c = true) (hrest : Ends rest) :
    (s ++ rest).takeWhile isDigit = s ∧ (s ++ rest).dropWhile isDigit = rest := by
  rw [List.takeWhile_append_of_pos hs, List.dropWhile_append_of_pos hs]
  cases rest with
  | nil => simp
  | cons c rest => simp [(hrest.not_numeral).1]

theorem scanWhole_digits (n : Nat) {rest : Str} (h : Ends rest) :
    scanWhole (digits n ++ rest) = some (digits n, rest) := by
  obtain ⟨c, s, heq, hzero⟩ := digits_head n
  have hall : ∀ x ∈ c :: s, isDigit x = true := fun x hx => isDigit_of_mem_digits (heq ▸ hx)
  obtain ⟨htake, hdrop⟩ := takeWhile_digits hall h
  rw [heq, List.cons_append, scanWhole]
  by_cases hc : c = ofChar '0'
  · rw [if_pos hc, hzero hc]
    rfl
  · rw [if_neg hc, if_pos (hall c List.mem_cons_self), ← List.cons_append, htake, hdrop]

theorem scanFraction_ends {rest : Str} (h : Ends rest) : scanFraction rest = none := by
  match rest, h with
  | [], _ => rfl
  | [_], _ => rfl
  | c :: c' :: rest, h => simp [scanFraction, h.not_numeral.2.1]

theorem scanExponent_ends {rest : Str} (h : Ends rest) : scanExponent rest = none := by
  cases rest with
  | nil => rfl
  | cons c rest => simp [scanExponent, h.not_numeral.2.2.1, h.not_numeral.2.2.2]

theorem scanSign_digits (n : Nat) (rest : Str) :
    scanSign (digits n ++ rest) = (false, digits n ++ rest) := by
  obtain ⟨c, s, heq, -⟩ := digits_head n
  have hdigit : isDigit c = true := isDigit_of_mem_digits (heq ▸ List.mem_cons_self)
  have hc : c ≠ ofChar '-' := by
    intro h
    rw [h] at hdigit
    revert hdigit
    decide
  rw [heq, List.cons_append, scanSign, if_neg hc]

/-- An integer is read back. -/
theorem scanNumber_intText {r : Reader} {n : Int} (hn : (digits n.natAbs).length ≤ r.digits)
    {rest : Str} (h : Ends rest) : scanNumber r (intText n ++ rest) = .ok (.int n, rest) := by
  by_cases hneg : n < 0
  · have hsign : scanSign (intText n ++ rest) = (true, digits n.natAbs ++ rest) := by
      rw [intText, if_pos hneg]
      rfl
    simp only [scanNumber, hsign, scanWhole_digits _ h, scanFraction_ends h, Option.elim_none,
      scanExponent_ends h, if_pos hn, ofDigits_digits, ↓reduceIte]
    congr 3
    omega
  · have hsign : scanSign (intText n ++ rest) = (false, digits n.natAbs ++ rest) := by
      rw [intText, if_neg hneg, scanSign_digits]
    simp only [scanNumber, hsign, scanWhole_digits _ h, scanFraction_ends h, Option.elim_none,
      scanExponent_ends h, if_pos hn, ofDigits_digits, Bool.false_eq_true, ↓reduceIte]
    congr 3
    omega

/-! ## Heads -/

/-- A character a value can start with: no space and no closing bracket. -/
def Starts (c : CodePoint) : Prop := isSpace c = false ∧ c ≠ ofChar ']' ∧ c ≠ ofChar '}'

instance (c : CodePoint) : Decidable (Starts c) := inferInstanceAs (Decidable (_ ∧ _))

theorem starts_digit {c : CodePoint} (h : isDigit c = true) : Starts c := by
  have hne : ∀ x : CodePoint, isDigit x = false → c ≠ x := by
    intro x hx heq
    rw [heq, hx] at h
    cases h
  have h1 := hne (ofChar ' ') (by decide)
  have h2 := hne (ofChar '\t') (by decide)
  have h3 := hne (ofChar '\n') (by decide)
  have h4 := hne (ofChar '\r') (by decide)
  exact ⟨by simp [isSpace, h1, h2, h3, h4], hne _ (by decide), hne _ (by decide)⟩

theorem intText_head (n : Int) :
    ∃ c s, intText n = c :: s ∧ (isDigit c = true ∨ c = ofChar '-') := by
  obtain ⟨c, s, heq, -⟩ := digits_head n.natAbs
  unfold intText
  by_cases hneg : n < 0
  · rw [if_pos hneg]
    exact ⟨_, _, rfl, .inr rfl⟩
  · rw [if_neg hneg]
    exact ⟨c, s, heq, .inl (isDigit_of_mem_digits (heq ▸ List.mem_cons_self))⟩

theorem block_head (σ : Style) (level : Nat) (left right : CodePoint) (items : List Str) :
    ∃ s, block σ level left right items = left :: s := by
  cases items with
  | nil => exact ⟨_, rfl⟩
  | cons item items => exact ⟨_, rfl⟩

theorem layout_head (σ : Style) (level : Nat) {limit : Nat} {v : Json} (h : Plain limit v) :
    ∃ c s, layout σ level v = c :: s ∧ Starts c := by
  cases h with
  | null => exact ⟨_, _, rfl, by decide⟩
  | bool b => cases b <;> exact ⟨_, _, rfl, by decide⟩
  | int n h =>
      obtain ⟨c, s, heq, hc⟩ := intText_head n
      refine ⟨c, s, heq, ?_⟩
      obtain hc | rfl := hc
      · exact starts_digit hc
      · decide
  | str s => exact ⟨_, _, rfl, by decide⟩
  | arr elements h =>
      obtain ⟨s, hs⟩ := block_head σ level (ofChar '[') (ofChar ']')
        (layoutElements σ (level + 1) elements)
      exact ⟨_, s, hs, by decide⟩
  | obj members hkeys h =>
      obtain ⟨s, hs⟩ := block_head σ level (ofChar '{') (ofChar '}')
        (layoutMembers σ (level + 1) members)
      exact ⟨_, s, hs, by decide⟩

theorem skipSpace_starts {c : CodePoint} (h : Starts c) (s : Str) : skipSpace (c :: s) = c :: s := by
  simp [skipSpace, h.1]

theorem skipSpace_lineBreak (σ : Style) (level : Nat) (s : Str) :
    skipSpace (lineBreak σ level ++ s) = skipSpace s := by
  unfold lineBreak
  split
  · refine List.dropWhile_append_of_pos fun c hc => ?_
    cases hc with
    | head => rfl
    | tail _ hc =>
        rw [List.eq_of_mem_replicate hc]
        rfl
  · rfl

/-- The line break before a closing bracket ends the value in front of it. -/
theorem ends_lineBreak (σ : Style) (level : Nat) {right : CodePoint} (rest : Str)
    (h : right = ofChar ']' ∨ right = ofChar '}') :
    Ends (lineBreak σ level ++ right :: rest) := by
  unfold lineBreak
  split
  · exact ends_cons (.inr (.inr (.inr rfl))) _
  · refine ends_cons ?_ _
    obtain h | h := h
    · exact .inr (.inl h)
    · exact .inr (.inr (.inl h))

/-! ## Containers -/

/-- The reader reads the layout of a value back. -/
def ReadsBack (σ : Style) (item : Str → Scan Json) (v : Json) : Prop :=
  ∀ level rest, Ends rest → item (layout σ level v ++ rest) = .ok (v, rest)

section Containers

variable {σ : Style} {item : Str → Scan Json} {limit level : Nat}

/-- The items behind the first one, each with its comma. -/
def following (σ : Style) (level : Nat) (items : List Str) : Str :=
  items.flatMap fun i => ofChar ',' :: (lineBreak σ level ++ i)

theorem length_le_following (σ : Style) (level : Nat) (items : List Str) :
    items.length ≤ (following σ level items).length := by
  induction items with
  | nil => simp
  | cons i items ih =>
      simp only [following, List.flatMap_cons, List.length_append, List.length_cons] at ih ⊢
      omega

theorem elements_layout {close rest : Str} (hclose : Ends close)
    (hskip : skipSpace close = ofChar ']' :: rest) (es : List Json) :
    ∀ (e : Json) (fuel : Nat), (∀ x ∈ e :: es, Plain limit x ∧ ReadsBack σ item x) →
      es.length < fuel →
      elements item fuel
        (layout σ level e ++ (following σ level (layoutElements σ level es) ++ close)) =
          .ok (e :: es, rest) := by
  induction es with
  | nil =>
      intro e fuel hall hfuel
      obtain ⟨fuel, rfl⟩ := Nat.exists_eq_add_one_of_ne_zero (by omega : fuel ≠ 0)
      have hitem := (hall e List.mem_cons_self).2 level close hclose
      simp only [layoutElements, following, List.flatMap_nil, List.nil_append]
      rw [elements, hitem]
      simp only [hskip, ↓reduceIte]
  | cons e' es ih =>
      intro e fuel hall hfuel
      obtain ⟨fuel, rfl⟩ := Nat.exists_eq_add_one_of_ne_zero (by omega : fuel ≠ 0)
      have hrest := ih e' fuel (fun x hx => hall x (List.mem_cons_of_mem _ hx))
        (by rw [List.length_cons] at hfuel; omega)
      have hitem := (hall e List.mem_cons_self).2 level
      obtain ⟨c, s, heq, hc⟩ :=
        layout_head σ level (hall e' (List.mem_cons_of_mem _ List.mem_cons_self)).1
      have hcomma : Starts (ofChar ',') := by decide
      have hne : ofChar ',' ≠ ofChar ']' := by decide
      simp only [layoutElements, following, List.flatMap_cons, List.cons_append,
        List.append_assoc] at hrest ⊢
      rw [elements, hitem _ (ends_cons (.inl rfl) _)]
      simp only [skipSpace_starts hcomma, if_neg hne, ↓reduceIte, skipSpace_lineBreak]
      rw [heq, List.cons_append, skipSpace_starts hc, ← List.cons_append, ← heq, hrest]
      rfl

/-- The separator behind a key is a colon and spaces. -/
def Style.Separates (σ : Style) : Prop :=
  ∃ s, σ.keySeparator = ofChar ':' :: s ∧ ∀ c ∈ s, isSpace c = true

theorem separates_canonical : Style.canonical.Separates := ⟨[], rfl, by simp⟩

theorem separates_pretty : Style.pretty.Separates := by
  refine ⟨[ofChar ' '], rfl, fun c hc => ?_⟩
  rw [List.mem_singleton.1 hc]
  rfl

theorem separates_wire : Style.wire.Separates := ⟨[], rfl, by simp⟩

/-- The text of one member. -/
def layoutMember (σ : Style) (level : Nat) (m : Str × Json) : Str :=
  quote σ m.1 ++ (σ.keySeparator ++ layout σ level m.2)

theorem layoutMembers_cons (m : Str × Json) (ms : List (Str × Json)) :
    layoutMembers σ level (m :: ms) = layoutMember σ level m :: layoutMembers σ level ms := rfl

theorem member_layout (hσ : σ.Separates) {m : Str × Json}
    (hkey : σ.ensureAscii = true → Faithful m.1) (hplain : Plain limit m.2)
    (hitem : ReadsBack σ item m.2) {rest : Str} (hrest : Ends rest) :
    member item (layoutMember σ level m ++ rest) = .ok (m, rest) := by
  obtain ⟨spaces, hsep, hspaces⟩ := hσ
  obtain ⟨c, s, heq, hc⟩ := layout_head σ level hplain
  have hcolon : Starts (ofChar ':') := by decide
  have hvalue : skipSpace (spaces ++ (layout σ level m.2 ++ rest)) = layout σ level m.2 ++ rest := by
    rw [skipSpace, List.dropWhile_append_of_pos hspaces, heq, List.cons_append]
    exact skipSpace_starts hc _
  simp only [layoutMember, quote, hsep, List.cons_append, List.append_assoc, List.nil_append]
  rw [member, if_pos rfl, scanString_quote hkey]
  simp only [skipSpace_starts hcolon, ↓reduceIte, hvalue, hitem level rest hrest]
  rfl

theorem members_layout (hσ : σ.Separates) {close rest : Str} (hclose : Ends close)
    (hskip : skipSpace close = ofChar '}' :: rest) (ms : List (Str × Json)) :
    ∀ (m : Str × Json) (fuel : Nat), (∀ x ∈ m :: ms, (σ.ensureAscii = true → Faithful x.1) ∧
        Plain limit x.2 ∧ ReadsBack σ item x.2) → ms.length < fuel →
      members item fuel
        (layoutMember σ level m ++ (following σ level (layoutMembers σ level ms) ++ close)) =
          .ok (m :: ms, rest) := by
  induction ms with
  | nil =>
      intro m fuel hall hfuel
      obtain ⟨fuel, rfl⟩ := Nat.exists_eq_add_one_of_ne_zero (by omega : fuel ≠ 0)
      obtain ⟨hkey, hplain, hitem⟩ := hall m List.mem_cons_self
      simp only [layoutMembers, following, List.flatMap_nil, List.nil_append]
      rw [members, member_layout hσ hkey hplain hitem hclose]
      simp only [hskip, ↓reduceIte]
  | cons m' ms ih =>
      intro m fuel hall hfuel
      obtain ⟨fuel, rfl⟩ := Nat.exists_eq_add_one_of_ne_zero (by omega : fuel ≠ 0)
      have hrest := ih m' fuel (fun x hx => hall x (List.mem_cons_of_mem _ hx))
        (by rw [List.length_cons] at hfuel; omega)
      obtain ⟨hkey, hplain, hitem⟩ := hall m List.mem_cons_self
      have hcomma : Starts (ofChar ',') := by decide
      have hquote : Starts (ofChar '"') := by decide
      have hne : ofChar ',' ≠ ofChar '}' := by decide
      obtain ⟨s, heq⟩ : ∃ s, layoutMember σ level m' = ofChar '"' :: s := ⟨_, rfl⟩
      simp only [layoutMembers_cons, following, List.flatMap_cons, List.cons_append,
        List.append_assoc] at hrest ⊢
      rw [members, member_layout hσ hkey hplain hitem (ends_cons (.inl rfl) _)]
      simp only [skipSpace_starts hcomma, if_neg hne, ↓reduceIte, skipSpace_lineBreak]
      rw [heq, List.cons_append, skipSpace_starts hquote, ← List.cons_append, ← heq, hrest]
      rfl

theorem block_cons (σ : Style) (level : Nat) (left right : CodePoint) (i : Str)
    (items : List Str) : block σ level left right (i :: items) =
      left :: (lineBreak σ (level + 1) ++ (i ++ (following σ (level + 1) items ++
        (lineBreak σ level ++ [right])))) := by
  simp only [block, following, List.append_assoc]

theorem length_layoutElements (es : List Json) : (layoutElements σ level es).length = es.length := by
  induction es with
  | nil => rfl
  | cons e es ih => rw [layoutElements, List.length_cons, ih, List.length_cons]

theorem length_layoutMembers (ms : List (Str × Json)) :
    (layoutMembers σ level ms).length = ms.length := by
  induction ms with
  | nil => rfl
  | cons m ms ih => rw [layoutMembers_cons, List.length_cons, ih, List.length_cons]

theorem scanArray_layout (level : Nat) {es : List Json} (hall : ∀ x ∈ es, Plain limit x ∧ ReadsBack σ item x)
    (rest : Str) :
    ∃ body, block σ level (ofChar '[') (ofChar ']') (layoutElements σ (level + 1) es) ++ rest =
        ofChar '[' :: body ∧ scanArray item body = .ok (.arr es, rest) := by
  cases es with
  | nil =>
      refine ⟨ofChar ']' :: rest, rfl, ?_⟩
      have hskip : skipSpace (ofChar ']' :: rest) = ofChar ']' :: rest := rfl
      simp only [scanArray, hskip, ↓reduceIte]
  | cons e es =>
      have hclose := ends_lineBreak σ level rest (.inl rfl : ofChar ']' = ofChar ']' ∨ _)
      have hskip : skipSpace (lineBreak σ level ++ ofChar ']' :: rest) = ofChar ']' :: rest :=
        skipSpace_lineBreak σ level _
      obtain ⟨c, s, heq, hc⟩ := layout_head σ (level + 1) (hall e List.mem_cons_self).1
      refine ⟨_, by rw [layoutElements, block_cons, List.cons_append], ?_⟩
      simp only [List.append_assoc, List.cons_append, List.nil_append]
      rw [scanArray, skipSpace_lineBreak, heq, List.cons_append, skipSpace_starts hc]
      simp only [if_neg hc.2.1]
      rw [← List.cons_append, ← heq, elements_layout hclose hskip es e _ hall]
      · rfl
      · have hlen := length_le_following σ (level + 1) (layoutElements σ (level + 1) es)
        rw [length_layoutElements] at hlen
        simp only [List.length_append]
        omega

theorem scanObject_layout (level : Nat) {r : Reader} (hr : r.unique = true) (hσ : σ.Separates)
    {ms : List (Str × Json)} (hkeys : (ms.map Prod.fst).Nodup)
    (hall : ∀ x ∈ ms, (σ.ensureAscii = true → Faithful x.1) ∧ Plain limit x.2 ∧
      ReadsBack σ item x.2) (rest : Str) :
    ∃ body, block σ level (ofChar '{') (ofChar '}') (layoutMembers σ (level + 1) ms) ++ rest =
        ofChar '{' :: body ∧ scanObject r item body = .ok (.obj ms, rest) := by
  cases ms with
  | nil =>
      refine ⟨ofChar '}' :: rest, rfl, ?_⟩
      have hskip : skipSpace (ofChar '}' :: rest) = ofChar '}' :: rest := rfl
      simp only [scanObject, hskip, ↓reduceIte, makeObject_nil hr]
      rfl
  | cons m ms =>
      have hclose := ends_lineBreak σ level rest (.inr rfl : ofChar '}' = ofChar ']' ∨ _)
      have hskip : skipSpace (lineBreak σ level ++ ofChar '}' :: rest) = ofChar '}' :: rest :=
        skipSpace_lineBreak σ level _
      have hquote : Starts (ofChar '"') := by decide
      obtain ⟨s, heq⟩ : ∃ s, layoutMember σ (level + 1) m = ofChar '"' :: s := ⟨_, rfl⟩
      refine ⟨_, by rw [layoutMembers_cons, block_cons, List.cons_append], ?_⟩
      simp only [List.append_assoc, List.cons_append, List.nil_append]
      rw [scanObject, skipSpace_lineBreak, heq, List.cons_append, skipSpace_starts hquote]
      simp only [if_neg hquote.2.2]
      rw [← List.cons_append, ← heq, members_layout hσ hclose hskip ms m _ hall]
      · simp only [makeObject_of_nodup hr hkeys]
        rfl
      · have hlen := length_le_following σ (level + 1) (layoutMembers σ (level + 1) ms)
        rw [length_layoutMembers] at hlen
        simp only [List.length_append]
        omega

end Containers

/-! ## Values -/

theorem scanHead_string (r : Reader) (nested : Option (Str → Scan Json)) {σ : Style} {s : Str}
    (h : σ.ensureAscii = true → Faithful s) (rest : Str) :
    scanHead r nested (quote σ s ++ rest) = .ok (.str s, rest) := by
  simp only [quote, List.cons_append, List.append_assoc, List.nil_append]
  simp only [scanHead, ↓reduceIte, scanString_quote h]
  rfl

theorem not_isPrefixOf_cons {a c : CodePoint} (h : c ≠ a) (p s : Str) :
    ¬ (a :: p).isPrefixOf (c :: s) = true := by
  simp [List.isPrefixOf, h.symm]

/-- A text that starts with a digit or with a minus sign and a digit is a number. -/
theorem scanHead_numeral (r : Reader) (nested : Option (Str → Scan Json)) {c : CodePoint} {s : Str}
    (h : isDigit c = true ∨ c = ofChar '-' ∧ ∃ d t, s = d :: t ∧ isDigit d = true) :
    scanHead r nested (c :: s) = scanNumber r (c :: s) := by
  have hne : ∀ x : CodePoint, isDigit x = false → x ≠ ofChar '-' → c ≠ x := by
    intro x hx hminus heq
    rw [heq, hx] at h
    obtain h | ⟨h, -⟩ := h
    · cases h
    · exact hminus h
  have hminus : ¬ (Text.str "-Infinity").isPrefixOf (c :: s) = true := by
    obtain h | ⟨rfl, d, t, rfl, hd⟩ := h
    · refine not_isPrefixOf_cons ?_ (Text.str "Infinity") s
      intro heq
      rw [heq] at h
      revert h
      decide
    · have hd : d ≠ ofChar 'I' := by
        intro heq
        rw [heq] at hd
        revert hd
        decide
      intro hprefix
      have hrest : (Text.str "Infinity").isPrefixOf (d :: t) = true := by
        simpa [Text.str, List.isPrefixOf] using hprefix
      exact not_isPrefixOf_cons hd (Text.str "nfinity") t hrest
  have hword : ∀ (word : Str) (a : CodePoint) (p : Str), word = a :: p → isDigit a = false →
      a ≠ ofChar '-' → ¬ word.isPrefixOf (c :: s) = true := by
    intro word a p hword ha hminus
    rw [hword]
    exact not_isPrefixOf_cons (hne a ha hminus) p s
  simp only [scanHead]
  rw [if_neg (hne _ (by decide) (by decide)), if_neg (hne _ (by decide) (by decide)),
    if_neg (hne _ (by decide) (by decide)),
    if_neg (hword (Text.str "null") (ofChar 'n') (Text.str "ull") rfl
      (by decide) (by decide)),
    if_neg (hword (Text.str "true") (ofChar 't') (Text.str "rue") rfl
      (by decide) (by decide)),
    if_neg (hword (Text.str "false") (ofChar 'f') (Text.str "alse") rfl
      (by decide) (by decide)),
    if_neg (hword (Text.str "NaN") (ofChar 'N') (Text.str "aN") rfl
      (by decide) (by decide)),
    if_neg (hword (Text.str "Infinity") (ofChar 'I') (Text.str "nfinity") rfl
      (by decide) (by decide)),
    if_neg hminus]

theorem scanHead_intText {r : Reader} (nested : Option (Str → Scan Json)) {n : Int}
    (hn : (digits n.natAbs).length ≤ r.digits) {rest : Str} (h : Ends rest) :
    scanHead r nested (intText n ++ rest) = .ok (.int n, rest) := by
  obtain ⟨c, s, heq, -⟩ := digits_head n.natAbs
  have hdigit : isDigit c = true := isDigit_of_mem_digits (heq ▸ List.mem_cons_self)
  rw [← scanNumber_intText hn h]
  by_cases hneg : n < 0
  · have htext : intText n ++ rest = ofChar '-' :: c :: (s ++ rest) := by
      rw [intText, if_pos hneg, heq]
      rfl
    rw [htext]
    exact scanHead_numeral r nested (.inr ⟨rfl, c, _, rfl, hdigit⟩)
  · have htext : intText n ++ rest = c :: (s ++ rest) := by
      rw [intText, if_neg hneg, heq]
      rfl
    rw [htext]
    exact scanHead_numeral r nested (.inl hdigit)

/-- A plain value is read back from its layout. -/
theorem scanValue_layout {r : Reader} (hr : r.unique = true) {σ : Style} (hσ : σ.Separates)
    {v : Json} (hplain : Plain r.digits v) (hstrings : σ.ensureAscii = true → Strings Faithful v) :
    ∀ {depth : Nat}, v.depth ≤ depth → ReadsBack σ (scanValue r depth) v := by
  have hhead : ∀ depth s, ∃ nested, scanValue r depth s = scanHead r nested s := by
    intro depth s
    cases depth with
    | zero => exact ⟨_, rfl⟩
    | succ depth => exact ⟨_, rfl⟩
  induction hplain with
  | null =>
      intro depth _ level rest _
      obtain ⟨nested, h⟩ := hhead depth (layout σ level .null ++ rest)
      rw [h]
      rfl
  | bool b =>
      intro depth _ level rest _
      obtain ⟨nested, h⟩ := hhead depth (layout σ level (.bool b) ++ rest)
      rw [h]
      cases b <;> rfl
  | int n hn =>
      intro depth _ level rest hrest
      obtain ⟨nested, h⟩ := hhead depth (layout σ level (.int n) ++ rest)
      rw [h]
      exact scanHead_intText nested hn hrest
  | str s =>
      intro depth _ level rest _
      obtain ⟨nested, h⟩ := hhead depth (layout σ level (.str s) ++ rest)
      rw [h]
      refine scanHead_string r nested (fun hascii => ?_) rest
      cases hstrings hascii with
      | str s hs => exact hs
  | arr es hes ih =>
      intro depth hdepth level rest _
      obtain ⟨depth, rfl⟩ := Nat.exists_eq_add_one_of_ne_zero (by
        rw [Json.depth] at hdepth
        omega : depth ≠ 0)
      have hall : ∀ x ∈ es, Plain r.digits x ∧ ReadsBack σ (scanValue r depth) x := by
        intro x hx
        refine ⟨hes x hx, ih x hx (fun hascii => ?_) ?_⟩
        · cases hstrings hascii with
          | arr es hs => exact hs x hx
        · have := depth_le_depthElements hx
          rw [Json.depth] at hdepth
          omega
      obtain ⟨body, hbody, hscan⟩ := scanArray_layout level hall rest
      rw [layout, hbody, scanValue]
      exact hscan
  | obj ms hkeys hms ih =>
      intro depth hdepth level rest _
      obtain ⟨depth, rfl⟩ := Nat.exists_eq_add_one_of_ne_zero (by
        rw [Json.depth] at hdepth
        omega : depth ≠ 0)
      have hall : ∀ x ∈ ms, (σ.ensureAscii = true → Faithful x.1) ∧ Plain r.digits x.2 ∧
          ReadsBack σ (scanValue r depth) x.2 := by
        intro x hx
        refine ⟨fun hascii => ?_, hms x hx, ih x hx (fun hascii => ?_) ?_⟩
        · cases hstrings hascii with
          | obj ms hs _ => exact hs x hx
        · cases hstrings hascii with
          | obj ms _ hs => exact hs x hx
        · have := depth_le_depthMembers hx
          rw [Json.depth] at hdepth
          omega
      obtain ⟨body, hbody, hscan⟩ := scanObject_layout level hr hσ hkeys hall rest
      rw [layout, hbody, scanValue]
      exact hscan

/-- What was written is what `json.loads` gives. -/
theorem loads_layout {r : Reader} (hr : r.unique = true) {σ : Style} (hσ : σ.Separates)
    {v : Json} (hplain : Plain r.digits v) (hdepth : v.depth ≤ r.depth)
    (hstrings : σ.ensureAscii = true → Strings Faithful v) {tail : Str}
    (htail : tail = [] ∨ tail = [ofChar '\n']) :
    loads r (layout σ 0 v ++ tail) = .ok v := by
  have hends : Ends tail := by
    obtain rfl | rfl := htail
    · exact ends_nil
    · exact ends_cons (.inr (.inr (.inr rfl))) _
  have hspace : skipSpace tail = [] := by
    obtain rfl | rfl := htail <;> rfl
  obtain ⟨c, s, heq, hc⟩ := layout_head σ 0 hplain
  have hstart : skipSpace (layout σ 0 v ++ tail) = layout σ 0 v ++ tail := by
    rw [heq, List.cons_append, skipSpace_starts hc]
  have hscan := scanValue_layout hr hσ hplain hstrings hdepth 0 tail hends
  rw [loads, hstart, hscan]
  simp only [hspace, ↓reduceIte]

/-- What `json.dumps` wrote is what `json.loads` gives, up to the order of keys. -/
theorem loads_text {r : Reader} (hr : r.unique = true) {σ : Style} (hσ : σ.Separates)
    {v : Json} (hplain : Plain r.digits v) (hdepth : v.depth ≤ r.depth)
    (hstrings : σ.ensureAscii = true → Strings Faithful v.sortKeys) {tail : Str}
    (htail : tail = [] ∨ tail = [ofChar '\n']) :
    loads r (text σ v ++ tail) = .ok v.sortKeys := by
  rw [← depth_sortKeys] at hdepth
  exact loads_layout hr hσ hplain.sortKeys hdepth hstrings htail

end Json
