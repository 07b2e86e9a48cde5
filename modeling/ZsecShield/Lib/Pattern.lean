import Mathlib.Computability.RegularExpressions
import Mathlib.Tactic.Common

/-!
# Patterns and dotted names

Regular expressions as they are written by programs: literals, classes of letters, choices,
optional parts and repetitions, matched at the start of a text.  A dotted name is a sequence of
labels over some letters with a separator between them; `mem_labels_iff` says which names stand
under a domain, as a pattern `(?:label sep)*domain` finds them.
-/

namespace Pattern

variable {α : Type}

/-! ## Expressions -/

/-- A text, which matches itself alone. -/
def literal : List α → RegularExpression α
  | [] => 1
  | a :: s => .char a * literal s

/-- One of some letters. -/
def oneOf : List α → RegularExpression α
  | [] => 0
  | a :: s => .char a + oneOf s

/-- One of some texts. -/
def choice : List (List α) → RegularExpression α
  | [] => 0
  | s :: texts => literal s + choice texts

/-- `P?`. -/
def optional (P : RegularExpression α) : RegularExpression α := 1 + P

/-- `P+`. -/
def repeated (P : RegularExpression α) : RegularExpression α := P * P.star

theorem mem_literal {s w : List α} : w ∈ (literal s).matches' ↔ w = s := by
  induction s generalizing w with
  | nil => simp [literal, Language.mem_one]
  | cons a s ih =>
      rw [literal, RegularExpression.matches'_mul, RegularExpression.matches'_char,
        Language.mem_mul]
      constructor
      · rintro ⟨_, rfl, t, ht, rfl⟩
        rw [ih.1 ht]
        rfl
      · rintro rfl
        exact ⟨[a], rfl, s, ih.2 rfl, rfl⟩

theorem mem_oneOf {letters w : List α} :
    w ∈ (oneOf letters).matches' ↔ ∃ a ∈ letters, w = [a] := by
  induction letters with
  | nil => simp [oneOf, Language.notMem_zero]
  | cons a letters ih =>
      rw [oneOf, RegularExpression.matches'_add, Language.mem_add, ih,
        RegularExpression.matches'_char, List.exists_mem_cons_iff]
      rfl

theorem mem_choice {texts : List (List α)} {w : List α} :
    w ∈ (choice texts).matches' ↔ w ∈ texts := by
  induction texts with
  | nil => simp [choice, Language.notMem_zero]
  | cons s texts ih =>
      rw [choice, RegularExpression.matches'_add, Language.mem_add, ih, mem_literal,
        List.mem_cons]

theorem mem_optional {P : RegularExpression α} {w : List α} :
    w ∈ (optional P).matches' ↔ w = [] ∨ w ∈ P.matches' := by
  rw [optional, RegularExpression.matches'_add, Language.mem_add,
    RegularExpression.matches'_epsilon, Language.mem_one]

theorem mem_mul {P Q : RegularExpression α} {w : List α} :
    w ∈ (P * Q).matches' ↔ ∃ u ∈ P.matches', ∃ v ∈ Q.matches', u ++ v = w := by
  rw [RegularExpression.matches'_mul, Language.mem_mul]

/-- A label: some letters. -/
def IsLabel (letters label : List α) : Prop := label ≠ [] ∧ ∀ a ∈ label, a ∈ letters

theorem mem_repeated_oneOf {letters w : List α} :
    w ∈ (repeated (oneOf letters)).matches' ↔ IsLabel letters w := by
  rw [repeated, mem_mul]
  constructor
  · rintro ⟨u, hu, v, hv, rfl⟩
    obtain ⟨a, ha, rfl⟩ := mem_oneOf.1 hu
    rw [RegularExpression.matches'_star] at hv
    obtain ⟨parts, rfl, hparts⟩ := Language.mem_kstar.1 hv
    refine ⟨by simp, ?_⟩
    intro b hb
    rcases List.mem_append.1 hb with hb | hb
    · rw [List.mem_singleton.1 hb]
      exact ha
    · obtain ⟨part, hpart, hb⟩ := List.mem_flatten.1 hb
      obtain ⟨c, hc, rfl⟩ := mem_oneOf.1 (hparts part hpart)
      rw [List.mem_singleton.1 hb]
      exact hc
  · rintro ⟨hne, hall⟩
    cases w with
    | nil => exact absurd rfl hne
    | cons a w =>
        refine ⟨[a], mem_oneOf.2 ⟨a, hall a List.mem_cons_self, rfl⟩, w, ?_, rfl⟩
        rw [RegularExpression.matches'_star, Language.mem_kstar]
        refine ⟨w.map fun b => [b], by rw [← List.flatMap_def, List.flatMap_singleton'], ?_⟩
        intro part hpart
        obtain ⟨b, hb, rfl⟩ := List.mem_map.1 hpart
        exact mem_oneOf.2 ⟨b, hall b (List.mem_cons_of_mem _ hb), rfl⟩

/-! ## Matching at the start -/

/-- Two texts up to the first separator. -/
theorem append_cons_inj {sep : α} {u v s t : List α} (hu : sep ∉ u) (hv : sep ∉ v) :
    u ++ sep :: s = v ++ sep :: t ↔ u = v ∧ s = t := by
  induction u generalizing v with
  | nil =>
      cases v with
      | nil => simp
      | cons b v =>
          have hne : sep ≠ b := fun h => hv (h ▸ List.mem_cons_self)
          simp [hne]
  | cons a u ih =>
      cases v with
      | nil =>
          have hne : a ≠ sep := fun h => hu (h ▸ List.mem_cons_self)
          simp [hne]
      | cons b v =>
          have ih := ih (v := v) (fun h => hu (List.mem_cons_of_mem _ h))
            fun h => hv (List.mem_cons_of_mem _ h)
          simp [ih, and_assoc]

section Start

variable [DecidableEq α]

/-- Some initial part of the text matches. -/
def matchesStart (P : RegularExpression α) (text : List α) : Bool := text.inits.any P.rmatch

theorem matchesStart_iff {P : RegularExpression α} {text : List α} :
    matchesStart P text = true ↔ ∃ w ∈ P.matches', ∃ rest, text = w ++ rest := by
  simp only [matchesStart, List.any_eq_true, List.mem_inits, RegularExpression.rmatch_iff_matches']
  constructor
  · rintro ⟨w, ⟨rest, rfl⟩, hw⟩
    exact ⟨w, hw, rest, rfl⟩
  · rintro ⟨w, hw, rest, rfl⟩
    exact ⟨w, ⟨rest, rfl⟩, hw⟩

/-- A pattern between a literal and a separator matches the part of the text between them. -/
theorem matchesStart_delimited {P : RegularExpression α} {scheme part rest : List α} {sep : α}
    (hP : ∀ w ∈ P.matches', sep ∉ w) (hpart : sep ∉ part) :
    matchesStart (literal scheme * (P * .char sep)) (scheme ++ part ++ sep :: rest) = true ↔
      part ∈ P.matches' := by
  rw [matchesStart_iff]
  constructor
  · rintro ⟨w, hw, rest', htext⟩
    obtain ⟨u, hu, v, hv, rfl⟩ := mem_mul.1 hw
    obtain ⟨x, hx, y, hy, rfl⟩ := mem_mul.1 hv
    rw [mem_literal.1 hu, show y = [sep] from hy, List.append_assoc, List.append_assoc,
      List.append_cancel_left_eq, List.append_assoc, List.singleton_append,
      append_cons_inj hpart (hP x hx)] at htext
    rw [htext.1]
    exact hx
  · intro hmem
    refine ⟨scheme ++ (part ++ [sep]), mem_mul.2 ⟨scheme, mem_literal.2 rfl, _, ?_, rfl⟩, rest,
      by simp⟩
    exact mem_mul.2 ⟨part, hmem, [sep], rfl, rfl⟩

end Start

/-! ## Dotted names -/

/-- Labels with the separator behind each of them. -/
def dotted (sep : α) (labels : List (List α)) : List α := labels.flatMap (· ++ [sep])

/-- Labels with the separator between them, at least one. -/
def IsName (letters : List α) (sep : α) (name : List α) : Prop :=
  ∃ labels label, (∀ l ∈ labels, IsLabel letters l) ∧ IsLabel letters label ∧
    name = dotted sep labels ++ label

/-- The name is the domain or ends with it behind a separator. -/
def Under (sep : α) (name domain : List α) : Prop := name = domain ∨ sep :: domain <:+ name

theorem IsLabel.notMem {letters label : List α} {sep : α} (h : IsLabel letters label)
    (hsep : sep ∉ letters) : sep ∉ label := fun hmem => hsep (h.2 sep hmem)

section Names

variable {letters name : List α} {sep : α}

theorem IsName.ne_nil (h : IsName letters sep name) : name ≠ [] := by
  obtain ⟨parts, label, -, hlabel, rfl⟩ := h
  simp [hlabel.1]

theorem IsName.mem (h : IsName letters sep name) {a : α} (ha : a ∈ name) :
    a ∈ letters ∨ a = sep := by
  obtain ⟨parts, label, hparts, hlabel, rfl⟩ := h
  rcases List.mem_append.1 ha with ha | ha
  · obtain ⟨part, hpart, ha⟩ := List.mem_flatMap.1 ha
    rcases List.mem_append.1 ha with ha | ha
    · exact .inl ((hparts part hpart).2 a ha)
    · exact .inr (List.mem_singleton.1 ha)
  · exact .inl (hlabel.2 a ha)

/-- A name ends in a letter. -/
theorem IsName.getLast (h : IsName letters sep name) {a : α} (ha : a ∈ name.getLast?) :
    a ∈ letters := by
  obtain ⟨parts, label, -, hlabel, rfl⟩ := h
  rw [List.getLast?_append_of_ne_nil _ hlabel.1] at ha
  exact hlabel.2 a (List.mem_of_mem_getLast? ha)

/-- A name starts with a letter. -/
theorem IsName.head (h : IsName letters sep name) {a : α} (ha : a ∈ name.head?) : a ∈ letters := by
  obtain ⟨parts, label, hparts, hlabel, rfl⟩ := h
  cases parts with
  | nil => exact hlabel.2 a (List.mem_of_mem_head? ha)
  | cons part parts =>
      have hpart := hparts part List.mem_cons_self
      cases part with
      | nil => exact absurd rfl hpart.1
      | cons b part =>
          have hb : b = a := Option.some.inj ha
          rw [← hb]
          exact hpart.2 b List.mem_cons_self

end Names

/-- The parts between the separators of a text are its labels. -/
theorem isName_of_splitOn [DecidableEq α] {letters name : List α} {sep : α}
    (h : ∀ label ∈ name.splitOn sep, IsLabel letters label) : IsName letters sep name := by
  have join : ∀ (parts : List (List α)), parts ≠ [] → (∀ l ∈ parts, IsLabel letters l) →
      IsName letters sep ([sep].intercalate parts) := by
    intro parts
    induction parts with
    | nil => exact fun hne => absurd rfl hne
    | cons part parts ih =>
        intro _ hparts
        rw [List.forall_mem_cons] at hparts
        cases parts with
        | nil => exact ⟨[], part, by simp, hparts.1, by simp [dotted]⟩
        | cons next parts =>
            obtain ⟨front, label, hfront, hlabel, heq⟩ := ih (by simp) hparts.2
            refine ⟨part :: front, label, List.forall_mem_cons.2 ⟨hparts.1, hfront⟩, hlabel, ?_⟩
            rw [List.intercalate_cons_cons, heq]
            simp [dotted]
  have hname : IsName letters sep ([sep].intercalate (name.splitOn sep)) :=
    join _ (List.splitOn_ne_nil _ _) h
  rwa [List.intercalate_splitOn] at hname

/-- `(?:[letters]+sep)*`. -/
def labels (letters : List α) (sep : α) : RegularExpression α :=
  (repeated (oneOf letters) * .char sep).star

theorem mem_labels {letters : List α} {sep : α} {w : List α} :
    w ∈ (labels letters sep).matches' ↔
      ∃ parts, (∀ l ∈ parts, IsLabel letters l) ∧ w = dotted sep parts := by
  rw [labels, RegularExpression.matches'_star, Language.mem_kstar]
  constructor
  · rintro ⟨parts, rfl, hparts⟩
    induction parts with
    | nil => exact ⟨[], by simp, rfl⟩
    | cons part parts ih =>
        obtain ⟨rest, hrest, hflat⟩ := ih fun y hy => hparts y (List.mem_cons_of_mem _ hy)
        obtain ⟨label, hlabel, v, hv, rfl⟩ := mem_mul.1 (hparts part List.mem_cons_self)
        refine ⟨label :: rest, List.forall_mem_cons.2 ⟨mem_repeated_oneOf.1 hlabel, hrest⟩, ?_⟩
        rw [List.flatten_cons, hflat, show v = [sep] from hv]
        rfl
  · rintro ⟨parts, hparts, rfl⟩
    refine ⟨parts.map (· ++ [sep]), rfl, ?_⟩
    intro y hy
    obtain ⟨label, hlabel, rfl⟩ := List.mem_map.1 hy
    exact mem_mul.2 ⟨label, mem_repeated_oneOf.2 (hparts label hlabel), [sep], rfl, rfl⟩

/-- What stands in front of a separator inside a name is labels itself. -/
theorem dotted_of_name {letters : List α} {sep : α} (hsep : sep ∉ letters)
    {parts : List (List α)} {label front back : List α} (hparts : ∀ l ∈ parts, IsLabel letters l)
    (hlabel : IsLabel letters label) (h : dotted sep parts ++ label = front ++ sep :: back) :
    ∃ parts', (∀ l ∈ parts', IsLabel letters l) ∧ front ++ [sep] = dotted sep parts' := by
  induction parts generalizing front with
  | nil =>
      have hmem : sep ∈ label := by
        have h : label = front ++ sep :: back := h
        simp [h]
      exact absurd hmem (hlabel.notMem hsep)
  | cons part parts ih =>
      rw [List.forall_mem_cons] at hparts
      have hpart := hparts.1.notMem hsep
      have h : part ++ sep :: (dotted sep parts ++ label) = front ++ sep :: back := by
        simpa [dotted] using h
      rcases List.append_eq_append_iff.1 h with ⟨t, rfl, ht⟩ | ⟨t, rfl, ht⟩
      · cases t with
        | nil => exact ⟨[part], by simpa using hparts.1, by simp [dotted]⟩
        | cons c t =>
            rw [List.cons_append, List.cons.injEq] at ht
            obtain ⟨rfl, ht⟩ := ht
            obtain ⟨parts', hparts', heq⟩ := ih hparts.2 ht
            refine ⟨part :: parts', List.forall_mem_cons.2 ⟨hparts.1, hparts'⟩, ?_⟩
            rw [List.append_assoc, List.cons_append, heq]
            simp [dotted]
      · cases t with
        | nil => exact ⟨[front], by simpa using hparts.1, by simp [dotted]⟩
        | cons c t =>
            rw [List.cons_append, List.cons.injEq] at ht
            rw [ht.1] at hpart
            exact absurd (by simp) hpart

/-- The names the pattern `(?:[letters]+sep)*domain` matches. -/
theorem mem_labels_iff {letters : List α} {sep : α} (hsep : sep ∉ letters)
    {domains : List (List α)} (hdomains : ∀ d ∈ domains, IsName letters sep d) {name : List α} :
    name ∈ (labels letters sep * choice domains).matches' ↔
      IsName letters sep name ∧ ∃ d ∈ domains, Under sep name d := by
  rw [mem_mul]
  constructor
  · rintro ⟨u, hu, d, hd, rfl⟩
    rw [mem_choice] at hd
    obtain ⟨parts, hparts, rfl⟩ := mem_labels.1 hu
    obtain ⟨parts', label, hparts', hlabel, heq⟩ := hdomains d hd
    refine ⟨⟨parts ++ parts', label, ?_, hlabel, ?_⟩, d, hd, ?_⟩
    · intro l hl
      exact (List.mem_append.1 hl).elim (hparts l) (hparts' l)
    · rw [heq]
      simp [dotted]
    · rcases List.eq_nil_or_concat parts with rfl | ⟨front, last, rfl⟩
      · exact .inl rfl
      · exact .inr ⟨dotted sep front ++ last, by simp [dotted]⟩
  · rintro ⟨⟨parts, label, hparts, hlabel, hname⟩, d, hd, rfl | ⟨front, hfront⟩⟩
    · exact ⟨[], mem_labels.2 ⟨[], by simp, rfl⟩, name, mem_choice.2 hd, rfl⟩
    · obtain ⟨parts', hparts', heq⟩ := dotted_of_name hsep hparts hlabel (hname.symm.trans hfront.symm)
      refine ⟨front ++ [sep], mem_labels.2 ⟨parts', hparts', heq⟩, d, mem_choice.2 hd, ?_⟩
      rw [← hfront, List.append_assoc, List.singleton_append]

end Pattern
