import Mathlib.Tactic.Common

/-!
# Backtracking expressions

Regular expressions as an engine runs them that goes back where it cannot go on.  `run` tries the ways
in which an expression may match, each with all that comes behind it, and takes the first one that goes
through.  `pieces` finds the matches in a text, from its start and without overlaps.
-/

namespace Backtrack

variable {α κ β : Type}

/-- An expression over letters, whose groups have names. -/
inductive Expression (α κ : Type) where
  | empty
  | one (p : α → Bool)
  /-- As many letters as go through. -/
  | many (p : α → Bool)
  /-- As few letters as go through. -/
  | few (p : α → Bool)
  /-- Between a letter of a word and another one, or none. -/
  | boundary (word : α → Bool)
  | seq (e f : Expression α κ)
  | either (e f : Expression α κ)
  | group (name : κ) (e : Expression α κ)

/-- A place in a text: the letter before it, the text behind it, and the groups, the latest first. -/
structure Place (α κ : Type) where
  last : Option α
  rest : List α
  groups : List (κ × List α)

/-- Letters one after the other. -/
def letters (ps : List (α → Bool)) : Expression α κ := ps.foldr (fun p e => .seq (.one p) e) .empty

/-! ## Runs -/

def runMany (p : α → Bool) (k : Option α → List α → Option β) : Option α → List α → Option β
  | last, [] => k last []
  | last, c :: s => if p c then (runMany p k (some c) s).or (k last (c :: s)) else k last (c :: s)

def runFew (p : α → Bool) (k : Option α → List α → Option β) : Option α → List α → Option β
  | last, [] => k last []
  | last, c :: s => if p c then (k last (c :: s)).or (runFew p k (some c) s) else k last (c :: s)

def atBoundary (word : α → Bool) (place : Place α κ) : Bool :=
  place.last.any word != place.rest.head?.any word

/-- The first way of an expression that goes through with what comes behind it. -/
def run : Expression α κ → (Place α κ → Option β) → Place α κ → Option β
  | .empty, k, place => k place
  | .one p, k, ⟨_, rest, groups⟩ =>
      match rest with
      | [] => none
      | c :: s => if p c then k ⟨some c, s, groups⟩ else none
  | .many p, k, ⟨last, rest, groups⟩ => runMany p (fun last s => k ⟨last, s, groups⟩) last rest
  | .few p, k, ⟨last, rest, groups⟩ => runFew p (fun last s => k ⟨last, s, groups⟩) last rest
  | .boundary word, k, place => if atBoundary word place then k place else none
  | .seq e f, k, place => run e (run f k) place
  | .either e f, k, place => (run e k place).or (run f k place)
  | .group name e, k, place =>
      run e (fun ⟨last, rest, groups⟩ =>
        k ⟨last, rest, (name, place.rest.take (place.rest.length - rest.length)) :: groups⟩) place

/-! ## Matches -/

structure Match (α κ : Type) where
  length : Nat
  groups : List (κ × List α)

def matchAt (e : Expression α κ) (last : Option α) (s : List α) : Option (Match α κ) :=
  run e (fun place => some ⟨s.length - place.rest.length, place.groups⟩) ⟨last, s, []⟩

/-- The letters outside of matches, and the groups of the matches.  The first letters of the text
belong to a match that was found. -/
def pieces (e : Expression α κ) : Nat → Option α → List α → List (α ⊕ List (κ × List α))
  | 0, last, [] => ((matchAt e last []).map fun m => .inr m.groups).toList
  | _ + 1, _, [] => []
  | n + 1, _, c :: s => pieces e n (some c) s
  | 0, last, c :: s =>
      match matchAt e last (c :: s) with
      | none => .inl c :: pieces e 0 (some c) s
      | some m =>
          if m.length = 0 then .inr m.groups :: .inl c :: pieces e 0 (some c) s
          else .inr m.groups :: pieces e (m.length - 1) (some c) s

/-- The groups of all matches. -/
def matchesOf (e : Expression α κ) (s : List α) : List (List (κ × List α)) :=
  (pieces e 0 none s).filterMap Sum.getRight?

/-- The text without the matches. -/
def removed (e : Expression α κ) (s : List α) : List α :=
  (pieces e 0 none s).filterMap Sum.getLeft?

/-! ## Repetitions -/

/-- The letter before a place behind a text. -/
def after (last : Option α) (s : List α) : Option α := s.getLast?.or last

@[simp] theorem after_nil (last : Option α) : after last [] = last := rfl

@[simp] theorem after_cons (last : Option α) (c : α) (s : List α) :
    after last (c :: s) = after (some c) s := by
  cases s with
  | nil => rfl
  | cons d s => rw [after, after, List.getLast?_cons_cons, List.getLast?_cons, Option.some_or, Option.some_or]

theorem after_append (last : Option α) (s t : List α) :
    after last (s ++ t) = after (after last s) t := by
  induction s generalizing last with
  | nil => rfl
  | cons c s ih => rw [List.cons_append, after_cons, ih, after_cons]

variable {p : α → Bool} {k : Option α → List α → Option β} {last : Option α} {s rest : List α}

theorem runMany_of_neg (h : ∀ c ∈ rest.head?, p c = false) : runMany p k last rest = k last rest := by
  cases rest with
  | nil => rfl
  | cons c rest =>
      rw [runMany, h c rfl]
      rfl

theorem runMany_cons {c : α} (hc : p c = true) :
    runMany p k last (c :: s) = (runMany p k (some c) s).or (k last (c :: s)) := by
  rw [runMany, if_pos hc]

theorem runFew_cons {c : α} (hc : p c = true) :
    runFew p k last (c :: s) = (k last (c :: s)).or (runFew p k (some c) s) := by
  rw [runFew, if_pos hc]

/-- No repetition goes through, if none of its ends does. -/
theorem runMany_none (hs : ∀ c ∈ s, p c = true) (hrest : ∀ c ∈ rest.head?, p c = false)
    (hk : ∀ u v, u ++ v = s → k (after last u) (v ++ rest) = none) :
    runMany p k last (s ++ rest) = none := by
  induction s generalizing last with
  | nil => exact (runMany_of_neg hrest).trans (hk [] [] rfl)
  | cons c s ih =>
      obtain ⟨hc, hs⟩ := List.forall_mem_cons.1 hs
      have hwhole : k last (c :: s ++ rest) = none := hk [] _ rfl
      have hshorter : runMany p k (some c) (s ++ rest) = none := by
        refine ih hs fun u v huv => ?_
        have hnext := hk (c :: u) v (congrArg (c :: ·) huv)
        rwa [after_cons] at hnext
      rw [List.cons_append] at hwhole ⊢
      rw [runMany_cons hc, hshorter, Option.none_or, hwhole]

/-- A repetition goes through at an end, and at no end behind it. -/
theorem runMany_at {a t : List α} (hs : ∀ c ∈ a ++ t, p c = true)
    (hrest : ∀ c ∈ rest.head?, p c = false)
    (hlater : ∀ u v, u ++ v = t → u ≠ [] → k (after (after last a) u) (v ++ rest) = none) {b : β}
    (hk : k (after last a) (t ++ rest) = some b) : runMany p k last (a ++ (t ++ rest)) = some b := by
  induction a generalizing last with
  | nil =>
      cases t with
      | nil => exact (runMany_of_neg hrest).trans hk
      | cons c t =>
          obtain ⟨hc, ht⟩ := List.forall_mem_cons.1 hs
          have hbehind : runMany p k (some c) (t ++ rest) = none := by
            refine runMany_none ht hrest fun u v huv => ?_
            have hnext := hlater (c :: u) v (congrArg (c :: ·) huv) (List.cons_ne_nil c u)
            rwa [after_nil, after_cons] at hnext
          rw [after_nil] at hk
          rw [List.nil_append, List.cons_append, runMany_cons hc, hbehind, Option.none_or]
          exact hk
  | cons c a ih =>
      obtain ⟨hc, hs⟩ := List.forall_mem_cons.1 hs
      rw [after_cons] at hlater hk
      rw [List.cons_append, runMany_cons hc, ih hs hlater hk, Option.some_or]

/-- The longest repetition counts, if it goes through. -/
theorem runMany_longest (hs : ∀ c ∈ s, p c = true) (hrest : ∀ c ∈ rest.head?, p c = false) {b : β}
    (hk : k (after last s) rest = some b) : runMany p k last (s ++ rest) = some b := by
  refine runMany_at (t := []) (by rwa [List.append_nil]) hrest ?_ hk
  intro u v huv hne
  exact absurd (List.append_eq_nil_iff.1 huv).1 hne

/-- The shortest repetition that goes through. -/
theorem runFew_shortest (hs : ∀ c ∈ s, p c = true)
    (hnone : ∀ last c t, c :: t <:+ s → k last (c :: t ++ rest) = none) {b : β}
    (hk : k (after last s) rest = some b) : runFew p k last (s ++ rest) = some b := by
  induction s generalizing last with
  | nil =>
      rw [after_nil] at hk
      cases rest with
      | nil => exact hk
      | cons c rest =>
          rw [List.nil_append, runFew, hk]
          split <;> rfl
  | cons c s ih =>
      obtain ⟨hc, hs⟩ := List.forall_mem_cons.1 hs
      have hwhole : k last (c :: s ++ rest) = none := hnone last c s (List.suffix_refl _)
      rw [after_cons] at hk
      rw [List.cons_append] at hwhole ⊢
      rw [runFew_cons hc, hwhole, Option.none_or]
      exact ih hs (fun last d t ht => hnone last d t (ht.trans (List.suffix_cons c s))) hk

/-! ## Letters -/

variable {next : Place α κ → Option β} {groups : List (κ × List α)}

theorem run_seq {e f : Expression α κ} {place : Place α κ} :
    run (.seq e f) next place = run e (run f next) place := rfl

theorem run_either {e f : Expression α κ} {place : Place α κ} :
    run (.either e f) next place = (run e next place).or (run f next place) := rfl

theorem run_many : run (.many p) next ⟨last, s, groups⟩ =
    runMany p (fun last s => next ⟨last, s, groups⟩) last s := rfl

theorem run_few : run (.few p) next ⟨last, s, groups⟩ =
    runFew p (fun last s => next ⟨last, s, groups⟩) last s := rfl

theorem run_group {name : κ} {e : Expression α κ} :
    run (.group name e) next ⟨last, s, groups⟩ = run e (fun place => next ⟨place.last, place.rest,
      (name, s.take (s.length - place.rest.length)) :: place.groups⟩) ⟨last, s, groups⟩ := rfl

theorem run_letters {ps : List (α → Bool)} (h : List.Forall₂ (fun p c => p c = true) ps s) :
    run (letters ps) next ⟨last, s ++ rest, groups⟩ = next ⟨after last s, rest, groups⟩ := by
  induction h generalizing last with
  | nil => rfl
  | cons hc _ ih =>
      rw [after_cons]
      exact (if_pos hc).trans ih

/-- Letters are there, or nothing goes through. -/
theorem run_letters_cases (ps : List (α → Bool)) (next : Place α κ → Option β) (last : Option α)
    (s : List α) (groups : List (κ × List α)) :
    (∃ t rest, s = t ++ rest ∧ List.Forall₂ (fun p c => p c = true) ps t) ∨
      run (letters ps) next ⟨last, s, groups⟩ = none := by
  induction ps generalizing last s with
  | nil => exact .inl ⟨[], s, rfl, .nil⟩
  | cons p ps ih =>
      cases s with
      | nil => exact .inr rfl
      | cons c s =>
          cases hc : p c with
          | false => exact .inr (if_neg (by simp [hc]))
          | true =>
              rcases ih (some c) s with ⟨t, rest, rfl, ht⟩ | hnone
              · exact .inl ⟨c :: t, rest, rfl, .cons hc ht⟩
              · exact .inr ((if_pos hc).trans hnone)

theorem run_one {c : α} (hc : p c = true) :
    run (.one p) next ⟨last, c :: s, groups⟩ = next ⟨some c, s, groups⟩ := if_pos hc

theorem run_one_none (h : ∀ c ∈ s.head?, p c = false) :
    run (.one p) next ⟨last, s, groups⟩ = none := by
  cases s with
  | nil => rfl
  | cons c s => exact if_neg (by simp [h c rfl])

theorem run_boundary_none {word : α → Bool} {place : Place α κ} (h : atBoundary word place = false) :
    run (.boundary word) next place = none := if_neg (by simp [h])

theorem run_boundary {word : α → Bool} {place : Place α κ} (h : atBoundary word place = true) :
    run (.boundary word) next place = next place := if_pos h

/-! ## Pieces -/

variable {e : Expression α κ}

theorem pieces_skip (last : Option α) (s rest : List α) :
    pieces e s.length last (s ++ rest) = pieces e 0 (after last s) rest := by
  induction s generalizing last with
  | nil => rfl
  | cons c s ih => exact (ih (some c)).trans (by rw [after_cons])

/-- A text in which no match begins. -/
theorem pieces_none (h : ∀ last c t, c :: t <:+ s → matchAt e last (c :: t ++ rest) = none) :
    pieces e 0 last (s ++ rest) = s.map .inl ++ pieces e 0 (after last s) rest := by
  induction s generalizing last with
  | nil => rfl
  | cons c s ih =>
      have hwhole : matchAt e last (c :: s ++ rest) = none := h last c s (List.suffix_refl _)
      rw [List.cons_append] at hwhole ⊢
      rw [pieces, hwhole, after_cons]
      exact congrArg _ (ih fun last d t ht => h last d t (ht.trans (List.suffix_cons c s)))

/-- A match, and what is behind it. -/
theorem pieces_match (hs : s ≠ []) {m : Match α κ} (hm : matchAt e last (s ++ rest) = some m)
    (hlength : m.length = s.length) :
    pieces e 0 last (s ++ rest) = .inr m.groups :: pieces e 0 (after last s) rest := by
  obtain ⟨c, s, rfl⟩ := List.exists_cons_of_ne_nil hs
  rw [List.cons_append] at hm ⊢
  have hpos : ¬ m.length = 0 := by
    rw [hlength]
    exact Nat.succ_ne_zero _
  have hskip : m.length - 1 = s.length := by
    rw [hlength]
    rfl
  rw [pieces, hm]
  dsimp only
  rw [if_neg hpos, hskip, pieces_skip, after_cons]

end Backtrack
