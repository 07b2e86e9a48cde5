import ZsecShield.Lib.Json.RoundTrip
import Mathlib.Data.List.Perm.Basic
import Mathlib.Data.List.Sort

/-!
# Values of the script language

The values that JSON carries, as the script language holds them: a number is an integer, and an
object keeps its properties in the order in which it lists them.  `stringify` writes such a value.
A text is written by one value only, and no text of a value goes on where another one ends
(`stringify_append`).
-/

namespace Js

open Text (Str CodePoint ofChar)
open Json (Ends ends_cons)

inductive Value where
  | null
  | bool (b : Bool)
  | number (n : Int)
  | string (s : Str)
  | array (items : List Value)
  | object (properties : List (Str × Value))

namespace Value

/-- Induction with one hypothesis for each item and each property. -/
@[induction_eliminator]
theorem ind {motive : Value → Prop} (null : motive .null) (bool : ∀ b, motive (.bool b))
    (number : ∀ n, motive (.number n)) (string : ∀ s, motive (.string s))
    (array : ∀ items, (∀ item ∈ items, motive item) → motive (.array items))
    (object : ∀ properties, (∀ p ∈ properties, motive p.2) → motive (.object properties))
    (v : Value) : motive v :=
  Value.rec (motive_2 := fun items => ∀ item ∈ items, motive item)
    (motive_3 := fun properties => ∀ p ∈ properties, motive p.2) (motive_4 := fun p => motive p.2)
    null bool number string (fun items h => array items h) (fun properties h => object properties h)
    (fun _ hitem => nomatch hitem) (fun _ _ hitem hrest item hmem => by
      cases hmem with
      | head => exact hitem
      | tail _ hmem => exact hrest item hmem)
    (fun _ hp => nomatch hp) (fun _ _ hp hrest p hmem => by
      cases hmem with
      | head => exact hp
      | tail _ hmem => exact hrest p hmem)
    (fun _ _ h => h) v

end Value

/-! ## Strings -/

/-- One character of a string.  A surrogate without its partner is escaped as well. -/
def escape (c : CodePoint) : Str :=
  if c = ofChar '"' ∨ c = ofChar '\\' then [ofChar '\\', c]
  else if c.val = 8 then [ofChar '\\', ofChar 'b']
  else if c.val = 9 then [ofChar '\\', ofChar 't']
  else if c.val = 10 then [ofChar '\\', ofChar 'n']
  else if c.val = 12 then [ofChar '\\', ofChar 'f']
  else if c.val = 13 then [ofChar '\\', ofChar 'r']
  else if c.val < 32 ∨ Text.IsSurrogate c then Json.unicodeEscape c.val
  else [c]

def quote (s : Str) : Str := ofChar '"' :: (s.flatMap escape ++ [ofChar '"'])

/-- The character of an escape of two characters. -/
def unescape (e : CodePoint) : CodePoint :=
  if e = ofChar 'b' then ofChar '\x08'
  else if e = ofChar 't' then ofChar '\t'
  else if e = ofChar 'n' then ofChar '\n'
  else if e = ofChar 'f' then ofChar '\x0c'
  else if e = ofChar 'r' then ofChar '\r'
  else e

def readHex : Str → Option (CodePoint × Str)
  | h₁ :: h₂ :: h₃ :: h₄ :: rest => (Json.hexPoint h₁ h₂ h₃ h₄).map fun c => (c, rest)
  | _ => none

/-- The character that an escaped text starts with. -/
def readEscape : Str → Option (CodePoint × Str)
  | [] => none
  | c :: rest =>
      if c = ofChar '\\' then
        match rest with
        | [] => none
        | e :: rest => if e = ofChar 'u' then readHex rest else some (unescape e, rest)
      else some (c, rest)

theorem readEscape_unicodeEscape {n : Nat} (h : n < 0x10000) (rest : Str) :
    readEscape (Json.unicodeEscape n ++ rest) = some (⟨n, Json.lt_points h⟩, rest) := by
  rw [Json.unicodeEscape]
  simp only [List.cons_append, List.nil_append, readEscape, if_true, readHex,
    Json.hexPoint_hexChar h, Option.map_some]

theorem readEscape_escape (c : CodePoint) (rest : Str) :
    readEscape (escape c ++ rest) = some (c, rest) := by
  unfold escape
  split
  · next h =>
      obtain rfl | rfl := h <;> rfl
  · next hquote =>
      rw [not_or] at hquote
      split
      · next h =>
          obtain rfl : c = ofChar '\x08' := Fin.ext h
          rfl
      split
      · next h =>
          obtain rfl : c = ofChar '\t' := Fin.ext h
          rfl
      split
      · next h =>
          obtain rfl : c = ofChar '\n' := Fin.ext h
          rfl
      split
      · next h =>
          obtain rfl : c = ofChar '\x0c' := Fin.ext h
          rfl
      split
      · next h =>
          obtain rfl : c = ofChar '\r' := Fin.ext h
          rfl
      split
      · next h =>
          refine readEscape_unicodeEscape ?_ rest
          unfold Text.IsSurrogate at h
          omega
      · simp only [List.singleton_append, readEscape, if_neg hquote.2]

theorem escape_append {c d : CodePoint} {r s : Str} (h : escape c ++ r = escape d ++ s) :
    c = d ∧ r = s := by
  have hread := readEscape_escape c r
  rw [h, readEscape_escape] at hread
  cases hread
  exact ⟨rfl, rfl⟩

/-- An escaped character does not start with a quotation mark. -/
theorem escape_head (c : CodePoint) (r : Str) : (escape c ++ r).head? ≠ some (ofChar '"') := by
  unfold escape
  split
  · exact fun h => absurd (Option.some.inj h) (by decide)
  · next hquote =>
      rw [not_or] at hquote
      repeat' split
      all_goals try exact fun h => absurd (Option.some.inj h) (by decide)
      exact fun h => hquote.1 (Option.some.inj h)

theorem quote_append : ∀ {s t r r' : Str}, quote s ++ r = quote t ++ r' → s = t ∧ r = r' := by
  have hbody : ∀ (s t : Str) {r r' : Str},
      s.flatMap escape ++ (ofChar '"' :: r) = t.flatMap escape ++ (ofChar '"' :: r') →
        s = t ∧ r = r' := by
    intro s
    induction s with
    | nil =>
        intro t r r' h
        cases t with
        | nil => exact ⟨rfl, (List.cons.inj h).2⟩
        | cons d t =>
            rw [List.flatMap_cons, List.append_assoc] at h
            exact absurd (congrArg List.head? h).symm (escape_head d _)
    | cons c s ih =>
        intro t r r' h
        rw [List.flatMap_cons, List.append_assoc] at h
        cases t with
        | nil => exact absurd (congrArg List.head? h) (escape_head c _)
        | cons d t =>
            rw [List.flatMap_cons, List.append_assoc] at h
            obtain ⟨rfl, hrest⟩ := escape_append h
            obtain ⟨rfl, hr⟩ := ih t hrest
            exact ⟨rfl, hr⟩
  intro s t r r' h
  simp only [quote, List.cons_append, List.append_assoc, List.nil_append, List.cons.injEq,
    true_and] at h
  exact hbody s t h

/-! ## Values -/

/-- Texts between brackets, separated by commas. -/
def enclose (left right : CodePoint) (texts : List Str) : Str :=
  left :: ([ofChar ','].intercalate texts ++ [right])

mutual

/-- `JSON.stringify`. -/
def stringify : Value → Str
  | .null => Text.str "null"
  | .bool b => Text.str (if b then "true" else "false")
  | .number n => Text.intText n
  | .string s => quote s
  | .array items => enclose (ofChar '[') (ofChar ']') (stringifyItems items)
  | .object properties => enclose (ofChar '{') (ofChar '}') (stringifyProperties properties)

def stringifyItems : List Value → List Str
  | [] => []
  | item :: items => stringify item :: stringifyItems items

def stringifyProperties : List (Str × Value) → List Str
  | [] => []
  | (key, v) :: properties =>
      (quote key ++ ofChar ':' :: stringify v) :: stringifyProperties properties

end

/-- The text of a property. -/
def stringifyProperty (p : Str × Value) : Str := quote p.1 ++ ofChar ':' :: stringify p.2

theorem stringifyItems_eq (items : List Value) : stringifyItems items = items.map stringify := by
  induction items with
  | nil => rw [stringifyItems, List.map_nil]
  | cons item items ih => rw [stringifyItems, ih, List.map_cons]

theorem stringifyProperties_eq (properties : List (Str × Value)) :
    stringifyProperties properties = properties.map stringifyProperty := by
  induction properties with
  | nil => rw [stringifyProperties, List.map_nil]
  | cons p properties ih =>
      obtain ⟨key, v⟩ := p
      rw [stringifyProperties, ih, List.map_cons, stringifyProperty]

/-! ## The kinds of values -/

/-- The kind of a value. -/
def kind : Value → Nat
  | .null => 0
  | .bool _ => 1
  | .number _ => 2
  | .string _ => 3
  | .array _ => 4
  | .object _ => 5

theorem kind_lt (v : Value) : kind v < 6 := by cases v <;> simp [kind]

/-- The kind of the values whose text starts with a character. -/
def startKind (c : CodePoint) : Nat :=
  if c = ofChar 'n' then 0
  else if c = ofChar 't' ∨ c = ofChar 'f' then 1
  else if c = ofChar '"' then 3
  else if c = ofChar '[' then 4
  else if c = ofChar '{' then 5
  else if Text.isDigit c ∨ c = ofChar '-' then 2
  else 6

theorem startKind_digit {c : CodePoint} (h : Text.isDigit c = true) : startKind c = 2 := by
  have hne : ∀ x : CodePoint, Text.isDigit x = false → c ≠ x := by
    intro x hx heq
    rw [heq, hx] at h
    cases h
  have hn := hne (ofChar 'n') (by decide)
  have ht := hne (ofChar 't') (by decide)
  have hf := hne (ofChar 'f') (by decide)
  have hquote := hne (ofChar '"') (by decide)
  have hleft := hne (ofChar '[') (by decide)
  have hopen := hne (ofChar '{') (by decide)
  simp only [startKind, hn, ht, hf, hquote, hleft, hopen, h, if_false, or_self, true_or, if_true]

/-- A text of a value starts as its kind says. -/
theorem stringify_head (v : Value) :
    ∃ c rest, stringify v = c :: rest ∧ startKind c = kind v := by
  cases v with
  | null => exact ⟨_, _, by rw [stringify]; rfl, by decide⟩
  | bool b => cases b <;> exact ⟨_, _, by rw [stringify]; rfl, by decide⟩
  | number n =>
      obtain ⟨c, rest, htext, hc⟩ := Json.intText_head n
      refine ⟨c, rest, by rw [stringify]; exact htext, ?_⟩
      rcases hc with hc | rfl
      · exact startKind_digit hc
      · exact (by decide : startKind (ofChar '-') = 2)
  | string s =>
      exact ⟨_, _, by rw [stringify]; rfl, (by decide : startKind (ofChar '"') = 3)⟩
  | array items =>
      exact ⟨_, _, by rw [stringify]; rfl, (by decide : startKind (ofChar '[') = 4)⟩
  | object properties =>
      exact ⟨_, _, by rw [stringify]; rfl, (by decide : startKind (ofChar '{') = 5)⟩

theorem kind_eq {v w : Value} {r s : Str} (h : stringify v ++ r = stringify w ++ s) :
    kind v = kind w := by
  obtain ⟨c, rest, hv, hc⟩ := stringify_head v
  obtain ⟨d, rest', hw, hd⟩ := stringify_head w
  rw [hv, hw, List.cons_append, List.cons_append] at h
  rw [← hc, ← hd, (List.cons.inj h).1]

/-! ## One value for a text -/

/-- The text of `x` is no text of another, and it is clear where it ends. -/
def Unique {α : Type} (text : α → Str) (x : α) : Prop :=
  ∀ (y : α) (r s : Str), Ends r → Ends s → text x ++ r = text y ++ s → x = y ∧ r = s

/-- No text is empty or starts with a closing bracket. -/
def Opens {α : Type} (text : α → Str) : Prop :=
  ∀ x, ∃ c rest, text x = c :: rest ∧ c ≠ ofChar ']' ∧ c ≠ ofChar '}'

theorem intercalate_append {α : Type} {text : α → Str} (hopens : Opens text) {right : CodePoint}
    (hright : right = ofChar ']' ∨ right = ofChar '}') :
    ∀ {xs : List α} (ys : List α) {r s : Str}, (∀ x ∈ xs, Unique text x) →
      [ofChar ','].intercalate (xs.map text) ++ right :: r =
        [ofChar ','].intercalate (ys.map text) ++ right :: s → xs = ys ∧ r = s := by
  have hends : ∀ rest : Str, Ends (right :: rest) := by
    intro rest
    exact ends_cons (by rcases hright with h | h <;> simp [h]) rest
  have hcomma : ∀ rest : Str, Ends (ofChar ',' :: rest) := fun rest => ends_cons (.inl rfl) rest
  have hne : right ≠ ofChar ',' := by rcases hright with rfl | rfl <;> decide
  have hstart : ∀ (x : α) (r s : Str), text x ++ r ≠ right :: s := by
    intro x r s h
    obtain ⟨c, rest, htext, hc⟩ := hopens x
    rw [htext, List.cons_append] at h
    have := (List.cons.inj h).1
    rcases hright with rfl | rfl
    · exact hc.1 this
    · exact hc.2 this
  intro xs
  induction xs with
  | nil =>
      intro ys r s _ h
      match ys with
      | [] => exact ⟨rfl, (List.cons.inj h).2⟩
      | [y] =>
          simp only [List.map_cons, List.map_nil, List.intercalate_singleton] at h
          exact absurd h.symm (hstart y _ _)
      | y :: y' :: ys =>
          simp only [List.map_cons, List.intercalate_cons_cons, List.append_assoc] at h
          exact absurd h.symm (hstart y _ _)
  | cons x xs ih =>
      intro ys r s hunique h
      have hx := hunique x List.mem_cons_self
      have hxs := fun x' hx' => hunique x' (List.mem_cons_of_mem x hx')
      match xs, ys with
      | [], [] =>
          simp only [List.map_cons, List.map_nil, List.intercalate_singleton] at h
          exact absurd h (hstart x _ _)
      | _ :: _, [] =>
          simp only [List.map_cons, List.intercalate_cons_cons, List.append_assoc] at h
          exact absurd h (hstart x _ _)
      | [], [y] =>
          simp only [List.map_cons, List.map_nil, List.intercalate_singleton] at h
          obtain ⟨rfl, hrest⟩ := hx y _ _ (hends r) (hends s) h
          exact ⟨rfl, (List.cons.inj hrest).2⟩
      | [], y :: y' :: ys =>
          simp only [List.map_cons, List.map_nil, List.intercalate_singleton,
            List.intercalate_cons_cons, List.append_assoc, List.singleton_append] at h
          obtain ⟨-, hrest⟩ := hx y _ _ (hends r) (hcomma _) h
          exact absurd (List.cons.inj hrest).1 hne
      | x' :: xs, [y] =>
          simp only [List.map_cons, List.map_nil, List.intercalate_singleton,
            List.intercalate_cons_cons, List.append_assoc, List.singleton_append] at h
          obtain ⟨-, hrest⟩ := hx y _ _ (hcomma _) (hends s) h
          exact absurd (List.cons.inj hrest).1.symm hne
      | x' :: xs, y :: y' :: ys =>
          simp only [List.map_cons, List.intercalate_cons_cons, List.append_assoc,
            List.singleton_append] at h
          obtain ⟨rfl, hrest⟩ := hx y _ _ (hcomma _) (hcomma _) h
          obtain ⟨heq, hr⟩ := ih (y' :: ys) hxs (List.cons.inj hrest).2
          exact ⟨by rw [heq], hr⟩

theorem unique_number (n : Int) : Unique stringify (.number n) := by
  intro w r s hr hs h
  cases w with
  | number m =>
      simp only [stringify] at h
      let reader : Json.Reader :=
        ⟨0, max (Text.digits n.natAbs).length (Text.digits m.natAbs).length, true, true⟩
      have hn := Json.scanNumber_intText (r := reader) (n := n) (Nat.le_max_left _ _) hr
      rw [h, Json.scanNumber_intText (Nat.le_max_right _ _) hs] at hn
      cases hn
      exact ⟨rfl, rfl⟩
  | _ => exact absurd (kind_eq h) (by simp [kind])

theorem unique_property {p : Str × Value} (h : Unique stringify p.2) :
    Unique stringifyProperty p := by
  intro q r s hr hs heq
  simp only [stringifyProperty, List.append_assoc] at heq
  obtain ⟨hkey, hrest⟩ := quote_append heq
  obtain ⟨hvalue, hend⟩ := h q.2 r s hr hs (List.cons.inj hrest).2
  exact ⟨Prod.ext hkey hvalue, hend⟩

theorem opens_stringify : Opens stringify := by
  intro v
  obtain ⟨c, rest, htext, hkind⟩ := stringify_head v
  have hlt : startKind c < 6 := hkind ▸ kind_lt v
  refine ⟨c, rest, htext, ?_, ?_⟩
  · rintro rfl
    exact absurd hlt (by decide)
  · rintro rfl
    exact absurd hlt (by decide)

theorem opens_stringifyProperty : Opens stringifyProperty := fun p =>
  ⟨ofChar '"', _, rfl, by decide, by decide⟩

/-- A value is known from its text, whatever follows it. -/
theorem unique_stringify (v : Value) : Unique stringify v := by
  induction v with
  | null =>
      intro w r s _ _ h
      cases w with
      | null => exact ⟨rfl, List.append_cancel_left h⟩
      | _ => exact absurd (kind_eq h) (by simp [kind])
  | bool b =>
      intro w r s _ _ h
      cases w with
      | bool b' =>
          simp only [stringify] at h
          cases b <;> cases b'
          · exact ⟨rfl, List.append_cancel_left h⟩
          · exact absurd (List.cons.inj h).1 (by decide)
          · exact absurd (List.cons.inj h).1 (by decide)
          · exact ⟨rfl, List.append_cancel_left h⟩
      | _ => exact absurd (kind_eq h) (by simp [kind])
  | number n => exact unique_number n
  | string t =>
      intro w r s _ _ h
      cases w with
      | string t' =>
          simp only [stringify] at h
          obtain ⟨rfl, hr⟩ := quote_append h
          exact ⟨rfl, hr⟩
      | _ => exact absurd (kind_eq h) (by simp [kind])
  | array items ih =>
      intro w r s _ _ h
      cases w with
      | array items' =>
          simp only [stringify, stringifyItems_eq, enclose, List.cons_append, List.append_assoc,
            List.nil_append, List.cons.injEq, true_and] at h
          obtain ⟨rfl, hr⟩ := intercalate_append opens_stringify (.inl rfl) _ ih h
          exact ⟨rfl, hr⟩
      | _ => exact absurd (kind_eq h) (by simp [kind])
  | object properties ih =>
      intro w r s _ _ h
      cases w with
      | object properties' =>
          simp only [stringify, stringifyProperties_eq, enclose, List.cons_append,
            List.append_assoc, List.nil_append, List.cons.injEq, true_and] at h
          obtain ⟨rfl, hr⟩ := intercalate_append opens_stringifyProperty (.inr rfl) _
            (fun p hp => unique_property (ih p hp)) h
          exact ⟨rfl, hr⟩
      | _ => exact absurd (kind_eq h) (by simp [kind])

/-- Different values have different texts. -/
theorem stringify_injective {v w : Value} (h : stringify v = stringify w) : v = w := by
  refine (unique_stringify v w [] [] Json.ends_nil Json.ends_nil ?_).1
  rw [h]

/-! ## Sorting -/

/-- A comparison that orders the items of a list sorts every arrangement of them alike. -/
theorem insertionSort_eq_of_perm {α : Type} {le : α → α → Prop} [DecidableRel le] {xs ys : List α}
    (h : xs.Perm ys) (htotal : ∀ a ∈ xs, ∀ b ∈ xs, le a b ∨ le b a)
    (htrans : ∀ a ∈ xs, ∀ b ∈ xs, ∀ c ∈ xs, le a b → le b c → le a c)
    (hantisymm : ∀ a ∈ xs, ∀ b ∈ xs, le a b → le b a → a = b) :
    xs.insertionSort le = ys.insertionSort le := by
  have : Std.Total fun a b : {x // x ∈ xs} => le a.1 b.1 :=
    ⟨fun a b => htotal a.1 a.2 b.1 b.2⟩
  have : IsTrans {x // x ∈ xs} fun a b => le a.1 b.1 :=
    ⟨fun a b c => htrans a.1 a.2 b.1 b.2 c.1 c.2⟩
  have hys : ∀ y ∈ ys, y ∈ xs := fun y hy => h.mem_iff.mpr hy
  have hsorted : ∀ zs : List {x // x ∈ xs},
      (zs.map Subtype.val).insertionSort le =
        (zs.insertionSort fun a b => le a.1 b.1).map Subtype.val :=
    fun zs => (List.map_insertionSort _ _ Subtype.val zs fun _ _ _ _ => Iff.rfl).symm
  have hperm : (xs.attach).Perm (ys.attachWith (· ∈ xs) hys) := by
    refine (List.map_perm_map_iff Subtype.val_injective).mp ?_
    rw [List.attach_map_subtype_val, List.attachWith_map_subtype_val]
    exact h
  have heq : xs.attach.insertionSort (fun a b => le a.1 b.1) =
      (ys.attachWith (· ∈ xs) hys).insertionSort fun a b => le a.1 b.1 := by
    refine List.Perm.eq_of_pairwise ?_ (List.pairwise_insertionSort _ _)
      (List.pairwise_insertionSort _ _)
      ((List.perm_insertionSort _ _).trans (hperm.trans (List.perm_insertionSort _ _).symm))
    exact fun a b _ _ hab hba => Subtype.ext (hantisymm a.1 a.2 b.1 b.2 hab hba)
  rw [← List.attach_map_subtype_val xs, hsorted, heq, ← hsorted, List.attachWith_map_subtype_val]

end Js
