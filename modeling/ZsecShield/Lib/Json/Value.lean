import ZsecShield.Lib.Number

/-!
# JSON values

The values `json.loads` gives.  A dictionary keeps its members in the order in which
they were inserted, and an integer may have any size.  `equals` is the `==` of the
interpreter, for which `True`, `1` and `1.0` are one value and the order of members
does not count.  `sortKeys` puts the members of every dictionary in the order of
their keys, as `sort_keys=True` does before a value is written.
-/

open Text (Str)

inductive Json where
  | null
  | bool (b : Bool)
  | int (n : Int)
  | float (x : Float)
  | str (s : Str)
  | arr (elements : List Json)
  | obj (members : List (Str × Json))

namespace Json

/-- Induction with one hypothesis for each element and each member. -/
@[induction_eliminator]
theorem ind {motive : Json → Prop} (null : motive .null) (bool : ∀ b, motive (.bool b))
    (int : ∀ n, motive (.int n)) (float : ∀ x, motive (.float x)) (str : ∀ s, motive (.str s))
    (arr : ∀ elements, (∀ e ∈ elements, motive e) → motive (.arr elements))
    (obj : ∀ members, (∀ m ∈ members, motive m.2) → motive (.obj members)) (v : Json) :
    motive v :=
  Json.rec (motive_2 := fun elements => ∀ e ∈ elements, motive e)
    (motive_3 := fun members => ∀ m ∈ members, motive m.2) (motive_4 := fun m => motive m.2)
    null bool int float str (fun elements h => arr elements h) (fun members h => obj members h)
    (fun _ he => nomatch he) (fun _ _ he hrest e hmem => by
      cases hmem with
      | head => exact he
      | tail _ hmem => exact hrest e hmem)
    (fun _ hm => nomatch hm) (fun _ _ hm hrest m hmem => by
      cases hmem with
      | head => exact hm
      | tail _ hmem => exact hrest m hmem)
    (fun _ _ h => h) v

/-! ## Kinds of values -/

/-- The text of a string. -/
def strOf : Json → Option Str
  | .str s => some s
  | _ => none

/-- The number of an integer, which `True` and `False` are not. -/
def intOf : Json → Option Int
  | .int n => some n
  | _ => none

def arrOf : Json → Option (List Json)
  | .arr elements => some elements
  | _ => none

def objOf : Json → Option (List (Str × Json))
  | .obj members => some members
  | _ => none

@[simp] theorem strOf_eq_some {v : Json} {s : Str} : v.strOf = some s ↔ v = .str s := by
  cases v <;> simp [strOf]

@[simp] theorem intOf_eq_some {v : Json} {n : Int} : v.intOf = some n ↔ v = .int n := by
  cases v <;> simp [intOf]

@[simp] theorem arrOf_eq_some {v : Json} {elements : List Json} :
    v.arrOf = some elements ↔ v = .arr elements := by
  cases v <;> simp [arrOf]

@[simp] theorem objOf_eq_some {v : Json} {members : List (Str × Json)} :
    v.objOf = some members ↔ v = .obj members := by
  cases v <;> simp [objOf]

/-! ## Dictionaries -/

variable {α β : Type}

/-- `members[key]`. -/
def lookup (key : Str) : List (Str × α) → Option α
  | [] => none
  | (k, v) :: members => if k = key then some v else lookup key members

/-- `members[key] = value` on a dictionary: a known key keeps its place. -/
def insertMember (members : List (Str × α)) (key : Str) (value : α) : List (Str × α) :=
  match members with
  | [] => [(key, value)]
  | (k, v) :: rest => if k = key then (k, value) :: rest else (k, v) :: insertMember rest key value

/-- `set(members) == expected`. -/
def keysAre (members : List (Str × α)) (expected : List Str) : Bool :=
  decide (∀ m ∈ members, m.1 ∈ expected) && decide (∀ k ∈ expected, k ∈ members.map Prod.fst)

/-- The members in the order of their keys. -/
def sortMembers (members : List (Str × α)) : List (Str × α) :=
  members.insertionSort fun a b => a.1 ≤ b.1

theorem lookup_eq_some_of_mem {members : List (Str × α)} {key : Str} {v : α}
    (hnodup : (members.map Prod.fst).Nodup) (hmem : (key, v) ∈ members) :
    lookup key members = some v := by
  induction members with
  | nil => cases hmem
  | cons m members ih =>
      obtain ⟨k, w⟩ := m
      rw [List.map_cons, List.nodup_cons] at hnodup
      cases hmem with
      | head => rw [lookup, if_pos rfl]
      | tail _ hmem =>
          have hne : k ≠ key := by
            intro h
            rw [h] at hnodup
            exact hnodup.1 (List.mem_map.2 ⟨(key, v), hmem, rfl⟩)
          rw [lookup, if_neg hne]
          exact ih hnodup.2 hmem

theorem mem_of_lookup {members : List (Str × α)} {key : Str} {v : α}
    (h : lookup key members = some v) : (key, v) ∈ members := by
  induction members with
  | nil => cases h
  | cons m members ih =>
      obtain ⟨k, w⟩ := m
      rw [lookup] at h
      split at h
      · rename_i hk
        cases h
        rw [← hk]
        exact List.mem_cons_self
      · exact List.mem_cons_of_mem _ (ih h)

theorem lookup_eq_none {members : List (Str × α)} {key : Str} :
    lookup key members = none ↔ key ∉ members.map Prod.fst := by
  induction members with
  | nil => simp [lookup]
  | cons m members ih =>
      obtain ⟨k, v⟩ := m
      rw [lookup, List.map_cons, List.mem_cons, not_or]
      split
      · rename_i hk
        simp [hk]
      · rename_i hk
        rw [ih]
        exact ⟨fun h => ⟨fun hkey => hk hkey.symm, h⟩, fun h => h.2⟩

theorem lookup_insertMember (members : List (Str × α)) (key k : Str) (value : α) :
    lookup k (insertMember members key value) = if key = k then some value else lookup k members := by
  induction members with
  | nil => rfl
  | cons m members ih =>
      obtain ⟨k', v⟩ := m
      rw [insertMember]
      split
      · rename_i hk
        rw [lookup, lookup, hk]
        split <;> rfl
      · rename_i hk
        rw [lookup, lookup, ih]
        split
        · rename_i hk'
          rw [if_neg fun h => hk (hk'.trans h.symm)]
        · rfl

theorem keys_insertMember (members : List (Str × α)) (key : Str) (value : α) :
    (insertMember members key value).map Prod.fst =
      if key ∈ members.map Prod.fst then members.map Prod.fst
      else members.map Prod.fst ++ [key] := by
  induction members with
  | nil => rfl
  | cons m members ih =>
      obtain ⟨k', v⟩ := m
      rw [insertMember]
      split
      · rename_i hk
        rw [if_pos (by simp [hk])]
        rfl
      · rename_i hk
        have hne : key ≠ k' := fun h => hk h.symm
        rw [List.map_cons, ih]
        by_cases hmem : key ∈ members.map Prod.fst
        · rw [if_pos hmem]
          exact (if_pos (List.mem_cons_of_mem _ hmem)).symm
        · rw [if_neg hmem]
          exact (if_neg (List.not_mem_cons_of_ne_of_not_mem hne hmem)).symm

/-- A dictionary with the expected keys has a value under each of them. -/
theorem lookup_of_keysAre {members : List (Str × α)} {expected : List Str} {key : Str}
    (h : keysAre members expected = true) (hkey : key ∈ expected) :
    ∃ v, lookup key members = some v := by
  simp only [keysAre, Bool.and_eq_true, decide_eq_true_eq] at h
  cases hl : lookup key members with
  | some v => exact ⟨v, rfl⟩
  | none => exact absurd (h.2 key hkey) (lookup_eq_none.1 hl)

theorem keysAre_self (members : List (Str × α)) :
    keysAre members (members.map Prod.fst) = true := by
  simp only [keysAre, Bool.and_eq_true, decide_eq_true_eq]
  exact ⟨fun m hm => List.mem_map_of_mem hm, fun _ hk => hk⟩

theorem keysAre_perm {members members' : List (Str × α)} (h : members.Perm members')
    (expected : List Str) : keysAre members expected = keysAre members' expected := by
  have hmem : ∀ m, m ∈ members ↔ m ∈ members' := fun m => h.mem_iff
  have hkeys : ∀ k, k ∈ members.map Prod.fst ↔ k ∈ members'.map Prod.fst :=
    fun k => (h.map Prod.fst).mem_iff
  simp only [keysAre, hmem, hkeys]

theorem lookup_perm {members members' : List (Str × α)} (h : members.Perm members')
    (hnodup : (members.map Prod.fst).Nodup) (key : Str) :
    lookup key members = lookup key members' := by
  have hnodup' : (members'.map Prod.fst).Nodup := (h.map Prod.fst).nodup_iff.1 hnodup
  cases hl : lookup key members' with
  | some v => exact lookup_eq_some_of_mem hnodup (h.mem_iff.2 (mem_of_lookup hl))
  | none =>
      rw [lookup_eq_none] at hl ⊢
      exact fun hmem => hl ((h.map Prod.fst).mem_iff.1 hmem)

theorem lookup_map (f : α → β) (key : Str) (members : List (Str × α)) :
    lookup key (members.map fun m => (m.1, f m.2)) = (lookup key members).map f := by
  induction members with
  | nil => rfl
  | cons m members ih =>
      obtain ⟨k, v⟩ := m
      rw [List.map_cons, lookup, lookup, ih]
      split <;> rfl

theorem keysAre_map (f : α → β) (members : List (Str × α)) (expected : List Str) :
    keysAre (members.map fun m => (m.1, f m.2)) expected = keysAre members expected := by
  have hkeys : (members.map fun m => (m.1, f m.2)).map Prod.fst = members.map Prod.fst := by
    rw [List.map_map]
    rfl
  simp only [keysAre, hkeys, List.forall_mem_map]

theorem perm_sortMembers (members : List (Str × α)) : (sortMembers members).Perm members :=
  List.perm_insertionSort _ _

/-! ## Sorting a value -/

mutual

/-- The value with the members of every dictionary in the order of their keys. -/
def sortKeys : Json → Json
  | .arr elements => .arr (sortElements elements)
  | .obj members => .obj (sortMembers (sortValues members))
  | .null => .null
  | .bool b => .bool b
  | .int n => .int n
  | .float x => .float x
  | .str s => .str s

def sortElements : List Json → List Json
  | [] => []
  | e :: elements => sortKeys e :: sortElements elements

def sortValues : List (Str × Json) → List (Str × Json)
  | [] => []
  | (k, v) :: members => (k, sortKeys v) :: sortValues members

end

theorem sortElements_eq_map (elements : List Json) :
    sortElements elements = elements.map sortKeys := by
  induction elements with
  | nil => rfl
  | cons e elements ih => rw [sortElements, ih, List.map_cons]

theorem sortValues_eq_map (members : List (Str × Json)) :
    sortValues members = members.map fun m => (m.1, sortKeys m.2) := by
  induction members with
  | nil => rfl
  | cons m members ih => rw [sortValues, ih, List.map_cons]

/-- The keys are strictly increasing. -/
def Ordered (members : List (Str × α)) : Prop := members.Pairwise fun a b => a.1 < b.1

instance (members : List (Str × α)) : Decidable (Ordered members) :=
  inferInstanceAs (Decidable (List.Pairwise _ _))

theorem Ordered.nodup {members : List (Str × α)} (h : Ordered members) :
    (members.map Prod.fst).Nodup :=
  List.pairwise_map.2 (h.imp fun hlt => ne_of_lt hlt)

/-- A dictionary in the order of its keys stays as it is, if its values do. -/
theorem sortKeys_obj_of_ordered {members : List (Str × Json)} (h : Ordered members)
    (hvalues : ∀ m ∈ members, sortKeys m.2 = m.2) : (obj members).sortKeys = obj members := by
  have hsame : sortValues members = members := by
    rw [sortValues_eq_map]
    exact (List.map_congr_left fun m hm => by rw [hvalues m hm]; rfl).trans (List.map_id _)
  rw [sortKeys, hsame, sortMembers, List.Pairwise.insertionSort_eq (h.imp fun hlt => le_of_lt hlt)]

theorem sortKeys_arr_of_sorted {elements : List Json} (h : ∀ e ∈ elements, sortKeys e = e) :
    (arr elements).sortKeys = arr elements := by
  rw [sortKeys, sortElements_eq_map]
  exact congrArg arr ((List.map_congr_left h).trans (List.map_id _))

mutual

/-- The number of containers on the longest way down. -/
def depth : Json → Nat
  | .arr elements => depthElements elements + 1
  | .obj members => depthMembers members + 1
  | _ => 0

def depthElements : List Json → Nat
  | [] => 0
  | e :: elements => max (depth e) (depthElements elements)

def depthMembers : List (Str × Json) → Nat
  | [] => 0
  | (_, v) :: members => max (depth v) (depthMembers members)

end

theorem depth_le_depthElements {elements : List Json} {e : Json} (h : e ∈ elements) :
    depth e ≤ depthElements elements := by
  induction elements with
  | nil => cases h
  | cons x elements ih =>
      rw [depthElements]
      cases h with
      | head => exact Nat.le_max_left _ _
      | tail _ h => exact (ih h).trans (Nat.le_max_right _ _)

theorem depth_le_depthMembers {members : List (Str × Json)} {m : Str × Json} (h : m ∈ members) :
    depth m.2 ≤ depthMembers members := by
  induction members with
  | nil => cases h
  | cons x members ih =>
      rw [depthMembers]
      cases h with
      | head => exact Nat.le_max_left _ _
      | tail _ h => exact (ih h).trans (Nat.le_max_right _ _)

theorem depthMembers_le {members : List (Str × Json)} {d : Nat}
    (h : ∀ m ∈ members, depth m.2 ≤ d) : depthMembers members ≤ d := by
  induction members with
  | nil => exact Nat.zero_le _
  | cons x members ih =>
      rw [depthMembers]
      exact max_le (h x List.mem_cons_self) (ih fun m hm => h m (List.mem_cons_of_mem _ hm))

theorem depthElements_le {elements : List Json} {d : Nat}
    (h : ∀ e ∈ elements, depth e ≤ d) : depthElements elements ≤ d := by
  induction elements with
  | nil => exact Nat.zero_le _
  | cons x elements ih =>
      rw [depthElements]
      exact max_le (h x List.mem_cons_self) (ih fun e he => h e (List.mem_cons_of_mem _ he))

/-! ## Well-formed values -/

/-- The keys of every dictionary are pairwise different. -/
inductive Distinct : Json → Prop
  | null : Distinct .null
  | bool (b : Bool) : Distinct (.bool b)
  | int (n : Int) : Distinct (.int n)
  | float (x : Float) : Distinct (.float x)
  | str (s : Str) : Distinct (.str s)
  | arr (elements : List Json) (h : ∀ e ∈ elements, Distinct e) : Distinct (.arr elements)
  | obj (members : List (Str × Json)) (hkeys : (members.map Prod.fst).Nodup)
      (h : ∀ m ∈ members, Distinct m.2) : Distinct (.obj members)

/-- A value without floating point whose integers have at most `limit` digits and whose
dictionaries have pairwise different keys. -/
inductive Plain (limit : Nat) : Json → Prop
  | null : Plain limit .null
  | bool (b : Bool) : Plain limit (.bool b)
  | int (n : Int) (h : (Text.digits n.natAbs).length ≤ limit) : Plain limit (.int n)
  | str (s : Str) : Plain limit (.str s)
  | arr (elements : List Json) (h : ∀ e ∈ elements, Plain limit e) : Plain limit (.arr elements)
  | obj (members : List (Str × Json)) (hkeys : (members.map Prod.fst).Nodup)
      (h : ∀ m ∈ members, Plain limit m.2) : Plain limit (.obj members)

/-- Every string of the value, keys included, satisfies `p`. -/
inductive Strings (p : Str → Prop) : Json → Prop
  | null : Strings p .null
  | bool (b : Bool) : Strings p (.bool b)
  | int (n : Int) : Strings p (.int n)
  | float (x : Float) : Strings p (.float x)
  | str (s : Str) (h : p s) : Strings p (.str s)
  | arr (elements : List Json) (h : ∀ e ∈ elements, Strings p e) : Strings p (.arr elements)
  | obj (members : List (Str × Json)) (hkeys : ∀ m ∈ members, p m.1)
      (h : ∀ m ∈ members, Strings p m.2) : Strings p (.obj members)

/-- Sorting keeps the set of keys of a dictionary. -/
theorem perm_keys_sortMembers (members : List (Str × Json)) :
    ((sortMembers (sortValues members)).map Prod.fst).Perm (members.map Prod.fst) := by
  have hkeys : (sortValues members).map Prod.fst = members.map Prod.fst := by
    rw [sortValues_eq_map, List.map_map]
    rfl
  rw [← hkeys]
  exact (perm_sortMembers _).map Prod.fst

theorem mem_sortMembers {members : List (Str × Json)} {m : Str × Json}
    (h : m ∈ sortMembers (sortValues members)) : ∃ m' ∈ members, m = (m'.1, sortKeys m'.2) := by
  have hmem := (perm_sortMembers _).mem_iff.1 h
  rw [sortValues_eq_map] at hmem
  obtain ⟨m', hm', heq⟩ := List.mem_map.1 hmem
  exact ⟨m', hm', heq.symm⟩

theorem Plain.sortKeys {limit : Nat} {v : Json} (h : Plain limit v) : Plain limit v.sortKeys := by
  induction h with
  | null => exact .null
  | bool b => exact .bool b
  | int n h => exact .int n h
  | str s => exact .str s
  | arr elements h ih =>
      rw [Json.sortKeys, sortElements_eq_map]
      refine .arr _ fun e he => ?_
      obtain ⟨x, hx, rfl⟩ := List.mem_map.1 he
      exact ih x hx
  | obj members hkeys h ih =>
      rw [Json.sortKeys]
      refine .obj _ ((perm_keys_sortMembers members).nodup_iff.2 hkeys) fun m hm => ?_
      obtain ⟨m', hm', rfl⟩ := mem_sortMembers hm
      exact ih m' hm'

theorem depth_sortKeys (v : Json) : depth v.sortKeys = depth v := by
  induction v with
  | null => rfl
  | bool b => rfl
  | int n => rfl
  | float x => rfl
  | str s => rfl
  | arr elements ih =>
      rw [Json.sortKeys, depth, depth, sortElements_eq_map]
      congr 1
      apply le_antisymm
      · refine depthElements_le fun e he => ?_
        obtain ⟨x, hx, rfl⟩ := List.mem_map.1 he
        rw [ih x hx]
        exact depth_le_depthElements hx
      · refine depthElements_le fun e he => ?_
        rw [← ih e he]
        exact depth_le_depthElements (List.mem_map_of_mem he)
  | obj members ih =>
      rw [Json.sortKeys, depth, depth]
      congr 1
      apply le_antisymm
      · refine depthMembers_le fun m hm => ?_
        obtain ⟨m', hm', rfl⟩ := mem_sortMembers hm
        rw [ih m' hm']
        exact depth_le_depthMembers hm'
      · refine depthMembers_le fun m hm => ?_
        rw [← ih m hm]
        refine depth_le_depthMembers (m := (m.1, Json.sortKeys m.2)) ?_
        rw [(perm_sortMembers _).mem_iff, sortValues_eq_map]
        exact List.mem_map_of_mem hm

theorem lookup_sortMembers {members : List (Str × Json)} (hkeys : (members.map Prod.fst).Nodup)
    (key : Str) :
    lookup key (sortMembers (sortValues members)) = (lookup key members).map sortKeys := by
  have hnodup := (perm_keys_sortMembers members).nodup_iff.2 hkeys
  rw [lookup_perm (perm_sortMembers _) hnodup, sortValues_eq_map, lookup_map]

theorem sortMembers_sortMembers {α : Type} (members : List (Str × α)) :
    sortMembers (sortMembers members) = sortMembers members := by
  have : Std.Total fun a b : Str × α => a.1 ≤ b.1 := ⟨fun a b => le_total a.1 b.1⟩
  have : IsTrans (Str × α) fun a b => a.1 ≤ b.1 := ⟨fun _ _ _ => le_trans⟩
  exact (List.pairwise_insertionSort _ members).insertionSort_eq

theorem map_sortMembers {α β : Type} (f : α → β) (members : List (Str × α)) :
    (sortMembers members).map (fun m => (m.1, f m.2)) =
      sortMembers (members.map fun m => (m.1, f m.2)) :=
  List.map_insertionSort _ _ _ members fun _ _ _ _ => Iff.rfl

/-- A value is sorted only once. -/
theorem sortKeys_sortKeys (v : Json) : v.sortKeys.sortKeys = v.sortKeys := by
  induction v with
  | null | bool | int | float | str => rfl
  | arr elements ih =>
      rw [Json.sortKeys, Json.sortKeys, sortElements_eq_map, sortElements_eq_map, List.map_map]
      congr 1
      exact List.map_congr_left ih
  | obj members ih =>
      rw [Json.sortKeys, Json.sortKeys, sortValues_eq_map (sortMembers _), map_sortMembers,
        sortMembers_sortMembers, sortValues_eq_map, List.map_map]
      congr 2
      refine List.map_congr_left fun m hm => ?_
      simp only [Function.comp_apply, ih m hm]

theorem keysAre_sortMembers (members : List (Str × Json)) (expected : List Str) :
    keysAre (sortMembers (sortValues members)) expected = keysAre members expected := by
  rw [keysAre_perm (perm_sortMembers _), sortValues_eq_map, keysAre_map]

end Json
