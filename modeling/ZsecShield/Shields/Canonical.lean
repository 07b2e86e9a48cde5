import ZsecShield.Browser.Vault
import ZsecShield.Lib.Js
import ZsecShield.Shields.Messages
import Mathlib.Data.List.Forall2

/-!
# Comparing the rules of the browser

`verifyDnrRuntime` compares the text of the rules that are in force with the text of those that are
expected, both in a canonical order.  The texts are equal exactly if the rules are the same up to the
order of the rules, of the properties of an object and of the scalars in an array
(`sameValues_canonicalRules`).
-/

namespace ZsecShield.Shields

open Text (Str str CodePoint)
open Js (Value stringify)

variable (script : Script)

/-! ## Canonical values -/

/-- `item === null || ["boolean", "number", "string"].includes(typeof item)`. -/
def isScalar : Value → Bool
  | .null | .bool _ | .number _ | .string _ => true
  | .array _ | .object _ => false

/-- `String(item)` of a scalar. -/
def scalarText : Value → Str
  | .null => str "null"
  | .bool b => str (if b then "true" else "false")
  | .number n => Text.intText n
  | .string s => s
  | .array _ | .object _ => []

/-- The number that a property name is the index of. -/
def arrayIndex (key : Str) : Option Nat :=
  let n := Text.ofDigits key
  if Text.digits n = key ∧ n < 2 ^ 32 - 1 then some n else none

/-- The properties of `Object.fromEntries(entries)` in the order in which an object lists them:
indices come first. -/
def fromEntries (entries : List (Str × Value)) : List (Str × Value) :=
  ((entries.filter fun p => (arrayIndex p.1).isSome).insertionSort fun p q =>
    (arrayIndex p.1).getD 0 ≤ (arrayIndex q.1).getD 0) ++
  entries.filter fun p => !(arrayIndex p.1).isSome

/-- `sort()` of property names, with what stands under them. -/
def sortKeys (properties : List (Str × Value)) : List (Str × Value) :=
  properties.insertionSort fun p q => Browser.units p.1 ≤ Browser.units q.1

/-- `sort((left, right) => String(left).localeCompare(String(right)))`. -/
def sortScalars (items : List Value) : List Value :=
  items.insertionSort fun left right => script.localeLe (scalarText left) (scalarText right) = true

mutual

/-- `canonicalize`. -/
def canonicalizeValue : Value → Value
  | .array items =>
      let normalized := canonicalizeItems items
      .array (if normalized.all isScalar then sortScalars script normalized else normalized)
  | .object properties => .object (fromEntries (sortKeys (canonicalizeProperties properties)))
  | .null => .null
  | .bool b => .bool b
  | .number n => .number n
  | .string s => .string s

def canonicalizeItems : List Value → List Value
  | [] => []
  | item :: items => canonicalizeValue item :: canonicalizeItems items

def canonicalizeProperties : List (Str × Value) → List (Str × Value)
  | [] => []
  | (key, v) :: properties => (key, canonicalizeValue v) :: canonicalizeProperties properties

end

/-- `rule.id`. -/
def ruleId : Value → Int
  | .object properties =>
      match Json.lookup (str "id") properties with
      | some (.number n) => n
      | _ => 0
  | _ => 0

/-- `canonicalRules`. -/
def canonicalValues (rules : List Value) : List Value :=
  (rules.map (canonicalizeValue script)).insertionSort fun left right =>
    ruleId left - ruleId right ≤ 0

/-- `sameValues`. -/
def sameValues (left right : Value) : Bool := stringify left = stringify right

/-! ## The same rules -/

/-- The same up to the order of properties and of the scalars in an array. -/
inductive Same : Value → Value → Prop
  | null : Same .null .null
  | bool (b : Bool) : Same (.bool b) (.bool b)
  | number (n : Int) : Same (.number n) (.number n)
  | string (s : Str) : Same (.string s) (.string s)
  | scalars {items items' : List Value} (hscalar : ∀ item ∈ items, isScalar item = true)
      (hperm : items.Perm items') : Same (.array items) (.array items')
  | items {items items' : List Value} (hlength : items.length = items'.length)
      (hitems : ∀ p ∈ items.zip items', Same p.1 p.2) : Same (.array items) (.array items')
  | object {properties properties' : List (Str × Value)}
      (hkeys : (properties.map Prod.fst).Perm (properties'.map Prod.fst))
      (hvalues : ∀ key v v', (key, v) ∈ properties → (key, v') ∈ properties' → Same v v') :
      Same (.object properties) (.object properties')

/-- The same rules in some order. -/
def SameRules (rules rules' : List Value) : Prop :=
  ∃ arranged : List Value, arranged.Perm rules' ∧ List.Forall₂ Same rules arranged

/-! ## Rules -/

/-- `[a-z0-9._-]`. -/
def isNameChar (c : CodePoint) : Bool := isDomainChar c || c = Text.ofChar '_'

/-- A text of such characters. -/
def IsName (v : Value) : Prop := ∃ s : Str, v = .string s ∧ s.all isNameChar = true

/-- What a rule is made of: the names of properties differ, and an array of scalars holds names. -/
inductive RuleValue : Value → Prop
  | scalar {v : Value} (h : isScalar v = true) : RuleValue v
  | array {items : List Value} (hitems : ∀ item ∈ items, RuleValue item)
      (hnames : (∀ item ∈ items, isScalar item = true) → ∀ item ∈ items, IsName item) :
      RuleValue (.array items)
  | object {properties : List (Str × Value)}
      (hnodup : (properties.map fun p => Browser.units p.1).Nodup)
      (hvalues : ∀ p ∈ properties, RuleValue p.2) : RuleValue (.object properties)

/-- Rules with a number for an id, each id once. -/
structure DnrRules (rules : List Value) : Prop where
  value : ∀ rule ∈ rules, RuleValue rule
  id : ∀ rule ∈ rules, ∃ (properties : List (Str × Value)) (n : Int),
    rule = .object properties ∧ Json.lookup (str "id") properties = some (.number n)
  nodup : (rules.map ruleId).Nodup

/-- `localeCompare` is a total order on names. -/
structure Script.OrdersNames (script : Script) : Prop where
  total : ∀ a b : Str, a.all isNameChar = true → b.all isNameChar = true →
    script.localeLe a b = true ∨ script.localeLe b a = true
  trans : ∀ a b c : Str, a.all isNameChar = true → b.all isNameChar = true →
    c.all isNameChar = true → script.localeLe a b = true → script.localeLe b c = true →
      script.localeLe a c = true
  antisymm : ∀ a b : Str, a.all isNameChar = true → b.all isNameChar = true →
    script.localeLe a b = true → script.localeLe b a = true → a = b

/-! ## Orders -/

theorem perm_fromEntries (entries : List (Str × Value)) : (fromEntries entries).Perm entries :=
  ((List.perm_insertionSort _ _).append_right _).trans (List.filter_append_perm _ _)

theorem perm_sortKeys (properties : List (Str × Value)) : (sortKeys properties).Perm properties :=
  List.perm_insertionSort _ _

theorem perm_sortScalars (items : List Value) : (sortScalars script items).Perm items :=
  List.perm_insertionSort _ _

/-- Objects with the same properties list them alike once the names are sorted. -/
theorem sortKeys_eq_of_perm {properties properties' : List (Str × Value)}
    (h : properties.Perm properties') (hnodup : (properties.map fun p => Browser.units p.1).Nodup) :
    sortKeys properties = sortKeys properties' := by
  refine Js.insertionSort_eq_of_perm h (fun a _ b _ => le_total _ _)
    (fun a _ b _ c _ => le_trans) fun a ha b hb hle hle' => ?_
  exact List.inj_on_of_nodup_map hnodup ha hb (le_antisymm hle hle')

theorem sortScalars_eq_of_perm (horder : script.OrdersNames) {items items' : List Value}
    (h : items.Perm items') (hnames : ∀ item ∈ items, IsName item) :
    sortScalars script items = sortScalars script items' := by
  refine Js.insertionSort_eq_of_perm h ?_ ?_ ?_
  · intro a ha b hb
    obtain ⟨s, rfl, hs⟩ := hnames a ha
    obtain ⟨t, rfl, ht⟩ := hnames b hb
    exact horder.total s t hs ht
  · intro a ha b hb c hc
    obtain ⟨s, rfl, hs⟩ := hnames a ha
    obtain ⟨t, rfl, ht⟩ := hnames b hb
    obtain ⟨u, rfl, hu⟩ := hnames c hc
    exact horder.trans s t u hs ht hu
  · intro a ha b hb hle hle'
    obtain ⟨s, rfl, hs⟩ := hnames a ha
    obtain ⟨t, rfl, ht⟩ := hnames b hb
    exact congrArg Value.string (horder.antisymm s t hs ht hle hle')

/-! ## The canonical form of a value -/

theorem canonicalizeItems_eq (items : List Value) :
    canonicalizeItems script items = items.map (canonicalizeValue script) := by
  induction items with
  | nil => rw [canonicalizeItems, List.map_nil]
  | cons item items ih => rw [canonicalizeItems, ih, List.map_cons]

theorem canonicalizeProperties_eq (properties : List (Str × Value)) :
    canonicalizeProperties script properties =
      properties.map fun p => (p.1, canonicalizeValue script p.2) := by
  induction properties with
  | nil => rw [canonicalizeProperties, List.map_nil]
  | cons p properties ih =>
      obtain ⟨key, v⟩ := p
      rw [canonicalizeProperties, ih, List.map_cons]

theorem canonicalizeValue_scalar {v : Value} (h : isScalar v = true) :
    canonicalizeValue script v = v := by
  cases v with
  | array items => cases h
  | object properties => cases h
  | _ => rw [canonicalizeValue]

theorem isScalar_canonicalizeValue (v : Value) :
    isScalar (canonicalizeValue script v) = isScalar v := by
  cases v <;> rw [canonicalizeValue] <;> rfl

/-- An array of scalars is sorted. -/
theorem canonicalizeValue_scalars {items : List Value} (h : ∀ item ∈ items, isScalar item = true) :
    canonicalizeValue script (.array items) = .array (sortScalars script items) := by
  have hmap : items.map (canonicalizeValue script) = items := by
    rw [List.map_congr_left fun item hitem => canonicalizeValue_scalar script (h item hitem),
      List.map_id']
  rw [canonicalizeValue, canonicalizeItems_eq, hmap]
  exact congrArg Value.array (if_pos (List.all_eq_true.mpr h))

/-- Any other array keeps its order. -/
theorem canonicalizeValue_items {items : List Value} (h : ¬ ∀ item ∈ items, isScalar item = true) :
    canonicalizeValue script (.array items) = .array (items.map (canonicalizeValue script)) := by
  rw [canonicalizeValue, canonicalizeItems_eq]
  refine congrArg Value.array (if_neg fun hall => h fun item hitem => ?_)
  rw [← isScalar_canonicalizeValue script]
  exact List.all_eq_true.mp hall _ (List.mem_map_of_mem hitem)

/-- Two arrays of one canonical form hold scalars both or neither. -/
theorem scalars_of_canonicalizeValue_eq {items items' : List Value}
    (h : canonicalizeValue script (.array items) = canonicalizeValue script (.array items'))
    (hscalar : ∀ item ∈ items, isScalar item = true) : ∀ item ∈ items', isScalar item = true := by
  by_contra hnot
  rw [canonicalizeValue_scalars script hscalar, canonicalizeValue_items script hnot] at h
  refine hnot fun item hitem => ?_
  have hmem : canonicalizeValue script item ∈ sortScalars script items := by
    rw [Value.array.inj h]
    exact List.mem_map_of_mem hitem
  rw [← isScalar_canonicalizeValue script]
  exact hscalar _ ((perm_sortScalars script items).mem_iff.mp hmem)

/-- An object of the canonical form has the canonical properties in some order. -/
theorem perm_of_canonicalizeValue_eq {properties properties' : List (Str × Value)}
    (h : canonicalizeValue script (.object properties) =
      canonicalizeValue script (.object properties')) :
    (properties.map fun p => (p.1, canonicalizeValue script p.2)).Perm
      (properties'.map fun p => (p.1, canonicalizeValue script p.2)) := by
  simp only [canonicalizeValue, canonicalizeProperties_eq, Value.object.injEq] at h
  have hperm := fun entries => (perm_fromEntries (sortKeys entries)).trans (perm_sortKeys entries)
  exact (hperm _).symm.trans ((List.Perm.of_eq h).trans (hperm _))

theorem keys_canonical (properties : List (Str × Value)) :
    (properties.map fun p => (p.1, canonicalizeValue script p.2)).map Prod.fst =
      properties.map Prod.fst := by
  rw [List.map_map]
  rfl

/-- Different names as texts. -/
theorem nodup_keys {properties : List (Str × Value)}
    (h : (properties.map fun p => Browser.units p.1).Nodup) : (properties.map Prod.fst).Nodup := by
  refine List.Nodup.of_map Browser.units ?_
  rw [List.map_map]
  exact h

theorem map_fst_zip {α β : Type} (f : α → β) {xs ys : List α} (h : xs.length = ys.length) :
    ((xs.zip ys).map fun p => f p.1) = xs.map f := by
  rw [← List.map_fst_zip h.le, List.map_map, List.map_fst_zip h.le]
  rfl

theorem map_snd_zip {α β : Type} (f : α → β) {xs ys : List α} (h : xs.length = ys.length) :
    ((xs.zip ys).map fun p => f p.2) = ys.map f := by
  rw [← List.map_snd_zip h.ge, List.map_map, List.map_snd_zip h.ge]
  rfl

/-! ## One canonical form for the same values -/

/-- Values of one canonical form are the same. -/
theorem same_of_canonicalizeValue_eq {v : Value} : ∀ {w : Value}, RuleValue w →
    canonicalizeValue script v = canonicalizeValue script w → Same v w := by
  induction v with
  | null =>
      intro w _ h
      cases w <;> simp only [canonicalizeValue, reduceCtorEq] at h
      exact .null
  | bool b =>
      intro w _ h
      cases w <;> simp only [canonicalizeValue, reduceCtorEq, Value.bool.injEq] at h
      exact h ▸ .bool b
  | number n =>
      intro w _ h
      cases w <;> simp only [canonicalizeValue, reduceCtorEq, Value.number.injEq] at h
      exact h ▸ .number n
  | string s =>
      intro w _ h
      cases w <;> simp only [canonicalizeValue, reduceCtorEq, Value.string.injEq] at h
      exact h ▸ .string s
  | array items ih =>
      intro w hw h
      cases w with
      | array items' =>
          by_cases hscalar : ∀ item ∈ items, isScalar item = true
          · have hscalar' := scalars_of_canonicalizeValue_eq script h hscalar
            rw [canonicalizeValue_scalars script hscalar,
              canonicalizeValue_scalars script hscalar'] at h
            have hsorted := perm_sortScalars script items
            rw [Value.array.inj h] at hsorted
            exact .scalars hscalar (hsorted.symm.trans (perm_sortScalars script items'))
          · have hscalar' : ¬ ∀ item ∈ items', isScalar item = true :=
              fun hall => hscalar (scalars_of_canonicalizeValue_eq script h.symm hall)
            rw [canonicalizeValue_items script hscalar,
              canonicalizeValue_items script hscalar'] at h
            have hmap := Value.array.inj h
            have hvalue : ∀ item ∈ items', RuleValue item := by
              cases hw with
              | scalar hs => cases hs
              | array hitems _ => exact hitems
            have hlength : items.length = items'.length := by
              rw [← List.length_map (canonicalizeValue script), hmap, List.length_map]
            refine .items hlength fun p hp => ?_
            rw [← map_fst_zip (canonicalizeValue script) hlength,
              ← map_snd_zip (canonicalizeValue script) hlength] at hmap
            exact ih p.1 (List.of_mem_zip hp).1 (hvalue p.2 (List.of_mem_zip hp).2)
              (List.map_inj_left.mp hmap p hp)
      | object properties =>
          rw [canonicalizeValue, canonicalizeValue] at h
          cases h
      | _ =>
          rw [canonicalizeValue, canonicalizeValue] at h
          cases h
  | object properties ih =>
      intro w hw h
      cases w with
      | object properties' =>
          have hperm := perm_of_canonicalizeValue_eq script h
          have hnodup : (properties'.map fun p => Browser.units p.1).Nodup := by
            cases hw with
            | scalar hs => cases hs
            | object hnodup _ => exact hnodup
          have hvalue : ∀ p ∈ properties', RuleValue p.2 := by
            cases hw with
            | scalar hs => cases hs
            | object _ hvalues => exact hvalues
          refine .object ?_ fun key v v' hmem hmem' => ?_
          · have hkeys := hperm.map Prod.fst
            rwa [keys_canonical, keys_canonical] at hkeys
          · have hcanonical : (key, canonicalizeValue script v) ∈
                properties'.map fun p => (p.1, canonicalizeValue script p.2) :=
              hperm.mem_iff.mp (List.mem_map_of_mem hmem)
            obtain ⟨q, hq, heq⟩ := List.mem_map.mp hcanonical
            obtain ⟨hkey, hvalues⟩ := Prod.mk.inj heq
            have hunique : q = (key, v') :=
              List.inj_on_of_nodup_map (nodup_keys hnodup) hq hmem' hkey
            subst hunique
            exact ih (key, v) hmem (hvalue _ hmem') hvalues.symm
      | array items =>
          rw [canonicalizeValue, canonicalizeValue] at h
          cases h
      | _ =>
          rw [canonicalizeValue, canonicalizeValue] at h
          cases h

/-- The same properties in some order have the same canonical properties in some order. -/
theorem perm_canonical {properties properties' : List (Str × Value)}
    (hnodup : (properties.map Prod.fst).Nodup)
    (hkeys : (properties.map Prod.fst).Perm (properties'.map Prod.fst))
    (hvalues : ∀ key v v', (key, v) ∈ properties → (key, v') ∈ properties' →
      canonicalizeValue script v = canonicalizeValue script v') :
    (properties.map fun p => (p.1, canonicalizeValue script p.2)).Perm
      (properties'.map fun p => (p.1, canonicalizeValue script p.2)) := by
  have hnodup' := hkeys.nodup_iff.mp hnodup
  rw [List.perm_ext_iff_of_nodup
    (List.Nodup.of_map Prod.fst (by rwa [keys_canonical]))
    (List.Nodup.of_map Prod.fst (by rwa [keys_canonical]))]
  intro x
  constructor
  · intro hmem
    obtain ⟨p, hp, rfl⟩ := List.mem_map.mp hmem
    obtain ⟨p', hp', hkey⟩ := List.mem_map.mp (hkeys.mem_iff.mp (List.mem_map_of_mem hp))
    refine List.mem_map.mpr ⟨p', hp', Prod.ext hkey ?_⟩
    exact (hvalues p'.1 p.2 p'.2 (hkey ▸ hp) hp').symm
  · intro hmem
    obtain ⟨p', hp', rfl⟩ := List.mem_map.mp hmem
    obtain ⟨p, hp, hkey⟩ := List.mem_map.mp (hkeys.mem_iff.mpr (List.mem_map_of_mem hp'))
    refine List.mem_map.mpr ⟨p, hp, Prod.ext hkey ?_⟩
    exact hvalues p'.1 p.2 p'.2 (hkey ▸ hp) hp'

/-- The same values have one canonical form. -/
theorem canonicalizeValue_eq_of_same (horder : script.OrdersNames) {v w : Value} (h : Same v w) :
    RuleValue v → RuleValue w → canonicalizeValue script v = canonicalizeValue script w := by
  induction h with
  | null => exact fun _ _ => rfl
  | bool b => exact fun _ _ => rfl
  | number n => exact fun _ _ => rfl
  | string s => exact fun _ _ => rfl
  | @scalars items items' hscalar hperm =>
      intro hv _
      have hscalar' : ∀ item ∈ items', isScalar item = true :=
        fun item hitem => hscalar item (hperm.mem_iff.mpr hitem)
      have hnames : ∀ item ∈ items, IsName item := by
        cases hv with
        | scalar hs => cases hs
        | array _ hnames => exact hnames hscalar
      rw [canonicalizeValue_scalars script hscalar, canonicalizeValue_scalars script hscalar',
        sortScalars_eq_of_perm script horder hperm hnames]
  | @items items items' hlength _ ih =>
      intro hv hw
      have hvalue : ∀ item ∈ items, RuleValue item := by
        cases hv with
        | scalar hs => cases hs
        | array hitems _ => exact hitems
      have hvalue' : ∀ item ∈ items', RuleValue item := by
        cases hw with
        | scalar hs => cases hs
        | array hitems _ => exact hitems
      have hmap : items.map (canonicalizeValue script) = items'.map (canonicalizeValue script) := by
        rw [← map_fst_zip (canonicalizeValue script) hlength,
          ← map_snd_zip (canonicalizeValue script) hlength]
        refine List.map_congr_left fun p hp => ?_
        exact ih p hp (hvalue _ (List.of_mem_zip hp).1) (hvalue' _ (List.of_mem_zip hp).2)
      simp only [canonicalizeValue, canonicalizeItems_eq, hmap]
  | @object properties properties' hkeys _ ih =>
      intro hv hw
      cases hv with
      | scalar hs => cases hs
      | object hnodup hvalues =>
          cases hw with
          | scalar hs => cases hs
          | object _ hvalues' =>
              have hperm := perm_canonical script (nodup_keys hnodup) hkeys
                fun key v v' hp hp' => ih key v v' hp hp' (hvalues _ hp) (hvalues' _ hp')
              have hsorted := sortKeys_eq_of_perm hperm (by rw [List.map_map]; exact hnodup)
              simp only [canonicalizeValue, canonicalizeProperties_eq, hsorted]

/-! ## Lists of rules -/

/-- The canonical form of a rule has its id. -/
theorem ruleId_canonicalizeValue {rule : Value} {properties : List (Str × Value)} {n : Int}
    (hrule : rule = .object properties) (hvalue : RuleValue rule)
    (hid : Json.lookup (str "id") properties = some (.number n)) :
    ruleId (canonicalizeValue script rule) = n ∧ ruleId rule = n := by
  subst hrule
  cases hvalue with
  | scalar hs => cases hs
  | object hnodup _ =>
      have hperm := fun entries =>
        (perm_fromEntries (sortKeys entries)).trans (perm_sortKeys entries)
      refine ⟨?_, by simp only [ruleId, hid]⟩
      rw [canonicalizeValue, canonicalizeProperties_eq, ruleId,
        Json.lookup_perm (hperm _) ?_, Json.lookup_map, hid]
      · rfl
      · rw [((hperm _).map Prod.fst).nodup_iff, keys_canonical]
        exact nodup_keys hnodup

theorem DnrRules.ruleId_canonical {rules : List Value} (h : DnrRules rules) :
    (rules.map (canonicalizeValue script)).map ruleId = rules.map ruleId := by
  rw [List.map_map]
  refine List.map_congr_left fun rule hrule => ?_
  obtain ⟨properties, n, heq, hid⟩ := h.id rule hrule
  obtain ⟨hcanonical, hplain⟩ := ruleId_canonicalizeValue script heq (h.value rule hrule) hid
  rw [Function.comp_apply, hcanonical, hplain]

/-- Lists of rules are canonically equal if the canonical rules are, in some order. -/
theorem canonicalValues_eq_iff {rules rules' : List Value} (h : DnrRules rules) :
    canonicalValues script rules = canonicalValues script rules' ↔
      (rules.map (canonicalizeValue script)).Perm (rules'.map (canonicalizeValue script)) := by
  unfold canonicalValues
  constructor
  · intro heq
    exact (List.perm_insertionSort _ _).symm.trans
      ((List.Perm.of_eq heq).trans (List.perm_insertionSort _ _))
  · intro hperm
    refine Js.insertionSort_eq_of_perm hperm ?_ ?_ ?_
    · intro a _ b _
      omega
    · intro a _ b _ c _ hab hbc
      omega
    · intro a ha b hb hab hba
      have hnodup : ((rules.map (canonicalizeValue script)).map ruleId).Nodup := by
        rw [h.ruleId_canonical]
        exact h.nodup
      exact List.inj_on_of_nodup_map hnodup ha hb (by omega)

/-- Lists of one canonical form in some order are the same rules. -/
theorem sameRules_iff (horder : script.OrdersNames) {rules rules' : List Value}
    (h : DnrRules rules) (h' : DnrRules rules') :
    (rules.map (canonicalizeValue script)).Perm (rules'.map (canonicalizeValue script)) ↔
      SameRules rules rules' := by
  constructor
  · intro hperm
    have hmap : List.Forall₂ (fun c rule => canonicalizeValue script rule = c)
        (rules'.map (canonicalizeValue script)) rules' := by
      rw [List.forall₂_map_left_iff, List.forall₂_same]
      exact fun _ _ => rfl
    obtain ⟨arranged, hforall, harranged⟩ := List.perm_comp_forall₂ hperm hmap
    rw [List.forall₂_map_left_iff, List.forall₂_iff_zip] at hforall
    refine ⟨arranged, harranged, List.forall₂_iff_zip.mpr ⟨hforall.1, fun {rule rule'} hzip => ?_⟩⟩
    have hmem := harranged.mem_iff.mp (List.of_mem_zip hzip).2
    exact same_of_canonicalizeValue_eq script (h'.value rule' hmem) (hforall.2 hzip).symm
  · rintro ⟨arranged, harranged, hsame⟩
    rw [List.forall₂_iff_zip] at hsame
    refine List.Perm.trans (List.Perm.of_eq ?_) (harranged.map _)
    rw [← map_fst_zip (canonicalizeValue script) hsame.1,
      ← map_snd_zip (canonicalizeValue script) hsame.1]
    refine List.map_congr_left fun p hp => ?_
    have hmem := harranged.mem_iff.mp (List.of_mem_zip hp).2
    exact canonicalizeValue_eq_of_same script horder (hsame.2 hp)
      (h.value p.1 (List.of_mem_zip hp).1) (h'.value p.2 hmem)

/-- The canonical texts of two lists of rules are equal exactly if the lists hold the same rules, up
to the order of the rules, of the properties of an object and of the scalars in an array. -/
theorem sameValues_canonicalRules (horder : script.OrdersNames) {rules rules' : List Value}
    (h : DnrRules rules) (h' : DnrRules rules') :
    sameValues (.array (canonicalValues script rules)) (.array (canonicalValues script rules')) =
      true ↔ SameRules rules rules' := by
  rw [← sameRules_iff script horder h h', ← canonicalValues_eq_iff script h, sameValues,
    decide_eq_true_eq]
  constructor
  · intro heq
    exact Value.array.inj (Js.stringify_injective heq)
  · intro heq
    rw [heq]

namespace Sample

theorem ordersNames : sampleScript.OrdersNames where
  total a b _ _ := by
    simp only [sampleScript, decide_eq_true_eq]
    exact le_total a b
  trans a b c _ _ _ := by
    simp only [sampleScript, decide_eq_true_eq]
    exact le_trans
  antisymm a b _ _ := by
    simp only [sampleScript, decide_eq_true_eq]
    exact le_antisymm

/-- A rule with an id for some domains. -/
def rule (n : Int) (domains : List Value) : Value :=
  .object [(str "id", .number n), (str "requestDomains", .array domains)]

/-- The same rule as another browser lists it. -/
def otherRule (n : Int) (domains : List Value) : Value :=
  .object [(str "requestDomains", .array domains), (str "id", .number n)]

theorem ruleValue_domains {domains : List Value} (h : ∀ d ∈ domains, IsName d) :
    RuleValue (.array domains) := by
  refine .array (fun d hd => ?_) fun _ => h
  obtain ⟨s, rfl, -⟩ := h d hd
  exact .scalar rfl

/-- Both ways to list the properties make a rule. -/
theorem dnrRules_rule {n : Int} {domains : List Value} (h : ∀ d ∈ domains, IsName d) :
    DnrRules [rule n domains] where
  value := by
    simp only [List.mem_singleton, forall_eq]
    refine .object (by decide : [Browser.units (str "id"), Browser.units (str "requestDomains")].Nodup)
      fun p hp => ?_
    simp only [List.mem_cons, List.not_mem_nil, or_false] at hp
    obtain rfl | rfl := hp
    · exact .scalar rfl
    · exact ruleValue_domains h
  id := by
    simp only [List.mem_singleton, forall_eq]
    exact ⟨_, n, rfl, by rw [Json.lookup, if_pos rfl]⟩
  nodup := List.nodup_singleton _

theorem dnrRules_otherRule {n : Int} {domains : List Value} (h : ∀ d ∈ domains, IsName d) :
    DnrRules [otherRule n domains] where
  value := by
    simp only [List.mem_singleton, forall_eq]
    refine .object (by decide : [Browser.units (str "requestDomains"), Browser.units (str "id")].Nodup)
      fun p hp => ?_
    simp only [List.mem_cons, List.not_mem_nil, or_false] at hp
    obtain rfl | rfl := hp
    · exact ruleValue_domains h
    · exact .scalar rfl
  id := by
    simp only [List.mem_singleton, forall_eq]
    exact ⟨_, n, rfl, by rw [Json.lookup, if_neg (by decide), Json.lookup, if_pos rfl]⟩
  nodup := List.nodup_singleton _

def domains : List Value := [.string (str "b.example"), .string (str "a.example")]

theorem isName_domains : ∀ d ∈ domains, IsName d := by
  intro d hd
  simp only [domains, List.mem_cons, List.not_mem_nil, or_false] at hd
  obtain rfl | rfl := hd
  · exact ⟨_, rfl, by decide⟩
  · exact ⟨_, rfl, by decide⟩

end Sample

/-- A rule that the browser lists in another order is the rule that is expected. -/
theorem sameValues_canonicalRules_listed :
    sameValues (.array (canonicalValues sampleScript [Sample.rule 1 Sample.domains]))
      (.array (canonicalValues sampleScript [Sample.otherRule 1 Sample.domains.reverse])) =
        true := by
  have hreversed : ∀ d ∈ Sample.domains.reverse, IsName d :=
    fun d hd => Sample.isName_domains d (List.mem_reverse.mp hd)
  refine (sameValues_canonicalRules sampleScript Sample.ordersNames
    (Sample.dnrRules_rule Sample.isName_domains) (Sample.dnrRules_otherRule hreversed)).mpr ?_
  refine ⟨_, List.Perm.refl _, .cons (.object (by decide) ?_) .nil⟩
  intro key v v' hv hv'
  simp only [List.mem_cons, List.not_mem_nil, or_false, Prod.mk.injEq] at hv hv'
  rcases hv with ⟨rfl, rfl⟩ | ⟨rfl, rfl⟩
  · rcases hv' with ⟨hkey, rfl⟩ | ⟨-, rfl⟩
    · exact absurd hkey (by decide)
    · exact .number 1
  · rcases hv' with ⟨-, rfl⟩ | ⟨hkey, rfl⟩
    · exact .scalars (by simp [Sample.domains, isScalar]) (List.reverse_perm _).symm
    · exact absurd hkey (by decide)

/-! ## The rules of the extension

The verifier of the model compares records; so does the script with the texts of the records. -/

/-- The properties that are there. -/
def present (fields : List (Str × Option Value)) : List (Str × Value) :=
  fields.filterMap fun field => field.2.map fun v => (field.1, v)

def textValues (values : List Str) : Value := .array (values.map .string)

def Condition.toValue (c : Condition) : Value :=
  .object (present [
    (str "domainType", c.domainType.map .string),
    (str "excludedInitiatorDomains", c.excludedInitiatorDomains.map textValues),
    (str "initiatorDomains", c.initiatorDomains.map textValues),
    (str "isUrlFilterCaseSensitive", c.isUrlFilterCaseSensitive.map .bool),
    (str "regexFilter", c.regexFilter.map .string),
    (str "requestDomains", c.requestDomains.map textValues),
    (str "resourceTypes", some (textValues c.resourceTypes)),
    (str "urlFilter", c.urlFilter.map .string)])

def Action.toValue : Action → Value
  | .allow => .object (present [(str "type", some (.string (str "allow")))])
  | .block => .object (present [(str "type", some (.string (str "block")))])

def Rule.toValue (rule : Rule) : Value :=
  .object (present [
    (str "action", some rule.action.toValue),
    (str "condition", some rule.condition.toValue),
    (str "id", some (.number rule.id)),
    (str "priority", some (.number rule.priority))])

/-- The names are in order, and none is an index. -/
def Arranged (names : List Str) : Prop :=
  (names.Pairwise fun a b => Browser.units a ≤ Browser.units b) ∧ ∀ name ∈ names, arrayIndex name = none

instance (names : List Str) : Decidable (Arranged names) := inferInstanceAs (Decidable (_ ∧ _))

theorem mem_present {fields : List (Str × Option Value)} {p : Str × Value} :
    p ∈ present fields ↔ (p.1, some p.2) ∈ fields := by
  simp only [present, List.mem_filterMap, Option.map_eq_some_iff]
  constructor
  · rintro ⟨field, hfield, v, hv, rfl⟩
    rwa [← hv]
  · exact fun h => ⟨_, h, p.2, rfl, rfl⟩

/-- An object whose names are in order keeps them in place. -/
theorem canonicalizeValue_present {fields : List (Str × Option Value)}
    (h : Arranged (fields.map Prod.fst)) :
    canonicalizeValue script (.object (present fields)) =
      .object (present (fields.map fun field =>
        (field.1, field.2.map (canonicalizeValue script)))) := by
  have hmap : (present fields).map (fun p => (p.1, canonicalizeValue script p.2)) =
      present (fields.map fun field => (field.1, field.2.map (canonicalizeValue script))) := by
    rw [present, present, List.map_filterMap, List.filterMap_map]
    refine List.filterMap_congr fun field _ => ?_
    simp only [Option.map_map, Function.comp_apply]
    rfl
  have hindex : ∀ p ∈ present (fields.map fun field =>
      (field.1, field.2.map (canonicalizeValue script))), arrayIndex p.1 = none := by
    intro p hp
    obtain ⟨field, hfield, heq⟩ := List.mem_map.mp (mem_present.mp hp)
    rw [← (Prod.mk.inj heq).1]
    exact h.2 _ (List.mem_map_of_mem hfield)
  have hsorted : (present (fields.map fun field =>
      (field.1, field.2.map (canonicalizeValue script)))).Pairwise
        fun p q => Browser.units p.1 ≤ Browser.units q.1 := by
    rw [present, List.pairwise_filterMap, List.pairwise_map]
    refine (List.pairwise_map.mp h.1).imp fun {f g} hle p hp q hq => ?_
    obtain ⟨v, -, rfl⟩ := Option.map_eq_some_iff.mp hp
    obtain ⟨w, -, rfl⟩ := Option.map_eq_some_iff.mp hq
    exact hle
  rw [canonicalizeValue, canonicalizeProperties_eq, hmap, sortKeys, hsorted.insertionSort_eq,
    fromEntries, List.filter_eq_nil_iff.mpr, List.filter_eq_self.mpr]
  · rfl
  · intro p hp
    rw [hindex p hp]
    rfl
  · intro p hp
    rw [hindex p hp]
    decide

theorem canonicalizeValue_textValues (values : List Str) :
    canonicalizeValue script (textValues values) = textValues (canonicalTexts script values) := by
  have hscalar : ∀ item ∈ values.map Value.string, isScalar item = true := by
    intro item hitem
    obtain ⟨s, -, rfl⟩ := List.mem_map.mp hitem
    rfl
  have hsorted : sortScalars script (values.map Value.string) =
      (canonicalTexts script values).map Value.string :=
    (List.map_insertionSort _ _ Value.string values fun _ _ _ _ => Iff.rfl).symm
  rw [textValues, canonicalizeValue_scalars script hscalar, hsorted, textValues]

theorem canonicalizeValue_action (action : Action) :
    canonicalizeValue script action.toValue = action.toValue := by
  cases action <;>
    · rw [Action.toValue, canonicalizeValue_present script (by decide)]
      rfl

theorem nodup_condition :
    [str "domainType", str "excludedInitiatorDomains", str "initiatorDomains",
      str "isUrlFilterCaseSensitive", str "regexFilter", str "requestDomains", str "resourceTypes",
      str "urlFilter"].Nodup := by
  decide

theorem arranged_condition :
    Arranged [str "domainType", str "excludedInitiatorDomains", str "initiatorDomains",
      str "isUrlFilterCaseSensitive", str "regexFilter", str "requestDomains", str "resourceTypes",
      str "urlFilter"] := by
  decide

theorem arranged_rule : Arranged [str "action", str "condition", str "id", str "priority"] := by
  decide

theorem canonicalizeValue_condition (rule : Rule) :
    canonicalizeValue script rule.condition.toValue =
      (canonicalize script rule).condition.toValue := by
  have htexts : (canonicalizeValue script ∘ textValues) = textValues ∘ canonicalTexts script :=
    funext (canonicalizeValue_textValues script)
  have hstring : (canonicalizeValue script ∘ Value.string) = Value.string :=
    funext fun s => canonicalizeValue_scalar script rfl
  have hbool : (canonicalizeValue script ∘ Value.bool) = Value.bool :=
    funext fun b => canonicalizeValue_scalar script rfl
  rw [Condition.toValue, canonicalizeValue_present script (by exact arranged_condition)]
  simp only [List.map_cons, List.map_nil, Option.map_map, Option.map_some, htexts, hstring, hbool,
    canonicalizeValue_textValues, canonicalize, Condition.toValue]

theorem canonicalizeValue_rule (rule : Rule) :
    canonicalizeValue script rule.toValue = (canonicalize script rule).toValue := by
  rw [Rule.toValue, canonicalizeValue_present script (by exact arranged_rule)]
  simp only [List.map_cons, List.map_nil, Option.map_some, canonicalizeValue_action,
    canonicalizeValue_condition]
  rfl

theorem ruleId_toValue (rule : Rule) : ruleId rule.toValue = rule.id := by
  simp only [Rule.toValue, present, List.filterMap_cons, Option.map_some, List.filterMap_nil, ruleId,
    Json.lookup]
  rfl

/-- The canonical rules of the verifier are those of the script. -/
theorem canonicalValues_toValue (rules : List Rule) :
    canonicalValues script (rules.map Rule.toValue) =
      (canonicalRules script rules).map Rule.toValue := by
  have hmap : (rules.map Rule.toValue).map (canonicalizeValue script) =
      (rules.map (canonicalize script)).map Rule.toValue := by
    simp only [List.map_map]
    exact List.map_congr_left fun rule _ => canonicalizeValue_rule script rule
  rw [canonicalValues, hmap, canonicalRules]
  refine (List.map_insertionSort _ _ Rule.toValue _ fun a _ b _ => ?_).symm
  rw [ruleId_toValue, ruleId_toValue]
  omega

/-! A record is known from its value. -/

theorem not_mem_present {fields : List (Str × Option Value)} {name : Str} {v : Value}
    (h : name ∉ fields.map Prod.fst) : (name, v) ∉ present fields :=
  fun hmem => h (List.mem_map_of_mem (mem_present.mp hmem))

/-- Properties with different names tell the fields that they come from. -/
theorem present_injective : ∀ {fields fields' : List (Str × Option Value)},
    present fields = present fields' → fields.map Prod.fst = fields'.map Prod.fst →
      (fields.map Prod.fst).Nodup → fields = fields' := by
  intro fields
  induction fields with
  | nil =>
      intro fields' _ hnames _
      exact (List.map_eq_nil_iff.mp hnames.symm).symm
  | cons field fields ih =>
      intro fields' h hnames hnodup
      obtain ⟨name, o⟩ := field
      cases fields' with
      | nil => cases hnames
      | cons field' fields' =>
          obtain ⟨name', o'⟩ := field'
          rw [List.map_cons, List.map_cons] at hnames
          obtain ⟨rfl, hrest⟩ := List.cons.inj hnames
          rw [List.map_cons, List.nodup_cons] at hnodup
          have hname' : name ∉ fields'.map Prod.fst := hrest ▸ hnodup.1
          cases o with
          | none =>
              cases o' with
              | none =>
                  have htail : present fields = present fields' := h
                  rw [ih htail hrest hnodup.2]
              | some v' =>
                  have hmem : (name, v') ∈ present fields :=
                    (congrArg ((name, v') ∈ ·) h).mpr List.mem_cons_self
                  exact absurd hmem (not_mem_present hnodup.1)
          | some v =>
              cases o' with
              | none =>
                  have hmem : (name, v) ∈ present fields' :=
                    (congrArg ((name, v) ∈ ·) h).mp List.mem_cons_self
                  exact absurd hmem (not_mem_present hname')
              | some v' =>
                  obtain ⟨hhead, htail⟩ := List.cons.inj h
                  rw [(Prod.mk.inj hhead).2, ih htail hrest hnodup.2]

theorem string_injective : Function.Injective Value.string := fun _ _ h => Value.string.inj h

theorem textValues_injective : Function.Injective textValues :=
  fun _ _ h => string_injective.list_map (Value.array.inj h)

theorem Action.toValue_injective : Function.Injective Action.toValue := by
  intro a b h
  cases a <;> cases b
  · rfl
  · exact absurd (congrArg stringify h) (by decide)
  · exact absurd (congrArg stringify h) (by decide)
  · rfl

theorem Condition.toValue_injective : Function.Injective Condition.toValue := by
  intro c c' h
  rw [Condition.toValue, Condition.toValue, Value.object.injEq] at h
  have hfields := present_injective h rfl nodup_condition
  simp only [List.cons.injEq, Prod.mk.injEq, true_and, Option.some.injEq, and_true] at hfields
  obtain ⟨hdomain, hexcluded, hinitiator, hcase, hregex, hrequest, hresource, hurl⟩ := hfields
  have hbool : Function.Injective Value.bool := fun _ _ h => Value.bool.inj h
  cases c
  cases c'
  simp only [Condition.mk.injEq]
  exact ⟨Option.map_injective string_injective hurl, Option.map_injective string_injective hregex,
    Option.map_injective hbool hcase, Option.map_injective string_injective hdomain,
    Option.map_injective textValues_injective hrequest,
    Option.map_injective textValues_injective hinitiator,
    Option.map_injective textValues_injective hexcluded, textValues_injective hresource⟩

theorem Rule.toValue_injective : Function.Injective Rule.toValue := by
  intro rule rule' h
  rw [Rule.toValue, Rule.toValue, Value.object.injEq] at h
  have hfields := present_injective h rfl
    (by decide : [str "action", str "condition", str "id", str "priority"].Nodup)
  simp only [List.cons.injEq, Prod.mk.injEq, true_and, Option.some.injEq, and_true,
    Value.number.injEq, Int.natCast_inj] at hfields
  obtain ⟨haction, hcondition, hid, hpriority⟩ := hfields
  cases rule
  cases rule'
  simp only [Rule.mk.injEq]
  exact ⟨hid, hpriority, Action.toValue_injective haction, Condition.toValue_injective hcondition⟩

/-- The verifier of the model compares as the script does. -/
theorem sameValues_canonicalValues (rules rules' : List Rule) :
    sameValues (.array (canonicalValues script (rules.map Rule.toValue)))
      (.array (canonicalValues script (rules'.map Rule.toValue))) =
        decide (canonicalRules script rules = canonicalRules script rules') := by
  rw [canonicalValues_toValue, canonicalValues_toValue, sameValues, decide_eq_decide]
  constructor
  · intro h
    exact Rule.toValue_injective.list_map (Value.array.inj (Js.stringify_injective h))
  · intro h
    rw [h]

end ZsecShield.Shields
