import ZsecShield.Lib.Json.RoundTrip
import Mathlib.Algebra.BigOperators.Group.List.Basic

/-!
# The size of written JSON

The number of bytes a layout takes is the sum of what its parts take, whatever the order
of the members.  So a size can be computed on a value whose keys are not sorted
(`utf8Size_sortKeys`).  A layout can be encoded only when the strings of the value can
(`strings_of_encodable`).
-/

namespace Json

open Text

/-- The bytes of a line break. -/
def breakSize (σ : Style) (level : Nat) : Nat := if σ.indented then 2 * level + 1 else 0

theorem utf8Size_lineBreak (σ : Style) (level : Nat) :
    utf8Size (lineBreak σ level) = breakSize σ level := by
  have hspaces : ∀ n, utf8Size (List.replicate n (ofChar ' ')) = n := by
    intro n
    induction n with
    | zero => rfl
    | succ n ih =>
        rw [List.replicate_succ, utf8Size_cons, ih]
        change 1 + n = n + 1
        omega
  unfold lineBreak breakSize
  split
  · rw [utf8Size_cons, hspaces]
    change 1 + 2 * level = 2 * level + 1
    omega
  · rfl

/-- The bytes of the items of a block with their separators. -/
def itemsSize (σ : Style) (level : Nat) (sizes : List Nat) : Nat :=
  (sizes.map fun n => n + breakSize σ level + 1).sum

theorem utf8Size_following (σ : Style) (level : Nat) (items : List Str) :
    utf8Size (following σ level items) = itemsSize σ level (items.map utf8Size) := by
  induction items with
  | nil => rfl
  | cons i items ih =>
      have hcons : following σ level (i :: items) =
          ofChar ',' :: (lineBreak σ level ++ i) ++ following σ level items := by
        simp [following]
      rw [hcons, utf8Size_append, utf8Size_cons, utf8Size_append, utf8Size_lineBreak, ih]
      have hcomma : pointSize (ofChar ',') = 1 := rfl
      simp only [itemsSize, List.map_cons, List.sum_cons, hcomma]
      omega

/-- The bytes of a block with the given sizes of its items. -/
def blockSize (σ : Style) (level : Nat) (sizes : List Nat) : Nat :=
  if sizes = [] then 2 else 1 + itemsSize σ (level + 1) sizes + breakSize σ level

theorem utf8Size_block (σ : Style) (level : Nat) {left right : CodePoint}
    (hleft : pointSize left = 1) (hright : pointSize right = 1) (items : List Str) :
    utf8Size (block σ level left right items) = blockSize σ level (items.map utf8Size) := by
  cases items with
  | nil =>
      simp only [block, utf8Size_cons, hleft, hright, utf8Size_nil]
      rfl
  | cons i items =>
      rw [block_cons]
      simp only [utf8Size_cons, utf8Size_append, utf8Size_lineBreak, utf8Size_following, hleft,
        hright, utf8Size_nil, blockSize, itemsSize, List.map_cons, List.sum_cons,
        List.cons_ne_nil, ↓reduceIte]
      omega

theorem blockSize_perm (σ : Style) (level : Nat) {sizes sizes' : List Nat}
    (h : sizes.Perm sizes') : blockSize σ level sizes = blockSize σ level sizes' := by
  unfold blockSize itemsSize
  rw [((h.map _).sum_eq)]
  by_cases hnil : sizes = []
  · rw [if_pos hnil, if_pos (List.nil_perm.1 (hnil ▸ h))]
  · have hnil' : sizes' ≠ [] := fun heq => hnil (List.perm_nil.1 (heq ▸ h))
    rw [if_neg hnil, if_neg hnil']

theorem layoutElements_eq_map (σ : Style) (level : Nat) (es : List Json) :
    layoutElements σ level es = es.map (layout σ level) := by
  induction es with
  | nil => rfl
  | cons e es ih => rw [layoutElements, ih, List.map_cons]

theorem layoutMembers_eq_map (σ : Style) (level : Nat) (ms : List (Str × Json)) :
    layoutMembers σ level ms = ms.map (layoutMember σ level) := by
  induction ms with
  | nil => rfl
  | cons m ms ih => rw [layoutMembers_cons, ih, List.map_cons]

/-- The bytes of an array. -/
theorem utf8Size_arr (σ : Style) (level : Nat) (es : List Json) :
    utf8Size (layout σ level (.arr es)) =
      blockSize σ level (es.map fun e => utf8Size (layout σ (level + 1) e)) := by
  rw [layout, utf8Size_block σ level rfl rfl, layoutElements_eq_map, List.map_map]
  rfl

/-- The bytes of a dictionary. -/
theorem utf8Size_obj (σ : Style) (level : Nat) (ms : List (Str × Json)) :
    utf8Size (layout σ level (.obj ms)) =
      blockSize σ level (ms.map fun m => utf8Size (layoutMember σ (level + 1) m)) := by
  rw [layout, utf8Size_block σ level rfl rfl, layoutMembers_eq_map, List.map_map]
  rfl

/-- Sorting the keys of a value does not change the size of its layout. -/
theorem utf8Size_sortKeys (σ : Style) (v : Json) :
    ∀ level, utf8Size (layout σ level v.sortKeys) = utf8Size (layout σ level v) := by
  induction v with
  | null | bool | int | float | str => exact fun _ => rfl
  | arr es ih =>
      intro level
      rw [sortKeys, utf8Size_arr, utf8Size_arr, sortElements_eq_map, List.map_map]
      congr 1
      exact List.map_congr_left fun e he => ih e he (level + 1)
  | obj ms ih =>
      intro level
      rw [sortKeys, utf8Size_obj, utf8Size_obj]
      rw [blockSize_perm σ level ((perm_sortMembers (sortValues ms)).map _), sortValues_eq_map,
        List.map_map]
      congr 1
      refine List.map_congr_left fun m hm => ?_
      simp only [Function.comp_apply, layoutMember, utf8Size_append, ih m hm (level + 1)]

theorem length_escape_le (σ : Style) (c : CodePoint) : (escape σ c).length ≤ 12 := by
  have hescape : ∀ n, (unicodeEscape n).length = 6 := fun _ => rfl
  unfold escape
  split_ifs <;> simp only [List.length_cons, List.length_nil, List.length_append, hescape] <;> omega

/-- A generous bound on the size of a written string. -/
theorem utf8Size_quote_le (σ : Style) (s : Str) : utf8Size (quote σ s) ≤ 48 * s.length + 8 := by
  have hbody : (s.flatMap (escape σ)).length ≤ 12 * s.length := by
    induction s with
    | nil => exact Nat.zero_le _
    | cons c s ih =>
        have := length_escape_le σ c
        rw [List.flatMap_cons, List.length_append, List.length_cons]
        omega
  have hlen := utf8Size_le (quote σ s)
  simp only [quote, List.length_cons, List.length_append, List.length_nil] at hlen
  exact hlen.trans (by omega)

/-! A generous bound on the size of a layout, which needs the lengths of the strings only. -/

mutual

def weight (σ : Style) (level : Nat) : Json → Nat
  | .null => 4
  | .bool _ => 5
  | .int n => utf8Size (intText n)
  | .float x => utf8Size (floatText x)
  | .str s => 48 * s.length + 8
  | .arr elements => 2 + breakSize σ level + elementsWeight σ (level + 1) elements
  | .obj members => 2 + breakSize σ level + membersWeight σ (level + 1) members

def elementsWeight (σ : Style) (level : Nat) : List Json → Nat
  | [] => 0
  | e :: elements => weight σ level e + breakSize σ level + 1 + elementsWeight σ level elements

def membersWeight (σ : Style) (level : Nat) : List (Str × Json) → Nat
  | [] => 0
  | (k, v) :: members =>
      48 * k.length + 8 + utf8Size σ.keySeparator + weight σ level v + breakSize σ level + 1 +
        membersWeight σ level members

end

theorem blockSize_le (σ : Style) (level : Nat) (sizes : List Nat) :
    blockSize σ level sizes ≤ 2 + breakSize σ level + itemsSize σ (level + 1) sizes := by
  unfold blockSize
  split <;> omega

theorem utf8Size_layout_le (σ : Style) (v : Json) :
    ∀ level, utf8Size (layout σ level v) ≤ weight σ level v := by
  induction v with
  | null => exact fun _ => Nat.le_of_eq rfl
  | bool b =>
      intro level
      have hboth : ∀ b : Bool, utf8Size (Text.str (if b then "true" else "false")) ≤ 5 := by decide
      exact hboth b
  | int n => exact fun _ => Nat.le_of_eq rfl
  | float x => exact fun _ => Nat.le_of_eq rfl
  | str s => exact fun _ => utf8Size_quote_le σ s
  | arr elements ih =>
      intro level
      have hitems : itemsSize σ (level + 1)
          (elements.map fun e => utf8Size (layout σ (level + 1) e)) ≤
            elementsWeight σ (level + 1) elements := by
        induction elements with
        | nil => exact Nat.zero_le _
        | cons e elements ih' =>
            have he := ih e List.mem_cons_self (level + 1)
            have hrest := ih' fun x hx => ih x (List.mem_cons_of_mem _ hx)
            simp only [itemsSize, List.map_cons, List.sum_cons, elementsWeight] at hrest ⊢
            omega
      rw [utf8Size_arr, weight]
      exact (blockSize_le σ level _).trans (Nat.add_le_add_left hitems _)
  | obj members ih =>
      intro level
      have hitems : itemsSize σ (level + 1)
          (members.map fun m => utf8Size (layoutMember σ (level + 1) m)) ≤
            membersWeight σ (level + 1) members := by
        induction members with
        | nil => exact Nat.zero_le _
        | cons m members ih' =>
            have hm := ih m List.mem_cons_self (level + 1)
            have hrest := ih' fun x hx => ih x (List.mem_cons_of_mem _ hx)
            have hkey := utf8Size_quote_le σ m.1
            have hmember : utf8Size (layoutMember σ (level + 1) m) = utf8Size (quote σ m.1) +
                (utf8Size σ.keySeparator + utf8Size (layout σ (level + 1) m.2)) := by
              rw [layoutMember, utf8Size_append, utf8Size_append]
            simp only [itemsSize, List.map_cons, List.sum_cons, membersWeight, hmember] at hrest ⊢
            omega
      rw [utf8Size_obj, weight]
      exact (blockSize_le σ level _).trans (Nat.add_le_add_left hitems _)

/-! Bounds from the sizes of the parts. -/

theorem itemsSize_le (σ : Style) (level : Nat) {bound : Nat} {sizes : List Nat}
    (h : ∀ n ∈ sizes, n ≤ bound) :
    itemsSize σ level sizes ≤ sizes.length * (bound + breakSize σ level + 1) := by
  induction sizes with
  | nil => exact Nat.zero_le _
  | cons n sizes ih =>
      have hn := h n List.mem_cons_self
      have hrest := ih fun m hm => h m (List.mem_cons_of_mem n hm)
      simp only [itemsSize, List.map_cons, List.sum_cons, List.length_cons, Nat.succ_mul] at hrest ⊢
      omega

theorem utf8Size_arr_le (σ : Style) (level : Nat) {bound : Nat} {es : List Json}
    (h : ∀ e ∈ es, utf8Size (layout σ (level + 1) e) ≤ bound) :
    utf8Size (layout σ level (.arr es)) ≤
      2 + breakSize σ level + es.length * (bound + breakSize σ (level + 1) + 1) := by
  have hitems := itemsSize_le σ (level + 1) (List.forall_mem_map.2 h)
  rw [List.length_map] at hitems
  rw [utf8Size_arr]
  exact (blockSize_le σ level _).trans (Nat.add_le_add_left hitems _)

theorem utf8Size_obj_le (σ : Style) (level : Nat) {bound : Nat} {ms : List (Str × Json)}
    (h : ∀ m ∈ ms, utf8Size (layoutMember σ (level + 1) m) ≤ bound) :
    utf8Size (layout σ level (.obj ms)) ≤
      2 + breakSize σ level + ms.length * (bound + breakSize σ (level + 1) + 1) := by
  have hitems := itemsSize_le σ (level + 1) (List.forall_mem_map.2 h)
  rw [List.length_map] at hitems
  rw [utf8Size_obj]
  exact (blockSize_le σ level _).trans (Nat.add_le_add_left hitems _)

theorem utf8Size_member_le (σ : Style) (level : Nat) (m : Str × Json) :
    utf8Size (layoutMember σ level m) ≤
      48 * m.1.length + 8 + utf8Size σ.keySeparator + utf8Size (layout σ level m.2) := by
  have hkey := utf8Size_quote_le σ m.1
  rw [layoutMember, utf8Size_append, utf8Size_append]
  omega

/-- A character that every style writes as itself. -/
def Literal (c : CodePoint) : Prop :=
  32 ≤ c.val ∧ c.val < 127 ∧ c ≠ ofChar '"' ∧ c ≠ ofChar '\\'

instance (c : CodePoint) : Decidable (Literal c) := inferInstanceAs (Decidable (_ ∧ _))

theorem escape_literal (σ : Style) {c : CodePoint} (h : Literal c) : escape σ c = [c] := by
  obtain ⟨hlow, hhigh, hquote, hback⟩ := h
  have h10 : c.val ≠ 10 := by omega
  have h13 : c.val ≠ 13 := by omega
  have h9 : c.val ≠ 9 := by omega
  have h12 : c.val ≠ 12 := by omega
  have h8 : c.val ≠ 8 := by omega
  have h32 : ¬ c.val < 32 := by omega
  have h127 : ¬ 127 ≤ c.val := by omega
  simp [escape, hquote, hback, h10, h13, h9, h12, h8, h32, h127]

theorem quote_literal (σ : Style) {s : Str} (h : ∀ c ∈ s, Literal c) :
    quote σ s = ofChar '"' :: (s ++ [ofChar '"']) := by
  have hbody : s.flatMap (escape σ) = s := by
    induction s with
    | nil => rfl
    | cons c s ih =>
        rw [List.flatMap_cons, escape_literal σ (h c List.mem_cons_self),
          ih fun x hx => h x (List.mem_cons_of_mem _ hx)]
        rfl
  rw [quote, hbody]

/-- A string of such characters takes its length and the two quotation marks. -/
theorem utf8Size_quote_literal (σ : Style) {s : Str} (h : ∀ c ∈ s, Literal c) :
    utf8Size (quote σ s) = s.length + 2 := by
  have hsize : utf8Size s = s.length := by
    induction s with
    | nil => rfl
    | cons c s ih =>
        have hc := h c List.mem_cons_self
        have hpoint : pointSize c = 1 := by
          rw [pointSize, if_pos (by have := hc.2.1; omega)]
        rw [utf8Size_cons, hpoint, ih fun x hx => h x (List.mem_cons_of_mem _ hx), List.length_cons]
        omega
  have hmark : pointSize (ofChar '"') = 1 := rfl
  rw [quote_literal σ h, utf8Size_cons, utf8Size_append, utf8Size_cons, hsize, hmark, utf8Size_nil]
  omega

theorem utf8Size_member (σ : Style) (level : Nat) {key : Str} (hkey : ∀ c ∈ key, Literal c)
    (v : Json) : utf8Size (layoutMember σ level (key, v)) =
      key.length + 2 + utf8Size σ.keySeparator + utf8Size (layout σ level v) := by
  change utf8Size (quote σ key ++ (σ.keySeparator ++ layout σ level v)) = _
  rw [utf8Size_append, utf8Size_append, utf8Size_quote_literal σ hkey]
  omega

/-- The size of a member that holds a string. -/
theorem utf8Size_member_literal (σ : Style) (level : Nat) {key s : Str}
    (hkey : ∀ c ∈ key, Literal c) (hs : ∀ c ∈ s, Literal c) :
    utf8Size (layoutMember σ level (key, .str s)) =
      key.length + s.length + (utf8Size σ.keySeparator + 4) := by
  rw [layoutMember, utf8Size_append, utf8Size_append, layout, utf8Size_quote_literal σ hkey,
    utf8Size_quote_literal σ hs]
  omega

/-! ## Encoding -/

theorem Strings.sortKeys {p : Str → Prop} {v : Json} (h : Strings p v) : Strings p v.sortKeys := by
  induction h with
  | null => exact .null
  | bool b => exact .bool b
  | int n => exact .int n
  | float x => exact .float x
  | str s h => exact .str s h
  | arr es h ih =>
      rw [Json.sortKeys, sortElements_eq_map]
      refine .arr _ fun e he => ?_
      obtain ⟨x, hx, rfl⟩ := List.mem_map.1 he
      exact ih x hx
  | obj ms hk h ih =>
      rw [Json.sortKeys]
      refine .obj _ (fun m hm => ?_) fun m hm => ?_
      · obtain ⟨m', hm', rfl⟩ := mem_sortMembers hm
        exact hk m' hm'
      · obtain ⟨m', hm', rfl⟩ := mem_sortMembers hm
        exact ih m' hm'

theorem Strings.of_sortKeys {p : Str → Prop} {v : Json} (h : Strings p v.sortKeys) :
    Strings p v := by
  induction v with
  | null => exact .null
  | bool b => exact .bool b
  | int n => exact .int n
  | float x => exact .float x
  | str s =>
      cases h with
      | str _ hs => exact .str s hs
  | arr es ih =>
      rw [Json.sortKeys, sortElements_eq_map] at h
      cases h with
      | arr _ hs => exact .arr es fun e he => ih e he (hs _ (List.mem_map_of_mem he))
  | obj ms ih =>
      have hmem : ∀ m ∈ ms, (m.1, m.2.sortKeys) ∈ sortMembers (sortValues ms) := by
        intro m hm
        rw [(perm_sortMembers _).mem_iff, sortValues_eq_map]
        exact List.mem_map_of_mem hm
      rw [Json.sortKeys] at h
      cases h with
      | obj _ hk hs =>
          exact .obj ms (fun m hm => hk (m.1, m.2.sortKeys) (hmem m hm))
            fun m hm => ih m hm (hs (m.1, m.2.sortKeys) (hmem m hm))

/-! ## What cannot be encoded -/

/-- Without `ensure_ascii` a surrogate is written as it is. -/
theorem escape_surrogate {σ : Style} (hσ : σ.ensureAscii = false) {c : CodePoint}
    (hc : IsSurrogate c) : escape σ c = [c] := by
  have hlow : 0xD800 ≤ c.val := hc.1
  have hq : c ≠ ofChar '"' := by
    rintro rfl
    exact absurd hc (by decide)
  have hb : c ≠ ofChar '\\' := by
    rintro rfl
    exact absurd hc (by decide)
  have h10 : c.val ≠ 10 := by omega
  have h13 : c.val ≠ 13 := by omega
  have h9 : c.val ≠ 9 := by omega
  have h12 : c.val ≠ 12 := by omega
  have h8 : c.val ≠ 8 := by omega
  have h32 : ¬ c.val < 32 := by omega
  simp [escape, hσ, hq, hb, h10, h13, h9, h12, h8, h32]

theorem encodable_of_quote {σ : Style} (hσ : σ.ensureAscii = false) {s : Str}
    (h : Encodable (quote σ s)) : Encodable s := by
  intro c hc hs
  refine h c ?_ hs
  have hmem : c ∈ escape σ c := by simp [escape_surrogate hσ hs]
  simp only [quote, List.mem_cons, List.mem_append]
  exact .inr (.inl (List.mem_flatMap.2 ⟨c, hc, hmem⟩))

theorem mem_block {σ : Style} {level : Nat} {left right : CodePoint} {items : List Str} {i : Str}
    (hi : i ∈ items) {c : CodePoint} (hc : c ∈ i) : c ∈ block σ level left right items := by
  cases items with
  | nil => cases hi
  | cons x items =>
      simp only [block, List.mem_cons, List.mem_append, List.mem_flatMap]
      obtain rfl | hi := List.mem_cons.1 hi
      · exact .inr (.inl (.inl (.inl (.inr hc))))
      · exact .inr (.inl (.inl (.inr ⟨i, hi, .inr (.inr hc)⟩)))

/-- A text without `ensure_ascii` can be encoded only if all strings of the value can. -/
theorem strings_of_encodable {σ : Style} (hσ : σ.ensureAscii = false) {v : Json} :
    ∀ level, Encodable (layout σ level v) → Strings Encodable v := by
  induction v with
  | null => exact fun _ _ => .null
  | bool b => exact fun _ _ => .bool b
  | int n => exact fun _ _ => .int n
  | float x => exact fun _ _ => .float x
  | str s => exact fun _ h => .str s (encodable_of_quote hσ h)
  | arr es ih =>
      intro level h
      rw [layout, layoutElements_eq_map] at h
      refine .arr es fun e he => ih e he (level + 1) fun c hc => ?_
      exact h c (mem_block (List.mem_map_of_mem he) hc)
  | obj ms ih =>
      intro level h
      rw [layout, layoutMembers_eq_map] at h
      have hmember : ∀ m ∈ ms, Encodable (layoutMember σ (level + 1) m) :=
        fun m hm c hc => h c (mem_block (List.mem_map_of_mem hm) hc)
      simp only [layoutMember, encodable_append] at hmember
      exact .obj ms (fun m hm => encodable_of_quote hσ (hmember m hm).1)
        fun m hm => ih m hm (level + 1) (hmember m hm).2.2

/-! ## No fault -/

/-- A plain value within the limits of the interpreter is written. -/
theorem fault_eq_none {w : Writer} {allowNan : Bool} {v : Json} (h : Plain w.digits v) :
    ∀ {d : Nat}, v.depth ≤ d → fault w allowNan d v = none := by
  induction h with
  | null => exact fun _ => by simp [fault]
  | bool b => exact fun _ => by simp [fault]
  | int n hn => exact fun _ => by simp [fault, hn]
  | str s => exact fun _ => by simp [fault]
  | arr es hes ih =>
      intro d hd
      rw [depth] at hd
      obtain ⟨d, rfl⟩ := Nat.exists_eq_add_one_of_ne_zero (by omega : d ≠ 0)
      have hall : ∀ es', (∀ e ∈ es', e ∈ es) → faultElements w allowNan d es' = none := by
        intro es' hsub
        induction es' with
        | nil => rfl
        | cons e es' ih' =>
            have he := hsub e List.mem_cons_self
            have hdepth := depth_le_depthElements he
            rw [faultElements, ih e he (by omega), Option.none_or]
            exact ih' fun x hx => hsub x (List.mem_cons_of_mem _ hx)
      rw [fault]
      exact hall es fun _ h => h
  | obj ms hkeys hms ih =>
      intro d hd
      rw [depth] at hd
      obtain ⟨d, rfl⟩ := Nat.exists_eq_add_one_of_ne_zero (by omega : d ≠ 0)
      have hall : ∀ ms', (∀ m ∈ ms', m ∈ ms) → faultMembers w allowNan d ms' = none := by
        intro ms' hsub
        induction ms' with
        | nil => rfl
        | cons m ms' ih' =>
            have hm := hsub m List.mem_cons_self
            have hdepth := depth_le_depthMembers hm
            rw [faultMembers, ih m hm (by omega), Option.none_or]
            exact ih' fun x hx => hsub x (List.mem_cons_of_mem _ hx)
      rw [fault]
      exact hall ms fun _ h => h

theorem dumps_plain {w : Writer} {σ : Style} {v : Json} (h : Plain w.digits v)
    (hdepth : v.depth ≤ w.depth) : dumps w σ v = .ok (text σ v) := by
  rw [← depth_sortKeys] at hdepth
  rw [dumps, fault_eq_none h.sortKeys hdepth]

end Json
