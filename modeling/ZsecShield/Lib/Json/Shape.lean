import ZsecShield.Lib.Json.Size

/-!
# Values of bounded depth

`Shaped` is a value with a bounded number of levels whose numbers with a fraction satisfy a
predicate.  What one style of `json.dumps` writes, another one writes too, if the value is
not nested too deep for it (`fault_eq_none_of_depth`), and UTF-8 encodes the one text if it encodes
the other.
-/

namespace Json

open Text

/-- At most `levels` containers on the way down, and floating point as `F` says. -/
inductive Shaped (F : Float → Prop) : (levels : Nat) → Json → Prop
  | null (levels : Nat) : Shaped F levels .null
  | bool (levels : Nat) (b : Bool) : Shaped F levels (.bool b)
  | int (levels : Nat) (n : Int) : Shaped F levels (.int n)
  | float (levels : Nat) (x : Float) (h : F x) : Shaped F levels (.float x)
  | str (levels : Nat) (s : Str) : Shaped F levels (.str s)
  | arr (levels : Nat) (elements : List Json) (h : ∀ e ∈ elements, Shaped F levels e) :
      Shaped F (levels + 1) (.arr elements)
  | obj (levels : Nat) (members : List (Str × Json)) (hkeys : (members.map Prod.fst).Nodup)
      (h : ∀ m ∈ members, Shaped F levels m.2) : Shaped F (levels + 1) (.obj members)

namespace Shaped

variable {F : Float → Prop} {levels : Nat} {v : Json}

theorem depth_le (h : Shaped F levels v) : v.depth ≤ levels := by
  induction h with
  | null levels | bool levels b | int levels n | float levels x h | str levels s =>
      exact Nat.zero_le _
  | arr levels elements h ih =>
      rw [depth]
      exact Nat.succ_le_succ (depthElements_le ih)
  | obj levels members hkeys h ih =>
      rw [depth]
      exact Nat.succ_le_succ (depthMembers_le ih)

theorem sortKeys (h : Shaped F levels v) : Shaped F levels v.sortKeys := by
  induction h with
  | null levels => exact .null levels
  | bool levels b => exact .bool levels b
  | int levels n => exact .int levels n
  | float levels x h => exact .float levels x h
  | str levels s => exact .str levels s
  | arr levels elements h ih =>
      rw [Json.sortKeys, sortElements_eq_map]
      refine .arr levels _ fun e he => ?_
      obtain ⟨x, hx, rfl⟩ := List.mem_map.1 he
      exact ih x hx
  | obj levels members hkeys h ih =>
      rw [Json.sortKeys]
      refine .obj levels _ ((perm_keys_sortMembers members).nodup_iff.2 hkeys) fun m hm => ?_
      obtain ⟨m', hm', rfl⟩ := mem_sortMembers hm
      exact ih m' hm'

theorem mono {a b : Nat} (h : Shaped F a v) (hle : a ≤ b) : Shaped F b v := by
  induction h generalizing b with
  | null _ => exact .null b
  | bool _ x => exact .bool b x
  | int _ n => exact .int b n
  | float _ x hx => exact .float b x hx
  | str _ s => exact .str b s
  | arr levels elements h ih =>
      obtain ⟨b, rfl⟩ := Nat.exists_eq_add_of_lt hle
      exact .arr _ _ fun e he => ih e he (by omega)
  | obj levels members hkeys h ih =>
      obtain ⟨b, rfl⟩ := Nat.exists_eq_add_of_lt hle
      exact .obj _ _ hkeys fun m hm => ih m hm (by omega)

end Shaped

/-! ## Encoding -/

/-- Every character is an ASCII character. -/
def Ascii (s : Str) : Prop := ∀ c ∈ s, c.val < 128

theorem Ascii.encodable {s : Str} (h : Ascii s) : Encodable s := by
  intro c hc hs
  have hlow : 0xD800 ≤ c.val := hs.1
  have := h c hc
  omega

/-- An ASCII text takes one byte for each character. -/
theorem Ascii.utf8Size {s : Str} (h : Ascii s) : Text.utf8Size s = s.length := by
  induction s with
  | nil => rfl
  | cons c s ih =>
      have hpoint : pointSize c = 1 := by
        rw [pointSize, if_pos (Nat.le_of_lt_succ (h c List.mem_cons_self))]
      rw [utf8Size_cons, hpoint, ih fun x hx => h x (List.mem_cons_of_mem _ hx), List.length_cons]
      omega

theorem ascii_append {s t : Str} (hs : Ascii s) (ht : Ascii t) : Ascii (s ++ t) :=
  List.forall_mem_append.2 ⟨hs, ht⟩

theorem ascii_subset {s t : Str} (ht : Ascii t) (h : s ⊆ t) : Ascii s := fun c hc => ht c (h hc)

theorem ascii_literal {s : Str} (h : s.all (fun c => decide (c.val < 128)) = true) : Ascii s :=
  fun c hc => of_decide_eq_true (List.all_eq_true.1 h c hc)

/-- The predicate holds of every character. -/
def AllOf (Q : CodePoint → Prop) (s : Str) : Prop := ∀ c ∈ s, Q c

theorem Strings.mono {p q : Str → Prop} (hpq : ∀ s, p s → q s) {v : Json} (h : Strings p v) :
    Strings q v := by
  induction h with
  | null => exact .null
  | bool b => exact .bool b
  | int n => exact .int n
  | float x => exact .float x
  | str s h => exact .str s (hpq s h)
  | arr elements _ ih => exact .arr elements ih
  | obj members hkeys _ ih => exact .obj members (fun m hm => hpq _ (hkeys m hm)) ih

theorem strings_of_forall {p : Str → Prop} (h : ∀ s, p s) (v : Json) : Strings p v := by
  induction v with
  | null => exact .null
  | bool b => exact .bool b
  | int n => exact .int n
  | float x => exact .float x
  | str s => exact .str s (h s)
  | arr elements ih => exact .arr elements ih
  | obj members ih => exact .obj members (fun m _ => h m.1) ih

section Characters

variable {Q : CodePoint → Prop} (hQ : ∀ c : CodePoint, 32 ≤ c.val → c.val < 128 → Q c)

include hQ

theorem AllOf.literal {s : Str}
    (h : s.all (fun c => decide (32 ≤ c.val ∧ c.val < 128)) = true) : AllOf Q s := fun c hc =>
  have hc := of_decide_eq_true (List.all_eq_true.1 h c hc)
  hQ c hc.1 hc.2

theorem AllOf.digits (n : Nat) : AllOf Q (digits n) := by
  intro c hc
  have hdigit := isDigit_of_mem_digits hc
  rw [isDigit, Bool.and_eq_true, decide_eq_true_eq, decide_eq_true_eq] at hdigit
  exact hQ c (by omega) (by omega)

theorem AllOf.zeros (n : Nat) : AllOf Q (List.replicate n (ofChar '0')) := by
  intro c hc
  rw [List.eq_of_mem_replicate hc]
  exact hQ _ (by decide) (by decide)

theorem AllOf.layFloat {s : Str} (hs : AllOf Q s) (point : Int) : AllOf Q (layFloat s point) := by
  have htake (n : Nat) : AllOf Q (s.take n) := fun c hc => hs c (List.take_subset n s hc)
  have hdrop (n : Nat) : AllOf Q (s.drop n) := fun c hc => hs c (List.drop_subset n s hc)
  have hexponent := AllOf.digits hQ (point - 1).natAbs
  have happend {a b : Str} (ha : AllOf Q a) (hb : AllOf Q b) : AllOf Q (a ++ b) :=
    List.forall_mem_append.2 ⟨ha, hb⟩
  have hzero : AllOf Q (Text.str "0") := .literal hQ (by decide)
  have hdot : AllOf Q (Text.str ".") := .literal hQ (by decide)
  unfold Text.layFloat
  split
  · split
    · exact happend (happend (.literal hQ (by decide)) (.zeros hQ _)) hs
    · split
      · exact happend (happend hs (.zeros hQ _)) (.literal hQ (by decide))
      · exact happend (happend (htake _) hdot) (hdrop _)
  · refine happend (happend (happend (happend (htake 1) ?_) (.literal hQ (by decide))) ?_) ?_
    · split
      · exact .literal hQ (by decide)
      · exact happend hdot (hdrop 1)
    · split <;> exact .literal hQ (by decide)
    · split
      · exact happend hzero hexponent
      · exact hexponent

theorem AllOf.reprFloat (x : Float) : AllOf Q (reprFloat x) := by
  have hsign (b : Bool) : AllOf Q (if b then Text.str "-" else []) := by
    cases b with
    | false => exact List.forall_mem_nil _
    | true => exact .literal hQ (by decide)
  have hstrip (n : Nat) : AllOf Q (stripZeros (Text.digits n)) := by
    intro c hc
    refine AllOf.digits hQ n c ?_
    exact List.mem_reverse.1 ((List.dropWhile_subset _) (List.mem_reverse.1 hc))
  unfold Text.reprFloat
  split
  · exact List.forall_mem_nil _
  · dsimp only
    split
    · exact List.forall_mem_append.2 ⟨hsign _, AllOf.literal hQ (by decide)⟩
    · exact List.forall_mem_append.2 ⟨hsign _, AllOf.layFloat hQ (hstrip _) _⟩

theorem AllOf.floatText (x : Float) : AllOf Q (floatText x) := by
  unfold Json.floatText
  split
  · exact .reprFloat hQ x
  · split
    · exact .literal hQ (by decide)
    · split <;> exact .literal hQ (by decide)

theorem AllOf.intText (n : Int) : AllOf Q (intText n) := by
  unfold Text.intText
  split
  · exact List.forall_mem_append.2 ⟨AllOf.literal hQ (by decide), AllOf.digits hQ _⟩
  · exact .digits hQ _

theorem AllOf.unicodeEscape (n : Nat) : AllOf Q (unicodeEscape n) := by
  have hhex : ∀ k < 16, 32 ≤ (hexChar k).val ∧ (hexChar k).val < 128 := by decide
  have hmod (k : Nat) : Q (hexChar (k % 16)) :=
    have h := hhex _ (Nat.mod_lt k (by omega))
    hQ _ h.1 h.2
  simp only [AllOf, Json.unicodeEscape, List.forall_mem_cons, hmod, true_and]
  exact ⟨hQ _ (by decide) (by decide), hQ _ (by decide) (by decide), List.forall_mem_nil _⟩

/-- What is written for a character is visible ASCII, or the character if it is no control. -/
theorem AllOf.escape (σ : Style) {c : CodePoint} (h : 32 ≤ c.val → Q c) :
    AllOf Q (escape σ c) := by
  have hpair {x : CodePoint} (hx : Q x) : AllOf Q [ofChar '\\', x] :=
    List.forall_mem_cons.2 ⟨hQ _ (by decide) (by decide), List.forall_mem_singleton.2 hx⟩
  have hletter {x : CodePoint} (hx : 32 ≤ x.val ∧ x.val < 128) : AllOf Q [ofChar '\\', x] :=
    hpair (hQ x hx.1 hx.2)
  have hpoint (n : Nat) : AllOf Q (Json.unicodeEscape n) := .unicodeEscape hQ n
  unfold Json.escape
  split
  · rename_i hquote
    refine hpair (h ?_)
    rw [Bool.or_eq_true, decide_eq_true_eq, decide_eq_true_eq] at hquote
    rcases hquote with rfl | rfl <;> decide
  · split
    · exact hletter (by decide)
    · split
      · exact hletter (by decide)
      · split
        · exact hletter (by decide)
        · split
          · exact hletter (by decide)
          · split
            · exact hletter (by decide)
            · split
              · exact hpoint _
              · rename_i hcontrol
                split
                · split
                  · exact hpoint _
                  · exact List.forall_mem_append.2 ⟨hpoint _, hpoint _⟩
                · exact List.forall_mem_singleton.2 (h (Nat.le_of_not_lt hcontrol))

theorem AllOf.quote (σ : Style) {s : Str} (h : AllOf (fun c => 32 ≤ c.val → Q c) s) :
    AllOf Q (quote σ s) := by
  have hq : Q (ofChar '"') := hQ _ (by decide) (by decide)
  have hbody : AllOf Q (s.flatMap (Json.escape σ)) := by
    intro c hc
    obtain ⟨x, hx, hc⟩ := List.mem_flatMap.1 hc
    exact AllOf.escape hQ σ (h x hx) c hc
  exact List.forall_mem_cons.2
    ⟨hq, List.forall_mem_append.2 ⟨hbody, List.forall_mem_singleton.2 hq⟩⟩

variable {σ : Style} (hbreak : σ.indented = true → Q (ofChar '\n'))

include hbreak

theorem AllOf.lineBreak (level : Nat) : AllOf Q (lineBreak σ level) := by
  unfold Json.lineBreak
  split
  · rename_i hindented
    refine List.forall_mem_cons.2 ⟨hbreak hindented, fun c hc => ?_⟩
    rw [List.eq_of_mem_replicate hc]
    exact hQ _ (by decide) (by decide)
  · exact List.forall_mem_nil _

theorem AllOf.block (level : Nat) {left right : CodePoint} (hleft : Q left)
    (hright : Q right) {items : List Str} (h : ∀ i ∈ items, AllOf Q i) :
    AllOf Q (block σ level left right items) := by
  have hbreaks (n : Nat) : AllOf Q (Json.lineBreak σ n) := .lineBreak hQ hbreak n
  cases items with
  | nil => exact List.forall_mem_cons.2 ⟨hleft, List.forall_mem_singleton.2 hright⟩
  | cons i items =>
      have hrest : AllOf Q (following σ (level + 1) items) := by
        intro c hc
        obtain ⟨x, hx, hc⟩ := List.mem_flatMap.1 hc
        cases hc with
        | head => exact hQ _ (by decide) (by decide)
        | tail _ hc =>
            obtain hc | hc := List.mem_append.1 hc
            · exact hbreaks _ c hc
            · exact h x (List.mem_cons_of_mem _ hx) c hc
      rw [block_cons]
      refine List.forall_mem_cons.2 ⟨hleft, ?_⟩
      simp only [List.forall_mem_append]
      exact ⟨hbreaks _, h i List.mem_cons_self, hrest, hbreaks _, List.forall_mem_singleton.2 hright⟩

/-- A layout has such characters if the strings of the value have, controls apart. -/
theorem AllOf.layout (hsep : AllOf Q σ.keySeparator) {v : Json}
    (h : Strings (AllOf fun c => 32 ≤ c.val → Q c) v) : ∀ level, AllOf Q (layout σ level v) := by
  have hvisible {c : CodePoint} (hc : 32 ≤ c.val ∧ c.val < 128) : Q c := hQ c hc.1 hc.2
  induction h with
  | null => exact fun _ => AllOf.literal (s := Text.str "null") hQ (by decide)
  | bool b =>
      intro level
      cases b with
      | false => exact AllOf.literal (s := Text.str "false") hQ (by decide)
      | true => exact AllOf.literal (s := Text.str "true") hQ (by decide)
  | int n => exact fun _ => .intText hQ n
  | float x => exact fun _ => .floatText hQ x
  | str s hs => exact fun _ => AllOf.quote hQ σ hs
  | arr es hes ih =>
      intro level
      rw [Json.layout, layoutElements_eq_map]
      refine AllOf.block hQ hbreak level (hvisible (by decide)) (hvisible (by decide)) fun i hi => ?_
      obtain ⟨e, he, rfl⟩ := List.mem_map.1 hi
      exact ih e he _
  | obj ms hkeys hms ih =>
      intro level
      rw [Json.layout, layoutMembers_eq_map]
      refine AllOf.block hQ hbreak level (hvisible (by decide)) (hvisible (by decide)) fun i hi => ?_
      obtain ⟨m, hm, rfl⟩ := List.mem_map.1 hi
      exact List.forall_mem_append.2 ⟨AllOf.quote hQ σ (hkeys m hm),
        List.forall_mem_append.2 ⟨hsep, ih m hm _⟩⟩

end Characters

theorem ascii_digits (n : Nat) : Ascii (digits n) := AllOf.digits (fun _ _ h => h) n

theorem ascii_intText (n : Int) : Ascii (intText n) := AllOf.intText (fun _ _ h => h) n

theorem ascii_floatText (x : Float) : Ascii (floatText x) := AllOf.floatText (fun _ _ h => h) x

/-- A layout can be encoded if all strings of the value can. -/
theorem encodable_layout (σ : Style) (hsep : Encodable σ.keySeparator) {v : Json}
    (h : Strings Encodable v) (level : Nat) : Encodable (layout σ level v) :=
  AllOf.layout (fun _ _ hc hs => absurd hs.1 (by omega)) (fun _ => by decide) hsep
    (h.mono fun _ hs c hc _ => hs c hc) level

/-- A layout is ASCII if all strings of the value are. -/
theorem ascii_layout (σ : Style) (hsep : Ascii σ.keySeparator) {v : Json} (h : Strings Ascii v)
    (level : Nat) : Ascii (layout σ level v) :=
  AllOf.layout (fun _ _ hc => hc) (fun _ => by decide) hsep (h.mono fun _ hs c hc _ => hs c hc) level

/-- A layout without indentation is one line. -/
theorem oneLine_layout {σ : Style} (hσ : σ.indented = false)
    (hsep : AllOf (fun c => c.val ≠ 10) σ.keySeparator) (v : Json) (level : Nat) :
    AllOf (fun c => c.val ≠ 10) (layout σ level v) := by
  have hvisible (c : CodePoint) (hc : 32 ≤ c.val) : c.val ≠ 10 := by omega
  refine AllOf.layout (fun c hc _ => hvisible c hc) (by rw [hσ]; nofun) hsep ?_ level
  exact strings_of_forall (fun _ c _ => hvisible c) v

/-! ## From one style to another -/

theorem faultElements_eq_none {w : Writer} {allowNan : Bool} {depth : Nat} {elements : List Json} :
    faultElements w allowNan depth elements = none ↔
      ∀ e ∈ elements, fault w allowNan depth e = none := by
  induction elements with
  | nil => simp [faultElements]
  | cons e elements ih => simp [faultElements, Option.or_eq_none_iff, ih]

theorem faultMembers_eq_none {w : Writer} {allowNan : Bool} {depth : Nat}
    {members : List (Str × Json)} :
    faultMembers w allowNan depth members = none ↔
      ∀ m ∈ members, fault w allowNan depth m.2 = none := by
  induction members with
  | nil => simp [faultMembers]
  | cons m members ih => simp [faultMembers, Option.or_eq_none_iff, ih]

/-- An integer of a dictionary that was written has no more digits than the limit. -/
theorem length_digits_of_fault {w : Writer} {allowNan : Bool} {depth : Nat}
    {members : List (Str × Json)} (h : fault w allowNan depth (.obj members) = none) {key : Str}
    {n : Int} (hn : (key, .int n) ∈ members) : (digits n.natAbs).length ≤ w.digits := by
  cases depth with
  | zero => cases h
  | succ depth =>
      rw [fault, faultMembers_eq_none] at h
      have hint := h _ hn
      by_contra hlong
      simp only [fault, if_neg hlong] at hint
      cases hint

/-- A value that one encoder writes is written by one that allows as much. -/
theorem fault_eq_none_of_depth {w w' : Writer} {allowNan allowNan' : Bool} (hdigits : w.digits ≤ w'.digits)
    (hnan : allowNan = true → allowNan' = true) {v : Json} :
    ∀ {d d' : Nat}, fault w allowNan d v = none → v.depth ≤ d' → fault w' allowNan' d' v = none := by
  induction v with
  | null | bool _ | str _ =>
      intro d d' _ _
      cases d' <;> rfl
  | int n =>
      intro d d' h _
      simp only [fault] at h ⊢
      split at h
      · rename_i hlen
        rw [if_pos (hlen.trans hdigits)]
      · cases h
  | float x =>
      intro d d' h _
      simp only [fault, Bool.or_eq_true] at h ⊢
      split at h
      · rename_i hfinite
        rw [if_pos (hfinite.imp_right hnan)]
      · cases h
  | arr elements ih =>
      intro d d' h hdepth
      rw [depth] at hdepth
      cases d with
      | zero => cases h
      | succ d =>
          cases d' with
          | zero => omega
          | succ d' =>
              rw [fault, faultElements_eq_none] at h ⊢
              intro e he
              have hle := depth_le_depthElements he
              exact ih e he (h e he) (by omega)
  | obj members ih =>
      intro d d' h hdepth
      rw [depth] at hdepth
      cases d with
      | zero => cases h
      | succ d =>
          cases d' with
          | zero => omega
          | succ d' =>
              rw [fault, faultMembers_eq_none] at h ⊢
              intro m hm
              have hle := depth_le_depthMembers hm
              exact ih m hm (h m hm) (by omega)

/-- A value that an encoder with a limit on digits writes if it allows enough levels. -/
def Dumpable (digits : Nat) (v : Json) : Prop := fault ⟨v.depth, digits⟩ false v.depth v = none

theorem dumpable_of_fault {w : Writer} {d : Nat} {v : Json} (h : fault w false d v = none) :
    Dumpable w.digits v := by
  have hdigits : w.digits ≤ (⟨v.depth, w.digits⟩ : Writer).digits := le_refl _
  exact fault_eq_none_of_depth hdigits (fun heq => heq) h (le_refl _)

theorem Dumpable.fault {digits depth d : Nat} {allowNan : Bool} {v : Json} (h : Dumpable digits v)
    (hd : v.depth ≤ d) : Json.fault ⟨depth, digits⟩ allowNan d v = none := by
  have hdigits : (⟨v.depth, digits⟩ : Writer).digits ≤ (⟨depth, digits⟩ : Writer).digits := le_refl _
  have hnan : false = true → allowNan = true := nofun
  exact fault_eq_none_of_depth hdigits hnan h hd

theorem dumpable_str (digits : Nat) (s : Str) : Dumpable digits (.str s) := rfl

theorem dumpable_int {digits : Nat} {n : Int} (h : (Text.digits n.natAbs).length ≤ digits) :
    Dumpable digits (.int n) := if_pos h

theorem dumpable_obj {digits : Nat} {members : List (Str × Json)}
    (h : ∀ m ∈ members, Dumpable digits m.2) : Dumpable digits (.obj members) := by
  rw [Dumpable, depth, Json.fault, faultMembers_eq_none]
  intro m hm
  exact (h m hm).fault (depth_le_depthMembers hm)

/-! ## The text of a dictionary -/

/-- Lists of members with different keys that hold the same members are sorted alike. -/
theorem sortMembers_eq_of_perm {α : Type} {ms ms' : List (Str × α)} (h : ms.Perm ms')
    (hnodup : (ms.map Prod.fst).Nodup) : sortMembers ms = sortMembers ms' := by
  have : Std.Total fun a b : Str × α => a.1 ≤ b.1 := ⟨fun a b => le_total a.1 b.1⟩
  have : IsTrans (Str × α) fun a b => a.1 ≤ b.1 := ⟨fun _ _ _ => le_trans⟩
  have hperm := (perm_sortMembers ms).trans (h.trans (perm_sortMembers ms').symm)
  refine hperm.eq_of_pairwise ?_ (List.pairwise_insertionSort _ ms)
    (List.pairwise_insertionSort _ ms')
  intro a b ha hb hle hle'
  have hb' := (hperm.mem_iff).2 hb
  have hinjective := List.inj_on_of_nodup_map (((perm_sortMembers ms).map Prod.fst).nodup_iff.2 hnodup)
  exact hinjective ha hb' (le_antisymm hle hle')

/-- Without line breaks the level does not matter. -/
theorem layout_level {σ : Style} (hσ : σ.indented = false) (v : Json) :
    ∀ level level', layout σ level v = layout σ level' v := by
  have hbreak : ∀ level, lineBreak σ level = [] := by
    intro level
    rw [lineBreak, hσ]
    rfl
  have hblock : ∀ level level' left right items,
      block σ level left right items = block σ level' left right items := by
    intro level level' left right items
    cases items with
    | nil => rfl
    | cons item items => simp only [block, hbreak]
  induction v with
  | null | bool | int | float | str => exact fun _ _ => rfl
  | arr elements ih =>
      intro level level'
      rw [layout, layout, hblock level level', layoutElements_eq_map, layoutElements_eq_map]
      congr 1
      exact List.map_congr_left fun e he => ih e he _ _
  | obj members ih =>
      intro level level'
      rw [layout, layout, hblock level level', layoutMembers_eq_map, layoutMembers_eq_map]
      congr 1
      refine List.map_congr_left fun m hm => ?_
      rw [layoutMember, layoutMember, ih m hm]

/-- The text of a dictionary, from the texts of its members. -/
theorem text_obj {σ : Style} (hσ : σ.indented = false) (members : List (Str × Json)) :
    text σ (.obj members) = block σ 0 (ofChar '\x7b') (ofChar '\x7d')
      ((sortMembers (members.map fun m => (m.1, text σ m.2))).map fun m =>
        quote σ m.1 ++ (σ.keySeparator ++ m.2)) := by
  have htexts : (members.map fun m => (m.1, text σ m.2)) =
      (sortValues members).map fun m => (m.1, layout σ 1 m.2) := by
    rw [sortValues_eq_map, List.map_map]
    refine List.map_congr_left fun m _ => ?_
    rw [text, layout_level hσ _ 0 1]
    rfl
  rw [htexts, ← map_sortMembers, List.map_map, text, sortKeys, layout, layoutMembers_eq_map]
  rfl

/-- Two dictionaries with the same keys have the same text, if their members have. -/
theorem text_obj_congr {σ : Style} (hσ : σ.indented = false) {ms ms' : List (Str × Json)}
    {fields : List Str} (hkeys : keysAre ms fields = true) (hkeys' : keysAre ms' fields = true)
    (hnodup : (ms.map Prod.fst).Nodup) (hnodup' : (ms'.map Prod.fst).Nodup)
    (h : ∀ k ∈ fields, text σ ((lookup k ms).getD .null) = text σ ((lookup k ms').getD .null)) :
    text σ (.obj ms) = text σ (.obj ms') := by
  have hmem : ∀ {ms : List (Str × Json)}, keysAre ms fields = true → (ms.map Prod.fst).Nodup →
      ∀ m : Str × Str, m ∈ (ms.map fun m => (m.1, text σ m.2)) ↔
        m.1 ∈ fields ∧ m.2 = text σ ((lookup m.1 ms).getD .null) := by
    intro ms hkeys hnodup m
    simp only [keysAre, Bool.and_eq_true, decide_eq_true_eq] at hkeys
    constructor
    · intro hm
      obtain ⟨x, hx, rfl⟩ := List.mem_map.1 hm
      exact ⟨hkeys.1 x hx, by rw [lookup_eq_some_of_mem hnodup hx]; rfl⟩
    · rintro ⟨hfield, htext⟩
      obtain ⟨x, hx, hkey⟩ := List.mem_map.1 (hkeys.2 m.1 hfield)
      have hlookup := lookup_eq_some_of_mem hnodup hx
      rw [hkey] at hlookup
      rw [hlookup] at htext
      exact List.mem_map.2 ⟨x, hx, Prod.ext hkey htext.symm⟩
  have hfst : ∀ ms : List (Str × Json), (ms.map fun m => (m.1, text σ m.2)).map Prod.fst =
      ms.map Prod.fst := by
    intro ms
    rw [List.map_map]
    rfl
  have hperm : (ms.map fun m => (m.1, text σ m.2)).Perm (ms'.map fun m => (m.1, text σ m.2)) := by
    refine (List.perm_ext_iff_of_nodup ?_ ?_).2 fun m => ?_
    · exact List.Nodup.of_map Prod.fst (hfst ms ▸ hnodup)
    · exact List.Nodup.of_map Prod.fst (hfst ms' ▸ hnodup')
    · rw [hmem hkeys hnodup, hmem hkeys' hnodup']
      refine and_congr_right fun hfield => ?_
      rw [h m.1 hfield]
  rw [text_obj hσ, text_obj hσ, sortMembers_eq_of_perm hperm (hfst ms ▸ hnodup)]

/-! ## A check of plain values -/

mutual

/-- A test on the leaves and the keys, and pairwise different keys in every dictionary. -/
def isPlain (limit : Nat) : Json → Bool
  | .null => true
  | .bool _ => true
  | .int n => decide ((digits n.natAbs).length ≤ limit)
  | .float _ => false
  | .str s => decide (Encodable s)
  | .arr elements => allPlain limit elements
  | .obj members => decide ((members.map Prod.fst).Nodup) &&
      decide (∀ m ∈ members, Encodable m.1) && membersPlain limit members

def allPlain (limit : Nat) : List Json → Bool
  | [] => true
  | e :: elements => isPlain limit e && allPlain limit elements

def membersPlain (limit : Nat) : List (Str × Json) → Bool
  | [] => true
  | (_, v) :: members => isPlain limit v && membersPlain limit members

end

theorem allPlain_iff {limit : Nat} {elements : List Json} :
    allPlain limit elements = true ↔ ∀ e ∈ elements, isPlain limit e = true := by
  induction elements with
  | nil => simp [allPlain]
  | cons e elements ih => rw [allPlain, Bool.and_eq_true, ih, List.forall_mem_cons]

theorem membersPlain_iff {limit : Nat} {members : List (Str × Json)} :
    membersPlain limit members = true ↔ ∀ m ∈ members, isPlain limit m.2 = true := by
  induction members with
  | nil => simp [membersPlain]
  | cons m members ih => rw [membersPlain, Bool.and_eq_true, ih, List.forall_mem_cons]

section

variable (limit : Nat)

@[simp] theorem isPlain_null : isPlain limit .null = true := rfl

@[simp] theorem isPlain_bool (b : Bool) : isPlain limit (.bool b) = true := rfl

@[simp] theorem isPlain_str (s : Str) : isPlain limit (.str s) = decide (Encodable s) := by
  rw [isPlain]

@[simp] theorem isPlain_arr (elements : List Json) :
    isPlain limit (.arr elements) = true ↔ ∀ e ∈ elements, isPlain limit e = true := by
  rw [isPlain, allPlain_iff]

theorem isPlain_obj (members : List (Str × Json)) :
    isPlain limit (.obj members) = true ↔ (members.map Prod.fst).Nodup ∧
      (∀ m ∈ members, Encodable m.1) ∧ ∀ m ∈ members, isPlain limit m.2 = true := by
  rw [isPlain, Bool.and_eq_true, Bool.and_eq_true, decide_eq_true_iff, decide_eq_true_iff,
    membersPlain_iff, and_assoc]

end

/-- A part of a dictionary passes the check with it. -/
theorem isPlain_filter {limit : Nat} {members : List (Str × Json)}
    (h : isPlain limit (.obj members) = true) (p : Str × Json → Bool) :
    isPlain limit (.obj (members.filter p)) = true := by
  rw [isPlain_obj] at h ⊢
  obtain ⟨hnodup, hkeys, hvalues⟩ := h
  exact ⟨hnodup.sublist (List.filter_sublist.map _), fun m hm => hkeys m (List.mem_of_mem_filter hm),
    fun m hm => hvalues m (List.mem_of_mem_filter hm)⟩

/-- A value passes the check exactly if it is plain and all its strings are encodable. -/
theorem isPlain_iff {limit : Nat} {v : Json} :
    isPlain limit v = true ↔ Plain limit v ∧ Strings Encodable v := by
  induction v with
  | null => exact iff_of_true rfl ⟨.null, .null⟩
  | bool b => exact iff_of_true rfl ⟨.bool b, .bool b⟩
  | int n =>
      rw [isPlain, decide_eq_true_iff]
      refine ⟨fun h => ⟨.int n h, .int n⟩, ?_⟩
      rintro ⟨⟨⟩, -⟩
      assumption
  | float x =>
      refine iff_of_false nofun ?_
      rintro ⟨⟨⟩, -⟩
  | str s =>
      rw [isPlain, decide_eq_true_iff]
      refine ⟨fun h => ⟨.str s, .str s h⟩, ?_⟩
      rintro ⟨-, ⟨⟩⟩
      assumption
  | arr elements ih =>
      rw [isPlain_arr]
      constructor
      · intro h
        exact ⟨.arr _ fun e he => ((ih e he).1 (h e he)).1, .arr _ fun e he => ((ih e he).1 (h e he)).2⟩
      · rintro ⟨⟨⟩, ⟨⟩⟩ e he
        rename_i hplain hstrings
        exact (ih e he).2 ⟨hplain e he, hstrings e he⟩
  | obj members ih =>
      rw [isPlain_obj]
      constructor
      · rintro ⟨hnodup, hkeys, h⟩
        exact ⟨.obj _ hnodup fun m hm => ((ih m hm).1 (h m hm)).1,
          .obj _ hkeys fun m hm => ((ih m hm).1 (h m hm)).2⟩
      · rintro ⟨⟨⟩, ⟨⟩⟩
        rename_i hnodup hplain hkeys hstrings
        exact ⟨hnodup, hkeys, fun m hm => (ih m hm).2 ⟨hplain m hm, hstrings m hm⟩⟩

instance (limit : Nat) (v : Json) : Decidable (Plain limit v ∧ Strings Encodable v) :=
  decidable_of_iff _ isPlain_iff

end Json
