import Mathlib.Data.Finset.Card
import Mathlib.Data.Set.Finite.Basic
import Mathlib.Data.List.Nodup
import Mathlib.Logic.Function.Iterate

/-!
# Depth-first search

A search takes nodes from a stack.  A node that cannot be looked at is left; a node whose identity
was seen before is left too, if it has a known one; the others are opened, if they can be, and their
children are put on the stack.  So an identity counts as seen when a node is taken, not when it is
found, and a node may stand on the stack more than once.

The search ends if the identities are finite (`exists_finished`) or if the nodes are the finite
nodes of a forest (`Forest.exists_finished`).  In a forest every node that is reached is taken
once, and opened if it can be (`Forest.reached`).
-/

namespace Search

variable {N ι : Type} [DecidableEq ι]

/-- What can be searched. -/
structure Space (N ι : Type) where
  /-- The identity of a node, and its children if it can be opened. -/
  look : N → Option (ι × Option (List N))
  /-- The identity tells a node from others. -/
  known : ι → Bool

structure State (N ι : Type) where
  stack : List N
  seen : List ι
  /-- The nodes that were taken from the stack, and those of them that were opened. -/
  taken : List N
  opened : List N

def start (roots : List N) : State N ι := ⟨roots, [], [], []⟩

variable (sp : Space N ι)

/-- One node is taken from the stack. -/
def turn (st : State N ι) : State N ι :=
  match st.stack with
  | [] => st
  | node :: stack =>
      let st := { st with stack := stack, taken := st.taken ++ [node] }
      match sp.look node with
      | none => st
      | some (i, children) =>
          if sp.known i = true ∧ i ∈ st.seen then st
          else
            let st := { st with seen := i :: st.seen }
            match children with
            | none => st
            | some children =>
                { st with stack := children ++ stack, opened := st.opened ++ [node] }

/-- What a turn with a node on the stack does. -/
inductive Turn (sp : Space N ι) (st : State N ι) (node : N) (stack : List N) : State N ι → Prop
  | blind (hlook : sp.look node = none) :
      Turn sp st node stack { st with stack := stack, taken := st.taken ++ [node] }
  | again {i : ι} {children : Option (List N)} (hlook : sp.look node = some (i, children))
      (hknown : sp.known i = true) (hseen : i ∈ st.seen) :
      Turn sp st node stack { st with stack := stack, taken := st.taken ++ [node] }
  | shut {i : ι} (hlook : sp.look node = some (i, none))
      (hfresh : ¬ (sp.known i = true ∧ i ∈ st.seen)) :
      Turn sp st node stack
        { st with stack := stack, taken := st.taken ++ [node], seen := i :: st.seen }
  | opened {i : ι} {children : List N} (hlook : sp.look node = some (i, some children))
      (hfresh : ¬ (sp.known i = true ∧ i ∈ st.seen)) :
      Turn sp st node stack
        { stack := children ++ stack, seen := i :: st.seen, taken := st.taken ++ [node],
          opened := st.opened ++ [node] }

variable {sp}

theorem turn_nil {st : State N ι} (h : st.stack = []) : turn sp st = st := by
  simp only [turn, h]

variable (sp) in
theorem turn_cons {st : State N ι} {node : N} {stack : List N} (h : st.stack = node :: stack) :
    Turn sp st node stack (turn sp st) := by
  cases hlook : sp.look node with
  | none =>
      simp only [turn, h, hlook]
      exact .blind hlook
  | some found =>
      obtain ⟨i, children⟩ := found
      by_cases hagain : sp.known i = true ∧ i ∈ st.seen
      · simp only [turn, h, hlook, if_pos hagain]
        exact .again hlook hagain.1 hagain.2
      · cases children with
        | none =>
            simp only [turn, h, hlook, if_neg hagain]
            exact .shut hlook hagain
        | some children =>
            simp only [turn, h, hlook, if_neg hagain]
            exact .opened hlook hagain

variable (sp) in
/-- The state after some turns. -/
def turns (n : Nat) (st : State N ι) : State N ι := (turn sp)^[n] st

theorem turns_succ (n : Nat) (st : State N ι) : turns sp (n + 1) st = turns sp n (turn sp st) :=
  Function.iterate_succ_apply _ _ _

/-- What every turn keeps holds behind all turns. -/
theorem turns_invariant {P : State N ι → Prop} (hturn : ∀ st, P st → P (turn sp st))
    {st : State N ι} (h : P st) (n : Nat) : P (turns sp n st) := by
  induction n generalizing st with
  | zero => exact h
  | succ n ih =>
      rw [turns_succ]
      exact ih (hturn st h)

/-- What holds of the roots and goes over to children holds of all nodes. -/
structure Sound (sp : Space N ι) (P : N → Prop) (st : State N ι) : Prop where
  stack : ∀ node ∈ st.stack, P node
  taken : ∀ node ∈ st.taken, P node
  opened : ∀ node ∈ st.opened, node ∈ st.taken ∧
    ∃ i children, sp.look node = some (i, some children)

/-- The children of a node with the property have it. -/
def Hereditary (sp : Space N ι) (P : N → Prop) : Prop :=
  ∀ node i children, P node → sp.look node = some (i, some children) → ∀ c ∈ children, P c

theorem Sound.turn {P : N → Prop} (hP : Hereditary sp P) {st : State N ι} (h : Sound sp P st) :
    Sound sp P (turn sp st) := by
  cases hstack : st.stack with
  | nil =>
      rw [turn_nil hstack]
      exact h
  | cons node stack =>
      have hnode : P node := h.stack node (hstack ▸ List.mem_cons_self)
      have hrest : ∀ n ∈ stack, P n := fun n hn => h.stack n (hstack ▸ List.mem_cons_of_mem _ hn)
      have htaken : ∀ n ∈ st.taken ++ [node], P n := by
        intro n hn
        rcases List.mem_append.1 hn with hn | hn
        · exact h.taken n hn
        · rw [List.mem_singleton.1 hn]
          exact hnode
      have hopened : ∀ n ∈ st.opened, n ∈ st.taken ++ [node] ∧
          ∃ i children, sp.look n = some (i, some children) := fun n hn =>
        ⟨List.mem_append_left _ (h.opened n hn).1, (h.opened n hn).2⟩
      have hturn := turn_cons sp hstack
      generalize Search.turn sp st = st' at hturn ⊢
      cases hturn with
      | blind => exact ⟨hrest, htaken, hopened⟩
      | again => exact ⟨hrest, htaken, hopened⟩
      | shut => exact ⟨hrest, htaken, hopened⟩
      | opened hlook =>
          refine ⟨?_, htaken, ?_⟩
          · intro n hn
            rcases List.mem_append.1 hn with hn | hn
            · exact hP node _ _ hnode hlook n hn
            · exact hrest n hn
          · intro n hn
            rcases List.mem_append.1 hn with hn | hn
            · exact hopened n hn
            · rw [List.mem_singleton.1 hn]
              exact ⟨List.mem_append_right _ List.mem_cons_self, _, _, hlook⟩

omit [DecidableEq ι] in
theorem sound_start {P : N → Prop} {roots : List N} (h : ∀ node ∈ roots, P node) :
    Sound sp P (start roots) :=
  ⟨h, nofun, nofun⟩

/-! ## Identities -/

/-- The opened nodes have different identities, as far as these are known. -/
structure Once (sp : Space N ι) (st : State N ι) : Prop where
  seen : ∀ node ∈ st.opened, ∀ i children, sp.look node = some (i, children) → i ∈ st.seen
  apart : st.opened.Pairwise fun a b => ∀ i c c', sp.look a = some (i, c) →
    sp.look b = some (i, c') → sp.known i = false

variable (sp) in
omit [DecidableEq ι] in
theorem once_start (roots : List N) : Once sp (start roots) := ⟨nofun, List.Pairwise.nil⟩

theorem Once.turn {st : State N ι} (h : Once sp st) : Once sp (turn sp st) := by
  cases hstack : st.stack with
  | nil =>
      rw [turn_nil hstack]
      exact h
  | cons node stack =>
      have hturn := turn_cons sp hstack
      generalize Search.turn sp st = st' at hturn ⊢
      cases hturn with
      | blind => exact ⟨h.seen, h.apart⟩
      | again => exact ⟨h.seen, h.apart⟩
      | shut =>
          exact ⟨fun n hn i c hlook => List.mem_cons_of_mem _ (h.seen n hn i c hlook), h.apart⟩
      | @opened i children hlook hfresh =>
          refine ⟨?_, List.pairwise_append.2 ⟨h.apart, List.pairwise_singleton _ _, ?_⟩⟩
          · intro n hn j c hj
            rcases List.mem_append.1 hn with hn | hn
            · exact List.mem_cons_of_mem _ (h.seen n hn j c hj)
            · rw [List.mem_singleton.1 hn, hlook] at hj
              cases hj
              exact List.mem_cons_self
          · intro a ha b hb j c c' hja hjb
            rw [List.mem_singleton.1 hb, hlook] at hjb
            cases hjb
            have hseen := h.seen a ha i c hja
            exact Bool.eq_false_of_not_eq_true fun hknown => hfresh ⟨hknown, hseen⟩

/-- If the nodes have known identities, of which there are finitely many, the search ends: a turn
takes a node from the stack, and what it puts there is paid for by a new identity. -/
theorem exists_finished {P : N → Prop} (hP : Hereditary sp P) (identities : Finset ι)
    (hidentity : ∀ node i children, P node → sp.look node = some (i, children) →
      sp.known i = true ∧ i ∈ identities)
    (st : State N ι) (hst : Sound sp P st) : ∃ n, (turns sp n st).stack = [] := by
  induction hmeasure : (identities \ st.seen.toFinset).card using Nat.strong_induction_on
    generalizing st with
  | _ k ih =>
      induction hstack : st.stack generalizing st with
      | nil => exact ⟨0, hstack⟩
      | cons node stack ihstack =>
          have hnode : P node := hst.stack node (hstack ▸ List.mem_cons_self)
          have hsound := hst.turn hP
          have hnew {i : ι} (hi : i ∈ identities) (hfresh : i ∉ st.seen) :
              (identities \ (i :: st.seen).toFinset).card < k := by
            rw [← hmeasure]
            refine Finset.card_lt_card (Finset.ssubset_iff_subset_ne.2 ⟨?_, ?_⟩)
            · refine Finset.sdiff_subset_sdiff (Finset.Subset.refl _) fun j hj => ?_
              rw [List.mem_toFinset] at hj ⊢
              exact List.mem_cons_of_mem i hj
            · intro heq
              have hmem : i ∈ identities \ st.seen.toFinset :=
                Finset.mem_sdiff.2 ⟨hi, fun h => hfresh (List.mem_toFinset.1 h)⟩
              rw [← heq] at hmem
              exact (Finset.mem_sdiff.1 hmem).2 (List.mem_toFinset.2 List.mem_cons_self)
          have hdone : ∃ n, (turns sp n (turn sp st)).stack = [] := by
            have hturn := turn_cons sp hstack
            generalize Search.turn sp st = st' at hturn hsound ⊢
            cases hturn with
            | blind => exact ihstack _ hsound hmeasure rfl
            | again => exact ihstack _ hsound hmeasure rfl
            | shut hlook hfresh =>
                obtain ⟨hknown, hi⟩ := hidentity _ _ _ hnode hlook
                exact ih _ (hnew hi fun hseen => hfresh ⟨hknown, hseen⟩) _ hsound rfl
            | opened hlook hfresh =>
                obtain ⟨hknown, hi⟩ := hidentity _ _ _ hnode hlook
                exact ih _ (hnew hi fun hseen => hfresh ⟨hknown, hseen⟩) _ hsound rfl
          obtain ⟨n, hn⟩ := hdone
          exact ⟨n + 1, by rw [turns_succ, hn]⟩

/-! ## Forests -/

def Opens (sp : Space N ι) (node : N) : Prop := ∃ i children, sp.look node = some (i, some children)

/-- `c` is a child of `node`, which can be opened. -/
def Child (sp : Space N ι) (node c : N) : Prop :=
  ∃ i children, sp.look node = some (i, some children) ∧ c ∈ children

/-- The nodes below a root. -/
inductive Reached (sp : Space N ι) (root : N) : N → Prop
  | root : Reached sp root root
  | child {node c : N} (h : Reached sp root node) (hc : Child sp node c) : Reached sp root c

omit [DecidableEq ι] in
theorem hereditary_reached (root : N) : Hereditary sp (Reached sp root) :=
  fun _ _ _ h hlook _ hc => h.child ⟨_, _, hlook, hc⟩

/-- No node below the root has two parents, or the identity of another one. -/
structure Forest (sp : Space N ι) (root : N) : Prop where
  nodup : ∀ node i children, Reached sp root node → sp.look node = some (i, some children) →
    children.Nodup
  parent : ∀ a b c, Reached sp root a → Reached sp root b → Child sp a c → Child sp b c → a = b
  top : ∀ node, Reached sp root node → ¬ Child sp node root
  apart : ∀ a b i c c', Reached sp root a → Reached sp root b → sp.known i = true →
    sp.look a = some (i, c) → sp.look b = some (i, c') → a = b

/-- The search of a forest. -/
structure Growing (sp : Space N ι) (root : N) (st : State N ι) : Prop where
  distinct : (st.taken ++ st.stack).Nodup
  reached : ∀ node ∈ st.taken ++ st.stack, Reached sp root node
  origin : ∀ node ∈ st.taken ++ st.stack, node = root ∨ ∃ parent ∈ st.opened, Child sp parent node
  opened : ∀ node ∈ st.opened, node ∈ st.taken
  once : st.opened.Nodup
  seen : ∀ i ∈ st.seen, ∃ node ∈ st.taken, ∃ children, sp.look node = some (i, children)
  complete : ∀ node ∈ st.taken, Opens sp node → node ∈ st.opened
  root : root ∈ st.taken ++ st.stack
  covered : ∀ node ∈ st.opened, ∀ c, Child sp node c → c ∈ st.taken ++ st.stack

omit [DecidableEq ι] in
theorem growing_start (root : N) : Growing sp root (start [root]) where
  distinct := List.nodup_singleton root
  reached node h := by
    rw [List.mem_singleton.1 h]
    exact .root
  origin node h := .inl (List.mem_singleton.1 h)
  opened := nofun
  once := List.nodup_nil
  seen := nofun
  complete := nofun
  root := List.mem_cons_self
  covered := nofun

omit [DecidableEq ι] in
/-- A node that is taken and not opened. -/
theorem Growing.left {root : N} {st : State N ι} (h : Growing sp root st) {node : N}
    {stack : List N} (hstack : st.stack = node :: stack) (hshut : ¬ Opens sp node)
    {seen : List ι}
    (hseen : ∀ i ∈ seen, i ∈ st.seen ∨ ∃ children, sp.look node = some (i, children)) :
    Growing sp root { st with stack := stack, taken := st.taken ++ [node], seen := seen } := by
  have hsame : st.taken ++ [node] ++ stack = st.taken ++ st.stack := by
    rw [hstack, List.append_assoc]
    rfl
  constructor
  · show (st.taken ++ [node] ++ stack).Nodup
    rw [hsame]
    exact h.distinct
  · show ∀ n ∈ st.taken ++ [node] ++ stack, _
    rw [hsame]
    exact h.reached
  · show ∀ n ∈ st.taken ++ [node] ++ stack, _
    rw [hsame]
    exact h.origin
  · exact fun n hn => List.mem_append_left _ (h.opened n hn)
  · exact h.once
  · intro i hi
    rcases hseen i hi with hold | hnew
    · obtain ⟨n, hn, hlook⟩ := h.seen i hold
      exact ⟨n, List.mem_append_left _ hn, hlook⟩
    · exact ⟨node, List.mem_append_right _ List.mem_cons_self, hnew⟩
  · intro n hn hopens
    rcases List.mem_append.1 hn with hn | hn
    · exact h.complete n hn hopens
    · rw [List.mem_singleton.1 hn] at hopens
      exact absurd hopens hshut
  · show root ∈ st.taken ++ [node] ++ stack
    rw [hsame]
    exact h.root
  · show ∀ n ∈ st.opened, ∀ c, Child sp n c → c ∈ st.taken ++ [node] ++ stack
    rw [hsame]
    exact h.covered

omit [DecidableEq ι] in
/-- A node that is opened: its children are new. -/
theorem Growing.grow {root : N} (hforest : Forest sp root) {st : State N ι}
    (h : Growing sp root st) {node : N} {stack : List N} (hstack : st.stack = node :: stack) {i : ι}
    {children : List N} (hlook : sp.look node = some (i, some children)) :
    Growing sp root
      { stack := children ++ stack, seen := i :: st.seen, taken := st.taken ++ [node],
        opened := st.opened ++ [node] } := by
  have hold : st.taken ++ st.stack = st.taken ++ [node] ++ stack := by
    rw [hstack, List.append_assoc]
    rfl
  have hnode : Reached sp root node :=
    h.reached node (List.mem_append_right _ (hstack ▸ List.mem_cons_self))
  have hnew : ∀ c, c ∈ st.taken ++ [node] ++ (children ++ stack) ↔
      c ∈ st.taken ++ st.stack ∨ c ∈ children := by
    intro c
    rw [hold]
    simp only [List.mem_append]
    tauto
  have hchild : ∀ c, Child sp node c ↔ c ∈ children := by
    refine fun c => ⟨fun ⟨j, cs, hj, hc⟩ => ?_, fun hc => ⟨i, children, hlook, hc⟩⟩
    rw [hlook] at hj
    cases hj
    exact hc
  -- the other nodes are children of nodes that were opened, so taken, before
  have hfresh : ∀ c ∈ children, c ∉ st.taken ++ st.stack := by
    intro c hc hmem
    rcases h.origin c hmem with rfl | ⟨parent, hparent, hpc⟩
    · exact hforest.top node hnode ((hchild c).2 hc)
    · have htaken := h.opened parent hparent
      have heq := hforest.parent parent node c (h.reached parent (List.mem_append_left _ htaken))
        hnode hpc ((hchild c).2 hc)
      have hdisjoint := (List.nodup_append.1 h.distinct).2.2 parent htaken node
        (hstack ▸ List.mem_cons_self)
      exact hdisjoint heq
  constructor
  · show (st.taken ++ [node] ++ (children ++ stack)).Nodup
    have hdistinct := h.distinct
    rw [hold] at hdistinct hfresh
    have hperm : (st.taken ++ [node] ++ (children ++ stack)).Perm
        (children ++ (st.taken ++ [node] ++ stack)) := by
      rw [← List.append_assoc, ← List.append_assoc]
      exact List.perm_append_comm.append_right stack
    refine hperm.nodup_iff.2 (List.nodup_append.2 ⟨hforest.nodup node i children hnode hlook,
      hdistinct, fun a ha b hb heq => hfresh a ha (heq ▸ hb)⟩)
  · intro c hc
    rcases (hnew c).1 hc with hc | hc
    · exact h.reached c hc
    · exact hnode.child ((hchild c).2 hc)
  · intro c hc
    rcases (hnew c).1 hc with hc | hc
    · rcases h.origin c hc with rfl | ⟨parent, hparent, hpc⟩
      · exact .inl rfl
      · exact .inr ⟨parent, List.mem_append_left _ hparent, hpc⟩
    · exact .inr ⟨node, List.mem_append_right _ List.mem_cons_self, (hchild c).2 hc⟩
  · intro n hn
    rcases List.mem_append.1 hn with hn | hn
    · exact List.mem_append_left _ (h.opened n hn)
    · exact List.mem_append_right _ hn
  · refine List.nodup_append.2 ⟨h.once, List.nodup_singleton _, fun a ha b hb heq => ?_⟩
    rw [List.mem_singleton.1 hb] at heq
    exact (List.nodup_append.1 h.distinct).2.2 a (h.opened a ha) node
      (hstack ▸ List.mem_cons_self) heq
  · intro j hj
    rcases List.mem_cons.1 hj with rfl | hj
    · exact ⟨node, List.mem_append_right _ List.mem_cons_self, _, hlook⟩
    · obtain ⟨n, hn, hlook⟩ := h.seen j hj
      exact ⟨n, List.mem_append_left _ hn, hlook⟩
  · intro n hn hopens
    rcases List.mem_append.1 hn with hn | hn
    · exact List.mem_append_left _ (h.complete n hn hopens)
    · exact List.mem_append_right _ hn
  · exact (hnew root).2 (.inl h.root)
  · intro n hn c hc
    rcases List.mem_append.1 hn with hn | hn
    · exact (hnew c).2 (.inl (h.covered n hn c hc))
    · rw [List.mem_singleton.1 hn] at hc
      exact (hnew c).2 (.inr ((hchild c).1 hc))

theorem Growing.turn {root : N} (hforest : Forest sp root) {st : State N ι}
    (h : Growing sp root st) : Growing sp root (turn sp st) := by
  cases hstack : st.stack with
  | nil =>
      rw [turn_nil hstack]
      exact h
  | cons node stack =>
      have hnode : node ∈ st.stack := hstack ▸ List.mem_cons_self
      have hturn := turn_cons sp hstack
      generalize Search.turn sp st = st' at hturn ⊢
      cases hturn with
      | blind hlook =>
          refine h.left hstack (fun ⟨i, children, hopen⟩ => ?_) fun i hi => .inl hi
          rw [hlook] at hopen
          cases hopen
      | again hlook hknown hseen =>
          -- a node with the identity of one that was taken is that node
          obtain ⟨n, hn, c, hsame⟩ := h.seen _ hseen
          have heq := hforest.apart n node _ _ _ (h.reached n (List.mem_append_left _ hn))
            (h.reached node (List.mem_append_right _ hnode)) hknown hsame hlook
          exact absurd heq ((List.nodup_append.1 h.distinct).2.2 n hn node hnode)
      | shut hlook =>
          refine h.left hstack (fun ⟨i, children, hopen⟩ => ?_) fun i hi => ?_
          · rw [hlook] at hopen
            cases hopen
          · rcases List.mem_cons.1 hi with rfl | hi
            · exact .inr ⟨_, hlook⟩
            · exact .inl hi
      | opened hlook => exact h.grow hforest hstack hlook

omit [DecidableEq ι] in
/-- A finished search of a forest has opened the nodes below the root that can be opened, each
once. -/
theorem Growing.finished {root : N} {st : State N ι} (h : Growing sp root st)
    (hdone : st.stack = []) :
    st.opened.Nodup ∧ (∀ node ∈ st.opened, Reached sp root node) ∧
      ∀ node, Reached sp root node → Opens sp node → node ∈ st.opened := by
  have hall : st.taken ++ st.stack = st.taken := by rw [hdone, List.append_nil]
  have hreached := h.reached
  have hroot := h.root
  have hcovered := h.covered
  rw [hall] at hreached hroot hcovered
  have htaken : ∀ node, Reached sp root node → node ∈ st.taken := by
    intro node hnode
    induction hnode with
    | root => exact hroot
    | child _ hc ih =>
        have hopens : Opens sp _ := ⟨hc.choose, hc.choose_spec.choose, hc.choose_spec.choose_spec.1⟩
        exact hcovered _ (h.complete _ ih hopens) _ hc
  exact ⟨h.once, fun node hnode => hreached node (h.opened node hnode),
    fun node hnode hopens => h.complete node (htaken node hnode) hopens⟩

/-- A turn takes a node while there is one. -/
theorem length_taken_turn {st : State N ι} (h : st.stack ≠ []) :
    (turn sp st).taken.length = st.taken.length + 1 := by
  cases hstack : st.stack with
  | nil => exact absurd hstack h
  | cons node stack =>
      have hturn := turn_cons sp hstack
      generalize Search.turn sp st = st' at hturn ⊢
      cases hturn <;> simp

/-- The search of a finite forest ends. -/
theorem Forest.exists_finished {root : N} (hforest : Forest sp root)
    (hfinite : {node | Reached sp root node}.Finite) :
    ∃ n, (turns sp n (start [root])).stack = [] := by
  by_contra hnever
  have hnever (n : Nat) : (turns sp n (start [root])).stack ≠ [] := fun h => hnever ⟨n, h⟩
  have hlength (n : Nat) : (turns sp n (start [root])).taken.length = n := by
    induction n with
    | zero => rfl
    | succ n ih =>
        have hsucc : turns sp (n + 1) (start [root]) = turn sp (turns sp n (start [root])) :=
          Function.iterate_succ_apply' _ _ _
        rw [hsucc, length_taken_turn (hnever n), ih]
  have hgrowing := turns_invariant (P := Growing sp root) (fun _ h => h.turn hforest)
    (growing_start root) (hfinite.toFinset.card + 1)
  have hsubset : (turns sp (hfinite.toFinset.card + 1) (start [root])).taken ⊆
      hfinite.toFinset.toList := by
    intro node hnode
    rw [Finset.mem_toList, Set.Finite.mem_toFinset]
    exact hgrowing.reached node (List.mem_append_left _ hnode)
  have hle := ((List.nodup_append.1 hgrowing.distinct).1.subperm hsubset).length_le
  rw [hlength, Finset.length_toList] at hle
  omega

end Search
