import Mathlib.Data.List.Basic
import Mathlib.Tactic.Common

/-!
# A chain of promises

Operations that are chained behind one another: an operation starts once the one it was chained
behind has settled, with a result or with an error, and the next one that arrives is chained
behind the last.  Events arrive at any time, also while an operation is under way.

From the rule for starting follows that the chain is `Serial`: whatever comes before an operation
that has started is settled, and so at most one operation is under way.
-/

namespace Promise

/-- How far an operation is. -/
inductive Phase (σ ρ : Type) where
  | waiting
  | running (progress : σ)
  | settled (result : ρ)

structure Operation (ε σ ρ : Type) where
  event : ε
  /-- The operation that this one was chained behind. -/
  after : Option Nat
  phase : Phase σ ρ

structure Chain (ε σ ρ : Type) where
  operations : List (Operation ε σ ρ)
  /-- The operation that the next one is chained behind. -/
  tail : Option Nat

variable {ε σ ρ β : Type}

namespace Chain

def empty : Chain ε σ ρ := ⟨[], none⟩

/-- An operation arrives. -/
def enqueue (c : Chain ε σ ρ) (event : ε) : Chain ε σ ρ where
  operations := c.operations ++ [⟨event, c.tail, .waiting⟩]
  tail := some c.operations.length

/-- The operation that has settled, where there is one to wait for. -/
def Settled (c : Chain ε σ ρ) : Option Nat → Prop
  | none => True
  | some i => ∃ op r, c.operations[i]? = some op ∧ op.phase = .settled r

def setPhase (c : Chain ε σ ρ) (i : Nat) (phase : Phase σ ρ) : Chain ε σ ρ :=
  { c with operations := c.operations.modify i fun op => { op with phase } }

/-- What can happen to a chain. -/
inductive Step : Chain ε σ ρ → Chain ε σ ρ → Prop where
  | enqueue {c : Chain ε σ ρ} (event : ε) : Step c (c.enqueue event)
  | start {c : Chain ε σ ρ} {i : Nat} {op : Operation ε σ ρ} (progress : σ) :
      c.operations[i]? = some op → op.phase = .waiting → c.Settled op.after →
      Step c (c.setPhase i (.running progress))
  | advance {c : Chain ε σ ρ} {i : Nat} {op : Operation ε σ ρ} {progress : σ} (next : σ) :
      c.operations[i]? = some op → op.phase = .running progress →
      Step c (c.setPhase i (.running next))
  | settle {c : Chain ε σ ρ} {i : Nat} {op : Operation ε σ ρ} {progress : σ} (result : ρ) :
      c.operations[i]? = some op → op.phase = .running progress →
      Step c (c.setPhase i (.settled result))

/-- The operation before the one at a position. -/
def previous : Nat → Option Nat
  | 0 => none
  | i + 1 => some i

/-- Operations are chained in the order of their arrival, and whatever comes before one that has
started is settled. -/
structure Serial (c : Chain ε σ ρ) : Prop where
  tail : c.tail = previous c.operations.length
  after : ∀ i op, c.operations[i]? = some op → op.after = previous i
  order : ∀ (i j : Nat) (op later : Operation ε σ ρ), i < j → c.operations[i]? = some op → c.operations[j]? = some later →
    later.phase ≠ .waiting → ∃ r, op.phase = .settled r

theorem serial_empty : (empty : Chain ε σ ρ).Serial where
  tail := rfl
  after := nofun
  order := nofun

theorem getElem?_setPhase {c : Chain ε σ ρ} {i j : Nat} {phase : Phase σ ρ}
    {op' : Operation ε σ ρ} (h : (c.setPhase i phase).operations[j]? = some op') :
    ∃ op, c.operations[j]? = some op ∧
      op' = if i = j then { op with phase } else op := by
  rw [setPhase, List.getElem?_modify] at h
  obtain ⟨op, hop, rfl⟩ := Option.map_eq_some_iff.1 h
  refine ⟨op, hop, ?_⟩
  split <;> rfl

theorem Serial.enqueue {c : Chain ε σ ρ} (h : c.Serial) (event : ε) :
    (c.enqueue event).Serial where
  tail := by
    rw [Chain.enqueue, List.length_append]
    rfl
  after := by
    intro i op hop
    rw [Chain.enqueue, List.getElem?_append] at hop
    split at hop
    · exact h.after i op hop
    · rename_i hi
      obtain ⟨hlt, rfl⟩ := List.getElem?_eq_some_iff.1 hop
      have hi : i = c.operations.length := by
        rw [List.length_singleton] at hlt
        omega
      simp [h.tail, hi]
  order := by
    intro i j op later hij hop hlater hstarted
    rw [Chain.enqueue, List.getElem?_append] at hop hlater
    split at hlater
    · rename_i hj
      rw [if_pos (Nat.lt_trans hij hj)] at hop
      exact h.order i j op later hij hop hlater hstarted
    · -- The operation that arrives is waiting.
      obtain ⟨hlt, rfl⟩ := List.getElem?_eq_some_iff.1 hlater
      refine absurd ?_ hstarted
      simp

/-- A phase may change to one that is not waiting where everything before is settled. -/
theorem Serial.setPhase {c : Chain ε σ ρ} (h : c.Serial) {i : Nat} {op : Operation ε σ ρ}
    (hop : c.operations[i]? = some op) (phase : Phase σ ρ)
    (hfirst : ∀ j op', j < i → c.operations[j]? = some op' → ∃ r, op'.phase = .settled r)
    (hopen : ∀ r, op.phase = .settled r → ∃ r', phase = .settled r') :
    (c.setPhase i phase).Serial where
  tail := by
    have hlength : (c.setPhase i phase).operations.length = c.operations.length :=
      List.length_modify ..
    rw [hlength]
    exact h.tail
  after := by
    intro j op' hj
    obtain ⟨old, hold, rfl⟩ := getElem?_setPhase hj
    have hafter := h.after j old hold
    split <;> exact hafter
  order := by
    intro j k op₁ op₂ hjk h₁ h₂ hstarted
    obtain ⟨old₁, hold₁, rfl⟩ := getElem?_setPhase h₁
    obtain ⟨old₂, hold₂, rfl⟩ := getElem?_setPhase h₂
    have hsettled : ∃ r, old₁.phase = .settled r := by
      by_cases hk : i = k
      · exact hfirst j old₁ (hk ▸ hjk) hold₁
      · rw [if_neg hk] at hstarted
        exact h.order j k old₁ old₂ hjk hold₁ hold₂ hstarted
    by_cases hj : i = j
    · subst hj
      rw [if_pos rfl]
      obtain rfl : op = old₁ := Option.some.inj (hop.symm.trans hold₁)
      obtain ⟨r, hr⟩ := hsettled
      exact hopen r hr
    · rw [if_neg hj]
      exact hsettled

/-- The chain stays serial, whatever happens. -/
theorem Serial.step {c c' : Chain ε σ ρ} (h : c.Serial) (hstep : Step c c') : c'.Serial := by
  cases hstep with
  | enqueue event => exact h.enqueue event
  | @start i op progress hop hwaiting hsettled =>
      refine h.setPhase hop _ (fun j op' hj hop' => ?_) fun r hr => ?_
      · rw [h.after i op hop] at hsettled
        obtain ⟨k, rfl⟩ : ∃ k, i = k + 1 := ⟨i - 1, by omega⟩
        obtain ⟨before, r, hbefore, hr⟩ := hsettled
        rcases Nat.lt_succ_iff_lt_or_eq.1 hj with hlt | rfl
        · refine h.order j k op' before hlt hop' hbefore ?_
          rw [hr]
          nofun
        · obtain rfl : op' = before := Option.some.inj (hop'.symm.trans hbefore)
          exact ⟨r, hr⟩
      · rw [hwaiting] at hr
        cases hr
  | @advance i op progress next hop hrunning =>
      refine h.setPhase hop _ (fun j op' hj hop' => ?_) fun r hr => ?_
      · refine h.order j i op' op hj hop' hop ?_
        rw [hrunning]
        nofun
      · rw [hrunning] at hr
        cases hr
  | @settle i op progress result hop hrunning =>
      refine h.setPhase hop _ (fun j op' hj hop' => ?_) fun r hr => ⟨result, rfl⟩
      refine h.order j i op' op hj hop' hop ?_
      rw [hrunning]
      nofun

/-- At most one operation is under way. -/
theorem Serial.running_unique {c : Chain ε σ ρ} (h : c.Serial) {i j : Nat}
    {op op' : Operation ε σ ρ} {a b : σ} (hop : c.operations[i]? = some op)
    (ha : op.phase = .running a) (hop' : c.operations[j]? = some op')
    (hb : op'.phase = .running b) : i = j := by
  have hnot : ∀ {i j : Nat} {op op' : Operation ε σ ρ} {a b : σ}, c.operations[i]? = some op →
      op.phase = .running a → c.operations[j]? = some op' → op'.phase = .running b → ¬ i < j := by
    intro i j op op' a b hop ha hop' hb hlt
    obtain ⟨r, hr⟩ := h.order i j op op' hlt hop hop' (by rw [hb]; nofun)
    rw [ha] at hr
    cases hr
  rcases Nat.lt_trichotomy i j with hlt | heq | hgt
  · exact absurd hlt (hnot hop ha hop' hb)
  · exact heq
  · exact absurd hgt (hnot hop' hb hop ha)

/-! ## Results in the order of arrival -/

/-- The chain around the operation that is under way. -/
theorem Serial.split {c : Chain ε σ ρ} (h : c.Serial) {i : Nat} {op : Operation ε σ ρ} {a : σ}
    (hop : c.operations[i]? = some op) (ha : op.phase = .running a) :
    ∃ before behind, c.operations = before ++ op :: behind ∧ before.length = i ∧
      ∀ op' ∈ behind, op'.phase = .waiting := by
  obtain ⟨hlt, hget⟩ := List.getElem?_eq_some_iff.1 hop
  have hsplit : c.operations = c.operations.take i ++ op :: c.operations.drop (i + 1) := by
    rw [← hget, List.getElem_cons_drop, List.take_append_drop]
  refine ⟨_, _, hsplit, List.length_take_of_le (Nat.le_of_lt hlt), fun op' hop' => ?_⟩
  obtain ⟨j, hj⟩ := List.mem_iff_getElem?.1 hop'
  rw [List.getElem?_drop] at hj
  by_contra hstarted
  obtain ⟨r, hr⟩ := h.order i (i + 1 + j) op op' (by omega) hop hj hstarted
  rw [ha] at hr
  cases hr

variable {f : Operation ε σ ρ → Option β}

theorem operations_setPhase {c : Chain ε σ ρ} {before behind : List (Operation ε σ ρ)}
    {op : Operation ε σ ρ} (hsplit : c.operations = before ++ op :: behind) (phase : Phase σ ρ) :
    (c.setPhase before.length phase).operations = before ++ { op with phase } :: behind := by
  rw [setPhase, hsplit, List.modify_eq_take_cons_drop (by simp)]
  simp

/-- What is read off settled operations is read off them in the order of their arrival. -/
theorem Serial.filterMap_settle {c : Chain ε σ ρ} (h : c.Serial) {i : Nat}
    {op : Operation ε σ ρ} {a : σ} (hop : c.operations[i]? = some op)
    (ha : op.phase = .running a) (hf : ∀ op : Operation ε σ ρ, f op ≠ none →
      ∃ r, op.phase = .settled r) (result : ρ) :
    (c.setPhase i (.settled result)).operations.filterMap f =
      c.operations.filterMap f ++ (f { op with phase := .settled result }).toList := by
  obtain ⟨before, behind, hsplit, rfl, hbehind⟩ := h.split hop ha
  have hwaiting : behind.filterMap f = [] := by
    rw [List.filterMap_eq_nil_iff]
    intro op' hop'
    by_contra hne
    obtain ⟨r, hr⟩ := hf op' hne
    rw [hbehind op' hop'] at hr
    cases hr
  have hrunning : f op = none := by
    by_contra hne
    obtain ⟨r, hr⟩ := hf op hne
    rw [ha] at hr
    cases hr
  rw [operations_setPhase hsplit, hsplit, List.filterMap_append, List.filterMap_append,
    List.filterMap_cons_none hrunning, hwaiting, List.append_nil]
  cases hresult : f { op with phase := .settled result } with
  | none => rw [List.filterMap_cons_none hresult, hwaiting]; rfl
  | some b => rw [List.filterMap_cons_some hresult, hwaiting]; rfl

theorem filterMap_enqueue (c : Chain ε σ ρ) (event : ε)
    (hf : ∀ op : Operation ε σ ρ, f op ≠ none → ∃ r, op.phase = .settled r) :
    (c.enqueue event).operations.filterMap f = c.operations.filterMap f := by
  have hnone : f ⟨event, c.tail, .waiting⟩ = none := by
    by_contra hne
    obtain ⟨r, hr⟩ := hf _ hne
    cases hr
  rw [enqueue, List.filterMap_append, List.filterMap_cons_none hnone, List.filterMap_nil,
    List.append_nil]

theorem unsettled_of_waiting {op : Operation ε σ ρ} (h : op.phase = .waiting) (r : ρ) :
    op.phase ≠ .settled r := by
  rw [h]
  nofun

theorem unsettled_of_running {op : Operation ε σ ρ} {progress : σ}
    (h : op.phase = .running progress) (r : ρ) : op.phase ≠ .settled r := by
  rw [h]
  nofun

/-- A step that settles nothing changes nothing that is read off settled operations. -/
theorem filterMap_running {c : Chain ε σ ρ} {i : Nat} {op : Operation ε σ ρ}
    (hop : c.operations[i]? = some op) (hopen : ∀ r, op.phase ≠ .settled r) (progress : σ)
    (hf : ∀ op : Operation ε σ ρ, f op ≠ none → ∃ r, op.phase = .settled r) :
    (c.setPhase i (.running progress)).operations.filterMap f = c.operations.filterMap f := by
  have hnone : ∀ op : Operation ε σ ρ, (∀ r, op.phase ≠ .settled r) → f op = none := by
    intro op hopen
    by_contra hne
    obtain ⟨r, hr⟩ := hf op hne
    exact hopen r hr
  obtain ⟨hlt, hget⟩ := List.getElem?_eq_some_iff.1 hop
  have hsplit : c.operations = c.operations.take i ++ op :: c.operations.drop (i + 1) := by
    rw [← hget, List.getElem_cons_drop, List.take_append_drop]
  have hlength : (c.operations.take i).length = i := List.length_take_of_le (Nat.le_of_lt hlt)
  have hset := operations_setPhase hsplit (.running progress)
  rw [hlength] at hset
  rw [hset]
  conv_rhs => rw [hsplit]
  rw [List.filterMap_append, List.filterMap_append, List.filterMap_cons_none (hnone op hopen),
    List.filterMap_cons_none (hnone _ fun _ hr => by cases hr)]

end Chain

end Promise
