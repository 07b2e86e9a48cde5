import Mathlib.Data.List.Basic

/-!
# Reads of a buffer

A computation over a buffer that keeps the ranges it asks for.  A field that the buffer does not hold
ends the computation, a slice is cut at the end of the buffer.
-/

namespace ZsecShield

structure Range where
  start : Nat
  stop : Nat
deriving DecidableEq

/-- The range lies in a buffer of `length` entries. -/
def Range.Within (r : Range) (length : Nat) : Prop := r.start ≤ r.stop ∧ r.stop ≤ length

/-- A result with the ranges that were read for it.  After an exception there is no result. -/
structure Reads (α : Type) where
  result : Option α
  ranges : List Range

namespace Reads

variable {α β γ σ τ : Type}

instance : Monad Reads where
  pure a := ⟨some a, []⟩
  bind m f :=
    match m.result with
    | none => ⟨none, m.ranges⟩
    | some a => ⟨(f a).result, m.ranges ++ (f a).ranges⟩

/-- An exception. -/
def raise : Reads α := ⟨none, []⟩

/-- The entries from `start` up to `stop`, as far as there are any. -/
def slice (buffer : List β) (start stop : Nat) : Reads (List β) :=
  ⟨some ((buffer.take stop).drop start), [⟨start, stop⟩]⟩

/-- Exactly `width` entries from `start` on. -/
def field (buffer : List β) (start width : Nat) : Reads (List β) :=
  ⟨if start + width ≤ buffer.length then some ((buffer.drop start).take width) else none,
    [⟨start, start + width⟩]⟩

/-- The computation reads within `length` entries only, raises nothing and returns a value with
`post`. -/
def Ensures (length : Nat) (m : Reads α) (post : α → Prop) : Prop :=
  (∀ r ∈ m.ranges, r.Within length) ∧ ∃ a, m.result = some a ∧ post a

variable {length : Nat}

theorem Ensures.pure {a : α} {post : α → Prop} (h : post a) :
    Ensures length (pure a : Reads α) post :=
  ⟨fun _ hr => absurd hr List.not_mem_nil, a, rfl, h⟩

theorem Ensures.mono {m : Reads α} {post post' : α → Prop} (h : Ensures length m post)
    (himp : ∀ a, post a → post' a) : Ensures length m post' := by
  obtain ⟨hranges, a, hresult, hpost⟩ := h
  exact ⟨hranges, a, hresult, himp a hpost⟩

theorem Ensures.bind {m : Reads α} {f : α → Reads β} {mid : α → Prop} {post : β → Prop}
    (hm : Ensures length m mid) (hf : ∀ a, mid a → Ensures length (f a) post) :
    Ensures length (m >>= f) post := by
  obtain ⟨hranges, a, hresult, hmid⟩ := hm
  obtain ⟨hranges', b, hresult', hpost⟩ := hf a hmid
  have heq : m >>= f = ⟨(f a).result, m.ranges ++ (f a).ranges⟩ := by
    simp only [Bind.bind, hresult]
  rw [heq]
  refine ⟨?_, b, hresult', hpost⟩
  intro r hr
  rcases List.mem_append.mp hr with hr | hr
  · exact hranges r hr
  · exact hranges' r hr

theorem Ensures.slice {buffer : List β} {start stop : Nat} (hle : start ≤ stop)
    (hstop : stop ≤ buffer.length) :
    Ensures buffer.length (slice buffer start stop) fun part =>
      part = (buffer.drop start).take (stop - start) := by
  refine ⟨?_, _, rfl, List.drop_take⟩
  intro r hr
  rw [List.mem_singleton.mp hr]
  exact ⟨hle, hstop⟩

theorem Ensures.field {buffer : List β} {start width : Nat}
    (h : start + width ≤ buffer.length) :
    Ensures buffer.length (field buffer start width) fun part =>
      part = (buffer.drop start).take width := by
  refine ⟨?_, (buffer.drop start).take width, ?_, rfl⟩
  · intro r hr
    rw [List.mem_singleton.mp hr]
    exact ⟨Nat.le_add_right _ _, h⟩
  · simp only [Reads.field, if_pos h]

/-- A loop that reads computes what a loop without reads computes, if every turn does. -/
theorem Ensures.foldlM {f : σ → τ → Reads σ} {g : σ → τ → Option σ} {items : List τ}
    (hturn : ∀ item ∈ items, ∀ s, Ensures length (f s item) fun s' => g s item = some s') :
    ∀ s, Ensures length (items.foldlM f s) fun s' => items.foldlM g s = some s' := by
  induction items with
  | nil => exact fun s => Ensures.pure rfl
  | cons item rest ih =>
      intro s
      refine Ensures.bind (hturn item List.mem_cons_self s) fun s' hs' => ?_
      have hrest := ih (fun item' hitem => hturn item' (List.mem_cons_of_mem _ hitem)) s'
      refine hrest.mono fun s'' hs'' => ?_
      simp only [List.foldlM_cons, hs', Option.bind_eq_bind, Option.bind_some, hs'']

end Reads

end ZsecShield
