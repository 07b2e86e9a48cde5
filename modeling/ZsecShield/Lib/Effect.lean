import Mathlib.Logic.Basic
import Mathlib.Tactic.Common

/-!
# Programs against an environment

A `Prog Ω σ ε α` runs on a state `σ` against an environment `Ω` that decides
everything the program does not: what a system call answers, which call fails,
what other parties do between two calls.  It ends in one of three ways.  It
returns, it leaves by an exception, or the process stops inside it.  A stopped
process runs no handler, so `halted` stands both for a crash and for a state
seen in the middle of a run.

`wp` is the weakest precondition of a program.  A postcondition has one part
for each way of ending.  The rules of this file push `wp` through the program
constructs, so a proof about a program is a proof about its primitive steps.
`Keeps` is the special case of an assertion that a program starts from and keeps.
-/

namespace Effect

/-- How a program ends. -/
inductive Exit (ε α : Type) where
  | ok (value : α)
  | raised (error : ε)
  | halted
deriving DecidableEq, Repr

/-- A program: what it does is a function of the environment and the state. -/
def Prog (Ω σ ε α : Type) : Type := Ω → σ → Exit ε α × σ

variable {Ω σ ε α β γ : Type}

namespace Prog

protected def pure (a : α) : Prog Ω σ ε α := fun _ s => (.ok a, s)

protected def bind (p : Prog Ω σ ε α) (f : α → Prog Ω σ ε β) : Prog Ω σ ε β := fun env s =>
  match p env s with
  | (.ok a, s') => f a env s'
  | (.raised e, s') => (.raised e, s')
  | (.halted, s') => (.halted, s')

instance : Monad (Prog Ω σ ε) where
  pure := Prog.pure
  bind := Prog.bind

/-- The current state. -/
def state : Prog Ω σ ε σ := fun _ s => (.ok s, s)

/-- Read something off the current state. -/
def gets (f : σ → α) : Prog Ω σ ε α := fun _ s => (.ok (f s), s)

/-- Replace the state by a function of itself. -/
def update (f : σ → σ) : Prog Ω σ ε Unit := fun _ s => (.ok (), f s)

/-- Ask the environment. -/
def ask (f : Ω → α) : Prog Ω σ ε α := fun env s => (.ok (f env), s)

/-- Leave by an exception. -/
def raise (e : ε) : Prog Ω σ ε α := fun _ s => (.raised e, s)

/-- Stop the process. -/
def halt : Prog Ω σ ε α := fun _ s => (.halted, s)

/-- Return a value or leave by its exception. -/
def liftExcept : Except ε α → Prog Ω σ ε α
  | .ok a => Prog.pure a
  | .error e => raise e

/-- `try body except …`: an exception in `caught` runs the handler.  Other
exceptions and a stopped process pass through. -/
def tryExcept (body : Prog Ω σ ε α) (caught : ε → Bool) (handler : ε → Prog Ω σ ε α) :
    Prog Ω σ ε α := fun env s =>
  match body env s with
  | (.raised e, s') => if caught e then handler e env s' else (.raised e, s')
  | (.ok a, s') => (.ok a, s')
  | (.halted, s') => (.halted, s')

/-- `try body finally cleanup`: the clean-up runs after a return and after an
exception, and its own exception replaces the one under way. -/
def tryFinally (body : Prog Ω σ ε α) (cleanup : Prog Ω σ ε Unit) : Prog Ω σ ε α := fun env s =>
  match body env s with
  | (.halted, s') => (.halted, s')
  | (r, s') =>
    match cleanup env s' with
    | (.ok _, s'') => (r, s'')
    | (.raised e, s'') => (.raised e, s'')
    | (.halted, s'') => (.halted, s'')

/-- `with contextlib.suppress(…): body`. -/
def suppress (caught : ε → Bool) (body : Prog Ω σ ε Unit) : Prog Ω σ ε Unit :=
  tryExcept body caught fun _ => Prog.pure ()

/-- `for x in xs: body x`. -/
def forEach (body : α → Prog Ω σ ε Unit) : List α → Prog Ω σ ε Unit
  | [] => Prog.pure ()
  | x :: xs => Prog.bind (body x) fun _ => forEach body xs

/-- A loop over a list that carries an accumulator. -/
def foldEach (body : β → α → Prog Ω σ ε β) : β → List α → Prog Ω σ ε β
  | acc, [] => Prog.pure acc
  | acc, x :: xs => Prog.bind (body acc x) fun acc' => foldEach body acc' xs

end Prog

/-! ## Weakest preconditions -/

/-- A postcondition: what holds after a return, after an exception and when the
process stopped. -/
structure Post (σ ε α : Type) where
  ok : α → σ → Prop
  raised : ε → σ → Prop
  halted : σ → Prop

/-- The postcondition holds of one outcome. -/
def Post.Holds (Q : Post σ ε α) : Exit ε α × σ → Prop
  | (.ok a, s) => Q.ok a s
  | (.raised e, s) => Q.raised e s
  | (.halted, s) => Q.halted s

@[simp] theorem Post.holds_ok (Q : Post σ ε α) (a : α) (s : σ) :
    Q.Holds (.ok a, s) = Q.ok a s := rfl

@[simp] theorem Post.holds_raised (Q : Post σ ε α) (e : ε) (s : σ) :
    Q.Holds (.raised e, s) = Q.raised e s := rfl

@[simp] theorem Post.holds_halted (Q : Post σ ε α) (s : σ) :
    Q.Holds (.halted, s) = Q.halted s := rfl

/-- `Q` implies `R` at every exit. -/
structure Post.Imp (Q R : Post σ ε α) : Prop where
  ok : ∀ a s, Q.ok a s → R.ok a s
  raised : ∀ e s, Q.raised e s → R.raised e s
  halted : ∀ s, Q.halted s → R.halted s

/-- The weakest precondition of a program for a postcondition. -/
def wp (env : Ω) (p : Prog Ω σ ε α) (Q : Post σ ε α) (s : σ) : Prop := Q.Holds (p env s)

/-- A postcondition with only the part for a return replaced. -/
def Post.withOk (Q : Post σ ε β) (ok : α → σ → Prop) : Post σ ε α :=
  ⟨ok, Q.raised, Q.halted⟩

@[simp] theorem Post.withOk_ok (Q : Post σ ε β) (ok : α → σ → Prop) :
    (Q.withOk ok).ok = ok := rfl

@[simp] theorem Post.withOk_raised (Q : Post σ ε β) (ok : α → σ → Prop) :
    (Q.withOk ok).raised = Q.raised := rfl

@[simp] theorem Post.withOk_halted (Q : Post σ ε β) (ok : α → σ → Prop) :
    (Q.withOk ok).halted = Q.halted := rfl

@[simp] theorem Post.withOk_withOk (Q : Post σ ε γ) (f : β → σ → Prop) (g : α → σ → Prop) :
    (Q.withOk f).withOk g = Q.withOk g := rfl

section Rules

variable {env : Ω} {s : σ}

theorem wp.mono {p : Prog Ω σ ε α} {Q R : Post σ ε α} (h : wp env p Q s)
    (himp : Q.Imp R) : wp env p R s := by
  unfold wp at h ⊢
  rcases hp : p env s with ⟨r, s'⟩
  rw [hp] at h
  cases r with
  | ok a => exact himp.ok a s' h
  | raised e => exact himp.raised e s' h
  | halted => exact himp.halted s' h

/-- What a program that returned has established. -/
theorem wp.of_ok {p : Prog Ω σ ε α} {Q : Post σ ε α} (h : wp env p Q s) {a : α} {s' : σ}
    (hp : p env s = (.ok a, s')) : Q.ok a s' := by
  unfold wp at h
  rw [hp] at h
  exact h

/-- A program that can neither fail nor stop returns. -/
theorem wp.returns {p : Prog Ω σ ε α} {ok : α → σ → Prop}
    (h : wp env p ⟨ok, fun _ _ => False, fun _ => False⟩ s) :
    ∃ a s', p env s = (.ok a, s') ∧ ok a s' := by
  unfold wp at h
  rcases hp : p env s with ⟨r, s'⟩
  rw [hp] at h
  cases r with
  | ok a => exact ⟨a, s', rfl, h⟩
  | raised e => exact h.elim
  | halted => exact h.elim

/-- A postcondition that holds of everything. -/
theorem wp.trivial {p : Prog Ω σ ε α} {Q : Post σ ε α} (hok : ∀ a s, Q.ok a s)
    (hraised : ∀ e s, Q.raised e s) (hhalted : ∀ s, Q.halted s) : wp env p Q s := by
  unfold wp
  rcases p env s with ⟨r, s'⟩
  cases r with
  | ok a => exact hok a s'
  | raised e => exact hraised e s'
  | halted => exact hhalted s'

/-- Consequence on the returning exit alone. -/
theorem wp.monoOk {p : Prog Ω σ ε α} {Q : Post σ ε β} {f g : α → σ → Prop}
    (h : wp env p (Q.withOk f) s) (hok : ∀ a s', f a s' → g a s') :
    wp env p (Q.withOk g) s :=
  h.mono ⟨hok, fun _ _ h => h, fun _ h => h⟩

/-- Two postconditions hold together. -/
theorem wp.and {p : Prog Ω σ ε α} {Q R : Post σ ε α} (hQ : wp env p Q s)
    (hR : wp env p R s) :
    wp env p ⟨fun a s => Q.ok a s ∧ R.ok a s, fun e s => Q.raised e s ∧ R.raised e s,
      fun s => Q.halted s ∧ R.halted s⟩ s := by
  unfold wp at *
  rcases hp : p env s with ⟨r, s'⟩
  rw [hp] at hQ hR
  cases r <;> exact ⟨hQ, hR⟩

@[simp] theorem wp_pure (a : α) (Q : Post σ ε α) :
    wp env (pure a : Prog Ω σ ε α) Q s ↔ Q.ok a s := Iff.rfl

@[simp] theorem wp_bind (p : Prog Ω σ ε α) (f : α → Prog Ω σ ε β) (Q : Post σ ε β) :
    wp env (p >>= f) Q s ↔ wp env p (Q.withOk fun a s' => wp env (f a) Q s') s := by
  change Q.Holds (Prog.bind p f env s) ↔ Post.Holds _ (p env s)
  unfold Prog.bind
  rcases p env s with ⟨r, s'⟩
  cases r <;> exact Iff.rfl

/-- The rule for a sequence. -/
theorem wp.bind {p : Prog Ω σ ε α} {f : α → Prog Ω σ ε β} {R : Post σ ε α} {Q : Post σ ε β}
    (h : wp env p R s) (hok : ∀ a s', R.ok a s' → wp env (f a) Q s')
    (hraised : ∀ e s', R.raised e s' → Q.raised e s') (hhalted : ∀ s', R.halted s' → Q.halted s') :
    wp env (p >>= f) Q s := by
  rw [wp_bind]
  exact h.mono ⟨hok, hraised, hhalted⟩

@[simp] theorem wp_state (Q : Post σ ε σ) :
    wp env (Prog.state : Prog Ω σ ε σ) Q s ↔ Q.ok s s := Iff.rfl

@[simp] theorem wp_gets (f : σ → α) (Q : Post σ ε α) :
    wp env (Prog.gets f : Prog Ω σ ε α) Q s ↔ Q.ok (f s) s := Iff.rfl

@[simp] theorem wp_update (f : σ → σ) (Q : Post σ ε Unit) :
    wp env (Prog.update f : Prog Ω σ ε Unit) Q s ↔ Q.ok () (f s) := Iff.rfl

@[simp] theorem wp_ask (f : Ω → α) (Q : Post σ ε α) :
    wp env (Prog.ask f : Prog Ω σ ε α) Q s ↔ Q.ok (f env) s := Iff.rfl

@[simp] theorem wp_raise (e : ε) (Q : Post σ ε α) :
    wp env (Prog.raise e : Prog Ω σ ε α) Q s ↔ Q.raised e s := Iff.rfl

@[simp] theorem wp_halt (Q : Post σ ε α) :
    wp env (Prog.halt : Prog Ω σ ε α) Q s ↔ Q.halted s := Iff.rfl

theorem wp_liftExcept (r : Except ε α) (Q : Post σ ε α) :
    wp env (Prog.liftExcept r : Prog Ω σ ε α) Q s ↔
      (∀ a, r = .ok a → Q.ok a s) ∧ (∀ e, r = .error e → Q.raised e s) := by
  cases r with
  | ok a => simp [wp, Prog.liftExcept, Prog.pure]
  | error e => simp [wp, Prog.liftExcept, Prog.raise]

@[simp] theorem wp_liftExcept_ok (a : α) (Q : Post σ ε α) :
    wp env (Prog.liftExcept (.ok a) : Prog Ω σ ε α) Q s ↔ Q.ok a s := Iff.rfl

@[simp] theorem wp_liftExcept_error (e : ε) (Q : Post σ ε α) :
    wp env (Prog.liftExcept (.error e) : Prog Ω σ ε α) Q s ↔ Q.raised e s := Iff.rfl

theorem wp_ite (c : Prop) [Decidable c] (p q : Prog Ω σ ε α) (Q : Post σ ε α) :
    wp env (if c then p else q) Q s ↔ (c → wp env p Q s) ∧ (¬ c → wp env q Q s) := by
  by_cases h : c <;> simp [h]

theorem wp_tryExcept (body : Prog Ω σ ε α) (caught : ε → Bool)
    (handler : ε → Prog Ω σ ε α) (Q : Post σ ε α) :
    wp env (Prog.tryExcept body caught handler) Q s ↔
      wp env body ⟨Q.ok, fun e s' =>
        (caught e = true → wp env (handler e) Q s') ∧ (caught e = false → Q.raised e s'),
        Q.halted⟩ s := by
  unfold wp Prog.tryExcept
  rcases body env s with ⟨r, s'⟩
  cases r with
  | ok a => exact Iff.rfl
  | halted => exact Iff.rfl
  | raised e => cases hc : caught e <;> simp [hc]

theorem wp_tryFinally (body : Prog Ω σ ε α) (cleanup : Prog Ω σ ε Unit) (Q : Post σ ε α) :
    wp env (Prog.tryFinally body cleanup) Q s ↔
      wp env body ⟨fun a s' => wp env cleanup (Q.withOk fun _ s'' => Q.ok a s'') s',
        fun e s' => wp env cleanup (Q.withOk fun _ s'' => Q.raised e s'') s', Q.halted⟩ s := by
  unfold wp Prog.tryFinally
  rcases body env s with ⟨r, s'⟩
  cases r with
  | ok a =>
      simp only [Post.holds_ok]
      rcases cleanup env s' with ⟨r', s''⟩
      cases r' <;> exact Iff.rfl
  | raised e =>
      simp only [Post.holds_raised]
      rcases cleanup env s' with ⟨r', s''⟩
      cases r' <;> exact Iff.rfl
  | halted => exact Iff.rfl

theorem wp_suppress (caught : ε → Bool) (body : Prog Ω σ ε Unit) (Q : Post σ ε Unit) :
    wp env (Prog.suppress caught body) Q s ↔
      wp env body ⟨Q.ok, fun e s' =>
        (caught e = true → Q.ok () s') ∧ (caught e = false → Q.raised e s'), Q.halted⟩ s := by
  unfold Prog.suppress
  rw [wp_tryExcept]
  exact Iff.rfl

@[simp] theorem wp_forEach_nil (body : α → Prog Ω σ ε Unit) (Q : Post σ ε Unit) :
    wp env (Prog.forEach body []) Q s ↔ Q.ok () s := Iff.rfl

@[simp] theorem wp_forEach_cons (body : α → Prog Ω σ ε Unit) (x : α) (xs : List α)
    (Q : Post σ ε Unit) :
    wp env (Prog.forEach body (x :: xs)) Q s ↔
      wp env (body x) (Q.withOk fun _ s' => wp env (Prog.forEach body xs) Q s') s :=
  wp_bind _ _ _

@[simp] theorem wp_foldEach_nil (body : β → α → Prog Ω σ ε β) (acc : β) (Q : Post σ ε β) :
    wp env (Prog.foldEach body acc []) Q s ↔ Q.ok acc s := Iff.rfl

@[simp] theorem wp_foldEach_cons (body : β → α → Prog Ω σ ε β) (acc : β) (x : α)
    (xs : List α) (Q : Post σ ε β) :
    wp env (Prog.foldEach body acc (x :: xs)) Q s ↔
      wp env (body acc x) (Q.withOk fun acc' s' =>
        wp env (Prog.foldEach body acc' xs) Q s') s :=
  wp_bind _ _ _

/-- The loop rule: an assertion on the elements still to come, kept by the body,
holds with no element left when the loop returns. -/
theorem wp_forEach {body : α → Prog Ω σ ε Unit} {Q : Post σ ε Unit}
    (I : List α → σ → Prop)
    (hstep : ∀ x xs s, I (x :: xs) s → wp env (body x) (Q.withOk fun _ s' => I xs s') s)
    (hdone : ∀ s, I [] s → Q.ok () s) :
    ∀ (xs : List α) (s : σ), I xs s → wp env (Prog.forEach body xs) Q s
  | [], s, h => hdone s h
  | x :: xs, s, h => by
      rw [wp_forEach_cons]
      exact (hstep x xs s h).monoOk fun _ s' h' => wp_forEach I hstep hdone xs s' h'

/-- The loop rule with an accumulator. -/
theorem wp_foldEach {body : β → α → Prog Ω σ ε β} {Q : Post σ ε β}
    (I : β → List α → σ → Prop)
    (hstep : ∀ acc x xs s, I acc (x :: xs) s →
      wp env (body acc x) (Q.withOk fun acc' s' => I acc' xs s') s)
    (hdone : ∀ acc s, I acc [] s → Q.ok acc s) :
    ∀ (acc : β) (xs : List α) (s : σ), I acc xs s → wp env (Prog.foldEach body acc xs) Q s
  | acc, [], s, h => hdone acc s h
  | acc, x :: xs, s, h => by
      rw [wp_foldEach_cons]
      exact (hstep acc x xs s h).monoOk fun acc' s' h' =>
        wp_foldEach I hstep hdone acc' xs s' h'

end Rules

/-! ## Assertions kept by a program -/

/-- An assertion with one part for each way of ending: what holds between two
statements, after an exception, and when the process stopped. -/
structure Assertion (σ ε : Type) where
  inside : σ → Prop
  raised : ε → σ → Prop
  halted : σ → Prop

namespace Assertion

/-- The assertion as a postcondition. -/
def post (A : Assertion σ ε) : Post σ ε α := ⟨fun _ => A.inside, A.raised, A.halted⟩

/-- The assertion as a postcondition that also speaks about the result. -/
def postWith (A : Assertion σ ε) (ok : α → σ → Prop) : Post σ ε α := ⟨ok, A.raised, A.halted⟩

@[simp] theorem post_ok (A : Assertion σ ε) (a : α) : (A.post : Post σ ε α).ok a = A.inside := rfl

@[simp] theorem post_raised (A : Assertion σ ε) : (A.post : Post σ ε α).raised = A.raised := rfl

@[simp] theorem post_halted (A : Assertion σ ε) : (A.post : Post σ ε α).halted = A.halted := rfl

@[simp] theorem postWith_ok (A : Assertion σ ε) (ok : α → σ → Prop) :
    (A.postWith ok).ok = ok := rfl

@[simp] theorem postWith_raised (A : Assertion σ ε) (ok : α → σ → Prop) :
    (A.postWith ok).raised = A.raised := rfl

@[simp] theorem postWith_halted (A : Assertion σ ε) (ok : α → σ → Prop) :
    (A.postWith ok).halted = A.halted := rfl

@[simp] theorem postWith_withOk (A : Assertion σ ε) (f : α → σ → Prop) (g : β → σ → Prop) :
    (A.postWith f).withOk g = A.postWith g := rfl

@[simp] theorem post_withOk (A : Assertion σ ε) (g : β → σ → Prop) :
    (A.post : Post σ ε α).withOk g = A.postWith g := rfl

/-- One assertion at every exit. -/
def always (I : σ → Prop) : Assertion σ ε := ⟨I, fun _ => I, I⟩

/-- Some assertion of a family. -/
def some {ι : Type} (A : ι → Assertion σ ε) : Assertion σ ε :=
  ⟨fun s => ∃ i, (A i).inside s, fun e s => ∃ i, (A i).raised e s, fun s => ∃ i, (A i).halted s⟩

/-- Two assertions together. -/
def both (A B : Assertion σ ε) : Assertion σ ε :=
  ⟨fun s => A.inside s ∧ B.inside s, fun e s => A.raised e s ∧ B.raised e s,
    fun s => A.halted s ∧ B.halted s⟩

end Assertion

/-- An assertion for every exit holds of the state a run ends in. -/
theorem wp.always {env : Ω} {I : σ → Prop} {p : Prog Ω σ ε α} {s : σ}
    (h : wp env p (Assertion.always I).post s) : I (p env s).2 := by
  unfold wp at h
  rcases hp : p env s with ⟨r, s'⟩
  rw [hp] at h
  cases r <;> exact h

/-- The program keeps the assertion. -/
def Keeps (env : Ω) (A : Assertion σ ε) (p : Prog Ω σ ε α) : Prop :=
  ∀ s, A.inside s → wp env p A.post s

namespace Keeps

variable {env : Ω} {A B : Assertion σ ε}

theorem pure (a : α) : Keeps env A (Pure.pure a : Prog Ω σ ε α) := fun _ h => h

theorem bind {p : Prog Ω σ ε α} {f : α → Prog Ω σ ε β} (hp : Keeps env A p)
    (hf : ∀ a, Keeps env A (f a)) : Keeps env A (p >>= f) := by
  intro s hs
  rw [wp_bind]
  exact (hp s hs).mono ⟨fun a s' h => hf a s' h, fun _ _ h => h, fun _ h => h⟩

theorem state : Keeps env A (Prog.state : Prog Ω σ ε σ) := fun _ h => h

theorem gets (f : σ → α) : Keeps env A (Prog.gets f : Prog Ω σ ε α) := fun _ h => h

theorem ask (f : Ω → α) : Keeps env A (Prog.ask f : Prog Ω σ ε α) := fun _ h => h

theorem raise {e : ε} (h : ∀ s, A.inside s → A.raised e s) :
    Keeps env A (Prog.raise e : Prog Ω σ ε α) := h

theorem halt (h : ∀ s, A.inside s → A.halted s) : Keeps env A (Prog.halt : Prog Ω σ ε α) := h

theorem update {f : σ → σ} (hf : ∀ s, A.inside s → A.inside (f s)) :
    Keeps env A (Prog.update f : Prog Ω σ ε Unit) := hf

theorem liftExcept {r : Except ε α} (h : ∀ e, r = .error e → ∀ s, A.inside s → A.raised e s) :
    Keeps env A (Prog.liftExcept r : Prog Ω σ ε α) := by
  intro s hs
  cases r with
  | ok a => exact hs
  | error e => exact h e rfl s hs

theorem ite {c : Prop} [Decidable c] {p q : Prog Ω σ ε α} (hp : c → Keeps env A p)
    (hq : ¬ c → Keeps env A q) : Keeps env A (if c then p else q) := by
  intro s hs
  rw [wp_ite]
  exact ⟨fun h => hp h s hs, fun h => hq h s hs⟩

theorem tryExcept {body : Prog Ω σ ε α} {caught : ε → Bool} {handler : ε → Prog Ω σ ε α}
    (hb : Keeps env A body)
    (hh : ∀ e, caught e = true → ∀ s, A.raised e s → wp env (handler e) A.post s) :
    Keeps env A (Prog.tryExcept body caught handler) := by
  intro s hs
  rw [wp_tryExcept]
  exact (hb s hs).mono ⟨fun _ _ h => h, fun e s' h => ⟨fun hc => hh e hc s' h, fun _ => h⟩,
    fun _ h => h⟩

theorem forEach {body : α → Prog Ω σ ε Unit} (hb : ∀ x, Keeps env A (body x)) :
    ∀ xs : List α, Keeps env A (Prog.forEach body xs)
  | [] => pure ()
  | x :: xs => bind (hb x) fun _ => forEach hb xs

theorem foldEach {body : β → α → Prog Ω σ ε β} (hb : ∀ acc x, Keeps env A (body acc x)) :
    ∀ (acc : β) (xs : List α), Keeps env A (Prog.foldEach body acc xs)
  | acc, [] => pure acc
  | acc, x :: xs => bind (hb acc x) fun acc' => foldEach hb acc' xs

/-- A program that keeps each member of a family keeps the family. -/
theorem some {ι : Type} {A : ι → Assertion σ ε} {p : Prog Ω σ ε α}
    (h : ∀ i, Keeps env (A i) p) : Keeps env (Assertion.some A) p := by
  rintro s ⟨i, hs⟩
  exact (h i s hs).mono ⟨fun _ _ h => ⟨i, h⟩, fun _ _ h => ⟨i, h⟩, fun _ h => ⟨i, h⟩⟩

theorem both {p : Prog Ω σ ε α} (hA : Keeps env A p) (hB : Keeps env B p) :
    Keeps env (A.both B) p := fun s hs => wp.and (hA s hs.1) (hB s hs.2)

/-- Use a kept assertion inside a proof that also speaks about the result. -/
theorem wp_bind {p : Prog Ω σ ε α} {f : α → Prog Ω σ ε β} {s : σ} {ok : β → σ → Prop}
    (hp : Keeps env A p) (hs : A.inside s)
    (hf : ∀ a s', A.inside s' → wp env (f a) (A.postWith ok) s') :
    wp env (p >>= f) (A.postWith ok) s := by
  rw [Effect.wp_bind]
  exact (hp s hs).mono ⟨fun a s' h => hf a s' h, fun _ _ h => h, fun _ h => h⟩

end Keeps

end Effect
