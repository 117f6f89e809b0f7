import Mathlib.Logic.Function.Basic
import Mathlib.Logic.Relation
import GameNetwork.Lib.Run

/-!
# Atomic objects

An object whose operations take effect at one point between their call and
their return. `Object` says what each operation may answer and leave;
`Atomic` is such an object used by any number of threads, with the history of
the calls and returns and the order in which the operations took effect.

`linearizable_of_step`: an implementation is linearizable, its histories being
histories of the atomic object, when each of its steps is matched by steps of
that object.
-/

namespace Lib

/-- A sequential object with operations `ο` and answers `ρ`. -/
structure Object (σ ο ρ : Type) where
  initial : σ
  /-- In the first state the operation may give the answer and leave the second. -/
  Does : σ → ο → ρ → σ → Prop

/-- What a thread is doing. -/
inductive Status (ο ρ : Type) where
  | idle
  | called (o : ο)
  /-- The operation has taken effect. -/
  | done (r : ρ)
  deriving DecidableEq, Repr

/-- What can be seen of an operation. -/
inductive Mark (ο ρ : Type) where
  | call (thread : Nat) (o : ο)
  | ret (thread : Nat) (r : ρ)
  deriving DecidableEq, Repr

structure Atomic (σ ο ρ : Type) where
  state : σ
  status : Nat → Status ο ρ
  history : List (Mark ο ρ)
  /-- The operations and their answers, in the order in which they took effect. -/
  effects : List (ο × ρ)

section Atomic

variable {σ ο ρ : Type}

namespace Atomic

def start (D : Object σ ο ρ) : Atomic σ ο ρ := ⟨D.initial, fun _ => .idle, [], []⟩

inductive Step (D : Object σ ο ρ) (a : Atomic σ ο ρ) : Atomic σ ο ρ → Prop where
  | call {t : Nat} (o : ο) : a.status t = .idle → Step D a
      { a with status := Function.update a.status t (.called o), history := a.history ++ [.call t o] }
  | act {t : Nat} {o : ο} {r : ρ} {s : σ} : a.status t = .called o → D.Does a.state o r s → Step D a
      { a with state := s, status := Function.update a.status t (.done r),
               effects := a.effects ++ [(o, r)] }
  | ret {t : Nat} {r : ρ} : a.status t = .done r → Step D a
      { a with status := Function.update a.status t .idle, history := a.history ++ [.ret t r] }

/-- A run of the object comes to the state. -/
def Reached (D : Object σ ο ρ) (a : Atomic σ ο ρ) : Prop := Relation.ReflTransGen (Step D) (start D) a

/-- **What every effect preserves holds in every state.** `I` speaks of the object and the effects it
has had. -/
theorem Reached.invariant {D : Object σ ο ρ} {I : σ → List (ο × ρ) → Prop} (h : I D.initial [])
    (hact : ∀ s o r s' es, I s es → D.Does s o r s' → I s' (es ++ [(o, r)])) {a : Atomic σ ο ρ}
    (ha : Reached D a) : I a.state a.effects := by
  induction ha with
  | refl => exact h
  | tail _ hstep ih =>
    cases hstep with
    | call => exact ih
    | act _ hdoes => exact hact _ _ _ _ _ ih hdoes
    | ret => exact ih

end Atomic

/-- **Linearizability by simulation.** Every run of an implementation is matched by a run of the
atomic object when its steps are, with the invariant `I` of the implementation, and do not fail. -/
theorem linearizable_of_step {τ ε φ : Type} {step : τ → ε → Except φ τ} {D : Object σ ο ρ} {I : τ → Prop}
    {R : τ → Atomic σ ο ρ → Prop}
    (hstep : ∀ s e a, I s → R s a → ∃ s', step s e = .ok s' ∧ I s' ∧
      ∃ a', Relation.ReflTransGen (Atomic.Step D) a a' ∧ R s' a')
    {s : τ} (h : I s) (hR : R s (Atomic.start D)) (es : List ε) :
    Safe step (fun s => ∃ a, Atomic.Reached D a ∧ R s a) s es := by
  refine safe_of_step (I := fun s => I s ∧ ∃ a, Atomic.Reached D a ∧ R s a) (C := fun _ _ => True)
    (fun s hs => hs.2) ?_ ⟨h, _, .refl, hR⟩ fun _ _ _ _ _ => trivial
  rintro s e ⟨hs, a, ha, hRa⟩ -
  obtain ⟨s', hs', hI', a', haa', hR'⟩ := hstep s e a hs hRa
  exact ⟨s', hs', hI', a', ha.trans haa', hR'⟩

end Atomic

end Lib
