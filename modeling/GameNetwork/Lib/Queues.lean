import Mathlib.Data.List.TakeWhile
import Mathlib.Logic.Equiv.Basic

/-!
# Queues that can be put back into

A family of queues by name, and what is done to them: items are put at the
end, or back at the front; they are dropped from the front, handed out all at
once or discarded; two queues change places. What is handed out is kept in
order.

`LongestPrefix p xs ys` is what is released from the front of a queue as long
as the items satisfy `p`.
-/

namespace Lib

/-- An operation on a family of queues. -/
inductive QueueOp (ι α : Type) where
  | push (i : ι) (xs : List α)
  | pushFront (i : ι) (xs : List α)
  /-- Up to `n` items. -/
  | drop (i : ι) (n : Nat)
  /-- Hand out the whole content. -/
  | takeAll (i : ι)
  | clear (i : ι)
  | keep
  | swap (i j : ι)

structure Queues (ι α : Type) where
  content : ι → List α
  /-- What was handed out. -/
  taken : List (List α)

namespace Queues

variable {ι α : Type} [DecidableEq ι]

def empty : Queues ι α := ⟨fun _ => [], []⟩

def set (q : Queues ι α) (i : ι) (xs : List α) : Queues ι α :=
  { q with content := Function.update q.content i xs }

/-- **The meaning of an operation.** -/
def apply (q : Queues ι α) : QueueOp ι α → Queues ι α
  | .push i xs => q.set i (q.content i ++ xs)
  | .pushFront i xs => q.set i (xs ++ q.content i)
  | .drop i n => q.set i ((q.content i).drop n)
  | .takeAll i => { q.set i [] with taken := q.taken ++ [q.content i] }
  | .clear i => q.set i []
  | .keep => q
  | .swap i j => { q with content := q.content ∘ Equiv.swap i j }

@[simp] theorem content_set_self (q : Queues ι α) (i : ι) (xs : List α) :
    (q.set i xs).content i = xs := Function.update_self ..

theorem content_set_of_ne (q : Queues ι α) {i k : ι} (h : k ≠ i) (xs : List α) :
    (q.set i xs).content k = q.content k := Function.update_of_ne h ..

/-- A queue set to what it holds. -/
theorem set_content (q : Queues ι α) (i : ι) : q.set i (q.content i) = q := by
  rw [set, Function.update_eq_self]

/-- Two queues that change places, one after the other. -/
theorem apply_swap (q : Queues ι α) (i j : ι) :
    q.apply (.swap i j) = (q.set i (q.content j)).set j (q.content i) := by
  simp only [apply, set]
  congr 1
  funext k
  rw [Function.comp_apply, Equiv.swap_apply_def, Function.update_apply, Function.update_apply]
  by_cases hj : k = j
  · subst hj
    split
    · next hi => rw [if_pos rfl, hi]
    · rw [if_pos rfl, if_pos rfl]
  · rw [if_neg hj, if_neg hj]
    split
    · rfl
    · rfl

end Queues

/-! ## Releasing from the front -/

section LongestPrefix

variable {α : Type} {p : α → Prop} {xs ys : List α}

/-- `ys` is the longest of the prefixes of `xs` that have only items that satisfy `p`. -/
structure LongestPrefix (p : α → Prop) (xs ys : List α) : Prop where
  isPrefix : ys <+: xs
  all : ∀ x ∈ ys, p x
  longest : ∀ zs, zs <+: xs → (∀ x ∈ zs, p x) → zs <+: ys

theorem longestPrefix_takeWhile [DecidablePred p] :
    LongestPrefix p xs (xs.takeWhile fun x => p x) := by
  refine ⟨List.takeWhile_prefix _, fun x hx => by simpa using List.mem_takeWhile_imp hx, ?_⟩
  induction xs with
  | nil => exact fun zs hzs _ => hzs
  | cons x xs ih =>
    intro zs hzs hall
    cases zs with
    | nil => exact List.nil_prefix
    | cons z zs =>
      obtain ⟨rfl, htail⟩ := List.cons_prefix_cons.mp hzs
      rw [List.takeWhile_cons_of_pos (by simpa using hall z List.mem_cons_self)]
      exact List.cons_prefix_cons.mpr
        ⟨rfl, ih zs htail fun y hy => hall y (List.mem_cons_of_mem z hy)⟩

/-- There is one. -/
theorem longestPrefix_iff [DecidablePred p] :
    LongestPrefix p xs ys ↔ ys = xs.takeWhile fun x => p x := by
  refine ⟨fun h => ?_, fun h => h ▸ longestPrefix_takeWhile⟩
  have htake : LongestPrefix p xs (xs.takeWhile fun x => p x) := longestPrefix_takeWhile
  exact (htake.longest ys h.isPrefix h.all).eq_of_length_le
    (h.longest _ htake.isPrefix htake.all).length_le

end LongestPrefix

end Lib
