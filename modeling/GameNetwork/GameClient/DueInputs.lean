import GameNetwork.GameClient.GameController
import GameNetwork.Lib.Queues

/-!
# When inputs are released

Any run of the CONTROL callback and `PopInput`. No input is lost, duplicated
or reordered (`conserved`). `ReleasesDue`: a call of `PopInput` releases the
inputs at the front of the queue whose frames have come, frames compared as
numbers. `releases_due_iff` says that a frame below zero is what can go wrong:
the comparison takes it for the unsigned value it converts to.
-/

namespace GameNetwork

open Lib

namespace GameController

/-- What the callback queues for the event. -/
def queued : ControllerEvent → List Input
  | .control roleId msg => [⟨roleId, msg.tick, msg.moveDirection⟩]
  | .popInput _ => []

/-- All that has arrived has been released or is in the queue, in this order. -/
def Conserves (s : GameController) (arrived : List Input) : Prop :=
  s.released ++ s.inputDeque = arrived

/-- The frame of the input has come, both taken as the numbers they are. -/
def Due (currentLogicFrame : BitVec 32) (input : Input) : Prop :=
  (input.logicFrame.toNat : Int) ≤ currentLogicFrame.toInt

instance (f : BitVec 32) : DecidablePred (Due f) := fun _ => inferInstanceAs (Decidable (_ ≤ _))

/-- **A call of `PopInput` returns, and releases the longest prefix of the queue that is due.** -/
def ReleasesDue (s : GameController) : ControllerEvent → Prop
  | .control .. => True
  | .popInput f => ∃ t result, step s (.popInput f) = .ok t ∧ LongestPrefix (Due f) s.inputDeque result ∧
      t.released = s.released ++ result ∧ s.inputDeque = result ++ t.inputDeque

/-- A frame below zero finds no input at the front up to the unsigned value it converts to. -/
def ComparesAsNumbers (s : GameController) : ControllerEvent → Prop
  | .control .. => True
  | .popInput f => f.toInt < 0 → ∀ first ∈ s.inputDeque.head?, f < first.logicFrame

instance (s : GameController) : ∀ e, Decidable (s.ComparesAsNumbers e)
  | .control .. => .isTrue trivial
  | .popInput _ => inferInstanceAs (Decidable (_ → ∀ first ∈ s.inputDeque.head?, _))

section Pop

variable {s : GameController} {f : BitVec 32}

theorem popInput_eq (s : GameController) (f : BitVec 32) :
    s.popInput f = ⟨s.inputDeque.dropWhile fun input => input.logicFrame ≤ f,
      s.released ++ s.inputDeque.takeWhile fun input => input.logicFrame ≤ f⟩ := by
  rw [popInput, popLoop_eq]
  rfl

/-- What `PopInput` releases is due when the two comparisons release the same. -/
theorem releasesDue_iff : s.ReleasesDue (.popInput f) ↔
    (s.inputDeque.takeWhile fun input => input.logicFrame ≤ f) =
      s.inputDeque.takeWhile fun input => Due f input := by
  have hstep : step s (.popInput f) = .ok (s.popInput f) := rfl
  constructor
  · rintro ⟨t, result, ht, hresult, hreleased, -⟩
    rw [hstep] at ht
    cases ht
    rw [popInput_eq] at hreleased
    exact (List.append_cancel_left hreleased).trans (longestPrefix_iff.mp hresult)
  · intro h
    refine ⟨_, _, hstep, longestPrefix_takeWhile, ?_, ?_⟩
    · rw [popInput_eq, h]
    · rw [popInput_eq, ← h]
      exact List.takeWhile_append_dropWhile.symm

/-- Nothing is due before frame zero. -/
theorem takeWhile_due_of_neg (hf : f.toInt < 0) (inputDeque : List Input) :
    (inputDeque.takeWhile fun input => Due f input) = [] := by
  cases inputDeque with
  | nil => rfl
  | cons input inputDeque =>
    have hnot : ¬ Due f input := fun h => by
      rw [Due] at h
      omega
    exact List.takeWhile_cons_of_neg (by simpa using hnot)

theorem takeWhile_le_eq_nil_iff (inputDeque : List Input) :
    (inputDeque.takeWhile fun input => input.logicFrame ≤ f) = [] ↔
      ∀ first ∈ inputDeque.head?, f < first.logicFrame := by
  cases inputDeque with
  | nil => exact iff_of_true rfl fun _ h => by cases h
  | cons input inputDeque =>
    rw [List.takeWhile_cons]
    by_cases h : input.logicFrame ≤ f
    · simp [h, BitVec.not_lt.mpr h]
    · simp [h, BitVec.not_le.mp h]

/-- **When a call of `PopInput` releases what is due.** -/
theorem releasesDue_iff_comparesAsNumbers (s : GameController) (e : ControllerEvent) :
    s.ReleasesDue e ↔ s.ComparesAsNumbers e := by
  cases e with
  | control roleId msg => exact Iff.rfl
  | popInput f =>
    rw [releasesDue_iff]
    by_cases hf : 0 ≤ f.toInt
    · refine iff_of_true (congrArg (s.inputDeque.takeWhile ·) (funext fun input => ?_))
        fun hneg => by omega
      exact decide_eq_decide.mpr (le_toInt_iff hf input.logicFrame).symm
    · have hneg : f.toInt < 0 := Int.not_le.mp hf
      rw [takeWhile_due_of_neg hneg, takeWhile_le_eq_nil_iff]
      exact ⟨fun h _ => h, fun h => h hneg⟩

end Pop

/-! ## Runs -/

theorem conserves_step {s t : GameController} {arrived : List Input} {e : ControllerEvent}
    (h : s.Conserves arrived) (ht : step s e = .ok t) : t.Conserves (arrived ++ queued e) := by
  cases e with
  | control roleId msg =>
    cases ht
    rw [Conserves, onControl, ← h, List.append_assoc]
    rfl
  | popInput f =>
    cases ht
    rw [Conserves, popInput_eq, List.append_assoc, List.takeWhile_append_dropWhile, queued,
      List.append_nil]
    exact h

/-- **Every input is released once and in order**, whatever frames `PopInput` is called with. -/
theorem conserved (events : List ControllerEvent) :
    Refines step (fun arrived e => arrived ++ queued e) Conserves new [] events := by
  refine refines_of_step (fun s arrived e h => ?_) rfl
  obtain ⟨t, ht⟩ : ∃ t, step s e = .ok t := by cases e <;> exact ⟨_, rfl⟩
  exact ⟨t, ht, conserves_step h ht⟩

/-- **`PopInput` releases each input once, in order and never early or late, if and only if it
compares frames as numbers.** -/
theorem releases_due_iff (events : List ControllerEvent) :
    Refines step (fun arrived e => arrived ++ queued e) Conserves new [] events ∧
      EachStep step ReleasesDue new events ↔ EachStep step ComparesAsNumbers new events := by
  rw [and_iff_right (conserved events)]
  have heq : ReleasesDue = ComparesAsNumbers :=
    funext₂ fun s e => propext (releasesDue_iff_comparesAsNumbers s e)
  rw [heq]

/-- A call with frame -1 while an input of frame 5 is queued. -/
def popBeforeStart : List ControllerEvent :=
  [.control 7 { ControlMessage.new with tick := 5 }, .popInput (-1)]

theorem releases_early :
    (∃ t, run step new popBeforeStart = .ok t ∧ t.released.map (·.logicFrame) = [5]) ∧
      ¬ EachStep step ReleasesDue new popBeforeStart := by
  refine ⟨⟨_, rfl, by decide⟩, fun h => ?_⟩
  have hcompares : EachStep step ComparesAsNumbers new popBeforeStart := fun ds e hds t ht =>
    (releasesDue_iff_comparesAsNumbers t e).mp (h ds e hds t ht)
  exact absurd hcompares (by decide)

end GameController

end GameNetwork
