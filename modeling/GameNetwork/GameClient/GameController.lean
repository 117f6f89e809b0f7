import GameNetwork.Lib.Run
import GameNetwork.Buffer.ByteOrder
import GameNetwork.Message.BaseMessage

/-!
# The input queue of a client

`GameClient/GameController.h`, `GameClient/GameController.cpp`. The CONTROL
callback queues an input; `popInput` takes inputs off the front as long as
their frame has come. It compares an `int` with a `uint32_t`, which C++ does
on unsigned values. `left_of_sorted`: in a queue whose frames do not go back,
no input whose frame has come is left.
-/

namespace GameNetwork

open Lib

structure Input where
  playerId : RoleId
  logicFrame : BitVec 32
  direction : MoveDirection
  deriving DecidableEq, Repr

structure GameController where
  inputDeque : List Input
  /-- What the calls of `PopInput` have put into their results. -/
  released : List Input
  deriving DecidableEq, Repr

inductive ControllerEvent where
  | control (roleId : RoleId) (msg : ControlMessage)
  | popInput (currentLogicFrame : BitVec 32)
  deriving DecidableEq, Repr

namespace GameController

def new : GameController := ⟨[], []⟩

/-- The CONTROL callback. -/
def onControl (s : GameController) (roleId : RoleId) (msg : ControlMessage) : GameController :=
  { s with inputDeque := s.inputDeque ++ [⟨roleId, msg.tick, msg.moveDirection⟩] }

/-- The loop of `PopInput` on the queue and the result. -/
def popLoop (currentLogicFrame : BitVec 32) : List Input → List Input → List Input × List Input
  | [], result => ([], result)
  | input :: inputDeque, result =>
    if input.logicFrame ≤ currentLogicFrame then popLoop currentLogicFrame inputDeque (result ++ [input])
    else (input :: inputDeque, result)

def popInput (s : GameController) (currentLogicFrame : BitVec 32) : GameController :=
  let (inputDeque, result) := popLoop currentLogicFrame s.inputDeque []
  ⟨inputDeque, s.released ++ result⟩

def step (s : GameController) : ControllerEvent → Except Fault GameController
  | .control roleId msg => return s.onControl roleId msg
  | .popInput currentLogicFrame => return s.popInput currentLogicFrame

/-- The messages the callback is given. -/
def arrivals (events : List ControllerEvent) : List ControlMessage :=
  events.filterMap fun
    | .control _ msg => some msg
    | _ => none

/-- No input whose frame has come stands behind one with a later frame. -/
def NoneLeftBehind (s : GameController) (currentLogicFrame : BitVec 32) : Prop :=
  s.inputDeque.Pairwise fun a b =>
    ¬ ((b.logicFrame.toNat : Int) ≤ currentLogicFrame.toInt ∧ b.logicFrame.toNat < a.logicFrame.toNat)

/-- **However the messages are queued, in their order, and popped in between**, a call of `PopInput`
with a frame of at least zero leaves no input behind. -/
def PlaysBack (msgs : List ControlMessage) : Prop :=
  ∀ (events : List ControllerEvent) (currentLogicFrame : BitVec 32) (t : GameController),
    arrivals events <+: msgs → run step new (events ++ [.popInput currentLogicFrame]) = .ok t →
      0 ≤ currentLogicFrame.toInt → t.NoneLeftBehind currentLogicFrame

/-! ## `PopInput` -/

/-- **`PopInput`** releases the longest prefix of the queue whose frames have come. -/
theorem popLoop_eq (f : BitVec 32) (inputDeque result : List Input) :
    popLoop f inputDeque result =
      (inputDeque.dropWhile fun input => input.logicFrame ≤ f,
        result ++ inputDeque.takeWhile fun input => input.logicFrame ≤ f) := by
  induction inputDeque generalizing result with
  | nil => simp [popLoop]
  | cons input inputDeque ih =>
    by_cases h : input.logicFrame ≤ f
    · simp [popLoop, h, ih]
    · simp [popLoop, h]

/-- A frame that is at least zero is compared as the number it is. -/
theorem le_toInt_iff {f : BitVec 32} (h : 0 ≤ f.toInt) (frame : BitVec 32) :
    (frame.toNat : Int) ≤ f.toInt ↔ frame ≤ f := by
  rw [BitVec.toInt_eq_toNat_cond] at h ⊢
  rw [BitVec.le_def]
  have := f.isLt
  split at h <;> split <;> omega

/-- In a queue whose frames do not go back, what is left lies after the frame. -/
theorem left_of_sorted {f : BitVec 32} {inputDeque : List Input}
    (h : inputDeque.Pairwise fun a b => a.logicFrame ≤ b.logicFrame) :
    ∀ input ∈ inputDeque.dropWhile fun input => input.logicFrame ≤ f, ¬ input.logicFrame ≤ f := by
  induction inputDeque with
  | nil => intro _ hi; cases hi
  | cons first inputDeque ih =>
    obtain ⟨hfirst, h⟩ := List.pairwise_cons.mp h
    by_cases hf : first.logicFrame ≤ f
    · rw [List.dropWhile_cons_of_pos (by simpa using hf)]
      exact ih h
    · rw [List.dropWhile_cons_of_neg (by simpa using hf)]
      intro input hi hle
      rcases List.mem_cons.mp hi with rfl | hi
      · exact hf hle
      · exact hf (BitVec.le_trans (hfirst input hi) hle)

/-- The queue is the end of what has arrived. -/
theorem ticks_suffix {events : List ControllerEvent} {s t : GameController}
    (hrun : run step s events = .ok t) :
    t.inputDeque.map (·.logicFrame) <:+
      s.inputDeque.map (·.logicFrame) ++ (arrivals events).map (·.tick) := by
  induction events using List.reverseRecOn generalizing t with
  | nil => cases hrun; exact ⟨[], by simp [arrivals]⟩
  | append_singleton events e ih =>
    obtain ⟨u, hu, ht⟩ := run_snoc_eq_ok.mp hrun
    have hsuffix := ih hu
    cases e with
    | control roleId msg =>
      cases ht
      obtain ⟨l, hl⟩ := hsuffix
      refine ⟨l, ?_⟩
      have harrivals : arrivals (events ++ [.control roleId msg]) = arrivals events ++ [msg] := by
        rw [arrivals, List.filterMap_append]
        rfl
      rw [harrivals, onControl, List.map_append, List.map_append, ← List.append_assoc, hl]
      simp only [List.map_cons, List.map_nil, List.append_assoc]
    | popInput f =>
      cases ht
      have harrivals : arrivals (events ++ [.popInput f]) = arrivals events := by
        rw [arrivals, List.filterMap_append]
        exact List.append_nil _
      rw [harrivals, popInput, popLoop_eq]
      exact ((List.dropWhile_suffix _).map _).trans hsuffix

/-- **Messages whose ticks do not go back are played back in time.** -/
theorem playsBack_of_sorted {msgs : List ControlMessage}
    (h : msgs.Pairwise fun a b => a.tick ≤ b.tick) : PlaysBack msgs := by
  intro events f t harrivals hrun hf
  obtain ⟨u, hu, ht⟩ := run_snoc_eq_ok.mp hrun
  cases ht
  have hticks : ((arrivals events).map (·.tick)).Pairwise (· ≤ ·) := by
    rw [List.pairwise_map]
    exact h.sublist harrivals.sublist
  have hdeque : u.inputDeque.Pairwise fun a b => a.logicFrame ≤ b.logicFrame := by
    have := hticks.sublist (ticks_suffix hu).sublist
    rwa [List.pairwise_map] at this
  have hleft : ∀ input ∈ (u.popInput f).inputDeque, ¬ input.logicFrame ≤ f := by
    rw [popInput, popLoop_eq]
    exact left_of_sorted hdeque
  refine List.pairwise_of_forall_mem_list fun a _ b hb hbehind => ?_
  exact hleft b hb ((le_toInt_iff hf b.logicFrame).mp hbehind.1)

end GameController

end GameNetwork
