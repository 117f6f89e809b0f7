import GameNetwork.GameServer.GameServerExample

/-!
# The threads of the frame-sync server

`Update` statement by statement on the main thread, and `EnterRoom` of role 3
phase by phase on a thread of the receive dispatcher, in any interleaving with
each other and with whole calls of the handlers. `update_statements` says that
the statements of `Update`, one after the other, are `Update`.

`step_cases` says once what an event does to the inputs: `Control` adds one, a
statement of `Update` moves them on, a handler leaves them alone.
`inputsInOrder_run`: no input is lost, duplicated or reordered, whatever the
interleaving.
-/

namespace GameNetwork

open Lib

/-- The statement of `Update` that comes next. -/
inductive UpdatePc where
  /-- Between two calls. -/
  | outside
  | swap
  | record
  /-- A round of the loop over `send_msg_`, or its end, with the inputs it has still to come to. -/
  | loop (todo : List InputRef)
  /-- In a round: the input has been stamped. -/
  | send (input : InputRef) (todo : List InputRef)
  deriving DecidableEq, Repr

/-- How far `EnterRoom` of role 3 is. -/
inductive JoinPc where
  | before
  /-- The role is in `role_ids`. -/
  | added
  /-- It has been sent GAME_START. -/
  | started
  /-- `RePlay` has returned. -/
  | replayed
  | done
  deriving DecidableEq, Repr

structure RoomThreads where
  room : GameServerExample
  main : UpdatePc
  join : JoinPc
  /-- What `Update` has given the send dispatcher, and for which role. -/
  broadcasts : List (RoleId × InputRef)
  deriving DecidableEq, Repr

inductive RoomEvent where
  | control (msg : ControlMessage)
  | enterRoom (roleId : RoleId) (msg : EnterRoomMessage) (now : BitVec 64)
  | onRoleDisconnect (roleId : RoleId)
  /-- The main thread executes the next statement. -/
  | main
  /-- `EnterRoom(3, msg)` takes its next phase. -/
  | join (msg : EnterRoomMessage) (now : BitVec 64)
  deriving DecidableEq, Repr

namespace RoomThreads

def new : RoomThreads := ⟨.new, .outside, .before, []⟩

/-- `broadcast` of the main thread. -/
def broadcast (s : RoomThreads) (input : InputRef) : RoomThreads :=
  { s with room := s.room.broadcast input
           broadcasts := s.broadcasts ++ s.room.roleIds.map (·, input) }

def stepMain (s : RoomThreads) : RoomThreads :=
  match s.main with
  | .outside => { s with room := s.room.nextFrame, main := .swap }
  | .swap => { s with room := s.room.swapInputs, main := .record }
  | .record => { s with room := s.room.recordFrame, main := .loop s.room.sendMsg }
  | .loop [] => { s with room := s.room.clearSendMsg, main := .outside }
  | .loop (input :: todo) => { s with room := s.room.stamp input, main := .send input todo }
  | .send input todo => { s.broadcast input with main := .loop todo }

def stepJoin (s : RoomThreads) (msg : EnterRoomMessage) (now : BitVec 64) : RoomThreads :=
  match s.join with
  | .before => { s with room := s.room.addRole 3, join := .added }
  | .added =>
    { s with room := s.room.sendMessageByRoleId 3 (GameServerExample.gameStartAt now), join := .started }
  | .started => { s with room := s.room.rePlay 3, join := .replayed }
  | .replayed => { s with room := s.room.answer 3 msg, join := .done }
  | .done => s

def step (s : RoomThreads) : RoomEvent → Except Fault RoomThreads
  | .control msg => return { s with room := s.room.control msg }
  | .enterRoom roleId msg now => return { s with room := s.room.enterRoom roleId msg now }
  | .onRoleDisconnect roleId => return { s with room := s.room.onRoleDisconnect roleId }
  | .main => return s.stepMain
  | .join msg now => return s.stepJoin msg now

/-- The inputs that have been swapped out and not recorded yet. -/
def unrecorded (s : RoomThreads) : List InputRef :=
  match s.main with
  | .record => s.room.sendMsg
  | _ => []

/-- The recorded inputs that have not been stamped yet. -/
def unstamped (s : RoomThreads) : List InputRef :=
  match s.main with
  | .loop todo => todo
  | .send _ todo => todo
  | _ => []

/-- The recorded inputs that have not been sent yet. -/
def unsent (s : RoomThreads) : List InputRef :=
  match s.main with
  | .loop todo => todo
  | .send input todo => input :: todo
  | _ => []

/-- The inputs that `Update` has sent a role. -/
def broadcastsTo (s : RoomThreads) (roleId : RoleId) : List InputRef :=
  (s.broadcasts.filter (·.1 = roleId)).map (·.2)

/-! ## What an event does to the inputs -/

/-- Nothing is done to the inputs, the record or the main thread. -/
structure SameInputs (s t : RoomThreads) : Prop where
  main : t.main = s.main
  controlMsg : t.room.controlMsg = s.room.controlMsg
  sendMsg : t.room.sendMsg = s.room.sendMsg
  record : t.room.frameInputRecordVec = s.room.frameInputRecordVec
  inputs : t.room.inputs = s.room.inputs
  broadcasts : t.broadcasts = s.broadcasts

/-- No input is lost, duplicated or reordered. -/
structure InputsInOrder (s : RoomThreads) : Prop where
  order : s.room.recorded ++ (s.unrecorded ++ s.room.controlMsg) = List.range s.room.inputs.length
  /-- What is swapped in is empty. -/
  cleared : s.main = .outside ∨ s.main = .swap → s.room.sendMsg = []

section Inputs

variable {s t : RoomThreads} {e : RoomEvent}

theorem step_cases (ht : step s e = .ok t) :
    (∃ msg, e = .control msg ∧ t = { s with room := s.room.control msg }) ∨
    (e = .main ∧ t = s.stepMain) ∨
    ((∀ msg, e ≠ .control msg) ∧ e ≠ .main ∧ SameInputs s t) := by
  cases e with
  | control msg => cases ht; exact .inl ⟨msg, rfl, rfl⟩
  | main => cases ht; exact .inr (.inl ⟨rfl, rfl⟩)
  | enterRoom roleId msg now =>
    cases ht
    refine .inr (.inr ⟨fun _ h => (by cases h), fun h => (by cases h), ?_⟩)
    rw [GameServerExample.enterRoom_eq]
    exact ⟨rfl, rfl, rfl, rfl, rfl, rfl⟩
  | onRoleDisconnect roleId =>
    cases ht
    exact .inr (.inr ⟨fun _ h => (by cases h), fun h => (by cases h), ⟨rfl, rfl, rfl, rfl, rfl, rfl⟩⟩)
  | join msg now =>
    cases ht
    refine .inr (.inr ⟨fun _ h => (by cases h), fun h => (by cases h), ?_⟩)
    unfold stepJoin
    split
    · exact ⟨rfl, rfl, rfl, rfl, rfl, rfl⟩
    · exact ⟨rfl, rfl, rfl, rfl, rfl, rfl⟩
    · rw [GameServerExample.rePlay_eq]
      exact ⟨rfl, rfl, rfl, rfl, rfl, rfl⟩
    · exact ⟨rfl, rfl, rfl, rfl, rfl, rfl⟩
    · exact ⟨rfl, rfl, rfl, rfl, rfl, rfl⟩

theorem SameInputs.recorded (h : SameInputs s t) : t.room.recorded = s.room.recorded := by
  rw [GameServerExample.recorded, h.record]
  rfl

theorem SameInputs.unrecorded (h : SameInputs s t) : t.unrecorded = s.unrecorded := by
  rw [RoomThreads.unrecorded, h.main, h.sendMsg]
  rfl

theorem SameInputs.unstamped (h : SameInputs s t) : t.unstamped = s.unstamped := by
  rw [RoomThreads.unstamped, h.main]
  rfl

theorem SameInputs.unsent (h : SameInputs s t) : t.unsent = s.unsent := by
  rw [RoomThreads.unsent, h.main]
  rfl

theorem mem_recorded {frame : FrameInput} (hf : frame ∈ s.room.frameInputRecordVec) {input : InputRef}
    (hi : input ∈ frame.sendMsg) : input ∈ s.room.recorded := List.mem_flatMap.mpr ⟨frame, hf, hi⟩

theorem inputsInOrder_new : InputsInOrder new := ⟨rfl, fun _ => rfl⟩

theorem InputsInOrder.lt (h : s.InputsInOrder) {input : InputRef} (hi : input ∈ s.room.recorded) :
    input < s.room.inputs.length := by
  rw [← List.mem_range, ← h.order]
  exact List.mem_append_left _ hi

/-- Each input is in one place, and once. -/
theorem InputsInOrder.nodup (h : s.InputsInOrder) :
    (s.room.recorded ++ (s.unrecorded ++ s.room.controlMsg)).Nodup := by
  rw [h.order]
  exact List.nodup_range

/-- The inputs of the next frame are in no frame before it. -/
theorem InputsInOrder.not_recorded (h : s.InputsInOrder) {input : InputRef} (hi : input ∈ s.unrecorded) :
    input ∉ s.room.recorded := fun hr =>
  (List.nodup_append.mp h.nodup).2.2 input hr input (List.mem_append_left _ hi) rfl

/-- One statement of `Update`. -/
theorem inputsInOrder_main (h : s.InputsInOrder) : s.stepMain.InputsInOrder := by
  have horder := h.order
  cases hpc : s.main with
  | outside =>
    simp only [unrecorded, hpc] at horder
    simp only [stepMain, hpc]
    exact ⟨horder, fun _ => h.cleared (.inl hpc)⟩
  | swap =>
    simp only [unrecorded, hpc] at horder
    simp only [stepMain, hpc]
    refine ⟨?_, fun hm => (by rcases hm with hm | hm <;> cases hm)⟩
    show s.room.recorded ++ (s.room.controlMsg ++ s.room.sendMsg) = List.range s.room.inputs.length
    rw [h.cleared (.inr hpc), List.append_nil]
    exact horder
  | record =>
    simp only [unrecorded, hpc] at horder
    simp only [stepMain, hpc]
    refine ⟨?_, fun hm => (by rcases hm with hm | hm <;> cases hm)⟩
    show s.room.recordFrame.recorded ++ ([] ++ s.room.controlMsg) = List.range s.room.inputs.length
    rw [GameServerExample.recorded_recordFrame, List.nil_append, List.append_assoc]
    exact horder
  | loop todo =>
    simp only [unrecorded, hpc] at horder
    cases todo with
    | nil =>
      simp only [stepMain, hpc]
      exact ⟨horder, fun _ => rfl⟩
    | cons input todo =>
      simp only [stepMain, hpc]
      refine ⟨?_, fun hm => (by rcases hm with hm | hm <;> cases hm)⟩
      show s.room.recorded ++ ([] ++ s.room.controlMsg) = List.range (s.room.inputs.modify _ _).length
      rw [List.length_modify]
      exact horder
  | send input todo =>
    simp only [unrecorded, hpc] at horder
    simp only [stepMain, hpc, broadcast, GameServerExample.broadcast,
      GameServerExample.sendMessageByRoleIds_eq]
    exact ⟨horder, fun hm => (by rcases hm with hm | hm <;> cases hm)⟩

theorem inputsInOrder_step (h : s.InputsInOrder) (ht : step s e = .ok t) : t.InputsInOrder := by
  obtain ⟨msg, rfl, rfl⟩ | ⟨rfl, rfl⟩ | ⟨-, -, hsame⟩ := step_cases ht
  · refine ⟨?_, h.cleared⟩
    show s.room.recorded ++ (s.unrecorded ++ (s.room.controlMsg ++ [s.room.inputs.length])) =
      List.range (s.room.inputs ++ [msg]).length
    rw [List.length_append, List.length_singleton, List.range_succ, ← h.order]
    simp only [List.append_assoc]
  · exact inputsInOrder_main h
  · refine ⟨?_, fun hm => ?_⟩
    · rw [hsame.recorded, hsame.unrecorded, hsame.controlMsg, hsame.inputs]
      exact h.order
    · rw [hsame.main] at hm
      rw [hsame.sendMsg]
      exact h.cleared hm

/-- **No input is lost, duplicated or reordered**, whatever the interleaving. -/
theorem inputsInOrder_run {events : List RoomEvent} (h : s.InputsInOrder)
    (hrun : run step s events = .ok t) : t.InputsInOrder :=
  run_invariant (G := fun _ _ => True) (fun _ _ _ h _ ht => inputsInOrder_step h ht) h
    (fun _ _ _ _ _ => trivial) hrun

end Inputs

/-! ## `Update` without interruption -/

theorem run_loop (todo : List InputRef) (s : RoomThreads) (h : s.main = .loop todo) :
    ∃ n t, run step s (List.replicate n .main) = .ok t ∧ t.main = .outside ∧ t.join = s.join ∧
      t.room = (todo.foldl (fun room input => (room.stamp input).broadcast input) s.room).clearSendMsg := by
  induction todo generalizing s with
  | nil =>
    refine ⟨1, s.stepMain, rfl, ?_, ?_, ?_⟩ <;> simp [stepMain, h]
  | cons input todo ih =>
    -- two statements to a round
    have hround : s.stepMain.stepMain.main = .loop todo := by simp [stepMain, h]
    obtain ⟨n, t, hrun, hmain, hjoin, hroom⟩ := ih s.stepMain.stepMain hround
    refine ⟨n + 2, t, ?_, hmain, ?_, ?_⟩
    · rw [List.replicate_succ, List.replicate_succ]
      exact run_cons_eq_ok.mpr ⟨_, rfl, run_cons_eq_ok.mpr ⟨_, rfl, hrun⟩⟩
    · rw [hjoin]; simp [stepMain, h, broadcast]
    · rw [hroom]; simp [stepMain, h, broadcast]

/-- **The statements of `Update`, one after the other, are `Update`.** -/
theorem update_statements {s : RoomThreads} (h : s.main = .outside) :
    ∃ n t, run step s (List.replicate n .main) = .ok t ∧ t.main = .outside ∧ t.join = s.join ∧
      t.room = s.room.update := by
  have hloop : s.stepMain.stepMain.stepMain.main =
      .loop s.room.nextFrame.swapInputs.recordFrame.sendMsg := by simp [stepMain, h]; rfl
  obtain ⟨n, t, hrun, hmain, hjoin, hroom⟩ := run_loop _ s.stepMain.stepMain.stepMain hloop
  refine ⟨n + 3, t, ?_, hmain, ?_, ?_⟩
  · rw [List.replicate_succ, List.replicate_succ, List.replicate_succ]
    exact run_cons_eq_ok.mpr ⟨_, rfl, run_cons_eq_ok.mpr ⟨_, rfl, run_cons_eq_ok.mpr ⟨_, rfl, hrun⟩⟩⟩
  · rw [hjoin]; simp [stepMain, h]
  · rw [hroom]; simp [stepMain, h, GameServerExample.update]

/-- **The phases of `EnterRoom`, one after the other, are `EnterRoom`.** -/
theorem join_phases {s : RoomThreads} (h : s.join = .before) (msg : EnterRoomMessage) (now : BitVec 64) :
    run step s (List.replicate 4 (.join msg now)) =
      .ok { s with room := s.room.enterRoom 3 msg now, join := .done } := by
  have hphases : (((s.stepJoin msg now).stepJoin msg now).stepJoin msg now).stepJoin msg now =
      { s with room := s.room.enterRoom 3 msg now, join := .done } := by
    simp [stepJoin, h, GameServerExample.enterRoom]
  rw [← hphases]
  rfl

end RoomThreads

end GameNetwork
