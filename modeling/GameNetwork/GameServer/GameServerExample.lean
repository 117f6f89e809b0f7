import GameNetwork.Lib.Run
import GameNetwork.Buffer.ByteOrder
import GameNetwork.Message.BaseMessage

/-!
# The frame-sync server

`GameServer/GameServerExample.h`, `GameServer/GameServerExample.cpp`. `Control`
collects the inputs of the players. `Update`, the main thread's, takes what
has been collected as the inputs of the next frame, records the frame, and
sends each of its inputs to everyone in the room. `EnterRoom` adds a role to
the room; role 2 starts the game and role 3 is replayed the recorded frames.

An input is a shared object that `Update` still writes to (its `tick`) after it
has been recorded, so the lists hold references into `inputs`. What goes to the
send dispatcher is kept in the order of the calls (`sent`). `step` takes the
four functions as atomic steps.
-/

namespace GameNetwork

open Lib

/-- A `ControlMessagePtr`: the number of the object, in the order of the calls of `Control`. -/
abbrev InputRef := Nat

structure FrameInput where
  frameNumber : BitVec 32
  sendMsg : List InputRef
  deriving DecidableEq, Repr

/-- A message given to the send dispatcher. -/
inductive Outgoing where
  | control (input : InputRef)
  | gameStart (m : GameStartMessage)
  | enterRoom (m : EnterRoomMessage)
  deriving DecidableEq, Repr

structure GameServerExample where
  roleIds : List RoleId
  controlMsg : List InputRef
  sendMsg : List InputRef
  frameCounter : BitVec 32
  frameInputRecordVec : List FrameInput
  /-- The objects that `Control` has been given. -/
  inputs : List ControlMessage
  /-- What `send_msg_dispatcher_` has been given, and for which role. -/
  sent : List (RoleId × Outgoing)
  deriving DecidableEq, Repr

namespace GameServerExample

/-- The constructor gives `frame_counter_` the value `true`. -/
def new : GameServerExample := ⟨[], [], [], 1, [], [], []⟩

def sendMessageByRoleId (s : GameServerExample) (roleId : RoleId) (msg : Outgoing) : GameServerExample :=
  { s with sent := s.sent ++ [(roleId, msg)] }

def sendMessageByRoleIds (s : GameServerExample) (roleIds : List RoleId) (msg : Outgoing) :
    GameServerExample :=
  roleIds.foldl (fun s roleId => s.sendMessageByRoleId roleId msg) s

def control (s : GameServerExample) (msg : ControlMessage) : GameServerExample :=
  { s with inputs := s.inputs ++ [msg], controlMsg := s.controlMsg ++ [s.inputs.length] }

/-! ### `EnterRoom` and `OnRoleDisconnect` -/

/-- `role_ids.push_back`, under its lock. -/
def addRole (s : GameServerExample) (roleId : RoleId) : GameServerExample :=
  { s with roleIds := s.roleIds ++ [roleId] }

/-- The GAME_START that is made at a time. -/
def gameStartAt (now : BitVec 64) : Outgoing := .gameStart { GameStartMessage.new with timestamp := now }

def rePlay (s : GameServerExample) (roleId : RoleId) : GameServerExample :=
  s.frameInputRecordVec.foldl (fun s frameInput =>
    frameInput.sendMsg.foldl (fun s msg => s.sendMessageByRoleId roleId (.control msg)) s) s

/-- What `EnterRoom` does for role 2: everyone in the room starts. -/
def startGame (s : GameServerExample) (now : BitVec 64) : GameServerExample :=
  { s with frameCounter := 0 }.sendMessageByRoleIds s.roleIds (gameStartAt now)

/-- The answer, which is the message itself. -/
def answer (s : GameServerExample) (roleId : RoleId) (msg : EnterRoomMessage) : GameServerExample :=
  s.sendMessageByRoleId roleId (.enterRoom { msg with result := 0 })

/-- `EnterRoom` at a time. -/
def enterRoom (s : GameServerExample) (roleId : RoleId) (msg : EnterRoomMessage) (now : BitVec 64) :
    GameServerExample :=
  let s := s.addRole roleId
  let s := if roleId = 2 then s.startGame now else s
  let s := if roleId = 3 then (s.sendMessageByRoleId roleId (gameStartAt now)).rePlay roleId else s
  s.answer roleId msg

/-- `std::find` and `erase`: one occurrence goes. -/
def onRoleDisconnect (s : GameServerExample) (roleId : RoleId) : GameServerExample :=
  { s with roleIds := s.roleIds.erase roleId }

/-! ### `Update` -/

/-- `frame_counter_++`. -/
def nextFrame (s : GameServerExample) : GameServerExample := { s with frameCounter := s.frameCounter + 1 }

/-- `send_msg_.swap(control_msg_)`, under its lock. -/
def swapInputs (s : GameServerExample) : GameServerExample :=
  { s with sendMsg := s.controlMsg, controlMsg := s.sendMsg }

/-- `frame_input_record_vec_.push_back`. -/
def recordFrame (s : GameServerExample) : GameServerExample :=
  { s with frameInputRecordVec := s.frameInputRecordVec ++ [⟨s.frameCounter, s.sendMsg⟩] }

/-- `cont_msg_ptr->tick = frame_counter_`. -/
def stamp (s : GameServerExample) (input : InputRef) : GameServerExample :=
  { s with inputs := s.inputs.modify input fun m => { m with tick := s.frameCounter } }

/-- `SendMessageByRoleIds(role_ids, cont_msg_ptr)`. -/
def broadcast (s : GameServerExample) (input : InputRef) : GameServerExample :=
  s.sendMessageByRoleIds s.roleIds (.control input)

/-- `send_msg_.clear()`. -/
def clearSendMsg (s : GameServerExample) : GameServerExample := { s with sendMsg := [] }

/-- `Update`. -/
def update (s : GameServerExample) : GameServerExample :=
  let s := s.nextFrame.swapInputs.recordFrame
  (s.sendMsg.foldl (fun s input => (s.stamp input).broadcast input) s).clearSendMsg

end GameServerExample

/-- A call of one of the four functions. `Control` does not look at its role id. -/
inductive RoomCall where
  | control (msg : ControlMessage)
  | enterRoom (roleId : RoleId) (msg : EnterRoomMessage) (now : BitVec 64)
  | onRoleDisconnect (roleId : RoleId)
  | update
  deriving DecidableEq, Repr

namespace GameServerExample

def step (s : GameServerExample) : RoomCall → Except Fault GameServerExample
  | .control msg => return s.control msg
  | .enterRoom roleId msg now => return s.enterRoom roleId msg now
  | .onRoleDisconnect roleId => return s.onRoleDisconnect roleId
  | .update => return s.update

/-- The recorded inputs, frame after frame. -/
def recorded (s : GameServerExample) : List InputRef := s.frameInputRecordVec.flatMap (·.sendMsg)

/-! ## What the functions do -/

section Lemmas

variable (s : GameServerExample)

@[simp] theorem sendMessageByRoleIds_eq (roleIds : List RoleId) (msg : Outgoing) :
    s.sendMessageByRoleIds roleIds msg = { s with sent := s.sent ++ roleIds.map (·, msg) } := by
  induction roleIds generalizing s with
  | nil => simp [sendMessageByRoleIds]
  | cons roleId roleIds ih =>
    have hcons : s.sendMessageByRoleIds (roleId :: roleIds) msg =
        (s.sendMessageByRoleId roleId msg).sendMessageByRoleIds roleIds msg := rfl
    rw [hcons, ih, sendMessageByRoleId, List.map_cons]
    simp only [List.append_assoc, List.singleton_append]

theorem foldl_sendMessageByRoleId (roleId : RoleId) (msgs : List InputRef) :
    msgs.foldl (fun s msg => s.sendMessageByRoleId roleId (.control msg)) s =
      { s with sent := s.sent ++ msgs.map fun msg => (roleId, .control msg) } := by
  induction msgs generalizing s with
  | nil => simp
  | cons msg msgs ih =>
    rw [List.foldl_cons, ih, sendMessageByRoleId, List.map_cons]
    simp only [List.append_assoc, List.singleton_append]

/-- **`RePlay`** sends one role everything recorded, in the order of the record. -/
theorem rePlay_eq (roleId : RoleId) :
    s.rePlay roleId =
      { s with sent := s.sent ++ s.recorded.map fun msg => (roleId, .control msg) } := by
  have hfold : ∀ (frames : List FrameInput) (s : GameServerExample),
      frames.foldl (fun s frameInput => frameInput.sendMsg.foldl
          (fun s msg => s.sendMessageByRoleId roleId (.control msg)) s) s =
        { s with sent := s.sent ++
            (frames.flatMap (·.sendMsg)).map fun msg => (roleId, .control msg) } := by
    intro frames
    induction frames with
    | nil => intro s; simp
    | cons frame frames ih =>
      intro s
      rw [List.foldl_cons, foldl_sendMessageByRoleId, ih, List.flatMap_cons, List.map_append]
      simp only [List.append_assoc]
  exact hfold s.frameInputRecordVec s

theorem recorded_recordFrame : s.recordFrame.recorded = s.recorded ++ s.sendMsg := by
  rw [recorded, recordFrame, List.flatMap_append, List.flatMap_singleton]
  rfl

/-- What `EnterRoom` gives the send dispatcher. -/
def enterRoomSends (roleId : RoleId) (msg : EnterRoomMessage) (now : BitVec 64) :
    List (RoleId × Outgoing) :=
  (if roleId = 2 then (s.roleIds ++ [roleId]).map (·, gameStartAt now) else []) ++
  (if roleId = 3 then
    (roleId, gameStartAt now) :: s.recorded.map (fun input => (roleId, .control input)) else []) ++
  [(roleId, .enterRoom { msg with result := 0 })]

/-- **`EnterRoom`.** -/
theorem enterRoom_eq (roleId : RoleId) (msg : EnterRoomMessage) (now : BitVec 64) :
    s.enterRoom roleId msg now =
      { s with
        roleIds := s.roleIds ++ [roleId]
        frameCounter := if roleId = 2 then 0 else s.frameCounter
        sent := s.sent ++ s.enterRoomSends roleId msg now } := by
  by_cases h2 : roleId = 2
  · subst h2
    simp [enterRoom, enterRoomSends, addRole, startGame, answer, sendMessageByRoleId]
  by_cases h3 : roleId = 3
  · subst h3
    simp [enterRoom, enterRoomSends, addRole, answer, sendMessageByRoleId, rePlay_eq, recorded]
  · simp only [enterRoom, enterRoomSends, addRole, answer, sendMessageByRoleId, if_neg h2, if_neg h3,
      List.nil_append]

/-- The objects once some of them have been stamped. -/
def stamped (inputs : List ControlMessage) (tick : BitVec 32) (refs : List InputRef) :
    List ControlMessage :=
  refs.foldl (fun inputs input => inputs.modify input fun m => { m with tick := tick }) inputs

theorem foldl_stamp_broadcast (refs : List InputRef) :
    refs.foldl (fun s input => (s.stamp input).broadcast input) s =
      { s with
        inputs := stamped s.inputs s.frameCounter refs
        sent := s.sent ++ refs.flatMap fun input => s.roleIds.map (·, .control input) } := by
  induction refs generalizing s with
  | nil => simp [stamped]
  | cons input refs ih =>
    rw [List.foldl_cons, ih]
    simp [stamp, broadcast, stamped]

/-- **`Update`.** -/
theorem update_eq :
    s.update =
      { s with
        controlMsg := s.sendMsg
        sendMsg := []
        frameCounter := s.frameCounter + 1
        frameInputRecordVec := s.frameInputRecordVec ++ [⟨s.frameCounter + 1, s.controlMsg⟩]
        inputs := stamped s.inputs (s.frameCounter + 1) s.controlMsg
        sent := s.sent ++ s.controlMsg.flatMap fun input => s.roleIds.map (·, .control input) } := by
  unfold update
  simp only [foldl_stamp_broadcast]
  rfl

end Lemmas

end GameServerExample

end GameNetwork
