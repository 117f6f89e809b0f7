import GameNetwork.GameClient.GameController
import GameNetwork.GameClient.SyncRequests
import GameNetwork.GameServer.GameStart
import GameNetwork.Message.Encoding

/-!
# A client as its game uses it

`GameClient/GameClient.h`, `GameClient/GameClient.cpp`, and the
`GameController` that shares its dispatcher (`GameClient/GameController.cpp`).
`call` is what the game calls, with the message that goes to `SendMsgAsync`;
`dispatch` is what the worker of the dispatcher does with a message that has
come in: a callback, or the promise that a call of `EnterRoom` waits on.

A `GameClient` may have several connections. This one has one, as a player has.
-/

namespace GameNetwork

open Lib

/-! ### The objects as those of their classes -/

def Message.control? : Message → Option ControlMessage
  | .control m => some m
  | _ => none

def Message.ping? : Message → Option PingMessage
  | .ping m => some m
  | _ => none

def Message.enterRoom? : Message → Option EnterRoomMessage
  | .enterRoom m => some m
  | _ => none

def Message.gameStart? : Message → Option GameStartMessage
  | .gameStart m => some m
  | _ => none

/-- The message is as its class makes it, and has an id only if `EnterRoom` waits on it. -/
structure Message.Regular (m : Message) : Prop where
  constructed : m.AsConstructed
  async : m.enterRoom? = none → m.base.messageUniqueId = asyncMessageUniqueId

/-- A call of `EnterRoom`: the room, and the shared state of the future it waits on. -/
structure EnterCall where
  roomId : BitVec 32
  future : Nat
  deriving DecidableEq, Repr

structure ClientApp where
  /-- The one key of `conn_map_`. -/
  roleId : RoleId
  recvMsgDispatcher : MsgDispatcher
  delayMs : BitVec 32
  hasDelay : Bool
  gameStartPromise : Option (BitVec 64)
  pingMessagePtr : Option PingMessage
  controller : GameController
  controlMessagePtr : ControlMessage
  /-- The calls of `EnterRoom`, in order. -/
  entered : List EnterCall
  /-- What `SendMsgAsync` has been given, in order. -/
  sent : List Message
  /-- What has been dispatched, in order, and when. -/
  received : List (Message × BitVec 64)

/-- What the game calls. -/
inductive GameCall where
  | pushInput (logicFrame : BitVec 32) (direction : MoveDirection)
  | testDelay (now : BitVec 64)
  /-- `EnterRoom`, up to its wait. -/
  | enterRoom (roomId : BitVec 32)
  | popInput (currentLogicFrame : BitVec 32)
  deriving DecidableEq, Repr

namespace ClientApp

/-- The constructors of `GameClient` and of `GameController`. The callbacks of PING, GAME_START and
CONTROL are 1, 2 and 3. -/
def new (roleId : RoleId) : Except Fault ClientApp := do
  let d ← GameClient.recvMsgDispatcher
  let d ← d.setMsgCallback .control 3
  return {
    roleId := roleId
    recvMsgDispatcher := d
    delayMs := 0
    hasDelay := false
    gameStartPromise := none
    pingMessagePtr := none
    controller := .new
    controlMessagePtr := .new
    entered := []
    sent := []
    received := [] }

/-- `GameController::PushInput`, up to its `SendMsgAsync`. -/
def pushInput (s : ClientApp) (logicFrame : BitVec 32) (direction : MoveDirection) :
    Message × ClientApp :=
  let ptr := { s.controlMessagePtr with
    tick := logicFrame, roleId := s.roleId, moveDirection := direction }
  (.control ptr, { s with controlMessagePtr := ptr })

/-- `TestDelay`, up to its `SendMsgAsync`. -/
def testDelay (s : ClientApp) (now : BitVec 64) : Message × ClientApp :=
  let ptr := { s.pingMessagePtr.getD .new with roleId := s.roleId, timestamp := now }
  (.ping ptr, { s with pingMessagePtr := some ptr })

/-- `EnterRoom` and the `SendMsgSync` it calls, up to its `SendMsgAsync`. -/
def enterRoom (s : ClientApp) (roomId : BitVec 32) : Except Fault (Message × ClientApp) := do
  let msg := Message.enterRoom { EnterRoomMessage.new with roleId := s.roleId, roomId := roomId }
  let (future, msg, d) ← s.recvMsgDispatcher.setSyncMessageId s.roleId msg
  return (msg, { s with recvMsgDispatcher := d, entered := s.entered ++ [⟨roomId, future⟩] })

/-- What `EnterRoom` returns once its future has a value. -/
def enterRoomResult (s : ClientApp) (call : EnterCall) : Except Fault (Option Bool) :=
  match s.recvMsgDispatcher.results call.future with
  | none => return none
  | some (.enterRoom rsp) => return some (rsp.result = 0)
  | some _ => .error .nullDereference

/-- A message is given to `SendMsgAsync`. -/
def send (s : ClientApp) (msg : Message) : ClientApp := { s with sent := s.sent ++ [msg] }

/-- A call of the game, and the message that it sends. -/
def call (s : ClientApp) : GameCall → Except Fault (Option Message × ClientApp)
  | .pushInput logicFrame direction =>
    let (msg, s) := s.pushInput logicFrame direction
    return (some msg, s.send msg)
  | .testDelay now =>
    let (msg, s) := s.testDelay now
    return (some msg, s.send msg)
  | .enterRoom roomId => do
    let (msg, s) ← s.enterRoom roomId
    return (some msg, s.send msg)
  | .popInput currentLogicFrame =>
    return (none, { s with controller := s.controller.popInput currentLogicFrame })

/-! ### The callbacks -/

/-- The PING callback. -/
def onPing (s : ClientApp) (ptr : PingMessage) (now : BitVec 64) : ClientApp :=
  { s with delayMs := (now - ptr.timestamp).setWidth 32, hasDelay := true }

/-- A callback is called. One that is given a message of another class dereferences the null
pointer of its cast. -/
def callback (s : ClientApp) (func : CallbackId) (roleId : RoleId) (msg : Message) (now : BitVec 64) :
    Except Fault ClientApp :=
  match func, msg with
  | 1, .ping ptr => return s.onPing ptr now
  | 2, .gameStart ptr => do
    let p ← GameClient.onGameStart s.gameStartPromise ptr
    return { s with gameStartPromise := p }
  | 3, .control ptr => return { s with controller := s.controller.onControl roleId ptr }
  | 0, _ => return s
  | _, _ => .error .nullDereference

/-- `Dispatch` of the client's dispatcher, at a time. -/
def dispatch (s : ClientApp) (msg : MsgForDispatch) (now : BitVec 64) : Except Fault ClientApp := do
  let (func, d) ← s.recvMsgDispatcher.dispatch msg
  let s := { s with recvMsgDispatcher := d, received := s.received ++ [(msg.baseMessagePtr, now)] }
  match func with
  | some func => s.callback func msg.dispatchId msg.baseMessagePtr now
  | none => return s

/-! ## Apart from the worker -/

/-- The client with other workers. -/
def withThreads (s : ClientApp) (msgThreads : List MsgThread) : ClientApp :=
  { s with recvMsgDispatcher := s.recvMsgDispatcher.withThreads msgThreads }

/-- The client without a worker. -/
def idle (s : ClientApp) : ClientApp := s.withThreads []

section Threads

variable (s : ClientApp) (msgThreads : List MsgThread)

/-- No callback looks at the worker. -/
theorem callback_withThreads (func : CallbackId) (roleId : RoleId) (msg : Message) (now : BitVec 64) :
    (s.withThreads msgThreads).callback func roleId msg now =
      (s.callback func roleId msg now).map (·.withThreads msgThreads) := by
  unfold callback
  split <;> try rfl
  · next ptr =>
    show (GameClient.onGameStart s.gameStartPromise ptr).bind _ = Except.map _
      ((GameClient.onGameStart s.gameStartPromise ptr).bind _)
    cases GameClient.onGameStart s.gameStartPromise ptr <;> rfl

theorem dispatch_withThreads (msg : MsgForDispatch) (now : BitVec 64) :
    (s.withThreads msgThreads).dispatch msg now =
      (s.dispatch msg now).map (·.withThreads msgThreads) := by
  unfold dispatch
  have hdispatch := s.recvMsgDispatcher.dispatch_withThreads msgThreads msg
  rw [show (s.withThreads msgThreads).recvMsgDispatcher = s.recvMsgDispatcher.withThreads msgThreads from rfl,
    hdispatch]
  cases s.recvMsgDispatcher.dispatch msg with
  | error e => rfl
  | ok r =>
    obtain ⟨func, d⟩ := r
    cases func with
    | none => rfl
    | some func =>
      exact callback_withThreads { s with
        recvMsgDispatcher := d, received := s.received ++ [(msg.baseMessagePtr, now)] } msgThreads ..

theorem call_withThreads (call : GameCall) :
    (s.withThreads msgThreads).call call =
      (s.call call).map fun r => (r.1, r.2.withThreads msgThreads) := by
  cases call with
  | pushInput logicFrame direction => rfl
  | testDelay now => rfl
  | popInput currentLogicFrame => rfl
  | enterRoom roomId =>
    unfold ClientApp.call enterRoom
    have hset := s.recvMsgDispatcher.setSyncMessageId_withThreads msgThreads s.roleId
      (.enterRoom { EnterRoomMessage.new with roleId := s.roleId, roomId := roomId })
    simp only [withThreads] at hset ⊢
    rw [hset]
    cases s.recvMsgDispatcher.setSyncMessageId s.roleId _ <;> rfl

/-- A dispatch leaves the worker alone. -/
theorem dispatch_eq {msg : MsgForDispatch} {now : BitVec 64} {s' : ClientApp}
    (h : s.dispatch msg now = .ok s') :
    s' = s'.idle.withThreads s.recvMsgDispatcher.msgThreads ∧ s.idle.dispatch msg now = .ok s'.idle := by
  constructor
  · have hsame := dispatch_withThreads s s.recvMsgDispatcher.msgThreads msg now
    rw [show s.withThreads s.recvMsgDispatcher.msgThreads = s from rfl, h] at hsame
    exact Except.ok.inj hsame
  · rw [idle, dispatch_withThreads, h]
    rfl

/-- Nor does a call. -/
theorem call_eq {call : GameCall} {msg : Option Message} {s' : ClientApp}
    (h : s.call call = .ok (msg, s')) :
    s' = s'.idle.withThreads s.recvMsgDispatcher.msgThreads ∧ s.idle.call call = .ok (msg, s'.idle) := by
  constructor
  · have hsame := call_withThreads s s.recvMsgDispatcher.msgThreads call
    rw [show s.withThreads s.recvMsgDispatcher.msgThreads = s from rfl, h] at hsame
    exact congrArg Prod.snd (Except.ok.inj hsame)
  · rw [idle, call_withThreads, h]
    rfl

end Threads

/-! ## What the two leave alone -/

/-- The messages that the client fills in are regular. -/
structure Constructed (s : ClientApp) : Prop where
  ping : ∀ m ∈ s.pingMessagePtr, (Message.ping m).Regular
  control : (Message.control s.controlMessagePtr).Regular

/-- The role and the workers are the same. -/
structure SameRole (s s' : ClientApp) : Prop where
  roleId : s'.roleId = s.roleId
  started : s'.recvMsgDispatcher.started = s.recvMsgDispatcher.started
  threadNum : s'.recvMsgDispatcher.threadNum = s.recvMsgDispatcher.threadNum

section Frame

variable {s s' : ClientApp}

theorem withUniqueId_asConstructed {m : Message} (hm : m.AsConstructed) (uniqueId : BitVec 32) :
    (m.withUniqueId uniqueId).AsConstructed := by
  cases m <;> exact hm

theorem roleId_withUniqueId (m : Message) (uniqueId : BitVec 32) :
    (m.withUniqueId uniqueId).base.roleId = m.base.roleId := by
  cases m <;> rfl

/-- **What a call sends** is a regular message of the player. -/
theorem call_sends (h : s.Constructed) {call : GameCall} {msg : Option Message}
    (hc : s.call call = .ok (msg, s')) :
    (∀ m ∈ msg, m.Regular ∧ m.base.roleId = s.roleId) ∧ s'.sent = s.sent ++ msg.toList ∧
      s'.Constructed ∧ s.SameRole s' := by
  cases call with
  | pushInput logicFrame direction =>
    cases hc
    refine ⟨fun m hm => ?_, rfl, ⟨h.ping, ⟨h.control.constructed, h.control.async⟩⟩, ⟨rfl, rfl, rfl⟩⟩
    cases hm
    exact ⟨⟨h.control.constructed, h.control.async⟩, rfl⟩
  | testDelay now =>
    cases hc
    have hping : (Message.ping { s.pingMessagePtr.getD .new with
        roleId := s.roleId, timestamp := now }).Regular := by
      cases hptr : s.pingMessagePtr with
      | none => exact ⟨⟨rfl, rfl⟩, fun _ => rfl⟩
      | some m => exact ⟨(h.ping m hptr).constructed, (h.ping m hptr).async⟩
    refine ⟨fun m hm => ?_, rfl, ⟨fun m hm => ?_, h.control⟩, ⟨rfl, rfl, rfl⟩⟩
    · cases hm
      exact ⟨hping, rfl⟩
    · cases hm
      exact hping
  | enterRoom roomId =>
    obtain ⟨⟨msg', s₁⟩, hentered, hret⟩ := bind_eq_ok.mp hc
    obtain ⟨⟨future, msg'', d⟩, hset, hret'⟩ := bind_eq_ok.mp hentered
    cases hret'
    cases hret
    obtain ⟨rfl, messageIdMap, messagePromise, promises, rfl⟩ := MsgDispatcher.setSyncMessageId_cases hset
    refine ⟨fun m hm => ?_, rfl, ⟨h.ping, h.control⟩, ⟨rfl, rfl, rfl⟩⟩
    cases hm
    have hnew : (Message.enterRoom { EnterRoomMessage.new with
        roleId := s.roleId, roomId := roomId }).AsConstructed := ⟨rfl, rfl⟩
    exact ⟨⟨withUniqueId_asConstructed hnew _, nofun⟩, roleId_withUniqueId _ _⟩
  | popInput currentLogicFrame =>
    cases hc
    exact ⟨nofun, (List.append_nil _).symm, ⟨h.ping, h.control⟩, ⟨rfl, rfl, rfl⟩⟩

/-- A call leaves alone what has been received. -/
theorem call_received {call : GameCall} {msg : Option Message} (hc : s.call call = .ok (msg, s')) :
    s'.received = s.received := by
  cases call with
  | enterRoom roomId =>
    obtain ⟨⟨msg', s₁⟩, hentered, hret⟩ := bind_eq_ok.mp hc
    obtain ⟨⟨future, msg'', d⟩, -, hret'⟩ := bind_eq_ok.mp hentered
    cases hret'
    cases hret
    rfl
  | _ => cases hc; rfl

/-- What a callback leaves alone. -/
theorem callback_frame {func : CallbackId} {roleId : RoleId} {msg : Message} {now : BitVec 64}
    (hc : s.callback func roleId msg now = .ok s') :
    ∃ delayMs hasDelay gameStartPromise controller, s' = { s with
      delayMs := delayMs, hasDelay := hasDelay, gameStartPromise := gameStartPromise
      controller := controller } := by
  unfold callback at hc
  split at hc
  · cases hc
    exact ⟨_, _, _, _, rfl⟩
  · obtain ⟨p, -, hret⟩ := bind_eq_ok.mp hc
    cases hret
    exact ⟨_, _, _, _, rfl⟩
  · cases hc
    exact ⟨_, _, _, _, rfl⟩
  · cases hc
    exact ⟨_, _, _, _, rfl⟩
  · cases hc

/-- **What a dispatch leaves alone.** -/
theorem dispatch_frame {msg : MsgForDispatch} {now : BitVec 64} (hd : s.dispatch msg now = .ok s') :
    s'.received = s.received ++ [(msg.baseMessagePtr, now)] ∧ s'.sent = s.sent ∧
      s'.entered = s.entered ∧ s'.pingMessagePtr = s.pingMessagePtr ∧
      s'.controlMessagePtr = s.controlMessagePtr ∧ s.SameRole s' := by
  obtain ⟨⟨func, d⟩, hdispatch, hret⟩ := bind_eq_ok.mp hd
  have hsame : d.started = s.recvMsgDispatcher.started ∧ d.threadNum = s.recvMsgDispatcher.threadNum := by
    rcases MsgDispatcher.dispatch_cases hdispatch with rfl | ⟨messagePromise, promises, results, rfl⟩ <;>
      exact ⟨rfl, rfl⟩
  cases func with
  | none =>
    cases hret
    exact ⟨rfl, rfl, rfl, rfl, rfl, ⟨rfl, hsame.1, hsame.2⟩⟩
  | some func =>
    obtain ⟨delayMs, hasDelay, gameStartPromise, controller, rfl⟩ := callback_frame hret
    exact ⟨rfl, rfl, rfl, rfl, rfl, ⟨rfl, hsame.1, hsame.2⟩⟩

end Frame

end ClientApp

end GameNetwork
