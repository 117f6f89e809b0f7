import GameNetwork.GameClient.ConnectedClient
import GameNetwork.GameServer.MKServer
import GameNetwork.GameServer.RoomThreads

/-!
# A game over the network

The frame-sync server (`GameServer/GameServerExample.cpp` on top of
`GameServer/MKServer.cpp`) and its players (`GameClient/GameClient.cpp`), with
everything between them: both ends of each connection, the bytes on their way,
the receive loops, and the workers of all dispatchers. Player `i` is the
`i`-th to connect, and so the server's connection `i`.

What the room gives to `SendMessageByRoleId` goes to the send dispatcher, as a
reference where it is an input, which `Update` may still write to. The thread
that runs the connections, the receive workers, the send workers, the main
thread and the players go on in any order. No connection ends.

A handler of the room (`Ping`, `Control`, `EnterRoom`) is one step, and so is a
statement of `Update`: neither another handler nor a statement of `Update` is
executed within it. The source does not see to this: `EnterRoom` reads
`role_ids` after it has released its lock, and ten receive workers may be in it.
-/

namespace GameNetwork

open Lib

/-- A message given to `SendMessageByRoleId`. -/
inductive Post where
  | room (msg : Outgoing)
  /-- What `Ping` sends back. -/
  | echo (msg : Message)
  deriving DecidableEq, Repr

/-- The object that is sent, as it is when the inputs are these. -/
def Post.message (inputs : List ControlMessage) : Post → Except Fault Message
  | .room (.control input) =>
    match inputs[input]? with
    | some m => return .control m
    | none => .error .danglingObject
  | .room (.gameStart m) => return .gameStart m
  | .room (.enterRoom m) => return .enterRoom m
  | .echo msg => return msg

/-- What the room has sent, as posts. -/
def postsOf (sent : List (RoleId × Outgoing)) : List (RoleId × Post) :=
  sent.map fun x => (x.1, .room x.2)

structure Session where
  server : MKServer
  room : RoomThreads
  sendMsgDispatcher : TracedDispatcher Post
  /-- The server as it sends. -/
  sending : Sending
  /-- How many bytes the server has read of each connection. -/
  read : ConnId → Nat
  clients : List ConnectedClient

inductive SessionEvent where
  | connect (roleId : RoleId)
  | accept (endpoint : String)
  /-- The server reads up to `n` bytes of a connection. -/
  | read (c : ConnId) (n : Nat)
  /-- The server's loop of `OnNewData` goes round. -/
  | turn
  /-- Receive worker `k` tries to take a message. -/
  | tryPop (k : Nat)
  /-- Receive worker `k` has the message it took dispatched, at a time. -/
  | dispatch (k : Nat) (now : BitVec 64)
  /-- The main thread executes the next statement of `Update`. -/
  | main
  /-- Send worker `k` tries to take a message. -/
  | sendTryPop (k : Nat)
  /-- Send worker `k` has the message it took dispatched. -/
  | sendDispatch (k : Nat)
  /-- The writes of the server go on. -/
  | io (e : IoEvent)
  | client (i : ConnId) (e : ClientEvent)
  /-- Player `i` reads up to `n` bytes. -/
  | clientRead (i : ConnId) (n : Nat)
  deriving DecidableEq, Repr

/-- The callbacks that the constructor of `GameServerExample` sets: 1 is `Ping`, 2 is `Control` and
3 is `EnterRoom`. -/
def GameServerExample.setMsgFuncs (d : MsgDispatcher) : Except Fault MsgDispatcher := do
  let d ← d.setMsgCallback .ping 1
  let d ← d.setMsgCallback .control 2
  d.setMsgCallback .enterRoom 3

namespace Session

/-- The server is started, and nobody has connected. -/
def new (serverName : String) : Except Fault Session := do
  let server := MKServer.new serverName 10
  let d ← GameServerExample.setMsgFuncs server.recvMsgDispatcher.dispatcher
  return {
    server := { server with recvMsgDispatcher := { server.recvMsgDispatcher with dispatcher := d } }
    room := .new
    sendMsgDispatcher := .new 10
    sending := .new
    read := fun _ => 0
    clients := [] }

/-! ### The server -/

/-- `SendMessageByRoleId`. -/
def sendMessageByRoleId (s : Session) (roleId : RoleId) (post : Post) : Except Fault Session := do
  let msg ← post.message s.room.room.inputs
  let d ← s.sendMsgDispatcher.push post roleId msg
  return { s with sendMsgDispatcher := d }

def sendAll (s : Session) (posts : List (RoleId × Post)) : Except Fault Session :=
  posts.foldlM (fun s post => s.sendMessageByRoleId post.1 post.2) s

/-- A function of the room, and what it sends. -/
def onRoom (s : Session) (e : RoomEvent) : Except Fault Session := do
  let room ← s.room.step e
  { s with room := room }.sendAll (postsOf (room.room.sent.drop s.room.room.sent.length))

/-- A callback of the server, from its call to its return. `Control` and `EnterRoom` need an object of
their class. -/
def callback (s : Session) (func : CallbackId) (roleId : RoleId) (msg : Message) (now : BitVec 64) :
    Except Fault Session :=
  match func, msg with
  | 1, msg => s.sendMessageByRoleId roleId (.echo msg)
  | 2, .control msg => s.onRoom (.control msg)
  | 3, .enterRoom msg => s.onRoom (.enterRoom roleId msg now)
  | 0, _ => return s
  | _, _ => .error .nullDereference

/-- Receive worker `k` has the message it took dispatched. -/
def dispatch (s : Session) (k : Nat) (now : BitVec 64) : Except Fault Session :=
  match s.server.recvMsgDispatcher.current k with
  | none => return s
  | some x => do
    let (func, _) ← s.server.recvMsgDispatcher.dispatcher.dispatch x.msg
    let server ← s.server.step (.dispatch k)
    let s := { s with server := server }
    match func with
    | some func => s.callback func x.msg.dispatchId x.msg.baseMessagePtr now
    | none => return s

/-- The server as it sends, with `role_id_conn_map_` as it is now. -/
def sendingNow (s : Session) : Sending :=
  { s.sending with connMap := fun roleId => s.server.gameServer.roleIdConnMap.lookup roleId }

/-- Send worker `k` has the message it took dispatched, to the default callback. -/
def sendDispatch (s : Session) (k : Nat) : Except Fault Session :=
  match s.sendMsgDispatcher.current k with
  | none => return s
  | some x => do
    let msg ← x.note.message s.room.room.inputs
    let sending ← s.sendingNow.sendCallback x.msg.dispatchId msg
    let d ← s.sendMsgDispatcher.dispatch k
    return { s with sending := sending, sendMsgDispatcher := d }

/-! ### The connections -/

/-- The next of the bytes that player `c` has transferred. -/
def upBytes (s : Session) (c : ConnId) (client : ConnectedClient) (n : Nat) : List Byte :=
  ((client.sending.sockets 0).transferred.drop (s.read c)).take n

/-- The next of the bytes that the server has transferred to player `i`. -/
def downBytes (s : Session) (i : ConnId) (client : ConnectedClient) (n : Nat) : List Byte :=
  ((s.sending.sockets i).transferred.drop client.read).take n

/-- A read of the server's on a connection. -/
def readFrom (s : Session) (c : ConnId) (client : ConnectedClient) (n : Nat) : Except Fault Session :=
  if s.server.decoding.isSome ∨ s.server.gameServer.armedConn c = none then return s
  else do
    let server ← s.server.step (.read c (s.upBytes c client n))
    return { s with server := server
                    read := Function.update s.read c (s.read c + (s.upBytes c client n).length) }

/-- An event of one player. -/
def onClient (s : Session) (i : ConnId) (f : ConnectedClient → Except Fault ConnectedClient) :
    Except Fault Session :=
  match s.clients[i]? with
  | none => return s
  | some client => do
    let client ← f client
    return { s with clients := s.clients.set i client }

def step (s : Session) : SessionEvent → Except Fault Session
  | .connect roleId => do
    let client ← ConnectedClient.new roleId
    return { s with clients := s.clients ++ [client] }
  | .accept endpoint =>
    if s.server.gameServer.conns.length < s.clients.length then do
      let server ← s.server.step (.accept endpoint)
      return { s with server := server }
    else return s
  | .read c n =>
    match s.clients[c]? with
    | none => return s
    | some client => s.readFrom c client n
  | .turn => do
    let server ← s.server.step .turn
    return { s with server := server }
  | .tryPop k => do
    let server ← s.server.step (.tryPop k)
    return { s with server := server }
  | .dispatch k now => s.dispatch k now
  | .main => s.onRoom .main
  | .sendTryPop k => return { s with sendMsgDispatcher := s.sendMsgDispatcher.tryPop k }
  | .sendDispatch k => s.sendDispatch k
  | .io e => do
    let sending ← s.sending.step e.event
    return { s with sending := sending }
  | .client i e => s.onClient i (·.step e)
  | .clientRead i n => s.onClient i fun client => client.receive (s.downBytes i client n)

/-- **What the run relies on**: asio's contract at both ends, reads that fit into the buffers, and
players with role ids and endpoints of their own. -/
def WithinContract (s : Session) : SessionEvent → Prop
  | .connect roleId => roleId ≠ 0 ∧ ∀ client ∈ s.clients, client.app.roleId ≠ roleId
  | .accept endpoint =>
    s.server.gameServer.connectionName endpoint ∉ s.server.gameServer.gameConnectionMap
  | .read c n => ∀ client ∈ s.clients[c]?,
    (s.upBytes c client n).length ≤ (s.server.buffers c).writableSize
  | .sendDispatch k => ∀ x ∈ s.sendMsgDispatcher.current k,
    ∀ c ∈ s.sendingNow.connMap x.msg.dispatchId, s.sending.Idle c
  | .io e => s.sending.WithinContract e.event
  | .client i e => ∀ client ∈ s.clients[i]?, client.WithinContract e
  | .clientRead i n => ∀ client ∈ s.clients[i]?,
    (s.downBytes i client n).length ≤ client.receiver.buffer.writableSize
  | _ => True

instance (s : Session) : ∀ e, Decidable (s.WithinContract e)
  | .connect _ => inferInstanceAs (Decidable (_ ∧ ∀ _ ∈ _, _))
  | .accept _ => inferInstanceAs (Decidable (¬ _))
  | .read .. | .client .. | .clientRead .. => inferInstanceAs (Decidable (∀ _ ∈ (_ : Option _), _))
  | .sendDispatch _ => inferInstanceAs (Decidable (∀ _ ∈ (_ : Option _), ∀ _ ∈ (_ : Option _), _))
  | .io e => inferInstanceAs (Decidable (s.sending.WithinContract e.event))
  | .turn | .tryPop _ | .dispatch .. | .main | .sendTryPop _ => .isTrue trivial

/-- A call of `EnterRoom` is served between two calls of `Update`. -/
def BetweenUpdates (s : Session) : SessionEvent → Prop
  | .dispatch k _ => ∀ x ∈ s.server.recvMsgDispatcher.current k,
    x.msg.baseMessagePtr.enterRoom?.isSome → s.room.main = .outside
  | _ => True

instance (s : Session) : ∀ e, Decidable (s.BetweenUpdates e)
  | .dispatch .. => inferInstanceAs (Decidable (∀ _ ∈ (_ : Option _), _ → _))
  | .connect _ | .accept _ | .read .. | .turn | .tryPop _ | .main | .sendTryPop _ | .sendDispatch _ | .io _
  | .client .. | .clientRead .. => .isTrue trivial

end Session

end GameNetwork
