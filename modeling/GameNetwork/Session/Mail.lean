import GameNetwork.Session.Session

/-!
# The game as a mail service

What the framework is for, with nothing of how it is done: the server and its
players send each other messages, and these wait in queues. A player has one
queue for what it has sent and the server has not served, and one for what it
has been sent and has not received; and there is one for what the room has
given out to each role. Nothing is lost, copied or changed, and a queue is
emptied in the order in which it was filled.
-/

namespace GameNetwork

open Lib

structure MailClient where
  app : ClientApp
  /-- What the player has sent and the server has not served. -/
  up : List Message
  /-- What the player has been sent and has not received. -/
  down : List Message

structure Mail where
  room : RoomThreads
  /-- What has been given out for a role and has not been sent. -/
  out : RoleId → List Post
  clients : RoleId → Option MailClient

inductive MailEvent where
  | connect (roleId : RoleId)
  /-- A player's game calls. -/
  | call (roleId : RoleId) (call : GameCall)
  /-- The server serves the next message of a player. -/
  | serve (roleId : RoleId) (now : BitVec 64)
  /-- The next statement of `Update`. -/
  | main
  /-- The next message for a role is sent. -/
  | send (roleId : RoleId)
  /-- A player receives the next message. -/
  | receive (roleId : RoleId) (now : BitVec 64)
  deriving DecidableEq, Repr

namespace Mail

def new : Mail := ⟨.new, fun _ => [], fun _ => none⟩

def setClient (s : Mail) (roleId : RoleId) (client : MailClient) : Mail :=
  { s with clients := Function.update s.clients roleId (some client) }

/-- What these posts have for a role. -/
def postsFor (roleId : RoleId) (posts : List (RoleId × Post)) : List Post :=
  (posts.filter (·.1 = roleId)).map (·.2)

/-- Posts are given out. -/
def give (s : Mail) (posts : List (RoleId × Post)) : Mail :=
  { s with out := fun roleId => s.out roleId ++ postsFor roleId posts }

/-- A function of the room, and what it gives out. -/
def onRoom (s : Mail) (e : RoomEvent) : Except Fault Mail := do
  let room ← s.room.step e
  return { s with room := room }.give (postsOf (room.room.sent.drop s.room.room.sent.length))

/-- The server serves a message. -/
def handle (s : Mail) (roleId : RoleId) (now : BitVec 64) : Message → Except Fault Mail
  | .ping m => return s.give [(roleId, .echo (.ping m))]
  | .control m => s.onRoom (.control m)
  | .enterRoom m => s.onRoom (.enterRoom roleId m now)
  | _ => return s

def step (s : Mail) : MailEvent → Except Fault Mail
  | .connect roleId =>
    match s.clients roleId with
    | some _ => return s
    | none => do
      let app ← ClientApp.new roleId
      return s.setClient roleId ⟨app.idle, [], []⟩
  | .call roleId call =>
    match s.clients roleId with
    | none => return s
    | some client => do
      let (msg, app) ← client.app.call call
      return s.setClient roleId { client with app := app, up := client.up ++ msg.toList }
  | .serve roleId now =>
    match s.clients roleId with
    | some ⟨app, m :: up, down⟩ => (s.setClient roleId ⟨app, up, down⟩).handle roleId now m
    | _ => return s
  | .main => s.onRoom .main
  | .send roleId =>
    match s.out roleId, s.clients roleId with
    | post :: out, some client => do
      let msg ← post.message s.room.room.inputs
      return { s.setClient roleId { client with down := client.down ++ [msg] } with
        out := Function.update s.out roleId out }
    | _, _ => return s
  | .receive roleId now =>
    match s.clients roleId with
    | some ⟨app, up, m :: down⟩ => do
      let app ← app.dispatch ⟨m.base.roleId, m⟩ now
      return s.setClient roleId ⟨app, up, down⟩
    | _ => return s

/-- A call of `EnterRoom` is served between two calls of `Update`. -/
def BetweenUpdates (s : Mail) : MailEvent → Prop
  | .serve roleId _ => ∀ client ∈ s.clients roleId, ∀ m ∈ client.up.head?,
    m.enterRoom?.isSome → s.room.main = .outside
  | _ => True

end Mail

/-- What an event of a player is to the mail service, if it is anything. -/
def ConnectedClient.mailEvents (s : ConnectedClient) : ClientEvent → List MailEvent
  | .call call => [.call s.app.roleId call]
  | .dispatch now => s.dispatching.toList.map fun _ => .receive s.app.roleId now
  | .io _ | .turn | .tryPop => []

/-- What an event of the network is to the mail service, if it is anything. -/
def Session.mailEvents (s : Session) : SessionEvent → List MailEvent
  | .connect roleId => [.connect roleId]
  | .dispatch k now =>
    (s.server.recvMsgDispatcher.current k).toList.map fun x => .serve x.msg.dispatchId now
  | .main => [.main]
  | .sendDispatch k => (s.sendMsgDispatcher.current k).toList.map fun x => .send x.msg.dispatchId
  | .client i e => s.clients[i]?.toList.flatMap (·.mailEvents e)
  | .accept _ | .read .. | .turn | .tryPop _ | .sendTryPop _ | .io _ | .clientRead .. => []

end GameNetwork
