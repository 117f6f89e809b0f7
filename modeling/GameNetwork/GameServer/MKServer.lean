import GameNetwork.GameServer.RoleRouting
import GameNetwork.Message.CanonicalFrames
import GameNetwork.Network.NewMessage
import GameNetwork.Network.TracedDispatch

/-!
# The server from its sockets to its workers

`GameServer/MKServer.h`, `GameServer/MKServer.cpp`: the tables of the server,
the receive buffer of each connection, and the dispatcher that the handler of
a new message pushes to. Every message is noted with the connection it came
from and what `GetRoleId()` of that was when `OnNewData` handed it on.

One thread runs the accepts, the reads and the loop of `OnNewData`, so one
loop is under way at most, and nothing else happens to the connections
meanwhile. The workers go on between any two of its turns. `Inv.effect` says
what an event does, and `Inv.run_read` that a read and the turns after it are
the handler of `AsyncWaitData`.
-/

namespace GameNetwork

open Lib GameNetwork.Frame

/-- Where a message came from. -/
structure Origin where
  conn : ConnId
  /-- `GetRoleId()` of the connection. -/
  roleId : RoleId
  deriving DecidableEq, Repr

/-- A started server. -/
structure MKServer where
  gameServer : GameServer
  /-- The receive buffers of the connections. -/
  buffers : ConnId → Buffer
  /-- The connection whose `OnNewData` is under way. -/
  decoding : Option ConnId
  recvMsgDispatcher : TracedDispatcher Origin

inductive MKServerEvent where
  | accept (endpoint : String)
  /-- A read on the connection completes with these bytes. -/
  | read (c : ConnId) (bytes : List Byte)
  /-- The loop of `OnNewData` goes round. -/
  | turn
  | readError (c : ConnId) (ec : ErrorCode)
  /-- Worker `k` tries to take a message. -/
  | tryPop (k : Nat)
  /-- Worker `k` has the message it took dispatched. -/
  | dispatch (k : Nat)
  deriving DecidableEq, Repr

/-- `GetRoleId()`. -/
def GameServer.getRoleId (s : GameServer) (c : ConnId) : RoleId :=
  s.conns[c]?.elim 0 (·.game.roleId)

namespace MKServer

def new (serverName : String) (recvThreadNum : BitVec 32) : MKServer where
  gameServer := .new serverName
  buffers := fun _ => Buffer.new defaultBufferSize
  decoding := none
  recvMsgDispatcher := .new recvThreadNum

/-- The bytes of a connection that are held and not yet read. -/
def held (s : MKServer) (c : ConnId) : List Byte := (s.buffers c).readable

/-- What has been pushed, in order. -/
abbrev pushed (s : MKServer) : List (Traced Origin) := s.recvMsgDispatcher.pushed

/-- `on_new_msg_with_buffer_func_`, called by a connection. -/
def onNewMsg (s : MKServer) (c : ConnId) (ptr : BaseMsgWithBuffer) : Except Fault MKServer := do
  match ← transmitMessage ptr with
  | none => .error .nullDereference
  | some msg =>
    let d ← s.recvMsgDispatcher.push ⟨c, s.gameServer.getRoleId c⟩ msg.base.roleId msg
    return { s with recvMsgDispatcher := d }

/-- A callback that `OnNewData` makes. -/
def onCall (s : MKServer) (c : ConnId) : ConnCall → Except Fault MKServer
  | .register roleId => return { s with gameServer := s.gameServer.addConnToRoleMap roleId c }
  | .newMsg ptr => s.onNewMsg c ptr

/-- One turn of the loop of `OnNewData`. -/
def onTurn (s : MKServer) (c : ConnId) (conn : ServerConn) : Except Fault MKServer := do
  match ← conn.game.turn (s.buffers c) with
  | .inl buffer =>
    return { s with buffers := Function.update s.buffers c buffer, decoding := none }
  | .inr (r, more) =>
    let s := { s with
      gameServer := { s.gameServer with
        conns := s.gameServer.conns.set c { conn with game := r.conn } }
      buffers := Function.update s.buffers c r.buffer
      decoding := if more then some c else none }
    r.calls.foldlM (fun s call => s.onCall c call) s

/-- One event. While a loop is under way, nothing is accepted and no read completes. -/
def step (s : MKServer) : MKServerEvent → Except Fault MKServer
  | .accept endpoint =>
    if s.decoding.isSome then return s
    else return { s with gameServer := s.gameServer.onNewClient endpoint }
  | .read c bytes =>
    if s.decoding.isSome ∨ s.gameServer.armedConn c = none then return s
    else if s.gameServer.owned c then do
      let buffer ← (s.buffers c).storeRead bytes
      return { s with buffers := Function.update s.buffers c buffer, decoding := some c }
    else .error .danglingObject
  | .turn =>
    match s.decoding.bind fun c => (s.gameServer.armedConn c).map (c, ·) with
    | none => return s
    | some (c, conn) => s.onTurn c conn
  | .readError c ec =>
    if s.decoding.isSome then return s
    else do
      let gameServer ← s.gameServer.step (.readError c ec)
      return { s with gameServer := gameServer }
  | .tryPop k => return { s with recvMsgDispatcher := s.recvMsgDispatcher.tryPop k }
  | .dispatch k => do
    let d ← s.recvMsgDispatcher.dispatch k
    return { s with recvMsgDispatcher := d }

/-- The loop begins on what a read has stored. -/
def stored (s : MKServer) (c : ConnId) (buffer : Buffer) : MKServer :=
  { s with buffers := Function.update s.buffers c buffer, decoding := some c }

/-- The loop ends, and the last turn drops `n` bytes. -/
def stopped (s : MKServer) (c : ConnId) (n : Nat) : MKServer :=
  { s with buffers := Function.update s.buffers c ((s.buffers c).addReadIndex n), decoding := none }

/-- What the turn leaves that makes `m` of the frame at the front. -/
def handedOn (s : MKServer) (c : ConnId) (conn : ServerConn) (m : Message) : MKServer :=
  { s with
    gameServer := s.gameServer.onMessage c conn m.base.roleId
    buffers := Function.update s.buffers c ((s.buffers c).addReadIndex ((packSize (s.held c)).toNat + 4))
    recvMsgDispatcher := s.recvMsgDispatcher.pushOf
      ⟨⟨m.base.roleId, m⟩, ⟨c, (conn.game.takeRole m.base.roleId).roleId⟩⟩ }

end MKServer

/-! ## A frame that becomes a message -/

/-- A frame stands at the front that the decoder accepts and `TransmitMessage` makes a message of. -/
structure Deliverable (s : List Byte) : Prop where
  accepted : Accepted s
  type_ne : messageType s ≠ .default
  body : 25 ≤ (packSize s).toNat

/-- `m` is what `TransmitMessage` makes of the frame at the front, with its header. -/
structure FrameOf (s : List Byte) (m : Message) : Prop where
  transmit : transmitMessage (received s) = .ok (some m)
  base : m.base = header s

theorem Deliverable.frameOf {s : List Byte} (h : Deliverable s) : ∃ m, FrameOf s m := by
  have hclass := (hasClass_iff h.accepted.type_ok).mpr h.type_ne
  have hbody := h.body
  obtain ⟨m, hm⟩ := Option.isSome_iff_exists.mp
    ((transmitted_isSome (header s) (received s).bodyBuffer.readable).mpr hclass)
  refine ⟨m, ?_, (base_transmitted hm).1⟩
  rw [transmitMessage_received h.accepted, if_neg (by omega), hm]

/-- For any other accepted frame the handler of a new message fails. -/
theorem Deliverable.of_transmit {s : List Byte} {m : Message} (hacc : Accepted s)
    (h : transmitMessage (received s) = .ok (some m)) : Deliverable s := by
  rw [transmitMessage_received hacc] at h
  split at h
  · cases h
  · next hbody =>
    have hclass : (messageType s).HasClass := by
      have hsome : (transmitted (header s) (received s).bodyBuffer.readable).isSome := by
        rw [Except.ok.inj h]
        rfl
      exact (transmitted_isSome _ _).mp hsome
    refine ⟨hacc, (hasClass_iff hacc.type_ok).mp hclass, ?_⟩
    by_contra hlt
    exact hbody ⟨hclass, by omega⟩

/-- The frame of a message is deliverable, whatever follows it. -/
theorem deliverable_frame {m : Message} (hm : m.AsConstructed) (t : List Byte) :
    Deliverable (m.frame ++ t) ∧ header (m.frame ++ t) = m.base := by
  have hlen := length_frame hm
  have hheader : header (m.frame ++ t) = m.base :=
    (header_append (by omega) t).trans (header_frame m)
  have hacc := (accepted_frame hm).append t
  have hclass : (messageType (m.frame ++ t)).HasClass := by
    have htype : messageType (m.frame ++ t) = m.base.messageType :=
      congrArg BaseMessage.messageType hheader
    rw [htype]
    exact (base_of_asConstructed hm).2
  refine ⟨⟨hacc, (hasClass_iff hacc.type_ok).mp hclass, ?_⟩, hheader⟩
  rw [packSize_append (by omega), packSize_frame_toNat hm]

/-! ## The role of a connection -/

namespace GameServer

variable {s : GameServer} {c : ConnId} {conn : ServerConn}

theorem getRoleId_of_armed (hc : s.armedConn c = some conn) : s.getRoleId c = conn.game.roleId := by
  rw [getRoleId, (armedConn_eq_some.mp hc).1]
  rfl

theorem getRoleId_set (hc : s.armedConn c = some conn) {t : GameServer} {x : ServerConn}
    (ht : t.conns = s.conns.set c x) : t.getRoleId = Function.update s.getRoleId c x.game.roleId := by
  funext c'
  unfold getRoleId
  rw [ht]
  by_cases h : c' = c
  · subst h
    have hlt := (List.getElem?_eq_some_iff.mp (armedConn_eq_some.mp hc).1).1
    rw [List.getElem?_set_self hlt, Function.update_self]
    rfl
  · rw [List.getElem?_set_ne (Ne.symm h), Function.update_of_ne h]

/-- A new connection has no role. -/
theorem getRoleId_onNewClient (endpoint : String) : (s.onNewClient endpoint).getRoleId = s.getRoleId := by
  funext c
  unfold getRoleId onNewClient
  dsimp only
  rcases Nat.lt_trichotomy c s.conns.length with hlt | rfl | hgt
  · rw [List.getElem?_append_left hlt]
  · rw [List.getElem?_concat_length, List.getElem?_eq_none (Nat.le_refl _)]
    rfl
  · rw [List.getElem?_eq_none (by rw [List.length_append, List.length_singleton]; omega),
      List.getElem?_eq_none (Nat.le_of_lt hgt)]

theorem getRoleId_onMessage (hc : s.armedConn c = some conn) (roleId : RoleId) :
    (s.onMessage c conn roleId).getRoleId =
      Function.update s.getRoleId c (conn.game.takeRole roleId).roleId :=
  getRoleId_set (t := s.onMessage c conn roleId) hc (register_conns c _)

/-- The end of a receive loop takes no role. -/
theorem getRoleId_readError {s' : GameServer} {ec : ErrorCode} (h : s.step (.readError c ec) = .ok s') :
    s'.getRoleId = s.getRoleId := by
  rcases readError_cases h with rfl | ⟨conn, hc, hconns, -, -⟩
  · rfl
  · rw [getRoleId_set hc hconns, ← getRoleId_of_armed hc, Function.update_eq_self]

end GameServer

/-! ## The steps -/

namespace MKServer

/-- What an event can do that does not fail. -/
inductive Effect (s : MKServer) : MKServerEvent → MKServer → Prop where
  | nothing (e : MKServerEvent) : Effect s e s
  | accepted (endpoint : String) : Effect s (.accept endpoint)
      { s with gameServer := s.gameServer.onNewClient endpoint }
  | stored {c : ConnId} {bytes : List Byte} {buffer : Buffer} :
      (s.buffers c).storeRead bytes = .ok buffer → Effect s (.read c bytes) (s.stored c buffer)
  | handedOn {c : ConnId} {conn : ServerConn} {m : Message} : s.decoding = some c →
      s.gameServer.armedConn c = some conn → Deliverable (s.held c) → FrameOf (s.held c) m →
        Effect s .turn (s.handedOn c conn m)
  | stopped (c : ConnId) (n : Nat) : Effect s .turn (s.stopped c n)
  | closed {c : ConnId} {ec : ErrorCode} {gameServer : GameServer} :
      s.gameServer.step (.readError c ec) = .ok gameServer → Effect s (.readError c ec)
        { s with gameServer := gameServer }
  | taken (k : Nat) : Effect s (.tryPop k)
      { s with recvMsgDispatcher := s.recvMsgDispatcher.tryPop k }
  | finished {k : Nat} {x : Traced Origin} : s.recvMsgDispatcher.current k = some x →
      Effect s (.dispatch k) { s with recvMsgDispatcher := s.recvMsgDispatcher.finished k x }

/-- What every step keeps of the parts. -/
structure Inv (threadNum : BitVec 32) (s : MKServer) : Prop where
  routing : s.gameServer.RoutingInv
  ready : ∀ c conn, (⟨conn, s.buffers c⟩ : Receiver).Ready
  recv : s.recvMsgDispatcher.Inv threadNum

theorem inv_new (serverName : String) {threadNum : BitVec 32} (hpos : threadNum ≠ 0) :
    Inv threadNum (new serverName threadNum) :=
  ⟨GameServer.routingInv_new serverName, fun _ conn => ready_start conn, TracedDispatcher.inv_new hpos⟩

section Step

variable {threadNum : BitVec 32} {s : MKServer} {c : ConnId} {conn : ServerConn}

/-- The handler is the one that `MKServer` sets, with a note of the connection. -/
theorem onNewMsg_dispatcher (s : MKServer) (c : ConnId) (ptr : BaseMsgWithBuffer) :
    (s.onNewMsg c ptr).map (·.recvMsgDispatcher.dispatcher) =
      MKServer.onNewMsgWithBuffer s.recvMsgDispatcher.dispatcher ptr := by
  unfold onNewMsg MKServer.onNewMsgWithBuffer GameNetwork.onNewMsg TracedDispatcher.push
  simp only [bind, Except.bind]
  cases transmitMessage ptr with
  | error e => rfl
  | ok msg =>
    cases msg with
    | none => rfl
    | some m =>
      dsimp only
      cases s.recvMsgDispatcher.dispatcher.push m.base.roleId (some m) <;> rfl

theorem onNewMsg_eq (h : s.recvMsgDispatcher.Inv threadNum) (c : ConnId) {ptr : BaseMsgWithBuffer}
    {m : Message} (hm : transmitMessage ptr = .ok (some m)) :
    s.onNewMsg c ptr = .ok { s with
      recvMsgDispatcher := s.recvMsgDispatcher.pushOf
        ⟨⟨m.base.roleId, m⟩, ⟨c, s.gameServer.getRoleId c⟩⟩ } := by
  unfold onNewMsg
  rw [hm]
  show (s.recvMsgDispatcher.push _ _ _).bind _ = _
  rw [h.push_eq]
  rfl

theorem foldlM_registration (s : MKServer) (c : ConnId) (game : GameConnection) (roleId : RoleId) :
    (game.registration roleId).foldlM (fun s call => s.onCall c call) s =
      .ok { s with gameServer := s.gameServer.register c (game.registration roleId) } := by
  unfold GameConnection.registration
  split <;> rfl

/-- One buffer changes. -/
theorem Inv.ready_update (h : Inv threadNum s) {buffer : Buffer}
    (hb : ∀ conn, (⟨conn, buffer⟩ : Receiver).Ready) (c' : ConnId) (conn : GameConnection) :
    (⟨conn, Function.update s.buffers c buffer c'⟩ : Receiver).Ready := by
  by_cases hc : c' = c
  · subst hc
    rw [Function.update_self]
    exact hb conn
  · rw [Function.update_of_ne hc]
    exact h.ready c' conn

/-- The content of a receive buffer is small. -/
theorem Inv.turn_answers (h : Inv threadNum s) (c : ConnId) (game : GameConnection) :
    game.TurnAnswers (s.buffers c) (frameVerdict (s.held c)) := by
  have hready := h.ready c game
  exact GameConnection.turn_answers hready.valid
    (Nat.lt_of_le_of_lt hready.length_le (by decide)) game

/-- The connection has the role the frame gives it. -/
def roleTaken (s : MKServer) (c : ConnId) (conn : ServerConn) : MKServer :=
  { s with
    gameServer := s.gameServer.onMessage c conn (header (s.held c)).roleId
    buffers := Function.update s.buffers c ((s.buffers c).addReadIndex ((packSize (s.held c)).toNat + 4))
    decoding := some c }

/-- A turn on an accepted frame makes the callbacks that concern the tables, and then that of the
message. -/
theorem Inv.onTurn_accepted (h : Inv threadNum s) (hacc : Accepted (s.held c)) :
    s.onTurn c conn = (s.roleTaken c conn).onNewMsg c (received (s.held c)) := by
  have hturn := h.turn_answers c conn.game
  rw [frameVerdict_accept.mpr ⟨hacc, rfl, rfl⟩] at hturn
  unfold onTurn
  rw [show conn.game.turn (s.buffers c) = _ from hturn]
  show List.foldlM _ _ (_ ++ [_]) = _
  rw [List.foldlM_append, foldlM_registration]
  show ((s.roleTaken c conn).onNewMsg c (received (s.held c))).bind _ = _
  cases (s.roleTaken c conn).onNewMsg c (received (s.held c)) <;> rfl

/-- **A turn that hands on a message.** -/
theorem Inv.onTurn_deliverable (h : Inv threadNum s) (hdec : s.decoding = some c)
    (hc : s.gameServer.armedConn c = some conn) (hd : Deliverable (s.held c)) :
    ∃ m, FrameOf (s.held c) m ∧ s.onTurn c conn = .ok (s.handedOn c conn m) := by
  obtain ⟨m, hm⟩ := hd.frameOf
  refine ⟨m, hm, ?_⟩
  have hrole : (s.roleTaken c conn).gameServer.getRoleId c =
      (conn.game.takeRole (header (s.held c)).roleId).roleId := by
    have hget := GameServer.getRoleId_onMessage hc (header (s.held c)).roleId
    exact (congrFun hget c).trans (Function.update_self ..)
  have hrecv : (s.roleTaken c conn).recvMsgDispatcher.Inv threadNum := h.recv
  rw [h.onTurn_accepted hd.accepted, onNewMsg_eq hrecv c hm.transmit, hrole, ← hm.base]
  unfold handedOn roleTaken
  rw [hm.base, hdec]

theorem onTurn_stop {n : Nat}
    (hn : conn.game.turn (s.buffers c) = .ok (.inl ((s.buffers c).addReadIndex n))) :
    s.onTurn c conn = .ok (s.stopped c n) := by
  unfold onTurn
  rw [hn]
  rfl

/-- **What a turn does.** It hands on a message, or fails, or ends the loop. -/
theorem Inv.onTurn_cases (h : Inv threadNum s) (hdec : s.decoding = some c)
    (hc : s.gameServer.armedConn c = some conn) :
    (Deliverable (s.held c) ∧
      ∃ m, FrameOf (s.held c) m ∧ s.onTurn c conn = .ok (s.handedOn c conn m)) ∨
    (¬ Deliverable (s.held c) ∧
      ((∃ e, s.onTurn c conn = .error e) ∨ ∃ n, s.onTurn c conn = .ok (s.stopped c n))) := by
  by_cases hd : Deliverable (s.held c)
  · exact .inl ⟨hd, h.onTurn_deliverable hdec hc hd⟩
  refine .inr ⟨hd, ?_⟩
  have hturn := h.turn_answers c conn.game
  cases hverdict : frameVerdict (s.held c) with
  | more =>
    rw [hverdict] at hturn
    exact .inr ⟨0, onTurn_stop (by rw [Buffer.addReadIndex_zero]; exact hturn)⟩
  | reject n =>
    rw [hverdict] at hturn
    exact .inr ⟨n, onTurn_stop hturn⟩
  | fault =>
    rw [hverdict] at hturn
    obtain ⟨cond, hcond⟩ := hturn
    refine .inl ⟨.assertion cond, ?_⟩
    unfold onTurn
    rw [hcond]
    rfl
  | accept n b =>
    obtain ⟨hacc, -, -⟩ := frameVerdict_accept.mp hverdict
    rw [h.onTurn_accepted hacc]
    unfold onNewMsg
    cases hm : transmitMessage (received (s.held c)) with
    | error e => exact .inl ⟨e, rfl⟩
    | ok msg =>
      cases msg with
      | none => exact .inl ⟨_, rfl⟩
      | some m => exact absurd (.of_transmit hacc hm) hd

/-- The turn of the loop that is under way. -/
theorem step_turn (hdec : s.decoding = some c) (hc : s.gameServer.armedConn c = some conn) :
    s.step .turn = s.onTurn c conn := by
  simp only [step, hdec, Option.bind_some, hc, Option.map_some]

theorem Inv.step_dispatch (h : Inv threadNum s) (k : Nat) :
    s.step (.dispatch k) = .ok { s with
      recvMsgDispatcher := (s.recvMsgDispatcher.current k).elim s.recvMsgDispatcher
        (s.recvMsgDispatcher.finished k) } := by
  show (s.recvMsgDispatcher.dispatch k).bind _ = _
  rw [h.recv.dispatch_eq]
  rfl

theorem Inv.handedOn (h : Inv threadNum s) (hc : s.gameServer.armedConn c = some conn)
    (hd : Deliverable (s.held c)) {m : Message} (hm : FrameOf (s.held c) m) :
    Inv threadNum (s.handedOn c conn m) where
  routing := GameServer.routingInv_onMessage h.routing hc _
  ready := h.ready_update (fun conn => (h.ready c conn).addReadIndex _)
  recv := by
    refine TracedDispatcher.inv_pushOf h.recv ?_
    show m.base.messageType.num < _
    rw [hm.base]
    exact hd.accepted.type_ok.2

/-- A read that is stored. -/
theorem Inv.storeRead (h : Inv threadNum s) {bytes : List Byte} {buffer : Buffer}
    (hb : (s.buffers c).storeRead bytes = .ok buffer) (game : GameConnection) :
    (⟨game, buffer⟩ : Receiver).Ready := by
  have hready := h.ready c game
  rw [Receiver.storeRead_eq hready] at hb
  split at hb
  · next hp =>
    cases hb
    exact Receiver.ready_arrived hready hp
  · cases hb

theorem Inv.stored (h : Inv threadNum s) {bytes : List Byte} {buffer : Buffer}
    (hb : (s.buffers c).storeRead bytes = .ok buffer) : Inv threadNum (s.stored c buffer) :=
  ⟨h.routing, h.ready_update fun game => h.storeRead hb game, h.recv⟩

/-- A read on an open connection. -/
theorem step_read (hdec : s.decoding = none) (hc : s.gameServer.armedConn c = some conn)
    (howned : s.gameServer.owned c = true) {bytes : List Byte} {buffer : Buffer}
    (hb : (s.buffers c).storeRead bytes = .ok buffer) :
    s.step (.read c bytes) = .ok (s.stored c buffer) := by
  simp only [step]
  rw [if_neg (by simp [hdec, hc]), if_pos howned, hb]
  rfl

/-- As long as there is room, what was read joins what was held. -/
theorem Inv.storeRead_ok (h : Inv threadNum s) {bytes : List Byte}
    (hp : bytes.length ≤ (s.buffers c).writableSize) :
    ∃ buffer, (s.buffers c).storeRead bytes = .ok buffer ∧
      (s.stored c buffer).held c = s.held c ++ bytes := by
  have hready := h.ready c ⟨0, true⟩
  refine ⟨_, (Receiver.storeRead_eq hready bytes).trans (if_pos hp), ?_⟩
  simp only [held, MKServer.stored, Function.update_self]
  exact Receiver.readable_arrived hready hp

theorem Inv.held_handedOn (h : Inv threadNum s) (c : ConnId) (conn : ServerConn) (m : Message) :
    (s.handedOn c conn m).held c = (s.held c).drop ((packSize (s.held c)).toNat + 4) := by
  simp only [MKServer.handedOn, held, Function.update_self]
  exact Buffer.readable_addReadIndex (h.ready c conn.game).valid _

theorem armedConn_handedOn (hc : s.gameServer.armedConn c = some conn) (m : Message) :
    (s.handedOn c conn m).gameServer.armedConn c =
      some { conn with game := conn.game.takeRole m.base.roleId } := by
  have hset := GameServer.armedConn_set_self hc (s.gameServer.onMessage c conn m.base.roleId)
    { conn with game := conn.game.takeRole m.base.roleId } (GameServer.register_conns c _)
  exact hset.trans (if_pos (GameServer.armedConn_eq_some.mp hc).2)

/-- What the whole loop does for which `OnNewData` gives `r`. -/
structure Looped (s s' : MKServer) (c : ConnId) (conn : ServerConn) (r : DataResult) : Prop where
  ended : s'.decoding = none
  buffer : s'.buffers c = r.buffer
  conn_eq : s'.gameServer.armedConn c = some { conn with game := r.conn }
  pushed : ∃ xs, s'.pushed = s.pushed ++ xs ∧ List.Forall₂ (fun x ptr =>
    x.note.conn = c ∧ transmitMessage ptr = .ok (some x.msg.baseMessagePtr)) xs (ConnCall.messages r.calls)

/-- A loop that ends at once. -/
theorem looped_stop (hdec : s.decoding = some c) (hc : s.gameServer.armedConn c = some conn) {n : Nat}
    (hn : conn.game.turn (s.buffers c) = .ok (.inl ((s.buffers c).addReadIndex n))) :
    s.step .turn = .ok (s.stopped c n) ∧
      Looped s (s.stopped c n) c conn ⟨conn.game, (s.buffers c).addReadIndex n, []⟩ :=
  ⟨(step_turn hdec hc).trans (onTurn_stop hn), rfl, Function.update_self .., hc, [],
    (List.append_nil _).symm, .nil⟩

/-- **The turns of a loop are the loop.** While no handler fails, they push what `OnNewData` hands on
and leave what it leaves. -/
theorem Inv.run_turns (h : Inv threadNum s) (hdec : s.decoding = some c)
    (hc : s.gameServer.armedConn c = some conn) {r : DataResult}
    (hr : conn.game.onNewData (s.buffers c) = .ok r)
    (hms : ∀ ptr ∈ ConnCall.messages r.calls, ∃ m, transmitMessage ptr = .ok (some m)) :
    ∃ s', run step s (List.replicate ((ConnCall.messages r.calls).length + 1) .turn) = .ok s' ∧
      Looped s s' c conn r := by
  induction hl : (s.held c).length using Nat.strongRecOn generalizing s conn r with
  | ind l ih =>
  have hv := (h.ready c conn.game).valid
  have hturn := h.turn_answers c conn.game
  have stops : ∀ n, conn.game.turn (s.buffers c) = .ok (.inl ((s.buffers c).addReadIndex n)) →
      ∃ s', run step s (List.replicate ((ConnCall.messages r.calls).length + 1) .turn) = .ok s' ∧
        Looped s s' c conn r := by
    intro n hn
    rw [GameConnection.onNewData_stop hv hn] at hr
    cases hr
    obtain ⟨hs', hlooped⟩ := looped_stop hdec hc hn
    exact ⟨_, run_cons_eq_ok.mpr ⟨_, hs', rfl⟩, hlooped⟩
  cases hverdict : frameVerdict (s.held c) with
  | more =>
    rw [hverdict] at hturn
    exact stops 0 (by rw [Buffer.addReadIndex_zero]; exact hturn)
  | reject n =>
    rw [hverdict] at hturn
    exact stops n hturn
  | fault =>
    rw [hverdict] at hturn
    obtain ⟨cond, hcond⟩ := hturn
    rw [GameConnection.onNewData_fault hv hcond] at hr
    cases hr
  | accept n b =>
    obtain ⟨hacc, rfl, rfl⟩ := frameVerdict_accept.mp hverdict
    rw [hverdict] at hturn
    rw [GameConnection.onNewData_handedOn hv hturn] at hr
    obtain ⟨rest, hrest, rfl⟩ := map_eq_ok.mp hr
    have hmsgs : ConnCall.messages ((conn.game.handedOn (s.buffers c)
        ((packSize (s.held c)).toNat + 4)).calls ++ rest.calls) =
          received (s.held c) :: ConnCall.messages rest.calls := by
      rw [ConnCall.messages_append, GameConnection.messages_handedOn]
      rfl
    rw [hmsgs] at hms ⊢
    obtain ⟨m', hm'⟩ := hms _ List.mem_cons_self
    have hd : Deliverable (s.held c) := .of_transmit hacc hm'
    obtain ⟨m, hm, hturn'⟩ := h.onTurn_deliverable hdec hc hd
    -- the rest of the loop, in the state this turn leaves
    have hrest' : (conn.game.takeRole m.base.roleId).onNewData ((s.handedOn c conn m).buffers c) =
        .ok rest := by
      rw [hm.base, show (s.handedOn c conn m).buffers c = _ from Function.update_self ..]
      exact hrest
    have hshort : ((s.handedOn c conn m).held c).length < l := by
      have hwhole := hacc.whole
      rw [h.held_handedOn, List.length_drop]
      omega
    obtain ⟨s', hs', hlooped⟩ := ih _ hshort (h.handedOn hc hd hm) hdec (armedConn_handedOn hc m)
      hrest' (fun ptr hptr => hms ptr (List.mem_cons_of_mem _ hptr)) rfl
    obtain ⟨xs, hpushed, hxs⟩ := hlooped.pushed
    refine ⟨s', run_cons_eq_ok.mpr ⟨_, (step_turn hdec hc).trans hturn', hs'⟩, hlooped.ended,
      hlooped.buffer, hlooped.conn_eq, _, hpushed.trans (List.append_assoc ..), ?_⟩
    rw [hmsgs]
    exact .cons ⟨rfl, hm.transmit⟩ hxs

/-- **A read and the turns of its loop are the handler of `AsyncWaitData`.** -/
theorem Inv.run_read (h : Inv threadNum s) (hdec : s.decoding = none)
    (hc : s.gameServer.armedConn c = some conn) (howned : s.gameServer.owned c = true)
    {bytes : List Byte} {r : ReadDone}
    (hr : Receiver.onRead ⟨conn.game, s.buffers c⟩ (.data bytes) = .ok r)
    (hms : ∀ ptr ∈ ConnCall.messages r.calls, ∃ m, transmitMessage ptr = .ok (some m)) :
    ∃ s', run step s (.read c bytes ::
        List.replicate ((ConnCall.messages r.calls).length + 1) .turn) = .ok s' ∧
      Looped s s' c conn ⟨r.receiver.conn, r.receiver.buffer, r.calls⟩ := by
  rw [Receiver.onRead_storeRead] at hr
  obtain ⟨buffer, hb, hr⟩ := bind_eq_ok.mp hr
  obtain ⟨done, hdone, rfl⟩ := map_eq_ok.mp hr
  have hdone' : conn.game.onNewData ((s.stored c buffer).buffers c) = .ok done := by
    rw [show (s.stored c buffer).buffers c = buffer from Function.update_self ..]
    exact hdone
  obtain ⟨s', hs', hlooped⟩ := (h.stored hb).run_turns rfl hc hdone' hms
  exact ⟨s', run_cons_eq_ok.mpr ⟨_, step_read hdec hc howned hb, hs'⟩, hlooped.ended, hlooped.buffer,
    hlooped.conn_eq, hlooped.pushed⟩

/-- **What an event does.** -/
theorem Inv.effect (h : Inv threadNum s) {e : MKServerEvent} {s' : MKServer}
    (hs : s.step e = .ok s') : Effect s e s' := by
  cases e with
  | accept endpoint =>
    simp only [step] at hs
    split at hs
    · cases hs; exact .nothing _
    · cases hs; exact .accepted endpoint
  | read c bytes =>
    simp only [step] at hs
    split at hs
    · cases hs; exact .nothing _
    · split at hs
      · obtain ⟨buffer, hb, hs⟩ := bind_eq_ok.mp hs
        cases hs
        exact .stored hb
      · cases hs
  | turn =>
    simp only [step] at hs
    split at hs
    · cases hs; exact .nothing _
    · next c conn hloop =>
      obtain ⟨c', hdec, hc⟩ := Option.bind_eq_some_iff.mp hloop
      obtain ⟨conn', hc, heq⟩ := Option.map_eq_some_iff.mp hc
      cases heq
      rcases h.onTurn_cases hdec hc with ⟨hd, m, hm, heq⟩ | ⟨-, ⟨e, heq⟩ | ⟨n, heq⟩⟩ <;>
        rw [heq] at hs <;> cases hs
      · exact .handedOn hdec hc hd hm
      · exact .stopped c n
  | readError c ec =>
    simp only [step] at hs
    split at hs
    · cases hs; exact .nothing _
    · obtain ⟨gameServer, hg, hs⟩ := bind_eq_ok.mp hs
      cases hs
      exact .closed hg
  | tryPop k =>
    cases hs
    exact .taken k
  | dispatch k =>
    rw [h.step_dispatch] at hs
    cases hs
    cases hk : s.recvMsgDispatcher.current k with
    | none => exact .nothing _
    | some x => exact .finished hk

/-- **One step keeps the parts.** -/
theorem inv_step (h : Inv threadNum s) {e : MKServerEvent} {s' : MKServer} (hs : s.step e = .ok s') :
    Inv threadNum s' := by
  cases h.effect hs with
  | nothing => exact h
  | accepted endpoint =>
    exact ⟨GameServer.routingInv_step (e := .accept endpoint) h.routing rfl, h.ready, h.recv⟩
  | stored hb => exact h.stored hb
  | handedOn _ hc hd hm => exact h.handedOn hc hd hm
  | stopped c n =>
    exact ⟨h.routing, h.ready_update fun game => (h.ready c game).addReadIndex n, h.recv⟩
  | closed hg => exact ⟨GameServer.routingInv_step h.routing hg, h.ready, h.recv⟩
  | taken k => exact ⟨h.routing, h.ready, TracedDispatcher.inv_tryPop h.recv k⟩
  | finished hk => exact ⟨h.routing, h.ready, TracedDispatcher.inv_finished h.recv hk⟩

/-! ### A stream of frames -/

/-- **A turn on the frame of a message** hands the message on. -/
theorem Inv.turn_frame (h : Inv threadNum s) (hdec : s.decoding = some c)
    (hc : s.gameServer.armedConn c = some conn) {m : Message} (hm : m.AsConstructed) {t : List Byte}
    (hheld : s.held c = m.frame ++ t) :
    s.step .turn = .ok (s.handedOn c conn m) ∧ (s.handedOn c conn m).held c = t ∧
      Inv threadNum (s.handedOn c conn m) := by
  obtain ⟨hd, -⟩ := deliverable_frame hm t
  rw [← hheld] at hd
  have hframe := isFrame_frame hm
  have hverdict : frameVerdict (s.held c) = .accept m.frame.length (received m.frame) := by
    rw [hheld]
    exact frameDecoder.accept_append hframe.whole t
  obtain ⟨-, hlen, hreceived⟩ := frameVerdict_accept.mp hverdict
  obtain ⟨m', hm', hturn⟩ := h.onTurn_deliverable hdec hc hd
  obtain rfl : m' = m := by
    have htransmit := hm'.transmit
    rw [← hreceived, transmitMessage_frame hm] at htransmit
    exact (Option.some.inj (Except.ok.inj htransmit)).symm
  refine ⟨(step_turn hdec hc).trans hturn, ?_, h.handedOn hc hd hm'⟩
  rw [h.held_handedOn, ← hlen, hheld, List.drop_left]

/-- A turn on less than a frame ends the loop. -/
theorem Inv.turn_more (h : Inv threadNum s) (hdec : s.decoding = some c)
    (hc : s.gameServer.armedConn c = some conn) (hmore : frameVerdict (s.held c) = .more) :
    s.step .turn = .ok { s with decoding := none } := by
  have hturn := h.turn_answers c conn.game
  rw [hmore] at hturn
  have hstop : conn.game.turn (s.buffers c) = .ok (.inl ((s.buffers c).addReadIndex 0)) := by
    rw [Buffer.addReadIndex_zero]
    exact hturn
  rw [step_turn hdec hc, onTurn_stop hstop, stopped, Buffer.addReadIndex_zero, Function.update_eq_self]

end Step

end MKServer

end GameNetwork
