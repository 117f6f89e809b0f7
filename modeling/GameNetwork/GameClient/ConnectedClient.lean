import GameNetwork.GameClient.GameClient
import GameNetwork.Network.Channel
import GameNetwork.Network.DispatchOrder
import GameNetwork.Network.NewMessage
import GameNetwork.Network.Wire

/-!
# A client with its connection

What `GameClient::Connect` (`GameClient/GameClient.cpp`) puts together: the
game of one player, the connection with its receive buffer, the writes that
`SendMsgAsync` starts, and the one worker of the dispatcher. The thread that
runs the connection and the worker go on between any two events.
-/

namespace GameNetwork

open Lib GameNetwork.Frame

structure ConnectedClient where
  app : ClientApp
  /-- The client as it sends; its connection is number 0. -/
  sending : Sending
  /-- The receive loop. -/
  receiver : Receiver
  /-- `OnNewData` is under way. -/
  decoding : Bool
  /-- How many bytes of the server's have been read. -/
  read : Nat

/-- What happens to the writes once they are started, and to the buffers they point into. -/
inductive IoEvent where
  | leaveScope (buffer : Nat)
  | overwrite (buffer offset : Nat) (byte : Byte)
  | transfer (c : ConnId) (i n : Nat)
  deriving DecidableEq, Repr

def IoEvent.event : IoEvent → SendEvent
  | .leaveScope buffer => .leaveScope buffer
  | .overwrite buffer offset byte => .overwrite buffer offset byte
  | .transfer c i n => .transfer c i n

inductive ClientEvent where
  | call (call : GameCall)
  | io (e : IoEvent)
  /-- The loop of `OnNewData` goes round. -/
  | turn
  /-- The worker tries to take a message. -/
  | tryPop
  /-- The worker has the message it took dispatched, at a time. -/
  | dispatch (now : BitVec 64)
  deriving DecidableEq, Repr

namespace ConnectedClient

def new (roleId : RoleId) : Except Fault ConnectedClient := do
  let app ← ClientApp.new roleId
  return {
    app := app
    sending := { Sending.new with connMap := Function.update (fun _ => none) roleId (some 0) }
    receiver := ⟨⟨0, false⟩, Buffer.new defaultBufferSize⟩
    decoding := false
    read := 0 }

/-- The bytes that are held and not decoded yet. -/
def held (s : ConnectedClient) : List Byte := s.receiver.buffer.readable

/-- The game calls. -/
def call (s : ConnectedClient) (call : GameCall) : Except Fault ConnectedClient := do
  match ← s.app.call call with
  | (none, app) => return { s with app := app }
  | (some msg, app) =>
    let sending ← s.sending.sendMsgAsync s.app.roleId msg
    return { s with app := app, sending := sending }

/-- The dispatcher goes on. -/
def onDispatcher (s : ConnectedClient) (d : MsgDispatcher) : ConnectedClient :=
  { s with app := { s.app with recvMsgDispatcher := d } }

/-- A callback that `OnNewData` makes. There is no `register_func_` on a client's connection. -/
def onCall (s : ConnectedClient) : ConnCall → Except Fault ConnectedClient
  | .register _ => return s
  | .newMsg ptr => do
    let d ← GameClient.onNewMsgWithBuffer s.app.recvMsgDispatcher ptr
    return s.onDispatcher d

/-- A read completes with these bytes. While a loop is under way, none does. -/
def receive (s : ConnectedClient) (bytes : List Byte) : Except Fault ConnectedClient :=
  if s.decoding then return s
  else do
    let buffer ← s.receiver.buffer.storeRead bytes
    return { s with receiver := { s.receiver with buffer := buffer }, decoding := true,
                    read := s.read + bytes.length }

/-- The loop of `OnNewData` goes round. -/
def turn (s : ConnectedClient) : Except Fault ConnectedClient :=
  if s.decoding then do
    match ← s.receiver.conn.turn s.receiver.buffer with
    | .inl buffer => return { s with receiver := { s.receiver with buffer := buffer }, decoding := false }
    | .inr (r, more) =>
      r.calls.foldlM (fun s call => s.onCall call)
        { s with receiver := ⟨r.conn, r.buffer⟩, decoding := more }
  else return s

/-- The worker tries to take a message. -/
def tryPop (s : ConnectedClient) : ConnectedClient :=
  let d := s.app.recvMsgDispatcher
  s.onDispatcher { d with msgThreads := d.msgThreads.modify 0 .tryPop }

/-- The message that the worker is dispatching. -/
def dispatching (s : ConnectedClient) : Option MsgForDispatch :=
  s.app.recvMsgDispatcher.msgThreads[0]?.bind (·.dispatching)

/-- The dispatch returns. -/
def finish (s : ConnectedClient) : ConnectedClient :=
  let d := s.app.recvMsgDispatcher
  s.onDispatcher { d with msgThreads := d.msgThreads.modify 0 .finish }

/-- The worker has the message it took dispatched. -/
def dispatch (s : ConnectedClient) (now : BitVec 64) : Except Fault ConnectedClient :=
  match s.dispatching with
  | none => return s
  | some msg => do
    let app ← s.app.dispatch msg now
    return { s with app := app }.finish

def step (s : ConnectedClient) : ClientEvent → Except Fault ConnectedClient
  | .call call => s.call call
  | .io e => do
    let sending ← s.sending.step e.event
    return { s with sending := sending }
  | .turn => s.turn
  | .tryPop => return s.tryPop
  | .dispatch now => s.dispatch now

/-- **asio's contract** for an event and the state it finds. -/
def WithinContract (s : ConnectedClient) : ClientEvent → Prop
  | .call (.popInput _) => True
  | .call _ => s.sending.Idle 0
  | .io e => s.sending.WithinContract e.event
  | _ => True

instance (s : ConnectedClient) : ∀ e, Decidable (s.WithinContract e)
  | .call (.popInput _) | .turn | .tryPop | .dispatch _ => .isTrue trivial
  | .call (.pushInput ..) | .call (.testDelay _) | .call (.enterRoom _) =>
    inferInstanceAs (Decidable (s.sending.Idle 0))
  | .io e => inferInstanceAs (Decidable (s.sending.WithinContract e.event))

/-! ## The player's end of the way from the server -/

/-- What the worker has, taken or queued. -/
def queue (s : ConnectedClient) : List MsgForDispatch :=
  s.app.recvMsgDispatcher.msgThreads.flatMap fun t => t.dispatching.toList ++ t.msgQueue

structure Inv (s : ConnectedClient) : Prop where
  connMap : s.sending.connMap s.app.roleId = some 0
  ready : s.receiver.Ready
  started : s.app.recvMsgDispatcher.started = true
  threadNum : s.app.recvMsgDispatcher.threadNum = 1
  /-- There is one worker. -/
  worker : ∃ t, s.app.recvMsgDispatcher.msgThreads = [t]
  constructed : s.app.Constructed

/-- What the player has been sent and has not dispatched yet: what its worker has, and what is on
the wire. -/
structure Inbox (s : ConnectedClient) (sent queued rest : List Message) : Prop where
  queue : s.queue = queued.map fun m => ⟨m.base.roleId, m⟩
  wire : Wire sent s.read s.held rest
  waits : s.decoding = true ∨ Waits s.held rest

/-- Nothing changes for the game or for the sending. -/
structure Silent (s s' : ConnectedClient) : Prop where
  app : s'.app.idle = s.app.idle
  sending : s'.sending = s.sending

section Steps

variable {s : ConnectedClient} {sent queued rest : List Message}

/-- The invariant speaks of the role, of the worker and of the messages that the client fills in. -/
theorem Inv.of_app {s' : ConnectedClient} (h : s.Inv) (hs : s.app.SameRole s'.app)
    (hconstructed : s'.app.Constructed) (hconnMap : s'.sending.connMap = s.sending.connMap)
    (hready : s'.receiver.Ready) (hworker : ∃ t, s'.app.recvMsgDispatcher.msgThreads = [t]) : s'.Inv :=
  ⟨by rw [hconnMap, hs.roleId]; exact h.connMap, hready, by rw [hs.started]; exact h.started,
    by rw [hs.threadNum]; exact h.threadNum, hworker, hconstructed⟩

/-- Only the worker, the receive loop or what is read changes. -/
theorem Inv.of_silent {s' : ConnectedClient} (h : s.Inv) (hs : Silent s s') (hready : s'.receiver.Ready)
    (hworker : ∃ t, s'.app.recvMsgDispatcher.msgThreads = [t]) : s'.Inv := by
  have hfields : ∀ {β : Type} (f : ClientApp → β), f s'.app.idle = f s.app.idle := fun f => congrArg f hs.app
  have hping : s'.app.pingMessagePtr = s.app.pingMessagePtr := hfields (·.pingMessagePtr)
  have hcontrol : s'.app.controlMessagePtr = s.app.controlMessagePtr := hfields (·.controlMessagePtr)
  refine h.of_app ⟨hfields (·.roleId), hfields (·.recvMsgDispatcher.started),
    hfields (·.recvMsgDispatcher.threadNum)⟩ ⟨?_, ?_⟩ (by rw [hs.sending]) hready hworker
  · rw [hping]
    exact h.constructed.ping
  · rw [hcontrol]
    exact h.constructed.control

theorem new_ok (roleId : RoleId) : ∃ s, new roleId = .ok s ∧ ClientApp.new roleId = .ok s.app ∧
    s.app.roleId = roleId ∧ s.Inv ∧ s.Inbox [] [] [] ∧ s.sending.Streams fun _ => [] := by
  have hconnMap : Function.update (fun _ : RoleId => (none : Option ConnId)) roleId (some 0) roleId =
    some 0 := Function.update_self ..
  refine ⟨_, rfl, rfl, rfl, ?_, ⟨rfl, .new, .inr Wire.waits_new⟩, ?_⟩
  · exact ⟨hconnMap, ready_start ⟨0, false⟩, rfl, rfl, ⟨_, rfl⟩, ⟨nofun, ⟨⟨rfl, rfl⟩, fun _ => rfl⟩⟩⟩
  · exact Sending.streams_new.of_sockets (Sending.inv_of_keeps Sending.inv_new
      (Sending.keepsBuffers_of_eq rfl) rfl) rfl

/-- **A read** puts the next bytes behind those that are held. -/
theorem receive_ok (h : s.Inv) (hbox : s.Inbox sent queued rest) {bytes : List Byte}
    (hb : bytes <+: (sent.map Message.frame).flatten.drop s.read)
    (hle : bytes.length ≤ s.receiver.buffer.writableSize) :
    ∃ s', s.receive bytes = .ok s' ∧ s'.Inv ∧ s'.Inbox sent queued rest ∧ Silent s s' := by
  unfold receive
  by_cases hdec : s.decoding = true
  · exact ⟨s, if_pos hdec, h, hbox, ⟨rfl, rfl⟩⟩
  · rw [if_neg hdec, Receiver.storeRead_eq h.ready, if_pos hle]
    have hready := Receiver.ready_arrived h.ready hle
    have hheld : (s.receiver.arrived bytes).readable = s.held ++ bytes :=
      Receiver.readable_arrived h.ready hle
    refine ⟨_, rfl, h.of_silent ⟨rfl, rfl⟩ hready h.worker, ⟨hbox.queue, ?_, .inl rfl⟩, ⟨rfl, rfl⟩⟩
    show Wire sent (s.read + bytes.length) (s.receiver.arrived bytes).readable rest
    rw [hheld]
    exact hbox.wire.receive hb

/-- The dispatcher takes every message. -/
theorem Inv.push_eq (h : s.Inv) (m : Message) :
    s.app.recvMsgDispatcher.push m.base.roleId (some m) =
      .ok (s.app.recvMsgDispatcher.pushed ⟨m.base.roleId, m⟩) := by
  obtain ⟨t, ht⟩ := h.worker
  refine MsgDispatcher.push_of_started ⟨fun _ => ?_, fun _ => ?_⟩ h.started _ _
  · rw [h.threadNum]
    decide
  · rw [h.threadNum, ht]
    exact Nat.le_refl 1

theorem Inv.queue_pushed (h : s.Inv) (msg : MsgForDispatch) :
    (s.onDispatcher (s.app.recvMsgDispatcher.pushed msg)).queue = s.queue ++ [msg] ∧
      ∃ t, (s.app.recvMsgDispatcher.pushed msg).msgThreads = [t] := by
  obtain ⟨t, ht⟩ := h.worker
  have hindex : s.app.recvMsgDispatcher.threadIndex msg.dispatchId = 0 := by
    rw [MsgDispatcher.threadIndex, h.threadNum, BitVec.toNat_umod]
    exact Nat.mod_one _
  have hthreads : (s.app.recvMsgDispatcher.pushed msg).msgThreads = [t.push msg] := by
    rw [MsgDispatcher.pushed, hindex, ht]
    rfl
  refine ⟨?_, _, hthreads⟩
  show (s.app.recvMsgDispatcher.pushed msg).msgThreads.flatMap _ = s.app.recvMsgDispatcher.msgThreads.flatMap _ ++ _
  rw [hthreads, ht]
  simp [MsgThread.push]

theorem Inv.onCall_newMsg (h : s.Inv) {ptr : BaseMsgWithBuffer} {m : Message}
    (hm : transmitMessage ptr = .ok (some m)) :
    s.onCall (.newMsg ptr) = .ok (s.onDispatcher (s.app.recvMsgDispatcher.pushed ⟨m.base.roleId, m⟩)) := by
  have hpush : GameClient.onNewMsgWithBuffer s.app.recvMsgDispatcher ptr =
      .ok (s.app.recvMsgDispatcher.pushed ⟨m.base.roleId, m⟩) := by
    unfold GameClient.onNewMsgWithBuffer onNewMsg
    rw [hm]
    exact h.push_eq m
  show (GameClient.onNewMsgWithBuffer s.app.recvMsgDispatcher ptr).bind _ = _
  rw [hpush]
  rfl

theorem foldlM_registration (s : ConnectedClient) (conn : GameConnection) (roleId : RoleId) :
    (conn.registration roleId).foldlM (fun s call => s.onCall call) s = .ok s := by
  unfold GameConnection.registration
  split <;> rfl

/-- The next message is taken from the buffer. -/
def advanced (s : ConnectedClient) (m : Message) : ConnectedClient :=
  { s with
    receiver := ⟨s.receiver.conn.takeRole (header s.receiver.buffer.readable).roleId,
      s.receiver.buffer.addReadIndex m.frame.length⟩
    decoding := true }

theorem Inv.advanced (h : s.Inv) (m : Message) : (s.advanced m).Inv := by
  have hready := h.ready.addReadIndex m.frame.length
  exact h.of_silent ⟨rfl, rfl⟩ ⟨hready.valid, hready.reserve, hready.size⟩ h.worker

/-- What a turn of the loop does: it hands the next message to the worker, or ends the loop. -/
theorem turn_cases (h : s.Inv) (hbox : s.Inbox sent queued rest) (hdec : s.decoding = true) :
    (∃ m rest' t, rest = m :: rest' ∧ s.held = m.frame ++ t ∧ Wire sent s.read t rest' ∧ s.turn =
      .ok ((s.advanced m).onDispatcher (s.app.recvMsgDispatcher.pushed ⟨m.base.roleId, m⟩))) ∨
    (Waits s.held rest ∧ s.turn = .ok { s with decoding := false }) := by
  unfold turn
  rw [if_pos hdec]
  have hanswers := GameConnection.turn_answers h.ready.valid
    (Nat.lt_of_le_of_lt h.ready.length_le (by decide)) s.receiver.conn
  rcases hbox.wire.front with ⟨m, rest', t, rfl, hheld, hwire⟩ | ⟨hmore, hwaits⟩
  · have hm := hbox.wire.constructed m List.mem_cons_self
    have hreadable : s.receiver.buffer.readable = m.frame ++ t := hheld
    obtain ⟨hverdict, hreceived⟩ := verdict_frame hm t
    rw [hreadable, hverdict] at hanswers
    rw [show s.receiver.conn.turn s.receiver.buffer = _ from hanswers]
    refine .inl ⟨m, rest', t, rfl, hheld, hwire, ?_⟩
    show List.foldlM _ _ (_ ++ [_]) = _
    rw [List.foldlM_append, foldlM_registration]
    have hcall := (h.advanced m).onCall_newMsg (transmitMessage_frame hm)
    show ((s.advanced m).onCall (.newMsg (received s.receiver.buffer.readable))).bind _ = _
    rw [hreadable, hreceived, hcall]
    rfl
  · rw [show frameVerdict s.receiver.buffer.readable = .more from hmore] at hanswers
    rw [show s.receiver.conn.turn s.receiver.buffer = _ from hanswers]
    exact .inr ⟨hwaits, rfl⟩

/-- **A turn of the loop** moves the next message from the wire to the worker, or ends the loop. -/
theorem turn_ok (h : s.Inv) (hbox : s.Inbox sent queued rest) :
    ∃ s' queued' rest', s.turn = .ok s' ∧ s'.Inv ∧ s'.Inbox sent queued' rest' ∧
      queued' ++ rest' = queued ++ rest ∧ Silent s s' := by
  by_cases hdec : s.decoding = true
  swap
  · exact ⟨s, queued, rest, if_neg hdec, h, hbox, rfl, ⟨rfl, rfl⟩⟩
  rcases turn_cases h hbox hdec with ⟨m, rest', t, rfl, hheld, hwire, hturn⟩ | ⟨hwaits, hturn⟩
  · have hs := h.advanced m
    obtain ⟨hqueue, hworker⟩ := hs.queue_pushed ⟨m.base.roleId, m⟩
    refine ⟨_, queued ++ [m], rest', hturn, hs.of_silent ⟨rfl, rfl⟩ hs.ready hworker, ⟨?_, ?_, .inl rfl⟩,
      by rw [List.append_assoc]; rfl, ⟨rfl, rfl⟩⟩
    · rw [List.map_append]
      exact hqueue.trans (congrArg (· ++ _) hbox.queue)
    · have hreadable : s.receiver.buffer.readable = m.frame ++ t := hheld
      have hdrop : (s.receiver.buffer.addReadIndex m.frame.length).readable = t := by
        rw [Buffer.readable_addReadIndex h.ready.valid, hreadable, List.drop_left]
      show Wire sent s.read (s.receiver.buffer.addReadIndex m.frame.length).readable rest'
      rw [hdrop]
      exact hwire
  · exact ⟨_, queued, rest, hturn, h.of_silent ⟨rfl, rfl⟩ h.ready h.worker,
      ⟨hbox.queue, hbox.wire, .inr hwaits⟩, rfl, ⟨rfl, rfl⟩⟩

/-- **The worker takes a message**: nothing changes. -/
theorem tryPop_ok (h : s.Inv) (hbox : s.Inbox sent queued rest) :
    s.tryPop.Inv ∧ s.tryPop.Inbox sent queued rest ∧ Silent s s.tryPop := by
  obtain ⟨t, ht⟩ := h.worker
  have hthreads : s.tryPop.app.recvMsgDispatcher.msgThreads = [t.tryPop] := by
    show s.app.recvMsgDispatcher.msgThreads.modify 0 _ = _
    rw [ht]
    rfl
  have hqueue : s.tryPop.queue = s.queue := by
    show s.tryPop.app.recvMsgDispatcher.msgThreads.flatMap _ = s.app.recvMsgDispatcher.msgThreads.flatMap _
    rw [hthreads, ht, List.flatMap_singleton, List.flatMap_singleton]
    exact (congrArg Lane.items (Dispatching.lane_tryPop t)).trans (Lane.items_take (Dispatching.lane t))
  refine ⟨h.of_silent ⟨rfl, rfl⟩ h.ready ⟨_, hthreads⟩, ⟨?_, hbox.wire, hbox.waits⟩, ⟨rfl, rfl⟩⟩
  rw [hqueue]
  exact hbox.queue

/-- **The worker has a message dispatched**, the first that is queued, or has none. -/
theorem dispatch_ok (h : s.Inv) (hbox : s.Inbox sent queued rest) (now : BitVec 64) :
    (s.dispatching = none ∧ s.dispatch now = .ok s) ∨
    ∃ m queued', queued = m :: queued' ∧ s.dispatching = some ⟨m.base.roleId, m⟩ ∧
      ((∃ e, s.app.idle.dispatch ⟨m.base.roleId, m⟩ now = .error e ∧ s.dispatch now = .error e) ∨
        ∃ s', s.app.idle.dispatch ⟨m.base.roleId, m⟩ now = .ok s'.app.idle ∧ s.dispatch now = .ok s' ∧
          s'.Inv ∧ s'.Inbox sent queued' rest ∧ s'.sending = s.sending ∧
          s'.app.roleId = s.app.roleId) := by
  obtain ⟨t, ht⟩ := h.worker
  have hdispatching : s.dispatching = t.dispatching := by
    rw [dispatching, ht]
    rfl
  unfold dispatch
  rw [hdispatching]
  cases hcurrent : t.dispatching with
  | none => exact .inl ⟨rfl, rfl⟩
  | some msg =>
    right
    have hqueue := hbox.queue
    rw [queue, ht, List.flatMap_singleton, hcurrent] at hqueue
    cases queued with
    | nil => cases hqueue
    | cons m queued' =>
      obtain ⟨rfl, htail⟩ := List.cons.inj hqueue
      refine ⟨m, queued', rfl, rfl, ?_⟩
      dsimp only
      cases happ : s.app.dispatch ⟨m.base.roleId, m⟩ now with
      | error e =>
        refine .inl ⟨e, ?_, rfl⟩
        rw [ClientApp.idle, ClientApp.dispatch_withThreads, happ]
        rfl
      | ok app =>
        right
        obtain ⟨hworker, hidle⟩ := s.app.dispatch_eq happ
        obtain ⟨-, -, -, hping, hcontrol, hrole⟩ := ClientApp.dispatch_frame happ
        have hthreads : app.recvMsgDispatcher.msgThreads = [t] := by
          rw [hworker, ht]
          rfl
        have hfinish : ({ s with app := app } : ConnectedClient).finish.app.recvMsgDispatcher.msgThreads =
            [t.finish] := by
          show app.recvMsgDispatcher.msgThreads.modify 0 _ = _
          rw [hthreads]
          rfl
        refine ⟨({ s with app := app } : ConnectedClient).finish, hidle, rfl, ?_, ⟨?_, hbox.wire, hbox.waits⟩,
          rfl, hrole.roleId⟩
        · refine h.of_app ⟨hrole.roleId, hrole.started, hrole.threadNum⟩ ⟨?_, ?_⟩ rfl h.ready ⟨_, hfinish⟩
          · show ∀ m ∈ app.pingMessagePtr, _
            rw [hping]
            exact h.constructed.ping
          · show (Message.control app.controlMessagePtr).Regular
            rw [hcontrol]
            exact h.constructed.control
        · rw [queue, hfinish, List.flatMap_singleton]
          exact htail

/-- **A call of the game** sends what it is to send. -/
theorem call_ok (h : s.Inv) (hbox : s.Inbox sent queued rest) {call : GameCall}
    (hidle : s.WithinContract (.call call)) {up : ConnId → List Message} (hup : s.sending.Streams up) :
    (∃ e, s.app.idle.call call = .error e ∧ s.call call = .error e) ∨
    ∃ msg s', s.app.idle.call call = .ok (msg, s'.app.idle) ∧ s.call call = .ok s' ∧ s'.Inv ∧
      s'.Inbox sent queued rest ∧ s'.app.roleId = s.app.roleId ∧
      (∀ m ∈ msg, m.Regular ∧ m.base.roleId = s.app.roleId) ∧
      ∃ up', s'.sending.Streams up' ∧ up' 0 = up 0 ++ msg.toList ∧ s.sending.Extends s'.sending := by
  unfold ConnectedClient.call
  cases happ : s.app.call call with
  | error e =>
    refine .inl ⟨e, ?_, rfl⟩
    rw [ClientApp.idle, ClientApp.call_withThreads, happ]
    rfl
  | ok r =>
    obtain ⟨msg, app⟩ := r
    obtain ⟨hworker, hcall⟩ := s.app.call_eq happ
    obtain ⟨hsends, -, hconstructed, hrole⟩ := ClientApp.call_sends h.constructed happ
    have hthreads : ∃ t, app.recvMsgDispatcher.msgThreads = [t] := by
      obtain ⟨t, ht⟩ := h.worker
      refine ⟨t, ?_⟩
      rw [hworker, ht]
      rfl
    have hqueue : ({ s with app := app } : ConnectedClient).queue = s.queue := by
      show app.recvMsgDispatcher.msgThreads.flatMap _ = _
      rw [hworker]
      rfl
    right
    cases msg with
    | none =>
      refine ⟨none, { s with app := app }, hcall, rfl, h.of_app hrole hconstructed rfl h.ready hthreads,
        ⟨by rw [hqueue]; exact hbox.queue, hbox.wire, hbox.waits⟩, hrole.roleId, hsends, up, hup,
        (List.append_nil _).symm, Sending.extends_of_sockets rfl⟩
    | some m =>
      have hcontract : s.sending.WithinContract (.sendMsgAsync s.app.roleId m) := by
        intro c hc
        rw [h.connMap] at hc
        cases hc
        cases call with
        | popInput => cases happ
        | pushInput => exact hidle
        | testDelay => exact hidle
        | enterRoom => exact hidle
      obtain ⟨sending, hsend, hstreams, hext⟩ := hup.step hcontract
      have hconnMap : sending.connMap = s.sending.connMap := by
        obtain ⟨b, -, -, -, hs⟩ := Sending.send_ok (s := s.sending) s.app.roleId m
        rw [h.connMap] at hs
        cases hs.symm.trans hsend
        rfl
      refine ⟨some m, { s with app := app, sending := sending }, hcall, ?_,
        h.of_app hrole hconstructed hconnMap h.ready hthreads,
        ⟨by rw [← hbox.queue, ← hqueue]; rfl, hbox.wire, hbox.waits⟩, hrole.roleId, hsends, _, hstreams,
        ?_, hext⟩
      · show (s.sending.step (.sendMsgAsync s.app.roleId m)).bind _ = _
        rw [hsend]
        rfl
      · simp only [Sending.started, h.connMap, ↓reduceIte, Option.toList_some]

end Steps

end ConnectedClient

end GameNetwork
