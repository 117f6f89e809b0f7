import GameNetwork.GameServer.GameServer
import GameNetwork.Lib.Pieces
import GameNetwork.Message.Encoding

/-!
# The send path

What happens between a message and the socket: the default callback of
`send_msg_dispatcher_` (`GameServer/MKServer.cpp`), `SendMessageById`
(`GameServer/GameServer.cpp`), `SendMsgAsync` (`GameClient/GameClient.cpp`) and
`AsyncSendData` (`Network/TcpConnection.cpp`).

A send encodes its message into a `TinyBuffer` of its own and starts an
`async_write` that points into it. The write transfers its data later and in
pieces, each read from the buffer's storage at the time, while other writes
may be outstanding on the socket; the buffer goes out of scope when the send
returns. `FramesWhole` is what the receiving side needs, `frames_whole` says
when it gets it.
-/

namespace GameNetwork

open Lib

/-- The `TinyBuffer` of one send. -/
structure LocalBuffer where
  bytes : List Byte
  inScope : Bool
  deriving DecidableEq, Repr

def LocalBuffer.overwrite (b : LocalBuffer) (offset : Nat) (byte : Byte) : LocalBuffer :=
  { b with bytes := b.bytes.set offset byte }

/-- A pointer into the storage of a local buffer. -/
structure Pointer where
  buffer : Nat
  offset : Nat
  deriving DecidableEq, Repr

/-- An `async_write`. -/
structure AsyncWrite where
  data : Pointer
  length : Nat
  /-- How much of it is transferred. -/
  transferred : Nat
  /-- What its data was when it was started. -/
  frame : List Byte
  deriving DecidableEq, Repr

structure Socket where
  /-- The writes started so far, in order. -/
  writes : List AsyncWrite
  transferred : List Byte
  deriving DecidableEq, Repr

/-- A server or a client as it sends. -/
structure Sending where
  buffers : List LocalBuffer
  /-- `role_id_conn_map_` of a server, `conn_map_` of a client. -/
  connMap : RoleId → Option ConnId
  sockets : ConnId → Socket

inductive SendEvent where
  /-- The default callback of `send_msg_dispatcher_`, up to its return. -/
  | sendCallback (roleId : RoleId) (message : Message)
  /-- `SendMsgAsync`, up to its return. -/
  | sendMsgAsync (roleId : RoleId) (message : Message)
  /-- The send that has this buffer returns. -/
  | leaveScope (buffer : Nat)
  /-- A byte of storage that was a buffer's is written to by others. -/
  | overwrite (buffer offset : Nat) (byte : Byte)
  /-- The `i`-th write of a connection transfers `n` bytes. -/
  | transfer (c : ConnId) (i n : Nat)
  /-- The table of the connections changes. -/
  | setConn (roleId : RoleId) (c : Option ConnId)
  deriving DecidableEq, Repr

namespace Sending

def new : Sending := ⟨[], fun _ => none, fun _ => ⟨[], []⟩⟩

/-- The bytes in memory from a pointer on. -/
def bytesAt (s : Sending) (data : Pointer) (length : Nat) : List Byte :=
  load ((s.buffers[data.buffer]?.map LocalBuffer.bytes).getD []) data.offset length

def inScope (s : Sending) (buffer : Nat) : Bool := s.buffers[buffer]?.any (·.inScope)

/-- A buffer that a send has encoded its message into, and its number. -/
def declare (s : Sending) (buffer : Buffer) : Nat × Sending :=
  (s.buffers.length, { s with buffers := s.buffers ++ [⟨buffer.bytes, true⟩] })

def setSocket (s : Sending) (c : ConnId) (socket : Socket) : Sending :=
  { s with sockets := Function.update s.sockets c socket }

/-- `AsyncSendData`. -/
def asyncSendData (s : Sending) (c : ConnId) (data : Pointer) (length : Nat) : Sending :=
  let socket := s.sockets c
  s.setSocket c { socket with writes := socket.writes ++ [⟨data, length, 0, s.bytesAt data length⟩] }

def sendMessageById (s : Sending) (roleId : RoleId) (data : Pointer) (length : Nat) : Sending :=
  match s.connMap roleId with
  | some conn => s.asyncSendData conn data length
  | none => s

/-- The default callback of `send_msg_dispatcher_`. -/
def sendCallback (s : Sending) (roleId : RoleId) (ptr : Message) : Except Fault Sending := do
  let buffer ← ptr.encodeMessage Buffer.tiny
  let (b, s) := s.declare buffer
  return s.sendMessageById roleId ⟨b, buffer.readIdx⟩ buffer.readableSize

def sendMsgAsync (s : Sending) (roleId : RoleId) (msgPtr : Message) : Except Fault Sending :=
  match s.connMap roleId with
  | some conn => do
    let buffer ← msgPtr.encodeMessage Buffer.tiny
    let (b, s) := s.declare buffer
    return s.asyncSendData conn ⟨b, buffer.readIdx⟩ buffer.readableSize
  | none => return s

/-- The write that can transfer `n` bytes next: some, and no more than are left. -/
def transferring (s : Sending) (c : ConnId) (i n : Nat) : Option AsyncWrite :=
  (s.sockets c).writes[i]?.filter fun w => n ≠ 0 ∧ w.transferred + n ≤ w.length

/-- One `async_write_some` of a write completes. -/
def transfer (s : Sending) (c : ConnId) (i n : Nat) (w : AsyncWrite) : Sending :=
  let socket := s.sockets c
  let piece := s.bytesAt ⟨w.data.buffer, w.data.offset + w.transferred⟩ n
  s.setSocket c ⟨socket.writes.set i { w with transferred := w.transferred + n },
    socket.transferred ++ piece⟩

def step (s : Sending) : SendEvent → Except Fault Sending
  | .sendCallback roleId message => s.sendCallback roleId message
  | .sendMsgAsync roleId message => s.sendMsgAsync roleId message
  | .leaveScope buffer =>
    return { s with buffers := s.buffers.modify buffer fun b => { b with inScope := false } }
  | .overwrite buffer offset byte =>
    if s.inScope buffer then return s
    else return { s with buffers := s.buffers.modify buffer (·.overwrite offset byte) }
  | .transfer c i n =>
    match s.transferring c i n with
    | none => return s
    | some w => return s.transfer c i n w
  | .setConn roleId c => return { s with connMap := Function.update s.connMap roleId c }

/-- **No frame is torn or mixed.** On every connection, what is transferred is a prefix of whole
frames, each of a send of its own. -/
def FramesWhole (s : Sending) : Prop :=
  ∀ c, ∃ frames : List (List Byte), frames.Subperm ((s.sockets c).writes.map AsyncWrite.frame) ∧
    (s.sockets c).transferred <+: frames.flatten

/-- The condition on an event and the state it finds: a piece is transferred while the buffer of
its send is in scope, and while no other write on the connection is partway. -/
def Undisturbed (s : Sending) : SendEvent → Prop
  | .transfer c i n => ∀ w ∈ s.transferring c i n, s.inScope w.data.buffer = true ∧
      ∀ v ∈ (s.sockets c).writes.eraseIdx i, v.transferred = 0 ∨ v.transferred = v.length
  | _ => True

/-! ## What the events do -/

section Lemmas

variable {s s' : Sending} {c : ConnId}

theorem transferring_eq_some {i n : Nat} {w : AsyncWrite} :
    s.transferring c i n = some w ↔
      (s.sockets c).writes[i]? = some w ∧ n ≠ 0 ∧ w.transferred + n ≤ w.length := by
  simp [transferring, Option.filter_eq_some_iff]

/-- The state once a send has encoded its message into `b` and started the write. -/
def sent (s : Sending) (c : ConnId) (message : Message) (b : Buffer) : Sending :=
  (s.declare b).2.setSocket c ⟨(s.sockets c).writes ++
    [⟨⟨s.buffers.length, b.readIdx⟩, message.frame.length, 0, message.frame⟩],
    (s.sockets c).transferred⟩

theorem bytesAt_declared {b : Buffer} (hv : b.Valid) :
    (s.declare b).2.bytesAt ⟨s.buffers.length, b.readIdx⟩ b.readable.length = b.readable := by
  have hget : (s.buffers ++ [(⟨b.bytes, true⟩ : LocalBuffer)])[s.buffers.length]? = some ⟨b.bytes, true⟩ :=
    List.getElem?_concat_length
  rw [bytesAt, declare, hget, Buffer.length_readable hv]
  rfl

theorem asyncSendData_declared (c : ConnId) {message : Message} {b : Buffer} (hv : b.Valid)
    (hr : b.readable = message.frame) :
    (s.declare b).2.asyncSendData c ⟨s.buffers.length, b.readIdx⟩ b.readableSize =
      s.sent c message b := by
  rw [asyncSendData, Buffer.readableSize_readable hv, bytesAt_declared hv, hr]
  rfl

/-- **A send never fails**, and starts a write of its message's frame on the connection that the
table has for its role id. -/
theorem send_ok (roleId : RoleId) (message : Message) :
    ∃ b : Buffer, b.Valid ∧ b.readable = message.frame ∧
      s.sendCallback roleId message = .ok (match s.connMap roleId with
        | some c => s.sent c message b
        | none => (s.declare b).2) ∧
      s.sendMsgAsync roleId message = .ok (match s.connMap roleId with
        | some c => s.sent c message b
        | none => s) := by
  obtain ⟨b, hb, hv, hr⟩ := encodeMessage_eq Buffer.valid_tiny Buffer.fits_tiny message
  rw [Buffer.readable_tiny, List.nil_append] at hr
  have hr' : b.readable = message.frame := hr
  refine ⟨b, hv, hr', ?_, ?_⟩
  · rw [sendCallback, hb]
    show Except.ok ((s.declare b).2.sendMessageById roleId ⟨s.buffers.length, b.readIdx⟩ b.readableSize)
      = _
    unfold sendMessageById
    show Except.ok (match s.connMap roleId with | some conn => _ | none => _) = _
    cases s.connMap roleId with
    | none => rfl
    | some c => exact congrArg _ (asyncSendData_declared c hv hr')
  · unfold sendMsgAsync
    cases s.connMap roleId with
    | none => rfl
    | some c =>
      simp only [hb]
      exact congrArg _ (asyncSendData_declared c hv hr')

end Lemmas

/-! ## Writes as writers -/

end Sending

/-- The write, as one of the writers on its socket. -/
def AsyncWrite.writer (w : AsyncWrite) : Writer Byte := ⟨w.frame, w.transferred⟩

namespace Sending

/-- A write's data, as long as its buffer is in scope. -/
structure Held (s : Sending) (w : AsyncWrite) : Prop where
  declared : w.data.buffer < s.buffers.length
  length_eq : w.length = w.frame.length
  content : s.inScope w.data.buffer = true → s.bytesAt w.data w.length = w.frame

/-- What every undisturbed event keeps. -/
structure Inv (s : Sending) : Prop where
  held : ∀ c, ∀ w ∈ (s.sockets c).writes, s.Held w
  serial : ∀ c, Serial ((s.sockets c).writes.map AsyncWrite.writer) (s.sockets c).transferred

/-- No buffer in scope is written to, and none comes back into scope. -/
structure KeepsBuffers (s s' : Sending) : Prop where
  length_le : s.buffers.length ≤ s'.buffers.length
  same : ∀ b < s.buffers.length, s'.inScope b = true → s.inScope b = true ∧
    s'.buffers[b]?.map LocalBuffer.bytes = s.buffers[b]?.map LocalBuffer.bytes

theorem inv_new : Inv new := ⟨fun _ _ h => (by cases h), fun _ => .empty⟩

section Steps

variable {s s' : Sending} {c : ConnId}

theorem Held.keeps {w : AsyncWrite} (h : s.Held w) (hk : s.KeepsBuffers s') : s'.Held w := by
  refine ⟨Nat.lt_of_lt_of_le h.declared hk.length_le, h.length_eq, fun hscope => ?_⟩
  obtain ⟨hold, hbytes⟩ := hk.same _ h.declared hscope
  rw [bytesAt, hbytes]
  exact h.content hold

theorem keepsBuffers_of_eq (h : s'.buffers = s.buffers) : s.KeepsBuffers s' :=
  ⟨by rw [h], fun b _ hb => by rw [inScope, h] at hb; exact ⟨hb, by rw [h]⟩⟩

theorem keepsBuffers_declare (b : Buffer) : s.KeepsBuffers (s.declare b).2 := by
  refine ⟨by simp [declare], fun i hi hscope => ?_⟩
  have hget : (s.declare b).2.buffers[i]? = s.buffers[i]? := List.getElem?_append_left hi
  rw [inScope, hget] at hscope
  exact ⟨hscope, by rw [hget]⟩

/-- A change of one buffer that is out of scope after it, and keeps its bytes if it was in scope
before. -/
theorem keepsBuffers_modify {b : Nat} {f : LocalBuffer → LocalBuffer}
    (hf : ∀ x, s.buffers[b]? = some x → (f x).inScope = true → x.inScope = true ∧ (f x).bytes = x.bytes) :
    s.KeepsBuffers { s with buffers := s.buffers.modify b f } := by
  refine ⟨by simp, fun i hi hscope => ?_⟩
  simp only [inScope, List.getElem?_modify] at hscope ⊢
  obtain ⟨x, hx⟩ : ∃ x, s.buffers[i]? = some x := ⟨_, List.getElem?_eq_getElem hi⟩
  rw [hx] at hscope ⊢
  by_cases hb : b = i
  · subst hb
    simp only [if_true, Option.map_eq_map, Option.map_some, Option.any_some] at hscope ⊢
    exact ⟨(hf x hx hscope).1, congrArg some (hf x hx hscope).2⟩
  · simp only [if_neg hb, Option.map_eq_map, Option.map_some, Option.any_some] at hscope ⊢
    exact ⟨hscope, trivial⟩

/-- An event that changes no socket. -/
theorem inv_of_keeps (h : s.Inv) (hk : s.KeepsBuffers s') (hs : s'.sockets = s.sockets) : s'.Inv := by
  refine ⟨fun c w hw => ?_, fun c => by rw [hs]; exact h.serial c⟩
  rw [hs] at hw
  exact (h.held c w hw).keeps hk

/-- An event that changes the writes and the bytes of one socket. -/
theorem inv_setSocket {socket : Socket} (h : s.Inv) (hk : s.KeepsBuffers s')
    (hs : s'.sockets = Function.update s.sockets c socket) (hheld : ∀ w ∈ socket.writes, s'.Held w)
    (hserial : Serial (socket.writes.map AsyncWrite.writer) socket.transferred) : s'.Inv := by
  refine ⟨fun c' w hw => ?_, fun c' => ?_⟩
  · rw [hs] at hw
    by_cases hc : c' = c
    · subst hc
      rw [Function.update_self] at hw
      exact hheld w hw
    · rw [Function.update_of_ne hc] at hw
      exact (h.held c' w hw).keeps hk
  · rw [hs]
    by_cases hc : c' = c
    · subst hc
      rwa [Function.update_self]
    · rw [Function.update_of_ne hc]
      exact h.serial c'

/-- A send starts a write of which nothing is transferred. -/
theorem inv_sent (h : s.Inv) (c : ConnId) {message : Message} {b : Buffer} (hv : b.Valid)
    (hr : b.readable = message.frame) : (s.sent c message b).Inv := by
  have hk : s.KeepsBuffers (s.sent c message b) :=
    ⟨(keepsBuffers_declare b).length_le, (keepsBuffers_declare b).same⟩
  refine inv_setSocket h hk rfl (fun w hw => ?_) ?_
  · rcases List.mem_append.mp hw with hw | hw
    · exact (h.held c w hw).keeps hk
    · rw [List.mem_singleton.mp hw]
      refine ⟨by simp [sent, declare, setSocket], rfl, fun _ => ?_⟩
      have := bytesAt_declared (s := s) hv
      rw [hr] at this
      exact this
  · rw [List.map_append]
    exact (h.serial c).add _

/-- What a write reads is the next part of its frame. -/
theorem piece_eq {w : AsyncWrite} {n : Nat} (hw : s.Held w) (hscope : s.inScope w.data.buffer = true)
    (hle : w.transferred + n ≤ w.length) :
    s.bytesAt ⟨w.data.buffer, w.data.offset + w.transferred⟩ n =
      (w.frame.drop w.transferred).take n := by
  have hcontent := hw.content hscope
  unfold bytesAt at hcontent
  rw [← hcontent, drop_load, take_load, Nat.min_eq_left (by omega)]
  rfl

theorem inv_transfer (h : s.Inv) {i n : Nat} {w : AsyncWrite} (hw : s.transferring c i n = some w)
    (hu : s.Undisturbed (.transfer c i n)) : (s.transfer c i n w).Inv := by
  obtain ⟨hget, hn, hle⟩ := transferring_eq_some.mp hw
  obtain ⟨hscope, hothers⟩ := hu w hw
  have hmem : w ∈ (s.sockets c).writes := List.mem_of_getElem? hget
  have hheld := h.held c w hmem
  have hk : s.KeepsBuffers (s.transfer c i n w) := keepsBuffers_of_eq rfl
  refine inv_setSocket h hk rfl (fun v hv => ?_) ?_
  · rcases List.mem_or_eq_of_mem_set hv with hv | rfl
    · exact (h.held c v hv).keeps hk
    · exact ⟨(hheld.keeps hk).declared, hheld.length_eq, (hheld.keeps hk).content⟩
  · simp only [List.map_set]
    rw [piece_eq hheld hscope hle]
    refine (h.serial c).advance (w := w.writer) (by rw [List.getElem?_map, hget]; rfl) hn
      (by simpa only [AsyncWrite.writer, hheld.length_eq] using hle) fun v hv hpart => ?_
    rw [List.eraseIdx_map] at hv
    obtain ⟨x, hx, rfl⟩ := List.mem_map.mp hv
    have hx_len := (h.held c x (List.mem_of_mem_eraseIdx hx)).length_eq
    rcases hothers x hx with hzero | hdone
    · exact hpart.1 hzero
    · exact hpart.2 (hdone.trans hx_len)

/-- **An undisturbed event** does not fail, and keeps the frames whole. -/
theorem inv_step (h : s.Inv) {e : SendEvent} (hu : s.Undisturbed e) :
    ∃ s', s.step e = .ok s' ∧ s'.Inv := by
  cases e with
  | sendCallback roleId message =>
    obtain ⟨b, hv, hr, hs, -⟩ := send_ok (s := s) roleId message
    refine ⟨_, hs, ?_⟩
    split
    · exact inv_sent h _ hv hr
    · exact inv_of_keeps h (keepsBuffers_declare b) rfl
  | sendMsgAsync roleId message =>
    obtain ⟨b, hv, hr, -, hs⟩ := send_ok (s := s) roleId message
    refine ⟨_, hs, ?_⟩
    split
    · exact inv_sent h _ hv hr
    · exact h
  | leaveScope buffer =>
    exact ⟨_, rfl, inv_of_keeps h (keepsBuffers_modify fun _ _ hscope => (by cases hscope)) rfl⟩
  | overwrite buffer offset byte =>
    rw [step]
    split
    · exact ⟨s, rfl, h⟩
    · next hscope =>
      refine ⟨_, rfl, inv_of_keeps h (keepsBuffers_modify fun x hx hx' => ?_) rfl⟩
      exact absurd (by rw [inScope, hx]; exact hx') hscope
  | transfer c i n =>
    rw [step]
    split
    · exact ⟨s, rfl, h⟩
    · next w hw => exact ⟨_, rfl, inv_transfer h hw hu⟩
  | setConn roleId c => exact ⟨_, rfl, inv_of_keeps h (keepsBuffers_of_eq rfl) rfl⟩

end Steps

theorem framesWhole_of_inv {s : Sending} (h : s.Inv) : s.FramesWhole := by
  intro c
  obtain ⟨frames, hsub, hpre⟩ := (h.serial c).whole
  rw [List.map_map] at hsub
  exact ⟨frames, hsub, hpre⟩

/-- **Frames stay whole on the wire** along every run in which each piece is transferred while its
buffer is in scope and no other write on the connection is partway. -/
theorem frames_whole {events : List SendEvent} (h : EachStep step Undisturbed new events) :
    Safe step FramesWhole new events :=
  safe_of_step (fun _ => framesWhole_of_inv) (fun _ _ hi hu => inv_step hi hu) inv_new h

/-- Two sends whose writes take turns. The buffer of the first goes when its write is done. -/
def takingTurns : List SendEvent :=
  [.setConn 1 (some 0), .sendMsgAsync 1 (.ping PingMessage.new), .sendMsgAsync 1 (.ping PingMessage.new),
    .transfer 0 0 10, .transfer 0 0 19, .leaveScope 0, .transfer 0 1 29]

theorem takingTurns_whole : Safe step FramesWhole new takingTurns := by
  refine frames_whole ?_
  refine eachStep_cons.mpr ⟨trivial, ?_⟩
  rintro s₁ ⟨⟩
  refine eachStep_cons.mpr ⟨trivial, ?_⟩
  rintro s₂ ⟨⟩
  refine eachStep_cons.mpr ⟨trivial, ?_⟩
  rintro s₃ ⟨⟩
  refine eachStep_cons.mpr ⟨by rintro w ⟨⟩; exact ⟨rfl, by decide⟩, ?_⟩
  rintro s₄ ⟨⟩
  refine eachStep_cons.mpr ⟨by rintro w ⟨⟩; exact ⟨rfl, by decide⟩, ?_⟩
  rintro s₅ ⟨⟩
  refine eachStep_cons.mpr ⟨trivial, ?_⟩
  rintro s₆ ⟨⟩
  exact eachStep_cons.mpr ⟨by rintro w ⟨⟩; exact ⟨rfl, by decide⟩, fun _ _ => eachStep_nil⟩

/-- Where all sends of a connection have the same frame, what is transferred first must be its
beginning. -/
theorem not_framesWhole {s : Sending} {c : ConnId} {frame : List Byte}
    (hall : ∀ w ∈ (s.sockets c).writes, w.frame = frame)
    (hlen : (s.sockets c).transferred.length ≤ frame.length)
    (hne : ¬ (s.sockets c).transferred <+: frame) : ¬ s.FramesWhole := by
  intro h
  obtain ⟨frames, hsub, hpre⟩ := h c
  cases frames with
  | nil => exact hne (hpre.trans List.nil_prefix)
  | cons f frames =>
    obtain ⟨w, hw, rfl⟩ := List.mem_map.mp (hsub.subset List.mem_cons_self)
    rw [hall w hw, List.flatten_cons] at hpre
    exact hne (List.prefix_of_prefix_length_le hpre (List.prefix_append _ _) hlen)

/-- Two sends whose writes alternate, and a send that has returned when its write goes on. -/
def alternating : List SendEvent :=
  [.setConn 1 (some 0), .sendMsgAsync 1 (.ping PingMessage.new), .sendMsgAsync 1 (.ping PingMessage.new),
    .transfer 0 0 4, .transfer 0 1 1]

def outOfScope : List SendEvent :=
  [.setConn 1 (some 0), .sendCallback 1 (.ping PingMessage.new), .leaveScope 0,
    .overwrite 0 4 0xff, .transfer 0 0 29]

theorem frames_torn : (∃ t, run step new alternating = .ok t ∧ ¬ t.FramesWhole) ∧
    ∃ t, run step new outOfScope = .ok t ∧ ¬ t.FramesWhole := by
  refine ⟨⟨_, rfl, ?_⟩, ⟨_, rfl, ?_⟩⟩
  · exact @not_framesWhole _ 0 (Message.frame (.ping PingMessage.new)) (by decide) (by decide) (by decide)
  · exact @not_framesWhole _ 0 (Message.frame (.ping PingMessage.new)) (by decide) (by decide) (by decide)

end Sending

end GameNetwork
