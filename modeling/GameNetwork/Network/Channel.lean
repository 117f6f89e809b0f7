import GameNetwork.Network.SendPath
import GameNetwork.Network.Stream

/-!
# A connection as a queue of messages

Both ends of a connection, the writes of one and the reads of the other in any
interleaving. `WithinContract` is what asio asks of those who call
`async_write`: none is started on a socket while another is outstanding, and
the data stays in place until it is done. Under it the messages come out in
the order they were given to `AsyncSendData` (`Streams`), and a connection is
a queue of messages (`channel_fifo`): the receiver is handed each message that
was sent, once, unchanged and in order, whatever pieces the bytes travel in.
-/

namespace GameNetwork

open Lib GameNetwork.Frame

namespace Sending

/-- Every write started on the connection is done. -/
def Idle (s : Sending) (c : ConnId) : Prop := ∀ w ∈ (s.sockets c).writes, w.transferred = w.length

/-- **asio's contract** for an event and the state it finds. -/
def WithinContract (s : Sending) : SendEvent → Prop
  | .sendCallback roleId _ => ∀ c ∈ s.connMap roleId, s.Idle c
  | .sendMsgAsync roleId _ => ∀ c ∈ s.connMap roleId, s.Idle c
  | .transfer c i n => ∀ w ∈ s.transferring c i n, s.inScope w.data.buffer = true
  | _ => True

instance (s : Sending) (c : ConnId) : Decidable (s.Idle c) := inferInstanceAs (Decidable (∀ _ ∈ _, _))

instance (s : Sending) : ∀ e, Decidable (s.WithinContract e)
  | .sendCallback .. | .sendMsgAsync .. | .transfer .. => inferInstanceAs (Decidable (∀ _ ∈ _, _))
  | .leaveScope _ | .overwrite .. | .setConn .. => .isTrue trivial

/-- The messages that an event starts a write of on a connection. -/
def started (s : Sending) (c : ConnId) : SendEvent → List Message
  | .sendCallback roleId message => if s.connMap roleId = some c then [message] else []
  | .sendMsgAsync roleId message => if s.connMap roleId = some c then [message] else []
  | _ => []

/-- Every connection transfers the frames of its messages one after the other. -/
structure Streams (s : Sending) (msgs : ConnId → List Message) : Prop where
  inv : s.Inv
  inTurn : ∀ c, InTurn ((s.sockets c).writes.map AsyncWrite.writer) (s.sockets c).transferred
  frames : ∀ c, (s.sockets c).writes.map AsyncWrite.frame = (msgs c).map Message.frame

/-- What is still to be transferred on a connection. -/
def unsent (s : Sending) (c : ConnId) : List Byte :=
  ((s.sockets c).writes.map AsyncWrite.frame).flatten.drop (s.sockets c).transferred.length

section Streams

variable {s s' : Sending} {msgs : ConnId → List Message} {c : ConnId}

theorem streams_new : new.Streams fun _ => [] := ⟨inv_new, fun _ => .empty, fun _ => rfl⟩

/-- A writer is done when its write is. -/
theorem Streams.done_iff (h : s.Streams msgs) {w : AsyncWrite} (hw : w ∈ (s.sockets c).writes) :
    w.writer.Done ↔ w.transferred = w.length := by
  rw [(h.inv.held c w hw).length_eq]
  rfl

theorem Streams.done_of_idle (h : s.Streams msgs) (hi : s.Idle c) :
    ∀ w ∈ (s.sockets c).writes.map AsyncWrite.writer, w.Done := by
  intro w hw
  obtain ⟨v, hv, rfl⟩ := List.mem_map.mp hw
  exact (h.done_iff hv).mpr (hi v hv)

theorem Streams.messages (h : s.Streams msgs) (c : ConnId) :
    ((s.sockets c).writes.map AsyncWrite.writer).map Writer.message = (msgs c).map Message.frame := by
  rw [← h.frames c, List.map_map]
  rfl

/-- **What is transferred is the frames of the messages**, up to the last piece. -/
theorem Streams.transferred_isPrefix (h : s.Streams msgs) (c : ConnId) :
    (s.sockets c).transferred <+: ((msgs c).map Message.frame).flatten := by
  have := (h.inTurn c).isPrefix
  rwa [h.messages] at this

theorem Streams.transferred_append (h : s.Streams msgs) (c : ConnId) :
    (s.sockets c).transferred ++ s.unsent c = ((msgs c).map Message.frame).flatten := by
  rw [unsent, h.frames]
  exact List.prefix_iff_eq_append.mp (h.transferred_isPrefix c)

/-- On an idle connection nothing is left. -/
theorem Streams.unsent_of_idle (h : s.Streams msgs) (hi : s.Idle c) : s.unsent c = [] := by
  have hall := (h.inTurn c).all (h.done_of_idle hi)
  rw [h.messages] at hall
  rw [unsent, h.frames, hall, List.drop_length]

/-- An event that changes the writes and the bytes of one connection. -/
theorem streams_setSocket {socket : Socket} {messages : List Message} (h : s.Streams msgs) (hinv : s'.Inv)
    (hs : s'.sockets = Function.update s.sockets c socket)
    (hturn : InTurn (socket.writes.map AsyncWrite.writer) socket.transferred)
    (hframes : socket.writes.map AsyncWrite.frame = messages.map Message.frame) :
    s'.Streams (Function.update msgs c messages) := by
  refine ⟨hinv, fun c' => ?_, fun c' => ?_⟩ <;> rw [hs] <;> by_cases hc : c' = c
  · subst hc
    rwa [Function.update_self]
  · rw [Function.update_of_ne hc]
    exact h.inTurn c'
  · subst hc
    rwa [Function.update_self, Function.update_self]
  · rw [Function.update_of_ne hc, Function.update_of_ne hc]
    exact h.frames c'

/-- An event that changes no socket. -/
theorem Streams.of_sockets (h : s.Streams msgs) (hinv : s'.Inv) (hs : s'.sockets = s.sockets) :
    s'.Streams msgs :=
  ⟨hinv, fun c => by rw [hs]; exact h.inTurn c, fun c => by rw [hs]; exact h.frames c⟩

/-- A send on an idle connection. -/
theorem Streams.sent (h : s.Streams msgs) (hi : s.Idle c) {message : Message} {b : Buffer} (hv : b.Valid)
    (hr : b.readable = message.frame) :
    (s.sent c message b).Streams (Function.update msgs c (msgs c ++ [message])) := by
  refine streams_setSocket h (inv_sent h.inv c hv hr) rfl ?_ ?_
  · rw [List.map_append]
    exact (h.inTurn c).add (h.done_of_idle hi) _
  · rw [List.map_append, List.map_append, h.frames]
    rfl

/-- The write that transfers a piece is the last. -/
theorem Streams.eq_concat (h : s.Streams msgs) {i n : Nat} {w : AsyncWrite}
    (hw : s.transferring c i n = some w) :
    ∃ past, (s.sockets c).writes.map AsyncWrite.writer = past ++ [w.writer] ∧ i = past.length := by
  obtain ⟨hget, hn, hle⟩ := transferring_eq_some.mp hw
  refine (h.inTurn c).eq_concat (by rw [List.getElem?_map, hget]; rfl) fun hd => ?_
  have := (h.done_iff (List.mem_of_getElem? hget)).mp hd
  omega

/-- Within the contract no piece meets another write that is partway. -/
theorem Streams.undisturbed (h : s.Streams msgs) {e : SendEvent} (he : s.WithinContract e) :
    s.Undisturbed e := by
  cases e with
  | transfer c i n =>
    intro w hw
    refine ⟨he w hw, fun v hv => .inr ?_⟩
    obtain ⟨past, hpast, rfl⟩ := h.eq_concat hw
    refine (h.done_iff (List.mem_of_mem_eraseIdx hv)).mp ((h.inTurn c).done _ ?_)
    have hmem := List.mem_map_of_mem (f := AsyncWrite.writer) hv
    rw [← List.eraseIdx_map, hpast, List.eraseIdx_append_of_length_le (Nat.le_refl _), Nat.sub_self] at hmem
    rw [hpast, List.dropLast_concat]
    simpa using hmem
  | _ => trivial

/-- A piece is the next of what is still to be transferred. -/
theorem Streams.transfer (h : s.Streams msgs) {i n : Nat} {w : AsyncWrite}
    (hw : s.transferring c i n = some w) (hscope : s.inScope w.data.buffer = true) :
    (s.transfer c i n w).Streams msgs ∧
      ((s.transfer c i n w).sockets c).transferred = (s.sockets c).transferred ++ (s.unsent c).take n := by
  obtain ⟨hget, hn, hle⟩ := transferring_eq_some.mp hw
  have hheld := h.inv.held c w (List.mem_of_getElem? hget)
  have hpiece := piece_eq hheld hscope hle
  have hwriter : ((s.sockets c).writes.map AsyncWrite.writer)[i]? = some w.writer := by
    rw [List.getElem?_map, hget]
    rfl
  have hnotDone : ¬ w.writer.Done := fun hd => by
    have := (h.done_iff (List.mem_of_getElem? hget)).mp hd
    omega
  have hstreams : (s.transfer c i n w).Streams (Function.update msgs c (msgs c)) := by
    refine streams_setSocket h (inv_transfer h.inv hw (h.undisturbed (e := .transfer c i n) ?_)) rfl ?_ ?_
    · intro v hv
      rw [hw] at hv
      cases hv
      exact hscope
    · simp only [List.map_set]
      rw [hpiece]
      exact (h.inTurn c).advance hwriter hnotDone
    · have hframe : ((s.sockets c).writes.map AsyncWrite.frame)[i]? = some w.frame := by
        rw [List.getElem?_map, hget]
        rfl
      obtain ⟨hi, hframe⟩ := List.getElem?_eq_some_iff.mp hframe
      simp only [List.map_set]
      rw [← hframe, List.set_getElem_self, h.frames]
  rw [Function.update_eq_self] at hstreams
  refine ⟨hstreams, ?_⟩
  have hrest := (h.inTurn c).rest_eq hwriter hnotDone
  rw [List.map_map] at hrest
  have hunsent : s.unsent c = w.frame.drop w.transferred := hrest
  rw [hunsent, ← hpiece, Sending.transfer, setSocket]
  simp only [Function.update_self]

/-- The bytes that are transferred stay so. -/
def Extends (s s' : Sending) : Prop := ∀ c, (s.sockets c).transferred <+: (s'.sockets c).transferred

theorem extends_of_sockets (hs : s'.sockets = s.sockets) : s.Extends s' := fun c => by
  simp only [hs, List.prefix_rfl]

/-- An event that changes the socket of one connection. -/
theorem extends_setSocket {socket : Socket} (hs : s'.sockets = Function.update s.sockets c socket)
    (hpre : (s.sockets c).transferred <+: socket.transferred) : s.Extends s' := by
  intro c'
  rw [hs]
  by_cases hc : c' = c
  · subst hc
    rwa [Function.update_self]
  · simp only [Function.update_of_ne hc, List.prefix_rfl]

/-- A send, to the connection that the table has for the role id, if any. -/
theorem Streams.send (h : s.Streams msgs) {conn : Option ConnId} (hi : ∀ c ∈ conn, s.Idle c)
    {message : Message} {b : Buffer} (hv : b.Valid) (hr : b.readable = message.frame)
    (hs : ∀ c ∈ conn, s' = s.sent c message b) (hnone : conn = none → s'.Inv ∧ s'.sockets = s.sockets) :
    s'.Streams (fun c => msgs c ++ if conn = some c then [message] else []) ∧ s.Extends s' := by
  cases conn with
  | none =>
    obtain ⟨hinv, hsockets⟩ := hnone rfl
    refine ⟨?_, extends_of_sockets hsockets⟩
    simpa using h.of_sockets hinv hsockets
  | some c =>
    obtain rfl := hs c rfl
    refine ⟨?_, extends_setSocket rfl List.prefix_rfl⟩
    have hmsgs : (fun c' => msgs c' ++ if some c = some c' then [message] else []) =
        Function.update msgs c (msgs c ++ [message]) := by
      funext c'
      by_cases hc : c' = c
      · subst hc
        rw [Function.update_self, if_pos rfl]
      · rw [Function.update_of_ne hc, if_neg fun heq => hc (Option.some.inj heq).symm, List.append_nil]
    rw [hmsgs]
    exact h.sent (hi c rfl) hv hr

/-- **An event within the contract** does not fail. The messages it sends come behind the others, and
what is transferred stays so. -/
theorem Streams.step (h : s.Streams msgs) {e : SendEvent} (he : s.WithinContract e) :
    ∃ s', s.step e = .ok s' ∧ s'.Streams (fun c => msgs c ++ s.started c e) ∧ s.Extends s' := by
  obtain ⟨s', hs', hinv⟩ := inv_step h.inv (h.undisturbed he)
  refine ⟨s', hs', ?_⟩
  cases e with
  | sendCallback roleId message =>
    obtain ⟨b, hv, hr, hs, -⟩ := send_ok (s := s) roleId message
    cases hs.symm.trans hs'
    refine h.send he hv hr (fun c hc => by rw [Option.mem_def.mp hc]) fun hnone => ?_
    rw [hnone] at hinv ⊢
    exact ⟨hinv, rfl⟩
  | sendMsgAsync roleId message =>
    obtain ⟨b, hv, hr, -, hs⟩ := send_ok (s := s) roleId message
    cases hs.symm.trans hs'
    refine h.send he hv hr (fun c hc => by rw [Option.mem_def.mp hc]) fun hnone => ?_
    rw [hnone]
    exact ⟨h.inv, rfl⟩
  | leaveScope buffer =>
    cases hs'
    simpa [started] using ⟨h.of_sockets hinv rfl, extends_of_sockets rfl⟩
  | overwrite buffer offset byte =>
    have hsockets : s'.sockets = s.sockets := by
      rw [Sending.step] at hs'
      split at hs' <;> cases hs' <;> rfl
    simpa [started] using ⟨h.of_sockets hinv hsockets, extends_of_sockets hsockets⟩
  | transfer c i n =>
    simp only [started, List.append_nil]
    rw [Sending.step] at hs'
    split at hs'
    · cases hs'
      exact ⟨h, extends_of_sockets rfl⟩
    · next w hw =>
      cases hs'
      obtain ⟨hstreams, hpiece⟩ := h.transfer hw (he w hw)
      exact ⟨hstreams, extends_setSocket rfl (List.prefix_append ..)⟩
  | setConn roleId c =>
    cases hs'
    simpa [started] using ⟨h.of_sockets hinv rfl, extends_of_sockets rfl⟩

end Streams

end Sending

/-! ## Both ends -/

/-- A connection: the host that sends on it, and the receiver at its other end. -/
structure Channel where
  sending : Sending
  /-- The messages sent on the connection, in order. -/
  sent : List Message
  delivery : Delivery
  /-- How many of its bytes were read. -/
  read : Nat

inductive ChannelEvent where
  | send (e : SendEvent)
  /-- A read completes with the next `n` bytes. -/
  | receive (n : Nat)
  deriving DecidableEq, Repr

namespace Channel

def new (conn : GameConnection) : Channel := ⟨.new, [], .start conn, 0⟩

/-- The bytes that are transferred and not yet read. -/
def inFlight (c : ConnId) (s : Channel) : List Byte := (s.sending.sockets c).transferred.drop s.read

/-- One event, for the connection that the sending host knows as `c`. -/
def step (c : ConnId) (s : Channel) : ChannelEvent → Except Fault Channel
  | .send e => do
    let sending ← s.sending.step e
    return { s with sending := sending, sent := s.sent ++ s.sending.started c e }
  | .receive n => do
    let delivery ← deliver s.delivery ((s.inFlight c).take n)
    return { s with delivery := delivery, read := s.read + ((s.inFlight c).take n).length }

/-- The contract of both ends, for messages as their classes make them. -/
def WithinContract (c : ConnId) (s : Channel) : ChannelEvent → Prop
  | .send e => s.sending.WithinContract e ∧ ∀ m ∈ s.sending.started c e, m.AsConstructed
  | .receive n => Offered s.delivery ((s.inFlight c).take n)

instance (c : ConnId) (s : Channel) : ∀ e, Decidable (s.WithinContract c e)
  | .send _ => inferInstanceAs (Decidable (_ ∧ ∀ _ ∈ _, _))
  | .receive _ => inferInstanceAs (Decidable (Offered _ _))

/-- **The connection is a queue of messages.** The receiver was handed the first `k` of those sent, and
holds less than the frame of the next; the bytes of the others are held, in flight or still to be
transferred; and none is left once the sender is idle and everything is read. -/
def Fifo (c : ConnId) (s : Channel) : Prop :=
  ∃ k ≤ s.sent.length,
    (ConnCall.messages s.delivery.calls).map transmitMessage =
      (s.sent.take k).map (fun m => .ok (some m)) ∧
    s.delivery.held ++ (s.inFlight c ++ s.sending.unsent c) =
      ((s.sent.drop k).map Message.frame).flatten ∧
    (∀ m, s.sent[k]? = some m → s.delivery.held.length < m.frame.length) ∧
    (s.sending.Idle c → s.inFlight c = [] → k = s.sent.length)

structure Inv (c : ConnId) (s : Channel) : Prop where
  streams : ∃ msgs, s.sending.Streams msgs ∧ msgs c = s.sent
  constructed : ∀ m ∈ s.sent, m.AsConstructed
  ready : s.delivery.receiver.Ready
  read_le : s.read ≤ (s.sending.sockets c).transferred.length
  fed : frameDecoder.Fed ((s.sending.sockets c).transferred.take s.read)
    (ConnCall.messages s.delivery.calls) s.delivery.held

section Steps

variable {c : ConnId} {s : Channel}

theorem inv_new (c : ConnId) (conn : GameConnection) : Inv c (new conn) where
  streams := ⟨_, Sending.streams_new, rfl⟩
  constructed := by simp [new]
  ready := ready_start conn
  read_le := Nat.le_refl _
  fed := by
    show frameDecoder.Fed [] [] (Delivery.start conn).held
    rw [held_start]
    exact .start

/-- What was read, with any further bytes in flight, is a part of the frames. -/
theorem Inv.read_isPrefix (h : Inv c s) (n : Nat) :
    (s.sending.sockets c).transferred.take s.read ++ (s.inFlight c).take n <+:
      (framesOf s.sent).flatMap Prod.fst := by
  obtain ⟨msgs, hstreams, hmsgs⟩ := h.streams
  rw [framesOf_bytes, ← hmsgs, inFlight, ← List.take_add]
  exact (List.take_prefix _ _).trans (hstreams.transferred_isPrefix c)

/-- The invariant gives the property. -/
theorem fifo_of_inv (h : Inv c s) : Fifo c s := by
  have hframes := isFrame_framesOf h.constructed
  have hpre := h.read_isPrefix 0
  rw [List.take_zero, List.append_nil] at hpre
  obtain ⟨k, hout, hcut⟩ := h.fed.frames hframes hpre
  obtain ⟨msgs, hstreams, hmsgs⟩ := h.streams
  have hk : k ≤ s.sent.length := by simpa [framesOf] using hcut.le
  have hbytes : s.delivery.held ++ (s.inFlight c ++ s.sending.unsent c) =
      ((s.sent.drop k).map Message.frame).flatten := by
    have hall := hstreams.transferred_append c
    have hread : (s.sending.sockets c).transferred.take s.read =
        ((s.sent.take k).map Message.frame).flatten ++ s.delivery.held := by
      rw [hcut.split, framesOf, ← List.map_take]
      exact congrArg (· ++ _) (framesOf_bytes (s.sent.take k))
    have hsplit : (s.sent.map Message.frame).flatten =
        ((s.sent.take k).map Message.frame).flatten ++ ((s.sent.drop k).map Message.frame).flatten := by
      rw [← List.flatten_append, ← List.map_append, List.take_append_drop]
    rw [hmsgs, hsplit, ← List.take_append_drop s.read (s.sending.sockets c).transferred, hread,
      List.append_assoc, List.append_assoc] at hall
    exact List.append_cancel_left hall
  have hshort : ∀ m, s.sent[k]? = some m → s.delivery.held.length < m.frame.length := fun m hm =>
    hcut.short (m.frame, received m.frame) (by rw [framesOf, List.getElem?_map, hm]; rfl)
  refine ⟨k, hk, ?_, hbytes, hshort, fun hidle hempty => ?_⟩
  · rw [hout, framesOf, ← List.map_take, List.map_map, List.map_map]
    refine List.map_congr_left fun m hm => ?_
    exact transmitMessage_frame (h.constructed m (List.mem_of_mem_take hm))
  · by_contra hne
    have hlt : k < s.sent.length := by omega
    rw [hempty, hstreams.unsent_of_idle hidle, List.append_nil, List.append_nil] at hbytes
    have hshort := hshort s.sent[k] (List.getElem?_eq_getElem hlt)
    rw [hbytes, List.drop_eq_getElem_cons hlt, List.map_cons, List.flatten_cons, List.length_append] at hshort
    exact absurd hshort (Nat.not_lt.mpr (Nat.le_add_right _ _))

/-- **An event within the contract** does not fail, and the connection stays a queue. -/
theorem inv_step (h : Inv c s) {e : ChannelEvent} (he : s.WithinContract c e) :
    ∃ s', s.step c e = .ok s' ∧ Inv c s' := by
  obtain ⟨msgs, hstreams, hmsgs⟩ := h.streams
  cases e with
  | send e =>
    obtain ⟨hcontract, hconstructed⟩ := he
    obtain ⟨sending, hs, hstreams', hext⟩ := hstreams.step hcontract
    refine ⟨{ s with sending := sending, sent := s.sent ++ s.sending.started c e }, by rw [step, hs]; rfl,
      ⟨_, hstreams', by rw [hmsgs]⟩, ?_, h.ready, ?_, ?_⟩
    · intro m hm
      rcases List.mem_append.mp hm with hm | hm
      · exact h.constructed m hm
      · exact hconstructed m hm
    · exact Nat.le_trans h.read_le (hext c).length_le
    · obtain ⟨rest, hrest⟩ := hext c
      show frameDecoder.Fed ((sending.sockets c).transferred.take s.read) _ _
      rw [← hrest, List.take_append_of_le_length h.read_le]
      exact h.fed
  | receive n =>
    obtain ⟨bs, r, hdrain⟩ := h.fed.frames_drain (isFrame_framesOf h.constructed) (h.read_isPrefix n)
    obtain ⟨d, hd, hcalls, hheld, hready⟩ := deliver_of_drain h.ready he hdrain
    have hbytes : (s.sending.sockets c).transferred.take (s.read + ((s.inFlight c).take n).length) =
        (s.sending.sockets c).transferred.take s.read ++ (s.inFlight c).take n := by
      rw [List.take_add, List.length_take, inFlight, ← List.take_eq_take_min]
    refine ⟨{ s with delivery := d, read := s.read + ((s.inFlight c).take n).length }, by rw [step, hd]; rfl,
      ⟨msgs, hstreams, hmsgs⟩, h.constructed, hready, ?_, ?_⟩
    · have := h.read_le
      simp only [inFlight, List.length_take, List.length_drop]
      omega
    · show frameDecoder.Fed _ (ConnCall.messages d.calls) d.held
      rw [hbytes, hcalls, hheld]
      exact h.fed.piece hdrain

end Steps

/-- **A connection used within asio's contract is a queue of messages**, in every interleaving of
sends, partial writes and reads. -/
theorem channel_fifo (c : ConnId) (conn : GameConnection) {events : List ChannelEvent}
    (h : EachStep (step c) (WithinContract c) (new conn) events) :
    Safe (step c) (Fifo c) (new conn) events :=
  safe_of_step (fun _ => fifo_of_inv) (fun _ _ hi he => inv_step hi he) (inv_new c conn) h

/-- A ping that is read in two pieces, the second of them while a move is being sent. -/
def pingThenMove : List ChannelEvent :=
  [.send (.setConn 5 (some 0)), .send (.sendMsgAsync 5 pingOfFive), .send (.transfer 0 0 10), .receive 10,
    .send (.transfer 0 0 19), .send (.leaveScope 0), .send (.sendMsgAsync 5 moveOfFive),
    .send (.transfer 0 1 5), .receive 24]

theorem pingThenMove_fifo : Safe (step 0) (Fifo 0) (new ⟨0, true⟩) pingThenMove :=
  channel_fifo 0 ⟨0, true⟩ (by decide +kernel)

end Channel

end GameNetwork
