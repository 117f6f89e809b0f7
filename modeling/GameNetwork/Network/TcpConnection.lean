import GameNetwork.Network.FrameDecoder

/-!
# The receive loop

`Network/TcpConnection.h`, `Network/TcpConnection.cpp`. `AsyncWaitData` reads
into the free end of a buffer of fixed size, and its handler makes room once
that buffer is exactly full, hands the content to `onNewData` and waits again.
`onRead` is the handler.

`deliver` is one completed read, with the callbacks of the whole run kept.
`Offered` is what the library underneath hands over: at least one byte, and no
more than there is room for; nothing, and at once, when there is no room.
`fed_of_run` says that any such run feeds the frame decoder.
-/

namespace GameNetwork

open Lib GameNetwork.Frame

inductive ErrorCode where
  | eof
  | connectionReset
  /-- Any other error. -/
  | other (value : Nat)
  deriving DecidableEq, Repr

/-- How an `async_read_some` completes. -/
inductive ReadResult where
  | error (ec : ErrorCode)
  /-- With these bytes stored at `WriteBegin()`. -/
  | data (bytes : List Byte)
  deriving DecidableEq, Repr

/-- A `TcpConnection` as it receives, with the `GameConnection` its callbacks belong to. -/
structure Receiver where
  conn : GameConnection
  buffer : Buffer
  deriving DecidableEq, Repr

/-- What the handler leaves. -/
structure ReadDone where
  receiver : Receiver
  calls : List ConnCall
  /-- `on_conn_close_func_` was called. -/
  close : Bool
  /-- `AsyncWaitData` was called again. -/
  armed : Bool
  deriving DecidableEq, Repr

/-- The handler of `AsyncWaitData`. -/
def Receiver.onRead (s : Receiver) : ReadResult → Except Fault ReadDone
  | .error ec => return ⟨s, [], ec = .eof || ec = .connectionReset, false⟩
  | .data bytes => do
    let buffer ← s.buffer.copyIn s.buffer.writeIdx bytes
    let buffer := buffer.addWriteIndex bytes.length
    let buffer ← if buffer.writableSize = 0 then buffer.adjustBuffer else pure buffer
    let r ← s.conn.onNewData buffer
    return ⟨⟨r.conn, r.buffer⟩, r.calls, false, true⟩

/-- What the handler of `AsyncWaitData` does with the bytes read, up to the call of `OnNewData`. -/
def Buffer.storeRead (buffer : Buffer) (bytes : List Byte) : Except Fault Buffer := do
  let buffer ← buffer.copyIn buffer.writeIdx bytes
  let buffer := buffer.addWriteIndex bytes.length
  if buffer.writableSize = 0 then buffer.adjustBuffer else return buffer

/-- A receiver, and all the callbacks it has made. -/
structure Delivery where
  receiver : Receiver
  calls : List ConnCall
  deriving DecidableEq, Repr

/-- A connection that has received nothing. -/
def Delivery.start (conn : GameConnection) : Delivery := ⟨⟨conn, Buffer.new defaultBufferSize⟩, []⟩

/-- The bytes held and not yet read. -/
abbrev Delivery.held (d : Delivery) : List Byte := d.receiver.buffer.readable

/-- One completed read. -/
def deliver (d : Delivery) (piece : List Byte) : Except Fault Delivery := do
  let r ← d.receiver.onRead (.data piece)
  return ⟨r.receiver, d.calls ++ r.calls⟩

/-- What a read can complete with. -/
def Offered (d : Delivery) (piece : List Byte) : Prop :=
  (d.receiver.buffer.writableSize = 0 ∧ piece = []) ∨
    (piece ≠ [] ∧ piece.length ≤ d.receiver.buffer.writableSize)

instance (d : Delivery) (piece : List Byte) : Decidable (Offered d piece) :=
  inferInstanceAs (Decidable (_ ∨ _))

/-! ## The handler -/

namespace Receiver

/-- The indices are in order, the reserve is in place, and the buffer has kept its size. -/
structure Ready (s : Receiver) : Prop where
  valid : s.buffer.Valid
  reserve : idxBegin ≤ s.buffer.readIdx
  size : s.buffer.bytes.length = defaultBufferSize + idxBegin

/-- The handler of `AsyncWaitData` stores what was read and calls `OnNewData`. -/
theorem onRead_storeRead (s : Receiver) (bytes : List Byte) :
    s.onRead (.data bytes) = (s.buffer.storeRead bytes).bind fun buffer =>
      (s.conn.onNewData buffer).map fun r => ⟨⟨r.conn, r.buffer⟩, r.calls, false, true⟩ := by
  unfold onRead Buffer.storeRead
  simp only [bind, Except.bind, pure, Except.pure]
  cases s.buffer.copyIn s.buffer.writeIdx bytes with
  | error e => rfl
  | ok buffer =>
    dsimp only
    split
    · cases (buffer.addWriteIndex bytes.length).adjustBuffer with
      | error e => rfl
      | ok buffer' => dsimp only; cases s.conn.onNewData buffer' <;> rfl
    · dsimp only
      cases s.conn.onNewData (buffer.addWriteIndex bytes.length) <;> rfl

/-- The buffer `onNewData` is called with. -/
def arrived (s : Receiver) (piece : List Byte) : Buffer :=
  if (s.buffer.written piece).writableSize = 0 then (s.buffer.written piece).adjusted
  else s.buffer.written piece

theorem Ready.length_le {s : Receiver} (hs : s.Ready) : s.buffer.readable.length ≤ defaultBufferSize := by
  have h1 := hs.reserve
  have h2 := hs.valid.write_le_size
  rw [Buffer.length_readable hs.valid]
  have := hs.size
  omega

/-- Dropping what was read keeps a receiver ready. -/
theorem Ready.addReadIndex {s : Receiver} (hs : s.Ready) (n : Nat) :
    (⟨s.conn, s.buffer.addReadIndex n⟩ : Receiver).Ready := by
  have hcons := Buffer.consumed_addReadIndex hs.valid n
  refine ⟨hcons.valid, Nat.le_trans hs.reserve hcons.le_readIdx, ?_⟩
  rw [show (s.buffer.addReadIndex n).bytes = _ from hcons.bytes_eq]
  exact hs.size

section Arrived

variable {s : Receiver} {piece : List Byte} (hs : s.Ready)
  (hp : piece.length ≤ s.buffer.writableSize)

include hs hp

theorem room : s.buffer.writeIdx + piece.length ≤ s.buffer.bytes.length := by
  have h := hs.valid.write_le_size
  rw [Buffer.writableSize_eq hs.valid] at hp
  omega

theorem ready_written : (⟨s.conn, s.buffer.written piece⟩ : Receiver).Ready where
  valid := Buffer.valid_written hs.valid (room hs hp)
  reserve := hs.reserve
  size := (Buffer.length_written (room hs hp)).trans hs.size

theorem fits_written : (s.buffer.written piece).Fits :=
  Buffer.fits_of_reserve (ready_written hs hp).valid hs.reserve

theorem ready_arrived : (⟨s.conn, s.arrived piece⟩ : Receiver).Ready := by
  unfold arrived
  split
  · have hf := fits_written hs hp
    exact ⟨Buffer.valid_adjusted hf, Nat.le_refl _,
      (Buffer.length_adjusted hf).trans (ready_written hs hp).size⟩
  · exact ready_written hs hp

/-- **The piece joins what was held**, compacted or not. -/
theorem readable_arrived : (s.arrived piece).readable = s.buffer.readable ++ piece := by
  unfold arrived
  split
  · rw [Buffer.readable_adjusted (fits_written hs hp), Buffer.readable_written hs.valid (room hs hp)]
  · exact Buffer.readable_written hs.valid (room hs hp)

theorem writeIdx_arrived : (s.arrived piece).writeIdx ≤ s.buffer.writeIdx + piece.length := by
  unfold arrived
  split
  · have h := Buffer.length_readable (ready_written hs hp).valid
    have h8 : 8 ≤ s.buffer.readIdx := hs.reserve
    have hle := (ready_written hs hp).valid.read_le_write
    simp only [Buffer.written, Buffer.adjusted] at h hle ⊢
    show 8 + _ ≤ _
    omega
  · exact Nat.le_refl _

omit hp in
/-- What was read is stored as long as there is room. -/
theorem storeRead_eq (piece : List Byte) :
    s.buffer.storeRead piece =
      if piece.length ≤ s.buffer.writableSize then .ok (s.arrived piece) else .error .outOfBounds := by
  unfold Buffer.storeRead arrived
  split
  · next hp =>
    have hstored : (⟨store s.buffer.bytes s.buffer.writeIdx piece, s.buffer.readIdx,
        s.buffer.writeIdx⟩ : Buffer).addWriteIndex piece.length = s.buffer.written piece := rfl
    simp only [Buffer.copyIn_of_le (room hs hp), bind, Except.bind, pure, Except.pure, hstored,
      Buffer.adjustBuffer_eq (ready_written hs hp).valid (fits_written hs hp)]
    split <;> rfl
  · next hp =>
    have hroom : ¬ s.buffer.writeIdx + piece.length ≤ s.buffer.bytes.length := by
      rw [Buffer.writableSize_eq hs.valid] at hp
      omega
    unfold Buffer.copyIn
    rw [if_neg hroom]
    rfl

/-- The handler comes to `onNewData`. -/
theorem onRead_data : s.onRead (.data piece) =
    (s.conn.onNewData (s.arrived piece)).map fun r => ⟨⟨r.conn, r.buffer⟩, r.calls, false, true⟩ := by
  rw [onRead_storeRead, storeRead_eq hs, if_pos hp]
  rfl

end Arrived

end Receiver

/-! ## One piece -/

section Deliver

variable {d : Delivery} {piece : List Byte}

theorem Offered.length_le (h : Offered d piece) :
    piece.length ≤ d.receiver.buffer.writableSize := by
  rcases h with ⟨-, rfl⟩ | ⟨-, hle⟩
  · exact Nat.zero_le _
  · exact hle

theorem deliver_eq (hs : d.receiver.Ready) (hp : Offered d piece) :
    deliver d piece = (d.receiver.conn.onNewData (d.receiver.arrived piece)).map fun r =>
      ⟨⟨r.conn, r.buffer⟩, d.calls ++ r.calls⟩ := by
  unfold deliver
  rw [Receiver.onRead_data hs hp.length_le]
  cases d.receiver.conn.onNewData (d.receiver.arrived piece) <;> rfl

/-- What a delivery does, by the drain of what is held and the piece. -/
def DeliveryAnswers (d : Delivery) (piece : List Byte) :
    Option (List BaseMsgWithBuffer × List Byte) → Prop
  | some (bs, rest) => ∃ d', deliver d piece = .ok d' ∧
      ConnCall.messages d'.calls = ConnCall.messages d.calls ++ bs ∧
      d'.held = rest ∧ d'.receiver.Ready ∧
      d'.receiver.buffer.writeIdx ≤ d.receiver.buffer.writeIdx + piece.length
  | none => ∃ c, deliver d piece = .error (.assertion c)

/-- **A delivery drains the decoder.** -/
theorem deliver_drain (hs : d.receiver.Ready) (hp : Offered d piece) :
    DeliveryAnswers d piece (frameDecoder.drain (d.held ++ piece)) := by
  have hready := Receiver.ready_arrived hs hp.length_le
  have hcontent := Receiver.readable_arrived hs hp.length_le
  have hlen : (d.receiver.arrived piece).readable.length < 2 ^ 32 := by
    have := hready.length_le
    exact Nat.lt_of_le_of_lt this (by decide)
  have hloop := GameConnection.onNewData_drain hready.valid hlen d.receiver.conn
  rw [hcontent] at hloop
  have hdeliver := deliver_eq hs hp
  cases hdrain : frameDecoder.drain (d.held ++ piece) with
  | none =>
    rw [hdrain] at hloop
    obtain ⟨c, hc⟩ := hloop
    exact ⟨c, by rw [hdeliver, hc]; rfl⟩
  | some out =>
    rw [hdrain] at hloop
    obtain ⟨r, hrun, hmsgs, hreadable, hcons⟩ := hloop
    refine ⟨⟨⟨r.conn, r.buffer⟩, d.calls ++ r.calls⟩, by rw [hdeliver, hrun]; rfl, ?_, hreadable,
      ⟨hcons.valid, Nat.le_trans hready.reserve hcons.le_readIdx, ?_⟩, ?_⟩
    · rw [ConnCall.messages_append, hmsgs]
    · exact (congrArg List.length hcons.bytes_eq).trans hready.size
    · exact hcons.writeIdx_eq ▸ Receiver.writeIdx_arrived hs hp.length_le

theorem deliver_of_drain {bs : List BaseMsgWithBuffer} {rest : List Byte} (hs : d.receiver.Ready)
    (hp : Offered d piece) (hdrain : frameDecoder.drain (d.held ++ piece) = some (bs, rest)) :
    ∃ d', deliver d piece = .ok d' ∧
      ConnCall.messages d'.calls = ConnCall.messages d.calls ++ bs ∧ d'.held = rest ∧
      d'.receiver.Ready := by
  have hanswer := deliver_drain hs hp
  rw [hdrain] at hanswer
  obtain ⟨d', hd', hmsgs, hheld, hready, -⟩ := hanswer
  exact ⟨d', hd', hmsgs, hheld, hready⟩

/-- A delivery that returns, read backwards. -/
theorem deliver_ok {d' : Delivery} (hs : d.receiver.Ready) (hp : Offered d piece)
    (h : deliver d piece = .ok d') : ∃ bs, frameDecoder.drain (d.held ++ piece) = some (bs, d'.held) ∧
      ConnCall.messages d'.calls = ConnCall.messages d.calls ++ bs ∧ d'.receiver.Ready ∧
      d'.receiver.buffer.writeIdx ≤ d.receiver.buffer.writeIdx + piece.length := by
  have hanswer := deliver_drain hs hp
  cases hdrain : frameDecoder.drain (d.held ++ piece) with
  | none =>
    rw [hdrain] at hanswer
    obtain ⟨c, hc⟩ := hanswer
    rw [h] at hc; cases hc
  | some out =>
    rw [hdrain] at hanswer
    obtain ⟨d'', hd'', hmsgs, hheld, hready, hwrite⟩ := hanswer
    rw [h] at hd''
    cases hd''
    exact ⟨out.1, by rw [hheld], hmsgs, hready, hwrite⟩

end Deliver

/-! ## Runs -/

theorem ready_start (conn : GameConnection) : (Delivery.start conn).receiver.Ready :=
  ⟨Buffer.valid_default, Nat.le_refl _, Buffer.length_new (by decide)⟩

@[simp] theorem held_start (conn : GameConnection) : (Delivery.start conn).held = [] :=
  Buffer.readable_new _

/-- What the first piece does. -/
theorem deliver_first {conn : GameConnection} {piece rest : List Byte}
    {bs : List BaseMsgWithBuffer} (hp : Offered (Delivery.start conn) piece)
    (hdrain : frameDecoder.drain piece = some (bs, rest)) :
    ∃ d, deliver (Delivery.start conn) piece = .ok d ∧ ConnCall.messages d.calls = bs ∧
      d.held = rest ∧ d.receiver.Ready :=
  deliver_of_drain (ready_start conn) hp (by rwa [held_start, List.nil_append])

theorem writableSize_start (conn : GameConnection) :
    (Delivery.start conn).receiver.buffer.writableSize = defaultBufferSize := by
  rw [Buffer.writableSize_eq (ready_start conn).valid, (ready_start conn).size]
  rfl

/-- Pieces that fit into the buffer one behind the other. -/
theorem offered_of_room {d : Delivery} (hs : d.receiver.Ready) {pieces : List (List Byte)}
    (hne : ∀ piece ∈ pieces, piece ≠ [])
    (hle : d.receiver.buffer.writeIdx + pieces.flatten.length ≤ defaultBufferSize + idxBegin) :
    EachStep deliver Offered d pieces := by
  induction pieces generalizing d with
  | nil => exact eachStep_nil
  | cons piece pieces ih =>
    rw [List.flatten_cons, List.length_append] at hle
    have hp : Offered d piece := by
      refine .inr ⟨hne piece List.mem_cons_self, ?_⟩
      rw [Buffer.writableSize_eq hs.valid, hs.size]
      omega
    refine eachStep_cons.mpr ⟨hp, fun d' hd' => ?_⟩
    obtain ⟨-, -, -, hready, hwrite⟩ := deliver_ok hs hp hd'
    exact ih hready (fun p hmem => hne p (List.mem_cons_of_mem _ hmem)) (by omega)

theorem offered_of_length {conn : GameConnection} {pieces : List (List Byte)}
    (hne : ∀ piece ∈ pieces, piece ≠ []) (hle : pieces.flatten.length ≤ defaultBufferSize) :
    EachStep deliver Offered (Delivery.start conn) pieces := by
  refine offered_of_room (ready_start conn) hne ?_
  show idxBegin + _ ≤ _
  omega

theorem ready_of_run {conn : GameConnection} {pieces : List (List Byte)} {d : Delivery}
    (hg : EachStep deliver Offered (Delivery.start conn) pieces)
    (h : run deliver (Delivery.start conn) pieces = .ok d) : d.receiver.Ready :=
  run_invariant (I := fun d : Delivery => d.receiver.Ready) (fun _ _ _ hs hp hd => by
    obtain ⟨-, -, -, hready, -⟩ := deliver_ok hs hp hd
    exact hready) (ready_start conn) hg h

/-- **A run of the receive loop feeds the decoder** with all that has arrived. -/
theorem fed_of_run {conn : GameConnection} {pieces : List (List Byte)} {d : Delivery}
    (hg : EachStep deliver Offered (Delivery.start conn) pieces)
    (h : run deliver (Delivery.start conn) pieces = .ok d) :
    frameDecoder.Fed pieces.flatten (ConnCall.messages d.calls) d.held := by
  induction pieces using List.reverseRecOn generalizing d with
  | nil =>
    cases h
    rw [held_start]
    exact .start
  | append_singleton pieces piece ih =>
    obtain ⟨d₁, h₁, h₂⟩ := run_snoc_eq_ok.mp h
    have hg₁ := hg.of_append
    have hp : Offered d₁ piece := hg pieces piece (List.prefix_refl _) d₁ h₁
    obtain ⟨bs, hdrain, hmsgs, -⟩ := deliver_ok (ready_of_run hg₁ h₁) hp h₂
    rw [hmsgs, List.flatten_append, List.flatten_singleton]
    exact .piece (ih hg₁ h₁) hdrain

end GameNetwork
