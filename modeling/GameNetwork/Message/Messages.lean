import GameNetwork.Message.BaseMessage

/-!
# From a received frame to a message

`Message/Messages.cpp` and the four `DecodeMessageBody` functions. A received
frame is a decoded header and a buffer that holds its body
(`BaseMsgWithBuffer`). `transmitMessage` makes the object of the class that
the header's type names and has it read its own fields from the body; for
any other type it returns the null pointer.
-/

namespace GameNetwork

open Lib

structure BaseMsgWithBuffer where
  bodyBuffer : Buffer
  baseMessage : BaseMessage
  deriving DecidableEq, Repr

/-- `ControlMessage::DecodeMessageBody` on the object made from `base`, whose own fields have no
value before it. -/
def ControlMessage.decodeMessageBody (base : BaseMessage) (buffer : Buffer) :
    Except Fault (ControlMessage × Buffer) := do
  let (tick, buffer) ← buffer.readNumber 32
  let (moveDirection, buffer) ← buffer.readEnum
  return ({ base with tick := tick, moveDirection := ⟨moveDirection⟩ }, buffer)

/-- `PingMessage::DecodeMessageBody`. -/
def PingMessage.decodeMessageBody (base : BaseMessage) (buffer : Buffer) :
    Except Fault (PingMessage × Buffer) := do
  let (timestamp, buffer) ← buffer.readNumber 64
  return ({ base with timestamp := timestamp }, buffer)

/-- `EnterRoomMessage::DecodeMessageBody`. -/
def EnterRoomMessage.decodeMessageBody (base : BaseMessage) (buffer : Buffer) :
    Except Fault (EnterRoomMessage × Buffer) := do
  let (roomId, buffer) ← buffer.readNumber 32
  let (result, buffer) ← buffer.readNumber 32
  return ({ base with roomId := roomId, result := result }, buffer)

/-- `GameStartMessage::DecodeMessageBody`. -/
def GameStartMessage.decodeMessageBody (base : BaseMessage) (buffer : Buffer) :
    Except Fault (GameStartMessage × Buffer) := do
  let (timestamp, buffer) ← buffer.readNumber 64
  return ({ base with timestamp := timestamp }, buffer)

/-- `TransmitMessage`; `none` is the null pointer. -/
def transmitMessage (msg : BaseMsgWithBuffer) : Except Fault (Option Message) :=
  let base := msg.baseMessage
  if base.messageType = .control then do
    let (m, _) ← ControlMessage.decodeMessageBody base msg.bodyBuffer
    return some (.control m)
  else if base.messageType = .ping then do
    let (m, _) ← PingMessage.decodeMessageBody base msg.bodyBuffer
    return some (.ping m)
  else if base.messageType = .enterRoom then do
    let (m, _) ← EnterRoomMessage.decodeMessageBody base msg.bodyBuffer
    return some (.enterRoom m)
  else if base.messageType = .gameStart then do
    let (m, _) ← GameStartMessage.decodeMessageBody base msg.bodyBuffer
    return some (.gameStart m)
  else return none

/-! ## Bodies

All four bodies are eight bytes, and what stands behind them is not looked at. -/

section Body

variable {buffer : Buffer} {s : List Byte} (hv : buffer.Valid) (hs : buffer.readable = s)
  (base : BaseMessage)

include hv hs

theorem ControlMessage.decodeMessageBody_eq :
    ControlMessage.decodeMessageBody base buffer =
      if s.length < 8 then .error (.assertion "ReadableSize() >= sizeof(T)")
      else .ok (⟨base, numAt 32 s, ⟨(numAt 32 (s.drop 4)).setWidth 8⟩⟩, buffer.addReadIndex 8) := by
  subst hs
  unfold ControlMessage.decodeMessageBody
  rw [Buffer.readNumber_eq (by decide) hv]
  by_cases h4 : buffer.readable.length < 4
  · rw [if_pos h4, if_pos (by omega)]; rfl
  rw [if_neg h4]
  simp only [bind, Except.bind]
  rw [Buffer.readEnum_eq (Buffer.valid_addReadIndex hv), Buffer.readable_addReadIndex hv,
    List.length_drop]
  by_cases h8 : buffer.readable.length < 8
  · rw [if_pos (by omega), if_pos h8]
  rw [if_neg (by omega), if_neg h8]
  simp only
  rw [Buffer.addReadIndex_add hv (by omega)]
  rfl

theorem EnterRoomMessage.decodeMessageBody_eq :
    EnterRoomMessage.decodeMessageBody base buffer =
      if s.length < 8 then .error (.assertion "ReadableSize() >= sizeof(T)")
      else .ok (⟨base, numAt 32 s, numAt 32 (s.drop 4)⟩, buffer.addReadIndex 8) := by
  subst hs
  unfold EnterRoomMessage.decodeMessageBody
  rw [Buffer.readNumber_eq (by decide) hv]
  by_cases h4 : buffer.readable.length < 4
  · rw [if_pos h4, if_pos (by omega)]; rfl
  rw [if_neg h4]
  simp only [bind, Except.bind]
  rw [Buffer.readNumber_eq (by decide) (Buffer.valid_addReadIndex hv),
    Buffer.readable_addReadIndex hv, List.length_drop]
  by_cases h8 : buffer.readable.length < 8
  · rw [if_pos (by omega), if_pos h8]
  rw [if_neg (by omega), if_neg h8]
  simp only
  rw [Buffer.addReadIndex_add hv (by omega)]
  rfl

theorem PingMessage.decodeMessageBody_eq :
    PingMessage.decodeMessageBody base buffer =
      if s.length < 8 then .error (.assertion "ReadableSize() >= sizeof(T)")
      else .ok (⟨base, numAt 64 s⟩, buffer.addReadIndex 8) := by
  subst hs
  unfold PingMessage.decodeMessageBody
  rw [Buffer.readNumber_eq (by decide) hv]
  split <;> rfl

theorem GameStartMessage.decodeMessageBody_eq :
    GameStartMessage.decodeMessageBody base buffer =
      if s.length < 8 then .error (.assertion "ReadableSize() >= sizeof(T)")
      else .ok (⟨base, numAt 64 s⟩, buffer.addReadIndex 8) := by
  subst hs
  unfold GameStartMessage.decodeMessageBody
  rw [Buffer.readNumber_eq (by decide) hv]
  split <;> rfl

end Body

/-- The type names one of the four classes. -/
def MessageType.HasClass (t : MessageType) : Prop :=
  t = .control ∨ t = .ping ∨ t = .enterRoom ∨ t = .gameStart

instance (t : MessageType) : Decidable t.HasClass := inferInstanceAs (Decidable (_ ∨ _))

/-- The object that is made from a header and a body of at least eight bytes. -/
def transmitted (base : BaseMessage) (s : List Byte) : Option Message :=
  if base.messageType = .control then
    some (.control ⟨base, numAt 32 s, ⟨(numAt 32 (s.drop 4)).setWidth 8⟩⟩)
  else if base.messageType = .ping then some (.ping ⟨base, numAt 64 s⟩)
  else if base.messageType = .enterRoom then
    some (.enterRoom ⟨base, numAt 32 s, numAt 32 (s.drop 4)⟩)
  else if base.messageType = .gameStart then some (.gameStart ⟨base, numAt 64 s⟩)
  else none

/-- **`TransmitMessage`**: a type with a class needs a body of eight bytes, and any other gives the
null pointer. -/
theorem transmitMessage_eq {msg : BaseMsgWithBuffer} (hv : msg.bodyBuffer.Valid) {s : List Byte}
    (hs : msg.bodyBuffer.readable = s) :
    transmitMessage msg =
      if msg.baseMessage.messageType.HasClass ∧ s.length < 8 then
        .error (.assertion "ReadableSize() >= sizeof(T)")
      else .ok (transmitted msg.baseMessage s) := by
  unfold transmitMessage transmitted
  simp only [ControlMessage.decodeMessageBody_eq hv hs, PingMessage.decodeMessageBody_eq hv hs,
    EnterRoomMessage.decodeMessageBody_eq hv hs, GameStartMessage.decodeMessageBody_eq hv hs]
  by_cases hcontrol : msg.baseMessage.messageType = .control
  · have hclass : msg.baseMessage.messageType.HasClass := .inl hcontrol
    simp only [if_pos hcontrol, hclass, true_and]
    split <;> rfl
  by_cases hping : msg.baseMessage.messageType = .ping
  · have hclass : msg.baseMessage.messageType.HasClass := .inr (.inl hping)
    simp only [if_neg hcontrol, if_pos hping, hclass, true_and]
    split <;> rfl
  by_cases hroom : msg.baseMessage.messageType = .enterRoom
  · have hclass : msg.baseMessage.messageType.HasClass := .inr (.inr (.inl hroom))
    simp only [if_neg hcontrol, if_neg hping, if_pos hroom, hclass, true_and]
    split <;> rfl
  by_cases hstart : msg.baseMessage.messageType = .gameStart
  · have hclass : msg.baseMessage.messageType.HasClass := .inr (.inr (.inr hstart))
    simp only [if_neg hcontrol, if_neg hping, if_neg hroom, if_pos hstart, hclass, true_and]
    split <;> rfl
  have hclass : ¬ msg.baseMessage.messageType.HasClass := by
    rintro (h | h | h | h)
    exacts [hcontrol h, hping h, hroom h, hstart h]
  simp only [if_neg hcontrol, if_neg hping, if_neg hroom, if_neg hstart, hclass, false_and, if_false]
  rfl

theorem transmitted_isSome (base : BaseMessage) (s : List Byte) :
    (transmitted base s).isSome ↔ base.messageType.HasClass := by
  unfold transmitted MessageType.HasClass
  split
  · simp [*]
  split
  · simp [*]
  split
  · simp [*]
  split
  · simp [*]
  · simp [*]

end GameNetwork
