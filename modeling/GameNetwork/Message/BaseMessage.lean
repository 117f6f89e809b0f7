import GameNetwork.Buffer.Buffer

/-!
# Messages

`Message/BaseMessage.h`, `Message/BaseMessage.cpp` and the four concrete
messages. A frame is a 4-byte length, a 17-byte header and a body; the length
counts header and body, not itself.

`encodeMessage` writes one message behind what a buffer holds and the length
in front of it. `decodeMessageHeader` peeks and reads its way through the
first 21 bytes and leaves by one of four exits.
-/

namespace GameNetwork

open Lib

/-- `ROLE_ID`, an `int32_t`. -/
abbrev RoleId := BitVec 32

/-- `MessageType`: every value of the `uint8_t` under the enumeration. -/
structure MessageType where
  num : BitVec 8
  deriving DecidableEq, Repr

namespace MessageType

/-- `TYTE_MIN`. -/
def tyteMin : MessageType := ⟨0⟩
/-- `DEFAULT`. -/
def default : MessageType := ⟨1⟩
def control : MessageType := ⟨2⟩
def ping : MessageType := ⟨3⟩
def enterRoom : MessageType := ⟨4⟩
def gameStart : MessageType := ⟨5⟩
def typeMax : MessageType := ⟨6⟩

def enumerators : List MessageType :=
  [tyteMin, default, control, ping, enterRoom, gameStart, typeMax]

end MessageType

/-- `ControlMessage::MoveDirection`: every value of the `uint8_t` under it. -/
structure MoveDirection where
  num : BitVec 8
  deriving DecidableEq, Repr

namespace MoveDirection

def none : MoveDirection := ⟨0⟩
def up : MoveDirection := ⟨1⟩
def down : MoveDirection := ⟨2⟩
def left : MoveDirection := ⟨3⟩
def right : MoveDirection := ⟨4⟩

def enumerators : List MoveDirection := [none, up, down, left, right]

end MoveDirection

/-- `MAGIC`. -/
def magicNumber : BitVec 32 := 0x11000011

/-- `MAX_PACK_SIZE`. -/
def maxPackSize : BitVec 32 := 4 * 1024

/-- `HEADER_SIZE_NO_LENGTH`: id, magic and role of four bytes, a version of one, a type sent as
an `int`. -/
def headerSizeNoLength : BitVec 32 := 4 + 4 + 4 + 1 + 4

structure BaseMessage where
  magic : BitVec 32
  messageUniqueId : BitVec 32
  roleId : RoleId
  version : BitVec 8
  messageType : MessageType
  deriving DecidableEq, Repr

/-- `BaseMessage()`. -/
def BaseMessage.new : BaseMessage := ⟨magicNumber, 0, 0, 0x00, .default⟩

structure ControlMessage extends BaseMessage where
  tick : BitVec 32
  moveDirection : MoveDirection
  deriving DecidableEq, Repr

structure PingMessage extends BaseMessage where
  timestamp : BitVec 64
  deriving DecidableEq, Repr

structure EnterRoomMessage extends BaseMessage where
  roomId : BitVec 32
  result : BitVec 32
  deriving DecidableEq, Repr

structure GameStartMessage extends BaseMessage where
  timestamp : BitVec 64
  deriving DecidableEq, Repr

/-- `ControlMessage()`. -/
def ControlMessage.new : ControlMessage :=
  { BaseMessage.new with version := 1, messageType := .control, tick := 0x12345678, moveDirection := .none }

/-- `PingMessage()`. -/
def PingMessage.new : PingMessage :=
  { BaseMessage.new with version := 1, messageType := .ping, timestamp := 0 }

/-- `EnterRoomMessage()`. -/
def EnterRoomMessage.new : EnterRoomMessage :=
  { BaseMessage.new with messageType := .enterRoom, roomId := 0, result := 0 }

/-- `GameStartMessage()`. -/
def GameStartMessage.new : GameStartMessage :=
  { BaseMessage.new with version := 1, messageType := .gameStart, timestamp := 0 }

/-- An object of `BaseMessage` or of a class derived from it. -/
inductive Message where
  | plain (m : BaseMessage)
  | control (m : ControlMessage)
  | ping (m : PingMessage)
  | enterRoom (m : EnterRoomMessage)
  | gameStart (m : GameStartMessage)
  deriving DecidableEq, Repr

/-- The `BaseMessage` part of an object. -/
def Message.base : Message → BaseMessage
  | .plain m => m
  | .control m => m.toBaseMessage
  | .ping m => m.toBaseMessage
  | .enterRoom m => m.toBaseMessage
  | .gameStart m => m.toBaseMessage

/-! ## Encoding -/

/-- `EncodeData`, virtual. -/
def Message.encodeData (m : Message) (buffer : Buffer) : Except Fault Buffer :=
  match m with
  | .plain _ => return buffer
  | .control m => do
    let buffer ← buffer.appendNumber m.tick
    buffer.appendEnum m.moveDirection.num
  | .ping m => buffer.appendNumber m.timestamp
  | .enterRoom m => do
    let buffer ← buffer.appendNumber m.roomId
    buffer.appendNumber m.result
  | .gameStart m => buffer.appendNumber m.timestamp

def Message.encodeMessage (m : Message) (buffer : Buffer) : Except Fault Buffer := do
  let oldSize := buffer.readableSize
  let buffer ← buffer.appendNumber m.base.magic
  let buffer ← buffer.appendNumber m.base.messageUniqueId
  let buffer ← buffer.appendNumber m.base.roleId
  let buffer ← buffer.appendNumber m.base.version
  let buffer ← buffer.appendEnum m.base.messageType.num
  let buffer ← m.encodeData buffer
  -- put pack length at begin pos
  buffer.preAppendNumber (BitVec.ofNat 32 (sizeSub buffer.readableSize oldSize))

/-! ## Decoding -/

/-- What `DecodeMessageHeader` leaves: the pair it returns, the message and the buffer it works
on, and `*body_size` where it writes it. -/
structure HeaderResult where
  ok : Bool
  length : BitVec 32
  message : BaseMessage
  buffer : Buffer
  bodySize : Option (BitVec 32)
  deriving DecidableEq, Repr

def BaseMessage.decodeMessageHeader (message : BaseMessage) (buffer : Buffer) :
    Except Fault HeaderResult := do
  let oldSize := BitVec.ofNat 32 buffer.readableSize
  if oldSize.toNat < 4 then
    return ⟨true, 0, message, buffer, none⟩
  let packSize ← buffer.peekNumber 32
  if maxPackSize < packSize then
    return ⟨false, 0, message, buffer, none⟩
  if buffer.readableSize < packSize.toNat + 4 then
    return ⟨true, 0, message, buffer, none⟩
  let buffer := buffer.addReadIndex 4
  let magic ← buffer.peekNumber 32
  let message := { message with magic := magic }
  if magic ≠ magicNumber then
    return ⟨false, 0, message, buffer, none⟩
  let buffer := buffer.addReadIndex 4
  let (messageUniqueId, buffer) ← buffer.readNumber 32
  let (roleId, buffer) ← buffer.readNumber 32
  let (version, buffer) ← buffer.readNumber 8
  let (messageType, buffer) ← buffer.readEnum
  let message := ⟨magic, messageUniqueId, roleId, version, ⟨messageType⟩⟩
  if messageType ≤ MessageType.tyteMin.num ∨ MessageType.typeMax.num ≤ messageType then
    return ⟨false, 0, message, buffer, none⟩
  let bodySize := packSize - headerSizeNoLength
  return ⟨true, BitVec.ofNat 32 (sizeSub oldSize.toNat buffer.readableSize), message, buffer,
    some bodySize⟩

end GameNetwork
