import GameNetwork.Message.Frame

/-!
# Encoded messages

What `encodeMessage` writes, and that the receiving side reads it back.
`Message.frame` is the frame of a message as a byte string; `encodeMessage_eq`
says that encoding puts its length in front of what the buffer holds and the
rest behind it. `transmitMessage_frame` is the round trip: the frame of a
message of one of the four classes comes back as that message.
-/

namespace GameNetwork

open Lib GameNetwork.Frame

/-! ## The fields of a message on the wire -/

/-- The header fields behind the length, in order. -/
def BaseMessage.fields (m : BaseMessage) : List (List Byte) :=
  [wire m.magic, wire m.messageUniqueId, wire m.roleId, wire m.version,
    wire (m.messageType.num.setWidth 32)]

/-- The fields a class adds. -/
def Message.bodyFields : Message → List (List Byte)
  | .plain _ => []
  | .control m => [wire m.tick, wire (m.moveDirection.num.setWidth 32)]
  | .ping m => [wire m.timestamp]
  | .enterRoom m => [wire m.roomId, wire m.result]
  | .gameStart m => [wire m.timestamp]

/-- Everything behind the length. -/
def Message.payload (m : Message) : List Byte := (m.base.fields ++ m.bodyFields).flatten

def Message.frame (m : Message) : List Byte :=
  wire (BitVec.ofNat 32 m.payload.length) ++ m.payload

/-- What the owners of a connection pass on to be sent: `EncodeMessage` into a `TinyBuffer`, then
`ReadableSize()` bytes from `ReadBegin()`. -/
def Message.encoded (m : Message) : Except Fault (List Byte) := do
  let buffer ← m.encodeMessage Buffer.tiny
  buffer.copyOut buffer.readIdx buffer.readableSize

/-- Magic and type are what the constructor of one of the four classes sets. -/
def Message.AsConstructed : Message → Prop
  | .plain _ => False
  | .control m => m.magic = ControlMessage.new.magic ∧ m.messageType = ControlMessage.new.messageType
  | .ping m => m.magic = PingMessage.new.magic ∧ m.messageType = PingMessage.new.messageType
  | .enterRoom m =>
    m.magic = EnterRoomMessage.new.magic ∧ m.messageType = EnterRoomMessage.new.messageType
  | .gameStart m =>
    m.magic = GameStartMessage.new.magic ∧ m.messageType = GameStartMessage.new.messageType

instance : ∀ m : Message, Decidable m.AsConstructed
  | .plain _ => .isFalse id
  | .control _ | .ping _ | .enterRoom _ | .gameStart _ => inferInstanceAs (Decidable (_ ∧ _))

/-- An object of one of the four classes, with any values in its fields. -/
def Message.OfClass : Message → Prop
  | .plain _ => False
  | _ => True

/-! ## Encoding -/

/-- Pieces appended one after the other. -/
def Buffer.appendedAll (b : Buffer) (pieces : List (List Byte)) : Buffer := pieces.foldl Buffer.appended b

namespace Buffer

theorem appendedAll_append (b : Buffer) (xs ys : List (List Byte)) :
    b.appendedAll (xs ++ ys) = (b.appendedAll xs).appendedAll ys := List.foldl_append

section

variable {b : Buffer} (hv : b.Valid) (hf : b.Fits)

include hv hf

theorem ready_appendedAll (pieces : List (List Byte)) :
    (b.appendedAll pieces).Valid ∧ (b.appendedAll pieces).Fits := by
  induction pieces generalizing b with
  | nil => exact ⟨hv, hf⟩
  | cons x xs ih => exact ih (valid_appended hf) (fits_appended hf)

theorem readable_appendedAll (pieces : List (List Byte)) :
    (b.appendedAll pieces).readable = b.readable ++ pieces.flatten := by
  induction pieces generalizing b with
  | nil => simp [appendedAll]
  | cons x xs ih =>
    rw [show b.appendedAll (x :: xs) = (b.appended x).appendedAll xs from rfl,
      ih (valid_appended hf) (fits_appended hf), readable_appended hf, List.flatten_cons,
      List.append_assoc]

end

theorem appendedAll_readIdx {b : Buffer} {pieces : List (List Byte)} (h : pieces ≠ []) :
    (b.appendedAll pieces).readIdx = idxBegin := by
  obtain ⟨xs, x, rfl⟩ := List.eq_nil_or_concat pieces |>.resolve_left h
  rw [List.concat_eq_append, appendedAll_append]
  exact appended_readIdx _ _

end Buffer

section Encode

variable {buffer : Buffer} (hv : buffer.Valid) (hf : buffer.Fits)

include hv hf

/-- A number appended behind other pieces. -/
theorem bind_appendNumber {α : Type} {w : Nat} (hw : 8 ∣ w) (pieces : List (List Byte)) (n : BitVec w)
    (k : Buffer → Except Fault α) :
    ((buffer.appendedAll pieces).appendNumber n).bind k =
      k (buffer.appendedAll (pieces ++ [wire n])) := by
  obtain ⟨hv', hf'⟩ := Buffer.ready_appendedAll hv hf pieces
  rw [Buffer.appendNumber_eq hw hv' hf', Buffer.appendedAll_append]
  rfl

theorem encodeData_eq (pieces : List (List Byte)) (m : Message) :
    m.encodeData (buffer.appendedAll pieces) = .ok (buffer.appendedAll (pieces ++ m.bodyFields)) := by
  have one : ∀ {w : Nat} (x : BitVec w), 8 ∣ w → (buffer.appendedAll pieces).appendNumber x =
      .ok (buffer.appendedAll (pieces ++ [wire x])) := by
    intro w x hw
    obtain ⟨hv', hf'⟩ := Buffer.ready_appendedAll hv hf pieces
    rw [Buffer.appendNumber_eq hw hv' hf', Buffer.appendedAll_append]
    rfl
  have two : ∀ {w w' : Nat} (x : BitVec w) (y : BitVec w'), 8 ∣ w → 8 ∣ w' →
      ((buffer.appendedAll pieces).appendNumber x).bind (·.appendNumber y) =
        .ok (buffer.appendedAll (pieces ++ [wire x, wire y])) := by
    intro w w' x y hw hw'
    obtain ⟨hv', hf'⟩ := Buffer.ready_appendedAll hv hf (pieces ++ [wire x])
    rw [bind_appendNumber hv hf hw, Buffer.appendNumber_eq hw' hv' hf',
      show pieces ++ [wire x, wire y] = pieces ++ [wire x] ++ [wire y] by simp,
      Buffer.appendedAll_append _ (pieces ++ [wire x])]
    rfl
  cases m with
  | plain => rw [Message.bodyFields, List.append_nil]; rfl
  | control m => exact two _ _ (by decide) (by decide)
  | ping m => exact one _ (by decide)
  | enterRoom m => exact two _ _ (by decide) (by decide)
  | gameStart m => exact one _ (by decide)

/-- **`EncodeMessage` writes the frame**: its length in front of what the buffer held, the rest
behind it. -/
theorem encodeMessage_eq (m : Message) :
    ∃ b, m.encodeMessage buffer = .ok b ∧ b.Valid ∧
      b.readable = wire (BitVec.ofNat 32 m.payload.length) ++ (buffer.readable ++ m.payload) := by
  obtain ⟨hv', hf'⟩ := Buffer.ready_appendedAll hv hf (m.base.fields ++ m.bodyFields)
  have hcontent := Buffer.readable_appendedAll hv hf (m.base.fields ++ m.bodyFields)
  have hsize : sizeSub (buffer.appendedAll (m.base.fields ++ m.bodyFields)).readableSize
      buffer.readableSize = m.payload.length := by
    rw [Buffer.readableSize_readable hv', hcontent, Buffer.readableSize_readable hv,
      List.length_append, sizeSub_of_le (Nat.le_add_right ..), Nat.add_sub_cancel_left]
    rfl
  have hrun : m.encodeMessage buffer =
      (buffer.appendedAll (m.base.fields ++ m.bodyFields)).preAppendData
        (wire (BitVec.ofNat 32 m.payload.length)) := by
    unfold Message.encodeMessage
    show ((buffer.appendedAll []).appendNumber m.base.magic).bind _ = _
    rw [bind_appendNumber hv hf (by decide)]
    show ((buffer.appendedAll _).appendNumber m.base.messageUniqueId).bind _ = _
    rw [bind_appendNumber hv hf (by decide)]
    show ((buffer.appendedAll _).appendNumber m.base.roleId).bind _ = _
    rw [bind_appendNumber hv hf (by decide)]
    show ((buffer.appendedAll _).appendNumber m.base.version).bind _ = _
    rw [bind_appendNumber hv hf (by decide)]
    show ((buffer.appendedAll _).appendNumber (m.base.messageType.num.setWidth 32)).bind _ = _
    rw [bind_appendNumber hv hf (by decide)]
    show (m.encodeData (buffer.appendedAll m.base.fields)).bind _ = _
    rw [encodeData_eq hv hf]
    show (buffer.appendedAll (m.base.fields ++ m.bodyFields)).preAppendNumber _ = _
    rw [hsize, Buffer.preAppendNumber, toMem_hton (by decide)]
  have hidx : (buffer.appendedAll (m.base.fields ++ m.bodyFields)).readIdx = idxBegin :=
    Buffer.appendedAll_readIdx (by simp [BaseMessage.fields])
  have hfits : (wire (BitVec.ofNat 32 m.payload.length)).length ≤
      (buffer.appendedAll (m.base.fields ++ m.bodyFields)).readIdx := by
    rw [length_wire, hidx]; decide
  obtain ⟨b, hb, hvb, hreadable, -⟩ := Buffer.preAppendData_spec hv' hfits
  exact ⟨b, hrun.trans hb, hvb, by rw [hreadable, hcontent]; rfl⟩

end Encode

/-- **What is passed on to be sent is the frame.** -/
theorem encoded_eq (m : Message) : m.encoded = .ok m.frame := by
  obtain ⟨b, hb, hv, hreadable⟩ := encodeMessage_eq Buffer.valid_tiny Buffer.fits_tiny m
  rw [Message.encoded, hb]
  show b.copyOut b.readIdx b.readableSize = _
  rw [Buffer.readableSize_readable hv, Buffer.copyOut_readable hv (Nat.le_refl _),
    List.take_length, hreadable, Buffer.readable_tiny, List.nil_append]
  rfl

/-! ## The frame read back -/

/-- A number that stands behind `pre`. -/
theorem numAt_behind {w i : Nat} (hw : 8 ∣ w) {pre : List Byte} (hpre : pre.length = i) (u : BitVec w)
    (t : List Byte) : numAt w ((pre ++ (wire u ++ t)).drop i) = u := by
  rw [List.drop_left' hpre, numAt_wire hw]

theorem setWidth_narrow (n : BitVec 8) : (n.setWidth 32).setWidth 8 = n := by
  apply BitVec.eq_of_toNat_eq
  simp only [BitVec.toNat_setWidth]
  have := n.isLt
  omega

theorem packSize_frame (m : Message) : packSize m.frame = BitVec.ofNat 32 m.payload.length :=
  numAt_wire (by decide) _ _

/-- **The header of a frame is the message's own.** -/
theorem header_frame (m : Message) : header m.frame = m.base := by
  have field : ∀ {w i : Nat} (hw : 8 ∣ w) (pre : List Byte) (u : BitVec w) (t : List Byte),
      pre.length = i → m.frame = pre ++ (wire u ++ t) → numAt w (m.frame.drop i) = u := by
    intro w i hw pre u t hpre h
    rw [h, numAt_behind hw hpre]
  have hmagic : numAt 32 (m.frame.drop 4) = m.base.magic :=
    field (by decide) (wire (BitVec.ofNat 32 m.payload.length)) _ _ (by simp) rfl
  have hid : numAt 32 (m.frame.drop 8) = m.base.messageUniqueId :=
    field (by decide) (wire (BitVec.ofNat 32 m.payload.length) ++ wire m.base.magic) _ _ (by simp)
      (List.append_assoc ..).symm
  have hrole : numAt 32 (m.frame.drop 12) = m.base.roleId :=
    field (by decide) (wire (BitVec.ofNat 32 m.payload.length) ++ wire m.base.magic ++
      wire m.base.messageUniqueId) _ _ (by simp) (by simp only [List.append_assoc]; rfl)
  have hversion : numAt 8 (m.frame.drop 16) = m.base.version :=
    field (by decide) (wire (BitVec.ofNat 32 m.payload.length) ++ wire m.base.magic ++
      wire m.base.messageUniqueId ++ wire m.base.roleId) _ _ (by simp)
      (by simp only [List.append_assoc]; rfl)
  have htype : numAt 32 (m.frame.drop 17) = m.base.messageType.num.setWidth 32 :=
    field (by decide) (wire (BitVec.ofNat 32 m.payload.length) ++ wire m.base.magic ++
      wire m.base.messageUniqueId ++ wire m.base.roleId ++ wire m.base.version) _ _ (by simp)
      (by simp only [List.append_assoc]; rfl)
  simp only [header, magic, messageType, hmagic, hid, hrole, hversion, htype, setWidth_narrow]

theorem length_payload (m : Message) : m.payload.length = 17 + m.bodyFields.flatten.length := by
  simp only [Message.payload, List.flatten_append, List.length_append, BaseMessage.fields,
    List.flatten_cons, List.flatten_nil, length_wire, List.length_nil]

theorem frame_drop (m : Message) : m.frame.drop 21 = m.bodyFields.flatten := by
  have h : m.frame = (wire (BitVec.ofNat 32 m.payload.length) ++ m.base.fields.flatten) ++
      m.bodyFields.flatten := by
    simp only [Message.frame, List.append_assoc]
    rw [Message.payload, List.flatten_append]
  rw [h, List.drop_left' (by simp [BaseMessage.fields])]

theorem Message.AsConstructed.ofClass {m : Message} (hm : m.AsConstructed) : m.OfClass := by
  cases m with
  | plain => exact hm.elim
  | _ => trivial

/-- The body of each of the four classes is eight bytes. -/
theorem Message.OfClass.length_bodyFields {m : Message} (hm : m.OfClass) :
    m.bodyFields.flatten.length = 8 := by
  cases m with
  | plain => exact hm.elim
  | _ => rfl

section AsConstructed

variable {m : Message} (hm : m.AsConstructed)

include hm

theorem length_bodyFields : m.bodyFields.flatten.length = 8 := hm.ofClass.length_bodyFields

theorem length_frame : m.frame.length = 29 := by
  rw [Message.frame, List.length_append, length_wire, length_payload, length_bodyFields hm]

theorem packSize_frame_toNat : (packSize m.frame).toNat = 25 := by
  rw [packSize_frame, length_payload, length_bodyFields hm]
  rfl

theorem base_of_asConstructed : m.base.magic = magicNumber ∧ m.base.messageType.HasClass := by
  cases m with
  | plain => exact hm.elim
  | control m => exact ⟨hm.1, .inl hm.2⟩
  | ping m => exact ⟨hm.1, .inr (.inl hm.2)⟩
  | enterRoom m => exact ⟨hm.1, .inr (.inr (.inl hm.2))⟩
  | gameStart m => exact ⟨hm.1, .inr (.inr (.inr hm.2))⟩

/-- **The decoder accepts the frame of a message.** -/
theorem accepted_frame : Accepted m.frame := by
  obtain ⟨hmagic, hclass⟩ := base_of_asConstructed hm
  have hheader := header_frame m
  have hp := packSize_frame_toNat hm
  refine ⟨by omega, by omega, by rw [length_frame hm]; omega, ?_, ?_⟩
  · exact (congrArg BaseMessage.magic hheader).trans hmagic
  · have htype : messageType m.frame = m.base.messageType := congrArg BaseMessage.messageType hheader
    rw [TypeInRange, htype]
    rcases hclass with h | h | h | h <;> rw [h] <;> decide

theorem body_frame : body m.frame = m.bodyFields.flatten := by
  rw [body, frame_drop, bodySize_of_le (by rw [packSize_frame_toNat hm]; decide),
    packSize_frame_toNat hm]
  exact List.take_of_length_le (Nat.le_of_eq (length_bodyFields hm))

/-- **What is received for a message's frame becomes the message again.** -/
theorem transmitMessage_frame : transmitMessage (received m.frame) = .ok (some m) := by
  have hs : (received m.frame).bodyBuffer.readable = m.bodyFields.flatten :=
    (Buffer.readable_tiny_appended _).trans (body_frame hm)
  have hbase : (received m.frame).baseMessage = m.base := header_frame m
  rw [transmitMessage_eq (Buffer.valid_tiny_appended _) hs, length_bodyFields hm,
    if_neg (by omega), hbase]
  congr 1
  have second : ∀ {w : Nat} (x : BitVec 32) (y : BitVec w), 8 ∣ w →
      numAt w ((wire x ++ (wire y ++ [])).drop 4) = y := fun x y hw => numAt_behind hw (by simp) y _
  cases m with
  | plain => exact hm.elim
  | control m =>
    simp only [Message.bodyFields, List.flatten_cons, List.flatten_nil, transmitted, Message.base,
      second _ _ (by decide : 8 ∣ 32), numAt_wire (by decide : 8 ∣ 32), setWidth_narrow, hm.2]
    rfl
  | ping m =>
    simp only [Message.bodyFields, List.flatten_cons, List.flatten_nil, transmitted, Message.base,
      numAt_wire (by decide : 8 ∣ 64), hm.2]
    rfl
  | enterRoom m =>
    simp only [Message.bodyFields, List.flatten_cons, List.flatten_nil, transmitted, Message.base,
      second _ _ (by decide : 8 ∣ 32), numAt_wire (by decide : 8 ∣ 32), hm.2]
    rfl
  | gameStart m =>
    simp only [Message.bodyFields, List.flatten_cons, List.flatten_nil, transmitted, Message.base,
      numAt_wire (by decide : 8 ∣ 64), hm.2]
    rfl

end AsConstructed

/-! ## Some messages -/

/-- A ping of role 5. -/
def pingOfFive : Message :=
  .ping { PingMessage.new with messageUniqueId := 3, roleId := 5, timestamp := 77 }

/-- A move of role 5. -/
def moveOfFive : Message :=
  .control { ControlMessage.new with messageUniqueId := 4, roleId := 5, tick := 9, moveDirection := .left }

/-- A request of role 6. -/
def requestOfSix : Message :=
  .enterRoom { EnterRoomMessage.new with messageUniqueId := 1, roleId := 6, roomId := 2 }

end GameNetwork
