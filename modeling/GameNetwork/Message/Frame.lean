import GameNetwork.Message.Messages

/-!
# Frames

What `decodeMessageHeader` does, read off the bytes in front of it. `packSize`
and the other words are the fields of a byte string at their fixed places,
`header` the message they make. `decodeMessageHeader_eq` gives the decoder's
answer on a valid buffer as a decision list over these.
-/

namespace GameNetwork

open Lib

namespace Frame

/-- The length word. -/
def packSize (s : List Byte) : BitVec 32 := numAt 32 s

def magic (s : List Byte) : BitVec 32 := numAt 32 (s.drop 4)

/-- The type word narrowed to the enumeration. -/
def messageType (s : List Byte) : MessageType := ⟨(numAt 32 (s.drop 17)).setWidth 8⟩

/-- The header behind the length word. -/
def header (s : List Byte) : BaseMessage where
  magic := magic s
  messageUniqueId := numAt 32 (s.drop 8)
  roleId := numAt 32 (s.drop 12)
  version := numAt 8 (s.drop 16)
  messageType := messageType s

/-- The type is strictly between `TYTE_MIN` and `TYPE_MAX`. -/
def TypeInRange (s : List Byte) : Prop :=
  MessageType.tyteMin.num < (messageType s).num ∧ (messageType s).num < MessageType.typeMax.num

instance (s : List Byte) : Decidable (TypeInRange s) := inferInstanceAs (Decidable (_ ∧ _))

/-- The size of the body, as the unsigned difference the decoder computes. -/
def bodySize (s : List Byte) : BitVec 32 := packSize s - headerSizeNoLength

/-- The bytes behind the header that the length word declares. -/
def body (s : List Byte) : List Byte := (s.drop 21).take (bodySize s).toNat

/-- What is handed on for a frame. -/
def received (s : List Byte) : BaseMsgWithBuffer := ⟨Buffer.tiny.appended (body s), header s⟩

/-- The size of the body when the length covers the header. -/
theorem bodySize_of_le {s : List Byte} (h : 17 ≤ (packSize s).toNat) :
    (bodySize s).toNat = (packSize s).toNat - 17 := by
  have hh : headerSizeNoLength.toNat = 17 := rfl
  have := (packSize s).isLt
  rw [bodySize, BitVec.toNat_sub, hh]; omega

/-- The size of the body when the subtraction wraps. -/
theorem bodySize_of_lt {s : List Byte} (h : (packSize s).toNat < 17) :
    (bodySize s).toNat = 2 ^ 32 + (packSize s).toNat - 17 := by
  have hh : headerSizeNoLength.toNat = 17 := rfl
  rw [bodySize, BitVec.toNat_sub, hh]; omega

theorem length_body {s : List Byte} (h : 21 + (bodySize s).toNat ≤ s.length) :
    (body s).length = (bodySize s).toNat := by
  rw [body, List.length_take, List.length_drop]; omega

/-! ### What follows does not matter -/

/-- A field inside a byte string is not changed by bytes behind it. -/
theorem numAt_drop_append {w i : Nat} {s : List Byte} (h : i + w / 8 ≤ s.length) (t : List Byte) :
    numAt w ((s ++ t).drop i) = numAt w (s.drop i) := by
  rw [List.drop_append_of_le_length (by omega), numAt_append (by rw [List.length_drop]; omega)]

theorem packSize_append {s : List Byte} (h : 4 ≤ s.length) (t : List Byte) :
    packSize (s ++ t) = packSize s := numAt_append h t

theorem magic_append {s : List Byte} (h : 8 ≤ s.length) (t : List Byte) :
    magic (s ++ t) = magic s := numAt_drop_append h t

theorem header_append {s : List Byte} (h : 21 ≤ s.length) (t : List Byte) :
    header (s ++ t) = header s := by
  simp only [header, messageType, magic_append (show 8 ≤ s.length by omega)]
  rw [numAt_drop_append (by omega), numAt_drop_append (by omega), numAt_drop_append (by omega),
    numAt_drop_append (by omega)]

theorem typeInRange_append {s : List Byte} (h : 21 ≤ s.length) (t : List Byte) :
    TypeInRange (s ++ t) ↔ TypeInRange s := by
  have := congrArg BaseMessage.messageType (header_append h t)
  rw [TypeInRange, TypeInRange, show messageType (s ++ t) = messageType s from this]

theorem bodySize_append {s : List Byte} (h : 4 ≤ s.length) (t : List Byte) :
    bodySize (s ++ t) = bodySize s := by rw [bodySize, bodySize, packSize_append h]

theorem received_append {s : List Byte} (h : 21 + (bodySize s).toNat ≤ s.length) (t : List Byte) :
    received (s ++ t) = received s := by
  rw [received, received, header_append (by omega), body, body, bodySize_append (by omega),
    List.drop_append_of_le_length (by omega),
    List.take_append_of_le_length (by rw [List.length_drop]; omega)]

/-! ### Frames the decoder takes -/

/-- A whole frame stands at the front that the decoder accepts and whose length covers the
header. -/
structure Accepted (s : List Byte) : Prop where
  covers : 17 ≤ (packSize s).toNat
  le_max : (packSize s).toNat ≤ 4096
  whole : (packSize s).toNat + 4 ≤ s.length
  magic_eq : magic s = magicNumber
  type_ok : TypeInRange s

/-- A whole frame stands at the front whose length does not cover the header, and nothing
stops the decoder before it is misread: it is too short for a magic, or its magic is right and
it is too short for a header or of a known type. -/
structure TooShort (s : List Byte) : Prop where
  short : (packSize s).toNat < 17
  whole : (packSize s).toNat + 4 ≤ s.length
  misread : s.length < 8 ∨ (magic s = magicNumber ∧ (s.length < 21 ∨ TypeInRange s))

theorem Accepted.bodySize_add {s : List Byte} (h : Accepted s) :
    21 + (bodySize s).toNat = (packSize s).toNat + 4 := by
  have := h.covers
  rw [bodySize_of_le h.covers]; omega

theorem Accepted.append {s : List Byte} (h : Accepted s) (t : List Byte) : Accepted (s ++ t) := by
  have h1 := h.covers
  have h2 := h.whole
  have hp := packSize_append (show 4 ≤ s.length by omega) t
  refine ⟨by rwa [hp], by rw [hp]; exact h.le_max, by rw [hp, List.length_append]; omega, ?_, ?_⟩
  · rw [magic_append (by omega)]; exact h.magic_eq
  · exact (typeInRange_append (by omega) t).mpr h.type_ok

theorem Accepted.not_tooShort {s : List Byte} (h : Accepted s) : ¬ TooShort s := fun h' => by
  have := h.covers
  have := h'.short
  omega

end Frame

open GameNetwork.Frame

theorem lt_maxPackSize {n : BitVec 32} : maxPackSize < n ↔ 4096 < n.toNat := BitVec.lt_def

/-- `old_size - buffer.ReadableSize()` once 21 bytes are read. -/
theorem consumed_eq {n : Nat} (h : 21 ≤ n) : BitVec.ofNat 32 (sizeSub (n % 2 ^ 32) (n - 21)) = 21 := by
  apply BitVec.eq_of_toNat_eq
  rw [BitVec.toNat_ofNat]
  show sizeSub (n % 2 ^ 32) (n - 21) % 2 ^ 32 = 21
  unfold sizeSub
  split <;> omega

/-- The fields behind the magic, read one after the other and handed to `k`. -/
theorem readFields_eq {α : Type} {buffer : Buffer} (hv : buffer.Valid) {s : List Byte}
    (hs : buffer.readable = s) (hlen : 8 ≤ s.length)
    (k : BitVec 32 → RoleId → BitVec 8 → BitVec 8 → Buffer → Except Fault α) :
    (do
      let (messageUniqueId, buffer) ← (buffer.addReadIndex 8).readNumber 32
      let (roleId, buffer) ← buffer.readNumber 32
      let (version, buffer) ← buffer.readNumber 8
      let (messageType, buffer) ← buffer.readEnum
      k messageUniqueId roleId version messageType buffer) =
    if s.length < 21 then .error (.assertion "ReadableSize() >= sizeof(T)")
    else k (numAt 32 (s.drop 8)) (numAt 32 (s.drop 12)) (numAt 8 (s.drop 16)) (messageType s).num
      (buffer.addReadIndex 21) := by
  subst hs
  have hr := Buffer.readable_addReadIndex hv
  have hva : ∀ n, (buffer.addReadIndex n).Valid := fun n => Buffer.valid_addReadIndex hv
  simp only [bind, Except.bind]
  rw [Buffer.readNumber_eq (by decide) (hva 8), hr, List.length_drop]
  by_cases h12 : buffer.readable.length < 12
  · rw [if_pos (by omega), if_pos (by omega)]
  rw [if_neg (by omega)]
  simp only
  rw [Buffer.addReadIndex_add hv (by omega), Buffer.readNumber_eq (by decide) (hva _), hr,
    List.length_drop]
  by_cases h16 : buffer.readable.length < 16
  · rw [if_pos (by omega), if_pos (by omega)]
  rw [if_neg (by omega)]
  simp only
  rw [Buffer.addReadIndex_add hv (by omega), Buffer.readNumber_eq (by decide) (hva _), hr,
    List.length_drop]
  by_cases h17 : buffer.readable.length < 17
  · rw [if_pos (by omega), if_pos (by omega)]
  rw [if_neg (by omega)]
  simp only
  rw [Buffer.addReadIndex_add hv (by omega), Buffer.readEnum_eq (hva _), hr, List.length_drop]
  by_cases h21 : buffer.readable.length < 21
  · rw [if_pos (by omega), if_pos (by omega)]
  rw [if_neg (by omega), if_neg (by omega)]
  simp only
  rw [Buffer.addReadIndex_add hv (by omega)]
  rfl

/-- **`DecodeMessageHeader` as a decision list.** -/
theorem decodeMessageHeader_eq {buffer : Buffer} (hv : buffer.Valid) (message : BaseMessage)
    {s : List Byte} (hs : buffer.readable = s) :
    message.decodeMessageHeader buffer =
      if s.length % 2 ^ 32 < 4 then .ok ⟨true, 0, message, buffer, none⟩
      else if 4096 < (packSize s).toNat then .ok ⟨false, 0, message, buffer, none⟩
      else if s.length < (packSize s).toNat + 4 then .ok ⟨true, 0, message, buffer, none⟩
      else if s.length < 8 then .error (.assertion "ReadableSize() >= sizeof(T)")
      else if magic s ≠ magicNumber then
        .ok ⟨false, 0, { message with magic := magic s }, buffer.addReadIndex 4, none⟩
      else if s.length < 21 then .error (.assertion "ReadableSize() >= sizeof(T)")
      else if ¬ TypeInRange s then .ok ⟨false, 0, header s, buffer.addReadIndex 21, none⟩
      else .ok ⟨true, 21, header s, buffer.addReadIndex 21,
        some (bodySize s)⟩ := by
  have hfields := @readFields_eq HeaderResult _ hv _ hs
  have hr := Buffer.readable_addReadIndex hv
  subst hs
  unfold BaseMessage.decodeMessageHeader
  simp only [Buffer.readableSize_readable hv, BitVec.toNat_ofNat]
  by_cases h4 : buffer.readable.length % 2 ^ 32 < 4
  · rw [if_pos h4, if_pos h4]; rfl
  rw [if_neg h4, if_neg h4, Buffer.peekNumber_eq (by decide) hv,
    if_neg (by have := Nat.mod_le buffer.readable.length (2 ^ 32); omega)]
  show (if maxPackSize < packSize buffer.readable then _ else _) = _
  by_cases hmax : 4096 < (packSize buffer.readable).toNat
  · rw [if_pos hmax, if_pos (lt_maxPackSize.mpr hmax)]; rfl
  rw [if_neg hmax, if_neg (fun h => hmax (lt_maxPackSize.mp h))]
  show (if buffer.readable.length < (packSize buffer.readable).toNat + 4 then _ else _) = _
  by_cases hmore : buffer.readable.length < (packSize buffer.readable).toNat + 4
  · rw [if_pos hmore, if_pos hmore]; rfl
  rw [if_neg hmore, if_neg hmore, Buffer.peekNumber_eq (by decide) (Buffer.valid_addReadIndex hv), hr,
    List.length_drop]
  by_cases h8 : buffer.readable.length < 8
  · rw [if_pos (by omega), if_pos h8]; rfl
  rw [if_neg (by omega), if_neg h8]
  show (if magic buffer.readable ≠ magicNumber then _ else _) = _
  by_cases hmagic : magic buffer.readable ≠ magicNumber
  · rw [if_pos hmagic, if_pos hmagic]; rfl
  rw [if_neg hmagic, if_neg hmagic, Buffer.addReadIndex_add hv (by omega)]
  refine (hfields (by omega) fun messageUniqueId roleId version messageType after =>
    if messageType ≤ MessageType.tyteMin.num ∨ MessageType.typeMax.num ≤ messageType then
      .ok ⟨false, 0, ⟨magic buffer.readable, messageUniqueId, roleId, version, ⟨messageType⟩⟩, after,
        none⟩
    else .ok ⟨true, BitVec.ofNat 32 (sizeSub (buffer.readable.length % 2 ^ 32) after.readableSize),
      ⟨magic buffer.readable, messageUniqueId, roleId, version, ⟨messageType⟩⟩, after,
      some (packSize buffer.readable - headerSizeNoLength)⟩).trans ?_
  by_cases h21 : buffer.readable.length < 21
  · rw [if_pos h21, if_pos h21]
  rw [if_neg h21, if_neg h21, Buffer.readableSize_readable (Buffer.valid_addReadIndex hv), hr,
    List.length_drop, consumed_eq (by omega)]
  have hrange : ((messageType buffer.readable).num ≤ MessageType.tyteMin.num ∨
      MessageType.typeMax.num ≤ (messageType buffer.readable).num) ↔
      ¬ TypeInRange buffer.readable := by
    simp only [TypeInRange, BitVec.lt_def, BitVec.le_def]; omega
  by_cases htype : TypeInRange buffer.readable
  · rw [if_neg (fun h => hrange.mp h htype), if_neg (not_not.mpr htype)]; rfl
  · rw [if_pos (hrange.mpr htype), if_pos htype]; rfl

end GameNetwork
