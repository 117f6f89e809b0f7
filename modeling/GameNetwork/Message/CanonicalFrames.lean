import GameNetwork.Message.HeaderExits

/-!
# Decoding, then encoding again

The receiver narrows the type word, and in a `ControlMessage` the direction
word, to the byte under the enumeration before it looks at them
(`READ_ENUM`); the type is then compared with the ends of the enumeration, the
direction with nothing. `encodes_back_iff` says that a frame which decodes is
the frame of the message it decodes to, with words of enumerators only,
exactly when nothing is lost by the narrowing and the direction is one.
-/

namespace GameNetwork

open Lib GameNetwork.Frame

/-- **What the receiver makes of the front of a buffer**: `DecodeMessageHeader` accepts it, the
body behind it is copied out, and `TransmitMessage` returns `m` for the two. -/
def DecodesTo (buffer : Buffer) (m : Message) : Prop :=
  ∃ r body bodyBuffer, BaseMessage.new.decodeMessageHeader buffer = .ok r ∧ r.ok = true ∧
    r.length ≠ 0 ∧ r.buffer.copyOut r.buffer.readIdx (r.bodySize.getD 0).toNat = .ok body ∧
    Buffer.tiny.appendData body = .ok bodyBuffer ∧
    transmitMessage ⟨bodyBuffer, r.message⟩ = .ok (some m)

/-- Encoding `m` into an empty buffer gives `f`. -/
def EncodesTo (m : Message) (f : List Byte) : Prop :=
  ∀ buffer : Buffer, buffer.Valid → idxBegin ≤ buffer.readIdx → buffer.readable = [] →
    ∃ b, m.encodeMessage buffer = .ok b ∧ b.Valid ∧ b.readable = f

/-- `f` is one frame, as long as the class of `m` has it. -/
structure OneFrameOf (f : List Byte) (m : Message) : Prop where
  length_eq : f.length = (packSize f).toNat + 4
  packSize_eq : (packSize f).toNat = headerSizeNoLength.toNat + m.bodyFields.flatten.length

/-- The words that `f` has for enumerators are the values of enumerators. -/
structure WordsOfEnumerators (f : List Byte) : Prop where
  type_word : ∃ t ∈ MessageType.enumerators, numAt 32 (f.drop 17) = t.num.setWidth 32
  direction_word : messageType f = .control →
    ∃ d ∈ MoveDirection.enumerators, numAt 32 (f.drop 25) = d.num.setWidth 32

/-- **`f` is what is sent for `m`**, and no word in it passes for an enumerator that is none. -/
structure Canonical (f : List Byte) (m : Message) : Prop where
  encodes : EncodesTo m f
  words : WordsOfEnumerators f

/-- **The type word is a byte, and the direction word is not behind `RIGHT`.** -/
structure EnumsInRange (f : List Byte) : Prop where
  type_lt : numAt 32 (f.drop 17) < 256
  direction_le : messageType f = .control → numAt 32 (f.drop 25) ≤ 4

theorem encodesTo_iff {m : Message} {f : List Byte} : EncodesTo m f ↔ m.frame = f := by
  constructor
  · intro h
    obtain ⟨b, hb, -, hreadable⟩ := h .tiny Buffer.valid_tiny (Nat.le_refl _) Buffer.readable_tiny
    obtain ⟨b', hb', -, hreadable'⟩ := encodeMessage_eq Buffer.valid_tiny Buffer.fits_tiny m
    rw [hb] at hb'
    cases hb'
    rw [← hreadable, hreadable', Buffer.readable_tiny, List.nil_append]
    rfl
  · rintro rfl buffer hv h8 hempty
    obtain ⟨b, hb, hvb, hreadable⟩ := encodeMessage_eq hv (Buffer.fits_of_reserve hv h8) m
    refine ⟨b, hb, hvb, ?_⟩
    rw [hreadable, hempty, List.nil_append]
    rfl

/-- A word that survives being narrowed to a byte. -/
theorem widen_narrow_iff (u : BitVec 32) : (u.setWidth 8).setWidth 32 = u ↔ u < 256 := by
  rw [← BitVec.toNat_inj, BitVec.lt_def]
  simp only [BitVec.toNat_setWidth]
  have hu := u.isLt
  show u.toNat % 2 ^ 8 % 2 ^ 32 = u.toNat ↔ u.toNat < 256
  omega

/-- The words of the directions. -/
theorem direction_word_iff (u : BitVec 32) :
    (∃ d ∈ MoveDirection.enumerators, u = d.num.setWidth 32) ↔ u ≤ 4 := by
  simp only [MoveDirection.enumerators, List.mem_cons, List.not_mem_nil, or_false, exists_eq_or_imp,
    exists_eq_left]
  show u = 0 ∨ u = 1 ∨ u = 2 ∨ u = 3 ∨ u = 4 ↔ u ≤ 4
  simp only [← BitVec.toNat_inj, BitVec.le_def]
  show u.toNat = 0 ∨ u.toNat = 1 ∨ u.toNat = 2 ∨ u.toNat = 3 ∨ u.toNat = 4 ↔ u.toNat ≤ 4
  omega

/-- A type that has a class is an enumerator. -/
theorem MessageType.HasClass.mem_enumerators {t : MessageType} (h : t.HasClass) :
    t ∈ MessageType.enumerators := by
  rcases h with rfl | rfl | rfl | rfl <;> decide

/-! ## Fields of a frame -/

/-- A field inside a byte string, and what stands behind it. -/
theorem wire_field {w i : Nat} {f : List Byte} (hw : 8 ∣ w) (h : i + w / 8 ≤ f.length) :
    wire (numAt w (f.drop i)) ++ f.drop (i + w / 8) = f.drop i := by
  have hlen : w / 8 ≤ (f.drop i).length := by rw [List.length_drop]; omega
  have hsplit := wire_numAt_append hw hlen
  rwa [List.drop_drop] at hsplit

/-- A byte string that covers a header, as the fields the decoder reads. -/
theorem split_header {f : List Byte} (h : 21 ≤ f.length) :
    f = wire (packSize f) ++ (wire (magic f) ++ (wire (numAt 32 (f.drop 8)) ++
      (wire (numAt 32 (f.drop 12)) ++ (wire (numAt 8 (f.drop 16)) ++
      (wire (numAt 32 (f.drop 17)) ++ f.drop 21))))) := by
  rw [wire_field (w := 32) (i := 17) (by decide) (by omega),
    wire_field (w := 8) (i := 16) (by decide) (by omega),
    wire_field (w := 32) (i := 12) (by decide) (by omega),
    wire_field (w := 32) (i := 8) (by decide) (by omega), magic,
    wire_field (w := 32) (i := 4) (by decide) (by omega)]
  exact (wire_field (w := 32) (i := 0) (by decide) (by omega)).symm

theorem frame_fields (m : Message) :
    m.frame = wire (BitVec.ofNat 32 m.payload.length) ++ (wire m.base.magic ++
      (wire m.base.messageUniqueId ++ (wire m.base.roleId ++ (wire m.base.version ++
      (wire (m.base.messageType.num.setWidth 32) ++ m.bodyFields.flatten))))) := by
  simp only [Message.frame, Message.payload, BaseMessage.fields, List.cons_append, List.nil_append,
    List.flatten_cons]

/-- A message with the header of `f` has `f` for its frame when the type word and the body do not
change. -/
theorem frame_eq_iff {f : List Byte} {m : Message} (h21 : 21 ≤ f.length)
    (hsize : packSize f = BitVec.ofNat 32 m.payload.length) (hbase : m.base = header f) :
    m.frame = f ↔ numAt 32 (f.drop 17) < 256 ∧ m.bodyFields.flatten = f.drop 21 := by
  have hmagic : m.base.magic = magic f := congrArg BaseMessage.magic hbase
  have hid : m.base.messageUniqueId = numAt 32 (f.drop 8) := congrArg BaseMessage.messageUniqueId hbase
  have hrole : m.base.roleId = numAt 32 (f.drop 12) := congrArg BaseMessage.roleId hbase
  have hversion : m.base.version = numAt 8 (f.drop 16) := congrArg BaseMessage.version hbase
  have htype : m.base.messageType.num = (numAt 32 (f.drop 17)).setWidth 8 :=
    congrArg (fun base => base.messageType.num) hbase
  calc m.frame = f
      ↔ m.frame = wire (packSize f) ++ (wire (magic f) ++ (wire (numAt 32 (f.drop 8)) ++
          (wire (numAt 32 (f.drop 12)) ++ (wire (numAt 8 (f.drop 16)) ++
          (wire (numAt 32 (f.drop 17)) ++ f.drop 21))))) := by rw [← split_header h21]
    _ ↔ (m.base.messageType.num.setWidth 32 = numAt 32 (f.drop 17) ∧
          m.bodyFields.flatten = f.drop 21) := by
        rw [frame_fields, hsize, hmagic, hid, hrole, hversion]
        rw [wire_append_inj (by decide), wire_append_inj (by decide), wire_append_inj (by decide),
          wire_append_inj (by decide), wire_append_inj (by decide), wire_append_inj (by decide)]
        simp only [true_and]
    _ ↔ _ := by rw [htype, widen_narrow_iff]

/-! ## The message a frame decodes to -/

theorem length_bodyFields_cases (m : Message) :
    m.bodyFields.flatten.length = 0 ∨ m.bodyFields.flatten.length = 8 := by
  cases m with
  | plain => exact .inl rfl
  | _ => exact .inr rfl

/-- The message has the header it is made from, and the class of its type. -/
theorem base_transmitted {base : BaseMessage} {s : List Byte} {m : Message}
    (hm : transmitted base s = some m) : m.base = base ∧ m.bodyFields.flatten.length = 8 := by
  unfold transmitted at hm
  split at hm
  · cases hm; exact ⟨rfl, rfl⟩
  split at hm
  · cases hm; exact ⟨rfl, rfl⟩
  split at hm
  · cases hm; exact ⟨rfl, rfl⟩
  split at hm
  · cases hm; exact ⟨rfl, rfl⟩
  · cases hm

/-- A header that covers itself decodes when it is accepted and `TransmitMessage` takes what is
received for it. -/
theorem decodesTo_iff {buffer : Buffer} (hv : buffer.Valid) {s : List Byte}
    (hs : buffer.readable = s) (hcounted : 4 ≤ s.length % 2 ^ 32)
    (hcovers : 17 ≤ (packSize s).toNat) {m : Message} :
    DecodesTo buffer m ↔ Accepted s ∧ transmitMessage (received s) = .ok (some m) := by
  have hbody := bodySize_of_le hcovers
  have hva : (buffer.addReadIndex 21).Valid := Buffer.valid_addReadIndex hv
  have hra : (buffer.addReadIndex 21).readable = s.drop 21 := by
    rw [Buffer.readable_addReadIndex hv, hs]
  have hcopy : (packSize s).toNat + 4 ≤ s.length →
      (buffer.addReadIndex 21).copyOut (buffer.addReadIndex 21).readIdx (bodySize s).toNat =
        .ok (body s) := by
    intro hwhole
    rw [Buffer.copyOut_readable hva (by rw [hra, List.length_drop]; omega), hra]
    rfl
  constructor
  · rintro ⟨r, bytes, bodyBuffer, hr, hok, hlen, hbytes, happend, ht⟩
    rcases HeaderExits.decodeMessageHeader_cases hv .new with
      ⟨_, h, -⟩ | ⟨_, h, -⟩ | ⟨_, _, h, -⟩ | ⟨h, htaken⟩
    · rw [h] at hr; cases hr
    · rw [h] at hr; cases hr
      exact absurd rfl hlen
    · rw [h] at hr; cases hr
      exact absurd rfl hlen
    rw [hs] at h htaken
    rw [h] at hr; cases hr
    have hsame := hbytes.symm.trans (hcopy htaken.whole)
    cases hsame
    rw [Buffer.tiny_appendData] at happend
    cases happend
    exact ⟨⟨hcovers, htaken.le_max, htaken.whole, htaken.magic_eq, htaken.type_ok⟩, ht⟩
  · rintro ⟨hacc, ht⟩
    have hmax := hacc.le_max
    have hwhole := hacc.whole
    have heq := decodeMessageHeader_eq hv .new hs
    rw [if_neg (by omega), if_neg (by omega), if_neg (by omega), if_neg (by omega),
      if_neg (not_not.mpr hacc.magic_eq), if_neg (by omega),
      if_neg (not_not.mpr hacc.type_ok)] at heq
    exact ⟨_, _, _, heq, rfl, fun h => absurd (show (21 : BitVec 32) = 0 from h) (by decide),
      hcopy hwhole, Buffer.tiny_appendData _, ht⟩

section Decoded

variable {f : List Byte} {m : Message} (hlen : f.length = 29)
  (hm : transmitted (header f) (f.drop 21) = some m)

include hm

include hlen

/-- The eight bytes of a body, read as one number or as two, are what the class writes; only a
direction can lose something. -/
theorem bodyFields_transmitted :
    m.bodyFields.flatten = f.drop 21 ↔ (messageType f = .control → numAt 32 (f.drop 25) < 256) := by
  have hend : f.drop 29 = [] := List.drop_eq_nil_of_le (Nat.le_of_eq hlen)
  have hone : wire (numAt 64 (f.drop 21)) ++ [] = f.drop 21 := by
    rw [← hend]
    exact wire_field (by decide) (by omega)
  have hsecond : wire (numAt 32 (f.drop 25)) ++ [] = f.drop 25 := by
    rw [← hend]
    exact wire_field (by decide) (by omega)
  have htwo : wire (numAt 32 (f.drop 21)) ++ f.drop 25 = f.drop 21 :=
    wire_field (by decide) (by omega)
  have hback : (f.drop 21).drop 4 = f.drop 25 := List.drop_drop
  have htype : (header f).messageType = messageType f := rfl
  rw [transmitted, hback, htype] at hm
  by_cases hcontrol : messageType f = .control
  · rw [if_pos hcontrol] at hm
    cases hm
    simp only [hcontrol, forall_const]
    show wire (numAt 32 (f.drop 21)) ++
      (wire (((numAt 32 (f.drop 25)).setWidth 8).setWidth 32) ++ []) = f.drop 21 ↔ _
    rw [← widen_narrow_iff]
    constructor
    · intro h
      obtain ⟨-, hword⟩ := (wire_append_inj (by decide)).mp (h.trans htwo.symm)
      exact ((wire_append_inj (by decide)).mp (hword.trans hsecond.symm)).1
    · intro h
      rw [h, hsecond, htwo]
  rw [if_neg hcontrol] at hm
  refine iff_of_true ?_ (fun h => absurd h hcontrol)
  by_cases hping : messageType f = .ping
  · rw [if_pos hping] at hm
    cases hm
    exact hone
  rw [if_neg hping] at hm
  by_cases hroom : messageType f = .enterRoom
  · rw [if_pos hroom] at hm
    cases hm
    exact (congrArg _ hsecond).trans htwo
  rw [if_neg hroom] at hm
  by_cases hstart : messageType f = .gameStart
  · rw [if_pos hstart] at hm
    cases hm
    exact hone
  · rw [if_neg hstart] at hm
    cases hm

end Decoded

/-- **A frame that decodes is the frame of its message, in words of enumerators, if and only if the
words are in range.** -/
theorem encodes_back_iff {f : List Byte} {m : Message} (hf : OneFrameOf f m) {buffer : Buffer}
    (hv : buffer.Valid) (hs : buffer.readable = f) (hm : DecodesTo buffer m) :
    Canonical f m ↔ EnumsInRange f := by
  have hlen := hf.length_eq
  have hpack : (packSize f).toNat = 17 + m.bodyFields.flatten.length := hf.packSize_eq
  have hcases := length_bodyFields_cases m
  have hcounted : 4 ≤ f.length % 2 ^ 32 := by
    rw [Nat.mod_eq_of_lt (by omega)]
    omega
  obtain ⟨hacc, ht⟩ := (decodesTo_iff hv hs hcounted (by omega)).mp hm
  have hreceived : (received f).bodyBuffer.readable = body f := Buffer.readable_tiny_appended _
  have htransmitted : transmitted (header f) (body f) = some m := by
    rw [transmitMessage_eq (Buffer.valid_tiny_appended _) hreceived] at ht
    split at ht
    · cases ht
    · exact Except.ok.inj ht
  obtain ⟨hbase, height⟩ := base_transmitted htransmitted
  have hclass : (messageType f).HasClass := (transmitted_isSome (header f) (body f)).mp
    (htransmitted ▸ rfl)
  have hbody : body f = f.drop 21 := by
    refine List.take_of_length_le ?_
    rw [List.length_drop, bodySize_of_le hacc.covers]
    omega
  have hsize : packSize f = BitVec.ofNat 32 m.payload.length := by
    rw [← BitVec.toNat_inj, length_payload, height, hpack, height]
    rfl
  rw [hbody] at htransmitted
  have hback : EncodesTo m f ↔
      numAt 32 (f.drop 17) < 256 ∧ (messageType f = .control → numAt 32 (f.drop 25) < 256) := by
    rw [encodesTo_iff, frame_eq_iff (by omega) hsize hbase,
      bodyFields_transmitted (by omega) htransmitted]
  constructor
  · rintro ⟨hencodes, -, hdirection⟩
    exact ⟨(hback.mp hencodes).1, fun hcontrol => (direction_word_iff _).mp (hdirection hcontrol)⟩
  · rintro ⟨htype, hdirection⟩
    refine ⟨hback.mpr ⟨htype, fun hcontrol => ?_⟩, ⟨_, hclass.mem_enumerators, ?_⟩,
      fun hcontrol => (direction_word_iff _).mpr (hdirection hcontrol)⟩
    · have hle := BitVec.le_def.mp (hdirection hcontrol)
      exact BitVec.lt_def.mpr (Nat.lt_of_le_of_lt hle (by decide))
    · exact ((widen_narrow_iff _).mpr htype).symm

theorem encodes_back_iff_move : Canonical moveOfFive.frame moveOfFive ↔ EnumsInRange moveOfFive.frame :=
  encodes_back_iff ⟨rfl, rfl⟩ (Buffer.valid_tiny_appended _)
    (Buffer.readable_tiny_appended _)
    ((decodesTo_iff (Buffer.valid_tiny_appended _) (Buffer.readable_tiny_appended _)
      (by decide) (by decide)).mpr
      ⟨accepted_frame ⟨rfl, rfl⟩, transmitMessage_frame ⟨rfl, rfl⟩⟩)

/-- The header of a frame of 25 bytes behind the length, with the given type word. -/
def headerWith (typeWord : BitVec 32) : List Byte :=
  wire (25 : BitVec 32) ++ wire magicNumber ++ wire (0 : BitVec 32) ++ wire (0 : BitVec 32) ++
    wire (1 : BitVec 8) ++ wire typeWord

/-- The frame of a ping, but for its type word. -/
def widePing : List Byte := headerWith 0x103 ++ wire (0 : BitVec 64)

/-- A control message of tick 7 with the given direction word. -/
def controlWith (directionWord : BitVec 32) : List Byte :=
  headerWith 2 ++ wire (7 : BitVec 32) ++ wire directionWord

/-- The message of tick 7 with the given direction. -/
def moveAtSeven (direction : MoveDirection) : Message :=
  .control { ControlMessage.new with tick := 7, moveDirection := direction }

/-- **Frames that decode, and are not canonical.** The first two are not what their messages encode
to; the third is, with a direction that is no enumerator. -/
theorem encodes_back_fails :
    (OneFrameOf widePing (.ping .new) ∧ DecodesTo (.appended .tiny widePing) (.ping .new) ∧
      ¬ EncodesTo (.ping .new) widePing) ∧
    (OneFrameOf (controlWith 0x101) (moveAtSeven .up) ∧
      DecodesTo (.appended .tiny (controlWith 0x101)) (moveAtSeven .up) ∧
      ¬ EncodesTo (moveAtSeven .up) (controlWith 0x101)) ∧
    (OneFrameOf (controlWith 200) (moveAtSeven ⟨200⟩) ∧
      DecodesTo (.appended .tiny (controlWith 200)) (moveAtSeven ⟨200⟩) ∧
      ¬ WordsOfEnumerators (controlWith 200)) := by
  have decodes : ∀ {f : List Byte} {m : Message}, 4 ≤ f.length % 2 ^ 32 → Accepted f →
      transmitMessage (received f) = .ok (some m) → DecodesTo (.appended .tiny f) m :=
    fun hcounted hacc ht => (decodesTo_iff (Buffer.valid_tiny_appended _)
      (Buffer.readable_tiny_appended _) hcounted hacc.covers).mpr ⟨hacc, ht⟩
  refine ⟨⟨⟨rfl, rfl⟩, ?_, ?_⟩, ⟨⟨rfl, rfl⟩, ?_, ?_⟩, ⟨rfl, rfl⟩, ?_, ?_⟩
  · exact decodes (by decide) ⟨by decide, by decide, by decide, by decide, by decide⟩ (by rfl)
  · rw [encodesTo_iff]
    decide
  · exact decodes (by decide) ⟨by decide, by decide, by decide, by decide, by decide⟩ (by rfl)
  · rw [encodesTo_iff]
    decide
  · exact decodes (by decide) ⟨by decide, by decide, by decide, by decide, by decide⟩ (by rfl)
  · intro hwords
    have hdirection := (direction_word_iff _).mp (hwords.direction_word (by decide))
    exact absurd hdirection (by decide)

end GameNetwork
