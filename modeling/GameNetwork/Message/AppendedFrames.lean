import GameNetwork.Lib.Words
import GameNetwork.Message.CanonicalFrames

/-!
# Encoding behind other content

`EncodeMessage` counts what it appends against what the buffer held before,
and so is meant for buffers that hold something; but it writes the length in
front of all of it, not in front of the message. `appendsFrames_iff` says when
the messages encoded into one buffer are appended as their frames: when there
is one message at most, and what it is put behind is copies of its own length.
-/

namespace GameNetwork

open Lib GameNetwork.Frame

/-- `b` is `buffer` with the frame of `m` behind its content, and the frame decodes to `m` if its
magic and type are the ones of the class. -/
structure AppendsFrame (m : Message) (buffer b : Buffer) : Prop where
  valid : b.Valid
  readable_eq : b.readable = buffer.readable ++ m.frame
  decodes : m.AsConstructed → DecodesTo (b.addReadIndex buffer.readable.length) m

/-- **Encoding the messages one after the other into one buffer appends their frames.** -/
def AppendsFrames : List Message → Buffer → Prop
  | [], _ => True
  | m :: ms, buffer =>
    ∃ b, m.encodeMessage buffer = .ok b ∧ AppendsFrame m buffer b ∧ AppendsFrames ms b

/-- The length of the messages of the four classes, as it is sent. -/
def lengthWord : List Byte := wire (25 : BitVec 32)

/-- The content of a buffer is nothing but lengths. -/
def OnlyLengths (buffer : Buffer) : Prop := ∃ n, buffer.readable = power lengthWord n

theorem wire_length_payload {m : Message} (hm : m.OfClass) :
    wire (BitVec.ofNat 32 m.payload.length) = lengthWord := by
  rw [length_payload, hm.length_bodyFields]
  rfl

theorem length_frame_ofClass {m : Message} (hm : m.OfClass) : m.frame.length = 29 := by
  rw [Message.frame, List.length_append, length_wire, length_payload, hm.length_bodyFields]

theorem lengthWord_commutes {c : List Byte} :
    lengthWord ++ c = c ++ lengthWord ↔ ∃ n, c = power lengthWord n :=
  commute_iff_power (by decide) (by decide)

/-- A frame decodes wherever it is the rest of a buffer. -/
theorem decodesTo_frame {buffer : Buffer} (hv : buffer.Valid) {m : Message} (hm : m.AsConstructed)
    (hs : buffer.readable = m.frame) : DecodesTo buffer m := by
  have hcounted : 4 ≤ m.frame.length % 2 ^ 32 := by
    rw [length_frame hm]
    decide
  have hacc := accepted_frame hm
  exact (decodesTo_iff hv hs hcounted hacc.covers).mpr ⟨hacc, transmitMessage_frame hm⟩

section Encode

variable {buffer : Buffer} (hv : buffer.Valid)

include hv

/-- What is behind the reserve is not in the way, or compacting fails. -/
theorem fits_of_encodeMessage {m : Message} {b : Buffer} (h : m.encodeMessage buffer = .ok b) :
    buffer.Fits := by
  by_contra hfits
  have happend : buffer.appendNumber m.base.magic = .error .outOfBounds :=
    Buffer.appendData_fault hv hfits _
  have hrun : m.encodeMessage buffer = .error .outOfBounds := by
    unfold Message.encodeMessage
    show (buffer.appendNumber m.base.magic).bind _ = _
    rw [happend]
    rfl
  rw [hrun] at h
  cases h

/-- **One message is appended as its frame if and only if the buffer holds nothing but lengths.** -/
theorem appendsFrame_iff (hf : buffer.Fits) {m : Message} (hm : m.OfClass) :
    (∃ b, m.encodeMessage buffer = .ok b ∧ AppendsFrame m buffer b) ↔ OnlyLengths buffer := by
  obtain ⟨b, hb, hvb, hreadable⟩ := encodeMessage_eq hv hf m
  rw [wire_length_payload hm] at hreadable
  have hframe : m.frame = lengthWord ++ m.payload := by rw [Message.frame, wire_length_payload hm]
  have hiff : b.readable = buffer.readable ++ m.frame ↔ OnlyLengths buffer := by
    rw [hreadable, hframe, ← List.append_assoc, ← List.append_assoc, List.append_cancel_right_eq]
    exact lengthWord_commutes
  rw [← hiff]
  constructor
  · rintro ⟨b', hb', happends⟩
    rw [hb] at hb'
    cases hb'
    exact happends.readable_eq
  · intro hcontent
    refine ⟨b, hb, hvb, hcontent, fun hconstructed => ?_⟩
    refine decodesTo_frame (Buffer.valid_addReadIndex hvb) hconstructed ?_
    rw [Buffer.readable_addReadIndex hvb, hcontent, List.drop_left' rfl]

end Encode

/-- **Messages encoded one after the other are appended as their frames if and only if there is no
message, or there is one and the buffer holds nothing but lengths.** -/
theorem appendsFrames_iff {buffer : Buffer} (hv : buffer.Valid) (h8 : idxBegin ≤ buffer.readIdx)
    {ms : List Message} (hms : ∀ m ∈ ms, m.OfClass) :
    AppendsFrames ms buffer ↔ ms = [] ∨ (ms.length = 1 ∧ OnlyLengths buffer) := by
  have hf := Buffer.fits_of_reserve hv h8
  match ms with
  | [] => exact iff_of_true trivial (.inl rfl)
  | [m] =>
    have hm := hms m (by simp)
    have hone : AppendsFrames [m] buffer ↔ OnlyLengths buffer :=
      (exists_congr fun _ => and_congr_right fun _ => and_iff_left trivial).trans
        (appendsFrame_iff hv hf hm)
    rw [hone]
    exact ⟨fun h => .inr ⟨rfl, h⟩, fun h => (h.resolve_left (by simp)).2⟩
  | m :: m' :: ms =>
    refine iff_of_false ?_ (by simp)
    rintro ⟨b, hb, happends, b', hb', happends', -⟩
    have hm := hms m (by simp)
    have hm' := hms m' (by simp)
    -- the buffer held lengths only, and does again with a frame of 29 bytes behind them
    obtain ⟨n, hn⟩ := (appendsFrame_iff hv hf hm).mp ⟨b, hb, happends⟩
    have hf' := fits_of_encodeMessage happends.valid hb'
    obtain ⟨n', hn'⟩ := (appendsFrame_iff happends.valid hf' hm').mp ⟨b', hb', happends'⟩
    have hlen := congrArg List.length (hn'.symm.trans happends.readable_eq)
    have hword : lengthWord.length = 4 := rfl
    rw [hn, List.length_append, length_power, length_power, length_frame_ofClass hm, hword] at hlen
    omega

/-- A length, and nothing else. -/
def behindLength : Buffer := Buffer.tiny.appended lengthWord

theorem appendsFrames_iff_behindLength :
    (AppendsFrames [moveOfFive] behindLength ↔
      [moveOfFive] = [] ∨ ([moveOfFive].length = 1 ∧ OnlyLengths behindLength)) ∧
    AppendsFrames [moveOfFive] behindLength := by
  have hiff : AppendsFrames [moveOfFive] behindLength ↔
      [moveOfFive] = [] ∨ ([moveOfFive].length = 1 ∧ OnlyLengths behindLength) :=
    appendsFrames_iff (Buffer.valid_tiny_appended _) (Nat.le_of_eq (Buffer.appended_readIdx ..).symm)
      (by simp [Message.OfClass, moveOfFive])
  refine ⟨hiff, hiff.mpr (.inr ⟨rfl, 1, ?_⟩)⟩
  rw [behindLength, Buffer.readable_tiny_appended]
  rfl

/-- **Two messages in one buffer**: both lengths stand in front, so that the first frame is refused
for its magic; and where the buffer is full, encoding the second one writes past its end. -/
theorem appendsFrames_fails :
    (∃ b b', (Message.ping .new).encodeMessage .tiny = .ok b ∧ b.readable = (Message.ping .new).frame ∧
      (Message.ping .new).encodeMessage b = .ok b' ∧
      b'.readable = lengthWord ++ lengthWord ++ (Message.ping .new).payload ++
        (Message.ping .new).payload ∧
      (∃ r, BaseMessage.new.decodeMessageHeader b' = .ok r ∧ r.ok = false) ∧
      ¬ AppendsFrames [.ping .new, .ping .new] .tiny) ∧
    ∃ b, (Message.ping .new).encodeMessage (.new 25) = .ok b ∧
      (Message.ping .new).encodeMessage b = .error .outOfBounds := by
  refine ⟨⟨_, _, rfl, rfl, rfl, rfl, ⟨_, rfl, rfl⟩, ?_⟩, _, rfl, rfl⟩
  rintro ⟨b, hb, -, b', hb', happends, -⟩
  cases hb
  cases hb'
  exact absurd happends.readable_eq (by decide)

end GameNetwork
