import GameNetwork.Message.Encoding

/-!
# The exits of the header decoder

`DecodeMessageHeader` returns a length of 0 when it has no header to give:
more bytes are needed, or the frame is refused. Where it refuses a frame for
its length, and where it waits for more, it has only peeked. The magic is
peeked at as well, but behind the length, which has been consumed; the type is
looked at when the whole header has been. `allOrNothing_iff` says that these
two are the only exits that leave the read index inside a frame.
-/

namespace GameNetwork

open Lib GameNetwork.Frame

namespace HeaderExits

/-- **A call that gives no header has consumed nothing, and one that does has consumed its 21
bytes.** -/
structure AllOrNothing (message : BaseMessage) (buffer : Buffer) : Prop where
  nothing : ∀ r, message.decodeMessageHeader buffer = .ok r → r.length = 0 →
    r.buffer.readable = buffer.readable
  all : ∀ r, message.decodeMessageHeader buffer = .ok r → r.length ≠ 0 →
    r.ok = true ∧ r.length = 21 ∧ 21 ≤ buffer.readable.length ∧
      r.buffer.readable = buffer.readable.drop 21

/-- A whole frame of an admitted length stands at the front, and is refused for its magic or, its
magic being right, for its type. -/
structure RefusedInside (s : List Byte) : Prop where
  counted : 4 ≤ s.length % 2 ^ 32
  le_max : (packSize s).toNat ≤ 4096
  whole : (packSize s).toNat + 4 ≤ s.length
  refused : 8 ≤ s.length ∧ magic s ≠ magicNumber ∨
    21 ≤ s.length ∧ magic s = magicNumber ∧ ¬ TypeInRange s

/-- A whole frame of an admitted length stands at the front, with the right magic and a type in
range. -/
structure Taken (s : List Byte) : Prop where
  counted : 4 ≤ s.length % 2 ^ 32
  le_max : (packSize s).toNat ≤ 4096
  whole : (packSize s).toNat + 4 ≤ s.length
  header : 21 ≤ s.length
  magic_eq : magic s = magicNumber
  type_ok : TypeInRange s

theorem Taken.not_refusedInside {s : List Byte} (h : Taken s) : ¬ RefusedInside s := fun h' => by
  rcases h'.refused with ⟨_, hmagic⟩ | ⟨_, _, htype⟩
  · exact hmagic h.magic_eq
  · exact htype h.type_ok

section Exits

variable {buffer : Buffer} (hv : buffer.Valid) (message : BaseMessage)

include hv

/-- **The exits of `DecodeMessageHeader`** and what each has consumed. -/
theorem decodeMessageHeader_cases :
    (∃ c, message.decodeMessageHeader buffer = .error c ∧ ¬ RefusedInside buffer.readable) ∨
    (∃ ok, message.decodeMessageHeader buffer = .ok ⟨ok, 0, message, buffer, none⟩ ∧
      ¬ RefusedInside buffer.readable) ∨
    (∃ n read, message.decodeMessageHeader buffer =
      .ok ⟨false, 0, read, buffer.addReadIndex n, none⟩ ∧ RefusedInside buffer.readable ∧
      (n = 4 ∨ n = 21) ∧ n ≤ buffer.readable.length) ∨
    (message.decodeMessageHeader buffer = .ok ⟨true, 21, header buffer.readable,
      buffer.addReadIndex 21, some (bodySize buffer.readable)⟩ ∧ Taken buffer.readable) := by
  rw [decodeMessageHeader_eq hv message rfl]
  by_cases h4 : buffer.readable.length % 2 ^ 32 < 4
  · rw [if_pos h4]
    refine .inr (.inl ⟨true, rfl, fun h => ?_⟩)
    have := h.counted
    omega
  rw [if_neg h4]
  by_cases hmax : 4096 < (packSize buffer.readable).toNat
  · rw [if_pos hmax]
    refine .inr (.inl ⟨false, rfl, fun h => ?_⟩)
    have := h.le_max
    omega
  rw [if_neg hmax]
  by_cases hmore : buffer.readable.length < (packSize buffer.readable).toNat + 4
  · rw [if_pos hmore]
    refine .inr (.inl ⟨true, rfl, fun h => ?_⟩)
    have := h.whole
    omega
  rw [if_neg hmore]
  by_cases h8 : buffer.readable.length < 8
  · rw [if_pos h8]
    refine .inl ⟨_, rfl, fun h => ?_⟩
    rcases h.refused with ⟨_, _⟩ | ⟨_, _⟩
    · omega
    · omega
  rw [if_neg h8]
  by_cases hmagic : magic buffer.readable ≠ magicNumber
  · rw [if_pos hmagic]
    have hrefused : RefusedInside buffer.readable :=
      ⟨by omega, by omega, by omega, .inl ⟨by omega, hmagic⟩⟩
    exact .inr (.inr (.inl ⟨4, _, rfl, hrefused, .inl rfl, by omega⟩))
  rw [if_neg hmagic]
  by_cases h21 : buffer.readable.length < 21
  · rw [if_pos h21]
    refine .inl ⟨_, rfl, fun h => ?_⟩
    rcases h.refused with ⟨_, hne⟩ | ⟨_, _⟩
    · exact hmagic hne
    · omega
  rw [if_neg h21]
  by_cases htype : TypeInRange buffer.readable
  · rw [if_neg (not_not.mpr htype)]
    exact .inr (.inr (.inr
      ⟨rfl, by omega, by omega, by omega, by omega, not_not.mp hmagic, htype⟩))
  · rw [if_pos htype]
    have hrefused : RefusedInside buffer.readable :=
      ⟨by omega, by omega, by omega, .inr ⟨by omega, not_not.mp hmagic, htype⟩⟩
    exact .inr (.inr (.inl ⟨21, _, rfl, hrefused, .inr rfl, by omega⟩))

/-- **`DecodeMessageHeader` is all or nothing if and only if no whole frame at the front is refused
for its magic or its type.** -/
theorem allOrNothing_iff : AllOrNothing message buffer ↔ ¬ RefusedInside buffer.readable := by
  rcases decodeMessageHeader_cases hv message with
    ⟨_, h, hno⟩ | ⟨_, h, hno⟩ | ⟨n, _, h, hrefused, hn, hle⟩ | ⟨h, htaken⟩
  · refine iff_of_true ⟨fun r hr => ?_, fun r hr => ?_⟩ hno
    · rw [h] at hr; cases hr
    · rw [h] at hr; cases hr
  · refine iff_of_true ⟨fun r hr _ => ?_, fun r hr hlen => ?_⟩ hno
    · rw [h] at hr; cases hr
      rfl
    · rw [h] at hr; cases hr
      exact absurd rfl hlen
  · refine iff_of_false (fun hall => ?_) (not_not.mpr hrefused)
    have hsame := congrArg List.length (hall.nothing _ h rfl)
    rw [Buffer.readable_addReadIndex hv, List.length_drop] at hsame
    omega
  · refine iff_of_true ⟨fun r hr hlen => ?_, fun r hr _ => ?_⟩ htaken.not_refusedInside
    · rw [h] at hr; cases hr
      exact absurd (show (21 : BitVec 32) = 0 from hlen) (by decide)
    · rw [h] at hr; cases hr
      exact ⟨rfl, rfl, htaken.header, Buffer.readable_addReadIndex hv 21⟩

end Exits

/-- A move, received whole, and the first bytes of a ping. -/
def moveAndMore : Buffer := Buffer.tiny.appended (moveOfFive.frame ++ pingOfFive.frame.take 10)

theorem allOrNothing_iff_move :
    (AllOrNothing .new moveAndMore ↔ ¬ RefusedInside moveAndMore.readable) ∧
      ¬ RefusedInside moveAndMore.readable := by
  refine ⟨allOrNothing_iff (Buffer.valid_tiny_appended _) .new, fun h => ?_⟩
  rw [moveAndMore, Buffer.readable_tiny_appended] at h
  have hacc : Accepted (moveOfFive.frame ++ pingOfFive.frame.take 10) :=
    (accepted_frame (m := moveOfFive) ⟨rfl, rfl⟩).append _
  rcases h.refused with ⟨_, hmagic⟩ | ⟨_, _, htype⟩
  · exact hmagic hacc.magic_eq
  · exact htype hacc.type_ok

/-- A frame that carries the frame of a ping where its own header belongs. -/
def frameInFrame : Buffer :=
  Buffer.tiny.appended (wire (29 : BitVec 32) ++ (Message.ping .new).frame)

/-- **The decoder refuses the outer frame, and takes the bytes inside it for the next one.** -/
theorem allOrNothing_fails :
    ∃ r r', BaseMessage.new.decodeMessageHeader frameInFrame = .ok r ∧ r.ok = false ∧ r.length = 0 ∧
      frameInFrame.readable.length = 33 ∧ r.buffer.readable.length = 29 ∧
      BaseMessage.new.decodeMessageHeader r.buffer = .ok r' ∧ r'.ok = true ∧ r'.length = 21 ∧
      r'.message = PingMessage.new.toBaseMessage ∧ ¬ AllOrNothing .new frameInFrame := by
  have hv : frameInFrame.Valid := Buffer.valid_tiny_appended _
  have hs : frameInFrame.readable = wire (29 : BitVec 32) ++ (Message.ping .new).frame :=
    Buffer.readable_tiny_appended _
  have hv' : (frameInFrame.addReadIndex 4).Valid := Buffer.valid_addReadIndex hv
  have hs' : (frameInFrame.addReadIndex 4).readable = (Message.ping .new).frame := by
    rw [Buffer.readable_addReadIndex hv, hs]
    rfl
  have hfirst := decodeMessageHeader_eq hv .new hs
  have hsecond := decodeMessageHeader_eq hv' .new hs'
  refine ⟨_, _, hfirst, rfl, rfl, by rw [hs]; rfl, ?_, hsecond, rfl, rfl, rfl, fun hall => ?_⟩
  · exact congrArg List.length hs'
  · have hsame := congrArg List.length (hall.nothing _ hfirst rfl)
    rw [show List.length (Buffer.readable _) = 29 from congrArg List.length hs', hs] at hsame
    exact absurd hsame (by decide)

end HeaderExits

end GameNetwork
