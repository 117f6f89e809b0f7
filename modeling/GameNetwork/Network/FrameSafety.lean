import GameNetwork.Network.FrameDecoder

/-!
# Framing of hostile input

What `onNewData` does to a buffer of any content. It is safe when no assertion
fails and every message handed on is framed: its bytes are one whole frame of
the content, and its body buffer holds the bytes of that frame behind the
header (`FramedAs`).

The decoder checks a length only against its maximum. A frame whose length
does not cover the header is read all the same, and the size of its body
wraps. `onNewData_safe_iff` says that these frames are the only ones that do harm.
-/

namespace GameNetwork

open Lib GameNetwork.Frame

/-- `msg` is what the frame `f` carries: `f` is a length of at least a header, and as many bytes;
`msg` holds the header and, as its body, all the bytes behind it. -/
structure FramedAs (msg : BaseMsgWithBuffer) (f : List Byte) : Prop where
  covers : 17 ≤ (packSize f).toNat
  length_eq : f.length = 4 + (packSize f).toNat
  header_eq : msg.baseMessage = header f
  body_eq : msg.bodyBuffer.readable = f.drop 21
  body_size : msg.bodyBuffer.readableSize = (packSize f).toNat - 17

/-- The loop comes to a whole frame whose length does not cover the header: at the front, or
behind a frame it accepts. -/
inductive MeetsTooShort : List Byte → Prop where
  | here {s : List Byte} : 4 ≤ s.length % 2 ^ 32 → TooShort s → MeetsTooShort s
  | behind {s : List Byte} : 4 ≤ s.length % 2 ^ 32 → Accepted s →
      MeetsTooShort (s.drop ((packSize s).toNat + 4)) → MeetsTooShort s

namespace GameConnection

/-- What is left after a run that handed on `msgs`: the content was the frames of `msgs` and a
rest, and of the rest at most a length or a length and a header is dropped. -/
def LeavesFrames (s : List Byte) (msgs : List BaseMsgWithBuffer) (left : List Byte) : Prop :=
  ∃ frames rest n, s = frames.flatten ++ rest ∧ List.Forall₂ FramedAs msgs frames ∧
    (n = 0 ∨ n = 4 ∨ n = 21) ∧ left = rest.drop n

/-- `OnNewData` returns, and takes each message from its own frame. -/
def Safe (conn : GameConnection) (buffer : Buffer) : Prop :=
  ∃ r, conn.onNewData buffer = .ok r ∧
    LeavesFrames buffer.readable (ConnCall.messages r.calls) r.buffer.readable

/-- An accepted frame is framed. -/
theorem framedAs_received {s : List Byte} (h : Accepted s) :
    FramedAs (received s) (s.take ((packSize s).toNat + 4)) := by
  have h1 := h.covers
  have h2 := h.whole
  have hlen : (s.take ((packSize s).toNat + 4)).length = (packSize s).toNat + 4 := by
    rw [List.length_take]; omega
  have hp : packSize (s.take ((packSize s).toNat + 4)) = packSize s := by
    conv_rhs => rw [← List.take_append_drop ((packSize s).toNat + 4) s]
    rw [packSize_append (by omega)]
  have hh : header (s.take ((packSize s).toNat + 4)) = header s := by
    conv_rhs => rw [← List.take_append_drop ((packSize s).toNat + 4) s]
    rw [header_append (by omega)]
  have hbody : (received s).bodyBuffer.readable = body s := Buffer.readable_tiny_appended _
  refine ⟨by rwa [hp], by rw [hp]; omega, hh.symm, ?_, ?_⟩
  · rw [hbody, body, List.drop_take, ← h.bodySize_add, Nat.add_sub_cancel_left]
  · have hvalid : (received s).bodyBuffer.Valid := Buffer.valid_tiny_appended _
    rw [Buffer.readableSize_readable hvalid, hbody,
      length_body (by rw [h.bodySize_add]; omega), bodySize_of_le h1, hp]

/-- A framed message's frame, seen from the front of the content. -/
theorem packSize_framed {msg : BaseMsgWithBuffer} {f t : List Byte} (h : FramedAs msg f) :
    packSize (f ++ t) = packSize f := packSize_append (by rw [h.length_eq]; omega) t

theorem leavesFrames_cons {s left : List Byte} {msgs : List BaseMsgWithBuffer} (h : Accepted s) :
    LeavesFrames s (received s :: msgs) left ↔
      LeavesFrames (s.drop ((packSize s).toNat + 4)) msgs left := by
  constructor
  · rintro ⟨frames, rest, n, hs, hf, hn, hleft⟩
    cases hf with
    | @cons _ f _ frames hf hfs =>
      refine ⟨frames, rest, n, ?_, hfs, hn, hleft⟩
      rw [List.flatten_cons, List.append_assoc] at hs
      have hlen : (packSize s).toNat + 4 = f.length := by
        rw [hs, packSize_framed hf, hf.length_eq, Nat.add_comm]
      rw [hlen, hs, List.drop_left' rfl]
  · rintro ⟨frames, rest, n, hs, hf, hn, hleft⟩
    refine ⟨s.take ((packSize s).toNat + 4) :: frames, rest, n, ?_,
      .cons (framedAs_received h) hf, hn, hleft⟩
    rw [List.flatten_cons, List.append_assoc, ← hs, List.take_append_drop]

/-- A frame whose length does not cover the header frames no message. -/
theorem not_leavesFrames_of_short {s left : List Byte} {msg : BaseMsgWithBuffer}
    {msgs : List BaseMsgWithBuffer} (h : (packSize s).toNat < 17) :
    ¬ LeavesFrames s (msg :: msgs) left := by
  rintro ⟨frames, rest, n, hs, hf, -, -⟩
  cases hf with
  | cons hf _ =>
    have := hf.covers
    rw [hs, List.flatten_cons, List.append_assoc, packSize_framed hf] at h
    omega

/-! ## Safety -/

section Turn

variable {buffer : Buffer} {conn : GameConnection}

theorem safe_handedOn (hv : buffer.Valid) (hacc : Accepted buffer.readable)
    (h : conn.turn buffer =
      .ok (.inr (conn.handedOn buffer ((packSize buffer.readable).toNat + 4), true))) :
    conn.Safe buffer ↔
      (conn.handedOn buffer ((packSize buffer.readable).toNat + 4)).conn.Safe
        (buffer.addReadIndex ((packSize buffer.readable).toNat + 4)) := by
  unfold Safe
  rw [onNewData_handedOn hv h, Buffer.readable_addReadIndex hv]
  constructor
  · rintro ⟨r, hr, hl⟩
    obtain ⟨r', hr', rfl⟩ := map_eq_ok.mp hr
    refine ⟨r', hr', ?_⟩
    rw [ConnCall.messages_append, messages_handedOn] at hl
    exact (leavesFrames_cons hacc).mp hl
  · rintro ⟨r, hr, hl⟩
    refine ⟨_, map_eq_ok.mpr ⟨r, hr, rfl⟩, ?_⟩
    rw [ConnCall.messages_append, messages_handedOn]
    exact (leavesFrames_cons hacc).mpr hl

/-- A frame that is misread does harm: it fails an assertion, or hands on bytes of others. -/
theorem not_safe_of_tooShort (hv : buffer.Valid) (h4 : 4 ≤ buffer.readable.length % 2 ^ 32)
    (hshort : TooShort buffer.readable) : ¬ conn.Safe buffer := by
  rintro ⟨r, hr, hl⟩
  rcases turn_cases hv conn rfl with ⟨-, hacc, -⟩ | ⟨-, -, ⟨c, h⟩ | ⟨-, h⟩⟩ | ⟨hn, -⟩
  · exact hacc.not_tooShort hshort
  · rw [onNewData_fault hv h] at hr; cases hr
  · rw [onNewData_handedOn hv h] at hr
    obtain ⟨r', -, rfl⟩ := map_eq_ok.mp hr
    rw [ConnCall.messages_append, messages_handedOn] at hl
    exact not_leavesFrames_of_short hshort.short hl
  · exact hn ⟨h4, .inr hshort⟩

end Turn

/-- **Framing is safe exactly when no frame too short for its header is met.** -/
theorem onNewData_safe_iff {buffer : Buffer} (hv : buffer.Valid) (conn : GameConnection) :
    conn.Safe buffer ↔ ¬ MeetsTooShort buffer.readable := by
  induction hl : buffer.readable.length using Nat.strongRecOn generalizing buffer conn with
  | ind l ih =>
  rcases turn_cases hv conn rfl with ⟨h4, hacc, h⟩ | ⟨h4, hshort, -⟩ | ⟨hn, n, hn', hlen, h⟩
  · rw [safe_handedOn hv hacc h]
    have hw := hacc.whole
    have hlt : (buffer.addReadIndex ((packSize buffer.readable).toNat + 4)).readable.length < l := by
      rw [Buffer.readable_addReadIndex hv, List.length_drop]; omega
    rw [ih _ hlt (Buffer.valid_addReadIndex hv) _ rfl, Buffer.readable_addReadIndex hv]
    refine not_congr ⟨.behind h4 hacc, fun hm => ?_⟩
    cases hm with
    | here _ hshort => exact absurd hshort hacc.not_tooShort
    | behind _ _ hm => exact hm
  · exact iff_of_false (not_safe_of_tooShort hv h4 hshort) (not_not.mpr (.here h4 hshort))
  · refine iff_of_true ⟨_, onNewData_stop hv h, ?_⟩ fun hm => ?_
    · exact ⟨[], buffer.readable, n, rfl, .nil, hn', Buffer.readable_addReadIndex hv n⟩
    · cases hm with
      | here h4 hshort => exact hn ⟨h4, .inr hshort⟩
      | behind h4 hacc _ => exact hn ⟨h4, .inl hacc⟩

/-- A receive buffer that holds a length of 0 and nothing else. -/
def zeroLength : Buffer := (Buffer.new defaultBufferSize).written [0, 0, 0, 0]

theorem zeroLength_room : (Buffer.new defaultBufferSize).writeIdx + ([0, 0, 0, 0] : List Byte).length ≤
    (Buffer.new defaultBufferSize).bytes.length := by
  rw [Buffer.length_new (by decide)]
  decide

theorem zeroLength_valid : zeroLength.Valid :=
  Buffer.valid_written Buffer.valid_default zeroLength_room

theorem zeroLength_readable : zeroLength.readable = [0, 0, 0, 0] := by
  rw [zeroLength, Buffer.readable_written Buffer.valid_default zeroLength_room, Buffer.readable_new]
  rfl

theorem zeroLength_fails :
    idxBegin ≤ zeroLength.readIdx ∧ zeroLength.Valid ∧
      onNewData ⟨0, true⟩ zeroLength = .error (.assertion "ReadableSize() >= sizeof(T)") ∧
      ¬ Safe ⟨0, true⟩ zeroLength := by
  have h : onNewData ⟨0, true⟩ zeroLength = .error (.assertion "ReadableSize() >= sizeof(T)") := by
    refine onNewData_fault zeroLength_valid ?_
    rw [turn_eq zeroLength_valid _ zeroLength_readable]
    rfl
  exact ⟨Nat.le_refl _, zeroLength_valid, h, fun ⟨r, hr, _⟩ => by rw [h] at hr; cases hr⟩

/-- A ping and a move, received together. -/
def twoFrames : Buffer := Buffer.tiny.appended (pingOfFive.frame ++ moveOfFive.frame)

theorem twoFrames_fine : ¬ MeetsTooShort twoFrames.readable := by
  rw [twoFrames, Buffer.readable_tiny_appended]
  intro h
  cases h with
  | here _ hshort => exact absurd hshort.short (by decide)
  | behind _ _ h =>
    rw [show (pingOfFive.frame ++ moveOfFive.frame).drop
      ((packSize (pingOfFive.frame ++ moveOfFive.frame)).toNat + 4) = moveOfFive.frame from by decide] at h
    cases h with
    | here _ hshort => exact absurd hshort.short (by decide)
    | behind _ _ h =>
      rw [show moveOfFive.frame.drop ((packSize moveOfFive.frame).toNat + 4) = [] from by decide] at h
      cases h with
      | here h4 => exact absurd h4 (by decide)
      | behind h4 => exact absurd h4 (by decide)

/-- Two messages are handed on safely; the length of 0 does harm. -/
theorem twoFrames_safe_iff :
    (Safe ⟨0, true⟩ twoFrames ∧ (onNewData ⟨0, true⟩ twoFrames).map (fun r => ConnCall.messages r.calls) =
      .ok [received pingOfFive.frame, received moveOfFive.frame]) ∧
    MeetsTooShort zeroLength.readable ∧ ¬ Safe ⟨0, true⟩ zeroLength := by
  have hmeets : MeetsTooShort zeroLength.readable :=
    zeroLength_readable ▸ .here (by decide) ⟨by decide, by decide, .inl (by decide)⟩
  refine ⟨⟨?_, rfl⟩, hmeets, fun hs => (onNewData_safe_iff zeroLength_valid ⟨0, true⟩).mp hs hmeets⟩
  exact (onNewData_safe_iff (Buffer.valid_tiny_appended _) ⟨0, true⟩).mpr twoFrames_fine

end GameConnection

end GameNetwork
