import GameNetwork.Lib.Framing
import GameNetwork.Lib.Run
import GameNetwork.Message.Encoding
import GameNetwork.Network.GameConnection

/-!
# The decode loop as a stream decoder

`frameDecoder` is the decoder behind `onNewData`, seen as a function of the
bytes it holds: it accepts whole frames, rejects a length over the maximum
(dropping nothing), a wrong magic (dropping the length) or an unknown type
(dropping length and header), and faults on a frame whose length does not
cover its header. `onNewData_drain` says that on a buffer of fewer than
2^32 bytes the loop is a drain of that decoder.
-/

namespace GameNetwork

open Lib GameNetwork.Frame

/-- The messages among the callbacks, in order. -/
def ConnCall.messages (calls : List ConnCall) : List BaseMsgWithBuffer :=
  calls.filterMap fun
    | .register _ => none
    | .newMsg msg => some msg

@[simp] theorem ConnCall.messages_append (xs ys : List ConnCall) :
    messages (xs ++ ys) = messages xs ++ messages ys := List.filterMap_append

@[simp] theorem GameConnection.messages_registration (conn : GameConnection) (roleId : RoleId) :
    ConnCall.messages (conn.registration roleId) = [] := by
  unfold registration
  split <;> rfl

@[simp] theorem GameConnection.messages_handedOn (conn : GameConnection) (buffer : Buffer) (n : Nat) :
    ConnCall.messages (conn.handedOn buffer n).calls = [received buffer.readable] := by
  simp only [handedOn, ConnCall.messages_append, messages_registration, List.nil_append]
  rfl

/-! ## The decoder -/

/-- The decoder's answer to the bytes it holds. -/
def frameVerdict (s : List Byte) : Verdict BaseMsgWithBuffer :=
  if s.length < 4 then .more
  else if 4096 < (packSize s).toNat then .reject 0
  else if s.length < (packSize s).toNat + 4 then .more
  else if s.length < 8 then .fault
  else if magic s ≠ magicNumber then .reject 4
  else if s.length < 21 then .fault
  else if ¬ TypeInRange s then .reject 21
  else if (packSize s).toNat < 17 then .fault
  else .accept ((packSize s).toNat + 4) (received s)

/-- The three ways to be rejected, with what is dropped. -/
inductive Rejected (s : List Byte) : Nat → Prop where
  | tooLong : 4 ≤ s.length → 4096 < (packSize s).toNat → Rejected s 0
  | magic : 8 ≤ s.length → (packSize s).toNat ≤ 4096 → (packSize s).toNat + 4 ≤ s.length →
      magic s ≠ magicNumber → Rejected s 4
  | type : 21 ≤ s.length → (packSize s).toNat ≤ 4096 → (packSize s).toNat + 4 ≤ s.length →
      Frame.magic s = magicNumber → ¬ TypeInRange s → Rejected s 21

theorem frameVerdict_accept {s : List Byte} {n : Nat} {b : BaseMsgWithBuffer} :
    frameVerdict s = .accept n b ↔ Accepted s ∧ n = (packSize s).toNat + 4 ∧ b = received s := by
  constructor
  · intro h
    unfold frameVerdict at h
    repeat' split at h
    all_goals cases h
    exact ⟨⟨by omega, by omega, by omega, by simp_all, by simp_all⟩, rfl, rfl⟩
  · rintro ⟨h, rfl, rfl⟩
    have h1 := h.covers
    have h2 := h.le_max
    have h3 := h.whole
    rw [frameVerdict, if_neg (by omega), if_neg (by omega), if_neg (by omega), if_neg (by omega),
      if_neg (not_not.mpr h.magic_eq), if_neg (by omega), if_neg (not_not.mpr h.type_ok),
      if_neg (by omega)]

theorem frameVerdict_reject {s : List Byte} {n : Nat} :
    frameVerdict s = .reject n ↔ Rejected s n := by
  constructor
  · intro h
    unfold frameVerdict at h
    repeat' split at h
    all_goals cases h
    · exact .tooLong (by omega) (by omega)
    · exact .magic (by omega) (by omega) (by omega) (by assumption)
    · exact .type (by omega) (by omega) (by omega) (by simp_all) (by simp_all)
  · intro h
    cases h with
    | tooLong h1 h2 => rw [frameVerdict, if_neg (by omega), if_pos h2]
    | magic h1 h2 h3 h4 =>
      rw [frameVerdict, if_neg (by omega), if_neg (by omega), if_neg (by omega), if_neg (by omega),
        if_pos h4]
    | type h1 h2 h3 h4 h5 =>
      rw [frameVerdict, if_neg (by omega), if_neg (by omega), if_neg (by omega), if_neg (by omega),
        if_neg (not_not.mpr h4), if_neg (by omega), if_pos h5]

theorem Rejected.append {s : List Byte} {n : Nat} (h : Rejected s n) (t : List Byte) :
    Rejected (s ++ t) n := by
  have hp : 4 ≤ s.length → packSize (s ++ t) = packSize s := fun h => packSize_append h t
  have hl : (s ++ t).length = s.length + t.length := List.length_append
  cases h with
  | tooLong h1 h2 => exact .tooLong (by omega) (by rwa [hp h1])
  | magic h1 h2 h3 h4 =>
    have hp := hp (by omega)
    exact .magic (by omega) (by rwa [hp]) (by rw [hp]; omega) (by rwa [magic_append h1])
  | type h1 h2 h3 h4 h5 =>
    have hp := hp (by omega)
    exact .type (by omega) (by rwa [hp]) (by rw [hp]; omega) (by rwa [magic_append (by omega)])
      (fun h => h5 ((typeInRange_append h1 t).mp h))

/-- The decoder behind `OnNewData`. -/
def frameDecoder : Decoder Byte BaseMsgWithBuffer where
  verdict := frameVerdict
  verdict_nil := rfl
  accept_len h := by
    obtain ⟨hacc, rfl, -⟩ := frameVerdict_accept.mp h
    exact ⟨by omega, hacc.whole⟩
  accept_append h t := by
    obtain ⟨hacc, rfl, rfl⟩ := frameVerdict_accept.mp h
    have h1 := hacc.covers
    have h2 := hacc.whole
    exact frameVerdict_accept.mpr ⟨hacc.append t, by rw [packSize_append (by omega)],
      (received_append (by rw [hacc.bodySize_add]; omega) t).symm⟩
  reject_len h := by
    cases frameVerdict_reject.mp h <;> omega
  reject_append h t := frameVerdict_reject.mpr ((frameVerdict_reject.mp h).append t)

/-- **The frame of a message is one frame of the decoder.** -/
theorem isFrame_frame {m : Message} (hm : m.AsConstructed) :
    frameDecoder.IsFrame m.frame (received m.frame) where
  whole := frameVerdict_accept.mpr
    ⟨accepted_frame hm, by rw [packSize_frame_toNat hm, length_frame hm], rfl⟩
  part j hj := by
    have hlen : (m.frame.take j).length = j := by rw [List.length_take]; omega
    have hp : 4 ≤ j → packSize (m.frame.take j) = packSize m.frame := by
      intro h4
      conv_rhs => rw [← List.take_append_drop j m.frame]
      rw [packSize_append (by omega)]
    have h25 := packSize_frame_toNat hm
    have h29 := length_frame hm
    show frameVerdict _ = _
    unfold frameVerdict
    by_cases h4 : j < 4
    · rw [if_pos (by omega)]
    rw [if_neg (by omega), hp (by omega), if_neg (by omega), if_pos (by omega)]

/-! ## The loop drains it -/

namespace GameConnection

/-- What a turn does, by the decoder's verdict. -/
def TurnAnswers (conn : GameConnection) (buffer : Buffer) : Verdict BaseMsgWithBuffer → Prop
  | .more => conn.turn buffer = .ok (.inl buffer)
  | .accept n _ => conn.turn buffer = .ok (.inr (conn.handedOn buffer n, true))
  | .reject n => conn.turn buffer = .ok (.inl (buffer.addReadIndex n))
  | .fault => ∃ c, conn.turn buffer = .error (.assertion c)

/-- A turn follows the decoder. -/
theorem turn_answers {buffer : Buffer} (hv : buffer.Valid) (hlen : buffer.readable.length < 2 ^ 32)
    (conn : GameConnection) : conn.TurnAnswers buffer (frameVerdict buffer.readable) := by
  have hturn := turn_eq hv conn rfl
  rw [Nat.mod_eq_of_lt hlen] at hturn
  unfold frameVerdict
  by_cases h4 : buffer.readable.length < 4
  · rw [if_pos h4] at hturn ⊢; exact hturn
  rw [if_neg h4] at hturn ⊢
  by_cases hmax : 4096 < (packSize buffer.readable).toNat
  · rw [if_pos hmax] at hturn ⊢
    rw [← Buffer.addReadIndex_zero buffer] at hturn
    exact hturn
  rw [if_neg hmax] at hturn ⊢
  by_cases hmore : buffer.readable.length < (packSize buffer.readable).toNat + 4
  · rw [if_pos hmore] at hturn ⊢; exact hturn
  rw [if_neg hmore] at hturn ⊢
  by_cases h8 : buffer.readable.length < 8
  · rw [if_pos h8] at hturn ⊢; exact ⟨_, hturn⟩
  rw [if_neg h8] at hturn ⊢
  by_cases hmagic : magic buffer.readable ≠ magicNumber
  · rw [if_pos hmagic] at hturn ⊢; exact hturn
  rw [if_neg hmagic] at hturn ⊢
  by_cases h21 : buffer.readable.length < 21
  · rw [if_pos h21] at hturn ⊢; exact ⟨_, hturn⟩
  rw [if_neg h21] at hturn ⊢
  by_cases htype : ¬ TypeInRange buffer.readable
  · rw [if_pos htype] at hturn ⊢; exact hturn
  rw [if_neg htype] at hturn ⊢
  by_cases h17 : (packSize buffer.readable).toNat < 17
  · -- the size of the body wraps, and no buffer of this size holds as much
    have hbody := bodySize_of_lt h17
    rw [if_pos (by omega)] at hturn
    rw [if_pos h17]
    exact ⟨_, hturn⟩
  · have hbody := bodySize_of_le (Nat.le_of_not_lt h17)
    rw [if_neg (by omega), show 21 + (bodySize buffer.readable).toNat =
      (packSize buffer.readable).toNat + 4 by omega] at hturn
    rw [if_neg h17]
    exact hturn

/-- What the loop does, by the drain of its content. -/
def LoopAnswers (conn : GameConnection) (buffer : Buffer) :
    Option (List BaseMsgWithBuffer × List Byte) → Prop
  | some (bs, rest) => ∃ r, conn.onNewData buffer = .ok r ∧ ConnCall.messages r.calls = bs ∧
      r.buffer.readable = rest ∧ buffer.Consumed r.buffer
  | none => ∃ c, conn.onNewData buffer = .error (.assertion c)

/-- **The loop is a drain of the decoder.** -/
theorem onNewData_drain {buffer : Buffer} (hv : buffer.Valid)
    (hlen : buffer.readable.length < 2 ^ 32) (conn : GameConnection) :
    conn.LoopAnswers buffer (frameDecoder.drain buffer.readable) := by
  induction hl : buffer.readable.length using Nat.strongRecOn generalizing buffer conn with
  | ind l ih =>
  have hturn := turn_answers hv hlen conn
  cases hverdict : frameVerdict buffer.readable with
  | more =>
    rw [hverdict] at hturn
    rw [Decoder.drain_more hverdict]
    exact ⟨_, onNewData_stop hv hturn, rfl, rfl, .refl hv⟩
  | reject n =>
    rw [hverdict] at hturn
    rw [Decoder.drain_reject hverdict]
    exact ⟨_, onNewData_stop hv hturn, rfl, Buffer.readable_addReadIndex hv n,
      Buffer.consumed_addReadIndex hv n⟩
  | fault =>
    rw [hverdict] at hturn
    obtain ⟨c, hc⟩ := hturn
    rw [Decoder.drain_fault hverdict]
    exact ⟨c, onNewData_fault hv hc⟩
  | accept n b =>
    rw [hverdict] at hturn
    obtain ⟨hacc, rfl, rfl⟩ := frameVerdict_accept.mp hverdict
    have hr := Buffer.readable_addReadIndex hv ((packSize buffer.readable).toNat + 4)
    have hshort : (buffer.readable.drop ((packSize buffer.readable).toNat + 4)).length < l := by
      have := hacc.whole
      rw [List.length_drop]; omega
    have hrest := ih _ (by rw [hr]; exact hshort) (Buffer.valid_addReadIndex hv)
      (by rw [hr]; omega) (conn.handedOn buffer ((packSize buffer.readable).toNat + 4)).conn rfl
    rw [hr] at hrest
    rw [Decoder.drain_accept hverdict]
    cases hdrain : frameDecoder.drain (buffer.readable.drop ((packSize buffer.readable).toNat + 4)) with
    | none =>
      rw [hdrain] at hrest
      obtain ⟨c, hc⟩ := hrest
      exact ⟨c, by rw [onNewData_handedOn hv hturn, hc]; rfl⟩
    | some out =>
      rw [hdrain] at hrest
      obtain ⟨r, hrun, hmsgs, hreadable, hcons⟩ := hrest
      refine ⟨{ r with calls := (conn.handedOn buffer _).calls ++ r.calls },
        by rw [onNewData_handedOn hv hturn, hrun]; rfl, ?_, hreadable,
        (Buffer.consumed_addReadIndex hv _).trans hcons⟩
      rw [ConnCall.messages_append, messages_handedOn, hmsgs]
      rfl

end GameConnection

end GameNetwork
