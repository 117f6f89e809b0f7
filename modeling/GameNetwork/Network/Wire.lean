import GameNetwork.Network.Stream

/-!
# What is on the wire

The messages that have been sent on a connection and not yet handed on by the
receiver at its other end, read off the bytes: those that the receiver holds,
and those that it has still to read. `Wire.front` says what its decoder finds.
-/

namespace GameNetwork

open Lib GameNetwork.Frame

/-- Of the frames of the messages `sent`, a receiver has read some bytes and still holds a part of
these: what it has still to hand on is `rest`. -/
structure Wire (sent : List Message) (read : Nat) (held : List Byte) (rest : List Message) : Prop where
  read_le : read ≤ (sent.map Message.frame).flatten.length
  bytes : held ++ (sent.map Message.frame).flatten.drop read = (rest.map Message.frame).flatten
  constructed : ∀ m ∈ rest, m.AsConstructed

/-- The receiver holds less than the frame of the next message. -/
def Waits (held : List Byte) (rest : List Message) : Prop :=
  ∀ m ∈ rest.head?, held.length < m.frame.length

/-- The frame of a message at the front is what the decoder accepts. -/
theorem verdict_frame {m : Message} (hm : m.AsConstructed) (t : List Byte) :
    frameVerdict (m.frame ++ t) = .accept m.frame.length (received m.frame) ∧
      received (m.frame ++ t) = received m.frame := by
  have hverdict : frameVerdict (m.frame ++ t) = .accept m.frame.length (received m.frame) :=
    frameDecoder.accept_append (isFrame_frame hm).whole t
  exact ⟨hverdict, (frameVerdict_accept.mp hverdict).2.2.symm⟩

namespace Wire

variable {sent rest : List Message} {read : Nat} {held : List Byte}

theorem new : Wire [] 0 [] [] := ⟨Nat.le_refl _, rfl, fun _ h => by cases h⟩

theorem waits_new : Waits [] [] := fun _ h => by cases h

/-- A message is sent. -/
theorem send (h : Wire sent read held rest) {m : Message} (hm : m.AsConstructed) :
    Wire (sent ++ [m]) read held (rest ++ [m]) := by
  have hle := h.read_le
  refine ⟨?_, ?_, fun x hx => ?_⟩
  · simp only [List.map_append, List.flatten_append, List.length_append]
    omega
  · simp only [List.map_append, List.flatten_append]
    rw [List.drop_append_of_le_length hle, ← List.append_assoc, h.bytes]
  · rcases List.mem_append.mp hx with hx | hx
    · exact h.constructed x hx
    · rwa [List.mem_singleton.mp hx]

/-- The next bytes are read. -/
theorem receive (h : Wire sent read held rest) {bytes : List Byte}
    (hb : bytes <+: (sent.map Message.frame).flatten.drop read) :
    Wire sent (read + bytes.length) (held ++ bytes) rest := by
  have hlen := hb.length_le
  rw [List.length_drop] at hlen
  have hle := h.read_le
  refine ⟨by omega, ?_, h.constructed⟩
  have hsplit := List.prefix_iff_eq_append.mp hb
  rw [List.drop_drop] at hsplit
  rw [List.append_assoc, hsplit, h.bytes]

/-- A receiver that waits goes on to wait when a message is sent. -/
theorem waits_send (h : Wire sent read held rest) (hw : Waits held rest) {m : Message}
    (hm : m.AsConstructed) : Waits held (rest ++ [m]) := by
  intro x hx
  cases hrest : rest with
  | nil =>
    have hbytes := h.bytes
    rw [hrest] at hbytes hx
    have hnil : held = [] := (List.append_eq_nil_iff.mp hbytes).1
    cases hx
    rw [hnil, length_frame hm]
    decide
  | cons y rest =>
    rw [hrest] at hx hw
    exact hw x hx

/-- **What the decoder finds**: the frame of the next message, or less than that. -/
theorem front (h : Wire sent read held rest) :
    (∃ m rest' t, rest = m :: rest' ∧ held = m.frame ++ t ∧ Wire sent read t rest') ∨
      (frameVerdict held = .more ∧ Waits held rest) := by
  cases hrest : rest with
  | nil =>
    have hbytes := h.bytes
    rw [hrest] at hbytes
    have hnil : held = [] := (List.append_eq_nil_iff.mp hbytes).1
    exact .inr ⟨by rw [hnil]; exact frameDecoder.verdict_nil, fun _ hm => by cases hm⟩
  | cons m rest' =>
    have hbytes := h.bytes
    rw [hrest, List.map_cons, List.flatten_cons] at hbytes
    by_cases hlt : held.length < m.frame.length
    · refine .inr ⟨?_, fun x hx => by cases hx; exact hlt⟩
      have hframe := isFrame_frame (h.constructed m (by rw [hrest]; exact List.mem_cons_self))
      have htake : held = m.frame.take held.length := by
        have := congrArg (List.take held.length) hbytes
        rwa [List.take_left, List.take_append_of_le_length (Nat.le_of_lt hlt)] at this
      have hpart := hframe.part held.length hlt
      rw [← htake] at hpart
      exact hpart
    · have hle : m.frame.length ≤ held.length := Nat.le_of_not_lt hlt
      have htake : held.take m.frame.length = m.frame := by
        have := congrArg (List.take m.frame.length) hbytes
        rwa [List.take_append_of_le_length hle, List.take_left] at this
      have hheld : held = m.frame ++ held.drop m.frame.length := by
        rw [← htake, List.length_take, Nat.min_eq_left hle, List.take_append_drop]
      refine .inl ⟨m, rest', held.drop m.frame.length, rfl, hheld, h.read_le, ?_, fun x hx => ?_⟩
      · rw [hheld, List.append_assoc] at hbytes
        exact List.append_cancel_left hbytes
      · exact h.constructed x (by rw [hrest]; exact List.mem_cons_of_mem _ hx)

/-- A receiver that has read everything, and waits, has handed everything on. -/
theorem rest_eq_nil (h : Wire sent read held rest) (hw : Waits held rest)
    (hread : (sent.map Message.frame).flatten.length ≤ read) : rest = [] := by
  have hbytes := h.bytes
  rw [List.drop_eq_nil_of_le hread, List.append_nil] at hbytes
  cases rest with
  | nil => rfl
  | cons m rest =>
    have hlt := hw m rfl
    rw [hbytes, List.map_cons, List.flatten_cons, List.length_append] at hlt
    omega

end Wire

end GameNetwork
