import GameNetwork.Network.Channel
import GameNetwork.Network.TracedDispatch
import GameNetwork.Network.Wire

/-!
# What is still to be done

What is under way on a connection and at a dispatcher, and the steps that
bring it on: a write goes on (`Sending.Streams.transfer_rest`) as long as it
still has its buffer (`Sending.CanGoOn`); a read or a turn of a receive loop
leaves less to be done (`toDo`); and of what waits at a dispatcher some worker
has a message to take (`TracedDispatcher.exists_current`).
-/

namespace GameNetwork

open Lib

/-! ## Writes -/

namespace Sending

/-- Every write of the connection is done, or can go on: there are bytes left, and they are still in
their place. -/
def CanGoOn (s : Sending) (c : ConnId) : Prop :=
  ∀ w ∈ (s.sockets c).writes, w.transferred = w.length ∨
    w.transferred < w.length ∧ s.inScope w.data.buffer = true

instance (s : Sending) (c : ConnId) : Decidable (s.CanGoOn c) := inferInstanceAs (Decidable (∀ _ ∈ _, _))

section CanGoOn

variable {s : Sending} {msgs : ConnId → List Message} {c : ConnId}

/-- The writes of another connection, and buffers that stay. -/
theorem CanGoOn.of_eq {s' : Sending} (h : s.CanGoOn c) (hsockets : s'.sockets c = s.sockets c)
    (hscope : ∀ b, s.inScope b = true → s'.inScope b = true) : s'.CanGoOn c := by
  intro w hw
  rw [hsockets] at hw
  exact (h w hw).imp_right fun hrest => ⟨hrest.1, hscope _ hrest.2⟩

/-- **The rest of a write is transferred.** -/
theorem Streams.transfer_rest (h : s.Streams msgs) (hgo : s.CanGoOn c) (hbusy : ¬ s.Idle c) :
    ∃ i n w, s.transferring c i n = some w ∧ s.inScope w.data.buffer = true ∧
      (∀ c', s.CanGoOn c' → (s.transfer c i n w).CanGoOn c') ∧
      ((s.transfer c i n w).unsent c).length + ((s.transfer c i n w).sockets c).transferred.length =
        (s.unsent c).length + (s.sockets c).transferred.length ∧
      ((s.transfer c i n w).unsent c).length < (s.unsent c).length := by
  obtain ⟨w, hw, hnot⟩ : ∃ w ∈ (s.sockets c).writes, w.transferred ≠ w.length := by
    simpa [Idle] using hbusy
  obtain ⟨hlt, hscope⟩ := (hgo w hw).resolve_left hnot
  obtain ⟨i, hi⟩ := List.mem_iff_getElem?.mp hw
  have htransferring : s.transferring c i (w.length - w.transferred) = some w :=
    transferring_eq_some.mpr ⟨hi, by omega, by omega⟩
  refine ⟨i, _, w, htransferring, hscope, fun c' hgo' => ?_, ?_⟩
  · by_cases hc : c' = c
    · subst hc
      intro v hv
      simp only [Sending.transfer, setSocket, Function.update_self] at hv
      rcases List.mem_or_eq_of_mem_set hv with hv | rfl
      · exact hgo' v hv
      · exact .inl (Nat.add_sub_cancel' (Nat.le_of_lt hlt))
    · exact hgo'.of_eq (Function.update_of_ne hc ..) fun _ hb => hb
  · obtain ⟨hstreams, htransferred⟩ := h.transfer htransferring hscope
    have hbefore := congrArg List.length (h.transferred_append c)
    have hafter := congrArg List.length (hstreams.transferred_append c)
    have hunsent : s.unsent c = w.frame.drop w.transferred := by
      have hwriter : ((s.sockets c).writes.map AsyncWrite.writer)[i]? = some w.writer := by
        rw [List.getElem?_map, hi]
        rfl
      have hrest := (h.inTurn c).rest_eq hwriter fun hd => hnot ((h.done_iff hw).mp hd)
      rw [List.map_map] at hrest
      exact hrest
    have hlen := congrArg List.length hunsent
    rw [List.length_drop, ← (h.inv.held c w hw).length_eq] at hlen
    rw [htransferred] at hafter ⊢
    simp only [List.length_append, List.length_take] at hbefore hafter ⊢
    omega

/-- A message is sent. -/
theorem CanGoOn.sent (h : s.CanGoOn c) (c' : ConnId) (m : Message) (b : Buffer) : (s.sent c' m b).CanGoOn c := by
  have hscope : ∀ b', s.inScope b' = true → (s.sent c' m b).inScope b' = true := by
    intro b' hb'
    show ((s.buffers ++ [(⟨b.bytes, true⟩ : LocalBuffer)])[b']?).any (·.inScope) = true
    have hlt : b' < s.buffers.length := by
      by_contra hge
      rw [inScope, List.getElem?_eq_none (Nat.le_of_not_lt hge)] at hb'
      cases hb'
    rw [List.getElem?_append_left hlt]
    exact hb'
  by_cases hc : c = c'
  · subst hc
    intro w hw
    simp only [Sending.sent, setSocket, Function.update_self] at hw
    rcases List.mem_append.mp hw with hw | hw
    · exact (h w hw).imp_right fun hrest => ⟨hrest.1, hscope _ hrest.2⟩
    · obtain rfl := List.mem_singleton.mp hw
      refine .inr ⟨?_, ?_⟩
      · show 0 < m.frame.length
        rw [Message.frame, List.length_append, length_wire]
        exact Nat.add_pos_left (by decide) _
      · show ((s.buffers ++ [(⟨b.bytes, true⟩ : LocalBuffer)])[s.buffers.length]?).any (·.inScope) = true
        rw [List.getElem?_concat_length]
        rfl
  · exact h.of_eq (Function.update_of_ne hc ..) hscope

end CanGoOn

end Sending

/-! ## Receive loops -/

/-- What is still to be done on a connection: bytes to be transferred, to be read and to be decoded,
a full buffer to be compacted, and a loop to end. -/
def toDo (unsent unread : Nat) (buffer : Buffer) (decoding : Bool) : Nat :=
  7 * unsent + 6 * unread + 2 * buffer.readable.length + (if buffer.writableSize = 0 then 2 else 0) +
    decoding.toNat

section ToDo

variable {unsent unread : Nat}

/-- Bytes are transferred. -/
theorem toDo_transfer {unsent' unread' : Nat} (hsum : unsent' + unread' ≤ unsent + unread)
    (hlt : unsent' < unsent) (buffer : Buffer) (decoding : Bool) :
    toDo unsent' unread' buffer decoding < toDo unsent unread buffer decoding := by
  unfold toDo
  omega

/-- **A read** of as much as there is room for. -/
theorem toDo_read (unsent : Nat) {r : Receiver} (hr : r.Ready)
    (hsmall : r.buffer.readable.length < defaultBufferSize) {bytes : List Byte}
    (hbytes : bytes.length = min unread r.buffer.writableSize) (hunread : 0 < unread) :
    toDo unsent (unread - bytes.length) (r.arrived bytes) true < toDo unsent unread r.buffer false := by
  have hle : bytes.length ≤ r.buffer.writableSize := hbytes ▸ Nat.min_le_right _ _
  have hreadable := congrArg List.length (Receiver.readable_arrived hr hle)
  rw [List.length_append] at hreadable
  unfold toDo
  rw [hreadable]
  by_cases hfull : r.buffer.writableSize = 0
  · -- nothing is read, and what is held moves to the front of the buffer
    have hroom : (r.arrived bytes).writableSize ≠ 0 := by
      have hready := Receiver.ready_arrived hr hle
      have hnil : bytes = [] := List.eq_nil_of_length_eq_zero (by omega)
      have hlen : (r.arrived bytes).writeIdx = idxBegin + r.buffer.readable.length := by
        have hwritten : r.buffer.written bytes = r.buffer := by
          rw [hnil, Buffer.written, store]
          simp only [List.nil_append, List.length_nil, Nat.add_zero, List.take_append_drop]
        rw [Receiver.arrived, hwritten, if_pos hfull]
        rfl
      rw [Buffer.writableSize_eq hready.valid, hready.size, hlen]
      omega
    rw [if_pos hfull, if_neg hroom]
    simp only [Bool.toNat_true, Bool.toNat_false]
    omega
  · rw [if_neg hfull]
    simp only [Bool.toNat_true, Bool.toNat_false]
    split <;> omega

/-- A frame is handed on. -/
theorem toDo_frame {buffer : Buffer} {n : Nat}
    (hlt : (buffer.addReadIndex n).readable.length < buffer.readable.length) (decoding : Bool) :
    toDo unsent unread (buffer.addReadIndex n) decoding < toDo unsent unread buffer decoding := by
  have hwritable : (buffer.addReadIndex n).writableSize = buffer.writableSize := by
    unfold Buffer.addReadIndex
    split <;> rfl
  unfold toDo
  rw [hwritable]
  omega

/-- The loop ends. -/
theorem toDo_more (buffer : Buffer) : toDo unsent unread buffer false < toDo unsent unread buffer true :=
  Nat.lt_succ_self _

end ToDo

/-- What a receiver holds that waits is less than a frame. -/
theorem Wire.held_lt {sent rest : List Message} {read : Nat} {held : List Byte} (h : Wire sent read held rest)
    (hw : Waits held rest) : held.length < 29 := by
  cases rest with
  | nil =>
    rw [(List.append_eq_nil_iff.mp h.bytes).1]
    decide
  | cons m rest =>
    have hlt := hw m rfl
    rwa [length_frame (h.constructed m List.mem_cons_self)] at hlt

/-! ## Workers -/

namespace TracedDispatcher

variable {ν : Type} {d : TracedDispatcher ν}

theorem waiting_tryPop (d : TracedDispatcher ν) (k : Nat) : (d.tryPop k).waiting = d.waiting := by
  have hitems := map_modify_of_eq Lane.items_take d.lanes k
  exact congrArg List.flatten hitems

theorem length_waiting_finished {k : Nat} {x : Traced ν} (hk : d.current k = some x) :
    (d.finished k x).waiting.length < d.waiting.length := by
  obtain ⟨l, hl, hx⟩ := Option.bind_eq_some_iff.mp hk
  refine length_flatMap_modify_lt hl ?_
  rw [Lane.items_finish hx]
  exact Nat.lt_succ_self _

/-- A worker that tries has a message to dispatch, if there is any. -/
theorem exists_current (h : d.waiting ≠ []) : ∃ k x, (d.tryPop k).current k = some x := by
  obtain ⟨y, hy⟩ := List.exists_mem_of_ne_nil _ h
  obtain ⟨l, hl, hy⟩ := List.mem_flatMap.mp hy
  obtain ⟨k, hk⟩ := List.mem_iff_getElem?.mp hl
  obtain ⟨x, hx⟩ := Lane.current_take (List.ne_nil_of_mem hy)
  refine ⟨k, x, ?_⟩
  show ((d.lanes.modify k Lane.take)[k]?).bind _ = _
  rw [List.getElem?_modify_eq, hk]
  exact hx

theorem waitingFor_eq_nil (h : d.waiting = []) (r : RoleId) : d.waitingFor r = [] := by
  rw [List.eq_nil_iff_forall_not_mem]
  intro x hx
  have hx' := List.mem_of_mem_filter hx
  cases hl : d.lanes[d.dispatcher.threadIndex r]? with
  | none =>
    rw [hl] at hx'
    cases hx'
  | some l =>
    rw [hl] at hx'
    have hmem : x ∈ d.waiting := List.mem_flatMap.mpr ⟨l, List.mem_of_getElem? hl, hx'⟩
    rw [h] at hmem
    cases hmem

end TracedDispatcher

end GameNetwork
