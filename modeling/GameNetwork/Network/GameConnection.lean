import GameNetwork.Message.Frame

/-!
# One connection's decode loop

`Network/GameConnection.h`, `Network/GameConnection.cpp`. `onNewData` decodes
frames from the receive buffer until the decoder needs more data or refuses
what it sees. One turn of its loop is `turn`; `turn_eq` reads it off the
content of the buffer. The loop is bounded by the content it starts with,
and never reaches that bound (`onNewData_eq`).
-/

namespace GameNetwork

open Lib GameNetwork.Frame

/-- The state of a `GameConnection` that `OnNewData` reads and writes. -/
structure GameConnection where
  /-- `role_id_`. -/
  roleId : RoleId
  /-- `register_func_` is set. -/
  registerFunc : Bool
  deriving DecidableEq, Repr

/-- The callbacks `OnNewData` makes. -/
inductive ConnCall where
  /-- `register_func_`. -/
  | register (roleId : RoleId)
  /-- `on_new_msg_with_buf_func_`, which both owners set before they start to receive. -/
  | newMsg (msg : BaseMsgWithBuffer)
  deriving DecidableEq, Repr

/-- What `OnNewData` leaves, and the callbacks it made in order. -/
structure DataResult where
  conn : GameConnection
  buffer : Buffer
  calls : List ConnCall
  deriving DecidableEq, Repr

namespace GameConnection

/-- What the turn of a message does to `role_id_`. -/
def takeRole (conn : GameConnection) (roleId : RoleId) : GameConnection :=
  if conn.roleId = 0 then { conn with roleId := roleId } else conn

/-- The registration the turn of a message makes. -/
def registration (conn : GameConnection) (roleId : RoleId) : List ConnCall :=
  if conn.roleId = 0 ∧ conn.registerFunc then [.register roleId] else []

/-- One turn of the loop of `OnNewData`. It ends the loop (`.inl`), or hands on a message and
says whether to go on (`.inr`). -/
def turn (conn : GameConnection) (buffer : Buffer) :
    Except Fault (Buffer ⊕ (DataResult × Bool)) := do
  let r ← BaseMessage.new.decodeMessageHeader buffer
  let error := !r.ok
  if r.length = 0 then
    return .inl r.buffer
  else
    let calls := conn.registration r.message.roleId
    let conn := conn.takeRole r.message.roleId
    let bodySize := (r.bodySize.getD 0).toNat
    if r.buffer.readableSize < bodySize then
      .error (.assertion "buffer.ReadableSize() >= body_size")
    else
      let data ← r.buffer.copyOut r.buffer.readIdx bodySize
      let bodyBuffer ← Buffer.tiny.appendData data
      let buffer := r.buffer.addReadIndex bodySize
      return .inr (⟨conn, buffer, calls ++ [.newMsg ⟨bodyBuffer, r.message⟩]⟩, !error)

/-- At most `bound` turns. -/
def loop : Nat → GameConnection → Buffer → Except Fault DataResult
  | 0, _, _ => .error .loopBound
  | bound + 1, conn, buffer => do
    match ← conn.turn buffer with
    | .inl buffer => return ⟨conn, buffer, []⟩
    | .inr (r, false) => return r
    | .inr (r, true) =>
      let rest ← loop bound r.conn r.buffer
      return { rest with calls := r.calls ++ rest.calls }

def onNewData (conn : GameConnection) (buffer : Buffer) : Except Fault DataResult :=
  conn.loop (buffer.readableSize + 1) buffer

/-- What a turn leaves that hands on the frame at the front of the content and drops `n` bytes. -/
def handedOn (conn : GameConnection) (buffer : Buffer) (n : Nat) : DataResult where
  conn := conn.takeRole (header buffer.readable).roleId
  buffer := buffer.addReadIndex n
  calls := conn.registration (header buffer.readable).roleId ++ [.newMsg (received buffer.readable)]

/-! ## One turn -/

/-- **A turn as a decision list over the content.** -/
theorem turn_eq {buffer : Buffer} (hv : buffer.Valid) (conn : GameConnection) {s : List Byte}
    (hs : buffer.readable = s) :
    conn.turn buffer =
      if s.length % 2 ^ 32 < 4 then .ok (.inl buffer)
      else if 4096 < (packSize s).toNat then .ok (.inl buffer)
      else if s.length < (packSize s).toNat + 4 then .ok (.inl buffer)
      else if s.length < 8 then .error (.assertion "ReadableSize() >= sizeof(T)")
      else if magic s ≠ magicNumber then .ok (.inl (buffer.addReadIndex 4))
      else if s.length < 21 then .error (.assertion "ReadableSize() >= sizeof(T)")
      else if ¬ TypeInRange s then .ok (.inl (buffer.addReadIndex 21))
      else if s.length < 21 + (bodySize s).toNat then
        .error (.assertion "buffer.ReadableSize() >= body_size")
      else .ok (.inr (conn.handedOn buffer (21 + (bodySize s).toNat), true)) := by
  have hr := Buffer.readable_addReadIndex hv
  have hva : ∀ n, (buffer.addReadIndex n).Valid := fun n => Buffer.valid_addReadIndex hv
  rw [turn, decodeMessageHeader_eq hv _ hs]
  by_cases h4 : s.length % 2 ^ 32 < 4
  · rw [if_pos h4, if_pos h4]; rfl
  rw [if_neg h4, if_neg h4]
  by_cases hmax : 4096 < (packSize s).toNat
  · rw [if_pos hmax, if_pos hmax]; rfl
  rw [if_neg hmax, if_neg hmax]
  by_cases hmore : s.length < (packSize s).toNat + 4
  · rw [if_pos hmore, if_pos hmore]; rfl
  rw [if_neg hmore, if_neg hmore]
  by_cases h8 : s.length < 8
  · rw [if_pos h8, if_pos h8]; rfl
  rw [if_neg h8, if_neg h8]
  by_cases hmagic : magic s ≠ magicNumber
  · rw [if_pos hmagic, if_pos hmagic]; rfl
  rw [if_neg hmagic, if_neg hmagic]
  by_cases h21 : s.length < 21
  · rw [if_pos h21, if_pos h21]; rfl
  rw [if_neg h21, if_neg h21]
  by_cases htype : ¬ TypeInRange s
  · rw [if_pos htype, if_pos htype]; rfl
  rw [if_neg htype, if_neg htype]
  show (if (buffer.addReadIndex 21).readableSize < (bodySize s).toNat then _ else _) = _
  have hlen : (buffer.addReadIndex 21).readableSize = s.length - 21 := by
    rw [Buffer.readableSize_readable (hva 21), hr, List.length_drop, hs]
  rw [hlen]
  by_cases hbody : s.length < 21 + (bodySize s).toNat
  · rw [if_pos (by omega), if_pos hbody]
  rw [if_neg (by omega), if_neg hbody]
  show ((buffer.addReadIndex 21).copyOut (buffer.addReadIndex 21).readIdx (bodySize s).toNat).bind _ = _
  rw [Buffer.copyOut_readable (hva 21) (by rw [hr, hs, List.length_drop]; omega), hr, hs]
  show (Buffer.tiny.appendData (body s)).bind _ = _
  rw [Buffer.tiny_appendData, handedOn, hs, ← Buffer.addReadIndex_add hv (by rw [hs]; omega)]
  rfl

/-- **What a turn can do.** It hands on an accepted frame, or misreads one that is too short, or
ends the loop with at most 21 bytes dropped. -/
theorem turn_cases {buffer : Buffer} (hv : buffer.Valid) (conn : GameConnection) {s : List Byte}
    (hs : buffer.readable = s) :
    (4 ≤ s.length % 2 ^ 32 ∧ Accepted s ∧
      conn.turn buffer = .ok (.inr (conn.handedOn buffer ((packSize s).toNat + 4), true))) ∨
    (4 ≤ s.length % 2 ^ 32 ∧ TooShort s ∧ ((∃ c, conn.turn buffer = .error (.assertion c)) ∨
      (21 + (bodySize s).toNat ≤ s.length ∧
        conn.turn buffer = .ok (.inr (conn.handedOn buffer (21 + (bodySize s).toNat), true))))) ∨
    (¬ (4 ≤ s.length % 2 ^ 32 ∧ (Accepted s ∨ TooShort s)) ∧
      ∃ n, (n = 0 ∨ n = 4 ∨ n = 21) ∧ n ≤ s.length ∧
        conn.turn buffer = .ok (.inl (buffer.addReadIndex n))) := by
  rw [turn_eq hv conn hs]
  have hzero : buffer = buffer.addReadIndex 0 := (Buffer.addReadIndex_zero buffer).symm
  by_cases h4 : s.length % 2 ^ 32 < 4
  · rw [if_pos h4]
    exact .inr (.inr ⟨fun h => by omega, 0, .inl rfl, Nat.zero_le _, by rw [← hzero]⟩)
  rw [if_neg h4]
  have h4' : 4 ≤ s.length % 2 ^ 32 := Nat.le_of_not_lt h4
  have hlen := Nat.mod_le s.length (2 ^ 32)
  by_cases hmax : 4096 < (packSize s).toNat
  · rw [if_pos hmax]
    refine .inr (.inr ⟨?_, 0, .inl rfl, Nat.zero_le _, by rw [← hzero]⟩)
    rintro ⟨-, h | h⟩
    · have := h.le_max; omega
    · have := h.short; omega
  rw [if_neg hmax]
  by_cases hmore : s.length < (packSize s).toNat + 4
  · rw [if_pos hmore]
    refine .inr (.inr ⟨?_, 0, .inl rfl, Nat.zero_le _, by rw [← hzero]⟩)
    rintro ⟨-, h | h⟩
    · have := h.whole; omega
    · have := h.whole; omega
  rw [if_neg hmore]
  have hwhole : (packSize s).toNat + 4 ≤ s.length := Nat.le_of_not_lt hmore
  by_cases h8 : s.length < 8
  · rw [if_pos h8]
    exact .inr (.inl ⟨h4', ⟨by omega, hwhole, .inl h8⟩, .inl ⟨_, rfl⟩⟩)
  rw [if_neg h8]
  by_cases hmagic : magic s ≠ magicNumber
  · rw [if_pos hmagic]
    refine .inr (.inr ⟨?_, 4, .inr (.inl rfl), by omega, rfl⟩)
    rintro ⟨-, h | h⟩
    · exact hmagic h.magic_eq
    · exact h.misread.elim h8 fun h => hmagic h.1
  rw [if_neg hmagic]
  have hmagic' : magic s = magicNumber := not_not.mp hmagic
  by_cases h21 : s.length < 21
  · rw [if_pos h21]
    exact .inr (.inl ⟨h4', ⟨by omega, hwhole, .inr ⟨hmagic', .inl h21⟩⟩, .inl ⟨_, rfl⟩⟩)
  rw [if_neg h21]
  by_cases htype : ¬ TypeInRange s
  · rw [if_pos htype]
    refine .inr (.inr ⟨?_, 21, .inr (.inr rfl), by omega, rfl⟩)
    rintro ⟨-, h | h⟩
    · exact htype h.type_ok
    · exact h.misread.elim h8 fun h => h.2.elim h21 htype
  rw [if_neg htype]
  have htype' : TypeInRange s := not_not.mp htype
  by_cases hcover : 17 ≤ (packSize s).toNat
  · have hacc : Accepted s := ⟨hcover, by omega, hwhole, hmagic', htype'⟩
    rw [hacc.bodySize_add, if_neg (by omega)]
    exact .inl ⟨h4', hacc, rfl⟩
  · have hshort : TooShort s := ⟨by omega, hwhole, .inr ⟨hmagic', .inr htype'⟩⟩
    refine .inr (.inl ⟨h4', hshort, ?_⟩)
    by_cases hbody : s.length < 21 + (bodySize s).toNat
    · rw [if_pos hbody]; exact .inl ⟨_, rfl⟩
    · rw [if_neg hbody]; exact .inr ⟨by omega, rfl⟩

/-! ## The loop -/

/-- A turn that hands on a message goes on, at least a length and a header further. -/
theorem turn_inr {buffer : Buffer} (hv : buffer.Valid) {conn : GameConnection} {r : DataResult}
    {more : Bool} (h : conn.turn buffer = .ok (.inr (r, more))) :
    more = true ∧ r.buffer.Valid ∧ r.buffer.readable.length < buffer.readable.length := by
  have drops : ∀ {n : Nat}, 0 < n → n ≤ buffer.readable.length →
      conn.turn buffer = .ok (.inr (conn.handedOn buffer n, true)) →
      more = true ∧ r.buffer.Valid ∧ r.buffer.readable.length < buffer.readable.length := by
    intro n hn hlen h'
    rw [h] at h'
    cases h'
    refine ⟨rfl, Buffer.valid_addReadIndex hv, ?_⟩
    rw [handedOn, Buffer.readable_addReadIndex hv, List.length_drop]
    omega
  rcases turn_cases hv conn rfl with ⟨-, hacc, h'⟩ | ⟨-, -, ⟨c, h'⟩ | ⟨hlen, h'⟩⟩ | ⟨-, n, -, -, h'⟩
  · exact drops (by omega) hacc.whole h'
  · rw [h] at h'; cases h'
  · exact drops (by omega) hlen h'
  · rw [h] at h'; cases h'

/-- The bound does not matter once it exceeds the content. -/
theorem loop_bound {m n : Nat} {conn : GameConnection} {buffer : Buffer} (hv : buffer.Valid)
    (hm : buffer.readable.length < m) (hn : buffer.readable.length < n) :
    conn.loop m buffer = conn.loop n buffer := by
  induction m generalizing n conn buffer with
  | zero => omega
  | succ m ih =>
    cases n with
    | zero => omega
    | succ n =>
      unfold loop
      cases hturn : conn.turn buffer with
      | error e => rfl
      | ok t =>
        match t with
        | .inl _ => rfl
        | .inr (r, more) =>
          obtain ⟨rfl, hv', hlt⟩ := turn_inr hv hturn
          simp only [bind, Except.bind]
          rw [ih (n := n) hv' (by omega) (by omega)]

/-- **The loop as a fixpoint of its turn.** -/
theorem onNewData_eq {buffer : Buffer} (hv : buffer.Valid) (conn : GameConnection) :
    conn.onNewData buffer = (conn.turn buffer).bind fun
      | .inl buffer => .ok ⟨conn, buffer, []⟩
      | .inr (r, _) => (r.conn.onNewData r.buffer).map fun rest =>
        { rest with calls := r.calls ++ rest.calls } := by
  conv_lhs => rw [onNewData, loop]
  cases hturn : conn.turn buffer with
  | error e => rfl
  | ok t =>
    match t with
    | .inl _ => rfl
    | .inr (r, more) =>
      obtain ⟨rfl, hv', hlt⟩ := turn_inr hv hturn
      simp only [bind, Except.bind]
      rw [onNewData, Buffer.readableSize_readable hv, Buffer.readableSize_readable hv',
        loop_bound hv' (n := r.buffer.readable.length + 1) (by omega) (by omega)]
      cases loop (r.buffer.readable.length + 1) r.conn r.buffer <;> rfl

theorem onNewData_stop {buffer buffer' : Buffer} {conn : GameConnection} (hv : buffer.Valid)
    (h : conn.turn buffer = .ok (.inl buffer')) : conn.onNewData buffer = .ok ⟨conn, buffer', []⟩ := by
  rw [onNewData_eq hv, h]
  rfl

theorem onNewData_fault {buffer : Buffer} {conn : GameConnection} {e : Fault} (hv : buffer.Valid)
    (h : conn.turn buffer = .error e) : conn.onNewData buffer = .error e := by
  rw [onNewData_eq hv, h]
  rfl

theorem onNewData_handedOn {buffer : Buffer} {conn : GameConnection} {n : Nat} (hv : buffer.Valid)
    (h : conn.turn buffer = .ok (.inr (conn.handedOn buffer n, true))) :
    conn.onNewData buffer = ((conn.handedOn buffer n).conn.onNewData (buffer.addReadIndex n)).map
      fun rest => { rest with calls := (conn.handedOn buffer n).calls ++ rest.calls } := by
  rw [onNewData_eq hv, h]
  rfl

/-- **`OnNewData` ends**: the bound of the loop is never reached. -/
theorem onNewData_ends {buffer : Buffer} (hv : buffer.Valid) (conn : GameConnection) :
    conn.onNewData buffer ≠ .error .loopBound := by
  induction hl : buffer.readable.length using Nat.strongRecOn generalizing buffer conn with
  | ind l ih =>
  rw [onNewData_eq hv]
  cases hturn : conn.turn buffer with
  | error e =>
    rintro ⟨⟩
    rcases turn_cases hv conn rfl with ⟨-, -, h⟩ | ⟨-, -, ⟨c, h⟩ | ⟨-, h⟩⟩ | ⟨-, n, -, -, h⟩ <;>
      · rw [hturn] at h; cases h
  | ok t =>
    match t with
    | .inl _ => rintro ⟨⟩
    | .inr (r, more) =>
      obtain ⟨-, hv', hlt⟩ := turn_inr hv hturn
      have := ih _ (hl ▸ hlt) hv' r.conn rfl
      simp only [Except.bind]
      cases hrest : r.conn.onNewData r.buffer with
      | error e => rintro ⟨⟩; exact this hrest
      | ok rest => rintro ⟨⟩

end GameConnection

end GameNetwork
