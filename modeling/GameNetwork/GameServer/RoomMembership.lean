import GameNetwork.GameServer.GameServerExample
import GameNetwork.GameServer.RoleRouting
import GameNetwork.Network.MsgDispatcher

/-!
# Who is in the room

The tables of the server, the receive dispatcher and the room together. An
ENTER_ROOM is queued when it is received and handled later by a worker; a
close is handled at once. `MembersExact`: nobody is in the room twice, and
everyone in it has an open connection or an ENTER_ROOM that is still queued.
`membership_iff` says which events keep this and have no close take a role out
that has another open connection.
-/

namespace GameNetwork

open Lib

structure RoomServer where
  server : GameServer
  recvMsgDispatcher : MsgDispatcher
  room : GameServerExample

inductive MemberEvent where
  | connect (endpoint : String)
  /-- An ENTER_ROOM is received on a connection. -/
  | receive (c : ConnId) (msg : EnterRoomMessage)
  | close (c : ConnId) (ec : ErrorCode)
  /-- Worker `k` of the receive dispatcher handles the next message of its queue. -/
  | handle (k : Nat) (now : BitVec 64)
  deriving DecidableEq, Repr

namespace RoomServer

/-- The server once it has started; the receive dispatcher has ten workers. -/
def new (serverName : String) : RoomServer :=
  ⟨.new serverName, (MsgDispatcher.new 10 false).start.1, .new⟩

/-- What worker `k` handles next. -/
def next (s : RoomServer) (k : Nat) : Option MsgForDispatch :=
  s.recvMsgDispatcher.msgThreads[k]?.bind (·.msgQueue.head?)

/-- The dispatcher once worker `k` has taken it. -/
def popped (s : RoomServer) (k : Nat) : MsgDispatcher :=
  { s.recvMsgDispatcher with
    msgThreads := s.recvMsgDispatcher.msgThreads.modify k fun t => { t with msgQueue := t.msgQueue.tail } }

def step (s : RoomServer) : MemberEvent → Except Fault RoomServer
  | .connect endpoint => do
    let server ← s.server.step (.accept endpoint)
    return { s with server := server }
  | .receive c msg =>
    match s.server.armedConn c with
    | none => return s
    | some _ => do
      let server ← s.server.step (.message c msg.roleId)
      let recvMsgDispatcher ← s.recvMsgDispatcher.push msg.roleId (some (.enterRoom msg))
      return { s with server := server, recvMsgDispatcher := recvMsgDispatcher }
  | .close c ec => do
    let server ← s.server.step (.readError c ec)
    -- `OnRoleDisconnect` is called for the role id that the tables report
    let left := server.roleDisconnects.drop s.server.roleDisconnects.length
    return { s with server := server, room := left.foldl (·.onRoleDisconnect ·) s.room }
  | .handle k now =>
    match s.next k with
    | some ⟨dispatchId, .enterRoom msg⟩ =>
      return { s with recvMsgDispatcher := s.popped k, room := s.room.enterRoom dispatchId msg now }
    | _ => return s

/-- The role ids of the queued messages. -/
def queue (d : MsgDispatcher) : List RoleId := d.msgThreads.flatMap (·.msgQueue.map (·.dispatchId))

/-- **The room follows the connections.** -/
structure MembersExact (s : RoomServer) : Prop where
  once : s.room.roleIds.Nodup
  /-- Everyone in the room has an open connection, or an ENTER_ROOM still queued. -/
  present : ∀ r ∈ s.room.roleIds, (∃ c, s.server.holdsRole r c = true) ∨ r ∈ queue s.recvMsgDispatcher

/-- **A close takes no role out of the room that has another open connection.** -/
def KeepsOthers (s : RoomServer) (e : MemberEvent) : Prop :=
  ∀ c ec t, e = .close c ec → step s e = .ok t → ∀ r ∈ s.room.roleIds,
    (∃ c', c' ≠ c ∧ s.server.holdsRole r c' = true) → r ∈ t.room.roleIds

/-- `OnConnectionClose` comes to the call of `OnRoleDisconnect`. -/
def Reported (s : GameServer) (conn : ServerConn) : Prop :=
  conn.game.roleId ∈ s.roleIdConnMap ∧ s.connectionName conn.endpoint ∈ s.gameConnectionMap

instance (s : GameServer) (conn : ServerConn) : Decidable (Reported s conn) :=
  inferInstanceAs (Decidable (_ ∧ _))

/-- Another connection with the role id is open. -/
def OtherOpen (s : GameServer) (roleId : RoleId) (c : ConnId) : Prop :=
  ∃ c', c' ≠ c ∧ s.holdsRole roleId c' = true

/-- The condition on an event and the state it finds. -/
def Follows (s : RoomServer) : MemberEvent → Prop
  | .connect _ => True
  -- a connection that leaves role id 0 for another, while role 0 is in the room
  | .receive c msg => ∀ conn, s.server.armedConn c = some conn → s.server.owned c = true →
      conn.game.roleId = 0 → msg.roleId ≠ 0 → 0 ∈ s.room.roleIds →
        OtherOpen s.server 0 c ∨ 0 ∈ queue s.recvMsgDispatcher
  | .close c ec => ∀ conn, s.server.armedConn c = some conn → (ec.Closes → s.server.owned c = true) →
      conn.game.roleId ∈ s.room.roleIds →
        if ec.Closes ∧ Reported s.server conn then ¬ OtherOpen s.server conn.game.roleId c
        else OtherOpen s.server conn.game.roleId c ∨ conn.game.roleId ∈ queue s.recvMsgDispatcher
  | .handle k _ => ∀ dispatchId msg, s.next k = some ⟨dispatchId, .enterRoom msg⟩ →
      dispatchId ∉ s.room.roleIds ∧
        ((∃ c, s.server.holdsRole dispatchId c = true) ∨ dispatchId ∈ queue (s.popped k))

/-- What every event keeps. -/
structure ServerInv (s : RoomServer) : Prop where
  routing : GameServer.RoutingInv s.server
  serving : s.recvMsgDispatcher.Serving
  started : s.recvMsgDispatcher.started = true

/-! ## The tables -/

section Tables

variable {s : GameServer} {c : ConnId} {conn : ServerConn}

theorem roleDisconnects_of_reported (h : Reported s conn) :
    (s.onConnectionClose conn).roleDisconnects = s.roleDisconnects ++ [conn.game.roleId] := by
  rw [GameServer.onConnectionClose_of_mem h.1 h.2]

theorem roleDisconnects_of_not_reported (h : ¬ Reported s conn) :
    (s.onConnectionClose conn).roleDisconnects = s.roleDisconnects := by
  simp only [GameServer.onConnectionClose]
  split
  · next hrole =>
    have hname : ¬ GameServer.connectionName
        { s with roleIdConnMap := s.roleIdConnMap.erase conn.game.roleId } conn.endpoint ∈
          s.gameConnectionMap := fun hname => h ⟨hrole, hname⟩
    rw [if_neg hname]
  · rfl

end Tables

/-! ## The queue -/

section Queue

variable {d : MsgDispatcher} {k : Nat} {r : RoleId}

/-- The elements of a list with one of them changed. -/
theorem mem_flatMap_modify {α β : Type} {xs : List α} {k : Nat} {x : α} (h : xs[k]? = some x) (f : α → α)
    (g : α → List β) (y : β) :
    y ∈ (xs.modify k f).flatMap g ↔
      y ∈ (xs.take k).flatMap g ∨ y ∈ g (f x) ∨ y ∈ (xs.drop (k + 1)).flatMap g := by
  obtain ⟨hlt, rfl⟩ := List.getElem?_eq_some_iff.mp h
  rw [List.modify_eq_take_cons_drop hlt, List.flatMap_append, List.flatMap_cons, List.mem_append,
    List.mem_append]

theorem mem_queue_modify {t : MsgThread} (h : d.msgThreads[k]? = some t) (f : MsgThread → MsgThread) :
    r ∈ queue { d with msgThreads := d.msgThreads.modify k f } ↔
      r ∈ (d.msgThreads.take k).flatMap (·.msgQueue.map (·.dispatchId)) ∨
      r ∈ (f t).msgQueue.map (·.dispatchId) ∨
      r ∈ (d.msgThreads.drop (k + 1)).flatMap (·.msgQueue.map (·.dispatchId)) :=
  mem_flatMap_modify h f _ r

theorem mem_queue_split {t : MsgThread} (h : d.msgThreads[k]? = some t) :
    r ∈ queue d ↔
      r ∈ (d.msgThreads.take k).flatMap (·.msgQueue.map (·.dispatchId)) ∨
      r ∈ t.msgQueue.map (·.dispatchId) ∨
      r ∈ (d.msgThreads.drop (k + 1)).flatMap (·.msgQueue.map (·.dispatchId)) := by
  have hid := mem_queue_modify (r := r) h id
  rw [List.modify_id] at hid
  exact hid

/-- A message that is pushed is queued. -/
theorem mem_queue_pushed (hd : d.Serving) (hs : d.started = true) (msg : MsgForDispatch) :
    r ∈ queue (d.pushed msg) ↔ r ∈ queue d ∨ r = msg.dispatchId := by
  have hlt := Nat.lt_of_lt_of_le (MsgDispatcher.threadIndex_lt (hd.pos hs) msg.dispatchId) (hd.threads hs)
  have hget := List.getElem?_eq_getElem hlt
  rw [MsgDispatcher.pushed, mem_queue_modify hget, mem_queue_split hget, MsgThread.push, List.map_append,
    List.mem_append]
  simp only [List.map_cons, List.map_nil, List.mem_singleton]
  tauto

end Queue

theorem mem_queue_popped {s : RoomServer} {k : Nat} {msg : MsgForDispatch} (h : s.next k = some msg)
    (r : RoleId) :
    r ∈ queue s.recvMsgDispatcher ↔ r = msg.dispatchId ∨ r ∈ queue (s.popped k) := by
  obtain ⟨t, ht, hhead⟩ := Option.bind_eq_some_iff.mp h
  obtain ⟨tail, htail⟩ : ∃ tail, t.msgQueue = msg :: tail := List.head?_eq_some_iff.mp hhead
  rw [mem_queue_split ht, popped, mem_queue_modify ht, htail]
  simp only [List.map_cons, List.mem_cons, List.tail_cons]
  tauto

/-! ## One event -/

section Step

variable {s t : RoomServer} {c : ConnId} {conn : ServerConn}

/-- What an ENTER_ROOM does that is received on a connection without a role id. -/
theorem receive_of_zero (h : s.ServerInv) (hc : s.server.armedConn c = some conn)
    (howned : s.server.owned c = true) (hzero : conn.game.roleId = 0) (msg : EnterRoomMessage) :
    step s (.receive c msg) = .ok { s with
      server := s.server.registered c conn msg.roleId
      recvMsgDispatcher := s.recvMsgDispatcher.pushed ⟨msg.roleId, .enterRoom msg⟩ } := by
  have hcallback := h.routing.callback conn (List.mem_of_getElem? (GameServer.armedConn_eq_some.mp hc).1)
  have hserver : s.server.step (.message c msg.roleId) = .ok (s.server.registered c conn msg.roleId) := by
    rw [GameServer.step, hc, ← GameServer.onMessage_of_zero hzero hcallback]
    exact if_pos howned
  rw [step, hc, hserver]
  show (s.recvMsgDispatcher.push msg.roleId (some (.enterRoom msg)) >>= _) = _
  rw [MsgDispatcher.push_of_started h.serving h.started]
  rfl

/-- And on one that has a role id. -/
theorem receive_of_ne (h : s.ServerInv) (hc : s.server.armedConn c = some conn)
    (howned : s.server.owned c = true) (hne : conn.game.roleId ≠ 0) (msg : EnterRoomMessage) :
    step s (.receive c msg) = .ok { s with
      recvMsgDispatcher := s.recvMsgDispatcher.pushed ⟨msg.roleId, .enterRoom msg⟩ } := by
  have hserver : s.server.step (.message c msg.roleId) = .ok s.server := by
    have hsame : s.server.onMessage c conn msg.roleId = s.server :=
      GameServer.onMessage_of_ne (GameServer.armedConn_eq_some.mp hc).1 hne
    rw [GameServer.step, hc]
    dsimp only
    rw [if_pos howned, hsame]
    rfl
  rw [step, hc, hserver]
  show (s.recvMsgDispatcher.push msg.roleId (some (.enterRoom msg)) >>= _) = _
  rw [MsgDispatcher.push_of_started h.serving h.started]
  rfl

theorem receive_of_not_owned (hc : s.server.armedConn c = some conn) (howned : ¬ s.server.owned c = true)
    (msg : EnterRoomMessage) : step s (.receive c msg) = .error .danglingObject := by
  have hserver : s.server.step (.message c msg.roleId) = .error .danglingObject := by
    rw [GameServer.step, hc]
    exact if_neg howned
  rw [step, hc, hserver]
  rfl

theorem drop_of_append {old left all : List RoleId} (h : all = old ++ left) : all.drop old.length = left := by
  rw [h, List.drop_left]

/-- **What a close does**: the connection is open no longer, and its role id leaves the room when the
tables report it. -/
theorem close_eq {ec : ErrorCode} (hc : s.server.armedConn c = some conn)
    (ht : step s (.close c ec) = .ok t) :
    (ec.Closes → s.server.owned c = true) ∧ t.recvMsgDispatcher = s.recvMsgDispatcher ∧
    (∀ r x, t.server.holdsRole r x = (s.server.holdsRole r x && decide (x ≠ c))) ∧
    t.room.roleIds = if ec.Closes ∧ Reported s.server conn then s.room.roleIds.erase conn.game.roleId
      else s.room.roleIds := by
  obtain ⟨server, hserver, ht⟩ := bind_eq_ok.mp ht
  cases ht
  rw [GameServer.step, hc] at hserver
  dsimp only at hserver
  by_cases hec : ec.Closes
  · rw [if_pos hec] at hserver
    split at hserver
    swap
    · cases hserver
    next howned =>
    cases hserver
    refine ⟨fun _ => howned, rfl, GameServer.holdsRole_disarmed hc (by
      rw [GameServer.onConnectionClose_conns]; rfl), ?_⟩
    by_cases hr : Reported s.server conn
    · have hleft := drop_of_append (roleDisconnects_of_reported (s := s.server.disarm c conn) hr)
      rw [if_pos ⟨hec, hr⟩]
      exact congrArg (fun left => (left.foldl (·.onRoleDisconnect ·) s.room).roleIds) hleft
    · have hsame := roleDisconnects_of_not_reported (s := s.server.disarm c conn) hr
      have hleft := drop_of_append (hsame.trans (List.append_nil _).symm)
      rw [if_neg fun h => hr h.2]
      exact congrArg (fun left => (left.foldl (·.onRoleDisconnect ·) s.room).roleIds) hleft
  · rw [if_neg hec] at hserver
    cases hserver
    have hleft : s.server.roleDisconnects.drop s.server.roleDisconnects.length = [] := List.drop_length
    refine ⟨fun h => absurd h hec, rfl, GameServer.holdsRole_disarmed hc rfl, ?_⟩
    rw [if_neg fun h => hec h.1]
    exact congrArg (fun left => (left.foldl (·.onRoleDisconnect ·) s.room).roleIds) hleft

theorem serverInv_step {e : MemberEvent} (h : s.ServerInv) (ht : step s e = .ok t) : t.ServerInv := by
  cases e with
  | connect endpoint =>
    cases ht
    exact ⟨GameServer.routingInv_step (e := .accept endpoint) h.routing rfl, h.serving, h.started⟩
  | receive c msg =>
    cases hc : s.server.armedConn c with
    | none =>
      rw [step, hc] at ht
      cases ht
      exact h
    | some conn =>
      rw [step, hc] at ht
      obtain ⟨server, hserver, ht⟩ := bind_eq_ok.mp ht
      obtain ⟨d, hd, ht⟩ := bind_eq_ok.mp ht
      cases ht
      rw [MsgDispatcher.push_of_started h.serving h.started] at hd
      cases hd
      exact ⟨GameServer.routingInv_step h.routing hserver, MsgDispatcher.serving_pushed h.serving _, h.started⟩
  | close c ec =>
    obtain ⟨server, hserver, ht⟩ := bind_eq_ok.mp ht
    cases ht
    exact ⟨GameServer.routingInv_step h.routing hserver, h.serving, h.started⟩
  | handle k now =>
    rw [step] at ht
    split at ht
    · cases ht
      refine ⟨h.routing, ⟨h.serving.pos, fun hs => ?_⟩, h.started⟩
      have hthreads := h.serving.threads hs
      rwa [popped, List.length_modify]
    · cases ht
      exact h

theorem keepsOthers_of_ne {e : MemberEvent} (h : ∀ c ec, e ≠ .close c ec) : s.KeepsOthers e :=
  fun c ec _ he => absurd he (h c ec)

/-- An accept only adds an open connection. -/
theorem membersExact_connect (hs : s.MembersExact) (endpoint : String) :
    MembersExact { s with server := s.server.onNewClient endpoint } :=
  ⟨hs.once, fun r hr => (hs.present r hr).imp_left fun ⟨c, hc⟩ => ⟨c, GameServer.holdsRole_onNewClient hc endpoint⟩⟩

/-- An ENTER_ROOM on a connection without a role id takes an open connection from role 0. -/
theorem membersExact_receive (h : s.ServerInv) (hs : s.MembersExact) (hc : s.server.armedConn c = some conn)
    (hzero : conn.game.roleId = 0) (msg : EnterRoomMessage) :
    MembersExact { s with
      server := s.server.registered c conn msg.roleId
      recvMsgDispatcher := s.recvMsgDispatcher.pushed ⟨msg.roleId, .enterRoom msg⟩ } ↔
    (msg.roleId ≠ 0 → 0 ∈ s.room.roleIds →
      OtherOpen s.server 0 c ∨ 0 ∈ queue s.recvMsgDispatcher) := by
  have hholds := GameServer.holdsRole_registered hc msg.roleId
  have hqueue : ∀ r, r ∈ queue (s.recvMsgDispatcher.pushed ⟨msg.roleId, .enterRoom msg⟩) ↔
      r ∈ queue s.recvMsgDispatcher ∨ r = msg.roleId := fun r => mem_queue_pushed h.serving h.started _
  have hself : s.server.holdsRole 0 c = true := by
    rw [GameServer.holdsRole_of_armed hc, hzero]
    rfl
  constructor
  · intro hexact hne hmem
    rcases hexact.present 0 hmem with ⟨x, hx⟩ | hq
    · rw [hholds] at hx
      split at hx
      · exact absurd (of_decide_eq_true hx) hne
      · next hxc => exact .inl ⟨x, hxc, hx⟩
    · exact .inr (((hqueue 0).mp hq).resolve_right (Ne.symm hne))
  · intro hcond
    refine ⟨hs.once, fun r hr => ?_⟩
    by_cases hr0 : r = msg.roleId
    · exact .inr ((hqueue r).mpr (.inr hr0))
    rcases hs.present r hr with ⟨x, hx⟩ | hq
    · by_cases hxc : x = c
      · -- the connection itself was the open one, so the role is 0
        subst hxc
        rw [GameServer.holdsRole_of_armed hc, hzero] at hx
        have hr' : r = 0 := (of_decide_eq_true hx).symm
        subst hr'
        rcases hcond (Ne.symm hr0) hr with ⟨y, hy, hopen⟩ | hq
        · exact .inl ⟨y, by rw [hholds, if_neg hy]; exact hopen⟩
        · exact .inr ((hqueue 0).mpr (.inl hq))
      · exact .inl ⟨x, by rw [hholds, if_neg hxc]; exact hx⟩
    · exact .inr ((hqueue r).mpr (.inl hq))

/-- A connection that closes, when its role id stays in the room. -/
theorem present_after_close (hs : s.MembersExact) (hc : s.server.armedConn c = some conn)
    (hrecv : t.recvMsgDispatcher = s.recvMsgDispatcher)
    (hholds : ∀ r x, t.server.holdsRole r x = (s.server.holdsRole r x && decide (x ≠ c))) {r : RoleId}
    (hr : r ∈ s.room.roleIds) :
    ((∃ x, t.server.holdsRole r x = true) ∨ r ∈ queue t.recvMsgDispatcher) ↔
      (r = conn.game.roleId → OtherOpen s.server r c ∨ r ∈ queue s.recvMsgDispatcher) := by
  rw [hrecv]
  have hopen : (∃ x, t.server.holdsRole r x = true) ↔ OtherOpen s.server r c := by
    simp only [hholds, Bool.and_eq_true, decide_eq_true_eq]
    exact exists_congr fun x => and_comm
  rw [hopen]
  constructor
  · exact fun h _ => h
  · intro h
    by_cases heq : r = conn.game.roleId
    · exact h heq
    · rcases hs.present r hr with ⟨x, hx⟩ | hq
      · refine .inl ⟨x, fun hxc => heq ?_, hx⟩
        subst hxc
        rw [GameServer.holdsRole_of_armed hc] at hx
        exact (of_decide_eq_true hx).symm
      · exact .inr hq

/-- A close is good exactly when it takes its role id out and no other connection has it, or when it
leaves it and somebody is there or coming. -/
theorem membersExact_close {ec : ErrorCode} (hs : s.MembersExact)
    (hc : s.server.armedConn c = some conn) (ht : step s (.close c ec) = .ok t) :
    (t.MembersExact ∧ ∀ r ∈ s.room.roleIds, OtherOpen s.server r c → r ∈ t.room.roleIds) ↔
      (conn.game.roleId ∈ s.room.roleIds →
        if ec.Closes ∧ Reported s.server conn then ¬ OtherOpen s.server conn.game.roleId c
        else OtherOpen s.server conn.game.roleId c ∨ conn.game.roleId ∈ queue s.recvMsgDispatcher) := by
  obtain ⟨-, hrecv, hholds, hroles⟩ := close_eq hc ht
  have hpresent := fun r hr => present_after_close hs hc hrecv hholds (r := r) hr
  by_cases hreported : ec.Closes ∧ Reported s.server conn
  · rw [if_pos hreported] at hroles
    simp only [if_pos hreported]
    constructor
    · rintro ⟨-, hkeeps⟩ hmem hother
      have hstill := hkeeps _ hmem hother
      rw [hroles] at hstill
      exact (hs.once.mem_erase_iff.mp hstill).1 rfl
    · intro hcond
      refine ⟨⟨?_, fun r hr => ?_⟩, fun r hr hother => ?_⟩
      · rw [hroles]
        exact hs.once.erase _
      · rw [hroles] at hr
        obtain ⟨hne, hr⟩ := hs.once.mem_erase_iff.mp hr
        exact (hpresent r hr).mpr fun heq => absurd heq hne
      · rw [hroles]
        refine hs.once.mem_erase_iff.mpr ⟨fun heq => ?_, hr⟩
        subst heq
        exact hcond hr hother
  · rw [if_neg hreported] at hroles
    simp only [if_neg hreported]
    constructor
    · rintro ⟨hexact, -⟩ hmem
      exact (hpresent _ hmem).mp (hexact.present _ (hroles ▸ hmem)) rfl
    · intro hcond
      refine ⟨⟨hroles ▸ hs.once, fun r hr => ?_⟩, fun r hr _ => hroles ▸ hr⟩
      rw [hroles] at hr
      refine (hpresent r hr).mpr fun heq => ?_
      subst heq
      exact hcond hr

/-- An entry that is handled. -/
theorem membersExact_handle (hs : s.MembersExact) {k : Nat} {dispatchId : RoleId} {msg : EnterRoomMessage}
    (hnext : s.next k = some ⟨dispatchId, .enterRoom msg⟩) (now : BitVec 64) :
    MembersExact { s with recvMsgDispatcher := s.popped k, room := s.room.enterRoom dispatchId msg now } ↔
      dispatchId ∉ s.room.roleIds ∧
        ((∃ c, s.server.holdsRole dispatchId c = true) ∨ dispatchId ∈ queue (s.popped k)) := by
  have hqueue := mem_queue_popped hnext
  have hroles : (s.room.enterRoom dispatchId msg now).roleIds = s.room.roleIds ++ [dispatchId] := by
    rw [GameServerExample.enterRoom_eq]
  constructor
  · intro hexact
    have honce := hexact.once
    rw [hroles] at honce
    refine ⟨fun hmem => (List.nodup_append.mp honce).2.2 _ hmem _ (List.mem_singleton_self _) rfl, ?_⟩
    exact hexact.present dispatchId (hroles ▸ List.mem_append_right _ (List.mem_singleton_self _))
  · rintro ⟨hnot, hpresent⟩
    refine ⟨?_, fun r hr => ?_⟩
    · rw [hroles, List.nodup_append]
      refine ⟨hs.once, List.nodup_singleton _, fun a ha b hb => ?_⟩
      rw [List.mem_singleton.mp hb]
      exact fun heq => hnot (heq ▸ ha)
    · rw [hroles] at hr
      by_cases heq : r = dispatchId
      · subst heq
        exact hpresent
      · have hr' : r ∈ s.room.roleIds := by
          rcases List.mem_append.mp hr with hr | hr
          · exact hr
          · exact absurd (List.mem_singleton.mp hr) heq
        rcases hs.present r hr' with hopen | hq
        · exact .inl hopen
        · exact .inr (((hqueue r).mp hq).resolve_left heq)

theorem close_ok {ec : ErrorCode} (hc : s.server.armedConn c = some conn)
    (howned : ec.Closes → s.server.owned c = true) : ∃ t, step s (.close c ec) = .ok t := by
  have hserver : ∃ server, s.server.step (.readError c ec) = .ok server := by
    rw [GameServer.step, hc]
    dsimp only
    by_cases hec : ec.Closes
    · rw [if_pos hec, if_pos (howned hec)]
      exact ⟨_, rfl⟩
    · rw [if_neg hec]
      exact ⟨_, rfl⟩
  obtain ⟨server, hserver⟩ := hserver
  exact ⟨_, bind_eq_ok.mpr ⟨server, hserver, rfl⟩⟩

theorem keepsOthers_iff {ec : ErrorCode} (ht : step s (.close c ec) = .ok t) :
    s.KeepsOthers (.close c ec) ↔ ∀ r ∈ s.room.roleIds, OtherOpen s.server r c → r ∈ t.room.roleIds := by
  constructor
  · exact fun h => h c ec t rfl ht
  · intro h c' ec' t' he ht'
    cases he
    rw [ht] at ht'
    cases ht'
    exact h

/-- A closing error on a connection that no table refers to any more. -/
theorem close_fault {ec : ErrorCode} (hc : s.server.armedConn c = some conn) (hec : ec.Closes)
    (howned : ¬ s.server.owned c = true) : step s (.close c ec) = .error .danglingObject := by
  have hserver : s.server.step (.readError c ec) = .error .danglingObject := by
    rw [GameServer.step, hc]
    dsimp only
    rw [if_pos hec]
    exact if_neg howned
  rw [step, hserver]
  rfl

/-- An event is good: it leads to an exact state, and takes no other connection's role out. -/
def Good (s : RoomServer) (e : MemberEvent) : Prop :=
  (∀ t, step s e = .ok t → t.MembersExact) ∧ s.KeepsOthers e

theorem good_receive_iff (h : s.ServerInv) (hs : s.MembersExact) {msg : EnterRoomMessage} :
    s.Good (.receive c msg) ↔ s.Follows (.receive c msg) := by
  rw [Good, and_iff_left (keepsOthers_of_ne fun _ _ he => (by cases he)), Follows]
  cases hc : s.server.armedConn c with
  | none =>
    have hstep : step s (.receive c msg) = .ok s := by rw [step, hc]; rfl
    rw [forall_step_iff hstep]
    exact iff_of_true hs fun conn hconn => (by cases hconn)
  | some conn =>
    by_cases howned : s.server.owned c = true
    swap
    · rw [receive_of_not_owned hc howned]
      exact iff_of_true (fun t ht => (by cases ht)) fun _ _ ho => absurd ho howned
    by_cases hzero : conn.game.roleId = 0
    · rw [forall_step_iff (receive_of_zero h hc howned hzero msg),
        membersExact_receive h hs hc hzero]
      refine ⟨?_, fun hcond => hcond conn rfl howned hzero⟩
      rintro hcond conn' ⟨⟩ - -
      exact hcond
    · rw [forall_step_iff (receive_of_ne h hc howned hzero msg)]
      refine iff_of_true ⟨hs.once, fun r hr => (hs.present r hr).imp_right fun hq => ?_⟩ ?_
      · exact (mem_queue_pushed h.serving h.started _).mpr (.inl hq)
      · rintro conn' ⟨⟩ - hz
        exact absurd hz hzero

theorem good_close_iff (hs : s.MembersExact) {ec : ErrorCode} :
    s.Good (.close c ec) ↔ s.Follows (.close c ec) := by
  rw [Good, Follows]
  cases hc : s.server.armedConn c with
  | none =>
    have hstep : step s (.close c ec) = .ok s := by
      rw [step, GameServer.step, hc]
      show Except.ok _ = _
      simp
    rw [forall_step_iff hstep, keepsOthers_iff hstep]
    exact iff_of_true ⟨hs, fun r hr _ => hr⟩ fun conn hconn => (by cases hconn)
  | some conn =>
    by_cases howned : ec.Closes → s.server.owned c = true
    · obtain ⟨t, ht⟩ := close_ok hc howned
      rw [forall_step_iff ht, keepsOthers_iff ht, membersExact_close hs hc ht]
      refine ⟨?_, fun hcond => hcond conn rfl howned⟩
      rintro hcond conn' ⟨⟩ -
      exact hcond
    · obtain ⟨hec, hnot⟩ := Classical.not_imp.mp howned
      have hfault := close_fault hc hec hnot
      refine iff_of_true ⟨fun t ht => ?_, fun c' ec' t he ht => ?_⟩ fun _ _ ho => absurd ho howned
      · rw [hfault] at ht
        cases ht
      · cases he
        rw [hfault] at ht
        cases ht

theorem good_handle_iff (hs : s.MembersExact) {k : Nat} {now : BitVec 64} :
    s.Good (.handle k now) ↔ s.Follows (.handle k now) := by
  rw [Good, and_iff_left (keepsOthers_of_ne fun _ _ he => (by cases he)), Follows]
  by_cases hnext : ∃ dispatchId msg, s.next k = some ⟨dispatchId, .enterRoom msg⟩
  · obtain ⟨dispatchId, msg, hnext⟩ := hnext
    have hstep : step s (.handle k now) = .ok { s with
        recvMsgDispatcher := s.popped k, room := s.room.enterRoom dispatchId msg now } := by
      rw [step, hnext]
      rfl
    rw [forall_step_iff hstep, membersExact_handle hs hnext]
    refine ⟨fun hcond dispatchId' msg' hnext' => ?_, fun hcond => hcond dispatchId msg hnext⟩
    rw [hnext] at hnext'
    cases hnext'
    exact hcond
  · have hstep : step s (.handle k now) = .ok s := by
      rw [step]
      split
      · next dispatchId msg h => exact absurd ⟨dispatchId, msg, h⟩ hnext
      · rfl
    rw [forall_step_iff hstep]
    exact iff_of_true hs fun dispatchId msg h => absurd ⟨dispatchId, msg, h⟩ hnext

/-- **When an event is good.** -/
theorem members_step {e : MemberEvent} (h : s.ServerInv) (hs : s.MembersExact) :
    s.Good e ↔ s.Follows e := by
  cases e with
  | connect endpoint =>
    rw [Good, forall_step_iff (t := { s with server := s.server.onNewClient endpoint }) rfl,
      and_iff_left (keepsOthers_of_ne fun _ _ he => (by cases he))]
    exact iff_of_true (membersExact_connect hs endpoint) trivial
  | receive c msg => exact good_receive_iff h hs
  | close c ec => exact good_close_iff hs
  | handle k now => exact good_handle_iff hs

end Step

theorem serverInv_new (serverName : String) : ServerInv (new serverName) :=
  ⟨GameServer.routingInv_new serverName,
    MsgDispatcher.serving_start (MsgDispatcher.serving_new _ _) (by decide), rfl⟩

/-- **The room follows the connections throughout a run, and no close takes another connection's
role out of it, if and only if every event meets the condition.** -/
theorem membership_iff (serverName : String) (events : List MemberEvent) :
    Always step MembersExact (new serverName) events ∧ EachStep step KeepsOthers (new serverName) events ↔
      EachStep step Follows (new serverName) events :=
  always_and_eachStep_iff (I := ServerInv) (G := fun _ _ => True)
    (fun _ _ _ h _ _ _ ht => serverInv_step h ht) (fun _ _ h hs _ => members_step h hs)
    (serverInv_new serverName) ⟨List.nodup_nil, fun _ h => (by cases h)⟩ (fun _ _ _ _ _ => trivial)

/-- An ENTER_ROOM of a role. -/
def enterOf (roleId : RoleId) : EnterRoomMessage :=
  { EnterRoomMessage.new with roleId := roleId }

/-- A client enters twice. -/
def entersTwice : List MemberEvent :=
  [.connect "a", .receive 0 (enterOf 5), .receive 0 (enterOf 5), .handle 5 0, .handle 5 0]

/-- A client leaves before its entry is handled. -/
def leavesEarly : List MemberEvent :=
  [.connect "a", .receive 0 (enterOf 5), .close 0 .eof, .handle 5 0]

/-- A client comes back before its old connection is seen to close. -/
def comesBack : List MemberEvent :=
  [.connect "a", .receive 0 (enterOf 5), .handle 5 0, .connect "b", .receive 1 (enterOf 5), .close 0 .eof]

theorem membership_fails :
    (∃ t, run step (new "s") entersTwice = .ok t ∧ t.room.roleIds = [5, 5]) ∧
    (∃ t, run step (new "s") leavesEarly = .ok t ∧ t.room.roleIds = [5] ∧
      t.server.holdsRole 5 0 = false ∧ queue t.recvMsgDispatcher = []) ∧
    (∃ t, run step (new "s") comesBack = .ok t ∧ t.room.roleIds = [] ∧ t.server.holdsRole 5 1 = true) ∧
    ¬ (Always step MembersExact (new "s") entersTwice ∧ EachStep step KeepsOthers (new "s") entersTwice) := by
  have htwice : ∃ t, run step (new "s") entersTwice = .ok t ∧ t.room.roleIds = [5, 5] := ⟨_, rfl, by decide⟩
  refine ⟨htwice, ⟨_, rfl, by decide, by decide, by decide⟩, ⟨_, rfl, by decide, by decide⟩, fun h => ?_⟩
  obtain ⟨t, ht, hroles⟩ := htwice
  have honce := (h.1 entersTwice (List.prefix_refl _) t ht).once
  rw [hroles] at honce
  exact absurd honce (by decide)

end RoomServer

end GameNetwork
