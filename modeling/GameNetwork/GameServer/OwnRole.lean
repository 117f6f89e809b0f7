import GameNetwork.GameServer.MKServer

/-!
# Whether a connection speaks only for its own role

`OwnHandOn`: what `OnNewData` hands on once its connection has a role id other
than 0 carries that role id, whether or not a message is made of it.
`SpeaksForItself`: such a message is pushed under that role id; replies to it go
to the connection as long as it is open; and the messages of a connection are
handled in the order in which they were received. `own_role_iff` says which
events keep this. `OnNewData` does not compare the role id of a message with
that of the connection, a second connection may take a role id that is in use,
and what came under role id 0 may be in the queue of another worker.

`Routes` is the part that the tables have in it, and `History` what the pushed
messages have to do with the roles of their connections in any run.
-/

namespace GameNetwork

open Lib GameNetwork.Frame

/-! ## The tables -/

namespace GameServer

/-- Every open connection that has a role id is the one routed to under it. -/
def Routes (s : GameServer) : Prop :=
  ∀ c conn, s.armedConn c = some conn → conn.game.roleId ≠ 0 →
    s.roleIdConnMap.lookup conn.game.roleId = some c

/-- No other open connection has the role id. -/
def Unshared (s : GameServer) (c : ConnId) (roleId : RoleId) : Prop :=
  ∀ c' conn, c' ≠ c → s.armedConn c' = some conn → conn.game.roleId ≠ roleId

section Routes

variable {s : GameServer} {c : ConnId} {conn : ServerConn}

theorem routes_accept (hs : s.Routes) (endpoint : String) : (s.onNewClient endpoint).Routes := by
  intro c conn hc hne
  rw [armedConn_onNewClient] at hc
  split at hc
  · cases hc
    exact absurd rfl hne
  · exact hs c conn hc hne

/-- Open connections do not share a role id. -/
theorem Routes.unshared (hs : s.Routes) (hc : s.armedConn c = some conn) (hne : conn.game.roleId ≠ 0) :
    s.Unshared c conn.game.roleId := by
  intro c' conn' hc' harmed hrole
  have hroute := hs c' conn' harmed (hrole ▸ hne)
  rw [hrole, hs c conn hc hne] at hroute
  exact hc' (Option.some.inj hroute).symm

/-- The end of a receive loop takes only the route to its own connection away. -/
theorem routes_readError (hs : s.Routes) {s' : GameServer} {ec : ErrorCode}
    (h : s.step (.readError c ec) = .ok s') : s'.Routes := by
  rcases readError_cases h with rfl | ⟨conn, hc, hconns, -, hs'⟩
  · exact hs
  intro c' conn' hc' hne
  -- whoever is open afterwards was open, and is not the one whose loop has ended
  have hother : c' ≠ c := by
    rintro rfl
    rw [armedConn_set_self hc s' _ hconns] at hc'
    cases hc'
  rw [armedConn_set_ne hother s' _ hconns] at hc'
  rcases hs' with rfl | rfl
  · have hkey : conn'.game.roleId ≠ conn.game.roleId := fun hrole =>
      hs.unshared hc (hrole ▸ hne) c' conn' hother hc' hrole
    rw [onConnectionClose_roleIdConnMap, AList.lookup_erase_ne hkey]
    exact hs c' conn' hc' hne
  · exact hs c' conn' hc' hne

/-- A registration keeps the routes when no other open connection has the role id. -/
theorem routes_onMessage_iff (hinv : RoutingInv s) (hs : s.Routes) (hc : s.armedConn c = some conn)
    (roleId : RoleId) : (s.onMessage c conn roleId).Routes ↔
      (conn.game.roleId = 0 → roleId ≠ 0 → s.Unshared c roleId) := by
  obtain ⟨hget, -⟩ := armedConn_eq_some.mp hc
  by_cases hzero : conn.game.roleId = 0
  swap
  · rw [onMessage_of_ne hget hzero]
    exact iff_of_true hs fun h => absurd h hzero
  rw [onMessage_of_zero hzero (hinv.callback conn (List.mem_of_getElem? hget))]
  have hother : ∀ {c'}, c' ≠ c → (s.registered c conn roleId).armedConn c' = s.armedConn c' := fun h =>
    armedConn_set_ne h (s.registered c conn roleId) _ rfl
  refine ⟨fun h _ hne c' conn' hc' harmed hrole => ?_, fun h c' conn' hc' hne => ?_⟩
  · have hroute := h c' conn' ((hother hc').trans harmed) (hrole ▸ hne)
    rw [hrole] at hroute
    exact hc' (Option.some.inj ((AList.lookup_insert _).symm.trans hroute)).symm
  · show (s.roleIdConnMap.insert roleId c).lookup _ = _
    by_cases heq : c' = c
    · subst heq
      rw [armedConn_registered hc] at hc'
      cases hc'
      exact AList.lookup_insert _
    · rw [hother heq] at hc'
      have hkey : conn'.game.roleId ≠ roleId := by
        rintro rfl
        exact h hzero hne c' conn' heq hc' rfl
      rw [AList.lookup_insert_ne hkey]
      exact hs c' conn' hc' hne

end Routes

end GameServer

namespace MKServer

/-- The messages of one connection. -/
def ofConn (c : ConnId) (xs : List (Traced Origin)) : List (Traced Origin) :=
  xs.filter fun x => x.note.conn = c

/-- **Each connection speaks only for its own role.** -/
structure SpeaksForItself (s : MKServer) : Prop where
  /-- Once the connection has a role id, its messages carry it. -/
  own : ∀ x ∈ s.pushed, x.note.roleId ≠ 0 → x.msg.baseMessagePtr.base.roleId = x.note.roleId
  /-- They are pushed under it. -/
  dispatched : ∀ x ∈ s.pushed, x.note.roleId ≠ 0 → x.msg.dispatchId = x.note.roleId
  /-- A reply goes to the connection while it is open. -/
  routed : ∀ x ∈ s.pushed, x.note.roleId ≠ 0 → (s.gameServer.armedConn x.note.conn).isSome →
    s.gameServer.roleIdConnMap.lookup x.msg.dispatchId = some x.note.conn
  /-- The handling of the messages of a connection begins in the order they were received, -/
  begun : ∀ c, ofConn c s.recvMsgDispatcher.taken <+: ofConn c s.pushed
  /-- and it ends in that order. -/
  handled : ∀ c, ofConn c s.recvMsgDispatcher.handled <+: ofConn c s.pushed

/-- What `OnNewData` hands on in an event, with what `GetRoleId()` is then. -/
def handsOn (s : MKServer) : MKServerEvent → List (RoleId × BaseMsgWithBuffer)
  | .turn =>
    match s.decoding.bind fun c => (s.gameServer.armedConn c).map (c, ·) with
    | none => []
    | some (c, conn) =>
      match conn.game.turn (s.buffers c) with
      | .ok (.inr (r, _)) => (ConnCall.messages r.calls).map (r.conn.roleId, ·)
      | _ => []
  | _ => []

/-- **What is handed on carries the role id of its connection**, once that is not 0. -/
def OwnHandOn (s : MKServer) (e : MKServerEvent) : Prop :=
  ∀ x ∈ s.handsOn e, x.1 ≠ 0 → x.2.baseMessage.roleId = x.1

/-- If `x` came under a role id other than 0, none that came under role id 0 from the same connection
is among the messages. -/
def NoneBefore (x : Traced Origin) (xs : List (Traced Origin)) : Prop :=
  x.note.roleId ≠ 0 → ∀ y ∈ xs, y.note.conn = x.note.conn → y.note.roleId ≠ 0

/-- The condition on an event and the state it finds. -/
def KeepsRole (s : MKServer) : MKServerEvent → Prop
  | .turn => ∀ c conn, s.decoding = some c → s.gameServer.armedConn c = some conn →
      if conn.game.roleId = 0 then
        Deliverable (s.held c) → (header (s.held c)).roleId ≠ 0 →
          s.gameServer.Unshared c (header (s.held c)).roleId
      else Accepted (s.held c) → (header (s.held c)).roleId = conn.game.roleId
  | .tryPop k => ∀ x, s.recvMsgDispatcher.next k = some x → NoneBefore x s.recvMsgDispatcher.queued
  | .dispatch k => ∀ x, s.recvMsgDispatcher.current k = some x → NoneBefore x s.recvMsgDispatcher.waiting
  | _ => True

/-! ## The pushed messages -/

/-- What the pushed messages have to do with the roles of their connections. -/
structure History (roleOf : ConnId → RoleId) (pushed : List (Traced Origin)) : Prop where
  dispatchId_eq : ∀ x ∈ pushed, x.msg.dispatchId = x.msg.baseMessagePtr.base.roleId
  dispatchId_zero : ∀ x ∈ pushed, x.note.roleId = 0 → x.msg.dispatchId = 0
  roleOf_eq : ∀ x ∈ pushed, x.note.roleId ≠ 0 → roleOf x.note.conn = x.note.roleId
  /-- A role other than 0 is for good. -/
  lasting : pushed.Pairwise fun x y =>
    x.note.conn = y.note.conn → x.note.roleId ≠ 0 → y.note.roleId = x.note.roleId
  spoke : ∀ c, roleOf c ≠ 0 → ∃ x ∈ pushed, x.note = ⟨c, roleOf c⟩

section History

variable {roleOf : ConnId → RoleId} {pushed : List (Traced Origin)} {x : Traced Origin}

/-- A message is pushed, and its connection has the role that is noted. -/
theorem History.push (h : History roleOf pushed)
    (hid : x.msg.dispatchId = x.msg.baseMessagePtr.base.roleId)
    (hrole : x.note.roleId = if roleOf x.note.conn = 0 then x.msg.dispatchId else roleOf x.note.conn) :
    History (Function.update roleOf x.note.conn x.note.roleId) (pushed ++ [x]) := by
  -- what was pushed under a role is of a connection that has it, and keeps it
  have same : ∀ y ∈ pushed, y.note.conn = x.note.conn → y.note.roleId ≠ 0 →
      x.note.roleId = y.note.roleId := by
    intro y hy hconn hne
    have hroleOf := h.roleOf_eq y hy hne
    rw [hconn] at hroleOf
    rw [hrole, hroleOf, if_neg hne]
  refine ⟨fun y hy => ?_, fun y hy hzero => ?_, fun y hy hne => ?_, ?_, fun c hc => ?_⟩
  · rcases List.mem_append.mp hy with hy | hy
    · exact h.dispatchId_eq y hy
    · rw [List.mem_singleton.mp hy]
      exact hid
  · rcases List.mem_append.mp hy with hy | hy
    · exact h.dispatchId_zero y hy hzero
    · rw [List.mem_singleton.mp hy] at hzero ⊢
      rw [hzero] at hrole
      split at hrole
      · exact hrole.symm
      · next hne => exact absurd hrole.symm hne
  · rcases List.mem_append.mp hy with hy | hy
    · by_cases hconn : y.note.conn = x.note.conn
      · rw [hconn, Function.update_self]
        exact same y hy hconn hne
      · rw [Function.update_of_ne hconn]
        exact h.roleOf_eq y hy hne
    · rw [List.mem_singleton.mp hy, Function.update_self]
  · refine List.pairwise_append.mpr ⟨h.lasting, List.pairwise_singleton _ _, fun y hy z hz => ?_⟩
    rw [List.mem_singleton.mp hz]
    exact same y hy
  · by_cases hconn : c = x.note.conn
    · subst hconn
      rw [Function.update_self]
      exact ⟨x, List.mem_append_right _ List.mem_cons_self, rfl⟩
    · rw [Function.update_of_ne hconn] at hc ⊢
      obtain ⟨y, hy, hnote⟩ := h.spoke c hc
      exact ⟨y, List.mem_append_left _ hy, hnote⟩

end History

/-! ## What it comes to -/

section Parts

variable {s : MKServer} {c : ConnId}

/-- Replies are routed as they should be when the open connections are. -/
theorem routed_iff (h : History s.gameServer.getRoleId s.pushed)
    (hdispatched : ∀ x ∈ s.pushed, x.note.roleId ≠ 0 → x.msg.dispatchId = x.note.roleId) :
    (∀ x ∈ s.pushed, x.note.roleId ≠ 0 → (s.gameServer.armedConn x.note.conn).isSome →
      s.gameServer.roleIdConnMap.lookup x.msg.dispatchId = some x.note.conn) ↔ s.gameServer.Routes := by
  refine ⟨fun hrouted c conn hc hne => ?_, fun hroutes x hx hne hopen => ?_⟩
  · have hrole := GameServer.getRoleId_of_armed hc
    obtain ⟨x, hx, hnote⟩ := h.spoke c (hrole ▸ hne)
    have hnoteRole : x.note.roleId = conn.game.roleId := by rw [hnote, hrole]
    have hnoteConn : x.note.conn = c := by rw [hnote]
    have hroute := hrouted x hx (hnoteRole ▸ hne) (by rw [hnoteConn, hc]; rfl)
    rwa [hdispatched x hx (hnoteRole ▸ hne), hnoteRole, hnoteConn] at hroute
  · obtain ⟨conn, hc⟩ := Option.isSome_iff_exists.mp hopen
    have hrole : conn.game.roleId = x.note.roleId := by
      rw [← GameServer.getRoleId_of_armed hc]
      exact h.roleOf_eq x hx hne
    rw [hdispatched x hx hne, ← hrole]
    exact hroutes _ conn hc (hrole ▸ hne)

/-- What can go wrong: the ids, the routes, the order. -/
theorem speaksForItself_iff (h : History s.gameServer.getRoleId s.pushed) :
    s.SpeaksForItself ↔
      (∀ x ∈ s.pushed, x.note.roleId ≠ 0 → x.msg.dispatchId = x.note.roleId) ∧
        s.gameServer.Routes ∧ (∀ c, ofConn c s.recvMsgDispatcher.taken <+: ofConn c s.pushed) ∧
          ∀ c, ofConn c s.recvMsgDispatcher.handled <+: ofConn c s.pushed := by
  refine ⟨fun hs => ⟨hs.dispatched, (routed_iff h hs.dispatched).mp hs.routed, hs.begun, hs.handled⟩, ?_⟩
  rintro ⟨hdispatched, hroutes, hbegun, hhandled⟩
  refine ⟨fun x hx hne => ?_, hdispatched, (routed_iff h hdispatched).mpr hroutes, hbegun, hhandled⟩
  rw [← h.dispatchId_eq x hx]
  exact hdispatched x hx hne

end Parts

/-! ## The order of one connection -/

section Order

variable {threadNum : BitVec 32} {roleOf : ConnId → RoleId} {lanes : List (Lane (Traced Origin))}
  {pushed left rest : List (Traced Origin)} {k : Nat} {l : Lane (Traced Origin)} {x : Traced Origin}

/-- **Which message of a connection comes first.** What a worker has taken is the first of the
messages of its connection that have not left, unless it came under a role id and some that came
under role id 0 are there. -/
theorem next_iff (h : Ordered (TracedDispatcher.laneOf threadNum) lanes pushed left)
    (hin : ∀ y ∈ pushed, TracedDispatcher.laneOf threadNum y < lanes.length)
    (hist : History roleOf pushed)
    (hdispatched : ∀ y ∈ pushed, y.note.roleId ≠ 0 → y.msg.dispatchId = y.note.roleId)
    (hl : lanes[k]? = some l) (hx : l.current = some x)
    (hrest : ofConn x.note.conn left ++ rest = ofConn x.note.conn pushed) :
    [x] <+: rest ↔ NoneBefore x (lanes.flatMap Lane.items) := by
  have hmem : ∀ {y}, y ∈ rest ↔ y ∈ lanes.flatMap Lane.items ∧ y.note.conn = x.note.conn := fun {y} => by
    rw [h.mem_rest hin hrest, decide_eq_true_eq]
  have hsub : rest.Sublist pushed := by
    have happend : rest.Sublist (ofConn x.note.conn pushed) := hrest ▸ List.sublist_append_right ..
    exact happend.trans List.filter_sublist
  have hown : TracedDispatcher.laneOf threadNum x = k :=
    h.own k l hl x (Lane.items_finish hx ▸ List.mem_cons_self)
  have hxmem : x ∈ rest := by
    have hlane : x ∈ ofLane (TracedDispatcher.laneOf threadNum) k rest :=
      h.rest_of_current hrest hl hx (decide_eq_true rfl) ▸ List.mem_cons_self
    exact (List.mem_filter.mp hlane).1
  have hfirst := h.first_iff hrest hl hx (decide_eq_true rfl)
  cases rest with
  | nil => cases hxmem
  | cons y ys =>
    -- once the first of them has come under a role id, the others have come under the same
    have hlater : ∀ z ∈ y :: ys, y.note.roleId ≠ 0 → z.note.roleId = y.note.roleId := by
      intro z hz hne
      rcases List.mem_cons.mp hz with rfl | htail
      · rfl
      · exact (List.pairwise_cons.mp (hist.lasting.sublist hsub)).1 z htail
          ((hmem.mp List.mem_cons_self).2.trans (hmem.mp hz).2.symm) hne
    obtain ⟨hyin, hyconn⟩ := hmem.mp (List.mem_cons_self (a := y) (l := ys))
    have hyp : y ∈ pushed := hsub.subset List.mem_cons_self
    have hxp : x ∈ pushed := hsub.subset hxmem
    rw [hfirst]
    refine ⟨fun hlane hne z hz hconn => ?_, fun hnone z hz => ?_⟩
    · obtain ⟨rfl, -⟩ := List.cons_prefix_cons.mp (hfirst.mpr hlane)
      rw [hlater z (hmem.mpr ⟨hz, hconn⟩) hne]
      exact hne
    · cases hz
      have hid : y.msg.dispatchId = x.msg.dispatchId := by
        by_cases hne : y.note.roleId = 0
        · have hxzero : x.note.roleId = 0 := by
            by_contra hxne
            exact hnone hxne y hyin hyconn hne
          rw [hist.dispatchId_zero y hyp hne, hist.dispatchId_zero x hxp hxzero]
        · have hsame := hlater x hxmem hne
          rw [hdispatched y hyp hne, hdispatched x hxp (hsame ▸ hne), hsame]
      rw [← hown]
      unfold TracedDispatcher.laneOf Dispatching.laneOf
      rw [hid]

/-- One more message leaves, and every connection keeps its order, under the same condition. -/
theorem inOrder_snoc_iff (h : Ordered (TracedDispatcher.laneOf threadNum) lanes pushed left)
    (hin : ∀ y ∈ pushed, TracedDispatcher.laneOf threadNum y < lanes.length)
    (hist : History roleOf pushed)
    (hdispatched : ∀ y ∈ pushed, y.note.roleId ≠ 0 → y.msg.dispatchId = y.note.roleId)
    (horder : ∀ c, ofConn c left <+: ofConn c pushed) (hl : lanes[k]? = some l)
    (hx : l.current = some x) :
    (∀ c, ofConn c (left ++ [x]) <+: ofConn c pushed) ↔ NoneBefore x (lanes.flatMap Lane.items) := by
  obtain ⟨rest, hrest⟩ := horder x.note.conn
  have hself : ofConn x.note.conn (left ++ [x]) = ofConn x.note.conn left ++ [x] := by
    unfold ofConn
    rw [List.filter_append, List.filter_cons_of_pos (by simp), List.filter_nil]
  rw [← next_iff h hin hist hdispatched hl hx hrest, ← List.prefix_append_right_inj
    (ofConn x.note.conn left), ← hself, hrest]
  refine ⟨fun hall => hall _, fun hfirst c => ?_⟩
  by_cases hc : x.note.conn = c
  · exact hc ▸ hfirst
  · have hother : ofConn c (left ++ [x]) = ofConn c left := by
      unfold ofConn
      rw [List.filter_append, List.filter_cons_of_neg (by simpa using hc), List.filter_nil,
        List.append_nil]
    rw [hother]
    exact horder c

variable {d : TracedDispatcher Origin}

/-- When a worker that is done keeps the order. -/
theorem handled_iff (h : d.Inv threadNum) (hist : History roleOf d.pushed)
    (hdispatched : ∀ y ∈ d.pushed, y.note.roleId ≠ 0 → y.msg.dispatchId = y.note.roleId)
    (horder : ∀ c, ofConn c d.handled <+: ofConn c d.pushed) (hk : d.current k = some x) :
    (∀ c, ofConn c (d.handled ++ [x]) <+: ofConn c d.pushed) ↔ NoneBefore x d.waiting := by
  obtain ⟨-, l, hl, hx⟩ := h.of_current hk
  exact inOrder_snoc_iff h.ordered (fun y _ => h.index_lt y.msg.dispatchId) hist hdispatched horder hl hx

/-- When a worker that takes a message keeps the order. -/
theorem begun_iff (h : d.Inv threadNum) (hist : History roleOf d.pushed)
    (hdispatched : ∀ y ∈ d.pushed, y.note.roleId ≠ 0 → y.msg.dispatchId = y.note.roleId)
    (horder : ∀ c, ofConn c d.taken <+: ofConn c d.pushed) (hk : d.next k = some x) :
    (∀ c, ofConn c (d.taken ++ [x]) <+: ofConn c d.pushed) ↔ NoneBefore x d.queued := by
  obtain ⟨l, hl, hx⟩ := Option.bind_eq_some_iff.mp hk
  obtain ⟨hfree, hcurrent⟩ := Lane.take_of_next hx
  -- the lanes without what is being handled, once the worker has taken the message
  have hlane : ((d.lanes.map Lane.finish).modify k Lane.take)[k]? = some l.take := by
    simp [hl, hfree]
  have hqueued : ((d.lanes.map Lane.finish).modify k Lane.take).flatMap Lane.items = d.queued := by
    rw [List.flatMap_def, map_modify_of_eq Lane.items_take, List.map_map, ← List.flatMap_def]
    rfl
  rw [← hqueued]
  refine inOrder_snoc_iff (Ordered.take h.begun k) (fun y _ => ?_) hist hdispatched horder hlane hcurrent
  rw [List.length_modify, List.length_map]
  exact h.index_lt y.msg.dispatchId

end Order

/-! ## The steps -/

/-- What every step keeps. -/
structure RunInv (threadNum : BitVec 32) (s : MKServer) : Prop where
  parts : Inv threadNum s
  history : History s.gameServer.getRoleId s.pushed

theorem runInv_new (serverName : String) {threadNum : BitVec 32} (hpos : threadNum ≠ 0) :
    RunInv threadNum (new serverName threadNum) where
  parts := inv_new serverName hpos
  history := ⟨fun x hx => (by cases hx), fun x hx => (by cases hx), fun x hx => (by cases hx), .nil,
    fun c hc => absurd rfl hc⟩

theorem speaksForItself_new (serverName : String) (threadNum : BitVec 32) :
    (new serverName threadNum).SpeaksForItself :=
  ⟨fun x hx => (by cases hx), fun x hx => (by cases hx), fun x hx => (by cases hx),
    fun _ => List.prefix_refl _, fun _ => List.prefix_refl _⟩

section Step

variable {threadNum : BitVec 32} {s s' : MKServer} {c : ConnId} {conn : ServerConn} {m : Message}

theorem roleId_takeRole (game : GameConnection) (roleId : RoleId) :
    (game.takeRole roleId).roleId = if game.roleId = 0 then roleId else game.roleId := by
  unfold GameConnection.takeRole
  split <;> rfl

theorem history_handedOn (h : RunInv threadNum s) (hc : s.gameServer.armedConn c = some conn) :
    History (s.handedOn c conn m).gameServer.getRoleId (s.handedOn c conn m).pushed := by
  have hroles := GameServer.getRoleId_onMessage hc m.base.roleId
  show History (s.gameServer.onMessage c conn m.base.roleId).getRoleId _
  rw [hroles]
  refine h.history.push (x := ⟨⟨m.base.roleId, m⟩, ⟨c, (conn.game.takeRole m.base.roleId).roleId⟩⟩) rfl ?_
  rw [GameServer.getRoleId_of_armed hc]
  exact roleId_takeRole _ _

/-- When a message that is handed on keeps a connection to its own role. -/
theorem speaksForItself_handedOn_iff (h : RunInv threadNum s) (hs : s.SpeaksForItself)
    (hc : s.gameServer.armedConn c = some conn) :
    (s.handedOn c conn m).SpeaksForItself ↔
      if conn.game.roleId = 0 then m.base.roleId ≠ 0 → s.gameServer.Unshared c m.base.roleId
      else m.base.roleId = conn.game.roleId := by
  obtain ⟨hdispatched, hroutes, hbegun, hhandled⟩ := (speaksForItself_iff h.history).mp hs
  have hroutes' := GameServer.routes_onMessage_iff h.parts.routing hroutes hc m.base.roleId
  have hdispatched' : (∀ x ∈ (s.handedOn c conn m).pushed, x.note.roleId ≠ 0 →
      x.msg.dispatchId = x.note.roleId) ↔ (conn.game.roleId ≠ 0 → m.base.roleId = conn.game.roleId) := by
    have hrole := roleId_takeRole conn.game m.base.roleId
    refine ⟨fun hall hne => ?_, fun hrole' x hx hne => ?_⟩
    · rw [if_neg hne] at hrole
      have hlast := hall _ (List.mem_append_right _ List.mem_cons_self) (hrole.symm ▸ hne)
      exact hlast.trans hrole
    · rcases List.mem_append.mp hx with hx | hx
      · exact hdispatched x hx hne
      · rw [List.mem_singleton.mp hx]
        show m.base.roleId = (conn.game.takeRole m.base.roleId).roleId
        rw [hrole]
        split
        · rfl
        · next hzero => exact hrole' hzero
  have hgrows : ∀ c', ofConn c' s.pushed <+: ofConn c' (s.handedOn c conn m).pushed := by
    intro c'
    show _ <+: List.filter _ (_ ++ _)
    rw [List.filter_append]
    exact List.prefix_append _ _
  have hbegun' := fun c' => (hbegun c').trans (hgrows c')
  have hhandled' := fun c' => (hhandled c').trans (hgrows c')
  rw [speaksForItself_iff (history_handedOn h hc), hdispatched']
  split
  · next hzero =>
    refine ⟨fun hall => hroutes'.mp hall.2.1 hzero, fun hunshared => ?_⟩
    exact ⟨fun hne => absurd hzero hne, hroutes'.mpr fun _ => hunshared, hbegun', hhandled'⟩
  · next hne =>
    refine ⟨fun hall => hall.1 hne, fun hown => ?_⟩
    exact ⟨fun _ => hown, hroutes'.mpr fun hzero => absurd hzero hne, hbegun', hhandled'⟩

/-- A step that pushes nothing, and with which no handling begins or ends. -/
structure Quiet (s s' : MKServer) : Prop where
  pushed : s'.pushed = s.pushed
  taken : s'.recvMsgDispatcher.taken = s.recvMsgDispatcher.taken
  handled : s'.recvMsgDispatcher.handled = s.recvMsgDispatcher.handled
  roles : s'.gameServer.getRoleId = s.gameServer.getRoleId
  routes : s.gameServer.Routes → s'.gameServer.Routes

theorem Quiet.history (hq : Quiet s s') (h : History s.gameServer.getRoleId s.pushed) :
    History s'.gameServer.getRoleId s'.pushed := by
  rw [hq.roles, hq.pushed]
  exact h

theorem Quiet.speaksForItself (hq : Quiet s s') (h : RunInv threadNum s) (hs : s.SpeaksForItself) :
    s'.SpeaksForItself := by
  obtain ⟨hdispatched, hroutes, hbegun, hhandled⟩ := (speaksForItself_iff h.history).mp hs
  rw [speaksForItself_iff (hq.history h.history), hq.pushed, hq.taken, hq.handled]
  exact ⟨hdispatched, hq.routes hroutes, hbegun, hhandled⟩

/-- What an event does to the messages: a turn may push one, and a worker may begin or end one. -/
theorem quiet_or (h : Inv threadNum s) {e : MKServerEvent} (hs : s.step e = .ok s') :
    Quiet s s' ∨
    (e = .turn ∧ ∃ c conn m, s.decoding = some c ∧ s.gameServer.armedConn c = some conn ∧
      FrameOf (s.held c) m ∧ Deliverable (s.held c) ∧ s' = s.handedOn c conn m) ∨
    (∃ k x, e = .tryPop k ∧ s.recvMsgDispatcher.next k = some x ∧
      s' = { s with recvMsgDispatcher := s.recvMsgDispatcher.tryPop k }) ∨
    ∃ k x, e = .dispatch k ∧ s.recvMsgDispatcher.current k = some x ∧
      s' = { s with recvMsgDispatcher := s.recvMsgDispatcher.finished k x } := by
  cases h.effect hs with
  | nothing => exact .inl ⟨rfl, rfl, rfl, rfl, id⟩
  | accepted endpoint =>
    exact .inl ⟨rfl, rfl, rfl, GameServer.getRoleId_onNewClient endpoint,
      fun hroutes => GameServer.routes_accept hroutes endpoint⟩
  | stored => exact .inl ⟨rfl, rfl, rfl, rfl, id⟩
  | handedOn hdec hc hd hm => exact .inr (.inl ⟨rfl, _, _, _, hdec, hc, hm, hd, rfl⟩)
  | stopped => exact .inl ⟨rfl, rfl, rfl, rfl, id⟩
  | closed hg =>
    exact .inl ⟨rfl, rfl, rfl, GameServer.getRoleId_readError hg,
      fun hroutes => GameServer.routes_readError hroutes hg⟩
  | taken k =>
    cases hk : s.recvMsgDispatcher.next k with
    | none =>
      have htaken : (s.recvMsgDispatcher.tryPop k).taken = s.recvMsgDispatcher.taken := by
        unfold TracedDispatcher.tryPop
        simp only [hk, Option.toList_none, List.append_nil]
      exact .inl ⟨rfl, htaken, rfl, rfl, id⟩
    | some x => exact .inr (.inr (.inl ⟨k, x, rfl, hk, rfl⟩))
  | finished hk => exact .inr (.inr (.inr ⟨_, _, rfl, hk, rfl⟩))

theorem runInv_step (h : RunInv threadNum s) {e : MKServerEvent} (hs : s.step e = .ok s') :
    RunInv threadNum s' := by
  refine ⟨inv_step h.parts hs, ?_⟩
  rcases quiet_or h.parts hs with hq | ⟨-, c, conn, m, -, hc, -, -, rfl⟩ | ⟨k, x, -, -, rfl⟩ |
    ⟨k, x, -, -, rfl⟩
  · exact hq.history h.history
  · exact history_handedOn h hc
  · exact h.history
  · exact h.history

/-- When a worker that takes a message keeps the messages of its connection in order. -/
theorem speaksForItself_tryPop_iff (h : RunInv threadNum s) (hs : s.SpeaksForItself) {k : Nat}
    {x : Traced Origin} (hk : s.recvMsgDispatcher.next k = some x) :
    SpeaksForItself { s with recvMsgDispatcher := s.recvMsgDispatcher.tryPop k } ↔
      NoneBefore x s.recvMsgDispatcher.queued := by
  have htaken : (s.recvMsgDispatcher.tryPop k).taken = s.recvMsgDispatcher.taken ++ [x] := by
    unfold TracedDispatcher.tryPop
    simp only [hk, Option.toList_some]
  rw [← begun_iff h.parts.recv h.history hs.dispatched hs.begun hk, ← htaken]
  exact ⟨fun h' => h'.begun, fun hbegun => ⟨hs.own, hs.dispatched, hs.routed, hbegun, hs.handled⟩⟩

/-- When a worker that is done with a message keeps them in order. -/
theorem speaksForItself_finished_iff (h : RunInv threadNum s) (hs : s.SpeaksForItself) {k : Nat}
    {x : Traced Origin} (hk : s.recvMsgDispatcher.current k = some x) :
    SpeaksForItself { s with recvMsgDispatcher := s.recvMsgDispatcher.finished k x } ↔
      NoneBefore x s.recvMsgDispatcher.waiting := by
  rw [← handled_iff h.parts.recv h.history hs.dispatched hs.handled hk]
  exact ⟨fun h' => h'.handled, fun hhandled => ⟨hs.own, hs.dispatched, hs.routed, hs.begun, hhandled⟩⟩

/-- What a turn hands on is the accepted frame at the front. -/
theorem handsOn_turn (h : Inv threadNum s) (hdec : s.decoding = some c)
    (hc : s.gameServer.armedConn c = some conn) :
    (Accepted (s.held c) ∧ s.handsOn .turn =
      [((conn.game.takeRole (header (s.held c)).roleId).roleId, received (s.held c))]) ∨
    (¬ Accepted (s.held c) ∧ s.handsOn .turn = []) := by
  have hturn := h.turn_answers c conn.game
  simp only [handsOn, hdec, Option.bind_some, hc, Option.map_some]
  by_cases hacc : Accepted (s.held c)
  · rw [frameVerdict_accept.mpr ⟨hacc, rfl, rfl⟩] at hturn
    rw [show conn.game.turn (s.buffers c) = _ from hturn]
    exact .inl ⟨hacc, congrArg (List.map _) (GameConnection.messages_handedOn ..)⟩
  · refine .inr ⟨hacc, ?_⟩
    cases hverdict : frameVerdict (s.held c) with
    | more =>
      rw [hverdict] at hturn
      rw [show conn.game.turn (s.buffers c) = _ from hturn]
    | reject n =>
      rw [hverdict] at hturn
      rw [show conn.game.turn (s.buffers c) = _ from hturn]
    | fault =>
      rw [hverdict] at hturn
      obtain ⟨cond, hcond⟩ := hturn
      rw [hcond]
    | accept n b => exact absurd (frameVerdict_accept.mp hverdict).1 hacc

/-- When what a turn hands on carries the role id of its connection. -/
theorem ownHandOn_turn_iff (h : Inv threadNum s) (hdec : s.decoding = some c)
    (hc : s.gameServer.armedConn c = some conn) :
    s.OwnHandOn .turn ↔ (conn.game.roleId ≠ 0 → Accepted (s.held c) →
      (header (s.held c)).roleId = conn.game.roleId) := by
  unfold OwnHandOn
  rcases handsOn_turn h hdec hc with ⟨hacc, hon⟩ | ⟨hacc, hon⟩
  · rw [hon, List.forall_mem_singleton, roleId_takeRole]
    show (_ → (header (s.held c)).roleId = _) ↔ _
    by_cases hzero : conn.game.roleId = 0
    · rw [if_pos hzero]
      exact iff_of_true (fun _ => rfl) fun hne => absurd hzero hne
    · rw [if_neg hzero]
      exact ⟨fun hown hne _ => hown hne, fun hown hne => hown hne hacc⟩
  · rw [hon]
    exact iff_of_true (fun _ hx => (by cases hx)) fun _ h => absurd h hacc

/-- **When an event keeps each connection to its own role.** -/
theorem step_speaksForItself_iff (h : RunInv threadNum s) (hs : s.SpeaksForItself) (e : MKServerEvent) :
    ((∀ s', s.step e = .ok s' → s'.SpeaksForItself) ∧ s.OwnHandOn e) ↔ s.KeepsRole e := by
  have hnone : ∀ {e}, s.handsOn e = [] → s.OwnHandOn e := fun he => by
    unfold OwnHandOn
    rw [he]
    exact fun _ hx => (by cases hx)
  constructor
  · rintro ⟨hall, hown⟩
    cases e with
    | turn =>
      intro c conn hdec hc
      split
      · next hzero =>
        intro hd
        obtain ⟨m, hm, hturn⟩ := h.parts.onTurn_deliverable hdec hc hd
        have hnext := hall _ ((step_turn hdec hc).trans hturn)
        rwa [speaksForItself_handedOn_iff h hs hc, if_pos hzero, hm.base] at hnext
      · next hne => exact (ownHandOn_turn_iff h.parts hdec hc).mp hown hne
    | tryPop k => exact fun x hk => (speaksForItself_tryPop_iff h hs hk).mp (hall _ rfl)
    | dispatch k =>
      intro x hk
      have hnext := hall _ (h.parts.step_dispatch k)
      rw [hk] at hnext
      exact (speaksForItself_finished_iff h hs hk).mp hnext
    | accept => trivial
    | read => trivial
    | readError => trivial
  · intro hkeeps
    refine ⟨fun s' hs' => ?_, ?_⟩
    · rcases quiet_or h.parts hs' with hq | ⟨rfl, c, conn, m, hdec, hc, hm, hd, rfl⟩ |
        ⟨k, x, rfl, hk, rfl⟩ | ⟨k, x, rfl, hk, rfl⟩
      · exact hq.speaksForItself h hs
      · have hrole := hkeeps c conn hdec hc
        rw [speaksForItself_handedOn_iff h hs hc, hm.base]
        split
        · next hzero =>
          rw [if_pos hzero] at hrole
          exact hrole hd
        · next hne =>
          rw [if_neg hne] at hrole
          exact hrole hd.accepted
      · exact (speaksForItself_tryPop_iff h hs hk).mpr (hkeeps x hk)
      · exact (speaksForItself_finished_iff h hs hk).mpr (hkeeps x hk)
    · cases e with
      | turn =>
        cases hloop : s.decoding.bind fun c => (s.gameServer.armedConn c).map (c, ·) with
        | none =>
          refine hnone ?_
          simp only [handsOn, hloop]
        | some x =>
          obtain ⟨c, hdec, hc⟩ := Option.bind_eq_some_iff.mp hloop
          obtain ⟨conn, hc, -⟩ := Option.map_eq_some_iff.mp hc
          have hrole := hkeeps c conn hdec hc
          refine (ownHandOn_turn_iff h.parts hdec hc).mpr fun hne => ?_
          rwa [if_neg hne] at hrole
      | _ => exact hnone rfl

/-- **Where no message has come under role id 0, the workers may do as they like.** -/
theorem keepsRole_of_worker (h : Inv threadNum s) (hroles : ∀ x ∈ s.pushed, x.note.roleId ≠ 0)
    {e : MKServerEvent} (he : ∃ k, e = .tryPop k ∨ e = .dispatch k) : s.KeepsRole e := by
  have hwaiting : ∀ y ∈ s.recvMsgDispatcher.waiting, y.note.roleId ≠ 0 := fun y hy =>
    hroles y (h.recv.ordered.mem_entered hy)
  obtain ⟨k, rfl | rfl⟩ := he
  · intro x _ _ y hy _
    obtain ⟨l, hl, hy⟩ := List.mem_flatMap.mp hy
    exact hwaiting y (List.mem_flatMap.mpr ⟨l, hl, List.mem_append_right _ hy⟩)
  · exact fun x _ _ y hy _ => hwaiting y hy

theorem eachStep_workers (h : Inv threadNum s) (hroles : ∀ x ∈ s.pushed, x.note.roleId ≠ 0)
    {es : List MKServerEvent} (hes : ∀ e ∈ es, ∃ k, e = .tryPop k ∨ e = .dispatch k) :
    EachStep step KeepsRole s es := by
  induction es generalizing s with
  | nil => exact eachStep_nil
  | cons e es ih =>
    refine eachStep_cons.mpr ⟨keepsRole_of_worker h hroles (hes e List.mem_cons_self), fun s' hs' => ?_⟩
    refine ih (inv_step h hs') ?_ fun e he => hes e (List.mem_cons_of_mem _ he)
    obtain ⟨k, rfl | rfl⟩ := hes e List.mem_cons_self
    · cases hs'
      exact hroles
    · rw [h.step_dispatch] at hs'
      cases hs'
      cases s.recvMsgDispatcher.current k <;> exact hroles

end Step

/-- **Each connection speaks only for its own role throughout a run exactly when each event meets
the condition.** -/
theorem own_role_iff (serverName : String) {threadNum : BitVec 32} (hpos : threadNum ≠ 0)
    (events : List MKServerEvent) :
    Always step SpeaksForItself (new serverName threadNum) events ∧
        EachStep step OwnHandOn (new serverName threadNum) events ↔
      EachStep step KeepsRole (new serverName threadNum) events :=
  always_and_eachStep_iff (I := RunInv threadNum) (G := fun _ _ => True)
    (fun _ _ _ h _ _ _ hs => runInv_step h hs)
    (fun _ e h hs _ => step_speaksForItself_iff h hs e)
    (runInv_new serverName hpos) (speaksForItself_new serverName threadNum) (fun _ _ _ _ _ => trivial)

/-- A ping under a role id. -/
def pingOf (roleId : RoleId) : Message := .ping { PingMessage.new with roleId := roleId }

theorem asConstructed_pingOf (roleId : RoleId) : (pingOf roleId).AsConstructed := ⟨rfl, rfl⟩

/-- A first connection, and what it has sent. -/
def firstConn (piece : List Byte) : List MKServerEvent := [.accept "a", .read 0 piece]

/-- The loop of the first connection has begun. -/
theorem run_firstConn {threadNum : BitVec 32} (hpos : threadNum ≠ 0) {piece : List Byte}
    (hle : piece.length ≤ defaultBufferSize) :
    ∃ s, run step (new "s" threadNum) (firstConn piece) = .ok s ∧ Inv threadNum s ∧
      s.gameServer = (GameServer.new "s").onNewClient "a" ∧ s.decoding = some 0 ∧ s.held 0 = piece := by
  have h := inv_new "s" hpos
  have h₁ : (new "s" threadNum).step (.accept "a") =
      .ok { new "s" threadNum with gameServer := (GameServer.new "s").onNewClient "a" } := rfl
  have hinv := inv_step h h₁
  have hroom : piece.length ≤ (Buffer.new defaultBufferSize).writableSize := by
    rw [show (Buffer.new defaultBufferSize).writableSize = _ from writableSize_start ⟨0, true⟩]
    exact hle
  obtain ⟨buffer, hb, hheld⟩ := hinv.storeRead_ok (c := 0) hroom
  refine ⟨_, run_cons_eq_ok.mpr ⟨_, h₁, run_cons_eq_ok.mpr ⟨_, step_read rfl rfl rfl hb, rfl⟩⟩,
    hinv.stored hb, rfl, rfl, hheld.trans ?_⟩
  show (Buffer.new _).readable ++ piece = piece
  rw [Buffer.readable_new, List.nil_append]

/-- It has taken the role of a first ping, and `t` is left. -/
theorem run_firstTurn {t : List Byte} (hle : ((pingOf 5).frame ++ t).length ≤ defaultBufferSize) :
    ∃ s, run step (new "s" 2) (firstConn ((pingOf 5).frame ++ t) ++ [.turn]) = .ok s ∧ Inv 2 s ∧
      s.decoding = some 0 ∧ s.gameServer.armedConn 0 = some ⟨"a", ⟨5, true⟩, true⟩ ∧ s.held 0 = t := by
  obtain ⟨s, hs, hinv, hserver, hdec, hheld⟩ := run_firstConn (by decide : (2 : BitVec 32) ≠ 0) hle
  have hc : s.gameServer.armedConn 0 = some ⟨"a", ⟨0, true⟩, true⟩ := by
    rw [hserver]
    rfl
  obtain ⟨hturn, hheld', hinv'⟩ := hinv.turn_frame hdec hc (asConstructed_pingOf 5) hheld
  exact ⟨_, run_append_eq_ok.mpr ⟨s, hs, run_cons_eq_ok.mpr ⟨_, hturn, rfl⟩⟩, hinv', hdec,
    (armedConn_handedOn hc _).trans rfl, hheld'⟩

/-- It hands on a frame under another role id, whatever the type. -/
theorem not_ownHandOn_secondTurn {t : List Byte} (hle : ((pingOf 5).frame ++ t).length ≤ defaultBufferSize)
    (hacc : Accepted t) (hrole : (header t).roleId ≠ 5) :
    ¬ EachStep step OwnHandOn (new "s" 2) (firstConn ((pingOf 5).frame ++ t) ++ [.turn] ++ [.turn]) := by
  intro hown
  obtain ⟨s, hs, hinv, hdec, hc, hheld⟩ := run_firstTurn hle
  have hturn := hown _ _ (List.prefix_refl _) s hs
  rw [ownHandOn_turn_iff hinv hdec hc, hheld] at hturn
  exact hrole (hturn (by decide) hacc)

/-- The connection sends a second ping, under another role id. -/
def twoRoles : List MKServerEvent :=
  firstConn ((pingOf 5).frame ++ (pingOf 6).frame) ++ [.turn] ++ [.turn]

/-- It sends a frame of type `DEFAULT` under another role id, for which the handler fails. -/
def twoRolesDefault : List MKServerEvent :=
  firstConn ((pingOf 5).frame ++ (Message.plain { BaseMessage.new with roleId := 6 }).frame) ++
    [.turn] ++ [.turn]

theorem own_role_fails :
    (∃ s, run step (new "s" 2) twoRoles = .ok s ∧
      ∃ x ∈ s.pushed, x.note = ⟨0, 5⟩ ∧ x.msg.dispatchId = 6) ∧
    ¬ (Always step SpeaksForItself (new "s" 2) twoRoles ∧ EachStep step OwnHandOn (new "s" 2) twoRoles) ∧
    ¬ EachStep step OwnHandOn (new "s" 2) twoRolesDefault := by
  refine ⟨?_, ?_, ?_⟩
  · have hlen : ((pingOf 5).frame ++ (pingOf 6).frame).length ≤ defaultBufferSize := by decide
    obtain ⟨s, hs, hinv, hdec, hc, hheld⟩ := run_firstTurn hlen
    rw [← List.append_nil (pingOf 6).frame] at hheld
    obtain ⟨hturn, -, -⟩ := hinv.turn_frame hdec hc (asConstructed_pingOf 6) hheld
    refine ⟨_, run_append_eq_ok.mpr ⟨s, hs, run_cons_eq_ok.mpr ⟨_, hturn, rfl⟩⟩,
      ⟨⟨6, pingOf 6⟩, ⟨0, 5⟩⟩, ?_, rfl, rfl⟩
    exact List.mem_append_right _ List.mem_cons_self
  · rintro ⟨-, hown⟩
    exact not_ownHandOn_secondTurn (by decide) (accepted_frame (asConstructed_pingOf 6)) (by decide) hown
  · exact not_ownHandOn_secondTurn (by decide) ⟨by decide, by decide, by decide, by decide, by decide⟩ (by decide)

/-- Two connections are accepted and read, one after the other, -/
def twoReads : List MKServerEvent :=
  [.accept "a", .accept "b", .read 0 (pingOfFive.frame ++ moveOfFive.frame), .turn, .turn, .turn,
    .read 1 requestOfSix.frame, .turn, .turn]

/-- and the two workers handle what was received. -/
def twoWorkers : List MKServerEvent :=
  [.tryPop 1, .tryPop 0, .dispatch 1, .dispatch 0, .tryPop 1, .dispatch 1]

/-- An open connection with a role id. -/
abbrev openConn (endpoint : String) (roleId : RoleId) : ServerConn := ⟨endpoint, ⟨roleId, true⟩, true⟩

/-- What the reads leave with the workers, and that they meet the condition. -/
theorem run_twoReads : ∃ s, run step (new "s" 2) twoReads = .ok s ∧ Inv 2 s ∧
    EachStep step KeepsRole (new "s" 2) twoReads ∧
    s.recvMsgDispatcher = (((TracedDispatcher.new 2).pushOf ⟨⟨5, pingOfFive⟩, ⟨0, 5⟩⟩).pushOf
      ⟨⟨5, moveOfFive⟩, ⟨0, 5⟩⟩).pushOf ⟨⟨6, requestOfSix⟩, ⟨1, 6⟩⟩ := by
  have along : ∀ {s s' : MKServer} {e : MKServerEvent} {es : List MKServerEvent}, s.KeepsRole e →
      s.step e = .ok s' → EachStep step KeepsRole s' es → EachStep step KeepsRole s (e :: es) := by
    intro s s' e es he hs hes
    refine eachStep_cons.mpr ⟨he, fun t ht => ?_⟩
    rw [hs] at ht
    cases ht
    exact hes
  have room : ∀ {b : Buffer} {piece : List Byte}, b = Buffer.new defaultBufferSize → piece.length ≤ 4096 →
      piece.length ≤ b.writableSize := by
    rintro _ piece rfl hle
    rw [show (Buffer.new defaultBufferSize).writableSize = _ from writableSize_start ⟨0, true⟩]
    exact hle
  have held_new : ∀ {b : Buffer}, b = Buffer.new defaultBufferSize → b.readable = [] := by
    rintro _ rfl
    exact Buffer.readable_new _
  let s₂ : MKServer :=
    { new "s" 2 with gameServer := ((GameServer.new "s").onNewClient "a").onNewClient "b" }
  have h₁ : (new "s" 2).step (.accept "a") =
      .ok { new "s" 2 with gameServer := (GameServer.new "s").onNewClient "a" } := rfl
  have h₂ : ({ new "s" 2 with gameServer := (GameServer.new "s").onNewClient "a" } : MKServer).step
      (.accept "b") = .ok s₂ := rfl
  have hinv₂ : Inv 2 s₂ := inv_step (inv_step (inv_new "s" (by decide)) h₁) h₂
  -- the first connection
  obtain ⟨buffer, hb, hstored⟩ := hinv₂.storeRead_ok (c := 0)
    (room rfl (by decide) : (pingOfFive.frame ++ moveOfFive.frame).length ≤ _)
  have hheld₃ := hstored.trans (congrArg (· ++ (pingOfFive.frame ++ moveOfFive.frame)) (held_new rfl))
  have h₃ := step_read (s := s₂) (c := 0) rfl rfl rfl hb
  have hc₃ : (s₂.stored 0 buffer).gameServer.armedConn 0 = some (openConn "a" 0) := rfl
  obtain ⟨h₄, hheld₄, hinv₄⟩ := (hinv₂.stored hb).turn_frame rfl hc₃ (m := pingOfFive) ⟨rfl, rfl⟩ hheld₃
  have hc₄ : ((s₂.stored 0 buffer).handedOn 0 (openConn "a" 0) pingOfFive).gameServer.armedConn 0 =
    some (openConn "a" 5) := rfl
  obtain ⟨h₅, hheld₅, hinv₅⟩ := hinv₄.turn_frame rfl hc₄ (m := moveOfFive) ⟨rfl, rfl⟩
    (hheld₄.trans (List.append_nil _).symm)
  let s₆ : MKServer :=
    { ((s₂.stored 0 buffer).handedOn 0 (openConn "a" 0) pingOfFive).handedOn 0 (openConn "a" 5) moveOfFive
      with decoding := none }
  have h₆ : _ = Except.ok s₆ := hinv₅.turn_more (c := 0) rfl (rfl : _ = some (openConn "a" 5))
    (by rw [hheld₅]; rfl)
  have hinv₆ : Inv 2 s₆ := inv_step hinv₅ h₆
  -- the second one
  obtain ⟨buffer', hb', hstored⟩ := hinv₆.storeRead_ok (c := 1)
    (room rfl (by decide) : requestOfSix.frame.length ≤ _)
  have hheld₇ := hstored.trans (congrArg (· ++ requestOfSix.frame) (held_new rfl))
  have h₇ := step_read (s := s₆) (c := 1) rfl rfl rfl hb'
  obtain ⟨h₈, hheld₈, hinv₈⟩ := (hinv₆.stored hb').turn_frame rfl
    (rfl : _ = some (openConn "b" 0)) (m := requestOfSix) ⟨rfl, rfl⟩ (t := [])
    (hheld₇.trans (List.append_nil _).symm)
  have h₉ := hinv₈.turn_more (c := 1) rfl (rfl : _ = some (openConn "b" 6))
    (by rw [hheld₈]; rfl)
  refine ⟨_, run_cons_eq_ok.mpr ⟨_, h₁, run_cons_eq_ok.mpr ⟨_, h₂, run_cons_eq_ok.mpr ⟨_, h₃,
    run_cons_eq_ok.mpr ⟨_, h₄, run_cons_eq_ok.mpr ⟨_, h₅, run_cons_eq_ok.mpr ⟨_, h₆,
    run_cons_eq_ok.mpr ⟨_, h₇, run_cons_eq_ok.mpr ⟨_, h₈, run_cons_eq_ok.mpr ⟨_, h₉, rfl⟩⟩⟩⟩⟩⟩⟩⟩⟩,
    inv_step hinv₈ h₉, ?_, rfl⟩
  refine along trivial h₁ (along trivial h₂ (along trivial h₃ (along ?_ h₄ (along ?_ h₅ (along ?_ h₆
    (along trivial h₇ (along ?_ h₈ (along ?_ h₉ eachStep_nil))))))))
  · intro c conn hdec hc
    cases hdec
    cases hc
    rw [if_pos rfl, hheld₃]
    rintro - - (_ | _ | c') conn' hne harmed
    · exact absurd rfl hne
    · cases harmed
      decide
    · cases harmed
  · intro c conn hdec hc
    cases hdec
    cases hc
    rw [if_neg (by decide), hheld₄]
    exact fun _ => by decide
  · intro c conn hdec hc
    cases hdec
    cases hc
    rw [if_neg (by decide), hheld₅]
    exact fun hacc => absurd hacc.whole (by decide)
  · intro c conn hdec hc
    cases hdec
    cases hc
    rw [if_pos rfl, hheld₇]
    rintro - - (_ | _ | c') conn' hne harmed
    · cases harmed
      decide
    · exact absurd rfl hne
    · cases harmed
  · intro c conn hdec hc
    cases hdec
    cases hc
    rw [if_neg (by decide), hheld₈]
    exact fun hacc => absurd hacc.whole (by decide)

theorem own_role_twoConnections :
    (∃ s, run step (new "s" 2) (twoReads ++ twoWorkers) = .ok s ∧
      s.recvMsgDispatcher.handled.map (·.msg.baseMessagePtr) = [pingOfFive, requestOfSix, moveOfFive]) ∧
    Always step SpeaksForItself (new "s" 2) (twoReads ++ twoWorkers) ∧
      EachStep step OwnHandOn (new "s" 2) (twoReads ++ twoWorkers) := by
  obtain ⟨s, hs, hinv, hkeeps, hrecv⟩ := run_twoReads
  have hroles : ∀ x ∈ s.pushed, x.note.roleId ≠ 0 := by
    unfold pushed
    rw [hrecv]
    decide
  refine ⟨?_, (own_role_iff "s" (by decide) _).mpr (hkeeps.append fun t ht => ?_)⟩
  · obtain ⟨gameServer, buffers, decoding, recv⟩ := s
    cases hrecv
    exact ⟨_, run_append_eq_ok.mpr ⟨_, hs, rfl⟩, rfl⟩
  · rw [hs] at ht
    cases ht
    refine eachStep_workers hinv hroles fun e he => ?_
    simp only [twoWorkers, List.mem_cons, List.not_mem_nil, or_false] at he
    rcases he with rfl | rfl | rfl | rfl | rfl | rfl
    exacts [⟨_, .inl rfl⟩, ⟨_, .inl rfl⟩, ⟨_, .inr rfl⟩, ⟨_, .inr rfl⟩, ⟨_, .inl rfl⟩, ⟨_, .inr rfl⟩]

end MKServer

end GameNetwork
