import GameNetwork.Lib.Progress
import GameNetwork.Network.Pending
import GameNetwork.Session.Carried

/-!
# What is sent can be served

Wherever a game has come to, the threads, the workers and the connections can
go on without another call of a player, within the contract (`Way`): what the
players have sent is transferred, read and decoded (`up_way`), the main thread
records and sends what the room has collected (`main_way`), and the workers of
the server serve what has come to it (`serve_way`).
-/

namespace GameNetwork

open Lib

/-- An event of the threads, the workers and the connections, and not of a player. -/
def SessionEvent.Internal : SessionEvent → Prop
  | .connect _ | .accept _ | .client _ (.call _) => False
  | _ => True

namespace RoomThreads

/-- The statements of `Update` that are still to come until there is nothing to record. -/
def statements (s : RoomThreads) : Nat :=
  let again := if s.room.controlMsg = [] then 0 else 2 * s.room.controlMsg.length + 4
  match s.main with
  | .outside => again
  | .swap => 2 * s.room.controlMsg.length + 3
  | .record => 2 * s.room.sendMsg.length + 2 + again
  | .loop todo => 2 * todo.length + 1 + again
  | .send _ todo => 2 * todo.length + 2 + again

theorem statements_stepMain {s : RoomThreads} (h : s.InputsInOrder)
    (hnot : ¬ (s.main = .outside ∧ s.room.controlMsg = [])) : s.stepMain.statements < s.statements := by
  cases hpc : s.main with
  | outside =>
    have hsome : s.room.controlMsg ≠ [] := fun hnil => hnot ⟨hpc, hnil⟩
    have hstep : s.stepMain.statements = 2 * s.room.controlMsg.length + 3 := by
      simp only [stepMain, hpc, statements]
      rfl
    rw [hstep]
    simp only [statements, hpc, if_neg hsome]
    omega
  | swap =>
    -- what is swapped in is empty
    have hcleared := h.cleared (.inr hpc)
    have hstep : s.stepMain.statements = 2 * s.room.controlMsg.length + 2 := by
      simp only [stepMain, hpc, statements]
      show 2 * s.room.controlMsg.length + 2 +
        (if s.room.sendMsg = [] then 0 else 2 * s.room.sendMsg.length + 4) = _
      rw [if_pos hcleared, Nat.add_zero]
    rw [hstep]
    simp only [statements, hpc]
    omega
  | record =>
    simp only [stepMain, hpc, statements]
    exact Nat.add_lt_add_right (Nat.lt_succ_self _) _
  | loop todo =>
    cases todo with
    | nil =>
      simp only [stepMain, hpc, statements]
      exact Nat.lt_add_of_pos_left (Nat.succ_pos _)
    | cons input todo =>
      simp only [stepMain, hpc, statements, List.length_cons]
      exact Nat.add_lt_add_right (by omega) _
  | send input todo =>
    simp only [stepMain, hpc, broadcast, GameServerExample.broadcast, GameServerExample.sendMessageByRoleIds_eq,
      statements]
    exact Nat.add_lt_add_right (Nat.lt_succ_self _) _

end RoomThreads

namespace Session

/-- Every write of the players and of the server is done, or can go on. -/
def CanGoOn (s : Session) : Prop :=
  ∀ i < s.clients.length, ∀ client ∈ s.clients[i]?, client.sending.CanGoOn 0 ∧ s.sending.CanGoOn i

instance (s : Session) : Decidable s.CanGoOn :=
  inferInstanceAs (Decidable (∀ i < s.clients.length, ∀ client ∈ s.clients[i]?, _))

/-- A game that can go on. -/
structure Lively (s : Session) : Prop where
  sound : s.Sound
  goesOn : s.CanGoOn
  accepted : s.server.gameServer.conns.length = s.clients.length

/-- The threads, the workers and the connections go on, within the contract, and `EnterRoom` is served
between two calls of `Update`. -/
def GoesOn (s : Session) (e : SessionEvent) : Prop := e.Internal ∧ s.WithinContract e ∧ s.BetweenUpdates e

/-- The threads, the workers and the connections can bring the game to where `P` holds, unless a promise
is set twice. -/
def Way (P : Session → Prop) (s : Session) : Prop :=
  CanReach step GoesOn (· = Fault.promiseAlreadySatisfied) P s

section Way

variable {s : Session} {P : Session → Prop} {i : ConnId} {client client' : ConnectedClient}

theorem Lively.go (h : s.Lively) (hi : s.clients[i]? = some client) :
    client.sending.CanGoOn 0 ∧ s.sending.CanGoOn i :=
  h.goesOn i (List.getElem?_eq_some_iff.mp hi).1 client hi

theorem fewCalls_of_internal {e : SessionEvent} (he : e.Internal) : s.FewCalls e := by
  cases e with
  | client i e =>
    cases e with
    | call call => exact he.elim
    | _ => trivial
  | _ => trivial

/-- One event. -/
theorem Lively.single (h : s.Lively) {e : SessionEvent} (he : e.Internal) (hc : s.WithinContract e)
    (hb : s.BetweenUpdates e) (hok : ∀ t, s.step e = .ok t → t.Sound → P t) : s.Way P := by
  have hfew := s.fewCalls_of_internal he
  exact CanReach.single ⟨he, hc, hb⟩ (fun t ht => hok t ht (sound_step h.sound hc hfew ht))
    (step_ok_iff h.sound hc hfew).2

/-- Only the room, the dispatchers and the receive loops change. -/
theorem Lively.of_same {t : Session} (h : s.Lively) (hsound : t.Sound) (hclients : t.clients = s.clients)
    (hsending : t.sending = s.sending)
    (hconns : t.server.gameServer.conns.length = s.server.gameServer.conns.length) : t.Lively := by
  refine ⟨hsound, ?_, ?_⟩
  · unfold CanGoOn
    rw [hclients, hsending]
    exact h.goesOn
  · rw [hclients, hconns]
    exact h.accepted

/-- One player changes. -/
theorem Lively.setClient (h : s.Lively) (hi : s.clients[i]? = some client)
    (hsound : ({ s with clients := s.clients.set i client' } : Session).Sound)
    (hgo : client'.sending.CanGoOn 0) : ({ s with clients := s.clients.set i client' } : Session).Lively := by
  refine ⟨hsound, fun j hj other hother => ?_, h.accepted.trans (List.length_set ..).symm⟩
  by_cases hji : j = i
  · subst hji
    rw [List.getElem?_set_self (List.getElem?_eq_some_iff.mp hi).1] at hother
    cases hother
    exact ⟨hgo, (h.go hi).2⟩
  · rw [List.getElem?_set_ne (Ne.symm hji)] at hother
    exact h.go hother

/-- A sum over the players, of whom one changes. -/
theorem sum_setClient {f : Session → ConnId → Nat} (hi : s.clients[i]? = some client)
    (hother : ∀ j, i ≠ j → f { s with clients := s.clients.set i client' } j = f s j)
    (hone : f { s with clients := s.clients.set i client' } i < f s i) :
    ∑ j ∈ Finset.range (s.clients.set i client').length, f { s with clients := s.clients.set i client' } j <
      ∑ j ∈ Finset.range s.clients.length, f s j := by
  rw [List.length_set]
  exact sum_lt_of_one (List.getElem?_eq_some_iff.mp hi).1 (fun j hj => hother j (Ne.symm hj)) hone

end Way

/-! ## What the players have sent -/

/-- What is still to be done of what player `i` has sent. -/
def upToDo (s : Session) (i : ConnId) : Nat :=
  s.clients[i]?.elim 0 fun client => toDo (client.sending.unsent 0).length
    ((client.sending.sockets 0).transferred.length - s.read i) (s.server.buffers i)
    (decide (s.server.decoding = some i))

/-- All that the players have sent is read and decoded. -/
structure UpDone (s : Session) : Prop where
  ended : s.server.decoding = none
  read : ∀ i client, s.clients[i]? = some client →
    client.sending.Idle 0 ∧ s.read i = (client.sending.sockets 0).transferred.length

section Up

variable {s : Session} {i : ConnId} {client : ConnectedClient}

/-- A player has its write done. -/
theorem Lively.up_transfer (h : s.Lively) (hi : s.clients[i]? = some client) (hbusy : ¬ client.sending.Idle 0) :
    s.Way fun t => t.Lively ∧ ∑ j ∈ Finset.range t.clients.length, t.upToDo j <
      ∑ j ∈ Finset.range s.clients.length, s.upToDo j := by
  obtain ⟨a, ⟨sent, hsim⟩, -⟩ := h.sound
  obtain ⟨hinv, up, queued, rest, ⟨⟨sentUp, hstreams, hwire⟩, -, -⟩, -, -⟩ := hsim.players i client hi
  obtain ⟨j, n, w, htransferring, hscope, hgo, hsum, hlt⟩ := hstreams.transfer_rest (h.go hi).1 hbusy
  have hstep : client.step (.io (.transfer 0 j n)) =
      .ok { client with sending := client.sending.transfer 0 j n w } := by
    show (client.sending.step (.transfer 0 j n)).bind _ = _
    rw [Sending.step, htransferring]
    rfl
  refine h.single (e := .client i (.io (.transfer 0 j n))) trivial ?_ trivial fun t ht hsound => ?_
  · intro client' hclient' v hv
    cases hi.symm.trans hclient'
    cases htransferring.symm.trans hv
    exact hscope
  · cases (onClient_ok hi hstep).symm.trans ht
    refine ⟨h.setClient hi hsound (hgo 0 (h.go hi).1), ?_⟩
    refine sum_setClient hi (fun j hj => ?_) ?_
    · unfold upToDo
      rw [List.getElem?_set_ne hj]
    · unfold upToDo
      rw [List.getElem?_set_self (List.getElem?_eq_some_iff.mp hi).1, hi]
      refine toDo_transfer ?_ hlt _ _
      show _ + (((client.sending.transfer 0 j n w).sockets 0).transferred.length - s.read i) ≤ _
      omega

/-- The server goes on at one connection. -/
theorem Lively.upToDo_server {server : MKServer} {read : ConnId → Nat} (h : s.Lively)
    (hi : s.clients[i]? = some client)
    (hsound : ({ s with server := server, read := read } : Session).Sound)
    (hconns : server.gameServer.conns.length = s.server.gameServer.conns.length)
    (hread : ∀ j, j ≠ i → read j = s.read j) (hbuffers : ∀ j, j ≠ i → server.buffers j = s.server.buffers j)
    (hdecoding : ∀ j, j ≠ i → decide (server.decoding = some j) = decide (s.server.decoding = some j))
    (hlt : toDo (client.sending.unsent 0).length ((client.sending.sockets 0).transferred.length - read i)
        (server.buffers i) (decide (server.decoding = some i)) < s.upToDo i) :
    ({ s with server := server, read := read } : Session).Lively ∧
      ∑ j ∈ Finset.range s.clients.length, ({ s with server := server, read := read } : Session).upToDo j <
        ∑ j ∈ Finset.range s.clients.length, s.upToDo j := by
  refine ⟨h.of_same hsound rfl rfl hconns, ?_⟩
  refine sum_lt_of_one (List.getElem?_eq_some_iff.mp hi).1 (fun j hj => ?_) ?_
  · simp only [upToDo, hread j hj, hbuffers j hj, hdecoding j hj]
  · unfold upToDo at hlt ⊢
    rw [hi] at hlt ⊢
    exact hlt

/-- **The loop of `OnNewData` goes round**, on the server. -/
theorem Lively.up_turn (h : s.Lively) (hdec : s.server.decoding = some i) :
    s.Way fun t => t.Lively ∧ ∑ j ∈ Finset.range t.clients.length, t.upToDo j <
      ∑ j ∈ Finset.range s.clients.length, s.upToDo j := by
  obtain ⟨a, ⟨sent, hsim⟩, -⟩ := h.sound
  have hlt := hsim.table.decoding i hdec
  obtain ⟨conn, name, hconn, hname, hconnRole⟩ := hsim.table.conn i hlt
  obtain ⟨client, hi⟩ : ∃ client, s.clients[i]? = some client :=
    ⟨_, List.getElem?_eq_getElem (h.accepted ▸ hlt)⟩
  obtain ⟨hinv, up, queued, rest, ⟨⟨sentUp, hstreams, hwire⟩, hwaits, hown⟩, -, -⟩ := hsim.players i client hi
  refine h.single (e := .turn) trivial trivial trivial fun t ht hsound => ?_
  rcases hwire.front with ⟨m, up', rest', rfl, hheld, -⟩ | ⟨hmore, -⟩
  · obtain ⟨hm, hrole⟩ := hown m List.mem_cons_self
    have hroles : s.roles[i]? = some m.base.roleId := by
      rw [hrole]
      exact roles_getElem? hi
    have hnonzero : m.base.roleId ≠ 0 := fun heq => hsim.nonzero (heq ▸ List.mem_of_getElem? hroles)
    obtain ⟨hstep, hheld', -⟩ := hsim.table.inv.turn_frame hdec hconn hm.constructed hheld
    have htook := hsim.table.tookRole hconn hroles hnonzero
    have hstep' : s.step .turn = .ok { s with server := s.server.handedOn i conn m } := by
      simp only [step, hstep]
      rfl
    cases hstep'.symm.trans ht
    refine h.upToDo_server hi hsound htook.conns (fun _ _ => rfl) (fun j hj => Function.update_of_ne hj ..)
      (fun _ _ => rfl) ?_
    unfold upToDo
    rw [hi]
    have hbuffer : (s.server.handedOn i conn m).buffers i =
        (s.server.buffers i).addReadIndex ((Frame.packSize (s.server.held i)).toNat + 4) :=
      Function.update_self ..
    rw [hbuffer]
    refine toDo_frame ?_ _
    rw [← hbuffer]
    show ((s.server.handedOn i conn m).held i).length < (s.server.held i).length
    rw [hheld', hheld, List.length_append, length_frame hm.constructed]
    exact Nat.lt_add_of_pos_left (by decide)
  · have hstep := hsim.table.inv.turn_more hdec hconn hmore
    have hstep' : s.step .turn = .ok { s with server := { s.server with decoding := none } } := by
      simp only [step, hstep]
      rfl
    cases hstep'.symm.trans ht
    refine h.upToDo_server hi hsound rfl (fun _ _ => rfl) (fun _ _ => rfl) (fun j hj => ?_) ?_
    · rw [hdec]
      simp [Ne.symm hj]
    · unfold upToDo
      rw [hi, hdec]
      simpa using toDo_more _

/-- The server reads. -/
theorem Lively.up_read (h : s.Lively) (hdec : s.server.decoding = none) (hi : s.clients[i]? = some client)
    (hunread : s.read i < (client.sending.sockets 0).transferred.length) :
    s.Way fun t => t.Lively ∧ ∑ j ∈ Finset.range t.clients.length, t.upToDo j <
      ∑ j ∈ Finset.range s.clients.length, s.upToDo j := by
  obtain ⟨a, ⟨sent, hsim⟩, -⟩ := h.sound
  have hlt : i < s.server.gameServer.conns.length := h.accepted ▸ (List.getElem?_eq_some_iff.mp hi).1
  obtain ⟨conn, name, hconn, hname, hconnRole⟩ := hsim.table.conn i hlt
  obtain ⟨hinv, up, queued, rest, ⟨⟨sentUp, hstreams, hwire⟩, hwaits, hown⟩, -, -⟩ := hsim.players i client hi
  have hready := hsim.table.inv.ready i conn.game
  let bytes := s.upBytes i client (s.server.buffers i).writableSize
  have hlen : bytes.length = min ((client.sending.sockets 0).transferred.length - s.read i)
      (s.server.buffers i).writableSize := by
    simp only [bytes, upBytes, List.length_take, List.length_drop]
    exact Nat.min_comm _ _
  have hle : bytes.length ≤ (s.server.buffers i).writableSize := hlen ▸ Nat.min_le_right _ _
  refine h.single (e := .read i (s.server.buffers i).writableSize) trivial ?_ trivial fun t ht hsound => ?_
  · intro client' hclient'
    cases hi.symm.trans hclient'
    exact hle
  · have hb : (s.server.buffers i).storeRead bytes =
        .ok (Receiver.arrived ⟨conn.game, s.server.buffers i⟩ bytes) := by
      have hstore := Receiver.storeRead_eq hready bytes
      rw [if_pos hle] at hstore
      exact hstore
    have hstep := MKServer.step_read hdec hconn (hsim.table.owned hconn) hb
    have hstep' : s.step (.read i (s.server.buffers i).writableSize) = .ok { s with
        server := s.server.stored i (Receiver.arrived ⟨conn.game, s.server.buffers i⟩ bytes)
        read := Function.update s.read i (s.read i + bytes.length) } := by
      have hcond : ¬ (s.server.decoding.isSome = true ∨ s.server.gameServer.armedConn i = none) := by
        rw [hdec, hconn]
        simp
      simp only [step, hi, readFrom, if_neg hcond]
      rw [show s.upBytes i client (s.server.buffers i).writableSize = bytes from rfl, hstep]
      rfl
    cases hstep'.symm.trans ht
    refine h.upToDo_server hi hsound rfl (fun j hj => Function.update_of_ne hj ..)
      (fun j hj => Function.update_of_ne hj ..) (fun j hj => ?_) ?_
    · rw [hdec]
      simp [MKServer.stored, Ne.symm hj]
    · have hwaiting : Waits (s.server.held i) up :=
        hwaits.resolve_left (by rw [hdec]; exact fun heq => (by cases heq))
      have hsmall : (s.server.held i).length < defaultBufferSize :=
        Nat.lt_trans (hwire.held_lt hwaiting) (by decide)
      have hread := toDo_read (client.sending.unsent 0).length hready hsmall hlen (by omega)
      unfold upToDo
      rw [hi, Function.update_self, hdec]
      have hbuffer : (s.server.stored i (Receiver.arrived ⟨conn.game, s.server.buffers i⟩ bytes)).buffers i =
          Receiver.arrived ⟨conn.game, s.server.buffers i⟩ bytes := Function.update_self ..
      rw [hbuffer, ← Nat.sub_sub]
      simpa [MKServer.stored] using hread

/-- **All that the players have sent is read and decoded.** -/
theorem Lively.up_way (h : s.Lively) : s.Way fun t => t.Lively ∧ t.UpDone := by
  refine CanReach.of_measure (fun s => ∑ i ∈ Finset.range s.clients.length, s.upToDo i) (fun s h => ?_) h
  by_cases hbusy : ∃ (i : ConnId) (client : ConnectedClient),
      s.clients[i]? = some client ∧ ¬ client.sending.Idle 0
  · obtain ⟨i, client, hi, hbusy⟩ := hbusy
    exact .inr (h.up_transfer hi hbusy)
  cases hdec : s.server.decoding with
  | some i => exact .inr (h.up_turn hdec)
  | none =>
    by_cases hunread : ∃ (i : ConnId) (client : ConnectedClient), s.clients[i]? = some client ∧
        s.read i < (client.sending.sockets 0).transferred.length
    · obtain ⟨i, client, hi, hunread⟩ := hunread
      exact .inr (h.up_read hdec hi hunread)
    · refine .inl ⟨hdec, fun i client hi => ?_⟩
      have hidle : client.sending.Idle 0 := by
        by_contra hnot
        exact hbusy ⟨i, client, hi, hnot⟩
      refine ⟨hidle, Nat.le_antisymm ?_ (Nat.le_of_not_lt fun hlt => hunread ⟨i, client, hi, hlt⟩)⟩
      obtain ⟨a, ⟨sent, hsim⟩, -⟩ := h.sound
      obtain ⟨hinv, up, queued, rest, ⟨⟨sentUp, hstreams, hwire⟩, -, -⟩, -, -⟩ := hsim.players i client hi
      rw [← length_of_idle hstreams hidle]
      exact hwire.read_le

end Up

/-! ## What the room has collected -/

/-- Only the room and the send dispatcher are different. -/
structure OnRoom (s t : Session) : Prop where
  server : t.server = s.server
  sending : t.sending = s.sending
  read : t.read = s.read
  clients : t.clients = s.clients

section Main

variable {s t : Session}

theorem OnRoom.trans {u : Session} (h : OnRoom s t) (h' : OnRoom t u) : OnRoom s u :=
  ⟨h'.server.trans h.server, h'.sending.trans h.sending, h'.read.trans h.read, h'.clients.trans h.clients⟩

theorem sendMessageByRoleId_onRoom {r : RoleId} {post : Post} (ht : s.sendMessageByRoleId r post = .ok t) :
    OnRoom s t ∧ t.room = s.room := by
  obtain ⟨m, -, hpush⟩ := bind_eq_ok.mp ht
  obtain ⟨d, -, hret⟩ := bind_eq_ok.mp hpush
  cases hret
  exact ⟨⟨rfl, rfl, rfl, rfl⟩, rfl⟩

theorem sendAll_onRoom {posts : List (RoleId × Post)} (ht : s.sendAll posts = .ok t) :
    OnRoom s t ∧ t.room = s.room := by
  induction posts generalizing s with
  | nil =>
    cases ht
    exact ⟨⟨rfl, rfl, rfl, rfl⟩, rfl⟩
  | cons post posts ih =>
    rw [sendAll, List.foldlM_cons] at ht
    obtain ⟨s', hs', ht⟩ := bind_eq_ok.mp ht
    obtain ⟨hfirst, hroom⟩ := sendMessageByRoleId_onRoom hs'
    obtain ⟨hrest, hroom'⟩ := ih ht
    exact ⟨hfirst.trans hrest, hroom'.trans hroom⟩

/-- What a function of the room leaves alone. -/
theorem onRoom_onRoom {e : RoomEvent} (ht : s.onRoom e = .ok t) :
    OnRoom s t ∧ RoomThreads.step s.room e = .ok t.room := by
  obtain ⟨room, hstep, hsend⟩ := bind_eq_ok.mp ht
  obtain ⟨hsame, hroom⟩ := sendAll_onRoom hsend
  refine ⟨⟨hsame.server, hsame.sending, hsame.read, hsame.clients⟩, ?_⟩
  rw [hroom]
  exact hstep

theorem UpDone.of_same (h : s.UpDone) (hclients : t.clients = s.clients) (hread : t.read = s.read)
    (hdecoding : t.server.decoding = s.server.decoding) : t.UpDone := by
  refine ⟨hdecoding.trans h.ended, fun i client hi => ?_⟩
  rw [hread]
  exact h.read i client (hclients ▸ hi)

/-- **All that the room has collected is recorded and sent.** -/
theorem Lively.main_way (h : s.Lively) (hup : s.UpDone) :
    s.Way fun t => t.Lively ∧ t.UpDone ∧ t.server = s.server ∧ t.room.main = .outside ∧
      t.room.room.controlMsg = [] := by
  refine (CanReach.of_measure (I := fun t => t.Lively ∧ t.UpDone ∧ t.server = s.server)
    (P := fun t => t.room.main = .outside ∧ t.room.room.controlMsg = []) (fun t => t.room.statements)
    (fun t ⟨ht, hup, hserver⟩ => ?_) ⟨h, hup, rfl⟩).mono fun t ht => ⟨ht.1.1, ht.1.2.1, ht.1.2.2, ht.2⟩
  by_cases hdone : t.room.main = .outside ∧ t.room.room.controlMsg = []
  · exact .inl hdone
  right
  obtain ⟨a, ⟨sent, hsim⟩, -⟩ := ht.sound
  refine ht.single (e := .main) trivial trivial trivial fun u hu hsound => ?_
  obtain ⟨hsame, hstep⟩ := onRoom_onRoom hu
  have hroom : u.room = t.room.stepMain := (Except.ok.inj hstep).symm
  refine ⟨⟨ht.of_same hsound hsame.clients hsame.sending (by rw [hsame.server]),
    hup.of_same hsame.clients hsame.read (by rw [hsame.server]), hsame.server.trans hserver⟩, ?_⟩
  rw [hroom]
  exact RoomThreads.statements_stepMain hsim.given.toRoomOk.order hdone

end Main

/-! ## What the server serves -/

section Serve

variable {s t : Session}

/-- A callback does not go into the main thread. -/
theorem callback_onRoom {func : CallbackId} {r : RoleId} {m : Message} {now : BitVec 64}
    (ht : s.callback func r m now = .ok t) : OnRoom s t ∧ t.room.main = s.room.main := by
  unfold callback at ht
  split at ht
  · obtain ⟨hsame, hroom⟩ := sendMessageByRoleId_onRoom ht
    exact ⟨hsame, by rw [hroom]⟩
  · obtain ⟨hsame, hstep⟩ := onRoom_onRoom ht
    exact ⟨hsame, by rw [← Except.ok.inj hstep]⟩
  · obtain ⟨hsame, hstep⟩ := onRoom_onRoom ht
    exact ⟨hsame, by rw [← Except.ok.inj hstep]⟩
  · cases ht
    exact ⟨⟨rfl, rfl, rfl, rfl⟩, rfl⟩
  · cases ht

/-- A dispatch takes its message from its worker. -/
theorem dispatch_onRoom (h : s.server.Inv 10) {k : Nat} {x : Traced Origin} {now : BitVec 64}
    (hk : s.server.recvMsgDispatcher.current k = some x) (ht : s.dispatch k now = .ok t) :
    OnRoom { s with server := { s.server with
      recvMsgDispatcher := s.server.recvMsgDispatcher.finished k x } } t ∧ t.room.main = s.room.main := by
  unfold dispatch at ht
  rw [hk] at ht
  obtain ⟨⟨func, d⟩, -, ht⟩ := bind_eq_ok.mp ht
  obtain ⟨server, hserver, ht⟩ := bind_eq_ok.mp ht
  have hstep := h.step_dispatch k
  rw [hk] at hstep
  cases hserver.symm.trans hstep
  cases func with
  | some func => exact callback_onRoom ht
  | none =>
    cases ht
    exact ⟨⟨rfl, rfl, rfl, rfl⟩, rfl⟩

/-- The workers of the server have nothing. -/
def Served (s : Session) : Prop := s.server.recvMsgDispatcher.waiting = []

/-- **All that has come to the server is served**, between two calls of `Update`. -/
theorem Lively.serve_way (h : s.Lively) (hup : s.UpDone) (hmain : s.room.main = .outside) :
    s.Way fun t => (t.Lively ∧ t.UpDone ∧ t.room.main = .outside) ∧ t.Served := by
  refine CanReach.of_measure (fun s => s.server.recvMsgDispatcher.waiting.length)
    (fun s ⟨h, hup, hmain⟩ => ?_) ⟨h, hup, hmain⟩
  by_cases hnone : s.server.recvMsgDispatcher.waiting = []
  · exact .inl hnone
  right
  obtain ⟨k, x, hk⟩ := TracedDispatcher.exists_current hnone
  -- the worker takes its message, if it has none
  refine (h.single (e := .tryPop k) (P := fun t => t.Lively ∧ t.UpDone ∧ t = { s with server := { s.server with
    recvMsgDispatcher := s.server.recvMsgDispatcher.tryPop k } }) trivial trivial trivial
    fun t ht hsound => ?_).trans ?_
  · cases ht
    exact ⟨h.of_same hsound rfl rfl rfl, hup.of_same rfl rfl rfl, rfl⟩
  · rintro t ⟨ht, hup', rfl⟩
    refine ht.single (e := .dispatch k 0) trivial trivial (fun _ _ _ => hmain) fun u hu hsound => ?_
    obtain ⟨a, ⟨sent, hsim⟩, -⟩ := ht.sound
    obtain ⟨hsame, hmain'⟩ := dispatch_onRoom hsim.table.inv hk hu
    refine ⟨⟨ht.of_same hsound hsame.clients hsame.sending (by rw [hsame.server]),
      hup'.of_same hsame.clients hsame.read (by rw [hsame.server]), hmain'.trans hmain⟩, ?_⟩
    rw [hsame.server]
    refine Nat.lt_of_lt_of_eq (TracedDispatcher.length_waiting_finished hk) ?_
    exact congrArg List.length (TracedDispatcher.waiting_tryPop _ k)

end Serve

end Session

end GameNetwork
