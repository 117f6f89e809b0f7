import GameNetwork.Session.EndToEnd
import GameNetwork.Session.Served

/-!
# Nothing gets stuck

What the server gives out can be written (`post_way`), read by the players
(`down_way`) and dispatched (`receive_way`). With what it has been sent
(`Session/Served.lean`), a game can come to rest from wherever it is, unless a
promise is set twice, and then everything has arrived (`nothing_gets_stuck`).
-/

namespace GameNetwork

open Lib

namespace ConnectedClient

variable {s s' : ConnectedClient} {sent queued rest : List Message}

/-- A turn of a player's loop leaves less to be done. -/
theorem toDo_turn (h : s.Inv) (hbox : s.Inbox sent queued rest) (hdec : s.decoding = true)
    (ht : s.turn = .ok s') (unsent unread : Nat) : s'.read = s.read ∧
      toDo unsent unread s'.receiver.buffer s'.decoding < toDo unsent unread s.receiver.buffer s.decoding := by
  rw [hdec]
  rcases turn_cases h hbox hdec with ⟨m, rest', t, rfl, hheld, -, hturn⟩ | ⟨-, hturn⟩
  · cases hturn.symm.trans ht
    refine ⟨rfl, toDo_frame ?_ _⟩
    rw [Buffer.readable_addReadIndex h.ready.valid, show s.receiver.buffer.readable = m.frame ++ t from hheld,
      List.drop_left, List.length_append, length_frame (hbox.wire.constructed m List.mem_cons_self)]
    exact Nat.lt_add_of_pos_left (by decide)
  · cases hturn.symm.trans ht
    exact ⟨rfl, toDo_more _⟩

/-- A read of a player's, of as much as there is room for. -/
theorem toDo_receive (h : s.Inv) (hbox : s.Inbox sent queued rest) (hdec : s.decoding = false)
    {bytes : List Byte} {unread : Nat} (hlen : bytes.length = min unread s.receiver.buffer.writableSize)
    (hunread : 0 < unread) (ht : s.receive bytes = .ok s') (unsent : Nat) : s'.sending = s.sending ∧ s'.read = s.read + bytes.length ∧
      toDo unsent (unread - bytes.length) s'.receiver.buffer s'.decoding <
        toDo unsent unread s.receiver.buffer s.decoding := by
  have hle : bytes.length ≤ s.receiver.buffer.writableSize := hlen ▸ Nat.min_le_right _ _
  have hwaits : Waits s.held rest := hbox.waits.resolve_left (by rw [hdec]; exact Bool.false_ne_true)
  have hsmall : s.held.length < defaultBufferSize := Nat.lt_trans (hbox.wire.held_lt hwaits) (by decide)
  unfold receive at ht
  rw [hdec, if_neg Bool.false_ne_true, Receiver.storeRead_eq h.ready, if_pos hle] at ht
  cases ht
  rw [hdec]
  exact ⟨rfl, rfl, toDo_read unsent h.ready hsmall hlen hunread⟩

/-- The worker has a message to dispatch, if there is any. -/
theorem exists_dispatching (h : s.Inv) (hsome : s.queue ≠ []) : ∃ msg, s.tryPop.dispatching = some msg := by
  obtain ⟨t, ht⟩ := h.worker
  have hitems : (Dispatching.lane t).items ≠ [] := by
    rw [queue, ht, List.flatMap_singleton] at hsome
    exact hsome
  obtain ⟨msg, hmsg⟩ := Lane.current_take hitems
  refine ⟨msg, ?_⟩
  rw [← Dispatching.lane_tryPop] at hmsg
  rw [← hmsg]
  show (s.app.recvMsgDispatcher.msgThreads.modify 0 _)[0]?.bind _ = _
  rw [ht]
  rfl

/-- A dispatch is of the game alone, and leaves one message less. -/
theorem queue_dispatch (h : s.Inv) (hbox : s.Inbox sent queued rest) (hsome : s.queue ≠ []) {now : BitVec 64}
    (ht : s.tryPop.dispatch now = .ok s') : s'.sending = s.sending ∧ s'.read = s.read ∧
      s'.decoding = s.decoding ∧ s'.queue.length < s.queue.length := by
  obtain ⟨msg, hmsg⟩ := exists_dispatching h hsome
  obtain ⟨hinv, hbox', -⟩ := tryPop_ok h hbox
  rcases dispatch_ok hinv hbox' now with
    ⟨hnone, -⟩ | ⟨m, queued', rfl, -, ⟨e, -, he⟩ | ⟨s'', -, hs'', -, hbox'', -⟩⟩
  · cases hnone.symm.trans hmsg
  · cases he.symm.trans ht
  cases hs''.symm.trans ht
  have hlt : s'.queue.length < s.queue.length := by
    rw [hbox''.queue, hbox.queue, List.length_map, List.length_map]
    exact Nat.lt_succ_self _
  unfold dispatch at ht
  rw [hmsg] at ht
  obtain ⟨app, -, hret⟩ := bind_eq_ok.mp ht
  cases hret
  exact ⟨rfl, rfl, rfl, hlt⟩

end ConnectedClient

namespace Session

/-! ## What the room has sent -/

/-- The server has nothing to do but to send. -/
structure Handled (s : Session) : Prop extends UpDone s where
  served : s.Served
  main : s.room.main = .outside
  recorded : s.room.room.controlMsg = []

section Post

variable {s t : Session} {i : ConnId} {client : ConnectedClient}

theorem Handled.of_same (h : s.Handled) (hclients : t.clients = s.clients) (hread : t.read = s.read)
    (hserver : t.server = s.server) (hroom : t.room = s.room) : t.Handled := by
  refine ⟨h.toUpDone.of_same hclients hread (by rw [hserver]), ?_, ?_, ?_⟩
  · rw [Served, hserver]
    exact h.served
  · rw [hroom]
    exact h.main
  · rw [hroom]
    exact h.recorded

/-- The server has its write done. -/
theorem Lively.down_transfer (h : s.Lively) (hi : s.clients[i]? = some client) (hbusy : ¬ s.sending.Idle i) :
    ∃ j n w, s.sending.WithinContract (.transfer i j n) ∧
      s.step (.io (.transfer i j n)) = .ok { s with sending := s.sending.transfer i j n w } ∧
      (∀ c, s.sending.CanGoOn c → (s.sending.transfer i j n w).CanGoOn c) ∧
      ((s.sending.transfer i j n w).unsent i).length +
          ((s.sending.transfer i j n w).sockets i).transferred.length =
        (s.sending.unsent i).length + (s.sending.sockets i).transferred.length ∧
      ((s.sending.transfer i j n w).unsent i).length < (s.sending.unsent i).length := by
  obtain ⟨a, ⟨sent, hsim⟩, -⟩ := h.sound
  obtain ⟨j, n, w, htransferring, hscope, hgo, hsum, hlt⟩ := hsim.streams.transfer_rest (h.go hi).2 hbusy
  refine ⟨j, n, w, ?_, ?_, hgo, hsum, hlt⟩
  · intro v hv
    cases htransferring.symm.trans hv
    exact hscope
  · show (s.sending.step (.transfer i j n)).bind _ = _
    rw [Sending.step, htransferring]
    rfl

/-- The sending goes on. -/
theorem Lively.setSending (h : s.Lively) {sending : Sending} {d : TracedDispatcher Post}
    (hsound : ({ s with sending := sending, sendMsgDispatcher := d } : Session).Sound)
    (hgo : ∀ c, s.sending.CanGoOn c → sending.CanGoOn c) :
    ({ s with sending := sending, sendMsgDispatcher := d } : Session).Lively :=
  ⟨hsound, fun i hi client hclient => (h.goesOn i hi client hclient).imp_right (hgo i), h.accepted⟩

/-- **The writes to a player are done.** -/
theorem Lively.write_way (h : s.Lively) (hi : s.clients[i]? = some client) :
    s.Way fun t => t.Lively ∧ t.sending.Idle i ∧ t = { s with sending := t.sending } := by
  refine (CanReach.of_measure (I := fun t => t.Lively ∧ t = { s with sending := t.sending })
    (P := fun t => t.sending.Idle i) (fun t => (t.sending.unsent i).length) (fun t ⟨ht, heq⟩ => ?_)
    ⟨h, rfl⟩).mono fun t ht => ⟨ht.1.1, ht.2, ht.1.2⟩
  by_cases hidle : t.sending.Idle i
  · exact .inl hidle
  right
  have hi' : t.clients[i]? = some client := by rw [heq]; exact hi
  obtain ⟨j, n, w, hcontract, hstep, hgo, -, hlt⟩ := ht.down_transfer hi' hidle
  refine ht.single (e := .io (.transfer i j n)) trivial hcontract trivial fun u hu hsound => ?_
  cases hstep.symm.trans hu
  exact ⟨⟨ht.setSending (d := t.sendMsgDispatcher) hsound hgo, by rw [heq]⟩, hlt⟩

/-- A message is sent. -/
theorem Lively.sendDispatch_ok (h : s.Lively) {k : Nat} {x : Traced Post}
    (hk : s.sendMsgDispatcher.current k = some x) (ht : s.sendDispatch k = .ok t) (hsound : t.Sound) :
    t.Lively ∧ t = { s with sending := t.sending, sendMsgDispatcher := s.sendMsgDispatcher.finished k x } := by
  obtain ⟨a, ⟨sent, hsim⟩, -⟩ := h.sound
  obtain ⟨hr, -⟩ := hsim.given.posts x (hsim.given.inv.of_current hk).1
  obtain ⟨i, client, hi, hrole, hlookup⟩ := client_of_reaches hr
  unfold sendDispatch at ht
  rw [hk] at ht
  obtain ⟨m, -, ht⟩ := bind_eq_ok.mp ht
  obtain ⟨sending, hsend, ht⟩ := bind_eq_ok.mp ht
  obtain ⟨d, hd, hret⟩ := bind_eq_ok.mp ht
  have hdispatch := hsim.given.inv.dispatch_eq k
  rw [hk] at hdispatch
  cases hd.symm.trans hdispatch
  cases hret
  obtain ⟨b, -, -, hok, -⟩ := Sending.send_ok (s := s.sendingNow) x.msg.dispatchId m
  have hconn : s.sendingNow.connMap x.msg.dispatchId = some i := hlookup
  rw [hconn] at hok
  cases hsend.symm.trans hok
  refine ⟨h.setSending hsound fun c hc => ?_, rfl⟩
  exact Sending.CanGoOn.sent (hc.of_eq rfl fun _ hb => hb) i m b

/-- **All that the room has sent is given to its connection.** -/
theorem Lively.post_way (h : s.Lively) (hhandled : s.Handled) :
    s.Way fun t => (t.Lively ∧ t.Handled) ∧ t.sendMsgDispatcher.waiting = [] := by
  refine CanReach.of_measure (fun s => s.sendMsgDispatcher.waiting.length)
    (fun s ⟨h, hhandled⟩ => ?_) ⟨h, hhandled⟩
  by_cases hnone : s.sendMsgDispatcher.waiting = []
  · exact .inl hnone
  right
  obtain ⟨k, x, hk⟩ := TracedDispatcher.exists_current hnone
  -- the worker takes its message, if it has none
  refine (h.single (e := .sendTryPop k) (P := fun t => t.Lively ∧ t.Handled ∧ t = { s with
    sendMsgDispatcher := s.sendMsgDispatcher.tryPop k }) trivial trivial trivial fun t ht hsound => ?_).trans ?_
  · cases ht
    exact ⟨h.of_same hsound rfl rfl rfl, hhandled.of_same rfl rfl rfl rfl, rfl⟩
  rintro t ⟨ht, hhandled', rfl⟩
  obtain ⟨a, ⟨sent, hsim⟩, -⟩ := ht.sound
  obtain ⟨hr, -⟩ := hsim.given.posts x (hsim.given.inv.of_current hk).1
  obtain ⟨i, client, hi, hrole, hlookup⟩ := client_of_reaches hr
  -- the write before it ends
  refine (ht.write_way hi).trans fun u ⟨hu, hidle, heq⟩ => ?_
  have hk' : u.sendMsgDispatcher.current k = some x := by rw [heq]; exact hk
  refine hu.single (e := .sendDispatch k) trivial ?_ trivial fun v hv hsound => ?_
  · intro y hy c hc
    cases hk'.symm.trans hy
    have hlookup' : u.server.gameServer.roleIdConnMap.lookup x.msg.dispatchId = some i := by
      rw [heq]
      exact hlookup
    cases hlookup'.symm.trans hc
    exact hidle
  · obtain ⟨hlively, hv'⟩ := hu.sendDispatch_ok hk' hv hsound
    have hhandled'' : u.Handled := hhandled'.of_same (by rw [heq]) (by rw [heq]) (by rw [heq]) (by rw [heq])
    refine ⟨⟨hlively, hhandled''.of_same (by rw [hv']) (by rw [hv']) (by rw [hv']) (by rw [hv'])⟩, ?_⟩
    rw [hv']
    refine Nat.lt_of_lt_of_eq (TracedDispatcher.length_waiting_finished hk') ?_
    rw [heq]
    exact congrArg List.length (TracedDispatcher.waiting_tryPop _ k)

end Post

/-! ## What the players have been sent -/

/-- What is still to be done of what player `i` has been sent. -/
def downToDo (s : Session) (i : ConnId) : Nat :=
  s.clients[i]?.elim 0 fun client => toDo (s.sending.unsent i).length
    ((s.sending.sockets i).transferred.length - client.read) client.receiver.buffer client.decoding

/-- The server has nothing to do but to write. -/
structure Posted (s : Session) : Prop extends Handled s where
  posted : s.sendMsgDispatcher.waiting = []

/-- All that the players have been sent is read and decoded. -/
structure DownDone (s : Session) : Prop extends Posted s where
  received : ∀ i client, s.clients[i]? = some client → s.sending.Idle i ∧
    client.read = (s.sending.sockets i).transferred.length ∧ client.decoding = false

section Down

variable {s t : Session} {i : ConnId} {client client' : ConnectedClient}

theorem getElem?_setClient (hi : s.clients[i]? = some client) {j : ConnId} {other : ConnectedClient}
    (hj : (s.clients.set i client')[j]? = some other) :
    j = i ∧ other = client' ∨ s.clients[j]? = some other := by
  by_cases hji : j = i
  · subst hji
    rw [List.getElem?_set_self (List.getElem?_eq_some_iff.mp hi).1] at hj
    exact .inl ⟨rfl, (Option.some.inj hj).symm⟩
  · rw [List.getElem?_set_ne (Ne.symm hji)] at hj
    exact .inr hj

/-- The server does not see what a player does with what it has been sent. -/
theorem Posted.setClient (h : s.Posted) (hi : s.clients[i]? = some client)
    (hsending : client'.sending = client.sending) :
    ({ s with clients := s.clients.set i client' } : Session).Posted := by
  refine ⟨⟨⟨h.ended, fun j other hj => ?_⟩, h.served, h.main, h.recorded⟩, h.posted⟩
  rcases getElem?_setClient hi hj with ⟨rfl, rfl⟩ | hj
  · rw [hsending]
    exact h.read j client hi
  · exact h.read j other hj

/-- One player goes on. -/
theorem Lively.down_client (h : s.Lively) (hposted : s.Posted) (hi : s.clients[i]? = some client)
    (hsound : ({ s with clients := s.clients.set i client' } : Session).Sound)
    (hsending : client'.sending = client.sending)
    (hlt : toDo (s.sending.unsent i).length ((s.sending.sockets i).transferred.length - client'.read)
      client'.receiver.buffer client'.decoding < s.downToDo i) :
    (({ s with clients := s.clients.set i client' } : Session).Lively ∧
      ({ s with clients := s.clients.set i client' } : Session).Posted) ∧
      ∑ j ∈ Finset.range (s.clients.set i client').length,
          ({ s with clients := s.clients.set i client' } : Session).downToDo j <
        ∑ j ∈ Finset.range s.clients.length, s.downToDo j := by
  refine ⟨⟨h.setClient hi hsound (by rw [hsending]; exact (h.go hi).1), hposted.setClient hi hsending⟩, ?_⟩
  refine sum_setClient hi (fun j hj => ?_) ?_
  · unfold downToDo
    rw [List.getElem?_set_ne hj]
  · rw [downToDo, List.getElem?_set_self (List.getElem?_eq_some_iff.mp hi).1]
    exact hlt

/-- The server has its write to a player done. -/
theorem Lively.down_write (h : s.Lively) (hposted : s.Posted) (hi : s.clients[i]? = some client)
    (hbusy : ¬ s.sending.Idle i) : s.Way fun t => (t.Lively ∧ t.Posted) ∧
      ∑ j ∈ Finset.range t.clients.length, t.downToDo j < ∑ j ∈ Finset.range s.clients.length, s.downToDo j := by
  obtain ⟨j, n, w, hcontract, hstep, hgo, hsum, hlt⟩ := h.down_transfer hi hbusy
  refine h.single (e := .io (.transfer i j n)) trivial hcontract trivial fun t ht hsound => ?_
  cases hstep.symm.trans ht
  refine ⟨⟨h.setSending (d := s.sendMsgDispatcher) hsound hgo,
    hposted.toHandled.of_same rfl rfl rfl rfl, hposted.posted⟩, ?_⟩
  refine sum_lt_of_one (List.getElem?_eq_some_iff.mp hi).1 (fun c hc => ?_) ?_
  · have hsocket : (s.sending.transfer i j n w).sockets c = s.sending.sockets c := Function.update_of_ne hc ..
    have hunsent : (s.sending.transfer i j n w).unsent c = s.sending.unsent c := by
      rw [Sending.unsent, hsocket]
      rfl
    simp only [downToDo, hsocket, hunsent]
  · simp only [downToDo, hi, Option.elim_some]
    exact toDo_transfer (by omega) hlt _ _

/-- **The loop of `OnNewData` goes round**, for a player. -/
theorem Lively.down_turn (h : s.Lively) (hposted : s.Posted) (hi : s.clients[i]? = some client)
    (hdec : client.decoding = true) : s.Way fun t => (t.Lively ∧ t.Posted) ∧
      ∑ j ∈ Finset.range t.clients.length, t.downToDo j < ∑ j ∈ Finset.range s.clients.length, s.downToDo j := by
  obtain ⟨a, ⟨sent, hsim⟩, -⟩ := h.sound
  obtain ⟨hinv, up, queued, rest, -, hinbox, -⟩ := hsim.players i client hi
  obtain ⟨client', -, -, hstep, -, -, -, hsilent⟩ := ConnectedClient.turn_ok hinv hinbox
  refine h.single (e := .client i .turn) trivial (fun _ _ => trivial) trivial fun t ht hsound => ?_
  cases (onClient_ok hi hstep).symm.trans ht
  obtain ⟨hread, hlt⟩ := ConnectedClient.toDo_turn hinv hinbox hdec hstep (s.sending.unsent i).length
    ((s.sending.sockets i).transferred.length - client.read)
  refine h.down_client hposted hi hsound hsilent.sending ?_
  rw [downToDo, hi, hread]
  exact hlt

/-- A player reads. -/
theorem Lively.down_read (h : s.Lively) (hposted : s.Posted) (hi : s.clients[i]? = some client)
    (hdec : client.decoding = false) (hunread : client.read < (s.sending.sockets i).transferred.length) :
    s.Way fun t => (t.Lively ∧ t.Posted) ∧
      ∑ j ∈ Finset.range t.clients.length, t.downToDo j < ∑ j ∈ Finset.range s.clients.length, s.downToDo j := by
  obtain ⟨a, ⟨sent, hsim⟩, -⟩ := h.sound
  obtain ⟨hinv, up, queued, rest, -, hinbox, -⟩ := hsim.players i client hi
  let room := client.receiver.buffer.writableSize
  let bytes := s.downBytes i client room
  have hlen : bytes.length = min ((s.sending.sockets i).transferred.length - client.read) room := by
    simp only [bytes, downBytes, List.length_take, List.length_drop]
    exact Nat.min_comm _ _
  have hle : bytes.length ≤ room := hlen ▸ Nat.min_le_right _ _
  refine h.single (e := .clientRead i room) trivial ?_ trivial fun t ht hsound => ?_
  · intro client' hclient'
    cases hi.symm.trans hclient'
    exact hle
  · obtain ⟨client', hstep⟩ : ∃ client', client.receive bytes = .ok client' := by
      unfold ConnectedClient.receive
      rw [hdec, if_neg Bool.false_ne_true, Receiver.storeRead_eq hinv.ready, if_pos hle]
      exact ⟨_, rfl⟩
    cases (onClient_ok hi hstep).symm.trans ht
    obtain ⟨hsending, hread, hlt⟩ := ConnectedClient.toDo_receive hinv hinbox hdec hlen
      (Nat.sub_pos_of_lt hunread) hstep (s.sending.unsent i).length
    refine h.down_client hposted hi hsound hsending ?_
    rw [downToDo, hi, hread, ← Nat.sub_sub]
    exact hlt

/-- **All that the players have been sent is read and decoded.** -/
theorem Lively.down_way (h : s.Lively) (hposted : s.Posted) : s.Way fun t => t.Lively ∧ t.DownDone := by
  refine (CanReach.of_measure (I := fun t => t.Lively ∧ t.Posted)
    (P := fun t => ∀ i client, t.clients[i]? = some client → t.sending.Idle i ∧
      client.read = (t.sending.sockets i).transferred.length ∧ client.decoding = false)
    (fun s => ∑ i ∈ Finset.range s.clients.length, s.downToDo i) (fun s ⟨h, hposted⟩ => ?_)
    ⟨h, hposted⟩).mono fun t ht => ⟨ht.1.1, ht.1.2, ht.2⟩
  by_cases hbusy : ∃ (i : ConnId) (client : ConnectedClient), s.clients[i]? = some client ∧ ¬ s.sending.Idle i
  · obtain ⟨i, client, hi, hbusy⟩ := hbusy
    exact .inr (h.down_write hposted hi hbusy)
  by_cases hturn : ∃ (i : ConnId) (client : ConnectedClient),
      s.clients[i]? = some client ∧ client.decoding = true
  · obtain ⟨i, client, hi, hdec⟩ := hturn
    exact .inr (h.down_turn hposted hi hdec)
  have hended : ∀ (i : ConnId) (client : ConnectedClient),
      s.clients[i]? = some client → client.decoding = false := by
    intro i client hi
    cases hdec : client.decoding with
    | false => rfl
    | true => exact (hturn ⟨i, client, hi, hdec⟩).elim
  by_cases hunread : ∃ (i : ConnId) (client : ConnectedClient), s.clients[i]? = some client ∧
      client.read < (s.sending.sockets i).transferred.length
  · obtain ⟨i, client, hi, hunread⟩ := hunread
    exact .inr (h.down_read hposted hi (hended i client hi) hunread)
  refine .inl fun i client hi => ?_
  obtain ⟨a, ⟨sent, hsim⟩, -⟩ := h.sound
  obtain ⟨hinv, up, queued, rest, -, hinbox, -⟩ := hsim.players i client hi
  have hidle : s.sending.Idle i := by
    by_contra hnot
    exact hbusy ⟨i, client, hi, hnot⟩
  refine ⟨hidle, Nat.le_antisymm ?_ (Nat.le_of_not_lt fun hlt => hunread ⟨i, client, hi, hlt⟩),
    hended i client hi⟩
  rw [← length_of_idle hsim.streams hidle]
  exact hinbox.wire.read_le

end Down

/-! ## What the players receive -/

/-- How many messages player `i` has not dispatched yet. -/
def undispatched (s : Session) (i : ConnId) : Nat := s.clients[i]?.elim 0 (·.queue.length)

/-- **The game has come to rest**: nothing is under way, and nothing waits to be recorded. -/
structure AtRest (s : Session) : Prop where
  main : s.room.main = .outside
  recorded : s.room.room.controlMsg = []
  settled : ∀ i client, s.clients[i]? = some client → s.Settled i client

section Receive

variable {s t : Session} {i : ConnId} {client client' : ConnectedClient}

theorem DownDone.setClient (h : s.DownDone) (hi : s.clients[i]? = some client)
    (hsending : client'.sending = client.sending) (hread : client'.read = client.read)
    (hdecoding : client'.decoding = client.decoding) :
    ({ s with clients := s.clients.set i client' } : Session).DownDone := by
  refine ⟨h.toPosted.setClient hi hsending, fun j other hj => ?_⟩
  rcases getElem?_setClient hi hj with ⟨rfl, rfl⟩ | hj
  · rw [hread, hdecoding]
    exact h.received j client hi
  · exact h.received j other hj

/-- A player dispatches a message. -/
theorem Lively.receive_next (h : s.Lively) (hdown : s.DownDone) (hi : s.clients[i]? = some client)
    (hsome : client.queue ≠ []) : s.Way fun t => (t.Lively ∧ t.DownDone) ∧
      ∑ j ∈ Finset.range t.clients.length, t.undispatched j <
        ∑ j ∈ Finset.range s.clients.length, s.undispatched j := by
  obtain ⟨a, ⟨sent, hsim⟩, -⟩ := h.sound
  obtain ⟨hinv, up, queued, rest, -, hinbox, -⟩ := hsim.players i client hi
  -- its worker takes the message, if it has none
  refine (h.single (e := .client i .tryPop) (P := fun t => t.Lively ∧
    t = { s with clients := s.clients.set i client.tryPop }) trivial (fun _ _ => trivial) trivial
    fun t ht hsound => ?_).trans ?_
  · cases (onClient_ok (f := (·.step .tryPop)) hi rfl).symm.trans ht
    exact ⟨h.setClient hi hsound (h.go hi).1, rfl⟩
  rintro t ⟨ht, rfl⟩
  have hi' : (s.clients.set i client.tryPop)[i]? = some client.tryPop :=
    List.getElem?_set_self (List.getElem?_eq_some_iff.mp hi).1
  refine ht.single (e := .client i (.dispatch 0)) trivial (fun _ _ => trivial) trivial fun u hu hsound => ?_
  cases hstep : client.tryPop.dispatch 0 with
  | error f => cases (onClient_error hi' hstep).symm.trans hu
  | ok client' =>
    obtain ⟨hsending, hread, hdecoding, hlt⟩ := ConnectedClient.queue_dispatch hinv hinbox hsome hstep
    have hu' := (onClient_ok hi' hstep).symm.trans hu
    rw [List.set_set] at hu'
    cases hu'
    refine ⟨⟨h.setClient hi hsound (by rw [hsending]; exact (h.go hi).1),
      hdown.setClient hi hsending hread hdecoding⟩, sum_setClient hi (fun j hj => ?_) ?_⟩
    · unfold undispatched
      rw [List.getElem?_set_ne hj]
    · rw [undispatched, undispatched, List.getElem?_set_self (List.getElem?_eq_some_iff.mp hi).1, hi]
      exact hlt

/-- **All that the players have received is dispatched**, unless a promise is set twice. -/
theorem Lively.receive_way (h : s.Lively) (hdown : s.DownDone) :
    s.Way fun t => (t.Lively ∧ t.DownDone) ∧ ∀ (i : ConnId) (client : ConnectedClient),
      t.clients[i]? = some client → client.queue = [] := by
  refine CanReach.of_measure (fun s => ∑ i ∈ Finset.range s.clients.length, s.undispatched i)
    (fun s ⟨h, hdown⟩ => ?_) ⟨h, hdown⟩
  by_cases hsome : ∃ (i : ConnId) (client : ConnectedClient), s.clients[i]? = some client ∧ client.queue ≠ []
  · obtain ⟨i, client, hi, hsome⟩ := hsome
    exact .inr (h.receive_next hdown hi hsome)
  · refine .inl fun i client hi => ?_
    by_contra hnot
    exact hsome ⟨i, client, hi, hnot⟩

theorem DownDone.atRest (h : s.DownDone)
    (hdispatched : ∀ (i : ConnId) (client : ConnectedClient),
    s.clients[i]? = some client → client.queue = []) : s.AtRest := by
  refine ⟨h.main, h.recorded, fun i client hi => ?_⟩
  obtain ⟨hidle, hread⟩ := h.read i client hi
  obtain ⟨hidle', hread', hdecoding⟩ := h.received i client hi
  exact ⟨hidle, hread, by rw [h.ended]; exact fun heq => (by cases heq),
    TracedDispatcher.waitingFor_eq_nil h.served _, TracedDispatcher.waitingFor_eq_nil h.posted _,
    hidle', hread', hdecoding, hdispatched i client hi⟩

/-- **A game that can go on can come to rest.** -/
theorem Lively.way (h : s.Lively) : s.Way fun t => t.Lively ∧ t.AtRest := by
  refine h.up_way.trans fun t ⟨ht, hup⟩ => ?_
  refine (ht.main_way hup).trans fun t ⟨ht, hup, _, hmain, _⟩ => ?_
  refine (ht.serve_way hup hmain).trans fun t ⟨⟨ht, hup, _⟩, hserved⟩ => ?_
  refine (ht.main_way hup).trans fun u ⟨hu, hup, hserver, hmain, hrecorded⟩ => ?_
  have hserved' : u.Served := by
    rw [Served, hserver]
    exact hserved
  refine (hu.post_way ⟨hup, hserved', hmain, hrecorded⟩).trans fun t ⟨⟨ht, hhandled⟩, hposted⟩ => ?_
  refine (ht.down_way ⟨hhandled, hposted⟩).trans fun t ⟨ht, hdown⟩ => ?_
  exact (ht.receive_way hdown).mono fun t ⟨⟨ht, hdown⟩, hdispatched⟩ => ⟨ht, hdown.atRest hdispatched⟩

end Receive

/-! ## At rest -/

section Results

variable {serverName : String} {s t : Session} {events : List SessionEvent} {i : ConnId}
  {client : ConnectedClient}

/-- **What has come of a game at rest**: all has been delivered, and every call of `EnterRoom` has
returned. -/
theorem AtRest.all_arrived (h : s.AtRest) (hsound : s.Sound) (hi : s.clients[i]? = some client) :
    Delivered (· = ·) s.room.room client.app ∧
      ∀ call ∈ client.app.entered, client.app.enterRoomResult call = .ok (some true) := by
  obtain ⟨a, ⟨sent, hsim⟩, hknown, hwaiting⟩ := hsound
  obtain ⟨hempty, hout⟩ := (h.settled i client hi).empty hsim hi
  obtain ⟨hinputs, hpings, hanswers, hgiven⟩ := hknown.all_delivered hempty hout
  refine ⟨by rw [← hsim.room]; exact ⟨hinputs, hpings, hanswers, hgiven⟩, fun call hcall => ?_⟩
  obtain ⟨j, hj⟩ := List.mem_iff_getElem?.mp hcall
  have hentered : client.app.Entered := (hwaiting _ _ hempty).of_idle
  exact hknown.all_returned hentered hempty hout hj

theorem sound_run (hs : new serverName = .ok s) (hc : EachStep step WithinContract s events)
    (hfew : EachStep step FewCalls s events) (ht : run step s events = .ok t) : t.Sound :=
  run_invariant (G := fun s e => s.WithinContract e ∧ s.FewCalls e)
    (fun _ _ _ h hg ht => sound_step h hg.1 hg.2 ht) (sound_new hs)
    (fun ds e hds t ht => ⟨hc ds e hds t ht, hfew ds e hds t ht⟩) ht

/-- **Nothing gets stuck.** From wherever a game has come to, with every player accepted and every write
done or able to go on, the threads, the workers and the connections can go on, without another call of
a player, until nothing is under way, all has been delivered and every call of `EnterRoom` has
returned, unless a player is told a second time that the game starts. -/
theorem nothing_gets_stuck (hs : new serverName = .ok s) (hc : EachStep step WithinContract s events)
    (hfew : EachStep step FewCalls s events) (ht : run step s events = .ok t) (hgo : t.CanGoOn)
    (haccepted : t.server.gameServer.conns.length = t.clients.length) :
    ∃ later, EachStep step GoesOn t later ∧
      ((∃ u, run step t later = .ok u ∧ u.AtRest ∧ ∀ client ∈ u.clients,
          Delivered (· = ·) u.room.room client.app ∧
            ∀ call ∈ client.app.entered, client.app.enterRoomResult call = .ok (some true)) ∨
        run step t later = .error .promiseAlreadySatisfied) := by
  have hlively : t.Lively := ⟨sound_run hs hc hfew ht, hgo, haccepted⟩
  obtain ⟨later, hlater, ⟨u, hu, hlively', hrest⟩ | ⟨f, hf, rfl⟩⟩ := hlively.way
  · refine ⟨later, hlater, .inl ⟨u, hu, hrest, fun client hclient => ?_⟩⟩
    obtain ⟨i, hi⟩ := List.mem_iff_getElem?.mp hclient
    exact hrest.all_arrived hlively'.sound hi
  · exact ⟨later, hlater, .inr hf⟩

theorem entering_gets_on : ∃ s t, new "server" = .ok s ∧ run step s entering = .ok t ∧
    ∃ later, EachStep step GoesOn t later ∧
      ((∃ u, run step t later = .ok u ∧ u.AtRest ∧ ∀ client ∈ u.clients,
          Delivered (· = ·) u.room.room client.app ∧
            ∀ call ∈ client.app.entered, client.app.enterRoomResult call = .ok (some true)) ∨
        run step t later = .error .promiseAlreadySatisfied) := by
  obtain ⟨s, hs, hc, hfew, t', ht', -⟩ := playing_meets
  obtain ⟨t, ht, -⟩ := run_append_eq_ok.mp ht'
  have hready : t.CanGoOn ∧ t.server.gameServer.conns.length = t.clients.length := by
    have hall : ∃ t, run step s entering = .ok t ∧
        t.CanGoOn ∧ t.server.gameServer.conns.length = t.clients.length := by
      cases hs
      decide +kernel
    obtain ⟨u, hu, hready⟩ := hall
    cases ht.symm.trans hu
    exact hready
  exact ⟨s, t, hs, ht, nothing_gets_stuck hs hc.of_append hfew.of_append ht hready.1 hready.2⟩

end Results

end Session

end GameNetwork
