import GameNetwork.Session.Players

/-!
# The framework carries the mail

The events of the server, and with them the whole game: `simulates_step`
follows an event of the network by the events of the mail service it amounts
to, one or none, and `session_refines_mail` a run.

A message is served when its dispatch returns, sent when its write is started,
and received when the player's dispatch returns. What happens between these,
on the wire and in the queues of the workers, is nothing to the mail service.
-/

namespace GameNetwork

open Lib GameNetwork.Frame

/-! ## The tables -/

section Tables

variable {server : MKServer} {read : ConnId → Nat} {roles : List RoleId} {c : ConnId} {conn : ServerConn}

theorem Table.lt_of_armed (hc : server.gameServer.armedConn c = some conn) :
    c < server.gameServer.conns.length :=
  (List.getElem?_eq_some_iff.mp (GameServer.armedConn_eq_some.mp hc).1).1

/-- A connection is kept alive by the table of its names. -/
theorem Table.owned (h : Table server read roles) (hc : server.gameServer.armedConn c = some conn) :
    server.gameServer.owned c = true := by
  obtain ⟨-, name, -, hname, -⟩ := h.conn c (lt_of_armed hc)
  exact GameServer.owned_of_game hname

/-- **A connection is accepted.** -/
theorem Table.accept (h : Table server read roles) (hdec : server.decoding = none)
    (hlt : server.gameServer.conns.length < roles.length) {endpoint : String}
    (hfresh : server.gameServer.connectionName endpoint ∉ server.gameServer.gameConnectionMap) :
    Table { server with gameServer := server.gameServer.onNewClient endpoint } read roles := by
  have hlen : (server.gameServer.onNewClient endpoint).conns.length =
      server.gameServer.conns.length + 1 := List.length_append
  have hmap : (server.gameServer.onNewClient endpoint).gameConnectionMap =
      server.gameServer.gameConnectionMap.insert (server.gameServer.connectionName endpoint)
        server.gameServer.conns.length := if_neg hfresh
  refine ⟨?_, h.async, h.callbacks, h.default, ?_, ?_, fun i hi => h.unread i ?_, fun i hi => ?_, h.pushed⟩
  · refine MKServer.inv_step h.inv (e := .accept endpoint) ?_
    simp only [MKServer.step, hdec, Option.isSome_none]
    rfl
  · rw [hlen]
    exact hlt
  · rw [hdec]
    exact fun _ hc => (by cases hc)
  · rw [hlen] at hi
    exact Nat.le_of_succ_le hi
  · rw [hlen] at hi
    show ∃ conn name, (server.gameServer.onNewClient endpoint).armedConn i = some conn ∧
      (server.gameServer.onNewClient endpoint).gameConnectionMap.lookup name = some i ∧ _
    rw [GameServer.armedConn_onNewClient, hmap]
    split
    · next heq =>
      refine ⟨_, server.gameServer.connectionName endpoint, rfl, ?_, .inl rfl⟩
      rw [AList.lookup_insert, heq]
    · next hne =>
      obtain ⟨conn, name, harmed, hname, hrole⟩ := h.conn i (Nat.lt_of_le_of_ne (Nat.le_of_lt_succ hi) hne)
      have hother : name ≠ server.gameServer.connectionName endpoint := fun heq => by
        rw [← heq, ← AList.lookup_isSome, hname] at hfresh
        exact hfresh rfl
      refine ⟨conn, name, harmed, ?_, hrole⟩
      rw [AList.lookup_insert_ne hother]
      exact hname

/-- **Bytes of a connection are read.** -/
theorem Table.stored (h : Table server read roles) (hc : c < server.gameServer.conns.length)
    {bytes : List Byte} {buffer : Buffer} (hb : (server.buffers c).storeRead bytes = .ok buffer) :
    Table (server.stored c buffer) (Function.update read c (read c + bytes.length)) roles where
  inv := h.inv.stored hb
  async := h.async
  callbacks := h.callbacks
  default := h.default
  conns_le := h.conns_le
  decoding c' hc' := by
    cases hc'
    exact hc
  unread i hi := by
    have hne : i ≠ c := fun heq => Nat.not_le_of_lt hc (heq ▸ hi)
    obtain ⟨hread, hheld⟩ := h.unread i hi
    refine ⟨(Function.update_of_ne hne ..).trans hread, ?_⟩
    rw [← hheld, MKServer.held, MKServer.held]
    exact congrArg Buffer.readable (Function.update_of_ne hne ..)
  conn := h.conn
  pushed := h.pushed

/-- The loop ends. -/
theorem Table.ended (h : Table server read roles) (hinv : MKServer.Inv 10 { server with decoding := none }) :
    Table { server with decoding := none } read roles :=
  ⟨hinv, h.async, h.callbacks, h.default, h.conns_le, nofun, h.unread, h.conn, h.pushed⟩

/-- What a message does to the tables when its role is that of the player who sent it. -/
structure TookRole (s t : GameServer) (c : ConnId) (role : RoleId) : Prop where
  conns : t.conns.length = s.conns.length
  names : t.gameConnectionMap = s.gameConnectionMap
  conn : ∃ conn, t.armedConn c = some conn ∧ conn.game.roleId = role
  others : ∀ i, i ≠ c → t.armedConn i = s.armedConn i
  lookup : t.roleIdConnMap.lookup role = some c
  lookup_ne : ∀ r, r ≠ role → t.roleIdConnMap.lookup r = s.roleIdConnMap.lookup r

/-- **A message of a player registers its connection**, or finds it registered. -/
theorem Table.tookRole (h : Table server read roles) (hc : server.gameServer.armedConn c = some conn)
    {role : RoleId} (hrole : roles[c]? = some role) (hnonzero : role ≠ 0) :
    TookRole server.gameServer (server.gameServer.onMessage c conn role) c role := by
  have hlt : c < server.gameServer.conns.length := lt_of_armed hc
  obtain ⟨conn', -, hconn', -, hconnRole⟩ := h.conn c hlt
  cases hc.symm.trans hconn'
  rcases hconnRole with hzero | ⟨hroles, hlookup⟩
  · have hf : conn.game.registerFunc = true :=
      h.inv.routing.callback conn (List.mem_of_getElem? (GameServer.armedConn_eq_some.mp hc).1)
    rw [GameServer.onMessage_of_zero hzero hf]
    refine ⟨List.length_set, rfl, ⟨_, GameServer.armedConn_registered hc role, rfl⟩, fun i hi => ?_,
      AList.lookup_insert _, fun r hr => AList.lookup_insert_ne hr⟩
    exact GameServer.armedConn_set_ne hi _ _ rfl
  · obtain rfl : conn.game.roleId = role := Option.some.inj (hroles.symm.trans hrole)
    rw [GameServer.onMessage_of_ne (GameServer.armedConn_eq_some.mp hc).1 hnonzero]
    exact ⟨rfl, rfl, ⟨conn, hc, rfl⟩, fun _ _ => rfl, hlookup, fun _ _ => rfl⟩

/-- Who was reached still is. -/
theorem TookRole.reaches {s t : GameServer} {role : RoleId} (h : TookRole s t c role)
    (hrole : roles[c]? = some role) {r : RoleId} (hr : s.Reaches roles r) : t.Reaches roles r := by
  by_cases heq : r = role
  · subst heq
    exact ⟨c, hrole, h.lookup⟩
  · obtain ⟨i, hi, hlookup⟩ := hr
    exact ⟨i, hi, (h.lookup_ne r heq).trans hlookup⟩

/-- **A message of a player is handed on.** -/
theorem Table.handedOn (h : Table server read roles) (hdistinct : roles.Nodup)
    (hdec : server.decoding = some c) (hc : server.gameServer.armedConn c = some conn) {m : Message}
    (hm : m.Regular) (hrole : roles[c]? = some m.base.roleId)
    (htook : TookRole server.gameServer (server.gameServer.onMessage c conn m.base.roleId) c m.base.roleId)
    (hinv : (server.handedOn c conn m).Inv 10) : Table (server.handedOn c conn m) read roles := by
  have hlt : c < server.gameServer.conns.length := lt_of_armed hc
  have hlen : (server.handedOn c conn m).gameServer.conns.length = server.gameServer.conns.length :=
    htook.conns
  refine ⟨hinv, h.async, h.callbacks, h.default, ?_, ?_, fun i hi => ?_, fun i hi => ?_, fun x hx => ?_⟩
  · rw [hlen]
    exact h.conns_le
  · rw [hlen]
    exact h.decoding
  · rw [hlen] at hi
    have hne : i ≠ c := fun heq => Nat.not_le_of_lt hlt (heq ▸ hi)
    obtain ⟨hread, hheld⟩ := h.unread i hi
    refine ⟨hread, ?_⟩
    rw [← hheld, MKServer.held, MKServer.held]
    exact congrArg Buffer.readable (Function.update_of_ne hne ..)
  · rw [hlen] at hi
    obtain ⟨conn', name, harmed, hname, hconnRole⟩ := h.conn i hi
    have hname' : (server.handedOn c conn m).gameServer.gameConnectionMap.lookup name = some i := by
      rw [show (server.handedOn c conn m).gameServer.gameConnectionMap = _ from htook.names]
      exact hname
    by_cases hic : i = c
    · subst hic
      obtain ⟨conn'', hconn'', hrole''⟩ := htook.conn
      refine ⟨conn'', name, hconn'', hname', .inr ?_⟩
      rw [hrole'']
      exact ⟨hrole, htook.lookup⟩
    · refine ⟨conn', name, (htook.others i hic).trans harmed, hname', hconnRole.imp id fun hr => ⟨hr.1, ?_⟩⟩
      have hne : conn'.game.roleId ≠ m.base.roleId := fun heq => by
        have hi' := hr.1
        rw [heq, ← hrole] at hi'
        have hlt' : i < roles.length := Nat.lt_of_lt_of_le hi h.conns_le
        exact hic ((List.getElem?_inj hlt' hdistinct).mp hi')
      exact (htook.lookup_ne _ hne).trans hr.2
  · rcases List.mem_append.mp hx with hx | hx
    · exact ⟨(h.pushed x hx).1, (h.pushed x hx).2.1, htook.reaches hrole (h.pushed x hx).2.2⟩
    · obtain rfl := List.mem_singleton.mp hx
      exact ⟨hm, rfl, c, hrole, htook.lookup⟩

/-- The receive dispatcher goes on. -/
theorem Table.onDispatcher (h : Table server read roles) {d : TracedDispatcher Origin} (hinv : d.Inv 10)
    (hasync : d.dispatcher.enableSync = server.recvMsgDispatcher.dispatcher.enableSync)
    (hcallbacks : d.dispatcher.msgCallbacks = server.recvMsgDispatcher.dispatcher.msgCallbacks)
    (hdefault : d.dispatcher.defaultMessageCallback = server.recvMsgDispatcher.dispatcher.defaultMessageCallback)
    (hpushed : d.pushed = server.pushed) : Table { server with recvMsgDispatcher := d } read roles :=
  ⟨⟨h.inv.routing, h.inv.ready, hinv⟩, hasync.trans h.async, hcallbacks.trans h.callbacks,
    hdefault.trans h.default, h.conns_le, h.decoding, h.unread, h.conn, fun x hx => h.pushed x (hpushed ▸ hx)⟩

/-- The player's side stays, and so does what it has sent and the server has not served. -/
theorem Plays.of_outbox {server' : MKServer} {read' : ConnId → Nat}
    {mail : RoleId → Option MailClient} {msgs : List Message} {i : ConnId} {client : ConnectedClient}
    (h : Plays server read mail msgs i client)
    (hbox : ∀ up, Outbox server read i client up → ∃ up', Outbox server' read' i client up' ∧
      server'.taken client.app.roleId ++ up' = server.taken client.app.roleId ++ up) :
    Plays server' read' mail msgs i client := by
  obtain ⟨hinv, up, queued, rest, houtbox, hinbox, hmail⟩ := h
  obtain ⟨up', houtbox', heq⟩ := hbox up houtbox
  refine ⟨hinv, up', queued, rest, houtbox', hinbox, ?_⟩
  rw [heq]
  exact hmail

end Tables

namespace Session

/-! ## What the server receives -/

section Receiving

variable {s : Session} {a : Mail} {sent : ConnId → List Message}

/-- The server goes on, and nothing changes for the mail service. -/
theorem Sim.onServer (h : s.Sim a sent) {server : MKServer} {read : ConnId → Nat}
    (htable : Table server read s.roles)
    (hreaches : ∀ r, s.server.gameServer.Reaches s.roles r → server.gameServer.Reaches s.roles r)
    (hplayers : ∀ i client, s.clients[i]? = some client → Plays server read a.clients (sent i) i client) :
    ({ s with server := server, read := read } : Session).Sim a sent :=
  ⟨h.room, h.streams, h.unsent, hplayers, h.others, h.distinct, h.nonzero, htable, h.given.mono hreaches⟩

theorem Sim.accept (h : s.Sim a sent) {endpoint : String}
    (hfresh : s.server.gameServer.connectionName endpoint ∉ s.server.gameServer.gameConnectionMap) :
    Agree Carries (s.step (.accept endpoint)) (run Mail.step a []) := by
  have hlen : s.roles.length = s.clients.length := List.length_map _
  simp only [step]
  split
  · next hlt =>
    cases hdec : s.server.decoding with
    | some c =>
      have hstep : s.server.step (.accept endpoint) = .ok s.server := by
        simp only [MKServer.step, hdec, Option.isSome_some, if_true]
        rfl
      rw [hstep]
      exact .ok ⟨sent, h⟩
    | none =>
      have hstep : s.server.step (.accept endpoint) =
          .ok { s.server with gameServer := s.server.gameServer.onNewClient endpoint } := by
        simp only [MKServer.step, hdec, Option.isSome_none]
        rfl
      rw [hstep]
      have htable := h.table.accept hdec (hlen ▸ hlt) hfresh
      refine .ok ⟨sent, h.onServer htable (fun _ hr => hr) fun i client hi => ?_⟩
      exact (h.players i client hi).of_outbox fun up hbox => ⟨up, ⟨hbox.wire, hbox.waits, hbox.own⟩, rfl⟩
  · exact .ok ⟨sent, h⟩

/-- **The server reads** what a player has transferred. -/
theorem Sim.read (h : s.Sim a sent) {c : ConnId} {client : ConnectedClient}
    (hclient : s.clients[c]? = some client) {n : Nat}
    (hle : (s.upBytes c client n).length ≤ (s.server.buffers c).writableSize) :
    Agree Carries (s.readFrom c client n) (run Mail.step a []) := by
  unfold readFrom
  split
  · exact .ok ⟨sent, h⟩
  · next hcond =>
    obtain ⟨hdec, harmed⟩ := not_or.mp hcond
    rw [Option.not_isSome_iff_eq_none] at hdec
    obtain ⟨conn, hconn⟩ := Option.ne_none_iff_exists'.mp harmed
    obtain ⟨buffer, hb, hheld⟩ := h.table.inv.storeRead_ok hle
    rw [MKServer.step_read hdec hconn (h.table.owned hconn) hb]
    have htable := h.table.stored (Table.lt_of_armed hconn) hb
    refine .ok ⟨sent, h.onServer htable (fun _ hr => hr) fun i other hi => ?_⟩
    refine (h.players i other hi).of_outbox fun up hbox => ⟨up, ?_, rfl⟩
    obtain ⟨⟨sentUp, hstreams, hwire⟩, hwaits, hown⟩ := hbox
    by_cases hic : i = c
    · subst hic
      cases hi.symm.trans hclient
      refine ⟨⟨sentUp, hstreams, ?_⟩, .inl rfl, hown⟩
      rw [hheld, Function.update_self]
      refine hwire.receive ?_
      exact (List.take_prefix _ _).trans (List.IsPrefix.drop (hstreams.transferred_isPrefix 0) _)
    · have hheld' : (s.server.stored c buffer).held i = s.server.held i :=
        congrArg Buffer.readable (Function.update_of_ne hic ..)
      refine ⟨⟨sentUp, hstreams, ?_⟩, .inr ?_, hown⟩
      · rw [hheld', Function.update_of_ne hic]
        exact hwire
      · rw [hheld']
        exact hwaits.resolve_left (by rw [hdec]; nofun)

theorem taken_handedOn {server : MKServer} (h : server.Inv 10) (c : ConnId) (conn : ServerConn)
    (m : Message) (r : RoleId) :
    (server.handedOn c conn m).taken r = server.taken r ++ if m.base.roleId = r then [m] else [] := by
  have hwaiting := h.recv.waitingFor_pushOf
    ⟨⟨m.base.roleId, m⟩, ⟨c, (conn.game.takeRole m.base.roleId).roleId⟩⟩ r
  unfold MKServer.taken
  rw [show (server.handedOn c conn m).recvMsgDispatcher.waitingFor r = _ from hwaiting, List.map_append]
  split <;> rfl

/-- **The loop of `OnNewData` goes round.** -/
theorem Sim.turn (h : s.Sim a sent) : Agree Carries (s.step .turn) (run Mail.step a []) := by
  have hlen : s.roles.length = s.clients.length := List.length_map _
  simp only [step]
  cases hdec : s.server.decoding with
  | none =>
    have hstep : s.server.step .turn = .ok s.server := by
      simp only [MKServer.step, hdec, Option.bind_none]
      rfl
    rw [hstep]
    exact .ok ⟨sent, h⟩
  | some c =>
    have hlt := h.table.decoding c hdec
    obtain ⟨conn, name, hconn, hname, hconnRole⟩ := h.table.conn c hlt
    obtain ⟨client, hclient⟩ : ∃ client, s.clients[c]? = some client :=
      ⟨_, List.getElem?_eq_getElem (hlen ▸ Nat.lt_of_lt_of_le hlt h.table.conns_le)⟩
    obtain ⟨hinv, up, queued, rest, ⟨⟨sentUp, hstreams, hwire⟩, hwaits, hown⟩, hinbox, hmail⟩ :=
      h.players c client hclient
    -- no other player is in the loop
    have others : ∀ i other, s.clients[i]? = some other → i ≠ c → ∀ up,
        Outbox s.server s.read i other up → Waits (s.server.held i) up := fun i other _ hic up hbox =>
      hbox.waits.resolve_left fun heq => hic (Option.some.inj (heq.symm.trans hdec))
    rcases hwire.front with ⟨m, up', t, rfl, hheld, hwire'⟩ | ⟨hmore, hwaits'⟩
    · obtain ⟨hm, hrole⟩ := hown m List.mem_cons_self
      have hroles : s.roles[c]? = some m.base.roleId := by
        rw [hrole]
        exact roles_getElem? hclient
      have hnonzero : m.base.roleId ≠ 0 := fun heq => h.nonzero (heq ▸ List.mem_of_getElem? hroles)
      obtain ⟨hstep, hheld', hinv'⟩ := h.table.inv.turn_frame hdec hconn hm.constructed hheld
      have htook := h.table.tookRole hconn hroles hnonzero
      have htable := h.table.handedOn h.distinct hdec hconn hm hroles htook hinv'
      rw [hstep]
      refine .ok ⟨sent, h.onServer htable (fun r hr => htook.reaches hroles hr) fun i other hi => ?_⟩
      by_cases hic : i = c
      · subst hic
        cases hi.symm.trans hclient
        refine ⟨hinv, up', queued, rest, ⟨⟨sentUp, hstreams, ?_⟩, .inl hdec, ?_⟩, hinbox, ?_⟩
        · rw [hheld']
          exact hwire'
        · exact fun x hx => hown x (List.mem_cons_of_mem _ hx)
        · rw [taken_handedOn h.table.inv, if_pos hrole, List.append_assoc]
          exact hmail
      · have hne : m.base.roleId ≠ other.app.roleId := fun heq => h.role_ne hclient hi hic (heq.symm.trans hrole)
        have hother : (s.server.handedOn c conn m).held i = s.server.held i :=
          congrArg Buffer.readable (Function.update_of_ne hic ..)
        refine (h.players i other hi).of_outbox fun up hbox => ⟨up, ⟨?_, .inr ?_, hbox.own⟩, ?_⟩
        · rw [hother]
          exact hbox.wire
        · rw [hother]
          exact others i other hi hic up hbox
        · rw [taken_handedOn h.table.inv, if_neg hne, List.append_nil]
    · have hstep := h.table.inv.turn_more hdec hconn hmore
      rw [hstep]
      have htable := h.table.ended (MKServer.inv_step h.table.inv hstep)
      refine .ok ⟨sent, h.onServer htable (fun _ hr => hr) fun i other hi => ?_⟩
      by_cases hic : i = c
      · subst hic
        cases hi.symm.trans hclient
        exact ⟨hinv, up, queued, rest, ⟨⟨sentUp, hstreams, hwire⟩, .inr hwaits', hown⟩, hinbox, hmail⟩
      · exact (h.players i other hi).of_outbox fun up hbox =>
          ⟨up, ⟨hbox.wire, .inr (others i other hi hic up hbox), hbox.own⟩, rfl⟩

/-- A receive worker tries to take a message. -/
theorem Sim.tryPop (h : s.Sim a sent) (k : Nat) :
    Agree Carries (s.step (.tryPop k)) (run Mail.step a []) := by
  have htable := h.table.onDispatcher (TracedDispatcher.inv_tryPop h.table.inv.recv k) rfl rfl rfl rfl
  have hstep : s.server.step (.tryPop k) =
    .ok { s.server with recvMsgDispatcher := s.server.recvMsgDispatcher.tryPop k } := rfl
  simp only [step, hstep]
  refine .ok ⟨sent, h.onServer htable (fun _ hr => hr) fun i client hi => ?_⟩
  refine (h.players i client hi).of_outbox fun up hbox => ⟨up, ⟨hbox.wire, hbox.waits, hbox.own⟩, ?_⟩
  unfold MKServer.taken
  rw [TracedDispatcher.waitingFor_tryPop]

end Receiving

/-! ## What the server serves and sends -/

section Serving

variable {s : Session} {a : Mail} {sent : ConnId → List Message}

/-- The client of a role that the table has. -/
theorem client_of_reaches {r : RoleId}
    (hr : s.server.gameServer.Reaches s.roles r) : ∃ i client, s.clients[i]? = some client ∧
      client.app.roleId = r ∧ s.server.gameServer.roleIdConnMap.lookup r = some i := by
  obtain ⟨i, hi, hlookup⟩ := hr
  rw [roles, List.getElem?_map] at hi
  obtain ⟨client, hclient, hrole⟩ := Option.map_eq_some_iff.mp hi
  exact ⟨i, client, hclient, hrole, hlookup⟩

/-- The room goes on, and what it has given out waits in the send dispatcher. -/
theorem Sim.given_out (h : s.Sim a sent) {b : Mail} {d : TracedDispatcher Post}
    (hgiven : Given b.room d b.out (s.server.gameServer.Reaches s.roles)) (hclients : b.clients = a.clients) :
    ({ s with room := b.room, sendMsgDispatcher := d } : Session).Sim b sent :=
  ⟨rfl, h.streams, h.unsent, hclients ▸ h.players, hclients ▸ h.others, h.distinct, h.nonzero, h.table, hgiven⟩

/-- **A function of the room.** -/
theorem Sim.onRoom (h : s.Sim a sent) {e : RoomEvent}
    (he : e.Served (s.server.gameServer.Reaches s.roles)) :
    Agree Carries (s.onRoom e) (a.onRoom e) := by
  obtain ⟨room, d, hstep, hroom, hgiven⟩ := h.given.onRoom he
  have hmail : a.onRoom e = .ok
      ({ a with room := room }.give (postsOf (room.room.sent.drop s.room.room.sent.length))) := by
    unfold Mail.onRoom
    rw [h.room, hstep]
    rfl
  rw [hroom, hmail]
  exact .ok ⟨sent, h.given_out (b := { a with room := room }.give _) hgiven rfl⟩

/-- **A callback of the server** serves the message it is for. -/
theorem Sim.callback (h : s.Sim a sent) {r : RoleId} (hr : s.server.gameServer.Reaches s.roles r)
    {m : Message} (hm : m.Regular) (now : BitVec 64) :
    ∃ func, [none, none, some 2, some 1, some 3, none][m.base.messageType.num.toNat]? = some func ∧
      Agree Carries (s.callback (func.getD 0) r m now) (a.handle r now m) := by
  cases m with
  | plain m => exact hm.constructed.elim
  | ping m =>
    refine ⟨some 1, by rw [show (Message.ping m).base.messageType = _ from hm.constructed.2]; rfl, ?_⟩
    obtain ⟨d, hpush, hgiven⟩ := h.given.push (p := .echo (.ping m)) hr rfl hm
    have hsend : s.sendMessageByRoleId r (.echo (.ping m)) = .ok { s with sendMsgDispatcher := d } := by
      show (s.sendMsgDispatcher.push _ r _).bind _ = _
      rw [hpush]
      rfl
    show Agree Carries (s.sendMessageByRoleId r (.echo (.ping m))) _
    rw [hsend]
    rw [← h.room] at hgiven ⊢
    exact .ok ⟨sent, h.given_out (b := a.give _) hgiven rfl⟩
  | control m =>
    exact ⟨some 2, by rw [show (Message.control m).base.messageType = _ from hm.constructed.2]; rfl, h.onRoom hm⟩
  | enterRoom m =>
    exact ⟨some 3, by rw [show (Message.enterRoom m).base.messageType = _ from hm.constructed.2]; rfl, h.onRoom ⟨hr, hm⟩⟩
  | gameStart m =>
    exact ⟨none, by rw [show (Message.gameStart m).base.messageType = _ from hm.constructed.2]; rfl, .ok ⟨sent, h⟩⟩

/-- What the dispatch of a message takes from the mail service. -/
theorem Sim.finished (h : s.Sim a sent) {k : Nat} {x : Traced Origin}
    (hk : s.server.recvMsgDispatcher.current k = some x) :
    ∃ app up down, a.clients x.msg.dispatchId = some ⟨app, x.msg.baseMessagePtr :: up, down⟩ ∧
      ({ s with server := { s.server with
          recvMsgDispatcher := s.server.recvMsgDispatcher.finished k x } } : Session).Sim
        (a.setClient x.msg.dispatchId ⟨app, up, down⟩) sent := by
  obtain ⟨hpushed, -⟩ := h.table.inv.recv.of_current hk
  obtain ⟨i, client, hclient, hrole, -⟩ := client_of_reaches (h.table.pushed x hpushed).2.2
  obtain ⟨hinv, up, queued, rest, hbox, hinbox, hmail⟩ := h.players i client hclient
  have htaken : ∀ r, s.server.taken r = (if x.msg.dispatchId = r then [x.msg.baseMessagePtr] else []) ++
      ({ s.server with recvMsgDispatcher := s.server.recvMsgDispatcher.finished k x } : MKServer).taken r := by
    intro r
    unfold MKServer.taken
    rw [h.table.inv.recv.waitingFor_finished hk, List.map_append]
    split <;> rfl
  have htable := h.table.onDispatcher (TracedDispatcher.inv_finished h.table.inv.recv hk) rfl rfl rfl rfl
  rw [htaken, hrole, if_pos rfl] at hmail
  have hmem : x.msg.dispatchId ∈ s.roles := (h.table.pushed x hpushed).2.2.mem
  refine ⟨_, _, _, hmail, h.room, h.streams, h.unsent, fun j other hj => ?_, fun r hr => ?_, h.distinct,
    h.nonzero, htable, h.given⟩
  swap
  · exact (Function.update_of_ne (ne_of_mem_of_not_mem hmem hr).symm ..).trans (h.others r hr)
  by_cases hji : j = i
  · subst hji
    cases hj.symm.trans hclient
    refine ⟨hinv, up, queued, rest, ⟨hbox.wire, hbox.waits, hbox.own⟩, hinbox, ?_⟩
    rw [hrole]
    exact Function.update_self ..
  · obtain ⟨hinv', up', queued', rest', hbox', hinbox', hmail'⟩ := h.players j other hj
    have hne : other.app.roleId ≠ x.msg.dispatchId := fun heq =>
      h.role_ne hclient hj hji (heq.trans hrole.symm)
    refine ⟨hinv', up', queued', rest', ⟨hbox'.wire, hbox'.waits, hbox'.own⟩, hinbox', ?_⟩
    rw [htaken, if_neg hne.symm, List.nil_append] at hmail'
    exact (Function.update_of_ne hne ..).trans hmail'

/-- **A worker of the server has a message dispatched**: the next one of its player is served. -/
theorem Sim.dispatch (h : s.Sim a sent) (k : Nat) (now : BitVec 64) :
    Agree Carries (s.dispatch k now) (run Mail.step a (s.mailEvents (.dispatch k now))) := by
  simp only [Session.dispatch, mailEvents]
  cases hk : s.server.recvMsgDispatcher.current k with
  | none => exact .ok ⟨sent, h⟩
  | some x =>
    obtain ⟨hpushed, -⟩ := h.table.inv.recv.of_current hk
    obtain ⟨hm, -, hr⟩ := h.table.pushed x hpushed
    obtain ⟨app, up, down, hmail, hsim⟩ := h.finished hk
    obtain ⟨func, hfunc, hcallback⟩ := hsim.callback hr hm now
    have hdispatch : s.server.recvMsgDispatcher.dispatcher.dispatch x.msg =
        .ok (some (func.getD 0), s.server.recvMsgDispatcher.dispatcher) := by
      unfold MsgDispatcher.dispatch
      simp only [h.table.async, h.table.callbacks, hfunc, h.table.default]
      rfl
    have hstep := h.table.inv.step_dispatch k
    rw [hk] at hstep
    show Agree Carries _ (run Mail.step a [.serve x.msg.dispatchId now])
    rw [run_single]
    unfold Mail.step
    simp only [hmail, hdispatch, hstep, bind, Except.bind]
    exact hcallback

theorem Sim.main (h : s.Sim a sent) : Agree Carries (s.step .main) (run Mail.step a [.main]) := by
  rw [run_single]
  exact h.onRoom trivial

/-- A send worker tries to take a message. -/
theorem Sim.sendTryPop (h : s.Sim a sent) (k : Nat) :
    Agree Carries (s.step (.sendTryPop k)) (run Mail.step a []) := by
  have hgiven : Given s.room (s.sendMsgDispatcher.tryPop k) a.out (s.server.gameServer.Reaches s.roles) := by
    refine ⟨h.given.toRoomOk, TracedDispatcher.inv_tryPop h.given.inv k, fun r => ?_, h.given.posts⟩
    rw [TracedDispatcher.waitingFor_tryPop]
    exact h.given.out_eq r
  rw [← h.room] at hgiven
  simp only [step, ← h.room]
  exact .ok ⟨sent, h.given_out hgiven rfl⟩

/-- What a write to a player does to its mail. -/
theorem inbox_send {client : ConnectedClient} {msgs queued rest : List Message}
    (h : client.Inbox msgs queued rest) {m : Message} (hm : m.AsConstructed) :
    client.Inbox (msgs ++ [m]) queued (rest ++ [m]) :=
  ⟨h.queue, h.wire.send hm, h.waits.imp id fun hw => h.wire.waits_send hw hm⟩

/-- **A worker of the server has a message sent**: the next one for its role. -/
theorem Sim.sendDispatch (h : s.Sim a sent) {k : Nat}
    (hidle : ∀ x ∈ s.sendMsgDispatcher.current k, ∀ c ∈ s.sendingNow.connMap x.msg.dispatchId,
      s.sending.Idle c) :
    Agree Carries (s.sendDispatch k) (run Mail.step a (s.mailEvents (.sendDispatch k))) := by
  simp only [Session.sendDispatch, mailEvents]
  cases hk : s.sendMsgDispatcher.current k with
  | none => exact .ok ⟨sent, h⟩
  | some x =>
    obtain ⟨hpushed, -⟩ := h.given.inv.of_current hk
    obtain ⟨hr, m, hpost, hm⟩ := h.given.posts x hpushed
    obtain ⟨i, client, hclient, hrole, hlookup⟩ := client_of_reaches hr
    obtain ⟨hinv, up, queued, rest, hbox, hinbox, hmail⟩ := h.players i client hclient
    have hwaiting : ∀ r, a.out r = (if x.msg.dispatchId = r then [x.note] else []) ++
        ((s.sendMsgDispatcher.finished k x).waitingFor r).map (·.note) := by
      intro r
      rw [h.given.out_eq, h.given.inv.waitingFor_finished hk, List.map_append]
      split <;> rfl
    have hout : a.out x.msg.dispatchId = x.note ::
        ((s.sendMsgDispatcher.finished k x).waitingFor x.msg.dispatchId).map (·.note) := by
      rw [hwaiting, if_pos rfl]
      rfl
    -- the write that is started
    have hstreams : s.sendingNow.Streams sent :=
      h.streams.of_sockets (Sending.inv_of_keeps h.streams.inv (Sending.keepsBuffers_of_eq rfl) rfl) rfl
    have hconn : s.sendingNow.connMap x.msg.dispatchId = some i := hlookup
    have hcontract : s.sendingNow.WithinContract (.sendCallback x.msg.dispatchId m) := hidle x hk
    obtain ⟨sending, hsend, hstreams', -⟩ := hstreams.step hcontract
    have hstarted : ∀ c, s.sendingNow.started c (.sendCallback x.msg.dispatchId m) = if c = i then [m] else [] := by
      intro c
      simp only [Sending.started, hconn, Option.some.injEq, eq_comm]
    have hdispatch := h.given.inv.dispatch_eq k
    rw [hk] at hdispatch
    show Agree Carries _ (run Mail.step a [.send x.msg.dispatchId])
    rw [run_single]
    rw [hrole] at hmail
    unfold Mail.step
    simp only [hout, hmail, h.room, hpost, show s.sendingNow.sendCallback _ m = .ok sending from hsend,
      hdispatch, bind, Except.bind]
    refine .ok ⟨_, h.room, hstreams', fun j hj => ?_, fun j other hj => ?_, fun r hr' => ?_, h.distinct, h.nonzero,
      h.table, ?_⟩
    · have hne : j ≠ i := fun heq => by
        have hlen : s.roles.length = s.clients.length := List.length_map _
        have hlt := (List.getElem?_eq_some_iff.mp hclient).1
        exact Nat.not_le_of_lt hlt (heq ▸ hlen ▸ hj)
      rw [hstarted, if_neg hne, List.append_nil]
      exact h.unsent j hj
    · by_cases hji : j = i
      · subst hji
        cases hj.symm.trans hclient
        refine ⟨hinv, up, queued, rest ++ [m], hbox, ?_, ?_⟩
        · rw [hstarted, if_pos rfl]
          exact inbox_send hinbox hm.constructed
        · rw [hrole, ← List.append_assoc]
          exact Function.update_self ..
      · rw [hstarted, if_neg hji, List.append_nil]
        obtain ⟨hinv', up', queued', rest', hbox', hinbox', hmail'⟩ := h.players j other hj
        have hne : other.app.roleId ≠ x.msg.dispatchId := fun heq =>
          h.role_ne hclient hj hji (heq.trans hrole.symm)
        exact ⟨hinv', up', queued', rest', hbox', hinbox', (Function.update_of_ne hne ..).trans hmail'⟩
    · exact (Function.update_of_ne (ne_of_mem_of_not_mem hr.mem hr').symm ..).trans (h.others r hr')
    · refine ⟨h.given.toRoomOk, TracedDispatcher.inv_finished h.given.inv hk, fun r => ?_, h.given.posts⟩
      by_cases hr' : r = x.msg.dispatchId
      · subst hr'
        exact Function.update_self ..
      · refine (Function.update_of_ne hr' ..).trans ?_
        rw [hwaiting, if_neg (Ne.symm hr'), List.nil_append]
        rfl

/-- The writes of the server go on. -/
theorem Sim.io (h : s.Sim a sent) {e : IoEvent} (he : s.sending.WithinContract e.event) :
    Agree Carries (s.step (.io e)) (run Mail.step a []) := by
  obtain ⟨sending, hstep, hstreams, -⟩ := io_ok h.streams he
  simp only [step, hstep]
  exact .ok ⟨sent, h.room, hstreams, h.unsent, h.players, h.others, h.distinct, h.nonzero, h.table, h.given⟩

end Serving

/-! ## Runs -/

/-- **One event**: the mail service takes one step or none, and fails if and only if the network
does. -/
theorem simulates_step {s : Session} {a : Mail} {e : SessionEvent} (h : s.Carries a)
    (he : s.WithinContract e) : Agree Carries (s.step e) (run Mail.step a (s.mailEvents e)) := by
  obtain ⟨sent, h⟩ := h
  cases e with
  | connect roleId => exact h.connect he.1 he.2
  | accept endpoint => exact h.accept he
  | read c n =>
    cases hclient : s.clients[c]? with
    | none =>
      simp only [step, hclient]
      exact .ok ⟨sent, h⟩
    | some client =>
      simp only [step, hclient]
      exact h.read hclient (he client hclient)
  | turn => exact h.turn
  | tryPop k => exact h.tryPop k
  | dispatch k now => exact h.dispatch k now
  | main => exact h.main
  | sendTryPop k => exact h.sendTryPop k
  | sendDispatch k => exact h.sendDispatch he
  | io e => exact h.io he
  | client i e =>
    cases hclient : s.clients[i]? with
    | none =>
      simp only [step, Session.onClient, mailEvents, hclient]
      exact .ok ⟨sent, h⟩
    | some client =>
      simp only [step, mailEvents, hclient, Option.toList_some, List.flatMap_singleton]
      exact h.onClient hclient (he client hclient)
  | clientRead i n =>
    cases hclient : s.clients[i]? with
    | none =>
      simp only [step, Session.onClient, hclient]
      exact .ok ⟨sent, h⟩
    | some client => exact h.clientRead hclient (he client hclient)

/-- The callbacks are set, by the types of their messages. -/
theorem setMsgFuncs_eq {d : MsgDispatcher} (hd : d.msgCallbacks = List.replicate 6 none) :
    GameServerExample.setMsgFuncs d =
      .ok { d with msgCallbacks := [none, none, some 2, some 1, some 3, none] } := by
  have h : GameServerExample.setMsgFuncs d = .ok { d with
      msgCallbacks := ((d.msgCallbacks.set 3 (some 1)).set 2 (some 2)).set 4 (some 3) } := rfl
  rw [h, hd]
  rfl

/-- A server that is started carries no mail. -/
theorem carries_new (serverName : String) : ∃ s, new serverName = .ok s ∧ s.Carries .new := by
  have hten : (10 : BitVec 32) ≠ 0 := by decide
  have hinv := MKServer.inv_new serverName hten
  unfold new
  simp only [setMsgFuncs_eq (d := (MKServer.new serverName 10).recvMsgDispatcher.dispatcher) rfl,
    bind, Except.bind, pure, Except.pure]
  refine ⟨_, rfl, fun _ => [], rfl, Sending.streams_new, fun _ _ => rfl, fun i client hi => ?_, fun _ _ => rfl,
    List.nodup_nil, List.not_mem_nil, ?_, ?_⟩
  · cases List.getElem?_nil.symm.trans hi
  · exact ⟨⟨hinv.routing, hinv.ready, hinv.recv.setCallbacks rfl⟩, rfl, rfl, rfl, Nat.le_refl _, nofun,
      fun _ _ => ⟨rfl, rfl⟩, nofun, nofun⟩
  · have hsend : TracedDispatcher.Inv 10 (.new 10 : TracedDispatcher Post) := TracedDispatcher.inv_new hten
    refine ⟨⟨RoomThreads.inputsInOrder_new, nofun, nofun, nofun⟩, hsend, fun r => ?_, nofun⟩
    have hnil : (TracedDispatcher.new 10 : TracedDispatcher Post).waitingFor r = [] :=
      List.eq_nil_iff_forall_not_mem.mpr fun x hx => by cases (hsend.mem_waitingFor hx).1
    exact (congrArg (List.map _) hnil).symm

/-- **The framework refines the mail service.** Whatever the order in which the threads, the workers
and the connections go on, a run of the network within its contract is the run of the mail service
that its events amount to: it fails where that does, and otherwise they end at the same point. -/
theorem session_refines_mail (serverName : String) {s : Session} (hs : new serverName = .ok s)
    {events : List SessionEvent} (hc : EachStep step WithinContract s events) :
    Agree Carries (run step s events) (run Mail.step .new (translated step mailEvents s events)) := by
  obtain ⟨s', hs', hcarries⟩ := carries_new serverName
  cases hs.symm.trans hs'
  exact agree_of_step (fun _ _ _ => simulates_step) hcarries hc

/-- The only player's `i`-th message goes to the room. -/
def goesUp (i : Nat) (now : BitVec 64) : List SessionEvent :=
  [.client 0 (.io (.transfer 0 i 29)), .client 0 (.io (.leaveScope i)), .read 0 29, .turn, .turn, .tryPop 2,
    .dispatch 2 now]

/-- The room's `i`-th message goes to the only player. -/
def goesDown (i : Nat) (now : BitVec 64) : List SessionEvent :=
  [.sendTryPop 2, .sendDispatch 2, .io (.transfer 0 i 29), .io (.leaveScope i), .clientRead 0 29,
    .client 0 .turn, .client 0 .turn, .client 0 .tryPop, .client 0 (.dispatch now)]

/-- Role 2 pings and calls `EnterRoom`, and the room has it. -/
def entering : List SessionEvent :=
  [.connect 2, .accept "127.0.0.1:2000", .client 0 (.call (.testDelay 5))] ++ goesUp 0 7 ++ goesDown 0 9 ++
    [.client 0 (.call (.enterRoom 1))] ++ goesUp 1 20

theorem entering_refines_mail : ∃ s, new "server" = .ok s ∧
    Agree Carries (run step s entering) (run Mail.step .new (translated step mailEvents s entering)) :=
  ⟨_, rfl, session_refines_mail "server" rfl (by decide +kernel)⟩

end Session

end GameNetwork
