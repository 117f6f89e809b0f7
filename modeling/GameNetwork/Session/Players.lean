import Mathlib.Data.List.Infix
import GameNetwork.Session.Room

/-!
# The players and their mail

`Sim` relates a game over the network to the mail service: a queue of the mail
service is what the workers of a dispatcher have for a role and what is on the
wire behind that, both read off the state. Here are the events of the players:
`Sim.onClient`, `Sim.clientRead` and `Sim.connect`.
-/

namespace GameNetwork

open Lib

/-! ## The players and the tables -/

/-- The table of the roles has the player of this role. -/
def GameServer.Reaches (s : GameServer) (roles : List RoleId) (r : RoleId) : Prop :=
  ∃ i : ConnId, roles[i]? = some r ∧ s.roleIdConnMap.lookup r = some i

/-- What a player has sent and no worker of the server has. -/
structure Outbox (server : MKServer) (read : ConnId → Nat) (i : ConnId) (client : ConnectedClient)
    (up : List Message) : Prop where
  wire : ∃ sent, client.sending.Streams sent ∧ Wire (sent 0) (read i) (server.held i) up
  waits : server.decoding = some i ∨ Waits (server.held i) up
  own : ∀ m ∈ up, m.Regular ∧ m.base.roleId = client.app.roleId

/-- What the workers of the server have of a role. -/
def MKServer.taken (server : MKServer) (r : RoleId) : List Message :=
  (server.recvMsgDispatcher.waitingFor r).map (·.msg.baseMessagePtr)

/-- A player of the network is one of the mail service. -/
structure Plays (server : MKServer) (read : ConnId → Nat) (mail : RoleId → Option MailClient)
    (sent : List Message) (i : ConnId) (client : ConnectedClient) : Prop where
  inv : client.Inv
  boxes : ∃ up queued rest, Outbox server read i client up ∧ client.Inbox sent queued rest ∧
    mail client.app.roleId =
      some ⟨client.app.idle, server.taken client.app.roleId ++ up, queued ++ rest⟩

/-- The tables of the server, and what its dispatcher has been given. -/
structure Table (server : MKServer) (read : ConnId → Nat) (roles : List RoleId) : Prop where
  inv : server.Inv 10
  async : server.recvMsgDispatcher.dispatcher.enableSync = false
  /-- `EnterRoom`, `Control` and `Ping`. -/
  callbacks : server.recvMsgDispatcher.dispatcher.msgCallbacks =
    [none, none, some 2, some 1, some 3, none]
  default : server.recvMsgDispatcher.dispatcher.defaultMessageCallback = 0
  conns_le : server.gameServer.conns.length ≤ roles.length
  decoding : ∀ c ∈ server.decoding, c < server.gameServer.conns.length
  unread : ∀ i, server.gameServer.conns.length ≤ i → read i = 0 ∧ server.held i = []
  conn : ∀ i, i < server.gameServer.conns.length → ∃ conn name, server.gameServer.armedConn i = some conn ∧
    server.gameServer.gameConnectionMap.lookup name = some i ∧
    (conn.game.roleId = 0 ∨ roles[i]? = some conn.game.roleId ∧
      server.gameServer.roleIdConnMap.lookup conn.game.roleId = some i)
  pushed : ∀ x ∈ server.pushed, x.msg.baseMessagePtr.Regular ∧
    x.msg.baseMessagePtr.base.roleId = x.msg.dispatchId ∧ server.gameServer.Reaches roles x.msg.dispatchId

section Table

variable {server : MKServer} {read : ConnId → Nat} {roles : List RoleId}

theorem GameServer.Reaches.append {gameServer : GameServer} {r : RoleId} (h : gameServer.Reaches roles r)
    (roleIds : List RoleId) : gameServer.Reaches (roles ++ roleIds) r := by
  obtain ⟨i, hi, hlookup⟩ := h
  refine ⟨i, ?_, hlookup⟩
  rw [List.getElem?_append_left (List.getElem?_eq_some_iff.mp hi).1]
  exact hi

theorem GameServer.Reaches.mem {gameServer : GameServer} {r : RoleId} (h : gameServer.Reaches roles r) :
    r ∈ roles := by
  obtain ⟨i, hi, -⟩ := h
  exact List.mem_of_getElem? hi

theorem Table.append (h : Table server read roles) (roleIds : List RoleId) :
    Table server read (roles ++ roleIds) where
  inv := h.inv
  async := h.async
  callbacks := h.callbacks
  default := h.default
  conns_le := by
    rw [List.length_append]
    exact Nat.le_add_right_of_le h.conns_le
  decoding := h.decoding
  unread := h.unread
  conn i hi := by
    obtain ⟨conn, name, harmed, hname, hrole⟩ := h.conn i hi
    refine ⟨conn, name, harmed, hname, hrole.imp_right fun hrole => ⟨?_, hrole.2⟩⟩
    rw [List.getElem?_append_left (Nat.lt_of_lt_of_le hi h.conns_le)]
    exact hrole.1
  pushed x hx := ⟨(h.pushed x hx).1, (h.pushed x hx).2.1, (h.pushed x hx).2.2.append _⟩

/-- Nothing has come of a role that is no player's. -/
theorem Table.taken_eq_nil (h : Table server read roles) {r : RoleId} (hr : r ∉ roles) :
    server.taken r = [] := by
  unfold MKServer.taken
  rw [List.map_eq_nil_iff, List.eq_nil_iff_forall_not_mem]
  intro x hx
  obtain ⟨hpushed, rfl⟩ := h.inv.recv.mem_waitingFor hx
  exact hr (h.pushed x hpushed).2.2.mem

end Table

namespace Session

/-- The roles of the players, by connection. -/
def roles (s : Session) : List RoleId := s.clients.map (·.app.roleId)

/-- **A state of the network and a state of the mail service**, where the server has sent `sent` to
each connection. -/
structure Sim (s : Session) (a : Mail) (sent : ConnId → List Message) : Prop where
  room : a.room = s.room
  streams : s.sending.Streams sent
  unsent : ∀ i, s.roles.length ≤ i → sent i = []
  players : ∀ i client, s.clients[i]? = some client →
    Plays s.server s.read a.clients (sent i) i client
  others : ∀ r, r ∉ s.roles → a.clients r = none
  distinct : s.roles.Nodup
  nonzero : 0 ∉ s.roles
  table : Table s.server s.read s.roles
  given : Given s.room s.sendMsgDispatcher a.out (s.server.gameServer.Reaches s.roles)

/-! ### One player -/

section Player

variable {s : Session} {a a' : Mail} {sent : ConnId → List Message} {i : ConnId}
  {client client' : ConnectedClient}

theorem roles_getElem? (hi : s.clients[i]? = some client) : s.roles[i]? = some client.app.roleId := by
  rw [roles, List.getElem?_map, hi]
  rfl

/-- Two players have two roles. -/
theorem Sim.role_ne (h : s.Sim a sent) {j : ConnId} {other : ConnectedClient}
    (hi : s.clients[i]? = some client) (hj : s.clients[j]? = some other) (hne : j ≠ i) :
    other.app.roleId ≠ client.app.roleId := fun heq => by
  have hi' := roles_getElem? hi
  have hj' := roles_getElem? hj
  rw [heq, ← hi'] at hj'
  have hlt : j < s.roles.length := by
    rw [hi'] at hj'
    exact (List.getElem?_eq_some_iff.mp hj').1
  exact hne ((List.getElem?_inj hlt h.distinct).mp hj')

theorem roles_set (hi : s.clients[i]? = some client) (hrole : client'.app.roleId = client.app.roleId) :
    ({ s with clients := s.clients.set i client' } : Session).roles = s.roles := by
  obtain ⟨hlt, rfl⟩ := List.getElem?_eq_some_iff.mp hi
  show (s.clients.set i client').map _ = s.clients.map _
  rw [List.map_set, hrole]
  refine List.ext_getElem? fun j => ?_
  rw [List.getElem?_set]
  split
  · next heq =>
    subst heq
    simp [hlt]
  · rfl

/-- One player changes. -/
theorem Sim.setClient (h : s.Sim a sent) (hi : s.clients[i]? = some client)
    (hrole : client'.app.roleId = client.app.roleId) (hroom : a'.room = a.room) (hout : a'.out = a.out)
    (hclients : ∀ r, r ≠ client.app.roleId → a'.clients r = a.clients r)
    (hplays : Plays s.server s.read a'.clients (sent i) i client') :
    ({ s with clients := s.clients.set i client' } : Session).Sim a' sent := by
  have hroles := roles_set hi hrole
  refine ⟨hroom.trans h.room, h.streams, ?_, fun j other hj => ?_, fun r hr => ?_, ?_, ?_, ?_, ?_⟩
  · rw [hroles]
    exact h.unsent
  · by_cases hji : j = i
    · subst hji
      rw [List.getElem?_set_self (List.getElem?_eq_some_iff.mp hi).1] at hj
      cases hj
      exact hplays
    · rw [List.getElem?_set_ne fun heq => hji heq.symm] at hj
      obtain ⟨hinv, up, queued, rest, houtbox, hinbox, hmail⟩ := h.players j other hj
      refine ⟨hinv, up, queued, rest, houtbox, hinbox, ?_⟩
      rw [hclients _ (h.role_ne hi hj hji)]
      exact hmail
  · rw [hroles] at hr
    rw [hclients r fun heq => hr (heq ▸ List.mem_of_getElem? (roles_getElem? hi))]
    exact h.others r hr
  · rw [hroles]
    exact h.distinct
  · rw [hroles]
    exact h.nonzero
  · rw [hroles]
    exact h.table
  · rw [hroles, hout]
    exact h.given

/-- Nothing changes for the mail service. -/
theorem Sim.quiet (h : s.Sim a sent) (hi : s.clients[i]? = some client) (hinv : client'.Inv)
    (happ : client'.app.idle = client.app.idle)
    (hsending : ∀ up, client.sending.Streams up → client'.sending.Streams up)
    (hbox : ∀ queued rest, client.Inbox (sent i) queued rest →
      ∃ queued' rest', client'.Inbox (sent i) queued' rest' ∧ queued' ++ rest' = queued ++ rest) :
    ({ s with clients := s.clients.set i client' } : Session).Sim a sent := by
  have hrole : client'.app.roleId = client.app.roleId := by
    have hroleId := congrArg ClientApp.roleId happ
    exact hroleId
  obtain ⟨-, up, queued, rest, ⟨⟨sentUp, hstreams, hwire⟩, hwaits, hown⟩, hinbox, hmail⟩ := h.players i client hi
  obtain ⟨queued', rest', hinbox', heq⟩ := hbox queued rest hinbox
  refine h.setClient hi hrole rfl rfl (fun _ _ => rfl) ⟨hinv, up, queued', rest', ?_, hinbox', ?_⟩
  · exact ⟨⟨sentUp, hsending sentUp hstreams, hwire⟩, hwaits, by rw [hrole]; exact hown⟩
  · rw [hrole, happ, heq]
    exact hmail

/-- What the writes of a host do once they are started. -/
theorem io_ok {sending : Sending} {up : ConnId → List Message} (hup : sending.Streams up) {e : IoEvent}
    (he : sending.WithinContract e.event) : ∃ sending', sending.step e.event = .ok sending' ∧
      sending'.Streams up ∧ sending'.connMap = sending.connMap := by
  obtain ⟨sending', hstep, hstreams, -⟩ := hup.step he
  have hnone : (fun c => up c ++ sending.started c e.event) = up := by
    funext c
    cases e <;> exact List.append_nil _
  rw [hnone] at hstreams
  refine ⟨sending', hstep, hstreams, ?_⟩
  cases e with
  | leaveScope buffer => cases hstep; rfl
  | overwrite buffer offset byte =>
    simp only [IoEvent.event, Sending.step] at hstep
    split at hstep <;> cases hstep <;> rfl
  | transfer c i n =>
    simp only [IoEvent.event, Sending.step] at hstep
    split at hstep <;> cases hstep <;> rfl

/-- The network and the mail service are at the same point. -/
def Carries (s : Session) (a : Mail) : Prop := ∃ sent, s.Sim a sent

theorem onClient_ok (hi : s.clients[i]? = some client) {f : ConnectedClient → Except Fault ConnectedClient}
    (hf : f client = .ok client') :
    s.onClient i f = .ok { s with clients := s.clients.set i client' } := by
  unfold onClient
  rw [hi]
  show (f client).bind _ = _
  rw [hf]
  rfl

theorem onClient_error (hi : s.clients[i]? = some client) {f : ConnectedClient → Except Fault ConnectedClient}
    {e : Fault} (hf : f client = .error e) : s.onClient i f = .error e := by
  unfold onClient
  rw [hi]
  show (f client).bind _ = _
  rw [hf]
  rfl

/-- One event of the mail service. -/
theorem run_single (a : Mail) (e : MailEvent) : run Mail.step a [e] = Mail.step a e := by
  show (Mail.step a e).bind _ = _
  cases Mail.step a e <;> rfl

/-- The game of a player calls. -/
theorem Sim.call (h : s.Sim a sent) (hi : s.clients[i]? = some client) {call : GameCall}
    (he : client.WithinContract (.call call)) :
    Agree Carries (s.onClient i (·.step (.call call))) (run Mail.step a [.call client.app.roleId call]) := by
  obtain ⟨hinv, up, queued, rest, ⟨⟨sentUp, hstreams, hwire⟩, hwaits, hown⟩, hinbox, hmail⟩ :=
    h.players i client hi
  rw [run_single]
  unfold Mail.step
  simp only [hmail]
  rcases ConnectedClient.call_ok hinv hinbox he hstreams with ⟨e, happ, hcall⟩ |
    ⟨msg, client', happ, hcall, hinv', hinbox', hrole, hsends, sentUp', hstreams', hsentUp, -⟩
  · rw [onClient_error hi hcall, happ]
    exact .error e
  · rw [onClient_ok hi hcall, happ]
    refine .ok ⟨sent, h.setClient hi hrole rfl rfl (fun r hr => Function.update_of_ne hr ..)
      ⟨hinv', up ++ msg.toList, queued, rest, ⟨⟨sentUp', hstreams', ?_⟩, ?_, ?_⟩, hinbox', ?_⟩⟩
    · rw [hsentUp]
      cases msg with
      | none => simpa using hwire
      | some m => exact hwire.send (hsends m rfl).1.constructed
    · refine hwaits.imp id fun hwaits => ?_
      cases msg with
      | none => simpa using hwaits
      | some m => exact hwire.waits_send hwaits (hsends m rfl).1.constructed
    · intro m hm
      rw [hrole]
      rcases List.mem_append.mp hm with hm | hm
      · exact hown m hm
      · exact hsends m (Option.mem_toList.mp hm)
    · rw [hrole]
      refine (Function.update_self ..).trans ?_
      simp only [List.append_assoc]

/-- The worker of a player has a message dispatched: the next one is received, if it has one. -/
theorem Sim.receive (h : s.Sim a sent) (hi : s.clients[i]? = some client) (now : BitVec 64) :
    Agree Carries (s.onClient i (·.step (.dispatch now)))
      (run Mail.step a (client.mailEvents (.dispatch now))) := by
  obtain ⟨hinv, up, queued, rest, ⟨⟨sentUp, hstreams, hwire⟩, hwaits, hown⟩, hinbox, hmail⟩ :=
    h.players i client hi
  unfold ConnectedClient.mailEvents
  rcases ConnectedClient.dispatch_ok hinv hinbox now with ⟨hidle, hnone⟩ | ⟨m, queued', rfl, hbusy, hsome⟩
  · rw [onClient_ok hi hnone, hidle]
    refine .ok ⟨sent, h.quiet hi hinv rfl (fun _ hup => hup) fun queued rest hbox => ?_⟩
    exact ⟨queued, rest, hbox, rfl⟩
  · rw [hbusy]
    refine (run_single a (.receive client.app.roleId now)).symm ▸ ?_
    unfold Mail.step
    simp only [hmail, List.cons_append]
    rcases hsome with ⟨e, happ, hdispatch⟩ |
      ⟨client', happ, hdispatch, hinv', hinbox', hsending, hrole⟩
    · rw [onClient_error hi hdispatch, happ]
      exact .error e
    · rw [onClient_ok hi hdispatch, happ]
      refine .ok ⟨sent, h.setClient hi hrole rfl rfl (fun r hr => Function.update_of_ne hr ..)
        ⟨hinv', up, queued', rest, ⟨⟨sentUp, ?_, hwire⟩, hwaits, ?_⟩, hinbox', ?_⟩⟩
      · rw [hsending]
        exact hstreams
      · rw [hrole]
        exact hown
      · rw [hrole]
        exact Function.update_self ..

/-- **An event of one player.** -/
theorem Sim.onClient (h : s.Sim a sent) (hi : s.clients[i]? = some client) {e : ClientEvent}
    (he : client.WithinContract e) :
    Agree Carries (s.onClient i (·.step e)) (run Mail.step a (client.mailEvents e)) := by
  obtain ⟨hinv, -, queued₀, rest₀, -, hinbox₀, -⟩ := h.players i client hi
  cases e with
  | call call => exact h.call hi he
  | dispatch now => exact h.receive hi now
  | io e =>
    obtain ⟨-, up₀, -, -, ⟨⟨sentUp₀, hstreams₀, -⟩, -⟩, -⟩ := h.players i client hi
    obtain ⟨sending, hstep, -, hconnMap⟩ := io_ok hstreams₀ he
    have hclient : client.step (.io e) = .ok { client with sending := sending } := by
      show (client.sending.step e.event).bind _ = _
      rw [hstep]
      rfl
    rw [onClient_ok hi hclient]
    refine .ok ⟨sent, h.quiet hi ?_ rfl (fun up hup => ?_) fun queued rest hbox => ⟨queued, rest, ?_, rfl⟩⟩
    · exact hinv.of_app ⟨rfl, rfl, rfl⟩ hinv.constructed hconnMap hinv.ready hinv.worker
    · obtain ⟨sending', hstep', hstreams', -⟩ := io_ok hup he
      cases hstep.symm.trans hstep'
      exact hstreams'
    · exact ⟨hbox.queue, hbox.wire, hbox.waits⟩
  | turn =>
    obtain ⟨client', -, -, hturn, hinv', -, -, hsilent⟩ := ConnectedClient.turn_ok hinv hinbox₀
    rw [onClient_ok hi (show client.step .turn = .ok client' from hturn)]
    refine .ok ⟨sent, h.quiet hi hinv' hsilent.app (fun up hup => ?_) fun queued rest hbox => ?_⟩
    · rw [hsilent.sending]
      exact hup
    · obtain ⟨client'', queued', rest', hturn', -, hinbox', heq, -⟩ := ConnectedClient.turn_ok hinv hbox
      cases hturn.symm.trans hturn'
      exact ⟨queued', rest', hinbox', heq⟩
  | tryPop =>
    obtain ⟨hinv', -, hsilent⟩ := ConnectedClient.tryPop_ok hinv hinbox₀
    rw [onClient_ok hi (show client.step .tryPop = .ok client.tryPop from rfl)]
    refine .ok ⟨sent, h.quiet hi hinv' hsilent.app (fun up hup => ?_) fun queued rest hbox => ?_⟩
    · rw [hsilent.sending]
      exact hup
    · exact ⟨queued, rest, (ConnectedClient.tryPop_ok hinv hbox).2.1, rfl⟩

/-- **A player reads** what the server has transferred. -/
theorem Sim.clientRead (h : s.Sim a sent) (hi : s.clients[i]? = some client) {n : Nat}
    (hle : (s.downBytes i client n).length ≤ client.receiver.buffer.writableSize) :
    Agree Carries (s.onClient i fun client => client.receive (s.downBytes i client n))
      (run Mail.step a []) := by
  obtain ⟨hinv, -, queued₀, rest₀, -, hinbox₀, -⟩ := h.players i client hi
  have hbytes : s.downBytes i client n <+: ((sent i).map Message.frame).flatten.drop client.read :=
    (List.take_prefix _ _).trans (List.IsPrefix.drop (h.streams.transferred_isPrefix i) _)
  obtain ⟨client', hreceive, hinv', -, hsilent⟩ := ConnectedClient.receive_ok hinv hinbox₀ hbytes hle
  rw [onClient_ok hi hreceive]
  refine .ok ⟨sent, h.quiet hi hinv' hsilent.app (fun up hup => ?_) fun queued rest hbox => ?_⟩
  · rw [hsilent.sending]
    exact hup
  · obtain ⟨client'', hreceive', -, hinbox', -⟩ := ConnectedClient.receive_ok hinv hbox hbytes hle
    cases hreceive.symm.trans hreceive'
    exact ⟨queued, rest, hinbox', rfl⟩

end Player

/-! ### A new player -/

/-- **A player connects.** -/
theorem Sim.connect {s : Session} {a : Mail} {sent : ConnId → List Message} (h : s.Sim a sent)
    {roleId : RoleId} (hnonzero : roleId ≠ 0) (hfresh : ∀ client ∈ s.clients, client.app.roleId ≠ roleId) :
    Agree Carries (s.step (.connect roleId)) (run Mail.step a [.connect roleId]) := by
  obtain ⟨client, hnew, happ, hrole, hinv, hinbox, hstreams⟩ := ConnectedClient.new_ok roleId
  have hnotMem : roleId ∉ s.roles := fun hmem => by
    obtain ⟨client, hclient, heq⟩ := List.mem_map.mp hmem
    exact hfresh client hclient heq
  have hroles : ({ s with clients := s.clients ++ [client] } : Session).roles = s.roles ++ [roleId] := by
    show (s.clients ++ [client]).map _ = s.clients.map _ ++ _
    rw [List.map_append, ← hrole]
    rfl
  have hlen : s.roles.length = s.clients.length := List.length_map _
  rw [run_single]
  unfold step Mail.step
  simp only [h.others roleId hnotMem, hnew, happ, bind, Except.bind, pure, Except.pure]
  refine .ok ⟨sent, h.room, h.streams, fun i hi => h.unsent i ?_, fun i other hi => ?_, fun r hr => ?_, ?_, ?_,
    ?_, ?_⟩
  · rw [hroles, List.length_append] at hi
    exact Nat.le_of_add_right_le hi
  · rcases Nat.lt_or_ge i s.clients.length with hlt | hge
    · rw [List.getElem?_append_left hlt] at hi
      obtain ⟨hinv, up, queued, rest, houtbox, hinbox, hmail⟩ := h.players i other hi
      refine ⟨hinv, up, queued, rest, houtbox, hinbox, ?_⟩
      refine (Function.update_of_ne ?_ ..).trans hmail
      exact hfresh other (List.mem_of_getElem? hi)
    · rw [List.getElem?_append_right hge, List.getElem?_singleton] at hi
      split at hi <;> cases hi
      obtain ⟨hread, hheld⟩ := h.table.unread i (Nat.le_trans h.table.conns_le (hlen ▸ hge))
      have hsent : sent i = [] := h.unsent i (hlen ▸ hge)
      refine ⟨hinv, [], [], [], ⟨⟨_, hstreams, ?_⟩, .inr ?_, nofun⟩, ?_, ?_⟩
      · rw [hread, hheld]
        exact .new
      · rw [hheld]
        exact Wire.waits_new
      · rw [hsent]
        exact hinbox
      · rw [hrole, h.table.taken_eq_nil hnotMem]
        exact Function.update_self ..
  · rw [hroles, List.mem_append, List.mem_singleton, not_or] at hr
    exact (Function.update_of_ne hr.2 ..).trans (h.others r hr.1)
  · rw [hroles]
    exact List.nodup_append.mpr ⟨h.distinct, List.nodup_singleton _, fun r hr r' hr' heq => by
      rw [List.mem_singleton.mp hr'] at heq
      exact hnotMem (heq ▸ hr)⟩
  · rw [hroles, List.mem_append, List.mem_singleton]
    exact fun hmem => hmem.elim h.nonzero fun heq => hnonzero heq.symm
  · rw [hroles]
    exact h.table.append _
  · rw [hroles]
    exact h.given.mono fun r hr => hr.append _

end Session

end GameNetwork
