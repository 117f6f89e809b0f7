import GameNetwork.Session.Playback
import GameNetwork.Session.Simulation

/-!
# From the mail service to the network

What is known of the runs of the mail service is brought to those of the
network: the states of a run that does not fail (`carried_run`), and the
conditions on its events. `Settled` says when nothing of a player's is under
way on the network, which leaves the queues of the mail service empty. What a
player `Misses` that comes into the room is fixed then, and from then on its
game has the rest of the record (`Misses.follows`, `Follows.played`).
-/

namespace GameNetwork

open Lib

namespace Session

/-- **Nothing of a player's is under way**: all that was written has been read and decoded, and no
worker has a message of it or for it. -/
@[mk_iff]
structure Settled (s : Session) (i : ConnId) (client : ConnectedClient) : Prop where
  writtenUp : client.sending.Idle 0
  readUp : s.read i = (client.sending.sockets 0).transferred.length
  decodedUp : s.server.decoding ≠ some i
  served : s.server.recvMsgDispatcher.waitingFor client.app.roleId = []
  posted : s.sendMsgDispatcher.waitingFor client.app.roleId = []
  writtenDown : s.sending.Idle i
  readDown : client.read = (s.sending.sockets i).transferred.length
  decodedDown : client.decoding = false
  dispatched : client.queue = []

instance (s : Session) (i : ConnId) (client : ConnectedClient) : Decidable (s.Settled i client) :=
  decidable_of_iff _ (s.settled_iff i client).symm

/-- A call of `EnterRoom` is not the 2^32-th of its player. -/
def FewCalls (s : Session) : SessionEvent → Prop
  | .client i (.call (.enterRoom _)) =>
    ∀ client ∈ s.clients[i]?, client.app.entered.length + 1 < 2 ^ 32
  | _ => True

instance (s : Session) : ∀ e, Decidable (s.FewCalls e)
  | .client _ (.call (.enterRoom _)) => inferInstanceAs (Decidable (∀ _ ∈ (_ : Option _), _))
  | .client _ (.call (.pushInput ..)) | .client _ (.call (.testDelay _)) | .client _ (.call (.popInput _))
  | .client _ (.io _) | .client _ .turn | .client _ .tryPop | .client _ (.dispatch _) => .isTrue trivial
  | .connect _ | .accept _ | .read .. | .turn | .tryPop _ | .dispatch .. | .main | .sendTryPop _
  | .sendDispatch _ | .io _ | .clientRead .. => .isTrue trivial

/-- A GAME_START that a player has dispatched is its first. -/
def FirstStart (s : Session) : SessionEvent → Prop
  | .client i (.dispatch _) => ∀ client ∈ s.clients[i]?, ∀ x ∈ client.dispatching,
    x.baseMessagePtr.gameStart?.isSome → client.app.gameStartPromise = none
  | _ => True

/-- **What a role misses** that has come into the room in a run: what was recorded before, and role 3
nothing. -/
def Misses (s : Session) (events : List SessionEvent) (r : RoleId) (missed : List Input) : Prop :=
  ∃ t, Crosses step (r ∈ ·.room.room.roleIds) s events t ∧
    missed = if r = 3 then [] else t.room.room.playback

/-- A player is in the room, and has been given the record but for `missed`. -/
def Follows (s : Session) (r : RoleId) (missed : List Input) : Prop := ∃ a, s.Carries a ∧ a.Follows r missed

section State

variable {s t : Session} {a : Mail} {sent : ConnId → List Message} {i : ConnId} {client : ConnectedClient}

/-! ## One state -/

/-- The player, as the mail service has it. -/
theorem Sim.mailOf (h : s.Sim a sent) (hi : s.clients[i]? = some client) :
    ∃ up down, a.clients client.app.roleId = some ⟨client.app.idle, up, down⟩ := by
  obtain ⟨-, up, queued, rest, -, -, hmail⟩ := h.players i client hi
  exact ⟨_, _, hmail⟩

/-- All that was transferred, on a connection whose writes are done. -/
theorem length_of_idle {sending : Sending} {msgs : ConnId → List Message} (h : sending.Streams msgs) {c : ConnId}
    (hidle : sending.Idle c) :
    ((msgs c).map Message.frame).flatten.length = (sending.sockets c).transferred.length := by
  rw [← h.transferred_append c, h.unsent_of_idle hidle, List.append_nil]

/-- **A player of whom nothing is under way** has no mail. -/
theorem Settled.empty (hs : s.Settled i client) (h : s.Sim a sent) (hi : s.clients[i]? = some client) :
    a.clients client.app.roleId = some ⟨client.app.idle, [], []⟩ ∧ a.out client.app.roleId = [] := by
  obtain ⟨-, up, queued, rest, ⟨⟨sentUp, hstreams, hwire⟩, hwaits, -⟩, hinbox, hmail⟩ := h.players i client hi
  have hup : up = [] := by
    refine hwire.rest_eq_nil (hwaits.resolve_left hs.decodedUp) ?_
    rw [length_of_idle hstreams hs.writtenUp, hs.readUp]
  have hrest : rest = [] := by
    refine hinbox.wire.rest_eq_nil (hinbox.waits.resolve_left ?_) ?_
    · rw [hs.decodedDown]
      exact Bool.false_ne_true
    · rw [length_of_idle h.streams hs.writtenDown, hs.readDown]
  have hqueued : queued = [] := by
    have hqueue := hinbox.queue
    rw [hs.dispatched] at hqueue
    exact List.map_eq_nil_iff.mp hqueue.symm
  have htaken : s.server.taken client.app.roleId = [] := by
    rw [MKServer.taken, hs.served]
    rfl
  constructor
  · rw [hmail, htaken, hup, hqueued, hrest]
    rfl
  · rw [h.given.out_eq, hs.posted]
    rfl

/-! ## The conditions on an event -/

/-- An event is one of the mail service, or none. -/
theorem mailEvents_cases (s : Session) (e : SessionEvent) :
    s.mailEvents e = [] ∨ ∃ d, s.mailEvents e = [d] := by
  cases e with
  | connect roleId => exact .inr ⟨_, rfl⟩
  | main => exact .inr ⟨_, rfl⟩
  | dispatch k now =>
    simp only [mailEvents]
    cases s.server.recvMsgDispatcher.current k with
    | none => exact .inl rfl
    | some x => exact .inr ⟨_, rfl⟩
  | sendDispatch k =>
    simp only [mailEvents]
    cases s.sendMsgDispatcher.current k with
    | none => exact .inl rfl
    | some x => exact .inr ⟨_, rfl⟩
  | client i e =>
    simp only [mailEvents]
    cases s.clients[i]? with
    | none => exact .inl rfl
    | some client =>
      rw [Option.toList_some, List.flatMap_singleton]
      cases e with
      | call call => exact .inr ⟨_, rfl⟩
      | dispatch now =>
        simp only [ConnectedClient.mailEvents]
        cases client.dispatching with
        | none => exact .inl rfl
        | some x => exact .inr ⟨_, rfl⟩
      | _ => exact .inl rfl
  | _ => exact .inl rfl

/-- **What an event of the mail service is** on the network. -/
theorem mem_mailEvents {e : SessionEvent} {d : MailEvent} (hd : d ∈ s.mailEvents e) : match d with
    | .connect roleId => e = .connect roleId
    | .main => e = .main
    | .serve r now => ∃ k x, e = .dispatch k now ∧ s.server.recvMsgDispatcher.current k = some x ∧
        r = x.msg.dispatchId
    | .send r => ∃ k x, e = .sendDispatch k ∧ s.sendMsgDispatcher.current k = some x ∧ r = x.msg.dispatchId
    | .call r call => ∃ i client, e = .client i (.call call) ∧ s.clients[i]? = some client ∧
        r = client.app.roleId
    | .receive r now => ∃ i client x, e = .client i (.dispatch now) ∧ s.clients[i]? = some client ∧
        client.dispatching = some x ∧ r = client.app.roleId := by
  cases e with
  | connect roleId =>
    cases List.mem_singleton.mp hd
    rfl
  | main =>
    cases List.mem_singleton.mp hd
    rfl
  | sendDispatch k =>
    obtain ⟨x, hx, rfl⟩ := List.mem_map.mp hd
    exact ⟨k, x, rfl, Option.mem_toList.mp hx, rfl⟩
  | dispatch k now =>
    obtain ⟨x, hx, rfl⟩ := List.mem_map.mp hd
    exact ⟨k, x, rfl, Option.mem_toList.mp hx, rfl⟩
  | client i e =>
    obtain ⟨client, hclient, hd⟩ := List.mem_flatMap.mp hd
    cases e with
    | call call =>
      cases List.mem_singleton.mp hd
      exact ⟨i, client, rfl, Option.mem_toList.mp hclient, rfl⟩
    | dispatch now =>
      obtain ⟨x, hx, rfl⟩ := List.mem_map.mp hd
      exact ⟨i, client, x, rfl, Option.mem_toList.mp hclient, Option.mem_toList.mp hx, rfl⟩
    | _ => cases hd
  | _ => cases hd

theorem eachStep_mailEvents {D : Mail → MailEvent → Prop} {e : SessionEvent} (h : ∀ d ∈ s.mailEvents e, D a d) :
    EachStep Mail.step D a (s.mailEvents e) := by
  rcases s.mailEvents_cases e with hnone | ⟨d, hone⟩
  · rw [hnone]
    exact eachStep_nil
  · rw [hone]
    exact eachStep_singleton (h d (hone ▸ List.mem_singleton_self d))

theorem betweenUpdates_mailEvents (h : s.Sim a sent) {e : SessionEvent} (hb : s.BetweenUpdates e) :
    ∀ d ∈ s.mailEvents e, a.BetweenUpdates d := by
  intro d hd
  cases d with
  | serve r now =>
    obtain ⟨k, x, rfl, hx, rfl⟩ := mem_mailEvents hd
    obtain ⟨app, up, down, hmail, -⟩ := h.finished hx
    intro client hclient m hm hsome
    cases hmail.symm.trans hclient
    cases hm
    rw [h.room]
    exact hb x hx hsome
  | _ => trivial

theorem fewCalls_mailEvents (h : s.Sim a sent) {e : SessionEvent} (hfew : s.FewCalls e) :
    ∀ d ∈ s.mailEvents e, a.FewCalls d := by
  intro d hd
  cases d with
  | call r call =>
    obtain ⟨i, client, rfl, hclient, rfl⟩ := mem_mailEvents hd
    obtain ⟨up, down, hmail⟩ := h.mailOf hclient
    cases call with
    | enterRoom roomId =>
      intro other hother
      cases hmail.symm.trans hother
      exact hfew client hclient
    | _ => trivial
  | _ => trivial

/-- What a worker of a player has taken is the next message that the player receives. -/
theorem Sim.mail_dispatching (h : s.Sim a sent) (hi : s.clients[i]? = some client) {x : MsgForDispatch}
    (hx : client.dispatching = some x) : ∃ up down,
      a.clients client.app.roleId = some ⟨client.app.idle, up, x.baseMessagePtr :: down⟩ := by
  obtain ⟨hinv, up, queued, rest, -, hinbox, hmail⟩ := h.players i client hi
  rcases ConnectedClient.dispatch_ok hinv hinbox 0 with ⟨hnone, -⟩ | ⟨m, queued', rfl, hsome, -⟩
  · cases hnone.symm.trans hx
  · cases hsome.symm.trans hx
    exact ⟨_, _, hmail⟩

theorem firstStart_mailEvents (h : s.Sim a sent) (e : SessionEvent) :
    s.FirstStart e ↔ ∀ d ∈ s.mailEvents e, a.FirstStart d := by
  constructor
  · intro hfirst d hd
    cases d with
    | receive r now =>
      obtain ⟨i, client, x, rfl, hclient, hx, rfl⟩ := mem_mailEvents hd
      obtain ⟨up, down, hmail⟩ := h.mail_dispatching hclient hx
      intro other hother m hm
      cases hmail.symm.trans hother
      cases hm
      exact hfirst client hclient x hx
    | _ => trivial
  · intro hfirst
    cases e with
    | client i e =>
      cases e with
      | dispatch now =>
        intro client hclient x hx
        obtain ⟨up, down, hmail⟩ := h.mail_dispatching hclient hx
        refine hfirst (.receive client.app.roleId now) ?_ _ hmail _ rfl
        refine List.mem_flatMap.mpr ⟨client, Option.mem_toList.mpr hclient, ?_⟩
        exact List.mem_map.mpr ⟨x, Option.mem_toList.mpr hx, rfl⟩
      | _ => trivial
    | _ => trivial

end State

/-! ## Runs -/

section Runs

variable {s t : Session} {a : Mail} {events : List SessionEvent}

/-- **A run that does not fail** is one of the mail service. -/
theorem carried_run (h : s.Carries a) (hc : EachStep step WithinContract s events)
    (ht : run step s events = .ok t) :
    ∃ b, run Mail.step a (translated step mailEvents s events) = .ok b ∧ t.Carries b := by
  have hagree := agree_of_step (fun _ _ _ => simulates_step) h hc
  rw [ht] at hagree
  cases hb : run Mail.step a (translated step mailEvents s events) with
  | error f =>
    rw [hb] at hagree
    cases hagree
  | ok b =>
    rw [hb] at hagree
    cases hagree with
    | ok hcarries => exact ⟨b, rfl, hcarries⟩

theorem betweenUpdates_run (h : s.Carries a) (hc : EachStep step WithinContract s events)
    (hb : EachStep step BetweenUpdates s events) :
    EachStep Mail.step Mail.BetweenUpdates a (translated step mailEvents s events) :=
  eachStep_translated (fun _ _ _ => simulates_step) (fun _ _ _ ⟨_, h⟩ _ hb =>
    eachStep_mailEvents (betweenUpdates_mailEvents h hb)) h hc hb

theorem fewCalls_run (h : s.Carries a) (hc : EachStep step WithinContract s events)
    (hfew : EachStep step FewCalls s events) :
    EachStep Mail.step Mail.FewCalls a (translated step mailEvents s events) :=
  eachStep_translated (fun _ _ _ => simulates_step) (fun _ _ _ ⟨_, h⟩ _ hfew =>
    eachStep_mailEvents (fewCalls_mailEvents h hfew)) h hc hfew

/-! ### Who comes into the room -/

/-- Who is in the room has come in. -/
theorem exists_misses {serverName : String} (hs : new serverName = .ok s) (ht : run step s events = .ok t)
    {r : RoleId} (hr : r ∈ t.room.room.roleIds) : ∃ missed, s.Misses events r missed := by
  obtain ⟨s', hs', sent, hsim⟩ := carries_new serverName
  cases hs.symm.trans hs'
  have hempty : s.room.room.roleIds = [] := by
    rw [← hsim.room]
    rfl
  have habsent : r ∉ s.room.room.roleIds := by
    rw [hempty]
    exact List.not_mem_nil
  obtain ⟨u, hu⟩ := exists_crosses (P := fun s : Session => r ∈ s.room.room.roleIds) habsent ht hr
  exact ⟨_, u, hu, rfl⟩

/-- Who comes in misses what is recorded. -/
theorem follows_of_enters (h : s.Carries a) {done : List InputRef} (hplaying : a.Playing done) {e : SessionEvent}
    (hc : s.WithinContract e) (hb : s.BetweenUpdates e) (ht : s.step e = .ok t) {r : RoleId}
    (hr : r ∉ s.room.room.roleIds) (hr' : r ∈ t.room.room.roleIds) :
    t.Follows r (if r = 3 then [] else s.room.room.playback) := by
  have hagree := simulates_step h hc
  obtain ⟨sent, hsim⟩ := h
  rw [ht] at hagree
  rcases s.mailEvents_cases e with hnone | ⟨d, hone⟩
  · -- the room goes on with none
    rw [hnone] at hagree
    cases hagree with
    | ok hcarries =>
      obtain ⟨_, hsim'⟩ := hcarries
      rw [← hsim'.room, hsim.room] at hr'
      exact (hr hr').elim
  · rw [hone, run_single] at hagree
    cases hd : a.step d with
    | error f =>
      rw [hd] at hagree
      cases hagree
    | ok b =>
      rw [hd] at hagree
      cases hagree with
      | ok hcarries =>
        have hbd := betweenUpdates_mailEvents hsim hb d (hone ▸ List.mem_singleton_self d)
        obtain ⟨_, hsim'⟩ := id hcarries
        rw [← hsim.room] at hr ⊢
        exact ⟨b, hcarries, hplaying.enters hbd hd hr (hsim'.room ▸ hr')⟩

theorem Follows.run {r : RoleId} {missed : List Input} (h : s.Follows r missed)
    (hc : EachStep step WithinContract s events) (hb : EachStep step BetweenUpdates s events)
    (ht : run step s events = .ok t) : t.Follows r missed := by
  obtain ⟨a, hcarries, hfollows⟩ := h
  obtain ⟨b, hb', hcarries'⟩ := carried_run hcarries hc ht
  exact ⟨b, hcarries', hfollows.run (betweenUpdates_run hcarries hc hb) hb'⟩

/-- **A player that has come in follows the room** from then on. -/
theorem Misses.follows {r : RoleId} {missed : List Input} (h : s.Misses events r missed) {serverName : String}
    (hs : new serverName = .ok s) (hc : EachStep step WithinContract s events)
    (hb : EachStep step BetweenUpdates s events) (ht : run step s events = .ok t) : t.Follows r missed := by
  obtain ⟨u, ⟨ds, e, u', ⟨later, rfl⟩, hu, hr, hu', hr'⟩, rfl⟩ := h
  rw [List.append_assoc] at hc hb ht
  obtain ⟨_, hds, ht⟩ := run_append_eq_ok.mp ht
  cases hu.symm.trans hds
  obtain ⟨_, hstep, ht⟩ := run_cons_eq_ok.mp ht
  cases hu'.symm.trans hstep
  obtain ⟨s', hs', hcarries⟩ := carries_new serverName
  cases hs.symm.trans hs'
  obtain ⟨a, ha, hbefore⟩ := carried_run hcarries hc.of_append hu
  obtain ⟨done, hplaying⟩ := Mail.playing_new.run (betweenUpdates_run hcarries hc.of_append hb.of_append) ha
  obtain ⟨hce, hc⟩ := eachStep_cons.mp (hc.rest hu)
  obtain ⟨hbe, hb⟩ := eachStep_cons.mp (hb.rest hu)
  exact (follows_of_enters hbefore hplaying hce hbe hu' hr hr').run (hc u' hu') (hb u' hu') ht

/-- What is missed has been recorded. -/
theorem Follows.missed_isPrefix {r : RoleId} {missed : List Input} (h : s.Follows r missed) :
    missed <+: s.room.room.playback := by
  obtain ⟨a, ⟨_, hsim⟩, hfollows⟩ := h
  rw [← hsim.room]
  exact hfollows.missed_isPrefix

/-- **What the game of the player has** is the record, from where the player has come in. -/
theorem Follows.played {missed : List Input} {i : ConnId} {client : ConnectedClient}
    (h : s.Follows client.app.roleId missed) (hone : s.room.room.roleIds.count client.app.roleId = 1)
    (hi : s.clients[i]? = some client) :
    missed ++ client.app.played <+: s.room.room.playback ∧
      (s.Settled i client → s.room.main = .outside → missed ++ client.app.played = s.room.room.playback) := by
  obtain ⟨a, ⟨sent, hsim⟩, hfollows⟩ := h
  obtain ⟨up, down, hmail⟩ := hsim.mailOf hi
  rw [← hsim.room] at hone ⊢
  refine ⟨hfollows.played_isPrefix hone hmail, fun hsettled hmain => ?_⟩
  obtain ⟨hempty, hout⟩ := hsettled.empty hsim hi
  have hall := hfollows.all_played hone hempty hout hmain
  exact hall

/-! ### What can fail -/

/-- The game, as what can fail depends on it. -/
def Sound (s : Session) : Prop := ∃ a, s.Carries a ∧ a.Known ∧ a.Waiting

theorem sound_step {e : SessionEvent} (h : s.Sound) (hc : s.WithinContract e) (hfew : s.FewCalls e)
    (ht : s.step e = .ok t) : t.Sound := by
  obtain ⟨a, ⟨sent, hsim⟩, hknown, hwaiting⟩ := h
  have hagree := simulates_step ⟨sent, hsim⟩ hc
  have hfew' := fewCalls_mailEvents hsim hfew
  rcases s.mailEvents_cases e with hnone | ⟨d, hone⟩
  · rw [ht, hnone] at hagree
    cases hagree with
    | ok hcarries => exact ⟨a, hcarries, hknown, hwaiting⟩
  · rw [ht, hone, run_single] at hagree
    rw [hone] at hfew'
    cases hb : a.step d with
    | error f =>
      rw [hb] at hagree
      cases hagree
    | ok b =>
      rw [hb] at hagree
      cases hagree with
      | ok hcarries =>
        exact ⟨b, hcarries, hknown.step hb, Mail.waiting_step hknown hwaiting (hfew' d List.mem_cons_self) hb⟩

theorem sound_new {serverName : String} (hs : new serverName = .ok s) : s.Sound := by
  obtain ⟨s', hs', hcarries⟩ := carries_new serverName
  cases hs.symm.trans hs'
  exact ⟨_, hcarries, Mail.known_new, fun _ _ h => (by cases h)⟩

/-- **An event goes well** unless a player is told a second time that the game starts, and then it is the
promise of the first time that throws. -/
theorem step_ok_iff {e : SessionEvent} (h : s.Sound) (hc : s.WithinContract e) (hfew : s.FewCalls e) :
    ((∃ t, s.step e = .ok t) ↔ s.FirstStart e) ∧
      ∀ f, s.step e = .error f → f = .promiseAlreadySatisfied := by
  obtain ⟨a, ⟨sent, hsim⟩, hknown, hwaiting⟩ := h
  have hagree := simulates_step ⟨sent, hsim⟩ hc
  have hfew' := fewCalls_mailEvents hsim hfew
  have hfirst := firstStart_mailEvents hsim e
  rcases s.mailEvents_cases e with hnone | ⟨d, hone⟩
  · rw [hnone] at hagree hfirst
    have hok : ∃ t, s.step e = .ok t := by
      cases ht : s.step e with
      | error f =>
        rw [ht] at hagree
        cases hagree
      | ok t => exact ⟨t, rfl⟩
    refine ⟨iff_of_true hok (hfirst.mpr fun _ hd => (by cases hd)), fun f hf => ?_⟩
    obtain ⟨t, ht⟩ := hok
    cases ht.symm.trans hf
  · rw [hone] at hfew' hfirst
    rw [hone, run_single] at hagree
    have hmail := Mail.step_ok_iff hknown hwaiting (hfew' d List.mem_cons_self)
    have hfirst' : s.FirstStart e ↔ a.FirstStart d := by
      rw [hfirst]
      exact List.forall_mem_singleton
    rw [hfirst', ← hmail]
    cases ht : s.step e with
    | error f =>
      rw [ht] at hagree
      generalize hb : a.step d = b at hagree
      cases hagree
      refine ⟨iff_of_false (fun ⟨_, h⟩ => (by cases h)) (fun ⟨_, h⟩ => (by cases h)), fun f' hf => ?_⟩
      cases hf
      exact Mail.step_error hknown hwaiting (hfew' d List.mem_cons_self) hb
    | ok t =>
      rw [ht] at hagree
      generalize a.step d = b at hagree
      cases hagree
      exact ⟨iff_of_true ⟨t, rfl⟩ ⟨_, rfl⟩, fun _ h => (by cases h)⟩

/-- A run fails as one of its events does. -/
theorem run_ok_iff {serverName : String} (hs : new serverName = .ok s)
    (hc : EachStep step WithinContract s events) (hfew : EachStep step FewCalls s events) :
    ((∃ t, run step s events = .ok t) ↔ EachStep step FirstStart s events) ∧
      ∀ f, run step s events = .error f → f = .promiseAlreadySatisfied := by
  have hboth : EachStep step (fun s e => s.WithinContract e ∧ s.FewCalls e) s events :=
    fun ds e hds t ht => ⟨hc ds e hds t ht, hfew ds e hds t ht⟩
  have hinv : ∀ (s : Session) e s', s.Sound → s.WithinContract e ∧ s.FewCalls e → s.step e = .ok s' → s'.Sound :=
    fun _ _ _ h hg ht => sound_step h hg.1 hg.2 ht
  constructor
  · exact run_ok_iff_eachStep hinv (fun _ _ h hg => (step_ok_iff h hg.1 hg.2).1) (sound_new hs) hboth
  · intro f hf
    exact error_of_step hinv (fun _ _ f h hg hf => (step_ok_iff h hg.1 hg.2).2 f hf) (sound_new hs) hboth hf

end Runs

end Session

end GameNetwork
