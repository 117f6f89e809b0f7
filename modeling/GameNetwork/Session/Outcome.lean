import GameNetwork.Session.Rest
import GameNetwork.Session.Start

/-!
# All moves can still be played

`Session/Rest.lean` brings a game to rest; here is what its players have played
by then. No event of the threads, the workers and the connections adds to what
the players have sent (`sentBy_step`). So once every call of `EnterRoom` is
answered, nobody comes into the room (`AllIn.roleIds_eq`), and nobody is told a
second time that the game starts (`AllIn.firstStart`); the moves that are
recorded in the end are those that had been made, and every player in the room
has played them all (`all_can_play_all`).
-/

namespace GameNetwork

open Lib

/-- What is not a call of the game does not send. -/
theorem ConnectedClient.sent_step {s s' : ConnectedClient} {sent queued rest : List Message} (h : s.Inv)
    (hbox : s.Inbox sent queued rest) {e : ClientEvent} (he : ∀ call, e ≠ .call call) (ht : s.step e = .ok s') :
    s'.app.roleId = s.app.roleId ∧ s'.app.sent = s.app.sent := by
  cases e with
  | call call => exact (he call rfl).elim
  | io e =>
    obtain ⟨sending, -, hret⟩ := bind_eq_ok.mp ht
    cases hret
    exact ⟨rfl, rfl⟩
  | turn =>
    obtain ⟨s'', -, -, hstep, -, -, -, hsilent⟩ := turn_ok h hbox
    cases hstep.symm.trans ht
    exact ⟨congrArg (·.roleId) hsilent.app, congrArg (·.sent) hsilent.app⟩
  | tryPop =>
    cases ht
    exact ⟨rfl, rfl⟩
  | dispatch now =>
    change s.dispatch now = .ok s' at ht
    unfold dispatch at ht
    split at ht
    · cases ht
      exact ⟨rfl, rfl⟩
    · obtain ⟨app, happ, hret⟩ := bind_eq_ok.mp ht
      cases hret
      obtain ⟨-, hsent, -, -, -, hrole⟩ := ClientApp.dispatch_frame happ
      exact ⟨hrole.roleId, hsent⟩

namespace Session

/-- The players, each with what it has sent. -/
def sentBy (s : Session) : List (RoleId × List Message) :=
  s.clients.map fun client => (client.app.roleId, client.app.sent)

section Sent

variable {s t : Session} {events : List SessionEvent} {i : ConnId} {client client' : ConnectedClient}

theorem sentBy_setClient (hi : s.clients[i]? = some client)
    (hsame : client'.app.roleId = client.app.roleId ∧ client'.app.sent = client.app.sent) :
    ({ s with clients := s.clients.set i client' } : Session).sentBy = s.sentBy := by
  apply List.ext_getElem?
  intro j
  unfold sentBy
  rw [List.getElem?_map, List.getElem?_map]
  by_cases hji : j = i
  · subst hji
    rw [List.getElem?_set_self (List.getElem?_eq_some_iff.mp hi).1, hi, Option.map_some, Option.map_some,
      hsame.1, hsame.2]
  · rw [List.getElem?_set_ne (Ne.symm hji)]

theorem sentBy_of_clients (h : t.clients = s.clients) : t.sentBy = s.sentBy := by
  rw [sentBy, h]
  rfl

/-- One player takes a step. -/
theorem onClient_cases {f : ConnectedClient → Except Fault ConnectedClient} (ht : s.onClient i f = .ok t) :
    t = s ∨ ∃ client client', s.clients[i]? = some client ∧ f client = .ok client' ∧
      t = { s with clients := s.clients.set i client' } := by
  unfold onClient at ht
  split at ht
  · cases ht
    exact .inl rfl
  · next client hi =>
    obtain ⟨client', hf, hret⟩ := bind_eq_ok.mp ht
    cases hret
    exact .inr ⟨client, client', hi, hf, rfl⟩

/-- **Nobody calls, and nothing more is sent by a player.** -/
theorem sentBy_step (h : s.Sound) {e : SessionEvent} (he : e.Internal) (ht : s.step e = .ok t) :
    t.sentBy = s.sentBy := by
  obtain ⟨a, ⟨sent, hsim⟩, -⟩ := h
  cases e with
  | connect roleId => exact he.elim
  | accept endpoint => exact he.elim
  | read c n =>
    simp only [step] at ht
    split at ht
    · cases ht
      rfl
    · unfold readFrom at ht
      split at ht
      · cases ht
        rfl
      · obtain ⟨server, -, hret⟩ := bind_eq_ok.mp ht
        cases hret
        rfl
  | turn =>
    obtain ⟨server, -, hret⟩ := bind_eq_ok.mp ht
    cases hret
    rfl
  | tryPop k =>
    cases ht
    rfl
  | dispatch k now =>
    change s.dispatch k now = .ok t at ht
    cases hk : s.server.recvMsgDispatcher.current k with
    | none =>
      unfold dispatch at ht
      rw [hk] at ht
      cases ht
      rfl
    | some x => exact sentBy_of_clients (dispatch_onRoom hsim.table.inv hk ht).1.clients
  | main => exact sentBy_of_clients (onRoom_onRoom ht).1.clients
  | sendTryPop k =>
    cases ht
    rfl
  | sendDispatch k =>
    change s.sendDispatch k = .ok t at ht
    unfold sendDispatch at ht
    split at ht
    · cases ht
      rfl
    · obtain ⟨m, -, ht⟩ := bind_eq_ok.mp ht
      obtain ⟨sending, -, ht⟩ := bind_eq_ok.mp ht
      obtain ⟨d, -, hret⟩ := bind_eq_ok.mp ht
      cases hret
      rfl
  | io e =>
    obtain ⟨sending, -, hret⟩ := bind_eq_ok.mp ht
    cases hret
    rfl
  | client i e =>
    rcases onClient_cases ht with rfl | ⟨client, client', hi, hstep, rfl⟩
    · rfl
    obtain ⟨hinv, up, queued, rest, -, hinbox, -⟩ := hsim.players i client hi
    refine sentBy_setClient hi (ConnectedClient.sent_step hinv hinbox (fun call heq => ?_) hstep)
    subst heq
    exact he
  | clientRead i n =>
    rcases onClient_cases ht with rfl | ⟨client, client', hi, hstep, rfl⟩
    · rfl
    refine sentBy_setClient hi ?_
    unfold ConnectedClient.receive at hstep
    split at hstep
    · cases hstep
      exact ⟨rfl, rfl⟩
    · obtain ⟨buffer, -, hret⟩ := bind_eq_ok.mp hstep
      cases hret
      exact ⟨rfl, rfl⟩

/-- What goes on is sound, and sends nothing more for a player. -/
theorem sentBy_run (h : s.Sound) (hg : EachStep step GoesOn s events) (ht : run step s events = .ok t) :
    t.sentBy = s.sentBy := by
  have hboth := run_invariant (I := fun u => u.Sound ∧ u.sentBy = s.sentBy) (fun u e u' ⟨hu, hsent⟩ hg hu' =>
    ⟨sound_step hu hg.2.1 (u.fewCalls_of_internal hg.1) hu', (sentBy_step hu hg.1 hu').trans hsent⟩)
    ⟨h, rfl⟩ hg ht
  exact hboth.2

/-- A player is still there, with what it has sent. -/
theorem exists_of_sentBy (h : t.sentBy = s.sentBy) (hi : s.clients[i]? = some client) :
    ∃ client', t.clients[i]? = some client' ∧ client'.app.roleId = client.app.roleId ∧
      client'.app.sent = client.app.sent := by
  have hget := congrArg (·[i]?) h
  simp only [sentBy, List.getElem?_map, hi, Option.map_some] at hget
  obtain ⟨client', hi', heq⟩ := Option.map_eq_some_iff.mp hget
  exact ⟨client', hi', congrArg Prod.fst heq, congrArg Prod.snd heq⟩

end Sent

/-! ## Everyone is in -/

/-- Every call of `EnterRoom` is answered, no role has entered twice, nor role 3 before role 2. -/
structure AllIn (s : Session) : Prop where
  answered : ∀ client ∈ s.clients, client.app.answers.length = client.app.requests.length
  inOrder : EntersInOrder s.room.room.roleIds

end Session

namespace Mail

variable {s t : Mail} {done : List InputRef} {events : List MailEvent}

/-- Who is in the room stays there. -/
theorem stay_run (h : s.Playing done) (hb : EachStep step BetweenUpdates s events)
    (ht : run step s events = .ok t) : s.room.room.roleIds <+: t.room.room.roleIds := by
  have hboth := run_invariant
    (I := fun u => (∃ done, u.Playing done) ∧ s.room.room.roleIds <+: u.room.room.roleIds)
    (fun u e u' ⟨⟨done, hplaying⟩, hstay⟩ hb hu' => by
      obtain ⟨new, hplaying', hadds⟩ := playing_step hplaying hb hu'
      exact ⟨⟨_, hplaying'⟩, hstay.trans hadds.stay⟩) ⟨⟨done, h⟩, List.prefix_refl _⟩ hb ht
  exact hboth.2

end Mail

namespace Session

section Results

variable {serverName : String} {s t u : Session} {events later : List SessionEvent}

/-- A run that goes on, as the mail service has both of its parts. -/
theorem mail_goesOn (hs : new serverName = .ok s) (hc : EachStep step WithinContract s events)
    (hb : EachStep step BetweenUpdates s events) (ht : run step s events = .ok t)
    (hlater : EachStep step GoesOn t later) (hu : run step t later = .ok u) :
    ∃ a b es fs, run Mail.step .new es = .ok a ∧ EachStep Mail.step Mail.BetweenUpdates .new es ∧
      run Mail.step a fs = .ok b ∧ EachStep Mail.step Mail.BetweenUpdates a fs ∧ t.Carries a ∧ u.Carries b := by
  obtain ⟨s', hs', hcarries⟩ := carries_new serverName
  cases hs.symm.trans hs'
  have hc' : EachStep step WithinContract t later := hlater.imp fun _ _ h => h.2.1
  have hb' : EachStep step BetweenUpdates t later := hlater.imp fun _ _ h => h.2.2
  obtain ⟨a, ha, hcarries'⟩ := carried_run hcarries hc ht
  obtain ⟨b, hrest, hcarries''⟩ := carried_run hcarries' hc' hu
  exact ⟨a, b, _, _, ha, betweenUpdates_run hcarries hc hb, hrest, betweenUpdates_run hcarries' hc' hb',
    hcarries', hcarries''⟩

/-- **Nobody comes into the room**, once all have been answered. -/
theorem AllIn.roleIds_eq (h : t.AllIn) (hs : new serverName = .ok s) (hc : EachStep step WithinContract s events)
    (hb : EachStep step BetweenUpdates s events) (hfew : EachStep step FewCalls s events)
    (ht : run step s events = .ok t) (hlater : EachStep step GoesOn t later) (hu : run step t later = .ok u) :
    u.room.room.roleIds = t.room.room.roleIds := by
  obtain ⟨a, b, es, fs, ha, hes, hrest, hfs, ⟨_, hsim'⟩, ⟨sent, hsim⟩⟩ := mail_goesOn hs hc hb ht hlater hu
  have hb₁ := run_append_eq_ok.mpr ⟨a, ha, hrest⟩
  obtain ⟨done, hplaying⟩ := Mail.playing_new.run hes ha
  obtain ⟨extra, hextra⟩ := Mail.stay_run hplaying hfs hrest
  rw [← hsim.room, ← hsim'.room, ← hextra]
  refine (List.append_right_eq_self).mpr (List.eq_nil_iff_forall_not_mem.mpr fun r hr => ?_)
  -- a role that comes in has asked, and all that it has asked was answered before
  have hin : r ∈ b.room.room.roleIds := by
    rw [← hextra]
    exact List.mem_append_right _ hr
  have hreaches := hsim.given.members r (hsim.room ▸ hin)
  obtain ⟨i, client, hi, hrole, -⟩ := client_of_reaches hreaches
  obtain ⟨client₀, hi₀, hrole₀, hsent₀⟩ :=
    exists_of_sentBy (sentBy_run (sound_run hs hc hfew ht) hlater hu).symm hi
  obtain ⟨up, down, hmail⟩ := hsim.mailOf hi
  obtain ⟨up₀, down₀, hmail₀⟩ := hsim'.mailOf hi₀
  obtain ⟨-, hasked⟩ := (Mail.known_run hb₁).count_roleIds (Mail.inv_run hb₁).2 hmail
  obtain ⟨hanswered, -⟩ := (Mail.known_run ha).count_roleIds (Mail.inv_run ha).2 hmail₀
  have hrequests : client.app.idle.requests.length = client₀.app.idle.answers.length := by
    have hall := h.answered client₀ (List.mem_of_getElem? hi₀)
    have heq : client.app.requests = client₀.app.requests :=
      congrArg (List.filterMap Message.enterRoom?) hsent₀.symm
    exact (congrArg List.length heq).trans hall.symm
  have hpos : 0 < extra.count r := List.count_pos_iff.mpr hr
  rw [← hextra, List.count_append, hrole] at hasked
  rw [hrole₀, hrole] at hanswered
  change _ ≤ client.app.idle.requests.length at hasked
  change client₀.app.idle.answers.length ≤ _ at hanswered
  omega

/-- **Nobody is told a second time that the game starts.** -/
theorem AllIn.firstStart (h : t.AllIn) (hs : new serverName = .ok s) (hc : EachStep step WithinContract s events)
    (hb : EachStep step BetweenUpdates s events) (hfew : EachStep step FewCalls s events)
    (ht : run step s events = .ok t) (hlater : EachStep step GoesOn t later) :
    EachStep step FirstStart t later := by
  intro ds e hds u hu
  have hlater' : EachStep step GoesOn t ds := EachStep.of_prefix hlater ((List.prefix_append ds [e]).trans hds)
  have hroles := h.roleIds_eq hs hc hb hfew ht hlater' hu
  have hcontract : EachStep step WithinContract s (events ++ ds) := hc.append fun t' ht' => by
    cases ht.symm.trans ht'
    exact hlater'.imp fun _ _ h => h.2.1
  obtain ⟨a, ha, sent, hsim⟩ := mail_run hs hcontract (run_append_eq_ok.mpr ⟨t, ht, hu⟩)
  obtain ⟨hknown, hstarts⟩ := Mail.starts_run ha
  have hone := hstarts.once (by rw [hsim.room, hroles]; exact h.inOrder)
  exact (firstStart_mailEvents hsim e).mpr fun d _ => hknown.firstStart hone d

/-- **All that was moved is played**: the record has all moves that the players had made, each player's in
order, and who was in the room has played it all but for what it missed before it came in. -/
structure PlayedOut (s : Session) (events : List SessionEvent) (t u : Session) : Prop where
  moves : ∀ other ∈ t.clients, movesOf other.app.roleId u.room.room.playback =
    (other.app.sent.filterMap Message.control?).map (·.moveDirection)
  played : ∀ client ∈ u.clients, client.app.roleId ∈ t.room.room.roleIds →
    ∃ missed, s.Misses events client.app.roleId missed ∧ missed ++ client.app.played = u.room.room.playback

/-- A game that has come to rest is played out. -/
theorem AtRest.playedOut (hrest : u.AtRest) (h : t.AllIn) (hs : new serverName = .ok s)
    (hc : EachStep step WithinContract s events) (hb : EachStep step BetweenUpdates s events)
    (hfew : EachStep step FewCalls s events) (ht : run step s events = .ok t)
    (hlater : EachStep step GoesOn t later) (hu : run step t later = .ok u) : s.PlayedOut events t u := by
  have hroles := h.roleIds_eq hs hc hb hfew ht hlater hu
  have hsent := sentBy_run (sound_run hs hc hfew ht) hlater hu
  constructor
  · intro other hother
    obtain ⟨a, b, es, fs, ha, hes, hrun, hfs, -, ⟨sent, hsim⟩⟩ := mail_goesOn hs hc hb ht hlater hu
    obtain ⟨j, hj⟩ := List.mem_iff_getElem?.mp hother
    obtain ⟨other', hj', hrole, hsame⟩ := exists_of_sentBy hsent hj
    obtain ⟨_, hbefore⟩ := Mail.playing_new.run hes ha
    obtain ⟨done, hplaying⟩ := hbefore.run hfs hrun
    obtain ⟨hempty, -⟩ := (hrest.settled j other' hj').empty hsim hj'
    have hmoves := hplaying.all_moves (hsim.room ▸ hrest.main) (hsim.room ▸ hrest.recorded) hempty
    rw [← hrole, ← hsame, ← hsim.room]
    exact hmoves
  · intro client hclient hr
    obtain ⟨i, hi⟩ := List.mem_iff_getElem?.mp hclient
    have hone : u.room.room.roleIds.count client.app.roleId = 1 := by
      rw [hroles]
      exact List.count_eq_one_of_mem h.inOrder.1 hr
    obtain ⟨missed, hmisses⟩ := exists_misses hs ht hr
    have hfollows := (hmisses.follows hs hc hb ht).run (hlater.imp fun _ _ h => h.2.1)
      (hlater.imp fun _ _ h => h.2.2) hu
    exact ⟨missed, hmisses, (hfollows.played hone hi).2 (hrest.settled i client hi) hrest.main⟩

/-- **Everyone can still play everything.** From wherever a game has come to, with every player accepted,
every call of `EnterRoom` answered and every write done or able to go on, the threads, the workers and
the connections can go on, without another call of a player, until nothing is under way and all that
was moved is played. -/
theorem all_can_play_all (hs : new serverName = .ok s) (hc : EachStep step WithinContract s events)
    (hb : EachStep step BetweenUpdates s events) (hfew : EachStep step FewCalls s events)
    (ht : run step s events = .ok t) (hgo : t.CanGoOn)
    (haccepted : t.server.gameServer.conns.length = t.clients.length) (hin : t.AllIn) :
    ∃ later u, EachStep step GoesOn t later ∧ run step t later = .ok u ∧ u.AtRest ∧ s.PlayedOut events t u := by
  have hlively : t.Lively := ⟨sound_run hs hc hfew ht, hgo, haccepted⟩
  obtain ⟨later, hlater, ⟨u, hu, -, hrest⟩ | ⟨f, hf, -⟩⟩ := hlively.way
  · exact ⟨later, u, hlater, hu, hrest, hrest.playedOut hin hs hc hb hfew ht hlater hu⟩
  · -- a run without a second GAME_START does not fail
    have hfirst := (run_ok_iff_eachStep (I := Sound) (G := fun s e => s.WithinContract e ∧ s.FewCalls e)
      (fun _ _ _ h hg ht => sound_step h hg.1 hg.2 ht) (fun _ _ h hg => (step_ok_iff h hg.1 hg.2).1)
      hlively.sound (hlater.imp fun _ _ h => ⟨h.2.1, fewCalls_of_internal h.1⟩)).mpr
      (hin.firstStart hs hc hb hfew ht hlater)
    obtain ⟨u, hu⟩ := hfirst
    cases hf.symm.trans hu

/-- Role 2 is in the room and makes a move, of which nothing has been written. -/
def moving : List SessionEvent :=
  entering ++ goesDown 1 22 ++ goesDown 2 23 ++ [.client 0 (.call (.pushInput 0 ⟨1⟩))]

theorem moving_can_be_played : ∃ s t, new "server" = .ok s ∧ run step s moving = .ok t ∧
    ∃ later u, EachStep step GoesOn t later ∧ run step t later = .ok u ∧ u.AtRest ∧ s.PlayedOut moving t u := by
  have hmeets : ∃ s, new "server" = .ok s ∧ EachStep step WithinContract s moving ∧
      EachStep step BetweenUpdates s moving ∧ EachStep step FewCalls s moving ∧ ∃ t, run step s moving = .ok t ∧
        t.CanGoOn ∧ t.server.gameServer.conns.length = t.clients.length ∧
        (∀ client ∈ t.clients, client.app.answers.length = client.app.requests.length) ∧
        EntersInOrder t.room.room.roleIds :=
    ⟨_, rfl, by decide +kernel, by decide +kernel, by decide +kernel, by decide +kernel⟩
  obtain ⟨s, hs, hc, hb, hfew, t, ht, hgo, haccepted, hanswered, hinOrder⟩ := hmeets
  exact ⟨s, t, hs, ht, all_can_play_all hs hc hb hfew ht hgo haccepted ⟨hanswered, hinOrder⟩⟩

end Results

end Session

end GameNetwork
