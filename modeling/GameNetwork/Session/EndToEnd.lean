import GameNetwork.Session.Carried

/-!
# From one end to the other

What the game of one player has to do with the games of the others and with
the room, over everything that lies between them, in any order of the threads,
the workers, the writes and the reads.
-/

namespace GameNetwork

open Lib

/-- **What a player sends and is sent**, and what has come of it: its inputs in the room, its pings
back, the answers to its calls of `EnterRoom`, and what the room has given out for it. -/
structure Delivered (rel : ∀ {α : Type}, List α → List α → Prop) (room : GameServerExample) (app : ClientApp) :
    Prop where
  inputs : rel (inputsFrom app.roleId room) ((app.sent.filterMap Message.control?).map (·.withoutTick))
  pings : rel (app.messages.filterMap Message.ping?) (app.sent.filterMap Message.ping?)
  answers : rel app.answers (app.requests.map (·.answered))
  given : rel ((app.messages.filter (·.ping?.isNone)).map fun m => Except.ok m.withoutTick)
    ((sentTo app.roleId room.sent).map fun msg => ((Post.room msg).message room.inputs).map Message.withoutTick)

namespace Mail

section Delivered

variable {s : Mail} {r : RoleId} {client : MailClient}

theorem Known.delivers (h : s.Known) (hr : s.clients r = some client) :
    Delivered (· <+: ·) s.room.room client.app := by
  have hclient := h.clients r client hr
  have hrole := hclient.role
  have hgot : client.app.messages <+: client.got := List.prefix_append _ _
  obtain ⟨done, hdone, hview⟩ := hclient.given
  refine ⟨?_, ?_, ?_, ?_⟩
  · rw [hrole, ← hclient.inputs]
    exact List.prefix_append _ _
  · rw [← hclient.pings]
    exact (List.IsPrefix.filterMap _ hgot).trans (List.prefix_append _ _)
  · rw [← h.answers hr]
    exact (List.IsPrefix.filterMap _ hgot).trans (List.prefix_append _ _)
  · rw [hrole, ← hdone, List.map_append, ← hview]
    exact (List.IsPrefix.map _ (List.IsPrefix.filter _ hgot)).trans (List.prefix_append _ _)

/-- A player without mail has all of it. -/
theorem Known.all_delivered (h : s.Known) {app : ClientApp} (hr : s.clients r = some ⟨app, [], []⟩)
    (hout : s.out r = []) : Delivered (· = ·) s.room.room app := by
  have hclient := h.clients r _ hr
  rw [hout] at hclient
  have hrole : app.roleId = r := hclient.role
  have hgot : (⟨app, [], []⟩ : MailClient).got = app.messages := List.append_nil _
  obtain ⟨done, hdone, hview⟩ := hclient.given
  have hinputs := hclient.inputs
  have hanswers := h.answers hr
  have hpings := hclient.pings
  simp only [hout, List.filterMap_nil, List.map_nil, List.append_nil] at hinputs hanswers hpings hdone
  refine ⟨?_, ?_, ?_, ?_⟩
  · rw [hrole]
    exact hinputs
  · rw [← hgot]
    exact hpings
  · show app.messages.filterMap Message.enterRoom? = _
    rw [← hgot]
    exact hanswers
  · rw [hrole, ← hdone, ← hview, hgot]

/-- Nor does a call of `EnterRoom` still wait. -/
theorem Known.all_returned (h : s.Known) {app : ClientApp} (hentered : app.Entered)
    (hr : s.clients r = some ⟨app.idle, [], []⟩) (hout : s.out r = []) {j : Nat} {call : EnterCall}
    (hcall : app.entered[j]? = some call) : app.enterRoomResult call = .ok (some true) := by
  have hanswers : app.answers = app.requests.map (·.answered) := (h.all_delivered hr hout).answers
  rw [(hentered.enterRoomResult hcall).1, if_pos]
  rw [hanswers, List.length_map, hentered.requests_length]
  exact (List.getElem?_eq_some_iff.mp hcall).1

end Delivered

end Mail

namespace Session

section Results

variable {serverName : String} {s t : Session} {events : List SessionEvent} {i : ConnId} {client : ConnectedClient}

/-- The mail service at the end of a run. -/
theorem mail_run (hs : new serverName = .ok s) (hc : EachStep step WithinContract s events)
    (ht : run step s events = .ok t) :
    ∃ a, run Mail.step .new (translated step mailEvents s events) = .ok a ∧ t.Carries a := by
  obtain ⟨s', hs', hcarries⟩ := carries_new serverName
  cases hs.symm.trans hs'
  exact carried_run hcarries hc ht

/-- Role 2 is told of the start and of the room, makes one move and plays it. -/
def playing : List SessionEvent :=
  goesDown 1 22 ++ goesDown 2 23 ++ [.client 0 (.call (.pushInput 0 ⟨1⟩))] ++ goesUp 2 30 ++
    List.replicate 6 .main ++ goesDown 3 33

/-- What the theorems below ask of a game, in this one. -/
theorem playing_meets : ∃ s, new "server" = .ok s ∧ EachStep step WithinContract s (entering ++ playing) ∧
    EachStep step FewCalls s (entering ++ playing) ∧ ∃ t, run step s (entering ++ playing) = .ok t ∧
      t.room.room.roleIds = [2] ∧ ∃ client ∈ t.clients[0]?, client.app.roleId = 2 ∧
        client.app.entered = [⟨1, 0⟩] ∧ client.app.pongs.map (fun x => (x.1.timestamp, x.2)) = [(5, 9)] ∧
        t.Settled 0 client :=
  ⟨_, rfl, by decide +kernel, by decide +kernel, by decide +kernel⟩

/-- **Nothing is lost, copied, changed or reordered** between a player and the room, whatever the order
of the threads, the workers, the writes and the reads; and once nothing is under way, all of it has
arrived. -/
theorem delivered (hs : new serverName = .ok s) (hc : EachStep step WithinContract s events)
    (ht : run step s events = .ok t) (hi : t.clients[i]? = some client) :
    Delivered (· <+: ·) t.room.room client.app ∧
      (t.Settled i client → Delivered (· = ·) t.room.room client.app) := by
  obtain ⟨a, ha, sent, hsim⟩ := mail_run hs hc ht
  have hknown := Mail.known_run ha
  obtain ⟨up, down, hmail⟩ := hsim.mailOf hi
  rw [← hsim.room]
  refine ⟨?_, fun hsettled => ?_⟩
  · obtain ⟨hinputs, hpings, hanswers, hgiven⟩ := hknown.delivers hmail
    exact ⟨hinputs, hpings, hanswers, hgiven⟩
  · obtain ⟨hempty, hout⟩ := hsettled.empty hsim hi
    obtain ⟨hinputs, hpings, hanswers, hgiven⟩ := hknown.all_delivered hempty hout
    exact ⟨hinputs, hpings, hanswers, hgiven⟩

theorem playing_delivered : ∃ s t client, new "server" = .ok s ∧ run step s (entering ++ playing) = .ok t ∧
    t.clients[0]? = some client ∧ Delivered (· = ·) t.room.room client.app := by
  obtain ⟨s, hs, hc, -, t, ht, -, client, hi, -, -, -, hsettled⟩ := playing_meets
  exact ⟨s, t, client, hs, ht, hi, (delivered hs hc ht hi).2 hsettled⟩

/-- **What `EnterRoom` returns**: nothing yet, or true, and then the room has the player as often as it
has asked, and the future of the call has the answer to the call, which is for its room. Once nothing is
under way, every call has returned. -/
theorem enterRoom_returns (hs : new serverName = .ok s) (hc : EachStep step WithinContract s events)
    (hfew : EachStep step FewCalls s events) (ht : run step s events = .ok t)
    (hi : t.clients[i]? = some client) {j : Nat} {call : EnterCall} (hcall : client.app.entered[j]? = some call) :
    (client.app.enterRoomResult call = .ok none ∨
      client.app.enterRoomResult call = .ok (some true) ∧ j < t.room.room.roleIds.count client.app.roleId ∧
        ∃ rsp, client.app.answers[j]? = some rsp ∧ rsp.roomId = call.roomId ∧
          client.app.recvMsgDispatcher.results call.future = some (.enterRoom rsp)) ∧
    (t.Settled i client → client.app.enterRoomResult call = .ok (some true)) := by
  obtain ⟨s', hs', hcarries⟩ := carries_new serverName
  cases hs.symm.trans hs'
  obtain ⟨a, ha, sent, hsim⟩ := carried_run hcarries hc ht
  have hknown := Mail.known_run ha
  obtain ⟨-, hmembers⟩ := Mail.inv_run ha
  obtain ⟨up, down, hmail⟩ := hsim.mailOf hi
  have hwaiting := Mail.waiting_run ha (fewCalls_run hcarries hc hfew)
  have hentered : client.app.Entered := (hwaiting _ _ hmail).of_idle
  obtain ⟨hresult, hroom⟩ := hentered.enterRoomResult hcall
  constructor
  · rw [hresult]
    by_cases hj : j < client.app.answers.length
    · have hrsp := List.getElem?_eq_getElem hj
      have hle : client.app.answers.length ≤ _ := (hknown.count_roleIds hmembers hmail).1
      have hfuture := hentered.result_of_future hcall
      rw [hrsp] at hfuture
      rw [← hsim.room]
      exact .inr ⟨by rw [if_pos hj], Nat.lt_of_lt_of_le hj hle, _, hrsp, hroom _ hrsp, hfuture⟩
    · exact .inl (by rw [if_neg hj])
  · intro hsettled
    obtain ⟨hempty, hout⟩ := hsettled.empty hsim hi
    exact hknown.all_returned hentered hempty hout hcall

theorem playing_enterRoom_returns : ∃ s t client call, new "server" = .ok s ∧
    run step s (entering ++ playing) = .ok t ∧ t.clients[0]? = some client ∧ client.app.entered[0]? = some call ∧
      client.app.enterRoomResult call = .ok (some true) := by
  obtain ⟨s, hs, hc, hfew, t, ht, -, client, hi, -, hentered, -, hsettled⟩ := playing_meets
  have hcall : client.app.entered[0]? = some ⟨1, 0⟩ := by rw [hentered]; rfl
  exact ⟨s, t, client, _, hs, ht, hi, hcall, (enterRoom_returns hs hc hfew ht hi hcall).2 hsettled⟩

/-- **A second GAME_START for a player is all that can go wrong**: a run fails if and only if one is
dispatched, and what fails is the promise of the first. -/
theorem only_second_start_fails (hs : new serverName = .ok s) (hc : EachStep step WithinContract s events)
    (hfew : EachStep step FewCalls s events) :
    ((∃ t, run step s events = .ok t) ↔ EachStep step FirstStart s events) ∧
      ∀ f, run step s events = .error f → f = .promiseAlreadySatisfied :=
  run_ok_iff hs hc hfew

theorem playing_only_second_start_fails : ∃ s, new "server" = .ok s ∧
    ((∃ t, run step s (entering ++ playing) = .ok t) ↔ EachStep step FirstStart s (entering ++ playing)) ∧
      ∀ f, run step s (entering ++ playing) = .error f → f = .promiseAlreadySatisfied := by
  obtain ⟨s, hs, hc, hfew, -⟩ := playing_meets
  exact ⟨s, hs, only_second_start_fails hs hc hfew⟩

/-- **Lockstep.** What a player misses is what was recorded when it came into the room, and nothing for
role 3. All that is recorded later its game plays, as long as it has come in once, each input with the
number of its frame and in the order of the record; once nothing is under way, it has played it all. -/
theorem lockstep_playback {r : RoleId} (hs : new serverName = .ok s) (hc : EachStep step WithinContract s events)
    (hb : EachStep step BetweenUpdates s events) (ht : run step s events = .ok t)
    (hr : r ∈ t.room.room.roleIds) :
    ∃ missed, s.Misses events r missed ∧ missed <+: t.room.room.playback ∧
      ∀ later u, EachStep step WithinContract t later → EachStep step BetweenUpdates t later →
        run step t later = .ok u → u.room.room.roleIds.count r = 1 →
        ∀ i client, u.clients[i]? = some client → client.app.roleId = r →
          missed ++ client.app.played <+: u.room.room.playback ∧
            (u.Settled i client → u.room.main = .outside →
              missed ++ client.app.played = u.room.room.playback) := by
  obtain ⟨missed, hmisses⟩ := exists_misses hs ht hr
  have hfollows := hmisses.follows hs hc hb ht
  refine ⟨missed, hmisses, hfollows.missed_isPrefix, fun later u hc' hb' hu hone i client hi hrole => ?_⟩
  subst hrole
  exact (hfollows.run hc' hb' hu).played hone hi

/-- Role 2 makes a move, which is recorded, and enters the room afterwards. -/
def movesFirst : List SessionEvent :=
  [.connect 2, .accept "127.0.0.1:2000", .client 0 (.call (.pushInput 0 ⟨1⟩))] ++ goesUp 0 7 ++
    List.replicate 6 .main ++ [.client 0 (.call (.enterRoom 1))] ++ goesUp 1 20

/-- It makes another move and plays it. -/
def movesOn : List SessionEvent :=
  goesDown 0 22 ++ goesDown 1 23 ++ [.client 0 (.call (.pushInput 1 ⟨2⟩))] ++ goesUp 2 30 ++
    List.replicate 6 .main ++ goesDown 2 33

theorem movesOn_meets : ∃ s, new "server" = .ok s ∧ EachStep step WithinContract s (movesFirst ++ movesOn) ∧
    EachStep step BetweenUpdates s (movesFirst ++ movesOn) ∧
    ∃ t, run step s (movesFirst ++ movesOn) = .ok t ∧ t.room.main = .outside ∧ t.room.room.controlMsg = [] ∧
      t.room.room.roleIds = [2] ∧ ∃ client ∈ t.clients[0]?, client.app.roleId = 2 ∧
        client.app.played.length = 1 ∧
        (client.app.sent.filterMap Message.control?).map (·.moveDirection) = [⟨1⟩, ⟨2⟩] ∧ t.Settled 0 client :=
  ⟨_, rfl, by decide +kernel, by decide +kernel, by decide +kernel⟩

theorem movesOn_lockstep : ∃ s t u client missed, new "server" = .ok s ∧ run step s movesFirst = .ok t ∧
    run step t movesOn = .ok u ∧ u.clients[0]? = some client ∧ s.Misses movesFirst 2 missed ∧
      missed ++ client.app.played = u.room.room.playback := by
  obtain ⟨s, hs, hc, hb, u, hu, hmain, -, hroles, client, hi, hrole, -, -, hsettled⟩ := movesOn_meets
  have hentered : ∃ t, run step s movesFirst = .ok t ∧ 2 ∈ t.room.room.roleIds := by
    cases hs
    decide +kernel
  obtain ⟨t, ht, hr⟩ := hentered
  obtain ⟨t', ht', hu⟩ := run_append_eq_ok.mp hu
  cases ht.symm.trans ht'
  obtain ⟨missed, hmisses, -, hplayed⟩ := lockstep_playback hs hc.of_append hb.of_append ht hr
  have hall := (hplayed _ u (hc.rest ht) (hb.rest ht) hu (by rw [hroles]; rfl) 0 client hi hrole).2 hsettled hmain
  exact ⟨s, t, u, client, missed, hs, ht, hu, hi, hmisses, hall⟩

/-- **What a player plays of another's moves** is what the other has made, in order and without a gap,
but for what was recorded when it came into the room; and once nothing is under way and all inputs are
recorded, up to the other's last move. -/
theorem moves_arrive {j : ConnId} {other : ConnectedClient} (hs : new serverName = .ok s)
    (hc : EachStep step WithinContract s events) (hb : EachStep step BetweenUpdates s events)
    (ht : run step s events = .ok t) (hi : t.clients[i]? = some client)
    (hone : t.room.room.roleIds.count client.app.roleId = 1) (hj : t.clients[j]? = some other) :
    ∃ missed, s.Misses events client.app.roleId missed ∧
      movesOf other.app.roleId (missed ++ client.app.played) <+:
        (other.app.sent.filterMap Message.control?).map (·.moveDirection) ∧
      (t.Settled i client → t.Settled j other → t.room.main = .outside → t.room.room.controlMsg = [] →
        movesOf other.app.roleId (missed ++ client.app.played) =
          (other.app.sent.filterMap Message.control?).map (·.moveDirection)) := by
  have hr : client.app.roleId ∈ t.room.room.roleIds := List.count_pos_iff.mp (by omega)
  obtain ⟨missed, hmisses⟩ := exists_misses hs ht hr
  have hfollows := hmisses.follows hs hc hb ht
  obtain ⟨hplayed, hall⟩ := hfollows.played hone hi
  obtain ⟨a, ⟨sent, hsim⟩, done, _, hplaying, -⟩ := hfollows
  obtain ⟨up, down, hmail⟩ := hsim.mailOf hj
  refine ⟨missed, hmisses, ?_, fun hsettled hsettled' hmain hempty => ?_⟩
  · rw [← hsim.room] at hplayed
    exact (movesOf_isPrefix _ hplayed).trans (hplaying.moves_isPrefix hmail)
  · rw [hall hsettled hmain]
    rw [← hsim.room] at hmain hempty ⊢
    obtain ⟨hother, -⟩ := hsettled'.empty hsim hj
    have hmoves := hplaying.all_moves hmain hempty hother
    exact hmoves

theorem movesOn_moves_arrive : ∃ s t client missed, new "server" = .ok s ∧
    run step s (movesFirst ++ movesOn) = .ok t ∧ t.clients[0]? = some client ∧
      s.Misses (movesFirst ++ movesOn) client.app.roleId missed ∧ client.app.played.length = 1 ∧
      movesOf client.app.roleId (missed ++ client.app.played) = [⟨1⟩, ⟨2⟩] := by
  obtain ⟨s, hs, hc, hb, t, ht, hmain, hempty, hroles, client, hi, hrole, hlen, hsent, hsettled⟩ := movesOn_meets
  have hone : t.room.room.roleIds.count client.app.roleId = 1 := by rw [hroles, hrole]; rfl
  obtain ⟨missed, hmisses, -, hmoves⟩ := moves_arrive hs hc hb ht hi hone hi
  exact ⟨s, t, client, missed, hs, ht, hi, hmisses, hlen, (hmoves hsettled hsettled hmain hempty).trans hsent⟩

/-- **What `GetDelayMs` says**: each ping comes back once and in order, and the delay is the time that the
last one took that has come back. -/
theorem delay_of_last_ping (hs : new serverName = .ok s) (hc : EachStep step WithinContract s events)
    (ht : run step s events = .ok t) (hi : t.clients[i]? = some client) :
    client.app.pongs.map (·.1) <+: client.app.sent.filterMap Message.ping? ∧
      client.app.hasDelay = !client.app.pongs.isEmpty ∧
      ∀ ping now, client.app.pongs.getLast? = some (ping, now) →
        client.app.delayMs = (now - ping.timestamp).setWidth 32 := by
  obtain ⟨a, ha, sent, hsim⟩ := mail_run hs hc ht
  have hknown := Mail.known_run ha
  obtain ⟨up, down, hmail⟩ := hsim.mailOf hi
  have htold : client.app.Told := (hknown.told _ _ hmail).of_idle
  have hpongs : client.app.pongs.map (·.1) = client.app.messages.filterMap Message.ping? := by
    unfold ClientApp.pongs ClientApp.messages
    rw [List.map_filterMap, List.filterMap_map]
    refine List.filterMap_congr fun x _ => ?_
    rw [Option.map_map]
    exact Option.map_id'
  refine ⟨?_, ?_, fun ping now hlast => ?_⟩
  · rw [hpongs]
    exact (hknown.delivers hmail).pings
  · rw [htold.delay.1, ClientApp.lastDelay, Option.isSome_map]
    cases client.app.pongs with
    | nil => rfl
    | cons x xs => simp
  · rw [htold.delay.2, ClientApp.lastDelay, hlast]
    rfl

theorem playing_delay : ∃ s t client, new "server" = .ok s ∧ run step s (entering ++ playing) = .ok t ∧
    t.clients[0]? = some client ∧ client.app.delayMs = 4 := by
  obtain ⟨s, hs, hc, -, t, ht, -, client, hi, -, -, hpongs, -⟩ := playing_meets
  obtain ⟨⟨ping, now⟩, hpong, htimes⟩ := List.map_eq_singleton_iff.mp hpongs
  have hdelay := (delay_of_last_ping hs hc ht hi).2.2 ping now (by rw [hpong]; rfl)
  rw [show ping.timestamp = 5 from congrArg Prod.fst htimes, show now = 9 from congrArg Prod.snd htimes] at hdelay
  exact ⟨s, t, client, hs, ht, hi, hdelay⟩

end Results

end Session

end GameNetwork
