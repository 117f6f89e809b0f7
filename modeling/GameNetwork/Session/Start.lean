import GameNetwork.Session.EndToEnd

/-!
# The start of the game, for everyone

The GAME_STARTs that the room gives out, over a game (`Starts`): when role 2
has entered once, all that are not role 3's have one time, and when the roles
enter in order nobody is given two. Brought to the players, this is when
everyone has the same start (`start_agreement`), and when a game does not fail
(`never_fails`).
-/

namespace GameNetwork

open Lib

def Outgoing.gameStart? : Outgoing → Option GameStartMessage
  | .gameStart m => some m
  | _ => none

/-- No role enters twice, nor role 3 before role 2. -/
def EntersInOrder (roleIds : List RoleId) : Prop := roleIds.Nodup ∧ ¬ [3, 2].Sublist roleIds

instance (roleIds : List RoleId) : Decidable (EntersInOrder roleIds) := inferInstanceAs (Decidable (_ ∧ ¬ _))

/-- The GAME_STARTs of the players in a room. -/
structure Starts (room : GameServerExample) : Prop where
  absent : ∀ r, r ∉ room.roleIds → gameStarts r room.sent = []
  before : 2 ∉ room.roleIds → ∀ r, r ≠ 3 → gameStarts r room.sent = []
  once : EntersInOrder room.roleIds → ∀ r, (gameStarts r room.sent).length ≤ 1
  same : room.roleIds.count 2 ≤ 1 →
    ∃ time, ∀ r, r ≠ 3 → ∀ m ∈ gameStarts r room.sent, m.timestamp = time

section Room

variable {room : GameServerExample} {s t : RoomThreads} {e : RoomEvent}

theorem gameStarts_eq (r : RoleId) (sent : List (RoleId × Outgoing)) :
    gameStarts r sent = (sentTo r sent).filterMap Outgoing.gameStart? := by
  induction sent with
  | nil => rfl
  | cons x sent ih =>
    have hcons : ∀ sent' : List (RoleId × Outgoing), x :: sent' = [x] ++ sent' := fun _ => rfl
    rw [hcons, Starting.gameStarts_append, sentTo_append, List.filterMap_append, ih]
    obtain ⟨r', msg⟩ := x
    by_cases h : r' = r <;> cases msg <;> simp [gameStarts, sentTo, h, Outgoing.gameStart?]

/-- All that one call of `EnterRoom` makes have the time of the call. -/
theorem timestamp_of_enterRoom {r roleId : RoleId} {msg : EnterRoomMessage} {now : BitVec 64}
    {m : GameStartMessage} (hm : m ∈ gameStarts r (room.enterRoomSends roleId msg now)) :
    m.timestamp = now := by
  rw [gameStarts_eq] at hm
  obtain ⟨x, hx, hstart⟩ := List.mem_filterMap.mp hm
  obtain ⟨⟨r', y⟩, hy, rfl⟩ := List.mem_map.mp hx
  have hmem := List.mem_of_mem_filter hy
  simp only [GameServerExample.enterRoomSends, List.mem_append, List.mem_singleton] at hmem
  rcases hmem with (hmem | hmem) | hmem
  · split at hmem
    · obtain ⟨_, -, heq⟩ := List.mem_map.mp hmem
      cases heq
      cases hstart
      rfl
    · cases hmem
  · split at hmem
    · rcases List.mem_cons.mp hmem with heq | hmem
      · cases heq
        cases hstart
        rfl
      · obtain ⟨_, -, heq⟩ := List.mem_map.mp hmem
        cases heq
        cases hstart
    · cases hmem
  · cases hmem
    cases hstart

theorem starts_new : Starts .new :=
  ⟨fun _ _ => rfl, fun _ _ _ => rfl, fun _ _ => Nat.zero_le 1, fun _ => ⟨0, fun _ _ _ h => (by cases h)⟩⟩

/-- Who is not to be started is sent none. -/
theorem gameStarts_enterRoom_eq_nil {r roleId : RoleId} (h : r ∉ started room.roleIds roleId)
    (msg : EnterRoomMessage) (now : BitVec 64) : gameStarts r (room.enterRoomSends roleId msg now) = [] := by
  rw [← List.length_eq_zero_iff, Starting.length_gameStarts_enterRoom, List.count_eq_zero]
  exact h

/-- **A role enters.** -/
theorem starts_enterRoom (h : Starts room) (roleId : RoleId) (msg : EnterRoomMessage) (now : BitVec 64) :
    Starts (room.enterRoom roleId msg now) := by
  rw [GameServerExample.enterRoom_eq]
  have hmem : ∀ r, r ∈ started room.roleIds roleId → r ∈ room.roleIds ++ [roleId] := by
    intro r hr
    unfold started at hr
    split at hr
    · next h2 => rwa [h2]
    · split at hr
      · next h3 =>
        rw [List.mem_singleton.mp hr, h3]
        exact List.mem_append_right _ List.mem_cons_self
      · cases hr
  refine ⟨fun r hr => ?_, fun h2 r h3 => ?_, fun horder r => ?_, fun hone => ?_⟩
  · have hnot : r ∉ room.roleIds := fun hr' => hr (List.mem_append_left _ hr')
    rw [Starting.gameStarts_append, h.absent r hnot, gameStarts_enterRoom_eq_nil (fun hr' => hr (hmem r hr'))]
    rfl
  · obtain ⟨hnot, hne⟩ : 2 ∉ room.roleIds ∧ ¬ (2 : RoleId) = roleId := by
      rwa [List.mem_append, List.mem_singleton, not_or] at h2
    rw [Starting.gameStarts_append, h.before hnot r h3, gameStarts_enterRoom_eq_nil]
    · rfl
    · unfold started
      rw [if_neg (Ne.symm hne)]
      split
      · simpa using h3
      · exact List.not_mem_nil
  · obtain ⟨hnodup, hsub⟩ := horder
    have hcount := List.nodup_iff_count_le_one.mp hnodup
    have hold : EntersInOrder room.roleIds :=
      ⟨(List.nodup_append.mp hnodup).1, fun hs => hsub (hs.trans (List.sublist_append_left _ _))⟩
    rw [Starting.gameStarts_append, List.length_append, Starting.length_gameStarts_enterRoom]
    have hle := h.once hold r
    unfold started
    split
    · next h2 =>
      -- before role 2, only role 3 can have been started, and it has not entered
      have hnone : gameStarts r room.sent = [] := by
        by_cases h3 : r = 3
        · refine h.absent r fun hr => hsub ?_
          rw [h2]
          exact (List.singleton_sublist.mpr (h3 ▸ hr)).append (List.Sublist.refl [2])
        · refine h.before (fun hmem2 => ?_) r h3
          exact (List.nodup_append.mp hnodup).2.2 2 hmem2 roleId List.mem_cons_self h2.symm
      have hr := hcount r
      rw [h2] at hr
      rw [hnone]
      simpa using hr
    · split
      · next h3 =>
        by_cases hr : r = 3
        · have hnone : gameStarts r room.sent = [] := h.absent r fun hmem3 =>
            (List.nodup_append.mp hnodup).2.2 r hmem3 roleId List.mem_cons_self (hr.trans h3.symm)
          rw [hnone, hr]
          simp
        · rw [List.count_singleton, if_neg (by simpa using Ne.symm hr)]
          exact hle
      · exact hle
  · have hone' : (room.roleIds ++ [roleId]).count 2 ≤ 1 := hone
    rw [List.count_append] at hone'
    by_cases h2 : roleId = 2
    · refine ⟨now, fun r h3 m hm => ?_⟩
      have hnot : 2 ∉ room.roleIds := by
        rw [h2, List.count_singleton_self] at hone'
        exact List.count_eq_zero.mp (by omega)
      rw [Starting.gameStarts_append, h.before hnot r h3] at hm
      exact timestamp_of_enterRoom hm
    · obtain ⟨time, htime⟩ := h.same (by omega)
      refine ⟨time, fun r h3 m hm => ?_⟩
      rw [Starting.gameStarts_append, gameStarts_enterRoom_eq_nil, List.append_nil] at hm
      · exact htime r h3 m hm
      · unfold started
        rw [if_neg h2]
        split
        · simpa using h3
        · exact List.not_mem_nil

theorem starts_step {reaches : RoleId → Prop} (h : Starts s.room) (he : e.Served reaches)
    (ht : RoomThreads.step s e = .ok t) : Starts t.room := by
  cases e with
  | control msg =>
    cases ht
    exact ⟨h.absent, h.before, h.once, h.same⟩
  | enterRoom roleId msg now =>
    cases ht
    exact starts_enterRoom h roleId msg now
  | onRoleDisconnect roleId => exact he.elim
  | join msg now => exact he.elim
  | main =>
    cases ht
    obtain ⟨new, hsent, hnew, hroles⟩ : ∃ new, s.stepMain.room.sent = s.room.sent ++ new ∧
        (∀ r, gameStarts r new = []) ∧ s.stepMain.room.roleIds = s.room.roleIds := by
      unfold RoomThreads.stepMain
      split
      case h_6 input todo _ =>
        simp only [RoomThreads.broadcast, GameServerExample.broadcast, GameServerExample.sendMessageByRoleIds_eq]
        refine ⟨_, rfl, fun r => Starting.gameStarts_eq_nil fun r' m hm => ?_, trivial⟩
        obtain ⟨_, -, heq⟩ := List.mem_map.mp hm
        cases (Prod.mk.inj heq).2
      all_goals exact ⟨[], (List.append_nil _).symm, fun _ => rfl, rfl⟩
    have heq : ∀ r, gameStarts r s.stepMain.room.sent = gameStarts r s.room.sent := fun r => by
      rw [hsent, Starting.gameStarts_append, hnew, List.append_nil]
    refine ⟨?_, ?_, ?_, ?_⟩ <;> simp only [hroles, heq]
    exacts [h.absent, h.before, h.once, h.same]

end Room

namespace Mail

section Starts

variable {s t : Mail} {r : RoleId} {client : MailClient} {events : List MailEvent}

theorem starts_run (ht : run Mail.step new events = .ok t) : t.Known ∧ Starts t.room.room := by
  refine run_invariant (I := fun s => s.Known ∧ Starts s.room.room) (G := fun _ _ => True)
    (fun s e t h _ ht => ⟨h.1.step ht, ?_⟩) ⟨known_new, starts_new⟩ (fun _ _ _ _ _ => trivial) ht
  rcases room_step h.1.toInv ht with hroom | ⟨e', he', hstep, -⟩
  · rw [hroom]
    exact h.2
  · exact starts_step h.2 he' hstep

/-- The GAME_STARTs that the room has given out are with the player, or it is being sent them. -/
theorem Known.starts_sent (h : s.Known) (hr : s.clients r = some client) :
    client.got.filterMap Message.gameStart? ++ ((s.out r).filterMap Post.room?).filterMap Outgoing.gameStart? =
      gameStarts r s.room.room.sent := by
  rw [gameStarts_eq]
  refine (h.clients r client hr).got_sent Message.gameStart? Message.gameStart? _ (fun m => by cases m <;> rfl)
    (fun _ => rfl) fun msg => ?_
  cases msg with
  | control input =>
    simp only [Post.message]
    split <;> rfl
  | gameStart m => rfl
  | enterRoom m => rfl

/-- Where nobody is given two GAME_STARTs, each that is received is the first. -/
theorem Known.firstStart (h : s.Known) (hone : ∀ r, (gameStarts r s.room.room.sent).length ≤ 1) (e : MailEvent) :
    s.FirstStart e := by
  cases e with
  | receive roleId now =>
    rintro ⟨app, up, down⟩ hclient m hhead hstart
    obtain ⟨down, rfl⟩ := List.head?_eq_some_iff.mp hhead
    have hsent := congrArg List.length (h.starts_sent hclient)
    have hle := hone roleId
    obtain ⟨start, hm⟩ := Option.isSome_iff_exists.mp hstart
    rw [← hsent, MailClient.got, List.filterMap_append, List.filterMap_cons, hm] at hle
    have hnone : app.messages.filterMap Message.gameStart? = [] := by
      refine List.eq_nil_of_length_eq_zero ?_
      simp only [List.length_append, List.length_cons] at hle
      show (app.received.map _ |>.filterMap Message.gameStart?).length = 0
      omega
    rw [(h.told roleId _ hclient).started]
    exact congrArg (fun l => (List.head? l).map GameStartMessage.timestamp) hnone
  | _ => trivial

/-- The start that a player has been told. -/
theorem Known.start_time (h : s.Known) (hr : s.clients r = some client) {time : BitVec 64}
    (hpromise : client.app.gameStartPromise = some time) :
    ∃ m ∈ gameStarts r s.room.room.sent, m.timestamp = time := by
  rw [(h.told r client hr).started] at hpromise
  obtain ⟨m, hhead, rfl⟩ := Option.map_eq_some_iff.mp hpromise
  refine ⟨m, ?_, rfl⟩
  rw [← h.starts_sent hr, MailClient.got, List.filterMap_append]
  exact List.mem_append_left _ (List.mem_append_left _ (List.mem_of_mem_head? hhead))

end Starts

end Mail

namespace Session

section Results

variable {serverName : String} {s t : Session} {events : List SessionEvent}

/-- **The game starts at one time for everyone**: if role 2 has entered once, all players other than
role 3 that have been told the start of the game have been told the same. -/
theorem start_agreement (hs : new serverName = .ok s) (hc : EachStep step WithinContract s events)
    (ht : run step s events = .ok t) (hone : t.room.room.roleIds.count 2 ≤ 1) :
    ∃ start, ∀ (i : ConnId) (client : ConnectedClient), t.clients[i]? = some client →
      client.app.roleId ≠ 3 → ∀ time ∈ client.app.gameStartPromise, time = start := by
  obtain ⟨a, ha, sent, hsim⟩ := mail_run hs hc ht
  obtain ⟨hknown, hstarts⟩ := Mail.starts_run ha
  rw [← hsim.room] at hone
  obtain ⟨start, hstart⟩ := hstarts.same hone
  refine ⟨start, fun i client hi h3 time htime => ?_⟩
  obtain ⟨up, down, hmail⟩ := hsim.mailOf hi
  obtain ⟨m, hm, rfl⟩ := hknown.start_time hmail htime
  exact hstart _ h3 m hm

theorem playing_start_agreement : ∃ s t start, new "server" = .ok s ∧ run step s (entering ++ playing) = .ok t ∧
    ∃ client ∈ t.clients[0]?, ∀ time ∈ client.app.gameStartPromise, time = start := by
  obtain ⟨s, hs, hc, -, t, ht, hroles, client, hi, hrole, -⟩ := playing_meets
  obtain ⟨start, hstart⟩ := start_agreement hs hc ht (by rw [hroles]; decide)
  exact ⟨s, t, start, hs, ht, client, hi, hstart 0 client hi (by rw [hrole]; decide)⟩

/-- **A game in which the roles enter in order never fails**, a call of `EnterRoom` being one step: within
that of role 2, role 3 could be told the start before its own call does. -/
theorem never_fails (hs : new serverName = .ok s) (hc : EachStep step WithinContract s events)
    (hfew : EachStep step FewCalls s events)
    (horder : EachStep step (fun s _ => EntersInOrder s.room.room.roleIds) s events) :
    ∃ t, run step s events = .ok t := by
  refine (run_ok_iff hs hc hfew).1.mpr fun ds e hds t ht => ?_
  have hcontract : EachStep step WithinContract s ds :=
    EachStep.of_prefix hc ((List.prefix_append ds [e]).trans hds)
  obtain ⟨a, ha, sent, hsim⟩ := mail_run hs hcontract ht
  obtain ⟨hknown, hstarts⟩ := Mail.starts_run ha
  have hone := hstarts.once (hsim.room ▸ horder ds e hds t ht)
  exact (firstStart_mailEvents hsim e).mpr fun d _ => hknown.firstStart hone d

theorem playing_never_fails : ∃ s, new "server" = .ok s ∧ ∃ t, run step s (entering ++ playing) = .ok t := by
  obtain ⟨s, hs, hc, hfew, -⟩ := playing_meets
  have horder : EachStep step (fun s _ => EntersInOrder s.room.room.roleIds) s (entering ++ playing) := by
    cases hs
    decide +kernel
  exact ⟨s, hs, never_fails hs hc hfew horder⟩

end Results

end Session

end GameNetwork
