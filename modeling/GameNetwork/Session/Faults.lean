import GameNetwork.Session.Delivery

/-!
# What the players know, and what can fail

`Moves` says once what an event does to a player. From it: a player is told the
game that it has received (`Known`), and the calls of `EnterRoom` have their
futures and ids (`Waiting`), as long as no player makes 2^32.

`step_ok_iff`: a second GAME_START for a player is all that can go wrong.
-/

namespace GameNetwork

open Lib

namespace Mail

/-! ## What an event does to a player -/

/-- One player, before an event and after it. -/
inductive Moves (s : Mail) (e : MailEvent) (r : RoleId) : MailClient → MailClient → Prop where
  | stays (client : MailClient) : Moves s e r client client
  | calls {app app' : ClientApp} {up down : List Message} {call : GameCall} {msg : Option Message}
      (he : e = .call r call) (h : app.call call = .ok (msg, app')) :
      Moves s e r ⟨app, up, down⟩ ⟨app', up ++ msg.toList, down⟩
  | served (app : ClientApp) (m : Message) (up down : List Message) :
      Moves s e r ⟨app, m :: up, down⟩ ⟨app, up, down⟩
  | sent {app : ClientApp} {m : Message} {up down : List Message} {post : Post} (hpost : post ∈ s.out r)
      (hm : post.message s.room.room.inputs = .ok m) : Moves s e r ⟨app, up, down⟩ ⟨app, up, down ++ [m]⟩
  | received {app app' : ClientApp} {m : Message} {up down : List Message} {now : BitVec 64}
      (h : app.dispatch ⟨m.base.roleId, m⟩ now = .ok app') : Moves s e r ⟨app, up, m :: down⟩ ⟨app', up, down⟩

section Moves

variable {s t : Mail} {e : MailEvent} {r : RoleId}

/-- A player of the state after an event is new, or was one before it. -/
def Moved (s : Mail) (e : MailEvent) (r : RoleId) (client' : MailClient) : Prop :=
  (s.clients r = none ∧ ∃ app, ClientApp.new r = .ok app ∧ client' = ⟨app.idle, [], []⟩) ∨
    ∃ client, s.clients r = some client ∧ s.Moves e r client client'

theorem moved_of_eq (hclients : t.clients = s.clients) {client' : MailClient} (hr : t.clients r = some client') :
    Moved s e r client' := .inr ⟨client', hclients ▸ hr, .stays client'⟩

/-- One player moves. -/
theorem moved_setClient {r' : RoleId} {client client' client'' : MailClient}
    (hclients : t.clients = Function.update s.clients r' (some client')) (hr' : s.clients r' = some client)
    (hmoves : s.Moves e r' client client') (hr : t.clients r = some client'') : Moved s e r client'' := by
  rw [hclients] at hr
  by_cases heq : r = r'
  · subst heq
    rw [Function.update_self] at hr
    cases hr
    exact .inr ⟨client, hr', hmoves⟩
  · rw [Function.update_of_ne heq] at hr
    exact .inr ⟨client'', hr, .stays _⟩

theorem onRoom_clients {e' : RoomEvent} (ht : s.onRoom e' = .ok t) : t.clients = s.clients := by
  obtain ⟨room, -, hret⟩ := bind_eq_ok.mp ht
  cases hret
  rfl

theorem handle_clients {now : BitVec 64} {m : Message} (ht : s.handle r now m = .ok t) :
    t.clients = s.clients := by
  cases m with
  | plain m => cases ht; rfl
  | ping m => cases ht; rfl
  | control m => exact onRoom_clients ht
  | enterRoom m => exact onRoom_clients ht
  | gameStart m => cases ht; rfl

/-- **What an event does to the players.** -/
theorem moved_step (ht : s.step e = .ok t) {client' : MailClient} (hr : t.clients r = some client') :
    Moved s e r client' := by
  cases e with
  | connect roleId =>
    simp only [step] at ht
    split at ht
    · cases ht
      exact moved_of_eq rfl hr
    · next hnone =>
      obtain ⟨app, happ, hret⟩ := bind_eq_ok.mp ht
      cases hret
      by_cases heq : r = roleId
      · subst heq
        cases (Function.update_self ..).symm.trans hr
        exact .inl ⟨hnone, app, happ, rfl⟩
      · exact .inr ⟨client', (Function.update_of_ne heq ..).symm.trans hr, .stays _⟩
  | call roleId call =>
    simp only [step] at ht
    split at ht
    · cases ht
      exact moved_of_eq rfl hr
    · next client hclient =>
      obtain ⟨⟨msg, app⟩, hcall, hret⟩ := bind_eq_ok.mp ht
      cases hret
      exact moved_setClient rfl hclient (.calls rfl hcall) hr
  | serve roleId now =>
    simp only [step] at ht
    split at ht
    · next app m up down hclient =>
      exact moved_setClient (handle_clients ht) hclient (.served app m up down) hr
    · cases ht
      exact moved_of_eq rfl hr
  | main => exact moved_of_eq (onRoom_clients ht) hr
  | send roleId =>
    simp only [step] at ht
    split at ht
    · next post out client hout hclient =>
      obtain ⟨msg, hmsg, hret⟩ := bind_eq_ok.mp ht
      cases hret
      exact moved_setClient rfl hclient (.sent (hout ▸ List.mem_cons_self) hmsg) hr
    · cases ht
      exact moved_of_eq rfl hr
  | receive roleId now =>
    simp only [step] at ht
    split at ht
    · next app up m down hclient =>
      obtain ⟨app', hdispatch, hret⟩ := bind_eq_ok.mp ht
      cases hret
      exact moved_setClient rfl hclient (.received hdispatch) hr
    · cases ht
      exact moved_of_eq rfl hr

theorem onRoom_out {e' : RoomEvent} (ht : s.onRoom e' = .ok t) {m : Message} (hm : .echo m ∈ t.out r) :
    .echo m ∈ s.out r := by
  obtain ⟨room, -, hret⟩ := bind_eq_ok.mp ht
  cases hret
  refine (List.mem_append.mp hm).resolve_right fun hpost => ?_
  rw [postsFor_postsOf] at hpost
  obtain ⟨x, -, hx⟩ := List.mem_map.mp hpost
  cases hx

/-- What goes back is a message that was served. -/
theorem echo_step (ht : s.step e = .ok t) {m : Message} (hm : .echo m ∈ t.out r) :
    .echo m ∈ s.out r ∨ ∃ client, s.clients r = some client ∧ m ∈ client.up := by
  cases e with
  | connect roleId =>
    simp only [step] at ht
    split at ht
    · cases ht
      exact .inl hm
    · obtain ⟨app, happ, hret⟩ := bind_eq_ok.mp ht
      cases hret
      exact .inl hm
  | call roleId call =>
    simp only [step] at ht
    split at ht
    · cases ht
      exact .inl hm
    · obtain ⟨⟨msg, app⟩, hcall, hret⟩ := bind_eq_ok.mp ht
      cases hret
      exact .inl hm
  | serve roleId now =>
    simp only [step] at ht
    split at ht
    swap
    · cases ht
      exact .inl hm
    next app m' up down hclient =>
    cases m' with
    | plain m' => cases ht; exact .inl hm
    | control m' => exact .inl (onRoom_out ht hm)
    | enterRoom m' => exact .inl (onRoom_out ht hm)
    | gameStart m' => cases ht; exact .inl hm
    | ping m' =>
      cases ht
      refine (List.mem_append.mp hm).imp id fun hpost => ?_
      by_cases heq : roleId = r
      · subst heq
        have hself : postsFor roleId [(roleId, .echo (.ping m'))] = [.echo (.ping m')] := by
          simp [postsFor]
        rw [hself] at hpost
        cases List.mem_singleton.mp hpost
        exact ⟨_, hclient, List.mem_cons_self⟩
      · have hnone : postsFor r [(roleId, .echo (.ping m'))] = [] := by
          simp [postsFor, heq]
        rw [hnone] at hpost
        cases hpost
  | main => exact .inl (onRoom_out ht hm)
  | send roleId =>
    simp only [step] at ht
    split at ht
    swap
    · cases ht
      exact .inl hm
    next post out client hout hclient =>
    obtain ⟨msg, hmsg, hret⟩ := bind_eq_ok.mp ht
    cases hret
    left
    by_cases heq : r = roleId
    · subst heq
      have hm' : .echo m ∈ Function.update s.out r out r := hm
      rw [Function.update_self] at hm'
      rw [hout]
      exact List.mem_cons_of_mem _ hm'
    · have hm' : .echo m ∈ Function.update s.out roleId out r := hm
      rwa [Function.update_of_ne heq] at hm'
  | receive roleId now =>
    simp only [step] at ht
    split at ht
    · obtain ⟨app', -, hret⟩ := bind_eq_ok.mp ht
      cases hret
      exact .inl hm
    · cases ht
      exact .inl hm

end Moves

/-! ## What the players know -/

/-- The players are told the game. -/
structure Known (s : Mail) : Prop extends Inv Message.withoutTick s where
  told : ∀ r client, s.clients r = some client → client.app.Told
  down : ∀ r client, s.clients r = some client → ∀ m ∈ client.down, m.Regular
  echoes : ∀ r m, .echo m ∈ s.out r → m.Regular

/-- A call of `EnterRoom` is not the 2^32-th of its player. -/
def FewCalls (s : Mail) : MailEvent → Prop
  | .call roleId (.enterRoom _) => ∀ client ∈ s.clients roleId, client.app.entered.length + 1 < 2 ^ 32
  | _ => True

/-- The calls of `EnterRoom` wait for their answers. -/
def Waiting (s : Mail) : Prop := ∀ r client, s.clients r = some client → client.app.Entered

section Known

variable {s t : Mail} {e : MailEvent} {r : RoleId}

theorem known_new : Known new :=
  ⟨inv_new _, fun _ _ h => (by cases h), fun _ _ h => (by cases h), fun _ _ h => (by cases h)⟩

/-- What waits to be sent is regular. -/
theorem Known.regular_post (h : s.Known) {client : MailClient} (hr : s.clients r = some client) {post : Post}
    (hpost : post ∈ s.out r) : post.Good s.room.room.inputs := by
  cases post with
  | echo m => exact ⟨m, rfl, h.echoes r m hpost⟩
  | room msg =>
    obtain ⟨done, hdone, -⟩ := (h.clients r client hr).given
    have hmem : msg ∈ sentTo r s.room.room.sent := by
      rw [← hdone]
      exact List.mem_append_right _ (List.mem_filterMap.mpr ⟨_, hpost, rfl⟩)
    obtain ⟨x, hx, rfl⟩ := List.mem_map.mp hmem
    exact (h.sent x (List.mem_of_mem_filter hx)).2

theorem Known.step (h : s.Known) (ht : s.step e = .ok t) : t.Known := by
  refine ⟨inv_step_withoutTick h.toInv ht, fun r client' hr => ?_, fun r client' hr m hm => ?_, fun r m hm => ?_⟩
  · rcases moved_step ht hr with ⟨-, app, happ, rfl⟩ | ⟨client, hclient, hmoves⟩
    · exact (ClientApp.told_new happ).idle
    · have htold := h.told r client hclient
      cases hmoves with
      | stays => exact htold
      | calls he hcall => exact htold.call hcall
      | served => exact htold
      | sent => exact htold
      | received hdispatch => exact htold.dispatch (h.down r _ hclient _ List.mem_cons_self) hdispatch
  · rcases moved_step ht hr with ⟨-, app, -, rfl⟩ | ⟨client, hclient, hmoves⟩
    · cases hm
    · have hdown := h.down r client hclient
      cases hmoves with
      | stays => exact hdown m hm
      | calls => exact hdown m hm
      | served => exact hdown m hm
      | sent hpost hmsg =>
        rcases List.mem_append.mp hm with hm | hm
        · exact hdown m hm
        · obtain rfl := List.mem_singleton.mp hm
          obtain ⟨m', hm', hregular⟩ := h.regular_post hclient hpost
          cases hmsg.symm.trans hm'
          exact hregular
      | received => exact hdown m (List.mem_cons_of_mem _ hm)
  · rcases echo_step ht hm with hm | ⟨client, hclient, hup⟩
    · exact h.echoes r m hm
    · exact ((h.clients r client hclient).own m hup).1

theorem known_run {events : List MailEvent} (ht : run Mail.step new events = .ok t) : t.Known :=
  run_invariant (G := fun _ _ => True) (fun _ _ _ h _ ht => h.step ht) known_new (fun _ _ _ _ _ => trivial) ht

/-! ## The calls of `EnterRoom` -/

/-- The answers that the room has given out are with the player, or it is being sent them. -/
theorem Known.answers_sent (h : s.Known) {client : MailClient} (hr : s.clients r = some client) :
    client.got.filterMap Message.enterRoom? ++ ((s.out r).filterMap Post.room?).filterMap Outgoing.enterRoom? =
      (sentTo r s.room.room.sent).filterMap Outgoing.enterRoom? := by
  refine (h.clients r client hr).got_sent Message.enterRoom? Message.enterRoom? _ (fun m => by cases m <;> rfl)
    (fun _ => rfl) fun msg => ?_
  cases msg with
  | control input =>
    simp only [Post.message]
    split <;> rfl
  | gameStart m => rfl
  | enterRoom m => rfl

/-- They are the first of those to all of its calls. -/
theorem Known.answers (h : s.Known) {client : MailClient} (hr : s.clients r = some client) :
    client.got.filterMap Message.enterRoom? ++ (((s.out r).filterMap Post.room?).filterMap Outgoing.enterRoom? ++
      (client.up.filterMap Message.enterRoom?).map (·.answered)) = client.app.requests.map (·.answered) := by
  rw [← List.append_assoc, h.answers_sent hr]
  exact (h.clients r client hr).answers

/-- A role is in the room at least as often as it has been answered, and at most as often as it has
asked. -/
theorem Known.count_roleIds (h : s.Known) (hmembers : s.Members) {client : MailClient}
    (hr : s.clients r = some client) :
    client.app.answers.length ≤ s.room.room.roleIds.count r ∧
      s.room.room.roleIds.count r ≤ client.app.requests.length := by
  have hsent := congrArg List.length (h.answers_sent hr)
  have hasked := congrArg List.length (h.answers hr)
  have hgot : client.app.answers <+: client.got.filterMap Message.enterRoom? :=
    List.IsPrefix.filterMap _ (List.prefix_append _ _)
  have hle := hgot.length_le
  rw [List.length_append, ← hmembers] at hsent
  simp only [List.length_append, List.length_map] at hasked
  omega

/-- **The next answer** is what its call waits for. -/
theorem Known.answer_next (h : s.Known) {app : ClientApp} {up down : List Message} {m : EnterRoomMessage}
    (hr : s.clients r = some ⟨app, up, .enterRoom m :: down⟩) :
    (app.requests.map (·.answered))[app.answers.length]? = some m := by
  have hl := h.answers hr
  have hgot : (⟨app, up, .enterRoom m :: down⟩ : MailClient).got.filterMap Message.enterRoom? =
      app.answers ++ (m :: down.filterMap Message.enterRoom?) := List.filterMap_append
  rw [hgot, List.append_assoc] at hl
  rw [← hl, List.getElem?_append_right (Nat.le_refl _), Nat.sub_self]
  rfl

/-- A message that is no answer, and is dispatched, leaves the dispatcher alone. -/
theorem dispatch_keeps {app app' : ClientApp} (h : app.Told) {m : Message} (hm : m.Regular)
    (hnone : m.enterRoom? = none) {now : BitVec 64} (hd : app.dispatch ⟨m.base.roleId, m⟩ now = .ok app') :
    app'.recvMsgDispatcher = app.recvMsgDispatcher := by
  cases m with
  | plain m => exact hm.constructed.elim
  | control m =>
    obtain ⟨app'', hd', -, hsame⟩ := h.dispatch_control hm now
    cases hd.symm.trans hd'
    exact hsame
  | ping m =>
    obtain ⟨app'', hd', -, hsame⟩ := h.dispatch_ping hm now
    cases hd.symm.trans hd'
    exact hsame
  | gameStart m =>
    by_cases hstart : app.gameStartPromise = none
    · obtain ⟨app'', hd', -, hsame⟩ := h.dispatch_first hm hstart now
      cases hd.symm.trans hd'
      exact hsame
    · cases hd.symm.trans (h.dispatch_second hm hstart now)
  | enterRoom m => cases hnone

/-- An answer, or another message, for a player whose calls wait. -/
theorem Known.dispatch_entered (h : s.Known) (hwaiting : s.Waiting) {app app' : ClientApp} {up down : List Message}
    {m : Message} (hr : s.clients r = some ⟨app, up, m :: down⟩) {now : BitVec 64}
    (hd : app.dispatch ⟨m.base.roleId, m⟩ now = .ok app') : app'.Entered := by
  have hentered : app.Entered := hwaiting r _ hr
  cases hm : m.enterRoom? with
  | none =>
    have hregular := h.down r _ hr m List.mem_cons_self
    exact hentered.dispatch_other hm hd (dispatch_keeps (h.told r _ hr) hregular hm hd)
  | some answer =>
    obtain rfl : m = .enterRoom answer := by
      cases m with
      | enterRoom m => exact congrArg _ (Option.some.inj hm)
      | _ => cases hm
    obtain ⟨app'', hd', hentered'⟩ := hentered.dispatch_answer now (h.answer_next hr)
    cases hd.symm.trans hd'
    exact hentered'

theorem waiting_step (h : s.Known) (hwaiting : s.Waiting) (hfew : s.FewCalls e) (ht : s.step e = .ok t) :
    t.Waiting := by
  intro r client' hr
  rcases moved_step ht hr with ⟨-, app, happ, rfl⟩ | ⟨client, hclient, hmoves⟩
  · exact (ClientApp.entered_new happ).idle
  have hentered := hwaiting r client hclient
  cases hmoves with
  | stays => exact hentered
  | served => exact hentered
  | sent => exact hentered
  | received hdispatch => exact h.dispatch_entered hwaiting hclient hdispatch
  | calls he hcall =>
    subst he
    refine hentered.call_ok hcall fun roomId hcall => ?_
    subst hcall
    exact hfew _ hclient

theorem waiting_run {events : List MailEvent} (ht : run Mail.step new events = .ok t)
    (hfew : EachStep Mail.step FewCalls new events) : t.Waiting := by
  refine (run_invariant (I := fun s => s.Known ∧ s.Waiting) (fun _ _ _ h hfew ht => ?_) ⟨known_new, ?_⟩ hfew ht).2
  · exact ⟨h.1.step ht, waiting_step h.1 h.2 hfew ht⟩
  · exact fun _ _ h => (by cases h)

end Known

/-! ## What can fail -/

/-- A GAME_START that a player receives is its first. -/
def FirstStart (s : Mail) : MailEvent → Prop
  | .receive roleId _ => ∀ client ∈ s.clients roleId, ∀ m ∈ client.down.head?,
    m.gameStart?.isSome → client.app.gameStartPromise = none
  | _ => True

section Faults

variable {s : Mail} {e : MailEvent} {r : RoleId}

theorem onRoom_ok {reaches : RoleId → Prop} (h : RoomOk reaches s.room) (e' : RoomEvent) (he : e'.Served reaches) :
    ∃ t, s.onRoom e' = .ok t := by
  obtain ⟨room, -, hstep, -⟩ := h.step he
  unfold onRoom
  rw [hstep]
  exact ⟨_, rfl⟩

/-- Whatever a player sends is served. -/
theorem Known.serve_ok (h : s.Known) {app : ClientApp} {m : Message} {up down : List Message}
    (hr : s.clients r = some ⟨app, m :: up, down⟩) (now : BitVec 64) :
    ∃ t, (s.setClient r ⟨app, up, down⟩).handle r now m = .ok t := by
  obtain ⟨hm, -⟩ := (h.clients r _ hr).own m List.mem_cons_self
  have hsome : (s.clients r).isSome := by
    rw [hr]
    rfl
  cases m with
  | plain m => exact hm.constructed.elim
  | ping m => exact ⟨_, rfl⟩
  | control m => exact onRoom_ok (s := s.setClient r ⟨app, up, down⟩) h.room (.control m) hm
  | enterRoom m =>
    exact onRoom_ok (s := s.setClient r ⟨app, up, down⟩) h.room (.enterRoom r m now) ⟨hsome, hm⟩
  | gameStart m => exact ⟨_, rfl⟩

/-- A message is received exactly if it is no second GAME_START. -/
theorem Known.receive_iff (h : s.Known) (hwaiting : s.Waiting) {app : ClientApp} {m : Message}
    {up down : List Message} (hr : s.clients r = some ⟨app, up, m :: down⟩) (now : BitVec 64) :
    (∃ app', app.dispatch ⟨m.base.roleId, m⟩ now = .ok app') ↔
      (m.gameStart?.isSome → app.gameStartPromise = none) := by
  have htold := h.told r _ hr
  have hm := h.down r _ hr m List.mem_cons_self
  cases m with
  | plain m => exact hm.constructed.elim
  | control m =>
    obtain ⟨app', hd, -⟩ := htold.dispatch_control hm now
    exact iff_of_true ⟨app', hd⟩ nofun
  | ping m =>
    obtain ⟨app', hd, -⟩ := htold.dispatch_ping hm now
    exact iff_of_true ⟨app', hd⟩ nofun
  | enterRoom m =>
    obtain ⟨app', hd, -⟩ := (hwaiting r _ hr).dispatch_answer now (h.answer_next hr)
    exact iff_of_true ⟨app', hd⟩ nofun
  | gameStart m =>
    by_cases hnone : app.gameStartPromise = none
    · obtain ⟨app', hd, -⟩ := htold.dispatch_first hm hnone now
      exact iff_of_true ⟨app', hd⟩ fun _ => hnone
    · refine iff_of_false ?_ fun hstart => hnone (hstart rfl)
      rintro ⟨app', hd⟩
      cases hd.symm.trans (htold.dispatch_second hm hnone now)

/-- **A second GAME_START for a player is all that can go wrong.** -/
theorem step_ok_iff (h : s.Known) (hwaiting : s.Waiting) (hfew : s.FewCalls e) :
    (∃ t, s.step e = .ok t) ↔ s.FirstStart e := by
  cases e with
  | connect roleId =>
    refine iff_of_true ?_ trivial
    unfold Mail.step
    dsimp only
    split <;> exact ⟨_, rfl⟩
  | call roleId call =>
    refine iff_of_true ?_ trivial
    unfold Mail.step
    dsimp only
    split
    · exact ⟨_, rfl⟩
    · next client hclient =>
      have hfew' : ∀ roomId, call = .enterRoom roomId → client.app.entered.length + 1 < 2 ^ 32 := by
        rintro roomId rfl
        exact hfew client hclient
      obtain ⟨msg, app', hcall, -⟩ := (hwaiting roleId client hclient).call hfew'
      rw [hcall]
      exact ⟨_, rfl⟩
  | serve roleId now =>
    refine iff_of_true ?_ trivial
    unfold Mail.step
    dsimp only
    split
    · next hclient => exact h.serve_ok hclient now
    · exact ⟨_, rfl⟩
  | main => exact iff_of_true (onRoom_ok h.room .main trivial) trivial
  | send roleId =>
    refine iff_of_true ?_ trivial
    unfold Mail.step
    dsimp only
    split
    · next post out client hout hclient =>
      have hpost : post ∈ s.out roleId := hout ▸ List.mem_cons_self
      obtain ⟨m, hm, -⟩ := h.regular_post hclient hpost
      rw [hm]
      exact ⟨_, rfl⟩
    · exact ⟨_, rfl⟩
  | receive roleId now =>
    unfold Mail.step FirstStart
    dsimp only
    split
    · next app up m down hclient =>
      rw [hclient]
      have hreceive := h.receive_iff hwaiting hclient now
      constructor
      · rintro ⟨t, ht⟩ client hmem m' hhead
        cases hmem
        cases hhead
        obtain ⟨app', hd, -⟩ := bind_eq_ok.mp ht
        exact hreceive.mp ⟨app', hd⟩
      · intro hfirst
        obtain ⟨app', hd⟩ := hreceive.mpr (hfirst _ rfl _ rfl)
        rw [hd]
        exact ⟨_, rfl⟩
    · next hnone =>
      refine iff_of_true ⟨_, rfl⟩ fun client hmem m hhead => ?_
      obtain ⟨app, up, down⟩ := client
      cases down with
      | nil => cases hhead
      | cons m' down => exact absurd hmem (hnone app up m' down)

/-- It is the promise of the first one that throws. -/
theorem step_error (h : s.Known) (hwaiting : s.Waiting) (hfew : s.FewCalls e) {f : Fault}
    (hf : s.step e = .error f) : f = .promiseAlreadySatisfied := by
  have hnot : ¬ s.FirstStart e := fun hfirst => by
    obtain ⟨t, ht⟩ := (step_ok_iff h hwaiting hfew).mpr hfirst
    cases hf.symm.trans ht
  cases e with
  | receive roleId now =>
    simp only [FirstStart, not_forall] at hnot
    obtain ⟨⟨app, up, down⟩, hclient, m, hhead, hstart, hset⟩ := hnot
    obtain ⟨down, rfl⟩ := List.head?_eq_some_iff.mp hhead
    obtain ⟨m, rfl⟩ : ∃ m', m = .gameStart m' := by
      cases m with
      | gameStart m => exact ⟨m, rfl⟩
      | _ => cases hstart
    have hm := h.down roleId _ hclient _ List.mem_cons_self
    have hthrows := (h.told roleId _ hclient).dispatch_second hm hset now
    unfold Mail.step at hf
    simp only [show s.clients roleId = _ from hclient, Message.base, hthrows, bind, Except.bind] at hf
    exact (Except.error.inj hf).symm
  | _ => exact absurd trivial hnot

end Faults

end Mail

end GameNetwork
