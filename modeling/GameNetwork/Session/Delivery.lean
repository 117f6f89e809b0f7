import GameNetwork.GameClient.PlayerState
import GameNetwork.Session.Room

/-!
# What the mail service delivers

For each player, whatever the order of the events: the inputs that the room has
collected and those on their way are those that the player has sent; so are the
answers to its calls of `EnterRoom`, and its pings, which come back as they
are; and what it has received from the room, what is on its way and what waits
to be sent is what the room has given out for its role.

What is received is compared with what the room has given out in a view of
messages (`v`), since `Update` may write to an input after it was given out.
`SameSent` is what a view must not see; `withoutTick` is a view for every run.
-/

namespace GameNetwork

open Lib

/-! ## Kinds of messages -/

def Outgoing.enterRoom? : Outgoing → Option EnterRoomMessage
  | .enterRoom m => some m
  | _ => none

/-- The ping that goes back. -/
def Post.ping? : Post → Option PingMessage
  | .echo m => m.ping?
  | .room _ => none

def Post.room? : Post → Option Outgoing
  | .room msg => some msg
  | .echo _ => none

/-- The message but for the tick of an input. -/
def Message.withoutTick : Message → Message
  | .control m => .control m.withoutTick
  | m => m

/-! ## The room -/

/-- What has been sent to a role, in order. -/
def sentTo (roleId : RoleId) (sent : List (RoleId × Outgoing)) : List Outgoing :=
  (sent.filter (·.1 = roleId)).map (·.2)

/-- The inputs of a player that the room has collected, in order. -/
def inputsFrom (roleId : RoleId) (room : GameServerExample) : List ControlMessage :=
  (room.inputs.map (·.withoutTick)).filter (·.roleId = roleId)

/-- The input that an event collects from a role. -/
def RoomEvent.input? (roleId : RoleId) : RoomEvent → Option ControlMessage
  | .control msg => if msg.roleId = roleId then some msg else none
  | _ => none

/-- The answer that an event gives a role. -/
def RoomEvent.answer? (roleId : RoleId) : RoomEvent → Option EnterRoomMessage
  | .enterRoom roleId' msg _ => if roleId' = roleId then some msg.answered else none
  | _ => none

section Room

variable {s t : RoomThreads} {e : RoomEvent}

theorem sentTo_append (roleId : RoleId) (sent sent' : List (RoleId × Outgoing)) :
    sentTo roleId (sent ++ sent') = sentTo roleId sent ++ sentTo roleId sent' := by
  rw [sentTo, List.filter_append, List.map_append]
  rfl

/-- A post that is the same for some roles. -/
theorem mem_sentTo_roles {roleId : RoleId} {roleIds : List RoleId} {msg x : Outgoing}
    (h : x ∈ sentTo roleId (roleIds.map (·, msg))) : x = msg := by
  obtain ⟨y, hy, rfl⟩ := List.mem_map.mp h
  obtain ⟨r, -, rfl⟩ := List.mem_map.mp (List.mem_filter.mp hy).1
  rfl

theorem inputsFrom_step (roleId : RoleId) (ht : RoomThreads.step s e = .ok t) :
    inputsFrom roleId t.room =
      inputsFrom roleId s.room ++ (e.input? roleId).toList.map (·.withoutTick) := by
  have hgiven : ((RoomThreads.given [e]).map (·.withoutTick)).filter (·.roleId = roleId) =
      (e.input? roleId).toList.map (·.withoutTick) := by
    cases e with
    | control msg =>
      have hrole : msg.withoutTick.roleId = msg.roleId := rfl
      unfold RoomEvent.input?
      by_cases h : msg.roleId = roleId <;> simp [RoomThreads.given, hrole, h]
    | _ => rfl
  rw [inputsFrom, inputsFrom, RoomThreads.inputs_step ht, List.filter_append, hgiven]

/-- What `EnterRoom` gives a role other than the answer is no answer. -/
theorem answers_enterRoomSends (roleId : RoleId) (room : GameServerExample) (roleId' : RoleId)
    (msg : EnterRoomMessage) (now : BitVec 64) :
    (sentTo roleId (room.enterRoomSends roleId' msg now)).filterMap Outgoing.enterRoom? =
      if roleId' = roleId then [msg.answered] else [] := by
  have hstart : ∀ roleIds : List RoleId, (sentTo roleId
      (roleIds.map (·, GameServerExample.gameStartAt now))).filterMap Outgoing.enterRoom? = [] := fun roleIds =>
    List.filterMap_eq_nil_iff.mpr fun x hx => by
      rw [mem_sentTo_roles hx]
      rfl
  have hreplay : (sentTo roleId (room.recorded.map fun input =>
      (roleId', Outgoing.control input))).filterMap Outgoing.enterRoom? = [] :=
    List.filterMap_eq_nil_iff.mpr fun x hx => by
      obtain ⟨y, hy, rfl⟩ := List.mem_map.mp hx
      obtain ⟨input, -, rfl⟩ := List.mem_map.mp (List.mem_filter.mp hy).1
      rfl
  have hanswer : (sentTo roleId [(roleId', Outgoing.enterRoom msg.answered)]).filterMap
      Outgoing.enterRoom? = if roleId' = roleId then [msg.answered] else [] := by
    by_cases h : roleId' = roleId <;> simp [sentTo, h, Outgoing.enterRoom?]
  unfold GameServerExample.enterRoomSends
  rw [sentTo_append, sentTo_append, List.filterMap_append, List.filterMap_append]
  have htwo : (sentTo roleId (if roleId' = 2 then (room.roleIds ++ [roleId']).map
      (·, GameServerExample.gameStartAt now) else [])).filterMap Outgoing.enterRoom? = [] := by
    split
    · exact hstart _
    · rfl
  have hthree : (sentTo roleId (if roleId' = 3 then
      (roleId', GameServerExample.gameStartAt now) ::
        room.recorded.map fun input => (roleId', Outgoing.control input) else [])).filterMap
      Outgoing.enterRoom? = [] := by
    split
    · rw [show ∀ (x : RoleId × Outgoing) xs, x :: xs = [x] ++ xs from fun _ _ => rfl, sentTo_append,
        List.filterMap_append, hreplay, List.append_nil]
      exact hstart [roleId']
    · rfl
  rw [htwo, hthree]
  exact hanswer

/-- **The answers** that an event gives a role. -/
theorem answers_step (roleId : RoleId) (he : ∀ msg now, e ≠ .join msg now)
    (ht : RoomThreads.step s e = .ok t) :
    (sentTo roleId t.room.sent).filterMap Outgoing.enterRoom? =
      (sentTo roleId s.room.sent).filterMap Outgoing.enterRoom? ++ (e.answer? roleId).toList := by
  cases e with
  | control msg =>
    cases ht
    exact (List.append_nil _).symm
  | onRoleDisconnect roleId' =>
    cases ht
    exact (List.append_nil _).symm
  | join msg now => exact absurd rfl (he msg now)
  | enterRoom roleId' msg now =>
    cases ht
    show (sentTo roleId (s.room.enterRoom roleId' msg now).sent).filterMap _ = _
    rw [GameServerExample.enterRoom_eq]
    show (sentTo roleId (s.room.sent ++ s.room.enterRoomSends roleId' msg now)).filterMap _ = _
    rw [sentTo_append, List.filterMap_append, answers_enterRoomSends]
    congr 1
    unfold RoomEvent.answer?
    dsimp only
    split <;> rfl
  | main =>
    cases ht
    unfold RoomThreads.stepMain
    split
    case h_6 input todo _ =>
      simp only [RoomThreads.broadcast, GameServerExample.broadcast,
        GameServerExample.sendMessageByRoleIds_eq, sentTo_append, List.filterMap_append]
      congr 1
      exact List.filterMap_eq_nil_iff.mpr fun x hx => by
        rw [mem_sentTo_roles hx]
        rfl
    all_goals exact (List.append_nil _).symm

end Room

/-! ## One player -/

/-- All that a player has received, and what is on its way to it. -/
def MailClient.got (client : MailClient) : List Message := client.app.received.map (·.1) ++ client.down

/-- What has been sent looks the same afterwards. -/
def SameSent {β : Type} (v : Message → β) (room room' : GameServerExample) : Prop :=
  ∀ x ∈ room.sent, ((Post.room x.2).message room'.inputs).map v = ((Post.room x.2).message room.inputs).map v

/-- **What is conserved of the mail of a player**, seen through `v`. -/
structure MailClient.Conserved {β : Type} (v : Message → β) (room : GameServerExample) (out : List Post)
    (roleId : RoleId) (client : MailClient) : Prop where
  role : client.app.roleId = roleId
  constructed : client.app.Constructed
  own : ∀ m ∈ client.up, m.Regular ∧ m.base.roleId = roleId
  echoes : ∀ m, .echo m ∈ out → m.ping?.isSome
  inputs : inputsFrom roleId room ++ (client.up.filterMap Message.control?).map (·.withoutTick) =
    (client.app.sent.filterMap Message.control?).map (·.withoutTick)
  answers : (sentTo roleId room.sent).filterMap Outgoing.enterRoom? ++
    (client.up.filterMap Message.enterRoom?).map (·.answered) =
      (client.app.sent.filterMap Message.enterRoom?).map (·.answered)
  pings : client.got.filterMap Message.ping? ++
    (out.filterMap Post.ping? ++ client.up.filterMap Message.ping?) = client.app.sent.filterMap Message.ping?
  /-- What the room has given out is with the player or on its way to it, or waits to be sent. -/
  given : ∃ done, done ++ out.filterMap Post.room? = sentTo roleId room.sent ∧
    (client.got.filter (·.ping?.isNone)).map (fun m => .ok (v m)) =
      done.map fun msg => ((Post.room msg).message room.inputs).map v

namespace MailClient.Conserved

variable {β : Type} {v : Message → β} {room room' : GameServerExample} {out : List Post} {r : RoleId}
  {client : MailClient} {app app' : ClientApp} {up down : List Message}

/-- What `g` reads off all that the player has and is being sent, and `go` off what waits to be sent, is
what `go` reads off what the room has given out. Here `g` does not read pings, and sees no more
than `v`. -/
theorem got_sent {γ : Type} (h : Conserved v room out r client) (g : Message → Option γ) (gv : β → Option γ)
    (go : Outgoing → Option γ) (hg : ∀ m, g m = gv (v m)) (hping : ∀ p, g (.ping p) = none)
    (hgo : ∀ msg, ((Post.room msg).message room.inputs).toOption.bind g = go msg) :
    client.got.filterMap g ++ (out.filterMap Post.room?).filterMap go = (sentTo r room.sent).filterMap go := by
  obtain ⟨done, hdone, hview⟩ := h.given
  rw [← hdone, List.filterMap_append]
  refine congrArg (· ++ _) ?_
  have hread := congrArg (List.filterMap fun x => x.toOption.bind gv) hview
  rw [List.filterMap_map, List.filterMap_map, List.filterMap_filter] at hread
  refine Eq.trans (List.filterMap_congr fun m _ => ?_) (hread.trans (List.filterMap_congr fun msg _ => ?_))
  · cases m with
    | ping p => exact hping p
    | _ => exact hg _
  · rw [← hgo]
    show (((Post.room msg).message room.inputs).map v).toOption.bind gv = _
    cases (Post.room msg).message room.inputs with
    | error f => rfl
    | ok m => exact (hg m).symm

/-- A message of the room is no ping. -/
theorem ping?_of_room {inputs : List ControlMessage} {msg : Outgoing} {m : Message}
    (h : (Post.room msg).message inputs = .ok m) : m.ping? = none := by
  cases msg with
  | control input =>
    simp only [Post.message] at h
    split at h <;> cases h
    rfl
  | gameStart m => cases h; rfl
  | enterRoom m => cases h; rfl

/-- The game of the player calls. -/
theorem call (h : Conserved v room out r ⟨app, up, down⟩) {call : GameCall} {msg : Option Message}
    (hc : app.call call = .ok (msg, app')) : Conserved v room out r ⟨app', up ++ msg.toList, down⟩ := by
  obtain ⟨hsends, hsent, hconstructed, hsame⟩ := ClientApp.call_sends h.constructed hc
  have hrole : app.roleId = r := h.role
  have hgot : (⟨app', up ++ msg.toList, down⟩ : MailClient).got = (⟨app, up, down⟩ : MailClient).got := by
    rw [got, got, ClientApp.call_received hc]
  refine ⟨hsame.roleId.trans h.role, hconstructed, fun m hm => ?_, h.echoes, ?_, ?_, ?_, ?_⟩
  · rcases List.mem_append.mp hm with hm | hm
    · exact h.own m hm
    · rw [← hrole]
      exact hsends m (Option.mem_toList.mp hm)
  · simp only [hsent, List.filterMap_append, List.map_append]
    rw [← List.append_assoc, h.inputs]
  · simp only [hsent, List.filterMap_append, List.map_append]
    rw [← List.append_assoc, h.answers]
  · simp only [hsent, List.filterMap_append, hgot]
    rw [← h.pings]
    simp only [List.append_assoc]
  · rw [hgot]
    exact h.given

/-- **Messages of the player are served**, and posts given out for it. -/
theorem serve (served : List Message) (h : Conserved v room out r ⟨app, served ++ up, down⟩)
    {posts : List Post} {new : List (RoleId × Outgoing)} (hsent : room'.sent = room.sent ++ new)
    (hsame : SameSent v room room') (hroom : posts.filterMap Post.room? = sentTo r new)
    (hping : posts.filterMap Post.ping? = served.filterMap Message.ping?)
    (hechoes : ∀ m, .echo m ∈ posts → m.ping?.isSome)
    (hinputs : inputsFrom r room' =
      inputsFrom r room ++ (served.filterMap Message.control?).map (·.withoutTick))
    (hanswers : (sentTo r room'.sent).filterMap Outgoing.enterRoom? =
      (sentTo r room.sent).filterMap Outgoing.enterRoom? ++
        (served.filterMap Message.enterRoom?).map (·.answered)) :
    Conserved v room' (out ++ posts) r ⟨app, up, down⟩ := by
  obtain ⟨done, hdone, hview⟩ := h.given
  refine ⟨h.role, h.constructed, fun m hm => h.own m (List.mem_append_right _ hm), fun m hm => ?_, ?_, ?_, ?_,
    done, ?_, ?_⟩
  · exact (List.mem_append.mp hm).elim (h.echoes m) (hechoes m)
  · have hold := h.inputs
    simp only [List.filterMap_append, List.map_append] at hold
    rw [hinputs, List.append_assoc]
    exact hold
  · have hold := h.answers
    simp only [List.filterMap_append, List.map_append] at hold
    rw [hanswers, List.append_assoc]
    exact hold
  · have hold := h.pings
    simp only [List.filterMap_append] at hold
    rw [List.filterMap_append, hping, List.append_assoc]
    exact hold
  · rw [List.filterMap_append, hroom, ← List.append_assoc, hdone, hsent, sentTo_append]
  · rw [show (⟨app, up, down⟩ : MailClient).got = (⟨app, served ++ up, down⟩ : MailClient).got from rfl, hview]
    refine List.map_congr_left fun msg hmsg => ?_
    have hmem : msg ∈ sentTo r room.sent := hdone ▸ List.mem_append_left _ hmsg
    obtain ⟨x, hx, rfl⟩ := List.mem_map.mp hmem
    exact (hsame x (List.mem_of_mem_filter hx)).symm

/-- **The next post for the player is sent.** -/
theorem send {post : Post} (h : Conserved v room (post :: out) r ⟨app, up, down⟩) {m : Message}
    (hm : post.message room.inputs = .ok m) : Conserved v room out r ⟨app, up, down ++ [m]⟩ := by
  obtain ⟨done, hdone, hview⟩ := h.given
  have hgot : (⟨app, up, down ++ [m]⟩ : MailClient).got = (⟨app, up, down⟩ : MailClient).got ++ [m] :=
    (List.append_assoc ..).symm
  have hpings := h.pings
  refine ⟨h.role, h.constructed, h.own, fun m hm => h.echoes m (List.mem_cons_of_mem _ hm), h.inputs, h.answers,
    ?_, ?_⟩
  · rw [hgot, List.filterMap_append, ← hpings, List.append_assoc]
    congr 1
    cases post with
    | echo m' =>
      cases hm
      have hecho := h.echoes m List.mem_cons_self
      obtain ⟨p, hp⟩ := Option.isSome_iff_exists.mp hecho
      simp [Post.ping?, hp]
    | room msg =>
      have hskip : (Post.room msg :: out).filterMap Post.ping? = out.filterMap Post.ping? := rfl
      simp [hskip, ping?_of_room hm]
  · cases post with
    | echo m' =>
      cases hm
      have hecho : m.ping?.isNone = false := Option.not_isSome _ ▸ by simp [h.echoes m List.mem_cons_self]
      refine ⟨done, hdone, ?_⟩
      rw [hgot, List.filter_append, List.filter_cons, hecho]
      simpa using hview
    | room msg =>
      refine ⟨done ++ [msg], ?_, ?_⟩
      · rw [List.append_assoc]
        exact hdone
      · rw [hgot, List.filter_append, List.map_append, hview, List.map_append, List.filter_cons,
          ping?_of_room hm]
        simp only [List.map_cons, List.map_nil, hm]
        rfl

/-- **The player receives the next message.** -/
theorem receive {m : Message} {now : BitVec 64} (h : Conserved v room out r ⟨app, up, m :: down⟩)
    (hd : app.dispatch ⟨m.base.roleId, m⟩ now = .ok app') : Conserved v room out r ⟨app', up, down⟩ := by
  obtain ⟨hreceived, hsent, -, hping, hcontrol, hsame⟩ := ClientApp.dispatch_frame hd
  have hgot : (⟨app', up, down⟩ : MailClient).got = (⟨app, up, m :: down⟩ : MailClient).got := by
    rw [got, got, hreceived, List.map_append, List.append_assoc]
    rfl
  refine ⟨hsame.roleId.trans h.role, ⟨?_, ?_⟩, h.own, h.echoes, ?_, ?_, ?_, ?_⟩
  · rw [hping]
    exact h.constructed.ping
  · rw [hcontrol]
    exact h.constructed.control
  · rw [hsent]
    exact h.inputs
  · rw [hsent]
    exact h.answers
  · rw [hgot, hsent]
    exact h.pings
  · rw [hgot]
    exact h.given

end MailClient.Conserved

/-! ## The mail service -/

namespace Mail

/-- What every event keeps, where `v` does not see what `Update` writes. -/
structure Inv {β : Type} (v : Message → β) (s : Mail) : Prop where
  room : RoomOk (fun r => (s.clients r).isSome) s.room
  sent : GoodPosts (fun r => (s.clients r).isSome) s.room.room.inputs s.room.room.sent
  others : ∀ r, s.clients r = none → s.out r = [] ∧ inputsFrom r s.room.room = []
  clients : ∀ r client, s.clients r = some client → client.Conserved v s.room.room (s.out r) r

section Steps

variable {β : Type} {v : Message → β} {s t : Mail} {r : RoleId}

theorem inv_new (v : Message → β) : Inv v new :=
  ⟨⟨RoomThreads.inputsInOrder_new, nofun, nofun, nofun⟩, nofun, fun _ _ => ⟨rfl, rfl⟩, fun _ _ h => (by cases h)⟩

theorem postsFor_postsOf (r : RoleId) (sent : List (RoleId × Outgoing)) :
    postsFor r (postsOf sent) = (sentTo r sent).map .room := by
  unfold postsFor postsOf sentTo
  rw [List.filter_map, List.map_map, List.map_map]
  rfl

/-- Nothing is given out for a role that is no player's. -/
theorem sentTo_eq_nil {reaches : RoleId → Prop} {inputs : List ControlMessage}
    {sent : List (RoleId × Outgoing)} (h : GoodPosts reaches inputs sent) (hr : ¬ reaches r) :
    sentTo r sent = [] := by
  rw [sentTo, List.map_eq_nil_iff, List.filter_eq_nil_iff]
  intro x hx heq
  obtain rfl : x.1 = r := of_decide_eq_true heq
  exact hr (h x hx).1

/-- One player changes, and nothing else. -/
theorem Inv.setClient (h : s.Inv v) {client client' : MailClient} (hr : s.clients r = some client)
    (hout : ∀ r', r' ≠ r → t.out r' = s.out r') (hroom : t.room = s.room)
    (hclients : t.clients = Function.update s.clients r (some client'))
    (hclient : client'.Conserved v s.room.room (t.out r) r) : t.Inv v := by
  have hsome : ∀ r', (t.clients r').isSome = (s.clients r').isSome := by
    intro r'
    rw [hclients]
    by_cases heq : r' = r
    · rw [heq, Function.update_self, hr]
      rfl
    · rw [Function.update_of_ne heq]
  refine ⟨?_, ?_, fun r' hr' => ?_, fun r' other hother => ?_⟩
  · rw [hroom]
    simp only [hsome]
    exact h.room
  · rw [hroom]
    simp only [hsome]
    exact h.sent
  · have hnone : s.clients r' = none := by
      rw [← Option.not_isSome_iff_eq_none, ← hsome, hr']
      nofun
    have hne : r' ≠ r := fun heq => by
      rw [heq, hr] at hnone
      cases hnone
    rw [hout r' hne, hroom]
    exact h.others r' hnone
  · rw [hroom]
    by_cases heq : r' = r
    · subst heq
      rw [hclients, Function.update_self] at hother
      cases hother
      exact hclient
    · rw [hclients, Function.update_of_ne heq] at hother
      rw [hout r' heq]
      exact h.clients r' other hother

/-- **A function of the room**, for messages that have just been served. -/
theorem Inv.onRoom (h : s.Inv v) (s' : Mail) (served : RoleId → List Message) {e : RoomEvent}
    (hroom : s'.room = s.room) (hout : s'.out = s.out) (he : e.Served fun r => (s.clients r).isSome)
    (hclients : ∀ r, (s'.clients r = none ∧ s.clients r = none ∧ served r = []) ∨
      ∃ app up down, s'.clients r = some ⟨app, up, down⟩ ∧ s.clients r = some ⟨app, served r ++ up, down⟩)
    (hping : ∀ r, (served r).filterMap Message.ping? = [])
    (hinput : ∀ r, (e.input? r).toList = (served r).filterMap Message.control?)
    (hanswer : ∀ r, (e.answer? r).toList = ((served r).filterMap Message.enterRoom?).map (·.answered))
    (ht : s'.onRoom e = .ok t) (hsame : SameSent v s.room.room t.room.room) : t.Inv v := by
  obtain ⟨room, new, hstep, hroom', hsent, hgood, hlen⟩ := h.room.step he
  have hnew : room.room.sent.drop s'.room.room.sent.length = new := by
    rw [hroom, hsent, List.drop_left]
  obtain rfl : t = { s' with room := room }.give (postsOf new) := by
    unfold Mail.onRoom at ht
    rw [hroom, hstep] at ht
    rw [← hnew, hroom]
    exact (Except.ok.inj ht).symm
  have hsome : ∀ r, (s'.clients r).isSome = (s.clients r).isSome := by
    intro r
    rcases hclients r with ⟨hr, hr', -⟩ | ⟨app, up, down, hr, hr'⟩ <;>
      simp [hr, hr']
  have hinputs := fun r => inputsFrom_step r hstep
  refine ⟨?_, fun x hx => ?_, fun r hr => ?_, fun r client hr => ?_⟩
  · show RoomOk (fun r => (s'.clients r).isSome) room
    simp only [hsome]
    exact hroom'
  · show (s'.clients x.1).isSome ∧ _
    rw [hsome]
    have hx' : x ∈ s.room.room.sent ++ new := hsent ▸ hx
    rcases List.mem_append.mp hx' with hx | hx
    · exact ⟨(h.sent x hx).1, good_of_inputs hlen hroom'.inputs (h.sent x hx).2⟩
    · exact hgood x hx
  · have hr' : s'.clients r = none := hr
    obtain ⟨-, hnone, hserved⟩ | ⟨app, up, down, hsome', -⟩ := hclients r
    swap
    · rw [hr'] at hsome'
      cases hsome'
    obtain ⟨hout', hinputs'⟩ := h.others r hnone
    constructor
    · show s'.out r ++ postsFor r (postsOf new) = []
      rw [hout, hout', postsFor_postsOf, sentTo_eq_nil hgood (by rw [hnone]; nofun)]
      rfl
    · show inputsFrom r room.room = []
      rw [hinputs, hinputs', hinput, hserved]
      rfl
  · have hr' : s'.clients r = some client := hr
    obtain ⟨hnone, -⟩ | ⟨app, up, down, hsome', hold⟩ := hclients r
    · rw [hnone] at hr'
      cases hr'
    cases hsome'.symm.trans hr'
    show MailClient.Conserved v room.room (s'.out r ++ postsFor r (postsOf new)) r ⟨app, up, down⟩
    rw [hout, postsFor_postsOf]
    have hjoin : ∀ msg now, e ≠ .join msg now := by
      rintro msg now rfl
      exact he
    refine MailClient.Conserved.serve (served r) (h.clients r _ hold) hsent hsame ?_ ?_ (fun m hm => ?_) ?_ ?_
    · rw [List.filterMap_map]
      exact List.filterMap_some
    · rw [hping, List.filterMap_map]
      exact List.filterMap_eq_nil_iff.mpr fun _ _ => rfl
    · obtain ⟨x, -, hx⟩ := List.mem_map.mp hm
      cases hx
    · rw [hinputs, hinput]
    · rw [answers_step r hjoin hstep, hanswer]

/-- **A player connects.** -/
theorem Inv.connect (h : s.Inv v) (hr : s.clients r = none) {app : ClientApp} (happ : ClientApp.new r = .ok app) :
    (s.setClient r ⟨app.idle, [], []⟩).Inv v := by
  have hself : (s.setClient r ⟨app.idle, [], []⟩).clients r = some ⟨app.idle, [], []⟩ :=
    Function.update_self ..
  have hother : ∀ r', r' ≠ r → (s.setClient r ⟨app.idle, [], []⟩).clients r' = s.clients r' := fun r' hne =>
    Function.update_of_ne hne ..
  have hmono : ∀ r', (s.clients r').isSome → ((s.setClient r ⟨app.idle, [], []⟩).clients r').isSome := by
    intro r' hr'
    by_cases heq : r' = r
    · rw [heq, hself]
      rfl
    · rw [hother r' heq]
      exact hr'
  obtain ⟨hout, hinputs⟩ := h.others r hr
  have hsent : sentTo r s.room.room.sent = [] := sentTo_eq_nil h.sent (by rw [hr]; nofun)
  refine ⟨h.room.mono hmono, fun x hx => ⟨hmono _ (h.sent x hx).1, (h.sent x hx).2⟩, fun r' hr' => ?_,
    fun r' client hr' => ?_⟩
  · by_cases heq : r' = r
    · rw [heq]
      exact ⟨hout, hinputs⟩
    · rw [hother r' heq] at hr'
      exact h.others r' hr'
  · by_cases heq : r' = r
    · subst heq
      cases hself.symm.trans hr'
      cases happ
      show MailClient.Conserved v s.room.room (s.out r') r' _
      rw [hout]
      refine ⟨rfl, ⟨nofun, ⟨rfl, rfl⟩, fun _ => rfl⟩, nofun, nofun, ?_, ?_, rfl, [], ?_, rfl⟩
      · rw [hinputs]
        rfl
      · rw [hsent]
        rfl
      · rw [hsent]
        rfl
    · rw [hother r' heq] at hr'
      exact h.clients r' client hr'

/-- **The server serves the next message of a player.** -/
theorem Inv.serve (h : s.Inv v) {app : ClientApp} {m : Message} {up down : List Message} {now : BitVec 64}
    (hr : s.clients r = some ⟨app, m :: up, down⟩)
    (ht : (s.setClient r ⟨app, up, down⟩).handle r now m = .ok t)
    (hsame : SameSent v s.room.room t.room.room) : t.Inv v := by
  have hclient := h.clients r _ hr
  obtain ⟨hm, hrole⟩ := hclient.own m List.mem_cons_self
  let served : RoleId → List Message := fun r' => if r' = r then [m] else []
  have hserved : ∀ r', ((s.setClient r ⟨app, up, down⟩).clients r' = none ∧ s.clients r' = none ∧ served r' = []) ∨
      ∃ app' up' down', (s.setClient r ⟨app, up, down⟩).clients r' = some ⟨app', up', down'⟩ ∧
        s.clients r' = some ⟨app', served r' ++ up', down'⟩ := by
    intro r'
    by_cases heq : r' = r
    · subst heq
      refine .inr ⟨app, up, down, Function.update_self .., ?_⟩
      rw [hr, show served r' = [m] from if_pos rfl]
      rfl
    · have hsame : (s.setClient r ⟨app, up, down⟩).clients r' = s.clients r' := Function.update_of_ne heq ..
      rw [hsame, show served r' = [] from if_neg heq]
      cases hc : s.clients r' with
      | none => exact .inl ⟨rfl, rfl, rfl⟩
      | some client => exact .inr ⟨_, _, _, rfl, rfl⟩
  cases m with
  | plain m => exact hm.constructed.elim
  | ping m =>
    cases ht
    refine h.setClient hr (fun r' hne => ?_) rfl rfl ?_
    · show s.out r' ++ postsFor r' [(r, .echo (.ping m))] = s.out r'
      simp [postsFor, Ne.symm hne]
    · show MailClient.Conserved v s.room.room (s.out r ++ postsFor r [(r, .echo (.ping m))]) r _
      have hposts : postsFor r [(r, .echo (.ping m))] = [.echo (.ping m)] := by
        simp [postsFor]
      rw [hposts]
      refine MailClient.Conserved.serve [.ping m] hclient (List.append_nil _).symm hsame rfl rfl ?_
        (List.append_nil _).symm (List.append_nil _).symm
      intro m' hm'
      cases List.mem_singleton.mp hm'
      rfl
  | control m =>
    have hrole' : m.roleId = r := hrole
    refine h.onRoom (s.setClient r ⟨app, up, down⟩) served (e := .control m) rfl rfl hm hserved
      (fun r' => ?_) (fun r' => ?_) (fun r' => ?_) ht hsame
    · by_cases heq : r' = r <;> simp [served, heq, Message.ping?]
    · by_cases heq : r' = r
      · simp [served, heq, Message.control?, RoomEvent.input?, hrole']
      · simp [served, heq, RoomEvent.input?, hrole', Ne.symm heq]
    · by_cases heq : r' = r <;> simp [served, heq, Message.enterRoom?, RoomEvent.answer?]
  | enterRoom m =>
    have hsome : (s.clients r).isSome := by
      rw [hr]
      rfl
    refine h.onRoom (s.setClient r ⟨app, up, down⟩) served (e := .enterRoom r m now) rfl rfl ⟨hsome, hm⟩ hserved
      (fun r' => ?_) (fun r' => ?_) (fun r' => ?_) ht hsame
    · by_cases heq : r' = r <;> simp [served, heq, Message.ping?]
    · by_cases heq : r' = r <;> simp [served, heq, Message.control?, RoomEvent.input?]
    · by_cases heq : r' = r
      · simp [served, heq, Message.enterRoom?, RoomEvent.answer?]
      · simp [served, heq, RoomEvent.answer?, Ne.symm heq]
  | gameStart m =>
    cases ht
    refine h.setClient hr (fun _ _ => rfl) rfl rfl ?_
    show MailClient.Conserved v s.room.room (s.out r) r _
    rw [← List.append_nil (s.out r)]
    exact MailClient.Conserved.serve [.gameStart m] hclient (List.append_nil _).symm hsame rfl rfl
      (fun _ hx => (by cases hx)) (List.append_nil _).symm (List.append_nil _).symm

/-- **One event** keeps it. -/
theorem inv_step (h : s.Inv v) {e : MailEvent} (ht : s.step e = .ok t)
    (hsame : SameSent v s.room.room t.room.room) : t.Inv v := by
  cases e with
  | connect roleId =>
    simp only [step] at ht
    split at ht
    · cases ht
      exact h
    · next hnone =>
      obtain ⟨app, happ, hret⟩ := bind_eq_ok.mp ht
      cases hret
      exact h.connect hnone happ
  | call roleId call =>
    simp only [step] at ht
    split at ht
    · cases ht
      exact h
    · next client hclient =>
      obtain ⟨⟨msg, app⟩, hcall, hret⟩ := bind_eq_ok.mp ht
      cases hret
      exact h.setClient hclient (fun _ _ => rfl) rfl rfl ((h.clients roleId _ hclient).call hcall)
  | serve roleId now =>
    simp only [step] at ht
    split at ht
    · next app m up down hclient => exact h.serve hclient ht hsame
    · cases ht
      exact h
  | main =>
    refine h.onRoom s (fun _ => []) (e := .main) rfl rfl trivial (fun r => ?_) (fun _ => rfl) (fun _ => rfl)
      (fun _ => rfl) ht hsame
    cases s.clients r with
    | none => exact .inl ⟨rfl, rfl, rfl⟩
    | some client => exact .inr ⟨_, _, _, rfl, rfl⟩
  | send roleId =>
    simp only [step] at ht
    split at ht
    · next post out client hout hclient =>
      obtain ⟨msg, hmsg, hret⟩ := bind_eq_ok.mp ht
      cases hret
      refine h.setClient hclient (fun r' hne => Function.update_of_ne hne ..) rfl rfl ?_
      have hold := h.clients roleId _ hclient
      rw [hout] at hold
      show MailClient.Conserved v s.room.room (Function.update s.out roleId out roleId) roleId _
      rw [Function.update_self]
      exact hold.send hmsg
    · cases ht
      exact h
  | receive roleId now =>
    simp only [step] at ht
    split at ht
    · next app up m down hclient =>
      obtain ⟨app', hdispatch, hret⟩ := bind_eq_ok.mp ht
      cases hret
      exact h.setClient hclient (fun _ _ => rfl) rfl rfl ((h.clients roleId _ hclient).receive hdispatch)
    · cases ht
      exact h

/-- **What an event does to the room.** -/
theorem room_step (h : s.Inv v) {e : MailEvent} (ht : s.step e = .ok t) :
    t.room = s.room ∨ ∃ e', e'.Served (fun r => (s.clients r).isSome) ∧
      RoomThreads.step s.room e' = .ok t.room ∧ (s.BetweenUpdates e → s.room.BetweenUpdates e') := by
  have hroom : ∀ {b c : Mail} {e' : RoomEvent}, b.onRoom e' = .ok c →
      RoomThreads.step b.room e' = .ok c.room := by
    intro b c e' hon
    obtain ⟨room, hstep, hret⟩ := bind_eq_ok.mp hon
    cases hret
    exact hstep
  cases e with
  | connect roleId =>
    simp only [step] at ht
    split at ht
    · cases ht
      exact .inl rfl
    · obtain ⟨app, -, hret⟩ := bind_eq_ok.mp ht
      cases hret
      exact .inl rfl
  | call roleId call =>
    simp only [step] at ht
    split at ht
    · cases ht
      exact .inl rfl
    · obtain ⟨⟨msg, app⟩, -, hret⟩ := bind_eq_ok.mp ht
      cases hret
      exact .inl rfl
  | serve roleId now =>
    simp only [step] at ht
    split at ht
    swap
    · cases ht
      exact .inl rfl
    next app m up down hclient =>
    obtain ⟨hm, -⟩ := (h.clients roleId _ hclient).own m List.mem_cons_self
    cases m with
    | plain m => exact hm.constructed.elim
    | ping m =>
      cases ht
      exact .inl rfl
    | control m => exact .inr ⟨.control m, hm, hroom (b := s.setClient roleId ⟨app, up, down⟩) ht, fun _ => trivial⟩
    | enterRoom m =>
      have hsome : (s.clients roleId).isSome := by
        rw [hclient]
        rfl
      exact .inr ⟨.enterRoom roleId m now, ⟨hsome, hm⟩, hroom (b := s.setClient roleId ⟨app, up, down⟩) ht,
        fun hb => hb _ hclient _ rfl rfl⟩
    | gameStart m =>
      cases ht
      exact .inl rfl
  | main => exact .inr ⟨.main, trivial, hroom ht, fun _ => trivial⟩
  | send roleId =>
    simp only [step] at ht
    split at ht
    · obtain ⟨msg, -, hret⟩ := bind_eq_ok.mp ht
      cases hret
      exact .inl rfl
    · cases ht
      exact .inl rfl
  | receive roleId now =>
    simp only [step] at ht
    split at ht
    · obtain ⟨app', -, hret⟩ := bind_eq_ok.mp ht
      cases hret
      exact .inl rfl
    · cases ht
      exact .inl rfl

end Steps

/-! ## Runs -/

section Runs

variable {s t : Mail}

/-- **But for their ticks**, objects that have been sent stay as they are. -/
theorem sameSent_withoutTick {reaches : RoleId → Prop} {room room' : GameServerExample} {new : List ControlMessage}
    (hgood : GoodPosts reaches room.inputs room.sent)
    (hinputs : room'.inputs.map (·.withoutTick) = room.inputs.map (·.withoutTick) ++ new) :
    SameSent Message.withoutTick room room' := by
  intro x hx
  obtain ⟨-, m, hm, -⟩ := hgood x hx
  cases hmsg : x.2 with
  | gameStart m => rfl
  | enterRoom m => rfl
  | control input =>
    rw [hmsg] at hm
    have hlt : input < room.inputs.length := by
      by_contra hge
      rw [Post.message, List.getElem?_eq_none (Nat.le_of_not_lt hge)] at hm
      cases hm
    have hsame : (room'.inputs[input]?).map (·.withoutTick) = (room.inputs[input]?).map (·.withoutTick) := by
      rw [← List.getElem?_map, ← List.getElem?_map, hinputs, List.getElem?_append_left]
      rwa [List.length_map]
    rw [List.getElem?_eq_getElem hlt] at hsame
    obtain ⟨m', hm', heq⟩ := Option.map_eq_some_iff.mp hsame
    unfold Post.message
    simp only [hm', List.getElem?_eq_getElem hlt]
    exact congrArg (fun c => Except.ok (Message.control c)) heq

theorem inv_step_withoutTick (h : s.Inv Message.withoutTick) {e : MailEvent} (ht : s.step e = .ok t) :
    t.Inv Message.withoutTick := by
  refine inv_step h ht ?_
  rcases room_step h ht with hroom | ⟨e', -, hstep, -⟩
  · rw [hroom]
    exact fun _ _ => rfl
  · exact sameSent_withoutTick h.sent (RoomThreads.inputs_step hstep)

/-- A role is in the room once for each answer that it has been given. -/
def Members (s : Mail) : Prop :=
  ∀ r, s.room.room.roleIds.count r = ((sentTo r s.room.room.sent).filterMap Outgoing.enterRoom?).length

theorem members_step (h : s.Inv Message.withoutTick) (hmembers : s.Members) {e : MailEvent} (ht : s.step e = .ok t) :
    t.Members := by
  intro r
  rcases room_step h ht with hroom | ⟨e', he', hstep, -⟩
  · rw [hroom]
    exact hmembers r
  · rw [answers_step r (fun msg now heq => by subst heq; exact he') hstep, List.length_append, ← hmembers r]
    generalize t.room = room at hstep
    cases e' with
    | control msg =>
      cases hstep
      rfl
    | main =>
      obtain ⟨new, -, -, hroles⟩ := h.room.sent_main
      cases hstep
      rw [hroles]
      rfl
    | enterRoom roleId msg now =>
      cases hstep
      rw [GameServerExample.enterRoom_eq, List.count_append, List.count_singleton]
      unfold RoomEvent.answer?
      by_cases heq : roleId = r <;> simp [heq]
    | onRoleDisconnect roleId => exact he'.elim
    | join msg now => exact he'.elim

/-- **In every run**, whatever the order of its events. -/
theorem inv_run {events : List MailEvent} (ht : run step new events = .ok t) :
    t.Inv Message.withoutTick ∧ t.Members :=
  run_invariant (I := fun s => s.Inv Message.withoutTick ∧ s.Members) (G := fun _ _ => True)
    (fun _ _ _ h _ ht => ⟨inv_step_withoutTick h.1 ht, members_step h.1 h.2 ht⟩)
    ⟨inv_new _, fun _ => rfl⟩ (fun _ _ _ _ _ => trivial) ht

end Runs

end Mail

end GameNetwork
