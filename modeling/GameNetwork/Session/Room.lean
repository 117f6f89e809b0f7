import GameNetwork.GameServer.Lockstep
import GameNetwork.Session.Mail

/-!
# What the room gives out

What a function of the room sends can always be sent, now and later: its
object is there and regular, and its role is one that the table
of the roles reaches (`RoomOk.step`). `Given` says that what the room has given
out waits in the send dispatcher, role by role in the order of the calls;
`Given.onRoom` and `Given.push` that giving out more keeps this.
-/

namespace GameNetwork

open Lib

/-! ## The room -/

namespace RoomThreads

/-- `Update` sends what it has recorded. -/
def UnsentRecorded (s : RoomThreads) : Prop := ∀ input ∈ s.unsent, input ∈ s.room.recorded

theorem unsentRecorded_step {s t : RoomThreads} {e : RoomEvent} (h : s.UnsentRecorded)
    (ht : step s e = .ok t) : t.UnsentRecorded := by
  obtain ⟨msg, rfl, rfl⟩ | ⟨rfl, rfl⟩ | ⟨-, -, hsame⟩ := step_cases ht
  · exact h
  · unfold UnsentRecorded at h ⊢
    cases hpc : s.main with
    | outside =>
      simp only [stepMain, hpc]
      exact fun _ hi => (by cases hi)
    | swap =>
      simp only [stepMain, hpc]
      exact fun _ hi => (by cases hi)
    | record =>
      simp only [stepMain, hpc]
      intro input hi
      rw [GameServerExample.recorded_recordFrame]
      exact List.mem_append_right _ hi
    | loop todo =>
      simp only [unsent, hpc] at h
      cases todo with
      | nil =>
        simp only [stepMain, hpc]
        exact fun _ hi => (by cases hi)
      | cons input todo => simp only [stepMain, hpc]; exact h
    | send input todo =>
      simp only [unsent, hpc] at h
      simp only [stepMain, hpc, broadcast, GameServerExample.broadcast,
        GameServerExample.sendMessageByRoleIds_eq]
      exact fun i hi => h i (List.mem_cons_of_mem _ hi)
  · intro input hi
    rw [hsame.recorded]
    rw [hsame.unsent] at hi
    exact h input hi

end RoomThreads

/-- The object of a post is there, and regular. -/
def Post.Good (inputs : List ControlMessage) (post : Post) : Prop :=
  ∃ m, post.message inputs = .ok m ∧ m.Regular

section Room

variable {reaches : RoleId → Prop} {s t : RoomThreads} {e : RoomEvent}

/-- The events of the room in a game, each with what its handler relies on. -/
def RoomEvent.Served (reaches : RoleId → Prop) : RoomEvent → Prop
  | .control msg => (Message.control msg).Regular
  | .enterRoom roleId msg _ => reaches roleId ∧ (Message.enterRoom msg).Regular
  | .main => True
  | _ => False

/-- The room as the network relies on it. -/
structure RoomOk (reaches : RoleId → Prop) (s : RoomThreads) : Prop where
  order : s.InputsInOrder
  unsent : s.UnsentRecorded
  inputs : ∀ m ∈ s.room.inputs, (Message.control m).Regular
  members : ∀ r ∈ s.room.roleIds, reaches r

theorem RoomOk.mono (h : RoomOk reaches s) {reaches' : RoleId → Prop} (hmono : ∀ r, reaches r → reaches' r) :
    RoomOk reaches' s :=
  ⟨h.order, h.unsent, h.inputs, fun r hr => hmono r (h.members r hr)⟩

theorem RoomOk.good_input (h : RoomOk reaches s) {input : InputRef} (hi : input ∈ s.room.recorded) :
    (Post.room (.control input)).Good s.room.inputs := by
  have hlt := h.order.lt hi
  refine ⟨.control s.room.inputs[input], ?_, h.inputs _ (List.getElem_mem hlt)⟩
  unfold Post.message
  simp only [List.getElem?_eq_getElem hlt]
  rfl

theorem good_gameStart (inputs : List ControlMessage) (now : BitVec 64) :
    (Post.room (GameServerExample.gameStartAt now)).Good inputs := ⟨_, rfl, ⟨rfl, rfl⟩, fun _ => rfl⟩

theorem regular_withoutTick {m : ControlMessage} :
    (Message.control m.withoutTick).Regular ↔ (Message.control m).Regular :=
  ⟨fun h => ⟨h.constructed, h.async⟩, fun h => ⟨h.constructed, h.async⟩⟩

/-- The inputs that are there stay there, but for their ticks. -/
theorem RoomOk.inputs_step (h : RoomOk reaches s) (he : e.Served reaches) (ht : RoomThreads.step s e = .ok t) :
    (∀ m ∈ t.room.inputs, (Message.control m).Regular) ∧
      s.room.inputs.length ≤ t.room.inputs.length := by
  have hinputs := RoomThreads.inputs_step ht
  have hlen := congrArg List.length hinputs
  rw [List.length_append, List.length_map, List.length_map] at hlen
  refine ⟨fun m hm => ?_, by omega⟩
  have hmem : m.withoutTick ∈ t.room.inputs.map (·.withoutTick) := List.mem_map_of_mem hm
  rw [hinputs] at hmem
  refine regular_withoutTick.mp ?_
  rcases List.mem_append.mp hmem with hold | hnew
  · obtain ⟨m', hm', heq⟩ := List.mem_map.mp hold
    rw [← heq]
    exact regular_withoutTick.mpr (h.inputs m' hm')
  · obtain ⟨m', hm', heq⟩ := List.mem_map.mp hnew
    rw [← heq]
    cases e with
    | control msg =>
      obtain rfl := List.mem_singleton.mp hm'
      exact regular_withoutTick.mpr he
    | _ => cases hm'

/-- A post that is good stays good. -/
theorem good_of_inputs {inputs inputs' : List ControlMessage} (hlen : inputs.length ≤ inputs'.length)
    (hinputs : ∀ m ∈ inputs', (Message.control m).Regular) {post : Post} (h : post.Good inputs) :
    post.Good inputs' := by
  obtain ⟨m, hm, hc⟩ := h
  cases post with
  | echo msg => exact ⟨m, hm, hc⟩
  | room msg =>
    cases msg with
    | gameStart m => exact ⟨_, hm, hc⟩
    | enterRoom m => exact ⟨_, hm, hc⟩
    | control input =>
      have hlt : input < inputs.length := by
        by_contra hge
        rw [Post.message, List.getElem?_eq_none (Nat.le_of_not_lt hge)] at hm
        cases hm
      have hlt' := Nat.lt_of_lt_of_le hlt hlen
      refine ⟨.control (inputs'.get ⟨input, hlt'⟩), ?_, hinputs _ (List.get_mem _ _)⟩
      unfold Post.message
      simp only [List.getElem?_eq_getElem hlt']
      rfl

/-- What is given out: to whom, and what. -/
def GoodPosts (reaches : RoleId → Prop) (inputs : List ControlMessage) (sent : List (RoleId × Outgoing)) :
    Prop :=
  ∀ x ∈ sent, reaches x.1 ∧ (Post.room x.2).Good inputs

theorem goodPosts_append {inputs : List ControlMessage} {sent sent' : List (RoleId × Outgoing)}
    (h : GoodPosts reaches inputs sent) (h' : GoodPosts reaches inputs sent') :
    GoodPosts reaches inputs (sent ++ sent') := fun x hx =>
  (List.mem_append.mp hx).elim (h x) (h' x)

/-- The same for some roles. -/
theorem goodPosts_roles {inputs : List ControlMessage} {roleIds : List RoleId} {msg : Outgoing}
    (hroles : ∀ r ∈ roleIds, reaches r) (hmsg : (Post.room msg).Good inputs) :
    GoodPosts reaches inputs (roleIds.map (·, msg)) := by
  intro x hx
  obtain ⟨r, hr, rfl⟩ := List.mem_map.mp hx
  exact ⟨hroles r hr, hmsg⟩

theorem RoomOk.goodPosts_enterRoom (h : RoomOk reaches s) {roleId : RoleId} {msg : EnterRoomMessage}
    {now : BitVec 64} (hr : reaches roleId) (hm : (Message.enterRoom msg).Regular) :
    GoodPosts reaches s.room.inputs (s.room.enterRoomSends roleId msg now) := by
  have hanswer : GoodPosts reaches s.room.inputs [(roleId, .enterRoom { msg with result := 0 })] := by
    intro x hx
    obtain rfl := List.mem_singleton.mp hx
    exact ⟨hr, _, rfl, hm.constructed, nofun⟩
  refine goodPosts_append (goodPosts_append ?_ ?_) hanswer
  · split
    · refine goodPosts_roles (fun r hmem => ?_) (good_gameStart _ now)
      rcases List.mem_append.mp hmem with hmem | hmem
      · exact h.members r hmem
      · rwa [List.mem_singleton.mp hmem]
    · nofun
  · split
    · intro x hx
      rcases List.mem_cons.mp hx with rfl | hx
      · exact ⟨hr, good_gameStart _ now⟩
      · obtain ⟨input, hi, rfl⟩ := List.mem_map.mp hx
        exact ⟨hr, h.good_input hi⟩
    · nofun

/-- What a statement of `Update` gives out. -/
theorem RoomOk.sent_main (h : RoomOk reaches s) : ∃ new, s.stepMain.room.sent = s.room.sent ++ new ∧
    GoodPosts reaches s.room.inputs new ∧ s.stepMain.room.roleIds = s.room.roleIds := by
  have hunsent := h.unsent
  have hnone : GoodPosts reaches s.room.inputs [] := fun _ hx => (by cases hx)
  cases hpc : s.main with
  | outside => simp only [RoomThreads.stepMain, hpc]; exact ⟨[], (List.append_nil _).symm, hnone, rfl⟩
  | swap => simp only [RoomThreads.stepMain, hpc]; exact ⟨[], (List.append_nil _).symm, hnone, rfl⟩
  | record => simp only [RoomThreads.stepMain, hpc]; exact ⟨[], (List.append_nil _).symm, hnone, rfl⟩
  | loop todo =>
    cases todo <;> simp only [RoomThreads.stepMain, hpc] <;>
      exact ⟨[], (List.append_nil _).symm, hnone, rfl⟩
  | send input todo =>
    have hi : input ∈ s.room.recorded := hunsent input (by rw [RoomThreads.unsent, hpc]; exact List.mem_cons_self)
    simp only [RoomThreads.stepMain, hpc, RoomThreads.broadcast, GameServerExample.broadcast,
      GameServerExample.sendMessageByRoleIds_eq]
    exact ⟨_, rfl, goodPosts_roles h.members (h.good_input hi), trivial⟩

/-- **An event of the room**, and what it gives out. -/
theorem RoomOk.step (h : RoomOk reaches s) (he : e.Served reaches) :
    ∃ t new, RoomThreads.step s e = .ok t ∧ RoomOk reaches t ∧ t.room.sent = s.room.sent ++ new ∧
      GoodPosts reaches t.room.inputs new ∧ s.room.inputs.length ≤ t.room.inputs.length := by
  suffices hsent : ∃ t new, RoomThreads.step s e = .ok t ∧ t.room.sent = s.room.sent ++ new ∧
      GoodPosts reaches s.room.inputs new ∧ ∀ r ∈ t.room.roleIds, reaches r by
    obtain ⟨t, new, ht, hsent, hgood, hmembers⟩ := hsent
    obtain ⟨hinputs, hlen⟩ := h.inputs_step he ht
    refine ⟨t, new, ht, ⟨RoomThreads.inputsInOrder_step h.order ht,
      RoomThreads.unsentRecorded_step h.unsent ht, hinputs, hmembers⟩, hsent, ?_, hlen⟩
    exact fun x hx => ⟨(hgood x hx).1, good_of_inputs hlen hinputs (hgood x hx).2⟩
  cases e with
  | control msg => exact ⟨_, [], rfl, (List.append_nil _).symm, nofun, h.members⟩
  | main =>
    obtain ⟨new, hsent, hgood, hroles⟩ := h.sent_main
    exact ⟨_, new, rfl, hsent, hgood, by rw [hroles]; exact h.members⟩
  | enterRoom roleId msg now =>
    refine ⟨_, s.room.enterRoomSends roleId msg now, rfl, ?_, h.goodPosts_enterRoom he.1 he.2, ?_⟩
    · rw [GameServerExample.enterRoom_eq]
    · rw [GameServerExample.enterRoom_eq]
      intro r hr
      rcases List.mem_append.mp hr with hr | hr
      · exact h.members r hr
      · rw [List.mem_singleton.mp hr]
        exact he.1
  | onRoleDisconnect roleId => exact he.elim
  | join msg now => exact he.elim

end Room

/-! ## The send dispatcher -/

/-- What is given out waits in the send dispatcher. -/
structure Given (room : RoomThreads) (d : TracedDispatcher Post) (out : RoleId → List Post)
    (reaches : RoleId → Prop) : Prop extends RoomOk reaches room where
  inv : d.Inv 10
  out_eq : ∀ r, out r = (d.waitingFor r).map (·.note)
  posts : ∀ x ∈ d.pushed, reaches x.msg.dispatchId ∧ x.note.Good room.room.inputs

section Given

variable {room : RoomThreads} {d : TracedDispatcher Post} {out : RoleId → List Post}
  {reaches : RoleId → Prop}

theorem Given.mono (h : Given room d out reaches) {reaches' : RoleId → Prop}
    (hmono : ∀ r, reaches r → reaches' r) : Given room d out reaches' where
  toRoomOk := h.toRoomOk.mono hmono
  inv := h.inv
  out_eq := h.out_eq
  posts x hx := ⟨hmono _ (h.posts x hx).1, (h.posts x hx).2⟩

/-- The type of a message has an entry in the table of callbacks. -/
theorem type_lt_of_asConstructed {m : Message} (hm : m.AsConstructed) :
    m.base.messageType.num < MessageType.typeMax.num := by
  cases m with
  | plain m => exact hm.elim
  | control m =>
    rw [show (Message.control m).base.messageType = _ from hm.2]
    decide
  | ping m =>
    rw [show (Message.ping m).base.messageType = _ from hm.2]
    decide
  | enterRoom m =>
    rw [show (Message.enterRoom m).base.messageType = _ from hm.2]
    decide
  | gameStart m =>
    rw [show (Message.gameStart m).base.messageType = _ from hm.2]
    decide

/-- **`SendMessageByRoleId`** puts a post behind those for its role. -/
theorem Given.push (h : Given room d out reaches) {r : RoleId} {p : Post} (hr : reaches r)
    {m : Message} (hpost : p.message room.room.inputs = .ok m) (hm : m.Regular) :
    ∃ d', d.push p r m = .ok d' ∧
      Given room d' (fun r' => out r' ++ Mail.postsFor r' [(r, p)]) reaches := by
  refine ⟨_, h.inv.push_eq p r m, h.toRoomOk, ?_, fun r' => ?_, fun x hx => ?_⟩
  · exact TracedDispatcher.inv_pushOf h.inv (type_lt_of_asConstructed hm.constructed)
  · rw [h.inv.waitingFor_pushOf, List.map_append, h.out_eq]
    congr 1
    by_cases hr' : r = r' <;> simp [Mail.postsFor, hr']
  · rcases List.mem_append.mp hx with hx | hx
    · exact h.posts x hx
    · obtain rfl := List.mem_singleton.mp hx
      exact ⟨hr, m, hpost, hm⟩

theorem postsFor_append (r : RoleId) (posts posts' : List (RoleId × Post)) :
    Mail.postsFor r (posts ++ posts') = Mail.postsFor r posts ++ Mail.postsFor r posts' := by
  rw [Mail.postsFor, List.filter_append, List.map_append]
  rfl

/-- Any number of posts, in order. -/
theorem Given.sendAll {s : Session} {posts : List (RoleId × Post)}
    (h : Given s.room s.sendMsgDispatcher out reaches)
    (hposts : ∀ x ∈ posts, reaches x.1 ∧ x.2.Good s.room.room.inputs) :
    ∃ d', s.sendAll posts = .ok { s with sendMsgDispatcher := d' } ∧
      Given s.room d' (fun r => out r ++ Mail.postsFor r posts) reaches := by
  induction posts generalizing s out with
  | nil =>
    refine ⟨s.sendMsgDispatcher, rfl, ?_⟩
    simpa [Mail.postsFor] using h
  | cons x posts ih =>
    obtain ⟨hr, m, hm, hc⟩ := hposts x List.mem_cons_self
    obtain ⟨d', hpush, hd'⟩ := h.push hr hm hc
    obtain ⟨d'', hall, hd''⟩ := ih (s := { s with sendMsgDispatcher := d' }) hd'
      fun y hy => hposts y (List.mem_cons_of_mem _ hy)
    refine ⟨d'', ?_, ?_⟩
    · have hsend : s.sendMessageByRoleId x.1 x.2 = .ok { s with sendMsgDispatcher := d' } := by
        unfold Session.sendMessageByRoleId
        rw [hm]
        show (s.sendMsgDispatcher.push x.2 x.1 m).bind _ = _
        rw [hpush]
        rfl
      show (s.sendMessageByRoleId x.1 x.2).bind _ = _
      rw [hsend]
      exact hall
    · have hout : (fun r => out r ++ Mail.postsFor r (x :: posts)) =
          fun r => (out r ++ Mail.postsFor r [(x.1, x.2)]) ++ Mail.postsFor r posts := by
        funext r
        rw [List.append_assoc, ← postsFor_append]
        rfl
      rw [hout]
      exact hd''

/-- The room goes on. -/
theorem Given.of_room (h : Given room d out reaches) {room' : RoomThreads} (hroom : RoomOk reaches room')
    (hlen : room.room.inputs.length ≤ room'.room.inputs.length) : Given room' d out reaches where
  toRoomOk := hroom
  inv := h.inv
  out_eq := h.out_eq
  posts x hx := ⟨(h.posts x hx).1, good_of_inputs hlen hroom.inputs (h.posts x hx).2⟩

/-- **A function of the room** gives out what it sends. -/
theorem Given.onRoom {s : Session} (h : Given s.room s.sendMsgDispatcher out reaches) {e : RoomEvent}
    (he : e.Served reaches) : ∃ room d', s.room.step e = .ok room ∧
      s.onRoom e = .ok { s with room := room, sendMsgDispatcher := d' } ∧
      Given room d' (fun r => out r ++
        Mail.postsFor r (postsOf (room.room.sent.drop s.room.room.sent.length))) reaches := by
  obtain ⟨room, new, hstep, hroom, hsent, hgood, hlen⟩ := h.toRoomOk.step he
  have hnew : room.room.sent.drop s.room.room.sent.length = new := by
    rw [hsent, List.drop_left]
  have hposts : ∀ x ∈ postsOf new, reaches x.1 ∧ x.2.Good room.room.inputs := by
    intro x hx
    obtain ⟨y, hy, rfl⟩ := List.mem_map.mp hx
    exact hgood y hy
  obtain ⟨d', hall, hd'⟩ := (h.of_room hroom hlen).sendAll (s := { s with room := room }) hposts
  refine ⟨room, d', hstep, ?_, by rw [hnew]; exact hd'⟩
  show (s.room.step e).bind _ = _
  rw [hstep]
  show ({ s with room := room } : Session).sendAll _ = _
  rw [hnew]
  exact hall

end Given

end GameNetwork
