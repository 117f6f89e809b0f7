import Mathlib.Data.List.Nodup
import Mathlib.Logic.Function.Basic
import GameNetwork.GameServer.GameServerExample

/-!
# The start of the game

A client has one promise for GAME_START, whatever number of roles it has
connected (`conn_map_`), and its callback fulfils the promise without a look at
whether that has happened. The server sends GAME_START to the whole room each
time role 2 enters and to role 3 each time it enters, `EnterRoom` being one
step of it. `Starting` is the server with the clients that have the connections
of the roles, and with the roles and the clients that such an entry has met;
a client that is made anew is another one. A message is taken to reach the
client that has the role when it is given to the send dispatcher.
`game_start_once_iff` says when nobody is started twice.
-/

namespace GameNetwork

open Lib

/-- The GAME_START callback of a client (`GameClient/GameClient.cpp`): `set_value` on
`game_start_promise_`. -/
def GameClient.onGameStart (gameStartPromise : Option (BitVec 64)) (startMsg : GameStartMessage) :
    Except Fault (Option (BitVec 64)) :=
  if gameStartPromise.isSome then .error .promiseAlreadySatisfied else .ok (some startMsg.timestamp)

/-- The GAME_STARTs for a role. -/
def gameStarts (roleId : RoleId) (sent : List (RoleId × Outgoing)) : List GameStartMessage :=
  sent.filterMap fun
    | (r, .gameStart m) => if r = roleId then some m else none
    | _ => none

/-- The GAME_STARTs for all roles. -/
def allGameStarts (sent : List (RoleId × Outgoing)) : List (RoleId × GameStartMessage) :=
  sent.filterMap fun
    | (r, .gameStart m) => some (r, m)
    | _ => none

/-- Whom the entry of a role is to start: the whole room for role 2, itself included, and role 3 for
role 3. -/
def started (roleIds : List RoleId) (roleId : RoleId) : List RoleId :=
  if roleId = 2 then roleIds ++ [2] else if roleId = 3 then [3] else []

/-- A `GameClient`. -/
abbrev ClientId := Nat

/-- A GAME_START that is given to the send dispatcher for a role that a client has connected. -/
structure GivenStart where
  roleId : RoleId
  client : ClientId
  message : GameStartMessage
  deriving DecidableEq, Repr

/-- A GAME_START for a role that nobody has connected goes nowhere. -/
def givenStarts (clientOf : RoleId → Option ClientId) (sent : List (RoleId × Outgoing)) : List GivenStart :=
  (allGameStarts sent).filterMap fun (r, m) => (clientOf r).map fun client => ⟨r, client, m⟩

inductive StartEvent where
  /-- A connection of the client is registered under the role id. -/
  | connect (client : ClientId) (roleId : RoleId)
  | call (call : RoomCall)
  deriving DecidableEq, Repr

structure Starting where
  room : GameServerExample
  /-- Who has the connection of a role. -/
  clientOf : RoleId → Option ClientId
  given : List GivenStart
  /-- How much had been given when a role last disconnected. -/
  leftAt : RoleId → Nat
  /-- The connected roles that an entry was to start, once for each time, less those that have
  disconnected since. -/
  metRoles : List RoleId
  /-- The clients of these roles, once for each time. -/
  metClients : List ClientId

namespace Starting

def new : Starting := ⟨.new, fun _ => none, [], fun _ => 0, [], []⟩

/-- The connected roles that the entry of a role is to start. -/
def rolesToStart (s : Starting) (roleId : RoleId) : List RoleId :=
  (started s.room.roleIds roleId).filter fun r => (s.clientOf r).isSome

/-- The clients that the entry of a role is to start. -/
def clientsToStart (s : Starting) (roleId : RoleId) : List ClientId :=
  (started s.room.roleIds roleId).filterMap s.clientOf

def step (s : Starting) : StartEvent → Except Fault Starting
  | .connect client roleId =>
    return { s with clientOf := Function.update s.clientOf roleId (some client) }
  | .call call => do
    let room ← s.room.step call
    let given := s.given ++ givenStarts s.clientOf (room.sent.drop s.room.sent.length)
    match call with
    | .enterRoom roleId _ _ =>
      return ⟨room, s.clientOf, given, s.leftAt, s.metRoles ++ s.rolesToStart roleId,
        s.metClients ++ s.clientsToStart roleId⟩
    | .onRoleDisconnect roleId =>
      return ⟨room, Function.update s.clientOf roleId none, given,
        Function.update s.leftAt roleId given.length, s.metRoles.filter (· ≠ roleId), s.metClients⟩
    | _ => return ⟨room, s.clientOf, given, s.leftAt, s.metRoles, s.metClients⟩

/-- The GAME_STARTs for a role since it last disconnected. -/
def starts (s : Starting) (roleId : RoleId) : List GivenStart :=
  (s.given.drop (s.leftAt roleId)).filter (·.roleId = roleId)

/-- The GAME_STARTs for a client, under all the roles it has connected. -/
def clientStarts (s : Starting) (client : ClientId) : List GameStartMessage :=
  (s.given.filter (·.client = client)).map (·.message)

/-- **No role is sent two GAME_STARTs while it is connected, and the callback of no client throws.** -/
structure StartsOnce (s : Starting) : Prop where
  atMostOne : ∀ roleId, (s.starts roleId).length ≤ 1
  noThrow : ∀ client, ∃ p, (s.clientStarts client).foldlM GameClient.onGameStart none = .ok p

/-- Those that an entry is to start have clients of their own, and no such entry has met the clients,
nor the roles since they connected. -/
def Fresh (s : Starting) : StartEvent → Prop
  | .call (.enterRoom roleId _ _) =>
    (s.clientsToStart roleId).Nodup ∧ (∀ client ∈ s.clientsToStart roleId, client ∉ s.metClients) ∧
      ∀ r ∈ s.rolesToStart roleId, r ∉ s.metRoles
  | _ => True

/-! ## GAME_STARTs -/

section Starts

theorem gameStarts_append (roleId : RoleId) (sent sent' : List (RoleId × Outgoing)) :
    gameStarts roleId (sent ++ sent') = gameStarts roleId sent ++ gameStarts roleId sent' :=
  List.filterMap_append

theorem allGameStarts_append (sent sent' : List (RoleId × Outgoing)) :
    allGameStarts (sent ++ sent') = allGameStarts sent ++ allGameStarts sent' := List.filterMap_append

theorem gameStarts_eq_filter (roleId : RoleId) (sent : List (RoleId × Outgoing)) :
    gameStarts roleId sent = ((allGameStarts sent).filter (·.1 = roleId)).map (·.2) := by
  induction sent with
  | nil => rfl
  | cons x sent ih =>
    obtain ⟨r, msg⟩ := x
    unfold gameStarts allGameStarts at ih ⊢
    rw [List.filterMap_cons, List.filterMap_cons]
    cases msg with
    | gameStart m =>
      by_cases h : r = roleId
      · simpa [h] using ih
      · simpa [h] using ih
    | control input => exact ih
    | enterRoom m => exact ih

/-- What is no GAME_START does not count. -/
theorem allGameStarts_eq_nil {sent : List (RoleId × Outgoing)}
    (h : ∀ r m, (r, Outgoing.gameStart m) ∉ sent) : allGameStarts sent = [] := by
  refine List.filterMap_eq_nil_iff.mpr fun p hp => ?_
  obtain ⟨r, msg⟩ := p
  cases msg with
  | gameStart m => exact absurd hp (h r m)
  | control input => rfl
  | enterRoom m => rfl

theorem gameStarts_eq_nil {roleId : RoleId} {sent : List (RoleId × Outgoing)}
    (h : ∀ r m, (r, Outgoing.gameStart m) ∉ sent) : gameStarts roleId sent = [] := by
  rw [gameStarts_eq_filter, allGameStarts_eq_nil h]
  rfl

theorem allGameStarts_broadcast (roleIds : List RoleId) (m : GameStartMessage) :
    allGameStarts (roleIds.map (·, Outgoing.gameStart m)) = roleIds.map (·, m) := by
  rw [allGameStarts, List.filterMap_map]
  exact congrFun List.filterMap_eq_map roleIds

/-- **The GAME_STARTs of one call of `EnterRoom`.** -/
theorem allGameStarts_enterRoom (room : GameServerExample) (roleId : RoleId)
    (msg : EnterRoomMessage) (now : BitVec 64) :
    allGameStarts (room.enterRoomSends roleId msg now) =
      (started room.roleIds roleId).map (·, { GameStartMessage.new with timestamp := now }) := by
  have hanswer : allGameStarts [(roleId, Outgoing.enterRoom { msg with result := 0 })] = [] := rfl
  have hreplay :
      allGameStarts (room.recorded.map fun input => (roleId, Outgoing.control input)) = [] :=
    allGameStarts_eq_nil fun r m hm => by
      obtain ⟨_, -, heq⟩ := List.mem_map.mp hm
      cases (Prod.mk.inj heq).2
  rw [GameServerExample.enterRoomSends, allGameStarts_append, allGameStarts_append, hanswer,
    List.append_nil, started]
  by_cases h2 : roleId = 2
  · subst h2
    rw [if_pos rfl, if_pos rfl, GameServerExample.gameStartAt, allGameStarts_broadcast]
    exact List.append_nil _
  by_cases h3 : roleId = 3
  · subst h3
    have hcons : ((3 : RoleId), GameServerExample.gameStartAt now) ::
          room.recorded.map (fun input => ((3 : RoleId), Outgoing.control input)) =
        [(3 : RoleId)].map (·, GameServerExample.gameStartAt now) ++
          room.recorded.map fun input => ((3 : RoleId), Outgoing.control input) := rfl
    rw [if_neg h2, if_neg h2, if_pos rfl, if_pos rfl, hcons, allGameStarts_append, hreplay,
      List.append_nil, GameServerExample.gameStartAt, allGameStarts_broadcast]
    exact List.nil_append _
  · rw [if_neg h2, if_neg h2, if_neg h3, if_neg h3]
    rfl

theorem length_gameStarts_enterRoom (room : GameServerExample) (roleId : RoleId)
    (msg : EnterRoomMessage) (now : BitVec 64) (r : RoleId) :
    (gameStarts r (room.enterRoomSends roleId msg now)).length =
      (started room.roleIds roleId).count r := by
  rw [gameStarts_eq_filter, allGameStarts_enterRoom, List.length_map, List.filter_map, List.length_map,
    List.count, List.countP_eq_length_filter]
  rfl

/-- What one call of `EnterRoom` gives to connected roles. -/
theorem givenStarts_enterRoom (clientOf : RoleId → Option ClientId) (room : GameServerExample)
    (roleId : RoleId) (msg : EnterRoomMessage) (now : BitVec 64) :
    givenStarts clientOf (room.enterRoomSends roleId msg now) =
      (started room.roleIds roleId).filterMap fun r => (clientOf r).map fun client =>
        ⟨r, client, { GameStartMessage.new with timestamp := now }⟩ := by
  rw [givenStarts, allGameStarts_enterRoom, List.filterMap_map]
  rfl

/-- How many are given to a role, or to a client. -/
theorem length_filter_eq_count {κ : Type} [DecidableEq κ] (given : List GivenStart) (key : GivenStart → κ)
    (k : κ) : (given.filter (key · = k)).length = (given.map key).count k := by
  rw [List.count, List.countP_map, List.countP_eq_length_filter]
  rfl

/-- The callback goes well as long as it is called once. -/
theorem onGameStart_ok_iff (msgs : List GameStartMessage) :
    (∃ p, msgs.foldlM GameClient.onGameStart none = .ok p) ↔ msgs.length ≤ 1 := by
  match msgs with
  | [] => exact iff_of_true ⟨none, rfl⟩ (Nat.zero_le 1)
  | [m] => exact iff_of_true ⟨some m.timestamp, rfl⟩ (Nat.le_refl 1)
  | m :: m' :: msgs =>
    refine iff_of_false ?_ (by simp)
    rintro ⟨p, hp⟩
    cases hp

end Starts

/-! ## Runs -/

section Run

variable {s t : Starting} {e : StartEvent}

/-- Roles and clients are given a GAME_START for each entry they have met. -/
structure StartsMet (s : Starting) : Prop where
  left : ∀ roleId, s.leftAt roleId ≤ s.given.length
  length_starts : ∀ roleId, (s.starts roleId).length = s.metRoles.count roleId
  clients : s.given.map (·.client) = s.metClients

theorem startsMet_new : StartsMet new := ⟨fun _ => Nat.le_refl 0, fun _ => rfl, rfl⟩

/-- An event that only adds to what is given, and meets as many as it gives to. -/
theorem startsMet_append (h : s.StartsMet) (given : List GivenStart) (hleft : t.leftAt = s.leftAt)
    (hgiven : t.given = s.given ++ given) (hroles : t.metRoles = s.metRoles ++ given.map (·.roleId))
    (hclients : t.metClients = s.metClients ++ given.map (·.client)) : t.StartsMet := by
  refine ⟨fun r => ?_, fun r => ?_, ?_⟩
  · rw [hleft, hgiven, List.length_append]
    exact Nat.le_add_right_of_le (h.left r)
  · rw [starts, hleft, hgiven, List.drop_append_of_le_length (h.left r), List.filter_append,
      List.length_append, length_filter_eq_count given (·.roleId), hroles, List.count_append, ← h.length_starts]
    rfl
  · rw [hgiven, List.map_append, h.clients, hclients]

theorem map_client_to_start (clientOf : RoleId → Option ClientId) (m : GameStartMessage)
    (roleIds : List RoleId) :
    (roleIds.filterMap fun r => (clientOf r).map fun client =>
      (⟨r, client, m⟩ : GivenStart)).map (·.client) = roleIds.filterMap clientOf := by
  rw [List.map_filterMap]
  congr 1
  funext r
  rw [Option.map_map]
  exact Option.map_id'

theorem map_roleId_to_start (clientOf : RoleId → Option ClientId) (m : GameStartMessage)
    (roleIds : List RoleId) :
    (roleIds.filterMap fun r => (clientOf r).map fun client =>
      (⟨r, client, m⟩ : GivenStart)).map (·.roleId) = roleIds.filter fun r => (clientOf r).isSome := by
  induction roleIds with
  | nil => rfl
  | cons r roleIds ih => cases h : clientOf r <;> simp [h, ih]

/-- The roles that are started are those of the clients that are. -/
theorem map_clientOf_rolesToStart (s : Starting) (roleId : RoleId) :
    (s.rolesToStart roleId).map s.clientOf = (s.clientsToStart roleId).map some := by
  rw [rolesToStart, clientsToStart]
  induction started s.room.roleIds roleId with
  | nil => rfl
  | cons r roleIds ih => cases h : s.clientOf r <;> simp [h, ih]

/-- A call that sends no GAME_START, and meets nobody. -/
theorem startsMet_silent (h : s.StartsMet) (sent : List (RoleId × Outgoing))
    (hno : ∀ r m, (r, Outgoing.gameStart m) ∉ sent) (hleft : t.leftAt = s.leftAt)
    (hgiven : t.given = s.given ++ givenStarts s.clientOf sent) (hroles : t.metRoles = s.metRoles)
    (hclients : t.metClients = s.metClients) : t.StartsMet := by
  have hnone : givenStarts s.clientOf sent = [] := by
    rw [givenStarts, allGameStarts_eq_nil hno]
    rfl
  refine startsMet_append h [] hleft (by rw [hgiven, hnone]) ?_ ?_
  · rw [hroles]
    exact (List.append_nil _).symm
  · rw [hclients]
    exact (List.append_nil _).symm

theorem startsMet_step (h : s.StartsMet) (ht : step s e = .ok t) : t.StartsMet := by
  cases e with
  | connect client roleId =>
    cases ht
    exact ⟨h.left, h.length_starts, h.clients⟩
  | call call =>
  cases call with
  | control msg =>
    cases ht
    refine startsMet_silent h [] (by simp) rfl ?_ rfl rfl
    exact congrArg (fun sent => s.given ++ givenStarts s.clientOf sent) (List.drop_length ..)
  | enterRoom roleId msg now =>
    cases ht
    have hsent : (s.room.enterRoom roleId msg now).sent.drop s.room.sent.length =
        s.room.enterRoomSends roleId msg now := by
      rw [GameServerExample.enterRoom_eq]
      exact List.drop_left ..
    have hgiven : givenStarts s.clientOf ((s.room.enterRoom roleId msg now).sent.drop s.room.sent.length) =
        _ := (congrArg _ hsent).trans (givenStarts_enterRoom s.clientOf s.room roleId msg now)
    refine startsMet_append h _ rfl rfl ?_ ?_
    · rw [hgiven, map_roleId_to_start]
      rfl
    · rw [hgiven, map_client_to_start]
      rfl
  | onRoleDisconnect roleId =>
    cases ht
    have hgiven : s.given ++ givenStarts s.clientOf
        ((s.room.onRoleDisconnect roleId).sent.drop s.room.sent.length) = s.given := by
      rw [show (s.room.onRoleDisconnect roleId).sent = s.room.sent from rfl, List.drop_length]
      exact List.append_nil _
    simp only [hgiven]
    refine ⟨fun r => ?_, fun r => ?_, h.clients⟩
    · show Function.update s.leftAt roleId s.given.length r ≤ s.given.length
      rw [Function.update_apply]
      split
      · exact Nat.le_refl _
      · exact h.left r
    · show ((s.given.drop (Function.update s.leftAt roleId s.given.length r)).filter
        (·.roleId = r)).length = (s.metRoles.filter (· ≠ roleId)).count r
      rw [Function.update_apply]
      split
      · next heq =>
        rw [List.drop_length, heq, List.count_eq_zero.mpr (by simp)]
        rfl
      · next hne =>
        rw [List.count_filter (by simpa using hne)]
        exact h.length_starts r
  | update =>
    cases ht
    have hsent : s.room.update.sent.drop s.room.sent.length =
        s.room.controlMsg.flatMap fun input => s.room.roleIds.map (·, .control input) := by
      rw [GameServerExample.update_eq]
      exact List.drop_left ..
    refine startsMet_silent h _ (fun r m hm => ?_) rfl
      (congrArg (s.given ++ givenStarts s.clientOf ·) hsent) rfl rfl
    -- what `Update` sends are inputs
    obtain ⟨_, -, hm⟩ := List.mem_flatMap.mp hm
    obtain ⟨_, -, heq⟩ := List.mem_map.mp hm
    cases (Prod.mk.inj heq).2

theorem length_clientStarts (h : s.StartsMet) (client : ClientId) :
    (s.clientStarts client).length = s.metClients.count client := by
  rw [clientStarts, List.length_map, length_filter_eq_count s.given (·.client), h.clients]

theorem startsOnce_iff (h : s.StartsMet) : s.StartsOnce ↔ s.metRoles.Nodup ∧ s.metClients.Nodup := by
  rw [List.nodup_iff_count, List.nodup_iff_count]
  simp only [← h.length_starts, ← length_clientStarts h]
  constructor
  · intro hs
    exact ⟨hs.atMostOne, fun client => (onGameStart_ok_iff _).mp (hs.noThrow client)⟩
  · rintro ⟨hroles, hclients⟩
    exact ⟨hroles, fun client => (onGameStart_ok_iff _).mpr (hclients client)⟩

/-- One event starts nobody twice exactly when it is fresh. -/
theorem startsOnce_step (h : s.StartsMet) (hs : s.StartsOnce) :
    (∀ t, step s e = .ok t → t.StartsOnce) ↔ s.Fresh e := by
  obtain ⟨hroles, hclients⟩ := (startsOnce_iff h).mp hs
  obtain ⟨t, ht⟩ : ∃ t, step s e = .ok t := by
    cases e with
    | connect => exact ⟨_, rfl⟩
    | call call => cases call <;> exact ⟨_, rfl⟩
  rw [forall_step_iff ht, startsOnce_iff (startsMet_step h ht)]
  cases e with
  | connect client roleId =>
    cases ht
    exact iff_of_true ⟨hroles, hclients⟩ trivial
  | call call =>
  cases call with
  | control msg => cases ht; exact iff_of_true ⟨hroles, hclients⟩ trivial
  | enterRoom roleId msg now =>
    cases ht
    show (s.metRoles ++ s.rolesToStart roleId).Nodup ∧ (s.metClients ++ s.clientsToStart roleId).Nodup ↔ _
    rw [List.nodup_append', List.nodup_append']
    constructor
    · rintro ⟨⟨-, -, hmetRoles⟩, -, hnodup, hmetClients⟩
      exact ⟨hnodup, fun client hc hm => hmetClients hm hc, fun r hr hm => hmetRoles hm hr⟩
    · rintro ⟨hnodup, hmetClients, hmetRoles⟩
      -- roles with clients of their own are different
      have hown : ((s.rolesToStart roleId).map s.clientOf).Nodup := by
        rw [map_clientOf_rolesToStart]
        exact hnodup.map fun _ _ => Option.some.inj
      exact ⟨⟨hroles, hown.of_map, fun r hm hr => hmetRoles r hr hm⟩, hclients, hnodup,
        fun client hm hc => hmetClients client hc hm⟩
  | onRoleDisconnect roleId => cases ht; exact iff_of_true ⟨hroles.filter _, hclients⟩ trivial
  | update => cases ht; exact iff_of_true ⟨hroles, hclients⟩ trivial

end Run

/-- Role 3 is in the room when role 2 enters; they are two clients. -/
def threeThenTwo : List StartEvent :=
  [.connect 0 3, .connect 1 2, .call (.enterRoom 3 .new 0), .call (.enterRoom 2 .new 0)]

/-- Roles 1 and 2 are one client. -/
def oneAndTwo : List StartEvent :=
  [.connect 0 1, .connect 0 2, .call (.enterRoom 1 .new 0), .call (.enterRoom 2 .new 0)]

end Starting

end GameNetwork
