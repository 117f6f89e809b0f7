import GameNetwork.GameClient.DueInputs
import GameNetwork.GameClient.GameClient

/-!
# A client and what it has been told

The state of a client as its history: `Told` says what the inputs of its game,
its delay and the start of its game are in what it has received, and `Entered`
what the futures of its calls of `EnterRoom` hold, as long as it makes fewer
than 2^32. A message is dispatched to a callback, which fails for a second
GAME_START (`Told.dispatch_second`), or to the future of the call it answers
(`Entered.dispatch_answer`), which does not fail.
-/

namespace GameNetwork

open Lib

/-- The input that the game is given. -/
def ControlMessage.input (m : ControlMessage) : Input := ⟨m.roleId, m.tick, m.moveDirection⟩

/-- The answer to a call of `EnterRoom`. -/
def EnterRoomMessage.answered (m : EnterRoomMessage) : EnterRoomMessage := { m with result := 0 }

namespace ClientApp

/-- The messages that have been dispatched, in order. -/
def messages (s : ClientApp) : List Message := s.received.map (·.1)

/-- The pings that have come back, in order, and when. -/
def pongs (s : ClientApp) : List (PingMessage × BitVec 64) :=
  s.received.filterMap fun x => x.1.ping?.map (·, x.2)

/-- The delay that the last ping gives which has come back. -/
def lastDelay (s : ClientApp) : Option (BitVec 32) :=
  s.pongs.getLast?.map fun x => (x.2 - x.1.timestamp).setWidth 32

/-- The inputs of the game, those that `PopInput` has released and those that are queued. -/
def played (s : ClientApp) : List Input := s.controller.released ++ s.controller.inputDeque

/-- **What the client has been told.** -/
structure Told (s : ClientApp) : Prop where
  sync : s.recvMsgDispatcher.enableSync = true
  callbacks : s.recvMsgDispatcher.msgCallbacks = [none, none, some 3, some 1, none, some 2]
  default : s.recvMsgDispatcher.defaultMessageCallback = 0
  played : s.played = (s.messages.filterMap Message.control?).map (·.input)
  delay : s.hasDelay = s.lastDelay.isSome ∧ s.delayMs = s.lastDelay.getD 0
  started : s.gameStartPromise = (s.messages.filterMap Message.gameStart?).head?.map (·.timestamp)

theorem told_new {roleId : RoleId} {s : ClientApp} (h : new roleId = .ok s) : s.Told := by
  cases h
  exact ⟨rfl, rfl, rfl, rfl, ⟨rfl, rfl⟩, rfl⟩

section Told

variable {s s' : ClientApp}

/-- The game calls. -/
theorem Told.call (h : s.Told) {call : GameCall} {msg : Option Message} (hc : s.call call = .ok (msg, s')) :
    s'.Told := by
  cases call with
  | pushInput logicFrame direction =>
    cases hc
    exact ⟨h.sync, h.callbacks, h.default, h.played, h.delay, h.started⟩
  | testDelay now =>
    cases hc
    exact ⟨h.sync, h.callbacks, h.default, h.played, h.delay, h.started⟩
  | enterRoom roomId =>
    obtain ⟨⟨msg', s₁⟩, hentered, hret⟩ := bind_eq_ok.mp hc
    obtain ⟨⟨future, msg'', d⟩, hset, hret'⟩ := bind_eq_ok.mp hentered
    cases hret'
    cases hret
    obtain ⟨-, messageIdMap, messagePromise, promises, rfl⟩ := MsgDispatcher.setSyncMessageId_cases hset
    exact ⟨h.sync, h.callbacks, h.default, h.played, h.delay, h.started⟩
  | popInput currentLogicFrame =>
    cases hc
    refine ⟨h.sync, h.callbacks, h.default, ?_, h.delay, h.started⟩
    exact GameController.conserves_step (e := .popInput currentLogicFrame) h.played rfl |>.trans
      (List.append_nil _)

/-- The state after a message that tells the game something. -/
def told (s : ClientApp) (m : Message) (now : BitVec 64) : ClientApp :=
  { s with received := s.received ++ [(m, now)] }

theorem messages_told (m : Message) (now : BitVec 64) : (s.told m now).messages = s.messages ++ [m] :=
  List.map_append

/-- A message that is no input. -/
theorem Told.played_told (h : s.Told) {m : Message} (hm : m.control? = none) (now : BitVec 64) :
    s.played = ((s.told m now).messages.filterMap Message.control?).map (·.input) := by
  rw [messages_told, List.filterMap_append, h.played]
  simp [hm]

/-- A message that is no ping. -/
theorem Told.delay_told (h : s.Told) {m : Message} (hm : m.ping? = none) (now : BitVec 64) :
    s.hasDelay = (s.told m now).lastDelay.isSome ∧ s.delayMs = (s.told m now).lastDelay.getD 0 := by
  have hpongs : (s.told m now).pongs = s.pongs := by
    rw [pongs, told, List.filterMap_append]
    simp [hm, pongs]
  rw [lastDelay, hpongs]
  exact h.delay

/-- A message that is no GAME_START. -/
theorem Told.started_told (h : s.Told) {m : Message} (hm : m.gameStart? = none) (now : BitVec 64) :
    s.gameStartPromise =
      ((s.told m now).messages.filterMap Message.gameStart?).head?.map (·.timestamp) := by
  rw [messages_told, List.filterMap_append, h.started]
  simp [hm]

/-- A message without an id goes to the callback of its type. -/
theorem Told.dispatch_callback (h : s.Told) {m : Message} (hm : m.Regular) (henter : m.enterRoom? = none)
    (func : Option CallbackId)
    (hfunc : [none, none, some 3, some 1, none, some 2][m.base.messageType.num.toNat]? = some func)
    (now : BitVec 64) :
    s.dispatch ⟨m.base.roleId, m⟩ now = (s.told m now).callback (func.getD 0) m.base.roleId m now := by
  have hdispatch : s.recvMsgDispatcher.dispatch ⟨m.base.roleId, m⟩ =
      .ok (some (func.getD 0), s.recvMsgDispatcher) := by
    rw [← h.default]
    exact MsgDispatcher.dispatch_of_async (hm.async henter) (by rw [h.callbacks]; exact hfunc)
  show (s.recvMsgDispatcher.dispatch _).bind _ = _
  rw [hdispatch]
  rfl

theorem Told.dispatch_control (h : s.Told) {m : ControlMessage} (hm : (Message.control m).Regular)
    (now : BitVec 64) : ∃ s', s.dispatch ⟨m.roleId, .control m⟩ now = .ok s' ∧ s'.Told ∧
      s'.recvMsgDispatcher = s.recvMsgDispatcher := by
  have hcallback := h.dispatch_callback hm rfl (some 3) (by
    rw [show (Message.control m).base.messageType = _ from hm.constructed.2]
    rfl) now
  refine ⟨{ s.told (.control m) now with controller := s.controller.onControl m.roleId m }, hcallback,
    ⟨h.sync, h.callbacks, h.default, ?_, h.delay_told rfl now, h.started_told rfl now⟩, rfl⟩
  show s.controller.released ++ (s.controller.inputDeque ++ [m.input]) =
    ((s.told (.control m) now).messages.filterMap Message.control?).map (·.input)
  rw [messages_told, List.filterMap_append, List.map_append, ← h.played, ← List.append_assoc]
  rfl

theorem Told.dispatch_ping (h : s.Told) {m : PingMessage} (hm : (Message.ping m).Regular)
    (now : BitVec 64) : ∃ s', s.dispatch ⟨m.roleId, .ping m⟩ now = .ok s' ∧ s'.Told ∧
      s'.recvMsgDispatcher = s.recvMsgDispatcher := by
  have hcallback := h.dispatch_callback hm rfl (some 1) (by
    rw [show (Message.ping m).base.messageType = _ from hm.constructed.2]
    rfl) now
  refine ⟨(s.told (.ping m) now).onPing m now, hcallback,
    ⟨h.sync, h.callbacks, h.default, h.played_told rfl now, ?_, h.started_told rfl now⟩, rfl⟩
  show true = (s.told (.ping m) now).lastDelay.isSome ∧
    (now - m.timestamp).setWidth 32 = (s.told (.ping m) now).lastDelay.getD 0
  have hpongs : (s.told (.ping m) now).pongs = s.pongs ++ [(m, now)] := List.filterMap_append
  rw [lastDelay, hpongs, List.getLast?_concat]
  exact ⟨rfl, rfl⟩

/-- A GAME_START is for the callback that sets the promise. -/
theorem Told.dispatch_start (h : s.Told) {m : GameStartMessage} (hm : (Message.gameStart m).Regular)
    (now : BitVec 64) : s.dispatch ⟨m.roleId, .gameStart m⟩ now =
      (GameClient.onGameStart s.gameStartPromise m).bind fun p =>
        .ok { s.told (.gameStart m) now with gameStartPromise := p } := by
  refine h.dispatch_callback hm rfl (some 2) ?_ now
  rw [show (Message.gameStart m).base.messageType = _ from hm.constructed.2]
  rfl

/-- The first GAME_START. -/
theorem Told.dispatch_first (h : s.Told) {m : GameStartMessage} (hm : (Message.gameStart m).Regular)
    (hnone : s.gameStartPromise = none) (now : BitVec 64) :
    ∃ s', s.dispatch ⟨m.roleId, .gameStart m⟩ now = .ok s' ∧ s'.Told ∧
      s'.recvMsgDispatcher = s.recvMsgDispatcher := by
  rw [h.dispatch_start hm, hnone]
  refine ⟨_, rfl, ⟨h.sync, h.callbacks, h.default, h.played_told rfl now, h.delay_told rfl now, ?_⟩, rfl⟩
  have hempty : s.messages.filterMap Message.gameStart? = [] := by
    have hstarted := h.started
    rw [hnone] at hstarted
    exact List.head?_eq_none_iff.mp (Option.map_eq_none_iff.mp hstarted.symm)
  show some m.timestamp = ((s.told (.gameStart m) now).messages.filterMap _).head?.map _
  rw [messages_told, List.filterMap_append, hempty]
  rfl

/-- A second GAME_START sets the promise again. -/
theorem Told.dispatch_second (h : s.Told) {m : GameStartMessage} (hm : (Message.gameStart m).Regular)
    (hset : s.gameStartPromise ≠ none) (now : BitVec 64) :
    s.dispatch ⟨m.roleId, .gameStart m⟩ now = .error .promiseAlreadySatisfied := by
  obtain ⟨p, hp⟩ := Option.ne_none_iff_exists'.mp hset
  rw [h.dispatch_start hm, hp]
  rfl

/-- An answer to `EnterRoom` tells the game nothing. -/
theorem Told.dispatch_enterRoom (h : s.Told) {m : EnterRoomMessage} {now : BitVec 64}
    (hd : s.dispatch ⟨m.roleId, .enterRoom m⟩ now = .ok s') : s'.Told := by
  obtain ⟨⟨func, d⟩, hdispatch, hret⟩ := bind_eq_ok.mp hd
  obtain rfl : s' = { s.told (.enterRoom m) now with recvMsgDispatcher := d } := by
    cases func with
    | none =>
      cases hret
      rfl
    | some func =>
      -- every callback but the default one takes another class
      simp only [ClientApp.callback] at hret
      split at hret
      · next heq => cases heq
      · next heq => cases heq
      · next heq => cases heq
      · cases hret
        rfl
      · cases hret
  have hframe : d.enableSync = s.recvMsgDispatcher.enableSync ∧
      d.msgCallbacks = s.recvMsgDispatcher.msgCallbacks ∧
      d.defaultMessageCallback = s.recvMsgDispatcher.defaultMessageCallback := by
    rcases MsgDispatcher.dispatch_cases hdispatch with rfl | ⟨messagePromise, promises, results, rfl⟩ <;>
      exact ⟨rfl, rfl, rfl⟩
  exact ⟨hframe.1.trans h.sync, hframe.2.1.trans h.callbacks, hframe.2.2.trans h.default,
    h.played_told rfl now, h.delay_told rfl now, h.started_told rfl now⟩

/-- **Whatever message is dispatched.** -/
theorem Told.dispatch (h : s.Told) {m : Message} (hm : m.Regular) {now : BitVec 64}
    (hd : s.dispatch ⟨m.base.roleId, m⟩ now = .ok s') : s'.Told := by
  cases m with
  | plain m => exact hm.constructed.elim
  | control m =>
    obtain ⟨s'', hd', htold, -⟩ := h.dispatch_control hm now
    cases hd.symm.trans hd'
    exact htold
  | ping m =>
    obtain ⟨s'', hd', htold, -⟩ := h.dispatch_ping hm now
    cases hd.symm.trans hd'
    exact htold
  | gameStart m =>
    by_cases hnone : s.gameStartPromise = none
    · obtain ⟨s'', hd', htold, -⟩ := h.dispatch_first hm hnone now
      cases hd.symm.trans hd'
      exact htold
    · cases hd.symm.trans (h.dispatch_second hm hnone now)
  | enterRoom m => exact h.dispatch_enterRoom hd

/-- Nothing of it is about the worker. -/
theorem Told.idle (h : s.Told) : s.idle.Told := ⟨h.sync, h.callbacks, h.default, h.played, h.delay, h.started⟩

theorem Told.of_idle (h : s.idle.Told) : s.Told :=
  ⟨h.sync, h.callbacks, h.default, h.played, h.delay, h.started⟩

end Told

/-! ## Calls of `EnterRoom` -/

/-- The answers that have come, in order. -/
def answers (s : ClientApp) : List EnterRoomMessage := s.messages.filterMap Message.enterRoom?

/-- The requests that have been sent, in order. -/
def requests (s : ClientApp) : List EnterRoomMessage := s.sent.filterMap Message.enterRoom?

/-- What call number `j` sends. -/
def request (roleId : RoleId) (j : Nat) (call : EnterCall) : EnterRoomMessage :=
  { EnterRoomMessage.new with
    roleId := roleId, roomId := call.roomId, messageUniqueId := BitVec.ofNat 32 (j + 1) }

/-- **Each call has a future of its own, and an id** under which it is found until it is answered. -/
structure Entered (s : ClientApp) : Prop where
  few : s.entered.length < 2 ^ 32
  sync : s.recvMsgDispatcher.enableSync = true
  counter : s.recvMsgDispatcher.messageIdMap s.roleId = BitVec.ofNat 32 s.entered.length
  requests : s.requests = s.entered.mapIdx (request s.roleId)
  own : s.answers <+: s.requests.map (·.answered)
  futures : s.entered.map (·.future) = List.range s.entered.length
  promises : s.recvMsgDispatcher.promises = s.entered.length
  results : ∀ j, s.recvMsgDispatcher.results j = s.answers[j]?.map .enterRoom
  promise : ∀ j, j + 1 < 2 ^ 32 → s.recvMsgDispatcher.messagePromise (BitVec.ofNat 32 (j + 1)) =
    if s.answers.length ≤ j ∧ j < s.entered.length then some ⟨j, true⟩ else none

theorem entered_new {roleId : RoleId} {s : ClientApp} (h : new roleId = .ok s) : s.Entered := by
  cases h
  exact ⟨Nat.two_pow_pos 32, rfl, rfl, rfl, List.prefix_refl _, rfl, rfl, fun _ => rfl, fun _ _ => rfl⟩

section Entered

variable {s s' : ClientApp}

theorem Entered.requests_length (h : s.Entered) : s.requests.length = s.entered.length := by
  rw [h.requests, List.length_mapIdx]

theorem Entered.answers_le (h : s.Entered) : s.answers.length ≤ s.entered.length := by
  have hle := h.own.length_le
  rwa [List.length_map, h.requests_length] at hle

/-- What is said is about the dispatcher, the calls and their answers. -/
theorem Entered.of_eq (h : s.Entered) (hrole : s'.roleId = s.roleId) (hentered : s'.entered = s.entered)
    (hrequests : s'.requests = s.requests) (hanswers : s'.answers = s.answers)
    (hdispatcher : s'.recvMsgDispatcher = s.recvMsgDispatcher) : s'.Entered := by
  refine ⟨?_, ?_, ?_, ?_, ?_, ?_, ?_, ?_, ?_⟩ <;>
    simp only [hrole, hentered, hrequests, hanswers, hdispatcher]
  exacts [h.few, h.sync, h.counter, h.requests, h.own, h.futures, h.promises, h.results, h.promise]

/-- **A call of `EnterRoom`** does not fail. -/
theorem Entered.call_enterRoom (h : s.Entered) (hfew : s.entered.length + 1 < 2 ^ 32) (roomId : BitVec 32) :
    ∃ msg s', s.call (.enterRoom roomId) = .ok (msg, s') ∧ s'.Entered := by
  have hid : s.recvMsgDispatcher.messageIdMap s.roleId + 1 = BitVec.ofNat 32 (s.entered.length + 1) := by
    rw [h.counter, BitVec.ofNat_add]
    rfl
  have hnone : s.recvMsgDispatcher.messagePromise (s.recvMsgDispatcher.messageIdMap s.roleId + 1) = none := by
    rw [hid, h.promise _ hfew, if_neg fun hlt => Nat.lt_irrefl _ hlt.2]
  have hset : s.recvMsgDispatcher.setSyncMessageId s.roleId
      (.enterRoom { EnterRoomMessage.new with roleId := s.roleId, roomId := roomId }) = _ :=
    MsgDispatcher.setSyncMessageId_of_none hnone
  let call : EnterCall := ⟨roomId, s.recvMsgDispatcher.promises⟩
  let msg := Message.enterRoom (request s.roleId s.entered.length call)
  let s' : ClientApp := { s with
    recvMsgDispatcher := s.recvMsgDispatcher.promised s.roleId
    entered := s.entered ++ [call]
    sent := s.sent ++ [msg] }
  have hlen : s'.entered.length = s.entered.length + 1 := List.length_append
  have hrequests : s'.requests = s.requests ++ [request s.roleId s.entered.length call] :=
    List.filterMap_append
  refine ⟨some msg, s', ?_, hlen ▸ hfew, h.sync, ?_, ?_, ?_, ?_, ?_, h.results, fun j hj => ?_⟩
  · unfold ClientApp.call ClientApp.enterRoom
    rw [hid] at hset
    simp only [hset, bind, Except.bind, pure, Except.pure]
    rfl
  · rw [hlen]
    exact (Function.update_self ..).trans hid
  · rw [hrequests, h.requests]
    exact List.mapIdx_concat.symm
  · rw [hrequests, List.map_append]
    exact h.own.trans (List.prefix_append _ _)
  · show (s.entered ++ [call]).map (·.future) = _
    rw [List.map_append, h.futures, hlen, List.range_succ]
    exact congrArg (fun j => List.range s.entered.length ++ [j]) h.promises
  · rw [hlen]
    exact congrArg (· + 1) h.promises
  · show Function.update s.recvMsgDispatcher.messagePromise _ _ _ =
      if s.answers.length ≤ j ∧ j < s'.entered.length then _ else _
    rw [hid, h.promises, hlen]
    by_cases heq : j = s.entered.length
    · subst heq
      rw [Function.update_self, if_pos ⟨h.answers_le, Nat.lt_succ_self _⟩]
    · have hne : BitVec.ofNat 32 (j + 1) ≠ BitVec.ofNat 32 (s.entered.length + 1) := fun hids =>
        heq (Nat.succ.inj (SyncClient.ofNat_inj_of_lt hj hfew hids))
      have hiff : (s.answers.length ≤ j ∧ j < s.entered.length + 1) ↔
          s.answers.length ≤ j ∧ j < s.entered.length := by omega
      rw [Function.update_of_ne hne, h.promise j hj]
      simp only [hiff]

/-- **Any call of the game** goes well, as long as there are not too many of `EnterRoom`. -/
theorem Entered.call (h : s.Entered) {call : GameCall}
    (hfew : ∀ roomId, call = .enterRoom roomId → s.entered.length + 1 < 2 ^ 32) :
    ∃ msg s', s.call call = .ok (msg, s') ∧ s'.Entered := by
  cases call with
  | enterRoom roomId => exact h.call_enterRoom (hfew roomId rfl) roomId
  | pushInput logicFrame direction =>
    refine ⟨_, _, rfl, h.of_eq rfl rfl ?_ rfl rfl⟩
    show (s.sent ++ [_]).filterMap Message.enterRoom? = _
    rw [List.filterMap_append]
    exact List.append_nil _
  | testDelay now =>
    refine ⟨_, _, rfl, h.of_eq rfl rfl ?_ rfl rfl⟩
    show (s.sent ++ [_]).filterMap Message.enterRoom? = _
    rw [List.filterMap_append]
    exact List.append_nil _
  | popInput currentLogicFrame => exact ⟨_, _, rfl, h.of_eq rfl rfl rfl rfl rfl⟩

theorem Entered.call_ok (h : s.Entered) {call : GameCall} {msg : Option Message} (hc : s.call call = .ok (msg, s'))
    (hfew : ∀ roomId, call = .enterRoom roomId → s.entered.length + 1 < 2 ^ 32) : s'.Entered := by
  obtain ⟨msg', s'', hc', hentered⟩ := h.call hfew
  cases hc.symm.trans hc'
  exact hentered

/-- A message that is no answer. -/
theorem Entered.dispatch_other (h : s.Entered) {m : Message} {now : BitVec 64} (hm : m.enterRoom? = none)
    (hd : s.dispatch ⟨m.base.roleId, m⟩ now = .ok s')
    (hdispatcher : s'.recvMsgDispatcher = s.recvMsgDispatcher) : s'.Entered := by
  obtain ⟨hreceived, hsent, hentered, -, -, hrole⟩ := dispatch_frame hd
  refine h.of_eq hrole.roleId hentered ?_ ?_ hdispatcher
  · show s'.sent.filterMap Message.enterRoom? = _
    rw [hsent]
    rfl
  · unfold answers messages
    rw [hreceived, List.map_append, List.filterMap_append]
    simp [hm]

/-- **The next answer** is handed to the call it belongs to. -/
theorem Entered.dispatch_answer (h : s.Entered) {m : EnterRoomMessage} (now : BitVec 64)
    (hm : (s.requests.map (·.answered))[s.answers.length]? = some m) :
    ∃ s', s.dispatch ⟨m.roleId, .enterRoom m⟩ now = .ok s' ∧ s'.Entered := by
  obtain ⟨j, hj⟩ : ∃ j, j = s.answers.length := ⟨_, rfl⟩
  rw [h.requests, List.getElem?_map, List.getElem?_mapIdx, ← hj, Option.map_map] at hm
  obtain ⟨call, hcall, heq⟩ := Option.map_eq_some_iff.mp hm
  obtain rfl : (request s.roleId j call).answered = m := heq
  have hlt : j < s.entered.length := (List.getElem?_eq_some_iff.mp hcall).1
  have hsmall : j + 1 < 2 ^ 32 := Nat.lt_of_le_of_lt hlt h.few
  let m := (request s.roleId j call).answered
  have hid : (Message.enterRoom m).base.messageUniqueId ≠ asyncMessageUniqueId := fun hzero =>
    absurd (SyncClient.ofNat_inj_of_lt hsmall (Nat.two_pow_pos 32) hzero) (Nat.succ_ne_zero j)
  have hpromise : s.recvMsgDispatcher.messagePromise (Message.enterRoom m).base.messageUniqueId =
      some ⟨j, true⟩ := (h.promise j hsmall).trans (if_pos ⟨hj.ge, hlt⟩)
  have hresult : s.recvMsgDispatcher.results j = none := by
    rw [h.results, hj, List.getElem?_eq_none (Nat.le_refl _)]
    rfl
  have hdispatch : s.recvMsgDispatcher.dispatch ⟨m.roleId, .enterRoom m⟩ = _ :=
    MsgDispatcher.dispatch_of_promise h.sync hid hpromise hresult
  let s' : ClientApp := { s with
    recvMsgDispatcher := s.recvMsgDispatcher.fulfilled ⟨j, true⟩ (.enterRoom m)
    received := s.received ++ [(.enterRoom m, now)] }
  have hanswers : s'.answers = s.answers ++ [m] := by
    unfold answers messages
    rw [List.map_append, List.filterMap_append]
    rfl
  have hlen : s'.answers.length = j + 1 := by
    rw [hanswers, List.length_append, ← hj]
    rfl
  refine ⟨s', ?_, h.few, h.sync, h.counter, h.requests, ?_, h.futures, h.promises, fun i => ?_, fun i hi => ?_⟩
  · show (s.recvMsgDispatcher.dispatch _).bind _ = _
    rw [hdispatch]
    rfl
  · rw [hanswers]
    show s.answers ++ [m] <+: s.requests.map (·.answered)
    have hnext : (s.requests.map (·.answered))[s.answers.length]? = some m := by
      rw [h.requests, List.getElem?_map, List.getElem?_mapIdx, ← hj, hcall]
      rfl
    obtain ⟨l, hl⟩ := h.own
    rw [← hl, List.getElem?_append_right (Nat.le_refl _), Nat.sub_self] at hnext
    obtain ⟨l', rfl⟩ : ∃ l', l = m :: l' := by
      cases l with
      | nil => cases hnext
      | cons x l' =>
        cases hnext
        exact ⟨l', rfl⟩
    exact ⟨l', by rw [← hl, List.append_assoc]; rfl⟩
  · show Function.update s.recvMsgDispatcher.results j (some (Message.enterRoom m)) i = s'.answers[i]?.map .enterRoom
    rw [hanswers]
    by_cases heq : i = j
    · subst heq
      rw [Function.update_self, hj, List.getElem?_append_right (Nat.le_refl _), Nat.sub_self]
      rfl
    · rw [Function.update_of_ne heq, h.results]
      by_cases hlt : i < j
      · rw [List.getElem?_append_left (hj ▸ hlt)]
      · rw [List.getElem?_eq_none (by omega), List.getElem?_eq_none (by rw [← hanswers]; omega)]
  · show Function.update s.recvMsgDispatcher.messagePromise (BitVec.ofNat 32 (j + 1)) none _ = _
    rw [hlen]
    by_cases heq : i = j
    · subst heq
      rw [Function.update_self, if_neg fun hle => absurd hle.1 (Nat.not_succ_le_self _)]
    · have hne : BitVec.ofNat 32 (i + 1) ≠ BitVec.ofNat 32 (j + 1) := fun hids =>
        heq (Nat.succ.inj (SyncClient.ofNat_inj_of_lt hi hsmall hids))
      have hiff : (j + 1 ≤ i ∧ i < s.entered.length) ↔ s.answers.length ≤ i ∧ i < s.entered.length := by omega
      rw [Function.update_of_ne hne, h.promise i hi]
      show (if _ then _ else _) = if j + 1 ≤ i ∧ i < s.entered.length then _ else _
      simp only [hiff]

/-- The `j`-th future is that of the `j`-th call, and has the `j`-th answer. -/
theorem Entered.result_of_future (h : s.Entered) {j : Nat} {call : EnterCall} (hcall : s.entered[j]? = some call) :
    s.recvMsgDispatcher.results call.future = s.answers[j]?.map .enterRoom := by
  have hfuture : call.future = j := by
    have hmap : (s.entered.map (·.future))[j]? = some call.future := by
      rw [List.getElem?_map, hcall]
      rfl
    rw [h.futures] at hmap
    rw [List.getElem?_range (List.getElem?_eq_some_iff.mp hcall).1] at hmap
    exact (Option.some.inj hmap).symm
  rw [hfuture, h.results]

/-- **What `EnterRoom` returns**: true once its answer has come, which is for its room. -/
theorem Entered.enterRoomResult (h : s.Entered) {j : Nat} {call : EnterCall} (hcall : s.entered[j]? = some call) :
    s.enterRoomResult call = .ok (if j < s.answers.length then some true else none) ∧
      ∀ rsp, s.answers[j]? = some rsp → rsp.roomId = call.roomId := by
  have hanswer : ∀ rsp, s.answers[j]? = some rsp → rsp = (request s.roleId j call).answered := by
    intro rsp hrsp
    have hown : (s.requests.map (·.answered))[j]? = some rsp := by
      obtain ⟨l, hl⟩ := h.own
      rw [← hl, List.getElem?_append_left (List.getElem?_eq_some_iff.mp hrsp).1]
      exact hrsp
    rw [h.requests, List.getElem?_map, List.getElem?_mapIdx, hcall] at hown
    exact (Option.some.inj hown).symm
  refine ⟨?_, fun rsp hrsp => by rw [hanswer rsp hrsp]; rfl⟩
  unfold ClientApp.enterRoomResult
  rw [h.result_of_future hcall]
  by_cases hlt : j < s.answers.length
  · have hrsp := List.getElem?_eq_getElem hlt
    rw [hrsp, if_pos hlt, hanswer _ hrsp]
    rfl
  · rw [List.getElem?_eq_none (Nat.le_of_not_lt hlt), if_neg hlt]
    rfl

/-- Nothing of it is about the worker. -/
theorem Entered.idle (h : s.Entered) : s.idle.Entered :=
  ⟨h.few, h.sync, h.counter, h.requests, h.own, h.futures, h.promises, h.results, h.promise⟩

theorem Entered.of_idle (h : s.idle.Entered) : s.Entered :=
  ⟨h.few, h.sync, h.counter, h.requests, h.own, h.futures, h.promises, h.results, h.promise⟩

end Entered

end ClientApp

end GameNetwork
