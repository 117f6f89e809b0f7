import Mathlib.Logic.Function.Basic
import GameNetwork.Lib.Lanes
import GameNetwork.Message.Messages

/-!
# The dispatcher

`Network/MsgDispatcher.h`, `Network/MsgDispatcher.cpp`, `Network/MsgThread.h`
and the queue under it. `push` puts a message into the queue of the worker
that its dispatch id selects; a worker takes one message at a time (`tryPop`)
and dispatches it. `dispatch` calls the callback of the message's type, or, in
synchronous mode, fulfils the promise stored under the message's unique id,
which `setSyncMessageId` put there for a request.
-/

namespace GameNetwork

open Lib

/-- A `MsgCallback` a user of the dispatcher has set. -/
abbrev CallbackId := Nat

structure MsgForDispatch where
  dispatchId : RoleId
  baseMessagePtr : Message
  deriving DecidableEq, Repr

/-- The object with its `message_unique_id` set. -/
def Message.withUniqueId (m : Message) (uniqueId : BitVec 32) : Message :=
  match m with
  | .plain m => .plain { m with messageUniqueId := uniqueId }
  | .control m => .control { m with messageUniqueId := uniqueId }
  | .ping m => .ping { m with messageUniqueId := uniqueId }
  | .enterRoom m => .enterRoom { m with messageUniqueId := uniqueId }
  | .gameStart m => .gameStart { m with messageUniqueId := uniqueId }

/-- A worker: its queue, and the message it is dispatching. -/
structure MsgThread where
  msgQueue : List MsgForDispatch
  dispatching : Option MsgForDispatch
  deriving DecidableEq, Repr

/-- A `std::promise`. -/
structure Promise where
  /-- The state it shares with its future. -/
  shared : Nat
  /-- `get_future` was called. -/
  retrieved : Bool
  deriving DecidableEq, Repr

structure MsgDispatcher where
  started : Bool
  threadNum : BitVec 32
  defaultMessageCallback : CallbackId
  msgThreads : List MsgThread
  msgCallbacks : List (Option CallbackId)
  enableSync : Bool
  /-- `message_id_map_`; a role that is not in it reads as 0. -/
  messageIdMap : RoleId → BitVec 32
  messagePromise : BitVec 32 → Option Promise
  /-- How many promises have been made. -/
  promises : Nat
  /-- What the shared states hold. -/
  results : Nat → Option Message

/-- `ASYNC_MESSAGE_UNIQUE_ID`. -/
def asyncMessageUniqueId : BitVec 32 := 0

namespace MsgThread

def new : MsgThread := ⟨[], none⟩

def push (t : MsgThread) (msg : MsgForDispatch) : MsgThread := { t with msgQueue := t.msgQueue ++ [msg] }

/-- `TryPop` in the loop of `Running`, which a worker comes to when it is not dispatching. On an
empty queue it gives up and changes nothing. -/
def tryPop (t : MsgThread) : MsgThread :=
  match t.dispatching, t.msgQueue with
  | none, msg :: msgQueue => ⟨msgQueue, some msg⟩
  | _, _ => t

/-- The dispatch function returns. -/
def finish (t : MsgThread) : MsgThread := { t with dispatching := none }

end MsgThread

namespace MsgDispatcher

/-- `MsgDispatcher(thread_num, enable_sync)`; callback 0 is `DefaultMsgCallback`. -/
def new (threadNum : BitVec 32) (enableSync : Bool) : MsgDispatcher where
  started := false
  threadNum := threadNum
  defaultMessageCallback := 0
  msgThreads := []
  msgCallbacks := List.replicate MessageType.typeMax.num.toNat none
  enableSync := enableSync
  messageIdMap := fun _ => 0
  messagePromise := fun _ => none
  promises := 0
  results := fun _ => none

/-- The worker a dispatch id selects: the id is converted to the unsigned type of `thread_num_`. -/
def threadIndex (d : MsgDispatcher) (dispatchId : RoleId) : Nat := (dispatchId % d.threadNum).toNat

def push (d : MsgDispatcher) (dispatchId : RoleId) (msg : Option Message) : Except Fault MsgDispatcher :=
  match msg with
  | none => return d
  | some m =>
    if !d.started then return d
    else if d.threadNum = 0 then .error .divisionByZero
    else if d.threadIndex dispatchId < d.msgThreads.length then
      return { d with msgThreads := d.msgThreads.modify (d.threadIndex dispatchId) (·.push ⟨dispatchId, m⟩) }
    else .error .outOfBounds

/-- `Push` of the vector form. -/
def pushAll (d : MsgDispatcher) (dispatchIds : List RoleId) (msg : Option Message) :
    Except Fault MsgDispatcher :=
  dispatchIds.foldlM (fun d dispatchId => d.push dispatchId msg) d

def start (d : MsgDispatcher) : MsgDispatcher × Bool :=
  if d.started then (d, false)
  else ({ d with started := true,
                 msgThreads := d.msgThreads ++ List.replicate d.threadNum.toNat .new }, true)

def setMsgCallback (d : MsgDispatcher) (msgType : MessageType) (callback : CallbackId) :
    Except Fault MsgDispatcher :=
  if MessageType.tyteMin.num < msgType.num ∧ msgType.num < MessageType.typeMax.num then
    return { d with msgCallbacks := d.msgCallbacks.set msgType.num.toNat (some callback) }
  else .error
    (.assertion "msg_type > MessageType::TYTE_MIN && msg_type < MessageType::TYPE_MAX")

def setDefaultMsgCallback (d : MsgDispatcher) (callback : CallbackId) : MsgDispatcher :=
  { d with defaultMessageCallback := callback }

/-- `message_promise_[unique_id]`, which makes a promise where there is none. -/
def promiseAt (d : MsgDispatcher) (uniqueId : BitVec 32) : Promise × MsgDispatcher :=
  match d.messagePromise uniqueId with
  | some p => (p, d)
  | none =>
    let p : Promise := ⟨d.promises, false⟩
    (p, { d with messagePromise := Function.update d.messagePromise uniqueId (some p),
                 promises := d.promises + 1 })

/-- `Dispatch`: the callback it calls, if any, and the state after. -/
def dispatch (d : MsgDispatcher) (msg : MsgForDispatch) :
    Except Fault (Option CallbackId × MsgDispatcher) :=
  let msgPtr := msg.baseMessagePtr
  let uniqueId := msgPtr.base.messageUniqueId
  if !d.enableSync ∨ uniqueId = asyncMessageUniqueId then
    match d.msgCallbacks[msgPtr.base.messageType.num.toNat]? with
    | none => .error .outOfBounds
    | some func => return (func.getD d.defaultMessageCallback, d)
  else
    let (p, d) := d.promiseAt uniqueId
    if (d.results p.shared).isSome then .error .promiseAlreadySatisfied
    else return (none, { d with
      results := Function.update d.results p.shared (some msgPtr)
      messagePromise := Function.update d.messagePromise uniqueId none })

/-- `SetSyncMessageId`: the shared state of the future it returns, and the message with the id it
has been given. -/
def setSyncMessageId (d : MsgDispatcher) (roleId : RoleId) (message : Message) :
    Except Fault (Nat × Message × MsgDispatcher) :=
  let uniqueId := d.messageIdMap roleId + 1
  let d := { d with messageIdMap := Function.update d.messageIdMap roleId uniqueId }
  let (p, d) := d.promiseAt uniqueId
  if p.retrieved then .error .futureAlreadyRetrieved
  else return (p.shared, message.withUniqueId uniqueId, { d with
    messagePromise := Function.update d.messagePromise uniqueId (some { p with retrieved := true }) })

/-! ## Where a message goes -/

/-- Once started, the dispatcher has all the workers an id can select. -/
structure Serving (d : MsgDispatcher) : Prop where
  pos : d.started = true → d.threadNum ≠ 0
  threads : d.started = true → d.threadNum.toNat ≤ d.msgThreads.length

theorem serving_new (threadNum : BitVec 32) (enableSync : Bool) : (new threadNum enableSync).Serving :=
  ⟨fun h => (by cases h), fun h => (by cases h)⟩

theorem serving_start {d : MsgDispatcher} (hd : d.Serving) (hpos : d.threadNum ≠ 0) :
    d.start.1.Serving := by
  unfold start
  split
  · exact hd
  · exact ⟨fun _ => hpos, fun _ => by simp⟩

theorem threadIndex_lt {d : MsgDispatcher} (hpos : d.threadNum ≠ 0) (dispatchId : RoleId) :
    d.threadIndex dispatchId < d.threadNum.toNat := by
  have hn : d.threadNum.toNat ≠ 0 := fun h => hpos (BitVec.eq_of_toNat_eq h)
  rw [threadIndex, BitVec.toNat_umod]
  exact Nat.mod_lt _ (Nat.pos_of_ne_zero hn)

/-- What `Push` leaves when it takes the message. -/
def pushed (d : MsgDispatcher) (msg : MsgForDispatch) : MsgDispatcher :=
  { d with msgThreads := d.msgThreads.modify (d.threadIndex msg.dispatchId) (·.push msg) }

/-- **`Push` on a started dispatcher** puts the message into one queue. -/
theorem push_of_started {d : MsgDispatcher} (hd : d.Serving) (hs : d.started = true)
    (dispatchId : RoleId) (m : Message) : d.push dispatchId (some m) = .ok (d.pushed ⟨dispatchId, m⟩) := by
  have hlt := Nat.lt_of_lt_of_le (threadIndex_lt (hd.pos hs) dispatchId) (hd.threads hs)
  rw [push, if_neg (by simp [hs]), if_neg (hd.pos hs), if_pos hlt]
  rfl

/-- `Push` never faults on a serving dispatcher. -/
theorem push_ok {d : MsgDispatcher} (hd : d.Serving) (dispatchId : RoleId) (msg : Option Message) :
    ∃ d', d.push dispatchId msg = .ok d' := by
  cases msg with
  | none => exact ⟨d, rfl⟩
  | some m =>
    by_cases hs : d.started = true
    · exact ⟨_, push_of_started hd hs dispatchId m⟩
    · exact ⟨d, by simp only [push, hs, Bool.not_false, if_true]; rfl⟩

theorem serving_pushed {d : MsgDispatcher} (hd : d.Serving) (msg : MsgForDispatch) :
    (d.pushed msg).Serving :=
  ⟨hd.pos, fun hs => by
    have := hd.threads hs
    simpa [pushed] using this⟩

/-! ## Promises -/

@[simp] theorem messageUniqueId_withUniqueId (m : Message) (uniqueId : BitVec 32) :
    (m.withUniqueId uniqueId).base.messageUniqueId = uniqueId := by
  cases m <;> rfl

section Promises

variable {d : MsgDispatcher} {roleId : RoleId} {message : Message}

/-- The state in which `SetSyncMessageId` has made a promise and taken its future. -/
def promised (d : MsgDispatcher) (roleId : RoleId) : MsgDispatcher :=
  { d with
    messageIdMap := Function.update d.messageIdMap roleId (d.messageIdMap roleId + 1)
    messagePromise := Function.update d.messagePromise (d.messageIdMap roleId + 1) (some ⟨d.promises, true⟩)
    promises := d.promises + 1 }

/-- **`SetSyncMessageId`** makes a promise under an id that has none. -/
theorem setSyncMessageId_of_none (h : d.messagePromise (d.messageIdMap roleId + 1) = none) :
    d.setSyncMessageId roleId message =
      .ok (d.promises, message.withUniqueId (d.messageIdMap roleId + 1), d.promised roleId) := by
  simp only [setSyncMessageId, promiseAt, h, Bool.false_eq_true, if_false, Function.update_idem]
  rfl

/-- Under an id whose promise has given its future away, it throws. -/
theorem setSyncMessageId_of_retrieved {p : Promise}
    (h : d.messagePromise (d.messageIdMap roleId + 1) = some p) (hp : p.retrieved = true) :
    d.setSyncMessageId roleId message = .error .futureAlreadyRetrieved := by
  simp only [setSyncMessageId, promiseAt, h, hp, if_true]

/-- The id it issues is the next of the role's. -/
theorem setSyncMessageId_uniqueId {future : Nat} {message' : Message} {d' : MsgDispatcher}
    (h : d.setSyncMessageId roleId message = .ok (future, message', d')) :
    message'.base.messageUniqueId = d.messageIdMap roleId + 1 := by
  simp only [setSyncMessageId] at h
  split at h
  · cases h
  · cases h
    exact messageUniqueId_withUniqueId ..

/-- The state in which a message has fulfilled a promise. -/
def fulfilled (d : MsgDispatcher) (p : Promise) (message : Message) : MsgDispatcher :=
  { d with
    results := Function.update d.results p.shared (some message)
    messagePromise := Function.update d.messagePromise message.base.messageUniqueId none }

/-- **`Dispatch` in synchronous mode** fulfils the promise under the message's id. -/
theorem dispatch_of_promise {msg : MsgForDispatch} {p : Promise} (hs : d.enableSync = true)
    (hid : msg.baseMessagePtr.base.messageUniqueId ≠ asyncMessageUniqueId)
    (hp : d.messagePromise msg.baseMessagePtr.base.messageUniqueId = some p)
    (hr : d.results p.shared = none) :
    d.dispatch msg = .ok (none, d.fulfilled p msg.baseMessagePtr) := by
  have hsync : ¬ ((!d.enableSync) = true ∨ msg.baseMessagePtr.base.messageUniqueId = asyncMessageUniqueId) := by
    rw [hs]
    exact not_or.mpr ⟨Bool.false_ne_true, hid⟩
  simp only [dispatch, if_neg hsync, promiseAt, hp, hr, Option.isSome_none, Bool.false_eq_true, if_false]
  rfl

/-- **`Dispatch` of a message without an id** calls the callback of its type. -/
theorem dispatch_of_async {msg : MsgForDispatch} {func : Option CallbackId}
    (hid : msg.baseMessagePtr.base.messageUniqueId = asyncMessageUniqueId)
    (hfunc : d.msgCallbacks[msg.baseMessagePtr.base.messageType.num.toNat]? = some func) :
    d.dispatch msg = .ok (some (func.getD d.defaultMessageCallback), d) := by
  unfold dispatch
  simp only [hid, or_true, if_true, hfunc]
  rfl

end Promises

/-- **What `Dispatch` does that does not throw.** -/
theorem dispatch_cases {d d' : MsgDispatcher} {msg : MsgForDispatch} {func : Option CallbackId}
    (h : d.dispatch msg = .ok (func, d')) :
    d' = d ∨ ∃ messagePromise promises results, d' = { d with
      messagePromise := messagePromise, promises := promises, results := results } := by
  unfold dispatch at h
  dsimp only at h
  split at h
  · split at h
    · cases h
    · cases h
      exact .inl rfl
  · unfold promiseAt at h
    split at h <;> dsimp only at h <;> split at h <;> cases h
    · exact .inr ⟨_, _, _, rfl⟩
    · exact .inr ⟨_, _, _, rfl⟩

/-- What `SetSyncMessageId` does that does not throw. -/
theorem setSyncMessageId_cases {d d' : MsgDispatcher} {roleId : RoleId} {message message' : Message}
    {future : Nat} (h : d.setSyncMessageId roleId message = .ok (future, message', d')) :
    message' = message.withUniqueId (d.messageIdMap roleId + 1) ∧
      ∃ messageIdMap messagePromise promises, d' = { d with
        messageIdMap := messageIdMap, messagePromise := messagePromise, promises := promises } := by
  unfold setSyncMessageId promiseAt at h
  cases hp : d.messagePromise (d.messageIdMap roleId + 1) with
  | none =>
    simp only [hp] at h
    cases h
    exact ⟨rfl, _, _, _, rfl⟩
  | some p =>
    simp only [hp] at h
    split at h <;> cases h
    exact ⟨rfl, _, _, _, rfl⟩

/-! ## Apart from the workers -/

/-- The dispatcher with other workers. -/
def withThreads (d : MsgDispatcher) (msgThreads : List MsgThread) : MsgDispatcher :=
  { d with msgThreads := msgThreads }

section Threads

variable (d : MsgDispatcher) (msgThreads : List MsgThread)

theorem promiseAt_withThreads (uniqueId : BitVec 32) :
    (d.withThreads msgThreads).promiseAt uniqueId =
      ((d.promiseAt uniqueId).1, (d.promiseAt uniqueId).2.withThreads msgThreads) := by
  unfold promiseAt withThreads
  dsimp only
  split <;> rfl

/-- `Dispatch` does not look at the workers. -/
theorem dispatch_withThreads (msg : MsgForDispatch) :
    (d.withThreads msgThreads).dispatch msg =
      (d.dispatch msg).map fun r => (r.1, r.2.withThreads msgThreads) := by
  have hsync : (d.withThreads msgThreads).enableSync = d.enableSync := rfl
  have hcallbacks : (d.withThreads msgThreads).msgCallbacks = d.msgCallbacks := rfl
  unfold dispatch
  simp only [promiseAt_withThreads, hsync, hcallbacks]
  by_cases hasync : (!d.enableSync) = true ∨ msg.baseMessagePtr.base.messageUniqueId = asyncMessageUniqueId
  · rw [if_pos hasync, if_pos hasync]
    cases d.msgCallbacks[msg.baseMessagePtr.base.messageType.num.toNat]? <;> rfl
  · rw [if_neg hasync, if_neg hasync]
    obtain ⟨p, d'⟩ := d.promiseAt msg.baseMessagePtr.base.messageUniqueId
    have hresults : (d'.withThreads msgThreads).results = d'.results := rfl
    by_cases hset : (d'.results p.shared).isSome = true
    · simp only [hresults, if_pos hset]
      rfl
    · simp only [hresults, if_neg hset]
      rfl

/-- Nor does `SetSyncMessageId`. -/
theorem setSyncMessageId_withThreads (roleId : RoleId) (message : Message) :
    (d.withThreads msgThreads).setSyncMessageId roleId message =
      (d.setSyncMessageId roleId message).map fun r => (r.1, r.2.1, r.2.2.withThreads msgThreads) := by
  unfold setSyncMessageId
  have hat := promiseAt_withThreads
    { d with messageIdMap := Function.update d.messageIdMap roleId (d.messageIdMap roleId + 1) }
    msgThreads (d.messageIdMap roleId + 1)
  dsimp only [withThreads] at hat ⊢
  rw [hat]
  split <;> rfl

end Threads

end MsgDispatcher

end GameNetwork
