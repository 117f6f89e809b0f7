import GameNetwork.Lib.Run
import GameNetwork.Network.MsgDispatcher

/-!
# The order of dispatch

A started dispatcher with any number of threads that push and its workers, in
any interleaving. `Dispatching` is the dispatcher with the calls of the vector
form that are under way, and the history of the run: every message given to
`Push`, and every message whose dispatch has returned.

The workers' queues are lanes (`Lib.Ordered`), the lane of a message being a
function of its dispatch id alone. `dispatch_fifo` reads off what this means
for one id.
-/

namespace GameNetwork

open Lib

structure Dispatching where
  dispatcher : MsgDispatcher
  /-- Calls of the vector form under way, with the ids they still have to push to. -/
  underWay : List (List RoleId × Option Message)
  /-- The messages given to `Push`, in order. -/
  pushed : List MsgForDispatch
  /-- The messages whose dispatch has returned, in order. -/
  dispatched : List MsgForDispatch

inductive DispatchEvent where
  /-- `Push(dispatch_id, msg)`. -/
  | push (dispatchId : RoleId) (msg : Option Message)
  /-- `Push(dispatch_ids, msg)` is called. -/
  | pushAll (dispatchIds : List RoleId) (msg : Option Message)
  /-- The `i`-th vector call under way pushes to its next id. -/
  | pushNext (i : Nat)
  | start
  | setMsgCallback (msgType : MessageType) (callback : CallbackId)
  | setDefaultMsgCallback (callback : CallbackId)
  /-- Worker `k` tries to take a message. -/
  | tryPop (k : Nat)
  /-- Worker `k` has the message it took dispatched. -/
  | dispatch (k : Nat)
  deriving DecidableEq, Repr

namespace Dispatching

/-- One call of `Push`. -/
def pushOne (s : Dispatching) (dispatchId : RoleId) (msg : Option Message) : Except Fault Dispatching := do
  let d ← s.dispatcher.push dispatchId msg
  return { s with dispatcher := d
                  pushed := s.pushed ++ (msg.map fun m => ⟨dispatchId, m⟩).toList }

/-- The dispatcher with one worker changed. -/
def onThread (s : Dispatching) (k : Nat) (f : MsgThread → MsgThread) : MsgDispatcher :=
  { s.dispatcher with msgThreads := s.dispatcher.msgThreads.modify k f }

def step (s : Dispatching) : DispatchEvent → Except Fault Dispatching
  | .push dispatchId msg => s.pushOne dispatchId msg
  | .pushAll dispatchIds msg => return { s with underWay := s.underWay ++ [(dispatchIds, msg)] }
  | .pushNext i =>
    match s.underWay[i]? with
    | some (dispatchId :: dispatchIds, msg) =>
      { s with underWay := s.underWay.set i (dispatchIds, msg) }.pushOne dispatchId msg
    | _ => return s
  | .start => return { s with dispatcher := s.dispatcher.start.1 }
  | .setMsgCallback msgType callback => do
    let d ← s.dispatcher.setMsgCallback msgType callback
    return { s with dispatcher := d }
  | .setDefaultMsgCallback callback =>
    return { s with dispatcher := s.dispatcher.setDefaultMsgCallback callback }
  | .tryPop k => return { s with dispatcher := s.onThread k .tryPop }
  | .dispatch k =>
    match s.dispatcher.msgThreads[k]?.bind (·.dispatching) with
    | none => return s
    | some msg => do
      let (_, d) ← s.dispatcher.dispatch msg
      return { s with dispatcher := { s with dispatcher := d }.onThread k .finish
                      dispatched := s.dispatched ++ [msg] }

/-- A dispatcher without synchronous mode, after its first `Start`. -/
def started (threadNum : BitVec 32) : Dispatching where
  dispatcher := (MsgDispatcher.new threadNum false).start.1
  underWay := []
  pushed := []
  dispatched := []

/-- The messages that are being dispatched. -/
def beingDispatched (s : Dispatching) : List MsgForDispatch :=
  s.dispatcher.msgThreads.flatMap (·.dispatching.toList)

/-- The messages in the queues. -/
def queued (s : Dispatching) : List MsgForDispatch := s.dispatcher.msgThreads.flatMap (·.msgQueue)

/-- The messages of one dispatch id. -/
def ofId (dispatchId : RoleId) (msgs : List MsgForDispatch) : List MsgForDispatch :=
  msgs.filter fun msg => msg.dispatchId = dispatchId

/-- What holds of the messages of one dispatch id. -/
structure InOrder (s : Dispatching) (dispatchId : RoleId) : Prop where
  /-- The id selects a worker. -/
  index_lt : s.dispatcher.threadIndex dispatchId < s.dispatcher.msgThreads.length
  /-- Nothing is lost, duplicated or overtaken. -/
  order : ofId dispatchId s.dispatched ++
    (ofId dispatchId s.beingDispatched ++ ofId dispatchId s.queued) = ofId dispatchId s.pushed
  /-- One at a time. -/
  single : (ofId dispatchId s.beingDispatched).length ≤ 1

/-! ## The workers as lanes -/

def lane (t : MsgThread) : Lane MsgForDispatch := ⟨t.msgQueue, t.dispatching⟩

/-- The workers of a dispatcher as lanes. -/
def lanes (d : MsgDispatcher) : List (Lane MsgForDispatch) := d.msgThreads.map lane

theorem lane_tryPop (t : MsgThread) : lane t.tryPop = (lane t).take := by
  obtain ⟨queue, current⟩ := t
  cases current with
  | some => rfl
  | none => cases queue <;> rfl

/-- The lane of a message, by its dispatch id. -/
def laneOf (threadNum : BitVec 32) (msg : MsgForDispatch) : Nat := (msg.dispatchId % threadNum).toNat

/-- What every step keeps. -/
structure Inv (threadNum : BitVec 32) (s : Dispatching) : Prop where
  started : s.dispatcher.started = true
  serving : s.dispatcher.Serving
  async : s.dispatcher.enableSync = false
  threadNum_eq : s.dispatcher.threadNum = threadNum
  ordered : Ordered (laneOf threadNum) (lanes s.dispatcher) s.pushed s.dispatched

theorem inv_started {threadNum : BitVec 32} (hpos : threadNum ≠ 0) :
    Inv threadNum (Dispatching.started threadNum) where
  started := rfl
  serving := MsgDispatcher.serving_start (MsgDispatcher.serving_new _ _) hpos
  async := rfl
  threadNum_eq := rfl
  ordered := by
    have h : lanes (Dispatching.started threadNum).dispatcher =
        List.replicate threadNum.toNat ⟨[], none⟩ := List.map_replicate
    rw [h]
    exact .empty _

section Step

variable {threadNum : BitVec 32} {s s' : Dispatching}

/-- One `Push` keeps the order. -/
theorem inv_pushOne (h : Inv threadNum s) {dispatchId : RoleId} {msg : Option Message}
    (hs : s.pushOne dispatchId msg = .ok s') : Inv threadNum s' := by
  unfold pushOne at hs
  cases msg with
  | none =>
    cases hs
    exact ⟨h.started, h.serving, h.async, h.threadNum_eq, by simpa using h.ordered⟩
  | some m =>
    rw [MsgDispatcher.push_of_started h.serving h.started] at hs
    cases hs
    refine ⟨h.started, MsgDispatcher.serving_pushed h.serving _, h.async, h.threadNum_eq, ?_⟩
    have hlanes : lanes (s.dispatcher.pushed ⟨dispatchId, m⟩) =
        (lanes s.dispatcher).modify (laneOf threadNum ⟨dispatchId, m⟩) (·.enqueue ⟨dispatchId, m⟩) := by
      rw [laneOf, ← h.threadNum_eq]
      exact map_modify (f := (·.push ⟨dispatchId, m⟩)) (h := lane) (g := (·.enqueue ⟨dispatchId, m⟩))
        (fun _ => rfl) _ _
    simp only [hlanes]
    exact h.ordered.enqueue _

/-- Without synchronous mode, `Dispatch` changes nothing in the dispatcher. -/
theorem dispatch_async {d d' : MsgDispatcher} {msg : MsgForDispatch} {func : Option CallbackId}
    (ha : d.enableSync = false) (h : d.dispatch msg = .ok (func, d')) : d' = d := by
  unfold MsgDispatcher.dispatch at h
  simp only [ha, Bool.not_false, true_or, if_true] at h
  split at h
  · cases h
  · cases h; rfl

/-- **One step keeps the order.** -/
theorem inv_step (h : Inv threadNum s) {e : DispatchEvent} (hs : s.step e = .ok s') :
    Inv threadNum s' := by
  cases e with
  | push => exact inv_pushOne h hs
  | pushAll =>
    cases hs
    exact ⟨h.started, h.serving, h.async, h.threadNum_eq, h.ordered⟩
  | pushNext i =>
    simp only [step] at hs
    split at hs
    · refine inv_pushOne ?_ hs
      exact ⟨h.started, h.serving, h.async, h.threadNum_eq, h.ordered⟩
    · cases hs; exact h
  | start =>
    cases hs
    have hstart : s.dispatcher.start.1 = s.dispatcher := by rw [MsgDispatcher.start, if_pos h.started]
    rw [hstart]
    exact h
  | setMsgCallback msgType callback =>
    simp only [step, MsgDispatcher.setMsgCallback] at hs
    split at hs
    · cases hs
      exact ⟨h.started, ⟨h.serving.pos, h.serving.threads⟩, h.async, h.threadNum_eq, h.ordered⟩
    · cases hs
  | setDefaultMsgCallback =>
    cases hs
    exact ⟨h.started, ⟨h.serving.pos, h.serving.threads⟩, h.async, h.threadNum_eq, h.ordered⟩
  | tryPop k =>
    cases hs
    refine ⟨h.started, ⟨h.serving.pos, fun hst => ?_⟩, h.async, h.threadNum_eq, ?_⟩
    · simpa [onThread] using h.serving.threads hst
    · have hlanes : lanes (s.onThread k .tryPop) = (lanes s.dispatcher).modify k Lane.take :=
        map_modify lane_tryPop _ _
      simp only [hlanes]
      exact h.ordered.take k
  | dispatch k =>
    simp only [step] at hs
    split at hs
    · cases hs; exact h
    · next msg hmsg =>
      obtain ⟨t, ht, hcur⟩ := Option.bind_eq_some_iff.mp hmsg
      obtain ⟨⟨func, d⟩, hd, hs⟩ := bind_eq_ok.mp hs
      obtain rfl := dispatch_async h.async hd
      cases hs
      refine ⟨h.started, ⟨h.serving.pos, fun hst => ?_⟩, h.async, h.threadNum_eq, ?_⟩
      · simpa [onThread] using h.serving.threads hst
      · have hlanes : lanes ({ s with dispatcher := s.dispatcher }.onThread k .finish) =
            (lanes s.dispatcher).modify k Lane.finish :=
          map_modify (f := MsgThread.finish) (h := lane) (fun _ => rfl) _ _
        have hlane : (lanes s.dispatcher)[k]? = some (lane t) := by
          rw [lanes, List.getElem?_map, ht]
          rfl
        simp only [hlanes]
        exact h.ordered.finish hlane hcur

end Step

theorem inv_run {threadNum : BitVec 32} (hpos : threadNum ≠ 0) {events : List DispatchEvent}
    {s : Dispatching} (h : run step (started threadNum) events = .ok s) : Inv threadNum s :=
  run_invariant (G := fun _ _ => True) (fun _ _ _ hi _ hs => inv_step hi hs) (inv_started hpos)
    (fun _ _ _ _ _ => trivial) h

/-- **First in, first out, exactly once, one at a time**, for every dispatch id in every state of
every run of a started dispatcher. -/
theorem dispatch_fifo {threadNum : BitVec 32} (hpos : threadNum ≠ 0) {events : List DispatchEvent}
    {s : Dispatching} (h : run step (started threadNum) events = .ok s) (dispatchId : RoleId) :
    s.InOrder dispatchId := by
  have hinv := inv_run hpos h
  have hlt : s.dispatcher.threadIndex dispatchId < s.dispatcher.msgThreads.length := by
    have := MsgDispatcher.threadIndex_lt (hinv.threadNum_eq ▸ hpos) dispatchId
    exact Nat.lt_of_lt_of_le this (hinv.serving.threads hinv.started)
  obtain ⟨horder, hsingle⟩ := hinv.ordered.perKey MsgForDispatch.dispatchId
    (fun dispatchId => (dispatchId % threadNum).toNat) (fun _ => rfl) (a := dispatchId)
    (by rw [lanes, List.length_map]; rw [MsgDispatcher.threadIndex, hinv.threadNum_eq] at hlt; exact hlt)
  have hcur : (lanes s.dispatcher).flatMap (fun l => l.current.toList) = s.beingDispatched := by
    rw [lanes, List.flatMap_map]; rfl
  have hqueue : (lanes s.dispatcher).flatMap Lane.queue = s.queued := by
    rw [lanes, List.flatMap_map]; rfl
  rw [hcur, hqueue] at horder
  rw [hcur] at hsingle
  exact ⟨hlt, horder, hsingle⟩

/-- Two workers, and three pings under two ids, one of them negative. -/
def threePings : List DispatchEvent :=
  [.push 5 (some (.ping PingMessage.new)), .push (-2) (some (.ping PingMessage.new)),
    .pushAll [5] (some (.ping PingMessage.new)), .tryPop 1, .pushNext 0, .dispatch 1]

theorem threePings_in_order :
    ∃ s, run step (started 2) threePings = .ok s ∧ s.InOrder 5 ∧ s.InOrder (-2) := by
  have hpos : (2 : BitVec 32) ≠ 0 := by decide
  have h : run step (started 2) threePings = .ok _ := rfl
  exact ⟨_, h, dispatch_fifo hpos h 5, dispatch_fifo hpos h (-2)⟩

end Dispatching

end GameNetwork
