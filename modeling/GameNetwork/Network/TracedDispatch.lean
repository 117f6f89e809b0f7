import GameNetwork.Network.DispatchOrder

/-!
# A dispatcher with a note on every message

A started dispatcher with a note on every message it is given, such as where
the message came from. The workers themselves know nothing of the notes;
`erase` leaves them out, and what is left goes through a step of `Dispatching`
(`erase_pushOf`, `erase_tryPop`, `erase_finished`).

The lanes (`Lib.Ordered`) are those of the workers, with the notes.
-/

namespace GameNetwork

open Lib

structure Traced (ν : Type) where
  msg : MsgForDispatch
  note : ν
  deriving DecidableEq, Repr

structure TracedDispatcher (ν : Type) where
  dispatcher : MsgDispatcher
  /-- The workers. -/
  lanes : List (Lane (Traced ν))
  /-- The messages given to `Push`, in order. -/
  pushed : List (Traced ν)
  /-- The messages that workers have taken, in order. -/
  taken : List (Traced ν)
  /-- The messages whose dispatch has returned, in order. -/
  handled : List (Traced ν)

namespace TracedDispatcher

variable {ν : Type}

/-- A dispatcher without synchronous mode, after its first `Start`. -/
def new (threadNum : BitVec 32) : TracedDispatcher ν where
  dispatcher := (MsgDispatcher.new threadNum false).start.1
  lanes := List.replicate threadNum.toNat ⟨[], none⟩
  pushed := []
  taken := []
  handled := []

/-- The message is noted as given to the worker it selects. -/
def noted (d : TracedDispatcher ν) (dispatcher : MsgDispatcher) (x : Traced ν) :
    TracedDispatcher ν where
  dispatcher := dispatcher
  lanes := d.lanes.modify (d.dispatcher.threadIndex x.msg.dispatchId) (·.enqueue x)
  pushed := d.pushed ++ [x]
  taken := d.taken
  handled := d.handled

/-- `Push`. -/
def push (d : TracedDispatcher ν) (note : ν) (dispatchId : RoleId) (msg : Message) :
    Except Fault (TracedDispatcher ν) := do
  let dispatcher ← d.dispatcher.push dispatchId (some msg)
  return d.noted dispatcher ⟨⟨dispatchId, msg⟩, note⟩

/-- The message that worker `k` takes when it tries to. -/
def next (d : TracedDispatcher ν) (k : Nat) : Option (Traced ν) := d.lanes[k]?.bind Lane.next

/-- Worker `k` tries to take a message. -/
def tryPop (d : TracedDispatcher ν) (k : Nat) : TracedDispatcher ν :=
  { d with dispatcher := { d.dispatcher with msgThreads := d.dispatcher.msgThreads.modify k .tryPop }
           lanes := d.lanes.modify k .take
           taken := d.taken ++ (d.next k).toList }

/-- The message that worker `k` is dispatching. -/
def current (d : TracedDispatcher ν) (k : Nat) : Option (Traced ν) := d.lanes[k]?.bind (·.current)

/-- Worker `k` has the message it took dispatched. -/
def dispatch (d : TracedDispatcher ν) (k : Nat) : Except Fault (TracedDispatcher ν) :=
  match d.dispatcher.msgThreads[k]?.bind (·.dispatching) with
  | none => return d
  | some msg => do
    let (_, dispatcher) ← d.dispatcher.dispatch msg
    return { d with
      dispatcher := { dispatcher with msgThreads := dispatcher.msgThreads.modify k .finish }
      lanes := d.lanes.modify k .finish
      handled := d.handled ++ (d.current k).toList }

/-- The messages in the queues. -/
def queued (d : TracedDispatcher ν) : List (Traced ν) := d.lanes.flatMap Lane.queue

/-- The messages with the workers, taken or queued. -/
def waiting (d : TracedDispatcher ν) : List (Traced ν) := d.lanes.flatMap Lane.items

/-- The dispatcher and the history of its run, without the notes. -/
def erase (d : TracedDispatcher ν) : Dispatching :=
  ⟨d.dispatcher, [], d.pushed.map (·.msg), d.handled.map (·.msg)⟩

/-- A lane without the notes. -/
def eraseLane (l : Lane (Traced ν)) : Lane MsgForDispatch := ⟨l.queue.map (·.msg), l.current.map (·.msg)⟩

/-- The lane of a message. -/
def laneOf (threadNum : BitVec 32) (x : Traced ν) : Nat := Dispatching.laneOf threadNum x.msg

structure Inv (threadNum : BitVec 32) (d : TracedDispatcher ν) : Prop where
  erased : Dispatching.Inv threadNum d.erase
  lanes_eq : d.lanes.map eraseLane = Dispatching.lanes d.dispatcher
  ordered : Ordered (laneOf threadNum) d.lanes d.pushed d.handled
  begun : Begun (laneOf threadNum) d.lanes d.pushed d.taken
  callbacks : d.dispatcher.msgCallbacks.length = MessageType.typeMax.num.toNat
  /-- There is an entry for the type of every message. -/
  known : ∀ x ∈ d.pushed, x.msg.baseMessagePtr.base.messageType.num < MessageType.typeMax.num

theorem inv_new {threadNum : BitVec 32} (hpos : threadNum ≠ 0) :
    Inv threadNum (new threadNum : TracedDispatcher ν) where
  erased := Dispatching.inv_started hpos
  lanes_eq := by
    have hlanes : Dispatching.lanes (new threadNum : TracedDispatcher ν).dispatcher =
        List.replicate threadNum.toNat ⟨[], none⟩ := List.map_replicate
    rw [hlanes, new, List.map_replicate]
    rfl
  ordered := .empty _
  begun := by
    show Ordered _ ((List.replicate threadNum.toNat _).map Lane.finish) _ _
    rw [List.map_replicate]
    exact .empty _
  callbacks := List.length_replicate
  known := fun x hx => by cases hx

section Inv

variable {threadNum : BitVec 32} {d : TracedDispatcher ν}

theorem Inv.length_lanes (h : Inv threadNum d) :
    d.lanes.length = d.dispatcher.msgThreads.length := by
  have := congrArg List.length h.lanes_eq
  rwa [Dispatching.lanes, List.length_map, List.length_map] at this

theorem Inv.threadIndex_eq (h : Inv threadNum d) (x : Traced ν) :
    d.dispatcher.threadIndex x.msg.dispatchId = laneOf threadNum x := by
  have hnum : d.dispatcher.threadNum = threadNum := h.erased.threadNum_eq
  rw [MsgDispatcher.threadIndex, hnum]
  rfl

theorem Inv.index_lt (h : Inv threadNum d) (dispatchId : RoleId) :
    (dispatchId % threadNum).toNat < d.lanes.length := by
  have hpos : d.dispatcher.threadNum ≠ 0 := h.erased.serving.pos h.erased.started
  have hlt := MsgDispatcher.threadIndex_lt hpos dispatchId
  have hle := h.erased.serving.threads h.erased.started
  have heq : d.dispatcher.threadNum = threadNum := h.erased.threadNum_eq
  rw [MsgDispatcher.threadIndex, heq] at hlt
  rw [h.length_lanes]
  exact Nat.lt_of_lt_of_le hlt (heq ▸ hle)

/-- What a worker is dispatching, with its note. -/
theorem Inv.current_map (h : Inv threadNum d) (k : Nat) :
    (d.current k).map (·.msg) = d.dispatcher.msgThreads[k]?.bind (·.dispatching) := by
  have hk := congrArg (·[k]?) h.lanes_eq
  simp only [Dispatching.lanes, List.getElem?_map] at hk
  rw [current]
  cases hl : d.lanes[k]? with
  | none =>
    rw [hl] at hk
    have hnone : d.dispatcher.msgThreads[k]? = none := Option.map_eq_none_iff.mp hk.symm
    rw [hnone]
    rfl
  | some l =>
    rw [hl] at hk
    obtain ⟨t, ht, heq⟩ := Option.map_eq_some_iff.mp hk.symm
    rw [ht]
    exact congrArg Lane.current heq.symm

/-- One worker changes, with and without the notes. -/
theorem Inv.lanes_modify (h : Inv threadNum d) {f : Lane (Traced ν) → Lane (Traced ν)}
    {g : MsgThread → MsgThread} {u : Lane MsgForDispatch → Lane MsgForDispatch}
    (hf : ∀ l, eraseLane (f l) = u (eraseLane l))
    (hg : ∀ t, Dispatching.lane (g t) = u (Dispatching.lane t)) (k : Nat) :
    (d.lanes.modify k f).map eraseLane = (d.dispatcher.msgThreads.modify k g).map Dispatching.lane := by
  rw [map_modify hf, map_modify hg, h.lanes_eq]
  rfl

/-- What a worker is dispatching was pushed, and is the first of its lane. -/
theorem Inv.of_current (h : Inv threadNum d) {k : Nat} {x : Traced ν} (hk : d.current k = some x) :
    x ∈ d.pushed ∧ ∃ l, d.lanes[k]? = some l ∧ l.current = some x := by
  obtain ⟨l, hl, hx⟩ := Option.bind_eq_some_iff.mp hk
  refine ⟨?_, l, hl, hx⟩
  have hin : x ∈ ofLane (laneOf threadNum) k d.pushed := by
    rw [← h.ordered.order k l hl, Lane.items_finish hx]
    exact List.mem_append_right _ List.mem_cons_self
  exact (List.mem_filter.mp hin).1

/-- Every pushed message has a callback to be dispatched to. -/
theorem Inv.dispatcher_dispatch (h : Inv threadNum d) {x : Traced ν} (hx : x ∈ d.pushed) :
    ∃ func, d.dispatcher.dispatch x.msg = .ok (func, d.dispatcher) := by
  have hasync : d.dispatcher.enableSync = false := h.erased.async
  have hlt : x.msg.baseMessagePtr.base.messageType.num.toNat < d.dispatcher.msgCallbacks.length := by
    rw [h.callbacks]
    exact h.known x hx
  unfold MsgDispatcher.dispatch
  simp only [hasync, Bool.not_false, true_or, if_true, List.getElem?_eq_getElem hlt]
  exact ⟨_, rfl⟩

/-! ### The operations -/

/-- What `Push` leaves. -/
def pushOf (d : TracedDispatcher ν) (x : Traced ν) : TracedDispatcher ν :=
  d.noted (d.dispatcher.pushed x.msg) x

theorem Inv.push_eq (h : Inv threadNum d) (note : ν) (dispatchId : RoleId) (msg : Message) :
    d.push note dispatchId msg = .ok (d.pushOf ⟨⟨dispatchId, msg⟩, note⟩) := by
  have hpush := MsgDispatcher.push_of_started h.erased.serving h.erased.started dispatchId msg
  rw [push, show d.dispatcher.push dispatchId (some msg) = _ from hpush]
  rfl

/-- `Push`, without the note. -/
theorem erase_pushOf (h : Inv threadNum d) (x : Traced ν) :
    d.erase.step (.push x.msg.dispatchId (some x.msg.baseMessagePtr)) = .ok (d.pushOf x).erase := by
  have hpush : d.erase.dispatcher.push x.msg.dispatchId (some x.msg.baseMessagePtr) =
      .ok (d.dispatcher.pushed x.msg) :=
    MsgDispatcher.push_of_started h.erased.serving h.erased.started _ _
  have hmap : (d.pushed ++ [x]).map (·.msg) = d.pushed.map (·.msg) ++ [x.msg] := List.map_append
  unfold Dispatching.step Dispatching.pushOne erase pushOf noted
  simp only [hmap]
  rw [show MsgDispatcher.push d.dispatcher _ _ = _ from hpush]
  rfl

theorem inv_pushOf (h : Inv threadNum d) {x : Traced ν}
    (hx : x.msg.baseMessagePtr.base.messageType.num < MessageType.typeMax.num) :
    Inv threadNum (d.pushOf x) where
  erased := Dispatching.inv_step h.erased (erase_pushOf h x)
  lanes_eq := by
    refine h.lanes_modify (u := (·.enqueue x.msg)) (fun l => ?_) (fun _ => rfl) _
    unfold eraseLane Lane.enqueue
    rw [List.map_append]
    rfl
  ordered := by
    show Ordered _ (d.lanes.modify (d.dispatcher.threadIndex x.msg.dispatchId) _) _ _
    rw [h.threadIndex_eq]
    exact h.ordered.enqueue x
  begun := by
    show Begun _ (d.lanes.modify (d.dispatcher.threadIndex x.msg.dispatchId) _) _ _
    rw [h.threadIndex_eq]
    exact h.begun.enqueue x
  callbacks := h.callbacks
  known := fun y hy => by
    rcases List.mem_append.mp hy with hy | hy
    · exact h.known y hy
    · rw [List.mem_singleton.mp hy]
      exact hx

theorem erase_tryPop (d : TracedDispatcher ν) (k : Nat) :
    d.erase.step (.tryPop k) = .ok (d.tryPop k).erase := rfl

theorem modify_take_of_none {k : Nat} (hk : d.next k = none) : d.lanes.modify k Lane.take = d.lanes := by
  apply List.ext_getElem?
  intro j
  rw [List.getElem?_modify]
  by_cases hj : k = j
  · subst hj
    unfold next at hk
    cases hl : d.lanes[k]? with
    | none => rfl
    | some l =>
      rw [hl] at hk
      simp [Lane.take_of_next_none hk]
  · simp [hj]

theorem inv_tryPop (h : Inv threadNum d) (k : Nat) : Inv threadNum (d.tryPop k) where
  erased := Dispatching.inv_step h.erased (erase_tryPop d k)
  lanes_eq := by
    refine h.lanes_modify (fun l => ?_) Dispatching.lane_tryPop k
    obtain ⟨queue, current⟩ := l
    cases current with
    | some => rfl
    | none => cases queue <;> rfl
  ordered := h.ordered.take k
  begun := by
    show Begun _ (d.lanes.modify k _) _ (d.taken ++ (d.next k).toList)
    cases hk : d.next k with
    | none =>
      rw [modify_take_of_none hk, Option.toList_none, List.append_nil]
      exact h.begun
    | some x =>
      obtain ⟨l, hl, hx⟩ := Option.bind_eq_some_iff.mp hk
      exact h.begun.take hl hx
  callbacks := h.callbacks
  known := h.known

/-- What the end of a dispatch leaves. -/
def finished (d : TracedDispatcher ν) (k : Nat) (x : Traced ν) : TracedDispatcher ν where
  dispatcher := { d.dispatcher with msgThreads := d.dispatcher.msgThreads.modify k .finish }
  lanes := d.lanes.modify k .finish
  pushed := d.pushed
  taken := d.taken
  handled := d.handled ++ [x]

/-- **A dispatch never fails.** -/
theorem Inv.dispatch_eq (h : Inv threadNum d) (k : Nat) :
    d.dispatch k = .ok ((d.current k).elim d (d.finished k)) := by
  have hcurrent := h.current_map k
  unfold dispatch
  rw [← hcurrent]
  cases hk : d.current k with
  | none => rfl
  | some x =>
    obtain ⟨func, hfunc⟩ := h.dispatcher_dispatch (h.of_current hk).1
    show (d.dispatcher.dispatch x.msg).bind _ = _
    rw [hfunc]
    rfl

/-- The end of a dispatch, without the note. -/
theorem erase_finished (h : Inv threadNum d) {k : Nat} {x : Traced ν} (hk : d.current k = some x) :
    d.erase.step (.dispatch k) = .ok (d.finished k x).erase := by
  obtain ⟨func, hfunc⟩ := h.dispatcher_dispatch (h.of_current hk).1
  have hcurrent := h.current_map k
  have hmap : (d.handled ++ [x]).map (·.msg) = d.handled.map (·.msg) ++ [x.msg] := List.map_append
  rw [hk] at hcurrent
  unfold Dispatching.step erase finished
  simp only [← hcurrent, Option.map_some, hmap]
  rw [hfunc]
  rfl

theorem inv_finished (h : Inv threadNum d) {k : Nat} {x : Traced ν} (hk : d.current k = some x) :
    Inv threadNum (d.finished k x) := by
  obtain ⟨-, l, hl, hx⟩ := h.of_current hk
  exact ⟨Dispatching.inv_step h.erased (erase_finished h hk),
    h.lanes_modify (u := Lane.finish) (fun _ => rfl) (fun _ => rfl) k, h.ordered.finish hl hx,
    h.begun.finish k, h.callbacks, h.known⟩

/-- The table of the callbacks changes. -/
theorem Inv.setCallbacks (h : Inv threadNum d) {msgCallbacks : List (Option CallbackId)}
    (hlen : msgCallbacks.length = MessageType.typeMax.num.toNat) :
    Inv threadNum { d with dispatcher := { d.dispatcher with msgCallbacks := msgCallbacks } } where
  erased := ⟨h.erased.started, ⟨h.erased.serving.pos, h.erased.serving.threads⟩, h.erased.async,
    h.erased.threadNum_eq, h.erased.ordered⟩
  lanes_eq := h.lanes_eq
  ordered := h.ordered
  begun := h.begun
  callbacks := hlen
  known := h.known

/-! ### What waits for a role -/

/-- The messages pushed under a dispatch id whose dispatch has not returned, in order. -/
def waitingFor (d : TracedDispatcher ν) (dispatchId : RoleId) : List (Traced ν) :=
  Lib.waitingFor (fun x => x.msg.dispatchId) d.dispatcher.threadIndex d.lanes dispatchId

theorem Inv.mem_waitingFor (h : Inv threadNum d) {dispatchId : RoleId} {x : Traced ν}
    (hx : x ∈ d.waitingFor dispatchId) : x ∈ d.pushed ∧ x.msg.dispatchId = dispatchId := by
  obtain ⟨hx, hkey⟩ := List.mem_filter.mp hx
  refine ⟨?_, of_decide_eq_true hkey⟩
  cases hl : d.lanes[d.dispatcher.threadIndex dispatchId]? with
  | none => rw [hl] at hx; cases hx
  | some l =>
    rw [hl] at hx
    have hmem : x ∈ ofLane (laneOf threadNum) (d.dispatcher.threadIndex dispatchId) d.pushed := by
      rw [← h.ordered.order _ l hl]
      exact List.mem_append_right _ hx
    exact List.mem_of_mem_filter hmem

theorem Inv.waitingFor_pushOf (h : Inv threadNum d) (x : Traced ν) (dispatchId : RoleId) :
    (d.pushOf x).waitingFor dispatchId =
      d.waitingFor dispatchId ++ if x.msg.dispatchId = dispatchId then [x] else [] := by
  have hlt : d.dispatcher.threadIndex x.msg.dispatchId < d.lanes.length := by
    rw [h.threadIndex_eq]
    exact h.index_lt x.msg.dispatchId
  have henqueue : (d.pushOf x).waitingFor dispatchId =
      d.waitingFor dispatchId ++ ofKey (fun x => x.msg.dispatchId) dispatchId [x] :=
    waitingFor_enqueue hlt dispatchId
  rw [henqueue, ofKey_singleton]

theorem waitingFor_tryPop (d : TracedDispatcher ν) (k : Nat) (dispatchId : RoleId) :
    (d.tryPop k).waitingFor dispatchId = d.waitingFor dispatchId :=
  waitingFor_modify Lane.items_take k dispatchId

theorem Inv.waitingFor_finished (h : Inv threadNum d) {k : Nat} {x : Traced ν}
    (hk : d.current k = some x) (dispatchId : RoleId) :
    d.waitingFor dispatchId =
      (if x.msg.dispatchId = dispatchId then [x] else []) ++ (d.finished k x).waitingFor dispatchId := by
  obtain ⟨-, l, hl, hx⟩ := h.of_current hk
  have hown : d.dispatcher.threadIndex x.msg.dispatchId = k := by
    rw [h.threadIndex_eq]
    refine h.ordered.own k l hl x ?_
    rw [Lane.items, hx]
    exact List.mem_append_left _ (List.mem_singleton_self x)
  have hfinish : d.waitingFor dispatchId =
      ofKey (fun x => x.msg.dispatchId) dispatchId [x] ++ (d.finished k x).waitingFor dispatchId :=
    waitingFor_finish hl hx hown dispatchId
  rw [hfinish, ofKey_singleton]

end Inv

end TracedDispatcher

end GameNetwork
