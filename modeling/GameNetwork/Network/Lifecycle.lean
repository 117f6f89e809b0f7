import GameNetwork.Lib.Run
import GameNetwork.Network.MsgDispatcher

/-!
# The life cycle of a dispatcher

One thread calls `Start`, `Stop` and `Push`; the workers go through the loop of
`MsgThread::Running` in between. `Stop` joins one thread of `msg_threads_` after
the other, and waits for each to leave its loop.

`Start` appends workers and `Stop` leaves the ones it has joined where they
are. `Alive` says what should hold all the same, and `lifecycle_iff` that it
does as long as `Start` and `Stop` are called while no worker has been joined.
-/

namespace GameNetwork

open Lib

/-- Where a worker is in `Running`. -/
inductive WorkerPc where
  /-- At the condition of the loop. -/
  | check
  /-- In `TryPop`. -/
  | pop
  /-- In `dispatch_func_`. -/
  | dispatching
  | exited
  deriving DecidableEq, Repr

/-- The thread of a `MsgThread`. -/
structure Worker where
  pc : WorkerPc
  joined : Bool
  deriving DecidableEq, Repr

structure Lifecycle where
  dispatcher : MsgDispatcher
  /-- The threads of `msg_threads_`. -/
  workers : List Worker
  /-- `Stop` is under way, and joins this thread next. -/
  stopping : Option Nat

inductive LifecycleEvent where
  | start
  | push (dispatchId : RoleId) (msg : Option Message)
  /-- `Stop` is called. -/
  | stop
  /-- `Stop` joins the next thread, or returns when there is none. -/
  | join
  /-- Worker `k` takes a step. -/
  | work (k : Nat)
  deriving DecidableEq, Repr

namespace Lifecycle

def new (threadNum : BitVec 32) (enableSync : Bool) : Lifecycle :=
  ⟨.new threadNum enableSync, [], none⟩

/-- `Start`, and the threads of the workers it makes. -/
def start (s : Lifecycle) : Lifecycle :=
  { s with
    dispatcher := s.dispatcher.start.1
    workers := if s.dispatcher.started then s.workers
      else s.workers ++ List.replicate s.dispatcher.threadNum.toNat ⟨.check, false⟩ }

/-- `Stop` up to its loop. -/
def stop (s : Lifecycle) : Lifecycle :=
  { s with dispatcher := { s.dispatcher with started := false }, stopping := some 0 }

/-- The loop of `Stop` at thread `k`. A thread that is still in its loop is waited for. -/
def join (s : Lifecycle) (k : Nat) : Except Fault Lifecycle :=
  match s.workers[k]? with
  | none => return { s with stopping := none }
  | some w =>
    if w.joined then .error .notJoinable
    else if w.pc = .exited then
      return { s with workers := s.workers.set k { w with joined := true }, stopping := some (k + 1) }
    else return s

/-- A worker and its queue change. -/
def onWorker (s : Lifecycle) (k : Nat) (f : MsgThread → MsgThread) (w : Worker) : Lifecycle :=
  { s with dispatcher := { s.dispatcher with msgThreads := s.dispatcher.msgThreads.modify k f }
           workers := s.workers.set k w }

/-- Worker `k` has found a message. -/
def hasPack (s : Lifecycle) (k : Nat) : Bool :=
  (s.dispatcher.msgThreads[k]?.bind (·.tryPop.dispatching)).isSome

/-- One step of `Running`. -/
def work (s : Lifecycle) (k : Nat) (w : Worker) : Lifecycle :=
  match w.pc with
  | .check => s.onWorker k id { w with pc := if s.dispatcher.started then .pop else .exited }
  | .pop => s.onWorker k .tryPop { w with pc := if s.hasPack k then .dispatching else .check }
  | .dispatching => s.onWorker k .finish { w with pc := .check }
  | .exited => s

/-- One event. The calls are one thread's: while `Stop` is under way there is no other. -/
def step (s : Lifecycle) : LifecycleEvent → Except Fault Lifecycle
  | .start => if s.stopping.isSome then return s else return s.start
  | .stop => if s.stopping.isSome then return s else return s.stop
  | .push dispatchId msg =>
    if s.stopping.isSome then return s
    else do
      let d ← s.dispatcher.push dispatchId msg
      return { s with dispatcher := d }
  | .join =>
    match s.stopping with
    | none => return s
    | some k => s.join k
  | .work k =>
    match s.workers[k]? with
    | none => return s
    | some w => return s.work k w

/-- **What the life cycle promises.** -/
structure Alive (s : Lifecycle) : Prop where
  /-- Once started, the worker that an id selects runs. -/
  selects : s.stopping = none → s.dispatcher.started = true → ∀ dispatchId,
    ∃ w, s.workers[s.dispatcher.threadIndex dispatchId]? = some w ∧ w.joined = false ∧ w.pc ≠ .exited
  /-- The threads that `Stop` is going to join have not been joined. -/
  joins : ∀ k, s.stopping = some k → ∀ (j : Nat) (w : Worker), k ≤ j → s.workers[j]? = some w →
    w.joined = false
  /-- While it is stopped, no callback runs. -/
  silent : s.stopping = none → s.dispatcher.started = false → ∀ w ∈ s.workers, w.pc ≠ .dispatching

/-- `Start` and `Stop` are called while no worker has been joined. -/
def Unjoined (s : Lifecycle) : LifecycleEvent → Prop
  | .start | .stop => s.stopping = none → ∀ w ∈ s.workers, w.joined = false
  | _ => True

instance (s : Lifecycle) : ∀ e, Decidable (s.Unjoined e)
  | .start | .stop => inferInstanceAs (Decidable (_ → _))
  | .push .. | .join | .work _ => .isTrue trivial

/-- What the events keep under this condition. -/
structure LifecycleInv (s : Lifecycle) : Prop where
  serving : s.dispatcher.Serving
  pos : s.dispatcher.threadNum ≠ 0
  length : s.workers.length = s.dispatcher.msgThreads.length
  exited : ∀ w ∈ s.workers, w.joined = true → w.pc = .exited
  running : s.stopping = none → s.dispatcher.started = true →
    ∀ w ∈ s.workers, w.joined = false ∧ w.pc ≠ .exited
  stopped : s.stopping = none → s.dispatcher.started = false → ∀ w ∈ s.workers, w.joined = true
  joining : ∀ k, s.stopping = some k → s.dispatcher.started = false ∧
    ∀ (j : Nat) (w : Worker), j < k → s.workers[j]? = some w → w.joined = true

/-! ## The calls and the workers -/

section Steps

variable {s t : Lifecycle}

/-- The threads that `Stop` still has to join. -/
def ToJoin (s : Lifecycle) : Prop :=
  ∀ k, s.stopping = some k → ∀ (j : Nat) (w : Worker), k ≤ j → s.workers[j]? = some w → w.joined = false

theorem alive_of_inv (h : s.LifecycleInv) (hjoins : s.ToJoin) : s.Alive := by
  refine ⟨fun hstop hs dispatchId => ?_, hjoins, fun hstop hs w hw hpc => ?_⟩
  · have hlt := Nat.lt_of_lt_of_le (MsgDispatcher.threadIndex_lt h.pos dispatchId) (h.serving.threads hs)
    rw [← h.length] at hlt
    have hget := List.getElem?_eq_getElem hlt
    exact ⟨_, hget, h.running hstop hs _ (List.mem_of_getElem? hget)⟩
  · rw [h.exited w hw (h.stopped hstop hs w hw)] at hpc
    cases hpc

theorem toJoin_of_none (h : s.stopping = none) : s.ToJoin := fun k hk => by
  rw [h] at hk
  cases hk

theorem start_of_started (hs : s.dispatcher.started = true) : s.start = s := by
  have hd : s.dispatcher.start.1 = s.dispatcher := by
    unfold MsgDispatcher.start
    rw [if_pos hs]
  rw [start, hd, if_pos hs]

/-- A first `Start`, or one of a running dispatcher. -/
theorem inv_start (h : s.LifecycleInv) (hstop : s.stopping = none)
    (hc : ∀ w ∈ s.workers, w.joined = false) : s.start.LifecycleInv := by
  by_cases hs : s.dispatcher.started = true
  · rw [start_of_started hs]
    exact h
  have hs' : s.dispatcher.started = false := by simpa using hs
  -- all workers have been joined, and none has
  have hempty : s.workers = [] := List.eq_nil_iff_forall_not_mem.mpr fun w hw => by
    have := h.stopped hstop hs' w hw
    rw [hc w hw] at this
    cases this
  have hd : s.dispatcher.start.1 = { s.dispatcher with
      started := true
      msgThreads := s.dispatcher.msgThreads ++ List.replicate s.dispatcher.threadNum.toNat .new } := by
    unfold MsgDispatcher.start
    rw [if_neg hs]
  have hnew : ∀ w ∈ s.start.workers, w = ⟨.check, false⟩ := by
    intro w hw
    rw [start, if_neg hs, hempty] at hw
    exact (List.mem_replicate.mp hw).2
  refine ⟨MsgDispatcher.serving_start h.serving h.pos, ?_, ?_, fun w hw hj => ?_, fun _ _ w hw => ?_,
    fun _ hfalse => ?_, fun k hk => ?_⟩
  · rw [start, hd]
    exact h.pos
  · have hlength := h.length
    rw [start, hd, if_neg hs, List.length_append, List.length_append, List.length_replicate, hlength]
    simp
  · rw [hnew w hw] at hj
    cases hj
  · rw [hnew w hw]
    exact ⟨rfl, by simp⟩
  · rw [start, hd] at hfalse
    cases hfalse
  · rw [show s.start.stopping = none from hstop] at hk
    cases hk

theorem inv_stop (h : s.LifecycleInv) : s.stop.LifecycleInv :=
  ⟨⟨fun hs => (by cases hs), fun hs => (by cases hs)⟩, h.pos, h.length, h.exited,
    fun hn => (by cases hn), fun hn => (by cases hn), fun k hk => (by
      cases hk
      exact ⟨rfl, fun j w hj => absurd hj (Nat.not_lt_zero j)⟩)⟩

/-- A push changes queues only. -/
theorem inv_push (h : s.LifecycleInv) {dispatchId : RoleId} {msg : Option Message} {d : MsgDispatcher}
    (hd : s.dispatcher.push dispatchId msg = .ok d) : LifecycleInv { s with dispatcher := d } := by
  cases msg with
  | none =>
    cases hd
    exact h
  | some m =>
    by_cases hs : s.dispatcher.started = true
    · rw [MsgDispatcher.push_of_started h.serving hs] at hd
      cases hd
      refine ⟨MsgDispatcher.serving_pushed h.serving _, h.pos, ?_, h.exited, h.running, h.stopped, h.joining⟩
      show s.workers.length = (s.dispatcher.msgThreads.modify _ _).length
      rw [List.length_modify]
      exact h.length
    · simp only [MsgDispatcher.push, hs, Bool.not_false, if_true] at hd
      cases hd
      exact h

/-- `Stop` joins a thread that has left its loop, or returns. -/
theorem inv_join (h : s.LifecycleInv) {k : Nat} (hk : s.stopping = some k) (ht : s.join k = .ok t) :
    t.LifecycleInv := by
  obtain ⟨hs, hbefore⟩ := h.joining k hk
  unfold join at ht
  split at ht
  · next hnone =>
    cases ht
    have hall : ∀ w ∈ s.workers, w.joined = true := fun w hw => by
      obtain ⟨j, hj, rfl⟩ := List.getElem_of_mem hw
      have hlt : j < k := Nat.lt_of_lt_of_le hj (List.getElem?_eq_none_iff.mp hnone)
      exact hbefore j _ hlt (List.getElem?_eq_getElem hj)
    refine ⟨h.serving, h.pos, h.length, h.exited, fun _ hstarted => ?_, fun _ _ => hall, fun _ hn => (by cases hn)⟩
    rw [show s.dispatcher.started = true from hstarted] at hs
    cases hs
  · next w hget =>
    split at ht
    · cases ht
    split at ht
    swap
    · cases ht
      exact h
    next hexited =>
    cases ht
    refine ⟨h.serving, h.pos, ?_, fun w' hw' hj => ?_, fun hn => (by cases hn), fun hn => (by cases hn),
      fun k' hk' => ?_⟩
    · show (s.workers.set k _).length = _
      rw [List.length_set]
      exact h.length
    · rcases List.mem_or_eq_of_mem_set hw' with hmem | rfl
      · exact h.exited w' hmem hj
      · exact hexited
    · cases hk'
      refine ⟨hs, fun j w' hj hw' => ?_⟩
      have hw' : (s.workers.set k { w with joined := true })[j]? = some w' := hw'
      by_cases hjk : j = k
      · subst hjk
        rw [List.getElem?_set_self (List.getElem?_eq_some_iff.mp hget).1] at hw'
        cases hw'
        rfl
      · rw [List.getElem?_set_ne (Ne.symm hjk)] at hw'
        exact hbefore j w' (by omega) hw'

/-- A worker that has not left its loop takes a step. -/
theorem inv_onWorker (h : s.LifecycleInv) {k : Nat} {w w' : Worker} (hget : s.workers[k]? = some w)
    (hpc : w.pc ≠ .exited) (f : MsgThread → MsgThread) (hj : w'.joined = w.joined)
    (hp : s.dispatcher.started = true → w'.pc ≠ .exited) : (s.onWorker k f w').LifecycleInv := by
  have hmem := List.mem_of_getElem? hget
  have hunjoined : w.joined = false := by
    cases hjoined : w.joined with
    | false => rfl
    | true => exact absurd (h.exited w hmem hjoined) hpc
  have hset : ∀ {x : Worker}, x ∈ s.workers.set k w' → x ∈ s.workers ∨ x = w' :=
    fun hx => List.mem_or_eq_of_mem_set hx
  refine ⟨⟨h.serving.pos, fun hs => ?_⟩, h.pos, ?_, fun x hx hxj => ?_, fun hstop hs x hx => ?_,
    fun hstop hs => ?_, fun k' hk' => ?_⟩
  · show _ ≤ (s.dispatcher.msgThreads.modify k f).length
    rw [List.length_modify]
    exact h.serving.threads hs
  · show (s.workers.set k w').length = (s.dispatcher.msgThreads.modify k f).length
    rw [List.length_set, List.length_modify]
    exact h.length
  · rcases hset hx with hx | rfl
    · exact h.exited x hx hxj
    · rw [hj, hunjoined] at hxj
      cases hxj
  · rcases hset hx with hx | rfl
    · exact h.running hstop hs x hx
    · exact ⟨hj.trans hunjoined, hp hs⟩
  · have hjoined := h.stopped hstop hs w hmem
    rw [hunjoined] at hjoined
    cases hjoined
  · obtain ⟨hs, hbefore⟩ := h.joining k' hk'
    refine ⟨hs, fun j x hlt hx => ?_⟩
    have hx : (s.workers.set k w')[j]? = some x := hx
    by_cases hjk : j = k
    · subst hjk
      have hjoined := hbefore j w hlt hget
      rw [hunjoined] at hjoined
      cases hjoined
    · rw [List.getElem?_set_ne (Ne.symm hjk)] at hx
      exact hbefore j x hlt hx

theorem toJoin_onWorker (h : s.ToJoin) {k : Nat} {w w' : Worker} (hget : s.workers[k]? = some w)
    (f : MsgThread → MsgThread) (hj : w'.joined = w.joined) : (s.onWorker k f w').ToJoin := by
  intro k' hk' j x hle hx
  have hx : (s.workers.set k w')[j]? = some x := hx
  by_cases hjk : j = k
  · subst hjk
    rw [List.getElem?_set_self (List.getElem?_eq_some_iff.mp hget).1] at hx
    cases hx
    rw [hj]
    exact h k' hk' j w hle hget
  · rw [List.getElem?_set_ne (Ne.symm hjk)] at hx
    exact h k' hk' j x hle hx

/-- One step of `Running`. -/
theorem inv_work (h : s.LifecycleInv) (hjoins : s.ToJoin) {k : Nat} {w : Worker}
    (hget : s.workers[k]? = some w) : (s.work k w).LifecycleInv ∧ (s.work k w).ToJoin := by
  unfold work
  cases hpc : w.pc with
  | check =>
    refine ⟨inv_onWorker h hget (by rw [hpc]; simp) _ rfl fun hs => ?_, toJoin_onWorker hjoins hget _ rfl⟩
    rw [if_pos hs]
    simp
  | pop =>
    refine ⟨inv_onWorker h hget (by rw [hpc]; simp) _ rfl fun _ => ?_, toJoin_onWorker hjoins hget _ rfl⟩
    show (if s.hasPack k then WorkerPc.dispatching else .check) ≠ .exited
    split <;> simp
  | dispatching =>
    exact ⟨inv_onWorker h hget (by rw [hpc]; simp) _ rfl fun _ => by simp, toJoin_onWorker hjoins hget _ rfl⟩
  | exited => exact ⟨h, hjoins⟩

theorem toJoin_join (h : s.ToJoin) {k : Nat} (hk : s.stopping = some k) (ht : s.join k = .ok t) :
    t.ToJoin := by
  unfold join at ht
  split at ht
  · cases ht
    exact toJoin_of_none rfl
  · next w hget =>
    split at ht
    · cases ht
    split at ht
    · cases ht
      intro k' hk' j x hle hx
      cases hk'
      have hx : (s.workers.set k { w with joined := true })[j]? = some x := hx
      rw [List.getElem?_set_ne (by omega)] at hx
      exact h k hk j x (by omega) hx
    · cases ht
      exact h

/-- `Stop` does not come to a thread that has been joined. -/
theorem join_ok (h : s.ToJoin) {k : Nat} (hk : s.stopping = some k) : ∃ t, s.join k = .ok t := by
  unfold join
  split
  · exact ⟨_, rfl⟩
  · next w hget =>
    rw [h k hk k w (Nat.le_refl k) hget, if_neg Bool.false_ne_true]
    split <;> exact ⟨_, rfl⟩

/-- **Under the condition, an event does not fail and keeps the promises.** -/
theorem lifecycle_step (h : s.LifecycleInv) (hjoins : s.ToJoin) {e : LifecycleEvent} (hc : s.Unjoined e) :
    ∃ t, step s e = .ok t ∧ t.LifecycleInv ∧ t.ToJoin := by
  cases e with
  | start =>
    cases hstop : s.stopping with
    | some k => exact ⟨s, by rw [step, hstop]; rfl, h, hjoins⟩
    | none =>
      refine ⟨s.start, by rw [step, hstop]; rfl, inv_start h hstop (hc hstop), ?_⟩
      exact toJoin_of_none hstop
  | stop =>
    cases hstop : s.stopping with
    | some k => exact ⟨s, by rw [step, hstop]; rfl, h, hjoins⟩
    | none =>
      refine ⟨s.stop, by rw [step, hstop]; rfl, inv_stop h, fun k _ j w _ hw => ?_⟩
      exact hc hstop w (List.mem_of_getElem? hw)
  | push dispatchId msg =>
    cases hstop : s.stopping with
    | some k => exact ⟨s, by rw [step, hstop]; rfl, h, hjoins⟩
    | none =>
      obtain ⟨d, hd⟩ := MsgDispatcher.push_ok h.serving dispatchId msg
      refine ⟨{ s with dispatcher := d }, by rw [step, hstop, hd]; rfl, inv_push h hd, ?_⟩
      exact toJoin_of_none hstop
  | join =>
    cases hstop : s.stopping with
    | none => exact ⟨s, by rw [step, hstop]; rfl, h, hjoins⟩
    | some k =>
      obtain ⟨t, ht⟩ := join_ok hjoins hstop
      exact ⟨t, by rw [step, hstop]; exact ht, inv_join h hstop ht, toJoin_join hjoins hstop ht⟩
  | work k =>
    cases hget : s.workers[k]? with
    | none => exact ⟨s, by rw [step, hget]; rfl, h, hjoins⟩
    | some w =>
      obtain ⟨hinv, hjoins'⟩ := inv_work h hjoins hget
      exact ⟨s.work k w, by rw [step, hget]; rfl, hinv, hjoins'⟩

/-- `Start` after the workers have been joined selects one of those. -/
theorem not_alive_start (h : s.LifecycleInv) (hstop : s.stopping = none) {w : Worker} (hw : w ∈ s.workers)
    (hj : w.joined = true) : ¬ s.start.Alive := by
  intro halive
  have hs : s.dispatcher.started = false := by
    cases hs : s.dispatcher.started with
    | false => rfl
    | true =>
      rw [(h.running hstop hs w hw).1] at hj
      cases hj
  obtain ⟨first, rest, hworkers⟩ := List.exists_cons_of_ne_nil (List.ne_nil_of_mem hw)
  have hstarted : s.start.dispatcher.started = true := by
    simp [start, MsgDispatcher.start, hs]
  have hindex : s.start.dispatcher.threadIndex 0 = 0 := by
    simp [MsgDispatcher.threadIndex]
  obtain ⟨w', hw', hj', -⟩ := halive.selects hstop hstarted 0
  rw [hindex, start, hs, hworkers] at hw'
  cases hw'
  have hjoined := h.stopped hstop hs first (hworkers ▸ List.mem_cons_self)
  rw [hj'] at hjoined
  cases hjoined

/-- When an event keeps the promises. -/
theorem alive_step (h : s.LifecycleInv) (halive : s.Alive) {e : LifecycleEvent} :
    (∃ t, step s e = .ok t ∧ t.Alive) ↔ s.Unjoined e := by
  constructor
  · rintro ⟨t, ht, ht'⟩
    cases e with
    | start =>
      intro hstop w hw
      rw [step, hstop] at ht
      cases ht
      cases hj : w.joined with
      | false => rfl
      | true => exact absurd ht' (not_alive_start h hstop hw hj)
    | stop =>
      intro hstop w hw
      rw [step, hstop] at ht
      cases ht
      obtain ⟨j, hj, rfl⟩ := List.getElem_of_mem hw
      exact ht'.joins 0 rfl j _ (Nat.zero_le j) (List.getElem?_eq_getElem hj)
    | push dispatchId msg => trivial
    | join => trivial
    | work k => trivial
  · intro hc
    obtain ⟨t, ht, hinv, hjoins⟩ := lifecycle_step h halive.joins hc
    exact ⟨t, ht, alive_of_inv hinv hjoins⟩

end Steps

theorem inv_new {threadNum : BitVec 32} (hpos : threadNum ≠ 0) (enableSync : Bool) :
    LifecycleInv (new threadNum enableSync) :=
  ⟨MsgDispatcher.serving_new _ _, hpos, rfl, fun _ hw => (by cases hw), fun _ hs => (by cases hs),
    fun _ _ _ hw => (by cases hw), fun _ hk => (by cases hk)⟩

/-- **The life cycle keeps its promises in a run exactly when `Start` and `Stop` are called while no
worker has been joined.** -/
theorem lifecycle_iff {threadNum : BitVec 32} (hpos : threadNum ≠ 0) (enableSync : Bool)
    (events : List LifecycleEvent) :
    Safe step Alive (new threadNum enableSync) events ↔
      EachStep step Unjoined (new threadNum enableSync) events := by
  refine safe_iff_eachStep (I := LifecycleInv) (G := fun _ _ => True) ?_
    (fun _ _ h halive _ => alive_step h halive) (inv_new hpos enableSync)
    (alive_of_inv (inv_new hpos enableSync) (toJoin_of_none rfl)) (fun _ _ _ _ _ => trivial)
  intro s e t h halive _ hc ht
  obtain ⟨t', ht', hinv, -⟩ := lifecycle_step h halive.joins hc
  rw [ht] at ht'
  cases ht'
  exact hinv

/-- A dispatcher with one worker is stopped. -/
def stopOnce : List LifecycleEvent := [.start, .stop, .work 0, .join, .join]

theorem lifecycle_fails :
    (∃ t, run step (new 1 false) (stopOnce ++ [.start]) = .ok t ∧ t.stopping = none ∧
      t.dispatcher.started = true ∧
      t.workers[t.dispatcher.threadIndex 7]? = some ⟨.exited, true⟩) ∧
    run step (new 1 false) (stopOnce ++ [.stop, .join]) = .error .notJoinable ∧
    ¬ Safe step Alive (new 1 false) (stopOnce ++ [.start]) := by
  refine ⟨⟨_, rfl, rfl, rfl, rfl⟩, rfl, fun h => ?_⟩
  obtain ⟨t, ht, halive⟩ := h _ (List.prefix_refl _)
  cases ht
  obtain ⟨w, hw, hj, -⟩ := halive.selects rfl rfl 7
  cases hw
  cases hj

theorem lifecycle_once :
    Safe step Alive (new 3 false) [.start, .push 7 (some (.ping .new)), .work 1, .work 1, .stop] :=
  (lifecycle_iff (by decide) false _).mpr (by decide)

end Lifecycle

end GameNetwork
