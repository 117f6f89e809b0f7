import GameNetwork.Buffer.ByteOrder
import GameNetwork.Lib.Atomic

/-!
# The queue under the workers

`Utils/ThreadSafeQueue.h`, statement by statement: any number of threads in
`Push`, `Pop` and `TryPop`, with the mutex and the condition variable. A wait
may be ended by a notification, by its timeout, or for no reason, and a thread
that is woken competes for the mutex with all others.

* `queue_linearizable`: whatever the interleaving, the calls and returns are
  those of a queue whose operations happen at one point each.
* `no_lost_wakeup`: where no thread uses `TryPop`, none sleeps while there is
  an item that nobody is about to take. `wakeup_lost`: a `TryPop` that times
  out may swallow the notification meant for a `Pop`.
-/

namespace GameNetwork

open Lib

inductive QueueCall (α : Type) where
  | push (x : α)
  /-- `TryPop` when it is timed, and `Pop` when it is not. -/
  | pop (timed : Bool)
  deriving DecidableEq, Repr

inductive QueueResult (α : Type) where
  | pushed
  | popped (x : α)
  /-- `TryPop` returns false. -/
  | timedOut
  deriving DecidableEq, Repr

/-- The statement that a thread comes to next. -/
inductive QueuePc (α : Type) where
  /-- Between two calls. -/
  | outside
  /-- The lock of `queue_mutex_`. -/
  | lock (call : QueueCall α)
  /-- `deque_.push_back`. -/
  | pushBack (x : α)
  /-- `cond_.notify_one`. -/
  | notify
  /-- `while (deque_.empty())`. -/
  | check (timed : Bool)
  /-- `deque_.front` and `deque_.pop_front`. -/
  | take (timed : Bool)
  /-- In a wait, until it is woken. -/
  | asleep (timed : Bool)
  /-- In a wait that has ended, at the lock of the mutex. -/
  | woken (timed timeout : Bool)
  /-- The unlock of the mutex, and the return. -/
  | unlock (result : QueueResult α)
  deriving DecidableEq, Repr

structure ThreadSafeQueue (α : Type) where
  deque : List α
  /-- The thread that has locked `queue_mutex_`. -/
  queueMutex : Option Nat
  threads : List (QueuePc α)
  /-- The calls and returns so far. -/
  history : List (Mark (QueueCall α) (QueueResult α))
  deriving DecidableEq, Repr

inductive QueueEvent (α : Type) where
  | call (t : Nat) (call : QueueCall α)
  /-- The thread executes its next statement. -/
  | run (t : Nat)
  /-- `cond_.notify_one` of thread `t` wakes thread `w`, if that is asleep. -/
  | notify (t w : Nat)
  /-- A wait of the thread ends by itself. -/
  | wake (t : Nat) (timeout : Bool)
  deriving DecidableEq, Repr

namespace QueuePc

variable {α : Type}

/-- The thread has the mutex. -/
def Holds : QueuePc α → Prop
  | .pushBack _ | .notify | .check _ | .take _ | .unlock _ => True
  | _ => False

/-- The first statement of a call once it has the mutex. -/
def entered : QueueCall α → QueuePc α
  | .push x => .pushBack x
  | .pop timed => .check timed

/-- What follows a wait: only `TryPop` looks at how it ended. -/
def resumed (timed timeout : Bool) : QueuePc α :=
  if timed && timeout then .unlock .timedOut else .check timed

/-- The thread is in a wait. -/
def isAsleep : QueuePc α → Bool
  | .asleep _ => true
  | _ => false

/-- The thread is about to wake another, or to look at the deque. -/
def helps : QueuePc α → Bool
  | .notify | .check _ | .take _ | .woken .. => true
  | _ => false

/-- The thread is in a `TryPop`. -/
def isTimed : QueuePc α → Bool
  | .lock (.pop timed) | .check timed | .take timed | .asleep timed | .woken timed _ => timed
  | _ => false

/-- What has come of the call so far. -/
def status : QueuePc α → Status (QueueCall α) (QueueResult α)
  | .outside => .idle
  | .lock call => .called call
  | .check timed | .take timed | .asleep timed | .woken timed _ => .called (.pop timed)
  | .pushBack x => .called (.push x)
  | .notify => .done .pushed
  | .unlock result => .done result

end QueuePc

namespace ThreadSafeQueue

variable {α : Type}

/-- An empty queue and `n` threads. -/
def new (n : Nat) : ThreadSafeQueue α := ⟨[], none, List.replicate n .outside, []⟩

/-- A thread comes to a statement. -/
def goto (s : ThreadSafeQueue α) (t : Nat) (pc : QueuePc α) : ThreadSafeQueue α :=
  { s with threads := s.threads.set t pc }

/-- A thread at a lock takes the mutex when it is free. -/
def acquire (s : ThreadSafeQueue α) (t : Nat) (pc : QueuePc α) : ThreadSafeQueue α :=
  if s.queueMutex = none then { s.goto t pc with queueMutex := some t } else s

/-- The next statement of a thread. -/
def runPc (s : ThreadSafeQueue α) (t : Nat) : QueuePc α → Except Fault (ThreadSafeQueue α)
  | .outside | .notify | .asleep _ => return s
  | .lock call => return s.acquire t (.entered call)
  | .pushBack x => return { s.goto t .notify with deque := s.deque ++ [x] }
  | .check timed =>
    if s.deque.isEmpty then return { s.goto t (.asleep timed) with queueMutex := none }
    else return s.goto t (.take timed)
  | .take _ =>
    match s.deque with
    | [] => .error .outOfBounds
    | x :: deque => return { s.goto t (.unlock (.popped x)) with deque := deque }
  | .woken timed timeout => return s.acquire t (.resumed timed timeout)
  | .unlock result =>
    return { s.goto t .outside with queueMutex := none, history := s.history ++ [.ret t result] }

def step (s : ThreadSafeQueue α) : QueueEvent α → Except Fault (ThreadSafeQueue α)
  | .call t call =>
    match s.threads[t]? with
    | some .outside => return { s.goto t (.lock call) with history := s.history ++ [.call t call] }
    | _ => return s
  | .run t =>
    match s.threads[t]? with
    | some pc => s.runPc t pc
    | none => return s
  | .notify t w =>
    match s.threads[t]?, s.threads[w]? with
    | some .notify, some (.asleep timed) =>
      return (s.goto t (.unlock .pushed)).goto w (.woken timed false)
    | some .notify, _ =>
      -- it wakes one of those that wait, if there are any
      if s.threads.any QueuePc.isAsleep then return s else return s.goto t (.unlock .pushed)
    | _, _ => return s
  | .wake t timeout =>
    match s.threads[t]? with
    | some (.asleep timed) => return s.goto t (.woken timed timeout)
    -- a notified `wait_for` whose time has run out may report either
    | some (.woken timed false) => return s.goto t (.woken timed timeout)
    | _ => return s

/-! ## Mutual exclusion -/

/-- A thread is inside exactly when it has the mutex, and takes an item only when there is one. -/
structure Stands (s : ThreadSafeQueue α) (t : Nat) (pc : QueuePc α) : Prop where
  holds : pc.Holds ↔ s.queueMutex = some t
  item : ∀ timed, pc = .take timed → s.deque ≠ []

def Inv (s : ThreadSafeQueue α) : Prop := ∀ t pc, s.threads[t]? = some pc → s.Stands t pc

section Moves

variable {s s' : ThreadSafeQueue α} {t : Nat} {pc pc' : QueuePc α}

theorem inv_new (n : Nat) : Inv (new n : ThreadSafeQueue α) := by
  intro t pc ht
  rw [new, List.getElem?_replicate] at ht
  split at ht <;> cases ht
  exact ⟨⟨False.elim, fun h => by cases h⟩, fun _ h => by cases h⟩

/-- A thread moves on. Either nothing that is shared changes, or nobody else has the mutex, before or
after. -/
theorem Inv.move (h : s.Inv) (ht : s.threads[t]? = some pc) (hs : s'.threads = s.threads.set t pc')
    (hshared : (s'.queueMutex = s.queueMutex ∧ s'.deque = s.deque) ∨
      ∀ u, u ≠ t → s.queueMutex ≠ some u ∧ s'.queueMutex ≠ some u)
    (hpc : s'.Stands t pc') : s'.Inv := by
  have hlt : t < s.threads.length := (List.getElem?_eq_some_iff.mp ht).1
  intro u x hx
  by_cases hu : u = t
  · subst hu
    rw [hs, List.getElem?_set_self hlt] at hx
    cases hx
    exact hpc
  · rw [hs, List.getElem?_set_ne fun heq => hu heq.symm] at hx
    have hstands := h u x hx
    rcases hshared with ⟨hmutex, hdeque⟩ | hfree
    · exact ⟨by rw [hmutex]; exact hstands.holds, by rw [hdeque]; exact hstands.item⟩
    · obtain ⟨hbefore, hafter⟩ := hfree u hu
      have hout : ¬ x.Holds := fun hx => hbefore (hstands.holds.mp hx)
      exact ⟨⟨fun hx => absurd hx hout, fun hx => absurd hx hafter⟩,
        fun timed heq => absurd (by rw [heq]; trivial) hout⟩

/-- It moves on where it was, inside or outside. -/
theorem Inv.goto (h : s.Inv) (ht : s.threads[t]? = some pc) (hholds : pc'.Holds ↔ pc.Holds)
    (hitem : ∀ timed, pc' = .take timed → s.deque ≠ [])
    (history : List (Mark (QueueCall α) (QueueResult α))) :
    Inv { s.goto t pc' with history := history } :=
  h.move ht rfl (.inl ⟨rfl, rfl⟩) ⟨hholds.trans (h t pc ht).holds, hitem⟩

/-- The thread that has the mutex is alone. -/
theorem Inv.alone (h : s.Inv) (ht : s.threads[t]? = some pc) (hholds : pc.Holds) {mutex : Option Nat}
    (hmutex : mutex = none ∨ mutex = some t) : ∀ u, u ≠ t → s.queueMutex ≠ some u ∧ mutex ≠ some u := by
  intro u hu
  rw [(h t pc ht).holds.mp hholds]
  refine ⟨fun heq => hu (Option.some.inj heq).symm, fun heq => ?_⟩
  rcases hmutex with rfl | rfl
  · cases heq
  · exact hu (Option.some.inj heq).symm

theorem Inv.acquire (h : s.Inv) (ht : s.threads[t]? = some pc) (hholds : pc'.Holds)
    (hitem : ∀ timed, pc' ≠ .take timed) : (s.acquire t pc').Inv := by
  unfold ThreadSafeQueue.acquire
  split
  · next hfree =>
    refine h.move ht rfl (.inr fun u hu => ?_)
      ⟨⟨fun _ => rfl, fun _ => hholds⟩, fun timed heq => absurd heq (hitem timed)⟩
    rw [hfree]
    exact ⟨nofun, fun heq => hu (Option.some.inj heq).symm⟩
  · exact h

end Moves

/-! ## The queue as one object -/

/-- What the operations do when they happen at one point. `TryPop` may give up at any time. -/
inductive QueueDoes : List α → QueueCall α → QueueResult α → List α → Prop where
  | push (xs : List α) (x : α) : QueueDoes xs (.push x) .pushed (xs ++ [x])
  | pop (x : α) (xs : List α) (timed : Bool) : QueueDoes (x :: xs) (.pop timed) (.popped x) xs
  | timedOut (xs : List α) : QueueDoes xs (.pop true) .timedOut xs

def queueObject : Object (List α) (QueueCall α) (QueueResult α) := ⟨[], QueueDoes⟩

/-- What the threads are doing, seen from outside. -/
def status (s : ThreadSafeQueue α) (t : Nat) : Status (QueueCall α) (QueueResult α) :=
  s.threads[t]?.elim .idle QueuePc.status

/-- The queue as an atomic object that has had these effects. -/
def view (s : ThreadSafeQueue α) (effects : List (QueueCall α × QueueResult α)) :
    Atomic (List α) (QueueCall α) (QueueResult α) := ⟨s.deque, s.status, s.history, effects⟩

section View

variable {s : ThreadSafeQueue α} {t : Nat} {pc pc' : QueuePc α}

theorem status_eq (ht : s.threads[t]? = some pc) : s.status t = pc.status := by
  rw [status, ht]
  rfl

theorem status_goto (ht : s.threads[t]? = some pc) (pc' : QueuePc α) :
    (s.goto t pc').status = Function.update s.status t pc'.status := by
  have hlt : t < s.threads.length := (List.getElem?_eq_some_iff.mp ht).1
  funext u
  by_cases hu : u = t
  · subst hu
    rw [Function.update_self, status, goto, List.getElem?_set_self hlt]
    rfl
  · rw [Function.update_of_ne hu, status, goto, List.getElem?_set_ne fun h => hu h.symm]
    rfl

/-- A statement that cannot be seen from outside. -/
theorem status_goto_of_eq (ht : s.threads[t]? = some pc) (heq : pc'.status = pc.status) :
    (s.goto t pc').status = s.status := by
  rw [status_goto ht, heq, ← status_eq ht, Function.update_eq_self]

end View

/-- A step of the threads that the object can follow. -/
def Followed (s s' : ThreadSafeQueue α) : Prop :=
  s'.Inv ∧ ∀ effects, ∃ effects', Relation.ReflTransGen (Atomic.Step queueObject)
    (s.view effects) (s'.view effects')

section Follow

variable {s s' : ThreadSafeQueue α} {t : Nat} {pc pc' : QueuePc α}

theorem Followed.trans {s'' : ThreadSafeQueue α} (h : Followed s s') (h' : Followed s' s'') :
    Followed s s'' := by
  refine ⟨h'.1, fun effects => ?_⟩
  obtain ⟨effects', hsteps⟩ := h.2 effects
  obtain ⟨effects'', hsteps'⟩ := h'.2 effects'
  exact ⟨effects'', hsteps.trans hsteps'⟩

/-- Nothing is seen of it. -/
theorem followed_silent (h : s'.Inv) (hdeque : s'.deque = s.deque) (hstatus : s'.status = s.status)
    (hhistory : s'.history = s.history) : Followed s s' := by
  refine ⟨h, fun effects => ⟨effects, ?_⟩⟩
  rw [view, view, hdeque, hstatus, hhistory]

theorem followed_goto (h : s.Inv) (ht : s.threads[t]? = some pc) (heq : pc'.status = pc.status)
    (hholds : pc'.Holds ↔ pc.Holds) (hitem : ∀ timed, pc' = .take timed → s.deque ≠ []) :
    Followed s (s.goto t pc') :=
  followed_silent (h.goto ht hholds hitem s.history) rfl (status_goto_of_eq ht heq) rfl

/-- The call takes effect. -/
theorem followed_act (h : s'.Inv) (ht : s.threads[t]? = some pc) {call : QueueCall α}
    {result : QueueResult α} (hcall : pc.status = .called call)
    (hdoes : QueueDoes s.deque call result s'.deque)
    (hstatus : s'.status = Function.update s.status t (.done result)) (hhistory : s'.history = s.history) :
    Followed s s' := by
  refine ⟨h, fun effects => ⟨effects ++ [(call, result)], .single ?_⟩⟩
  have hstep := Atomic.Step.act (D := queueObject) (a := s.view effects) (t := t)
    ((status_eq ht).trans hcall) hdoes
  have heq : s'.view (effects ++ [(call, result)]) =
      ⟨s'.deque, Function.update s.status t (.done result), s.history, effects ++ [(call, result)]⟩ := by
    rw [view, hstatus, hhistory]
  rw [heq]
  exact hstep

theorem followed_acquire (h : s.Inv) (ht : s.threads[t]? = some pc) (heq : pc'.status = pc.status)
    (hholds : pc'.Holds) (hitem : ∀ timed, pc' ≠ .take timed) : Followed s (s.acquire t pc') := by
  have hinv := h.acquire ht hholds hitem
  by_cases hfree : s.queueMutex = none
  · rw [acquire, if_pos hfree] at hinv ⊢
    exact followed_silent hinv rfl (status_goto_of_eq ht heq) rfl
  · rw [acquire, if_neg hfree] at hinv ⊢
    exact followed_silent hinv rfl rfl rfl

/-- **The next statement of a thread.** -/
theorem followed_runPc (h : s.Inv) (ht : s.threads[t]? = some pc) :
    ∃ s', s.runPc t pc = .ok s' ∧ Followed s s' := by
  have hstay : Followed s s := followed_silent h rfl rfl rfl
  cases pc with
  | outside => exact ⟨s, rfl, hstay⟩
  | notify => exact ⟨s, rfl, hstay⟩
  | asleep => exact ⟨s, rfl, hstay⟩
  | lock call =>
    refine ⟨_, rfl, followed_acquire h ht ?_ ?_ ?_⟩ <;> cases call
    all_goals first | rfl | trivial | nofun
  | pushBack x =>
    refine ⟨_, rfl, followed_act ?_ ht rfl (.push _ x) (status_goto ht _) rfl⟩
    exact h.move ht rfl (.inr (h.alone ht trivial (.inr ((h t _ ht).holds.mp trivial))))
      ⟨(h t _ ht).holds, nofun⟩
  | check timed =>
    rw [runPc]
    split
    · refine ⟨_, rfl, followed_silent ?_ rfl (status_goto_of_eq ht rfl) rfl⟩
      exact h.move ht rfl (.inr (h.alone ht trivial (.inl rfl))) ⟨⟨False.elim, nofun⟩, nofun⟩
    · next hne =>
      exact ⟨_, rfl, followed_goto h ht rfl .rfl fun _ _ hnil => hne (by rw [hnil]; rfl)⟩
  | take timed =>
    have hne := (h t _ ht).item timed rfl
    rw [runPc]
    split
    · next hnil => exact absurd hnil hne
    · next x deque hdeque =>
      refine ⟨_, rfl, followed_act ?_ ht rfl (hdeque ▸ .pop x deque timed) (status_goto ht _) rfl⟩
      exact h.move ht rfl (.inr (h.alone ht trivial (.inr ((h t _ ht).holds.mp trivial))))
        ⟨(h t _ ht).holds, nofun⟩
  | woken timed timeout =>
    refine ⟨_, rfl, ?_⟩
    rw [QueuePc.resumed]
    split
    · next hgive =>
      -- `TryPop` gives up at the moment it has the mutex
      obtain ⟨rfl, rfl⟩ := Bool.and_eq_true_iff.mp hgive
      have hinv : (s.acquire t (.unlock .timedOut)).Inv := h.acquire ht trivial nofun
      by_cases hfree : s.queueMutex = none
      · rw [acquire, if_pos hfree] at hinv ⊢
        exact followed_act hinv ht rfl (.timedOut _) (status_goto ht _) rfl
      · rw [acquire, if_neg hfree]
        exact hstay
    · exact followed_acquire h ht rfl trivial nofun
  | unlock result =>
    refine ⟨_, rfl, ?_, fun effects => ⟨effects, .single ?_⟩⟩
    · exact h.move ht rfl (.inr (h.alone ht trivial (.inl rfl))) ⟨⟨False.elim, nofun⟩, nofun⟩
    · have hstep := Atomic.Step.ret (D := queueObject) (a := s.view effects) (t := t) (status_eq ht)
      have hstatus := status_goto ht (.outside : QueuePc α)
      show Atomic.Step queueObject _ ⟨s.deque, (s.goto t .outside).status, _, effects⟩
      rw [hstatus]
      exact hstep

/-- **One event.** -/
theorem followed_step (h : s.Inv) (e : QueueEvent α) : ∃ s', s.step e = .ok s' ∧ Followed s s' := by
  have hstay : Followed s s := followed_silent h rfl rfl rfl
  cases e with
  | run t =>
    rw [step]
    split
    · next pc ht => exact followed_runPc h ht
    · exact ⟨s, rfl, hstay⟩
  | call t call =>
    rw [step]
    split
    · next ht =>
      have hout : (.lock call : QueuePc α).Holds ↔ (.outside : QueuePc α).Holds := .rfl
      refine ⟨_, rfl, h.goto ht hout nofun _, fun effects => ⟨effects, .single ?_⟩⟩
      have hstep := Atomic.Step.call (D := queueObject) (a := s.view effects) (t := t) call (status_eq ht)
      have hstatus := status_goto ht (.lock call)
      show Atomic.Step queueObject _ ⟨s.deque, (s.goto t (.lock call)).status, _, effects⟩
      rw [hstatus]
      exact hstep
    · exact ⟨s, rfl, hstay⟩
  | notify t w =>
    rw [step]
    split
    · next timed ht hw =>
      have hne : w ≠ t := by
        rintro rfl
        cases ht.symm.trans hw
      have hnotified : Followed s (s.goto t (.unlock .pushed)) := followed_goto h ht rfl .rfl nofun
      have hw' : (s.goto t (.unlock .pushed)).threads[w]? = some (.asleep timed) := by
        rwa [goto, List.getElem?_set_ne fun heq => hne heq.symm]
      exact ⟨_, rfl, hnotified.trans (followed_goto hnotified.1 hw' rfl .rfl nofun)⟩
    · next ht hw =>
      split
      · exact ⟨s, rfl, hstay⟩
      · exact ⟨_, rfl, followed_goto h ht rfl .rfl nofun⟩
    · exact ⟨s, rfl, hstay⟩
  | wake t timeout =>
    rw [step]
    split
    · next timed ht => exact ⟨_, rfl, followed_goto h ht rfl .rfl nofun⟩
    · next timed ht => exact ⟨_, rfl, followed_goto h ht rfl .rfl nofun⟩
    · exact ⟨s, rfl, hstay⟩

end Follow

/-! ## Runs -/

/-- What was put into the queue, in order. -/
def pushes (effects : List (QueueCall α × QueueResult α)) : List α :=
  effects.filterMap fun
    | (.push x, _) => some x
    | _ => none

/-- What was taken from it, in order. -/
def pops (effects : List (QueueCall α × QueueResult α)) : List α :=
  effects.filterMap fun
    | (_, .popped x) => some x
    | _ => none

/-- The calls and returns are those of one object whose operations happen at one point each, and
there every item that was put in was taken out in order or is still in the deque. -/
def Linearizable (s : ThreadSafeQueue α) : Prop :=
  ∃ a, Atomic.Reached queueObject a ∧ a.history = s.history ∧ a.state = s.deque ∧
    pushes a.effects = pops a.effects ++ s.deque

/-- A queue that is one object loses, duplicates and reorders nothing. -/
theorem pushes_of_reached {a : Atomic (List α) (QueueCall α) (QueueResult α)}
    (h : Atomic.Reached queueObject a) : pushes a.effects = pops a.effects ++ a.state := by
  refine h.invariant (I := fun xs effects => pushes effects = pops effects ++ xs) rfl ?_
  intro xs call result xs' effects ih hdoes
  have hsnoc : pushes (effects ++ [(call, result)]) = pushes effects ++ pushes [(call, result)] :=
    List.filterMap_append
  have hsnoc' : pops (effects ++ [(call, result)]) = pops effects ++ pops [(call, result)] :=
    List.filterMap_append
  rw [hsnoc, hsnoc', ih]
  cases hdoes <;> simp [pushes, pops]

/-- **The queue is one object**: no statement faults, and whatever the interleaving, the wakeups and
the timeouts, its calls and returns are linearizable. -/
theorem queue_linearizable (n : Nat) (events : List (QueueEvent α)) :
    Safe step Linearizable (new n) events := by
  have hsafe : Safe step (fun s => ∃ a, Atomic.Reached queueObject a ∧ ∃ effects, a = s.view effects)
      (new n) events := by
    refine linearizable_of_step (I := Inv) ?_ (inv_new n) ⟨[], ?_⟩ events
    · rintro s e _ h ⟨effects, rfl⟩
      obtain ⟨s', hs', hinv, hfollow⟩ := followed_step h e
      obtain ⟨effects', hsteps⟩ := hfollow effects
      exact ⟨s', hs', hinv, _, hsteps, effects', rfl⟩
    · have hstatus : (new n : ThreadSafeQueue α).status = fun _ => .idle := by
        funext t
        rw [status, new, List.getElem?_replicate]
        split <;> rfl
      rw [view, hstatus]
      rfl
  refine hsafe.imp ?_
  rintro s ⟨_, hreached, effects, rfl⟩
  exact ⟨_, hreached, rfl, rfl, pushes_of_reached hreached⟩

/-! ## Wakeups -/

/-- A thread sleeps while there is an item, and nobody is about to wake it or to look at the deque. -/
def Forgets (s : ThreadSafeQueue α) : Prop :=
  s.deque ≠ [] ∧ s.threads.any QueuePc.isAsleep = true ∧ s.threads.any QueuePc.helps = false

instance [DecidableEq α] (s : ThreadSafeQueue α) : Decidable s.Forgets :=
  inferInstanceAs (Decidable (_ ∧ _))

/-- The event is not a call of `TryPop`. -/
def Untimed (_ : ThreadSafeQueue α) (e : QueueEvent α) : Prop := ∀ t, e ≠ .call t (.pop true)

def helpers (s : ThreadSafeQueue α) : Nat := s.threads.countP QueuePc.helps

/-- Nobody is in a `TryPop`, and while somebody sleeps there is a helper for each item. -/
structure Attended (s : ThreadSafeQueue α) : Prop where
  untimed : ∀ pc ∈ s.threads, pc.isTimed = false
  enough : s.threads.any QueuePc.isAsleep = true → s.deque.length ≤ s.helpers

section Wakeups

variable {s s' : ThreadSafeQueue α} {t : Nat} {pc pc' : QueuePc α}

theorem helpers_goto (ht : s.threads[t]? = some pc) (pc' : QueuePc α) :
    (s.goto t pc').helpers + pc.helps.toNat = s.helpers + pc'.helps.toNat := by
  obtain ⟨hlt, rfl⟩ := List.getElem?_eq_some_iff.mp ht
  have hpos : (s.threads[t]).helps.toNat ≤ s.threads.countP QueuePc.helps := by
    cases hh : (s.threads[t]).helps with
    | false => exact Nat.zero_le _
    | true => exact List.countP_pos_iff.mpr ⟨_, List.getElem_mem hlt, hh⟩
  rw [helpers, goto, List.countP_set hlt, helpers]
  generalize (s.threads[t]).helps = before at hpos ⊢
  generalize pc'.helps = after
  cases before <;> cases after <;> simp only [Bool.toNat_false, Bool.toNat_true, Bool.false_eq_true,
    ↓reduceIte] at hpos ⊢ <;> omega

/-- A thread moves on: while somebody sleeps, items come only with helpers and helpers go only with
items; and a thread falls asleep only on an empty deque. -/
theorem Attended.move (h : s.Attended) (ht : s.threads[t]? = some pc)
    (hs : s'.threads = s.threads.set t pc') (htimed : pc'.isTimed = false)
    (hcase : (pc'.isAsleep = false ∧ (s.threads.any QueuePc.isAsleep = true →
      s'.deque.length + pc.helps.toNat ≤ s.deque.length + pc'.helps.toNat)) ∨ s'.deque = []) :
    s'.Attended := by
  refine ⟨fun x hx => ?_, fun hany => ?_⟩
  · rw [hs] at hx
    rcases List.mem_or_eq_of_mem_set hx with hx | rfl
    · exact h.untimed x hx
    · exact htimed
  · have hcount := helpers_goto ht pc'
    have heq : s'.helpers = (s.goto t pc').helpers := by rw [helpers, hs]; rfl
    rcases hcase with ⟨hawake, hlen⟩ | hnil
    · have hany' : s.threads.any QueuePc.isAsleep = true := by
        rw [hs, List.any_eq_true] at hany
        obtain ⟨x, hx, hsleep⟩ := hany
        rcases List.mem_or_eq_of_mem_set hx with hx | rfl
        · exact List.any_eq_true.mpr ⟨x, hx, hsleep⟩
        · rw [hawake] at hsleep
          cases hsleep
      have henough := h.enough hany'
      have hlen := hlen hany'
      omega
    · rw [hnil]
      exact Nat.zero_le _

/-- It moves on without touching the deque. -/
theorem Attended.goto (h : s.Attended) (ht : s.threads[t]? = some pc) (hs : s'.threads = s.threads.set t pc')
    (hdeque : s'.deque = s.deque) (htimed : pc'.isTimed = false) (hhelps : pc.helps.toNat ≤ pc'.helps.toNat)
    (hasleep : pc'.isAsleep = false) : s'.Attended :=
  h.move ht hs htimed (.inl ⟨hasleep, fun _ => by rw [hdeque]; exact Nat.add_le_add_left hhelps _⟩)

theorem Attended.acquire (h : s.Attended) (ht : s.threads[t]? = some pc) (htimed : pc'.isTimed = false)
    (hhelps : pc.helps.toNat ≤ pc'.helps.toNat) (hasleep : pc'.isAsleep = false) :
    (s.acquire t pc').Attended := by
  unfold ThreadSafeQueue.acquire
  split
  · exact h.goto ht rfl rfl htimed hhelps hasleep
  · exact h

theorem Attended.runPc (h : s.Attended) (ht : s.threads[t]? = some pc) (hs : s.runPc t pc = .ok s') :
    s'.Attended := by
  have htimed := h.untimed pc (List.mem_of_getElem? ht)
  cases pc with
  | outside => cases hs; exact h
  | notify => cases hs; exact h
  | asleep => cases hs; exact h
  | lock call =>
    cases hs
    cases call with
    | push x => exact h.acquire ht rfl (Nat.le_refl _) rfl
    | pop timed => exact h.acquire ht htimed (Nat.zero_le _) rfl
  | pushBack x =>
    cases hs
    exact h.move ht rfl rfl (.inl ⟨rfl, fun _ => by simp [QueuePc.helps]⟩)
  | check timed =>
    rw [ThreadSafeQueue.runPc] at hs
    split at hs
    · next hempty =>
      cases hs
      exact h.move ht rfl htimed (.inr (List.isEmpty_iff.mp hempty))
    · cases hs
      exact h.goto ht rfl rfl htimed (Nat.le_refl _) rfl
  | take timed =>
    rw [ThreadSafeQueue.runPc] at hs
    split at hs
    · cases hs
    · next x deque hdeque =>
      cases hs
      exact h.move ht rfl rfl (.inl ⟨rfl, fun _ => by simp [QueuePc.helps, hdeque]⟩)
  | woken timed timeout =>
    cases hs
    obtain rfl : timed = false := htimed
    exact h.acquire ht rfl (Nat.le_refl _) rfl
  | unlock result =>
    cases hs
    exact h.goto ht rfl rfl rfl (Nat.le_refl _) rfl

/-- A notification passes its help on to the thread it wakes. -/
theorem Attended.notify (h : s.Attended) {w : Nat} {timed : Bool} (ht : s.threads[t]? = some .notify)
    (hw : s.threads[w]? = some (.asleep timed)) :
    ((s.goto t (.unlock .pushed)).goto w (.woken timed false)).Attended := by
  have hne : t ≠ w := by
    rintro rfl
    cases ht.symm.trans hw
  have hw' : (s.goto t (.unlock .pushed)).threads[w]? = some (.asleep timed) := by
    rwa [ThreadSafeQueue.goto, List.getElem?_set_ne hne]
  have hcount := helpers_goto ht (.unlock .pushed)
  have hcount' := helpers_goto hw' (.woken timed false)
  refine ⟨fun x hx => ?_, fun _ => ?_⟩
  · rcases List.mem_or_eq_of_mem_set hx with hx | rfl
    · rcases List.mem_or_eq_of_mem_set hx with hx | rfl
      · exact h.untimed x hx
      · rfl
    · have htimed : timed = false := h.untimed _ (List.mem_of_getElem? hw)
      exact htimed
  · have henough := h.enough (List.any_eq_true.mpr ⟨_, List.mem_of_getElem? hw, rfl⟩)
    change s.deque.length ≤ _
    simp only [QueuePc.helps, Bool.toNat_true, Bool.toNat_false] at hcount hcount'
    omega

theorem Attended.step (h : s.Attended) {e : QueueEvent α} (hu : s.Untimed e) (hs : s.step e = .ok s') :
    s'.Attended := by
  cases e with
  | run t =>
    rw [ThreadSafeQueue.step] at hs
    split at hs
    · next pc ht => exact h.runPc ht hs
    · cases hs; exact h
  | call t call =>
    rw [ThreadSafeQueue.step] at hs
    split at hs
    · next ht =>
      cases hs
      refine h.goto ht rfl rfl ?_ (Nat.le_refl _) rfl
      cases call with
      | push x => rfl
      | pop timed =>
        cases timed with
        | false => rfl
        | true => exact absurd rfl (hu t)
    · cases hs; exact h
  | notify t w =>
    rw [ThreadSafeQueue.step] at hs
    split at hs
    · next timed ht hw => cases hs; exact h.notify ht hw
    · next ht _ =>
      split at hs
      · cases hs; exact h
      · next hnone =>
        cases hs
        exact h.move ht rfl rfl (.inl ⟨rfl, fun hany => absurd hany hnone⟩)
    · cases hs; exact h
  | wake t timeout =>
    rw [ThreadSafeQueue.step] at hs
    split at hs
    · next timed ht =>
      cases hs
      have htimed : timed = false := h.untimed _ (List.mem_of_getElem? ht)
      exact h.goto ht rfl rfl htimed (Nat.zero_le _) rfl
    · next timed ht =>
      cases hs
      have htimed : timed = false := h.untimed _ (List.mem_of_getElem? ht)
      exact h.goto ht rfl rfl htimed (Nat.le_refl _) rfl
    · cases hs; exact h

end Wakeups

theorem not_forgets_of_attended {s : ThreadSafeQueue α} (h : s.Attended) : ¬ s.Forgets := by
  rintro ⟨hne, hasleep, hnone⟩
  have hcount : s.helpers = 0 := List.countP_eq_zero.mpr fun pc hpc hhelps => by
    rw [List.any_eq_false] at hnone
    exact hnone pc hpc hhelps
  have := h.enough hasleep
  have := List.length_pos_iff.mpr hne
  omega

/-- **No wakeup is lost among calls of `Push` and `Pop`**: no thread sleeps over an item unless
another has been woken, or is about to wake one or to look at the deque. -/
theorem no_lost_wakeup (n : Nat) {events : List (QueueEvent α)}
    (h : EachStep step Untimed (new n) events) : Always step (fun s => ¬ s.Forgets) (new n) events := by
  intro ds hds t ht
  refine not_forgets_of_attended (run_invariant (G := Untimed) (fun s e s' h hu hs => h.step hu hs) ?_
    (fun es e hes => h es e (hes.trans hds)) ht)
  have hout : ∀ pc ∈ (new n : ThreadSafeQueue α).threads, pc = .outside := fun pc hpc =>
    List.eq_of_mem_replicate hpc
  exact ⟨fun pc hpc => by rw [hout pc hpc]; rfl, fun _ => Nat.zero_le _⟩

/-- Two threads that pop and one that pushes. -/
def popAndPush : List (QueueEvent Nat) :=
  [.call 0 (.pop false), .run 0, .run 0, .call 1 (.pop false), .run 1, .run 1,
    .call 2 (.push 7), .run 2, .run 2, .notify 2 1, .run 2]

theorem popAndPush_attended : Always step (fun s => ¬ s.Forgets) (new 3) popAndPush :=
  no_lost_wakeup 3 fun ds e hde t _ t' he => by
    have he' : e ∈ popAndPush := hde.subset (by simp)
    rw [he] at he'
    simp [popAndPush] at he'

/-- The same with a `TryPop` in the place of the second `Pop`, whose time runs out as it is woken. -/
theorem wakeup_lost : ∃ s, run step (new 3) ([.call 0 (.pop false), .run 0, .run 0, .call 1 (.pop true),
      .run 1, .run 1, .call 2 (.push 7), .run 2, .run 2, .notify 2 1, .run 2, .wake 1 true, .run 1,
      .run 1] : List (QueueEvent Nat)) = .ok s ∧ s.Forgets := by
  refine ⟨_, rfl, by decide⟩

end ThreadSafeQueue

end GameNetwork
