import Mathlib.Data.List.Basic
import Mathlib.Tactic.Common

/-!
# Queues with one consumer each

A lane is a queue and the item its consumer has taken from it, if any. Items
are spread over numbered lanes by a function of the item alone. `Ordered` says
that every item is in its own lane, and that what has left a lane, is with its
consumer and waits in its queue is, in that order, what has entered it.

Putting an item in (`Ordered.enqueue`), taking the first one (`Ordered.take`)
and being done with it (`Ordered.finish`) keep this. `Begun` says the same of
the items that consumers have taken. `Ordered.rest_eq` says what is still in a
lane of a part of the items of which the first have left, and
`Ordered.first_iff` which of them comes next. `Ordered.perKey` reads the order
off for all items of one key, across the lanes; `waitingFor` is the queue that
the items of one key are in, and the operations are those of a queue.
-/

namespace Lib

structure Lane (α : Type) where
  queue : List α
  /-- Taken by the consumer, and not done with. -/
  current : Option α
  deriving DecidableEq, Repr

namespace Lane

variable {α : Type}

/-- The items in a lane, first in first. -/
def items (l : Lane α) : List α := l.current.toList ++ l.queue

def enqueue (l : Lane α) (x : α) : Lane α := { l with queue := l.queue ++ [x] }

/-- The consumer takes the first item when it is free and there is one. -/
def take (l : Lane α) : Lane α :=
  match l.current, l.queue with
  | none, x :: queue => ⟨queue, some x⟩
  | _, _ => l

def finish (l : Lane α) : Lane α := { l with current := none }

@[simp] theorem items_enqueue (l : Lane α) (x : α) : (l.enqueue x).items = l.items ++ [x] := by
  simp [items, enqueue]

@[simp] theorem items_take (l : Lane α) : l.take.items = l.items := by
  obtain ⟨queue, current⟩ := l
  cases current with
  | some => rfl
  | none => cases queue <;> rfl

/-- What the consumer would take. -/
def next (l : Lane α) : Option α :=
  match l.current with
  | none => l.queue.head?
  | some _ => none

theorem take_of_next_none {l : Lane α} (h : l.next = none) : l.take = l := by
  obtain ⟨queue, current⟩ := l
  cases current with
  | some => rfl
  | none =>
    cases queue with
    | nil => rfl
    | cons => cases h

/-- A consumer that takes something is free, and has it then. -/
theorem take_of_next {l : Lane α} {x : α} (h : l.next = some x) : l.finish = l ∧ l.take.current = some x := by
  obtain ⟨queue, current⟩ := l
  cases current with
  | some => cases h
  | none =>
    cases queue with
    | nil => cases h
    | cons y queue => cases h; exact ⟨rfl, rfl⟩

/-- A consumer that tries has an item, if there is any. -/
theorem current_take {l : Lane α} (h : l.items ≠ []) : ∃ x, l.take.current = some x := by
  obtain ⟨queue, current⟩ := l
  cases current with
  | some x => exact ⟨x, rfl⟩
  | none =>
    cases queue with
    | nil => exact (h rfl).elim
    | cons x queue => exact ⟨x, rfl⟩

theorem items_finish {l : Lane α} {x : α} (h : l.current = some x) : l.items = x :: l.finish.items := by
  simp [items, finish, h]

end Lane

/-- A change of one element, seen through a map. -/
theorem map_modify {α β : Type} {f : α → α} {g : β → β} {h : α → β} (hfg : ∀ x, h (f x) = g (h x))
    (xs : List α) (k : Nat) : (xs.modify k f).map h = (xs.map h).modify k g := by
  apply List.ext_getElem?
  intro i
  rw [List.getElem?_map, List.getElem?_modify, List.getElem?_modify, List.getElem?_map]
  cases xs[i]? with
  | none => rfl
  | some x =>
    simp only [Option.map_eq_map, Option.map_some]
    split
    · rw [hfg]
    · rfl

theorem map_modify_of_eq {α β : Type} {f : α → α} {h : α → β} (hf : ∀ x, h (f x) = h x) (xs : List α)
    (k : Nat) : (xs.modify k f).map h = xs.map h := by
  rw [map_modify (g := id) hf, List.modify_id]

/-- A change that makes one element shorter. -/
theorem length_flatMap_modify_lt {α β : Type} {f : α → List β} {g : α → α} {xs : List α} {k : Nat} {x : α}
    (hk : xs[k]? = some x) (hlt : (f (g x)).length < (f x).length) :
    ((xs.modify k g).flatMap f).length < (xs.flatMap f).length := by
  obtain ⟨hlen, rfl⟩ := List.getElem?_eq_some_iff.mp hk
  rw [List.modify_eq_take_cons_drop hlen]
  conv_rhs => rw [← List.take_append_drop k xs, List.drop_eq_getElem_cons hlen]
  simp only [List.flatMap_append, List.flatMap_cons, List.length_append]
  omega

section Lanes

variable {α : Type} (laneOf : α → Nat)

/-- The items that belong to lane `k`. -/
def ofLane (k : Nat) (xs : List α) : List α := xs.filter fun x => laneOf x = k

/-- Every item is in its own lane, and each lane keeps the order of what has entered it. -/
structure Ordered (lanes : List (Lane α)) (entered left : List α) : Prop where
  own : ∀ k l, lanes[k]? = some l → ∀ x ∈ l.items, laneOf x = k
  order : ∀ k l, lanes[k]? = some l → ofLane laneOf k left ++ l.items = ofLane laneOf k entered

variable {laneOf} {lanes : List (Lane α)} {entered left : List α}

theorem ofLane_append (k : Nat) (xs ys : List α) :
    ofLane laneOf k (xs ++ ys) = ofLane laneOf k xs ++ ofLane laneOf k ys := List.filter_append ..

theorem ofLane_own (x : α) : ofLane laneOf (laneOf x) [x] = [x] := by simp [ofLane]

theorem ofLane_other {k : Nat} {x : α} (h : laneOf x ≠ k) : ofLane laneOf k [x] = [] := by
  simp [ofLane, h]

/-- Empty lanes. -/
theorem Ordered.empty (n : Nat) : Ordered laneOf (List.replicate n (⟨[], none⟩ : Lane α)) [] [] := by
  have hl : ∀ {k : Nat} {l : Lane α}, (List.replicate n (⟨[], none⟩ : Lane α))[k]? = some l →
      l.items = [] := by
    intro k l h
    rw [List.getElem?_replicate] at h
    split at h <;> cases h
    rfl
  refine ⟨fun k l h x hx => ?_, fun k l h => ?_⟩
  · rw [hl h] at hx; cases hx
  · rw [hl h]; rfl

/-- A change of one lane that keeps its items. -/
theorem Ordered.modify (h : Ordered laneOf lanes entered left) {f : Lane α → Lane α}
    (hf : ∀ l, (f l).items = l.items) (k : Nat) :
    Ordered laneOf (lanes.modify k f) entered left := by
  have same : ∀ {j : Nat} {l : Lane α}, (lanes.modify k f)[j]? = some l →
      ∃ l', lanes[j]? = some l' ∧ l.items = l'.items := by
    intro j l hl
    rw [List.getElem?_modify] at hl
    obtain ⟨l', hl', rfl⟩ := Option.map_eq_some_iff.mp hl
    refine ⟨l', hl', ?_⟩
    split
    · exact hf l'
    · rfl
  refine ⟨fun j l hl x hx => ?_, fun j l hl => ?_⟩
  · obtain ⟨l', hl', hitems⟩ := same hl
    exact h.own j l' hl' x (hitems ▸ hx)
  · obtain ⟨l', hl', hitems⟩ := same hl
    rw [hitems, h.order j l' hl']

/-- What is in a lane has entered it. -/
theorem Ordered.mem_entered (h : Ordered laneOf lanes entered left) {x : α}
    (hx : x ∈ lanes.flatMap Lane.items) : x ∈ entered := by
  obtain ⟨l, hl, hx⟩ := List.mem_flatMap.mp hx
  obtain ⟨k, hk⟩ := List.mem_iff_getElem?.mp hl
  have hin : x ∈ ofLane laneOf k entered := h.order k l hk ▸ List.mem_append_right _ hx
  exact (List.mem_filter.mp hin).1

theorem Ordered.take (h : Ordered laneOf lanes entered left) (k : Nat) :
    Ordered laneOf (lanes.modify k Lane.take) entered left := h.modify Lane.items_take k

theorem Ordered.enqueue (h : Ordered laneOf lanes entered left) (x : α) :
    Ordered laneOf (lanes.modify (laneOf x) (·.enqueue x)) (entered ++ [x]) left := by
  refine ⟨fun j l hl y hy => ?_, fun j l hl => ?_⟩ <;> rw [List.getElem?_modify] at hl <;>
    obtain ⟨l', hl', rfl⟩ := Option.map_eq_some_iff.mp hl
  · by_cases hj : laneOf x = j
    · rw [if_pos hj, Lane.items_enqueue] at hy
      rcases List.mem_append.mp hy with hy | hy
      · exact h.own j l' hl' y hy
      · rw [List.mem_singleton.mp hy, hj]
    · rw [if_neg hj] at hy
      exact h.own j l' hl' y hy
  · by_cases hj : laneOf x = j
    · rw [if_pos hj, Lane.items_enqueue, ← List.append_assoc, h.order j l' hl', ofLane_append, ← hj,
        ofLane_own]
    · rw [if_neg hj, ofLane_append, ofLane_other hj, List.append_nil]
      exact h.order j l' hl'

theorem Ordered.finish (h : Ordered laneOf lanes entered left) {k : Nat} {l : Lane α} {x : α}
    (hk : lanes[k]? = some l) (hx : l.current = some x) :
    Ordered laneOf (lanes.modify k Lane.finish) entered (left ++ [x]) := by
  have hitems := Lane.items_finish hx
  have hown : laneOf x = k := h.own k l hk x (hitems ▸ List.mem_cons_self)
  refine ⟨fun j l' hl' y hy => ?_, fun j l' hl' => ?_⟩ <;> rw [List.getElem?_modify] at hl' <;>
    obtain ⟨l'', hl'', rfl⟩ := Option.map_eq_some_iff.mp hl'
  · by_cases hj : k = j
    · subst hj
      rw [hk] at hl''
      cases hl''
      rw [if_pos rfl] at hy
      exact h.own k l hk y (hitems ▸ List.mem_cons_of_mem x hy)
    · rw [if_neg hj] at hy
      exact h.own j l'' hl'' y hy
  · by_cases hj : k = j
    · subst hj
      rw [hk] at hl''
      cases hl''
      rw [if_pos rfl, ← h.order k l hk, hitems, ofLane_append, ← hown, ofLane_own, List.append_assoc]
      rfl
    · rw [if_neg hj, ofLane_append, ofLane_other (fun he => hj (hown ▸ he)), List.append_nil]
      exact h.order j l'' hl''

/-! ## What has been begun -/

/-- Every item is in its own lane, and the consumers have begun the items of each lane in the order
in which they have entered it. -/
def Begun (laneOf : α → Nat) (lanes : List (Lane α)) (entered begun : List α) : Prop :=
  Ordered laneOf (lanes.map Lane.finish) entered begun

section Begun

variable {begun : List α} {k : Nat}

theorem Begun.enqueue (h : Begun laneOf lanes entered begun) (x : α) :
    Begun laneOf (lanes.modify (laneOf x) (·.enqueue x)) (entered ++ [x]) begun := by
  have hmap := map_modify (h := Lane.finish) (f := (·.enqueue x)) (g := (·.enqueue x)) (fun _ => rfl)
    lanes (laneOf x)
  unfold Begun
  rw [hmap]
  exact Ordered.enqueue h x

theorem Begun.finish (h : Begun laneOf lanes entered begun) (k : Nat) :
    Begun laneOf (lanes.modify k Lane.finish) entered begun := by
  unfold Begun
  rw [map_modify_of_eq (f := Lane.finish) (h := Lane.finish) fun _ => rfl]
  exact h

/-- Among the lanes without what their consumers have, the one that takes an item begins and is
done with it. -/
theorem map_finish_take {l : Lane α} {x : α} (hk : lanes[k]? = some l) (hx : l.next = some x) :
    (lanes.modify k Lane.take).map Lane.finish =
      ((lanes.map Lane.finish).modify k Lane.take).modify k Lane.finish := by
  apply List.ext_getElem?
  intro j
  simp only [List.getElem?_map, List.getElem?_modify]
  by_cases hj : k = j
  · subst hj
    simp [hk, (Lane.take_of_next hx).1]
  · simp [hj]

/-- A consumer that is free begins the first item of its queue. -/
theorem Begun.take (h : Begun laneOf lanes entered begun) {l : Lane α} {x : α}
    (hk : lanes[k]? = some l) (hx : l.next = some x) :
    Begun laneOf (lanes.modify k Lane.take) entered (begun ++ [x]) := by
  obtain ⟨hfree, hcurrent⟩ := Lane.take_of_next hx
  have hlane : ((lanes.map Lane.finish).modify k Lane.take)[k]? = some l.take := by
    simp [hk, hfree]
  unfold Begun
  rw [map_finish_take hk hx]
  exact (Ordered.take h k).finish hlane hcurrent

end Begun

/-! ## What has not left -/

section Rest

variable {p : α → Bool} {rest : List α}

/-- When those that have left are the first of the items that satisfy `p`, the rest of these is, lane
by lane, what the lane still has of them. -/
theorem Ordered.rest_eq (h : Ordered laneOf lanes entered left)
    (hrest : left.filter p ++ rest = entered.filter p) {k : Nat} {l : Lane α} (hl : lanes[k]? = some l) :
    ofLane laneOf k rest = l.items.filter p := by
  have comm : ∀ xs : List α, ofLane laneOf k (xs.filter p) = (ofLane laneOf k xs).filter p := by
    intro xs
    unfold ofLane
    rw [List.filter_filter, List.filter_filter]
    exact List.filter_congr fun x _ => Bool.and_comm ..
  have hlane := congrArg (ofLane laneOf k) hrest
  rw [ofLane_append, comm, comm, ← h.order k l hl, List.filter_append] at hlane
  exact List.append_cancel_left hlane

/-- The rest is what is in the lanes. -/
theorem Ordered.mem_rest (h : Ordered laneOf lanes entered left)
    (hin : ∀ x ∈ entered, laneOf x < lanes.length)
    (hrest : left.filter p ++ rest = entered.filter p) {x : α} :
    x ∈ rest ↔ x ∈ lanes.flatMap Lane.items ∧ p x = true := by
  refine ⟨fun hx => ?_, fun ⟨hx, hpx⟩ => ?_⟩
  · have hmem : x ∈ entered.filter p := hrest ▸ List.mem_append_right _ hx
    have hlt : laneOf x < lanes.length := hin x (List.mem_filter.mp hmem).1
    have hitems : x ∈ lanes[laneOf x].items.filter p := by
      rw [← h.rest_eq hrest (List.getElem?_eq_getElem hlt)]
      exact List.mem_filter.mpr ⟨hx, decide_eq_true rfl⟩
    obtain ⟨hitem, hpx⟩ := List.mem_filter.mp hitems
    exact ⟨List.mem_flatMap.mpr ⟨_, List.getElem_mem hlt, hitem⟩, hpx⟩
  · obtain ⟨l, hlmem, hitem⟩ := List.mem_flatMap.mp hx
    obtain ⟨k, hk⟩ := List.getElem?_of_mem hlmem
    have hown : x ∈ ofLane laneOf k rest := by
      rw [h.rest_eq hrest hk]
      exact List.mem_filter.mpr ⟨hitem, hpx⟩
    exact (List.mem_filter.mp hown).1

/-- What a consumer has taken is the first of the rest in its lane. -/
theorem Ordered.rest_of_current (h : Ordered laneOf lanes entered left)
    (hrest : left.filter p ++ rest = entered.filter p) {k : Nat} {l : Lane α} {x : α}
    (hl : lanes[k]? = some l) (hx : l.current = some x) (hpx : p x = true) :
    ofLane laneOf k rest = x :: l.queue.filter p := by
  rw [h.rest_eq hrest hl, Lane.items_finish hx, List.filter_cons_of_pos hpx]
  rfl

/-- It is the first of all the rest exactly when the first is in its lane. -/
theorem Ordered.first_iff (h : Ordered laneOf lanes entered left)
    (hrest : left.filter p ++ rest = entered.filter p) {k : Nat} {l : Lane α} {x : α}
    (hl : lanes[k]? = some l) (hx : l.current = some x) (hpx : p x = true) :
    [x] <+: rest ↔ ∀ y ∈ rest.head?, laneOf y = k := by
  have hlane := h.rest_of_current hrest hl hx hpx
  cases rest with
  | nil => cases hlane
  | cons y ys =>
    refine ⟨fun hfirst z hz => ?_, fun hfirst => ?_⟩
    · cases hz
      obtain ⟨rfl, -⟩ := List.cons_prefix_cons.mp hfirst
      exact h.own k l hl x (Lane.items_finish hx ▸ List.mem_cons_self)
    · have hy : laneOf y = k := hfirst y rfl
      unfold ofLane at hlane
      rw [List.filter_cons_of_pos (by simpa using hy)] at hlane
      rw [(List.cons.inj hlane).1]
      exact List.cons_prefix_cons.mpr ⟨rfl, List.nil_prefix⟩

end Rest

/-! ## One key -/

section Key

variable {κ : Type} [DecidableEq κ] {key : α → κ} {index : κ → Nat}

/-- The items of one key. -/
def ofKey (key : α → κ) (a : κ) (xs : List α) : List α := xs.filter fun x => key x = a

theorem ofKey_ofLane (hlane : ∀ x, laneOf x = index (key x)) (a : κ) (xs : List α) :
    ofKey key a (ofLane laneOf (index a) xs) = ofKey key a xs := by
  rw [ofKey, ofLane, List.filter_filter]
  refine List.filter_congr fun x _ => ?_
  by_cases hx : key x = a
  · simp [hx, hlane]
  · simp [hx]

/-- The items of one key are all in its lane. -/
theorem Ordered.ofKey_flatMap (h : Ordered laneOf lanes entered left)
    (hlane : ∀ x, laneOf x = index (key x)) {a : κ} {l : Lane α} (hl : lanes[index a]? = some l)
    (part : Lane α → List α) (hpart : ∀ l, ∀ x ∈ part l, x ∈ l.items) :
    ofKey key a (lanes.flatMap part) = ofKey key a (part l) := by
  have others : ∀ k l', lanes[k]? = some l' → k ≠ index a → ofKey key a (part l') = [] := by
    intro k l' hl' hk
    rw [ofKey, List.filter_eq_nil_iff]
    intro x hx hkey
    have := h.own k l' hl' x (hpart l' x hx)
    rw [hlane, of_decide_eq_true hkey] at this
    exact hk this.symm
  obtain ⟨hlt, hget⟩ := List.getElem?_eq_some_iff.mp hl
  have hsplit : lanes = lanes.take (index a) ++ l :: lanes.drop (index a + 1) := by
    rw [← hget, List.getElem_cons_drop, List.take_append_drop]
  have none_of : ∀ ls : List (Lane α), (∀ l' ∈ ls, ofKey key a (part l') = []) →
      ofKey key a (ls.flatMap part) = [] := by
    intro ls hls
    rw [ofKey, List.filter_flatMap]
    exact List.flatMap_eq_nil_iff.mpr hls
  rw [hsplit, List.flatMap_append, List.flatMap_cons, ofKey, List.filter_append, List.filter_append]
  have hbefore := none_of (lanes.take (index a)) fun l' hl' => by
    obtain ⟨k, hk, rfl⟩ := List.getElem_of_mem hl'
    rw [List.length_take] at hk
    rw [List.getElem_take]
    exact others k _ (List.getElem?_eq_getElem (by omega)) (by omega)
  have hafter := none_of (lanes.drop (index a + 1)) fun l' hl' => by
    obtain ⟨k, hk, rfl⟩ := List.getElem_of_mem hl'
    rw [List.length_drop] at hk
    rw [List.getElem_drop]
    exact others _ _ (List.getElem?_eq_getElem (by omega)) (by omega)
  rw [ofKey] at hbefore hafter
  rw [hbefore, hafter, List.nil_append, List.append_nil]
  rfl

variable (key index) in
/-- **First in, first out for each key**, across all lanes: what has left, what is with a consumer
and what waits is what has entered, and at most one item is with a consumer. -/
theorem Ordered.perKey (h : Ordered laneOf lanes entered left)
    (hlane : ∀ x, laneOf x = index (key x)) {a : κ} (ha : index a < lanes.length) :
    ofKey key a left ++ (ofKey key a (lanes.flatMap fun l => l.current.toList) ++
        ofKey key a (lanes.flatMap Lane.queue)) = ofKey key a entered ∧
      (ofKey key a (lanes.flatMap fun l => l.current.toList)).length ≤ 1 := by
  have hl := List.getElem?_eq_getElem ha
  rw [h.ofKey_flatMap hlane hl (fun l => l.current.toList)
      (fun l x hx => List.mem_append_left _ hx),
    h.ofKey_flatMap hlane hl Lane.queue (fun l x hx => List.mem_append_right _ hx)]
  constructor
  · have horder := congrArg (ofKey key a) (h.order _ _ hl)
    rw [ofKey_ofLane hlane] at horder
    rw [← horder, ← ofKey_ofLane hlane a left]
    simp only [ofKey, List.filter_append, Lane.items]
  · refine Nat.le_trans (List.length_filter_le ..) ?_
    cases lanes[index a].current <;> simp

theorem ofKey_singleton (a : κ) (x : α) : ofKey key a [x] = if key x = a then [x] else [] := by
  rw [ofKey, List.filter_singleton]
  by_cases hx : key x = a <;> simp [hx]

/-! ### What waits under one key -/

variable (key index) in
/-- The items of one key that are in its lane. -/
def waitingFor (lanes : List (Lane α)) (a : κ) : List α :=
  ofKey key a (lanes[index a]?.elim [] Lane.items)

theorem waitingFor_enqueue {x : α} (hx : index (key x) < lanes.length) (a : κ) :
    waitingFor key index (lanes.modify (index (key x)) (·.enqueue x)) a =
      waitingFor key index lanes a ++ ofKey key a [x] := by
  unfold waitingFor
  by_cases hk : index (key x) = index a
  · rw [← hk, List.getElem?_modify_eq, List.getElem?_eq_getElem hx]
    simp [ofKey]
  · have hne : key x ≠ a := fun h => hk (congrArg index h)
    rw [List.getElem?_modify_ne _ _ hk]
    simp [ofKey, hne]

/-- A change of one lane that keeps its items. -/
theorem waitingFor_modify {f : Lane α → Lane α} (hf : ∀ l, (f l).items = l.items) (k : Nat) (a : κ) :
    waitingFor key index (lanes.modify k f) a = waitingFor key index lanes a := by
  unfold waitingFor
  by_cases hk : k = index a
  · rw [← hk, List.getElem?_modify_eq]
    cases lanes[k]? with
    | none => rfl
    | some l => exact congrArg (ofKey key a) (hf l)
  · rw [List.getElem?_modify_ne _ _ hk]

/-- What a consumer is done with was the first of its key. -/
theorem waitingFor_finish {k : Nat} {l : Lane α} {x : α} (hk : lanes[k]? = some l)
    (hx : l.current = some x) (hown : index (key x) = k) (a : κ) :
    waitingFor key index lanes a =
      ofKey key a [x] ++ waitingFor key index (lanes.modify k Lane.finish) a := by
  unfold waitingFor
  by_cases hka : k = index a
  · rw [← hka, List.getElem?_modify_eq, hk]
    show ofKey key a l.items = ofKey key a [x] ++ ofKey key a l.finish.items
    rw [Lane.items_finish hx, ofKey, ofKey, ofKey, ← List.filter_append]
    rfl
  · have hne : key x ≠ a := by
      rintro rfl
      exact hka hown.symm
    rw [List.getElem?_modify_ne _ _ hka]
    simp [ofKey, hne]

end Key

end Lanes

end Lib
