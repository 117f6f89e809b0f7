import Mathlib.Data.List.Perm.Subperm
import Mathlib.Tactic.Common

/-!
# Messages put out in pieces

Several writers put messages on one output. A writer puts out its own message
from front to back, some of it at a time, and the pieces of different writers
may come in any order.

* `Whole`: the output is a prefix of whole messages, one after the other, each
  of a writer of its own.
* `Serial`: the writers have taken turns, and only the last one to start may
  be partway through.
* `Serial.advance`: turns are kept by a piece that comes while no other
  writer is partway.
* `InTurn`: the writers have gone one after the other, in their own order.
  This is so when each starts once all before it are done (`InTurn.add`), and
  the output is then their messages in that order, up to the last piece.
-/

namespace Lib

/-- A message, and how much of it is out. -/
structure Writer (α : Type) where
  message : List α
  sent : Nat

section Writer

variable {α : Type}

namespace Writer

def Done (w : Writer α) : Prop := w.sent = w.message.length

/-- Some of the message is out, and some is not. -/
def Partway (w : Writer α) : Prop := w.sent ≠ 0 ∧ ¬ w.Done

/-- What is out of the message. -/
def out (w : Writer α) : List α := w.message.take w.sent

/-- `n` more of the message goes out. -/
def advance (w : Writer α) (n : Nat) : Writer α := { w with sent := w.sent + n }

theorem out_of_done {w : Writer α} (h : w.Done) : w.out = w.message := by
  rw [out, h, List.take_length]

theorem out_advance (w : Writer α) (n : Nat) :
    (w.advance n).out = w.out ++ (w.message.drop w.sent).take n := List.take_add

end Writer

/-- **The output is whole messages**, the last of which may be cut short. -/
def Whole (ws : List (Writer α)) (out : List α) : Prop :=
  ∃ messages : List (List α), messages.Subperm (ws.map Writer.message) ∧ out <+: messages.flatten

/-- The writers have taken turns: `past` are done, and `now` was the last to start. -/
structure Turns (ws : List (Writer α)) (out : List α) (past : List (Writer α))
    (now : Option (Writer α)) (fresh : List (Writer α)) : Prop where
  all : ws.Perm (past ++ (now.toList ++ fresh))
  past_done : ∀ w ∈ past, w.Done
  now_sent : ∀ w ∈ now, w.sent ≠ 0
  fresh_sent : ∀ w ∈ fresh, w.sent = 0
  out_eq : out = past.flatMap Writer.message ++ now.toList.flatMap Writer.out

def Serial (ws : List (Writer α)) (out : List α) : Prop := ∃ past now fresh, Turns ws out past now fresh

section Turns

variable {ws ws' : List (Writer α)} {out : List α} {past fresh rest : List (Writer α)}
  {now : Option (Writer α)} {w : Writer α} {n : Nat}

/-- A writer that is not done is the last to have started, or has not. -/
theorem Turns.now_or_fresh (h : Turns ws out past now fresh) (hw : w ∈ ws) (hd : ¬ w.Done) :
    now = some w ∨ w ∈ fresh := by
  rcases List.mem_append.mp (h.all.subset hw) with hm | hm
  · exact absurd (h.past_done w hm) hd
  · rcases List.mem_append.mp hm with hm | hm
    · exact .inl (Option.mem_toList.mp hm)
    · exact .inr hm

/-- The last to have started goes on. -/
theorem Turns.goOn (h : Turns ws out past (some w) fresh) (hall : ws.Perm (w :: rest))
    (hall' : ws'.Perm (w.advance n :: rest)) :
    Turns ws' (out ++ (w.message.drop w.sent).take n) past (some (w.advance n)) fresh := by
  have hperm : rest.Perm (past ++ fresh) :=
    ((hall.symm.trans h.all).trans List.perm_middle).cons_inv
  refine ⟨?_, h.past_done, ?_, h.fresh_sent, ?_⟩
  · exact hall'.trans ((hperm.cons _).trans List.perm_middle.symm)
  · rintro _ ⟨⟩
    have := h.now_sent w rfl
    show w.sent + n ≠ 0
    omega
  · rw [h.out_eq, Option.toList_some, Option.toList_some, List.flatMap_singleton,
      List.flatMap_singleton, Writer.out_advance, List.append_assoc]

/-- A writer starts while no other is partway. -/
theorem Turns.start {fresh₁ fresh₂ : List (Writer α)} (h : Turns ws out past now (fresh₁ ++ w :: fresh₂))
    (hall : ws.Perm (w :: rest)) (hall' : ws'.Perm (w.advance n :: rest)) (hn : n ≠ 0)
    (hrest : ∀ v ∈ rest, ¬ v.Partway) :
    Turns ws' (out ++ (w.message.drop w.sent).take n) (past ++ now.toList) (some (w.advance n))
      (fresh₁ ++ fresh₂) := by
  have hperm : rest.Perm (past ++ (now.toList ++ (fresh₁ ++ fresh₂))) := by
    refine ((hall.symm.trans h.all).trans ?_).cons_inv
    simp only [← List.append_assoc]
    exact List.perm_middle
  -- whoever was last is not partway, and so done
  have hdone : ∀ v ∈ now, v.Done := fun v hv => by
    have hv' : v ∈ rest := hperm.symm.subset (by simp [Option.mem_toList.mpr hv])
    by_contra hd
    exact hrest v hv' ⟨h.now_sent v hv, hd⟩
  refine ⟨?_, ?_, ?_, ?_, ?_⟩
  · refine hall'.trans ((hperm.cons _).trans ?_)
    rw [← List.append_assoc]
    exact List.perm_middle.symm
  · intro v hv
    rcases List.mem_append.mp hv with hv | hv
    · exact h.past_done v hv
    · exact hdone v (Option.mem_toList.mp hv)
  · rintro _ ⟨⟩
    show w.sent + n ≠ 0
    omega
  · intro v hv
    refine h.fresh_sent v ?_
    rcases List.mem_append.mp hv with hv | hv
    · exact List.mem_append_left _ hv
    · exact List.mem_append_right _ (List.mem_cons_of_mem _ hv)
  · have hout : now.toList.flatMap Writer.out = now.toList.flatMap Writer.message :=
      List.flatMap_congr fun v hv => Writer.out_of_done (hdone v (Option.mem_toList.mp hv))
    have hnone : w.out = [] := by rw [Writer.out, h.fresh_sent w (by simp), List.take_zero]
    rw [h.out_eq, hout, ← List.flatMap_append, Option.toList_some, List.flatMap_singleton,
      Writer.out_advance, hnone, List.nil_append]

end Turns

namespace Serial

variable {ws : List (Writer α)} {out : List α}

theorem empty : Serial ([] : List (Writer α)) [] :=
  ⟨[], none, [], .nil, by simp, by simp, by simp, rfl⟩

/-- A new writer has put out nothing. -/
theorem add (h : Serial ws out) (message : List α) : Serial (ws ++ [⟨message, 0⟩]) out := by
  obtain ⟨past, now, fresh, h⟩ := h
  refine ⟨past, now, fresh ++ [⟨message, 0⟩], ?_, h.past_done, h.now_sent, ?_, h.out_eq⟩
  · have hall := h.all.append_right [(⟨message, 0⟩ : Writer α)]
    simpa only [List.append_assoc] using hall
  · intro w hw
    rcases List.mem_append.mp hw with hw | hw
    · exact h.fresh_sent w hw
    · rw [List.mem_singleton.mp hw]

/-- **A piece keeps the turns**, when no other writer is partway. -/
theorem advance (h : Serial ws out) {i n : Nat} {w : Writer α} (hw : ws[i]? = some w) (hn : n ≠ 0)
    (hle : w.sent + n ≤ w.message.length) (hothers : ∀ v ∈ ws.eraseIdx i, ¬ v.Partway) :
    Serial (ws.set i (w.advance n)) (out ++ (w.message.drop w.sent).take n) := by
  obtain ⟨past, now, fresh, h⟩ := h
  obtain ⟨hi, rfl⟩ := List.getElem?_eq_some_iff.mp hw
  have hnotDone : ¬ ws[i].Done := by
    intro hd
    unfold Writer.Done at hd
    omega
  have hall := (List.getElem_cons_eraseIdx_perm hi).symm
  have hall' := List.set_perm_cons_eraseIdx hi (ws[i].advance n)
  rcases h.now_or_fresh (List.getElem_mem hi) hnotDone with rfl | hfresh
  · exact ⟨_, _, _, h.goOn hall hall'⟩
  · obtain ⟨fresh₁, fresh₂, rfl⟩ := List.append_of_mem hfresh
    exact ⟨_, _, _, h.start hall hall' hn hothers⟩

/-- **Writers that take turns put out whole messages.** -/
theorem whole (h : Serial ws out) : Whole ws out := by
  obtain ⟨past, now, fresh, h⟩ := h
  refine ⟨(past ++ now.toList).map Writer.message, ?_, ?_⟩
  · have hsub : (past ++ now.toList).Subperm ws := by
      refine List.Subperm.trans ?_ h.all.symm.subperm
      rw [← List.append_assoc]
      exact (List.sublist_append_left _ _).subperm
    obtain ⟨xs, hxs, hsub⟩ := hsub
    exact ⟨xs.map Writer.message, hxs.map _, hsub.map _⟩
  · rw [h.out_eq, List.map_append, List.flatten_append, ← List.flatMap_def, List.prefix_append_right_inj]
    cases now with
    | none => exact List.nil_prefix
    | some w => simpa [Writer.out] using List.take_prefix _ _

end Serial

/-! ## One after the other -/

/-- The writers have put out their messages one after the other: all but the last are done. -/
structure InTurn (ws : List (Writer α)) (out : List α) : Prop where
  done : ∀ w ∈ ws.dropLast, w.Done
  out_eq : out = ws.flatMap Writer.out

namespace InTurn

variable {ws : List (Writer α)} {out : List α}

theorem empty : InTurn ([] : List (Writer α)) [] := ⟨by simp, rfl⟩

/-- A writer that comes when all others are done. -/
theorem add (h : InTurn ws out) (hd : ∀ w ∈ ws, w.Done) (message : List α) :
    InTurn (ws ++ [⟨message, 0⟩]) out := by
  refine ⟨?_, ?_⟩
  · rw [List.dropLast_concat]
    exact hd
  · rw [List.flatMap_append, ← h.out_eq]
    exact (List.append_nil out).symm

/-- A writer that is not done is the last. -/
theorem eq_concat (h : InTurn ws out) {i : Nat} {w : Writer α} (hw : ws[i]? = some w) (hd : ¬ w.Done) :
    ∃ past, ws = past ++ [w] ∧ i = past.length := by
  rcases List.eq_nil_or_concat ws with rfl | ⟨past, last, rfl⟩
  · cases hw
  rw [List.concat_eq_append] at h hw ⊢
  have hi : i = past.length := by
    obtain ⟨hi, rfl⟩ := List.getElem?_eq_some_iff.mp hw
    rw [List.length_append, List.length_singleton] at hi
    by_contra hne
    refine hd (h.done _ ?_)
    rw [List.dropLast_concat, List.getElem_append_left (by omega)]
    exact List.getElem_mem _
  subst hi
  rw [List.getElem?_concat_length] at hw
  cases hw
  exact ⟨past, rfl, rfl⟩

/-- A piece of a writer that is not done. -/
theorem advance (h : InTurn ws out) {i n : Nat} {w : Writer α} (hw : ws[i]? = some w) (hd : ¬ w.Done) :
    InTurn (ws.set i (w.advance n)) (out ++ (w.message.drop w.sent).take n) := by
  obtain ⟨past, rfl, rfl⟩ := h.eq_concat hw hd
  rw [List.set_append_right _ _ (Nat.le_refl _), Nat.sub_self, List.set_cons_zero]
  refine ⟨?_, ?_⟩
  · have := h.done
    rwa [List.dropLast_concat] at this ⊢
  · rw [h.out_eq, List.flatMap_append, List.flatMap_append, List.flatMap_singleton,
      List.flatMap_singleton, Writer.out_advance, List.append_assoc]

/-- **The output is the messages in their order**, the last of which may be cut short. -/
theorem isPrefix (h : InTurn ws out) : out <+: (ws.map Writer.message).flatten := by
  rcases List.eq_nil_or_concat ws with rfl | ⟨past, last, rfl⟩
  · rw [h.out_eq]
    exact List.nil_prefix
  rw [List.concat_eq_append] at h ⊢
  have hpast : past.flatMap Writer.out = past.flatMap Writer.message :=
    List.flatMap_congr fun w hw => Writer.out_of_done (h.done w (by rwa [List.dropLast_concat]))
  rw [h.out_eq, ← List.flatMap_def, List.flatMap_append, List.flatMap_append, hpast,
    List.prefix_append_right_inj]
  simpa [Writer.out] using List.take_prefix _ _

/-- What is not out yet is the rest of a writer that is not done. -/
theorem rest_eq (h : InTurn ws out) {i : Nat} {w : Writer α} (hw : ws[i]? = some w) (hd : ¬ w.Done) :
    (ws.map Writer.message).flatten.drop out.length = w.message.drop w.sent := by
  obtain ⟨past, rfl, rfl⟩ := h.eq_concat hw hd
  have hpast : past.flatMap Writer.out = past.flatMap Writer.message :=
    List.flatMap_congr fun v hv => Writer.out_of_done (h.done v (by rwa [List.dropLast_concat]))
  have hout : out = past.flatMap Writer.message ++ w.message.take w.sent := by
    rw [h.out_eq, List.flatMap_append, hpast, List.flatMap_singleton]
    rfl
  rw [hout, ← List.flatMap_def, List.flatMap_append, List.flatMap_singleton, List.length_append,
    List.drop_append, List.drop_of_length_le (Nat.le_add_right _ _), List.nil_append,
    Nat.add_sub_cancel_left, List.length_take]
  rcases Nat.le_total w.sent w.message.length with hle | hle
  · rw [Nat.min_eq_left hle]
  · rw [Nat.min_eq_right hle, List.drop_length, List.drop_of_length_le hle]

/-- Once all are done, it is the messages. -/
theorem all (h : InTurn ws out) (hd : ∀ w ∈ ws, w.Done) : out = (ws.map Writer.message).flatten := by
  rw [h.out_eq, ← List.flatMap_def]
  exact List.flatMap_congr fun w hw => Writer.out_of_done (hd w hw)

end InTurn

end Writer

end Lib
