import Mathlib.Data.List.Basic
import Mathlib.Logic.Relation
import Mathlib.Tactic.Common

/-!
# Decoding a stream that arrives in pieces

A decoder looks at the input it holds and answers one of four things: it
accepts a frame at the front, rejects the front, needs more input, or faults.
What it has accepted or rejected stays so when more input arrives behind it
(`Decoder.accept_append`, `Decoder.reject_append`).

* `drain` accepts frames until the decoder gives another answer, and drops
  what a rejection drops. `Fed R out rest` is any way of draining after each
  piece of the input `R`: `out` is what came out and `rest` what is held.
* `Accepts s bs t`: the frames at the front of `s` are accepted as `bs`, and
  `t` follows them. `Stands s t`: the decoder can come to stand at `t` by
  accepting and rejecting from `s` on.
* `Fed.stands`: whatever is held is a place the decoder can stand at.
* `Fed.unique`: the pieces do not matter, provided no place reached through a
  rejection begins with a frame (`NoneAfterReject`).
* `Fed.frames`: on a stream of whole frames, what came out is exactly the
  frames that lie inside the input.
-/

namespace Lib

variable {α β : Type}

/-- A decoder's answer to the input it holds. -/
inductive Verdict (β : Type) where
  | more
  /-- The first `n` symbols are a frame and mean `b`. -/
  | accept (n : Nat) (b : β)
  /-- The input is refused and its first `n` symbols are dropped. -/
  | reject (n : Nat)
  | fault
  deriving DecidableEq, Repr

structure Decoder (α β : Type) where
  verdict : List α → Verdict β
  verdict_nil : verdict [] = .more
  accept_len : ∀ {s n b}, verdict s = .accept n b → 0 < n ∧ n ≤ s.length
  accept_append : ∀ {s n b}, verdict s = .accept n b → ∀ t, verdict (s ++ t) = .accept n b
  reject_len : ∀ {s n}, verdict s = .reject n → n ≤ s.length
  reject_append : ∀ {s n}, verdict s = .reject n → ∀ t, verdict (s ++ t) = .reject n

namespace Decoder

variable (D : Decoder α β)

/-- Accept frames until the decoder answers otherwise; `none` is a fault. -/
def drain (s : List α) : Option (List β × List α) :=
  match _h : D.verdict s with
  | .more => some ([], s)
  | .accept n b => (drain (s.drop n)).map fun r => (b :: r.1, r.2)
  | .reject n => some ([], s.drop n)
  | .fault => none
termination_by s.length
decreasing_by
  have := D.accept_len _h
  rw [List.length_drop]
  omega

/-- The frames at the front of `s` are accepted as `bs`; `t` follows them. -/
inductive Accepts : List α → List β → List α → Prop where
  | nil (s : List α) : Accepts s [] s
  | cons {s t : List α} {n : Nat} {b : β} {bs : List β} : D.verdict s = .accept n b →
      Accepts (s.drop n) bs t → Accepts s (b :: bs) t

/-- One accepted or rejected step forward. -/
inductive Moves : List α → List α → Prop where
  | accept {s : List α} {n : Nat} {b : β} : D.verdict s = .accept n b → Moves s (s.drop n)
  | reject {s : List α} {n : Nat} : D.verdict s = .reject n → Moves s (s.drop n)

/-- The decoder can come to stand at `t` from `s`. -/
def Stands : List α → List α → Prop := Relation.ReflTransGen D.Moves

/-- All of `R` has arrived in pieces, each followed by a drain: `out` came out, `rest` is held. -/
inductive Fed : List α → List β → List α → Prop where
  | start : Fed [] [] []
  | piece {R rest p rest' : List α} {out bs : List β} : Fed R out rest →
      D.drain (rest ++ p) = some (bs, rest') → Fed (R ++ p) (out ++ bs) rest'

/-- No frame begins where the decoder stands after a rejection. -/
def NoneAfterReject (S : List α) : Prop :=
  ∀ bs t n u, D.Accepts S bs t → D.verdict t = .reject n → D.Stands (t.drop n) u →
    ∀ m b, D.verdict u ≠ .accept m b

variable {D}

/-! ## Draining -/

theorem drain_more {s : List α} (h : D.verdict s = .more) : D.drain s = some ([], s) := by
  rw [drain]; split <;> simp_all

theorem drain_accept {s : List α} {n : Nat} {b : β} (h : D.verdict s = .accept n b) :
    D.drain s = (D.drain (s.drop n)).map fun r => (b :: r.1, r.2) := by
  rw [drain]; split <;> simp_all

theorem drain_reject {s : List α} {n : Nat} (h : D.verdict s = .reject n) :
    D.drain s = some ([], s.drop n) := by
  rw [drain]; split <;> simp_all

theorem drain_fault {s : List α} (h : D.verdict s = .fault) : D.drain s = none := by
  rw [drain]; split <;> simp_all

/-- **What a drain does**: it accepts what it gives out, and stops where more input is needed or
behind what a rejection drops. -/
theorem drain_spec (s : List α) : ∀ {r : List α} {bs : List β}, D.drain s = some (bs, r) →
    ∃ t, D.Accepts s bs t ∧
      ((D.verdict t = .more ∧ r = t) ∨ ∃ n, D.verdict t = .reject n ∧ r = t.drop n) := by
  induction hl : s.length using Nat.strongRecOn generalizing s with
  | ind l ih =>
  intro r bs h
  cases hv : D.verdict s with
  | more =>
    rw [drain_more hv] at h
    cases h
    exact ⟨s, .nil s, .inl ⟨hv, rfl⟩⟩
  | accept n b =>
    rw [drain_accept hv] at h
    obtain ⟨⟨bs', r'⟩, hd, he⟩ := Option.map_eq_some_iff.mp h
    cases he
    have hlen := D.accept_len hv
    obtain ⟨t, ht, hstop⟩ := ih _ (by rw [List.length_drop]; omega) (s.drop n) rfl hd
    exact ⟨t, .cons hv ht, hstop⟩
  | reject n =>
    rw [drain_reject hv] at h
    cases h
    exact ⟨s, .nil s, .inr ⟨n, hv, rfl⟩⟩
  | fault => rw [drain_fault hv] at h; cases h

/-! ## Accepted frames -/

theorem Accepts.trans {s t u : List α} {bs cs : List β} (h : D.Accepts s bs t)
    (h' : D.Accepts t cs u) : D.Accepts s (bs ++ cs) u := by
  induction h with
  | nil => exact h'
  | cons hv _ ih => exact .cons hv (ih h')

/-- Accepted frames stay accepted when more input follows. -/
theorem Accepts.append {s t : List α} {bs : List β} (h : D.Accepts s bs t) (x : List α) :
    D.Accepts (s ++ x) bs (t ++ x) := by
  induction h with
  | nil => exact .nil _
  | cons hv _ ih =>
    refine .cons (D.accept_append hv x) ?_
    rwa [List.drop_append_of_le_length (D.accept_len hv).2]

/-- Two accepted runs that cannot be continued are the same. -/
theorem Accepts.unique {s t t' : List α} {bs bs' : List β} (h : D.Accepts s bs t)
    (h' : D.Accepts s bs' t') (ht : ∀ n b, D.verdict t ≠ .accept n b)
    (ht' : ∀ n b, D.verdict t' ≠ .accept n b) : bs = bs' := by
  induction h generalizing bs' with
  | nil =>
    cases h' with
    | nil => rfl
    | cons hv' _ => exact absurd hv' (ht _ _)
  | cons hv _ ih =>
    cases h' with
    | nil => exact absurd hv (ht' _ _)
    | cons hv' h'' =>
      rw [hv] at hv'
      cases hv'
      rw [ih h'' ht]

/-! ## Where the decoder can stand -/

theorem Moves.append {s t : List α} (h : D.Moves s t) (x : List α) : D.Moves (s ++ x) (t ++ x) := by
  cases h with
  | accept hv =>
    rw [← List.drop_append_of_le_length (D.accept_len hv).2]
    exact .accept (D.accept_append hv x)
  | reject hv =>
    rw [← List.drop_append_of_le_length (D.reject_len hv)]
    exact .reject (D.reject_append hv x)

theorem Stands.append {s t : List α} (h : D.Stands s t) (x : List α) :
    D.Stands (s ++ x) (t ++ x) := by
  induction h with
  | refl => exact .refl
  | tail _ hm ih => exact ih.tail (hm.append x)

theorem Accepts.stands {s t : List α} {bs : List β} (h : D.Accepts s bs t) : D.Stands s t := by
  induction h with
  | nil => exact .refl
  | cons hv _ ih => exact .head (.accept hv) ih

/-- The decoder only moves forward. -/
theorem Stands.suffix {s t : List α} (h : D.Stands s t) : t <:+ s := by
  induction h with
  | refl => exact List.suffix_refl s
  | tail _ hm ih =>
    cases hm with
    | accept => exact (List.drop_suffix _ _).trans ih
    | reject => exact (List.drop_suffix _ _).trans ih

/-- What a drain leaves is a place to stand. -/
theorem stands_of_drain {s r : List α} {bs : List β} (h : D.drain s = some (bs, r)) :
    D.Stands s r := by
  obtain ⟨t, ht, ⟨-, rfl⟩ | ⟨n, hn, rfl⟩⟩ := drain_spec _ h
  · exact ht.stands
  · exact ht.stands.tail (.reject hn)

/-- **What is held is a place the decoder can stand at**, with all that is still to come. -/
theorem Fed.stands {R rest : List α} {out : List β} (h : D.Fed R out rest) : D.Stands R rest := by
  induction h with
  | start => exact .refl
  | piece _ hd ih => exact (ih.append _).trans (stands_of_drain hd)

/-! ## Independence of the pieces -/

/-- A run of pieces either has met no rejection, and holds the input from the first frame it
cannot accept on; or it has, and nothing came out since. -/
theorem Fed.cases_reject {S R rest : List α} {out : List β} (hS : D.NoneAfterReject S)
    (h : D.Fed R out rest) (hR : R <+: S) :
    (D.Accepts R out rest ∧ (R = [] ∨ D.verdict rest = .more)) ∨
      ∃ t n, D.Accepts R out t ∧ D.verdict t = .reject n ∧ D.Stands (t.drop n) rest := by
  induction h with
  | start => exact .inl ⟨.nil _, .inl rfl⟩
  | @piece R rest p rest' out bs _ hd ih =>
    obtain ⟨x, hx⟩ := hR
    obtain ⟨t, ht, hstop⟩ := drain_spec _ hd
    rcases ih ⟨p ++ x, by rw [← hx, List.append_assoc]⟩ with ⟨hacc, -⟩ | ⟨u, n, hacc, hn, hst⟩
    · have hall := (hacc.append p).trans ht
      rcases hstop with ⟨hm, rfl⟩ | ⟨n, hn, rfl⟩
      · exact .inl ⟨hall, .inr hm⟩
      · exact .inr ⟨t, n, hall, hn, .refl⟩
    · have hst' : D.Stands ((u ++ p).drop n) (rest ++ p) := by
        rw [List.drop_append_of_le_length (D.reject_len hn)]
        exact hst.append p
      cases ht with
      | nil =>
        rw [List.append_nil]
        refine .inr ⟨u ++ p, n, hacc.append p, D.reject_append hn p, ?_⟩
        exact hst'.trans (stands_of_drain hd)
      | cons hv _ =>
        -- a frame accepted here would begin behind a rejection
        refine absurd (D.accept_append hv x) (hS out (u ++ p ++ x) n _ ?_ ?_ ?_ _ _)
        · rw [← hx]; exact (hacc.append p).append x
        · exact D.reject_append (D.reject_append hn p) x
        · rw [List.drop_append_of_le_length (D.reject_len (D.reject_append hn p))]
          exact hst'.append x

/-- Behind a frame, what was so stays so. -/
theorem NoneAfterReject.of_accept {s : List α} {n : Nat} {b : β} (hv : D.verdict s = .accept n b)
    (h : D.NoneAfterReject (s.drop n)) : D.NoneAfterReject s := by
  intro bs t m u hacc hrej
  cases hacc with
  | nil =>
    rw [hv] at hrej
    cases hrej
  | cons hv' hacc =>
    rw [hv] at hv'
    cases hv'
    exact h _ t m u hacc hrej

/-- A rejection that drops all there is. -/
theorem noneAfterReject_of_reject {s : List α} (hv : D.verdict s = .reject s.length) :
    D.NoneAfterReject s := by
  intro bs t m u hacc hrej hstands
  cases hacc with
  | nil =>
    rw [hv] at hrej
    cases hrej
    rw [List.drop_length] at hstands
    rw [List.suffix_nil.mp hstands.suffix, D.verdict_nil]
    exact fun _ _ h => (by cases h)
  | cons hv' _ =>
    rw [hv] at hv'
    cases hv'

/-- **The pieces do not matter** when no frame begins behind a rejection. -/
theorem Fed.unique {S rest rest' : List α} {out out' : List β} (hS : D.NoneAfterReject S)
    (h : D.Fed S out rest) (h' : D.Fed S out' rest') : out = out' := by
  have stop : ∀ {o r}, D.Fed S o r → ∃ t, D.Accepts S o t ∧
      (S = [] ∨ ∀ n b, D.verdict t ≠ .accept n b) := by
    intro o r hf
    rcases hf.cases_reject hS (List.prefix_refl S) with ⟨hacc, hm⟩ | ⟨t, n, hacc, hn, -⟩
    · exact ⟨r, hacc, hm.imp_right fun hm n b => by simp [hm]⟩
    · exact ⟨t, hacc, .inr fun m b => by simp [hn]⟩
  obtain ⟨t, ht, hs⟩ := stop h
  obtain ⟨t', ht', hs'⟩ := stop h'
  by_cases hnil : S = []
  · -- nothing can be accepted from no input
    subst hnil
    have empty : ∀ {o u}, D.Accepts [] o u → o = [] := by
      intro o u hu
      cases hu with
      | nil => rfl
      | cons hv _ => have := D.accept_len hv; simp at this; omega
    rw [empty ht, empty ht']
  · exact ht.unique ht' (hs.resolve_left hnil) (hs'.resolve_left hnil)

/-! ## Streams of whole frames -/

/-- `f` is exactly one frame: it means `b`, and no proper part of it is enough. -/
structure IsFrame (D : Decoder α β) (f : List α) (b : β) : Prop where
  whole : D.verdict f = .accept f.length b
  part : ∀ j, j < f.length → D.verdict (f.take j) = .more

/-- The first `k` frames lie inside `R`, and `rest` is the part of the next one behind them. -/
structure Cut (fs : List (List α × β)) (R : List α) (k : Nat) (rest : List α) : Prop where
  le : k ≤ fs.length
  split : R = (fs.take k).flatMap Prod.fst ++ rest
  short : ∀ x, fs[k]? = some x → rest.length < x.1.length

/-- **A drain on a stream of frames** gives out those that are there as a whole. -/
theorem drain_frames {fs : List (List α × β)} (hfs : ∀ x ∈ fs, D.IsFrame x.1 x.2)
    {T X : List α} (h : T ++ X = fs.flatMap Prod.fst) :
    ∃ k r, D.drain T = some ((fs.take k).map Prod.snd, r) ∧ Cut fs T k r := by
  induction fs generalizing T with
  | nil =>
    obtain ⟨rfl, rfl⟩ := List.append_eq_nil_iff.mp h
    exact ⟨0, [], drain_more D.verdict_nil, Nat.le_refl _, rfl, fun x hx => by simp at hx⟩
  | cons x fs ih =>
    obtain ⟨f, b⟩ := x
    have hf := hfs (f, b) List.mem_cons_self
    rw [List.flatMap_cons] at h
    by_cases hlt : T.length < f.length
    · -- the first frame is not whole yet
      have hT : T = f.take T.length := by
        have := congrArg (List.take T.length) h
        rwa [List.take_left' rfl, List.take_append_of_le_length (Nat.le_of_lt hlt)] at this
      refine ⟨0, T, drain_more ?_, Nat.zero_le _, rfl, fun x hx => ?_⟩
      · rw [hT]; exact hf.part _ hlt
      · simp only [List.getElem?_cons_zero, Option.some.injEq] at hx
        subst hx; exact hlt
    · have hT : T = f ++ T.drop f.length := by
        have := congrArg (List.take f.length) h
        rw [List.take_append_of_le_length (by omega), List.take_left' rfl] at this
        conv_lhs => rw [← List.take_append_drop f.length T, this]
      have hrest : T.drop f.length ++ X = fs.flatMap Prod.fst := by
        have := congrArg (List.drop f.length) h
        rwa [List.drop_append_of_le_length (by omega), List.drop_left' rfl] at this
      obtain ⟨k, r, hd, hc⟩ := ih (fun x hx => hfs x (List.mem_cons_of_mem _ hx)) hrest
      refine ⟨k + 1, r, ?_, ?_, ?_, ?_⟩
      · have hacc : D.verdict T = .accept f.length b := by
          rw [hT]; exact D.accept_append hf.whole _
        rw [drain_accept hacc, hd]
        rfl
      · simpa using hc.le
      · rw [List.take_succ_cons, List.flatMap_cons, List.append_assoc, ← hc.split]
        exact hT
      · simpa using hc.short

/-- What is held and what is still to come make up the remaining frames. -/
theorem Cut.behind {fs : List (List α × β)} {R rest p X : List α} {k : Nat} (hc : Cut fs R k rest)
    (h : R ++ p ++ X = fs.flatMap Prod.fst) : rest ++ p ++ X = (fs.drop k).flatMap Prod.fst := by
  have hall : fs.flatMap Prod.fst = (fs.take k).flatMap Prod.fst ++ (fs.drop k).flatMap Prod.fst := by
    rw [← List.flatMap_append, List.take_append_drop]
  rw [hc.split, hall, List.append_assoc, List.append_assoc, ← List.append_assoc rest] at h
  exact List.append_cancel_left h

/-- Frames cut off a cut's remainder extend the cut. -/
theorem Cut.extend {fs : List (List α × β)} {R rest p r : List α} {k k' : Nat}
    (hc : Cut fs R k rest) (hc' : Cut (fs.drop k) (rest ++ p) k' r) : Cut fs (R ++ p) (k + k') r where
  le := by have := hc'.le; rw [List.length_drop] at this; have := hc.le; omega
  split := by
    rw [hc.split, List.append_assoc, hc'.split, List.take_add, List.flatMap_append,
      List.append_assoc]
  short x hx := hc'.short x (by rwa [List.getElem?_drop])

/-- **What came out of a stream of frames**: exactly those that lie inside the input. -/
theorem Fed.frames {fs : List (List α × β)} (hfs : ∀ x ∈ fs, D.IsFrame x.1 x.2)
    {R rest : List α} {out : List β} (h : D.Fed R out rest) (hR : R <+: fs.flatMap Prod.fst) :
    ∃ k, out = (fs.take k).map Prod.snd ∧ Cut fs R k rest := by
  induction h with
  | start =>
    refine ⟨0, rfl, Nat.zero_le _, rfl, fun x hx => ?_⟩
    obtain ⟨hlt, rfl⟩ := List.getElem?_eq_some_iff.mp hx
    have := (D.accept_len (hfs _ (List.getElem_mem hlt)).whole).1
    simpa using this
  | @piece R rest p rest' out bs _ hd ih =>
    obtain ⟨X, hX⟩ := hR
    obtain ⟨k, hout, hc⟩ := ih ⟨p ++ X, by rw [← hX, List.append_assoc]⟩
    have hdrop : ∀ x ∈ fs.drop k, D.IsFrame x.1 x.2 := fun x hx => hfs x (List.mem_of_mem_drop hx)
    obtain ⟨k', r, hd', hc'⟩ := drain_frames hdrop (hc.behind hX)
    rw [hd] at hd'
    cases hd'
    exact ⟨k + k', by rw [hout, List.take_add, List.map_append], hc.extend hc'⟩

/-- On a stream of frames no drain faults. -/
theorem Fed.frames_drain {fs : List (List α × β)} (hfs : ∀ x ∈ fs, D.IsFrame x.1 x.2)
    {R rest p : List α} {out : List β} (h : D.Fed R out rest) (hR : R ++ p <+: fs.flatMap Prod.fst) :
    ∃ bs r, D.drain (rest ++ p) = some (bs, r) := by
  obtain ⟨k, -, hc⟩ := h.frames hfs ((List.prefix_append R p).trans hR)
  obtain ⟨X, hX⟩ := hR
  have hdrop : ∀ x ∈ fs.drop k, D.IsFrame x.1 x.2 := fun x hx => hfs x (List.mem_of_mem_drop hx)
  obtain ⟨k', r, hd, -⟩ := drain_frames hdrop (hc.behind hX)
  exact ⟨_, _, hd⟩

end Decoder

end Lib
