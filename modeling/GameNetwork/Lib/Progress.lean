import Mathlib.Algebra.Order.BigOperators.Group.Finset
import GameNetwork.Lib.Run

/-!
# Ways on

What a system can still come to, of itself: `CanReach` says that there is a
run, each event of which meets a condition, to a state in which something
holds, unless the run fails as it may. Ways on can be joined
(`CanReach.trans`), and a measure that some way on makes smaller leads to the
end (`CanReach.of_measure`).
-/

namespace Lib

variable {σ ε φ : Type} {step : σ → ε → Except φ σ} {C : σ → ε → Prop} {F : φ → Prop}
  {P Q I : σ → Prop} {s : σ}

/-- There is a run of events that meet `C` to a state in `P`, or to a failure in `F`. -/
def CanReach (step : σ → ε → Except φ σ) (C : σ → ε → Prop) (F : φ → Prop) (P : σ → Prop) (s : σ) : Prop :=
  ∃ es, EachStep step C s es ∧ ((∃ t, run step s es = .ok t ∧ P t) ∨ ∃ f, run step s es = .error f ∧ F f)

theorem CanReach.here (h : P s) : CanReach step C F P s := ⟨[], eachStep_nil, .inl ⟨s, rfl, h⟩⟩

theorem CanReach.mono (h : CanReach step C F P s) (hPQ : ∀ t, P t → Q t) : CanReach step C F Q s := by
  obtain ⟨es, hc, hes⟩ := h
  refine ⟨es, hc, hes.imp_left ?_⟩
  rintro ⟨t, ht, hP⟩
  exact ⟨t, ht, hPQ t hP⟩

/-- One way on after the other. -/
theorem CanReach.trans (h : CanReach step C F P s) (hnext : ∀ t, P t → CanReach step C F Q t) :
    CanReach step C F Q s := by
  obtain ⟨es, hc, ⟨t, ht, hP⟩ | ⟨f, hf, hF⟩⟩ := h
  · obtain ⟨fs, hc', hfs⟩ := hnext t hP
    refine ⟨es ++ fs, hc.append fun t' ht' => ?_, ?_⟩
    · cases ht.symm.trans ht'
      exact hc'
    · rw [run_append, ht]
      exact hfs
  · exact ⟨es, hc, .inr ⟨f, hf, hF⟩⟩

/-- One event. -/
theorem CanReach.single {e : ε} (hc : C s e) (hok : ∀ t, step s e = .ok t → P t)
    (herror : ∀ f, step s e = .error f → F f) : CanReach step C F P s := by
  refine ⟨[e], eachStep_singleton hc, ?_⟩
  cases hs : step s e with
  | error f =>
    refine .inr ⟨f, ?_, herror f hs⟩
    rw [run, hs]
    rfl
  | ok t =>
    refine .inl ⟨t, ?_, hok t hs⟩
    rw [run, hs]
    rfl

/-- **A measure that some way on makes smaller** leads to the end. -/
theorem CanReach.of_measure (μ : σ → Nat)
    (h : ∀ s, I s → P s ∨ CanReach step C F (fun t => I t ∧ μ t < μ s) s) (hs : I s) :
    CanReach step C F (fun t => I t ∧ P t) s := by
  induction hμ : μ s using Nat.strong_induction_on generalizing s with
  | _ n ih =>
    rcases h s hs with hP | hway
    · exact .here ⟨hs, hP⟩
    · refine hway.trans fun t ht => ?_
      exact ih (μ t) (hμ ▸ ht.2) ht.1 rfl

/-- A sum of which one part becomes smaller. -/
theorem sum_lt_of_one {n c : Nat} {f g : Nat → Nat} (hc : c < n) (hother : ∀ i, i ≠ c → f i = g i)
    (hone : f c < g c) : ∑ i ∈ Finset.range n, f i < ∑ i ∈ Finset.range n, g i := by
  refine Finset.sum_lt_sum (fun i _ => ?_) ⟨c, Finset.mem_range.mpr hc, hone⟩
  by_cases hi : i = c
  · subst hi
    exact hone.le
  · exact (hother i hi).le

end Lib
