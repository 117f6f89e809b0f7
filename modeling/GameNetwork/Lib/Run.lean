import Mathlib.Data.List.Induction
import Mathlib.Tactic.Common

/-!
# Runs of a step function that can fail

A component is a state `σ` and a step function that takes an event to a new
state or to a failure. `run` takes a list of events one after the other and
stops at the first failure.

* `Always P s es`: `P` holds of every state that the run from `s` comes to.
* `Safe P s es`: it does not fail either.
* `Refines spec R s a es`: it does not fail, and keeps in step with a specification.
* `EachStep C s es`: `C` holds before each of its events.
* `Crosses P s es t`: `P` becomes true after the state `t`; a run that ends with `P` has crossed
  (`exists_crosses`).
* `run_invariant`, `safe_of_step`, `refines_of_step`: what one step preserves holds at the end of
  a run, and along it.
* `agree_of_step`: a run is matched by a run of a specification, its translation, when every step
  is; `eachStep_translated`: what holds before its events then.
* `good_or_doomed`: a condition whose first violation shows at the end of the run.
* `always_and_eachStep_iff`, `always_iff_eachStep`, `refines_iff_eachStep`,
  `safe_iff_eachStep`: when a step from a good state leads to a good state
  exactly under a condition, a run stays good exactly when each of its steps
  meets the condition.
-/

namespace Lib

/-! ## Results -/

section Except

variable {φ α β : Type}

theorem bind_eq_ok {x : Except φ α} {f : α → Except φ β} {b : β} :
    x.bind f = .ok b ↔ ∃ a, x = .ok a ∧ f a = .ok b := by
  cases x with
  | error e => exact ⟨fun h => (by cases h), fun ⟨_, h, _⟩ => (by cases h)⟩
  | ok a => exact ⟨fun h => ⟨a, rfl, h⟩, fun ⟨_, rfl, h⟩ => h⟩

theorem map_eq_ok {x : Except φ α} {f : α → β} {b : β} :
    x.map f = .ok b ↔ ∃ a, x = .ok a ∧ f a = b := by
  cases x with
  | error e => exact ⟨fun h => (by cases h), fun ⟨_, h, _⟩ => (by cases h)⟩
  | ok a => exact ⟨fun h => ⟨a, rfl, Except.ok.inj h⟩, fun ⟨_, rfl, h⟩ => congrArg _ h⟩

end Except

/-! ## Runs -/

section Run

variable {σ ε φ : Type} (step : σ → ε → Except φ σ)

/-- The state after the given events. -/
def run : σ → List ε → Except φ σ
  | s, [] => .ok s
  | s, e :: es => (step s e).bind fun s => run s es

/-- `P` holds of every state the run comes to, the first one included. -/
def Always (P : σ → Prop) (s : σ) (es : List ε) : Prop :=
  ∀ ds, ds <+: es → ∀ t, run step s ds = .ok t → P t

/-- The run does not fail, and `P` holds of every state it comes to. -/
def Safe (P : σ → Prop) (s : σ) (es : List ε) : Prop :=
  ∀ ds, ds <+: es → ∃ t, run step s ds = .ok t ∧ P t

/-- The run does not fail, and every state it comes to stands in the relation `R` to the state that
the specification `spec` comes to by the same events. -/
def Refines {τ : Type} (spec : τ → ε → τ) (R : σ → τ → Prop) (s : σ) (a : τ) (es : List ε) : Prop :=
  ∀ ds, ds <+: es → ∃ t, run step s ds = .ok t ∧ R t (ds.foldl spec a)

/-- `C` holds of each event and the state it finds. -/
def EachStep (C : σ → ε → Prop) (s : σ) (es : List ε) : Prop :=
  ∀ ds e, ds ++ [e] <+: es → ∀ t, run step s ds = .ok t → C t e

/-- The run comes to `t`, and its next event makes `P` true. -/
def Crosses (P : σ → Prop) (s : σ) (es : List ε) (t : σ) : Prop :=
  ∃ ds e t', ds ++ [e] <+: es ∧ run step s ds = .ok t ∧ ¬ P t ∧ step t e = .ok t' ∧ P t'

variable {step}

/-- What a step that does not fail leads to. -/
theorem forall_step_iff {P : σ → Prop} {s t : σ} {e : ε} (h : step s e = .ok t) :
    (∀ s', step s e = .ok s' → P s') ↔ P t := by
  refine ⟨fun hall => hall t h, fun hp s' hs' => ?_⟩
  rw [h] at hs'
  cases hs'
  exact hp

@[simp] theorem run_nil (s : σ) : run step s [] = .ok s := rfl

theorem run_cons_eq_ok {s t : σ} {e : ε} {es : List ε} :
    run step s (e :: es) = .ok t ↔ ∃ s', step s e = .ok s' ∧ run step s' es = .ok t := bind_eq_ok

theorem run_append_eq_ok {s t : σ} {es fs : List ε} :
    run step s (es ++ fs) = .ok t ↔ ∃ s', run step s es = .ok s' ∧ run step s' fs = .ok t := by
  induction es generalizing s with
  | nil => simp
  | cons e es ih =>
    simp only [List.cons_append, run_cons_eq_ok, ih]
    constructor
    · rintro ⟨s', h, u, h', h''⟩; exact ⟨u, ⟨s', h, h'⟩, h''⟩
    · rintro ⟨u, ⟨s', h, h'⟩, h''⟩; exact ⟨s', h, u, h', h''⟩

theorem run_snoc_eq_ok {s t : σ} {e : ε} {es : List ε} :
    run step s (es ++ [e]) = .ok t ↔ ∃ s', run step s es = .ok s' ∧ step s' e = .ok t := by
  simp only [run_append_eq_ok, run_cons_eq_ok, run_nil, Except.ok.injEq, exists_eq_right]

theorem run_snoc_of_ok {s t : σ} {e : ε} {es : List ε} (h : run step s es = .ok t) :
    run step s (es ++ [e]) = step t e := by
  induction es generalizing s with
  | nil =>
    cases h
    rw [List.nil_append, run]
    cases step t e <;> rfl
  | cons e' es ih =>
    obtain ⟨s', hs', h⟩ := run_cons_eq_ok.mp h
    rw [List.cons_append, run, hs']
    exact ih h

theorem run_append {s : σ} {es fs : List ε} :
    run step s (es ++ fs) = (run step s es).bind fun t => run step t fs := by
  induction es generalizing s with
  | nil => rfl
  | cons e es ih =>
    show (step s e).bind _ = ((step s e).bind _).bind _
    cases step s e with
    | error f => rfl
    | ok t => exact ih

/-! ### What holds along a run -/

theorem always_nil {P : σ → Prop} {s : σ} : Always step P s ([] : List ε) ↔ P s := by
  constructor
  · exact fun h => h [] List.nil_prefix s rfl
  · rintro h ds hds t ht
    rw [List.prefix_nil.mp hds] at ht
    cases ht; exact h

theorem always_cons {P : σ → Prop} {s : σ} {e : ε} {es : List ε} :
    Always step P s (e :: es) ↔ P s ∧ ∀ s', step s e = .ok s' → Always step P s' es := by
  constructor
  · intro h
    refine ⟨h [] List.nil_prefix s rfl, fun s' hs' ds hds t ht => ?_⟩
    exact h (e :: ds) ((List.prefix_cons_inj e).mpr hds) t (run_cons_eq_ok.mpr ⟨s', hs', ht⟩)
  · rintro ⟨hp, h⟩ ds hds t ht
    cases ds with
    | nil => cases ht; exact hp
    | cons d ds =>
      obtain ⟨rfl, htail⟩ := List.cons_prefix_cons.mp hds
      obtain ⟨s', hs', ht⟩ := run_cons_eq_ok.mp ht
      exact h s' hs' ds htail t ht

section Refines

variable {τ : Type} {spec : τ → ε → τ} {R : σ → τ → Prop}

theorem Refines.start {s : σ} {a : τ} {es : List ε} (h : Refines step spec R s a es) : R s a := by
  obtain ⟨t, ht, hR⟩ := h [] List.nil_prefix
  cases ht
  exact hR

theorem refines_nil {s : σ} {a : τ} : Refines step spec R s a ([] : List ε) ↔ R s a := by
  constructor
  · exact Refines.start
  · rintro h ds hds
    rw [List.prefix_nil.mp hds]
    exact ⟨s, rfl, h⟩

theorem refines_cons {s : σ} {a : τ} {e : ε} {es : List ε} :
    Refines step spec R s a (e :: es) ↔
      R s a ∧ ∃ s', step s e = .ok s' ∧ Refines step spec R s' (spec a e) es := by
  constructor
  · intro h
    obtain ⟨t, ht, -⟩ := h [e] (List.cons_prefix_cons.mpr ⟨rfl, List.nil_prefix⟩)
    obtain ⟨s', hs', -⟩ := run_cons_eq_ok.mp ht
    refine ⟨h.start, s', hs', fun ds hds => ?_⟩
    obtain ⟨t, ht, hR⟩ := h (e :: ds) ((List.prefix_cons_inj e).mpr hds)
    obtain ⟨s'', hs'', ht⟩ := run_cons_eq_ok.mp ht
    rw [hs'] at hs''
    cases hs''
    exact ⟨t, ht, hR⟩
  · rintro ⟨hR, s', hs', h⟩ ds hds
    cases ds with
    | nil => exact ⟨s, rfl, hR⟩
    | cons d ds =>
      obtain ⟨rfl, htail⟩ := List.cons_prefix_cons.mp hds
      obtain ⟨t, ht, hR⟩ := h ds htail
      exact ⟨t, run_cons_eq_ok.mpr ⟨s', hs', ht⟩, hR⟩

/-- **A run refines its specification when every step does.** -/
theorem refines_of_step
    (hstep : ∀ s a e, R s a → ∃ s', step s e = .ok s' ∧ R s' (spec a e)) {s : σ} {a : τ}
    {es : List ε} (h : R s a) : Refines step spec R s a es := by
  induction es generalizing s a with
  | nil => exact refines_nil.mpr h
  | cons e es ih =>
    obtain ⟨s', hs', h'⟩ := hstep s a e h
    exact refines_cons.mpr ⟨h, s', hs', ih h'⟩

end Refines

/-- Safety is refinement of a specification with one state. -/
theorem safe_iff_refines {P : σ → Prop} {s : σ} {es : List ε} :
    Safe step P s es ↔ Refines step (fun (_ : Unit) _ => ()) (fun s _ => P s) s () es := Iff.rfl

theorem safe_nil {P : σ → Prop} {s : σ} : Safe step P s ([] : List ε) ↔ P s :=
  safe_iff_refines.trans refines_nil

theorem safe_cons {P : σ → Prop} {s : σ} {e : ε} {es : List ε} :
    Safe step P s (e :: es) ↔ P s ∧ ∃ s', step s e = .ok s' ∧ Safe step P s' es :=
  safe_iff_refines.trans refines_cons

theorem Safe.imp {P Q : σ → Prop} {s : σ} {es : List ε} (h : Safe step P s es) (hPQ : ∀ s, P s → Q s) :
    Safe step Q s es := fun ds hds =>
  let ⟨t, ht, hP⟩ := h ds hds
  ⟨t, ht, hPQ t hP⟩

theorem eachStep_nil {C : σ → ε → Prop} {s : σ} : EachStep step C s [] := by
  intro ds e hds
  have := hds.length_le
  simp at this

theorem eachStep_cons {C : σ → ε → Prop} {s : σ} {e : ε} {es : List ε} :
    EachStep step C s (e :: es) ↔ C s e ∧ ∀ s', step s e = .ok s' → EachStep step C s' es := by
  constructor
  · intro h
    refine ⟨h [] e (by simp) s rfl, fun s' hs' ds d hds t ht => ?_⟩
    exact h (e :: ds) d ((List.prefix_cons_inj e).mpr hds) t (run_cons_eq_ok.mpr ⟨s', hs', ht⟩)
  · rintro ⟨hc, h⟩ ds d hds t ht
    cases ds with
    | nil =>
      obtain ⟨rfl, -⟩ := List.cons_prefix_cons.mp hds
      cases ht; exact hc
    | cons d' ds =>
      obtain ⟨rfl, htail⟩ := List.cons_prefix_cons.mp hds
      obtain ⟨s', hs', ht⟩ := run_cons_eq_ok.mp ht
      exact h s' hs' ds d htail t ht

theorem eachStep_singleton {C : σ → ε → Prop} {s : σ} {e : ε} (h : C s e) : EachStep step C s [e] :=
  eachStep_cons.mpr ⟨h, fun _ _ => eachStep_nil⟩

theorem EachStep.imp {C D : σ → ε → Prop} {s : σ} {es : List ε} (h : EachStep step C s es)
    (hCD : ∀ s e, C s e → D s e) : EachStep step D s es := fun ds e hds t ht => hCD t e (h ds e hds t ht)

theorem EachStep.of_prefix {C : σ → ε → Prop} {s : σ} {es fs : List ε} (h : EachStep step C s es)
    (hfs : fs <+: es) : EachStep step C s fs := fun ds e hds => h ds e (hds.trans hfs)

theorem EachStep.of_append {C : σ → ε → Prop} {s : σ} {es fs : List ε}
    (h : EachStep step C s (es ++ fs)) : EachStep step C s es := h.of_prefix (List.prefix_append es fs)

theorem EachStep.rest {C : σ → ε → Prop} {s t : σ} {es fs : List ε} (h : EachStep step C s (es ++ fs))
    (ht : run step s es = .ok t) : EachStep step C t fs := fun ds e hds u hu =>
  h (es ++ ds) e (by rwa [List.append_assoc, List.prefix_append_right_inj]) u (run_append_eq_ok.mpr ⟨t, ht, hu⟩)

theorem EachStep.append {C : σ → ε → Prop} {s : σ} {es fs : List ε} (h : EachStep step C s es)
    (h' : ∀ t, run step s es = .ok t → EachStep step C t fs) : EachStep step C s (es ++ fs) := by
  induction es generalizing s with
  | nil => exact h' s rfl
  | cons e es ih =>
    obtain ⟨he, hes⟩ := eachStep_cons.mp h
    exact eachStep_cons.mpr ⟨he, fun u hu => ih (hes u hu) fun t ht => h' t (run_cons_eq_ok.mpr ⟨u, hu, ht⟩)⟩

/-- **What holds at the end and not at the beginning has become true on the way.** -/
theorem exists_crosses {P : σ → Prop} {s t : σ} {es : List ε} (h : ¬ P s) (ht : run step s es = .ok t)
    (hP : P t) : ∃ u, Crosses step P s es u := by
  induction es generalizing s with
  | nil =>
    cases ht
    exact (h hP).elim
  | cons e es ih =>
    obtain ⟨s', hs', ht⟩ := run_cons_eq_ok.mp ht
    by_cases h' : P s'
    · exact ⟨s, [], e, s', (List.prefix_cons_inj e).mpr List.nil_prefix, rfl, h, hs', h'⟩
    · obtain ⟨u, ds, d, u', hds, hu, hrest⟩ := ih h' ht
      exact ⟨u, e :: ds, d, u', (List.prefix_cons_inj e).mpr hds, run_cons_eq_ok.mpr ⟨s', hs', hu⟩, hrest⟩

/-- A condition on steps is checked along a run by running it. -/
instance decidableEachStep {C : σ → ε → Prop} [∀ s e, Decidable (C s e)] :
    ∀ (s : σ) (es : List ε), Decidable (EachStep step C s es)
  | _, [] => .isTrue eachStep_nil
  | s, e :: es =>
    match h : step s e with
    | .error _ => decidable_of_iff (C s e) (by rw [eachStep_cons]; simp [h])
    | .ok s' =>
      have := decidableEachStep (C := C) s' es
      decidable_of_iff (C s e ∧ EachStep step C s' es) (by rw [eachStep_cons]; simp [h])

/-- Whether a run ends well is found by running it. -/
instance decidableExistsOk {P : σ → Prop} [DecidablePred P] :
    ∀ x : Except φ σ, Decidable (∃ t, x = .ok t ∧ P t)
  | .error _ => .isFalse fun ⟨_, h, _⟩ => (by cases h)
  | .ok t => decidable_of_iff (P t) ⟨fun h => ⟨t, rfl, h⟩, fun ⟨_, h, hP⟩ => (by cases h; exact hP)⟩

/-- **What every step preserves holds at the end of a run.** The steps may be restricted to those
that meet `G`. -/
theorem run_invariant {I : σ → Prop} {G : σ → ε → Prop}
    (hstep : ∀ s e s', I s → G s e → step s e = .ok s' → I s') {s t : σ} {es : List ε}
    (h : I s) (hg : EachStep step G s es) (hrun : run step s es = .ok t) : I t := by
  induction es generalizing s with
  | nil => cases hrun; exact h
  | cons e es ih =>
    obtain ⟨s', hs', hrun⟩ := run_cons_eq_ok.mp hrun
    obtain ⟨hge, hg⟩ := eachStep_cons.mp hg
    exact ih (hstep s e s' h hge hs') (hg s' hs') hrun

/-- **A run is safe when every step is**: from a state in `I`, under the condition `C`, a step
does not fail and leads to a state in `I` again. -/
theorem safe_of_step {I P : σ → Prop} {C : σ → ε → Prop} (hP : ∀ s, I s → P s)
    (hstep : ∀ s e, I s → C s e → ∃ s', step s e = .ok s' ∧ I s') {s : σ} {es : List ε} (h : I s)
    (hc : EachStep step C s es) : Safe step P s es := by
  induction es generalizing s with
  | nil => exact safe_nil.mpr (hP s h)
  | cons e es ih =>
    obtain ⟨hce, hc⟩ := eachStep_cons.mp hc
    obtain ⟨s', hs', h'⟩ := hstep s e h hce
    exact safe_cons.mpr ⟨hP s h, s', hs', ih h' (hc s' hs')⟩

/-- **A condition whose first violation is never made good.** While the steps meet `C`, the state
is in `Good`; one that does not leads to `Doomed`, which every later step keeps. -/
theorem good_or_doomed {I Good Doomed : σ → Prop} {G C : σ → ε → Prop}
    (hinv : ∀ s e s', I s → G s e → step s e = .ok s' → I s')
    (hgood : ∀ s e s', I s → Good s → G s e → C s e → step s e = .ok s' → Good s')
    (hviolated : ∀ s e s', I s → Good s → G s e → ¬ C s e → step s e = .ok s' → Doomed s')
    (hdoomed : ∀ s e s', I s → Doomed s → G s e → step s e = .ok s' → Doomed s')
    {s t : σ} {es : List ε} (h : I s) (hs : Good s) (hg : EachStep step G s es)
    (hrun : run step s es = .ok t) :
    (EachStep step C s es ∧ Good t) ∨ (¬ EachStep step C s es ∧ Doomed t) := by
  induction es generalizing s with
  | nil =>
    cases hrun
    exact .inl ⟨eachStep_nil, hs⟩
  | cons e es ih =>
    obtain ⟨s', hs', hrun⟩ := run_cons_eq_ok.mp hrun
    obtain ⟨hge, hg⟩ := eachStep_cons.mp hg
    have h' := hinv s e s' h hge hs'
    by_cases hc : C s e
    · rcases ih h' (hgood s e s' h hs hge hc hs') (hg s' hs') hrun with ⟨hc', ht⟩ | ⟨hc', ht⟩
      · refine .inl ⟨eachStep_cons.mpr ⟨hc, fun s'' hs'' => ?_⟩, ht⟩
        rw [hs'] at hs''
        cases hs''
        exact hc'
      · exact .inr ⟨fun heach => hc' ((eachStep_cons.mp heach).2 s' hs'), ht⟩
    · refine .inr ⟨fun heach => hc (eachStep_cons.mp heach).1, ?_⟩
      exact run_invariant (I := fun s => I s ∧ Doomed s) (G := G)
        (fun s e s' hi hge hs' => ⟨hinv s e s' hi.1 hge hs', hdoomed s e s' hi.1 hi.2 hge hs'⟩)
        ⟨h', hviolated s e s' h hs hge hc hs'⟩ (hg s' hs') hrun |>.2

/-- **A run stays good exactly when each of its steps meets the condition** under which a step from
a good state is a good step and leads to a good state. The invariant `I` may rest on all of this. -/
theorem always_and_eachStep_iff {I P : σ → Prop} {G Q C : σ → ε → Prop}
    (hinv : ∀ s e s', I s → P s → G s e → C s e → step s e = .ok s' → I s')
    (hstep : ∀ s e, I s → P s → G s e → (((∀ s', step s e = .ok s' → P s') ∧ Q s e) ↔ C s e))
    {s : σ} {es : List ε} (h : I s) (hp : P s) (hg : EachStep step G s es) :
    Always step P s es ∧ EachStep step Q s es ↔ EachStep step C s es := by
  induction es generalizing s with
  | nil => exact iff_of_true ⟨always_nil.mpr hp, eachStep_nil⟩ eachStep_nil
  | cons e es ih =>
    obtain ⟨hge, hg⟩ := eachStep_cons.mp hg
    rw [always_cons, eachStep_cons, eachStep_cons]
    constructor
    · rintro ⟨⟨-, halways⟩, hq, heach⟩
      have hc : C s e := (hstep s e h hp hge).mp
        ⟨fun s' hs' => halways s' hs' [] List.nil_prefix s' rfl, hq⟩
      refine ⟨hc, fun s' hs' => ?_⟩
      have hp' := ((hstep s e h hp hge).mpr hc).1 s' hs'
      exact (ih (hinv s e s' h hp hge hc hs') hp' (hg s' hs')).mp ⟨halways s' hs', heach s' hs'⟩
    · rintro ⟨hc, heach⟩
      obtain ⟨hnext, hq⟩ := (hstep s e h hp hge).mpr hc
      have hrest := fun s' hs' => (ih (hinv s e s' h hp hge hc hs') (hnext s' hs') (hg s' hs')).mpr
        (heach s' hs')
      exact ⟨⟨hp, fun s' hs' => (hrest s' hs').1⟩, hq, fun s' hs' => (hrest s' hs').2⟩

/-- The same where the steps themselves do not matter. -/
theorem always_iff_eachStep {I P : σ → Prop} {G C : σ → ε → Prop}
    (hinv : ∀ s e s', I s → P s → G s e → C s e → step s e = .ok s' → I s')
    (hstep : ∀ s e, I s → P s → G s e → ((∀ s', step s e = .ok s' → P s') ↔ C s e))
    {s : σ} {es : List ε} (h : I s) (hp : P s) (hg : EachStep step G s es) :
    Always step P s es ↔ EachStep step C s es := by
  have hboth := always_and_eachStep_iff (Q := fun _ _ => True) hinv
    (fun s e h hp hg => (and_iff_left trivial).trans (hstep s e h hp hg)) h hp hg
  have htrue : EachStep step (fun _ _ => True) s es := fun _ _ _ _ _ => trivial
  exact (and_iff_left htrue).symm.trans hboth

/-- **A run refines its specification exactly when each of its steps meets the condition** under
which a step does not fail and keeps the relation. The invariant `I` may rest on all of this. -/
theorem refines_iff_eachStep {τ : Type} {spec : τ → ε → τ} {R : σ → τ → Prop} {I : σ → Prop}
    {G C : σ → ε → Prop}
    (hinv : ∀ s a e s', I s → R s a → G s e → C s e → step s e = .ok s' → I s')
    (hstep : ∀ s a e, I s → R s a → G s e → ((∃ s', step s e = .ok s' ∧ R s' (spec a e)) ↔ C s e))
    {s : σ} {a : τ} {es : List ε} (h : I s) (hR : R s a) (hg : EachStep step G s es) :
    Refines step spec R s a es ↔ EachStep step C s es := by
  induction es generalizing s a with
  | nil => exact iff_of_true (refines_nil.mpr hR) eachStep_nil
  | cons e es ih =>
    obtain ⟨hge, hg⟩ := eachStep_cons.mp hg
    rw [refines_cons, eachStep_cons]
    constructor
    · rintro ⟨-, s', hs', hrest⟩
      have hR' : R s' (spec a e) := hrest.start
      have hc : C s e := (hstep s a e h hR hge).mp ⟨s', hs', hR'⟩
      refine ⟨hc, fun s'' hs'' => ?_⟩
      rw [hs'] at hs''
      cases hs''
      exact (ih (hinv s a e s' h hR hge hc hs') hR' (hg s' hs')).mp hrest
    · rintro ⟨hc, heach⟩
      obtain ⟨s', hs', hR'⟩ := (hstep s a e h hR hge).mpr hc
      exact ⟨hR, s', hs',
        (ih (hinv s a e s' h hR hge hc hs') hR' (hg s' hs')).mpr (heach s' hs')⟩

/-- The same for runs that only must not fail, and stay good. -/
theorem safe_iff_eachStep {I P : σ → Prop} {G C : σ → ε → Prop}
    (hinv : ∀ s e s', I s → P s → G s e → C s e → step s e = .ok s' → I s')
    (hstep : ∀ s e, I s → P s → G s e → ((∃ s', step s e = .ok s' ∧ P s') ↔ C s e))
    {s : σ} {es : List ε} (h : I s) (hp : P s) (hg : EachStep step G s es) :
    Safe step P s es ↔ EachStep step C s es :=
  safe_iff_refines.trans
    (refines_iff_eachStep (fun s _ => hinv s) (fun s _ => hstep s) h hp hg)

/-- **A run does not fail exactly when each of its steps meets the condition** under which a step does
not. -/
theorem run_ok_iff_eachStep {I : σ → Prop} {G C : σ → ε → Prop}
    (hinv : ∀ s e s', I s → G s e → step s e = .ok s' → I s')
    (hstep : ∀ s e, I s → G s e → ((∃ s', step s e = .ok s') ↔ C s e)) {s : σ} {es : List ε} (h : I s)
    (hg : EachStep step G s es) : (∃ t, run step s es = .ok t) ↔ EachStep step C s es := by
  have hsafe : Safe step (fun _ => True) s es ↔ EachStep step C s es :=
    safe_iff_eachStep (fun s e s' hi _ hge _ hs' => hinv s e s' hi hge hs')
      (fun s e hi _ hge => by simpa using hstep s e hi hge) h trivial hg
  rw [← hsafe]
  constructor
  · rintro ⟨t, ht⟩ ds ⟨fs, rfl⟩
    obtain ⟨u, hu, -⟩ := run_append_eq_ok.mp ht
    exact ⟨u, hu, trivial⟩
  · intro hsafe
    obtain ⟨t, ht, -⟩ := hsafe es (List.prefix_refl es)
    exact ⟨t, ht⟩

/-- **A run fails as one of its steps does.** -/
theorem error_of_step {I : σ → Prop} {G : σ → ε → Prop} {P : φ → Prop}
    (hinv : ∀ s e s', I s → G s e → step s e = .ok s' → I s')
    (herror : ∀ s e f, I s → G s e → step s e = .error f → P f) {s : σ} {es : List ε} {f : φ} (h : I s)
    (hg : EachStep step G s es) (hf : run step s es = .error f) : P f := by
  induction es generalizing s with
  | nil => cases hf
  | cons e es ih =>
    obtain ⟨hge, hg⟩ := eachStep_cons.mp hg
    cases hs : step s e with
    | error f' =>
      rw [run, hs] at hf
      cases hf
      exact herror s e f h hge hs
    | ok s' =>
      rw [run, hs] at hf
      exact ih (hinv s e s' h hge hs) (hg s' hs) hf

/-! ### Matched runs -/

/-- Both fail, and alike, or neither does and the states stand in the relation. -/
inductive Agree {τ : Type} (R : σ → τ → Prop) : Except φ σ → Except φ τ → Prop where
  | ok {s : σ} {a : τ} : R s a → Agree R (.ok s) (.ok a)
  | error (f : φ) : Agree R (.error f) (.error f)

section Translated

variable {τ δ : Type} {spec : τ → δ → Except φ τ} {R : σ → τ → Prop} {ev : σ → ε → List δ}
  {C G : σ → ε → Prop} {D : τ → δ → Prop}

/-- The events of the specification that the events of a run amount to. -/
def translated (step : σ → ε → Except φ σ) (ev : σ → ε → List δ) : σ → List ε → List δ
  | _, [] => []
  | s, e :: es =>
    ev s e ++ match step s e with
      | .ok s' => translated step ev s' es
      | .error _ => []

theorem translated_cons {s s' : σ} {e : ε} {es : List ε} (hs : step s e = .ok s') :
    translated step ev s (e :: es) = ev s e ++ translated step ev s' es := by
  rw [translated, hs]

/-- **A run is matched by the translated run when every step is.** -/
theorem agree_of_step (hstep : ∀ s a e, R s a → C s e → Agree R (step s e) (run spec a (ev s e)))
    {s : σ} {a : τ} {es : List ε} (h : R s a) (hc : EachStep step C s es) :
    Agree R (run step s es) (run spec a (translated step ev s es)) := by
  induction es generalizing s a with
  | nil => exact .ok h
  | cons e es ih =>
    obtain ⟨he, hes⟩ := eachStep_cons.mp hc
    have hagree := hstep s a e h he
    cases hs : step s e with
    | error f =>
      rw [hs] at hagree
      rw [run, translated, hs, List.append_nil]
      exact hagree
    | ok s' =>
      rw [hs] at hagree
      rw [run, translated_cons hs, hs, run_append]
      cases ha : run spec a (ev s e) with
      | error f =>
        rw [ha] at hagree
        cases hagree
      | ok a' =>
        rw [ha] at hagree
        cases hagree with
        | ok hR => exact ih hR (hes s' hs)

/-- A condition on the steps that becomes a condition on those of the specification. -/
theorem eachStep_translated (hstep : ∀ s a e, R s a → C s e → Agree R (step s e) (run spec a (ev s e)))
    (hcond : ∀ s a e, R s a → C s e → G s e → EachStep spec D a (ev s e))
    {s : σ} {a : τ} {es : List ε} (h : R s a) (hc : EachStep step C s es) (hg : EachStep step G s es) :
    EachStep spec D a (translated step ev s es) := by
  induction es generalizing s a with
  | nil => exact eachStep_nil
  | cons e es ih =>
    obtain ⟨he, hes⟩ := eachStep_cons.mp hc
    obtain ⟨hge, hges⟩ := eachStep_cons.mp hg
    have hagree := hstep s a e h he
    have hfirst := hcond s a e h he hge
    cases hs : step s e with
    | error f =>
      rw [translated, hs, List.append_nil]
      exact hfirst
    | ok s' =>
      rw [translated_cons hs]
      refine hfirst.append fun a' ha => ?_
      rw [hs, ha] at hagree
      cases hagree with
      | ok hR => exact ih hR (hes s' hs) (hges s' hs)

end Translated

end Run

end Lib
