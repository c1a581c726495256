import Mathlib.Tactic.Common

/-!
# Runs of a labelled machine

A machine is a partial step function `step : σ → ε → Option σ`: the label carries every
choice the environment makes (which party moves, what an operation returned), and `none`
says that the label is not enabled. A run is the list of its labels.

Seven rules cover what is proved about runs:

* `run_invariant`: what every step preserves holds at the end of every run;
* `run_invariant_of`: the same, when the run's steps meet a condition;
* `run_exact`: when a step outside the condition does damage that no later step repairs,
  the property holds at the end of a run exactly if every step met the condition;
* `run_iff`: the same, when a step keeps the property exactly if it meets the condition;
* `forall_prefix_iff`: when a step outside the condition breaks the property at once, though it
  may come back, the property holds at every point of a run exactly if every step met the
  condition;
* `eachStep_iff`: when, under an invariant that the condition keeps, a step is right exactly if it
  meets the condition, all steps of a run are right exactly if all meet it;
* `run_simulation`: when two machines in related states both take every step that meets the
  condition, and are related again behind it, every run of such steps is a run of both.
-/

namespace Foundation

variable {σ ε : Type*}

/-- The state after the labels `es`, when each is enabled in turn. -/
def run (step : σ → ε → Option σ) : σ → List ε → Option σ
  | s, [] => some s
  | s, e :: es => (step s e).bind fun t => run step t es

/-- `C` holds of every step of the run of `es` from `s`. -/
def EachStep (step : σ → ε → Option σ) (C : σ → ε → Prop) : σ → List ε → Prop
  | _, [] => True
  | s, e :: es => C s e ∧
    match step s e with
    | some t => EachStep step C t es
    | none => True

/-- Whether every step of a run meets a decidable condition can be computed. -/
def EachStep.decide (step : σ → ε → Option σ) (C : σ → ε → Prop) [∀ s e, Decidable (C s e)] :
    ∀ (s : σ) (es : List ε), Decidable (EachStep step C s es)
  | _, [] => isTrue trivial
  | s, e :: es =>
    have : Decidable (match step s e with
        | some t => EachStep step C t es
        | none => True) :=
      match step s e with
      | some t => EachStep.decide step C t es
      | none => isTrue trivial
    inferInstanceAs (Decidable (_ ∧ _))

instance (step : σ → ε → Option σ) (C : σ → ε → Prop) [∀ s e, Decidable (C s e)] (s : σ)
    (es : List ε) : Decidable (EachStep step C s es) :=
  EachStep.decide step C s es

section Rules

variable {step : σ → ε → Option σ} {C K : σ → ε → Prop} {s t : σ} {e : ε} {es : List ε}

@[simp] theorem run_nil : run step s [] = some s := rfl

@[simp] theorem run_cons : run step s (e :: es) = (step s e).bind fun t => run step t es := rfl

/-- A run of `e :: es` is a step followed by a run of `es`. -/
theorem run_cons_eq_some :
    run step s (e :: es) = some t ↔ ∃ u, step s e = some u ∧ run step u es = some t := by
  rw [run_cons, Option.bind_eq_some_iff]

/-- A run may be gone on with. -/
theorem run_append {es' : List ε} {u : σ} (h : run step s es = some t)
    (h' : run step t es' = some u) : run step s (es ++ es') = some u := by
  induction es generalizing s with
  | nil =>
    rw [run_nil, Option.some.injEq] at h
    rw [List.nil_append, h]
    exact h'
  | cons e es ih =>
    obtain ⟨v, hv, hrest⟩ := run_cons_eq_some.mp h
    exact run_cons_eq_some.mpr ⟨v, hv, ih hrest⟩

theorem eachStep_cons {u : σ} (h : step s e = some u) :
    EachStep step C s (e :: es) ↔ C s e ∧ EachStep step C u es := by
  simp only [EachStep, h]

/-- What every step preserves under the condition `C` holds at the end of every run whose
steps all meet `C`. -/
theorem run_invariant_of (Inv : σ → Prop)
    (hstep : ∀ s e t, Inv s → C s e → step s e = some t → Inv t)
    (hC : EachStep step C s es) (hrun : run step s es = some t) (hs : Inv s) : Inv t := by
  induction es generalizing s with
  | nil =>
    rw [run_nil, Option.some.injEq] at hrun
    exact hrun ▸ hs
  | cons e es ih =>
    obtain ⟨u, hu, hrest⟩ := run_cons_eq_some.mp hrun
    obtain ⟨hCe, hCes⟩ := (eachStep_cons hu).mp hC
    exact ih hCes hrest (hstep s e u hs hCe hu)

theorem eachStep_of_forall (h : ∀ s e, C s e) : EachStep step C s es := by
  induction es generalizing s with
  | nil => trivial
  | cons e es ih =>
    refine ⟨h s e, ?_⟩
    split
    · exact ih
    · trivial

@[simp] theorem eachStep_true : EachStep step (fun _ _ => True) s es :=
  eachStep_of_forall fun _ _ => trivial

/-- Two conditions on the steps of a run. -/
theorem eachStep_and : EachStep step C s es → EachStep step K s es →
    EachStep step (fun s e => C s e ∧ K s e) s es := by
  intro hC hK
  induction es generalizing s with
  | nil => trivial
  | cons e es ih =>
    refine ⟨⟨hC.1, hK.1⟩, ?_⟩
    match hu : step s e with
    | none => trivial
    | some u => exact ih ((eachStep_cons hu).mp hC).2 ((eachStep_cons hu).mp hK).2

/-- **Right steps.** Under the invariant `Inv`, which a step that meets `C` keeps, a step is right
exactly if it meets `C`. So every step of a run is right exactly if every step met `C`. -/
theorem eachStep_iff {P : σ → ε → Prop} (Inv : σ → Prop)
    (hiff : ∀ s e t, Inv s → step s e = some t → (P s e ↔ C s e))
    (hgood : ∀ s e t, Inv s → C s e → step s e = some t → Inv t)
    (hrun : run step s es = some t) (hs : Inv s) :
    EachStep step P s es ↔ EachStep step C s es := by
  induction es generalizing s with
  | nil => rfl
  | cons e es ih =>
    obtain ⟨u, hu, hrest⟩ := run_cons_eq_some.mp hrun
    rw [eachStep_cons hu, eachStep_cons hu, hiff s e u hs hu]
    apply and_congr_right
    intro hC
    exact ih hrest (hgood s e u hs hC hu)

/-- What every step preserves holds at the end of every run. -/
theorem run_invariant (Inv : σ → Prop) (hstep : ∀ s e t, Inv s → step s e = some t → Inv t)
    (hrun : run step s es = some t) (hs : Inv s) : Inv t :=
  run_invariant_of Inv (fun s e t hs _ => hstep s e t hs) eachStep_true hrun hs

/-- A machine that is never stuck under an invariant has a run of every list of labels. -/
theorem run_isSome (Inv : σ → Prop) (hstep : ∀ s e t, Inv s → step s e = some t → Inv t)
    (hsome : ∀ s e, Inv s → (step s e).isSome) (hs : Inv s) : ∃ t, run step s es = some t := by
  induction es generalizing s with
  | nil => exact ⟨s, rfl⟩
  | cons e es ih =>
    obtain ⟨u, hu⟩ := Option.isSome_iff_exists.mp (hsome s e hs)
    obtain ⟨t, ht⟩ := ih (hstep s e u hs hu)
    exact ⟨t, run_cons_eq_some.mpr ⟨u, hu, ht⟩⟩

/-- **Exact conditions.** Steps under `C` keep `Good`; the first step outside `C` leads to
`Bad`, and `Bad` stays. So among the runs that respect the environment's contract `K`, the
ones that end outside `Bad` are those whose steps all met `C`. -/
theorem run_exact (Good Bad : σ → Prop)
    (hgood : ∀ s e t, Good s → K s e → C s e → step s e = some t → Good t)
    (hbad : ∀ s e t, Good s → K s e → ¬ C s e → step s e = some t → Bad t)
    (hstay : ∀ s e t, Bad s → K s e → step s e = some t → Bad t)
    (hK : EachStep step K s es) (hrun : run step s es = some t) (hs : Good s) :
    (Good t ∧ EachStep step C s es) ∨ (Bad t ∧ ¬ EachStep step C s es) := by
  induction es generalizing s with
  | nil =>
    rw [run_nil, Option.some.injEq] at hrun
    exact Or.inl ⟨hrun ▸ hs, trivial⟩
  | cons e es ih =>
    obtain ⟨u, hu, hrest⟩ := run_cons_eq_some.mp hrun
    obtain ⟨hKe, hKes⟩ := (eachStep_cons hu).mp hK
    rw [eachStep_cons hu]
    by_cases hCe : C s e
    · rcases ih hKes hrest (hgood s e u hs hKe hCe hu) with ⟨ht, hes⟩ | ⟨ht, hes⟩
      · exact Or.inl ⟨ht, hCe, hes⟩
      · exact Or.inr ⟨ht, fun h => hes h.2⟩
    · refine Or.inr ⟨?_, fun h => hCe h.1⟩
      exact run_invariant_of Bad hstay hKes hrest (hbad s e u hs hKe hCe hu)

/-- **Step by step.** Under the invariant `Inv` a step keeps `P` exactly if it meets `C`, and
brings a lost `P` never back. So `P` holds at the end of a run if it held at the start and every
step met `C`. -/
theorem run_iff (Inv P : σ → Prop)
    (hinv : ∀ s e t, Inv s → K s e → step s e = some t → Inv t)
    (hiff : ∀ s e t, Inv s → K s e → step s e = some t → (P t ↔ P s ∧ C s e))
    (hK : EachStep step K s es) (hrun : run step s es = some t) (hs : Inv s) :
    Inv t ∧ (P t ↔ P s ∧ EachStep step C s es) := by
  induction es generalizing s with
  | nil =>
    rw [run_nil, Option.some.injEq] at hrun
    exact ⟨hrun ▸ hs, hrun ▸ (and_iff_left trivial).symm⟩
  | cons e es ih =>
    obtain ⟨u, hu, hrest⟩ := run_cons_eq_some.mp hrun
    obtain ⟨hKe, hKes⟩ := (eachStep_cons hu).mp hK
    obtain ⟨ht, hPt⟩ := ih hKes hrest (hinv s e u hs hKe hu)
    exact ⟨ht, by rw [hPt, hiff s e u hs hKe hu, eachStep_cons hu, and_assoc]⟩

/-- **At every point.** Under the invariant `Inv` the property `P` holds; a step that meets `C`
keeps `Inv`, and a step that does not leads to a state without `P`. So `P` holds at every point
of a run exactly if every step met `C`. -/
theorem forall_prefix_iff (Inv P : σ → Prop) (hP : ∀ s, Inv s → P s)
    (hgood : ∀ s e t, Inv s → C s e → step s e = some t → Inv t)
    (hbad : ∀ s e t, Inv s → ¬ C s e → step s e = some t → ¬ P t)
    (hrun : run step s es = some t) (hs : Inv s) :
    (∀ es' u, es' <+: es → run step s es' = some u → P u) ↔ EachStep step C s es := by
  induction es generalizing s with
  | nil =>
    refine iff_of_true ?_ trivial
    intro es' u hprefix hu
    rw [List.prefix_nil.mp hprefix, run_nil, Option.some.injEq] at hu
    exact hu ▸ hP s hs
  | cons e es ih =>
    obtain ⟨v, hv, hrest⟩ := run_cons_eq_some.mp hrun
    rw [eachStep_cons hv]
    constructor
    · intro hall
      have hC : C s e := by
        by_contra hCe
        apply hbad s e v hs hCe hv
        apply hall [e] v (List.prefix_append [e] es)
        rw [run_cons_eq_some]
        exact ⟨v, hv, rfl⟩
      refine ⟨hC, (ih hrest (hgood s e v hs hC hv)).mp ?_⟩
      intro es' u hprefix hu
      apply hall (e :: es') u (List.cons_prefix_cons.mpr ⟨rfl, hprefix⟩)
      exact run_cons_eq_some.mpr ⟨v, hv, hu⟩
    · rintro ⟨hC, hCs⟩ es' u hprefix hu
      cases es' with
      | nil =>
        rw [run_nil, Option.some.injEq] at hu
        exact hu ▸ hP s hs
      | cons e' es' =>
        obtain ⟨rfl, hrestPrefix⟩ := List.cons_prefix_cons.mp hprefix
        obtain ⟨w, hw, hu⟩ := run_cons_eq_some.mp hu
        obtain rfl : w = v := Option.some.inj (hw.symm.trans hv)
        exact (ih hrest (hgood s e' w hs hC hv)).mpr hCs es' u hrestPrefix hu

/-- **Lock-step simulation.** From related states both machines take a step that meets `K`, and the
states behind it are related again. The second machine's label of a step is that of the first under
`f`. -/
theorem run_simulation {τ δ : Type*} {step' : τ → δ → Option τ} {R : σ → τ → Prop} {t : τ}
    (f : ε → δ)
    (hstep : ∀ s t e, R s t → K s e →
      ∃ s' t', step s e = some s' ∧ step' t (f e) = some t' ∧ R s' t')
    (hK : EachStep step K s es) (hR : R s t) :
    ∃ s' t', run step s es = some s' ∧ run step' t (es.map f) = some t' ∧ R s' t' := by
  induction es generalizing s t with
  | nil => exact ⟨s, t, rfl, rfl, hR⟩
  | cons e es ih =>
    obtain ⟨s', t', hs, ht, hR'⟩ := hstep s t e hR hK.1
    obtain ⟨s'', t'', hrun, hrun', hR''⟩ := ih ((eachStep_cons hs).mp hK).2 hR'
    refine ⟨s'', t'', run_cons_eq_some.mpr ⟨s', hs, hrun⟩, ?_, hR''⟩
    exact run_cons_eq_some.mpr ⟨t', ht, hrun'⟩

end Rules

end Foundation
