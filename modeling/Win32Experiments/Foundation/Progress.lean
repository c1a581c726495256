import Win32Experiments.Foundation.Run

/-!
# Runs that end

A machine is stuck for some labels where none of them is enabled. Under an invariant by which every
step lowers a measure, all runs are short, whoever chooses the labels: there is no run that goes on,
and every state can be driven to one that is stuck.

* `length_add_le_of_run`: the measure bounds the length of every run;
* `exists_run_stuck`: every state has a run of the labels to a state that is stuck for them.

A state can reach a property where some run leads to a state that has it; it cannot where an
invariant excludes the property (`not_canReach`).
-/

namespace Foundation

variable {σ ε : Type*} {step : σ → ε → Option σ} {L : ε → Prop} {Inv : σ → Prop} {m : σ → ℕ}
  {s t : σ} {es : List ε}

/-- None of the labels is enabled. -/
def Stuck (step : σ → ε → Option σ) (L : ε → Prop) (s : σ) : Prop := ∀ e, L e → step s e = none

/-- **All runs are short.** What a run does not take of the measure is left at its end. -/
theorem length_add_le_of_run
    (hstep : ∀ s e t, Inv s → step s e = some t → Inv t ∧ m t < m s)
    (hrun : run step s es = some t) (hs : Inv s) : es.length + m t ≤ m s := by
  induction es generalizing s with
  | nil =>
    rw [run_nil, Option.some.injEq] at hrun
    rw [hrun, List.length_nil]
    omega
  | cons e es ih =>
    obtain ⟨u, hu, hrest⟩ := run_cons_eq_some.mp hrun
    obtain ⟨hInv, hlt⟩ := hstep s e u hs hu
    have hle := ih hrest hInv
    rw [List.length_cons]
    omega

/-- Steps that lower a measure lead to a state where no step is left. -/
theorem exists_run_stuck
    (hstep : ∀ s e t, Inv s → L e → step s e = some t → Inv t ∧ m t < m s) (hs : Inv s) :
    ∃ es t, (∀ e ∈ es, L e) ∧ run step s es = some t ∧ Stuck step L t := by
  induction hm : m s using Nat.strongRecOn generalizing s with
  | ind k ih =>
    by_cases hstuck : Stuck step L s
    · exact ⟨[], s, fun e he => absurd he List.not_mem_nil, rfl, hstuck⟩
    · unfold Stuck at hstuck
      push Not at hstuck
      obtain ⟨e, hL, he⟩ := hstuck
      obtain ⟨u, hu⟩ := Option.ne_none_iff_exists'.mp he
      obtain ⟨hInv, hlt⟩ := hstep s e u hs hL hu
      obtain ⟨es, t, hall, hrun, ht⟩ := ih (m u) (hm ▸ hlt) hInv rfl
      exact ⟨e :: es, t, List.forall_mem_cons.mpr ⟨hL, hall⟩, run_cons_eq_some.mpr ⟨u, hu, hrun⟩,
        ht⟩

/-! ## What can be reached -/

section CanReach

variable {Q : σ → Prop} {e : ε}

/-- Some run leads from `s` to a state with `Q`. -/
def CanReach (step : σ → ε → Option σ) (Q : σ → Prop) (s : σ) : Prop :=
  ∃ es t, run step s es = some t ∧ Q t

theorem canReach_of_now (h : Q s) : CanReach step Q s := ⟨[], s, rfl, h⟩

theorem canReach_of_step (h : step s e = some t) (ht : CanReach step Q t) : CanReach step Q s := by
  obtain ⟨es, u, hrun, hu⟩ := ht
  exact ⟨e :: es, u, run_cons_eq_some.mpr ⟨t, h, hrun⟩, hu⟩

/-- What an invariant excludes is not reached. -/
theorem not_canReach (hstep : ∀ s e t, Inv s → step s e = some t → Inv t)
    (hno : ∀ s, Inv s → ¬ Q s) (hs : Inv s) : ¬ CanReach step Q s := by
  rintro ⟨es, t, hrun, ht⟩
  exact hno t (run_invariant Inv hstep hrun hs) ht

end CanReach

end Foundation
