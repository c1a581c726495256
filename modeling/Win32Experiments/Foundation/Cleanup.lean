import Mathlib.Tactic.Common

/-!
# Programs with a cleanup label

A step of such a program goes on with a new state, or jumps to the label with it. `Leads P step Q R`
says that from a state in `P` the step goes on to one in `Q` or jumps with one in `R`.
-/

namespace Foundation

variable {σ : Type*}

/-- From a state in `P` the step goes on to a state in `Q`, or jumps with a state in `R`. -/
structure Leads (P : σ → Prop) (step : σ → Except σ σ) (Q R : σ → Prop) : Prop where
  goesOn : ∀ s t, P s → step s = .ok t → Q t
  jumps : ∀ s t, P s → step s = .error t → R t

/-- The state at the label, come to by a jump or by the last step. -/
def atLabel : Except σ σ → σ
  | .ok s => s
  | .error s => s

variable {P Q Q' R : σ → Prop} {step next : σ → Except σ σ} {s : σ}

theorem Leads.bind (h : Leads P step Q R) (hnext : Leads Q next Q' R) :
    Leads P (fun s => step s >>= next) Q' R := by
  constructor
  · intro s u hs hu
    match hres : step s with
    | .ok t =>
      simp only [hres] at hu
      exact hnext.goesOn t u (h.goesOn s t hs hres) hu
    | .error t =>
      simp only [hres] at hu
      contradiction
  · intro s u hs hu
    match hres : step s with
    | .ok t =>
      simp only [hres] at hu
      exact hnext.jumps t u (h.goesOn s t hs hres) hu
    | .error t =>
      simp only [hres] at hu
      have heq : t = u := Except.error.inj hu
      exact heq ▸ h.jumps s t hs hres

/-- A check: the step goes on if the condition holds, and jumps if not. -/
theorem Leads.ite {c : Prop} [Decidable c] {go jump : σ → σ} (hgo : ∀ s, c → P s → Q (go s))
    (hjump : ∀ s, ¬ c → P s → R (jump s)) :
    Leads P (fun s => if c then .ok (go s) else .error (jump s)) Q R := by
  by_cases hc : c
  · simp only [if_pos hc]
    constructor
    · intro s t hs hres
      exact Except.ok.inj hres ▸ hgo s hc hs
    · intro s t hs hres
      contradiction
  · simp only [if_neg hc]
    constructor
    · intro s t hs hres
      contradiction
    · intro s t hs hres
      exact Except.error.inj hres ▸ hjump s hc hs

/-- Both ways to the label keep what the label needs. -/
theorem Leads.atLabel (h : Leads P step R R) (hs : P s) : R (atLabel (step s)) := by
  match hres : step s with
  | .ok t => exact h.goesOn s t hs hres
  | .error t => exact h.jumps s t hs hres

end Foundation
