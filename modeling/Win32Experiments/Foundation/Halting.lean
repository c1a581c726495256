import Mathlib.Logic.Relation
import Mathlib.Order.Preorder.Finite
import Mathlib.Tactic.Common

/-!
# Loops that return

A loop is a function `turn : σ → Except ρ σ`: a turn goes on with a new state, or leaves the loop
with a result. `Returns turn s r` says that the loop entered in `s` ends with the result `r`.

* `returns_iff`: it does exactly if it reaches a state whose turn leaves with `r`;
* `reaches_of_measure`: it comes to its goal when every turn before it lowers a measure;
* `returns_of_measure`: it ends when every turn lowers a measure;
* `not_returns`: it never ends when an invariant holds under which no turn leaves;
* `exists_returns_iff`: where the states reached show finitely many views, and the view decides
  what comes next, it ends exactly if it never comes back to a view.
-/

namespace Foundation

variable {σ ρ κ : Type*}

/-- The result of the loop within the turns given. -/
def loop (turn : σ → Except ρ σ) : ℕ → σ → Option ρ
  | 0, _ => none
  | n + 1, s =>
    match turn s with
    | .error r => some r
    | .ok t => loop turn n t

/-- The loop ends with the result `r`. -/
def Returns (turn : σ → Except ρ σ) (s : σ) (r : ρ) : Prop := ∃ n, loop turn n s = some r

/-- The loop comes from `s` to `t`. -/
def Reaches (turn : σ → Except ρ σ) : σ → σ → Prop :=
  Relation.ReflTransGen fun s t => turn s = .ok t

/-- The loop comes from `s` to `t` in at least one turn. -/
def ReachesAgain (turn : σ → Except ρ σ) : σ → σ → Prop :=
  Relation.TransGen fun s t => turn s = .ok t

section Rules

variable {turn : σ → Except ρ σ} {s t u : σ} {r : ρ} {n : ℕ}

theorem loop_of_ok (h : turn s = .ok t) : loop turn (n + 1) s = loop turn n t := by
  rw [loop, h]

theorem loop_of_error (h : turn s = .error r) : loop turn (n + 1) s = some r := by
  rw [loop, h]

/-! ## Where a loop ends -/

theorem returns_of_error (h : turn s = .error r) : Returns turn s r :=
  ⟨1, loop_of_error h⟩

/-- A turn changes nothing about how the loop ends. -/
theorem returns_of_ok (h : turn s = .ok t) : Returns turn s r ↔ Returns turn t r := by
  constructor
  · rintro ⟨n, hn⟩
    match n with
    | 0 => exact absurd hn (by simp [loop])
    | n + 1 => exact ⟨n, loop_of_ok h ▸ hn⟩
  · rintro ⟨n, hn⟩
    exact ⟨n + 1, loop_of_ok h ▸ hn⟩

theorem returns_of_reaches (h : Reaches turn s t) : Returns turn s r ↔ Returns turn t r := by
  induction h with
  | refl => rfl
  | tail _ hturn ih => rw [ih, returns_of_ok hturn]

/-- The loop ends with `r` exactly if it reaches a state whose turn leaves with `r`. -/
theorem returns_iff : Returns turn s r ↔ ∃ t, Reaches turn s t ∧ turn t = .error r := by
  constructor
  · rintro ⟨n, hn⟩
    induction n generalizing s with
    | zero => exact absurd hn (by simp [loop])
    | succ n ih =>
      match hturn : turn s with
      | .error r' =>
        rw [loop_of_error hturn, Option.some.injEq] at hn
        exact ⟨s, .refl, hn ▸ hturn⟩
      | .ok s' =>
        obtain ⟨t, hreach, ht⟩ := ih (loop_of_ok hturn ▸ hn)
        exact ⟨t, hreach.head hturn, ht⟩
  · rintro ⟨t, hreach, ht⟩
    exact (returns_of_reaches hreach).mpr (returns_of_error ht)

/-- A loop ends in one way only. -/
theorem Returns.unique {r' : ρ} (h : Returns turn s r) (h' : Returns turn s r') : r = r' := by
  obtain ⟨t, hreach, ht⟩ := returns_iff.mp h
  obtain ⟨n, hn⟩ := (returns_of_reaches hreach).mp h'
  match n with
  | 0 => exact absurd hn (by simp [loop])
  | n + 1 =>
    rw [loop_of_error ht, Option.some.injEq] at hn
    exact hn

/-- What every turn keeps holds of every state reached. -/
theorem Reaches.invariant {Inv : σ → Prop} (h : Reaches turn s t)
    (hturn : ∀ s t, Inv s → turn s = .ok t → Inv t) (hs : Inv s) : Inv t := by
  induction h with
  | refl => exact hs
  | tail _ hstep ih => exact hturn _ _ ih hstep

/-- A loop comes to its goal when every turn before it goes on and lowers a measure, under the
invariant it started with. -/
theorem reaches_of_measure {Inv Goal : σ → Prop} (m : σ → ℕ)
    (hturn : ∀ s, Inv s → ¬ Goal s → ∃ t, turn s = .ok t ∧ Inv t ∧ m t < m s) (hs : Inv s) :
    ∃ t, Inv t ∧ Goal t ∧ Reaches turn s t := by
  induction hm : m s using Nat.strong_induction_on generalizing s with
  | h k ih =>
    by_cases hgoal : Goal s
    · exact ⟨s, hs, hgoal, .refl⟩
    · obtain ⟨s', hstep, hs', hlt⟩ := hturn s hs hgoal
      obtain ⟨t, ht, hgoal, hreach⟩ := ih (m s') (hm ▸ hlt) hs' rfl
      exact ⟨t, ht, hgoal, hreach.head hstep⟩

/-- A loop ends when every turn lowers a measure, and under the invariant it started with. -/
theorem returns_of_measure {Inv : σ → Prop} (m : σ → ℕ)
    (hturn : ∀ s t, Inv s → turn s = .ok t → Inv t ∧ m t < m s) (hs : Inv s) :
    ∃ t r, Inv t ∧ Reaches turn s t ∧ turn t = .error r := by
  have hgoes : ∀ s, Inv s → (¬ ∃ r, turn s = .error r) → ∃ t, turn s = .ok t ∧ Inv t ∧
      m t < m s := by
    intro s hs hno
    match hstep : turn s with
    | .error r => exact absurd ⟨r, hstep⟩ hno
    | .ok t => exact ⟨t, rfl, hturn s t hs hstep⟩
  obtain ⟨t, ht, ⟨r, hleave⟩, hreach⟩ := reaches_of_measure m hgoes hs
  exact ⟨t, r, ht, hreach, hleave⟩

/-- A loop never ends under an invariant that lets every turn go on. -/
theorem not_returns {Inv : σ → Prop} (hturn : ∀ s, Inv s → ∃ t, turn s = .ok t ∧ Inv t)
    (hs : Inv s) : ¬ Returns turn s r := by
  intro hr
  obtain ⟨t, hreach, hleave⟩ := returns_iff.mp hr
  have ht : Inv t := by
    apply hreach.invariant _ hs
    intro a b ha hab
    obtain ⟨c, hc, hInv⟩ := hturn a ha
    rw [hab, Except.ok.injEq] at hc
    exact hc ▸ hInv
  obtain ⟨u, hu, -⟩ := hturn t ht
  rw [hleave] at hu
  contradiction

/-! ## Loops over finitely many views -/

/-- The further a loop is, the fewer turns it needs. -/
theorem loop_isSome_of_reaches (h : Reaches turn s t) (hs : (loop turn n s).isSome) :
    (loop turn n t).isSome := by
  induction n generalizing s t with
  | zero => exact absurd hs (by simp [loop])
  | succ n ih =>
    obtain rfl | ⟨s', hturn, hrest⟩ := h.cases_head
    · exact hs
    · rw [loop_of_ok hturn] at hs
      have hlater := ih hrest hs
      match hleave : turn t with
      | .error r => rw [loop_of_error hleave]; rfl
      | .ok t' =>
        rw [loop_of_ok hleave]
        exact ih (hrest.tail hleave) hs

variable {view : σ → κ}

/-- States of one view need the same turns, when the view decides what comes next. -/
theorem loop_isSome_congr (hview : ∀ a b a', view a = view b → turn a = .ok a' →
      ∃ b', turn b = .ok b' ∧ view a' = view b')
    (h : view s = view t) (ht : (loop turn n t).isSome) : (loop turn n s).isSome := by
  induction n generalizing s t with
  | zero => exact absurd ht (by simp [loop])
  | succ n ih =>
    match hturn : turn s with
    | .error r => rw [loop_of_error hturn]; rfl
    | .ok s' =>
      obtain ⟨t', ht', hsame⟩ := hview s t s' h hturn
      rw [loop_of_ok hturn]
      exact ih hsame (loop_of_ok ht' ▸ ht)

/-- States of one view come to states of one view. -/
theorem reaches_congr (hview : ∀ a b a', view a = view b → turn a = .ok a' →
      ∃ b', turn b = .ok b' ∧ view a' = view b')
    (h : view s = view t) (hreach : Reaches turn s u) :
    ∃ v, Reaches turn t v ∧ view u = view v := by
  induction hreach with
  | refl => exact ⟨t, .refl, h⟩
  | tail _ hturn ih =>
    obtain ⟨v, hv, hsame⟩ := ih
    obtain ⟨w, hw, hnext⟩ := hview _ v _ hsame hturn
    exact ⟨w, hv.tail hw, hnext⟩

/-- A loop that comes back to a view stays in the circle. -/
theorem loop_eq_none_of_reachesAgain (hview : ∀ a b a', view a = view b → turn a = .ok a' →
      ∃ b', turn b = .ok b' ∧ view a' = view b')
    (hagain : ReachesAgain turn s t) (h : view s = view t) : ¬ (loop turn n s).isSome := by
  induction n with
  | zero => simp [loop]
  | succ n ih =>
    intro hs
    obtain ⟨s', hturn, hrest⟩ := Relation.TransGen.head'_iff.mp hagain
    rw [loop_of_ok hturn] at hs
    exact ih (loop_isSome_congr hview h (loop_isSome_of_reaches hrest hs))

/-- **Halting over finitely many views.** When the view of a state decides what comes next, and
the states reached show only finitely many views, the loop ends exactly if it never comes back to
a view. -/
theorem exists_returns_iff (hview : ∀ a b a', view a = view b → turn a = .ok a' →
      ∃ b', turn b = .ok b' ∧ view a' = view b')
    (hfinite : (view '' {t | Reaches turn s t}).Finite) :
    (∃ r, Returns turn s r) ↔
      ∀ t u, Reaches turn s t → ReachesAgain turn t u → view t ≠ view u := by
  constructor
  · rintro ⟨r, hr⟩ t u hreach hagain hsame
    obtain ⟨n, hn⟩ := (returns_of_reaches hreach).mp hr
    exact loop_eq_none_of_reachesAgain hview hagain hsame (Option.isSome_of_eq_some hn)
  · intro hnever
    by_contra hno
    have hgoes : ∀ t, Reaches turn s t → ∃ u, turn t = .ok u := by
      intro t hreach
      match hturn : turn t with
      | .error r => exact absurd ⟨r, returns_iff.mpr ⟨t, hreach, hturn⟩⟩ hno
      | .ok u => exact ⟨u, rfl⟩
    -- The states one after the other; by the pigeonhole principle two of them show one view.
    let next : σ → σ := fun t => match turn t with
      | .ok u => u
      | .error _ => t
    have hnext : ∀ t, Reaches turn s t → turn t = .ok (next t) := by
      intro t hreach
      obtain ⟨u, hu⟩ := hgoes t hreach
      simp only [next, hu]
    have hreach : ∀ i, Reaches turn s (next^[i] s) := by
      intro i
      induction i with
      | zero => exact .refl
      | succ i ih =>
        rw [Function.iterate_succ_apply']
        exact ih.tail (hnext _ ih)
    have hafter : ∀ i k, ReachesAgain turn (next^[i] s) (next^[i + k + 1] s) := by
      intro i k
      induction k with
      | zero =>
        rw [Function.iterate_succ_apply']
        exact .single (hnext _ (hreach i))
      | succ k ih =>
        rw [← Nat.add_assoc, Function.iterate_succ_apply']
        exact ih.tail (hnext _ (hreach (i + k + 1)))
    have hmem : ∀ i, view (next^[i] s) ∈ view '' {t | Reaches turn s t} :=
      fun i => ⟨_, hreach i, rfl⟩
    obtain ⟨i, j, hij, hsame⟩ := Set.Finite.exists_lt_map_eq_of_forall_mem hmem hfinite
    obtain ⟨k, rfl⟩ := Nat.exists_eq_add_of_lt hij
    exact hnever _ _ (hreach i) (hafter i k) hsame

end Rules

end Foundation
