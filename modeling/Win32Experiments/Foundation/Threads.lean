import Mathlib.Algebra.GroupWithZero.Nat
import Mathlib.Tactic.Common

/-!
# Pools of threads

A pool is the list of the states of its threads; a step of one thread sets one entry. The
lemmas say what that does to the number of threads in a state and to the states of the
others.
-/

namespace Foundation

variable {α : Type*}

/-- Setting one entry moves one from the count of the old value to that of the new. -/
theorem countP_set_add {p : α → Bool} {l : List α} {i : ℕ} {a b : α} (h : l[i]? = some a) :
    (l.set i b).countP p + (if p a then 1 else 0) = l.countP p + if p b then 1 else 0 := by
  induction l generalizing i with
  | nil => simp at h
  | cons c l ih =>
    cases i with
    | zero =>
      rw [List.getElem?_cons_zero, Option.some.injEq] at h
      rw [List.set_cons_zero, List.countP_cons, List.countP_cons, h]
      omega
    | succ i =>
      rw [List.getElem?_cons_succ] at h
      have := ih h
      rw [List.set_cons_succ, List.countP_cons, List.countP_cons]
      omega

/-- Setting one entry takes the weight of the old value from the sum and adds that of the new. -/
theorem sum_map_set_add {f : α → ℕ} {l : List α} {i : ℕ} {a b : α} (h : l[i]? = some a) :
    ((l.set i b).map f).sum + f a = (l.map f).sum + f b := by
  induction l generalizing i with
  | nil => simp at h
  | cons c l ih =>
    cases i with
    | zero =>
      rw [List.getElem?_cons_zero, Option.some.injEq] at h
      rw [List.set_cons_zero, List.map_cons, List.map_cons, List.sum_cons, List.sum_cons, h]
      omega
    | succ i =>
      rw [List.getElem?_cons_succ] at h
      have := ih h
      rw [List.set_cons_succ, List.map_cons, List.map_cons, List.sum_cons, List.sum_cons]
      omega

/-- A bound of the weights bounds their sum. -/
theorem sum_map_le {f : α → ℕ} {k : ℕ} (h : ∀ a, f a ≤ k) (l : List α) :
    (l.map f).sum ≤ k * l.length := by
  induction l with
  | nil => exact Nat.zero_le _
  | cons a l ih =>
    have ha := h a
    rw [List.map_cons, List.sum_cons, List.length_cons, Nat.mul_succ]
    omega

/-- An entry after one was set is the one set, or an old one elsewhere. -/
theorem getElem?_set_eq_some {l : List α} {i j : ℕ} {b c : α} (h : (l.set i b)[j]? = some c) :
    i = j ∧ c = b ∨ i ≠ j ∧ l[j]? = some c := by
  by_cases hij : i = j
  · refine Or.inl ⟨hij, ?_⟩
    rw [hij] at h
    have hlt : j < (l.set j b).length := (List.getElem?_eq_some_iff.mp h).1
    rw [List.length_set] at hlt
    rw [List.getElem?_set_self hlt, Option.some.injEq] at h
    exact h.symm
  · exact Or.inr ⟨hij, by rwa [List.getElem?_set_ne hij] at h⟩

/-- Setting an entry with the property `p` keeps `p` of all entries exactly if the new one has
it. -/
theorem forall_mem_set_iff {p : α → Prop} {l : List α} {i : ℕ} {a b : α} (h : l[i]? = some a)
    (ha : p a) : (∀ x ∈ l.set i b, p x) ↔ (∀ x ∈ l, p x) ∧ p b := by
  constructor
  · intro hall
    have hlt : i < l.length := (List.getElem?_eq_some_iff.mp h).1
    have hb : p b := hall b (List.mem_of_getElem? (List.getElem?_set_self hlt))
    refine ⟨?_, hb⟩
    intro x hx
    obtain ⟨j, hj⟩ := List.mem_iff_getElem?.mp hx
    by_cases hij : i = j
    · rw [← hij, h, Option.some.injEq] at hj
      exact hj ▸ ha
    · exact hall x (List.mem_of_getElem? ((List.getElem?_set_ne hij).trans hj))
  · rintro ⟨hall, hb⟩ x hx
    rcases List.mem_or_eq_of_mem_set hx with hx | rfl
    · exact hall x hx
    · exact hb

/-- A thread that is in a state counted by `p` makes the count positive. -/
theorem countP_pos_of_getElem? {p : α → Bool} {l : List α} {i : ℕ} {a : α}
    (h : l[i]? = some a) (ha : p a = true) : 0 < l.countP p :=
  List.countP_pos_iff.mpr ⟨a, List.mem_of_getElem? h, ha⟩

end Foundation
