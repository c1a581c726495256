import Mathlib.Algebra.Order.Ring.Int
import Mathlib.Tactic.Common

/-!
# Signed arithmetic that must not overflow

The operations on a 32-bit `int` as partial functions: a result that does not fit is no result,
and neither is a quotient by zero. Division rounds towards zero.
-/

namespace Foundation

/-- The number fits in a 32-bit `int`. -/
def FitsInt (z : ℤ) : Prop := -2 ^ 31 ≤ z ∧ z < 2 ^ 31

instance (z : ℤ) : Decidable (FitsInt z) := inferInstanceAs (Decidable (_ ∧ _))

/-- The result `z` of an operation, where it fits. -/
def checked (z : ℤ) : Option ℤ := if FitsInt z then some z else none

/-- The quotient, where there is one. -/
def checkedDiv (a b : ℤ) : Option ℤ := if b = 0 then none else checked (a.tdiv b)

section Checked

variable {a b c d i j n z : ℤ}

theorem checked_of_fits (h : FitsInt z) : checked z = some z := if_pos h

theorem checked_eq_some : checked z = some c ↔ FitsInt z ∧ z = c := by
  rw [checked]
  split
  · rename_i hfits
    simp [hfits]
  · rename_i hfits
    simp [hfits]

theorem checkedDiv_of_fits (hb : b ≠ 0) (h : FitsInt (a.tdiv b)) :
    checkedDiv a b = some (a.tdiv b) := by
  rw [checkedDiv, if_neg hb, checked_of_fits h]

theorem checkedDiv_eq_some : checkedDiv a b = some c ↔ b ≠ 0 ∧ FitsInt (a.tdiv b) ∧
    a.tdiv b = c := by
  rw [checkedDiv]
  split
  · rename_i hzero
    simp [hzero]
  · rename_i hne
    rw [checked_eq_some, and_iff_right hne]

/-- What is between two numbers that fit does so too. -/
theorem FitsInt.of_between (ha : FitsInt a) (hb : FitsInt b) (hlow : min a b ≤ z)
    (hhigh : z ≤ max a b) : FitsInt z := by
  rw [FitsInt] at ha hb ⊢
  omega

/-! ## Parts of a distance -/

/-- The part `i / n` of the distance `d`, rounded towards zero, lies between zero and `d`. -/
theorem part_between (hi : 0 ≤ i) (hin : i ≤ n) (hn : 0 < n) :
    min 0 d ≤ (i * d).tdiv n ∧ (i * d).tdiv n ≤ max 0 d := by
  have hwhole : (n * d).tdiv n = d := Int.mul_tdiv_cancel_left d hn.ne'
  have hnone : (0 : ℤ).tdiv n = 0 := Int.zero_tdiv n
  rcases le_total 0 d with hd | hd
  · have hlow : (0 : ℤ).tdiv n ≤ (i * d).tdiv n := Int.tdiv_le_tdiv hn (mul_nonneg hi hd)
    have hhigh : (i * d).tdiv n ≤ (n * d).tdiv n :=
      Int.tdiv_le_tdiv hn (mul_le_mul_of_nonneg_right hin hd)
    omega
  · have hhigh : (i * d).tdiv n ≤ (0 : ℤ).tdiv n :=
      Int.tdiv_le_tdiv hn (mul_nonpos_of_nonneg_of_nonpos hi hd)
    have hlow : (n * d).tdiv n ≤ (i * d).tdiv n :=
      Int.tdiv_le_tdiv hn (mul_le_mul_of_nonpos_right hin hd)
    omega

/-- A greater part of a distance is further on. -/
theorem part_le_part (hij : i ≤ j) (hd : 0 ≤ d) (hn : 0 < n) :
    (i * d).tdiv n ≤ (j * d).tdiv n :=
  Int.tdiv_le_tdiv hn (mul_le_mul_of_nonneg_right hij hd)

theorem part_ge_part (hij : i ≤ j) (hd : d ≤ 0) (hn : 0 < n) :
    (j * d).tdiv n ≤ (i * d).tdiv n :=
  Int.tdiv_le_tdiv hn (mul_le_mul_of_nonpos_right hij hd)

end Checked

end Foundation
