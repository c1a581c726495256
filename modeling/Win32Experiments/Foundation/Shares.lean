import Mathlib.Algebra.BigOperators.Ring.List
import Mathlib.Algebra.Order.Floor.Ring
import Mathlib.Tactic.Linarith

/-!
# Shares

A whole amount is handed out by weights, each share rounded down. `sum_shares_le` and
`lt_sum_shares` bound what is handed out: never more than there is, and short of it by less than
one for each share.
-/

namespace Foundation

variable {α : Type*} [Field α] [LinearOrder α] [IsStrictOrderedRing α] [FloorRing α]

/-- What a weight `w` out of `total` gets of `pool`. -/
def share (pool : ℤ) (total w : α) : ℤ := ⌊(pool : α) * w / total⌋

section Shares

variable {pool : ℤ} {total w : α} {ws l : List α}

theorem share_nonneg (hpool : 0 ≤ pool) (htotal : 0 ≤ total) (hw : 0 ≤ w) :
    0 ≤ share pool total w := by
  have hcast : (0 : α) ≤ pool := Int.cast_nonneg hpool
  exact Int.floor_nonneg.mpr (div_nonneg (mul_nonneg hcast hw) htotal)

@[simp] theorem share_zero : share 0 total w = 0 := by
  simp [share]

/-- Rounded down one by one, the terms of a sum are at most the sum. -/
theorem sum_floor_le (l : List α) : ((l.map Int.floor).sum : α) ≤ l.sum := by
  induction l with
  | nil => simp
  | cons a l ih =>
    have ha := Int.floor_le a
    rw [List.map_cons, List.sum_cons, List.sum_cons, Int.cast_add]
    exact add_le_add ha ih

/-- Each term loses less than one. -/
theorem sum_lt_sum_floor (hne : l ≠ []) :
    l.sum < ((l.map Int.floor).sum : α) + (l.length : α) := by
  induction l with
  | nil => contradiction
  | cons a l ih =>
    have ha := Int.lt_floor_add_one a
    rw [List.map_cons, List.sum_cons, List.sum_cons, List.length_cons, Int.cast_add,
      Nat.cast_succ]
    by_cases hl : l = []
    · subst hl
      simp
    · have htail := ih hl
      linarith

omit [LinearOrder α] [IsStrictOrderedRing α] [FloorRing α] in
/-- The exact portions are the whole amount. -/
theorem sum_portions (hne : ws.sum ≠ 0) :
    (ws.map fun w => (pool : α) * w / ws.sum).sum = pool := by
  have hpull : (ws.map fun w => (pool : α) * w / ws.sum) =
      ws.map fun w => (pool / ws.sum) * w := by
    apply List.map_congr_left
    intro w _
    exact mul_div_right_comm _ _ _
  rw [hpull, List.sum_map_mul_left, List.map_id']
  exact div_mul_cancel₀ _ hne

omit [IsStrictOrderedRing α] in
theorem map_share (pool : ℤ) (total : α) (ws : List α) :
    ws.map (share pool total) = (ws.map fun w => (pool : α) * w / total).map Int.floor := by
  rw [List.map_map]
  rfl

/-- The shares are never more than the amount. -/
theorem sum_shares_le (hpos : 0 < ws.sum) : (ws.map (share pool ws.sum)).sum ≤ pool := by
  have hsum := sum_floor_le (ws.map fun w => (pool : α) * w / ws.sum)
  rw [← map_share, sum_portions hpos.ne'] at hsum
  exact_mod_cast hsum

/-- The shares fall short of the amount by less than their number. -/
theorem lt_sum_shares (hpos : 0 < ws.sum) :
    pool < (ws.map (share pool ws.sum)).sum + ws.length := by
  have hne : (ws.map fun w => (pool : α) * w / ws.sum) ≠ [] := by
    intro hnil
    rw [List.map_eq_nil_iff.mp hnil] at hpos
    exact lt_irrefl 0 hpos
  have hsum := sum_lt_sum_floor hne
  rw [← map_share, sum_portions hpos.ne', List.length_map] at hsum
  exact_mod_cast hsum

end Shares

end Foundation
