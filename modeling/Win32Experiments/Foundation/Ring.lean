import Mathlib.Data.Nat.ModEq
import Mathlib.Tactic.Common

/-!
# Ring buffers

The contents of a ring: the `size` cells from `start` on, where the cell behind the last is
the first. A store behind the contents appends to them, and moving the start drops the first.
-/

namespace Foundation

variable {α : Type*}

/-- The contents of the ring; `d` stands for a cell that does not exist. -/
def ring (d : α) (cells : List α) (start size : ℕ) : List α :=
  (List.range size).map fun k => cells.getD ((start + k) % cells.length) d

/-- The cell `i` is one of the `size` cells from `start` on. -/
def InRing (length start size i : ℕ) : Prop := ∃ k < size, (start + k) % length = i

instance (length start size i : ℕ) : Decidable (InRing length start size i) :=
  inferInstanceAs (Decidable (∃ k < size, (start + k) % length = i))

@[simp] theorem length_ring (d : α) (cells : List α) (start size : ℕ) :
    (ring d cells start size).length = size := by
  rw [ring, List.length_map, List.length_range]

@[simp] theorem ring_zero (d : α) (cells : List α) (start : ℕ) : ring d cells start 0 = [] := rfl

/-- Going around less than once does not come back. -/
theorem add_mod_ne {n start k m : ℕ} (hkm : k < m) (hm : m < k + n) :
    (start + k) % n ≠ (start + m) % n := by
  intro heq
  have hdvd : n ∣ m - k := by
    have hmod : start + k ≡ start + m [MOD n] := heq
    have hsub := (Nat.modEq_iff_dvd' (by omega)).mp hmod
    rwa [Nat.add_sub_add_left] at hsub
  have hle := Nat.le_of_dvd (by omega) hdvd
  omega

/-- The cell behind the contents is not one of them while there is room. -/
theorem not_inRing_end {n start size : ℕ} (h : size < n) :
    ¬ InRing n start size ((start + size) % n) := by
  rintro ⟨k, hk, heq⟩
  exact add_mod_ne hk (by omega) heq

/-- A store behind the contents, while there is room, appends to them. -/
theorem ring_push {d a : α} {cells : List α} {start size : ℕ} (h : size < cells.length) :
    ring d (cells.set ((start + size) % cells.length) a) start (size + 1)
      = ring d cells start size ++ [a] := by
  have hend : (start + size) % cells.length < cells.length := Nat.mod_lt _ (by omega)
  rw [ring, ring, List.range_succ, List.map_append, List.map_singleton, List.length_set]
  congr 1
  · apply List.map_congr_left
    intro k hk
    have hne := @add_mod_ne cells.length start k size (List.mem_range.mp hk) (by omega)
    rw [List.getD_eq_getElem?_getD, List.getD_eq_getElem?_getD, List.getElem?_set_ne hne.symm]
  · rw [List.getD_eq_getElem?_getD, List.getElem?_set_self hend, Option.getD_some]

/-- Moving the start by one drops the first of the contents. -/
theorem ring_pop {d : α} {cells : List α} {start size : ℕ} (hstart : start < cells.length) :
    ring d cells start (size + 1)
      = cells.getD start d :: ring d cells ((start + 1) % cells.length) size := by
  rw [ring, ring, List.range_succ_eq_map, List.map_cons, List.map_map, Nat.add_zero,
    Nat.mod_eq_of_lt hstart]
  congr 1
  apply List.map_congr_left
  intro k _
  rw [Function.comp_apply, Nat.mod_add_mod, Nat.succ_eq_add_one, Nat.add_right_comm, Nat.add_assoc]

end Foundation
