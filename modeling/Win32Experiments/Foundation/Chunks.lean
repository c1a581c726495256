import Mathlib.Tactic.Common

/-!
# Consecutive chunks of a list

`chunks n l` cuts `l` into pieces of `n` elements, the last of which may be shorter. A loop that
handles at most `n` elements at a time handles these.
-/

namespace Foundation

variable {α : Type*} {n : ℕ} {l : List α}

/-- The consecutive pieces of `n` elements; there are none for `n = 0`. -/
def chunks (n : ℕ) (l : List α) : List (List α) :=
  if _h : l = [] ∨ n = 0 then [] else l.take n :: chunks n (l.drop n)
termination_by l.length
decreasing_by
  have hlen : l.length ≠ 0 := fun hzero => _h (Or.inl (List.length_eq_zero_iff.mp hzero))
  rw [List.length_drop]
  omega

@[simp] theorem chunks_nil : chunks n ([] : List α) = [] := by
  rw [chunks, dif_pos (Or.inl rfl)]

/-- The first chunk, and those of the rest. -/
theorem chunks_of_ne_nil (hn : 0 < n) (hl : l ≠ []) :
    chunks n l = l.take n :: chunks n (l.drop n) := by
  rw [chunks, dif_neg (by simp [hl]; omega)]

/-- The chunks make up the list. -/
theorem flatten_chunks (hn : 0 < n) (l : List α) : (chunks n l).flatten = l := by
  induction l using chunks.induct n with
  | case1 l h =>
    obtain rfl : l = [] := h.resolve_right (by omega)
    rw [chunks_nil, List.flatten_nil]
  | case2 l h ih =>
    have hl : l ≠ [] := fun hnil => h (Or.inl hnil)
    rw [chunks_of_ne_nil hn hl, List.flatten_cons, ih, List.take_append_drop]

/-- Pieces of one element. -/
theorem chunks_one (l : List α) : chunks 1 l = l.map fun a => [a] := by
  induction l with
  | nil => rw [chunks_nil, List.map_nil]
  | cons a l ih =>
    rw [chunks_of_ne_nil (by omega) (List.cons_ne_nil a l), List.map_cons, ← ih]
    rfl

end Foundation
