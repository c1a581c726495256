import Mathlib.Tactic.Common

/-!
# Windows of a memory block

A block of memory is the list of its cells. `window block off len` is what a pointer to
`block + off` and a length denote, `store` is a copy into the block, and `moveFront` is the
overlapping move of a range to the front. The lemmas say which windows a write changes and
which it leaves alone.
-/

namespace Foundation

variable {α : Type*}

/-- The `len` cells of `block` from offset `off`. -/
def window (block : List α) (off len : ℕ) : List α :=
  (block.drop off).take len

/-- `block` with `cells` written from offset `off`. -/
def store (block : List α) (off : ℕ) (cells : List α) : List α :=
  block.take off ++ cells ++ block.drop (off + cells.length)

/-- `block` after the move of the `len` cells at offset `off` to its front. -/
def moveFront (block : List α) (off len : ℕ) : List α :=
  store block 0 (window block off len)

/-- What a copy of `len` cells from `block + off` reads, bounds unchecked: a read past the
end of the block yields no cell of it. -/
def readCells (block : List α) (off len : ℕ) : List (Option α) :=
  (List.range len).map fun i => block[off + i]?

/-! ## Lengths -/

theorem length_window {block : List α} {off len : ℕ} (h : off + len ≤ block.length) :
    (window block off len).length = len := by
  rw [window, List.length_take, List.length_drop]
  omega

/-- A window reaches no further than its block. -/
theorem length_window_eq_min (block : List α) (off len : ℕ) :
    (window block off len).length = min len (block.length - off) := by
  rw [window, List.length_take, List.length_drop]

/-- A window is a part of its block. -/
theorem isInfix_window (block : List α) (off len : ℕ) : window block off len <:+: block :=
  (List.take_prefix _ _).isInfix.trans (List.drop_suffix _ _).isInfix

theorem length_store {block cells : List α} {off : ℕ} (h : off + cells.length ≤ block.length) :
    (store block off cells).length = block.length := by
  simp only [store, List.length_append, List.length_take, List.length_drop]
  omega

theorem length_moveFront {block : List α} {off len : ℕ} (h : off + len ≤ block.length) :
    (moveFront block off len).length = block.length := by
  apply length_store
  rw [length_window h]
  omega

@[simp] theorem length_readCells (block : List α) (off len : ℕ) :
    (readCells block off len).length = len := by
  rw [readCells, List.length_map, List.length_range]

/-! ## Unchecked reads -/

/-- A read inside the block yields the window it names. -/
theorem readCells_of_le {block : List α} {off len : ℕ} (h : off + len ≤ block.length) :
    readCells block off len = (window block off len).map some := by
  apply List.ext_getElem (by rw [length_readCells, List.length_map, length_window h])
  intro i hi _
  rw [length_readCells] at hi
  have hlt : off + i < block.length := by omega
  simp [readCells, window, List.getElem?_eq_getElem hlt]

/-- A nonempty read that ends past the block has missed a cell. -/
theorem none_mem_readCells {block : List α} {off len : ℕ} (h : block.length < off + len)
    (hlen : 0 < len) : none ∈ readCells block off len := by
  refine List.mem_map.mpr ⟨len - 1, List.mem_range.mpr (by omega), ?_⟩
  exact List.getElem?_eq_none (by omega)

/-! ## Windows inside windows -/

@[simp] theorem window_zero_len (block : List α) (off : ℕ) : window block off 0 = [] := by
  simp [window]

/-- Two adjacent windows make one. -/
theorem window_add (block : List α) (off m n : ℕ) :
    window block off (m + n) = window block off m ++ window block (off + m) n := by
  rw [window, window, window, List.take_add, List.drop_drop]

/-- A window of a window is a window of the block. -/
theorem window_window {block : List α} {off len off' len' : ℕ} (h : off' + len' ≤ len) :
    window (window block off len) off' len' = window block (off + off') len' := by
  rw [window, window, window, List.drop_take, List.take_take, List.drop_drop]
  congr 1
  omega

/-- The rest of a window starts further right. -/
theorem drop_window (block : List α) (off len n : ℕ) :
    (window block off len).drop n = window block (off + n) (len - n) := by
  rw [window, window, List.drop_take, List.drop_drop]

/-- A window inside the first part of a block. -/
theorem window_append_left {a b : List α} {off len : ℕ} (h : off + len ≤ a.length) :
    window (a ++ b) off len = window a off len := by
  rw [window, window, List.drop_append_of_le_length (by omega), List.take_append_of_le_length]
  rw [List.length_drop]
  omega

/-- The window behind the first part of a block. -/
theorem window_append_right {a b : List α} : window (a ++ b) a.length b.length = b := by
  rw [window, List.drop_left, List.take_length]

/-- The window in the middle of a block. -/
theorem window_middle (a b c : List α) : window (a ++ b ++ c) a.length b.length = b := by
  have hle : a.length + b.length ≤ (a ++ b).length := Nat.le_of_eq List.length_append.symm
  rw [window_append_left hle, window_append_right]

/-! ## What a write changes -/

/-- Writing back what a window holds changes nothing. -/
theorem store_window {block : List α} {off len : ℕ} (h : off + len ≤ block.length) :
    store block off (window block off len) = block := by
  rw [store, length_window h, window, ← List.take_add, List.take_append_drop]

/-- A window that ends before the write is unchanged. -/
theorem window_store_before {block cells : List α} {off off' len : ℕ} (h : off' + len ≤ off)
    (hoff : off ≤ block.length) :
    window (store block off cells) off' len = window block off' len := by
  have hlen : off' ≤ (block.take off).length := by
    rw [List.length_take]
    omega
  rw [window, window, store, List.append_assoc, List.drop_append_of_le_length hlen,
    List.take_append_of_le_length, List.drop_take, List.take_take]
  · congr 1
    omega
  · rw [List.length_drop, List.length_take]
    omega

/-- A window that starts behind the write is unchanged. -/
theorem window_store_after {block cells : List α} {off off' len : ℕ}
    (h : off + cells.length ≤ off') (hoff : off + cells.length ≤ block.length) :
    window (store block off cells) off' len = window block off' len := by
  have hlen : (block.take off ++ cells).length = off + cells.length := by
    rw [List.length_append, List.length_take]
    omega
  have hsplit : off' = (block.take off ++ cells).length + (off' - (off + cells.length)) := by
    omega
  have hsum : off + cells.length + (off' - (off + cells.length)) = off' := by omega
  rw [window, window, store, hsplit, List.drop_append, List.drop_of_length_le (by omega),
    List.nil_append, Nat.add_sub_cancel_left, List.drop_drop, hlen, hsum]

/-- The written cells are read back. -/
theorem window_store_self {block cells : List α} {off : ℕ} (hoff : off ≤ block.length) :
    window (store block off cells) off cells.length = cells := by
  have hlen : (block.take off).length = off := by
    rw [List.length_take]
    omega
  rw [window, store, List.append_assoc, List.drop_left' hlen, List.take_left]

/-- Cells written at the end of a window extend it. -/
theorem window_store_append {block cells : List α} {off len : ℕ}
    (hoff : off + len ≤ block.length) :
    window (store block (off + len) cells) off (len + cells.length)
      = window block off len ++ cells := by
  rw [window_add, window_store_before (Nat.le_refl _) hoff, window_store_self hoff]

/-- Cells written at the end of the front extend it. -/
theorem front_store_append {block cells : List α} {len : ℕ} (hlen : len ≤ block.length) :
    window (store block len cells) 0 (len + cells.length) = window block 0 len ++ cells := by
  have hoff : 0 + len ≤ block.length := by omega
  have happ : window (store block (0 + len) cells) 0 (len + cells.length)
      = window block 0 len ++ cells := window_store_append hoff
  rwa [Nat.zero_add] at happ

/-- After a move to the front, the front is what was moved. -/
theorem window_moveFront {block : List α} {off len : ℕ} (h : off + len ≤ block.length) :
    window (moveFront block off len) 0 len = window block off len := by
  have hself : window (store block 0 (window block off len)) 0 (window block off len).length
      = window block off len := window_store_self (Nat.zero_le block.length)
  rwa [length_window h] at hself

end Foundation
