import Win32Experiments.Foundation.Checked
import Mathlib.Data.List.Range

/-!
# `CreateGradientBrush`

Each row of the bitmap has a colour between two. In the expression of a channel only
`rc.bottom` is divided by, and `rc.top` is taken from the quotient. `interpolates_iff` says for
which rectangles the rows still go from one colour to the other.
-/

namespace Win32Experiments.Win32Ui.Gradient

open Foundation

/-- The members of `item->rc` that the rows depend on. -/
structure Rect where
  top : Int32
  bottom : Int32
deriving DecidableEq

/-- The channels of a row. -/
structure Row where
  r : ℤ
  g : ℤ
  b : ℤ
deriving DecidableEq, Repr

def getRedValue (rgb : UInt32) : ℤ := rgb.toNat % 256
def getGreenValue (rgb : UInt32) : ℤ := rgb.toNat / 256 % 256
def getBlueValue (rgb : UInt32) : ℤ := rgb.toNat / 65536 % 256

/-- `GetRGB`, which takes the lowest byte of each channel. -/
def getRGB (r g b : ℤ) : UInt32 :=
  .ofNat (r % 256 + g % 256 * 256 + b % 256 * 65536).toNat

/-- One channel of the row `i`: `int(c1 + double(i * (c2 - c1) / bottom - top))`. The sum in
`double` is exact, and must fit in the `int` that it becomes. -/
def channel (rc : Rect) (c1 c2 i : ℤ) : Option ℤ := do
  let distance ← checked (c2 - c1)
  let product ← checked (i * distance)
  let quotient ← checkedDiv product rc.bottom.toInt
  let offset ← checked (quotient - rc.top.toInt)
  checked (c1 + offset)

/-- The channels of the row `i`. -/
def row (rc : Rect) (top bottom : UInt32) (i : ℤ) : Option Row := do
  let r ← channel rc (getRedValue top) (getRedValue bottom) i
  let g ← channel rc (getGreenValue top) (getGreenValue bottom) i
  let b ← channel rc (getBlueValue top) (getBlueValue bottom) i
  return ⟨r, g, b⟩

/-- The loop from the row `i` on, with the number of rows to go. -/
def rowsFrom (rc : Rect) (top bottom : UInt32) : ℤ → ℕ → Option (List Row)
  | _, 0 => some []
  | i, n + 1 => do
    let first ← row rc top bottom i
    let rest ← rowsFrom rc top bottom (i + 1) n
    return first :: rest

/-- The rows that `CreateGradientBrush` fills. -/
def createGradientBrush (top bottom : UInt32) (rc : Rect) : Option (List Row) := do
  let height ← checked (rc.bottom.toInt - rc.top.toInt)
  rowsFrom rc top bottom 0 height.toNat

/-- The colour of the brush that a row is filled with. -/
def Row.brush (row : Row) : UInt32 := getRGB row.r row.g row.b

/-! ## What interpolation is -/

/-- The values of a channel lie between the ends and go from one towards the other. -/
structure ChannelInterpolates (c1 c2 : ℤ) (values : List ℤ) : Prop where
  between : ∀ c ∈ values, min c1 c2 ≤ c ∧ c ≤ max c1 c2
  rising : c1 ≤ c2 → values.Pairwise (· ≤ ·)
  falling : c2 ≤ c1 → values.Pairwise (· ≥ ·)

/-- The rows interpolate between two colours. -/
structure Interpolates (top bottom : UInt32) (rows : List Row) : Prop where
  first : (rows.map Row.brush).head? =
    some (getRGB (getRedValue top) (getGreenValue top) (getBlueValue top))
  red : ChannelInterpolates (getRedValue top) (getRedValue bottom) (rows.map Row.r)
  green : ChannelInterpolates (getGreenValue top) (getGreenValue bottom) (rows.map Row.g)
  blue : ChannelInterpolates (getBlueValue top) (getBlueValue bottom) (rows.map Row.b)

/-- The last product of a channel fits in an `int`. -/
def LastFits (rc : Rect) (c1 c2 : ℤ) : Prop := FitsInt ((rc.bottom.toInt - 1) * (c2 - c1))

instance (rc : Rect) (c1 c2 : ℤ) : Decidable (LastFits rc c1 c2) :=
  inferInstanceAs (Decidable (FitsInt _))

/-! ## One channel -/

/-- The channel at `i` of `n` steps from `c1` to `c2`. -/
def interpolate (c1 c2 n i : ℤ) : ℤ := c1 + (i * (c2 - c1)).tdiv n

/-- Both ends of a channel are bytes. -/
def IsByte (c : ℤ) : Prop := 0 ≤ c ∧ c < 256

theorem isByte_red (rgb : UInt32) : IsByte (getRedValue rgb) := by
  rw [IsByte, getRedValue]
  omega

theorem isByte_green (rgb : UInt32) : IsByte (getGreenValue rgb) := by
  rw [IsByte, getGreenValue]
  omega

theorem isByte_blue (rgb : UInt32) : IsByte (getBlueValue rgb) := by
  rw [IsByte, getBlueValue]
  omega

section Channel

variable {rc : Rect} {c1 c2 i c : ℤ}

/-- What a channel is when it is computed. -/
theorem of_channel (h : channel rc c1 c2 i = some c) :
    FitsInt (i * (c2 - c1)) ∧
      c = c1 + ((i * (c2 - c1)).tdiv rc.bottom.toInt - rc.top.toInt) := by
  simp only [channel, Option.bind_eq_bind, Option.bind_eq_some_iff, checked_eq_some,
    checkedDiv_eq_some] at h
  obtain ⟨_, ⟨-, rfl⟩, _, ⟨hproduct, rfl⟩, _, ⟨-, -, rfl⟩, _, ⟨-, rfl⟩, -, rfl⟩ := h
  exact ⟨hproduct, rfl⟩

/-- In a rectangle that starts at the top, a product that fits gives the channel. -/
theorem channel_of_fits (htop : rc.top = 0) (hc1 : IsByte c1) (hc2 : IsByte c2) (hi : 0 ≤ i)
    (hbottom : i < rc.bottom.toInt) (hfits : FitsInt (i * (c2 - c1))) :
    channel rc c1 c2 i = some (interpolate c1 c2 rc.bottom.toInt i) := by
  have hpart := part_between (d := c2 - c1) hi hbottom.le (by omega)
  rw [IsByte] at hc1 hc2
  have hzero : rc.top.toInt = 0 := by rw [htop]; rfl
  have hdistance : FitsInt (c2 - c1) := by rw [FitsInt]; omega
  have hquotient : FitsInt ((i * (c2 - c1)).tdiv rc.bottom.toInt) := by rw [FitsInt]; omega
  have hsum : FitsInt (c1 + (i * (c2 - c1)).tdiv rc.bottom.toInt) := by rw [FitsInt]; omega
  rw [channel, checked_of_fits hdistance, hzero, interpolate]
  simp only [Option.bind_eq_bind, Option.bind_some, checked_of_fits hfits,
    checkedDiv_of_fits (show rc.bottom.toInt ≠ 0 by omega) hquotient, Int.sub_zero,
    checked_of_fits hquotient, checked_of_fits hsum]

/-- Where the last product fits, all do. -/
theorem LastFits.fits (h : LastFits rc c1 c2) (hi : 0 ≤ i) (hbottom : i < rc.bottom.toInt) :
    FitsInt (i * (c2 - c1)) := by
  have hle : i ≤ rc.bottom.toInt - 1 := by omega
  have hzero : FitsInt 0 := by decide
  rcases le_total 0 (c2 - c1) with hd | hd
  · have hlow : 0 ≤ i * (c2 - c1) := mul_nonneg hi hd
    have hhigh := mul_le_mul_of_nonneg_right hle hd
    exact hzero.of_between h (min_le_of_left_le hlow) (le_max_of_le_right hhigh)
  · have hhigh : i * (c2 - c1) ≤ 0 := mul_nonpos_of_nonneg_of_nonpos hi hd
    have hlow := mul_le_mul_of_nonpos_right hle hd
    exact hzero.of_between h (min_le_of_right_le hlow) (le_max_of_le_left hhigh)

/-- The values from the one end to the other interpolate. -/
theorem channelInterpolates_map {n : ℤ} (hn : 0 < n) :
    ChannelInterpolates c1 c2
      ((List.range n.toNat).map fun i : ℕ => interpolate c1 c2 n (0 + i)) := by
  have hzero : ∀ i : ℕ, (0 : ℤ) + i = i := fun i => zero_add _
  simp only [hzero, interpolate]
  refine ⟨?_, ?_, ?_⟩
  · intro c hmem
    obtain ⟨i, hi, rfl⟩ := List.mem_map.mp hmem
    have hlt := List.mem_range.mp hi
    have hpart := part_between (i := i) (d := c2 - c1) (by omega) (show (i : ℤ) ≤ n by omega) hn
    omega
  · intro hle
    apply List.pairwise_lt_range.map
    intro i j hij
    have hpart := part_le_part (i := i) (j := j) (d := c2 - c1) (by omega) (by omega) hn
    omega
  · intro hle
    apply List.pairwise_lt_range.map
    intro i j hij
    have hpart := part_ge_part (i := i) (j := j) (d := c2 - c1) (by omega) (by omega) hn
    omega

end Channel

/-! ## The rows -/

section Rows

variable {rc : Rect} {top bottom : UInt32} {i : ℤ} {n : ℕ} {first : Row} {rows : List Row}

theorem getRedValue_getRGB (r g b : ℤ) : getRedValue (getRGB r g b) = r % 256 := by
  rw [getRedValue, getRGB, UInt32.toNat_ofNat']
  omega

/-- A row is computed exactly if its channels are. -/
theorem row_eq_some : row rc top bottom i = some first ↔
    channel rc (getRedValue top) (getRedValue bottom) i = some first.r ∧
    channel rc (getGreenValue top) (getGreenValue bottom) i = some first.g ∧
    channel rc (getBlueValue top) (getBlueValue bottom) i = some first.b := by
  simp only [row, Option.bind_eq_bind, Option.bind_eq_some_iff, Option.pure_def,
    Option.some.injEq]
  constructor
  · rintro ⟨r, hr, g, hg, b, hb, rfl⟩
    exact ⟨hr, hg, hb⟩
  · rintro ⟨hr, hg, hb⟩
    exact ⟨first.r, hr, first.g, hg, first.b, hb, rfl⟩

theorem rowsFrom_succ (h : rowsFrom rc top bottom i (n + 1) = some rows) :
    ∃ first rest, row rc top bottom i = some first ∧
      rowsFrom rc top bottom (i + 1) n = some rest ∧ rows = first :: rest := by
  simp only [rowsFrom, Option.bind_eq_bind, Option.bind_eq_some_iff, Option.pure_def,
    Option.some.injEq] at h
  obtain ⟨first, hfirst, rest, hrest, rfl⟩ := h
  exact ⟨first, rest, hfirst, hrest, rfl⟩

/-- When the loop ends, each of its rows was computed. -/
theorem row_of_rowsFrom (h : rowsFrom rc top bottom i n = some rows) {k : ℕ} (hk : k < n) :
    ∃ row', row rc top bottom (i + k) = some row' := by
  induction n generalizing i k rows with
  | zero => omega
  | succ n ih =>
    obtain ⟨first, rest, hfirst, hrest, -⟩ := rowsFrom_succ h
    match k with
    | 0 =>
      rw [Nat.cast_zero, add_zero]
      exact ⟨first, hfirst⟩
    | k + 1 =>
      obtain ⟨row', hrow⟩ := ih hrest (Nat.lt_of_succ_lt_succ hk)
      rw [Nat.cast_succ, add_comm (k : ℤ), ← add_assoc]
      exact ⟨row', hrow⟩

/-- Rows that can all be computed are. -/
theorem rowsFrom_eq_map {f : ℤ → Row}
    (h : ∀ k < n, row rc top bottom (i + (k : ℕ)) = some (f (i + (k : ℕ)))) :
    rowsFrom rc top bottom i n = some ((List.range n).map fun k : ℕ => f (i + k)) := by
  induction n generalizing i with
  | zero => rfl
  | succ n ih =>
    have hfirst : row rc top bottom i = some (f i) := by
      have hzero := h 0 (Nat.succ_pos n)
      rwa [Nat.cast_zero, add_zero] at hzero
    have hrest := ih (i := i + 1) fun k hk => by
      have hnext := h (k + 1) (Nat.succ_lt_succ hk)
      rwa [Nat.cast_succ, add_comm (k : ℤ), ← add_assoc] at hnext
    rw [rowsFrom, hfirst, hrest, List.range_succ_eq_map, List.map_cons, List.map_map,
      Nat.cast_zero, add_zero]
    simp only [Option.bind_eq_bind, Option.bind_some, Option.pure_def, Option.some.injEq,
      List.cons.injEq, true_and]
    apply List.map_congr_left
    intro k _
    rw [Function.comp_apply, Nat.cast_succ, add_comm (k : ℤ), ← add_assoc]

/-- The first row of a rectangle, once it has the colour of its start, is at the top. -/
theorem top_of_interpolates (hrow : row rc top bottom 0 = some first)
    (hrows : Interpolates top bottom (first :: rows)) : rc.top = 0 := by
  have hred := of_channel (row_eq_some.mp hrow).1
  have hbetween := hrows.red.between first.r (by simp)
  have hbrush : first.brush =
      getRGB (getRedValue top) (getGreenValue top) (getBlueValue top) :=
    Option.some.inj hrows.first
  have hvalue : first.r % 256 = getRedValue top % 256 := by
    rw [← getRedValue_getRGB first.r first.g first.b,
      ← getRedValue_getRGB _ (getGreenValue top) (getBlueValue top)]
    exact congrArg getRedValue hbrush
  have htop := isByte_red top
  have hbottom := isByte_red bottom
  rw [IsByte] at htop hbottom
  rw [Int.zero_mul, Int.zero_tdiv] at hred
  apply Int32.toInt.inj
  rw [Int32.toInt_zero]
  omega

/-- The row at `i` of `n` steps from the one colour to the other. -/
def interpolateRow (top bottom : UInt32) (n i : ℤ) : Row :=
  ⟨interpolate (getRedValue top) (getRedValue bottom) n i,
    interpolate (getGreenValue top) (getGreenValue bottom) n i,
    interpolate (getBlueValue top) (getBlueValue bottom) n i⟩

/-- These rows interpolate. -/
theorem interpolates_map {n : ℤ} (hn : 0 < n) :
    Interpolates top bottom
      ((List.range n.toNat).map fun i : ℕ => interpolateRow top bottom n (0 + i)) := by
  refine ⟨?_, ?_, ?_, ?_⟩
  · obtain ⟨m, hm⟩ : ∃ m, n.toNat = m + 1 := Nat.exists_eq_succ_of_ne_zero (by omega)
    rw [hm, List.range_succ_eq_map]
    simp [interpolateRow, interpolate, Row.brush]
  · rw [List.map_map]
    exact channelInterpolates_map hn
  · rw [List.map_map]
    exact channelInterpolates_map hn
  · rw [List.map_map]
    exact channelInterpolates_map hn

end Rows

/-- The brush is computed, and its rows interpolate. -/
def RendersGradient (rc : Rect) (top bottom : UInt32) : Prop :=
  ∃ rows, createGradientBrush top bottom rc = some rows ∧ Interpolates top bottom rows

/-- **`CreateGradientBrush` interpolates** exactly in rectangles that start at zero and are small
enough for the products. -/
theorem rendersGradient_iff (rc : Rect) (top bottom : UInt32)
    (hheight : rc.top.toInt < rc.bottom.toInt) :
    RendersGradient rc top bottom ↔ rc.top = 0 ∧
      LastFits rc (getRedValue top) (getRedValue bottom) ∧
      LastFits rc (getGreenValue top) (getGreenValue bottom) ∧
      LastFits rc (getBlueValue top) (getBlueValue bottom) := by
  have hzero : (0 : Int32).toInt = 0 := rfl
  constructor
  · rintro ⟨rows, hrows, hinterpolates⟩
    simp only [createGradientBrush, Option.bind_eq_bind, Option.bind_eq_some_iff,
      checked_eq_some] at hrows
    obtain ⟨_, ⟨-, rfl⟩, hloop⟩ := hrows
    obtain ⟨n, hn⟩ : ∃ n, (rc.bottom.toInt - rc.top.toInt).toNat = n + 1 :=
      Nat.exists_eq_succ_of_ne_zero (by omega)
    rw [hn] at hloop
    obtain ⟨first, rest, hfirst, -, rfl⟩ := rowsFrom_succ hloop
    have htop := top_of_interpolates hfirst hinterpolates
    obtain ⟨last, hlast⟩ := row_of_rowsFrom hloop (Nat.lt_succ_self n)
    have hlastRow : (0 : ℤ) + (n : ℕ) = rc.bottom.toInt - 1 := by
      rw [htop, hzero] at hn
      omega
    rw [hlastRow, row_eq_some] at hlast
    exact ⟨htop, (of_channel hlast.1).1, (of_channel hlast.2.1).1, (of_channel hlast.2.2).1⟩
  · rintro ⟨htop, hred, hgreen, hblue⟩
    rw [htop, hzero] at hheight
    have hrow : ∀ k < rc.bottom.toInt.toNat, row rc top bottom (0 + (k : ℕ)) =
        some (interpolateRow top bottom rc.bottom.toInt (0 + (k : ℕ))) := by
      intro k hk
      have hlow : (0 : ℤ) ≤ 0 + (k : ℕ) := by omega
      have hhigh : (0 : ℤ) + (k : ℕ) < rc.bottom.toInt := by omega
      rw [row_eq_some]
      exact ⟨
        channel_of_fits htop (isByte_red _) (isByte_red _) hlow hhigh (hred.fits hlow hhigh),
        channel_of_fits htop (isByte_green _) (isByte_green _) hlow hhigh (hgreen.fits hlow hhigh),
        channel_of_fits htop (isByte_blue _) (isByte_blue _) hlow hhigh (hblue.fits hlow hhigh)⟩
    refine ⟨_, ?_, interpolates_map hheight⟩
    have hfits : FitsInt rc.bottom.toInt := ⟨rc.bottom.le_toInt, rc.bottom.toInt_lt⟩
    rw [createGradientBrush, htop, hzero, Int.sub_zero, checked_of_fits hfits]
    exact rowsFrom_eq_map hrow

/-- The gradient of the exit button in a rectangle that starts at zero. -/
theorem rendersGradient_at_zero :
    RendersGradient ⟨0, 30⟩ (getRGB 180 0 0) (getRGB 255 180 0) :=
  (rendersGradient_iff ⟨0, 30⟩ (getRGB 180 0 0) (getRGB 255 180 0) (by decide)).mpr (by decide)

/-- Ten rows further down the first row is darker than the start. -/
theorem not_rendersGradient_at_ten :
    ¬ RendersGradient ⟨10, 40⟩ (getRGB 180 0 0) (getRGB 255 180 0) := by
  rintro ⟨rows, hrows, hinterpolates⟩
  have hloop : rowsFrom ⟨10, 40⟩ (getRGB 180 0 0) (getRGB 255 180 0) 0 30 = some rows := hrows
  obtain ⟨first, rest, hfirst, -, rfl⟩ := rowsFrom_succ hloop
  have htop := top_of_interpolates hfirst hinterpolates
  contradiction

end Win32Experiments.Win32Ui.Gradient
