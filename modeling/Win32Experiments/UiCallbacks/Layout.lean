import Win32Experiments.LayoutDemo.VBox

/-!
# `VBox` of `UiCallbacks`

The box has the same members and the same two loops as the one of `layout-demo`, but nothing keeps
a size from being negative. `agrees_iff` says for which windows the two pass the same rectangles.
-/

namespace Win32Experiments.UiCallbacks.VBox

open Foundation LayoutDemo

/-- `itemH`. -/
def itemHeight (flexible : ℤ) (totalWeight : ℚ) (item : LayoutItem) : ℤ :=
  if 0 < item.weight then truncate (flexible * item.weight / totalWeight) else item.fixedSize

/-- `VBox::Apply`. -/
def apply (box : LayoutDemo.VBox) (x y w h : ℤ) : List MoveWindow :=
  let flexible := h - box.totals.1
  placeItems (itemHeight flexible box.totals.2) id box.spacing (x + box.margin)
    (w - box.margin * 2) (y + box.margin) box.items

/-- Both boxes pass the same rectangles, of sizes that are not negative. -/
structure Agrees (box : LayoutDemo.VBox) (x y w h : ℤ) : Prop where
  same : apply box x y w h = box.apply x y w h
  nonneg : ∀ call ∈ apply box x y w h, 0 ≤ call.width ∧ 0 ≤ call.height

/-- The window is wide enough for the margins, and what is missing in its height is less than one
for every share. -/
def Fits (box : LayoutDemo.VBox) (w h : ℤ) : Prop :=
  2 * box.margin ≤ w ∧
    ∀ item ∈ box.items, 0 < item.weight →
      ((box.needed - h : ℤ) : ℚ) * item.weight < box.weights

/-- Rounded towards zero, a number above -1 is not negative. -/
theorem truncate_nonneg_iff {q : ℚ} : 0 ≤ truncate q ↔ -1 < q := by
  rw [truncate]
  split
  · rename_i hq
    have hlt : -1 < q := lt_of_lt_of_le (by norm_num) hq
    exact iff_of_true (Int.floor_nonneg.mpr hq) hlt
  · rw [Int.le_ceil_iff]
    simp

theorem truncate_eq_zero {q : ℚ} (hlow : -1 < q) (hhigh : q ≤ 0) : truncate q = 0 := by
  apply le_antisymm _ (truncate_nonneg_iff.mpr hlow)
  rw [truncate]
  split
  · rename_i hq
    rw [le_antisymm hhigh hq, Int.floor_zero]
  · exact Int.ceil_nonpos.mpr hhigh

section Box

variable {box : LayoutDemo.VBox} {x y w h : ℤ} {item : LayoutItem}

/-- A share is above -1 exactly if what is missing is less than one for it. -/
theorem lt_portion_iff (hmem : item ∈ box.weighted) :
    -1 < ((h - box.needed : ℤ) : ℚ) * item.weight / box.weights ↔
      ((box.needed - h : ℤ) : ℚ) * item.weight < box.weights := by
  rw [lt_div_iff₀ (LayoutDemo.VBox.weights_pos hmem), ← neg_sub h box.needed, Int.cast_neg,
    neg_mul, neg_mul, one_mul, neg_lt]

/-- Where the share is above -1, the item gets the height that it should have. -/
theorem itemHeight_eq (hbox : box.NonNeg) (hmem : item ∈ box.items)
    (hfits : 0 < item.weight → ((box.needed - h : ℤ) : ℚ) * item.weight < box.weights) :
    itemHeight (h - box.needed) box.weights item = box.height h item := by
  rw [itemHeight, VBox.height]
  by_cases hzero : item.weight = 0
  · rw [if_neg (by simp [hzero]), if_pos hzero]
  · have hpos : 0 < item.weight := lt_of_le_of_ne (hbox.weight item hmem) (Ne.symm hzero)
    have hweighted := LayoutDemo.VBox.mem_weighted.mpr ⟨hmem, hpos⟩
    have hweights := LayoutDemo.VBox.weights_pos hweighted
    rw [if_pos hpos, if_neg hzero, VBox.left]
    rcases le_total box.needed h with hroom | hshort
    · have hflexible : (0 : ℤ) ≤ h - box.needed := by omega
      have hcast : (0 : ℚ) ≤ ((h - box.needed : ℤ) : ℚ) := Int.cast_nonneg hflexible
      rw [max_eq_right hflexible, share,
        truncate_of_nonneg (div_nonneg (mul_nonneg hcast hpos.le) hweights.le)]
    · have hflexible : h - box.needed ≤ 0 := by omega
      have hcast : ((h - box.needed : ℤ) : ℚ) ≤ 0 := Int.cast_nonpos.mpr hflexible
      rw [max_eq_left hflexible, share_zero]
      apply truncate_eq_zero ((lt_portion_iff hweighted).mpr (hfits hpos))
      exact div_nonpos_of_nonpos_of_nonneg (mul_nonpos_of_nonpos_of_nonneg hcast hpos.le)
        hweights.le

theorem apply_eq (hbox : box.NonNeg) :
    apply box x y w h =
      placeItems (itemHeight (h - box.needed) box.weights) id box.spacing (x + box.margin)
        (w - box.margin * 2) (y + box.margin) box.items := by
  rw [apply, hbox.totals_eq]

/-- In a window that fits the two boxes agree. -/
theorem agrees_of_fits (hbox : box.NonNeg) (hfits : Fits box w h) : Agrees box x y w h := by
  have hsame : apply box x y w h = box.apply x y w h := by
    rw [apply_eq hbox, hbox.apply_eq, max_eq_right (by have := hfits.1; omega)]
    apply placeItems_congr
    · intro item hmem
      exact itemHeight_eq hbox hmem (hfits.2 item hmem)
    · intro item hmem
      rfl
  refine ⟨hsame, ?_⟩
  rw [hsame]
  exact hbox.apply_nonneg

/-- Where no size is negative, the window fits. -/
theorem fits_of_nonneg (hbox : box.NonNeg) (hne : box.items ≠ [])
    (hnonneg : ∀ call ∈ apply box x y w h, 0 ≤ call.width ∧ 0 ≤ call.height) : Fits box w h := by
  rw [apply_eq hbox] at hnonneg
  have hcall : ∀ item ∈ box.items, 0 ≤ w - box.margin * 2 ∧
      0 ≤ itemHeight (h - box.needed) box.weights item := by
    intro item hmem
    have hheight : itemHeight (h - box.needed) box.weights item ∈
        (placeItems (itemHeight (h - box.needed) box.weights) id box.spacing (x + box.margin)
          (w - box.margin * 2) (y + box.margin) box.items).map MoveWindow.height := by
      rw [map_height_placeItems]
      exact List.mem_map_of_mem hmem
    obtain ⟨call, hplaced, hcall⟩ := List.mem_map.mp hheight
    obtain ⟨-, hwidth, -⟩ := mem_placeItems hplaced
    rw [← hwidth, ← hcall]
    exact hnonneg call hplaced
  constructor
  · obtain ⟨item, hmem⟩ := List.exists_mem_of_ne_nil _ hne
    have hwidth := (hcall item hmem).1
    omega
  · intro item hmem hpos
    have hheight := (hcall item hmem).2
    rw [itemHeight, if_pos hpos, truncate_nonneg_iff] at hheight
    exact (lt_portion_iff (LayoutDemo.VBox.mem_weighted.mpr ⟨hmem, hpos⟩)).mp hheight

/-- **The two boxes.** They agree on an empty box and in the windows that fit, and nowhere else. -/
theorem agrees_iff (box : LayoutDemo.VBox) (x y w h : ℤ) (hbox : box.NonNeg) :
    Agrees box x y w h ↔ box.items = [] ∨ Fits box w h := by
  constructor
  · intro hagrees
    rw [or_iff_not_imp_left]
    intro hne
    exact fits_of_nonneg hbox hne hagrees.nonneg
  · rintro (hnil | hfits)
    · have hempty : apply box x y w h = [] := by
        rw [apply, hnil]
        rfl
      refine ⟨?_, ?_⟩
      · rw [hempty, LayoutDemo.VBox.apply, if_pos hnil]
      · rw [hempty]
        exact List.forall_mem_nil _
    · exact agrees_of_fits hbox hfits

end Box

/-- In a window that fits, one weighted item fills what is left. -/
theorem agrees_one_weighted : Agrees ⟨0, 1, [⟨1, 1, 0⟩]⟩ 0 0 10 10 := by
  apply (agrees_iff ⟨0, 1, [⟨1, 1, 0⟩]⟩ 0 0 10 10 ⟨by decide, by decide, by decide, by decide⟩).mpr
  right
  exact ⟨by decide, by decide +kernel⟩

/-- In a window of no height, the item gets a negative one. -/
theorem not_agrees_no_height : ¬ Agrees ⟨0, 1, [⟨1, 1, 0⟩]⟩ 0 0 10 0 := by
  intro hagrees
  have hnonneg := hagrees.nonneg
  have happly : apply ⟨0, 1, [⟨1, 1, 0⟩]⟩ 0 0 10 0 = [⟨1, 1, 1, 8, -2⟩] := by decide +kernel
  rw [happly] at hnonneg
  exact absurd (hnonneg _ List.mem_cons_self).2 (by decide)

end Win32Experiments.UiCallbacks.VBox
