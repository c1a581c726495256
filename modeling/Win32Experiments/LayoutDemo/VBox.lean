import Mathlib.Algebra.Order.BigOperators.Group.List
import Mathlib.Data.List.Chain
import Mathlib.Data.Rat.Floor
import Win32Experiments.Foundation.Shares

/-!
# `VBox`

A box stacks its items: one of weight zero has its own height, the others get shares of what the
fixed parts leave. Weights are exact rationals here and sizes exact integers. `partitions` says
what the rectangles passed to `MoveWindow` are.
-/

namespace Win32Experiments.LayoutDemo

open Foundation

structure LayoutItem where
  hwnd : ℕ
  weight : ℚ
  fixedSize : ℤ
deriving DecidableEq, Repr

structure VBox where
  spacing : ℤ
  margin : ℤ
  items : List LayoutItem
deriving DecidableEq, Repr

/-- A call of `MoveWindow`. -/
structure MoveWindow where
  hwnd : ℕ
  x : ℤ
  y : ℤ
  width : ℤ
  height : ℤ
deriving DecidableEq, Repr

/-- `static_cast<int>`, which rounds towards zero. -/
def truncate (q : ℚ) : ℤ := if 0 ≤ q then ⌊q⌋ else ⌈q⌉

/-- The first loop, which adds up `fixedTotal` and `totalWeight`. -/
def addItem (totals : ℤ × ℚ) (item : LayoutItem) : ℤ × ℚ :=
  if item.weight = 0 then (totals.1 + item.fixedSize, totals.2)
  else (totals.1, totals.2 + item.weight)

/-- The totals behind the first loop. -/
def VBox.totals (box : VBox) : ℤ × ℚ :=
  box.items.foldl addItem (box.margin * 2 + box.spacing * ((box.items.length : ℤ) - 1), 0)

/-- The second loop: `itemH` is the height computed for an item, `clip` what is made of it before
it is passed on, and `cy` the running top. -/
def placeItems (itemH : LayoutItem → ℤ) (clip : ℤ → ℤ) (spacing x width : ℤ) :
    ℤ → List LayoutItem → List MoveWindow
  | _, [] => []
  | cy, item :: items =>
    { hwnd := item.hwnd, x := x, y := cy, width := width, height := clip (itemH item) } ::
      placeItems itemH clip spacing x width (cy + itemH item + spacing) items

/-- `itemH`. -/
def itemHeight (flexible : ℤ) (totalWeight : ℚ) (item : LayoutItem) : ℤ :=
  if 0 < item.weight ∧ 0 < totalWeight then truncate (flexible * item.weight / totalWeight)
  else item.fixedSize

/-- `VBox::Apply`. -/
def VBox.apply (box : VBox) (x y w h : ℤ) : List MoveWindow :=
  if box.items = [] then []
  else
    let flexible := max 0 (h - box.totals.1)
    placeItems (itemHeight flexible box.totals.2) (max 0) box.spacing (x + box.margin)
      (max 0 (w - box.margin * 2)) (y + box.margin) box.items

/-! ## What a partition of the column is -/

/-- Nothing in the box is negative. -/
structure VBox.NonNeg (box : VBox) : Prop where
  spacing : 0 ≤ box.spacing
  margin : 0 ≤ box.margin
  weight : ∀ item ∈ box.items, 0 ≤ item.weight
  fixedSize : ∀ item ∈ box.items, 0 ≤ item.fixedSize

/-- The items that share what is left. -/
def VBox.weighted (box : VBox) : List LayoutItem := box.items.filter fun item => 0 < item.weight

/-- The items of a size of their own. -/
def VBox.fixed (box : VBox) : List LayoutItem := box.items.filter fun item => item.weight = 0

/-- What the margins, the gaps and the fixed items need. -/
def VBox.needed (box : VBox) : ℤ :=
  2 * box.margin + box.spacing * ((box.items.length : ℤ) - 1) +
    (box.fixed.map LayoutItem.fixedSize).sum

/-- The weights together. -/
def VBox.weights (box : VBox) : ℚ := (box.weighted.map LayoutItem.weight).sum

/-- What is there to share in a column of height `h`. -/
def VBox.left (box : VBox) (h : ℤ) : ℤ := max 0 (h - box.needed)

/-- The height an item should have. -/
def VBox.height (box : VBox) (h : ℤ) (item : LayoutItem) : ℤ :=
  if item.weight = 0 then item.fixedSize else share (box.left h) box.weights item.weight

/-- The calls of `MoveWindow` partition the column. -/
structure VBox.Partitions (box : VBox) (x y w h : ℤ) (calls : List MoveWindow) : Prop where
  order : calls.map MoveWindow.hwnd = box.items.map LayoutItem.hwnd
  nonneg : ∀ call ∈ calls, 0 ≤ call.width ∧ 0 ≤ call.height
  spaced : calls.IsChain fun above below => below.y = above.y + above.height + box.spacing
  heights : calls.map MoveWindow.height = box.items.map (box.height h)
  shares : box.weighted ≠ [] →
    (box.weighted.map (box.height h)).sum ≤ box.left h ∧
    box.left h < (box.weighted.map (box.height h)).sum + box.weighted.length
  inside : box.needed ≤ h → 2 * box.margin ≤ w → ∀ call ∈ calls,
    x + box.margin ≤ call.x ∧ call.x + call.width ≤ x + w - box.margin ∧
    y + box.margin ≤ call.y ∧ call.y + call.height ≤ y + h - box.margin

/-! ## The totals -/

theorem foldl_addItem (items : List LayoutItem) (totals : ℤ × ℚ) :
    items.foldl addItem totals =
      (totals.1 + ((items.filter fun item => item.weight = 0).map LayoutItem.fixedSize).sum,
        totals.2 + (items.map LayoutItem.weight).sum) := by
  induction items generalizing totals with
  | nil => simp
  | cons item items ih =>
    rw [List.foldl_cons, ih, addItem]
    by_cases hzero : item.weight = 0
    · simp [hzero, add_assoc]
    · simp [hzero, add_assoc]

/-- Items of weight zero add nothing to the weights. -/
theorem sum_weighted {items : List LayoutItem} (hnonneg : ∀ item ∈ items, 0 ≤ item.weight) :
    ((items.filter fun item => 0 < item.weight).map LayoutItem.weight).sum =
      (items.map LayoutItem.weight).sum := by
  induction items with
  | nil => rfl
  | cons item items ih =>
    have htail := ih fun item hmem => hnonneg item (List.mem_cons_of_mem _ hmem)
    rw [List.map_cons, List.sum_cons, ← htail]
    by_cases hpos : 0 < item.weight
    · simp [hpos]
    · have hzero : item.weight = 0 :=
        le_antisymm (not_lt.mp hpos) (hnonneg item List.mem_cons_self)
      simp [hzero]

section Box

variable {box : VBox} {x y w h : ℤ} {item : LayoutItem}

theorem VBox.NonNeg.totals_eq (hbox : box.NonNeg) : box.totals = (box.needed, box.weights) := by
  rw [VBox.totals, foldl_addItem, VBox.needed, VBox.weights, VBox.weighted,
    sum_weighted hbox.weight, mul_comm box.margin 2, zero_add]
  rfl

theorem VBox.mem_weighted : item ∈ box.weighted ↔ item ∈ box.items ∧ 0 < item.weight := by
  rw [VBox.weighted, List.mem_filter, decide_eq_true_eq]

/-- Where there is a weighted item, the weights are positive together. -/
theorem VBox.weights_pos (hmem : item ∈ box.weighted) : 0 < box.weights := by
  have hpos : 0 < item.weight := (VBox.mem_weighted.mp hmem).2
  have hle : item.weight ≤ box.weights := by
    apply List.single_le_sum _ _ (List.mem_map_of_mem hmem)
    intro weight hweight
    obtain ⟨other, hother, rfl⟩ := List.mem_map.mp hweight
    exact (VBox.mem_weighted.mp hother).2.le
  exact lt_of_lt_of_le hpos hle

theorem VBox.weights_nonneg (box : VBox) : 0 ≤ box.weights := by
  apply List.sum_nonneg
  intro weight hweight
  obtain ⟨other, hother, rfl⟩ := List.mem_map.mp hweight
  exact (VBox.mem_weighted.mp hother).2.le

theorem VBox.left_nonneg (box : VBox) (h : ℤ) : 0 ≤ box.left h := le_max_left 0 _

theorem truncate_of_nonneg {q : ℚ} (hq : 0 ≤ q) : truncate q = ⌊q⌋ := if_pos hq

/-- The height computed is the one an item should have. -/
theorem VBox.NonNeg.itemHeight_eq (hbox : box.NonNeg) (hmem : item ∈ box.items) :
    itemHeight (box.left h) box.weights item = box.height h item := by
  rw [itemHeight, VBox.height]
  by_cases hzero : item.weight = 0
  · have hnot : ¬ (0 < item.weight ∧ 0 < box.weights) := fun hpos => hpos.1.ne' hzero
    rw [if_neg hnot, if_pos hzero]
  · have hpos : 0 < item.weight := lt_of_le_of_ne (hbox.weight item hmem) (Ne.symm hzero)
    have hweights : 0 < box.weights := VBox.weights_pos (VBox.mem_weighted.mpr ⟨hmem, hpos⟩)
    have hleft : (0 : ℚ) ≤ box.left h := Int.cast_nonneg (VBox.left_nonneg box h)
    rw [if_pos ⟨hpos, hweights⟩, if_neg hzero,
      truncate_of_nonneg (div_nonneg (mul_nonneg hleft hpos.le) hweights.le), share]

theorem VBox.NonNeg.height_nonneg (hbox : box.NonNeg) (hmem : item ∈ box.items) :
    0 ≤ box.height h item := by
  rw [VBox.height]
  split
  · exact hbox.fixedSize item hmem
  · exact share_nonneg (VBox.left_nonneg box h) (VBox.weights_nonneg box) (hbox.weight item hmem)

end Box

/-! ## The second loop -/

section Place

variable {itemH itemH' : LayoutItem → ℤ} {clip clip' : ℤ → ℤ} {spacing x width cy bottom : ℤ}
  {items : List LayoutItem} {call : MoveWindow}

theorem map_hwnd_placeItems :
    (placeItems itemH clip spacing x width cy items).map MoveWindow.hwnd =
      items.map LayoutItem.hwnd := by
  induction items generalizing cy with
  | nil => rfl
  | cons item items ih => rw [placeItems, List.map_cons, List.map_cons, ih]

theorem map_height_placeItems :
    (placeItems itemH clip spacing x width cy items).map MoveWindow.height =
      items.map fun item => clip (itemH item) := by
  induction items generalizing cy with
  | nil => rfl
  | cons item items ih => rw [placeItems, List.map_cons, List.map_cons, ih]

/-- What the loop computes for the items it places. -/
theorem placeItems_congr (hheight : ∀ item ∈ items, itemH item = itemH' item)
    (hclip : ∀ item ∈ items, clip (itemH item) = clip' (itemH item)) :
    placeItems itemH clip spacing x width cy items =
      placeItems itemH' clip' spacing x width cy items := by
  induction items generalizing cy with
  | nil => rfl
  | cons item items ih =>
    rw [List.forall_mem_cons] at hheight hclip
    rw [placeItems, placeItems, hclip.1, hheight.1, ih hheight.2 hclip.2]

theorem mem_placeItems (hmem : call ∈ placeItems itemH clip spacing x width cy items) :
    call.x = x ∧ call.width = width ∧ ∃ item ∈ items, call.height = clip (itemH item) := by
  induction items generalizing cy with
  | nil => exact absurd hmem List.not_mem_nil
  | cons item items ih =>
    rw [placeItems, List.mem_cons] at hmem
    rcases hmem with rfl | htail
    · exact ⟨rfl, rfl, item, List.mem_cons_self, rfl⟩
    · obtain ⟨hx, hwidth, other, hother, hheight⟩ := ih htail
      exact ⟨hx, hwidth, other, List.mem_cons_of_mem _ hother, hheight⟩

/-- Each rectangle starts `spacing` below the end of the one before. -/
theorem isChain_placeItems :
    (placeItems itemH id spacing x width cy items).IsChain fun above below =>
      below.y = above.y + above.height + spacing := by
  induction items generalizing cy with
  | nil => exact .nil
  | cons item items ih =>
    rw [placeItems, List.isChain_cons]
    refine ⟨?_, ih⟩
    intro below hbelow
    cases items with
    | nil => contradiction
    | cons next items =>
      rw [placeItems, List.head?_cons, Option.mem_some_iff] at hbelow
      subst hbelow
      rfl

/-- A rectangle is below the running top, and above the place where the heights and the gaps
end. -/
theorem bounds_placeItems (hspacing : 0 ≤ spacing) (hnonneg : ∀ item ∈ items, 0 ≤ itemH item)
    (hmem : call ∈ placeItems itemH id spacing x width cy items) :
    cy ≤ call.y ∧ call.y + call.height ≤
      cy + (items.map itemH).sum + spacing * ((items.length : ℤ) - 1) := by
  induction items generalizing cy with
  | nil => exact absurd hmem List.not_mem_nil
  | cons item items ih =>
    rw [List.forall_mem_cons] at hnonneg
    have hrest : 0 ≤ (items.map itemH).sum := by
      apply List.sum_nonneg
      intro height hheight
      obtain ⟨other, hother, rfl⟩ := List.mem_map.mp hheight
      exact hnonneg.2 other hother
    rw [List.map_cons, List.sum_cons, List.length_cons, Nat.cast_succ, add_sub_cancel_right]
    rw [placeItems, List.mem_cons] at hmem
    rcases hmem with rfl | htail
    · have hgaps : 0 ≤ spacing * (items.length : ℤ) := mul_nonneg hspacing (Int.natCast_nonneg _)
      refine ⟨le_refl _, ?_⟩
      show cy + itemH item ≤ _
      omega
    · obtain ⟨htop, hbottom⟩ := ih hnonneg.2 htail
      rw [mul_sub, mul_one] at hbottom
      have hitem := hnonneg.1
      omega

end Place

/-! ## The shares -/

section Shares

variable {box : VBox} {x y w h : ℤ}

/-- Weighted items have shares. -/
theorem VBox.map_height_weighted (box : VBox) (h : ℤ) :
    box.weighted.map (box.height h) =
      (box.weighted.map LayoutItem.weight).map (share (box.left h) box.weights) := by
  rw [List.map_map]
  apply List.map_congr_left
  intro item hmem
  rw [VBox.height, if_neg (VBox.mem_weighted.mp hmem).2.ne']
  rfl

/-- The shares are at most what is left. -/
theorem VBox.sum_shares_le_left (box : VBox) (h : ℤ) :
    (box.weighted.map (box.height h)).sum ≤ box.left h := by
  by_cases hnil : box.weighted = []
  · rw [hnil]
    exact VBox.left_nonneg box h
  · obtain ⟨item, hmem⟩ := List.exists_mem_of_ne_nil _ hnil
    rw [VBox.map_height_weighted]
    exact sum_shares_le (VBox.weights_pos hmem)

/-- They fall short of it by less than their number. -/
theorem VBox.left_lt_sum_shares (hne : box.weighted ≠ []) :
    box.left h < (box.weighted.map (box.height h)).sum + box.weighted.length := by
  obtain ⟨item, hmem⟩ := List.exists_mem_of_ne_nil _ hne
  rw [VBox.map_height_weighted]
  have hshort : box.left h <
      ((box.weighted.map LayoutItem.weight).map (share (box.left h) box.weights)).sum +
        (box.weighted.map LayoutItem.weight).length :=
    lt_sum_shares (VBox.weights_pos hmem)
  rw [List.length_map] at hshort
  exact hshort

theorem sum_split {items : List LayoutItem} (height : LayoutItem → ℤ)
    (hnonneg : ∀ item ∈ items, 0 ≤ item.weight) :
    (items.map height).sum =
      ((items.filter fun item => item.weight = 0).map height).sum +
        ((items.filter fun item => 0 < item.weight).map height).sum := by
  induction items with
  | nil => rfl
  | cons item items ih =>
    rw [List.forall_mem_cons] at hnonneg
    rw [List.map_cons, List.sum_cons, ih hnonneg.2]
    by_cases hzero : item.weight = 0
    · simp [hzero, add_assoc]
    · have hpos : 0 < item.weight := lt_of_le_of_ne hnonneg.1 (Ne.symm hzero)
      simp [hzero, hpos, add_left_comm]

/-- All heights together: the sizes of the fixed items and the shares. -/
theorem VBox.NonNeg.sum_height (hbox : box.NonNeg) :
    (box.items.map (box.height h)).sum =
      (box.fixed.map LayoutItem.fixedSize).sum + (box.weighted.map (box.height h)).sum := by
  have hfixed : box.fixed.map (box.height h) = box.fixed.map LayoutItem.fixedSize := by
    apply List.map_congr_left
    intro item hmem
    rw [VBox.fixed, List.mem_filter, decide_eq_true_eq] at hmem
    rw [VBox.height, if_pos hmem.2]
  rw [sum_split _ hbox.weight, ← hfixed]
  rfl

/-! ## `Apply` -/

/-- `Apply` places every item with the height it should have. -/
theorem VBox.NonNeg.apply_eq (hbox : box.NonNeg) :
    box.apply x y w h =
      placeItems (box.height h) id box.spacing (x + box.margin) (max 0 (w - box.margin * 2))
        (y + box.margin) box.items := by
  rw [VBox.apply]
  split
  · rename_i hnil
    rw [hnil]
    rfl
  · rw [hbox.totals_eq]
    apply placeItems_congr
    · intro item hmem
      exact hbox.itemHeight_eq hmem
    · intro item hmem
      show max 0 (itemHeight (box.left h) box.weights item) =
        itemHeight (box.left h) box.weights item
      rw [hbox.itemHeight_eq hmem]
      exact max_eq_right (hbox.height_nonneg hmem)

theorem VBox.NonNeg.apply_nonneg (hbox : box.NonNeg) :
    ∀ call ∈ box.apply x y w h, 0 ≤ call.width ∧ 0 ≤ call.height := by
  rw [hbox.apply_eq]
  intro call hmem
  obtain ⟨-, hwidth, item, hitem, hheight⟩ := mem_placeItems hmem
  rw [hwidth, hheight]
  exact ⟨le_max_left 0 _, hbox.height_nonneg hitem⟩

/-- **`Apply` partitions the column.** -/
theorem partitions (box : VBox) (x y w h : ℤ) (hbox : box.NonNeg) :
    box.Partitions x y w h (box.apply x y w h) := by
  have hnonneg : ∀ call ∈ box.apply x y w h, 0 ≤ call.width ∧ 0 ≤ call.height :=
    hbox.apply_nonneg
  rw [hbox.apply_eq] at hnonneg ⊢
  constructor
  · exact map_hwnd_placeItems
  · exact hnonneg
  · exact isChain_placeItems
  · exact map_height_placeItems
  · intro hne
    exact ⟨VBox.sum_shares_le_left box h, VBox.left_lt_sum_shares hne⟩
  · intro hroom hwide call hmem
    obtain ⟨hx, hwidth, -⟩ := mem_placeItems hmem
    have hnonneg : ∀ item ∈ box.items, 0 ≤ box.height h item :=
      fun item hitem => hbox.height_nonneg hitem
    obtain ⟨htop, hbottom⟩ := bounds_placeItems hbox.spacing hnonneg hmem
    have hshares := VBox.sum_shares_le_left box h
    rw [VBox.left, max_eq_right (by omega), VBox.needed] at hshares
    rw [hbox.sum_height] at hbottom
    rw [max_eq_right (by omega)] at hwidth
    omega

end Shares

/-- Two fixed items around two weighted ones. -/
def exampleBox : VBox := ⟨2, 3, [⟨1, 0, 10⟩, ⟨2, 1, 0⟩, ⟨3, 1 / 2, 0⟩, ⟨4, 0, 5⟩]⟩

theorem partitions_exampleBox : exampleBox.Partitions 0 0 40 60
    [⟨1, 3, 3, 34, 10⟩, ⟨2, 3, 15, 34, 22⟩, ⟨3, 3, 39, 34, 11⟩, ⟨4, 3, 52, 34, 5⟩] := by
  have happly : exampleBox.apply 0 0 40 60 =
      [⟨1, 3, 3, 34, 10⟩, ⟨2, 3, 15, 34, 22⟩, ⟨3, 3, 39, 34, 11⟩, ⟨4, 3, 52, 34, 5⟩] := by
    decide +kernel
  have hbox : exampleBox.NonNeg :=
    ⟨by decide, by decide, by decide +kernel, by decide⟩
  exact happly ▸ partitions exampleBox 0 0 40 60 hbox

end Win32Experiments.LayoutDemo
