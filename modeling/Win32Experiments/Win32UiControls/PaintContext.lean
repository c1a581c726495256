import Mathlib.Tactic.Common

/-!
# `PaintContext`

`Select` puts a brush or a pen into the device context and keeps what was there before for the
destructor to put back. The `else` of the pens stands behind the `if` that asks for a kept brush,
so that it belongs to that one: no pen is ever kept. `restores_iff` says what this comes to.
-/

namespace Win32Experiments.Win32UiControls

/-- What an object can be selected as: `AnyBrush` or `AnyPen`. -/
inductive Kind where
  | brush
  | pen
deriving DecidableEq, Repr

/-- The objects selected into a device context. -/
structure DeviceContext (H : Type*) where
  brush : H
  pen : H
deriving DecidableEq, Repr

/-- An object to select. Its `Get` returns no handle when it could not be created. -/
structure Selection (H : Type*) where
  kind : Kind
  get : Option H
deriving DecidableEq, Repr

/-- The members of a `PaintContext` whose constructor has returned. It throws unless `BeginPaint`
gives a device context, so that there are a window and an `HDC`; `dc` is what the `HDC` stands
for. -/
structure PaintContext (H : Type*) where
  dc : DeviceContext H
  defaultBrush : Option H
  defaultPen : Option H
deriving DecidableEq, Repr

section Code

variable {H : Type*}

/-- `SelectObject`: the object selected before, and what is selected now. Without an object it
fails. -/
def selectObject (dc : DeviceContext H) : Selection H → Option H × DeviceContext H
  | ⟨_, none⟩ => (none, dc)
  | ⟨.brush, some brush⟩ => (some dc.brush, { dc with brush := brush })
  | ⟨.pen, some pen⟩ => (some dc.pen, { dc with pen := pen })

/-- The constructor. -/
def PaintContext.create (dc : DeviceContext H) : PaintContext H := ⟨dc, none, none⟩

/-- `Select`. -/
def PaintContext.select (self : PaintContext H) (obj : Selection H) : PaintContext H :=
  let previous := (selectObject self.dc obj).1
  let self := { self with dc := (selectObject self.dc obj).2 }
  if obj.kind = .brush then
    if self.defaultBrush.isNone then { self with defaultBrush := previous }
    -- The `else` that was meant for the pens.
    else if obj.kind = .pen then
      if self.defaultPen.isNone then { self with defaultPen := previous } else self
    else self
  else self

/-- One of the two statements that restore a default. -/
def restore (kind : Kind) (default : Option H) (dc : DeviceContext H) : DeviceContext H :=
  if default.isSome then (selectObject dc ⟨kind, default⟩).2 else dc

/-- The destructor, and what it leaves selected. -/
def PaintContext.destroy (self : PaintContext H) : DeviceContext H :=
  restore .pen self.defaultPen (restore .brush self.defaultBrush self.dc)

/-- What is selected behind a `PaintContext` that selects one object after the other. -/
def paint (dc : DeviceContext H) (selections : List (Selection H)) : DeviceContext H :=
  (selections.foldl PaintContext.select (.create dc)).destroy

/-- The device context has its brush and its pen again. -/
structure Restores (dc : DeviceContext H) (selections : List (Selection H)) : Prop where
  brush : (paint dc selections).brush = dc.brush
  pen : (paint dc selections).pen = dc.pen

/-- The pens among the selections. -/
def pens (selections : List (Selection H)) : List H :=
  selections.filterMap fun obj => if obj.kind = .pen then obj.get else none

end Code

section Selections

variable {H : Type*} {dc : DeviceContext H} {ctx : PaintContext H} {obj : Selection H}
  {selections : List (Selection H)}

/-- The brush that was there first is selected, or kept. No pen is kept. -/
structure Kept (dc : DeviceContext H) (ctx : PaintContext H) : Prop where
  brush : ctx.defaultBrush = some dc.brush ∨
    ctx.defaultBrush = none ∧ ctx.dc.brush = dc.brush
  pen : ctx.defaultPen = none

theorem kept_create (dc : DeviceContext H) : Kept dc (.create dc) :=
  ⟨Or.inr ⟨rfl, rfl⟩, rfl⟩

/-- Selecting a brush, or nothing as one. -/
theorem select_brush (ctx : PaintContext H) (get : Option H) :
    ctx.select ⟨.brush, get⟩ =
      { dc := (selectObject ctx.dc ⟨.brush, get⟩).2
        defaultBrush := if ctx.defaultBrush.isNone then (selectObject ctx.dc ⟨.brush, get⟩).1
          else ctx.defaultBrush
        defaultPen := ctx.defaultPen } := by
  rw [PaintContext.select, if_pos rfl]
  split
  · rfl
  · rw [if_neg (by simp)]

/-- Selecting a pen keeps nothing. -/
theorem select_pen (ctx : PaintContext H) (get : Option H) :
    ctx.select ⟨.pen, get⟩ = { ctx with dc := (selectObject ctx.dc ⟨.pen, get⟩).2 } := by
  rw [PaintContext.select, if_neg (by simp)]

theorem kept_select (h : Kept dc ctx) (obj : Selection H) : Kept dc (ctx.select obj) := by
  obtain ⟨kind, get⟩ := obj
  cases kind with
  | brush =>
    rw [select_brush]
    refine ⟨?_, h.pen⟩
    rcases h.brush with hkept | ⟨hnone, hsame⟩
    · left
      simp [hkept]
    · cases get with
      | none => exact Or.inr ⟨by simp [hnone, selectObject], hsame⟩
      | some brush =>
        left
        simp [hnone, selectObject, hsame]
  | pen =>
    rw [select_pen]
    refine ⟨?_, h.pen⟩
    cases get with
    | none => exact h.brush
    | some pen => exact h.brush

/-- The last pen of a sequence, with the one before it. -/
theorem getLastD_pens_cons (obj : Selection H) (selections : List (Selection H)) (pen : H) :
    (pens (obj :: selections)).getLastD pen =
      (pens selections).getLastD ((pens [obj]).getLastD pen) := by
  simp only [pens, List.filterMap_cons, List.filterMap_nil]
  split
  · rfl
  · rw [List.getLastD_cons]
    rfl

/-- The pen selected is the last one. -/
theorem dc_pen_select (ctx : PaintContext H) (obj : Selection H) :
    (ctx.select obj).dc.pen = (pens [obj]).getLastD ctx.dc.pen := by
  obtain ⟨kind, get⟩ := obj
  cases kind with
  | brush =>
    rw [select_brush]
    cases get <;> rfl
  | pen =>
    rw [select_pen]
    cases get <;> rfl

/-- **The selections.** Behind any number of them the first brush is selected or kept, and the pen
is the last one selected. -/
theorem foldl_select (h : Kept dc ctx) (selections : List (Selection H)) :
    Kept dc (selections.foldl PaintContext.select ctx) ∧
      (selections.foldl PaintContext.select ctx).dc.pen =
        (pens selections).getLastD ctx.dc.pen := by
  induction selections generalizing ctx with
  | nil => exact ⟨h, rfl⟩
  | cons obj selections ih =>
    obtain ⟨hkept, hpen⟩ := ih (kept_select h obj)
    refine ⟨hkept, ?_⟩
    rw [List.foldl_cons, hpen, dc_pen_select, ← getLastD_pens_cons]

theorem destroy_brush (h : Kept dc ctx) : ctx.destroy.brush = dc.brush := by
  rw [PaintContext.destroy, h.pen]
  show (restore .brush ctx.defaultBrush ctx.dc).brush = dc.brush
  rcases h.brush with hkept | ⟨hnone, hsame⟩
  · rw [hkept]
    rfl
  · rw [hnone]
    exact hsame

theorem destroy_pen (h : Kept dc ctx) : ctx.destroy.pen = ctx.dc.pen := by
  rw [PaintContext.destroy, h.pen]
  show (restore .brush ctx.defaultBrush ctx.dc).pen = ctx.dc.pen
  cases ctx.defaultBrush <;> rfl

/-- The brush is put back whatever is selected. -/
theorem paint_brush (dc : DeviceContext H) (selections : List (Selection H)) :
    (paint dc selections).brush = dc.brush :=
  destroy_brush (foldl_select (kept_create dc) selections).1

/-- The pen selected last stays. -/
theorem paint_pen (dc : DeviceContext H) (selections : List (Selection H)) :
    (paint dc selections).pen = (pens selections).getLastD dc.pen := by
  obtain ⟨hkept, hpen⟩ := foldl_select (kept_create dc) selections
  rw [paint, destroy_pen hkept, hpen]
  rfl

/-- **`PaintContext` restores the device context** exactly if no pen is selected, or the last one
selected is the one that was there before. -/
theorem restores_iff (dc : DeviceContext H) (selections : List (Selection H)) :
    Restores dc selections ↔ pens selections = [] ∨ (pens selections).getLast? = some dc.pen := by
  have hlast : (pens selections).getLastD dc.pen = dc.pen ↔
      pens selections = [] ∨ (pens selections).getLast? = some dc.pen := by
    rw [List.getLastD_eq_getLast?]
    rcases List.eq_nil_or_concat (pens selections) with hnil | ⟨init, pen, hconcat⟩
    · simp [hnil]
    · simp [hconcat]
  rw [← hlast, ← paint_pen]
  constructor
  · intro h
    exact h.pen
  · intro hpen
    exact ⟨paint_brush dc selections, hpen⟩

end Selections

/-- The pen of the hover button stays selected. -/
theorem not_restores_pen :
    ¬ Restores (⟨0, 1⟩ : DeviceContext ℕ) [⟨.brush, some 2⟩, ⟨.pen, some 3⟩] := by
  intro h
  exact absurd h.pen (by decide)

end Win32Experiments.Win32UiControls
