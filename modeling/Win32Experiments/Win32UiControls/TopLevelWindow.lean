import Mathlib.Logic.Function.Basic
import Win32Experiments.Foundation.Handles
import Win32Experiments.Foundation.Run

/-!
# `TopLevelWindow`

`Create` stores the new window in `m_window` twice: `WindowProc` does it for `WM_NCCREATE`, and
`Create` does it again when `CreateWindowExW` has returned. A `unique_ptr` deletes the pointer that
it held before, so the second time this is the new window itself.

* `create_true`: the window that `Create` returns with is destroyed;
* `ownsItsWindow_iff`: so in which runs the object owns its windows.
-/

namespace Win32Experiments.Win32UiControls

open Foundation

/-- A window that `Create` returned with: whether it was alive then, and whether `m_window` named
it. -/
structure Created where
  alive : Bool
  named : Bool
deriving DecidableEq, Repr

/-- The object, by its member `m_window`, until it is destroyed; the windows; those whose user data
names the object; the windows made by `Create`; and whether the object was there when a message
came to it, the latest last. -/
structure TopLevel where
  object : Option (Option ℕ)
  windows : Handles
  userData : ℕ → Bool
  created : List Created
  dispatched : List Bool

namespace TopLevel

/-- The object has been constructed. -/
def start : TopLevel := ⟨some none, .empty, fun _ => false, [], []⟩

/-- `WindowProc`, which gives the message to `HandleMessage` if the user data is set. -/
def windowProc (s : TopLevel) (hwnd : ℕ) : TopLevel :=
  if s.userData hwnd then { s with dispatched := s.dispatched ++ [s.object.isSome] } else s

/-- `DestroyWindow`: a window that is alive gets `WM_DESTROY` and `WM_NCDESTROY`. -/
def destroyWindow (s : TopLevel) (hwnd : ℕ) : TopLevel :=
  let s := if s.windows.Live hwnd then (s.windowProc hwnd).windowProc hwnd else s
  { s with windows := s.windows.close hwnd }

/-- The deleter of `HwndUniquePtr`, for a pointer that may be null. -/
def delete (s : TopLevel) : Option ℕ → TopLevel
  | none => s
  | some hwnd => s.destroyWindow hwnd

/-- `m_window = HwndUniquePtr(..)`: the pointer is stored, then the old one is deleted. -/
def setWindow (s : TopLevel) (hwnd : Option ℕ) : TopLevel :=
  { s with object := some hwnd }.delete s.object.join

/-- `CreateWindowExW`: the window is there, and its `WM_NCCREATE` and `WM_CREATE` are handled before
the call returns. -/
def createWindow (s : TopLevel) : TopLevel :=
  let hwnd := s.windows.opened
  let s := { s with
    windows := s.windows.create
    userData := Function.update s.userData hwnd true }
  ((s.setWindow (some hwnd)).windowProc hwnd).windowProc hwnd

/-- `Create`, when `CreateWindowExW` makes a window and when it makes none. -/
def create (s : TopLevel) (succeeds : Bool) : TopLevel :=
  if succeeds then
    let hwnd := s.windows.opened
    let s := s.createWindow.setWindow (some hwnd)
    { s with created := s.created ++ [⟨s.windows.Live hwnd, s.object = some (some hwnd)⟩] }
  else s.setWindow none

/-- The destructor. -/
def destruct (s : TopLevel) : TopLevel := { s.delete s.object.join with object := none }

/-- `WM_CLOSE`, for which `DefWindowProcW` destroys the window. -/
def close (s : TopLevel) (hwnd : ℕ) : TopLevel := (s.windowProc hwnd).destroyWindow hwnd

/-- What happens: the operations on the object, the user closes a window, or a window gets any other
message. -/
inductive Event where
  | create (succeeds : Bool)
  | destroy
  | destruct
  | close (hwnd : ℕ)
  | message (hwnd : ℕ)
deriving DecidableEq, Repr

/-- A step: operations on the object until it is destroyed, and messages of windows that are
alive. -/
def step (s : TopLevel) : Event → Option TopLevel
  | .create succeeds => if s.object.isSome then some (s.create succeeds) else none
  | .destroy => if s.object.isSome then some (s.setWindow none) else none
  | .destruct => if s.object.isSome then some s.destruct else none
  | .close hwnd => if s.windows.Live hwnd then some (s.close hwnd) else none
  | .message hwnd => if s.windows.Live hwnd then some (s.windowProc hwnd) else none

end TopLevel

/-- Every `Create` has returned with its window, which was alive; no window was destroyed twice, and
all were destroyed when the object is; and no message came to a destroyed object. -/
structure OwnsItsWindow (s : TopLevel) : Prop where
  created : ∀ c ∈ s.created, c.alive = true ∧ c.named = true
  once : ∀ hwnd, s.windows.closed.count hwnd ≤ 1
  destroyed : s.object = none → s.windows.EachClosedOnce
  dispatched : ∀ there ∈ s.dispatched, there = true

namespace TopLevel

/-! ## `Create` destroys its window -/

section Create

variable {s t : TopLevel} {hwnd : ℕ} {event : Event}

@[simp] theorem object_windowProc : (s.windowProc hwnd).object = s.object := by
  unfold windowProc
  split <;> rfl

@[simp] theorem windows_windowProc : (s.windowProc hwnd).windows = s.windows := by
  unfold windowProc
  split <;> rfl

@[simp] theorem created_windowProc : (s.windowProc hwnd).created = s.created := by
  unfold windowProc
  split <;> rfl

@[simp] theorem object_destroyWindow : (s.destroyWindow hwnd).object = s.object := by
  unfold destroyWindow
  split <;> simp

@[simp] theorem windows_destroyWindow :
    (s.destroyWindow hwnd).windows = s.windows.close hwnd := by
  unfold destroyWindow
  split <;> simp

@[simp] theorem created_destroyWindow : (s.destroyWindow hwnd).created = s.created := by
  unfold destroyWindow
  split <;> simp

@[simp] theorem object_delete (p : Option ℕ) : (s.delete p).object = s.object := by
  cases p <;> simp [delete]

@[simp] theorem created_delete (p : Option ℕ) : (s.delete p).created = s.created := by
  cases p <;> simp [delete]

@[simp] theorem object_setWindow (p : Option ℕ) : (s.setWindow p).object = some p := by
  rw [setWindow, object_delete]

@[simp] theorem created_setWindow (p : Option ℕ) : (s.setWindow p).created = s.created := by
  rw [setWindow, created_delete]

/-- When `CreateWindowExW` returns, the window is in `m_window` already. -/
theorem object_createWindow : s.createWindow.object = some (some s.windows.opened) := by
  unfold createWindow
  simp

/-- The second store deletes what the first one stored. -/
theorem setWindow_createWindow :
    (s.createWindow.setWindow (some s.windows.opened)).windows
      = s.createWindow.windows.close s.windows.opened := by
  rw [setWindow, object_createWindow, Option.join_some, delete, windows_destroyWindow]

/-- **`Create` returns with a window that is destroyed.** -/
theorem create_true :
    (s.create true).created = s.created ++ [⟨false, true⟩] := by
  have hdead : ¬ (s.createWindow.setWindow (some s.windows.opened)).windows.Live
      s.windows.opened := by
    rw [setWindow_createWindow]
    exact fun hlive => hlive.2 List.mem_cons_self
  have hcreated : (s.createWindow.setWindow (some s.windows.opened)).created = s.created := by
    unfold createWindow
    simp
  show (s.createWindow.setWindow (some s.windows.opened)).created ++
    [⟨decide ((s.createWindow.setWindow (some s.windows.opened)).windows.Live s.windows.opened),
      decide ((s.createWindow.setWindow (some s.windows.opened)).object
        = some (some s.windows.opened))⟩] = _
  rw [hcreated, decide_eq_false hdead, decide_eq_true (object_setWindow _)]

/-- No step takes back what `Create` has returned with. -/
theorem created_step (hstep : s.step event = some t) : ∀ c ∈ s.created, c ∈ t.created := by
  intro c hc
  match event with
  | .create true =>
    rw [step, Option.ite_none_right_eq_some] at hstep
    rw [← Option.some.inj hstep.2, create_true]
    exact List.mem_append_left _ hc
  | .create false =>
    rw [step, Option.ite_none_right_eq_some] at hstep
    rw [← Option.some.inj hstep.2]
    show c ∈ (s.setWindow none).created
    rwa [created_setWindow]
  | .destroy =>
    rw [step, Option.ite_none_right_eq_some] at hstep
    rw [← Option.some.inj hstep.2]
    rwa [created_setWindow]
  | .destruct =>
    rw [step, Option.ite_none_right_eq_some] at hstep
    rw [← Option.some.inj hstep.2]
    show c ∈ (s.delete s.object.join).created
    rwa [created_delete]
  | .close hwnd =>
    rw [step, Option.ite_none_right_eq_some] at hstep
    rw [← Option.some.inj hstep.2, close]
    rwa [created_destroyWindow, created_windowProc]
  | .message hwnd =>
    rw [step, Option.ite_none_right_eq_some] at hstep
    rw [← Option.some.inj hstep.2]
    rwa [created_windowProc]

end Create

/-! ## Runs -/

section Runs

variable {s t : TopLevel} {event : Event} {events : List Event}

/-- `CreateWindowExW` makes no window. -/
def MakesNoWindow (_ : TopLevel) (event : Event) : Prop := event ≠ .create true

/-- No window was ever made. -/
structure NoWindow (s : TopLevel) : Prop where
  object : s.object.join = none
  windows : s.windows = .empty
  created : s.created = []
  dispatched : s.dispatched = []

/-- `Create` has returned with a window that was not alive. -/
def HasLost (s : TopLevel) : Prop := ∃ c ∈ s.created, c.alive = false

theorem NoWindow.setWindow (h : NoWindow s) :
    s.setWindow none = { s with object := some none } := by
  rw [TopLevel.setWindow, h.object, delete]

theorem not_live_empty (hwnd : ℕ) : ¬ Handles.empty.Live hwnd :=
  fun hlive => Nat.not_lt_zero hwnd hlive.1

theorem noWindow_step (h : NoWindow s) (hevent : MakesNoWindow s event)
    (hstep : s.step event = some t) : NoWindow t := by
  match event with
  | .create true => exact absurd rfl hevent
  | .create false =>
    rw [step, Option.ite_none_right_eq_some] at hstep
    rw [← Option.some.inj hstep.2]
    show NoWindow (s.setWindow none)
    rw [h.setWindow]
    exact ⟨rfl, h.windows, h.created, h.dispatched⟩
  | .destroy =>
    rw [step, Option.ite_none_right_eq_some] at hstep
    rw [← Option.some.inj hstep.2, h.setWindow]
    exact ⟨rfl, h.windows, h.created, h.dispatched⟩
  | .destruct =>
    rw [step, Option.ite_none_right_eq_some] at hstep
    rw [← Option.some.inj hstep.2, destruct, h.object]
    exact ⟨rfl, h.windows, h.created, h.dispatched⟩
  | .close hwnd =>
    rw [step, Option.ite_none_right_eq_some, h.windows] at hstep
    exact absurd hstep.1 (not_live_empty hwnd)
  | .message hwnd =>
    rw [step, Option.ite_none_right_eq_some, h.windows] at hstep
    exact absurd hstep.1 (not_live_empty hwnd)

theorem hasLost_create (hevent : ¬ MakesNoWindow s event) (hstep : s.step event = some t) :
    HasLost t := by
  have hcreate : event = .create true := not_not.mp hevent
  rw [hcreate, step, Option.ite_none_right_eq_some] at hstep
  rw [← Option.some.inj hstep.2]
  refine ⟨⟨false, true⟩, ?_, rfl⟩
  rw [create_true]
  exact List.mem_append_right _ List.mem_cons_self

theorem hasLost_step (h : HasLost s) (hstep : s.step event = some t) : HasLost t := by
  obtain ⟨c, hmem, hlost⟩ := h
  exact ⟨c, created_step hstep c hmem, hlost⟩

theorem NoWindow.ownsItsWindow (h : NoWindow s) : OwnsItsWindow s where
  created c hc := by
    rw [h.created] at hc
    exact absurd hc List.not_mem_nil
  once hwnd := by
    rw [h.windows]
    exact Nat.zero_le 1
  destroyed _ := by
    rw [h.windows]
    exact Handles.accounts_empty.eachClosedOnce_iff.mpr rfl
  dispatched there hmem := by
    rw [h.dispatched] at hmem
    exact absurd hmem List.not_mem_nil

theorem HasLost.not_ownsItsWindow (h : HasLost s) : ¬ OwnsItsWindow s := by
  intro howns
  obtain ⟨c, hmem, hlost⟩ := h
  rw [(howns.created c hmem).1] at hlost
  contradiction

end Runs

end TopLevel

/-- **In which runs the object owns its windows**: in those in which it never has one. -/
theorem ownsItsWindow_iff (events : List TopLevel.Event) (s : TopLevel)
    (hrun : run TopLevel.step .start events = some s) :
    OwnsItsWindow s ↔ EachStep TopLevel.step TopLevel.MakesNoWindow .start events := by
  have hstart : TopLevel.NoWindow .start := ⟨rfl, rfl, rfl, rfl⟩
  have hexact := run_exact TopLevel.NoWindow TopLevel.HasLost
    (fun _ _ _ h _ hevent hstep => TopLevel.noWindow_step h hevent hstep)
    (fun _ _ _ _ _ hevent hstep => TopLevel.hasLost_create hevent hstep)
    (fun _ _ _ h _ hstep => TopLevel.hasLost_step h hstep) eachStep_true hrun hstart
  rcases hexact with ⟨hgood, hsteps⟩ | ⟨hbad, hsteps⟩
  · exact iff_of_true hgood.ownsItsWindow hsteps
  · exact iff_of_false hbad.not_ownsItsWindow hsteps

/-- An object that is used without a window. -/
theorem ownsItsWindow_of_refused : run TopLevel.step .start [.create false, .destroy, .destruct] =
      some ⟨none, .empty, fun _ => false, [], []⟩ ∧
    OwnsItsWindow ⟨none, .empty, fun _ => false, [], []⟩ := by
  have hsteps : EachStep TopLevel.step TopLevel.MakesNoWindow .start
      [.create false, .destroy, .destruct] := by
    refine ⟨?_, ?_, ?_, trivial⟩ <;> simp [TopLevel.MakesNoWindow]
  exact ⟨rfl, (ownsItsWindow_iff _ _ rfl).mpr hsteps⟩

/-- The first `Create`. -/
theorem not_ownsItsWindow_create :
    ¬ ∀ s, run TopLevel.step .start [.create true] = some s → OwnsItsWindow s := by
  intro hall
  have howns := hall _ rfl
  have hcreated := (howns.created ⟨false, true⟩ (by decide)).1
  contradiction

end Win32Experiments.Win32UiControls
