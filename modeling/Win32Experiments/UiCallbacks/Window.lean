import Mathlib.Data.Int.Basic
import Mathlib.Logic.Function.Basic
import Mathlib.Tactic.Common

/-!
# `Window`

A `Window` object holds the handle of a window and two maps of handlers; the window points back
to the object by its user data. The handlers are values of two types, so that what the window
procedure does with a message is which handler it runs, with which arguments, or which of its
defaults.
-/

namespace Win32Experiments.UiCallbacks

def wmDestroy : UInt32 := 0x2

def wmClose : UInt32 := 0x10

def wmNcCreate : UInt32 := 0x81

def wmNcDestroy : UInt32 := 0x82

def wmCommand : UInt32 := 0x111

/-- `GetLowWord`. -/
def getLowWord (wParam : UInt64) : UInt16 := wParam.toUInt16

/-- `GetHighWord`. -/
def getHighWord (wParam : UInt64) : UInt16 := (wParam >>> 16).toUInt16

/-- `Window`. -/
structure Window (H K : Type*) where
  window : Option ℕ
  handlers : UInt32 → Option H
  commandHandlers : UInt32 → Option K

/-- `Window()`. -/
def Window.default {H K : Type*} : Window H K :=
  { window := none, handlers := fun _ => none, commandHandlers := fun _ => none }

/-- What is done with a message. -/
inductive Action (H K : Type*)
  | handler (h : H) (hwnd : Option ℕ) (wParam : UInt64) (lParam : ℤ)
  | command (k : K) (notifyCode : UInt16)
  | onClose (hwnd : Option ℕ)
  | onDestroy
  | defWindowProc (hwnd : Option ℕ) (type : UInt32) (wParam : UInt64) (lParam : ℤ)
deriving DecidableEq, Repr

/-- `HandleMessage`. -/
def Window.handleMessage {H K : Type*} (self : Window H K) (type : UInt32) (wParam : UInt64)
    (lParam : ℤ) : Action H K :=
  match self.handlers type with
  | some h => .handler h self.window wParam lParam
  | none =>
    let command :=
      if type = wmCommand then self.commandHandlers (getLowWord wParam).toUInt32 else none
    match command with
    | some k => .command k (getHighWord wParam)
    | none =>
      if type = wmClose then .onClose self.window
      else if type = wmDestroy then .onDestroy
      else .defWindowProc self.window type wParam lParam

/-- The `Window` objects, the user data of the windows, and how many windows were created. -/
structure World (H K : Type*) where
  objects : ℕ → Option (Window H K)
  userData : ℕ → Option ℕ
  created : ℕ

section

variable {H K : Type*} (w : World H K)

/-- The window procedure on a message for `hwnd`. `WM_NCCREATE` carries the creating object,
which gets the handle before it handles the message; every other message goes to the object in the
user data. There is no value when that object does not exist. -/
def World.windowProc (hwnd : ℕ) (creating : ℕ) (type : UInt32) (wParam : UInt64) (lParam : ℤ) :
    Option (Action H K) :=
  if type = wmNcCreate then
    (w.objects creating).map fun x =>
      { x with window := some hwnd }.handleMessage type wParam lParam
  else
    match w.userData hwnd with
    | some object => (w.objects object).map fun x => x.handleMessage type wParam lParam
    | none => some (.defWindowProc (some hwnd) type wParam lParam)

/-- `object->window = window`. -/
def World.setWindow (object : ℕ) (window : Option ℕ) : World H K :=
  { w with
    objects := Function.update w.objects object
      ((w.objects object).map fun x => { x with window }) }

/-- `SetWindowLongPtrW(hwnd, GWLP_USERDATA, object)`. -/
def World.setUserData (hwnd : ℕ) (object : Option ℕ) : World H K :=
  { w with userData := Function.update w.userData hwnd object }

/-- The member `window` of the object. -/
def World.window (object : ℕ) : Option ℕ := (w.objects object).bind Window.window

/-- `Detach`, and the handle that it returns. -/
def World.detach (self : ℕ) : World H K :=
  match w.window self with
  | none => w
  | some hwnd => (w.setUserData hwnd none).setWindow self none

/-- The end of `MoveFrom`, behind `Destroy`. -/
def World.take (self other : ℕ) : World H K :=
  match w.window other with
  | none => (w.detach other).setWindow self none
  | some hwnd => ((w.detach other).setWindow self (some hwnd)).setUserData hwnd (some self)

/-! ## Moves, when no handler touches a window -/

/-- `DestroyWindow`: the object of the window gets `WM_DESTROY` and then `WM_NCDESTROY`, where the
window procedure clears both pointers. -/
def World.destroyWindow (hwnd : ℕ) : World H K :=
  match w.userData hwnd with
  | none => w
  | some object => (w.setUserData hwnd none).setWindow object none

/-- `Destroy`. -/
def World.destroy (self : ℕ) : World H K :=
  match w.window self with
  | none => w
  | some hwnd => (w.destroyWindow hwnd).setWindow self none

/-- `MoveFrom`. -/
def World.moveFrom (self other : ℕ) : World H K :=
  if self = other then w else (w.destroy self).take self other

/-- What an application does with its objects. -/
inductive Op (H K : Type*)
  | construct (self : ℕ)
  | init (self : ℕ)
  | on (self : ℕ) (message : UInt32) (handler : H)
  | onCommand (self : ℕ) (controlId : UInt16) (handler : K)
  | destroy (self : ℕ)
  | detach (self : ℕ)
  | moveConstruct (self other : ℕ)
  | moveAssign (self other : ℕ)
deriving DecidableEq, Repr

/-- `Init`, when the window is created: `WM_NCCREATE` links it to the object. -/
def World.init (self : ℕ) : World H K :=
  match w.window self with
  | some _ => w
  | none =>
    { (w.setUserData w.created (some self)).setWindow self (some w.created) with
      created := w.created + 1 }

/-- `On`. -/
def Window.on (x : Window H K) (message : UInt32) (handler : H) : Window H K :=
  { x with handlers := Function.update x.handlers message (some handler) }

/-- `OnCommand`. -/
def Window.onCommand (x : Window H K) (controlId : UInt16) (handler : K) : Window H K :=
  { x with
    commandHandlers := Function.update x.commandHandlers controlId.toUInt32 (some handler) }

/-- A new object. -/
def World.construct (self : ℕ) : World H K :=
  { w with objects := Function.update w.objects self (some .default) }

/-- A step of the application; objects are used while they exist. -/
def World.step (w : World H K) : Op H K → Option (World H K)
  | .construct self => if (w.objects self).isSome then none else some (w.construct self)
  | .init self => if (w.objects self).isSome then some (w.init self) else none
  | .on self message handler =>
    (w.objects self).map fun x =>
      { w with objects := Function.update w.objects self (some (x.on message handler)) }
  | .onCommand self controlId handler =>
    (w.objects self).map fun x =>
      { w with objects := Function.update w.objects self (some (x.onCommand controlId handler)) }
  | .destroy self => if (w.objects self).isSome then some (w.destroy self) else none
  | .detach self => if (w.objects self).isSome then some (w.detach self) else none
  | .moveConstruct self other =>
    if (w.objects self).isNone && (w.objects other).isSome then
      some ((w.construct self).moveFrom self other)
    else none
  | .moveAssign self other =>
    if (w.objects self).isSome && (w.objects other).isSome then some (w.moveFrom self other)
    else none

/-- An application that has not started. -/
def World.empty : World H K :=
  { objects := fun _ => none, userData := fun _ => none, created := 0 }

/-- A move of the object that has the window: into a new object, or onto another one. -/
inductive Move
  | construct (self : ℕ)
  | assign (self : ℕ)
deriving DecidableEq, Repr

/-- The objects, and which of them has been moved to last. -/
structure Moving (H K : Type*) where
  world : World H K
  current : ℕ

/-- A move construction or a move assignment. -/
def Moving.step (m : Moving H K) : Move → Option (Moving H K)
  | .construct self =>
    (m.world.step (.moveConstruct self m.current)).map fun world => ⟨world, self⟩
  | .assign self => (m.world.step (.moveAssign self m.current)).map fun world => ⟨world, self⟩

end

end Win32Experiments.UiCallbacks
