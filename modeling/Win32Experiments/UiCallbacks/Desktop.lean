import Win32Experiments.UiCallbacks.Window

/-!
# Windows and messages

`Window` objects with the windows they stand for, when handlers run inside of `CreateWindowExW`
and `DestroyWindow` and call operations themselves. What has not returned yet is a stack of
frames; a step is a call of the application or of the handler on top, a message, or the return
of the frame on top.
-/

namespace Win32Experiments.UiCallbacks

/-- What the caller of `Destroy` does behind it. -/
inductive After
  | nothing
  | moveFrom (other : ℕ)
  | destruct
deriving DecidableEq, Repr

/-- Who destroys a window: `Destroy`, `OnClose`, or the system when a creation fails. -/
inductive Caller
  | destroy (self : ℕ) (after : After)
  | onClose (self : ℕ)
  | createWindow
deriving DecidableEq, Repr

/-- How far the destruction of a window has come. -/
inductive Stage
  | sendDestroy
  | sendNcDestroy
  | inNcDestroy (object : ℕ)
  | destroyed
deriving DecidableEq, Repr

/-- What has not returned: `CreateWindowExW` in `Init`, `HandleMessage`, and the destruction of
a window. -/
inductive Frame
  | creating (self hwnd : ℕ)
  | handling (object hwnd : ℕ) (type : UInt32)
  | destroying (hwnd : ℕ) (caller : Caller) (stage : Stage)
deriving DecidableEq, Repr

/-- The window that the frame is about. -/
def Frame.hwnd : Frame → ℕ
  | .creating _ hwnd => hwnd
  | .handling _ hwnd _ => hwnd
  | .destroying hwnd _ _ => hwnd

/-- The frame destroys the window. -/
def Frame.destroys (hwnd : ℕ) : Frame → Bool
  | .destroying hwnd' _ _ => hwnd' = hwnd
  | _ => false

/-- Code of the application runs on top of the frame: a handler. -/
def Frame.runsCode : Frame → Bool
  | .handling _ _ _ => true
  | .destroying _ _ (.inNcDestroy _) => true
  | _ => false

/-- The objects and windows, which windows exist, and which objects have been moved from; the
frames; and the record of the run: the windows `DestroyWindow` was called on, and the objects that
messages were dispatched to, with whether the object was there and not moved from. -/
structure Desktop (H K : Type*) where
  world : World H K
  live : ℕ → Bool
  movedFrom : ℕ → Bool
  stack : List Frame
  destroyCalls : List ℕ
  dispatched : List (ℕ × Bool)

/-- A step. -/
inductive Event (H K : Type*)
  | construct (self : ℕ)
  | on (self : ℕ) (message : UInt32) (handler : H)
  | onCommand (self : ℕ) (controlId : UInt16) (handler : K)
  | init (self : ℕ) (fails : Bool)
  | detach (self : ℕ)
  | destroy (self : ℕ)
  | moveConstruct (self other : ℕ)
  | moveAssign (self other : ℕ)
  | destruct (self : ℕ)
  | message (hwnd : ℕ) (type : UInt32) (wParam : UInt64) (lParam : ℤ)
  | returns
  | creationFails
deriving DecidableEq, Repr

section

variable {H K : Type*} (d : Desktop H K)

def Desktop.init : Desktop H K :=
  { world := .empty, live := fun _ => false, movedFrom := fun _ => false, stack := []
    destroyCalls := [], dispatched := [] }

/-- The window is being destroyed. -/
def Desktop.beingDestroyed (hwnd : ℕ) : Bool := d.stack.any (Frame.destroys hwnd)

/-- Code of the application runs: outside all frames, or in a handler. -/
def Desktop.runsCode : Bool :=
  match d.stack with
  | [] => true
  | f :: _ => f.runsCode

def Desktop.exists (object : ℕ) : Bool := (d.world.objects object).isSome

/-- Code of the application runs, and it has the object. -/
def Desktop.mayUse (object : ℕ) : Bool := d.runsCode && d.exists object

def Desktop.push (f : Frame) : Desktop H K := { d with stack := f :: d.stack }

/-- A message goes to the object. -/
def Desktop.record (object : ℕ) : Desktop H K :=
  { d with dispatched := d.dispatched ++ [(object, d.exists object && !d.movedFrom object)] }

/-- `object->window = window`. -/
def Desktop.setWindow (object : ℕ) (window : Option ℕ) : Desktop H K :=
  { d with world := d.world.setWindow object window }

/-- The end of the window procedure for `WM_NCDESTROY`. -/
def Desktop.clear (object hwnd : ℕ) : Desktop H K :=
  { d with world := (d.world.setUserData hwnd none).setWindow object none }

/-- The end of `MoveFrom`. -/
def Desktop.take (self other : ℕ) : Desktop H K :=
  { d with
    world := d.world.take self other
    movedFrom := Function.update (Function.update d.movedFrom self false) other true }

/-- What follows a `DestroyWindow`. -/
def Desktop.finish : Caller → Desktop H K
  | .onClose _ => d
  | .createWindow => d
  | .destroy self .nothing => d.setWindow self none
  | .destroy self (.moveFrom other) => (d.setWindow self none).take self other
  | .destroy self .destruct =>
    { d with world := { d.world with objects := Function.update d.world.objects self none } }

/-- `DestroyWindow`. It fails on a window that does not exist or is being destroyed. -/
def Desktop.destroyWindow (hwnd : ℕ) (caller : Caller) : Desktop H K :=
  let d := { d with destroyCalls := d.destroyCalls ++ [hwnd] }
  if d.live hwnd && !d.beingDestroyed hwnd then d.push (.destroying hwnd caller .sendDestroy)
  else d.finish caller

/-- `Destroy`. -/
def Desktop.destroy (self : ℕ) (after : After) : Desktop H K :=
  match d.world.window self with
  | some hwnd => d.destroyWindow hwnd (.destroy self after)
  | none => d.finish (.destroy self after)

/-- What `HandleMessage` does by default. `DestroyWindow` on a null handle does nothing. -/
def Desktop.act (object : ℕ) : Option (Action H K) → Desktop H K
  | some (.onClose (some hwnd)) => d.destroyWindow hwnd (.onClose object)
  | _ => d

/-- The window procedure, for another message than `WM_NCCREATE`. Without an object `WM_CLOSE`
destroys the window, whose messages go to no object. -/
def Desktop.dispatch (hwnd : ℕ) (type : UInt32) (wParam : UInt64) (lParam : ℤ) : Desktop H K :=
  match d.world.userData hwnd with
  | some object =>
    ((d.record object).push (.handling object hwnd type)).act object
      (d.world.windowProc hwnd object type wParam lParam)
  | none =>
    if type = wmClose ∧ !d.beingDestroyed hwnd then
      { d with live := Function.update d.live hwnd false }
    else d

/-- `Init`, when the window is created, up to the handler of `WM_NCCREATE`. -/
def Desktop.createWindow (self : ℕ) : Desktop H K :=
  let hwnd := d.world.created
  (({ d with
      world := d.world.init self
      live := Function.update d.live hwnd true
      movedFrom := Function.update d.movedFrom self false }.record self).push
    (.creating self hwnd)).push (.handling self hwnd wmNcCreate)

/-- The frame `f` returns, to the rest `d` of the stack. -/
def Desktop.returnFrom : Frame → Desktop H K
  | .handling object hwnd type => if type = wmNcDestroy then d.clear object hwnd else d
  | .creating self hwnd => d.setWindow self (if d.live hwnd then some hwnd else none)
  | .destroying hwnd caller .sendDestroy =>
    (d.push (.destroying hwnd caller .sendNcDestroy)).dispatch hwnd wmDestroy 0 0
  | .destroying hwnd caller .sendNcDestroy =>
    match d.world.userData hwnd with
    | some object => (d.record object).push (.destroying hwnd caller (.inNcDestroy object))
    | none => d.push (.destroying hwnd caller .destroyed)
  | .destroying hwnd caller (.inNcDestroy object) =>
    (d.clear object hwnd).push (.destroying hwnd caller .destroyed)
  | .destroying hwnd caller .destroyed =>
    { d with live := Function.update d.live hwnd false }.finish caller

/-- A step. Objects are moved and destroyed outside of handlers, and `WM_NCCREATE` comes from
`CreateWindowExW` only. -/
def Desktop.step (d : Desktop H K) : Event H K → Option (Desktop H K)
  | .construct self =>
    if d.runsCode && !d.exists self then
      some { d with
        world := d.world.construct self
        movedFrom := Function.update d.movedFrom self false }
    else none
  | .on self message handler =>
    if d.runsCode then
      (d.world.step (.on self message handler)).map fun world => { d with world }
    else none
  | .onCommand self controlId handler =>
    if d.runsCode then
      (d.world.step (.onCommand self controlId handler)).map fun world => { d with world }
    else none
  | .init self fails =>
    if d.mayUse self then
      -- an initialised window, or a failed creation, throws
      if (d.world.window self).isSome || fails then some d else some (d.createWindow self)
    else none
  | .detach self =>
    if d.mayUse self then some { d with world := d.world.detach self } else none
  | .destroy self => if d.mayUse self then some (d.destroy self .nothing) else none
  | .moveConstruct self other =>
    if d.stack = [] ∧ !d.exists self ∧ d.exists other then
      some ({ d with world := d.world.construct self }.take self other)
    else none
  | .moveAssign self other =>
    if d.stack = [] ∧ d.exists self ∧ d.exists other then
      if self = other then some d else some (d.destroy self (.moveFrom other))
    else none
  | .destruct self =>
    if d.stack = [] ∧ d.exists self then some (d.destroy self .destruct) else none
  | .message hwnd type wParam lParam =>
    if d.live hwnd ∧ type ≠ wmNcCreate then some (d.dispatch hwnd type wParam lParam) else none
  | .returns =>
    match d.stack with
    | [] => none
    | f :: rest => some ({ d with stack := rest }.returnFrom f)
  | .creationFails =>
    match d.stack with
    | .creating _ hwnd :: _ =>
      if d.live hwnd then some (d.push (.destroying hwnd .createWindow .sendDestroy)) else none
    | _ => none

end

end Win32Experiments.UiCallbacks
