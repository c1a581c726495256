import Mathlib.Tactic.Common
import Win32Experiments.Foundation.Run

/-!
# Closing and cancelling a `ProgressWindow`

`Close` and `Cancel` set two flags and post `WM_CLOSE`. The window procedure reads the flags when
the message is handled, and closes the window if the program asked for it or `OnCancel` approves.
A request of the user comes to the same handler, but sets no flag. `DestroyWindow` takes the
messages posted to the window with it.
-/

namespace Win32Experiments.ProgressBar.Cancellation

open Foundation

/-- The two flags of a window. -/
structure Flags where
  Canceled : Bool
  UserClose : Bool
deriving DecidableEq, Repr

/-- The two calls that post `WM_CLOSE`. -/
inductive Call
  | Close
  | Cancel
deriving DecidableEq, Repr

/-- A posted `WM_CLOSE`, with the call that posted it and the flags before that call. -/
structure Posted where
  call : Call
  before : Flags
deriving DecidableEq, Repr

/-- A `ProgressWindow`: whether it has an `OnCancel`, its flags, the messages posted to it, and
whether it was closed by a cancel or user request that `OnCancel` approved. -/
structure ProgressWindow where
  OnCancel : Bool
  Canceled : Bool
  UserClose : Bool
  Closed : Bool
  queue : List Posted
  approved : Bool
deriving DecidableEq, Repr

namespace ProgressWindow

/-- A new window. -/
def new (onCancel : Bool) : ProgressWindow :=
  { OnCancel := onCancel, Canceled := false, UserClose := false, Closed := false, queue := [],
    approved := false }

variable (w : ProgressWindow)

def flags : Flags := { Canceled := w.Canceled, UserClose := w.UserClose }

/-- `PostMessage(Handle, WM_CLOSE, 0, 0)`, which fails when the window is destroyed. -/
def postMessage (posted : Posted) : ProgressWindow :=
  if w.Closed then w else { w with queue := w.queue ++ [posted] }

/-- `Close`. -/
def close : ProgressWindow :=
  { w with Canceled := false, UserClose := true }.postMessage { call := .Close, before := w.flags }

/-- `Cancel`. -/
def cancel : ProgressWindow :=
  { w with Canceled := true, UserClose := false }.postMessage { call := .Cancel, before := w.flags }

/-- `Join`, which returns when the window is closed. -/
def join : Option Bool :=
  if w.Closed then some !w.Canceled else none

end ProgressWindow

/-! ## The window procedure -/

/-- The messages that concern the flags. -/
inductive Message
  | WM_DESTROY
  | WM_COMMAND (id : ℕ)
  | WM_CLOSE
deriving DecidableEq, Repr

def IDCANCEL : ℕ := 2

namespace ProgressWindow

variable (w : ProgressWindow)

/-- The case `WM_DESTROY`. -/
def wmDestroy : ProgressWindow := { w with Closed := true }

/-- `DestroyWindow` sends `WM_DESTROY`; what was posted is gone. -/
def destroyWindow : ProgressWindow := { w.wmDestroy with queue := [] }

/-- The case `WM_CLOSE`, where `verdict` is what `OnCancel` says if it is asked. -/
def wmClose (verdict : Bool) : ProgressWindow :=
  if w.UserClose || (w.OnCancel && verdict) then
    { w with Canceled := !w.UserClose, Closed := true }.destroyWindow
  else w

/-- `WndProc`. The command of the Cancel button goes on to `WM_CLOSE`. -/
def wndProc (verdict : Bool) : Message → ProgressWindow
  | .WM_DESTROY => w.wmDestroy
  | .WM_COMMAND id => if id ≠ IDCANCEL then w else w.wmClose verdict
  | .WM_CLOSE => w.wmClose verdict

/-- `OnCancel` is asked, and approves. -/
def approves (verdict : Bool) : Bool := !w.UserClose && (w.OnCancel && verdict)

end ProgressWindow

/-! ## Steps -/

/-- What the user can do. -/
inductive UserRequest
  | closeBox
  | cancelButton
deriving DecidableEq, Repr

def UserRequest.message : UserRequest → Message
  | .closeBox => .WM_CLOSE
  | .cancelButton => .WM_COMMAND IDCANCEL

/-- A call of the program, the next posted message handled, or a request of the user handled. -/
inductive Event
  | call (call : Call)
  | posted (verdict : Bool)
  | user (request : UserRequest) (verdict : Bool)
deriving DecidableEq, Repr

/-- A step. Messages are handled as long as the window is not closed. -/
def step (w : ProgressWindow) : Event → Option ProgressWindow
  | .call .Close => some w.close
  | .call .Cancel => some w.cancel
  | .posted verdict =>
    if w.Closed then none else
      match w.queue with
      | [] => none
      | p :: queue =>
        some
          { { w with queue }.wndProc verdict .WM_CLOSE with
            approved := decide (p.call = .Cancel) && w.approves verdict }
  | .user request verdict =>
    if w.Closed then none else
      some { w.wndProc verdict request.message with approved := w.approves verdict }

end Win32Experiments.ProgressBar.Cancellation
