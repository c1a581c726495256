import Mathlib.Algebra.Group.Int.Defs
import Mathlib.Data.Int.Basic
import Win32Experiments.Foundation.Run

/-!
# `ProgressStatus` and `ProgressWindow`

The window keeps a `Status` and sends it to three controls: two texts and a progress bar. The
bar clamps its position to its range whenever either changes, and is told its range in the two
words of one `LPARAM`. Beside them stands what was asked for: the numbers given to the
constructor of the status, or to the setter.
-/

namespace Win32Experiments.ProgressBar

open Foundation

/-! ## The progress bar -/

/-- The progress bar control. -/
structure Bar where
  low : ℤ
  high : ℤ
  position : ℤ
  marquee : Bool
deriving DecidableEq, Repr

/-- A new control. -/
def Bar.new : Bar := { low := 0, high := 100, position := 0, marquee := false }

/-- `v`, moved into the range. -/
def clamp (low high v : ℤ) : ℤ := max low (min high v)

/-- A word of `MAKELPARAM`. -/
def loword (n : ℤ) : ℤ := n % 2 ^ 16

/-- `PBM_SETPOS`. -/
def Bar.setPos (bar : Bar) (value : ℤ) : Bar :=
  { bar with position := clamp bar.low bar.high value }

/-- `PBM_SETRANGE` with `MAKELPARAM(min, max)`. -/
def Bar.setRange (bar : Bar) (min max : ℤ) : Bar :=
  { bar with
    low := loword min
    high := loword max
    position := clamp (loword min) (loword max) bar.position }

/-! ## The window -/

/-- `ProgressStatus`. -/
structure ProgressStatus where
  Title : String
  Text : String
  Value : ℤ
  Min : ℤ
  Max : ℤ
  Marquee : Bool
deriving DecidableEq, Repr

/-- The constructor of `ProgressStatus`. It assigns `Max` to itself, so the field keeps what
`memory` held. -/
def ProgressStatus.construct (title text : String) (value min _max memory : ℤ) (marquee : Bool) :
    ProgressStatus :=
  { Title := title, Text := text, Value := value, Min := min, Max := memory, Marquee := marquee }

/-- The numbers last asked for. -/
structure Asked where
  value : ℤ
  min : ℤ
  max : ℤ
deriving DecidableEq, Repr

/-- A `ProgressWindow`: its `Status`, the texts of its controls, the bar, and what was asked
for. -/
structure ProgressWindow where
  Status : ProgressStatus
  title : String
  text : String
  bar : Bar
  asked : Asked
deriving DecidableEq, Repr

namespace ProgressWindow

variable (w : ProgressWindow)

def setTitle (value : String) : ProgressWindow :=
  { w with title := value, Status := { w.Status with Title := value } }

def setText (value : String) : ProgressWindow :=
  { w with text := value, Status := { w.Status with Text := value } }

/-- `SetValue(value)`. -/
def setValue (value : ℤ) : ProgressWindow :=
  { w with bar := w.bar.setPos value, Status := { w.Status with Value := value } }

/-- `SetProgress`. -/
def setProgress (min max : ℤ) : ProgressWindow :=
  { w with
    bar := w.bar.setRange min max
    Status := { w.Status with Min := min, Max := max } }

/-- `SetValue(value, min, max)`. -/
def setValueRange (value min max : ℤ) : ProgressWindow :=
  let w := w.setProgress min max
  { w with bar := w.bar.setPos value, Status := { w.Status with Value := value } }

/-- `SetMarquee`: the style of the bar. -/
def setMarquee (value : Bool) : ProgressWindow :=
  { w with bar := { w.bar with marquee := value }, Status := { w.Status with Marquee := value } }

/-- `SetStatus`: only the fields that differ are sent. -/
def setStatus (status : ProgressStatus) : ProgressWindow :=
  let w := if w.Status.Title ≠ status.Title then w.setTitle status.Title else w
  let w := if w.Status.Text ≠ status.Text then w.setText status.Text else w
  let w := if w.Status.Marquee ≠ status.Marquee then w.setMarquee status.Marquee else w
  let w := if w.Status.Max ≠ status.Max ∨ w.Status.Min ≠ status.Min then
      w.setProgress status.Min status.Max
    else w
  if w.Status.Value ≠ status.Value then w.setValue status.Value else w

/-- The constructor of `ProgressWindow`, as far as it concerns the status. -/
def construct (status : ProgressStatus) (asked : Asked) : ProgressWindow :=
  let w : ProgressWindow :=
    { Status := status, title := status.Title, text := status.Text, bar := .new, asked }
  (w.setMarquee status.Marquee).setValueRange status.Value status.Min status.Max

end ProgressWindow

/-! ## Calls -/

/-- The arguments of the constructor of a status, with what its memory holds. -/
structure StatusArguments where
  title : String
  text : String
  value : ℤ
  min : ℤ
  max : ℤ
  marquee : Bool
  memory : ℤ
deriving DecidableEq, Repr

/-- The status that the constructor makes of them. -/
def StatusArguments.status (a : StatusArguments) : ProgressStatus :=
  .construct a.title a.text a.value a.min a.max a.memory a.marquee

def StatusArguments.asked (a : StatusArguments) : Asked :=
  { value := a.value, min := a.min, max := a.max }

/-- A call: the construction of the window, or one of its setters. -/
inductive Call
  | construct (a : StatusArguments)
  | setStatus (a : StatusArguments)
  | setValue (value : ℤ)
  | setValueRange (value min max : ℤ)
  | setProgress (min max : ℤ)
deriving DecidableEq, Repr

/-- The minimum, the value and the maximum are in order. -/
def Asked.Ordered (a : Asked) : Prop := a.min ≤ a.value ∧ a.value ≤ a.max

instance (a : Asked) : Decidable a.Ordered := inferInstanceAs (Decidable (_ ∧ _))

/-- What is asked for behind a call. -/
def Call.asked (asked : Asked) : Call → Asked
  | .construct a => a.asked
  | .setStatus a => a.asked
  | .setValue value => { asked with value }
  | .setValueRange value min max => { value, min, max }
  | .setProgress min max => { asked with min, max }

/-- What a setter does. -/
def ProgressWindow.call (w : ProgressWindow) : Call → ProgressWindow
  | .construct _ => w
  | .setStatus a => w.setStatus a.status
  | .setValue value => w.setValue value
  | .setValueRange value min max => w.setValueRange value min max
  | .setProgress min max => w.setProgress min max

/-- A step: the construction of the window, or a call of a setter, that leaves what is asked
for in order. -/
def step : Option ProgressWindow → Call → Option (Option ProgressWindow)
  | none, .construct a =>
    if a.asked.Ordered then some (some (.construct a.status a.asked)) else none
  | none, _ => none
  | some _, .construct _ => none
  | some w, call =>
    let asked := call.asked w.asked
    if asked.Ordered then some (some { w.call call with asked }) else none

end Win32Experiments.ProgressBar
