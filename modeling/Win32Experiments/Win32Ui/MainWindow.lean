import Mathlib.Logic.Function.Basic
import Win32Experiments.Foundation.Handles
import Win32Experiments.Foundation.Run

/-!
# `MainWindow` of the latest sample

A `MainWindow` owns a window, whose user data leads the window procedure back to it. Objects are at
addresses, which may be used again. `DestroyWindow` sends its messages to the window procedure
before it returns, so this runs in the middle of a move assignment.

* `destroyWindow_of_owner`, `destroyWindow_of_not_owner`: what a destruction does to the object that
  the user data names;
* `Inv.lose`, `Inv.give`: an owner loses its window, or gives it to another object;
* `inv_step`: every step keeps the link between the windows and their owners;
* `linked_of_run`: what holds after every run.
-/

namespace Win32Experiments.Win32Ui

open Foundation

/-- A `MainWindow`: `WindowHandle`, and whether something was moved out of it since it was
constructed or assigned to. -/
structure MainWindow where
  windowHandle : Option ℕ
  movedFrom : Bool
deriving DecidableEq, Repr

/-- The messages that the window procedure tells apart. -/
inductive Message where
  | destroy
  | nonClientDestroy
  | other
deriving DecidableEq, Repr

/-- A message of a window, dispatched to an object: whether there was one, and whether it had been
moved from. -/
structure Dispatch where
  hwnd : ℕ
  pThis : ℕ
  constructed : Bool
  movedFrom : Bool
deriving DecidableEq, Repr

/-- The objects by their addresses, the windows, the user data of each, and the messages that were
dispatched to an object, the latest last. -/
structure Desktop where
  objects : ℕ → Option MainWindow
  windows : Handles
  userData : ℕ → Option ℕ
  dispatched : List Dispatch

namespace Desktop

/-- No object, and no window. -/
def start : Desktop := ⟨fun _ => none, .empty, fun _ => none, []⟩

/-- The object at an address is set, or destroyed. -/
def setObject (d : Desktop) (this : ℕ) (object : Option MainWindow) : Desktop :=
  { d with objects := Function.update d.objects this object }

/-- `SetWindowLongPtrW(hwnd, GWLP_USERDATA, ..)`. -/
def setUserData (d : Desktop) (hwnd : ℕ) (pThis : Option ℕ) : Desktop :=
  { d with userData := Function.update d.userData hwnd pThis }

/-- `SetWindowLongPtrW` for the window that an object has, if it has one. -/
def link (d : Desktop) (this : ℕ) : Option ℕ → Desktop
  | none => d
  | some hwnd => d.setUserData hwnd (some this)

@[simp] theorem objects_link (d : Desktop) (this : ℕ) (p : Option ℕ) :
    (d.link this p).objects = d.objects := by
  cases p <;> rfl

@[simp] theorem windows_link (d : Desktop) (this : ℕ) (p : Option ℕ) :
    (d.link this p).windows = d.windows := by
  cases p <;> rfl

@[simp] theorem dispatched_link (d : Desktop) (this : ℕ) (p : Option ℕ) :
    (d.link this p).dispatched = d.dispatched := by
  cases p <;> rfl

theorem userData_link (d : Desktop) (this : ℕ) (p : Option ℕ) (k : ℕ) :
    (d.link this p).userData k = if p = some k then some this else d.userData k := by
  cases p with
  | none => rfl
  | some hwnd =>
    show Function.update d.userData hwnd (some this) k = _
    rw [Function.update_apply]
    simp only [Option.some.injEq, eq_comm]

/-- A message comes to an object. -/
def record (d : Desktop) (hwnd pThis : ℕ) : Desktop :=
  { d with
    dispatched := d.dispatched ++ [
      { hwnd, pThis
        constructed := (d.objects pThis).isSome
        movedFrom := (d.objects pThis).any MainWindow.movedFrom }] }

/-- `WndProc`. What it leaves to `DefWindowProcW` changes nothing here. -/
def wndProc (d : Desktop) (hwnd : ℕ) (msg : Message) : Desktop :=
  match d.userData hwnd with
  | none => d
  | some pThis =>
    match d.objects pThis with
    | none => d.record hwnd pThis
    | some window =>
      if msg = .nonClientDestroy ∧ window.windowHandle = some hwnd then
        ((d.record hwnd pThis).setUserData hwnd none).setObject pThis
          (some { window with windowHandle := none })
      else d.record hwnd pThis

/-- `DestroyWindow`, which sends nothing if there is no such window. -/
def destroyWindow (d : Desktop) (hwnd : ℕ) : Desktop :=
  if d.windows.Live hwnd then
    let d := (d.wndProc hwnd .destroy).wndProc hwnd .nonClientDestroy
    { d with windows := d.windows.close hwnd }
  else { d with windows := d.windows.close hwnd }

/-- The deleter, for a pointer that may be null. -/
def delete (d : Desktop) : Option ℕ → Desktop
  | none => d
  | some hwnd => d.destroyWindow hwnd

/-! ## The operations -/

/-- A window is made, unless this fails, and the constructor gets it. -/
def construct (d : Desktop) (this : ℕ) (created : Bool) : Desktop :=
  if created then
    ({ d with windows := d.windows.create }.setObject this
      (some ⟨some d.windows.opened, false⟩)).setUserData d.windows.opened (some this)
  else d.setObject this (some ⟨none, false⟩)

/-- The move constructor. -/
def moveConstruct (d : Desktop) (this other : ℕ) (source : MainWindow) : Desktop :=
  ((d.setObject other (some ⟨none, true⟩)).setObject this
    (some ⟨source.windowHandle, false⟩)).link this source.windowHandle

/-- The move assignment. The pointer is stored before the old window is destroyed. -/
def moveAssign (d : Desktop) (this other : ℕ) (self source : MainWindow) : Desktop :=
  if this = other then d
  else
    (((d.setObject other (some ⟨none, true⟩)).setObject this
      (some ⟨source.windowHandle, false⟩)).delete self.windowHandle).link this source.windowHandle

/-- The destructor: the pointer is still there while the window is destroyed. -/
def destruct (d : Desktop) (this : ℕ) (self : MainWindow) : Desktop :=
  (d.delete self.windowHandle).setObject this none

/-- `WM_CLOSE`, for which `DefWindowProcW` destroys the window. -/
def close (d : Desktop) (hwnd : ℕ) : Desktop := (d.wndProc hwnd .other).destroyWindow hwnd

/-- What happens: the operations on the objects, the user closes a window, or a window gets any
other message. -/
inductive Event where
  | construct (this : ℕ) (created : Bool)
  | moveConstruct (this other : ℕ)
  | moveAssign (this other : ℕ)
  | destruct (this : ℕ)
  | close (hwnd : ℕ)
  | message (hwnd : ℕ)
deriving DecidableEq, Repr

/-- A step: objects are constructed where there is none, and windows get messages while they
live. -/
def step (d : Desktop) : Event → Option Desktop
  | .construct this created =>
    if (d.objects this).isNone then some (d.construct this created) else none
  | .moveConstruct this other =>
    if (d.objects this).isNone then (d.objects other).map (d.moveConstruct this other) else none
  | .moveAssign this other =>
    (d.objects this).bind fun self => (d.objects other).map (d.moveAssign this other self)
  | .destruct this => (d.objects this).map (d.destruct this)
  | .close hwnd => if d.windows.Live hwnd then some (d.close hwnd) else none
  | .message hwnd => if d.windows.Live hwnd then some (d.wndProc hwnd .other) else none

/-- The object at an address owns the window. -/
def Owns (d : Desktop) (this hwnd : ℕ) : Prop :=
  ∃ window, d.objects this = some window ∧ window.windowHandle = some hwnd

end Desktop

/-- What the objects are for: every window is alive and owned by one object, or was destroyed once;
the user data of a live window names its owner; and messages came to objects only that were there
and had not been moved from. -/
structure Linked (d : Desktop) : Prop where
  owned : ∀ this hwnd, d.Owns this hwnd → d.windows.Live hwnd
  unique : ∀ this that hwnd, d.Owns this hwnd → d.Owns that hwnd → this = that
  userData : ∀ hwnd, d.windows.Live hwnd → ∃ this, d.userData hwnd = some this ∧ d.Owns this hwnd
  once : ∀ hwnd, ¬ d.windows.Live hwnd →
    d.windows.closed.count hwnd = if hwnd < d.windows.opened then 1 else 0
  dispatched : ∀ dispatch ∈ d.dispatched,
    dispatch.constructed = true ∧ dispatch.movedFrom = false

namespace Desktop

/-! ## What a destruction does -/

section Destruction

variable {d : Desktop} {hwnd this : ℕ} {window : MainWindow}

/-- A message that the object leaves alone. -/
theorem wndProc_record (hdata : d.userData hwnd = some this)
    (hobject : d.objects this = some window) {msg : Message}
    (hmsg : ¬ (msg = .nonClientDestroy ∧ window.windowHandle = some hwnd)) :
    d.wndProc hwnd msg = d.record hwnd this := by
  simp only [wndProc, hdata, hobject, if_neg hmsg]

/-- What is recorded of a message to an object that is there. -/
theorem record_eq (hobject : d.objects this = some window) :
    d.record hwnd this =
      { d with dispatched := d.dispatched ++ [⟨hwnd, this, true, window.movedFrom⟩] } := by
  rw [record, hobject]
  rfl

/-- The two messages of a destruction. -/
def destroyed (hwnd this : ℕ) (window : MainWindow) : List Dispatch :=
  [⟨hwnd, this, true, window.movedFrom⟩, ⟨hwnd, this, true, window.movedFrom⟩]

/-- The owner of a window that is destroyed owns nothing afterwards. -/
theorem destroyWindow_of_owner (hlive : d.windows.Live hwnd) (hdata : d.userData hwnd = some this)
    (hobject : d.objects this = some window) (hown : window.windowHandle = some hwnd) :
    d.destroyWindow hwnd =
      { objects := Function.update d.objects this (some { window with windowHandle := none })
        windows := d.windows.close hwnd
        userData := Function.update d.userData hwnd none
        dispatched := d.dispatched ++ destroyed hwnd this window } := by
  have hfirst : d.wndProc hwnd .destroy = d.record hwnd this :=
    wndProc_record hdata hobject fun h => absurd h.1 (by decide)
  rw [destroyWindow, if_pos hlive, hfirst, record_eq hobject]
  simp only [wndProc, hdata, hobject, hown, and_self, if_true, record, setUserData, setObject,
    List.append_assoc]
  rfl

/-- An object that has got another window keeps this. -/
theorem destroyWindow_of_not_owner (hlive : d.windows.Live hwnd)
    (hdata : d.userData hwnd = some this) (hobject : d.objects this = some window)
    (hown : window.windowHandle ≠ some hwnd) :
    d.destroyWindow hwnd =
      { d with
        windows := d.windows.close hwnd
        dispatched := d.dispatched ++ destroyed hwnd this window } := by
  have hfirst : d.wndProc hwnd .destroy = d.record hwnd this :=
    wndProc_record hdata hobject fun h => absurd h.1 (by decide)
  rw [destroyWindow, if_pos hlive, hfirst, record_eq hobject]
  simp only [wndProc, hdata, hobject, hown, and_false, if_false, record, List.append_assoc]
  rfl

end Destruction

/-! ## The link -/

/-- What holds between the steps: an object that has a window was not moved from. -/
structure Inv (d : Desktop) : Prop extends Linked d where
  notMoved : ∀ this window, d.objects this = some window → window.windowHandle ≠ none →
    window.movedFrom = false

section Link

variable {d : Desktop} {hwnd this that other : ℕ} {self source window : MainWindow}

theorem inv_start : Inv start where
  owned this hwnd h := by
    obtain ⟨window, hobject, -⟩ := h
    contradiction
  unique this that hwnd h _ := by
    obtain ⟨window, hobject, -⟩ := h
    contradiction
  userData hwnd hlive := absurd hlive.1 (Nat.not_lt_zero hwnd)
  once hwnd _ := rfl
  dispatched dispatch hmem := absurd hmem List.not_mem_nil
  notMoved this window hobject _ := by contradiction

theorem owns_of_windowHandle (hobject : d.objects this = some window)
    (hown : window.windowHandle = some hwnd) : d.Owns this hwnd := ⟨window, hobject, hown⟩

theorem Owns.windowHandle (h : d.Owns this hwnd) (hobject : d.objects this = some window) :
    window.windowHandle = some hwnd := by
  obtain ⟨window', hobject', hown⟩ := h
  rw [hobject, Option.some.injEq] at hobject'
  exact hobject' ▸ hown

/-- The user data of the window of an object names this object. -/
theorem Inv.userData_of_owns (hinv : Inv d) (h : d.Owns this hwnd) :
    d.userData hwnd = some this := by
  obtain ⟨that, hdata, hthat⟩ := hinv.userData hwnd (hinv.owned this hwnd h)
  rw [hdata, hinv.unique that this hwnd hthat h]

/-- More messages to objects that are there. -/
theorem Inv.record (hinv : Inv d) {more : List Dispatch}
    (hmore : ∀ dispatch ∈ more, dispatch.constructed = true ∧ dispatch.movedFrom = false) :
    Inv { d with dispatched := d.dispatched ++ more } where
  owned := hinv.owned
  unique := hinv.unique
  userData := hinv.userData
  once := hinv.once
  dispatched dispatch hmem := by
    rcases List.mem_append.mp hmem with hold | hnew
    · exact hinv.dispatched dispatch hold
    · exact hmore dispatch hnew
  notMoved := hinv.notMoved

/-- The objects that have a window go on as they are when another is set that has none. -/
theorem owns_update {object : Option MainWindow} (hnone : ∀ w, object = some w →
      w.windowHandle = none) {objects : ℕ → Option MainWindow} {d' : Desktop}
    (hobjects : d'.objects = Function.update objects this object) :
    d'.Owns that hwnd ↔ that ≠ this ∧ ∃ w, objects that = some w ∧ w.windowHandle = some hwnd := by
  unfold Owns
  rw [hobjects]
  by_cases heq : that = this
  · rw [heq, Function.update_self]
    refine iff_of_false ?_ fun h => h.1 rfl
    rintro ⟨w, hw, hown⟩
    rw [hnone w hw] at hown
    contradiction
  · rw [Function.update_of_ne heq]
    exact (and_iff_right heq).symm

/-- The windows of the objects when one object is set. -/
theorem hasWindow_update {objects : ℕ → Option MainWindow} {w : MainWindow} {k : ℕ} :
    (∃ x, Function.update objects this (some w) that = some x ∧ x.windowHandle = some k) ↔
      that = this ∧ w.windowHandle = some k ∨
        that ≠ this ∧ ∃ x, objects that = some x ∧ x.windowHandle = some k := by
  by_cases heq : that = this
  · rw [heq, Function.update_self]
    constructor
    · rintro ⟨x, hx, hown⟩
      rw [← Option.some.inj hx] at hown
      exact Or.inl ⟨rfl, hown⟩
    · rintro (⟨-, hown⟩ | ⟨hne, -⟩)
      · exact ⟨w, rfl, hown⟩
      · exact absurd rfl hne
  · rw [Function.update_of_ne heq]
    constructor
    · intro h
      exact Or.inr ⟨heq, h⟩
    · rintro (⟨hthat, -⟩ | ⟨-, h⟩)
      · exact absurd hthat heq
      · exact h

/-- Objects with a window have not been moved from, when one is set that has none or has not. -/
theorem notMoved_set {objects : ℕ → Option MainWindow} {w : MainWindow}
    (hold : ∀ that x, objects that = some x → x.windowHandle ≠ none → x.movedFrom = false)
    (hnew : w.windowHandle ≠ none → w.movedFrom = false) :
    ∀ that x, Function.update objects this (some w) that = some x → x.windowHandle ≠ none →
      x.movedFrom = false := by
  intro that x hx hhandle
  by_cases heq : that = this
  · rw [heq, Function.update_self] at hx
    rw [← Option.some.inj hx] at hhandle ⊢
    exact hnew hhandle
  · rw [Function.update_of_ne heq] at hx
    exact hold that x hx hhandle

theorem Inv.notMoved_update (hinv : Inv d) {object : Option MainWindow}
    (hnone : ∀ w, object = some w → w.windowHandle = none)
    (hwindow : Function.update d.objects this object that = some window)
    (hhandle : window.windowHandle ≠ none) : window.movedFrom = false := by
  by_cases heq : that = this
  · rw [heq, Function.update_self] at hwindow
    exact absurd (hnone window hwindow) hhandle
  · rw [Function.update_of_ne heq] at hwindow
    exact hinv.notMoved that window hwindow hhandle

/-- **An owner loses its window**, which is destroyed; the object may be destroyed as well. -/
theorem Inv.lose (hinv : Inv d) (h : d.Owns this hwnd) {object : Option MainWindow}
    (hnone : ∀ w, object = some w → w.windowHandle = none) {userData : ℕ → Option ℕ}
    (hdata : ∀ k, k ≠ hwnd → userData k = d.userData k) :
    Inv
      { objects := Function.update d.objects this object
        windows := d.windows.close hwnd
        userData := userData
        dispatched := d.dispatched } := by
  have howns : ∀ that k, Owns
      { objects := Function.update d.objects this object, windows := d.windows.close hwnd
        userData := userData, dispatched := d.dispatched } that k ↔ that ≠ this ∧ d.Owns that k :=
    fun that k => owns_update hnone rfl
  have hlive := hinv.owned this hwnd h
  have hclosed : ∀ k, (d.windows.close hwnd).Live k ↔ k ≠ hwnd ∧ d.windows.Live k := by
    intro k
    unfold Handles.Live
    rw [Handles.opened_close, Handles.closed_close, List.mem_cons, not_or]
    exact ⟨fun ⟨hlt, hne, hmem⟩ => ⟨hne, hlt, hmem⟩, fun ⟨hne, hlt, hmem⟩ => ⟨hlt, hne, hmem⟩⟩
  constructor
  · constructor
    · intro that k hthat
      obtain ⟨hne, hthat⟩ := (howns that k).mp hthat
      refine (hclosed k).mpr ⟨fun heq => ?_, hinv.owned that k hthat⟩
      exact hne (hinv.unique that this hwnd (heq ▸ hthat) h)
    · intro that that' k hthat hthat'
      exact hinv.unique that that' k ((howns that k).mp hthat).2 ((howns that' k).mp hthat').2
    · intro k hk
      obtain ⟨hne, hk⟩ := (hclosed k).mp hk
      obtain ⟨that, hthat, howner⟩ := hinv.userData k hk
      refine ⟨that, (hdata k hne).trans hthat, (howns that k).mpr ⟨fun heq => ?_, howner⟩⟩
      obtain ⟨w, hw, hown⟩ := h
      have hhandle := Owns.windowHandle (heq ▸ howner) hw
      rw [hown, Option.some.injEq] at hhandle
      exact hne hhandle.symm
    · intro k hk
      show (hwnd :: d.windows.closed).count k = if k < d.windows.opened then 1 else 0
      rw [List.count_cons]
      by_cases heq : k = hwnd
      · rw [heq, List.count_eq_zero.mpr hlive.2, if_pos hlive.1]
        simp
      · have hdead : ¬ d.windows.Live k := fun hk' => hk ((hclosed k).mpr ⟨heq, hk'⟩)
        have hbeq : ¬ (hwnd == k) = true := fun hbeq => heq (beq_iff_eq.mp hbeq).symm
        rw [if_neg hbeq, hinv.once k hdead]
        omega
    · exact hinv.dispatched
  · exact fun that w hw hhandle => hinv.notMoved_update hnone hw hhandle

/-- An object without a window is made, replaced or destroyed. -/
theorem Inv.setEmpty (hinv : Inv d) (hthis : ∀ k, ¬ d.Owns this k) {object : Option MainWindow}
    (hnone : ∀ w, object = some w → w.windowHandle = none) : Inv (d.setObject this object) := by
  have howns : ∀ that k, (d.setObject this object).Owns that k ↔ d.Owns that k := by
    intro that k
    refine (owns_update hnone rfl).trans ⟨And.right, fun h => ⟨fun heq => ?_, h⟩⟩
    exact hthis k (heq ▸ h)
  constructor
  · constructor
    · exact fun that k h => hinv.owned that k ((howns that k).mp h)
    · exact fun that that' k h h' =>
        hinv.unique that that' k ((howns that k).mp h) ((howns that' k).mp h')
    · intro k hk
      obtain ⟨that, hdata, howner⟩ := hinv.userData k hk
      exact ⟨that, hdata, (howns that k).mpr howner⟩
    · exact hinv.once
    · exact hinv.dispatched
  · exact fun that w hw hhandle => hinv.notMoved_update hnone hw hhandle

/-- A new window, with an object that has none. -/
theorem Inv.create (hinv : Inv d) (hthis : ∀ k, ¬ d.Owns this k) :
    Inv (d.construct this true) := by
  have hnew : ∀ that k, (d.construct this true).Owns that k ↔
      that = this ∧ k = d.windows.opened ∨ that ≠ this ∧ d.Owns that k := by
    intro that k
    refine hasWindow_update.trans ?_
    rw [Option.some.injEq, eq_comm (a := k)]
    rfl
  -- The new number was never passed to `DestroyWindow`.
  have hfresh : d.windows.opened ∉ d.windows.closed := by
    have hdead : ¬ d.windows.Live d.windows.opened := fun h => Nat.lt_irrefl _ h.1
    have hcount := hinv.once _ hdead
    rw [if_neg (Nat.lt_irrefl _)] at hcount
    exact List.count_eq_zero.mp hcount
  constructor
  · constructor
    · intro that k h
      refine Handles.live_create_iff.mpr ?_
      rcases (hnew that k).mp h with ⟨-, hk⟩ | ⟨-, hold⟩
      · exact .inl ⟨hk, hk ▸ hfresh⟩
      · exact .inr (hinv.owned that k hold)
    · intro that that' k h h'
      rcases (hnew that k).mp h with ⟨hthat, hk⟩ | ⟨-, hold⟩
      · rcases (hnew that' k).mp h' with ⟨hthat', -⟩ | ⟨-, hold'⟩
        · rw [hthat, hthat']
        · exact absurd (hinv.owned that' k hold').1 (by omega)
      · rcases (hnew that' k).mp h' with ⟨-, hk⟩ | ⟨-, hold'⟩
        · exact absurd (hinv.owned that k hold).1 (by omega)
        · exact hinv.unique that that' k hold hold'
    · intro k hk
      show ∃ that, Function.update d.userData d.windows.opened (some this) k = some that ∧ _
      rcases Handles.live_create_iff.mp hk with ⟨heq, -⟩ | hold
      · refine ⟨this, ?_, (hnew this k).mpr (.inl ⟨rfl, heq⟩)⟩
        rw [heq, Function.update_self]
      · obtain ⟨that, hdata, howner⟩ := hinv.userData k hold
        have hne : k ≠ d.windows.opened := Nat.ne_of_lt hold.1
        refine ⟨that, (Function.update_of_ne hne _ _).trans hdata, ?_⟩
        refine (hnew that k).mpr (.inr ⟨?_, howner⟩)
        exact fun heq => hthis k (heq ▸ howner)
    · intro k hk
      have hdead : ¬ d.windows.Live k := fun hold => hk (Handles.live_create_iff.mpr (.inr hold))
      have hne : k ≠ d.windows.opened := fun heq =>
        hk (Handles.live_create_iff.mpr (.inl ⟨heq, heq ▸ hfresh⟩))
      show d.windows.closed.count k = if k < d.windows.opened + 1 then 1 else 0
      rw [hinv.once k hdead]
      by_cases hlt : k < d.windows.opened
      · rw [if_pos hlt, if_pos (by omega)]
      · rw [if_neg hlt, if_neg (by omega)]
    · exact hinv.dispatched
  · exact notMoved_set hinv.notMoved fun _ => rfl

/-- **An owner gives its window** to an object that has none. -/
theorem Inv.give (hinv : Inv d) (hthis : ∀ k, ¬ d.Owns this k)
    (hother : d.objects other = some source) :
    Inv (((d.setObject other (some ⟨none, true⟩)).setObject this
      (some ⟨source.windowHandle, false⟩)).link this source.windowHandle) := by
  set d' := ((d.setObject other (some ⟨none, true⟩)).setObject this
    (some ⟨source.windowHandle, false⟩)).link this source.windowHandle with hd'
  have hobjects : d'.objects = Function.update (Function.update d.objects other (some ⟨none, true⟩))
      this (some ⟨source.windowHandle, false⟩) := by
    rw [hd', objects_link]
    rfl
  have hwindows : d'.windows = d.windows := by
    rw [hd', windows_link]
    rfl
  have hdispatched : d'.dispatched = d.dispatched := by
    rw [hd', dispatched_link]
    rfl
  have hsource : ∀ k, source.windowHandle = some k ↔ d.Owns other k := fun k =>
    ⟨owns_of_windowHandle hother, fun h => h.windowHandle hother⟩
  have hnew : ∀ that k, d'.Owns that k ↔
      that = this ∧ d.Owns other k ∨ that ≠ this ∧ that ≠ other ∧ d.Owns that k := by
    intro that k
    rw [← hsource]
    unfold Owns
    rw [hobjects, hasWindow_update, hasWindow_update]
    constructor
    · rintro (h | ⟨hne, ⟨-, hnone⟩ | h⟩)
      · exact Or.inl h
      · contradiction
      · exact Or.inr ⟨hne, h⟩
    · rintro (h | ⟨hne, h⟩)
      · exact Or.inl h
      · exact Or.inr ⟨hne, Or.inr h⟩
  have hdata : ∀ k, d'.userData k =
      if source.windowHandle = some k then some this else d.userData k := fun k =>
    userData_link _ this source.windowHandle k
  constructor
  · constructor
    · intro that k h
      rw [hwindows]
      rcases (hnew that k).mp h with ⟨-, hold⟩ | ⟨-, -, hold⟩
      · exact hinv.owned other k hold
      · exact hinv.owned that k hold
    · intro that that' k h h'
      rcases (hnew that k).mp h with ⟨hthat, hold⟩ | ⟨-, hno, hold⟩
      · rcases (hnew that' k).mp h' with ⟨hthat', -⟩ | ⟨-, hno', hold'⟩
        · rw [hthat, hthat']
        · exact absurd (hinv.unique that' other k hold' hold) hno'
      · rcases (hnew that' k).mp h' with ⟨-, hold'⟩ | ⟨-, -, hold'⟩
        · exact absurd (hinv.unique that other k hold hold') hno
        · exact hinv.unique that that' k hold hold'
    · intro k hk
      rw [hwindows] at hk
      rw [hdata]
      by_cases hgiven : source.windowHandle = some k
      · rw [if_pos hgiven]
        exact ⟨this, rfl, (hnew this k).mpr (.inl ⟨rfl, (hsource k).mp hgiven⟩)⟩
      · rw [if_neg hgiven]
        obtain ⟨that, hthat, howner⟩ := hinv.userData k hk
        refine ⟨that, hthat, (hnew that k).mpr (.inr ⟨fun heq => ?_, fun heq => ?_, howner⟩)⟩
        · exact hthis k (heq ▸ howner)
        · exact hgiven ((hsource k).mpr (heq ▸ howner))
    · rw [hwindows]
      exact hinv.once
    · rw [hdispatched]
      exact hinv.dispatched
  · rw [hobjects]
    exact notMoved_set (notMoved_set hinv.notMoved fun h => absurd rfl h) fun _ => rfl

/-! ## The steps -/

/-- The two messages of a destruction go to an object that is there and was not moved from. -/
theorem destroyed_ok (hmoved : window.movedFrom = false) : ∀ dispatch ∈ destroyed hwnd this window,
    dispatch.constructed = true ∧ dispatch.movedFrom = false := by
  intro dispatch hmem
  unfold destroyed at hmem
  rcases List.mem_cons.mp hmem with rfl | hmem
  · exact ⟨rfl, hmoved⟩
  · rw [List.mem_singleton.mp hmem]
    exact ⟨rfl, hmoved⟩

theorem not_owns_of_isNone (hthis : d.objects this = none) (k : ℕ) : ¬ d.Owns this k := by
  rintro ⟨w, hw, -⟩
  rw [hthis] at hw
  contradiction

theorem not_owns_of_windowHandle (hthis : d.objects this = some self)
    (hnone : self.windowHandle = none) (k : ℕ) : ¬ d.Owns this k := by
  intro h
  have hhandle := h.windowHandle hthis
  rw [hnone] at hhandle
  contradiction

theorem inv_construct (hinv : Inv d) (hthis : d.objects this = none) (created : Bool) :
    Inv (d.construct this created) := by
  cases created with
  | true => exact hinv.create (not_owns_of_isNone hthis)
  | false =>
    refine hinv.setEmpty (not_owns_of_isNone hthis) fun w hw => ?_
    rw [← Option.some.inj hw]

theorem inv_moveConstruct (hinv : Inv d) (hthis : d.objects this = none)
    (hother : d.objects other = some source) : Inv (d.moveConstruct this other source) :=
  hinv.give (not_owns_of_isNone hthis) hother

/-- A window that is destroyed is taken from its owner. -/
theorem inv_destroyWindow (hinv : Inv d) (hlive : d.windows.Live hwnd) :
    Inv (d.destroyWindow hwnd) := by
  obtain ⟨this, hdata, howns⟩ := hinv.userData hwnd hlive
  obtain ⟨window, hthis, hhandle⟩ := howns
  have hmoved := hinv.notMoved this window hthis (by rw [hhandle]; nofun)
  rw [destroyWindow_of_owner hlive hdata hthis hhandle]
  refine (hinv.record (destroyed_ok hmoved)).lose (owns_of_windowHandle hthis hhandle)
    (fun w hw => ?_) fun k hk => Function.update_of_ne hk _ _
  rw [← Option.some.inj hw]

/-- A message to a live window comes to its owner. -/
theorem inv_record (hinv : Inv d) (hlive : d.windows.Live hwnd) :
    ∃ d', d.wndProc hwnd .other = d' ∧ Inv d' ∧ d'.windows = d.windows := by
  obtain ⟨this, hdata, howns⟩ := hinv.userData hwnd hlive
  obtain ⟨window, hthis, hhandle⟩ := howns
  have hmoved := hinv.notMoved this window hthis (by rw [hhandle]; nofun)
  have hmsg : d.wndProc hwnd .other = d.record hwnd this :=
    wndProc_record hdata hthis fun h => absurd h.1 (by decide)
  refine ⟨_, hmsg.trans (record_eq hthis), hinv.record fun dispatch hmem => ?_, rfl⟩
  rw [List.mem_singleton.mp hmem]
  exact ⟨rfl, hmoved⟩

theorem inv_close (hinv : Inv d) (hlive : d.windows.Live hwnd) : Inv (d.close hwnd) := by
  obtain ⟨d', hmsg, hinv', hwindows⟩ := inv_record hinv hlive
  rw [close, hmsg]
  exact inv_destroyWindow hinv' (hwindows ▸ hlive)

theorem inv_destruct (hinv : Inv d) (hthis : d.objects this = some self) :
    Inv (d.destruct this self) := by
  match hhandle : self.windowHandle with
  | none =>
    rw [destruct, hhandle]
    refine hinv.setEmpty (not_owns_of_windowHandle hthis hhandle) fun w hw => ?_
    contradiction
  | some hwnd =>
    have howns := owns_of_windowHandle hthis hhandle
    have hlive := hinv.owned this hwnd howns
    rw [destruct, hhandle, delete]
    refine (inv_destroyWindow hinv hlive).setEmpty ?_ fun w hw => ?_
    · rw [destroyWindow_of_owner hlive (hinv.userData_of_owns howns) hthis hhandle]
      exact not_owns_of_windowHandle (Function.update_self _ _ _) rfl
    · contradiction

/-- **The move assignment.** The old window is destroyed while the object has the new one already,
whose user data still names the object that it comes from. -/
theorem inv_moveAssign (hinv : Inv d) (hthis : d.objects this = some self)
    (hother : d.objects other = some source) : Inv (d.moveAssign this other self source) := by
  rw [moveAssign]
  by_cases hself : this = other
  · rw [if_pos hself]
    exact hinv
  rw [if_neg hself]
  match hhandle : self.windowHandle with
  | none => exact hinv.give (not_owns_of_windowHandle hthis hhandle) hother
  | some hwnd =>
    have howns := owns_of_windowHandle hthis hhandle
    have hlive := hinv.owned this hwnd howns
    -- The new window is another one.
    have hne : source.windowHandle ≠ some hwnd := fun heq =>
      hself (hinv.unique this other hwnd howns (owns_of_windowHandle hother heq))
    have hdelete := destroyWindow_of_not_owner
      (d := (d.setObject other (some ⟨none, true⟩)).setObject this
        (some ⟨source.windowHandle, false⟩))
      hlive (hinv.userData_of_owns howns) (Function.update_self _ _ _) hne
    have hmore : ∀ dispatch ∈ destroyed hwnd this ⟨source.windowHandle, false⟩,
        dispatch.constructed = true ∧ dispatch.movedFrom = false := destroyed_ok rfl
    have hempty : ∀ w, some (MainWindow.mk none false) = some w → w.windowHandle = none := by
      intro w hw
      rw [← Option.some.inj hw]
    have hkept : ∀ k, k ≠ hwnd → d.userData k = d.userData k := fun _ _ => rfl
    have hlost := (hinv.record hmore).lose howns hempty hkept
    have hgiven := hlost.give (not_owns_of_windowHandle (Function.update_self _ _ _) rfl)
      ((Function.update_of_ne (Ne.symm hself) _ _).trans hother)
    have hobjects : Function.update (Function.update
          (Function.update d.objects this (some ⟨none, false⟩)) other (some ⟨none, true⟩))
          this (some ⟨source.windowHandle, false⟩)
        = Function.update (Function.update d.objects other (some ⟨none, true⟩)) this
          (some ⟨source.windowHandle, false⟩) := by
      rw [Function.update_comm hself, Function.update_idem]
    rw [delete, hdelete]
    unfold setObject at hgiven ⊢
    rw [← hobjects]
    exact hgiven

/-- Every step keeps the link. -/
theorem inv_step {event : Event} {d' : Desktop} (hinv : Inv d) (hstep : d.step event = some d') :
    Inv d' := by
  match event with
  | .construct this created =>
    rw [step, Option.ite_none_right_eq_some] at hstep
    rw [← Option.some.inj hstep.2]
    exact inv_construct hinv (Option.isNone_iff_eq_none.mp hstep.1) created
  | .moveConstruct this other =>
    rw [step, Option.ite_none_right_eq_some] at hstep
    obtain ⟨source, hother, heq⟩ := Option.map_eq_some_iff.mp hstep.2
    exact heq ▸ inv_moveConstruct hinv (Option.isNone_iff_eq_none.mp hstep.1) hother
  | .moveAssign this other =>
    obtain ⟨self, hthis, hmap⟩ := Option.bind_eq_some_iff.mp hstep
    obtain ⟨source, hother, heq⟩ := Option.map_eq_some_iff.mp hmap
    exact heq ▸ inv_moveAssign hinv hthis hother
  | .destruct this =>
    obtain ⟨self, hthis, heq⟩ := Option.map_eq_some_iff.mp hstep
    exact heq ▸ inv_destruct hinv hthis
  | .close hwnd =>
    rw [step, Option.ite_none_right_eq_some] at hstep
    rw [← Option.some.inj hstep.2]
    exact inv_close hinv hstep.1
  | .message hwnd =>
    rw [step, Option.ite_none_right_eq_some] at hstep
    obtain ⟨d'', hmsg, hinv', -⟩ := inv_record hinv hstep.1
    rw [← Option.some.inj hstep.2, hmsg]
    exact hinv'

end Link

end Desktop

/-- **The link holds after every run.** -/
theorem linked_of_run (events : List Desktop.Event) (d : Desktop)
    (hrun : run Desktop.step .start events = some d) : Linked d :=
  (run_invariant Desktop.Inv (fun _ _ _ => Desktop.inv_step) hrun Desktop.inv_start).toLinked

/-- An assignment over an object that has another window, one to itself, and a window that the user
closes behind a move. -/
def moves : List Desktop.Event :=
  [.construct 1 true, .construct 2 true, .moveAssign 1 2, .moveAssign 1 1, .moveConstruct 3 1,
    .message 1, .destruct 2, .close 1, .destruct 3, .destruct 1]

theorem linked_of_run_moves : ∃ d, run Desktop.step .start moves = some d ∧ Linked d ∧
    d.windows = ⟨2, [1, 0]⟩ :=
  ⟨_, rfl, linked_of_run moves _ rfl, rfl⟩

end Win32Experiments.Win32Ui
