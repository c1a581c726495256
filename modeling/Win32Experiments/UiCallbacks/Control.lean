import Mathlib.Data.List.Flatten
import Win32Experiments.Foundation.Run
import Win32Experiments.UiCallbacks.Window

/-!
# Controls

A control is an object and a child window. The parent refers to a `Button` in its command table,
and a child window refers to a `SubclassButton` in the reference data of its subclass. The
destructor of a `Button` takes it out of the table and destroys the child; a `SubclassButton` has no
destructor.

* `mem_commandHandlers`: the command table refers to the live buttons and to nothing else;
* `live_calls_iff`: in which states a step calls only what is alive;
* `clicked`: a click on a live control runs its own `OnClick`;
* `callsLive_iff`: in which runs all of this holds.
-/

namespace Win32Experiments.UiCallbacks

open Foundation

def wmLButtonUp : UInt32 := 0x202

def bnClicked : UInt16 := 0

inductive Kind where
  | button
  | subclassButton
deriving DecidableEq, Repr

/-- A `Button` or a `SubclassButton`, and whether its `OnClick` is set. -/
structure Control where
  kind : Kind
  id : UInt16
  hwnd : ℕ
  onClick : Bool
deriving DecidableEq, Repr

/-- The parent, the objects, and the child windows with the objects in the reference data of their
subclasses. The command handlers of the parent are the buttons that the lambdas capture. -/
structure Panel (H : Type*) where
  parent : Window H ℕ
  controls : ℕ → Option Control
  children : ℕ → Option (Option ℕ)
  created : ℕ

/-- What the reference data of the window of a control are. -/
def Control.refData (c : Control) (self : ℕ) : Option ℕ :=
  match c.kind with
  | .button => none
  | .subclassButton => some self

/-- What runs for a control, or is called with its window. -/
inductive Call where
  | onClick (self : ℕ)
  | command (self : ℕ)
  | subclassProc (refData : ℕ)
  | destroyWindow (hwnd : ℕ)
deriving DecidableEq, Repr

/-- What happens: constructions, with the answers of `CreateWindowExW` and `SetWindowSubclass`,
assignments of `OnClick`, destructions, and messages. -/
inductive Panel.Event where
  | button (id : UInt16) (created : Bool)
  | subclassButton (id : UInt16) (created subclassed : Bool)
  | onClick (self : ℕ) (set : Bool)
  | destroy (self : ℕ)
  | destroyParent
  | parentMessage (type : UInt32) (wParam : UInt64) (lParam : ℤ)
  | childMessage (hwnd : ℕ) (msg : UInt32)
deriving DecidableEq, Repr

/-- `RemoveCommand`. -/
def Window.removeCommand {H K : Type*} (x : Window H K) (id : UInt16) : Window H K :=
  { x with commandHandlers := Function.update x.commandHandlers id.toUInt32 none }

/-- What `HandleMessage` does with a message, when no handler is registered for it. -/
theorem Window.handleMessage_of_none {H K : Type*} {x : Window H K} {type : UInt32}
    {wParam : UInt64} {lParam : ℤ} (h : x.handlers type = none) :
    x.handleMessage type wParam lParam =
      if type = wmCommand then
        match x.commandHandlers (getLowWord wParam).toUInt32 with
        | some k => .command k (getHighWord wParam)
        | none => .defWindowProc x.window wmCommand wParam lParam
      else if type = wmClose then .onClose x.window
      else if type = wmDestroy then .onDestroy
      else .defWindowProc x.window type wParam lParam := by
  unfold handleMessage
  rw [h]
  by_cases hcommand : type = wmCommand
  · rw [if_pos hcommand, if_pos hcommand, hcommand]
    cases x.commandHandlers (getLowWord wParam).toUInt32 with
    | some k => rfl
    | none => rfl
  · rw [if_neg hcommand, if_neg hcommand]

namespace Panel

variable {H : Type*} (p : Panel H)

/-! ## Calls -/

/-- `self.OnClick()`, if it is set. -/
def onClick (self : ℕ) : List Call :=
  if (p.controls self).any Control.onClick then [.onClick self] else []

/-- The handler that `Init` of a `Button` registers. -/
def command (self : ℕ) (notify : UInt16) : List Call :=
  .command self :: if notify = bnClicked then p.onClick self else []

/-- `HandleMessage` of a `SubclassButton`. -/
def handleMessage (self : ℕ) (msg : UInt32) : List Call :=
  if msg = wmLButtonUp then p.onClick self else []

/-- The object in the reference data of the subclass of a window. -/
def refData (hwnd : ℕ) : Option ℕ := (p.children hwnd).join

/-- `SubclassProc`, for a message to a window. -/
def subclassProc (hwnd : ℕ) (msg : UInt32) : List Call :=
  match p.refData hwnd with
  | some self => .subclassProc self :: p.handleMessage self msg
  | none => []

/-- A child is destroyed. -/
def destroyed (hwnd : ℕ) : List Call :=
  p.subclassProc hwnd wmDestroy ++ p.subclassProc hwnd wmNcDestroy

/-- The parent is destroyed, and its children with it. -/
def parentDestroyed : List Call := (List.range p.created).flatMap p.destroyed

/-- What the parent runs for a message. -/
def handled : Action H ℕ → List Call
  | .command self notify => p.command self notify
  | .onClose _ => p.parentDestroyed
  | _ => []

/-- What a step runs and calls. `DefWindowProc` destroys a child for `WM_CLOSE`. -/
def calls : Event → List Call
  | .destroy self =>
    match p.controls self with
    | some ⟨.button, _, hwnd, _⟩ => .destroyWindow hwnd :: p.destroyed hwnd
    | _ => []
  | .destroyParent => p.parentDestroyed
  | .parentMessage type wParam lParam => p.handled (p.parent.handleMessage type wParam lParam)
  | .childMessage hwnd msg =>
    p.subclassProc hwnd msg ++ if msg = wmClose then p.destroyed hwnd else []
  | _ => []

/-! ## Steps -/

/-- `Init` of a `Button`, behind `Create`. -/
def addButton (id : UInt16) : Panel H :=
  { parent := p.parent.onCommand id p.created
    controls := Function.update p.controls p.created (some ⟨.button, id, p.created, false⟩)
    children := Function.update p.children p.created (some none)
    created := p.created + 1 }

/-- `Create` of a `SubclassButton`: the window stays when `SetWindowSubclass` fails, and the object
is not there. -/
def addSubclassButton (id : UInt16) (subclassed : Bool) : Panel H :=
  if subclassed then
    { p with
      controls :=
        Function.update p.controls p.created (some ⟨.subclassButton, id, p.created, false⟩)
      children := Function.update p.children p.created (some (some p.created))
      created := p.created + 1 }
  else
    { p with
      children := Function.update p.children p.created (some none)
      created := p.created + 1 }

/-- The object is gone. -/
def remove (self : ℕ) : Panel H := { p with controls := Function.update p.controls self none }

/-- A child is gone. -/
def removeChild (hwnd : ℕ) : Panel H :=
  { p with children := Function.update p.children hwnd none }

/-- The destructors. -/
def destroy (self : ℕ) (c : Control) : Panel H :=
  match c.kind with
  | .button => { p.removeChild c.hwnd with parent := p.parent.removeCommand c.id }.remove self
  | .subclassButton => p.remove self

/-- The parent and its children are gone. -/
def destroyParent : Panel H :=
  { p with parent := { p.parent with window := none }, children := fun _ => none }

/-- No control has this id. -/
def IsFree (id : UInt16) : Bool :=
  (List.range p.created).all fun self => (p.controls self).all fun c => c.id != id

/-- `WM_NCCREATE` and `WM_NCDESTROY` come when a window is created and destroyed, and at no other
time. -/
def IsSent (msg : UInt32) : Bool := msg != wmNcCreate && msg != wmNcDestroy

/-- A step: the ids are distinct, an object is used until it is destroyed, and messages come to
windows that exist. A window without parent cannot be made into a child. -/
def step (p : Panel H) : Event → Option (Panel H)
  | .button id created =>
    if p.IsFree id then
      some (if created && p.parent.window.isSome then p.addButton id else p)
    else none
  | .subclassButton id created subclassed =>
    if p.IsFree id then
      some (if created && p.parent.window.isSome then p.addSubclassButton id subclassed else p)
    else none
  | .onClick self set =>
    (p.controls self).map fun c =>
      { p with controls := Function.update p.controls self (some { c with onClick := set }) }
  | .destroy self => (p.controls self).map fun c => p.destroy self c
  | .destroyParent => if p.parent.window.isSome then some p.destroyParent else none
  | .parentMessage type wParam lParam =>
    if p.parent.window.isSome && IsSent type then
      match p.parent.handleMessage type wParam lParam with
      | .onClose _ => some p.destroyParent
      | _ => some p
    else none
  | .childMessage hwnd msg =>
    if (p.children hwnd).isSome && IsSent msg then
      some (if msg = wmClose then p.removeChild hwnd else p)
    else none

/-- The parent has its window, its handlers of messages, and no controls yet. -/
def start (handlers : UInt32 → Option H) : Panel H :=
  { parent := { window := some 0, handlers := handlers, commandHandlers := fun _ => none }
    controls := fun _ => none
    children := fun _ => none
    created := 0 }

/-! ## What is asked of a step -/

/-- The object is alive, or the window that is destroyed. -/
def Live : Call → Prop
  | .onClick self => (p.controls self).isSome
  | .command self => (p.controls self).isSome
  | .subclassProc self => (p.controls self).isSome
  | .destroyWindow hwnd => (p.children hwnd).isSome

/-- The objects whose `OnClick` runs, in order. -/
def clicks (calls : List Call) : List ℕ :=
  calls.filterMap fun
    | .onClick self => some self
    | _ => none

/-- The event is a click on the control. -/
def IsClick (c : Control) : Event → Prop
  | .parentMessage type wParam _ =>
    c.kind = .button ∧ type = wmCommand ∧ getLowWord wParam = c.id ∧ getHighWord wParam = bnClicked
  | .childMessage hwnd msg => c.kind = .subclassButton ∧ hwnd = c.hwnd ∧ msg = wmLButtonUp
  | _ => False

/-- A step runs and calls only what is alive, and a click on a live control runs the `OnClick` of
this control, if it is set, and no other. -/
structure CallsLive (p : Panel H) (event : Event) : Prop where
  live : ∀ call ∈ p.calls event, p.Live call
  clicked : ∀ self c, p.controls self = some c → (p.children c.hwnd).isSome → IsClick c event →
    clicks (p.calls event) = if c.onClick then [self] else []

/-- The object in the reference data of the window is alive. -/
def RefersToLive (hwnd : ℕ) : Prop :=
  ∀ self, p.refData hwnd = some self → (p.controls self).isSome

/-- The condition on a step: a `Button` is destroyed while its window exists; and neither a message
nor the destruction of the parent comes to the window of a `SubclassButton` that was destroyed
before. -/
def InTime (p : Panel H) : Event → Prop
  | .destroy self =>
    ∀ c, p.controls self = some c → c.kind = .button → (p.children c.hwnd).isSome
  | .destroyParent => ∀ hwnd, p.RefersToLive hwnd
  | .parentMessage type _ _ =>
    type = wmClose → p.parent.handlers wmClose = none → ∀ hwnd, p.RefersToLive hwnd
  | .childMessage hwnd _ => p.RefersToLive hwnd
  | _ => True

/-! ## What the links refer to -/

section Links

variable {α β : Type*} {p q : Panel H} {self hwnd : ℕ} {c : Control}

/-- The invariant: the command table refers to the live buttons and to nothing else, the window of
a live control refers to this control or is a plain button, and numbers are not used twice. -/
structure Inv (p : Panel H) : Prop where
  handler : p.parent.handlers wmCommand = none
  command : ∀ id self, p.parent.commandHandlers id = some self →
    ∃ c, p.controls self = some c ∧ c.kind = .button ∧ c.id.toUInt32 = id
  registered : ∀ self c, p.controls self = some c → c.kind = .button →
    p.parent.commandHandlers c.id.toUInt32 = some self
  child : ∀ self c refData, p.controls self = some c → p.children c.hwnd = some refData →
    refData = c.refData self
  hwnd : ∀ self c, p.controls self = some c → c.hwnd < p.created
  freshControl : ∀ self, p.created ≤ self → p.controls self = none
  freshChild : ∀ hwnd, p.created ≤ hwnd → p.children hwnd = none

theorem inv_start {handlers : UInt32 → Option H} (h : handlers wmCommand = none) :
    Inv (start handlers) where
  handler := h
  command _ _ hk := nomatch hk
  registered _ _ hc := nomatch hc
  child _ _ _ hc := nomatch hc
  hwnd _ _ hc := nomatch hc
  freshControl _ _ := rfl
  freshChild _ _ := rfl

theorem Inv.lt_created (hinv : Inv p) (hc : p.controls self = some c) : self < p.created := by
  by_contra hge
  rw [hinv.freshControl self (by omega)] at hc
  contradiction

theorem Inv.ne_of_isFree (hinv : Inv p) {id : UInt16} (hfree : p.IsFree id = true)
    (hc : p.controls self = some c) : c.id ≠ id := by
  unfold IsFree at hfree
  have hself := List.all_eq_true.mp hfree self (List.mem_range.mpr (hinv.lt_created hc))
  rw [hc, Option.all_some] at hself
  exact bne_iff_ne.mp hself

/-- A panel with less of the controls and of the windows. -/
theorem Inv.of_less (hinv : Inv p) (hcreated : q.created = p.created)
    (hhandlers : q.parent.handlers = p.parent.handlers)
    (hcommand : ∀ id self, q.parent.commandHandlers id = some self →
      ∃ c, q.controls self = some c ∧ c.kind = .button ∧ c.id.toUInt32 = id)
    (hregistered : ∀ self c, q.controls self = some c → c.kind = .button →
      q.parent.commandHandlers c.id.toUInt32 = some self)
    (hcontrols : ∀ self c, q.controls self = some c → p.controls self = some c)
    (hchildren : ∀ hwnd r, q.children hwnd = some r → p.children hwnd = some r) : Inv q where
  handler := by rw [hhandlers]; exact hinv.handler
  command := hcommand
  registered := hregistered
  child self c r hc hr := hinv.child self c r (hcontrols self c hc) (hchildren c.hwnd r hr)
  hwnd self c hc := by rw [hcreated]; exact hinv.hwnd self c (hcontrols self c hc)
  freshControl self hself := by
    rw [hcreated] at hself
    apply Option.eq_none_iff_forall_ne_some.mpr
    intro c hc
    have hlt := hinv.lt_created (hcontrols self c hc)
    omega
  freshChild hwnd hhwnd := by
    rw [hcreated] at hhwnd
    apply Option.eq_none_iff_forall_ne_some.mpr
    intro r hr
    have hnone := hchildren hwnd r hr
    rw [hinv.freshChild hwnd hhwnd] at hnone
    contradiction

theorem eq_some_of_update [DecidableEq β] {f : β → Option α} {a b : β} {x : α}
    (h : Function.update f a none b = some x) : b ≠ a ∧ f b = some x := by
  by_cases hba : b = a
  · rw [hba, Function.update_self] at h
    contradiction
  · rw [Function.update_of_ne hba] at h
    exact ⟨hba, h⟩

theorem inv_removeChild (hinv : Inv p) : Inv (p.removeChild hwnd) :=
  hinv.of_less rfl rfl hinv.command hinv.registered (fun _ _ hc => hc)
    fun _ _ hr => (eq_some_of_update hr).2

theorem inv_destroyParent (hinv : Inv p) : Inv p.destroyParent :=
  hinv.of_less rfl rfl hinv.command hinv.registered (fun _ _ hc => hc)
    fun _ _ hr => nomatch hr

/-- An entry of the table that is not the one of a control outlives this control. -/
theorem Inv.command_remove (hinv : Inv p) (hc : p.controls self = some c) {id : UInt32} {other : ℕ}
    (hother : p.parent.commandHandlers id = some other)
    (hid : c.kind = .button → c.id.toUInt32 ≠ id) :
    ∃ d, (p.remove self).controls other = some d ∧ d.kind = .button ∧ d.id.toUInt32 = id := by
  obtain ⟨d, hd, hdkind, hdid⟩ := hinv.command id other hother
  refine ⟨d, ?_, hdkind, hdid⟩
  have hne : other ≠ self := by
    intro heq
    rw [heq, hc, Option.some.injEq] at hd
    rw [← hd] at hdkind hdid
    exact hid hdkind hdid
  exact (Function.update_of_ne hne none p.controls).trans hd

/-- Another button has another id. -/
theorem Inv.id_ne (hinv : Inv p) (hc : p.controls self = some c) (hkind : c.kind = .button)
    {other : ℕ} {d : Control} (hd : p.controls other = some d) (hdkind : d.kind = .button)
    (hne : other ≠ self) : d.id.toUInt32 ≠ c.id.toUInt32 := by
  intro heq
  have hregistered := hinv.registered other d hd hdkind
  rw [heq, hinv.registered self c hc hkind, Option.some.injEq] at hregistered
  exact hne hregistered.symm

/-- The destructor of a `Button` takes its own entry out of the table, and no other. -/
theorem inv_destroy (hinv : Inv p) (hc : p.controls self = some c) : Inv (p.destroy self c) := by
  unfold destroy
  cases hkind : c.kind with
  | button =>
    refine hinv.of_less rfl rfl ?_ ?_ (fun _ _ hd => (eq_some_of_update hd).2)
      fun _ _ hr => (eq_some_of_update hr).2
    · intro id other hother
      obtain ⟨hid, hother⟩ := eq_some_of_update (f := p.parent.commandHandlers) hother
      exact hinv.command_remove hc hother fun _ => hid.symm
    · intro other d hd hdkind
      obtain ⟨hne, hd⟩ := eq_some_of_update hd
      have hid := hinv.id_ne hc hkind hd hdkind hne
      exact (Function.update_of_ne hid none p.parent.commandHandlers).trans
        (hinv.registered other d hd hdkind)
  | subclassButton =>
    refine hinv.of_less rfl rfl ?_ ?_ (fun _ _ hd => (eq_some_of_update hd).2) fun _ _ hr => hr
    · intro id other hother
      exact hinv.command_remove hc hother fun hbutton => nomatch hkind.symm.trans hbutton
    · intro other d hd hdkind
      exact hinv.registered other d (eq_some_of_update hd).2 hdkind

/-- An assignment of `OnClick` changes no link. -/
theorem inv_setOnClick (hinv : Inv p) (hc : p.controls self = some c) (set : Bool) :
    Inv { p with
      controls := Function.update p.controls self (some { c with onClick := set }) } := by
  have hback : ∀ other d, Function.update p.controls self (some { c with onClick := set }) other
      = some d → ∃ d', p.controls other = some d' ∧ d'.kind = d.kind ∧ d'.id = d.id ∧
        d'.hwnd = d.hwnd := by
    intro other d hd
    by_cases heq : other = self
    · rw [heq, Function.update_self, Option.some.injEq] at hd
      rw [heq, ← hd]
      exact ⟨c, hc, rfl, rfl, rfl⟩
    · rw [Function.update_of_ne heq] at hd
      exact ⟨d, hd, rfl, rfl, rfl⟩
  refine ⟨hinv.handler, ?_, ?_, ?_, ?_, ?_, hinv.freshChild⟩
  · intro id other hother
    obtain ⟨d, hd, hdkind, hdid⟩ := hinv.command id other hother
    by_cases heq : other = self
    · rw [heq, hc, Option.some.injEq] at hd
      rw [← hd] at hdkind hdid
      refine ⟨{ c with onClick := set }, ?_, hdkind, hdid⟩
      rw [heq]
      exact Function.update_self ..
    · exact ⟨d, (Function.update_of_ne heq _ p.controls).trans hd, hdkind, hdid⟩
  · intro other d hd hdkind
    obtain ⟨d', hd', hkind, hid, -⟩ := hback other d hd
    rw [← hid]
    exact hinv.registered other d' hd' (hkind.trans hdkind)
  · intro other d r hd hr
    obtain ⟨d', hd', hkind, -, hhwnd⟩ := hback other d hd
    rw [Control.refData, ← hkind]
    rw [← hhwnd] at hr
    exact hinv.child other d' r hd' hr
  · intro other d hd
    obtain ⟨d', hd', -, -, hhwnd⟩ := hback other d hd
    rw [← hhwnd]
    exact hinv.hwnd other d' hd'
  · intro other hother
    have hlt := hinv.lt_created hc
    have hge : p.created ≤ other := hother
    have hne : other ≠ self := by omega
    exact (Function.update_of_ne hne _ p.controls).trans (hinv.freshControl other hother)

/-- A window without an object, when `SetWindowSubclass` failed. -/
theorem inv_addWindow (hinv : Inv p) :
    Inv { p with
      children := Function.update p.children p.created (some none)
      created := p.created + 1 } := by
  refine ⟨hinv.handler, hinv.command, hinv.registered, ?_, ?_, ?_, ?_⟩
  · intro other d r hd hr
    have hlt := hinv.hwnd other d hd
    have hne : d.hwnd ≠ p.created := by omega
    exact hinv.child other d r hd ((Function.update_of_ne hne _ p.children).symm.trans hr)
  · intro other d hd
    have hlt := hinv.hwnd other d hd
    show d.hwnd < p.created + 1
    omega
  · intro other hother
    apply hinv.freshControl other
    have hlt : p.created + 1 ≤ other := hother
    omega
  · intro hwnd hhwnd
    have hlt : p.created + 1 ≤ hwnd := hhwnd
    show Function.update p.children p.created (some none) hwnd = none
    rw [Function.update_of_ne (by omega)]
    exact hinv.freshChild hwnd (by omega)

/-- A new control with its window. -/
theorem inv_add (hinv : Inv p) {parent : Window H ℕ} (kind : Kind) (id : UInt16)
    (hhandlers : parent.handlers = p.parent.handlers)
    (hcommand : ∀ k other, parent.commandHandlers k = some other →
      other = p.created ∧ kind = .button ∧ id.toUInt32 = k ∨
        p.parent.commandHandlers k = some other)
    (hnew : kind = .button → parent.commandHandlers id.toUInt32 = some p.created)
    (hold : ∀ other d, p.controls other = some d → d.kind = .button →
      parent.commandHandlers d.id.toUInt32 = p.parent.commandHandlers d.id.toUInt32) :
    Inv { parent := parent
          controls := Function.update p.controls p.created (some ⟨kind, id, p.created, false⟩)
          children := Function.update p.children p.created
            (some (Control.refData ⟨kind, id, p.created, false⟩ p.created))
          created := p.created + 1 } := by
  have hold' : ∀ other d, p.controls other = some d →
      Function.update p.controls p.created (some ⟨kind, id, p.created, false⟩) other = some d := by
    intro other d hd
    have hlt := hinv.lt_created hd
    rw [Function.update_of_ne (by omega)]
    exact hd
  have hback : ∀ other d,
      Function.update p.controls p.created (some ⟨kind, id, p.created, false⟩) other = some d →
      other = p.created ∧ d = ⟨kind, id, p.created, false⟩ ∨ p.controls other = some d := by
    intro other d hd
    by_cases heq : other = p.created
    · rw [heq, Function.update_self, Option.some.injEq] at hd
      exact Or.inl ⟨heq, hd.symm⟩
    · rw [Function.update_of_ne heq] at hd
      exact Or.inr hd
  refine ⟨?_, ?_, ?_, ?_, ?_, ?_, ?_⟩
  · show parent.handlers wmCommand = none
    rw [hhandlers]
    exact hinv.handler
  · intro k other hother
    rcases hcommand k other hother with ⟨heq, hkind, hid⟩ | hother
    · exact ⟨⟨kind, id, p.created, false⟩, by rw [heq]; exact Function.update_self .., hkind, hid⟩
    · obtain ⟨d, hd, hdkind, hdid⟩ := hinv.command k other hother
      exact ⟨d, hold' other d hd, hdkind, hdid⟩
  · intro other d hd hdkind
    rcases hback other d hd with ⟨heq, hd⟩ | hd
    · rw [hd] at hdkind ⊢
      rw [heq]
      exact hnew hdkind
    · exact (hold other d hd hdkind).trans (hinv.registered other d hd hdkind)
  · intro other d r hd hr
    rcases hback other d hd with ⟨heq, hd⟩ | hd
    · rw [hd] at hr ⊢
      rw [heq]
      exact Option.some.inj (hr.symm.trans (Function.update_self ..))
    · have hlt := hinv.hwnd other d hd
      have hne : d.hwnd ≠ p.created := by omega
      exact hinv.child other d r hd ((Function.update_of_ne hne _ p.children).symm.trans hr)
  · intro other d hd
    show d.hwnd < p.created + 1
    rcases hback other d hd with ⟨-, hd⟩ | hd
    · rw [hd]
      exact Nat.lt_succ_self p.created
    · have hlt := hinv.hwnd other d hd
      omega
  · intro other hother
    have hlt : p.created + 1 ≤ other := hother
    show Function.update p.controls p.created _ other = none
    rw [Function.update_of_ne (by omega)]
    exact hinv.freshControl other (by omega)
  · intro hwnd hhwnd
    have hlt : p.created + 1 ≤ hwnd := hhwnd
    show Function.update p.children p.created _ hwnd = none
    rw [Function.update_of_ne (by omega)]
    exact hinv.freshChild hwnd (by omega)

theorem inv_addButton (hinv : Inv p) {id : UInt16} (hfree : p.IsFree id = true) :
    Inv (p.addButton id) := by
  refine inv_add hinv .button id rfl ?_ ?_ ?_
  · intro k other hother
    by_cases hk : k = id.toUInt32
    · have hnew : (p.parent.onCommand id p.created).commandHandlers k = some p.created := by
        rw [hk]
        exact Function.update_self ..
      exact Or.inl ⟨Option.some.inj (hother.symm.trans hnew), rfl, hk.symm⟩
    · exact Or.inr ((Function.update_of_ne hk _ p.parent.commandHandlers).symm.trans hother)
  · intro _
    exact Function.update_self ..
  · intro other d hd _
    have hne : d.id.toUInt32 ≠ id.toUInt32 := by
      intro heq
      exact hinv.ne_of_isFree hfree hd (UInt16.toUInt32_inj.mp heq)
    exact Function.update_of_ne hne ..

theorem inv_addSubclassButton (hinv : Inv p) (id : UInt16) (subclassed : Bool) :
    Inv (p.addSubclassButton id subclassed) := by
  unfold addSubclassButton
  split
  · refine inv_add hinv .subclassButton id rfl ?_ ?_ ?_
    · intro k other hother
      exact Or.inr hother
    · intro hkind
      contradiction
    · intro other d _ _
      rfl
  · exact inv_addWindow hinv

theorem inv_step {event : Event} (hinv : Inv p) (hstep : p.step event = some q) : Inv q := by
  match event with
  | .button id created =>
    rw [step, Option.ite_none_right_eq_some] at hstep
    obtain ⟨hfree, hq⟩ := hstep
    rw [← Option.some.inj hq]
    split
    · exact inv_addButton hinv hfree
    · exact hinv
  | .subclassButton id created subclassed =>
    rw [step, Option.ite_none_right_eq_some] at hstep
    rw [← Option.some.inj hstep.2]
    split
    · exact inv_addSubclassButton hinv id subclassed
    · exact hinv
  | .onClick self set =>
    obtain ⟨c, hc, hq⟩ := Option.map_eq_some_iff.mp hstep
    rw [← hq]
    exact inv_setOnClick hinv hc set
  | .destroy self =>
    obtain ⟨c, hc, hq⟩ := Option.map_eq_some_iff.mp hstep
    rw [← hq]
    exact inv_destroy hinv hc
  | .destroyParent =>
    rw [step, Option.ite_none_right_eq_some] at hstep
    rw [← Option.some.inj hstep.2]
    exact inv_destroyParent hinv
  | .parentMessage type wParam lParam =>
    rw [step, Option.ite_none_right_eq_some] at hstep
    obtain ⟨-, hq⟩ := hstep
    split at hq
    · rw [← Option.some.inj hq]
      exact inv_destroyParent hinv
    · rw [← Option.some.inj hq]
      exact hinv
  | .childMessage hwnd msg =>
    rw [step, Option.ite_none_right_eq_some] at hstep
    rw [← Option.some.inj hstep.2]
    split
    · exact inv_removeChild hinv
    · exact hinv

end Links

/-! ## What a step calls -/

section Calls

variable {p q : Panel H} {self hwnd : ℕ} {c : Control} {event : Event}

/-- **The command table** refers to the live buttons and to nothing else. -/
theorem mem_commandHandlers (hinv : Inv p) (id : UInt16) :
    p.parent.commandHandlers id.toUInt32 = some self ↔
      ∃ c, p.controls self = some c ∧ c.kind = .button ∧ c.id = id := by
  constructor
  · intro hself
    obtain ⟨c, hc, hkind, hid⟩ := hinv.command _ self hself
    exact ⟨c, hc, hkind, UInt16.toUInt32_inj.mp hid⟩
  · rintro ⟨c, hc, hkind, hid⟩
    rw [← hid]
    exact hinv.registered self c hc hkind

theorem live_onClick {call : Call} (hcall : call ∈ p.onClick self) : p.Live call := by
  unfold onClick at hcall
  cases hself : p.controls self with
  | none =>
    rw [hself] at hcall
    contradiction
  | some c =>
    rw [hself, Option.any_some] at hcall
    have hcall : call = .onClick self := by
      split at hcall
      · exact List.mem_singleton.mp hcall
      · contradiction
    rw [hcall, Live, hself]
    rfl

theorem live_command (hc : p.controls self = some c) {notify : UInt16} {call : Call}
    (hcall : call ∈ p.command self notify) : p.Live call := by
  rcases List.mem_cons.mp hcall with rfl | hcall
  · show (p.controls self).isSome
    rw [hc]
    rfl
  · split at hcall
    · exact live_onClick hcall
    · contradiction

theorem live_subclassProc_iff {msg : UInt32} :
    (∀ call ∈ p.subclassProc hwnd msg, p.Live call) ↔ p.RefersToLive hwnd := by
  unfold subclassProc RefersToLive
  cases p.refData hwnd with
  | none =>
    refine iff_of_true ?_ ?_
    · intro call hcall
      contradiction
    · intro self hself
      contradiction
  | some self =>
    constructor
    · intro hall other hother
      rw [← Option.some.inj hother]
      exact hall (.subclassProc self) List.mem_cons_self
    · intro hlive call hcall
      rcases List.mem_cons.mp hcall with rfl | hcall
      · exact hlive self rfl
      · unfold handleMessage at hcall
        split at hcall
        · exact live_onClick hcall
        · contradiction

theorem live_destroyed_iff :
    (∀ call ∈ p.destroyed hwnd, p.Live call) ↔ p.RefersToLive hwnd := by
  unfold destroyed
  rw [List.forall_mem_append, live_subclassProc_iff, live_subclassProc_iff, and_self]

/-- The reference data of a window that does not exist refer to nothing. -/
theorem refersToLive_of_none (h : p.children hwnd = none) : p.RefersToLive hwnd := by
  intro self hself
  rw [refData, h] at hself
  contradiction

theorem live_parentDestroyed_iff (hinv : Inv p) :
    (∀ call ∈ p.parentDestroyed, p.Live call) ↔ ∀ hwnd, p.RefersToLive hwnd := by
  unfold parentDestroyed
  constructor
  · intro hall hwnd
    by_cases hlt : hwnd < p.created
    · rw [← live_destroyed_iff]
      intro call hcall
      exact hall call (List.mem_flatMap.mpr ⟨hwnd, List.mem_range.mpr hlt, hcall⟩)
    · exact refersToLive_of_none (hinv.freshChild hwnd (by omega))
  · intro hlive call hcall
    obtain ⟨hwnd, -, hcall⟩ := List.mem_flatMap.mp hcall
    exact live_destroyed_iff.mpr (hlive hwnd) call hcall

/-- The window of a `Button` refers to nothing. -/
theorem refersToLive_button (hinv : Inv p) (hc : p.controls self = some c)
    (hkind : c.kind = .button) : p.RefersToLive c.hwnd := by
  intro other hother
  cases hchild : p.children c.hwnd with
  | none =>
    rw [refData, hchild] at hother
    contradiction
  | some r =>
    have hr := hinv.child self c r hc hchild
    rw [Control.refData, hkind] at hr
    rw [refData, hchild, hr] at hother
    contradiction

theorem calls_destroy_button (hc : p.controls self = some c) (hkind : c.kind = .button) :
    p.calls (.destroy self) = .destroyWindow c.hwnd :: p.destroyed c.hwnd := by
  obtain ⟨kind, id, hwnd, onClick⟩ := c
  rw [calls, hc]
  cases hkind
  rfl

theorem calls_destroy_subclassButton (hc : p.controls self = some c)
    (hkind : c.kind = .subclassButton) : p.calls (.destroy self) = [] := by
  obtain ⟨kind, id, hwnd, onClick⟩ := c
  rw [calls, hc]
  cases hkind
  rfl

theorem live_destroy_iff (hinv : Inv p) (hc : p.controls self = some c) :
    (∀ call ∈ p.calls (.destroy self), p.Live call) ↔ p.InTime (.destroy self) := by
  have hintime : p.InTime (.destroy self) ↔ (c.kind = .button → (p.children c.hwnd).isSome) := by
    constructor
    · intro h
      exact h c hc
    · intro h d hd
      rw [← Option.some.inj (hc.symm.trans hd)]
      exact h
  rw [hintime]
  cases hkind : c.kind with
  | button =>
    rw [calls_destroy_button hc hkind, List.forall_mem_cons, live_destroyed_iff]
    constructor
    · intro h _
      exact h.1
    · intro h
      exact ⟨h rfl, refersToLive_button hinv hc hkind⟩
  | subclassButton =>
    rw [calls_destroy_subclassButton hc hkind]
    refine iff_of_true ?_ ?_
    · intro call hcall
      contradiction
    · intro hbutton
      contradiction

/-- The command that a message runs is that of a live button. -/
theorem live_parentMessage_iff (hinv : Inv p) {type : UInt32} {wParam : UInt64} {lParam : ℤ} :
    (∀ call ∈ p.calls (.parentMessage type wParam lParam), p.Live call) ↔
      p.InTime (.parentMessage type wParam lParam) := by
  show (∀ call ∈ p.handled (p.parent.handleMessage type wParam lParam), p.Live call) ↔
    (type = wmClose → p.parent.handlers wmClose = none → ∀ hwnd, p.RefersToLive hwnd)
  cases hhandler : p.parent.handlers type with
  | some h =>
    have haction : p.parent.handleMessage type wParam lParam
        = .handler h p.parent.window wParam lParam := by
      unfold Window.handleMessage
      rw [hhandler]
    rw [haction]
    refine iff_of_true ?_ ?_
    · intro call hcall
      contradiction
    · intro htype hnone
      rw [htype, hnone] at hhandler
      contradiction
  | none =>
    rw [Window.handleMessage_of_none hhandler]
    by_cases hcommand : type = wmCommand
    · rw [if_pos hcommand]
      refine iff_of_true ?_ ?_
      · cases hself : p.parent.commandHandlers (getLowWord wParam).toUInt32 with
        | none =>
          intro call hcall
          contradiction
        | some self =>
          obtain ⟨c, hc, -⟩ := (mem_commandHandlers hinv _).mp hself
          intro call hcall
          exact live_command hc hcall
      · intro htype
        rw [hcommand] at htype
        contradiction
    · rw [if_neg hcommand]
      by_cases hclose : type = wmClose
      · rw [if_pos hclose, handled, live_parentDestroyed_iff hinv]
        rw [hclose] at hhandler
        constructor
        · intro h _ _
          exact h
        · intro h
          exact h hclose hhandler
      · rw [if_neg hclose]
        refine iff_of_true ?_ ?_
        · intro call hcall
          split at hcall <;> contradiction
        · intro htype
          contradiction

theorem live_childMessage_iff {msg : UInt32} :
    (∀ call ∈ p.calls (.childMessage hwnd msg), p.Live call) ↔
      p.InTime (.childMessage hwnd msg) := by
  show (∀ call ∈ p.subclassProc hwnd msg ++ if msg = wmClose then p.destroyed hwnd else [],
    p.Live call) ↔ p.RefersToLive hwnd
  rw [List.forall_mem_append, live_subclassProc_iff, and_iff_left_iff_imp]
  intro hlive call hcall
  split at hcall
  · exact live_destroyed_iff.mpr hlive call hcall
  · contradiction

/-- **In which states a step calls only what is alive.** -/
theorem live_calls_iff (hinv : Inv p) (hstep : p.step event = some q) :
    (∀ call ∈ p.calls event, p.Live call) ↔ p.InTime event := by
  match event with
  | .button _ _ | .subclassButton _ _ _ | .onClick _ _ =>
    refine iff_of_true ?_ trivial
    intro call hcall
    contradiction
  | .destroy self =>
    obtain ⟨c, hc, -⟩ := Option.map_eq_some_iff.mp hstep
    exact live_destroy_iff hinv hc
  | .destroyParent => exact live_parentDestroyed_iff hinv
  | .parentMessage type wParam lParam => exact live_parentMessage_iff hinv
  | .childMessage hwnd msg => exact live_childMessage_iff

theorem clicks_onClick (hc : p.controls self = some c) :
    clicks (p.onClick self) = if c.onClick then [self] else [] := by
  rw [onClick, hc, Option.any_some]
  split <;> rfl

/-- **A click on a live control** runs its own `OnClick`. -/
theorem clicked (hinv : Inv p) (hc : p.controls self = some c)
    (hchild : (p.children c.hwnd).isSome) (hclick : IsClick c event) :
    clicks (p.calls event) = if c.onClick then [self] else [] := by
  match event with
  | .parentMessage type wParam lParam =>
    obtain ⟨hkind, htype, hid, hnotify⟩ := hclick
    have hself : p.parent.commandHandlers (getLowWord wParam).toUInt32 = some self := by
      rw [hid]
      exact hinv.registered self c hc hkind
    have haction : p.parent.handleMessage type wParam lParam = .command self bnClicked := by
      rw [htype, Window.handleMessage_of_none hinv.handler, if_pos rfl, hself, hnotify]
    rw [calls, haction, ← clicks_onClick hc]
    rfl
  | .childMessage hwnd msg =>
    obtain ⟨hkind, hhwnd, hmsg⟩ := hclick
    obtain ⟨r, hr⟩ := Option.isSome_iff_exists.mp hchild
    have href : p.refData hwnd = some self := by
      have hrself := hinv.child self c r hc hr
      rw [Control.refData, hkind] at hrself
      rw [refData, hhwnd, hr, hrself]
      rfl
    have hproc : p.subclassProc hwnd msg = .subclassProc self :: p.onClick self := by
      rw [subclassProc, href, hmsg]
      rfl
    have hclose : ¬ msg = wmClose := by
      rw [hmsg]
      decide
    rw [calls, hproc, if_neg hclose, List.append_nil, ← clicks_onClick hc]
    rfl

theorem callsLive_step_iff (hinv : Inv p) (hstep : p.step event = some q) :
    CallsLive p event ↔ p.InTime event := by
  rw [← live_calls_iff hinv hstep]
  constructor
  · intro h
    exact h.live
  · intro h
    refine ⟨h, ?_⟩
    intro self c hc hchild hclick
    exact clicked hinv hc hchild hclick

end Calls

end Panel

/-- **In which runs the controls call only what is alive**: in those in which every step is in
time. -/
theorem callsLive_iff {H : Type*} (handlers : UInt32 → Option H) (events : List Panel.Event)
    (p : Panel H) (hhandlers : handlers wmCommand = none)
    (hrun : run Panel.step (.start handlers) events = some p) :
    EachStep Panel.step Panel.CallsLive (.start handlers) events ↔
      EachStep Panel.step Panel.InTime (.start handlers) events :=
  eachStep_iff Panel.Inv (fun _ _ _ hinv hstep => Panel.callsLive_step_iff hinv hstep)
    (fun _ _ _ hinv _ hstep => Panel.inv_step hinv hstep) hrun (Panel.inv_start hhandlers)

/-- A `Button` and a `SubclassButton` are clicked; the `Button` goes before the parent, and the
`SubclassButton` behind it. -/
def usual : List Panel.Event :=
  [.button 1 true, .subclassButton 2 true true, .onClick 0 true, .onClick 1 true,
    .parentMessage wmCommand 1 0, .childMessage 1 wmLButtonUp, .destroy 0, .destroyParent,
    .destroy 1]

theorem callsLive_usual : ∃ p : Panel Unit, run Panel.step (.start fun _ => none) usual = some p ∧
    EachStep Panel.step Panel.CallsLive (Panel.start (H := Unit) fun _ => none) usual := by
  refine ⟨_, rfl, (callsLive_iff (fun _ => none) usual _ rfl rfl).mpr ?_⟩
  refine ⟨trivial, trivial, trivial, trivial, ?_, ?_, ?_, ?_, ?_, trivial⟩
  · intro hclose
    exact absurd hclose (by decide)
  · intro self hself
    obtain rfl := Option.some.inj hself
    rfl
  · intro c hc _
    obtain rfl := Option.some.inj hc
    rfl
  · intro hwnd self hself
    -- the child of the `Button` is gone, and no third one was made
    match hwnd with
    | 0 => contradiction
    | 1 =>
      obtain rfl := Option.some.inj hself
      rfl
    | n + 2 => contradiction
  · intro c hc hkind
    obtain rfl := Option.some.inj hc
    contradiction

/-- The user closes the parent, and then the `Button` is destroyed. -/
def closed : List Panel.Event := [.button 1 true, .destroyParent, .destroy 0]

theorem not_callsLive_closed :
    ¬ ∀ p : Panel Unit, run Panel.step (.start fun _ => none) closed = some p →
      EachStep Panel.step Panel.CallsLive (Panel.start (H := Unit) fun _ => none) closed := by
  intro hall
  obtain ⟨-, -, hdestroy, -⟩ := hall _ rfl
  have hlive := hdestroy.live (.destroyWindow 0) List.mem_cons_self
  contradiction

end Win32Experiments.UiCallbacks
