import Win32Experiments.Foundation.Run
import Win32Experiments.UiCallbacks.Window

/-!
# What a move carries

A move carries the handle and the user data, so that the messages of the window go to the final
object. It does not carry the maps of handlers: the final object handles them by the handlers that
were registered on itself.
-/

namespace Win32Experiments.UiCallbacks

open Foundation

variable {H K : Type*}

/-! ## Statements -/

/-- The object before a chain of moves; one that does not exist yet will have no handlers. -/
def World.object (w : World H K) (object : ℕ) : Window H K := (w.objects object).getD .default

/-- The handlers that a message can reach are the same. -/
def SameHandlers (x y : Window H K) : Prop :=
  (∀ type, x.handlers type = y.handlers type) ∧
  (x.handlers wmCommand = none →
    ∀ id : UInt16, x.commandHandlers id.toUInt32 = y.commandHandlers id.toUInt32)

/-! ## The handlers decide -/

section

variable {x y : Window H K} {type : UInt32} {wParam : UInt64} {lParam : ℤ}

theorem handleMessage_of_handler {h : H} (hh : x.handlers type = some h) :
    x.handleMessage type wParam lParam = .handler h x.window wParam lParam := by
  rw [Window.handleMessage, hh]

theorem handleMessage_ne_handler (hnone : x.handlers type = none) (h : H) (hwnd : Option ℕ)
    (wParam' : UInt64) (lParam' : ℤ) :
    x.handleMessage type wParam lParam ≠ .handler h hwnd wParam' lParam' := by
  simp only [Window.handleMessage, hnone]
  split
  · nofun
  · split
    · nofun
    · split <;> nofun

/-- The objects run the same handler on a type exactly if they have the same for it. -/
theorem handlers_eq_of_handleMessage_eq
    (h : x.handleMessage type wParam lParam = y.handleMessage type wParam lParam) :
    x.handlers type = y.handlers type := by
  cases hx : x.handlers type with
  | some a =>
    rw [handleMessage_of_handler hx] at h
    cases hy : y.handlers type with
    | some b =>
      rw [handleMessage_of_handler hy] at h
      injection h with hab
      rw [hab]
    | none => exact absurd h.symm (handleMessage_ne_handler hy a _ _ _)
  | none =>
    cases hy : y.handlers type with
    | some b =>
      rw [handleMessage_of_handler hy] at h
      exact absurd h (handleMessage_ne_handler hx b _ _ _)
    | none => rfl

/-- What a command runs when there is no handler for `WM_COMMAND`. -/
theorem handleMessage_command (hnone : x.handlers wmCommand = none) (id : UInt16) :
    x.handleMessage wmCommand id.toUInt64 lParam =
      match x.commandHandlers id.toUInt32 with
      | some k => .command k (getHighWord id.toUInt64)
      | none => .defWindowProc x.window wmCommand id.toUInt64 lParam := by
  have hid : getLowWord id.toUInt64 = id := UInt16.toUInt16_toUInt64 id
  have hclose : wmCommand ≠ wmClose := by decide
  have hdestroy : wmCommand ≠ wmDestroy := by decide
  cases hk : x.commandHandlers id.toUInt32 with
  | some k => simp [Window.handleMessage, hnone, hid, hk]
  | none => simp [Window.handleMessage, hnone, hid, hk, hclose, hdestroy]

/-- Two objects of the same window do the same with every message exactly if they have the same
handlers. -/
theorem handleMessage_eq_iff (hwindow : x.window = y.window) :
    (∀ type wParam lParam, x.handleMessage type wParam lParam = y.handleMessage type wParam lParam)
      ↔ SameHandlers x y := by
  constructor
  · intro h
    have htypes : ∀ type, x.handlers type = y.handlers type :=
      fun type => handlers_eq_of_handleMessage_eq (h type 0 0)
    refine ⟨htypes, ?_⟩
    intro hnone id
    have hcommand := h wmCommand id.toUInt64 0
    rw [handleMessage_command hnone, handleMessage_command (htypes wmCommand ▸ hnone)] at hcommand
    cases hx : x.commandHandlers id.toUInt32 with
    | some k =>
      cases hy : y.commandHandlers id.toUInt32 with
      | some k' =>
        simp only [hx, hy] at hcommand
        injection hcommand with hk
        rw [hk]
      | none => simp [hx, hy] at hcommand
    | none =>
      cases hy : y.commandHandlers id.toUInt32 with
      | some k' => simp [hx, hy] at hcommand
      | none => rfl
  · rintro ⟨htypes, hcommands⟩ type wParam lParam
    rw [Window.handleMessage, Window.handleMessage, htypes type, hwindow]
    cases hy : y.handlers type with
    | some h => rfl
    | none =>
      by_cases hcommand : type = wmCommand
      · have hnone : x.handlers wmCommand = none := by rw [htypes, ← hcommand, hy]
        rw [if_pos hcommand, if_pos hcommand, hcommands hnone]
      · rw [if_neg hcommand, if_neg hcommand]

end

/-! ## The links between objects and windows -/

/-- The user data of a window and the member `window` of an object agree. -/
structure World.Linked (w : World H K) : Prop where
  linked : ∀ hwnd object, w.userData hwnd = some object ↔ w.window object = some hwnd
  bound : ∀ hwnd object, w.window object = some hwnd → hwnd < w.created

section

variable {w : World H K} {object self other hwnd : ℕ} {v : Option ℕ}

theorem window_setWindow_self (h : (w.objects object).isSome) :
    (w.setWindow object v).window object = v := by
  obtain ⟨x, hx⟩ := Option.isSome_iff_exists.mp h
  simp [World.window, World.setWindow, hx]

theorem window_setWindow_of_ne (h : other ≠ object) :
    (w.setWindow object v).window other = w.window other := by
  simp [World.window, World.setWindow, Function.update_of_ne h]

theorem window_setUserData : (w.setUserData hwnd v).window object = w.window object := rfl

theorem isSome_of_window (h : w.window object = some hwnd) : (w.objects object).isSome := by
  obtain ⟨x, hx, _⟩ := Option.bind_eq_some_iff.mp h
  simp [hx]

theorem isSome_setWindow :
    ((w.setWindow object v).objects other).isSome = (w.objects other).isSome := by
  by_cases h : other = object
  · simp [World.setWindow, h]
  · simp [World.setWindow, Function.update_of_ne h]

/-- A link is taken away on both sides. -/
theorem linked_unlink (h : w.Linked) (hlink : w.userData hwnd = some object) :
    ((w.setUserData hwnd none).setWindow object none).Linked := by
  have hwindow := (h.linked hwnd object).mp hlink
  have hself := window_setWindow_self (w := w.setUserData hwnd none) (v := none)
    (isSome_of_window hwindow)
  constructor
  · intro hwnd' object'
    by_cases hobject : object' = object
    · rw [hobject, hself]
      by_cases hhwnd : hwnd' = hwnd
      · simp [World.setWindow, World.setUserData, hhwnd]
      · have hother := h.linked hwnd' object
        rw [hwindow, Option.some.injEq] at hother
        simp only [World.setWindow, World.setUserData, Function.update_of_ne hhwnd, hother]
        simpa using fun heq => hhwnd heq.symm
    · rw [window_setWindow_of_ne hobject, window_setUserData, ← h.linked]
      by_cases hhwnd : hwnd' = hwnd
      · rw [hhwnd, hlink, Option.some.injEq]
        simpa [World.setWindow, World.setUserData] using fun heq => hobject heq.symm
      · simp only [World.setWindow, World.setUserData, Function.update_of_ne hhwnd]
  · intro hwnd' object' hwindow'
    by_cases hobject : object' = object
    · rw [hobject, hself] at hwindow'
      contradiction
    · rw [window_setWindow_of_ne hobject] at hwindow'
      exact h.bound hwnd' object' hwindow'

/-- A link is made on both sides, between a window and an object that had none. -/
theorem linked_link (h : w.Linked) (hexists : (w.objects object).isSome)
    (hwindow : w.window object = none) (hdata : w.userData hwnd = none)
    (hbound : hwnd < w.created) :
    ((w.setWindow object (some hwnd)).setUserData hwnd (some object)).Linked := by
  have hself := window_setWindow_self (v := some hwnd) hexists
  constructor
  · intro hwnd' object'
    rw [window_setUserData]
    by_cases hobject : object' = object
    · rw [hobject, hself]
      by_cases hhwnd : hwnd' = hwnd
      · simp [World.setUserData, hhwnd]
      · have hother := h.linked hwnd' object
        rw [hwindow] at hother
        simp only [World.setUserData, World.setWindow, Function.update_of_ne hhwnd, hother]
        simpa using fun heq => hhwnd heq.symm
    · rw [window_setWindow_of_ne hobject, ← h.linked]
      by_cases hhwnd : hwnd' = hwnd
      · rw [hhwnd, hdata]
        simpa [World.setUserData] using fun heq => hobject heq.symm
      · simp only [World.setUserData, World.setWindow, Function.update_of_ne hhwnd]
  · intro hwnd' object' hwindow'
    rw [window_setUserData] at hwindow'
    by_cases hobject : object' = object
    · rw [hobject, hself, Option.some.injEq] at hwindow'
      exact hwindow' ▸ hbound
    · rw [window_setWindow_of_ne hobject] at hwindow'
      exact h.bound hwnd' object' hwindow'

/-! ## `Detach`, `Destroy` and `MoveFrom` -/

theorem detach_of_none (h : w.window self = none) : w.detach self = w := by
  rw [World.detach, h]

theorem detach_of_some (h : w.window self = some hwnd) :
    w.detach self = (w.setUserData hwnd none).setWindow self none := by
  rw [World.detach, h]

theorem linked_detach (h : w.Linked) (self : ℕ) : (w.detach self).Linked := by
  cases hwindow : w.window self with
  | none => rwa [detach_of_none hwindow]
  | some hwnd =>
    rw [detach_of_some hwindow]
    exact linked_unlink h ((h.linked hwnd self).mpr hwindow)

/-- An object that has detached has no window. -/
theorem window_detach_self : (w.detach self).window self = none := by
  cases hwindow : w.window self with
  | none => rwa [detach_of_none hwindow]
  | some hwnd =>
    rw [detach_of_some hwindow]
    exact window_setWindow_self (w := w.setUserData hwnd none) (isSome_of_window hwindow)

theorem window_detach_of_ne (h : other ≠ self) : (w.detach self).window other = w.window other := by
  cases hwindow : w.window self with
  | none => rw [detach_of_none hwindow]
  | some hwnd => rw [detach_of_some hwindow, window_setWindow_of_ne h, window_setUserData]

theorem isSome_detach : ((w.detach self).objects other).isSome = (w.objects other).isSome := by
  cases hwindow : w.window self with
  | none => rw [detach_of_none hwindow]
  | some hwnd =>
    rw [detach_of_some hwindow, isSome_setWindow]
    rfl

/-- A window that has been detached has no object. -/
theorem userData_detach (h : w.window self = some hwnd) : (w.detach self).userData hwnd = none := by
  rw [detach_of_some h]
  simp [World.setWindow, World.setUserData]

theorem created_detach : (w.detach self).created = w.created := by
  cases hwindow : w.window self with
  | none => rw [detach_of_none hwindow]
  | some hwnd => rw [detach_of_some hwindow]; rfl

/-- `Destroy` clears the links that `Detach` clears. -/
theorem destroy_eq_detach (h : w.Linked) (self : ℕ) : w.destroy self = w.detach self := by
  cases hwindow : w.window self with
  | none => rw [World.destroy, hwindow, detach_of_none hwindow]
  | some hwnd =>
    have hdata := (h.linked hwnd self).mpr hwindow
    rw [World.destroy, hwindow, detach_of_some hwindow]
    simp only [World.destroyWindow, hdata]
    simp [World.setWindow, Function.comp_def]

/-- What `MoveFrom` does between two objects. -/
theorem moveFrom_of_ne (h : w.Linked) (hne : self ≠ other) :
    w.moveFrom self other = (w.detach self).take self other := by
  rw [World.moveFrom, if_neg hne, destroy_eq_detach h]

theorem take_of_none (h : w.window other = none) : w.take self other = w.setWindow self none := by
  rw [World.take, h, detach_of_none h]

theorem take_of_some (h : w.window other = some hwnd) :
    w.take self other
      = ((w.detach other).setWindow self (some hwnd)).setUserData hwnd (some self) := by
  rw [World.take, h]

theorem setWindow_none (h : w.window self = none) : w.setWindow self none = w := by
  have hobjects : Function.update w.objects self
      ((w.objects self).map fun x => { x with window := none }) = w.objects := by
    rw [Function.update_eq_self_iff]
    cases hx : w.objects self with
    | none => rfl
    | some x =>
      rw [World.window, hx, Option.bind_some] at h
      rw [Option.map_some, ← h]
  rw [World.setWindow, hobjects]

theorem linked_take (h : w.Linked) (hself : (w.objects self).isSome)
    (hwindow : w.window self = none) (hne : self ≠ other) : (w.take self other).Linked := by
  cases hother : w.window other with
  | none => rwa [take_of_none hother, setWindow_none hwindow]
  | some hwnd =>
    rw [take_of_some hother]
    apply linked_link (linked_detach h other)
    · rwa [isSome_detach]
    · rwa [window_detach_of_ne hne]
    · exact userData_detach hother
    · rw [created_detach]
      exact h.bound hwnd other hother

theorem linked_moveFrom (h : w.Linked) (hself : (w.objects self).isSome) (other : ℕ) :
    (w.moveFrom self other).Linked := by
  by_cases hne : self = other
  · rwa [World.moveFrom, if_pos hne]
  · rw [moveFrom_of_ne h hne]
    apply linked_take (linked_detach h self)
    · rwa [isSome_detach]
    · exact window_detach_self
    · exact hne

/-- A move carries the window. -/
theorem userData_moveFrom (h : w.Linked) (hlink : w.userData hwnd = some other) :
    (w.moveFrom self other).userData hwnd = some self := by
  by_cases hne : self = other
  · rwa [World.moveFrom, if_pos hne, hne]
  · have hwindow : (w.detach self).window other = some hwnd := by
      rw [window_detach_of_ne (Ne.symm hne)]
      exact (h.linked hwnd other).mp hlink
    rw [moveFrom_of_ne h hne, take_of_some hwindow]
    simp [World.setUserData]

/-! ## The maps -/

/-- The maps of the object. -/
def World.maps (w : World H K) (object : ℕ) :
    Option ((UInt32 → Option H) × (UInt32 → Option K)) :=
  (w.objects object).map fun x => (x.handlers, x.commandHandlers)

theorem maps_setWindow : (w.setWindow object v).maps = w.maps := by
  funext object'
  by_cases h : object' = object
  · rw [h]
    simp [World.maps, World.setWindow, Function.comp_def]
  · simp [World.maps, World.setWindow, Function.update_of_ne h]

theorem maps_setUserData : (w.setUserData hwnd v).maps = w.maps := rfl

theorem maps_detach : (w.detach self).maps = w.maps := by
  cases hwindow : w.window self with
  | none => rw [detach_of_none hwindow]
  | some hwnd => rw [detach_of_some hwindow, maps_setWindow, maps_setUserData]

/-- `MoveFrom` leaves the maps of both objects as they are. -/
theorem maps_moveFrom (h : w.Linked) : (w.moveFrom self other).maps = w.maps := by
  by_cases hne : self = other
  · rw [World.moveFrom, if_pos hne]
  · rw [moveFrom_of_ne h hne]
    cases hother : (w.detach self).window other with
    | none => rw [take_of_none hother, maps_setWindow, maps_detach]
    | some hwnd =>
      rw [take_of_some hother, maps_setUserData, maps_setWindow, maps_detach, maps_detach]

/-! ## Applications -/

theorem linked_empty : (World.empty : World H K).Linked where
  linked := by simp [World.empty, World.window]
  bound := by simp [World.empty, World.window]

/-- Replacing an object by one with the same window changes no member `window`. -/
theorem window_update {x : Window H K} (hx : x.window = w.window self) :
    World.window { w with objects := Function.update w.objects self (some x) } = w.window := by
  funext object
  by_cases h : object = self
  · rw [h, ← hx]
    simp [World.window]
  · simp [World.window, Function.update_of_ne h]

/-- The links are about the members `window` only. -/
theorem linked_update (h : w.Linked) {x : Window H K} (hx : x.window = w.window self) :
    World.Linked { w with objects := Function.update w.objects self (some x) } := by
  refine ⟨fun hwnd object => ?_, fun hwnd object => ?_⟩
  · rw [window_update hx]
    exact h.linked hwnd object
  · rw [window_update hx]
    exact h.bound hwnd object

theorem linked_construct (h : w.Linked) (hnone : w.objects self = none) :
    (w.construct self).Linked := by
  apply linked_update h
  rw [World.window, hnone]
  rfl

theorem linked_init (h : w.Linked) (hself : (w.objects self).isSome) : (w.init self).Linked := by
  rw [World.init]
  split
  · exact h
  · next hwindow =>
    -- the handle of the new window is not yet in use
    have hfresh : w.userData w.created = none := by
      by_contra hne
      obtain ⟨object, hobject⟩ := Option.ne_none_iff_exists'.mp hne
      have hlt := h.bound _ _ ((h.linked _ _).mp hobject)
      omega
    have hgrown : World.Linked { w with created := w.created + 1 } :=
      ⟨h.linked, fun hwnd object hlink => Nat.lt_succ_of_lt (h.bound hwnd object hlink)⟩
    exact linked_link hgrown hself hwindow hfresh (Nat.lt_succ_self _)

/-- Every step of an application keeps the links. -/
theorem linked_step {w' : World H K} {op : Op H K} (h : w.Linked) (hstep : w.step op = some w') :
    w'.Linked := by
  cases op with
  | construct self =>
    rw [World.step] at hstep
    split at hstep
    · contradiction
    · next hnone =>
      obtain rfl := Option.some.inj hstep
      exact linked_construct h (by simpa using hnone)
  | init self =>
    rw [World.step] at hstep
    split at hstep
    · next hself =>
      obtain rfl := Option.some.inj hstep
      exact linked_init h hself
    · contradiction
  | on self message handler =>
    obtain ⟨x, hx, rfl⟩ := Option.map_eq_some_iff.mp hstep
    apply linked_update h
    simp [World.window, hx, Window.on]
  | onCommand self controlId handler =>
    obtain ⟨x, hx, rfl⟩ := Option.map_eq_some_iff.mp hstep
    apply linked_update h
    simp [World.window, hx, Window.onCommand]
  | destroy self =>
    rw [World.step] at hstep
    split at hstep
    · obtain rfl := Option.some.inj hstep
      rw [destroy_eq_detach h]
      exact linked_detach h self
    · contradiction
  | detach self =>
    rw [World.step] at hstep
    split at hstep
    · obtain rfl := Option.some.inj hstep
      exact linked_detach h self
    · contradiction
  | moveConstruct self other =>
    rw [World.step] at hstep
    split at hstep
    · next hexist =>
      rw [Bool.and_eq_true] at hexist
      obtain rfl := Option.some.inj hstep
      apply linked_moveFrom (linked_construct h (by simpa using hexist.1))
      simp [World.construct]
    · contradiction
  | moveAssign self other =>
    rw [World.step] at hstep
    split at hstep
    · next hexist =>
      rw [Bool.and_eq_true] at hexist
      obtain rfl := Option.some.inj hstep
      exact linked_moveFrom h hexist.1 other
    · contradiction

theorem linked_run {ops : List (Op H K)} (h : run World.step World.empty ops = some w) : w.Linked :=
  run_invariant World.Linked (fun _ _ _ => linked_step) h linked_empty

/-! ## Chains of moves -/

/-- The maps are those of `w`; objects made since have empty ones. -/
def KeepsMaps (w w' : World H K) : Prop :=
  ∀ object, w'.maps object = w.maps object ∨
    w.maps object = none ∧ w'.maps object = some (fun _ => none, fun _ => none)

/-- Along a chain of moves the window goes to the current object, and the maps stay where they
are. -/
structure Moving.Carries (w : World H K) (hwnd : ℕ) (m : Moving H K) : Prop where
  linked : m.world.Linked
  userData : m.world.userData hwnd = some m.current
  maps : KeepsMaps w m.world

theorem keepsMaps_construct {w' : World H K} (h : KeepsMaps w w') (hnone : w'.objects self = none) :
    KeepsMaps w (w'.construct self) := by
  intro object
  by_cases hobject : object = self
  · rw [hobject]
    rcases h self with hsame | ⟨_, hmade⟩
    · have hmaps : w.maps self = none := by
        rw [← hsame, World.maps, hnone]
        rfl
      exact Or.inr ⟨hmaps, by simp [World.maps, World.construct, Window.default]⟩
    · rw [World.maps, hnone] at hmade
      contradiction
  · have hother : (w'.construct self).maps object = w'.maps object := by
      simp [World.maps, World.construct, Function.update_of_ne hobject]
    rw [hother]
    exact h object

theorem keepsMaps_moveFrom {w' : World H K} (h : KeepsMaps w w') (hlinked : w'.Linked) :
    KeepsMaps w (w'.moveFrom self other) := by
  intro object
  rw [maps_moveFrom hlinked]
  exact h object

theorem carries_step {m m' : Moving H K} {move : Move} (h : m.Carries w hwnd)
    (hstep : m.step move = some m') : m'.Carries w hwnd := by
  cases move with
  | construct self =>
    obtain ⟨world, hworld, rfl⟩ := Option.map_eq_some_iff.mp hstep
    have hlinked := linked_step h.linked hworld
    rw [World.step] at hworld
    split at hworld
    · next hexist =>
      rw [Bool.and_eq_true, Option.isNone_iff_eq_none] at hexist
      obtain rfl := Option.some.inj hworld
      have hnew := linked_construct h.linked hexist.1
      exact ⟨hlinked, userData_moveFrom hnew h.userData,
        keepsMaps_moveFrom (keepsMaps_construct h.maps hexist.1) hnew⟩
    · contradiction
  | assign self =>
    obtain ⟨world, hworld, rfl⟩ := Option.map_eq_some_iff.mp hstep
    have hlinked := linked_step h.linked hworld
    rw [World.step] at hworld
    split at hworld
    · obtain rfl := Option.some.inj hworld
      exact ⟨hlinked, userData_moveFrom h.linked h.userData, keepsMaps_moveFrom h.maps h.linked⟩
    · contradiction

/-- The window procedure gives a message to the object that the window is linked to. -/
theorem windowProc_eq {x : Window H K} (h : w.Linked) (hlink : w.userData hwnd = some object)
    (hx : w.objects object = some x) (type : UInt32) (wParam : UInt64) (lParam : ℤ) :
    w.windowProc hwnd object type wParam lParam = some (x.handleMessage type wParam lParam) := by
  have hwindow := (h.linked hwnd object).mp hlink
  rw [World.window, hx, Option.bind_some] at hwindow
  by_cases hcreate : type = wmNcCreate
  · rw [World.windowProc, if_pos hcreate, hx, Option.map_some, ← hwindow]
  · simp only [World.windowProc, if_neg hcreate, hlink, hx, Option.map_some]

/-- The object of a window exists. -/
theorem exists_object (h : w.Linked) (hlink : w.userData hwnd = some object) :
    ∃ x, w.objects object = some x ∧ x.window = some hwnd := by
  have hwindow := (h.linked hwnd object).mp hlink
  obtain ⟨x, hx, hxwindow⟩ := Option.bind_eq_some_iff.mp hwindow
  exact ⟨x, hx, hxwindow⟩

/-- Only the maps decide. -/
theorem sameHandlers_congr {x y x' y' : Window H K}
    (hx : (x.handlers, x.commandHandlers) = (x'.handlers, x'.commandHandlers))
    (hy : (y.handlers, y.commandHandlers) = (y'.handlers, y'.commandHandlers)) :
    SameHandlers x y ↔ SameHandlers x' y' := by
  rw [Prod.mk.injEq] at hx hy
  rw [SameHandlers, SameHandlers, hx.1, hx.2, hy.1, hy.2]

/-- **Moves.** However an application came to an object with a window, a chain of moves carries
the window to the final object. The window procedure does the same with every message as it did
for the first object exactly when the final object had the same handlers before the chain. -/
theorem moves_iff {ops : List (Op H K)} {moves : List Move} {w : World H K} {object hwnd : ℕ}
    {m : Moving H K} (happ : run World.step World.empty ops = some w)
    (hlink : w.userData hwnd = some object)
    (hmoves : run Moving.step ⟨w, object⟩ moves = some m) :
    m.world.userData hwnd = some m.current ∧
    ((∀ type wParam lParam, m.world.windowProc hwnd m.current type wParam lParam
        = w.windowProc hwnd object type wParam lParam) ↔
      SameHandlers (w.object m.current) (w.object object)) := by
  have hlinked := linked_run happ
  have hcarries : m.Carries w hwnd :=
    run_invariant (Moving.Carries w hwnd) (fun _ _ _ => carries_step) hmoves
      ⟨hlinked, hlink, fun _ => Or.inl rfl⟩
  refine ⟨hcarries.userData, ?_⟩
  obtain ⟨x, hx, hxwindow⟩ := exists_object hcarries.linked hcarries.userData
  obtain ⟨y, hy, hywindow⟩ := exists_object hlinked hlink
  have hsame : SameHandlers x y ↔ SameHandlers (w.object m.current) (w.object object) := by
    apply sameHandlers_congr
    · -- the maps of the final object are those it had, or it is new
      rcases hcarries.maps m.current with hmaps | ⟨hnone, hmade⟩
      · rw [World.maps, World.maps, hx] at hmaps
        obtain ⟨z, hz, hmaps⟩ := Option.map_eq_some_iff.mp hmaps.symm
        rw [World.object, hz]
        exact hmaps.symm
      · rw [World.maps, Option.map_eq_none_iff] at hnone
        rw [World.maps, hx, Option.map_some, Option.some.injEq] at hmade
        rw [World.object, hnone]
        exact hmade
    · rw [World.object, hy]
      rfl
  rw [← hsame, ← handleMessage_eq_iff (hxwindow.trans hywindow.symm)]
  simp only [windowProc_eq hcarries.linked hcarries.userData hx, windowProc_eq hlinked hlink hy,
    Option.some.injEq]

end

/-- An object with a window and a handler for `WM_CLOSE`. -/
def closing : List (Op ℕ ℕ) := [.construct 0, .init 0, .on 0 wmClose 7]

/-- A window that is moved into a new object and back is handled as before. -/
theorem moves_back :
    ∃ w m, run World.step World.empty closing = some w ∧
      run Moving.step ⟨w, 0⟩ [.construct 1, .assign 0] = some m ∧ m.current = 0 ∧
      ∀ type wParam lParam, m.world.windowProc 0 m.current type wParam lParam
        = w.windowProc 0 0 type wParam lParam := by
  have happ : ∃ w, run World.step World.empty closing = some w ∧ w.userData 0 = some 0 :=
    ⟨_, rfl, rfl⟩
  obtain ⟨w, hw, hlink⟩ := happ
  have hmoves : ∃ m, run Moving.step ⟨w, 0⟩ [.construct 1, .assign 0] = some m ∧
      m.current = 0 := by
    obtain rfl := Option.some.inj hw
    exact ⟨_, rfl, rfl⟩
  obtain ⟨m, hm, hcurrent⟩ := hmoves
  refine ⟨w, m, hw, hm, hcurrent, (moves_iff hw hlink hm).2.mpr ?_⟩
  rw [hcurrent]
  exact ⟨fun _ => rfl, fun _ _ => rfl⟩

/-- A new object has no handler for `WM_CLOSE`, and destroys the window. -/
theorem moves_counterexample :
    ∃ w m, run World.step World.empty closing = some w ∧
      run Moving.step ⟨w, 0⟩ [.construct 1] = some m ∧ m.current = 1 ∧
      w.windowProc 0 0 wmClose 0 0 = some (.handler 7 (some 0) 0 0) ∧
      m.world.windowProc 0 1 wmClose 0 0 = some (.onClose (some 0)) ∧
      ¬ ∀ type wParam lParam, m.world.windowProc 0 m.current type wParam lParam
        = w.windowProc 0 0 type wParam lParam := by
  refine ⟨_, _, rfl, rfl, rfl, rfl, rfl, ?_⟩
  intro hsame
  have hclose := hsame wmClose 0 0
  contradiction

end Win32Experiments.UiCallbacks
