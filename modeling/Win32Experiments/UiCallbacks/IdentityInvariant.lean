import Win32Experiments.UiCallbacks.Desktop
import Win32Experiments.UiCallbacks.MoveTheorems

/-!
# The link between a `Window` and its window

An operation changes the user data of a window and the member `window` of an object together, but
a frame that is still on the stack will write the member once more when it returns. The link
holds in every run in which no window is destroyed twice and no frame writes over a window that
was created meanwhile.
-/

namespace Win32Experiments.UiCallbacks

variable {H K : Type*}

/-! ## Statements -/

/-- The user data of a window is null or the object that has it, no two objects have the same
window, `DestroyWindow` is called once for each window at most, and every message went to an
object that was there and not moved from. -/
structure Identity (d : Desktop H K) : Prop where
  userData : ∀ hwnd object, d.live hwnd = true → d.world.userData hwnd = some object →
    d.world.window object = some hwnd
  unique : ∀ hwnd object object', d.world.window object = some hwnd →
    d.world.window object' = some hwnd → object = object'
  once : d.destroyCalls.Nodup
  dispatched : ∀ e ∈ d.dispatched, e.2 = true

/-- The window that a message makes `OnClose` destroy. -/
def Desktop.closes (d : Desktop H K) (hwnd : ℕ) (type : UInt32) (wParam : UInt64) (lParam : ℤ) :
    Option ℕ :=
  (d.world.userData hwnd).bind fun object =>
    match d.world.windowProc hwnd object type wParam lParam with
    | some (.onClose hwnd') => hwnd'
    | _ => none

/-- The object whose member `window` the frame writes when it returns. -/
def Frame.writes : Frame → Option ℕ
  | .creating self _ => some self
  | .handling object _ type => if type = wmNcDestroy then some object else none
  | .destroying _ _ (.inNcDestroy object) => some object
  | .destroying _ (.destroy self _) .destroyed => some self
  | .destroying _ _ _ => none

/-- The live window that the object has and that points at the object. -/
def Desktop.linked (d : Desktop H K) (object : ℕ) : Option ℕ :=
  (d.world.window object).filter fun hwnd =>
    d.live hwnd && decide (d.world.userData hwnd = some object)

/-- `Destroy` and `OnClose` are not called on a window that is being destroyed; and a frame that
writes the member `window` does not write over the link to another window. -/
def Orderly (d : Desktop H K) : Event H K → Prop
  | .destroy self => ∀ hwnd ∈ d.world.window self, d.beingDestroyed hwnd = false
  | .message hwnd type wParam lParam =>
    ∀ hwnd' ∈ d.closes hwnd type wParam lParam, d.beingDestroyed hwnd' = false
  | .returns => ∀ f ∈ d.stack.head?, ∀ object ∈ f.writes, ∀ hwnd ∈ d.linked object, hwnd = f.hwnd
  | _ => True

instance (d : Desktop H K) : ∀ e : Event H K, Decidable (Orderly d e)
  | .destroy self =>
    inferInstanceAs (Decidable (∀ hwnd ∈ d.world.window self, d.beingDestroyed hwnd = false))
  | .message hwnd type wParam lParam =>
    inferInstanceAs (Decidable (∀ hwnd' ∈ d.closes hwnd type wParam lParam,
      d.beingDestroyed hwnd' = false))
  | .returns => inferInstanceAs (Decidable (∀ f ∈ d.stack.head?, ∀ object ∈ f.writes,
    ∀ hwnd ∈ d.linked object, hwnd = f.hwnd))
  | .construct _ | .on _ _ _ | .onCommand _ _ _ | .init _ _ | .detach _ | .moveConstruct _ _
  | .moveAssign _ _ | .destruct _ | .creationFails => isTrue trivial

/-! ## The invariant -/

/-- The caller goes on behind `Destroy`, outside of all handlers. -/
def Caller.outermost : Caller → Bool
  | .destroy _ .nothing => false
  | .destroy _ _ => true
  | _ => false

def Frame.outermost : Frame → Bool
  | .destroying _ caller _ => caller.outermost
  | _ => false

/-- Which frames may stand above others: a window that is created is not known below, a window is
destroyed once, and moves and destructors stand above nothing. -/
structure Above (f g : Frame) : Prop where
  created : ∀ self hwnd, f = .creating self hwnd → g.hwnd ≠ hwnd
  destroys : ∀ hwnd, f.destroys hwnd = true → g.destroys hwnd = false
  outermost : f.outermost = false

/-- What holds while the caller waits for the destruction of the window. -/
def Caller.Ok (d : Desktop H K) (hwnd : ℕ) : Caller → Prop
  | .destroy self _ => d.exists self = true ∧ ∀ o, d.world.window o = some hwnd → o = self
  | .onClose _ => ∀ o, d.world.window o = some hwnd → d.world.userData hwnd = some o
  | .createWindow => hwnd ∉ d.destroyCalls

/-- What holds at the stage of the destruction. -/
def Stage.Ok (d : Desktop H K) (hwnd : ℕ) : Stage → Prop
  | .inNcDestroy object => ∀ o, d.world.window o = some hwnd → o = object
  | .destroyed => d.world.userData hwnd = none
  | _ => True

/-- What holds while the frame is on the stack: who may have its window. -/
def Frame.Ok (d : Desktop H K) : Frame → Prop
  | .creating self hwnd =>
    d.exists self = true ∧ d.movedFrom self = false ∧ ∀ o, d.world.window o = some hwnd → o = self
  | .handling object hwnd type =>
    type = wmNcDestroy → ∀ o, d.world.window o = some hwnd → o = object
  | .destroying hwnd caller stage => d.live hwnd = true ∧ caller.Ok d hwnd ∧ stage.Ok d hwnd

/-- The invariant; for the window `but` it is not known what became of a call of
`DestroyWindow`. -/
structure Desktop.Inv (d : Desktop H K) (but : Option ℕ) : Prop where
  identity : Identity d
  movedFrom : ∀ o, d.movedFrom o = true → d.world.window o = none
  windows : ∀ o hwnd, d.world.window o = some hwnd → hwnd < d.world.created
  calls : ∀ hwnd ∈ d.destroyCalls, hwnd < d.world.created
  created : ∀ f ∈ d.stack, f.hwnd < d.world.created
  called : ∀ hwnd ∈ d.destroyCalls, some hwnd ≠ but →
    d.beingDestroyed hwnd = true ∨ d.live hwnd = false ∧ ∀ o, d.world.window o ≠ some hwnd
  frames : ∀ f ∈ d.stack, f.Ok d
  order : d.stack.Pairwise Above

theorem mem_linked {d : Desktop H K} {object hwnd : ℕ} : hwnd ∈ d.linked object ↔
    d.world.window object = some hwnd ∧ d.live hwnd = true ∧
      d.world.userData hwnd = some object := by
  simp [Desktop.linked, Option.mem_def, Option.filter_eq_some_iff]

/-- The object in the user data of a live window is linked to it. -/
theorem Identity.linked {d : Desktop H K} {object hwnd : ℕ} (h : Identity d)
    (hlive : d.live hwnd = true) (hdata : d.world.userData hwnd = some object) :
    hwnd ∈ d.linked object :=
  mem_linked.mpr ⟨h.userData hwnd object hlive hdata, hlive, hdata⟩

theorem inv_init : (Desktop.init : Desktop H K).Inv none where
  identity :=
    { userData := by simp [Desktop.init]
      unique := by simp [Desktop.init, World.empty, World.window]
      once := List.nodup_nil
      dispatched := by simp [Desktop.init] }
  movedFrom := by simp [Desktop.init]
  windows := by simp [Desktop.init, World.empty, World.window]
  calls := by simp [Desktop.init]
  created := by simp [Desktop.init]
  called := by simp [Desktop.init]
  frames := by simp [Desktop.init]
  order := List.Pairwise.nil

section

variable {d d' : Desktop H K} {but : Option ℕ} {f : Frame} {hwnd object self other : ℕ}

/-- What a frame says about its window goes on while the window gets no new object. -/
theorem Frame.Ok.transfer (h : f.Ok d)
    (hwindow : ∀ o, d'.world.window o = some f.hwnd → d.world.window o = some f.hwnd)
    (hdata : d'.world.userData f.hwnd = d.world.userData f.hwnd ∨
      d'.world.userData f.hwnd = none ∧ ∀ o, d'.world.window o ≠ some f.hwnd)
    (hlive : f.destroys f.hwnd = true → d'.live f.hwnd = d.live f.hwnd)
    (hcalls : f.destroys f.hwnd = true → f.hwnd ∈ d'.destroyCalls → f.hwnd ∈ d.destroyCalls)
    (hmoved : ∀ o, d'.movedFrom o = true → d.movedFrom o = true)
    (hexists : ∀ o, d.exists o = true → d'.exists o = true) : f.Ok d' := by
  cases f with
  | creating self hwnd =>
    obtain ⟨hself, hunmoved, hown⟩ := h
    refine ⟨hexists self hself, ?_, fun o ho => hown o (hwindow o ho)⟩
    cases hmove : d'.movedFrom self with
    | false => rfl
    | true => exact (hmoved self hmove).symm.trans hunmoved
  | handling object hwnd type =>
    intro htype o ho
    exact h htype o (hwindow o ho)
  | destroying hwnd caller stage =>
    have hdestroys : (Frame.destroying hwnd caller stage).destroys hwnd = true := by
      simp [Frame.destroys]
    obtain ⟨halive, hcaller, hstage⟩ := h
    refine ⟨(hlive hdestroys).trans halive, ?_, ?_⟩
    · cases caller with
      | destroy self after => exact ⟨hexists self hcaller.1, fun o ho => hcaller.2 o (hwindow o ho)⟩
      | onClose self =>
        intro o ho
        rcases hdata with hsame | ⟨_, hnobody⟩
        · exact hsame.trans (hcaller o (hwindow o ho))
        · exact absurd ho (hnobody o)
      | createWindow => exact fun hmem => hcaller (hcalls hdestroys hmem)
    · cases stage with
      | sendDestroy => trivial
      | sendNcDestroy => trivial
      | inNcDestroy object => exact fun o ho => hstage o (hwindow o ho)
      | destroyed =>
        rcases hdata with hsame | ⟨hnone, _⟩
        · exact hsame.trans hstage
        · exact hnone

/-! ## Changes of the links -/

/-- No object gets a window, and the user data of a window stays, or is cleared when no object has
the window. -/
structure Shrinks (d d' : Desktop H K) : Prop where
  window : ∀ o hwnd, d'.world.window o = some hwnd → d.world.window o = some hwnd
  userData : ∀ hwnd, d'.world.userData hwnd = d.world.userData hwnd ∨
    d'.world.userData hwnd = none ∧ ∀ o, d'.world.window o ≠ some hwnd
  linked : ∀ hwnd o, d.live hwnd = true → d'.world.userData hwnd = some o →
    d'.world.window o = some hwnd
  created : d'.world.created = d.world.created
  live : d'.live = d.live
  movedFrom : ∀ o, d'.movedFrom o = true → d.movedFrom o = true
  stack : d'.stack = d.stack
  destroyCalls : d'.destroyCalls = d.destroyCalls
  dispatched : d'.dispatched = d.dispatched

theorem Shrinks.frame (hs : Shrinks d d') (hexists : ∀ o, d.exists o = true → d'.exists o = true)
    (h : f.Ok d) : f.Ok d' := by
  apply h.transfer (fun o => hs.window o f.hwnd) (hs.userData f.hwnd)
  · intro _
    rw [hs.live]
  · intro _ hmem
    exact hs.destroyCalls ▸ hmem
  · exact hs.movedFrom
  · exact hexists

theorem inv_shrinks (h : d.Inv but) (hs : Shrinks d d')
    (hexists : d.stack ≠ [] → ∀ o, d.exists o = true → d'.exists o = true) : d'.Inv but where
  identity :=
    { userData := fun hwnd o hlive => hs.linked hwnd o (hs.live ▸ hlive)
      unique := fun hwnd o o' ho ho' =>
        h.identity.unique hwnd o o' (hs.window o hwnd ho) (hs.window o' hwnd ho')
      once := hs.destroyCalls ▸ h.identity.once
      dispatched := hs.dispatched ▸ h.identity.dispatched }
  movedFrom := by
    intro o ho
    have hnone := h.movedFrom o (hs.movedFrom o ho)
    by_contra hne
    obtain ⟨hwnd, hwindow⟩ := Option.ne_none_iff_exists'.mp hne
    rw [hs.window o hwnd hwindow] at hnone
    contradiction
  windows := fun o hwnd ho => hs.created ▸ h.windows o hwnd (hs.window o hwnd ho)
  calls := by
    rw [hs.destroyCalls, hs.created]
    exact h.calls
  created := by
    rw [hs.stack, hs.created]
    exact h.created
  called := by
    intro hwnd hmem hbut
    rw [hs.destroyCalls] at hmem
    rw [Desktop.beingDestroyed, hs.stack, hs.live]
    rcases h.called hwnd hmem hbut with hbeing | ⟨hdead, hnobody⟩
    · exact Or.inl hbeing
    · exact Or.inr ⟨hdead, fun o ho => hnobody o (hs.window o hwnd ho)⟩
  frames := by
    intro f hf
    rw [hs.stack] at hf
    exact hs.frame (hexists (List.ne_nil_of_mem hf)) (h.frames f hf)
  order := hs.stack ▸ h.order

/-- The object gets the window, and no other link is made. -/
structure Links (d d' : Desktop H K) (object hwnd : ℕ) : Prop where
  window : ∀ o, d'.world.window o = if o = object then some hwnd else d.world.window o
  userData : ∀ hwnd', hwnd' ≠ hwnd → d'.world.userData hwnd' = d.world.userData hwnd'
  linked : ∀ o, d'.world.userData hwnd = some o → o = object
  created : d.world.created ≤ d'.world.created
  bound : hwnd < d'.world.created
  live : ∀ hwnd', hwnd' ≠ hwnd → d'.live hwnd' = d.live hwnd'
  notMoved : d'.movedFrom object = false
  movedFrom : ∀ o, d'.movedFrom o = true → d.movedFrom o = true
  stack : d'.stack = d.stack
  destroyCalls : d'.destroyCalls = d.destroyCalls
  dispatched : d'.dispatched = d.dispatched
  objects : ∀ o, d.exists o = true → d'.exists o = true

/-- An object that has another window had it before. -/
theorem Links.of_ne {hwnd' : ℕ} (hl : Links d d' self hwnd) (hne : hwnd' ≠ hwnd)
    (ho : d'.world.window object = some hwnd') : d.world.window object = some hwnd' := by
  rw [hl.window] at ho
  split at ho
  · rw [Option.some.injEq] at ho
    exact absurd ho.symm hne
  · exact ho

theorem Links.owner (hl : Links d d' self hwnd) (hfree : ∀ o, d.world.window o ≠ some hwnd)
    (ho : d'.world.window object = some hwnd) : object = self := by
  rw [hl.window] at ho
  split at ho
  · assumption
  · exact absurd ho (hfree object)

theorem Links.identity (hl : Links d d' self hwnd) (h : Identity d)
    (hself : d.world.window self = none) (hfree : ∀ o, d.world.window o ≠ some hwnd) :
    Identity d' where
  userData := by
    intro hwnd' o hlive ho
    by_cases heq : hwnd' = hwnd
    · rw [heq] at ho ⊢
      rw [hl.window, if_pos (hl.linked o ho)]
    · rw [hl.userData hwnd' heq] at ho
      rw [hl.live hwnd' heq] at hlive
      have hlinked := h.userData hwnd' o hlive ho
      rw [hl.window, if_neg, hlinked]
      intro hoself
      rw [hoself, hself] at hlinked
      contradiction
  unique := by
    intro hwnd' o o' ho ho'
    by_cases heq : hwnd' = hwnd
    · rw [heq] at ho ho'
      exact (hl.owner hfree ho).trans (hl.owner hfree ho').symm
    · exact h.unique hwnd' o o' (hl.of_ne heq ho) (hl.of_ne heq ho')
  once := hl.destroyCalls ▸ h.once
  dispatched := hl.dispatched ▸ h.dispatched

/-- An object that had no window is linked to one that no object had and no frame is about. -/
theorem inv_links (h : d.Inv but) (hl : Links d d' self hwnd) (hself : d.world.window self = none)
    (hfree : ∀ o, d.world.window o ≠ some hwnd) (hcalls : hwnd ∉ d.destroyCalls)
    (hframes : ∀ g ∈ d.stack, g.hwnd ≠ hwnd) : d'.Inv but where
  identity := hl.identity h.identity hself hfree
  movedFrom := by
    intro o ho
    rw [hl.window, if_neg]
    · exact h.movedFrom o (hl.movedFrom o ho)
    · intro heq
      rw [heq, hl.notMoved] at ho
      contradiction
  windows := by
    intro o hwnd' ho
    by_cases heq : hwnd' = hwnd
    · exact heq ▸ hl.bound
    · exact lt_of_lt_of_le (h.windows o hwnd' (hl.of_ne heq ho)) hl.created
  calls := by
    intro hwnd' hmem
    rw [hl.destroyCalls] at hmem
    exact lt_of_lt_of_le (h.calls hwnd' hmem) hl.created
  created := by
    intro f hf
    rw [hl.stack] at hf
    exact lt_of_lt_of_le (h.created f hf) hl.created
  called := by
    intro hwnd' hmem hbut
    rw [hl.destroyCalls] at hmem
    have hne : hwnd' ≠ hwnd := fun heq => hcalls (heq ▸ hmem)
    rw [Desktop.beingDestroyed, hl.stack, hl.live hwnd' hne]
    rcases h.called hwnd' hmem hbut with hbeing | ⟨hdead, hnobody⟩
    · exact Or.inl hbeing
    · exact Or.inr ⟨hdead, fun o ho => hnobody o (hl.of_ne hne ho)⟩
  frames := by
    intro f hf
    rw [hl.stack] at hf
    have hne := hframes f hf
    apply (h.frames f hf).transfer (fun o ho => hl.of_ne hne ho)
    · exact Or.inl (hl.userData f.hwnd hne)
    · intro _
      exact hl.live f.hwnd hne
    · intro _ hmem
      exact hl.destroyCalls ▸ hmem
    · exact hl.movedFrom
    · exact hl.objects
  order := hl.stack ▸ h.order

/-- Once it is known what became of the window, the invariant is whole. -/
theorem inv_resolve (h : d.Inv (some hwnd)) (hknown : hwnd ∈ d.destroyCalls →
    d.beingDestroyed hwnd = true ∨ d.live hwnd = false ∧ ∀ o, d.world.window o ≠ some hwnd) :
    d.Inv none where
  identity := h.identity
  movedFrom := h.movedFrom
  windows := h.windows
  calls := h.calls
  created := h.created
  called := by
    intro hwnd' hmem _
    by_cases heq : hwnd' = hwnd
    · rw [heq] at hmem ⊢
      exact hknown hmem
    · exact h.called hwnd' hmem (by simpa using heq)
  frames := h.frames
  order := h.order

end

end Win32Experiments.UiCallbacks
