import Win32Experiments.Foundation.Run
import Win32Experiments.UiCallbacks.IdentityOperations

/-!
# The link in all runs

Every step of an orderly run keeps the invariant, first for the calls and messages that push frames
and then for the frames that return, so the objects and their windows point at each other in every
state of such a run.
-/

namespace Win32Experiments.UiCallbacks

open Foundation

variable {H K : Type*}

section

variable {d : Desktop H K} {w : World H K} {but : Option ℕ} {f : Frame}
  {hwnd object self other : ℕ}

/-! ## `DestroyWindow` -/

/-- What follows a `Destroy`, whose first step is to clear the member `window`. -/
theorem inv_after {after : After} (h : (d.setWindow self none).Inv none)
    (hexists : d.exists self = true)
    (hstack : (Caller.destroy self after).outermost = true → d.stack = []) :
    (d.finish (.destroy self after)).Inv none := by
  have hself : (d.setWindow self none).world.window self = none := window_setWindow_self hexists
  cases after with
  | nothing => exact h
  | moveFrom other =>
    apply inv_take h (hstack rfl) hself
    exact isSome_setWindow.trans hexists
  | destruct =>
    have hwindow : ∀ o, World.window
        { d.world with objects := Function.update d.world.objects self none } o
        = if o = self then none else (d.setWindow self none).world.window o := by
      intro o
      change (Function.update d.world.objects self none o).bind Window.window = _
      rw [Function.update_apply]
      split
      · rfl
      · next hne => exact (window_setWindow_of_ne hne).symm
    apply inv_unset h hwindow rfl rfl (linked_of_none hself)
    intro hne
    exact absurd (hstack rfl) hne

/-- The window that `DestroyWindow` destroyed, or failed to destroy, is known to be gone. -/
theorem inv_finish {caller : Caller} (h : d.Inv (some hwnd)) (hdead : d.live hwnd = false)
    (hcaller : caller.Ok d hwnd)
    (hdata : ∀ self, caller = .onClose self → d.world.userData hwnd = none)
    (hwrites : ∀ self after, caller = .destroy self after → ∀ hwnd' ∈ d.linked self, hwnd' = hwnd)
    (hstack : caller.outermost = true → d.stack = []) : (d.finish caller).Inv none := by
  cases caller with
  | destroy self after =>
    have hset := inv_setWindow_none h (linked_of_dead (hwrites self after rfl) hdead)
    apply inv_after (inv_resolve hset _) hcaller.1 hstack
    intro _
    refine Or.inr ⟨hdead, ?_⟩
    intro o ho
    change (d.world.setWindow self none).window o = some hwnd at ho
    rw [window_setWindow_none] at ho
    split at ho
    · contradiction
    · next hne => exact hne (hcaller.2 o ho)
  | onClose self =>
    apply inv_resolve h
    intro _
    refine Or.inr ⟨hdead, ?_⟩
    intro o ho
    have hlinked := hcaller o ho
    rw [hdata self rfl] at hlinked
    contradiction
  | createWindow =>
    apply inv_resolve h
    intro hmem
    exact absurd hmem hcaller

/-- `DestroyWindow` is called on the window. -/
theorem inv_call (h : d.Inv none) (hbound : hwnd < d.world.created) (hcalls : hwnd ∉ d.destroyCalls)
    (hbeing : d.beingDestroyed hwnd = false) :
    Desktop.Inv { d with destroyCalls := d.destroyCalls ++ [hwnd] } (some hwnd) where
  identity :=
    { userData := h.identity.userData
      unique := h.identity.unique
      once := by
        rw [← List.concat_eq_append]
        exact (List.nodup_concat _ _).mpr ⟨hcalls, h.identity.once⟩
      dispatched := h.identity.dispatched }
  movedFrom := h.movedFrom
  windows := h.windows
  calls := by
    intro hwnd' hmem
    rcases List.mem_append.mp hmem with hold | hnew
    · exact h.calls hwnd' hold
    · exact List.mem_singleton.mp hnew ▸ hbound
  created := h.created
  called := by
    intro hwnd' hmem hne
    rcases List.mem_append.mp hmem with hold | hnew
    · exact h.called hwnd' hold (by simp)
    · exact absurd (congrArg some (List.mem_singleton.mp hnew)) hne
  frames := by
    intro f hf
    refine (h.frames f hf).transfer ?_ (Or.inl rfl) ?_ ?_ ?_ ?_
    · exact fun _ ho => ho
    · exact fun _ => rfl
    · intro hdestroys hmem
      rcases List.mem_append.mp hmem with hold | hnew
      · exact hold
      · rw [List.mem_singleton.mp hnew, destroys_eq_false hbeing hf] at hdestroys
        contradiction
    · exact fun _ ho => ho
    · exact fun _ ho => ho
  order := h.order

theorem above_destroying {caller : Caller} {stage : Stage} (hbeing : d.beingDestroyed hwnd = false)
    (hstack : caller.outermost = true → d.stack = []) :
    ∀ g ∈ d.stack, Above (.destroying hwnd caller stage) g := by
  intro g hg
  constructor
  · nofun
  · intro hwnd' hdestroys
    have heq : hwnd = hwnd' := by simpa [Frame.destroys] using hdestroys
    exact heq ▸ destroys_eq_false hbeing hg
  · apply Bool.eq_false_iff.mpr
    intro houter
    rw [hstack houter] at hg
    contradiction

/-- The destruction of the window begins, or goes on to its next stage. -/
theorem inv_stage {caller : Caller} {stage : Stage} (h : d.Inv (some hwnd))
    (hbound : hwnd < d.world.created) (hbeing : d.beingDestroyed hwnd = false)
    (hok : (Frame.destroying hwnd caller stage).Ok d)
    (hstack : caller.outermost = true → d.stack = []) :
    (d.push (.destroying hwnd caller stage)).Inv none := by
  apply inv_resolve (inv_push (f := .destroying hwnd caller stage) h hbound hok
    (above_destroying hbeing hstack))
  intro _
  left
  simp [Desktop.beingDestroyed, Desktop.push, Frame.destroys]

theorem destroyWindow_of_live {caller : Caller} (hlive : d.live hwnd = true)
    (hbeing : d.beingDestroyed hwnd = false) : d.destroyWindow hwnd caller
      = Desktop.push { d with destroyCalls := d.destroyCalls ++ [hwnd] }
          (.destroying hwnd caller .sendDestroy) := by
  apply if_pos
  change (d.live hwnd && !d.beingDestroyed hwnd) = true
  rw [hlive, hbeing]
  rfl

theorem destroyWindow_of_dead {caller : Caller} (hdead : d.live hwnd = false) :
    d.destroyWindow hwnd caller
      = Desktop.finish { d with destroyCalls := d.destroyCalls ++ [hwnd] } caller := by
  apply if_neg
  change ¬ (d.live hwnd && !d.beingDestroyed hwnd) = true
  rw [hdead]
  exact Bool.false_ne_true

/-- `DestroyWindow` begins. -/
theorem inv_destroyWindow {caller : Caller} (h : d.Inv none)
    (hwindow : d.world.window object = some hwnd) (hbeing : d.beingDestroyed hwnd = false)
    (hlive : d.live hwnd = true) (hcaller : caller.Ok d hwnd) (hne : caller ≠ .createWindow)
    (hstack : caller.outermost = true → d.stack = []) :
    (d.destroyWindow hwnd caller).Inv none := by
  have hbound := h.windows object hwnd hwindow
  have hcall := inv_call h hbound (not_called h hbeing (Or.inl hlive)) hbeing
  rw [destroyWindow_of_live hlive hbeing]
  have hok : (Frame.destroying hwnd caller .sendDestroy).Ok
      { d with destroyCalls := d.destroyCalls ++ [hwnd] } := by
    refine ⟨hlive, ?_, trivial⟩
    cases caller with
    | destroy self after => exact hcaller
    | onClose self => exact hcaller
    | createWindow => exact absurd rfl hne
  exact inv_stage hcall hbound hbeing hok hstack

/-- `Destroy`. -/
theorem inv_destroy {after : After} (h : d.Inv none) (hexists : d.exists self = true)
    (hbeing : ∀ hwnd ∈ d.world.window self, d.beingDestroyed hwnd = false)
    (hstack : (Caller.destroy self after).outermost = true → d.stack = []) :
    (d.destroy self after).Inv none := by
  cases hself : d.world.window self with
  | none =>
    simp only [Desktop.destroy, hself]
    exact inv_after (inv_setWindow_none h (linked_of_none hself)) hexists hstack
  | some hwnd =>
    have hself' := hbeing hwnd hself
    have hown : ∀ o, d.world.window o = some hwnd → o = self :=
      fun o ho => h.identity.unique hwnd o self ho hself
    simp only [Desktop.destroy, hself]
    cases hlive : d.live hwnd with
    | true => exact inv_destroyWindow h hself hself' hlive ⟨hexists, hown⟩ nofun hstack
    | false =>
      rw [destroyWindow_of_dead hlive]
      have hcalls := not_called h hself' (Or.inr ⟨self, hself⟩)
      have hcall := inv_call h (h.windows self hwnd hself) hcalls hself'
      apply inv_finish hcall hlive
      · exact ⟨hexists, hown⟩
      · nofun
      · intro self' after' heq
        injection heq with hsame
        exact linked_of_window (hsame ▸ hself)
      · exact hstack

/-! ## Messages -/

/-- Only the default for `WM_CLOSE` calls `OnClose`. -/
theorem handleMessage_onClose {x : Window H K} {type : UInt32} {wParam : UInt64} {lParam : ℤ}
    {v : Option ℕ} (h : x.handleMessage type wParam lParam = .onClose v) :
    type = wmClose ∧ x.window = v := by
  rw [Window.handleMessage] at h
  split at h
  · contradiction
  · dsimp only at h
    split at h
    · contradiction
    · split at h
      · next hclose =>
        injection h with hv
        exact ⟨hclose, hv⟩
      · split at h
        · contradiction
        · contradiction

theorem windowProc_onClose {type : UInt32} {wParam : UInt64} {lParam : ℤ} {v : Option ℕ}
    (hdata : w.userData hwnd = some object)
    (h : w.windowProc hwnd object type wParam lParam = some (.onClose v)) :
    type = wmClose ∧ w.window object = v := by
  simp only [World.windowProc, hdata] at h
  split at h
  · next hcreate =>
    obtain ⟨x, _, hx⟩ := Option.map_eq_some_iff.mp h
    have hclose := (handleMessage_onClose hx).1
    rw [hcreate] at hclose
    contradiction
  · obtain ⟨x, hobject, hx⟩ := Option.map_eq_some_iff.mp h
    obtain ⟨hclose, hwindow⟩ := handleMessage_onClose hx
    refine ⟨hclose, ?_⟩
    rw [World.window, hobject]
    exact hwindow

/-- The object of a live window is there, and not moved from. -/
theorem inv_record_userData (h : d.Inv but) (hlive : d.live hwnd = true)
    (hdata : d.world.userData hwnd = some object) : (d.record object).Inv but := by
  have hwindow := h.identity.userData hwnd object hlive hdata
  apply inv_record h (exists_of_window hwindow)
  apply Bool.eq_false_iff.mpr
  intro hmoved
  rw [h.movedFrom object hmoved] at hwindow
  contradiction

theorem above_handling {type : UInt32} (g : Frame) : Above (.handling object hwnd type) g where
  created := nofun
  destroys := by
    intro _ hdestroys
    contradiction
  outermost := rfl

theorem inv_handling (type : UInt32) (h : d.Inv none) (hlive : d.live hwnd = true)
    (hdata : d.world.userData hwnd = some object) :
    ((d.record object).push (.handling object hwnd type)).Inv none := by
  have hwindow := h.identity.userData hwnd object hlive hdata
  apply inv_push (inv_record_userData h hlive hdata)
  · exact h.windows object hwnd hwindow
  · intro _ o ho
    exact h.identity.unique hwnd o object ho hwindow
  · exact fun g _ => above_handling g

/-- The window procedure of a live window. -/
theorem inv_dispatch {type : UInt32} {wParam : UInt64} {lParam : ℤ} (h : d.Inv none)
    (hlive : d.live hwnd = true)
    (hcloses : ∀ hwnd' ∈ d.closes hwnd type wParam lParam, d.beingDestroyed hwnd' = false) :
    (d.dispatch hwnd type wParam lParam).Inv none := by
  cases hdata : d.world.userData hwnd with
  | none =>
    simp only [Desktop.dispatch, hdata]
    split
    · next hclose => exact inv_kill h (by simpa using hclose.2)
    · exact h
  | some object =>
    have hhandling := inv_handling type h hlive hdata
    have hwindow := h.identity.userData hwnd object hlive hdata
    simp only [Desktop.dispatch, hdata]
    unfold Desktop.act
    split
    · next hwnd' haction =>
      -- `OnClose` destroys the window that the message is for
      have hsame := (windowProc_onClose hdata haction).2
      rw [hwindow, Option.some.injEq] at hsame
      rw [← hsame] at haction ⊢
      have hbeing : d.beingDestroyed hwnd = false := by
        apply hcloses
        simp [Desktop.closes, hdata, haction]
      apply inv_destroyWindow hhandling hwindow _ hlive
      · intro o ho
        exact hdata.trans (congrArg some (h.identity.unique hwnd object o hwindow ho))
      · nofun
      · nofun
      · exact hbeing
    · exact hhandling

/-! ## `Init` -/

theorem links_init (hself : d.world.window self = none) (hexists : d.exists self = true) :
    Links d { d with
      world := d.world.init self
      live := Function.update d.live d.world.created true
      movedFrom := Function.update d.movedFrom self false } self d.world.created := by
  rw [World.init, hself]
  constructor
  · intro o
    by_cases ho : o = self
    · rw [if_pos ho, ho]
      exact window_setWindow_self (w := d.world.setUserData d.world.created (some self)) hexists
    · rw [if_neg ho]
      exact window_setWindow_of_ne (w := d.world.setUserData d.world.created (some self)) ho
  · intro hwnd' hne
    exact Function.update_of_ne hne _ _
  · intro o ho
    simpa [World.setUserData, World.setWindow] using ho.symm
  · exact Nat.le_succ _
  · exact Nat.lt_succ_self _
  · intro hwnd' hne
    exact Function.update_of_ne hne _ _
  · exact Function.update_self self false d.movedFrom
  · intro o ho
    exact of_update_false ho
  · rfl
  · rfl
  · rfl
  · intro o ho
    exact isSome_setWindow.trans ho

theorem above_creating {g : Frame} (h : g.hwnd ≠ hwnd) : Above (.creating self hwnd) g where
  created := by
    intro self' hwnd' heq
    injection heq with _ hsame
    exact hsame ▸ h
  destroys := by
    intro _ hdestroys
    contradiction
  outermost := rfl

/-- `Init` up to the handler of `WM_NCCREATE`. -/
theorem inv_createWindow (h : d.Inv none) (hself : d.world.window self = none)
    (hexists : d.exists self = true) : (d.createWindow self).Inv none := by
  have hlinks := links_init hself hexists
  have hfree : ∀ o, d.world.window o ≠ some d.world.created := by
    intro o ho
    exact Nat.lt_irrefl _ (h.windows o _ ho)
  have hcalls : d.world.created ∉ d.destroyCalls := fun hmem => Nat.lt_irrefl _ (h.calls _ hmem)
  have hframes : ∀ g ∈ d.stack, g.hwnd ≠ d.world.created :=
    fun g hg => Nat.ne_of_lt (h.created g hg)
  have hrecord := inv_record (inv_links h hlinks hself hfree hcalls hframes)
    (hlinks.objects self hexists) hlinks.notMoved
  have hcreating := inv_push (f := .creating self d.world.created) hrecord hlinks.bound
    ⟨hlinks.objects self hexists, hlinks.notMoved, fun _ ho => hlinks.owner hfree ho⟩
    (fun g hg => above_creating (hframes g hg))
  apply inv_push (f := .handling self d.world.created wmNcCreate) hcreating hlinks.bound
  · intro heq
    contradiction
  · exact fun g _ => above_handling g

/-! ## Returns -/

theorem inv_returns_handling {type : UInt32} (h : d.Inv none)
    (hok : (Frame.handling object hwnd type).Ok d)
    (hwrites : type = wmNcDestroy → ∀ hwnd' ∈ d.linked object, hwnd' = hwnd) :
    (d.returnFrom (.handling object hwnd type)).Inv none := by
  rw [Desktop.returnFrom]
  split
  · next htype => exact inv_clear h (hok htype) (hwrites htype)
  · exact h

/-- `CreateWindowExW` returns the window to an object that lost it meanwhile. -/
theorem links_creating (hself : d.exists self = true) (hmoved : d.movedFrom self = false)
    (hbound : hwnd < d.world.created) (hdata : ∀ o, d.world.userData hwnd = some o → o = self) :
    Links (d.setWindow self none) (d.setWindow self (some hwnd)) self hwnd where
  window := by
    intro o
    by_cases ho : o = self
    · rw [if_pos ho, ho]
      exact window_setWindow_self hself
    · rw [if_neg ho]
      exact (window_setWindow_of_ne ho).trans (window_setWindow_of_ne ho).symm
  userData := fun _ _ => rfl
  linked := hdata
  created := Nat.le_refl _
  bound := hbound
  live := fun _ _ => rfl
  notMoved := hmoved
  movedFrom := fun _ ho => ho
  stack := rfl
  destroyCalls := rfl
  dispatched := rfl
  objects := by
    intro o ho
    exact isSome_setWindow.trans (isSome_setWindow.symm.trans ho)

theorem inv_returns_creating (h : d.Inv none) (hok : (Frame.creating self hwnd).Ok d)
    (hbound : hwnd < d.world.created) (hframes : ∀ g ∈ d.stack, g.hwnd ≠ hwnd)
    (hwrites : ∀ hwnd' ∈ d.linked self, hwnd' = hwnd) :
    (d.returnFrom (.creating self hwnd)).Inv none := by
  obtain ⟨hself, hmoved, hown⟩ := hok
  rw [Desktop.returnFrom]
  cases hlive : d.live hwnd with
  | false => exact inv_setWindow_none h (linked_of_dead hwrites hlive)
  | true =>
    rw [if_pos rfl]
    by_cases hsome : d.world.window self = some hwnd
    · have hsame : (d.world.setWindow self (some hwnd)).window = d.world.window := by
        funext o
        by_cases ho : o = self
        · rw [ho, hsome]
          exact window_setWindow_self hself
        · exact window_setWindow_of_ne ho
      apply inv_world h hsame rfl rfl
      · exact fun o ho => isSome_setWindow.trans ho
      · exact fun _ ho => ho
    · have hfree : ∀ o, d.world.window o ≠ some hwnd := by
        intro o ho
        exact hsome (hown o ho ▸ ho)
      have hdata : ∀ o, d.world.userData hwnd = some o → o = self :=
        fun o ho => hown o (h.identity.userData hwnd o hlive ho)
      have hunlinked : d.linked self = none := by
        apply Option.eq_none_iff_forall_not_mem.mpr
        intro hwnd' hmem
        exact hsome (hwrites hwnd' hmem ▸ (mem_linked.mp hmem).1)
      have hcalls : hwnd ∉ d.destroyCalls :=
        not_called h (any_destroys_of_ne hframes) (Or.inl hlive)
      apply inv_links (inv_setWindow_none h hunlinked) (links_creating hself hmoved hbound hdata)
      · exact window_setWindow_self hself
      · intro o ho
        change (d.world.setWindow self none).window o = some hwnd at ho
        rw [window_setWindow_none] at ho
        split at ho
        · contradiction
        · exact hfree o ho
      · exact hcalls
      · exact hframes

/-- `WM_DESTROY` does not close a window. -/
theorem closes_wmDestroy : d.closes hwnd wmDestroy 0 0 = none := by
  rw [Desktop.closes, Option.bind_eq_none_iff]
  intro object hdata
  split
  · next v haction =>
    have hclose := (windowProc_onClose hdata haction).1
    contradiction
  · rfl

theorem inv_returns_destroying {caller : Caller} {stage : Stage} (h : d.Inv (some hwnd))
    (hok : (Frame.destroying hwnd caller stage).Ok d) (hbound : hwnd < d.world.created)
    (hbeing : d.beingDestroyed hwnd = false) (hstack : caller.outermost = true → d.stack = [])
    (hwrites : ∀ o ∈ (Frame.destroying hwnd caller stage).writes,
      ∀ hwnd' ∈ d.linked o, hwnd' = hwnd) :
    (d.returnFrom (.destroying hwnd caller stage)).Inv none := by
  have hwaits : (Frame.destroying hwnd caller .sendDestroy).Ok d := ⟨hok.1, hok.2.1, trivial⟩
  obtain ⟨hlive, hcaller, hstage⟩ := hok
  cases stage with
  | sendDestroy =>
    rw [Desktop.returnFrom]
    have hnext : (Frame.destroying hwnd caller .sendNcDestroy).Ok d := ⟨hlive, hcaller, trivial⟩
    apply inv_dispatch (inv_stage h hbound hbeing hnext hstack) hlive
    rw [closes_wmDestroy]
    nofun
  | sendNcDestroy =>
    rw [Desktop.returnFrom]
    split
    · next object hdata =>
      have hwindow := h.identity.userData hwnd object hlive hdata
      apply inv_stage (inv_record_userData h hlive hdata) hbound hbeing _ hstack
      refine ⟨hlive, hcaller, ?_⟩
      intro o ho
      exact h.identity.unique hwnd o object ho hwindow
    · next hdata => exact inv_stage h hbound hbeing ⟨hlive, hcaller, hdata⟩ hstack
  | inNcDestroy object =>
    rw [Desktop.returnFrom]
    have hclear := shrinks_clear h hstage (hwrites object rfl)
    obtain ⟨_, hcaller', _⟩ := hclear.frame exists_clear hwaits
    apply inv_stage (inv_shrinks h hclear fun _ => exists_clear) hbound hbeing _ hstack
    refine ⟨hlive, hcaller', ?_⟩
    exact Function.update_self hwnd none d.world.userData
  | destroyed =>
    rw [Desktop.returnFrom]
    apply inv_finish (inv_kill h hbeing) (Function.update_self hwnd false d.live)
    · cases caller with
      | destroy self after => exact hcaller
      | onClose self => exact hcaller
      | createWindow => exact hcaller
    · exact fun _ _ => hstage
    · intro self after heq hwnd' hmem
      obtain ⟨hwindow, hlive', hdata⟩ := mem_linked.mp hmem
      apply hwrites self
      · rw [heq]
        rfl
      · exact mem_linked.mpr ⟨hwindow, of_update_false hlive', hdata⟩
    · exact hstack

/-- The frame on top returns. -/
theorem inv_returns {rest : List Frame} (h : d.Inv none) (hstack : d.stack = f :: rest)
    (hwrites : ∀ o ∈ f.writes, ∀ hwnd' ∈ d.linked o, hwnd' = f.hwnd) :
    (Desktop.returnFrom { d with stack := rest } f).Inv none := by
  have hok := h.frames f (hstack ▸ List.mem_cons_self)
  have hbound := h.created f (hstack ▸ List.mem_cons_self)
  have horder := h.order
  rw [hstack, List.pairwise_cons] at horder
  have habove := horder.1
  cases f with
  | creating self hwnd =>
    apply inv_returns_creating (inv_pop h hstack nofun) hok hbound
    · intro g hg
      exact (habove g hg).created self hwnd rfl
    · exact hwrites self rfl
  | handling object hwnd type =>
    apply inv_returns_handling (inv_pop h hstack nofun) hok
    intro htype
    apply hwrites object
    rw [Frame.writes, if_pos htype]
    rfl
  | destroying hwnd caller stage =>
    have hpop : Desktop.Inv { d with stack := rest } (some hwnd) := by
      apply inv_pop h hstack
      intro hwnd' hdestroys
      rw [← hwnd_of_destroys hdestroys]
      rfl
    apply inv_returns_destroying hpop hok hbound
    · apply List.any_eq_false.mpr
      intro g hg
      exact Bool.eq_false_iff.mp ((habove g hg).destroys hwnd (by simp [Frame.destroys]))
    · intro houter
      apply List.eq_nil_iff_forall_not_mem.mpr
      intro g hg
      have hinner := (habove g hg).outermost
      rw [Frame.outermost, houter] at hinner
      contradiction
    · exact hwrites

/-- The system gives up the creation of a window. -/
theorem inv_creationFails {rest : List Frame} (h : d.Inv none)
    (hstack : d.stack = .creating self hwnd :: rest) (hlive : d.live hwnd = true) :
    (d.push (.destroying hwnd .createWindow .sendDestroy)).Inv none := by
  have horder := h.order
  rw [hstack, List.pairwise_cons] at horder
  -- the frames below do not know the window
  have hbelow : rest.any (Frame.destroys hwnd) = false := by
    apply any_destroys_of_ne
    intro g hg
    exact (horder.1 g hg).created self hwnd rfl
  have hbeing : d.beingDestroyed hwnd = false := by
    rw [Desktop.beingDestroyed, hstack, List.any_cons, hbelow]
    rfl
  apply inv_push h
  · exact h.created (.creating self hwnd) (hstack ▸ List.mem_cons_self)
  · exact ⟨hlive, not_called h hbeing (Or.inl hlive), trivial⟩
  · apply above_destroying hbeing
    intro houter
    contradiction

/-! ## Runs -/

/-- A new object has no window. -/
theorem inv_construct (h : d.Inv but) (hnone : d.exists self = false) :
    Desktop.Inv { d with world := d.world.construct self } but := by
  have hself : d.world.objects self = none := by simpa [Desktop.exists] using hnone
  have hwindow : (d.world.construct self).window = d.world.window := by
    apply window_update
    rw [World.window, hself]
    rfl
  apply inv_world h hwindow rfl rfl
  · intro o ho
    simp only [World.construct, Function.update_apply]
    split
    · rfl
    · exact ho
  · exact fun _ ho => ho

/-- An object gets a handler. -/
theorem inv_update (h : d.Inv but) {x y : Window H K} (hx : d.world.objects self = some x)
    (hy : y.window = x.window) : Desktop.Inv { d with
      world := { d.world with objects := Function.update d.world.objects self (some y) } } but := by
  have hwindow : World.window
      { d.world with objects := Function.update d.world.objects self (some y) }
      = d.world.window := by
    apply window_update
    rw [World.window, hx]
    exact hy
  apply inv_world h hwindow rfl rfl
  · intro o ho
    simp only [Function.update_apply]
    split
    · rfl
    · exact ho
  · exact fun _ ho => ho

theorem inv_step {d' : Desktop H K} {e : Event H K} (h : d.Inv none) (horderly : Orderly d e)
    (hstep : d.step e = some d') : d'.Inv none := by
  cases e with
  | construct self =>
    simp only [Desktop.step, Option.ite_none_right_eq_some, Option.some.injEq, Bool.and_eq_true,
      Bool.not_eq_true'] at hstep
    obtain ⟨⟨_, hnone⟩, rfl⟩ := hstep
    exact inv_unmoved self (inv_construct h hnone)
  | on self message handler =>
    simp only [Desktop.step, Option.ite_none_right_eq_some, World.step, Option.map_map,
      Option.map_eq_some_iff] at hstep
    obtain ⟨_, x, hx, rfl⟩ := hstep
    exact inv_update h hx rfl
  | onCommand self controlId handler =>
    simp only [Desktop.step, Option.ite_none_right_eq_some, World.step, Option.map_map,
      Option.map_eq_some_iff] at hstep
    obtain ⟨_, x, hx, rfl⟩ := hstep
    exact inv_update h hx rfl
  | init self fails =>
    simp only [Desktop.step, Option.ite_none_right_eq_some, Desktop.mayUse, Bool.and_eq_true]
      at hstep
    obtain ⟨⟨_, hexists⟩, hinit⟩ := hstep
    split at hinit
    · rw [Option.some.injEq] at hinit
      exact hinit ▸ h
    · next hgo =>
      rw [Option.some.injEq] at hinit
      rw [Bool.or_eq_true, not_or, Bool.not_eq_true, Option.isSome_eq_false_iff,
        Option.isNone_iff_eq_none] at hgo
      exact hinit ▸ inv_createWindow h hgo.1 hexists
  | detach self =>
    simp only [Desktop.step, Option.ite_none_right_eq_some, Option.some.injEq] at hstep
    exact hstep.2 ▸ inv_detach h
  | destroy self =>
    simp only [Desktop.step, Option.ite_none_right_eq_some, Option.some.injEq, Desktop.mayUse,
      Bool.and_eq_true] at hstep
    obtain ⟨⟨_, hexists⟩, rfl⟩ := hstep
    apply inv_destroy h hexists horderly
    intro houter
    contradiction
  | moveConstruct self other =>
    simp only [Desktop.step, Option.ite_none_right_eq_some, Option.some.injEq,
      Bool.not_eq_true'] at hstep
    obtain ⟨⟨hstack, hnone, _⟩, rfl⟩ := hstep
    have hself : d.world.objects self = none := by simpa [Desktop.exists] using hnone
    apply inv_take (inv_construct h hnone) hstack
    · simp [World.construct, World.window, Window.default]
    · simp [World.construct, Desktop.exists]
  | moveAssign self other =>
    simp only [Desktop.step, Option.ite_none_right_eq_some] at hstep
    obtain ⟨⟨hstack, hexists, _⟩, hmove⟩ := hstep
    split at hmove
    · rw [Option.some.injEq] at hmove
      exact hmove ▸ h
    · rw [Option.some.injEq] at hmove
      rw [← hmove]
      apply inv_destroy h hexists
      · exact fun hwnd _ => beingDestroyed_of_nil hstack hwnd
      · exact fun _ => hstack
  | destruct self =>
    simp only [Desktop.step, Option.ite_none_right_eq_some, Option.some.injEq] at hstep
    obtain ⟨⟨hstack, hexists⟩, rfl⟩ := hstep
    apply inv_destroy h hexists
    · exact fun hwnd _ => beingDestroyed_of_nil hstack hwnd
    · exact fun _ => hstack
  | message hwnd type wParam lParam =>
    simp only [Desktop.step, Option.ite_none_right_eq_some, Option.some.injEq] at hstep
    obtain ⟨⟨hlive, _⟩, rfl⟩ := hstep
    exact inv_dispatch h hlive horderly
  | returns =>
    rw [Desktop.step] at hstep
    split at hstep
    · contradiction
    · next f rest hstack =>
      rw [Option.some.injEq] at hstep
      rw [← hstep]
      apply inv_returns h hstack
      apply horderly
      rw [hstack]
      rfl
  | creationFails =>
    rw [Desktop.step] at hstep
    split at hstep
    · next self hwnd rest hstack =>
      rw [Option.ite_none_right_eq_some, Option.some.injEq] at hstep
      exact hstep.2 ▸ inv_creationFails h hstack hstep.1
    · contradiction

end

/-- In every orderly run the objects and the windows point at each other, no window is destroyed
twice, and every message goes to an object that is there and not moved from. -/
theorem identity_run {d : Desktop H K} {es : List (Event H K)}
    (hrun : run Desktop.step Desktop.init es = some d)
    (horderly : EachStep Desktop.step Orderly Desktop.init es) : Identity d := by
  have hinv : d.Inv none :=
    run_invariant_of (fun d => Desktop.Inv d none) (fun _ _ _ => inv_step) horderly hrun inv_init
  exact hinv.identity

/-- A window is created, moved to another object and closed there. -/
def createMoveClose : List (Event ℕ ℕ) :=
  [.construct 0, .init 0 false, .returns, .returns, .moveConstruct 1 0, .message 0 wmClose 0 0,
    .returns, .returns, .returns, .returns, .returns, .returns]

theorem identity_run_createMoveClose : ∃ d, run Desktop.step Desktop.init createMoveClose = some d ∧
    d.destroyCalls = [0] ∧ d.dispatched.map Prod.fst = [0, 1, 1, 1] ∧ Identity d := by
  have hrun : (run Desktop.step Desktop.init createMoveClose).map
      (fun d => (d.destroyCalls, d.dispatched.map Prod.fst)) = some ([0], [0, 1, 1, 1]) := by
    decide +kernel
  have horderly : EachStep Desktop.step Orderly Desktop.init createMoveClose := by
    decide +kernel
  obtain ⟨d, hd, hrecord⟩ := Option.map_eq_some_iff.mp hrun
  rw [Prod.mk.injEq] at hrecord
  exact ⟨d, hd, hrecord.1, hrecord.2, identity_run hd horderly⟩

/-- The handler of `WM_DESTROY` calls `Destroy`. -/
def destroyInHandler : List (Event ℕ ℕ) :=
  [.construct 0, .on 0 wmDestroy 0, .init 0 false, .returns, .returns, .destroy 0, .returns,
    .destroy 0]

theorem identity_destroyInHandler :
    ∃ d, run Desktop.step Desktop.init destroyInHandler = some d ∧ ¬ Identity d := by
  have hrun : (run Desktop.step Desktop.init destroyInHandler).map Desktop.destroyCalls
      = some [0, 0] := by
    decide +kernel
  obtain ⟨d, hd, hcalls⟩ := Option.map_eq_some_iff.mp hrun
  refine ⟨d, hd, fun h => ?_⟩
  have honce := h.once
  rw [hcalls] at honce
  contradiction

end Win32Experiments.UiCallbacks
