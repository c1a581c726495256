import Mathlib.Data.List.Nodup
import Win32Experiments.UiCallbacks.IdentityInvariant
import Win32Experiments.UiCallbacks.MoveTheorems

/-!
# Operations on a link

What the calls and the returns are made of: an object loses its window or gives it to another, a
window is gone, a message is recorded, a frame is pushed or popped. Each keeps the invariant.
-/

namespace Win32Experiments.UiCallbacks

variable {H K : Type*}

section

variable {d : Desktop H K} {w : World H K} {but : Option ℕ} {f : Frame}
  {hwnd object self other : ℕ}

/-! ## Operations that make no link -/

theorem window_setWindow_none (w : World H K) (o : ℕ) :
    (w.setWindow object none).window o = if o = object then none else w.window o := by
  by_cases ho : o = object
  · rw [if_pos ho, ho]
    cases hx : w.objects object <;> simp [World.window, World.setWindow, hx]
  · rw [if_neg ho, window_setWindow_of_ne ho]

theorem linked_of_window (h : d.world.window object = some hwnd) :
    ∀ hwnd' ∈ d.linked object, hwnd' = hwnd := by
  intro hwnd' hmem
  have hsome := h.symm.trans (mem_linked.mp hmem).1
  exact (Option.some.inj hsome).symm

theorem linked_of_none (h : d.world.window object = none) : d.linked object = none := by
  rw [Desktop.linked, h]
  rfl

theorem linked_of_dead (h : ∀ hwnd' ∈ d.linked object, hwnd' = hwnd) (hdead : d.live hwnd = false) :
    d.linked object = none := by
  apply Option.eq_none_iff_forall_not_mem.mpr
  intro hwnd' hmem
  have hlive := (mem_linked.mp hmem).2.1
  rw [h hwnd' hmem, hdead] at hlive
  contradiction

theorem exists_of_window (h : d.world.window object = some hwnd) : d.exists object = true :=
  isSome_of_window h

theorem of_update_false {f : ℕ → Bool} {a b : ℕ} (h : Function.update f a false b = true) :
    f b = true := by
  rw [Function.update_apply] at h
  split at h
  · contradiction
  · exact h

/-- The objects have the same windows as before. -/
theorem inv_world (h : d.Inv but) (hwindow : w.window = d.world.window)
    (hdata : w.userData = d.world.userData) (hcreated : w.created = d.world.created)
    (hexists : ∀ o, d.exists o = true → (w.objects o).isSome = true)
    {movedFrom : ℕ → Bool} (hmoved : ∀ o, movedFrom o = true → d.movedFrom o = true) :
    Desktop.Inv { d with world := w, movedFrom := movedFrom } but := by
  apply inv_shrinks h
  · constructor
    · intro o hwnd ho
      rwa [← hwindow]
    · intro hwnd
      exact Or.inl (congrFun hdata hwnd)
    · intro hwnd o hlive ho
      show w.window o = some hwnd
      rw [hwindow]
      exact h.identity.userData hwnd o hlive (hdata ▸ ho)
    · exact hcreated
    · rfl
    · exact hmoved
    · rfl
    · rfl
    · rfl
  · intro _
    exact hexists

/-- The end of `WM_NCDESTROY`, when no other object has the window and the object is not linked to
another. -/
theorem shrinks_clear (h : d.Inv but) (hown : ∀ o, d.world.window o = some hwnd → o = object)
    (hwrites : ∀ hwnd' ∈ d.linked object, hwnd' = hwnd) :
    Shrinks d (d.clear object hwnd) := by
  have hwindow : ∀ o, (d.clear object hwnd).world.window o
      = if o = object then none else d.world.window o :=
    window_setWindow_none (d.world.setUserData hwnd none)
  have hdata : ∀ h', (d.clear object hwnd).world.userData h'
      = if h' = hwnd then none else d.world.userData h' := by
    intro h'
    exact Function.update_apply d.world.userData hwnd none h'
  constructor
  · intro o hwnd' ho
    rw [hwindow] at ho
    split at ho
    · contradiction
    · exact ho
  · intro hwnd'
    rw [hdata]
    split
    · next heq =>
      refine Or.inr ⟨rfl, fun o ho => ?_⟩
      rw [hwindow] at ho
      split at ho
      · contradiction
      · next hne => exact hne (hown o (heq ▸ ho))
    · exact Or.inl rfl
  · intro hwnd' o hlive ho
    rw [hdata] at ho
    split at ho
    · contradiction
    · next hne =>
      have hlinked := h.identity.userData hwnd' o hlive ho
      rw [hwindow, if_neg, hlinked]
      intro heq
      exact hne (hwrites hwnd' (heq ▸ h.identity.linked hlive ho))
  · rfl
  · rfl
  · exact fun _ ho => ho
  · rfl
  · rfl
  · rfl

theorem exists_clear (o : ℕ) (ho : d.exists o = true) : (d.clear object hwnd).exists o = true :=
  (isSome_setWindow (w := d.world.setUserData hwnd none)).trans ho

theorem inv_clear (h : d.Inv but) (hown : ∀ o, d.world.window o = some hwnd → o = object)
    (hwrites : ∀ hwnd' ∈ d.linked object, hwnd' = hwnd) : (d.clear object hwnd).Inv but :=
  inv_shrinks h (shrinks_clear h hown hwrites) fun _ => exists_clear

/-- The member `window` is cleared in an object that is not linked. -/
theorem inv_unset (h : d.Inv but)
    (hwindow : ∀ o, w.window o = if o = self then none else d.world.window o)
    (hdata : w.userData = d.world.userData) (hcreated : w.created = d.world.created)
    (hself : d.linked self = none)
    (hexists : d.stack ≠ [] → ∀ o, d.exists o = true → (w.objects o).isSome = true) :
    Desktop.Inv { d with world := w } but := by
  apply inv_shrinks h
  · constructor
    · intro o hwnd ho
      rw [hwindow] at ho
      split at ho
      · contradiction
      · exact ho
    · intro hwnd
      exact Or.inl (congrFun hdata hwnd)
    · intro hwnd o hlive ho
      have hlinked := h.identity.userData hwnd o hlive (hdata ▸ ho)
      show w.window o = some hwnd
      rw [hwindow, if_neg, hlinked]
      intro heq
      have hmem := h.identity.linked hlive (hdata ▸ ho)
      rw [heq, hself] at hmem
      contradiction
    · exact hcreated
    · rfl
    · exact fun _ ho => ho
    · rfl
    · rfl
    · rfl
  · exact hexists

theorem inv_setWindow_none (h : d.Inv but) (hself : d.linked self = none) :
    (d.setWindow self none).Inv but := by
  apply inv_unset h (window_setWindow_none d.world) rfl rfl hself
  intro _ o ho
  exact isSome_setWindow.trans ho

theorem inv_detach (h : d.Inv but) : Desktop.Inv { d with world := d.world.detach self } but := by
  cases hself : d.world.window self with
  | none => simpa only [World.detach, hself] using h
  | some hwnd =>
    have hclear := inv_clear h (fun o ho => h.identity.unique hwnd o self ho hself)
      (linked_of_window hself)
    simp only [World.detach, hself]
    exact hclear

theorem destroys_eq_false (hbeing : d.beingDestroyed hwnd = false) (hf : f ∈ d.stack) :
    f.destroys hwnd = false := by
  rw [Desktop.beingDestroyed, List.any_eq_false] at hbeing
  exact Bool.eq_false_iff.mpr (hbeing f hf)

/-- A window that is not being destroyed is gone. -/
theorem inv_kill (h : d.Inv but) (hbeing : d.beingDestroyed hwnd = false) :
    Desktop.Inv { d with live := Function.update d.live hwnd false } but where
  identity :=
    { userData := by
        intro hwnd' o hlive ho
        exact h.identity.userData hwnd' o (of_update_false hlive) ho
      unique := h.identity.unique
      once := h.identity.once
      dispatched := h.identity.dispatched }
  movedFrom := h.movedFrom
  windows := h.windows
  calls := h.calls
  created := h.created
  called := by
    intro hwnd' hmem hbut
    rcases h.called hwnd' hmem hbut with hbeing' | ⟨hdead, hnobody⟩
    · exact Or.inl hbeing'
    · refine Or.inr ⟨?_, hnobody⟩
      change Function.update d.live hwnd false hwnd' = false
      rw [Function.update_apply]
      split
      · rfl
      · exact hdead
  frames := by
    intro f hf
    refine (h.frames f hf).transfer ?_ (Or.inl rfl) ?_ ?_ ?_ ?_
    · exact fun _ ho => ho
    · intro hdestroys
      apply Function.update_of_ne
      intro heq
      rw [heq, destroys_eq_false hbeing hf] at hdestroys
      contradiction
    · exact fun _ hmem => hmem
    · exact fun _ ho => ho
    · exact fun _ ho => ho
  order := h.order

/-! ## The stack and the record -/

theorem inv_record (h : d.Inv but) (hexists : d.exists object = true)
    (hmoved : d.movedFrom object = false) : (d.record object).Inv but where
  identity :=
    { userData := h.identity.userData
      unique := h.identity.unique
      once := h.identity.once
      dispatched := by
        intro e he
        rcases List.mem_append.mp he with hold | hnew
        · exact h.identity.dispatched e hold
        · rw [List.mem_singleton.mp hnew, hexists, hmoved]
          rfl }
  movedFrom := h.movedFrom
  windows := h.windows
  calls := h.calls
  created := h.created
  called := h.called
  frames := h.frames
  order := h.order

theorem inv_push (h : d.Inv but) (hcreated : f.hwnd < d.world.created) (hok : f.Ok d)
    (habove : ∀ g ∈ d.stack, Above f g) : (d.push f).Inv but where
  identity := ⟨h.identity.userData, h.identity.unique, h.identity.once, h.identity.dispatched⟩
  movedFrom := h.movedFrom
  windows := h.windows
  calls := h.calls
  created := List.forall_mem_cons.mpr ⟨hcreated, h.created⟩
  called := by
    intro hwnd hmem hbut
    rcases h.called hwnd hmem hbut with hbeing | hgone
    · left
      rw [Desktop.beingDestroyed] at hbeing ⊢
      simp [Desktop.push, hbeing]
    · exact Or.inr hgone
  frames := List.forall_mem_cons.mpr ⟨hok, h.frames⟩
  order := List.pairwise_cons.mpr ⟨habove, h.order⟩

theorem inv_pop {rest : List Frame} (h : d.Inv none) (hstack : d.stack = f :: rest)
    (hbut : ∀ hwnd, f.destroys hwnd = true → but = some hwnd) :
    Desktop.Inv { d with stack := rest } but where
  identity := ⟨h.identity.userData, h.identity.unique, h.identity.once, h.identity.dispatched⟩
  movedFrom := h.movedFrom
  windows := h.windows
  calls := h.calls
  created := by
    intro g hg
    exact h.created g (hstack ▸ List.mem_cons_of_mem f hg)
  called := by
    intro hwnd hmem hne
    rcases h.called hwnd hmem (by simp) with hbeing | hgone
    · left
      rw [Desktop.beingDestroyed, hstack, List.any_cons, Bool.or_eq_true] at hbeing
      rcases hbeing with htop | hrest
      · exact absurd (hbut hwnd htop).symm hne
      · exact hrest
    · exact Or.inr hgone
  frames := by
    intro g hg
    exact h.frames g (hstack ▸ List.mem_cons_of_mem f hg)
  order := by
    have horder := h.order
    rw [hstack] at horder
    exact horder.of_cons

/-- `DestroyWindow` was not called on a window that is not being destroyed and that is live, or that
an object has. -/
theorem not_called (h : d.Inv none) (hbeing : d.beingDestroyed hwnd = false)
    (hthere : d.live hwnd = true ∨ ∃ o, d.world.window o = some hwnd) : hwnd ∉ d.destroyCalls := by
  intro hmem
  rcases h.called hwnd hmem (by simp) with hin | ⟨hdead, hnobody⟩
  · rw [hin] at hbeing
    contradiction
  · rcases hthere with hlive | ⟨o, hwindow⟩
    · rw [hdead] at hlive
      contradiction
    · exact hnobody o hwindow

theorem beingDestroyed_of_nil (hstack : d.stack = []) (hwnd : ℕ) :
    d.beingDestroyed hwnd = false := by
  rw [Desktop.beingDestroyed, hstack]
  rfl

theorem hwnd_of_destroys (h : f.destroys hwnd = true) : f.hwnd = hwnd := by
  cases f with
  | creating self hwnd' => contradiction
  | handling object hwnd' type => contradiction
  | destroying hwnd' caller stage => simpa [Frame.destroys, Frame.hwnd] using h

theorem any_destroys_of_ne {frames : List Frame} (h : ∀ g ∈ frames, g.hwnd ≠ hwnd) :
    frames.any (Frame.destroys hwnd) = false := by
  apply List.any_eq_false.mpr
  intro g hg hdestroys
  exact h g hg (hwnd_of_destroys hdestroys)

/-! ## Moves -/

theorem inv_moved (h : d.Inv but) (hstack : d.stack = []) (hnone : d.world.window object = none) :
    Desktop.Inv { d with movedFrom := Function.update d.movedFrom object true } but where
  identity := ⟨h.identity.userData, h.identity.unique, h.identity.once, h.identity.dispatched⟩
  movedFrom := by
    intro o ho
    change Function.update d.movedFrom object true o = true at ho
    rw [Function.update_apply] at ho
    split at ho
    · next heq => exact heq ▸ hnone
    · exact h.movedFrom o ho
  windows := h.windows
  calls := h.calls
  created := h.created
  called := h.called
  frames := by
    rw [hstack]
    exact List.forall_mem_nil _
  order := h.order

theorem inv_unmoved (object : ℕ) (h : d.Inv but) :
    Desktop.Inv { d with movedFrom := Function.update d.movedFrom object false } but := by
  apply inv_world h rfl rfl rfl (fun _ ho => ho)
  intro o ho
  exact of_update_false ho

/-- A move links the window to its new object, once the old one is detached. -/
theorem links_take (hother : d.world.window other = some hwnd)
    (hexists : d.exists self = true) (hbound : hwnd < d.world.created) :
    Links { d with world := d.world.detach other }
      { d with
        world := d.world.take self other
        movedFrom := Function.update d.movedFrom self false } self hwnd := by
  rw [take_of_some hother]
  constructor
  · intro o
    by_cases ho : o = self
    · rw [if_pos ho, ho]
      exact window_setWindow_self (isSome_detach.trans hexists)
    · rw [if_neg ho]
      exact window_setWindow_of_ne ho
  · intro hwnd' hne'
    exact Function.update_of_ne hne' _ _
  · intro o ho
    simpa [World.setUserData] using ho.symm
  · exact Nat.le_refl _
  · exact created_detach.symm ▸ hbound
  · exact fun _ _ => rfl
  · exact Function.update_self self false d.movedFrom
  · intro o ho
    exact of_update_false ho
  · rfl
  · rfl
  · rfl
  · intro o ho
    exact isSome_setWindow.trans ho

/-- The end of `MoveFrom`, while no handler runs. -/
theorem inv_take (h : d.Inv none) (hstack : d.stack = []) (hself : d.world.window self = none)
    (hexists : d.exists self = true) : (d.take self other).Inv none := by
  cases hother : d.world.window other with
  | none =>
    have hmoved := inv_moved (inv_unmoved self h) hstack hother
    rw [Desktop.take, take_of_none hother, setWindow_none hself]
    exact hmoved
  | some hwnd =>
    have hne : self ≠ other := by
      intro heq
      rw [heq, hother] at hself
      contradiction
    have hcalls : hwnd ∉ d.destroyCalls :=
      not_called h (beingDestroyed_of_nil hstack hwnd) (Or.inr ⟨other, hother⟩)
    have hlinks : Desktop.Inv { d with
        world := d.world.take self other
        movedFrom := Function.update d.movedFrom self false } none := by
      apply inv_links (inv_detach h)
        (links_take hother hexists (h.windows other hwnd hother))
      · exact (window_detach_of_ne hne).trans hself
      · intro o ho
        by_cases heq : o = other
        · rw [heq] at ho
          change (d.world.detach other).window other = some hwnd at ho
          rw [window_detach_self] at ho
          contradiction
        · change (d.world.detach other).window o = some hwnd at ho
          rw [window_detach_of_ne heq] at ho
          exact heq (h.identity.unique hwnd o other ho hother)
      · exact hcalls
      · exact hstack ▸ List.forall_mem_nil _
    apply inv_moved hlinks hstack
    change (d.world.take self other).window other = none
    rw [take_of_some hother, window_setUserData, window_setWindow_of_ne hne.symm,
      window_detach_self]

end

end Win32Experiments.UiCallbacks
