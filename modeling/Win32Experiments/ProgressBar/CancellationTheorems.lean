import Win32Experiments.ProgressBar.Cancellation

/-!
# Which request closes the window

Each posted message was meant to find the flags as its call left them. A `Cancel` after a `Close`
takes the flag of `Close` away before its message is handled, and a vetoed `Cancel` leaves its own
flag behind.
-/

namespace Win32Experiments.ProgressBar.Cancellation

open Foundation

/-! ## Statements -/

/-- A cancel or user request is refused: no `Close` is in force, and there is no `OnCancel`, or
it vetoes. -/
def Refused (w : ProgressWindow) (verdict : Bool) : Prop :=
  w.UserClose = false ∧ (w.OnCancel && verdict) = false

/-- What a step does right: the message of `Close` closes the window, a refused request leaves
it open and the flags as before the request, and from then on `Join` would return what closed
the window. -/
structure Right (w : ProgressWindow) (e : Event) (w' : ProgressWindow) : Prop where
  close : ∀ p queue verdict, e = .posted verdict → w.queue = p :: queue → p.call = .Close →
    w'.Closed = true
  cancel : ∀ p queue verdict, e = .posted verdict → w.queue = p :: queue → p.call = .Cancel →
    Refused w verdict → w'.Closed = false ∧ w'.flags = p.before
  user : ∀ request verdict, e = .user request verdict → Refused w verdict →
    w'.Closed = false ∧ w'.flags = w.flags
  join : ∀ result, w'.join = some result → (result = false ↔ w'.approved = true)

/-- The step from `w` is right. -/
def RightStep (w : ProgressWindow) (e : Event) : Prop := ∀ w', step w e = some w' → Right w e w'

/-- The message of `Close` finds the flag that `Close` set, that of `Cancel` is not refused, and
a call on a closed window does not change what `Join` returns. -/
def Orderly (w : ProgressWindow) : Event → Prop
  | .call .Close => w.Closed = true → w.Canceled = false
  | .call .Cancel => w.Closed = true → w.Canceled = true
  | .posted verdict => ∀ p ∈ w.queue.head?,
    (p.call = .Close → w.UserClose = true) ∧ (p.call = .Cancel → ¬ Refused w verdict)
  | .user _ _ => True

instance (w : ProgressWindow) (verdict : Bool) : Decidable (Refused w verdict) :=
  inferInstanceAs (Decidable (_ ∧ _))

instance (w : ProgressWindow) : ∀ e : Event, Decidable (Orderly w e)
  | .call .Close => inferInstanceAs (Decidable (_ → _))
  | .call .Cancel => inferInstanceAs (Decidable (_ → _))
  | .posted verdict => inferInstanceAs (Decidable (∀ p ∈ w.queue.head?,
      (p.call = .Close → w.UserClose = true) ∧ (p.call = .Cancel → ¬ Refused w verdict)))
  | .user _ _ => isTrue trivial

/-! ## The handler -/

variable {w w' : ProgressWindow}

theorem wmClose_of_refused {verdict : Bool} (h : Refused w verdict) : w.wmClose verdict = w := by
  obtain ⟨huser, hcancel⟩ := h
  unfold ProgressWindow.wmClose
  rw [huser, hcancel]
  rfl

theorem wmClose_of_not_refused {verdict : Bool} (h : ¬ Refused w verdict) :
    w.wmClose verdict = { w with Canceled := !w.UserClose, Closed := true, queue := [] } := by
  unfold ProgressWindow.wmClose
  rw [if_pos]
  · rfl
  · rw [Bool.or_eq_true]
    by_contra hno
    apply h
    rwa [not_or, Bool.not_eq_true, Bool.not_eq_true] at hno

theorem approves_of_not_refused {verdict : Bool} (h : ¬ Refused w verdict) :
    w.approves verdict = !w.UserClose := by
  unfold ProgressWindow.approves
  cases huser : w.UserClose with
  | true => rfl
  | false =>
    rw [Bool.not_false, Bool.true_and]
    by_contra hno
    exact h ⟨huser, (Bool.not_eq_true _).mp hno⟩

theorem wndProc_request (w : ProgressWindow) (verdict : Bool) (request : UserRequest) :
    w.wndProc verdict request.message = w.wmClose verdict := by
  cases request with
  | closeBox => rfl
  | cancelButton => rfl

/-! ## The invariant -/

/-- While the window is open no posted message was handled yet. When it is closed, `Canceled`
says whether `OnCancel` approved. -/
structure Inv (w : ProgressWindow) : Prop where
  closed : w.Closed = true → w.queue = [] ∧ w.Canceled = w.approved
  none_posted : w.Closed = false → w.queue = [] → w.flags = ⟨false, false⟩
  posted : w.Closed = false → w.queue ≠ [] → w.Canceled = !w.UserClose
  first : w.Closed = false → ∀ p ∈ w.queue.head?, p.call = .Cancel → p.before = ⟨false, false⟩

theorem inv_new (onCancel : Bool) : Inv (.new onCancel) where
  closed := by
    intro h
    contradiction
  none_posted := by
    intro _ _
    rfl
  posted := by
    intro _ h
    contradiction
  first := by
    intro _ p hp
    contradiction

/-- `Join` returns what closed the window. -/
theorem join_of_inv (hw : Inv w) : ∀ result, w.join = some result →
    (result = false ↔ w.approved = true) := by
  intro result hjoin
  unfold ProgressWindow.join at hjoin
  rw [Option.ite_none_right_eq_some, Option.some.injEq] at hjoin
  obtain ⟨hclosed, hresult⟩ := hjoin
  rw [← hresult, (hw.closed hclosed).2, Bool.not_eq_false']

/-! ## Calls -/

theorem postMessage_closed {p : Posted} (h : w.Closed = true) : w.postMessage p = w := by
  unfold ProgressWindow.postMessage
  rw [if_pos h]

theorem postMessage_open {p : Posted} (h : w.Closed = false) :
    w.postMessage p = { w with queue := w.queue ++ [p] } := by
  unfold ProgressWindow.postMessage
  rw [if_neg (by rw [h]; exact Bool.false_ne_true)]

/-- The first message behind a call on an open window is the one before, or the call's own, made
with the flags of a new window. -/
theorem first_append (hw : Inv w) (hopen : w.Closed = false) {p : Posted}
    (hp : p.before = w.flags) :
    ∀ q ∈ (w.queue ++ [p]).head?, q.call = .Cancel → q.before = ⟨false, false⟩ := by
  intro q hq hcall
  cases hqueue : w.queue with
  | nil =>
    rw [hqueue, List.nil_append, List.head?_cons, Option.mem_some_iff] at hq
    rw [← hq, hp]
    exact hw.none_posted hopen hqueue
  | cons r queue =>
    rw [hqueue, List.cons_append, List.head?_cons, Option.mem_some_iff] at hq
    apply hw.first hopen q _ hcall
    rw [hqueue, ← hq, List.head?_cons]
    rfl

/-- A call on an open window keeps the invariant. -/
theorem inv_call_open (hw : Inv w) (hopen : w.Closed = false) (c : Call) (b : Bool) :
    Inv { w with Canceled := b, UserClose := !b, queue := w.queue ++ [⟨c, w.flags⟩] } where
  closed := by
    intro hclosed
    exact absurd (hclosed.symm.trans hopen) (by decide)
  none_posted := by
    intro _ hnil
    exact absurd hnil (List.append_ne_nil_of_right_ne_nil _ (List.cons_ne_nil _ _))
  posted := by
    intro _ _
    exact (Bool.not_not b).symm
  first := by
    intro _
    exact first_append hw hopen rfl

/-- A call on a closed window keeps the invariant if it keeps `Canceled`. -/
theorem inv_call_closed (hw : Inv w) (hclosed : w.Closed = true) {canceled userClose : Bool}
    (hsame : w.Canceled = canceled) :
    Inv { w with Canceled := canceled, UserClose := userClose } := by
  constructor
  · intro _
    obtain ⟨hqueue, happroved⟩ := hw.closed hclosed
    exact ⟨hqueue, hsame.symm.trans happroved⟩
  all_goals
    intro hopen
    exact absurd (hclosed.symm.trans hopen) (by decide)

/-- On a closed window a call sets the flags. -/
theorem step_call_closed (hclosed : w.Closed = true) (c : Call) :
    step w (.call c) =
      some { w with Canceled := decide (c = .Cancel), UserClose := !decide (c = .Cancel) } := by
  cases c with
  | Close => exact congrArg some (postMessage_closed hclosed)
  | Cancel => exact congrArg some (postMessage_closed hclosed)

/-- On an open window it posts its message too. -/
theorem step_call_open (hopen : w.Closed = false) (c : Call) :
    step w (.call c) =
      some { w with
        Canceled := decide (c = .Cancel)
        UserClose := !decide (c = .Cancel)
        queue := w.queue ++ [⟨c, w.flags⟩] } := by
  cases c with
  | Close => exact congrArg some (postMessage_open hopen)
  | Cancel => exact congrArg some (postMessage_open hopen)

theorem orderly_call (w : ProgressWindow) (c : Call) :
    Orderly w (.call c) ↔ (w.Closed = true → w.Canceled = decide (c = .Cancel)) := by
  cases c with
  | Close => exact Iff.rfl
  | Cancel => exact Iff.rfl

theorem inv_call (hw : Inv w) {c : Call} (hstep : step w (.call c) = some w')
    (h : Orderly w (.call c)) : Inv w' := by
  rw [orderly_call] at h
  by_cases hclosed : w.Closed = true
  · rw [step_call_closed hclosed, Option.some.injEq] at hstep
    rw [← hstep]
    exact inv_call_closed hw hclosed (h hclosed)
  · rw [Bool.not_eq_true] at hclosed
    rw [step_call_open hclosed, Option.some.injEq] at hstep
    rw [← hstep]
    exact inv_call_open hw hclosed c _

/-- A call is right exactly if it does not change what `Join` returns. -/
theorem right_call_iff (hw : Inv w) {c : Call} (hstep : step w (.call c) = some w') :
    Right w (.call c) w' ↔ Orderly w (.call c) := by
  constructor
  · intro h
    rw [orderly_call]
    intro hclosed
    rw [step_call_closed hclosed, Option.some.injEq] at hstep
    have hreturn : w'.join = some !w'.Canceled := by
      unfold ProgressWindow.join
      rw [← hstep, if_pos hclosed]
    have hjoin := h.join (!w'.Canceled) hreturn
    have happroved : w'.approved = w.Canceled := by
      rw [← hstep]
      exact (hw.closed hclosed).2.symm
    have hcanceled : w'.Canceled = decide (c = .Cancel) := by rw [← hstep]
    rw [Bool.not_eq_false', happroved, hcanceled] at hjoin
    exact (Bool.eq_iff_iff.mpr hjoin).symm
  · intro h
    have hw' := inv_call hw hstep h
    constructor
    · intro _ _ _ he
      contradiction
    · intro _ _ _ he
      contradiction
    · intro _ _ he
      contradiction
    · exact join_of_inv hw'

/-! ## Requests of the user -/

/-- The ghost of an open window says nothing. -/
theorem inv_approved (hw : Inv w) (hopen : w.Closed = false) (b : Bool) :
    Inv { w with approved := b } where
  closed := by
    intro hclosed
    exact absurd (hclosed.symm.trans hopen) (by decide)
  none_posted := hw.none_posted
  posted := hw.posted
  first := hw.first

/-- A closed window whose `Canceled` says whether `OnCancel` approved. -/
theorem inv_destroyed (w : ProgressWindow) (b : Bool) :
    Inv { w with Canceled := b, Closed := true, queue := [], approved := b } := by
  constructor
  · intro _
    exact ⟨rfl, rfl⟩
  all_goals
    intro hopen
    contradiction

theorem step_user {request : UserRequest} {verdict : Bool}
    (hstep : step w (.user request verdict) = some w') :
    w.Closed = false ∧ w' = { w.wmClose verdict with approved := w.approves verdict } := by
  unfold step at hstep
  rw [Option.ite_none_left_eq_some, wndProc_request, Option.some.injEq, Bool.not_eq_true] at hstep
  exact ⟨hstep.1, hstep.2.symm⟩

theorem inv_user (hw : Inv w) {request : UserRequest} {verdict : Bool}
    (hstep : step w (.user request verdict) = some w') : Inv w' := by
  obtain ⟨hopen, rfl⟩ := step_user hstep
  by_cases h : Refused w verdict
  · rw [wmClose_of_refused h]
    exact inv_approved hw hopen _
  · rw [wmClose_of_not_refused h, approves_of_not_refused h]
    exact inv_destroyed _ _

/-- A request of the user is always handled right. -/
theorem right_user (hw : Inv w) {request : UserRequest} {verdict : Bool}
    (hstep : step w (.user request verdict) = some w') : Right w (.user request verdict) w' := by
  have hw' := inv_user hw hstep
  obtain ⟨hopen, rfl⟩ := step_user hstep
  constructor
  · intro _ _ _ he
    contradiction
  · intro _ _ _ he
    contradiction
  · intro request' verdict' he hrefused
    rw [Event.user.injEq] at he
    rw [← he.2] at hrefused
    rw [wmClose_of_refused hrefused]
    exact ⟨hopen, rfl⟩
  · exact join_of_inv hw'

/-! ## Posted messages -/

theorem step_posted {verdict : Bool} (hstep : step w (.posted verdict) = some w') :
    w.Closed = false ∧ ∃ p queue, w.queue = p :: queue ∧
      w' = { ({ w with queue } : ProgressWindow).wmClose verdict with
        approved := decide (p.call = .Cancel) && w.approves verdict } := by
  unfold step at hstep
  rw [Option.ite_none_left_eq_some, Bool.not_eq_true] at hstep
  refine ⟨hstep.1, ?_⟩
  cases hqueue : w.queue with
  | nil =>
    rw [hqueue] at hstep
    exact absurd hstep.2 (by simp)
  | cons p queue =>
    rw [hqueue] at hstep
    exact ⟨p, queue, rfl, (Option.some.inj hstep.2).symm⟩

/-- The message of `Close` may be handled while its flag is set, that of `Cancel` unless it is
refused. -/
theorem orderly_posted {p : Posted} {queue : List Posted} (hqueue : w.queue = p :: queue)
    (verdict : Bool) :
    Orderly w (.posted verdict) ↔
      (p.call = .Close → w.UserClose = true) ∧ (p.call = .Cancel → ¬ Refused w verdict) := by
  unfold Orderly
  rw [hqueue, List.head?_cons]
  simp only [Option.mem_some_iff, forall_eq']

/-- Then the window is closed, and `Canceled` says whether `OnCancel` approved. -/
theorem posted_orderly {verdict : Bool} {p : Posted} {queue : List Posted}
    (hqueue : w.queue = p :: queue) (h : Orderly w (.posted verdict)) :
    { ({ w with queue } : ProgressWindow).wmClose verdict with
        approved := decide (p.call = .Cancel) && w.approves verdict } =
      { w with
        Canceled := !w.UserClose
        Closed := true
        queue := []
        approved := !w.UserClose } := by
  obtain ⟨hclose, hcancel⟩ := (orderly_posted hqueue verdict).mp h
  have hnot : ¬ Refused w verdict := by
    intro hrefused
    cases hcall : p.call with
    | Close => exact absurd ((hclose hcall).symm.trans hrefused.1) (by decide)
    | Cancel => exact hcancel hcall hrefused
  have happroved : (decide (p.call = .Cancel) && w.approves verdict) = !w.UserClose := by
    rw [approves_of_not_refused hnot]
    cases hcall : p.call with
    | Close =>
      rw [hclose hcall]
      rfl
    | Cancel => rfl
  rw [happroved]
  have hwm := @wmClose_of_not_refused { w with queue } verdict hnot
  rw [hwm]

theorem inv_posted {verdict : Bool} (hstep : step w (.posted verdict) = some w')
    (h : Orderly w (.posted verdict)) : Inv w' := by
  obtain ⟨_, p, queue, hqueue, rfl⟩ := step_posted hstep
  rw [posted_orderly hqueue h]
  exact inv_destroyed _ _

theorem right_of_orderly_posted {verdict : Bool} (hstep : step w (.posted verdict) = some w')
    (h : Orderly w (.posted verdict)) : Right w (.posted verdict) w' := by
  have hw' := inv_posted hstep h
  obtain ⟨_, p, queue, hqueue, rfl⟩ := step_posted hstep
  constructor
  · intro _ _ _ _ _ _
    rw [posted_orderly hqueue h]
  · intro p' queue' verdict' he hqueue' hcall hrefused
    rw [Event.posted.injEq] at he
    rw [← he] at hrefused
    exact absurd hrefused (((orderly_posted hqueue' verdict).mp h).2 hcall)
  · intro _ _ he
    contradiction
  · exact join_of_inv hw'

/-- The message of `Close`, handled without its flag, leaves the window open or lets `Join` return
that it was canceled. -/
theorem userClose_of_right {verdict : Bool} {p : Posted} {queue : List Posted}
    (hqueue : w.queue = p :: queue) (hcall : p.call = .Close) (hopen : w.Closed = false)
    (h : Right w (.posted verdict) { ({ w with queue } : ProgressWindow).wmClose verdict with
      approved := decide (p.call = .Cancel) && w.approves verdict }) : w.UserClose = true := by
  have hclosed := h.close p queue verdict rfl hqueue hcall
  by_contra huser
  rw [Bool.not_eq_true] at huser
  by_cases hrefused : Refused w verdict
  · have hwm := @wmClose_of_refused { w with queue } verdict hrefused
    rw [hwm] at hclosed
    exact absurd (hclosed.symm.trans hopen) (by decide)
  · have hwm := @wmClose_of_not_refused { w with queue } verdict hrefused
    rw [hwm] at h
    have hjoin := h.join (!(!w.UserClose)) rfl
    rw [huser, hcall] at hjoin
    have happroved : (decide (Call.Close = .Cancel) && w.approves verdict) = true := hjoin.mp rfl
    exact absurd happroved Bool.false_ne_true

/-- The message of `Cancel`, refused, leaves its flag set. -/
theorem not_refused_of_right (hw : Inv w) {verdict : Bool} {p : Posted} {queue : List Posted}
    (hqueue : w.queue = p :: queue) (hcall : p.call = .Cancel) (hopen : w.Closed = false)
    (h : Right w (.posted verdict) { ({ w with queue } : ProgressWindow).wmClose verdict with
      approved := decide (p.call = .Cancel) && w.approves verdict }) : ¬ Refused w verdict := by
  intro hrefused
  obtain ⟨_, hflags⟩ := h.cancel p queue verdict rfl hqueue hcall hrefused
  have hwm := @wmClose_of_refused { w with queue } verdict hrefused
  rw [hwm, hw.first hopen p (by rw [hqueue]; rfl) hcall] at hflags
  have hcanceled : w.Canceled = false := congrArg Flags.Canceled hflags
  rw [hw.posted hopen (by rw [hqueue]; exact List.cons_ne_nil _ _), hrefused.1] at hcanceled
  exact absurd hcanceled (by decide)

theorem right_posted_iff (hw : Inv w) {verdict : Bool}
    (hstep : step w (.posted verdict) = some w') :
    Right w (.posted verdict) w' ↔ Orderly w (.posted verdict) := by
  constructor
  · intro h
    obtain ⟨hopen, p, queue, hqueue, rfl⟩ := step_posted hstep
    rw [orderly_posted hqueue]
    constructor
    · intro hcall
      exact userClose_of_right hqueue hcall hopen h
    · intro hcall
      exact not_refused_of_right hw hqueue hcall hopen h
  · exact right_of_orderly_posted hstep

/-! ## Runs -/

theorem inv_step {e : Event} (hw : Inv w) (h : Orderly w e) (hstep : step w e = some w') :
    Inv w' := by
  cases e with
  | call c => exact inv_call hw hstep h
  | posted verdict => exact inv_posted hstep h
  | user request verdict => exact inv_user hw hstep

theorem rightStep_iff {e : Event} (hw : Inv w) (hstep : step w e = some w') :
    RightStep w e ↔ Orderly w e := by
  have hright : RightStep w e ↔ Right w e w' := by
    constructor
    · intro h
      exact h w' hstep
    · intro h w'' hstep'
      rwa [← Option.some.inj (hstep.symm.trans hstep')]
  rw [hright]
  cases e with
  | call c => exact right_call_iff hw hstep
  | posted verdict => exact right_posted_iff hw hstep
  | user request verdict => exact iff_of_true (right_user hw hstep) trivial

/-- Every request and every message of a run is handled right exactly if the message of each
`Close` finds the flag that `Close` set, no `Cancel` is refused, and no call on the closed window
changes what `Join` returns. -/
theorem cancellation_iff {onCancel : Bool} {events : List Event} {t : ProgressWindow}
    (hrun : run step (.new onCancel) events = some t) :
    EachStep step RightStep (.new onCancel) events ↔
      EachStep step Orderly (.new onCancel) events := by
  refine eachStep_iff Inv ?_ ?_ hrun (inv_new onCancel)
  · intro w e w' hw hstep
    exact rightStep_iff hw hstep
  · intro w e w' hw h hstep
    exact inv_step hw h hstep

/-- The user's first request is vetoed, a `Cancel` of the program is approved. -/
theorem cancellation_approved :
    EachStep step RightStep (.new true)
      [.user .cancelButton false, .call .Cancel, .user .closeBox false, .posted true] := by
  have hrun : run step (.new true)
      [.user .cancelButton false, .call .Cancel, .user .closeBox false, .posted true] = some
        { OnCancel := true, Canceled := true, UserClose := false, Closed := true, queue := [],
          approved := true } := by decide
  exact (cancellation_iff hrun).mpr (by decide)

/-- A `Cancel` before the message of `Close` is handled, and a veto: the window stays open. -/
theorem closeOvertaken_counterexample :
    ¬ ∀ (onCancel : Bool) (events : List Event) (w : ProgressWindow),
      run step (.new onCancel) events = some w →
        EachStep step RightStep (.new onCancel) events := by
  intro hall
  have hright := hall true [.call .Close, .call .Cancel, .posted false]
    { OnCancel := true, Canceled := true, UserClose := false, Closed := false,
      queue := [⟨.Cancel, ⟨false, true⟩⟩], approved := false } (by decide)
  obtain ⟨_, _, hposted, _⟩ := hright
  have hclosed := (hposted _ rfl).close _ _ false rfl rfl rfl
  exact absurd hclosed (by decide)

end Win32Experiments.ProgressBar.Cancellation
