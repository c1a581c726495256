import Win32Experiments.Foundation.Owners
import Win32Experiments.Foundation.Run

/-!
# `ProcessInformation`

The object closes the two handles of a process that it holds. Its move constructor leaves the base
`PROCESS_INFORMATION` without a value and then calls `Move`, which first closes what the object
holds already. `owns_iff_findsNull` says when nothing comes of it.
-/

namespace Win32Experiments.FileLockMutex

open Foundation

/-- The members of the base; a null handle is `none`. -/
structure ProcessInformation where
  hProcess : Option ℕ
  hThread : Option ℕ
  dwProcessId : ℕ
  dwThreadId : ℕ
deriving DecidableEq, Repr

namespace ProcessInformation

/-- `Win32::PROCESS_INFORMATION{}`. -/
def zero : ProcessInformation := ⟨none, none, 0, 0⟩

/-- The handles held, in the order in which `Close` closes them. -/
def handles (p : ProcessInformation) : List ℕ := p.hProcess.toList ++ p.hThread.toList

/-- `Close` in the object. -/
def close (p : ProcessInformation) : ProcessInformation :=
  { p with hProcess := none, hThread := none }

@[simp] theorem handles_zero : zero.handles = [] := rfl

@[simp] theorem handles_close (p : ProcessInformation) : p.close.handles = [] := rfl

end ProcessInformation

/-- The objects in the order of their construction, the handles, and those that `Close` found in
members without a value. -/
structure Processes where
  objects : List (Option ProcessInformation)
  handles : Handles
  uninitialised : List ℕ
deriving DecidableEq, Repr

/-- The operations. `CreateProcessW` may have filled a new object with the two identifiers;
`base` is what there is in the memory of an object that is constructed by moving. -/
inductive ProcessOperation where
  | construct (process : Option (ℕ × ℕ))
  | moveConstruct (other : ℕ) (base : ProcessInformation)
  | moveAssign (this other : ℕ)
  | destroy (this : ℕ)
deriving DecidableEq, Repr

namespace Processes

def start : Processes := ⟨[], .empty, []⟩

/-- All handles that the objects hold. -/
def held (s : Processes) : List ℕ := Foundation.held ProcessInformation.handles s.objects

/-- The object at a place, if it is alive. -/
def object (s : Processes) (this : ℕ) : Option ProcessInformation :=
  objectAt s.objects this

/-- The object at `this` becomes `p`. -/
def put (s : Processes) (this : ℕ) (p : Option ProcessInformation) : Processes :=
  { s with objects := s.objects.set this p }

/-- `Close` of the object `p` at `this`. -/
def close (s : Processes) (this : ℕ) (p : ProcessInformation) : Processes :=
  { s.put this (some p.close) with handles := s.handles.closeAll p.handles }

/-- The constructor, and `CreateProcessW`. -/
def construct (s : Processes) : Option (ℕ × ℕ) → Processes
  | none => { s with objects := s.objects ++ [some .zero] }
  | some (dwProcessId, dwThreadId) =>
    let created := s.handles.create
    { s with
      objects := s.objects ++
        [some ⟨some s.handles.opened, some created.opened, dwProcessId, dwThreadId⟩]
      handles := created.create }

/-- `Move` from `other`: the object closes what it holds and takes all of `other`. -/
def move (s : Processes) (this other : ℕ) : Option Processes :=
  (s.object this).bind fun self =>
    let s := s.close this self
    (s.object other).map fun from_ => (s.put this (some from_)).put other (some .zero)

/-- The move constructor: the base gets no value, then there is `Move`. -/
def moveConstruct (s : Processes) (other : ℕ) (base : ProcessInformation) : Option Processes :=
  let constructed : Processes :=
    { s with
      objects := s.objects ++ [some base]
      uninitialised := s.uninitialised ++ base.handles }
  if (s.object other).isSome then constructed.move s.objects.length other else none

/-- The destructor. -/
def destroy (s : Processes) (this : ℕ) : Option Processes :=
  (s.object this).map fun self => (s.close this self).put this none

/-- A step: an operation on objects that are alive. -/
def step (s : Processes) : ProcessOperation → Option Processes
  | .construct process => some (s.construct process)
  | .moveConstruct other base => s.moveConstruct other base
  | .moveAssign this other => s.move this other
  | .destroy this => s.destroy this

/-- The handles balance; `Close` on a member without a value is too much. -/
def Balanced (s : Processes) : Prop := s.handles.Balance s.held s.uninitialised []

/-- Every handle adopted is held by one object, or was closed once, and nothing else was closed. -/
def Owns (s : Processes) : Prop := s.handles.Accounts s.held

/-- The condition on a step: a move constructor finds null in the members of the base. -/
def FindsNull (_ : Processes) : ProcessOperation → Prop
  | .moveConstruct _ base => base.hProcess = none ∧ base.hThread = none
  | _ => True

/-! ## The operations balance -/

section Steps

variable {s t : Processes} {this other : ℕ} {self base : ProcessInformation}
  {process : Option (ℕ × ℕ)} {e : ProcessOperation}

/-- Replacing an object changes what is held by what the two hold. -/
theorem count_held_put (hthis : s.object this = some self) (p : Option ProcessInformation)
    (h : ℕ) :
    (s.put this p).held.count h + self.handles.count h =
      s.held.count h + (heldAt ProcessInformation.handles p).count h :=
  count_held_set hthis

theorem object_put_self (hthis : s.object this = some self) (p : Option ProcessInformation) :
    (s.put this p).object this = p :=
  objectAt_set_self hthis p

theorem object_put_ne (hne : this ≠ other) (p : Option ProcessInformation) :
    (s.put this p).object other = s.object other :=
  objectAt_set_ne hne p

theorem balanced_construct (hs : s.Balanced) (process : Option (ℕ × ℕ)) :
    (s.construct process).Balanced := by
  intro h
  have hh := hs h
  cases process with
  | none =>
    have hheld : (s.construct none).held.count h = s.held.count h + 0 := count_held_concat
    rw [hheld]
    exact hh
  | some ids =>
    have hheld : (s.construct (some ids)).held.count h =
        s.held.count h + [s.handles.opened, s.handles.create.opened].count h :=
      count_held_concat
    have hknown : (s.construct (some ids)).handles.known h =
        s.handles.known h + [s.handles.opened, s.handles.create.opened].count h :=
      Handles.known_create_create
    have hclosed : (s.construct (some ids)).handles.closed = s.handles.closed := rfl
    have hextra : (s.construct (some ids)).uninitialised = s.uninitialised := rfl
    rw [hheld, hknown, hclosed, hextra]
    omega

/-- `Close` moves handles from those held to those closed. -/
theorem balanced_close (hs : s.Balanced) (hthis : s.object this = some self) :
    (s.close this self).Balanced := by
  intro h
  have hh := hs h
  have hheld := count_held_put hthis (some self.close) h
  rw [heldAt_some, ProcessInformation.handles_close, List.count_nil] at hheld
  show (s.put this (some self.close)).held.count h +
    (s.handles.closeAll self.handles).closed.count h + _ =
      (s.handles.closeAll self.handles).known h + s.uninitialised.count h
  rw [Handles.count_closeAll, Handles.known_closeAll]
  omega

/-- Taking all of another object moves its handles. -/
theorem balanced_take (hs : s.Balanced) (hthis : s.object this = some self)
    (hempty : self.handles = []) (hother : s.object other = some base) :
    ((s.put this (some base)).put other (some .zero)).Balanced := by
  intro h
  have hh := hs h
  have hput := count_held_put hthis (some base) h
  have htaken : (s.put this (some base)).object other = some base := by
    by_cases heq : this = other
    · subst heq
      exact object_put_self hthis _
    · rw [object_put_ne heq, hother]
  have hzero := count_held_put htaken (some .zero) h
  rw [heldAt_some, ProcessInformation.handles_zero, List.count_nil] at hzero
  rw [heldAt_some, hempty, List.count_nil] at hput
  show ((s.put this (some base)).put other (some .zero)).held.count h +
    s.handles.closed.count h + _ = s.handles.known h + s.uninitialised.count h
  omega

theorem balanced_move (hs : s.Balanced) (hmove : s.move this other = some t) : t.Balanced := by
  simp only [move, Option.bind_eq_some_iff, Option.map_eq_some_iff] at hmove
  obtain ⟨self, hthis, from_, hother, rfl⟩ := hmove
  have hclosed : (s.close this self).object this = some self.close := object_put_self hthis _
  exact balanced_take (balanced_close hs hthis) hclosed (ProcessInformation.handles_close self)
    hother

/-- A move constructor balances: what `Close` finds in the new base is too much. -/
theorem balanced_moveConstruct (hs : s.Balanced)
    (hmove : s.moveConstruct other base = some t) : t.Balanced := by
  rw [moveConstruct] at hmove
  split at hmove
  · refine balanced_move ?_ hmove
    intro h
    have hh := hs h
    have hheld : (Foundation.held ProcessInformation.handles (s.objects ++ [some base])).count h =
        s.held.count h + base.handles.count h := count_held_concat
    show (Foundation.held ProcessInformation.handles (s.objects ++ [some base])).count h +
      s.handles.closed.count h + _ =
        s.handles.known h + (s.uninitialised ++ base.handles).count h
    rw [hheld, List.count_append]
    omega
  · contradiction

theorem balanced_destroy (hs : s.Balanced) (hdestroy : s.destroy this = some t) :
    t.Balanced := by
  obtain ⟨self, hthis, rfl⟩ := Option.map_eq_some_iff.mp hdestroy
  intro h
  have hh := balanced_close hs hthis h
  have hclosed : (s.close this self).object this = some self.close := object_put_self hthis _
  have hput := count_held_put hclosed none h
  rw [heldAt_none, ProcessInformation.handles_close, List.count_nil] at hput
  show ((s.close this self).put this none).held.count h +
    (s.close this self).handles.closed.count h + _ =
      (s.close this self).handles.known h + (s.close this self).uninitialised.count h
  omega

theorem balanced_step (hs : s.Balanced) (hstep : s.step e = some t) : t.Balanced := by
  cases e with
  | construct process =>
    obtain rfl := Option.some.inj hstep
    exact balanced_construct hs process
  | moveConstruct other base => exact balanced_moveConstruct hs hstep
  | moveAssign this other => exact balanced_move hs hstep
  | destroy this => exact balanced_destroy hs hstep

/-! ## What `Close` finds without a value -/

theorem uninitialised_move (hmove : s.move this other = some t) :
    t.uninitialised = s.uninitialised := by
  simp only [move, Option.bind_eq_some_iff, Option.map_eq_some_iff] at hmove
  obtain ⟨self, -, from_, -, rfl⟩ := hmove
  rfl

/-- A step finds nothing exactly if the members of a new base are null. -/
theorem uninitialised_step (hstep : s.step e = some t) :
    t.uninitialised = [] ↔ s.uninitialised = [] ∧ s.FindsNull e := by
  cases e with
  | construct process =>
    obtain rfl := Option.some.inj hstep
    cases process <;> exact (and_iff_left trivial).symm
  | moveConstruct other base =>
    simp only [step, moveConstruct] at hstep
    split at hstep
    · rw [uninitialised_move hstep, List.append_eq_nil_iff, FindsNull,
        ProcessInformation.handles, List.append_eq_nil_iff, Option.toList_eq_nil_iff,
        Option.toList_eq_nil_iff]
    · contradiction
  | moveAssign this other =>
    rw [uninitialised_move hstep]
    exact (and_iff_left trivial).symm
  | destroy this =>
    obtain ⟨self, -, rfl⟩ := Option.map_eq_some_iff.mp hstep
    exact (and_iff_left trivial).symm

/-- The objects own the handles exactly if `Close` has found nothing without a value. -/
theorem Balanced.owns_iff_uninitialised (hs : s.Balanced) : s.Owns ↔ s.uninitialised = [] := by
  rw [Owns, Handles.Balance.accounts_iff hs]
  simp only [List.count_nil, List.count_eq_zero]
  exact List.eq_nil_iff_forall_not_mem.symm

end Steps

/-- **Owning.** Behind every run the objects own the handles adopted exactly if every move
constructor found null in its base; and when all objects are destroyed, each handle was closed
exactly once, and nothing else, under the same condition. -/
theorem owns_iff_findsNull (operations : List ProcessOperation) {t : Processes}
    (hrun : run step start operations = some t) :
    (t.Owns ↔ EachStep step FindsNull start operations) ∧
      ((∀ object ∈ t.objects, object = none) →
        (t.handles.EachClosedOnce ↔ EachStep step FindsNull start operations)) := by
  have hrule := run_iff Balanced (fun s => s.uninitialised = [])
    (fun s e t hs _ hstep => balanced_step hs hstep)
    (fun s e t _ _ hstep => uninitialised_step hstep)
    (eachStep_true) hrun Handles.balance_empty
  obtain ⟨hbalanced, hfound⟩ := hrule
  have howns : t.Owns ↔ EachStep step FindsNull start operations := by
    rw [hbalanced.owns_iff_uninitialised, hfound]
    exact and_iff_right rfl
  refine ⟨howns, ?_⟩
  intro hdestroyed
  rw [← howns, Owns, held, held_eq_nil hdestroyed, Handles.accounts_nil_iff]

/-- A process object that is returned by moving into cleared memory. -/
def returnsCleared : List ProcessOperation :=
  [.construct (some (7, 8)), .moveConstruct 0 .zero, .destroy 0, .moveAssign 1 1]

theorem owns_returnsCleared : ∃ t, run step start returnsCleared = some t ∧ t.Owns := by
  refine ⟨_, rfl, ?_⟩
  have howns := (owns_iff_findsNull returnsCleared rfl).1
  exact howns.mpr ⟨trivial, ⟨rfl, rfl⟩, trivial, trivial, trivial⟩

/-- The same with a value left in the new base. -/
theorem not_owns_uninitialised :
    ∃ t, run step start [.construct none, .moveConstruct 0 ⟨some 5, none, 0, 0⟩] = some t ∧
      ¬ t.Owns := by
  refine ⟨_, rfl, ?_⟩
  intro howns
  have hfive := howns 5
  contradiction

end Processes

end Win32Experiments.FileLockMutex
