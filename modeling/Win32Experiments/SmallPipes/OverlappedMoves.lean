import Win32Experiments.Foundation.Owners

/-!
# The moves of `Overlapped`

The move constructor and the move assignment of `Overlapped` call `std::swap`, and `std::swap` of
two objects is a move construction and two move assignments. `exec` carries the three out within a
number of nested calls, and `exec_eq_none` says that no number is enough.

`completes_iff` is what is left: a sequence of operations comes to its end, and owns its events,
exactly if nothing is moved.
-/

namespace Win32Experiments.SmallPipes.OverlappedMoves

open Foundation

/-- The member of the base that the moves are about; a null handle is `none`. -/
structure Overlapped where
  hEvent : Option ℕ
deriving DecidableEq, Repr

/-- The handle held. -/
def Overlapped.handles (o : Overlapped) : List ℕ := o.hEvent.toList

/-- The objects in the order of their construction, and the event handles. -/
structure Events where
  objects : List (Option Overlapped)
  handles : Handles
deriving DecidableEq, Repr

namespace Events

def start : Events := ⟨[], .empty⟩

/-- All events that the objects hold. -/
def held (s : Events) : List ℕ := Foundation.held Overlapped.handles s.objects

/-- The object at a place, if it is alive. -/
def object (s : Events) (this : ℕ) : Option Overlapped := objectAt s.objects this

/-- The place of the next object. -/
def next (s : Events) : ℕ := s.objects.length

/-- An object whose base has got no value yet: `hEvent` is what there was in its memory. -/
def push (s : Events) (hEvent : Option ℕ) : Events :=
  { s with objects := s.objects ++ [some ⟨hEvent⟩] }

/-- The constructor, when `CreateEventW` succeeds; it throws otherwise, and there is no object. -/
def construct (s : Events) (created : Bool) : Events :=
  if created then { s.push (some s.handles.opened) with handles := s.handles.create } else s

/-- `Close` of the object `self` at `this`. -/
def close (s : Events) (this : ℕ) (self : Overlapped) : Events where
  objects := s.objects.set this (some ⟨none⟩)
  handles := s.handles.closeAll self.handles

/-- The destructor, with `Close`. -/
def destroy (s : Events) (this : ℕ) (self : Overlapped) : Events :=
  { s.close this self with objects := (s.close this self).objects.set this none }

end Events

/-- The functions that call one another. The new object of a move construction has its place
already, with a base that has no value. -/
inductive Call where
  | moveConstruct (this other : ℕ)
  | moveAssign (this other : ℕ)
  | swap (left right : ℕ)
deriving DecidableEq, Repr

/-- A call, with at most so many calls nested. `std::swap` moves its left argument to a temporary
object, the right one to the left one, the temporary object to the right one, and destroys it. -/
def exec (memory : Option ℕ) : ℕ → Call → Events → Option Events
  | 0, _, _ => none
  | depth + 1, .moveConstruct this other, s => exec memory depth (.swap this other) s
  | depth + 1, .moveAssign this other, s => exec memory depth (.swap this other) s
  | depth + 1, .swap left right, s =>
    (exec memory depth (.moveConstruct s.next left) (s.push memory)).bind fun s₁ =>
    (exec memory depth (.moveAssign left right) s₁).bind fun s₂ =>
    (exec memory depth (.moveAssign right s.next) s₂).bind fun s₃ =>
    (s₃.object s.next).map (s₃.destroy s.next)

/-- A call returns. -/
def Terminates (memory : Option ℕ) (call : Call) (s : Events) : Prop :=
  ∃ depth t, exec memory depth call s = some t

/-- **No move returns.** By induction on the number of nested calls: each of the three functions
first calls another one. -/
theorem exec_eq_none (memory : Option ℕ) (depth : ℕ) (call : Call) (s : Events) :
    exec memory depth call s = none := by
  induction depth generalizing call s with
  | zero => rfl
  | succ depth ih =>
    cases call with
    | moveConstruct this other => exact ih (.swap this other) s
    | moveAssign this other => exact ih (.swap this other) s
    | swap left right => rw [exec, ih, Option.bind_none]

theorem not_terminates (memory : Option ℕ) (call : Call) (s : Events) :
    ¬ Terminates memory call s := by
  rintro ⟨depth, t, hexec⟩
  rw [exec_eq_none] at hexec
  contradiction

/-! ## Sequences of operations -/

/-- The operations on the objects; `memory` is what a move construction finds. -/
inductive Operation where
  | construct (created : Bool)
  | moveConstruct (other : ℕ) (memory : Option ℕ)
  | moveAssign (this other : ℕ) (memory : Option ℕ)
  | close (this : ℕ)
  | destroy (this : ℕ)
deriving DecidableEq, Repr

/-- The operation moves an object. -/
def Operation.moves : Operation → Bool
  | .moveConstruct _ _ => true
  | .moveAssign _ _ _ => true
  | _ => false

/-- An operation, with at most so many calls nested. -/
def Events.step (depth : ℕ) (s : Events) : Operation → Option Events
  | .construct created => some (s.construct created)
  | .moveConstruct other memory =>
    exec memory depth (.moveConstruct s.next other) (s.push memory)
  | .moveAssign this other memory => exec memory depth (.moveAssign this other) s
  | .close this => (s.object this).map (s.close this)
  | .destroy this => (s.object this).map (s.destroy this)

/-- The operations one after the other. -/
def Events.run (depth : ℕ) (s : Events) : List Operation → Option Events
  | [] => some s
  | operation :: operations => (s.step depth operation).bind fun t => t.run depth operations

/-- What an operation leaves alive, by the places. -/
def Operation.alive (alive : List Bool) : Operation → Option (List Bool)
  | .construct created => some (if created then alive ++ [true] else alive)
  | .moveConstruct other _ => if alive[other]? = some true then some (alive ++ [true]) else none
  | .moveAssign this other _ =>
    if alive[this]? = some true ∧ alive[other]? = some true then some alive else none
  | .close this => if alive[this]? = some true then some alive else none
  | .destroy this => if alive[this]? = some true then some (alive.set this false) else none

/-- Each operation of a sequence is on objects that are alive. -/
def WellFormed : List Bool → List Operation → Prop
  | _, [] => True
  | alive, operation :: operations =>
    match operation.alive alive with
    | none => False
    | some alive => WellFormed alive operations

/-- The sequence comes to its end, and each event is then held by one object, or was closed once. -/
def Completes (operations : List Operation) : Prop :=
  ∃ depth t, Events.run depth .start operations = some t ∧ t.handles.Accounts t.held

section Sequences

variable {s t : Events} {this depth : ℕ} {self : Overlapped} {alive' : List Bool}
  {operation : Operation} {operations : List Operation}

/-- A sequence that comes to its end moves nothing. -/
theorem moves_of_run (hrun : s.run depth operations = some t) :
    ∀ operation ∈ operations, operation.moves = false := by
  induction operations generalizing s with
  | nil => exact List.forall_mem_nil _
  | cons operation operations ih =>
    obtain ⟨u, hstep, hrest⟩ := Option.bind_eq_some_iff.mp hrun
    rw [List.forall_mem_cons]
    refine ⟨?_, ih hrest⟩
    cases operation with
    | construct created => rfl
    | moveConstruct other memory =>
      rw [Events.step, exec_eq_none] at hstep
      contradiction
    | moveAssign this other memory =>
      rw [Events.step, exec_eq_none] at hstep
      contradiction
    | close this => rfl
    | destroy this => rfl

/-! ## Sequences without moves -/

/-- The places alive in a state. -/
def Events.living (s : Events) : List Bool := s.objects.map Option.isSome

theorem exists_of_living (halive : s.living[this]? = some true) :
    ∃ self, s.object this = some self := by
  rw [Events.living, List.getElem?_map, Option.map_eq_some_iff] at halive
  obtain ⟨object, hobject, hsome⟩ := halive
  obtain ⟨self, rfl⟩ := Option.isSome_iff_exists.mp hsome
  exact ⟨self, objectAt_eq_some.mpr hobject⟩

/-- The objects account for the events. -/
def Events.Owns (s : Events) : Prop := s.handles.Accounts s.held

theorem owns_construct (hs : s.Owns) (created : Bool) : (s.construct created).Owns := by
  cases created with
  | false => exact hs
  | true =>
    refine Handles.Accounts.of_counts hs fun h => ?_
    have hheld : (s.construct true).held.count h = s.held.count h + [s.handles.opened].count h :=
      count_held_concat
    have hknown : (s.construct true).handles.known h =
        s.handles.known h + [s.handles.opened].count h := Handles.known_create
    have hclosed : (s.construct true).handles.closed = s.handles.closed := rfl
    rw [hclosed]
    omega

theorem living_construct (s : Events) (created : Bool) :
    (s.construct created).living = if created then s.living ++ [true] else s.living := by
  cases created with
  | false => rfl
  | true => exact List.map_append

/-- `Close` moves the event from those held to those closed. -/
theorem owns_close (hs : s.Owns) (hthis : s.object this = some self) :
    (s.close this self).Owns := by
  refine Handles.Accounts.of_counts hs fun h => ?_
  have hheld : (s.close this self).held.count h + self.handles.count h = s.held.count h + 0 :=
    count_held_set hthis
  show _ + (s.handles.closeAll self.handles).closed.count h + s.handles.known h =
    s.held.count h + s.handles.closed.count h + (s.handles.closeAll self.handles).known h
  rw [Handles.count_closeAll, Handles.known_closeAll]
  omega

theorem object_close (hthis : s.object this = some self) :
    (s.close this self).object this = some ⟨none⟩ :=
  objectAt_set_self hthis _

theorem living_close (hthis : s.living[this]? = some true) :
    (s.close this self).living = s.living := by
  obtain ⟨hlt, htrue⟩ := List.getElem?_eq_some_iff.mp hthis
  have hset : (s.close this self).living = s.living.set this true := List.map_set
  rw [hset, ← htrue, List.set_getElem_self]

theorem owns_destroy (hs : s.Owns) (hthis : s.object this = some self) :
    (s.destroy this self).Owns := by
  refine Handles.Accounts.of_counts (owns_close hs hthis) fun h => ?_
  have hheld : (s.destroy this self).held.count h + 0 = (s.close this self).held.count h + 0 :=
    count_held_set (object_close hthis)
  have hhandles : (s.destroy this self).handles = (s.close this self).handles := rfl
  rw [hhandles]
  omega

theorem living_destroy (hthis : s.living[this]? = some true) :
    (s.destroy this self).living = s.living.set this false := by
  have hset : (s.destroy this self).living = (s.close this self).living.set this false :=
    List.map_set
  rw [hset, living_close hthis]

/-- An operation on living objects that moves nothing is carried out. -/
theorem step_of_alive (depth : ℕ) (hs : s.Owns)
    (halive : operation.alive s.living = some alive') (hmoves : operation.moves = false) :
    ∃ t, s.step depth operation = some t ∧ t.Owns ∧ t.living = alive' := by
  cases operation with
  | construct created =>
    refine ⟨_, rfl, owns_construct hs created, ?_⟩
    rw [living_construct]
    exact Option.some.inj halive
  | moveConstruct other memory => contradiction
  | moveAssign this other memory => contradiction
  | close this =>
    obtain ⟨hthis, hsame⟩ := Option.ite_none_right_eq_some.mp halive
    obtain ⟨self, hself⟩ := exists_of_living hthis
    refine ⟨s.close this self, ?_, owns_close hs hself, ?_⟩
    · rw [Events.step, hself, Option.map_some]
    · rw [living_close hthis]
      exact Option.some.inj hsame
  | destroy this =>
    obtain ⟨hthis, hset⟩ := Option.ite_none_right_eq_some.mp halive
    obtain ⟨self, hself⟩ := exists_of_living hthis
    refine ⟨s.destroy this self, ?_, owns_destroy hs hself, ?_⟩
    · rw [Events.step, hself, Option.map_some]
    · rw [living_destroy hthis]
      exact Option.some.inj hset

/-- A sequence without moves comes to its end, and the events are owned. -/
theorem run_of_wellFormed (depth : ℕ) (hs : s.Owns)
    (hwell : WellFormed s.living operations)
    (hmoves : ∀ operation ∈ operations, operation.moves = false) :
    ∃ t, s.run depth operations = some t ∧ t.Owns := by
  induction operations generalizing s with
  | nil => exact ⟨s, rfl, hs⟩
  | cons operation operations ih =>
    rw [List.forall_mem_cons] at hmoves
    rw [WellFormed] at hwell
    split at hwell
    · contradiction
    · rename_i alive' halive
      obtain ⟨u, hstep, hu, hliving⟩ := step_of_alive depth hs halive hmoves.1
      obtain ⟨t, hrun, ht⟩ := ih hu (hliving ▸ hwell) hmoves.2
      refine ⟨t, ?_, ht⟩
      rw [Events.run, hstep, Option.bind_some, hrun]

end Sequences

/-- **The moves of `Overlapped`.** No move construction and no move assignment returns, whatever
the two objects hold; and a sequence of operations on living objects comes to its end, with every
event held by one object or closed once, exactly if it moves nothing. -/
theorem completes_iff (operations : List Operation) (hwell : WellFormed [] operations) :
    (∀ memory this other s, ¬ Terminates memory (.moveConstruct this other) s ∧
        ¬ Terminates memory (.moveAssign this other) s) ∧
      (Completes operations ↔ ∀ operation ∈ operations, operation.moves = false) := by
  refine ⟨fun memory this other s => ⟨not_terminates memory _ s, not_terminates memory _ s⟩, ?_⟩
  constructor
  · rintro ⟨depth, t, hrun, -⟩
    exact moves_of_run hrun
  · intro hmoves
    have hstart : Events.start.Owns := Handles.accounts_empty
    obtain ⟨t, hrun, ht⟩ := run_of_wellFormed 0 hstart hwell hmoves
    exact ⟨0, t, hrun, ht⟩

/-- Two objects that are not moved. -/
theorem completes_two :
    Completes [.construct true, .construct true, .close 0, .destroy 1, .destroy 0] :=
  (completes_iff [.construct true, .construct true, .close 0, .destroy 1, .destroy 0]
    (by simp [WellFormed, Operation.alive])).2.mpr (by decide)

/-- An object that is moved to a new one. -/
theorem not_completes_move : ¬ Completes [.construct true, .moveConstruct 0 none] := by
  rintro ⟨depth, t, hrun, -⟩
  have hmoves := moves_of_run hrun
  exact absurd hmoves (by decide)

end Win32Experiments.SmallPipes.OverlappedMoves
