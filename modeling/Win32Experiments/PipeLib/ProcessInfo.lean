import Win32Experiments.Foundation.Owners
import Win32Experiments.Foundation.Run

/-!
# `ProcessInfo`

The destructor closes the handles of the process. The move constructor and the move assignment are
defaulted, and the base `PROCESS_INFORMATION` is a plain structure: a move copies the handles and
leaves them where they were, and an assignment forgets what the object held.

`owns_throughout_iff` says in which runs every handle has one owner all the time, and for a run to
the end when each is closed once all the same.
-/

namespace Win32Experiments.PipeLib

open Foundation

/-- The members of the base; a null handle is `none`. -/
structure ProcessInfo where
  hProcess : Option ℕ
  hThread : Option ℕ
  dwProcessId : ℕ
  dwThreadId : ℕ
deriving DecidableEq, Repr

/-- `PROCESS_INFORMATION{ 0 }`. -/
def ProcessInfo.zero : ProcessInfo := ⟨none, none, 0, 0⟩

/-- The handles held, in the order in which `Close` closes them. -/
def ProcessInfo.handles (p : ProcessInfo) : List ℕ := p.hThread.toList ++ p.hProcess.toList

/-- The objects in the order of their construction, and the handles. Those that moves copied and
those that assignments overwrote are recorded. -/
structure Infos where
  objects : List (Option ProcessInfo)
  handles : Handles
  copied : List ℕ
  overwritten : List ℕ
deriving DecidableEq, Repr

/-- The operations. `CreateProcess` may have filled a new object with the two identifiers. -/
inductive InfoOperation where
  | create (process : Option (ℕ × ℕ))
  | moveConstruct (other : ℕ)
  | moveAssign (this other : ℕ)
  | destroy (this : ℕ)
deriving DecidableEq, Repr

namespace Infos

def start : Infos := ⟨[], .empty, [], []⟩

/-- All handles that the objects hold. -/
def held (s : Infos) : List ℕ := Foundation.held ProcessInfo.handles s.objects

/-- The object at a place, if it is alive. -/
def object (s : Infos) (this : ℕ) : Option ProcessInfo := objectAt s.objects this

/-- The constructor, and `CreateProcess`. -/
def create (s : Infos) : Option (ℕ × ℕ) → Infos
  | none => { s with objects := s.objects ++ [some .zero] }
  | some (dwProcessId, dwThreadId) =>
    let created := s.handles.create
    { s with
      objects := s.objects ++
        [some ⟨some s.handles.opened, some created.opened, dwProcessId, dwThreadId⟩]
      handles := created.create }

/-- The defaulted move constructor. -/
def moveConstruct (s : Infos) (other : ProcessInfo) : Infos :=
  { s with objects := s.objects ++ [some other], copied := s.copied ++ other.handles }

/-- The defaulted move assignment, to the object `self` at `this`. -/
def moveAssign (s : Infos) (this : ℕ) (self other : ProcessInfo) : Infos :=
  { s with
    objects := s.objects.set this (some other)
    copied := s.copied ++ other.handles
    overwritten := s.overwritten ++ self.handles }

/-- The destructor, with `Close`. -/
def destroy (s : Infos) (this : ℕ) (self : ProcessInfo) : Infos :=
  { s with
    objects := s.objects.set this none
    handles := s.handles.closeAll self.handles }

/-- A step: an operation on objects that are alive. -/
def step (s : Infos) : InfoOperation → Option Infos
  | .create process => some (s.create process)
  | .moveConstruct other => (s.object other).map s.moveConstruct
  | .moveAssign this other =>
    (s.object this).bind fun self => (s.object other).map (s.moveAssign this self)
  | .destroy this => (s.object this).map (s.destroy this)

/-- Every handle is held by one object, or was closed once. -/
def Owns (s : Infos) : Prop := s.handles.Accounts s.held

/-- The object at a place holds nothing. -/
def Empty (s : Infos) (this : ℕ) : Prop := ∀ p, s.object this = some p → p.handles = []

/-- The condition on a step: nothing is moved out of an object with handles, and nothing onto one,
except for an assignment to itself. -/
def MovesNothing (s : Infos) : InfoOperation → Prop
  | .moveConstruct other => s.Empty other
  | .moveAssign this other => this = other ∨ s.Empty this ∧ s.Empty other
  | _ => True

section Steps

variable {s t : Infos} {this other : ℕ} {self p : ProcessInfo} {process : Option (ℕ × ℕ)}
  {e : InfoOperation}

theorem empty_iff (hthis : s.object this = some self) : s.Empty this ↔ self.handles = [] := by
  constructor
  · intro hempty
    exact hempty self hthis
  · intro hnil p hp
    rw [hthis, Option.some.injEq] at hp
    exact hp ▸ hnil

/-! ## What a step does to the counts -/

theorem held_create (s : Infos) (process : Option (ℕ × ℕ)) (h : ℕ) :
    (s.create process).held.count h + s.handles.known h =
      s.held.count h + (s.create process).handles.known h := by
  cases process with
  | none =>
    have hheld : (s.create none).held.count h = s.held.count h + 0 := count_held_concat
    have hknown : (s.create none).handles.known h = s.handles.known h := rfl
    omega
  | some ids =>
    have hheld : (s.create (some ids)).held.count h =
        s.held.count h + [s.handles.create.opened, s.handles.opened].count h :=
      count_held_concat
    have hperm : [s.handles.create.opened, s.handles.opened].count h =
        [s.handles.opened, s.handles.create.opened].count h :=
      (List.Perm.swap _ _ []).count_eq h
    have hknown : (s.create (some ids)).handles.known h =
        s.handles.known h + [s.handles.opened, s.handles.create.opened].count h :=
      Handles.known_create_create
    omega

theorem closed_create (s : Infos) (process : Option (ℕ × ℕ)) :
    (s.create process).handles.closed = s.handles.closed := by
  cases process <;> rfl

theorem held_moveConstruct (s : Infos) (p : ProcessInfo) (h : ℕ) :
    (s.moveConstruct p).held.count h = s.held.count h + p.handles.count h :=
  count_held_concat

theorem held_moveAssign (hthis : s.object this = some self) (p : ProcessInfo) (h : ℕ) :
    (s.moveAssign this self p).held.count h + self.handles.count h =
      s.held.count h + p.handles.count h :=
  count_held_set hthis

theorem held_destroy (hthis : s.object this = some self) (h : ℕ) :
    (s.destroy this self).held.count h + self.handles.count h = s.held.count h :=
  count_held_set hthis

/-! ## The balance of a run -/

/-- What moves copied is too much, what assignments overwrote is lost. -/
def Balanced (s : Infos) : Prop := s.handles.Balance s.held s.copied s.overwritten

theorem balanced_step (hs : s.Balanced) (hstep : s.step e = some t) : t.Balanced := by
  intro h
  have hh := hs h
  cases e with
  | create process =>
    obtain rfl := Option.some.inj hstep
    have hheld := held_create s process h
    have hcopied : (s.create process).copied = s.copied := by cases process <;> rfl
    have hlost : (s.create process).overwritten = s.overwritten := by cases process <;> rfl
    rw [closed_create, hcopied, hlost]
    omega
  | moveConstruct other =>
    obtain ⟨p, -, rfl⟩ := Option.map_eq_some_iff.mp hstep
    have hheld := held_moveConstruct s p h
    show _ + s.handles.closed.count h + s.overwritten.count h =
      s.handles.known h + (s.copied ++ p.handles).count h
    rw [List.count_append]
    omega
  | moveAssign this other =>
    simp only [step, Option.bind_eq_some_iff, Option.map_eq_some_iff] at hstep
    obtain ⟨self, hthis, p, -, rfl⟩ := hstep
    have hheld := held_moveAssign hthis p h
    show _ + s.handles.closed.count h + (s.overwritten ++ self.handles).count h =
      s.handles.known h + (s.copied ++ p.handles).count h
    rw [List.count_append, List.count_append]
    omega
  | destroy this =>
    obtain ⟨self, hthis, rfl⟩ := Option.map_eq_some_iff.mp hstep
    have hheld := held_destroy hthis h
    show _ + (s.handles.closeAll self.handles).closed.count h + s.overwritten.count h =
      (s.handles.closeAll self.handles).known h + s.copied.count h
    rw [Handles.count_closeAll, Handles.known_closeAll]
    omega

/-! ## Steps that keep every handle in one hand -/

/-- A step that moves nothing leaves every handle with its owner. -/
theorem owns_step (hs : s.Owns) (hmoves : s.MovesNothing e) (hstep : s.step e = some t) :
    t.Owns := by
  refine Handles.Accounts.of_counts hs fun h => ?_
  cases e with
  | create process =>
    obtain rfl := Option.some.inj hstep
    have hheld := held_create s process h
    rw [closed_create]
    omega
  | moveConstruct other =>
    obtain ⟨p, hother, rfl⟩ := Option.map_eq_some_iff.mp hstep
    have hheld := held_moveConstruct s p h
    rw [(empty_iff hother).mp hmoves, List.count_nil] at hheld
    show _ + s.handles.closed.count h + s.handles.known h =
      s.held.count h + s.handles.closed.count h + s.handles.known h
    omega
  | moveAssign this other =>
    simp only [step, Option.bind_eq_some_iff, Option.map_eq_some_iff] at hstep
    obtain ⟨self, hthis, p, hother, rfl⟩ := hstep
    have hheld := held_moveAssign hthis p h
    have hsame : self.handles.count h = p.handles.count h := by
      rcases hmoves with rfl | ⟨hempty, hempty'⟩
      · rw [hthis, Option.some.injEq] at hother
        rw [hother]
      · rw [(empty_iff hthis).mp hempty, (empty_iff hother).mp hempty']
    show _ + s.handles.closed.count h + s.handles.known h =
      s.held.count h + s.handles.closed.count h + s.handles.known h
    omega
  | destroy this =>
    obtain ⟨self, hthis, rfl⟩ := Option.map_eq_some_iff.mp hstep
    have hheld := held_destroy hthis h
    show _ + (s.handles.closeAll self.handles).closed.count h + s.handles.known h =
      s.held.count h + s.handles.closed.count h + (s.handles.closeAll self.handles).known h
    rw [Handles.count_closeAll, Handles.known_closeAll]
    omega

/-- A copied handle has two owners. -/
theorem not_owns_moveConstruct (hs : s.Owns) (hp : p.handles ≠ []) :
    ¬ (s.moveConstruct p).Owns := by
  intro ht
  obtain ⟨h, hmem⟩ := List.exists_mem_of_ne_nil _ hp
  have hpos : 0 < p.handles.count h := List.count_pos_iff.mpr hmem
  have hheld := held_moveConstruct s p h
  have hs' := hs h
  have ht' : (s.moveConstruct p).held.count h + s.handles.closed.count h =
      if h < s.handles.opened then 1 else 0 := ht h
  omega

/-- Moving between two objects, one of which holds something, leaves a handle with two owners or
with none. -/
theorem not_owns_moveAssign (hs : s.Owns) (hne : this ≠ other) (hthis : s.object this = some self)
    (hother : s.object other = some p) (hhandles : self.handles ≠ [] ∨ p.handles ≠ []) :
    ¬ (s.moveAssign this self p).Owns := by
  intro ht
  have hsame : ∀ h, self.handles.count h = p.handles.count h := by
    intro h
    have hheld := held_moveAssign hthis p h
    have hs' := hs h
    have ht' : (s.moveAssign this self p).held.count h + s.handles.closed.count h =
        if h < s.handles.opened then 1 else 0 := ht h
    omega
  have hnone : ∀ h, self.handles.count h = 0 ∧ p.handles.count h = 0 := by
    intro h
    have htwo : self.handles.count h + p.handles.count h ≤ s.held.count h :=
      count_add_le_held hne hthis hother
    have hs' := hs h
    have hknown := s.handles.known_le_one (h := h)
    rw [Handles.known] at hknown
    have hsame' := hsame h
    omega
  rcases hhandles with hself | hp
  · obtain ⟨h, hmem⟩ := List.exists_mem_of_ne_nil _ hself
    exact Nat.ne_of_gt (List.count_pos_iff.mpr hmem) (hnone h).1
  · obtain ⟨h, hmem⟩ := List.exists_mem_of_ne_nil _ hp
    exact Nat.ne_of_gt (List.count_pos_iff.mpr hmem) (hnone h).2

theorem not_owns_step (hs : s.Owns) (hmoves : ¬ s.MovesNothing e) (hstep : s.step e = some t) :
    ¬ t.Owns := by
  cases e with
  | create process => exact absurd trivial hmoves
  | moveConstruct other =>
    obtain ⟨p, hother, rfl⟩ := Option.map_eq_some_iff.mp hstep
    rw [MovesNothing, empty_iff hother] at hmoves
    exact not_owns_moveConstruct hs hmoves
  | moveAssign this other =>
    simp only [step, Option.bind_eq_some_iff, Option.map_eq_some_iff] at hstep
    obtain ⟨self, hthis, p, hother, rfl⟩ := hstep
    rw [MovesNothing, empty_iff hthis, empty_iff hother, not_or, not_and_or] at hmoves
    exact not_owns_moveAssign hs hmoves.1 hthis hother hmoves.2
  | destroy this => exact absurd trivial hmoves

/-! ## The balance at the end -/

/-- When all objects are destroyed, each handle was closed once exactly if it was copied as often
as it was overwritten. -/
theorem Balanced.eachClosedOnce_iff (ht : t.Balanced)
    (hdestroyed : ∀ object ∈ t.objects, object = none) :
    t.handles.EachClosedOnce ↔ ∀ h, t.copied.count h = t.overwritten.count h := by
  rw [← Handles.Balance.accounts_iff ht, held, held_eq_nil hdestroyed, Handles.accounts_nil_iff]

end Steps

/-- **Owning.** At every point of a run each handle has one owner, or was closed once, exactly if
every step moved nothing. A whole run that moves handles closes each once all the same exactly if
assignments overwrote each handle as often as moves copied it. -/
theorem owns_throughout_iff (operations : List InfoOperation) {t : Infos}
    (hrun : run step start operations = some t) :
    ((∀ operations' u, operations' <+: operations → run step start operations' = some u →
        u.Owns) ↔ EachStep step MovesNothing start operations) ∧
      ((∀ object ∈ t.objects, object = none) →
        (t.handles.EachClosedOnce ↔ ∀ h, t.copied.count h = t.overwritten.count h)) := by
  refine ⟨?_, ?_⟩
  · exact forall_prefix_iff Owns Owns (fun s hs => hs)
      (fun s e t hs hmoves hstep => owns_step hs hmoves hstep)
      (fun s e t hs hmoves hstep => not_owns_step hs hmoves hstep)
      hrun Handles.accounts_empty
  · have hbalanced : t.Balanced :=
      run_invariant Balanced (fun s e t hs hstep => balanced_step hs hstep) hrun
        Handles.balance_empty
    exact hbalanced.eachClosedOnce_iff

/-- A process whose object is destroyed, with an assignment to itself before. -/
theorem owns_throughout_self :
    ∃ t, run step start [.create (some (7, 8)), .moveAssign 0 0, .destroy 0] = some t ∧
      t.Owns := by
  refine ⟨_, rfl, ?_⟩
  have hall := (owns_throughout_iff [.create (some (7, 8)), .moveAssign 0 0, .destroy 0] rfl).1
  exact hall.mpr ⟨trivial, Or.inl rfl, trivial, trivial⟩ _ _ List.prefix_rfl rfl

/-- An object moved into another one: both close the handles. -/
theorem not_eachClosedOnce_moved :
    ∃ t, run step start [.create (some (7, 8)), .moveConstruct 0, .destroy 1, .destroy 0] =
        some t ∧ (∀ object ∈ t.objects, object = none) ∧ ¬ t.handles.EachClosedOnce := by
  refine ⟨_, rfl, by decide, ?_⟩
  intro hclosed
  have hfirst := hclosed 0
  contradiction

end Infos

end Win32Experiments.PipeLib
