import Win32Experiments.Foundation.Handles
import Win32Experiments.Foundation.Run

/-!
# `WorkerThread`

A thread waits for its exit event in an alertable wait, and runs the closures that others queue
for it as APCs. `Schedule` gives a closure on the heap away to the queue, whatever `QueueUserAPC`
returns, and `Run` leaves its loop when the wait returns the event, whatever is queued.

`served_iff` says in which runs every closure scheduled in time is served.
-/

namespace Win32Experiments.WaitableTimers

open Foundation

/-- Where the thread is in `Run`. It takes APCs in the wait, which returns `WAIT_IO_COMPLETION`
behind them. -/
inductive Worker where
  | waiting
  | delivering
  | left
deriving DecidableEq, Repr

/-- The thread, its APC queue, its exit event and the closures. A closure is named by the number
of those scheduled before it; `heap` holds those allocated and those deleted. -/
structure State where
  worker : Worker
  exitSet : Bool
  queue : List ℕ
  heap : Handles
  ran : List ℕ
  /-- Closures that `QueueUserAPC` did not take. -/
  refused : List ℕ
  /-- The number of closures scheduled before the first signal. -/
  signalled : Option ℕ
  /-- How often the thread left the loop. -/
  leaves : ℕ
  joined : Bool
deriving DecidableEq, Repr

/-- Behind `Start`. -/
def State.start : State where
  worker := .waiting
  exitSet := false
  queue := []
  heap := .empty
  ran := []
  refused := []
  signalled := none
  leaves := 0
  joined := false

/-- `Schedule`, with what `QueueUserAPC` says. -/
def State.schedule (s : State) (queued : Bool) : State :=
  { s with
    heap := s.heap.create
    queue := if queued then s.queue ++ [s.heap.opened] else s.queue
    refused := if queued then s.refused else s.heap.opened :: s.refused }

/-- `SetEvent` in `SignalToExit` and in the destructor. -/
def State.signalToExit (s : State) : State :=
  { s with exitSet := true, signalled := s.signalled.or (some s.heap.opened) }

/-- `ExecuteAPC2`, which invokes the closure and deletes it. -/
def State.executeApc (s : State) (fn : ℕ) (rest : List ℕ) : State :=
  { s with
    worker := .delivering
    queue := rest
    ran := fn :: s.ran
    heap := s.heap.close fn }

/-- The wait returns the event, which resets, and `Run` returns. -/
def State.leave (s : State) : State :=
  { s with worker := .left, exitSet := false, leaves := s.leaves + 1 }

/-- What happens next. The destructor is `signalToExit` with `join` after it. -/
inductive Label where
  | schedule (queued : Bool)
  | signalToExit
  | executeApc
  | waitIoCompletion
  | waitObject0
  | join
deriving DecidableEq, Repr

/-- One step of the thread or of another one. A wait without a time limit on this event ends in no
other way; a thread that has ended takes no APC. -/
def step (s : State) : Label → Option State
  | .schedule queued =>
    if queued = true ∧ s.joined = true then none else some (s.schedule queued)
  | .signalToExit => some s.signalToExit
  | .executeApc =>
    match s.queue with
    | [] => none
    | fn :: rest => if s.worker = .left then none else some (s.executeApc fn rest)
  | .waitIoCompletion =>
    if s.worker = .delivering then some { s with worker := .waiting } else none
  | .waitObject0 => if s.worker = .waiting ∧ s.exitSet = true then some s.leave else none
  | .join => if s.worker = .left then some { s with joined := true } else none

/-! ## What serving is -/

/-- The closure was scheduled before the first signal. -/
def State.InTime (s : State) (fn : ℕ) : Prop := ∀ k ∈ s.signalled, fn < k

/-- The closures scheduled in time have run once and are deleted once, those that could not be
queued are deleted too, and the thread left its loop once, after a signal. -/
structure State.Served (s : State) : Prop where
  runs : ∀ fn < s.heap.opened, s.InTime fn → fn ∉ s.refused →
    s.ran.count fn = 1 ∧ s.heap.closed.count fn = 1
  frees : ∀ fn ∈ s.refused, s.heap.closed.count fn = 1
  leaves : s.leaves = 1 ∧ s.signalled.isSome

/-- The condition on a step: `QueueUserAPC` takes the closure, and the wait returns the event only
when nothing scheduled in time is queued. -/
def Orderly (s : State) : Label → Prop
  | .schedule queued => queued = true
  | .waitObject0 => ∀ fn ∈ s.queue, ¬ s.InTime fn
  | _ => True

/-! ## The steps -/

section Steps

variable {s t : State} {e : Label} {queued : Bool} {fn : ℕ}

theorem schedule_eq_some :
    step s (.schedule queued) = some t ↔
      ¬ (queued = true ∧ s.joined = true) ∧ t = s.schedule queued := by
  rw [step]
  split
  · rename_i hboth
    simp [hboth]
  · rename_i hboth
    simp only [Option.some.injEq, hboth, not_false_eq_true, true_and]
    exact eq_comm

theorem executeApc_eq_some :
    step s .executeApc = some t ↔
      ∃ fn rest, s.queue = fn :: rest ∧ s.worker ≠ .left ∧ t = s.executeApc fn rest := by
  rw [step]
  split
  · rename_i hnil
    simp [hnil]
  · rename_i fn rest hcons
    rw [hcons]
    constructor
    · intro h
      split at h
      · contradiction
      · rename_i hworker
        exact ⟨fn, rest, rfl, hworker, (Option.some.inj h).symm⟩
    · rintro ⟨fn', rest', hqueue, hworker, rfl⟩
      obtain ⟨rfl, rfl⟩ := List.cons.inj hqueue
      rw [if_neg hworker]

theorem waitIoCompletion_eq_some :
    step s .waitIoCompletion = some t ↔
      s.worker = .delivering ∧ t = { s with worker := .waiting } := by
  rw [step, Option.ite_none_right_eq_some, Option.some.injEq]
  exact and_congr_right fun _ => eq_comm

theorem waitObject0_eq_some :
    step s .waitObject0 = some t ↔
      (s.worker = .waiting ∧ s.exitSet = true) ∧ t = s.leave := by
  rw [step, Option.ite_none_right_eq_some, Option.some.injEq]
  exact and_congr_right fun _ => eq_comm

theorem join_eq_some :
    step s .join = some t ↔ s.worker = .left ∧ t = { s with joined := true } := by
  rw [step, Option.ite_none_right_eq_some, Option.some.injEq]
  exact and_congr_right fun _ => eq_comm

end Steps

/-! ## The invariant -/

/-- What holds of every state of a run. -/
structure Inv (s : State) : Prop where
  accounts : s.heap.Accounts (s.queue ++ s.refused)
  ran : s.ran = s.heap.closed
  signalled : s.exitSet = true ∨ s.worker = .left → s.signalled.isSome
  leaves : s.leaves = if s.worker = .left then 1 else 0
  joined : s.joined = true → s.worker = .left
  inTime : ∀ k ∈ s.signalled, k ≤ s.heap.opened

theorem inv_start : Inv .start where
  accounts := Handles.accounts_empty
  ran := rfl
  signalled := by simp [State.start]
  leaves := rfl
  joined := by simp [State.start]
  inTime := by simp [State.start]

section Invariant

variable {s t : State} {e : Label} {queued : Bool} {fn : ℕ} {rest : List ℕ}

theorem inv_schedule (h : Inv s) (queued : Bool) : Inv (s.schedule queued) where
  accounts := by
    have hlist : (s.schedule queued).queue ++ (s.schedule queued).refused =
        s.queue ++ s.heap.opened :: s.refused := by
      cases queued <;> simp [State.schedule]
    rw [hlist]
    exact h.accounts.create.perm List.perm_middle.symm
  ran := h.ran
  signalled := h.signalled
  leaves := h.leaves
  joined := h.joined
  inTime := fun k hk => Nat.le_succ_of_le (h.inTime k hk)

theorem inv_signalToExit (h : Inv s) : Inv s.signalToExit where
  accounts := h.accounts
  ran := h.ran
  signalled := fun _ => by simp [State.signalToExit]
  leaves := h.leaves
  joined := h.joined
  inTime := by
    intro k hk
    show k ≤ s.heap.opened
    rw [State.signalToExit, Option.mem_def, Option.or_eq_some_iff] at hk
    rcases hk with hbefore | ⟨-, hnow⟩
    · exact h.inTime k hbefore
    · exact Nat.le_of_eq (Option.some.inj hnow).symm

theorem inv_executeApc (h : Inv s) (hqueue : s.queue = fn :: rest) (hworker : s.worker ≠ .left) :
    Inv (s.executeApc fn rest) where
  accounts := by
    have haccounts := h.accounts
    rw [hqueue] at haccounts
    exact haccounts.close
  ran := by
    show fn :: s.ran = fn :: s.heap.closed
    rw [h.ran]
  signalled := by
    rintro (hset | hleft)
    · exact h.signalled (Or.inl hset)
    · contradiction
  leaves := by
    have hleaves := h.leaves
    rw [if_neg hworker] at hleaves
    exact hleaves
  joined := fun hjoined => absurd (h.joined hjoined) hworker
  inTime := h.inTime

theorem inv_waitIoCompletion (h : Inv s) (hworker : s.worker = .delivering) :
    Inv { s with worker := .waiting } where
  accounts := h.accounts
  ran := h.ran
  signalled := by
    rintro (hset | hleft)
    · exact h.signalled (Or.inl hset)
    · contradiction
  leaves := by
    have hleaves := h.leaves
    rw [if_neg (by simp [hworker])] at hleaves
    exact hleaves
  joined := fun hjoined => absurd (h.joined hjoined) (by simp [hworker])
  inTime := h.inTime

theorem inv_leave (h : Inv s) (hworker : s.worker = .waiting) (hset : s.exitSet = true) :
    Inv s.leave where
  accounts := h.accounts
  ran := h.ran
  signalled := fun _ => h.signalled (Or.inl hset)
  leaves := by
    have hleaves := h.leaves
    rw [if_neg (by simp [hworker])] at hleaves
    show s.leaves + 1 = 1
    rw [hleaves]
  joined := fun _ => rfl
  inTime := h.inTime

theorem inv_join (h : Inv s) (hworker : s.worker = .left) : Inv { s with joined := true } where
  accounts := h.accounts
  ran := h.ran
  signalled := h.signalled
  leaves := h.leaves
  joined := fun _ => hworker
  inTime := h.inTime

theorem inv_step (h : Inv s) (hstep : step s e = some t) : Inv t := by
  cases e with
  | schedule queued =>
    obtain ⟨-, rfl⟩ := schedule_eq_some.mp hstep
    exact inv_schedule h queued
  | signalToExit =>
    obtain rfl := Option.some.inj hstep
    exact inv_signalToExit h
  | executeApc =>
    obtain ⟨fn, rest, hqueue, hworker, rfl⟩ := executeApc_eq_some.mp hstep
    exact inv_executeApc h hqueue hworker
  | waitIoCompletion =>
    obtain ⟨hworker, rfl⟩ := waitIoCompletion_eq_some.mp hstep
    exact inv_waitIoCompletion h hworker
  | waitObject0 =>
    obtain ⟨⟨hworker, hset⟩, rfl⟩ := waitObject0_eq_some.mp hstep
    exact inv_leave h hworker hset
  | join =>
    obtain ⟨hworker, rfl⟩ := join_eq_some.mp hstep
    exact inv_join h hworker

end Invariant

/-! ## Orderly and disorderly runs -/

/-- Every closure was queued, and none scheduled in time is left behind. -/
structure Good (s : State) : Prop where
  inv : Inv s
  refused : s.refused = []
  left : s.worker = .left → ∀ fn ∈ s.queue, ¬ s.InTime fn

/-- A closure was not queued, or one scheduled in time is left behind. -/
structure Bad (s : State) : Prop where
  inv : Inv s
  lost : s.refused ≠ [] ∨ s.worker = .left ∧ ∃ fn ∈ s.queue, s.InTime fn

section Exact

variable {s t : State} {e : Label} {queued : Bool} {fn : ℕ} {rest : List ℕ}

theorem good_start : Good .start :=
  ⟨inv_start, rfl, by simp [State.start]⟩

/-- Once there is a signal, another one changes nothing about what is in time. -/
theorem inTime_signalToExit (h : s.signalled.isSome) : s.signalToExit.InTime fn ↔ s.InTime fn := by
  obtain ⟨k, hk⟩ := Option.isSome_iff_exists.mp h
  have hsame : s.signalToExit.signalled = s.signalled := by simp [State.signalToExit, hk]
  rw [State.InTime, State.InTime, hsame]

/-- After a signal, what is scheduled is too late. -/
theorem Inv.not_inTime_opened (h : Inv s) (hsignal : s.signalled.isSome) :
    ¬ s.InTime s.heap.opened := by
  obtain ⟨k, hk⟩ := Option.isSome_iff_exists.mp hsignal
  intro hin
  have hlt := hin k hk
  have hle := h.inTime k hk
  omega

theorem good_step (h : Good s) (horderly : Orderly s e) (hstep : step s e = some t) : Good t := by
  have hinv := inv_step h.inv hstep
  cases e with
  | schedule queued =>
    obtain ⟨-, rfl⟩ := schedule_eq_some.mp hstep
    have hqueued : queued = true := horderly
    subst hqueued
    refine ⟨hinv, h.refused, ?_⟩
    intro hleft fn hmem
    rcases List.mem_append.mp hmem with hbefore | hnew
    · exact h.left hleft fn hbefore
    · rw [List.mem_singleton.mp hnew]
      exact h.inv.not_inTime_opened (h.inv.signalled (Or.inr hleft))
  | signalToExit =>
    obtain rfl := Option.some.inj hstep
    refine ⟨hinv, h.refused, ?_⟩
    intro hleft fn hmem
    rw [inTime_signalToExit (h.inv.signalled (Or.inr hleft))]
    exact h.left hleft fn hmem
  | executeApc =>
    obtain ⟨fn, rest, -, -, rfl⟩ := executeApc_eq_some.mp hstep
    refine ⟨hinv, h.refused, ?_⟩
    intro hleft
    contradiction
  | waitIoCompletion =>
    obtain ⟨-, rfl⟩ := waitIoCompletion_eq_some.mp hstep
    refine ⟨hinv, h.refused, ?_⟩
    intro hleft
    contradiction
  | waitObject0 =>
    obtain ⟨-, rfl⟩ := waitObject0_eq_some.mp hstep
    exact ⟨hinv, h.refused, fun _ => horderly⟩
  | join =>
    obtain ⟨hworker, rfl⟩ := join_eq_some.mp hstep
    exact ⟨hinv, h.refused, fun _ => h.left hworker⟩

/-- A step out of order loses a closure. -/
theorem bad_of_disorder (h : Good s) (hdisorder : ¬ Orderly s e) (hstep : step s e = some t) :
    Bad t := by
  refine ⟨inv_step h.inv hstep, ?_⟩
  cases e with
  | schedule queued =>
    obtain ⟨-, rfl⟩ := schedule_eq_some.mp hstep
    have hrefused : queued = false := Bool.eq_false_iff.mpr hdisorder
    subst hrefused
    exact Or.inl (List.cons_ne_nil _ _)
  | waitObject0 =>
    obtain ⟨-, rfl⟩ := waitObject0_eq_some.mp hstep
    rw [Orderly] at hdisorder
    push Not at hdisorder
    exact Or.inr ⟨rfl, hdisorder⟩
  | signalToExit => exact absurd trivial hdisorder
  | executeApc => exact absurd trivial hdisorder
  | waitIoCompletion => exact absurd trivial hdisorder
  | join => exact absurd trivial hdisorder

/-- What is lost stays lost. -/
theorem bad_step (h : Bad s) (hstep : step s e = some t) : Bad t := by
  refine ⟨inv_step h.inv hstep, ?_⟩
  cases e with
  | schedule queued =>
    obtain ⟨-, rfl⟩ := schedule_eq_some.mp hstep
    rcases h.lost with hrefused | ⟨hleft, fn, hmem, hin⟩
    · left
      cases queued with
      | true => exact hrefused
      | false => exact List.cons_ne_nil _ _
    · right
      refine ⟨hleft, fn, ?_, hin⟩
      cases queued with
      | true => exact List.mem_append_left _ hmem
      | false => exact hmem
  | signalToExit =>
    obtain rfl := Option.some.inj hstep
    rcases h.lost with hrefused | ⟨hleft, fn, hmem, hin⟩
    · exact Or.inl hrefused
    · have hsignal := h.inv.signalled (Or.inr hleft)
      exact Or.inr ⟨hleft, fn, hmem, (inTime_signalToExit hsignal).mpr hin⟩
  | executeApc =>
    obtain ⟨fn, rest, -, hworker, rfl⟩ := executeApc_eq_some.mp hstep
    rcases h.lost with hrefused | ⟨hleft, -⟩
    · exact Or.inl hrefused
    · exact absurd hleft hworker
  | waitIoCompletion =>
    obtain ⟨hworker, rfl⟩ := waitIoCompletion_eq_some.mp hstep
    rcases h.lost with hrefused | ⟨hleft, -⟩
    · exact Or.inl hrefused
    · exact absurd (hworker.symm.trans hleft) (by decide)
  | waitObject0 =>
    obtain ⟨⟨hworker, -⟩, rfl⟩ := waitObject0_eq_some.mp hstep
    rcases h.lost with hrefused | ⟨hleft, -⟩
    · exact Or.inl hrefused
    · exact absurd (hworker.symm.trans hleft) (by decide)
  | join =>
    obtain ⟨-, rfl⟩ := join_eq_some.mp hstep
    exact h.lost

/-! ## The closures at the end -/

/-- A closure that was scheduled and is neither queued nor refused has run and is deleted. -/
theorem Inv.count_eq_one (h : Inv s) (hlt : fn < s.heap.opened) (hqueue : fn ∉ s.queue)
    (hrefused : fn ∉ s.refused) : s.ran.count fn = 1 ∧ s.heap.closed.count fn = 1 := by
  have haccounts := h.accounts fn
  rw [List.count_append, List.count_eq_zero.mpr hqueue, List.count_eq_zero.mpr hrefused,
    if_pos hlt] at haccounts
  have hclosed : s.heap.closed.count fn = 1 := by omega
  exact ⟨h.ran ▸ hclosed, hclosed⟩

/-- A closure that is queued or refused is not deleted. -/
theorem Inv.count_eq_zero (h : Inv s) (hmem : fn ∈ s.queue ++ s.refused) :
    s.heap.closed.count fn = 0 :=
  List.count_eq_zero.mpr (h.accounts.live hmem).2

theorem Good.served (h : Good s) (hjoined : s.joined = true) : s.Served := by
  have hleft := h.inv.joined hjoined
  refine ⟨?_, ?_, ?_⟩
  · intro fn hlt hin hrefused
    apply h.inv.count_eq_one hlt _ hrefused
    intro hmem
    exact h.left hleft fn hmem hin
  · intro fn hmem
    rw [h.refused] at hmem
    exact absurd hmem List.not_mem_nil
  · have hleaves := h.inv.leaves
    rw [if_pos hleft] at hleaves
    exact ⟨hleaves, h.inv.signalled (Or.inr hleft)⟩

theorem Bad.not_served (h : Bad s) : ¬ s.Served := by
  intro hserved
  rcases h.lost with hrefused | ⟨-, fn, hmem, hin⟩
  · obtain ⟨fn, hmem⟩ := List.exists_mem_of_ne_nil _ hrefused
    have hfreed := hserved.frees fn hmem
    rw [h.inv.count_eq_zero (List.mem_append_right _ hmem)] at hfreed
    contradiction
  · have hnone := h.inv.count_eq_zero (List.mem_append_left s.refused hmem)
    have hlive := h.inv.accounts.live (List.mem_append_left s.refused hmem)
    by_cases hrefused : fn ∈ s.refused
    · have hfreed := hserved.frees fn hrefused
      omega
    · have hran := (hserved.runs fn hlive.1 hin hrefused).2
      omega

end Exact

/-- **Serving.** At the end of a run in which the thread has been joined, everything was served
exactly if every step was orderly. -/
theorem served_iff (labels : List Label) {t : State}
    (hrun : run step .start labels = some t) (hjoined : t.joined = true) :
    t.Served ↔ EachStep step Orderly .start labels := by
  have hexact := run_exact Good Bad (fun s e t h _ => good_step h)
    (fun s e t h _ => bad_of_disorder h) (fun s e t h _ => bad_step h) eachStep_true hrun
    good_start
  rcases hexact with ⟨hgood, horderly⟩ | ⟨hbad, hdisorder⟩
  · exact iff_of_true (hgood.served hjoined) horderly
  · exact iff_of_false hbad.not_served hdisorder

/-- A closure that the thread takes before the signal. -/
def takesApc : List Label :=
  [.schedule true, .executeApc, .waitIoCompletion, .signalToExit, .waitObject0, .join]

theorem served_takesApc : ∃ t, run step .start takesApc = some t ∧ t.Served := by
  refine ⟨_, rfl, ?_⟩
  have horderly : EachStep step Orderly .start takesApc :=
    ⟨rfl, trivial, trivial, trivial, List.forall_mem_nil _, trivial, trivial⟩
  exact (served_iff takesApc rfl rfl).mpr horderly

/-- A closure that is queued when the wait returns the event. -/
def leavesApc : List Label := [.schedule true, .signalToExit, .waitObject0, .join]

theorem not_served_leavesApc :
    ∃ t, run step .start leavesApc = some t ∧ t.joined = true ∧ ¬ t.Served := by
  refine ⟨_, rfl, rfl, ?_⟩
  intro hserved
  have hruns := hserved.runs 0 (by decide) (by simp [State.InTime, State.leave,
    State.signalToExit, State.schedule, State.start, Handles.create, Handles.empty])
    List.not_mem_nil
  exact absurd hruns.1 (by decide)

end Win32Experiments.WaitableTimers
