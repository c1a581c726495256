import Mathlib.Data.Nat.Notation
import Win32Experiments.Foundation.Run

/-!
# `APC2`

The main thread starts a worker, queues functions to it with `Enqueue2`, and stops it with `Exit`;
then it leaves the scope of the `Task` and of the `Thread`. The worker publishes `Task::Thread`, and
runs what is queued whenever it sleeps, until it reads that `Task::Run` is false.

* `length_le`: every interleaving ends;
* `accounts_step`: a function that was queued is in the queue, or has run and was freed, once;
* `dropped_eq_zero_iff`: in which interleavings `Enqueue2` always queues its function;
* `runsQueued_iff`: in which interleavings everything that was queued has run.
-/

namespace Win32Experiments.Win32Threads.APC2

open Foundation

/-- A function to queue: the call of `SomeFunc2` with this number, or `NoOp`. -/
inductive MemberFunc where
  | someFunc2 (n : ℕ)
  | noOp
deriving DecidableEq, Repr

/-- The main thread: before `Start`, between its calls, before it reads `Thread` to queue a
function, before it calls `QueueUserAPC`, behind `Exit`, out of the scope; or it threw, or read
through a null pointer. -/
inductive Main where
  | start
  | run
  | derefs (f : MemberFunc)
  | queues (f : MemberFunc)
  | exited
  | left
  | threw
  | crashed
deriving DecidableEq, Repr

/-- The worker: not there, in `Thread::Run`, before `Thread = thread`, before it reads `Run`, in
`SleepEx`, behind `Begin`, ended. -/
inductive Worker where
  | notStarted
  | run
  | begin
  | test
  | sleep
  | returned
  | ended
deriving DecidableEq, Repr

/-- `Begin` has returned. -/
def Worker.hasReturned : Worker → Bool
  | .returned => true
  | .ended => true
  | _ => false

/-- Both threads; `Task::Run`, and whether `Task::Thread` is set; the queue of the worker; how often
`Enqueue2` has queued its function, and how often it has returned without; what has run and what was
freed; and whether the worker used the `Task` or the `Thread` when they were gone. -/
structure State where
  main : Main
  worker : Worker
  run : Bool
  thread : Bool
  queue : List MemberFunc
  queued : ℕ
  dropped : ℕ
  ran : List MemberFunc
  freed : List MemberFunc
  late : Bool
deriving DecidableEq, Repr

/-- A step of the main thread, or one of the worker. -/
inductive Event where
  | start (created : Bool)
  | enqueue2
  | exit
  | readThread
  | queueUserAPC
  | leave
  | worker
deriving DecidableEq, Repr

namespace State

/-- `Run`, before `Start`. -/
def initial : State := ⟨.start, .notStarted, true, false, [], 0, 0, [], [], false⟩

/-- Behind `QueueUserAPC`: the main thread goes on with its calls, or `Exit` returns. -/
def afterQueue (s : State) : MemberFunc → State
  | .someFunc2 _ => { s with main := .run, queued := s.queued + 1 }
  | .noOp => { s with main := .exited }

/-- The main thread has left the scope, by itself or with an exception. -/
def outOfScope (s : State) : Bool := s.main = .left || s.main = .threw

/-- The worker uses the `Task` or the `Thread`. -/
def touch (s : State) : State := { s with late := s.late || s.outOfScope }

/-- A step of the worker. -/
def workerStep (s : State) : Option State :=
  match s.worker with
  | .notStarted => none
  | .run => some { s.touch with worker := .begin }
  | .begin => some { s.touch with thread := true, worker := .test }
  | .test => some { s.touch with worker := if s.run then .sleep else .returned }
  | .sleep =>
    if s.queue.isEmpty then none
    else
      -- `ExecuteAPC2` for each entry
      some { s.touch with
        ran := s.ran ++ s.queue
        freed := s.freed ++ s.queue
        queue := []
        worker := .test }
  | .returned => some { s with worker := .ended }
  | .ended => none

/-- A step. `Enqueue2` returns at once when `Thread` is null; `Exit` does not ask. -/
def step (s : State) : Event → Option State
  | .start created =>
    if s.main = .start then
      some (if created then { s with main := .run, worker := .run } else { s with main := .threw })
    else none
  | .enqueue2 =>
    if s.main = .run then
      some (if s.thread then { s with main := .derefs (.someFunc2 s.queued) }
        else { s with dropped := s.dropped + 1 })
    else none
  | .exit =>
    if s.main = .run then some { s with run := false, main := .derefs .noOp } else none
  | .readThread =>
    match s.main with
    | .derefs f => some { s with main := if s.thread then .queues f else .crashed }
    | _ => none
  | .queueUserAPC =>
    match s.main with
    | .queues f =>
      some (if s.worker = .ended then { s with main := .threw }
        else { s with queue := s.queue ++ [f] }.afterQueue f)
    | _ => none
  | .leave => if s.main = .exited then some { s with main := .left } else none
  | .worker => s.workerStep

end State

/-- No null pointer was read through and no call threw; every function that `Enqueue2` queued has
run once and was freed once; `Begin` has returned; and the worker used neither object when it was
gone. -/
structure RunsQueued (s : State) : Prop where
  notNull : s.main ≠ .crashed
  notThrown : s.main ≠ .threw
  once : ∀ n < s.queued, s.ran.count (.someFunc2 n) = 1 ∧ s.freed.count (.someFunc2 n) = 1
  returned : s.worker.hasReturned = true
  notLate : s.late = false

namespace State

/-- The condition on a step: the worker is created; `Exit` reads `Thread` when it is set, and calls
`QueueUserAPC` before the worker ends; the worker reads that `Run` is false when no function of
`Enqueue2` is queued; and the main thread leaves the scope when `Begin` has returned. -/
def InTime (s : State) : Event → Prop
  | .start created => created = true
  | .readThread => s.main = .derefs .noOp → s.thread = true
  | .queueUserAPC => s.main = .queues .noOp → s.worker ≠ .ended
  | .leave => s.worker.hasReturned = true
  | .worker => s.worker = .test → s.run = false → ∀ n, .someFunc2 n ∉ s.queue
  | _ => True

/-- What a step can do, case by case. -/
inductive Steps (s : State) : Event → State → Prop
  | created (hmain : s.main = .start) :
    Steps s (.start true) { s with main := .run, worker := .run }
  | notCreated (hmain : s.main = .start) : Steps s (.start false) { s with main := .threw }
  | enqueue (hmain : s.main = .run) (hthread : s.thread = true) :
    Steps s .enqueue2 { s with main := .derefs (.someFunc2 s.queued) }
  | drop (hmain : s.main = .run) (hthread : s.thread = false) :
    Steps s .enqueue2 { s with dropped := s.dropped + 1 }
  | exit (hmain : s.main = .run) : Steps s .exit { s with run := false, main := .derefs .noOp }
  | deref (f : MemberFunc) (hmain : s.main = .derefs f) (hthread : s.thread = true) :
    Steps s .readThread { s with main := .queues f }
  | crash (f : MemberFunc) (hmain : s.main = .derefs f) (hthread : s.thread = false) :
    Steps s .readThread { s with main := .crashed }
  | throw (f : MemberFunc) (hmain : s.main = .queues f) (hworker : s.worker = .ended) :
    Steps s .queueUserAPC { s with main := .threw }
  | queueFunction (n : ℕ) (hmain : s.main = .queues (.someFunc2 n)) (hworker : s.worker ≠ .ended) :
    Steps s .queueUserAPC { s with
      queue := s.queue ++ [.someFunc2 n], main := .run, queued := s.queued + 1 }
  | queueNoOp (hmain : s.main = .queues .noOp) (hworker : s.worker ≠ .ended) :
    Steps s .queueUserAPC { s with queue := s.queue ++ [.noOp], main := .exited }
  | leave (hmain : s.main = .exited) : Steps s .leave { s with main := .left }
  | begin (hworker : s.worker = .run) : Steps s .worker { s.touch with worker := .begin }
  | publish (hworker : s.worker = .begin) :
    Steps s .worker { s.touch with thread := true, worker := .test }
  | goOn (hworker : s.worker = .test) (hrun : s.run = true) :
    Steps s .worker { s.touch with worker := .sleep }
  | stop (hworker : s.worker = .test) (hrun : s.run = false) :
    Steps s .worker { s.touch with worker := .returned }
  | apcs (hworker : s.worker = .sleep) (hqueue : s.queue ≠ []) :
    Steps s .worker { s.touch with
      ran := s.ran ++ s.queue, freed := s.freed ++ s.queue, queue := [], worker := .test }
  | finish (hworker : s.worker = .returned) : Steps s .worker { s with worker := .ended }

section Steps

variable {s t : State} {event : Event} {events : List Event}

theorem steps_of_workerStep (hstep : s.workerStep = some t) : Steps s .worker t := by
  unfold workerStep at hstep
  cases hworker : s.worker with
  | notStarted | ended =>
    rw [hworker] at hstep
    contradiction
  | run =>
    rw [hworker, Option.some.injEq] at hstep
    exact hstep ▸ Steps.begin hworker
  | begin =>
    rw [hworker, Option.some.injEq] at hstep
    exact hstep ▸ Steps.publish hworker
  | test =>
    rw [hworker, Option.some.injEq] at hstep
    cases hrun : s.run with
    | true =>
      rw [hrun, if_pos rfl] at hstep
      exact hstep ▸ Steps.goOn hworker hrun
    | false =>
      rw [hrun, if_neg Bool.false_ne_true] at hstep
      exact hstep ▸ Steps.stop hworker hrun
  | sleep =>
    rw [hworker] at hstep
    rw [Option.ite_none_left_eq_some, List.isEmpty_iff, Option.some.injEq] at hstep
    exact hstep.2 ▸ Steps.apcs hworker hstep.1
  | returned =>
    rw [hworker, Option.some.injEq] at hstep
    exact hstep ▸ Steps.finish hworker

theorem steps_of_step (hstep : s.step event = some t) : Steps s event t := by
  match event with
  | .start created =>
    rw [step, Option.ite_none_right_eq_some, Option.some.injEq] at hstep
    obtain ⟨hmain, ht⟩ := hstep
    cases created with
    | true => exact ht ▸ Steps.created hmain
    | false => exact ht ▸ Steps.notCreated hmain
  | .enqueue2 =>
    rw [step, Option.ite_none_right_eq_some, Option.some.injEq] at hstep
    obtain ⟨hmain, ht⟩ := hstep
    by_cases hthread : s.thread = true
    · rw [if_pos hthread] at ht
      exact ht ▸ Steps.enqueue hmain hthread
    · rw [if_neg hthread] at ht
      exact ht ▸ Steps.drop hmain (Bool.eq_false_iff.mpr hthread)
  | .exit =>
    rw [step, Option.ite_none_right_eq_some, Option.some.injEq] at hstep
    exact hstep.2 ▸ Steps.exit hstep.1
  | .readThread =>
    unfold step at hstep
    cases hmain : s.main with
    | derefs f =>
      rw [hmain, Option.some.injEq] at hstep
      by_cases hthread : s.thread = true
      · rw [if_pos hthread] at hstep
        exact hstep ▸ Steps.deref f hmain hthread
      · rw [if_neg hthread] at hstep
        exact hstep ▸ Steps.crash f hmain (Bool.eq_false_iff.mpr hthread)
    | _ =>
      rw [hmain] at hstep
      contradiction
  | .queueUserAPC =>
    unfold step at hstep
    cases hmain : s.main with
    | queues f =>
      rw [hmain, Option.some.injEq] at hstep
      by_cases hworker : s.worker = .ended
      · rw [if_pos hworker] at hstep
        exact hstep ▸ Steps.throw f hmain hworker
      · rw [if_neg hworker] at hstep
        cases f with
        | someFunc2 n => exact hstep ▸ Steps.queueFunction n hmain hworker
        | noOp => exact hstep ▸ Steps.queueNoOp hmain hworker
    | _ =>
      rw [hmain] at hstep
      contradiction
  | .leave =>
    rw [step, Option.ite_none_right_eq_some, Option.some.injEq] at hstep
    exact hstep.2 ▸ Steps.leave hstep.1
  | .worker => exact steps_of_workerStep hstep

/-! ## Every interleaving ends -/

/-- What the main thread has still to do, when it queues no more functions. -/
def mainRank (s : State) : ℕ :=
  match s.main with
  | .start => 12
  | .run => 6
  | .derefs (.someFunc2 _) => 10
  | .queues (.someFunc2 _) => 9
  | .derefs .noOp => 5
  | .queues .noOp => 4
  | .exited => 1
  | .left => 0
  | .threw => 0
  | .crashed => 0

/-- What the worker has still to do, without what is queued. -/
def workerRank (s : State) : ℕ :=
  match s.worker with
  | .notStarted => 0
  | .run => 5
  | .begin => 4
  | .test => 3
  | .sleep => 2
  | .returned => 1
  | .ended => 0

def rank (s : State) : ℕ := s.mainRank + s.workerRank + 2 * s.queue.length

/-- A step brings the end nearer, but for a call of `Enqueue2`. -/
theorem rank_step (hstep : s.step event = some t) :
    t.rank + 1 ≤ s.rank + if event = .enqueue2 then 5 else 0 := by
  unfold rank
  cases steps_of_step hstep with
  | created hmain | notCreated hmain | enqueue hmain | drop hmain | exit hmain | leave hmain =>
    simp only [mainRank, workerRank, hmain, reduceCtorEq, if_true, if_false]
    omega
  | deref f hmain hthread | crash f hmain hthread | throw f hmain hthread =>
    cases f
    all_goals
      simp only [mainRank, workerRank, hmain, reduceCtorEq, if_false]
      omega
  | queueFunction n hmain hworker | queueNoOp hmain hworker =>
    simp only [mainRank, workerRank, hmain, List.length_append, List.length_singleton, reduceCtorEq,
      if_false]
    omega
  | begin hworker | publish hworker | goOn hworker hrun | stop hworker hrun | finish hworker =>
    simp only [mainRank, workerRank, hworker, touch, reduceCtorEq, if_false]
    omega
  | apcs hworker hqueue =>
    have hpos := List.length_pos_iff.mpr hqueue
    simp only [mainRank, workerRank, hworker, touch, List.length_nil, reduceCtorEq, if_false]
    omega

theorem run_rank (hrun : Foundation.run step s events = some t) :
    t.rank + events.length ≤ s.rank + 5 * events.count .enqueue2 := by
  induction events generalizing s with
  | nil =>
    rw [run_nil, Option.some.injEq] at hrun
    rw [hrun]
    exact Nat.le_refl _
  | cons event events ih =>
    obtain ⟨u, hu, hrest⟩ := run_cons_eq_some.mp hrun
    have hstep := rank_step hu
    have hrest := ih hrest
    rw [List.length_cons, List.count_cons]
    by_cases hevent : event = .enqueue2
    · rw [if_pos hevent] at hstep
      rw [if_pos (beq_iff_eq.mpr hevent)]
      omega
    · rw [if_neg hevent] at hstep
      rw [if_neg (beq_iff_eq.not.mpr hevent)]
      omega

/-- **Every interleaving ends**: the number of its steps is bounded by that of the calls of
`Enqueue2`. -/
theorem length_le (hrun : Foundation.run step initial events = some t) :
    events.length ≤ 12 + 5 * events.count .enqueue2 := by
  have hrank := run_rank hrun
  have hinitial : initial.rank = 12 := rfl
  omega

/-! ## What becomes of a queued function -/

/-- Every function that was queued is in the queue or has run, once; what has run was freed; and
the functions are numbered as they are queued. -/
structure Accounts (s : State) : Prop where
  once : ∀ n, (s.queue ++ s.ran).count (.someFunc2 n) = if n < s.queued then 1 else 0
  freed : s.freed = s.ran
  next : ∀ n, s.main = .derefs (.someFunc2 n) ∨ s.main = .queues (.someFunc2 n) → n = s.queued

theorem accounts_initial : Accounts initial where
  once _ := rfl
  freed := rfl
  next n h := by
    rcases h with h | h <;> contradiction

/-- A step that leaves the functions where they are, and is not on the way to queue one. -/
theorem Accounts.of_eq (h : Accounts s) (hqueue : t.queue = s.queue) (hran : t.ran = s.ran)
    (hfreed : t.freed = s.freed) (hqueued : t.queued = s.queued)
    (hmain : ∀ n, t.main = .derefs (.someFunc2 n) ∨ t.main = .queues (.someFunc2 n) →
      n = s.queued) : Accounts t where
  once n := by
    rw [hqueue, hran, hqueued]
    exact h.once n
  freed := by rw [hfreed, hran, h.freed]
  next n hn := by
    rw [hqueued]
    exact hmain n hn

/-- The function that is queued is a new one. -/
theorem Accounts.count_queue (h : Accounts s) (k : ℕ) :
    (s.queue ++ [MemberFunc.someFunc2 s.queued] ++ s.ran).count (.someFunc2 k)
      = if k < s.queued + 1 then 1 else 0 := by
  have hk := h.once k
  rw [List.count_append] at hk
  rw [List.count_append, List.count_append, List.count_singleton]
  by_cases heq : s.queued = k
  · rw [if_neg (by omega)] at hk
    rw [heq, if_pos (beq_self_eq_true _), if_pos (by omega)]
    omega
  · have hne : (MemberFunc.someFunc2 s.queued == .someFunc2 k) = false := by
      simp [heq]
    rw [hne, if_neg Bool.false_ne_true]
    by_cases hlt : k < s.queued
    · rw [if_pos hlt] at hk
      rw [if_pos (by omega)]
      omega
    · rw [if_neg hlt] at hk
      rw [if_neg (by omega)]
      omega

/-- The APCs that run move from the queue. -/
theorem accounts_step (h : Accounts s) (hstep : s.step event = some t) : Accounts t := by
  cases steps_of_step hstep with
  | created hmain | notCreated hmain | exit hmain | leave hmain | crash f hmain hthread
  | throw f hmain hworker =>
    refine h.of_eq rfl rfl rfl rfl ?_
    intro n hn
    rcases hn with hn | hn <;> cases hn
  | enqueue hmain hthread =>
    refine h.of_eq rfl rfl rfl rfl ?_
    intro n hn
    rcases hn with hn | hn
    · cases hn
      rfl
    · contradiction
  | deref f hmain hthread =>
    refine h.of_eq rfl rfl rfl rfl ?_
    intro n hn
    rcases hn with hn | hn
    · contradiction
    · cases hn
      exact h.next n (Or.inl hmain)
  | queueFunction n hmain hworker =>
    rw [h.next n (Or.inr hmain)]
    refine ⟨h.count_queue, h.freed, ?_⟩
    intro k hk
    rcases hk with hk | hk <;> contradiction
  | queueNoOp hmain hworker =>
    refine ⟨?_, h.freed, ?_⟩
    · intro k
      rw [← h.once k]
      show (s.queue ++ [MemberFunc.noOp] ++ s.ran).count _ = _
      rw [List.count_append, List.count_append, List.count_append, List.count_singleton]
      rfl
    · intro k hk
      rcases hk with hk | hk <;> contradiction
  | drop hmain hthread | begin hworker | publish hworker | goOn hworker hrun | stop hworker hrun
  | finish hworker => exact h.of_eq rfl rfl rfl rfl h.next
  | apcs hworker hqueue =>
    refine ⟨?_, ?_, h.next⟩
    · intro n
      refine Eq.trans ?_ (h.once n)
      show ([] ++ (s.ran ++ s.queue)).count _ = _
      rw [List.nil_append, List.count_append, List.count_append, Nat.add_comm]
    · show s.freed ++ s.queue = s.ran ++ s.queue
      rw [h.freed]

/-! ## Calls of `Enqueue2` that queue nothing -/

/-- `Enqueue2` is called when the worker has published `Thread`. -/
def Published (s : State) (event : Event) : Prop := event = .enqueue2 → s.thread = true

theorem dropped_step_iff (hstep : s.step event = some t) :
    t.dropped = 0 ↔ s.dropped = 0 ∧ s.Published event := by
  unfold Published
  cases steps_of_step hstep with
  | enqueue hmain hthread => exact (and_iff_left fun _ => hthread).symm
  | drop hmain hthread =>
    refine iff_of_false (Nat.succ_ne_zero s.dropped) ?_
    intro h
    rw [h.2 rfl] at hthread
    contradiction
  | _ => exact (and_iff_left fun hevent => nomatch hevent).symm

theorem dropped_eq_zero_iff (hrun : Foundation.run step initial events = some t) :
    t.dropped = 0 ↔ EachStep step Published initial events := by
  have hiff := (run_iff (fun _ => True) (fun s => s.dropped = 0) (fun _ _ _ _ _ _ => trivial)
    (fun _ _ _ _ _ hstep => dropped_step_iff hstep) eachStep_true hrun trivial).2
  exact hiff.trans (and_iff_right rfl)

/-! ## Interleavings in time -/

/-- `Exit` has not been called. -/
def beforeExit (s : State) : Bool :=
  match s.main with
  | .start => true
  | .run => true
  | .derefs (.someFunc2 _) => true
  | .queues (.someFunc2 _) => true
  | _ => false

/-- The main thread has called `Start`, and has not failed. -/
def goesOn (s : State) : Bool :=
  match s.main with
  | .start => false
  | .threw => false
  | .crashed => false
  | _ => true

/-- Nothing has gone wrong, and nothing will in steps in time. -/
structure Good (s : State) : Prop where
  notNull : s.main ≠ .crashed
  notThrown : s.main ≠ .threw
  notLate : s.late = false
  started : s.worker = .notStarted ↔ s.main = .start
  thread : ∀ n, s.main = .derefs (.someFunc2 n) → s.thread = true
  run : s.beforeExit = true → s.run = true
  returned : s.worker.hasReturned = true → s.run = false ∧ ∀ n, .someFunc2 n ∉ s.queue
  left : s.main = .left → s.worker.hasReturned = true

/-- What has gone wrong, or will: a function is queued for a worker that has returned, or the main
thread has left a worker that has not. -/
inductive Bad (s : State) : Prop
  | crashed (h : s.main = .crashed)
  | threw (h : s.main = .threw)
  | late (h : s.late = true)
  | lost (n : ℕ) (hmain : s.main ≠ .start) (hworker : s.worker.hasReturned = true)
    (hmem : .someFunc2 n ∈ s.queue)
  | left (hmain : s.main = .left) (hworker : s.worker.hasReturned = false)

theorem good_initial : Good initial where
  notNull h := nomatch h
  notThrown h := nomatch h
  notLate := rfl
  started := iff_of_true rfl rfl
  thread _ h := nomatch h
  run _ := rfl
  returned h := nomatch h
  left h := nomatch h

/-- The worker is there, and has not returned from `Begin`. -/
def atWork (s : State) : Bool :=
  match s.worker with
  | .run => true
  | .begin => true
  | .test => true
  | .sleep => true
  | _ => false

theorem ne_of_atWork (hwork : s.atWork = true) :
    s.worker ≠ .notStarted ∧ s.worker.hasReturned = false := by
  unfold atWork at hwork
  cases hworker : s.worker with
  | notStarted | returned | ended =>
    rw [hworker] at hwork
    contradiction
  | run | begin | test | sleep => exact ⟨nofun, rfl⟩

/-- The main thread does not leave before the worker has returned. -/
theorem Good.late_touch (h : Good s) (hwork : s.atWork = true) : s.touch.late = false := by
  have hleft : s.main ≠ .left := by
    intro hleft
    have hret := h.left hleft
    rw [(ne_of_atWork hwork).2] at hret
    contradiction
  rw [touch, h.notLate, outOfScope, decide_eq_false hleft, decide_eq_false h.notThrown]
  rfl

/-- A step of a worker that has not returned. -/
theorem Good.of_worker (h : Good s) (hs : s.atWork = true) (ht : t.worker ≠ .notStarted)
    (hmain : t.main = s.main) (hrun : t.run = s.run) (hlate : t.late = s.touch.late)
    (hthread : s.thread = true → t.thread = true)
    (hreturned : t.worker.hasReturned = true → s.run = false ∧ ∀ n, .someFunc2 n ∉ t.queue) :
    Good t where
  notNull := by rw [hmain]; exact h.notNull
  notThrown := by rw [hmain]; exact h.notThrown
  notLate := by rw [hlate]; exact h.late_touch hs
  started := by
    rw [hmain, ← h.started]
    exact iff_of_false ht (ne_of_atWork hs).1
  thread n hn := by
    rw [hmain] at hn
    exact hthread (h.thread n hn)
  run hbefore := by
    rw [hrun]
    apply h.run
    rw [beforeExit, ← hmain]
    exact hbefore
  returned hret := by
    rw [hrun]
    exact hreturned hret
  left hleft := by
    rw [hmain] at hleft
    have hret := h.left hleft
    rw [(ne_of_atWork hs).2] at hret
    contradiction

theorem ne_of_goesOn (hgoes : s.goesOn = true) :
    s.main ≠ .start ∧ s.main ≠ .threw ∧ s.main ≠ .crashed := by
  unfold goesOn at hgoes
  refine ⟨?_, ?_, ?_⟩
  all_goals
    intro hmain
    rw [hmain] at hgoes
    contradiction

/-- A step of the main thread behind `Start`. -/
theorem Good.of_main (h : Good s) (hs : s.goesOn = true) (ht : t.goesOn = true)
    (hworker : t.worker = s.worker) (hlate : t.late = s.late)
    (hthread : ∀ n, t.main = .derefs (.someFunc2 n) → t.thread = true)
    (hrun : t.beforeExit = true → t.run = true)
    (hreturned : s.worker.hasReturned = true → t.run = false ∧ ∀ n, .someFunc2 n ∉ t.queue)
    (hleft : t.main = .left → s.worker.hasReturned = true) : Good t where
  notNull := (ne_of_goesOn ht).2.2
  notThrown := (ne_of_goesOn ht).2.1
  notLate := by rw [hlate]; exact h.notLate
  started := by
    rw [hworker, h.started]
    exact iff_of_false (ne_of_goesOn hs).1 (ne_of_goesOn ht).1
  thread := hthread
  run := hrun
  returned hret := by
    rw [hworker] at hret
    exact hreturned hret
  left hl := by
    rw [hworker]
    exact hleft hl

/-- A worker has not returned while `Exit` is not called. -/
theorem Good.not_returned (h : Good s) (hbefore : s.beforeExit = true) :
    s.worker.hasReturned = false := by
  rw [← Bool.not_eq_true]
  intro hret
  have hrun := (h.returned hret).1
  rw [h.run hbefore] at hrun
  contradiction

theorem beforeExit_derefs {n : ℕ} (hmain : s.main = .derefs (.someFunc2 n)) :
    s.beforeExit = true := by
  rw [beforeExit, hmain]

theorem beforeExit_queues {n : ℕ} (hmain : s.main = .queues (.someFunc2 n)) :
    s.beforeExit = true := by
  rw [beforeExit, hmain]

theorem beforeExit_run (hmain : s.main = .run) : s.beforeExit = true := by
  rw [beforeExit, hmain]

/-- The worker starts. -/
theorem Good.created (h : Good s) (hmain : s.main = .start) :
    Good { s with main := .run, worker := .run } := by
  have hgoes : ({ s with main := .run, worker := .run } : State).goesOn = true := rfl
  obtain ⟨hstart, hthrew, hcrashed⟩ := ne_of_goesOn hgoes
  refine ⟨hcrashed, hthrew, h.notLate, iff_of_false (fun h => nomatch h) hstart, ?_, ?_, ?_, ?_⟩
  · exact fun n h => nomatch h
  · intro _
    apply h.run
    rw [beforeExit, hmain]
  · exact fun h => nomatch h
  · exact fun h => nomatch h

/-- `Enqueue2` never reads through a null pointer; `Exit` does not when it is in time. -/
theorem Good.thread_of_derefs (h : Good s) {f : MemberFunc} (hmain : s.main = .derefs f)
    (hevent : s.main = .derefs .noOp → s.thread = true) : s.thread = true := by
  cases f with
  | someFunc2 n => exact h.thread n hmain
  | noOp => exact hevent hmain

/-- `QueueUserAPC` never fails in `Enqueue2`; in `Exit` it does not when it is in time. -/
theorem Good.not_ended_of_queues (h : Good s) {f : MemberFunc} (hmain : s.main = .queues f)
    (hevent : s.main = .queues .noOp → s.worker ≠ .ended) : s.worker ≠ .ended := by
  cases f with
  | someFunc2 n =>
    intro hended
    have hret := h.not_returned (beforeExit_queues hmain)
    rw [hended] at hret
    contradiction
  | noOp => exact hevent hmain

/-- A function of `Enqueue2` is queued to a worker that has not returned. -/
theorem Good.queueFunction (h : Good s) {n : ℕ} (hmain : s.main = .queues (.someFunc2 n)) :
    Good { s with queue := s.queue ++ [.someFunc2 n], main := .run, queued := s.queued + 1 } := by
  have hbefore := beforeExit_queues hmain
  have hnot := h.not_returned hbefore
  refine h.of_main ?_ rfl rfl rfl ?_ (fun _ => h.run hbefore) ?_ ?_
  · rw [goesOn, hmain]
  · exact fun n h => nomatch h
  · intro hret
    rw [hnot] at hret
    contradiction
  · exact fun h => nomatch h

theorem Good.queueNoOp (h : Good s) (hmain : s.main = .queues .noOp) :
    Good { s with queue := s.queue ++ [.noOp], main := .exited } := by
  refine h.of_main ?_ rfl rfl rfl ?_ ?_ ?_ ?_
  · rw [goesOn, hmain]
  · exact fun n h => nomatch h
  · exact fun h => nomatch h
  · intro hret
    obtain ⟨hrun, hqueue⟩ := h.returned hret
    refine ⟨hrun, ?_⟩
    intro n hmem
    rcases List.mem_append.mp hmem with hmem | hmem
    · exact hqueue n hmem
    · exact nomatch List.mem_singleton.mp hmem
  · exact fun h => nomatch h

/-- The worker ends. -/
theorem Good.finish (h : Good s) (hworker : s.worker = .returned) :
    Good { s with worker := .ended } := by
  have hret : s.worker.hasReturned = true := by
    rw [hworker]
    rfl
  refine ⟨h.notNull, h.notThrown, h.notLate, ?_, h.thread, h.run, fun _ => h.returned hret,
    fun _ => rfl⟩
  have hstarted := h.started
  rw [hworker] at hstarted
  exact iff_of_false (fun h => nomatch h) fun hmain => nomatch hstarted.mpr hmain

/-- A step in time. -/
theorem good_step (h : Good s) (hevent : s.InTime event) (hstep : s.step event = some t) :
    Good t := by
  cases steps_of_step hstep with
  | created hmain => exact h.created hmain
  | notCreated hmain => exact absurd hevent Bool.false_ne_true
  | enqueue hmain hthread =>
    have hrun := h.run (beforeExit_run hmain)
    refine h.of_main ?_ rfl rfl rfl (fun _ _ => hthread) (fun _ => hrun) h.returned ?_
    · rw [goesOn, hmain]
    · exact fun h => nomatch h
  | drop hmain hthread =>
    have hgoes : s.goesOn = true := by rw [goesOn, hmain]
    exact h.of_main hgoes hgoes rfl rfl h.thread h.run h.returned h.left
  | exit hmain =>
    refine h.of_main ?_ rfl rfl rfl ?_ ?_ ?_ ?_
    · rw [goesOn, hmain]
    · exact fun n h => nomatch h
    · exact fun h => nomatch h
    · exact fun hret => ⟨rfl, (h.returned hret).2⟩
    · exact fun h => nomatch h
  | deref f hmain hthread =>
    refine h.of_main ?_ rfl rfl rfl ?_ ?_ h.returned ?_
    · rw [goesOn, hmain]
    · exact fun n h => nomatch h
    · intro hbefore
      cases f with
      | someFunc2 n => exact h.run (beforeExit_derefs hmain)
      | noOp => contradiction
    · exact fun h => nomatch h
  | crash f hmain hthread =>
    rw [h.thread_of_derefs hmain hevent] at hthread
    contradiction
  | throw f hmain hworker => exact absurd hworker (h.not_ended_of_queues hmain hevent)
  | queueFunction n hmain hworker => exact h.queueFunction hmain
  | queueNoOp hmain hworker => exact h.queueNoOp hmain
  | leave hmain =>
    refine h.of_main ?_ rfl rfl rfl ?_ ?_ h.returned (fun _ => hevent)
    · rw [goesOn, hmain]
    · exact fun n h => nomatch h
    · exact fun h => nomatch h
  | begin hworker =>
    exact h.of_worker (by rw [atWork, hworker]) nofun rfl rfl rfl (fun hthread => hthread) nofun
  | publish hworker =>
    exact h.of_worker (by rw [atWork, hworker]) nofun rfl rfl rfl (fun _ => rfl) nofun
  | goOn hworker hrun =>
    exact h.of_worker (by rw [atWork, hworker]) nofun rfl rfl rfl (fun hthread => hthread) nofun
  | stop hworker hrun =>
    exact h.of_worker (by rw [atWork, hworker]) nofun rfl rfl rfl (fun hthread => hthread)
      fun _ => ⟨hrun, hevent hworker hrun⟩
  | apcs hworker hqueue =>
    exact h.of_worker (by rw [atWork, hworker]) nofun rfl rfl rfl (fun hthread => hthread) nofun
  | finish hworker => exact h.finish hworker

/-- A step that is not in time. -/
theorem bad_of_not_inTime (h : Good s) (hevent : ¬ s.InTime event) (hstep : s.step event = some t) :
    Bad t := by
  unfold InTime at hevent
  cases steps_of_step hstep with
  | created hmain => exact absurd rfl hevent
  | notCreated hmain => exact Bad.threw rfl
  | enqueue hmain hthread | drop hmain hthread | exit hmain => exact absurd trivial hevent
  | deref f hmain hthread => exact absurd (fun _ => hthread) hevent
  | crash f hmain hthread => exact Bad.crashed rfl
  | throw f hmain hworker => exact Bad.threw rfl
  | queueFunction n hmain hworker | queueNoOp hmain hworker =>
    exact absurd (fun _ => hworker) hevent
  | leave hmain => exact Bad.left rfl (Bool.not_eq_true _ ▸ hevent)
  | begin hworker | publish hworker | apcs hworker hqueue | finish hworker =>
    refine absurd (fun htest => ?_) hevent
    rw [hworker] at htest
    contradiction
  | goOn hworker hrun =>
    refine absurd (fun _ hfalse => ?_) hevent
    rw [hrun] at hfalse
    contradiction
  | stop hworker hrun =>
    by_contra hgood
    have hmain : s.main ≠ .start := by
      rw [ne_eq, ← h.started, hworker]
      exact nofun
    refine hevent (fun _ _ n hmem => ?_)
    exact hgood (Bad.lost n hmain rfl hmem)

theorem late_step (hlate : s.late = true) (hstep : s.step event = some t) : t.late = true := by
  have htouch : s.touch.late = true := by
    rw [touch, hlate]
    rfl
  cases steps_of_step hstep with
  | begin hworker | publish hworker | goOn hworker hrun | stop hworker hrun | apcs hworker hqueue =>
    exact htouch
  | _ => exact hlate

/-- A worker that has returned runs nothing that is queued. -/
theorem returned_step (hstarted : s.main ≠ .start) (hret : s.worker.hasReturned = true)
    (hstep : s.step event = some t) :
    t.main ≠ .start ∧ t.worker.hasReturned = true ∧ ∀ f ∈ s.queue, f ∈ t.queue := by
  cases steps_of_step hstep with
  | created hmain | notCreated hmain => exact absurd hmain hstarted
  | begin hworker | publish hworker | goOn hworker hrun | stop hworker hrun | apcs hworker hqueue =>
    rw [hworker] at hret
    contradiction
  | finish hworker => exact ⟨hstarted, rfl, fun f hf => hf⟩
  | queueFunction n hmain hworker | queueNoOp hmain hworker =>
    exact ⟨nofun, hret, fun f hf => List.mem_append_left _ hf⟩
  | drop hmain hthread => exact ⟨hstarted, hret, fun f hf => hf⟩
  | _ => exact ⟨nofun, hret, fun f hf => hf⟩

/-- The main thread has come to its end. -/
def stopped (s : State) : Bool :=
  match s.main with
  | .left => true
  | .threw => true
  | .crashed => true
  | _ => false

theorem main_of_stopped (hstopped : s.stopped = true) (hstep : s.step event = some t) :
    t.main = s.main := by
  unfold stopped at hstopped
  cases steps_of_step hstep with
  | created hmain | notCreated hmain | enqueue hmain | exit hmain | deref f hmain | crash f hmain
  | throw f hmain | queueFunction n hmain | queueNoOp hmain | leave hmain =>
    rw [hmain] at hstopped
    contradiction
  | _ => rfl

/-- A worker that goes on when the main thread has left is late, unless it has returned. -/
theorem bad_of_left (hmain : s.main = .left) (hworker : s.worker.hasReturned = false)
    (hstep : s.step event = some t) : Bad t := by
  have hlate : s.touch.late = true := by
    rw [touch, outOfScope, hmain]
    exact Bool.or_true s.late
  cases steps_of_step hstep with
  | begin | publish | goOn | stop | apcs => exact Bad.late hlate
  | finish hreturned =>
    rw [hreturned] at hworker
    contradiction
  | created h | notCreated h | enqueue h | drop h | exit h | deref f h | crash f h | throw f h
  | queueFunction n h | queueNoOp h | leave h =>
    rw [hmain] at h
    contradiction

/-- What went wrong is never put right. -/
theorem bad_step (h : Bad s) (hstep : s.step event = some t) : Bad t := by
  cases h with
  | crashed h =>
    have hmain := main_of_stopped (by rw [stopped, h]) hstep
    exact Bad.crashed (hmain.trans h)
  | threw h =>
    have hmain := main_of_stopped (by rw [stopped, h]) hstep
    exact Bad.threw (hmain.trans h)
  | late h => exact Bad.late (late_step h hstep)
  | lost n hmain hworker hmem =>
    obtain ⟨hmain, hret, hqueue⟩ := returned_step hmain hworker hstep
    exact Bad.lost n hmain hret (hqueue _ hmem)
  | left hmain hworker => exact bad_of_left hmain hworker hstep

/-! ## The end of an interleaving -/

/-- At the end the main thread has left, and the worker has ended. -/
theorem Good.ended (h : Good s) (hdone : ∀ event, s.step event = none) :
    s.main = .left ∧ s.worker = .ended := by
  have hmain : s.main = .left := by
    cases hmain : s.main with
    | start =>
      have hstart := hdone (.start true)
      rw [step, if_pos hmain] at hstart
      contradiction
    | run =>
      have hexit := hdone .exit
      rw [step, if_pos hmain] at hexit
      contradiction
    | derefs f =>
      have hread := hdone .readThread
      unfold step at hread
      rw [hmain] at hread
      contradiction
    | queues f =>
      have hqueue := hdone .queueUserAPC
      unfold step at hqueue
      rw [hmain] at hqueue
      contradiction
    | exited =>
      have hleave := hdone .leave
      rw [step, if_pos hmain] at hleave
      contradiction
    | left => rfl
    | threw => exact absurd hmain h.notThrown
    | crashed => exact absurd hmain h.notNull
  refine ⟨hmain, ?_⟩
  have hret := h.left hmain
  cases hworker : s.worker with
  | ended => rfl
  | returned =>
    have hfinish := hdone .worker
    unfold step workerStep at hfinish
    rw [hworker] at hfinish
    contradiction
  | _ =>
    rw [hworker] at hret
    contradiction

theorem Good.runsQueued (h : Good s) (haccounts : Accounts s)
    (hdone : ∀ event, s.step event = none) : RunsQueued s := by
  have hret : s.worker.hasReturned = true := by
    rw [(h.ended hdone).2]
    rfl
  refine ⟨h.notNull, h.notThrown, ?_, hret, h.notLate⟩
  intro n hn
  have honce := haccounts.once n
  rw [if_pos hn, List.count_append, List.count_eq_zero.mpr ((h.returned hret).2 n),
    Nat.zero_add] at honce
  rw [haccounts.freed]
  exact ⟨honce, honce⟩

/-- A function that is still queued has not run. -/
theorem Bad.not_runsQueued (h : Bad s) (haccounts : Accounts s) : ¬ RunsQueued s := by
  intro hruns
  cases h with
  | crashed h => exact hruns.notNull h
  | threw h => exact hruns.notThrown h
  | late h =>
    rw [hruns.notLate] at h
    contradiction
  | lost n hmain hworker hmem =>
    have honce := haccounts.once n
    have hpos := List.count_pos_iff.mpr hmem
    rw [List.count_append] at honce
    by_cases hn : n < s.queued
    · rw [if_pos hn, (hruns.once n hn).1] at honce
      omega
    · rw [if_neg hn] at honce
      omega
  | left hmain hworker =>
    rw [hruns.returned] at hworker
    contradiction

end Steps

end State

/-- **In which interleavings everything that was queued has run**: in those in which every step is
in time. -/
theorem runsQueued_iff (events : List Event) (s : State)
    (hrun : run State.step .initial events = some s) (hdone : ∀ event, s.step event = none) :
    RunsQueued s ↔ EachStep State.step State.InTime .initial events := by
  have haccounts := run_invariant State.Accounts
    (fun _ _ _ h hstep => State.accounts_step h hstep) hrun State.accounts_initial
  have hexact := run_exact State.Good State.Bad
    (fun _ _ _ h _ hevent hstep => State.good_step h hevent hstep)
    (fun _ _ _ h _ hevent hstep => State.bad_of_not_inTime h hevent hstep)
    (fun _ _ _ h _ hstep => State.bad_step h hstep) eachStep_true hrun State.good_initial
  rcases hexact with ⟨hgood, hsteps⟩ | ⟨hbad, hsteps⟩
  · exact iff_of_true (hgood.runsQueued haccounts hdone) hsteps
  · exact iff_of_false (hbad.not_runsQueued haccounts) hsteps

/-- `Start`, `Enqueue2` and `Exit`, while the worker sleeps; the main thread leaves when `Begin` has
returned. -/
def waits : List Event :=
  [.start true, .worker, .worker, .worker, .enqueue2, .readThread, .queueUserAPC, .exit,
    .readThread, .queueUserAPC, .worker, .worker, .leave, .worker]

/-- The end of such an interleaving. -/
def settled (late : Bool) : State :=
  ⟨.left, .ended, false, true, [], 1, 0, [.someFunc2 0, .noOp], [.someFunc2 0, .noOp], late⟩

theorem step_settled (late : Bool) (event : Event) : (settled late).step event = none := by
  cases event <;> rfl

theorem runsQueued_waits : run State.step .initial waits = some (settled false) ∧
    RunsQueued (settled false) := by
  -- the worker is asked only at its test: it reads first that `Run` is true, then an empty queue
  have hsteps : EachStep State.step State.InTime .initial waits :=
    ⟨rfl, nofun, nofun, fun _ => nofun, trivial, fun _ => rfl, fun _ => nofun, trivial,
      fun _ => rfl, fun _ => nofun, nofun, fun _ _ _ => nofun, rfl, nofun, trivial⟩
  exact ⟨rfl, (runsQueued_iff waits (settled false) rfl (step_settled false)).mpr hsteps⟩

/-- The same calls, and the main thread leaves at once. -/
def leaves : List Event :=
  [.start true, .worker, .worker, .worker, .enqueue2, .readThread, .queueUserAPC, .exit,
    .readThread, .queueUserAPC, .leave, .worker, .worker, .worker]

theorem not_runsQueued_leaves : ¬ ∀ s, run State.step .initial leaves = some s →
    (∀ event, s.step event = none) → RunsQueued s := by
  intro hall
  have hruns := hall (settled true) rfl (step_settled true)
  have hlate := hruns.notLate
  contradiction

end Win32Experiments.Win32Threads.APC2
