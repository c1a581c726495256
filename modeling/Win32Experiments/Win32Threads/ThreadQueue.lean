import Mathlib.Data.Nat.Notation
import Win32Experiments.Foundation.Run

/-!
# `ThreadMessageQueue`

An owner starts a thread that runs a message loop, waits until it is ready, posts to it and joins
it. `WindowThread` posts to a hidden window, `NoWindowThread` to the thread. What a call of the
system brings (that a window is created, that a wait times out, that a queue is full) is in the
labels of the steps.

The destructor of `m_thread`, which joins, runs when the derived object is gone: a thread that calls
`self->Run()` as late as that calls the pure virtual function of `BaseThread`, and the process ends.
-/

namespace Win32Experiments.Win32Threads.ThreadMessageQueue

open Foundation

/-- The classes that derive from `BaseThread`. -/
inductive Kind where
  | windowThread
  | noWindowThread
deriving DecidableEq, Repr

/-- `Msg::MessageBase`, `Msg::Close` and `Msg::QuitMsg`; and what the system posts to windows. -/
inductive Msg where
  | messageBase
  | close
  | quitMsg
  | system (n : ℕ)
deriving DecidableEq, Repr

/-- Whether the message was posted by a call. -/
def Msg.isCall : Msg → Bool
  | .system _ => false
  | _ => true

/-- What the owner calls of a thread that is ready. -/
inductive Call where
  | postMessage
  | postQuit
deriving DecidableEq, Repr

/-- What `PostMessage` and `PostQuit` post. -/
def Kind.posts : Kind → Call → Msg
  | _, .postMessage => .messageBase
  | .windowThread, .postQuit => .close
  | .noWindowThread, .postQuit => .quitMsg

/-- The owner: before `Start`, in `WaitOnReady`, between its calls, in the destructor of `m_thread`
and behind it. The destructor is also reached by an exception. -/
inductive Owner where
  | start
  | waits
  | calls
  | joins
  | done
deriving DecidableEq, Repr

/-- The thread: not there, before it writes `m_threadId`, before `self->Run()`, before it has its
queue, before `m_ready.Signal()`, in `GetMessageW`, behind it with a message, behind the loop and
still there, ended; or it has called the pure virtual `Run`. -/
inductive Worker where
  | notStarted
  | enters
  | runs
  | prepares
  | signals
  | gets
  | handles (msg : Msg)
  | leaves (code : ℕ)
  | ended (code : ℕ)
  | crashed
deriving DecidableEq, Repr

/-- `GetMessageW` has returned 0. -/
def Worker.hasLeft : Worker → Bool
  | .leaves code => code = 0
  | .ended code => code = 0
  | _ => false

/-- Both threads. `left` are the calls that the owner has still to make and `accepted` those that
have posted; `receives` is whether there is a window, or a queue of the thread; `posted` and
`handled` record what was put into the queue and what the loop has handled, and `late` what was
posted when the loop had been left. -/
structure BaseThread where
  owner : Owner
  worker : Worker
  threadId : Bool
  ready : Bool
  receives : Bool
  queue : List Msg
  quit : Bool
  left : List Call
  accepted : List Call
  posted : List Msg
  handled : List Msg
  late : List Msg
deriving DecidableEq, Repr

/-- A step of the owner, one of the thread, or a message of the system to the window. -/
inductive Event where
  | owner (ok : Bool)
  | worker (ok : Bool)
  | system (n : ℕ)
deriving DecidableEq, Repr

namespace BaseThread

/-- Before `Start`, for an owner that makes `calls`. -/
def initial (calls : List Call) : BaseThread :=
  { owner := .start, worker := .notStarted, threadId := false, ready := false, receives := false
    queue := [], quit := false, left := calls, accepted := [], posted := [], handled := []
    late := [] }

/-- The thread has ended. -/
def hasEnded (s : BaseThread) : Bool :=
  match s.worker with
  | .ended _ => true
  | _ => false

/-- There is something to post to: `m_threadId`, and behind it a queue or a window. -/
def canReceive (s : BaseThread) : Bool := s.threadId && s.receives && !s.hasEnded

/-- A message is put into the queue, which is there until the thread has ended. -/
def post (s : BaseThread) (msg : Msg) : BaseThread :=
  { s with
    queue := s.queue ++ [msg]
    posted := s.posted ++ [msg]
    late := if s.worker.hasLeft then s.late ++ [msg] else s.late }

/-- `PostMessage` and `PostQuit`, where the queue has room if `ok`. -/
def call (kind : Kind) (s : BaseThread) (ok : Bool) (c : Call) (rest : List Call) : BaseThread :=
  if s.canReceive && ok then
    { s.post (kind.posts c) with left := rest, accepted := s.accepted ++ [c] }
  else { s with owner := .joins }

/-- A step of the owner. `WaitOnReady` times out when the event is not set. -/
def ownerStep (kind : Kind) (s : BaseThread) (ok : Bool) : Option BaseThread :=
  match s.owner with
  | .start => some { s with owner := .waits, worker := .enters }
  | .waits =>
    if s.ready then some { s with owner := .calls }
    else if ok then none
    else some { s with owner := .joins }
  | .calls =>
    match s.left with
    | [] => some { s with owner := .joins }
    | c :: rest => some (s.call kind ok c rest)
  | .joins => if s.hasEnded then some { s with owner := .done } else none
  | .done => none

/-- `GetMessageW`: the posted messages come before the quit that `PostQuitMessage` has asked for. -/
def getMessage (s : BaseThread) : Option BaseThread :=
  match s.queue with
  | msg :: rest =>
    some { s with
      queue := rest
      worker := if msg = .quitMsg then .leaves 0 else .handles msg }
  | [] => if s.quit then some { s with worker := .leaves 0 } else none

/-- A step of the thread. The window thread dispatches the message, and its `WndProc` calls
`PostQuitMessage` for `Close`. -/
def workerStep (kind : Kind) (s : BaseThread) (ok : Bool) : Option BaseThread :=
  match s.worker with
  | .notStarted => none
  | .enters => some { s with threadId := true, worker := .runs }
  -- Behind a time-out the derived object is gone, and `Run` is that of `BaseThread`.
  | .runs => some { s with worker := if s.owner = .joins then .crashed else .prepares }
  | .prepares =>
    match kind, ok with
    -- `RegisterClassExW` or `CreateWindowExW` failed, and `Run` throws.
    | .windowThread, false => some { s with worker := .leaves 1 }
    | .windowThread, true => some { s with receives := true, worker := .signals }
    -- `PeekMessageW` creates the queue.
    | .noWindowThread, _ => some { s with receives := true, worker := .signals }
  | .signals => some { s with ready := true, worker := .gets }
  | .gets => s.getMessage
  | .handles msg =>
    some { s with
      worker := .gets
      handled := s.handled ++ [msg]
      quit := s.quit || (kind = .windowThread && msg = .close) }
  | .leaves code => some { s with worker := .ended code }
  | .ended _ => none
  | .crashed => none

/-- A step. -/
def step (kind : Kind) (s : BaseThread) : Event → Option BaseThread
  | .owner ok => s.ownerStep kind ok
  | .worker ok => s.workerStep kind ok
  | .system n =>
    if kind = .windowThread ∧ s.receives ∧ ¬ s.hasEnded then some (s.post (.system n)) else none

/-- What a step can do, case by case. -/
inductive Steps (kind : Kind) (s : BaseThread) : Event → BaseThread → Prop
  | start {ok : Bool} (howner : s.owner = .start) :
    Steps kind s (.owner ok) { s with owner := .waits, worker := .enters }
  | ready {ok : Bool} (howner : s.owner = .waits) (hready : s.ready = true) :
    Steps kind s (.owner ok) { s with owner := .calls }
  | timeout (howner : s.owner = .waits) (hready : s.ready = false) :
    Steps kind s (.owner false) { s with owner := .joins }
  | leave {ok : Bool} (howner : s.owner = .calls) (hleft : s.left = []) :
    Steps kind s (.owner ok) { s with owner := .joins }
  | post {c : Call} {rest : List Call} (howner : s.owner = .calls) (hleft : s.left = c :: rest)
    (hreceive : s.canReceive = true) :
    Steps kind s (.owner true)
      { s.post (kind.posts c) with left := rest, accepted := s.accepted ++ [c] }
  | throw {ok : Bool} {c : Call} {rest : List Call} (howner : s.owner = .calls)
    (hleft : s.left = c :: rest) (hfailed : s.canReceive = false ∨ ok = false) :
    Steps kind s (.owner ok) { s with owner := .joins }
  | join {ok : Bool} (howner : s.owner = .joins) (hended : s.hasEnded = true) :
    Steps kind s (.owner ok) { s with owner := .done }
  | enter {ok : Bool} (hworker : s.worker = .enters) :
    Steps kind s (.worker ok) { s with threadId := true, worker := .runs }
  | run {ok : Bool} (hworker : s.worker = .runs) (hlives : s.owner ≠ .joins) :
    Steps kind s (.worker ok) { s with worker := .prepares }
  | crash {ok : Bool} (hworker : s.worker = .runs) (hgone : s.owner = .joins) :
    Steps kind s (.worker ok) { s with worker := .crashed }
  | notCreated (hworker : s.worker = .prepares) (hkind : kind = .windowThread) :
    Steps kind s (.worker false) { s with worker := .leaves 1 }
  | create {ok : Bool} (hworker : s.worker = .prepares)
    (hok : kind = .windowThread → ok = true) :
    Steps kind s (.worker ok) { s with receives := true, worker := .signals }
  | signal {ok : Bool} (hworker : s.worker = .signals) :
    Steps kind s (.worker ok) { s with ready := true, worker := .gets }
  | get {ok : Bool} {msg : Msg} {rest : List Msg} (hworker : s.worker = .gets)
    (hqueue : s.queue = msg :: rest) (hmsg : msg ≠ .quitMsg) :
    Steps kind s (.worker ok) { s with queue := rest, worker := .handles msg }
  | getQuit {ok : Bool} {rest : List Msg} (hworker : s.worker = .gets)
    (hqueue : s.queue = .quitMsg :: rest) :
    Steps kind s (.worker ok) { s with queue := rest, worker := .leaves 0 }
  | quit {ok : Bool} (hworker : s.worker = .gets) (hqueue : s.queue = []) (hquit : s.quit = true) :
    Steps kind s (.worker ok) { s with worker := .leaves 0 }
  | handle {ok : Bool} {msg : Msg} (hworker : s.worker = .handles msg) :
    Steps kind s (.worker ok)
      { s with
        worker := .gets
        handled := s.handled ++ [msg]
        quit := s.quit || (kind = .windowThread && msg = .close) }
  | finish {ok : Bool} {code : ℕ} (hworker : s.worker = .leaves code) :
    Steps kind s (.worker ok) { s with worker := .ended code }
  | system {n : ℕ} (hkind : kind = .windowThread) (hreceives : s.receives = true)
    (hended : s.hasEnded = false) : Steps kind s (.system n) (s.post (.system n))

variable {kind : Kind} {s t : BaseThread} {e : Event} {ok : Bool}

theorem steps_of_ownerStep (hstep : s.ownerStep kind ok = some t) : Steps kind s (.owner ok) t := by
  unfold ownerStep at hstep
  cases howner : s.owner with
  | start =>
    rw [howner, Option.some.injEq] at hstep
    exact hstep ▸ Steps.start howner
  | waits =>
    simp only [howner] at hstep
    by_cases hready : s.ready = true
    · rw [if_pos hready, Option.some.injEq] at hstep
      exact hstep ▸ Steps.ready howner hready
    · rw [if_neg hready, Option.ite_none_left_eq_some, Bool.not_eq_true,
        Option.some.injEq] at hstep
      obtain ⟨rfl, rfl⟩ := hstep
      exact Steps.timeout howner (Bool.eq_false_iff.mpr hready)
  | calls =>
    simp only [howner] at hstep
    split at hstep
    · next hleft =>
      rw [Option.some.injEq] at hstep
      exact hstep ▸ Steps.leave howner hleft
    · next c rest hleft =>
      rw [Option.some.injEq, call] at hstep
      by_cases hboth : (s.canReceive && ok) = true
      · rw [if_pos hboth] at hstep
        obtain ⟨hreceive, rfl⟩ := Bool.and_eq_true_iff.mp hboth
        exact hstep ▸ Steps.post howner hleft hreceive
      · rw [if_neg hboth] at hstep
        rw [Bool.not_eq_true, Bool.and_eq_false_iff] at hboth
        exact hstep ▸ Steps.throw howner hleft hboth
  | joins =>
    simp only [howner, Option.ite_none_right_eq_some, Option.some.injEq] at hstep
    exact hstep.2 ▸ Steps.join howner hstep.1
  | done =>
    rw [howner] at hstep
    contradiction

theorem steps_of_workerStep (hstep : s.workerStep kind ok = some t) :
    Steps kind s (.worker ok) t := by
  unfold workerStep at hstep
  cases hworker : s.worker with
  | notStarted | ended code | crashed =>
    rw [hworker] at hstep
    contradiction
  | enters =>
    rw [hworker, Option.some.injEq] at hstep
    exact hstep ▸ Steps.enter hworker
  | runs =>
    simp only [hworker, Option.some.injEq] at hstep
    by_cases howner : s.owner = .joins
    · rw [if_pos howner] at hstep
      exact hstep ▸ Steps.crash hworker howner
    · rw [if_neg howner] at hstep
      exact hstep ▸ Steps.run hworker howner
  | prepares =>
    simp only [hworker] at hstep
    cases kind with
    | noWindowThread =>
      rw [Option.some.injEq] at hstep
      exact hstep ▸ Steps.create hworker nofun
    | windowThread =>
      cases ok with
      | false =>
        rw [Option.some.injEq] at hstep
        exact hstep ▸ Steps.notCreated hworker rfl
      | true =>
        rw [Option.some.injEq] at hstep
        exact hstep ▸ Steps.create hworker fun _ => rfl
  | signals =>
    rw [hworker, Option.some.injEq] at hstep
    exact hstep ▸ Steps.signal hworker
  | gets =>
    simp only [hworker, getMessage] at hstep
    split at hstep
    · next msg rest hqueue =>
      rw [Option.some.injEq] at hstep
      by_cases hmsg : msg = .quitMsg
      · rw [if_pos hmsg] at hstep
        exact hstep ▸ Steps.getQuit hworker (hmsg ▸ hqueue)
      · rw [if_neg hmsg] at hstep
        exact hstep ▸ Steps.get hworker hqueue hmsg
    · next hqueue =>
      rw [Option.ite_none_right_eq_some, Option.some.injEq] at hstep
      exact hstep.2 ▸ Steps.quit hworker hqueue hstep.1
  | handles msg =>
    rw [hworker, Option.some.injEq] at hstep
    exact hstep ▸ Steps.handle hworker
  | leaves code =>
    rw [hworker, Option.some.injEq] at hstep
    exact hstep ▸ Steps.finish hworker

theorem steps_of_step (hstep : s.step kind e = some t) : Steps kind s e t := by
  match e with
  | .owner ok => exact steps_of_ownerStep hstep
  | .worker ok => exact steps_of_workerStep hstep
  | .system n =>
    rw [step, Option.ite_none_right_eq_some, Option.some.injEq, Bool.not_eq_true] at hstep
    obtain ⟨⟨hkind, hreceives, hended⟩, ht⟩ := hstep
    exact ht ▸ Steps.system hkind hreceives hended

end BaseThread

end Win32Experiments.Win32Threads.ThreadMessageQueue
