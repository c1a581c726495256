import Mathlib.Data.Int.Basic
import Mathlib.Logic.Function.Basic
import Win32Experiments.Foundation.Run

/-!
# Coroutines on an I/O completion port

`IoEventLoop`, the four awaitables for overlapped calls, and `Task<>`. The coroutine bodies
are a parameter: a body is a state of `σ`, and `Program.next` says what it does up to its
next suspension point, given the input `ι` it takes from calls that are not awaited.

A coroutine frame is a number. The native stack holds the coroutines that run: the topmost
one, below it those that called `Start`, and at the bottom `main` or `Run`.
-/

namespace Win32Experiments.WinsockCoroutine

open Foundation

/-! ## The event loop -/

/-- A packet of the completion port: the operation, and what `GetQueuedCompletionStatus` and
`GetLastError` report. -/
structure Packet where
  overlapped : ℕ
  ok : Bool
  bytes : ℕ
  error : ℕ
deriving DecidableEq, Repr

/-- `IoEventLoop`. -/
structure IoEventLoop where
  outstandingOps : ℤ
  port : List Packet
deriving DecidableEq, Repr

def IoEventLoop.addOp (loop : IoEventLoop) : IoEventLoop :=
  { loop with outstandingOps := loop.outstandingOps + 1 }

def IoEventLoop.removeOp (loop : IoEventLoop) : IoEventLoop :=
  { loop with outstandingOps := loop.outstandingOps - 1 }

/-! ## The awaitables -/

/-- The awaitables for overlapped calls. -/
inductive Awaitable
  | accept
  | recv
  | send
  | connect
deriving DecidableEq, Repr

/-- What `await_suspend` finds: the result of the call before the overlapped one (the socket
of `WSASocketW`, the address of `ConnectEx`), and whether the overlapped call succeeded or is
pending. -/
structure Submission where
  resource : Option ℕ
  accepted : Bool
deriving DecidableEq, Repr

/-- `AddOp`, the overlapped call, and `RemoveOp` with an exception when it is refused. -/
def IoEventLoop.submit (loop : IoEventLoop) (accepted : Bool) (message : String) :
    IoEventLoop × Except String Unit :=
  let loop := loop.addOp
  if accepted then (loop, .ok ()) else (loop.removeOp, .error message)

/-- `AcceptAwaitable::await_suspend`. -/
def acceptAwaitSuspend (loop : IoEventLoop) (call : Submission) :
    IoEventLoop × Except String Unit :=
  match call.resource with
  | none => (loop, .error "WSASocket failed for accept")
  | some _ => loop.submit call.accepted "AcceptEx failed"

/-- `RecvAwaitable::await_suspend`. -/
def recvAwaitSuspend (loop : IoEventLoop) (call : Submission) :
    IoEventLoop × Except String Unit :=
  loop.submit call.accepted "WSARecv failed"

/-- `SendAwaitable::await_suspend`. -/
def sendAwaitSuspend (loop : IoEventLoop) (call : Submission) :
    IoEventLoop × Except String Unit :=
  loop.submit call.accepted "WSASend failed"

/-- `ConnectAwaitable::await_suspend`. -/
def connectAwaitSuspend (loop : IoEventLoop) (call : Submission) :
    IoEventLoop × Except String Unit :=
  match call.resource with
  | none => (loop, .error "Failed to load ConnectEx")
  | some _ => loop.submit call.accepted "ConnectEx failed"

def Awaitable.awaitSuspend : Awaitable → IoEventLoop → Submission →
    IoEventLoop × Except String Unit
  | .accept => acceptAwaitSuspend
  | .recv => recvAwaitSuspend
  | .send => sendAwaitSuspend
  | .connect => connectAwaitSuspend

/-- Where a submitted operation is. -/
inductive Status
  | submitted
  | queued
  | resumed
deriving DecidableEq, Repr

/-- A submitted operation: the awaitable with its `IoOperation`, the coroutine that submitted
it, and where it is. -/
structure Operation where
  awaitable : Awaitable
  acceptSocket : ℕ
  continuation : Option ℕ
  bytesTransferred : ℕ
  error : ℕ
  submitter : ℕ
  status : Status
deriving DecidableEq, Repr

/-- The waiter of the operation has not been resumed. -/
def Operation.unresumed (op : Operation) : Bool := op.status ≠ .resumed

/-- `AcceptAwaitable::await_resume`. -/
def acceptAwaitResume (loop : IoEventLoop) (op : Operation) : IoEventLoop × Except String ℕ :=
  (loop.removeOp,
    if op.error ≠ 0 then .error "AcceptEx completion failed" else .ok op.acceptSocket)

/-- `RecvAwaitable::await_resume`. -/
def recvAwaitResume (loop : IoEventLoop) (op : Operation) : IoEventLoop × Except String ℕ :=
  (loop.removeOp, .ok op.bytesTransferred)

/-- `SendAwaitable::await_resume`. -/
def sendAwaitResume (loop : IoEventLoop) (op : Operation) : IoEventLoop × Except String ℕ :=
  (loop.removeOp, .ok op.bytesTransferred)

/-- `ConnectAwaitable::await_resume`. -/
def connectAwaitResume (loop : IoEventLoop) (op : Operation) : IoEventLoop × Except String ℕ :=
  (loop.removeOp, if op.error ≠ 0 then .error "ConnectEx completion failed" else .ok 0)

def Operation.awaitResume (op : Operation) (loop : IoEventLoop) : IoEventLoop × Except String ℕ :=
  match op.awaitable with
  | .accept => acceptAwaitResume loop op
  | .recv => recvAwaitResume loop op
  | .send => sendAwaitResume loop op
  | .connect => connectAwaitResume loop op

/-! ## Coroutines -/

/-- What a coroutine body does at the end of a stretch: return, throw, await an overlapped
call or a task it creates, or start a task as a top-level one. -/
inductive Action (σ : Type)
  | coReturn
  | throw (message : String)
  | await (awaitable : Awaitable) (resume : Except String ℕ → σ)
  | awaitTask (task : σ) (resume : Except String Unit → σ)
  | start (task : σ) (rest : σ)

/-- The bodies of the coroutines. -/
structure Program (σ ι : Type) where
  next : σ → ι → Action σ

/-- Where a coroutine stands. -/
inductive FrameState (σ : Type)
  | unallocated
  | running (body : σ)
  | awaitingOp (op : ℕ) (resume : Except String ℕ → σ)
  | awaitingTask (task : ℕ) (resume : Except String Unit → σ)
  | final

/-- A coroutine frame, with the `continuation` and the `exception` of its `TaskPromise`. -/
structure Frame (σ : Type) where
  state : FrameState σ
  continuation : Option ℕ
  exception : Option String

def FrameState.isFinal {σ : Type} : FrameState σ → Bool
  | .final => true
  | _ => false

/-- Where `main` stands: before `Run`, in `Run`, or behind it. -/
inductive Main
  | starting
  | inRun
  | returned
deriving DecidableEq, Repr

/-- A resumption by `Run`: the operation of the packet, the coroutine that was resumed, and
the operation at which that coroutine was suspended. -/
structure Resumption where
  completed : ℕ
  coroutine : ℕ
  suspendedAt : ℕ
deriving DecidableEq, Repr

/-- A program on an event loop: the frames, of which those below `next` have been allocated;
the native stack; the loop; every operation that was submitted; `main`; and the record of the
run, with two marks for what must not happen. -/
structure Machine (σ : Type) where
  frames : ℕ → Frame σ
  next : ℕ
  stack : List ℕ
  loop : IoEventLoop
  ops : List Operation
  main : Main
  dequeued : List ℕ
  resumptions : List Resumption
  unfinishedRead : Bool
  misresumed : Bool

/-- The start of `main`. -/
def Machine.init {σ : Type} : Machine σ :=
  { frames := fun _ => ⟨.unallocated, none, none⟩, next := 0, stack := [], loop := ⟨0, []⟩
    ops := [], main := .starting, dequeued := [], resumptions := [], unfinishedRead := false
    misresumed := false }

section

variable {σ ι : Type} (m : Machine σ)

/-- The number of submitted operations whose waiter has not been resumed. -/
def Machine.unresumed : ℕ := m.ops.countP Operation.unresumed

def Machine.setState (f : ℕ) (state : FrameState σ) : Machine σ :=
  { m with frames := Function.update m.frames f { m.frames f with state } }

/-- A call of a coroutine: its frame is suspended at the start, and resumed at once by
`co_await` or `Start`, which put it on the stack. -/
def Machine.call (task : σ) (continuation : Option ℕ) (stack : List ℕ) : Machine σ :=
  { m with
    frames := Function.update m.frames m.next ⟨.running task, continuation, none⟩
    next := m.next + 1
    stack := m.next :: stack }

/-- `Task::await_resume`: the result of the promise. -/
def Machine.taskResult (task : ℕ) : Except String Unit :=
  match (m.frames task).exception with
  | some message => .error message
  | none => .ok ()

/-- `Task::await_resume`: the promise is read. -/
def Machine.readPromise (task : ℕ) : Machine σ :=
  { m with unfinishedRead := m.unfinishedRead || !(m.frames task).state.isFinal }

/-- The end of a body: `unhandled_exception` or `return_void`, and `FinalAwaiter`, which
transfers to the continuation. -/
def Machine.finish (f : ℕ) (exception : Option String) : Machine σ :=
  let continuation := (m.frames f).continuation
  let m := { m with
    frames := Function.update m.frames f ⟨.final, continuation, exception⟩
    stack := m.stack.tail }
  match continuation with
  | none => m
  | some caller =>
    match (m.frames caller).state with
    | .awaitingTask task resume =>
      { (m.readPromise task).setState caller (.running (resume (m.taskResult task))) with
        stack := caller :: m.stack }
    | _ => { m with misresumed := true }

/-- The running coroutine `f` goes to its next suspension point. -/
def Machine.execute (P : Program σ ι) (f : ℕ) (body : σ) (input : ι) (call : Submission) :
    Machine σ :=
  match P.next body input with
  | .coReturn => m.finish f none
  | .throw message => m.finish f (some message)
  | .await awaitable resume =>
    match awaitable.awaitSuspend m.loop call with
    | (loop, .ok ()) =>
      let op : Operation :=
        ⟨awaitable, call.resource.getD 0, some f, 0, 0, f, .submitted⟩
      { m.setState f (.awaitingOp m.ops.length resume) with
        loop, ops := m.ops ++ [op], stack := m.stack.tail }
    -- an exception out of `await_suspend` resumes the coroutine, which rethrows it
    | (loop, .error message) =>
      { m.setState f (.running (resume (.error message))) with loop }
  | .awaitTask task resume =>
    (m.setState f (.awaitingTask m.next resume)).call task (some f) m.stack.tail
  | .start task rest => (m.setState f (.running rest)).call task none m.stack

/-- `op->continuation.resume()`: the coroutine goes on at the awaitable where it is
suspended, with `await_resume`. -/
def Machine.resume (completed coroutine : ℕ) : Machine σ :=
  match (m.frames coroutine).state with
  | .awaitingOp i resume =>
    match m.ops[i]? with
    | some op =>
      let (loop, result) := op.awaitResume m.loop
      { m.setState coroutine (.running (resume result)) with
        loop
        stack := coroutine :: m.stack
        ops := m.ops.set i { op with status := .resumed }
        resumptions := m.resumptions ++ [⟨completed, coroutine, i⟩] }
    | none => { m with misresumed := true }
  | _ => { m with misresumed := true }

/-- `Run` behind `GetQueuedCompletionStatus`. -/
def Machine.dequeue (packet : Packet) (port : List Packet) : Machine σ :=
  match m.ops[packet.overlapped]? with
  | none => { m with misresumed := true }
  | some op =>
    let error := if packet.ok then 0 else packet.error
    let op := { op with bytesTransferred := packet.bytes, error }
    let m := { m with
      loop := { m.loop with port }
      ops := m.ops.set packet.overlapped op
      dequeued := m.dequeued ++ [packet.overlapped] }
    match op.continuation with
    | some coroutine => m.resume packet.overlapped coroutine
    | none => m

end

/-- A step: `main` starts a task, calls `Run` or reads the promise of a task behind `Run`; the
running coroutine goes on; the port takes the completion of an operation;
`GetQueuedCompletionStatus` fails or returns a packet; `Run` returns. -/
inductive Event (σ ι : Type)
  | start (task : σ)
  | run
  | awaitResume (task : ℕ)
  | execute (input : ι) (call : Submission)
  | complete (packet : Packet)
  | fail
  | dequeue
  | leave

/-- A step of a program on an event loop. -/
def Machine.step {σ ι : Type} (P : Program σ ι) (m : Machine σ) : Event σ ι → Option (Machine σ)
  | .start task =>
    if m.stack = [] ∧ m.main ≠ .inRun then
      some { m.call task none m.stack with main := .starting }
    else none
  | .run => if m.stack = [] ∧ m.main ≠ .inRun then some { m with main := .inRun } else none
  | .awaitResume task =>
    if m.main = .returned ∧ task < m.next then some (m.readPromise task) else none
  | .execute input call =>
    match m.stack with
    | f :: _ =>
      match (m.frames f).state with
      | .running body => some (m.execute P f body input call)
      | _ => none
    | [] => none
  | .complete packet =>
    match m.ops[packet.overlapped]? with
    | some op =>
      if op.status = .submitted then
        some { m with
          loop := { m.loop with port := m.loop.port ++ [packet] }
          ops := m.ops.set packet.overlapped { op with status := .queued } }
      else none
    | none => none
  | .fail =>
    if m.stack = [] ∧ m.main = .inRun ∧ 0 < m.loop.outstandingOps then some m else none
  | .dequeue =>
    if m.stack = [] ∧ m.main = .inRun ∧ 0 < m.loop.outstandingOps then
      match m.loop.port with
      | packet :: port => some (m.dequeue packet port)
      | [] => none
    else none
  | .leave =>
    if m.stack = [] ∧ m.main = .inRun ∧ ¬ 0 < m.loop.outstandingOps then
      some { m with main := .returned }
    else none

/-! ## The coroutines of the server

`AcceptAndServe` accepts one client and awaits `HandleClient`, which echoes until the client
closes. A state is where a body stands: at its start, or behind a `co_await` with its result. -/

/-- The stretches of `AcceptAndServe` and `HandleClient`. -/
inductive ServerBody
  | acceptAndServe
  | accepted (client : Except String ℕ)
  | served (result : Except String Unit)
  | handleClient (client : ℕ)
  | received (client : ℕ) (received : Except String ℕ)
  | sent (client : ℕ) (sent : Except String ℕ)

/-- The bodies; the input says whether `Associate` succeeds. -/
def server : Program ServerBody Bool where
  next
    | .acceptAndServe, _ => .await .accept .accepted
    | .accepted (.ok client), _ => .awaitTask (.handleClient client) .served
    | .accepted (.error message), _ => .throw message
    | .served (.ok ()), _ => .coReturn
    | .served (.error message), _ => .throw message
    | .handleClient client, associated =>
      if associated then .await .recv (.received client)
      else .throw "Failed to associate socket with IOCP"
    | .received _ (.ok 0), _ => .coReturn
    | .received client (.ok _), _ => .await .send (.sent client)
    | .received _ (.error message), _ => .throw message
    | .sent client (.ok _), _ => .await .recv (.received client)
    | .sent _ (.error message), _ => .throw message

end Win32Experiments.WinsockCoroutine
