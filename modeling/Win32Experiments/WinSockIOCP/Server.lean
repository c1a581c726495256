import Mathlib.Logic.Function.Basic
import Win32Experiments.Foundation.Memory
import Win32Experiments.Foundation.Run

/-!
# The IOCP echo server

`main` accepts connections and posts their first receive; the workers take completions off
the port, send what was received and post the next receive. A step is one of the statements
of a thread that other threads can observe, or the completion of an operation by the kernel.

Buffers are addressable: a `WSABUF` names the `Buffer` of an operation of a connection, or
the `Buffer` of a temporary, which is dead once the statement that made it has ended.
-/

namespace Win32Experiments.WinSockIOCP

open Foundation

/-! ## Operations and connections -/

/-- `OpType`. -/
inductive OpType
  | Accept
  | Recv
  | Send
deriving DecidableEq, Repr

/-- The address of a `Buffer`. -/
inductive Address
  | op (conn : ℕ) (type : OpType)
  | temporary (n : ℕ)
deriving DecidableEq, Repr

/-- `WSABUF`. -/
structure WsaBuf where
  buf : Address
  len : ℕ
deriving DecidableEq, Repr

/-- The size of `IoContext::Buffer`. -/
def bufferSize : ℕ := 4096

/-- `IoContext`, less its `OVERLAPPED`. -/
structure IoContext where
  type : OpType
  wsaBuf : WsaBuf
  buffer : List UInt8
deriving DecidableEq, Repr

/-- The constructor of `IoContext`, for an object whose `Buffer` is at `self`. -/
def IoContext.construct (self : Address) (type : OpType) : IoContext :=
  { type, wsaBuf := ⟨self, bufferSize⟩, buffer := List.replicate bufferSize 0 }

/-- `Connection`, less its socket. -/
structure Connection where
  recvOp : IoContext
  sendOp : IoContext
deriving DecidableEq, Repr

/-- `new Connection`, at the address `conn`. -/
def Connection.construct (conn : ℕ) : Connection :=
  { recvOp := IoContext.construct (.op conn .Recv) .Recv
    sendOp := IoContext.construct (.op conn .Send) .Send }

/-- The operation that an `OVERLAPPED` of the connection belongs to. -/
def Connection.op (conn : Connection) : OpType → IoContext
  | .Send => conn.sendOp
  | _ => conn.recvOp

/-! ## Threads -/

/-- An overlapped operation in the kernel. -/
structure Operation where
  type : OpType
  wsaBuf : WsaBuf
deriving DecidableEq, Repr

/-- What `GetQueuedCompletionStatus` reports: the key, the operation, `ok` and the number of
bytes. -/
structure Completion where
  conn : ℕ
  type : OpType
  ok : Bool
  bytes : ℕ
deriving DecidableEq, Repr

/-- The test `not ok or bytes == 0`. -/
def Completion.failed (d : Completion) : Bool := !d.ok || d.bytes = 0

/-- Where a worker stands: in `GetQueuedCompletionStatus`, behind it, or before the
`WSARecv` or `WSASend` of `PostRecv` or `PostSend`. -/
inductive Worker
  | waiting
  | handling (d : Completion)
  | receiving (conn : ℕ)
  | sending (conn : ℕ)
deriving DecidableEq, Repr

/-- Where `main` stands: in `accept`; before `Associate`; before `PostRecv` and in it, before
`WSARecv`; or unwinding, where the destructors of the workers join threads that never end. -/
inductive Main
  | accepting
  | associating (conn : ℕ)
  | preparing (conn : ℕ)
  | receiving (conn : ℕ)
  | joining
deriving DecidableEq, Repr

/-- A call of `WSASend`: the buffer it names, the bytes there, and the bytes that the last
receive of the connection delivered. -/
structure SendCall where
  conn : ℕ
  wsaBuf : WsaBuf
  sent : List UInt8
  received : List UInt8
deriving DecidableEq, Repr

/-- The server: the heap of connections, the threads, the operations of each connection in
the kernel and the completion queue; and the record of the run. -/
structure Server where
  heap : ℕ → Option Connection
  next : ℕ
  temporaries : ℕ
  main : Main
  workers : List Worker
  pending : ℕ → List Operation
  queue : List Completion
  terminated : Bool
  usedAfterDelete : Bool
  dequeued : List Completion
  deleted : List Completion
  recvCalls : List (ℕ × WsaBuf)
  sendCalls : List SendCall
  delivered : ℕ → List UInt8
  lastReceived : ℕ → List UInt8
  submitted : ℕ → List UInt8

/-- The server with `n` workers when the accept loop starts. -/
def Server.start (n : ℕ) : Server :=
  { heap := fun _ => none, next := 0, temporaries := 0, main := .accepting
    workers := List.replicate n .waiting, pending := fun _ => [], queue := []
    terminated := false, usedAfterDelete := false, dequeued := [], deleted := []
    recvCalls := [], sendCalls := [], delivered := fun _ => [], lastReceived := fun _ => []
    submitted := fun _ => [] }

/-! ## Memory -/

/-- A write to the connection at `conn`; a deleted one must not be written. -/
def Server.modify (s : Server) (conn : ℕ) (f : Connection → Connection) : Server :=
  match s.heap conn with
  | some c => { s with heap := Function.update s.heap conn (some (f c)) }
  | none => { s with usedAfterDelete := true }

/-- What the kernel stores at an address. The memory of a dead temporary is no object's. -/
def Server.store (s : Server) (data : List UInt8) : Address → Server
  | .op conn .Send => s.modify conn fun c =>
    { c with sendOp := { c.sendOp with buffer := Foundation.store c.sendOp.buffer 0 data } }
  | .op conn _ => s.modify conn fun c =>
    { c with recvOp := { c.recvOp with buffer := Foundation.store c.recvOp.buffer 0 data } }
  | .temporary _ => s

/-- The bytes that a `WSABUF` names. -/
def Server.bytesAt (s : Server) (wsaBuf : WsaBuf) : List UInt8 :=
  match wsaBuf.buf with
  | .op conn type =>
    match s.heap conn with
    | some c => window (c.op type).buffer 0 wsaBuf.len
    | none => []
  | .temporary _ => []

/-! ## `PostRecv` and `PostSend` -/

/-- `op = IoContext{ OpType::Recv }`: the temporary is copied with its `WsaBuf`. -/
def Server.prepareRecv (s : Server) (conn : ℕ) : Server :=
  let temporary := IoContext.construct (.temporary s.temporaries) .Recv
  { s with temporaries := s.temporaries + 1 }.modify conn fun c => { c with recvOp := temporary }

/-- `PostSend` up to `WSASend`: the same assignment, and then `len`, the copy of the received
data, and `buf`. -/
def Server.prepareSend (s : Server) (conn bytes : ℕ) : Server :=
  let temporary := IoContext.construct (.temporary s.temporaries) .Send
  { s with temporaries := s.temporaries + 1 }.modify conn fun c =>
    { c with
      sendOp :=
        { temporary with
          buffer := Foundation.store temporary.buffer 0 (window c.recvOp.buffer 0 bytes)
          wsaBuf := ⟨.op conn .Send, bytes⟩ } }

/-- The operation goes to the kernel when the call accepts it: it succeeds or is pending, and
a completion will be queued. -/
def Server.submit (s : Server) (conn : ℕ) (op : Operation) (accepted : Bool) : Server :=
  if accepted then
    { s with pending := Function.update s.pending conn (s.pending conn ++ [op]) }
  else s

/-- `WSARecv(conn.Sock.handle, &op.WsaBuf, ...)`. -/
def Server.wsaRecv (s : Server) (conn : ℕ) (accepted : Bool) : Server :=
  match s.heap conn with
  | some c =>
    let s := { s with recvCalls := s.recvCalls ++ [(conn, c.recvOp.wsaBuf)] }
    s.submit conn ⟨.Recv, c.recvOp.wsaBuf⟩ accepted
  | none => { s with usedAfterDelete := true }

/-- `WSASend(conn.Sock.handle, &op.WsaBuf, ...)`. -/
def Server.wsaSend (s : Server) (conn : ℕ) (accepted : Bool) : Server :=
  match s.heap conn with
  | some c =>
    let sent := s.bytesAt c.sendOp.wsaBuf
    let call : SendCall := ⟨conn, c.sendOp.wsaBuf, sent, s.lastReceived conn⟩
    let s := { s with
      sendCalls := s.sendCalls ++ [call]
      submitted := Function.update s.submitted conn (s.submitted conn ++ sent) }
    s.submit conn ⟨.Send, c.sendOp.wsaBuf⟩ accepted
  | none => { s with usedAfterDelete := true }

/-! ## Steps -/

/-- How an operation completes. -/
inductive Result
  | received (data : List UInt8)
  | sent (bytes : ℕ)
  | failed
deriving DecidableEq, Repr

/-- A step: `accept` returns; `Associate` returns or throws; `PostRecv` of `main` assigns, and
calls `WSARecv`; a worker takes the next completion, handles it up to the call of its post
function, or makes that call; the kernel completes the `i`th operation of a connection. -/
inductive Event
  | accept (ok : Bool)
  | associate (ok : Bool)
  | prepare
  | post (accepted : Bool)
  | dequeue (w : ℕ)
  | handle (w : ℕ)
  | call (w : ℕ) (accepted : Bool)
  | complete (conn i : ℕ) (result : Result)
deriving DecidableEq, Repr

/-- `accept` returned a socket, or failed: the connection is allocated. -/
def Server.accept (s : Server) (ok : Bool) : Server :=
  if ok then
    { s with
      heap := Function.update s.heap s.next (some (Connection.construct s.next))
      next := s.next + 1
      main := .associating s.next }
  else s

/-- `delete conn`. -/
def Server.delete (s : Server) (d : Completion) : Server :=
  { s with
    heap := Function.update s.heap d.conn none
    usedAfterDelete := s.usedAfterDelete || (s.heap d.conn).isNone
    deleted := s.deleted ++ [d] }

/-- The worker `w` moves on. -/
def Server.setWorker (s : Server) (w : ℕ) (state : Worker) : Server :=
  { s with workers := s.workers.set w state }

/-- A worker behind `GetQueuedCompletionStatus`: the test of `ok` and `bytes`, and the
switch on `io->Type`. -/
def Server.handle (s : Server) (w : ℕ) (d : Completion) : Server :=
  if d.failed then (s.delete d).setWorker w .waiting
  else
    match s.heap d.conn with
    | none => { s with usedAfterDelete := true }.setWorker w .waiting
    | some c =>
      match (c.op d.type).type with
      | .Recv => (s.prepareSend d.conn d.bytes).setWorker w (.sending d.conn)
      | .Send => (s.prepareRecv d.conn).setWorker w (.receiving d.conn)
      | .Accept => s.setWorker w .waiting

/-- The call returned: the worker goes back to the port, or the exception leaves the thread
function and the process is terminated. -/
def Server.returned (s : Server) (w : ℕ) (accepted : Bool) : Server :=
  if accepted then s.setWorker w .waiting else { s with terminated := true }

/-- The kernel completes `op` of `conn`. -/
def Server.complete (s : Server) (conn : ℕ) (op : Operation) : Result → Option Server
  | .received data =>
    if op.type = .Recv then
      some { s.store data op.wsaBuf.buf with
        queue := s.queue ++ [⟨conn, op.type, true, data.length⟩]
        delivered := Function.update s.delivered conn (s.delivered conn ++ data)
        lastReceived := Function.update s.lastReceived conn data }
    else none
  | .sent bytes =>
    if op.type = .Send then some { s with queue := s.queue ++ [⟨conn, op.type, true, bytes⟩] }
    else none
  | .failed => some { s with queue := s.queue ++ [⟨conn, op.type, false, 0⟩] }

/-- A step of the server. -/
def Server.step (s : Server) (e : Event) : Option Server :=
  if s.terminated then none
  else
    match e with
    | .accept ok => if s.main = .accepting then some (s.accept ok) else none
    | .associate ok =>
      match s.main with
      | .associating conn => some { s with main := if ok then .preparing conn else .joining }
      | _ => none
    | .prepare =>
      match s.main with
      | .preparing conn => some { s.prepareRecv conn with main := .receiving conn }
      | _ => none
    | .post accepted =>
      match s.main with
      | .receiving conn =>
        some { s.wsaRecv conn accepted with main := if accepted then .accepting else .joining }
      | _ => none
    | .dequeue w =>
      match s.workers[w]?, s.queue with
      | some .waiting, d :: queue =>
        some ({ s with queue, dequeued := s.dequeued ++ [d] }.setWorker w (.handling d))
      | _, _ => none
    | .handle w =>
      match s.workers[w]? with
      | some (.handling d) => some (s.handle w d)
      | _ => none
    | .call w accepted =>
      match s.workers[w]? with
      | some (.receiving conn) => some ((s.wsaRecv conn accepted).returned w accepted)
      | some (.sending conn) => some ((s.wsaSend conn accepted).returned w accepted)
      | _ => none
    | .complete conn i result =>
      match (s.pending conn)[i]? with
      | some op =>
        { s with pending := Function.update s.pending conn ((s.pending conn).eraseIdx i) }.complete
          conn op result
      | none => none

end Win32Experiments.WinSockIOCP
