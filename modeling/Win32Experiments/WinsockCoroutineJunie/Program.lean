import Mathlib.Logic.Function.Basic
import Win32Experiments.Foundation.Memory
import Win32Experiments.Foundation.Owners
import Win32Experiments.Foundation.Run

/-!
# An echo server and its client as coroutines of one thread

`main` starts `Server::Run` and `Client::Run`, and resumes them, and a `HandleClient` for each
connection, from the packets of a completion port. A coroutine runs from one `co_await` to the
next in one step. What the calls on the way answer is in the label of the step; what the kernel
does with the overlapped operations are steps of their own.
-/

namespace Win32Experiments.WinsockCoroutineJunie

open Foundation

/-! ## Awaitables and coroutines -/

/-- `IoResult`. -/
structure IoResult where
  bytes : ℕ
  error : ℕ
deriving DecidableEq, Repr

/-- `IoAwaitable`, less its `OVERLAPPED`. A handle is the number of a coroutine. -/
structure IoAwaitable where
  handle : Option ℕ
  result : IoResult
deriving DecidableEq, Repr

/-- The constructor of `IoAwaitable`. -/
def IoAwaitable.construct : IoAwaitable := { handle := none, result := ⟨0, 0⟩ }

/-- The variables of a coroutine that hold an `IoAwaitable`. -/
inductive Variable where
  | acceptOp
  | connectOp
  | sendOp
  | recvOp
deriving DecidableEq, Repr

/-- The address of an `IoAwaitable`: variables are in the frame of their coroutine. -/
structure Address where
  frame : ℕ
  name : Variable
deriving DecidableEq, Repr

/-- The frame of a suspended coroutine: at which `co_await`, and its variables there. -/
inductive Frame where
  | serverRun (listenSock acceptSock : ℕ)
  | handleRecv (s : ℕ) (buffer : List UInt8)
  | handleSend (s : ℕ) (buffer : List UInt8)
  | clientConnect (s : ℕ)
  | clientSend (s : ℕ)
  | clientRecv (s : ℕ) (recvBuf : List UInt8)
deriving DecidableEq, Repr

/-- The awaitable that the coroutine waits for. -/
def Frame.awaits : Frame → Variable
  | .serverRun .. => .acceptOp
  | .clientConnect .. => .connectOp
  | .handleSend .. | .clientSend .. => .sendOp
  | .handleRecv .. | .clientRecv .. => .recvOp

/-- The sockets that the coroutine has to close. -/
def Frame.sockets : Frame → List ℕ
  | .serverRun listenSock acceptSock => [acceptSock, listenSock]
  | .handleRecv s _ | .handleSend s _ | .clientConnect s | .clientSend s | .clientRecv s _ => [s]

/-- The frame with `data` written to its buffer. -/
def Frame.store (data : List UInt8) : Frame → Frame
  | .handleRecv s buffer => .handleRecv s (Foundation.store buffer 0 data)
  | .clientRecv s recvBuf => .clientRecv s (Foundation.store recvBuf 0 data)
  | f => f

/-- The size of `buffer` and `recvBuf`. -/
def bufferSize : ℕ := 1024

/-- `message`. -/
def message : List UInt8 :=
  "Hello from C++23 Coroutine Client!".toList.map fun c => UInt8.ofNat c.toNat

/-! ## The kernel -/

/-- What an operation is to do. Of a send, the bytes that were transmitted and the others. -/
inductive Request where
  | accept (acceptSock : ℕ)
  | connect
  | send (done rest : List UInt8)
  | recv (size : ℕ)
deriving DecidableEq, Repr

def Request.isAccept : Request → Bool
  | .accept _ => true
  | _ => false

/-- An overlapped operation, on a socket that may be associated with the port. -/
structure Operation where
  overlapped : Address
  socket : ℕ
  request : Request
deriving DecidableEq, Repr

/-- What `GetQueuedCompletionStatus` reports; it returns `TRUE` if the error is 0. -/
structure Packet where
  operation : Operation
  bytes : ℕ
  error : ℕ
deriving DecidableEq, Repr

def WAIT_TIMEOUT : ℕ := 258

/-- How an operation ends. `own` says that the accepted connection is the one of `Client::Run`. -/
inductive Outcome where
  | accepted (own : Bool)
  | connected
  | sent
  | received (data : List UInt8)
  | failed (error : ℕ)
deriving DecidableEq, Repr

/-- What the sockets have sent and received. `client` is the socket that `Client::Run` connects and
`link` the one that its connection was accepted at; `short` says that a send has ended before all
was sent. -/
structure Traffic where
  client : Option ℕ
  link : Option ℕ
  sent : ℕ → List UInt8
  consumed : ℕ → List UInt8
  short : Bool

namespace Traffic

def empty : Traffic :=
  { client := none, link := none, sent := fun _ => [], consumed := fun _ => [], short := false }

/-- The socket at the other end of the connection, if it is one of the program's. -/
def peer (t : Traffic) (s : ℕ) : Option ℕ :=
  if t.link = some s then t.client
  else if t.client = some s then t.link
  else none

/-- What TCP promises: a connection is accepted once, a send that succeeds has sent everything, a
receive fits into its buffer and brings what the other end has sent, in order. -/
def Permits (t : Traffic) (op : Operation) : Outcome → Bool
  | .accepted own =>
    match op.request with
    | .accept _ => !own || (t.link.isNone && t.client.any fun c => (t.consumed c).isEmpty)
    | _ => false
  | .connected => op.request = .connect
  | .sent =>
    match op.request with
    | .send _ rest => rest.isEmpty
    | _ => false
  | .received data =>
    match op.request with
    | .recv size =>
      data.length ≤ size &&
        (t.peer op.socket).all fun q => (t.consumed op.socket ++ data).isPrefixOf (t.sent q)
    | _ => false
  | .failed error => error ≠ 0

/-- The socket sends `bytes`. -/
def transmit (t : Traffic) (s : ℕ) (bytes : List UInt8) : Traffic :=
  { t with sent := Function.update t.sent s (t.sent s ++ bytes) }

/-- The socket receives `data`. -/
def receive (t : Traffic) (s : ℕ) (data : List UInt8) : Traffic :=
  { t with consumed := Function.update t.consumed s (t.consumed s ++ data) }

/-- A send ends before `rest` is sent. -/
def cut (t : Traffic) (rest : List UInt8) : Traffic := { t with short := t.short || !rest.isEmpty }

/-- A connection is accepted at the socket. -/
def accept (t : Traffic) (s : ℕ) (own : Bool) : Traffic :=
  { t with link := if own then some s else t.link }

end Traffic

/-! ## The program -/

/-- What is printed. -/
inductive Line where
  | registerFailed
  | serverSocketFailed
  | bindFailed
  | listenFailed
  | listening
  | acceptFailed
  | clientConnected
  | clientSocketFailed
  | connecting
  | connectFailed
  | connectionFailed (error : ℕ)
  | connected
  | sending
  | received (text : List UInt8)
  | receiveError (error : ℕ)
  | finished
deriving DecidableEq, Repr

/-- Where `main` is: before `Server::Run()`, before `Client::Run()`, in its loop, behind it. -/
inductive Main where
  | server
  | client
  | loop
  | exited
deriving DecidableEq, Repr

/-- The program and the kernel. `silent` are operations that have ended and that no packet will
tell of, `unclosed` the sockets that a coroutine left behind; `corrupt` is set when a handle is
resumed, or a buffer written, that is not there, and `misused` when a socket is used that is not
open; `invalid` counts the calls that are given `INVALID_SOCKET`. -/
structure Program where
  main : Main
  frames : List (Option Frame)
  awaitables : Address → IoAwaitable
  sockets : Handles
  associated : List ℕ
  pending : List Operation
  port : List Packet
  silent : List Operation
  unclosed : List ℕ
  stop : Bool
  corrupt : Bool
  misused : Bool
  invalid : ℕ
  traffic : Traffic
  output : List Line

namespace Program

/-- Behind the initialisation, before `Server::Run()`. -/
def start : Program :=
  { main := .server, frames := [], awaitables := fun _ => IoAwaitable.construct
    sockets := Handles.empty, associated := [], pending := [], port := [], silent := []
    unclosed := [], stop := false, corrupt := false, misused := false, invalid := 0
    traffic := Traffic.empty, output := [] }

/-- The operations that no coroutine was resumed for. -/
def outstanding (p : Program) : List Operation :=
  p.pending ++ p.port.map Packet.operation ++ p.silent

/-! ### Calls -/

def println (p : Program) (line : Line) : Program := { p with output := p.output ++ [line] }

/-- `socket(AF_INET, SOCK_STREAM, IPPROTO_TCP)`, which returns `p.sockets.opened`. -/
def socket (p : Program) : Program := { p with sockets := p.sockets.create }

def closesocket (p : Program) (s : ℕ) : Program := { p with sockets := p.sockets.close s }

/-- A call that is given the socket. -/
def use (p : Program) (s : ℕ) : Program :=
  { p with misused := p.misused || !decide (p.sockets.Live s) }

/-- A call that is given `INVALID_SOCKET`, and fails. -/
def useInvalid (p : Program) : Program := { p with invalid := p.invalid + 1 }

/-- `RegisterSocket`, where the association succeeds if `ok`. -/
def RegisterSocket (p : Program) (s : ℕ) (ok : Bool) : Program :=
  if ok then { p.use s with associated := s :: p.associated }
  else (p.use s).println .registerFailed

/-- The coroutine returns without closing the socket. -/
def leave (p : Program) (s : ℕ) : Program := { p with unclosed := s :: p.unclosed }

/-- A coroutine is called. -/
def call (p : Program) : Program := { p with frames := p.frames ++ [none] }

/-- The operation is submitted, and `co_await` suspends the coroutine `i`. -/
def suspend (p : Program) (i : ℕ) (f : Frame) (socket : ℕ) (request : Request) : Program :=
  let overlapped : Address := ⟨i, f.awaits⟩
  { p with
    frames := p.frames.set i (some f)
    awaitables :=
      Function.update p.awaitables overlapped { IoAwaitable.construct with handle := some i }
    pending := p.pending ++ [⟨overlapped, socket, request⟩] }

/-! ### `HandleClient` -/

/-- `HandleClient` up to the `co_await recvOp`. -/
def receive (p : Program) (i s : ℕ) (buffer : List UInt8) (submitted : Bool) : Program :=
  let p := p.use s
  if submitted then p.suspend i (.handleRecv s buffer) s (.recv bufferSize)
  else p.closesocket s

/-- `HandleClient(s)`. What is in the buffer before the first receive is not read. -/
def handleClient (p : Program) (s : ℕ) (submitted : Bool) : Program :=
  p.call.receive p.frames.length s (List.replicate bufferSize 0) submitted

/-! ### `Server::Run` -/

/-- What the calls of the loop of `Server::Run` answer. -/
structure AcceptCall where
  created : Bool
  associated : Bool
  submitted : Bool
deriving DecidableEq, Repr

/-- The loop of `Server::Run` up to the `co_await acceptOp`, and what is behind the loop. -/
def acceptLoop (p : Program) (i listenSock : ℕ) (answer : AcceptCall) : Program :=
  if p.stop then p.closesocket listenSock
  else
    if answer.created then
      let acceptSock := p.sockets.opened
      let p := p.socket.RegisterSocket acceptSock answer.associated
      let p := (p.use listenSock).use acceptSock
      if answer.submitted then
        p.suspend i (.serverRun listenSock acceptSock) listenSock (.accept acceptSock)
      else ((p.println .acceptFailed).closesocket acceptSock).closesocket listenSock
    else
      -- the answer of `socket` is not looked at: all three calls are given `INVALID_SOCKET`
      let p := p.useInvalid.println .registerFailed
      let p := (p.use listenSock).useInvalid.println .acceptFailed
      p.useInvalid.closesocket listenSock

/-- What the calls of `Server::Run` before its loop answer, and those in the loop. -/
structure ServerCall where
  created : Bool
  associated : Bool
  bound : Bool
  listening : Bool
  accept : AcceptCall
deriving DecidableEq, Repr

/-- `Server::Run()`. -/
def serverRun (p : Program) (answer : ServerCall) : Program :=
  let i := p.frames.length
  let p := p.call
  if answer.created then
    let listenSock := p.sockets.opened
    let p := (p.socket.RegisterSocket listenSock answer.associated).use listenSock
    if answer.bound then
      let p := p.use listenSock
      if answer.listening then (p.println .listening).acceptLoop i listenSock answer.accept
      else (p.println .listenFailed).leave listenSock
    else (p.println .bindFailed).leave listenSock
  else p.println .serverSocketFailed

/-! ### `Client::Run` -/

/-- What the calls of `Client::Run` up to `ConnectEx` answer. -/
structure ClientCall where
  created : Bool
  associated : Bool
  submitted : Bool
deriving DecidableEq, Repr

/-- `Client::Run()`. The answer of `bind` is not looked at. -/
def clientRun (p : Program) (answer : ClientCall) : Program :=
  let i := p.frames.length
  let p := p.call
  if answer.created then
    let s := p.sockets.opened
    let p := (p.socket.RegisterSocket s answer.associated).use s
    let p := (p.println .connecting).use s
    if answer.submitted then
      { p with traffic := { p.traffic with client := some s } }.suspend i (.clientConnect s) s
        .connect
    else (p.println .connectFailed).closesocket s
  else p.println .clientSocketFailed

/-! ### Resumption -/

/-- What the calls of a coroutine between two suspensions answer: whether the operation is
submitted, and for `Server::Run` what its loop is answered behind `HandleClient`. -/
structure Answers where
  submitted : Bool
  accept : AcceptCall
deriving DecidableEq, Repr

/-- The coroutine `i`, which waited in `f`, up to its next suspension or its end. -/
def resume (p : Program) (i : ℕ) (f : Frame) (answers : Answers) : Program :=
  let result := (p.awaitables ⟨i, f.awaits⟩).result
  match f with
  | .serverRun listenSock acceptSock =>
    if p.stop then (p.closesocket acceptSock).closesocket listenSock
    else
      let p := ((p.use acceptSock).println .clientConnected).handleClient acceptSock
        answers.submitted
      p.acceptLoop i listenSock answers.accept
  | .handleRecv s buffer =>
    if result.bytes = 0 ∨ result.error ≠ 0 then p.closesocket s
    else
      let p := p.use s
      if answers.submitted then
        p.suspend i (.handleSend s buffer) s (.send [] (window buffer 0 result.bytes))
      else p.closesocket s
  | .handleSend s buffer => p.receive i s buffer answers.submitted
  | .clientConnect s =>
    if result.error ≠ 0 then (p.println (.connectionFailed result.error)).closesocket s
    else
      let p := (((p.use s).println .connected).println .sending).use s
      if answers.submitted then p.suspend i (.clientSend s) s (.send [] message)
      else p.closesocket s
  | .clientSend s =>
    let p := p.use s
    if answers.submitted then
      p.suspend i (.clientRecv s (List.replicate bufferSize 0)) s (.recv bufferSize)
    else p.closesocket s
  | .clientRecv s recvBuf =>
    let line : Line :=
      if result.error = 0 then .received (window recvBuf 0 result.bytes)
      else .receiveError result.error
    { ((p.println line).closesocket s).println .finished with stop := true }

/-- The loop of `main` takes a packet: `awaitable->result` is written and `awaitable->handle`
resumed. -/
def dispatch (p : Program) (packet : Packet) (answers : Answers) : Program :=
  if packet.error = WAIT_TIMEOUT then { p with silent := p.silent ++ [packet.operation] }
  else
    let overlapped := packet.operation.overlapped
    let awaitable : IoAwaitable :=
      { p.awaitables overlapped with result := ⟨packet.bytes, packet.error⟩ }
    let p := { p with awaitables := Function.update p.awaitables overlapped awaitable }
    match awaitable.handle with
    | none => { p with corrupt := true }
    | some i =>
      match objectAt p.frames i with
      | none => { p with corrupt := true }
      | some f => { p with frames := p.frames.set i none }.resume i f answers

/-! ### What the kernel does -/

/-- The end of an operation is queued to the port that its socket is associated with. -/
def report (p : Program) (op : Operation) (bytes error : ℕ) : Program :=
  if op.socket ∈ p.associated then { p with port := p.port ++ [⟨op, bytes, error⟩] }
  else { p with silent := p.silent ++ [op] }

/-- The kernel writes to the buffer in a frame. -/
def store (p : Program) (i : ℕ) (data : List UInt8) : Program :=
  match objectAt p.frames i with
  | some f => { p with frames := p.frames.set i (some (f.store data)) }
  | none => { p with corrupt := true }

/-- An operation ends. -/
def complete (p : Program) (op : Operation) (outcome : Outcome) : Program :=
  match op.request, outcome with
  | .accept acceptSock, .accepted own =>
    { p with traffic := p.traffic.accept acceptSock own }.report op 0 0
  | .recv _, .received data =>
    let p := { p with traffic := p.traffic.receive op.socket data }
    (p.store op.overlapped.frame data).report op data.length 0
  | .send _ rest, .failed error => { p with traffic := p.traffic.cut rest }.report op 0 error
  | .send done _, _ => p.report op done.length 0
  | _, .failed error => p.report op 0 error
  | _, _ => p.report op 0 0

/-- `n` bytes of a send are transmitted. -/
def transmit (p : Program) (k n : ℕ) (op : Operation) (done rest : List UInt8) : Program :=
  { p with
    pending := p.pending.set k { op with request := .send (done ++ rest.take n) (rest.drop n) }
    traffic := p.traffic.transmit op.socket (rest.take n) }

/-! ### Steps -/

/-- A step: `main` calls `Server::Run()`, or `Client::Run()`, or takes a packet, or leaves its
loop; the kernel transmits bytes of the `k`th operation, or ends it. -/
inductive Event where
  | serverRun (answer : ServerCall)
  | clientRun (answer : ClientCall)
  | dequeue (answers : Answers)
  | exit
  | transmit (k n : ℕ)
  | complete (k : ℕ) (outcome : Outcome)
deriving DecidableEq, Repr

def step (p : Program) : Event → Option Program
  | .serverRun answer =>
    if p.main = .server then some { p.serverRun answer with main := .client } else none
  | .clientRun answer =>
    if p.main = .client then some { p.clientRun answer with main := .loop } else none
  | .dequeue answers =>
    if p.main = .loop ∧ p.stop = false then
      match p.port with
      | [] => none
      | packet :: port => some ({ p with port }.dispatch packet answers)
    else none
  | .exit => if p.main = .loop ∧ p.stop = true then some { p with main := .exited } else none
  | .transmit k n =>
    match p.pending[k]? with
    | none => none
    | some op =>
      match op.request with
      | .send done rest => some (p.transmit k n op done rest)
      | _ => none
  | .complete k outcome =>
    match p.pending[k]? with
    | none => none
    | some op =>
      if p.traffic.Permits op outcome then
        some ({ p with pending := p.pending.eraseIdx k }.complete op outcome)
      else none

end Program

end Win32Experiments.WinsockCoroutineJunie
