import Win32Experiments.Foundation.Handles
import Win32Experiments.WinsockCoroutine.EventLoop

/-!
# The sockets of a session

The two top-level tasks, `AcceptAndServe` with the `HandleClient` it awaits and
`ConnectAndChat`, with what they do to their sockets. A session stands at a call whose outcome
decides how it goes on, or waits for a completion; the outcomes are the labels of a run. An
exception leaves the coroutines up to the top-level task.

The listening socket belongs to `Run` for as long as the task lives, and does not appear.
-/

namespace Win32Experiments.WinsockCoroutine

open Foundation

/-- Where a session stands. -/
inductive Place
  -- `AcceptAndServe`
  | accept
  | accepting (acceptSocket : ℕ)
  -- `HandleClient`
  | associateClient (client : ℕ)
  | recv (client : ℕ)
  | receiving (client : ℕ)
  | send (client : ℕ) (msg : List UInt8)
  | sending (client : ℕ) (msg : List UInt8)
  -- `CreateConnectSocket`
  | createSocket
  | bind (s : ℕ)
  | associate (s : ℕ)
  -- `ConnectAndChat`; `messages` are those from the current one on
  | getaddrinfo (s : ℕ)
  | connect (s : ℕ)
  | connecting (s : ℕ)
  | sendMessage (s : ℕ) (messages : List String)
  | sendingMessage (s : ℕ) (messages : List String)
  | recvEcho (s : ℕ) (messages : List String)
  | receivingEcho (s : ℕ) (messages : List String)
  -- the top-level task is at its end
  | finished (exception : Option String)
deriving DecidableEq, Repr

/-- A session: where it stands, the loop, the sockets, and those it used when they were not
open; and for `HandleClient` the bytes received, and the bytes the network has accepted. -/
structure Session where
  place : Place
  loop : IoEventLoop
  sockets : Handles
  stale : List ℕ
  received : List UInt8
  accepted : List UInt8
deriving Repr

/-- A session at the start of a top-level task. -/
def Session.start (place : Place) : Session :=
  { place, loop := ⟨0, []⟩, sockets := .empty, stale := [], received := [], accepted := [] }

/-- The outcome of a call: of one that succeeds or fails, of the calls in an `await_suspend`,
of an overlapped receive, and of another overlapped call. -/
inductive Outcome
  | call (ok : Bool)
  | submit (call : Submission)
  | received (data : List UInt8) (error : ℕ)
  | transferred (bytes error : ℕ)
deriving DecidableEq, Repr

/-- The operation as `Run` leaves it to `await_resume`. -/
def completed (awaitable : Awaitable) (acceptSocket bytes error : ℕ) : Operation :=
  { awaitable, acceptSocket, continuation := none, bytesTransferred := bytes, error
    submitter := 0, status := .resumed }

/-- The messages of `ConnectAndChat`. -/
def messages : List String := ["Hello", "from", "coroutines!"]

namespace Session

variable (c : Session)

/-- The session goes on to `place`. -/
def goto (place : Place) : Session := { c with place }

/-- The session ends. -/
def finish (exception : Option String) : Session := c.goto (.finished exception)

/-- A call is given the socket `s`. -/
def use (s : ℕ) : Session :=
  { c with stale := if c.sockets.Live s then c.stale else s :: c.stale }

/-- `closesocket(s)`. -/
def close (s : ℕ) : Session := { c with sockets := c.sockets.close s }

/-- An `await_suspend` on the socket `s`: the session waits, or an exception ends it. -/
def submit (awaitSuspend : IoEventLoop → Submission → IoEventLoop × Except String Unit)
    (s : ℕ) (call : Submission) (place : Place) : Session :=
  let c := c.use s
  match awaitSuspend c.loop call with
  | (loop, .ok ()) => { c with loop, place }
  | (loop, .error message) => { c with loop }.finish (some message)

/-- `AcceptAwaitable::await_suspend`: `WSASocketW`, which yields the next socket of the ledger,
and `AcceptEx`, after whose failure the socket is closed. -/
def acceptSuspend (call : Submission) : Session :=
  match acceptAwaitSuspend c.loop call with
  | (loop, .ok ()) =>
    { c with
      loop
      sockets := c.sockets.create
      place := .accepting c.sockets.opened }
  | (loop, .error message) =>
    let c := { c with loop }
    match call.resource with
    | none => c.finish (some message)
    | some _ =>
      ({ c with sockets := c.sockets.create }.close c.sockets.opened).finish (some message)

/-- `AcceptAwaitable::await_resume`, and the call of `HandleClient`. -/
def acceptResume (acceptSocket bytes error : ℕ) : Session :=
  match acceptAwaitResume c.loop (completed .accept acceptSocket bytes error) with
  -- `setsockopt`
  | (loop, .ok client) => ({ c with loop }.use acceptSocket).goto (.associateClient client)
  | (loop, .error message) => ({ c with loop }.close acceptSocket).finish (some message)

/-- `HandleClient` behind a receive. -/
def clientReceived (client : ℕ) (data : List UInt8) (error : ℕ) : Session :=
  match recvAwaitResume c.loop (completed .recv 0 data.length error) with
  | (loop, .ok 0) => ({ c with loop }.close client).finish none
  | (loop, .ok _) => { c with loop, received := c.received ++ data, place := .send client data }
  | (loop, .error message) => { c with loop }.finish (some message)

/-- `HandleClient` behind a send; the count is only printed. -/
def clientSent (client : ℕ) (msg : List UInt8) (bytes error : ℕ) : Session :=
  match sendAwaitResume c.loop (completed .send 0 bytes error) with
  | (loop, .ok _) =>
    { c with loop, accepted := c.accepted ++ msg.take bytes, place := .recv client }
  | (loop, .error message) => { c with loop }.finish (some message)

/-- `ConnectAndChat` behind `ConnectEx`. -/
def connected (s bytes error : ℕ) : Session :=
  match connectAwaitResume c.loop (completed .connect 0 bytes error) with
  -- `setsockopt`
  | (loop, .ok _) => ({ c with loop }.use s).goto (.sendMessage s messages)
  | (loop, .error message) => { c with loop }.finish (some message)

/-- The loop of `ConnectAndChat` behind an echo. -/
def echoReceived (s : ℕ) (rest : List String) (data : List UInt8) (error : ℕ) : Session :=
  match recvAwaitResume c.loop (completed .recv 0 data.length error) with
  | (loop, .ok _) =>
    let c := { c with loop }
    -- `shutdown` and `closesocket` behind the loop
    if rest = [] then ((c.use s).close s).finish none
    else c.goto (.sendMessage s rest)
  | (loop, .error message) => { c with loop }.finish (some message)

/-- `ConnectAndChat` behind a send. -/
def messageSent (s : ℕ) (messages : List String) (bytes error : ℕ) : Session :=
  match sendAwaitResume c.loop (completed .send 0 bytes error) with
  | (loop, .ok _) => { c with loop }.goto (.recvEcho s messages)
  | (loop, .error message) => { c with loop }.finish (some message)

/-- A step: the outcome of the call that the session stands at or waits for. -/
def step (c : Session) (e : Outcome) : Option Session :=
  match c.place, e with
  | .accept, .submit call => some (c.acceptSuspend call)
  | .accepting acceptSocket, .transferred bytes error =>
    some (c.acceptResume acceptSocket bytes error)
  | .associateClient client, .call ok =>
    let c := c.use client
    some (if ok then c.goto (.recv client)
      else c.finish (some "Failed to associate socket with IOCP"))
  | .recv client, .submit call =>
    some (c.submit recvAwaitSuspend client call (.receiving client))
  | .receiving client, .received data error => some (c.clientReceived client data error)
  | .send client msg, .submit call =>
    some (c.submit sendAwaitSuspend client call (.sending client msg))
  | .sending client msg, .transferred bytes error => some (c.clientSent client msg bytes error)
  | .createSocket, .call ok =>
    some (if ok then { c with sockets := c.sockets.create, place := .bind c.sockets.opened }
      else c.finish (some "WSASocket failed"))
  | .bind s, .call ok =>
    let c := c.use s
    some (if ok then c.goto (.associate s)
      else (c.close s).finish (some "bind failed for client socket"))
  | .associate s, .call ok =>
    let c := c.use s
    some (if ok then c.goto (.getaddrinfo s)
      else c.finish (some "Failed to associate socket with IOCP"))
  | .getaddrinfo s, .call ok =>
    some (if ok then c.goto (.connect s) else c.finish (some "getaddrinfo failed"))
  | .connect s, .submit call => some (c.submit connectAwaitSuspend s call (.connecting s))
  | .connecting s, .transferred bytes error => some (c.connected s bytes error)
  | .sendMessage s messages, .submit call =>
    some (c.submit sendAwaitSuspend s call (.sendingMessage s messages))
  | .sendingMessage s messages, .transferred bytes error =>
    some (c.messageSent s messages bytes error)
  | .recvEcho s messages, .submit call =>
    some (c.submit recvAwaitSuspend s call (.receivingEcho s messages))
  | .receivingEcho s messages, .received data error =>
    some (c.echoReceived s messages.tail data error)
  | _, _ => none

end Session

end Win32Experiments.WinsockCoroutine
