import Win32Experiments.Foundation.Handles
import Win32Experiments.WebSocketProto.WinHttpWebSocket

/-!
# `WinHttpWebSocket` and its handles

The object's whole life: `Connect`, `SendString`, `SendBuffer`, `Receive`, `Close` and the
destructor, with the outcome of every WinHTTP call they make. `Receive` is the machine of
`WinHttpWebSocket`; a step of the object is a call of one of the others, or a step of that
machine.
-/

namespace Win32Experiments.WebSocketProto

open Foundation

/-- What a WinHTTP call answers; after a failure `GetLastError` says `lastError`. -/
inductive Answer
  | succeeded
  | failed (lastError : ℕ)
deriving DecidableEq, Repr

/-- `ERROR_INVALID_HANDLE`. -/
def invalidHandle : ℕ := 6

/-- A call on a null handle fails, whatever the transport would have answered. -/
def Answer.on (a : Answer) : Option ℕ → Answer
  | none => .failed invalidHandle
  | some _ => a

/-- A WinHTTP call that yields a handle: `nullptr` when it fails. -/
def Answer.yield (a : Answer) (handles : Handles) : Option ℕ × Handles :=
  match a with
  | .succeeded => (some handles.opened, handles.create)
  | .failed _ => (none, handles)

/-- The error of the first call that fails, where the calls are made until one does. -/
def firstFailure : List Answer → Option ℕ
  | [] => none
  | .succeeded :: rest => firstFailure rest
  | .failed lastError :: _ => some lastError

/-- The answers to the WinHTTP calls of a `Connect`. -/
structure ConnectAnswers where
  «open» : Answer
  connect : Answer
  openRequest : Answer
  security : Answer
  upgrade : Answer
  sendRequest : Answer
  receiveResponse : Answer
  completeUpgrade : Answer
deriving DecidableEq, Repr

/-- The calls on the request handle, in their order. -/
def ConnectAnswers.onRequest (a : ConnectAnswers) (ignoreSslErrors : Bool) : List Answer :=
  (if ignoreSslErrors then [a.security] else []) ++
    [a.upgrade, a.sendRequest, a.receiveResponse, a.completeUpgrade]

/-- The object: its handles, and `socket` with the status. Beside it WinHTTP's handles, and
the record of the run: the messages sent, the exceptions that left `Connect`, `SendString` and
`SendBuffer`, and the status after each call in which WinHTTP reported a failure. -/
structure Connection where
  m_hConnect : Option ℕ
  m_hSession : Option ℕ
  m_hWebSocketHandle : Option ℕ
  m_ignoreSslErrors : Bool
  socket : WinHttpWebSocket
  destroyed : Bool
  handles : Handles
  sent : List (BufferType × List UInt8)
  thrown : List String
  failures : List WinHttpWebSocketStatus
deriving DecidableEq, Repr

/-- A new object. -/
def Connection.new (ignoreSslErrors : Bool) : Connection :=
  { m_hConnect := none, m_hSession := none, m_hWebSocketHandle := none
    m_ignoreSslErrors := ignoreSslErrors
    socket := { WinHttpWebSocket.connected with status := .NotInitialised }
    destroyed := false, handles := .empty, sent := [], thrown := [], failures := [] }

/-- A call on the object, with the answers of WinHTTP. For `Receive` it is a step of the
call, with the answer to the `WinHttpWebSocketClose` that it may lead to. -/
inductive ConnectionEvent
  | connect (a : ConnectAnswers)
  | sendString (msg : List UInt8) (a : Answer)
  | sendBuffer (buffer : List UInt8) (a : Answer)
  | receive (e : Event) (close : Answer)
  | close (a : Answer)
  | destroy (a : Answer)
deriving DecidableEq, Repr

namespace Connection

variable (c : Connection)

/-- `m_status`. -/
def m_status : WinHttpWebSocketStatus := c.socket.status

/-- `m_status = status`. -/
def setStatus (status : WinHttpWebSocketStatus) : Connection :=
  { c with socket := { c.socket with status := status } }

/-- An exception leaves the call. -/
def throwing (what : String) : Connection := { c with thrown := c.thrown ++ [what] }

/-- The end of a call in which WinHTTP failed. -/
def recordFailure : Connection := { c with failures := c.failures ++ [c.m_status] }

/-- The exit of `InternalConnect` and of the two sends on a failure. -/
def failWith (lastError : ℕ) : Connection :=
  ((c.setStatus .Error).throwing (toString lastError)).recordFailure

/-- `InternalConnect`, from the request handle `m_hRequestHandle` on; the local handle is
closed when the exception leaves. -/
def upgradeRequest (m_hRequestHandle : Option ℕ) (a : ConnectAnswers) : Connection :=
  match firstFailure ((a.onRequest c.m_ignoreSslErrors).map (·.on m_hRequestHandle)) with
  | some lastError =>
    { c with handles := c.handles.closeAll m_hRequestHandle.toList }.failWith lastError
  | none =>
    let (webSocket, handles) := a.completeUpgrade.yield c.handles
    -- `m_hRequestHandle = nullptr` overwrites the handle without closing it
    { c with m_hWebSocketHandle := webSocket, handles := handles }.setStatus .Connected

/-- `InternalConnect`. -/
def internalConnect (a : ConnectAnswers) : Connection :=
  if c.m_status ≠ .NotInitialised then
    c.throwing "WebSocket needs to be in NotInitialised state to connect"
  else
    let (session, handles) := a.open.yield c.handles
    let c := { c with m_hSession := session, handles := handles }
    if session = none then (c.throwing "WinHttpOpen failed").recordFailure
    else
      let (connect, handles) := (a.connect.on session).yield c.handles
      let (request, handles) := (a.openRequest.on connect).yield handles
      { c with m_hConnect := connect, handles := handles }.upgradeRequest request a

/-- `SendString` and `SendBuffer`. -/
def send (type : BufferType) (data : List UInt8) (a : Answer) : Connection :=
  if c.m_status ≠ .Connected then c.throwing "WebSocket is not connected to send data"
  else
    match a.on c.m_hWebSocketHandle with
    | .succeeded => { c with sent := c.sent ++ [(type, data)] }
    | .failed lastError => c.failWith lastError

/-- What a `WinHttpWebSocketClose` that failed leaves in the record. -/
def recordClose (a : Answer) : Connection :=
  match a.on c.m_hWebSocketHandle with
  | .succeeded => c
  | .failed _ => c.recordFailure

/-- `Close`. -/
def close (a : Answer) : Connection := (c.setStatus .Closed).recordClose a

/-- A step of `Receive`, to the state `socket` of its machine. -/
def received (e : Event) (a : Answer) (socket : WinHttpWebSocket) : Connection :=
  let c := { c with socket := socket }
  match e with
  | .receive => c
  | .reply (.error _) => c.recordFailure
  -- the machine has set the status of `Close`
  | .reply (.received _ type) => if type = .close then c.recordClose a else c

/-- The handles of the members, in the order of their destructors. -/
def members : List ℕ :=
  c.m_hWebSocketHandle.toList ++ c.m_hSession.toList ++ c.m_hConnect.toList

/-- The destructor. -/
def destroy (a : Answer) : Connection :=
  let c := c.close a
  { c with
    handles := c.handles.closeAll c.members
    m_hWebSocketHandle := none, m_hSession := none, m_hConnect := none, destroyed := true }

/-- A call of the living object, while no call of `Receive` is in progress. -/
def call : ConnectionEvent → Connection
  | .connect a => c.internalConnect a
  | .sendString msg a => c.send .utf8Message msg a
  | .sendBuffer buffer a => c.send .binaryMessage buffer a
  | .receive _ _ => c
  | .close a => c.close a
  | .destroy a => c.destroy a

/-- A step of the object. -/
def step (c : Connection) (e : ConnectionEvent) : Option Connection :=
  if c.destroyed then none
  else
    match e with
    | .receive e a => (c.socket.step e).map (c.received e a)
    | e => if c.socket.receiving = none then some (c.call e) else none

end Connection

end Win32Experiments.WebSocketProto
