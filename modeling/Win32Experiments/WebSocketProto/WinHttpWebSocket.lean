import Win32Experiments.Foundation.Memory
import Win32Experiments.Foundation.Run
import Win32Experiments.Foundation.Word

/-!
# `WinHttpWebSocket::Receive`

`Receive` collects the buffers of a message in the caller's string. The model is a socket on
which `Receive` is called again and again: a step is the start of a call, up to its first
`WinHttpWebSocketReceive`, or the return of one, up to the next.
-/

namespace Win32Experiments.WebSocketProto

open Foundation

/-- `WinHttpWebSocketStatus`. -/
inductive WinHttpWebSocketStatus
  | NotInitialised
  | Connected
  | Closed
  | Error
deriving DecidableEq, Repr

/-- `WINHTTP_WEB_SOCKET_BUFFER_TYPE`. -/
inductive BufferType
  | binaryMessage
  | binaryFragment
  | utf8Message
  | utf8Fragment
  | close
deriving DecidableEq, Repr

/-- The test of `Receive`'s loop. -/
def BufferType.isFragment (type : BufferType) : Bool :=
  type = .utf8Fragment || type = .binaryFragment

/-- How a `WinHttpWebSocketReceive` returns: with an error, where `GetLastError` then says
`lastError`, or with bytes that it has written at the pointer it was given. -/
inductive Reply
  | error (lastError : ℕ)
  | received (bytes : List UInt8) (type : BufferType)
deriving DecidableEq, Repr

/-- What a call of `Receive` ends with. -/
inductive Outcome
  | returned (value : Bool)
  | threw (what : String)
deriving DecidableEq, Repr

/-- The size that `Receive` gives to the caller's string. -/
def initialSize : ℕ := 2048

/-- The locals of a call, and the buffers it has been delivered. -/
structure Receiving where
  charBuffer : List UInt8
  pbCurrentBufferPointer : ℕ
  dwBufferLength : ℕ
  fragments : List (List UInt8)
deriving DecidableEq, Repr

/-- `charBuffer.clear()` and `charBuffer.resize(2048)`. -/
def Receiving.start : Receiving :=
  { charBuffer := List.replicate initialSize 0, pbCurrentBufferPointer := 0
    dwBufferLength := initialSize, fragments := [] }

/-- A call that has ended: how, the caller's string, and the buffers it was delivered. -/
structure Received where
  outcome : Outcome
  charBuffer : List UInt8
  fragments : List (List UInt8)
deriving DecidableEq, Repr

/-- A socket, with the call in progress; and the record of the run: the calls that ended, the
lengths offered to `WinHttpWebSocketReceive`, and the ranges it wrote. -/
structure WinHttpWebSocket where
  status : WinHttpWebSocketStatus
  receiving : Option Receiving
  ended : List Received
  offered : List ℕ
  written : List (ℕ × ℕ)
deriving DecidableEq, Repr

/-- A socket behind `Connect`. -/
def WinHttpWebSocket.connected : WinHttpWebSocket :=
  { status := .Connected, receiving := none, ended := [], offered := [], written := [] }

/-- A call of `Receive`, or the return of its `WinHttpWebSocketReceive`. -/
inductive Event
  | receive
  | reply (r : Reply)
deriving DecidableEq, Repr

section

variable (s : WinHttpWebSocket)

/-- The call goes on to `WinHttpWebSocketReceive`. -/
def WinHttpWebSocket.offer (r : Receiving) : WinHttpWebSocket :=
  { s with receiving := some r, offered := s.offered ++ [r.dwBufferLength] }

/-- The call ends; `shrink_to_fit` leaves the string as it is. -/
def WinHttpWebSocket.finish (r : Receiving) (outcome : Outcome) : WinHttpWebSocket :=
  { s with
    receiving := none
    ended := s.ended ++ [⟨outcome, r.charBuffer, r.fragments⟩] }

/-- The start of `Receive`. -/
def WinHttpWebSocket.receive (charBuffer : List UInt8) : WinHttpWebSocket :=
  if s.status ≠ .Connected then
    { s with
      ended := s.ended ++
        [⟨.threw "WebSocket is not connected to receive data", charBuffer, []⟩] }
  else s.offer .start

/-- The bytes are written behind the earlier ones. -/
def Receiving.store (r : Receiving) (bytes : List UInt8) : Receiving :=
  { charBuffer := Foundation.store r.charBuffer r.pbCurrentBufferPointer bytes
    pbCurrentBufferPointer := r.pbCurrentBufferPointer + bytes.length
    dwBufferLength := subW 32 r.dwBufferLength bytes.length
    fragments := r.fragments ++ [bytes] }

/-- `WinHttpWebSocketReceive` returns in a call with the locals `r`. -/
def WinHttpWebSocket.reply (r : Receiving) : Reply → WinHttpWebSocket
  | .error lastError => s.finish r (.threw (toString lastError))
  | .received bytes type =>
    let s := { s with written := s.written ++ [(r.pbCurrentBufferPointer, bytes.length)] }
    let r := r.store bytes
    -- `Close`
    if type = .close then { s with status := .Closed }.finish r (.returned false)
    else if type.isFragment then s.offer r
    else s.finish r (.returned true)

end

/-- A step of the socket. The caller's string is empty before the first call. -/
def WinHttpWebSocket.step (s : WinHttpWebSocket) : Event → Option WinHttpWebSocket
  | .receive =>
    match s.receiving with
    | none => some (s.receive ((s.ended.getLast?.map Received.charBuffer).getD []))
    | some _ => none
  | .reply reply =>
    match s.receiving with
    | none => none
    | some r => some (s.reply r reply)

/-- A step starts a call, or goes on with the one in progress. -/
theorem WinHttpWebSocket.step_cases {s t : WinHttpWebSocket} {e : Event} (h : s.step e = some t) :
    (e = .receive ∧ s.receiving = none ∧ ∃ charBuffer, t = s.receive charBuffer) ∨
    ∃ reply r, e = .reply reply ∧ s.receiving = some r ∧ t = s.reply r reply := by
  cases e with
  | receive =>
    rw [WinHttpWebSocket.step] at h
    split at h
    · next hnone => exact Or.inl ⟨rfl, hnone, _, (Option.some.inj h).symm⟩
    · contradiction
  | reply reply =>
    rw [WinHttpWebSocket.step] at h
    split at h
    · contradiction
    · next r hr => exact Or.inr ⟨reply, r, rfl, hr, (Option.some.inj h).symm⟩

/-- `WinHttpWebSocketReceive` writes at most the length it was offered. -/
def WinHttpWebSocket.Fits (s : WinHttpWebSocket) : Event → Prop
  | .receive => True
  | .reply (.error _) => True
  | .reply (.received bytes _) => ∀ r ∈ s.receiving, bytes.length ≤ r.dwBufferLength

instance (s : WinHttpWebSocket) : ∀ e : Event, Decidable (s.Fits e)
  | .receive => isTrue trivial
  | .reply (.error _) => isTrue trivial
  | .reply (.received bytes _) =>
    inferInstanceAs (Decidable (∀ r ∈ s.receiving, bytes.length ≤ r.dwBufferLength))

end Win32Experiments.WebSocketProto
