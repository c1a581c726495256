import Mathlib.Data.Int.Basic
import Win32Experiments.Foundation.Memory
import Win32Experiments.Foundation.Run
import Win32Experiments.Sspi
import Win32Experiments.Winsock

/-!
# `tls_socket` and the handshake loop of `tls_connect`

`tls_connect` drives `InitializeSecurityContext` with the bytes collected in `incoming`,
keeps the bytes it did not consume, and receives more. The model has the loop as it stands,
one `Iteration` of answers from Schannel and the network at a time.
-/

namespace Win32Experiments.SecureSocket

open Foundation Sspi Winsock

/-! ## The socket -/

/-- `TLS_MAX_PACKET_SIZE`, the size of `incoming`. -/
def TLS_MAX_PACKET_SIZE : ℕ := 16384 + 512

/-- `SecPkgContext_StreamSizes`. -/
structure StreamSizes where
  cbHeader : ℕ
  cbTrailer : ℕ
  cbMaximumMessage : ℕ
  cBuffers : ℕ
deriving DecidableEq, Repr

/-- `tls_socket`, less its handles; `decrypted` is an offset into `incoming`. -/
structure TlsSocket where
  sizes : StreamSizes
  received : ℕ
  used : ℕ
  available : ℕ
  decrypted : Option ℕ
  incoming : List UInt8
deriving DecidableEq, Repr

/-- The socket when the handshake starts: nothing received, `incoming` uninitialised. -/
def TlsSocket.start (incoming : List UInt8) : TlsSocket :=
  { sizes := ⟨0, 0, 0, 0⟩, received := 0, used := 0, available := 0, decrypted := none,
    incoming }

/-- The bytes of `incoming` that were received and not yet taken: `incoming[0, received)`. -/
def TlsSocket.buffered (s : TlsSocket) : List UInt8 :=
  window s.incoming 0 s.received

/-- The socket after a `recv` of `bytes` at `incoming + received`. -/
def TlsSocket.append (s : TlsSocket) (bytes : List UInt8) : TlsSocket :=
  { s with
    incoming := store s.incoming s.received bytes
    received := s.received + bytes.length }

/-! ## The handshake loop -/

/-- How the handshake loop is left: by `break` with `result`, or by `return`. -/
inductive Phase
  | running
  | broke (result : ℤ)
  | returned (result : ℤ)
deriving DecidableEq, Repr

/-- The answers of one pass of the loop: Schannel's reply, what each `send` of the token
returns (the list ends where a `send` fails), and what `recv` returns. -/
structure Iteration where
  reply : IscReply
  sends : List ℕ
  recv : RecvOutcome
deriving DecidableEq, Repr

/-- The loop of `tls_connect`, with the bytes Schannel has consumed and the bytes that have
arrived from the server so far. -/
structure Connect where
  socket : TlsSocket
  context : Bool
  phase : Phase
  consumed : List UInt8
  arrived : List UInt8
deriving DecidableEq, Repr

/-- The state in which the loop starts. -/
def Connect.start (incoming : List UInt8) : Connect :=
  { socket := TlsSocket.start incoming, context := false, phase := .running
    consumed := [], arrived := [] }

/-- The input token of the next call: none for the first, which creates the context. -/
def Connect.input (c : Connect) : List UInt8 :=
  if c.context then c.socket.buffered else []

/-- The bytes of the token left unsent when a `send` fails; `0` when all were sent. -/
def sendToken : ℕ → List ℕ → ℕ
  | size, [] => size
  | size, d :: ds =>
    if size = 0 then 0
    else if d = 0 then size
    else sendToken (size - d) ds

/-- Lines 136 to 144: keep the bytes reported as `SECBUFFER_EXTRA`, or drop everything. -/
def TlsSocket.keepExtra (s : TlsSocket) (second : SecBuffer) : TlsSocket :=
  if second.bufferType = .SECBUFFER_EXTRA then
    { s with
      incoming := moveFront s.incoming (s.received - second.cbBuffer) second.cbBuffer
      received := second.cbBuffer }
  else { s with received := 0 }

/-- The end of a pass that goes on: receive more data from the server. -/
def Connect.receive (c : Connect) (recv : RecvOutcome) : Connect :=
  if c.socket.received = TLS_MAX_PACKET_SIZE then { c with phase := .broke (-1) }
  else
    match recv with
    | .closed => { c with phase := .returned 0 }
    | .error => { c with phase := .broke (-1) }
    | .data bytes =>
      { c with socket := c.socket.append bytes, arrived := c.arrived ++ bytes }

/-- The branches on the status `sec`. -/
def Connect.dispatch (c : Connect) (it : Iteration) : Connect :=
  match it.reply.status with
  | .SEC_E_OK =>
    -- a single send, tested only for failure: `result = send(...) < 0`
    { c with phase := .broke (if it.reply.token ≠ [] ∧ it.sends = [] then 1 else 0) }
  | .SEC_I_INCOMPLETE_CREDENTIALS => { c with phase := .broke (-1) }
  | .SEC_I_CONTINUE_NEEDED =>
    if sendToken it.reply.token.length it.sends ≠ 0 then { c with phase := .broke (-1) }
    else c.receive it.recv
  | .SEC_E_INCOMPLETE_MESSAGE => c.receive it.recv
  | _ => { c with phase := .broke (-1) }

/-- The call of `InitializeSecurityContext` and what the loop keeps of its input. -/
def Connect.call (c : Connect) (reply : IscReply) : Connect :=
  { c with
    socket := c.socket.keepExtra reply.second
    context := true
    consumed := c.consumed ++ c.input.take reply.consumed }

/-- One pass of the loop. -/
def Connect.step (c : Connect) (it : Iteration) : Option Connect :=
  if c.phase = .running then some ((c.call it.reply).dispatch it) else none

/-! ## What Schannel and the network promise -/

/-- A `recv` into what is left of `incoming` returns at least one byte and fits. -/
def RecvFits (received : ℕ) : RecvOutcome → Prop
  | .data bytes => bytes ≠ [] ∧ received + bytes.length ≤ TLS_MAX_PACKET_SIZE
  | .closed => True
  | .error => True

instance (received : ℕ) (recv : RecvOutcome) : Decidable (RecvFits received recv) :=
  match recv with
  | .data _ => inferInstanceAs (Decidable (_ ∧ _))
  | .closed => isTrue trivial
  | .error => isTrue trivial

/-- The answers of a pass are ones Schannel and the network can give. -/
def Connect.Answers (c : Connect) (it : Iteration) : Prop :=
  IscContract c.input.length it.reply ∧
  RecvFits (c.socket.keepExtra it.reply.second).received it.recv

instance (c : Connect) (it : Iteration) : Decidable (c.Answers it) :=
  inferInstanceAs (Decidable (_ ∧ _))

end Win32Experiments.SecureSocket
