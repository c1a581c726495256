import Win32Experiments.SecureSocket.Read

/-!
# What the calls of `tls_read` return

A socket on which call follows call, also after one that failed, with what each returned and what
it had copied to its caller's buffer.
-/

namespace Win32Experiments.SecureSocket

open Foundation Sspi Winsock

/-! ## Calls -/

/-- A call that has returned: its result, and what it copied to the caller's buffer. -/
structure ReadCall where
  result : ℤ
  copied : List UInt8
deriving DecidableEq, Repr

/-- A reader and the calls that have returned. -/
structure ReadCalls (Ctx : Type) where
  reader : Reader Ctx
  calls : List ReadCall

variable {Ctx : Type}

/-- The reader goes on to `r`, and the call returns `result` or a negative value if that is where
it ends. -/
def ReadCalls.next (s : ReadCalls Ctx) (r : Reader Ctx) (result : ℤ) (copied : List UInt8) :
    ReadCalls Ctx :=
  match r.control with
  | .idle => ⟨r, s.calls ++ [⟨result, copied⟩]⟩
  | .failed => ⟨r, s.calls ++ [⟨-1, copied⟩]⟩
  | _ => ⟨r, s.calls⟩

/-- A step of a reader; a call may follow one that failed, and may ask for nothing. -/
def ReadCalls.step (sch : Schannel Ctx) (s : ReadCalls Ctx) : ReadEvent → Option (ReadCalls Ctx)
  | .call size =>
    if s.reader.control = .idle ∨ s.reader.control = .failed then
      some ⟨{ s.reader with control := .looping ⟨size, 0, []⟩ }, s.calls⟩
    else none
  | .iterate =>
    match s.reader.control with
    | .looping l => some (s.next (s.reader.iterate sch l) l.result l.out)
    | _ => none
  | .recv outcome =>
    match s.reader.control with
    | .receiving l => some (s.next (s.reader.receive l outcome) 0 l.out)
    | _ => none

/-- The reader with no call yet. -/
def ReadCalls.start (r : Reader Ctx) : ReadCalls Ctx := ⟨r, []⟩

/-! ## Statements -/

/-- A result that can be relied on: negative or 0 with nothing copied, or the number of bytes
copied. -/
structure ReadCall.Honest (call : ReadCall) : Prop where
  nothing : call.result ≤ 0 → call.copied = []
  count : 0 < call.result → call.result = call.copied.length

/-- What `recv` returns fits. -/
def ReadCalls.Fits (s : ReadCalls Ctx) : ReadEvent → Prop
  | .recv outcome => RecvFits s.reader.socket.received outcome
  | _ => True

instance (s : ReadCalls Ctx) (e : ReadEvent) : Decidable (s.Fits e) :=
  match e with
  | .call _ => isTrue trivial
  | .iterate => isTrue trivial
  | .recv outcome => inferInstanceAs (Decidable (RecvFits _ outcome))

/-- The socket as `tls_connect` leaves it. -/
structure Reader.Connected (r : Reader Ctx) : Prop where
  length_incoming : r.socket.incoming.length = TLS_MAX_PACKET_SIZE
  received_le : r.socket.received ≤ TLS_MAX_PACKET_SIZE
  decrypted : r.socket.decrypted = none
  control : r.control = .idle

/-- The statuses of `DecryptMessage` that `tls_read` knows. -/
def Handled (status : SecurityStatus) : Prop :=
  status = .SEC_E_OK ∨ status = .SEC_I_CONTEXT_EXPIRED ∨ status = .SEC_I_RENEGOTIATE ∨
    status = .SEC_E_INCOMPLETE_MESSAGE

/-- The iteration comes to `DecryptMessage`. -/
def Reader.Decrypts (r : Reader Ctx) (l : Locals) : Prop :=
  l.size ≠ 0 ∧ r.socket.decrypted = none ∧ r.socket.received ≠ 0 ∧ r.socket.sizes.cBuffers = 4

/-- The condition on a step: `DecryptMessage` does not fail in a call that has copied data. -/
def NoErrorBehindData (sch : Schannel Ctx) (s : ReadCalls Ctx) : ReadEvent → Prop
  | .iterate => ∀ l, s.reader.control = .looping l → l.result ≠ 0 → s.reader.Decrypts l →
      Handled (sch.decryptMessage s.reader.ctx s.reader.socket.buffered).1.status
  | _ => True

end Win32Experiments.SecureSocket
