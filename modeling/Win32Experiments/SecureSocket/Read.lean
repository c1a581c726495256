import Win32Experiments.SecureSocket.Handshake

/-!
# `tls_read`

`tls_read` shares `incoming` between the plaintext of the record it is handing out and the
ciphertext behind it. The model runs it one iteration of its loop at a time, on a socket
that keeps its state from call to call; `recv` and Schannel answer from outside.
-/

namespace Win32Experiments.SecureSocket

open Foundation Sspi Winsock

/-! ## Schannel -/

/-- The two functions of a security context that `tls_read` calls. -/
structure Schannel (Ctx : Type) where
  decryptMessage : Ctx → List UInt8 → DecryptReply × Ctx
  initializeSecurityContext : Ctx → List UInt8 → IscReply × Ctx

/-! ## The loop of `tls_read` -/

/-- The locals of a call: `size` bytes still wanted, `result` copied, and the bytes copied to
the caller's buffer. -/
structure Locals where
  size : ℕ
  result : ℕ
  out : List UInt8
deriving DecidableEq, Repr

/-- Where a reader stands: between calls, at the head of the loop, in `recv`, after a call
that returned a negative value, or at a failed assertion. -/
inductive Control
  | idle
  | looping (l : Locals)
  | receiving (l : Locals)
  | failed
  | asserted
deriving DecidableEq, Repr

/-- A socket with its context and the call in progress, the ciphertext that arrived and the
plaintext returned so far. -/
structure Reader (Ctx : Type) where
  socket : TlsSocket
  ctx : Ctx
  control : Control
  arrived : List UInt8
  returned : List UInt8

/-- A step of a reader: a new call, an iteration of its loop, or the return of its `recv`. -/
inductive ReadEvent
  | call (size : ℕ)
  | iterate
  | recv (outcome : RecvOutcome)
deriving DecidableEq, Repr

variable {Ctx : Type}

/-- `return result`: the caller finds the bytes copied in its buffer. -/
def Reader.finish (r : Reader Ctx) (l : Locals) : Reader Ctx :=
  { r with control := .idle, returned := r.returned ++ l.out.take l.result }

/-- Lines 347 to 351: the record is used up, remove its bytes from `incoming`. -/
def TlsSocket.dropRecord (s : TlsSocket) : TlsSocket :=
  { s with
    incoming := moveFront s.incoming s.used (s.received - s.used)
    received := s.received - s.used
    used := 0
    available := 0
    decrypted := none }

/-- Lines 337 to 357: copy decrypted bytes, which start at `decrypted`. -/
def Reader.copy (r : Reader Ctx) (l : Locals) (decrypted : ℕ) : Reader Ctx :=
  let use := min l.size r.socket.available
  { r with
    socket :=
      if use = r.socket.available then r.socket.dropRecord
      else { r.socket with
        available := r.socket.available - use
        decrypted := some (decrypted + use) }
    control := .looping
      { size := l.size - use
        result := l.result + use
        out := l.out ++ window r.socket.incoming decrypted use } }

/-- Lines 445 to 458: more ciphertext is needed. -/
def Reader.needMore (r : Reader Ctx) (l : Locals) : Reader Ctx :=
  if l.result ≠ 0 then r.finish l
  else if r.socket.received = TLS_MAX_PACKET_SIZE then { r with control := .failed }
  else { r with control := .receiving l }

/-- Lines 377 to 389: a record was decrypted in place. -/
def TlsSocket.openRecord (s : TlsSocket) (buffers : Vector SecBuffer 4) : TlsSocket :=
  { s with
    decrypted := some buffers[1].pvBuffer
    available := buffers[1].cbBuffer
    used := s.received -
      (if buffers[3].bufferType = .SECBUFFER_EXTRA then buffers[3].cbBuffer else 0) }

/-- Lines 396 to 435: a post-handshake message goes to `InitializeSecurityContext`, and what
that leaves goes on as ciphertext. -/
def Reader.renegotiate (sch : Schannel Ctx) (r : Reader Ctx) (l : Locals)
    (buffers : Vector SecBuffer 4) : Reader Ctx :=
  if buffers[3].bufferType ≠ .SECBUFFER_EXTRA then { r with control := .asserted }
  else if r.socket.incoming[buffers[3].pvBuffer + 5]? ≠ some 0x04 then
    { r with control := .asserted }
  else
    let token := window r.socket.incoming buffers[3].pvBuffer buffers[3].cbBuffer
    let (reply, ctx) := sch.initializeSecurityContext r.ctx token
    if reply.second.bufferType ≠ .SECBUFFER_EXTRA then { r with ctx, control := .asserted }
    else
      let used := r.socket.received - reply.second.cbBuffer
      { r with
        ctx
        socket := { r.socket with
          used
          incoming := moveFront r.socket.incoming used (r.socket.received - used)
          received := r.socket.received - used }
        control := .looping l }

/-- Lines 362 to 442: try to decrypt the ciphertext in `incoming`. -/
def Reader.decrypt (sch : Schannel Ctx) (r : Reader Ctx) (l : Locals) : Reader Ctx :=
  if r.socket.sizes.cBuffers ≠ 4 then { r with control := .asserted }
  else
    let (reply, ctx) := sch.decryptMessage r.ctx r.socket.buffered
    let r := { r with
      ctx, socket := { r.socket with incoming := store r.socket.incoming 0 reply.block } }
    match reply.status with
    | .SEC_E_OK =>
      if reply.buffers[0].bufferType = .SECBUFFER_STREAM_HEADER ∧
          reply.buffers[1].bufferType = .SECBUFFER_DATA ∧
          reply.buffers[2].bufferType = .SECBUFFER_STREAM_TRAILER then
        { r with socket := r.socket.openRecord reply.buffers, control := .looping l }
      else { r with control := .asserted }
    | .SEC_I_CONTEXT_EXPIRED =>
      Reader.finish { r with socket := { r.socket with received := 0 } } l
    | .SEC_I_RENEGOTIATE => r.renegotiate sch l reply.buffers
    | .SEC_E_INCOMPLETE_MESSAGE => r.needMore l
    | _ => { r with control := .failed }

/-- One iteration of `while (size != 0)`. -/
def Reader.iterate (sch : Schannel Ctx) (r : Reader Ctx) (l : Locals) : Reader Ctx :=
  if l.size = 0 then r.finish l
  else
    match r.socket.decrypted with
    | some decrypted => r.copy l decrypted
    | none => if r.socket.received ≠ 0 then r.decrypt sch l else r.needMore l

/-- Lines 458 to 470: `recv` returns. -/
def Reader.receive (r : Reader Ctx) (l : Locals) : RecvOutcome → Reader Ctx
  | .closed => { r with control := .idle }
  | .error => { r with control := .failed }
  | .data bytes =>
    { r with
      socket := r.socket.append bytes
      control := .looping l
      arrived := r.arrived ++ bytes }

/-- A step of a reader. Calls ask for at least one byte. -/
def Reader.step (sch : Schannel Ctx) (r : Reader Ctx) : ReadEvent → Option (Reader Ctx)
  | .call size =>
    if r.control = .idle ∧ 0 < size then some { r with control := .looping ⟨size, 0, []⟩ }
    else none
  | .iterate =>
    match r.control with
    | .looping l => some (r.iterate sch l)
    | _ => none
  | .recv outcome =>
    match r.control with
    | .receiving l => some (r.receive l outcome)
    | _ => none

/-! ## What Schannel and the network promise -/

/-- A record of application data: its ciphertext, which fits in `incoming`, and the image
that decryption leaves in its place, with the plaintext at `offset`. -/
structure Record where
  cipher : List UInt8
  image : List UInt8
  offset : ℕ
  plain : List UInt8
  cipher_ne_nil : cipher ≠ []
  length_cipher : cipher.length ≤ TLS_MAX_PACKET_SIZE
  length_image : image.length = cipher.length
  plain_le : offset + plain.length ≤ image.length
  window_image : window image offset plain.length = plain

/-- The ciphertext of a sequence of records. -/
def cipherOf (records : List Record) : List UInt8 := records.flatMap Record.cipher

/-- The plaintext of a sequence of records. -/
def plainOf (records : List Record) : List UInt8 := records.flatMap Record.plain

/-- `DecryptMessage` under a context that expects the records `expects ctx`: a block that
starts with the next record has it decrypted in place and reported, with the bytes behind it
as `SECBUFFER_EXTRA`; any other block is left alone as incomplete. -/
structure DecryptContract (sch : Schannel Ctx) (expects : Ctx → List Record) : Prop where
  complete : ∀ ctx record rest extra reply ctx', expects ctx = record :: rest →
    sch.decryptMessage ctx (record.cipher ++ extra) = (reply, ctx') →
    reply.status = .SEC_E_OK ∧ reply.block = record.image ++ extra ∧
    reply.buffers[0].bufferType = .SECBUFFER_STREAM_HEADER ∧
    reply.buffers[1] = ⟨.SECBUFFER_DATA, record.plain.length, record.offset⟩ ∧
    reply.buffers[2].bufferType = .SECBUFFER_STREAM_TRAILER ∧
    (extra ≠ [] → reply.buffers[3].bufferType = .SECBUFFER_EXTRA) ∧
    (reply.buffers[3].bufferType = .SECBUFFER_EXTRA →
      reply.buffers[3].cbBuffer = extra.length) ∧
    expects ctx' = rest
  incomplete : ∀ ctx block reply ctx',
    (∀ record rest, expects ctx = record :: rest → ¬ record.cipher <+: block) →
    sch.decryptMessage ctx block = (reply, ctx') →
    reply.status = .SEC_E_INCOMPLETE_MESSAGE ∧ reply.block = block ∧
    expects ctx' = expects ctx

/-- `DecryptMessage` works in place, and what it reports as data lies in the block. -/
structure DecryptsInPlace (sch : Schannel Ctx) : Prop where
  length_block : ∀ ctx block, (sch.decryptMessage ctx block).1.block.length = block.length
  data_le : ∀ ctx block, (sch.decryptMessage ctx block).1.status = .SEC_E_OK →
    (sch.decryptMessage ctx block).1.buffers[1].bufferType = .SECBUFFER_DATA →
    (sch.decryptMessage ctx block).1.buffers[1].pvBuffer +
      (sch.decryptMessage ctx block).1.buffers[1].cbBuffer ≤ block.length

/-- A session ticket: its ciphertext, and the image that decryption leaves in its place, whose
sixth byte says `new_session_ticket`. -/
structure Ticket where
  cipher : List UInt8
  image : List UInt8
  length_image : image.length = cipher.length
  new_session_ticket : image[5]? = some 0x04

/-- What Schannel does with a ticket that is next in its stream: `DecryptMessage` decrypts it in
place and points to it and all that follows, and `InitializeSecurityContext` consumes it and
reports what follows, if anything does. -/
structure TicketContract (sch : Schannel Ctx) (next : Ctx → Option Ticket) : Prop where
  decrypted : ∀ ctx ticket rest reply ctx', next ctx = some ticket →
    sch.decryptMessage ctx (ticket.cipher ++ rest) = (reply, ctx') →
    reply.status = .SEC_I_RENEGOTIATE ∧ reply.block = ticket.image ++ rest ∧
    reply.buffers[3] = ⟨.SECBUFFER_EXTRA, (ticket.image ++ rest).length, 0⟩
  consumed : ∀ ctx ticket rest reply ctx' isc ctx'', next ctx = some ticket →
    sch.decryptMessage ctx (ticket.cipher ++ rest) = (reply, ctx') →
    sch.initializeSecurityContext ctx' (ticket.image ++ rest) = (isc, ctx'') →
    (rest ≠ [] → isc.second.bufferType = .SECBUFFER_EXTRA ∧ isc.second.cbBuffer = rest.length) ∧
    (rest = [] → isc.second = .empty)

/-- The network delivers `stream` in order: a `recv` returns at least one byte, no more than
was asked for, and the next ones of the stream. -/
def Reader.Delivers (stream : List UInt8) (r : Reader Ctx) : ReadEvent → Prop
  | .recv outcome => RecvFits r.socket.received outcome ∧
      ∀ bytes, outcome = .data bytes → r.arrived ++ bytes <+: stream
  | _ => True

/-- A reader that starts with an empty socket. -/
def Reader.start (sizes : StreamSizes) (ctx : Ctx) (incoming : List UInt8) : Reader Ctx :=
  { socket := { TlsSocket.start incoming with sizes }
    ctx, control := .idle, arrived := [], returned := [] }

end Win32Experiments.SecureSocket
