import Win32Experiments.Foundation.Memory
import Win32Experiments.Foundation.Run
import Win32Experiments.Foundation.Word
import Win32Experiments.Sspi
import Win32Experiments.Winsock

/-!
# The TLS client of `SspiExample:Client2`

`TlsHandshake` collects the server's bytes in a vector of its own, `inBuffer`; `wmain` then
reads into `netBuf`, from which `SslDecrypt` decrypts. The model is the pair of loops, one
pass at a time, with the answers of SSPI and the socket given by the environment.
-/

namespace Win32Experiments.SspiClientServer

open Foundation Sspi Winsock

/-! ## Helpers of the client -/

/-- The size of the local buffer of `RecvSome`. -/
def recvSize : ℕ := 16 * 1024

/-- `SendAll`: the total sent, or what the `send` that failed returned. The list has what
each `send` accepts and ends where one fails. -/
def sendAll (len : ℤ) : ℕ → List ℕ → ℤ
  | total, [] => if (total : ℤ) < len then -1 else total
  | total, n :: ns =>
    if (total : ℤ) < len then
      if n = 0 then 0 else sendAll len (total + n) ns
    else total

/-- `ConsumeFront`. -/
def consumeFront (v : List UInt8) (n : ℕ) : List UInt8 :=
  if n = 0 then v
  else if v.length ≤ n then []
  else v.drop n

/-- The search of `SslDecrypt` for its `SECBUFFER_DATA` buffer: the last one counts. -/
def findData (bufs : List SecBuffer) : SecBuffer :=
  bufs.foldl (fun found b => if b.bufferType = .SECBUFFER_DATA then b else found) .empty

/-- `extraLen` of `SslDecrypt`: the last `SECBUFFER_EXTRA` buffer counts. -/
def extraLen (bufs : List SecBuffer) : ℕ :=
  bufs.foldl (fun len b => if b.bufferType = .SECBUFFER_EXTRA then b.cbBuffer else len) 0

/-! ## The client -/

/-- Where the client stands: in the loop of `TlsHandshake`, behind it, in `wmain` before the
request is sent, at the outer and at the inner head of the read loop, behind it, or after
`Fail`. -/
inductive Control
  | handshake
  | verify
  | request
  | receive
  | decrypt
  | closed
  | exited
deriving DecidableEq, Repr

/-- The client. `phCtx` says whether the context handle is passed; `arrived` is what the
server's stream delivered, `consumed` what the handshake took of it, `presented` what
`DecryptMessage` was given for the first time and `taken` what it took; `seen` bytes of
`netBuf` were given to it before. -/
structure Client where
  control : Control
  phCtx : Bool
  inBuffer : List UInt8
  netBuf : List UInt8
  plain : List UInt8
  handshakeReturned : Bool
  arrived : List UInt8
  consumed : List UInt8
  presented : List UInt8
  taken : List UInt8
  seen : ℕ
deriving DecidableEq, Repr

/-- The client when `TlsHandshake` is called. -/
def Client.start : Client :=
  { control := .handshake, phCtx := false, inBuffer := [], netBuf := [], plain := []
    handshakeReturned := false, arrived := [], consumed := [], presented := [], taken := []
    seen := 0 }

/-- A step of the client: a pass of the handshake loop; the checks behind it; the request; a
`RecvSome` of the read loop; a call of `SslDecrypt`, with the bytes `DecryptMessage` took. -/
inductive Event
  | handshake (reply : IscReply) (sends : List ℕ) (recv : RecvOutcome)
  | verify (ok : Bool)
  | request (ok : Bool)
  | receive (recv : RecvOutcome)
  | decrypt (reply : DecryptReply) (took : ℕ)
deriving DecidableEq, Repr

/-- The input of `InitializeSecurityContextW`: `phCtx ? &inDesc : nullptr`. -/
def Client.input (c : Client) : List UInt8 :=
  if c.phCtx then c.inBuffer else []

/-- `RecvSome(s, inBuffer)` in the handshake; a closed or failed connection ends the
process. -/
def Client.recvHandshake (c : Client) : RecvOutcome → Client
  | .data bytes =>
    { c with inBuffer := c.inBuffer ++ bytes, arrived := c.arrived ++ bytes }
  | .closed => { c with control := .exited }
  | .error => { c with control := .exited }

/-- The vector that the handshake loop keeps when it goes on. -/
def keepExtra (inBuffer : List UInt8) (second : SecBuffer) : List UInt8 :=
  if second.bufferType = .SECBUFFER_EXTRA ∧ second.cbBuffer ≠ 0 then
    consumeFront inBuffer (inBuffer.length - second.cbBuffer)
  else []

/-- A pass of the handshake loop. Without a context `inSecBufs[1]` is not passed and stays
empty. -/
def Client.handshakePass (c : Client) (reply : IscReply) (sends : List ℕ)
    (recv : RecvOutcome) : Client :=
  let second := if c.phCtx then reply.second else .empty
  let c := { c with consumed := c.consumed ++ c.input.take reply.consumed }
  if reply.status = .SEC_E_INCOMPLETE_MESSAGE then c.recvHandshake recv
  else if reply.token ≠ [] ∧ sendAll (toInt32 reply.token.length) 0 sends ≤ 0 then
    { c with control := .exited }
  else
    match reply.status with
    | .SEC_E_OK => { c with control := .verify }
    | .SEC_I_CONTINUE_NEEDED =>
      { c with phCtx := true, inBuffer := keepExtra c.inBuffer second }.recvHandshake recv
    | .SEC_I_INCOMPLETE_CREDENTIALS =>
      { c with phCtx := true, inBuffer := keepExtra c.inBuffer second }.recvHandshake recv
    | _ => { c with control := .exited }

/-- `RecvSome(s, netBuf)` in the read loop of `wmain`. -/
def Client.receivePass (c : Client) : RecvOutcome → Client
  | .data bytes =>
    { c with control := .decrypt, netBuf := c.netBuf ++ bytes, arrived := c.arrived ++ bytes }
  | .closed => { c with control := .closed }
  | .error => { c with control := .exited }

/-- The call of `DecryptMessage`: what of `netBuf` it had not been given before is presented
to it now. -/
def Client.present (c : Client) : Client :=
  { c with presented := c.presented ++ c.netBuf.drop c.seen, seen := c.netBuf.length }

/-- The end of `SslDecrypt` after a record was decrypted, and of the pass of the inner loop. -/
def Client.keepRest (c : Client) (reply : DecryptReply) (took : ℕ) : Client :=
  let data := findData reply.buffers.toList
  let extra := extraLen reply.buffers.toList
  let netBuf :=
    if extra ≠ 0 then consumeFront reply.block (reply.block.length - extra) else []
  { c with
    control := if netBuf = [] then .receive else .decrypt
    plain := c.plain ++ window reply.block data.pvBuffer data.cbBuffer
    netBuf
    taken := c.taken ++ c.netBuf.take took
    seen := netBuf.length }

/-- A pass of the inner loop: `SslDecrypt` and the tests on its status. -/
def Client.decryptPass (c : Client) (reply : DecryptReply) (took : ℕ) : Client :=
  let c := c.present
  match reply.status with
  | .SEC_E_INCOMPLETE_MESSAGE => { c with control := .receive, netBuf := reply.block }
  | .SEC_I_CONTEXT_EXPIRED =>
    -- close_notify: `netBuf.clear()`, and back to `RecvSome`
    { c with control := .receive, netBuf := [], taken := c.taken ++ c.netBuf, seen := 0 }
  | .SEC_E_OK => c.keepRest reply took
  | .SEC_I_RENEGOTIATE => c.keepRest reply took
  | _ => { c with control := .exited }

/-- A step of the client. -/
def Client.step (c : Client) : Event → Option Client
  | .handshake reply sends recv =>
    if c.control = .handshake then some (c.handshakePass reply sends recv) else none
  | .verify ok =>
    if c.control = .verify then
      -- `inBuffer` dies with `TlsHandshake`
      some (if ok then { c with control := .request, handshakeReturned := true }
        else { c with control := .exited })
    else none
  | .request ok =>
    if c.control = .request then
      some { c with control := if ok then .receive else .exited }
    else none
  | .receive recv =>
    if c.control = .receive then some (c.receivePass recv) else none
  | .decrypt reply took =>
    if c.control = .decrypt then some (c.decryptPass reply took) else none

/-! ## What SSPI and the network promise -/

/-- `DecryptMessage` took the first `took` bytes of its input, left the rest as it was and
reports it as `SECBUFFER_EXTRA`. -/
def TakesPrefix (input : List UInt8) (reply : DecryptReply) (took : ℕ) : Prop :=
  took ≤ input.length ∧ reply.block.length = input.length ∧
  reply.block.drop took = input.drop took ∧
  (∀ b ∈ reply.buffers.toList, b.bufferType = .SECBUFFER_EXTRA →
    b.cbBuffer = input.length - took) ∧
  (took < input.length → ∃ b ∈ reply.buffers.toList, b.bufferType = .SECBUFFER_EXTRA)

/-- `DecryptMessage` takes a prefix of its input when it decrypts a record, and nothing when
the record is incomplete. -/
def DecryptContract (input : List UInt8) (reply : DecryptReply) (took : ℕ) : Prop :=
  match reply.status with
  | .SEC_E_INCOMPLETE_MESSAGE => reply.block = input
  | .SEC_E_OK => TakesPrefix input reply took
  | .SEC_I_RENEGOTIATE => TakesPrefix input reply took
  | _ => True

/-- A `recv` of `RecvSome` returns at least one byte and at most what it asked for. -/
def RecvFits : RecvOutcome → Prop
  | .data bytes => bytes ≠ [] ∧ bytes.length ≤ recvSize
  | .closed => True
  | .error => True

/-- The answers of a step are ones SSPI and the network can give. -/
def Client.Answers (c : Client) : Event → Prop
  | .handshake reply _ recv => IscContract c.input.length reply ∧ RecvFits recv
  | .verify _ => True
  | .request _ => True
  | .receive recv => RecvFits recv
  | .decrypt reply took => DecryptContract c.netBuf reply took

end Win32Experiments.SspiClientServer
