import Mathlib.Logic.Function.Basic
import Win32Experiments.Foundation.Run
import Win32Experiments.Foundation.Word
import Win32Experiments.Sspi

/-!
# The authentication exchange of the old SSPI sample

The client and the server of the sample as two processes joined by two FIFO byte channels.
A step is one `send`, one `recv`, one call of the security package or one test of a loop, by
either side, so a run is any interleaving and any chunking. Bytes carry a ghost tag that says
what their sender meant them for.
-/

namespace Win32Experiments.OldSspiSample

open Foundation Sspi

/-! ## The security packages -/

/-- What a call of the security package answers: its status and the output token. -/
structure Leg where
  status : SecurityStatus
  token : List UInt8
deriving DecidableEq, Repr

/-- The two sides of the exchange. -/
inductive Role
  | client
  | server
deriving DecidableEq, Repr

/-- The peer of a side. -/
def Role.other : Role → Role
  | .client => .server
  | .server => .client

/-- The security packages: what `InitializeSecurityContext` and `AcceptSecurityContext`
answer to the input tokens that a side has given them so far. -/
structure Packages where
  initializeSecurityContext : List (List UInt8) → Leg
  acceptSecurityContext : List (List UInt8) → Leg

/-- `CompleteAuthToken`, which succeeds. -/
def completeAuthToken : SecurityStatus := .SEC_E_OK

/-- What `GenClientContext` and `GenServerContext` do with the answer of the package: the
output token and `*pfDone`, or failure. Both overwrite `ss` by the result of
`CompleteAuthToken` before they test it. -/
def genContext (leg : Leg) : Option (List UInt8 × Bool) :=
  if SEC_SUCCESS leg.status then
    let ss :=
      if leg.status = .SEC_I_COMPLETE_NEEDED ∨ leg.status = .SEC_I_COMPLETE_AND_CONTINUE then
        completeAuthToken
      else leg.status
    some (leg.token, !(ss = .SEC_I_CONTINUE_NEEDED || ss = .SEC_I_COMPLETE_AND_CONTINUE))
  else none

/-- `GenClientContext`. -/
def genClientContext (packages : Packages) (inputs : List (List UInt8)) :
    Option (List UInt8 × Bool) :=
  genContext (packages.initializeSecurityContext inputs)

/-- `GenServerContext`. -/
def genServerContext (packages : Packages) (inputs : List (List UInt8)) :
    Option (List UInt8 × Bool) :=
  genContext (packages.acceptSecurityContext inputs)

/-! ## Bytes on the wire -/

/-- What a byte was sent as: of a length prefix, of a token, or of the encrypted message. -/
inductive Tag
  | length
  | body
  | block
deriving DecidableEq, Repr

/-- A byte with its tag, which the code does not see. -/
structure Octet where
  value : UInt8
  tag : Tag
deriving DecidableEq, Repr

/-- `bytes` as sent for the purpose `tag`. -/
def octets (tag : Tag) (bytes : List UInt8) : List Octet :=
  bytes.map fun value => ⟨value, tag⟩

/-- The values of octets. -/
def valuesOf (os : List Octet) : List UInt8 := os.map Octet.value

/-- The length prefix that `SendMsg` sends before `token`. -/
def lengthOctets (token : List UInt8) : List Octet :=
  octets .length (leBytes 4 token.length)

/-- The bytes that `SendMsg` sends for `token`. -/
def frameOctets (token : List UInt8) : List Octet :=
  lengthOctets token ++ octets .body token

/-! ## A side -/

/-- Where a side stands. -/
inductive Control
  /-- About to call `GenClientContext` or `GenServerContext`. -/
  | generate
  /-- In `SendMsg`, in the first `SendBytes`. -/
  | sendLength (left body : List Octet)
  /-- In `SendMsg`, in the second `SendBytes`. -/
  | sendBody (left : List Octet)
  /-- In `ReceiveMsg`, in the first `ReceiveBytes`. -/
  | receiveLength (got : List Octet)
  /-- In `ReceiveMsg`, in the second `ReceiveBytes`. -/
  | receiveBody (cbData : ℕ) (got : List Octet)
  /-- The server, past `DoAuthentication`, in `SendBytes` of the encrypted message. -/
  | sendBlock (left : List Octet)
  /-- The client, past `DoAuthentication`, in `ReceiveBytes` of the encrypted message. -/
  | readBlock
  /-- The socket is closed after the message. -/
  | finished
  /-- A call failed and the process gave up. -/
  | failed
  /-- A token was stored past the end of the input buffer. -/
  | overrun
deriving DecidableEq, Repr

/-- A side: where it stands, `fDone`, and the record of the run: tokens given to the package
and tokens it put out, bytes read as a length prefix and as a body, and bytes read behind
the authentication. -/
structure Side where
  control : Control
  fDone : Bool
  consumed : List (List UInt8)
  emitted : List (List UInt8)
  lengthRead : List Octet
  bodyRead : List Octet
  data : List Octet
deriving DecidableEq, Repr

/-- A side before its first step. -/
def Side.start (control : Control) : Side :=
  { control, fDone := false, consumed := [], emitted := [], lengthRead := [], bodyRead := []
    data := [] }

/-- Whether the process has closed its socket. -/
def Side.closed (s : Side) : Bool :=
  s.control = .finished || s.control = .failed || s.control = .overrun

/-- What a run is given: the packages, the encrypted message of the server, and the sizes of
the input buffers (`cbMaxMessage` and `g_cbMaxMessage`). -/
structure Setting where
  packages : Packages
  block : List UInt8
  capacity : Role → ℕ

/-- The client reads at most `BIG_BUFF` bytes of the encrypted message. -/
def BIG_BUFF : ℕ := 2048

/-- The call of a side's context function. -/
def Setting.generate (cfg : Setting) : Role → List (List UInt8) → Option (List UInt8 × Bool)
  | .client => genClientContext cfg.packages
  | .server => genServerContext cfg.packages

/-- Where a side goes when `DoAuthentication` returns. -/
def Setting.afterAuth (cfg : Setting) : Role → Control
  | .client => .readBlock
  | .server => .sendBlock (octets .block cfg.block)

/-- `SendMsg` has returned: the test of `while (!fDone)`, then `ReceiveMsg`. -/
def Side.sent (cfg : Setting) (r : Role) (s : Side) : Side :=
  { s with control := if s.fDone then cfg.afterAuth r else .receiveLength [] }

/-- The context function returned `token` and `fDone`: `SendMsg`, which sends nothing for an
empty token. -/
def Side.sendMsg (cfg : Setting) (r : Role) (s : Side) (token : List UInt8) (fDone : Bool) :
    Side :=
  let s := { s with fDone }
  if token = [] then s.sent cfg r
  else
    { s with
      control := .sendLength (lengthOctets token) (octets .body token)
      emitted := s.emitted ++ [token] }

/-- What a step of a side does: the side afterwards, what is left of its inbox, and the bytes
sent. -/
structure Action where
  side : Side
  inbox : List Octet
  sent : List Octet
deriving DecidableEq, Repr

/-- A `recv` of at most `wanted` bytes that returns `n + 1` of them, or all that are there
where those are fewer: with an empty inbox it waits, or reports that the peer has closed. -/
def recvSome (wanted : ℕ) (inbox : List Octet) (peerClosed : Bool) (n : ℕ)
    (onClosed : Side) (onBytes : List Octet → Side) : Option Action :=
  if inbox = [] then
    if peerClosed then some ⟨onClosed, [], []⟩ else none
  else
    let count := min (n + 1) wanted
    some ⟨onBytes (inbox.take count), inbox.drop count, []⟩

/-- The first `ReceiveBytes` of `ReceiveMsg` got `bytes`; with four of them it has `cbData`. -/
def Side.gotLength (s : Side) (got bytes : List Octet) : Side :=
  { s with
    control :=
      if (got ++ bytes).length = 4 then .receiveBody (leValue (valuesOf (got ++ bytes))) []
      else .receiveLength (got ++ bytes)
    lengthRead := s.lengthRead ++ bytes }

/-- The second `ReceiveBytes` of `ReceiveMsg` got `bytes` and stored them in a buffer of
`capacity` bytes. -/
def Side.gotBody (s : Side) (capacity cbData : ℕ) (got bytes : List Octet) : Side :=
  { s with
    control :=
      if capacity < (got ++ bytes).length then .overrun else .receiveBody cbData (got ++ bytes)
    bodyRead := s.bodyRead ++ bytes }

/-- A step of a side; `n` sizes the chunk of its `send` or `recv`. -/
def Side.act (cfg : Setting) (r : Role) (s : Side) (inbox : List Octet) (peerClosed : Bool)
    (n : ℕ) : Option Action :=
  match s.control with
  | .generate =>
    match cfg.generate r s.consumed with
    | none => some ⟨{ s with control := .failed }, inbox, []⟩
    | some (token, fDone) => some ⟨s.sendMsg cfg r token fDone, inbox, []⟩
  | .sendLength left body =>
    let rest := left.drop (n + 1)
    some ⟨{ s with control := if rest = [] then .sendBody body else .sendLength rest body },
      inbox, left.take (n + 1)⟩
  | .sendBody left =>
    let rest := left.drop (n + 1)
    some ⟨if rest = [] then s.sent cfg r else { s with control := .sendBody rest },
      inbox, left.take (n + 1)⟩
  | .receiveLength got =>
    recvSome (4 - got.length) inbox peerClosed n { s with control := .failed } (s.gotLength got)
  | .receiveBody cbData got =>
    if got.length = cbData then
      some ⟨{ s with control := .generate, consumed := s.consumed ++ [valuesOf got] }, inbox, []⟩
    else if toInt32 cbData < 0 then some ⟨{ s with control := .failed }, inbox, []⟩
    else
      recvSome (cbData - got.length) inbox peerClosed n { s with control := .failed }
        (s.gotBody (cfg.capacity r) cbData got)
  | .sendBlock left =>
    if left = [] then some ⟨{ s with control := .finished }, inbox, []⟩
    else
      some ⟨{ s with control := .sendBlock (left.drop (n + 1)) }, inbox, left.take (n + 1)⟩
  | .readBlock =>
    if s.data.length = BIG_BUFF then some ⟨{ s with control := .finished }, inbox, []⟩
    else
      recvSome (BIG_BUFF - s.data.length) inbox peerClosed n { s with control := .finished }
        fun bytes => { s with data := s.data ++ bytes }
  | .finished => none
  | .failed => none
  | .overrun => none

/-! ## The two sides -/

/-- The two sides, and the bytes each has sent that the other has not received. -/
structure Net where
  side : Role → Side
  wire : Role → List Octet

/-- The client starts in `GenClientContext`, the server in `ReceiveMsg`. -/
def Net.start : Net where
  side
    | .client => Side.start .generate
    | .server => Side.start (.receiveLength [])
  wire _ := []

/-- A step of the side `e.1`. -/
def Net.step (cfg : Setting) (net : Net) (e : Role × ℕ) : Option Net :=
  ((net.side e.1).act cfg e.1 (net.wire e.1.other) (net.side e.1.other).closed e.2).map
    fun a =>
      { side := Function.update net.side e.1 a.side
        wire := fun q => if q = e.1 then net.wire q ++ a.sent else a.inbox }

/-! ## What the packages promise -/

/-- The package has succeeded and expects no more token. -/
def Leg.finishes (leg : Leg) : Bool :=
  leg.status = .SEC_E_OK || leg.status = .SEC_I_COMPLETE_NEEDED

/-- The package expects one more token. -/
def Leg.continues (leg : Leg) : Bool :=
  leg.status = .SEC_I_CONTINUE_NEEDED || leg.status = .SEC_I_COMPLETE_AND_CONTINUE

/-- The answer of the package of `r` to the tokens `inputs`. -/
def Packages.answer (packages : Packages) : Role → List (List UInt8) → Leg
  | .client => packages.initializeSecurityContext
  | .server => packages.acceptSecurityContext

/-- `legs` are the answers of the packages when each token put out is the next one taken in,
from the turn of `r` on, with the tokens `inputs` taken in so far. -/
def Follows (packages : Packages) : Role → (Role → List (List UInt8)) → List Leg → Prop
  | _, _, [] => True
  | r, inputs, leg :: legs =>
    packages.answer r (inputs r) = leg ∧
    Follows packages r.other
      (Function.update inputs r.other (inputs r.other ++ [leg.token])) legs

/-- The SSPI contract of an exchange: a side whose package continues gets one more token from
its peer, and a token is empty only when the peer has finished, which ends the exchange. -/
def Contract : Bool → List Leg → Prop
  | _, [] => False
  | true, leg :: legs => leg.finishes = true ∧ leg.token = [] ∧ legs = []
  | false, leg :: legs =>
    (leg.finishes = true ∨ leg.continues = true) ∧ leg.token ≠ [] ∧ Contract leg.finishes legs

end Win32Experiments.OldSspiSample
