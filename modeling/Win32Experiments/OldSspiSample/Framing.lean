import Win32Experiments.Foundation.Word

/-!
# The framing of the old SSPI sample

`SendMsg` sends the length of a message as four bytes and then its body; `ReceiveMsg` reads
them back. The client and the server have the same four functions. Each is modelled over the
outcomes of its `send` and `recv` calls, in order; where the outcomes run out, the call is
still waiting.
-/

namespace Win32Experiments.OldSspiSample

open Foundation

/-! ## `SendBytes` and `SendMsg` -/

/-- What a `send` does: it takes `n + 1` bytes, or all where there are fewer, or it fails. -/
inductive SendOutcome
  | chunk (n : ℕ)
  | error
deriving DecidableEq, Repr

/-- How far a send came: what it returned (`none` while it waits), the bytes it put on the
wire, and the outcomes left over. -/
structure Sent where
  result : Option Bool
  wire : List UInt8
  outcomes : List SendOutcome
deriving DecidableEq, Repr

/-- The bytes sent before, in front of those sent by the rest of the loop. -/
def Sent.prepend (bytes : List UInt8) (s : Sent) : Sent := { s with wire := bytes ++ s.wire }

/-- The loop of `SendBytes`. A negative length makes `send` fail. -/
def sendLoop : ℤ → List UInt8 → List SendOutcome → Sent
  | cbRemaining, _, [] => ⟨if cbRemaining = 0 then some true else none, [], []⟩
  | cbRemaining, pTemp, o :: os =>
    if cbRemaining = 0 then ⟨some true, [], o :: os⟩
    else if cbRemaining < 0 then ⟨some false, [], os⟩
    else
      match o with
      | .error => ⟨some false, [], os⟩
      | .chunk n =>
        let cbSent := min (n + 1) cbRemaining.toNat
        (sendLoop (cbRemaining - cbSent) (pTemp.drop cbSent) os).prepend (pTemp.take cbSent)

/-- `SendBytes`: `int cbRemaining = cbBuf`. -/
def sendBytes (pBuf : List UInt8) (cbBuf : ℕ) (outcomes : List SendOutcome) : Sent :=
  if cbBuf = 0 then ⟨some true, [], outcomes⟩
  else sendLoop (toInt32 cbBuf) pBuf outcomes

/-- `SendMsg`. -/
def sendMsg (pBuf : List UInt8) (cbBuf : ℕ) (outcomes : List SendOutcome) : Sent :=
  if cbBuf = 0 then ⟨some true, [], outcomes⟩
  else
    let header := sendBytes (leBytes 4 cbBuf) 4 outcomes
    if header.result = some true then
      (sendBytes pBuf cbBuf header.outcomes).prepend header.wire
    else header

/-! ## `ReceiveBytes` and `ReceiveMsg` -/

/-- What a `recv` does: it returns `n + 1` bytes, or all that was asked for or is there where
those are fewer, or it reports the end of the stream, or it fails. -/
inductive RecvOutcome
  | chunk (n : ℕ)
  | closed
  | error
deriving DecidableEq, Repr

/-- How far a receive came: what it returned (`none` while it waits), the bytes stored at
`pBuf` on, `cbRead`, and the stream and the outcomes left over. -/
structure Received where
  result : Option Bool
  stored : List UInt8
  cbRead : ℕ
  stream : List UInt8
  outcomes : List RecvOutcome
deriving DecidableEq, Repr

/-- The bytes stored before, in front of those stored by the rest of the loop. -/
def Received.prepend (bytes : List UInt8) (r : Received) : Received :=
  { r with stored := bytes ++ r.stored, cbRead := bytes.length + r.cbRead }

/-- The loop of `ReceiveBytes`; `cbRead` counts what this part of it read. A negative length
makes `recv` fail, and with nothing in the stream it waits. -/
def receiveLoop : ℤ → List UInt8 → List RecvOutcome → Received
  | cbRemaining, stream, [] => ⟨if cbRemaining = 0 then some true else none, [], 0, stream, []⟩
  | cbRemaining, stream, o :: os =>
    if cbRemaining = 0 then ⟨some true, [], 0, stream, o :: os⟩
    else if cbRemaining < 0 then ⟨some false, [], 0, stream, os⟩
    else
      match o with
      | .closed => ⟨some true, [], 0, stream, os⟩
      | .error => ⟨some false, [], 0, stream, os⟩
      | .chunk n =>
        let bytes := stream.take (min (n + 1) cbRemaining.toNat)
        if bytes = [] then ⟨none, [], 0, stream, o :: os⟩
        else
          (receiveLoop (cbRemaining - bytes.length) (stream.drop bytes.length) os).prepend bytes

/-- `ReceiveBytes`. -/
def receiveBytes (cbBuf : ℕ) (stream : List UInt8) (outcomes : List RecvOutcome) : Received :=
  receiveLoop (toInt32 cbBuf) stream outcomes

/-- `ReceiveMsg`: `stored` is what it stores in the caller's buffer of `cbBuf` bytes. -/
def receiveMsg (_cbBuf : ℕ) (stream : List UInt8) (outcomes : List RecvOutcome) : Received :=
  let header := receiveBytes 4 stream outcomes
  if header.result = some true then
    -- `cbData` is four bytes of the stack, not of the caller's buffer
    if header.cbRead ≠ 4 then { header with result := some false, stored := [], cbRead := 0 }
    else
      let cbData := leValue header.stored
      let body := receiveBytes cbData header.stream header.outcomes
      if body.result = some true ∧ body.cbRead ≠ cbData then
        { body with result := some false }
      else body
  else { header with stored := [], cbRead := 0 }

/-! ## Sequences of messages -/

/-- `SendMsg` for each message, until one fails. -/
def sendMsgs : List (List UInt8) → List SendOutcome → Sent
  | [], outcomes => ⟨some true, [], outcomes⟩
  | m :: ms, outcomes =>
    let first := sendMsg m m.length outcomes
    if first.result = some true then (sendMsgs ms first.outcomes).prepend first.wire else first

/-- `n` calls of `ReceiveMsg`: the messages with the lengths reported, and the stream left
over, when all return `TRUE`. -/
def receiveMsgs (cbBuf : ℕ) :
    ℕ → List UInt8 → List RecvOutcome → Option (List (List UInt8 × ℕ) × List UInt8)
  | 0, stream, _ => some ([], stream)
  | n + 1, stream, outcomes =>
    let first := receiveMsg cbBuf stream outcomes
    if first.result = some true then
      (receiveMsgs cbBuf n first.stream first.outcomes).map fun (ms, stream) =>
        ((first.stored, first.cbRead) :: ms, stream)
    else none

end Win32Experiments.OldSspiSample
