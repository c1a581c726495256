import Mathlib.Algebra.GroupWithZero.Nat
import Win32Experiments.XSocket.Transport

/-!
# `RunLoop` of the XSocket sample

`RunLoop` takes action after action from a WebSocket handle, moves the bytes of its buffers to or
from the transport, and completes the action with their number. Both handles run on one transport,
so a run of the model is any sequence of actions on it.
-/

namespace Win32Experiments.XSocket

open Foundation

/-! ## Actions -/

/-- A buffer to receive to. -/
structure ReceiveBuffer where
  ulBufferLength : ℕ
  isNull : Bool
deriving DecidableEq, Repr

/-- A buffer to send, whose pointer may be null if it is empty; and whether the allocations of its
`WriteData` succeed. Its length is a `ULONG`. -/
structure SendBuffer where
  pbBuffer : Option (List UInt8)
  entryAllocated : Bool
  bufferAllocated : Bool
  length_lt : (pbBuffer.getD []).length < 2 ^ 32
deriving DecidableEq, Repr

/-- The bytes of the buffer, as many as `ulBufferLength`. -/
def SendBuffer.bytes (b : SendBuffer) : List UInt8 := b.pbBuffer.getD []

/-- What `WebSocketGetAction` gives to do; `other` is any further value. -/
inductive Action
  | noAction
  | receiveFromNetwork (buffers : List ReceiveBuffer)
  | indicateReceiveComplete (bufferCount : ℕ)
  | sendToNetwork (buffers : List SendBuffer)
  | indicateSendComplete
  | other
deriving DecidableEq, Repr

/-- What an action has done so far: `hr`, the count, the bytes moved for each buffer, and the
transport. -/
structure Performed where
  hr : HResult
  bytesTransferred : ℕ
  moved : List (List (Option UInt8))
  list : List ListEntry
deriving DecidableEq, Repr

/-- `ReadData` to a buffer, unless its `assert(*outputDataLength != 0)` fails. -/
def readBuffer (list : List ListEntry) (b : ReceiveBuffer) : Option ReadResult :=
  (readData list b.ulBufferLength b.isNull).bind fun r =>
    if r.hr = .S_OK ∧ r.outputDataLength = 0 then none else some r

/-- The loop of a receive action. `ReadData` sets the count. -/
def receiveLoop : List ReceiveBuffer → Performed → Option Performed
  | [], p => some p
  | b :: bs, p =>
    (readBuffer p.list b).bind fun r =>
      let p : Performed := ⟨r.hr, r.outputDataLength, p.moved ++ [r.data], r.list⟩
      if p.hr ≠ .S_OK then some p
      -- there were not enough data to fill this buffer
      else if p.bytesTransferred < b.ulBufferLength then some p
      else receiveLoop bs p

/-- The loop of a send action. The count is added up. -/
def sendLoop : List SendBuffer → Performed → Performed
  | [], p => p
  | b :: bs, p =>
    let (hr, list) := writeData p.list b.pbBuffer b.entryAllocated b.bufferAllocated
    if hr ≠ .S_OK then { p with hr, list }
    else
      sendLoop bs
        { hr, list
          bytesTransferred := addW 32 p.bytesTransferred b.bytes.length
          moved := p.moved ++ [b.bytes.map some] }

/-- The `switch` on an action, where `WebSocketGetAction` returned `hr`; none if an assertion
fails. -/
def perform (list : List ListEntry) (hr : HResult) : Action → Option Performed
  | .noAction => some ⟨hr, 0, [], list⟩
  | .receiveFromNetwork buffers =>
    if buffers = [] then none else receiveLoop buffers ⟨hr, 0, [], list⟩
  | .indicateReceiveComplete bufferCount =>
    if bufferCount ≠ 1 then none else some ⟨hr, 0, [], list⟩
  | .sendToNetwork buffers => some (sendLoop buffers ⟨hr, 0, [], list⟩)
  | .indicateSendComplete => some ⟨hr, 0, [], list⟩
  | .other => none

/-- A completed action, what it did to which transport, and how often the handle was aborted. -/
structure Completion where
  action : Action
  before : List ListEntry
  performed : Performed
  aborts : ℕ
deriving DecidableEq, Repr

/-- The transport, and the actions completed. -/
structure RunLoop where
  list : List ListEntry
  completed : List Completion
deriving DecidableEq, Repr

/-- Nothing was sent yet. -/
def RunLoop.init : RunLoop := ⟨[], []⟩

/-- A turn of `RunLoop`: `WebSocketGetAction` returns its `hr` and an action, and unless an
assertion fails the action is performed and completed. -/
def RunLoop.step (s : RunLoop) : HResult × Action → Option RunLoop
  | (hr, action) =>
    (perform s.list hr action).map fun p =>
      { list := p.list
        completed := s.completed ++
          [⟨action, s.list, p, (if hr ≠ .S_OK then 1 else 0) + if p.hr ≠ .S_OK then 1 else 0⟩] }

/-! ## Statements -/

/-- Successive `ReadData` on the buffers, one for each, and what they moved. -/
inductive Reads : List ListEntry → List ReceiveBuffer → List (List (Option UInt8)) →
    List ListEntry → Prop
  | nil {list} : Reads list [] [] list
  | cons {list list' b bs moved r} : readBuffer list b = some r → Reads r.list bs moved list' →
      Reads list (b :: bs) (r.data :: moved) list'

/-- The bytes moved went to or came from the transport in the order of the buffers, each buffer in
one call; for those sent, the stream of the transport has grown by just these bytes. -/
def Completion.Presented (c : Completion) : Prop :=
  match c.action with
  | .receiveFromNetwork buffers =>
    ∃ k, Reads c.before (buffers.take k) c.performed.moved c.performed.list
  | .sendToNetwork buffers =>
    (∃ k, c.performed.moved = (buffers.take k).map fun b => b.bytes.map some) ∧
      (pending c.performed.list).map some
        = (pending c.before).map some ++ c.performed.moved.flatten
  | _ => c.performed.moved = [] ∧ c.performed.list = c.before

/-- The action is completed with the number of bytes moved over all its buffers, and these were
presented to the transport in order. -/
structure Completion.Accounted (c : Completion) : Prop where
  count : c.performed.bytesTransferred = (c.performed.moved.map List.length).sum
  presented : c.Presented

/-- The chunks have `n` bytes for a read. `CopyTo` gives the first chunk whole each time, and it is
dropped once it was given from its front: at once if it is fresh, and else when its cursor has
wrapped to the front. -/
def Supplies : List ListEntry → ℕ → Prop
  | [], n => n = 0
  | first :: rest, n => ∀ k, (first.index + k * first.size) % 2 ^ 32 = 0 →
      n ≤ (k + 1) * first.size + (rest.map ListEntry.size).sum

/-- The transport has bytes enough for the buffer. -/
def Fills (list : List ListEntry) (b : ReceiveBuffer) : Prop :=
  b.isNull = false ∧ Supplies list b.ulBufferLength

/-- The buffer is written to the transport. -/
def SendBuffer.Written (b : SendBuffer) : Bool :=
  b.pbBuffer.isNone || b.entryAllocated && b.bufferAllocated

/-- The condition on an action: of several buffers to receive to the transport does not fill the
first, and the buffers sent are together shorter than `2 ^ 32` bytes. -/
def CountsOnce (s : RunLoop) : HResult × Action → Prop
  | (_, .receiveFromNetwork (b :: _ :: _)) => ¬ Fills s.list b
  | (_, .sendToNetwork buffers) =>
    ((buffers.takeWhile SendBuffer.Written).map fun b => b.bytes.length).sum < 2 ^ 32
  | _ => True

end Win32Experiments.XSocket
