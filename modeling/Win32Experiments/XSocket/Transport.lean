import Win32Experiments.Foundation.Memory
import Win32Experiments.Foundation.Run
import Win32Experiments.Foundation.Word

/-!
# `Transport` of the XSocket sample

The transport is a list of chunks: `WriteData` appends a copy of the caller's bytes,
`ReadData` takes bytes from the head chunk on, keeping a cursor in a chunk it did not finish.

* the model of `ListEntry`, `List` (as the queue its operations make of it) and `Transport`;
* `World`, the transport with the streams that went in and out, and the calls on it;
* `FifoStream`, what the transport is for.
-/

namespace Win32Experiments.XSocket

open Foundation

/-! ## `ListEntry` and `List` -/

/-- A chunk: `size` bytes at `data`, the first `index` of them already read. -/
structure ListEntry where
  size : ℕ
  index : ℕ
  data : List UInt8
deriving DecidableEq, Repr

/-- `ListEntry::Attach`. -/
def ListEntry.attach (dataLength : ℕ) (data : List UInt8) : ListEntry :=
  { size := dataLength, index := 0, data }

/-- `ListEntry::CopyTo`: the bytes copied, `bytesCopied`, and the entry afterwards. The copy
is unchecked, so it may run past the chunk. -/
def ListEntry.copyTo (entry : ListEntry) (dataLength : ℕ) :
    List (Option UInt8) × ℕ × ListEntry :=
  let size := min dataLength entry.size
  (readCells entry.data entry.index size, size,
    { entry with index := addW 32 entry.index size })

/-- `ListEntry::DataLeft`. -/
def ListEntry.dataLeft (entry : ListEntry) : ℕ :=
  subW 32 entry.size entry.index

/-- `List::AppendTail`. -/
def appendTail (list : List ListEntry) (entry : ListEntry) : List ListEntry :=
  list ++ [entry]

/-! ## `Transport` -/

/-- The results the transport returns. -/
inductive HResult
  | S_OK
  | E_FAIL
  | E_OUTOFMEMORY
deriving DecidableEq, Repr

/-- `Transport::WriteData`; the flags say whether each of its two allocations succeeds. -/
def writeData (list : List ListEntry) (data : Option (List UInt8))
    (entryAllocated bufferAllocated : Bool) : HResult × List ListEntry :=
  match data with
  | none => (.S_OK, list)
  | some data =>
    if !entryAllocated then (.E_OUTOFMEMORY, list)
    else if !bufferAllocated then (.E_OUTOFMEMORY, list)
    else (.S_OK, appendTail list (ListEntry.attach data.length data))

/-- The locals of the loop of `Transport::ReadData`, with the list it works on. -/
structure ReadState where
  index : ℕ
  list : List ListEntry
  data : List (Option UInt8)
deriving DecidableEq, Repr

/-- One iteration of the loop of `Transport::ReadData`, with `first` at the head. -/
def readStep (dataLength : ℕ) (r : ReadState) (first : ListEntry) (rest : List ListEntry) :
    ReadState :=
  let (bytes, copiedBytes, first) := first.copyTo (dataLength - r.index)
  { index := r.index + copiedBytes
    list := if first.dataLeft = 0 then rest else first :: rest
    data := r.data ++ bytes }

/-- The loop of `Transport::ReadData`, for at most `fuel` tests of its guard. -/
def readLoop (dataLength : ℕ) : ℕ → ReadState → Option ReadState
  | 0, _ => none
  | fuel + 1, r =>
    match r.list with
    | [] => some r
    | first :: rest =>
      if r.index < dataLength then readLoop dataLength fuel (readStep dataLength r first rest)
      else some r

/-- What `Transport::ReadData` returns and leaves behind. -/
structure ReadResult where
  hr : HResult
  outputDataLength : ℕ
  data : List (Option UInt8)
  list : List ListEntry
deriving DecidableEq, Repr

/-- `Transport::ReadData`. Each iteration fills a byte of the caller's buffer or drops an
entry, so `dataLength + list.length + 1` tests of the guard are enough (`readLoop_isSome`). -/
def readData (list : List ListEntry) (dataLength : ℕ) (dataIsNull : Bool) :
    Option ReadResult :=
  if dataIsNull then some ⟨.E_FAIL, 0, [], list⟩
  else
    (readLoop dataLength (dataLength + list.length + 1) ⟨0, list, []⟩).map fun r =>
      ⟨.S_OK, r.index, r.data, r.list⟩

/-! ## Calls on a transport -/

/-- A call on the transport, with a non-null buffer. -/
inductive Call
  | writeData (data : List UInt8) (entryAllocated bufferAllocated : Bool)
  | readData (dataLength : ℕ)
deriving DecidableEq, Repr

/-- One successful `ReadData`: what was asked, what was pending, what was returned. -/
structure ReadRecord where
  dataLength : ℕ
  pending : ℕ
  outputDataLength : ℕ
deriving DecidableEq, Repr

/-- A transport with the bytes accepted by `WriteData` and delivered by `ReadData` so far. -/
structure World where
  list : List ListEntry
  written : List UInt8
  delivered : List (Option UInt8)
  reads : List ReadRecord
deriving DecidableEq, Repr

/-- A new transport. -/
def World.init : World := ⟨[], [], [], []⟩

/-- The calls that callers make: writes of 1 to `2 ^ 32 - 1` bytes, and reads of as many
bytes from a nonempty list. -/
def Call.Allowed (w : World) : Call → Prop
  | .writeData data _ _ => data ≠ [] ∧ data.length < 2 ^ 32
  | .readData dataLength => 0 < dataLength ∧ dataLength < 2 ^ 32 ∧ w.list ≠ []

instance (w : World) (c : Call) : Decidable (c.Allowed w) :=
  match c with
  | .writeData .. => inferInstanceAs (Decidable (_ ∧ _))
  | .readData .. => inferInstanceAs (Decidable (_ ∧ _ ∧ _))

/-- What a call does, when it returns. -/
def World.call (w : World) : Call → Option World
  | .writeData data entryAllocated bufferAllocated =>
    let (hr, list) := XSocket.writeData w.list (some data) entryAllocated bufferAllocated
    some { w with
      list
      written := if hr = .S_OK then w.written ++ data else w.written }
  | .readData dataLength =>
    (XSocket.readData w.list dataLength false).map fun r =>
      { w with
        list := r.list
        delivered := w.delivered ++ r.data
        reads := w.reads ++
          [⟨dataLength, w.written.length - w.delivered.length, r.outputDataLength⟩] }

/-- An allowed call that returns. -/
def World.step (w : World) (c : Call) : Option World :=
  if c.Allowed w then w.call c else none

/-- The bytes in the list that no read has taken. -/
def pending (list : List ListEntry) : List UInt8 :=
  list.flatMap fun entry => entry.data.drop entry.index

/-- The transport is a FIFO byte stream: what was delivered, followed by what is pending, is
what was written; cursors stay in their chunks; no byte was read outside a chunk; and every
read returned as much as it could. -/
structure FifoStream (w : World) : Prop where
  conserved : w.delivered ++ (pending w.list).map some = w.written.map some
  index_le : ∀ entry ∈ w.list, entry.index ≤ entry.size
  inChunk : none ∉ w.delivered
  readLength : ∀ r ∈ w.reads, r.outputDataLength = min r.dataLength r.pending

/-- The condition on a call: a read that starts inside a chunk stays inside that chunk. -/
def StaysInChunk (w : World) : Call → Prop
  | .writeData .. => True
  | .readData dataLength => ∀ first, w.list.head? = some first → 0 < first.index →
      dataLength ≤ first.size - first.index

instance (w : World) (c : Call) : Decidable (StaysInChunk w c) :=
  match c with
  | .writeData .. => isTrue trivial
  | .readData dataLength =>
    match h : w.list.head? with
    | none => isTrue fun first hf => by simp [h] at hf
    | some first =>
      decidable_of_iff (0 < first.index → dataLength ≤ first.size - first.index)
        ⟨fun hd f hf => by rw [h, Option.some.injEq] at hf; exact hf ▸ hd,
          fun hd => hd first h⟩

end Win32Experiments.XSocket
