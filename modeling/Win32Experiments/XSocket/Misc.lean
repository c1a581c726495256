import Win32Experiments.Foundation.Memory
import Win32Experiments.Foundation.Run

/-!
# The `misc` rewrite of `Transport`

The same transport with entries that check their bounds: `WriteData` appends a copy of the
caller's bytes, `ReadData` copies from the head entry until the buffer is full or the list is
empty. `List` is the queue that its operations make of it.

A cell of the caller's buffer is `none` until the call writes it.
-/

namespace Win32Experiments.XSocket.Misc

open Foundation

/-- `ListEntry`: the bytes, the first `index` of them already read. -/
structure ListEntry where
  data : List UInt8
  index : ℕ
deriving DecidableEq, Repr

/-- `ListEntry::Attach`. -/
def ListEntry.attach (data : List UInt8) : ListEntry := { data, index := 0 }

/-- `ListEntry::Empty`. -/
def ListEntry.empty (entry : ListEntry) : Bool := entry.data.length ≤ entry.index

/-- `ListEntry::Remaining`. -/
def ListEntry.remaining (entry : ListEntry) : ℕ := entry.data.length - entry.index

/-- `ListEntry::CopyTo` with a span: the number of bytes copied, the span and the entry. -/
def ListEntry.copyTo (entry : ListEntry) (out : List (Option UInt8)) :
    ℕ × List (Option UInt8) × ListEntry :=
  if entry.data.length ≤ entry.index then (0, out, entry)
  else
    let numberToCopy := min (entry.data.length - entry.index) out.length
    (numberToCopy, store out 0 ((window entry.data entry.index numberToCopy).map some),
      { entry with index := entry.index + numberToCopy })

/-- `Transport::WriteData`. -/
def writeData (list : List ListEntry) (data : List UInt8) : List ListEntry :=
  if data = [] then list else list ++ [.attach data]

/-- The local of `Transport::ReadData`, with the list and the caller's buffer. -/
structure ReadState where
  totalRead : ℕ
  list : List ListEntry
  buffer : List (Option UInt8)
deriving DecidableEq, Repr

/-- One iteration of the loop, with `first` at the head: each copy goes to the start of the
buffer. -/
def readStep (r : ReadState) (first : ListEntry) (rest : List ListEntry) : ReadState :=
  let (copied, buffer, first) := first.copyTo r.buffer
  { totalRead := r.totalRead + copied
    list := if first.empty then rest else first :: rest
    buffer }

/-- The loop of `Transport::ReadData`, for at most `fuel` tests of its guard. -/
def readLoop : ℕ → ReadState → Option ReadState
  | 0, _ => none
  | fuel + 1, r =>
    if r.totalRead < r.buffer.length then
      match r.list with
      | [] => some r
      | first :: rest => readLoop fuel (readStep r first rest)
    else some r

/-- `Transport::ReadData` with a buffer of `size` bytes. Each iteration drops an entry or fills
the buffer, so `list.length + 2` tests of the guard are enough (`readLoop_isSome`). -/
def readData (list : List ListEntry) (size : ℕ) : Option ReadState :=
  readLoop (list.length + 2) ⟨0, list, List.replicate size none⟩

/-! ## Calls on a transport -/

/-- A call on the transport. -/
inductive Call
  | writeData (data : List UInt8)
  | readData (size : ℕ)
deriving DecidableEq, Repr

/-- A `ReadData` that has returned: the buffer and the count. -/
structure ReadRecord where
  totalRead : ℕ
  buffer : List (Option UInt8)
deriving DecidableEq, Repr

/-- A transport, with the bytes written to it and the reads so far. -/
structure World where
  list : List ListEntry
  written : List UInt8
  reads : List ReadRecord
deriving DecidableEq, Repr

/-- A new transport. -/
def World.init : World := { list := [], written := [], reads := [] }

/-- A call, when it returns. -/
def World.step (w : World) : Call → Option World
  | .writeData data =>
    some { w with list := Misc.writeData w.list data, written := w.written ++ data }
  | .readData size =>
    (Misc.readData w.list size).map fun r =>
      { w with list := r.list, reads := w.reads ++ [⟨r.totalRead, r.buffer⟩] }

/-- What the reads reported as read. -/
def World.delivered (w : World) : List (Option UInt8) :=
  w.reads.flatMap fun r => r.buffer.take r.totalRead

/-- The bytes that no read has taken. -/
def pending (list : List ListEntry) : List UInt8 :=
  list.flatMap fun entry => entry.data.drop entry.index

/-- The transport is a FIFO byte stream: the counts stay within the buffers, and what the reads
delivered, followed by what is pending, is what was written. -/
structure FifoStream (w : World) : Prop where
  bounded : ∀ r ∈ w.reads, r.totalRead ≤ r.buffer.length
  conserved : w.delivered ++ (pending w.list).map some = w.written.map some

/-- The read is served by one entry: there is at most one, or the first has enough. -/
def OneEntry (w : World) : Call → Prop
  | .writeData _ => True
  | .readData size => w.list.length ≤ 1 ∨ ∀ first ∈ w.list.head?, size ≤ first.remaining

instance (w : World) : ∀ c : Call, Decidable (OneEntry w c)
  | .writeData _ => isTrue trivial
  | .readData size => inferInstanceAs
    (Decidable (w.list.length ≤ 1 ∨ ∀ first ∈ w.list.head?, size ≤ first.remaining))

end Win32Experiments.XSocket.Misc
