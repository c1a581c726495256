import Win32Experiments.Foundation.Memory
import Win32Experiments.Foundation.MessagePipe

/-!
# Reading a message from a named pipe

The pipes are opened in message mode. `PipeMessages`, `PipeLib` and the two sides of
`SmallPipes` read a message by the same loop: a `ReadFile` behind what was read before, and on
`ERROR_MORE_DATA` a longer vector and the next `ReadFile`. They differ in the `ReadFile` that
they make and in the type of the count.
-/

namespace Win32Experiments.NamedPipe

open Foundation

/-- The messages written to the pipe and not yet read. -/
abbrev Pipe := List (List UInt8)

/-- `ERROR_MORE_DATA`. -/
def errorMoreData : ℕ := 234

/-- `ERROR_IO_PENDING`. -/
def errorIoPending : ℕ := 997

/-- `Win32Error`. -/
structure Win32Error where
  errorCode : ℕ
  msg : String
deriving DecidableEq, Repr

/-- A `ReadFile`: what the call returns, what `GetLastError` says behind it, the bytes that the
operation has written and counted when it is over, and the pipe. -/
structure ReadFileResult where
  success : Bool
  lastError : ℕ
  bytes : List UInt8
  pipe : Pipe
deriving DecidableEq, Repr

/-- An error of an operation that has read nothing: part of a message is not an error. -/
structure ReadError where
  code : ℕ
  ne_moreData : code ≠ errorMoreData
deriving DecidableEq, Repr

/-- How an operation ends: whether it fails, and with which error; and whether the call that
started it returns before. -/
structure Completion where
  error : Option ReadError
  pending : Bool
deriving DecidableEq, Repr

/-- A `ReadFile` without an `OVERLAPPED`. It waits for a message. -/
def readFile (error : Option ReadError) (pipe : Pipe) (n : ℕ) : Option ReadFileResult :=
  match error with
  | some lastError => some ⟨false, lastError.code, [], pipe⟩
  | none => (readMessage pipe n).map fun read =>
    ⟨read.complete, if read.complete then 0 else errorMoreData, read.cells, read.pipe⟩

/-- A `ReadFile` with an `OVERLAPPED`, and the wait for its event. The call of a pending
operation has failed with `ERROR_IO_PENDING`, however the operation ends. -/
def readFileOverlapped (completion : Completion) (pipe : Pipe) (n : ℕ) : Option ReadFileResult :=
  (readFile completion.error pipe n).map fun result =>
    if completion.pending then { result with success := false, lastError := errorIoPending }
    else result

/-- The range a `ReadFile` is given, and the size of the vector it lies in. -/
structure Range where
  offset : ℕ
  length : ℕ
  size : ℕ
deriving DecidableEq, Repr

/-- The range lies in the vector. -/
def Range.Inside (range : Range) : Prop := range.offset + range.length ≤ range.size

instance (range : Range) : Decidable range.Inside :=
  inferInstanceAs (Decidable (_ ≤ _))

/-- `resize`, which zero-fills what it adds. -/
def resize (buffer : List UInt8) (size : ℕ) : List UInt8 :=
  buffer.take size ++ List.replicate (size - buffer.length) 0

/-- The locals of `ReadPipe`, the pipe, and the ranges given to `ReadFile`. -/
structure Reading where
  returnBuffer : List UInt8
  totalBytesRead : ℕ
  pipe : Pipe
  ranges : List Range
deriving DecidableEq, Repr

/-- `returnBuffer{ bytesToRead }`. -/
def Reading.start (bytesToRead : ℕ) (pipe : Pipe) : Reading :=
  { returnBuffer := List.replicate bytesToRead 0, totalBytesRead := 0, pipe, ranges := [] }

/-- How `ReadPipe` ends. -/
structure ReadPipeReturn where
  outcome : Except Win32Error (List UInt8)
  pipe : Pipe
  ranges : List Range

section

variable (add : ℕ → ℕ → ℕ) (bytesToRead : ℕ)

/-- The bytes of a `ReadFile` are in the vector and counted. -/
def Reading.received (r : Reading) (result : ReadFileResult) : Reading :=
  { returnBuffer := store r.returnBuffer r.totalBytesRead result.bytes
    totalBytesRead := add r.totalBytesRead result.bytes.length
    pipe := result.pipe
    ranges := r.ranges ++ [⟨r.totalBytesRead, bytesToRead, r.returnBuffer.length⟩] }

/-- `returnBuffer.resize(returnBuffer.size() + bytesToRead)`. -/
def Reading.grow (r : Reading) : Reading :=
  { r with returnBuffer := resize r.returnBuffer (r.returnBuffer.length + bytesToRead) }

/-- The loop of `ReadPipe`, with the `ReadFile` that its `k`th turn makes; at most `fuel` turns.
The count is added up by `add`. -/
def readPipeLoop (readFile : ℕ → Pipe → ℕ → Option ReadFileResult) :
    ℕ → Reading → Option ReadPipeReturn
  | 0, _ => none
  | fuel + 1, r =>
    (readFile r.ranges.length r.pipe bytesToRead).bind fun result =>
      let r := r.received add bytesToRead result
      if result.success then
        some ⟨.ok (resize r.returnBuffer r.totalBytesRead), r.pipe, r.ranges⟩
      else if result.lastError ≠ errorMoreData then
        some ⟨.error ⟨result.lastError, "ReadFile() failed."⟩, r.pipe, r.ranges⟩
      else readPipeLoop readFile fuel (r.grow bytesToRead)

/-- `ReadPipe`. Each turn that is not the last takes a byte of the message or more. -/
def readPipe (readFile : ℕ → Pipe → ℕ → Option ReadFileResult) (pipe : Pipe) :
    Option ReadPipeReturn :=
  readPipeLoop add bytesToRead readFile ((pipe.headD []).length + 1) (.start bytesToRead pipe)

end

end Win32Experiments.NamedPipe
