import Win32Experiments.Foundation.Word
import Win32Experiments.NamedPipe

/-!
# Messages with a header

`WriteWithHeader` builds the header and the payload in one vector and writes it as a message;
`ReadWithHeader` reads a message and strips the header. `PipeMessages` and `PipeLib` have the
same code.
-/

namespace Win32Experiments.PipeMessages

open Foundation NamedPipe

/-- `BufferSize`. -/
def bufferSize : ℕ := 1024

/-- `sizeof(Header)`. -/
def sizeofHeader : ℕ := 8

/-- `MessageType`; `unnamed` is a value of the underlying type that has no enumerator. -/
inductive MessageType
  | Unset
  | TypeA
  | TypeB
  | unnamed (value : ℕ)
deriving DecidableEq, Repr

/-- `Subtype`. -/
inductive MessageSubtype
  | Unset
  | TypeA
  | TypeB
  | unnamed (value : ℕ)
deriving DecidableEq, Repr

def MessageType.toWord : MessageType → ℕ
  | .Unset => 0
  | .TypeA => 1
  | .TypeB => 2
  | .unnamed value => value

def MessageType.ofWord : ℕ → MessageType
  | 0 => .Unset
  | 1 => .TypeA
  | 2 => .TypeB
  | value => .unnamed value

def MessageSubtype.toWord : MessageSubtype → ℕ
  | .Unset => 0
  | .TypeA => 1
  | .TypeB => 2
  | .unnamed value => value

def MessageSubtype.ofWord : ℕ → MessageSubtype
  | 0 => .Unset
  | 1 => .TypeA
  | 2 => .TypeB
  | value => .unnamed value

/-- `Header`. -/
structure Header where
  type : MessageType := .Unset
  subtype : MessageSubtype := .Unset
deriving DecidableEq, Repr

/-- The header in memory. -/
def Header.bytes (header : Header) : List UInt8 :=
  leBytes 4 header.type.toWord ++ leBytes 4 header.subtype.toWord

/-- `*reinterpret_cast<Header*>(data.data())`. -/
def Header.ofBytes (data : List UInt8) : Header :=
  { type := .ofWord (leValue (window data 0 4)), subtype := .ofWord (leValue (window data 4 4)) }

/-! ## Writing -/

/-- The header that `WriteWithHeader` writes. -/
def header : Header := { type := .TypeB, subtype := .TypeA }

/-- The vector that `WriteWithHeader` builds: the header is constructed at the front of a vector
for header and payload, and the payload inserted behind it. -/
def dataWithHeader (data : List UInt8) : List UInt8 :=
  let vector := store (List.replicate (sizeofHeader + data.length) 0) 0 header.bytes
  vector.take sizeofHeader ++ data ++ vector.drop sizeofHeader

/-- `WritePipe`. The length is cast to a `DWORD`. -/
def writePipe (error : Option ℕ) (pipe : Pipe) (data : List UInt8) : Except Win32Error Pipe :=
  match error with
  | some lastError => .error ⟨lastError, "WriteFile() failed."⟩
  | none => .ok (pipe ++ [data.take (data.length % 2 ^ 32)])

/-- `WriteWithHeader`. -/
def writeWithHeader (error : Option ℕ) (pipe : Pipe) (data : List UInt8) :
    Except Win32Error Pipe :=
  writePipe error pipe (dataWithHeader data)

/-! ## Reading -/

/-- `ReadPipe`. The count is a `DWORD`. -/
def readPipe (pipe : Pipe) : Option ReadPipeReturn :=
  NamedPipe.readPipe (addW 32) bufferSize (fun _ => readFile none) pipe

/-- What `ReadWithHeader` makes of the message. -/
def splitHeader (data : List UInt8) : Header × List UInt8 :=
  if data.length < sizeofHeader then ({}, [])
  else (Header.ofBytes data, data.drop sizeofHeader)

/-- How `ReadWithHeader` ends. -/
structure ReadWithHeaderReturn where
  outcome : Except Win32Error (Header × List UInt8)
  pipe : Pipe
  ranges : List Range

/-- `ReadWithHeader`. -/
def readWithHeader (pipe : Pipe) : Option ReadWithHeaderReturn :=
  (readPipe pipe).map fun returned =>
    ⟨returned.outcome.map splitHeader, returned.pipe, returned.ranges⟩

/-! ## Sequences of calls -/

/-- A `WriteWithHeader` for each payload, none of which fails. -/
def writeAll (pipe : Pipe) : List (List UInt8) → Except Win32Error Pipe
  | [] => .ok pipe
  | payload :: payloads => do
    let pipe ← writeWithHeader none pipe payload
    writeAll pipe payloads

/-- What `n` calls of `ReadWithHeader` return, and the ranges that they give to `ReadFile`. -/
def readAll : ℕ → Pipe → Option (List (Except Win32Error (Header × List UInt8)) × List Range)
  | 0, _ => some ([], [])
  | n + 1, pipe => do
    let returned ← readWithHeader pipe
    let (outcomes, ranges) ← readAll n returned.pipe
    some (returned.outcome :: outcomes, returned.ranges ++ ranges)

end Win32Experiments.PipeMessages
