import Win32Experiments.EventLog.ParameterStrings
import Win32Experiments.Foundation.Buffers

/-!
# The messages of the event records

`DumpRecordsInBuffer` formats the message of a record, lets `ApplyParameterStringsToMessage` put in
the parameter strings, and frees what it was given by both. The environment says which allocations
succeed and what `FormatMessage` finds. The functions yield the trace of what they do with their
buffers; a trace that ends early has come to a null pointer.
-/

namespace Win32Experiments.EventLog

open Foundation

/-- The buffers of a record. -/
inductive Buffer
  | category
  | args
  | message
  | startingAddresses
  | endingAddresses
  | parameters
  | parameterIDs
  | parameter (i : ℕ)
  | finalMessage
deriving DecidableEq, Repr

/-- `FormatMessage` allocates by `LocalAlloc`, which goes with `LocalFree`; `malloc` goes with
`free`. -/
inductive Allocator
  | localAlloc
  | malloc
deriving DecidableEq, Repr

/-- What happens to a buffer of a record. -/
abbrev Event := MemoryEvent Buffer Allocator

/-- Whether the `malloc` of a buffer succeeds, and the string that `FormatMessage` finds for an
identifier and puts into a buffer of its own, if it finds one. -/
structure Environment where
  malloc : Buffer → Bool
  formatMessage : Buffer → ℕ → Option WString

def ERROR_SUCCESS : ℕ := 0
def ERROR_OUTOFMEMORY : ℕ := 14
def ERROR_INVALID_PARAMETER : ℕ := 87

section

variable (env : Environment)

/-- `GetMessageString`: what it does, and the string that it returns in the buffer, or null. -/
def getMessageString (buffer : Buffer) (messageId argc : ℕ) : List Event × Option WString :=
  let pArgs := 0 < argc && env.malloc .args
  let pMessage := env.formatMessage buffer messageId
  ((if pArgs then [.alloc .args .malloc, .read .args] else []) ++
    (if pMessage.isSome then [.alloc buffer .localAlloc] else []) ++
    (if pArgs then [.free .args .malloc] else []), pMessage)

/-! ## `ApplyParameterStringsToMessage` -/

/-- `pFinalMessage`: null, the message that was given, or a message built in a buffer. -/
inductive FinalMessage
  | null
  | given
  | built (text : List UInt16)
deriving DecidableEq, Repr

/-- The locals: the arrays that are not null, the entries of `pParameters` that are not, and what
has happened so far. -/
structure Locals where
  status : ℕ
  dwParameterCount : ℕ
  arrays : List Buffer
  pParameters : List WString
  pFinalMessage : FinalMessage
  trace : List Event

/-- More has happened. -/
def Locals.log (l : Locals) (events : List Event) : Locals := { l with trace := l.trace ++ events }

/-- What the function has done, and its results unless it has come to a null pointer. -/
structure Applied where
  trace : List Event
  result : Option (ℕ × FinalMessage)

/-- The allocation of the arrays, up to the first that fails. -/
def allocateArrays (l : Locals) : List Buffer → Locals
  | [] => l
  | array :: arrays =>
    if env.malloc array then
      allocateArrays ({ l with arrays := l.arrays ++ [array] }.log [.alloc array .malloc]) arrays
    else { l with status := ERROR_OUTOFMEMORY }

/-- The lookup of the parameter strings, up to the first that fails; `wcslen` reads each. -/
def lookupParameters (l : Locals) : List Placeholder → Locals
  | [] => l
  | entry :: entries =>
    let i := l.pParameters.length
    let (events, string) := getMessageString env (.parameter i) entry.parameterID 0
    let l := (l.log [.read .parameterIDs]).log events
    match string with
    | none => { l with status := ERROR_INVALID_PARAMETER }
    | some parameter =>
      let l := { l with pParameters := l.pParameters ++ [parameter] }
      lookupParameters (l.log [.read (.parameter i)]) entries

/-- What the copies for the `i`th parameter string read. -/
def copyReads (i : ℕ) : List Event :=
  [.read .startingAddresses, .read .message, .read .endingAddresses, .read .parameters,
    .read (.parameter i)]

/-- The release of a parameter string, unless its entry is null. -/
def Locals.freeParameter (l : Locals) (i : ℕ) : List Event :=
  .read .parameters :: if i < l.pParameters.length then [.free (.parameter i) .localAlloc] else []

/-- The release of an array, unless it is null. -/
def Locals.freeArray (l : Locals) (array : Buffer) : List Event :=
  if array ∈ l.arrays then [.free array .malloc] else []

/-- `cleanup`: the loop over `pParameters` does not ask whether this is null. -/
def Locals.cleanup (l : Locals) : Applied :=
  let pFinalMessage := if l.status ≠ ERROR_SUCCESS then .given else l.pFinalMessage
  let trace := l.trace ++ l.freeArray .startingAddresses ++ l.freeArray .endingAddresses ++
    l.freeArray .parameterIDs
  if 0 < l.dwParameterCount ∧ .parameters ∉ l.arrays then ⟨trace, none⟩
  else
    ⟨trace ++ (List.range l.dwParameterCount).flatMap l.freeParameter,
      some (l.status, pFinalMessage)⟩

/-- The part behind the lookups: the final message is allocated and filled. -/
def buildFinalMessage (pMessage : WString) (entries : List Placeholder) (l : Locals) :
    Option Applied :=
  let l := l.log [.read .message]
  if env.malloc .finalMessage then do
    let l := l.log [.alloc .finalMessage .malloc]
    let text ← fillFinalMessage pMessage.text entries l.pParameters
    let l := (l.log ((List.range l.dwParameterCount).flatMap copyReads)).log [.read .message]
    some { l with pFinalMessage := .built text }.cleanup
  else some { l with status := ERROR_OUTOFMEMORY }.cleanup

/-- `ApplyParameterStringsToMessage`; `none` when a pass leaves the message, the arrays or the
buffer. -/
def applyParameterStringsToMessage (pMessage : WString) : Option Applied := do
  let dwParameterCount ← countParameters pMessage.text
  let l : Locals := ⟨ERROR_SUCCESS, dwParameterCount, [], [], .null, [.read .message]⟩
  if dwParameterCount = 0 then some l.cleanup else
  let l := allocateArrays env l
    [.startingAddresses, .endingAddresses, .parameters, .parameterIDs]
  if l.status ≠ ERROR_SUCCESS then some l.cleanup else do
  let entries ← locateParameters pMessage.text dwParameterCount
  let l := lookupParameters env (l.log [.read .message]) entries
  if l.status ≠ ERROR_SUCCESS then some l.cleanup else
  buildFinalMessage env pMessage entries l

end

/-! ## `DumpRecordsInBuffer` -/

/-- A record of the buffer: whether its source is `PROVIDER_NAME`, and what its messages are
formatted from, in an environment of its own. -/
structure Record where
  ofProvider : Bool
  eventCategory : ℕ
  eventID : ℕ
  numStrings : ℕ
  env : Environment

/-- What is done for a record; `crashed` when it has come to a null pointer. -/
structure Dumped where
  trace : List Event
  crashed : Bool

/-- The message is printed and freed by `LocalFree`; the final one is freed by `free`. -/
def releaseMessages : FinalMessage → List Event
  | .null => [.read .message, .free .message .localAlloc]
  | .given => [.read .message, .free .message .localAlloc, .free .message .malloc]
  | .built _ => [.read .finalMessage, .free .message .localAlloc, .free .finalMessage .malloc]

/-- The event category of a record. -/
def dumpCategory (record : Record) : List Event :=
  let (events, pMessage) := getMessageString record.env .category record.eventCategory 0
  events ++ if pMessage.isSome then [.read .category, .free .category .localAlloc] else []

/-- The event message of a record. -/
def dumpMessage (record : Record) : Option Dumped :=
  let (events, pMessage) := getMessageString record.env .message record.eventID record.numStrings
  match pMessage with
  | none => some ⟨events, false⟩
  | some pMessage => do
    let applied ← applyParameterStringsToMessage record.env pMessage
    match applied.result with
    | none => some ⟨events ++ applied.trace, true⟩
    | some (_, pFinalMessage) =>
      some ⟨events ++ applied.trace ++ releaseMessages pFinalMessage, false⟩

/-- The body of the loop over the records. -/
def dumpRecord (record : Record) : Option Dumped :=
  if record.ofProvider then
    (dumpMessage record).map fun dumped =>
      { dumped with trace := dumpCategory record ++ dumped.trace }
  else some ⟨[], false⟩

/-- `DumpRecordsInBuffer`, from the `k`th record on: the buffers of a record carry its number. -/
def dumpRecords : ℕ → List Record → Option (List (MemoryEvent (ℕ × Buffer) Allocator))
  | _, [] => some []
  | k, record :: records => do
    let dumped ← dumpRecord record
    let trace := dumped.trace.map (.tag k)
    if dumped.crashed then some trace else
    (dumpRecords (k + 1) records).map (trace ++ ·)

/-- `DumpRecordsInBuffer`; `none` when a pass leaves a message, its arrays or a buffer. -/
def dumpRecordsInBuffer (records : List Record) :
    Option (List (MemoryEvent (ℕ × Buffer) Allocator)) := dumpRecords 0 records

end Win32Experiments.EventLog
