import Win32Experiments.ClientServerLib.Arrays

/-!
# Clients of one `TypedArray`

The operations of `TypedArray` taken apart: each read or write of the shared count, each access
to the elements and each `Lock` or `Unlock` is a step, and the steps of any number of clients
interleave.
-/

namespace Win32Experiments.ClientServerLib

/-- The operations of a `TypedArray`; `x` is what the constructor leaves in the element. -/
inductive TypedCall (α : Type*)
  | add (x : α) (throws : Bool)
  | clear
  | subscript (index : ℤ)
deriving DecidableEq, Repr

/-- What a client does next. -/
inductive Phase (α : Type*)
  | idle
  -- `Add`
  | addTest (x : α) (throws : Bool)
  | addLock (x : α) (throws : Bool)
  | addRead (x : α) (throws : Bool)
  | addConstruct (x : α) (throws : Bool) (slot : ℤ)
  | addLoad (x : α) (slot : ℤ)
  | addStore (x : α) (slot value : ℤ)
  | addPrint
  | addUnlock
  -- `Clear`
  | clearTest
  | clearLock
  | clearZero
  | clearStore
  | clearUnlock
  -- `operator[]`
  | atLock (index : ℤ)
  | atTest (index : ℤ)
  | atUnlock (found : Bool)
deriving DecidableEq, Repr

/-- The first step of an operation. -/
def TypedCall.start {α : Type*} : TypedCall α → Phase α
  | .add x throws => .addTest x throws
  | .clear => .clearTest
  | .subscript index => .atLock index

/-- The mapping and the clients; and the record of the run: the slots at which `Add` has
constructed, and the slots and elements of the additions since the last `Clear`. -/
structure Clients (α : Type*) where
  shared : TypedArray α
  phase : ℕ → Phase α
  writes : List ℤ
  added : List (ℤ × α)

/-- A client calls an operation, or goes on with the one it is in. -/
inductive Move (α : Type*)
  | call (c : TypedCall α)
  | next
deriving DecidableEq, Repr

section

variable {α : Type*} (zero : α) (s : Clients α) (client : ℕ)

/-- A mapping behind its creation. -/
def Clients.init : Clients α :=
  { shared := ⟨[], 0, fun _ => zero⟩, phase := fun _ => .idle, writes := [], added := [] }

/-- The client goes on to `p`. -/
def Clients.goto (p : Phase α) : Clients α :=
  { s with phase := Function.update s.phase client p }

/-- `Lock`, when the mutex is free for the client. -/
def Clients.lock (p : Phase α) : Option (Clients α) :=
  (s.shared.mutex.lock client).map fun mutex =>
    { s with shared := { s.shared with mutex } }.goto client p

/-- `Unlock`. -/
def Clients.unlock : Clients α :=
  { s with shared := { s.shared with mutex := s.shared.mutex.unlock client } }.goto client .idle

/-- The step of a client in the phase. -/
def Clients.advance : Phase α → Option (Clients α)
  | .idle => none
  | .addTest x throws =>
    if maxElements ≤ s.shared.currentCount then some (s.goto client .idle)
    else some (s.goto client (.addLock x throws))
  | .addLock x throws => s.lock client (.addRead x throws)
  | .addRead x throws => some (s.goto client (.addConstruct x throws s.shared.currentCount))
  | .addConstruct x throws slot =>
    let s := { s with
      shared := { s.shared with array := Function.update s.shared.array slot x }
      writes := s.writes ++ [slot] }
    -- the exception leaves `Add` with the mutex locked
    if throws then some (s.goto client .idle) else some (s.goto client (.addLoad x slot))
  | .addLoad x slot => some (s.goto client (.addStore x slot s.shared.currentCount))
  | .addStore x slot value =>
    some ({ s with
      shared := { s.shared with currentCount := value + 1 }
      added := s.added ++ [(slot, x)] }.goto client .addPrint)
  | .addPrint => some (s.goto client .addUnlock)
  | .addUnlock => some (s.unlock client)
  | .clearTest =>
    if 0 < s.shared.currentCount then some (s.goto client .clearLock)
    else some (s.goto client .idle)
  | .clearLock => s.lock client .clearZero
  | .clearZero =>
    some ({ s with
      shared := { s.shared with
        array := fun i => if i ∈ indices then zero else s.shared.array i }
      added := [] }.goto client .clearStore)
  | .clearStore =>
    some ({ s with shared := { s.shared with currentCount := 0 } }.goto client .clearUnlock)
  | .clearUnlock => some (s.unlock client)
  | .atLock index => s.lock client (.atTest index)
  | .atTest index =>
    let found := ¬ (maxElements ≤ index ∨ s.shared.currentCount ≤ index)
    some (s.goto client (.atUnlock found))
  | .atUnlock _ => some (s.unlock client)

/-- A step of the system: an idle client calls an operation, or a client goes on. -/
def Clients.step (s : Clients α) : ℕ × Move α → Option (Clients α)
  | (client, .call c) =>
    match s.phase client with
    | .idle => some (s.goto client c.start)
    | _ => none
  | (client, .next) => s.advance zero client (s.phase client)

end

end Win32Experiments.ClientServerLib
