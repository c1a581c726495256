import Mathlib.Data.Int.Basic
import Mathlib.Logic.Function.Basic
import Win32Experiments.ClientServerLib.Construction

/-!
# `IntArray` and `TypedArray`

The operations of the two shared arrays, each as a whole: what it does to the mapping, how it
ends, and which elements it touches. An array is the memory around `m_array`, so that an index
outside the array has a cell too. An operation that waits for the mutex does not end.
-/

namespace Win32Experiments.ClientServerLib

/-- `m_maxElements`, which both constructors set to 10. -/
def maxElements : ℤ := 10

/-- The mapping of an `IntArray`. -/
structure IntArray where
  mutex : Mutex
  array : ℤ → ℤ

/-- The mapping of a `TypedArray`. -/
structure TypedArray (α : Type*) where
  mutex : Mutex
  currentCount : ℤ
  array : ℤ → α

/-- How an operation ends; `pointer` is an element handed out. -/
inductive Outcome
  | returned
  | value (n : ℤ)
  | pointer (index : ℤ)
  | threw (what : String)
deriving DecidableEq, Repr

/-- An operation that has ended: the mapping behind it, and the indices of the elements it has
read, written or handed out. -/
structure Ended (σ : Type*) where
  mapping : σ
  outcome : Outcome
  touched : List ℤ

/-- `throw std::runtime_error("Out of range")`, where nothing has been done. -/
def outOfRange {σ : Type*} (mapping : σ) : Ended σ :=
  ⟨mapping, .threw "Out of range", []⟩

section

variable (a : IntArray) (client : ℕ) (index : ℤ)

/-- `IntArray::SetAt`. -/
def IntArray.setAt (value : ℤ) : Option (Ended IntArray) :=
  if maxElements ≤ index then some (outOfRange a)
  else (a.mutex.lock client).map fun mutex =>
    ⟨{ mutex := mutex.unlock client, array := Function.update a.array index value },
      .returned, [index]⟩

/-- `IntArray::operator[]`; its `Unlock` stands behind the `return`. -/
def IntArray.subscript : Option (Ended IntArray) :=
  if maxElements ≤ index then some (outOfRange a)
  else (a.mutex.lock client).map fun mutex =>
    ⟨{ a with mutex }, .value (a.array index), [index]⟩

end

section

variable {α : Type*} (a : TypedArray α) (client : ℕ)

/-- `TypedArray::operator[]`. -/
def TypedArray.subscript (index : ℤ) : Option (Ended (TypedArray α)) :=
  (a.mutex.lock client).map fun mutex =>
    if maxElements ≤ index ∨ a.currentCount ≤ index then
      outOfRange { a with mutex := mutex.unlock client }
    else ⟨{ a with mutex := mutex.unlock client }, .pointer index, [index]⟩

/-- `TypedArray::Add`. The element is constructed in place: `x` is what the constructor leaves
there, also when it throws. -/
def TypedArray.add (x : α) (throws : Option String) : Option (Ended (TypedArray α)) :=
  if maxElements ≤ a.currentCount then some (outOfRange a)
  else (a.mutex.lock client).map fun mutex =>
    let array := Function.update a.array a.currentCount x
    match throws with
    | some what => ⟨{ a with mutex, array }, .threw what, [a.currentCount]⟩
    | none =>
      ⟨{ mutex := mutex.unlock client, currentCount := a.currentCount + 1, array },
        .returned, [a.currentCount]⟩

/-- The indices of the elements. -/
def indices : List ℤ := (List.range maxElements.toNat).map Int.ofNat

/-- `TypedArray::Clear`; `zero` is an element of zero bytes. -/
def TypedArray.clear (zero : α) : Option (Ended (TypedArray α)) :=
  if 0 < a.currentCount then
    (a.mutex.lock client).map fun mutex =>
      ⟨{ mutex := mutex.unlock client, currentCount := 0
         array := fun i => if i ∈ indices then zero else a.array i },
        .returned, indices⟩
  else some ⟨a, .returned, []⟩

end

/-! ## Sequences of operations -/

/-- An operation on one of the arrays. -/
inductive Call (α : Type*)
  | setAt (index value : ℤ)
  | intAt (index : ℤ)
  | typedAt (index : ℤ)
  | add (x : α) (throws : Option String)
  | clear
deriving DecidableEq, Repr

/-- An operation that has ended, with the mutex of its mapping before and behind it. -/
structure Record where
  client : ℕ
  outcome : Outcome
  before : Mutex
  after : Mutex
  touched : List ℤ
deriving DecidableEq, Repr

/-- An `IntArray` and a `TypedArray`, and the operations on them so far. -/
structure World (α : Type*) where
  ints : IntArray
  typed : TypedArray α
  log : List Record

section

variable {α : Type*} (zero : α) (w : World α) (client : ℕ)

/-- The `IntArray` behind an operation. -/
def World.endInts (e : Ended IntArray) : World α :=
  { w with
    ints := e.mapping
    log := w.log ++ [⟨client, e.outcome, w.ints.mutex, e.mapping.mutex, e.touched⟩] }

/-- The `TypedArray` behind an operation. -/
def World.endTyped (e : Ended (TypedArray α)) : World α :=
  { w with
    typed := e.mapping
    log := w.log ++ [⟨client, e.outcome, w.typed.mutex, e.mapping.mutex, e.touched⟩] }

/-- A client calls an operation, which ends. -/
def World.step (w : World α) : ℕ × Call α → Option (World α)
  | (client, .setAt index value) => (w.ints.setAt client index value).map (w.endInts client)
  | (client, .intAt index) => (w.ints.subscript client index).map (w.endInts client)
  | (client, .typedAt index) => (w.typed.subscript client index).map (w.endTyped client)
  | (client, .add x throws) => (w.typed.add client x throws).map (w.endTyped client)
  | (client, .clear) => (w.typed.clear client zero).map (w.endTyped client)

end

end Win32Experiments.ClientServerLib
