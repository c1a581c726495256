import Mathlib.Logic.Function.Basic
import Win32Experiments.Foundation.Handles
import Win32Experiments.Foundation.Run

/-!
# `FileSystemLock`

Any number of lock objects on one path, in any number of processes. The file system is one
name: `CREATE_NEW` opens it only while it is absent, and the close of the handle that was
opened with delete-on-close removes it. A step is one operation of one object, with what the
system answers to its `CreateFileW`.
-/

namespace Win32Experiments.FileLockMutex

open Foundation

/-- A lock object: its handle is a `HandleUniquePtr`. -/
structure FileSystemLock where
  fileHandle : Option ℕ
deriving DecidableEq, Repr

/-- `IsLocked`. -/
def FileSystemLock.isLocked (lock : FileSystemLock) : Bool := lock.fileHandle.isSome

/-- `Win32Error`. -/
structure Win32Error where
  code : ℕ
  message : String
deriving DecidableEq, Repr

/-- What the system answers to a `CreateFileW` when the name is absent. -/
inductive Answer
  | opened
  | refused (lastError : ℕ)
deriving DecidableEq, Repr

/-- `ERROR_FILE_EXISTS`. -/
def errorFileExists : ℕ := 80

/-- A call of `lock`: whether it threw, and `IsLocked` behind it. -/
structure LockCall where
  threw : Bool
  isLocked : Bool
deriving DecidableEq, Repr

/-- A call of `try_lock`: what it returned, and `IsLocked` behind it. -/
structure TryLockCall where
  returned : Bool
  isLocked : Bool
deriving DecidableEq, Repr

/-- The lock objects by their addresses, the handle that holds the name if it exists, the
handles, and the calls of `lock` and `try_lock` so far. -/
structure System where
  objects : ℕ → Option FileSystemLock
  file : Option ℕ
  handles : Handles
  lockCalls : List LockCall
  tryLockCalls : List TryLockCall

/-- No object, and no file. -/
def System.start : System :=
  { objects := fun _ => none, file := none, handles := .empty, lockCalls := []
    tryLockCalls := [] }

/-- The operations on the object at `this`. -/
inductive Operation
  | construct (this : ℕ)
  | constructWith (this : ℕ) (acquire : Bool) (answer : Answer)
  | moveConstruct (this other : ℕ)
  | moveAssign (this other : ℕ)
  | lock (this : ℕ) (answer : Answer)
  | tryLock (this : ℕ) (answer : Answer)
  | unlock (this : ℕ)
  | destroy (this : ℕ)
deriving DecidableEq, Repr

namespace System

variable (s : System)

/-- The handle of the object at an address. -/
def handle (this : ℕ) : Option ℕ := (s.objects this).bind FileSystemLock.fileHandle

/-- There is an object at the address, and it is locked. -/
def isLocked (this : ℕ) : Bool := (s.objects this).any FileSystemLock.isLocked

/-- `CreateFileW` with `CREATE_NEW` and delete-on-close. -/
def createFile (answer : Answer) : Except ℕ (ℕ × System) :=
  if s.file.isSome then .error errorFileExists
  else
    match answer with
    | .refused lastError => .error lastError
    | .opened =>
      .ok (s.handles.opened, { s with file := some s.handles.opened, handles := s.handles.create })

/-- `CloseHandle`. -/
def closeHandle (h : ℕ) : System :=
  { s with file := if s.file = some h then none else s.file, handles := s.handles.close h }

/-- The object at `this` becomes `lock`. -/
def put (this : ℕ) (lock : Option FileSystemLock) : System :=
  { s with objects := Function.update s.objects this lock }

/-- `HandleUniquePtr::reset`: the pointer is replaced, and its old handle closed. -/
def reset (this : ℕ) (lock : FileSystemLock) (fileHandle : Option ℕ) : System :=
  let s := s.put this (some { lock with fileHandle })
  match lock.fileHandle with
  | none => s
  | some old => s.closeHandle old

/-- `lock`, of the object `lock` at `this`. -/
def lock (this : ℕ) (lock : FileSystemLock) (answer : Answer) : Except Win32Error System :=
  if lock.fileHandle.isSome then .ok s
  else
    match s.createFile answer with
    | .error lastError => .error ⟨lastError, "Failed to create or open file handle."⟩
    | .ok (handle, s) => .ok (s.reset this lock (some handle))

/-- `unlock`. -/
def unlock (this : ℕ) (lock : FileSystemLock) : System :=
  if lock.fileHandle.isNone then s else s.reset this lock none

/-- A call of `lock`, with its record. -/
def callLock (this : ℕ) (lock : FileSystemLock) (answer : Answer) : System :=
  match s.lock this lock answer with
  | .ok s => { s with lockCalls := s.lockCalls ++ [⟨false, s.isLocked this⟩] }
  | .error _ => { s with lockCalls := s.lockCalls ++ [⟨true, s.isLocked this⟩] }

/-- `try_lock`, with its record. -/
def callTryLock (this : ℕ) (lock : FileSystemLock) (answer : Answer) : System :=
  match s.lock this lock answer with
  | .ok s => { s with tryLockCalls := s.tryLockCalls ++ [⟨true, s.isLocked this⟩] }
  | .error _ => { s with tryLockCalls := s.tryLockCalls ++ [⟨false, s.isLocked this⟩] }

/-- The constructor with `acquire`: when `lock` throws, there is no object. -/
def constructWith (this : ℕ) (acquire : Bool) (answer : Answer) : System :=
  let s := s.put this (some ⟨none⟩)
  if acquire then
    match s.lock this ⟨none⟩ answer with
    | .ok s => { s with lockCalls := s.lockCalls ++ [⟨false, s.isLocked this⟩] }
    | .error _ =>
      let s : System := { s with lockCalls := s.lockCalls ++ [⟨true, s.isLocked this⟩] }
      s.put this none
  else s

/-- The move constructor: the pointer of `other` moves into the new object. -/
def moveConstruct (this other : ℕ) (from_ : FileSystemLock) : System :=
  (s.put this (some from_)).put other (some { from_ with fileHandle := none })

/-- The move assignment: the pointer of `other` is released, and resets that of `this`. -/
def moveAssign (this other : ℕ) (from_ : FileSystemLock) : System :=
  let s := s.put other (some { from_ with fileHandle := none })
  match s.objects this with
  | none => s
  | some lock => s.reset this lock from_.fileHandle

/-- The destructor. -/
def destroy (this : ℕ) (lock : FileSystemLock) : System :=
  (s.reset this lock none).put this none

/-- A step: an operation of an object that exists, or a construction where none does. -/
def step (s : System) : Operation → Option System
  | .construct this =>
    match s.objects this with
    | none => some (s.put this (some ⟨none⟩))
    | some _ => none
  | .constructWith this acquire answer =>
    match s.objects this with
    | none => some (s.constructWith this acquire answer)
    | some _ => none
  | .moveConstruct this other =>
    match s.objects this, s.objects other with
    | none, some from_ => some (s.moveConstruct this other from_)
    | _, _ => none
  | .moveAssign this other =>
    match s.objects this, s.objects other with
    | some _, some from_ => some (s.moveAssign this other from_)
    | _, _ => none
  | .lock this answer => (s.objects this).map fun lock => s.callLock this lock answer
  | .tryLock this answer => (s.objects this).map fun lock => s.callTryLock this lock answer
  | .unlock this => (s.objects this).map fun lock => s.unlock this lock
  | .destroy this => (s.objects this).map fun lock => s.destroy this lock

end System

end Win32Experiments.FileLockMutex
