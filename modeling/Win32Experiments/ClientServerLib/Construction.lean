import Mathlib.Tactic.Common
import Win32Experiments.Foundation.Handles

/-!
# `MemoryMappedFile`

`Lock` waits for a named mutex and `Unlock` releases it. A Win32 mutex is owned by the client
that waited for it, which may wait for it again and then has to release it as often.

The constructor opens a mutex, waits for it, opens a file mapping and maps a view of it. Where
one of the three cannot be opened it calls `Cleanup`, which releases what the members hold. The
member `m_View` is not in the initialiser list, so until the view is mapped it holds what was in
the memory of the object.
-/

namespace Win32Experiments.ClientServerLib

open Foundation

/-! ## The mutex -/

/-- The owner of the mutex, once for each `Lock` that has not been released. -/
abbrev Mutex := List ℕ

/-- `Lock`: a client waits while another one owns the mutex. -/
def Mutex.lock (mutex : Mutex) (client : ℕ) : Option Mutex :=
  if ∀ owner ∈ mutex, owner = client then some (client :: mutex) else none

/-- `Unlock`: the release fails in a client that does not own the mutex. -/
def Mutex.unlock (mutex : Mutex) (client : ℕ) : Mutex :=
  if mutex.head? = some client then mutex.tail else mutex

theorem lock_eq_some {mutex mutex' : Mutex} {client : ℕ} : mutex.lock client = some mutex' ↔
    (∀ owner ∈ mutex, owner = client) ∧ mutex' = client :: mutex := by
  rw [Mutex.lock]
  split
  · next h =>
    rw [Option.some.injEq, eq_comm]
    exact (and_iff_right h).symm
  · next h => exact ⟨nofun, fun hlock => absurd hlock.1 h⟩

/-- An `Unlock` takes one `Lock` of the same client back. -/
@[simp] theorem unlock_cons {mutex : Mutex} {client : ℕ} :
    Mutex.unlock (client :: mutex) client = mutex :=
  if_pos rfl

/-! ## The system -/

/-- What the calls of the constructor opened and released, the owner of the mutex, the handle of
the mutex, and whether another handle to it is open elsewhere. -/
structure Os where
  handles : Handles
  views : Handles
  mutex : Mutex
  mutexHandle : Option ℕ
  shared : Bool
deriving DecidableEq, Repr

/-- What the calls return: a handle or null, and whether the wait succeeds. -/
structure Outcomes where
  mutex : Bool
  wait : Bool
  mapping : Bool
  view : Bool
deriving DecidableEq, Repr

namespace Os

/-- Before the first call. The caller does not own the mutex. -/
def start (shared : Bool) : Os :=
  { handles := .empty, views := .empty, mutex := [], mutexHandle := none, shared }

variable (os : Os)

/-- `CreateMutex` and `OpenMutex`. -/
def openMutex (success : Bool) : Option ℕ × Os :=
  if success then
    (some os.handles.opened,
      { os with handles := os.handles.create, mutexHandle := some os.handles.opened })
  else (none, os)

/-- `CreateFileMapping` and `OpenFileMapping`. -/
def openFileMapping (success : Bool) : Option ℕ × Os :=
  if success then (some os.handles.opened, { os with handles := os.handles.create })
  else (none, os)

/-- `MapViewOfFile`. -/
def mapViewOfFile (success : Bool) : Option ℕ × Os :=
  if success then (some os.views.opened, { os with views := os.views.create })
  else (none, os)

/-- `WaitForSingleObject` on the mutex, when it returns. -/
def waitForSingleObject (caller : ℕ) (success : Bool) : Os :=
  if success then { os with mutex := caller :: os.mutex } else os

/-- `ReleaseMutex`. -/
def releaseMutex (caller : ℕ) : Os := { os with mutex := os.mutex.unlock caller }

/-- `CloseHandle`. With its last handle the mutex is destroyed, and nobody owns it. -/
def closeHandle (h : ℕ) : Os :=
  { os with
    handles := os.handles.close h
    mutex := if os.mutexHandle = some h ∧ os.shared = false then [] else os.mutex }

/-- `UnmapViewOfFile`. -/
def unmapViewOfFile (view : ℕ) : Os := { os with views := os.views.close view }

end Os

/-! ## The class -/

/-- The members of `MemoryMappedFile`; null is `none`. -/
structure MemoryMappedFile where
  m_mmfName : String
  m_mutexName : String
  m_maxSize : ℕ
  m_MapFile : Option ℕ
  m_Mutex : Option ℕ
  m_View : Option ℕ
  m_createNewMutex : Bool
  m_initialised : Bool
  m_locked : Bool
deriving DecidableEq, Repr

namespace MemoryMappedFile

/-- The initialiser list. It leaves in `m_View` what `memory` held. -/
def init (name : String) (maxSize : ℕ) (createNewMutex : Bool) (memory : Option ℕ) :
    MemoryMappedFile :=
  { m_mmfName := name
    m_mutexName := name ++ "Mutex"
    m_maxSize := maxSize
    m_MapFile := none
    m_Mutex := none
    m_View := memory
    m_createNewMutex := createNewMutex
    m_initialised := false
    m_locked := false }

variable (file : MemoryMappedFile) (os : Os)

/-- `Cleanup`. -/
def cleanup : MemoryMappedFile × Os :=
  let os := match file.m_View with
    | some view => os.unmapViewOfFile view
    | none => os
  let os := match file.m_MapFile with
    | some h => os.closeHandle h
    | none => os
  let os := match file.m_Mutex with
    | some h => os.closeHandle h
    | none => os
  ({ file with m_View := none, m_MapFile := none, m_Mutex := none }, os)

/-- `Lock`, which does not look at what the wait returns. -/
def lock (caller : ℕ) (success : Bool) : MemoryMappedFile × Os :=
  ({ file with m_locked := true }, os.waitForSingleObject caller success)

/-- `Unlock`. -/
def unlock (caller : ℕ) : MemoryMappedFile × Os :=
  ({ file with m_locked := false }, os.releaseMutex caller)

/-- The constructor: the object, or what is thrown. -/
def construct (name : String) (maxSize : ℕ) (createNewMutex : Bool) (memory : Option ℕ)
    (caller : ℕ) (outcomes : Outcomes) (os : Os) : Except String MemoryMappedFile × Os :=
  let file := init name maxSize createNewMutex memory
  let (mutex, os) := os.openMutex outcomes.mutex
  let file := { file with m_Mutex := mutex }
  if file.m_Mutex = none then
    (.error "Failed to open memory mapped file", (file.cleanup os).2)
  else
    let (file, os) := file.lock os caller outcomes.wait
    let (mapping, os) := os.openFileMapping outcomes.mapping
    let file := { file with m_MapFile := mapping }
    if file.m_MapFile = none then
      (.error "Failed to open memory mapped file", (file.cleanup os).2)
    else
      let (view, os) := os.mapViewOfFile outcomes.view
      let file := { file with m_View := view }
      if file.m_View = none then
        (.error "MapViewOfFile() failed", (file.cleanup os).2)
      else
        let (file, os) := ({ file with m_initialised := true }).unlock os caller
        (.ok file, os)

/-- The destructor. -/
def destruct : Os := (file.cleanup os).2

end MemoryMappedFile

end Win32Experiments.ClientServerLib
