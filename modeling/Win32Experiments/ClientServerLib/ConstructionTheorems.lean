import Win32Experiments.ClientServerLib.Construction

/-!
# A constructor that throws

What the constructor opened, `Cleanup` closes, each handle once. But it does not release the mutex
before, so a constructor that throws leaves it owned if the wait succeeded; and it unmaps what the
memory of `m_View` held if no view was mapped.
-/

namespace Win32Experiments.ClientServerLib

open Foundation

/-! ## Statements -/

/-- The member holds a handle that is live. -/
def HoldsLive (handles : Handles) (member : Option ℕ) : Prop := ∃ h ∈ member, handles.Live h

/-- The object holds its two handles and its view, and the caller does not own the mutex. -/
def All (caller : ℕ) (file : MemoryMappedFile) (os : Os) : Prop :=
  caller ∉ os.mutex ∧ HoldsLive os.handles file.m_Mutex ∧ HoldsLive os.handles file.m_MapFile ∧
    HoldsLive os.views file.m_View

/-- What was opened was released exactly once, nothing else was, and the caller does not own the
mutex. -/
def Nothing (caller : ℕ) (os : Os) : Prop :=
  caller ∉ os.mutex ∧ os.handles.EachClosedOnce ∧ os.views.EachClosedOnce

def AllOrNothing (caller : ℕ) : Except String MemoryMappedFile × Os → Prop
  | (.ok file, os) => All caller file os
  | (.error _, os) => Nothing caller os

/-- The wait failed, or the mutex is destroyed with its handle. -/
def Unowned (wait shared : Bool) : Prop := wait = false ∨ shared = false

/-- When the mutex or the mapping fails, the memory of `m_View` is null; when the mapping or the
view fails, the mutex was not waited for, or is destroyed. -/
def Clean (memory : Option ℕ) (shared : Bool) (outcomes : Outcomes) : Prop :=
  if outcomes.mutex = false then memory = none
  else if outcomes.mapping = false then memory = none ∧ Unowned outcomes.wait shared
  else if outcomes.view = false then Unowned outcomes.wait shared
  else True

/-! ## Cleanup -/

variable {file : MemoryMappedFile} {os : Os} {caller h : ℕ}

/-- `Cleanup` closes the mapping and the mutex. -/
theorem handles_cleanup (file : MemoryMappedFile) (os : Os) :
    (file.cleanup os).2.handles =
      os.handles.closeAll (file.m_MapFile.toList ++ file.m_Mutex.toList) := by
  unfold MemoryMappedFile.cleanup
  cases file.m_View <;> cases file.m_MapFile <;> cases file.m_Mutex <;> rfl

/-- `Cleanup` unmaps what `m_View` holds. -/
theorem views_cleanup (file : MemoryMappedFile) (os : Os) :
    (file.cleanup os).2.views = os.views.closeAll file.m_View.toList := by
  unfold MemoryMappedFile.cleanup
  cases file.m_View <;> cases file.m_MapFile <;> cases file.m_Mutex <;> rfl

/-- The owner of the mutex changes only with its last handle. -/
theorem mutex_cleanup (hMutex : file.m_Mutex = some h) (hhandle : os.mutexHandle = some h)
    (hMapFile : file.m_MapFile ≠ some h) :
    (file.cleanup os).2.mutex = if os.shared = false then [] else os.mutex := by
  have hclose : ∀ mapping, file.m_MapFile = some mapping → os.mutexHandle ≠ some mapping := by
    intro mapping hmapping heq
    apply hMapFile
    rw [hmapping, ← heq, hhandle]
  unfold MemoryMappedFile.cleanup
  rw [hMutex]
  cases hmapping : file.m_MapFile with
  | none => cases file.m_View <;> simp [Os.closeHandle, Os.unmapViewOfFile, hhandle]
  | some mapping =>
    have hne := hclose mapping hmapping
    rw [hhandle] at hne
    cases file.m_View <;> simp [Os.closeHandle, Os.unmapViewOfFile, hhandle, hne]

/-- What the members account for is closed once each. -/
theorem eachClosedOnce_cleanup
    (hheld : os.handles.Accounts (file.m_MapFile.toList ++ file.m_Mutex.toList)) :
    (file.cleanup os).2.handles.EachClosedOnce := by
  rw [handles_cleanup]
  rw [← List.append_nil (file.m_MapFile.toList ++ file.m_Mutex.toList)] at hheld
  exact (Handles.Accounts.closeAll hheld).eachClosedOnce_iff.mpr rfl

theorem eachClosedOnce_views (hheld : os.views.Accounts file.m_View.toList) :
    (file.cleanup os).2.views.EachClosedOnce := by
  rw [views_cleanup]
  rw [← List.append_nil file.m_View.toList] at hheld
  exact (Handles.Accounts.closeAll hheld).eachClosedOnce_iff.mpr rfl

/-- Before a view is mapped, `Cleanup` may only find null. -/
theorem views_eachClosedOnce_iff (hviews : os.views = .empty) :
    (file.cleanup os).2.views.EachClosedOnce ↔ file.m_View = none := by
  rw [views_cleanup, hviews]
  cases file.m_View with
  | none => exact iff_of_true (Handles.accounts_empty.eachClosedOnce_iff.mpr rfl) rfl
  | some view =>
    refine iff_of_false ?_ (by simp)
    intro hall
    have hcount := hall view
    simp [Handles.empty] at hcount

/-! ## The stages of the constructor -/

variable {name : String} {maxSize : ℕ} {createNewMutex shared : Bool} {memory : Option ℕ}
  {outcomes : Outcomes}

/-- Behind the wait. -/
def Os.waited (shared : Bool) (caller : ℕ) (wait : Bool) : Os :=
  { handles := Handles.empty.create
    views := .empty
    mutex := if wait then [caller] else []
    mutexHandle := some 0
    shared }

/-- Behind the mapping. -/
def Os.mapped (shared : Bool) (caller : ℕ) (wait : Bool) : Os :=
  { Os.waited shared caller wait with handles := Handles.empty.create.create }

/-- When the handle of the mutex is closed, the mutex is unowned. -/
theorem not_mem_owner_iff {wait : Bool} :
    (caller ∉ if shared = false then [] else if wait then [caller] else []) ↔
      Unowned wait shared := by
  unfold Unowned
  cases shared <;> cases wait <;> simp

variable (name maxSize createNewMutex memory caller shared) {wait mapping view : Bool}

/-- The members behind the wait. -/
def waitedFile : MemoryMappedFile :=
  { MemoryMappedFile.init name maxSize createNewMutex memory with
    m_Mutex := some 0
    m_locked := true }

/-- The members behind the mapping, if no view is mapped. -/
def mappedFile : MemoryMappedFile :=
  { waitedFile name maxSize createNewMutex memory with m_MapFile := some 1, m_View := none }

theorem construct_noMutex :
    MemoryMappedFile.construct name maxSize createNewMutex memory caller
      ⟨false, wait, mapping, view⟩ (.start shared) =
    (.error "Failed to open memory mapped file",
      ((MemoryMappedFile.init name maxSize createNewMutex memory).cleanup (.start shared)).2) :=
  rfl

theorem construct_noMapping :
    MemoryMappedFile.construct name maxSize createNewMutex memory caller
      ⟨true, wait, false, view⟩ (.start shared) =
    (.error "Failed to open memory mapped file",
      ((waitedFile name maxSize createNewMutex memory).cleanup
        (.waited shared caller wait)).2) := by
  cases wait <;> rfl

theorem construct_noView :
    MemoryMappedFile.construct name maxSize createNewMutex memory caller
      ⟨true, wait, true, false⟩ (.start shared) =
    (.error "MapViewOfFile() failed",
      ((mappedFile name maxSize createNewMutex memory).cleanup
        (.mapped shared caller wait)).2) := by
  cases wait <;> rfl

theorem construct_view :
    MemoryMappedFile.construct name maxSize createNewMutex memory caller
      ⟨true, wait, true, true⟩ (.start shared) =
    (.ok { mappedFile name maxSize createNewMutex memory with
        m_View := some 0
        m_initialised := true
        m_locked := false },
      { Os.mapped shared caller wait with
        views := Handles.empty.create
        mutex := (Os.waited shared caller wait).mutex.unlock caller }) := by
  cases wait <;> rfl

/-- The release takes the mutex back, or fails where the wait did. -/
theorem unlock_waited : (Os.waited shared caller wait).mutex.unlock caller = [] := by
  cases wait with
  | false => rfl
  | true => exact unlock_cons

/-! ## Every pattern of failures -/

variable {name maxSize createNewMutex memory caller shared}

/-- Without a mutex there is nothing to release. -/
theorem noMutex_iff :
    Nothing caller ((MemoryMappedFile.init name maxSize createNewMutex memory).cleanup
      (.start shared)).2 ↔ memory = none := by
  have hmutex : caller ∉ ((MemoryMappedFile.init name maxSize createNewMutex memory).cleanup
      (.start shared)).2.mutex := by
    cases memory <;> exact List.not_mem_nil
  have hhandles : ((MemoryMappedFile.init name maxSize createNewMutex memory).cleanup
      (.start shared)).2.handles.EachClosedOnce :=
    eachClosedOnce_cleanup Handles.accounts_empty
  unfold Nothing
  rw [and_iff_right hmutex, and_iff_right hhandles]
  exact views_eachClosedOnce_iff rfl

/-- Without a mapping there is the mutex. -/
theorem noMapping_iff :
    Nothing caller ((waitedFile name maxSize createNewMutex memory).cleanup
      (.waited shared caller wait)).2 ↔ memory = none ∧ Unowned wait shared := by
  have hhandles : ((waitedFile name maxSize createNewMutex memory).cleanup
      (.waited shared caller wait)).2.handles.EachClosedOnce :=
    eachClosedOnce_cleanup Handles.accounts_empty.create
  have hviews : ((waitedFile name maxSize createNewMutex memory).cleanup
      (.waited shared caller wait)).2.views.EachClosedOnce ↔ memory = none :=
    views_eachClosedOnce_iff rfl
  have hmutex := @mutex_cleanup (waitedFile name maxSize createNewMutex memory)
    (.waited shared caller wait) 0 rfl rfl (by simp [waitedFile, MemoryMappedFile.init])
  unfold Nothing
  rw [and_iff_right hhandles, hviews, hmutex, and_comm]
  exact and_congr_right' not_mem_owner_iff

/-- Without a view there are the mutex and the mapping. -/
theorem noView_iff :
    Nothing caller ((mappedFile name maxSize createNewMutex memory).cleanup
      (.mapped shared caller wait)).2 ↔ Unowned wait shared := by
  have hhandles : ((mappedFile name maxSize createNewMutex memory).cleanup
      (.mapped shared caller wait)).2.handles.EachClosedOnce :=
    eachClosedOnce_cleanup Handles.accounts_empty.create.create
  have hviews : ((mappedFile name maxSize createNewMutex memory).cleanup
      (.mapped shared caller wait)).2.views.EachClosedOnce :=
    (views_eachClosedOnce_iff rfl).mpr rfl
  have hmutex := @mutex_cleanup (mappedFile name maxSize createNewMutex memory)
    (.mapped shared caller wait) 0 rfl rfl (by simp [mappedFile])
  unfold Nothing
  rw [hmutex, and_iff_left ⟨hhandles, hviews⟩]
  exact not_mem_owner_iff

/-- The constructed object has everything. -/
theorem all_constructed :
    AllOrNothing caller (MemoryMappedFile.construct name maxSize createNewMutex memory caller
      ⟨true, wait, true, true⟩ (.start shared)) := by
  rw [construct_view, unlock_waited]
  refine ⟨List.not_mem_nil, ⟨0, rfl, ?_⟩, ⟨1, rfl, ?_⟩, ⟨0, rfl, ?_⟩⟩
  · show Handles.empty.create.create.Live 0
    decide
  · show Handles.empty.create.create.Live 1
    decide
  · show Handles.empty.create.Live 0
    decide

/-- Construction is all or nothing exactly if, where the mutex or the mapping cannot be opened,
the memory of `m_View` is null, and, where the mapping or the view cannot be opened, the wait
failed or the mutex is destroyed with its handle. -/
theorem construct_allOrNothing_iff (name : String) (maxSize : ℕ) (createNewMutex : Bool)
    (memory : Option ℕ) (caller : ℕ) (shared : Bool) (outcomes : Outcomes) :
    AllOrNothing caller (MemoryMappedFile.construct name maxSize createNewMutex memory caller
      outcomes (.start shared)) ↔ Clean memory shared outcomes := by
  obtain ⟨mutex, wait, mapping, view⟩ := outcomes
  cases mutex with
  | false =>
    rw [construct_noMutex]
    exact noMutex_iff
  | true =>
    cases mapping with
    | false =>
      rw [construct_noMapping]
      exact noMapping_iff
    | true =>
      cases view with
      | false =>
        rw [construct_noView]
        exact noView_iff
      | true => exact iff_of_true all_constructed trivial

/-- The destructor of what was constructed releases everything once. -/
theorem nothing_destructed {file : MemoryMappedFile} {os : Os}
    (hconstruct : MemoryMappedFile.construct name maxSize createNewMutex memory caller outcomes
      (.start shared) = (.ok file, os)) : Nothing caller (file.destruct os) := by
  obtain ⟨mutex, wait, mapping, view⟩ := outcomes
  cases mutex with
  | false =>
    rw [construct_noMutex] at hconstruct
    cases hconstruct
  | true =>
    cases mapping with
    | false =>
      rw [construct_noMapping] at hconstruct
      cases hconstruct
    | true =>
      cases view with
      | false =>
        rw [construct_noView] at hconstruct
        cases hconstruct
      | true =>
        rw [construct_view, unlock_waited, Prod.mk.injEq, Except.ok.injEq] at hconstruct
        obtain ⟨rfl, rfl⟩ := hconstruct
        have hempty := Handles.accounts_empty
        refine ⟨?_, eachClosedOnce_cleanup hempty.create.create, eachClosedOnce_views hempty.create⟩
        unfold MemoryMappedFile.destruct
        rw [mutex_cleanup rfl rfl (by simp [mappedFile])]
        split <;> exact List.not_mem_nil

/-- The mapping cannot be opened: the constructor throws and the caller owns the mutex, to which
another process has a handle. -/
theorem mutexKept_counterexample :
    ¬ ∀ (outcomes : Outcomes), AllOrNothing 0 (MemoryMappedFile.construct "Data" 4096 false none 0
      outcomes (.start true)) := by
  intro hall
  have hnothing := hall ⟨true, true, false, true⟩
  exact hnothing.1 (by decide)

end Win32Experiments.ClientServerLib
