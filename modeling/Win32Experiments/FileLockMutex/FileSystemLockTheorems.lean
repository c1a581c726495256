import Win32Experiments.FileLockMutex.FileSystemLock

/-!
# The lock excludes

In every run either the name is free and no object holds a handle, or one object holds the
handle of the name. An operation changes this in one of three ways: an object acquires the free
name, the holder releases it, or the handle moves to another object.
-/

namespace Win32Experiments.FileLockMutex

open Foundation

/-! ## Statements -/

/-- What the lock promises at every point of a run; the last part says that each handle opened
is the one that holds the name, or was closed, once. -/
structure Excludes (s : System) : Prop where
  exclusive : ∀ i j, s.isLocked i = true → s.isLocked j = true → i = j
  named : (∃ i, s.isLocked i = true) ↔ s.file.isSome = true
  tryLock : ∀ call ∈ s.tryLockCalls, call.returned = call.isLocked
  lock : ∀ call ∈ s.lockCalls, call.threw = !call.isLocked
  closedOnce : s.handles.Accounts s.file.toList

/-- The operations that take the handle from the object at `i` and give it to no other: its
`unlock`, its destruction, and a move assignment to it from another object. -/
def Operation.Releases (op : Operation) (i : ℕ) : Prop :=
  op = .unlock i ∨ op = .destroy i ∨ ∃ other, other ≠ i ∧ op = .moveAssign i other

namespace System

variable {s t : System} {i j h : ℕ} {lock : FileSystemLock}

/-! ## Handles of objects -/

theorem isLocked_eq (s : System) (i : ℕ) : s.isLocked i = (s.handle i).isSome := by
  unfold isLocked handle
  cases s.objects i with
  | none => rfl
  | some lock => rfl

theorem handle_of_object (hlock : s.objects i = some lock) : s.handle i = lock.fileHandle := by
  rw [handle, hlock]
  rfl

@[simp] theorem handle_put (s : System) (i k : ℕ) (o : Option FileSystemLock) :
    (s.put i o).handle k = if k = i then o.bind FileSystemLock.fileHandle else s.handle k := by
  unfold handle put
  dsimp only
  by_cases hk : k = i
  · rw [if_pos hk, hk, Function.update_self]
  · rw [if_neg hk, Function.update_of_ne hk]

@[simp] theorem handle_reset (s : System) (i k : ℕ) (lock : FileSystemLock) (v : Option ℕ) :
    (s.reset i lock v).handle k = if k = i then v else s.handle k := by
  have hput := handle_put s i k (some { lock with fileHandle := v })
  unfold reset
  dsimp only
  split
  · exact hput
  · exact hput

/-- A reset closes the old handle. -/
theorem reset_file (s : System) (i : ℕ) (v : Option ℕ) (hlock : lock.fileHandle = some h) :
    (s.reset i lock v).file = (if s.file = some h then none else s.file) ∧
      (s.reset i lock v).handles = s.handles.close h := by
  unfold reset
  rw [hlock]
  exact ⟨rfl, rfl⟩

theorem reset_file_of_none (s : System) (i : ℕ) (v : Option ℕ) (hlock : lock.fileHandle = none) :
    (s.reset i lock v).file = s.file ∧ (s.reset i lock v).handles = s.handles := by
  unfold reset
  rw [hlock]
  exact ⟨rfl, rfl⟩

@[simp] theorem calls_reset (s : System) (i : ℕ) (lock : FileSystemLock) (v : Option ℕ) :
    (s.reset i lock v).lockCalls = s.lockCalls ∧
      (s.reset i lock v).tryLockCalls = s.tryLockCalls := by
  unfold reset
  dsimp only
  split <;> exact ⟨rfl, rfl⟩

/-! ## The invariant -/

/-- The object at `i`, and no other, holds the handle `h`, and the name with it. -/
structure HeldBy (s : System) (i h : ℕ) : Prop where
  file : s.file = some h
  handle : s.handle i = some h
  others : ∀ j, j ≠ i → s.handle j = none

/-- The name is free, and no object holds a handle. -/
structure Free (s : System) : Prop where
  file : s.file = none
  handle : ∀ j, s.handle j = none

/-- The handle of the name is the one that is not closed; the name is free or held. -/
structure Inv (s : System) : Prop where
  accounts : s.handles.Accounts s.file.toList
  holder : s.Free ∨ ∃ i h, s.HeldBy i h

/-- The calls so far have told the truth. -/
structure Truthful (s : System) : Prop where
  tryLock : ∀ call ∈ s.tryLockCalls, call.returned = call.isLocked
  lock : ∀ call ∈ s.lockCalls, call.threw = !call.isLocked

theorem Inv.heldBy (hs : s.Inv) (hi : s.handle i = some h) : s.HeldBy i h := by
  rcases hs.holder with hfree | ⟨j, k, hheld⟩
  · rw [hfree.handle i] at hi
    contradiction
  · have hij : i = j := by
      by_contra hne
      rw [hheld.others i hne] at hi
      contradiction
    subst hij
    rw [hheld.handle] at hi
    obtain rfl := Option.some.inj hi
    exact hheld

theorem Inv.excludes (hs : s.Inv) (ht : s.Truthful) : Excludes s where
  exclusive := by
    intro i j hi hj
    rw [isLocked_eq, Option.isSome_iff_exists] at hi hj
    obtain ⟨h, hi⟩ := hi
    obtain ⟨k, hj⟩ := hj
    by_contra hne
    rw [(hs.heldBy hj).others i hne] at hi
    contradiction
  named := by
    rcases hs.holder with hfree | ⟨i, h, hheld⟩
    · simp [isLocked_eq, hfree.file, hfree.handle]
    · rw [hheld.file]
      exact iff_of_true ⟨i, by rw [isLocked_eq, hheld.handle]; rfl⟩ rfl
  tryLock := ht.tryLock
  lock := ht.lock
  closedOnce := hs.accounts

/-! ## What operations do to it -/

/-- The handles have not moved. -/
theorem Inv.same (hs : s.Inv) (hhandle : ∀ k, t.handle k = s.handle k) (hfile : t.file = s.file)
    (hhandles : t.handles = s.handles) : t.Inv where
  accounts := by
    rw [hhandles, hfile]
    exact hs.accounts
  holder := by
    rcases hs.holder with hfree | ⟨i, h, hheld⟩
    · exact Or.inl ⟨hfile.trans hfree.file, fun j => (hhandle j).trans (hfree.handle j)⟩
    · exact Or.inr ⟨i, h, hfile.trans hheld.file, (hhandle i).trans hheld.handle,
        fun j hj => (hhandle j).trans (hheld.others j hj)⟩

/-- An object has acquired the free name. -/
theorem Inv.acquire (hs : s.Inv) (hfree : s.file = none)
    (hhandle : ∀ k, t.handle k = if k = i then some s.handles.opened else s.handle k)
    (hfile : t.file = some s.handles.opened) (hhandles : t.handles = s.handles.create) :
    t.Inv where
  accounts := by
    have hacc := hs.accounts
    rw [hfree] at hacc
    rw [hhandles, hfile]
    exact hacc.create
  holder := by
    have hnone : ∀ j, s.handle j = none := by
      rcases hs.holder with hfree | ⟨j, h, hheld⟩
      · exact hfree.handle
      · rw [hheld.file] at hfree
        contradiction
    refine Or.inr ⟨i, s.handles.opened, hfile, ?_, ?_⟩
    · rw [hhandle, if_pos rfl]
    · intro j hj
      rw [hhandle, if_neg hj]
      exact hnone j

/-- The holder has released the name. -/
theorem Inv.release (hs : s.Inv) (hi : s.handle i = some h)
    (hhandle : ∀ k, t.handle k = if k = i then none else s.handle k)
    (hfile : t.file = if s.file = some h then none else s.file)
    (hhandles : t.handles = s.handles.close h) :
    t.Inv ∧ t.file = none ∧ t.handles.closed.count h = 1 := by
  have hheld := hs.heldBy hi
  have hnone : t.file = none := by
    rw [hfile, if_pos hheld.file]
  have hacc : t.handles.Accounts t.file.toList := by
    have hacc := hs.accounts
    rw [hheld.file] at hacc
    rw [hhandles, hnone]
    exact Handles.Accounts.close hacc
  refine ⟨⟨hacc, Or.inl ⟨hnone, ?_⟩⟩, hnone, ?_⟩
  · intro j
    rw [hhandle]
    split
    · rfl
    · rename_i hj
      exact hheld.others j hj
  · have hcount := hs.accounts h
    rw [hheld.file, Option.toList_some, List.count_singleton_self] at hcount
    rw [hhandles, Handles.closed_close, List.count_cons_self]
    split at hcount <;> omega

/-- The handle has moved from the object at `j` to the one at `i`. -/
theorem Inv.transfer (hs : s.Inv) (hj : s.handle j = some h)
    (hhandle : ∀ k, t.handle k = if k = i then some h else if k = j then none else s.handle k)
    (hfile : t.file = s.file) (hhandles : t.handles = s.handles) : t.Inv where
  accounts := by
    rw [hhandles, hfile]
    exact hs.accounts
  holder := by
    have hheld := hs.heldBy hj
    refine Or.inr ⟨i, h, hfile.trans hheld.file, ?_, ?_⟩
    · rw [hhandle, if_pos rfl]
    · intro k hk
      rw [hhandle, if_neg hk]
      split
      · rfl
      · rename_i hkj
        exact hheld.others k hkj

/-! ## Operations -/

theorem createFile_ok {answer : Answer} {r : ℕ × System} (h : s.createFile answer = .ok r) :
    s.file = none ∧
      r = (s.handles.opened,
        { s with file := some s.handles.opened, handles := s.handles.create }) := by
  unfold createFile at h
  split at h
  · contradiction
  · rename_i hfile
    cases answer with
    | refused lastError => contradiction
    | opened => exact ⟨by simpa using hfile, (Except.ok.inj h).symm⟩

/-- What a `lock` that does not throw has done. -/
structure Locked (s : System) (i : ℕ) (t : System) : Prop where
  inv : t.Inv
  isLocked : t.isLocked i = true
  lockCalls : t.lockCalls = s.lockCalls
  tryLockCalls : t.tryLockCalls = s.tryLockCalls

theorem Inv.lock_ok (hs : s.Inv) (hlock : s.objects i = some lock) {answer : Answer}
    (h : s.lock i lock answer = .ok t) : Locked s i t := by
  have hhandle := handle_of_object hlock
  unfold System.lock at h
  split at h
  · rename_i howned
    obtain rfl := Except.ok.inj h
    refine ⟨hs, ?_, rfl, rfl⟩
    rw [isLocked_eq, hhandle]
    exact howned
  · rename_i hfree
    have hnull : lock.fileHandle = none := by simpa using hfree
    split at h
    · contradiction
    · rename_i handle u hcreate
      obtain ⟨hfile, hu⟩ := createFile_ok hcreate
      obtain ⟨rfl, rfl⟩ := Prod.mk.inj hu
      obtain rfl := Except.ok.inj h
      obtain ⟨hfile', hhandles'⟩ := reset_file_of_none
        { s with file := some s.handles.opened, handles := s.handles.create } i
        (some s.handles.opened) hnull
      obtain ⟨hcalls, htries⟩ := calls_reset
        { s with file := some s.handles.opened, handles := s.handles.create } i lock
        (some s.handles.opened)
      refine ⟨hs.acquire hfile (fun k => handle_reset _ i k lock _) hfile' hhandles', ?_, hcalls,
        htries⟩
      rw [isLocked_eq, handle_reset, if_pos rfl]
      rfl

/-- A `lock` that throws leaves its object unlocked. -/
theorem lock_error (hlock : s.objects i = some lock) {answer : Answer} {e : Win32Error}
    (h : s.lock i lock answer = .error e) : s.isLocked i = false := by
  unfold System.lock at h
  split at h
  · contradiction
  · rename_i hfree
    rw [isLocked_eq, handle_of_object hlock]
    simpa using hfree

/-- A call that adds a true record. -/
theorem Truthful.call (hs : s.Truthful) {lockCalls : List LockCall}
    {tryLockCalls : List TryLockCall} (hlock : t.lockCalls = s.lockCalls ++ lockCalls)
    (htry : t.tryLockCalls = s.tryLockCalls ++ tryLockCalls)
    (hlocks : ∀ call ∈ lockCalls, call.threw = !call.isLocked)
    (htries : ∀ call ∈ tryLockCalls, call.returned = call.isLocked) : t.Truthful where
  tryLock := by
    intro call hcall
    rw [htry, List.mem_append] at hcall
    exact hcall.elim (hs.tryLock call) (htries call)
  lock := by
    intro call hcall
    rw [hlock, List.mem_append] at hcall
    exact hcall.elim (hs.lock call) (hlocks call)

/-- Nothing recorded. -/
theorem Truthful.same (hs : s.Truthful) (hlock : t.lockCalls = s.lockCalls)
    (htry : t.tryLockCalls = s.tryLockCalls) : t.Truthful :=
  hs.call (by rw [hlock, List.append_nil]) (by rw [htry, List.append_nil]) (by simp) (by simp)

/-- What holds at every point of a run. -/
structure Sound (s : System) : Prop where
  inv : s.Inv
  truthful : s.Truthful

theorem sound_start : start.Sound where
  inv := ⟨Handles.accounts_empty, Or.inl ⟨rfl, fun _ => rfl⟩⟩
  truthful := ⟨by simp [start], by simp [start]⟩

theorem Sound.callLock (hs : s.Sound) (hlock : s.objects i = some lock) (answer : Answer) :
    (s.callLock i lock answer).Sound := by
  unfold System.callLock
  cases h : s.lock i lock answer with
  | error e =>
    refine ⟨hs.inv.same (fun _ => rfl) rfl rfl, ?_⟩
    dsimp only
    refine hs.truthful.call rfl (List.append_nil _).symm ?_ (by simp)
    simp [lock_error hlock h]
  | ok t =>
    have ht := hs.inv.lock_ok hlock h
    refine ⟨ht.inv.same (fun _ => rfl) rfl rfl, ?_⟩
    refine hs.truthful.call (congrArg (· ++ _) ht.lockCalls)
      (ht.tryLockCalls.trans (List.append_nil _).symm) ?_ (by simp)
    simp [ht.isLocked]

theorem Sound.callTryLock (hs : s.Sound) (hlock : s.objects i = some lock) (answer : Answer) :
    (s.callTryLock i lock answer).Sound := by
  unfold System.callTryLock
  cases h : s.lock i lock answer with
  | error e =>
    refine ⟨hs.inv.same (fun _ => rfl) rfl rfl, ?_⟩
    dsimp only
    refine hs.truthful.call (List.append_nil _).symm rfl (by simp) ?_
    simp [lock_error hlock h]
  | ok t =>
    have ht := hs.inv.lock_ok hlock h
    refine ⟨ht.inv.same (fun _ => rfl) rfl rfl, ?_⟩
    refine hs.truthful.call (ht.lockCalls.trans (List.append_nil _).symm)
      (congrArg (· ++ _) ht.tryLockCalls) (by simp) ?_
    simp [ht.isLocked]

/-- A new object holds nothing. -/
theorem Sound.put (hs : s.Sound) (hnone : s.objects i = none) : (s.put i (some ⟨none⟩)).Sound where
  inv := by
    refine hs.inv.same ?_ rfl rfl
    intro k
    rw [handle_put]
    split
    · rename_i hk
      rw [hk, handle, hnone]
      rfl
    · rfl
  truthful := hs.truthful.same rfl rfl

/-- An object that holds nothing goes. -/
theorem Sound.remove (hs : s.Sound) (hnone : s.handle i = none) : (s.put i none).Sound where
  inv := by
    refine hs.inv.same ?_ rfl rfl
    intro k
    rw [handle_put]
    split
    · rename_i hk
      rw [hk, hnone]
      rfl
    · rfl
  truthful := hs.truthful.same rfl rfl

theorem Sound.constructWith (hs : s.Sound) (hnone : s.objects i = none) (acquire : Bool)
    (answer : Answer) : (s.constructWith i acquire answer).Sound := by
  have hnew := hs.put hnone
  have hobject : (s.put i (some ⟨none⟩)).objects i = some ⟨none⟩ := Function.update_self _ _ _
  unfold System.constructWith
  cases acquire with
  | false => exact hnew
  | true =>
    have hcall := hnew.callLock hobject answer
    unfold System.callLock at hcall
    dsimp only
    rw [if_pos rfl]
    cases h : (s.put i (some ⟨none⟩)).lock i ⟨none⟩ answer with
    | ok t =>
      rw [h] at hcall
      exact hcall
    | error e =>
      rw [h] at hcall
      apply hcall.remove
      exact handle_of_object hobject

/-- The reset of an object to null: its handle is closed, if it has one. -/
theorem Sound.reset (hs : s.Sound) (hlock : s.objects i = some lock) :
    (s.reset i lock none).Sound := by
  have hhandle := handle_of_object hlock
  refine ⟨?_, hs.truthful.same (calls_reset s i lock none).1 (calls_reset s i lock none).2⟩
  cases hold : lock.fileHandle with
  | none =>
    obtain ⟨hfile, hhandles⟩ := reset_file_of_none s i none hold
    apply hs.inv.same _ hfile hhandles
    intro k
    rw [handle_reset]
    split
    · rename_i hk
      rw [hk, hhandle, hold]
    · rfl
  | some h =>
    obtain ⟨hfile, hhandles⟩ := reset_file s i none hold
    exact (hs.inv.release (hhandle.trans hold) (fun k => handle_reset s i k lock none) hfile
      hhandles).1

theorem Sound.unlock (hs : s.Sound) (hlock : s.objects i = some lock) :
    (s.unlock i lock).Sound := by
  unfold System.unlock
  split
  · exact hs
  · exact hs.reset hlock

theorem Sound.destroy (hs : s.Sound) (hlock : s.objects i = some lock) :
    (s.destroy i lock).Sound := by
  apply (hs.reset hlock).remove
  rw [handle_reset, if_pos rfl]

/-- The handle goes from an object to one that has none. -/
theorem Sound.move (hs : s.Sound) {from_ : FileSystemLock}
    (hfrom : s.objects j = some from_) (hi : s.handle i = none)
    (hhandle : ∀ k, t.handle k =
      if k = i then from_.fileHandle else if k = j then none else s.handle k)
    (hfile : t.file = s.file) (hhandles : t.handles = s.handles)
    (hlocks : t.lockCalls = s.lockCalls) (htries : t.tryLockCalls = s.tryLockCalls) :
    t.Sound := by
  have hj := handle_of_object hfrom
  refine ⟨?_, hs.truthful.same hlocks htries⟩
  cases hold : from_.fileHandle with
  | none =>
    apply hs.inv.same _ hfile hhandles
    intro k
    rw [hhandle, hold]
    by_cases hki : k = i
    · rw [if_pos hki, hki, hi]
    · rw [if_neg hki]
      by_cases hkj : k = j
      · rw [if_pos hkj, hkj, hj, hold]
      · rw [if_neg hkj]
  | some h =>
    rw [hold] at hhandle
    exact hs.inv.transfer (hj.trans hold) hhandle hfile hhandles

theorem Sound.moveConstruct (hs : s.Sound) (hnone : s.objects i = none) {from_ : FileSystemLock}
    (hfrom : s.objects j = some from_) : (s.moveConstruct i j from_).Sound := by
  have hne : i ≠ j := by
    rintro rfl
    rw [hnone] at hfrom
    contradiction
  have hi : s.handle i = none := by
    rw [handle, hnone]
    rfl
  refine hs.move hfrom hi ?_ rfl rfl rfl rfl
  intro k
  unfold System.moveConstruct
  rw [handle_put, handle_put]
  by_cases hki : k = i
  · rw [if_neg (hki ▸ hne), if_pos hki, if_pos hki]
    rfl
  · rw [if_neg hki, if_neg hki]
    rfl

/-- A move assignment from another object. -/
theorem moveAssign_of_ne (hne : i ≠ j) (hlock : s.objects i = some lock) {from_ : FileSystemLock} :
    s.moveAssign i j from_ =
      (s.put j (some { from_ with fileHandle := none })).reset i lock from_.fileHandle := by
  have hobject : (s.put j (some { from_ with fileHandle := none })).objects i = some lock := by
    rw [← hlock]
    exact Function.update_of_ne hne _ _
  unfold System.moveAssign
  dsimp only
  rw [hobject]

/-- A self-move leaves the object as it is. -/
theorem Sound.moveAssign_self (hs : s.Sound) {from_ : FileSystemLock}
    (hfrom : s.objects i = some from_) : (s.moveAssign i i from_).Sound := by
  have hobject : (s.put i (some { from_ with fileHandle := none })).objects i
      = some { from_ with fileHandle := none } := Function.update_self _ _ _
  have hnull : ({ from_ with fileHandle := none } : FileSystemLock).fileHandle = none := rfl
  have heq : s.moveAssign i i from_ =
      (s.put i (some { from_ with fileHandle := none })).reset i
        { from_ with fileHandle := none } from_.fileHandle := by
    unfold System.moveAssign
    dsimp only
    rw [hobject]
  obtain ⟨hfile, hhandles⟩ := reset_file_of_none
    (s.put i (some { from_ with fileHandle := none })) i from_.fileHandle hnull
  obtain ⟨hlocks, htries⟩ := calls_reset (s.put i (some { from_ with fileHandle := none })) i
    { from_ with fileHandle := none } from_.fileHandle
  rw [heq]
  refine ⟨hs.inv.same ?_ hfile hhandles, hs.truthful.same hlocks htries⟩
  intro k
  rw [handle_reset, handle_put]
  by_cases hk : k = i
  · rw [if_pos hk, hk, handle_of_object hfrom]
  · rw [if_neg hk, if_neg hk]

/-- The holder, overwritten by another object, releases the name. -/
theorem Inv.moveAssign_holder (hs : s.Inv) (hne : i ≠ j) (hlock : s.objects i = some lock)
    {from_ : FileSystemLock} (hfrom : s.objects j = some from_) (hold : lock.fileHandle = some h) :
    (s.moveAssign i j from_).Inv ∧ (s.moveAssign i j from_).file = none ∧
      (s.moveAssign i j from_).handles.closed.count h = 1 := by
  have hi : s.handle i = some h := (handle_of_object hlock).trans hold
  have hnull : from_.fileHandle = none := by
    rw [← handle_of_object hfrom]
    exact (hs.heldBy hi).others j (Ne.symm hne)
  obtain ⟨hfile, hhandles⟩ := reset_file
    (s.put j (some { from_ with fileHandle := none })) i from_.fileHandle hold
  rw [moveAssign_of_ne hne hlock]
  refine hs.release hi ?_ hfile hhandles
  intro k
  rw [handle_reset, handle_put, hnull]
  by_cases hkj : k = j
  · rw [if_pos hkj, hkj, handle_of_object hfrom, hnull]
    rfl
  · rw [if_neg hkj]

theorem Sound.moveAssign (hs : s.Sound) (hlock : s.objects i = some lock) {from_ : FileSystemLock}
    (hfrom : s.objects j = some from_) : (s.moveAssign i j from_).Sound := by
  by_cases hne : i = j
  · subst hne
    exact hs.moveAssign_self hfrom
  · obtain ⟨hlocks, htries⟩ := calls_reset (s.put j (some { from_ with fileHandle := none })) i
      lock from_.fileHandle
    rw [← moveAssign_of_ne hne hlock] at hlocks htries
    cases hold : lock.fileHandle with
    | some h =>
      exact ⟨(hs.inv.moveAssign_holder hne hlock hfrom hold).1,
        hs.truthful.same hlocks htries⟩
    | none =>
      obtain ⟨hfile, hhandles⟩ := reset_file_of_none
        (s.put j (some { from_ with fileHandle := none })) i from_.fileHandle hold
      rw [← moveAssign_of_ne hne hlock] at hfile hhandles
      refine hs.move hfrom ((handle_of_object hlock).trans hold) ?_ hfile hhandles hlocks htries
      intro k
      rw [moveAssign_of_ne hne hlock, handle_reset, handle_put]
      rfl

/-! ## Runs -/

theorem sound_step {op : Operation} (hs : s.Sound) (h : s.step op = some t) : t.Sound := by
  cases op with
  | construct i =>
    cases hobject : s.objects i with
    | none =>
      simp only [step, hobject, Option.some.injEq] at h
      exact h ▸ hs.put hobject
    | some lock => simp [step, hobject] at h
  | constructWith i acquire answer =>
    cases hobject : s.objects i with
    | none =>
      simp only [step, hobject, Option.some.injEq] at h
      exact h ▸ hs.constructWith hobject acquire answer
    | some lock => simp [step, hobject] at h
  | moveConstruct i j =>
    cases hobject : s.objects i with
    | some lock => simp [step, hobject] at h
    | none =>
      cases hfrom : s.objects j with
      | none => simp [step, hobject, hfrom] at h
      | some from_ =>
        simp only [step, hobject, hfrom, Option.some.injEq] at h
        exact h ▸ hs.moveConstruct hobject hfrom
  | moveAssign i j =>
    cases hobject : s.objects i with
    | none => simp [step, hobject] at h
    | some lock =>
      cases hfrom : s.objects j with
      | none => simp [step, hobject, hfrom] at h
      | some from_ =>
        simp only [step, hobject, hfrom, Option.some.injEq] at h
        exact h ▸ hs.moveAssign hobject hfrom
  | lock i answer =>
    obtain ⟨lock, hlock, rfl⟩ := Option.map_eq_some_iff.mp h
    exact hs.callLock hlock answer
  | tryLock i answer =>
    obtain ⟨lock, hlock, rfl⟩ := Option.map_eq_some_iff.mp h
    exact hs.callTryLock hlock answer
  | unlock i =>
    obtain ⟨lock, hlock, rfl⟩ := Option.map_eq_some_iff.mp h
    exact hs.unlock hlock
  | destroy i =>
    obtain ⟨lock, hlock, rfl⟩ := Option.map_eq_some_iff.mp h
    exact hs.destroy hlock

/-- When the holder is reset to null, the name is free and its handle closed once. -/
theorem Inv.reset_holder (hs : s.Inv) (hlock : s.objects i = some lock)
    (hold : lock.fileHandle = some h) :
    (s.reset i lock none).file = none ∧ (s.reset i lock none).handles.closed.count h = 1 := by
  obtain ⟨hfile, hhandles⟩ := reset_file s i none hold
  exact (hs.release ((handle_of_object hlock).trans hold)
    (fun k => handle_reset s i k lock none) hfile hhandles).2

/-- A releasing operation of the holder frees the name and closes the handle once. -/
theorem Inv.releases (hs : s.Inv) {op : Operation} (hi : s.handle i = some h)
    (hop : op.Releases i) (hstep : s.step op = some t) :
    t.file = none ∧ t.handles.closed.count h = 1 := by
  have hold : ∀ lock, s.objects i = some lock → lock.fileHandle = some h := by
    intro lock hlock
    rw [← handle_of_object hlock, hi]
  rcases hop with rfl | rfl | ⟨j, hne, rfl⟩
  · obtain ⟨lock, hlock, rfl⟩ := Option.map_eq_some_iff.mp hstep
    have hunlock : s.unlock i lock = s.reset i lock none := by
      unfold System.unlock
      rw [hold lock hlock]
      rfl
    rw [hunlock]
    exact hs.reset_holder hlock (hold lock hlock)
  · obtain ⟨lock, hlock, rfl⟩ := Option.map_eq_some_iff.mp hstep
    exact hs.reset_holder hlock (hold lock hlock)
  · cases hobject : s.objects i with
    | none => simp [step, hobject] at hstep
    | some lock =>
      cases hfrom : s.objects j with
      | none => simp [step, hobject, hfrom] at hstep
      | some from_ =>
        simp only [step, hobject, hfrom, Option.some.injEq] at hstep
        rw [← hstep]
        exact (hs.moveAssign_holder (Ne.symm hne) hobject hfrom (hold lock hobject)).2

end System

/-- In every run of any number of lock objects: at most one is locked, one is exactly while the
name exists, `try_lock` and `lock` report what happened, every handle but that of the name was
closed exactly once; and an operation that releases the holder frees the name and has closed
its handle exactly once. -/
theorem fileSystemLock_excludes {ops : List Operation} {t : System}
    (hrun : run System.step .start ops = some t) :
    Excludes t ∧ ∀ op i h u, t.handle i = some h → op.Releases i → t.step op = some u →
      u.file = none ∧ u.handles.closed.count h = 1 := by
  have ht : t.Sound := run_invariant System.Sound
    (fun s op u hs hstep => System.sound_step hs hstep) hrun System.sound_start
  refine ⟨ht.inv.excludes ht.truthful, ?_⟩
  intro op i h u hi hop hstep
  exact ht.inv.releases hi hop hstep

/-- Two objects; one acquires, the other fails, and the handle moves to a third. -/
def handover : List Operation :=
  [.construct 0, .construct 1, .lock 0 .opened, .tryLock 1 .opened, .moveConstruct 2 0]

/-- The third object holds the lock, and frees it when it is destroyed. -/
theorem excludes_handover :
    ∃ t u, run System.step .start handover = some t ∧ Excludes t ∧
      t.step (.destroy 2) = some u ∧ u.file = none ∧ u.handles.closed.count 0 = 1 := by
  obtain ⟨hexcludes, hreleases⟩ :=
    fileSystemLock_excludes (show run System.step .start handover = some _ from rfl)
  exact ⟨_, _, rfl, hexcludes, rfl, hreleases (.destroy 2) 2 0 _ rfl (Or.inr (Or.inl rfl)) rfl⟩

end Win32Experiments.FileLockMutex
