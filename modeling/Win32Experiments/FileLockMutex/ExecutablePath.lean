import Mathlib.Algebra.Group.Nat.Defs
import Win32Experiments.FileLockMutex.FileSystemLock
import Win32Experiments.Foundation.Halting
import Win32Experiments.Foundation.Memory

/-!
# `GetCurrentExecutablePath`

The loop around `GetModuleFileNameW`, whose buffer grows by a block in every turn, and which asks
the thread's last error whether the path was cut. A call that succeeds need not touch the last
error, so the value that the loop reads may be older than the call.
-/

namespace Win32Experiments.FileLockMutex

open Foundation

/-- `Win32::ErrorCodes::InsufficientBuffer`. -/
def insufficientBuffer : ℕ := 122

/-- `blockSize`. -/
def blockSize : ℕ := 2048

/-- The module: its path, and the last error that a call with a buffer of so many characters sets
when it succeeds; `none` if it leaves the last error as it was. -/
structure Module where
  path : List UInt16
  onSuccess : ℕ → Option ℕ

/-- What a call of `GetModuleFileNameW` makes of the buffer, what it returns, and the last error
behind it. -/
structure FileNameCall where
  lpFilename : List UInt16
  returned : ℕ
  lastError : ℕ

/-- `GetModuleFileNameW`: a path that does not fit with its NUL is cut. -/
def getModuleFileNameW (m : Module) (lpFilename : List UInt16) (nSize lastError : ℕ) :
    FileNameCall :=
  if m.path.length < nSize then
    ⟨store lpFilename 0 (m.path ++ [0]), m.path.length, (m.onSuccess nSize).getD lastError⟩
  else
    ⟨store lpFilename 0 ((m.path.take (nSize - 1) ++ [0]).take nSize), nSize, insufficientBuffer⟩

/-- The local variables, and the thread's last error. -/
structure PathLoop where
  filePath : List UInt16
  status : ℕ
  count : ℕ
  lastError : ℕ

/-- The variables before the loop. -/
def PathLoop.start (lastError : ℕ) : PathLoop := ⟨[], insufficientBuffer, 0, lastError⟩

/-- How the function ends. -/
inductive PathOutcome where
  | returned (filePath : List UInt16)
  | threw (error : Win32Error)

/-- `std::wstring::resize`. -/
def resize (s : List UInt16) (n : ℕ) : List UInt16 := s.take n ++ .replicate (n - s.length) 0

/-- One turn of the loop, and the `resize` behind it. -/
def PathLoop.turn (m : Module) (s : PathLoop) : Except PathOutcome PathLoop :=
  if s.status = insufficientBuffer then
    let filePath := resize s.filePath (s.filePath.length + blockSize)
    -- The size is cast to a `DWORD`.
    let call := getModuleFileNameW m filePath (filePath.length % 2 ^ 32) s.lastError
    if call.returned = 0 then
      .error (.threw ⟨call.lastError, "GetModuleFileNameW() failed"⟩)
    else .ok ⟨call.lpFilename, call.lastError, call.returned, call.lastError⟩
  else .error (.returned (resize s.filePath s.count))

/-- `GetCurrentExecutablePath` ends so. -/
def GetCurrentExecutablePath (m : Module) (lastError : ℕ) (r : PathOutcome) : Prop :=
  Returns (PathLoop.turn m) (.start lastError) r

/-- The last error in front of the call number `k`: before the first it is the caller's, behind
every turn that goes on it is `ERROR_INSUFFICIENT_BUFFER`. -/
def lastErrorAt (lastError : ℕ) (k : ℕ) : ℕ := if k = 0 then lastError else insufficientBuffer

/-- The buffer of the call number `k` holds the path and its NUL, and the call leaves another last
error than `ERROR_INSUFFICIENT_BUFFER`. -/
def ShowsSuccess (m : Module) (lastError k : ℕ) : Prop :=
  m.path.length < blockSize * (k + 1) ∧
    (m.onSuccess (blockSize * (k + 1))).getD (lastErrorAt lastError k) ≠ insufficientBuffer

instance (m : Module) (lastError k : ℕ) : Decidable (ShowsSuccess m lastError k) :=
  inferInstanceAs (Decidable (_ ∧ _))

/-! ## One turn -/

/-- What holds in front of the call number `k`. -/
structure Trying (lastError k : ℕ) (s : PathLoop) : Prop where
  status : s.status = insufficientBuffer
  length : s.filePath.length = blockSize * k
  lastError : s.lastError = lastErrorAt lastError k

/-- The number of the call whose size is `0` as a `DWORD`. -/
def lastCall : ℕ := 2 ^ 21 - 1

section Turn

variable {m : Module} {lastError k : ℕ} {s : PathLoop}

theorem trying_start : Trying lastError 0 (.start lastError) := ⟨rfl, rfl, rfl⟩

theorem length_resize (s : List UInt16) (n : ℕ) : (resize s n).length = n := by
  rw [resize, List.length_append, List.length_take, List.length_replicate]
  omega

/-- The front of a longer string. -/
theorem resize_of_le {s : List UInt16} {n : ℕ} (h : n ≤ s.length) : resize s n = s.take n := by
  rw [resize, Nat.sub_eq_zero_of_le h, List.replicate_zero, List.append_nil]

theorem length_filePath (hs : Trying lastError k s) :
    (resize s.filePath (s.filePath.length + blockSize)).length = blockSize * (k + 1) := by
  rw [length_resize, hs.length, Nat.mul_succ]

theorem size_of_lt (hk : k < lastCall) :
    blockSize * (k + 1) % 2 ^ 32 = blockSize * (k + 1) := by
  unfold lastCall at hk
  unfold blockSize
  exact Nat.mod_eq_of_lt (by omega)

theorem size_lastCall : blockSize * (lastCall + 1) % 2 ^ 32 = 0 := by decide

/-- A call whose buffer is too small, or which does not show its success, is followed by
another. -/
theorem turn_goes_on (hpath : m.path ≠ []) (hk : k < lastCall) (hs : Trying lastError k s)
    (hno : ¬ ShowsSuccess m lastError k) :
    ∃ t, PathLoop.turn m s = .ok t ∧ Trying lastError (k + 1) t := by
  have hpos : 0 < m.path.length := List.length_pos_iff.mpr hpath
  have hlen := length_filePath hs
  have hblock : 0 < blockSize * (k + 1) := Nat.mul_pos (by decide) (Nat.succ_pos k)
  simp only [PathLoop.turn, hs.status, if_true, hlen, size_of_lt hk, getModuleFileNameW,
    hs.lastError]
  by_cases hfits : m.path.length < blockSize * (k + 1)
  · -- It fits, but the last error says the opposite.
    have hsticky : (m.onSuccess (blockSize * (k + 1))).getD (lastErrorAt lastError k)
        = insufficientBuffer := by
      by_contra hne
      exact hno ⟨hfits, hne⟩
    rw [if_pos hfits, if_neg (by show m.path.length ≠ 0; omega)]
    refine ⟨_, rfl, hsticky, ?_, hsticky⟩
    rw [length_store, hlen]
    rw [List.length_append, List.length_singleton, hlen]
    omega
  · rw [if_neg hfits, if_neg (by show blockSize * (k + 1) ≠ 0; omega)]
    refine ⟨_, rfl, rfl, ?_, rfl⟩
    rw [length_store, hlen]
    rw [List.length_take, hlen]
    omega

/-- A call that shows its success is the last one. -/
theorem returns_of_showsSuccess (hpath : m.path ≠ []) (hk : k < lastCall)
    (hs : Trying lastError k s) (hshows : ShowsSuccess m lastError k) :
    Returns (PathLoop.turn m) s (.returned m.path) := by
  have hpos : 0 < m.path.length := List.length_pos_iff.mpr hpath
  have hlen := length_filePath hs
  obtain ⟨hfits, hne⟩ := hshows
  have hstep : PathLoop.turn m s = .ok
      ⟨store (resize s.filePath (s.filePath.length + blockSize)) 0 (m.path ++ [0]),
        (m.onSuccess (blockSize * (k + 1))).getD (lastErrorAt lastError k), m.path.length,
        (m.onSuccess (blockSize * (k + 1))).getD (lastErrorAt lastError k)⟩ := by
    simp only [PathLoop.turn, hs.status, if_true, hlen, size_of_lt hk, getModuleFileNameW,
      hs.lastError]
    rw [if_pos hfits, if_neg (by show m.path.length ≠ 0; omega)]
  apply (returns_of_ok hstep).mpr
  apply returns_of_error
  rw [PathLoop.turn, if_neg hne, resize_of_le]
  · simp only [store, List.take_zero, List.nil_append, List.append_assoc]
    rw [List.take_left]
  · show m.path.length ≤ (store _ 0 (m.path ++ [0])).length
    rw [length_store] <;> rw [hlen]
    · omega
    · rw [List.length_append, List.length_singleton]
      omega

/-- The call whose size is `0` as a `DWORD` fails. -/
theorem threw_of_lastCall (hs : Trying lastError lastCall s) :
    Returns (PathLoop.turn m) s
      (.threw ⟨insufficientBuffer, "GetModuleFileNameW() failed"⟩) := by
  have hlen := length_filePath hs
  apply returns_of_error
  simp only [PathLoop.turn, hs.status, if_true, hlen, size_lastCall, getModuleFileNameW]
  rfl

end Turn

/-! ## All turns -/

section Loop

variable {m : Module} {lastError k : ℕ} {s : PathLoop}

/-- The loop returns the path from a call on that shows its success. -/
theorem returns_path (hpath : m.path ≠ []) {d : ℕ} (hk : k + d < lastCall)
    (hs : Trying lastError k s) (hshows : ShowsSuccess m lastError (k + d)) :
    Returns (PathLoop.turn m) s (.returned m.path) := by
  induction d generalizing k s with
  | zero => exact returns_of_showsSuccess hpath hk hs hshows
  | succ d ih =>
    by_cases hnow : ShowsSuccess m lastError k
    · exact returns_of_showsSuccess hpath (by omega) hs hnow
    · obtain ⟨t, hstep, ht⟩ := turn_goes_on hpath (by omega) hs hnow
      have hnext : k + 1 + d = k + (d + 1) := by omega
      exact (returns_of_ok hstep).mpr (ih (hnext ▸ hk) ht (hnext ▸ hshows))

/-- The loop goes on until the size is `0` when no call shows its success. -/
theorem threw_of_never (hpath : m.path ≠ []) {d : ℕ} (hk : k + d = lastCall)
    (hs : Trying lastError k s)
    (hnever : ∀ j < lastCall, ¬ ShowsSuccess m lastError j) :
    Returns (PathLoop.turn m) s
      (.threw ⟨insufficientBuffer, "GetModuleFileNameW() failed"⟩) := by
  induction d generalizing k s with
  | zero =>
    rw [Nat.add_zero] at hk
    exact threw_of_lastCall (hk ▸ hs)
  | succ d ih =>
    have hlt : k < lastCall := by omega
    obtain ⟨t, hstep, ht⟩ := turn_goes_on hpath hlt hs (hnever k hlt)
    exact (returns_of_ok hstep).mpr (ih (by omega) ht)

/-- An empty path counts as a failure. -/
theorem threw_of_empty (hpath : m.path = []) :
    GetCurrentExecutablePath m lastError
      (.threw ⟨(m.onSuccess blockSize).getD lastError, "GetModuleFileNameW() failed"⟩) := by
  apply returns_of_error
  simp only [PathLoop.turn, PathLoop.start, if_true, length_resize, getModuleFileNameW, hpath]
  rfl

/-- Where success leaves the last error alone, only the first call can show it. -/
theorem exists_showsSuccess_iff (hunchanged : m.onSuccess = fun _ => none) :
    (∃ k < lastCall, ShowsSuccess m lastError k) ↔
      m.path.length < blockSize ∧ lastError ≠ insufficientBuffer := by
  unfold ShowsSuccess lastErrorAt
  simp only [hunchanged, Option.getD_none]
  constructor
  · rintro ⟨k, -, hfits, hne⟩
    have hzero : k = 0 := by
      by_contra hk
      exact hne (if_neg hk)
    rw [hzero] at hfits hne
    exact ⟨hfits, hne⟩
  · intro h
    exact ⟨0, by decide, h⟩

/-- **The path is found exactly if some call shows its success.** The path is that of a module, so
it is not empty, and some call with fewer than `2 ^ 32` characters has room for it and leaves a
last error other than `ERROR_INSUFFICIENT_BUFFER`. -/
theorem getCurrentExecutablePath_iff (m : Module) (lastError : ℕ) :
    GetCurrentExecutablePath m lastError (.returned m.path) ↔
      m.path ≠ [] ∧ ∃ k < lastCall, ShowsSuccess m lastError k := by
  constructor
  · intro hreturns
    by_contra hno
    by_cases hpath : m.path = []
    · exact PathOutcome.noConfusion (hreturns.unique (threw_of_empty hpath))
    · have hnever : ∀ j < lastCall, ¬ ShowsSuccess m lastError j :=
        fun j hj hshows => hno ⟨hpath, j, hj, hshows⟩
      have hthrew := threw_of_never hpath (Nat.zero_add lastCall) trying_start hnever
      exact PathOutcome.noConfusion (hreturns.unique hthrew)
  · rintro ⟨hpath, k, hk, hshows⟩
    rw [← Nat.zero_add k] at hk hshows
    exact returns_path hpath hk trying_start hshows

/-- A short path, asked for behind a call that has left `ERROR_INSUFFICIENT_BUFFER` in the
thread. -/
theorem not_getCurrentExecutablePath :
    ¬ GetCurrentExecutablePath ⟨[67, 58, 92, 97], fun _ => none⟩ insufficientBuffer
      (.returned [67, 58, 92, 97]) := by
  have hnever : ∀ j < lastCall,
      ¬ ShowsSuccess ⟨[67, 58, 92, 97], fun _ => none⟩ insufficientBuffer j := by
    intro j hj hshows
    exact ((exists_showsSuccess_iff rfl).mp ⟨j, hj, hshows⟩).2 rfl
  have hthrew := threw_of_never (m := ⟨[67, 58, 92, 97], fun _ => none⟩) (by decide)
    (Nat.zero_add lastCall) trying_start hnever
  intro hreturns
  exact PathOutcome.noConfusion (hreturns.unique hthrew)

end Loop

end Win32Experiments.FileLockMutex
