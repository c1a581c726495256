import Mathlib.Algebra.Group.Nat.Defs
import Win32Experiments.ClientServerLib.Construction
import Win32Experiments.Foundation.Extent

/-!
# The layout of a `TypedArray`

The constructor asks for a mapping of ten elements, puts the shared count in front of them and the
elements behind the count. So the elements that fit are those with as many bytes of elements
behind them as the count takes.
-/

namespace Win32Experiments.ClientServerLib

open Foundation

/-! ## The constructor -/

/-- `sizeof(T)` and `alignof(T)` of the element type. -/
structure ElementType where
  size : ℕ
  alignment : ℕ
  size_pos : 0 < size
  alignment_dvd : alignment ∣ size

/-- `sizeof(int)`. -/
def sizeofInt : ℕ := 4

theorem sizeofInt_pos : 0 < sizeofInt := Nat.succ_pos 3

/-- The members of a `TypedArray`; the pointers are offsets in the view. -/
structure TypedArrayMembers where
  m_mmf : MemoryMappedFile
  m_array : ℕ
  m_currentCount : ℕ
  m_maxElements : ℕ
deriving DecidableEq, Repr

/-- The constructor of `TypedArray`. The size is a `UINT` for the constructor of the mapping;
`wait` is how its own wait for the mutex ends. -/
def TypedArrayMembers.construct (T : ElementType) (name : String) (createNewMutex : Bool)
    (memory : Option ℕ) (caller : ℕ) (outcomes : Outcomes) (wait : Bool) (os : Os) :
    Except String TypedArrayMembers × Os :=
  match MemoryMappedFile.construct name (10 * T.size % 2 ^ 32) createNewMutex memory caller
      outcomes os with
  | (.error what, os) => (.error what, os)
  | (.ok m_mmf, os) =>
    if m_mmf.m_initialised = false then (.error "Failed array vector", m_mmf.destruct os)
    else
      let (m_mmf, os) := m_mmf.lock os caller wait
      -- `i++` moves only the local pointer
      let m_currentCount := 0
      let m_array := 0 + sizeofInt
      let (m_mmf, os) := m_mmf.unlock os caller
      (.ok { m_mmf, m_array, m_currentCount, m_maxElements := 10 }, os)

variable (T : ElementType) (a : TypedArrayMembers)

/-- The bytes of the shared count. -/
def TypedArrayMembers.header : Extent := ⟨a.m_currentCount, sizeofInt⟩

/-- The bytes of `m_array[i]`. -/
def TypedArrayMembers.element (i : ℕ) : Extent := ⟨a.m_array + i * T.size, T.size⟩

/-- The count and the element lie in the mapping and do not overlap. -/
structure TypedArrayMembers.Fits (i : ℕ) : Prop where
  disjoint : a.header.Disjoint (a.element T i)
  header : a.header.Within a.m_mmf.m_maxSize
  element : (a.element T i).Within a.m_mmf.m_maxSize

/-- The bytes of the ten elements that are lost where their size is converted to a `UINT`. -/
def ElementType.cutOff : ℕ := 2 ^ 32 * (10 * T.size / 2 ^ 32)

/-! ## The elements that fit -/

variable {T a} {name : String} {maxSize : ℕ} {createNewMutex : Bool} {memory : Option ℕ}
  {caller : ℕ} {outcomes : Outcomes} {wait : Bool} {os os' : Os}

/-- A mapping that was constructed has the size asked for. -/
theorem maxSize_constructed {file : MemoryMappedFile}
    (h : MemoryMappedFile.construct name maxSize createNewMutex memory caller outcomes os
      = (.ok file, os')) : file.m_maxSize = maxSize := by
  obtain ⟨mutex, waited, mapping, view⟩ := outcomes
  cases mutex with
  | false => cases h
  | true =>
    cases mapping with
    | false => cases h
    | true =>
      cases view with
      | false => cases h
      | true =>
        obtain ⟨hfile, -⟩ := Prod.mk.inj h
        rw [← Except.ok.inj hfile]
        rfl

/-- The members of an array that was constructed. -/
theorem members_constructed
    (h : TypedArrayMembers.construct T name createNewMutex memory caller outcomes wait os
      = (.ok a, os')) :
    a.m_mmf.m_maxSize = 10 * T.size % 2 ^ 32 ∧ a.m_array = sizeofInt ∧ a.m_currentCount = 0 ∧
      a.m_maxElements = 10 := by
  unfold TypedArrayMembers.construct at h
  split at h
  · cases h
  · next file os'' hfile =>
    split at h
    · cases h
    · obtain ⟨ha, -⟩ := Prod.mk.inj h
      have hsize : file.m_maxSize = 10 * T.size % 2 ^ 32 := maxSize_constructed hfile
      rw [← Except.ok.inj ha]
      exact ⟨hsize, rfl, rfl, rfl⟩

/-- **The layout.** Of an array that was constructed, the count and an element fit in the mapping
exactly if the elements behind it take four bytes more than were cut off. So the last element
never fits. -/
theorem fits_iff {i : ℕ}
    (h : TypedArrayMembers.construct T name createNewMutex memory caller outcomes wait os
      = (.ok a, os'))
    (hi : i < a.m_maxElements) :
    a.Fits T i ↔ sizeofInt + T.cutOff ≤ (a.m_maxElements - 1 - i) * T.size := by
  obtain ⟨hsize, harray, hcount, hmax⟩ := members_constructed h
  have hdiv := Nat.div_add_mod (10 * T.size) (2 ^ 32)
  -- the elements up to this one and those behind it are all ten
  have hten : (i + 1) * T.size + (a.m_maxElements - 1 - i) * T.size = 10 * T.size := by
    rw [← Nat.add_mul]
    congr 1
    omega
  have hstop : (i + 1) * T.size = i * T.size + T.size := Nat.succ_mul i T.size
  have hfour : sizeofInt = 4 := rfl
  rw [ElementType.cutOff]
  constructor
  · rintro ⟨-, -, helement⟩
    rw [TypedArrayMembers.element, Extent.within_mk, harray, hsize] at helement
    omega
  · intro hroom
    refine ⟨?_, ?_, ?_⟩
    · left
      show a.m_currentCount + sizeofInt ≤ a.m_array + i * T.size
      omega
    · rw [TypedArrayMembers.header, Extent.within_mk, hsize, hcount]
      omega
    · rw [TypedArrayMembers.element, Extent.within_mk, harray, hsize]
      omega

/-- An array of `int`. -/
def intElement : ElementType where
  size := sizeofInt
  alignment := sizeofInt
  size_pos := sizeofInt_pos
  alignment_dvd := Nat.dvd_refl sizeofInt

/-- The array of `int` that the first process constructs. -/
def intArray : TypedArrayMembers where
  m_mmf :=
    { MemoryMappedFile.init "Data" 40 true none with
      m_MapFile := some 1, m_Mutex := some 0, m_View := some 0, m_initialised := true }
  m_array := 4
  m_currentCount := 0
  m_maxElements := 10

theorem fits_intArray : intArray.Fits intElement 8 := by
  have hconstruct : (TypedArrayMembers.construct intElement "Data" true none 0
      ⟨true, true, true, true⟩ true (.start false)).1 = .ok intArray := by decide
  exact (fits_iff (Prod.ext hconstruct rfl) (by decide)).mpr (by decide)

/-- Its last element ends four bytes behind the mapping. -/
theorem lastElement_counterexample :
    (TypedArrayMembers.construct intElement "Data" true none 0 ⟨true, true, true, true⟩ true
      (.start false)).1 = .ok intArray ∧ 9 < intArray.m_maxElements ∧
    ¬ intArray.Fits intElement 9 := by
  refine ⟨by decide, by decide, ?_⟩
  rintro ⟨-, -, helement⟩
  exact absurd helement (by decide)

end Win32Experiments.ClientServerLib
