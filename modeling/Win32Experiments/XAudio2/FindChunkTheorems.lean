import Mathlib.Data.Finite.Prod
import Mathlib.Data.FinEnum
import Win32Experiments.XAudio2.FindChunk

/-!
# How `FindChunk` ends

The loop is left at the first header that carries the id, and at a jump that fails. Its pointer
stays within the file and the places that 32 bits can name, so it runs for ever exactly if it comes
back to a place with the same values in its variables.

* `turn_eq_ok_iff`, `passData_eq_ok_iff`: what one turn does;
* `exists_returns_turn_iff`: when the loop ends;
* `turn_ok_iff`: when a turn leaves with `S_OK`;
* `returns_atEnd`: how it ends where nothing is left to read.
-/

namespace Win32Experiments.XAudio2

open Foundation

variable {file : List UInt8} {fourcc : UInt32} {p q : Place} {r : Result} {pointer : ℕ}

/-! ## Reads -/

theorem le_behindRead (file : List UInt8) (pointer : ℕ) : pointer ≤ behindRead file pointer :=
  Nat.le_add_right _ _

theorem behindRead_le (file : List UInt8) (pointer : ℕ) :
    behindRead file pointer ≤ max file.length pointer := by
  rw [behindRead, length_window_eq_min]
  omega

/-- A read gets on as long as there is something left. -/
theorem lt_behindRead (h : pointer < file.length) : pointer < behindRead file pointer := by
  rw [behindRead, length_window_eq_min]
  omega

theorem behindRead_of_le (h : pointer + 4 ≤ file.length) :
    behindRead file pointer = pointer + 4 := by
  rw [behindRead, length_window h]

/-- At the end of the file a read does not move the pointer. -/
theorem behindRead_of_length_le (h : file.length ≤ pointer) :
    behindRead file pointer = pointer := by
  rw [behindRead, length_window_eq_min]
  omega

/-- At the end of the file the variable stays as it is. -/
theorem readDword_of_length_le (h : file.length ≤ pointer) (old : UInt32) :
    readDword file pointer old = old := by
  have hnone : window file pointer 4 = [] := by
    rw [window, List.drop_of_length_le h, List.take_nil]
  have hold : old.toNat < 256 ^ 4 := old.toNat_lt
  rw [readDword, hnone, store, List.take_zero, List.nil_append, List.nil_append, List.length_nil,
    List.drop_zero, leValue_leBytes hold, UInt32.ofNat_toNat]

/-- A read of four bytes replaces the variable. -/
theorem readDword_of_le (h : pointer + 4 ≤ file.length) (old : UInt32) :
    readDword file pointer old = .ofNat (leValue (window file pointer 4)) := by
  have hlen : (leBytes 4 old.toNat).length ≤ 0 + 4 := by rw [length_leBytes]
  rw [readDword, store, length_window h, List.take_zero, List.nil_append,
    List.drop_of_length_le hlen, List.append_nil]

/-- What a read of four bytes leaves in the variable is in the file. -/
theorem leBytes_readDword (h : pointer + 4 ≤ file.length) (old : UInt32) :
    leBytes 4 (readDword file pointer old).toNat = window file pointer 4 := by
  have hlen : (window file pointer 4).length = 4 := length_window h
  have hlt : leValue (window file pointer 4) < 2 ^ 32 := by
    have := leValue_lt (window file pointer 4)
    rw [hlen] at this
    exact this
  rw [readDword_of_le h, UInt32.toNat_ofNat', Nat.mod_eq_of_lt hlt]
  calc leBytes 4 (leValue (window file pointer 4))
      = leBytes (window file pointer 4).length (leValue (window file pointer 4)) := by rw [hlen]
    _ = window file pointer 4 := leBytes_leValue _

/-! ## Jumps -/

/-- Where a jump over the data of a header leads. -/
def Place.target (p : Place) : ℤ := p.pointer + toInt32 p.dwChunkDataSize.toNat

theorem setFilePointer_failed {origin : ℕ} {distance : UInt32}
    (h : (origin : ℤ) + toInt32 distance.toNat < 0 ∨
      2 ^ 32 - 1 ≤ (origin : ℤ) + toInt32 distance.toNat) :
    (setFilePointer origin distance).1 = invalidSetFilePointer := by
  rw [setFilePointer]
  split_ifs with hneg hbig
  · rfl
  · rfl
  · show (_ : ℤ).toNat = 2 ^ 32 - 1
    omega

theorem setFilePointer_moved {origin target : ℕ} {distance : UInt32}
    (h : (target : ℤ) = origin + toInt32 distance.toNat) (hlt : target < 2 ^ 32 - 1) :
    setFilePointer origin distance = (target, noError) := by
  rw [setFilePointer, if_neg (by omega), if_neg (by omega), ← h, Int.toNat_natCast]

/-- The code of a jump that fails is `S_OK` exactly for the last place that 32 bits can name. -/
theorem hresult_setFilePointer_eq_sOk_iff {origin : ℕ} {distance : UInt32} :
    hresultFromWin32 (setFilePointer origin distance).2 = sOk ↔
      0 ≤ (origin : ℤ) + toInt32 distance.toNat ∧
        (origin : ℤ) + toInt32 distance.toNat < 2 ^ 32 := by
  have hnegative : hresultFromWin32 errorNegativeSeek ≠ sOk := by decide
  have hparameter : hresultFromWin32 errorInvalidParameter ≠ sOk := by decide
  have hno : hresultFromWin32 noError = sOk := by decide
  rw [setFilePointer]
  split_ifs with hneg hbig
  · exact iff_of_false hnegative (by omega)
  · exact iff_of_false hparameter (by omega)
  · exact iff_of_true hno (by omega)

/-! ## One turn -/

/-- The `switch` lets a header pass. -/
def Place.Passes (p : Place) : Prop :=
  p.dwChunkType = fourccRIFF ∨ 0 ≤ p.target ∧ p.target < 2 ^ 32 - 1

/-- A RIFF header passes, and any other one whose jump leads to a place before the last one that 32
bits can name. -/
theorem passData_eq_ok_iff : p.passData file = .ok q ↔
    p.dwChunkType = fourccRIFF ∧
        q = { p with
          pointer := behindRead file p.pointer
          dwChunkDataSize := 4
          dwRIFFDataSize := p.dwChunkDataSize } ∨
      p.dwChunkType ≠ fourccRIFF ∧ (0 ≤ p.target ∧ p.target < 2 ^ 32 - 1) ∧
        q = { p with pointer := p.target.toNat } := by
  by_cases hriff : p.dwChunkType = fourccRIFF
  · rw [Place.passData, if_pos hriff, Except.ok.injEq]
    constructor
    · intro hq
      exact Or.inl ⟨hriff, hq.symm⟩
    · rintro (⟨-, hq⟩ | ⟨hno, -⟩)
      · exact hq.symm
      · exact absurd hriff hno
  · rw [Place.passData, if_neg hriff]
    show (if (setFilePointer p.pointer p.dwChunkDataSize).1 = invalidSetFilePointer then _
      else _) = _ ↔ _
    by_cases hin : 0 ≤ p.target ∧ p.target < 2 ^ 32 - 1
    · have hcast : (p.target.toNat : ℤ) = p.pointer + toInt32 p.dwChunkDataSize.toNat :=
        Int.toNat_of_nonneg hin.1
      have hlt : p.target.toNat < 2 ^ 32 - 1 := by omega
      have hne : p.target.toNat ≠ invalidSetFilePointer := by
        show _ ≠ 2 ^ 32 - 1
        omega
      rw [setFilePointer_moved hcast hlt, if_neg hne, Except.ok.injEq]
      constructor
      · intro hq
        exact Or.inr ⟨hriff, hin, hq.symm⟩
      · rintro (⟨hyes, -⟩ | ⟨-, -, hq⟩)
        · exact absurd hyes hriff
        · exact hq.symm
    · have hfail : (setFilePointer p.pointer p.dwChunkDataSize).1 = invalidSetFilePointer := by
        apply setFilePointer_failed
        show p.target < 0 ∨ 2 ^ 32 - 1 ≤ p.target
        omega
      rw [if_pos hfail]
      constructor
      · intro hq
        contradiction
      · rintro (⟨hyes, -⟩ | ⟨-, hyes, -⟩)
        · exact absurd hyes hriff
        · exact absurd hyes hin

/-- A jump that fails leaves the loop, with `S_OK` exactly if it has come to the last place that 32
bits can name. -/
theorem passData_failed (h : ¬ p.Passes) :
    ∃ hr, p.passData file = .error ⟨hr, none⟩ ∧ (hr = sOk ↔ p.target = 2 ^ 32 - 1) := by
  rw [Place.Passes, not_or] at h
  obtain ⟨hriff, hin⟩ := h
  have hfail : (setFilePointer p.pointer p.dwChunkDataSize).1 = invalidSetFilePointer := by
    apply setFilePointer_failed
    show p.target < 0 ∨ 2 ^ 32 - 1 ≤ p.target
    omega
  refine ⟨hresultFromWin32 (setFilePointer p.pointer p.dwChunkDataSize).2, ?_, ?_⟩
  · rw [Place.passData, if_neg hriff]
    exact if_pos hfail
  · rw [hresult_setFilePointer_eq_sOk_iff]
    show 0 ≤ p.target ∧ p.target < 2 ^ 32 ↔ _
    omega

/-- What is behind the data of a header that passes. -/
theorem passData_of_passes (h : p.Passes) : ∃ q, p.passData file = .ok q := by
  by_cases hriff : p.dwChunkType = fourccRIFF
  · exact ⟨_, passData_eq_ok_iff.mpr (Or.inl ⟨hriff, rfl⟩)⟩
  · exact ⟨_, passData_eq_ok_iff.mpr (Or.inr ⟨hriff, h.resolve_left hriff, rfl⟩)⟩

/-- The type and the offset are not changed on the way. -/
theorem passData_keeps (h : p.passData file = .ok q) :
    q.dwChunkType = p.dwChunkType ∧ q.dwOffset = p.dwOffset := by
  rcases passData_eq_ok_iff.mp h with ⟨-, rfl⟩ | ⟨-, -, rfl⟩
  · exact ⟨rfl, rfl⟩
  · exact ⟨rfl, rfl⟩

/-- The loop goes on with a chunk of another id, in a file whose RIFF header has a size. -/
theorem compare_eq_ok_iff : p.compare fourcc = .ok q ↔
    (p.dwChunkType ≠ fourcc ∧ p.dwRIFFDataSize ≠ 0) ∧
      q = { p with dwOffset := p.dwOffset + 8 + p.dwChunkDataSize } := by
  have hzero : p.dwRIFFDataSize ≤ bytesRead ↔ p.dwRIFFDataSize = 0 := by
    rw [UInt32.le_iff_toNat_le, ← UInt32.toNat_inj]
    exact Nat.le_zero
  rw [Place.compare]
  simp only [hzero]
  split_ifs with htype hriff
  · exact iff_of_false (by simp) (fun h => h.1.1 htype)
  · exact iff_of_false (by simp) (fun h => h.1.2 hriff)
  · rw [Except.ok.injEq]
    exact ⟨fun h => ⟨⟨htype, hriff⟩, h.symm⟩, fun h => h.2.symm⟩

theorem compare_found (h : p.dwChunkType = fourcc) :
    p.compare fourcc = .error ⟨sOk, some (p.dwChunkDataSize, p.dwOffset + 8)⟩ := by
  rw [Place.compare]
  exact if_pos h

/-- A chunk of another id does not end the loop with `S_OK`. -/
theorem compare_other (h : p.dwChunkType ≠ fourcc) (hr : p.compare fourcc = .error r) :
    r = ⟨sFalse, none⟩ := by
  rw [Place.compare] at hr
  simp only [if_neg h] at hr
  split_ifs at hr with hriff
  exact (Except.error.inj hr).symm

/-- What a turn goes on with. -/
theorem turn_eq_ok_iff : turn file fourcc p = .ok q ↔
    ∃ passed, (p.readHeader file).passData file = .ok passed ∧ passed.compare fourcc = .ok q := by
  rw [turn]
  match (p.readHeader file).passData file with
  | .error r => simp
  | .ok passed => simp

theorem turn_of_ok (h : (p.readHeader file).passData file = .ok q) :
    turn file fourcc p = q.compare fourcc := by
  rw [turn, h]

theorem turn_of_error (h : (p.readHeader file).passData file = .error r) :
    turn file fourcc p = .error r := by
  rw [turn, h]

/-- A turn reads the id, and its header passes. -/
def Carries (file : List UInt8) (fourcc : UInt32) (p : Place) : Prop :=
  (p.readHeader file).dwChunkType = fourcc ∧ (p.readHeader file).Passes

/-- A turn jumps to the last place that 32 bits can name. -/
def LandsLast (file : List UInt8) (p : Place) : Prop :=
  (p.readHeader file).dwChunkType ≠ fourccRIFF ∧ (p.readHeader file).target = 2 ^ 32 - 1

/-- A turn leaves with `S_OK` at the id, and at a jump that it takes for a failed one. -/
theorem turn_ok_iff : (∃ r, turn file fourcc p = .error r ∧ r.hr = sOk) ↔
    Carries file fourcc p ∨ LandsLast file p := by
  by_cases hpass : (p.readHeader file).Passes
  · obtain ⟨passed, hpassed⟩ := passData_of_passes hpass
    have hnot : ¬ LandsLast file p := by
      rintro ⟨hriff, hlast⟩
      have := hpass.resolve_left hriff
      omega
    have htype := (passData_keeps hpassed).1
    rw [turn_of_ok hpassed, or_iff_left hnot]
    constructor
    · rintro ⟨r, hr, hok⟩
      refine ⟨?_, hpass⟩
      by_contra hother
      rw [compare_other (htype ▸ hother) hr] at hok
      exact absurd hok (by decide)
    · rintro ⟨hcarries, -⟩
      exact ⟨_, compare_found (htype.trans hcarries), rfl⟩
  · obtain ⟨hr, hfailed, hok⟩ := passData_failed hpass
    have hnot : ¬ Carries file fourcc p := fun h => hpass h.2
    have hriff : (p.readHeader file).dwChunkType ≠ fourccRIFF := fun h => hpass (Or.inl h)
    rw [turn_of_error hfailed, or_iff_right hnot, LandsLast, and_iff_right hriff, ← hok]
    constructor
    · rintro ⟨r, hr', hok'⟩
      rw [Except.error.injEq] at hr'
      rw [← hr'] at hok'
      exact hok'
    · intro h
      exact ⟨⟨hr, none⟩, rfl, h⟩

/-! ## When the loop ends -/

/-- All that decides where the loop goes. -/
def Place.view (p : Place) : ℕ × UInt32 × UInt32 × UInt32 :=
  (p.pointer, p.dwChunkType, p.dwChunkDataSize, p.dwRIFFDataSize)

/-- The offset decides nothing. -/
theorem turn_view (a b a' : Place) (h : a.view = b.view) (ha : turn file fourcc a = .ok a') :
    ∃ b', turn file fourcc b = .ok b' ∧ a'.view = b'.view := by
  have hb : b = { a with dwOffset := b.dwOffset } := by
    simp only [Place.view, Prod.mk.injEq] at h
    obtain ⟨hpointer, htype, hsize, hriff⟩ := h
    rw [hpointer, htype, hsize, hriff]
  obtain ⟨passed, hpassed, hcompare⟩ := turn_eq_ok_iff.mp ha
  obtain ⟨hgoes, rfl⟩ := compare_eq_ok_iff.mp hcompare
  rw [hb]
  rcases passData_eq_ok_iff.mp hpassed with ⟨hriff, rfl⟩ | ⟨hriff, hin, rfl⟩
  · exact ⟨_, turn_eq_ok_iff.mpr ⟨_, passData_eq_ok_iff.mpr (Or.inl ⟨hriff, rfl⟩),
      compare_eq_ok_iff.mpr ⟨hgoes, rfl⟩⟩, rfl⟩
  · exact ⟨_, turn_eq_ok_iff.mpr ⟨_, passData_eq_ok_iff.mpr (Or.inr ⟨hriff, hin, rfl⟩),
      compare_eq_ok_iff.mpr ⟨hgoes, rfl⟩⟩, rfl⟩

theorem le_readHeader (file : List UInt8) (p : Place) :
    p.pointer ≤ (p.readHeader file).pointer :=
  (le_behindRead _ _).trans (le_behindRead _ _)

theorem readHeader_le (file : List UInt8) (p : Place) :
    (p.readHeader file).pointer ≤ max file.length p.pointer := by
  have h₁ := behindRead_le file p.pointer
  have h₂ := behindRead_le file (behindRead file p.pointer)
  show behindRead file (behindRead file p.pointer) ≤ _
  omega

theorem lt_readHeader (h : p.pointer < file.length) :
    p.pointer < (p.readHeader file).pointer :=
  (lt_behindRead h).trans_le (le_behindRead _ _)

/-- At the end of the file the header is the one before. -/
theorem readHeader_of_length_le (h : file.length ≤ p.pointer) : p.readHeader file = p := by
  rw [Place.readHeader, behindRead_of_length_le h, behindRead_of_length_le h,
    readDword_of_length_le h, readDword_of_length_le h]

/-- The pointer stays in the file, or at a place that 32 bits can name. -/
theorem turn_pointer_le (h : turn file fourcc p = .ok q)
    (hp : p.pointer ≤ max file.length (2 ^ 32)) : q.pointer ≤ max file.length (2 ^ 32) := by
  have hheader := readHeader_le file p
  obtain ⟨passed, hpassed, hcompare⟩ := turn_eq_ok_iff.mp h
  obtain ⟨-, rfl⟩ := compare_eq_ok_iff.mp hcompare
  rcases passData_eq_ok_iff.mp hpassed with ⟨-, rfl⟩ | ⟨-, hin, rfl⟩
  · have hread := behindRead_le file (p.readHeader file).pointer
    show behindRead file (p.readHeader file).pointer ≤ _
    omega
  · show (p.readHeader file).target.toNat ≤ _
    omega

/-- A jump over data of `2 ^ 31` bytes or more goes backwards. -/
def JumpsBack (file : List UInt8) (p : Place) : Prop :=
  (p.readHeader file).dwChunkType ≠ fourccRIFF ∧
    2 ^ 31 ≤ (p.readHeader file).dwChunkDataSize.toNat

/-- Nothing is left to read, and the variables hold a header that the loop passes without getting
on: a RIFF header, or one of a chunk without data. -/
def Stuck (file : List UInt8) (fourcc : UInt32) (p : Place) : Prop :=
  file.length ≤ p.pointer ∧ p.dwChunkType ≠ fourcc ∧
    if p.dwChunkType = fourccRIFF then p.dwChunkDataSize ≠ 0
    else p.dwChunkDataSize = 0 ∧ p.dwRIFFDataSize ≠ 0 ∧ p.pointer < invalidSetFilePointer

/-- Where a forward jump leads. -/
theorem target_of_lt (h : p.dwChunkDataSize.toNat < 2 ^ 31) :
    p.target = p.pointer + p.dwChunkDataSize.toNat := by
  rw [Place.target, toInt32_of_lt h]

/-- Without a jump backwards a turn does not go back, and it gets on unless it is stuck. -/
theorem turn_forward (h : turn file fourcc p = .ok q) (hback : ¬ JumpsBack file p) :
    p.pointer ≤ q.pointer ∧ (q.pointer = p.pointer → Stuck file fourcc p) := by
  have hheader := le_readHeader file p
  have hend : (p.readHeader file).pointer = p.pointer → file.length ≤ p.pointer := by
    intro hsame
    by_contra hleft
    have := lt_readHeader (not_le.mp hleft)
    omega
  obtain ⟨passed, hpassed, hcompare⟩ := turn_eq_ok_iff.mp h
  obtain ⟨hgoes, rfl⟩ := compare_eq_ok_iff.mp hcompare
  rcases passData_eq_ok_iff.mp hpassed with ⟨hriff, rfl⟩ | ⟨hriff, hin, rfl⟩
  · have hread := le_behindRead file (p.readHeader file).pointer
    refine ⟨hheader.trans hread, fun hsame => ?_⟩
    have hlength : file.length ≤ p.pointer := by
      apply hend
      have : behindRead file (p.readHeader file).pointer = p.pointer := hsame
      omega
    rw [readHeader_of_length_le hlength] at hriff hgoes
    refine ⟨hlength, hgoes.1, ?_⟩
    rw [if_pos hriff]
    exact hgoes.2
  · have hsize : (p.readHeader file).dwChunkDataSize.toNat < 2 ^ 31 := by
      by_contra hbig
      exact hback ⟨hriff, not_lt.mp hbig⟩
    have htarget := target_of_lt hsize
    have hmoved : (p.readHeader file).target.toNat =
        (p.readHeader file).pointer + (p.readHeader file).dwChunkDataSize.toNat := by
      omega
    show p.pointer ≤ (p.readHeader file).target.toNat ∧
      ((p.readHeader file).target.toNat = p.pointer → _)
    refine ⟨by omega, fun hsame => ?_⟩
    have hlength : file.length ≤ p.pointer := hend (by omega)
    rw [readHeader_of_length_le hlength] at hriff hgoes hmoved htarget hin hsame
    refine ⟨hlength, hgoes.1, ?_⟩
    rw [if_neg hriff, ← UInt32.toNat_inj]
    refine ⟨?_, hgoes.2, ?_⟩
    · show _ = 0
      omega
    · show _ < 2 ^ 32 - 1
      omega

/-- At the end of the file a turn passes the header that the variables hold. -/
theorem turn_of_length_le (h : file.length ≤ p.pointer) (hpass : p.passData file = .ok q) :
    turn file fourcc p = q.compare fourcc := by
  apply turn_of_ok
  rw [readHeader_of_length_le h]
  exact hpass

/-- A place that is stuck is left for one that is stuck as well. -/
theorem turn_of_stuck (h : Stuck file fourcc p) :
    ∃ q, turn file fourcc p = .ok q ∧ Stuck file fourcc q := by
  obtain ⟨hlength, hother, hstuck⟩ := h
  by_cases hriff : p.dwChunkType = fourccRIFF
  · rw [if_pos hriff] at hstuck
    have hpass : p.passData file = .ok _ := passData_eq_ok_iff.mpr (Or.inl ⟨hriff, rfl⟩)
    have hturn : turn file fourcc p = .ok _ := (turn_of_length_le hlength hpass).trans
      (compare_eq_ok_iff.mpr ⟨⟨hother, hstuck⟩, rfl⟩)
    refine ⟨_, hturn, hlength.trans (le_behindRead _ _), hother, ?_⟩
    show if p.dwChunkType = fourccRIFF then (4 : UInt32) ≠ 0 else _
    rw [if_pos hriff]
    decide
  · rw [if_neg hriff] at hstuck
    obtain ⟨hsize, hfile, hlt⟩ := hstuck
    have htarget : p.target = p.pointer := by
      rw [target_of_lt (by rw [hsize]; decide), hsize]
      exact Int.add_zero _
    have hin : 0 ≤ p.target ∧ p.target < 2 ^ 32 - 1 := by
      have : p.pointer < 2 ^ 32 - 1 := hlt
      omega
    have hsame : p.target.toNat = p.pointer := by omega
    have hpass : p.passData file = .ok _ := passData_eq_ok_iff.mpr (Or.inr ⟨hriff, hin, rfl⟩)
    have hturn : turn file fourcc p = .ok _ := (turn_of_length_le hlength hpass).trans
      (compare_eq_ok_iff.mpr ⟨⟨hother, hfile⟩, rfl⟩)
    refine ⟨_, hturn, ?_, hother, ?_⟩
    · show file.length ≤ p.target.toNat
      omega
    · show if p.dwChunkType = fourccRIFF then _ else p.dwChunkDataSize = 0 ∧
        p.dwRIFFDataSize ≠ 0 ∧ p.target.toNat < invalidSetFilePointer
      rw [if_neg hriff, hsame]
      exact ⟨hsize, hfile, hlt⟩

/-- From a place that is stuck the loop never ends. -/
theorem not_returns_of_stuck (h : Stuck file fourcc p) : ¬ Returns (turn file fourcc) p r :=
  not_returns (fun _ => turn_of_stuck) h

/-- Either there is a jump backwards on the way, or the pointer has not gone back. -/
theorem reachesAgain_forward (h : ReachesAgain (turn file fourcc) p q) :
    (∃ s, Reaches (turn file fourcc) p s ∧ JumpsBack file s ∧
      ReachesAgain (turn file fourcc) s q) ∨
    ¬ JumpsBack file p ∧ ∃ s, turn file fourcc p = .ok s ∧ s.pointer ≤ q.pointer := by
  induction h with
  | single hturn =>
    by_cases hback : JumpsBack file p
    · exact Or.inl ⟨p, .refl, hback, .single hturn⟩
    · exact Or.inr ⟨hback, _, hturn, le_rfl⟩
  | @tail b c hreach hturn ih =>
    rcases ih with ⟨s, hs, hback, hagain⟩ | ⟨hfirst, s, hs, hle⟩
    · exact Or.inl ⟨s, hs, hback, hagain.tail hturn⟩
    · by_cases hback : JumpsBack file b
      · exact Or.inl ⟨b, hreach.to_reflTransGen, hback, .single hturn⟩
      · exact Or.inr ⟨hfirst, s, hs, hle.trans (turn_forward hturn hback).1⟩

/-- The places that the loop comes to show finitely many views. -/
theorem finite_view (hp : p.pointer ≤ max file.length (2 ^ 32)) :
    (Place.view '' {q | Reaches (turn file fourcc) p q}).Finite := by
  apply ((Set.finite_le_nat (max file.length (2 ^ 32))).prod Set.finite_univ).subset
  rintro _ ⟨q, hreach, rfl⟩
  refine ⟨?_, Set.mem_univ _⟩
  exact hreach.invariant (fun s t hs hturn => turn_pointer_le hturn hs) hp

/-- **Termination.** The loop ends exactly if it comes to no place where it is stuck, and no jump
backwards leads it to where it has been, with the same values in its variables. -/
theorem exists_returns_turn_iff (hp : p.pointer ≤ max file.length (2 ^ 32)) :
    (∃ r, Returns (turn file fourcc) p r) ↔
      ∀ q, Reaches (turn file fourcc) p q → ¬ Stuck file fourcc q ∧
        (JumpsBack file q → ∀ s, ReachesAgain (turn file fourcc) q s → q.view ≠ s.view) := by
  have hfinite : (Place.view '' {q | Reaches (turn file fourcc) p q}).Finite := finite_view hp
  have hiff := exists_returns_iff turn_view hfinite
  constructor
  · intro hends q hreach
    refine ⟨fun hstuck => ?_, fun _ s hagain => hiff.mp hends q s hreach hagain⟩
    obtain ⟨r, hr⟩ := hends
    exact not_returns_of_stuck hstuck ((returns_of_reaches hreach).mp hr)
  · intro h
    rw [hiff]
    intro q s hreach hagain hsame
    rcases reachesAgain_forward hagain with ⟨b, hb, hback, hrest⟩ | ⟨hback, t, hturn, hle⟩
    · obtain ⟨b', hb', hsame'⟩ := reaches_congr turn_view hsame hb
      exact (h b (hreach.trans hb)).2 hback b' (hrest.trans_left hb') hsame'
    · have hpointer : q.pointer = s.pointer := congrArg Prod.fst hsame
      have hforward := turn_forward hturn hback
      exact (h q hreach).1 (hforward.2 (by omega))

/-! ## At the end of the file -/

/-- Nothing is left to read, the variables hold this header, and the file is a RIFF file. -/
structure AtEnd (file : List UInt8) (id size : UInt32) (p : Place) : Prop where
  atEnd : file.length ≤ p.pointer
  dwChunkType : p.dwChunkType = id
  dwChunkDataSize : p.dwChunkDataSize = size
  dwRIFFDataSize : p.dwRIFFDataSize ≠ 0

section

variable {id size : UInt32}

theorem AtEnd.readHeader (h : AtEnd file id size p) : p.readHeader file = p :=
  readHeader_of_length_le h.atEnd

theorem AtEnd.target (h : AtEnd file id size p) (hforward : size.toNat < 2 ^ 31) :
    p.target = p.pointer + size.toNat := by
  rw [Place.target, h.dwChunkDataSize, toInt32_of_lt hforward]

/-- The header is passed again and again. -/
theorem AtEnd.turn (h : AtEnd file id size p) (hriff : id ≠ fourccRIFF)
    (hforward : size.toNat < 2 ^ 31) (hturn : turn file fourcc p = .ok q) :
    AtEnd file id size q ∧ q.pointer = p.pointer + size.toNat ∧ q.pointer < 2 ^ 32 - 1 := by
  have hatEnd := h.atEnd
  have htarget := h.target hforward
  obtain ⟨passed, hpassed, hcompare⟩ := turn_eq_ok_iff.mp hturn
  obtain ⟨-, rfl⟩ := compare_eq_ok_iff.mp hcompare
  rw [h.readHeader] at hpassed
  rcases passData_eq_ok_iff.mp hpassed with ⟨hyes, -⟩ | ⟨-, hin, rfl⟩
  · exact absurd (h.dwChunkType.symm.trans hyes) hriff
  · have hmoved : p.target.toNat = p.pointer + size.toNat := by omega
    refine ⟨⟨?_, h.dwChunkType, h.dwChunkDataSize, h.dwRIFFDataSize⟩, hmoved, ?_⟩
    · show file.length ≤ p.target.toNat
      omega
    · show p.target.toNat < _
      omega

/-- The turn that does not pass it leaves at a jump that fails. -/
theorem AtEnd.leaves (h : AtEnd file id size p) (hriff : id ≠ fourccRIFF) (hother : id ≠ fourcc)
    (hforward : size.toNat < 2 ^ 31) (hturn : XAudio2.turn file fourcc p = .error r) :
    2 ^ 32 - 1 ≤ p.pointer + size.toNat ∧
      (r.hr = sOk ↔ p.pointer + size.toNat = 2 ^ 32 - 1) := by
  have htarget := h.target hforward
  have hnot : ¬ p.Passes := by
    intro hpass
    obtain ⟨passed, hpassed⟩ : ∃ q, p.passData file = .ok q := passData_of_passes hpass
    obtain ⟨q, hnext⟩ : ∃ q, passed.compare fourcc = .ok q := by
      refine ⟨_, compare_eq_ok_iff.mpr ⟨⟨?_, ?_⟩, rfl⟩⟩
      · rw [(passData_keeps hpassed).1, h.dwChunkType]
        exact hother
      · rcases passData_eq_ok_iff.mp hpassed with ⟨hyes, -⟩ | ⟨-, -, rfl⟩
        · exact absurd (h.dwChunkType.symm.trans hyes) hriff
        · exact h.dwRIFFDataSize
    rw [← h.readHeader] at hpassed
    rw [turn_of_ok hpassed, hnext] at hturn
    contradiction
  obtain ⟨hr, hfailed, hcode⟩ := passData_failed hnot
  rw [← h.readHeader] at hfailed
  rw [turn_of_error hfailed, Except.error.injEq] at hturn
  obtain rfl := hturn
  rw [Place.Passes, not_or] at hnot
  refine ⟨by omega, hcode.trans ?_⟩
  omega

/-- Behind data of this size, again and again, the loop goes on until a jump fails; it takes a jump
to the last place that 32 bits can name for a success. -/
theorem returns_atEnd (h : AtEnd file id size p) (hriff : id ≠ fourccRIFF) (hother : id ≠ fourcc)
    (hsize : size.toNat ≠ 0) (hforward : size.toNat < 2 ^ 31) (hp : p.pointer < 2 ^ 32 - 1) :
    ∃ r, Returns (turn file fourcc) p r ∧
      (r.hr = sOk ↔ size.toNat ∣ 2 ^ 32 - 1 - p.pointer) := by
  let Inv : Place → Prop := fun q => AtEnd file id size q ∧ q.pointer < 2 ^ 32 - 1 ∧
    ∃ k, q.pointer = p.pointer + size.toNat * k
  have hturn : ∀ s t, Inv s → turn file fourcc s = .ok t → Inv t := by
    rintro s t ⟨hs, -, k, hk⟩ hst
    obtain ⟨ht, hmoved, hlt⟩ := hs.turn hriff hforward hst
    exact ⟨ht, hlt, k + 1, by rw [hmoved, hk, Nat.mul_succ, Nat.add_assoc]⟩
  have hInv : ∀ q, Reaches (turn file fourcc) p q → Inv q := by
    intro q hreach
    exact hreach.invariant hturn ⟨h, hp, 0, rfl⟩
  have hends : ∃ r, Returns (turn file fourcc) p r := by
    refine (exists_returns_turn_iff (by omega)).mpr fun q hreach => ?_
    obtain ⟨hq, -, -⟩ := hInv q hreach
    refine ⟨?_, fun hback => ?_⟩
    · rintro ⟨-, -, hstuck⟩
      rw [hq.dwChunkType, if_neg hriff, hq.dwChunkDataSize] at hstuck
      exact hsize (UInt32.toNat_inj.mpr hstuck.1)
    · have hbig := hback.2
      rw [hq.readHeader, hq.dwChunkDataSize] at hbig
      omega
  obtain ⟨r, hr⟩ := hends
  obtain ⟨t, hreach, hleave⟩ := returns_iff.mp hr
  obtain ⟨ht, hlt, k, hk⟩ := hInv t hreach
  obtain ⟨hfar, hcode⟩ := ht.leaves hriff hother hforward hleave
  refine ⟨r, hr, hcode.trans ?_⟩
  -- the last place is a whole number of jumps away exactly if the jump that fails leads there
  have hsum : 2 ^ 32 - 1 - p.pointer = size.toNat * k + (2 ^ 32 - 1 - t.pointer) := by omega
  rw [hsum, Nat.dvd_add_right (Nat.dvd_mul_right _ _)]
  constructor
  · intro hlast
    exact Dvd.intro 1 (by omega)
  · intro hdvd
    have hle := Nat.le_of_dvd (by omega) hdvd
    omega

end

/-! ## Where few bytes are left -/

theorem behindRead_behindRead (h : file.length < pointer + 8) :
    behindRead file (behindRead file pointer) = max file.length pointer := by
  rw [behindRead, behindRead, length_window_eq_min, length_window_eq_min]
  omega

/-- Where no header is left to read, a turn is one of the place behind the two reads. -/
theorem turn_readHeader (h : file.length < p.pointer + 8) :
    turn file fourcc (p.readHeader file) = turn file fourcc p := by
  have hend : file.length ≤ (p.readHeader file).pointer := by
    show _ ≤ behindRead file (behindRead file p.pointer)
    rw [behindRead_behindRead h]
    omega
  rw [turn, turn, readHeader_of_length_le hend]

/-- A loop goes on alike from places with the same turn. -/
theorem returns_of_turn_eq {a b : Place} (h : turn file fourcc a = turn file fourcc b) :
    Returns (turn file fourcc) a r ↔ Returns (turn file fourcc) b r := by
  cases hturn : turn file fourcc b with
  | error r' =>
    have ha := returns_of_error (h.trans hturn)
    have hb := returns_of_error hturn
    constructor
    · intro hr
      rw [hr.unique ha]
      exact hb
    · intro hr
      rw [hr.unique hb]
      exact ha
  | ok q => rw [returns_of_ok (h.trans hturn), returns_of_ok hturn]

end Win32Experiments.XAudio2
