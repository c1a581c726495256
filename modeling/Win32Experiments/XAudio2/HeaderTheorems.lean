import Mathlib.Algebra.GroupWithZero.Nat
import Win32Experiments.XAudio2.FindChunkTheorems

/-!
# `FindChunk` by the headers of a file

Whatever a file holds, it may have headers one behind the data of the other: a RIFF header in front,
and then chunks whose data are as long as the headers say, up to the end of the file. The loop keeps
to such headers. It has to end at one of them, or by a jump that fails behind the last one.

* `HasHeaders`: the headers from a place on;
* `RunsOut`: what the last one and the few bytes behind it must be;
* `haltsSoundly_of_headers`: `FindChunk` returns, and with `S_OK` only for an id in the file.
-/

namespace Win32Experiments.XAudio2

open Foundation

/-- `FindChunk` returns, and with `S_OK` only for an id that is in the file. -/
structure HaltsSoundly (file : List UInt8) (fourcc dwChunkType dwChunkDataSize : UInt32) :
    Prop where
  ends : ∃ r, FindsChunk file fourcc dwChunkType dwChunkDataSize r
  occurs : ∀ r, FindsChunk file fourcc dwChunkType dwChunkDataSize r → r.hr = sOk →
    leBytes 4 fourcc.toNat <:+: file

/-! ## Headers -/

/-- An id, and a size. -/
structure Header where
  id : UInt32
  size : UInt32
deriving DecidableEq

/-- The bytes of a header. -/
def Header.bytes (h : Header) : List UInt8 := leBytes 4 h.id.toNat ++ leBytes 4 h.size.toNat

/-- How far the next header is: behind the data, or behind the form type of a RIFF header. -/
def Header.extent (h : Header) : ℕ := if h.id = fourccRIFF then 12 else 8 + h.size.toNat

/-- What is in the variables behind a header; its form type counts as the data of a RIFF header. -/
def Header.kept (h : Header) : Header := if h.id = fourccRIFF then ⟨fourccRIFF, 4⟩ else h

/-- What the bytes that the file has at `position` leave of a header. -/
def Header.overwritten (file : List UInt8) (position : ℕ) (h : Header) : Header :=
  ⟨readDword file position h.id, readDword file (behindRead file position) h.size⟩

/-- From `position` on the file has these headers, each where the one before it says, and none ends
at the last place that 32 bits can name. -/
def HasHeaders (file : List UInt8) : ℕ → List Header → Prop
  | _, [] => True
  | position, h :: headers => window file position 8 = h.bytes ∧
      position + h.extent ≠ invalidSetFilePointer ∧ HasHeaders file (position + h.extent) headers

/-- The place behind headers. -/
def behindHeaders (position : ℕ) (headers : List Header) : ℕ :=
  position + (headers.map Header.extent).sum

/-- What is in the variables behind headers, if `last` was before. -/
def lastKept (last : Header) (headers : List Header) : Header :=
  (headers.map Header.kept).getLast?.getD last

/-- No header is left at `position`. What the bytes there leave of the last one is not RIFF and has
a size below `2 ^ 31`, so that a jump fails in the end; and unless the id is in the file, that is
not the id, and the size does not lead to the last place that 32 bits can name. -/
structure RunsOut (file : List UInt8) (fourcc : UInt32) (position : ℕ) (last : Header) : Prop where
  noRoom : file.length < position + 8
  notRiff : (last.overwritten file position).id ≠ fourccRIFF
  hasData : (last.overwritten file position).size.toNat ≠ 0
  forward : (last.overwritten file position).size.toNat < 2 ^ 31
  inFile : leBytes 4 fourcc.toNat <:+: file ∨ (last.overwritten file position).id ≠ fourcc ∧
    (max file.length position < 2 ^ 32 - 1 →
      ¬ (last.overwritten file position).size.toNat ∣ 2 ^ 32 - 1 - max file.length position)

/-- The headers from `position` on lead to an end: one of them has the id, or is a RIFF header
without a size, or the last one does not keep the loop going. -/
structure LeadsOut (file : List UInt8) (fourcc : UInt32) (position : ℕ) (last : Header)
    (headers : List Header) : Prop where
  laid : HasHeaders file position headers
  forward : ∀ h ∈ headers, h.id = fourccRIFF ∨ h.size.toNat < 2 ^ 31
  ends : (∃ h ∈ headers, h.id = fourcc ∨ h.id = fourccRIFF ∧ h.size = 0) ∨
    RunsOut file fourcc (behindHeaders position headers) (lastKept last headers)

/-- What the first two reads leave in the variables. -/
def firstHeader (file : List UInt8) (dwChunkType dwChunkDataSize : UInt32) : Header :=
  Header.overwritten file 0 ⟨dwChunkType, dwChunkDataSize⟩

/-- Behind a RIFF header with a size there are headers that lead to an end. If the file does not
start with one the loop makes one turn, and a file of less than four bytes must not make the id of
what was in the variable before. -/
structure EndsByHeaders (file : List UInt8) (fourcc dwChunkType dwChunkDataSize : UInt32) :
    Prop where
  riff : (firstHeader file dwChunkType dwChunkDataSize).id = fourccRIFF →
    (firstHeader file dwChunkType dwChunkDataSize).size ≠ 0 → fourcc ≠ fourccRIFF →
    ∃ headers, LeadsOut file fourcc 12 ⟨fourccRIFF, 4⟩ headers
  whole : (firstHeader file dwChunkType dwChunkDataSize).id = fourcc → 4 ≤ file.length

variable {file : List UInt8} {fourcc : UInt32} {p : Place} {position : ℕ} {last h : Header}
  {headers : List Header}

/-! ## What there is of a header -/

/-- The id of a header is in the file. -/
theorem infix_of_header (hlaid : window file position 8 = h.bytes) :
    leBytes 4 h.id.toNat <:+: file := by
  have hin : leBytes 4 h.id.toNat <:+: h.bytes := (List.prefix_append _ _).isInfix
  exact hin.trans (hlaid ▸ isInfix_window file position 8)

theorem room_of_header (hlaid : window file position 8 = h.bytes) : position + 8 ≤ file.length := by
  have hlen := congrArg List.length hlaid
  rw [length_window_eq_min, Header.bytes, List.length_append] at hlen
  simp only [length_leBytes] at hlen
  omega

theorem overwritten_of_length_le (hend : file.length ≤ position) :
    last.overwritten file position = last := by
  rw [Header.overwritten, behindRead_of_length_le hend, readDword_of_length_le hend,
    readDword_of_length_le hend]

/-- A header of eight bytes replaces the one before. -/
theorem overwritten_of_header (hlaid : window file position 8 = h.bytes) :
    last.overwritten file position = h := by
  have hroom := room_of_header hlaid
  have hid : window file position 4 = leBytes 4 h.id.toNat := by
    have htake := congrArg (List.take 4) hlaid
    rw [window, List.take_take, Header.bytes, List.take_left' (length_leBytes _ _)] at htake
    exact htake
  have hsize : window file (position + 4) 4 = leBytes 4 h.size.toNat := by
    have hdrop := congrArg (List.drop 4) hlaid
    rw [window, List.drop_take, List.drop_drop, Header.bytes,
      List.drop_left' (length_leBytes _ _)] at hdrop
    exact hdrop
  have hvalue : ∀ x : UInt32, leValue (leBytes 4 x.toNat) = x.toNat := fun x =>
    leValue_leBytes x.toNat_lt
  rw [Header.overwritten, behindRead_of_le (by omega), readDword_of_le (by omega),
    readDword_of_le (by omega), hid, hsize, hvalue, hvalue, UInt32.ofNat_toNat, UInt32.ofNat_toNat]

theorem HasHeaders.tail (h' : HasHeaders file position (h :: headers)) :
    HasHeaders file (position + h.extent) headers := h'.2.2

/-- Behind a header that the loop passes the other ones lead out. -/
theorem LeadsOut.tail (hout : LeadsOut file fourcc position last (h :: headers))
    (hpass : ¬ (h.id = fourcc ∨ h.id = fourccRIFF ∧ h.size = 0)) :
    LeadsOut file fourcc (position + h.extent) h.kept headers where
  laid := hout.laid.tail
  forward := fun h' hmem => hout.forward h' (List.mem_cons_of_mem _ hmem)
  ends := by
    have hends := hout.ends
    rw [List.exists_mem_cons_iff, or_iff_right hpass] at hends
    have hplace : behindHeaders position (h :: headers) =
        behindHeaders (position + h.extent) headers := by
      rw [behindHeaders, behindHeaders, List.map_cons, List.sum_cons, Nat.add_assoc]
    have hkept : lastKept last (h :: headers) = lastKept h.kept headers := by
      rw [lastKept, lastKept, List.map_cons, List.getLast?_cons, Option.getD_some]
    rwa [hplace, hkept] at hends

/-- A form type, behind which the headers lead out, is in the file. -/
theorem LeadsOut.lt_length (h : LeadsOut file fourcc position ⟨fourccRIFF, 4⟩ headers) :
    position < file.length := by
  cases headers with
  | cons h' headers =>
    have hroom := room_of_header h.laid.1
    omega
  | nil =>
    have hruns := h.ends.resolve_left (by simp)
    by_contra hend
    apply hruns.notRiff
    rw [overwritten_of_length_le]
    · rfl
    · exact not_lt.mp hend

/-! ## From header to header -/

/-- What the variables hold. -/
def Place.header (p : Place) : Header := ⟨p.dwChunkType, p.dwChunkDataSize⟩

/-- A turn that reads the id leaves the loop. -/
theorem exists_turn_of_id (h : (p.readHeader file).dwChunkType = fourcc) :
    ∃ r, turn file fourcc p = .error r := by
  cases hpass : (p.readHeader file).passData file with
  | error r => exact ⟨r, turn_of_error hpass⟩
  | ok passed =>
    refine ⟨_, (turn_of_ok hpass).trans (compare_found ?_)⟩
    rw [(passData_keeps hpass).1, h]

/-- The two reads at a header. -/
theorem readHeader_of_header (hlaid : window file p.pointer 8 = h.bytes) :
    p.readHeader file =
      { p with pointer := p.pointer + 8, dwChunkType := h.id, dwChunkDataSize := h.size } := by
  have hroom := room_of_header hlaid
  have hheader : p.header.overwritten file p.pointer = h := overwritten_of_header hlaid
  have hfirst : behindRead file p.pointer = p.pointer + 4 := behindRead_of_le (by omega)
  have hsecond : behindRead file (p.pointer + 4) = p.pointer + 8 := behindRead_of_le (by omega)
  rw [← hheader, Place.readHeader, hfirst, hsecond, Header.overwritten, hfirst]
  rfl

/-- A RIFF header with a size is passed with its form type. -/
theorem turn_riff (hheader : p.readHeader file =
      { p with pointer := position, dwChunkType := h.id, dwChunkDataSize := h.size })
    (hriff : h.id = fourccRIFF) (hfourcc : fourcc ≠ fourccRIFF) (hsize : h.size ≠ 0)
    (hroom : position + 4 ≤ file.length) :
    turn file fourcc p = .ok ⟨position + 4, fourccRIFF, 4, h.size, p.dwOffset + 8 + 4⟩ := by
  have hread : behindRead file position = position + 4 := behindRead_of_le hroom
  apply turn_eq_ok_iff.mpr
  refine ⟨⟨position + 4, fourccRIFF, 4, h.size, p.dwOffset⟩, passData_eq_ok_iff.mpr (Or.inl ?_),
    compare_eq_ok_iff.mpr ⟨⟨hfourcc.symm, hsize⟩, rfl⟩⟩
  rw [hheader, ← hread, ← hriff]
  exact ⟨rfl, rfl⟩

/-- The data of a chunk are jumped over, where 32 bits can name the place behind them. -/
theorem passData_jump (hheader : p.readHeader file =
      { p with pointer := position, dwChunkType := h.id, dwChunkDataSize := h.size })
    (hchunk : h.id ≠ fourccRIFF) (hforward : h.size.toNat < 2 ^ 31)
    (hlt : position + h.size.toNat < 2 ^ 32 - 1) :
    (p.readHeader file).passData file =
      .ok ⟨position + h.size.toNat, h.id, h.size, p.dwRIFFDataSize, p.dwOffset⟩ := by
  have htarget : (p.readHeader file).target = (position + h.size.toNat : ℕ) := by
    rw [hheader, target_of_lt hforward, Int.natCast_add]
  refine passData_eq_ok_iff.mpr (Or.inr ⟨?_, by omega, ?_⟩)
  · rw [hheader]
    exact hchunk
  · rw [htarget, Int.toNat_natCast, hheader]

/-- A chunk with another id is passed. -/
theorem turn_jump (hheader : p.readHeader file =
      { p with pointer := position, dwChunkType := h.id, dwChunkDataSize := h.size })
    (hchunk : h.id ≠ fourccRIFF) (hother : h.id ≠ fourcc) (hriff : p.dwRIFFDataSize ≠ 0)
    (hforward : h.size.toNat < 2 ^ 31) (hlt : position + h.size.toNat < 2 ^ 32 - 1) :
    turn file fourcc p = .ok ⟨position + h.size.toNat, h.id, h.size, p.dwRIFFDataSize,
      p.dwOffset + 8 + h.size⟩ :=
  turn_eq_ok_iff.mpr ⟨_, passData_jump hheader hchunk hforward hlt,
    compare_eq_ok_iff.mpr ⟨⟨hother, hriff⟩, rfl⟩⟩

/-- A chunk with the id is found. -/
theorem turn_found (hheader : p.readHeader file =
      { p with pointer := position, dwChunkType := h.id, dwChunkDataSize := h.size })
    (hchunk : h.id ≠ fourccRIFF) (hid : h.id = fourcc) (hforward : h.size.toNat < 2 ^ 31)
    (hlt : position + h.size.toNat < 2 ^ 32 - 1) :
    turn file fourcc p = .error ⟨sOk, some (h.size, p.dwOffset + 8)⟩ :=
  (turn_of_ok (passData_jump hheader hchunk hforward hlt)).trans (compare_found hid)

/-- A jump that fails leaves with another code than `S_OK`, but at the last place that 32 bits can
name. -/
theorem turn_fails (hheader : p.readHeader file =
      { p with pointer := position, dwChunkType := h.id, dwChunkDataSize := h.size })
    (hchunk : h.id ≠ fourccRIFF) (hforward : h.size.toNat < 2 ^ 31)
    (hlt : 2 ^ 32 - 1 < position + h.size.toNat) :
    ∃ r, turn file fourcc p = .error r ∧ r.hr ≠ sOk := by
  have htarget : (p.readHeader file).target = (position + h.size.toNat : ℕ) := by
    rw [hheader, target_of_lt hforward, Int.natCast_add]
  have hnot : ¬ (p.readHeader file).Passes := by
    rw [Place.Passes, hheader, ← hheader, not_or]
    refine ⟨?_, by omega⟩
    rw [hheader]
    exact hchunk
  obtain ⟨hr, hfailed, hcode⟩ := passData_failed hnot
  refine ⟨_, turn_of_error hfailed, fun hok => ?_⟩
  have hlast := hcode.mp hok
  omega

/-- A RIFF header without a size ends the loop. -/
theorem turn_empty (hheader : p.readHeader file =
      { p with pointer := position, dwChunkType := h.id, dwChunkDataSize := h.size })
    (hriff : h.id = fourccRIFF) (hother : h.id ≠ fourcc) (hsize : h.size = 0) :
    turn file fourcc p = .error ⟨sFalse, none⟩ := by
  have hpass : (p.readHeader file).passData file =
      .ok ⟨behindRead file position, h.id, 4, h.size, p.dwOffset⟩ := by
    rw [hheader]
    exact passData_eq_ok_iff.mpr (Or.inl ⟨hriff, rfl⟩)
  rw [turn_of_ok hpass, Place.compare, hsize]
  exact (if_neg hother).trans (if_pos (UInt32.le_refl 0))

/-- Behind the last header the loop returns. -/
theorem returns_of_runsOut (hruns : RunsOut file fourcc p.pointer p.header)
    (hriff : p.dwRIFFDataSize ≠ 0) :
    ∃ r, Returns (turn file fourcc) p r ∧ (r.hr = sOk → leBytes 4 fourcc.toNat <:+: file) := by
  let held := p.header.overwritten file p.pointer
  have hend : AtEnd file held.id held.size (p.readHeader file) := by
    refine ⟨?_, rfl, rfl, hriff⟩
    show _ ≤ behindRead file (behindRead file p.pointer)
    rw [behindRead_behindRead hruns.noRoom]
    exact le_max_left _ _
  have hpointer : (p.readHeader file).pointer = max file.length p.pointer :=
    behindRead_behindRead hruns.noRoom
  by_cases hid : held.id = fourcc
  · obtain ⟨r, hr⟩ := exists_turn_of_id hid
    have hin := hruns.inFile.resolve_right (fun h => h.1 hid)
    exact ⟨r, returns_of_error hr, fun _ => hin⟩
  · have hreturns : ∀ r, Returns (turn file fourcc) (p.readHeader file) r ↔
        Returns (turn file fourcc) p r := fun r => returns_of_turn_eq (turn_readHeader hruns.noRoom)
    simp only [← hreturns]
    by_cases hlt : max file.length p.pointer < 2 ^ 32 - 1
    · obtain ⟨r, hr, hcode⟩ := returns_atEnd hend hruns.notRiff hid hruns.hasData hruns.forward
        (hpointer ▸ hlt)
      refine ⟨r, hr, fun hok => ?_⟩
      rw [hpointer] at hcode
      rcases hruns.inFile with hin | ⟨-, hmiss⟩
      · exact hin
      · exact absurd (hcode.mp hok) (hmiss hlt)
    · -- the first jump fails, and not at the last place
      have hpos : 0 < held.size.toNat := Nat.pos_of_ne_zero hruns.hasData
      cases hturn : turn file fourcc (p.readHeader file) with
      | ok q =>
        obtain ⟨-, hmoved, hbelow⟩ := hend.turn hruns.notRiff hruns.forward hturn
        omega
      | error r =>
        obtain ⟨-, hcode⟩ := hend.leaves hruns.notRiff hid hruns.forward hturn
        refine ⟨r, returns_of_error hturn, fun hok => ?_⟩
        have hlast := hcode.mp hok
        omega

/-- **Headers that lead out.** The loop returns, and with `S_OK` only for an id in the file. -/
theorem returns_of_leadsOut (hout : LeadsOut file fourcc p.pointer p.header headers)
    (hfourcc : fourcc ≠ fourccRIFF) (hriff : p.dwRIFFDataSize ≠ 0) :
    ∃ r, Returns (turn file fourcc) p r ∧ (r.hr = sOk → leBytes 4 fourcc.toNat <:+: file) := by
  induction headers generalizing p with
  | nil => exact returns_of_runsOut (hout.ends.resolve_left (by simp)) hriff
  | cons h headers ih =>
    have hlaid := hout.laid.1
    have hheader := readHeader_of_header hlaid
    by_cases hid : h.id = fourcc
    · obtain ⟨r, hr⟩ : ∃ r, turn file fourcc p = .error r := by
        apply exists_turn_of_id
        rw [hheader]
        exact hid
      exact ⟨r, returns_of_error hr, fun _ => hid ▸ infix_of_header hlaid⟩
    by_cases hchunk : h.id = fourccRIFF
    · by_cases hsize : h.size = 0
      · refine ⟨_, returns_of_error (turn_empty hheader hchunk hid hsize), fun hok => ?_⟩
        exact absurd hok (by decide)
      · have hrest := hout.tail (by tauto)
        have hextent : h.extent = 12 := if_pos hchunk
        have hkept : h.kept = ⟨fourccRIFF, 4⟩ := if_pos hchunk
        rw [hextent, hkept] at hrest
        have hroom := hrest.lt_length
        have hturn := turn_riff hheader hchunk hfourcc hsize (by omega)
        simp only [returns_of_ok hturn]
        exact ih hrest hsize
    · have hforward := (hout.forward h List.mem_cons_self).resolve_left hchunk
      have hrest := hout.tail (by tauto)
      have hextent : h.extent = 8 + h.size.toNat := if_neg hchunk
      have hkept : h.kept = h := if_neg hchunk
      have hne : p.pointer + h.extent ≠ 2 ^ 32 - 1 := hout.laid.2.1
      rw [hextent, ← Nat.add_assoc] at hrest hne
      rw [hkept] at hrest
      by_cases hlt : p.pointer + 8 + h.size.toNat < 2 ^ 32 - 1
      · have hturn := turn_jump hheader hchunk hid hriff hforward hlt
        simp only [returns_of_ok hturn]
        exact ih hrest hriff
      · obtain ⟨r, hr, hcode⟩ : ∃ r, turn file fourcc p = .error r ∧ r.hr ≠ sOk :=
          turn_fails hheader hchunk hforward (by omega)
        exact ⟨r, returns_of_error hr, fun hok => absurd hok hcode⟩

/-! ## From the start of the file -/

section

variable {dwChunkType dwChunkDataSize : UInt32}

/-- A loop with a result that is sound ends soundly, as it has no other one. -/
theorem haltsSoundly_of_returns
    (h : ∃ r, FindsChunk file fourcc dwChunkType dwChunkDataSize r ∧
      (r.hr = sOk → leBytes 4 fourcc.toNat <:+: file)) :
    HaltsSoundly file fourcc dwChunkType dwChunkDataSize := by
  obtain ⟨r, hr, hsound⟩ := h
  refine ⟨⟨r, hr⟩, fun r' hr' hok => hsound ?_⟩
  rw [hr.unique hr']
  exact hok

/-- The first turn reads the first header. -/
theorem readHeader_start :
    (Place.start dwChunkType dwChunkDataSize).readHeader file =
      { Place.start dwChunkType dwChunkDataSize with
        pointer := behindRead file (behindRead file 0)
        dwChunkType := (firstHeader file dwChunkType dwChunkDataSize).id
        dwChunkDataSize := (firstHeader file dwChunkType dwChunkDataSize).size } := rfl

/-- Where no RIFF header with a size comes first the loop makes one turn. -/
theorem turn_start_alone (hother : (firstHeader file dwChunkType dwChunkDataSize).id ≠ fourcc)
    (hled : ¬ ((firstHeader file dwChunkType dwChunkDataSize).id = fourccRIFF ∧
      (firstHeader file dwChunkType dwChunkDataSize).size ≠ 0)) :
    ∃ r, turn file fourcc (.start dwChunkType dwChunkDataSize) = .error r ∧ r.hr ≠ sOk := by
  by_cases hpasses : ((Place.start dwChunkType dwChunkDataSize).readHeader file).Passes
  · obtain ⟨passed, hpass⟩ := passData_of_passes hpasses
    have hzero : passed.dwRIFFDataSize = 0 := by
      rcases passData_eq_ok_iff.mp hpass with ⟨hriff, rfl⟩ | ⟨-, -, rfl⟩
      · by_contra hsize
        exact hled ⟨hriff, hsize⟩
      · rfl
    have htype : passed.dwChunkType ≠ fourcc := by
      rw [(passData_keeps hpass).1]
      exact hother
    refine ⟨⟨sFalse, none⟩, (turn_of_ok hpass).trans ?_, by decide⟩
    rw [Place.compare, hzero]
    exact (if_neg htype).trans (if_pos (UInt32.le_refl 0))
  · obtain ⟨hr, hfailed, hcode⟩ := passData_failed hpasses
    refine ⟨_, turn_of_error hfailed, fun hok => ?_⟩
    -- no size leads from the first eight bytes to the last place that 32 bits can name
    have hlast := hcode.mp hok
    have hpointer : behindRead file (behindRead file 0) ≤ 8 := by
      have hfirst := length_window_eq_min file 0 4
      have hsecond := length_window_eq_min file (behindRead file 0) 4
      rw [behindRead, hsecond, behindRead, hfirst]
      omega
    have hjump : toInt32 (firstHeader file dwChunkType dwChunkDataSize).size.toNat < 2 ^ 31 := by
      have hword := (firstHeader file dwChunkType dwChunkDataSize).size.toNat_lt
      unfold toInt32
      split <;> omega
    have htarget : ((behindRead file (behindRead file 0) : ℕ) : ℤ) +
        toInt32 (firstHeader file dwChunkType dwChunkDataSize).size.toNat = 2 ^ 32 - 1 := hlast
    omega

/-- `FindChunk` returns, and with `S_OK` only for an id that is in the file, if the headers of the
file lead to an end. -/
theorem haltsSoundly_of_headers (file : List UInt8) (fourcc dwChunkType dwChunkDataSize : UInt32)
    (h : EndsByHeaders file fourcc dwChunkType dwChunkDataSize) :
    HaltsSoundly file fourcc dwChunkType dwChunkDataSize := by
  apply haltsSoundly_of_returns
  by_cases hid : (firstHeader file dwChunkType dwChunkDataSize).id = fourcc
  · obtain ⟨r, hr⟩ : ∃ r, turn file fourcc (.start dwChunkType dwChunkDataSize) = .error r :=
      exists_turn_of_id hid
    refine ⟨r, returns_of_error hr, fun _ => ?_⟩
    have hread : leBytes 4 fourcc.toNat = window file 0 4 := by
      rw [← hid]
      exact leBytes_readDword (h.whole hid) dwChunkType
    rw [hread]
    exact isInfix_window file 0 4
  by_cases hled : (firstHeader file dwChunkType dwChunkDataSize).id = fourccRIFF ∧
      (firstHeader file dwChunkType dwChunkDataSize).size ≠ 0
  · obtain ⟨hriff, hsize⟩ := hled
    have hfourcc : fourcc ≠ fourccRIFF := fun heq => hid (hriff.trans heq.symm)
    obtain ⟨headers, hout⟩ := h.riff hriff hsize hfourcc
    have hlong := hout.lt_length
    have hbehind : behindRead file 0 = 4 := behindRead_of_le (by omega)
    have hbehind' : behindRead file 4 = 8 := behindRead_of_le (by omega)
    have hheader := @readHeader_start file dwChunkType dwChunkDataSize
    rw [hbehind, hbehind'] at hheader
    have hturn := turn_riff hheader hriff hfourcc hsize (by omega)
    simp only [FindsChunk, returns_of_ok hturn]
    exact returns_of_leadsOut hout hfourcc hsize
  · obtain ⟨r, hr, hcode⟩ := turn_start_alone hid hled
    exact ⟨r, returns_of_error hr, fun hok => absurd hok hcode⟩

/-- A file of two bytes of format and two bytes of data, for an id that it does not hold: the loop
runs out behind the data. -/
theorem haltsSoundly_wave :
    HaltsSoundly (riffBytes fourccWAVE [⟨fourccFMT, [1, 0], 0⟩, ⟨fourccDATA, [0x80, 0x81], 0⟩])
      0x5453494c 0 0 := by
  apply haltsSoundly_of_headers
  refine ⟨fun _ _ _ => ⟨[⟨fourccFMT, 2⟩, ⟨fourccDATA, 2⟩], ?_, by decide, Or.inr ?_⟩, by decide⟩
  · refine ⟨by decide, by decide, by decide, by decide, trivial⟩
  · refine ⟨by decide, by decide, by decide, by decide, Or.inr ⟨by decide, fun _ => ?_⟩⟩
    decide

/-- A RIFF file without chunks: its header stays in the variables, and is passed for ever. -/
theorem haltsSoundly_counterexample :
    ¬ HaltsSoundly (riffBytes fourccWAVE []) fourccDATA 0 0 := by
  rintro ⟨⟨r, hr⟩, -⟩
  have hfirst : turn (riffBytes fourccWAVE []) fourccDATA (.start 0 0) =
      .ok ⟨12, fourccRIFF, 4, 4, 12⟩ := by decide
  have hstuck : Stuck (riffBytes fourccWAVE []) fourccDATA ⟨12, fourccRIFF, 4, 4, 12⟩ := by
    refine ⟨by decide, by decide, ?_⟩
    rw [if_pos rfl]
    decide
  exact not_returns_of_stuck hstuck ((returns_of_ok hfirst).mp hr)

-- An empty file has the chunk whose id is in the variable that is not initialised.
example : turn [] fourccDATA (.start fourccDATA 0) = .error ⟨sOk, some (0, 8)⟩ := by decide

end

end Win32Experiments.XAudio2
