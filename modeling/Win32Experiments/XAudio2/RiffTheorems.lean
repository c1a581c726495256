import Win32Experiments.XAudio2.HeaderTheorems

/-!
# `FindChunk` on well-formed RIFF files

The loop passes the data of a chunk, but not the byte that pads data of an odd length. So it keeps
to the chunks as long as their lengths are even, and behind one of odd length it takes for headers
what it finds one byte too early. At the end of the file it has to run on until a jump fails, which
takes a last chunk that is not empty.

* `turn_chunk`, `turn_chunk_found`: a turn at the header of a chunk;
* `findsNone_iff`: when the loop leaves as it should behind the last chunk;
* `findsChunks_iff_of_even`: when `FindChunk` finds what a RIFF file has, where no odd length
  misleads it before the last chunk.
-/

namespace Win32Experiments.XAudio2

open Foundation

/-! ## What there is to find -/

/-- From `p` on, the loop comes to an end that says where the chunk sought is, with its data there,
or returns another code than `S_OK` if there is none. -/
def FindsFrom (file : List UInt8) (fourcc : UInt32) (p : Place) : Option (ℕ × Chunk) → Prop
  | some (position, c) => ∃ dwChunkSize dwChunkDataPosition,
      Returns (turn file fourcc) p ⟨sOk, some (dwChunkSize, dwChunkDataPosition)⟩ ∧
      dwChunkSize.toNat = c.data.length ∧ dwChunkDataPosition.toNat = position ∧
      readChunkData file dwChunkSize dwChunkDataPosition = (sOk, c.data)
  | none => ∃ r, Returns (turn file fourcc) p r ∧ r.hr ≠ sOk

/-- `FindChunk` finds the first chunk with the id, if the file has one, and no chunk otherwise. -/
def FindsChunks (f : RiffFile) (fourcc dwChunkType dwChunkDataSize : UInt32) : Prop :=
  FindsFrom f.bytes fourcc (.start dwChunkType dwChunkDataSize) (firstChunk fourcc 12 f.chunks)

/-- The size in the header of a RIFF file. -/
def RiffFile.riffSize (f : RiffFile) : UInt32 := .ofNat (4 + (chunkBytes f.chunks).length)

/-- The header that the variables hold behind the chunk passed last, or behind the RIFF header. -/
def lastHeader : Option Chunk → UInt32 × UInt32
  | none => (fourccRIFF, 4)
  | some c => (c.id, .ofNat c.data.length)

/-- The place at `position`, after the chunk `last`. -/
def Place.behind (riffSize : UInt32) (position : ℕ) (last : Option Chunk) : Place :=
  ⟨position, (lastHeader last).1, (lastHeader last).2, riffSize, .ofNat position⟩

/-- Behind the last chunk, which has not the id, a jump over its data fails in the end: it has data;
its id, with the byte of padding read to its front, is neither RIFF nor the id; and its length does
not lead from the end of the file to the last place that 32 bits can name. -/
structure Overshoots (file : List UInt8) (fourcc : UInt32) (c : Chunk) : Prop where
  hasData : c.data ≠ []
  notRiff : readDword file (file.length - c.data.length % 2) c.id ≠ fourccRIFF
  other : readDword file (file.length - c.data.length % 2) c.id ≠ fourcc
  misses : ¬ c.data.length ∣ 2 ^ 32 - 1 - file.length

variable {file pre post : List UInt8} {fourcc riffSize : UInt32} {p q : Place} {n position : ℕ}
  {last : Option Chunk} {c : Chunk} {chunks : List Chunk} {sought : Option (ℕ × Chunk)}

/-- `ReadChunkData` at the position of a chunk. -/
theorem readChunkData_eq {size offset : UInt32} (hoffset : offset.toNat < 2 ^ 31) :
    readChunkData file size offset = (sOk, window file offset.toNat size.toNat) := by
  have hcast : (offset.toNat : ℤ) = (0 : ℕ) + toInt32 offset.toNat := by
    rw [toInt32_of_lt hoffset]
    omega
  have hlt : offset.toNat < 2 ^ 32 - 1 := by omega
  have hne : offset.toNat ≠ invalidSetFilePointer := by
    show _ ≠ 2 ^ 32 - 1
    omega
  rw [readChunkData, setFilePointer_moved hcast hlt]
  exact if_neg hne

/-! ## A turn at a header -/

theorem length_bytes (c : Chunk) :
    c.bytes.length = 8 + c.data.length + c.data.length % 2 := by
  simp only [Chunk.bytes, List.length_append, length_leBytes]
  split_ifs with heven
  · rw [List.length_nil]
    omega
  · rw [List.length_singleton]
    omega

section

variable (hfile : file = pre ++ c.bytes ++ post) (hshort : file.length < 2 ^ 31)
  (hriff : c.id ≠ fourccRIFF)

include hfile hshort

/-- A chunk ends inside of the file. -/
theorem end_le : pre.length + 8 + c.data.length < 2 ^ 31 := by
  have hlen := length_bytes c
  rw [hfile, List.length_append, List.length_append] at hshort
  omega

theorem toNat_chunkSize : (UInt32.ofNat c.data.length).toNat = c.data.length := by
  have hend := end_le hfile hshort
  exact UInt32.toNat_ofNat_of_lt' (lt_of_le_of_lt (Nat.le_add_left _ _) (hend.trans (by decide)))

/-- The two reads at a chunk. -/
theorem readHeader_chunk (p : Place) (hp : p.pointer = pre.length) : p.readHeader file =
    { p with
      pointer := pre.length + 8
      dwChunkType := c.id
      dwChunkDataSize := .ofNat c.data.length } := by
  have hbytes : file = pre ++ (leBytes 4 c.id.toNat ++ leBytes 4 c.data.length) ++
      (c.data ++ (if c.data.length % 2 = 0 then [] else [c.pad]) ++ post) := by
    rw [hfile, Chunk.bytes]
    simp only [List.append_assoc]
  have hlaid : window file p.pointer 8 = (Header.mk c.id (.ofNat c.data.length)).bytes := by
    have hwindow := window_middle pre (leBytes 4 c.id.toNat ++ leBytes 4 c.data.length)
      (c.data ++ (if c.data.length % 2 = 0 then [] else [c.pad]) ++ post)
    rw [List.length_append, length_leBytes, length_leBytes, ← hbytes] at hwindow
    rw [hp, hwindow, Header.bytes, toNat_chunkSize hfile hshort]
  rw [readHeader_of_header hlaid, hp]

/-- The jump over the data of a chunk stays below `2 ^ 31`. -/
theorem jump_chunk : (Header.mk c.id (.ofNat c.data.length)).size.toNat < 2 ^ 31 ∧
    pre.length + 8 + (Header.mk c.id (.ofNat c.data.length)).size.toNat < 2 ^ 32 - 1 := by
  have hend := end_le hfile hshort
  show (UInt32.ofNat c.data.length).toNat < _ ∧ _ + (UInt32.ofNat c.data.length).toNat < _
  rw [toNat_chunkSize hfile hshort]
  omega

include hriff

/-- A turn at the chunk sought. -/
theorem turn_chunk_found (hid : c.id = fourcc) :
    turn file fourcc (.behind riffSize pre.length last) =
      .error ⟨sOk, some (.ofNat c.data.length, .ofNat (pre.length + 8))⟩ := by
  obtain ⟨hforward, hlt⟩ := jump_chunk hfile hshort
  have hheader := readHeader_chunk hfile hshort (.behind riffSize pre.length last) rfl
  rw [turn_found hheader hriff hid hforward hlt, UInt32.ofNat_add]
  rfl

/-- A turn at another chunk: its data are passed, but not its padding. -/
theorem turn_chunk (hid : c.id ≠ fourcc) (hsize : riffSize ≠ 0) :
    turn file fourcc (.behind riffSize pre.length last) =
      .ok (.behind riffSize (pre.length + 8 + c.data.length) (some c)) := by
  obtain ⟨hforward, hlt⟩ := jump_chunk hfile hshort
  have hheader := readHeader_chunk hfile hshort (.behind riffSize pre.length last) rfl
  rw [turn_jump hheader hriff hid hsize hforward hlt]
  show Except.ok (Place.mk (_ + (UInt32.ofNat c.data.length).toNat) _ _ _ _) =
    .ok (Place.mk _ _ _ _ (.ofNat (pre.length + 8 + _)))
  rw [toNat_chunkSize hfile hshort, UInt32.ofNat_add, UInt32.ofNat_add]
  rfl

end

theorem RiffFile.length_bytes (f : RiffFile) :
    f.bytes.length = 12 + (chunkBytes f.chunks).length := by
  simp only [RiffFile.bytes, riffBytes, List.length_append, length_leBytes]

theorem RiffFile.riffSize_ne (f : RiffFile) : f.riffSize ≠ 0 := by
  have hshort : f.bytes.length < 2 ^ 31 := f.short
  rw [f.length_bytes] at hshort
  have hsize : 4 + (chunkBytes f.chunks).length < 2 ^ 32 := by omega
  rw [RiffFile.riffSize, ne_eq, ← UInt32.toNat_inj, UInt32.toNat_ofNat_of_lt' hsize]
  show 4 + _ ≠ 0
  omega

/-- The first turn passes the RIFF header. -/
theorem turn_start (f : RiffFile) (hfourcc : fourcc ≠ fourccRIFF)
    (dwChunkType dwChunkDataSize : UInt32) :
    turn f.bytes fourcc (.start dwChunkType dwChunkDataSize) =
      .ok (.behind f.riffSize 12 none) := by
  have hshort : f.bytes.length < 2 ^ 31 := f.short
  have hlen := f.length_bytes
  have hsize : 4 + (chunkBytes f.chunks).length < 2 ^ 32 := by omega
  have hlaid : window f.bytes 0 8 = (Header.mk fourccRIFF f.riffSize).bytes := by
    have hwindow := window_middle [] (leBytes 4 fourccRIFF.toNat ++
      leBytes 4 (4 + (chunkBytes f.chunks).length)) (leBytes 4 f.formType.toNat ++
        chunkBytes f.chunks)
    rw [List.nil_append, ← List.append_assoc, List.length_append, length_leBytes,
      length_leBytes] at hwindow
    rw [Header.bytes, RiffFile.riffSize, UInt32.toNat_ofNat_of_lt' hsize]
    exact hwindow
  have hheader : (Place.start dwChunkType dwChunkDataSize).readHeader f.bytes = _ :=
    readHeader_of_header hlaid
  exact turn_riff hheader rfl hfourcc f.riffSize_ne (by show 0 + 8 + 4 ≤ _; omega)

/-! ## Behind all chunks -/

/-- Where nothing is left to read, the loop leaves as it should for an id that is not there exactly
if the header in the variables lets a jump fail in the end. -/
theorem findsNone_iff {id size : UInt32} (h : AtEnd file id size p) (hp : p.pointer < 2 ^ 31)
    (hforward : size.toNat < 2 ^ 31) (hkept : id = fourccRIFF → size.toNat ≠ 0) :
    FindsFrom file fourcc p none ↔ size.toNat ≠ 0 ∧ id ≠ fourccRIFF ∧ id ≠ fourcc ∧
      ¬ size.toNat ∣ 2 ^ 32 - 1 - p.pointer := by
  have hzero : p.dwChunkDataSize = 0 ↔ size.toNat = 0 := by
    rw [h.dwChunkDataSize, ← UInt32.toNat_inj]
    rfl
  by_cases hid : id = fourcc
  · -- the id is in the variable, and the jump succeeds
    refine iff_of_false ?_ (by tauto)
    rintro ⟨r, hr, hno⟩
    have htarget := h.target hforward
    have hcarries : Carries file fourcc p := by
      rw [Carries, h.readHeader, h.dwChunkType]
      exact ⟨hid, Or.inr (by omega)⟩
    obtain ⟨r', hr', hok⟩ := turn_ok_iff.mpr (Or.inl hcarries)
    rw [hr.unique (returns_of_error hr')] at hno
    exact hno hok
  by_cases hstuck : id = fourccRIFF ∨ size.toNat = 0
  · refine iff_of_false ?_ (by tauto)
    rintro ⟨r, hr, -⟩
    refine not_returns_of_stuck (p := p) ⟨h.atEnd, ?_, ?_⟩ hr
    · rw [h.dwChunkType]
      exact hid
    · rw [h.dwChunkType, ne_eq, hzero]
      split_ifs with hriff
      · exact hkept hriff
      · refine ⟨hstuck.resolve_left hriff, h.dwRIFFDataSize, ?_⟩
        show _ < 2 ^ 32 - 1
        omega
  · rw [not_or] at hstuck
    obtain ⟨r, hr, hcode⟩ := returns_atEnd h hstuck.1 hid hstuck.2 hforward (by omega)
    rw [and_iff_right hstuck.2, and_iff_right hstuck.1, and_iff_right hid, ← hcode]
    constructor
    · rintro ⟨r', hr', hno⟩
      rw [hr.unique hr']
      exact hno
    · intro hno
      exact ⟨r, hr, hno⟩

/-! ## From chunk to chunk -/

/-- A turn changes nothing about what the loop finds. -/
theorem findsFrom_of_ok (h : turn file fourcc p = .ok q) :
    FindsFrom file fourcc p sought ↔ FindsFrom file fourcc q sought := by
  match sought with
  | some (position, c) => simp only [FindsFrom, returns_of_ok h]
  | none => simp only [FindsFrom, returns_of_ok h]

/-- Where the first chunk with the id is, its data is in the file. -/
theorem firstChunk_data (hfile : file = pre ++ chunkBytes chunks)
    (hshort : file.length < 2 ^ 31)
    (h : firstChunk fourcc pre.length chunks = some (position, c)) :
    position < 2 ^ 31 ∧ window file position c.data.length = c.data := by
  induction chunks generalizing pre with
  | nil => contradiction
  | cons d chunks ih =>
    have hchunk : file = pre ++ d.bytes ++ chunkBytes chunks := by
      rw [hfile, List.append_assoc]
      rfl
    rw [firstChunk] at h
    split_ifs at h with hid
    · rw [Option.some.injEq, Prod.mk.injEq] at h
      obtain ⟨rfl, rfl⟩ := h
      have hend := end_le hchunk hshort
      refine ⟨by omega, ?_⟩
      have hdata : file = (pre ++ (leBytes 4 d.id.toNat ++ leBytes 4 d.data.length)) ++ d.data ++
          ((if d.data.length % 2 = 0 then [] else [d.pad]) ++ chunkBytes chunks) := by
        rw [hchunk, Chunk.bytes]
        simp only [List.append_assoc]
      have hposition : pre.length + 8 =
          (pre ++ (leBytes 4 d.id.toNat ++ leBytes 4 d.data.length)).length := by
        simp only [List.length_append, length_leBytes]
      rw [hdata, hposition, window_middle]
    · rw [← List.length_append] at h
      exact ih hchunk h

/-- At the last chunk, which has not the id. -/
theorem findsNone_last (hsize : riffSize ≠ 0) (hshort : file.length < 2 ^ 31)
    (hfile : file = pre ++ c.bytes) (hchunk : c.id ≠ fourccRIFF) (hid : c.id ≠ fourcc) :
    FindsFrom file fourcc (.behind riffSize pre.length last) none ↔ Overshoots file fourcc c := by
  have hmiddle : file = pre ++ c.bytes ++ [] := by rw [List.append_nil, hfile]
  have hend := end_le hmiddle hshort
  have hvalue := toNat_chunkSize hmiddle hshort
  have hlen : file.length = pre.length + 8 + c.data.length + c.data.length % 2 := by
    rw [hfile, List.length_append, length_bytes]
    omega
  have hposition : file.length - c.data.length % 2 = pre.length + 8 + c.data.length := by omega
  let p : Place := .behind riffSize (pre.length + 8 + c.data.length) (some c)
  have hroom : file.length < p.pointer + 8 := by
    show _ < pre.length + 8 + c.data.length + 8
    omega
  have hread : behindRead file (pre.length + 8 + c.data.length) = file.length := by
    rw [behindRead, length_window_eq_min]
    omega
  have hpointer : (p.readHeader file).pointer = file.length := by
    show behindRead file (behindRead file (pre.length + 8 + c.data.length)) = _
    rw [hread, behindRead_of_length_le le_rfl]
  have hatEnd : AtEnd file (readDword file (file.length - c.data.length % 2) c.id)
      (.ofNat c.data.length) (p.readHeader file) := by
    refine ⟨hpointer.ge, ?_, ?_, hsize⟩
    · rw [hposition]
      rfl
    · show readDword file (behindRead file (pre.length + 8 + c.data.length)) _ = _
      rw [hread, readDword_of_length_le le_rfl]
      rfl
  have hkept : readDword file (file.length - c.data.length % 2) c.id = fourccRIFF →
      (UInt32.ofNat c.data.length).toNat ≠ 0 := by
    intro hriff hzero
    -- without data there is no padding, so the id is as it was
    rw [hvalue] at hzero
    rw [hzero, readDword_of_length_le (Nat.sub_zero _).ge] at hriff
    exact hchunk hriff
  have hnone : FindsFrom file fourcc _ none ↔ _ :=
    findsNone_iff hatEnd (by omega) (by omega) hkept
  rw [findsFrom_of_ok (turn_chunk hmiddle hshort hchunk hid hsize)]
  have hsame : FindsFrom file fourcc p none ↔ FindsFrom file fourcc (p.readHeader file) none := by
    simp only [FindsFrom, returns_of_turn_eq (turn_readHeader hroom)]
  rw [hsame, hnone, hvalue, hpointer, ne_eq, List.length_eq_zero_iff]
  constructor
  · rintro ⟨hdata, hriff, hother, hmiss⟩
    exact ⟨hdata, hriff, hother, hmiss⟩
  · intro h
    exact ⟨h.hasData, h.notRiff, h.other, h.misses⟩

/-- At the chunk sought. -/
theorem findsFrom_found (hshort : file.length < 2 ^ 31)
    (hfile : file = pre ++ chunkBytes (c :: chunks)) (hchunk : c.id ≠ fourccRIFF)
    (hid : c.id = fourcc) :
    FindsFrom file fourcc (.behind riffSize pre.length last) (some (pre.length + 8, c)) := by
  have hmiddle : file = pre ++ c.bytes ++ chunkBytes chunks := by
    rw [hfile, List.append_assoc]
    rfl
  have hend := end_le hmiddle hshort
  have hvalue := toNat_chunkSize hmiddle hshort
  have hfirst : firstChunk fourcc pre.length (c :: chunks) = some (pre.length + 8, c) := if_pos hid
  have hdata := (firstChunk_data hfile hshort hfirst).2
  have hposition : pre.length + 8 < 2 ^ 32 := by omega
  have hoffset : (UInt32.ofNat (pre.length + 8)).toNat = pre.length + 8 :=
    UInt32.toNat_ofNat_of_lt' hposition
  refine ⟨_, _, returns_of_error (turn_chunk_found hmiddle hshort hchunk hid), hvalue, hoffset, ?_⟩
  rw [readChunkData_eq (by omega), hvalue, hoffset, hdata]

/-- From the header of a chunk on, the loop finds what there is to find exactly if there is a chunk
with the id, or the last one lets a jump fail; as long as no data of an odd length mislead it. -/
theorem findsFrom_iff (hsize : riffSize ≠ 0) (hshort : file.length < 2 ^ 31)
    (hfile : file = pre ++ chunkBytes chunks) (hids : ∀ c ∈ chunks, c.id ≠ fourccRIFF)
    (hne : chunks ≠ [])
    (heven : ∀ c ∈ chunks.dropLast.takeWhile (·.id ≠ fourcc), c.data.length % 2 = 0) :
    FindsFrom file fourcc (.behind riffSize pre.length last)
        (firstChunk fourcc pre.length chunks) ↔
      (∃ c ∈ chunks, c.id = fourcc) ∨ ∃ c ∈ chunks.getLast?, Overshoots file fourcc c := by
  induction chunks generalizing pre last with
  | nil => exact absurd rfl hne
  | cons c chunks ih =>
    rw [List.forall_mem_cons] at hids
    by_cases hid : c.id = fourcc
    · have hfirst : firstChunk fourcc pre.length (c :: chunks) = some (pre.length + 8, c) :=
        if_pos hid
      rw [hfirst]
      exact iff_of_true (findsFrom_found hshort hfile hids.1 hid)
        (Or.inl ⟨c, List.mem_cons_self, hid⟩)
    have hfirst : firstChunk fourcc pre.length (c :: chunks) =
        firstChunk fourcc (pre.length + c.bytes.length) chunks := if_neg hid
    have hmiddle : file = pre ++ c.bytes ++ chunkBytes chunks := by
      rw [hfile, List.append_assoc]
      rfl
    cases chunks with
    | nil =>
      have hlast : file = pre ++ c.bytes := by
        rw [hmiddle, chunkBytes, List.flatMap_nil, List.append_nil]
      rw [hfirst]
      show FindsFrom file fourcc _ none ↔ _
      rw [findsNone_last hsize hshort hlast hids.1 hid]
      simp [hid]
    | cons d chunks =>
      rw [List.dropLast_cons_cons, List.takeWhile_cons_of_pos (by simpa using hid),
        List.forall_mem_cons] at heven
      have hposition : (pre ++ c.bytes).length = pre.length + 8 + c.data.length := by
        rw [List.length_append, length_bytes]
        omega
      have hrest : FindsFrom file fourcc (.behind _ _ (some c)) _ ↔ _ :=
        ih hmiddle hids.2 (List.cons_ne_nil d chunks) heven.2
      have hmem : (∃ e ∈ c :: d :: chunks, e.id = fourcc) ↔ ∃ e ∈ d :: chunks, e.id = fourcc := by
        rw [List.exists_mem_cons_iff, or_iff_right hid]
      have hpassed : turn file fourcc (.behind riffSize pre.length last) = _ :=
        turn_chunk hmiddle hshort hids.1 hid hsize
      rw [hfirst, findsFrom_of_ok hpassed, ← List.length_append, ← hposition, hrest, hmem,
        List.getLast?_cons_cons]

/-- Where no chunk of an odd length comes before the one sought, but perhaps as the last one of the
file, `FindChunk` finds what the file has exactly if there is a chunk with the id, or the last chunk
lets a jump fail. -/
theorem findsChunks_iff_of_even (f : RiffFile) (dwChunkType dwChunkDataSize : UInt32)
    (hfourcc : fourcc ≠ fourccRIFF)
    (heven : ∀ c ∈ f.chunks.dropLast.takeWhile (·.id ≠ fourcc), c.data.length % 2 = 0) :
    FindsChunks f fourcc dwChunkType dwChunkDataSize ↔
      (∃ c ∈ f.chunks, c.id = fourcc) ∨ ∃ c ∈ f.chunks.getLast?, Overshoots f.bytes fourcc c := by
  have hlen : (leBytes 4 fourccRIFF.toNat ++ leBytes 4 (4 + (chunkBytes f.chunks).length) ++
      leBytes 4 f.formType.toNat).length = 12 := by
    simp only [List.length_append, length_leBytes]
  rw [FindsChunks, findsFrom_of_ok (turn_start f hfourcc dwChunkType dwChunkDataSize)]
  by_cases hne : f.chunks = []
  · -- the RIFF header stays in the variables
    have hlong := f.length_bytes
    rw [hne, chunkBytes, List.flatMap_nil, List.length_nil, Nat.add_zero] at hlong
    have hatEnd : AtEnd f.bytes fourccRIFF 4 (.behind f.riffSize 12 none) :=
      ⟨hlong.le, rfl, rfl, f.riffSize_ne⟩
    have hplace : (Place.behind f.riffSize 12 none).pointer < 2 ^ 31 :=
      show 12 < 2 ^ 31 by decide
    rw [hne]
    refine iff_of_false (fun hfinds => ?_) (by simp)
    exact ((findsNone_iff hatEnd hplace (by decide) (by decide)).mp hfinds).2.1 rfl
  · have hchunks : FindsFrom f.bytes fourcc (.behind f.riffSize _ none) _ ↔ _ :=
      findsFrom_iff f.riffSize_ne f.short rfl f.ids hne heven
    rw [hlen] at hchunks
    exact hchunks

/-- A format of two bytes and two bytes of data. -/
def evenChunks : List Chunk := [⟨fourccFMT, [1, 0], 0⟩, ⟨fourccDATA, [0x80, 0x81], 0⟩]

theorem evenChunks_ids : ∀ c ∈ evenChunks, c.id ≠ fourccRIFF := by decide

theorem evenChunks_short : (riffBytes fourccWAVE evenChunks).length < 2 ^ 31 := by decide

theorem findsChunks_even :
    FindsChunks ⟨fourccWAVE, evenChunks, evenChunks_ids, evenChunks_short⟩ fourccDATA 0 0 :=
  (findsChunks_iff_of_even _ 0 0 (by decide) (by decide)).mpr (Or.inl (by decide))

/-- A chunk of one byte, padded, and two bytes of data. -/
def oddChunks : List Chunk := [⟨fourccFMT, [1], 0⟩, ⟨fourccDATA, [0x80, 0x81], 0⟩]

theorem oddChunks_ids : ∀ c ∈ oddChunks, c.id ≠ fourccRIFF := by decide

theorem oddChunks_short : (riffBytes fourccWAVE oddChunks).length < 2 ^ 31 := by decide

/-- Behind the chunk of one byte the loop reads its padding and `dat` for a type. -/
theorem findsChunks_counterexample :
    ¬ FindsChunks ⟨fourccWAVE, oddChunks, oddChunks_ids, oddChunks_short⟩ fourccDATA 0 0 := by
  let file := riffBytes fourccWAVE oddChunks
  have hfirst : turn file fourccDATA (.start 0 0) = .ok ⟨12, fourccRIFF, 4, 24, 12⟩ := by decide
  have hsecond : turn file fourccDATA ⟨12, fourccRIFF, 4, 24, 12⟩ =
      .ok ⟨21, fourccFMT, 1, 24, 21⟩ := by decide
  have hthird : turn file fourccDATA ⟨21, fourccFMT, 1, 24, 21⟩ =
      .ok ⟨638, 0x74616400, 609, 24, 638⟩ := by decide
  have hend : AtEnd file 0x74616400 609 ⟨638, 0x74616400, 609, 24, 638⟩ := by
    refine ⟨?_, rfl, rfl, by decide⟩
    decide
  obtain ⟨r, hr, hcode⟩ : ∃ r, Returns (turn file fourccDATA) _ r ∧ _ :=
    returns_atEnd hend (by decide) (by decide) (by decide) (by decide) (by decide)
  rintro ⟨size, offset, hreturns, -⟩
  have hlater := (returns_of_ok hthird).mp ((returns_of_ok hsecond).mp
    ((returns_of_ok hfirst).mp hreturns))
  rw [hr.unique hlater] at hcode
  exact absurd (hcode.mp rfl) (by decide)

end Win32Experiments.XAudio2
