import Win32Experiments.Foundation.Halting
import Win32Experiments.Foundation.Memory
import Win32Experiments.Foundation.Word

/-!
# `FindChunk` and `ReadChunkData`

`FindChunk` walks through the chunks of a RIFF file by their headers. Each turn of its loop reads a
chunk type and a size into variables that keep what the end of the file leaves of them, moves the
file pointer over the data, and adds to an offset of its own. The file handle reads what the file
holds: a `ReadFile` succeeds, with fewer bytes at the end of the file.
-/

namespace Win32Experiments.XAudio2

open Foundation

/-! ## Codes -/

/-- `'FFIR'`: the four bytes of `RIFF`, the first one lowest. -/
def fourccRIFF : UInt32 := 0x46464952

/-- `'atad'`. -/
def fourccDATA : UInt32 := 0x61746164

/-- `' tmf'`. -/
def fourccFMT : UInt32 := 0x20746d66

/-- `'EVAW'`. -/
def fourccWAVE : UInt32 := 0x45564157

def sOk : ℕ := 0
def sFalse : ℕ := 1

def errorNegativeSeek : ℕ := 131
def errorInvalidParameter : ℕ := 87
def noError : ℕ := 0

/-- `INVALID_SET_FILE_POINTER`, which is also the last place that 32 bits can name. -/
def invalidSetFilePointer : ℕ := 2 ^ 32 - 1

/-- `HRESULT_FROM_WIN32`. -/
def hresultFromWin32 (x : ℕ) : ℕ :=
  if toInt32 x ≤ 0 then x else x % 2 ^ 16 + 7 * 2 ^ 16 + 2 ^ 31

/-! ## The file -/

/-- `SetFilePointer` by a distance from `origin`, with no high part: what it returns, and the last
error. The distance is signed. -/
def setFilePointer (origin : ℕ) (distance : UInt32) : ℕ × ℕ :=
  let target : ℤ := origin + toInt32 distance.toNat
  if target < 0 then (invalidSetFilePointer, errorNegativeSeek)
  else if 2 ^ 32 ≤ target then (invalidSetFilePointer, errorInvalidParameter)
  else (target.toNat, noError)

/-- `ReadFile` of four bytes: the file pointer behind what there was. -/
def behindRead (file : List UInt8) (pointer : ℕ) : ℕ :=
  pointer + (window file pointer 4).length

/-- `ReadFile` to a `DWORD`: the bytes that there are replace the first ones of `old`. -/
def readDword (file : List UInt8) (pointer : ℕ) (old : UInt32) : UInt32 :=
  .ofNat (leValue (store (leBytes 4 old.toNat) 0 (window file pointer 4)))

/-! ## `FindChunk` -/

/-- What `FindChunk` returns, and what it writes to `dwChunkSize` and `dwChunkDataPosition`. -/
structure Result where
  hr : ℕ
  chunk : Option (UInt32 × UInt32)
deriving DecidableEq, Repr

/-- The file pointer and the variables at the head of a turn. -/
structure Place where
  pointer : ℕ
  dwChunkType : UInt32
  dwChunkDataSize : UInt32
  dwRIFFDataSize : UInt32
  dwOffset : UInt32
deriving DecidableEq, Repr

/-- `bytesRead`, which nothing adds to. -/
def bytesRead : UInt32 := 0

/-- The place before the loop, at the start of the file; the first two variables are not
initialised. -/
def Place.start (dwChunkType dwChunkDataSize : UInt32) : Place :=
  ⟨0, dwChunkType, dwChunkDataSize, 0, 0⟩

/-- The two reads of a turn. -/
def Place.readHeader (file : List UInt8) (p : Place) : Place :=
  let behindType := behindRead file p.pointer
  { p with
    pointer := behindRead file behindType
    dwChunkType := readDword file p.pointer p.dwChunkType
    dwChunkDataSize := readDword file behindType p.dwChunkDataSize }

/-- The `switch`: behind a RIFF header the file type is read, any other data is jumped over. -/
def Place.passData (file : List UInt8) (p : Place) : Except Result Place :=
  if p.dwChunkType = fourccRIFF then
    .ok { p with
      pointer := behindRead file p.pointer
      dwChunkDataSize := 4
      dwRIFFDataSize := p.dwChunkDataSize }
  else
    let moved := setFilePointer p.pointer p.dwChunkDataSize
    if moved.1 = invalidSetFilePointer then .error ⟨hresultFromWin32 moved.2, none⟩
    else .ok { p with pointer := moved.1 }

/-- What follows the `switch`. -/
def Place.compare (fourcc : UInt32) (p : Place) : Except Result Place :=
  let dwOffset := p.dwOffset + 8
  if p.dwChunkType = fourcc then .error ⟨sOk, some (p.dwChunkDataSize, dwOffset)⟩
  else if p.dwRIFFDataSize ≤ bytesRead then .error ⟨sFalse, none⟩
  else .ok { p with dwOffset := dwOffset + p.dwChunkDataSize }

/-- One turn of the loop. -/
def turn (file : List UInt8) (fourcc : UInt32) (p : Place) : Except Result Place :=
  match (p.readHeader file).passData file with
  | .error r => .error r
  | .ok passed => passed.compare fourcc

/-- `FindChunk` returns `r`. -/
def FindsChunk (file : List UInt8) (fourcc dwChunkType dwChunkDataSize : UInt32) (r : Result) :
    Prop :=
  Returns (turn file fourcc) (.start dwChunkType dwChunkDataSize) r

/-- `ReadChunkData`: what it returns, and the bytes that it writes to the front of the buffer. -/
def readChunkData (file : List UInt8) (buffersize bufferoffset : UInt32) : ℕ × List UInt8 :=
  let moved := setFilePointer 0 bufferoffset
  if moved.1 = invalidSetFilePointer then (hresultFromWin32 moved.2, [])
  else (sOk, window file moved.1 buffersize.toNat)

/-! ## RIFF files -/

/-- A chunk. The byte behind the data is in the file if the data has an odd length. -/
structure Chunk where
  id : UInt32
  data : List UInt8
  pad : UInt8

/-- The bytes of a chunk. -/
def Chunk.bytes (c : Chunk) : List UInt8 :=
  leBytes 4 c.id.toNat ++ leBytes 4 c.data.length ++ c.data ++
    if c.data.length % 2 = 0 then [] else [c.pad]

/-- The bytes of chunks one behind the other. -/
def chunkBytes (chunks : List Chunk) : List UInt8 := chunks.flatMap Chunk.bytes

/-- The bytes of a RIFF file. -/
def riffBytes (formType : UInt32) (chunks : List Chunk) : List UInt8 :=
  leBytes 4 fourccRIFF.toNat ++ leBytes 4 (4 + (chunkBytes chunks).length) ++
    leBytes 4 formType.toNat ++ chunkBytes chunks

/-- A well-formed RIFF file. -/
structure RiffFile where
  formType : UInt32
  chunks : List Chunk
  ids : ∀ c ∈ chunks, c.id ≠ fourccRIFF
  short : (riffBytes formType chunks).length < 2 ^ 31

def RiffFile.bytes (f : RiffFile) : List UInt8 := riffBytes f.formType f.chunks

/-- The first chunk with an id, and where its data is. -/
def firstChunk (fourcc : UInt32) : ℕ → List Chunk → Option (ℕ × Chunk)
  | _, [] => none
  | position, c :: chunks =>
    if c.id = fourcc then some (position + 8, c)
    else firstChunk fourcc (position + c.bytes.length) chunks

end Win32Experiments.XAudio2
