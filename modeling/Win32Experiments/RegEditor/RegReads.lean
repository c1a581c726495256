import Win32Experiments.RegEditor.Registry

/-!
# The two families of registry readers

`RegGetString` and `RegGetDword` exist twice: one overload throws, the other returns a `bool`
and writes to an output parameter. What `RegGetValue` answers is left open: it is a function of
the query, so a value may have grown between the query of its size and its reading.
-/

namespace Win32Experiments.RegEditor

open Foundation

/-- A call of `RegGetValue`: the value, the mask, and the size of the buffer if it has one. -/
structure Query where
  place : Place
  dwFlags : ℕ
  size : Option ℕ
deriving DecidableEq, Repr

/-- Its outcome: the code returned, the bytes written to the buffer and the size reported. -/
structure Outcome where
  retCode : ℕ
  written : List UInt8
  dataSize : ℕ
deriving DecidableEq, Repr

/-- The outcomes of all calls. -/
abbrev Outcomes := Query → Outcome

/-- The buffer behind a call; nothing is written outside it. -/
def Outcome.fill (outcome : Outcome) (buffer : List UInt8) : List UInt8 :=
  (outcome.written ++ buffer.drop outcome.written.length).take buffer.length

/-- `std::wstring::resize`. -/
def resize (data : List UInt16) (n : ℕ) : List UInt16 :=
  data.take n ++ List.replicate (n - data.length) 0

variable (regGetValue : Outcomes) (place : Place)

/-- `RegGetString` that throws. -/
def regGetString : Except RegistryError (List UInt16) :=
  let outcome := regGetValue ⟨place, rrfRtRegSz, none⟩
  if outcome.retCode ≠ 0 then
    .error ⟨"Cannot read string from registry", some outcome.retCode⟩
  else
    let data := resize [] (outcome.dataSize / 2)
    let outcome := regGetValue ⟨place, rrfRtRegSz, some outcome.dataSize⟩
    if outcome.retCode ≠ 0 then
      .error ⟨"Cannot read string from registry", some outcome.retCode⟩
    else
      let data := wideUnits (outcome.fill (wideBytes data))
      let stringLengthInWchars := outcome.dataSize / 2
      -- the decrement excludes the null, and wraps when there is none
      .ok (resize data (subW 32 stringLengthInWchars 1))

/-- `RegGetString` with the output parameter `out`. -/
def regGetStringOut (out : List UInt16) : Bool × List UInt16 :=
  let outcome := regGetValue ⟨place, rrfRtRegSz, none⟩
  if outcome.retCode ≠ 0 then (false, out)
  else
    let data := resize [] (outcome.dataSize / 2)
    let outcome := regGetValue ⟨place, rrfRtRegSz, some outcome.dataSize⟩
    if outcome.retCode ≠ 0 then (false, out)
    else
      let data := wideUnits (outcome.fill (wideBytes data))
      let stringLengthInWchars := outcome.dataSize / 2
      (true, resize data (subW 32 stringLengthInWchars 1))

/-- What a `DWORD` holds after a call that was given its address. -/
def Outcome.fillDword (outcome : Outcome) (data : UInt32) : UInt32 :=
  UInt32.ofNat (leValue (outcome.fill (leBytes 4 data.toNat)))

/-- `RegGetDword` that throws. -/
def regGetDword : Except RegistryError UInt32 :=
  let outcome := regGetValue ⟨place, rrfRtRegDword, some 4⟩
  let data := outcome.fillDword 0
  if outcome.retCode ≠ 0 then
    .error ⟨"Cannot read DWORD from registry.", some outcome.retCode⟩
  else .ok data

/-- `RegGetDword` with the output parameter `data`. -/
def regGetDwordOut (data : UInt32) : Bool × UInt32 :=
  let outcome := regGetValue ⟨place, rrfRtRegDword, some 4⟩
  (outcome.retCode ≠ 0, outcome.fillDword data)

/-- The overload that gave `result`, where the output parameter was `out`, has done what the
throwing one did: true and its value where it returned, and false with `out` unchanged where it
threw. -/
structure Agree {α : Type} (throwing : Except RegistryError α) (out : α) (result : Bool × α) :
    Prop where
  returns : result.1 = true ↔ ∃ value, throwing = .ok value
  value : ∀ value, throwing = .ok value → result.1 = true → result.2 = value
  unchanged : result.1 = false → result.2 = out

/-- The values that are read. -/
inductive Reader
  | string
  | dword
deriving DecidableEq, Repr

/-- The type of the output parameter. -/
abbrev Reader.Value : Reader → Type
  | string => List UInt16
  | dword => UInt32

/-- The overloads of the reader agree on a value and an output parameter. -/
def Reader.Agrees : (r : Reader) → r.Value → Prop
  | string, out =>
    Agree (regGetString regGetValue place) out (regGetStringOut regGetValue place out)
  | dword, out => Agree (regGetDword regGetValue place) out (regGetDwordOut regGetValue place out)

variable {regGetValue place}

/-- The two copies of `RegGetString` take the same exits. -/
theorem agree_string (out : List UInt16) :
    Agree (regGetString regGetValue place) out (regGetStringOut regGetValue place out) := by
  unfold regGetString regGetStringOut
  dsimp only
  split
  · exact ⟨by simp, by simp, fun _ => rfl⟩
  · split
    · exact ⟨by simp, by simp, fun _ => rfl⟩
    · exact ⟨by simp, by simp, by simp⟩

/-- `RegGetDword` returns its `bool` the wrong way round. -/
theorem not_agree_dword (data : UInt32) :
    ¬ Agree (regGetDword regGetValue place) data (regGetDwordOut regGetValue place data) := by
  intro h
  have hreturns := h.returns
  unfold regGetDword regGetDwordOut at hreturns
  by_cases hcode : (regGetValue ⟨place, rrfRtRegDword, some 4⟩).retCode = 0
  · simp [hcode] at hreturns
  · simp [hcode] at hreturns

/-- Whatever the registry holds and whatever the calls return, the two overloads of a reader
agree exactly if the reader is `RegGetString`. -/
theorem readers_agree_iff (r : Reader) (out : r.Value) :
    r.Agrees regGetValue place out ↔ r = .string := by
  cases r with
  | string => exact iff_of_true (agree_string out) rfl
  | dword => exact iff_of_false (not_agree_dword out) (by decide)

/-- A `DWORD` 7 is there and is read: one overload returns it, the other returns false, and has
overwritten the output parameter. -/
theorem presentDword_counterexample :
    regGetDword (fun _ => ⟨0, [7, 0, 0, 0], 4⟩) ⟨1, [65], [65]⟩ = .ok 7 ∧
      regGetDwordOut (fun _ => ⟨0, [7, 0, 0, 0], 4⟩) ⟨1, [65], [65]⟩ 0 = (false, 7) :=
  ⟨rfl, rfl⟩

end Win32Experiments.RegEditor
