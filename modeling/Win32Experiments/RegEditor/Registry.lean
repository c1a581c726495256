import Mathlib.Logic.Function.Basic
import Win32Experiments.Foundation.Word

/-!
# The typed registry accessors

`Registry::Get` and `Registry::Set` over a registry that stores typed bytes. The system's
choices, how environment variables are expanded and by how much a size-only query
overestimates, are the `Environment`.
-/

namespace Win32Experiments.RegEditor

open Foundation

/-! ## The registry -/

/-- The registry's types: `REG_SZ`, `REG_EXPAND_SZ`, `REG_DWORD` and `REG_QWORD`. -/
def regSz : ℕ := 1
def regExpandSz : ℕ := 2
def regDword : ℕ := 4
def regQword : ℕ := 11

/-- The masks of a query: `RRF_RT_REG_SZ`, `RRF_RT_REG_EXPAND_SZ`, `RRF_RT_REG_DWORD` and
`RRF_RT_REG_QWORD`. -/
def rrfRtRegSz : ℕ := 0x02
def rrfRtRegExpandSz : ℕ := 0x04
def rrfRtRegDword : ℕ := 0x10
def rrfRtRegQword : ℕ := 0x40

def errorFileNotFound : ℕ := 2
def errorMoreData : ℕ := 234
def errorUnsupportedType : ℕ := 1630

/-- Where a value stands: the handle, the subkey and the value's name. -/
structure Place where
  hKey : ℕ
  subKey : List UInt16
  value : List UInt16
deriving DecidableEq, Repr

/-- A stored value. -/
structure Stored where
  dwType : ℕ
  data : List UInt8
deriving DecidableEq, Repr

/-- The values in the registry. -/
abbrev Registry := Place → Option Stored

/-- What the system chooses: the expansion of a string with environment variables, by how many
bytes a size-only query overestimates, and what uninitialised memory holds. -/
structure Environment where
  expand : List UInt16 → List UInt16
  slack : ℕ
  memory : List UInt8

/-- The mask admits the type; an expandable string is expanded and then is a string. -/
def admits (dwFlags dwType : ℕ) : Bool :=
  if dwType = regSz then dwFlags &&& rrfRtRegSz ≠ 0
  else if dwType = regExpandSz then
    dwFlags &&& rrfRtRegExpandSz ≠ 0 || dwFlags &&& rrfRtRegSz ≠ 0
  else if dwType = regDword then dwFlags &&& rrfRtRegDword ≠ 0
  else if dwType = regQword then dwFlags &&& rrfRtRegQword ≠ 0
  else false

/-- A string with its terminator. -/
def terminated (us : List UInt16) : List UInt16 :=
  if us.getLast? = some 0 then us else us ++ [0]

/-- The bytes that `RegGetValueW` gives for a stored value. -/
def Environment.given (os : Environment) (v : Stored) : List UInt8 :=
  if v.dwType = regSz then wideBytes (terminated (wideUnits v.data))
  else if v.dwType = regExpandSz then
    wideBytes (os.expand ((wideUnits v.data).takeWhile (· ≠ 0)) ++ [0])
  else v.data

/-- `RegGetValueW`: the bytes of the value, or the status. -/
def regGetValueW (os : Environment) (reg : Registry) (place : Place) (dwFlags : ℕ) :
    Except ℕ (List UInt8) :=
  match reg place with
  | none => .error errorFileNotFound
  | some v => if admits dwFlags v.dwType then .ok (os.given v) else .error errorUnsupportedType

/-- `RegGetValueW` without a buffer: the size it reports. -/
def querySize (os : Environment) (reg : Registry) (place : Place) (dwFlags : ℕ) : Except ℕ ℕ :=
  (regGetValueW os reg place dwFlags).map fun bytes => bytes.length + os.slack

/-- `RegGetValueW` into `buffer`, said to have `dataSize` bytes. -/
def readValue (os : Environment) (reg : Registry) (place : Place) (dwFlags : ℕ)
    (buffer : List UInt8) (dataSize : ℕ) : Except ℕ (List UInt8) :=
  match regGetValueW os reg place dwFlags with
  | .error status => .error status
  | .ok bytes =>
    if dataSize < bytes.length then .error errorMoreData
    else .ok (bytes ++ buffer.drop bytes.length)

/-- `RegSetKeyValueW`: the value is stored with the type it is given. -/
def regSetKeyValueW (reg : Registry) (place : Place) (dwType : ℕ) (data : List UInt8) :
    Registry :=
  Function.update reg place (some ⟨dwType, data⟩)

/-! ## The accessors -/

/-- The types of `RegistryValueMap`. -/
inductive ValueType
  | wstring
  | DWORD
  | size_t
deriving DecidableEq, Repr

/-- The values of the type. -/
abbrev ValueType.Value : ValueType → Type
  | wstring => List UInt16
  | DWORD => UInt32
  | size_t => UInt64

/-- `RegistryValueMap<T>::Type`, one of `Win32::Registry::ValueTypes`. -/
def ValueType.type : ValueType → ℕ
  | wstring => rrfRtRegSz
  | DWORD => rrfRtRegDword
  | size_t => rrfRtRegQword

/-- `RegistryError`; the constructor without a code leaves `m_errorCode` unset. -/
structure RegistryError where
  message : String
  m_errorCode : Option ℕ
deriving DecidableEq, Repr

/-- `Registry::Get`, where `fail` is what the instance does with a status that is no success. -/
def Registry.getWith {ε : Type} (reg : Registry) (fail : ℕ → ε) (os : Environment)
    (place : Place) : (T : ValueType) → Except ε T.Value
  | .wstring =>
    match querySize os reg place rrfRtRegSz with
    | .error statusCode => .error (fail statusCode)
    | .ok dataSize =>
      let data := List.replicate (2 * (dataSize / 2)) 0
      match readValue os reg place ValueType.wstring.type data dataSize with
      | .error statusCode => .error (fail statusCode)
      -- `data.pop_back()`
      | .ok data => .ok (wideUnits data).dropLast
  | .DWORD =>
    match readValue os reg place ValueType.DWORD.type os.memory 4 with
    | .error statusCode => .error (fail statusCode)
    | .ok data => .ok (UInt32.ofNat (leValue (data.take 4)))
  | .size_t =>
    match readValue os reg place ValueType.size_t.type os.memory 8 with
    | .error statusCode => .error (fail statusCode)
    | .ok data => .ok (UInt64.ofNat (leValue (data.take 8)))

/-- `Registry::Get<T, true>`. -/
def Registry.get (reg : Registry) (os : Environment) (place : Place) (T : ValueType) :
    Except RegistryError T.Value :=
  reg.getWith (fun statusCode => ⟨"Cannot read value from registry.", some statusCode⟩) os place T

/-- `Registry::Get<T, false>`, the expected value. -/
def Registry.getExpected (reg : Registry) (os : Environment) (place : Place) (T : ValueType) :
    Except ℕ T.Value :=
  reg.getWith id os place T

/-- The bytes that `Set` passes on, with their size a `DWORD`. -/
def ValueType.bytes : (T : ValueType) → T.Value → List UInt8
  | .wstring, value =>
    let size := value.length % 2 ^ 32 * 2 % 2 ^ 32
    (wideBytes value).take size
  | .DWORD, value => leBytes 4 (UInt32.toNat value)
  | .size_t, value => leBytes 8 (UInt64.toNat value)

/-- `Registry::Set`, where `RegSetKeyValueW` returns `status`. -/
def Registry.set (reg : Registry) (place : Place) (T : ValueType) (value : T.Value) (status : ℕ) :
    Except RegistryError Registry :=
  if place.hKey = 0 then .error ⟨"key is nullptr", none⟩
  else if status ≠ 0 then .error ⟨"RegSetValueExW() failed", some status⟩
  else .ok (regSetKeyValueW reg place T.type (T.bytes value))

end Win32Experiments.RegEditor
