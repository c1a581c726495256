import Win32Experiments.Foundation.Memory
import Win32Experiments.Foundation.Occurrences
import Win32Experiments.Foundation.Word
import Mathlib.Algebra.Group.Nat.Defs
import Mathlib.Algebra.GroupWithZero.Nat

/-!
# Parameter strings in a message

`ApplyParameterStringsToMessage` goes over a message three times: it counts the parameter insertion
strings, locates them, and copies the message with the parameter strings in place of them. A
pointer into the message is its offset; `none` stands for an access outside of the message, of
the arrays or of the buffer. A loop over the message has fuel for one turn more than the message
has characters.
-/

namespace Win32Experiments.EventLog

open Foundation

/-- A string that `FormatMessage` has allocated: the characters in front of its NUL, which it counts
in a `DWORD`. -/
structure WString where
  text : List UInt16
  noNul : 0 ∉ text
  length_lt : text.length < 2 ^ 32

/-! ## The characters -/

/-- `isdigit`, of the ten digits only. -/
def isdigit (c : UInt16) : Bool := 48 ≤ c && c ≤ 57

/-- The character at an offset of the message, or its NUL. -/
def charAt (pMessage : List UInt16) (offset : ℕ) : Option UInt16 := (pMessage ++ [0])[offset]?

/-- `wcschr(pMessage + offset, L'%')`. -/
def wcschr (pMessage : List UInt16) (offset : ℕ) : Option ℕ := findFrom [37] pMessage offset

/-- The number that the digits are the decimal numeral of. -/
def decimal (digits : List UInt16) : ℕ := digits.foldl (fun n c => 10 * n + (c.toNat - 48)) 0

/-- `_wtoi` of a text that starts with a digit; a number that does not fit is the largest `int`. -/
def wtoi (text : List UInt16) : ℕ := min (decimal (text.takeWhile isdigit)) (2 ^ 31 - 1)

/-! ## Counting -/

/-- The first loop: `pTempMessage` and `dwParameterCount`. -/
def countLoop (pMessage : List UInt16) : ℕ → ℕ → ℕ → Option ℕ
  | 0, _, _ => none
  | fuel + 1, pTempMessage, dwParameterCount =>
    match wcschr pMessage pTempMessage with
    | none => some dwParameterCount
    | some pTempMessage => do
      let next ← charAt pMessage (pTempMessage + 1)
      let dwParameterCount := if isdigit next then addW 32 dwParameterCount 1 else dwParameterCount
      countLoop pMessage fuel (pTempMessage + 1) dwParameterCount

/-- The number of parameter insertion strings. -/
def countParameters (pMessage : List UInt16) : Option ℕ :=
  countLoop pMessage (pMessage.length + 1) 0 0

/-! ## Locating -/

/-- The entries of `pStartingAddresses`, `pParameterIDs` and `pEndingAddresses` at one index. -/
structure Placeholder where
  startingAddress : ℕ
  parameterID : ℕ
  endingAddress : ℕ
deriving DecidableEq, Repr

/-- `while (isdigit(*++pTempMessage))`. -/
def skipDigits (pMessage : List UInt16) : ℕ → ℕ → Option ℕ
  | 0, _ => none
  | fuel + 1, pTempMessage => do
    let next ← charAt pMessage (pTempMessage + 1)
    if isdigit next then skipDigits pMessage fuel (pTempMessage + 1) else some (pTempMessage + 1)

/-- The second loop, with the entries that it has written to the arrays. -/
def locateLoop (pMessage : List UInt16) (dwParameterCount : ℕ) :
    ℕ → ℕ → List Placeholder → Option (List Placeholder)
  | 0, _, _ => none
  | fuel + 1, pTempMessage, written =>
    match wcschr pMessage pTempMessage with
    | none => some written
    | some start => do
      let next ← charAt pMessage (start + 1)
      if isdigit next then
        -- the entries with the index `i` are inside of the arrays
        if written.length < dwParameterCount then
          let pEnding ← skipDigits pMessage (pMessage.length + 1) (start + 1)
          let entry := ⟨start, wtoi (pMessage.drop (start + 1)), pEnding⟩
          locateLoop pMessage dwParameterCount fuel pEnding (written ++ [entry])
        else none
      else locateLoop pMessage dwParameterCount fuel (start + 1) written

/-- The parameter insertion strings, in arrays of `dwParameterCount` entries; an entry that is not
written would be a null pointer. -/
def locateParameters (pMessage : List UInt16) (dwParameterCount : ℕ) :
    Option (List Placeholder) := do
  let written ← locateLoop pMessage dwParameterCount (pMessage.length + 1) 0 []
  if written.length = dwParameterCount then some written else none

/-! ## Filling -/

/-- The characters in front of `pTempFinalMessage`, the characters left in the buffer, and the
offset of `pTempMessage`. -/
structure Filling where
  written : List UInt16
  cchBuffer : ℕ
  pTempMessage : ℕ
deriving DecidableEq, Repr

/-- `wcsncpy_s` and `wcscpy_s`, and the pointer behind the characters: these and a NUL have to fit
into what is left. -/
def Filling.copy (f : Filling) (chars : List UInt16) : Option Filling :=
  if chars.length + 1 ≤ f.cchBuffer then
    some { f with written := f.written ++ chars, cchBuffer := f.cchBuffer - chars.length }
  else none

/-- The loop that builds the final message: a segment of the message, which ends behind its start,
and a parameter string. -/
def fillLoop (pMessage : List UInt16) : Filling → List (Placeholder × WString) → Option Filling
  | f, [] => some f
  | f, (entry, parameter) :: rest =>
    if f.pTempMessage ≤ entry.startingAddress then do
      let cch := entry.startingAddress - f.pTempMessage
      let f ← f.copy (window pMessage f.pTempMessage cch)
      let f ← { f with pTempMessage := entry.endingAddress }.copy parameter.text
      fillLoop pMessage f rest
    else none

/-- The final message. -/
def fillFinalMessage (pMessage : List UInt16) (entries : List Placeholder)
    (parameters : List WString) : Option (List UInt16) := do
  let cchParameters := (parameters.map fun parameter => parameter.text.length).sum
  let f ← fillLoop pMessage ⟨[], pMessage.length + cchParameters + 1, 0⟩ (entries.zip parameters)
  let f ← f.copy (pMessage.drop f.pTempMessage)
  some f.written

/-! ## What the message is to become -/

/-- The text starts with a digit. -/
def startsWithDigit : List UInt16 → Bool
  | [] => false
  | c :: _ => isdigit c

/-- The message contains a `%` that a digit follows. -/
def HasPlaceholder (text : List UInt16) : Prop :=
  ∃ before behind, text = before ++ 37 :: behind ∧ startsWithDigit behind

/-- The text with each `%` that a digit follows, and the digits, replaced by the parameter string
for their number; behind such a `%`, `skipping` is set and the digits are left out. -/
def expandFrom (table : ℕ → List UInt16) : Bool → List UInt16 → List UInt16
  | _, [] => []
  | skipping, c :: text =>
    if skipping && isdigit c then expandFrom table true text
    else if c = 37 ∧ startsWithDigit text then
      table (wtoi (text.takeWhile isdigit)) ++ expandFrom table true text
    else c :: expandFrom table false text

/-- The expanded text. -/
def expand (table : ℕ → List UInt16) (text : List UInt16) : List UInt16 :=
  expandFrom table false text

/-- `L"a %%12 b"`: the first `%` stays. -/
example : expand (fun id => [id.toUInt16]) [97, 37, 37, 49, 50, 98] = [97, 37, 12, 98] := by
  decide

end Win32Experiments.EventLog
