import Mathlib.Algebra.GroupWithZero.Nat
import Win32Experiments.Foundation.Halting
import Win32Experiments.Foundation.Memory
import Win32Experiments.Foundation.Varint

/-!
# `TestMessage`

The code that the protocol compiler generates for the message: how it is sized, serialized,
merged and parsed. What it calls of the library is a parameter.
-/

namespace Win32Experiments.WebSocketProto

open Foundation

/-- `TestMessage`: its string, and the fields that are not of the message, in
`_internal_metadata_`. -/
structure TestMessage (Field : Type) where
  sometext : List UInt8
  unknownFields : List Field
deriving DecidableEq, Repr

/-- What the generated code calls of the library. A function that returns a pointer returns the
bytes from there on, or nothing for `nullptr`. -/
structure Library (Field : Type) where
  readTag : List UInt8 → Option (ℕ × List UInt8)
  /-- From the string as it stands and the bytes: the string as it is left, and the pointer. -/
  inlineGreedyStringParser : List UInt8 → List UInt8 → List UInt8 × Option (List UInt8)
  verifyUTF8 : List UInt8 → Bool
  unknownFieldParse : ℕ → List UInt8 → Option (Field × List UInt8)
  /-- What is written for a string under the number of its field. -/
  writeStringMaybeAliased : ℕ → List UInt8 → List UInt8
  stringSize : List UInt8 → ℕ
  /-- What is written for an unknown field. -/
  serializeUnknownField : Field → List UInt8

variable {Field : Type}

/-- `TestMessage::TestMessage` and `TestMessage::Clear`. -/
def TestMessage.empty : TestMessage Field := { sometext := [], unknownFields := [] }

/-- `TestMessage::set_sometext`. -/
def TestMessage.setSometext (m : TestMessage Field) (value : List UInt8) : TestMessage Field :=
  { m with sometext := value }

/-- `TestMessage::MergeFrom`. -/
def TestMessage.mergeFrom (m source : TestMessage Field) : TestMessage Field :=
  { unknownFields := m.unknownFields ++ source.unknownFields
    sometext := if 0 < source.sometext.length then source.sometext else m.sometext }

section

variable (lib : Library Field)

/-- `TestMessage::_InternalSerialize`. -/
def TestMessage.serialize (m : TestMessage Field) : List UInt8 :=
  (if 0 < m.sometext.length then lib.writeStringMaybeAliased 1 m.sometext else []) ++
    m.unknownFields.flatMap lib.serializeUnknownField

/-- `TestMessage::ByteSizeLong`. -/
def TestMessage.byteSizeLong (m : TestMessage Field) : ℕ :=
  (if 0 < m.sometext.length then 1 + lib.stringSize m.sometext else 0) +
    (m.unknownFields.map fun field => (lib.serializeUnknownField field).length).sum

/-- Where `_InternalParse` stands: the message so far, and the bytes from `ptr` on. -/
structure Parsing (Field : Type) where
  msg : TestMessage Field
  bytes : List UInt8

/-- How `_InternalParse` ends: at the end of the bytes; behind a tag that it hands to its caller
with `SetLastTag`; or at `failure`. -/
inductive ParseEnd
  | done
  | lastTag (tag : ℕ)
  | failure
deriving DecidableEq, Repr

/-- A turn of the loop of `TestMessage::_InternalParse`. -/
def parseTurn (p : Parsing Field) : Except (TestMessage Field × ParseEnd) (Parsing Field) :=
  if p.bytes = [] then .error (p.msg, .done)
  else match lib.readTag p.bytes with
    | none => .error (p.msg, .failure)
    | some (tag, bytes) =>
      if tag / 8 = 1 ∧ tag % 256 = 10 then
        -- The string is verified before the pointer is tested.
        match lib.inlineGreedyStringParser p.msg.sometext bytes with
        | (str, rest) =>
          if lib.verifyUTF8 str = false then .error (p.msg.setSometext str, .failure)
          else match rest with
            | none => .error (p.msg.setSometext str, .failure)
            | some bytes => .ok ⟨p.msg.setSometext str, bytes⟩
      else if tag % 8 = 4 ∨ tag = 0 then .error (p.msg, .lastTag tag)
      else match lib.unknownFieldParse tag bytes with
        | none => .error (p.msg, .failure)
        | some (field, bytes) =>
          .ok ⟨{ p.msg with unknownFields := p.msg.unknownFields ++ [field] }, bytes⟩

/-- `ParseFromArray` on a new message leaves `m`, and its loop has ended with `e`. -/
def ParsesTo (bytes : List UInt8) (m : TestMessage Field) (e : ParseEnd) : Prop :=
  Returns (parseTurn lib) ⟨.empty, bytes⟩ (m, e)

/-- `SerializeToArray`: whether the message fits, and the array. -/
def TestMessage.serializeToArray (m : TestMessage Field) (array : List UInt8) :
    Bool × List UInt8 :=
  if m.byteSizeLong lib ≤ array.length then (true, store array 0 (m.serialize lib))
  else (false, array)

/-! ## The library -/

/-- The largest length of a string, exclusive. -/
def maxSize : ℕ := 2 ^ 31

/-- The wire format, as far as the generated code relies on it. A tag is a varint, a string is
written as its tag, the varint of its length and its bytes, and what was written is read back. A
field that the library keeps for a message has a tag that the message has no use for. -/
structure Library.Contract (lib : Library Field) : Prop where
  readTag : ∀ tag rest, tag < 2 ^ 32 → lib.readTag (varint tag ++ rest) = some (tag, rest)
  readTag_lt : ∀ bytes tag rest, lib.readTag bytes = some (tag, rest) → rest.length < bytes.length
  writeString : ∀ number text, lib.writeStringMaybeAliased number text =
    varint (number * 8 + 2) ++ (varint text.length ++ text)
  stringSize : ∀ text, lib.stringSize text = (varint text.length).length + text.length
  readString : ∀ str text rest, text.length < maxSize →
    lib.inlineGreedyStringParser str (varint text.length ++ (text ++ rest)) = (text, some rest)
  readString_le : ∀ str bytes text rest,
    lib.inlineGreedyStringParser str bytes = (text, some rest) →
      text.length < maxSize ∧ rest.length ≤ bytes.length
  readUnknown : ∀ field, ∃ tag body, lib.serializeUnknownField field = varint tag ++ body ∧
    tag < 2 ^ 32 ∧ tag ≠ 10 ∧ tag % 8 ≠ 4 ∧ tag ≠ 0 ∧
    ∀ rest, lib.unknownFieldParse tag (body ++ rest) = some (field, rest)
  readUnknown_le : ∀ tag bytes field rest,
    lib.unknownFieldParse tag bytes = some (field, rest) → rest.length ≤ bytes.length

/-- A message that can be sent: its string is text, and not too long. -/
structure TestMessage.Valid (m : TestMessage Field) : Prop where
  text : m.sometext ≠ [] → lib.verifyUTF8 m.sometext = true
  size : m.sometext.length < maxSize

end

/-! ## A library for fields of numbers -/

/-- A field with a number as its value. -/
structure NumberField where
  number : ℕ
  value : ℕ
  number_pos : 0 < number
  number_lt : number * 8 < 2 ^ 32
deriving DecidableEq, Repr

/-- The number in the tag of such a field. -/
theorem number_of_tag {tag : ℕ} (h : tag % 8 = 0 ∧ 0 < tag ∧ tag < 2 ^ 32) :
    0 < tag / 8 ∧ tag / 8 * 8 < 2 ^ 32 := by
  omega

/-- The wire format of strings of seven-bit characters and of numbers. -/
def wireFormat : Library NumberField where
  readTag bytes := (readVarint bytes).filter fun (tag, _) => tag < 2 ^ 32
  inlineGreedyStringParser str bytes :=
    match readVarint bytes with
    | none => (str, none)
    | some (size, bytes) =>
      if size < maxSize ∧ size ≤ bytes.length then (bytes.take size, some (bytes.drop size))
      else (str, none)
  verifyUTF8 text := text.all (· < 128)
  unknownFieldParse tag bytes :=
    if h : tag % 8 = 0 ∧ 0 < tag ∧ tag < 2 ^ 32 then
      (readVarint bytes).map fun (value, rest) =>
        (⟨tag / 8, value, (number_of_tag h).1, (number_of_tag h).2⟩, rest)
    else none
  writeStringMaybeAliased number text :=
    varint (number * 8 + 2) ++ (varint text.length ++ text)
  stringSize text := (varint text.length).length + text.length
  serializeUnknownField field := varint (field.number * 8) ++ varint field.value

/-- It is one that the generated code can rely on. -/
theorem wireFormat_contract : wireFormat.Contract where
  readTag tag rest htag := by
    show (readVarint (varint tag ++ rest)).filter _ = _
    rw [readVarint_varint, Option.filter_some, if_pos (by simpa using htag)]
  readTag_lt bytes tag rest h := by
    obtain ⟨hread, -⟩ := Option.filter_eq_some_iff.mp h
    exact length_lt_of_readVarint hread
  writeString _ _ := rfl
  stringSize _ := rfl
  readString str text rest hsize := by
    have hle : text.length ≤ (text ++ rest).length := by
      rw [List.length_append]
      omega
    unfold wireFormat
    simp only [readVarint_varint]
    rw [if_pos ⟨hsize, hle⟩, List.take_left, List.drop_left]
  readString_le str bytes text rest h := by
    unfold wireFormat at h
    simp only at h
    split at h
    · exact absurd (Prod.mk.inj h).2 (Option.some_ne_none rest).symm
    next size rest' hread =>
      have hlt := length_lt_of_readVarint hread
      split at h
      · next hsize =>
        rw [Prod.mk.injEq, Option.some.injEq] at h
        rw [← h.1, ← h.2, List.length_take, List.length_drop]
        omega
      · exact absurd (Prod.mk.inj h).2 (Option.some_ne_none rest).symm
  readUnknown field := by
    have hpos := field.number_pos
    have hlt := field.number_lt
    refine ⟨field.number * 8, varint field.value, rfl, hlt, by omega, by omega, by omega, ?_⟩
    intro rest
    unfold wireFormat
    simp only
    rw [dif_pos (by omega), readVarint_varint, Option.map_some]
    simp only [Nat.mul_div_cancel _ (by decide : 0 < 8)]
  readUnknown_le tag bytes field rest h := by
    unfold wireFormat at h
    simp only at h
    split at h
    · obtain ⟨⟨value, rest'⟩, hread, heq⟩ := Option.map_eq_some_iff.mp h
      have hlt := length_lt_of_readVarint hread
      rw [Prod.mk.injEq] at heq
      rw [← heq.2]
      exact hlt.le
    · contradiction

end Win32Experiments.WebSocketProto
