import Mathlib.Logic.Function.Basic
import Mathlib.Tactic.Common

/-!
# `ByteToStr`

The hex dump of an array of bytes: two digits and a blank for each byte, written over the string
that the caller passes. The memory is what lies from `sz` on; offsets count from there.
-/

namespace Win32Experiments.CertEncodeDecode

/-- A NUL-terminated string and the memory that it lies in. The buffer of the string ends at the
NUL; the memory goes on. -/
structure Destination where
  memory : ℕ → UInt8
  strlen : ℕ
  nonzero : ∀ i < strlen, memory i ≠ 0
  terminated : memory strlen = 0

/-- The memory, the pointer `sz` that runs over it, and the offsets written so far. -/
structure Writing where
  memory : ℕ → UInt8
  sz : ℕ
  written : List ℕ

/-- `*sz++ = c`. -/
def Writing.put (w : Writing) (c : UInt8) : Writing :=
  ⟨Function.update w.memory w.sz c, w.sz + 1, w.written ++ [w.sz]⟩

/-- `(b <= 9) ? b + '0' : (b - 10) + 'A'`. -/
def digit (b : ℕ) : UInt8 := .ofNat (if b ≤ 9 then b + 48 else (b - 10) + 65)

/-- One turn of the loop, at the byte `*pb`. -/
def Writing.putByte (w : Writing) (byte : UInt8) : Writing :=
  ((w.put (digit ((byte.toNat &&& 0xF0) >>> 4))).put (digit (byte.toNat &&& 0x0F))).put 32

/-- The loop over the bytes from `pb` on. -/
def Writing.putBytes (pb : ℕ → UInt8) : ℕ → Writing → Writing
  | 0, w => w
  | n + 1, w => putBytes (fun i => pb (i + 1)) n (w.putByte (pb 0))

/-- `MyHandleError` prints its message and exits the process. -/
structure Exit where
  status : ℕ
  message : String

/-- `ByteToStr`. -/
def byteToStr (cb : ℕ) (pv : ℕ → UInt8) (sz : Destination) : Except Exit Writing :=
  if sz.strlen < cb then
    .error ⟨1, "The array of bytes is too long for the allocated string."⟩
  else .ok ((Writing.putBytes pv cb ⟨sz.memory, 0, []⟩).put 0)

/-! ## The text, read back -/

/-- The memory holds the string `text` and its NUL. -/
structure HoldsString (memory : ℕ → UInt8) (text : List UInt8) : Prop where
  cells : ∀ i (h : i < text.length), memory i = text[i]
  nonzero : 0 ∉ text
  terminated : memory text.length = 0

/-- The value of a hex digit. -/
def digitValue (c : UInt8) : ℕ := if c.toNat < 65 then c.toNat - 48 else c.toNat - 65 + 10

/-- The bytes that a dump stands for. -/
def decode : List UInt8 → Option (List UInt8)
  | [] => some []
  | high :: low :: 32 :: rest =>
    (decode rest).map (UInt8.ofNat (16 * digitValue high + digitValue low) :: ·)
  | _ => none

/-- Where the check passes, only the buffer of the string is written, and the text in it stands for
the bytes. -/
def BoundedAndReversible (cb : ℕ) (pv : ℕ → UInt8) (sz : Destination) : Prop :=
  ∀ w, byteToStr cb pv sz = .ok w →
    (∀ offset ∈ w.written, offset < sz.strlen + 1) ∧
    ∃ text, HoldsString w.memory text ∧ decode text = some ((List.range cb).map pv)

/-! ## Digits -/

theorem digitValue_digit : ∀ b < 16, digitValue (digit b) = b := by decide

theorem digit_ne_zero : ∀ b < 16, digit b ≠ 0 := by decide

theorem highNibble (n : ℕ) (h : n < 256) : (n &&& 0xF0) >>> 4 = n / 16 := by
  have hlow : n / 16 &&& 15 = n / 16 % 16 := Nat.and_two_pow_sub_one_eq_mod (n / 16) 4
  rw [Nat.shiftRight_and_distrib, Nat.shiftRight_eq_div_pow]
  show n / 16 &&& 15 = n / 16
  omega

theorem lowNibble (n : ℕ) : n &&& 0x0F = n % 16 := Nat.and_two_pow_sub_one_eq_mod n 4

/-! ## The dump -/

/-- The three characters of a byte. -/
def byteText (byte : UInt8) : List UInt8 :=
  [digit ((byte.toNat &&& 0xF0) >>> 4), digit (byte.toNat &&& 0x0F), 32]

/-- The text of `n` bytes. -/
def dump (pb : ℕ → UInt8) : ℕ → List UInt8
  | 0 => []
  | n + 1 => byteText (pb 0) ++ dump (fun i => pb (i + 1)) n

theorem length_dump (pb : ℕ → UInt8) (n : ℕ) : (dump pb n).length = 3 * n := by
  induction n generalizing pb with
  | zero => rfl
  | succ n ih =>
    rw [dump, List.length_append, ih]
    show 3 + 3 * n = 3 * (n + 1)
    omega

/-- The digits of a byte give the byte back. -/
theorem byteText_value (byte : UInt8) :
    UInt8.ofNat (16 * digitValue (digit ((byte.toNat &&& 0xF0) >>> 4))
      + digitValue (digit (byte.toNat &&& 0x0F))) = byte := by
  have hbyte : byte.toNat < 256 := byte.toNat_lt
  rw [highNibble _ hbyte, lowNibble, digitValue_digit _ (by omega),
    digitValue_digit _ (Nat.mod_lt _ (by decide)), Nat.div_add_mod]
  exact UInt8.ofNat_toNat

theorem zero_notMem_byteText (byte : UInt8) : 0 ∉ byteText byte := by
  have hbyte : byte.toNat < 256 := byte.toNat_lt
  rw [byteText, highNibble _ hbyte, lowNibble]
  intro hmem
  simp only [List.mem_cons, List.not_mem_nil, or_false] at hmem
  obtain hhigh | hlow | hblank := hmem
  · exact digit_ne_zero _ (by omega) hhigh.symm
  · exact digit_ne_zero _ (Nat.mod_lt _ (by decide)) hlow.symm
  · exact absurd hblank (by decide)

theorem zero_notMem_dump (pb : ℕ → UInt8) (n : ℕ) : 0 ∉ dump pb n := by
  induction n generalizing pb with
  | zero => exact List.not_mem_nil
  | succ n ih =>
    rw [dump, List.mem_append]
    exact fun hmem => hmem.elim (zero_notMem_byteText _) (ih _)

/-- **The dump is reversible.** -/
theorem decode_dump (pb : ℕ → UInt8) (n : ℕ) :
    decode (dump pb n) = some ((List.range n).map pb) := by
  induction n generalizing pb with
  | zero => rfl
  | succ n ih =>
    rw [dump, byteText, List.range_succ_eq_map, List.map_cons, List.map_map]
    simp only [List.cons_append, List.nil_append, decode, ih, Option.map_some, byteText_value]
    rfl

/-! ## The writes -/

section Writes

variable (w : Writing) (cs : List UInt8)

theorem put_written :
    (cs.foldl Writing.put w).written = w.written ++ List.range' w.sz cs.length := by
  induction cs generalizing w with
  | nil => exact (List.append_nil _).symm
  | cons c cs ih =>
    rw [List.foldl_cons, ih, List.length_cons, List.range'_succ]
    show w.written ++ [w.sz] ++ List.range' (w.sz + 1) cs.length = _
    rw [List.append_assoc]
    rfl

/-- What lies in front of the pointer stays. -/
theorem put_memory_before {i : ℕ} (h : i < w.sz) :
    (cs.foldl Writing.put w).memory i = w.memory i := by
  induction cs generalizing w with
  | nil => rfl
  | cons c cs ih =>
    rw [List.foldl_cons, ih (w.put c) (Nat.lt_succ_of_lt h)]
    exact Function.update_of_ne (Nat.ne_of_lt h) _ _

/-- The characters lie in order from the pointer on. -/
theorem put_memory {i : ℕ} (h : i < cs.length) :
    (cs.foldl Writing.put w).memory (w.sz + i) = cs[i] := by
  induction cs generalizing w i with
  | nil => exact absurd h (Nat.not_lt_zero _)
  | cons c cs ih =>
    rw [List.foldl_cons]
    match i with
    | 0 =>
      rw [Nat.add_zero, put_memory_before (w.put c) cs (Nat.lt_succ_self w.sz)]
      exact Function.update_self _ _ _
    | i + 1 =>
      have hlt : i < cs.length := Nat.lt_of_succ_lt_succ h
      have hnext : w.sz + (i + 1) = (w.put c).sz + i := by
        show w.sz + (i + 1) = w.sz + 1 + i
        omega
      rw [hnext, ih (w.put c) hlt]
      rfl

end Writes

/-- The loop writes the dump. -/
theorem putBytes_eq (pb : ℕ → UInt8) (n : ℕ) (w : Writing) :
    w.putBytes pb n = (dump pb n).foldl Writing.put w := by
  induction n generalizing pb w with
  | zero => rfl
  | succ n ih =>
    rw [Writing.putBytes, ih, dump, List.foldl_append]
    rfl

section Call

variable (cb : ℕ) (pv : ℕ → UInt8) (sz : Destination)

theorem byteToStr_of_lt (h : sz.strlen < cb) :
    byteToStr cb pv sz =
      .error ⟨1, "The array of bytes is too long for the allocated string."⟩ := if_pos h

/-- Where the check passes, the dump and a NUL are written. -/
theorem byteToStr_of_le (h : cb ≤ sz.strlen) :
    byteToStr cb pv sz = .ok ((dump pv cb ++ [0]).foldl Writing.put ⟨sz.memory, 0, []⟩) := by
  rw [byteToStr, if_neg (Nat.not_lt.mpr h), putBytes_eq, List.foldl_append]
  rfl

theorem written_byteToStr :
    ((dump pv cb ++ [0]).foldl Writing.put ⟨sz.memory, 0, []⟩).written
      = List.range (3 * cb + 1) := by
  rw [put_written, List.nil_append, List.length_append, length_dump, ← List.range_eq_range']
  rfl

/-- The memory holds the dump. -/
theorem holdsString_byteToStr :
    HoldsString ((dump pv cb ++ [0]).foldl Writing.put ⟨sz.memory, 0, []⟩).memory
      (dump pv cb) := by
  have hlen : (dump pv cb ++ [0]).length = (dump pv cb).length + 1 := List.length_append
  have hcell : ∀ i (h : i < (dump pv cb ++ [0]).length),
      ((dump pv cb ++ [0]).foldl Writing.put ⟨sz.memory, 0, []⟩).memory i
        = (dump pv cb ++ [0])[i] := by
    intro i h
    have hput := put_memory ⟨sz.memory, 0, []⟩ (dump pv cb ++ [0]) h
    rwa [Nat.zero_add] at hput
  constructor
  · intro i h
    rw [hcell i (by omega), List.getElem_append_left h]
  · exact zero_notMem_dump pv cb
  · rw [hcell _ (by omega), List.getElem_append_right (Nat.le_refl _)]
    simp

/-- **When the dump stays in the buffer.** Where the check does not stop it, three characters for
each byte are written over a string of one character for each byte. -/
theorem boundedAndReversible_iff :
    BoundedAndReversible cb pv sz ↔ sz.strlen < cb ∨ 3 * cb ≤ sz.strlen := by
  unfold BoundedAndReversible
  by_cases hcheck : sz.strlen < cb
  · rw [byteToStr_of_lt cb pv sz hcheck]
    refine ⟨fun _ => .inl hcheck, fun _ w hw => ?_⟩
    contradiction
  · rw [byteToStr_of_le cb pv sz (Nat.le_of_not_lt hcheck)]
    constructor
    · intro h
      obtain ⟨hwithin, -⟩ := h _ rfl
      rw [written_byteToStr] at hwithin
      have hlast := hwithin (3 * cb) (List.mem_range.mpr (Nat.lt_succ_self _))
      omega
    · intro h w hw
      rw [← Except.ok.inj hw]
      refine ⟨?_, dump pv cb, holdsString_byteToStr cb pv sz, decode_dump pv cb⟩
      intro offset hmem
      rw [written_byteToStr, List.mem_range] at hmem
      omega

end Call

/-- One byte, written over a string of one character. -/
theorem not_boundedAndReversible :
    ¬ BoundedAndReversible 1 (fun _ => 0x4D)
      ⟨fun i => if i = 0 then 97 else 0, 1, by decide, by decide⟩ := by
  intro h
  obtain ⟨hwithin, -⟩ := h _ rfl
  exact absurd (hwithin 3 (by decide)) (by decide)

end Win32Experiments.CertEncodeDecode
