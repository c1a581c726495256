import Mathlib.Algebra.Group.Int.Defs
import Mathlib.Algebra.Group.Nat.Defs
import Mathlib.Data.Int.Basic
import Mathlib.Tactic.Common

/-!
# Machine words

Unsigned words of `w` bits as natural numbers below `2 ^ w`: wrapping addition and
subtraction, the two's-complement reading of a 32-bit word, and the little-endian bytes of
a word and of a string of 16-bit units.
-/

namespace Foundation

/-- Addition of `w`-bit words. -/
def addW (w a b : ℕ) : ℕ := (a + b) % 2 ^ w

/-- Subtraction of `w`-bit words. -/
def subW (w a b : ℕ) : ℕ := (a + 2 ^ w - b) % 2 ^ w

/-- Addition that stays below `2 ^ w` does not wrap. -/
theorem addW_of_lt {w a b : ℕ} (h : a + b < 2 ^ w) : addW w a b = a + b :=
  Nat.mod_eq_of_lt h

/-- Subtraction of a smaller word does not wrap. -/
theorem subW_of_le {w a b : ℕ} (ha : a < 2 ^ w) (h : b ≤ a) : subW w a b = a - b := by
  rw [subW, Nat.sub_add_comm h, Nat.add_mod_right]
  exact Nat.mod_eq_of_lt (by omega)

/-- The signed value of a 32-bit word. -/
def toInt32 (n : ℕ) : ℤ := if n < 2 ^ 31 then (n : ℤ) else (n : ℤ) - 2 ^ 32

theorem toInt32_of_lt {n : ℕ} (h : n < 2 ^ 31) : toInt32 n = n := if_pos h

/-- A word from `2 ^ 31` on is a negative number. -/
theorem toInt32_neg {n : ℕ} (h : 2 ^ 31 ≤ n) (hn : n < 2 ^ 32) : toInt32 n < 0 := by
  rw [toInt32, if_neg (by omega)]
  omega

/-! ## Little-endian bytes -/

/-- The `k` low bytes of `n`, least significant first. -/
def leBytes : ℕ → ℕ → List UInt8
  | 0, _ => []
  | k + 1, n => UInt8.ofNat n :: leBytes k (n / 256)

/-- The number that little-endian bytes denote. -/
def leValue : List UInt8 → ℕ
  | [] => 0
  | b :: bs => b.toNat + 256 * leValue bs

@[simp] theorem length_leBytes (k n : ℕ) : (leBytes k n).length = k := by
  induction k generalizing n with
  | zero => rfl
  | succ k ih => rw [leBytes, List.length_cons, ih]

/-- `k` bytes denote a number below `256 ^ k`. -/
theorem leValue_lt (bs : List UInt8) : leValue bs < 256 ^ bs.length := by
  induction bs with
  | nil => exact Nat.one_pos
  | cons b bs ih =>
    have hb : b.toNat < 256 := b.toNat_lt
    rw [leValue, List.length_cons, Nat.pow_succ]
    omega

/-- The bytes of a word that fits denote the word. -/
theorem leValue_leBytes {k n : ℕ} (h : n < 256 ^ k) : leValue (leBytes k n) = n := by
  induction k generalizing n with
  | zero =>
    rw [Nat.pow_zero, Nat.lt_one_iff] at h
    rw [h, leBytes, leValue]
  | succ k ih =>
    rw [Nat.pow_succ] at h
    have hdiv : n / 256 < 256 ^ k := Nat.div_lt_of_lt_mul (by omega)
    rw [leBytes, leValue, ih hdiv, UInt8.toNat_ofNat']
    omega

/-- Bytes are those of the number that they denote. -/
theorem leBytes_leValue (bs : List UInt8) : leBytes bs.length (leValue bs) = bs := by
  induction bs with
  | nil => rfl
  | cons b bs ih =>
    have hb : b.toNat < 256 := b.toNat_lt
    have hlow : UInt8.ofNat (b.toNat + 256 * leValue bs) = b := by
      rw [← UInt8.toNat_inj, UInt8.toNat_ofNat']
      omega
    have hhigh : (b.toNat + 256 * leValue bs) / 256 = leValue bs := by omega
    rw [List.length_cons, leValue, leBytes, hlow, hhigh, ih]

/-- The bytes of a string of 16-bit units. -/
def wideBytes : List UInt16 → List UInt8
  | [] => []
  | u :: us => leBytes 2 u.toNat ++ wideBytes us

/-- The 16-bit units that bytes denote; a last byte without a partner is no unit. -/
def wideUnits : List UInt8 → List UInt16
  | lo :: hi :: bs => UInt16.ofNat (leValue [lo, hi]) :: wideUnits bs
  | _ => []

@[simp] theorem length_wideBytes (us : List UInt16) : (wideBytes us).length = 2 * us.length := by
  induction us with
  | nil => rfl
  | cons u us ih =>
    rw [wideBytes, List.length_append, length_leBytes, ih, List.length_cons]
    omega

theorem wideBytes_append (us vs : List UInt16) :
    wideBytes (us ++ vs) = wideBytes us ++ wideBytes vs := by
  induction us with
  | nil => rfl
  | cons u us ih => rw [List.cons_append, wideBytes, wideBytes, ih, List.append_assoc]

/-- The bytes of zero units are zero. -/
theorem wideBytes_replicate_zero (n : ℕ) :
    wideBytes (List.replicate n 0) = List.replicate (2 * n) 0 := by
  induction n with
  | zero => rfl
  | succ n ih =>
    rw [List.replicate_succ, wideBytes, ih]
    rfl

/-- The bytes of a string denote the string. -/
theorem wideUnits_wideBytes (us : List UInt16) : wideUnits (wideBytes us) = us := by
  induction us with
  | nil => rfl
  | cons u us ih =>
    have hu : u.toNat < 256 ^ 2 := u.toNat_lt
    have hvalue : leValue (leBytes 2 u.toNat) = u.toNat := leValue_leBytes hu
    show UInt16.ofNat (leValue (leBytes 2 u.toNat)) :: wideUnits (wideBytes us) = u :: us
    rw [hvalue, ih, UInt16.ofNat_toNat]

end Foundation
