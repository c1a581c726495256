import Mathlib.Tactic.Common

/-!
# Base 128 varints

A varint is a number as bytes of seven bits, the lowest first; all bytes but the last have the
high bit set.

* `readVarint_varint`: a varint is read back, and what stands behind it is left alone;
* `length_lt_of_readVarint`: reading takes at least one byte.
-/

namespace Foundation

/-- The varint of a number. -/
def varint (n : ℕ) : List UInt8 :=
  if n < 128 then [UInt8.ofNat n] else UInt8.ofNat (n % 128 + 128) :: varint (n / 128)
termination_by n
decreasing_by omega

/-- The number at the front and the bytes behind it, or nothing if the bytes end inside it. -/
def readVarint : List UInt8 → Option (ℕ × List UInt8)
  | [] => none
  | b :: rest =>
    if b.toNat < 128 then some (b.toNat, rest)
    else (readVarint rest).map fun (n, rest) => (b.toNat - 128 + 128 * n, rest)

variable {n : ℕ} {bytes rest : List UInt8}

theorem varint_of_lt (h : n < 128) : varint n = [UInt8.ofNat n] := by
  rw [varint, if_pos h]

theorem varint_of_le (h : 128 ≤ n) :
    varint n = UInt8.ofNat (n % 128 + 128) :: varint (n / 128) := by
  rw [varint, if_neg (by omega)]

theorem varint_ne_nil (n : ℕ) : varint n ≠ [] := by
  by_cases h : n < 128
  · rw [varint_of_lt h]
    exact List.cons_ne_nil _ _
  · rw [varint_of_le (by omega)]
    exact List.cons_ne_nil _ _

/-- One byte for each seven bits. -/
theorem length_varint (h : n < 128 * 128) : (varint n).length = if n < 128 then 1 else 2 := by
  split
  · next hlt =>
    rw [varint_of_lt hlt]
    rfl
  · next hle =>
    rw [varint_of_le (by omega), varint_of_lt (by omega)]
    rfl

theorem lt_length_varint (h : 128 ≤ n) : 1 < (varint n).length := by
  have hpos := List.length_pos_iff.mpr (varint_ne_nil (n / 128))
  rw [varint_of_le h, List.length_cons]
  omega

/-- **Round trip.** -/
theorem readVarint_varint (n : ℕ) (rest : List UInt8) :
    readVarint (varint n ++ rest) = some (n, rest) := by
  have hsize : UInt8.size = 256 := rfl
  induction n using Nat.strongRecOn with
  | ind n ih =>
    by_cases h : n < 128
    · have hbyte : (UInt8.ofNat n).toNat = n := UInt8.toNat_ofNat_of_lt' (by omega)
      rw [varint_of_lt h, List.singleton_append, readVarint, hbyte, if_pos h]
    · have hbyte : (UInt8.ofNat (n % 128 + 128)).toNat = n % 128 + 128 :=
        UInt8.toNat_ofNat_of_lt' (by omega)
      rw [varint_of_le (by omega), List.cons_append, readVarint, hbyte, if_neg (by omega),
        ih (n / 128) (by omega), Option.map_some, Option.some.injEq, Prod.mk.injEq]
      exact ⟨by omega, rfl⟩

/-- Reading takes at least one byte. -/
theorem length_lt_of_readVarint (h : readVarint bytes = some (n, rest)) :
    rest.length < bytes.length := by
  induction bytes generalizing n rest with
  | nil => contradiction
  | cons b bytes ih =>
    rw [readVarint] at h
    split at h
    · rw [Option.some.injEq, Prod.mk.injEq] at h
      rw [← h.2, List.length_cons]
      omega
    · obtain ⟨⟨m, rest'⟩, hread, heq⟩ := Option.map_eq_some_iff.mp h
      rw [Prod.mk.injEq] at heq
      have hlt := ih hread
      rw [← heq.2, List.length_cons]
      omega

end Foundation
