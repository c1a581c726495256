import Win32Experiments.Foundation.Memory

/-!
# Extents of a block

An extent is a range of cells, by its offset and its length. What a program reads or writes is
an extent; it is safe where the extent lies within the block, and leaves alone what is disjoint
from it.
-/

namespace Foundation

/-- The `length` cells from `offset`. -/
structure Extent where
  offset : ℕ
  length : ℕ
deriving DecidableEq, Repr

namespace Extent

/-- The first offset behind the extent. -/
def stop (e : Extent) : ℕ := e.offset + e.length

/-- The extent lies in a block of `size` cells. -/
def Within (e : Extent) (size : ℕ) : Prop := e.stop ≤ size

/-- One of the extents ends before the other begins. -/
def Disjoint (e f : Extent) : Prop := e.stop ≤ f.offset ∨ f.stop ≤ e.offset

instance (e : Extent) (size : ℕ) : Decidable (e.Within size) :=
  inferInstanceAs (Decidable (_ ≤ _))

instance (e f : Extent) : Decidable (e.Disjoint f) :=
  inferInstanceAs (Decidable (_ ∨ _))

variable {offset length size : ℕ}

@[simp] theorem within_mk : Within ⟨offset, length⟩ size ↔ offset + length ≤ size := Iff.rfl

end Extent

end Foundation
