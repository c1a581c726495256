import Mathlib.Tactic.Common
import Mathlib.Data.List.Count
import Mathlib.Data.List.Perm.Basic

/-!
# Handles

A manager of handles names each handle by the number of those opened before it, and keeps the
log of what it was asked to close. A program *accounts* for the handles when those it holds,
and those in the log, are together the opened ones, each once: then a handle it holds is live,
and at the end everything was closed exactly once if and only if it holds nothing more.
-/

namespace Foundation

/-- The number of handles opened, and the handles passed to close. -/
structure Handles where
  opened : ℕ
  closed : List ℕ
deriving DecidableEq, Repr

namespace Handles

/-- Before the first open. -/
def empty : Handles := { opened := 0, closed := [] }

/-- An open: the new handle is `hs.opened`. -/
def create (hs : Handles) : Handles := { hs with opened := hs.opened + 1 }

/-- A close of the handle `h`, whatever it is. -/
def close (hs : Handles) (h : ℕ) : Handles := { hs with closed := h :: hs.closed }

/-- The closes of the handles in `l`, the first of them first. -/
def closeAll (hs : Handles) (l : List ℕ) : Handles := l.foldl close hs

/-- The handle was opened and not closed since. -/
def Live (hs : Handles) (h : ℕ) : Prop := h < hs.opened ∧ h ∉ hs.closed

/-- Each handle opened was closed exactly once, and nothing else was passed to close. -/
def EachClosedOnce (hs : Handles) : Prop :=
  ∀ h, hs.closed.count h = if h < hs.opened then 1 else 0

/-- The handles opened are those in `held` and those closed, each once. -/
def Accounts (hs : Handles) (held : List ℕ) : Prop :=
  ∀ h, held.count h + hs.closed.count h = if h < hs.opened then 1 else 0

instance (hs : Handles) (h : ℕ) : Decidable (hs.Live h) :=
  inferInstanceAs (Decidable (_ ∧ _))

variable {hs : Handles} {held held' l : List ℕ} {h : ℕ}

@[simp] theorem opened_create : hs.create.opened = hs.opened + 1 := rfl

@[simp] theorem closed_create : hs.create.closed = hs.closed := rfl

@[simp] theorem opened_close : (hs.close h).opened = hs.opened := rfl

@[simp] theorem closed_close : (hs.close h).closed = h :: hs.closed := rfl

@[simp] theorem closeAll_nil : hs.closeAll [] = hs := rfl

@[simp] theorem closeAll_cons : hs.closeAll (h :: l) = (hs.close h).closeAll l := rfl

/-- What is alive behind an opening: the new handle, unless it was closed before, and the others. -/
theorem live_create_iff {k : ℕ} :
    hs.create.Live k ↔ k = hs.opened ∧ k ∉ hs.closed ∨ hs.Live k := by
  unfold Live
  rw [opened_create, closed_create]
  constructor
  · rintro ⟨hlt, hmem⟩
    by_cases heq : k = hs.opened
    · exact Or.inl ⟨heq, hmem⟩
    · exact Or.inr ⟨by omega, hmem⟩
  · rintro (⟨heq, hmem⟩ | ⟨hlt, hmem⟩)
    · exact ⟨by omega, hmem⟩
    · exact ⟨by omega, hmem⟩

theorem accounts_empty : empty.Accounts [] := by
  intro h
  simp [empty]

/-- The order of the handles held does not matter. -/
theorem Accounts.perm (ha : hs.Accounts held) (hp : held.Perm held') : hs.Accounts held' := by
  intro h
  rw [← hp.count_eq h]
  exact ha h

/-- An open adds the new handle to those held. -/
theorem Accounts.create (ha : hs.Accounts held) : hs.create.Accounts (hs.opened :: held) := by
  intro h
  have hh := ha h
  rw [List.count_cons, opened_create, closed_create]
  by_cases heq : hs.opened = h
  · subst heq
    simp only [Nat.lt_irrefl, if_false] at hh
    simp only [beq_self_eq_true, if_true, Nat.lt_succ_self]
    omega
  · simp only [beq_iff_eq, heq, if_false]
    by_cases hlt : h < hs.opened
    · rw [if_pos hlt] at hh
      rw [if_pos (by omega)]
      omega
    · rw [if_neg hlt] at hh
      rw [if_neg (by omega)]
      omega

/-- A close takes the handle from those held. -/
theorem Accounts.close (ha : hs.Accounts (h :: held)) : (hs.close h).Accounts held := by
  intro k
  have hk := ha k
  rw [List.count_cons] at hk
  rw [opened_close, closed_close, List.count_cons]
  omega

theorem Accounts.closeAll (ha : hs.Accounts (l ++ held)) : (hs.closeAll l).Accounts held := by
  induction l generalizing hs with
  | nil => exact ha
  | cons h l ih =>
    rw [closeAll_cons]
    apply ih
    exact Accounts.close ha

/-- A handle held is live. -/
theorem Accounts.live (ha : hs.Accounts held) (hmem : h ∈ held) : hs.Live h := by
  have hcount := ha h
  have hpos : 0 < held.count h := List.count_pos_iff.mpr hmem
  constructor
  · by_contra hge
    rw [if_neg hge] at hcount
    omega
  · intro hclosed
    have hpos' : 0 < hs.closed.count h := List.count_pos_iff.mpr hclosed
    split at hcount <;> omega

/-- Everything was closed exactly once when nothing is held any more. -/
theorem Accounts.eachClosedOnce_iff (ha : hs.Accounts held) :
    hs.EachClosedOnce ↔ held = [] := by
  constructor
  · intro hall
    rw [List.eq_nil_iff_forall_not_mem]
    intro h hmem
    have hpos : 0 < held.count h := List.count_pos_iff.mpr hmem
    have hcount := ha h
    rw [hall h] at hcount
    omega
  · intro hnil h
    subst hnil
    simpa using ha h

end Handles

end Foundation
