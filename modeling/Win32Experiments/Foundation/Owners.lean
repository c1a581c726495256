import Win32Experiments.Foundation.Handles

/-!
# Objects that own handles

Objects are numbered in the order of their construction; one that is destroyed leaves its place
empty. What they hold together is counted: replacing an object takes away what the old one held
and adds what the new one holds.

A program may lose handles, or multiply them. A `Balance` keeps account of both, and
`Balance.accounts_iff` says that the objects account for the handles exactly if what was multiplied
is what was lost.
-/

namespace Foundation

/-! ## What objects hold -/

section Held

variable {α : Type*} {f : α → List ℕ} {objects : List (Option α)} {a b : α} {i j h : ℕ}

/-- The object at a place, if it is alive. -/
def objectAt (objects : List (Option α)) (i : ℕ) : Option α := objects[i]?.join

theorem objectAt_eq_some : objectAt objects i = some a ↔ objects[i]? = some (some a) :=
  Option.join_eq_some_iff

theorem objectAt_set_self (hi : objectAt objects i = some a) (new : Option α) :
    objectAt (objects.set i new) i = new := by
  have hlt : i < objects.length := (List.getElem?_eq_some_iff.mp (objectAt_eq_some.mp hi)).1
  rw [objectAt, List.getElem?_set_self hlt]
  rfl

theorem objectAt_set_ne (hij : i ≠ j) (new : Option α) :
    objectAt (objects.set i new) j = objectAt objects j := by
  rw [objectAt, List.getElem?_set_ne hij]
  rfl

/-- The handles at a place. -/
def heldAt (f : α → List ℕ) (object : Option α) : List ℕ := object.elim [] f

/-- The handles that the objects hold together. -/
def held (f : α → List ℕ) (objects : List (Option α)) : List ℕ := objects.flatMap (heldAt f)

@[simp] theorem heldAt_none : heldAt f none = [] := rfl

@[simp] theorem heldAt_some (a : α) : heldAt f (some a) = f a := rfl

theorem count_held_concat {new : Option α} :
    (held f (objects ++ [new])).count h = (held f objects).count h + (heldAt f new).count h := by
  rw [held, held, List.flatMap_append, List.count_append, List.flatMap_singleton]

/-- Replacing an object changes what is held by what the two hold. -/
theorem count_held_set {new : Option α} (hi : objectAt objects i = some a) :
    (held f (objects.set i new)).count h + (f a).count h =
      (held f objects).count h + (heldAt f new).count h := by
  rw [objectAt_eq_some] at hi
  induction objects generalizing i with
  | nil => contradiction
  | cons object objects ih =>
    match i with
    | 0 =>
      rw [List.getElem?_cons_zero, Option.some.injEq] at hi
      simp only [held, List.set_cons_zero, List.flatMap_cons, List.count_append, hi, heldAt_some]
      omega
    | i + 1 =>
      rw [List.getElem?_cons_succ] at hi
      have hrest := ih hi
      simp only [held] at hrest
      simp only [held, List.set_cons_succ, List.flatMap_cons, List.count_append]
      omega

theorem count_le_held (hi : objectAt objects i = some a) :
    (f a).count h ≤ (held f objects).count h := by
  have hset : (held f (objects.set i none)).count h + (f a).count h =
      (held f objects).count h + 0 := count_held_set hi
  omega

/-- Two objects hold together no more than all. -/
theorem count_add_le_held (hij : i ≠ j) (hi : objectAt objects i = some a)
    (hj : objectAt objects j = some b) :
    (f a).count h + (f b).count h ≤ (held f objects).count h := by
  have hset : (held f (objects.set i none)).count h + (f a).count h =
      (held f objects).count h + 0 := count_held_set hi
  have hother : objectAt (objects.set i none) j = some b := (objectAt_set_ne hij none).trans hj
  have hle : (f b).count h ≤ (held f (objects.set i none)).count h := count_le_held hother
  omega

/-- Nothing is held when every object is destroyed. -/
theorem held_eq_nil (hdestroyed : ∀ object ∈ objects, object = none) : held f objects = [] := by
  rw [held, List.flatMap_eq_nil_iff]
  intro object hmem
  rw [hdestroyed object hmem, heldAt_none]

end Held

/-! ## The balance -/

namespace Handles

variable {hs : Handles} {held extra lost l : List ℕ} {h : ℕ}

/-- One for a handle that was opened. -/
def known (hs : Handles) (h : ℕ) : ℕ := if h < hs.opened then 1 else 0

theorem known_le_one : hs.known h ≤ 1 := by
  rw [known]
  split <;> omega

theorem known_create : hs.create.known h = hs.known h + [hs.opened].count h := by
  rw [known, known, opened_create, List.count_singleton]
  simp only [beq_iff_eq]
  split <;> split <;> split <;> omega

theorem known_create_create :
    hs.create.create.known h = hs.known h + [hs.opened, hs.create.opened].count h := by
  show _ = hs.known h + ([hs.opened] ++ [hs.create.opened]).count h
  rw [List.count_append, known_create, known_create, Nat.add_assoc]

@[simp] theorem known_close (g : ℕ) : (hs.close g).known h = hs.known h := rfl

@[simp] theorem known_closeAll : (hs.closeAll l).known h = hs.known h := by
  induction l generalizing hs with
  | nil => rfl
  | cons g l ih => rw [closeAll_cons, ih, known_close]

theorem count_closeAll : (hs.closeAll l).closed.count h = hs.closed.count h + l.count h := by
  induction l generalizing hs with
  | nil => rfl
  | cons g l ih =>
    rw [closeAll_cons, ih, closed_close, List.count_cons, List.count_cons]
    omega

theorem accounts_nil_iff : hs.Accounts [] ↔ hs.EachClosedOnce := by
  simp only [Accounts, EachClosedOnce, List.count_nil, Nat.zero_add]

/-- What is held and closed goes on accounting for the handles when it changes by those opened. -/
theorem Accounts.of_counts {hs' : Handles} {held' : List ℕ} (ha : hs.Accounts held)
    (hcounts : ∀ h, held'.count h + hs'.closed.count h + hs.known h =
      held.count h + hs.closed.count h + hs'.known h) : hs'.Accounts held' := by
  intro h
  have hh := ha h
  have hcount := hcounts h
  rw [known, known] at hcount
  omega

/-- The handles opened and those multiplied are together the ones held, closed and lost. -/
def Balance (hs : Handles) (held extra lost : List ℕ) : Prop :=
  ∀ h, held.count h + hs.closed.count h + lost.count h = hs.known h + extra.count h

theorem balance_empty : empty.Balance [] [] [] := by
  intro h
  rfl

/-- The objects account for the handles exactly if those multiplied are those lost. -/
theorem Balance.accounts_iff (hb : hs.Balance held extra lost) :
    hs.Accounts held ↔ ∀ h, extra.count h = lost.count h := by
  apply forall_congr'
  intro h
  have hh := hb h
  rw [known] at hh
  omega

end Handles

end Foundation
