import Mathlib.Data.List.Count
import Mathlib.Data.List.Perm.Basic
import Win32Experiments.Foundation.Owners

/-!
# Objects that wait

Each object of a table waits for one item, which is filed under the place of the object, and each
item is waited for. An item is delivered by taking it and the object; an object waits again
when it is put back together with an item. What an object and its item have to do with each other
is a relation `R`.
-/

namespace Foundation

section Places

variable {α : Type*} {objects : List (Option α)} {i j : ℕ}

theorem objectAt_set_of_lt (hi : i < objects.length) (new : Option α) :
    objectAt (objects.set i new) i = new := by
  rw [objectAt, List.getElem?_set_self hi]
  rfl

theorem lt_length_of_objectAt {a : α} (hi : objectAt objects i = some a) : i < objects.length :=
  (List.getElem?_eq_some_iff.mp (objectAt_eq_some.mp hi)).1

/-- What is there when an object is taken was there before. -/
theorem objectAt_of_set_none {a : α} (h : objectAt (objects.set i none) j = some a) :
    objectAt objects j = some a := by
  by_cases heq : i = j
  · subst heq
    by_cases hlt : i < objects.length
    · rw [objectAt_set_of_lt hlt] at h
      contradiction
    · rw [List.set_eq_of_length_le (by omega)] at h
      exact h
  · rw [objectAt_set_ne heq] at h
    exact h

/-- An empty place at the end of the table is no object. -/
@[simp] theorem objectAt_concat_none : objectAt (objects ++ [none]) i = objectAt objects i := by
  unfold objectAt
  by_cases hlt : i < objects.length
  · rw [List.getElem?_append_left hlt]
  · by_cases heq : i = objects.length
    · subst heq
      rw [List.getElem?_concat_length, List.getElem?_eq_none (Nat.le_refl _)]
      rfl
    · have hlen : (objects ++ [none]).length ≤ i := by
        rw [List.length_append, List.length_singleton]
        omega
      rw [List.getElem?_eq_none hlen, List.getElem?_eq_none (by omega)]

theorem objectAt_length : objectAt objects objects.length = none := by
  rw [objectAt, List.getElem?_eq_none (Nat.le_refl _)]
  rfl

/-- What is held when an object comes to a place where there is none. -/
theorem count_held_put {f : α → List ℕ} {a : α} (hi : i < objects.length)
    (hfree : objectAt objects i = none) (h : ℕ) :
    (held f (objects.set i (some a))).count h = (held f objects).count h + (f a).count h := by
  have hput : objectAt (objects.set i (some a)) i = some a := objectAt_set_of_lt hi (some a)
  have hback : (objects.set i (some a)).set i none = objects := by
    rw [List.set_set]
    apply List.ext_getElem?
    intro k
    by_cases heq : i = k
    · subst heq
      rw [List.getElem?_set_self hi]
      have hjoin : objects[i]?.join = none := hfree
      rw [List.getElem?_eq_getElem hi] at hjoin ⊢
      exact congrArg some hjoin.symm
    · rw [List.getElem?_set_ne heq]
  have hset : (held f ((objects.set i (some a)).set i none)).count h + (f a).count h =
      (held f (objects.set i (some a))).count h + 0 := count_held_set hput
  rw [hback] at hset
  exact hset.symm

theorem mem_held {f : α → List ℕ} {a : α} {h : ℕ} (hi : objectAt objects i = some a)
    (hmem : h ∈ f a) : h ∈ held f objects := by
  have hpos : 0 < (f a).count h := List.count_pos_iff.mpr hmem
  have hle : (f a).count h ≤ (held f objects).count h := count_le_held hi
  exact List.count_pos_iff.mp (by omega)

/-- Where every object holds something, nothing is held exactly if there is no object. -/
theorem held_eq_nil_iff {f : α → List ℕ} (hf : ∀ a, f a ≠ []) :
    held f objects = [] ↔ ∀ i, objectAt objects i = none := by
  constructor
  · intro hnil i
    cases ha : objectAt objects i with
    | none => rfl
    | some a =>
      obtain ⟨h, hmem⟩ := List.exists_mem_of_ne_nil (f a) (hf a)
      have hheld := mem_held ha hmem
      rw [hnil] at hheld
      exact absurd hheld List.not_mem_nil
  · intro hnone
    apply held_eq_nil
    intro object hobject
    obtain ⟨i, hi⟩ := List.mem_iff_getElem?.mp hobject
    have hjoin : objects[i]?.join = none := hnone i
    rw [hi] at hjoin
    exact hjoin

end Places

variable {α β : Type*} {key : β → ℕ} {R : α → β → Prop} {objects : List (Option α)}
  {items items' : List β} {a : α} {b : β} {i : ℕ}

/-- The objects and the items they wait for. -/
structure Matching (key : β → ℕ) (R : α → β → Prop) (objects : List (Option α))
    (items : List β) : Prop where
  count : ∀ i, (items.map key).count i = if (objectAt objects i).isSome then 1 else 0
  agrees : ∀ b ∈ items, ∀ a, objectAt objects (key b) = some a → R a b

namespace Matching

theorem nil : Matching key R [] [] where
  count _ := rfl
  agrees _ hb := absurd hb List.not_mem_nil

/-- The order of the items does not matter. -/
theorem perm (hm : Matching key R objects items) (hp : items.Perm items') :
    Matching key R objects items' where
  count i := by
    rw [← (hp.map key).count_eq i]
    exact hm.count i
  agrees b hb := hm.agrees b (hp.mem_iff.mpr hb)

/-- An item has an object. -/
theorem exists_object (hm : Matching key R objects items) (hb : b ∈ items) :
    ∃ a, objectAt objects (key b) = some a ∧ R a b := by
  have hpos : 0 < (items.map key).count (key b) :=
    List.count_pos_iff.mpr (List.mem_map_of_mem hb)
  rw [hm.count] at hpos
  cases ha : objectAt objects (key b) with
  | none => simp [ha] at hpos
  | some a => exact ⟨a, rfl, hm.agrees b hb a ha⟩

/-- An object has an item. -/
theorem exists_item (hm : Matching key R objects items) (ha : objectAt objects i = some a) :
    ∃ b ∈ items, key b = i ∧ R a b := by
  have hcount := hm.count i
  rw [ha, Option.isSome_some, if_pos rfl] at hcount
  have hmem : i ∈ items.map key := List.count_pos_iff.mp (by omega)
  obtain ⟨b, hb, hkey⟩ := List.mem_map.mp hmem
  exact ⟨b, hb, hkey, hm.agrees b hb a (hkey.symm ▸ ha)⟩

/-- Where there is no object no item is filed. -/
theorem key_ne (hm : Matching key R objects items) (hi : objectAt objects i = none)
    (hb : b ∈ items) : key b ≠ i := by
  intro hkey
  obtain ⟨a, ha, -⟩ := hm.exists_object hb
  rw [hkey, hi] at ha
  contradiction

/-- No object has two items. -/
theorem nodup (hm : Matching key R objects items) : (items.map key).Nodup := by
  rw [List.nodup_iff_count]
  intro i
  rw [hm.count]
  split <;> omega

theorem concat_none (hm : Matching key R objects items) :
    Matching key R (objects ++ [none]) items where
  count i := by
    rw [objectAt_concat_none]
    exact hm.count i
  agrees b hb a ha := by
    rw [objectAt_concat_none] at ha
    exact hm.agrees b hb a ha

/-- An item is delivered: the object does not wait any more. -/
theorem take (hm : Matching key R objects (b :: items)) :
    Matching key R (objects.set (key b) none) items := by
  obtain ⟨a, ha, -⟩ := hm.exists_object List.mem_cons_self
  have hcount : ∀ i, (items.map key).count i =
      if (objectAt (objects.set (key b) none) i).isSome then 1 else 0 := by
    intro i
    have hi := hm.count i
    rw [List.map_cons, List.count_cons] at hi
    by_cases heq : key b = i
    · subst heq
      rw [objectAt_set_self ha]
      simp only [ha, beq_self_eq_true, if_true, Option.isSome_some] at hi
      simp only [Option.isSome_none, Bool.false_eq_true, if_false]
      omega
    · rw [objectAt_set_ne heq]
      simp only [beq_iff_eq, heq, if_false, Nat.add_zero] at hi
      exact hi
  refine ⟨hcount, ?_⟩
  intro c hc a' ha'
  -- the other items are filed elsewhere
  have hne : key b ≠ key c := by
    intro heq
    rw [← heq, objectAt_set_self ha] at ha'
    contradiction
  rw [objectAt_set_ne hne] at ha'
  exact hm.agrees c (List.mem_cons_of_mem b hc) a' ha'

/-- An object waits for a new item, at a place where there is none. -/
theorem put (hm : Matching key R objects items) (hlt : key b < objects.length)
    (hfree : objectAt objects (key b) = none) (hR : R a b) :
    Matching key R (objects.set (key b) (some a)) (b :: items) where
  count i := by
    have hi := hm.count i
    rw [List.map_cons, List.count_cons]
    by_cases heq : key b = i
    · subst heq
      rw [objectAt_set_of_lt hlt]
      simp only [hfree, Option.isSome_none, Bool.false_eq_true, if_false] at hi
      simp only [beq_self_eq_true, if_true, Option.isSome_some]
      omega
    · rw [objectAt_set_ne heq]
      simp only [beq_iff_eq, heq, if_false, Nat.add_zero]
      exact hi
  agrees c hc a' ha' := by
    rcases List.mem_cons.mp hc with rfl | hc
    · rw [objectAt_set_of_lt hlt, Option.some.injEq] at ha'
      exact ha' ▸ hR
    · rw [objectAt_set_ne (hm.key_ne hfree hc).symm] at ha'
      exact hm.agrees c hc a' ha'

/-- An object is changed, and has to do with its item what it had. -/
theorem replace {a' : α} (hm : Matching key R objects items) (ha : objectAt objects i = some a)
    (hR : ∀ b, R a b → R a' b) : Matching key R (objects.set i (some a')) items where
  count j := by
    have hj := hm.count j
    by_cases heq : i = j
    · subst heq
      rw [objectAt_set_self ha]
      rw [ha] at hj
      exact hj
    · rw [objectAt_set_ne heq]
      exact hj
  agrees b hb c hc := by
    by_cases heq : i = key b
    · subst heq
      rw [objectAt_set_self ha, Option.some.injEq] at hc
      exact hc ▸ hR b (hm.agrees b hb a ha)
    · rw [objectAt_set_ne heq] at hc
      exact hm.agrees b hb c hc

/-- An item is changed, and has to do with its object what it had. -/
theorem replace_item {b' : β} (hm : Matching key R objects (b :: items)) (hkey : key b' = key b)
    (hR : ∀ a, R a b → R a b') : Matching key R objects (b' :: items) where
  count i := by
    rw [List.map_cons, hkey, ← List.map_cons]
    exact hm.count i
  agrees c hc a ha := by
    rcases List.mem_cons.mp hc with rfl | hc
    · rw [hkey] at ha
      exact hR a (hm.agrees b List.mem_cons_self a ha)
    · exact hm.agrees c (List.mem_cons_of_mem b hc) a ha

end Matching

end Foundation
