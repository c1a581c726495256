import Mathlib.Data.List.Chain
import Mathlib.Data.List.Nodup
import Mathlib.Tactic.Common

/-!
# Circular doubly linked lists

Every node points forward and backward, and a circle leads from a head over its entries back to the
head. Two nodes are *joined* when they point at each other, so a circle is a chain of joined nodes.
A change of the links that joins the ends anew leaves the rest of the chain alone.
-/

namespace Foundation

variable {α : Type*}

/-- The pointers of the nodes; `none` is a null pointer. -/
structure Links (α : Type*) where
  forward : α → Option α
  backward : α → Option α

namespace Links

/-- The nodes point at each other. -/
def Joined (l : Links α) (x y : α) : Prop := l.forward x = some y ∧ l.backward y = some x

/-- The circle from the head over the entries, each of them once, back to the head. -/
structure Circle (l : Links α) (head : α) (entries : List α) : Prop where
  nodup : (head :: entries).Nodup
  joined : (head :: entries ++ [head]).IsChain l.Joined

variable {l l' : Links α} {head x y last next : α} {entries nodes : List α}

/-- A chain depends on the forward pointers of all but the last, and on the backward pointers of
all but the first. -/
theorem isChain_congr (h : nodes.IsChain l.Joined)
    (hforward : ∀ x ∈ nodes.dropLast, l'.forward x = l.forward x)
    (hbackward : ∀ x ∈ nodes.tail, l'.backward x = l.backward x) :
    nodes.IsChain l'.Joined := by
  induction nodes with
  | nil => exact .nil
  | cons x nodes ih =>
    match nodes with
    | [] => exact .singleton x
    | y :: nodes =>
      obtain ⟨hjoined, hrest⟩ := List.isChain_cons_cons.mp h
      have hx : l'.forward x = l.forward x := hforward x List.mem_cons_self
      have hy : l'.backward y = l.backward y := hbackward y List.mem_cons_self
      refine List.isChain_cons_cons.mpr ⟨⟨hx ▸ hjoined.1, hy ▸ hjoined.2⟩, ih hrest ?_ ?_⟩
      · exact fun z hz => hforward z (List.mem_cons_of_mem x hz)
      · exact fun z hz => hbackward z (List.mem_cons_of_mem y hz)

/-! ## What a circle says -/

theorem circle_nil : l.Circle head [] ↔ l.Joined head head := by
  constructor
  · intro h
    exact (List.isChain_cons_cons.mp h.joined).1
  · intro h
    exact ⟨List.nodup_singleton head, List.isChain_cons_cons.mpr ⟨h, .singleton head⟩⟩

/-- Every node of a chain but the last is joined to one behind it. -/
theorem exists_joined_right (h : (nodes ++ [y]).IsChain l.Joined) (hx : x ∈ nodes) :
    ∃ z ∈ nodes ++ [y], l.Joined x z := by
  obtain ⟨before, after, rfl⟩ := List.append_of_mem hx
  rw [List.append_assoc, List.cons_append] at h
  match after with
  | [] =>
    have hjoined := (List.isChain_append_cons_cons.mp h).2.1
    exact ⟨y, by simp, hjoined⟩
  | z :: after =>
    have hjoined := (List.isChain_append_cons_cons.mp h).2.1
    exact ⟨z, by simp, hjoined⟩

/-- Every node of a chain but the first has one in front of it that is joined to it. -/
theorem exists_joined_left (h : (y :: nodes).IsChain l.Joined) (hx : x ∈ nodes) :
    ∃ z ∈ y :: nodes, l.Joined z x := by
  induction nodes generalizing y with
  | nil => exact absurd hx List.not_mem_nil
  | cons z nodes ih =>
    obtain ⟨hjoined, hrest⟩ := List.isChain_cons_cons.mp h
    rcases List.mem_cons.mp hx with rfl | hmem
    · exact ⟨y, List.mem_cons_self, hjoined⟩
    · obtain ⟨w, hw, hlater⟩ := ih hrest hmem
      exact ⟨w, List.mem_cons_of_mem y hw, hlater⟩

/-- **The two directions are inverse** on the nodes of a circle. -/
theorem Circle.inverse (h : l.Circle head entries) (hx : x ∈ head :: entries)
    (hy : y ∈ head :: entries) : l.forward x = some y ↔ l.backward y = some x := by
  constructor
  · intro hforward
    obtain ⟨z, -, hjoined⟩ := exists_joined_right h.joined hx
    rw [hjoined.1, Option.some.injEq] at hforward
    exact hforward ▸ hjoined.2
  · intro hbackward
    have hmem : y ∈ entries ++ [head] := by
      rw [List.mem_append, List.mem_singleton]
      exact (List.mem_cons.mp hy).symm
    obtain ⟨z, -, hjoined⟩ := exists_joined_left h.joined hmem
    rw [hjoined.2, Option.some.injEq] at hbackward
    exact hbackward ▸ hjoined.1

/-- The head points forward at the first entry. -/
theorem Circle.forward_head (h : l.Circle head (x :: entries)) : l.forward head = some x :=
  (List.isChain_cons_cons.mp h.joined).1.1

/-- The head points backward at the last node. -/
theorem Circle.joined_last (h : l.Circle head entries) :
    l.Joined ((head :: entries).getLast (List.cons_ne_nil _ _)) head := by
  have hchain := h.joined
  rw [List.isChain_append] at hchain
  exact hchain.2.2 _ (List.getLast?_eq_some_getLast (List.cons_ne_nil _ _)) head rfl

/-! ## What keeps a circle -/

/-- **A node at the end.** The new node is joined to the last one and to the head. -/
theorem Circle.append (h : l.Circle head entries)
    (hlast : (head :: entries).getLast (List.cons_ne_nil _ _) = last)
    (hfresh : x ∉ head :: entries) (hbefore : l'.Joined last x) (hbehind : l'.Joined x head)
    (hforward : ∀ y, y ≠ last → y ≠ x → l'.forward y = l.forward y)
    (hbackward : ∀ y, y ≠ head → y ≠ x → l'.backward y = l.backward y) :
    l'.Circle head (entries ++ [x]) := by
  have hne : ∀ y ∈ head :: entries, y ≠ x := fun y hy heq => hfresh (heq ▸ hy)
  have hsplit : (head :: entries).dropLast ++ [last] = head :: entries := by
    rw [← hlast]
    exact List.dropLast_append_getLast (List.cons_ne_nil _ _)
  constructor
  · rw [← List.cons_append, ← List.concat_eq_append]
    exact h.nodup.concat hfresh
  · rw [← List.cons_append, List.append_assoc, List.isChain_append]
    refine ⟨?_, List.isChain_cons_cons.mpr ⟨hbehind, .singleton head⟩, ?_⟩
    · apply isChain_congr (List.isChain_append.mp h.joined).1
      · intro y hy
        have hnodup := h.nodup
        rw [← hsplit, List.nodup_append] at hnodup
        exact hforward y (hnodup.2.2 y hy last List.mem_cons_self)
          (hne y (List.dropLast_subset _ hy))
      · intro y hy
        have hhead : y ≠ head := fun heq => (List.nodup_cons.mp h.nodup).1 (heq ▸ hy)
        exact hbackward y hhead (hne y (List.mem_cons_of_mem head hy))
    · intro y hy z hz
      rw [List.getLast?_eq_some_getLast (List.cons_ne_nil _ _), Option.mem_some_iff] at hy
      have hz' : x = z := Option.some.inj hz
      rw [← hy, hlast, ← hz']
      exact hbefore

/-- **The first entry is taken out.** The head is joined to what is behind it. -/
theorem Circle.tail (h : l.Circle head (x :: entries))
    (hnext : (entries ++ [head]).head? = some next) (hjoined : l'.Joined head next)
    (hforward : ∀ y, y ≠ head → y ≠ x → l'.forward y = l.forward y)
    (hbackward : ∀ y, y ≠ next → y ≠ x → l'.backward y = l.backward y) :
    l'.Circle head entries := by
  have hnodup : (entries ++ [head]).Nodup := by
    have hshort := (List.nodup_cons.mp h.nodup).2
    rw [← List.concat_eq_append]
    refine (List.nodup_cons.mp hshort).2.concat fun hmem => ?_
    exact (List.nodup_cons.mp h.nodup).1 (List.mem_cons_of_mem x hmem)
  have hx : ∀ y ∈ entries ++ [head], y ≠ x := by
    intro y hy heq
    rw [heq, List.mem_append, List.mem_singleton] at hy
    rcases hy with hmem | hhead
    · exact (List.nodup_cons.mp (List.nodup_cons.mp h.nodup).2).1 hmem
    · exact (List.nodup_cons.mp h.nodup).1 (hhead ▸ List.mem_cons_self)
  have hrest : (entries ++ [head]).IsChain l.Joined :=
    (List.isChain_cons_cons.mp h.joined).2.tail
  constructor
  · exact h.nodup.sublist ((List.sublist_cons_self x entries).cons_cons head)
  · rw [List.cons_append, List.isChain_cons]
    refine ⟨?_, isChain_congr hrest ?_ ?_⟩
    · intro y hy
      rw [hnext, Option.mem_some_iff] at hy
      exact hy ▸ hjoined
    · intro y hy
      rw [List.dropLast_concat] at hy
      have hhead : y ≠ head := by
        intro heq
        exact (List.nodup_cons.mp h.nodup).1 (List.mem_cons_of_mem x (heq ▸ hy))
      exact hforward y hhead (hx y (List.mem_append_left [head] hy))
    · intro y hy
      have hfirst : entries ++ [head] = next :: (entries ++ [head]).tail :=
        (List.cons_head?_tail hnext).symm
      have hne : y ≠ next := by
        intro heq
        rw [hfirst] at hnodup
        exact (List.nodup_cons.mp hnodup).1 (heq ▸ hy)
      exact hbackward y hne (hx y (List.mem_of_mem_tail hy))

end Links

end Foundation
