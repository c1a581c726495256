import Mathlib.Tactic.Common
import Mathlib.Data.List.Basic

/-!
# Buffers

A program allocates buffers by several allocators, each with a deallocator of its own, reads and
frees them. The history of a buffer is what a trace of events says about it: the buffer is used
properly when it is allocated, read any number of times, and then freed once by the matching
deallocator, and nothing more.

* `eachFreedOnce_append_iff`: traces that share no buffer;
* `eachFreedOnce_tag_iff`: a trace whose buffers are given a tag;
* `EachFreedOnce.free_mem`: what is allocated is freed.
-/

namespace Foundation

/-- What happens to a buffer; `K` are the allocators. -/
inductive MemoryEvent (B K : Type*)
  | alloc (buffer : B) (kind : K)
  | read (buffer : B)
  | free (buffer : B) (kind : K)
deriving DecidableEq, Repr

namespace MemoryEvent

variable {B K : Type*}

/-- The buffer of an event. -/
def buffer : MemoryEvent B K → B
  | alloc b _ => b
  | read b => b
  | free b _ => b

/-- The event, of a buffer with a tag. -/
def tag (k : ℕ) : MemoryEvent B K → MemoryEvent (ℕ × B) K
  | alloc b kind => alloc (k, b) kind
  | read b => read (k, b)
  | free b kind => free (k, b) kind

/-- The events of a buffer that is used properly, and read `n` times. -/
def life (b : B) (kind : K) (n : ℕ) : List (MemoryEvent B K) :=
  alloc b kind :: List.replicate n (read b) ++ [free b kind]

theorem map_tag_life (k : ℕ) (b : B) (kind : K) (n : ℕ) :
    (life b kind n).map (tag k) = life (k, b) kind n := by
  rw [life, List.map_append, List.map_cons, List.map_replicate]
  rfl

@[simp] theorem buffer_tag (k : ℕ) (e : MemoryEvent B K) : (e.tag k).buffer = (k, e.buffer) := by
  cases e <;> rfl

theorem tag_injective (k : ℕ) : Function.Injective (tag k : MemoryEvent B K → _) := by
  intro e e' h
  cases e <;> cases e' <;> simp_all [tag]

end MemoryEvent

section

variable {B K : Type*} [DecidableEq B] {b : B} {t t' : List (MemoryEvent B K)}

/-- What a trace says about the buffer. -/
def history (b : B) (t : List (MemoryEvent B K)) : List (MemoryEvent B K) :=
  t.filter fun e => e.buffer = b

/-- The buffer is not used, or it is allocated, read, and freed as it was allocated. -/
def FreedOnce (b : B) (t : List (MemoryEvent B K)) : Prop :=
  history b t = [] ∨ ∃ kind n, history b t = MemoryEvent.life b kind n

/-- Every buffer is. -/
def EachFreedOnce (t : List (MemoryEvent B K)) : Prop := ∀ b, FreedOnce b t

theorem history_append (b : B) (t t' : List (MemoryEvent B K)) :
    history b (t ++ t') = history b t ++ history b t' := List.filter_append t t'

theorem eachFreedOnce_nil : EachFreedOnce ([] : List (MemoryEvent B K)) := fun _ => Or.inl rfl

theorem history_life (b' : B) (kind : K) (n : ℕ) :
    history b' (MemoryEvent.life b kind n) =
      if b = b' then MemoryEvent.life b kind n else [] := by
  split
  · next hb =>
    subst hb
    rw [history, List.filter_eq_self]
    intro e he
    rw [MemoryEvent.life, List.cons_append, List.mem_cons, List.mem_append, List.mem_replicate,
      List.mem_singleton] at he
    rcases he with rfl | ⟨-, rfl⟩ | rfl
    · exact decide_eq_true rfl
    · exact decide_eq_true rfl
    · exact decide_eq_true rfl
  · next hb =>
    rw [history, List.filter_eq_nil_iff]
    intro e he
    rw [MemoryEvent.life, List.cons_append, List.mem_cons, List.mem_append, List.mem_replicate,
      List.mem_singleton] at he
    rcases he with rfl | ⟨-, rfl⟩ | rfl
    · exact fun h => hb (of_decide_eq_true h)
    · exact fun h => hb (of_decide_eq_true h)
    · exact fun h => hb (of_decide_eq_true h)

/-- A single buffer that is used properly. -/
theorem eachFreedOnce_life (b : B) (kind : K) (n : ℕ) :
    EachFreedOnce (MemoryEvent.life b kind n) := by
  intro b'
  rw [FreedOnce, history_life]
  split
  · next hb =>
    subst hb
    exact Or.inr ⟨kind, n, rfl⟩
  · exact Or.inl rfl

/-- Traces that share no buffer. -/
theorem eachFreedOnce_append_iff (hdisjoint : ∀ b, history b t = [] ∨ history b t' = []) :
    EachFreedOnce (t ++ t') ↔ EachFreedOnce t ∧ EachFreedOnce t' := by
  have hleft : ∀ b, history b t' = [] → (FreedOnce b (t ++ t') ↔ FreedOnce b t) := by
    intro b hnone
    rw [FreedOnce, history_append, hnone, List.append_nil, FreedOnce]
  have hright : ∀ b, history b t = [] → (FreedOnce b (t ++ t') ↔ FreedOnce b t') := by
    intro b hnone
    rw [FreedOnce, history_append, hnone, List.nil_append, FreedOnce]
  constructor
  · intro hall
    refine ⟨fun b => ?_, fun b => ?_⟩
    · rcases hdisjoint b with hnone | hnone
      · exact Or.inl hnone
      · exact (hleft b hnone).mp (hall b)
    · rcases hdisjoint b with hnone | hnone
      · exact (hright b hnone).mp (hall b)
      · exact Or.inl hnone
  · rintro ⟨hall, hall'⟩ b
    rcases hdisjoint b with hnone | hnone
    · exact (hright b hnone).mpr (hall' b)
    · exact (hleft b hnone).mpr (hall b)

/-- What is allocated is freed as it was allocated. -/
theorem EachFreedOnce.free_mem {kind : K} (h : EachFreedOnce t) (halloc : .alloc b kind ∈ t) :
    .free b kind ∈ t := by
  have hmem : .alloc b kind ∈ history b t :=
    List.mem_filter.mpr ⟨halloc, by simp [MemoryEvent.buffer]⟩
  rcases h b with hnone | ⟨kind', n, hhistory⟩
  · rw [hnone] at hmem
    contradiction
  · have hkind : kind = kind' := by
      rw [hhistory, MemoryEvent.life, List.cons_append, List.mem_cons, List.mem_append,
        List.mem_replicate, List.mem_singleton] at hmem
      rcases hmem with halloc | hread | hfree
      · exact (MemoryEvent.alloc.inj halloc).2
      · exact absurd hread.2 (by simp)
      · exact absurd hfree (by simp)
    have hfree : .free b kind ∈ history b t := by
      rw [hhistory, hkind, MemoryEvent.life]
      exact List.mem_append_right _ (List.mem_singleton_self _)
    exact (List.mem_filter.mp hfree).1

end

/-! ## Tags -/

section

variable {B K : Type*} [DecidableEq B] {t : List (MemoryEvent B K)}

theorem history_tag (k : ℕ) (b : B) (t : List (MemoryEvent B K)) :
    history (k, b) (t.map (.tag k)) = (history b t).map (.tag k) := by
  rw [history, List.filter_map, history]
  congr 2
  funext e
  simp

theorem history_tag_of_ne {k k' : ℕ} (hne : k ≠ k') (b : B) (t : List (MemoryEvent B K)) :
    history (k', b) (t.map (.tag k)) = [] := by
  rw [history, List.filter_eq_nil_iff]
  intro e he
  obtain ⟨e', -, rfl⟩ := List.mem_map.mp he
  simp [hne]

/-- A tag changes nothing. -/
theorem eachFreedOnce_tag_iff (k : ℕ) :
    EachFreedOnce (t.map (.tag k)) ↔ EachFreedOnce t := by
  have hiff : ∀ b, FreedOnce (k, b) (t.map (.tag k)) ↔ FreedOnce b t := by
    intro b
    have hproper (kind : K) (n : ℕ) :
        (history b t).map (MemoryEvent.tag k) = MemoryEvent.life (k, b) kind n ↔
          history b t = MemoryEvent.life b kind n := by
      rw [← MemoryEvent.map_tag_life]
      exact (List.map_injective_iff.mpr (MemoryEvent.tag_injective k)).eq_iff
    rw [FreedOnce, history_tag, List.map_eq_nil_iff, FreedOnce]
    simp only [hproper]
  constructor
  · exact fun hall b => (hiff b).mp (hall (k, b))
  · rintro hall ⟨k', b⟩
    by_cases hk : k = k'
    · subst hk
      exact (hiff b).mpr (hall b)
    · exact Or.inl (history_tag_of_ne hk b t)

end

end Foundation
