import Win32Experiments.Foundation.Run
import Win32Experiments.ClientServerLib.Arrays

/-!
# What the operations of the arrays leave behind

Each operation leaves the mutex as it was and touches elements of the array only, or does not,
depending on its arguments and the count: one lemma for each operation says when. A sequence of
operations is sound exactly when each of them is.
-/

namespace Win32Experiments.ClientServerLib

open Foundation

variable {α : Type*}

/-! ## Statements -/

/-- The operation has released what it acquired, and touched elements of the array only. -/
def Record.Sound (record : Record) : Prop :=
  record.after = record.before ∧ ∀ index ∈ record.touched, 0 ≤ index ∧ index < maxElements

/-- Every operation so far has. -/
def World.Sound (w : World α) : Prop := ∀ record ∈ w.log, record.Sound

/-- When an operation is sound. -/
def KeepsMutex (w : World α) : ℕ × Call α → Prop
  -- the index is not negative, or the operation throws
  | (_, .setAt index _) => 0 ≤ index
  -- the operation throws
  | (_, .intAt index) => maxElements ≤ index
  | (_, .typedAt index) => 0 ≤ index ∨ w.typed.currentCount ≤ index
  -- the operation throws before the lock, or the constructor does not throw under it
  | (_, .add _ throws) => maxElements ≤ w.typed.currentCount ∨
    0 ≤ w.typed.currentCount ∧ throws = none
  | (_, .clear) => True

instance (w : World α) : ∀ e : ℕ × Call α, Decidable (KeepsMutex w e)
  | (_, .setAt index _) => inferInstanceAs (Decidable (0 ≤ index))
  | (_, .intAt index) => inferInstanceAs (Decidable (maxElements ≤ index))
  | (_, .typedAt index) => inferInstanceAs (Decidable (0 ≤ index ∨ w.typed.currentCount ≤ index))
  | (_, .add _ throws) => inferInstanceAs (Decidable (maxElements ≤ w.typed.currentCount ∨
    0 ≤ w.typed.currentCount ∧ throws = none))
  | (_, .clear) => isTrue trivial

/-! ## The operations -/

/-- The operation that ended as `e` on a mapping with the mutex `before`, now `after`, is
sound. -/
def Ended.Sound {σ : Type*} (before after : Mutex) (e : Ended σ) : Prop :=
  after = before ∧ ∀ index ∈ e.touched, 0 ≤ index ∧ index < maxElements

theorem sound_outOfRange {σ : Type*} (mapping : σ) (mutex : Mutex) :
    (outOfRange mapping).Sound mutex mutex :=
  ⟨rfl, by simp [outOfRange]⟩

theorem setAt_sound_iff {a : IntArray} {client : ℕ} {index value : ℤ} {e : Ended IntArray}
    (h : a.setAt client index value = some e) :
    e.Sound a.mutex e.mapping.mutex ↔ 0 ≤ index := by
  rw [IntArray.setAt] at h
  split at h
  · next hlarge =>
    rw [Option.some.injEq] at h
    subst h
    have hpos : 0 < maxElements := by decide
    exact iff_of_true (sound_outOfRange a a.mutex) (by omega)
  · next hsmall =>
    obtain ⟨mutex, hlock, rfl⟩ := Option.map_eq_some_iff.mp h
    obtain ⟨_, rfl⟩ := lock_eq_some.mp hlock
    simp only [Ended.Sound, unlock_cons, true_and, List.forall_mem_singleton]
    omega

/-- `operator[]` of an `IntArray` keeps the mutex whenever it returns. -/
theorem intSubscript_sound_iff {a : IntArray} {client : ℕ} {index : ℤ} {e : Ended IntArray}
    (h : a.subscript client index = some e) :
    e.Sound a.mutex e.mapping.mutex ↔ maxElements ≤ index := by
  rw [IntArray.subscript] at h
  split at h
  · next hlarge =>
    rw [Option.some.injEq] at h
    subst h
    exact iff_of_true (sound_outOfRange a a.mutex) hlarge
  · next hsmall =>
    obtain ⟨mutex, hlock, rfl⟩ := Option.map_eq_some_iff.mp h
    obtain ⟨_, rfl⟩ := lock_eq_some.mp hlock
    apply iff_of_false _ hsmall
    intro hsound
    exact absurd hsound.1 (List.cons_ne_self _ _)

theorem typedSubscript_sound_iff {a : TypedArray α} {client : ℕ} {index : ℤ}
    {e : Ended (TypedArray α)} (h : a.subscript client index = some e) :
    e.Sound a.mutex e.mapping.mutex ↔ 0 ≤ index ∨ a.currentCount ≤ index := by
  rw [TypedArray.subscript] at h
  obtain ⟨mutex, hlock, rfl⟩ := Option.map_eq_some_iff.mp h
  obtain ⟨_, rfl⟩ := lock_eq_some.mp hlock
  have hpos : 0 < maxElements := by decide
  rw [unlock_cons]
  split
  · exact iff_of_true (sound_outOfRange _ a.mutex) (by omega)
  · simp only [Ended.Sound, true_and, List.forall_mem_singleton]
    omega

/-- An `Add` whose constructor throws keeps the mutex. -/
theorem add_sound_iff {a : TypedArray α} {client : ℕ} {x : α} {throws : Option String}
    {e : Ended (TypedArray α)} (h : a.add client x throws = some e) :
    e.Sound a.mutex e.mapping.mutex ↔
      maxElements ≤ a.currentCount ∨ 0 ≤ a.currentCount ∧ throws = none := by
  rw [TypedArray.add] at h
  split at h
  · next hfull =>
    rw [Option.some.injEq] at h
    subst h
    exact iff_of_true (sound_outOfRange a a.mutex) (Or.inl hfull)
  · next hroom =>
    obtain ⟨mutex, hlock, rfl⟩ := Option.map_eq_some_iff.mp h
    obtain ⟨_, rfl⟩ := lock_eq_some.mp hlock
    cases throws with
    | some what =>
      apply iff_of_false _ (by simp [hroom])
      intro hsound
      exact absurd hsound.1 (List.cons_ne_self _ _)
    | none =>
      simp only [Ended.Sound, unlock_cons, true_and, List.forall_mem_singleton, and_true]
      omega

theorem mem_indices {index : ℤ} (h : index ∈ indices) : 0 ≤ index ∧ index < maxElements := by
  obtain ⟨n, hn, rfl⟩ := List.mem_map.mp h
  have hlt := List.mem_range.mp hn
  have hcap : maxElements = 10 := rfl
  rw [hcap] at hlt ⊢
  show 0 ≤ (n : ℤ) ∧ (n : ℤ) < 10
  omega

theorem clear_sound {a : TypedArray α} {client : ℕ} {zero : α} {e : Ended (TypedArray α)}
    (h : a.clear client zero = some e) : e.Sound a.mutex e.mapping.mutex := by
  rw [TypedArray.clear] at h
  split at h
  · obtain ⟨mutex, hlock, rfl⟩ := Option.map_eq_some_iff.mp h
    obtain ⟨_, rfl⟩ := lock_eq_some.mp hlock
    exact ⟨unlock_cons, fun index => mem_indices⟩
  · rw [Option.some.injEq] at h
    subst h
    exact ⟨rfl, by simp⟩

/-! ## Runs -/

variable {zero : α} {w w' : World α}

theorem sound_endInts_iff {client : ℕ} {e : Ended IntArray} :
    (w.endInts client e).Sound ↔ w.Sound ∧ e.Sound w.ints.mutex e.mapping.mutex := by
  simp only [World.Sound, World.endInts, List.forall_mem_append, List.forall_mem_singleton]
  rfl

theorem sound_endTyped_iff {client : ℕ} {e : Ended (TypedArray α)} :
    (w.endTyped client e).Sound ↔ w.Sound ∧ e.Sound w.typed.mutex e.mapping.mutex := by
  simp only [World.Sound, World.endTyped, List.forall_mem_append, List.forall_mem_singleton]
  rfl

/-- An operation keeps the log sound exactly when it is sound. -/
theorem sound_step_iff {e : ℕ × Call α} (h : World.step zero w e = some w') :
    w'.Sound ↔ w.Sound ∧ KeepsMutex w e := by
  obtain ⟨client, call⟩ := e
  cases call with
  | setAt index value =>
    obtain ⟨ended, hended, rfl⟩ := Option.map_eq_some_iff.mp h
    rw [sound_endInts_iff, setAt_sound_iff hended]
    rfl
  | intAt index =>
    obtain ⟨ended, hended, rfl⟩ := Option.map_eq_some_iff.mp h
    rw [sound_endInts_iff, intSubscript_sound_iff hended]
    rfl
  | typedAt index =>
    obtain ⟨ended, hended, rfl⟩ := Option.map_eq_some_iff.mp h
    rw [sound_endTyped_iff, typedSubscript_sound_iff hended]
    rfl
  | add x throws =>
    obtain ⟨ended, hended, rfl⟩ := Option.map_eq_some_iff.mp h
    rw [sound_endTyped_iff, add_sound_iff hended]
    rfl
  | clear =>
    obtain ⟨ended, hended, rfl⟩ := Option.map_eq_some_iff.mp h
    rw [sound_endTyped_iff, and_iff_left (clear_sound hended)]
    exact (and_iff_left trivial).symm

/-- **Soundness.** From arrays of any contents, all operations of a sequence leave the mutex as
it was and touch elements of the array only, exactly when each meets the condition for it. -/
theorem sound_iff (ints : IntArray) (typed : TypedArray α) (calls : List (ℕ × Call α))
    (h : run (World.step zero) ⟨ints, typed, []⟩ calls = some w) :
    w.Sound ↔ EachStep (World.step zero) KeepsMutex ⟨ints, typed, []⟩ calls := by
  have hstart : World.Sound ⟨ints, typed, []⟩ := by simp [World.Sound]
  obtain ⟨_, hiff⟩ := run_iff (fun _ => True) World.Sound (fun _ _ _ _ _ _ => trivial)
    (fun _ _ _ _ _ hstep => sound_step_iff hstep) eachStep_true h trivial
  exact hiff.trans (and_iff_right hstart)

/-- A write, an addition and an index that is too large, from two clients. -/
theorem sound_two_clients :
    ∃ w, run (World.step 0) ⟨⟨[], fun _ => 0⟩, ⟨[], 0, fun _ => 0⟩, []⟩
        [(1, .setAt 9 5), (2, .add (7 : ℤ) none), (1, .intAt 10)] = some w ∧ w.Sound := by
  have hrun : ∃ w, run (World.step 0) ⟨⟨[], fun _ => 0⟩, ⟨[], 0, fun _ => 0⟩, []⟩
      [(1, .setAt 9 5), (2, .add (7 : ℤ) none), (1, .intAt 10)] = some w := ⟨_, rfl⟩
  obtain ⟨w, hw⟩ := hrun
  exact ⟨w, hw, (sound_iff _ _ _ hw).mpr (by decide)⟩

/-- An element is read by one client. It still has the mutex when the value is returned. -/
theorem sound_counterexample :
    ∃ w, run (World.step 0) ⟨⟨[], fun _ => 0⟩, ⟨[], 0, fun _ => (0 : ℤ)⟩, []⟩ [(1, .intAt 3)]
        = some w ∧ w.log = [⟨1, .value 0, [], [1], [3]⟩] ∧ ¬ w.Sound := by
  refine ⟨_, rfl, rfl, ?_⟩
  intro hsound
  have hrecord := (hsound _ (List.mem_singleton_self _)).1
  contradiction

end Win32Experiments.ClientServerLib
