import Mathlib.Tactic.Common

/-!
# `WaitOn`

Three functions wait for the handles of a parameter pack and tell which one was signalled: `A` by
a variant of integral constants, `B` by invoking an awaitable, and `C` by a variant of the
awaitables. Each goes through the pack with a fold over `or`. `A` compares every index with itself,
and `C` returns a variant even when nothing was signalled. `waitOn_agree_iff` says what is left.
-/

namespace Win32Experiments.WaitOnObjects

/-! ## The wait -/

def waitObject0 : ℕ := 0
def waitAbandoned0 : ℕ := 0x80
def waitIoCompletion : ℕ := 0xC0
def waitTimeout : ℕ := 0x102
def waitFailed : ℕ := 0xFFFFFFFF

/-- `MAXIMUM_WAIT_OBJECTS`. -/
def maximumWaitObjects : ℕ := 64

/-- What a wait for `n` handles may return: it fails on more than `MAXIMUM_WAIT_OBJECTS`. -/
def Possible (n result : ℕ) : Prop :=
  result = waitFailed ∨ n ≤ maximumWaitObjects ∧
    (result < waitObject0 + n ∨ waitAbandoned0 ≤ result ∧ result < waitAbandoned0 + n ∨
      result = waitIoCompletion ∨ result = waitTimeout)

instance (n result : ℕ) : Decidable (Possible n result) :=
  inferInstanceAs (Decidable (_ ∨ _ ∧ (_ ∨ _ ∧ _ ∨ _ ∨ _)))

/-- The wait ended without a signal and without a failure. -/
def Unsignalled (result : ℕ) : Prop := result = waitIoCompletion ∨ result = waitTimeout

instance (result : ℕ) : Decidable (Unsignalled result) :=
  inferInstanceAs (Decidable (_ ∨ _))

/-! ## The functions -/

/-- A fold `(... or ...)`: the terms in order, until one is true. -/
def orFold {σ α : Type*} (term : σ → α → σ × Bool) : σ → List α → σ
  | s, [] => s
  | s, a :: rest =>
    match term s a with
    | (t, true) => t
    | (t, false) => orFold term t rest

/-- What a `WaitOn` ends with: the alternative of a handle, the alternative for a timeout, nothing,
or an exception. -/
inductive Outcome (V : Type*) where
  | handle (index : ℕ) (value : V)
  | timeout
  | nothing
  | error (what : String)
deriving DecidableEq, Repr

namespace A

/-- `Integral<Is>{}` in a comparison. -/
def integral (is : ℕ) : ℕ := is

/-- `WaitOn` of `A` for `n` handles. The variant starts with its first alternative. -/
def waitOn (n _result : ℕ) : Outcome ℕ :=
  orFold (fun returnValue is =>
    if integral is = is then (.handle is (integral is), true) else (returnValue, false))
    (.handle 0 (integral 0)) (List.range n)

end A

/-- The exceptions of `B` and `C`. -/
def failure (n result : ℕ) : Option String :=
  if result = waitFailed then some "The wait failed."
  else if waitAbandoned0 ≤ result ∧ result < waitAbandoned0 + n then
    some "The wait was abandoned."
  else none

section Pack

variable {α : Type*}

/-- The comparisons of `B` and `C` with an index that counts up. -/
def compareIndex (result : ℕ) (s : ℕ × Outcome α) (awaitable : α) : (ℕ × Outcome α) × Bool :=
  let index := s.1
  if result = index then ((index + 1, .handle index awaitable), true)
  else ((index + 1, s.2), false)

/-- What `B` and `C` do with the result; `returnValue` is what there is before. -/
def dispatch (returnValue : Outcome α) (awaitables : List α) (result : ℕ) : Outcome α :=
  match failure awaitables.length result with
  | some what => .error what
  | none => (orFold (compareIndex result) (0, returnValue) awaitables).2

/-- `WaitOn` of `B`, which invokes an awaitable or none. -/
def B.waitOn (awaitables : List α) (result : ℕ) : Outcome α :=
  dispatch .nothing awaitables result

/-- `WaitOn` of `C`. `returnValue` is a variant of the awaitables, which holds `fresh`, a first
awaitable constructed by default. -/
def C.waitOn (fresh : α) (awaitables : List α) (result : ℕ) : Outcome α :=
  dispatch (.handle 0 fresh) awaitables result

/-! ## What a wait says -/

/-- The alternative of a handle, with its index and value. -/
def Outcome.alternative : Outcome α → Option (ℕ × α)
  | .handle index value => some (index, value)
  | .timeout => none
  | .nothing => none
  | .error _ => none

/-- The alternative of the handle signalled; on a timeout or a failure, as which an abandoned mutex
counts, there is none. -/
def signalled (values : List α) (result : ℕ) : Option (ℕ × α) :=
  if result = waitFailed then none else values[result]?.map fun value => (result, value)

/-- All three functions yield the alternative of the handle signalled. -/
structure Agree (fresh : α) (awaitables : List α) (result : ℕ) : Prop where
  a : (A.waitOn awaitables.length result).alternative =
    signalled (List.range awaitables.length) result
  b : (B.waitOn awaitables result).alternative = signalled awaitables result
  c : (C.waitOn fresh awaitables result).alternative = signalled awaitables result

end Pack

/-! ## The folds -/

section Fold

variable {α : Type*} {fresh : α} {awaitables values : List α} {n result : ℕ}
  {returnValue : Outcome α}

/-- The first comparison of `A` is true whatever the result. -/
theorem A.waitOn_eq (hn : 0 < n) : A.waitOn n result = .handle 0 0 := by
  obtain ⟨m, rfl⟩ : ∃ m, n = m + 1 := Nat.exists_eq_succ_of_ne_zero (by omega)
  rw [A.waitOn, List.range_succ_eq_map]
  rfl

/-- From the index `k` on, the fold finds the awaitable at the result. -/
theorem orFold_compareIndex (k : ℕ) (hk : k ≤ result) :
    (orFold (compareIndex result) (k, returnValue) awaitables).2 =
      awaitables[result - k]?.elim returnValue (.handle result) := by
  induction awaitables generalizing k with
  | nil => rfl
  | cons awaitable awaitables ih =>
    by_cases hnow : result = k
    · subst hnow
      simp [orFold, compareIndex]
    · have hrest := ih (k + 1) (by omega)
      have hindex : result - k = result - (k + 1) + 1 := by omega
      simp only [orFold, compareIndex, if_neg hnow]
      rw [hrest, hindex, List.getElem?_cons_succ]

theorem dispatch_of_failure {what : String} (h : failure awaitables.length result = some what) :
    (dispatch returnValue awaitables result).alternative = none := by
  rw [dispatch, h]
  rfl

theorem dispatch_of_no_failure (h : failure awaitables.length result = none) :
    dispatch returnValue awaitables result =
      awaitables[result]?.elim returnValue (.handle result) := by
  rw [dispatch, h]
  exact orFold_compareIndex 0 (Nat.zero_le result)

/-- What is possible is a failure, the index of a handle, or neither. -/
theorem Possible.cases (h : Possible n result) :
    (∃ what, failure n result = some what) ∧ (result = waitFailed ∨ n ≤ result) ∧
        ¬ Unsignalled result ∨
      failure n result = none ∧ result ≠ waitFailed ∧
        (result < n ∧ ¬ Unsignalled result ∨ n ≤ result ∧ Unsignalled result) := by
  rw [failure, Unsignalled]
  by_cases hfailed : result = waitFailed
  · rw [if_pos hfailed, hfailed]
    exact Or.inl ⟨⟨_, rfl⟩, Or.inl rfl, by decide⟩
  · rw [if_neg hfailed]
    rw [Possible, or_iff_right hfailed] at h
    by_cases habandoned : waitAbandoned0 ≤ result ∧ result < waitAbandoned0 + n
    · rw [if_pos habandoned]
      refine Or.inl ⟨⟨_, rfl⟩, ?_⟩
      simp only [waitAbandoned0, waitTimeout, waitIoCompletion, maximumWaitObjects]
        at h habandoned ⊢
      omega
    · rw [if_neg habandoned]
      refine Or.inr ⟨rfl, hfailed, ?_⟩
      simp only [waitAbandoned0, waitObject0, waitTimeout, waitIoCompletion, maximumWaitObjects]
        at h habandoned ⊢
      omega

/-- With no alternative to start from, the fold yields what was signalled. -/
theorem alternative_elim (hfailed : result ≠ waitFailed) :
    (awaitables[result]?.elim .nothing (.handle result) : Outcome α).alternative =
      signalled awaitables result := by
  rw [signalled, if_neg hfailed]
  cases awaitables[result]? <;> rfl

/-- No handle was signalled when the wait failed, or beyond the last one. -/
theorem signalled_eq_none (h : result = waitFailed ∨ values.length ≤ result) :
    signalled values result = none := by
  rw [signalled]
  split
  · rfl
  · rename_i hfailed
    rw [List.getElem?_eq_none (h.resolve_left hfailed), Option.map_none]

/-! ## The functions against the wait -/

/-- `A` is right about the first handle only. -/
theorem A.right_iff (hn : 0 < n) :
    (A.waitOn n result).alternative = signalled (List.range n) result ↔ result = waitObject0 := by
  rw [A.waitOn_eq hn]
  constructor
  · intro h
    rw [signalled] at h
    split at h
    · contradiction
    · obtain ⟨value, -, hpair⟩ := Option.map_eq_some_iff.mp h.symm
      exact congrArg Prod.fst hpair
  · intro h
    subst h
    rw [signalled, if_neg (by decide), waitObject0, List.getElem?_range hn]
    rfl

/-- `B` is right. -/
theorem B.right (h : Possible awaitables.length result) :
    (B.waitOn awaitables result).alternative = signalled awaitables result := by
  rw [B.waitOn]
  rcases h.cases with ⟨⟨what, hfailure⟩, hnone, -⟩ | ⟨hfailure, hfailed, -⟩
  · rw [dispatch_of_failure hfailure, signalled_eq_none hnone]
  · rw [dispatch_of_no_failure hfailure, alternative_elim hfailed]

/-- `C` is right unless the wait ends without a signal and without a failure. -/
theorem C.right_iff (h : Possible awaitables.length result) :
    (C.waitOn fresh awaitables result).alternative = signalled awaitables result ↔
      ¬ Unsignalled result := by
  rw [C.waitOn]
  rcases h.cases with ⟨⟨what, hfailure⟩, hnone, hnot⟩ | ⟨hfailure, hfailed, hin | hout⟩
  · refine iff_of_true ?_ hnot
    rw [dispatch_of_failure hfailure, signalled_eq_none hnone]
  · refine iff_of_true ?_ hin.2
    rw [dispatch_of_no_failure hfailure, ← alternative_elim hfailed,
      List.getElem?_eq_getElem hin.1]
    rfl
  · refine iff_of_false ?_ (not_not.mpr hout.2)
    rw [dispatch_of_no_failure hfailure, signalled_eq_none (Or.inr hout.1),
      List.getElem?_eq_none hout.1]
    exact Option.some_ne_none _

/-- **The three functions agree with the wait** exactly if the first handle was signalled. -/
theorem waitOn_agree_iff (fresh : α) (awaitables : List α) (result : ℕ)
    (hne : 0 < awaitables.length) (h : Possible awaitables.length result) :
    Agree fresh awaitables result ↔ result = waitObject0 := by
  constructor
  · intro hagree
    exact (A.right_iff hne).mp hagree.a
  · intro hzero
    have hsignal : ¬ Unsignalled result := by
      subst hzero
      rintro (hio | htimeout) <;> contradiction
    exact ⟨(A.right_iff hne).mpr hzero, B.right h, (C.right_iff h).mpr hsignal⟩

end Fold

/-- The first of two handles. -/
theorem agree_first : Agree "" ["A", "B"] 0 :=
  (waitOn_agree_iff "" ["A", "B"] 0 (by decide) (by decide)).mpr rfl

/-- The second of two handles, for which `A` yields the first alternative. -/
theorem not_agree_second : ¬ Agree "" ["A", "B"] 1 := by
  intro hagree
  have ha := hagree.a
  contradiction

end Win32Experiments.WaitOnObjects
