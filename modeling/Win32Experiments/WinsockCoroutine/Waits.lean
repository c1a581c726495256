import Mathlib.Data.List.Nodup
import Mathlib.Logic.Function.Basic
import Mathlib.Tactic.Common

/-!
# Who waits for whom

The coroutines of a program without their bodies: each runs, waits for an operation or for a
task it called, or is finished. Calls, suspensions and returns keep the discipline of
`Waits.Control`: the native stack holds what runs, and a coroutine that waits for a task is
the caller of that younger, unfinished task.

* `control_suspend`, `control_resume`, `control_start`, `control_call`, `control_return`,
  `control_return_top`: the transfers of control;
* `exists_onOp`: with an empty stack, something unfinished means that some coroutine waits
  for an operation.
-/

namespace Win32Experiments.WinsockCoroutine

/-- What a coroutine waits for. -/
inductive Wait
  | unallocated
  | running
  | onOp (op : ℕ)
  | onTask (task : ℕ)
  | final
deriving DecidableEq, Repr

/-- The coroutines below `next`, what each waits for and who called it, and the native
stack. -/
structure Waits where
  kind : ℕ → Wait
  caller : ℕ → Option ℕ
  next : ℕ
  stack : List ℕ

/-- The discipline of calls and transfers. -/
structure Waits.Control (w : Waits) : Prop where
  fresh : ∀ f, w.next ≤ f → w.kind f = .unallocated ∧ w.caller f = none
  allocated : ∀ f < w.next, w.kind f ≠ .unallocated
  stack_runs : ∀ f, f ∈ w.stack ↔ w.kind f = .running
  stack_nodup : w.stack.Nodup
  waits_task : ∀ f task, w.kind f = .onTask task →
    f < task ∧ task < w.next ∧ w.caller task = some f ∧ w.kind task ≠ .final
  waited : ∀ task f, w.caller task = some f → w.kind task ≠ .final → w.kind f = .onTask task

/-! ## Transfers of control -/

/-- The running coroutine suspends at an operation. -/
def Waits.suspend (w : Waits) (f op : ℕ) : Waits :=
  { w with kind := Function.update w.kind f (.onOp op), stack := w.stack.tail }

/-- A coroutine goes on. -/
def Waits.resume (w : Waits) (f : ℕ) : Waits :=
  { w with kind := Function.update w.kind f .running, stack := f :: w.stack }

/-- A new coroutine runs. -/
def Waits.start (w : Waits) (caller : Option ℕ) : Waits :=
  { kind := Function.update w.kind w.next .running
    caller := Function.update w.caller w.next caller
    next := w.next + 1
    stack := w.next :: w.stack }

/-- The running coroutine calls a new one and waits for it. -/
def Waits.call (w : Waits) (f : ℕ) : Waits :=
  { w with
    kind := Function.update w.kind f (.onTask w.next)
    stack := w.stack.tail }.start (some f)

/-- The running coroutine is finished. -/
def Waits.finish (w : Waits) (f : ℕ) : Waits :=
  { w with kind := Function.update w.kind f .final, stack := w.stack.tail }

section Transfers

variable {w : Waits} {f : ℕ} {rest : List ℕ}

/-- What is known of the coroutine on top of the stack. -/
theorem top_of_stack (h : w.Control) (hstack : w.stack = f :: rest) :
    w.kind f = .running ∧ f < w.next ∧ f ∉ rest := by
  have hrun : w.kind f = .running := by
    apply (h.stack_runs f).mp
    rw [hstack]
    exact List.mem_cons_self
  refine ⟨hrun, ?_, ?_⟩
  · by_contra hge
    rw [(h.fresh f (by omega)).1] at hrun
    cases hrun
  · have hnodup := h.stack_nodup
    rw [hstack] at hnodup
    exact (List.nodup_cons.mp hnodup).1

theorem control_suspend (h : w.Control) (hstack : w.stack = f :: rest) (op : ℕ) :
    (w.suspend f op).Control := by
  obtain ⟨hrun, hlt, hnot⟩ := top_of_stack h hstack
  obtain ⟨hfresh, hallocated, hruns, hnodup, htask, hwaited⟩ := h
  constructor <;> simp only [Waits.suspend, Function.update_apply] <;> grind

theorem control_resume (h : w.Control) {op : ℕ} (hf : w.kind f = .onOp op) :
    (w.resume f).Control := by
  obtain ⟨hfresh, hallocated, hruns, hnodup, htask, hwaited⟩ := h
  constructor <;> simp only [Waits.resume, Function.update_apply] <;> grind

theorem control_start (h : w.Control) : (w.start none).Control := by
  obtain ⟨hfresh, hallocated, hruns, hnodup, htask, hwaited⟩ := h
  constructor <;> simp only [Waits.start, Function.update_apply] <;> grind

theorem control_call (h : w.Control) (hstack : w.stack = f :: rest) : (w.call f).Control := by
  obtain ⟨hrun, hlt, hnot⟩ := top_of_stack h hstack
  have hnext : w.next ∉ w.stack := by
    intro hmem
    have hkind := (h.stack_runs w.next).mp hmem
    rw [(h.fresh w.next (Nat.le_refl _)).1] at hkind
    cases hkind
  obtain ⟨hfresh, hallocated, hruns, hnodup, htask, hwaited⟩ := h
  constructor <;> simp only [Waits.call, Waits.start, Function.update_apply] <;> grind

/-- A top-level coroutine is finished: control goes back to whoever started or resumed it. -/
theorem control_return_top (h : w.Control) (hstack : w.stack = f :: rest)
    (hcaller : w.caller f = none) : (w.finish f).Control := by
  obtain ⟨hrun, hlt, hnot⟩ := top_of_stack h hstack
  obtain ⟨hfresh, hallocated, hruns, hnodup, htask, hwaited⟩ := h
  constructor <;> simp only [Waits.finish, Function.update_apply] <;> grind

/-- A called coroutine is finished: control goes to its caller. -/
theorem control_return (h : w.Control) (hstack : w.stack = f :: rest) {caller : ℕ}
    (hcaller : w.caller f = some caller) : ((w.finish f).resume caller).Control := by
  obtain ⟨hrun, hlt, hnot⟩ := top_of_stack h hstack
  obtain ⟨hfresh, hallocated, hruns, hnodup, htask, hwaited⟩ := h
  constructor <;> simp only [Waits.finish, Waits.resume, Function.update_apply] <;> grind

end Transfers

/-! ## An empty stack -/

/-- With nothing running, the youngest unfinished coroutine waits for an operation. -/
theorem exists_onOp {w : Waits} (h : w.Control) (hstack : w.stack = []) {f : ℕ}
    (hlt : f < w.next) (hf : w.kind f ≠ .final) : ∃ g op, w.kind g = .onOp op := by
  -- the tasks that are waited for are younger, so this goes down from `next`
  induction hn : w.next - f using Nat.strongRecOn generalizing f with
  | _ n ih =>
    cases hkind : w.kind f with
    | unallocated => exact absurd hkind (h.allocated f hlt)
    | running =>
      have hmem := (h.stack_runs f).mpr hkind
      rw [hstack] at hmem
      cases hmem
    | onOp op => exact ⟨f, op, hkind⟩
    | onTask task =>
      obtain ⟨hyounger, htask, -, hunfinished⟩ := h.waits_task f task hkind
      exact ih (w.next - task) (by omega) htask hunfinished rfl
    | final => exact absurd hkind hf

end Win32Experiments.WinsockCoroutine
