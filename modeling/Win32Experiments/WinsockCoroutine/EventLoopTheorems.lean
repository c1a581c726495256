import Win32Experiments.Foundation.Threads
import Win32Experiments.WinsockCoroutine.EventLoop
import Win32Experiments.WinsockCoroutine.Waits

/-!
# The accounting of the event loop

The bodies of the coroutines are forgotten (`Machine.waits`), and every step becomes a few
transfers of control. An operation that is not resumed has one coroutine waiting for it, so
the counter counts the waiting coroutines.

* `waits_*`: the transfers of each step;
* `booked_*`: what the step does to the operations, the counter and the port;
* `inv_step`: both together, for every step of every program;
* `accounting_run`: the accounting of every run.
-/

namespace Win32Experiments.WinsockCoroutine

open Foundation

variable {σ ι : Type}

/-! ## The property -/

/-- The accounting: the counter is the number of submitted operations whose waiter has not
been resumed, and is never negative; each packet that `Run` took resumed the coroutine that
submitted the operation, at that operation, and no operation was taken twice; when `Run` has
returned, every coroutine is at its final suspend point; and no unfinished promise is read. -/
structure Accounting (m : Machine σ) : Prop where
  count : m.loop.outstandingOps = m.unresumed
  nonneg : 0 ≤ m.loop.outstandingOps
  resumes : ∀ r ∈ m.resumptions, r.suspendedAt = r.completed ∧
    ∃ op, m.ops[r.completed]? = some op ∧ r.coroutine = op.submitter
  each_once : m.resumptions.map Resumption.completed = m.dequeued ∧ m.dequeued.Nodup
  finished : m.main = .returned → ∀ f < m.next, (m.frames f).state.isFinal = true
  reads_finished : m.unfinishedRead = false
  resumes_suspended : m.misresumed = false

/-! ## The frames without their bodies -/

def FrameState.wait : FrameState σ → Wait
  | .unallocated => .unallocated
  | .running _ => .running
  | .awaitingOp op _ => .onOp op
  | .awaitingTask task _ => .onTask task
  | .final => .final

def Machine.waits (m : Machine σ) : Waits :=
  { kind := fun f => (m.frames f).state.wait
    caller := fun f => (m.frames f).continuation
    next := m.next
    stack := m.stack }

/-- The operations: an operation whose waiter has not been resumed has the coroutine that
submitted it waiting for it, and is counted once. -/
structure Machine.Booked (m : Machine σ) : Prop where
  waits_op : ∀ f i, m.waits.kind f = .onOp i →
    ∃ op, m.ops[i]? = some op ∧ op.status ≠ .resumed ∧ op.submitter = f
  waited_op : ∀ (i : ℕ) op, m.ops[i]? = some op → op.continuation = some op.submitter ∧
    (op.status ≠ .resumed → m.waits.kind op.submitter = .onOp i)
  count : m.loop.outstandingOps = m.unresumed
  port_queued : ∀ p ∈ m.loop.port, ∃ op, m.ops[p.overlapped]? = some op ∧ op.status = .queued
  port_nodup : (m.loop.port.map Packet.overlapped).Nodup
  resumes : ∀ r ∈ m.resumptions, r.suspendedAt = r.completed ∧
    ∃ op, m.ops[r.completed]? = some op ∧ op.status = .resumed ∧ r.coroutine = op.submitter
  each_once : m.resumptions.map Resumption.completed = m.dequeued ∧ m.dequeued.Nodup

/-- The invariant of every run. -/
structure Machine.Inv (m : Machine σ) : Prop where
  control : m.waits.Control
  booked : m.Booked
  finished : m.main = .returned → m.stack = [] ∧ ∀ f < m.next, (m.frames f).state.isFinal = true
  reads_finished : m.unfinishedRead = false
  resumes_suspended : m.misresumed = false

theorem accounting_of_inv {m : Machine σ} (h : m.Inv) : Accounting m where
  count := h.booked.count
  nonneg := by
    rw [h.booked.count]
    exact Int.natCast_nonneg _
  resumes r hr := by
    obtain ⟨hat, op, hop, -, hsubmitter⟩ := h.booked.resumes r hr
    exact ⟨hat, op, hop, hsubmitter⟩
  each_once := h.booked.each_once
  finished hmain := (h.finished hmain).2
  reads_finished := h.reads_finished
  resumes_suspended := h.resumes_suspended

/-! ## The transfers of the steps -/

theorem isFinal_iff (state : FrameState σ) : state.isFinal = true ↔ state.wait = .final := by
  cases state <;> simp [FrameState.isFinal, FrameState.wait]

theorem eq_awaitingOp {state : FrameState σ} {op : ℕ} (h : state.wait = .onOp op) :
    ∃ resume, state = .awaitingOp op resume := by
  cases state with
  | awaitingOp op' resume => exact ⟨resume, by rw [Wait.onOp.inj h]⟩
  | unallocated => cases h
  | running body => cases h
  | awaitingTask task resume => cases h
  | final => cases h

theorem eq_awaitingTask {state : FrameState σ} {task : ℕ} (h : state.wait = .onTask task) :
    ∃ resume, state = .awaitingTask task resume := by
  cases state with
  | awaitingTask task' resume => exact ⟨resume, by rw [Wait.onTask.inj h]⟩
  | unallocated => cases h
  | running body => cases h
  | awaitingOp op resume => cases h
  | final => cases h

theorem kind_update (frames : ℕ → Frame σ) (f : ℕ) (frame : Frame σ) :
    (fun g => (Function.update frames f frame g).state.wait)
      = Function.update (fun g => (frames g).state.wait) f frame.state.wait := by
  funext g
  by_cases hg : g = f
  · rw [hg, Function.update_self, Function.update_self]
  · rw [Function.update_of_ne hg, Function.update_of_ne hg]

theorem caller_update (frames : ℕ → Frame σ) (f : ℕ) (frame : Frame σ) :
    (fun g => (Function.update frames f frame g).continuation)
      = Function.update (fun g => (frames g).continuation) f frame.continuation := by
  funext g
  by_cases hg : g = f
  · rw [hg, Function.update_self, Function.update_self]
  · rw [Function.update_of_ne hg, Function.update_of_ne hg]

/-- A frame whose state alone changes. -/
theorem waits_setState (m : Machine σ) (f : ℕ) (state : FrameState σ) :
    (m.setState f state).waits
      = { m.waits with kind := Function.update m.waits.kind f state.wait } := by
  have hcaller := caller_update m.frames f { m.frames f with state }
  rw [Function.update_eq_self_iff.mpr rfl] at hcaller
  simp only [Machine.waits, Machine.setState, kind_update, hcaller]

/-- A coroutine that is called or started. -/
theorem waits_call (m : Machine σ) (task : σ) (continuation : Option ℕ) (stack : List ℕ) :
    (m.call task continuation stack).waits
      = ({ m.waits with stack } : Waits).start continuation := by
  simp only [Machine.waits, Machine.call, kind_update, caller_update]
  rfl

/-- A coroutine that runs on is where it was. -/
theorem waits_keep {m : Machine σ} {f : ℕ} (body : σ) (hf : m.waits.kind f = .running) :
    (m.setState f (.running body)).waits = m.waits := by
  have hsame : Function.update m.waits.kind f .running = m.waits.kind :=
    Function.update_eq_self_iff.mpr hf.symm
  rw [waits_setState]
  show ({ m.waits with kind := Function.update m.waits.kind f .running } : Waits) = _
  rw [hsame]

/-- A coroutine that goes on, on top of a stack. -/
theorem waits_resume (m : Machine σ) (f : ℕ) (body : σ) (stack : List ℕ) :
    ({ m.setState f (.running body) with stack := f :: stack } : Machine σ).waits
      = ({ m.waits with stack } : Waits).resume f := by
  have hwaits := waits_setState m f (.running body)
  show ({ (m.setState f (.running body)).waits with stack := f :: stack } : Waits) = _
  rw [hwaits]
  rfl

/-- A step that moves control and leaves the operations and the loop alone. -/
structure Machine.Transfers (m m' : Machine σ) : Prop where
  ops : m'.ops = m.ops
  loop : m'.loop = m.loop
  dequeued : m'.dequeued = m.dequeued
  resumptions : m'.resumptions = m.resumptions
  reads_finished : m'.unfinishedRead = m.unfinishedRead
  resumes_suspended : m'.misresumed = m.misresumed
  main : m'.main = m.main
  onOp : ∀ f i, m'.waits.kind f = .onOp i ↔ m.waits.kind f = .onOp i
  control : m'.waits.Control

/-- What is booked depends on who waits for an operation only. -/
theorem booked_of_transfers {m m' : Machine σ} (h : m.Booked) (ht : m.Transfers m') :
    m'.Booked := by
  constructor
  · intro f i hf
    rw [ht.ops]
    exact h.waits_op f i ((ht.onOp f i).mp hf)
  · -- the coroutine that waits for an operation is not the one that moved
    intro i op hop
    rw [ht.ops] at hop
    obtain ⟨hcontinuation, hwaited⟩ := h.waited_op i op hop
    exact ⟨hcontinuation, fun hstatus => (ht.onOp _ i).mpr (hwaited hstatus)⟩
  · rw [ht.loop, Machine.unresumed, ht.ops]
    exact h.count
  · rw [ht.loop, ht.ops]
    exact h.port_queued
  · rw [ht.loop]
    exact h.port_nodup
  · rw [ht.resumptions, ht.ops]
    exact h.resumes
  · rw [ht.resumptions, ht.dequeued]
    exact h.each_once

theorem inv_of_transfers {m m' : Machine σ} (h : m.Inv) (ht : m.Transfers m')
    (hmain : m.main ≠ .returned) : m'.Inv where
  control := ht.control
  booked := booked_of_transfers h.booked ht
  finished hreturned := absurd (ht.main.symm.trans hreturned) hmain
  reads_finished := ht.reads_finished.trans h.reads_finished
  resumes_suspended := ht.resumes_suspended.trans h.resumes_suspended

section Execute

variable {m : Machine σ} {f : ℕ} {rest : List ℕ}

/-- A refused call: the exception goes into the body. -/
theorem transfers_keep (h : m.Inv) (hstack : m.stack = f :: rest) (body : σ) :
    m.Transfers (m.setState f (.running body)) := by
  have hrun := (top_of_stack h.control hstack).1
  refine ⟨rfl, rfl, rfl, rfl, rfl, rfl, rfl, ?_, ?_⟩
  · intro g i
    rw [waits_keep body hrun]
  · rw [waits_keep body hrun]
    exact h.control

/-- A task that is started. -/
theorem transfers_start (h : m.waits.Control) (task : σ) :
    m.Transfers (m.call task none m.stack) := by
  refine ⟨rfl, rfl, rfl, rfl, rfl, rfl, rfl, ?_, ?_⟩
  · intro g i
    -- the new coroutine runs: it waits for no operation
    have hfresh := h.fresh
    rw [waits_call]
    simp only [Waits.start, Function.update_apply]
    grind
  · rw [waits_call]
    exact control_start h

/-- A task that is awaited. -/
theorem transfers_call (h : m.Inv) (hstack : m.stack = f :: rest) (task : σ)
    (resume : Except String Unit → σ) :
    m.Transfers ((m.setState f (.awaitingTask m.next resume)).call task (some f)
      m.stack.tail) := by
  obtain ⟨hrun, hlt, hnot⟩ := top_of_stack h.control hstack
  have hwaits : ((m.setState f (.awaitingTask m.next resume)).call task (some f)
      m.stack.tail).waits = m.waits.call f := by
    rw [waits_call, waits_setState]
    rfl
  refine ⟨rfl, rfl, rfl, rfl, rfl, rfl, rfl, ?_, ?_⟩
  · intro g i
    -- the caller waits for a task from now on, and not for an operation
    have hfresh := h.control.fresh
    rw [hwaits]
    simp only [Waits.call, Waits.start, Function.update_apply]
    grind
  · rw [hwaits]
    exact control_call h.control hstack

/-- The frame of a finished coroutine, before control goes on. -/
theorem waits_finish (m : Machine σ) (f : ℕ) (exception : Option String) :
    ({ m with
        frames := Function.update m.frames f ⟨.final, (m.frames f).continuation, exception⟩
        stack := m.stack.tail } : Machine σ).waits = m.waits.finish f := by
  have hcaller := caller_update m.frames f ⟨.final, (m.frames f).continuation, exception⟩
  have hsame : Function.update (fun g => (m.frames g).continuation) f (m.frames f).continuation
      = fun g => (m.frames g).continuation := Function.update_eq_self_iff.mpr rfl
  rw [hsame] at hcaller
  simp only [Machine.waits, kind_update, hcaller]
  rfl

/-- A coroutine that is finished: control goes to its caller, which reads the promise of a
finished task, or down the stack. -/
theorem transfers_finish (h : m.Inv) (hstack : m.stack = f :: rest) (exception : Option String) :
    m.Transfers (m.finish f exception) := by
  obtain ⟨hrun, hlt, hnot⟩ := top_of_stack h.control hstack
  unfold Machine.finish
  cases hcaller : (m.frames f).continuation with
  -- nobody awaits the task: control goes down the stack
  | none =>
    have hwaits := waits_finish m f exception
    rw [hcaller] at hwaits
    refine ⟨rfl, rfl, rfl, rfl, rfl, rfl, rfl, ?_, ?_⟩
    · intro g i
      rw [hwaits]
      simp only [Waits.finish, Function.update_apply]
      grind
    · rw [hwaits]
      exact control_return_top h.control hstack hcaller
  -- the caller awaits the task, and takes its place on the stack
  | some caller =>
    have hkind := h.control.waited f caller hcaller (by rw [hrun]; simp)
    have hne : caller ≠ f := by
      rintro rfl
      rw [hrun] at hkind
      cases hkind
    obtain ⟨resume, hstate⟩ := eq_awaitingTask hkind
    have hwaits := waits_finish m f exception
    rw [hcaller] at hwaits
    have hresumed : ∀ (unfinishedRead : Bool) (body : σ),
        ({ ({ m with
          frames := Function.update m.frames f ⟨.final, some caller, exception⟩
          unfinishedRead } : Machine σ).setState caller (.running body) with
            stack := caller :: m.stack.tail } : Machine σ).waits
          = (m.waits.finish f).resume caller := by
      intro unfinishedRead body
      rw [waits_resume, ← hwaits]
      rfl
    simp only [Function.update_of_ne hne, hstate]
    refine ⟨rfl, rfl, rfl, rfl, ?_, rfl, rfl, ?_, ?_⟩
    · -- `await_resume` reads the promise after `final_suspend`
      simp [Machine.readPromise, Machine.setState, FrameState.isFinal]
    · intro g i
      refine Iff.trans (Iff.of_eq (congrArg (fun w : Waits => w.kind g = .onOp i)
        (hresumed _ _))) ?_
      simp only [Waits.finish, Waits.resume, Function.update_apply]
      grind
    · refine (congrArg Waits.Control (hresumed _ _)).mpr ?_
      exact control_return h.control hstack hcaller

/-- The coroutine suspends at the operation that it submitted. -/
theorem waits_suspend (m : Machine σ) (f : ℕ) (resume : Except String ℕ → σ) (loop : IoEventLoop)
    (ops : List Operation) :
    ({ m.setState f (.awaitingOp m.ops.length resume) with
        loop, ops, stack := m.stack.tail } : Machine σ).waits
      = m.waits.suspend f m.ops.length := by
  have hwaits := waits_setState m f (.awaitingOp m.ops.length resume)
  show ({ (m.setState f (.awaitingOp m.ops.length resume)).waits with
    stack := m.stack.tail } : Waits) = _
  rw [hwaits]
  rfl

/-- An accepted call: one more operation is submitted, and counted. -/
theorem inv_submit (h : m.Inv) (hstack : m.stack = f :: rest) (resume : Except String ℕ → σ)
    {op : Operation} (hstatus : op.status = .submitted) (hsubmitter : op.submitter = f)
    (hcontinuation : op.continuation = some f) :
    ({ m.setState f (.awaitingOp m.ops.length resume) with
        loop := m.loop.addOp, ops := m.ops ++ [op], stack := m.stack.tail } : Machine σ).Inv := by
  have hrun := (top_of_stack h.control hstack).1
  have hwaits := waits_suspend m f resume m.loop.addOp (m.ops ++ [op])
  refine ⟨?_, ⟨?_, ?_, ?_, ?_, h.booked.port_nodup, ?_, h.booked.each_once⟩, ?_, h.reads_finished,
    h.resumes_suspended⟩
  · rw [hwaits]
    exact control_suspend h.control hstack _
  · intro g i hg
    rw [hwaits] at hg
    -- the coroutine waits for the new operation, and the others as before
    by_cases heq : g = f
    · rw [heq] at hg
      simp only [Waits.suspend, Function.update_self, Wait.onOp.injEq] at hg
      refine ⟨op, ?_, by rw [hstatus]; simp, hsubmitter.trans heq.symm⟩
      rw [← hg]
      exact List.getElem?_concat_length
    · simp only [Waits.suspend, Function.update_of_ne heq] at hg
      obtain ⟨op', hop', hrest⟩ := h.booked.waits_op g i hg
      have hlt : i < m.ops.length := (List.getElem?_eq_some_iff.mp hop').1
      exact ⟨op', by rw [List.getElem?_append_left hlt]; exact hop', hrest⟩
  · intro i op' hop'
    rw [hwaits]
    by_cases hlt : i < m.ops.length
    · rw [List.getElem?_append_left hlt] at hop'
      obtain ⟨hcont, hwaited⟩ := h.booked.waited_op i op' hop'
      refine ⟨hcont, ?_⟩
      intro hunresumed
      have hkind := hwaited hunresumed
      have hne : op'.submitter ≠ f := by
        intro heq
        rw [heq, hrun] at hkind
        cases hkind
      simp only [Waits.suspend, Function.update_of_ne hne]
      exact hkind
    · have hge : m.ops.length ≤ i := Nat.le_of_not_lt hlt
      rw [List.getElem?_append_right hge, List.getElem?_singleton] at hop'
      split at hop'
      · next hzero =>
        have hi : i = m.ops.length := by omega
        rw [← Option.some.inj hop', hcontinuation, hsubmitter, hi]
        exact ⟨rfl, fun _ => Function.update_self _ _ _⟩
      · cases hop'
  · have hcount := h.booked.count
    show m.loop.outstandingOps + 1 = ((m.ops ++ [op]).countP Operation.unresumed : ℕ)
    rw [List.countP_append, List.countP_singleton, Operation.unresumed, hstatus, hcount]
    rfl
  · intro p hp
    obtain ⟨op', hop', hqueued⟩ := h.booked.port_queued p hp
    have hlt : p.overlapped < m.ops.length := (List.getElem?_eq_some_iff.mp hop').1
    exact ⟨op', by rw [List.getElem?_append_left hlt]; exact hop', hqueued⟩
  · intro r hr
    obtain ⟨hat, op', hop', hresumed⟩ := h.booked.resumes r hr
    have hlt : r.completed < m.ops.length := (List.getElem?_eq_some_iff.mp hop').1
    exact ⟨hat, op', by rw [List.getElem?_append_left hlt]; exact hop', hresumed⟩
  · intro hreturned
    rw [(h.finished hreturned).1] at hstack
    cases hstack

end Execute

/-! ## The port -/

/-- Operations with different statuses are different. -/
theorem ne_of_status {ops : List Operation} {i j : ℕ} {op op' : Operation} (hop : ops[i]? = some op)
    (hop' : ops[j]? = some op') (hstatus : op.status ≠ op'.status) : i ≠ j := by
  rintro rfl
  rw [hop] at hop'
  exact hstatus (by rw [Option.some.inj hop'])

/-- The kernel queues the completion of an operation that was submitted. -/
theorem inv_complete {m : Machine σ} {packet : Packet} {op : Operation} (h : m.Inv)
    (hop : m.ops[packet.overlapped]? = some op) (hstatus : op.status = .submitted) :
    ({ m with
        loop := { m.loop with port := m.loop.port ++ [packet] }
        ops := m.ops.set packet.overlapped { op with status := .queued } } : Machine σ).Inv := by
  have hlt : packet.overlapped < m.ops.length := (List.getElem?_eq_some_iff.mp hop).1
  refine ⟨h.control, ⟨?_, ?_, ?_, ?_, ?_, ?_, h.booked.each_once⟩, h.finished, h.reads_finished,
    h.resumes_suspended⟩
  · intro g i hg
    obtain ⟨op', hop', hunresumed, hsubmitter⟩ := h.booked.waits_op g i hg
    by_cases heq : packet.overlapped = i
    · rw [← heq, hop] at hop'
      refine ⟨{ op with status := .queued }, ?_, by simp, ?_⟩
      · rw [← heq]
        exact List.getElem?_set_self hlt
      · rw [← hsubmitter, ← Option.some.inj hop']
    · exact ⟨op', by rw [List.getElem?_set_ne heq]; exact hop', hunresumed, hsubmitter⟩
  · intro i op' hop'
    rcases getElem?_set_eq_some hop' with ⟨heq, hnew⟩ | ⟨hne, hold⟩
    · obtain ⟨hcont, hwaited⟩ := h.booked.waited_op packet.overlapped op hop
      rw [hnew, ← heq]
      exact ⟨hcont, fun _ => hwaited (by rw [hstatus]; simp)⟩
    · exact h.booked.waited_op i op' hold
  · have hset := @countP_set_add _ Operation.unresumed _ _ _ { op with status := .queued } hop
    have hold : op.unresumed = true := by rw [Operation.unresumed, hstatus]; rfl
    have hnew : Operation.unresumed { op with status := .queued } = true := rfl
    rw [if_pos hold, if_pos hnew, Nat.add_right_cancel_iff] at hset
    show m.loop.outstandingOps = ((m.ops.set packet.overlapped _).countP Operation.unresumed : ℕ)
    rw [hset]
    exact h.booked.count
  · intro p hp
    rcases List.mem_append.mp hp with hp | hp
    · obtain ⟨op', hop', hqueued⟩ := h.booked.port_queued p hp
      have hne := ne_of_status hop hop' (by rw [hstatus, hqueued]; simp)
      exact ⟨op', by rw [List.getElem?_set_ne hne]; exact hop', hqueued⟩
    · rw [List.mem_singleton.mp hp]
      exact ⟨{ op with status := .queued }, List.getElem?_set_self hlt, rfl⟩
  · show ((m.loop.port ++ [packet]).map Packet.overlapped).Nodup
    rw [List.map_append, List.map_singleton]
    apply List.Nodup.append h.booked.port_nodup (List.nodup_singleton _)
    intro i hi hpacket
    obtain ⟨p, hp, rfl⟩ := List.mem_map.mp hi
    obtain ⟨op', hop', hqueued⟩ := h.booked.port_queued p hp
    exact ne_of_status hop hop' (by rw [hstatus, hqueued]; simp)
      (List.mem_singleton.mp hpacket).symm
  · intro r hr
    obtain ⟨hat, op', hop', hresumed, hsubmitter⟩ := h.booked.resumes r hr
    have hne := ne_of_status hop hop' (by rw [hstatus, hresumed]; simp)
    exact ⟨hat, op', by rw [List.getElem?_set_ne hne]; exact hop', hresumed, hsubmitter⟩

/-- A call that is refused is not counted. -/
theorem submit_eq (loop : IoEventLoop) (accepted : Bool) (message : String) :
    loop.submit accepted message = (loop.addOp, .ok ()) ∨
      ∃ message', loop.submit accepted message = (loop, .error message') := by
  cases accepted with
  | true => exact Or.inl rfl
  | false =>
    refine Or.inr ⟨message, ?_⟩
    have hback : loop.addOp.removeOp = loop := by
      simp only [IoEventLoop.addOp, IoEventLoop.removeOp, Int.add_sub_cancel]
    simp only [IoEventLoop.submit, hback, Bool.false_eq_true, if_false]

/-- Each `await_suspend` counts the operation that it submits, and no other. -/
theorem awaitSuspend_eq (awaitable : Awaitable) (loop : IoEventLoop) (call : Submission) :
    awaitable.awaitSuspend loop call = (loop.addOp, .ok ()) ∨
      ∃ message, awaitable.awaitSuspend loop call = (loop, .error message) := by
  obtain ⟨resource, accepted⟩ := call
  cases awaitable with
  | recv => exact submit_eq loop accepted _
  | send => exact submit_eq loop accepted _
  | accept =>
    cases resource with
    | none => exact Or.inr ⟨_, rfl⟩
    | some socket => exact submit_eq loop accepted _
  | connect =>
    cases resource with
    | none => exact Or.inr ⟨_, rfl⟩
    | some address => exact submit_eq loop accepted _

/-- Each `await_resume` counts its operation off. -/
theorem awaitResume_eq (op : Operation) (loop : IoEventLoop) :
    ∃ result, op.awaitResume loop = (loop.removeOp, result) := by
  unfold Operation.awaitResume
  cases op.awaitable <;> exact ⟨_, rfl⟩

/-- `Run` takes the packet of an operation: the coroutine that submitted it goes on, at that
operation. -/
theorem dequeue_eq {m : Machine σ} {packet : Packet} {port : List Packet} (h : m.Inv)
    (hport : m.loop.port = packet :: port) :
    ∃ op body, m.ops[packet.overlapped]? = some op ∧ op.status = .queued ∧
      m.waits.kind op.submitter = .onOp packet.overlapped ∧
      ∃ op', op'.status = .resumed ∧ op'.submitter = op.submitter ∧
        op'.continuation = some op.submitter ∧
        m.dequeue packet port =
          { m.setState op.submitter (.running body) with
            loop := ⟨m.loop.outstandingOps - 1, port⟩
            stack := op.submitter :: m.stack
            ops := m.ops.set packet.overlapped op'
            dequeued := m.dequeued ++ [packet.overlapped]
            resumptions := m.resumptions ++
              [⟨packet.overlapped, op.submitter, packet.overlapped⟩] } := by
  obtain ⟨op, hop, hqueued⟩ := h.booked.port_queued packet (by rw [hport]; simp)
  obtain ⟨hcontinuation, hwaited⟩ := h.booked.waited_op packet.overlapped op hop
  have hkind := hwaited (by rw [hqueued]; simp)
  obtain ⟨resume, hstate⟩ := eq_awaitingOp hkind
  have hlt : packet.overlapped < m.ops.length := (List.getElem?_eq_some_iff.mp hop).1
  let received : Operation :=
    { op with
      bytesTransferred := packet.bytes
      error := if packet.ok then 0 else packet.error }
  obtain ⟨result, hresult⟩ := awaitResume_eq received { m.loop with port }
  refine ⟨op, resume result, hop, hqueued, hkind, { received with status := .resumed }, rfl, rfl,
    hcontinuation, ?_⟩
  unfold Machine.dequeue
  simp only [hop, hcontinuation]
  unfold Machine.resume
  simp only [hstate, List.getElem?_set_self hlt, List.set_set]
  simp only [received, hcontinuation] at hresult ⊢
  rw [hresult]
  rfl

theorem inv_dequeue {m : Machine σ} {packet : Packet} {port : List Packet} (h : m.Inv)
    (hport : m.loop.port = packet :: port) (hmain : m.main ≠ .returned) :
    (m.dequeue packet port).Inv := by
  obtain ⟨op, body, hop, hqueued, hkind, op', hresumed, hsubmitter, hcontinuation, heq⟩ :=
    dequeue_eq h hport
  have hlt : packet.overlapped < m.ops.length := (List.getElem?_eq_some_iff.mp hop).1
  have hwaits : (m.dequeue packet port).waits = m.waits.resume op.submitter := by
    rw [heq]
    exact waits_resume m op.submitter body m.stack
  have hloop : (m.dequeue packet port).loop = ⟨m.loop.outstandingOps - 1, port⟩ := by rw [heq]
  have hops : (m.dequeue packet port).ops = m.ops.set packet.overlapped op' := by rw [heq]
  have hdequeued : (m.dequeue packet port).dequeued = m.dequeued ++ [packet.overlapped] := by
    rw [heq]
  have hresumptions : (m.dequeue packet port).resumptions = m.resumptions ++
      [⟨packet.overlapped, op.submitter, packet.overlapped⟩] := by rw [heq]
  -- an operation has one packet: no other in the port is of this one
  have hnodup := h.booked.port_nodup
  rw [hport, List.map_cons, List.nodup_cons] at hnodup
  refine ⟨?_, ⟨?_, ?_, ?_, ?_, ?_, ?_, ?_⟩, ?_, ?_, ?_⟩
  · rw [hwaits]
    exact control_resume h.control hkind
  · -- a coroutine that still waits does so for another operation
    intro g i hg
    rw [hwaits] at hg
    have hne : g ≠ op.submitter := by
      rintro rfl
      simp [Waits.resume] at hg
    simp only [Waits.resume, Function.update_of_ne hne] at hg
    obtain ⟨op'', hop'', hunresumed, hsub⟩ := h.booked.waits_op g i hg
    have hother : packet.overlapped ≠ i := by
      rintro rfl
      rw [hop] at hop''
      exact hne (by rw [← hsub, Option.some.inj hop''])
    rw [hops, List.getElem?_set_ne hother]
    exact ⟨op'', hop'', hunresumed, hsub⟩
  · intro i op'' hop''
    rw [hops] at hop''
    rw [hwaits]
    rcases getElem?_set_eq_some hop'' with ⟨-, hnew⟩ | ⟨hne, hold⟩
    · rw [hnew, hcontinuation, hsubmitter]
      exact ⟨rfl, fun hunresumed => absurd hresumed hunresumed⟩
    · obtain ⟨hcont, hwaited⟩ := h.booked.waited_op i op'' hold
      refine ⟨hcont, ?_⟩
      intro hunresumed
      have hkind' := hwaited hunresumed
      -- one coroutine waits for one operation
      have hother : op''.submitter ≠ op.submitter := by
        intro hsame
        rw [hsame, hkind] at hkind'
        exact hne (Wait.onOp.inj hkind')
      simp only [Waits.resume, Function.update_of_ne hother]
      exact hkind'
  · -- `RemoveOp` counts off the operation that is no longer unresumed
    have hset := @countP_set_add _ Operation.unresumed _ _ _ op' hop
    have hold : op.unresumed = true := by rw [Operation.unresumed, hqueued]; rfl
    have hnew : op'.unresumed = false := by rw [Operation.unresumed, hresumed]; rfl
    have hcount := h.booked.count
    rw [hold, hnew] at hset
    rw [Machine.unresumed] at hcount
    rw [hloop, Machine.unresumed, hops]
    simp only [if_true, Bool.false_eq_true, if_false] at hset
    show m.loop.outstandingOps - 1 = _
    omega
  · intro p hp
    rw [hloop] at hp
    obtain ⟨op'', hop'', hstatus⟩ := h.booked.port_queued p (by
      rw [hport]
      exact List.mem_cons_of_mem _ hp)
    have hne : packet.overlapped ≠ p.overlapped := by
      intro hsame
      exact hnodup.1 (List.mem_map.mpr ⟨p, hp, hsame.symm⟩)
    rw [hops, List.getElem?_set_ne hne]
    exact ⟨op'', hop'', hstatus⟩
  · rw [hloop]
    exact hnodup.2
  · intro r hr
    rw [hresumptions] at hr
    rw [hops]
    rcases List.mem_append.mp hr with hr | hr
    · obtain ⟨hat, op'', hop'', hstatus, hsub⟩ := h.booked.resumes r hr
      have hne := ne_of_status hop hop'' (by rw [hqueued, hstatus]; simp)
      rw [List.getElem?_set_ne hne]
      exact ⟨hat, op'', hop'', hstatus, hsub⟩
    · rw [List.mem_singleton.mp hr]
      exact ⟨rfl, op', List.getElem?_set_self hlt, hresumed, hsubmitter.symm⟩
  · rw [hresumptions, hdequeued, List.map_append, h.booked.each_once.1]
    refine ⟨rfl, List.Nodup.append h.booked.each_once.2 (List.nodup_singleton _) ?_⟩
    -- an operation that was taken before is resumed, and this one was queued
    intro i hi hpacket
    rw [← h.booked.each_once.1] at hi
    obtain ⟨r, hr, rfl⟩ := List.mem_map.mp hi
    obtain ⟨-, op'', hop'', hstatus, -⟩ := h.booked.resumes r hr
    have hne := ne_of_status hop hop'' (by rw [hqueued, hstatus]; simp)
    exact hne (List.mem_singleton.mp hpacket).symm
  · intro hreturned
    rw [heq] at hreturned
    exact absurd hreturned hmain
  · rw [heq]
    exact h.reads_finished
  · rw [heq]
    exact h.resumes_suspended

/-! ## Runs -/

/-- The running coroutine goes on, whatever its body does. -/
theorem inv_execute {m : Machine σ} {f : ℕ} {rest : List ℕ} (P : Program σ ι) (body : σ)
    (input : ι) (call : Submission) (h : m.Inv) (hstack : m.stack = f :: rest) :
    (m.execute P f body input call).Inv := by
  -- behind `Run` nothing is on the stack
  have hmain : m.main ≠ .returned := by
    intro hreturned
    rw [(h.finished hreturned).1] at hstack
    cases hstack
  unfold Machine.execute
  cases P.next body input with
  | coReturn => exact inv_of_transfers h (transfers_finish h hstack none) hmain
  | throw message => exact inv_of_transfers h (transfers_finish h hstack (some message)) hmain
  | awaitTask task resume => exact inv_of_transfers h (transfers_call h hstack task resume) hmain
  | start task after =>
    have hkeep := inv_of_transfers h (transfers_keep h hstack after) hmain
    exact inv_of_transfers hkeep (transfers_start hkeep.control task) hmain
  | await awaitable resume =>
    -- accepted: the coroutine suspends; refused: the exception goes into its body
    rcases awaitSuspend_eq awaitable m.loop call with heq | ⟨message, heq⟩
    · simp only [heq]
      exact inv_submit h hstack resume rfl rfl rfl
    · simp only [heq]
      exact inv_of_transfers h (transfers_keep h hstack _) hmain

/-- When `Run` returns, every coroutine is finished: one that is not would, by way of the
tasks it waits for, be counted. -/
theorem inv_leave {m : Machine σ} (h : m.Inv) (hstack : m.stack = [])
    (hcount : ¬ 0 < m.loop.outstandingOps) : ({ m with main := .returned } : Machine σ).Inv := by
  have hfinal : ∀ f < m.next, (m.frames f).state.isFinal = true := by
    intro f hlt
    rw [isFinal_iff]
    by_contra hunfinished
    -- the chain of awaited tasks ends at a coroutine that waits for an operation
    obtain ⟨g, i, hg⟩ := exists_onOp h.control hstack hlt hunfinished
    obtain ⟨op, hop, hunresumed, -⟩ := h.booked.waits_op g i hg
    have hpos : 0 < m.unresumed :=
      countP_pos_of_getElem? hop (by simp [Operation.unresumed, hunresumed])
    rw [h.booked.count] at hcount
    omega
  exact ⟨h.control, { h.booked with }, fun _ => ⟨hstack, hfinal⟩, h.reads_finished,
    h.resumes_suspended⟩

/-- Behind `Run` every promise is that of a finished task. -/
theorem inv_awaitResume {m : Machine σ} {task : ℕ} (h : m.Inv) (hmain : m.main = .returned)
    (htask : task < m.next) : (m.readPromise task).Inv := by
  refine ⟨h.control, { h.booked with }, h.finished, ?_, h.resumes_suspended⟩
  show (m.unfinishedRead || !(m.frames task).state.isFinal) = false
  rw [h.reads_finished, (h.finished hmain).2 task htask]
  rfl

theorem inv_step {P : Program σ ι} {m m' : Machine σ} {e : Event σ ι} (h : m.Inv)
    (hstep : m.step P e = some m') : m'.Inv := by
  cases e with
  | start task =>
    obtain ⟨-, heq⟩ := Option.ite_none_right_eq_some.mp hstep
    have ht := transfers_start h.control task
    rw [← Option.some.inj heq]
    exact ⟨ht.control, { booked_of_transfers h.booked ht with }, nofun, h.reads_finished,
      h.resumes_suspended⟩
  | run =>
    obtain ⟨-, heq⟩ := Option.ite_none_right_eq_some.mp hstep
    rw [← Option.some.inj heq]
    exact ⟨h.control, { h.booked with }, nofun, h.reads_finished, h.resumes_suspended⟩
  | awaitResume task =>
    obtain ⟨⟨hmain, htask⟩, heq⟩ := Option.ite_none_right_eq_some.mp hstep
    rw [← Option.some.inj heq]
    exact inv_awaitResume h hmain htask
  -- only the top of the stack runs
  | execute input call =>
    simp only [Machine.step] at hstep
    split at hstep
    · next f rest hstack =>
      split at hstep
      · next body hbody =>
        rw [← Option.some.inj hstep]
        exact inv_execute P body input call h hstack
      · cases hstep
    · cases hstep
  | complete packet =>
    simp only [Machine.step] at hstep
    split at hstep
    · next op hop =>
      obtain ⟨hstatus, heq⟩ := Option.ite_none_right_eq_some.mp hstep
      rw [← Option.some.inj heq]
      exact inv_complete h hop hstatus
    · cases hstep
  | fail =>
    obtain ⟨-, heq⟩ := Option.ite_none_right_eq_some.mp hstep
    rw [← Option.some.inj heq]
    exact h
  | dequeue =>
    obtain ⟨⟨-, hmain, -⟩, heq⟩ := Option.ite_none_right_eq_some.mp hstep
    split at heq
    · next packet port hport =>
      rw [← Option.some.inj heq]
      exact inv_dequeue h hport (by rw [hmain]; simp)
    · cases heq
  | leave =>
    obtain ⟨⟨hstack, -, hcount⟩, heq⟩ := Option.ite_none_right_eq_some.mp hstep
    rw [← Option.some.inj heq]
    exact inv_leave h hstack hcount

theorem inv_init : (Machine.init : Machine σ).Inv := by
  refine ⟨⟨?_, ?_, ?_, ?_, ?_, ?_⟩, ⟨?_, ?_, ?_, ?_, ?_, ?_, ?_⟩, ?_, rfl, rfl⟩ <;>
    simp [Machine.init, Machine.waits, FrameState.wait, Machine.unresumed]

/-- **The accounting of `IoEventLoop`.** It holds after every step of every program of tasks
and awaitables. -/
theorem accounting_run {P : Program σ ι} {es : List (Event σ ι)} {m : Machine σ}
    (hrun : run (Machine.step P) Machine.init es = some m) : Accounting m :=
  accounting_of_inv
    (run_invariant Machine.Inv (fun _ _ _ h hstep => inv_step h hstep) hrun inv_init)

/-- The server serves a client that sends five bytes and resets the connection: the second
receive is refused, and the exception goes through both coroutines to `await_resume`. -/
def resetClient : List (Event ServerBody Bool) :=
  [.start .acceptAndServe, .execute true ⟨some 40, true⟩, .run, .complete ⟨0, true, 0, 0⟩,
    .dequeue, .execute true ⟨none, true⟩, .execute true ⟨none, true⟩, .complete ⟨1, true, 5, 0⟩,
    .dequeue, .execute true ⟨none, true⟩, .complete ⟨2, true, 5, 0⟩, .dequeue,
    .execute true ⟨none, false⟩, .execute true ⟨none, true⟩, .execute true ⟨none, true⟩, .leave,
    .awaitResume 0]

theorem accounting_resetClient : ∃ m, run (Machine.step server) Machine.init resetClient = some m ∧
    m.main = .returned ∧ m.taskResult 0 = .error "WSARecv failed" ∧ Accounting m :=
  ⟨_, rfl, rfl, rfl, @accounting_run _ _ server resetClient _ rfl⟩

end Win32Experiments.WinsockCoroutine
