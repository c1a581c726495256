import Win32Experiments.ConditionVariables.Steps
import Win32Experiments.Foundation.Threads

/-!
# The safety of the bounded buffer

* `valid_insert`, `valid_consume`: the queue against the items that went in and out;
* `inv_step`: only an insertion into a queue with room and a consumption from a queue with
  items touch the queue, and after a consumer has found it empty and the stop requested,
  nothing does;
* `safe_run`: the safety of every run, with any number of threads;
* `lock_run`: between `EnterCriticalSection` and `LeaveCriticalSection` is the owner only.
-/

namespace Win32Experiments.ConditionVariables

open Foundation

/-! ## The properties -/

/-- The safety of the buffer: it holds at most ten items, its cells hold the items that were
enqueued and not yet dequeued, in order; no store hits a cell in use; the items are dequeued
once and in order; the counters differ by the size of the queue; and once a consumer has
exited, every item has been consumed. -/
structure Safe (s : BoundedBuffer) : Prop where
  size_le : s.queue.queueSize ≤ bufferSize
  cells : ring 0 s.queue.buffer s.queue.queueStartOffset s.queue.queueSize
    = s.queue.enqueued.drop s.queue.dequeued.length
  kept : s.queue.overwrote = false
  fifo : s.queue.dequeued <+: s.queue.enqueued
  totals : subW 32 s.queue.totalItemsProduced s.queue.totalItemsConsumed = s.queue.queueSize
  drained : ∀ j : ℕ, s.consumers[j]? = some .exited → s.queue.dequeued = s.queue.enqueued

/-! ## The queue -/

/-- The queue against the items that went in and out. -/
structure Queue.Valid (q : Queue) : Prop where
  length : q.buffer.length = bufferSize
  start_lt : q.queueStartOffset < bufferSize
  size_le : q.queueSize ≤ bufferSize
  contents : q.enqueued = q.dequeued ++ ring 0 q.buffer q.queueStartOffset q.queueSize
  produced : q.totalItemsProduced = q.enqueued.length % 2 ^ 32
  consumed : q.totalItemsConsumed = q.dequeued.length % 2 ^ 32
  kept : q.overwrote = false

theorem valid_init : Queue.init.Valid where
  length := List.length_replicate
  start_lt := by decide
  size_le := by decide
  contents := rfl
  produced := rfl
  consumed := rfl
  kept := rfl

theorem queueSize_insert {q : Queue} (h : q.Valid) (hroom : q.queueSize ≠ bufferSize) (item : ℕ) :
    (q.insert item).queueSize = q.queueSize + 1 := by
  have hlt : q.queueSize < bufferSize := Nat.lt_of_le_of_ne h.size_le hroom
  have hsmall : bufferSize = 10 := rfl
  exact addW_of_lt (by omega)

theorem queueSize_consume {q : Queue} (h : q.Valid) (hsome : q.queueSize ≠ 0) :
    q.consume.queueSize = q.queueSize - 1 := by
  have hsmall : bufferSize = 10 := rfl
  have hle := h.size_le
  exact subW_of_le (by omega) (by omega)

/-- An insertion into a queue with room appends its item and overwrites nothing. -/
theorem valid_insert {q : Queue} (h : q.Valid) (hroom : q.queueSize ≠ bufferSize) (item : ℕ) :
    (q.insert item).Valid := by
  have hlt : q.queueSize < bufferSize := Nat.lt_of_le_of_ne h.size_le hroom
  have hsmall : bufferSize = 10 := rfl
  have hstart := h.start_lt
  have hsize : addW 32 q.queueSize 1 = q.queueSize + 1 := queueSize_insert h hroom item
  -- the cell behind the last item of the ring
  have hcell : addW 32 q.queueStartOffset q.queueSize % bufferSize
      = (q.queueStartOffset + q.queueSize) % q.buffer.length := by
    rw [addW_of_lt (by omega), h.length]
  refine ⟨?_, h.start_lt, ?_, ?_, ?_, h.consumed, ?_⟩
  · show (q.buffer.set _ item).length = bufferSize
    rw [List.length_set, h.length]
  · show addW 32 q.queueSize 1 ≤ bufferSize
    omega
  · show q.enqueued ++ [item] = q.dequeued ++ ring 0 (q.buffer.set _ item) q.queueStartOffset
      (addW 32 q.queueSize 1)
    rw [hcell, hsize, ring_push (by rw [h.length]; exact hlt), ← List.append_assoc, ← h.contents]
  · show addW 32 q.totalItemsProduced 1 = (q.enqueued ++ [item]).length % 2 ^ 32
    rw [addW, h.produced, Nat.mod_add_mod, List.length_append, List.length_singleton]
  · show (q.overwrote || decide (InRing bufferSize q.queueStartOffset q.queueSize _)) = false
    -- with room left, that cell is not one of the ring
    have hfree := @not_inRing_end bufferSize q.queueStartOffset q.queueSize hlt
    rw [hcell, h.length, h.kept, decide_eq_false hfree]
    rfl

/-- A consumption from a queue with items moves its first item out. -/
theorem valid_consume {q : Queue} (h : q.Valid) (hsome : q.queueSize ≠ 0) : q.consume.Valid := by
  have hsmall : bufferSize = 10 := rfl
  have hle := h.size_le
  have hstart := h.start_lt
  obtain ⟨n, hn⟩ := Nat.exists_eq_succ_of_ne_zero hsome
  have hsize : subW 32 q.queueSize 1 = n := by
    have hconsume : subW 32 q.queueSize 1 = q.queueSize - 1 := queueSize_consume h hsome
    omega
  have hadd : addW 32 q.queueStartOffset 1 = q.queueStartOffset + 1 := addW_of_lt (by omega)
  -- the offset wraps at the end of the buffer, as the ring does
  have hnext : (if addW 32 q.queueStartOffset 1 = bufferSize then 0
      else addW 32 q.queueStartOffset 1) = (q.queueStartOffset + 1) % q.buffer.length := by
    rw [hadd, h.length]
    split
    · next hwrap => rw [hwrap, Nat.mod_self]
    · next hwrap => rw [Nat.mod_eq_of_lt (by omega)]
  unfold Queue.consume
  refine ⟨h.length, ?_, ?_, ?_, h.produced, ?_, h.kept⟩
  · show (if addW 32 q.queueStartOffset 1 = bufferSize then 0
      else addW 32 q.queueStartOffset 1) < bufferSize
    rw [hnext, h.length]
    exact Nat.mod_lt _ (by omega)
  · show subW 32 q.queueSize 1 ≤ bufferSize
    omega
  · show q.enqueued = (q.dequeued ++ [q.buffer.getD q.queueStartOffset 0]) ++
      ring 0 q.buffer (if addW 32 q.queueStartOffset 1 = bufferSize then 0
        else addW 32 q.queueStartOffset 1) (subW 32 q.queueSize 1)
    rw [hnext, hsize, h.contents, hn, Nat.succ_eq_add_one,
      ring_pop (by rw [h.length]; exact hstart), List.append_assoc]
    rfl
  · show addW 32 q.totalItemsConsumed 1 = (q.dequeued ++ [_]).length % 2 ^ 32
    rw [addW, h.consumed, Nat.mod_add_mod, List.length_append, List.length_singleton]

/-- The counters wrap, and their difference is the size of the queue. -/
theorem totals_of_valid {q : Queue} (h : q.Valid) :
    subW 32 q.totalItemsProduced q.totalItemsConsumed = q.queueSize := by
  have hsmall : bufferSize = 10 := rfl
  have hle := h.size_le
  have hlength : q.enqueued.length = q.dequeued.length + q.queueSize := by
    rw [h.contents, List.length_append, length_ring]
  -- the counters are taken modulo the same power
  rw [subW, h.produced, h.consumed, hlength]
  omega

/-! ## The invariant -/

/-- The consumer is on its way out. -/
def Consumer.Leaves (c : Consumer) : Prop := c = .stopping ∨ c = .exited

/-- What holds in every run. -/
structure BoundedBuffer.Inv (s : BoundedBuffer) : Prop where
  valid : s.queue.Valid
  drained : ∀ (j : ℕ) c, s.consumers[j]? = some c → c.Leaves →
    s.stopRequested = true ∧ s.queue.queueSize = 0

theorem safe_of_inv {s : BoundedBuffer} (h : s.Inv) : Safe s where
  size_le := h.valid.size_le
  cells := by rw [h.valid.contents, List.drop_left]
  kept := h.valid.kept
  fifo := by
    rw [h.valid.contents]
    exact List.prefix_append _ _
  totals := totals_of_valid h.valid
  drained j hj := by
    have hempty := (h.drained j .exited hj (Or.inr rfl)).2
    have hcontents := h.valid.contents
    rw [hempty, ring_zero, List.append_nil] at hcontents
    exact hcontents.symm

/-- A step that leaves the queue and the request alone, and sends no consumer out. -/
theorem inv_of_same {s t : BoundedBuffer} (h : s.Inv) (hqueue : t.queue = s.queue)
    (hstop : t.stopRequested = s.stopRequested)
    (hconsumers : ∀ (j : ℕ) c, t.consumers[j]? = some c → c.Leaves →
      ∃ (j' : ℕ) (c' : Consumer), s.consumers[j']? = some c' ∧ c'.Leaves) : t.Inv where
  valid := by
    rw [hqueue]
    exact h.valid
  drained j c hc hleaves := by
    obtain ⟨j', c', hc', hleaves'⟩ := hconsumers j c hc hleaves
    rw [hqueue, hstop]
    exact h.drained j' c' hc' hleaves'

/-- A consumer that is set to a state that does not leave. -/
theorem leaves_set {l : List Consumer} {j k : ℕ} {c c' : Consumer} (hc' : ¬ c'.Leaves)
    (h : (l.set j c')[k]? = some c) (hleaves : c.Leaves) :
    ∃ (k' : ℕ) (c'' : Consumer), l[k']? = some c'' ∧ c''.Leaves := by
  rcases getElem?_set_eq_some h with ⟨-, hnew⟩ | ⟨-, hold⟩
  · exact absurd (hnew ▸ hleaves) hc'
  · exact ⟨k, c, hold, hleaves⟩

/-- A wake sends no consumer out. -/
theorem leaves_wake {l : List Consumer} {k : ℕ} {c : Consumer}
    (h : (l.map Consumer.wake)[k]? = some c) (hleaves : c.Leaves) :
    ∃ (k' : ℕ) (c'' : Consumer), l[k']? = some c'' ∧ c''.Leaves := by
  rw [List.getElem?_map, Option.map_eq_some_iff] at h
  obtain ⟨c', hc', hwake⟩ := h
  refine ⟨k, c', hc', ?_⟩
  rw [← hwake] at hleaves
  cases c' with
  | asleep => rcases hleaves with h | h <;> cases h
  | _ => exact hleaves

theorem inv_stepped {s t : BoundedBuffer} (h : s.Inv) (hstep : s.Stepped t) : t.Inv := by
  cases hstep with
  | produce hi => exact inv_of_same h rfl rfl fun j c hc hleaves => ⟨j, c, hc, hleaves⟩
  | enterProducer hi hlock => exact inv_of_same h rfl rfl fun j c hc hleaves => ⟨j, c, hc, hleaves⟩
  | sleepProducer hi hfull hstop =>
    exact inv_of_same h rfl rfl fun j c hc hleaves => ⟨j, c, hc, hleaves⟩
  | stopProducer hi hstop => exact inv_of_same h rfl rfl fun j c hc hleaves => ⟨j, c, hc, hleaves⟩
  | insert hi hroom hstop =>
    -- nobody has left: the request comes first
    refine ⟨valid_insert h.valid hroom _, ?_⟩
    intro j c hc hleaves
    have hrequested := (h.drained j c hc hleaves).1
    rw [hstop] at hrequested
    cases hrequested
  | leaveInserted hi => exact inv_of_same h rfl rfl fun j c hc hleaves => ⟨j, c, hc, hleaves⟩
  | exitProducer hi => exact inv_of_same h rfl rfl fun j c hc hleaves => ⟨j, c, hc, hleaves⟩
  | wakeConsumer hi ht =>
    cases ht with
    | sleeper hj =>
      exact inv_of_same h rfl rfl fun _ _ hc => leaves_set (by simp [Consumer.Leaves]) hc
    | nobody hnone => exact inv_of_same h rfl rfl fun j c hc hleaves => ⟨j, c, hc, hleaves⟩
  | enterConsumer hj hlock =>
    exact inv_of_same h rfl rfl fun _ _ hc => leaves_set (by simp [Consumer.Leaves]) hc
  | sleepConsumer hj hempty hstop =>
    exact inv_of_same h rfl rfl fun _ _ hc => leaves_set (by simp [Consumer.Leaves]) hc
  -- the guard of the exit is what the invariant asks for
  | stopConsumer hj hempty hstop =>
    exact ⟨h.valid, fun _ _ _ _ => ⟨hstop, hempty⟩⟩
  -- nobody has left: the queue is not empty
  | consume hj hsome =>
    refine ⟨valid_consume h.valid hsome, ?_⟩
    intro j c hc hleaves
    obtain ⟨j', c', hc', hleaves'⟩ := leaves_set (by simp [Consumer.Leaves]) hc hleaves
    exact absurd (h.drained j' c' hc' hleaves').2 hsome
  | leaveConsumed hj =>
    exact inv_of_same h rfl rfl fun _ _ hc => leaves_set (by simp [Consumer.Leaves]) hc
  | exitConsumer hj =>
    have hleft := h.drained _ _ hj (Or.inl rfl)
    exact ⟨h.valid, fun _ _ _ _ => hleft⟩
  | wakeProducer hj ht =>
    cases ht with
    | sleeper hi =>
      exact inv_of_same h rfl rfl fun _ _ hc => leaves_set (by simp [Consumer.Leaves]) hc
    | nobody hnone =>
      exact inv_of_same h rfl rfl fun _ _ hc => leaves_set (by simp [Consumer.Leaves]) hc
  | mainEnter hmain hlock => exact inv_of_same h rfl rfl fun j c hc hleaves => ⟨j, c, hc, hleaves⟩
  -- a consumer that has left found the request already
  | mainStop hmain =>
    exact ⟨h.valid, fun j c hc hleaves => ⟨rfl, (h.drained j c hc hleaves).2⟩⟩
  | mainLeave hmain => exact inv_of_same h rfl rfl fun j c hc hleaves => ⟨j, c, hc, hleaves⟩
  | mainWakeNotFull hmain => exact inv_of_same h rfl rfl fun j c hc hleaves => ⟨j, c, hc, hleaves⟩
  | mainWakeNotEmpty hmain => exact inv_of_same h rfl rfl fun _ _ hc => leaves_wake hc
  | spuriousProducer hi => exact inv_of_same h rfl rfl fun j c hc hleaves => ⟨j, c, hc, hleaves⟩
  | spuriousConsumer hj =>
    exact inv_of_same h rfl rfl fun _ _ hc => leaves_set (by simp [Consumer.Leaves]) hc

theorem inv_start (producers consumers : ℕ) : (BoundedBuffer.start producers consumers).Inv where
  valid := valid_init
  drained j c hc hleaves := by
    rw [BoundedBuffer.start, List.getElem?_replicate] at hc
    split at hc
    · rw [← Option.some.inj hc] at hleaves
      rcases hleaves with h | h <;> cases h
    · cases hc

/-- **The bounded buffer is safe**, with any number of producers and consumers, in every
interleaving, whichever sleeper a wake chooses and whoever wakes spuriously. -/
theorem safe_run {producers consumers : ℕ} {es : List Event} {t : BoundedBuffer}
    (hrun : run BoundedBuffer.step (BoundedBuffer.start producers consumers) es = some t) :
    Safe t :=
  safe_of_inv (run_invariant BoundedBuffer.Inv
    (fun _ _ _ h hstep => inv_stepped h (stepped_of_step hstep)) hrun
    (inv_start producers consumers))

/-- A consumer that sleeps first is woken, takes the item and exits when `main` stops. -/
def sleepsFirst : List Event :=
  [.consumer 0 none, .consumer 0 none, .producer 0 none, .producer 0 none, .producer 0 none,
    .producer 0 none, .producer 0 (some 0), .consumer 0 none, .consumer 0 none, .consumer 0 none,
    .consumer 0 none, .main, .main, .main, .main, .main, .consumer 0 none, .consumer 0 none,
    .consumer 0 none]

theorem safe_sleepsFirst :
    ∃ t, run BoundedBuffer.step (BoundedBuffer.start 1 1) sleepsFirst = some t ∧
    t.consumers = [.exited] ∧ t.queue.enqueued = [1] ∧ Safe t :=
  ⟨_, rfl, rfl, rfl, @safe_run 1 1 sleepsFirst _ rfl⟩

/-! ## The lock -/

def Producer.inside : Producer → Bool
  | .checking _ => true
  | .inserted => true
  | .stopping => true
  | _ => false

def Consumer.inside : Consumer → Bool
  | .checking => true
  | .consumed => true
  | .stopping => true
  | _ => false

/-- The thread is between `EnterCriticalSection` and `LeaveCriticalSection`, and awake. -/
def BoundedBuffer.Inside (s : BoundedBuffer) : Thread → Prop
  | .main => s.main = .holding ∨ s.main = .stopping
  | .producer i => ∃ p, s.producers[i]? = some p ∧ p.inside = true
  | .consumer j => ∃ c, s.consumers[j]? = some c ∧ c.inside = true

/-- The lock is its owner's, who is the only thread inside. -/
def BoundedBuffer.Locked (s : BoundedBuffer) : Prop :=
  ∀ thread, s.Inside thread ↔ s.lock = some thread

section Lock

variable {s t : BoundedBuffer} {thread : Thread}

theorem locked_keep (h : s.Locked) (hlock : t.lock = s.lock)
    (hinside : ∀ thread, t.Inside thread ↔ s.Inside thread) : t.Locked := by
  intro thread
  rw [hlock, hinside]
  exact h thread

theorem locked_enter (h : s.Locked) (hfree : s.lock = none) (hlock : t.lock = some thread)
    (hself : t.Inside thread)
    (hothers : ∀ other, other ≠ thread → (t.Inside other ↔ s.Inside other)) : t.Locked := by
  intro other
  by_cases heq : other = thread
  · rw [heq, hlock]
    exact iff_of_true hself rfl
  · -- the lock was free, so nobody else is inside
    rw [hothers other heq, h other, hfree, hlock]
    exact iff_of_false nofun fun hsome => heq (Option.some.inj hsome).symm

theorem locked_leave (h : s.Locked) (hself : s.Inside thread) (hlock : t.lock = none)
    (hout : ¬ t.Inside thread)
    (hothers : ∀ other, other ≠ thread → (t.Inside other ↔ s.Inside other)) : t.Locked := by
  -- the thread that leaves was the owner, and so the only one inside
  have howner := (h thread).mp hself
  intro other
  rw [hlock]
  refine iff_of_false ?_ nofun
  by_cases heq : other = thread
  · rw [heq]
    exact hout
  · rw [hothers other heq, h other, howner]
    exact fun hsome => heq (Option.some.inj hsome).symm

/-- The data that the lock protects do not matter. -/
theorem locked_data (h : s.Locked) (queue : Queue) (lastItemProduced : ℕ) :
    ({ s with queue, lastItemProduced } : BoundedBuffer).Locked := by
  refine locked_keep h rfl ?_
  intro thread
  cases thread <;> exact Iff.rfl

/-- A producer moves: where the others are does not change. -/
theorem inside_setProducer {i : ℕ} {p : Producer} (hi : s.producers[i]? = some p) (p' : Producer) :
    ((s.setProducer i p').Inside (.producer i) ↔ p'.inside = true) ∧
      ∀ other, other ≠ .producer i → ((s.setProducer i p').Inside other ↔ s.Inside other) := by
  have hlt : i < s.producers.length := (List.getElem?_eq_some_iff.mp hi).1
  constructor
  · show (∃ p, (s.producers.set i p')[i]? = some p ∧ p.inside = true) ↔ _
    rw [List.getElem?_set_self hlt]
    simp
  · intro other hne
    cases other with
    | main => exact Iff.rfl
    | consumer j => exact Iff.rfl
    | producer k =>
      have hik : i ≠ k := by
        rintro rfl
        exact hne rfl
      show (∃ p, (s.producers.set i p')[k]? = some p ∧ p.inside = true) ↔ _
      rw [List.getElem?_set_ne hik]
      exact Iff.rfl

/-- A consumer moves. -/
theorem inside_setConsumer {j : ℕ} {c : Consumer} (hj : s.consumers[j]? = some c) (c' : Consumer) :
    ((s.setConsumer j c').Inside (.consumer j) ↔ c'.inside = true) ∧
      ∀ other, other ≠ .consumer j → ((s.setConsumer j c').Inside other ↔ s.Inside other) := by
  have hlt : j < s.consumers.length := (List.getElem?_eq_some_iff.mp hj).1
  constructor
  · show (∃ c, (s.consumers.set j c')[j]? = some c ∧ c.inside = true) ↔ _
    rw [List.getElem?_set_self hlt]
    simp
  · intro other hne
    cases other with
    | main => exact Iff.rfl
    | producer i => exact Iff.rfl
    | consumer k =>
      have hjk : j ≠ k := by
        rintro rfl
        exact hne rfl
      show (∃ c, (s.consumers.set j c')[k]? = some c ∧ c.inside = true) ↔ _
      rw [List.getElem?_set_ne hjk]
      exact Iff.rfl

/-- A producer that moves outside, or inside. -/
theorem locked_setProducer {i : ℕ} {p p' : Producer} (h : s.Locked) (hi : s.producers[i]? = some p)
    (hsame : p'.inside = p.inside) : (s.setProducer i p').Locked := by
  obtain ⟨hself, hothers⟩ := inside_setProducer hi p'
  refine locked_keep h rfl ?_
  intro thread
  by_cases heq : thread = .producer i
  · rw [heq, hself, hsame]
    show _ ↔ ∃ p, s.producers[i]? = some p ∧ p.inside = true
    rw [hi]
    simp
  · exact hothers thread heq

theorem locked_setConsumer {j : ℕ} {c c' : Consumer} (h : s.Locked) (hj : s.consumers[j]? = some c)
    (hsame : c'.inside = c.inside) : (s.setConsumer j c').Locked := by
  obtain ⟨hself, hothers⟩ := inside_setConsumer hj c'
  refine locked_keep h rfl ?_
  intro thread
  by_cases heq : thread = .consumer j
  · rw [heq, hself, hsame]
    show _ ↔ ∃ c, s.consumers[j]? = some c ∧ c.inside = true
    rw [hj]
    simp
  · exact hothers thread heq

theorem locked_enterProducer {i : ℕ} {p p' : Producer} (h : s.Locked)
    (hi : s.producers[i]? = some p) (hfree : s.lock = none) (hin : p'.inside = true) :
    ({ s with lock := some (.producer i) }.setProducer i p').Locked := by
  obtain ⟨hself, hothers⟩ :=
    @inside_setProducer { s with lock := some (.producer i) } i p hi p'
  exact locked_enter h hfree rfl (hself.mpr hin) hothers

theorem locked_leaveProducer {i : ℕ} {p p' : Producer} (h : s.Locked)
    (hi : s.producers[i]? = some p) (hin : p.inside = true) (hout : p'.inside = false) :
    (s.leave.setProducer i p').Locked := by
  obtain ⟨hself, hothers⟩ := @inside_setProducer s.leave i p hi p'
  refine locked_leave h (show s.Inside (.producer i) from ⟨p, hi, hin⟩) rfl ?_ hothers
  rw [hself, hout]
  simp

theorem locked_enterConsumer {j : ℕ} {c c' : Consumer} (h : s.Locked)
    (hj : s.consumers[j]? = some c) (hfree : s.lock = none) (hin : c'.inside = true) :
    ({ s with lock := some (.consumer j) }.setConsumer j c').Locked := by
  obtain ⟨hself, hothers⟩ :=
    @inside_setConsumer { s with lock := some (.consumer j) } j c hj c'
  exact locked_enter h hfree rfl (hself.mpr hin) hothers

theorem locked_leaveConsumer {j : ℕ} {c c' : Consumer} (h : s.Locked)
    (hj : s.consumers[j]? = some c) (hin : c.inside = true) (hout : c'.inside = false) :
    (s.leave.setConsumer j c').Locked := by
  obtain ⟨hself, hothers⟩ := @inside_setConsumer s.leave j c hj c'
  refine locked_leave h (show s.Inside (.consumer j) from ⟨c, hj, hin⟩) rfl ?_ hothers
  rw [hself, hout]
  simp

/-- `main` moves: the other threads stay where they are. -/
theorem inside_main {main' : Main} {lock : Option Thread} {stop : Bool} (other : Thread)
    (hne : other ≠ .main) :
    ({ s with main := main', lock, stopRequested := stop } : BoundedBuffer).Inside other ↔
      s.Inside other := by
  cases other with
  | main => exact absurd rfl hne
  | producer i => exact Iff.rfl
  | consumer j => exact Iff.rfl

/-- A wake of all sleepers moves nobody inside. -/
theorem inside_wakeAll (thread : Thread) :
    (({ s with producers := s.producers.map Producer.wake } : BoundedBuffer).Inside thread ↔
        s.Inside thread) ∧
      (({ s with consumers := s.consumers.map Consumer.wake } : BoundedBuffer).Inside thread ↔
        s.Inside thread) := by
  -- a thread that wakes has to enter first
  have hproducer : ∀ p : Producer, p.wake.inside = p.inside := by
    intro p
    cases p <;> rfl
  have hconsumer : ∀ c : Consumer, c.wake.inside = c.inside := by
    intro c
    cases c <;> rfl
  cases thread with
  | main => exact ⟨Iff.rfl, Iff.rfl⟩
  | producer i =>
    refine ⟨?_, Iff.rfl⟩
    show (∃ p, (s.producers.map Producer.wake)[i]? = some p ∧ p.inside = true) ↔
      ∃ p, s.producers[i]? = some p ∧ p.inside = true
    rw [List.getElem?_map]
    cases s.producers[i]? <;> simp [hproducer]
  | consumer j =>
    refine ⟨Iff.rfl, ?_⟩
    show (∃ c, (s.consumers.map Consumer.wake)[j]? = some c ∧ c.inside = true) ↔
      ∃ c, s.consumers[j]? = some c ∧ c.inside = true
    rw [List.getElem?_map]
    cases s.consumers[j]? <;> simp [hconsumer]

/-- `main` moves outside, and the other threads stay where they are. -/
theorem locked_mainOutside (h : s.Locked) (hlock : t.lock = s.lock) (hbefore : ¬ s.Inside .main)
    (hafter : ¬ t.Inside .main)
    (hothers : ∀ thread, thread ≠ .main → (t.Inside thread ↔ s.Inside thread)) : t.Locked := by
  refine locked_keep h hlock ?_
  intro thread
  by_cases heq : thread = .main
  · rw [heq]
    exact iff_of_false hafter hbefore
  · exact hothers thread heq

theorem locked_stepped (h : s.Locked) (hstep : s.Stepped t) : t.Locked := by
  cases hstep with
  | produce hi => exact locked_setProducer (locked_data h s.queue _) hi rfl
  | enterProducer hi hlock =>
    rcases hi with hi | hi <;> exact locked_enterProducer h hi hlock rfl
  | sleepProducer hi hfull hstop => exact locked_leaveProducer h hi rfl rfl
  | stopProducer hi hstop => exact locked_setProducer h hi rfl
  | insert hi hroom hstop => exact locked_setProducer (locked_data h _ s.lastItemProduced) hi rfl
  | leaveInserted hi => exact locked_leaveProducer h hi rfl rfl
  | exitProducer hi => exact locked_leaveProducer h hi rfl rfl
  | wakeConsumer hi ht =>
    cases ht with
    | sleeper hj =>
      exact @locked_setProducer (s.setConsumer _ _) _ _ _ (locked_setConsumer h hj rfl) hi rfl
    | nobody hnone => exact locked_setProducer h hi rfl
  | enterConsumer hj hlock =>
    rcases hj with hj | hj <;> exact locked_enterConsumer h hj hlock rfl
  | sleepConsumer hj hempty hstop => exact locked_leaveConsumer h hj rfl rfl
  | stopConsumer hj hempty hstop => exact locked_setConsumer h hj rfl
  | consume hj hsome => exact locked_setConsumer (locked_data h _ s.lastItemProduced) hj rfl
  | leaveConsumed hj => exact locked_leaveConsumer h hj rfl rfl
  | exitConsumer hj => exact locked_leaveConsumer h hj rfl rfl
  | wakeProducer hj ht =>
    cases ht with
    | sleeper hi =>
      exact @locked_setConsumer (s.setProducer _ _) _ _ _ (locked_setProducer h hi rfl) hj rfl
    | nobody hnone => exact locked_setConsumer h hj rfl
  | mainEnter hmain hlock =>
    exact @locked_enter _ _ .main h hlock rfl (Or.inl rfl) fun other hne => inside_main other hne
  -- `main` stays inside while it requests the stop
  | mainStop hmain =>
    refine locked_keep h rfl ?_
    intro thread
    by_cases heq : thread = .main
    · rw [heq]
      exact iff_of_true (Or.inr rfl) (Or.inl hmain)
    · exact inside_main thread heq
  | mainLeave hmain =>
    refine @locked_leave _ _ .main h (Or.inr hmain) rfl ?_ fun other hne => inside_main other hne
    rintro (hmain' | hmain') <;> cases hmain'
  | mainWakeNotFull hmain =>
    refine locked_mainOutside h rfl ?_ ?_ ?_
    · rintro (hmain' | hmain') <;> rw [hmain] at hmain' <;> cases hmain'
    · rintro (hmain' | hmain') <;> cases hmain'
    · intro thread hne
      rw [← (@inside_wakeAll s thread).1]
      exact @inside_main { s with producers := s.producers.map Producer.wake } _ _ _ thread hne
  | mainWakeNotEmpty hmain =>
    refine locked_mainOutside h rfl ?_ ?_ ?_
    · rintro (hmain' | hmain') <;> rw [hmain] at hmain' <;> cases hmain'
    · rintro (hmain' | hmain') <;> cases hmain'
    · intro thread hne
      rw [← (@inside_wakeAll s thread).2]
      exact @inside_main { s with consumers := s.consumers.map Consumer.wake } _ _ _ thread hne
  | spuriousProducer hi => exact locked_setProducer h hi rfl
  | spuriousConsumer hj => exact locked_setConsumer h hj rfl

end Lock

/-- Mutual exclusion: in every run the thread inside the critical section is the owner of the
lock, so the code between the two calls is one step. -/
theorem locked_run {producers consumers : ℕ} {es : List Event} {t : BoundedBuffer}
    (hrun : run BoundedBuffer.step (BoundedBuffer.start producers consumers) es = some t) :
    t.Locked := by
  refine run_invariant BoundedBuffer.Locked
    (fun _ _ _ h hstep => locked_stepped h (stepped_of_step hstep)) hrun ?_
  intro thread
  refine iff_of_false ?_ nofun
  cases thread with
  | main => rintro (h | h) <;> cases h
  | producer i =>
    rintro ⟨p, hp, hin⟩
    rw [BoundedBuffer.start, List.getElem?_replicate] at hp
    split at hp
    · rw [← Option.some.inj hp] at hin
      cases hin
    · cases hp
  | consumer j =>
    rintro ⟨c, hc, hin⟩
    rw [BoundedBuffer.start, List.getElem?_replicate] at hc
    split at hc
    · rw [← Option.some.inj hc] at hin
      cases hin
    · cases hc

end Win32Experiments.ConditionVariables
