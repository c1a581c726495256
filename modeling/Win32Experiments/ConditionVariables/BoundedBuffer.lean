import Win32Experiments.Foundation.Ring
import Win32Experiments.Foundation.Run
import Win32Experiments.Foundation.Word

/-!
# The bounded buffer

Producers and consumers share a ring of ten items under `BufferLock`. A step is what one
thread does up to the next call that other threads can see: the calls on the critical section
and on the condition variables, and between them the code that holds the lock.

A thread that sleeps on a condition variable has released the lock; a wake, which may be
spurious, lets it compete for the lock again.
-/

namespace Win32Experiments.ConditionVariables

open Foundation

/-! ## The queue -/

/-- `BUFFER_SIZE`. -/
def bufferSize : ℕ := 10

/-- The ring with its counters; and the record of the run: the items that were enqueued and
dequeued, and whether a store hit a cell that was in use. -/
structure Queue where
  buffer : List ℕ
  queueSize : ℕ
  queueStartOffset : ℕ
  totalItemsProduced : ℕ
  totalItemsConsumed : ℕ
  enqueued : List ℕ
  dequeued : List ℕ
  overwrote : Bool
deriving DecidableEq, Repr

/-- The globals are zero at the start. -/
def Queue.init : Queue :=
  { buffer := List.replicate bufferSize 0, queueSize := 0, queueStartOffset := 0
    totalItemsProduced := 0, totalItemsConsumed := 0, enqueued := [], dequeued := []
    overwrote := false }

/-- The item goes to the end of the queue. -/
def Queue.insert (q : Queue) (item : ℕ) : Queue :=
  let cell := addW 32 q.queueStartOffset q.queueSize % bufferSize
  { q with
    buffer := q.buffer.set cell item
    queueSize := addW 32 q.queueSize 1
    totalItemsProduced := addW 32 q.totalItemsProduced 1
    enqueued := q.enqueued ++ [item]
    overwrote := q.overwrote || InRing bufferSize q.queueStartOffset q.queueSize cell }

/-- The first item is consumed. -/
def Queue.consume (q : Queue) : Queue :=
  let queueStartOffset := addW 32 q.queueStartOffset 1
  { q with
    queueSize := subW 32 q.queueSize 1
    queueStartOffset := if queueStartOffset = bufferSize then 0 else queueStartOffset
    totalItemsConsumed := addW 32 q.totalItemsConsumed 1
    dequeued := q.dequeued ++ [q.buffer.getD q.queueStartOffset 0] }

/-! ## Threads -/

/-- Where a producer stands: before `InterlockedIncrement`; before `EnterCriticalSection`;
with the lock, at the test of the loop; in `SleepConditionVariableCS`, asleep or woken; with
the lock, before `LeaveCriticalSection`, behind the insertion or to exit; before
`WakeConditionVariable`. -/
inductive Producer
  | producing
  | entering (item : ℕ)
  | checking (item : ℕ)
  | asleep (item : ℕ)
  | woken (item : ℕ)
  | inserted
  | stopping
  | waking
  | exited
deriving DecidableEq, Repr

/-- Where a consumer stands. -/
inductive Consumer
  | entering
  | checking
  | asleep
  | woken
  | consumed
  | stopping
  | waking
  | exited
deriving DecidableEq, Repr

/-- Where `main` stands: in `getchar`; with the lock, before and behind the assignment; before
each `WakeAllConditionVariable`; in `WaitForSingleObject`. -/
inductive Main
  | reading
  | holding
  | stopping
  | wakingNotFull
  | wakingNotEmpty
  | joining
deriving DecidableEq, Repr

/-- The threads. -/
inductive Thread
  | main
  | producer (i : ℕ)
  | consumer (j : ℕ)
deriving DecidableEq, Repr

/-- The program: the queue, the last item produced, `StopRequested`, the owner of
`BufferLock`, and the threads. -/
structure BoundedBuffer where
  queue : Queue
  lastItemProduced : ℕ
  stopRequested : Bool
  lock : Option Thread
  producers : List Producer
  consumers : List Consumer
  main : Main
deriving DecidableEq, Repr

/-- The program with its threads at their starts. -/
def BoundedBuffer.start (producers consumers : ℕ) : BoundedBuffer :=
  { queue := Queue.init, lastItemProduced := 0, stopRequested := false, lock := none
    producers := List.replicate producers .producing
    consumers := List.replicate consumers .entering, main := .reading }

def Producer.isAsleep : Producer → Bool
  | .asleep _ => true
  | _ => false

def Consumer.isAsleep : Consumer → Bool
  | .asleep => true
  | _ => false

/-- A wake of a producer, which has an effect if it is asleep. -/
def Producer.wake : Producer → Producer
  | .asleep item => .woken item
  | p => p

/-- A wake of a consumer. -/
def Consumer.wake : Consumer → Consumer
  | .asleep => .woken
  | c => c

section

variable (s : BoundedBuffer)

def BoundedBuffer.setProducer (i : ℕ) (p : Producer) : BoundedBuffer :=
  { s with producers := s.producers.set i p }

def BoundedBuffer.setConsumer (j : ℕ) (c : Consumer) : BoundedBuffer :=
  { s with consumers := s.consumers.set j c }

/-- `EnterCriticalSection`, which returns when the lock is free. -/
def BoundedBuffer.enter (t : Thread) : Option BoundedBuffer :=
  if s.lock = none then some { s with lock := some t } else none

/-- `LeaveCriticalSection`. -/
def BoundedBuffer.leave : BoundedBuffer := { s with lock := none }

/-- `WakeConditionVariable(&BufferNotFull)`: one sleeper, if there is any. -/
def BoundedBuffer.wakeNotFull : Option ℕ → Option BoundedBuffer
  | some i =>
    match s.producers[i]? with
    | some (.asleep item) => some (s.setProducer i (.woken item))
    | _ => none
  | none => if s.producers.any Producer.isAsleep then none else some s

/-- `WakeConditionVariable(&BufferNotEmpty)`. -/
def BoundedBuffer.wakeNotEmpty : Option ℕ → Option BoundedBuffer
  | some j =>
    match s.consumers[j]? with
    | some .asleep => some (s.setConsumer j .woken)
    | _ => none
  | none => if s.consumers.any Consumer.isAsleep then none else some s

/-- A step of `ProducerThreadProc`; `sleeper` is the consumer that a wake chooses. -/
def BoundedBuffer.stepProducer (i : ℕ) (sleeper : Option ℕ) : Option BoundedBuffer :=
  match s.producers[i]? with
  | some .producing =>
    let item := addW 32 s.lastItemProduced 1
    some ({ s with lastItemProduced := item }.setProducer i (.entering item))
  | some (.entering item) => (s.enter (.producer i)).map (·.setProducer i (.checking item))
  | some (.checking item) =>
    if s.queue.queueSize = bufferSize ∧ s.stopRequested = false then
      some (s.leave.setProducer i (.asleep item))
    else if s.stopRequested = true then some (s.setProducer i .stopping)
    else some ({ s with queue := s.queue.insert item }.setProducer i .inserted)
  | some (.woken item) => (s.enter (.producer i)).map (·.setProducer i (.checking item))
  | some .inserted => some (s.leave.setProducer i .waking)
  | some .stopping => some (s.leave.setProducer i .exited)
  | some .waking => (s.wakeNotEmpty sleeper).map (·.setProducer i .producing)
  | some (.asleep _) => none
  | some .exited => none
  | none => none

/-- A step of `ConsumerThreadProc`; `sleeper` is the producer that a wake chooses. -/
def BoundedBuffer.stepConsumer (j : ℕ) (sleeper : Option ℕ) : Option BoundedBuffer :=
  match s.consumers[j]? with
  | some .entering => (s.enter (.consumer j)).map (·.setConsumer j .checking)
  | some .checking =>
    if s.queue.queueSize = 0 ∧ s.stopRequested = false then
      some (s.leave.setConsumer j .asleep)
    else if s.stopRequested = true ∧ s.queue.queueSize = 0 then
      some (s.setConsumer j .stopping)
    else some ({ s with queue := s.queue.consume }.setConsumer j .consumed)
  | some .woken => (s.enter (.consumer j)).map (·.setConsumer j .checking)
  | some .consumed => some (s.leave.setConsumer j .waking)
  | some .stopping => some (s.leave.setConsumer j .exited)
  | some .waking => (s.wakeNotFull sleeper).map (·.setConsumer j .entering)
  | some .asleep => none
  | some .exited => none
  | none => none

/-- A step of `main`. -/
def BoundedBuffer.stepMain : Option BoundedBuffer :=
  match s.main with
  | .reading => (s.enter .main).map fun s => { s with main := .holding }
  | .holding => some { s with stopRequested := true, main := .stopping }
  | .stopping => some { s.leave with main := .wakingNotFull }
  | .wakingNotFull =>
    some { s with producers := s.producers.map Producer.wake, main := .wakingNotEmpty }
  | .wakingNotEmpty =>
    some { s with consumers := s.consumers.map Consumer.wake, main := .joining }
  | .joining => none

end

/-- A step: a thread goes on, or a sleeper wakes spuriously. -/
inductive Event
  | producer (i : ℕ) (sleeper : Option ℕ)
  | consumer (j : ℕ) (sleeper : Option ℕ)
  | main
  | spuriousProducer (i : ℕ)
  | spuriousConsumer (j : ℕ)
deriving DecidableEq, Repr

/-- A step of the program. -/
def BoundedBuffer.step (s : BoundedBuffer) : Event → Option BoundedBuffer
  | .producer i sleeper => s.stepProducer i sleeper
  | .consumer j sleeper => s.stepConsumer j sleeper
  | .main => s.stepMain
  | .spuriousProducer i =>
    match s.producers[i]? with
    | some (.asleep item) => some (s.setProducer i (.woken item))
    | _ => none
  | .spuriousConsumer j =>
    match s.consumers[j]? with
    | some .asleep => some (s.setConsumer j .woken)
    | _ => none

end Win32Experiments.ConditionVariables
