import Win32Experiments.ConditionVariables.SafetyTheorems

/-!
# No wake-up of the bounded buffer is lost

Each operation wakes one sleeper after it has left the lock, so wakes are in flight. What counts
is how many threads are about to wake a sleeper or to test the queue.

* `Tally`: the threads by what they are about to do, and what a move of one thread does to it;
* `Awake`: while producers sleep, the items, the wakes of consumers and the tests of producers
  make up a full buffer; while consumers sleep, the wakes of producers and the tests of consumers
  cover the items; and behind the stop nobody falls asleep;
* `noLostWakeUp_run`: so in no reachable state a sleeper has been forgotten.
-/

namespace Win32Experiments.ConditionVariables

open Foundation

/-! ## The property -/

/-- The producer is asleep or has exited. -/
def Producer.rests : Producer → Bool
  | .asleep _ => true
  | .exited => true
  | _ => false

/-- The consumer is asleep or has exited. -/
def Consumer.rests : Consumer → Bool
  | .asleep => true
  | .exited => true
  | _ => false

/-- `main` has set `StopRequested` and not yet issued its wake of `BufferNotFull`. -/
def Main.wakesProducers : Main → Bool
  | .stopping => true
  | .wakingNotFull => true
  | _ => false

/-- `main` has set `StopRequested` and not yet issued its wake of `BufferNotEmpty`. -/
def Main.wakesConsumers : Main → Bool
  | .stopping => true
  | .wakingNotFull => true
  | .wakingNotEmpty => true
  | _ => false

/-- Every producer and every consumer is asleep or has exited. -/
def BoundedBuffer.Rests (s : BoundedBuffer) : Prop :=
  (∀ p ∈ s.producers, p.rests = true) ∧ ∀ c ∈ s.consumers, c.rests = true

/-- No wake-up is lost. Where all threads rest and no wake of `main` is to come, producers sleep
only in front of a full buffer and consumers only in front of an empty one; and once `main` has
issued its wakes, nobody sleeps. -/
structure NoLostWakeUp (s : BoundedBuffer) : Prop where
  producer : ∀ (i : ℕ) item, s.producers[i]? = some (.asleep item) → s.Rests →
    s.main.wakesProducers = false → s.queue.queueSize = bufferSize
  consumer : ∀ j : ℕ, s.consumers[j]? = some .asleep → s.Rests →
    s.main.wakesConsumers = false → s.queue.queueSize = 0
  stopped : s.main = .joining → (∀ (i : ℕ) item, s.producers[i]? ≠ some (.asleep item)) ∧
    ∀ j : ℕ, s.consumers[j]? ≠ some .asleep

/-! ## What the threads are about to do -/

/-- The producer tests the queue next, once it has the lock. -/
def Producer.tests : Producer → Bool
  | .checking _ => true
  | .woken _ => true
  | _ => false

/-- The consumer tests the queue next, once it has the lock. -/
def Consumer.tests : Consumer → Bool
  | .checking => true
  | .woken => true
  | _ => false

/-- The producer has inserted an item and not yet woken a consumer. -/
def Producer.wakes : Producer → Bool
  | .inserted => true
  | .waking => true
  | _ => false

/-- The consumer has taken an item and not yet woken a producer. -/
def Consumer.wakes : Consumer → Bool
  | .consumed => true
  | .waking => true
  | _ => false

/-- How many producers and consumers are asleep, test the queue next, or wake a sleeper next. -/
structure Tally where
  asleepProducers : ℕ
  testingProducers : ℕ
  wakingProducers : ℕ
  asleepConsumers : ℕ
  testingConsumers : ℕ
  wakingConsumers : ℕ

def BoundedBuffer.tally (s : BoundedBuffer) : Tally :=
  { asleepProducers := s.producers.countP Producer.isAsleep
    testingProducers := s.producers.countP Producer.tests
    wakingProducers := s.producers.countP Producer.wakes
    asleepConsumers := s.consumers.countP Consumer.isAsleep
    testingConsumers := s.consumers.countP Consumer.tests
    wakingConsumers := s.consumers.countP Consumer.wakes }

theorem tally_queue (s : BoundedBuffer) (queue : Queue) :
    ({ s with queue } : BoundedBuffer).tally = s.tally := rfl

/-- A move of one producer, from `p` to `p'`. -/
structure Tally.MovesProducer (n n' : Tally) (p p' : Producer) : Prop where
  asleep : n'.asleepProducers + (if p.isAsleep then 1 else 0)
    = n.asleepProducers + if p'.isAsleep then 1 else 0
  testing : n'.testingProducers + (if p.tests then 1 else 0)
    = n.testingProducers + if p'.tests then 1 else 0
  waking : n'.wakingProducers + (if p.wakes then 1 else 0)
    = n.wakingProducers + if p'.wakes then 1 else 0
  consumers : n'.asleepConsumers = n.asleepConsumers ∧ n'.testingConsumers = n.testingConsumers ∧
    n'.wakingConsumers = n.wakingConsumers

/-- A move of one consumer, from `c` to `c'`. -/
structure Tally.MovesConsumer (n n' : Tally) (c c' : Consumer) : Prop where
  asleep : n'.asleepConsumers + (if c.isAsleep then 1 else 0)
    = n.asleepConsumers + if c'.isAsleep then 1 else 0
  testing : n'.testingConsumers + (if c.tests then 1 else 0)
    = n.testingConsumers + if c'.tests then 1 else 0
  waking : n'.wakingConsumers + (if c.wakes then 1 else 0)
    = n.wakingConsumers + if c'.wakes then 1 else 0
  producers : n'.asleepProducers = n.asleepProducers ∧ n'.testingProducers = n.testingProducers ∧
    n'.wakingProducers = n.wakingProducers

section Tally

variable {s t : BoundedBuffer}

theorem movesProducer {i : ℕ} {p : Producer} (hi : s.producers[i]? = some p) (p' : Producer) :
    s.tally.MovesProducer (s.setProducer i p').tally p p' where
  asleep := countP_set_add hi
  testing := countP_set_add hi
  waking := countP_set_add hi
  consumers := ⟨rfl, rfl, rfl⟩

theorem movesConsumer {j : ℕ} {c : Consumer} (hj : s.consumers[j]? = some c) (c' : Consumer) :
    s.tally.MovesConsumer (s.setConsumer j c').tally c c' where
  asleep := countP_set_add hj
  testing := countP_set_add hj
  waking := countP_set_add hj
  producers := ⟨rfl, rfl, rfl⟩

/-- Only a thread that falls asleep makes the sleepers more. -/
theorem le_of_move {m m' : ℕ} {b b' : Bool}
    (h : m' + (if b then 1 else 0) = m + if b' then 1 else 0) (hb' : b' = false) : m' ≤ m := by
  rw [hb', if_neg Bool.false_ne_true] at h
  omega

/-- A thread that stays in its state is counted on. -/
theorem ge_of_move {m m' : ℕ} {b b' : Bool}
    (h : m' + (if b then 1 else 0) = m + if b' then 1 else 0) (hb : b = true → b' = true) :
    m ≤ m' := by
  cases b with
  | false =>
    rw [if_neg Bool.false_ne_true] at h
    omega
  | true =>
    rw [hb rfl, if_pos rfl] at h
    omega

theorem asleepProducers_pos {i item : ℕ} (hi : s.producers[i]? = some (.asleep item)) :
    0 < s.tally.asleepProducers :=
  countP_pos_of_getElem? hi rfl

theorem asleepConsumers_pos {j : ℕ} (hj : s.consumers[j]? = some .asleep) :
    0 < s.tally.asleepConsumers :=
  countP_pos_of_getElem? hj rfl

/-! ## The invariant -/

/-- What the numbers of a tally say about a queue of `size` items: sleeping producers are covered
by items, wakes and tests, and so are the items by wakes and tests where consumers sleep. -/
structure Tally.Covers (n : Tally) (size : ℕ) : Prop where
  producers : 0 < n.asleepProducers →
    bufferSize ≤ size + n.testingProducers + n.wakingConsumers
  consumers : 0 < n.asleepConsumers → size ≤ n.testingConsumers + n.wakingProducers

/-- What holds in every run. -/
structure BoundedBuffer.Awake (s : BoundedBuffer) : Prop where
  covers : s.stopRequested = false → s.tally.Covers s.queue.queueSize
  requested : s.stopRequested = true ↔ s.main ≠ .reading ∧ s.main ≠ .holding
  producers : s.stopRequested = true → s.main.wakesProducers = false →
    s.tally.asleepProducers = 0
  consumers : s.stopRequested = true → s.main.wakesConsumers = false →
    s.tally.asleepConsumers = 0

/-- A step of a producer or a consumer keeps the invariant when the tally covers the queue, and
nobody falls asleep behind the stop. -/
theorem awake_of_thread (h : s.Awake) (hmain : t.main = s.main)
    (hrequested : t.stopRequested = s.stopRequested)
    (hcovers : s.stopRequested = false → s.tally.Covers s.queue.queueSize →
      t.tally.Covers t.queue.queueSize)
    (hasleep : s.stopRequested = true → t.tally.asleepProducers ≤ s.tally.asleepProducers ∧
      t.tally.asleepConsumers ≤ s.tally.asleepConsumers) : t.Awake where
  covers hstop := by
    rw [hrequested] at hstop
    exact hcovers hstop (h.covers hstop)
  requested := by
    rw [hrequested, hmain]
    exact h.requested
  producers hstop hwakes := by
    rw [hrequested] at hstop
    rw [hmain] at hwakes
    have hzero := h.producers hstop hwakes
    have hle := (hasleep hstop).1
    omega
  consumers hstop hwakes := by
    rw [hrequested] at hstop
    rw [hmain] at hwakes
    have hzero := h.consumers hstop hwakes
    have hle := (hasleep hstop).2
    omega

/-- A producer moves, in a state `u` with the threads of `s`. -/
theorem awake_setProducer {u : BoundedBuffer} {i : ℕ} {p p' : Producer} (h : s.Awake)
    (hi : u.producers[i]? = some p) (htally : u.tally = s.tally) (hmain : u.main = s.main)
    (hrequested : u.stopRequested = s.stopRequested)
    (hcovers : ∀ n, s.stopRequested = false → s.tally.MovesProducer n p p' →
      s.tally.Covers s.queue.queueSize → n.Covers u.queue.queueSize)
    (hasleep : s.stopRequested = true → p'.isAsleep = false) : (u.setProducer i p').Awake := by
  have hmoves := movesProducer hi p'
  rw [htally] at hmoves
  refine awake_of_thread h hmain hrequested ?_ ?_
  · intro hstop
    exact hcovers _ hstop hmoves
  · intro hstop
    have hsleep := le_of_move hmoves.asleep (hasleep hstop)
    have hsame := hmoves.consumers.1
    omega

/-- A consumer moves, in a state `u` with the threads of `s`. -/
theorem awake_setConsumer {u : BoundedBuffer} {j : ℕ} {c c' : Consumer} (h : s.Awake)
    (hj : u.consumers[j]? = some c) (htally : u.tally = s.tally) (hmain : u.main = s.main)
    (hrequested : u.stopRequested = s.stopRequested)
    (hcovers : ∀ n, s.stopRequested = false → s.tally.MovesConsumer n c c' →
      s.tally.Covers s.queue.queueSize → n.Covers u.queue.queueSize)
    (hasleep : s.stopRequested = true → c'.isAsleep = false) : (u.setConsumer j c').Awake := by
  have hmoves := movesConsumer hj c'
  rw [htally] at hmoves
  refine awake_of_thread h hmain hrequested ?_ ?_
  · intro hstop
    exact hcovers _ hstop hmoves
  · intro hstop
    have hsleep := le_of_move hmoves.asleep (hasleep hstop)
    have hsame := hmoves.producers.1
    omega

/-! ## Steps of the producers -/

/-- A move that leaves the queue alone, after which the producer tests or wakes if it did before,
and does not sleep, keeps the queue covered. -/
theorem covers_moveProducer {n n' : Tally} {p p' : Producer} {size : ℕ} (h : n.Covers size)
    (hmoves : n.MovesProducer n' p p') (hasleep : p'.isAsleep = false)
    (htests : p.tests = true → p'.tests = true) (hwakes : p.wakes = true → p'.wakes = true) :
    n'.Covers size := by
  have hsleep := le_of_move hmoves.asleep hasleep
  have htesting := ge_of_move hmoves.testing htests
  have hwaking := ge_of_move hmoves.waking hwakes
  obtain ⟨hasleep', htesting', hwaking'⟩ := hmoves.consumers
  constructor
  · intro hpos
    have hcovered := h.producers (by omega)
    omega
  · intro hpos
    have hcovered := h.consumers (by omega)
    omega

theorem covers_moveConsumer {n n' : Tally} {c c' : Consumer} {size : ℕ} (h : n.Covers size)
    (hmoves : n.MovesConsumer n' c c') (hasleep : c'.isAsleep = false)
    (htests : c.tests = true → c'.tests = true) (hwakes : c.wakes = true → c'.wakes = true) :
    n'.Covers size := by
  have hsleep := le_of_move hmoves.asleep hasleep
  have htesting := ge_of_move hmoves.testing htests
  have hwaking := ge_of_move hmoves.waking hwakes
  obtain ⟨hasleep', htesting', hwaking'⟩ := hmoves.producers
  constructor
  · intro hpos
    have hcovered := h.producers (by omega)
    omega
  · intro hpos
    have hcovered := h.consumers (by omega)
    omega

/-- A producer falls asleep in front of a full buffer. -/
theorem covers_sleepProducer {n n' : Tally} {item size : ℕ} (h : n.Covers size)
    (hmoves : n.MovesProducer n' (.checking item) (.asleep item)) (hfull : size = bufferSize) :
    n'.Covers size := by
  obtain ⟨_, htesting, hwaking, hasleep', htesting', hwaking'⟩ := hmoves
  simp only [Producer.tests, Producer.wakes, Bool.false_eq_true, if_true, if_false]
    at htesting hwaking
  constructor
  · intro _
    omega
  · intro hpos
    have hcovered := h.consumers (by omega)
    omega

/-- The test becomes an item, and a wake of a consumer. -/
theorem covers_insert {n n' : Tally} {item size : ℕ} (h : n.Covers size)
    (hmoves : n.MovesProducer n' (.checking item) .inserted) : n'.Covers (size + 1) := by
  obtain ⟨hsleep, htesting, hwaking, hasleep', htesting', hwaking'⟩ := hmoves
  simp only [Producer.isAsleep, Producer.tests, Producer.wakes, Bool.false_eq_true, if_true,
    if_false] at hsleep htesting hwaking
  constructor
  · intro hpos
    have hcovered := h.producers (by omega)
    omega
  · intro hpos
    have hcovered := h.consumers (by omega)
    omega

/-- A consumer falls asleep in front of an empty buffer. -/
theorem covers_sleepConsumer {n n' : Tally} {size : ℕ} (h : n.Covers size)
    (hmoves : n.MovesConsumer n' .checking .asleep) (hempty : size = 0) : n'.Covers size := by
  obtain ⟨_, htesting, hwaking, hasleep', htesting', hwaking'⟩ := hmoves
  simp only [Consumer.tests, Consumer.wakes, Bool.false_eq_true, if_true, if_false]
    at htesting hwaking
  constructor
  · intro hpos
    have hcovered := h.producers (by omega)
    omega
  · intro _
    omega

/-- The item becomes a wake of a producer, and the test is used up. -/
theorem covers_consume {n n' : Tally} {size : ℕ} (h : n.Covers (size + 1))
    (hmoves : n.MovesConsumer n' .checking .consumed) : n'.Covers size := by
  obtain ⟨hsleep, htesting, hwaking, hasleep', htesting', hwaking'⟩ := hmoves
  simp only [Consumer.isAsleep, Consumer.tests, Consumer.wakes, Bool.false_eq_true, if_true,
    if_false] at hsleep htesting hwaking
  constructor
  · intro hpos
    have hcovered := h.producers (by omega)
    omega
  · intro hpos
    have hcovered := h.consumers (by omega)
    omega

/-! ## Wakes -/

/-- A wake that finds a sleeping consumer turns into its test. -/
theorem covers_wakeConsumer {n n' n'' : Tally} {size : ℕ} (h : n.Covers size)
    (hwoken : n.MovesConsumer n' .asleep .woken)
    (hmoves : n'.MovesProducer n'' .waking .producing) :
    n''.Covers size := by
  obtain ⟨hsleep, htesting, hwaking, hproducers⟩ := hwoken
  obtain ⟨hsleep', htesting', hwaking', hconsumers⟩ := hmoves
  simp only [Consumer.isAsleep, Consumer.tests, Consumer.wakes, Bool.false_eq_true, if_true,
    if_false] at hsleep htesting hwaking
  simp only [Producer.isAsleep, Producer.tests, Producer.wakes, Bool.false_eq_true, if_true,
    if_false] at hsleep' htesting' hwaking'
  constructor
  · intro hpos
    have hcovered := h.producers (by omega)
    omega
  · intro hpos
    have hcovered := h.consumers (by omega)
    omega

/-- A wake that finds nobody is not needed. -/
theorem covers_wakeNoConsumer {n n' : Tally} {size : ℕ} (h : n.Covers size)
    (hnone : n.asleepConsumers = 0) (hmoves : n.MovesProducer n' .waking .producing) :
    n'.Covers size := by
  obtain ⟨hsleep, htesting, hwaking, hconsumers⟩ := hmoves
  simp only [Producer.isAsleep, Producer.tests, Bool.false_eq_true, if_false]
    at hsleep htesting
  constructor
  · intro hpos
    have hcovered := h.producers (by omega)
    omega
  · intro hpos
    omega

/-- A wake that finds a sleeping producer turns into its test. -/
theorem covers_wakeProducer {n n' n'' : Tally} {item size : ℕ} (h : n.Covers size)
    (hwoken : n.MovesProducer n' (.asleep item) (.woken item))
    (hmoves : n'.MovesConsumer n'' .waking .entering) : n''.Covers size := by
  obtain ⟨hsleep, htesting, hwaking, hconsumers⟩ := hwoken
  obtain ⟨hsleep', htesting', hwaking', hproducers⟩ := hmoves
  simp only [Producer.isAsleep, Producer.tests, Producer.wakes, Bool.false_eq_true, if_true,
    if_false] at hsleep htesting hwaking
  simp only [Consumer.isAsleep, Consumer.tests, Consumer.wakes, Bool.false_eq_true, if_true,
    if_false] at hsleep' htesting' hwaking'
  constructor
  · intro hpos
    have hcovered := h.producers (by omega)
    omega
  · intro hpos
    have hcovered := h.consumers (by omega)
    omega

theorem covers_wakeNoProducer {n n' : Tally} {size : ℕ} (h : n.Covers size)
    (hnone : n.asleepProducers = 0) (hmoves : n.MovesConsumer n' .waking .entering) :
    n'.Covers size := by
  obtain ⟨hsleep, htesting, hwaking, hproducers⟩ := hmoves
  simp only [Consumer.isAsleep, Consumer.tests, Bool.false_eq_true, if_false]
    at hsleep htesting
  constructor
  · intro hpos
    omega
  · intro hpos
    have hcovered := h.consumers (by omega)
    omega

/-- A producer moves and leaves the queue alone. -/
theorem awake_moveProducer (u : BoundedBuffer) {i : ℕ} {p p' : Producer} (h : s.Awake)
    (hi : u.producers[i]? = some p) (htally : u.tally = s.tally) (hmain : u.main = s.main)
    (hrequested : u.stopRequested = s.stopRequested) (hqueue : u.queue = s.queue)
    (hasleep : p'.isAsleep = false) (htests : p.tests = true → p'.tests = true)
    (hwakes : p.wakes = true → p'.wakes = true) : (u.setProducer i p').Awake := by
  apply awake_setProducer h hi htally hmain hrequested
  · intro n _ hmoves hcovers
    rw [hqueue]
    exact covers_moveProducer hcovers hmoves hasleep htests hwakes
  · exact fun _ => hasleep

theorem awake_moveConsumer (u : BoundedBuffer) {j : ℕ} {c c' : Consumer} (h : s.Awake)
    (hj : u.consumers[j]? = some c) (htally : u.tally = s.tally) (hmain : u.main = s.main)
    (hrequested : u.stopRequested = s.stopRequested) (hqueue : u.queue = s.queue)
    (hasleep : c'.isAsleep = false) (htests : c.tests = true → c'.tests = true)
    (hwakes : c.wakes = true → c'.wakes = true) : (u.setConsumer j c').Awake := by
  apply awake_setConsumer h hj htally hmain hrequested
  · intro n _ hmoves hcovers
    rw [hqueue]
    exact covers_moveConsumer hcovers hmoves hasleep htests hwakes
  · exact fun _ => hasleep

/-- A sleeper that wakes, by a wake or spuriously, tests the queue. -/
theorem awake_wokenProducer {i item : ℕ} (h : s.Awake)
    (hi : s.producers[i]? = some (.asleep item)) : (s.setProducer i (.woken item)).Awake := by
  apply awake_moveProducer s h hi rfl rfl rfl rfl rfl
  · simp [Producer.tests]
  · simp [Producer.wakes]

theorem awake_wokenConsumer {j : ℕ} (h : s.Awake) (hj : s.consumers[j]? = some .asleep) :
    (s.setConsumer j .woken).Awake := by
  apply awake_moveConsumer s h hj rfl rfl rfl rfl rfl
  · simp [Consumer.tests]
  · simp [Consumer.wakes]

theorem asleepProducers_eq_zero (h : s.producers.any Producer.isAsleep = false) :
    s.tally.asleepProducers = 0 := by
  apply List.countP_eq_zero.mpr
  intro p hp hasleep
  have hany : s.producers.any Producer.isAsleep = true := List.any_eq_true.mpr ⟨p, hp, hasleep⟩
  rw [h] at hany
  cases hany

theorem asleepConsumers_eq_zero (h : s.consumers.any Consumer.isAsleep = false) :
    s.tally.asleepConsumers = 0 := by
  apply List.countP_eq_zero.mpr
  intro c hc hasleep
  have hany : s.consumers.any Consumer.isAsleep = true := List.any_eq_true.mpr ⟨c, hc, hasleep⟩
  rw [h] at hany
  cases hany

/-- `WakeConditionVariable(&BufferNotEmpty)` of a producer. -/
theorem awake_wakeConsumer {i : ℕ} (h : s.Awake) (hi : s.producers[i]? = some .waking)
    (ht : s.WakesConsumer t) : (t.setProducer i .producing).Awake := by
  cases ht with
  | @sleeper j hj =>
    have hwoken := movesConsumer hj .woken
    have hmoves : (s.setConsumer j .woken).tally.MovesProducer _ .waking .producing :=
      @movesProducer (s.setConsumer j .woken) i .waking hi .producing
    refine awake_of_thread h rfl rfl ?_ ?_
    · intro _ hcovers
      exact covers_wakeConsumer hcovers hwoken hmoves
    · intro _
      have hsleep := hwoken.asleep
      have hsleep' := hmoves.asleep
      have hsame := hwoken.producers.1
      have hsame' := hmoves.consumers.1
      simp only [Consumer.isAsleep, Producer.isAsleep, Bool.false_eq_true, if_true, if_false]
        at hsleep hsleep'
      omega
  | nobody hnone =>
    refine awake_setProducer h hi rfl rfl rfl ?_ (fun _ => rfl)
    intro n _ hmoves hcovers
    exact covers_wakeNoConsumer hcovers (asleepConsumers_eq_zero hnone) hmoves

/-- `WakeConditionVariable(&BufferNotFull)` of a consumer. -/
theorem awake_wakeProducer {j : ℕ} (h : s.Awake) (hj : s.consumers[j]? = some .waking)
    (ht : s.WakesProducer t) : (t.setConsumer j .entering).Awake := by
  cases ht with
  | @sleeper i item hi =>
    have hwoken := movesProducer hi (.woken item)
    have hmoves : (s.setProducer i (.woken item)).tally.MovesConsumer _ .waking .entering :=
      @movesConsumer (s.setProducer i (.woken item)) j .waking hj .entering
    refine awake_of_thread h rfl rfl ?_ ?_
    · intro _ hcovers
      exact covers_wakeProducer hcovers hwoken hmoves
    · intro _
      have hsleep := hwoken.asleep
      have hsleep' := hmoves.asleep
      have hsame := hwoken.consumers.1
      have hsame' := hmoves.producers.1
      simp only [Consumer.isAsleep, Producer.isAsleep, Bool.false_eq_true, if_true, if_false]
        at hsleep hsleep'
      omega
  | nobody hnone =>
    refine awake_setConsumer h hj rfl rfl rfl ?_ (fun _ => rfl)
    intro n _ hmoves hcovers
    exact covers_wakeNoProducer hcovers (asleepProducers_eq_zero hnone) hmoves

/-! ## Steps -/

theorem asleepProducers_wake (l : List Producer) :
    (l.map Producer.wake).countP Producer.isAsleep = 0 := by
  apply List.countP_eq_zero.mpr
  intro p hp
  obtain ⟨q, _, rfl⟩ := List.mem_map.mp hp
  cases q <;> simp [Producer.wake, Producer.isAsleep]

theorem asleepConsumers_wake (l : List Consumer) :
    (l.map Consumer.wake).countP Consumer.isAsleep = 0 := by
  apply List.countP_eq_zero.mpr
  intro c hc
  obtain ⟨d, _, rfl⟩ := List.mem_map.mp hc
  cases d <;> simp [Consumer.wake, Consumer.isAsleep]

theorem awake_stepped (hinv : s.Inv) (h : s.Awake) (hstep : s.Stepped t) : t.Awake := by
  cases hstep with
  | produce hi =>
    apply awake_moveProducer { s with lastItemProduced := addW 32 s.lastItemProduced 1 } h hi
      rfl rfl rfl rfl rfl
    · nofun
    · nofun
  | @enterProducer i item hi hlock =>
    rcases hi with hi | hi
    · apply awake_moveProducer { s with lock := some (.producer i) } h hi rfl rfl rfl rfl rfl
      · nofun
      · nofun
    · apply awake_moveProducer { s with lock := some (.producer i) } h hi rfl rfl rfl rfl rfl
      · exact fun _ => rfl
      · nofun
  | sleepProducer hi hfull hstop =>
    refine @awake_setProducer s s.leave _ _ _ h hi rfl rfl rfl ?_ ?_
    · intro n _ hmoves hcovers
      exact covers_sleepProducer hcovers hmoves hfull
    · intro hrequested
      rw [hstop] at hrequested
      cases hrequested
  | stopProducer hi hstop =>
    refine awake_setProducer h hi rfl rfl rfl ?_ (fun _ => rfl)
    intro n hnot
    rw [hstop] at hnot
    cases hnot
  | @insert i item hi hroom hstop =>
    have hsize := queueSize_insert hinv.valid hroom item
    refine @awake_setProducer s { s with queue := s.queue.insert item } _ _ _ h hi (tally_queue s _)
      rfl rfl ?_ (fun _ => rfl)
    intro n _ hmoves hcovers
    rw [hsize]
    exact covers_insert hcovers hmoves
  | leaveInserted hi =>
    exact awake_moveProducer s.leave h hi rfl rfl rfl rfl rfl nofun fun _ => rfl
  | exitProducer hi => exact awake_moveProducer s.leave h hi rfl rfl rfl rfl rfl nofun nofun
  | wakeConsumer hi ht => exact awake_wakeConsumer h hi ht
  | @enterConsumer j hj hlock =>
    rcases hj with hj | hj
    · apply awake_moveConsumer { s with lock := some (.consumer j) } h hj rfl rfl rfl rfl rfl
      · nofun
      · nofun
    · apply awake_moveConsumer { s with lock := some (.consumer j) } h hj rfl rfl rfl rfl rfl
      · exact fun _ => rfl
      · nofun
  | sleepConsumer hj hempty hstop =>
    refine @awake_setConsumer s s.leave _ _ _ h hj rfl rfl rfl ?_ ?_
    · intro n _ hmoves hcovers
      exact covers_sleepConsumer hcovers hmoves hempty
    · intro hrequested
      rw [hstop] at hrequested
      cases hrequested
  | stopConsumer hj hempty hstop =>
    refine awake_setConsumer h hj rfl rfl rfl ?_ (fun _ => rfl)
    intro n hnot
    rw [hstop] at hnot
    cases hnot
  | @consume j hj hsome =>
    have hsize : s.queue.queueSize = s.queue.consume.queueSize + 1 := by
      rw [queueSize_consume hinv.valid hsome]
      omega
    refine @awake_setConsumer s { s with queue := s.queue.consume } _ _ _ h hj (tally_queue s _) rfl
      rfl ?_ (fun _ => rfl)
    intro n _ hmoves hcovers
    rw [hsize] at hcovers
    exact covers_consume hcovers hmoves
  | leaveConsumed hj =>
    exact awake_moveConsumer s.leave h hj rfl rfl rfl rfl rfl nofun fun _ => rfl
  | exitConsumer hj => exact awake_moveConsumer s.leave h hj rfl rfl rfl rfl rfl nofun nofun
  | wakeProducer hj ht => exact awake_wakeProducer h hj ht
  | mainEnter hmain hlock =>
    have hnot : s.stopRequested ≠ true := fun hstop => (h.requested.mp hstop).1 hmain
    exact ⟨h.covers, by simp [hnot], fun hstop => absurd hstop hnot, fun hstop => absurd hstop hnot⟩
  | mainStop hmain =>
    -- both wakes of `main` are to come
    exact ⟨nofun, by simp, nofun, nofun⟩
  | mainLeave hmain =>
    have hstop : s.stopRequested = true := h.requested.mpr (by simp [hmain])
    refine ⟨?_, by simp [BoundedBuffer.leave, hstop], nofun, nofun⟩
    intro hnot
    exact absurd (hstop.symm.trans hnot) (by simp)
  | mainWakeNotFull hmain =>
    have hstop : s.stopRequested = true := h.requested.mpr (by simp [hmain])
    refine ⟨?_, by simp [hstop], fun _ _ => asleepProducers_wake s.producers, nofun⟩
    intro hnot
    exact absurd (hstop.symm.trans hnot) (by simp)
  | mainWakeNotEmpty hmain =>
    have hstop : s.stopRequested = true := h.requested.mpr (by simp [hmain])
    refine ⟨?_, by simp [hstop], fun _ _ => ?_, fun _ _ => asleepConsumers_wake s.consumers⟩
    · intro hnot
      exact absurd (hstop.symm.trans hnot) (by simp)
    · exact h.producers hstop (by rw [hmain]; rfl)
  | spuriousProducer hi => exact awake_wokenProducer h hi
  | spuriousConsumer hj => exact awake_wokenConsumer h hj

end Tally

/-! ## Runs -/

/-- Where all threads rest, nobody tests the queue or wakes a sleeper next. -/
theorem tally_of_rests {s : BoundedBuffer} (h : s.Rests) :
    (s.tally.testingProducers = 0 ∧ s.tally.wakingProducers = 0) ∧
      s.tally.testingConsumers = 0 ∧ s.tally.wakingConsumers = 0 := by
  refine ⟨⟨?_, ?_⟩, ?_, ?_⟩
  · apply List.countP_eq_zero.mpr
    intro p hp
    have hrests := h.1 p hp
    cases p <;> simp_all [Producer.rests, Producer.tests]
  · apply List.countP_eq_zero.mpr
    intro p hp
    have hrests := h.1 p hp
    cases p <;> simp_all [Producer.rests, Producer.wakes]
  · apply List.countP_eq_zero.mpr
    intro c hc
    have hrests := h.2 c hc
    cases c <;> simp_all [Consumer.rests, Consumer.tests]
  · apply List.countP_eq_zero.mpr
    intro c hc
    have hrests := h.2 c hc
    cases c <;> simp_all [Consumer.rests, Consumer.wakes]

theorem noLostWakeUp_of_awake {s : BoundedBuffer} (hinv : s.Inv) (h : s.Awake) :
    NoLostWakeUp s where
  producer i item hi hrests hmain := by
    have hpos := asleepProducers_pos hi
    obtain ⟨⟨htesting, _⟩, _, hwaking⟩ := tally_of_rests hrests
    cases hstop : s.stopRequested with
    | true =>
      have hzero := h.producers hstop hmain
      omega
    | false =>
      have hcovered := (h.covers hstop).producers hpos
      have hle := hinv.valid.size_le
      omega
  consumer j hj hrests hmain := by
    have hpos := asleepConsumers_pos hj
    obtain ⟨⟨_, hwaking⟩, htesting, _⟩ := tally_of_rests hrests
    cases hstop : s.stopRequested with
    | true =>
      have hzero := h.consumers hstop hmain
      omega
    | false =>
      have hcovered := (h.covers hstop).consumers hpos
      omega
  stopped hmain := by
    have hstop : s.stopRequested = true := h.requested.mpr (by simp [hmain])
    constructor
    · intro i item hi
      have hpos := asleepProducers_pos hi
      have hzero := h.producers hstop (by rw [hmain]; rfl)
      omega
    · intro j hj
      have hpos := asleepConsumers_pos hj
      have hzero := h.consumers hstop (by rw [hmain]; rfl)
      omega

theorem awake_start (producers consumers : ℕ) :
    (BoundedBuffer.start producers consumers).Awake where
  covers _ := by
    constructor
    · intro hpos
      simp [BoundedBuffer.start, BoundedBuffer.tally, List.countP_replicate,
        Producer.isAsleep] at hpos
    · intro _
      exact Nat.zero_le _
  requested := by simp [BoundedBuffer.start]
  producers hstop := by cases hstop
  consumers hstop := by cases hstop

/-- **No lost wake-up**, with any number of producers and consumers, in every interleaving. -/
theorem noLostWakeUp_run {producers consumers : ℕ} {es : List Event} {t : BoundedBuffer}
    (hrun : run BoundedBuffer.step (BoundedBuffer.start producers consumers) es = some t) :
    NoLostWakeUp t := by
  have hboth : t.Inv ∧ t.Awake := by
    refine run_invariant (fun s => s.Inv ∧ s.Awake) ?_ hrun
      ⟨inv_start producers consumers, awake_start producers consumers⟩
    intro s e u hs hstep
    have hstepped := stepped_of_step hstep
    exact ⟨inv_stepped hs.1 hstepped, awake_stepped hs.1 hs.2 hstepped⟩
  exact noLostWakeUp_of_awake hboth.1 hboth.2

/-- Two consumers sleep, a producer inserts an item and wakes one of them. -/
def wakesOne : List Event :=
  [.consumer 0 none, .consumer 0 none, .consumer 1 none, .consumer 1 none, .producer 0 none,
    .producer 0 none, .producer 0 none, .producer 0 none, .producer 0 (some 1), .consumer 1 none,
    .consumer 1 none]

theorem noLostWakeUp_wakesOne :
    ∃ t, run BoundedBuffer.step (BoundedBuffer.start 1 2) wakesOne = some t ∧
      t.consumers = [.asleep, .consumed] ∧ NoLostWakeUp t :=
  ⟨_, rfl, rfl, @noLostWakeUp_run 1 2 wakesOne _ rfl⟩

end Win32Experiments.ConditionVariables
