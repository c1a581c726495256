import Win32Experiments.ConditionVariables.WakeTheorems
import Win32Experiments.Foundation.Progress

/-!
# The bounded buffer shuts down

Behind the stop nobody falls asleep and nothing is inserted, so each thread has only so many steps
left: at most those of its way out, and four more for each item in the queue.

* `remaining_stepped`: behind the stop every step lowers the number of steps left;
* `finished_of_stuck`: the program is stuck only when everything has returned;
* `shutdown_run`: so whatever the scheduler does after the stop, all threads exit and the consumers
  leave no item behind.
-/

namespace Win32Experiments.ConditionVariables

open Foundation

/-! ## The steps that are left behind the stop -/

/-- The steps of a producer to its exit. -/
def Producer.remaining : Producer → ℕ
  | .exited => 0
  | .stopping => 1
  | .checking _ => 2
  | .entering _ => 3
  | .woken _ => 3
  | .asleep _ => 4
  | .producing => 4
  | .waking => 5
  | .inserted => 6

/-- The steps of a consumer to its exit, when the queue is empty. -/
def Consumer.remaining : Consumer → ℕ
  | .exited => 0
  | .stopping => 1
  | .checking => 2
  | .entering => 3
  | .woken => 3
  | .asleep => 4
  | .waking => 4
  | .consumed => 5

/-- The steps of `main` to `WaitForSingleObject`. -/
def Main.remaining : Main → ℕ
  | .reading => 5
  | .holding => 4
  | .stopping => 3
  | .wakingNotFull => 2
  | .wakingNotEmpty => 1
  | .joining => 0

/-- The steps of all; a consumer takes four steps for an item. -/
def BoundedBuffer.remaining (s : BoundedBuffer) : ℕ :=
  (s.producers.map Producer.remaining).sum + (s.consumers.map Consumer.remaining).sum +
    4 * s.queue.queueSize + s.main.remaining

/-- Everything has returned: `main` gets by its waits, the lock is free, and if there was a
consumer, every item that was produced has been consumed. -/
structure Finished (s : BoundedBuffer) : Prop where
  producers : ∀ p ∈ s.producers, p = .exited
  consumers : ∀ c ∈ s.consumers, c = .exited
  main : s.main = .joining
  lock : s.lock = none
  drained : s.consumers ≠ [] → s.queue.dequeued = s.queue.enqueued ∧
    s.queue.totalItemsConsumed = s.queue.totalItemsProduced

section

variable {s t : BoundedBuffer}

/-! ## Each step lowers what is left -/

/-- A producer that has come nearer to its exit. -/
theorem remaining_setProducer_lt {u : BoundedBuffer} {i : ℕ} {p p' : Producer}
    (hu : u.remaining ≤ s.remaining) (hi : u.producers[i]? = some p)
    (hlt : p'.remaining < p.remaining) : (u.setProducer i p').remaining < s.remaining := by
  have hsum := sum_map_set_add (f := Producer.remaining) (b := p') hi
  unfold BoundedBuffer.remaining at hu ⊢
  show ((u.producers.set i p').map Producer.remaining).sum +
    (u.consumers.map Consumer.remaining).sum + 4 * u.queue.queueSize + u.main.remaining < _
  omega

theorem remaining_setConsumer_lt {u : BoundedBuffer} {j : ℕ} {c c' : Consumer}
    (hu : u.remaining ≤ s.remaining) (hj : u.consumers[j]? = some c)
    (hlt : c'.remaining < c.remaining) : (u.setConsumer j c').remaining < s.remaining := by
  have hsum := sum_map_set_add (f := Consumer.remaining) (b := c') hj
  unfold BoundedBuffer.remaining at hu ⊢
  show (u.producers.map Producer.remaining).sum +
    ((u.consumers.set j c').map Consumer.remaining).sum + 4 * u.queue.queueSize +
      u.main.remaining < _
  omega

/-- A consumer that takes an item makes up for its way back to the test. -/
theorem remaining_consume_lt {j : ℕ} {q : Queue} (hj : s.consumers[j]? = some .checking)
    (hsize : s.queue.queueSize = q.queueSize + 1) :
    ({ s with queue := q }.setConsumer j .consumed).stopRequested = s.stopRequested ∧
      ({ s with queue := q }.setConsumer j .consumed).remaining < s.remaining := by
  refine ⟨rfl, ?_⟩
  have hsum := sum_map_set_add (f := Consumer.remaining) (b := .consumed) hj
  simp only [Consumer.remaining] at hsum
  unfold BoundedBuffer.remaining
  show (s.producers.map Producer.remaining).sum +
    ((s.consumers.set j .consumed).map Consumer.remaining).sum + 4 * q.queueSize +
      s.main.remaining < _
  omega

/-- Sleepers that are woken have a step less. -/
theorem sum_wakeProducers_le (l : List Producer) :
    ((l.map Producer.wake).map Producer.remaining).sum ≤ (l.map Producer.remaining).sum := by
  induction l with
  | nil => exact le_rfl
  | cons p l ih =>
    have hp : p.wake.remaining ≤ p.remaining := by
      cases p <;> simp [Producer.wake, Producer.remaining]
    simp only [List.map_cons, List.sum_cons]
    omega

theorem sum_wakeConsumers_le (l : List Consumer) :
    ((l.map Consumer.wake).map Consumer.remaining).sum ≤ (l.map Consumer.remaining).sum := by
  induction l with
  | nil => exact le_rfl
  | cons c l ih =>
    have hc : c.wake.remaining ≤ c.remaining := by
      cases c <;> simp [Consumer.wake, Consumer.remaining]
    simp only [List.map_cons, List.sum_cons]
    omega

/-- **Behind the stop every step lowers the number of steps left.** -/
theorem remaining_stepped (hinv : s.Inv) (hawake : s.Awake) (hstop : s.stopRequested = true)
    (hstep : s.Stepped t) : t.stopRequested = true ∧ t.remaining < s.remaining := by
  have hmain := hawake.requested.mp hstop
  cases hstep with
  | produce hi =>
    exact ⟨hstop, remaining_setProducer_lt (u := { s with lastItemProduced := _ }) le_rfl hi
      (by simp [Producer.remaining])⟩
  | enterProducer hi hlock =>
    refine ⟨hstop, ?_⟩
    rcases hi with hi | hi
    · exact remaining_setProducer_lt (u := { s with lock := _ }) le_rfl hi
        (by simp [Producer.remaining])
    · exact remaining_setProducer_lt (u := { s with lock := _ }) le_rfl hi
        (by simp [Producer.remaining])
  | sleepProducer hi hfull hgo => exact absurd (hstop.symm.trans hgo) (by simp)
  | stopProducer hi =>
    exact ⟨hstop, remaining_setProducer_lt le_rfl hi (by simp [Producer.remaining])⟩
  | insert hi hroom hgo => exact absurd (hstop.symm.trans hgo) (by simp)
  | leaveInserted hi =>
    exact ⟨hstop, remaining_setProducer_lt (u := s.leave) le_rfl hi (by simp [Producer.remaining])⟩
  | exitProducer hi =>
    exact ⟨hstop, remaining_setProducer_lt (u := s.leave) le_rfl hi (by simp [Producer.remaining])⟩
  | wakeConsumer hi ht =>
    cases ht with
    | sleeper hj =>
      have hwoken : (s.setConsumer _ .woken).remaining < s.remaining :=
        remaining_setConsumer_lt le_rfl hj (by simp [Consumer.remaining])
      exact ⟨hstop, remaining_setProducer_lt hwoken.le hi (by simp [Producer.remaining])⟩
    | nobody hnone =>
      exact ⟨hstop, remaining_setProducer_lt le_rfl hi (by simp [Producer.remaining])⟩
  | enterConsumer hj hlock =>
    refine ⟨hstop, ?_⟩
    rcases hj with hj | hj
    · exact remaining_setConsumer_lt (u := { s with lock := _ }) le_rfl hj
        (by simp [Consumer.remaining])
    · exact remaining_setConsumer_lt (u := { s with lock := _ }) le_rfl hj
        (by simp [Consumer.remaining])
  | sleepConsumer hj hempty hgo => exact absurd (hstop.symm.trans hgo) (by simp)
  | stopConsumer hj =>
    exact ⟨hstop, remaining_setConsumer_lt le_rfl hj (by simp [Consumer.remaining])⟩
  | consume hj hsome =>
    have hsize : s.queue.queueSize = s.queue.consume.queueSize + 1 := by
      rw [queueSize_consume hinv.valid hsome]
      omega
    obtain ⟨hsame, hlt⟩ := remaining_consume_lt hj hsize
    exact ⟨hsame.trans hstop, hlt⟩
  | leaveConsumed hj =>
    exact ⟨hstop, remaining_setConsumer_lt (u := s.leave) le_rfl hj (by simp [Consumer.remaining])⟩
  | exitConsumer hj =>
    exact ⟨hstop, remaining_setConsumer_lt (u := s.leave) le_rfl hj (by simp [Consumer.remaining])⟩
  | wakeProducer hj ht =>
    cases ht with
    | @sleeper i item hi =>
      have hwoken : (s.setProducer _ (.woken item)).remaining < s.remaining :=
        remaining_setProducer_lt le_rfl hi (by simp [Producer.remaining])
      exact ⟨hstop, remaining_setConsumer_lt hwoken.le hj (by simp [Consumer.remaining])⟩
    | nobody hnone =>
      exact ⟨hstop, remaining_setConsumer_lt le_rfl hj (by simp [Consumer.remaining])⟩
  | mainEnter hreading => exact absurd hreading hmain.1
  | mainStop hholding => exact absurd hholding hmain.2
  | mainLeave hstopping =>
    refine ⟨hstop, ?_⟩
    unfold BoundedBuffer.remaining
    rw [hstopping]
    exact Nat.lt_succ_self _
  | mainWakeNotFull hwaking =>
    have hle := sum_wakeProducers_le s.producers
    refine ⟨hstop, ?_⟩
    unfold BoundedBuffer.remaining
    rw [hwaking]
    simp only [Main.remaining]
    omega
  | mainWakeNotEmpty hwaking =>
    have hle := sum_wakeConsumers_le s.consumers
    refine ⟨hstop, ?_⟩
    unfold BoundedBuffer.remaining
    rw [hwaking]
    simp only [Main.remaining]
    omega
  | spuriousProducer hi =>
    exact ⟨hstop, remaining_setProducer_lt le_rfl hi (by simp [Producer.remaining])⟩
  | spuriousConsumer hj =>
    exact ⟨hstop, remaining_setConsumer_lt le_rfl hj (by simp [Consumer.remaining])⟩

/-! ## Where the program is stuck -/

/-- A step that is not a spurious wake. -/
def Event.Scheduled : Event → Prop
  | .spuriousProducer _ => False
  | .spuriousConsumer _ => False
  | _ => True

/-- A wake always has a choice: somebody sleeps, or nobody does. -/
theorem exists_wakeNotEmpty : ∃ sleeper t, s.wakeNotEmpty sleeper = some t := by
  by_cases hany : s.consumers.any Consumer.isAsleep = true
  · obtain ⟨c, hmem, hc⟩ := List.any_eq_true.mp hany
    obtain ⟨j, hj⟩ := List.mem_iff_getElem?.mp hmem
    match c with
    | .asleep =>
      refine ⟨some j, s.setConsumer j .woken, ?_⟩
      simp only [BoundedBuffer.wakeNotEmpty, hj]
  · exact ⟨none, s, by rw [BoundedBuffer.wakeNotEmpty, if_neg hany]⟩

theorem exists_wakeNotFull : ∃ sleeper t, s.wakeNotFull sleeper = some t := by
  by_cases hany : s.producers.any Producer.isAsleep = true
  · obtain ⟨p, hmem, hp⟩ := List.any_eq_true.mp hany
    obtain ⟨i, hi⟩ := List.mem_iff_getElem?.mp hmem
    match p with
    | .asleep item =>
      refine ⟨some i, s.setProducer i (.woken item), ?_⟩
      simp only [BoundedBuffer.wakeNotFull, hi]
  · exact ⟨none, s, by rw [BoundedBuffer.wakeNotFull, if_neg hany]⟩

variable (hstuck : Stuck BoundedBuffer.step Event.Scheduled s)

include hstuck

/-- A thread in the critical section can go on. -/
theorem not_inside_of_stuck (thread : Thread) : ¬ s.Inside thread := by
  intro hinside
  match thread with
  | .main =>
    have hnone := hstuck .main trivial
    rcases hinside with hmain | hmain <;>
      simp [BoundedBuffer.step, BoundedBuffer.stepMain, hmain] at hnone
  | .producer i =>
    obtain ⟨p, hi, hp⟩ := hinside
    have hnone := hstuck (.producer i none) trivial
    simp only [BoundedBuffer.step, BoundedBuffer.stepProducer, hi] at hnone
    cases p with
    | checking item =>
      simp only at hnone
      split at hnone
      · contradiction
      · split at hnone <;> contradiction
    | inserted => contradiction
    | stopping => contradiction
    | _ => exact absurd hp Bool.false_ne_true
  | .consumer j =>
    obtain ⟨c, hj, hc⟩ := hinside
    have hnone := hstuck (.consumer j none) trivial
    simp only [BoundedBuffer.step, BoundedBuffer.stepConsumer, hj] at hnone
    cases c with
    | checking =>
      simp only at hnone
      split at hnone
      · contradiction
      · split at hnone <;> contradiction
    | consumed => contradiction
    | stopping => contradiction
    | _ => exact absurd hc Bool.false_ne_true

theorem lock_of_stuck (hlocked : s.Locked) : s.lock = none := by
  match hlock : s.lock with
  | none => rfl
  | some thread => exact absurd ((hlocked thread).mpr hlock) (not_inside_of_stuck hstuck thread)

/-- `main` waits for the threads, so it has requested the stop and woken everybody. -/
theorem main_of_stuck (hlocked : s.Locked) : s.main = .joining := by
  have hlock := lock_of_stuck hstuck hlocked
  have hnone := hstuck .main trivial
  simp only [BoundedBuffer.step, BoundedBuffer.stepMain] at hnone
  cases hmain : s.main with
  | joining => rfl
  | reading => simp [hmain, BoundedBuffer.enter, hlock] at hnone
  | holding => exact absurd (Or.inl hmain) (not_inside_of_stuck hstuck .main)
  | stopping => exact absurd (Or.inr hmain) (not_inside_of_stuck hstuck .main)
  | wakingNotFull => simp [hmain] at hnone
  | wakingNotEmpty => simp [hmain] at hnone

/-- A producer that cannot go on with a free lock sleeps or has exited. -/
theorem exited_of_stuck_producer {i : ℕ} {p : Producer} (hlocked : s.Locked)
    (hawake : s.tally.asleepProducers = 0) (hi : s.producers[i]? = some p) : p = .exited := by
  have hlock := lock_of_stuck hstuck hlocked
  have hnone := fun sleeper => hstuck (.producer i sleeper) trivial
  have houtside : p.inside = false := by
    rw [← Bool.not_eq_true]
    exact fun hp => not_inside_of_stuck hstuck (.producer i) ⟨p, hi, hp⟩
  simp only [BoundedBuffer.step, BoundedBuffer.stepProducer, hi] at hnone
  cases p with
  | exited => rfl
  | asleep item =>
    have hpos := asleepProducers_pos hi
    omega
  | producing => exact absurd (hnone none) (by simp)
  | entering item => exact absurd (hnone none) (by simp [BoundedBuffer.enter, hlock])
  | woken item => exact absurd (hnone none) (by simp [BoundedBuffer.enter, hlock])
  | waking =>
    obtain ⟨sleeper, t, ht⟩ := exists_wakeNotEmpty (s := s)
    exact absurd (hnone sleeper) (by simp [ht])
  | _ => exact absurd houtside.symm Bool.false_ne_true

theorem exited_of_stuck_consumer {j : ℕ} {c : Consumer} (hlocked : s.Locked)
    (hawake : s.tally.asleepConsumers = 0) (hj : s.consumers[j]? = some c) : c = .exited := by
  have hlock := lock_of_stuck hstuck hlocked
  have hnone := fun sleeper => hstuck (.consumer j sleeper) trivial
  have houtside : c.inside = false := by
    rw [← Bool.not_eq_true]
    exact fun hc => not_inside_of_stuck hstuck (.consumer j) ⟨c, hj, hc⟩
  simp only [BoundedBuffer.step, BoundedBuffer.stepConsumer, hj] at hnone
  cases c with
  | exited => rfl
  | asleep =>
    have hpos := asleepConsumers_pos hj
    omega
  | entering => exact absurd (hnone none) (by simp [BoundedBuffer.enter, hlock])
  | woken => exact absurd (hnone none) (by simp [BoundedBuffer.enter, hlock])
  | waking =>
    obtain ⟨sleeper, t, ht⟩ := exists_wakeNotFull (s := s)
    exact absurd (hnone sleeper) (by simp [ht])
  | _ => exact absurd houtside.symm Bool.false_ne_true

/-- **No deadlock.** The program is stuck only when everything has returned. -/
theorem finished_of_stuck (hinv : s.Inv) (hawake : s.Awake) (hlocked : s.Locked) : Finished s := by
  have hmain := main_of_stuck hstuck hlocked
  have hstop : s.stopRequested = true := hawake.requested.mpr (by simp [hmain])
  have hproducers := hawake.producers hstop (by rw [hmain]; rfl)
  have hconsumers := hawake.consumers hstop (by rw [hmain]; rfl)
  have hexited : ∀ c ∈ s.consumers, c = .exited := by
    intro c hmem
    obtain ⟨j, hj⟩ := List.mem_iff_getElem?.mp hmem
    exact exited_of_stuck_consumer hstuck hlocked hconsumers hj
  refine ⟨?_, hexited, hmain, lock_of_stuck hstuck hlocked, ?_⟩
  · intro p hmem
    obtain ⟨i, hi⟩ := List.mem_iff_getElem?.mp hmem
    exact exited_of_stuck_producer hstuck hlocked hproducers hi
  · intro hne
    obtain ⟨c, rest, hcons⟩ := List.exists_cons_of_ne_nil hne
    have hc : c = .exited := hexited c (hcons ▸ List.mem_cons_self)
    have hfirst : s.consumers[0]? = some .exited := by rw [hcons, hc]; rfl
    have hdrained := (safe_of_inv hinv).drained 0 hfirst
    exact ⟨hdrained, by rw [hinv.valid.consumed, hinv.valid.produced, hdrained]⟩

end

/-! ## Runs -/

/-- What holds in every run. -/
theorem inv_run {producers consumers : ℕ} {es : List Event} {s : BoundedBuffer}
    (hrun : run BoundedBuffer.step (BoundedBuffer.start producers consumers) es = some s) :
    s.Inv ∧ s.Awake := by
  refine run_invariant (fun s => s.Inv ∧ s.Awake) ?_ hrun
    ⟨inv_start producers consumers, awake_start producers consumers⟩
  intro s e u hs hstep
  have hstepped := stepped_of_step hstep
  exact ⟨inv_stepped hs.1 hstepped, awake_stepped hs.1 hs.2 hstepped⟩

/-- A consumer that moves does not change the numbers of threads, whatever becomes of the queue. -/
theorem length_setConsumer {s : BoundedBuffer} {j : ℕ} {c : Consumer} (q : Queue) :
    ({ s with queue := q }.setConsumer j c).producers.length = s.producers.length ∧
      ({ s with queue := q }.setConsumer j c).consumers.length = s.consumers.length :=
  ⟨rfl, List.length_set⟩

/-- The numbers of threads stay. -/
theorem length_stepped {s t : BoundedBuffer} (hstep : s.Stepped t) :
    t.producers.length = s.producers.length ∧ t.consumers.length = s.consumers.length := by
  cases hstep with
  | wakeConsumer hi ht =>
    cases ht with
    | sleeper hj => exact ⟨List.length_set, List.length_set⟩
    | nobody hnone => exact ⟨List.length_set, rfl⟩
  | wakeProducer hj ht =>
    cases ht with
    | sleeper hi => exact ⟨List.length_set, List.length_set⟩
    | nobody hnone => exact ⟨rfl, List.length_set⟩
  | mainEnter | mainStop | mainLeave => exact ⟨rfl, rfl⟩
  | mainWakeNotFull => exact ⟨List.length_map .., rfl⟩
  | mainWakeNotEmpty => exact ⟨rfl, List.length_map ..⟩
  | produce | enterProducer | sleepProducer | stopProducer | insert | leaveInserted | exitProducer
  | spuriousProducer => exact ⟨List.length_set, rfl⟩
  | enterConsumer | sleepConsumer | stopConsumer | leaveConsumed | exitConsumer
  | spuriousConsumer => exact ⟨rfl, List.length_set⟩
  | consume => exact length_setConsumer s.queue.consume

theorem length_run {es : List Event} {s t : BoundedBuffer}
    (hrun : run BoundedBuffer.step s es = some t) :
    t.producers.length = s.producers.length ∧ t.consumers.length = s.consumers.length := by
  refine run_invariant (fun t => t.producers.length = s.producers.length ∧
    t.consumers.length = s.consumers.length) ?_ hrun ⟨rfl, rfl⟩
  rintro u e v ⟨hproducers, hconsumers⟩ hstep
  have hlength := length_stepped (stepped_of_step hstep)
  exact ⟨hlength.1.trans hproducers, hlength.2.trans hconsumers⟩

/-- What is left behind the stop is bounded by the numbers of threads. -/
theorem remaining_le {s : BoundedBuffer} (hinv : s.Inv) (hawake : s.Awake)
    (hstop : s.stopRequested = true) :
    s.remaining ≤ 6 * s.producers.length + 5 * s.consumers.length + 43 := by
  have hproducers : (s.producers.map Producer.remaining).sum ≤ 6 * s.producers.length :=
    sum_map_le (fun p => by cases p <;> simp [Producer.remaining]) s.producers
  have hconsumers : (s.consumers.map Consumer.remaining).sum ≤ 5 * s.consumers.length :=
    sum_map_le (fun c => by cases c <;> simp [Consumer.remaining]) s.consumers
  have hsize : s.queue.queueSize ≤ 10 := hinv.valid.size_le
  have hmain : s.main.remaining ≤ 3 := by
    have hpast := hawake.requested.mp hstop
    cases hcase : s.main <;> simp_all [Main.remaining]
  unfold BoundedBuffer.remaining
  omega

/-- **Shutdown.** Wherever a run has come to, it is stuck only when everything has returned, without
counting on a spurious wake. Behind the stop no schedule goes on for longer than the numbers of
threads say, and some steps of the threads lead to the end. -/
theorem shutdown_run {producers consumers : ℕ} {es : List Event} {s : BoundedBuffer}
    (hrun : run BoundedBuffer.step (BoundedBuffer.start producers consumers) es = some s) :
    (Stuck BoundedBuffer.step Event.Scheduled s → Finished s) ∧
    (s.stopRequested = true →
      (∀ es' t, run BoundedBuffer.step s es' = some t →
        es'.length ≤ 6 * producers + 5 * consumers + 43) ∧
      ∃ es' t, (∀ e ∈ es', e.Scheduled) ∧ run BoundedBuffer.step s es' = some t ∧ Finished t) := by
  obtain ⟨hinv, hawake⟩ := inv_run hrun
  have hlocked := locked_run hrun
  refine ⟨fun hstuck => finished_of_stuck hstuck hinv hawake hlocked, ?_⟩
  intro hstop
  have hlower : ∀ s e t, ((s.Inv ∧ s.Awake) ∧ s.stopRequested = true) →
      BoundedBuffer.step s e = some t →
      ((t.Inv ∧ t.Awake) ∧ t.stopRequested = true) ∧ t.remaining < s.remaining := by
    rintro s e t ⟨⟨hinv, hawake⟩, hstop⟩ hstep
    have hstepped := stepped_of_step hstep
    obtain ⟨hstop', hlt⟩ := remaining_stepped hinv hawake hstop hstepped
    exact ⟨⟨⟨inv_stepped hinv hstepped, awake_stepped hinv hawake hstepped⟩, hstop'⟩, hlt⟩
  constructor
  · intro es' t hrun'
    have hshort := length_add_le_of_run hlower hrun' ⟨⟨hinv, hawake⟩, hstop⟩
    have hbound := remaining_le hinv hawake hstop
    obtain ⟨hproducers, hconsumers⟩ := length_run hrun
    rw [BoundedBuffer.start, List.length_replicate] at hproducers hconsumers
    omega
  · obtain ⟨es', t, hall, hrun', hstuck⟩ := exists_run_stuck
      (fun s e t hs _ hstep => hlower s e t hs hstep) ⟨⟨hinv, hawake⟩, hstop⟩
    have hwhole := run_append hrun hrun'
    obtain ⟨hinv', hawake'⟩ := inv_run hwhole
    exact ⟨es', t, hall, hrun', finished_of_stuck hstuck hinv' hawake' (locked_run hwhole)⟩

/-- The threads of `main`: a consumer sleeps when the stop is requested. -/
theorem shutdown_run_main : ∃ s,
    run BoundedBuffer.step (BoundedBuffer.start 1 2)
      [.consumer 0 none, .consumer 0 none, .main, .main] = some s ∧
    s.consumers = [.asleep, .entering] ∧ s.stopRequested = true ∧
    (∀ es' t, run BoundedBuffer.step s es' = some t → es'.length ≤ 6 * 1 + 5 * 2 + 43) ∧
    ∃ es' t, (∀ e ∈ es', e.Scheduled) ∧ run BoundedBuffer.step s es' = some t ∧ Finished t :=
  ⟨_, rfl, rfl, rfl, (@shutdown_run 1 2 [.consumer 0 none, .consumer 0 none, .main, .main] _
    rfl).2 rfl⟩

end Win32Experiments.ConditionVariables
