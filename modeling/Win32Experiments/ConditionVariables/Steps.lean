import Win32Experiments.ConditionVariables.BoundedBuffer

/-!
# The steps of the bounded buffer

The one inversion of a step that the proofs about runs use.

* `stepped_of_step`: a step is one of the constructors of `BoundedBuffer.Stepped`.
-/

namespace Win32Experiments.ConditionVariables

open Foundation

/-- A wake of `BufferNotEmpty` with its choice: a sleeper, or none when nobody sleeps. -/
inductive BoundedBuffer.WakesConsumer (s : BoundedBuffer) : BoundedBuffer → Prop
  | sleeper {j : ℕ} (hj : s.consumers[j]? = some .asleep) :
    WakesConsumer s (s.setConsumer j .woken)
  | nobody (hnone : s.consumers.any Consumer.isAsleep = false) : WakesConsumer s s

/-- A wake of `BufferNotFull` with its choice. -/
inductive BoundedBuffer.WakesProducer (s : BoundedBuffer) : BoundedBuffer → Prop
  | sleeper {i item : ℕ} (hi : s.producers[i]? = some (.asleep item)) :
    WakesProducer s (s.setProducer i (.woken item))
  | nobody (hnone : s.producers.any Producer.isAsleep = false) : WakesProducer s s

/-- The steps, by the statement that is executed. -/
inductive BoundedBuffer.Stepped (s : BoundedBuffer) : BoundedBuffer → Prop
  | produce {i : ℕ} (hi : s.producers[i]? = some .producing) :
    Stepped s ({ s with lastItemProduced := addW 32 s.lastItemProduced 1 }.setProducer i
      (.entering (addW 32 s.lastItemProduced 1)))
  | enterProducer {i item : ℕ}
    (hi : s.producers[i]? = some (.entering item) ∨ s.producers[i]? = some (.woken item))
    (hlock : s.lock = none) :
    Stepped s ({ s with lock := some (.producer i) }.setProducer i (.checking item))
  | sleepProducer {i item : ℕ} (hi : s.producers[i]? = some (.checking item))
    (hfull : s.queue.queueSize = bufferSize) (hstop : s.stopRequested = false) :
    Stepped s (s.leave.setProducer i (.asleep item))
  | stopProducer {i item : ℕ} (hi : s.producers[i]? = some (.checking item))
    (hstop : s.stopRequested = true) : Stepped s (s.setProducer i .stopping)
  | insert {i item : ℕ} (hi : s.producers[i]? = some (.checking item))
    (hroom : s.queue.queueSize ≠ bufferSize) (hstop : s.stopRequested = false) :
    Stepped s ({ s with queue := s.queue.insert item }.setProducer i .inserted)
  | leaveInserted {i : ℕ} (hi : s.producers[i]? = some .inserted) :
    Stepped s (s.leave.setProducer i .waking)
  | exitProducer {i : ℕ} (hi : s.producers[i]? = some .stopping) :
    Stepped s (s.leave.setProducer i .exited)
  | wakeConsumer {i : ℕ} {t : BoundedBuffer} (hi : s.producers[i]? = some .waking)
    (ht : s.WakesConsumer t) : Stepped s (t.setProducer i .producing)
  | enterConsumer {j : ℕ}
    (hj : s.consumers[j]? = some .entering ∨ s.consumers[j]? = some .woken)
    (hlock : s.lock = none) :
    Stepped s ({ s with lock := some (.consumer j) }.setConsumer j .checking)
  | sleepConsumer {j : ℕ} (hj : s.consumers[j]? = some .checking)
    (hempty : s.queue.queueSize = 0) (hstop : s.stopRequested = false) :
    Stepped s (s.leave.setConsumer j .asleep)
  | stopConsumer {j : ℕ} (hj : s.consumers[j]? = some .checking)
    (hempty : s.queue.queueSize = 0) (hstop : s.stopRequested = true) :
    Stepped s (s.setConsumer j .stopping)
  | consume {j : ℕ} (hj : s.consumers[j]? = some .checking) (hsome : s.queue.queueSize ≠ 0) :
    Stepped s ({ s with queue := s.queue.consume }.setConsumer j .consumed)
  | leaveConsumed {j : ℕ} (hj : s.consumers[j]? = some .consumed) :
    Stepped s (s.leave.setConsumer j .waking)
  | exitConsumer {j : ℕ} (hj : s.consumers[j]? = some .stopping) :
    Stepped s (s.leave.setConsumer j .exited)
  | wakeProducer {j : ℕ} {t : BoundedBuffer} (hj : s.consumers[j]? = some .waking)
    (ht : s.WakesProducer t) : Stepped s (t.setConsumer j .entering)
  | mainEnter (hmain : s.main = .reading) (hlock : s.lock = none) :
    Stepped s { s with lock := some .main, main := .holding }
  | mainStop (hmain : s.main = .holding) :
    Stepped s { s with stopRequested := true, main := .stopping }
  | mainLeave (hmain : s.main = .stopping) : Stepped s { s.leave with main := .wakingNotFull }
  | mainWakeNotFull (hmain : s.main = .wakingNotFull) :
    Stepped s { s with producers := s.producers.map Producer.wake, main := .wakingNotEmpty }
  | mainWakeNotEmpty (hmain : s.main = .wakingNotEmpty) :
    Stepped s { s with consumers := s.consumers.map Consumer.wake, main := .joining }
  | spuriousProducer {i item : ℕ} (hi : s.producers[i]? = some (.asleep item)) :
    Stepped s (s.setProducer i (.woken item))
  | spuriousConsumer {j : ℕ} (hj : s.consumers[j]? = some .asleep) :
    Stepped s (s.setConsumer j .woken)

theorem enter_eq {s t : BoundedBuffer} {thread : Thread} (h : s.enter thread = some t) :
    s.lock = none ∧ t = { s with lock := some thread } := by
  obtain ⟨hlock, heq⟩ := Option.ite_none_right_eq_some.mp h
  exact ⟨hlock, (Option.some.inj heq).symm⟩

theorem wakesConsumer_of_eq {s t : BoundedBuffer} {sleeper : Option ℕ}
    (h : s.wakeNotEmpty sleeper = some t) : s.WakesConsumer t := by
  cases sleeper with
  | none =>
    simp only [BoundedBuffer.wakeNotEmpty] at h
    split at h
    · cases h
    · next hnone =>
      rw [← Option.some.inj h]
      exact .nobody (Bool.not_eq_true _ ▸ hnone)
  | some j =>
    simp only [BoundedBuffer.wakeNotEmpty] at h
    split at h
    · next hj =>
      rw [← Option.some.inj h]
      exact .sleeper hj
    · cases h

theorem wakesProducer_of_eq {s t : BoundedBuffer} {sleeper : Option ℕ}
    (h : s.wakeNotFull sleeper = some t) : s.WakesProducer t := by
  cases sleeper with
  | none =>
    simp only [BoundedBuffer.wakeNotFull] at h
    split at h
    · cases h
    · next hnone =>
      rw [← Option.some.inj h]
      exact .nobody (Bool.not_eq_true _ ▸ hnone)
  | some i =>
    simp only [BoundedBuffer.wakeNotFull] at h
    split at h
    · next item hi =>
      rw [← Option.some.inj h]
      exact .sleeper hi
    · cases h

theorem stepped_of_stepProducer {s t : BoundedBuffer} {i : ℕ} {sleeper : Option ℕ}
    (h : s.stepProducer i sleeper = some t) : s.Stepped t := by
  unfold BoundedBuffer.stepProducer at h
  split at h
  · next hi =>
    rw [← Option.some.inj h]
    exact .produce hi
  · next item hi =>
    obtain ⟨u, hu, rfl⟩ := Option.map_eq_some_iff.mp h
    obtain ⟨hlock, rfl⟩ := enter_eq hu
    exact .enterProducer (Or.inl hi) hlock
  · next item hi =>
    split at h
    · next hwait =>
      rw [← Option.some.inj h]
      exact .sleepProducer hi hwait.1 hwait.2
    · next hgo =>
      split at h
      · next hstop =>
        rw [← Option.some.inj h]
        exact .stopProducer hi hstop
      · next hstop =>
        have hfalse : s.stopRequested = false := Bool.not_eq_true _ ▸ hstop
        rw [← Option.some.inj h]
        exact .insert hi (fun hfull => hgo ⟨hfull, hfalse⟩) hfalse
  · next item hi =>
    obtain ⟨u, hu, rfl⟩ := Option.map_eq_some_iff.mp h
    obtain ⟨hlock, rfl⟩ := enter_eq hu
    exact .enterProducer (Or.inr hi) hlock
  · next hi =>
    rw [← Option.some.inj h]
    exact .leaveInserted hi
  · next hi =>
    rw [← Option.some.inj h]
    exact .exitProducer hi
  · next hi =>
    obtain ⟨u, hu, rfl⟩ := Option.map_eq_some_iff.mp h
    exact .wakeConsumer hi (wakesConsumer_of_eq hu)
  · cases h
  · cases h
  · cases h

theorem stepped_of_stepConsumer {s t : BoundedBuffer} {j : ℕ} {sleeper : Option ℕ}
    (h : s.stepConsumer j sleeper = some t) : s.Stepped t := by
  unfold BoundedBuffer.stepConsumer at h
  split at h
  · next hj =>
    obtain ⟨u, hu, rfl⟩ := Option.map_eq_some_iff.mp h
    obtain ⟨hlock, rfl⟩ := enter_eq hu
    exact .enterConsumer (Or.inl hj) hlock
  · next hj =>
    split at h
    · next hwait =>
      rw [← Option.some.inj h]
      exact .sleepConsumer hj hwait.1 hwait.2
    · next hgo =>
      split at h
      · next hstop =>
        rw [← Option.some.inj h]
        exact .stopConsumer hj hstop.2 hstop.1
      · next hstop =>
        rw [← Option.some.inj h]
        apply BoundedBuffer.Stepped.consume hj
        intro hempty
        -- with an empty queue one of the two tests succeeds
        cases hrequested : s.stopRequested with
        | false => exact hgo ⟨hempty, hrequested⟩
        | true => exact hstop ⟨hrequested, hempty⟩
  · next hj =>
    obtain ⟨u, hu, rfl⟩ := Option.map_eq_some_iff.mp h
    obtain ⟨hlock, rfl⟩ := enter_eq hu
    exact .enterConsumer (Or.inr hj) hlock
  · next hj =>
    rw [← Option.some.inj h]
    exact .leaveConsumed hj
  · next hj =>
    rw [← Option.some.inj h]
    exact .exitConsumer hj
  · next hj =>
    obtain ⟨u, hu, rfl⟩ := Option.map_eq_some_iff.mp h
    exact .wakeProducer hj (wakesProducer_of_eq hu)
  · cases h
  · cases h
  · cases h

theorem stepped_of_stepMain {s t : BoundedBuffer} (h : s.stepMain = some t) : s.Stepped t := by
  unfold BoundedBuffer.stepMain at h
  split at h
  · next hmain =>
    obtain ⟨u, hu, rfl⟩ := Option.map_eq_some_iff.mp h
    obtain ⟨hlock, rfl⟩ := enter_eq hu
    exact .mainEnter hmain hlock
  · next hmain =>
    rw [← Option.some.inj h]
    exact .mainStop hmain
  · next hmain =>
    rw [← Option.some.inj h]
    exact .mainLeave hmain
  · next hmain =>
    rw [← Option.some.inj h]
    exact .mainWakeNotFull hmain
  · next hmain =>
    rw [← Option.some.inj h]
    exact .mainWakeNotEmpty hmain
  · cases h

/-- A step executes one of the statements. -/
theorem stepped_of_step {s t : BoundedBuffer} {e : Event} (h : s.step e = some t) :
    s.Stepped t := by
  cases e with
  | producer i sleeper => exact stepped_of_stepProducer h
  | consumer j sleeper => exact stepped_of_stepConsumer h
  | main => exact stepped_of_stepMain h
  | spuriousProducer i =>
    simp only [BoundedBuffer.step] at h
    split at h
    · next item hi =>
      rw [← Option.some.inj h]
      exact .spuriousProducer hi
    · cases h
  | spuriousConsumer j =>
    simp only [BoundedBuffer.step] at h
    split at h
    · next hj =>
      rw [← Option.some.inj h]
      exact .spuriousConsumer hj
    · cases h

end Win32Experiments.ConditionVariables
