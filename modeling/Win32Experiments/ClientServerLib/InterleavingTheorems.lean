import Win32Experiments.Foundation.Run
import Win32Experiments.ClientServerLib.Interleaving

/-!
# The capacity of a `TypedArray` under concurrent clients

Only the client that owns the mutex changes the count or the elements, so that `Add` constructs
in the slot behind the elements. But the test of `Add` stands before the lock: the array stays
within its capacity exactly when the test would still pass whenever `Add` constructs.
-/

namespace Win32Experiments.ClientServerLib

open Foundation

variable {α : Type*}

/-! ## Statements -/

/-- The count is within the capacity, `Add` has constructed in slots of the array only, and the
additions since the last `Clear` have each a slot of their own, in which their element is. -/
structure WithinCapacity (s : Clients α) : Prop where
  count : 0 ≤ s.shared.currentCount ∧ s.shared.currentCount ≤ maxElements
  writes : ∀ slot ∈ s.writes, 0 ≤ slot ∧ slot < maxElements
  slots : (s.added.map Prod.fst).Nodup
  elements : ∀ e ∈ s.added, s.shared.array e.1 = e.2

/-- The next step is the construction of an element by `Add`. -/
def Phase.constructs : Phase α → Bool
  | .addConstruct _ _ _ => true
  | _ => false

/-- The test that `Add` makes before the lock would also pass where it constructs. -/
def TestStillPasses (s : Clients α) : ℕ × Move α → Prop
  | (_, .call _) => True
  | (client, .next) => (s.phase client).constructs → ¬ maxElements ≤ s.shared.currentCount

instance (s : Clients α) : ∀ e : ℕ × Move α, Decidable (TestStillPasses s e)
  | (_, .call _) => isTrue trivial
  | (client, .next) =>
    inferInstanceAs
      (Decidable ((s.phase client).constructs → ¬ maxElements ≤ s.shared.currentCount))

/-! ## The invariant -/

/-- The client is between `Lock` and `Unlock`. -/
def Phase.Inside : Phase α → Prop
  | .addRead _ _ | .addConstruct _ _ _ | .addLoad _ _ | .addStore _ _ _ | .addPrint
  | .addUnlock | .clearZero | .clearStore | .clearUnlock | .atTest _ | .atUnlock _ => True
  | _ => False

/-- What a client knows about the shared data between `Lock` and `Unlock`. -/
def Phase.Knows (s : Clients α) : Phase α → Prop
  | .addConstruct _ _ slot => slot = s.shared.currentCount
  | .addLoad x slot =>
    slot = s.shared.currentCount ∧ s.shared.array slot = x ∧ slot ∈ s.writes
  | .addStore x slot value =>
    slot = s.shared.currentCount ∧ value = slot ∧ s.shared.array slot = x ∧ slot ∈ s.writes
  | .clearStore => s.added = []
  | _ => True

/-- The shared data: the elements stand in the first slots, and the count has not left the
capacity without a construction outside it. -/
structure Clients.Data (s : Clients α) : Prop where
  nonneg : 0 ≤ s.shared.currentCount
  writes : ∀ slot ∈ s.writes, 0 ≤ slot
  limit : (∀ slot ∈ s.writes, slot < maxElements) → s.shared.currentCount ≤ maxElements
  below : ∀ e ∈ s.added, e.1 < s.shared.currentCount
  slots : (s.added.map Prod.fst).Nodup
  elements : ∀ e ∈ s.added, s.shared.array e.1 = e.2

/-- The invariant of the runs. -/
structure Clients.Inv (s : Clients α) : Prop where
  data : s.Data
  owner : ∀ o ∈ s.shared.mutex, ∀ o' ∈ s.shared.mutex, o = o'
  inside : ∀ client, (s.phase client).Inside →
    client ∈ s.shared.mutex ∧ (s.phase client).Knows s

section

variable {s t : Clients α} {client : ℕ} {p : Phase α}

theorem inv_init (zero : α) : (Clients.init zero).Inv where
  data :=
    { nonneg := Int.le_refl 0
      writes := by simp [Clients.init]
      limit := fun _ => (by decide : (0 : ℤ) ≤ maxElements)
      below := by simp [Clients.init]
      slots := List.nodup_nil
      elements := by simp [Clients.init] }
  owner := by simp [Clients.init]
  inside := by simp [Clients.init, Phase.Inside]

theorem goto_phase_self : (s.goto client p).phase client = p := by
  rw [Clients.goto]
  simp

theorem goto_phase_of_ne {c : ℕ} (hc : c ≠ client) : (s.goto client p).phase c = s.phase c := by
  rw [Clients.goto]
  simp [hc]

/-- No other client is inside when the mutex is the client's alone. -/
theorem Clients.Inv.alone (h : s.Inv) (hmutex : ∀ o ∈ s.shared.mutex, o = client) :
    ∀ c, (s.phase c).Inside → c = client :=
  fun c hc => hmutex c (h.inside c hc).1

/-- A client that is inside is alone there. -/
theorem Clients.Inv.owner_eq (h : s.Inv) (hin : (s.phase client).Inside) :
    ∀ o ∈ s.shared.mutex, o = client :=
  fun o ho => h.owner o ho client (h.inside client hin).1

/-- A step of a client while no other is inside: what is left to show is the shared data, and
what the client knows. -/
theorem inv_goto_alone {s' : Clients α} (hphase : s'.phase = s.phase) (hdata : s'.Data)
    (howner : ∀ o ∈ s'.shared.mutex, ∀ o' ∈ s'.shared.mutex, o = o')
    (halone : ∀ c, (s.phase c).Inside → c = client)
    (hself : p.Inside → client ∈ s'.shared.mutex ∧ p.Knows (s'.goto client p)) :
    (s'.goto client p).Inv := by
  refine ⟨⟨hdata.nonneg, hdata.writes, hdata.limit, hdata.below, hdata.slots, hdata.elements⟩,
    howner, ?_⟩
  intro c hc
  by_cases hself' : c = client
  · rw [hself', goto_phase_self] at hc ⊢
    exact hself hc
  · rw [goto_phase_of_ne hself', hphase] at hc
    exact absurd (halone c hc) hself'

/-- Knowledge is about the shared data and the record only. -/
theorem knows_goto {q : Phase α} : q.Knows (s.goto client p) ↔ q.Knows s := by
  cases q <;> rfl

/-- A step of a client outside, to a phase outside, that leaves the data alone. -/
theorem inv_goto_outside (h : s.Inv) (hout : ¬ p.Inside) : (s.goto client p).Inv := by
  refine ⟨⟨h.data.nonneg, h.data.writes, h.data.limit, h.data.below, h.data.slots,
    h.data.elements⟩, h.owner, ?_⟩
  intro c hc
  by_cases hself : c = client
  · rw [hself, goto_phase_self] at hc
    exact absurd hc hout
  · rw [goto_phase_of_ne hself] at hc ⊢
    refine ⟨(h.inside c hc).1, knows_goto.mpr (h.inside c hc).2⟩

/-- A step of the client inside that leaves the data alone. -/
theorem inv_goto_inside (h : s.Inv) (hin : (s.phase client).Inside) (hknows : p.Knows s) :
    (s.goto client p).Inv := by
  apply inv_goto_alone rfl h.data h.owner (h.alone (h.owner_eq hin))
  intro _
  exact ⟨(h.inside client hin).1, knows_goto.mpr hknows⟩

/-- What is known of the data does not depend on who has the mutex. -/
theorem data_mutex (h : s.Data) (mutex : Mutex) :
    Clients.Data { s with shared := { s.shared with mutex := mutex } } :=
  ⟨h.nonneg, h.writes, h.limit, h.below, h.slots, h.elements⟩

/-- `Lock`: whoever was inside was the client itself. -/
theorem inv_lock (h : s.Inv) (hlock : s.lock client p = some t)
    (hknows : ∀ s' : Clients α, p.Knows s') : t.Inv := by
  obtain ⟨mutex, hmutex, rfl⟩ := Option.map_eq_some_iff.mp hlock
  obtain ⟨hfree, rfl⟩ := lock_eq_some.mp hmutex
  have howner : ∀ o ∈ client :: s.shared.mutex, o = client := by
    simpa using hfree
  apply inv_goto_alone (s := s)
  · rfl
  · exact data_mutex h.data _
  · intro o ho o' ho'
    rw [howner o ho, howner o' ho']
  · exact h.alone hfree
  · intro _
    exact ⟨List.mem_cons_self, hknows _⟩

/-- `Unlock`. -/
theorem inv_unlock (h : s.Inv) (hin : (s.phase client).Inside) : (s.unlock client).Inv := by
  have hsub : ∀ o ∈ s.shared.mutex.unlock client, o ∈ s.shared.mutex := by
    intro o ho
    rw [Mutex.unlock] at ho
    split at ho
    · exact List.mem_of_mem_tail ho
    · exact ho
  apply inv_goto_alone (s := s)
  · rfl
  · exact data_mutex h.data _
  · intro o ho o' ho'
    exact h.owner o (hsub o ho) o' (hsub o' ho')
  · exact h.alone (h.owner_eq hin)
  · intro hidle
    exact absurd hidle id

/-! ## What a step changes in the shared data -/

/-- `Add` constructs behind the elements. -/
theorem data_construct (h : s.Data) (x : α) :
    Clients.Data { s with
      shared := { s.shared with array := Function.update s.shared.array s.shared.currentCount x }
      writes := s.writes ++ [s.shared.currentCount] } := by
  refine ⟨h.nonneg, ?_, ?_, h.below, h.slots, ?_⟩
  · exact List.forall_mem_append.mpr ⟨h.writes, by simpa using h.nonneg⟩
  · intro hwrites
    exact h.limit (List.forall_mem_append.mp hwrites).1
  · intro e he
    have hbelow := h.below e he
    show Function.update s.shared.array s.shared.currentCount x e.1 = e.2
    rw [Function.update_of_ne (by omega), h.elements e he]

/-- The element constructed is counted. -/
theorem data_count (h : s.Data) {x : α} (hx : s.shared.array s.shared.currentCount = x)
    (hmem : s.shared.currentCount ∈ s.writes) :
    Clients.Data { s with
      shared := { s.shared with currentCount := s.shared.currentCount + 1 }
      added := s.added ++ [(s.shared.currentCount, x)] } := by
  have hnonneg := h.nonneg
  constructor
  · show 0 ≤ s.shared.currentCount + 1
    omega
  · exact h.writes
  · intro hwrites
    have hlt := hwrites _ hmem
    show s.shared.currentCount + 1 ≤ maxElements
    omega
  · show ∀ e ∈ s.added ++ [(s.shared.currentCount, x)], e.1 < s.shared.currentCount + 1
    rw [List.forall_mem_append, List.forall_mem_singleton]
    constructor
    · intro e he
      have hbelow := h.below e he
      omega
    · show s.shared.currentCount < s.shared.currentCount + 1
      omega
  · -- the slot lies behind those of the other additions
    rw [List.map_append, List.map_singleton, List.nodup_append]
    refine ⟨h.slots, List.nodup_cons.mpr ⟨List.not_mem_nil, List.nodup_nil⟩, ?_⟩
    intro slot hslot slot' hslot' heq
    obtain ⟨e, he, rfl⟩ := List.mem_map.mp hslot
    have hbelow := h.below e he
    rw [List.mem_singleton] at hslot'
    omega
  · exact List.forall_mem_append.mpr ⟨h.elements, by simpa using hx⟩

theorem data_zero (h : s.Data) (zero : α) :
    Clients.Data { s with
      shared := { s.shared with
        array := fun i => if i ∈ indices then zero else s.shared.array i }
      added := [] } :=
  ⟨h.nonneg, h.writes, h.limit, by simp, List.nodup_nil, by simp⟩

theorem data_reset (h : s.Data) (hadded : s.added = []) :
    Clients.Data { s with shared := { s.shared with currentCount := 0 } } := by
  refine ⟨Int.le_refl 0, h.writes, fun _ => (by decide : (0 : ℤ) ≤ maxElements), ?_, h.slots,
    h.elements⟩
  simp [hadded]

/-! ## Steps -/

variable {zero : α}

/-- Each step of a client keeps the invariant. -/
theorem inv_advance (h : s.Inv) (hstep : s.advance zero client (s.phase client) = some t) :
    t.Inv := by
  have hinside := h.inside client
  generalize hp : s.phase client = p at hstep hinside
  cases p with
  | idle => contradiction
  | addTest x throws =>
    rw [Clients.advance] at hstep
    split at hstep <;> obtain rfl := Option.some.inj hstep
    · exact inv_goto_outside h id
    · exact inv_goto_outside h id
  | addLock x throws => exact inv_lock h hstep fun _ => trivial
  | addRead x throws =>
    obtain rfl := Option.some.inj hstep
    exact inv_goto_inside h (hp ▸ trivial) rfl
  | addConstruct x throws slot =>
    have hslot : slot = s.shared.currentCount := (hinside trivial).2
    subst hslot
    have hin : (s.phase client).Inside := hp ▸ trivial
    have hmem := (h.inside client hin).1
    have halone := h.alone (h.owner_eq hin)
    have hdata := data_construct h.data x
    rw [Clients.advance] at hstep
    split at hstep <;> obtain rfl := Option.some.inj hstep
    · exact inv_goto_alone rfl hdata h.owner halone (fun hidle => absurd hidle id)
    · refine inv_goto_alone rfl hdata h.owner halone fun _ => ⟨hmem, rfl, ?_, ?_⟩
      · exact Function.update_self _ _ _
      · exact List.mem_append_right _ (List.mem_singleton_self _)
  | addLoad x slot =>
    obtain ⟨hslot, hx, hmem⟩ := (hinside trivial).2
    obtain rfl := Option.some.inj hstep
    exact inv_goto_inside h (hp ▸ trivial) ⟨hslot, hslot.symm, hx, hmem⟩
  | addStore x slot value =>
    obtain ⟨hslot, hvalue, hx, hmem⟩ := (hinside trivial).2
    have hin : (s.phase client).Inside := hp ▸ trivial
    subst hvalue
    subst hslot
    obtain rfl := Option.some.inj hstep
    exact inv_goto_alone rfl (data_count h.data hx hmem) h.owner (h.alone (h.owner_eq hin))
      fun _ => ⟨(h.inside client hin).1, trivial⟩
  | addPrint =>
    obtain rfl := Option.some.inj hstep
    exact inv_goto_inside h (hp ▸ trivial) trivial
  | addUnlock =>
    obtain rfl := Option.some.inj hstep
    exact inv_unlock h (hp ▸ trivial)
  | clearTest =>
    rw [Clients.advance] at hstep
    split at hstep <;> obtain rfl := Option.some.inj hstep
    · exact inv_goto_outside h id
    · exact inv_goto_outside h id
  | clearLock => exact inv_lock h hstep fun _ => trivial
  | clearZero =>
    have hin : (s.phase client).Inside := hp ▸ trivial
    obtain rfl := Option.some.inj hstep
    exact inv_goto_alone rfl (data_zero h.data zero) h.owner (h.alone (h.owner_eq hin))
      fun _ => ⟨(h.inside client hin).1, rfl⟩
  | clearStore =>
    have hadded : s.added = [] := (hinside trivial).2
    have hin : (s.phase client).Inside := hp ▸ trivial
    obtain rfl := Option.some.inj hstep
    exact inv_goto_alone rfl (data_reset h.data hadded) h.owner (h.alone (h.owner_eq hin))
      fun _ => ⟨(h.inside client hin).1, trivial⟩
  | clearUnlock =>
    obtain rfl := Option.some.inj hstep
    exact inv_unlock h (hp ▸ trivial)
  | atLock index => exact inv_lock h hstep fun _ => trivial
  | atTest index =>
    obtain rfl := Option.some.inj hstep
    exact inv_goto_inside h (hp ▸ trivial) trivial
  | atUnlock found =>
    obtain rfl := Option.some.inj hstep
    exact inv_unlock h (hp ▸ trivial)

/-- A call of an operation is a step outside. -/
theorem not_inside_start (c : TypedCall α) : ¬ c.start.Inside := by
  cases c <;> exact id

theorem step_call_eq {c : TypedCall α} (hstep : s.step zero (client, .call c) = some t) :
    t = s.goto client c.start := by
  rw [Clients.step] at hstep
  split at hstep
  · exact (Option.some.inj hstep).symm
  · contradiction

theorem inv_step {e : ℕ × Move α} (h : s.Inv) (hstep : s.step zero e = some t) : t.Inv := by
  obtain ⟨client, move⟩ := e
  cases move with
  | call c =>
    rw [step_call_eq hstep]
    exact inv_goto_outside h (not_inside_start c)
  | next => exact inv_advance h hstep

/-- `Add` has constructed below the capacity only. -/
def Clients.Bounded (s : Clients α) : Prop := ∀ slot ∈ s.writes, slot < maxElements

/-- A construction adds its slot to the record, and no other step does. -/
theorem writes_advance (hstep : s.advance zero client p = some t) (hp : p.constructs = false) :
    t.writes = s.writes := by
  cases p with
  | idle => contradiction
  | addConstruct x throws slot => contradiction
  | addTest x throws =>
    rw [Clients.advance] at hstep
    split at hstep <;> obtain rfl := Option.some.inj hstep <;> rfl
  | clearTest =>
    rw [Clients.advance] at hstep
    split at hstep <;> obtain rfl := Option.some.inj hstep <;> rfl
  | addLock x throws =>
    obtain ⟨mutex, _, rfl⟩ := Option.map_eq_some_iff.mp hstep
    rfl
  | clearLock =>
    obtain ⟨mutex, _, rfl⟩ := Option.map_eq_some_iff.mp hstep
    rfl
  | atLock index =>
    obtain ⟨mutex, _, rfl⟩ := Option.map_eq_some_iff.mp hstep
    rfl
  | addRead x throws => exact Option.some.inj hstep ▸ rfl
  | addLoad x slot => exact Option.some.inj hstep ▸ rfl
  | addStore x slot value => exact Option.some.inj hstep ▸ rfl
  | addPrint => exact Option.some.inj hstep ▸ rfl
  | addUnlock => exact Option.some.inj hstep ▸ rfl
  | clearZero => exact Option.some.inj hstep ▸ rfl
  | clearStore => exact Option.some.inj hstep ▸ rfl
  | clearUnlock => exact Option.some.inj hstep ▸ rfl
  | atTest index => exact Option.some.inj hstep ▸ rfl
  | atUnlock found => exact Option.some.inj hstep ▸ rfl

/-- A step keeps the record within the capacity exactly when the test still passes. -/
theorem bounded_step_iff {e : ℕ × Move α} (h : s.Inv) (hstep : s.step zero e = some t) :
    t.Bounded ↔ s.Bounded ∧ TestStillPasses s e := by
  obtain ⟨client, move⟩ := e
  cases move with
  | call c =>
    rw [step_call_eq hstep]
    exact (and_iff_left trivial).symm
  | next =>
    have hinside := h.inside client
    cases hconstructs : (s.phase client).constructs with
    | false =>
      have hpass : TestStillPasses s (client, .next) := by simp [TestStillPasses, hconstructs]
      rw [Clients.Bounded, writes_advance hstep hconstructs]
      exact (and_iff_left hpass).symm
    | true =>
      have hpass : TestStillPasses s (client, .next) ↔
          s.shared.currentCount < maxElements := by
        simp [TestStillPasses, hconstructs]
      rw [Clients.step] at hstep
      generalize s.phase client = p at hstep hinside hconstructs
      cases p with
      | addConstruct x throws slot =>
        have hslot : slot = s.shared.currentCount := (hinside trivial).2
        have hwrites : t.writes = s.writes ++ [slot] := by
          rw [Clients.advance] at hstep
          split at hstep <;> obtain rfl := Option.some.inj hstep <;> rfl
        rw [Clients.Bounded, hwrites, List.forall_mem_append, List.forall_mem_singleton, hslot,
          hpass]
        rfl
      | _ => contradiction

/-! ## Runs -/

/-- Under the invariant the capacity is a matter of the constructions. -/
theorem withinCapacity_iff (h : s.Inv) : WithinCapacity s ↔ s.Bounded := by
  constructor
  · intro hwithin slot hslot
    exact (hwithin.writes slot hslot).2
  · intro hbounded
    exact
      { count := ⟨h.data.nonneg, h.data.limit hbounded⟩
        writes := fun slot hslot => ⟨h.data.writes slot hslot, hbounded slot hslot⟩
        slots := h.data.slots
        elements := h.data.elements }

end

/-- **Capacity.** At the end of a run of any clients the array is within its capacity exactly
when in each construction of the run the test of `Add` would still have passed. In every run the
additions since the last `Clear` have slots of their own, with their elements in them. -/
theorem withinCapacity_run (zero : α) (moves : List (ℕ × Move α)) {s : Clients α}
    (h : run (Clients.step zero) (Clients.init zero) moves = some s) :
    (WithinCapacity s ↔
      EachStep (Clients.step zero) TestStillPasses (Clients.init zero) moves) ∧
    (s.added.map Prod.fst).Nodup ∧ ∀ e ∈ s.added, s.shared.array e.1 = e.2 := by
  have hstart : (Clients.init zero).Bounded := by simp [Clients.Bounded, Clients.init]
  obtain ⟨hinv, hiff⟩ := run_iff Clients.Inv Clients.Bounded
    (fun _ _ _ hs _ hstep => inv_step hs hstep)
    (fun _ _ _ hs _ hstep => bounded_step_iff hs hstep) eachStep_true h (inv_init zero)
  refine ⟨?_, hinv.data.slots, hinv.data.elements⟩
  rw [withinCapacity_iff hinv, hiff, and_iff_right hstart]

/-! ## A race -/

/-- The steps of an `Add` by `client` up to its test, and from its lock to its end. -/
def addTested (client : ℕ) (x : α) : List (ℕ × Move α) :=
  [(client, .call (.add x false)), (client, .next)]

def addFinished {α : Type*} (client : ℕ) : List (ℕ × Move α) :=
  List.replicate 7 (client, .next)

/-- `n` elements, added by one client. -/
def added (client : ℕ) (x : α) (n : ℕ) : List (ℕ × Move α) :=
  (List.replicate n (addTested client x ++ addFinished client)).flatten

/-- Ten additions fill the array; an eleventh is refused by the test. -/
theorem withinCapacity_full :
    ∃ s, run (Clients.step 0) (Clients.init 0) (added 1 (7 : ℤ) 10 ++ addTested 2 8) = some s ∧
      s.shared.currentCount = 10 ∧ WithinCapacity s := by
  have hrun : (run (Clients.step 0) (Clients.init 0) (added 1 (7 : ℤ) 10 ++ addTested 2 8)).map
      (fun s => s.shared.currentCount) = some 10 := by decide +kernel
  obtain ⟨s, hs, hcount⟩ := Option.map_eq_some_iff.mp hrun
  exact ⟨s, hs, hcount, (withinCapacity_run 0 _ hs).1.mpr (by decide +kernel)⟩

/-- Two clients pass the test at nine elements: the second constructs behind the array. -/
theorem withinCapacity_counterexample :
    ∃ s, run (Clients.step 0) (Clients.init 0)
        (added 1 (7 : ℤ) 9 ++ addTested 1 7 ++ addTested 2 8 ++ addFinished 1 ++ addFinished 2)
        = some s ∧ s.shared.currentCount = 11 ∧ ¬ WithinCapacity s := by
  have hrun : (run (Clients.step 0) (Clients.init 0)
      (added 1 (7 : ℤ) 9 ++ addTested 1 7 ++ addTested 2 8 ++ addFinished 1 ++ addFinished 2)).map
      (fun s => s.shared.currentCount) = some 11 := by decide +kernel
  obtain ⟨s, hs, hcount⟩ := Option.map_eq_some_iff.mp hrun
  refine ⟨s, hs, hcount, ?_⟩
  intro hwithin
  have hle := hwithin.count.2
  rw [hcount] at hle
  contradiction

end Win32Experiments.ClientServerLib
