import Win32Experiments.Foundation.Progress
import Win32Experiments.Win32Threads.ThreadQueue

/-!
# What is posted is handled, and when the destructor returns

* `phases_step`, `flow_step`: what the threads know of each other, and where the messages are;
* `rank_step`: every step of the two threads brings the end nearer;
* `outcome_of_stuck`: the destructor waits forever only for a loop that was never told to quit, and
  the process ends only behind a time-out;
* `threadQueue_run`: every run, for both classes.
-/

namespace Win32Experiments.Win32Threads.ThreadMessageQueue

open Foundation

/-! ## Statements -/

/-- What the loop has handled are the messages posted, in their order, and the calls that posted are
the first ones of the owner. While the thread lives, a call finds a queue. The thread without a
window quits at the first quit that was posted, and what was posted behind it is lost; the thread
with a window has handled everything that was posted before it left its loop, and what was posted
behind that is lost. -/
structure Delivered (kind : Kind) (calls : List Call) (s : BaseThread) : Prop where
  order : s.handled <+: s.posted
  posted : s.posted.filter Msg.isCall = s.accepted.map kind.posts
  accepted : s.accepted <+: calls
  found : s.owner = .calls → s.hasEnded = false → s.canReceive = true
  quitsAtFirst : kind = .noWindowThread → s.worker.hasLeft = true →
    ∃ lost, s.posted = s.handled ++ .quitMsg :: lost ∧ .quitMsg ∉ s.handled
  handlesAll : kind = .windowThread → s.worker.hasLeft = true →
    s.posted = s.handled ++ s.late ∧ .close ∈ s.handled

/-- The destructor waits for a loop that waits for a message, and no quit was posted. -/
def Hangs (s : BaseThread) : Prop :=
  s.owner = .joins ∧ s.worker = .gets ∧ s.queue = [] ∧ .postQuit ∉ s.accepted

/-- The process ended in the pure virtual `Run`: the owner had given up waiting and was in the
destructor before the thread called it. -/
def Crashes (s : BaseThread) : Prop :=
  s.owner = .joins ∧ s.worker = .crashed ∧ s.ready = false ∧ s.accepted = []

/-- A step of one of the two threads. -/
def Event.OfThreads : Event → Prop
  | .system _ => False
  | _ => True

def Event.isSystem : Event → Bool
  | .system _ => true
  | _ => false

/-! ## The phases of the threads -/

/-- The thread has written `m_threadId`. -/
def Worker.hasId : Worker → Bool
  | .notStarted => false
  | .enters => false
  | _ => true

/-- The thread has set the event. -/
def Worker.isReady : Worker → Bool
  | .gets => true
  | .handles _ => true
  | worker => worker.hasLeft

/-- The thread has its queue or window. -/
def Worker.hasQueue : Worker → Bool
  | .signals => true
  | worker => worker.isReady

theorem Worker.hasQueue_of_isReady {worker : Worker} (h : worker.isReady = true) :
    worker.hasQueue = true := by
  cases worker <;> first | exact h | rfl

theorem Worker.hasId_of_isReady {worker : Worker} (h : worker.isReady = true) :
    worker.hasId = true := by
  cases worker <;> first | rfl | exact h

/-- What the threads know of each other. The owner makes its calls behind the event. -/
structure BaseThread.Phases (s : BaseThread) : Prop where
  started : s.owner = .start ↔ s.worker = .notStarted
  threadId : s.threadId = s.worker.hasId
  receives : s.receives = s.worker.hasQueue
  ready : s.ready = s.worker.isReady
  called : s.owner = .calls → s.ready = true
  accepted : s.accepted ≠ [] → s.ready = true
  crashed : s.worker = .crashed → s.owner = .joins

namespace BaseThread

variable {kind : Kind} {s t : BaseThread} {e : Event} {calls : List Call}

theorem phases_initial : (initial calls).Phases :=
  ⟨iff_of_true rfl rfl, rfl, rfl, rfl, nofun, fun h => absurd rfl h, nofun⟩

theorem phases_step (h : s.Phases) (hstep : s.step kind e = some t) : t.Phases := by
  obtain ⟨hstarted, hid, hreceives, hready, hcalled, haccepted, hcrashed⟩ := h
  have hawake : s.owner ≠ .start → s.worker ≠ .notStarted := fun hne hw => hne (hstarted.mpr hw)
  cases steps_of_step hstep with
  | start howner =>
    rw [hstarted.mp howner] at hid hreceives hready
    exact ⟨iff_of_false nofun nofun, hid, hreceives, hready, nofun, haccepted, nofun⟩
  | ready howner hset =>
    refine ⟨iff_of_false nofun (hawake (by simp [howner])), hid, hreceives, hready, fun _ => hset,
      haccepted, ?_⟩
    intro hworker
    rw [hcrashed hworker] at howner
    contradiction
  | timeout howner hset | leave howner hleft | throw howner hleft hfailed =>
    exact ⟨iff_of_false nofun (hawake (by simp [howner])), hid, hreceives, hready, nofun,
      haccepted, fun _ => rfl⟩
  | join howner hended =>
    refine ⟨iff_of_false nofun (hawake (by simp [howner])), hid, hreceives, hready, nofun,
      haccepted, ?_⟩
    intro hworker
    have hcrash : s.worker = .crashed := hworker
    simp [hasEnded, hcrash] at hended
  | post howner hleft hreceive =>
    exact ⟨hstarted, hid, hreceives, hready, hcalled, fun _ => hcalled howner, hcrashed⟩
  | enter hworker | run hworker hlives | crash hworker hgone | create hworker hok | signal hworker
  | get hworker hqueue hmsg | getQuit hworker hqueue | quit hworker hqueue hquit | handle hworker
  | notCreated hworker hkind | finish hworker =>
    rw [hworker] at hstarted hid hreceives hready
    refine ⟨iff_of_false (fun howner => nomatch hstarted.mp howner) nofun,
      ?_, ?_, ?_, ?_, ?_, ?_⟩ <;>
      simp_all [Worker.hasId, Worker.hasQueue, Worker.isReady, Worker.hasLeft]
  | system hkind hreceive hended =>
    exact ⟨hstarted, hid, hreceives, hready, hcalled, haccepted, hcrashed⟩

/-- A call finds a queue while the thread lives. -/
theorem canReceive_of_calls (h : s.Phases) (howner : s.owner = .calls)
    (hended : s.hasEnded = false) : s.canReceive = true := by
  have hready := h.ready.symm.trans (h.called howner)
  unfold canReceive
  rw [h.threadId, h.receives, hended]
  rw [Worker.hasQueue_of_isReady hready, Worker.hasId_of_isReady hready]
  rfl

/-! ## The messages -/

/-- The message that the thread has taken from the queue and not handled; or the quit that ended its
loop. -/
def inHand (kind : Kind) : Worker → List Msg
  | .handles msg => [msg]
  | worker => if kind = .noWindowThread && worker.hasLeft then [.quitMsg] else []

theorem inHand_gets : inHand kind .gets = [] := by
  cases kind <;> rfl

theorem inHand_of_hasLeft {worker : Worker} (h : worker.hasLeft = true) :
    inHand kind worker = if kind = .noWindowThread then [.quitMsg] else [] := by
  cases worker with
  | leaves code | ended code => simp [inHand, h]
  | _ => contradiction

/-- Where the messages are. -/
structure Flow (kind : Kind) (calls : List Call) (s : BaseThread) : Prop where
  flow : s.posted = s.handled ++ inHand kind s.worker ++ s.queue
  posted : s.posted.filter Msg.isCall = s.accepted.map kind.posts
  program : s.accepted ++ s.left = calls
  noQuit : .quitMsg ∉ s.handled
  windowNoQuit : kind = .windowThread → .quitMsg ∉ s.posted
  quit : s.quit = true ↔ kind = .windowThread ∧ .close ∈ s.handled
  drained : kind = .windowThread → s.worker.hasLeft = true → s.queue = s.late ∧ s.quit = true
  inTime : s.worker.hasLeft = false → s.late = []
  handles : ∀ msg, s.worker = .handles msg → msg ≠ .quitMsg

theorem flow_initial : Flow kind calls (initial calls) := by
  refine ⟨?_, rfl, rfl, List.not_mem_nil, fun _ => List.not_mem_nil,
    iff_of_false Bool.false_ne_true fun h => absurd h.2 List.not_mem_nil,
    nofun, fun _ => rfl, nofun⟩
  simp [initial, inHand, Worker.hasLeft]

/-- A message more in the queue. -/
theorem flow_post {msg : Msg} (h : Flow kind calls s)
    (hmsg : kind = .windowThread → msg ≠ .quitMsg) {accepted : List Call} {left : List Call}
    (hprogram : accepted ++ left = calls)
    (hposted : (s.posted ++ [msg]).filter Msg.isCall = accepted.map kind.posts) :
    Flow kind calls { s.post msg with left := left, accepted := accepted } := by
  refine ⟨?_, hposted, hprogram, h.noQuit, ?_, h.quit, ?_, ?_, h.handles⟩
  · show s.posted ++ [msg] = s.handled ++ inHand kind s.worker ++ (s.queue ++ [msg])
    rw [h.flow, List.append_assoc _ s.queue]
  · intro hkind hmem
    rcases List.mem_append.mp hmem with hmem | hmem
    · exact h.windowNoQuit hkind hmem
    · exact hmsg hkind (List.mem_singleton.mp hmem).symm
  · intro hkind hworker
    have hleft : s.worker.hasLeft = true := hworker
    show s.queue ++ [msg] = (if s.worker.hasLeft then s.late ++ [msg] else s.late) ∧ s.quit = true
    rw [if_pos hleft, (h.drained hkind hleft).1]
    exact ⟨rfl, (h.drained hkind hleft).2⟩
  · intro hworker
    have hloop : s.worker.hasLeft = false := hworker
    show (if s.worker.hasLeft then s.late ++ [msg] else s.late) = []
    rw [if_neg (by simp [hloop])]
    exact h.inTime hloop

/-- The thread goes on without a message. -/
theorem flow_move {owner : Owner} {worker : Worker} {threadId ready receives : Bool}
    (h : Flow kind calls s) (hhand : inHand kind worker = inHand kind s.worker)
    (hleft : worker.hasLeft = s.worker.hasLeft) (hhandles : ∀ msg, worker ≠ .handles msg) :
    Flow kind calls { s with
      owner := owner, worker := worker, threadId := threadId, ready := ready
      receives := receives } := by
  refine ⟨?_, h.posted, h.program, h.noQuit, h.windowNoQuit, h.quit, ?_, ?_, ?_⟩
  · show s.posted = s.handled ++ inHand kind worker ++ s.queue
    rw [hhand]
    exact h.flow
  · intro hkind hworker
    exact h.drained hkind (hleft ▸ hworker)
  · intro hworker
    exact h.inTime (hleft ▸ hworker)
  · intro msg hworker
    exact absurd hworker (hhandles msg)

theorem flow_step (hphases : s.Phases) (h : Flow kind calls s) (hstep : s.step kind e = some t) :
    Flow kind calls t := by
  cases steps_of_step hstep with
  | start howner =>
    have hworker := hphases.started.mp howner
    exact flow_move h (by rw [hworker]; rfl) (by rw [hworker]; rfl) nofun
  | ready howner hset | timeout howner hset | leave howner hleft | throw howner hleft hfailed
  | join howner hended =>
    exact ⟨h.flow, h.posted, h.program, h.noQuit, h.windowNoQuit, h.quit, h.drained, h.inTime,
      h.handles⟩
  | @post c rest howner hleft hreceive =>
    refine flow_post h ?_ ?_ ?_
    · rintro rfl
      cases c <;> exact nofun
    · rw [← h.program, hleft, List.append_assoc]
      rfl
    · rw [List.filter_append, h.posted, List.map_append]
      cases kind <;> cases c <;> rfl
  | enter hworker | run hworker hlives | crash hworker hgone | create hworker hok | signal hworker
  | notCreated hworker hkind | finish hworker =>
    exact flow_move h (by rw [hworker]; rfl) (by rw [hworker]; rfl) nofun
  | @get _ msg rest hworker hqueue hmsg =>
    obtain ⟨hflow, hposted, hprogram, hno, hwindow, hquit, -, hinTime, -⟩ := h
    rw [hworker] at hinTime
    refine ⟨?_, hposted, hprogram, hno, hwindow, hquit, nofun, fun _ => hinTime rfl, ?_⟩
    · show s.posted = s.handled ++ [msg] ++ rest
      rw [hflow, hworker, hqueue, inHand_gets, List.append_nil]
      exact (List.append_assoc s.handled [msg] rest).symm
    · intro msg' heq
      rw [← Worker.handles.inj heq]
      exact hmsg
  | @getQuit _ rest hworker hqueue =>
    obtain ⟨hflow, hposted, hprogram, hno, hwindow, hquit, -, -, -⟩ := h
    rw [hworker, hqueue, inHand_gets, List.append_nil] at hflow
    have hkind : kind = .noWindowThread := by
      cases kind with
      | noWindowThread => rfl
      | windowThread => exact absurd (by rw [hflow]; simp) (hwindow rfl)
    refine ⟨?_, hposted, hprogram, hno, hwindow, hquit, ?_, nofun, nofun⟩
    · show s.posted = s.handled ++ inHand kind (.leaves 0) ++ rest
      rw [hflow, hkind, List.append_assoc]
      rfl
    · intro hother
      rw [hkind] at hother
      contradiction
  | quit hworker hqueue hset =>
    have hkind := (h.quit.mp hset).1
    obtain ⟨hflow, hposted, hprogram, hno, hwindow, hquit, -, hinTime, -⟩ := h
    rw [hworker] at hinTime
    refine ⟨?_, hposted, hprogram, hno, hwindow, hquit, fun _ _ => ?_, nofun, nofun⟩
    · show s.posted = s.handled ++ inHand kind (.leaves 0) ++ s.queue
      rw [hflow, hworker, hkind]
      rfl
    · exact ⟨hqueue.trans (hinTime rfl).symm, hset⟩
  | @handle _ msg hworker =>
    have hmsg := h.handles msg hworker
    obtain ⟨hflow, hposted, hprogram, hno, hwindow, hquit, -, hinTime, -⟩ := h
    rw [hworker] at hinTime
    refine ⟨?_, hposted, hprogram, ?_, hwindow, ?_, nofun, fun _ => hinTime rfl, nofun⟩
    · show s.posted = s.handled ++ [msg] ++ inHand kind .gets ++ s.queue
      rw [hflow, hworker, inHand_gets, List.append_nil]
      rfl
    · rw [List.mem_append, List.mem_singleton, not_or]
      exact ⟨hno, hmsg.symm⟩
    · show (s.quit || (kind = .windowThread && msg = .close)) = true ↔
        kind = .windowThread ∧ .close ∈ s.handled ++ [msg]
      rw [Bool.or_eq_true, hquit, Bool.and_eq_true, decide_eq_true_eq, decide_eq_true_eq,
        List.mem_append, List.mem_singleton, eq_comm (a := msg)]
      tauto
  | @system n hkind hreceive hended =>
    have hmsg : kind = .windowThread → Msg.system n ≠ .quitMsg := fun _ => nofun
    refine flow_post h hmsg h.program ?_
    rw [List.filter_append, h.posted]
    exact List.append_nil _

/-! ## Every interleaving ends -/

/-- What the owner has still to do. -/
def ownerRank (s : BaseThread) : ℕ :=
  match s.owner with
  | .start => 3 * s.left.length + 10
  | .waits => 3 * s.left.length + 3
  | .calls => 3 * s.left.length + 2
  | .joins => 1
  | .done => 0

/-- What the thread has still to do, without what is in its queue. -/
def workerRank (s : BaseThread) : ℕ :=
  match s.worker with
  | .notStarted => 0
  | .enters => 6
  | .runs => 5
  | .prepares => 4
  | .signals => 3
  | .gets => 2
  | .handles _ => 3
  | .leaves _ => 1
  | .ended _ => 0
  | .crashed => 0

def rank (s : BaseThread) : ℕ := s.ownerRank + s.workerRank + 2 * s.queue.length

/-- A step brings the end nearer, but for a message of the system. -/
theorem rank_step (hphases : s.Phases) (hstep : s.step kind e = some t) :
    t.rank + 1 ≤ s.rank + if e.isSystem then 3 else 0 := by
  unfold rank
  cases steps_of_step hstep with
  | start howner =>
    have hworker := hphases.started.mp howner
    simp only [ownerRank, workerRank, howner, hworker]
    omega
  | ready howner hset | timeout howner hset | join howner hended | leave howner hleft
  | throw howner hleft hfailed =>
    simp only [ownerRank, workerRank, howner]
    omega
  | post howner hleft hreceive =>
    simp only [ownerRank, workerRank, post, howner, hleft, List.length_cons, List.length_append,
      List.length_nil]
    omega
  | enter hworker | run hworker hlives | crash hworker hgone | create hworker hok | signal hworker
  | notCreated hworker hkind | handle hworker | quit hworker hqueue hset | finish hworker =>
    simp only [ownerRank, workerRank, hworker]
    omega
  | get hworker hqueue hmsg | getQuit hworker hqueue =>
    simp only [ownerRank, workerRank, hworker, hqueue, List.length_cons]
    omega
  | system hkind hreceive hended =>
    simp only [ownerRank, workerRank, post, Event.isSystem, List.length_append, List.length_cons,
      List.length_nil, if_true]
    omega

/-- No run goes on: each call of the owner takes three steps, and each message of the system two
and its own. -/
theorem length_le {events : List Event} (hrun : run (step kind) (initial calls) events = some s) :
    events.length ≤ 3 * calls.length + 10 + 3 * events.countP Event.isSystem := by
  have hle : ∀ s events t, s.Phases → run (step kind) s events = some t →
      events.length + t.rank ≤ s.rank + 3 * events.countP Event.isSystem := by
    intro s events t hphases hrun
    induction events generalizing s with
    | nil =>
      rw [run_nil, Option.some.injEq] at hrun
      rw [hrun, List.length_nil]
      omega
    | cons e events ih =>
      obtain ⟨u, hu, hrest⟩ := run_cons_eq_some.mp hrun
      have hstep := rank_step hphases hu
      have hlater := ih u (phases_step hphases hu) hrest
      rw [List.length_cons, List.countP_cons]
      split at hstep <;> simp_all <;> omega
  have hrank : (initial calls).rank = 3 * calls.length + 10 := rfl
  have := hle _ _ _ phases_initial hrun
  omega

/-! ## Where a run can stop -/

/-- The owner can always go on, but in the destructor and behind it. -/
theorem owner_of_stuck (hstuck : Stuck (step kind) Event.OfThreads s) :
    s.owner = .done ∨ s.owner = .joins ∧ s.hasEnded = false := by
  have hnone : s.ownerStep kind false = none := hstuck (.owner false) trivial
  unfold ownerStep at hnone
  cases howner : s.owner with
  | start => simp [howner] at hnone
  | waits =>
    simp only [howner] at hnone
    split at hnone <;> simp at hnone
  | calls =>
    simp only [howner] at hnone
    split at hnone <;> contradiction
  | joins => exact Or.inr ⟨rfl, by simpa [howner] using hnone⟩
  | done => exact Or.inl rfl

/-- The thread can go on until it waits for a message, or the process has ended. -/
theorem worker_of_stuck (hstarted : s.worker ≠ .notStarted) (hended : s.hasEnded = false)
    (hstuck : Stuck (step kind) Event.OfThreads s) :
    s.worker = .crashed ∨ s.worker = .gets ∧ s.queue = [] ∧ s.quit = false := by
  have hnone : s.workerStep kind true = none := hstuck (.worker true) trivial
  unfold workerStep at hnone
  cases hworker : s.worker with
  | notStarted => exact absurd hworker hstarted
  | ended code => simp [hasEnded, hworker] at hended
  | crashed => exact Or.inl rfl
  | gets =>
    simp only [hworker, getMessage] at hnone
    split at hnone
    · contradiction
    · next hqueue => exact Or.inr ⟨rfl, hqueue, by simpa using hnone⟩
  | prepares => cases kind <;> simp [hworker] at hnone
  | enters | runs | signals | handles msg | leaves code => simp [hworker] at hnone

/-- A quit that was posted is in the queue, or was handled, or has ended the loop. -/
theorem not_mem_accepted (h : Flow kind calls s) (hworker : s.worker = .gets)
    (hqueue : s.queue = []) (hquit : s.quit = false) : .postQuit ∉ s.accepted := by
  intro hmem
  have hcalls : kind.posts .postQuit ∈ s.posted.filter Msg.isCall := by
    rw [h.posted]
    exact List.mem_map_of_mem hmem
  have hposted := (List.mem_filter.mp hcalls).1
  rw [h.flow, hworker, hqueue, inHand_gets, List.append_nil, List.append_nil] at hposted
  cases kind with
  | noWindowThread => exact h.noQuit hposted
  | windowThread => simp [h.quit.mpr ⟨rfl, hposted⟩] at hquit

/-- No call has posted where the thread called `Run` too late. -/
theorem crashes (hphases : s.Phases) (hworker : s.worker = .crashed) : Crashes s := by
  have hready : s.ready = false := by
    rw [hphases.ready, hworker]
    rfl
  refine ⟨hphases.crashed hworker, hworker, hready, ?_⟩
  by_contra haccepted
  rw [hphases.accepted haccepted] at hready
  contradiction

/-- A run stops behind the destructor, where the destructor waits for a loop that was not told to
quit, or with the process. -/
theorem outcome_of_stuck (hphases : s.Phases) (h : Flow kind calls s)
    (hstuck : Stuck (step kind) Event.OfThreads s) : s.owner = .done ∨ Hangs s ∨ Crashes s := by
  obtain hdone | ⟨hjoins, hended⟩ := owner_of_stuck hstuck
  · exact Or.inl hdone
  have hstarted : s.worker ≠ .notStarted := by
    intro hworker
    rw [hphases.started.mpr hworker] at hjoins
    contradiction
  rcases worker_of_stuck hstarted hended hstuck with hworker | ⟨hworker, hqueue, hquit⟩
  · exact Or.inr (Or.inr (crashes hphases hworker))
  · exact Or.inr (Or.inl ⟨hjoins, hworker, hqueue, not_mem_accepted h hworker hqueue hquit⟩)

/-! ## Runs -/

/-- A call that has posted stays accepted. -/
theorem mem_accepted_step {c : Call} (h : c ∈ s.accepted) (hstep : s.step kind e = some t) :
    c ∈ t.accepted := by
  cases steps_of_step hstep with
  | post howner hleft hreceive => exact List.mem_append_left _ h
  | _ => exact h

theorem delivered (hphases : s.Phases) (h : Flow kind calls s) : Delivered kind calls s := by
  refine ⟨?_, h.posted, ⟨s.left, h.program⟩, canReceive_of_calls hphases, ?_, ?_⟩
  · rw [h.flow, List.append_assoc]
    exact List.prefix_append _ _
  · intro hkind hleft
    refine ⟨s.queue, ?_, h.noQuit⟩
    rw [h.flow, inHand_of_hasLeft hleft, if_pos hkind, List.append_assoc]
    rfl
  · intro hkind hleft
    obtain ⟨hqueue, hquit⟩ := h.drained hkind hleft
    refine ⟨?_, (h.quit.mp hquit).2⟩
    rw [h.flow, inHand_of_hasLeft hleft, if_neg (by simp [hkind]), List.append_nil, hqueue]

/-- **Every run, for both classes.** The messages are delivered as `Delivered` says. No run goes on
for ever. A run of the threads that cannot go on has left the destructor, or hangs there because no
quit was posted, or the process has ended because the wait for the thread timed out before the
thread had called `Run`; and once a quit was posted, the steps of the two threads lead out of the
destructor. -/
theorem threadQueue_run {events : List Event}
    (hrun : run (step kind) (initial calls) events = some s) :
    Delivered kind calls s ∧
    events.length ≤ 3 * calls.length + 10 + 3 * events.countP Event.isSystem ∧
    (Stuck (step kind) Event.OfThreads s → s.owner = .done ∨ Hangs s ∨ Crashes s) ∧
    (.postQuit ∈ s.accepted → ∃ more t, (∀ e ∈ more, e.OfThreads) ∧
      run (step kind) s more = some t ∧ t.owner = .done) := by
  have hinv : ∀ s e t, s.Phases ∧ Flow kind calls s → step kind s e = some t →
      t.Phases ∧ Flow kind calls t :=
    fun s e t h hstep => ⟨phases_step h.1 hstep, flow_step h.1 h.2 hstep⟩
  obtain ⟨hphases, hflow⟩ := run_invariant (fun s => s.Phases ∧ Flow kind calls s) hinv hrun
    ⟨phases_initial, flow_initial⟩
  refine ⟨delivered hphases hflow, length_le hrun, outcome_of_stuck hphases hflow, ?_⟩
  intro hquit
  have hkeeps : ∀ s e t, (s.Phases ∧ Flow kind calls s) ∧ .postQuit ∈ s.accepted →
      step kind s e = some t → (t.Phases ∧ Flow kind calls t) ∧ .postQuit ∈ t.accepted :=
    fun s e t h hstep => ⟨hinv s e t h.1 hstep, mem_accepted_step h.2 hstep⟩
  have hdown : ∀ s e t, (s.Phases ∧ Flow kind calls s) ∧ .postQuit ∈ s.accepted → e.OfThreads →
      step kind s e = some t →
      ((t.Phases ∧ Flow kind calls t) ∧ .postQuit ∈ t.accepted) ∧ t.rank < s.rank := by
    intro s e t h hthreads hstep
    refine ⟨hkeeps s e t h hstep, ?_⟩
    have hrank := rank_step h.1.1 hstep
    match e with
    | .owner ok => exact hrank
    | .worker ok => exact hrank
  obtain ⟨more, t, hthreads, hmore, hstuck⟩ := exists_run_stuck hdown ⟨⟨hphases, hflow⟩, hquit⟩
  obtain ⟨⟨hphases', hflow'⟩, hquit'⟩ := run_invariant _ hkeeps hmore ⟨⟨hphases, hflow⟩, hquit⟩
  refine ⟨more, t, hthreads, hmore, ?_⟩
  rcases outcome_of_stuck hphases' hflow' hstuck with hdone | hhangs | hcrashes
  · exact hdone
  · exact absurd hquit' hhangs.2.2.2
  · rw [hcrashes.2.2.2] at hquit'
    contradiction

/-- The thread is started, gets ready, and is sent the two messages of `Run`. -/
def sentBoth : List Event :=
  [.owner true, .worker true, .worker true, .worker true, .worker true, .owner true, .owner true,
    .owner true]

/-- The owner of `Run` gets out of the destructor. -/
theorem threadQueue_run_both :
    ∃ s, run (step .noWindowThread) (initial [.postMessage, .postQuit]) sentBoth = some s ∧
      ∃ more t, (∀ e ∈ more, e.OfThreads) ∧ run (step .noWindowThread) s more = some t ∧
        t.owner = .done := by
  obtain ⟨s, hs, hquit⟩ : ∃ s,
      run (step .noWindowThread) (initial [.postMessage, .postQuit]) sentBoth = some s ∧
        .postQuit ∈ s.accepted := ⟨_, rfl, by decide⟩
  exact ⟨s, hs, (threadQueue_run hs).2.2.2 hquit⟩

-- A window thread is told to quit and leaves its loop; the message posted then is lost.
example :
    (run (step .windowThread) (initial [.postQuit, .postMessage])
      [.owner true, .worker true, .worker true, .worker true, .worker true, .owner true,
        .owner true, .worker true, .worker true, .worker true, .owner true]).map
      (fun s => (s.worker, s.handled, s.late)) =
    some (.leaves 0, [.close], [.messageBase]) := by
  decide

-- The wait times out between the write of `m_threadId` and the call of `Run`.
example :
    (run (step .noWindowThread) (initial [])
      [.owner true, .worker true, .owner false, .worker true]).map BaseThread.worker =
    some .crashed := by
  decide

end BaseThread

end Win32Experiments.Win32Threads.ThreadMessageQueue
