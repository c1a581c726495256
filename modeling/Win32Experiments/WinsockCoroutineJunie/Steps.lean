import Win32Experiments.Foundation.Matching
import Win32Experiments.WinsockCoroutineJunie.Program

/-!
# What the steps do

What a suspended coroutine and its operation have to do with each other, what a coroutine that runs
leaves unchanged, and where the operations are before and behind a step.
-/

namespace Win32Experiments.WinsockCoroutineJunie

open Foundation

/-- The operation is one that a coroutine submits before it suspends itself in `f`. -/
def Frame.Submits (f : Frame) (op : Operation) : Prop :=
  match f with
  | .serverRun listenSock acceptSock => op.socket = listenSock ∧ op.request = .accept acceptSock
  | .handleRecv s _ | .clientRecv s _ => op.socket = s ∧ op.request = .recv bufferSize
  | .clientConnect s => op.socket = s ∧ op.request = .connect
  | .handleSend s _ | .clientSend s => op.socket = s ∧ ∃ done rest, op.request = .send done rest

/-- The coroutine is suspended at the `co_await` of the operation. -/
def Frame.Awaits (f : Frame) (op : Operation) : Prop :=
  op.overlapped.name = f.awaits ∧ f.Submits op

variable {f : Frame} {op op' : Operation} {data : List UInt8}

@[simp] theorem Frame.awaits_store : (f.store data).awaits = f.awaits := by
  cases f <;> rfl

@[simp] theorem Frame.sockets_store : (f.store data).sockets = f.sockets := by
  cases f <;> rfl

@[simp] theorem Frame.submits_store : (f.store data).Submits op ↔ f.Submits op := by
  cases f <;> rfl

/-- What the kernel writes to a frame does not change what the coroutine waits for. -/
theorem Frame.Awaits.store (h : f.Awaits op) (data : List UInt8) : (f.store data).Awaits op := by
  rw [Frame.Awaits, Frame.awaits_store, Frame.submits_store]
  exact h

/-- A send goes on with other bytes. -/
theorem Frame.Awaits.transmit {done rest done' rest' : List UInt8} (h : f.Awaits op)
    (hreq : op.request = .send done rest) :
    f.Awaits { op with request := .send done' rest' } := by
  refine ⟨h.1, ?_⟩
  have hsub := h.2
  cases f with
  | handleSend s buffer => exact ⟨hsub.1, done', rest', rfl⟩
  | clientSend s => exact ⟨hsub.1, done', rest', rfl⟩
  | serverRun listenSock acceptSock => exact absurd (hreq.symm.trans hsub.2) (by simp)
  | handleRecv s buffer => exact absurd (hreq.symm.trans hsub.2) (by simp)
  | clientConnect s => exact absurd (hreq.symm.trans hsub.2) (by simp)
  | clientRecv s recvBuf => exact absurd (hreq.symm.trans hsub.2) (by simp)

/-- The awaitable that a coroutine waits for is the one of its operation. -/
theorem Frame.Awaits.address_eq (h : f.Awaits op) :
    (⟨op.overlapped.frame, f.awaits⟩ : Address) = op.overlapped := by
  rw [← h.1]

/-- A coroutine waits for an operation on a socket of its own. -/
theorem Frame.Awaits.mem_sockets (h : f.Awaits op) : op.socket ∈ f.sockets := by
  have hsub := h.2
  cases f <;> simp [Frame.sockets, hsub.1]

/-- The lines that `Client::Run` prints when it has received or failed to. -/
def Line.isEnd : Line → Bool
  | .received _ | .receiveError _ | .finished => true
  | _ => false

namespace Program

variable {p q : Program} {items : List Operation} {locals : List ℕ} {i j k s listenSock : ℕ}
  {line : Line}

/-! ## Where a coroutine runs -/

/-- A coroutine that runs has a place for its frame. -/
def Runs (p : Program) (i : ℕ) : Prop :=
  i < p.frames.length ∧ objectAt p.frames i = none

@[simp] theorem frames_println : (p.println line).frames = p.frames := rfl

@[simp] theorem frames_socket : p.socket.frames = p.frames := rfl

@[simp] theorem frames_closesocket : (p.closesocket s).frames = p.frames := rfl

@[simp] theorem frames_use : (p.use s).frames = p.frames := rfl

@[simp] theorem frames_useInvalid : p.useInvalid.frames = p.frames := rfl

@[simp] theorem frames_leave : (p.leave s).frames = p.frames := rfl

@[simp] theorem frames_registerSocket {ok : Bool} : (p.RegisterSocket s ok).frames = p.frames := by
  unfold RegisterSocket
  split <;> rfl

/-- A coroutine that is called runs. -/
theorem runs_call : p.call.Runs p.frames.length := by
  constructor
  · show p.frames.length < (p.frames ++ [none]).length
    rw [List.length_append, List.length_singleton]
    omega
  · show objectAt (p.frames ++ [none]) p.frames.length = none
    rw [objectAt_concat_none, objectAt_length]

/-- Its caller goes on running when the called coroutine returns or suspends itself. -/
theorem Runs.handleClient {submitted : Bool} (hi : p.Runs i) :
    (p.handleClient s submitted).Runs i := by
  have hcall : p.call.Runs i := by
    constructor
    · show i < (p.frames ++ [none]).length
      rw [List.length_append]
      exact Nat.lt_add_right _ hi.1
    · show objectAt (p.frames ++ [none]) i = none
      rw [objectAt_concat_none]
      exact hi.2
  have hne : p.frames.length ≠ i := Nat.ne_of_gt hi.1
  rw [Program.handleClient, receive]
  cases submitted with
  | false => exact hcall
  | true =>
    constructor
    · show i < (p.call.frames.set p.frames.length _).length
      rw [List.length_set]
      exact hcall.1
    · show objectAt (p.call.frames.set p.frames.length _) i = none
      rw [objectAt_set_ne hne]
      exact hcall.2

/-- The program when the coroutine that waits for the packet runs: its result is written, and the
frame is not that of a suspended coroutine any more. -/
def delivered (p : Program) (packet : Packet) : Program :=
  { p with
    frames := p.frames.set packet.operation.overlapped.frame none
    awaitables := Function.update p.awaitables packet.operation.overlapped
      { p.awaitables packet.operation.overlapped with result := ⟨packet.bytes, packet.error⟩ } }

theorem runs_delivered {packet : Packet}
    (hf : objectAt p.frames packet.operation.overlapped.frame = some f) :
    (p.delivered packet).Runs packet.operation.overlapped.frame := by
  constructor
  · show _ < (p.frames.set _ none).length
    rw [List.length_set]
    exact lt_length_of_objectAt hf
  · exact objectAt_set_self hf none

theorem result_delivered {packet : Packet} :
    ((p.delivered packet).awaitables packet.operation.overlapped).result =
      ⟨packet.bytes, packet.error⟩ := by
  show (Function.update p.awaitables packet.operation.overlapped _ _).result = _
  rw [Function.update_self]

/-! ## What the coroutines do not change -/

/-- What a coroutine that runs does not change, except that `Client::Run` stops the program. -/
structure Keeps (p q : Program) : Prop where
  main : q.main = p.main
  port : q.port = p.port
  silent : q.silent = p.silent
  unclosed : q.unclosed = p.unclosed
  traffic : q.traffic = p.traffic
  stop : q.stop = p.stop
  output : q.output.filter Line.isEnd = p.output.filter Line.isEnd
  associated : p.associated ⊆ q.associated

theorem Keeps.trans {r : Program} (h : p.Keeps q) (h' : q.Keeps r) : p.Keeps r where
  main := h'.main.trans h.main
  port := h'.port.trans h.port
  silent := h'.silent.trans h.silent
  unclosed := h'.unclosed.trans h.unclosed
  traffic := h'.traffic.trans h.traffic
  stop := h'.stop.trans h.stop
  output := h'.output.trans h.output
  associated := List.Subset.trans h.associated h'.associated

theorem Keeps.setTraffic (h : p.Keeps q) (traffic : Traffic) :
    { p with traffic }.Keeps { q with traffic } :=
  { h with traffic := rfl }

theorem keeps_println (hline : line.isEnd = false) : p.Keeps (p.println line) := by
  refine ⟨rfl, rfl, rfl, rfl, rfl, rfl, ?_, List.Subset.refl _⟩
  show (p.output ++ [line]).filter _ = _
  rw [List.filter_append, List.filter_singleton, hline, Bool.cond_false, List.append_nil]

theorem keeps_socket : p.Keeps p.socket := ⟨rfl, rfl, rfl, rfl, rfl, rfl, rfl, List.Subset.refl _⟩

theorem keeps_closesocket : p.Keeps (p.closesocket s) :=
  ⟨rfl, rfl, rfl, rfl, rfl, rfl, rfl, List.Subset.refl _⟩

theorem keeps_use : p.Keeps (p.use s) := ⟨rfl, rfl, rfl, rfl, rfl, rfl, rfl, List.Subset.refl _⟩

theorem keeps_useInvalid : p.Keeps p.useInvalid :=
  ⟨rfl, rfl, rfl, rfl, rfl, rfl, rfl, List.Subset.refl _⟩

theorem keeps_call : p.Keeps p.call := ⟨rfl, rfl, rfl, rfl, rfl, rfl, rfl, List.Subset.refl _⟩

theorem keeps_suspend {socket : ℕ} {request : Request} : p.Keeps (p.suspend i f socket request) :=
  ⟨rfl, rfl, rfl, rfl, rfl, rfl, rfl, List.Subset.refl _⟩

theorem keeps_registerSocket {ok : Bool} : p.Keeps (p.RegisterSocket s ok) := by
  unfold RegisterSocket
  split
  · exact ⟨rfl, rfl, rfl, rfl, rfl, rfl, rfl, List.subset_cons_self _ _⟩
  · exact keeps_use.trans (keeps_println (by rfl))

theorem keeps_receive {buffer : List UInt8} {submitted : Bool} :
    p.Keeps (p.receive i s buffer submitted) := by
  unfold receive
  cases submitted with
  | true => exact keeps_use.trans keeps_suspend
  | false => exact keeps_use.trans keeps_closesocket

theorem keeps_handleClient {submitted : Bool} : p.Keeps (p.handleClient s submitted) :=
  keeps_call.trans keeps_receive

theorem keeps_acceptLoop {answer : AcceptCall} : p.Keeps (p.acceptLoop i listenSock answer) := by
  have hsocket : p.Keeps (p.socket.RegisterSocket p.sockets.opened answer.associated) :=
    keeps_socket.trans keeps_registerSocket
  unfold acceptLoop
  split
  · exact keeps_closesocket
  · split
    · split
      · exact ((hsocket.trans keeps_use).trans keeps_use).trans keeps_suspend
      · exact ((((hsocket.trans keeps_use).trans keeps_use).trans (keeps_println (by rfl))).trans
          keeps_closesocket).trans keeps_closesocket
    · have hline : Line.registerFailed.isEnd = false := rfl
      have hregister := (keeps_useInvalid (p := p)).trans (keeps_println hline)
      exact ((((hregister.trans keeps_use).trans keeps_useInvalid).trans
        (keeps_println (by rfl))).trans keeps_useInvalid).trans keeps_closesocket

/-- `Server::Run()` may leave a socket behind. -/
theorem keeps_serverRun {answer : ServerCall} :
    ∃ unclosed, { p with unclosed }.Keeps (p.serverRun answer) ∧
      unclosed.length ≤ p.unclosed.length + 1 := by
  have hsocket : p.Keeps (p.call.socket.RegisterSocket p.sockets.opened answer.associated) :=
    (keeps_call.trans keeps_socket).trans keeps_registerSocket
  have hleave {q : Program} (h : p.Keeps q) (s : ℕ) :
      { p with unclosed := s :: p.unclosed }.Keeps (q.leave s) :=
    { h with unclosed := congrArg (s :: ·) h.unclosed }
  have hlen (s : ℕ) : (s :: p.unclosed).length ≤ p.unclosed.length + 1 := Nat.le_refl _
  unfold serverRun
  split
  · split
    · split
      · refine ⟨p.unclosed, ?_, Nat.le_succ _⟩
        exact (((hsocket.trans keeps_use).trans keeps_use).trans (keeps_println (by rfl))).trans
          keeps_acceptLoop
      · refine ⟨_, hleave ?_ _, hlen _⟩
        exact ((hsocket.trans keeps_use).trans keeps_use).trans (keeps_println (by rfl))
    · refine ⟨_, hleave ?_ _, hlen _⟩
      exact (hsocket.trans keeps_use).trans (keeps_println (by rfl))
  · exact ⟨p.unclosed, keeps_call.trans (keeps_println (by rfl)), Nat.le_succ _⟩

/-- `Client::Run()` connects a socket, or not. -/
theorem keeps_clientRun {answer : ClientCall} :
    ∃ traffic, { p with traffic }.Keeps (p.clientRun answer) := by
  have hsocket : p.Keeps (p.call.socket.RegisterSocket p.sockets.opened answer.associated) :=
    (keeps_call.trans keeps_socket).trans keeps_registerSocket
  have hline : Line.connecting.isEnd = false := rfl
  have hconnecting := ((hsocket.trans (keeps_use (s := p.sockets.opened))).trans
    (keeps_println hline)).trans (keeps_use (s := p.sockets.opened))
  unfold clientRun
  split
  · split
    · exact ⟨_, (hconnecting.setTraffic _).trans keeps_suspend⟩
    · exact ⟨p.traffic, (hconnecting.trans (keeps_println rfl)).trans keeps_closesocket⟩
  · exact ⟨p.traffic, keeps_call.trans (keeps_println rfl)⟩

/-- Only `Client::Run` stops the program, when it has received or failed to. -/
theorem keeps_resume {answers : Answers} (hf : ∀ s recvBuf, f ≠ .clientRecv s recvBuf) :
    p.Keeps (p.resume i f answers) := by
  cases f with
  | serverRun listenSock acceptSock =>
    rw [resume]
    split
    · exact keeps_closesocket.trans keeps_closesocket
    · exact ((keeps_use.trans (keeps_println (by rfl))).trans keeps_handleClient).trans
        keeps_acceptLoop
  | handleRecv s buffer =>
    rw [resume]
    split
    · exact keeps_closesocket
    · split
      · exact keeps_use.trans keeps_suspend
      · exact keeps_use.trans keeps_closesocket
  | handleSend s buffer => exact keeps_receive
  | clientConnect s =>
    rw [resume]
    split
    · exact (keeps_println (by rfl)).trans keeps_closesocket
    · split
      · exact (((keeps_use.trans (keeps_println (by rfl))).trans (keeps_println (by rfl))).trans
          keeps_use).trans keeps_suspend
      · exact (((keeps_use.trans (keeps_println (by rfl))).trans (keeps_println (by rfl))).trans
          keeps_use).trans keeps_closesocket
  | clientSend s =>
    rw [resume]
    split
    · exact keeps_use.trans keeps_suspend
    · exact keeps_use.trans keeps_closesocket
  | clientRecv s recvBuf => exact absurd rfl (hf s recvBuf)

/-! ## What the kernel does not change -/

/-- What an end of an operation does not change. -/
structure Undisturbed (p q : Program) : Prop where
  main : q.main = p.main
  sockets : q.sockets = p.sockets
  unclosed : q.unclosed = p.unclosed
  stop : q.stop = p.stop
  output : q.output = p.output
  invalid : q.invalid = p.invalid
  client : q.traffic.client = p.traffic.client

theorem Undisturbed.trans {r : Program} (h : p.Undisturbed q) (h' : q.Undisturbed r) :
    p.Undisturbed r where
  main := h'.main.trans h.main
  sockets := h'.sockets.trans h.sockets
  unclosed := h'.unclosed.trans h.unclosed
  stop := h'.stop.trans h.stop
  output := h'.output.trans h.output
  invalid := h'.invalid.trans h.invalid
  client := h'.client.trans h.client

theorem undisturbed_report {bytes error : ℕ} : p.Undisturbed (p.report op bytes error) := by
  unfold report
  split <;> exact ⟨rfl, rfl, rfl, rfl, rfl, rfl, rfl⟩

@[simp] theorem traffic_report {bytes error : ℕ} :
    (p.report op bytes error).traffic = p.traffic := by
  unfold report
  split <;> rfl

@[simp] theorem traffic_store : (p.store i data).traffic = p.traffic := by
  unfold store
  split <;> rfl

theorem objectAt_store (hf : objectAt p.frames i = some f) :
    objectAt (p.store i data).frames i = some (f.store data) := by
  simp only [store, hf]
  exact objectAt_set_self hf _

@[simp] theorem associated_report {bytes error : ℕ} :
    (p.report op bytes error).associated = p.associated := by
  unfold report
  split <;> rfl

@[simp] theorem associated_store : (p.store i data).associated = p.associated := by
  unfold store
  split <;> rfl

@[simp] theorem port_store : (p.store i data).port = p.port := by
  unfold store
  split <;> rfl

theorem undisturbed_store : p.Undisturbed (p.store i data) := by
  unfold store
  split <;> exact ⟨rfl, rfl, rfl, rfl, rfl, rfl, rfl⟩

theorem associated_complete {outcome : Outcome} :
    (p.complete op outcome).associated = p.associated := by
  unfold complete
  split <;> simp

theorem undisturbed_complete {outcome : Outcome} : p.Undisturbed (p.complete op outcome) := by
  have htraffic (traffic : Traffic) (hclient : traffic.client = p.traffic.client) :
      p.Undisturbed { p with traffic } := ⟨rfl, rfl, rfl, rfl, rfl, rfl, hclient⟩
  unfold complete
  split
  · exact (htraffic _ (by rfl)).trans undisturbed_report
  · exact ((htraffic _ (by rfl)).trans undisturbed_store).trans undisturbed_report
  · exact (htraffic _ (by rfl)).trans undisturbed_report
  · exact undisturbed_report
  · exact undisturbed_report
  · exact undisturbed_report

/-! ## Packets -/

/-- A packet changes nothing else than the coroutine does that it resumes. -/
structure Delivers (p q : Program) : Prop where
  main : q.main = p.main
  port : q.port = p.port
  unclosed : q.unclosed = p.unclosed
  associated : p.associated ⊆ q.associated

theorem Delivers.trans {r : Program} (h : p.Delivers q) (h' : q.Delivers r) : p.Delivers r where
  main := h'.main.trans h.main
  port := h'.port.trans h.port
  unclosed := h'.unclosed.trans h.unclosed
  associated := List.Subset.trans h.associated h'.associated

theorem delivers_resume {answers : Answers} : p.Delivers (p.resume i f answers) := by
  by_cases hlast : ∃ s recvBuf, f = .clientRecv s recvBuf
  · obtain ⟨s, recvBuf, rfl⟩ := hlast
    exact ⟨rfl, rfl, rfl, List.Subset.refl _⟩
  · simp only [not_exists] at hlast
    have hkeeps : p.Keeps (p.resume i f answers) := keeps_resume hlast
    exact ⟨hkeeps.main, hkeeps.port, hkeeps.unclosed, hkeeps.associated⟩

theorem delivers_dispatch {packet : Packet} {answers : Answers} :
    p.Delivers (p.dispatch packet answers) := by
  unfold dispatch
  split
  · exact ⟨rfl, rfl, rfl, List.Subset.refl _⟩
  · simp only
    split
    · exact ⟨rfl, rfl, rfl, List.Subset.refl _⟩
    · split
      · exact ⟨rfl, rfl, rfl, List.Subset.refl _⟩
      · refine Delivers.trans ?_ delivers_resume
        exact ⟨rfl, rfl, rfl, List.Subset.refl _⟩

/-! ## Where an operation is -/

/-- The operations, when one of those in the kernel is set apart. -/
theorem perm_outstanding_pending (hk : p.pending[k]? = some op) :
    p.outstanding.Perm (op :: { p with pending := p.pending.eraseIdx k }.outstanding) := by
  obtain ⟨hlt, rfl⟩ := List.getElem?_eq_some_iff.mp hk
  show (p.pending ++ _ ++ _).Perm (_ :: (p.pending.eraseIdx k ++ _ ++ _))
  rw [List.append_assoc, List.append_assoc, ← List.cons_append]
  exact (List.getElem_cons_eraseIdx_perm hlt).symm.append_right _

theorem perm_outstanding_port {packet : Packet} {port : List Packet}
    (hport : p.port = packet :: port) :
    p.outstanding.Perm (packet.operation :: { p with port }.outstanding) := by
  show (p.pending ++ p.port.map _ ++ _).Perm (_ :: (p.pending ++ port.map _ ++ _))
  rw [hport, List.map_cons, List.append_assoc, List.append_assoc]
  exact List.perm_middle

theorem perm_outstanding_silent :
    (op :: p.outstanding).Perm { p with silent := p.silent ++ [op] }.outstanding := by
  show (_ :: p.outstanding).Perm (_ ++ (p.silent ++ [op]))
  rw [← List.append_assoc]
  exact List.perm_append_singleton op _ |>.symm

theorem perm_outstanding_report {bytes error : ℕ} :
    (op :: p.outstanding).Perm (p.report op bytes error).outstanding := by
  rw [report]
  split
  · show (_ :: (p.pending ++ p.port.map _ ++ _)).Perm (p.pending ++ (p.port ++ [_]).map _ ++ _)
    rw [List.map_append, List.map_singleton, List.append_assoc, List.append_assoc,
      List.append_assoc, ← List.append_assoc p.pending, ← List.append_assoc p.pending]
    exact List.perm_middle.symm
  · exact perm_outstanding_silent

@[simp] theorem outstanding_println : (p.println line).outstanding = p.outstanding := rfl

@[simp] theorem outstanding_use : (p.use s).outstanding = p.outstanding := rfl

@[simp] theorem outstanding_useInvalid : p.useInvalid.outstanding = p.outstanding := rfl

@[simp] theorem outstanding_closesocket : (p.closesocket s).outstanding = p.outstanding := rfl

@[simp] theorem outstanding_store : (p.store i data).outstanding = p.outstanding := by
  rw [store]
  split <;> rfl

/-! ## Steps -/

/-- What a step can do. -/
inductive StepsTo (p : Program) : Event → Program → Prop where
  | serverRun (answer : ServerCall) (hmain : p.main = .server) :
    StepsTo p (.serverRun answer) { p.serverRun answer with main := .client }
  | clientRun (answer : ClientCall) (hmain : p.main = .client) :
    StepsTo p (.clientRun answer) { p.clientRun answer with main := .loop }
  | dequeue (packet : Packet) (port : List Packet) (answers : Answers) (hmain : p.main = .loop)
    (hstop : p.stop = false) (hport : p.port = packet :: port) :
    StepsTo p (.dequeue answers) ({ p with port }.dispatch packet answers)
  | exit (hmain : p.main = .loop) (hstop : p.stop = true) :
    StepsTo p .exit { p with main := .exited }
  | transmit (k n : ℕ) (op : Operation) (done rest : List UInt8) (hk : p.pending[k]? = some op)
    (hreq : op.request = .send done rest) :
    StepsTo p (.transmit k n) (p.transmit k n op done rest)
  | complete (k : ℕ) (op : Operation) (outcome : Outcome) (hk : p.pending[k]? = some op)
    (hpermits : p.traffic.Permits op outcome = true) :
    StepsTo p (.complete k outcome) ({ p with pending := p.pending.eraseIdx k }.complete op outcome)

theorem stepsTo_of_step {e : Event} (hstep : p.step e = some q) : p.StepsTo e q := by
  cases e with
  | serverRun answer =>
    rw [step] at hstep
    split at hstep
    · next hmain => exact Option.some.inj hstep ▸ .serverRun answer hmain
    · contradiction
  | clientRun answer =>
    rw [step] at hstep
    split at hstep
    · next hmain => exact Option.some.inj hstep ▸ .clientRun answer hmain
    · contradiction
  | dequeue answers =>
    rw [step] at hstep
    split at hstep
    · next hloop =>
      split at hstep
      · contradiction
      · next packet port hport =>
        exact Option.some.inj hstep ▸ .dequeue packet port answers hloop.1 hloop.2 hport
    · contradiction
  | exit =>
    rw [step] at hstep
    split at hstep
    · next hloop => exact Option.some.inj hstep ▸ .exit hloop.1 hloop.2
    · contradiction
  | transmit k n =>
    rw [step] at hstep
    split at hstep
    · contradiction
    · next op hk =>
      split at hstep
      · next done rest hreq => exact Option.some.inj hstep ▸ .transmit k n op done rest hk hreq
      · contradiction
  | complete k outcome =>
    rw [step] at hstep
    split at hstep
    · contradiction
    · next op hk =>
      split at hstep
      · next hpermits => exact Option.some.inj hstep ▸ .complete k op outcome hk hpermits
      · contradiction

end Program

end Win32Experiments.WinsockCoroutineJunie
