import Win32Experiments.Foundation.Progress
import Win32Experiments.WinsockCoroutineJunie.ResumptionTheorems

/-!
# How the program ends

`main` leaves its loop when `Client::Run` has come to its end. It does not when this returns early,
or when no packet will tell of its operation: then `g_stop` stays `false` and the loop goes on
forever. The states from which the program can still exit are exactly those in which an operation
of the client can still be heard of.
-/

namespace Win32Experiments.WinsockCoroutineJunie

open Foundation

/-- A frame of `Client::Run`. -/
def Frame.isClient : Frame → Bool
  | .clientConnect _ | .clientSend _ | .clientRecv .. => true
  | _ => false

/-- A frame of `Client::Run` that does not return early behind an operation with this error. -/
def Frame.goesOn (error : ℕ) : Frame → Bool
  | .clientConnect _ => error = 0
  | .clientSend _ | .clientRecv .. => true
  | _ => false

theorem Frame.isClient_of_goesOn {f : Frame} {error : ℕ} (h : f.goesOn error = true) :
    f.isClient = true := by
  cases f with
  | clientConnect s => rfl
  | clientSend s => rfl
  | clientRecv s recvBuf => rfl
  | serverRun listenSock acceptSock => exact h
  | handleRecv s buffer => exact h
  | handleSend s buffer => exact h

/-- How often `Client::Run` has still to be resumed. -/
def Frame.stage : Frame → ℕ
  | .clientConnect _ => 3
  | .clientSend _ => 2
  | .clientRecv .. => 1
  | _ => 0

@[simp] theorem Frame.isClient_store {f : Frame} {data : List UInt8} :
    (f.store data).isClient = f.isClient := by
  cases f <;> rfl

namespace Program

variable {p q : Program} {f : Frame} {op : Operation} {items : List Operation} {locals : List ℕ}
  {i k s listenSock : ℕ} {line : Line} {data : List UInt8}

/-- An operation of the client is in the kernel and will be reported, or was reported and the
client goes on behind it. -/
def CanFinish (p : Program) : Prop :=
  (∃ op ∈ p.pending, op.socket ∈ p.associated ∧
    ∃ f, objectAt p.frames op.overlapped.frame = some f ∧ f.isClient = true) ∨
  ∃ packet ∈ p.port, packet.error ≠ WAIT_TIMEOUT ∧
    ∃ f, objectAt p.frames packet.operation.overlapped.frame = some f ∧
      f.goesOn packet.error = true

/-! ## What stays lost -/

/-- No operation of the client will be heard of. -/
def Lost (p : Program) : Prop :=
  p.Each (fun f op => f.isClient = true → op.socket ∉ p.associated)
    fun f packet => f.goesOn packet.error = true → packet.error = WAIT_TIMEOUT

theorem lost_iff : p.Lost ↔ ¬ p.CanFinish := by
  constructor
  · rintro hlost (⟨op, hop, hassociated, f, hf, hclient⟩ | ⟨packet, hpacket, herror, f, hf, hgoes⟩)
    · exact hlost.pending op hop f hf hclient hassociated
    · exact herror (hlost.port packet hpacket f hf hgoes)
  · intro hnot
    constructor
    · intro op hop f hf hclient hassociated
      exact hnot (Or.inl ⟨op, hop, hassociated, f, hf, hclient⟩)
    · intro packet hpacket f hf hgoes
      by_contra herror
      exact hnot (Or.inr ⟨packet, hpacket, herror, f, hf, hgoes⟩)

namespace Lost

theorem println (hl : p.Lost) (line : Line) : (p.println line).Lost := { hl with }

theorem use (hl : p.Lost) : (p.use s).Lost := { hl with }

theorem useInvalid (hl : p.Lost) : p.useInvalid.Lost := { hl with }

theorem closesocket (hl : p.Lost) : (p.closesocket s).Lost := { hl with }

/-- A socket that is made now is not the one that the client waits at. -/
theorem socket_registerSocket (hl : p.Lost) (hs : p.Safe p.outstanding locals) (ok : Bool) :
    (p.socket.RegisterSocket p.sockets.opened ok).Lost := by
  rw [RegisterSocket]
  split
  · have heach : p.Each
        (fun f op => f.isClient = true → op.socket ∉ p.sockets.opened :: p.associated)
        fun f packet => f.goesOn packet.error = true → packet.error = WAIT_TIMEOUT := by
      refine hl.imp (fun f op hop hf hnot hclient hmem => ?_) fun f packet _ _ h => h
      rcases List.mem_cons.mp hmem with heq | hmem
      · have hlive := hs.live_socket hop
        have hlt : op.socket < p.sockets.opened := hlive.1
        omega
      · exact hnot hclient hmem
    exact { heach with }
  · exact { hl with }

theorem call (hl : p.Lost) : p.call.Lost := Each.call hl

/-- Another coroutine suspends itself. -/
theorem suspend {request : Request} {socket : ℕ} (hl : p.Lost)
    (hs : p.Safe p.outstanding locals) (hi : p.Runs i) (hf : f.isClient = false) :
    (p.suspend i f socket request).Lost :=
  Each.suspend hl hs hi fun hclient => absurd (hf.symm.trans hclient) (by simp)

theorem receive {buffer : List UInt8} (hl : p.Lost) (hs : p.Safe p.outstanding (s :: locals))
    (hi : p.Runs i) (submitted : Bool) : (p.receive i s buffer submitted).Lost := by
  rw [Program.receive, hs.use_eq List.mem_cons_self]
  cases submitted with
  | true => exact hl.suspend hs hi rfl
  | false => exact hl.closesocket

theorem handleClient (hl : p.Lost) (hs : p.Safe p.outstanding (s :: locals)) (submitted : Bool) :
    (p.handleClient s submitted).Lost :=
  receive hl.call hs.call runs_call submitted

theorem acceptLoop (hl : p.Lost) (hs : p.Safe p.outstanding [listenSock]) (hi : p.Runs i)
    (answer : AcceptCall) : (p.acceptLoop i listenSock answer).Lost := by
  rw [Program.acceptLoop]
  split
  · exact hl.closesocket
  · split
    · have hsocket := hs.socket_registerSocket answer.associated
      have hlost := hl.socket_registerSocket hs answer.associated
      have hlisten := hsocket.use_eq (List.mem_cons_of_mem _ List.mem_cons_self)
      have haccept := hsocket.use_eq List.mem_cons_self
      simp only [hlisten, haccept]
      split
      · refine hlost.suspend hsocket ?_ rfl
        rw [Runs, frames_registerSocket, frames_socket]
        exact hi
      · exact ((hlost.println _).closesocket).closesocket
    · have hfailed := ((hl.useInvalid.println .registerFailed).use (s := listenSock)).useInvalid
      exact ((hfailed.println .acceptFailed).useInvalid).closesocket

/-- A coroutine that is resumed and is not the client, or that returns early. -/
theorem resume (hl : p.Lost) (hs : p.Safe p.outstanding f.sockets) (hi : p.Runs i)
    (answers : Answers)
    (hgoes : f.goesOn (p.awaitables ⟨i, f.awaits⟩).result.error = false) :
    (p.resume i f answers).Lost := by
  cases f with
  | serverRun listenSock acceptSock =>
    rw [Program.resume]
    split
    · exact hl.closesocket.closesocket
    · rw [hs.use_eq List.mem_cons_self]
      have hsafe := (hs.println .clientConnected).handleClient answers.submitted
      have hlost := (hl.println .clientConnected).handleClient (hs.println .clientConnected)
        answers.submitted
      exact hlost.acceptLoop hsafe (Runs.handleClient hi) answers.accept
  | handleRecv s buffer =>
    rw [Program.resume]
    split
    · exact hl.closesocket
    · rw [hs.use_eq List.mem_cons_self]
      split
      · exact hl.suspend hs hi rfl
      · exact hl.closesocket
  | handleSend s buffer => exact hl.receive hs hi answers.submitted
  | clientConnect s =>
    have herror : (p.awaitables ⟨i, (Frame.clientConnect s).awaits⟩).result.error ≠ 0 :=
      of_decide_eq_false hgoes
    rw [Program.resume, if_pos herror]
    exact (hl.println _).closesocket
  | clientSend s => contradiction
  | clientRecv s recvBuf => contradiction

theorem delivered {packet : Packet} (hl : p.Lost) : (p.delivered packet).Lost := Each.delivered hl

/-- A packet that the client does not go on behind leaves it lost, and does not stop the program. -/
theorem dispatch {packet : Packet} {port : List Packet} (hl : p.Lost)
    (hs : p.Safe p.outstanding []) (hport : p.port = packet :: port) (answers : Answers) :
    ({ p with port }.dispatch packet answers).Lost ∧
      ({ p with port }.dispatch packet answers).stop = p.stop := by
  have htaken : { p with port }.Safe (packet.operation :: { p with port }.outstanding) [] :=
    { hs.perm (perm_outstanding_port hport) with }
  have htail : { p with port }.Lost := Each.tail hl hport
  by_cases herror : packet.error = WAIT_TIMEOUT
  · rw [Program.dispatch, if_pos herror]
    exact ⟨{ htail with }, rfl⟩
  · obtain ⟨f, hf, hawaits⟩ := htaken.exists_frame
    have hgoes : f.goesOn packet.error = false := by
      rw [← Bool.not_eq_true]
      intro hgoes
      exact herror (hl.port packet (hport ▸ List.mem_cons_self) f hf hgoes)
    rw [htaken.dispatch_eq hf herror]
    constructor
    · refine resume htail.delivered (htaken.delivered hf) (runs_delivered hf) answers ?_
      rw [hawaits.address_eq, result_delivered]
      exact hgoes
    · have hnot : ∀ s recvBuf, f ≠ .clientRecv s recvBuf := by
        rintro s recvBuf rfl
        contradiction
      exact (keeps_resume hnot).stop

theorem report {bytes error : ℕ} (hl : p.Lost)
    (hlost : ∀ f, objectAt p.frames op.overlapped.frame = some f → f.isClient = true →
      op.socket ∉ p.associated) : (p.report op bytes error).Lost := by
  unfold Lost
  rw [associated_report]
  refine Each.report hl fun hassociated f hf hgoes => ?_
  exact absurd hassociated (hlost f hf (Frame.isClient_of_goesOn hgoes))

theorem store (hl : p.Lost) (hs : p.Safe (op :: p.outstanding) locals) (data : List UInt8) :
    (p.store op.overlapped.frame data).Lost := by
  unfold Lost
  rw [associated_store]
  exact Each.store hl hs data

/-- An operation that is set apart ends, and is not reported where it is one of the client. -/
theorem complete (hl : p.Lost) (hs : p.Safe (op :: p.outstanding) locals)
    (hlost : ∀ f, objectAt p.frames op.overlapped.frame = some f → f.isClient = true →
      op.socket ∉ p.associated) (outcome : Outcome) : (p.complete op outcome).Lost := by
  have htraffic (traffic : Traffic) : { p with traffic }.Lost := { hl with }
  unfold Program.complete
  split
  · exact report (htraffic _) hlost
  · next size data _ =>
    have hsafe : { p with traffic := p.traffic.receive op.socket data }.Safe
        (op :: { p with traffic := p.traffic.receive op.socket data }.outstanding) locals :=
      { hs with }
    obtain ⟨f, hf, -⟩ := hs.exists_frame
    have hstored : objectAt ({ p with traffic := p.traffic.receive op.socket data }.store
        op.overlapped.frame data).frames op.overlapped.frame = some (f.store data) :=
      objectAt_store hf
    refine report ((htraffic _).store hsafe data) fun g hg hclient => ?_
    rw [hstored, Option.some.injEq] at hg
    rw [← hg, Frame.isClient_store] at hclient
    rw [associated_store]
    exact hlost f hf hclient
  · exact report (htraffic _) hlost
  · exact report hl hlost
  · exact report hl hlost
  · exact report hl hlost

end Lost

/-- The loop of `main` goes on, and the client is lost. -/
structure Astray (p : Program) : Prop where
  safe : p.Safe p.outstanding []
  lost : p.Lost
  main : p.main = .loop
  stop : p.stop = false

theorem Astray.step {e : Event} (h : p.Astray) (hstep : p.step e = some q) : q.Astray := by
  have hsafe := h.safe.step hstep
  cases stepsTo_of_step hstep with
  | serverRun answer hserver => exact absurd (h.main.symm.trans hserver) (by simp)
  | clientRun answer hclient => exact absurd (h.main.symm.trans hclient) (by simp)
  | dequeue packet port answers _ _ hport =>
    obtain ⟨hlost, hkeeps⟩ := h.lost.dispatch h.safe hport answers
    exact ⟨hsafe, hlost, delivers_dispatch.main.trans h.main, hkeeps.trans h.stop⟩
  | exit _ hstop => exact absurd (h.stop.symm.trans hstop) (by simp)
  | transmit k n op done rest hk hreq =>
    have hold := h.lost.pending op (List.mem_of_getElem? hk)
    have heach := Each.insert hk (Each.erase h.lost k)
      { op with request := .send (done ++ rest.take n) (rest.drop n) } hold
    exact ⟨hsafe, { heach with }, h.main, h.stop⟩
  | complete k op outcome hk hpermits =>
    have htaken : { p with pending := p.pending.eraseIdx k }.Safe
        (op :: { p with pending := p.pending.eraseIdx k }.outstanding) [] :=
      { h.safe.perm (perm_outstanding_pending hk) with }
    have herased : { p with pending := p.pending.eraseIdx k }.Lost := Each.erase h.lost k
    have hlost := herased.complete htaken (h.lost.pending op (List.mem_of_getElem? hk)) outcome
    exact ⟨hsafe, hlost, undisturbed_complete.main.trans h.main,
      undisturbed_complete.stop.trans h.stop⟩

/-! ## What can still be heard of -/

/-- `main` is in its loop and goes on, and the packets are those of sockets that are associated. -/
structure Alive (p : Program) : Prop where
  safe : p.Safe p.outstanding []
  reported : ∀ packet ∈ p.port, packet.operation.socket ∈ p.associated
  main : p.main = .loop
  stop : p.stop = false

/-- Some run leads out of the loop. -/
def Exits (p : Program) : Prop := CanReach step (fun q => q.main = .exited) p

theorem exits_of_stop (hmain : p.main = .loop) (hstop : p.stop = true) : p.Exits := by
  have hstep : p.step .exit = some { p with main := .exited } := by
    rw [step, if_pos ⟨hmain, hstop⟩]
  exact canReach_of_step hstep (canReach_of_now rfl)

theorem step_dequeue {packet : Packet} {port : List Packet} (ha : p.Alive)
    (hport : p.port = packet :: port) (answers : Answers) :
    p.step (.dequeue answers) = some ({ p with port }.dispatch packet answers) := by
  rw [step, if_pos ⟨ha.main, ha.stop⟩, hport]

/-- What is refused leaves the coroutines that wait as they are. -/
def refuse : Answers := ⟨false, ⟨false, false, false⟩⟩

theorem objectAt_refused (j : ℕ) :
    objectAt (p.resume i f refuse).frames j = objectAt p.frames j := by
  cases f with
  | serverRun listenSock acceptSock =>
    have hcall : objectAt (p.frames ++ [none]) j = objectAt p.frames j := objectAt_concat_none
    rw [resume]
    split
    · rfl
    · rw [acceptLoop]
      split
      · exact hcall
      · exact hcall
  | handleRecv s buffer =>
    rw [resume]
    split <;> rfl
  | handleSend s buffer => rfl
  | clientConnect s =>
    rw [resume]
    split <;> rfl
  | clientSend s => rfl
  | clientRecv s recvBuf => rfl

/-- A packet is taken, and the program goes on. -/
theorem Alive.dispatch {packet : Packet} {port : List Packet} (ha : p.Alive)
    (hport : p.port = packet :: port) (answers : Answers)
    (hstop : ({ p with port }.dispatch packet answers).stop = false) :
    ({ p with port }.dispatch packet answers).Alive where
  safe := ha.safe.step (step_dequeue ha hport answers)
  reported other hother := by
    rw [delivers_dispatch.port] at hother
    have hmem : other ∈ p.port := hport ▸ List.mem_cons_of_mem packet hother
    exact delivers_dispatch.associated (ha.reported other hmem)
  main := delivers_dispatch.main.trans ha.main
  stop := hstop

/-- An operation of the client, which has to be resumed `n` times, is in the kernel. -/
def Waits (p : Program) (n : ℕ) : Prop :=
  ∃ (k : ℕ) (op : Operation) (f : Frame), p.pending[k]? = some op ∧ op.socket ∈ p.associated ∧
    objectAt p.frames op.overlapped.frame = some f ∧ f.isClient = true ∧ f.stage = n

theorem waits_suspend {request : Request} (hi : p.Runs i) (hs : s ∈ p.associated)
    (hclient : f.isClient = true) : (p.suspend i f s request).Waits f.stage := by
  refine ⟨p.pending.length, _, f, List.getElem?_concat_length, hs, ?_, hclient, rfl⟩
  exact objectAt_set_of_lt hi.1 _

theorem resume_clientConnect (hs : p.Safe p.outstanding [s])
    (herror : (p.awaitables ⟨i, .connectOp⟩).result.error = 0) :
    p.resume i (.clientConnect s) grant =
      ((p.println .connected).println .sending).suspend i (.clientSend s) s (.send [] message) := by
  have hsending := (hs.println .connected).println .sending
  have herror' : ¬ (p.awaitables ⟨i, (Frame.clientConnect s).awaits⟩).result.error ≠ 0 :=
    fun h => h herror
  rw [resume, if_neg herror', hs.use_eq List.mem_cons_self, hsending.use_eq List.mem_cons_self]
  rfl

theorem resume_clientSend (hs : p.Safe p.outstanding [s]) :
    p.resume i (.clientSend s) grant =
      p.suspend i (.clientRecv s (List.replicate bufferSize 0)) s (.recv bufferSize) := by
  rw [resume, hs.use_eq List.mem_cons_self]
  rfl

/-- The packet of the client is the next one: the client is resumed once more. -/
theorem exits_of_next {packet : Packet} {port : List Packet} (ha : p.Alive)
    (hport : p.port = packet :: port) (herror : packet.error ≠ WAIT_TIMEOUT)
    (hf : objectAt p.frames packet.operation.overlapped.frame = some f)
    (hgoes : f.goesOn packet.error = true)
    (hlater : ∀ q : Program, q.Alive → q.Waits (f.stage - 1) → q.Exits) : p.Exits := by
  have hstep := step_dequeue ha hport grant
  have htaken : { p with port }.Safe (packet.operation :: { p with port }.outstanding) [] :=
    { ha.safe.perm (perm_outstanding_port hport) with }
  have hawaits : f.Awaits packet.operation :=
    htaken.matching.agrees packet.operation List.mem_cons_self f hf
  have hassociated : packet.operation.socket ∈ p.associated :=
    ha.reported packet (hport ▸ List.mem_cons_self)
  have hsafe := htaken.delivered hf
  have hruns : ({ p with port }.delivered packet).Runs packet.operation.overlapped.frame :=
    runs_delivered hf
  have heq := htaken.dispatch_eq hf herror grant
  refine canReach_of_step hstep ?_
  cases f with
  | clientConnect s =>
    obtain ⟨hsocket, -⟩ := hawaits.2
    rw [hsocket] at hassociated
    have haddress : (⟨packet.operation.overlapped.frame, .connectOp⟩ : Address) =
        packet.operation.overlapped := hawaits.address_eq
    rw [resume_clientConnect hsafe (by
      rw [haddress, result_delivered]
      exact of_decide_eq_true hgoes)] at heq
    refine hlater _ (ha.dispatch hport grant ?_) ?_
    · rw [heq]
      exact ha.stop
    · rw [heq]
      exact waits_suspend hruns hassociated rfl
  | clientSend s =>
    obtain ⟨hsocket, -⟩ := hawaits.2
    rw [hsocket] at hassociated
    rw [resume_clientSend hsafe] at heq
    refine hlater _ (ha.dispatch hport grant ?_) ?_
    · rw [heq]
      exact ha.stop
    · rw [heq]
      exact waits_suspend hruns hassociated rfl
  | clientRecv s recvBuf =>
    apply exits_of_stop
    · exact delivers_dispatch.main.trans ha.main
    · rw [heq]
      rfl
  | serverRun listenSock acceptSock => contradiction
  | handleRecv s buffer => contradiction
  | handleSend s buffer => contradiction

/-- A packet before the one of the client is taken, and the client waits as before. -/
theorem objectAt_dispatch_refused {first packet : Packet} {port : List Packet} (ha : p.Alive)
    (hport : p.port = first :: port) (hmem : packet ∈ port)
    (hf : objectAt p.frames packet.operation.overlapped.frame = some f) :
    objectAt ({ p with port }.dispatch first refuse).frames packet.operation.overlapped.frame =
      some f := by
  have htaken : { p with port }.Safe (first.operation :: { p with port }.outstanding) [] :=
    { ha.safe.perm (perm_outstanding_port hport) with }
  have hout : packet.operation ∈ { p with port }.outstanding :=
    List.mem_append_left _ (List.mem_append_right _ (List.mem_map_of_mem hmem))
  by_cases herror : first.error = WAIT_TIMEOUT
  · rw [dispatch, if_pos herror]
    exact hf
  · obtain ⟨g, hg, -⟩ := htaken.exists_frame
    rw [htaken.dispatch_eq hg herror, objectAt_refused]
    show objectAt (p.frames.set _ none) _ = _
    rw [objectAt_set_ne (htaken.frame_ne hout)]
    exact hf

/-- The packet of the client is in the port: what is before it is taken first. -/
theorem exits_of_queued {packet : Packet} {n : ℕ} (ha : p.Alive)
    (hn : p.port[n]? = some packet) (herror : packet.error ≠ WAIT_TIMEOUT)
    (hf : objectAt p.frames packet.operation.overlapped.frame = some f)
    (hgoes : f.goesOn packet.error = true)
    (hlater : ∀ q : Program, q.Alive → q.Waits (f.stage - 1) → q.Exits) : p.Exits := by
  induction n generalizing p with
  | zero =>
    cases hport : p.port with
    | nil => simp [hport] at hn
    | cons first port =>
      rw [hport, List.getElem?_cons_zero, Option.some.injEq] at hn
      subst hn
      exact exits_of_next ha hport herror hf hgoes hlater
  | succ n ih =>
    cases hport : p.port with
    | nil => simp [hport] at hn
    | cons first port =>
      rw [hport, List.getElem?_cons_succ] at hn
      refine canReach_of_step (step_dequeue ha hport refuse) ?_
      cases hstop : ({ p with port }.dispatch first refuse).stop with
      | true => exact exits_of_stop (delivers_dispatch.main.trans ha.main) hstop
      | false =>
        apply ih (ha.dispatch hport refuse hstop)
        · rw [delivers_dispatch.port]
          exact hn
        · exact objectAt_dispatch_refused ha hport (List.mem_of_getElem? hn) hf

/-- How an operation of the client may end so that this goes on. -/
theorem exists_outcome (hawaits : f.Awaits op) (hclient : f.isClient = true) :
    ∃ outcome traffic bytes error, p.traffic.Permits op outcome = true ∧
      f.goesOn error = true ∧ error ≠ WAIT_TIMEOUT ∧
      ∀ q : Program, q.traffic = p.traffic →
        q.complete op outcome = { q with traffic }.report op bytes error := by
  cases f with
  | clientConnect s =>
    obtain ⟨-, hreq⟩ := hawaits.2
    refine ⟨.connected, p.traffic, 0, 0, ?_, rfl, by decide, fun q hq => ?_⟩
    · simp [Traffic.Permits, hreq]
    · simp only [complete, hreq, ← hq]
  | clientSend s =>
    obtain ⟨-, done, rest, hreq⟩ := hawaits.2
    refine ⟨.failed 1, p.traffic.cut rest, 0, 1, rfl, rfl, by decide, fun q hq => ?_⟩
    simp only [complete, hreq, ← hq]
  | clientRecv s recvBuf =>
    obtain ⟨-, hreq⟩ := hawaits.2
    refine ⟨.failed 1, p.traffic, 0, 1, rfl, rfl, by decide, fun q hq => ?_⟩
    simp only [complete, hreq, ← hq]
  | serverRun listenSock acceptSock => contradiction
  | handleRecv s buffer => contradiction
  | handleSend s buffer => contradiction

/-- The operation of the client is in the kernel: it may end, and is reported. -/
theorem exits_of_kernel (ha : p.Alive) (hk : p.pending[k]? = some op)
    (hassociated : op.socket ∈ p.associated)
    (hf : objectAt p.frames op.overlapped.frame = some f) (hclient : f.isClient = true)
    (hlater : ∀ q : Program, q.Alive → q.Waits (f.stage - 1) → q.Exits) : p.Exits := by
  have hawaits : f.Awaits op := by
    have hmem : op ∈ p.outstanding :=
      List.mem_append_left _ (List.mem_append_left _ (List.mem_of_getElem? hk))
    exact ha.safe.matching.agrees op hmem f hf
  obtain ⟨outcome, traffic, bytes, error, hpermits, hgoes, herror, hcomplete⟩ :=
    exists_outcome (p := p) hawaits hclient
  have hstep : p.step (.complete k outcome) =
      some { p with
        pending := p.pending.eraseIdx k
        traffic
        port := p.port ++ [⟨op, bytes, error⟩] } := by
    have hdone := hcomplete { p with pending := p.pending.eraseIdx k } rfl
    simp only [step, hk, hpermits, if_true]
    rw [hdone, report, if_pos hassociated]
  refine canReach_of_step hstep (exits_of_queued ?_ List.getElem?_concat_length herror hf hgoes
    hlater)
  refine ⟨ha.safe.step hstep, fun packet hpacket => ?_, ha.main, ha.stop⟩
  rcases List.mem_append.mp hpacket with hpacket | hpacket
  · exact ha.reported packet hpacket
  · obtain rfl := List.mem_singleton.mp hpacket
    exact hassociated

theorem exits_of_waits {n : ℕ} (ha : p.Alive) (hw : p.Waits n) : p.Exits := by
  induction n using Nat.strongRecOn generalizing p with
  | ind n ih =>
    obtain ⟨k, op, f, hk, hassociated, hf, hclient, hstage⟩ := hw
    have hpos : 0 < f.stage := by
      cases f <;> first | contradiction | exact Nat.succ_pos _
    exact exits_of_kernel ha hk hassociated hf hclient fun q hq hwaits =>
      ih (f.stage - 1) (by omega) hq hwaits

/-- A program that goes on can exit exactly if the client can finish. -/
theorem exits_iff (ha : p.Alive) : p.Exits ↔ p.CanFinish := by
  constructor
  · intro hexits
    by_contra hnot
    refine not_canReach (fun q e r => Astray.step) (fun q h => ?_)
      (⟨ha.safe, lost_iff.mpr hnot, ha.main, ha.stop⟩ : p.Astray) hexits
    rw [h.main]
    simp
  · rintro (⟨op, hop, hassociated, f, hf, hclient⟩ | ⟨packet, hpacket, herror, f, hf, hgoes⟩)
    · obtain ⟨k, hk⟩ := List.mem_iff_getElem?.mp hop
      exact exits_of_waits ha ⟨k, op, f, hk, hassociated, hf, hclient, rfl⟩
    · obtain ⟨n, hn⟩ := List.mem_iff_getElem?.mp hpacket
      exact exits_of_queued ha hn herror hf hgoes fun q hq hwaits => exits_of_waits hq hwaits

/-! ## Runs -/

/-- What was reported, and that the program stops and exits only behind the client. -/
structure Orderly (p : Program) : Prop where
  reported : ∀ packet ∈ p.port, packet.operation.socket ∈ p.associated
  stop : p.stop = true → .finished ∈ p.output
  exited : p.main = .exited → p.stop = true

theorem mem_port_report {packet : Packet} {bytes error : ℕ}
    (hpacket : packet ∈ (p.report op bytes error).port) :
    packet ∈ p.port ∨ op.socket ∈ p.associated ∧ packet.operation = op := by
  unfold report at hpacket
  split at hpacket
  · next hassociated =>
    rcases List.mem_append.mp hpacket with hpacket | hpacket
    · exact Or.inl hpacket
    · obtain rfl := List.mem_singleton.mp hpacket
      exact Or.inr ⟨hassociated, rfl⟩
  · exact Or.inl hpacket

/-- What is in the port behind the end of an operation was there, or tells of this end. -/
theorem mem_port_complete {packet : Packet} {outcome : Outcome}
    (hpacket : packet ∈ (p.complete op outcome).port) :
    packet ∈ p.port ∨ op.socket ∈ p.associated ∧ packet.operation = op := by
  unfold complete at hpacket
  split at hpacket
  · have hmem := mem_port_report hpacket
    exact hmem
  · have hmem := mem_port_report hpacket
    rw [port_store, associated_store] at hmem
    exact hmem
  · have hmem := mem_port_report hpacket
    exact hmem
  · exact mem_port_report hpacket
  · exact mem_port_report hpacket
  · exact mem_port_report hpacket

/-- A coroutine that stops the program is the client, behind its last line. -/
theorem finished_resume {answers : Answers} (hstop : p.stop = false)
    (hstop' : (p.resume i f answers).stop = true) :
    .finished ∈ (p.resume i f answers).output := by
  by_cases hlast : ∃ s recvBuf, f = .clientRecv s recvBuf
  · obtain ⟨s, recvBuf, rfl⟩ := hlast
    show .finished ∈ p.output ++ [_] ++ [Line.finished]
    exact List.mem_append_right _ List.mem_cons_self
  · simp only [not_exists] at hlast
    rw [(keeps_resume hlast).stop] at hstop'
    exact absurd (hstop.symm.trans hstop') (by simp)

theorem finished_dispatch {packet : Packet} {answers : Answers} (hstop : p.stop = false) :
    (p.dispatch packet answers).stop = true →
      .finished ∈ (p.dispatch packet answers).output := by
  have hnot {P : Prop} : p.stop = true → P := fun h => absurd (hstop.symm.trans h) (by simp)
  unfold dispatch
  split
  · exact hnot
  · simp only
    split
    · exact hnot
    · split
      · exact hnot
      · exact finished_resume hstop

/-- A coroutine that does not stop the program keeps it in order. -/
theorem Orderly.keeps (h : p.Orderly) (hkeeps : p.Keeps q) : q.Orderly where
  reported packet hpacket := hkeeps.associated (h.reported packet (hkeeps.port ▸ hpacket))
  stop hstop := by
    have hfinished := h.stop (hkeeps.stop ▸ hstop)
    have hend : .finished ∈ p.output.filter Line.isEnd := List.mem_filter.mpr ⟨hfinished, rfl⟩
    rw [← hkeeps.output] at hend
    exact (List.mem_filter.mp hend).1
  exited hexited := hkeeps.stop ▸ h.exited (hkeeps.main ▸ hexited)

theorem Orderly.step {e : Event} (h : p.Orderly) (hstep : p.step e = some q) : q.Orderly := by
  cases stepsTo_of_step hstep with
  | serverRun answer hmain =>
    obtain ⟨unclosed, hkeeps, -⟩ := keeps_serverRun (p := p)
    have hleft : { p with unclosed }.Orderly := { h with }
    have hafter := hleft.keeps hkeeps
    exact ⟨hafter.reported, hafter.stop, fun hexited => absurd hexited (by simp)⟩
  | clientRun answer hmain =>
    obtain ⟨traffic, hkeeps⟩ := keeps_clientRun (p := p)
    have hconnected : { p with traffic }.Orderly := { h with }
    have hafter := hconnected.keeps hkeeps
    exact ⟨hafter.reported, hafter.stop, fun hexited => absurd hexited (by simp)⟩
  | dequeue packet port answers hmain hstop hport =>
    refine ⟨fun other hother => ?_, finished_dispatch hstop, fun hexited => ?_⟩
    · rw [delivers_dispatch.port] at hother
      have hmem : other ∈ p.port := hport ▸ List.mem_cons_of_mem packet hother
      exact delivers_dispatch.associated (h.reported other hmem)
    · rw [delivers_dispatch.main] at hexited
      exact absurd (hmain.symm.trans hexited) (by simp)
  | exit hmain hstop => exact ⟨h.reported, h.stop, fun _ => hstop⟩
  | transmit k n op done rest hk hreq => exact ⟨h.reported, h.stop, h.exited⟩
  | complete k op outcome hk hpermits =>
    refine ⟨fun packet hpacket => ?_, ?_, ?_⟩
    · rw [associated_complete]
      rcases mem_port_complete hpacket with hpacket | ⟨hassociated, hop⟩
      · exact h.reported packet hpacket
      · rw [hop]
        exact hassociated
    · rw [undisturbed_complete.stop, undisturbed_complete.output]
      exact h.stop
    · rw [undisturbed_complete.main, undisturbed_complete.stop]
      exact h.exited

/-- **Exit.** In every run `main` has left its loop only if `Client::Run` came to its end. While it
is in the loop, and not told to stop, some way to go on leads out of it exactly if the client can
finish: an operation of the client is in the kernel on a socket that is associated with the port, or
its packet is in the port and is not one that the client returns early behind. -/
theorem exit_run {t : Program} {es : List Event} (hrun : Foundation.run step start es = some t) :
    (t.main = .exited → .finished ∈ t.output) ∧
      (t.main = .loop → t.stop = false →
        ((∃ es' u, Foundation.run step t es' = some u ∧ u.main = .exited) ↔ t.CanFinish)) := by
  have horderly : t.Orderly := run_invariant Orderly (fun _ _ _ => Orderly.step) hrun
    ⟨fun _ hpacket => absurd hpacket List.not_mem_nil, fun h => absurd h (by decide),
      fun h => absurd h (by decide)⟩
  refine ⟨fun hexited => horderly.stop (horderly.exited hexited), fun hmain hstop => ?_⟩
  exact exits_iff ⟨Safe.run hrun, horderly.reported, hmain, hstop⟩

/-- When the socket of the client could not be associated with the port, the program runs on. -/
theorem exit_unassociated : ∃ t,
    Foundation.run step start [.serverRun ⟨true, true, true, true, ⟨true, true, true⟩⟩,
      .clientRun ⟨true, false, true⟩] = some t ∧
      ¬ ∃ es' u, Foundation.run step t es' = some u ∧ u.main = .exited := by
  have hany : (Foundation.run step start [.serverRun ⟨true, true, true, true, ⟨true, true, true⟩⟩,
      .clientRun ⟨true, false, true⟩]).any (fun t => decide (t.main = .loop ∧ t.stop = false ∧
        t.port = [] ∧ ∀ op ∈ t.pending, op.socket ∈ t.associated →
          (objectAt t.frames op.overlapped.frame).all (fun f => !f.isClient) = true)) = true := by
    decide
  obtain ⟨t, ht, hall⟩ := (Option.any_eq_true _ _).mp hany
  obtain ⟨hmain, hstop, hport, hpending⟩ := of_decide_eq_true hall
  refine ⟨t, ht, fun hexits => ?_⟩
  rcases ((exit_run ht).2 hmain hstop).mp hexits with
    ⟨op, hop, hassociated, f, hf, hclient⟩ | ⟨packet, hpacket, -⟩
  · have hnot := hpending op hop hassociated
    rw [hf, Option.all_some, hclient] at hnot
    contradiction
  · rw [hport] at hpacket
    contradiction

end Program

end Win32Experiments.WinsockCoroutineJunie
