import Win32Experiments.WinsockCoroutineJunie.Steps

/-!
# Resumption and sockets

Between the steps every suspended coroutine waits for one operation, in the kernel, in the port or
ended unnoticed, and every such operation has its coroutine: so a packet resumes the coroutine that
submitted it, at the `co_await` of this operation, and the kernel writes to no frame that is gone.
The coroutines hold the sockets that are open, less the listening socket that `Server::Run` leaves
behind when it cannot listen.
-/

namespace Win32Experiments.WinsockCoroutineJunie.Program

open Foundation

variable {p q : Program} {f : Frame} {op : Operation} {items : List Operation} {locals : List ℕ}
  {i k s listenSock : ℕ}

/-! ## The invariant -/

/-- The suspended coroutines wait for `items`, each for one, and its handle is stored there; the
sockets that are open are those of the coroutine that runs, of the suspended ones and those that
were left behind; and nothing was resumed, written or used that was not there. -/
structure Safe (p : Program) (items : List Operation) (locals : List ℕ) : Prop where
  matching : Matching (fun op => op.overlapped.frame) Frame.Awaits p.frames items
  handle : ∀ op ∈ items, (p.awaitables op.overlapped).handle = some op.overlapped.frame
  accounts : p.sockets.Accounts (locals ++ (held Frame.sockets p.frames ++ p.unclosed))
  corrupt : p.corrupt = false
  misused : p.misused = false

namespace Safe

theorem start : Program.start.Safe Program.start.outstanding [] where
  matching := Matching.nil
  handle _ hop := absurd hop List.not_mem_nil
  accounts := Handles.accounts_empty
  corrupt := rfl
  misused := rfl

theorem perm {items' : List Operation} (h : p.Safe items locals) (hp : items.Perm items') :
    p.Safe items' locals :=
  { h with
    matching := h.matching.perm hp
    handle := fun op hop => h.handle op (hp.mem_iff.mpr hop) }

/-! ### Calls -/

theorem println (h : p.Safe items locals) (line : Line) : (p.println line).Safe items locals :=
  { h with }

theorem useInvalid (h : p.Safe items locals) : p.useInvalid.Safe items locals := { h with }

/-- A socket that a coroutine holds is open, so the call is not one on a closed socket. -/
theorem use_eq (h : p.Safe items locals) (hs : s ∈ locals) : p.use s = p := by
  have hlive : p.sockets.Live s := h.accounts.live (List.mem_append_left _ hs)
  rw [use, decide_eq_true hlive, Bool.not_true, Bool.or_false]

theorem use (h : p.Safe items locals) (hs : s ∈ locals) : (p.use s).Safe items locals := by
  rw [h.use_eq hs]
  exact h

theorem socket (h : p.Safe items locals) : p.socket.Safe items (p.sockets.opened :: locals) :=
  { h with accounts := h.accounts.create }

theorem closesocket (h : p.Safe items (s :: locals)) : (p.closesocket s).Safe items locals :=
  { h with accounts := Handles.Accounts.close h.accounts }

theorem leave (h : p.Safe items (s :: locals)) : (p.leave s).Safe items locals := by
  have haccounts := h.accounts
  refine { h with accounts := haccounts.perm ?_ }
  show (s :: locals ++ (held Frame.sockets p.frames ++ p.unclosed)).Perm
    (locals ++ (held Frame.sockets p.frames ++ (s :: p.unclosed)))
  rw [List.cons_append, ← List.append_assoc, ← List.append_assoc]
  exact List.perm_middle.symm

/-- A socket is made, and associated with the port or not. -/
theorem socket_registerSocket (h : p.Safe p.outstanding locals) (ok : Bool) :
    (p.socket.RegisterSocket p.sockets.opened ok).Safe
      (p.socket.RegisterSocket p.sockets.opened ok).outstanding (p.sockets.opened :: locals) := by
  have hsocket := h.socket
  rw [RegisterSocket, hsocket.use_eq List.mem_cons_self]
  split
  · exact { hsocket with }
  · exact hsocket.println .registerFailed

theorem call (h : p.Safe items locals) : p.call.Safe items locals := by
  refine { h with matching := h.matching.concat_none, accounts := ?_ }
  show p.sockets.Accounts (locals ++ (held Frame.sockets (p.frames ++ [none]) ++ p.unclosed))
  rw [held, List.flatMap_append, List.flatMap_singleton, heldAt_none, List.append_nil]
  exact h.accounts

/-! ### Suspension -/

/-- A coroutine suspends itself with the sockets that it holds. -/
theorem suspend {request : Request} {socket : ℕ} (h : p.Safe p.outstanding (f.sockets ++ locals))
    (hi : p.Runs i) (hsub : f.Submits ⟨⟨i, f.awaits⟩, socket, request⟩) :
    (p.suspend i f socket request).Safe (p.suspend i f socket request).outstanding locals := by
  have hperm : (⟨⟨i, f.awaits⟩, socket, request⟩ :: p.outstanding).Perm
      (p.suspend i f socket request).outstanding := by
    show (_ :: (p.pending ++ _ ++ _)).Perm (p.pending ++ [_] ++ _ ++ _)
    rw [List.append_assoc, List.append_assoc, List.append_assoc, List.singleton_append]
    exact List.perm_middle.symm
  refine perm ?_ hperm
  exact
    { matching := h.matching.put hi.1 hi.2 ⟨rfl, hsub⟩
      handle := by
        intro op hop
        show (Function.update p.awaitables _ _ op.overlapped).handle = _
        rcases List.mem_cons.mp hop with rfl | hop
        · rw [Function.update_self]
        · -- the others have frames of their own
          have hne : op.overlapped ≠ ⟨i, f.awaits⟩ := by
            intro heq
            exact h.matching.key_ne hi.2 hop (congrArg Address.frame heq)
          rw [Function.update_of_ne hne]
          exact h.handle op hop
      accounts := by
        refine h.accounts.of_counts fun g => ?_
        have hput := count_held_put (f := Frame.sockets) (a := f) hi.1 hi.2 g
        show (locals ++ (held _ (p.frames.set i (some f)) ++ p.unclosed)).count g + _ + _ = _
        simp only [List.count_append, hput]
        show _ + p.sockets.closed.count g + p.sockets.known g = _ + p.sockets.known g
        omega
      corrupt := h.corrupt
      misused := h.misused }

/-! ### Coroutines -/

theorem receive {buffer : List UInt8} (h : p.Safe p.outstanding (s :: locals)) (hi : p.Runs i)
    (submitted : Bool) :
    (p.receive i s buffer submitted).Safe (p.receive i s buffer submitted).outstanding locals := by
  rw [Program.receive, h.use_eq List.mem_cons_self]
  cases submitted with
  | true => exact suspend (f := .handleRecv s buffer) h hi ⟨rfl, rfl⟩
  | false => exact h.closesocket

theorem handleClient (h : p.Safe p.outstanding (s :: locals)) (submitted : Bool) :
    (p.handleClient s submitted).Safe (p.handleClient s submitted).outstanding locals :=
  receive h.call runs_call submitted

theorem acceptLoop (h : p.Safe p.outstanding [listenSock]) (hi : p.Runs i)
    (answer : AcceptCall) :
    (p.acceptLoop i listenSock answer).Safe (p.acceptLoop i listenSock answer).outstanding [] := by
  rw [Program.acceptLoop]
  split
  · exact h.closesocket
  · split
    · -- a socket to accept at, next to the listening one
      have hsocket := h.socket_registerSocket answer.associated
      have hlisten := hsocket.use_eq (List.mem_cons_of_mem _ List.mem_cons_self)
      have haccept := hsocket.use_eq List.mem_cons_self
      simp only [hlisten, haccept]
      split
      · refine suspend (f := .serverRun listenSock p.sockets.opened) hsocket ?_ ⟨rfl, rfl⟩
        rw [Runs, frames_registerSocket, frames_socket]
        exact hi
      · exact ((hsocket.println .acceptFailed).closesocket).closesocket
    · have hregister := (h.useInvalid.println .registerFailed).use List.mem_cons_self
      have haccept := (hregister.useInvalid.println .acceptFailed).useInvalid
      simp only [outstanding_closesocket, outstanding_useInvalid, outstanding_println,
        outstanding_use]
      exact haccept.closesocket

theorem serverRun (h : p.Safe p.outstanding []) (answer : ServerCall) :
    (p.serverRun answer).Safe (p.serverRun answer).outstanding [] := by
  rw [Program.serverRun]
  split
  · have hsocket := h.call.socket_registerSocket answer.associated
    simp only [hsocket.use_eq List.mem_cons_self]
    split
    · split
      · refine acceptLoop (hsocket.println .listening) ?_ answer.accept
        rw [Runs, frames_println, frames_registerSocket, frames_socket]
        exact runs_call
      · exact (hsocket.println .listenFailed).leave
    · exact (hsocket.println .bindFailed).leave
  · exact h.call.println .serverSocketFailed

theorem clientRun (h : p.Safe p.outstanding []) (answer : ClientCall) :
    (p.clientRun answer).Safe (p.clientRun answer).outstanding [] := by
  rw [Program.clientRun]
  split
  · have hsocket := h.call.socket_registerSocket answer.associated
    have hconnecting := hsocket.println .connecting
    simp only [hsocket.use_eq List.mem_cons_self]
    rw [hconnecting.use_eq List.mem_cons_self]
    split
    · refine suspend (f := .clientConnect p.sockets.opened) { hconnecting with } ?_ ⟨rfl, rfl⟩
      rw [Runs, frames_println, frames_registerSocket, frames_socket]
      exact runs_call
    · exact (hconnecting.println .connectFailed).closesocket
  · exact h.call.println .clientSocketFailed

/-- A coroutine that is resumed keeps what it holds, or closes it. -/
theorem resume (h : p.Safe p.outstanding f.sockets) (hi : p.Runs i) (answers : Answers) :
    (p.resume i f answers).Safe (p.resume i f answers).outstanding [] := by
  cases f with
  | serverRun listenSock acceptSock =>
    rw [Program.resume]
    split
    · exact h.closesocket.closesocket
    · rw [h.use_eq List.mem_cons_self]
      have hclient := (h.println .clientConnected).handleClient answers.submitted
      exact hclient.acceptLoop (Runs.handleClient hi) answers.accept
  | handleRecv s buffer =>
    rw [Program.resume]
    split
    · exact h.closesocket
    · rw [h.use_eq List.mem_cons_self]
      split
      · exact suspend (f := .handleSend s buffer) h hi ⟨rfl, _, _, rfl⟩
      · exact h.closesocket
  | handleSend s buffer => exact h.receive hi answers.submitted
  | clientConnect s =>
    rw [Program.resume]
    split
    · exact (h.println _).closesocket
    · have hsending := (h.println .connected).println .sending
      rw [h.use_eq List.mem_cons_self, hsending.use_eq List.mem_cons_self]
      split
      · exact suspend (f := .clientSend s) hsending hi ⟨rfl, _, _, rfl⟩
      · exact hsending.closesocket
  | clientSend s =>
    rw [Program.resume, h.use_eq List.mem_cons_self]
    split
    · exact suspend (f := .clientRecv s _) h hi ⟨rfl, rfl⟩
    · exact h.closesocket
  | clientRecv s recvBuf =>
    have hclosed (line : Line) := ((h.println line).closesocket).println .finished
    exact { hclosed _ with }

/-! ### Packets -/

/-- An operation that is taken out of those that a coroutine waits for. -/
theorem exists_frame (h : p.Safe (op :: items) locals) :
    ∃ f, objectAt p.frames op.overlapped.frame = some f ∧ f.Awaits op :=
  h.matching.exists_object List.mem_cons_self

/-- The coroutine that waits for the operation is resumed: it holds its sockets itself. -/
theorem take (h : p.Safe (op :: items) locals)
    (hf : objectAt p.frames op.overlapped.frame = some f) :
    { p with frames := p.frames.set op.overlapped.frame none }.Safe items
      (f.sockets ++ locals) where
  matching := h.matching.take
  handle o ho := h.handle o (List.mem_cons_of_mem op ho)
  accounts := by
    refine h.accounts.of_counts fun g => ?_
    have hset : (held Frame.sockets (p.frames.set op.overlapped.frame none)).count g +
        f.sockets.count g = (held Frame.sockets p.frames).count g + 0 := count_held_set hf
    simp only [List.count_append]
    omega
  corrupt := h.corrupt
  misused := h.misused

/-- The result of an operation is written to its awaitable. -/
theorem setResult (h : p.Safe items locals) (op : Operation) (result : IoResult) :
    { p with
      awaitables := Function.update p.awaitables op.overlapped
        { p.awaitables op.overlapped with result } }.Safe items locals := by
  refine { h with handle := fun o ho => ?_ }
  have hhandle := h.handle o ho
  show (Function.update p.awaitables _ _ o.overlapped).handle = _
  by_cases heq : o.overlapped = op.overlapped
  · rw [heq, Function.update_self, ← heq]
    exact hhandle
  · rw [Function.update_of_ne heq]
    exact hhandle

/-- What `main` does with a packet of an operation that a coroutine waits for: the result reaches
this coroutine, and it is resumed. -/
theorem dispatch_eq {packet : Packet} (h : p.Safe (packet.operation :: items) locals)
    (hf : objectAt p.frames packet.operation.overlapped.frame = some f)
    (herror : packet.error ≠ WAIT_TIMEOUT) (answers : Answers) :
    p.dispatch packet answers =
      (p.delivered packet).resume packet.operation.overlapped.frame f answers := by
  have hhandle := h.handle packet.operation List.mem_cons_self
  simp only [Program.dispatch, if_neg herror, hhandle, hf, delivered]

theorem delivered {packet : Packet} (h : p.Safe (packet.operation :: items) [])
    (hf : objectAt p.frames packet.operation.overlapped.frame = some f) :
    (p.delivered packet).Safe items f.sockets := by
  have hsafe := (h.take hf).setResult packet.operation ⟨packet.bytes, packet.error⟩
  rw [List.append_nil] at hsafe
  exact hsafe

theorem dispatch {packet : Packet} (h : p.Safe (packet.operation :: p.outstanding) [])
    (answers : Answers) :
    (p.dispatch packet answers).Safe (p.dispatch packet answers).outstanding [] := by
  by_cases herror : packet.error = WAIT_TIMEOUT
  · rw [Program.dispatch, if_pos herror]
    have hsilent : { p with silent := p.silent ++ [packet.operation] }.Safe
        (packet.operation :: p.outstanding) [] := { h with }
    exact hsilent.perm perm_outstanding_silent
  · obtain ⟨f, hf, hawaits⟩ := h.exists_frame
    rw [h.dispatch_eq hf herror]
    exact resume (h.delivered hf) (runs_delivered hf) answers

/-! ### The kernel -/

theorem report {bytes error : ℕ} (h : p.Safe (op :: p.outstanding) locals) :
    (p.report op bytes error).Safe (p.report op bytes error).outstanding locals := by
  have hsafe : (p.report op bytes error).Safe (op :: p.outstanding) locals := by
    rw [Program.report]
    split <;> exact { h with }
  exact hsafe.perm perm_outstanding_report

/-- The frame that the kernel writes to is there, as its coroutine waits for the operation. -/
theorem store (h : p.Safe (op :: items) locals) (data : List UInt8) :
    (p.store op.overlapped.frame data).Safe (op :: items) locals := by
  obtain ⟨f, hf, hawaits⟩ := h.exists_frame
  simp only [Program.store, hf]
  have hsame (g : ℕ) : (held Frame.sockets (p.frames.set op.overlapped.frame
      (some (f.store data)))).count g + f.sockets.count g =
      (held Frame.sockets p.frames).count g + (f.store data).sockets.count g := count_held_set hf
  refine
    { h with
      matching := h.matching.replace hf fun o ho => ho.store data
      accounts := h.accounts.of_counts fun g => ?_ }
  have hg := hsame g
  rw [Frame.sockets_store] at hg
  simp only [List.count_append]
  omega

theorem complete (h : p.Safe (op :: p.outstanding) locals) (outcome : Outcome) :
    (p.complete op outcome).Safe (p.complete op outcome).outstanding locals := by
  unfold Program.complete
  split
  · exact report { h with }
  · next size data _ =>
    have hreceived : { p with traffic := p.traffic.receive op.socket data }.Safe
        (op :: p.outstanding) locals := { h with }
    refine report ?_
    rw [outstanding_store]
    exact hreceived.store data
  · exact report { h with }
  · exact report h
  · exact report h
  · exact report h

theorem transmit {n : ℕ} {done rest : List UInt8} (h : p.Safe p.outstanding locals)
    (hk : p.pending[k]? = some op) (hreq : op.request = .send done rest) :
    (p.transmit k n op done rest).Safe (p.transmit k n op done rest).outstanding locals := by
  obtain ⟨hlt, -⟩ := List.getElem?_eq_some_iff.mp hk
  have hold := h.perm (perm_outstanding_pending hk)
  have hnew : (p.transmit k n op done rest).Safe
      ({ op with request := .send (done ++ rest.take n) (rest.drop n) } ::
        { p with pending := p.pending.eraseIdx k }.outstanding) locals :=
    { hold with
      matching := hold.matching.replace_item rfl fun f hf => hf.transmit hreq
      handle := by
        intro o ho
        rcases List.mem_cons.mp ho with rfl | ho
        · exact hold.handle op List.mem_cons_self
        · exact hold.handle o (List.mem_cons_of_mem op ho) }
  refine hnew.perm ?_
  show (_ :: (p.pending.eraseIdx k ++ _ ++ _)).Perm (p.pending.set k _ ++ _ ++ _)
  rw [List.append_assoc, List.append_assoc, ← List.cons_append]
  exact (List.set_perm_cons_eraseIdx hlt _).symm.append_right _

/-! ### What is apart -/

/-- No suspended coroutine holds a socket of the one that runs. -/
theorem not_mem_sockets (h : p.Safe items locals) (hs : s ∈ locals)
    (hf : objectAt p.frames i = some f) : s ∉ f.sockets := by
  intro hmem
  have hcount := h.accounts s
  have hlocal : 0 < locals.count s := List.count_pos_iff.mpr hs
  have hheld : 0 < (held Frame.sockets p.frames).count s :=
    List.count_pos_iff.mpr (mem_held hf hmem)
  rw [List.count_append, List.count_append] at hcount
  split at hcount <;> omega

/-- No two suspended coroutines hold the same socket. -/
theorem sockets_disjoint {g : Frame} (h : p.Safe items locals) (hij : i ≠ k)
    (hf : objectAt p.frames i = some f) (hg : objectAt p.frames k = some g)
    (hs : s ∈ f.sockets) : s ∉ g.sockets := by
  intro hmem
  have hcount := h.accounts s
  have hi : 0 < f.sockets.count s := List.count_pos_iff.mpr hs
  have hk : 0 < g.sockets.count s := List.count_pos_iff.mpr hmem
  have hboth := count_add_le_held (f := Frame.sockets) (h := s) hij hf hg
  rw [List.count_append, List.count_append] at hcount
  split at hcount <;> omega

/-- A coroutine waits for an operation on a socket that is open. -/
theorem live_socket (h : p.Safe items locals) (hop : op ∈ items) : p.sockets.Live op.socket := by
  obtain ⟨f, hf, hawaits⟩ := h.matching.exists_object hop
  refine h.accounts.live (List.mem_append_right _ (List.mem_append_left _ ?_))
  exact mem_held hf hawaits.mem_sockets

/-- The operations of the other coroutines are filed elsewhere. -/
theorem frame_ne {o : Operation} (h : p.Safe (op :: items) locals) (ho : o ∈ items) :
    op.overlapped.frame ≠ o.overlapped.frame := by
  intro heq
  have hnodup := h.matching.nodup
  rw [List.map_cons, List.nodup_cons] at hnodup
  exact hnodup.1 (heq ▸ List.mem_map_of_mem ho)

/-- What a step keeps. -/
theorem step {e : Event} (h : p.Safe p.outstanding []) (hstep : p.step e = some q) :
    q.Safe q.outstanding [] := by
  cases stepsTo_of_step hstep with
  | serverRun answer hmain => exact { h.serverRun answer with }
  | clientRun answer hmain => exact { h.clientRun answer with }
  | dequeue packet port answers hmain hstop hport =>
    have htaken := h.perm (perm_outstanding_port hport)
    exact dispatch { htaken with } answers
  | exit hmain hstop => exact { h with }
  | transmit k n op done rest hk hreq => exact h.transmit hk hreq
  | complete k op outcome hk hpermits =>
    have htaken := h.perm (perm_outstanding_pending hk)
    exact complete { htaken with } outcome

theorem run {es : List Event} (hrun : Foundation.run Program.step Program.start es = some p) :
    p.Safe p.outstanding [] :=
  run_invariant (fun p : Program => p.Safe p.outstanding []) (fun _ _ _ => step) hrun Safe.start

end Safe

/-! ## What each coroutine relies on -/

/-- `P` holds of each suspended coroutine whose operation is in the kernel, `Q` of each whose packet
is in the port. -/
structure Each (P : Frame → Operation → Prop) (Q : Frame → Packet → Prop) (p : Program) :
    Prop where
  pending : ∀ op ∈ p.pending, ∀ f, objectAt p.frames op.overlapped.frame = some f → P f op
  port : ∀ packet ∈ p.port, ∀ f,
    objectAt p.frames packet.operation.overlapped.frame = some f → Q f packet

namespace Each

variable {P P' : Frame → Operation → Prop} {Q Q' : Frame → Packet → Prop}

theorem start : Program.start.Each P Q where
  pending _ hop := absurd hop List.not_mem_nil
  port _ hpacket := absurd hpacket List.not_mem_nil

/-- What is relied on may change with the operation at hand. -/
theorem imp (h : p.Each P Q)
    (hP : ∀ f, ∀ op ∈ p.outstanding, objectAt p.frames op.overlapped.frame = some f → P f op →
      P' f op)
    (hQ : ∀ f packet, packet.operation ∈ p.outstanding →
      objectAt p.frames packet.operation.overlapped.frame = some f → Q f packet → Q' f packet) :
    p.Each P' Q' where
  pending op hop f hf :=
    hP f op (List.mem_append_left _ (List.mem_append_left _ hop)) hf (h.pending op hop f hf)
  port packet hpacket f hf :=
    hQ f packet
      (List.mem_append_left _ (List.mem_append_right _ (List.mem_map_of_mem hpacket))) hf
      (h.port packet hpacket f hf)

/-- The table of frames changes where no operation but one that is set apart is filed. -/
theorem setFrames (h : p.Each P Q) (frames : List (Option Frame))
    (hframes : ∀ op ∈ p.outstanding, ∀ f, objectAt frames op.overlapped.frame = some f →
      objectAt p.frames op.overlapped.frame = some f) : { p with frames }.Each P Q where
  pending op hop f hf :=
    have hmem := List.mem_append_left _ (List.mem_append_left _ hop)
    h.pending op hop f (hframes op hmem f hf)
  port packet hpacket f hf :=
    have hmem :=
      List.mem_append_left _ (List.mem_append_right _ (List.mem_map_of_mem hpacket))
    h.port packet hpacket f (hframes packet.operation hmem f hf)

theorem call (h : p.Each P Q) : p.call.Each P Q := by
  apply h.setFrames (p.frames ++ [none])
  intro op _ f hf
  rw [objectAt_concat_none] at hf
  exact hf

theorem delivered {packet : Packet} (h : p.Each P Q) : (p.delivered packet).Each P Q := by
  have htaken := h.setFrames (p.frames.set packet.operation.overlapped.frame none)
    fun _ _ _ hf => objectAt_of_set_none hf
  exact { htaken with }

/-- A coroutine that runs suspends itself. -/
theorem suspend {request : Request} {socket : ℕ} (h : p.Each P Q)
    (hs : p.Safe p.outstanding locals) (hi : p.Runs i)
    (hnew : P f ⟨⟨i, f.awaits⟩, socket, request⟩) : (p.suspend i f socket request).Each P Q := by
  have hset := h.setFrames (p.frames.set i (some f)) fun op hop g hg => by
    rw [objectAt_set_ne (hs.matching.key_ne hi.2 hop).symm] at hg
    exact hg
  refine ⟨fun op hop g hg => ?_, hset.port⟩
  rcases List.mem_append.mp hop with hop | hop
  · exact hset.pending op hop g hg
  · obtain rfl := List.mem_singleton.mp hop
    have hg' : objectAt (p.frames.set i (some f)) i = some g := hg
    rw [objectAt_set_of_lt hi.1, Option.some.injEq] at hg'
    exact hg' ▸ hnew

/-- A packet is taken from the port. -/
theorem tail {packet : Packet} {port : List Packet} (h : p.Each P Q)
    (hport : p.port = packet :: port) : { p with port }.Each P Q where
  pending := h.pending
  port other hother := h.port other (hport ▸ List.mem_cons_of_mem _ hother)

/-- An operation that was set apart has ended. -/
theorem report {bytes error : ℕ} (h : p.Each P Q)
    (hnew : op.socket ∈ p.associated → ∀ f, objectAt p.frames op.overlapped.frame = some f →
      Q f ⟨op, bytes, error⟩) : (p.report op bytes error).Each P Q := by
  rw [Program.report]
  split
  · next hassociated =>
    refine ⟨h.pending, fun packet hpacket f hf => ?_⟩
    rcases List.mem_append.mp hpacket with hpacket | hpacket
    · exact h.port packet hpacket f hf
    · obtain rfl := List.mem_singleton.mp hpacket
      exact hnew hassociated f hf
  · exact { h with }

/-- The kernel writes to the frame of the operation that is set apart. -/
theorem store (h : p.Each P Q) (hs : p.Safe (op :: p.outstanding) locals) (data : List UInt8) :
    (p.store op.overlapped.frame data).Each P Q := by
  obtain ⟨f, hf, -⟩ := hs.exists_frame
  simp only [Program.store, hf]
  apply h.setFrames (p.frames.set op.overlapped.frame (some (f.store data)))
  intro o ho g hg
  rw [objectAt_set_ne (hs.frame_ne ho)] at hg
  exact hg

theorem erase (h : p.Each P Q) (k : ℕ) :
    { p with pending := p.pending.eraseIdx k }.Each P Q where
  pending o ho := h.pending o (List.mem_of_mem_eraseIdx ho)
  port := h.port

/-- The operation that was set apart goes on. -/
theorem insert (hk : p.pending[k]? = some op)
    (h : { p with pending := p.pending.eraseIdx k }.Each P Q) (op' : Operation)
    (hnew : ∀ f, objectAt p.frames op'.overlapped.frame = some f → P f op') :
    { p with pending := p.pending.set k op' }.Each P Q where
  pending o ho f hf := by
    obtain ⟨hlt, -⟩ := List.getElem?_eq_some_iff.mp hk
    rcases List.mem_cons.mp ((List.set_perm_cons_eraseIdx hlt _).mem_iff.mp ho) with rfl | ho
    · exact hnew f hf
    · exact h.pending o ho f hf
  port := h.port

end Each

/-! ## Results -/

/-- What is granted. -/
def grant : Answers := ⟨true, ⟨true, true, true⟩⟩

/-- A run in which the server receives the first five bytes of the message and sends them back. -/
def session : List Event :=
  [.serverRun ⟨true, true, true, true, ⟨true, true, true⟩⟩, .clientRun ⟨true, true, true⟩,
    .complete 0 (.accepted true), .complete 0 .connected, .dequeue grant, .dequeue grant,
    .transmit 2 34, .complete 2 .sent, .complete 0 (.received (message.take 5)), .dequeue grant,
    .dequeue grant, .transmit 2 5, .complete 1 (.received (message.take 5)), .complete 1 .sent,
    .dequeue grant, .exit]

theorem exists_session : ∃ t, Foundation.run step start session = some t :=
  Option.isSome_iff_exists.mp (by decide)

/-- **Resumption.** In every run, whatever the calls answer and in whatever order operations end and
packets arrive: no handle was resumed and no frame written to that is not there; every suspended
coroutine waits for exactly one operation, of its own awaitable and on a socket of its own; and the
next packet resumes the coroutine that waits for its operation, with the result of this operation,
unless it reports `WAIT_TIMEOUT`. -/
theorem resumption_run {t : Program} {es : List Event}
    (hrun : Foundation.run step start es = some t) :
    t.corrupt = false ∧
      (t.outstanding.map fun op => op.overlapped.frame).Nodup ∧
      (∀ op ∈ t.outstanding, ∃ f, objectAt t.frames op.overlapped.frame = some f ∧ f.Awaits op ∧
        op.socket ∈ f.sockets ∧ t.sockets.Live op.socket) ∧
      (∀ i f, objectAt t.frames i = some f → ∃ op ∈ t.outstanding, op.overlapped.frame = i) ∧
      (∀ packet port answers, t.port = packet :: port → packet.error ≠ WAIT_TIMEOUT →
        ∃ f, objectAt t.frames packet.operation.overlapped.frame = some f ∧
          f.Awaits packet.operation ∧
          (({ t with port }.delivered packet).awaitables packet.operation.overlapped).result =
            ⟨packet.bytes, packet.error⟩ ∧
          { t with port }.dispatch packet answers =
            ({ t with port }.delivered packet).resume packet.operation.overlapped.frame f
              answers) := by
  have hsafe := Safe.run hrun
  refine ⟨hsafe.corrupt, hsafe.matching.nodup, ?_, ?_, ?_⟩
  · intro op hop
    obtain ⟨f, hf, hawaits⟩ := hsafe.matching.exists_object hop
    exact ⟨f, hf, hawaits, hawaits.mem_sockets, hsafe.live_socket hop⟩
  · intro i f hf
    obtain ⟨op, hop, hkey, -⟩ := hsafe.matching.exists_item hf
    exact ⟨op, hop, hkey⟩
  · intro packet port answers hport herror
    have htaken : { t with port }.Safe (packet.operation :: { t with port }.outstanding) [] :=
      { hsafe.perm (perm_outstanding_port hport) with }
    obtain ⟨f, hf, hawaits⟩ := htaken.exists_frame
    exact ⟨f, hf, hawaits, result_delivered, htaken.dispatch_eq hf herror answers⟩

theorem resumption_session : ∃ t, Foundation.run step start session = some t ∧
    t.corrupt = false ∧ (t.outstanding.map fun op => op.overlapped.frame).Nodup := by
  obtain ⟨t, ht⟩ := exists_session
  have hall := resumption_run ht
  exact ⟨t, ht, hall.1, hall.2.1⟩

/-- What is left behind, before `Server::Run()` and behind it. -/
def LeavesOne (p : Program) : Prop :=
  (p.main = .server → p.unclosed = []) ∧ p.unclosed.length ≤ 1

theorem LeavesOne.step {e : Event} (h : p.LeavesOne) (hstep : p.step e = some q) :
    q.LeavesOne := by
  obtain ⟨hbefore, hlen⟩ := h
  cases stepsTo_of_step hstep with
  | serverRun answer hmain =>
    obtain ⟨unclosed, hkeeps, hle⟩ := keeps_serverRun (p := p)
    rw [hbefore hmain, List.length_nil] at hle
    refine ⟨fun hserver => Main.noConfusion hserver, ?_⟩
    show (p.serverRun answer).unclosed.length ≤ 1
    rw [hkeeps.unclosed]
    omega
  | clientRun answer hmain =>
    obtain ⟨traffic, hkeeps⟩ := keeps_clientRun (p := p)
    refine ⟨fun hserver => Main.noConfusion hserver, ?_⟩
    show (p.clientRun answer).unclosed.length ≤ 1
    rw [hkeeps.unclosed]
    exact hlen
  | dequeue packet port answers hmain hstop hport =>
    rw [LeavesOne, delivers_dispatch.main, delivers_dispatch.unclosed]
    exact ⟨hbefore, hlen⟩
  | exit hmain hstop => exact ⟨fun hserver => Main.noConfusion hserver, hlen⟩
  | transmit k n op done rest hk hreq => exact ⟨hbefore, hlen⟩
  | complete k op outcome hk hpermits =>
    rw [LeavesOne, undisturbed_complete.main, undisturbed_complete.unclosed]
    exact ⟨hbefore, hlen⟩

/-! ### Calls that are given no socket -/

/-- Where the step comes to `socket` in the loop of `Server::Run`, in the call of it or behind the
`co_await acceptOp`, a socket is created. -/
def Creates (p : Program) : Event → Prop
  | .serverRun answer =>
    answer.created = true → answer.bound = true → answer.listening = true → p.stop = false →
      answer.accept.created = true
  | .dequeue answers =>
    ∀ packet ∈ p.port.head?, packet.error ≠ WAIT_TIMEOUT →
      packet.operation.request.isAccept = true → answers.accept.created = true
  | _ => True

instance (p : Program) (e : Event) : Decidable (p.Creates e) :=
  match e with
  | .serverRun _ => inferInstanceAs (Decidable (_ → _ → _ → _ → _))
  | .dequeue _ => inferInstanceAs (Decidable (∀ packet ∈ p.port.head?, _ → _ → _))
  | .clientRun _ | .exit | .transmit .. | .complete .. => isTrue trivial

section Invalid

variable {answer : AcceptCall} {answers : Answers} {submitted : Bool}

@[simp] theorem invalid_println {line : Line} : (p.println line).invalid = p.invalid := rfl

@[simp] theorem invalid_socket : p.socket.invalid = p.invalid := rfl

@[simp] theorem invalid_closesocket : (p.closesocket s).invalid = p.invalid := rfl

@[simp] theorem invalid_use : (p.use s).invalid = p.invalid := rfl

@[simp] theorem invalid_useInvalid : p.useInvalid.invalid = p.invalid + 1 := rfl

@[simp] theorem invalid_leave : (p.leave s).invalid = p.invalid := rfl

@[simp] theorem invalid_call : p.call.invalid = p.invalid := rfl

@[simp] theorem invalid_suspend {socket : ℕ} {request : Request} :
    (p.suspend i f socket request).invalid = p.invalid := rfl

@[simp] theorem invalid_registerSocket {ok : Bool} :
    (p.RegisterSocket s ok).invalid = p.invalid := by
  unfold RegisterSocket
  split <;> rfl

@[simp] theorem invalid_receive {buffer : List UInt8} :
    (p.receive i s buffer submitted).invalid = p.invalid := by
  unfold receive
  cases submitted <;> rfl

@[simp] theorem invalid_handleClient : (p.handleClient s submitted).invalid = p.invalid :=
  invalid_receive

/-- The loop of `Server::Run` makes three calls without a socket, or none. -/
theorem invalid_acceptLoop : (p.acceptLoop i listenSock answer).invalid =
    p.invalid + if p.stop = false ∧ answer.created = false then 3 else 0 := by
  unfold acceptLoop
  by_cases hstop : p.stop = true
  · simp [hstop]
  · rw [if_neg hstop]
    rw [Bool.not_eq_true] at hstop
    split
    · next hcreated =>
      simp only [hcreated]
      split <;> simp
    · next hcreated => simp [hstop, hcreated]

theorem invalid_serverRun {answer : ServerCall} : (p.serverRun answer).invalid =
    p.invalid + if answer.created = true ∧ answer.bound = true ∧ answer.listening = true ∧
      p.stop = false ∧ answer.accept.created = false then 3 else 0 := by
  have hkeeps : p.Keeps (p.call.socket.RegisterSocket p.call.sockets.opened answer.associated) :=
    (keeps_call.trans keeps_socket).trans keeps_registerSocket
  have hline : Line.listening.isEnd = false := rfl
  unfold serverRun
  split
  · next hcreated =>
    split
    · next hbound =>
      split
      · next hlistening =>
        rw [invalid_acceptLoop,
          (((hkeeps.trans keeps_use).trans keeps_use).trans (keeps_println hline)).stop]
        simp [hcreated, hbound, hlistening]
      · next hlistening => simp [hlistening]
    · next hbound => simp [hbound]
  · next hcreated => simp [hcreated]

theorem invalid_resume : (p.resume i f answers).invalid =
    p.invalid + if f.awaits = .acceptOp ∧ p.stop = false ∧ answers.accept.created = false
      then 3 else 0 := by
  cases f with
  | serverRun listenSock acceptSock =>
    have hkeeps : p.Keeps (((p.use acceptSock).println .clientConnected).handleClient acceptSock
        answers.submitted) := (keeps_use.trans (keeps_println rfl)).trans keeps_handleClient
    rw [resume]
    split
    · next hstop => simp [hstop]
    · rw [invalid_acceptLoop, hkeeps.stop, invalid_handleClient, invalid_println, invalid_use]
      simp [Frame.awaits]
  | handleRecv s buffer =>
    rw [resume]
    split
    · rfl
    · cases answers.submitted <;> rfl
  | handleSend s buffer => exact invalid_receive
  | clientConnect s =>
    rw [resume]
    split
    · rfl
    · cases answers.submitted <;> rfl
  | clientSend s =>
    rw [resume]
    cases answers.submitted <;> rfl
  | clientRecv s recvBuf => rfl

theorem invalid_clientRun {answer : ClientCall} : (p.clientRun answer).invalid = p.invalid := by
  unfold clientRun
  split
  · simp only
    split <;> simp
  · rfl

/-- An accept is what `Server::Run` waits for. -/
theorem isAccept_iff (h : f.Awaits op) :
    op.request.isAccept = true ↔ f.awaits = .acceptOp := by
  have hsub := h.2
  cases f with
  | serverRun listenSock acceptSock =>
    rw [hsub.2]
    exact iff_of_true rfl rfl
  | handleSend s buffer | clientSend s =>
    obtain ⟨-, done, rest, hrequest⟩ := hsub
    rw [hrequest]
    exact iff_of_false Bool.false_ne_true nofun
  | handleRecv s buffer | clientConnect s | clientRecv s recvBuf =>
    rw [hsub.2]
    exact iff_of_false Bool.false_ne_true nofun

/-- A packet comes to the loop of `Server::Run` if it tells of an accept. -/
theorem invalid_dispatch {packet : Packet} (h : p.Safe (packet.operation :: p.outstanding) []) :
    (p.dispatch packet answers).invalid = p.invalid +
      if packet.error ≠ WAIT_TIMEOUT ∧ packet.operation.request.isAccept = true ∧
        p.stop = false ∧ answers.accept.created = false then 3 else 0 := by
  by_cases herror : packet.error = WAIT_TIMEOUT
  · rw [dispatch, if_pos herror, if_neg fun hall => hall.1 herror]
    rfl
  · obtain ⟨f, hf, hawaits⟩ := h.exists_frame
    have hcomes : f.awaits = .acceptOp ∧ p.stop = false ∧ answers.accept.created = false ↔
        packet.error ≠ WAIT_TIMEOUT ∧ packet.operation.request.isAccept = true ∧
          p.stop = false ∧ answers.accept.created = false := by
      rw [isAccept_iff hawaits]
      exact (and_iff_right herror).symm
    rw [h.dispatch_eq hf herror, invalid_resume]
    exact congrArg (p.invalid + ·) (if_congr hcomes rfl rfl)

/-- A step makes calls without a socket exactly if `socket` fails in the loop of `Server::Run`. -/
theorem invalid_step {e : Event} (h : p.Safe p.outstanding []) (hstep : p.step e = some q) :
    q.invalid = 0 ↔ p.invalid = 0 ∧ p.Creates e := by
  cases stepsTo_of_step hstep with
  | serverRun answer hmain =>
    have hinvalid : ({ p.serverRun answer with main := .client } : Program).invalid = _ :=
      invalid_serverRun (p := p)
    rw [hinvalid, Nat.add_eq_zero_iff, ite_eq_right_iff]
    simp [Creates]
  | clientRun answer hmain =>
    have hinvalid : ({ p.clientRun answer with main := .loop } : Program).invalid = p.invalid :=
      invalid_clientRun
    rw [hinvalid]
    exact (and_iff_left trivial).symm
  | dequeue packet port answers hmain hstop hport =>
    have htaken : { p with port }.Safe (packet.operation :: { p with port }.outstanding) [] :=
      { h.perm (perm_outstanding_port hport) with }
    rw [invalid_dispatch htaken, Nat.add_eq_zero_iff, ite_eq_right_iff]
    simp [Creates, hport, hstop]
  | exit hmain hstop => exact (and_iff_left trivial).symm
  | transmit k n op done rest hk hreq => exact (and_iff_left trivial).symm
  | complete k op outcome hk hpermits =>
    rw [undisturbed_complete.invalid]
    exact (and_iff_left trivial).symm

end Invalid

-- `socket` fails in the loop.
example : (Foundation.run step start [.serverRun ⟨true, true, true, true, ⟨false, true, true⟩⟩]).map
    (fun t => (t.invalid, t.output)) =
      some (3, [.listening, .registerFailed, .acceptFailed]) := by
  decide

end Win32Experiments.WinsockCoroutineJunie.Program
