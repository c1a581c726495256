import Win32Experiments.Foundation.Threads
import Win32Experiments.WinSockIOCP.Steps

/-!
# What the server echoes

`PostSend` points its `WSABUF` at the buffer of its own operation after the assignment, and
`PostRecv` does not: its `WSABUF` still names the buffer of the temporary.

* `sendCalls_run`: every `WSASend` of every run names the buffer of its own operation;
* `fresh_step`, `dangling_post`: the first `WSARecv` names a buffer that is dead;
* `echoes_iff`: the server echoes exactly as long as it never receives.
-/

namespace Win32Experiments.WinSockIOCP

open Foundation

/-! ## The property -/

/-- The server echoes: what it submitted to `WSASend` for a connection is the front of what
the network delivered, every `WSARecv` names the whole buffer of the connection's own
operation, and every `WSASend` sends the bytes just received. -/
structure Echoes (s : Server) : Prop where
  echo : ∀ conn, s.submitted conn <+: s.delivered conn
  recv_buffer : ∀ call ∈ s.recvCalls, call.2 = ⟨.op call.1 .Recv, bufferSize⟩
  copied : ∀ call ∈ s.sendCalls, call.sent = call.received

/-- The condition on a step: it is no call of `WSARecv`. -/
def CallsNoRecv (s : Server) : Event → Prop
  | .post _ => False
  | .call w _ => ∀ conn, s.workers[w]? ≠ some (.receiving conn)
  | _ => True

/-! ## Sending -/

/-- What a worker before `WSASend` relies on: its connection names its own buffer. -/
def Server.SendsOwnBuffer (s : Server) : Prop :=
  (∀ call ∈ s.sendCalls, call.wsaBuf.buf = .op call.conn .Send) ∧
    ∀ conn c, s.heap conn = some c → c.sendOp.wsaBuf.buf = .op conn .Send

/-- A write that leaves the `WSABUF` of the send operation keeps all of them. -/
theorem sendsOwnBuffer_modify {s : Server} {conn : ℕ} {f : Connection → Connection}
    (h : s.SendsOwnBuffer)
    (hf : ∀ c, s.heap conn = some c → (f c).sendOp.wsaBuf.buf = .op conn .Send) :
    (s.modify conn f).SendsOwnBuffer := by
  unfold Server.modify
  split
  · next c hc =>
    refine ⟨h.1, ?_⟩
    intro n c' hc'
    simp only at hc'
    by_cases heq : n = conn
    · rw [heq, Function.update_self, Option.some.injEq] at hc'
      rw [heq, ← hc']
      exact hf c hc
    · rw [Function.update_of_ne heq] at hc'
      exact h.2 n c' hc'
  · exact h

theorem sendsOwnBuffer_store {s : Server} (h : s.SendsOwnBuffer) (data : List UInt8)
    (address : Address) : (s.store data address).SendsOwnBuffer := by
  unfold Server.store
  split
  · next conn => exact sendsOwnBuffer_modify h fun c hc => h.2 conn c hc
  · next conn _ _ => exact sendsOwnBuffer_modify h fun c hc => h.2 conn c hc
  · exact h

theorem sendsOwnBuffer_prepareRecv {s : Server} (h : s.SendsOwnBuffer) (conn : ℕ) :
    (s.prepareRecv conn).SendsOwnBuffer :=
  @sendsOwnBuffer_modify { s with temporaries := s.temporaries + 1 } _ _ h fun c hc =>
    h.2 conn c hc

/-- `op.WsaBuf.buf = op.Buffer.data()`. -/
theorem sendsOwnBuffer_prepareSend {s : Server} (h : s.SendsOwnBuffer) (conn bytes : ℕ) :
    (s.prepareSend conn bytes).SendsOwnBuffer :=
  @sendsOwnBuffer_modify { s with temporaries := s.temporaries + 1 } _ _ h fun _ _ => rfl

theorem sendsOwnBuffer_delete {s : Server} (h : s.SendsOwnBuffer) (d : Completion) :
    (s.delete d).SendsOwnBuffer := by
  refine ⟨h.1, ?_⟩
  intro n c hc
  replace hc : Function.update s.heap d.conn none n = some c := hc
  by_cases heq : n = d.conn
  · rw [heq, Function.update_self] at hc
    cases hc
  · rw [Function.update_of_ne heq] at hc
    exact h.2 n c hc

theorem sendsOwnBuffer_accept {s : Server} (h : s.SendsOwnBuffer) (ok : Bool) :
    (s.accept ok).SendsOwnBuffer := by
  cases ok with
  | false => exact h
  | true =>
    refine ⟨h.1, ?_⟩
    intro n c hc
    replace hc : Function.update s.heap s.next (some (Connection.construct s.next)) n = some c := hc
    by_cases heq : n = s.next
    · rw [heq, Function.update_self, Option.some.injEq] at hc
      rw [heq, ← hc]
      rfl
    · rw [Function.update_of_ne heq] at hc
      exact h.2 n c hc

theorem sendsOwnBuffer_wsaRecv {s : Server} (h : s.SendsOwnBuffer) (conn : ℕ) (accepted : Bool) :
    (s.wsaRecv conn accepted).SendsOwnBuffer := by
  unfold Server.wsaRecv Server.submit
  split
  · cases accepted <;> exact h
  · exact h

theorem sendsOwnBuffer_wsaSend {s : Server} (h : s.SendsOwnBuffer) (conn : ℕ) (accepted : Bool) :
    (s.wsaSend conn accepted).SendsOwnBuffer := by
  unfold Server.wsaSend Server.submit
  split
  · next c hc =>
    -- the call names the buffer that `PostSend` stored in the operation
    have hcalls : ∀ sent received, ∀ call ∈ s.sendCalls ++
        [(⟨conn, c.sendOp.wsaBuf, sent, received⟩ : SendCall)],
        call.wsaBuf.buf = .op call.conn .Send := by
      intro sent received call hcall
      rcases List.mem_append.mp hcall with hcall | hcall
      · exact h.1 call hcall
      · rw [List.mem_singleton.mp hcall]
        exact h.2 conn c hc
    cases accepted <;> exact ⟨hcalls _ _, h.2⟩
  · exact h

theorem sendsOwnBuffer_step {s t : Server} {e : Event} (h : s.SendsOwnBuffer)
    (hstep : s.step e = some t) : t.SendsOwnBuffer := by
  cases (stepped_of_step hstep).2 with
  | accept ok hmain => exact sendsOwnBuffer_accept h ok
  | associate ok hmain => exact h
  | prepare hmain => exact sendsOwnBuffer_prepareRecv h _
  | post accepted hmain => exact sendsOwnBuffer_wsaRecv h _ accepted
  | dequeue hw hqueue => exact h
  -- a worker deletes the connection or goes on to one of the post functions
  | @handle w d hw =>
    unfold Server.handle
    split
    · exact sendsOwnBuffer_delete h d
    · split
      · exact h
      · split
        · exact sendsOwnBuffer_prepareSend h d.conn d.bytes
        · exact sendsOwnBuffer_prepareRecv h d.conn
        · exact h
  | @callRecv w conn accepted hw =>
    have hcall := sendsOwnBuffer_wsaRecv h conn accepted
    cases accepted <;> exact hcall
  | @callSend w conn accepted hw =>
    have hcall := sendsOwnBuffer_wsaSend h conn accepted
    cases accepted <;> exact hcall
  -- the kernel writes bytes, never a `WSABUF`
  | @complete conn i op _ result hop ht =>
    unfold Server.complete at ht
    split at ht
    · next data =>
      split at ht
      · rw [← Option.some.inj ht]
        exact @sendsOwnBuffer_store { s with
          pending := Function.update s.pending conn ((s.pending conn).eraseIdx i) } h data _
      · cases ht
    · split at ht
      · rw [← Option.some.inj ht]
        exact h
      · cases ht
    · rw [← Option.some.inj ht]
      exact h

/-- Every `WSASend` of every run names the buffer of its own operation. -/
theorem sendCalls_run {n : ℕ} {es : List Event} {t : Server}
    (hrun : run Server.step (Server.start n) es = some t) :
    ∀ call ∈ t.sendCalls, call.wsaBuf.buf = .op call.conn .Send := by
  have hinv : t.SendsOwnBuffer :=
    run_invariant Server.SendsOwnBuffer (fun _ _ _ h hstep => sendsOwnBuffer_step h hstep) hrun
      ⟨by simp [Server.start], by simp [Server.start]⟩
  exact hinv.1

/-! ## Receiving -/

/-- Nothing was ever posted, and the connection that `main` is about to post has just been
assigned. -/
structure Server.Fresh (s : Server) : Prop where
  no_recv : s.recvCalls = []
  no_send : s.sendCalls = [] ∧ ∀ conn, s.submitted conn = []
  no_pending : ∀ conn, s.pending conn = []
  no_completion : s.queue = []
  waiting : ∀ (w : ℕ) (state : Worker), s.workers[w]? = some state → state = .waiting
  live : ∀ conn, s.main.holds conn = true → ∃ c, s.heap conn = some c
  assigned : ∀ conn, s.main = .receiving conn → ∀ c, s.heap conn = some c →
    ∃ k, c.recvOp.wsaBuf.buf = .temporary k

/-- A `WSARecv` named a buffer that is dead. -/
def Server.Dangling (s : Server) : Prop :=
  ∃ call ∈ s.recvCalls, ∃ k, call.2.buf = .temporary k

theorem echoes_of_fresh {s : Server} (h : s.Fresh) : Echoes s where
  echo conn := by
    rw [h.no_send.2 conn]
    exact List.nil_prefix
  recv_buffer call hcall := by
    rw [h.no_recv] at hcall
    cases hcall
  copied call hcall := by
    rw [h.no_send.1] at hcall
    cases hcall

theorem not_echoes_of_dangling {s : Server} (h : s.Dangling) : ¬ Echoes s := by
  intro hechoes
  obtain ⟨call, hcall, k, hbuf⟩ := h
  rw [hechoes.recv_buffer call hcall] at hbuf
  cases hbuf

/-! ## The calls of `WSARecv` -/

theorem recvCalls_modify (s : Server) (conn : ℕ) (f : Connection → Connection) :
    (s.modify conn f).recvCalls = s.recvCalls := by
  obtain ⟨_, _, hframe⟩ := modify_frame s conn f
  rw [hframe]

theorem recvCalls_wsaRecv {s : Server} {conn : ℕ} {c : Connection} (h : s.heap conn = some c)
    (accepted : Bool) :
    (s.wsaRecv conn accepted).recvCalls = s.recvCalls ++ [(conn, c.recvOp.wsaBuf)] := by
  unfold Server.wsaRecv Server.submit
  rw [h]
  cases accepted <;> rfl

theorem recvCalls_wsaRecv_grows (s : Server) (conn : ℕ) (accepted : Bool) :
    s.recvCalls <+: (s.wsaRecv conn accepted).recvCalls := by
  cases hheap : s.heap conn with
  | none =>
    simp only [Server.wsaRecv, hheap]
    exact List.prefix_rfl
  | some c =>
    rw [recvCalls_wsaRecv hheap]
    exact List.prefix_append _ _

theorem recvCalls_wsaSend (s : Server) (conn : ℕ) (accepted : Bool) :
    (s.wsaSend conn accepted).recvCalls = s.recvCalls := by
  unfold Server.wsaSend Server.submit
  split
  · cases accepted <;> rfl
  · rfl

theorem recvCalls_complete {s t : Server} {conn : ℕ} {op : Operation} {result : Result}
    (h : s.complete conn op result = some t) : t.recvCalls = s.recvCalls := by
  unfold Server.complete at h
  split at h
  · next data =>
    obtain ⟨_, _, hframe⟩ := store_frame s data op.wsaBuf.buf
    split at h
    · rw [← Option.some.inj h, hframe]
    · cases h
  · split at h
    · rw [← Option.some.inj h]
    · cases h
  · rw [← Option.some.inj h]

/-- As long as nothing is posted, only `main` moves. -/
theorem fresh_step {s t : Server} {e : Event} (h : s.Fresh) (hcall : CallsNoRecv s e)
    (hstep : s.step e = some t) : t.Fresh := by
  cases (stepped_of_step hstep).2 with
  | accept ok hmain =>
    cases ok with
    | false => exact h
    | true =>
      refine ⟨h.no_recv, h.no_send, h.no_pending, h.no_completion, h.waiting, ?_, ?_⟩
      · -- the new connection is live, and not yet assigned to
        intro conn hholds
        obtain rfl : s.next = conn := of_decide_eq_true hholds
        exact ⟨_, Function.update_self _ _ _⟩
      · intro conn hreceiving
        cases hreceiving
  | @associate conn ok hmain =>
    refine ⟨h.no_recv, h.no_send, h.no_pending, h.no_completion, h.waiting, ?_, ?_⟩
    · intro conn' hholds
      apply h.live conn'
      rw [hmain]
      cases ok with
      | true => exact hholds
      | false => cases hholds
    · intro conn' hreceiving
      cases ok <;> cases hreceiving
  -- the assignment copies the `WSABUF` of the temporary
  | @prepare conn hmain =>
    obtain ⟨c, hc⟩ := h.live conn (by rw [hmain]; exact decide_eq_true rfl)
    rw [prepareRecv_eq hc]
    refine ⟨h.no_recv, h.no_send, h.no_pending, h.no_completion, h.waiting, ?_, ?_⟩
    · intro conn' hholds
      obtain rfl : conn = conn' := of_decide_eq_true hholds
      exact ⟨_, Function.update_self _ _ _⟩
    · intro conn' hreceiving c' hc'
      obtain rfl : conn = conn' := Main.receiving.inj hreceiving
      simp only [Function.update_self, Option.some.injEq] at hc'
      rw [← hc']
      exact ⟨s.temporaries, rfl⟩
  | post accepted hmain => exact hcall.elim
  -- no completion without a post, and no worker leaves the wait without one
  | dequeue hw hqueue =>
    rw [h.no_completion] at hqueue
    cases hqueue
  | handle hw => cases h.waiting _ _ hw
  | callRecv accepted hw => cases h.waiting _ _ hw
  | callSend accepted hw => cases h.waiting _ _ hw
  | @complete conn i op _ result hop ht =>
    rw [h.no_pending conn] at hop
    cases hop

/-- `PostRecv` of `main`: the `WSABUF` was copied from the temporary, which is gone. -/
theorem dangling_of_receives {s t : Server} {e : Event} (h : s.Fresh) (hcall : ¬ CallsNoRecv s e)
    (hstep : s.step e = some t) : t.Dangling := by
  cases (stepped_of_step hstep).2 with
  | @post conn accepted hmain =>
    obtain ⟨c, hc⟩ := h.live conn (by rw [hmain]; exact decide_eq_true rfl)
    obtain ⟨k, hbuf⟩ := h.assigned conn hmain c hc
    have hmem : (conn, c.recvOp.wsaBuf) ∈ (s.wsaRecv conn accepted).recvCalls := by
      rw [recvCalls_wsaRecv hc]
      exact List.mem_append_right _ (List.mem_singleton_self _)
    exact ⟨_, hmem, k, hbuf⟩
  -- the workers wait until something is posted
  | callRecv accepted hw => cases h.waiting _ _ hw
  | callSend accepted hw => cases h.waiting _ _ hw
  | accept ok hmain => exact absurd trivial hcall
  | associate ok hmain => exact absurd trivial hcall
  | prepare hmain => exact absurd trivial hcall
  | dequeue hw hqueue => exact absurd trivial hcall
  | handle hw => exact absurd trivial hcall
  | complete result hop ht => exact absurd trivial hcall

/-- No step forgets a call. -/
theorem recvCalls_step {s t : Server} {e : Event} (hstep : s.step e = some t) :
    s.recvCalls <+: t.recvCalls := by
  cases (stepped_of_step hstep).2 with
  | accept ok hmain => cases ok <;> exact List.prefix_rfl
  | associate ok hmain => exact List.prefix_rfl
  | @prepare conn hmain =>
    exact (recvCalls_modify { s with temporaries := s.temporaries + 1 } _ _) ▸ List.prefix_rfl
  | post accepted hmain => exact recvCalls_wsaRecv_grows s _ accepted
  | dequeue hw hqueue => exact List.prefix_rfl
  | @handle w d hw =>
    obtain ⟨_, _, _, _, _, hframe⟩ := handle_frame s w d
    exact hframe ▸ List.prefix_rfl
  | @callRecv w conn accepted hw =>
    have hgrows := recvCalls_wsaRecv_grows s conn accepted
    cases accepted <;> exact hgrows
  | @callSend w conn accepted hw =>
    have hsame := recvCalls_wsaSend s conn accepted
    cases accepted <;> exact hsame ▸ List.prefix_rfl
  | complete result hop ht => exact recvCalls_complete ht ▸ List.prefix_rfl

theorem fresh_start (n : ℕ) : (Server.start n).Fresh where
  no_recv := rfl
  no_send := ⟨rfl, fun _ => rfl⟩
  no_pending _ := rfl
  no_completion := rfl
  waiting w state hw := by
    rw [Server.start, List.getElem?_replicate] at hw
    split at hw
    · exact (Option.some.inj hw).symm
    · cases hw
  live conn hholds := by cases hholds
  assigned conn hmain := by cases hmain

/-- **The echo.** With any number of workers, in any order of steps and completions, the
server echoes exactly in the runs that call `WSARecv` for no connection: the first receive of
the first connection already names a dead buffer. -/
theorem echoes_iff {n : ℕ} {es : List Event} {t : Server}
    (hrun : run Server.step (Server.start n) es = some t) :
    Echoes t ↔ EachStep Server.step CallsNoRecv (Server.start n) es := by
  -- the first `WSARecv` is of a fresh server, and a call is never forgotten
  have hexact := run_exact Server.Fresh Server.Dangling
    (fun s e u hs _ hcall hstep => fresh_step hs hcall hstep)
    (fun s e u hs _ hcall hstep => dangling_of_receives hs hcall hstep)
    (fun s e u ⟨call, hcall, hbuf⟩ _ hstep =>
      ⟨call, (recvCalls_step hstep).subset hcall, hbuf⟩)
    eachStep_true hrun (fresh_start n)
  rcases hexact with ⟨hfresh, hsteps⟩ | ⟨hdangling, hsteps⟩
  · exact iff_of_true (echoes_of_fresh hfresh) hsteps
  · exact iff_of_false (not_echoes_of_dangling hdangling) hsteps

/-- A client that connects and is not received from. -/
theorem echoes_iff_accepted : ∃ t, run Server.step (Server.start 1)
    [.accept true, .associate true, .prepare] = some t ∧ t.main = .receiving 0 ∧ Echoes t := by
  have hsteps : EachStep Server.step CallsNoRecv (Server.start 1)
      [.accept true, .associate true, .prepare] := ⟨trivial, trivial, trivial, trivial⟩
  exact ⟨_, rfl, rfl, (@echoes_iff 1 [.accept true, .associate true, .prepare] _ rfl).mpr hsteps⟩

/-- A client that sends the byte 104: the kernel stores it in the dead buffer, and the worker
sends the zero that the operation's own buffer holds. -/
theorem echoes_fails_client : ∃ t, run Server.step (Server.start 1)
    [.accept true, .associate true, .prepare, .post true, .complete 0 0 (.received [104]),
      .dequeue 0, .handle 0, .call 0 true] = some t ∧
    t.delivered 0 = [104] ∧ t.submitted 0 = [0] ∧ t.recvCalls = [(0, ⟨.temporary 0, 4096⟩)] ∧
    ¬ Echoes t := by
  refine ⟨_, rfl, rfl, rfl, rfl, ?_⟩
  intro h
  have hbuf := h.recv_buffer (0, ⟨.temporary 0, 4096⟩) (List.mem_singleton_self _)
  cases hbuf

end Win32Experiments.WinSockIOCP
