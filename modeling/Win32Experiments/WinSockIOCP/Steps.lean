import Win32Experiments.WinSockIOCP.Server

/-!
# The steps of the IOCP echo server

What the post functions do with a connection that is alive, and the one inversion of a step
that the proofs about runs use.

* `stepped_of_step`: a step is one of the constructors of `Server.Stepped`.
-/

namespace Win32Experiments.WinSockIOCP

open Foundation

/-- `main` has the connection in its hands. -/
def Main.holds (conn : ℕ) : Main → Bool
  | .associating c => c = conn
  | .preparing c => c = conn
  | .receiving c => c = conn
  | .accepting => false
  | .joining => false

/-! ## The post functions on a live connection -/

/-- The heap after a write to a live connection. -/
theorem modify_eq {s : Server} {conn : ℕ} {c : Connection} (h : s.heap conn = some c)
    (f : Connection → Connection) :
    s.modify conn f = { s with heap := Function.update s.heap conn (some (f c)) } := by
  rw [Server.modify, h]

/-- `PostRecv` up to `WSARecv`, by whoever has the connection. -/
theorem prepareRecv_eq {s : Server} {conn : ℕ} {c : Connection} (h : s.heap conn = some c) :
    s.prepareRecv conn =
      { s with
        temporaries := s.temporaries + 1
        heap := Function.update s.heap conn
          (some { c with recvOp := IoContext.construct (.temporary s.temporaries) .Recv }) } :=
  @modify_eq { s with temporaries := s.temporaries + 1 } conn c h _

/-- `PostSend` up to `WSASend`, by whoever has the connection. -/
theorem prepareSend_eq {s : Server} {conn bytes : ℕ} {c : Connection} (h : s.heap conn = some c) :
    s.prepareSend conn bytes =
      { s with
        temporaries := s.temporaries + 1
        heap := Function.update s.heap conn
          (some { c with
            sendOp :=
              { type := .Send
                wsaBuf := ⟨.op conn .Send, bytes⟩
                buffer := Foundation.store (List.replicate bufferSize 0) 0
                  (window c.recvOp.buffer 0 bytes) } }) } :=
  @modify_eq { s with temporaries := s.temporaries + 1 } conn c h _

/-- An accepted `WSARecv` on a live connection. -/
theorem wsaRecv_eq {s : Server} {conn : ℕ} {c : Connection} (h : s.heap conn = some c) :
    s.wsaRecv conn true =
      { s with
        recvCalls := s.recvCalls ++ [(conn, c.recvOp.wsaBuf)]
        pending := Function.update s.pending conn
          (s.pending conn ++ [⟨.Recv, c.recvOp.wsaBuf⟩]) } := by
  unfold Server.wsaRecv
  rw [h]
  rfl

/-- An accepted `WSASend` on a live connection. -/
theorem wsaSend_eq {s : Server} {conn : ℕ} {c : Connection} (h : s.heap conn = some c) :
    s.wsaSend conn true =
      { s with
        sendCalls := s.sendCalls ++ [⟨conn, c.sendOp.wsaBuf, s.bytesAt c.sendOp.wsaBuf,
          s.lastReceived conn⟩]
        submitted := Function.update s.submitted conn
          (s.submitted conn ++ s.bytesAt c.sendOp.wsaBuf)
        pending := Function.update s.pending conn
          (s.pending conn ++ [⟨.Send, c.sendOp.wsaBuf⟩]) } := by
  unfold Server.wsaSend
  rw [h]
  rfl

/-! ## What else the statements leave alone -/

/-- A write to a connection, alive or not, touches the heap only. -/
theorem modify_frame (s : Server) (conn : ℕ) (f : Connection → Connection) :
    ∃ heap usedAfterDelete, s.modify conn f = { s with heap, usedAfterDelete } := by
  unfold Server.modify
  split
  · exact ⟨_, s.usedAfterDelete, rfl⟩
  · exact ⟨s.heap, _, rfl⟩

theorem store_frame (s : Server) (data : List UInt8) (address : Address) :
    ∃ heap usedAfterDelete, s.store data address = { s with heap, usedAfterDelete } := by
  unfold Server.store
  split
  · exact modify_frame s _ _
  · exact modify_frame s _ _
  · exact ⟨s.heap, s.usedAfterDelete, rfl⟩

/-- A worker that handles a completion makes no call and leaves `main`, the kernel and the
queue alone. -/
theorem handle_frame (s : Server) (w : ℕ) (d : Completion) :
    ∃ heap temporaries usedAfterDelete deleted workers, s.handle w d =
      { s with heap, temporaries, usedAfterDelete, deleted, workers } := by
  unfold Server.handle
  split
  · exact ⟨_, s.temporaries, _, _, _, rfl⟩
  · split
    · exact ⟨s.heap, s.temporaries, _, s.deleted, _, rfl⟩
    · split
      · obtain ⟨heap, used, h⟩ := modify_frame { s with temporaries := s.temporaries + 1 } d.conn _
        rw [Server.prepareSend, h]
        exact ⟨heap, _, used, s.deleted, _, rfl⟩
      · obtain ⟨heap, used, h⟩ := modify_frame { s with temporaries := s.temporaries + 1 } d.conn _
        rw [Server.prepareRecv, h]
        exact ⟨heap, _, used, s.deleted, _, rfl⟩
      · exact ⟨s.heap, s.temporaries, s.usedAfterDelete, s.deleted, _, rfl⟩

/-! ## The branches of a step -/

/-- The steps of a server that has not been terminated, by the branch of `Server.step`. -/
inductive Server.Stepped (s : Server) : Event → Server → Prop
  | accept (ok : Bool) (hmain : s.main = .accepting) : Stepped s (.accept ok) (s.accept ok)
  | associate {conn : ℕ} (ok : Bool) (hmain : s.main = .associating conn) :
    Stepped s (.associate ok) { s with main := if ok then .preparing conn else .joining }
  | prepare {conn : ℕ} (hmain : s.main = .preparing conn) :
    Stepped s .prepare { s.prepareRecv conn with main := .receiving conn }
  | post {conn : ℕ} (accepted : Bool) (hmain : s.main = .receiving conn) :
    Stepped s (.post accepted)
      { s.wsaRecv conn accepted with main := if accepted then .accepting else .joining }
  | dequeue {w : ℕ} {d : Completion} {queue : List Completion}
    (hw : s.workers[w]? = some .waiting) (hqueue : s.queue = d :: queue) :
    Stepped s (.dequeue w)
      ({ s with queue, dequeued := s.dequeued ++ [d] }.setWorker w (.handling d))
  | handle {w : ℕ} {d : Completion} (hw : s.workers[w]? = some (.handling d)) :
    Stepped s (.handle w) (s.handle w d)
  | callRecv {w conn : ℕ} (accepted : Bool) (hw : s.workers[w]? = some (.receiving conn)) :
    Stepped s (.call w accepted) ((s.wsaRecv conn accepted).returned w accepted)
  | callSend {w conn : ℕ} (accepted : Bool) (hw : s.workers[w]? = some (.sending conn)) :
    Stepped s (.call w accepted) ((s.wsaSend conn accepted).returned w accepted)
  | complete {conn i : ℕ} {op : Operation} {t : Server} (result : Result)
    (hop : (s.pending conn)[i]? = some op)
    (ht : { s with
      pending := Function.update s.pending conn ((s.pending conn).eraseIdx i) }.complete
        conn op result = some t) :
    Stepped s (.complete conn i result) t

/-- Nothing runs in a terminated process, and otherwise a step takes one of the branches. -/
theorem stepped_of_step {s t : Server} {e : Event} (h : s.step e = some t) :
    s.terminated = false ∧ s.Stepped e t := by
  unfold Server.step at h
  split at h
  · cases h
  · next hrunning =>
    refine ⟨Bool.not_eq_true _ ▸ hrunning, ?_⟩
    cases e with
    | accept ok =>
      simp only at h
      split at h
      · next hmain =>
        rw [← Option.some.inj h]
        exact .accept ok hmain
      · cases h
    | associate ok =>
      simp only at h
      split at h
      · next conn hmain =>
        rw [← Option.some.inj h]
        exact .associate ok hmain
      · cases h
    | prepare =>
      simp only at h
      split at h
      · next conn hmain =>
        rw [← Option.some.inj h]
        exact .prepare hmain
      · cases h
    | post accepted =>
      simp only at h
      split at h
      · next conn hmain =>
        rw [← Option.some.inj h]
        exact .post accepted hmain
      · cases h
    | dequeue w =>
      simp only at h
      split at h
      · next d queue hw hqueue =>
        rw [← Option.some.inj h]
        exact .dequeue hw hqueue
      · cases h
    | handle w =>
      simp only at h
      split at h
      · next d hw =>
        rw [← Option.some.inj h]
        exact .handle hw
      · cases h
    | call w accepted =>
      simp only at h
      split at h
      · next conn hw =>
        rw [← Option.some.inj h]
        exact .callRecv accepted hw
      · next conn hw =>
        rw [← Option.some.inj h]
        exact .callSend accepted hw
      · cases h
    | complete conn i result =>
      simp only at h
      split at h
      · next op hop => exact .complete result hop h
      · cases h

end Win32Experiments.WinSockIOCP
