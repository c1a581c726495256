import Win32Experiments.Foundation.Threads
import Win32Experiments.WinSockIOCP.Steps

/-!
# The lifetime of a connection

A connection is owned by whoever will touch it next: `main`, the kernel, the completion queue
or a worker. Every step hands it on, and only a worker with a failed completion deletes it.

* `sound_step`: a step in which no call fails keeps each connection in one place;
* `stopped_step`: an exception stops the accept loop or the process for good;
* `lifetime_iff`: so connections live and die as they should exactly in the runs without a
  failed call.
-/

namespace Win32Experiments.WinSockIOCP

open Foundation

/-! ## Who owns a connection -/

/-- The worker has the connection in its hands. -/
def Worker.holds (conn : ℕ) : Worker → Bool
  | .waiting => false
  | .handling d => d.conn = conn
  | .receiving c => c = conn
  | .sending c => c = conn

/-- The completion is one of the connection. -/
def Completion.isOf (conn : ℕ) (d : Completion) : Bool := d.conn = conn

/-- The operations of the connection that were posted and whose completion no worker has
taken. -/
def Server.outstanding (s : Server) (conn : ℕ) : ℕ :=
  (s.pending conn).length + s.queue.countP (Completion.isOf conn)

/-- The number of places where the connection is. -/
def Server.places (s : Server) (conn : ℕ) : ℕ :=
  (if s.main.holds conn then 1 else 0) + s.outstanding conn +
    s.workers.countP (Worker.holds conn)

/-- How often the connection was deleted. -/
def Server.deletions (s : Server) (conn : ℕ) : ℕ := s.deleted.countP (Completion.isOf conn)

/-- A completion with failure or no bytes that a worker took has led to the deletion of its
connection, or the worker is about to delete it. -/
def Server.FailedDeleted (s : Server) : Prop :=
  ∀ d ∈ s.dequeued, d.failed = true →
    d ∈ s.deleted ∨ ∃ w : ℕ, s.workers[w]? = some (Worker.handling d)

/-- The property of the server: every connection that was allocated is in one place or was
deleted once, and has at most one outstanding operation; it was deleted for a completion
with failure or no bytes, and after such a completion it is deleted; nobody touches it after
that; and the workers and the accept loop run. -/
structure Lifetime (s : Server) : Prop where
  one_place : ∀ conn < s.next, s.places conn + s.deletions conn = 1
  one_operation : ∀ conn, s.outstanding conn ≤ 1
  deleted_failed : ∀ d ∈ s.deleted, d.failed = true
  failed_deleted : s.FailedDeleted
  not_used : s.usedAfterDelete = false
  running : s.terminated = false ∧ s.main ≠ .joining

/-- The condition on a step: no call fails. -/
def NoCallFails : Event → Prop
  | .associate ok => ok = true
  | .post accepted => accepted = true
  | .call _ accepted => accepted = true
  | _ => True

instance (e : Event) : Decidable (NoCallFails e) := by
  cases e <;> unfold NoCallFails <;> infer_instance

/-! ## The connections on the heap -/

/-- The address is no other connection's. -/
def Address.OwnedBy (conn : ℕ) : Address → Prop
  | .op c _ => c = conn
  | .temporary _ => True

/-- A connection as the post functions leave it. -/
structure Connection.Valid (conn : ℕ) (c : Connection) : Prop where
  recv_type : c.recvOp.type = .Recv
  send_type : c.sendOp.type = .Send
  recv_buf : c.recvOp.wsaBuf.buf.OwnedBy conn
  send_buf : c.sendOp.wsaBuf.buf.OwnedBy conn

/-- A valid heap stays valid when one connection is replaced by a valid one. -/
theorem valid_update {heap : ℕ → Option Connection} {conn : ℕ} {c' : Connection}
    (h : ∀ n c, heap n = some c → c.Valid n) (hc' : c'.Valid conn) :
    ∀ n c, Function.update heap conn (some c') n = some c → c.Valid n := by
  intro n c hn
  by_cases heq : n = conn
  · rw [heq, Function.update_self, Option.some.injEq] at hn
    rw [heq, ← hn]
    exact hc'
  · rw [Function.update_of_ne heq] at hn
    exact h n c hn

theorem isSome_update {heap : ℕ → Option Connection} {conn : ℕ} {c c' : Connection}
    (h : heap conn = some c) (n : ℕ) :
    (Function.update heap conn (some c') n).isSome = (heap n).isSome := by
  by_cases heq : n = conn
  · rw [heq, Function.update_self, h]
    rfl
  · rw [Function.update_of_ne heq]

/-! ## The invariant -/

/-- What holds while no call has failed. -/
structure Server.Sound (s : Server) : Prop where
  running : s.terminated = false ∧ s.main ≠ .joining
  one_place : ∀ conn, s.places conn + s.deletions conn = if conn < s.next then 1 else 0
  live_iff : ∀ conn, (s.heap conn).isSome = true ↔ conn < s.next ∧ s.deletions conn = 0
  valid : ∀ conn c, s.heap conn = some c → c.Valid conn
  pending_buf : ∀ conn, ∀ op ∈ s.pending conn, op.wsaBuf.buf.OwnedBy conn
  not_used : s.usedAfterDelete = false
  deleted_failed : ∀ d ∈ s.deleted, d.failed = true
  failed_deleted : s.FailedDeleted

theorem lifetime_of_sound {s : Server} (h : s.Sound) : Lifetime s where
  one_place conn hconn := by rw [h.one_place conn, if_pos hconn]
  one_operation conn := by
    have hone := h.one_place conn
    have hle : (if conn < s.next then 1 else 0) ≤ 1 := by split <;> omega
    rw [Server.places] at hone
    omega
  deleted_failed := h.deleted_failed
  failed_deleted := h.failed_deleted
  not_used := h.not_used
  running := h.running

/-- A connection that is anywhere has not been deleted. -/
theorem live_of_places {s : Server} (h : s.Sound) {conn : ℕ} (hpos : 0 < s.places conn) :
    ∃ c, s.heap conn = some c := by
  have hone := h.one_place conn
  have hlive := h.live_iff conn
  split at hone
  · next hlt =>
    -- it is in one place, so it has no deletion
    exact Option.isSome_iff_exists.mp (hlive.mpr ⟨hlt, by omega⟩)
  · -- a connection that does not exist yet is nowhere
    omega

theorem live_of_main {s : Server} (h : s.Sound) {conn : ℕ} (hmain : s.main.holds conn = true) :
    ∃ c, s.heap conn = some c := by
  apply live_of_places h
  rw [Server.places, if_pos hmain]
  omega

theorem live_of_worker {s : Server} (h : s.Sound) {w conn : ℕ} {state : Worker}
    (hw : s.workers[w]? = some state) (hholds : state.holds conn = true) :
    ∃ c, s.heap conn = some c := by
  have hpos := countP_pos_of_getElem? hw hholds
  apply live_of_places h
  rw [Server.places]
  omega

/-- A step that deletes and allocates nothing keeps the invariant when it leaves each
connection where it is, or hands it on. -/
theorem sound_of_move {s s' : Server} (h : s.Sound)
    (hrunning : s'.terminated = false ∧ s'.main ≠ .joining)
    (hnext : s'.next = s.next) (hdeleted : s'.deleted = s.deleted)
    (hplaces : ∀ conn, s'.places conn = s.places conn)
    (hheap : ∀ conn, (s'.heap conn).isSome = (s.heap conn).isSome)
    (hvalid : ∀ conn c, s'.heap conn = some c → c.Valid conn)
    (hpending : ∀ conn, ∀ op ∈ s'.pending conn, op.wsaBuf.buf.OwnedBy conn)
    (hused : s'.usedAfterDelete = s.usedAfterDelete)
    (hfailed : s'.FailedDeleted) : s'.Sound := by
  have hdeletions : ∀ conn, s'.deletions conn = s.deletions conn := by
    intro conn
    rw [Server.deletions, Server.deletions, hdeleted]
  -- what each connection is counted in is the same before and after
  refine ⟨hrunning, ?_, ?_, hvalid, hpending, hused.trans h.not_used, ?_, hfailed⟩
  · intro conn
    rw [hplaces, hdeletions, hnext]
    exact h.one_place conn
  · intro conn
    rw [hheap, hdeletions, hnext]
    exact h.live_iff conn
  · rw [hdeleted]
    exact h.deleted_failed

/-- A worker that is not at a failed completion can move on. -/
theorem failedDeleted_set {s : Server} {w : ℕ} {state : Worker} (state' : Worker)
    (h : s.FailedDeleted) (hw : s.workers[w]? = some state)
    (hstate : ∀ d : Completion, d.failed = true → state ≠ .handling d) :
    (s.setWorker w state').FailedDeleted := by
  intro d hd hfailed
  rcases h d hd hfailed with hdel | ⟨v, hv⟩
  · exact Or.inl hdel
  · -- the worker that owes the deletion is another one
    have hne : w ≠ v := by
      rintro rfl
      exact hstate d hfailed (Option.some.inj (hw.symm.trans hv))
    refine Or.inr ⟨v, ?_⟩
    show (s.workers.set w state')[v]? = _
    rw [List.getElem?_set_ne hne, hv]

/-! ## Steps of `main` -/

theorem sound_accept {s : Server} (h : s.Sound) (hmain : s.main = .accepting) (ok : Bool) :
    (s.accept ok).Sound := by
  cases ok with
  | false => exact h
  | true =>
    -- the new connection is in no place yet, and was never deleted
    have hzero := h.one_place s.next
    rw [if_neg (Nat.lt_irrefl _)] at hzero
    have hdead : s.deletions s.next = 0 := by omega
    refine ⟨⟨h.running.1, by simp [Server.accept]⟩, ?_, ?_, ?_, h.pending_buf, h.not_used,
      h.deleted_failed, h.failed_deleted⟩
    · -- now it is in the hands of `main`, and the others are where they were
      intro conn
      have hone := h.one_place conn
      rw [Server.places, hmain] at hone
      show (if Main.holds conn (.associating s.next) then 1 else 0) + s.outstanding conn +
        s.workers.countP (Worker.holds conn) + s.deletions conn
        = if conn < s.next + 1 then 1 else 0
      by_cases hconn : conn = s.next
      · rw [hconn] at hone ⊢
        rw [if_neg (Nat.lt_irrefl _)] at hone
        rw [if_pos (Nat.lt_succ_self _)]
        simp only [Main.holds, decide_true, if_true]
        omega
      · have hne : ¬ s.next = conn := fun heq => hconn heq.symm
        have hiff : conn < s.next + 1 ↔ conn < s.next := by omega
        simp only [Main.holds, hne, decide_false, hiff] at hone ⊢
        exact hone
    · -- it is the one connection that comes alive
      intro conn
      show (Function.update s.heap s.next _ conn).isSome = true ↔
        conn < s.next + 1 ∧ s.deletions conn = 0
      by_cases hconn : conn = s.next
      · rw [hconn, Function.update_self]
        simp [hdead]
      · have hiff : conn < s.next + 1 ↔ conn < s.next := by omega
        rw [Function.update_of_ne hconn, hiff]
        exact h.live_iff conn
    · exact valid_update h.valid ⟨rfl, rfl, rfl, rfl⟩

theorem places_main {s s' : Server} (hmain : ∀ conn, s'.main.holds conn = s.main.holds conn)
    (hpending : s'.pending = s.pending) (hqueue : s'.queue = s.queue)
    (hworkers : s'.workers = s.workers) (conn : ℕ) : s'.places conn = s.places conn := by
  rw [Server.places, Server.places, Server.outstanding, Server.outstanding, hmain, hpending,
    hqueue, hworkers]

/-- The types and buffers of a connection after `op = IoContext{ OpType::Recv }`. -/
theorem valid_prepareRecv {conn n : ℕ} {c : Connection} (h : c.Valid conn) :
    ({ c with recvOp := IoContext.construct (.temporary n) .Recv } : Connection).Valid conn :=
  ⟨rfl, h.send_type, trivial, h.send_buf⟩

theorem sound_associate {s : Server} {conn : ℕ} (h : s.Sound) (hmain : s.main = .associating conn) :
    ({ s with main := .preparing conn } : Server).Sound := by
  refine sound_of_move h ⟨h.running.1, by simp⟩ rfl rfl ?_ (fun _ => rfl) h.valid h.pending_buf rfl
    h.failed_deleted
  exact places_main (fun _ => by rw [hmain]; rfl) rfl rfl rfl

theorem sound_prepare {s : Server} {conn : ℕ} (h : s.Sound) (hmain : s.main = .preparing conn) :
    ({ s.prepareRecv conn with main := .receiving conn } : Server).Sound := by
  obtain ⟨c, hc⟩ := live_of_main h (show s.main.holds conn = true by rw [hmain]; simp [Main.holds])
  rw [prepareRecv_eq hc]
  refine sound_of_move h ⟨h.running.1, by simp⟩ rfl rfl ?_ (isSome_update hc)
    (valid_update h.valid (valid_prepareRecv (h.valid conn c hc))) h.pending_buf rfl
    h.failed_deleted
  exact places_main (fun _ => by rw [hmain]; rfl) rfl rfl rfl

/-- One more operation is pending. -/
theorem length_pending_update (pending : ℕ → List Operation) (conn n : ℕ) (op : Operation) :
    (Function.update pending conn (pending conn ++ [op]) n).length
      = (pending n).length + if conn = n then 1 else 0 := by
  by_cases heq : n = conn
  · rw [heq, Function.update_self, List.length_append, if_pos rfl]
    rfl
  · rw [Function.update_of_ne heq, if_neg fun h => heq h.symm, Nat.add_zero]

theorem pending_buf_update {pending : ℕ → List Operation} {conn : ℕ} {op : Operation}
    (h : ∀ n, ∀ op ∈ pending n, op.wsaBuf.buf.OwnedBy n) (hop : op.wsaBuf.buf.OwnedBy conn) :
    ∀ n, ∀ op' ∈ Function.update pending conn (pending conn ++ [op]) n,
      op'.wsaBuf.buf.OwnedBy n := by
  intro n op' hmem
  by_cases heq : n = conn
  · rw [heq, Function.update_self] at hmem
    rw [heq]
    rcases List.mem_append.mp hmem with hmem | hmem
    · exact h conn op' hmem
    · rw [List.mem_singleton.mp hmem]
      exact hop
  · rw [Function.update_of_ne heq] at hmem
    exact h n op' hmem

theorem sound_post {s : Server} {conn : ℕ} (h : s.Sound) (hmain : s.main = .receiving conn) :
    ({ s.wsaRecv conn true with main := .accepting } : Server).Sound := by
  obtain ⟨c, hc⟩ := live_of_main h (show s.main.holds conn = true by rw [hmain]; simp [Main.holds])
  rw [wsaRecv_eq hc]
  refine sound_of_move h ⟨h.running.1, by simp⟩ rfl rfl ?_ (fun _ => rfl) h.valid
    (pending_buf_update h.pending_buf (h.valid conn c hc).recv_buf) rfl h.failed_deleted
  intro n
  simp only [Server.places, Server.outstanding, hmain, Main.holds, length_pending_update]
  simp only [decide_eq_true_eq, Bool.false_eq_true, if_false]
  omega

/-! ## Steps of the workers -/

theorem places_setWorker {s : Server} {w conn : ℕ} {state state' : Worker}
    (hw : s.workers[w]? = some state) :
    (s.setWorker w state').places conn + (if state.holds conn then 1 else 0)
      = s.places conn + if state'.holds conn then 1 else 0 := by
  have hcount := @countP_set_add _ (Worker.holds conn) _ _ _ state' hw
  show (if s.main.holds conn then 1 else 0) + s.outstanding conn +
    (s.workers.set w state').countP (Worker.holds conn) + _ = _
  rw [Server.places]
  omega

/-- A worker takes the next completion. -/
theorem sound_dequeue {s : Server} {w : ℕ} {d : Completion} {queue : List Completion}
    (h : s.Sound) (hw : s.workers[w]? = some .waiting) (hqueue : s.queue = d :: queue) :
    ({ s with queue, dequeued := s.dequeued ++ [d] }.setWorker w (.handling d)).Sound := by
  refine sound_of_move h h.running rfl rfl ?_ (fun _ => rfl) h.valid h.pending_buf rfl ?_
  · intro conn
    have hplaces := @places_setWorker { s with queue, dequeued := s.dequeued ++ [d] } w conn _
      (.handling d) hw
    -- one place fewer in the queue, and one more among the workers
    have hbefore : s.places conn
        = ({ s with queue, dequeued := s.dequeued ++ [d] } : Server).places conn
          + if d.conn = conn then 1 else 0 := by
      simp only [Server.places, Server.outstanding, hqueue, List.countP_cons, Completion.isOf,
        decide_eq_true_eq]
      omega
    simp only [Worker.holds, Bool.false_eq_true, if_false, decide_eq_true_eq] at hplaces
    omega
  · intro d' hd' hfailed
    have hlt : w < s.workers.length := (List.getElem?_eq_some_iff.mp hw).1
    rcases List.mem_append.mp hd' with hd' | hd'
    · exact failedDeleted_set _ h.failed_deleted hw (by simp) d' hd' hfailed
    · rw [List.mem_singleton.mp hd']
      exact Or.inr ⟨w, List.getElem?_set_self hlt⟩

/-- A worker deletes the connection of a failed completion. -/
theorem sound_delete {s : Server} {w : ℕ} {d : Completion} (h : s.Sound)
    (hw : s.workers[w]? = some (.handling d)) (hfailed : d.failed = true) :
    ((s.delete d).setWorker w .waiting).Sound := by
  obtain ⟨c, hc⟩ := live_of_worker h hw (show Worker.holds d.conn (.handling d) = true by
    simp [Worker.holds])
  have hdeletions : ∀ conn, ((s.delete d).setWorker w .waiting).deletions conn
      = s.deletions conn + if d.conn = conn then 1 else 0 := by
    intro conn
    show (s.deleted ++ [d]).countP (Completion.isOf conn) = _
    rw [List.countP_append, Server.deletions]
    simp [List.countP_cons, Completion.isOf]
  have hplaces : ∀ conn, ((s.delete d).setWorker w .waiting).places conn
      + (if d.conn = conn then 1 else 0) = s.places conn := by
    intro conn
    have hset := @places_setWorker (s.delete d) w conn _ .waiting hw
    have hsame : (s.delete d).places conn = s.places conn := rfl
    simp only [Worker.holds, Bool.false_eq_true, if_false, decide_eq_true_eq] at hset
    omega
  refine ⟨h.running, ?_, ?_, ?_, h.pending_buf, ?_, ?_, ?_⟩
  · -- the place that the worker gives up becomes a deletion
    intro conn
    have hone := h.one_place conn
    have hmoved := hplaces conn
    rw [hdeletions]
    show _ = if conn < s.next then 1 else 0
    omega
  · -- the connection is dead, and the others are untouched
    intro conn
    have hlive := h.live_iff conn
    rw [hdeletions]
    show (Function.update s.heap d.conn none conn).isSome = true ↔ _
    by_cases heq : conn = d.conn
    · rw [heq, Function.update_self]
      simp
    · rw [Function.update_of_ne heq, if_neg fun h => heq h.symm, Nat.add_zero]
      exact hlive
  · intro conn c' hc'
    have hc' : Function.update s.heap d.conn none conn = some c' := hc'
    by_cases heq : conn = d.conn
    · rw [heq, Function.update_self] at hc'
      simp at hc'
    · rw [Function.update_of_ne heq] at hc'
      exact h.valid conn c' hc'
  · -- the connection was live until now: this is no second deletion
    show (s.usedAfterDelete || (s.heap d.conn).isNone) = false
    rw [h.not_used, hc]
    rfl
  · intro d' hd'
    rcases List.mem_append.mp hd' with hd' | hd'
    · exact h.deleted_failed d' hd'
    · rw [List.mem_singleton.mp hd']
      exact hfailed
  · -- this worker's completion is settled, and no other worker moved
    intro d' hd' hfailed'
    rcases h.failed_deleted d' hd' hfailed' with hdel | ⟨v, hv⟩
    · exact Or.inl (List.mem_append_left _ hdel)
    · by_cases heq : w = v
      · have hsame : d = d' := by
          rw [heq, hv] at hw
          exact (Worker.handling.inj (Option.some.inj hw)).symm
        exact Or.inl (List.mem_append_right _ (by rw [hsame]; exact List.mem_singleton_self _))
      · refine Or.inr ⟨v, ?_⟩
        show (s.workers.set w .waiting)[v]? = _
        rw [List.getElem?_set_ne heq, hv]

/-- A worker that hands its connection to its own next state keeps the places. -/
theorem places_forward {s s' : Server} {w : ℕ} {state state' : Worker}
    (hw : s.workers[w]? = some state) (hmain : s'.main = s.main) (hpending : s'.pending = s.pending)
    (hqueue : s'.queue = s.queue) (hworkers : s'.workers = s.workers)
    (hholds : ∀ conn, state'.holds conn = state.holds conn) (conn : ℕ) :
    (s'.setWorker w state').places conn = s.places conn := by
  have hset := @places_setWorker s' w conn state state' (by rw [hworkers]; exact hw)
  have hsame := places_main (fun conn => by rw [hmain]) hpending hqueue hworkers conn
  rw [hholds conn, hsame] at hset
  omega

/-- The operation that a completion of a live connection belongs to is of its type. -/
theorem op_type {conn : ℕ} {c : Connection} (h : c.Valid conn) (type : OpType) :
    (c.op type).type = if type = .Send then .Send else .Recv := by
  cases type with
  | Send => exact h.send_type
  | Recv => exact h.recv_type
  | Accept => exact h.recv_type

/-- A worker goes from a completion that carries bytes to the call of a post function. -/
theorem sound_handle {s : Server} {w : ℕ} {d : Completion} (h : s.Sound)
    (hw : s.workers[w]? = some (.handling d)) : (s.handle w d).Sound := by
  unfold Server.handle
  split
  · next hfailed => exact sound_delete h hw hfailed
  · next hfailed =>
    obtain ⟨c, hc⟩ := live_of_worker h hw (show Worker.holds d.conn (.handling d) = true by
      simp [Worker.holds])
    have hvalid := h.valid d.conn c hc
    -- the completion has not failed, so no deletion is owed for it
    have hstate : ∀ d' : Completion, d'.failed = true → Worker.handling d ≠ .handling d' := by
      rintro d' hd' heq
      rw [Worker.handling.inj heq] at hfailed
      exact hfailed hd'
    simp only [hc, op_type hvalid]
    -- a finished send is followed by a receive, and a receive by a send
    by_cases htype : d.type = .Send
    · rw [if_pos htype]
      show ((s.prepareRecv d.conn).setWorker w (.receiving d.conn)).Sound
      rw [prepareRecv_eq hc]
      exact sound_of_move h h.running rfl rfl
        (places_forward hw rfl rfl rfl rfl fun _ => rfl) (isSome_update hc)
        (valid_update h.valid (valid_prepareRecv hvalid)) h.pending_buf rfl
        (failedDeleted_set _ h.failed_deleted hw hstate)
    · rw [if_neg htype]
      show ((s.prepareSend d.conn d.bytes).setWorker w (.sending d.conn)).Sound
      rw [prepareSend_eq hc]
      refine sound_of_move h h.running rfl rfl
        (places_forward hw rfl rfl rfl rfl fun _ => rfl) (isSome_update hc) ?_ h.pending_buf rfl
        (failedDeleted_set _ h.failed_deleted hw hstate)
      exact valid_update h.valid ⟨hvalid.recv_type, rfl, hvalid.recv_buf, rfl⟩

/-- A connection with one more pending operation is in one more place. -/
theorem places_submit (s : Server) {s' : Server} {conn n : ℕ} {op : Operation}
    (hmain : s'.main = s.main) (hqueue : s'.queue = s.queue) (hworkers : s'.workers = s.workers)
    (hpending : s'.pending = Function.update s.pending conn (s.pending conn ++ [op])) :
    s'.places n = s.places n + if conn = n then 1 else 0 := by
  have hlength := length_pending_update s.pending conn n op
  rw [Server.places, Server.places, Server.outstanding, Server.outstanding, hmain, hqueue,
    hworkers, hpending]
  omega

/-- A worker makes the call with the connection it has, which is then the kernel's. -/
theorem sound_submit {s : Server} {w conn : ℕ} {state : Worker} {op : Operation}
    (recvCalls : List (ℕ × WsaBuf)) (sendCalls : List SendCall) (submitted : ℕ → List UInt8)
    (h : s.Sound) (hw : s.workers[w]? = some state)
    (hholds : ∀ n, state.holds n = decide (conn = n))
    (hstate : ∀ d : Completion, state ≠ .handling d) (hop : op.wsaBuf.buf.OwnedBy conn) :
    ({ s with
        recvCalls, sendCalls, submitted
        pending := Function.update s.pending conn (s.pending conn ++ [op]) }.setWorker w
          .waiting).Sound := by
  refine sound_of_move h h.running rfl rfl ?_ (fun _ => rfl) h.valid
    (pending_buf_update h.pending_buf hop) rfl
    (failedDeleted_set _ h.failed_deleted hw fun d _ => hstate d)
  intro n
  have hset := @places_setWorker s w n state .waiting hw
  have hmore := @places_submit (s.setWorker w .waiting) ({ s with
    recvCalls, sendCalls, submitted
    pending := Function.update s.pending conn (s.pending conn ++ [op]) }.setWorker w .waiting)
    conn n op rfl rfl rfl rfl
  simp only [hholds, show Worker.waiting.holds n = false from rfl, decide_eq_true_eq,
    Bool.false_eq_true, if_false] at hset
  omega

/-- A worker's accepted `WSARecv`. -/
theorem sound_callRecv {s : Server} {w conn : ℕ} (h : s.Sound)
    (hw : s.workers[w]? = some (.receiving conn)) :
    ((s.wsaRecv conn true).setWorker w .waiting).Sound := by
  obtain ⟨c, hc⟩ := live_of_worker h hw (show Worker.holds conn (.receiving conn) = true by
    simp [Worker.holds])
  rw [wsaRecv_eq hc]
  exact sound_submit _ _ _ h hw (fun _ => rfl) (by simp) (h.valid conn c hc).recv_buf

/-- A worker's accepted `WSASend`. -/
theorem sound_callSend {s : Server} {w conn : ℕ} (h : s.Sound)
    (hw : s.workers[w]? = some (.sending conn)) :
    ((s.wsaSend conn true).setWorker w .waiting).Sound := by
  obtain ⟨c, hc⟩ := live_of_worker h hw (show Worker.holds conn (.sending conn) = true by
    simp [Worker.holds])
  rw [wsaSend_eq hc]
  exact sound_submit _ _ _ h hw (fun _ => rfl) (by simp) (h.valid conn c hc).send_buf

/-! ## Steps of the kernel -/

/-- The kernel stores into a buffer of a live connection, or into dead memory: only the
contents of the heap change. -/
theorem store_eq {s : Server} {conn : ℕ} {c : Connection} {address : Address}
    (hvalid : ∀ n c, s.heap n = some c → c.Valid n) (h : s.heap conn = some c)
    (howned : address.OwnedBy conn) (data : List UInt8) :
    ∃ heap, s.store data address = { s with heap } ∧
      (∀ n, (heap n).isSome = (s.heap n).isSome) ∧ ∀ n c, heap n = some c → c.Valid n := by
  have hc := hvalid conn c h
  cases address with
  | temporary n => exact ⟨s.heap, rfl, fun _ => rfl, hvalid⟩
  | op conn' type =>
    obtain rfl : conn' = conn := howned
    cases type with
    | Send =>
      exact ⟨_, modify_eq h _, isSome_update h,
        valid_update hvalid ⟨hc.recv_type, hc.send_type, hc.recv_buf, hc.send_buf⟩⟩
    | Recv =>
      exact ⟨_, modify_eq h _, isSome_update h,
        valid_update hvalid ⟨hc.recv_type, hc.send_type, hc.recv_buf, hc.send_buf⟩⟩
    | Accept =>
      exact ⟨_, modify_eq h _, isSome_update h,
        valid_update hvalid ⟨hc.recv_type, hc.send_type, hc.recv_buf, hc.send_buf⟩⟩

/-- One operation of a connection goes from the kernel to the queue. -/
theorem outstanding_complete {s : Server} {conn i n : ℕ} {op : Operation} {d : Completion}
    (hop : (s.pending conn)[i]? = some op) (hd : d.conn = conn) :
    (Function.update s.pending conn ((s.pending conn).eraseIdx i) n).length +
      (s.queue ++ [d]).countP (Completion.isOf n) = s.outstanding n := by
  have hlt : i < (s.pending conn).length := (List.getElem?_eq_some_iff.mp hop).1
  rw [List.countP_append, List.countP_singleton, Completion.isOf, Server.outstanding, hd]
  by_cases heq : n = conn
  · -- one fewer in the kernel, and one more in the queue
    rw [heq, Function.update_self, List.length_eraseIdx_of_lt hlt]
    simp only [decide_true, if_true]
    omega
  · have hne : ¬ conn = n := fun h => heq h.symm
    rw [Function.update_of_ne heq]
    simp only [hne, decide_false, Bool.false_eq_true, if_false]
    omega

/-- The kernel completes an operation, with or without a store into its buffer. -/
theorem sound_completed {s : Server} {conn i : ℕ} {op : Operation} {d : Completion}
    (heap : ℕ → Option Connection) (delivered lastReceived : ℕ → List UInt8) (h : s.Sound)
    (hop : (s.pending conn)[i]? = some op) (hd : d.conn = conn)
    (hheap : ∀ n, (heap n).isSome = (s.heap n).isSome)
    (hvalid : ∀ n c, heap n = some c → c.Valid n) :
    ({ s with
        heap, delivered, lastReceived
        pending := Function.update s.pending conn ((s.pending conn).eraseIdx i)
        queue := s.queue ++ [d] } : Server).Sound := by
  refine sound_of_move h h.running rfl rfl ?_ hheap hvalid ?_ rfl h.failed_deleted
  · intro n
    have hsame := @outstanding_complete s conn i n op d hop hd
    rw [Server.places, Server.places, ← hsame]
    rfl
  · intro n op' hmem
    by_cases heq : n = conn
    · simp only [heq, Function.update_self] at hmem
      rw [heq]
      exact h.pending_buf conn op' (List.mem_of_mem_eraseIdx hmem)
    · simp only [Function.update_of_ne heq] at hmem
      exact h.pending_buf n op' hmem

/-- An operation in the kernel has a live connection. -/
theorem live_of_pending {s : Server} (h : s.Sound) {conn i : ℕ} {op : Operation}
    (hop : (s.pending conn)[i]? = some op) : ∃ c, s.heap conn = some c := by
  have hlt : i < (s.pending conn).length := (List.getElem?_eq_some_iff.mp hop).1
  apply live_of_places h
  rw [Server.places, Server.outstanding]
  omega

theorem sound_complete {s t : Server} {conn i : ℕ} {op : Operation} {result : Result}
    (h : s.Sound) (hop : (s.pending conn)[i]? = some op)
    (hcomplete : { s with
        pending := Function.update s.pending conn ((s.pending conn).eraseIdx i) }.complete
          conn op result = some t) : t.Sound := by
  cases result with
  | failed =>
    rw [← Option.some.inj hcomplete]
    exact sound_completed s.heap s.delivered s.lastReceived h hop rfl (fun _ => rfl) h.valid
  | sent bytes =>
    by_cases htype : op.type = .Send
    · rw [Server.complete, if_pos htype, Option.some.injEq] at hcomplete
      rw [← hcomplete]
      exact sound_completed s.heap s.delivered s.lastReceived h hop rfl (fun _ => rfl) h.valid
    · rw [Server.complete, if_neg htype] at hcomplete
      cases hcomplete
  | received data =>
    by_cases htype : op.type = .Recv
    · -- the operation is pending, so its connection is live and the store hits no other
      obtain ⟨c, hc⟩ := live_of_pending h hop
      have howned := h.pending_buf conn op (List.mem_of_getElem? hop)
      obtain ⟨heap, hstore, hheap, hvalid⟩ :=
        @store_eq { s with
          pending := Function.update s.pending conn ((s.pending conn).eraseIdx i) } conn c _
          h.valid hc howned data
      rw [Server.complete, if_pos htype, Option.some.injEq] at hcomplete
      simp only [hstore] at hcomplete
      rw [← hcomplete]
      exact sound_completed heap _ _ h hop rfl hheap hvalid
    · rw [Server.complete, if_neg htype] at hcomplete
      cases hcomplete

/-! ## Runs -/

/-- A step in which no call fails keeps each connection in one place. -/
theorem sound_step {s t : Server} {e : Event} (h : s.Sound) (hok : NoCallFails e)
    (hstep : s.step e = some t) : t.Sound := by
  cases (stepped_of_step hstep).2 with
  | accept ok hmain => exact sound_accept h hmain ok
  | associate ok hmain =>
    obtain rfl : ok = true := hok
    exact sound_associate h hmain
  | prepare hmain => exact sound_prepare h hmain
  | post accepted hmain =>
    obtain rfl : accepted = true := hok
    exact sound_post h hmain
  | dequeue hw hqueue => exact sound_dequeue h hw hqueue
  | handle hw => exact sound_handle h hw
  | callRecv accepted hw =>
    obtain rfl : accepted = true := hok
    exact sound_callRecv h hw
  | callSend accepted hw =>
    obtain rfl : accepted = true := hok
    exact sound_callSend h hw
  | complete result hop ht => exact sound_complete h hop ht

/-- The accept loop or the whole process has stopped. -/
def Server.Stopped (s : Server) : Prop := s.terminated = true ∨ s.main = .joining

/-- A call that fails throws: out of `main`'s loop, or out of a worker's thread function. -/
theorem stopped_of_fails {s t : Server} {e : Event} (hfails : ¬ NoCallFails e)
    (hstep : s.step e = some t) : t.Stopped := by
  cases (stepped_of_step hstep).2 with
  | associate ok hmain =>
    obtain rfl : ok = false := Bool.eq_false_iff.mpr hfails
    exact Or.inr rfl
  | post accepted hmain =>
    obtain rfl : accepted = false := Bool.eq_false_iff.mpr hfails
    exact Or.inr rfl
  | callRecv accepted hw =>
    obtain rfl : accepted = false := Bool.eq_false_iff.mpr hfails
    exact Or.inl rfl
  | callSend accepted hw =>
    obtain rfl : accepted = false := Bool.eq_false_iff.mpr hfails
    exact Or.inl rfl
  | accept ok hmain => exact absurd trivial hfails
  | prepare hmain => exact absurd trivial hfails
  | dequeue hw hqueue => exact absurd trivial hfails
  | handle hw => exact absurd trivial hfails
  | complete result hop ht => exact absurd trivial hfails

/-- The workers and the kernel leave `main` where it is. -/
theorem main_wsaRecv (s : Server) (conn : ℕ) (accepted : Bool) :
    (s.wsaRecv conn accepted).main = s.main := by
  unfold Server.wsaRecv Server.submit
  split
  · cases accepted <;> rfl
  · rfl

theorem main_wsaSend (s : Server) (conn : ℕ) (accepted : Bool) :
    (s.wsaSend conn accepted).main = s.main := by
  unfold Server.wsaSend Server.submit
  split
  · cases accepted <;> rfl
  · rfl

theorem main_returned (s : Server) (w : ℕ) (accepted : Bool) :
    (s.returned w accepted).main = s.main := by
  cases accepted <;> rfl

theorem main_complete {s t : Server} {conn : ℕ} {op : Operation} {result : Result}
    (h : s.complete conn op result = some t) : t.main = s.main := by
  unfold Server.complete at h
  split at h
  · next data =>
    obtain ⟨heap, used, hstore⟩ := store_frame s data op.wsaBuf.buf
    split at h
    · rw [← Option.some.inj h, hstore]
    · cases h
  · split at h
    · rw [← Option.some.inj h]
    · cases h
  · rw [← Option.some.inj h]

/-- What has stopped does not start again. -/
theorem stopped_step {s t : Server} {e : Event} (h : s.Stopped) (hstep : s.step e = some t) :
    t.Stopped := by
  obtain ⟨hrunning, hstepped⟩ := stepped_of_step hstep
  -- a terminated process takes no step, so it is the accept loop that has stopped
  have hjoining : s.main = .joining := h.resolve_left (by rw [hrunning]; simp)
  cases hstepped with
  | accept ok hmain => rw [hjoining] at hmain; cases hmain
  | associate ok hmain => rw [hjoining] at hmain; cases hmain
  | prepare hmain => rw [hjoining] at hmain; cases hmain
  | post accepted hmain => rw [hjoining] at hmain; cases hmain
  | dequeue hw hqueue => exact Or.inr hjoining
  | @handle w d hw =>
    obtain ⟨_, _, _, _, _, hframe⟩ := handle_frame s w d
    rw [hframe]
    exact Or.inr hjoining
  | callRecv accepted hw => exact Or.inr (by rw [main_returned, main_wsaRecv, hjoining])
  | callSend accepted hw => exact Or.inr (by rw [main_returned, main_wsaSend, hjoining])
  | complete result hop ht => exact Or.inr ((main_complete ht).trans hjoining)

theorem sound_start (n : ℕ) : (Server.start n).Sound where
  running := ⟨rfl, by simp [Server.start]⟩
  one_place conn := by
    have hworkers : (List.replicate n Worker.waiting).countP (Worker.holds conn) = 0 := by
      rw [List.countP_replicate]
      rfl
    simp [Server.places, Server.outstanding, Server.deletions, Server.start, Main.holds, hworkers]
  live_iff conn := by simp [Server.start]
  valid conn c hc := by simp [Server.start] at hc
  pending_buf conn op hop := by simp [Server.start] at hop
  not_used := rfl
  deleted_failed d hd := by simp [Server.start] at hd
  failed_deleted d hd := by simp [Server.start] at hd

/-- **The lifetime of connections.** With any number of workers, in any order of steps, every
connection has one owner until it is deleted, once, and the server keeps running, exactly in
the runs where no call of `Associate`, `WSARecv` or `WSASend` fails. -/
theorem lifetime_iff {n : ℕ} {es : List Event} {t : Server}
    (hrun : run Server.step (Server.start n) es = some t) :
    Lifetime t ↔ EachStep Server.step (fun _ e => NoCallFails e) (Server.start n) es := by
  -- the first failed call stops the server, and it stays stopped
  have hexact := run_exact Server.Sound Server.Stopped
    (fun s e u hs _ hok hstep => sound_step hs hok hstep)
    (fun s e u _ _ hfails hstep => stopped_of_fails hfails hstep)
    (fun s e u hs _ hstep => stopped_step hs hstep) eachStep_true hrun (sound_start n)
  rcases hexact with ⟨hsound, hsteps⟩ | ⟨hstopped, hsteps⟩
  · exact iff_of_true (lifetime_of_sound hsound) hsteps
  · refine iff_of_false (fun h => ?_) hsteps
    rcases hstopped with hterminated | hjoining
    · exact absurd (h.running.1.symm.trans hterminated) (by simp)
    · exact h.running.2 hjoining

/-- A client that sends one byte, takes its echo and closes. -/
def oneClient : List Event :=
  [.accept true, .associate true, .prepare, .post true, .complete 0 0 (.received [104]),
    .dequeue 0, .handle 0, .call 0 true, .complete 0 0 (.sent 1), .dequeue 0, .handle 0,
    .call 0 true, .complete 0 0 (.received []), .dequeue 0, .handle 0]

/-- Its connection is deleted. -/
theorem lifetime_iff_oneClient : ∃ t, run Server.step (Server.start 1) oneClient = some t ∧
    t.deletions 0 = 1 ∧ Lifetime t := by
  have hsteps : EachStep Server.step (fun _ e => NoCallFails e) (Server.start 1) oneClient := by
    decide
  exact ⟨_, rfl, rfl, (@lifetime_iff 1 oneClient _ rfl).mpr hsteps⟩

/-- The first receive of the first client fails at once: `main` leaves the accept loop, and
nobody will ever delete the connection. -/
theorem lifetime_fails_receive : ∃ t, run Server.step (Server.start 1)
    [.accept true, .associate true, .prepare, .post false] = some t ∧
    t.main = .joining ∧ t.places 0 + t.deletions 0 = 0 ∧ ¬ Lifetime t :=
  ⟨_, rfl, rfl, rfl, fun h => h.running.2 rfl⟩

end Win32Experiments.WinSockIOCP
