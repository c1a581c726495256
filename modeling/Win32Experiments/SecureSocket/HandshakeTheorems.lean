import Win32Experiments.SecureSocket.Handshake

/-!
# The handshake keeps the bytes Schannel has not consumed

The loop drops its input whenever the second buffer is not `SECBUFFER_EXTRA`. That is right
when everything was consumed and wrong when Schannel asks for more of a message that has
partly arrived.

* `inOrder_step`: every other pass keeps `incoming` equal to the unconsumed bytes;
* `dropped_step`: a pass that drops a partial message leaves a gap in the stream;
* `keepsUnconsumed_iff`: so a run keeps every byte exactly when no pass did that.
-/

namespace Win32Experiments.SecureSocket

open Foundation Sspi Winsock

/-! ## The buffer of the socket -/

theorem length_buffered_le (s : TlsSocket) : s.buffered.length ≤ s.received := by
  rw [TlsSocket.buffered, window, List.length_take]
  exact Nat.min_le_left _ _

theorem length_buffered {s : TlsSocket} (h : s.received ≤ s.incoming.length) :
    s.buffered.length = s.received :=
  length_window (by omega)

/-- Received bytes extend the buffered ones. -/
theorem buffered_append {s : TlsSocket} (h : s.received ≤ s.incoming.length) (bytes : List UInt8) :
    (s.append bytes).buffered = s.buffered ++ bytes :=
  front_store_append h

theorem length_incoming_append {s : TlsSocket} {bytes : List UInt8}
    (h : s.received + bytes.length ≤ s.incoming.length) :
    (s.append bytes).incoming.length = s.incoming.length :=
  length_store h

/-- The bytes reported as extra are the end of the buffered ones. -/
theorem buffered_keepExtra {s : TlsSocket} {second : SecBuffer}
    (hextra : second.bufferType = .SECBUFFER_EXTRA) (hle : second.cbBuffer ≤ s.received)
    (h : s.received ≤ s.incoming.length) :
    (s.keepExtra second).buffered = s.buffered.drop (s.received - second.cbBuffer) := by
  have hsum : s.received - second.cbBuffer + second.cbBuffer = s.received := Nat.sub_add_cancel hle
  rw [TlsSocket.keepExtra, if_pos hextra]
  show window (moveFront s.incoming _ second.cbBuffer) 0 second.cbBuffer = _
  rw [window_moveFront (by omega), TlsSocket.buffered, drop_window, Nat.zero_add,
    Nat.sub_sub_self hle]

theorem buffered_keepExtra_of_ne {s : TlsSocket} {second : SecBuffer}
    (h : second.bufferType ≠ .SECBUFFER_EXTRA) : (s.keepExtra second).buffered = [] := by
  rw [TlsSocket.keepExtra, if_neg h]
  exact window_zero_len _ _

/-! ## Passes that keep the stream -/

/-- The property of the handshake: what Schannel consumed, followed by what `incoming` holds,
is what arrived. -/
def KeepsUnconsumed (c : Connect) : Prop :=
  c.consumed ++ c.socket.buffered = c.arrived

/-- The condition on a pass: Schannel does not ask for more of a message of which `incoming`
already holds a part. -/
def NoPartialMessage (c : Connect) (it : Iteration) : Prop :=
  it.reply.status = .SEC_E_INCOMPLETE_MESSAGE → c.socket.received = 0

instance (c : Connect) (it : Iteration) : Decidable (NoPartialMessage c it) :=
  inferInstanceAs (Decidable (_ → _))

/-- What holds between passes while nothing was dropped. -/
structure Connect.InOrder (c : Connect) : Prop where
  keeps : KeepsUnconsumed c
  length_incoming : c.socket.incoming.length = TLS_MAX_PACKET_SIZE
  received_le : c.socket.received ≤ TLS_MAX_PACKET_SIZE
  first : c.context = false → c.socket.received = 0

theorem inOrder_start {incoming : List UInt8} (h : incoming.length = TLS_MAX_PACKET_SIZE) :
    (Connect.start incoming).InOrder where
  keeps := window_zero_len incoming 0
  length_incoming := h
  received_le := Nat.zero_le _
  first _ := rfl

/-- The input of a call is all that `incoming` holds. -/
theorem InOrder.input_eq {c : Connect} (h : c.InOrder) : c.input = c.socket.buffered := by
  rw [Connect.input]
  split
  · rfl
  · next hcontext =>
    rw [TlsSocket.buffered, h.first (eq_false_of_ne_true hcontext), window_zero_len]

/-- A call that drops no partial message keeps exactly the bytes it did not consume. -/
theorem inOrder_call {c : Connect} {reply : IscReply} (h : c.InOrder)
    (hreply : IscContract c.input.length reply)
    (hwhole : reply.status = .SEC_E_INCOMPLETE_MESSAGE → c.socket.received = 0) :
    (c.call reply).InOrder := by
  have hinput := InOrder.input_eq h
  obtain ⟨hkeeps, hlen, hle, _⟩ := h
  have hbuf : c.socket.buffered.length = c.socket.received := length_buffered (by omega)
  rw [hinput, hbuf] at hreply
  obtain ⟨hconsumed, hrest⟩ := hreply
  -- what is kept is what was not consumed
  have hkept : (c.socket.keepExtra reply.second).buffered
      = c.socket.buffered.drop reply.consumed := by
    by_cases hextra : reply.second.bufferType = .SECBUFFER_EXTRA
    · split at hrest
      · simp [hextra] at hrest
      · -- `SECBUFFER_EXTRA` counts the bytes behind those consumed
        have hcb := hrest.2 hextra
        rw [buffered_keepExtra hextra (by omega) (by omega), hcb, Nat.sub_sub_self hconsumed]
    · -- nothing is kept, so nothing may be left over
      rw [buffered_keepExtra_of_ne hextra]
      refine (List.drop_of_length_le ?_).symm
      split at hrest
      · next hstatus =>
        have := hwhole hstatus
        omega
      · have := mt hrest.1 hextra
        omega
  refine ⟨?_, ?_, ?_, fun h => absurd h (by simp [Connect.call])⟩
  · show c.consumed ++ c.input.take reply.consumed ++ _ = c.arrived
    rw [hinput, Connect.call, hkept, List.append_assoc, List.take_append_drop, hkeeps]
  · show (c.socket.keepExtra reply.second).incoming.length = _
    rw [TlsSocket.keepExtra]
    split
    · next hextra =>
      split at hrest
      · simp [hextra] at hrest
      · have hcb := hrest.2 hextra
        rw [length_moveFront (by omega), hlen]
    · exact hlen
  · show (c.socket.keepExtra reply.second).received ≤ _
    rw [TlsSocket.keepExtra]
    split
    · next hextra =>
      split at hrest
      · simp [hextra] at hrest
      · have hcb := hrest.2 hextra
        simp only
        omega
    · exact Nat.zero_le _

/-- Receiving keeps the stream in order. -/
theorem inOrder_receive {c : Connect} {recv : RecvOutcome} (h : c.InOrder)
    (hcontext : c.context = true) (hfits : RecvFits c.socket.received recv) :
    (c.receive recv).InOrder := by
  obtain ⟨hkeeps, hlen, hle, hfirst⟩ := h
  unfold Connect.receive
  split
  · -- a full `incoming` ends the handshake before `recv`
    exact ⟨hkeeps, hlen, hle, hfirst⟩
  · cases recv with
    | closed => exact ⟨hkeeps, hlen, hle, hfirst⟩
    | error => exact ⟨hkeeps, hlen, hle, hfirst⟩
    | data bytes =>
      have hroom := hfits.2
      refine ⟨?_, ?_, hroom, fun h => absurd h (by simp [hcontext])⟩
      · show c.consumed ++ (c.socket.append bytes).buffered = c.arrived ++ bytes
        rw [buffered_append (by omega), ← List.append_assoc, hkeeps]
      · exact (length_incoming_append (by omega)).trans hlen

theorem inOrder_dispatch {c : Connect} {it : Iteration} (h : c.InOrder)
    (hcontext : c.context = true) (hfits : RecvFits c.socket.received it.recv) :
    (c.dispatch it).InOrder := by
  obtain ⟨hkeeps, hlen, hle, hfirst⟩ := h
  have hphase : ∀ phase, ({ c with phase } : Connect).InOrder :=
    fun _ => ⟨hkeeps, hlen, hle, hfirst⟩
  rw [Connect.dispatch]
  split
  · exact hphase _
  · exact hphase _
  · split
    · exact hphase _
    · exact inOrder_receive ⟨hkeeps, hlen, hle, hfirst⟩ hcontext hfits
  · exact inOrder_receive ⟨hkeeps, hlen, hle, hfirst⟩ hcontext hfits
  · exact hphase _

theorem step_eq_some {c c' : Connect} {it : Iteration} (h : c.step it = some c') :
    c' = (c.call it.reply).dispatch it := by
  rw [Connect.step] at h
  split at h
  · exact (Option.some.inj h).symm
  · simp at h

/-- A pass that drops no partial message keeps the stream in order. -/
theorem inOrder_step {c c' : Connect} {it : Iteration} (h : c.InOrder) (hK : c.Answers it)
    (hwhole : NoPartialMessage c it) (hstep : c.step it = some c') : c'.InOrder := by
  rw [step_eq_some hstep]
  exact inOrder_dispatch (inOrder_call h hK.1 hwhole) rfl hK.2

/-! ## Passes that drop a partial message -/

/-- Bytes that arrived are missing. -/
def Connect.Gap (c : Connect) : Prop :=
  c.consumed.length + c.socket.received < c.arrived.length

/-- A call never has more bytes after it than before it. -/
theorem length_call_le {c : Connect} {reply : IscReply}
    (hreply : IscContract c.input.length reply) :
    (c.call reply).consumed.length + (c.call reply).socket.received
      ≤ c.consumed.length + c.socket.received := by
  obtain ⟨hconsumed, hrest⟩ := hreply
  have hinput : c.input.length ≤ c.socket.received := by
    rw [Connect.input]
    split
    · exact length_buffered_le _
    · exact Nat.zero_le _
  show (c.consumed ++ c.input.take reply.consumed).length
    + (c.socket.keepExtra reply.second).received ≤ _
  rw [List.length_append, List.length_take, TlsSocket.keepExtra]
  split
  · next hextra =>
    split at hrest
    · simp [hextra] at hrest
    · have hcb := hrest.2 hextra
      simp only
      omega
  · simp only
    omega

/-- Receiving does not close a gap. -/
theorem gap_receive {c : Connect} (recv : RecvOutcome) (h : c.Gap) : (c.receive recv).Gap := by
  unfold Connect.receive
  split
  · exact h
  · cases recv with
    | closed => exact h
    | error => exact h
    | data bytes =>
      show c.consumed.length + (c.socket.received + bytes.length) < (c.arrived ++ bytes).length
      rw [Connect.Gap] at h
      rw [List.length_append]
      omega

theorem gap_dispatch {c : Connect} (it : Iteration) (h : c.Gap) : (c.dispatch it).Gap := by
  rw [Connect.dispatch]
  split
  · exact h
  · exact h
  · split
    · exact h
    · exact gap_receive _ h
  · exact gap_receive _ h
  · exact h

/-- A gap stays. -/
theorem gap_step {c c' : Connect} {it : Iteration} (h : c.Gap) (hK : c.Answers it)
    (hstep : c.step it = some c') : c'.Gap := by
  rw [step_eq_some hstep]
  apply gap_dispatch it
  have hle := length_call_le hK.1
  rw [Connect.Gap] at h ⊢
  exact Nat.lt_of_le_of_lt hle h

/-- A pass that drops a partial message leaves a gap. -/
theorem dropped_step {c c' : Connect} {it : Iteration} (h : c.InOrder) (hK : c.Answers it)
    (hwhole : ¬ NoPartialMessage c it) (hstep : c.step it = some c') : c'.Gap := by
  rw [step_eq_some hstep]
  apply gap_dispatch it
  simp only [NoPartialMessage, Classical.not_imp] at hwhole
  obtain ⟨hstatus, hpos⟩ := hwhole
  obtain ⟨_, hrest⟩ := hK.1
  rw [if_pos hstatus] at hrest
  obtain ⟨hzero, htype⟩ := hrest
  -- no `SECBUFFER_EXTRA` comes with an incomplete message
  have hne : it.reply.second.bufferType ≠ .SECBUFFER_EXTRA := by
    rcases htype with htype | htype <;> rw [htype] <;> decide
  have hlen := congrArg List.length h.keeps
  have hbuf : c.socket.buffered.length = c.socket.received :=
    length_buffered (by rw [h.length_incoming]; exact h.received_le)
  rw [List.length_append, hbuf] at hlen
  show (c.consumed ++ c.input.take it.reply.consumed).length
    + (c.socket.keepExtra it.reply.second).received < c.arrived.length
  rw [hzero, List.take_zero, List.append_nil, TlsSocket.keepExtra, if_neg hne]
  simp only
  omega

theorem not_keeps_of_gap {c : Connect} (h : c.Gap) : ¬ KeepsUnconsumed c := by
  intro hkeeps
  have hlen := congrArg List.length hkeeps
  have hle := length_buffered_le c.socket
  rw [Connect.Gap] at h
  rw [List.length_append] at hlen
  omega

/-! ## Runs -/

/-- **No handshake byte is lost** by a run exactly when Schannel never asked for more of a
message that had partly arrived. -/
theorem keepsUnconsumed_iff {incoming : List UInt8} {its : List Iteration} {c : Connect}
    (hlen : incoming.length = TLS_MAX_PACKET_SIZE)
    (hK : EachStep Connect.step Connect.Answers (Connect.start incoming) its)
    (h : run Connect.step (Connect.start incoming) its = some c) :
    KeepsUnconsumed c ↔ EachStep Connect.step NoPartialMessage (Connect.start incoming) its := by
  -- the first dropped message opens a gap, and no pass closes it
  have hexact := run_exact Connect.InOrder Connect.Gap
    (fun _ _ _ hc hK hwhole hstep => inOrder_step hc hK hwhole hstep)
    (fun _ _ _ hc hK hwhole hstep => dropped_step hc hK hwhole hstep)
    (fun _ _ _ hc hK hstep => gap_step hc hK hstep)
    hK h (inOrder_start hlen)
  rcases hexact with ⟨hgood, hsteps⟩ | ⟨hbad, hsteps⟩
  · exact iff_of_true hgood.keeps hsteps
  · exact iff_of_false (not_keeps_of_gap hbad) hsteps

/-- A client hello is sent, a server message of three bytes arrives, and Schannel consumes two
of them. -/
def helloAndReply : List Iteration :=
  [⟨⟨.SEC_I_CONTINUE_NEEDED, 0, .empty, [22]⟩, [1], .data [1, 2, 3]⟩,
    ⟨⟨.SEC_I_CONTINUE_NEEDED, 2, ⟨.SECBUFFER_EXTRA, 1, 0⟩, []⟩, [], .closed⟩]

/-- An `incoming` buffer of zeros. -/
def zeroed : List UInt8 := List.replicate TLS_MAX_PACKET_SIZE 0

theorem keepsUnconsumed_helloAndReply :
    ∃ c, run Connect.step (Connect.start zeroed) helloAndReply = some c ∧ KeepsUnconsumed c := by
  have hK : EachStep Connect.step Connect.Answers (Connect.start zeroed) helloAndReply := by decide
  have hwhole : EachStep Connect.step NoPartialMessage (Connect.start zeroed) helloAndReply := by
    decide
  exact ⟨_, rfl, (keepsUnconsumed_iff List.length_replicate hK rfl).mpr hwhole⟩

/-- A server message that arrives in two parts: Schannel asks for the rest after the first
part, which is then dropped. -/
def splitMessage : List Iteration :=
  [⟨⟨.SEC_I_CONTINUE_NEEDED, 0, .empty, [22]⟩, [1], .data [1, 2]⟩,
    ⟨⟨.SEC_E_INCOMPLETE_MESSAGE, 0, ⟨.SECBUFFER_MISSING, 1, 0⟩, []⟩, [], .data [3]⟩]

theorem splitMessage_counterexample :
    EachStep Connect.step Connect.Answers (Connect.start zeroed) splitMessage ∧
    ∃ c, run Connect.step (Connect.start zeroed) splitMessage = some c ∧
      c.arrived = [1, 2, 3] ∧ c.socket.received = 1 ∧ c.consumed = [] ∧ ¬ KeepsUnconsumed c := by
  refine ⟨by decide, _, rfl, rfl, rfl, rfl, not_keeps_of_gap ?_⟩
  show 0 + 1 < 3
  decide

end Win32Experiments.SecureSocket
