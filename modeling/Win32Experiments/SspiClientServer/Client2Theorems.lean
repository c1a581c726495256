import Win32Experiments.SspiClientServer.Client2

/-!
# The hand-over between `TlsHandshake` and `SslDecrypt`

The handshake keeps the bytes that Schannel did not consume, except those behind its last
message: `inBuffer` dies with them, and `netBuf` starts empty.

* `good_step`: every other step accounts for each byte that arrived;
* `bad_step`: a handshake that ends with bytes left over has lost them for good;
* `presentedOnce_iff`: so a client presents the whole stream to Schannel exactly when the
  last call of its handshake consumed everything that had been received.
-/

namespace Win32Experiments.SspiClientServer

open Foundation Sspi Winsock

/-! ## The helpers -/

@[simp] theorem consumeFront_eq_drop (v : List UInt8) (n : ℕ) : consumeFront v n = v.drop n := by
  unfold consumeFront
  split
  · next hzero => rw [hzero, List.drop_zero]
  · split
    · next hle => exact (List.drop_of_length_le hle).symm
    · rfl

theorem keepExtra_empty (inBuffer : List UInt8) : keepExtra inBuffer .empty = [] :=
  if_neg (by simp [SecBuffer.empty])

/-- A call that does not ask for more leaves the unconsumed bytes in `inBuffer`. -/
theorem keepExtra_eq_drop {inBuffer : List UInt8} {reply : IscReply}
    (hreply : IscContract inBuffer.length reply)
    (hstatus : reply.status ≠ .SEC_E_INCOMPLETE_MESSAGE) :
    keepExtra inBuffer reply.second = inBuffer.drop reply.consumed := by
  obtain ⟨hle, hrest⟩ := hreply
  rw [if_neg hstatus] at hrest
  obtain ⟨hextra, hcb⟩ := hrest
  unfold keepExtra
  split
  · next h => rw [consumeFront_eq_drop, hcb h.1, Nat.sub_sub_self hle]
  · next h =>
    refine (List.drop_of_length_le ?_).symm
    by_cases htype : reply.second.bufferType = .SECBUFFER_EXTRA
    · have hzero : reply.second.cbBuffer = 0 := by_contra fun hne => h ⟨htype, hne⟩
      have hlen := hcb htype
      omega
    · have hall := mt hextra htype
      omega

/-- The extra length found is the one that all the `SECBUFFER_EXTRA` buffers report. -/
theorem extraLen_eq {bufs : List SecBuffer} {n : ℕ}
    (hcb : ∀ b ∈ bufs, b.bufferType = .SECBUFFER_EXTRA → b.cbBuffer = n)
    (hex : n ≠ 0 → ∃ b ∈ bufs, b.bufferType = .SECBUFFER_EXTRA) : extraLen bufs = n := by
  -- the fold keeps `acc` until it meets an extra buffer
  have hfold : ∀ (bufs : List SecBuffer) (acc : ℕ),
      (∀ b ∈ bufs, b.bufferType = .SECBUFFER_EXTRA → b.cbBuffer = n) →
      ((∃ b ∈ bufs, b.bufferType = .SECBUFFER_EXTRA) ∨ acc = n) →
      bufs.foldl (fun len b => if b.bufferType = .SECBUFFER_EXTRA then b.cbBuffer else len) acc
        = n := by
    intro bufs
    induction bufs with
    | nil => intro acc _ hex; simpa using hex
    | cons b bufs ih =>
      intro acc hcb hex
      rw [List.foldl_cons]
      refine ih _ (fun b hb => hcb b (List.mem_cons_of_mem _ hb)) ?_
      by_cases htype : b.bufferType = .SECBUFFER_EXTRA
      · rw [if_pos htype]
        exact Or.inr (hcb b List.mem_cons_self htype)
      · rw [if_neg htype]
        rcases hex with ⟨b', hmem, htype'⟩ | hacc
        · rcases List.mem_cons.mp hmem with rfl | hmem
          · exact absurd htype' htype
          · exact Or.inl ⟨b', hmem, htype'⟩
        · exact Or.inr hacc
  apply hfold bufs 0 hcb
  by_cases hzero : n = 0
  · exact Or.inr hzero.symm
  · exact Or.inl (hex hzero)

/-! ## The property and its condition -/

/-- What the handshake consumed and `DecryptMessage` was presented is, with what just arrived,
the stream; and what was presented and not taken is what `netBuf` still holds of it. -/
structure PresentedOnce (c : Client) : Prop where
  stream : c.consumed ++ c.presented ++ c.netBuf.drop c.seen = c.arrived
  nothing_waits : c.control ≠ .decrypt → c.seen = c.netBuf.length
  once : c.presented = c.taken ++ c.netBuf.take c.seen

/-- The condition on a step: a call of `InitializeSecurityContextW` that ends the handshake,
or creates the context, has consumed everything in `inBuffer`. -/
def TakesAll (c : Client) : Event → Prop
  | .handshake reply _ _ =>
    reply.status = .SEC_E_OK ∨ c.phCtx = false ∧ reply.status ≠ .SEC_E_INCOMPLETE_MESSAGE →
      reply.consumed = c.inBuffer.length
  | _ => True

/-- The read loop has not started. -/
def Client.Fresh (c : Client) : Prop :=
  c.handshakeReturned = false ∧ c.netBuf = [] ∧ c.seen = 0 ∧ c.presented = [] ∧ c.taken = []

/-- Every byte that arrived is accounted for. -/
def Client.Good (c : Client) : Prop :=
  match c.control with
  | .handshake => c.Fresh ∧ c.consumed ++ c.inBuffer = c.arrived
  | .verify => c.Fresh ∧ c.consumed = c.arrived
  | .exited => c.handshakeReturned = true → PresentedOnce c
  | _ => PresentedOnce c

/-- Bytes that arrived are missing. -/
def Client.Bad (c : Client) : Prop :=
  match c.control with
  | .handshake => c.Fresh ∧ c.consumed.length + c.inBuffer.length < c.arrived.length
  | .verify => c.Fresh ∧ c.consumed.length < c.arrived.length
  | .exited => c.handshakeReturned = true →
      c.consumed.length + c.presented.length + (c.netBuf.length - c.seen) < c.arrived.length
  | _ => c.consumed.length + c.presented.length + (c.netBuf.length - c.seen) < c.arrived.length

/-! ## The handshake -/

/-- A client that exits in the handshake has not returned from it. -/
theorem good_exited {c : Client} (h : c.Fresh) : ({ c with control := .exited } : Client).Good :=
  fun hret => absurd hret (by simp [h.1])

theorem bad_exited {c : Client} (h : c.Fresh) : ({ c with control := .exited } : Client).Bad :=
  fun hret => absurd hret (by simp [h.1])

theorem good_recvHandshake {c : Client} (recv : RecvOutcome) (hcontrol : c.control = .handshake)
    (hfresh : c.Fresh) (hstream : c.consumed ++ c.inBuffer = c.arrived) :
    (c.recvHandshake recv).Good := by
  cases recv with
  | closed => exact good_exited hfresh
  | error => exact good_exited hfresh
  | data bytes =>
    simp only [Client.recvHandshake, Client.Good, hcontrol]
    refine ⟨hfresh, ?_⟩
    rw [← List.append_assoc, hstream]

theorem bad_recvHandshake {c : Client} (recv : RecvOutcome) (hcontrol : c.control = .handshake)
    (hfresh : c.Fresh) (hgap : c.consumed.length + c.inBuffer.length < c.arrived.length) :
    (c.recvHandshake recv).Bad := by
  cases recv with
  | closed => exact bad_exited hfresh
  | error => exact bad_exited hfresh
  | data bytes =>
    simp only [Client.recvHandshake, Client.Bad, hcontrol]
    refine ⟨hfresh, ?_⟩
    rw [List.length_append, List.length_append]
    omega

/-- What `inBuffer` becomes when the handshake goes on. -/
def Client.kept (c : Client) (reply : IscReply) : List UInt8 :=
  keepExtra c.inBuffer (if c.phCtx then reply.second else .empty)

/-- The ways a pass of the handshake loop ends: it waits for more, with all of `inBuffer` or
with what is kept of it; the handshake is over; or the process exits. -/
theorem handshakePass_cases (c : Client) (reply : IscReply) (sends : List ℕ) (recv : RecvOutcome) :
    (reply.status = .SEC_E_INCOMPLETE_MESSAGE ∧
      c.handshakePass reply sends recv =
        { c with consumed := c.consumed ++ c.input.take reply.consumed }.recvHandshake recv) ∨
    (reply.status = .SEC_E_OK ∧ c.handshakePass reply sends recv =
        { c with
          control := .verify, consumed := c.consumed ++ c.input.take reply.consumed }) ∨
    (reply.status ≠ .SEC_E_INCOMPLETE_MESSAGE ∧ reply.status ≠ .SEC_E_OK ∧
      c.handshakePass reply sends recv =
        { c with
          phCtx := true, inBuffer := c.kept reply
          consumed := c.consumed ++ c.input.take reply.consumed }.recvHandshake recv) ∨
    c.handshakePass reply sends recv =
      { c with
        control := .exited, consumed := c.consumed ++ c.input.take reply.consumed } := by
  unfold Client.handshakePass
  simp only
  split
  · next hstatus => exact Or.inl ⟨hstatus, rfl⟩
  · next hstatus =>
    split
    · exact Or.inr (Or.inr (Or.inr rfl))
    · split
      · next hok => exact Or.inr (Or.inl ⟨hok, rfl⟩)
      · next hcont => exact Or.inr (Or.inr (Or.inl ⟨hstatus, by simp [hcont], rfl⟩))
      · next hcont => exact Or.inr (Or.inr (Or.inl ⟨hstatus, by simp [hcont], rfl⟩))
      · exact Or.inr (Or.inr (Or.inr rfl))

theorem take_input_append_kept {c : Client} {reply : IscReply}
    (hreply : IscContract c.input.length reply)
    (hstatus : reply.status ≠ .SEC_E_INCOMPLETE_MESSAGE)
    (hall : c.phCtx = false → reply.consumed = c.inBuffer.length) :
    c.input.take reply.consumed ++ c.kept reply = c.inBuffer := by
  rw [Client.kept]
  by_cases hctx : c.phCtx = true
  · have hinput : c.input = c.inBuffer := if_pos hctx
    rw [hinput] at hreply ⊢
    rw [if_pos hctx, keepExtra_eq_drop hreply hstatus, List.take_append_drop]
  · -- without a context nothing is presented, so nothing was there
    have hinput : c.input = [] := if_neg hctx
    have hle := hreply.1
    rw [hinput, List.length_nil] at hle
    have hnil : c.inBuffer = [] :=
      List.length_eq_zero_iff.mp ((hall (by simpa using hctx)).symm.trans (by omega))
    rw [if_neg hctx, keepExtra_empty, hinput, hnil, List.take_nil, List.append_nil]

/-- A pass that takes all it has to keeps account of the stream. -/
theorem good_handshakePass {c : Client} {reply : IscReply} {sends : List ℕ} {recv : RecvOutcome}
    (hcontrol : c.control = .handshake) (hfresh : c.Fresh)
    (hstream : c.consumed ++ c.inBuffer = c.arrived)
    (hreply : IscContract c.input.length reply)
    (hall : TakesAll c (.handshake reply sends recv)) :
    (c.handshakePass reply sends recv).Good := by
  rcases handshakePass_cases c reply sends recv with
    ⟨hstatus, h⟩ | ⟨hstatus, h⟩ | ⟨hstatus, hok, h⟩ | h <;> rw [h]
  · -- nothing is consumed, all of `inBuffer` is kept
    have hzero : reply.consumed = 0 := by
      have hrest := hreply.2
      rw [if_pos hstatus] at hrest
      exact hrest.1
    refine good_recvHandshake recv hcontrol hfresh ?_
    rw [hzero, List.take_zero, List.append_nil, hstream]
  · -- the handshake is over, and everything was consumed
    have hconsumed := hall (Or.inl hstatus)
    have hle := hreply.1
    have htake : c.input.take reply.consumed = c.inBuffer := by
      by_cases hctx : c.phCtx = true
      · rw [Client.input, if_pos hctx, hconsumed, List.take_length]
      · rw [Client.input, if_neg hctx] at hle ⊢
        rw [List.length_nil] at hle
        rw [List.take_nil]
        exact (List.length_eq_zero_iff.mp (by omega)).symm
    refine ⟨hfresh, ?_⟩
    show c.consumed ++ c.input.take reply.consumed = c.arrived
    rw [htake, hstream]
  · -- the rest is kept for the next pass
    refine good_recvHandshake recv hcontrol hfresh ?_
    show c.consumed ++ c.input.take reply.consumed ++ c.kept reply = c.arrived
    rw [List.append_assoc,
      take_input_append_kept hreply hstatus fun hctx => hall (Or.inr ⟨hctx, hstatus⟩), hstream]
  · -- the process exits before the handshake has returned
    exact fun hret => absurd (hfresh.1.symm.trans hret) (by simp)

theorem length_input_le (c : Client) : c.input.length ≤ c.inBuffer.length := by
  rw [Client.input]
  split
  · exact Nat.le_refl _
  · exact Nat.zero_le _

/-- What a call consumed and what is kept is no more than there was. -/
theorem length_take_add_kept_le {c : Client} {reply : IscReply}
    (hreply : IscContract c.input.length reply)
    (hstatus : reply.status ≠ .SEC_E_INCOMPLETE_MESSAGE) :
    (c.input.take reply.consumed).length + (c.kept reply).length ≤ c.inBuffer.length := by
  by_cases hctx : c.phCtx = true
  · have h := congrArg List.length
      (take_input_append_kept hreply hstatus fun hfalse => absurd hctx (by simp [hfalse]))
    rw [List.length_append] at h
    omega
  · rw [Client.kept, Client.input, if_neg hctx, if_neg hctx, keepExtra_empty, List.take_nil]
    exact Nat.zero_le _

/-- Bytes missing in the handshake stay missing. -/
theorem bad_handshakePass {c : Client} {reply : IscReply} (sends : List ℕ) (recv : RecvOutcome)
    (hcontrol : c.control = .handshake) (hfresh : c.Fresh)
    (hgap : c.consumed.length + c.inBuffer.length < c.arrived.length)
    (hreply : IscContract c.input.length reply) :
    (c.handshakePass reply sends recv).Bad := by
  have hinput := length_input_le c
  have htake : (c.input.take reply.consumed).length ≤ c.input.length := List.length_take_le' ..
  rcases handshakePass_cases c reply sends recv with
    ⟨hstatus, h⟩ | ⟨hstatus, h⟩ | ⟨hstatus, hok, h⟩ | h <;> rw [h]
  · have hzero : reply.consumed = 0 := by
      have hrest := hreply.2
      rw [if_pos hstatus] at hrest
      exact hrest.1
    refine bad_recvHandshake recv hcontrol hfresh ?_
    rw [hzero, List.take_zero, List.append_nil]
    exact hgap
  · refine ⟨hfresh, ?_⟩
    show (c.consumed ++ c.input.take reply.consumed).length < c.arrived.length
    rw [List.length_append]
    omega
  · have hkept := length_take_add_kept_le hreply hstatus
    refine bad_recvHandshake recv hcontrol hfresh ?_
    show (c.consumed ++ c.input.take reply.consumed).length + (c.kept reply).length
      < c.arrived.length
    rw [List.length_append]
    omega
  · exact fun hret => absurd (hfresh.1.symm.trans hret) (by simp)

/-- A pass that leaves bytes over where none are kept has lost them. -/
theorem bad_of_not_takesAll {c : Client} {reply : IscReply} {sends : List ℕ} {recv : RecvOutcome}
    (hcontrol : c.control = .handshake) (hfresh : c.Fresh)
    (hstream : c.consumed ++ c.inBuffer = c.arrived)
    (hreply : IscContract c.input.length reply)
    (hall : ¬ TakesAll c (.handshake reply sends recv)) :
    (c.handshakePass reply sends recv).Bad := by
  simp only [TakesAll, Classical.not_imp] at hall
  obtain ⟨hends, hleft⟩ := hall
  have hlen := congrArg List.length hstream
  rw [List.length_append] at hlen
  have hinput := length_input_le c
  have hle := hreply.1
  have htake : (c.input.take reply.consumed).length = reply.consumed :=
    List.length_take_of_le hle
  rcases handshakePass_cases c reply sends recv with
    ⟨hstatus, h⟩ | ⟨hstatus, h⟩ | ⟨hstatus, hok, h⟩ | h <;> rw [h]
  · -- an incomplete message is no end of the handshake
    simp [hstatus] at hends
  · -- `inBuffer` dies with what was left in it
    refine ⟨hfresh, ?_⟩
    show (c.consumed ++ c.input.take reply.consumed).length < c.arrived.length
    rw [List.length_append]
    omega
  · -- without a context everything is dropped
    have hctx : c.phCtx = false := by
      rcases hends with hok' | ⟨hctx, _⟩
      · exact absurd hok' hok
      · exact hctx
    have hkept : c.kept reply = [] := by
      rw [Client.kept, if_neg (by simp [hctx]), keepExtra_empty]
    refine bad_recvHandshake recv hcontrol hfresh ?_
    show (c.consumed ++ c.input.take reply.consumed).length + (c.kept reply).length
      < c.arrived.length
    rw [List.length_append, hkept, List.length_nil]
    omega
  · exact fun hret => absurd (hfresh.1.symm.trans hret) (by simp)

/-! ## The read loop -/

/-- Before the read loop starts nothing was presented. -/
theorem presentedOnce_of_fresh {c : Client} (h : c.Fresh) (hstream : c.consumed = c.arrived) :
    PresentedOnce { c with control := .request, handshakeReturned := true } := by
  obtain ⟨_, hnet, hseen, hpresented, htaken⟩ := h
  refine ⟨?_, fun _ => ?_, ?_⟩
  · show c.consumed ++ c.presented ++ c.netBuf.drop c.seen = c.arrived
    rw [hpresented, hnet, List.drop_nil, List.append_nil, List.append_nil, hstream]
  · show c.seen = c.netBuf.length
    rw [hseen, hnet, List.length_nil]
  · show c.presented = c.taken ++ c.netBuf.take c.seen
    rw [hpresented, htaken, hnet, List.take_nil, List.append_nil]

/-- After a call of `DecryptMessage` everything that arrived was presented. -/
theorem stream_present {c : Client} (h : PresentedOnce c) :
    c.consumed ++ c.present.presented = c.arrived := by
  show c.consumed ++ (c.presented ++ c.netBuf.drop c.seen) = c.arrived
  rw [← List.append_assoc, h.stream]

theorem once_present {c : Client} (h : PresentedOnce c) :
    c.present.presented = c.taken ++ c.netBuf := by
  show c.presented ++ c.netBuf.drop c.seen = _
  rw [h.once, List.append_assoc, List.take_append_drop]

/-- A record was taken from `netBuf`, which keeps the rest. -/
theorem presentedOnce_keepRest {c : Client} {reply : DecryptReply} {took : ℕ}
    (h : PresentedOnce c) (hreply : TakesPrefix c.netBuf reply took) :
    PresentedOnce (c.present.keepRest reply took) := by
  obtain ⟨hle, hlen, hrest, hcb, hex⟩ := hreply
  have hextra : extraLen reply.buffers.toList = c.netBuf.length - took :=
    extraLen_eq hcb fun hne => hex (by omega)
  -- what `netBuf` keeps is what the record left
  have hnet : (c.present.keepRest reply took).netBuf = c.netBuf.drop took := by
    show (if extraLen reply.buffers.toList ≠ 0 then _ else _) = _
    rw [hextra]
    split
    · rw [consumeFront_eq_drop, hlen, Nat.sub_sub_self hle, hrest]
    · exact (List.drop_of_length_le (by omega)).symm
  have hseen : (c.present.keepRest reply took).seen
      = (c.present.keepRest reply took).netBuf.length := rfl
  refine ⟨?_, fun _ => hseen, ?_⟩
  · rw [hseen, List.drop_length, List.append_nil]
    exact stream_present h
  · rw [hseen, List.take_length, hnet]
    show c.present.presented = c.taken ++ c.netBuf.take took ++ c.netBuf.drop took
    rw [List.append_assoc, List.take_append_drop, once_present h]

/-- A pass of the inner loop accounts for every byte. -/
theorem presentedOnce_decryptPass {c : Client} {reply : DecryptReply} {took : ℕ}
    (h : PresentedOnce c) (hreply : DecryptContract c.netBuf reply took) :
    PresentedOnce (c.decryptPass reply took) := by
  unfold Client.decryptPass DecryptContract at *
  simp only
  split
  · next hstatus =>
    -- an incomplete record stays in `netBuf`, and waits for more
    rw [hstatus] at hreply
    have hblock : reply.block = c.netBuf := hreply
    refine ⟨?_, fun _ => ?_, ?_⟩
    · show c.consumed ++ c.present.presented ++ reply.block.drop c.netBuf.length = c.arrived
      rw [hblock, List.drop_length, List.append_nil, stream_present h]
    · show c.netBuf.length = reply.block.length
      rw [hblock]
    · show c.present.presented = c.taken ++ reply.block.take c.netBuf.length
      rw [hblock, List.take_length, once_present h]
  · -- `SEC_I_CONTEXT_EXPIRED` drops `netBuf`, which was presented
    refine ⟨?_, fun _ => rfl, ?_⟩
    · show c.consumed ++ c.present.presented ++ [] = c.arrived
      rw [List.append_nil, stream_present h]
    · show c.present.presented = c.taken ++ c.netBuf ++ []
      rw [List.append_nil, once_present h]
  · next hstatus =>
    rw [hstatus] at hreply
    exact presentedOnce_keepRest h hreply
  · next hstatus =>
    rw [hstatus] at hreply
    exact presentedOnce_keepRest h hreply
  · refine ⟨?_, fun _ => rfl, ?_⟩
    · show c.consumed ++ c.present.presented ++ c.netBuf.drop c.netBuf.length = c.arrived
      rw [List.drop_length, List.append_nil, stream_present h]
    · show c.present.presented = c.taken ++ c.netBuf.take c.netBuf.length
      rw [List.take_length, once_present h]

/-- Receiving in the read loop. -/
theorem good_receivePass {c : Client} (recv : RecvOutcome) (hcontrol : c.control = .receive)
    (h : PresentedOnce c) : (c.receivePass recv).Good := by
  -- the loop receives only when all of `netBuf` was presented
  have hseen : c.seen = c.netBuf.length := h.nothing_waits (by simp [hcontrol])
  obtain ⟨hstream, _, honce⟩ := h
  cases recv with
  | closed => exact ⟨hstream, fun _ => hseen, honce⟩
  | error => exact fun _ => ⟨hstream, fun _ => hseen, honce⟩
  | data bytes =>
    refine ⟨?_, fun hne => absurd rfl hne, ?_⟩
    · show c.consumed ++ c.presented ++ (c.netBuf ++ bytes).drop c.seen = c.arrived ++ bytes
      rw [← hstream, hseen, List.drop_left, List.drop_length, List.append_nil]
    · show c.presented = c.taken ++ (c.netBuf ++ bytes).take c.seen
      rw [honce, hseen, List.take_left, List.take_length]

/-- Where a pass of the inner loop ends. -/
theorem control_decryptPass (c : Client) (reply : DecryptReply) (took : ℕ) :
    (c.decryptPass reply took).control = .receive ∨
    (c.decryptPass reply took).control = .decrypt ∨
    (c.decryptPass reply took).control = .exited := by
  have hkeep : (c.present.keepRest reply took).control = .receive ∨
      (c.present.keepRest reply took).control = .decrypt := by
    by_cases hnil : (c.present.keepRest reply took).netBuf = []
    · exact Or.inl (if_pos hnil)
    · exact Or.inr (if_neg hnil)
  unfold Client.decryptPass
  simp only
  split
  · exact Or.inl rfl
  · exact Or.inl rfl
  · rcases hkeep with h | h
    · exact Or.inl h
    · exact Or.inr (Or.inl h)
  · rcases hkeep with h | h
    · exact Or.inl h
    · exact Or.inr (Or.inl h)
  · exact Or.inr (Or.inr rfl)

/-- Bytes missing in the read loop. -/
def Client.Short (c : Client) : Prop :=
  c.consumed.length + c.presented.length + (c.netBuf.length - c.seen) < c.arrived.length

/-- Decrypting presents no more than `netBuf` holds. -/
theorem short_decryptPass {c : Client} (reply : DecryptReply) (took : ℕ) (h : c.Short)
    (hreply : DecryptContract c.netBuf reply took) : (c.decryptPass reply took).Short := by
  have hpresent : c.consumed.length + (c.presented ++ c.netBuf.drop c.seen).length
      < c.arrived.length := by
    rw [Client.Short] at h
    rw [List.length_append, List.length_drop]
    omega
  have hkeep : (c.present.keepRest reply took).Short := by
    show c.consumed.length + (c.presented ++ c.netBuf.drop c.seen).length
      + ((c.present.keepRest reply took).netBuf.length
        - (c.present.keepRest reply took).netBuf.length) < c.arrived.length
    omega
  unfold Client.decryptPass DecryptContract at *
  simp only
  split
  · next hstatus =>
    rw [hstatus] at hreply
    have hblock : reply.block = c.netBuf := hreply
    show c.consumed.length + (c.presented ++ c.netBuf.drop c.seen).length
      + (reply.block.length - c.netBuf.length) < c.arrived.length
    rw [hblock]
    omega
  · show c.consumed.length + (c.presented ++ c.netBuf.drop c.seen).length + 0 < c.arrived.length
    omega
  · exact hkeep
  · exact hkeep
  · show c.consumed.length + (c.presented ++ c.netBuf.drop c.seen).length
      + (c.netBuf.length - c.netBuf.length) < c.arrived.length
    omega

/-! ## Steps -/

theorem good_of_control {c : Client} (h : PresentedOnce c)
    (hcontrol : c.control = .receive ∨ c.control = .decrypt ∨ c.control = .exited) : c.Good := by
  unfold Client.Good
  rcases hcontrol with hc | hc | hc <;> rw [hc]
  · exact h
  · exact h
  · exact fun _ => h

theorem bad_of_control {c : Client} (h : c.Short)
    (hcontrol : c.control = .receive ∨ c.control = .decrypt ∨ c.control = .exited) : c.Bad := by
  unfold Client.Bad
  rcases hcontrol with hc | hc | hc <;> rw [hc]
  · exact h
  · exact h
  · exact fun _ => h

/-- The steps of the client, by the branch of `Client.step`. -/
inductive Client.Stepped (c : Client) : Event → Client → Prop
  | handshake {reply : IscReply} {sends : List ℕ} {recv : RecvOutcome}
    (hcontrol : c.control = .handshake) :
    Stepped c (.handshake reply sends recv) (c.handshakePass reply sends recv)
  | verified (hcontrol : c.control = .verify) :
    Stepped c (.verify true) { c with control := .request, handshakeReturned := true }
  | refused (hcontrol : c.control = .verify) :
    Stepped c (.verify false) { c with control := .exited }
  | requested (hcontrol : c.control = .request) :
    Stepped c (.request true) { c with control := .receive }
  | requestFailed (hcontrol : c.control = .request) :
    Stepped c (.request false) { c with control := .exited }
  | receive {recv : RecvOutcome} (hcontrol : c.control = .receive) :
    Stepped c (.receive recv) (c.receivePass recv)
  | decrypt {reply : DecryptReply} {took : ℕ} (hcontrol : c.control = .decrypt) :
    Stepped c (.decrypt reply took) (c.decryptPass reply took)

/-- A step takes one of the branches. -/
theorem stepped_of_step {c c' : Client} {e : Event} (h : c.step e = some c') : c.Stepped e c' := by
  cases e with
  | handshake reply sends recv =>
    obtain ⟨hcontrol, heq⟩ := Option.ite_none_right_eq_some.mp h
    rw [← Option.some.inj heq]
    exact .handshake hcontrol
  | verify ok =>
    obtain ⟨hcontrol, heq⟩ := Option.ite_none_right_eq_some.mp h
    rw [← Option.some.inj heq]
    cases ok with
    | true => exact .verified hcontrol
    | false => exact .refused hcontrol
  | request ok =>
    obtain ⟨hcontrol, heq⟩ := Option.ite_none_right_eq_some.mp h
    rw [← Option.some.inj heq]
    cases ok with
    | true => exact .requested hcontrol
    | false => exact .requestFailed hcontrol
  | receive recv =>
    obtain ⟨hcontrol, heq⟩ := Option.ite_none_right_eq_some.mp h
    rw [← Option.some.inj heq]
    exact .receive hcontrol
  | decrypt reply took =>
    obtain ⟨hcontrol, heq⟩ := Option.ite_none_right_eq_some.mp h
    rw [← Option.some.inj heq]
    exact .decrypt hcontrol

/-- Each step that takes all it has to accounts for the bytes that arrived. -/
theorem good_step {c c' : Client} {e : Event} (h : c.Good) (hK : c.Answers e)
    (hall : TakesAll c e) (hstep : c.step e = some c') : c'.Good := by
  cases stepped_of_step hstep with
  | handshake hcontrol =>
    rw [Client.Good, hcontrol] at h
    exact good_handshakePass hcontrol h.1 h.2 hK.1 hall
  | verified hcontrol =>
    rw [Client.Good, hcontrol] at h
    exact presentedOnce_of_fresh h.1 h.2
  | refused hcontrol =>
    rw [Client.Good, hcontrol] at h
    exact good_exited h.1
  | requested hcontrol =>
    rw [Client.Good, hcontrol] at h
    exact ⟨h.stream, fun _ => h.nothing_waits (by simp [hcontrol]), h.once⟩
  | requestFailed hcontrol =>
    rw [Client.Good, hcontrol] at h
    exact fun _ => ⟨h.stream, fun _ => h.nothing_waits (by simp [hcontrol]), h.once⟩
  | receive hcontrol =>
    rw [Client.Good, hcontrol] at h
    exact good_receivePass _ hcontrol h
  | decrypt hcontrol =>
    rw [Client.Good, hcontrol] at h
    exact good_of_control (presentedOnce_decryptPass h hK) (control_decryptPass c _ _)

/-- Missing bytes stay missing. -/
theorem bad_stays {c c' : Client} {e : Event} (h : c.Bad) (hK : c.Answers e)
    (hstep : c.step e = some c') : c'.Bad := by
  cases stepped_of_step hstep with
  | handshake hcontrol =>
    rw [Client.Bad, hcontrol] at h
    exact bad_handshakePass _ _ hcontrol h.1 h.2 hK.1
  | verified hcontrol =>
    rw [Client.Bad, hcontrol] at h
    obtain ⟨⟨_, hnet, _, hpresented, _⟩, hgap⟩ := h
    -- the read loop starts with nothing presented, so the gap is that of the handshake
    show c.consumed.length + c.presented.length + (c.netBuf.length - c.seen) < c.arrived.length
    rw [hnet, hpresented, List.length_nil]
    omega
  | refused hcontrol =>
    rw [Client.Bad, hcontrol] at h
    exact bad_exited h.1
  | requested hcontrol =>
    rw [Client.Bad, hcontrol] at h
    exact h
  | requestFailed hcontrol =>
    rw [Client.Bad, hcontrol] at h
    exact fun _ => h
  | @receive recv hcontrol =>
    rw [Client.Bad, hcontrol] at h
    cases recv with
    | closed => exact h
    | error => exact fun _ => h
    | data bytes =>
      show c.consumed.length + c.presented.length + ((c.netBuf ++ bytes).length - c.seen)
        < (c.arrived ++ bytes).length
      rw [List.length_append, List.length_append]
      simp only at h
      omega
  | decrypt hcontrol =>
    rw [Client.Bad, hcontrol] at h
    exact bad_of_control (short_decryptPass _ _ h hK) (control_decryptPass c _ _)

/-- A step that leaves bytes over has lost them. -/
theorem bad_step {c c' : Client} {e : Event} (h : c.Good) (hK : c.Answers e)
    (hall : ¬ TakesAll c e) (hstep : c.step e = some c') : c'.Bad := by
  cases stepped_of_step hstep with
  | handshake hcontrol =>
    rw [Client.Good, hcontrol] at h
    exact bad_of_not_takesAll hcontrol h.1 h.2 hK.1 hall
  -- the condition is about the handshake only
  | verified hcontrol => exact absurd trivial hall
  | refused hcontrol => exact absurd trivial hall
  | requested hcontrol => exact absurd trivial hall
  | requestFailed hcontrol => exact absurd trivial hall
  | receive hcontrol => exact absurd trivial hall
  | decrypt hcontrol => exact absurd trivial hall

/-! ## Runs -/

theorem good_start : Client.start.Good := ⟨⟨rfl, rfl, rfl, rfl, rfl⟩, rfl⟩

/-- Past the handshake, a good client presents the stream. -/
theorem presentedOnce_of_good {c : Client} (h : c.Good) (hret : c.handshakeReturned = true) :
    PresentedOnce c := by
  unfold Client.Good at h
  split at h
  · exact absurd (h.1.1.symm.trans hret) (by simp)
  · exact absurd (h.1.1.symm.trans hret) (by simp)
  · exact h hret
  · exact h

/-- Past the handshake, a bad client has missed a part of the stream. -/
theorem not_presentedOnce_of_bad {c : Client} (h : c.Bad) (hret : c.handshakeReturned = true) :
    ¬ PresentedOnce c := by
  have hshort : c.Short := by
    unfold Client.Bad at h
    split at h
    · exact absurd (h.1.1.symm.trans hret) (by simp)
    · exact absurd (h.1.1.symm.trans hret) (by simp)
    · exact h hret
    · exact h
  intro honce
  have hlen := congrArg List.length honce.stream
  rw [List.length_append, List.length_append, List.length_drop] at hlen
  rw [Client.Short] at hshort
  omega

/-- **No ciphertext is lost** once the handshake has returned exactly when its last call of
`InitializeSecurityContextW` consumed everything that had been received. -/
theorem presentedOnce_iff {events : List Event} {c : Client}
    (hK : EachStep Client.step Client.Answers Client.start events)
    (h : run Client.step Client.start events = some c) (hret : c.handshakeReturned = true) :
    PresentedOnce c ↔ EachStep Client.step TakesAll Client.start events := by
  -- the first bytes left over are missing from then on
  have hexact := run_exact Client.Good Client.Bad
    (fun _ _ _ hc hK hall hstep => good_step hc hK hall hstep)
    (fun _ _ _ hc hK hall hstep => bad_step hc hK hall hstep)
    (fun _ _ _ hc hK hstep => bad_stays hc hK hstep)
    hK h good_start
  rcases hexact with ⟨hgood, hsteps⟩ | ⟨hbad, hsteps⟩
  · exact iff_of_true (presentedOnce_of_good hgood hret) hsteps
  · exact iff_of_false (not_presentedOnce_of_bad hbad hret) hsteps

/-- A handshake of one round trip whose last message arrives alone, then a record of three
bytes in two parts. -/
def separateRecord : List Event :=
  [.handshake ⟨.SEC_I_CONTINUE_NEEDED, 0, .empty, [22]⟩ [1] (.data [1, 2]),
    .handshake ⟨.SEC_E_OK, 2, .empty, []⟩ [] .closed,
    .verify true, .request true,
    .receive (.data [23, 7]),
    .decrypt ⟨.SEC_E_INCOMPLETE_MESSAGE, [23, 7], .replicate 4 .empty⟩ 0,
    .receive (.data [8]),
    .decrypt ⟨.SEC_E_OK, [23, 104, 8], #v[.empty, ⟨.SECBUFFER_DATA, 1, 1⟩, .empty, .empty]⟩ 3]

theorem presentedOnce_separateRecord :
    ∃ c, run Client.step Client.start separateRecord = some c ∧
      c.plain = [104] ∧ c.presented = [23, 7, 8] ∧ PresentedOnce c := by
  have hK : EachStep Client.step Client.Answers Client.start separateRecord := by
    refine ⟨⟨by decide, by simp [RecvFits, recvSize]⟩, ⟨by decide, trivial⟩, trivial, trivial,
      by simp [Client.Answers, RecvFits, recvSize], rfl,
      by simp [Client.Answers, RecvFits, recvSize], ?_, trivial⟩
    exact ⟨by decide, rfl, rfl, by decide, by decide⟩
  have hall : EachStep Client.step TakesAll Client.start separateRecord :=
    ⟨by simp [TakesAll, Client.start], fun _ => rfl, trivial, trivial, trivial, trivial, trivial,
      trivial, trivial⟩
  exact ⟨_, rfl, rfl, rfl, (presentedOnce_iff hK rfl rfl).mpr hall⟩

/-- The first byte of a record arrives with the end of the handshake. -/
def recordBehindHandshake : List Event :=
  [.handshake ⟨.SEC_I_CONTINUE_NEEDED, 0, .empty, [22]⟩ [1] (.data [1, 2, 23]),
    .handshake ⟨.SEC_E_OK, 2, ⟨.SECBUFFER_EXTRA, 1, 0⟩, []⟩ [] .closed,
    .verify true, .request true]

theorem recordBehindHandshake_counterexample :
    EachStep Client.step Client.Answers Client.start recordBehindHandshake ∧
    ∃ c, run Client.step Client.start recordBehindHandshake = some c ∧
      c.arrived = [1, 2, 23] ∧ c.consumed = [1, 2] ∧ c.netBuf = [] ∧ c.presented = [] ∧
      ¬ PresentedOnce c := by
  refine ⟨⟨⟨by decide, by simp [RecvFits, recvSize]⟩, ⟨by decide, trivial⟩, trivial, trivial,
    trivial⟩, _, rfl, rfl, rfl, rfl, rfl, fun h => ?_⟩
  have hstream : ([1, 2] : List UInt8) = [1, 2, 23] := h.stream
  simp at hstream

end Win32Experiments.SspiClientServer
