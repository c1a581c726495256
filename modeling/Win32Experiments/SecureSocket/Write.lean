import Win32Experiments.Foundation.Extent
import Win32Experiments.Foundation.Word
import Win32Experiments.SecureSocket.Handshake
import Win32Experiments.StreamEncryption

/-!
# `tls_write`

`tls_write` encrypts one record after the other in `wbuffer`, and sends each in as many pieces as
`send` takes it. What `EncryptMessage` may write is logged by its extent in `wbuffer`.
-/

namespace Win32Experiments.SecureSocket

open Foundation Sspi Winsock

/-- The sizes with which `tls_write` works: records carry something, and fit in `wbuffer`. -/
structure StreamSizes.Usable (sizes : StreamSizes) : Prop where
  cbMaximumMessage_pos : 0 < sizes.cbMaximumMessage
  record_le : sizes.cbHeader + sizes.cbMaximumMessage + sizes.cbTrailer ≤ TLS_MAX_PACKET_SIZE

/-- A call of `tls_write`: the context, `wbuffer`, what is on the wire, the number of `send` calls,
and the extents of `wbuffer` that were written or handed over to be written. -/
structure Writing (Ctx : Type) where
  ctx : Ctx
  wbuffer : List UInt8
  wire : List UInt8
  sends : ℕ
  writes : List Extent

variable {Ctx : Type}

/-- The state in which a call starts: nothing sent, `wbuffer` uninitialised. -/
def Writing.start (ctx : Ctx) (wbuffer : List UInt8) : Writing Ctx := ⟨ctx, wbuffer, [], 0, []⟩

/-- Lines 284 to 301: the record of `chunk`, encrypted in `wbuffer`. -/
def Writing.encrypt (encryptMessage : EncryptMessage Ctx) (sizes : StreamSizes) (w : Writing Ctx)
    (chunk : List UInt8) : EncryptReply × Writing Ctx :=
  let use := chunk.length
  let wbuffer := store w.wbuffer sizes.cbHeader chunk
  let (reply, ctx) := encryptMessage w.ctx sizes.cbHeader (window wbuffer sizes.cbHeader use)
    sizes.cbTrailer
  (reply, { w with
    ctx
    wbuffer := reply.write wbuffer 0 sizes.cbHeader use
    writes := w.writes ++ [⟨sizes.cbHeader, use⟩, ⟨0, sizes.cbHeader⟩, ⟨sizes.cbHeader, use⟩,
      ⟨sizes.cbHeader + use, sizes.cbTrailer⟩] })

/-- Lines 309 to 319: the record is sent. -/
def Writing.send (accepts : ℕ → ℕ) (w : Writing Ctx) (total : ℕ) : Bool × Writing Ctx :=
  let sent := sendRange accepts w.wbuffer total 0 w.sends
  (sent.complete, { w with wire := w.wire ++ sent.wire, sends := sent.calls })

/-- The loop of `tls_write`, and what it returns. There is no result if an assertion fails, or if
records carry nothing and the loop does not end. -/
def tlsWriteLoop (encryptMessage : EncryptMessage Ctx) (sizes : StreamSizes) (accepts : ℕ → ℕ)
    (size : ℕ) (buffer : List UInt8) (w : Writing Ctx) : Option (ℤ × Writing Ctx) :=
  if _hsize : size = 0 then some (0, w)
  else if _hmax : sizes.cbMaximumMessage = 0 then none
  else if TLS_MAX_PACKET_SIZE <
      (sizes.cbHeader + sizes.cbMaximumMessage + sizes.cbTrailer) % 2 ^ 32 then none
  else
    let use := min size sizes.cbMaximumMessage
    let (reply, w) := w.encrypt encryptMessage sizes (buffer.take use)
    if reply.status ≠ .SEC_E_OK then some (-1, w)
    else
      let total := reply.header.length + reply.data.length + reply.trailer.length
      let (complete, w) := w.send accepts total
      if complete then
        tlsWriteLoop encryptMessage sizes accepts (size - use) (buffer.drop use) w
      else some (-1, w)
termination_by size

/-- `tls_write`, with an `int` for the size of the buffer. -/
def tlsWrite (encryptMessage : EncryptMessage Ctx) (sizes : StreamSizes) (accepts : ℕ → ℕ)
    (buffer : List UInt8) (w : Writing Ctx) : Option (ℤ × Writing Ctx) :=
  tlsWriteLoop encryptMessage sizes accepts (buffer.length % 2 ^ 32) buffer w

/-! ## A pass of the loop -/

variable {encryptMessage : EncryptMessage Ctx} {sizes : StreamSizes} {accepts : ℕ → ℕ}
  {w : Writing Ctx} {chunk : List UInt8} {size : ℕ} {buffer : List UInt8}

/-- What a pass may write lies in `wbuffer`. -/
theorem writes_encrypt (hsizes : sizes.Usable) (hchunk : chunk.length ≤ sizes.cbMaximumMessage)
    (h : ∀ e ∈ w.writes, e.Within TLS_MAX_PACKET_SIZE) :
    ∀ e ∈ (w.encrypt encryptMessage sizes chunk).2.writes, e.Within TLS_MAX_PACKET_SIZE := by
  have hrecord := hsizes.record_le
  simp only [Writing.encrypt, List.forall_mem_append, List.forall_mem_cons, Extent.within_mk]
  exact ⟨h, by omega, by omega, by omega, by omega, List.forall_mem_nil _⟩

/-- After a pass `wbuffer` starts with the record. -/
theorem encrypt_spec (hE : KeepsLengths encryptMessage) (hsizes : sizes.Usable)
    (hchunk : chunk.length ≤ sizes.cbMaximumMessage)
    (hlen : w.wbuffer.length = TLS_MAX_PACKET_SIZE) {reply : EncryptReply} {ctx' : Ctx}
    (hcall : encryptMessage w.ctx sizes.cbHeader chunk sizes.cbTrailer = (reply, ctx'))
    (hstatus : reply.status = .SEC_E_OK) :
    ∃ w', w.encrypt encryptMessage sizes chunk = (reply, w') ∧ w'.ctx = ctx' ∧ w'.wire = w.wire ∧
      w'.wbuffer.length = TLS_MAX_PACKET_SIZE ∧
      window w'.wbuffer 0 reply.bytes.length = reply.bytes := by
  have hrecord := hsizes.record_le
  have hcopied : window (store w.wbuffer sizes.cbHeader chunk) sizes.cbHeader chunk.length
      = chunk := window_store_self (by omega)
  have hstored : (store w.wbuffer sizes.cbHeader chunk).length = TLS_MAX_PACKET_SIZE := by
    rw [length_store (by omega), hlen]
  obtain ⟨hheader, hdata, htrailer⟩ := lengths_of_call hE hcall hstatus
  have hlength : (reply.write (store w.wbuffer sizes.cbHeader chunk) 0 sizes.cbHeader
      chunk.length).length = TLS_MAX_PACKET_SIZE := by
    rw [length_write hheader hdata htrailer (by omega), hstored]
  have hfront : window (reply.write (store w.wbuffer sizes.cbHeader chunk) 0 sizes.cbHeader
      chunk.length) 0 (0 + reply.bytes.length) = window _ 0 0 ++ reply.bytes :=
    front_write hheader hdata (by omega)
  rw [Nat.zero_add, window_zero_len, List.nil_append] at hfront
  rcases hencrypt : w.encrypt encryptMessage sizes chunk with ⟨reply', w'⟩
  simp only [Writing.encrypt, hcopied, hcall, Prod.mk.injEq] at hencrypt
  obtain ⟨rfl, rfl⟩ := hencrypt
  exact ⟨_, rfl, rfl, rfl, hlength, hfront⟩

/-- The loop goes on to the next record when one was encrypted and sent. -/
theorem tlsWriteLoop_next {reply : EncryptReply} {w' : Writing Ctx} (hsizes : sizes.Usable)
    (haccepts : ∀ k, 0 < accepts k) (hsize : size ≠ 0)
    (hencrypt : w.encrypt encryptMessage sizes (buffer.take (min size sizes.cbMaximumMessage))
      = (reply, w')) (hstatus : reply.status = .SEC_E_OK) :
    tlsWriteLoop encryptMessage sizes accepts size buffer w
      = tlsWriteLoop encryptMessage sizes accepts (size - min size sizes.cbMaximumMessage)
        (buffer.drop (min size sizes.cbMaximumMessage))
        (w'.send accepts reply.bytes.length).2 := by
  have hmax := hsizes.cbMaximumMessage_pos
  have hrecord := hsizes.record_le
  have hcomplete : (w'.send accepts reply.bytes.length).1 = true :=
    (sendRange_complete haccepts _ _ _ _).2
  rw [tlsWriteLoop, dif_neg hsize, dif_neg (by omega), if_neg (by omega)]
  simp only [hencrypt, hstatus, ne_eq, not_true_eq_false, if_false]
  rw [length_bytes] at hcomplete ⊢
  rw [if_pos hcomplete]

/-- The first chunk is as long as the buffer or as a message may be, and the rest comes behind it. -/
theorem first_chunk (buffer : List UInt8) (cbMaximumMessage : ℕ) :
    buffer.take (min buffer.length cbMaximumMessage) = buffer.take cbMaximumMessage ∧
      buffer.drop (min buffer.length cbMaximumMessage) = buffer.drop cbMaximumMessage ∧
      buffer.length - min buffer.length cbMaximumMessage
        = (buffer.drop cbMaximumMessage).length := by
  refine ⟨?_, ?_, ?_⟩
  · rw [List.take_eq_take_iff]
    omega
  · rw [List.drop_eq_drop_iff]
    omega
  · rw [List.length_drop]
    omega

/-- What the loop puts on the wire: the encryptions of the chunks of the buffer, in order. -/
theorem tlsWriteLoop_complete (hE : KeepsLengths encryptMessage) (hsizes : sizes.Usable)
    (haccepts : ∀ k, 0 < accepts k) (hlen : w.wbuffer.length = TLS_MAX_PACKET_SIZE)
    {bytes : List UInt8}
    (hbytes : encryptAll encryptMessage sizes.cbHeader sizes.cbTrailer w.ctx
      (chunks sizes.cbMaximumMessage buffer) = some bytes) :
    ∃ w', tlsWriteLoop encryptMessage sizes accepts buffer.length buffer w = some (0, w') ∧
      w'.wire = w.wire ++ bytes := by
  have hmax := hsizes.cbMaximumMessage_pos
  induction buffer using chunks.induct sizes.cbMaximumMessage generalizing w bytes with
  | case1 buffer h =>
    obtain rfl : buffer = [] := h.resolve_right (by omega)
    rw [chunks_nil, encryptAll, Option.some.injEq] at hbytes
    rw [tlsWriteLoop, dif_pos List.length_nil, ← hbytes, List.append_nil]
    exact ⟨w, rfl, rfl⟩
  | case2 buffer h ih =>
    have hne : buffer ≠ [] := fun hnil => h (Or.inl hnil)
    have hsize : buffer.length ≠ 0 := fun hzero => hne (List.length_eq_zero_iff.mp hzero)
    obtain ⟨htake, hdrop, hrest⟩ := first_chunk buffer sizes.cbMaximumMessage
    rcases hcall : encryptMessage w.ctx sizes.cbHeader (buffer.take sizes.cbMaximumMessage)
      sizes.cbTrailer with ⟨reply, ctx'⟩
    rw [chunks_of_ne_nil hmax hne] at hbytes
    obtain ⟨hstatus, rest, hbehind, rfl⟩ := encryptAll_cons hcall hbytes
    obtain ⟨w', hencrypt, rfl, hwire, hlen', hfront⟩ :=
      encrypt_spec hE hsizes (by rw [List.length_take]; omega) hlen hcall hstatus
    rw [← htake] at hencrypt
    rw [tlsWriteLoop_next hsizes haccepts hsize hencrypt hstatus, hdrop, hrest]
    have hlenSent : (w'.send accepts reply.bytes.length).2.wbuffer.length = TLS_MAX_PACKET_SIZE :=
      hlen'
    obtain ⟨w'', hloop, hwire''⟩ := ih hlenSent hbehind
    refine ⟨w'', hloop, ?_⟩
    have hsent := (sendRange_complete haccepts w'.wbuffer reply.bytes.length 0 w'.sends).1
    rw [Nat.sub_zero, hfront] at hsent
    rw [hwire'']
    show w'.wire ++ (sendRange accepts w'.wbuffer reply.bytes.length 0 w'.sends).wire ++ rest = _
    rw [hsent, hwire, List.append_assoc]

/-- Whatever the calls return, nothing is written outside `wbuffer`. -/
theorem writes_tlsWriteLoop (hsizes : sizes.Usable) {result : ℤ} {w' : Writing Ctx}
    (hloop : tlsWriteLoop encryptMessage sizes accepts size buffer w = some (result, w'))
    (h : ∀ e ∈ w.writes, e.Within TLS_MAX_PACKET_SIZE) :
    ∀ e ∈ w'.writes, e.Within TLS_MAX_PACKET_SIZE := by
  induction size using Nat.strong_induction_on generalizing buffer w with
  | _ size ih =>
    have hmax := hsizes.cbMaximumMessage_pos
    have hrecord := hsizes.record_le
    rw [tlsWriteLoop] at hloop
    by_cases hsize : size = 0
    · rw [dif_pos hsize, Option.some.injEq, Prod.mk.injEq] at hloop
      rw [← hloop.2]
      exact h
    · rw [dif_neg hsize, dif_neg (by omega), if_neg (by omega)] at hloop
      have hchunk : (buffer.take (min size sizes.cbMaximumMessage)).length
          ≤ sizes.cbMaximumMessage := by
        rw [List.length_take]
        omega
      have hwrites : ∀ e ∈ (w.encrypt encryptMessage sizes
          (buffer.take (min size sizes.cbMaximumMessage))).2.writes,
          e.Within TLS_MAX_PACKET_SIZE := writes_encrypt hsizes hchunk h
      rcases hencrypt : w.encrypt encryptMessage sizes
        (buffer.take (min size sizes.cbMaximumMessage)) with ⟨reply, w₁⟩
      rw [hencrypt] at hwrites
      simp only [hencrypt] at hloop
      split at hloop
      · rw [Option.some.injEq, Prod.mk.injEq] at hloop
        rw [← hloop.2]
        exact hwrites
      · split at hloop
        · exact ih _ (by omega) hloop hwrites
        · rw [Option.some.injEq, Prod.mk.injEq] at hloop
          rw [← hloop.2]
          exact hwrites

end Win32Experiments.SecureSocket
