import Win32Experiments.SecureSocket.HandshakeTheorems
import Win32Experiments.SecureSocket.Read

/-!
# `tls_read` delivers the plaintext stream

`incoming` is read as three parts: the plaintext of the open record that was not handed out
yet (`plainLeft`), the rest of that record, and the ciphertext behind it (`undecrypted`).

* `Reader.InOrder`: what was handed out and what is left of the open record is the plaintext
  of the records decrypted so far, and their ciphertext followed by `undecrypted` is what
  arrived;
* one lemma for each branch of the loop says that it keeps this;
* `tlsRead_stream`: what the returned calls delivered is a prefix of the plaintext stream;
* `fails_only_on_recv`: nothing but a failed `recv` makes a call fail.
-/

namespace Win32Experiments.SecureSocket

open Foundation Sspi Winsock

/-! ## The parts of `incoming` -/

/-- Plaintext of the open record that was not handed out yet. -/
def TlsSocket.plainLeft (s : TlsSocket) : List UInt8 :=
  match s.decrypted with
  | none => []
  | some decrypted => window s.incoming decrypted s.available

/-- Ciphertext that was not decrypted yet: `incoming[used, received)`. -/
def TlsSocket.undecrypted (s : TlsSocket) : List UInt8 :=
  window s.incoming s.used (s.received - s.used)

/-- The fields of the socket describe ranges of `incoming`. -/
structure TlsSocket.Valid (s : TlsSocket) : Prop where
  length_incoming : s.incoming.length = TLS_MAX_PACKET_SIZE
  used_le : s.used ≤ s.received
  received_le : s.received ≤ TLS_MAX_PACKET_SIZE
  fresh : s.decrypted = none → s.used = 0
  window_le : ∀ decrypted, s.decrypted = some decrypted → decrypted + s.available ≤ s.used

theorem length_undecrypted {s : TlsSocket} (h : s.Valid) :
    s.undecrypted.length = s.received - s.used := by
  have h1 := h.length_incoming
  have h2 := h.used_le
  have h3 := h.received_le
  exact length_window (by omega)

/-- Without an open record all of the buffered bytes are ciphertext. -/
theorem undecrypted_eq_buffered {s : TlsSocket} (h : s.Valid) (hnone : s.decrypted = none) :
    s.undecrypted = s.buffered := by
  rw [TlsSocket.undecrypted, TlsSocket.buffered, h.fresh hnone, Nat.sub_zero]

/-! ## What each branch does to the socket -/

theorem valid_dropRecord {s : TlsSocket} (h : s.Valid) : s.dropRecord.Valid := by
  obtain ⟨hlen, hused, hreceived, _, _⟩ := h
  refine ⟨?_, Nat.zero_le _, ?_, fun _ => rfl, ?_⟩
  · show (moveFront s.incoming s.used (s.received - s.used)).length = _
    rw [length_moveFront (by omega), hlen]
  · show s.received - s.used ≤ _
    omega
  · intro decrypted hsome
    simp [TlsSocket.dropRecord] at hsome

/-- Dropping the open record keeps the ciphertext behind it. -/
theorem undecrypted_dropRecord {s : TlsSocket} (h : s.Valid) :
    s.dropRecord.undecrypted = s.undecrypted := by
  obtain ⟨hlen, hused, hreceived, _, _⟩ := h
  show window (moveFront s.incoming s.used (s.received - s.used)) 0 (s.received - s.used - 0) = _
  rw [Nat.sub_zero, window_moveFront (by omega)]
  rfl

theorem plainLeft_dropRecord (s : TlsSocket) : s.dropRecord.plainLeft = [] := rfl

theorem valid_append {s : TlsSocket} {bytes : List UInt8} (h : s.Valid)
    (hnone : s.decrypted = none) (hroom : s.received + bytes.length ≤ TLS_MAX_PACKET_SIZE) :
    (s.append bytes).Valid := by
  obtain ⟨hlen, hused, hreceived, hfresh, _⟩ := h
  refine ⟨(length_incoming_append (by omega)).trans hlen, ?_, hroom, hfresh, ?_⟩
  · show s.used ≤ s.received + bytes.length
    omega
  · intro decrypted hsome
    exact absurd (hnone.symm.trans hsome) (by simp)

/-- Received bytes extend the ciphertext. -/
theorem undecrypted_append {s : TlsSocket} {bytes : List UInt8} (h : s.Valid) :
    (s.append bytes).undecrypted = s.undecrypted ++ bytes := by
  obtain ⟨hlen, hused, hreceived, _, _⟩ := h
  have hsum : s.used + (s.received - s.used) = s.received := Nat.add_sub_cancel' hused
  have happ : window (store s.incoming (s.used + (s.received - s.used)) bytes) s.used
      (s.received - s.used + bytes.length) = s.undecrypted ++ bytes :=
    window_store_append (by omega)
  rw [hsum] at happ
  show window (store s.incoming s.received bytes) s.used (s.received + bytes.length - s.used) = _
  rw [Nat.sub_add_comm hused, happ]

/-- Handing out the front of the open record. -/
theorem plainLeft_advance {s : TlsSocket} {decrypted use : ℕ} (hsome : s.decrypted = some decrypted)
    (huse : use ≤ s.available) :
    s.plainLeft = window s.incoming decrypted use ++
      ({ s with available := s.available - use, decrypted := some (decrypted + use) }
        : TlsSocket).plainLeft := by
  have hsum : s.available = use + (s.available - use) := by omega
  show s.plainLeft = window s.incoming decrypted use
    ++ window s.incoming (decrypted + use) (s.available - use)
  rw [← window_add, ← hsum, TlsSocket.plainLeft, hsome]

/-- The socket after `DecryptMessage` decrypted the record at the front of `incoming`. -/
theorem openRecord_spec {s : TlsSocket} {record : Record} {extra : List UInt8}
    {buffers : Vector SecBuffer 4} (h : s.Valid)
    (hreceived : s.received = record.cipher.length + extra.length)
    (hdata : buffers[1] = ⟨.SECBUFFER_DATA, record.plain.length, record.offset⟩)
    (hextra : extra ≠ [] → buffers[3].bufferType = .SECBUFFER_EXTRA)
    (hcb : buffers[3].bufferType = .SECBUFFER_EXTRA → buffers[3].cbBuffer = extra.length)
    (s' : TlsSocket)
    (hs' : s' = TlsSocket.openRecord
      { s with incoming := store s.incoming 0 (record.image ++ extra) } buffers) :
    s'.Valid ∧ s'.plainLeft = record.plain ∧ s'.undecrypted = extra := by
  have himage := record.length_image
  have hplain := record.plain_le
  -- `used` is what `received` is without the `SECBUFFER_EXTRA` behind the record
  have hused : s'.used = record.cipher.length := by
    rw [hs']
    show s.received - (if _ then _ else _) = _
    split
    · next htype =>
      rw [hcb htype]
      omega
    · next htype =>
      have hnil : extra = [] := by_contra fun hne => htype (hextra hne)
      rw [hreceived, hnil, List.length_nil]
      omega
  have hlen : (record.image ++ extra).length = s.received := by
    rw [List.length_append]
    omega
  have hrec : s'.received = s.received := by rw [hs']; rfl
  have hinc : s'.incoming = store s.incoming 0 (record.image ++ extra) := by rw [hs']; rfl
  have havail : s'.available = record.plain.length := by
    rw [hs']
    show buffers[1].cbBuffer = _
    rw [hdata]
  have hdec : s'.decrypted = some record.offset := by
    rw [hs']
    show some buffers[1].pvBuffer = _
    rw [hdata]
  -- the block that `DecryptMessage` wrote is the front of `incoming`
  have hfront : window s'.incoming 0 s.received = record.image ++ extra := by
    rw [hinc, ← hlen]
    exact window_store_self (Nat.zero_le _)
  refine ⟨⟨?_, by omega, by rw [hrec]; exact h.received_le, by simp [hdec], ?_⟩, ?_, ?_⟩
  · rw [hinc, length_store (by rw [hlen, h.length_incoming, Nat.zero_add]; exact h.received_le),
      h.length_incoming]
  · intro decrypted hsome
    rw [hdec, Option.some.injEq] at hsome
    omega
  · have hwin : window s'.incoming record.offset record.plain.length
        = window (window s'.incoming 0 s.received) record.offset record.plain.length := by
      rw [window_window (by omega), Nat.zero_add]
    rw [TlsSocket.plainLeft, hdec, havail]
    show window s'.incoming record.offset record.plain.length = _
    rw [hwin, hfront, window_append_left hplain, record.window_image]
  · have hwin : window s'.incoming record.cipher.length extra.length
        = window (window s'.incoming 0 s.received) record.cipher.length extra.length := by
      rw [window_window (by omega), Nat.zero_add]
    have hrest : s.received - record.cipher.length = extra.length := by omega
    rw [TlsSocket.undecrypted, hused, hrec, hrest, hwin, hfront, ← himage, window_append_right]

/-! ## The reader -/

variable {Ctx : Type} {sch : Schannel Ctx} {expects : Ctx → List Record} {records : List Record}

/-- The streams agree: `out` is what the call in progress has copied. -/
structure Reader.InOrder (expects : Ctx → List Record) (records : List Record)
    (r : Reader Ctx) (out : List UInt8) : Prop where
  valid : r.socket.Valid
  streams : ∃ done, records = done ++ expects r.ctx ∧
    r.arrived = cipherOf done ++ r.socket.undecrypted ∧
    r.returned ++ out ++ r.socket.plainLeft = plainOf done

/-- The invariant of a reader, by where it stands. -/
def Reader.Inv (expects : Ctx → List Record) (records : List Record) (r : Reader Ctx) : Prop :=
  match r.control with
  | .idle => r.InOrder expects records []
  | .looping l => r.InOrder expects records l.out ∧ l.result = l.out.length
  | .receiving l => r.InOrder expects records [] ∧ l.out = [] ∧ l.result = 0 ∧
      r.socket.decrypted = none
  | .failed => True
  | .asserted => True

theorem plainLeft_of_none {s : TlsSocket} (h : s.decrypted = none) : s.plainLeft = [] := by
  rw [TlsSocket.plainLeft, h]

/-- Returning hands the copied bytes over. -/
theorem inv_finish {r : Reader Ctx} {l : Locals} (h : r.InOrder expects records l.out)
    (hresult : l.result = l.out.length) : (r.finish l).Inv expects records := by
  obtain ⟨hvalid, done, hdone, harrived, hplain⟩ := h
  refine ⟨hvalid, done, hdone, harrived, ?_⟩
  show r.returned ++ l.out.take l.result ++ [] ++ r.socket.plainLeft = plainOf done
  rw [hresult, List.take_length, List.append_nil, hplain]

/-- Copying moves plaintext of the open record to the caller. -/
theorem inv_copy {r : Reader Ctx} {l : Locals} {decrypted : ℕ}
    (h : r.InOrder expects records l.out) (hresult : l.result = l.out.length)
    (hsome : r.socket.decrypted = some decrypted) :
    (r.copy l decrypted).Inv expects records := by
  obtain ⟨hvalid, done, hdone, harrived, hplain⟩ := h
  have hwindow := hvalid.window_le decrypted hsome
  set use := min l.size r.socket.available with huse
  have hlen : (window r.socket.incoming decrypted use).length = use := by
    have h1 := hvalid.length_incoming
    have h2 := hvalid.used_le
    have h3 := hvalid.received_le
    exact length_window (by omega)
  have hout : l.result + use = (l.out ++ window r.socket.incoming decrypted use).length := by
    rw [List.length_append, hlen, hresult]
  by_cases hall : use = r.socket.available
  · -- the record is used up
    have hcopy : r.copy l decrypted =
        { r with
          socket := r.socket.dropRecord
          control := .looping ⟨l.size - use, l.result + use,
            l.out ++ window r.socket.incoming decrypted use⟩ } := by
      simp only [Reader.copy, ← huse, if_pos hall]
    have hleft : r.socket.plainLeft = window r.socket.incoming decrypted use := by
      rw [TlsSocket.plainLeft, hsome, hall]
    rw [hcopy]
    refine ⟨⟨valid_dropRecord hvalid, done, hdone, ?_, ?_⟩, hout⟩
    · show r.arrived = cipherOf done ++ r.socket.dropRecord.undecrypted
      rw [undecrypted_dropRecord hvalid, harrived]
    · show r.returned ++ (l.out ++ window r.socket.incoming decrypted use)
        ++ r.socket.dropRecord.plainLeft = plainOf done
      rw [plainLeft_dropRecord, List.append_nil, ← hplain, hleft, List.append_assoc]
  · -- the caller's buffer is full
    have hle : use ≤ r.socket.available := Nat.min_le_right _ _
    have hcopy : r.copy l decrypted =
        { r with
          socket := { r.socket with
            available := r.socket.available - use, decrypted := some (decrypted + use) }
          control := .looping ⟨l.size - use, l.result + use,
            l.out ++ window r.socket.incoming decrypted use⟩ } := by
      simp only [Reader.copy, ← huse, if_neg hall]
    rw [hcopy]
    refine ⟨⟨⟨hvalid.length_incoming, hvalid.used_le, hvalid.received_le, by simp, ?_⟩,
      done, hdone, harrived, ?_⟩, hout⟩
    · intro decrypted' hsome'
      simp only [Option.some.injEq] at hsome' ⊢
      omega
    · rw [← hplain, plainLeft_advance hsome hle]
      simp only [List.append_assoc]

/-- Asking for more data, with no open record. -/
theorem inv_needMore {r : Reader Ctx} {l : Locals} (h : r.InOrder expects records l.out)
    (hresult : l.result = l.out.length) (hnone : r.socket.decrypted = none) :
    (r.needMore l).Inv expects records := by
  unfold Reader.needMore
  split
  · -- what was copied is handed over before the next `recv`
    exact inv_finish h hresult
  · next hzero =>
    have hout : l.out = [] := List.length_eq_zero_iff.mp (by omega)
    rw [hout] at h
    split
    · trivial
    · exact ⟨⟨h.valid, h.streams⟩, hout, by omega, hnone⟩

/-- A block that holds the next record whole. -/
theorem decrypt_complete {r : Reader Ctx} {l : Locals} {record : Record} {rest : List Record}
    {extra : List UInt8} (hD : DecryptContract sch expects)
    (h : r.InOrder expects records l.out) (hresult : l.result = l.out.length)
    (hnone : r.socket.decrypted = none) (hnext : expects r.ctx = record :: rest)
    (hblock : r.socket.buffered = record.cipher ++ extra) (hsizes : r.socket.sizes.cBuffers = 4) :
    (r.decrypt sch l).control = .looping l ∧ (r.decrypt sch l).socket.undecrypted = extra ∧
    (r.decrypt sch l).Inv expects records := by
  obtain ⟨hvalid, done, hdone, harrived, hplain⟩ := h
  rcases hcall : sch.decryptMessage r.ctx r.socket.buffered with ⟨reply, ctx'⟩
  have hcontract := hD.complete r.ctx record rest extra reply ctx' hnext (hblock ▸ hcall)
  obtain ⟨hstatus, hreply, hheader, hdata, htrailer, hextra, hcb, hctx⟩ := hcontract
  -- the block is all that `incoming` holds
  have hreceived : r.socket.received = record.cipher.length + extra.length := by
    rw [← List.length_append, ← hblock]
    refine (length_buffered ?_).symm
    rw [hvalid.length_incoming]
    exact hvalid.received_le
  have htypes : reply.buffers[0].bufferType = .SECBUFFER_STREAM_HEADER ∧
      reply.buffers[1].bufferType = .SECBUFFER_DATA ∧
      reply.buffers[2].bufferType = .SECBUFFER_STREAM_TRAILER :=
    ⟨hheader, by rw [hdata], htrailer⟩
  have hdec : r.decrypt sch l =
      { r with
        ctx := ctx'
        socket := TlsSocket.openRecord
          { r.socket with incoming := store r.socket.incoming 0 (record.image ++ extra) }
          reply.buffers
        control := .looping l } := by
    simp only [Reader.decrypt, hsizes, hcall, hstatus, hreply, if_pos htypes, ne_eq,
      not_true_eq_false, if_false]
  obtain ⟨hvalid', hleft, hund⟩ := openRecord_spec hvalid hreceived hdata hextra hcb _ rfl
  rw [hdec]
  refine ⟨rfl, hund, ⟨hvalid', done ++ [record], ?_, ?_, ?_⟩, hresult⟩
  · show records = done ++ [record] ++ expects ctx'
    rw [hctx, List.append_assoc, List.singleton_append, ← hnext, hdone]
  · show r.arrived = _
    rw [hund, harrived, undecrypted_eq_buffered hvalid hnone, hblock]
    simp [cipherOf]
  · show r.returned ++ l.out ++ _ = _
    rw [plainLeft_of_none hnone, List.append_nil] at hplain
    rw [hleft, hplain]
    simp [plainOf]

/-- A block that does not hold the next record whole is left as it was. -/
theorem decrypt_incomplete {r : Reader Ctx} {l : Locals} (hD : DecryptContract sch expects)
    (hvalid : r.socket.Valid) (hsizes : r.socket.sizes.cBuffers = 4)
    (hpart : ∀ record rest, expects r.ctx = record :: rest →
      ¬ record.cipher <+: r.socket.buffered) :
    ∃ ctx', expects ctx' = expects r.ctx ∧
      r.decrypt sch l = Reader.needMore { r with ctx := ctx' } l := by
  rcases hcall : sch.decryptMessage r.ctx r.socket.buffered with ⟨reply, ctx'⟩
  obtain ⟨hstatus, hblock, hctx⟩ := hD.incomplete r.ctx _ reply ctx' hpart hcall
  -- an untouched block leaves `incoming` as it was
  have hstore : store r.socket.incoming 0 r.socket.buffered = r.socket.incoming := by
    apply store_window
    rw [hvalid.length_incoming, Nat.zero_add]
    exact hvalid.received_le
  refine ⟨ctx', hctx, ?_⟩
  simp only [Reader.decrypt, hsizes, hcall, hstatus, hblock, hstore, ne_eq, not_true_eq_false,
    if_false]

/-- Decrypting keeps the invariant, whatever has arrived. -/
theorem inv_decrypt {r : Reader Ctx} {l : Locals} (hD : DecryptContract sch expects)
    (h : r.InOrder expects records l.out) (hresult : l.result = l.out.length)
    (hnone : r.socket.decrypted = none) : (r.decrypt sch l).Inv expects records := by
  by_cases hsizes : r.socket.sizes.cBuffers = 4
  · by_cases hfull : ∃ record rest, expects r.ctx = record :: rest ∧
        record.cipher <+: r.socket.buffered
    · obtain ⟨record, rest, hnext, extra, hblock⟩ := hfull
      exact (decrypt_complete hD h hresult hnone hnext hblock.symm hsizes).2.2
    · have hpart : ∀ record rest, expects r.ctx = record :: rest →
          ¬ record.cipher <+: r.socket.buffered :=
        fun record rest hnext hpre => hfull ⟨record, rest, hnext, hpre⟩
      obtain ⟨ctx', hctx, hdec⟩ := @decrypt_incomplete _ _ _ r l hD h.valid hsizes hpart
      obtain ⟨hvalid, done, hdone, harrived, hplain⟩ := h
      rw [hdec]
      exact inv_needMore ⟨hvalid, done, hctx.symm ▸ hdone, harrived, hplain⟩ hresult hnone
  · -- other stream sizes trip the assertion on `cBuffers`
    have hdec : r.decrypt sch l = { r with control := .asserted } := by
      simp only [Reader.decrypt, if_pos hsizes, ne_eq]
    rw [hdec]
    trivial

/-- An iteration keeps the invariant. -/
theorem inv_iterate {r : Reader Ctx} {l : Locals} (hD : DecryptContract sch expects)
    (h : r.InOrder expects records l.out) (hresult : l.result = l.out.length) :
    (r.iterate sch l).Inv expects records := by
  unfold Reader.iterate
  split
  · exact inv_finish h hresult
  · split
    · next decrypted hsome => exact inv_copy h hresult hsome
    · next hnone =>
      split
      · exact inv_decrypt hD h hresult hnone
      · exact inv_needMore h hresult hnone

/-- A return of `recv` keeps the invariant. -/
theorem inv_receive {r : Reader Ctx} {l : Locals} {outcome : RecvOutcome}
    (h : r.InOrder expects records []) (hout : l.out = []) (hresult : l.result = 0)
    (hnone : r.socket.decrypted = none) (hfits : RecvFits r.socket.received outcome) :
    (r.receive l outcome).Inv expects records := by
  obtain ⟨hvalid, done, hdone, harrived, hplain⟩ := h
  cases outcome with
  | closed => exact ⟨hvalid, done, hdone, harrived, hplain⟩
  | error => trivial
  | data bytes =>
    refine ⟨⟨valid_append hvalid hnone hfits.2, done, hdone, ?_, ?_⟩, by rw [hresult, hout]; rfl⟩
    · show r.arrived ++ bytes = cipherOf done ++ (r.socket.append bytes).undecrypted
      rw [undecrypted_append hvalid, harrived, List.append_assoc]
    · show r.returned ++ l.out ++ (r.socket.append bytes).plainLeft = plainOf done
      have hnone' : (r.socket.append bytes).decrypted = none := hnone
      rw [plainLeft_of_none hnone] at hplain
      rw [plainLeft_of_none hnone', hout, hplain]

/-- The steps of a reader, by the branch of `Reader.step`. -/
inductive Reader.Stepped (sch : Schannel Ctx) (r : Reader Ctx) : ReadEvent → Reader Ctx → Prop
  | call {size : ℕ} (hidle : r.control = .idle) (hpos : 0 < size) :
    Stepped sch r (.call size) { r with control := .looping ⟨size, 0, []⟩ }
  | iterate {l : Locals} (hcontrol : r.control = .looping l) :
    Stepped sch r .iterate (r.iterate sch l)
  | recv {l : Locals} {outcome : RecvOutcome} (hcontrol : r.control = .receiving l) :
    Stepped sch r (.recv outcome) (r.receive l outcome)

/-- A step takes one of the branches. -/
theorem stepped_of_step {r r' : Reader Ctx} {e : ReadEvent} (h : r.step sch e = some r') :
    r.Stepped sch e r' := by
  cases e with
  | call size =>
    obtain ⟨⟨hidle, hpos⟩, heq⟩ := Option.ite_none_right_eq_some.mp h
    rw [← Option.some.inj heq]
    exact .call hidle hpos
  | iterate =>
    simp only [Reader.step] at h
    split at h
    · next l hcontrol =>
      rw [← Option.some.inj h]
      exact .iterate hcontrol
    · cases h
  | recv outcome =>
    simp only [Reader.step] at h
    split at h
    · next l hcontrol =>
      rw [← Option.some.inj h]
      exact .recv hcontrol
    · cases h

/-- **One step** of a reader keeps the invariant. -/
theorem inv_step {stream : List UInt8} {r r' : Reader Ctx} {e : ReadEvent}
    (hD : DecryptContract sch expects) (h : r.Inv expects records) (hK : r.Delivers stream e)
    (hstep : r.step sch e = some r') : r'.Inv expects records := by
  cases stepped_of_step hstep with
  | call hidle hpos =>
    rw [Reader.Inv, hidle] at h
    exact ⟨⟨h.valid, h.streams⟩, rfl⟩
  | iterate hcontrol =>
    rw [Reader.Inv, hcontrol] at h
    exact inv_iterate hD h.1 h.2
  | recv hcontrol =>
    rw [Reader.Inv, hcontrol] at h
    obtain ⟨hin, hout, hresult, hnone⟩ := h
    exact inv_receive hin hout hresult hnone hK.1

/-! ## Runs -/

theorem inv_start {sizes : StreamSizes} {ctx : Ctx} {incoming : List UInt8}
    (hlen : incoming.length = TLS_MAX_PACKET_SIZE) (hctx : expects ctx = records) :
    (Reader.start sizes ctx incoming).Inv expects records := by
  refine ⟨⟨hlen, Nat.le_refl _, Nat.zero_le _, fun _ => rfl, ?_⟩, [], hctx.symm, ?_, rfl⟩
  · intro decrypted hsome
    simp [Reader.start, TlsSocket.start] at hsome
  · show ([] : List UInt8) = [] ++ window incoming 0 (0 - 0)
    rw [window_zero_len, List.append_nil]

/-! ## Calls fail only when `recv` does -/

theorem renegotiate_frame (sch : Schannel Ctx) (r : Reader Ctx) (l : Locals)
    (buffers : Vector SecBuffer 4) :
    (r.renegotiate sch l buffers).arrived = r.arrived ∧
    (r.renegotiate sch l buffers).socket.sizes = r.socket.sizes := by
  unfold Reader.renegotiate
  split
  · exact ⟨rfl, rfl⟩
  · split
    · exact ⟨rfl, rfl⟩
    · simp only
      split <;> exact ⟨rfl, rfl⟩

theorem needMore_frame (r : Reader Ctx) (l : Locals) :
    (r.needMore l).arrived = r.arrived ∧ (r.needMore l).socket = r.socket := by
  unfold Reader.needMore
  split
  · exact ⟨rfl, rfl⟩
  · split <;> exact ⟨rfl, rfl⟩

/-- Iterations receive nothing and leave the stream sizes alone. -/
theorem iterate_frame (sch : Schannel Ctx) (r : Reader Ctx) (l : Locals) :
    (r.iterate sch l).arrived = r.arrived ∧
    (r.iterate sch l).socket.sizes = r.socket.sizes := by
  have hmore : ∀ r : Reader Ctx, (r.needMore l).arrived = r.arrived ∧
      (r.needMore l).socket.sizes = r.socket.sizes := by
    intro r
    obtain ⟨harrived, hsocket⟩ := needMore_frame r l
    exact ⟨harrived, by rw [hsocket]⟩
  unfold Reader.iterate
  split
  · exact ⟨rfl, rfl⟩
  · split
    · refine ⟨rfl, ?_⟩
      simp only [Reader.copy]
      split <;> rfl
    · split
      · unfold Reader.decrypt
        split
        · exact ⟨rfl, rfl⟩
        · simp only
          split
          · split <;> exact ⟨rfl, rfl⟩
          · exact ⟨rfl, rfl⟩
          · exact renegotiate_frame sch _ l _
          · exact hmore _
          · exact ⟨rfl, rfl⟩
      · exact hmore r

/-- What arrived is the front of the stream. -/
theorem arrived_step {stream : List UInt8} {r r' : Reader Ctx} {e : ReadEvent}
    (hK : r.Delivers stream e) (hstep : r.step sch e = some r') (h : r.arrived <+: stream) :
    r'.arrived <+: stream ∧ r'.socket.sizes = r.socket.sizes := by
  cases stepped_of_step hstep with
  | call hidle hpos => exact ⟨h, rfl⟩
  | @iterate l hcontrol =>
    obtain ⟨harrived, hsizes⟩ := iterate_frame sch r l
    exact ⟨harrived ▸ h, hsizes⟩
  | @recv l outcome hcontrol =>
    cases outcome with
    | closed => exact ⟨h, rfl⟩
    | error => exact ⟨h, rfl⟩
    | data bytes => exact ⟨hK.2 bytes rfl, rfl⟩

/-- A full `incoming` that starts at a record boundary holds a whole record. -/
theorem record_of_full {r : Reader Ctx} {out : List UInt8}
    (h : r.InOrder expects records out) (hnone : r.socket.decrypted = none)
    (harrives : r.arrived <+: cipherOf records)
    (hfull : r.socket.received = TLS_MAX_PACKET_SIZE) :
    ∃ record rest, expects r.ctx = record :: rest ∧ record.cipher <+: r.socket.buffered := by
  obtain ⟨hvalid, done, hdone, harrived, _⟩ := h
  have hlen : r.socket.undecrypted.length = TLS_MAX_PACKET_SIZE := by
    rw [length_undecrypted hvalid, hvalid.fresh hnone, hfull, Nat.sub_zero]
  -- the bytes not decrypted are the front of the ciphertext still expected
  have hpre : r.socket.undecrypted <+: cipherOf (expects r.ctx) := by
    rw [harrived, hdone, cipherOf, cipherOf, List.flatMap_append] at harrives
    exact (List.prefix_append_right_inj _).mp harrives
  rw [← undecrypted_eq_buffered hvalid hnone]
  cases hnext : expects r.ctx with
  -- nothing is expected, yet `incoming` is full
  | nil =>
    rw [hnext, cipherOf, List.flatMap_nil, List.prefix_nil] at hpre
    rw [hpre, List.length_nil] at hlen
    exact absurd hlen (by decide)
  | cons record rest =>
    -- a record is no longer than `incoming`
    refine ⟨record, rest, rfl, ?_⟩
    rw [hnext, cipherOf, List.flatMap_cons] at hpre
    exact List.prefix_of_prefix_length_le (List.prefix_append _ _) hpre
      (by rw [hlen]; exact record.length_cipher)

/-- Asking for more with room left does not fail. -/
theorem needMore_control {r : Reader Ctx} {l : Locals}
    (hroom : r.socket.received ≠ TLS_MAX_PACKET_SIZE) :
    (r.needMore l).control = .idle ∨ (r.needMore l).control = .receiving l := by
  unfold Reader.needMore
  split
  · exact Or.inl rfl
  · exact Or.inr rfl

/-- An iteration neither fails nor trips an assertion. -/
theorem iterate_control {r : Reader Ctx} {l : Locals} (hD : DecryptContract sch expects)
    (h : r.InOrder expects records l.out) (hresult : l.result = l.out.length)
    (hsizes : r.socket.sizes.cBuffers = 4) (harrives : r.arrived <+: cipherOf records) :
    (r.iterate sch l).control ≠ .asserted ∧ (r.iterate sch l).control ≠ .failed := by
  have hmore : ∀ r : Reader Ctx, r.socket.received ≠ TLS_MAX_PACKET_SIZE →
      (r.needMore l).control ≠ .asserted ∧ (r.needMore l).control ≠ .failed := by
    intro r hroom
    rcases needMore_control hroom with hc | hc <;> rw [hc] <;> exact ⟨by simp, by simp⟩
  unfold Reader.iterate
  split
  · exact ⟨by simp [Reader.finish], by simp [Reader.finish]⟩
  · split
    · exact ⟨by simp [Reader.copy], by simp [Reader.copy]⟩
    · next hnone =>
      split
      · by_cases hwhole : ∃ record rest, expects r.ctx = record :: rest ∧
            record.cipher <+: r.socket.buffered
        · obtain ⟨record, rest, hnext, extra, hblock⟩ := hwhole
          rw [(decrypt_complete hD h hresult hnone hnext hblock.symm hsizes).1]
          exact ⟨by simp, by simp⟩
        · have hpart : ∀ record rest, expects r.ctx = record :: rest →
              ¬ record.cipher <+: r.socket.buffered :=
            fun record rest hnext hpre => hwhole ⟨record, rest, hnext, hpre⟩
          obtain ⟨ctx', _, hdec⟩ := @decrypt_incomplete _ _ _ r l hD h.valid hsizes hpart
          -- `incoming` is not full, or it would hold the record
          have hroom : r.socket.received ≠ TLS_MAX_PACKET_SIZE :=
            mt (record_of_full h hnone harrives) hwhole
          rw [hdec]
          exact hmore _ hroom
      · next hzero =>
        apply hmore r
        rw [not_not.mp hzero]
        decide

/-- What is preserved in a run that respects the stream: the invariant, the order of arrival
and the stream sizes. -/
structure Reader.Fed (expects : Ctx → List Record) (records : List Record)
    (sizes : StreamSizes) (r : Reader Ctx) : Prop where
  inv : r.Inv expects records
  arrived_front : r.arrived <+: cipherOf records
  sizes_eq : r.socket.sizes = sizes

theorem fed_run {sizes : StreamSizes} {ctx : Ctx} {incoming : List UInt8}
    {events : List ReadEvent} {r : Reader Ctx} (hD : DecryptContract sch expects)
    (hctx : expects ctx = records) (hlen : incoming.length = TLS_MAX_PACKET_SIZE)
    (hK : EachStep (Reader.step sch) (Reader.Delivers (cipherOf records))
      (Reader.start sizes ctx incoming) events)
    (h : run (Reader.step sch) (Reader.start sizes ctx incoming) events = some r) :
    r.Fed expects records sizes := by
  refine run_invariant_of (Reader.Fed expects records sizes) ?_ hK h
    ⟨inv_start hlen hctx, List.nil_prefix, rfl⟩
  intro r e r' hr hK hstep
  obtain ⟨harrived, hsizes⟩ := arrived_step hK hstep hr.arrived_front
  exact ⟨inv_step hD hr.inv hK hstep, harrived, hsizes.trans hr.sizes_eq⟩

/-- No assertion fails, and a call returns a negative value only when `recv` does. -/
theorem fails_only_on_recv {sizes : StreamSizes} {ctx : Ctx} {incoming : List UInt8}
    {events : List ReadEvent} {e : ReadEvent} {r r' : Reader Ctx}
    (hD : DecryptContract sch expects) (hctx : expects ctx = records)
    (hlen : incoming.length = TLS_MAX_PACKET_SIZE) (hsizes : sizes.cBuffers = 4)
    (hK : EachStep (Reader.step sch) (Reader.Delivers (cipherOf records))
      (Reader.start sizes ctx incoming) events)
    (h : run (Reader.step sch) (Reader.start sizes ctx incoming) events = some r)
    (hstep : r.step sch e = some r') :
    r'.control ≠ .asserted ∧ (r'.control = .failed → e = .recv .error) := by
  obtain ⟨hinv, harrived, hsizes'⟩ := fed_run hD hctx hlen hK h
  cases stepped_of_step hstep with
  | call hidle hpos => exact ⟨by simp, by simp⟩
  | iterate hcontrol =>
    rw [Reader.Inv, hcontrol] at hinv
    obtain ⟨hassert, hfail⟩ := iterate_control hD hinv.1 hinv.2 (hsizes' ▸ hsizes) harrived
    exact ⟨hassert, fun hf => absurd hf hfail⟩
  | @recv l outcome hcontrol =>
    cases outcome with
    | closed => exact ⟨by simp [Reader.receive], by simp [Reader.receive]⟩
    | error => exact ⟨by simp [Reader.receive], fun _ => rfl⟩
    | data bytes => exact ⟨by simp [Reader.receive], by simp [Reader.receive]⟩

/-- The work that the loop can do without receiving: bytes to decrypt, an open record to hand
out, bytes still wanted. -/
def Reader.work (r : Reader Ctx) (l : Locals) : ℕ :=
  2 * r.socket.undecrypted.length + (if r.socket.decrypted = none then 0 else 1) + l.size

theorem decrypted_decrypt_le {s : TlsSocket} :
    (if s.decrypted = none then 0 else 1) ≤ 1 := by
  split <;> omega

/-- An iteration that stays in the loop has done some of its work, so a call that does not
wait in `recv` returns. -/
theorem work_iterate_lt {r : Reader Ctx} {l l' : Locals} (hD : DecryptContract sch expects)
    (h : r.InOrder expects records l.out) (hresult : l.result = l.out.length)
    (hsizes : r.socket.sizes.cBuffers = 4) (hloop : (r.iterate sch l).control = .looping l') :
    (r.iterate sch l).work l' < r.work l := by
  have hmore : ∀ r : Reader Ctx, (r.needMore l).control ≠ .looping l' := by
    intro r
    unfold Reader.needMore
    split
    · simp [Reader.finish]
    · split <;> simp
  unfold Reader.iterate at hloop ⊢
  split at hloop
  · simp [Reader.finish] at hloop
  · next hsize =>
    rw [if_neg hsize]
    split at hloop
    · next decrypted hsome =>
      -- either the open record is used up or bytes were handed out
      simp only [Reader.copy, Control.looping.injEq] at hloop
      rw [← hloop]
      simp only [Reader.copy, Reader.work, hsome]
      split
      · rw [undecrypted_dropRecord h.valid]
        simp [TlsSocket.dropRecord]
        omega
      · simp [TlsSocket.undecrypted]
        omega
    · next hnone =>
      split at hloop
      · next hreceived =>
        rw [if_pos hreceived]
        by_cases hwhole : ∃ record rest, expects r.ctx = record :: rest ∧
            record.cipher <+: r.socket.buffered
        · obtain ⟨record, rest, hnext, extra, hblock⟩ := hwhole
          obtain ⟨hcontrol, hund, _⟩ :=
            decrypt_complete hD h hresult hnone hnext hblock.symm hsizes
          rw [hcontrol, Control.looping.injEq] at hloop
          -- the record leaves the ciphertext, and opens
          have hpos := List.length_pos_iff.mpr record.cipher_ne_nil
          have hlen : r.socket.undecrypted.length = record.cipher.length + extra.length := by
            rw [undecrypted_eq_buffered h.valid hnone, ← hblock, List.length_append]
          have hflag := @decrypted_decrypt_le (r.decrypt sch l).socket
          rw [Reader.work, Reader.work, hund, hlen, ← hloop]
          omega
        · have hpart : ∀ record rest, expects r.ctx = record :: rest →
              ¬ record.cipher <+: r.socket.buffered :=
            fun record rest hnext hpre => hwhole ⟨record, rest, hnext, hpre⟩
          obtain ⟨ctx', _, hdec⟩ := @decrypt_incomplete _ _ _ r l hD h.valid hsizes hpart
          rw [hdec] at hloop
          exact absurd hloop (hmore _)
      · exact absurd hloop (hmore r)

/-! ## The stream -/

/-- What a reader is between two calls, when none has failed. -/
structure Reader.Boundary (records : List Record) (r : Reader Ctx) : Prop where
  returned_front : r.returned <+: plainOf records
  used_le : r.socket.used ≤ r.socket.received
  received_le : r.socket.received ≤ TLS_MAX_PACKET_SIZE
  window_le : ∀ decrypted, r.socket.decrypted = some decrypted →
    decrypted + r.socket.available ≤ r.socket.used
  streams : ∃ done, done <+: records ∧
    r.arrived = cipherOf done ++ r.socket.undecrypted ∧
    r.returned ++ r.socket.plainLeft = plainOf done

/-- **The plaintext stream.** However the ciphertext is cut into `recv` chunks and whatever
sizes the calls ask for, between two calls the bytes returned are a prefix of the plaintext
of the records, and the socket accounts for the rest. -/
theorem tlsRead_stream {sizes : StreamSizes} {ctx : Ctx} {incoming : List UInt8}
    {events : List ReadEvent} {r : Reader Ctx} (hD : DecryptContract sch expects)
    (hctx : expects ctx = records) (hlen : incoming.length = TLS_MAX_PACKET_SIZE)
    (hK : EachStep (Reader.step sch) (Reader.Delivers (cipherOf records))
      (Reader.start sizes ctx incoming) events)
    (h : run (Reader.step sch) (Reader.start sizes ctx incoming) events = some r)
    (hidle : r.control = .idle) : r.Boundary records := by
  have hinv := (fed_run hD hctx hlen hK h).inv
  rw [Reader.Inv, hidle] at hinv
  obtain ⟨hvalid, done, hdone, harrived, hplain⟩ := hinv
  rw [List.append_nil] at hplain
  refine ⟨?_, hvalid.used_le, hvalid.received_le, hvalid.window_le,
    done, ⟨expects r.ctx, hdone.symm⟩, harrived, hplain⟩
  -- what was not returned yet is the open record and the records to come
  refine ⟨r.socket.plainLeft ++ plainOf (expects r.ctx), ?_⟩
  rw [← List.append_assoc, hplain, hdone, plainOf, plainOf, plainOf, List.flatMap_append]

/-- A context that knows the records it will decrypt: a block that starts with the next one
has it replaced by its image. -/
def playback : Schannel (List Record) where
  decryptMessage
    | [], block => (⟨.SEC_E_INCOMPLETE_MESSAGE, block, .replicate 4 .empty⟩, [])
    | record :: rest, block =>
      if record.cipher.isPrefixOf block then
        let extra := block.drop record.cipher.length
        (⟨.SEC_E_OK, record.image ++ extra,
          #v[⟨.SECBUFFER_STREAM_HEADER, record.offset, 0⟩,
            ⟨.SECBUFFER_DATA, record.plain.length, record.offset⟩,
            ⟨.SECBUFFER_STREAM_TRAILER, 0, record.offset + record.plain.length⟩,
            if extra = [] then .empty
            else ⟨.SECBUFFER_EXTRA, extra.length, record.cipher.length⟩]⟩, rest)
      else (⟨.SEC_E_INCOMPLETE_MESSAGE, block, .replicate 4 .empty⟩, record :: rest)
  initializeSecurityContext ctx _ := (⟨.error 0, 0, .empty, []⟩, ctx)

theorem playback_contract : DecryptContract playback id where
  complete := by
    rintro _ record rest extra reply ctx' rfl hcall
    have hpre : record.cipher.isPrefixOf (record.cipher ++ extra) = true := by
      rw [List.isPrefixOf_iff_prefix]
      exact List.prefix_append _ _
    simp only [playback, hpre, if_true, List.drop_left, Prod.mk.injEq] at hcall
    obtain ⟨rfl, rfl⟩ := hcall
    refine ⟨rfl, rfl, rfl, rfl, rfl, fun hne => ?_, fun htype => ?_, rfl⟩
    · show (if extra = [] then SecBuffer.empty else _).bufferType = _
      rw [if_neg hne]
    · by_cases hnil : extra = []
      · change (if extra = [] then SecBuffer.empty else _).bufferType = _ at htype
        rw [if_pos hnil] at htype
        exact absurd htype (by decide)
      · show (if extra = [] then SecBuffer.empty else _).cbBuffer = _
        rw [if_neg hnil]
  incomplete := by
    rintro (_ | ⟨record, rest⟩) block reply ctx' hpart hcall
    · obtain ⟨rfl, rfl⟩ := Prod.mk.inj hcall
      exact ⟨rfl, rfl, rfl⟩
    · have hpre : ¬ record.cipher.isPrefixOf block = true := by
        rw [List.isPrefixOf_iff_prefix]
        exact hpart record rest rfl
      simp only [playback, hpre] at hcall
      obtain ⟨rfl, rfl⟩ := Prod.mk.inj hcall
      exact ⟨rfl, rfl, rfl⟩

/-- A record of five bytes with two bytes of plaintext behind a header of two. -/
def greeting : Record where
  cipher := [23, 3, 90, 91, 92]
  image := [23, 3, 104, 105, 92]
  offset := 2
  plain := [104, 105]
  cipher_ne_nil := by decide
  length_cipher := by decide
  length_image := rfl
  plain_le := by decide
  window_image := rfl

/-- A call for one byte, to which the record arrives in two parts. -/
def splitGreeting : List ReadEvent :=
  [.call 1, .iterate, .recv (.data [23, 3]), .iterate, .recv (.data [90, 91, 92]), .iterate,
    .iterate, .iterate]

theorem tlsRead_stream_splitGreeting :
    ∃ r, run (Reader.step playback) (Reader.start ⟨2, 1, 2, 4⟩ [greeting] zeroed) splitGreeting
        = some r ∧
      r.returned = [104] ∧ r.socket.plainLeft = [105] ∧ r.Boundary [greeting] := by
  have hK : EachStep (Reader.step playback) (Reader.Delivers (cipherOf [greeting]))
      (Reader.start ⟨2, 1, 2, 4⟩ [greeting] zeroed) splitGreeting := by
    refine ⟨trivial, trivial, ⟨by decide, ?_⟩, trivial, ⟨by decide, ?_⟩, trivial, trivial,
      trivial, trivial⟩
    · rintro _ ⟨⟩
      decide
    · rintro _ ⟨⟩
      decide
  exact ⟨_, rfl, rfl, rfl, tlsRead_stream playback_contract rfl List.length_replicate hK rfl rfl⟩

end Win32Experiments.SecureSocket
