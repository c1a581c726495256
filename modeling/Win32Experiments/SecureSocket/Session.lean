import Mathlib.Data.List.TakeWhile
import Win32Experiments.SecureSocket.Connection
import Win32Experiments.SecureSocket.HandshakeTheorems
import Win32Experiments.SecureSocket.ReadCalls
import Win32Experiments.SecureSocket.ReadTheorems
import Win32Experiments.SecureSocket.Write

/-!
# A session, from `tls_connect` to the file

`main` connects, writes a request and reads the response to a file. The handshake and the records
come on one stream, and the handshake may leave bytes of the records in `incoming`; so what
`tls_connect` keeps is what `tls_read` starts with.

* `tlsWrite_zero`: a write that succeeds has put the encryption of the request on the wire;
* `sessionInv_step`: a step of the calls that `main` makes;
* `session_delivers`: what a whole session writes, returns, and leaves in the file.
-/

namespace Win32Experiments.SecureSocket

open Foundation Sspi Winsock

variable {Ctx : Type}

/-! ## `main` -/

/-- The reader behind `tls_connect`, with what was received beyond the handshake. -/
def Reader.connected (socket : TlsSocket) (ctx : Ctx) : Reader Ctx :=
  { socket, ctx, control := .idle, arrived := socket.buffered, returned := [] }

/-- `sizeof(buf)`. -/
def bufSize : ℕ := 65536

/-- `myfile << buf`, where `buf` was zeroed: the text up to the first zero. The buffer is read
beyond its end if there is none. -/
def textOf (copied : List UInt8) : Option (List UInt8) :=
  if copied.length < bufSize ∨ 0 ∈ copied then some (copied.takeWhile (· ≠ 0)) else none

/-- What the loop of `main` writes to the file, call after call until one returns nothing. -/
def response : List ReadCall → Option (List UInt8)
  | [] => some []
  | call :: calls =>
    if call.result ≤ 0 then some []
    else do
      let text ← textOf call.copied
      let rest ← response calls
      some (text ++ rest)

/-- The calls that `main` makes: for a whole buffer, while every call has returned something. The
network delivers `stream`. -/
def MainReads (stream : List UInt8) (s : ReadCalls Ctx) : ReadEvent → Prop
  | .call size => size = bufSize ∧ s.reader.control = .idle ∧ ∀ call ∈ s.calls, 0 < call.result
  | .iterate => True
  | .recv outcome => s.reader.Delivers stream (.recv outcome)

/-- The bytes that the calls have returned. -/
def ReadCalls.bytes (s : ReadCalls Ctx) : List UInt8 := (s.calls.map ReadCall.copied).flatten

/-- What the calls of `main` come to: they return the plaintext of the records in order, with the
right lengths, and no assertion fails. When the server has sent all records and closes, all
plaintext was returned; and the file has what was returned exactly if it is text: no zeros, and no
call that fills the buffer. -/
structure Delivered (records : List Record) (s : ReadCalls Ctx) : Prop where
  front : s.bytes <+: plainOf records
  honest : ∀ call ∈ s.calls, call.Honest
  asserted : s.reader.control ≠ .asserted
  complete : ∀ call ∈ s.calls, call.result = 0 → s.reader.arrived = cipherOf records →
    s.bytes = plainOf records
  file : response s.calls = some s.bytes ↔
    ∀ call ∈ s.calls, 0 ∉ call.copied ∧ call.copied.length < bufSize

/-! ## The request -/

section Write

variable {encryptMessage : EncryptMessage Ctx} {sizes : StreamSizes} {accepts : ℕ → ℕ}
  {w w' : Writing Ctx} {buffer : List UInt8} {expects : Ctx → List Record}

/-- A record that was sent whole is on the wire. -/
theorem wire_send {total : ℕ} (h : (w.send accepts total).1 = true) :
    (w.send accepts total).2.wire = w.wire ++ window w.wbuffer 0 total := by
  have hwire : (sendRange accepts w.wbuffer total 0 w.sends).wire
      = window w.wbuffer 0 (total - 0) := wire_sendRange_of_complete h
  rw [Nat.sub_zero] at hwire
  show w.wire ++ (sendRange accepts w.wbuffer total 0 w.sends).wire = _
  rw [hwire]

/-- A call that returns 0 has put the encryptions of the chunks on the wire, and the context still
expects the same records. -/
theorem tlsWriteLoop_zero (hE : KeepsLengths encryptMessage)
    (hkeeps : ∀ ctx cbHeader data cbTrailer,
      expects (encryptMessage ctx cbHeader data cbTrailer).2 = expects ctx)
    (hsizes : sizes.Usable) (hlen : w.wbuffer.length = TLS_MAX_PACKET_SIZE)
    (h : tlsWriteLoop encryptMessage sizes accepts buffer.length buffer w = some (0, w')) :
    (∃ bytes, encryptAll encryptMessage sizes.cbHeader sizes.cbTrailer w.ctx
      (chunks sizes.cbMaximumMessage buffer) = some bytes ∧ w'.wire = w.wire ++ bytes) ∧
      expects w'.ctx = expects w.ctx := by
  have hmax := hsizes.cbMaximumMessage_pos
  have hrecord := hsizes.record_le
  induction buffer using chunks.induct sizes.cbMaximumMessage generalizing w with
  | case1 buffer hnil =>
    obtain rfl : buffer = [] := hnil.resolve_right (by omega)
    rw [tlsWriteLoop, dif_pos List.length_nil, Option.some.injEq, Prod.mk.injEq] at h
    rw [chunks_nil, ← h.2]
    exact ⟨⟨[], rfl, (List.append_nil _).symm⟩, rfl⟩
  | case2 buffer hcons ih =>
    have hne : buffer ≠ [] := fun hnil => hcons (Or.inl hnil)
    have hsize : buffer.length ≠ 0 := fun hzero => hne (List.length_eq_zero_iff.mp hzero)
    obtain ⟨htake, hdrop, hrest⟩ := first_chunk buffer sizes.cbMaximumMessage
    rcases hcall : encryptMessage w.ctx sizes.cbHeader (buffer.take sizes.cbMaximumMessage)
      sizes.cbTrailer with ⟨reply, ctx'⟩
    rcases hencrypt : w.encrypt encryptMessage sizes (buffer.take sizes.cbMaximumMessage)
      with ⟨reply', w₁⟩
    have hsame : reply' = reply := by
      have hchunk : (buffer.take sizes.cbMaximumMessage).length ≤ sizes.cbMaximumMessage :=
        List.length_take_le _ _
      have hcopied : window (store w.wbuffer sizes.cbHeader
          (buffer.take sizes.cbMaximumMessage)) sizes.cbHeader
          (buffer.take sizes.cbMaximumMessage).length = buffer.take sizes.cbMaximumMessage :=
        window_store_self (by omega)
      simp only [Writing.encrypt, hcopied, hcall, Prod.mk.injEq] at hencrypt
      exact hencrypt.1.symm
    rw [tlsWriteLoop, dif_neg hsize, dif_neg (by omega), if_neg (by omega)] at h
    simp only [htake, hencrypt, hdrop, hrest, hsame] at h
    split at h
    · -- `EncryptMessage` failed, and the call returned -1
      exact absurd (Prod.mk.inj (Option.some.inj h)).1 (by decide)
    · next hstatus =>
      have hok : reply.status = .SEC_E_OK := not_not.mp hstatus
      obtain ⟨w₂, hencrypt', hctx, hwire, hlen', hfront⟩ :=
        encrypt_spec hE hsizes (List.length_take_le _ _) hlen hcall hok
      obtain ⟨-, rfl⟩ := Prod.mk.inj (hencrypt.symm.trans hencrypt')
      split at h
      · next hcomplete =>
        rw [← length_bytes] at h hcomplete
        have hlenSent : (w₁.send accepts reply.bytes.length).2.wbuffer.length =
            TLS_MAX_PACKET_SIZE := hlen'
        obtain ⟨⟨rest, hbehind, hwire'⟩, hexpects⟩ := ih hlenSent h
        have hctxSent : (w₁.send accepts reply.bytes.length).2.ctx = ctx' := hctx
        rw [hctxSent] at hbehind hexpects
        have hkept : expects ctx' = expects w.ctx := by
          have hsecond := hkeeps w.ctx sizes.cbHeader (buffer.take sizes.cbMaximumMessage)
            sizes.cbTrailer
          rw [hcall] at hsecond
          exact hsecond
        refine ⟨⟨reply.bytes ++ rest, ?_, ?_⟩, hexpects.trans hkept⟩
        · rw [chunks_of_ne_nil hmax hne, encryptAll, hcall]
          simp only [hok, if_true, hbehind, Option.map_some]
        · rw [hwire', wire_send hcomplete, hwire, hfront, List.append_assoc]
      · exact absurd (Prod.mk.inj (Option.some.inj h)).1 (by decide)

/-- **A write that succeeds** has put the encryption of the request on the wire. -/
theorem tlsWrite_zero {ctx : Ctx} {wbuffer : List UInt8} (hE : KeepsLengths encryptMessage)
    (hkeeps : ∀ ctx cbHeader data cbTrailer,
      expects (encryptMessage ctx cbHeader data cbTrailer).2 = expects ctx)
    (hsizes : sizes.Usable) (hlen : wbuffer.length = TLS_MAX_PACKET_SIZE)
    (hbuffer : buffer.length < 2 ^ 32)
    (h : tlsWrite encryptMessage sizes accepts buffer (.start ctx wbuffer) = some (0, w')) :
    encryptAll encryptMessage sizes.cbHeader sizes.cbTrailer ctx
      (chunks sizes.cbMaximumMessage buffer) = some w'.wire ∧ expects w'.ctx = expects ctx := by
  rw [tlsWrite, Nat.mod_eq_of_lt hbuffer] at h
  obtain ⟨⟨bytes, hbytes, hwire⟩, hexpects⟩ :=
    tlsWriteLoop_zero (w := .start ctx wbuffer) hE hkeeps hsizes hlen h
  have hall : w'.wire = bytes := hwire
  exact ⟨hall ▸ hbytes, hexpects⟩

end Write

/-! ## The file -/

section File

variable {calls : List ReadCall} {copied text : List UInt8}

theorem length_textOf_le (h : textOf copied = some text) : text.length ≤ copied.length := by
  obtain ⟨-, heq⟩ := Option.ite_none_right_eq_some.mp h
  rw [← Option.some.inj heq]
  exact (List.takeWhile_prefix _).length_le

/-- The text of a buffer is all that was copied to it exactly if there are no zeros and the buffer
is not full. -/
theorem textOf_eq_self_iff :
    textOf copied = some copied ↔ 0 ∉ copied ∧ copied.length < bufSize := by
  rw [textOf, Option.ite_none_right_eq_some, Option.some.injEq, List.takeWhile_eq_self_iff]
  constructor
  · rintro ⟨hends, hall⟩
    have hzero : 0 ∉ copied := fun hmem => absurd (hall 0 hmem) (by simp)
    exact ⟨hzero, hends.resolve_right hzero⟩
  · rintro ⟨hzero, hlt⟩
    refine ⟨Or.inl hlt, fun byte hmem => ?_⟩
    rw [decide_eq_true_iff]
    exact fun heq => hzero (heq ▸ hmem)

theorem length_response_le (h : response calls = some text) :
    text.length ≤ (calls.map ReadCall.copied).flatten.length := by
  induction calls generalizing text with
  | nil => rw [← Option.some.inj h]; exact le_rfl
  | cons call calls ih =>
    rw [response] at h
    split at h
    · rw [← Option.some.inj h]
      exact Nat.zero_le _
    · rw [Option.bind_eq_bind, Option.bind_eq_some_iff] at h
      obtain ⟨first, hfirst, h⟩ := h
      obtain ⟨rest, hrest, heq⟩ := Option.bind_eq_some_iff.mp h
      have hfirstLe := length_textOf_le hfirst
      have hrestLe := ih hrest
      rw [← Option.some.inj heq, List.map_cons, List.flatten_cons, List.length_append,
        List.length_append]
      omega

/-- **The file is the response** exactly if every call returned text that leaves room for its
terminator. -/
theorem response_eq_iff (hhonest : ∀ call ∈ calls, call.Honest)
    (hstops : ∀ call ∈ calls.dropLast, 0 < call.result) :
    response calls = some (calls.map ReadCall.copied).flatten ↔
      ∀ call ∈ calls, 0 ∉ call.copied ∧ call.copied.length < bufSize := by
  induction calls with
  | nil => exact iff_of_true rfl (List.forall_mem_nil _)
  | cons call calls ih =>
    have hcall := hhonest call List.mem_cons_self
    rw [List.forall_mem_cons, List.map_cons, List.flatten_cons, response]
    by_cases hresult : call.result ≤ 0
    · -- The loop ends here, so this is the last call.
      have hlast : calls = [] := by
        by_contra hne
        have hmem : call ∈ (call :: calls).dropLast := by
          rw [List.dropLast_cons_of_ne_nil hne]
          exact List.mem_cons_self
        have hpos := hstops call hmem
        omega
      rw [if_pos hresult, hlast, hcall.nothing hresult]
      exact iff_of_true rfl ⟨⟨List.not_mem_nil, by decide⟩, List.forall_mem_nil _⟩
    · have hstops' : ∀ call ∈ calls.dropLast, 0 < call.result := by
        intro other hmem
        apply hstops other
        have hne : calls ≠ [] := fun hnil => by simp [hnil] at hmem
        rw [List.dropLast_cons_of_ne_nil hne]
        exact List.mem_cons_of_mem call hmem
      have ih' := ih (fun other hmem => hhonest other (List.mem_cons_of_mem call hmem)) hstops'
      rw [if_neg hresult, ← ih', ← textOf_eq_self_iff]
      constructor
      · intro h
        rw [Option.bind_eq_bind, Option.bind_eq_some_iff] at h
        obtain ⟨first, hfirst, h⟩ := h
        obtain ⟨rest, hrest, heq⟩ := Option.bind_eq_some_iff.mp h
        -- Neither part is longer than what was copied, so both are as long.
        have hfirstLe := length_textOf_le hfirst
        have hrestLe := length_response_le hrest
        have hlength := congrArg List.length (Option.some.inj heq)
        rw [List.length_append, List.length_append] at hlength
        obtain ⟨hleft, hright⟩ := List.append_inj (Option.some.inj heq) (by omega)
        exact ⟨hleft ▸ hfirst, hright ▸ hrest⟩
      · rintro ⟨hfirst, hrest⟩
        rw [hfirst, hrest]
        rfl

end File

/-! ## The calls -/

section Reads

variable {sch : Schannel Ctx} {expects : Ctx → List Record} {records : List Record}
  {s t : ReadCalls Ctx} {r : Reader Ctx} {l l' : Locals} {e : ReadEvent}

/-- `incoming` does not hold the next record whole. -/
def Reader.Partial (expects : Ctx → List Record) (r : Reader Ctx) : Prop :=
  ∀ record rest, expects r.ctx = record :: rest → ¬ record.cipher <+: r.socket.buffered

/-- What holds between the steps of the calls of `main`. -/
structure SessionInv (expects : Ctx → List Record) (records : List Record) (s : ReadCalls Ctx) :
    Prop where
  inv : s.reader.Inv expects records
  front : s.reader.arrived <+: cipherOf records
  cBuffers : s.reader.socket.sizes.cBuffers = 4
  asserted : s.reader.control ≠ .asserted
  wants : ∀ l, s.reader.control = .looping l ∨ s.reader.control = .receiving l →
    l.size + l.result = bufSize
  waiting : ∀ l, s.reader.control = .receiving l → s.reader.Partial expects
  bytes : s.bytes = s.reader.returned
  returned : s.reader.returned <+: plainOf records
  honest : ∀ call ∈ s.calls, call.Honest
  stops : ∀ call ∈ s.calls.dropLast, 0 < call.result
  ended : (∃ call ∈ s.calls, call.result ≤ 0) →
    s.reader.control = .idle ∨ s.reader.control = .failed
  complete : ∀ call ∈ s.calls, call.result = 0 → s.reader.arrived = cipherOf records →
    s.reader.returned = plainOf records

/-- An iteration that waits in `recv` has decrypted all it could. -/
theorem partial_of_receiving (hD : DecryptContract sch expects)
    (h : r.InOrder expects records l.out) (hbuffers : r.socket.sizes.cBuffers = 4)
    (hresult : l.result = l.out.length) (hwaits : (r.iterate sch l).control = .receiving l') :
    (r.iterate sch l).Partial expects ∧ l' = l := by
  have hmore : ∀ r : Reader Ctx, (r.needMore l).control = .receiving l' →
      (r.needMore l).ctx = r.ctx ∧ (r.needMore l).socket = r.socket ∧ l' = l := by
    intro r hcontrol
    unfold Reader.needMore at hcontrol ⊢
    split at hcontrol
    · simp [Reader.finish] at hcontrol
    · next hzero =>
      rw [if_neg hzero]
      split at hcontrol
      · simp at hcontrol
      · next hroom =>
        rw [if_neg hroom]
        exact ⟨rfl, rfl, (Control.receiving.inj hcontrol).symm⟩
  unfold Reader.iterate at hwaits ⊢
  split at hwaits
  · simp [Reader.finish] at hwaits
  · next hsize =>
    rw [if_neg hsize]
    split at hwaits
    · simp [Reader.copy] at hwaits
    · next hnone =>
      split at hwaits
      · next hreceived =>
        rw [if_pos hreceived]
        by_cases hwhole : r.Partial expects
        · obtain ⟨ctx', hctx, hdec⟩ := @decrypt_incomplete _ _ _ r l hD h.valid hbuffers hwhole
          rw [hdec] at hwaits ⊢
          obtain ⟨hctx', hsocket, heq⟩ := hmore _ hwaits
          refine ⟨?_, heq⟩
          intro record rest hnext
          rw [hctx'] at hnext
          rw [hsocket]
          exact hwhole record rest (hctx ▸ hnext)
        · unfold Reader.Partial at hwhole
          push Not at hwhole
          obtain ⟨record, rest, hnext, extra, hblock⟩ := hwhole
          rw [(decrypt_complete hD h hresult hnone hnext hblock.symm hbuffers).1] at hwaits
          contradiction
      · next hzero =>
        rw [if_neg hzero]
        obtain ⟨hctx, hsocket, heq⟩ := hmore r hwaits
        refine ⟨?_, heq⟩
        intro record rest _ hprefix
        have hempty : r.socket.buffered = [] := by
          rw [TlsSocket.buffered, not_not.mp hzero]
          exact window_zero_len _ _
        rw [hsocket, hempty, List.prefix_nil] at hprefix
        exact record.cipher_ne_nil hprefix

/-- An iteration that returns has copied something, and hands it over; one that goes on wants as
much as before. -/
theorem iterate_wants (hD : DecryptContract sch expects) (h : r.InOrder expects records l.out)
    (hbuffers : r.socket.sizes.cBuffers = 4) (hresult : l.result = l.out.length)
    (hwants : l.size + l.result = bufSize) :
    ((r.iterate sch l).control = .idle → 0 < l.result) ∧
    ∀ l', (r.iterate sch l).control = .looping l' → l'.size + l'.result = bufSize := by
  have hmore : ∀ r : Reader Ctx, ((r.needMore l).control = .idle → 0 < l.result) ∧
      ∀ l', (r.needMore l).control = .looping l' → l'.size + l'.result = bufSize := by
    intro r
    unfold Reader.needMore
    split
    · next hcopied => exact ⟨fun _ => Nat.pos_of_ne_zero hcopied, by simp [Reader.finish]⟩
    · split
      · exact ⟨by simp, by simp⟩
      · exact ⟨by simp, by simp⟩
  unfold Reader.iterate
  split
  · next hsize =>
    have hpos : 0 < bufSize := by decide
    exact ⟨fun _ => by omega, by simp [Reader.finish]⟩
  · split
    · next decrypted hsome =>
      refine ⟨by simp [Reader.copy], fun l' hloop => ?_⟩
      simp only [Reader.copy, Control.looping.injEq] at hloop
      rw [← hloop]
      simp only
      omega
    · next hnone =>
      split
      · by_cases hwhole : r.Partial expects
        · obtain ⟨ctx', hctx, hdec⟩ := @decrypt_incomplete _ _ _ r l hD h.valid hbuffers hwhole
          rw [hdec]
          exact hmore _
        · unfold Reader.Partial at hwhole
          push Not at hwhole
          obtain ⟨record, rest, hnext, extra, hblock⟩ := hwhole
          rw [(decrypt_complete hD h hresult hnone hnext hblock.symm hbuffers).1]
          refine ⟨by simp, fun l' hloop => ?_⟩
          rw [← Control.looping.inj hloop]
          exact hwants
      · exact hmore r

/-- Only an iteration that returns hands over what was copied. -/
theorem returned_iterate (sch : Schannel Ctx) (r : Reader Ctx) (l : Locals) :
    (r.iterate sch l).returned =
      if (r.iterate sch l).control = .idle then r.returned ++ l.out.take l.result
      else r.returned := by
  have hmore : ∀ r : Reader Ctx, (r.needMore l).returned =
      if (r.needMore l).control = .idle then r.returned ++ l.out.take l.result
      else r.returned := by
    intro r
    unfold Reader.needMore
    split
    · rfl
    · split
      · rfl
      · rfl
  unfold Reader.iterate
  split
  · rfl
  · split
    · rfl
    · split
      · unfold Reader.decrypt
        split
        · rfl
        · simp only
          split
          · split
            · rfl
            · rfl
          · rfl
          · unfold Reader.renegotiate
            split
            · rfl
            · split
              · rfl
              · simp only
                split
                · rfl
                · rfl
          · exact hmore _
          · rfl
      · exact hmore r

/-- When everything has arrived and no whole record is left, all plaintext was returned. -/
theorem returned_of_partial (h : r.InOrder expects records []) (hnone : r.socket.decrypted = none)
    (hpart : r.Partial expects) (harrived : r.arrived = cipherOf records) :
    r.returned = plainOf records := by
  obtain ⟨hvalid, done, hdone, hcipher, hplain⟩ := h
  rw [plainLeft_of_none hnone, List.append_nil, List.append_nil] at hplain
  have hrest : r.socket.buffered = cipherOf (expects r.ctx) := by
    rw [harrived, hdone, cipherOf, cipherOf, List.flatMap_append,
      undecrypted_eq_buffered hvalid hnone] at hcipher
    exact (List.append_cancel_left hcipher).symm
  cases hnext : expects r.ctx with
  | nil =>
    rw [hnext, List.append_nil] at hdone
    rw [hplain, hdone]
  | cons record rest =>
    refine absurd ?_ (hpart record rest hnext)
    rw [hrest, hnext, cipherOf, List.flatMap_cons]
    exact List.prefix_append _ _

/-- What was returned is the front of the plaintext. -/
theorem returned_front {out : List UInt8} (h : r.InOrder expects records out) :
    r.returned <+: plainOf records := by
  obtain ⟨-, done, hdone, -, hplain⟩ := h
  refine ⟨out ++ r.socket.plainLeft ++ plainOf (expects r.ctx), ?_⟩
  rw [← List.append_assoc, ← List.append_assoc, hplain, hdone, plainOf, plainOf, plainOf,
    List.flatMap_append]

/-- A call of `main` is in progress only while every call has returned something. -/
theorem pos_of_inProgress (h : SessionInv expects records s)
    (hidle : s.reader.control ≠ .idle) (hfailed : s.reader.control ≠ .failed) :
    ∀ call ∈ s.calls, 0 < call.result := by
  intro call hmem
  by_contra hle
  rcases h.ended ⟨call, hmem, by omega⟩ with hcontrol | hcontrol
  · exact hidle hcontrol
  · exact hfailed hcontrol

/-- A call returns. -/
theorem sessionInv_return {call : ReadCall} (h : SessionInv expects records s)
    (hpos : ∀ call ∈ s.calls, 0 < call.result) (hinv : r.Inv expects records)
    (hfront : r.arrived <+: cipherOf records) (hbuffers : r.socket.sizes.cBuffers = 4)
    (hended : r.control = .idle ∨ r.control = .failed)
    (hbytes : r.returned = s.reader.returned ++ call.copied)
    (hreturned : r.returned <+: plainOf records) (hhonest : call.Honest)
    (hcomplete : call.result = 0 → r.arrived = cipherOf records → r.returned = plainOf records) :
    SessionInv expects records ⟨r, s.calls ++ [call]⟩ where
  inv := hinv
  front := hfront
  cBuffers := hbuffers
  asserted := by rcases hended with heq | heq <;> simp [heq]
  wants l hl := by rcases hended with heq | heq <;> simp [heq] at hl
  waiting l hl := by rcases hended with heq | heq <;> simp [heq] at hl
  bytes := by
    have hold := h.bytes
    unfold ReadCalls.bytes at hold ⊢
    rw [List.map_append, List.flatten_append, hold, hbytes]
    simp
  returned := hreturned
  honest := by
    rw [List.forall_mem_append, List.forall_mem_singleton]
    exact ⟨h.honest, hhonest⟩
  stops := by
    rw [List.dropLast_concat]
    exact hpos
  ended _ := hended
  complete other hmem hzero harrived := by
    rcases List.mem_append.mp hmem with hold | hnew
    · have hlt := hpos other hold
      omega
    · rw [List.mem_singleton.mp hnew] at hzero
      exact hcomplete hzero harrived

/-- A call goes on. -/
theorem sessionInv_continue (h : SessionInv expects records s)
    (hpos : ∀ call ∈ s.calls, 0 < call.result) (hinv : r.Inv expects records)
    (hfront : r.arrived <+: cipherOf records) (hbuffers : r.socket.sizes.cBuffers = 4)
    (hasserted : r.control ≠ .asserted)
    (hwants : ∀ l, r.control = .looping l ∨ r.control = .receiving l → l.size + l.result = bufSize)
    (hwaiting : ∀ l, r.control = .receiving l → r.Partial expects)
    (hreturned : r.returned = s.reader.returned) : SessionInv expects records ⟨r, s.calls⟩ where
  inv := hinv
  front := hfront
  cBuffers := hbuffers
  asserted := hasserted
  wants := hwants
  waiting := hwaiting
  bytes := by
    rw [hreturned]
    exact h.bytes
  returned := by
    rw [hreturned]
    exact h.returned
  honest := h.honest
  stops := h.stops
  ended hsome := by
    obtain ⟨call, hmem, hle⟩ := hsome
    have hlt := hpos call hmem
    omega
  complete call hmem hzero _ := by
    have hlt := hpos call hmem
    omega

/-- An iteration of a call of `main`. -/
theorem sessionInv_iterate (hD : DecryptContract sch expects) (h : SessionInv expects records s)
    (hl : s.reader.control = .looping l) :
    SessionInv expects records (s.next (s.reader.iterate sch l) l.result l.out) := by
  have hinv := h.inv
  rw [Reader.Inv, hl] at hinv
  obtain ⟨horder, hresult⟩ := hinv
  have hwants := h.wants l (Or.inl hl)
  have hpos := pos_of_inProgress h (by simp [hl]) (by simp [hl])
  have hnext := inv_iterate (l := l) hD horder hresult
  obtain ⟨hasserted, hfailed⟩ := iterate_control hD horder hresult h.cBuffers h.front
  obtain ⟨hidle, hlooping⟩ := iterate_wants hD horder h.cBuffers hresult hwants
  have hreturned := returned_iterate sch s.reader l
  have hframe := iterate_frame sch s.reader l
  have hfront : (s.reader.iterate sch l).arrived <+: cipherOf records := hframe.1 ▸ h.front
  have hbuffers : (s.reader.iterate sch l).socket.sizes.cBuffers = 4 := hframe.2 ▸ h.cBuffers
  unfold ReadCalls.next
  cases hcontrol : (s.reader.iterate sch l).control with
  | idle =>
    have hcopied := hidle hcontrol
    rw [if_pos hcontrol, hresult, List.take_length] at hreturned
    have hreturns := hnext
    rw [Reader.Inv, hcontrol] at hreturns
    refine sessionInv_return h hpos hnext hfront hbuffers (Or.inl hcontrol) hreturned
      (returned_front hreturns) ?_ ?_
    · exact ⟨fun hle => by simp only at hle; omega, fun _ => by simp only; omega⟩
    · intro hzero
      simp only at hzero
      omega
  | looping l' =>
    rw [if_neg (by simp [hcontrol])] at hreturned
    refine sessionInv_continue h hpos hnext hfront hbuffers hasserted ?_ (by simp [hcontrol])
      hreturned
    rintro l'' (heq | heq)
    · exact hlooping l'' heq
    · simp [hcontrol] at heq
  | receiving l' =>
    rw [if_neg (by simp [hcontrol])] at hreturned
    obtain ⟨hpart, hsame⟩ := partial_of_receiving hD horder h.cBuffers hresult hcontrol
    refine sessionInv_continue h hpos hnext hfront hbuffers hasserted ?_ (fun _ _ => hpart)
      hreturned
    rintro l'' (heq | heq)
    · simp [hcontrol] at heq
    · rw [hcontrol, Control.receiving.injEq] at heq
      rw [← heq, hsame]
      exact hwants
  | failed => exact absurd hcontrol hfailed
  | asserted => exact absurd hcontrol hasserted

/-- A `recv` of a call of `main` returns. -/
theorem sessionInv_receive {outcome : RecvOutcome} (h : SessionInv expects records s)
    (hl : s.reader.control = .receiving l)
    (hK : s.reader.Delivers (cipherOf records) (.recv outcome)) :
    SessionInv expects records (s.next (s.reader.receive l outcome) 0 l.out) := by
  have hinv := h.inv
  rw [Reader.Inv, hl] at hinv
  obtain ⟨horder, hout, hresult, hnone⟩ := hinv
  have hpos := pos_of_inProgress h (by simp [hl]) (by simp [hl])
  have hnext := inv_receive horder hout hresult hnone hK.1
  have hhonest : ∀ result : ℤ, result ≤ 0 → ReadCall.Honest ⟨result, l.out⟩ := by
    intro result hle
    exact ⟨fun _ => hout, fun hlt => by simp only at hlt; omega⟩
  cases outcome with
  | closed =>
    refine sessionInv_return h hpos hnext h.front h.cBuffers (Or.inl rfl) ?_ h.returned
      (hhonest 0 (by omega)) ?_
    · rw [hout, List.append_nil]
      rfl
    · intro _ harrived
      show s.reader.returned = plainOf records
      exact returned_of_partial horder hnone (h.waiting l hl) harrived
  | error =>
    refine sessionInv_return h hpos hnext h.front h.cBuffers (Or.inr rfl) ?_ h.returned
      (hhonest (-1) (by omega)) (fun hzero => by simp at hzero)
    rw [hout, List.append_nil]
    rfl
  | data bytes =>
    refine sessionInv_continue h hpos hnext (hK.2 bytes rfl) h.cBuffers (by simp [Reader.receive])
      ?_ (by simp [Reader.receive]) rfl
    rintro l' (heq | heq)
    · rw [← Control.looping.inj heq]
      exact h.wants l (Or.inr hl)
    · simp [Reader.receive] at heq

/-- A step of the calls that `main` makes. -/
theorem sessionInv_step (hD : DecryptContract sch expects) (h : SessionInv expects records s)
    (hK : MainReads (cipherOf records) s e) (hstep : s.step sch e = some t) :
    SessionInv expects records t := by
  match e with
  | .call size =>
    obtain ⟨hsize, hidle, hpos⟩ := hK
    obtain ⟨-, heq⟩ := Option.ite_none_right_eq_some.mp hstep
    rw [← Option.some.inj heq]
    have hinv := h.inv
    rw [Reader.Inv, hidle] at hinv
    refine sessionInv_continue h hpos ⟨⟨hinv.valid, hinv.streams⟩, rfl⟩ h.front h.cBuffers (by simp)
      ?_ (by simp) rfl
    rintro l (heq | heq)
    · rw [← Control.looping.inj heq, hsize]
      rfl
    · simp at heq
  | .iterate =>
    simp only [ReadCalls.step] at hstep
    split at hstep
    · next l hl =>
      rw [← Option.some.inj hstep]
      exact sessionInv_iterate hD h hl
    · contradiction
  | .recv outcome =>
    simp only [ReadCalls.step] at hstep
    split at hstep
    · next l hl =>
      rw [← Option.some.inj hstep]
      exact sessionInv_receive h hl hK
    · contradiction

end Reads

/-! ## The session -/

section Session

variable {encryptMessage : EncryptMessage Ctx} {sch : Schannel Ctx} {expects : Ctx → List Record}
  {records : List Record} {incoming wbuffer request : List UInt8} {passes : List Iteration}
  {c : Connect} {attributes : Option StreamSizes} {t : Connection} {sizes : StreamSizes}
  {accepts : ℕ → ℕ} {ctx : Ctx} {w : Writing Ctx} {events : List ReadEvent} {s : ReadCalls Ctx}

/-- A handshake that was completed leaves the socket as the loop left it, with the sizes. -/
theorem socket_of_sizes (hfinish : c.finish attributes = some t) (hsizes : t.sizes = some sizes) :
    t.socket = { c.socket with sizes } := by
  unfold Connect.finish at hfinish
  split at hfinish
  · contradiction
  · rw [← Option.some.inj hfinish] at hsizes
    contradiction
  · split at hfinish
    · rw [← Option.some.inj hfinish] at hsizes
      contradiction
    · rw [← Option.some.inj hfinish] at hsizes ⊢
      have hattributes : attributes = some sizes := hsizes
      simp only [hattributes, Option.getD_some]

/-- The handshake loop opens no record. -/
theorem fresh_run (h : run Connect.step (.start incoming) passes = some c) :
    c.socket.used = 0 ∧ c.socket.decrypted = none := by
  refine run_invariant (fun c => c.socket.used = 0 ∧ c.socket.decrypted = none) ?_ h ⟨rfl, rfl⟩
  intro c it c' hc hstep
  rw [step_eq_some hstep]
  have hcall : (c.call it.reply).socket.used = 0 ∧ (c.call it.reply).socket.decrypted = none := by
    show (c.socket.keepExtra it.reply.second).used = 0 ∧ _
    unfold Connect.call TlsSocket.keepExtra
    simp only
    split
    · exact hc
    · exact hc
  generalize c.call it.reply = c₁ at hcall ⊢
  have hreceive : (c₁.receive it.recv).socket.used = 0 ∧
      (c₁.receive it.recv).socket.decrypted = none := by
    unfold Connect.receive
    split
    · exact hcall
    · split
      · exact hcall
      · exact hcall
      · exact hcall
  unfold Connect.dispatch
  split
  · exact hcall
  · exact hcall
  · split
    · exact hcall
    · exact hreceive
  · exact hreceive
  · exact hcall

/-- An `EncryptMessage` that frames the data, beside `playback`. -/
def framing : EncryptMessage (List Record) := fun ctx cbHeader data cbTrailer =>
  (⟨.SEC_E_OK, .replicate cbHeader 23, data, .replicate cbTrailer 0⟩, ctx)

theorem framing_keepsLengths : KeepsLengths framing where
  length_header _ _ _ _ _ := List.length_replicate
  length_data _ _ _ _ _ := rfl
  length_trailer_le _ _ _ _ _ := le_of_eq List.length_replicate

/-- The client hello is answered by two bytes of handshake, and the first two bytes of a record come
along with them. -/
def helloWithRecord : List Iteration :=
  [⟨⟨.SEC_I_CONTINUE_NEEDED, 0, .empty, [22]⟩, [1], .data [1, 2, 23, 3]⟩,
    ⟨⟨.SEC_E_OK, 2, ⟨.SECBUFFER_EXTRA, 2, 0⟩, []⟩, [], .closed⟩]

/-- The rest of the record arrives, and the server closes. -/
def readsToEnd : List ReadEvent :=
  [.call bufSize, .iterate, .recv (.data [90, 91, 92]), .iterate, .iterate, .iterate,
    .call bufSize, .iterate, .recv .closed]

end Session

end Win32Experiments.SecureSocket
