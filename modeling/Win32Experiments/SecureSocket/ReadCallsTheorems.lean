import Win32Experiments.SecureSocket.HandshakeTheorems
import Win32Experiments.SecureSocket.ReadCalls

/-!
# When the results of `tls_read` can be relied on

* `iterate_failed_iff`: with data copied, only an error of `DecryptMessage` makes a call fail;
* `Reader.Counts`: the result of a call counts the bytes it has copied;
* `honest_iff`: the results of all calls can be relied on exactly if `DecryptMessage` never failed
  in a call that had copied data.
-/

namespace Win32Experiments.SecureSocket

open Foundation Sspi Winsock

/-! ## Where a call fails -/

variable {Ctx : Type} {sch : Schannel Ctx} {r : Reader Ctx} {l : Locals}

/-- With data copied, more ciphertext is not waited for. -/
theorem needMore_of_copied (hresult : l.result ≠ 0) : r.needMore l = r.finish l := by
  rw [Reader.needMore, if_pos hresult]

theorem renegotiate_control_ne_failed (buffers : Vector SecBuffer 4) :
    (r.renegotiate sch l buffers).control ≠ .failed := by
  unfold Reader.renegotiate
  split
  · simp
  · split
    · simp
    · dsimp only
      split
      · simp
      · simp

/-- With data copied, `DecryptMessage` makes the call fail by an error and nothing else. -/
theorem decrypt_failed_iff (hresult : l.result ≠ 0) (hsizes : r.socket.sizes.cBuffers = 4) :
    (r.decrypt sch l).control = .failed ↔
      ¬ Handled (sch.decryptMessage r.ctx r.socket.buffered).1.status := by
  rcases hcall : sch.decryptMessage r.ctx r.socket.buffered with ⟨⟨status, block, buffers⟩, ctx⟩
  simp only [Reader.decrypt, hsizes, hcall, ne_eq, not_true_eq_false, if_false]
  cases status with
  | SEC_E_OK =>
    refine iff_of_false ?_ (not_not.mpr (Or.inl rfl))
    dsimp only
    split
    · simp
    · simp
  | SEC_I_CONTEXT_EXPIRED =>
    refine iff_of_false ?_ (not_not.mpr (Or.inr (Or.inl rfl)))
    simp [Reader.finish]
  | SEC_I_RENEGOTIATE =>
    refine iff_of_false ?_ (not_not.mpr (Or.inr (Or.inr (Or.inl rfl))))
    exact renegotiate_control_ne_failed buffers
  | SEC_E_INCOMPLETE_MESSAGE =>
    refine iff_of_false ?_ (not_not.mpr (Or.inr (Or.inr (Or.inr rfl))))
    dsimp only
    rw [needMore_of_copied hresult]
    simp [Reader.finish]
  | _ => simp [Handled]

/-- With data copied, an iteration makes the call fail exactly by an error of `DecryptMessage`. -/
theorem iterate_failed_iff (hresult : l.result ≠ 0) :
    (r.iterate sch l).control = .failed ↔ r.Decrypts l ∧
      ¬ Handled (sch.decryptMessage r.ctx r.socket.buffered).1.status := by
  unfold Reader.iterate Reader.Decrypts
  by_cases hsize : l.size = 0
  · simp [hsize, Reader.finish]
  · rcases hdecrypted : r.socket.decrypted with _ | decrypted
    · by_cases hreceived : r.socket.received = 0
      · simp [hsize, hreceived, needMore_of_copied hresult, Reader.finish]
      · by_cases hsizes : r.socket.sizes.cBuffers = 4
        · simp [hsize, hreceived, hsizes, decrypt_failed_iff hresult hsizes]
        · simp [hsize, hreceived, hsizes, Reader.decrypt]
    · simp [hsize, Reader.copy]

/-! ## What is copied is counted -/

/-- The open record lies in `incoming`. -/
structure TlsSocket.Ranged (s : TlsSocket) : Prop where
  length_incoming : s.incoming.length = TLS_MAX_PACKET_SIZE
  received_le : s.received ≤ TLS_MAX_PACKET_SIZE
  open_le : ∀ decrypted, s.decrypted = some decrypted →
    decrypted + s.available ≤ TLS_MAX_PACKET_SIZE ∧ s.used ≤ s.received

/-- The invariant of a reader: its result counts the bytes copied, and it waits for more only
when nothing was copied. -/
structure Reader.Counts (r : Reader Ctx) : Prop where
  ranged : r.socket.Ranged
  looping : ∀ l, r.control = .looping l → l.result = l.out.length
  receiving : ∀ l, r.control = .receiving l → l.out = [] ∧ l.result = 0

/-- A socket with nothing decrypted. -/
theorem ranged_of_none {s : TlsSocket} (hlen : s.incoming.length = TLS_MAX_PACKET_SIZE)
    (hreceived : s.received ≤ TLS_MAX_PACKET_SIZE) (hnone : s.decrypted = none) : s.Ranged :=
  ⟨hlen, hreceived, fun decrypted hsome => by simp [hnone] at hsome⟩

/-- Outside its loop a reader has no count to keep. -/
theorem counts_ended {r : Reader Ctx} (h : r.socket.Ranged)
    (hcontrol : r.control = .idle ∨ r.control = .failed ∨ r.control = .asserted) : r.Counts := by
  refine ⟨h, ?_, ?_⟩
  · intro l hl
    simp [hl] at hcontrol
  · intro l hl
    simp [hl] at hcontrol

theorem counts_looping {r : Reader Ctx} (h : r.socket.Ranged) (hcontrol : r.control = .looping l)
    (hcount : l.result = l.out.length) : r.Counts := by
  refine ⟨h, ?_, by simp [hcontrol]⟩
  intro l' hl'
  rw [hcontrol, Control.looping.injEq] at hl'
  rwa [← hl']

theorem counts_needMore (h : r.socket.Ranged) (hcount : l.result = l.out.length) :
    (r.needMore l).Counts := by
  unfold Reader.needMore
  split
  · exact counts_ended h (Or.inl rfl)
  · next hzero =>
    split
    · exact counts_ended h (Or.inr (Or.inl rfl))
    · refine ⟨h, by simp, ?_⟩
      rintro l' ⟨rfl⟩
      exact ⟨List.length_eq_zero_iff.mp (by omega), by omega⟩

/-- Copying counts the bytes of the open record that it copies. -/
theorem counts_copy {decrypted : ℕ} (h : r.socket.Ranged) (hcount : l.result = l.out.length)
    (hsome : r.socket.decrypted = some decrypted) : (r.copy l decrypted).Counts := by
  obtain ⟨hlen, hreceived, hopen⟩ := h
  obtain ⟨hwindow, hused⟩ := hopen decrypted hsome
  have hcopied : (window r.socket.incoming decrypted (min l.size r.socket.available)).length
      = min l.size r.socket.available := length_window (by omega)
  refine counts_looping ?_ rfl ?_
  · simp only [Reader.copy]
    split
    · refine ranged_of_none ?_ ?_ rfl
      · show (moveFront r.socket.incoming r.socket.used _).length = _
        rw [length_moveFront (by omega), hlen]
      · show r.socket.received - r.socket.used ≤ _
        omega
    · refine ⟨hlen, hreceived, ?_⟩
      intro decrypted' hsome'
      simp only [Option.some.injEq] at hsome'
      show decrypted' + (r.socket.available - min l.size r.socket.available) ≤ _ ∧ _
      exact ⟨by omega, hused⟩
  · rw [List.length_append, hcopied, hcount]

/-- What is left behind a post-handshake message moves to the front. -/
theorem counts_renegotiate (buffers : Vector SecBuffer 4) (h : r.socket.Ranged)
    (hnone : r.socket.decrypted = none) (hcount : l.result = l.out.length) :
    (r.renegotiate sch l buffers).Counts := by
  unfold Reader.renegotiate
  split
  · exact counts_ended h (Or.inr (Or.inr rfl))
  · split
    · exact counts_ended h (Or.inr (Or.inr rfl))
    · dsimp only
      split
      · exact counts_ended h (Or.inr (Or.inr rfl))
      · obtain ⟨hlen, hreceived, -⟩ := h
        refine counts_looping (ranged_of_none ?_ ?_ hnone) rfl hcount
        · show (moveFront r.socket.incoming _ _).length = _
          rw [length_moveFront (by omega), hlen]
        · show r.socket.received - _ ≤ _
          omega

/-- Decrypting in place keeps the ranges inside `incoming`. -/
theorem counts_decrypt (hD : DecryptsInPlace sch) (h : r.socket.Ranged)
    (hnone : r.socket.decrypted = none) (hcount : l.result = l.out.length) :
    (r.decrypt sch l).Counts := by
  obtain ⟨hlen, hreceived, -⟩ := h
  have hbuffered : r.socket.buffered.length = r.socket.received := length_buffered (by omega)
  have hblock := hD.length_block r.ctx r.socket.buffered
  have hdata := hD.data_le r.ctx r.socket.buffered
  unfold Reader.decrypt
  split
  · exact counts_ended (ranged_of_none hlen hreceived hnone) (Or.inr (Or.inr rfl))
  · rcases hcall : sch.decryptMessage r.ctx r.socket.buffered with ⟨reply, ctx⟩
    rw [hcall] at hblock hdata
    dsimp only at hblock hdata
    have hstored : (store r.socket.incoming 0 reply.block).length = TLS_MAX_PACKET_SIZE := by
      rw [length_store (by omega), hlen]
    have hranged : ({ r.socket with incoming := store r.socket.incoming 0 reply.block }
        : TlsSocket).Ranged := ranged_of_none hstored hreceived hnone
    dsimp only
    split
    · next hstatus =>
      split
      · next htypes =>
        have hinside := hdata hstatus htypes.2.1
        refine counts_looping ⟨hstored, hreceived, ?_⟩ rfl hcount
        rintro _ ⟨rfl⟩
        refine ⟨?_, Nat.sub_le _ _⟩
        show reply.buffers[1].pvBuffer + reply.buffers[1].cbBuffer ≤ _
        omega
      · exact counts_ended hranged (Or.inr (Or.inr rfl))
    · exact counts_ended (ranged_of_none hstored (Nat.zero_le _) hnone) (Or.inl rfl)
    · exact counts_renegotiate reply.buffers hranged hnone hcount
    · exact counts_needMore hranged hcount
    · exact counts_ended hranged (Or.inr (Or.inl rfl))

theorem counts_iterate (hD : DecryptsInPlace sch) (h : r.Counts) (hl : r.control = .looping l) :
    (r.iterate sch l).Counts := by
  have hcount := h.looping l hl
  unfold Reader.iterate
  split
  · exact counts_ended h.ranged (Or.inl rfl)
  · split
    · next decrypted hsome => exact counts_copy h.ranged hcount hsome
    · next hnone =>
      split
      · exact counts_decrypt hD h.ranged hnone hcount
      · exact counts_needMore h.ranged hcount

theorem counts_receive {outcome : RecvOutcome} (h : r.Counts) (hl : r.control = .receiving l)
    (hfits : RecvFits r.socket.received outcome) : (r.receive l outcome).Counts := by
  obtain ⟨hout, hresult⟩ := h.receiving l hl
  obtain ⟨hlen, hreceived, hopen⟩ := h.ranged
  cases outcome with
  | closed => exact counts_ended h.ranged (Or.inl rfl)
  | error => exact counts_ended h.ranged (Or.inr (Or.inl rfl))
  | data bytes =>
    obtain ⟨-, hroom⟩ := hfits
    refine counts_looping ⟨?_, hroom, ?_⟩ rfl (by rw [hresult, hout, List.length_nil])
    · exact (length_incoming_append (by omega)).trans hlen
    · intro decrypted hsome
      obtain ⟨hle, hused⟩ := hopen decrypted hsome
      exact ⟨hle, Nat.le_add_right_of_le hused⟩

/-! ## Runs -/

variable {s t : ReadCalls Ctx} {e : ReadEvent}

/-- A call that has counted its bytes returns a result that can be relied on, if it does not
fail with some of them copied. -/
theorem honest_next {r : Reader Ctx} {result : ℕ} {copied : List UInt8}
    (hcount : result = copied.length) :
    (∀ call ∈ (s.next r result copied).calls, call.Honest) ↔
      (∀ call ∈ s.calls, call.Honest) ∧ ¬ (r.control = .failed ∧ result ≠ 0) := by
  have hreturned : ReadCall.Honest ⟨result, copied⟩ := by
    refine ⟨fun hle => List.length_eq_zero_iff.mp ?_, fun _ => congrArg Nat.cast hcount⟩
    have hzero : (result : ℤ) ≤ 0 := hle
    show copied.length = 0
    omega
  have hfailed : ReadCall.Honest ⟨-1, copied⟩ ↔ ¬ result ≠ 0 := by
    rw [not_not, hcount, List.length_eq_zero_iff]
    constructor
    · intro h
      exact h.nothing (show (-1 : ℤ) ≤ 0 by omega)
    · intro h
      refine ⟨fun _ => h, fun hpos => ?_⟩
      have hpos : (0 : ℤ) < -1 := hpos
      omega
  unfold ReadCalls.next
  split
  · next hcontrol =>
    rw [List.forall_mem_append, List.forall_mem_singleton, hcontrol]
    simp [hreturned]
  · next hcontrol =>
    rw [List.forall_mem_append, List.forall_mem_singleton, hcontrol, hfailed]
    simp
  · next hidle hcontrol =>
    refine (and_iff_left ?_).symm
    rintro ⟨hfail, -⟩
    exact hcontrol hfail

/-- Where the reader stands after a step. -/
theorem reader_next (s : ReadCalls Ctx) (r : Reader Ctx) (result : ℤ) (copied : List UInt8) :
    (s.next r result copied).reader = r := by
  unfold ReadCalls.next
  split <;> rfl

/-- A step keeps the count. -/
theorem counts_step (hD : DecryptsInPlace sch) (hs : s.reader.Counts) (hfits : s.Fits e)
    (hstep : s.step sch e = some t) : t.reader.Counts := by
  unfold ReadCalls.step at hstep
  split at hstep
  · split at hstep
    · obtain rfl := Option.some.inj hstep
      exact counts_looping hs.ranged rfl rfl
    · contradiction
  · split at hstep
    · next l hl =>
      obtain rfl := Option.some.inj hstep
      rw [reader_next]
      exact counts_iterate hD hs hl
    · contradiction
  · split at hstep
    · next l hl =>
      obtain rfl := Option.some.inj hstep
      rw [reader_next]
      exact counts_receive hs hl hfits
    · contradiction

/-- A step keeps the results honest exactly if it meets the condition. -/
theorem honest_step (hs : s.reader.Counts) (hstep : s.step sch e = some t) :
    (∀ call ∈ t.calls, call.Honest) ↔
      (∀ call ∈ s.calls, call.Honest) ∧ NoErrorBehindData sch s e := by
  unfold ReadCalls.step at hstep
  split at hstep
  · split at hstep
    · obtain rfl := Option.some.inj hstep
      exact (and_iff_left trivial).symm
    · contradiction
  · split at hstep
    · next l hl =>
      obtain rfl := Option.some.inj hstep
      rw [honest_next (hs.looping l hl)]
      apply and_congr_right
      intro _
      constructor
      · intro hfail l' hl' hresult hdecrypts
        rw [hl, Control.looping.injEq] at hl'
        subst hl'
        by_contra hstatus
        exact hfail ⟨(iterate_failed_iff hresult).mpr ⟨hdecrypts, hstatus⟩, hresult⟩
      · rintro hcond ⟨hfail, hresult⟩
        obtain ⟨hdecrypts, hstatus⟩ := (iterate_failed_iff hresult).mp hfail
        exact hstatus (hcond l hl hresult hdecrypts)
    · contradiction
  · split at hstep
    · next l hl =>
      obtain rfl := Option.some.inj hstep
      obtain ⟨hout, -⟩ := hs.receiving l hl
      have hcount : 0 = l.out.length := by rw [hout, List.length_nil]
      exact (honest_next hcount).trans (and_congr_right fun _ => by simp [NoErrorBehindData])
    · contradiction

/-- **No error over delivered data.** In every run of calls on a connected socket, the result of
each can be relied on exactly if `DecryptMessage` never failed in a call that had copied data. -/
theorem honest_iff {events : List ReadEvent} (hD : DecryptsInPlace sch) (hr : r.Connected)
    (hK : EachStep (ReadCalls.step sch) ReadCalls.Fits (ReadCalls.start r) events)
    (h : run (ReadCalls.step sch) (ReadCalls.start r) events = some t) :
    (∀ call ∈ t.calls, call.Honest) ↔
      EachStep (ReadCalls.step sch) (NoErrorBehindData sch) (ReadCalls.start r) events := by
  have hstart : (ReadCalls.start r).reader.Counts :=
    counts_ended (ranged_of_none hr.length_incoming hr.received_le hr.decrypted) (Or.inl hr.control)
  have hrun := run_iff (fun s => s.reader.Counts) (fun s => ∀ call ∈ s.calls, call.Honest)
    (fun _ _ _ hs hfits hstep => counts_step hD hs hfits hstep)
    (fun _ _ _ hs _ hstep => honest_step hs hstep) hK h hstart
  rw [hrun.2]
  exact and_iff_right (List.forall_mem_nil _)

/-- Records are two bytes, a header and a character; the second one does not decrypt. -/
def corruptSecond : Schannel Bool where
  decryptMessage opened block :=
    if block.length < 2 then (⟨.SEC_E_INCOMPLETE_MESSAGE, block, .replicate 4 .empty⟩, opened)
    else if opened then (⟨.error 0x8009030F, block, .replicate 4 .empty⟩, opened)
    else
      (⟨.SEC_E_OK, block, #v[⟨.SECBUFFER_STREAM_HEADER, 1, 0⟩, ⟨.SECBUFFER_DATA, 1, 1⟩,
        ⟨.SECBUFFER_STREAM_TRAILER, 0, 2⟩, ⟨.SECBUFFER_EXTRA, block.length - 2, 2⟩]⟩, true)
  initializeSecurityContext opened _ := (⟨.error 0, 0, .empty, []⟩, opened)

theorem corruptSecond_inPlace : DecryptsInPlace corruptSecond := by
  constructor
  · intro opened block
    simp only [corruptSecond]
    split
    · rfl
    · split <;> rfl
  · intro opened block hstatus _
    simp only [corruptSecond] at hstatus ⊢
    split at hstatus
    · contradiction
    · next hlen =>
      split at hstatus
      · contradiction
      · next hopened =>
        simp only [hlen, hopened, if_false, Bool.false_eq_true]
        show 1 + 1 ≤ block.length
        omega

theorem connected_start : (Reader.start ⟨1, 0, 1, 4⟩ false zeroed).Connected :=
  ⟨List.length_replicate, Nat.zero_le _, rfl, rfl⟩

/-- A call for two bytes finds one record, and returns its byte. -/
def oneRecord : List ReadEvent :=
  [.call 2, .iterate, .recv (.data [23, 104]), .iterate, .iterate, .iterate]

theorem honest_oneRecord :
    ∃ t, run (ReadCalls.step corruptSecond) (.start (.start ⟨1, 0, 1, 4⟩ false zeroed)) oneRecord
        = some t ∧ t.calls = [⟨1, [104]⟩] ∧
      EachStep (ReadCalls.step corruptSecond) (NoErrorBehindData corruptSecond)
        (.start (.start ⟨1, 0, 1, 4⟩ false zeroed)) oneRecord := by
  have hhonest : ∀ call ∈ [ReadCall.mk 1 [104]], call.Honest := by
    rw [List.forall_mem_singleton]
    exact ⟨by simp, by simp⟩
  exact ⟨_, rfl, rfl,
    (honest_iff corruptSecond_inPlace connected_start (by decide) rfl).mp hhonest⟩

/-- The same call when the second record is there as well: it returns `-1`, and the byte of the
first record is gone. -/
theorem corruptSecond_counterexample :
    ∃ t, run (ReadCalls.step corruptSecond) (.start (.start ⟨1, 0, 1, 4⟩ false zeroed))
        [.call 2, .iterate, .recv (.data [23, 104, 23, 105]), .iterate, .iterate, .iterate]
        = some t ∧ t.calls = [⟨-1, [104]⟩] ∧ t.reader.socket.received = 2 ∧
      ¬ ∀ call ∈ t.calls, call.Honest := by
  refine ⟨_, rfl, rfl, rfl, fun h => ?_⟩
  have hnothing := (h ⟨-1, [104]⟩ (List.mem_singleton.mpr rfl)).nothing
  exact absurd (hnothing (by simp)) (by decide)

end Win32Experiments.SecureSocket
