import Win32Experiments.SecureSocket.Write
import Win32Experiments.SspiClientServer.Encrypt

/-!
# The two TLS writers

`tls_write` streams record after record, `SslEncrypt` collects them for `SendAll`. Both put the
encryptions of the chunks of the plaintext on the wire, as long as these are fewer than `2 ^ 31`
bytes: `SendAll` takes the size of the vector as an `int`, and sends nothing for a negative one.
-/

namespace Win32Experiments.SspiClientServer

open Foundation Sspi Winsock
open SecureSocket (StreamSizes tlsWrite TLS_MAX_PACKET_SIZE)

variable {Ctx : Type} {encryptMessage : EncryptMessage Ctx} {sizes : StreamSizes} {ctx : Ctx}
  {plaintext bytes wbuffer : List UInt8} {accepts acceptsAll : ℕ → ℕ}

/-- A vector of fewer than `2 ^ 31` bytes is sent whole. -/
theorem sendCipher_eq (haccepts : ∀ k, 0 < accepts k) (hlen : bytes.length < 2 ^ 31) :
    sendCipher accepts bytes = bytes := by
  have hint : (toInt32 (bytes.length % 2 ^ 32)).toNat = bytes.length := by
    rw [Nat.mod_eq_of_lt (by omega), toInt32_of_lt hlen, Int.toNat_natCast]
  rw [sendCipher, sendAllBytes, hint, (sendRange_complete haccepts _ _ _ _).1, Nat.sub_zero]
  exact List.take_length

/-- A vector of `2 ^ 31` bytes is not sent at all. -/
theorem sendCipher_eq_nil (hlen : bytes.length = 2 ^ 31) : sendCipher accepts bytes = [] := by
  have hint : (toInt32 (bytes.length % 2 ^ 32)).toNat = 0 := by
    rw [hlen]
    decide
  rw [sendCipher, sendAllBytes, hint, sendRange, if_pos (Nat.le_refl 0)]

/-- The plaintext is no longer than its encryption. -/
theorem length_plaintext_le (hE : KeepsLengths encryptMessage) (hsizes : sizes.Usable)
    (hbytes : encryptAll encryptMessage sizes.cbHeader sizes.cbTrailer ctx
      (chunks sizes.cbMaximumMessage plaintext) = some bytes) :
    plaintext.length ≤ bytes.length := by
  have hle := length_encryptAll hE hbytes
  rwa [flatten_chunks hsizes.cbMaximumMessage_pos] at hle

/-- What `tls_write` puts on the wire. -/
theorem tlsWrite_wire (hE : KeepsLengths encryptMessage) (hsizes : sizes.Usable)
    (haccepts : ∀ k, 0 < accepts k) (hwbuffer : wbuffer.length = TLS_MAX_PACKET_SIZE)
    (hsize : plaintext.length < 2 ^ 32)
    (hbytes : encryptAll encryptMessage sizes.cbHeader sizes.cbTrailer ctx
      (chunks sizes.cbMaximumMessage plaintext) = some bytes) :
    ∃ w, tlsWrite encryptMessage sizes accepts plaintext (.start ctx wbuffer) = some (0, w) ∧
      w.wire = bytes := by
  rw [tlsWrite, Nat.mod_eq_of_lt hsize]
  exact SecureSocket.tlsWriteLoop_complete hE hsizes haccepts hwbuffer hbytes

/-- **The two TLS writers agree** on every plaintext whose encryption is shorter than `2 ^ 31`
bytes, however `send` cuts it up; and neither writes outside its buffer, whatever happens. -/
theorem writers_agree (hE : KeepsLengths encryptMessage) (hsizes : sizes.Usable)
    (haccepts : ∀ k, 0 < accepts k) (hacceptsAll : ∀ k, 0 < acceptsAll k)
    (hwbuffer : wbuffer.length = TLS_MAX_PACKET_SIZE) (ctx : Ctx) (plaintext : List UInt8) :
    (∀ bytes, encryptAll encryptMessage sizes.cbHeader sizes.cbTrailer ctx
        (chunks sizes.cbMaximumMessage plaintext) = some bytes → bytes.length < 2 ^ 31 →
      ∃ w e, tlsWrite encryptMessage sizes accepts plaintext (.start ctx wbuffer)
          = some (0, w) ∧
        sslEncrypt encryptMessage sizes ctx plaintext = some (true, e) ∧
        w.wire = bytes ∧ sendCipher acceptsAll e.out = bytes) ∧
    (∀ result w, tlsWrite encryptMessage sizes accepts plaintext (.start ctx wbuffer)
        = some (result, w) → ∀ x ∈ w.writes, x.Within TLS_MAX_PACKET_SIZE) ∧
    ∀ returned e, sslEncrypt encryptMessage sizes ctx plaintext = some (returned, e) →
      ∀ x ∈ e.writes, x.1.Within x.2 := by
  have hmax := hsizes.cbMaximumMessage_pos
  refine ⟨?_, ?_, ?_⟩
  · intro bytes hbytes hlen
    have hle := length_plaintext_le hE hsizes hbytes
    obtain ⟨w, hwrite, hwire⟩ := tlsWrite_wire hE hsizes haccepts hwbuffer (by omega) hbytes
    obtain ⟨e, hencrypt, hout⟩ : ∃ e, sslEncrypt encryptMessage sizes ctx plaintext
        = some (true, e) ∧ e.out = bytes := sslEncryptLoop_complete hE hmax hbytes
    refine ⟨w, e, hwrite, hencrypt, hwire, ?_⟩
    rw [hout, sendCipher_eq hacceptsAll hlen]
  · intro result w hwrite
    exact SecureSocket.writes_tlsWriteLoop hsizes hwrite (List.forall_mem_nil _)
  · intro returned e hencrypt
    exact writes_sslEncryptLoop hmax hencrypt (List.forall_mem_nil _)

/-- A cipher that puts one byte before the data and nothing behind it. -/
def oneByteHeader : EncryptMessage Unit := fun ctx cbHeader data _ =>
  (⟨.SEC_E_OK, List.replicate cbHeader 23, data, []⟩, ctx)

theorem oneByteHeader_keeps : KeepsLengths oneByteHeader :=
  ⟨fun _ _ _ _ _ => List.length_replicate, fun _ _ _ _ _ => rfl, fun _ _ _ _ _ => Nat.zero_le _⟩

/-- Every chunk gets its header. -/
theorem encryptAll_oneByteHeader (pieces : List (List UInt8)) :
    encryptAll oneByteHeader 1 0 () pieces = some (pieces.flatMap (23 :: ·)) := by
  induction pieces with
  | nil => rfl
  | cons chunk pieces ih =>
    have hcall : encryptAll oneByteHeader 1 0 () (chunk :: pieces)
        = (encryptAll oneByteHeader 1 0 () pieces).map (([23] ++ chunk ++ []) ++ ·) := rfl
    rw [hcall, ih, Option.map_some, List.append_nil, List.flatMap_cons]
    rfl

theorem writers_agree_hi :
    ∃ w e, tlsWrite oneByteHeader ⟨1, 0, 2, 4⟩ (fun _ => 1) [72, 105, 33]
        (.start () (List.replicate TLS_MAX_PACKET_SIZE 0)) = some (0, w) ∧
      sslEncrypt oneByteHeader ⟨1, 0, 2, 4⟩ () [72, 105, 33] = some (true, e) ∧
      w.wire = [23, 72, 105, 23, 33] ∧ sendCipher (fun _ => 4) e.out = [23, 72, 105, 23, 33] := by
  have hsizes : StreamSizes.Usable ⟨1, 0, 2, 4⟩ := ⟨by decide, by decide⟩
  have hchunks : chunks 2 ([72, 105, 33] : List UInt8) = [[72, 105], [33]] := by
    simp [chunks]
  refine (writers_agree oneByteHeader_keeps hsizes (fun _ => Nat.one_pos) (fun _ => by decide)
    List.length_replicate () [72, 105, 33]).1 [23, 72, 105, 23, 33] ?_ (by decide)
  rw [hchunks, encryptAll_oneByteHeader]
  rfl

/-- In records of one byte, each behind a header of one byte, a plaintext doubles. -/
theorem length_doubled (plaintext : List UInt8) :
    ((chunks 1 plaintext).flatMap (23 :: ·)).length = 2 * plaintext.length := by
  rw [chunks_one]
  induction plaintext with
  | nil => rfl
  | cons a plaintext ih =>
    simp only [List.map_cons, List.flatMap_cons, List.length_append, List.length_cons,
      List.length_nil, ih]
    omega

/-- `tls_write` sends the `2 ^ 31` bytes of such records, and `SendAll` none of them. -/
theorem negativeSize (hlen : plaintext.length = 2 ^ 30) :
    ∃ w e, tlsWrite oneByteHeader ⟨1, 0, 1, 4⟩ (fun _ => 1) plaintext
        (.start () (List.replicate TLS_MAX_PACKET_SIZE 0)) = some (0, w) ∧
      sslEncrypt oneByteHeader ⟨1, 0, 1, 4⟩ () plaintext = some (true, e) ∧
      w.wire.length = 2 ^ 31 ∧ e.out = w.wire ∧ sendCipher (fun _ => 1) e.out = [] := by
  have hsizes : StreamSizes.Usable ⟨1, 0, 1, 4⟩ := ⟨by decide, by decide⟩
  have hbytes := encryptAll_oneByteHeader (chunks 1 plaintext)
  have hdoubled : ((chunks 1 plaintext).flatMap (23 :: ·)).length = 2 ^ 31 := by
    rw [length_doubled, hlen]
    omega
  obtain ⟨w, hwrite, hwire⟩ := tlsWrite_wire oneByteHeader_keeps hsizes (fun _ => Nat.one_pos)
    List.length_replicate (by omega) hbytes
  obtain ⟨e, hencrypt, hout⟩ : ∃ e, sslEncrypt oneByteHeader ⟨1, 0, 1, 4⟩ () plaintext
      = some (true, e) ∧ e.out = (chunks 1 plaintext).flatMap (23 :: ·) :=
    sslEncryptLoop_complete oneByteHeader_keeps (by decide) hbytes
  refine ⟨w, e, hwrite, hencrypt, hwire ▸ hdoubled, hout.trans hwire.symm, ?_⟩
  rw [hout]
  exact sendCipher_eq_nil hdoubled

/-- `2 ^ 30` bytes of plaintext. -/
theorem negativeSize_counterexample :
    ∃ w e, tlsWrite oneByteHeader ⟨1, 0, 1, 4⟩ (fun _ => 1) (List.replicate (2 ^ 30) 0)
        (.start () (List.replicate TLS_MAX_PACKET_SIZE 0)) = some (0, w) ∧
      sslEncrypt oneByteHeader ⟨1, 0, 1, 4⟩ () (List.replicate (2 ^ 30) 0) = some (true, e) ∧
      w.wire.length = 2 ^ 31 ∧ e.out = w.wire ∧ sendCipher (fun _ => 1) e.out = [] :=
  negativeSize List.length_replicate

end Win32Experiments.SspiClientServer
