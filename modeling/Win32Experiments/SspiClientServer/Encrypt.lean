import Win32Experiments.Foundation.Extent
import Win32Experiments.Foundation.Word
import Win32Experiments.SecureSocket.Handshake
import Win32Experiments.StreamEncryption

/-!
# `SslEncrypt` and `SendAll`

`SslEncrypt` collects the records in a vector: it makes room for the largest record, encrypts in
the room at the end, and trims what the trailer left. `SendAll` sends the vector, by the `int` that
its size is cast to.
-/

namespace Win32Experiments.SspiClientServer

open Foundation Sspi Winsock
open SecureSocket (StreamSizes)

/-- `std::vector<char>::resize`. -/
def resize (v : List UInt8) (n : ℕ) : List UInt8 :=
  v.take n ++ List.replicate (n - v.length) 0

/-- A call of `SslEncrypt`: the context, the vector, and the extents that were written or handed
over to be written, each with the size of the vector at the time. -/
structure Encrypting (Ctx : Type) where
  ctx : Ctx
  out : List UInt8
  writes : List (Extent × ℕ)

variable {Ctx : Type}

/-- The record of `chunk`, encrypted at the end of the vector. -/
def Encrypting.encrypt (encryptMessage : EncryptMessage Ctx) (sizes : StreamSizes)
    (e : Encrypting Ctx) (chunk : List UInt8) : EncryptReply × Encrypting Ctx :=
  let room := sizes.cbHeader + chunk.length + sizes.cbTrailer
  let out := resize e.out (e.out.length + room)
  let base := out.length - room
  let out := store out (base + sizes.cbHeader) chunk
  let (reply, ctx) := encryptMessage e.ctx sizes.cbHeader
    (window out (base + sizes.cbHeader) chunk.length) sizes.cbTrailer
  (reply,
    { ctx
      out := reply.write out base sizes.cbHeader chunk.length
      writes := e.writes ++
        [(⟨base + sizes.cbHeader, chunk.length⟩, out.length), (⟨base, sizes.cbHeader⟩, out.length),
          (⟨base + sizes.cbHeader, chunk.length⟩, out.length),
          (⟨base + sizes.cbHeader + chunk.length, sizes.cbTrailer⟩, out.length)] })

/-- The vector is trimmed to what the record takes. -/
def Encrypting.trim (sizes : StreamSizes) (e : Encrypting Ctx) (chunk : ℕ) (reply : EncryptReply) :
    Encrypting Ctx :=
  let produced := reply.header.length + reply.data.length + reply.trailer.length
  let room := sizes.cbHeader + chunk + sizes.cbTrailer
  { e with out := resize e.out (e.out.length - room + produced) }

/-- The loop of `SslEncrypt`, and whether it returns or has ended the process by `Fail`. There is
no result if records carry nothing and the loop does not end. -/
def sslEncryptLoop (encryptMessage : EncryptMessage Ctx) (sizes : StreamSizes) (data : List UInt8)
    (e : Encrypting Ctx) : Option (Bool × Encrypting Ctx) :=
  if _hdata : data.length = 0 then some (true, e)
  else if _hmax : sizes.cbMaximumMessage = 0 then none
  else
    let chunk := min data.length sizes.cbMaximumMessage
    let (reply, e) := e.encrypt encryptMessage sizes (data.take chunk)
    if reply.status ≠ .SEC_E_OK then some (false, e)
    else sslEncryptLoop encryptMessage sizes (data.drop chunk) (e.trim sizes chunk reply)
termination_by data.length
decreasing_by
  rw [List.length_drop]
  omega

/-- `SslEncrypt`. -/
def sslEncrypt (encryptMessage : EncryptMessage Ctx) (sizes : StreamSizes) (ctx : Ctx)
    (data : List UInt8) : Option (Bool × Encrypting Ctx) :=
  sslEncryptLoop encryptMessage sizes data ⟨ctx, [], []⟩

/-- What `SendAll(s, buf, len)` puts on the wire. -/
def sendAllBytes (accepts : ℕ → ℕ) (buf : List UInt8) (len : ℤ) : List UInt8 :=
  (sendRange accepts buf len.toNat 0 0).wire

/-- `SendAll(s, cipher.data(), (int)cipher.size())`. -/
def sendCipher (accepts : ℕ → ℕ) (cipher : List UInt8) : List UInt8 :=
  sendAllBytes accepts cipher (toInt32 (cipher.length % 2 ^ 32))

/-! ## A pass of the loop -/

variable {encryptMessage : EncryptMessage Ctx} {sizes : StreamSizes} {e : Encrypting Ctx}
  {chunk data : List UInt8}

theorem length_resize (v : List UInt8) (n : ℕ) : (resize v n).length = n := by
  rw [resize, List.length_append, List.length_take, List.length_replicate]
  omega

theorem resize_of_le {v : List UInt8} {n : ℕ} (h : n ≤ v.length) : resize v n = window v 0 n := by
  rw [resize, Nat.sub_eq_zero_of_le h, List.replicate_zero, List.append_nil]
  rfl

/-- Growing a vector keeps what it holds. -/
theorem front_resize (v : List UInt8) (n : ℕ) :
    window (resize v (v.length + n)) 0 v.length = v := by
  rw [resize, List.take_of_length_le (Nat.le_add_right _ _), window_append_left (by omega)]
  exact List.take_length

/-- The vector in which a pass encrypts, and where the record starts. -/
theorem length_grown (e : Encrypting Ctx) (room : ℕ) :
    (resize e.out (e.out.length + room)).length - room = e.out.length := by
  rw [length_resize, Nat.add_sub_cancel]

/-- What a pass may write lies in the vector. -/
theorem writes_encrypt (h : ∀ x ∈ e.writes, x.1.Within x.2) :
    ∀ x ∈ (e.encrypt encryptMessage sizes chunk).2.writes, x.1.Within x.2 := by
  have hstored : (store (resize e.out (e.out.length +
      (sizes.cbHeader + chunk.length + sizes.cbTrailer))) (e.out.length + sizes.cbHeader)
      chunk).length = e.out.length + (sizes.cbHeader + chunk.length + sizes.cbTrailer) := by
    rw [length_store (by rw [length_resize]; omega), length_resize]
  simp only [Encrypting.encrypt, length_grown, hstored, List.forall_mem_append,
    List.forall_mem_cons, Extent.within_mk]
  exact ⟨h, by omega, by omega, by omega, by omega, List.forall_mem_nil _⟩

/-- A pass appends the record to the vector. -/
theorem encrypt_trim_spec (hE : KeepsLengths encryptMessage) {reply : EncryptReply} {ctx' : Ctx}
    (hcall : encryptMessage e.ctx sizes.cbHeader chunk sizes.cbTrailer = (reply, ctx'))
    (hstatus : reply.status = .SEC_E_OK) :
    ∃ e', e.encrypt encryptMessage sizes chunk = (reply, e') ∧
      (e'.trim sizes chunk.length reply).ctx = ctx' ∧
      (e'.trim sizes chunk.length reply).out = e.out ++ reply.bytes := by
  set room := sizes.cbHeader + chunk.length + sizes.cbTrailer with hroom
  set grown := resize e.out (e.out.length + room) with hgrown
  have hlenGrown : grown.length = e.out.length + room := length_resize _ _
  have hlenStored : (store grown (e.out.length + sizes.cbHeader) chunk).length
      = e.out.length + room := by
    rw [length_store (by omega), hlenGrown]
  have hcopied : window (store grown (e.out.length + sizes.cbHeader) chunk)
      (e.out.length + sizes.cbHeader) chunk.length = chunk := window_store_self (by omega)
  obtain ⟨hheader, hdata, htrailer⟩ := lengths_of_call hE hcall hstatus
  set written := reply.write (store grown (e.out.length + sizes.cbHeader) chunk) e.out.length
    sizes.cbHeader chunk.length with hwritten
  have hlenWritten : written.length = e.out.length + room := by
    rw [hwritten, length_write hheader hdata htrailer (by omega), hlenStored]
  have hfront : window written 0 (e.out.length + reply.bytes.length) = e.out ++ reply.bytes := by
    rw [hwritten, front_write hheader hdata (by omega), window_store_before (by omega) (by omega),
      hgrown, front_resize]
  rcases hencrypt : e.encrypt encryptMessage sizes chunk with ⟨reply', e'⟩
  simp only [Encrypting.encrypt, ← hroom, ← hgrown, hlenGrown, Nat.add_sub_cancel, hcopied, hcall,
    Prod.mk.injEq] at hencrypt
  obtain ⟨rfl, rfl⟩ := hencrypt
  refine ⟨_, rfl, rfl, ?_⟩
  -- the surplus of the trailer is cut off
  show resize written (written.length - room
    + (reply.header.length + reply.data.length + reply.trailer.length)) = _
  have hbytes := length_bytes reply
  rw [← hbytes, hlenWritten, Nat.add_sub_cancel, resize_of_le (by omega), hfront]

/-! ## The loop -/

/-- What the loop leaves in the vector: the encryptions of the chunks, in order. -/
theorem sslEncryptLoop_complete (hE : KeepsLengths encryptMessage)
    (hmax : 0 < sizes.cbMaximumMessage) {bytes : List UInt8}
    (hbytes : encryptAll encryptMessage sizes.cbHeader sizes.cbTrailer e.ctx
      (chunks sizes.cbMaximumMessage data) = some bytes) :
    ∃ e', sslEncryptLoop encryptMessage sizes data e = some (true, e') ∧
      e'.out = e.out ++ bytes := by
  induction data using chunks.induct sizes.cbMaximumMessage generalizing e bytes with
  | case1 data h =>
    obtain rfl : data = [] := h.resolve_right (by omega)
    rw [chunks_nil, encryptAll, Option.some.injEq] at hbytes
    rw [sslEncryptLoop, dif_pos List.length_nil, ← hbytes, List.append_nil]
    exact ⟨e, rfl, rfl⟩
  | case2 data h ih =>
    have hne : data ≠ [] := fun hnil => h (Or.inl hnil)
    have hlen : data.length ≠ 0 := fun hzero => hne (List.length_eq_zero_iff.mp hzero)
    rcases hcall : encryptMessage e.ctx sizes.cbHeader (data.take sizes.cbMaximumMessage)
      sizes.cbTrailer with ⟨reply, ctx'⟩
    rw [chunks_of_ne_nil hmax hne] at hbytes
    obtain ⟨hstatus, rest, hbehind, rfl⟩ := encryptAll_cons hcall hbytes
    obtain ⟨e', hencrypt, rfl, hout⟩ := encrypt_trim_spec hE hcall hstatus
    obtain ⟨e'', hloop, hout''⟩ := ih hbehind
    refine ⟨e'', ?_, by rw [hout'', hout, List.append_assoc]⟩
    have hmin : min data.length sizes.cbMaximumMessage
        = (data.take sizes.cbMaximumMessage).length := by
      rw [List.length_take, Nat.min_comm]
    have htake : data.take (data.take sizes.cbMaximumMessage).length
        = data.take sizes.cbMaximumMessage := by
      rw [List.take_eq_take_iff, List.length_take]
      omega
    have hdrop : data.drop (data.take sizes.cbMaximumMessage).length
        = data.drop sizes.cbMaximumMessage := by
      rw [List.drop_eq_drop_iff, List.length_take]
      omega
    rw [sslEncryptLoop, dif_neg hlen, dif_neg (by omega), hmin]
    simp only [htake, hencrypt, hstatus, ne_eq, not_true_eq_false, if_false, hdrop]
    exact hloop

/-- Whatever the calls return, nothing is written outside the vector. -/
theorem writes_sslEncryptLoop (hmax : 0 < sizes.cbMaximumMessage) {returned : Bool}
    {e' : Encrypting Ctx} (hloop : sslEncryptLoop encryptMessage sizes data e = some (returned, e'))
    (h : ∀ x ∈ e.writes, x.1.Within x.2) : ∀ x ∈ e'.writes, x.1.Within x.2 := by
  induction hlen : data.length using Nat.strong_induction_on generalizing data e with
  | _ n ih =>
    rw [sslEncryptLoop] at hloop
    by_cases hdata : data.length = 0
    · rw [dif_pos hdata, Option.some.injEq, Prod.mk.injEq] at hloop
      rw [← hloop.2]
      exact h
    · rw [dif_neg hdata, dif_neg (by omega)] at hloop
      have hwrites : ∀ x ∈ (e.encrypt encryptMessage sizes
          (data.take (min data.length sizes.cbMaximumMessage))).2.writes, x.1.Within x.2 :=
        writes_encrypt h
      rcases hencrypt : e.encrypt encryptMessage sizes
        (data.take (min data.length sizes.cbMaximumMessage)) with ⟨reply, e₁⟩
      rw [hencrypt] at hwrites
      simp only [hencrypt] at hloop
      split at hloop
      · rw [Option.some.injEq, Prod.mk.injEq] at hloop
        rw [← hloop.2]
        exact hwrites
      · have hlt : (data.drop (min data.length sizes.cbMaximumMessage)).length < n := by
          rw [List.length_drop]
          omega
        exact ih _ hlt hloop hwrites rfl

end Win32Experiments.SspiClientServer
