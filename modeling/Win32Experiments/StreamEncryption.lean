import Win32Experiments.Foundation.Chunks
import Win32Experiments.Foundation.Memory
import Win32Experiments.Sspi

/-!
# Stream messages

`EncryptMessage` on a stream takes three buffers: it fills the header and the trailer, and replaces
the data. The function is not part of the repository; what is said here of it is that it fits.
-/

namespace Win32Experiments.Sspi

open Foundation

/-- What `EncryptMessage` answers: its status, and what the three buffers hold up to the lengths
that it sets. -/
structure EncryptReply where
  status : SecurityStatus
  header : List UInt8
  data : List UInt8
  trailer : List UInt8
deriving DecidableEq, Repr

/-- `EncryptMessage`: the reply to a context, the length of the header buffer, the data, and the
length of the trailer buffer. -/
abbrev EncryptMessage (Ctx : Type) := Ctx → ℕ → List UInt8 → ℕ → EncryptReply × Ctx

variable {Ctx : Type}

/-- The lengths of header and data are left alone, and the trailer may be shortened. -/
structure KeepsLengths (encryptMessage : EncryptMessage Ctx) : Prop where
  length_header : ∀ ctx cbHeader data cbTrailer,
    (encryptMessage ctx cbHeader data cbTrailer).1.status = .SEC_E_OK →
    (encryptMessage ctx cbHeader data cbTrailer).1.header.length = cbHeader
  length_data : ∀ ctx cbHeader data cbTrailer,
    (encryptMessage ctx cbHeader data cbTrailer).1.status = .SEC_E_OK →
    (encryptMessage ctx cbHeader data cbTrailer).1.data.length = data.length
  length_trailer_le : ∀ ctx cbHeader data cbTrailer,
    (encryptMessage ctx cbHeader data cbTrailer).1.status = .SEC_E_OK →
    (encryptMessage ctx cbHeader data cbTrailer).1.trailer.length ≤ cbTrailer

/-- The encrypted message. -/
def EncryptReply.bytes (reply : EncryptReply) : List UInt8 :=
  reply.header ++ reply.data ++ reply.trailer

/-- The block behind the buffers, which start at `base` and follow each other. -/
def EncryptReply.write (reply : EncryptReply) (block : List UInt8) (base cbHeader cbData : ℕ) :
    List UInt8 :=
  store (store (store block base reply.header) (base + cbHeader) reply.data)
    (base + cbHeader + cbData) reply.trailer

/-- The encryptions of chunks, one behind the other; none if one of them fails. -/
def encryptAll (encryptMessage : EncryptMessage Ctx) (cbHeader cbTrailer : ℕ) :
    Ctx → List (List UInt8) → Option (List UInt8)
  | _, [] => some []
  | ctx, chunk :: chunks =>
    let (reply, ctx) := encryptMessage ctx cbHeader chunk cbTrailer
    if reply.status = .SEC_E_OK then
      (encryptAll encryptMessage cbHeader cbTrailer ctx chunks).map (reply.bytes ++ ·)
    else none

section

variable {encryptMessage : EncryptMessage Ctx} {cbHeader cbData cbTrailer base : ℕ} {ctx : Ctx}
  {reply : EncryptReply} {block : List UInt8}

theorem length_bytes (reply : EncryptReply) :
    reply.bytes.length = reply.header.length + reply.data.length + reply.trailer.length := by
  rw [EncryptReply.bytes, List.length_append, List.length_append]

/-- The lengths in the reply of a call that succeeds. -/
theorem lengths_of_call (hE : KeepsLengths encryptMessage) {data : List UInt8} {ctx' : Ctx}
    (hcall : encryptMessage ctx cbHeader data cbTrailer = (reply, ctx'))
    (hstatus : reply.status = .SEC_E_OK) :
    reply.header.length = cbHeader ∧ reply.data.length = data.length ∧
      reply.trailer.length ≤ cbTrailer := by
  have hreply : (encryptMessage ctx cbHeader data cbTrailer).1 = reply := by rw [hcall]
  subst hreply
  exact ⟨hE.length_header _ _ _ _ hstatus, hE.length_data _ _ _ _ hstatus,
    hE.length_trailer_le _ _ _ _ hstatus⟩

/-- The message follows what stands before its buffers. -/
theorem front_write (hheader : reply.header.length = cbHeader) (hdata : reply.data.length = cbData)
    (hroom : base + cbHeader + cbData ≤ block.length) :
    window (reply.write block base cbHeader cbData) 0 (base + reply.bytes.length)
      = window block 0 base ++ reply.bytes := by
  subst hheader hdata
  set afterHeader := store block base reply.header with hafterHeader
  set afterData := store afterHeader (base + reply.header.length) reply.data with hafterData
  have hlenHeader : afterHeader.length = block.length := length_store (by omega)
  have hlenData : afterData.length = block.length := by
    rw [hafterData, length_store (by omega), hlenHeader]
  have hsum : base + reply.bytes.length
      = base + reply.header.length + reply.data.length + reply.trailer.length := by
    rw [length_bytes]
    omega
  show window (store afterData (base + reply.header.length + reply.data.length) reply.trailer) 0
    (base + reply.bytes.length) = _
  rw [hsum, front_store_append (by omega), hafterData, front_store_append (by omega), hafterHeader,
    front_store_append (by omega), EncryptReply.bytes]
  simp only [List.append_assoc]

/-- The message stays within its buffers. -/
theorem length_write (hheader : reply.header.length = cbHeader) (hdata : reply.data.length = cbData)
    (htrailer : reply.trailer.length ≤ cbTrailer)
    (hroom : base + cbHeader + cbData + cbTrailer ≤ block.length) :
    (reply.write block base cbHeader cbData).length = block.length := by
  have hlenHeader : (store block base reply.header).length = block.length := length_store (by omega)
  have hlenData : (store (store block base reply.header) (base + cbHeader) reply.data).length
      = block.length := by
    rw [length_store (by omega), hlenHeader]
  rw [EncryptReply.write, length_store (by omega), hlenData]

/-- The first chunk is encrypted, and then the rest. -/
theorem encryptAll_cons {ctx' : Ctx} {chunk bytes : List UInt8} {chunks : List (List UInt8)}
    (hcall : encryptMessage ctx cbHeader chunk cbTrailer = (reply, ctx'))
    (h : encryptAll encryptMessage cbHeader cbTrailer ctx (chunk :: chunks) = some bytes) :
    reply.status = .SEC_E_OK ∧
      ∃ rest, encryptAll encryptMessage cbHeader cbTrailer ctx' chunks = some rest ∧
        bytes = reply.bytes ++ rest := by
  simp only [encryptAll, hcall] at h
  split at h
  · next hstatus =>
    obtain ⟨rest, hrest, hbytes⟩ := Option.map_eq_some_iff.mp h
    exact ⟨hstatus, rest, hrest, hbytes.symm⟩
  · contradiction

/-- Encryption does not shorten. -/
theorem length_encryptAll (hE : KeepsLengths encryptMessage) {chunks : List (List UInt8)}
    {bytes : List UInt8}
    (h : encryptAll encryptMessage cbHeader cbTrailer ctx chunks = some bytes) :
    chunks.flatten.length ≤ bytes.length := by
  induction chunks generalizing ctx bytes with
  | nil => exact Nat.zero_le _
  | cons chunk chunks ih =>
    rcases hcall : encryptMessage ctx cbHeader chunk cbTrailer with ⟨reply, ctx'⟩
    obtain ⟨hstatus, rest, hrest, rfl⟩ := encryptAll_cons hcall h
    obtain ⟨-, hdata, -⟩ := lengths_of_call hE hcall hstatus
    have hle := ih hrest
    rw [List.flatten_cons, List.length_append, List.length_append, length_bytes]
    omega

end

end Win32Experiments.Sspi
