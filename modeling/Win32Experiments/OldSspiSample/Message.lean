import Win32Experiments.Foundation.Extent
import Win32Experiments.OldSspiSample.Authentication
import Win32Experiments.OldSspiSample.Framing

/-!
# The encrypted message of the old SSPI sample

`EncryptThis` of the server puts the size of the trailer, the trailer and the ciphertext into a
buffer of its own, and `DecryptThis` of the client takes the buffer apart again and decrypts the
data in place. `EncryptMessage` and `DecryptMessage` are those of the context that the two sides
share.
-/

namespace Win32Experiments.OldSspiSample

open Foundation Sspi

/-! ## The security context -/

/-- What `EncryptMessage` leaves in its two buffers: a trailer, and the data in place. -/
structure Encryption where
  status : SecurityStatus
  trailer : List UInt8
  data : List UInt8
deriving DecidableEq, Repr

/-- `EncryptMessage`, given the room for the trailer and the data, and `DecryptMessage`, given the
trailer and the data, which it replaces. -/
structure MessageSecurity where
  encryptMessage : ℕ → List UInt8 → Encryption
  decryptMessage : List UInt8 → List UInt8 → SecurityStatus × List UInt8

/-- With `cbSecurityTrailer` bytes of room `EncryptMessage` succeeds, keeps the length of the data
and needs no more than the room; `DecryptMessage` inverts it. -/
structure MessageContract (sspi : MessageSecurity) (cbSecurityTrailer : ℕ) : Prop where
  succeeds : ∀ m, SEC_SUCCESS (sspi.encryptMessage cbSecurityTrailer m).status = true
  length_data : ∀ m, (sspi.encryptMessage cbSecurityTrailer m).data.length = m.length
  length_trailer : ∀ m,
    (sspi.encryptMessage cbSecurityTrailer m).trailer.length ≤ cbSecurityTrailer
  inverts : ∀ m, sspi.decryptMessage (sspi.encryptMessage cbSecurityTrailer m).trailer
    (sspi.encryptMessage cbSecurityTrailer m).data = (.SEC_E_OK, m)

/-! ## `EncryptThis` -/

/-- What `EncryptThis` returns with `TRUE`: the buffer at `*ppOutput`, `*pcbOutput`, and the
extents of the buffer that it wrote or had written. -/
structure Encrypted where
  output : List UInt8
  cbOutput : ℕ
  writes : List Extent
deriving DecidableEq, Repr

/-- The memory that `malloc` returns for `size` bytes, which holds anything. -/
def malloc (memory : ℕ → UInt8) (size : ℕ) : List UInt8 := (List.range size).map memory

/-- `EncryptThis`; `none` is `FALSE`. The data is encrypted in the caller's buffer and appended
to the trailer afterwards. -/
def encryptThis (sspi : MessageSecurity) (memory : ℕ → UInt8) (pMessage : List UInt8)
    (cbSecurityTrailer : ℕ) : Option Encrypted :=
  let cbMessage := pMessage.length
  let sigBufferSize := cbSecurityTrailer
  let output := malloc memory (addW 32 sigBufferSize cbMessage + 4)
  let secBuff := sspi.encryptMessage sigBufferSize pMessage
  if SEC_SUCCESS secBuff.status = false then none
  else
    let cbBuffer := secBuff.trailer.length
    let output := store output 4 secBuff.trailer
    let output := store output 0 (leBytes 4 cbBuffer)
    let output := store output (cbBuffer + 4) (secBuff.data.take cbMessage)
    some
      { output
        cbOutput := addW 32 (addW 32 cbMessage cbBuffer) 4
        writes := [⟨4, sigBufferSize⟩, ⟨0, 4⟩, ⟨cbBuffer + 4, cbMessage⟩] }

/-! ## `DecryptThis` -/

/-- What `DecryptThis` does: the buffers it hands to `DecryptMessage`, the status, the message
buffer afterwards, the pointer it returns and `*pcbMessage`. -/
structure Decrypted where
  sigBuffer : SecBuffer
  dataBuffer : SecBuffer
  status : SecurityStatus
  buffer : List UInt8
  pDataBuffer : ℕ
  cbMessage : ℕ
deriving DecidableEq, Repr

/-- `DecryptThis`. A failure of `DecryptMessage` is printed and nothing else. -/
def decryptThis (sspi : MessageSecurity) (pBuffer : List UInt8) (pcbMessage : ℕ) : Decrypted :=
  let sigBufferSize := leValue (window pBuffer 0 4)
  let pSigBuffer := 4
  let pDataBuffer := pSigBuffer + sigBufferSize
  let cbMessage := subW 32 (subW 32 pcbMessage sigBufferSize) 4
  let (status, data) := sspi.decryptMessage (window pBuffer pSigBuffer sigBufferSize)
    (window pBuffer pDataBuffer cbMessage)
  { sigBuffer := ⟨.SECBUFFER_TOKEN, sigBufferSize, pSigBuffer⟩
    dataBuffer := ⟨.SECBUFFER_DATA, cbMessage, pDataBuffer⟩
    status
    buffer := store pBuffer pDataBuffer data
    pDataBuffer
    cbMessage }

/-! ## The client's message -/

/-- How the client's reading of its message ends: it waits, it leaves by `MyHandleError`, or
`DecryptThis` is called with `cbRead` bytes. -/
inductive ClientMessage
  | waits
  | exits (message : String)
  | decrypts (cbRead : ℕ) (d : Decrypted)
deriving DecidableEq, Repr

/-- Lines 113 to 131 of the client's `main`; `data` is what its buffer `Data` held before. -/
def receiveMessage (sspi : MessageSecurity) (data stream : List UInt8)
    (outcomes : List RecvOutcome) : ClientMessage :=
  let received := receiveBytes BIG_BUFF stream outcomes
  match received.result with
  | none => .waits
  | some false => .exits "No response from server "
  | some true =>
    if received.cbRead = 0 then .exits "Zero bytes received "
    else
      .decrypts received.cbRead
        (decryptThis sspi (store data 0 received.stored) received.cbRead)

/-- The extent of a buffer that is passed on. -/
def extentOf (b : SecBuffer) : Extent := ⟨b.pvBuffer, b.cbBuffer⟩

/-- What is read of a message of `cbRead` bytes lies in it, and the length of the data did not
underflow. -/
structure Decrypted.StaysInside (d : Decrypted) (cbRead : ℕ) : Prop where
  sizeField : (⟨0, 4⟩ : Extent).Within cbRead
  signature : (extentOf d.sigBuffer).Within cbRead
  data : (extentOf d.dataBuffer).Within cbRead
  noUnderflow : d.sigBuffer.cbBuffer + 4 ≤ cbRead

/-- A message is rejected, or taken apart inside the bytes received. -/
def ClientMessage.Safe : ClientMessage → Prop
  | .waits => True
  | .exits _ => True
  | .decrypts cbRead d => d.StaysInside cbRead

end Win32Experiments.OldSspiSample
