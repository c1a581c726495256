import Mathlib.Tactic.Common

/-!
# Security statuses and buffers

What the programs that use SSPI name of it: the statuses its functions return and the
buffers they are given. The functions themselves are not part of the repository; each model
takes their replies from the environment, under a contract.
-/

namespace Win32Experiments.Sspi

/-- `SECURITY_STATUS`: the values the programs compare with, and all others by their sign. -/
inductive SecurityStatus
  | SEC_E_OK
  | SEC_I_CONTINUE_NEEDED
  | SEC_I_COMPLETE_NEEDED
  | SEC_I_COMPLETE_AND_CONTINUE
  | SEC_I_INCOMPLETE_CREDENTIALS
  | SEC_I_CONTEXT_EXPIRED
  | SEC_I_RENEGOTIATE
  | SEC_E_INCOMPLETE_MESSAGE
  | information (code : ℕ)
  | error (code : ℕ)
deriving DecidableEq, Repr

/-- `SEC_SUCCESS(Status)`: the status is not negative. -/
def SEC_SUCCESS : SecurityStatus → Bool
  | .SEC_E_INCOMPLETE_MESSAGE => false
  | .error _ => false
  | _ => true

/-- The `BufferType` of a `SecBuffer`. -/
inductive BufferType
  | SECBUFFER_EMPTY
  | SECBUFFER_DATA
  | SECBUFFER_TOKEN
  | SECBUFFER_MISSING
  | SECBUFFER_EXTRA
  | SECBUFFER_STREAM_HEADER
  | SECBUFFER_STREAM_TRAILER
  | SECBUFFER_ALERT
deriving DecidableEq, Repr

/-- A `SecBuffer`; `pvBuffer` is an offset into the block the caller handed over. -/
structure SecBuffer where
  bufferType : BufferType
  cbBuffer : ℕ
  pvBuffer : ℕ
deriving DecidableEq, Repr

/-- An unused buffer: `SECBUFFER_EMPTY` with no bytes. -/
def SecBuffer.empty : SecBuffer := ⟨.SECBUFFER_EMPTY, 0, 0⟩

/-- What `InitializeSecurityContext` answers: the status, the number of bytes of the input
token it consumed, the second input buffer afterwards, and the output token. -/
structure IscReply where
  status : SecurityStatus
  consumed : ℕ
  second : SecBuffer
  token : List UInt8
deriving DecidableEq, Repr

/-- What `DecryptMessage` answers: its status, the block it was given as it left it, and the
four buffers. -/
structure DecryptReply where
  status : SecurityStatus
  block : List UInt8
  buffers : Vector SecBuffer 4
deriving DecidableEq, Repr

/-- `InitializeSecurityContext` consumes a prefix of its input and reports the rest as
`SECBUFFER_EXTRA`; with `SEC_E_INCOMPLETE_MESSAGE` it consumes nothing and leaves the second
buffer `SECBUFFER_MISSING` or `SECBUFFER_EMPTY`. -/
def IscContract (inputLength : ℕ) (reply : IscReply) : Prop :=
  reply.consumed ≤ inputLength ∧
  if reply.status = .SEC_E_INCOMPLETE_MESSAGE then
    reply.consumed = 0 ∧ (reply.second.bufferType = .SECBUFFER_MISSING ∨
      reply.second.bufferType = .SECBUFFER_EMPTY)
  else
    (reply.consumed < inputLength → reply.second.bufferType = .SECBUFFER_EXTRA) ∧
    (reply.second.bufferType = .SECBUFFER_EXTRA →
      reply.second.cbBuffer = inputLength - reply.consumed)

instance (inputLength : ℕ) (reply : IscReply) : Decidable (IscContract inputLength reply) := by
  unfold IscContract
  infer_instance

end Win32Experiments.Sspi
