import Win32Experiments.SecureSocket.Handshake

/-!
# `tls_connect`

The calls around the handshake loop, and the clean-up behind it. The caller tests the result
against 0, and gives nothing back unless it is 0; so a result has to say which it was.
-/

namespace Win32Experiments.SecureSocket

open Foundation Sspi Winsock

/-! ## The function -/

/-- What the calls of `tls_connect` return: those before the loop, the passes of the loop, and the
sizes that `QueryContextAttributes` sets, if it does. -/
structure ConnectAnswers where
  startup : ℕ
  socketValid : Bool
  connected : Bool
  credentials : SecurityStatus
  passes : List Iteration
  attributes : Option StreamSizes
deriving DecidableEq, Repr

/-- How often each kind of resource is given back, or is held. -/
structure Resources where
  context : ℕ
  credentials : ℕ
  sock : ℕ
  winsock : ℕ
deriving DecidableEq, Repr

/-- `tls_connect` when it has returned: its result, the sizes if they were set, the socket, and
the calls of `DeleteSecurityContext`, `FreeCredentialsHandle`, `closesocket` and `WSACleanup`. -/
structure Connection where
  result : ℤ
  sizes : Option StreamSizes
  socket : TlsSocket
  released : Resources
deriving DecidableEq, Repr

/-- Lines 217 to 230: what follows the loop. -/
def Connect.finish (c : Connect) (attributes : Option StreamSizes) : Option Connection :=
  match c.phase with
  | .running => none
  | .returned result => some ⟨result, none, c.socket, ⟨0, 0, 0, 0⟩⟩
  | .broke result =>
    if result ≠ 0 then some ⟨result, none, c.socket, ⟨1, 1, 1, 1⟩⟩
    else
      some ⟨0, attributes, { c.socket with sizes := attributes.getD c.socket.sizes },
        ⟨0, 0, 0, 0⟩⟩

/-- `tls_connect`, if the passes lead out of the loop. -/
def tlsConnect (incoming : List UInt8) (answers : ConnectAnswers) : Option Connection :=
  if answers.startup ≠ 0 then some ⟨-1, none, .start incoming, ⟨0, 0, 0, 0⟩⟩
  else if !answers.socketValid then some ⟨-1, none, .start incoming, ⟨0, 0, 0, 1⟩⟩
  else if !answers.connected then some ⟨-1, none, .start incoming, ⟨0, 0, 1, 1⟩⟩
  else if answers.credentials ≠ .SEC_E_OK then some ⟨-1, none, .start incoming, ⟨0, 0, 1, 1⟩⟩
  else (run Connect.step (.start incoming) answers.passes).bind fun c => c.finish answers.attributes

/-! ## Statements -/

/-- All calls before the loop succeeded. -/
def ConnectAnswers.Ready (answers : ConnectAnswers) : Prop :=
  answers.startup = 0 ∧ answers.socketValid = true ∧ answers.connected = true ∧
    answers.credentials = .SEC_E_OK

instance (answers : ConnectAnswers) : Decidable answers.Ready :=
  inferInstanceAs (Decidable (_ ∧ _))

/-- The bytes left unsent of a token that is to be sent; the last one gets one `send`. -/
def Iteration.unsent (it : Iteration) : ℕ :=
  match it.reply.status with
  | .SEC_E_OK => sendToken it.reply.token.length (it.sends.take 1)
  | .SEC_I_CONTINUE_NEEDED => sendToken it.reply.token.length it.sends
  | _ => 0

/-- Schannel completed the handshake, and every token was sent in full. -/
def Handshaken (passes : List Iteration) : Prop :=
  (∃ it, passes.getLast? = some it ∧ it.reply.status = .SEC_E_OK) ∧ ∀ it ∈ passes, it.unsent = 0

/-- What the calls acquired; the first call of Schannel creates the context unless it fails. -/
def ConnectAnswers.acquired (answers : ConnectAnswers) : Resources :=
  if answers.startup ≠ 0 then ⟨0, 0, 0, 0⟩
  else if !answers.socketValid then ⟨0, 0, 0, 1⟩
  else if !answers.connected ∨ answers.credentials ≠ .SEC_E_OK then ⟨0, 0, 1, 1⟩
  else if answers.passes.head?.any fun it => SEC_SUCCESS it.reply.status then ⟨1, 1, 1, 1⟩
  else ⟨0, 1, 1, 1⟩

/-- Everything acquired was given back once. -/
structure Resources.GivenBack (acquired released : Resources) : Prop where
  context : acquired.context = 1 → released.context = 1
  credentials : released.credentials = acquired.credentials
  sock : released.sock = acquired.sock
  winsock : released.winsock = acquired.winsock

/-- The result reports what happened: it is 0 exactly if the handshake completed and the sizes are
set, and otherwise negative with everything given back. -/
structure Connection.Reports (t : Connection) (completed : Prop) (acquired : Resources) : Prop where
  zero_iff : t.result = 0 ↔ completed ∧ t.sizes.isSome
  negative : t.result ≠ 0 → t.result < 0 ∧ acquired.GivenBack t.released

/-- The pass reaches `recv`. -/
def Connect.Receives (c : Connect) (it : Iteration) : Prop :=
  (it.reply.status = .SEC_I_CONTINUE_NEEDED ∧ it.unsent = 0 ∨
    it.reply.status = .SEC_E_INCOMPLETE_MESSAGE) ∧
  (c.call it.reply).socket.received ≠ TLS_MAX_PACKET_SIZE

/-- The condition on a pass: a `recv` that it reaches meets no orderly close, and if Schannel has
completed the handshake then the one `send` takes all of the token and the sizes can be read. -/
def OrderlyPass (attributes : Option StreamSizes) (c : Connect) (it : Iteration) : Prop :=
  (c.Receives it → it.recv ≠ .closed) ∧
    (it.reply.status = .SEC_E_OK → it.unsent = 0 ∧ attributes.isSome)

instance (c : Connect) (it : Iteration) : Decidable (c.Receives it) :=
  inferInstanceAs (Decidable (_ ∧ _))

instance (attributes : Option StreamSizes) (c : Connect) (it : Iteration) :
    Decidable (OrderlyPass attributes c it) :=
  inferInstanceAs (Decidable (_ ∧ _))

/-- The condition on a call: if the loop is reached, every pass is orderly. -/
def ConnectAnswers.Orderly (answers : ConnectAnswers) (incoming : List UInt8) : Prop :=
  answers.Ready →
    EachStep Connect.step (OrderlyPass answers.attributes) (.start incoming) answers.passes

end Win32Experiments.SecureSocket
