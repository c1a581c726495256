import Win32Experiments.SecureSocket.HandshakeTheorems
import Win32Experiments.SecureSocket.Read

/-!
# Post-handshake messages in `tls_read`

A server that speaks TLS 1.3 sends session tickets among its records. `DecryptMessage` hands one on
as `SEC_I_RENEGOTIATE`, `InitializeSecurityContext` consumes it, and `tls_read` keeps what followed
it; it asserts that something did.
-/

namespace Win32Experiments.SecureSocket

open Foundation Sspi Winsock

variable {Ctx : Type}

/-- A reader in its loop that comes to a ticket with `rest` behind it. -/
structure Reader.AtTicket (r : Reader Ctx) (l : Locals) (ticket : Ticket) (rest : List UInt8) :
    Prop where
  size : l.size ≠ 0
  decrypted : r.socket.decrypted = none
  cBuffers : r.socket.sizes.cBuffers = 4
  length_incoming : r.socket.incoming.length = TLS_MAX_PACKET_SIZE
  received_le : r.socket.received ≤ TLS_MAX_PACKET_SIZE
  buffered : r.socket.buffered = ticket.cipher ++ rest

/-- The loop goes on, and `incoming` holds what followed the ticket. -/
structure Reader.Survives (r : Reader Ctx) (l : Locals) (rest : List UInt8) : Prop where
  control : r.control = .looping l
  received : r.socket.received = rest.length
  buffered : r.socket.buffered = rest

variable {sch : Schannel Ctx} {next : Ctx → Option Ticket} {r : Reader Ctx} {l : Locals}
  {ticket : Ticket} {rest : List UInt8}

/-- The ticket is not empty, so there is something to decrypt. -/
theorem length_ticket_pos (ticket : Ticket) : 0 < ticket.cipher.length := by
  rw [← ticket.length_image]
  by_contra hzero
  have hnil : ticket.image = [] := List.length_eq_zero_iff.mp (by omega)
  have hsixth := ticket.new_session_ticket
  rw [hnil] at hsixth
  contradiction

theorem length_atTicket (h : r.AtTicket l ticket rest) :
    r.socket.received = ticket.image.length + rest.length := by
  have hlen : r.socket.buffered.length = r.socket.received := by
    apply length_buffered
    rw [h.length_incoming]
    exact h.received_le
  rw [← hlen, h.buffered, List.length_append, ticket.length_image]

/-- `incoming` when `DecryptMessage` has decrypted the ticket in place. -/
theorem window_decrypted (h : r.AtTicket l ticket rest) :
    window (store r.socket.incoming 0 (ticket.image ++ rest)) 0 r.socket.received
      = ticket.image ++ rest := by
  rw [length_atTicket h, ← List.length_append]
  exact window_store_self (Nat.zero_le _)

/-- The iteration leads to `InitializeSecurityContext`, with the decrypted ticket as its token. -/
theorem iterate_atTicket (hT : TicketContract sch next) (hnext : next r.ctx = some ticket)
    (h : r.AtTicket l ticket rest) :
    ∃ reply ctx', sch.decryptMessage r.ctx (ticket.cipher ++ rest) = (reply, ctx') ∧
      r.iterate sch l = Reader.renegotiate sch
        { r with
          ctx := ctx'
          socket := { r.socket with
            incoming := store r.socket.incoming 0 (ticket.image ++ rest) } } l reply.buffers := by
  rcases hcall : sch.decryptMessage r.ctx (ticket.cipher ++ rest) with ⟨reply, ctx'⟩
  obtain ⟨hstatus, hblock, -⟩ := hT.decrypted _ _ _ _ _ hnext hcall
  have hreceived : r.socket.received ≠ 0 := by
    have hpos := length_ticket_pos ticket
    have hlen := length_atTicket h
    rw [ticket.length_image] at hlen
    omega
  refine ⟨reply, ctx', rfl, ?_⟩
  simp only [Reader.iterate, Reader.decrypt, h.size, h.decrypted, h.cBuffers, h.buffered, hcall,
    hstatus, hblock, hreceived, ne_eq, not_true_eq_false, not_false_eq_true, if_false, if_true]

/-- The sixth byte of the decrypted ticket. -/
theorem sixth_decrypted (incoming : List UInt8) (ticket : Ticket) (rest : List UInt8) :
    (store incoming 0 (ticket.image ++ rest))[0 + 5]? = some 0x04 := by
  obtain ⟨hlen, hsixth⟩ := List.getElem?_eq_some_iff.mp ticket.new_session_ticket
  rw [store, List.take_zero, List.nil_append, List.append_assoc, Nat.zero_add,
    List.getElem?_append_left hlen, ticket.new_session_ticket]

/-- **Tickets.** The reader survives a ticket and keeps what followed it exactly if something
did. -/
theorem survives_iff (hT : TicketContract sch next) (hnext : next r.ctx = some ticket)
    (h : r.AtTicket l ticket rest) : (r.iterate sch l).Survives l rest ↔ rest ≠ [] := by
  obtain ⟨reply, ctx', hcall, hiterate⟩ := iterate_atTicket hT hnext h
  obtain ⟨-, -, hextra⟩ := hT.decrypted _ _ _ _ _ hnext hcall
  have hreceived := length_atTicket h
  have htoken : window (store r.socket.incoming 0 (ticket.image ++ rest)) 0
      (ticket.image ++ rest).length = ticket.image ++ rest := window_store_self (Nat.zero_le _)
  rcases hisc : sch.initializeSecurityContext ctx' (ticket.image ++ rest) with ⟨isc, ctx''⟩
  obtain ⟨hfollowed, halone⟩ := hT.consumed _ _ _ _ _ _ _ hnext hcall hisc
  rw [hiterate, Reader.renegotiate]
  simp only [hextra, ne_eq, not_true_eq_false, if_false, sixth_decrypted, htoken, hisc]
  by_cases hrest : rest = []
  · -- the second buffer is left empty, which the assertion does not expect
    refine iff_of_false (fun hsurvives => ?_) (not_not.mpr hrest)
    have hcontrol := hsurvives.control
    simp [halone hrest, SecBuffer.empty] at hcontrol
  · refine iff_of_true ?_ hrest
    obtain ⟨htype, hcb⟩ := hfollowed hrest
    have hused : r.socket.received - isc.second.cbBuffer = ticket.image.length := by omega
    have hleft : r.socket.received - ticket.image.length = rest.length := by omega
    rw [if_neg (by simp [htype]), hused, hleft]
    refine ⟨rfl, rfl, ?_⟩
    show window (moveFront (store r.socket.incoming 0 (ticket.image ++ rest)) ticket.image.length
      rest.length) 0 rest.length = rest
    have hroom : ticket.image.length + rest.length
        ≤ (store r.socket.incoming 0 (ticket.image ++ rest)).length := by
      have hlen := h.length_incoming
      have hle := h.received_le
      rw [length_store (by rw [List.length_append]; omega)]
      omega
    have hbehind : window (window (store r.socket.incoming 0 (ticket.image ++ rest)) 0
        r.socket.received) ticket.image.length rest.length = rest := by
      rw [window_decrypted h, window_append_right]
    rw [window_moveFront hroom]
    rwa [window_window (by omega), Nat.zero_add] at hbehind

/-- A ticket of six bytes. -/
def shortTicket : Ticket where
  cipher := [23, 3, 3, 0, 1, 90]
  image := [23, 3, 3, 0, 1, 4]
  length_image := rfl
  new_session_ticket := rfl

/-- A context that takes the first six bytes of every block for the ticket. -/
def ticketFirst : Schannel Unit where
  decryptMessage ctx block :=
    (⟨.SEC_I_RENEGOTIATE, shortTicket.image ++ block.drop 6,
      #v[.empty, .empty, .empty, ⟨.SECBUFFER_EXTRA, block.length, 0⟩]⟩, ctx)
  initializeSecurityContext ctx token :=
    (⟨.SEC_E_OK, 6,
      if token.drop 6 = [] then .empty else ⟨.SECBUFFER_EXTRA, (token.drop 6).length, 6⟩, []⟩, ctx)

theorem ticketFirst_contract : TicketContract ticketFirst fun _ => some shortTicket where
  decrypted := by
    rintro ctx _ rest reply ctx' ⟨rfl⟩ hcall
    obtain ⟨rfl, -⟩ := Prod.mk.inj hcall
    exact ⟨rfl, rfl, rfl⟩
  consumed := by
    rintro ctx _ rest reply ctx' isc ctx'' ⟨rfl⟩ - hcall
    obtain ⟨rfl, -⟩ := Prod.mk.inj hcall
    have hdrop : (shortTicket.image ++ rest).drop 6 = rest := rfl
    dsimp only
    rw [hdrop]
    constructor
    · intro hne
      rw [if_neg hne]
      exact ⟨rfl, rfl⟩
    · intro hnil
      rw [if_pos hnil]

/-- A reader whose buffer starts with the ticket. -/
def ticketReader (rest : List UInt8) : Reader Unit :=
  { Reader.start ⟨5, 16, 16384, 4⟩ () zeroed with
    socket := { TlsSocket.start zeroed with sizes := ⟨5, 16, 16384, 4⟩ }.append
      (shortTicket.cipher ++ rest)
    control := .looping ⟨10, 0, []⟩ }

theorem survives_followedTicket :
    ((ticketReader [23, 3]).iterate ticketFirst ⟨10, 0, []⟩).Survives ⟨10, 0, []⟩ [23, 3] := by
  have hzeroed : zeroed.length = TLS_MAX_PACKET_SIZE := List.length_replicate
  have hlen : (ticketReader [23, 3]).socket.incoming.length = TLS_MAX_PACKET_SIZE := by
    refine (length_incoming_append ?_).trans hzeroed
    show 0 + 8 ≤ zeroed.length
    rw [hzeroed]
    decide
  have hticket : (ticketReader [23, 3]).AtTicket ⟨10, 0, []⟩ shortTicket [23, 3] :=
    ⟨by decide, rfl, rfl, hlen, by decide, by decide⟩
  exact (survives_iff ticketFirst_contract rfl hticket).mpr (by decide)

/-- When the ticket is all that `recv` gave, the assertion fails. -/
theorem loneTicket_counterexample :
    (ticketReader []).socket.buffered = shortTicket.cipher ∧
      ((ticketReader []).iterate ticketFirst ⟨10, 0, []⟩).control = .asserted ∧
      ¬ ((ticketReader []).iterate ticketFirst ⟨10, 0, []⟩).Survives ⟨10, 0, []⟩ [] := by
  have hcontrol : ((ticketReader []).iterate ticketFirst ⟨10, 0, []⟩).control = .asserted := rfl
  refine ⟨by decide, hcontrol, fun h => ?_⟩
  have hlooping := h.control
  rw [hcontrol] at hlooping
  contradiction

end Win32Experiments.SecureSocket
