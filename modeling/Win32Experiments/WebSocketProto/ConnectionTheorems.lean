import Win32Experiments.WebSocketProto.Connection

/-!
# The object and its handles

While the status is `Connected` the WebSocket handle is live, after every sequence of calls.
The other two promises have one exception each: an error of `WinHttpWebSocketReceive` leaves
the status at `Connected`, and a `Connect` that completes the upgrade drops its request handle
without closing it.
-/

namespace Win32Experiments.WebSocketProto

open Foundation

/-! ## Statements -/

/-- While the status is `Connected`, the WebSocket handle is live. -/
def ConnectedLive (c : Connection) : Prop :=
  c.m_status = .Connected → ∃ h, c.m_hWebSocketHandle = some h ∧ c.handles.Live h

/-- No call in which WinHTTP failed has left the status at `Connected`. -/
def FailuresDisconnect (c : Connection) : Prop :=
  ∀ status ∈ c.failures, status ≠ .Connected

/-- Every handle obtained was closed exactly once by the time the object was destroyed. -/
def ClosedByDestruction (c : Connection) : Prop :=
  c.destroyed = true → c.handles.EachClosedOnce

/-- `WinHttpWebSocketReceive` does not fail. -/
def ReceiveSucceeds (_ : Connection) : ConnectionEvent → Prop
  | .receive (.reply (.error _)) _ => False
  | _ => True

/-- Every WinHTTP call of the `Connect` succeeds. -/
def ConnectAnswers.Complete (a : ConnectAnswers) (ignoreSslErrors : Bool) : Prop :=
  a.open = .succeeded ∧ a.connect = .succeeded ∧ a.openRequest = .succeeded ∧
    ∀ answer ∈ a.onRequest ignoreSslErrors, answer = .succeeded

/-- A `Connect` of a new object does not complete the upgrade. -/
def UpgradeFails (c : Connection) : ConnectionEvent → Prop
  | .connect a => c.m_status = .NotInitialised → ¬ a.Complete c.m_ignoreSslErrors
  | _ => True

/-! ## Answers -/

theorem firstFailure_eq_none {l : List Answer} :
    firstFailure l = none ↔ ∀ answer ∈ l, answer = .succeeded := by
  induction l with
  | nil => simp [firstFailure]
  | cons answer l ih =>
    cases answer with
    | succeeded => simp [firstFailure, ih]
    | failed lastError => simp [firstFailure]

/-- The calls on a null handle do not all succeed. -/
theorem firstFailure_on_none (a : ConnectAnswers) (ignoreSslErrors : Bool) :
    firstFailure ((a.onRequest ignoreSslErrors).map (·.on none)) ≠ none := by
  rw [Ne, firstFailure_eq_none]
  intro h
  have hmem : a.upgrade.on none ∈ (a.onRequest ignoreSslErrors).map (·.on none) := by
    apply List.mem_map_of_mem
    simp [ConnectAnswers.onRequest]
  have hfailed := h _ hmem
  contradiction

/-- On a live handle they succeed when the transport says so. -/
theorem firstFailure_on_some (a : ConnectAnswers) (ignoreSslErrors : Bool) (r : ℕ) :
    firstFailure ((a.onRequest ignoreSslErrors).map (·.on (some r))) = none
      ↔ ∀ answer ∈ a.onRequest ignoreSslErrors, answer = .succeeded := by
  rw [firstFailure_eq_none, List.forall_mem_map]
  rfl

/-- What a call yields is accounted for. -/
theorem accounts_yield {hs : Handles} {held : List ℕ} (ha : hs.Accounts held) (a : Answer) :
    (a.yield hs).2.Accounts ((a.yield hs).1.toList ++ held) := by
  cases a with
  | succeeded => exact ha.create
  | failed lastError => exact ha

namespace Connection

variable {c d : Connection}

/-! ## Calls that leave the handles alone -/

/-- `d` is `c` with another record and status, and the status is not a new `Connected`. -/
structure Keeps (c d : Connection) : Prop where
  connect : d.m_hConnect = c.m_hConnect
  session : d.m_hSession = c.m_hSession
  webSocket : d.m_hWebSocketHandle = c.m_hWebSocketHandle
  ignore : d.m_ignoreSslErrors = c.m_ignoreSslErrors
  destroyed : d.destroyed = c.destroyed
  handles : d.handles = c.handles
  status : d.m_status = c.m_status ∨ d.m_status = .Error ∨ d.m_status = .Closed

theorem Keeps.members (h : Keeps c d) : d.members = c.members := by
  rw [Connection.members, h.webSocket, h.session, h.connect, Connection.members]

/-- Where `d` is neither in error nor closed, `c` had its status. -/
theorem Keeps.m_status_eq (h : Keeps c d) (herror : d.m_status ≠ .Error)
    (hclosed : d.m_status ≠ .Closed) : c.m_status = d.m_status := by
  rcases h.status with heq | heq | heq
  · exact heq.symm
  · exact absurd heq herror
  · exact absurd heq hclosed

theorem keeps_throwing (what : String) : Keeps c (c.throwing what) :=
  ⟨rfl, rfl, rfl, rfl, rfl, rfl, Or.inl rfl⟩

theorem keeps_failWith (lastError : ℕ) : Keeps c (c.failWith lastError) :=
  ⟨rfl, rfl, rfl, rfl, rfl, rfl, Or.inr (Or.inl rfl)⟩

theorem keeps_send (type : BufferType) (data : List UInt8) (a : Answer) :
    Keeps c (c.send type data a) := by
  unfold send
  split
  · exact keeps_throwing _
  · split
    · exact ⟨rfl, rfl, rfl, rfl, rfl, rfl, Or.inl rfl⟩
    · exact keeps_failWith _

/-- A close of the WebSocket changes the record only. -/
theorem keeps_recordClose (a : Answer) : Keeps c (c.recordClose a) := by
  unfold recordClose
  split <;> exact ⟨rfl, rfl, rfl, rfl, rfl, rfl, Or.inl rfl⟩

@[simp] theorem socket_recordClose (a : Answer) : (c.recordClose a).socket = c.socket := by
  unfold recordClose
  split <;> rfl

@[simp] theorem m_status_recordClose (a : Answer) : (c.recordClose a).m_status = c.m_status :=
  congrArg WinHttpWebSocket.status (socket_recordClose a)

theorem m_status_close (a : Answer) : (c.close a).m_status = .Closed := by
  rw [close, m_status_recordClose]
  rfl

theorem keeps_close (a : Answer) : Keeps c (c.close a) := by
  have h := keeps_recordClose (c := c.setStatus .Closed) a
  exact ⟨h.connect, h.session, h.webSocket, h.ignore, h.destroyed, h.handles,
    Or.inr (Or.inr (m_status_close a))⟩

/-! ## Steps of `Receive` -/

/-- A call of `Receive` is in progress only while the status is `Connected`. -/
def ReceivingConnected (s : WinHttpWebSocket) : Prop :=
  s.receiving ≠ none → s.status = .Connected

/-- The end of a call leaves none in progress. -/
theorem receivingConnected_finish (s : WinHttpWebSocket) (r : Receiving) (outcome : Outcome) :
    ReceivingConnected (s.finish r outcome) := by
  intro h
  exact absurd rfl h

theorem receivingConnected_step {s t : WinHttpWebSocket} {e : Event} (h : s.step e = some t)
    (hs : ReceivingConnected s) : ReceivingConnected t := by
  rcases WinHttpWebSocket.step_cases h with ⟨-, hr, charBuffer, rfl⟩ | ⟨reply, r, -, hr, rfl⟩
  · unfold WinHttpWebSocket.receive
    by_cases hstatus : s.status = .Connected
    · rw [if_neg (not_not.mpr hstatus)]
      intro _
      exact hstatus
    · rw [if_pos hstatus]
      intro hne
      exact absurd hr hne
  · have hconnected : s.status = .Connected := hs (by rw [hr]; exact Option.some_ne_none r)
    cases reply with
    | error lastError => exact receivingConnected_finish _ _ _
    | received bytes type =>
      unfold WinHttpWebSocket.reply
      dsimp only
      split
      · exact receivingConnected_finish _ _ _
      · split
        · intro _
          exact hconnected
        · exact receivingConnected_finish _ _ _

/-- A step of `Receive` closes the socket, or leaves the status as it is. -/
theorem status_step {s t : WinHttpWebSocket} {e : Event} (h : s.step e = some t) :
    t.status = s.status ∨ t.status = .Closed := by
  rcases WinHttpWebSocket.step_cases h with ⟨-, -, charBuffer, rfl⟩ | ⟨reply, r, -, -, rfl⟩
  · unfold WinHttpWebSocket.receive
    split <;> exact Or.inl rfl
  · cases reply with
    | error lastError => exact Or.inl rfl
    | received bytes type =>
      unfold WinHttpWebSocket.reply
      dsimp only
      split
      · exact Or.inr rfl
      · split <;> exact Or.inl rfl

/-- A reply comes while a call is in progress; an error leaves the status as it is, and a close
buffer closes the socket. -/
theorem receiving_of_reply {s t : WinHttpWebSocket} {reply : Reply}
    (h : s.step (.reply reply) = some t) :
    s.receiving ≠ none ∧ (∀ lastError, reply = .error lastError → t.status = s.status) ∧
      ∀ bytes, reply = .received bytes .close → t.status = .Closed := by
  rcases WinHttpWebSocket.step_cases h with ⟨heq, -, -⟩ | ⟨reply', r, heq, hr, rfl⟩
  · contradiction
  · obtain rfl : reply = reply' := Event.reply.inj heq
    rw [hr]
    refine ⟨Option.some_ne_none r, ?_, ?_⟩
    · rintro lastError rfl
      rfl
    · rintro bytes rfl
      rfl

theorem keeps_received {e : Event} {a : Answer} {socket : WinHttpWebSocket}
    (h : c.socket.step e = some socket) : Keeps c (c.received e a socket) := by
  have hstatus : socket.status = c.m_status ∨ socket.status = .Error ∨ socket.status = .Closed :=
    (status_step h).imp_right Or.inr
  unfold received
  cases e with
  | receive => exact ⟨rfl, rfl, rfl, rfl, rfl, rfl, hstatus⟩
  | reply reply =>
    cases reply with
    | error lastError => exact ⟨rfl, rfl, rfl, rfl, rfl, rfl, hstatus⟩
    | received bytes type =>
      dsimp only
      split
      · have hk := keeps_recordClose (c := { c with socket := socket }) a
        refine ⟨hk.connect, hk.session, hk.webSocket, hk.ignore, hk.destroyed, hk.handles, ?_⟩
        rw [m_status_recordClose]
        exact hstatus
      · exact ⟨rfl, rfl, rfl, rfl, rfl, rfl, hstatus⟩

/-! ## `InternalConnect` -/

/-- `Connect` has completed the upgrade: it has dropped its request handle. -/
structure Upgraded (c d : Connection) : Prop where
  dropped : ∃ r, d.handles.Accounts (r :: d.members)
  status : d.m_status = .Connected
  webSocket : d.m_hWebSocketHandle ≠ none
  failures : d.failures = c.failures

/-- `Connect` has failed in a WinHTTP call. -/
structure Refused (c d : Connection) : Prop where
  accounts : d.handles.Accounts d.members
  status : d.m_status = .Error ∨ d.m_status = .NotInitialised ∧ d.members = []
  failures : d.failures = c.failures ++ [d.m_status]

theorem members_eq_nil : c.members = [] ↔
    c.m_hWebSocketHandle = none ∧ c.m_hSession = none ∧ c.m_hConnect = none := by
  simp [Connection.members]

/-- With the request handle live, the calls on it decide. -/
theorem upgraded_upgradeRequest (hws : c.m_hWebSocketHandle = none) {r : ℕ}
    (hacc : c.handles.Accounts (r :: c.members)) {a : ConnectAnswers}
    (hall : ∀ answer ∈ a.onRequest c.m_ignoreSslErrors, answer = .succeeded) :
    Upgraded c (c.upgradeRequest (some r) a) := by
  have hlast : a.completeUpgrade = .succeeded := hall _ (by simp [ConnectAnswers.onRequest])
  unfold upgradeRequest
  rw [(firstFailure_on_some a c.m_ignoreSslErrors r).mpr hall, hlast]
  constructor
  · refine ⟨r, ?_⟩
    apply hacc.create.perm
    show (c.handles.opened :: r :: c.members).Perm
      (r :: ([c.handles.opened] ++ c.m_hSession.toList ++ c.m_hConnect.toList))
    rw [Connection.members, hws]
    exact List.Perm.swap _ _ _
  · rfl
  · exact Option.some_ne_none _
  · rfl

/-- Otherwise the request handle is closed on the way out. -/
theorem refused_upgradeRequest {request : Option ℕ}
    (hacc : c.handles.Accounts (request.toList ++ c.members)) {a : ConnectAnswers}
    (hsome : ∀ r ∈ request, ¬ ∀ answer ∈ a.onRequest c.m_ignoreSslErrors, answer = .succeeded) :
    Refused c (c.upgradeRequest request a) := by
  unfold upgradeRequest
  cases hfirst : firstFailure ((a.onRequest c.m_ignoreSslErrors).map (·.on request)) with
  | none =>
    cases request with
    | none => exact absurd hfirst (firstFailure_on_none a _)
    | some r => exact absurd ((firstFailure_on_some a _ r).mp hfirst) (hsome r rfl)
  | some lastError => exact ⟨hacc.closeAll, Or.inl rfl, rfl⟩

theorem yield_succeeded (handles : Handles) :
    Answer.succeeded.yield handles = (some handles.opened, handles.create) := rfl

theorem upgraded_internalConnect (hnew : c.m_status = .NotInitialised) (hmem : c.members = [])
    (hacc : c.handles.Accounts []) {a : ConnectAnswers} (ha : a.Complete c.m_ignoreSslErrors) :
    Upgraded c (c.internalConnect a) := by
  obtain ⟨hopen, hconnect, hrequest, hall⟩ := ha
  obtain ⟨hws, -, -⟩ := members_eq_nil.mp hmem
  unfold internalConnect
  rw [if_neg (not_not.mpr hnew), hopen, hconnect, hrequest]
  have hup := @upgraded_upgradeRequest
    { c with
      m_hSession := some c.handles.opened
      m_hConnect := some c.handles.create.opened
      handles := c.handles.create.create.create }
    hws c.handles.create.create.opened ?_ a hall
  · exact ⟨hup.dropped, hup.status, hup.webSocket, hup.failures⟩
  · apply hacc.create.create.create.perm
    rw [Connection.members, hws]
    exact List.Perm.cons _ (List.Perm.swap _ _ _)

theorem refused_internalConnect (hnew : c.m_status = .NotInitialised) (hmem : c.members = [])
    (hacc : c.handles.Accounts []) {a : ConnectAnswers} (ha : ¬ a.Complete c.m_ignoreSslErrors) :
    Refused c (c.internalConnect a) := by
  obtain ⟨hws, -, hcon⟩ := members_eq_nil.mp hmem
  unfold internalConnect
  rw [if_neg (not_not.mpr hnew)]
  have hsession := accounts_yield hacc a.open
  cases hopen : a.open with
  | failed lastError =>
    refine ⟨?_, Or.inr ⟨hnew, ?_⟩, rfl⟩
    · show c.handles.Accounts (c.m_hWebSocketHandle.toList ++ [] ++ c.m_hConnect.toList)
      rw [hws, hcon]
      exact hacc
    · exact members_eq_nil.mpr ⟨hws, rfl, hcon⟩
  | succeeded =>
    rw [hopen, List.append_nil] at hsession
    rw [yield_succeeded] at hsession ⊢
    dsimp only at hsession ⊢
    rw [if_neg (Option.some_ne_none _)]
    generalize hyc : (a.connect.on (some c.handles.opened)).yield c.handles.create = yc
    have hconnect := accounts_yield hsession (a.connect.on (some c.handles.opened))
    rw [hyc] at hconnect
    generalize hyr : (a.openRequest.on yc.1).yield yc.2 = yr
    have hrequest := accounts_yield hconnect (a.openRequest.on yc.1)
    rw [hyr] at hrequest
    have href := @refused_upgradeRequest
      { c with m_hSession := some c.handles.opened, m_hConnect := yc.1, handles := yr.2 }
      yr.1 ?_ a ?_
    · exact ⟨href.accounts, href.status, href.failures⟩
    · apply hrequest.perm
      apply List.Perm.append_left
      rw [Connection.members, hws]
      exact List.perm_append_comm
    · -- a live request handle: the two calls before it have succeeded
      intro r hr hall
      apply ha
      refine ⟨hopen, ?_, ?_, hall⟩
      · cases hconn : a.connect with
        | succeeded => rfl
        | failed lastError =>
          rw [hconn] at hyc
          rw [← hyc] at hyr
          rw [← hyr] at hr
          contradiction
      · cases hreq : a.openRequest with
        | succeeded => rfl
        | failed lastError =>
          rw [hreq] at hyr
          rw [← hyr] at hr
          cases hyc1 : yc.1 with
          | none => simp [hyc1, Answer.on, Answer.yield] at hr
          | some n => simp [hyc1, Answer.on, Answer.yield] at hr

/-- What `Connect` leaves alone. -/
theorem frame_internalConnect (a : ConnectAnswers) :
    (c.internalConnect a).socket.receiving = c.socket.receiving ∧
      (c.internalConnect a).destroyed = c.destroyed ∧
      (c.internalConnect a).m_ignoreSslErrors = c.m_ignoreSslErrors := by
  unfold internalConnect upgradeRequest
  split
  · exact ⟨rfl, rfl, rfl⟩
  · dsimp only
    split
    · exact ⟨rfl, rfl, rfl⟩
    · split <;> exact ⟨rfl, rfl, rfl⟩

/-! ## The record of failures -/

/-- The call has added no failure, or one with which the status is not `Connected`. -/
def Records (c d : Connection) : Prop :=
  d.failures = c.failures ∨ ∃ status, status ≠ .Connected ∧ d.failures = c.failures ++ [status]

theorem records_send (type : BufferType) (data : List UInt8) (a : Answer) :
    Records c (c.send type data a) := by
  unfold send
  split
  · exact Or.inl rfl
  · split
    · exact Or.inl rfl
    · exact Or.inr ⟨.Error, by decide, rfl⟩

theorem records_recordClose (a : Answer) (hstatus : c.m_status ≠ .Connected) :
    Records c (c.recordClose a) := by
  unfold recordClose
  split
  · exact Or.inl rfl
  · exact Or.inr ⟨c.m_status, hstatus, rfl⟩

theorem records_close (a : Answer) : Records c (c.close a) :=
  records_recordClose a (show WinHttpWebSocketStatus.Closed ≠ .Connected by decide)

theorem Refused.records (h : Refused c d) : Records c d := by
  refine Or.inr ⟨d.m_status, ?_, h.failures⟩
  rcases h.status with hstatus | ⟨hstatus, -⟩ <;> rw [hstatus] <;> decide

/-- Such a call keeps the promise about failures as it was. -/
theorem Records.failuresDisconnect_iff (h : Records c d) :
    FailuresDisconnect d ↔ FailuresDisconnect c := by
  rcases h with heq | ⟨status, hstatus, heq⟩
  · rw [FailuresDisconnect, heq, FailuresDisconnect]
  · simp [FailuresDisconnect, heq, or_imp, forall_and, hstatus]

/-! ## Steps -/

/-- A step is a step of `Receive`, or a call while none of `Receive` is in progress. -/
theorem step_cases {e : ConnectionEvent} (h : c.step e = some d) :
    c.destroyed = false ∧
      ((∃ e' a socket, e = .receive e' a ∧ c.socket.step e' = some socket ∧
          d = c.received e' a socket) ∨
        (c.socket.receiving = none ∧ (∀ e' a, e ≠ .receive e' a) ∧ d = c.call e)) := by
  have hcall : ∀ {p : Prop} [Decidable p], (if p then some (c.call e) else none) = some d →
      p ∧ d = c.call e := by
    intro p _ hif
    rw [Option.ite_none_right_eq_some, Option.some.injEq] at hif
    exact hif.imp_right Eq.symm
  unfold step at h
  split at h
  · contradiction
  · rename_i hdestroyed
    refine ⟨by simpa using hdestroyed, ?_⟩
    cases e with
    | receive e' a =>
      obtain ⟨socket, hsocket, hd⟩ := Option.map_eq_some_iff.mp h
      exact Or.inl ⟨e', a, socket, rfl, hsocket, hd.symm⟩
    | connect a => exact Or.inr ⟨(hcall h).1, by simp, (hcall h).2⟩
    | sendString msg a => exact Or.inr ⟨(hcall h).1, by simp, (hcall h).2⟩
    | sendBuffer buffer a => exact Or.inr ⟨(hcall h).1, by simp, (hcall h).2⟩
    | close a => exact Or.inr ⟨(hcall h).1, by simp, (hcall h).2⟩
    | destroy a => exact Or.inr ⟨(hcall h).1, by simp, (hcall h).2⟩

/-- What every step keeps, with the handles in `lost` dropped so far. -/
structure Owns (c : Connection) (lost : List ℕ) : Prop where
  accounts : c.handles.Accounts (lost ++ c.members)
  receiving : ReceivingConnected c.socket
  webSocket : c.m_status = .Connected → c.m_hWebSocketHandle ≠ none
  fresh : c.m_status = .NotInitialised → lost ++ c.members = []
  gone : c.destroyed = true → c.members = []

variable {lost : List ℕ}

theorem owns_new (ignoreSslErrors : Bool) : (Connection.new ignoreSslErrors).Owns [] where
  accounts := Handles.accounts_empty
  receiving := fun h => absurd rfl h
  webSocket := fun h => by contradiction
  fresh := fun _ => rfl
  gone := fun _ => rfl

theorem Owns.keeps (hc : c.Owns lost) (h : Keeps c d) (hd : ReceivingConnected d.socket) :
    d.Owns lost where
  accounts := by
    rw [h.handles, h.members]
    exact hc.accounts
  receiving := hd
  webSocket := by
    intro hconnected
    rw [h.webSocket]
    apply hc.webSocket
    rw [h.m_status_eq (by rw [hconnected]; decide) (by rw [hconnected]; decide), hconnected]
  fresh := by
    intro hnew
    rw [h.members]
    apply hc.fresh
    rw [h.m_status_eq (by rw [hnew]; decide) (by rw [hnew]; decide), hnew]
  gone := by
    rw [h.destroyed, h.members]
    exact hc.gone

/-- A new object has opened nothing. -/
theorem Owns.new (hc : c.Owns lost) (hnew : c.m_status = .NotInitialised) :
    lost = [] ∧ c.members = [] ∧ c.handles.Accounts [] := by
  obtain ⟨hlost, hmem⟩ := List.append_eq_nil_iff.mp (hc.fresh hnew)
  refine ⟨hlost, hmem, ?_⟩
  rw [← hc.fresh hnew]
  exact hc.accounts

/-- A call while no `Receive` is in progress. -/
theorem Owns.keeps_idle (hc : c.Owns lost) (h : Keeps c d) (hidle : c.socket.receiving = none)
    (hrecv : d.socket.receiving = c.socket.receiving) : d.Owns lost := by
  apply hc.keeps h
  intro hne
  exact absurd (hrecv.trans hidle) hne

theorem receiving_close (a : Answer) : (c.close a).socket.receiving = c.socket.receiving := by
  rw [close, socket_recordClose]
  rfl

theorem receiving_send (type : BufferType) (data : List UInt8) (a : Answer) :
    (c.send type data a).socket.receiving = c.socket.receiving := by
  unfold send
  split
  · rfl
  · split <;> rfl

/-- The destructor closes the handles of the members. -/
theorem Owns.destroy (hc : c.Owns lost) (hidle : c.socket.receiving = none) (a : Answer) :
    (c.destroy a).Owns lost where
  accounts := by
    have hk : Keeps c (c.close a) := keeps_close a
    have hperm := hc.accounts.perm List.perm_append_comm
    have hclosed := hperm.closeAll
    rw [← hk.handles, ← hk.members] at hclosed
    show ((c.close a).handles.closeAll (c.close a).members).Accounts (lost ++ [])
    rw [List.append_nil]
    exact hclosed
  receiving := by
    intro hne
    exact absurd ((receiving_close a).trans hidle) hne
  webSocket := by
    intro hconnected
    have hstatus : (c.destroy a).m_status = .Closed := m_status_close a
    rw [hstatus] at hconnected
    contradiction
  fresh := by
    intro hnew
    have hstatus : (c.destroy a).m_status = .Closed := m_status_close a
    rw [hstatus] at hnew
    contradiction
  gone := fun _ => rfl

/-- While the status is `Connected`, the WebSocket handle is among those owned. -/
theorem Owns.connectedLive (hc : c.Owns lost) : ConnectedLive c := by
  intro hconnected
  obtain ⟨h, hh⟩ := Option.ne_none_iff_exists'.mp (hc.webSocket hconnected)
  refine ⟨h, hh, hc.accounts.live ?_⟩
  simp [Connection.members, hh]

/-- A destroyed object has closed all but what it dropped. -/
theorem Owns.eachClosedOnce_iff (hc : c.Owns lost) (hgone : c.destroyed = true) :
    c.handles.EachClosedOnce ↔ lost = [] := by
  have hacc := hc.accounts
  rw [hc.gone hgone, List.append_nil] at hacc
  exact hacc.eachClosedOnce_iff

/-- Behind a step of `Receive` its machine has made that step. -/
theorem socket_received (e : Event) (a : Answer) (socket : WinHttpWebSocket) :
    (c.received e a socket).socket = socket := by
  unfold Connection.received
  cases e with
  | receive => rfl
  | reply reply =>
    cases reply with
    | error lastError => rfl
    | received bytes type =>
      dsimp only
      split
      · exact socket_recordClose a
      · rfl

/-- A step of `Receive` keeps what the object owns. -/
theorem Owns.received (hc : c.Owns lost) {e : Event} {a : Answer} {socket : WinHttpWebSocket}
    (h : c.socket.step e = some socket) : (c.received e a socket).Owns lost := by
  apply hc.keeps (keeps_received h)
  rw [socket_received]
  exact receivingConnected_step h hc.receiving

/-- `Connect` keeps what the object owns when it does not complete the upgrade. -/
theorem Owns.internalConnect (hc : c.Owns lost) (halive : c.destroyed = false)
    (hidle : c.socket.receiving = none) {a : ConnectAnswers} (ha : UpgradeFails c (.connect a)) :
    (c.internalConnect a).Owns lost := by
  obtain ⟨hrecv, hdestroyed, -⟩ := frame_internalConnect (c := c) a
  have hrecv' : ReceivingConnected (c.internalConnect a).socket := by
    intro hne
    exact absurd (hrecv.trans hidle) hne
  by_cases hnew : c.m_status = .NotInitialised
  · obtain ⟨hlost, hmem, hacc⟩ := hc.new hnew
    have href := refused_internalConnect hnew hmem hacc (ha hnew)
    subst hlost
    refine ⟨href.accounts, hrecv', ?_, ?_, ?_⟩
    · intro hconnected
      rcases href.status with hstatus | ⟨hstatus, -⟩ <;> rw [hstatus] at hconnected <;>
        contradiction
    · intro hstill
      rcases href.status with hstatus | ⟨-, hnil⟩
      · rw [hstatus] at hstill
        contradiction
      · exact hnil
    · intro hgone
      rw [hdestroyed, halive] at hgone
      contradiction
  · have heq : c.internalConnect a =
        c.throwing "WebSocket needs to be in NotInitialised state to connect" := if_pos hnew
    rw [heq] at hrecv' ⊢
    exact hc.keeps (keeps_throwing _) hrecv'

/-- A `Connect` that completes the upgrade drops its request handle. -/
theorem Owns.internalConnect_complete (hc : c.Owns lost) (halive : c.destroyed = false)
    {a : ConnectAnswers} (ha : ¬ UpgradeFails c (.connect a)) :
    Upgraded c (c.internalConnect a) ∧ ∃ r, (c.internalConnect a).Owns [r] := by
  obtain ⟨hnew, hcomplete⟩ := Classical.not_imp.mp ha
  rw [not_not] at hcomplete
  obtain ⟨-, hmem, hacc⟩ := hc.new hnew
  have hup := upgraded_internalConnect hnew hmem hacc hcomplete
  obtain ⟨-, hdestroyed, -⟩ := frame_internalConnect (c := c) a
  obtain ⟨r, hr⟩ := hup.dropped
  refine ⟨hup, r, hr, fun _ => hup.status, fun _ => hup.webSocket, ?_, ?_⟩
  · intro hnew'
    rw [hup.status] at hnew'
    contradiction
  · intro hgone
    rw [hdestroyed, halive] at hgone
    contradiction

/-- A step whose `Connect` does not complete the upgrade keeps what the object owns. -/
theorem Owns.step (hc : c.Owns lost) {e : ConnectionEvent} (h : c.step e = some d)
    (he : UpgradeFails c e) : d.Owns lost := by
  obtain ⟨halive, hstep⟩ := step_cases h
  rcases hstep with ⟨e', a, socket, rfl, hsocket, rfl⟩ | ⟨hidle, hother, rfl⟩
  · exact hc.received hsocket
  · cases e with
    | connect a => exact hc.internalConnect halive hidle he
    | sendString msg a => exact hc.keeps_idle (keeps_send _ _ _) hidle (receiving_send _ _ _)
    | sendBuffer buffer a => exact hc.keeps_idle (keeps_send _ _ _) hidle (receiving_send _ _ _)
    | receive e' a => exact absurd rfl (hother e' a)
    | close a => exact hc.keeps_idle (keeps_close a) hidle (receiving_close a)
    | destroy a => exact hc.destroy hidle a

/-- The one step that drops a handle. -/
theorem Owns.step_complete (hc : c.Owns lost) {e : ConnectionEvent} (h : c.step e = some d)
    (he : ¬ UpgradeFails c e) : ∃ r, d.Owns [r] := by
  obtain ⟨halive, hstep⟩ := step_cases h
  cases e with
  | connect a =>
    rcases hstep with ⟨e', a', socket, heq, -, -⟩ | ⟨-, -, rfl⟩
    · contradiction
    · exact (hc.internalConnect_complete halive he).2
  | sendString msg a => exact absurd trivial he
  | sendBuffer buffer a => exact absurd trivial he
  | receive e' a => exact absurd trivial he
  | close a => exact absurd trivial he
  | destroy a => exact absurd trivial he

/-- A step of `Receive` records a failure under `Connected` when it gets an error. -/
theorem failuresDisconnect_received (hc : c.Owns lost) {e : Event} {a : Answer}
    {socket : WinHttpWebSocket} (h : c.socket.step e = some socket) :
    FailuresDisconnect (c.received e a socket) ↔
      FailuresDisconnect c ∧ ReceiveSucceeds c (.receive e a) := by
  unfold received
  cases e with
  | receive => exact (and_iff_left trivial).symm
  | reply reply =>
    obtain ⟨hne, herror, hclose⟩ := receiving_of_reply h
    cases reply with
    | error lastError =>
      have hstatus : socket.status = .Connected :=
        (herror lastError rfl).trans (hc.receiving hne)
      simp [recordFailure, FailuresDisconnect, ReceiveSucceeds, Connection.m_status, hstatus]
    | received bytes type =>
      have hrecords : Records c
          (if type = .close then ({ c with socket := socket } : Connection).recordClose a
            else { c with socket := socket }) := by
        split
        · rename_i htype
          apply records_recordClose (c := { c with socket := socket })
          rw [Connection.m_status, hclose bytes (by rw [htype])]
          decide
        · exact Or.inl rfl
      rw [hrecords.failuresDisconnect_iff]
      exact (and_iff_left trivial).symm

theorem failuresDisconnect_step (hc : c.Owns lost) {e : ConnectionEvent} (h : c.step e = some d) :
    FailuresDisconnect d ↔ FailuresDisconnect c ∧ ReceiveSucceeds c e := by
  obtain ⟨halive, hstep⟩ := step_cases h
  rcases hstep with ⟨e', a, socket, rfl, hsocket, rfl⟩ | ⟨hidle, hother, rfl⟩
  · exact failuresDisconnect_received hc hsocket
  · have hrecords : Records c (c.call e) := by
      cases e with
      | connect a =>
        show Records c (c.internalConnect a)
        by_cases hcomplete : UpgradeFails c (.connect a)
        · by_cases hnew : c.m_status = .NotInitialised
          · obtain ⟨-, hmem, hacc⟩ := hc.new hnew
            exact (refused_internalConnect hnew hmem hacc (hcomplete hnew)).records
          · have heq : c.internalConnect a =
              c.throwing "WebSocket needs to be in NotInitialised state to connect" := if_pos hnew
            rw [heq]
            exact Or.inl rfl
        · exact Or.inl (hc.internalConnect_complete halive hcomplete).1.failures
      | sendString msg a => exact records_send _ _ _
      | sendBuffer buffer a => exact records_send _ _ _
      | receive e' a => exact absurd rfl (hother e' a)
      | close a => exact records_close a
      | destroy a => exact records_close (c := c) a
    have hsucceeds : ReceiveSucceeds c e := by
      cases e with
      | receive e' a => exact absurd rfl (hother e' a)
      | connect a => trivial
      | sendString msg a => trivial
      | sendBuffer buffer a => trivial
      | close a => trivial
      | destroy a => trivial
    rw [hrecords.failuresDisconnect_iff]
    exact (and_iff_left hsucceeds).symm

/-! ## Runs -/

/-- The object owns all it has opened, or has dropped one handle: the first when no `Connect`
completed the upgrade, the second when one did. -/
theorem owns_run {ignoreSslErrors : Bool} {es : List ConnectionEvent} {t : Connection}
    (hrun : run Connection.step (.new ignoreSslErrors) es = some t) :
    (t.Owns [] ∧ EachStep Connection.step UpgradeFails (.new ignoreSslErrors) es) ∨
      ((∃ r, t.Owns [r]) ∧
        ¬ EachStep Connection.step UpgradeFails (.new ignoreSslErrors) es) := by
  apply run_exact (K := fun _ _ => True) (fun c => c.Owns []) (fun c => ∃ r, c.Owns [r])
    _ _ _ eachStep_true hrun (owns_new ignoreSslErrors)
  · intro c e d hc _ he hstep
    exact hc.step hstep he
  · intro c e d hc _ he hstep
    exact hc.step_complete hstep he
  · rintro c e d ⟨r, hc⟩ _ hstep
    refine ⟨r, hc.step hstep ?_⟩
    -- the object is not new: it has dropped a handle
    cases e with
    | connect a =>
      intro hnew
      exact absurd (hc.fresh hnew) (by simp)
    | sendString msg a => trivial
    | sendBuffer buffer a => trivial
    | receive e' a => trivial
    | close a => trivial
    | destroy a => trivial

end Connection

/-- After every sequence of calls, the WebSocket handle is live while the status is
`Connected`. Failures leave that status exactly if no `WinHttpWebSocketReceive` fails, and the
handles of a destroyed object were closed once each exactly if no `Connect` completed the
upgrade. -/
theorem connection_iff {ignoreSslErrors : Bool} {es : List ConnectionEvent} {t : Connection}
    (hrun : run Connection.step (.new ignoreSslErrors) es = some t) :
    ConnectedLive t ∧
      (FailuresDisconnect t ↔
        EachStep Connection.step ReceiveSucceeds (.new ignoreSslErrors) es) ∧
      (ClosedByDestruction t ↔ (t.destroyed = true →
        EachStep Connection.step UpgradeFails (.new ignoreSslErrors) es)) := by
  have howns := Connection.owns_run hrun
  refine ⟨?_, ?_, ?_⟩
  · rcases howns with ⟨ht, -⟩ | ⟨⟨r, ht⟩, -⟩ <;> exact ht.connectedLive
  · have hiff := run_iff (K := fun _ _ => True) (C := ReceiveSucceeds)
      (fun c => ∃ lost, c.Owns lost) FailuresDisconnect ?_ ?_ eachStep_true hrun
      ⟨[], Connection.owns_new ignoreSslErrors⟩
    · rw [hiff.2]
      exact and_iff_right (by simp [FailuresDisconnect, Connection.new])
    · rintro c e d ⟨lost, hc⟩ _ hstep
      by_cases he : UpgradeFails c e
      · exact ⟨lost, hc.step hstep he⟩
      · obtain ⟨r, hd⟩ := hc.step_complete hstep he
        exact ⟨[r], hd⟩
    · rintro c e d ⟨lost, hc⟩ _ hstep
      exact Connection.failuresDisconnect_step hc hstep
  · apply forall_congr'
    intro hgone
    rcases howns with ⟨ht, hes⟩ | ⟨⟨r, ht⟩, hes⟩
    · rw [ht.eachClosedOnce_iff hgone]
      exact iff_of_true rfl hes
    · rw [ht.eachClosedOnce_iff hgone]
      exact iff_of_false (by simp) hes

/-- The answers of a `Connect` that goes through. -/
def completeAnswers : ConnectAnswers :=
  { «open» := .succeeded, connect := .succeeded, openRequest := .succeeded
    security := .succeeded, upgrade := .succeeded, sendRequest := .succeeded
    receiveResponse := .succeeded, completeUpgrade := .succeeded }

/-- The server refuses the upgrade with `ERROR_WINHTTP_INVALID_SERVER_RESPONSE`; the object is
then destroyed. -/
theorem connection_refusedUpgrade :
    ∃ t, run Connection.step (.new true)
        [.connect { completeAnswers with completeUpgrade := .failed 12152 },
          .destroy .succeeded] = some t ∧
      ConnectedLive t ∧ FailuresDisconnect t ∧ ClosedByDestruction t := by
  obtain ⟨hlive, hfailures, hclosed⟩ := @connection_iff true
    [.connect { completeAnswers with completeUpgrade := .failed 12152 }, .destroy .succeeded] _ rfl
  refine ⟨_, rfl, hlive, hfailures.mpr ?_, hclosed.mpr fun _ => ?_⟩
  · exact ⟨trivial, trivial, trivial⟩
  · refine ⟨fun _ hcomplete => ?_, trivial, trivial⟩
    have hlast := hcomplete.2.2.2 (.failed 12152) (by decide)
    contradiction

/-- A connection, a `Receive` that the server's end of the connection fails with 12030, and the
destructor: the failure has left the status at `Connected`, and of the four handles the request
handle was not closed. -/
theorem droppedRequest_counterexample :
    ∃ t, run Connection.step (.new false)
        [.connect completeAnswers, .receive .receive .succeeded,
          .receive (.reply (.error 12030)) .succeeded, .destroy .succeeded] = some t ∧
      ¬ FailuresDisconnect t ∧ ¬ ClosedByDestruction t := by
  refine ⟨_, rfl, ?_, ?_⟩
  · intro h
    exact h .Connected (by decide) rfl
  · intro h
    have hcount := h rfl 2
    contradiction

end Win32Experiments.WebSocketProto
