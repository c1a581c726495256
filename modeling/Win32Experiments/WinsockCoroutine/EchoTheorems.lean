import Win32Experiments.WinsockCoroutine.Session

/-!
# The server echoes while every send is complete

`HandleClient` awaits a send and goes on to the next receive, whatever the count of the send.
Between the receives and the sends it keeps one message, so what is missing from the bytes
accepted by the network is that message, unless a send was short.
-/

namespace Win32Experiments.WinsockCoroutine

open Foundation

/-! ## Statements -/

/-- The bytes that the network has accepted are a prefix of those received; and when
`HandleClient` receives, it has sent all of them. -/
structure Echoes (c : Session) : Prop where
  accepted : c.accepted <+: c.received
  whole : ∀ client, c.place = .recv client ∨ c.place = .receiving client →
    c.accepted = c.received

/-- Whether the outcome is no completion of a short send. -/
def sendsAll : Place → Outcome → Bool
  | .sending _ msg, .transferred bytes _ => msg.length ≤ bytes
  | _, _ => true

/-- A send that completes has transferred the whole message. -/
def SendsAll (c : Session) (e : Outcome) : Prop := sendsAll c.place e = true

instance (c : Session) (e : Outcome) : Decidable (SendsAll c e) :=
  inferInstanceAs (Decidable (_ = true))

/-! ## The message between a receive and its send -/

/-- What has been received at a place and is not sent yet; at the end it may be anything. -/
def Place.unsent : Place → Option (List UInt8)
  | .send _ msg => some msg
  | .sending _ msg => some msg
  | .finished _ => none
  | _ => some []

namespace Session

variable {c d : Session} {e : Outcome} {s : ℕ} {call : Submission}

/-- The bytes received are those accepted and the message at hand. -/
def Current (c : Session) : Prop :=
  match c.place.unsent with
  | some msg => c.accepted ++ msg = c.received
  | none => c.accepted <+: c.received

/-- A step that neither receives nor sends for `HandleClient`, and leads to no message. -/
structure Quiet (c d : Session) : Prop where
  accepted : d.accepted = c.accepted
  received : d.received = c.received
  place : d.place.unsent = some [] ∨ d.place.unsent = none

theorem current_iff_of_some {msg : List UInt8} (h : c.place.unsent = some msg) :
    c.Current ↔ c.accepted ++ msg = c.received := by
  rw [Current, h]

theorem current_iff_of_none (h : c.place.unsent = none) :
    c.Current ↔ c.accepted <+: c.received := by
  rw [Current, h]

theorem Current.echoes (hc : c.Current) : Echoes c where
  accepted := by
    cases hunsent : c.place.unsent with
    | none => exact (current_iff_of_none hunsent).mp hc
    | some msg => exact ⟨msg, (current_iff_of_some hunsent).mp hc⟩
  whole := by
    intro client hplace
    have hunsent : c.place.unsent = some [] := by
      rcases hplace with hplace | hplace <;> rw [hplace] <;> rfl
    rw [← (current_iff_of_some hunsent).mp hc, List.append_nil]

theorem Current.quiet (hc : c.Current) (hunsent : c.place.unsent = some []) (h : Quiet c d) :
    d.Current := by
  have hall := (current_iff_of_some hunsent).mp hc
  rcases h.place with hd | hd
  · rw [current_iff_of_some hd, h.accepted, h.received]
    exact hall
  · rw [current_iff_of_none hd, h.accepted, h.received]
    exact ⟨[], hall⟩

theorem quiet_ite {a b : Session} (ok : Bool) (ha : Quiet c a) (hb : Quiet c b) :
    Quiet c (if ok then a else b) := by
  cases ok with
  | true => exact ha
  | false => exact hb

theorem quiet_submit (c : Session)
    (awaitSuspend : IoEventLoop → Submission → IoEventLoop × Except String Unit) (s : ℕ)
    (call : Submission) {place : Place} (h : place.unsent = some []) :
    Quiet c (c.submit awaitSuspend s call place) := by
  unfold Session.submit
  dsimp only
  split
  · exact ⟨rfl, rfl, Or.inl h⟩
  · exact ⟨rfl, rfl, Or.inr rfl⟩

theorem quiet_acceptSuspend (c : Session) (call : Submission) : Quiet c (c.acceptSuspend call) := by
  unfold Session.acceptSuspend
  split
  · exact ⟨rfl, rfl, Or.inl rfl⟩
  · dsimp only
    split <;> exact ⟨rfl, rfl, Or.inr rfl⟩

theorem quiet_acceptResume (c : Session) (s bytes error : ℕ) :
    Quiet c (c.acceptResume s bytes error) := by
  unfold Session.acceptResume
  split
  · exact ⟨rfl, rfl, Or.inl rfl⟩
  · exact ⟨rfl, rfl, Or.inr rfl⟩

theorem quiet_connected (c : Session) (s bytes error : ℕ) :
    Quiet c (c.connected s bytes error) := by
  unfold Session.connected
  split
  · exact ⟨rfl, rfl, Or.inl rfl⟩
  · exact ⟨rfl, rfl, Or.inr rfl⟩

theorem quiet_echoReceived (c : Session) (s : ℕ) (rest : List String) (data : List UInt8)
    (error : ℕ) : Quiet c (c.echoReceived s rest data error) := by
  unfold Session.echoReceived
  split
  · dsimp only
    split
    · exact ⟨rfl, rfl, Or.inr rfl⟩
    · exact ⟨rfl, rfl, Or.inl rfl⟩
  · exact ⟨rfl, rfl, Or.inr rfl⟩

/-- A message that has come in is at hand. -/
theorem Current.clientReceived (hc : c.Current) (hplace : c.place = .receiving s)
    (data : List UInt8) (error : ℕ) : (c.clientReceived s data error).Current := by
  have hunsent : c.place.unsent = some [] := by rw [hplace]; rfl
  have hall := (current_iff_of_some hunsent).mp hc
  rw [List.append_nil] at hall
  cases data with
  | nil => exact hc.quiet hunsent ⟨rfl, rfl, Or.inr rfl⟩
  | cons byte data =>
    show c.accepted ++ (byte :: data) = c.received ++ (byte :: data)
    rw [hall]

/-- The message is handed to `WSASend`, or the session ends with it. -/
theorem Current.sendSubmit (hc : c.Current) {msg : List UInt8} (hplace : c.place = .send s msg) :
    (c.submit sendAwaitSuspend s call (.sending s msg)).Current := by
  have hunsent : c.place.unsent = some msg := by rw [hplace]; rfl
  have hall := (current_iff_of_some hunsent).mp hc
  unfold Session.submit
  dsimp only
  split
  · exact hall
  · exact ⟨msg, hall⟩

/-- A complete send leaves nothing. -/
theorem Current.clientSent (hc : c.Current) {msg : List UInt8} (hplace : c.place = .sending s msg)
    {bytes : ℕ} (hbytes : msg.length ≤ bytes) (error : ℕ) :
    (c.clientSent s msg bytes error).Current := by
  have hunsent : c.place.unsent = some msg := by rw [hplace]; rfl
  have hall := (current_iff_of_some hunsent).mp hc
  show (c.accepted ++ msg.take bytes) ++ [] = c.received
  rw [List.append_nil, List.take_of_length_le hbytes]
  exact hall

/-- Behind a short send the next receive comes too early. -/
theorem Current.not_echoes_clientSent (hc : c.Current) {msg : List UInt8}
    (hplace : c.place = .sending s msg) {bytes : ℕ} (hbytes : bytes < msg.length) (error : ℕ) :
    ¬ Echoes (c.clientSent s msg bytes error) := by
  have hunsent : c.place.unsent = some msg := by rw [hplace]; rfl
  have hall := (current_iff_of_some hunsent).mp hc
  intro hechoes
  have hwhole : c.accepted ++ msg.take bytes = c.received := hechoes.whole s (Or.inl rfl)
  have hlength := congrArg List.length (hwhole.trans hall.symm)
  rw [List.length_append, List.length_append, List.length_take] at hlength
  omega

/-! ## Steps -/

theorem current_step (hc : c.Current) (he : SendsAll c e) (h : c.step e = some d) :
    d.Current := by
  unfold step at h
  split at h
  case h_1 call hplace =>
    rw [← Option.some.inj h]
    exact hc.quiet (by rw [hplace]; rfl) (quiet_acceptSuspend c call)
  case h_2 s bytes error hplace =>
    rw [← Option.some.inj h]
    exact hc.quiet (by rw [hplace]; rfl) (quiet_acceptResume c s bytes error)
  case h_3 s ok hplace =>
    rw [← Option.some.inj h]
    exact hc.quiet (by rw [hplace]; rfl)
      (quiet_ite ok ⟨rfl, rfl, Or.inl rfl⟩ ⟨rfl, rfl, Or.inr rfl⟩)
  case h_4 s call hplace =>
    rw [← Option.some.inj h]
    exact hc.quiet (by rw [hplace]; rfl) (quiet_submit c _ s call rfl)
  case h_5 s data error hplace =>
    rw [← Option.some.inj h]
    exact hc.clientReceived hplace data error
  case h_6 s msg call hplace =>
    rw [← Option.some.inj h]
    exact hc.sendSubmit hplace
  case h_7 s msg bytes error hplace =>
    rw [← Option.some.inj h]
    rw [SendsAll, hplace] at he
    exact hc.clientSent hplace (of_decide_eq_true he) error
  case h_8 ok hplace =>
    rw [← Option.some.inj h]
    exact hc.quiet (by rw [hplace]; rfl)
      (quiet_ite ok ⟨rfl, rfl, Or.inl rfl⟩ ⟨rfl, rfl, Or.inr rfl⟩)
  case h_9 s ok hplace =>
    rw [← Option.some.inj h]
    exact hc.quiet (by rw [hplace]; rfl)
      (quiet_ite ok ⟨rfl, rfl, Or.inl rfl⟩ ⟨rfl, rfl, Or.inr rfl⟩)
  case h_10 s ok hplace =>
    rw [← Option.some.inj h]
    exact hc.quiet (by rw [hplace]; rfl)
      (quiet_ite ok ⟨rfl, rfl, Or.inl rfl⟩ ⟨rfl, rfl, Or.inr rfl⟩)
  case h_11 s ok hplace =>
    rw [← Option.some.inj h]
    exact hc.quiet (by rw [hplace]; rfl)
      (quiet_ite ok ⟨rfl, rfl, Or.inl rfl⟩ ⟨rfl, rfl, Or.inr rfl⟩)
  case h_12 s call hplace =>
    rw [← Option.some.inj h]
    exact hc.quiet (by rw [hplace]; rfl) (quiet_submit c _ s call rfl)
  case h_13 s bytes error hplace =>
    rw [← Option.some.inj h]
    exact hc.quiet (by rw [hplace]; rfl) (quiet_connected c s bytes error)
  case h_14 s messages call hplace =>
    rw [← Option.some.inj h]
    exact hc.quiet (by rw [hplace]; rfl) (quiet_submit c _ s call rfl)
  case h_15 s messages bytes error hplace =>
    rw [← Option.some.inj h]
    exact hc.quiet (by rw [hplace]; rfl) ⟨rfl, rfl, Or.inl rfl⟩
  case h_16 s messages call hplace =>
    rw [← Option.some.inj h]
    exact hc.quiet (by rw [hplace]; rfl) (quiet_submit c _ s call rfl)
  case h_17 s messages data error hplace =>
    rw [← Option.some.inj h]
    exact hc.quiet (by rw [hplace]; rfl) (quiet_echoReceived c s messages.tail data error)
  case h_18 => contradiction

/-- The only step that does not send all is the completion of a short send. -/
theorem not_echoes_step (hc : c.Current) (he : ¬ SendsAll c e) (h : c.step e = some d) :
    ¬ Echoes d := by
  unfold SendsAll sendsAll at he
  split at he
  · rename_i client msg bytes error hplace
    have hbytes : bytes < msg.length := by simpa using he
    unfold step at h
    rw [hplace] at h
    rw [← Option.some.inj h]
    exact hc.not_echoes_clientSent hplace hbytes error
  · exact absurd rfl he

end Session

/-- In every run of the server, the bytes accepted by the network are at every point a prefix of
the bytes received, and all of them when `HandleClient` receives, exactly if every send that
completed was complete. -/
theorem session_echoes_iff {es : List Outcome} {t : Session}
    (hrun : run Session.step (.start .accept) es = some t) :
    (∀ es' u, es' <+: es → run Session.step (.start .accept) es' = some u → Echoes u) ↔
      EachStep Session.step SendsAll (.start .accept) es := by
  apply forall_prefix_iff Session.Current Echoes _ _ _ hrun
  · rfl
  · intro c hc
    exact hc.echoes
  · intro c e d hc he hstep
    exact Session.current_step hc he hstep
  · intro c e d hc he hstep
    exact Session.not_echoes_step hc he hstep

/-- A client's message of two bytes is echoed whole, in a completion that reports an error. -/
theorem echoes_wholeMessage :
    ∃ t, run Session.step (.start .accept)
        [.submit ⟨some 0, true⟩, .transferred 0 0, .call true, .submit ⟨none, true⟩,
          .received [65, 66] 0, .submit ⟨none, true⟩, .transferred 2 64] = some t ∧
      Echoes t := by
  have hall := session_echoes_iff
    (show run Session.step (.start .accept)
      [.submit ⟨some 0, true⟩, .transferred 0 0, .call true, .submit ⟨none, true⟩,
        .received [65, 66] 0, .submit ⟨none, true⟩, .transferred 2 64] = some _ from rfl)
  exact ⟨_, rfl, hall.mpr (by decide) _ _ List.prefix_rfl rfl⟩

/-- The send of `[65, 66]` transfers one byte; `HandleClient` goes on to the next receive. -/
theorem shortSend_counterexample :
    ∃ t, run Session.step (.start .accept)
        [.submit ⟨some 0, true⟩, .transferred 0 0, .call true, .submit ⟨none, true⟩,
          .received [65, 66] 0, .submit ⟨none, true⟩, .transferred 1 0] = some t ∧
      t.place = .recv 0 ∧ t.received = [65, 66] ∧ t.accepted = [65] ∧ ¬ Echoes t := by
  refine ⟨_, rfl, rfl, rfl, rfl, ?_⟩
  intro h
  have hwhole := h.whole 0 (Or.inl rfl)
  contradiction

end Win32Experiments.WinsockCoroutine
