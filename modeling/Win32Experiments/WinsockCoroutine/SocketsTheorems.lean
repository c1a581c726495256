import Win32Experiments.WinsockCoroutine.Session

/-!
# Who closes the sockets

No session uses a socket that it has closed. The failures of an accept, and of the `bind` of
the client's socket, close what they had opened; every other failure leaves its coroutine by an
exception while the socket is a local number, and the socket stays open.
-/

namespace Win32Experiments.WinsockCoroutine

open Foundation

/-! ## Statements -/

/-- Whether the outcome of a call is none of the failures behind which a socket is left open:
of `Associate` and `getaddrinfo`, of a `ConnectEx` (its address, its call and its completion),
and of a call of `WSARecv` or `WSASend`. -/
def succeeds : Place → Outcome → Bool
  | .associateClient _, .call ok => ok
  | .recv _, .submit call => call.accepted
  | .send _ _, .submit call => call.accepted
  | .associate _, .call ok => ok
  | .getaddrinfo _, .call ok => ok
  | .connect _, .submit call => call.resource.isSome && call.accepted
  | .connecting _, .transferred _ error => error = 0
  | .sendMessage _ _, .submit call => call.accepted
  | .recvEcho _ _, .submit call => call.accepted
  | _, _ => true

/-- The step is none of those failures. -/
def Succeeds (c : Session) (e : Outcome) : Prop := succeeds c.place e = true

instance (c : Session) (e : Outcome) : Decidable (Succeeds c e) :=
  inferInstanceAs (Decidable (_ = true))

/-! ## What a session holds -/

/-- The socket that the coroutines hold at a place. -/
def Place.sockets : Place → List ℕ
  | .accept => []
  | .accepting s => [s]
  | .associateClient s => [s]
  | .recv s => [s]
  | .receiving s => [s]
  | .send s _ => [s]
  | .sending s _ => [s]
  | .createSocket => []
  | .bind s => [s]
  | .associate s => [s]
  | .getaddrinfo s => [s]
  | .connect s => [s]
  | .connecting s => [s]
  | .sendMessage s _ => [s]
  | .sendingMessage s _ => [s]
  | .recvEcho s _ => [s]
  | .receivingEcho s _ => [s]
  | .finished _ => []

namespace Session

variable {c d : Session} {e : Outcome} {s : ℕ} {call : Submission}

/-- The sockets are those held and those in `lost`, and none was used too late. -/
structure Owns (c : Session) (lost : List ℕ) : Prop where
  accounts : c.sockets.Accounts (lost ++ c.place.sockets)
  stale : c.stale = []

/-- The session has ended, and has left the socket `s` open. -/
structure Leaks (c : Session) (s : ℕ) : Prop where
  owns : c.Owns [s]
  finished : ∃ exception, c.place = .finished exception

/-- The session goes on with its sockets, or the step failed and left one open. -/
def Goes (c : Session) (e : Outcome) (d : Session) : Prop :=
  Succeeds c e ∧ d.Owns [] ∨ ¬ Succeeds c e ∧ ∃ s, d.Leaks s

theorem sockets_of_place {place : Place} (hplace : c.place = place) :
    c.place.sockets = place.sockets :=
  congrArg Place.sockets hplace

theorem succeeds_of_place {place : Place} (hplace : c.place = place) :
    Succeeds c e ↔ succeeds place e = true := by
  rw [Succeeds, hplace]

theorem Owns.holding (hc : c.Owns []) {l : List ℕ} (hs : c.place.sockets = l) :
    c.sockets.Accounts l := by
  have hacc := hc.accounts
  rwa [hs] at hacc

/-- A call may be given the socket that the session holds. -/
theorem Owns.use (hc : c.Owns []) (hs : c.place.sockets = [s]) : c.use s = c := by
  have hlive : c.sockets.Live s := hc.accounts.live (by simp [hs])
  rw [Session.use, if_pos hlive]

theorem Owns.goto (hc : c.Owns []) {place : Place} (hs : place.sockets = c.place.sockets) :
    (c.goto place).Owns [] where
  accounts := by
    show c.sockets.Accounts ([] ++ place.sockets)
    rw [hs]
    exact hc.accounts
  stale := hc.stale

/-- An exception that leaves the socket behind. -/
theorem Owns.leaks (hc : c.Owns []) (hs : c.place.sockets = [s]) (exception : Option String) :
    (c.finish exception).Leaks s where
  owns := ⟨hc.holding hs, hc.stale⟩
  finished := ⟨exception, rfl⟩

/-- An end that closes the socket. -/
theorem Owns.closing (hc : c.Owns []) (hs : c.place.sockets = [s]) (exception : Option String) :
    ((c.close s).finish exception).Owns [] where
  accounts := Handles.Accounts.close (hc.holding hs)
  stale := hc.stale

/-- The loop is no concern of the sockets. -/
theorem Owns.withLoop (hc : c.Owns []) (loop : IoEventLoop) : ({ c with loop } : Session).Owns [] :=
  ⟨hc.accounts, hc.stale⟩

/-! ## The awaitables -/

theorem submit_ok (loop : IoEventLoop) (accepted : Bool) (message : String) :
    (loop.submit accepted message).2 = .ok () ↔ accepted = true := by
  cases accepted <;> simp [IoEventLoop.submit]

theorem connectAwaitSuspend_ok (loop : IoEventLoop) (call : Submission) :
    (connectAwaitSuspend loop call).2 = .ok () ↔
      call.resource.isSome = true ∧ call.accepted = true := by
  unfold connectAwaitSuspend
  cases call.resource with
  | none => simp
  | some address => simpa using submit_ok loop call.accepted "ConnectEx failed"

/-- An `await_suspend` on the held socket waits with it, or throws and leaves it open. -/
theorem Owns.submit (hc : c.Owns []) (hs : c.place.sockets = [s])
    (awaitSuspend : IoEventLoop → Submission → IoEventLoop × Except String Unit)
    {place : Place} (hplace : place.sockets = [s]) :
    ((awaitSuspend c.loop call).2 = .ok () ∧ (c.submit awaitSuspend s call place).Owns []) ∨
      ((awaitSuspend c.loop call).2 ≠ .ok () ∧
        (c.submit awaitSuspend s call place).Leaks s) := by
  unfold Session.submit
  rw [hc.use hs]
  dsimp only
  generalize awaitSuspend c.loop call = r
  obtain ⟨loop, result⟩ := r
  cases result with
  | ok u =>
    left
    refine ⟨rfl, ?_⟩
    apply (hc.withLoop loop).goto
    rw [hplace]
    exact hs.symm
  | error message =>
    right
    refine ⟨by simp, ?_⟩
    exact (hc.withLoop loop).leaks hs _

theorem Owns.acceptSuspend (hc : c.Owns []) (hs : c.place.sockets = []) :
    (c.acceptSuspend call).Owns [] := by
  have hacc := hc.holding hs
  unfold Session.acceptSuspend
  generalize acceptAwaitSuspend c.loop call = r
  obtain ⟨loop, result⟩ := r
  cases result with
  | ok u => exact ⟨hacc.create, hc.stale⟩
  | error message =>
    cases call.resource with
    | none => exact ⟨hacc, hc.stale⟩
    | some acceptSocket => exact ⟨hacc.create.close, hc.stale⟩

theorem Owns.acceptResume (hc : c.Owns []) (hplace : c.place = .accepting s) (bytes error : ℕ) :
    (c.acceptResume s bytes error).Owns [] := by
  have hs : c.place.sockets = [s] := sockets_of_place hplace
  unfold Session.acceptResume acceptAwaitResume completed
  dsimp only
  by_cases herror : error = 0
  · rw [if_neg (not_not.mpr herror)]
    have hloop := hc.withLoop c.loop.removeOp
    dsimp only
    rw [hloop.use hs]
    exact hloop.goto hs.symm
  · rw [if_pos herror]
    exact (hc.withLoop c.loop.removeOp).closing hs _

theorem Owns.clientReceived (hc : c.Owns []) (hplace : c.place = .receiving s)
    (data : List UInt8) (error : ℕ) : (c.clientReceived s data error).Owns [] := by
  have hs : c.place.sockets = [s] := sockets_of_place hplace
  unfold Session.clientReceived recvAwaitResume completed
  cases data with
  | nil => exact (hc.withLoop c.loop.removeOp).closing hs none
  | cons byte data => exact ⟨hc.holding hs, hc.stale⟩

theorem Owns.clientSent (hc : c.Owns []) {msg : List UInt8} (hplace : c.place = .sending s msg)
    (bytes error : ℕ) : (c.clientSent s msg bytes error).Owns [] :=
  ⟨hc.holding (sockets_of_place hplace), hc.stale⟩

theorem Owns.connected (hc : c.Owns []) (hplace : c.place = .connecting s) (bytes error : ℕ) :
    (error = 0 ∧ (c.connected s bytes error).Owns []) ∨
      (error ≠ 0 ∧ (c.connected s bytes error).Leaks s) := by
  have hs : c.place.sockets = [s] := sockets_of_place hplace
  unfold Session.connected connectAwaitResume completed
  dsimp only
  by_cases herror : error = 0
  · rw [if_neg (not_not.mpr herror)]
    have hloop := hc.withLoop c.loop.removeOp
    dsimp only
    rw [hloop.use hs]
    exact Or.inl ⟨herror, hloop.goto hs.symm⟩
  · rw [if_pos herror]
    exact Or.inr ⟨herror, (hc.withLoop c.loop.removeOp).leaks hs _⟩

theorem Owns.messageSent (hc : c.Owns []) {messages : List String}
    (hplace : c.place = .sendingMessage s messages) (bytes error : ℕ) :
    (c.messageSent s messages bytes error).Owns [] :=
  ⟨hc.holding (sockets_of_place hplace), hc.stale⟩

theorem Owns.echoReceived (hc : c.Owns []) {messages rest : List String}
    (hplace : c.place = .receivingEcho s messages) (data : List UInt8) (error : ℕ) :
    (c.echoReceived s rest data error).Owns [] := by
  have hs : c.place.sockets = [s] := sockets_of_place hplace
  have hloop := hc.withLoop c.loop.removeOp
  unfold Session.echoReceived recvAwaitResume completed
  dsimp only
  split
  · rw [hloop.use hs]
    exact hloop.closing hs none
  · exact hloop.goto hs.symm

/-! ## Steps -/

/-- An awaitable whose submission is all that decides. -/
theorem Owns.goes_submit (hc : c.Owns []) (hs : c.place.sockets = [s])
    {awaitSuspend : IoEventLoop → Submission → IoEventLoop × Except String Unit}
    {place : Place} (hplace : place.sockets = [s])
    (hok : (awaitSuspend c.loop call).2 = .ok () ↔ Succeeds c (.submit call)) :
    Goes c (.submit call) (c.submit awaitSuspend s call place) := by
  rcases @Owns.submit c s call hc hs awaitSuspend place hplace with ⟨hsuspend, hd⟩ | ⟨hsuspend, hd⟩
  · exact Or.inl ⟨hok.mp hsuspend, hd⟩
  · exact Or.inr ⟨fun h => hsuspend (hok.mpr h), s, hd⟩

/-- A call whose success is all that decides. -/
theorem Owns.goes_call (hc : c.Owns []) (hs : c.place.sockets = [s]) {ok : Bool} {place : Place}
    (hplace : place.sockets = [s]) (hok : ok = true ↔ Succeeds c (.call ok)) (message : String) :
    Goes c (.call ok) (if ok then c.goto place else c.finish (some message)) := by
  by_cases h : ok = true
  · rw [if_pos h]
    exact Or.inl ⟨hok.mp h, hc.goto (hplace.trans hs.symm)⟩
  · rw [if_neg h]
    exact Or.inr ⟨fun hsucceeds => h (hok.mpr hsucceeds), s, hc.leaks hs _⟩

theorem goes_of_owns (hd : d.Owns []) (he : Succeeds c e) : Goes c e d := Or.inl ⟨he, hd⟩

/-- A step goes on with the sockets of the session, or is one of the failures. -/
theorem goes_step (hc : c.Owns []) (h : c.step e = some d) : Goes c e d := by
  unfold step at h
  split at h
  case h_1 call hplace =>
    rw [← Option.some.inj h]
    apply goes_of_owns (hc.acceptSuspend (sockets_of_place hplace))
    exact (succeeds_of_place hplace).mpr rfl
  case h_2 s bytes error hplace =>
    rw [← Option.some.inj h]
    apply goes_of_owns (hc.acceptResume hplace bytes error)
    exact (succeeds_of_place hplace).mpr rfl
  case h_3 s ok hplace =>
    have hs : c.place.sockets = [s] := sockets_of_place hplace
    rw [← Option.some.inj h, hc.use hs]
    exact hc.goes_call hs rfl (by rw [succeeds_of_place hplace]; rfl) _
  case h_4 s call hplace =>
    rw [← Option.some.inj h]
    apply hc.goes_submit (sockets_of_place hplace) rfl
    rw [succeeds_of_place hplace]
    exact submit_ok _ _ _
  case h_5 s data error hplace =>
    rw [← Option.some.inj h]
    apply goes_of_owns (hc.clientReceived hplace data error)
    exact (succeeds_of_place hplace).mpr rfl
  case h_6 s msg call hplace =>
    rw [← Option.some.inj h]
    apply hc.goes_submit (sockets_of_place hplace) rfl
    rw [succeeds_of_place hplace]
    exact submit_ok _ _ _
  case h_7 s msg bytes error hplace =>
    rw [← Option.some.inj h]
    apply goes_of_owns (hc.clientSent hplace bytes error)
    exact (succeeds_of_place hplace).mpr rfl
  case h_8 ok hplace =>
    have hacc : c.sockets.Accounts [] := hc.holding (sockets_of_place hplace)
    rw [← Option.some.inj h]
    apply goes_of_owns
    · cases ok with
      | true => exact ⟨hacc.create, hc.stale⟩
      | false => exact ⟨hacc, hc.stale⟩
    · exact (succeeds_of_place hplace).mpr rfl
  case h_9 s ok hplace =>
    have hs : c.place.sockets = [s] := sockets_of_place hplace
    rw [← Option.some.inj h, hc.use hs]
    apply goes_of_owns
    · cases ok with
      | true => exact hc.goto hs.symm
      | false => exact hc.closing hs _
    · exact (succeeds_of_place hplace).mpr rfl
  case h_10 s ok hplace =>
    have hs : c.place.sockets = [s] := sockets_of_place hplace
    rw [← Option.some.inj h, hc.use hs]
    exact hc.goes_call hs rfl (by rw [succeeds_of_place hplace]; rfl) _
  case h_11 s ok hplace =>
    rw [← Option.some.inj h]
    exact hc.goes_call (sockets_of_place hplace) rfl (by rw [succeeds_of_place hplace]; rfl) _
  case h_12 s call hplace =>
    rw [← Option.some.inj h]
    apply hc.goes_submit (sockets_of_place hplace) rfl
    rw [succeeds_of_place hplace, connectAwaitSuspend_ok, succeeds, Bool.and_eq_true]
  case h_13 s bytes error hplace =>
    rw [← Option.some.inj h]
    have hiff : Succeeds c (.transferred bytes error) ↔ error = 0 :=
      (succeeds_of_place hplace).trans decide_eq_true_iff
    rcases hc.connected hplace bytes error with ⟨herror, hd⟩ | ⟨herror, hd⟩
    · exact Or.inl ⟨hiff.mpr herror, hd⟩
    · exact Or.inr ⟨fun hsucceeds => herror (hiff.mp hsucceeds), s, hd⟩
  case h_14 s messages call hplace =>
    rw [← Option.some.inj h]
    apply hc.goes_submit (sockets_of_place hplace) rfl
    rw [succeeds_of_place hplace]
    exact submit_ok _ _ _
  case h_15 s messages bytes error hplace =>
    rw [← Option.some.inj h]
    apply goes_of_owns (hc.messageSent hplace bytes error)
    exact (succeeds_of_place hplace).mpr rfl
  case h_16 s messages call hplace =>
    rw [← Option.some.inj h]
    apply hc.goes_submit (sockets_of_place hplace) rfl
    rw [succeeds_of_place hplace]
    exact submit_ok _ _ _
  case h_17 s messages data error hplace =>
    rw [← Option.some.inj h]
    apply goes_of_owns (hc.echoReceived hplace data error)
    exact (succeeds_of_place hplace).mpr rfl
  case h_18 => contradiction

/-- Nothing happens behind the end of the top-level task. -/
theorem step_finished {exception : Option String} (h : c.place = .finished exception) :
    c.step e = none := by
  unfold step
  rw [h]

/-- The two starts own nothing. -/
theorem owns_start {place : Place} (h : place.sockets = []) : (start place).Owns [] where
  accounts := by
    show Handles.empty.Accounts ([] ++ place.sockets)
    rw [h]
    exact Handles.accounts_empty
  stale := rfl

end Session

/-- For both top-level tasks and every outcome of their calls: no socket is used after it was
closed, and when the task is at its end each socket was closed exactly once if and only if none
of the failures has left one open. -/
theorem sockets_closed_iff {place : Place} (hplace : place = .accept ∨ place = .createSocket)
    {es : List Outcome} {t : Session} (hrun : run Session.step (.start place) es = some t) :
    t.stale = [] ∧ ∀ exception, t.place = .finished exception →
      (t.sockets.EachClosedOnce ↔ EachStep Session.step Succeeds (.start place) es) := by
  have hstart : (Session.start place).Owns [] := by
    rcases hplace with rfl | rfl <;> exact Session.owns_start rfl
  have hexact := run_exact (K := fun _ _ => True) (C := Succeeds)
    (fun c => c.Owns []) (fun c => ∃ s, c.Leaks s) ?_ ?_ ?_ eachStep_true hrun hstart
  · rcases hexact with ⟨ht, hes⟩ | ⟨⟨s, ht⟩, hes⟩
    · refine ⟨ht.stale, fun exception hfinished => ?_⟩
      have hacc := ht.accounts
      rw [hfinished] at hacc
      exact iff_of_true (hacc.eachClosedOnce_iff.mpr rfl) hes
    · refine ⟨ht.owns.stale, fun exception hfinished => ?_⟩
      have hacc := ht.owns.accounts
      rw [hfinished] at hacc
      rw [hacc.eachClosedOnce_iff]
      exact iff_of_false (by simp) hes
  · intro c e d hc _ he hstep
    rcases Session.goes_step hc hstep with ⟨-, hd⟩ | ⟨hfails, -⟩
    · exact hd
    · exact absurd he hfails
  · intro c e d hc _ he hstep
    rcases Session.goes_step hc hstep with ⟨hsucceeds, -⟩ | ⟨-, hd⟩
    · exact absurd hsucceeds he
    · exact hd
  · rintro c e d ⟨s, hc⟩ _ hstep
    obtain ⟨exception, hfinished⟩ := hc.finished
    rw [Session.step_finished hfinished] at hstep
    contradiction

/-- A client that sends one byte, has it echoed and closes. -/
def oneEcho : List Outcome :=
  [.submit ⟨some 0, true⟩, .transferred 0 0, .call true, .submit ⟨none, true⟩,
    .received [65] 0, .submit ⟨none, true⟩, .transferred 1 0, .submit ⟨none, true⟩,
    .received [] 0]

/-- Its socket is closed once. -/
theorem sockets_closed_oneEcho :
    ∃ t, run Session.step (.start .accept) oneEcho = some t ∧ t.stale = [] ∧
      t.sockets.EachClosedOnce := by
  obtain ⟨hstale, hclosed⟩ := sockets_closed_iff (Or.inl rfl)
    (show run Session.step (.start .accept) oneEcho = some _ from rfl)
  exact ⟨_, rfl, hstale, (hclosed none rfl).mpr (by decide)⟩

/-- A client is accepted and its socket cannot be associated: `HandleClient` throws, and the
socket stays open. -/
theorem unassociated_counterexample :
    ∃ t, run Session.step (.start .accept)
        [.submit ⟨some 0, true⟩, .transferred 0 0, .call false] = some t ∧
      t.place = .finished (some "Failed to associate socket with IOCP") ∧
      ¬ t.sockets.EachClosedOnce := by
  refine ⟨_, rfl, rfl, ?_⟩
  intro h
  have hcount := h 0
  contradiction

/-! ## The session runs the bodies of the server -/

/-- What the bodies of the server do when its session goes to a place. -/
def Place.action : Place → Option (Action ServerBody)
  | .accept => some (.await .accept .accepted)
  | .associateClient client => some (.awaitTask (.handleClient client) .served)
  | .recv client => some (.await .recv (.received client))
  | .send client _ => some (.await .send (.sent client))
  | .finished none => some .coReturn
  | .finished (some message) => some (.throw message)
  | _ => none

/-- The stretches of `server`, from the start and behind each of its awaits, end where the
session goes. -/
theorem server_action (c : Session) (client bytes error : ℕ) (data msg : List UInt8)
    (associated : Bool) :
    Place.accept.action = some (server.next .acceptAndServe associated) ∧
      (c.acceptResume client bytes error).place.action
        = some (server.next (.accepted (acceptAwaitResume c.loop
            (completed .accept client bytes error)).2) associated) ∧
      (if associated then c.goto (.recv client)
        else c.finish (some "Failed to associate socket with IOCP")).place.action
        = some (server.next (.handleClient client) associated) ∧
      (c.clientReceived client data error).place.action
        = some (server.next (.received client (recvAwaitResume c.loop
            (completed .recv 0 data.length error)).2) associated) ∧
      (c.clientSent client msg bytes error).place.action
        = some (server.next (.sent client (sendAwaitResume c.loop
            (completed .send 0 bytes error)).2) associated) := by
  refine ⟨rfl, ?_, ?_, ?_, rfl⟩
  · unfold Session.acceptResume acceptAwaitResume completed
    dsimp only
    by_cases herror : error = 0
    · rw [if_neg (not_not.mpr herror)]
      rfl
    · rw [if_pos herror]
      rfl
  · cases associated <;> rfl
  · cases data <;> rfl

end Win32Experiments.WinsockCoroutine
