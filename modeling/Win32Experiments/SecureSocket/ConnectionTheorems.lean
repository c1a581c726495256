import Win32Experiments.SecureSocket.Connection
import Win32Experiments.SecureSocket.HandshakeTheorems

/-!
# When the result of `tls_connect` can be relied on

* `leaves_step`: where one pass of the loop leads;
* `reports_loop`: what a run of the loop, and the clean-up behind it, leads to;
* `reports_iff`: the result can be relied on exactly if no `recv` of the handshake met an orderly
  close, and a handshake that Schannel completed had its last token taken by the one `send` and its
  sizes read.
-/

namespace Win32Experiments.SecureSocket

open Foundation Sspi Winsock

/-! ## A pass of the loop -/

variable {attributes : Option StreamSizes} {c c' : Connect} {it : Iteration}

/-- A pass that reaches the end of the loop's body: it goes on, or the end of the stream or an
error ends it. -/
theorem receive_cases (c : Connect) (recv : RecvOutcome) (hrunning : c.phase = .running) :
    ((c.receive recv).phase = .running ∧
        (c.socket.received ≠ TLS_MAX_PACKET_SIZE → recv ≠ .closed)) ∨
      ((c.receive recv).phase = .broke (-1) ∧
        (c.socket.received ≠ TLS_MAX_PACKET_SIZE → recv ≠ .closed)) ∨
      ((c.receive recv).phase = .returned 0 ∧ c.socket.received ≠ TLS_MAX_PACKET_SIZE ∧
        recv = .closed) := by
  unfold Connect.receive
  split
  · next hfull => exact Or.inr (Or.inl ⟨rfl, fun hne => absurd hfull hne⟩)
  · next hroom =>
    cases recv with
    | data bytes => exact Or.inl ⟨hrunning, by simp⟩
    | closed => exact Or.inr (Or.inr ⟨rfl, hroom, rfl⟩)
    | error => exact Or.inr (Or.inl ⟨rfl, by simp⟩)

/-- Where a pass leads: on, out with an error, out with an orderly close, or out with the handshake
complete as far as Schannel is concerned. -/
inductive Leaves (attributes : Option StreamSizes) (c : Connect) (it : Iteration) : Phase → Prop
  | on : it.reply.status ≠ .SEC_E_OK → it.unsent = 0 → OrderlyPass attributes c it →
      Leaves attributes c it .running
  | failed : it.reply.status ≠ .SEC_E_OK → OrderlyPass attributes c it →
      Leaves attributes c it (.broke (-1))
  | closed : it.reply.status ≠ .SEC_E_OK → ¬ OrderlyPass attributes c it →
      Leaves attributes c it (.returned 0)
  | unsent : it.reply.status = .SEC_E_OK → ¬ OrderlyPass attributes c it →
      Leaves attributes c it (.broke 1)
  | complete : it.reply.status = .SEC_E_OK → Leaves attributes c it (.broke 0)

/-- A pass that reaches the `recv`, after the token was sent. -/
theorem leaves_receive (hrunning : c.phase = .running) (hstatus : it.reply.status ≠ .SEC_E_OK)
    (hreach : it.reply.status = .SEC_I_CONTINUE_NEEDED ∧ it.unsent = 0 ∨
      it.reply.status = .SEC_E_INCOMPLETE_MESSAGE) (hunsent : it.unsent = 0) :
    Leaves attributes c it ((c.call it.reply).receive it.recv).phase := by
  rcases receive_cases (c.call it.reply) it.recv hrunning with
    ⟨hphase, hopen⟩ | ⟨hphase, hopen⟩ | ⟨hphase, hroom, hclosed⟩
  · rw [hphase]
    exact .on hstatus hunsent ⟨fun h => hopen h.2, fun h => absurd h hstatus⟩
  · rw [hphase]
    exact .failed hstatus ⟨fun h => hopen h.2, fun h => absurd h hstatus⟩
  · rw [hphase]
    exact .closed hstatus fun h => h.1 ⟨hreach, hroom⟩ hclosed

/-- Where one pass of the loop leads. -/
theorem leaves_step (hrunning : c.phase = .running) (hstep : c.step it = some c') :
    Leaves attributes c it c'.phase := by
  rw [Connect.step, if_pos hrunning, Option.some.injEq] at hstep
  rw [← hstep, Connect.dispatch]
  split
  · next hstatus =>
    split
    · next hsend =>
      -- the `send` failed, with bytes to send
      apply Leaves.unsent hstatus
      intro horderly
      obtain ⟨hunsent, -⟩ := horderly.2 hstatus
      rw [Iteration.unsent, hstatus] at hunsent
      rw [hsend.2] at hunsent
      exact hsend.1 (List.length_eq_zero_iff.mp hunsent)
    · exact .complete hstatus
  · next hstatus =>
    exact .failed (by simp [hstatus]) ⟨by simp [Connect.Receives, hstatus], by simp [hstatus]⟩
  · next hstatus =>
    have hunsent : it.unsent = sendToken it.reply.token.length it.sends := by
      rw [Iteration.unsent, hstatus]
    split
    · next hleft =>
      refine .failed (by simp [hstatus]) ⟨fun hreach => ?_, by simp [hstatus]⟩
      rcases hreach.1 with ⟨-, hzero⟩ | hincomplete
      · exact absurd (hunsent.symm.trans hzero) hleft
      · simp [hstatus] at hincomplete
    · next hsent =>
      have hzero : it.unsent = 0 := hunsent.trans (not_not.mp hsent)
      exact leaves_receive hrunning (by simp [hstatus]) (Or.inl ⟨hstatus, hzero⟩) hzero
  · next hstatus =>
    have hzero : it.unsent = 0 := by rw [Iteration.unsent, hstatus]
    exact leaves_receive hrunning (by simp [hstatus]) (Or.inr hstatus) hzero
  · next hok hcredentials hcontinue hincomplete =>
    refine .failed hok ⟨fun hreach => ?_, fun h => absurd h hok⟩
    rcases hreach.1 with ⟨hstatus, -⟩ | hstatus
    · exact absurd hstatus hcontinue
    · exact absurd hstatus hincomplete

/-! ## The loop and what follows it -/

/-- No pass follows the last one. -/
theorem run_stopped {passes : List Iteration} (hstopped : c.phase ≠ .running)
    (hrun : run Connect.step c passes = some c') : passes = [] ∧ c' = c := by
  cases passes with
  | nil => exact ⟨rfl, (Option.some.inj hrun).symm⟩
  | cons it passes =>
    obtain ⟨u, hu, -⟩ := run_cons_eq_some.mp hrun
    rw [Connect.step, if_neg hstopped] at hu
    contradiction

theorem handshaken_singleton : Handshaken [it] ↔ it.reply.status = .SEC_E_OK ∧ it.unsent = 0 := by
  simp [Handshaken]

/-- A pass that goes on has sent its token. -/
theorem handshaken_cons {passes : List Iteration} (hsent : it.unsent = 0) (hne : passes ≠ []) :
    Handshaken (it :: passes) ↔ Handshaken passes := by
  rw [Handshaken, Handshaken, List.getLast?_cons, List.forall_mem_cons]
  simp [hsent, List.getLast?_eq_some_getLast hne]

/-- After a pass that Schannel completed the handshake with, the condition is that nothing of the
token is left and the sizes are read. -/
theorem orderly_iff_of_ok (hstatus : it.reply.status = .SEC_E_OK) :
    OrderlyPass attributes c it ↔ it.unsent = 0 ∧ attributes.isSome := by
  have hreach : ¬ c.Receives it := by simp [Connect.Receives, hstatus]
  simp [OrderlyPass, hreach, hstatus]

/-- What a last pass leads to can be relied on exactly if the pass meets the condition. -/
theorem reports_last {phase : Phase} {t : Connection} {acquired : Resources}
    (hacquired : acquired.GivenBack ⟨1, 1, 1, 1⟩) (hleaves : Leaves attributes c it phase)
    (hphase : c'.phase = phase) (hfinish : c'.finish attributes = some t) :
    t.Reports (Handshaken [it]) acquired ↔ OrderlyPass attributes c it := by
  rw [Connect.finish, hphase] at hfinish
  cases hleaves with
  | on => contradiction
  | failed hstatus horderly =>
    obtain rfl := Option.some.inj hfinish
    refine iff_of_true ⟨?_, fun _ => ⟨Int.negSucc_lt_zero 0, hacquired⟩⟩ horderly
    simp [handshaken_singleton, hstatus]
  | closed hstatus horderly =>
    obtain rfl := Option.some.inj hfinish
    refine iff_of_false (fun h => ?_) horderly
    have hcomplete := (h.zero_iff.mp rfl).1
    exact hstatus (handshaken_singleton.mp hcomplete).1
  | unsent hstatus horderly =>
    obtain rfl := Option.some.inj hfinish
    refine iff_of_false (fun h => ?_) horderly
    have hnegative : (1 : ℤ) < 0 := (h.negative Int.one_ne_zero).1
    contradiction
  | complete hstatus =>
    obtain rfl := Option.some.inj hfinish
    rw [orderly_iff_of_ok hstatus]
    constructor
    · intro h
      obtain ⟨hcomplete, hsizes⟩ := h.zero_iff.mp rfl
      exact ⟨(handshaken_singleton.mp hcomplete).2, hsizes⟩
    · rintro ⟨hsent, hsizes⟩
      have hcomplete : Handshaken [it] := handshaken_singleton.mpr ⟨hstatus, hsent⟩
      exact ⟨iff_of_true rfl ⟨hcomplete, hsizes⟩, fun h => absurd rfl h⟩

/-- What a run of the loop leads to can be relied on exactly if its passes meet the condition. -/
theorem reports_loop {passes : List Iteration} {t : Connection} {acquired : Resources}
    (hacquired : acquired.GivenBack ⟨1, 1, 1, 1⟩) (hrunning : c.phase = .running)
    (hrun : run Connect.step c passes = some c') (hfinish : c'.finish attributes = some t) :
    t.Reports (Handshaken passes) acquired ↔
      EachStep Connect.step (OrderlyPass attributes) c passes := by
  induction passes generalizing c with
  | nil =>
    obtain rfl := Option.some.inj hrun
    rw [Connect.finish, hrunning] at hfinish
    contradiction
  | cons it passes ih =>
    obtain ⟨u, hu, hrest⟩ := run_cons_eq_some.mp hrun
    rw [eachStep_cons hu]
    have hleaves : Leaves attributes c it u.phase := leaves_step hrunning hu
    by_cases hphase : u.phase = .running
    · -- the loop goes on, and another pass ends it
      have hne : passes ≠ [] := by
        rintro rfl
        obtain rfl := Option.some.inj hrest
        rw [Connect.finish, hphase] at hfinish
        contradiction
      rw [hphase] at hleaves
      cases hleaves with
      | on hstatus hsent horderly =>
        rw [← ih hphase hrest, and_iff_right horderly]
        constructor
        · intro h
          exact ⟨by rw [h.zero_iff, handshaken_cons hsent hne], h.negative⟩
        · intro h
          exact ⟨by rw [h.zero_iff, handshaken_cons hsent hne], h.negative⟩
    · obtain ⟨rfl, rfl⟩ := run_stopped hphase hrest
      rw [reports_last hacquired hleaves rfl hfinish]
      exact (and_iff_left trivial).symm

/-! ## The function as a whole -/

/-- A call that does not reach the loop fails, and gives back what it has. -/
theorem reports_notReady {incoming : List UInt8} {answers : ConnectAnswers} {t : Connection}
    (hready : ¬ answers.Ready) (h : tlsConnect incoming answers = some t) :
    t.Reports (answers.Ready ∧ Handshaken answers.passes) answers.acquired := by
  have hfailed : ∀ acquired released socket, acquired.GivenBack released →
      (Connection.mk (-1) none socket released).Reports
        (answers.Ready ∧ Handshaken answers.passes) acquired := by
    intro acquired released socket hreleased
    exact ⟨by simp, fun _ => ⟨Int.negSucc_lt_zero 0, hreleased⟩⟩
  unfold tlsConnect at h
  unfold ConnectAnswers.acquired
  split_ifs at h with hstartup hsocket hconnected hcredentials
  · obtain rfl := Option.some.inj h
    rw [if_pos hstartup]
    exact hfailed _ _ _ ⟨by simp, rfl, rfl, rfl⟩
  · obtain rfl := Option.some.inj h
    rw [if_neg hstartup, if_pos hsocket]
    exact hfailed _ _ _ ⟨by simp, rfl, rfl, rfl⟩
  · obtain rfl := Option.some.inj h
    rw [if_neg hstartup, if_neg hsocket, if_pos (Or.inl hconnected)]
    exact hfailed _ _ _ ⟨by simp, rfl, rfl, rfl⟩
  · obtain rfl := Option.some.inj h
    rw [if_neg hstartup, if_neg hsocket, if_pos (Or.inr hcredentials)]
    exact hfailed _ _ _ ⟨by simp, rfl, rfl, rfl⟩
  · exfalso
    apply hready
    exact ⟨not_not.mp hstartup, by simpa using hsocket, by simpa using hconnected,
      not_not.mp hcredentials⟩

/-- **The result of `tls_connect`** is 0 exactly for a completed handshake, and otherwise negative
with everything given back, exactly if all passes were orderly. -/
theorem reports_iff {incoming : List UInt8} {answers : ConnectAnswers} {t : Connection}
    (h : tlsConnect incoming answers = some t) :
    t.Reports (answers.Ready ∧ Handshaken answers.passes) answers.acquired ↔
      answers.Orderly incoming := by
  unfold tlsConnect at h
  by_cases hready : answers.Ready
  · obtain ⟨hstartup, hsocket, hconnected, hcredentials⟩ := hready
    simp only [hstartup, hsocket, hconnected, hcredentials, ne_eq, not_true_eq_false, if_false,
      Bool.not_true, Bool.false_eq_true] at h
    obtain ⟨c, hrun, hfinish⟩ := Option.bind_eq_some_iff.mp h
    have hacquired : answers.acquired.GivenBack ⟨1, 1, 1, 1⟩ := by
      simp only [ConnectAnswers.acquired, hstartup, hsocket, hconnected, hcredentials, ne_eq,
        not_true_eq_false, if_false, Bool.not_true, Bool.false_eq_true, or_self]
      split
      · exact ⟨fun _ => rfl, rfl, rfl, rfl⟩
      · exact ⟨fun _ => rfl, rfl, rfl, rfl⟩
    have hready : answers.Ready := ⟨hstartup, hsocket, hconnected, hcredentials⟩
    rw [ConnectAnswers.Orderly, imp_iff_right hready, and_iff_right hready]
    exact reports_loop hacquired rfl hrun hfinish
  · refine iff_of_true (reports_notReady hready h) fun h => absurd h hready

/-- A client hello is sent, the server's answer arrives, and Schannel needs no more. -/
def shortHandshake : ConnectAnswers where
  startup := 0
  socketValid := true
  connected := true
  credentials := .SEC_E_OK
  passes := [⟨⟨.SEC_I_CONTINUE_NEEDED, 0, .empty, [22]⟩, [1], .data [1, 2, 3]⟩,
    ⟨⟨.SEC_E_OK, 3, .empty, [20, 21]⟩, [2], .error⟩]
  attributes := some ⟨5, 16, 16384, 4⟩

theorem reports_shortHandshake :
    ∃ t, tlsConnect zeroed shortHandshake = some t ∧ t.result = 0 ∧
      t.Reports (shortHandshake.Ready ∧ Handshaken shortHandshake.passes)
        shortHandshake.acquired := by
  have hrun : tlsConnect zeroed shortHandshake = some _ := rfl
  exact ⟨_, hrun, rfl, (reports_iff hrun).mpr fun _ => by decide⟩

/-- The server closes the connection after the client hello. -/
def closedHandshake : ConnectAnswers :=
  { shortHandshake with
    passes := [⟨⟨.SEC_I_CONTINUE_NEEDED, 0, .empty, [22]⟩, [1], .closed⟩] }

/-- Success is reported, the sizes are not set, and all that was acquired is still held. -/
theorem orderlyClose_counterexample :
    ∃ t, tlsConnect zeroed closedHandshake = some t ∧ t.result = 0 ∧ t.sizes = none ∧
      closedHandshake.acquired = ⟨1, 1, 1, 1⟩ ∧ t.released = ⟨0, 0, 0, 0⟩ ∧
      ¬ t.Reports (closedHandshake.Ready ∧ Handshaken closedHandshake.passes)
        closedHandshake.acquired := by
  refine ⟨_, rfl, rfl, rfl, rfl, rfl, fun h => ?_⟩
  have hsizes := (h.zero_iff.mp rfl).2
  contradiction

end Win32Experiments.SecureSocket
