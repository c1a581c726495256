import Win32Experiments.Foundation.Run
import Win32Experiments.Win32Service.Status

/-!
# What the service reports

A call of `ReportSvcStatus` that no other call disturbs between its first write and its
`SetServiceStatus` reports its own fields. When in addition no call writes another state over
`SERVICE_STOPPED`, the service never leaves the stopped state.
-/

namespace Win32Experiments.Win32Service

open Foundation

/-! ## Statements -/

/-- The fields were written by one call of `ReportSvcStatus`. -/
def ServiceStatus.Whole (status : ServiceStatus) : Prop :=
  ∃ call, status.dwCurrentState.call = call ∧ status.dwWin32ExitCode.call = call ∧
    status.dwWaitHint.call = call ∧ status.dwControlsAccepted.call = call ∧
    status.dwCheckPoint.call = call

/-- Behind a report of the stopped state there are only such, and no report mixes the fields of
two calls. -/
structure StaysStopped (s : Service) : Prop where
  stopped : s.reports.Pairwise fun earlier later =>
    earlier.dwCurrentState.value = .stopped → later.dwCurrentState.value = .stopped
  whole : ∀ status ∈ s.reports, status.Whole

/-- What the call may write next, when the other thread is in the call `other`: nothing, when
`other` is between its first write and its `SetServiceStatus`; and no other state over
`SERVICE_STOPPED`. -/
def Report.MayWrite (r : Report) (s : Service) (other : Option Report) : Prop :=
  r.next ≠ .setServiceStatus →
    (∀ r' ∈ other, r'.next = .currentState) ∧
    (r.next = .currentState → s.gSvcStatus.dwCurrentState.value = .stopped →
      r.dwCurrentState = .stopped)

instance (r : Report) (s : Service) (other : Option Report) : Decidable (r.MayWrite s other) :=
  inferInstanceAs (Decidable (_ → _ ∧ (_ → _ → _)))

/-- The step writes to `gSvcStatus` what it may write. -/
def Undisturbed (s : Service) : Event → Prop
  | .main _ => ∀ r ∈ s.main.report, r.MayWrite s s.handler.report
  | .handler => ∀ r ∈ s.handler.report, r.MayWrite s s.main.report
  | .control _ => True

instance (s : Service) : ∀ e : Event, Decidable (Undisturbed s e)
  | .main _ => inferInstanceAs (Decidable (∀ r ∈ s.main.report, r.MayWrite s s.handler.report))
  | .handler => inferInstanceAs (Decidable (∀ r ∈ s.handler.report, r.MayWrite s s.main.report))
  | .control _ => isTrue trivial

/-! ## The invariant -/

/-- The fields in front of the call's next step were written by it. -/
def Report.Wrote (r : Report) (status : ServiceStatus) : Prop :=
  match r.next with
  | .currentState => True
  | .win32ExitCode => status.dwCurrentState.call = r.call
  | .waitHint =>
    status.dwCurrentState.call = r.call ∧ status.dwWin32ExitCode.call = r.call
  | .controlsAccepted =>
    status.dwCurrentState.call = r.call ∧ status.dwWin32ExitCode.call = r.call ∧
      status.dwWaitHint.call = r.call
  | .checkPoint =>
    status.dwCurrentState.call = r.call ∧ status.dwWin32ExitCode.call = r.call ∧
      status.dwWaitHint.call = r.call ∧ status.dwControlsAccepted.call = r.call
  | .setServiceStatus =>
    status.dwCurrentState.call = r.call ∧ status.dwWin32ExitCode.call = r.call ∧
      status.dwWaitHint.call = r.call ∧ status.dwControlsAccepted.call = r.call ∧
      status.dwCheckPoint.call = r.call

theorem wrote_of_currentState {r : Report} {status : ServiceStatus} (h : r.next = .currentState) :
    r.Wrote status := by
  rw [Report.Wrote, h]
  trivial

/-- The reports so far, and that the stopped state is still in `gSvcStatus` when it was
reported. -/
structure Service.Reported (s : Service) : Prop where
  reports : StaysStopped s
  last : ∀ status ∈ s.reports, status.dwCurrentState.value = .stopped →
    s.gSvcStatus.dwCurrentState.value = .stopped

/-- The invariant of the undisturbed runs. -/
structure Service.Inv (s : Service) : Prop where
  reported : s.Reported
  main : ∀ r ∈ s.main.report, r.Wrote s.gSvcStatus
  handler : ∀ r ∈ s.handler.report, r.Wrote s.gSvcStatus

theorem inv_init : Service.init.Inv where
  reported := ⟨⟨List.Pairwise.nil, by simp [Service.init]⟩, by simp [Service.init]⟩
  main := by simp [Service.init]
  handler := by simp [Service.init]

/-! ## A step of `ReportSvcStatus` -/

section

variable {s : Service} {r : Report}

/-- The rest of the call has written one field more. -/
theorem wrote_report (h : r.Wrote s.gSvcStatus) :
    ∀ r' ∈ (s.report r).2, r'.Wrote (s.report r).1.gSvcStatus := by
  intro r' hr'
  obtain ⟨call, state, exitCode, hint, next⟩ := r
  cases next <;> simp only [Service.report, Option.mem_def, Option.some.injEq] at hr' ⊢
  case currentState => subst hr'; rfl
  case win32ExitCode => subst hr'; exact ⟨h, rfl⟩
  case waitHint => subst hr'; exact ⟨h.1, h.2, rfl⟩
  case controlsAccepted => subst hr'; exact ⟨h.1, h.2.1, h.2.2, rfl⟩
  case checkPoint =>
    split at hr' <;> obtain rfl := Option.some.inj hr'
    · next hzero =>
      rw [if_pos hzero]
      exact ⟨h.1, h.2.1, h.2.2.1, h.2.2.2, rfl⟩
    · next hzero =>
      rw [if_neg hzero]
      exact ⟨h.1, h.2.1, h.2.2.1, h.2.2.2, rfl⟩
  case setServiceStatus => contradiction

/-- `SetServiceStatus` leaves `gSvcStatus` as it is. -/
theorem gSvcStatus_report (h : r.next = .setServiceStatus) :
    (s.report r).1.gSvcStatus = s.gSvcStatus := by
  rw [Service.report, h]
  show (if s.gSvcStatusHandle then _ else s).gSvcStatus = s.gSvcStatus
  split <;> rfl

/-- Only the first write of a call changes the state. -/
theorem dwCurrentState_report (h : r.next ≠ .currentState) :
    (s.report r).1.gSvcStatus.dwCurrentState = s.gSvcStatus.dwCurrentState := by
  by_cases hset : r.next = .setServiceStatus
  · rw [gSvcStatus_report hset]
  · obtain ⟨call, state, exitCode, hint, next⟩ := r
    cases next <;> simp only [Service.report] at h hset ⊢
    case currentState => contradiction
    case setServiceStatus => contradiction
    case checkPoint => split <;> rfl

/-- The first write writes the state of the call. -/
theorem dwCurrentState_first (h : r.next = .currentState) :
    (s.report r).1.gSvcStatus.dwCurrentState.value = r.dwCurrentState := by
  rw [Service.report, h]

/-- What one piece of a call leaves alone: the threads, and unless it is `SetServiceStatus` the
reports. -/
theorem report_frame :
    ((s.report r).1.main = s.main ∧ (s.report r).1.handler = s.handler) ∧
      ((s.report r).1.reports = s.reports ∨
        r.next = .setServiceStatus ∧ (s.report r).1.reports = s.reports ++ [s.gSvcStatus]) := by
  obtain ⟨call, state, exitCode, hint, next⟩ := r
  cases next <;> simp only [Service.report]
  case setServiceStatus => split <;> simp
  case checkPoint => split <;> simp
  all_goals simp

/-- Only `SetServiceStatus` adds a report, that of `gSvcStatus`. -/
theorem reports_report :
    (s.report r).1.reports = s.reports ∨
    r.next = .setServiceStatus ∧ (s.report r).1.reports = s.reports ++ [s.gSvcStatus] :=
  report_frame.2

theorem threads_report :
    (s.report r).1.main = s.main ∧ (s.report r).1.handler = s.handler :=
  report_frame.1

/-- A step that may be made keeps the reports in order. -/
theorem reported_report {other : Option Report} (h : s.Reported) (hwrote : r.Wrote s.gSvcStatus)
    (hmay : r.MayWrite s other) : (s.report r).1.Reported := by
  -- the stopped state is not overwritten
  have hkept : s.gSvcStatus.dwCurrentState.value = .stopped →
      (s.report r).1.gSvcStatus.dwCurrentState.value = .stopped := by
    intro hstopped
    by_cases hfirst : r.next = .currentState
    · rw [dwCurrentState_first hfirst]
      exact (hmay (by simp [hfirst])).2 hfirst hstopped
    · rw [dwCurrentState_report hfirst, hstopped]
  rcases reports_report (s := s) (r := r) with hreports | ⟨hset, hreports⟩
  · refine ⟨⟨?_, ?_⟩, ?_⟩ <;> rw [hreports]
    · exact h.reports.stopped
    · exact h.reports.whole
    · exact fun status hmem hstopped => hkept (h.last status hmem hstopped)
  · have hwhole : s.gSvcStatus.Whole := by
      rw [Report.Wrote, hset] at hwrote
      exact ⟨r.call, hwrote⟩
    refine ⟨⟨?_, ?_⟩, ?_⟩ <;> rw [hreports]
    · rw [List.pairwise_append]
      refine ⟨h.reports.stopped, List.pairwise_singleton _ _, ?_⟩
      intro earlier hearlier later hlater
      rw [List.mem_singleton.mp hlater]
      exact h.last earlier hearlier
    · exact List.forall_mem_append.mpr ⟨h.reports.whole, by simpa using hwhole⟩
    · intro status hmem hstopped
      rcases List.mem_append.mp hmem with hmem | hmem
      · exact hkept (h.last status hmem hstopped)
      · rw [List.mem_singleton.mp hmem] at hstopped
        exact hkept hstopped

/-- It leaves what the other thread has written. -/
theorem wrote_other {other : Option Report} (hmay : r.MayWrite s other)
    (hother : ∀ r' ∈ other, r'.Wrote s.gSvcStatus) :
    ∀ r' ∈ other, r'.Wrote (s.report r).1.gSvcStatus := by
  intro r' hr'
  by_cases hset : r.next = .setServiceStatus
  · rw [gSvcStatus_report hset]
    exact hother r' hr'
  · exact wrote_of_currentState ((hmay hset).1 r' hr')

end

/-! ## The other steps -/

/-- The step leaves the fields that `ReportSvcStatus` writes, and the reports, as they are. -/
structure Leaves (s t : Service) : Prop where
  dwCurrentState : t.gSvcStatus.dwCurrentState = s.gSvcStatus.dwCurrentState
  dwWin32ExitCode : t.gSvcStatus.dwWin32ExitCode = s.gSvcStatus.dwWin32ExitCode
  dwWaitHint : t.gSvcStatus.dwWaitHint = s.gSvcStatus.dwWaitHint
  dwControlsAccepted : t.gSvcStatus.dwControlsAccepted = s.gSvcStatus.dwControlsAccepted
  dwCheckPoint : t.gSvcStatus.dwCheckPoint = s.gSvcStatus.dwCheckPoint
  reports : t.reports = s.reports

section

variable {s t : Service}

theorem Leaves.reported (hleaves : Leaves s t) (h : s.Reported) : t.Reported := by
  refine ⟨⟨?_, ?_⟩, ?_⟩ <;> rw [hleaves.reports]
  · exact h.reports.stopped
  · exact h.reports.whole
  · rw [hleaves.dwCurrentState]
    exact h.last

theorem Leaves.wrote (hleaves : Leaves s t) {r : Report} (h : r.Wrote s.gSvcStatus) :
    r.Wrote t.gSvcStatus := by
  rw [Report.Wrote, hleaves.dwCurrentState, hleaves.dwWin32ExitCode, hleaves.dwWaitHint,
    hleaves.dwControlsAccepted, hleaves.dwCheckPoint]
  exact h

/-- A step of `SvcMain` outside `ReportSvcStatus` leaves the status, and the call that it may
start has written nothing. -/
theorem mainStep_spec {error : Option ℕ} (h : s.mainStep error = some t) :
    Leaves s t ∧ t.handler = s.handler ∧ ∀ r ∈ t.main.report, r.next = .currentState := by
  unfold Service.mainStep at h
  split at h
  case h_1 =>
    split at h <;> obtain rfl := Option.some.inj h <;>
      exact ⟨⟨rfl, rfl, rfl, rfl, rfl, rfl⟩, rfl, nofun⟩
  case h_5 =>
    split at h <;> obtain rfl := Option.some.inj h <;>
      exact ⟨⟨rfl, rfl, rfl, rfl, rfl, rfl⟩, rfl, nofun⟩
  case h_8 =>
    split at h
    · obtain rfl := Option.some.inj h
      exact ⟨⟨rfl, rfl, rfl, rfl, rfl, rfl⟩, rfl, nofun⟩
    · contradiction
  case h_10 => contradiction
  all_goals
    obtain rfl := Option.some.inj h
    refine ⟨⟨rfl, rfl, rfl, rfl, rfl, rfl⟩, rfl, ?_⟩
    simp [Service.mainCalls, Service.newReport]

theorem handlerStep_spec (h : s.handlerStep = some t) :
    Leaves s t ∧ t.main = s.main ∧ ∀ r ∈ t.handler.report, r.next = .currentState := by
  rw [Service.handlerStep] at h
  split at h
  case h_1 => contradiction
  all_goals
    obtain rfl := Option.some.inj h
    refine ⟨⟨rfl, rfl, rfl, rfl, rfl, rfl⟩, rfl, ?_⟩
    simp [Service.handlerCalls, Service.setEvent, Service.newReport]

/-! ## Runs -/

theorem inv_step {e : Event} (h : s.Inv) (hC : Undisturbed s e) (hstep : s.step e = some t) :
    t.Inv := by
  cases e with
  | main error =>
    rw [Service.step] at hstep
    split at hstep
    · next r hr =>
      obtain rfl := Option.some.inj hstep
      have hwrote := h.main r hr
      have hmay := hC r hr
      have hreported := reported_report h.reported hwrote hmay
      refine ⟨⟨⟨hreported.reports.stopped, hreported.reports.whole⟩, hreported.last⟩,
        wrote_report hwrote, ?_⟩
      show ∀ r' ∈ (s.report r).1.handler.report, r'.Wrote (s.report r).1.gSvcStatus
      rw [threads_report.2]
      exact wrote_other hmay h.handler
    · obtain ⟨hleaves, hhandler, hnew⟩ := mainStep_spec hstep
      refine ⟨hleaves.reported h.reported, fun r hr => wrote_of_currentState (hnew r hr), ?_⟩
      rw [hhandler]
      exact fun r hr => hleaves.wrote (h.handler r hr)
  | handler =>
    rw [Service.step] at hstep
    split at hstep
    · next r hr =>
      obtain rfl := Option.some.inj hstep
      have hwrote := h.handler r hr
      have hmay := hC r hr
      have hreported := reported_report h.reported hwrote hmay
      refine ⟨⟨⟨hreported.reports.stopped, hreported.reports.whole⟩, hreported.last⟩, ?_,
        wrote_report hwrote⟩
      show ∀ r' ∈ (s.report r).1.main.report, r'.Wrote (s.report r).1.gSvcStatus
      rw [threads_report.1]
      exact wrote_other hmay h.main
    · obtain ⟨hleaves, hmain, hnew⟩ := handlerStep_spec hstep
      refine ⟨hleaves.reported h.reported, ?_, fun r hr => wrote_of_currentState (hnew r hr)⟩
      rw [hmain]
      exact fun r hr => hleaves.wrote (h.main r hr)
  | control dwCtrl =>
    rw [Service.step] at hstep
    split at hstep
    · obtain rfl := Option.some.inj hstep
      have hleaves : Leaves s { s with handler := ⟨none, dwCtrl.start⟩ } :=
        ⟨rfl, rfl, rfl, rfl, rfl, rfl⟩
      exact ⟨hleaves.reported h.reported, h.main, nofun⟩
    · contradiction

end

/-- **The stopped state.** At the end of a run in which no call of `ReportSvcStatus` writes between
the first write and the `SetServiceStatus` of another one, or another state over
`SERVICE_STOPPED`, the service has not left the stopped state and no report mixes two calls. -/
theorem staysStopped_run {events : List Event} {s : Service}
    (hC : EachStep Service.step Undisturbed Service.init events)
    (h : run Service.step Service.init events = some s) : StaysStopped s :=
  (run_invariant_of Service.Inv (fun _ _ _ => inv_step) hC h inv_init).reported.reports

/-! ## A run, and a race -/

/-- `SvcMain` up to its wait: five steps of its own, and two reports of seven steps. -/
def started : List Event := List.replicate 18 (.main none)

/-- The states that were reported. -/
def Service.states (s : Service) : List ServiceState :=
  s.reports.map fun status => status.dwCurrentState.value

/-- The service starts and is stopped; the handler ends before `SvcMain` wakes up. -/
theorem staysStopped_stop :
    ∃ s, run Service.step Service.init
        (started ++ [.control .stop] ++ List.replicate 16 .handler ++
          List.replicate 8 (.main none)) = some s ∧
      s.states = [.startPending, .running, .stopPending, .stopPending, .stopped] ∧
      StaysStopped s := by
  have hrun : (run Service.step Service.init
      (started ++ [.control .stop] ++ List.replicate 16 .handler ++
        List.replicate 8 (.main none))).map Service.states
      = some [.startPending, .running, .stopPending, .stopPending, .stopped] := by
    decide +kernel
  obtain ⟨s, hs, hstates⟩ := Option.map_eq_some_iff.mp hrun
  exact ⟨s, hs, hstates, staysStopped_run (by decide +kernel) hs⟩

/-- `SvcMain` wakes up between the handler's read of the state and its report of it. -/
theorem staysStopped_counterexample :
    ∃ s, run Service.step Service.init
        (started ++ [.control .stop] ++ List.replicate 9 .handler ++
          List.replicate 8 (.main none) ++ List.replicate 7 .handler) = some s ∧
      s.states = [.startPending, .running, .stopPending, .stopped, .stopPending] ∧
      ¬ StaysStopped s := by
  have hrun : (run Service.step Service.init
      (started ++ [.control .stop] ++ List.replicate 9 .handler ++
        List.replicate 8 (.main none) ++ List.replicate 7 .handler)).map Service.states
      = some [.startPending, .running, .stopPending, .stopped, .stopPending] := by
    decide +kernel
  obtain ⟨s, hs, hstates⟩ := Option.map_eq_some_iff.mp hrun
  refine ⟨s, hs, hstates, ?_⟩
  intro hstays
  have hpairwise : s.states.Pairwise fun earlier later =>
      earlier = .stopped → later = .stopped := List.pairwise_map.mpr hstays.stopped
  rw [hstates] at hpairwise
  revert hpairwise
  decide

end Win32Experiments.Win32Service
