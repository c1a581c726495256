import Mathlib.Algebra.Group.Nat.Defs
import Mathlib.Tactic.Common

/-!
# The status of `Win32Service`

`SvcMain` runs on the service thread and `SvcCtrlHandler` on the dispatcher thread; both report
through `ReportSvcStatus`, which fills in the one `gSvcStatus` and hands it to the service control
manager. A step is a read or write of a field of `gSvcStatus`, a `SetServiceStatus` or an
operation on the stop event, and the steps of the two threads interleave.
-/

namespace Win32Experiments.Win32Service

/-- The states that the service reports; `unset` is the zero that `gSvcStatus` starts with. -/
inductive ServiceState
  | unset
  | stopped
  | startPending
  | stopPending
  | running
deriving DecidableEq, Repr

/-- The control codes that `SvcCtrlHandler` tells apart. -/
inductive ServiceControl
  | interrogate
  | stop
  | shutdown
  | sessionChange
  | other
deriving DecidableEq, Repr

/-- A field of `gSvcStatus`, and the call of `ReportSvcStatus` that wrote it. -/
structure Field (β : Type) where
  value : β
  call : ℕ
deriving DecidableEq, Repr

/-- `SERVICE_STATUS`. The first two members are not written by `ReportSvcStatus`. -/
structure ServiceStatus where
  dwServiceType : ℕ
  dwServiceSpecificExitCode : ℕ
  dwCurrentState : Field ServiceState
  dwWin32ExitCode : Field ℕ
  dwWaitHint : Field ℕ
  dwControlsAccepted : Field ℕ
  dwCheckPoint : Field ℕ
deriving DecidableEq, Repr

/-- `NO_ERROR`. -/
def noError : ℕ := 0

/-- `SERVICE_WIN32_OWN_PROCESS`. -/
def serviceWin32OwnProcess : ℕ := 0x10

/-- `SERVICE_ACCEPT_STOP | SERVICE_ACCEPT_SESSIONCHANGE | SERVICE_CONTROL_SHUTDOWN`. -/
def controlsAccepted : ℕ := 0x1 ||| 0x80 ||| 0x5

/-! ## `ReportSvcStatus` -/

/-- The next step of a call of `ReportSvcStatus`. -/
inductive ReportStep
  | currentState
  | win32ExitCode
  | waitHint
  | controlsAccepted
  | checkPoint
  | setServiceStatus
deriving DecidableEq, Repr

/-- A call of `ReportSvcStatus` in progress. -/
structure Report where
  call : ℕ
  dwCurrentState : ServiceState
  dwWin32ExitCode : ℕ
  dwWaitHint : ℕ
  next : ReportStep
deriving DecidableEq, Repr

/-- What `SvcMain` does next, when it is not in `ReportSvcStatus`. -/
inductive MainPoint
  | registerServiceCtrlHandler
  | serviceType
  | serviceSpecificExitCode
  | reportStartPending
  | createEvent
  | reportNoEvent (lastError : ℕ)
  | reportRunning
  | waitForStopEvent
  | reportStopped
  | returned
deriving DecidableEq, Repr

/-- What `SvcCtrlHandler` does next, when it is not in `ReportSvcStatus`. -/
inductive HandlerPoint
  | idle
  | reportStopPending
  | setStopEvent
  | readState
  | reportState (dwCurrentState : ServiceState)
  | setShutdownEvent
deriving DecidableEq, Repr

/-- A thread: the call of `ReportSvcStatus` it is in, and where it goes on. -/
structure Thread (P : Type) where
  report : Option Report
  point : P
deriving DecidableEq, Repr

/-- The process: the globals, the two threads and the statuses that were set. `ghSvcStopEvent` is
`none` while it is null, and else says whether the event is signalled. -/
structure Service where
  gSvcStatus : ServiceStatus
  gSvcStatusHandle : Bool
  ghSvcStopEvent : Option Bool
  dwCheckPoint : ℕ
  calls : ℕ
  main : Thread MainPoint
  handler : Thread HandlerPoint
  reports : List ServiceStatus
deriving DecidableEq, Repr

/-- The process when `SvcMain` starts. -/
def Service.init : Service :=
  { gSvcStatus := ⟨0, 0, ⟨.unset, 0⟩, ⟨0, 0⟩, ⟨0, 0⟩, ⟨0, 0⟩, ⟨0, 0⟩⟩
    gSvcStatusHandle := false, ghSvcStopEvent := none, dwCheckPoint := 1, calls := 0
    main := ⟨none, .registerServiceCtrlHandler⟩, handler := ⟨none, .idle⟩, reports := [] }

section

variable (s : Service)

/-- A step of a call of `ReportSvcStatus`, and the rest of the call. -/
def Service.report (r : Report) : Service × Option Report :=
  match r.next with
  | .currentState =>
    ({ s with gSvcStatus := { s.gSvcStatus with dwCurrentState := ⟨r.dwCurrentState, r.call⟩ } },
      some { r with next := .win32ExitCode })
  | .win32ExitCode =>
    ({ s with gSvcStatus := { s.gSvcStatus with dwWin32ExitCode := ⟨r.dwWin32ExitCode, r.call⟩ } },
      some { r with next := .waitHint })
  | .waitHint =>
    ({ s with gSvcStatus := { s.gSvcStatus with dwWaitHint := ⟨r.dwWaitHint, r.call⟩ } },
      some { r with next := .controlsAccepted })
  | .controlsAccepted =>
    let accepted := if r.dwCurrentState = .startPending then 0 else controlsAccepted
    ({ s with gSvcStatus := { s.gSvcStatus with dwControlsAccepted := ⟨accepted, r.call⟩ } },
      some { r with next := .checkPoint })
  | .checkPoint =>
    if r.dwCurrentState = .running ∨ r.dwCurrentState = .stopped then
      ({ s with gSvcStatus := { s.gSvcStatus with dwCheckPoint := ⟨0, r.call⟩ } },
        some { r with next := .setServiceStatus })
    else
      ({ s with
        gSvcStatus := { s.gSvcStatus with dwCheckPoint := ⟨s.dwCheckPoint, r.call⟩ }
        dwCheckPoint := (s.dwCheckPoint + 1) % 2 ^ 32 },
        some { r with next := .setServiceStatus })
  | .setServiceStatus =>
    -- without a handle the call fails
    (if s.gSvcStatusHandle then { s with reports := s.reports ++ [s.gSvcStatus] } else s, none)

/-- The call of `ReportSvcStatus` that the thread makes next. -/
def Service.newReport (dwCurrentState : ServiceState) (dwWin32ExitCode dwWaitHint : ℕ) : Report :=
  { call := s.calls + 1, dwCurrentState, dwWin32ExitCode, dwWaitHint, next := .currentState }

/-- `SvcMain` calls `ReportSvcStatus` and goes on at `point`. -/
def Service.mainCalls (dwCurrentState : ServiceState) (dwWin32ExitCode dwWaitHint : ℕ)
    (point : MainPoint) : Service :=
  { s with
    calls := s.calls + 1
    main := ⟨some (s.newReport dwCurrentState dwWin32ExitCode dwWaitHint), point⟩ }

/-- `SvcCtrlHandler` calls `ReportSvcStatus` and goes on at `point`. -/
def Service.handlerCalls (dwCurrentState : ServiceState) (point : HandlerPoint) : Service :=
  { s with
    calls := s.calls + 1
    handler := ⟨some (s.newReport dwCurrentState noError 0), point⟩ }

/-- A step of `SvcMain` outside `ReportSvcStatus`; `error` says whether the call that it makes
fails. -/
def Service.mainStep (error : Option ℕ) : Option Service :=
  match s.main.point with
  | .registerServiceCtrlHandler =>
    match error with
    | some _ => some { s with main := ⟨none, .returned⟩ }
    | none => some { s with gSvcStatusHandle := true, main := ⟨none, .serviceType⟩ }
  | .serviceType =>
    some { s with
      gSvcStatus := { s.gSvcStatus with dwServiceType := serviceWin32OwnProcess }
      main := ⟨none, .serviceSpecificExitCode⟩ }
  | .serviceSpecificExitCode =>
    some { s with
      gSvcStatus := { s.gSvcStatus with dwServiceSpecificExitCode := 0 }
      main := ⟨none, .reportStartPending⟩ }
  | .reportStartPending => some (s.mainCalls .startPending 0 3000 .createEvent)
  | .createEvent =>
    match error with
    | some lastError => some { s with main := ⟨none, .reportNoEvent lastError⟩ }
    | none => some { s with ghSvcStopEvent := some false, main := ⟨none, .reportRunning⟩ }
  | .reportNoEvent lastError => some (s.mainCalls .stopped lastError 0 .returned)
  | .reportRunning => some (s.mainCalls .running noError 0 .waitForStopEvent)
  | .waitForStopEvent =>
    if s.ghSvcStopEvent = some true then some { s with main := ⟨none, .reportStopped⟩ } else none
  | .reportStopped => some (s.mainCalls .stopped noError 0 .returned)
  | .returned => none

/-- `SetEvent(ghSvcStopEvent)`, which fails on a null handle. -/
def Service.setEvent (point : HandlerPoint) : Service :=
  { s with ghSvcStopEvent := s.ghSvcStopEvent.map fun _ => true, handler := ⟨none, point⟩ }

/-- A step of `SvcCtrlHandler` outside `ReportSvcStatus`. -/
def Service.handlerStep : Option Service :=
  match s.handler.point with
  | .idle => none
  | .reportStopPending => some (s.handlerCalls .stopPending .setStopEvent)
  | .setStopEvent => some (s.setEvent .readState)
  | .readState =>
    some { s with handler := ⟨none, .reportState s.gSvcStatus.dwCurrentState.value⟩ }
  | .reportState dwCurrentState => some (s.handlerCalls dwCurrentState .idle)
  | .setShutdownEvent => some (s.setEvent .idle)

/-- Where `SvcCtrlHandler` starts for a control code. -/
def ServiceControl.start : ServiceControl → HandlerPoint
  | .interrogate => .idle
  | .stop => .reportStopPending
  | .shutdown => .setShutdownEvent
  | .sessionChange => .readState
  | .other => .idle

end

/-- A step of one of the threads, or the next control code for the dispatcher thread. -/
inductive Event
  | main (error : Option ℕ)
  | handler
  | control (dwCtrl : ServiceControl)
deriving DecidableEq, Repr

/-- A step of the process. -/
def Service.step (s : Service) : Event → Option Service
  | .main error =>
    match s.main.report with
    | some r =>
      let (s, report) := s.report r
      some { s with main := ⟨report, s.main.point⟩ }
    | none => s.mainStep error
  | .handler =>
    match s.handler.report with
    | some r =>
      let (s, report) := s.report r
      some { s with handler := ⟨report, s.handler.point⟩ }
    | none => s.handlerStep
  | .control dwCtrl =>
    if s.gSvcStatusHandle ∧ s.handler = ⟨none, .idle⟩ then
      some { s with handler := ⟨none, dwCtrl.start⟩ }
    else none

end Win32Experiments.Win32Service
