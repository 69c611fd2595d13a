import WifiTestTool.Iperf.Data
import WifiTestTool.Iperf.Report

/-!
# The timers of a test (`iperf_client_api.c`, `iperf_server_api.c`, `iperf_api.c`)

The timer procedures and the functions that create and cancel the timers of a test. The client and the
server have procedures with the same text for the stats timer, the reporter timer and the omit timer.
-/

namespace Iperf

open Dll (Addr)
open Reactive

/-- The timer package in the memory of iperf. -/
def memTimers : TimerView Mem Halt TimerProc where
  get m := m.timers
  set t m := { m with timers := t }
  wild := .wildTimer
  spin := .spin

/-! ## Timer procedures -/

/-- `test_timer_proc` -/
def testTimerProc : IperfProg Unit := modifyTest fun t => { t with timer := none, done := true }

/-- `client_stats_timer_proc` and `server_stats_timer_proc` -/
def statsTimerProc : IperfProg Unit := do
  let t ← getTest
  if t.done then pure () else iperfStatsCallback

/-- `client_reporter_timer_proc` and `server_reporter_timer_proc` -/
def reporterTimerProc : IperfProg Unit := do
  let t ← getTest
  if t.done then pure () else iperfReporterCallback

/-- `tmr_reset`, unless the handle is `NULL`. -/
def resetHandle (now : Timeval) (handle : Option Addr) : IperfProg Unit :=
  match handle with
  | none => pure ()
  | some t => memTimers.run (tmrReset now t)

/-- `client_omit_timer_proc` and `server_omit_timer_proc` -/
def omitTimerProc (now : Timeval) : IperfProg Unit := do
  modifyTest fun t => { t with omitTimer := none, omitting := false }
  iperfResetStats
  let t ← getTest
  if t.verbose && !t.jsonOutput && t.reporterInterval = 0 then iprintf .reportOmitDone []
  -- Reset the timers.
  resetHandle now t.statsTimer
  resetHandle now t.reporterTimer

/-- `send_timer_proc` -/
def sendTimerProc (sp : Nat) (now : Timeval) : IperfProg Unit := iperfCheckThrottle sp now

/-- The call of a timer procedure in `tmr_run`. -/
def timerProc (_ : Addr) : TimerProc → Timeval → IperfProg Unit
  | .testTimer, _ => testTimerProc
  | .statsTimer, _ => statsTimerProc
  | .reporterTimer, _ => reporterTimerProc
  | .omitTimer, now => omitTimerProc now
  | .sendTimer sp, now => sendTimerProc sp now

/-- `gettimeofday` followed by `tmr_run` -/
def runTimers (fuel : Nat) : IperfProg Unit := do
  let now ← gettimeofday
  tmrRun memTimers timerProc fuel now

/-- `tmr_timeout` -/
def getTimeout (now : Timeval) : IperfProg (Option Timeval) := do
  let m ← Prog.get
  match tmrTimeout now m.timers with
  | none => Prog.stop Halt.wildTimer
  | some timeout => pure timeout

/-! ## Creating timers -/

/-- `tmr_create` -/
def createTimer (now : Timeval) (proc : TimerProc) (usecs : Int) (periodic : Bool) :
    IperfProg (Option Addr) :=
  memTimers.create (sys .mallocTimer) now proc usecs periodic

/-- Create a timer and keep its handle; `-1` when there is no memory for it. -/
def startTimer (now : Timeval) (proc : TimerProc) (usecs : Int) (periodic : Bool)
    (keep : Option Addr → IperfTest → IperfTest) : IperfProg Int := do
  let handle ← createTimer now proc usecs periodic
  modifyTest (keep handle)
  if handle = none then fail .IEINITTEST else pure 0

/-- A number of seconds in microseconds. -/
def secToUs (q : ℚ) : Int := truncRat (q * SEC_TO_US)

/-- The stats timer of `create_client_timers` and `create_server_timers`. -/
def createStatsTimer (now : Timeval) : IperfProg Int := do
  let t ← getTest
  if t.statsInterval ≠ 0 then
    startTimer now .statsTimer (secToUs t.statsInterval) true fun h t => { t with statsTimer := h }
  else
    pure 0

/-- The reporter timer of `create_client_timers` and `create_server_timers`. -/
def createReporterTimer (now : Timeval) : IperfProg Int := do
  let t ← getTest
  if t.reporterInterval ≠ 0 then
    startTimer now .reporterTimer (secToUs t.reporterInterval) true
      fun h t => { t with reporterTimer := h }
  else
    pure 0

/-- The time of day, or the failure of a function that needs it. -/
def withTime (k : Timeval → IperfProg Int) : IperfProg Int := do
  let a ← sys .gettimeofday
  match a with
  | .error e => do
    setErrno e
    fail .IEINITTEST
  | .ok now => k now

/-- `create_server_timers` -/
def createServerTimers : IperfProg Int := withTime fun now => do
  modifyTest fun t => { t with statsTimer := none, reporterTimer := none }
  let r ← createStatsTimer now
  if r < 0 then pure (-1) else createReporterTimer now

/-- The timer of `create_client_timers` that ends the test. -/
def createTestTimer (now : Timeval) : IperfProg Int := do
  let t ← getTest
  if t.duration ≠ 0 then do
    modifyTest fun t => { t with done := false }
    startTimer now .testTimer ((t.duration + t.omitTime) * SEC_TO_US) false
      fun h t => { t with timer := h }
  else
    pure 0

/-- `create_client_timers` -/
def createClientTimers : IperfProg Int := withTime fun now => do
  modifyTest fun t => { t with timer := none, statsTimer := none, reporterTimer := none }
  let r ← createTestTimer now
  if r < 0 then pure (-1)
  else do
    let r ← createStatsTimer now
    if r < 0 then pure (-1) else createReporterTimer now

/-- `create_client_omit_timer` and `create_server_omit_timer` -/
def createOmitTimer : IperfProg Int := do
  let t ← getTest
  if t.omitTime = 0 then do
    modifyTest fun t => { t with omitTimer := none, omitting := false }
    pure 0
  else withTime fun now => do
    modifyTest fun t => { t with omitting := true }
    startTimer now .omitTimer (t.omitTime * SEC_TO_US) false fun h t => { t with omitTimer := h }

/-- The send timer of one stream; a value is what `iperf_create_send_timers` returns at once. -/
def createSendTimer (sp : Nat) : IperfProg (Option Int) := do
  modifyStream sp fun st => { st with greenLight := true }
  let t ← getTest
  if t.settings.rate ≠ 0 then do
    let now ← gettimeofday
    let handle ← createTimer now (.sendTimer sp) 100000 true
    modifyStream sp fun st => { st with sendTimer := handle }
    if handle = none then do
      setIErrno .IEINITTEST
      pure (some (-1))
    else
      pure none
  else
    pure none

/-- `iperf_create_send_timers` -/
def iperfCreateSendTimers : IperfProg Int := withTime fun _ => do
  let sps ← allStreams
  let r ← forStreams createSendTimer sps
  pure (r.getD 0)

/-! ## Cancelling timers -/

/-- `tmr_cancel`, unless the handle is `NULL`. -/
def cancelHandle (handle : Option Addr) : IperfProg Unit :=
  match handle with
  | none => pure ()
  | some t => memTimers.run (tmrCancel t)

/-- Cancel the timer of a test behind a handle, and forget the handle. -/
def cancelTimer (handle : IperfTest → Option Addr) (clear : IperfTest → IperfTest) :
    IperfProg Unit := do
  let t ← getTest
  cancelHandle (handle t)
  modifyTest clear

/-- Cancel the stats timer. -/
def cancelStatsTimer : IperfProg Unit :=
  cancelTimer IperfTest.statsTimer fun t => { t with statsTimer := none }

/-- Cancel the reporter timer. -/
def cancelReporterTimer : IperfProg Unit :=
  cancelTimer IperfTest.reporterTimer fun t => { t with reporterTimer := none }

/-- Cancel the omit timer. -/
def cancelOmitTimer : IperfProg Unit :=
  cancelTimer IperfTest.omitTimer fun t => { t with omitTimer := none }

/-- Cancel the timer that ends the test. -/
def cancelTestTimer : IperfProg Unit :=
  cancelTimer IperfTest.timer fun t => { t with timer := none }

end Iperf
