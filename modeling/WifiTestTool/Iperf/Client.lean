import WifiTestTool.Iperf.Control

/-!
# The client (`iperf_client_api.c`)

`iperf_run_client` with the functions it is made of.
-/

namespace Iperf

open Reactive

/-- The loop of `iperf_create_streams`. -/
def createStreamsLoop (fuel : Nat) : Nat → IperfProg Int
  | 0 => pure 0
  | n + 1 => do
    let t ← getTest
    let s ← protocolConnect fuel t.protocol
    if s < 0 then
      pure (-1)
    else do
      modifyTest fun t =>
        let t := if t.sender then { t with writeSet := insert s t.writeSet }
          else { t with readSet := insert s t.readSet }
        { t with maxFd := max t.maxFd s }
      let sp ← iperfNewStream s
      if !sp then
        pure (-1)
      else do
        connectMsg s
        createStreamsLoop fuel n

/-- `iperf_create_streams` -/
def iperfCreateStreams (fuel : Nat) : IperfProg Int := do
  let t ← getTest
  createStreamsLoop fuel t.numStreams.toNat

/-- Close the socket of every stream. -/
def closeStreamSockets : IperfProg Unit := do
  let sps ← allStreams
  forAllStreams (fun sp => do
    let st ← getStream sp
    sys (.close st.socket)) sps

/-- `iperf_client_end` -/
def iperfClientEnd (fuel : Nat) : IperfProg Int := do
  -- Close all stream sockets.
  closeStreamSockets
  -- Show final summary.
  iperfReporterCallback
  let r ← iperfSetSendState fuel TestState.IPERF_DONE
  if r ≠ 0 then pure (-1) else pure 0

/-- The server has sent `TEST_START`. -/
def handleTestStart : IperfProg Int := do
  let r ← iperfInitTest
  if r < 0 then
    pure (-1)
  else do
    let r ← createClientTimers
    if r < 0 then
      pure (-1)
    else do
      let r ← createOmitTimer
      if r < 0 then
        pure (-1)
      else do
        let t ← getTest
        let r ← if t.reverse = 0 then iperfCreateSendTimers else pure 0
        if r < 0 then pure (-1) else pure 0

/-- The server has sent `SERVER_TERMINATE`. -/
def handleServerTerminate : IperfProg Int := do
  setIErrno .IESERVERTERM
  -- Temporarily be in DISPLAY_RESULTS phase so we can get ending summary statistics.
  let t ← getTest
  updateCpuUtil
  modifyTest fun t => { t with state := TestState.DISPLAY_RESULTS }
  iperfReporterCallback
  modifyTest fun t' => { t' with state := t.state }
  pure (-1)

/-- The server has sent `SERVER_ERROR`. -/
def handleServerError (fuel : Nat) : IperfProg Int := do
  let t ← getTest
  let err ← sys (.stack 4)
  let got ← nread fuel t.ctrlSck 4
  match got with
  | none => fail .IECTRLREAD
  | some got => do
    let err := overlay err got
    setIErrno (.remote (ntohl err))
    let got ← nread fuel t.ctrlSck 4
    match got with
    | none => fail .IECTRLREAD
    | some got => do
      setErrno (.other (ntohl (overlay err got)))
      pure (-1)

/-- The `switch` of `iperf_handle_message_client`. -/
def handleStateClient (fuel : Nat) (state : TestState) : IperfProg Int :=
  if state = TestState.PARAM_EXCHANGE then do
    let r ← iperfExchangeParameters fuel
    if r < 0 then
      pure (-1)
    else do
      iperfOnConnect
      pure 0
  else if state = TestState.CREATE_STREAMS then do
    let r ← iperfCreateStreams fuel
    if r < 0 then pure (-1) else pure 0
  else if state = TestState.TEST_START then handleTestStart
  else if state = TestState.TEST_RUNNING then pure 0
  else if state = TestState.EXCHANGE_RESULTS then do
    let r ← iperfExchangeResults fuel
    if r < 0 then pure (-1) else pure 0
  else if state = TestState.DISPLAY_RESULTS then do
    -- The return value is ignored.
    let _ ← iperfClientEnd fuel
    pure 0
  else if state = TestState.IPERF_DONE then pure 0
  else if state = TestState.SERVER_TERMINATE then handleServerTerminate
  else if state = TestState.ACCESS_DENIED then fail .IEACCESSDENIED
  else if state = TestState.SERVER_ERROR then handleServerError fuel
  else fail .IEMESSAGE

/-- `iperf_handle_message_client`; it calls `read` and not `Nread`. -/
def iperfHandleMessageClient (fuel : Nat) : IperfProg Int := do
  let t ← getTest
  let a ← sys (.read t.ctrlSck 1)
  match a with
  | .error e => do
    setErrno e
    fail .IERECVMESSAGE
  | .ok [] => fail .IECTRLCLOSE
  | .ok (b :: _) => do
    modifyTest fun t => { t with state := b.toInt8 }
    handleStateClient fuel b.toInt8

/-- `iperf_connect` -/
def iperfConnect (fuel : Nat) : IperfProg Int := do
  modifyTest fun t => { t with readSet := ∅, writeSet := ∅ }
  let cookie ← sys .makeCookie
  modifyTest fun t => { t with cookie := cookie }
  -- Create and connect the control channel.
  let t ← getTest
  if t.ctrlSck < 0 then do
    let s ← netdial t.settings.domain .tcp t.bindAddress t.serverHostname t.serverPort
    modifyTest fun t => { t with ctrlSck := s }
  let t ← getTest
  if t.ctrlSck < 0 then
    fail .IECONNECT
  else do
    let r ← nwrite fuel t.ctrlSck t.cookie
    if r < 0 then
      fail .IESENDCOOKIE
    else do
      modifyTest fun t => { t with
        readSet := insert t.ctrlSck t.readSet
        maxFd := max t.maxFd t.ctrlSck }
      pure 0

/-! ## `iperf_run_client` -/

/-- The local variables of `iperf_run_client` that live across the passes of its loop. `itimer` is the
concurrency model `cm_itimer`. -/
structure ClientLocals where
  itimer : Bool
  startup : Bool
  /-- `result == 0` -/
  selectTimedOut : Bool
  readSet : FdSet
  writeSet : FdSet
  timeout : Option Timeval

/-- The `select` part of the loop: `none` where the source returns `-1`. -/
def clientSelect (fuel : Nat) (l : ClientLocals) : IperfProg (Option ClientLocals) := do
  let t ← getTest
  let now ← gettimeofday
  let timeout ← getTimeout now
  let a ← sys (.select (t.maxFd + 1) t.readSet t.writeSet timeout)
  match a with
  | .error e => do
    setErrno e
    if e ≠ .eintr then do
      setIErrno .IESELECT
      pure none
    else
      pure (some { l with
        selectTimedOut := false, readSet := t.readSet, writeSet := t.writeSet, timeout := timeout })
  | .ok (n, readSet, writeSet) => do
    let l := { l with
      selectTimedOut := n = 0, readSet := readSet, writeSet := writeSet, timeout := timeout }
    let t ← getTest
    if n > 0 ∧ t.ctrlSck ∈ readSet then do
      let r ← iperfHandleMessageClient fuel
      if r < 0 then
        pure none
      else do
        let t ← getTest
        pure (some { l with readSet := readSet.erase t.ctrlSck })
    else
      pure (some l)

/-- Is SIGALRM to be used for the real test? -/
def mayUseItimer (t : IperfTest) : Bool :=
  t.mayUseSigalrm && t.settings.rate = 0 &&
    (t.statsInterval = 0 || t.statsInterval > 1 / 5) &&
    (t.reporterInterval = 0 || t.reporterInterval > 1 / 5) &&
    (t.omitTime = 0 || (t.omitTime : ℚ) > 1 / 5) && t.reverse = 0

/-- Decide which concurrency model to use for the real test. -/
def clientStartup (l : ClientLocals) : IperfProg ClientLocals := do
  let t ← getTest
  if l.startup then
    if mayUseItimer t then do
      modifyTest fun t => { t with multisend := 1 }
      sys (.setitimer true)
      pure { l with startup := false, itimer := true }
    else
      pure { l with startup := false }
  else
    pure l

/-- Move data. -/
def clientData (fuel : Nat) (l : ClientLocals) : IperfProg Int := do
  let t ← getTest
  if t.reverse ≠ 0 then
    -- Reverse mode. Client receives.
    iperfRecv fuel l.readSet
  else
    -- Regular mode. Client sends.
    iperfSend fuel (if l.itimer then none else some l.writeSet)

/-- Run the timers if it is time to. -/
def clientTimers (fuel : Nat) (l : ClientLocals) : IperfProg Unit :=
  if l.itimer then do
    let triggered ← sys .sigalrm
    if triggered then runTimers fuel
  else if l.selectTimedOut ∨ l.timeout = some ⟨0, 0⟩ then
    runTimers fuel
  else
    pure ()

/-- Is the test done yet? -/
def testIsOver (t : IperfTest) : Bool :=
  !t.omitting &&
    ((t.duration ≠ 0 && t.done) ||
      (t.settings.bytes ≠ 0 && t.bytesSent ≥ t.settings.bytes) ||
      (t.settings.blocks ≠ 0 && t.blocksSent ≥ t.settings.blocks))

/-- The end of the test, if its end condition is met. -/
def clientMaybeEnd (fuel : Nat) (l : ClientLocals) : IperfProg (Option ClientLocals) := do
  let t ← getTest
  if testIsOver t then do
    modifyTest fun t => { t with done := true }
    updateCpuUtil
    iperfStatsCallback
    let r ← iperfSetSendState fuel TestState.TEST_END
    if r ≠ 0 then
      pure none
    else if l.itimer then do
      -- Go back to select() for the end.
      sys (.setitimer false)
      pure (some { l with itimer := false })
    else
      pure (some l)
  else
    pure (some l)

/-- The part of the loop for the state `TEST_RUNNING`. -/
def clientRunning (fuel : Nat) (l : ClientLocals) : IperfProg (Option ClientLocals) := do
  let l ← clientStartup l
  let r ← clientData fuel l
  if r < 0 then
    pure none
  else do
    clientTimers fuel l
    clientMaybeEnd fuel l

/-- One pass through the loop of `iperf_run_client`. -/
def clientStep (fuel : Nat) (l : ClientLocals) : IperfProg (Option ClientLocals) := do
  let r ← if l.itimer then pure (some l) else clientSelect fuel l
  match r with
  | none => pure none
  | some l => do
    let t ← getTest
    if t.state = TestState.TEST_RUNNING then
      clientRunning fuel l
    else if t.reverse ≠ 0 ∧ t.state = TestState.TEST_END then do
      -- Continue draining the data connections.
      let r ← iperfRecv fuel l.readSet
      if r < 0 then pure none else pure (some l)
    else
      pure (some l)

/-- The loop of `iperf_run_client`. -/
def clientLoop (fuel : Nat) : Nat → ClientLocals → IperfProg Bool
  | 0, _ => Prog.stop Halt.spin
  | passes + 1, l => do
    let t ← getTest
    if t.state = TestState.IPERF_DONE then
      pure true
    else do
      let r ← clientStep fuel l
      match r with
      | none => pure false
      | some l => clientLoop fuel passes l

/-- The end of `iperf_run_client`. -/
def clientFinish : IperfProg Int := do
  let t ← getTest
  if t.jsonOutput then do
    let r ← iperfJsonFinish
    if r < 0 then pure (-1) else pure 0
  else do
    iprintf .newline []
    iprintf .reportDone []
    pure 0

/-- `iperf_run_client` from the opening of the control connection on. -/
def clientMain (fuel : Nat) : IperfProg Int := do
  let r ← iperfConnect fuel
  if r < 0 then
    pure (-1)
  else do
    -- Begin calculating CPU utilization.
    let _ ← sys .cpuUtil
    let ok ← clientLoop fuel fuel
      { itimer := false, startup := true, selectTimedOut := true, readSet := ∅, writeSet := ∅,
        timeout := none }
    if ok then clientFinish else pure (-1)

/-- `iperf_run_client` -/
def iperfRunClient (fuel : Nat) : IperfProg Int := do
  sys .catchSigend
  prolog (clientMain fuel)

end Iperf
