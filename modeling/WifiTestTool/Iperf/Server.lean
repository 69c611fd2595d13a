import WifiTestTool.Iperf.Control

/-!
# The server (`iperf_server_api.c`)

`iperf_run_server` with the functions it is made of. The body of its loop is cut into the parts that
the source separates by its tests of the descriptor sets: the listener, the control connection, the
creation of the streams, the data, and the timers. A part yields `none` where the source cleans up
and returns `-1`.
-/

namespace Iperf

open Reactive

/-- `netannounce` for the listener of the server. -/
def announceListener : IperfProg Int := do
  let t ← getTest
  let s ← netannounce t.settings.domain .tcp t.bindAddress t.serverPort
  modifyTest fun t => { t with listener := s }
  pure s

/-- `iperf_server_listen` up to the point where the listener is there. -/
def openListener : IperfProg Int := do
  let s ← announceListener
  if s < 0 then do
    let m ← Prog.get
    let domain := m.test.settings.domain
    if m.errno = .eafnosupport ∧ (domain = .inet6 ∨ domain = .unspec) then do
      -- The kernel does not do IPv6; try again with IPv4.
      iperfErr "this system does not seem to support IPv6 - trying IPv4"
      modifyTest (onSettings fun s => { s with domain := .inet })
      let s ← announceListener
      if s < 0 then fail .IELISTEN else pure 0
    else
      fail .IELISTEN
  else
    pure 0

/-- `iperf_server_listen` -/
def iperfServerListen : IperfProg Int := do
  let r ← openListener
  if r < 0 then
    pure (-1)
  else do
    let t ← getTest
    if !t.jsonOutput then do
      iprintf .serverSeparator []
      iprintf .serverListening [.int t.serverPort]
      iprintf .serverSeparator []
    modifyTest fun t => { t with
      readSet := {t.listener}
      writeSet := ∅
      maxFd := max t.maxFd t.listener }
    pure 0

/-! ## `iperf_accept` -/

/-- The server is free: the connection `s` becomes the control connection. -/
def acceptClient (fuel : Nat) (s : Int) : IperfProg Int := do
  modifyTest fun t => { t with ctrlSck := s }
  let got ← nread fuel s COOKIE_SIZE
  match got with
  | none => fail .IERECVCOOKIE
  | some got => do
    modifyTest fun t => { t with
      cookie := overlay t.cookie got
      readSet := insert t.ctrlSck t.readSet
      maxFd := max t.maxFd t.ctrlSck }
    let r ← iperfSetSendState fuel TestState.PARAM_EXCHANGE
    if r ≠ 0 then
      pure (-1)
    else do
      let r ← iperfExchangeParameters fuel
      if r < 0 then
        pure (-1)
      else do
        let t ← getTest
        let r ← if t.serverAffinity ≠ -1 then iperfSetaffinity t.serverAffinity else pure 0
        if r ≠ 0 then
          pure (-1)
        else do
          iperfOnConnect
          pure 0

/-- The server is busy: the connection `s` is turned away. -/
def denyClient (fuel : Nat) (s : Int) : IperfProg Int := do
  let _ ← sys (.stack COOKIE_SIZE)
  let got ← nread fuel s COOKIE_SIZE
  match got with
  | none => fail .IERECVCOOKIE
  | some _ => do
    let r ← nwrite fuel s [TestState.ACCESS_DENIED.toUInt8]
    if r < 0 then
      fail .IESENDMESSAGE
    else do
      sys (.close s)
      pure 0

/-- `iperf_accept` -/
def iperfAccept (fuel : Nat) : IperfProg Int := do
  let t ← getTest
  let s ← sockAccept t.listener
  if s < 0 then fail .IEACCEPT
  else if t.ctrlSck = -1 then acceptClient fuel s
  else denyClient fuel s

/-! ## `iperf_handle_message_server` -/

/-- Take the socket of every stream out of the sets, and close it. -/
def closeStreams : IperfProg Unit := do
  let sps ← allStreams
  forAllStreams (fun sp => do
    let st ← getStream sp
    modifyTest fun t => { t with
      readSet := t.readSet.erase st.socket
      writeSet := t.writeSet.erase st.socket }
    sys (.close st.socket)) sps

/-- The client has sent `TEST_END`. -/
def handleTestEnd (fuel : Nat) : IperfProg Int := do
  modifyTest fun t => { t with done := true }
  updateCpuUtil
  iperfStatsCallback
  closeStreams
  let r ← iperfSetSendState fuel TestState.EXCHANGE_RESULTS
  if r ≠ 0 then
    pure (-1)
  else do
    let r ← iperfExchangeResults fuel
    if r < 0 then
      pure (-1)
    else do
      let r ← iperfSetSendState fuel TestState.DISPLAY_RESULTS
      if r ≠ 0 then
        pure (-1)
      else do
        iperfReporterCallback
        pure 0

/-- The client has sent `CLIENT_TERMINATE`. -/
def handleClientTerminate : IperfProg Int := do
  setIErrno .IECLIENTTERM
  -- Temporarily be in DISPLAY_RESULTS phase so we can get ending summary statistics.
  let t ← getTest
  updateCpuUtil
  modifyTest fun t => { t with state := TestState.DISPLAY_RESULTS }
  iperfReporterCallback
  modifyTest fun t' => { t' with state := t.state }
  iperfErr "the client has terminated"
  closeStreams
  modifyTest fun t => { t with state := TestState.IPERF_DONE }
  pure 0

/-- The client has closed the control connection. -/
def handleClientClosed : IperfProg Int := do
  iperfErr "the client has unexpectedly closed the connection"
  setIErrno .IECTRLCLOSE
  modifyTest fun t => { t with state := TestState.IPERF_DONE }
  pure 0

/-- The `switch` of `iperf_handle_message_server`. -/
def handleStateServer (fuel : Nat) (state : TestState) : IperfProg Int :=
  if state = TestState.TEST_START then pure 0
  else if state = TestState.TEST_END then handleTestEnd fuel
  else if state = TestState.IPERF_DONE then pure 0
  else if state = TestState.CLIENT_TERMINATE then handleClientTerminate
  else fail .IEMESSAGE

/-- `iperf_handle_message_server` -/
def iperfHandleMessageServer (fuel : Nat) : IperfProg Int := do
  let t ← getTest
  let got ← nread fuel t.ctrlSck 1
  match got with
  | none => fail .IERECVMESSAGE
  | some [] => handleClientClosed
  | some (b :: _) => do
    modifyTest fun t => { t with state := b.toInt8 }
    handleStateServer fuel b.toInt8

/-! ## `iperf_run_server` -/

/-- `cleanup_server` -/
def cleanupServer : IperfProg Unit := do
  let t ← getTest
  -- Close open test sockets.
  sys (.close t.ctrlSck)
  sys (.close t.listener)
  -- Cancel any remaining timers.
  cancelStatsTimer
  cancelReporterTimer
  cancelOmitTimer

/-- A call whose failure ends the run. -/
def orCleanup {α : Type} (r : IperfProg Int) (k : IperfProg (Option α)) : IperfProg (Option α) := do
  let v ← r
  if v < 0 then do
    cleanupServer
    pure none
  else
    k

/-- A connection is waiting at the listener. -/
def serverListenerPart (fuel : Nat) (readSet : FdSet) : IperfProg (Option FdSet) := do
  let t ← getTest
  if t.listener ∈ readSet ∧ t.state ≠ TestState.CREATE_STREAMS then
    orCleanup (iperfAccept fuel) do
      let t ← getTest
      pure (some (readSet.erase t.listener))
  else
    pure (some readSet)

/-- There is something to read on the control connection. -/
def serverControlPart (fuel : Nat) (readSet : FdSet) : IperfProg (Option FdSet) := do
  let t ← getTest
  if t.ctrlSck ∈ readSet then
    orCleanup (iperfHandleMessageServer fuel) do
      let t ← getTest
      pure (some (readSet.erase t.ctrlSck))
  else
    pure (some readSet)

/-- A stream is there for the connection `s`. -/
def admitStream (s : Int) : IperfProg Unit := do
  modifyTest fun t =>
    let t := if t.sender then { t with writeSet := insert s t.writeSet }
      else { t with readSet := insert s t.readSet }
    { t with maxFd := max t.maxFd s }
  connectMsg s

/-- A connection is waiting at the listener for the streams; `accepted` is `streams_accepted`. -/
def serverAcceptStream (fuel : Nat) (accepted : Int) : IperfProg (Option Int) := do
  let t ← getTest
  let s ← protocolAccept fuel t.protocol
  if s < 0 then do
    cleanupServer
    pure none
  else do
    let closed ← isClosed s
    if closed then
      pure (some accepted)
    else do
      let sp ← iperfNewStream s
      if !sp then do
        cleanupServer
        pure none
      else do
        admitStream s
        pure (some (accepted + 1))

/-- All streams are there: the listener for the streams is closed, and the listener for control
connections is opened again if it had special options. -/
def replaceListener : IperfProg Int := do
  let t ← getTest
  if t.protocol ≠ .tcp then do
    modifyTest fun t => { t with readSet := t.readSet.erase t.protListener }
    sys (.close t.protListener)
    pure 0
  else if t.noDelay ≠ 0 ∨ t.settings.mss ≠ 0 ∨ t.settings.socketBufsize ≠ 0 then do
    modifyTest fun t => { t with readSet := t.readSet.erase t.listener }
    sys (.close t.listener)
    let s ← netannounce t.settings.domain .tcp t.bindAddress t.serverPort
    if s < 0 then
      pure (-1)
    else do
      modifyTest fun t => { t with
        listener := s
        readSet := insert s t.readSet
        maxFd := max t.maxFd s }
      pure 0
  else
    pure 0

/-- The test starts. -/
def serverStartTest (fuel : Nat) (accepted : Int) : IperfProg (Option Int) := do
  let r ← replaceListener
  if r < 0 then do
    cleanupServer
    setIErrno .IELISTEN
    pure none
  else do
    modifyTest fun t => { t with protListener := -1 }
    orCleanup (iperfSetSendState fuel TestState.TEST_START) <|
    orCleanup iperfInitTest <|
    orCleanup createServerTimers <|
    orCleanup createOmitTimer <| do
      let t ← getTest
      orCleanup (if t.reverse ≠ 0 then iperfCreateSendTimers else pure 0) <|
      orCleanup (iperfSetSendState fuel TestState.TEST_RUNNING) <|
      pure (some accepted)

/-- The start of the test, if all streams are there. -/
def serverMaybeStart (fuel : Nat) (accepted : Int) : IperfProg (Option Int) := do
  let t ← getTest
  if accepted = t.numStreams then serverStartTest fuel accepted else pure (some accepted)

/-- The part of the loop for the state `CREATE_STREAMS`. -/
def serverStreamsPart (fuel : Nat) (readSet : FdSet) (accepted : Int) :
    IperfProg (Option (FdSet × Int)) := do
  let t ← getTest
  if t.state = TestState.CREATE_STREAMS then
    if t.protListener ∈ readSet then do
      let r ← serverAcceptStream fuel accepted
      match r with
      | none => pure none
      | some accepted => do
        let t ← getTest
        let r ← serverMaybeStart fuel accepted
        pure (r.map fun accepted => (readSet.erase t.protListener, accepted))
    else do
      let r ← serverMaybeStart fuel accepted
      pure (r.map fun accepted => (readSet, accepted))
  else
    pure (some (readSet, accepted))

/-- The part of the loop for the state `TEST_RUNNING`. -/
def serverDataPart (fuel : Nat) (readSet writeSet : FdSet) (accepted : Int) :
    IperfProg (Option Int) := do
  let t ← getTest
  if t.state = TestState.TEST_RUNNING then
    if t.reverse ≠ 0 then
      -- Reverse mode. Server sends.
      orCleanup (iperfSend fuel (some writeSet)) (pure (some accepted))
    else
      -- Regular mode. Server receives.
      orCleanup (iperfRecv fuel readSet) (pure (some accepted))
  else
    pure (some accepted)

/-- What the server does when `select` has found something. -/
def serverHandle (fuel : Nat) (readSet writeSet : FdSet) (accepted : Int) :
    IperfProg (Option Int) := do
  let r ← serverListenerPart fuel readSet
  match r with
  | none => pure none
  | some readSet => do
    let r ← serverControlPart fuel readSet
    match r with
    | none => pure none
    | some readSet => do
      let r ← serverStreamsPart fuel readSet accepted
      match r with
      | none => pure none
      | some (readSet, accepted) => serverDataPart fuel readSet writeSet accepted

/-- One pass through the loop of `iperf_run_server`. -/
def serverStep (fuel : Nat) (accepted : Int) : IperfProg (Option Int) := do
  let t ← getTest
  let now ← gettimeofday
  let timeout ← getTimeout now
  let a ← sys (.select (t.maxFd + 1) t.readSet t.writeSet timeout)
  match a with
  | .error e => do
    setErrno e
    if e ≠ .eintr then do
      cleanupServer
      setIErrno .IESELECT
      pure none
    else do
      if timeout = some ⟨0, 0⟩ then runTimers fuel
      pure (some accepted)
  | .ok (n, readSet, writeSet) => do
    let r ← if n > 0 then serverHandle fuel readSet writeSet accepted else pure (some accepted)
    match r with
    | none => pure none
    | some accepted => do
      if n = 0 ∨ timeout = some ⟨0, 0⟩ then runTimers fuel
      pure (some accepted)

/-- The loop of `iperf_run_server`; `fuel` bounds the loops inside of one pass. -/
def serverLoop (fuel : Nat) : Nat → Int → IperfProg (Option Int)
  | 0, _ => Prog.stop Halt.spin
  | passes + 1, accepted => do
    let t ← getTest
    if t.state = TestState.IPERF_DONE then
      pure (some accepted)
    else do
      let r ← serverStep fuel accepted
      match r with
      | none => pure none
      | some accepted => serverLoop fuel passes accepted

/-- The end of `iperf_run_server`. -/
def serverFinish : IperfProg Int := do
  cleanupServer
  let t ← getTest
  let r ← if t.jsonOutput then iperfJsonFinish else pure 0
  if r < 0 then
    pure (-1)
  else do
    let t ← getTest
    let r ← if t.serverAffinity ≠ -1 then iperfClearaffinity else pure 0
    if r ≠ 0 then pure (-1) else pure 0

/-- `iperf_run_server` from the opening of the listener on. -/
def serverMain (fuel : Nat) : IperfProg Int := do
  let r ← iperfServerListen
  if r < 0 then
    pure (-1)
  else do
    -- Begin calculating CPU utilization.
    let _ ← sys .cpuUtil
    modifyTest fun t => { t with state := TestState.IPERF_START }
    let r ← serverLoop fuel fuel 0
    match r with
    | none => pure (-1)
    | some _ => serverFinish

/-- `iperf_run_server` -/
def iperfRunServer (fuel : Nat) : IperfProg Int := do
  sys .catchSigend
  prolog (serverMain fuel)

/-! ## The server loop of `main.c` -/

/-- The loop of `run` in `main.c` for the server. -/
def runServerLoop (fuel : Nat) : Nat → Nat → IperfProg Unit
  | 0, _ => Prog.stop Halt.spin
  | rounds + 1, consecutiveErrors => do
    let r ← iperfRunServer fuel
    if r < 0 then do
      iperfErr "error"
      if consecutiveErrors + 1 ≥ 5 then
        iperfErr "too many errors, exiting"
      else do
        iperfResetTest
        runServerLoop fuel rounds (consecutiveErrors + 1)
    else do
      iperfResetTest
      runServerLoop fuel rounds 0

end Iperf
