import WifiTestTool.Iperf.Streams

/-!
# The control connection (`iperf_api.c`)

State changes, the exchange of the parameters and the exchange of the results, as both parties use
them.
-/

namespace Iperf

open Reactive

/-- `iperf_set_send_state` -/
def iperfSetSendState (fuel : Nat) (state : TestState) : IperfProg Int := do
  modifyTest fun t => { t with state := state }
  let t ← getTest
  let r ← nwrite fuel t.ctrlSck [state.toUInt8]
  if r < 0 then fail .IESENDMESSAGE else pure 0

/-! ## Parameters -/

/-- `send_parameters` -/
def sendParameters (fuel : Nat) : IperfProg Int := do
  let ok ← sys .cJSON_Create
  if !ok then
    fail .IESENDPARAMS
  else do
    let t ← getTest
    let r ← jsonWrite fuel t.ctrlSck (parameterDoc t)
    if r < 0 then fail .IESENDPARAMS else pure 0

/-- `get_parameters` -/
def getParameters (fuel : Nat) : IperfProg Int := do
  let t ← getTest
  let j ← jsonRead fuel t.ctrlSck
  match j with
  | none => fail .IERECVPARAMS
  | some j =>
    match takeParameters j t with
    | none => Prog.stop Halt.nullPointer
    | some t => do
      modifyTest fun _ => t
      pure 0

/-- What the server tells the client when it cannot listen for the streams. -/
def sendServerError (fuel : Nat) : IperfProg Int := do
  let r ← iperfSetSendState fuel TestState.SERVER_ERROR
  if r ≠ 0 then
    pure (-1)
  else do
    let m ← Prog.get
    let r ← nwrite fuel m.test.ctrlSck (htonl m.iErrno.code)
    if r < 0 then
      fail .IECTRLWRITE
    else do
      let m ← Prog.get
      let r ← nwrite fuel m.test.ctrlSck (htonl m.errno.code)
      if r < 0 then fail .IECTRLWRITE else pure (-1)

/-- The server's part of `iperf_exchange_parameters` once it has the parameters. -/
def listenForStreams (fuel : Nat) : IperfProg Int := do
  let t ← getTest
  let s ← protocolListen t.protocol
  if s < 0 then
    sendServerError fuel
  else do
    modifyTest fun t => { t with
      readSet := insert s t.readSet
      maxFd := max s t.maxFd
      protListener := s }
    -- Send the control message to create streams and start the test.
    let r ← iperfSetSendState fuel TestState.CREATE_STREAMS
    if r ≠ 0 then pure (-1) else pure 0

/-- `iperf_exchange_parameters` -/
def iperfExchangeParameters (fuel : Nat) : IperfProg Int := do
  let t ← getTest
  if t.role = .client then do
    let r ← sendParameters fuel
    if r < 0 then pure (-1) else pure 0
  else do
    let r ← getParameters fuel
    if r < 0 then pure (-1) else listenForStreams fuel

/-! ## Results -/

/-- The item of `send_results` for one stream. -/
def streamResultDoc (t : IperfTest) (st : IperfStream) : Json :=
  let bytes := if t.sender then st.result.bytesSent else st.result.bytesReceived
  let retransmits := if t.sender && t.senderHasRetransmits ≠ 0 then st.result.streamRetrans else -1
  .obj [("id", .int st.id), ("bytes", .int (toInt64 bytes)), ("retransmits", .int retransmits),
    ("jitter", .float st.jitter), ("errors", .int st.cntError), ("packets", .int st.packetCount)]

/-- The document that `send_results` builds. -/
def resultDoc (t : IperfTest) : Json :=
  .obj [("cpu_util_total", .float t.cpuUtil.1), ("cpu_util_user", .float t.cpuUtil.2.1),
    ("cpu_util_system", .float t.cpuUtil.2.2),
    ("sender_has_retransmits", .int (if t.sender then t.senderHasRetransmits else -1)),
    ("streams", .arr (t.streams.map (streamResultDoc t)))]

/-- The allocation of the items for the streams in `send_results`. -/
def allocResults : List Nat → Int → IperfProg Int
  | [], r => pure r
  | _ :: sps, r => do
    let ok ← sys .cJSON_Create
    if ok then
      allocResults sps r
    else do
      setIErrno .IEPACKAGERESULTS
      allocResults sps (-1)

/-- `send_results` -/
def sendResults (fuel : Nat) : IperfProg Int := do
  let ok ← sys .cJSON_Create
  if !ok then
    fail .IEPACKAGERESULTS
  else do
    let ok ← sys .cJSON_Create
    if !ok then
      fail .IEPACKAGERESULTS
    else do
      let sps ← allStreams
      let r ← allocResults sps 0
      if r = 0 then do
        let t ← getTest
        let w ← jsonWrite fuel t.ctrlSck (resultDoc t)
        if w < 0 then fail .IESENDRESULTS else pure 0
      else
        pure r

/-- The results of one stream of the other side. -/
structure RemoteResult where
  id : Int
  bytes : UInt64
  retransmits : Int
  jitter : ℚ
  errors : Int
  packets : Int

/-- The items of a stream in the results of the other side. -/
def remoteResult (j : Json) : Option RemoteResult := do
  let id ← cJSON_GetObjectItem j "id"
  let bytes ← cJSON_GetObjectItem j "bytes"
  let retransmits ← cJSON_GetObjectItem j "retransmits"
  let jitter ← cJSON_GetObjectItem j "jitter"
  let errors ← cJSON_GetObjectItem j "errors"
  let packets ← cJSON_GetObjectItem j "packets"
  some {
    id := toInt id.valueint
    bytes := UInt64.ofInt bytes.valueint
    retransmits := toInt retransmits.valueint
    jitter := jitter.valuefloat
    errors := toInt errors.valueint
    packets := toInt packets.valueint }

/-- What a stream takes from the results of the other side. -/
def IperfStream.takeResult (sender : Bool) (r : RemoteResult) (st : IperfStream) : IperfStream :=
  if sender then
    { st with
      jitter := r.jitter
      cntError := r.errors
      packetCount := r.packets
      result := { st.result with bytesReceived := r.bytes } }
  else
    { st with result := { st.result with bytesSent := r.bytes, streamRetrans := r.retransmits } }

/-- The loop of `get_results`; an error does not end it. -/
def takeStreamResults : List Json → IperfTest × Option IErr → IperfTest × Option IErr
  | [], a => a
  | j :: js, (t, e) =>
    match remoteResult j with
    | none => takeStreamResults js (t, some .IERECVRESULTS)
    | some r =>
      match t.streams.findIdx? fun st => st.id = r.id with
      | none => takeStreamResults js (t, some .IESTREAMID)
      | some sp =>
        takeStreamResults js
          ({ t with streams := t.streams.modify sp (IperfStream.takeResult t.sender r) }, e)

/-- What `get_results` takes from the document `j`, and the error it reports. -/
def takeResults (j : Json) (t : IperfTest) : IperfTest × Option IErr :=
  match cJSON_GetObjectItem j "cpu_util_total", cJSON_GetObjectItem j "cpu_util_user",
    cJSON_GetObjectItem j "cpu_util_system", cJSON_GetObjectItem j "sender_has_retransmits" with
  | some total, some user, some system, some retransmits =>
    let t := { t with remoteCpuUtil := (total.valuefloat, user.valuefloat, system.valuefloat) }
    let t := if t.sender then t else { t with senderHasRetransmits := toInt retransmits.valueint }
    match cJSON_GetObjectItem j "streams" with
    | none => (t, some .IERECVRESULTS)
    | some streams => takeStreamResults (cJSON_children streams) (t, none)
  | _, _, _, _ => (t, some .IERECVRESULTS)

/-- `get_results` -/
def getResults (fuel : Nat) : IperfProg Int := do
  let t ← getTest
  let j ← jsonRead fuel t.ctrlSck
  match j with
  | none => fail .IERECVRESULTS
  | some j => do
    let (t, e) := takeResults j t
    modifyTest fun _ => t
    match e with
    | none => pure 0
    | some e => fail e

/-- `iperf_exchange_results` -/
def iperfExchangeResults (fuel : Nat) : IperfProg Int := do
  let t ← getTest
  if t.role = .client then do
    -- Send results to server.
    let r ← sendResults fuel
    if r < 0 then
      pure (-1)
    else do
      -- Get server results.
      let r ← getResults fuel
      if r < 0 then pure (-1) else pure 0
  else do
    -- Get client results.
    let r ← getResults fuel
    if r < 0 then
      pure (-1)
    else do
      -- Send results to client.
      let r ← sendResults fuel
      if r < 0 then pure (-1) else pure 0

/-! ## Callbacks -/

/-- The time of day in the report of `iperf_on_connect`. -/
def reportTime (t : IperfTest) : IperfProg Unit :=
  if t.jsonOutput then sys (.output (.json .start "timestamp" []))
  else if t.verbose then iprintf .reportTime []
  else pure ()

/-- The other party in the report of `iperf_on_connect`. -/
def reportPeer (t : IperfTest) : IperfProg Unit :=
  if t.role = .client then
    if t.jsonOutput then
      sys (.output (.json .start "connecting_to" [("host", .text (t.serverHostname.getD "")),
        ("port", .int t.serverPort)]))
    else do
      iprintf .reportConnecting [.text (t.serverHostname.getD ""), .int t.serverPort]
      if t.reverse ≠ 0 then iprintf .reportReverse [.text (t.serverHostname.getD "")]
  else do
    let _ ← sys (.getpeername t.ctrlSck)
    let _ ← sys (.getsockdomain t.ctrlSck)
    if t.jsonOutput then sys (.output (.json .start "accepted_connection" []))
    else iprintf .reportAccepted []

/-- The segment size in the report of `iperf_on_connect`. -/
def reportMss (t : IperfTest) (given byDefault : Int → IperfProg Unit) : IperfProg Unit :=
  if t.protocol = .tcp then
    if t.settings.mss ≠ 0 then
      given t.settings.mss
    else do
      let mss ← sys (.getsockopt t.ctrlSck .maxseg)
      byDefault mss
  else
    pure ()

/-- The cookie and the segment size in the report of `iperf_on_connect`. -/
def reportCookie (t : IperfTest) : IperfProg Unit :=
  if t.jsonOutput then do
    sys (.output (.json .start "cookie" []))
    reportMss t (fun mss => sys (.output (.json .start "tcp_mss" [("", .int mss)])))
      fun mss => sys (.output (.json .start "tcp_mss_default" [("", .int mss)]))
  else if t.verbose then do
    iprintf .reportCookie []
    reportMss t (fun mss => iprintf .tcpMss [.int mss]) fun mss => iprintf .tcpMssDefault [.int mss]
  else
    pure ()

/-- `iperf_on_connect` -/
def iperfOnConnect : IperfProg Unit := do
  let t ← getTest
  reportTime t
  reportPeer t
  reportCookie t

/-- `iperf_on_test_start` -/
def iperfOnTestStart : IperfProg Unit := do
  let t ← getTest
  let common : List Arg := [.text (protocolKey t.protocol), .int t.numStreams,
    .int t.settings.blksize, .int t.omitTime]
  if t.jsonOutput then
    sys (.output (.json .start "test_start" [("protocol", .text (protocolKey t.protocol)),
      ("num_streams", .int t.numStreams), ("blksize", .int t.settings.blksize),
      ("omit", .int t.omitTime), ("duration", .int t.duration), ("bytes", .size t.settings.bytes),
      ("blocks", .int t.settings.blocks)]))
  else if t.verbose then
    if t.settings.bytes ≠ 0 then iprintf .testStartBytes (common.append [.size t.settings.bytes])
    else if t.settings.blocks ≠ 0 then
      iprintf .testStartBlocks (common.append [.int t.settings.blocks])
    else iprintf .testStartTime (common.append [.int t.duration])
  else
    pure ()

/-- `iperf_init_test`; the routine `init` of a protocol is absent or does nothing. -/
def iperfInitTest : IperfProg Int := withTime fun now => do
  modifyTest fun t => { t with
    streams := t.streams.map fun st => { st with result := { st.result with startTime := now } } }
  iperfOnTestStart
  pure 0

/-- `iperf_setaffinity` -/
def iperfSetaffinity (affinity : Int) : IperfProg Int := do
  let a ← sys (.setaffinity affinity)
  let r ← result a fun _ => 0
  if r ≠ 0 then fail .IEAFFINITY else pure 0

/-- `iperf_clearaffinity` -/
def iperfClearaffinity : IperfProg Int := do
  let a ← sys .clearaffinity
  let r ← result a fun _ => 0
  if r ≠ 0 then fail .IEAFFINITY else pure 0

/-- `iperf_json_start`; a value is what it returns at once. -/
def iperfJsonStart : IperfProg Int := do
  let t ← getTest
  let ok ← sys .cJSON_Create
  if !ok then
    pure (-1)
  else do
    if t.title.isSome then sys (.output (.json .top "title" []))
    let ok ← sys .cJSON_Create
    if !ok then
      pure (-1)
    else do
      sys (.output (.json .top "start" []))
      let ok ← sys .cJSON_Create
      if !ok then
        pure (-1)
      else do
        sys (.output (.json .top "intervals" []))
        let ok ← sys .cJSON_Create
        if !ok then
          pure (-1)
        else do
          sys (.output (.json .top "end" []))
          pure 0

/-- `iperf_json_finish` -/
def iperfJsonFinish : IperfProg Int := do
  let ok ← sys .cJSON_Create
  if !ok then
    pure (-1)
  else do
    sys (.output .jsonFinish)
    pure 0

/-- `cpu_util(test->cpu_util)` -/
def updateCpuUtil : IperfProg Unit := do
  let u ← sys .cpuUtil
  modifyTest fun t => { t with cpuUtil := u }

/-- The version and the system information in the report. -/
def reportVersion (t : IperfTest) : IperfProg Unit :=
  if t.jsonOutput then do
    sys (.output (.json .start "version" []))
    sys (.output (.json .start "system_info" []))
  else if t.verbose then do
    iprintf .version []
    iprintf .empty []
  else
    pure ()

/-- The start of the report. -/
def startReport (t : IperfTest) (k : IperfProg Int) : IperfProg Int := do
  let r ← if t.jsonOutput then iperfJsonStart else pure 0
  if r < 0 then
    pure (-1)
  else do
    reportVersion t
    k

/-- What both parties do before they open a socket: affinity, JSON report and version. -/
def prolog (k : IperfProg Int) : IperfProg Int := do
  let t ← getTest
  let r ← if t.affinity ≠ -1 then iperfSetaffinity t.affinity else pure 0
  if r ≠ 0 then pure (-1) else startReport t k

end Iperf
