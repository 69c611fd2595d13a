import WifiTestTool.Iperf.Sys

/-!
# The reports (`iperf_api.c`)

`iperf_reporter_callback` with the functions that print the interval results and the summary. Each
call of `iprintf` and each item added to the JSON report is an output. A quantity that
`unit_snprintf` renders is given with its unit format; the digits themselves are not modelled.
-/

namespace Iperf

open Reactive

/-- The quotient of two `double`s. -/
def ratio (a b : ℚ) : ℚ := a / b

/-- A number of bytes as a `double`. -/
def bytesRat (n : UInt64) : ℚ := n.toNat

/-- The part of an interval report that all formats share. -/
def intervalFields (socket : Option Int) (start finish seconds : ℚ) (bytes : UInt64)
    (bandwidth : ℚ) : List (String × Arg) :=
  (match socket with
    | some s => [("socket", Arg.int s)]
    | none => []) ++
  [("start", .float start), ("end", .float finish), ("seconds", .float seconds),
    ("bytes", .size bytes), ("bits_per_second", .float (bandwidth * 8))]

/-- The same in the text formats. -/
def intervalArgs (socket : Option Int) (start finish : ℚ) (bytes : UInt64) (bandwidth : ℚ)
    (unitFormat : Char) : List Arg :=
  (match socket with
    | some s => [Arg.int s]
    | none => []) ++
  [.float start, .float finish, .unit (bytesRat bytes) 'A', .unit bandwidth unitFormat]

/-- Print a line, or add an item to the JSON report. -/
def report (json : Bool) (parent : JsonNode) (name : String) (fields : List (String × Arg))
    (fmt : Format) (args : List Arg) : IperfProg Unit :=
  if json then sys (.output (.json parent name fields)) else iprintf fmt args

/-- Does the protocol count bytes only (TCP and SCTP) or also packets (UDP)? -/
def isByteProtocol (p : ProtId) : Bool := p = .tcp || p = .sctp

/-- The header or separator in front of the first stream of an interval report. -/
def printIntervalHeader (t : IperfTest) (st : IperfStream) (irp : IperfIntervalResults) :
    IperfProg Unit :=
  -- If it is the first interval, print the header; else if there is more than one stream, print the
  -- separator; else nothing.
  if timevalEquals st.result.startTime irp.intervalStartTime then
    if isByteProtocol t.protocol then
      if t.sender && t.senderHasRetransmits ≠ 0 then iprintf .reportBwRetransCwndHeader []
      else iprintf .reportBwHeader []
    else if t.sender then iprintf .reportBwUdpSenderHeader []
    else iprintf .reportBwUdpHeader []
  else if t.numStreams > 1 then iprintf .reportBwSeparator []
  else pure ()

/-- The line for one stream of an interval report. -/
def printIntervalLine (t : IperfTest) (st : IperfStream) (irp : IperfIntervalResults) :
    IperfProg Unit :=
  let bandwidth := ratio (bytesRat irp.bytesTransferred) irp.intervalDuration
  let start := timevalDiff st.result.startTime irp.intervalStartTime
  let finish := timevalDiff st.result.startTime irp.intervalEndTime
  let fields := intervalFields (some st.socket) start finish irp.intervalDuration
    irp.bytesTransferred bandwidth
  let args := intervalArgs (some st.socket) start finish irp.bytesTransferred bandwidth
    t.settings.unitFormat
  if isByteProtocol t.protocol then
    if t.sender && t.senderHasRetransmits ≠ 0 then do
      -- Interval, TCP with retransmits. The call of `iprintf` is outside of the `else`; with JSON output
      -- nothing was rendered into `cbuf`, and what stands for the window in this line is indeterminate.
      if t.jsonOutput then
        sys (.output (.json .intervalStreams "" (fields.append [("retransmits", .int irp.intervalRetrans),
          ("snd_cwnd", .int irp.sndCwnd), ("omitted", .bool irp.omitted)])))
      iprintf .reportBwRetransCwndFormat (args.append [.int irp.intervalRetrans,
        .unit irp.sndCwnd 'A', .bool irp.omitted])
    else
      -- Interval, TCP without retransmits.
      report t.jsonOutput .intervalStreams "" (fields.append [("omitted", .bool irp.omitted)])
        .reportBwFormat (args.append [.bool irp.omitted])
  else if t.sender then
    report t.jsonOutput .intervalStreams ""
      (fields.append [("packets", .int irp.intervalPacketCount), ("omitted", .bool irp.omitted)])
      .reportBwUdpSenderFormat (args.append [.int irp.intervalPacketCount, .bool irp.omitted])
  else
    let lostPercent := ratio (100 * irp.intervalCntError) irp.intervalPacketCount
    report t.jsonOutput .intervalStreams ""
      (fields.append [("jitter_ms", .float (irp.jitter * 1000)), ("lost_packets", .int irp.intervalCntError),
        ("packets", .int irp.intervalPacketCount), ("lost_percent", .float lostPercent),
        ("omitted", .bool irp.omitted)])
      .reportBwUdpFormat (args.append [.float (irp.jitter * 1000), .int irp.intervalCntError,
        .int irp.intervalPacketCount, .float lostPercent, .bool irp.omitted])

/-- `print_interval_results` -/
def printIntervalResults (sp : Nat) : IperfProg Unit := do
  let t ← getTest
  let st ← getStream sp
  match st.result.intervalResults.getLast? with
  | none => iperfErr "print_interval_results error: interval_results is NULL"
  | some irp => do
    if !t.jsonOutput && sp == 0 then printIntervalHeader t st irp
    printIntervalLine t st irp

/-! ## `iperf_print_intermediate` -/

/-- The sums over the streams in `iperf_print_intermediate`. -/
structure IntervalSum where
  bytes : UInt64
  retransmits : Int
  totalPackets : Int
  lostPackets : Int
  avgJitter : ℚ

/-- The loop of `iperf_print_intermediate`; `none` when a stream has no interval yet. -/
def sumIntervals : List Nat → IntervalSum → IperfProg (Option IntervalSum)
  | [], a => pure (some a)
  | sp :: sps, a => do
    printIntervalResults sp
    let t ← getTest
    let st ← getStream sp
    match st.result.intervalResults.getLast? with
    | none => do
      iperfErr "iperf_print_intermediate error: interval_results is NULL"
      pure none
    | some irp =>
      let a := { a with bytes := a.bytes + irp.bytesTransferred }
      if t.protocol = .tcp then
        if t.sender && t.senderHasRetransmits ≠ 0 then
          sumIntervals sps { a with retransmits := a.retransmits + irp.intervalRetrans }
        else
          sumIntervals sps a
      else
        sumIntervals sps { a with
          totalPackets := a.totalPackets + irp.intervalPacketCount
          lostPackets := a.lostPackets + irp.intervalCntError
          avgJitter := a.avgJitter + irp.jitter }

/-- The line with the sum of all streams; the first stream has the timing. -/
def printIntervalSum (t : IperfTest) (a : IntervalSum) (st : IperfStream)
    (irp : IperfIntervalResults) : IperfProg Unit :=
  let bandwidth := ratio (bytesRat a.bytes) irp.intervalDuration
  let start := timevalDiff st.result.startTime irp.intervalStartTime
  let finish := timevalDiff st.result.startTime irp.intervalEndTime
  let fields := intervalFields none start finish irp.intervalDuration a.bytes bandwidth
  let args := intervalArgs none start finish a.bytes bandwidth t.settings.unitFormat
  if isByteProtocol t.protocol then
    if t.sender && t.senderHasRetransmits ≠ 0 then
      report t.jsonOutput .interval "sum"
        (fields.append [("retransmits", .int a.retransmits), ("omitted", .bool irp.omitted)])
        .reportSumBwRetransFormat (args.append [.int a.retransmits, .bool irp.omitted])
    else
      report t.jsonOutput .interval "sum" (fields.append [("omitted", .bool t.omitting)])
        .reportSumBwFormat (args.append [.bool t.omitting])
  else if t.sender then
    report t.jsonOutput .interval "sum"
      (fields.append [("packets", .int a.totalPackets), ("omitted", .bool t.omitting)])
      .reportSumBwUdpSenderFormat (args.append [.int a.totalPackets, .bool t.omitting])
  else
    let avgJitter := a.avgJitter / t.numStreams
    let lostPercent := ratio (100 * a.lostPackets) a.totalPackets
    report t.jsonOutput .interval "sum"
      (fields.append [("jitter_ms", .float (avgJitter * 1000)), ("lost_packets", .int a.lostPackets),
        ("packets", .int a.totalPackets), ("lost_percent", .float lostPercent),
        ("omitted", .bool t.omitting)])
      .reportSumBwUdpFormat (args.append [.float (avgJitter * 1000), .int a.lostPackets,
        .int a.totalPackets, .float lostPercent, .bool t.omitting])

/-- The objects of an interval in the JSON report; `false` when there is no memory for them. -/
def jsonIntervalObjects (t : IperfTest) : IperfProg Bool :=
  if t.jsonOutput then do
    let ok ← sys .cJSON_Create
    if !ok then
      pure false
    else do
      sys (.output (.json .intervals "" []))
      let ok ← sys .cJSON_Create
      if !ok then
        pure false
      else do
        sys (.output (.json .interval "streams" []))
        pure true
  else
    pure true

/-- `iperf_print_intermediate` -/
def iperfPrintIntermediate : IperfProg Unit := do
  let t ← getTest
  let ok ← jsonIntervalObjects t
  if !ok then
    pure ()
  else do
    let sps ← allStreams
    let a ← sumIntervals sps
      { bytes := 0, retransmits := 0, totalPackets := 0, lostPackets := 0, avgJitter := 0 }
    match a with
    | none => pure ()
    | some a =>
      -- Next build the string with the sum of all streams.
      if t.numStreams > 1 then
        match t.streams.head? with
        | none => Prog.stop Halt.emptyStreams
        | some st =>
          match st.result.intervalResults.getLast? with
          | none => Prog.stop Halt.nullPointer
          | some irp => printIntervalSum t a st irp
      else
        pure ()

/-! ## `iperf_print_results` -/

/-- The sums over the streams in `iperf_print_results`. -/
structure SummarySum where
  totalSent : UInt64
  totalReceived : UInt64
  totalRetransmits : Int
  totalPackets : Int
  lostPackets : Int
  avgJitter : ℚ

/-- What a stream contributes to the sums. -/
def SummarySum.add (a : SummarySum) (t : IperfTest) (st : IperfStream) : SummarySum :=
  let a := { a with
    totalSent := a.totalSent + st.result.bytesSent
    totalReceived := a.totalReceived + st.result.bytesReceived }
  if isByteProtocol t.protocol then
    if t.senderHasRetransmits ≠ 0 then
      { a with totalRetransmits := a.totalRetransmits + st.result.streamRetrans }
    else a
  else
    { a with
      totalPackets := a.totalPackets + (st.packetCount - st.omittedPacketCount)
      lostPackets := a.lostPackets + st.cntError
      avgJitter := a.avgJitter + st.jitter }

/-- The sender's line of the summary of one stream. -/
def printSummarySender (t : IperfTest) (st : IperfStream) (endTime : ℚ) : IperfProg Unit :=
  let bandwidth := ratio (bytesRat st.result.bytesSent) endTime
  let fields := intervalFields (some st.socket) 0 endTime endTime st.result.bytesSent bandwidth
  let args := intervalArgs (some st.socket) 0 endTime st.result.bytesSent bandwidth
    t.settings.unitFormat
  if isByteProtocol t.protocol then
    if t.senderHasRetransmits ≠ 0 then
      report t.jsonOutput .summaryStream "sender"
        (fields.append [("retransmits", .int st.result.streamRetrans)])
        .reportBwRetransFormat (args.append [.int st.result.streamRetrans, .text "sender"])
    else
      report t.jsonOutput .summaryStream "sender" fields .reportBwFormat (args.append [.text "sender"])
  else
    let packets := st.packetCount - st.omittedPacketCount
    let lostPercent := ratio (100 * st.cntError) packets
    if t.jsonOutput then
      sys (.output (.json .summaryStream "udp" (fields.append [("jitter_ms", .float (st.jitter * 1000)),
        ("lost_packets", .int st.cntError), ("packets", .int packets),
        ("lost_percent", .float lostPercent)])))
    else do
      iprintf .reportBwUdpFormat (args.append [.float (st.jitter * 1000), .int st.cntError, .int packets,
        .float lostPercent, .text ""])
      if t.role = .client then iprintf .reportDatagrams [.int st.socket, .int packets]
      if st.outoforderPackets > 0 then
        iprintf .reportSumOutoforder [.float 0, .float endTime, .int st.cntError]

/-- The line about the disk file of a stream. -/
def printSummaryDiskfile (t : IperfTest) (st : IperfStream) : IperfProg Unit :=
  if st.diskfileFd ≥ 0 then do
    let size ← sys (.fstat st.diskfileFd)
    match size with
    | none => pure ()
    | some size =>
      let percent := truncRat (ratio (bytesRat st.result.bytesSent) size * 100)
      report t.jsonOutput .summaryStream "diskfile"
        [("sent", .size st.result.bytesSent), ("size", .int size), ("percent", .int percent),
          ("filename", .text (t.diskfileName.getD ""))]
        .reportDiskfile [.unit (bytesRat st.result.bytesSent) 'A', .unit size 'A', .int percent,
          .text (t.diskfileName.getD "")]
  else
    pure ()

/-- The receiver's line of the summary of one stream. -/
def printSummaryReceiver (t : IperfTest) (st : IperfStream) (endTime : ℚ) : IperfProg Unit :=
  let bandwidth := ratio (bytesRat st.result.bytesReceived) endTime
  if isByteProtocol t.protocol then
    report t.jsonOutput .summaryStream "receiver"
      (intervalFields (some st.socket) 0 endTime endTime st.result.bytesReceived bandwidth)
      .reportBwFormat (intervalArgs (some st.socket) 0 endTime st.result.bytesReceived bandwidth
        t.settings.unitFormat ++ [.text "receiver"])
  else
    pure ()

/-- The loop of `iperf_print_results`; `none` when there is no memory for the JSON report. -/
def printSummaries (endTime : ℚ) : List Nat → SummarySum → IperfProg (Option SummarySum)
  | [], a => pure (some a)
  | sp :: sps, a => do
    let t ← getTest
    let ok ← if t.jsonOutput then sys .cJSON_Create else pure true
    if !ok then
      pure none
    else do
      if t.jsonOutput then sys (.output (.json .summaryStreams "" []))
      let st ← getStream sp
      printSummarySender t st endTime
      printSummaryDiskfile t st
      printSummaryReceiver t st endTime
      printSummaries endTime sps (a.add t st)

/-- The sums of the summary. -/
def printSummarySum (t : IperfTest) (a : SummarySum) (endTime : ℚ) : IperfProg Unit :=
  let bandwidth := ratio (bytesRat a.totalSent) endTime
  let fields := intervalFields none 0 endTime endTime a.totalSent bandwidth
  let args := intervalArgs none 0 endTime a.totalSent bandwidth t.settings.unitFormat
  if isByteProtocol t.protocol then do
    if t.senderHasRetransmits ≠ 0 then
      report t.jsonOutput .finish "sum_sent" (fields.append [("retransmits", .int a.totalRetransmits)])
        .reportSumBwRetransFormat (args.append [.int a.totalRetransmits, .text "sender"])
    else
      report t.jsonOutput .finish "sum_sent" fields .reportSumBwFormat (args.append [.text "sender"])
    let bandwidth := ratio (bytesRat a.totalReceived) endTime
    report t.jsonOutput .finish "sum_received"
      (intervalFields none 0 endTime endTime a.totalReceived bandwidth)
      .reportSumBwFormat
      (intervalArgs none 0 endTime a.totalReceived bandwidth t.settings.unitFormat ++
        [.text "receiver"])
  else
    let avgJitter := a.avgJitter / t.numStreams
    let lostPercent := ratio (100 * a.lostPackets) a.totalPackets
    report t.jsonOutput .finish "sum"
      (fields.append [("jitter_ms", .float (avgJitter * 1000)), ("lost_packets", .int a.lostPackets),
        ("packets", .int a.totalPackets), ("lost_percent", .float lostPercent)])
      .reportSumBwUdpFormat (args.append [.float (avgJitter * 1000), .int a.lostPackets,
        .int a.totalPackets, .float lostPercent, .text ""])

/-- The head of the summary; `false` when there is no memory for the JSON report. -/
def printResultsHeader (t : IperfTest) : IperfProg Bool :=
  if t.jsonOutput then do
    let ok ← sys .cJSON_Create
    if !ok then
      pure false
    else do
      sys (.output (.json .finish "streams" []))
      pure true
  else do
    iprintf .reportBwSeparator []
    if t.verbose then iprintf .reportSummary []
    if isByteProtocol t.protocol then
      if t.senderHasRetransmits ≠ 0 then iprintf .reportBwRetransHeader []
      else iprintf .reportBwHeader []
    else
      iprintf .reportBwUdpHeader []
    pure true

/-- The CPU utilisation. -/
def printCpu (t : IperfTest) : IperfProg Unit :=
  let (total, user, system) := t.cpuUtil
  let (remoteTotal, remoteUser, remoteSystem) := t.remoteCpuUtil
  if t.jsonOutput then
    sys (.output (.json .finish "cpu_utilization_percent" [("host_total", .float total),
      ("host_user", .float user), ("host_system", .float system),
      ("remote_total", .float remoteTotal), ("remote_user", .float remoteUser),
      ("remote_system", .float remoteSystem)]))
  else if t.verbose then
    iprintf .reportCpu [.text "local", .text (if t.sender then "sender" else "receiver"),
      .float total, .float user, .float system, .text "remote",
      .text (if t.sender then "receiver" else "sender"), .float remoteTotal, .float remoteUser,
      .float remoteSystem]
  else
    pure ()

/-- `iperf_print_results` -/
def iperfPrintResults : IperfProg Unit := do
  let t ← getTest
  let ok ← printResultsHeader t
  if !ok then
    pure ()
  else
    match t.streams.head? with
    | none => Prog.stop Halt.emptyStreams
    | some st => do
      let endTime := timevalDiff st.result.startTime st.result.endTime
      let sps ← allStreams
      let a ← printSummaries endTime sps
        { totalSent := 0, totalReceived := 0, totalRetransmits := 0, totalPackets := 0,
          lostPackets := 0, avgJitter := 0 }
      match a with
      | none => pure ()
      | some a => do
        if t.numStreams > 1 then printSummarySum t a endTime
        printCpu t

/-- `iperf_reporter_callback` -/
def iperfReporterCallback : IperfProg Unit := do
  let t ← getTest
  if t.state = TestState.TEST_RUNNING ∨ t.state = TestState.STREAM_RUNNING then
    iperfPrintIntermediate
  else if t.state = TestState.DISPLAY_RESULTS then do
    iperfPrintIntermediate
    iperfPrintResults
  else
    pure ()

end Iperf
