import WifiTestTool.Iperf.Sys

/-!
# Moving data and counting it (`iperf_tcp.c`, `iperf_udp.c`, `iperf_sctp.c`, `iperf_api.c`)

The send and receive routines of the three protocols, `iperf_send` and `iperf_recv`, which call them
for every stream that is ready, `iperf_stats_callback`, which records an interval for every stream, and
`iperf_reset_stats`, which starts the counting afresh when the omit period is over.
-/

namespace Iperf

open Reactive

/-- The conversion of an `int` to `size_t`. -/
def sizeT (n : Int) : Nat := (n % 0x10000000000000000).toNat

/-- Count the `r` bytes that a stream has received. -/
def IperfStream.received (r : Int) (st : IperfStream) : IperfStream :=
  { st with result := { st.result with
      bytesReceived := st.result.bytesReceived + UInt64.ofInt r
      bytesReceivedThisInterval := st.result.bytesReceivedThisInterval + UInt64.ofInt r } }

/-- Count the `r` bytes that a stream has sent. -/
def IperfStream.sent (r : Int) (st : IperfStream) : IperfStream :=
  { st with result := { st.result with
      bytesSent := st.result.bytesSent + UInt64.ofInt r
      bytesSentThisInterval := st.result.bytesSentThisInterval + UInt64.ofInt r } }

/-- A call of `Nread` into the buffer of a stream, with its return value. -/
def streamRead (fuel : Nat) (sp : Nat) : IperfProg Int := do
  let t ← getTest
  let st ← getStream sp
  let got ← nread fuel st.socket (sizeT t.settings.blksize)
  match got with
  | none => pure NET_HARDERROR
  | some bs => do
    modifyStream sp fun st => { st with buffer := overlay st.buffer bs }
    pure (toInt bs.length)

/-- A call of `Nwrite` with the buffer of a stream. -/
def streamWrite (fuel : Nat) (sp : Nat) : IperfProg Int := do
  let t ← getTest
  let st ← getStream sp
  let r ← nwrite fuel st.socket (st.buffer.take (sizeT t.settings.blksize))
  pure (toInt r)

/-! ## TCP and SCTP -/

/-- `iperf_tcp_recv` -/
def iperfTcpRecv (fuel : Nat) (sp : Nat) : IperfProg Int := do
  let r ← streamRead fuel sp
  if r < 0 then
    pure r
  else do
    modifyStream sp (IperfStream.received r)
    pure r

/-- `iperf_tcp_send` -/
def iperfTcpSend (fuel : Nat) (sp : Nat) : IperfProg Int := do
  let t ← getTest
  let r ← if t.zerocopy then do
      let st ← getStream sp
      nsendfile fuel st.bufferFd st.socket (sizeT t.settings.blksize)
    else
      streamWrite fuel sp
  if r < 0 then
    pure r
  else do
    modifyStream sp (IperfStream.sent r)
    pure r

/-- `iperf_sctp_recv` -/
def iperfSctpRecv (fuel : Nat) (sp : Nat) : IperfProg Int := iperfTcpRecv fuel sp

/-- `iperf_sctp_send` -/
def iperfSctpSend (fuel : Nat) (sp : Nat) : IperfProg Int := do
  let r ← streamWrite fuel sp
  if r < 0 then
    pure r
  else do
    modifyStream sp (IperfStream.sent r)
    pure r

/-! ## UDP -/

/-- The 32-bit number at `offset` in the buffer of a stream. The mapping behind the buffer is filled up
with zeros. -/
def bufferWord (buffer : List UInt8) (offset : Nat) : Nat :=
  ntohl (((buffer ++ List.replicate 12 0).drop offset).take 4)

/-- The packet numbers of a stream after the packet `pcount` (a `uint32_t`) has arrived; the flag says
that it was out of order. -/
def countPacket (pcount : Nat) (st : IperfStream) : IperfStream × Bool :=
  if (pcount : Int) ≥ (st.packetCount + 1) % 0x100000000 then
    let st := if (pcount : Int) > (st.packetCount + 1) % 0x100000000 then
      { st with cntError := toInt (st.cntError + (pcount - 1 - st.packetCount)) } else st
    ({ st with packetCount := toInt pcount }, false)
  else
    ({ st with outoforderPackets := st.outoforderPackets + 1 }, true)

/-- The jitter of a stream after a packet that was sent at `sent` has arrived at `arrival`. -/
def measureJitter (sent arrival : Timeval) (st : IperfStream) : IperfStream :=
  let transit := timevalDiff sent arrival
  let d := transit - st.prevTransit
  let d := if d < 0 then -d else d
  { st with prevTransit := transit, jitter := st.jitter + (d - st.jitter) / 16 }

/-- `iperf_udp_recv` -/
def iperfUdpRecv (fuel : Nat) (sp : Nat) : IperfProg Int := do
  let r ← streamRead fuel sp
  if r < 0 then
    pure r
  else do
    modifyStream sp (IperfStream.received r)
    let st ← getStream sp
    let sent : Timeval := ⟨bufferWord st.buffer 0, bufferWord st.buffer 4⟩
    let pcount := bufferWord st.buffer 8
    modifyStream sp fun st => (countPacket pcount st).1
    if (countPacket pcount st).2 then iperfErr "OUT OF ORDER"
    let arrival ← gettimeofday
    modifyStream sp (measureJitter sent arrival)
    pure r

/-- The header of a datagram: the time and the packet number. -/
def datagramHeader (time : Timeval) (packetCount : Int) : List UInt8 :=
  htonl (time.tvSec % 0x100000000).toNat ++ htonl (time.tvUsec % 0x100000000).toNat ++
    htonl (packetCount % 0x100000000).toNat

/-- A stream with its next datagram in the buffer. -/
def IperfStream.stamp (time : Timeval) (st : IperfStream) : IperfStream :=
  let packetCount := st.packetCount + 1
  { st with
    packetCount := packetCount
    buffer := overlay st.buffer (datagramHeader time packetCount) }

/-- `iperf_udp_send` -/
def iperfUdpSend (fuel : Nat) (sp : Nat) : IperfProg Int := do
  let before ← gettimeofday
  modifyStream sp (IperfStream.stamp before)
  let r ← streamWrite fuel sp
  if r < 0 then
    pure r
  else do
    modifyStream sp (IperfStream.sent r)
    pure r

/-! ## The routines of a stream -/

/-- The routine `send` of a protocol. -/
def protocolSend (fuel : Nat) (prot : ProtId) (sp : Nat) : IperfProg Int :=
  match prot with
  | .tcp => iperfTcpSend fuel sp
  | .udp => iperfUdpSend fuel sp
  | .sctp => iperfSctpSend fuel sp

/-- The routine `recv` of a protocol. -/
def protocolRecv (fuel : Nat) (prot : ProtId) (sp : Nat) : IperfProg Int :=
  match prot with
  | .tcp => iperfTcpRecv fuel sp
  | .udp => iperfUdpRecv fuel sp
  | .sctp => iperfSctpRecv fuel sp

/-- `diskfile_send` -/
def diskfileSend (fuel : Nat) (sp : Nat) : IperfProg Int := do
  let t ← getTest
  let st ← getStream sp
  let a ← sys (.read st.diskfileFd (sizeT t.settings.blksize))
  match a with
  | .ok [] => do
    modifyTest fun t => { t with done := true }
    pure 0
  | .ok bs => do
    modifyStream sp fun st => { st with buffer := overlay st.buffer bs }
    protocolSend fuel st.prot sp
  | .error e => do
    setErrno e
    protocolSend fuel st.prot sp

/-- `diskfile_recv` -/
def diskfileRecv (fuel : Nat) (sp : Nat) : IperfProg Int := do
  let st ← getStream sp
  let r ← protocolRecv fuel st.prot sp
  if r > 0 then do
    let st ← getStream sp
    let a ← sys (.write st.diskfileFd (st.buffer.take r.toNat))
    let _ ← result a fun _ => 0
    pure r
  else
    pure r

/-- `sp->snd` -/
def streamSnd (fuel : Nat) (sp : Nat) : IperfProg Int := do
  let st ← getStream sp
  if st.diskfile then diskfileSend fuel sp else protocolSend fuel st.prot sp

/-- `sp->rcv` -/
def streamRcv (fuel : Nat) (sp : Nat) : IperfProg Int := do
  let st ← getStream sp
  if st.diskfile then diskfileRecv fuel sp else protocolRecv fuel st.prot sp

/-! ## `iperf_send` and `iperf_recv` -/

/-- The rate at which a stream has sent since its start. -/
def bitsPerSecond (st : IperfStream) (now : Timeval) : UInt64 :=
  UInt64.ofInt (truncRat ((st.result.bytesSent * 8).toNat / timevalDiff st.result.startTime now))

/-- `iperf_check_throttle` -/
def iperfCheckThrottle (sp : Nat) (now : Timeval) : IperfProg Unit := do
  let t ← getTest
  if t.done then
    pure ()
  else do
    let st ← getStream sp
    if bitsPerSecond st now < t.settings.rate then do
      modifyStream sp fun st => { st with greenLight := true }
      modifyTest fun t => { t with writeSet := insert st.socket t.writeSet }
    else do
      modifyStream sp fun st => { st with greenLight := false }
      modifyTest fun t => { t with writeSet := t.writeSet.erase st.socket }

/-- Count `r` bytes for the whole test. -/
def IperfTest.count (r : Int) (t : IperfTest) : IperfTest :=
  { t with bytesSent := t.bytesSent + UInt64.ofInt r, blocksSent := t.blocksSent + 1 }

/-- The loop of `iperf_send` over the streams; a value is what `iperf_send` returns at once. -/
def sendStreams (fuel : Nat) (writeSet : Option FdSet) (multisend : Nat) (now : Timeval) :
    List Nat → IperfProg (Option Int)
  | [] => pure none
  | sp :: sps => do
    let st ← getStream sp
    if st.greenLight ∧ ∀ ws ∈ writeSet, st.socket ∈ ws then do
      let r ← streamSnd fuel sp
      if r < 0 then
        -- A soft error ends this loop only.
        if r = NET_SOFTERROR then
          pure none
        else do
          setIErrno .IESTREAMWRITE
          pure (some r)
      else do
        modifyTest (IperfTest.count r)
        let t ← getTest
        if t.settings.rate ≠ 0 ∧ t.settings.burst = 0 then iperfCheckThrottle sp now
        if multisend > 1 ∧ t.settings.bytes ≠ 0 ∧ t.bytesSent ≥ t.settings.bytes then
          pure none
        else if multisend > 1 ∧ t.settings.blocks ≠ 0 ∧ t.blocksSent ≥ t.settings.blocks then
          pure none
        else
          sendStreams fuel writeSet multisend now sps
    else
      sendStreams fuel writeSet multisend now sps

/-- The outer loop of `iperf_send`. -/
def sendRounds (fuel : Nat) (writeSet : Option FdSet) : Nat → IperfProg (Option Int)
  | 0 => pure none
  | multisend + 1 => do
    let t ← getTest
    let now ← if t.settings.rate ≠ 0 ∧ t.settings.burst = 0 then gettimeofday else pure ⟨0, 0⟩
    let sps ← allStreams
    let r ← sendStreams fuel writeSet (multisend + 1) now sps
    match r with
    | some r => pure (some r)
    | none => sendRounds fuel writeSet multisend

/-- `iperf_send`. The caller's copy of the write set, from which the streams are removed at the end, is
not used again. -/
def iperfSend (fuel : Nat) (writeSet : Option FdSet) : IperfProg Int := do
  let t ← getTest
  -- Can we do multisend mode?
  let multisend :=
    if t.settings.burst ≠ 0 then t.settings.burst
    else if t.settings.rate = 0 then t.multisend
    else 1
  let r ← sendRounds fuel writeSet multisend.toNat
  match r with
  | some r => pure r
  | none => do
    if t.settings.burst ≠ 0 then do
      let now ← gettimeofday
      let sps ← allStreams
      forAllStreams (fun sp => iperfCheckThrottle sp now) sps
    pure 0

/-- The loop of `iperf_recv`. -/
def recvStreams (fuel : Nat) : FdSet → List Nat → IperfProg Int
  | _, [] => pure 0
  | readSet, sp :: sps => do
    let st ← getStream sp
    if st.socket ∈ readSet then do
      let r ← streamRcv fuel sp
      if r < 0 then do
        setIErrno .IESTREAMREAD
        pure r
      else do
        modifyTest (IperfTest.count r)
        recvStreams fuel (readSet.erase st.socket) sps
    else
      recvStreams fuel readSet sps

/-- `iperf_recv` -/
def iperfRecv (fuel : Nat) (readSet : FdSet) : IperfProg Int := do
  let sps ← allStreams
  recvStreams fuel readSet sps

/-! ## `iperf_stats_callback` and `iperf_reset_stats` -/

/-- `get_total_retransmits` -/
def getTotalRetransmits (info : TcpInfo) : Int := info.tcpiTotalRetrans.toNat

/-- `get_snd_cwnd` -/
def getSndCwnd (info : TcpInfo) : Int := toInt (info.tcpiSndCwnd * info.tcpiSndMss).toNat

/-- `save_tcpinfo`; when the call fails, `info` stays what it was. -/
def saveTcpinfo (socket : Int) (info : TcpInfo) : IperfProg TcpInfo := do
  let a ← sys (.tcpInfo socket)
  match a with
  | .ok info => pure info
  | .error e => do
    setErrno e
    iperfErr "getsockopt"
    pure info

/-- The bytes of the current interval in the direction of the test. -/
def IperfStreamResult.thisInterval (sender : Bool) (rp : IperfStreamResult) : UInt64 :=
  if sender then rp.bytesSentThisInterval else rp.bytesReceivedThisInterval

/-- The record of an interval, up to the counters that depend on the protocol. `temp` is the local
variable of `iperf_stats_callback`, which all streams share. -/
def intervalRecord (t : IperfTest) (st : IperfStream) (endTime : Timeval)
    (temp : IperfIntervalResults) : IperfIntervalResults :=
  let start := if st.result.intervalResults = [] then st.result.startTime else st.result.endTime
  { temp with
    bytesTransferred := st.result.thisInterval t.sender
    intervalStartTime := start
    intervalEndTime := endTime
    intervalDuration := timevalDiff start endTime }

/-- The retransmits of an interval. -/
def retransRecord (st : IperfStream) (temp : IperfIntervalResults) : IperfIntervalResults :=
  { temp with
    intervalRetrans := toInt (getTotalRetransmits temp.tcpInfo - st.result.streamPrevTotalRetrans)
    sndCwnd := getSndCwnd temp.tcpInfo }

/-- A stream after the retransmits of an interval were counted. -/
def IperfStream.countRetransmits (temp : IperfIntervalResults) (st : IperfStream) : IperfStream :=
  { st with result := { st.result with
      streamRetrans := st.result.streamRetrans + temp.intervalRetrans
      streamPrevTotalRetrans := toInt (getTotalRetransmits temp.tcpInfo) } }

/-- The packet counters of an interval. -/
def packetRecord (st : IperfStream) (temp : IperfIntervalResults) : IperfIntervalResults :=
  let temp := match st.result.intervalResults.getLast? with
    | none => { temp with
        intervalPacketCount := st.packetCount
        intervalOutoforderPackets := st.outoforderPackets
        intervalCntError := st.cntError }
    | some irp => { temp with
        intervalPacketCount := st.packetCount - irp.packetCount
        intervalOutoforderPackets := st.outoforderPackets - irp.outoforderPackets
        intervalCntError := st.cntError - irp.cntError }
  { temp with
    packetCount := st.packetCount
    jitter := st.jitter
    outoforderPackets := st.outoforderPackets
    cntError := st.cntError }

/-- `add_to_interval_list`, and the start of a new interval. -/
def IperfStream.closeInterval (temp : IperfIntervalResults) (endTime : Timeval) (st : IperfStream) :
    IperfStream :=
  { st with result := { st.result with
      endTime := endTime
      intervalResults := st.result.intervalResults ++ [temp]
      bytesSentThisInterval := 0
      bytesReceivedThisInterval := 0 } }

/-- The loop of `iperf_stats_callback`. -/
def statsStreams : List Nat → IperfIntervalResults → IperfProg Unit
  | [], _ => pure ()
  | sp :: sps, temp => do
    let t ← getTest
    let st ← getStream sp
    let endTime ← gettimeofday
    let temp := intervalRecord t st endTime temp
    if t.protocol = .tcp then do
      let info ← saveTcpinfo st.socket temp.tcpInfo
      let temp := { temp with tcpInfo := info }
      if t.sender && t.senderHasRetransmits ≠ 0 then do
        let temp := retransRecord st temp
        modifyStream sp (IperfStream.countRetransmits temp)
        modifyStream sp (IperfStream.closeInterval temp endTime)
        statsStreams sps temp
      else do
        modifyStream sp (IperfStream.closeInterval temp endTime)
        statsStreams sps temp
    else do
      let temp := packetRecord st temp
      modifyStream sp (IperfStream.closeInterval temp endTime)
      statsStreams sps temp

/-- `iperf_stats_callback` -/
def iperfStatsCallback : IperfProg Unit := do
  let t ← getTest
  let temp ← sys .stackInterval
  let sps ← allStreams
  statsStreams sps { temp with omitted := t.omitting }

/-- The counters of a stream after `iperf_reset_stats`; `total` is the new
`stream_prev_total_retrans`, where there is one. -/
def IperfStream.resetStats (now : Timeval) (total : Option Int) (st : IperfStream) : IperfStream :=
  { st with
    omittedPacketCount := st.packetCount
    jitter := 0
    outoforderPackets := 0
    cntError := 0
    result := { st.result with
      bytesSent := 0
      bytesReceived := 0
      bytesSentThisInterval := 0
      bytesReceivedThisInterval := 0
      streamPrevTotalRetrans := total.getD st.result.streamPrevTotalRetrans
      streamRetrans := 0
      startTime := now } }

/-- `iperf_reset_stats` -/
def iperfResetStats : IperfProg Unit := do
  modifyTest fun t => { t with bytesSent := 0, blocksSent := 0 }
  let now ← gettimeofday
  let sps ← allStreams
  forAllStreams (fun sp => do
    let t ← getTest
    let st ← getStream sp
    if t.sender && t.senderHasRetransmits ≠ 0 then do
      let ir ← sys .stackInterval
      let info ← saveTcpinfo st.socket ir.tcpInfo
      modifyStream sp (IperfStream.resetStats now (some (toInt (getTotalRetransmits info))))
    else
      modifyStream sp (IperfStream.resetStats now none)) sps

end Iperf
