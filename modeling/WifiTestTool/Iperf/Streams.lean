import WifiTestTool.Iperf.Params
import WifiTestTool.Iperf.TestTimers

/-!
# Streams (`iperf_tcp.c`, `iperf_udp.c`, `iperf_sctp.c`, `iperf_api.c`)

How the connections of the streams are listened for, accepted and made in the three protocols, and how
a stream is created for a connection and freed.
-/

namespace Iperf

open Reactive

/-! ## Accepting -/

/-- `iperf_tcp_accept`. The connection is closed when it did not send the cookie of the test. -/
def iperfTcpAccept (fuel : Nat) : IperfProg Int := do
  let t ← getTest
  let s ← sockAccept t.listener
  if s < 0 then
    fail .IESTREAMCONNECT
  else do
    let cookie ← sys (.stack COOKIE_SIZE)
    let got ← nread fuel s COOKIE_SIZE
    match got with
    | none => fail .IERECVCOOKIE
    | some got => do
      let equal ← match strcmpEq t.cookie (overlay cookie got) with
        | some b => pure b
        | none => sys .beyond
      if equal then
        pure s
      else do
        let r ← nwrite fuel s [TestState.ACCESS_DENIED.toUInt8]
        if r < 0 then
          fail .IESENDMESSAGE
        else do
          sys (.close s)
          pure s

/-- `iperf_sctp_accept` -/
def iperfSctpAccept (fuel : Nat) : IperfProg Int := iperfTcpAccept fuel

/-- `iperf_udp_accept` -/
def iperfUdpAccept : IperfProg Int := do
  let t ← getTest
  let s := t.protListener
  let a ← sys (.recvfrom s)
  let sz ← result a fun _ => 0
  if sz < 0 then
    fail .IESTREAMACCEPT
  else do
    let a ← sys (.connect s)
    let r ← result a fun _ => 0
    if r < 0 then
      fail .IESTREAMACCEPT
    else do
      let fd ← netannounce t.settings.domain .udp t.bindAddress t.serverPort
      modifyTest fun t => { t with protListener := fd }
      if fd < 0 then
        fail .IESTREAMLISTEN
      else do
        modifyTest fun t => { t with readSet := insert fd t.readSet, maxFd := max t.maxFd fd }
        -- Let the client know we're ready to "accept" another UDP "stream".
        let a ← sys (.write s (htonl 987654321).reverse)
        let r ← result a fun n => n
        if r < 0 then fail .IESTREAMWRITE else pure s

/-- The routine `accept` of a protocol. -/
def protocolAccept (fuel : Nat) : ProtId → IperfProg Int
  | .tcp => iperfTcpAccept fuel
  | .udp => iperfUdpAccept
  | .sctp => iperfSctpAccept fuel

/-! ## Listening -/

/-- A call on the socket `s` whose failure makes the caller close `s`, set `i_errno` and return `-1`. -/
def orCloseFail (s : Int) (e : IErr) (r : IperfProg Int) (k : IperfProg Int) : IperfProg Int := do
  let v ← r
  if v < 0 then do
    sys (.close s)
    fail e
  else
    k

/-- Set a socket option unless its value is 0. -/
def optionUnlessZero (s : Int) (opt : SockOpt) (value : Int) : IperfProg Int :=
  if value ≠ 0 then setsockopt s opt value else pure 0

/-- Set the congestion control algorithm, if one was given. -/
def congestionOption (s : Int) (congestion : Option String) : IperfProg Int :=
  match congestion with
  | none => pure 0
  | some name => setsockopt s .congestion name.length

/-- `iperf_tcp_listen` -/
def iperfTcpListen : IperfProg Int := do
  let t ← getTest
  if t.noDelay ≠ 0 ∨ t.settings.mss ≠ 0 ∨ t.settings.socketBufsize ≠ 0 then do
    modifyTest fun t => { t with readSet := t.readSet.erase t.listener }
    sys (.close t.listener)
    let res ← sys (.getaddrinfo t.bindAddress (some t.serverPort) (passiveFamily t.settings.domain))
    match res with
    | none => fail .IESTREAMLISTEN
    | some family => do
      let s ← sockSocket family .tcp
      if s < 0 then
        fail .IESTREAMLISTEN
      else
        orCloseFail s .IESETNODELAY (if t.noDelay ≠ 0 then setsockopt s .nodelay 1 else pure 0) <|
        orCloseFail s .IESETMSS (optionUnlessZero s .maxseg t.settings.mss) <|
        orCloseFail s .IESETBUF (optionUnlessZero s .rcvbuf t.settings.socketBufsize) <|
        orCloseFail s .IESETBUF (optionUnlessZero s .sndbuf t.settings.socketBufsize) <|
        orCloseFail s .IESETCONGESTION (congestionOption s t.congestion) <|
        orCloseFail s .IEREUSEADDR (setsockopt s .reuseaddr 1) <|
        orCloseFail s .IEV6ONLY (v6only s t.settings.domain) <|
        orCloseFail s .IESTREAMLISTEN (sockBind s) <| do
          let r ← sockListen s
          if r < 0 then
            fail .IESTREAMLISTEN
          else do
            modifyTest fun t => { t with listener := s }
            pure s
  else
    pure t.listener

/-- `iperf_udp_listen` -/
def iperfUdpListen : IperfProg Int := do
  let t ← getTest
  let s ← netannounce t.settings.domain .udp t.bindAddress t.serverPort
  if s < 0 then fail .IESTREAMLISTEN else pure s

/-- `iperf_sctp_listen` -/
def iperfSctpListen : IperfProg Int := do
  let t ← getTest
  sys (.close t.listener)
  let res ← sys (.getaddrinfo t.bindAddress (some t.serverPort) (passiveFamily t.settings.domain))
  match res with
  | none => fail .IESTREAMLISTEN
  | some family => do
    let s ← sockSocket family .sctp
    if s < 0 then
      fail .IESTREAMLISTEN
    else
      orCloseFail s .IEPROTOCOL (v6only s t.settings.domain) <|
      orCloseFail s .IEREUSEADDR (setsockopt s .reuseaddr 1) <|
      orCloseFail s .IESTREAMLISTEN (sockBind s) <| do
        let r ← sockListen s
        if r < 0 then
          fail .IESTREAMLISTEN
        else do
          modifyTest fun t => { t with listener := s }
          pure s

/-- The routine `listen` of a protocol. -/
def protocolListen : ProtId → IperfProg Int
  | .tcp => iperfTcpListen
  | .udp => iperfUdpListen
  | .sctp => iperfSctpListen

/-! ## Connecting -/

/-- The socket of a stream of the client: the local and the server address are looked up and the socket
is made. -/
def streamSocket (t : IperfTest) (prot : ProtId) (k : Domain → Int → IperfProg Int) :
    IperfProg Int := do
  if !(← lookupLocal t.settings.domain t.bindAddress) then
    fail .IESTREAMCONNECT
  else do
    let res ← sys (.getaddrinfo t.serverHostname (some t.serverPort) t.settings.domain)
    match res with
    | none => fail .IESTREAMCONNECT
    | some family => do
      let s ← sockSocket family prot
      if s < 0 then fail .IESTREAMCONNECT else k family s

/-- The IPv6 flow label of a stream. -/
def flowlabelOption (s : Int) (family : Domain) (flowlabel : Int) : IperfProg Int :=
  if flowlabel ≠ 0 then
    if family ≠ .inet6 then
      pure (-1)
    else do
      let r ← setsockopt s .flowlabelMgr flowlabel
      if r < 0 then pure (-1) else setsockopt s .flowinfoSend 1
  else
    pure 0

/-- `iperf_tcp_connect` -/
def iperfTcpConnect (fuel : Nat) : IperfProg Int := do
  let t ← getTest
  streamSocket t .tcp fun family s =>
    orCloseFail s .IESTREAMCONNECT (bindLocal s t.bindAddress) <|
    orCloseFail s .IESETNODELAY (if t.noDelay ≠ 0 then setsockopt s .nodelay 1 else pure 0) <|
    orCloseFail s .IESETMSS (optionUnlessZero s .maxseg t.settings.mss) <|
    orCloseFail s .IESETBUF (optionUnlessZero s .rcvbuf t.settings.socketBufsize) <|
    orCloseFail s .IESETBUF (optionUnlessZero s .sndbuf t.settings.socketBufsize) <|
    orCloseFail s .IESETFLOW (flowlabelOption s family t.settings.flowlabel) <|
    orCloseFail s .IESETCONGESTION (congestionOption s t.congestion) <|
    orCloseFail s .IESTREAMCONNECT (sockConnect s) <|
    -- Send cookie for verification.
    orCloseFail s .IESENDCOOKIE (nwrite fuel s t.cookie) <|
    pure s

/-- `iperf_sctp_connect`, which looks up the local address but does not bind to it. -/
def iperfSctpConnect (fuel : Nat) : IperfProg Int := do
  let t ← getTest
  streamSocket t .sctp fun _ s =>
    orCloseFail s .IESTREAMCONNECT (sockConnect s) <|
    orCloseFail s .IESENDCOOKIE (nwrite fuel s t.cookie) <|
    orCloseFail s .IESETSCTPDISABLEFRAG (setsockopt s .sctpDisableFragments 0) <|
    pure s

/-- `iperf_udp_connect` -/
def iperfUdpConnect : IperfProg Int := do
  let t ← getTest
  let s ← netdial t.settings.domain .udp t.bindAddress t.serverHostname t.serverPort
  if s < 0 then
    fail .IESTREAMCONNECT
  else do
    -- Write to the UDP stream to let the server know we're here.
    let a ← sys (.write s (htonl 123456789).reverse)
    let r ← result a fun n => n
    if r < 0 then
      fail .IESTREAMWRITE
    else do
      -- Wait until the server confirms the client UDP write.
      let a ← sys (.recvfrom s)
      let r ← result a fun _ => 0
      if r < 0 then fail .IESTREAMREAD else pure s

/-- The routine `connect` of a protocol. -/
def protocolConnect (fuel : Nat) : ProtId → IperfProg Int
  | .tcp => iperfTcpConnect fuel
  | .udp => iperfUdpConnect
  | .sctp => iperfSctpConnect fuel

/-! ## Creating and freeing streams -/

/-- The type of service of a stream, by the family of its socket. -/
def streamTos (s : Int) (tos : Int) : IperfProg Int :=
  if tos ≠ 0 then do
    let family ← sys (.getsockdomain s)
    if family = .inet6 then do
      let r ← setsockopt s .tclass tos
      if r < 0 then fail .IESETCOS else pure 0
    else do
      let r ← setsockopt s .tos tos
      if r < 0 then fail .IESETTOS else pure 0
  else
    pure 0

/-- `iperf_init_stream` -/
def iperfInitStream (s : Int) : IperfProg Int := do
  let t ← getTest
  let a ← sys (.getsockname s)
  let r ← result a fun _ => 0
  if r < 0 then
    fail .IEINITSTREAM
  else do
    let a ← sys (.getpeername s)
    let r ← result a fun _ => 0
    if r < 0 then fail .IEINITSTREAM else streamTos s t.settings.tos

/-- `iperf_add_stream`: the new stream goes to the end of the list. -/
def iperfAddStream (st : IperfStream) (t : IperfTest) : IperfTest :=
  { t with streams := t.streams ++
      [{ st with id := if t.streams = [] then 1 else t.streams.length + 2 }] }

/-- The structure that `iperf_new_stream` sets up for the socket `s`. -/
def newStream (t : IperfTest) (s bufferFd diskfileFd : Int) (buffer : List UInt8) : IperfStream where
  socket := s
  id := 0
  result := {
    bytesReceived := 0
    bytesSent := 0
    bytesReceivedThisInterval := 0
    bytesSentThisInterval := 0
    streamPrevTotalRetrans := 0
    streamRetrans := 0
    startTime := ⟨0, 0⟩
    endTime := ⟨0, 0⟩
    intervalResults := [] }
  sendTimer := none
  greenLight := false
  bufferFd := bufferFd
  buffer := buffer
  diskfileFd := diskfileFd
  packetCount := 0
  omittedPacketCount := 0
  jitter := 0
  prevTransit := 0
  outoforderPackets := 0
  cntError := 0
  prot := t.protocol
  diskfile := t.diskfileName.isSome

/-- A step of `iperf_new_stream` at whose failure the process exits. -/
def orErrexit {α : Type} (a : Except Errno α) (message : String) (k : α → IperfProg Bool) :
    IperfProg Bool :=
  match a with
  | .error e => do
    setErrno e
    setIErrno .IECREATESTREAM
    iperfErrexit message
  | .ok v => k v

/-- The end of `iperf_new_stream`. -/
def finishStream (s bufferFd diskfileFd : Int) (buffer : List UInt8) : IperfProg Bool := do
  let r ← iperfInitStream s
  if r < 0 then do
    let t ← getTest
    sys (.close bufferFd)
    sys (.munmap t.settings.blksize)
    pure false
  else do
    modifyTest fun t => iperfAddStream (newStream t s bufferFd diskfileFd buffer) t
    pure true

/-- `iperf_new_stream`; `false` is `NULL`. -/
def iperfNewStream (s : Int) : IperfProg Bool := do
  let t ← getTest
  let ok ← sys .mallocStruct
  if !ok then
    iperfErrexit " __func__ 1111 "
  else do
    let ok ← sys .mallocStruct
    if !ok then do
      setIErrno .IECREATESTREAM
      iperfErrexit " __func__ 222"
    else do
      -- Create and randomize the buffer.
      orErrexit (← sys .mkstemp) " __func__ 333" fun bufferFd => do
      orErrexit (← sys .unlink) " __func__ 555i" fun _ => do
      orErrexit (← sys (.ftruncate bufferFd t.settings.blksize)) " __func__666 " fun _ => do
      orErrexit (← sys (.mmap bufferFd t.settings.blksize)) " __func__ 777" fun _ => do
      let buffer ← sys (.random t.settings.blksize.toNat)
      match t.diskfileName with
      | none => finishStream s bufferFd (-1) buffer
      | some name => do
        let a ← sys (.openFile name (!t.sender))
        let fd ← result a fun fd => fd
        if fd = -1 then do
          setIErrno .IEFILE
          sys (.munmap t.settings.blksize)
          pure false
        else
          finishStream s bufferFd fd buffer

/-- `iperf_free_stream`, up to the release of the structure itself. -/
def iperfFreeStream (st : IperfStream) : IperfProg Unit := do
  let t ← getTest
  sys (.munmap t.settings.blksize)
  sys (.close st.bufferFd)
  if st.diskfileFd ≥ 0 then sys (.close st.diskfileFd)
  cancelHandle st.sendTimer

/-- The loop of `iperf_reset_test` that frees the streams. -/
def freeStreams : List IperfStream → IperfProg Unit
  | [] => pure ()
  | st :: sts => do
    modifyTest fun t => { t with streams := sts }
    iperfFreeStream st
    freeStreams sts

/-- `iperf_reset_test` -/
def iperfResetTest : IperfProg Unit := do
  let t ← getTest
  freeStreams t.streams
  cancelOmitTimer
  cancelTestTimer
  cancelStatsTimer
  cancelReporterTimer
  modifyTest resetFields

/-- `connect_msg`, which is `iperf_on_new_stream` -/
def connectMsg (s : Int) : IperfProg Unit := do
  let t ← getTest
  let _ ← sys (.getsockdomain s)
  if t.jsonOutput then sys (.output (.json .start "connected" [("socket", .int s)]))
  else iprintf .reportConnected [.int s]

end Iperf
