import WifiTestTool.Iperf.Sys

/-!
# Options and parameters (`iperf_api.c`)

`iperf_defaults`, `iperf_parse_arguments`, the document that `send_parameters` builds, what
`get_parameters` takes from a document, and the part of `iperf_reset_test` that sets the fields of the
test. These functions only compute on the structure `iperf_test`; they are pure functions here.

An option comes with its argument already converted by `atoi`, `atof`, `strtol`, `unit_atoi` or
`unit_atof`, since the code uses nothing but the converted value.
-/

namespace Iperf

/-! ## Setters -/

/-- `has_tcpinfo_retransmits` on Linux -/
def hasTcpinfoRetransmits : Bool := true

/-- `check_sender_has_retransmits` -/
def checkSenderHasRetransmits (t : IperfTest) : IperfTest :=
  { t with senderHasRetransmits :=
      if t.sender && t.protocol = .tcp && hasTcpinfoRetransmits then 1 else 0 }

/-- The role decides who sends. -/
def roleSender (role : Role) (sender : Bool) : Bool :=
  match role with
  | .client => true
  | .server => false
  | .unset => sender

/-- `iperf_set_test_role` -/
def iperfSetTestRole (role : Role) (t : IperfTest) : IperfTest :=
  let sender := roleSender role t.sender
  checkSenderHasRetransmits { t with
    role := role
    sender := if t.reverse ≠ 0 then !sender else sender }

/-- `iperf_set_test_reverse` -/
def iperfSetTestReverse (reverse : Int) (t : IperfTest) : IperfTest :=
  checkSenderHasRetransmits { t with
    reverse := reverse
    sender := if reverse ≠ 0 then !t.sender else t.sender }

/-- `set_protocol`; all three protocols are on the list of the test. -/
def setProtocol (prot : ProtId) (t : IperfTest) : IperfTest :=
  checkSenderHasRetransmits { t with protocol := prot }

/-! ## `iperf_new_test` and `iperf_defaults` -/

/-- `iperf_new_test`: everything is zero. -/
def iperfNewTest : IperfTest where
  role := .unset
  sender := false
  senderHasRetransmits := 0
  protocol := .tcp
  state := 0
  serverHostname := none
  bindAddress := none
  serverPort := 0
  omitTime := 0
  duration := 0
  diskfileName := none
  affinity := 0
  serverAffinity := 0
  title := none
  congestion := none
  pidfile := none
  ctrlSck := 0
  listener := 0
  protListener := 0
  daemon := false
  noDelay := 0
  reverse := 0
  verbose := false
  jsonOutput := false
  zerocopy := false
  debug := false
  multisend := 0
  mayUseSigalrm := false
  maxFd := 0
  readSet := ∅
  writeSet := ∅
  omitting := false
  statsInterval := 0
  reporterInterval := 0
  omitTimer := none
  timer := none
  done := false
  statsTimer := none
  reporterTimer := none
  cpuUtil := (0, 0, 0)
  remoteCpuUtil := (0, 0, 0)
  numStreams := 0
  bytesSent := 0
  blocksSent := 0
  cookie := List.replicate COOKIE_SIZE 0
  streams := []
  settings := {
    domain := .unspec
    socketBufsize := 0
    blksize := 0
    rate := 0
    burst := 0
    mss := 0
    tos := 0
    flowlabel := 0
    bytes := 0
    blocks := 0
    unitFormat := '\x00' }

/-- `iperf_defaults` -/
def iperfDefaults (t : IperfTest) : IperfTest :=
  let t := { t with
    omitTime := OMIT
    duration := DURATION
    diskfileName := none
    affinity := -1
    serverAffinity := -1
    title := none
    congestion := none
    serverPort := PORT
    ctrlSck := -1
    protListener := -1
    statsInterval := 1
    reporterInterval := 1
    numStreams := 1
    settings := { t.settings with
      domain := .unspec
      unitFormat := 'a'
      socketBufsize := 0
      blksize := DEFAULT_TCP_BLKSIZE
      rate := 0
      burst := 0
      mss := 0
      bytes := 0
      blocks := 0 }
    cookie := List.replicate COOKIE_SIZE 0
    multisend := 10
    mayUseSigalrm := false
    streams := [] }
  setProtocol .tcp t

/-! ## `iperf_parse_arguments` -/

/-- An option with its argument, converted as the code converts it. -/
inductive Opt where
  | port (n : Int)
  | format (c : Char)
  | interval (q : ℚ)
  | daemon
  | verbose
  | json
  | version
  | server
  | client (host : String)
  | udp
  | sctp
  | bandwidth (rate : UInt64) (burst : Option Int)
  | time (n : Int)
  | bytes (n : UInt64)
  | blockcount (n : UInt64)
  | length (n : UInt64)
  | parallel (n : Int)
  | reverse
  | window (n : Int)
  | bind (host : String)
  | setMss (n : Int)
  | noDelay
  | version4
  | version6
  | tos (n : Int)
  | flowlabel (n : Int)
  | zerocopy
  | omitTime (n : Int)
  | file (name : String)
  | affinity (n : Int) (server : Option Int)
  | title (s : String)
  | linuxCongestion (s : String)
  | pidfile (name : String)
  | debug
  | help

/-- Why `iperf_parse_arguments` does not return 0. -/
inductive ParseStop where
  | fail (e : IErr)
  | exit (status : Nat)
deriving DecidableEq, Repr

/-- The local variables of `iperf_parse_arguments`. -/
structure ParseState where
  test : IperfTest
  blksize : Int
  serverFlag : Bool
  clientFlag : Bool
  rateFlag : Bool
  durationFlag : Bool

namespace ParseState

/-- Change the test. -/
def onTest (p : ParseState) (f : IperfTest → IperfTest) : ParseState := { p with test := f p.test }

/-- Change the settings. -/
def onSettings (p : ParseState) (f : IperfSettings → IperfSettings) : ParseState :=
  p.onTest fun t => { t with settings := f t.settings }

/-- `client_flag = 1` -/
def clientOnly (p : ParseState) : ParseState := { p with clientFlag := true }

/-- `server_flag = 1` -/
def serverOnly (p : ParseState) : ParseState := { p with serverFlag := true }

end ParseState

/-- Go on with `p` unless `bad` holds. -/
def orFail (bad : Prop) [Decidable bad] (e : IErr) (p : ParseState) : Except ParseStop ParseState :=
  if bad then .error (.fail e) else .ok p

/-- One pass through the loop of `iperf_parse_arguments`. -/
def parseOpt (p : ParseState) : Opt → Except ParseStop ParseState
  | .port n => .ok (p.onTest fun t => { t with serverPort := n })
  | .format c => .ok (p.onSettings fun s => { s with unitFormat := c })
  | .interval q =>
    orFail ((q < MIN_INTERVAL ∨ q > MAX_INTERVAL) ∧ q ≠ 0) .IEINTERVAL
      (p.onTest fun t => { t with statsInterval := q, reporterInterval := q })
  | .daemon => .ok (p.onTest fun t => { t with daemon := true }).serverOnly
  | .verbose => .ok (p.onTest fun t => { t with verbose := true })
  | .json => .ok (p.onTest fun t => { t with jsonOutput := true })
  | .version => .error (.exit 0)
  | .server =>
    orFail (p.test.role = .client) .IESERVCLIENT (p.onTest (iperfSetTestRole .server))
  | .client host =>
    orFail (p.test.role = .server) .IESERVCLIENT
      (p.onTest fun t => { iperfSetTestRole .client t with serverHostname := some host })
  | .udp => .ok (p.onTest (setProtocol .udp)).clientOnly
  | .sctp => .ok (p.onTest (setProtocol .sctp)).clientOnly
  | .bandwidth rate burst =>
    match burst with
    | none => .ok { (p.onSettings fun s => { s with rate := rate }).clientOnly with rateFlag := true }
    | some n =>
      orFail (n ≤ 0 ∨ n > MAX_BURST) .IEBURST
        { (p.onSettings fun s => { s with rate := rate, burst := n }).clientOnly with
          rateFlag := true }
  | .time n =>
    orFail (n > MAX_TIME) .IEDURATION
      { (p.onTest fun t => { t with duration := n }).clientOnly with durationFlag := true }
  | .bytes n => .ok (p.onSettings fun s => { s with bytes := n }).clientOnly
  | .blockcount n => .ok (p.onSettings fun s => { s with blocks := toInt n.toNat }).clientOnly
  | .length n => .ok { p.clientOnly with blksize := toInt n.toNat }
  | .parallel n =>
    orFail (n > MAX_STREAMS) .IENUMSTREAMS (p.onTest fun t => { t with numStreams := n }).clientOnly
  | .reverse => .ok (p.onTest (iperfSetTestReverse 1)).clientOnly
  | .window n =>
    orFail (n > MAX_TCP_BUFFER) .IEBUFSIZE
      (p.onSettings fun s => { s with socketBufsize := n }).clientOnly
  | .bind host => .ok (p.onTest fun t => { t with bindAddress := some host })
  | .setMss n => orFail (n > MAX_MSS) .IEMSS (p.onSettings fun s => { s with mss := n }).clientOnly
  | .noDelay => .ok (p.onTest fun t => { t with noDelay := 1 }).clientOnly
  | .version4 => .ok (p.onSettings fun s => { s with domain := .inet })
  | .version6 => .ok (p.onSettings fun s => { s with domain := .inet6 })
  | .tos n => .ok (p.onSettings fun s => { s with tos := n }).clientOnly
  | .flowlabel n =>
    orFail (n < 1 ∨ n > 0xfffff) .IESETFLOW (p.onSettings fun s => { s with flowlabel := n }).clientOnly
  | .zerocopy => .ok (p.onTest fun t => { t with zerocopy := true }).clientOnly
  | .omitTime n =>
    orFail (n < 0 ∨ n > 60) .IEOMIT (p.onTest fun t => { t with omitTime := n }).clientOnly
  | .file name => .ok (p.onTest fun t => { t with diskfileName := some name })
  | .affinity n server =>
    match server with
    | none =>
      orFail (n < 0 ∨ n > 1024) .IEAFFINITY (p.onTest fun t => { t with affinity := n })
    | some m =>
      orFail ((n < 0 ∨ n > 1024) ∨ m < 0 ∨ m > 1024) .IEAFFINITY
        (p.onTest fun t => { t with affinity := n, serverAffinity := m }).clientOnly
  | .title s => .ok (p.onTest fun t => { t with title := some s }).clientOnly
  | .linuxCongestion s => .ok (p.onTest fun t => { t with congestion := some s }).clientOnly
  | .debug => .ok (p.onTest fun t => { t with debug := true })
  | .pidfile name => .ok (p.onTest fun t => { t with pidfile := some name }).serverOnly
  | .help => .error (.exit 1)

/-- The loop of `iperf_parse_arguments`. -/
def parseOpts : List Opt → ParseState → Except ParseStop ParseState
  | [], p => .ok p
  | o :: opts, p => do
    let p ← parseOpt p o
    parseOpts opts p

/-- The block size of a protocol when none was given. -/
def defaultBlksize : ProtId → Int
  | .udp => DEFAULT_UDP_BLKSIZE
  | .sctp => DEFAULT_SCTP_BLKSIZE
  | .tcp => DEFAULT_TCP_BLKSIZE

/-- The block size that `iperf_parse_arguments` settles on. -/
def ParseState.finalBlksize (p : ParseState) : Int :=
  if p.blksize = 0 then defaultBlksize p.test.protocol else p.blksize

/-- The test with the block size, the rate and the duration that `iperf_parse_arguments` settles on. -/
def ParseState.finalTest (p : ParseState) : IperfTest :=
  { p.test with
    duration := if (p.test.settings.bytes ≠ 0 ∨ p.test.settings.blocks ≠ 0) ∧ ¬ p.durationFlag then 0
      else p.test.duration
    settings := { p.test.settings with
      blksize := p.finalBlksize
      rate := if p.rateFlag then p.test.settings.rate
        else if p.test.protocol = .udp then UDP_RATE else 0 } }

/-- What `iperf_parse_arguments` does after its loop. -/
def parseFinish (p : ParseState) : Except ParseStop IperfTest :=
  -- Check flag / role compatibility.
  if p.test.role = .client ∧ p.serverFlag then .error (.fail .IESERVERONLY)
  else if p.test.role = .server ∧ p.clientFlag then .error (.fail .IECLIENTONLY)
  else if p.finalBlksize ≤ 0 ∨ p.finalBlksize > MAX_BLOCKSIZE then .error (.fail .IEBLOCKSIZE)
  -- Disallow specifying multiple test end conditions.
  else if (p.durationFlag ∧ p.test.settings.bytes ≠ 0) ∨
      (p.durationFlag ∧ p.test.settings.blocks ≠ 0) ∨
      (p.test.settings.bytes ≠ 0 ∧ p.test.settings.blocks ≠ 0) then .error (.fail .IEENDCONDITIONS)
  else if p.test.role ≠ .client ∧ p.test.role ≠ .server then .error (.fail .IENOROLE)
  else .ok p.finalTest

/-- `iperf_parse_arguments` -/
def iperfParseArguments (t : IperfTest) (opts : List Opt) : Except ParseStop IperfTest := do
  let p ← parseOpts opts
    { test := t, blksize := 0, serverFlag := false, clientFlag := false, rateFlag := false,
      durationFlag := false }
  parseFinish p

/-- The test that `main` starts from: `iperf_new_test`, `iperf_defaults` and
`iperf_set_test_may_use_sigalrm`. -/
def mainTest : IperfTest := { iperfDefaults iperfNewTest with mayUseSigalrm := true }

/-! ## `send_parameters` and `get_parameters` -/

/-- The conversion of a `uint64_t` to the `int64_t` that `cJSON_CreateInt` takes. -/
def toInt64 (n : UInt64) : Int := Int.bmod n.toNat 0x10000000000000000

/-- An item that `send_parameters` adds when the condition `c` holds. -/
def item (c : Prop) [Decidable c] (name : String) (v : Json) : List (String × Json) :=
  if c then [(name, v)] else []

/-- An item for a string that may be `NULL`. -/
def stringItem (name : String) (s : Option String) : List (String × Json) :=
  match s with
  | some s => [(name, .str s)]
  | none => []

/-- The name under which a protocol is announced. -/
def protocolKey : ProtId → String
  | .tcp => "tcp"
  | .udp => "udp"
  | .sctp => "sctp"

/-- The items that `send_parameters` adds to the document. -/
def parameterItems (t : IperfTest) : List (String × Json) :=
  [(protocolKey t.protocol, Json.true)] ++
  [("omit", .int t.omitTime)] ++
  item (t.serverAffinity ≠ -1) "server_affinity" (.int t.serverAffinity) ++
  item (t.duration ≠ 0) "time" (.int t.duration) ++
  item (t.settings.bytes ≠ 0) "num" (.int (toInt64 t.settings.bytes)) ++
  item (t.settings.blocks ≠ 0) "blockcount" (.int t.settings.blocks) ++
  item (t.settings.mss ≠ 0) "MSS" (.int t.settings.mss) ++
  item (t.noDelay ≠ 0) "nodelay" Json.true ++
  [("parallel", .int t.numStreams)] ++
  item (t.reverse ≠ 0) "reverse" Json.true ++
  item (t.settings.socketBufsize ≠ 0) "window" (.int t.settings.socketBufsize) ++
  item (t.settings.blksize ≠ 0) "len" (.int t.settings.blksize) ++
  item (t.settings.rate ≠ 0) "bandwidth" (.int (toInt64 t.settings.rate)) ++
  item (t.settings.burst ≠ 0) "burst" (.int t.settings.burst) ++
  item (t.settings.tos ≠ 0) "TOS" (.int t.settings.tos) ++
  item (t.settings.flowlabel ≠ 0) "flowlabel" (.int t.settings.flowlabel) ++
  stringItem "title" t.title ++
  stringItem "congestion" t.congestion

/-- The document that `send_parameters` builds. -/
def parameterDoc (t : IperfTest) : Json := .obj (parameterItems t)

/-- A test whether the document `j` has an item called `name`, and what is done with it. -/
def onItem (j : Json) (name : String) (f : Json → IperfTest → IperfTest) (t : IperfTest) :
    IperfTest :=
  match cJSON_GetObjectItem j name with
  | none => t
  | some p => f p t

/-- The same for an item whose `valuestring` is duplicated; `none` is `strdup(NULL)`. -/
def onString (j : Json) (name : String) (f : String → IperfTest → IperfTest) (t : IperfTest) :
    Option IperfTest :=
  match cJSON_GetObjectItem j name with
  | none => some t
  | some p => p.valuestring.map fun s => f s t

/-- Change the settings of a test. -/
def onSettings (f : IperfSettings → IperfSettings) (t : IperfTest) : IperfTest :=
  { t with settings := f t.settings }

/-- The items that `get_parameters` looks for, in this order and before the two strings, and what it
does with each of them. -/
def parameterReaders : List (String × (Json → IperfTest → IperfTest)) := [
  ("tcp", fun _ => setProtocol .tcp),
  ("udp", fun _ => setProtocol .udp),
  ("sctp", fun _ => setProtocol .sctp),
  ("omit", fun p t => { t with omitTime := toInt p.valueint }),
  ("server_affinity", fun p t => { t with serverAffinity := toInt p.valueint }),
  ("time", fun p t => { t with duration := toInt p.valueint }),
  ("num", fun p => onSettings fun s => { s with bytes := UInt64.ofInt p.valueint }),
  ("blockcount", fun p => onSettings fun s => { s with blocks := toInt p.valueint }),
  ("MSS", fun p => onSettings fun s => { s with mss := toInt p.valueint }),
  ("nodelay", fun _ t => { t with noDelay := 1 }),
  ("parallel", fun p t => { t with numStreams := toInt p.valueint }),
  ("reverse", fun _ => iperfSetTestReverse 1),
  ("window", fun p => onSettings fun s => { s with socketBufsize := toInt p.valueint }),
  ("len", fun p => onSettings fun s => { s with blksize := toInt p.valueint }),
  ("bandwidth", fun p => onSettings fun s => { s with rate := UInt64.ofInt p.valueint }),
  ("burst", fun p => onSettings fun s => { s with burst := toInt p.valueint }),
  ("TOS", fun p => onSettings fun s => { s with tos := toInt p.valueint }),
  ("flowlabel", fun p => onSettings fun s => { s with flowlabel := toInt p.valueint })]

/-- Look for one item after the other. -/
def readItems (j : Json) (readers : List (String × (Json → IperfTest → IperfTest))) (t : IperfTest) :
    IperfTest :=
  readers.foldl (fun t r => onItem j r.1 r.2 t) t

/-- What `get_parameters` takes from the document `j`. -/
def takeParameters (j : Json) (t : IperfTest) : Option IperfTest := do
  let t := readItems j parameterReaders t
  let t ← onString j "title" (fun s t => { t with title := some s }) t
  let t ← onString j "congestion" (fun s t => { t with congestion := some s }) t
  some (if t.sender && t.protocol = .tcp && hasTcpinfoRetransmits then
    { t with senderHasRetransmits := 1 } else t)

/-! ## `iperf_reset_test` -/

/-- The fields that `iperf_reset_test` sets once it has freed the streams and cancelled the timers. -/
def resetFields (t : IperfTest) : IperfTest :=
  let t := { t with
    done := false
    streams := []
    role := .server
    sender := false
    senderHasRetransmits := 0 }
  let t := setProtocol .tcp t
  { t with
    omitTime := OMIT
    duration := DURATION
    serverAffinity := -1
    state := 0
    title := none
    serverHostname := none
    bindAddress := none
    congestion := none
    ctrlSck := -1
    protListener := -1
    bytesSent := 0
    blocksSent := 0
    reverse := 0
    noDelay := 0
    readSet := ∅
    writeSet := ∅
    numStreams := 1
    settings := { t.settings with
      socketBufsize := 0
      blksize := DEFAULT_TCP_BLKSIZE
      rate := 0
      burst := 0
      mss := 0 }
    cookie := List.replicate COOKIE_SIZE 0
    multisend := 10 }

end Iperf
