import Mathlib.Data.Finset.Basic
import Mathlib.Data.Int.Order.Basic
import Mathlib.Data.Rat.Floor
import WifiTestTool.Iperf.Timer

/-!
# The data of iperf (`iperf.h`, `iperf_api.h`)

The structures `iperf_settings`, `iperf_interval_results`, `iperf_stream_result`, `iperf_stream` and
`iperf_test` with the fields that the modelled functions use. An `int` that only ever holds 0 or 1
is a `Bool`; `iperf_size_t` and `uint64_t` are `UInt64`; a `double` is a rational number. The streams
of a test are the list `streams`, and a pointer to a stream is its position in this list: streams are
only ever added at the end, and the list is emptied as a whole.
-/

namespace Iperf

open Dll (Addr)

/-- The values of `errno` that the code tells apart. -/
inductive Errno where
  | eintr
  | eagain
  | enobufs
  | enomem
  | ebadf
  | eafnosupport
  | einprogress
  | other (code : Nat)
deriving DecidableEq, Repr

/-- The number of an error on Linux. -/
def Errno.code : Errno → Nat
  | eintr => 4
  | eagain => 11
  | enobufs => 105
  | enomem => 12
  | ebadf => 9
  | eafnosupport => 97
  | einprogress => 115
  | other code => code

/-- The values of `i_errno`. -/
inductive IErr where
  | IENONE | IESERVCLIENT | IENOROLE | IESERVERONLY | IECLIENTONLY | IEDURATION | IENUMSTREAMS
  | IEBLOCKSIZE | IEBUFSIZE | IEINTERVAL | IEMSS | IENOSENDFILE | IEOMIT | IEUNIMP | IEFILE | IEBURST
  | IEENDCONDITIONS | IENEWTEST | IEINITTEST | IELISTEN | IECONNECT | IEACCEPT | IESENDCOOKIE
  | IERECVCOOKIE | IECTRLWRITE | IECTRLREAD | IECTRLCLOSE | IEMESSAGE | IESENDMESSAGE
  | IERECVMESSAGE | IESENDPARAMS | IERECVPARAMS | IEPACKAGERESULTS | IESENDRESULTS | IERECVRESULTS
  | IESELECT | IECLIENTTERM | IESERVERTERM | IEACCESSDENIED | IESETNODELAY | IESETMSS | IESETBUF
  | IESETTOS | IESETCOS | IESETFLOW | IEREUSEADDR | IEPROTOCOL | IEAFFINITY | IEDAEMON
  | IESETCONGESTION | IEPIDFILE | IEV6ONLY | IESETSCTPDISABLEFRAG | IECREATESTREAM | IEINITSTREAM
  | IESTREAMLISTEN | IESTREAMCONNECT | IESTREAMACCEPT | IESTREAMWRITE | IESTREAMREAD | IESTREAMID
  /-- A number that the client was told by the server. -/
  | remote (code : Nat)
deriving DecidableEq, Repr

/-- The number of an error. -/
def IErr.code : IErr → Nat
  | IENONE => 0 | IESERVCLIENT => 1 | IENOROLE => 2 | IESERVERONLY => 3 | IECLIENTONLY => 4
  | IEDURATION => 5 | IENUMSTREAMS => 6 | IEBLOCKSIZE => 7 | IEBUFSIZE => 8 | IEINTERVAL => 9
  | IEMSS => 10 | IENOSENDFILE => 11 | IEOMIT => 12 | IEUNIMP => 13 | IEFILE => 14 | IEBURST => 15
  | IEENDCONDITIONS => 16 | IENEWTEST => 100 | IEINITTEST => 101 | IELISTEN => 102
  | IECONNECT => 103 | IEACCEPT => 104 | IESENDCOOKIE => 105 | IERECVCOOKIE => 106
  | IECTRLWRITE => 107 | IECTRLREAD => 108 | IECTRLCLOSE => 109 | IEMESSAGE => 110
  | IESENDMESSAGE => 111 | IERECVMESSAGE => 112 | IESENDPARAMS => 113 | IERECVPARAMS => 114
  | IEPACKAGERESULTS => 115 | IESENDRESULTS => 116 | IERECVRESULTS => 117 | IESELECT => 118
  | IECLIENTTERM => 119 | IESERVERTERM => 120 | IEACCESSDENIED => 121 | IESETNODELAY => 122
  | IESETMSS => 123 | IESETBUF => 124 | IESETTOS => 125 | IESETCOS => 126 | IESETFLOW => 127
  | IEREUSEADDR => 128 | IEPROTOCOL => 131 | IEAFFINITY => 132 | IEDAEMON => 133
  | IESETCONGESTION => 134 | IEPIDFILE => 135 | IEV6ONLY => 136 | IESETSCTPDISABLEFRAG => 137
  | IECREATESTREAM => 200 | IEINITSTREAM => 201 | IESTREAMLISTEN => 202 | IESTREAMCONNECT => 203
  | IESTREAMACCEPT => 204 | IESTREAMWRITE => 205 | IESTREAMREAD => 206 | IESTREAMID => 208
  | remote code => code

/-- The transport protocols: `Ptcp`, `Pudp` and `Psctp`. -/
inductive ProtId where
  | tcp
  | udp
  | sctp
deriving DecidableEq, Repr

/-- Address families. -/
inductive Domain where
  | unspec
  | inet
  | inet6
deriving DecidableEq, Repr

/-- `test->role`; it is 0 until one is chosen. -/
inductive Role where
  | unset
  | client
  | server
deriving DecidableEq, Repr

/-! ## States -/

/-- `test->state`, a `signed char`. -/
abbrev TestState := Int8

namespace TestState

def TEST_START : TestState := 1
def TEST_RUNNING : TestState := 2
def TEST_END : TestState := 4
def STREAM_RUNNING : TestState := 6
def PARAM_EXCHANGE : TestState := 9
def CREATE_STREAMS : TestState := 10
def SERVER_TERMINATE : TestState := 11
def CLIENT_TERMINATE : TestState := 12
def EXCHANGE_RESULTS : TestState := 13
def DISPLAY_RESULTS : TestState := 14
def IPERF_START : TestState := 15
def IPERF_DONE : TestState := 16
def ACCESS_DENIED : TestState := -1
def SERVER_ERROR : TestState := -2

end TestState

/-! ## Constants -/

def COOKIE_SIZE : Nat := 37
def PORT : Int := 5201
def UDP_RATE : UInt64 := 1024 * 1024
def OMIT : Int := 0
def DURATION : Int := 10
def SEC_TO_US : Int := 1000000
def DEFAULT_UDP_BLKSIZE : Int := 8192
def DEFAULT_TCP_BLKSIZE : Int := 128 * 1024
def DEFAULT_SCTP_BLKSIZE : Int := 64 * 1024
def MAX_TCP_BUFFER : Int := 512 * (1024 * 1024)
def MAX_BLOCKSIZE : Int := 1024 * 1024
def MIN_INTERVAL : ℚ := 1 / 10
def MAX_INTERVAL : ℚ := 60
def MAX_TIME : Int := 3600
def MAX_BURST : Int := 1000
def MAX_MSS : Int := 9 * 1024
def MAX_STREAMS : Int := 128

/-- `NET_SOFTERROR` -/
def NET_SOFTERROR : Int := -1

/-- `NET_HARDERROR` -/
def NET_HARDERROR : Int := -2

/-! ## Structures -/

/-- What the code reads of `struct tcp_info`. -/
structure TcpInfo where
  tcpiTotalRetrans : UInt32
  tcpiSndCwnd : UInt32
  tcpiSndMss : UInt32
deriving DecidableEq, Repr

/-- `struct iperf_interval_results` -/
structure IperfIntervalResults where
  bytesTransferred : UInt64
  intervalStartTime : Timeval
  intervalEndTime : Timeval
  intervalDuration : ℚ
  intervalPacketCount : Int
  intervalOutoforderPackets : Int
  intervalCntError : Int
  packetCount : Int
  jitter : ℚ
  outoforderPackets : Int
  cntError : Int
  omitted : Bool
  tcpInfo : TcpInfo
  intervalRetrans : Int
  sndCwnd : Int
deriving DecidableEq, Repr

/-- `struct iperf_stream_result` -/
structure IperfStreamResult where
  bytesReceived : UInt64
  bytesSent : UInt64
  bytesReceivedThisInterval : UInt64
  bytesSentThisInterval : UInt64
  streamPrevTotalRetrans : Int
  streamRetrans : Int
  startTime : Timeval
  endTime : Timeval
  intervalResults : List IperfIntervalResults
deriving DecidableEq, Repr

/-- `struct iperf_settings` -/
structure IperfSettings where
  domain : Domain
  socketBufsize : Int
  blksize : Int
  rate : UInt64
  burst : Int
  mss : Int
  tos : Int
  flowlabel : Int
  bytes : UInt64
  blocks : Int
  unitFormat : Char
deriving DecidableEq, Repr

/-- `struct iperf_stream`. The function pointers `snd` and `rcv` (or, with a disk file, `snd2` and
`rcv2`) are those of the protocol `prot`. -/
structure IperfStream where
  socket : Int
  id : Int
  result : IperfStreamResult
  sendTimer : Option Addr
  greenLight : Bool
  bufferFd : Int
  buffer : List UInt8
  diskfileFd : Int
  packetCount : Int
  omittedPacketCount : Int
  jitter : ℚ
  prevTransit : ℚ
  outoforderPackets : Int
  cntError : Int
  prot : ProtId
  diskfile : Bool
deriving DecidableEq, Repr

/-- A set of descriptors. -/
abbrev FdSet := Finset Int

/-- `struct iperf_test` -/
structure IperfTest where
  role : Role
  sender : Bool
  senderHasRetransmits : Int
  protocol : ProtId
  state : TestState
  serverHostname : Option String
  bindAddress : Option String
  serverPort : Int
  /-- `omit` -/
  omitTime : Int
  duration : Int
  diskfileName : Option String
  affinity : Int
  serverAffinity : Int
  title : Option String
  congestion : Option String
  pidfile : Option String
  ctrlSck : Int
  listener : Int
  protListener : Int
  daemon : Bool
  noDelay : Int
  reverse : Int
  verbose : Bool
  jsonOutput : Bool
  zerocopy : Bool
  debug : Bool
  multisend : Int
  mayUseSigalrm : Bool
  maxFd : Int
  readSet : FdSet
  writeSet : FdSet
  omitting : Bool
  statsInterval : ℚ
  reporterInterval : ℚ
  omitTimer : Option Addr
  timer : Option Addr
  done : Bool
  statsTimer : Option Addr
  reporterTimer : Option Addr
  cpuUtil : ℚ × ℚ × ℚ
  remoteCpuUtil : ℚ × ℚ × ℚ
  numStreams : Int
  bytesSent : UInt64
  blocksSent : Int
  cookie : List UInt8
  streams : List IperfStream
  settings : IperfSettings
deriving DecidableEq

/-- The timer procedures. The omit timer, the stats timer and the reporter timer have one procedure on
the client and one on the server, with the same text; `sp` is the stream of a send timer. -/
inductive TimerProc where
  | testTimer
  | statsTimer
  | reporterTimer
  | omitTimer
  | sendTimer (sp : Nat)
deriving DecidableEq, Repr

/-! ## Conversions -/

/-- The conversion of a wider integer to `int`. -/
def toInt (n : Int) : Int := n.bmod 0x100000000

/-- The conversion of a `double` to an integer. -/
def truncRat (q : ℚ) : Int := if 0 ≤ q then ⌊q⌋ else -⌊-q⌋

/-- `timeval_equals` -/
def timevalEquals (tv0 tv1 : Timeval) : Bool := tv0.tvSec == tv1.tvSec && tv0.tvUsec == tv1.tvUsec

/-- `timeval_diff` -/
def timevalDiff (tv0 tv1 : Timeval) : ℚ :=
  let time1 : ℚ := tv0.tvSec + tv0.tvUsec / 1000000
  let time2 : ℚ := tv1.tvSec + tv1.tvUsec / 1000000
  if time1 - time2 < 0 then -(time1 - time2) else time1 - time2

/-- The bytes of `htonl`. -/
def htonl (n : Nat) : List UInt8 :=
  [UInt8.ofNat (n / 0x1000000), UInt8.ofNat (n / 0x10000), UInt8.ofNat (n / 0x100), UInt8.ofNat n]

/-- `ntohl` -/
def ntohl (bs : List UInt8) : Nat := bs.foldl (fun n b => n * 256 + b.toNat) 0

/-- What a buffer that held `old` holds after `new` was read into it. -/
def overlay (old new : List UInt8) : List UInt8 := new ++ old.drop new.length

/-- The C string at the front of a buffer. -/
def cstr (bs : List UInt8) : List UInt8 := bs.takeWhile (· ≠ 0)

/-- `strcmp` on two buffers of the same length, as far as it is only asked whether the strings are
equal. `none` is the case in which neither buffer has a terminator and the comparison runs past their
ends. -/
def strcmpEq (a b : List UInt8) : Option Bool :=
  if 0 ∈ a ∨ 0 ∈ b then some (cstr a = cstr b) else if a = b then none else some false

end Iperf
