import WifiTestTool.Iperf.Types

/-!
# The system under iperf, and the input and output functions (`net.c`, `iperf_util.c`)

iperf is a program (`Reactive.Prog`) whose memory is the test, the timer package and the two error
numbers, and whose requests are the system calls and library calls that it makes. What the calls
answer is left open here. `Nread`, `Nwrite`, `JSON_read` and `JSON_write` are written over the single
`read` and `write`, so that short counts and interruptions are visible.
-/

namespace Iperf

open Dll (Addr)
open Reactive

/-! ## JSON documents -/

/-- A cJSON item: its type with `valueint`, `valuefloat` or `valuestring`, or its children. -/
inductive Json where
  | null
  | bool (b : Bool)
  | num (valueint : Int) (valuefloat : ℚ)
  | str (valuestring : String)
  | arr (items : List Json)
  | obj (items : List (String × Json))

namespace Json

/-- `item->valueint`; the parser sets it to 1 for `true`, and it is 0 in any other item that is no
number. -/
def valueint : Json → Int
  | num v _ => v
  | bool Bool.true => 1
  | _ => 0

/-- `item->valuefloat` -/
def valuefloat : Json → ℚ
  | num _ v => v
  | _ => 0

/-- `item->valuestring`; it is `NULL` in an item that is no string. -/
def valuestring : Json → Option String
  | str s => some s
  | _ => none

/-- `cJSON_CreateInt` -/
def int (n : Int) : Json := num n n

/-- `cJSON_CreateFloat` -/
def float (q : ℚ) : Json := num (truncRat q) q

/-- `cJSON_CreateTrue` -/
def true : Json := bool Bool.true

end Json

/-- `cJSON_strcasecmp`, as far as it is only asked whether the names are equal. -/
def strcasecmpEq (a b : String) : Bool := a.toList.map Char.toLower == b.toList.map Char.toLower

/-- `cJSON_GetObjectItem`: the first item with this name. The items of an array have no name. -/
def cJSON_GetObjectItem : Json → String → Option Json
  | .obj items, name => (items.find? fun kv => strcasecmpEq kv.1 name).map Prod.snd
  | _, _ => none

/-- `cJSON_GetArraySize` and `cJSON_GetArrayItem`: the children of an item. -/
def cJSON_children : Json → List Json
  | .arr items => items
  | .obj items => items.map Prod.snd
  | _ => []

/-! ## Output -/

/-- The formats of `locale.c` and the literal formats of the calls of `iprintf`. -/
inductive Format where
  | serverSeparator | serverListening | version | empty | newline | reportTime | reportConnecting
  | reportReverse | reportAccepted | reportCookie | tcpMss | tcpMssDefault | testStartBytes
  | testStartBlocks | testStartTime | reportConnected | reportOmitDone | reportDone
  | reportBwRetransCwndHeader | reportBwHeader | reportBwUdpSenderHeader | reportBwUdpHeader
  | reportBwSeparator | reportBwRetransCwndFormat | reportBwFormat | reportBwUdpSenderFormat
  | reportBwUdpFormat | reportSumBwRetransFormat | reportSumBwFormat | reportSumBwUdpSenderFormat
  | reportSumBwUdpFormat | reportSummary | reportBwRetransHeader | reportBwRetransFormat
  | reportDatagrams | reportSumOutoforder | reportDiskfile | reportCpu
deriving DecidableEq, Repr

/-- An argument of a call of `iprintf` or `iperf_json_printf`. -/
inductive Arg where
  | int (n : Int)
  | size (n : UInt64)
  | float (q : ℚ)
  | text (s : String)
  | bool (b : Bool)
  /-- A quantity that `unit_snprintf` has rendered in the given unit format. -/
  | unit (q : ℚ) (format : Char)
deriving DecidableEq, Repr

/-- The places of the JSON report that items are added to. -/
inductive JsonNode where
  | top
  | start
  | intervals
  | interval
  | intervalStreams
  | finish
  | summaryStreams
  | summaryStream
deriving DecidableEq, Repr

/-- What the program prints. -/
inductive Output where
  /-- `iprintf`, and the two `printf` calls with the system information. -/
  | iprintf (fmt : Format) (args : List Arg)
  /-- An item that is added to the JSON report under construction. -/
  | json (parent : JsonNode) (name : String) (fields : List (String × Arg))
  /-- `iperf_err` and `warning` -/
  | err (message : String)
  /-- The whole JSON report is printed. -/
  | jsonFinish
deriving DecidableEq, Repr

/-! ## Requests -/

/-- The socket options that iperf sets. -/
inductive SockOpt where
  | nodelay
  | maxseg
  | rcvbuf
  | sndbuf
  | congestion
  | reuseaddr
  | v6only
  | flowlabelMgr
  | flowinfoSend
  | tclass
  | tos
  | sctpDisableFragments
deriving DecidableEq, Repr

/-- The library and system calls that iperf makes. -/
inductive Req where
  | accept (fd : Int)
  | read (fd : Int) (n : Nat)
  | write (fd : Int) (bs : List UInt8)
  | sendfile (toFd fromFd : Int) (offset n : Nat)
  | close (fd : Int)
  | select (nfds : Int) (readSet writeSet : FdSet) (timeout : Option Timeval)
  | gettimeofday
  | getaddrinfo (host : Option String) (port : Option Int) (family : Domain)
  | socket (family : Domain) (prot : ProtId)
  | setsockopt (fd : Int) (opt : SockOpt) (value : Int)
  | bind (fd : Int)
  | listen (fd : Int)
  | connect (fd : Int)
  | recvfrom (fd : Int)
  | getsockname (fd : Int)
  | getpeername (fd : Int)
  | getsockdomain (fd : Int)
  | getsockopt (fd : Int) (opt : SockOpt)
  /-- `getsockopt` for `TCP_INFO` -/
  | tcpInfo (fd : Int)
  /-- `malloc`; the answer is the indeterminate contents of the memory. -/
  | malloc (n : Nat)
  /-- `malloc` of a timer structure -/
  | mallocTimer
  /-- `malloc` of another structure: is there memory for it? -/
  | mallocStruct
  /-- The indeterminate contents of a local array. -/
  | stack (n : Nat)
  /-- The indeterminate contents of a local `struct iperf_interval_results`. -/
  | stackInterval
  /-- What a comparison finds beyond the end of a buffer: are the strings equal? -/
  | beyond
  | mkstemp
  | unlink
  | ftruncate (fd : Int) (n : Int)
  | mmap (fd : Int) (n : Int)
  | munmap (n : Int)
  | openFile (name : String) (forWriting : Bool)
  | fstat (fd : Int)
  | random (n : Nat)
  | cpuUtil
  /-- `iperf_catch_sigend` -/
  | catchSigend
  | setitimer (on : Bool)
  /-- Has the signal handler set `sigalrm_triggered`? -/
  | sigalrm
  | setaffinity (cpu : Int)
  | clearaffinity
  /-- `make_cookie` -/
  | makeCookie
  /-- The creation of a cJSON item: is there memory for it? -/
  | cJSON_Create
  | cJSON_Print (doc : Json)
  | cJSON_Parse (text : List UInt8)
  | output (o : Output)

/-- The answers. -/
abbrev Req.Ans : Req → Type
  | .accept _ => Except Errno Int
  | .read _ _ => Except Errno (List UInt8)
  | .write _ _ => Except Errno Nat
  | .sendfile _ _ _ _ => Except Errno Nat
  | .close _ => Unit
  | .select _ _ _ _ => Except Errno (Nat × FdSet × FdSet)
  | .gettimeofday => Except Errno Timeval
  | .getaddrinfo _ _ _ => Option Domain
  | .socket _ _ => Except Errno Int
  | .setsockopt _ _ _ => Except Errno Unit
  | .bind _ => Except Errno Unit
  | .listen _ => Except Errno Unit
  | .connect _ => Except Errno Unit
  | .recvfrom _ => Except Errno Unit
  | .getsockname _ => Except Errno Unit
  | .getpeername _ => Except Errno Unit
  | .getsockdomain _ => Domain
  | .getsockopt _ _ => Int
  | .tcpInfo _ => Except Errno TcpInfo
  | .malloc _ => Option (List UInt8)
  | .mallocTimer => Option Addr
  | .mallocStruct => Bool
  | .stack _ => List UInt8
  | .stackInterval => IperfIntervalResults
  | .beyond => Bool
  | .mkstemp => Except Errno Int
  | .unlink => Except Errno Unit
  | .ftruncate _ _ => Except Errno Unit
  | .mmap _ _ => Except Errno Unit
  | .munmap _ => Unit
  | .openFile _ _ => Except Errno Int
  | .fstat _ => Option Int
  | .random _ => List UInt8
  | .cpuUtil => ℚ × ℚ × ℚ
  | .catchSigend => Unit
  | .setitimer _ => Unit
  | .sigalrm => Bool
  | .setaffinity _ => Except Errno Unit
  | .clearaffinity => Except Errno Unit
  | .makeCookie => List UInt8
  | .cJSON_Create => Bool
  | .cJSON_Print _ => Option (List UInt8)
  | .cJSON_Parse _ => Option Json
  | .output _ => Unit

/-- The answers of an environment in which nothing fails and nothing happens. Runs on fixed inputs are
given by their differences from it. -/
def Req.quiet : (r : Req) → r.Ans
  | .accept _ => .ok 4
  | .read _ n => .ok (List.replicate n 0)
  | .write _ bs => .ok bs.length
  | .sendfile _ _ _ n => .ok n
  | .close _ => ()
  | .select _ rs ws _ => .ok (1, rs, ws)
  | .gettimeofday => .ok ⟨0, 0⟩
  | .getaddrinfo _ _ family => some family
  | .socket _ _ => .ok 3
  | .setsockopt _ _ _ => .ok ()
  | .bind _ => .ok ()
  | .listen _ => .ok ()
  | .connect _ => .ok ()
  | .recvfrom _ => .ok ()
  | .getsockname _ => .ok ()
  | .getpeername _ => .ok ()
  | .getsockdomain _ => .inet
  | .getsockopt _ _ => 0
  | .tcpInfo _ => .ok ⟨0, 0, 0⟩
  | .malloc n => some (List.replicate n 0)
  | .mallocTimer => none
  | .mallocStruct => true
  | .stack n => List.replicate n 0
  | .stackInterval => ⟨0, ⟨0, 0⟩, ⟨0, 0⟩, 0, 0, 0, 0, 0, 0, 0, 0, false, ⟨0, 0, 0⟩, 0, 0⟩
  | .beyond => false
  | .mkstemp => .ok 5
  | .unlink => .ok ()
  | .ftruncate _ _ => .ok ()
  | .mmap _ _ => .ok ()
  | .munmap _ => ()
  | .openFile _ _ => .ok 6
  | .fstat _ => none
  | .random n => List.replicate n 0
  | .cpuUtil => (0, 0, 0)
  | .catchSigend => ()
  | .setitimer _ => ()
  | .sigalrm => false
  | .setaffinity _ => .ok ()
  | .clearaffinity => .ok ()
  | .makeCookie => List.replicate 37 0
  | .cJSON_Create => true
  | .cJSON_Print _ => some []
  | .cJSON_Parse _ => none
  | .output _ => ()

/-- The ways in which iperf stops without returning. -/
inductive Halt where
  /-- The first element of an empty stream list is used. -/
  | emptyStreams
  /-- Some other null pointer is used. -/
  | nullPointer
  /-- The timer package uses a pointer that points to no timer. -/
  | wildTimer
  /-- `exit` -/
  | exit
  /-- The bound on the number of passes through a loop is used up. -/
  | spin
deriving DecidableEq, Repr

/-- The memory. -/
structure Mem where
  test : IperfTest
  timers : TimerState TimerProc
  iErrno : IErr
  errno : Errno

/-- The memory of a process that has the test `t` and has done nothing yet. -/
def Mem.start (t : IperfTest) : Mem := ⟨t, TimerState.init, .IENONE, .other 0⟩

/-- Programs of iperf. -/
abbrev IperfProg : Type → Type := Prog Mem Req.Ans Halt

/-- Make a system call. -/
abbrev sys (r : Req) : IperfProg r.Ans := Prog.ask r

/-! ## Access to the memory -/

/-- The test. -/
def getTest : IperfProg IperfTest := do
  let m ← Prog.get
  pure m.test

/-- Change the test. -/
def modifyTest (f : IperfTest → IperfTest) : IperfProg Unit :=
  Prog.modify fun m => { m with test := f m.test }

/-- Set `i_errno`. -/
def setIErrno (e : IErr) : IperfProg Unit := Prog.modify fun m => { m with iErrno := e }

/-- Set `errno`. -/
def setErrno (e : Errno) : IperfProg Unit := Prog.modify fun m => { m with errno := e }

/-- Set `i_errno` and return `-1`. -/
def fail (e : IErr) : IperfProg Int := do
  setIErrno e
  pure (-1)

/-- The result of a call as C sees it: `-1` with `errno` set, or what `f` makes of the answer. -/
def result {α : Type} (a : Except Errno α) (f : α → Int) : IperfProg Int :=
  match a with
  | .error e => do
    setErrno e
    pure (-1)
  | .ok v => pure (f v)

/-- The stream at `sp`. -/
def getStream (sp : Nat) : IperfProg IperfStream := do
  let t ← getTest
  match t.streams[sp]? with
  | none => Prog.stop Halt.nullPointer
  | some st => pure st

/-- Change the stream at `sp`. -/
def modifyStream (sp : Nat) (f : IperfStream → IperfStream) : IperfProg Unit :=
  modifyTest fun t => { t with streams := t.streams.modify sp f }

/-- A loop over streams that runs until the body returns a value. -/
def forStreams {α : Type} (body : Nat → IperfProg (Option α)) : List Nat → IperfProg (Option α)
  | [] => pure none
  | sp :: sps => do
    let r ← body sp
    match r with
    | some a => pure (some a)
    | none => forStreams body sps

/-- A loop over streams. -/
def forAllStreams (body : Nat → IperfProg Unit) : List Nat → IperfProg Unit
  | [] => pure ()
  | sp :: sps => do
    body sp
    forAllStreams body sps

/-- The streams of the test. -/
def allStreams : IperfProg (List Nat) := do
  let t ← getTest
  pure (List.range t.streams.length)

/-- `iprintf` -/
def iprintf (fmt : Format) (args : List Arg) : IperfProg Unit := sys (.output (.iprintf fmt args))

/-- `iperf_err` -/
def iperfErr (message : String) : IperfProg Unit := sys (.output (.err message))

/-- `iperf_errexit` -/
def iperfErrexit {α : Type} (message : String) : IperfProg α := do
  iperfErr message
  Prog.stop Halt.exit

/-- `gettimeofday` where its return value is ignored. -/
def gettimeofday : IperfProg Timeval := do
  let a ← sys .gettimeofday
  match a with
  | .ok now => pure now
  | .error e => do
    setErrno e
    pure ⟨0, 0⟩

/-! ## `net.c` -/

/-- The loop of `Nread`; `got` is what has been read. `none` is `NET_HARDERROR`. -/
def nreadLoop (fd : Int) (count : Nat) : Nat → List UInt8 → IperfProg (Option (List UInt8))
  | 0, _ => Prog.stop Halt.spin
  | fuel + 1, got =>
    if count ≤ got.length then
      pure (some got)
    else do
      let a ← sys (.read fd (count - got.length))
      match a with
      | .error .eintr => nreadLoop fd count fuel got
      | .error e => do
        setErrno e
        pure none
      | .ok [] => pure (some got)
      | .ok bs => nreadLoop fd count fuel (got ++ bs)

/-- `Nread`: the bytes that were read, or `none` where the source returns `NET_HARDERROR`. -/
def nread (fuel : Nat) (fd : Int) (count : Nat) : IperfProg (Option (List UInt8)) :=
  nreadLoop fd count fuel []

/-- The loop of `Nwrite`; `left` is what has yet to be written. -/
def nwriteLoop (fd : Int) (count : Nat) : Nat → List UInt8 → IperfProg Int
  | 0, _ => Prog.stop Halt.spin
  | fuel + 1, left =>
    if left = [] then
      pure count
    else do
      let a ← sys (.write fd left)
      match a with
      | .error .eintr => pure (count - left.length)
      | .error e => do
        setErrno e
        pure (if e = .eagain ∨ e = .enobufs then NET_SOFTERROR else NET_HARDERROR)
      | .ok 0 => pure NET_SOFTERROR
      | .ok n => nwriteLoop fd count fuel (left.drop n)

/-- `Nwrite` -/
def nwrite (fuel : Nat) (fd : Int) (buf : List UInt8) : IperfProg Int :=
  nwriteLoop fd buf.length fuel buf

/-- The loop of `Nsendfile`. -/
def nsendfileLoop (fromFd toFd : Int) (count : Nat) : Nat → Nat → IperfProg Int
  | 0, _ => Prog.stop Halt.spin
  | fuel + 1, nleft =>
    if nleft = 0 then
      pure count
    else do
      let a ← sys (.sendfile toFd fromFd (count - nleft) nleft)
      match a with
      | .error .eintr => pure (count - nleft)
      | .error e => do
        setErrno e
        pure (if e = .eagain ∨ e = .enobufs ∨ e = .enomem then NET_SOFTERROR else NET_HARDERROR)
      | .ok 0 => pure NET_SOFTERROR
      | .ok n => nsendfileLoop fromFd toFd count fuel (nleft - n)

/-- `Nsendfile` -/
def nsendfile (fuel : Nat) (fromFd toFd : Int) (count : Nat) : IperfProg Int :=
  nsendfileLoop fromFd toFd count fuel count

/-- A call on the socket `s` whose failure makes the caller close `s` and return `-1`; otherwise `k`
goes on. -/
def orClose (s : Int) (r : IperfProg Int) (k : IperfProg Int) : IperfProg Int := do
  let v ← r
  if v < 0 then do
    sys (.close s)
    pure (-1)
  else
    k

/-- `setsockopt` -/
def setsockopt (fd : Int) (opt : SockOpt) (value : Int) : IperfProg Int := do
  let a ← sys (.setsockopt fd opt value)
  result a fun _ => 0

/-- `bind` -/
def sockBind (fd : Int) : IperfProg Int := do
  let a ← sys (.bind fd)
  result a fun _ => 0

/-- `listen` -/
def sockListen (fd : Int) : IperfProg Int := do
  let a ← sys (.listen fd)
  result a fun _ => 0

/-- The test `connect(..) < 0 && errno != EINPROGRESS`. -/
def sockConnect (fd : Int) : IperfProg Int := do
  let a ← sys (.connect fd)
  match a with
  | .error .einprogress => pure 0
  | a => result a fun _ => 0

/-- `socket` -/
def sockSocket (family : Domain) (prot : ProtId) : IperfProg Int := do
  let a ← sys (.socket family prot)
  result a fun fd => fd

/-- `accept` -/
def sockAccept (fd : Int) : IperfProg Int := do
  let a ← sys (.accept fd)
  result a fun s => s

/-- The family that a listener asks for. -/
def passiveFamily (domain : Domain) : Domain := if domain = .unspec then .inet6 else domain

/-- The option `IPV6_V6ONLY` of a listener in the domain `domain`. -/
def v6only (s : Int) (domain : Domain) : IperfProg Int :=
  if domain = .unspec then setsockopt s .v6only 0
  else if domain = .inet6 then setsockopt s .v6only 1
  else pure 0

/-- `netannounce` -/
def netannounce (domain : Domain) (prot : ProtId) (loc : Option String) (port : Int) :
    IperfProg Int := do
  let res ← sys (.getaddrinfo loc (some port) (passiveFamily domain))
  match res with
  | none => pure (-1)
  | some family => do
    let s ← sockSocket family prot
    if s < 0 then
      pure (-1)
    else
      orClose s (setsockopt s .reuseaddr 1) <|
      orClose s (v6only s domain) <|
      orClose s (sockBind s) <|
      if prot = .tcp then orClose s (sockListen s) (pure s) else pure s

/-- The local address of `netdial` and of the two `connect` functions, if one was given: `false` when
it cannot be found. -/
def lookupLocal (domain : Domain) (loc : Option String) : IperfProg Bool :=
  match loc with
  | none => pure true
  | some host => do
    let res ← sys (.getaddrinfo (some host) none domain)
    pure res.isSome

/-- `bind` to the local address, if one was given. -/
def bindLocal (s : Int) (loc : Option String) : IperfProg Int :=
  if loc.isSome then sockBind s else pure 0

/-- `netdial` -/
def netdial (domain : Domain) (prot : ProtId) (loc server : Option String) (_port : Int) :
    IperfProg Int := do
  if !(← lookupLocal domain loc) then
    pure (-1)
  else do
    let res ← sys (.getaddrinfo server none domain)
    match res with
    | none => pure (-1)
    | some family => do
      let s ← sockSocket family prot
      if s < 0 then
        pure (-1)
      else
        orClose s (bindLocal s loc) <|
        orClose s (sockConnect s) <|
        pure s

/-! ## `iperf_util.c` -/

/-- `is_closed` -/
def isClosed (fd : Int) : IperfProg Bool := do
  let a ← sys (.select (fd + 1) {fd} ∅ (some ⟨0, 0⟩))
  match a with
  | .error e => do
    setErrno e
    pure (e = .ebadf)
  | .ok _ => pure false

/-! ## JSON messages -/

/-- `JSON_write` -/
def jsonWrite (fuel : Nat) (fd : Int) (json : Json) : IperfProg Int := do
  let str ← sys (.cJSON_Print json)
  match str with
  | none => pure (-1)
  | some str => do
    let r ← nwrite fuel fd (htonl str.length)
    if r < 0 then
      pure (-1)
    else do
      -- The length is a `uint32_t`.
      let r ← nwrite fuel fd (str.take (str.length % 0x100000000))
      pure (if r < 0 then -1 else 0)

/-- `JSON_read` -/
def jsonRead (fuel : Nat) (fd : Int) : IperfProg (Option Json) := do
  let nsize ← sys (.stack 4)
  let got ← nread fuel fd 4
  match got with
  | none => pure none
  | some got => do
    let hsize := ntohl (overlay nsize got)
    let str ← sys (.malloc ((hsize + 1) % 0x100000000))
    match str with
    | none => pure none
    | some str => do
      let got ← nread fuel fd hsize
      match got with
      | none => pure none
      | some got => sys (.cJSON_Parse ((overlay str got).take hsize))

end Iperf
