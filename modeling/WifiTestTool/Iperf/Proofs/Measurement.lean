import WifiTestTool.Iperf.Control
import WifiTestTool.Iperf.Proofs.TimerProofs
import WifiTestTool.Lib.Frame

/-!
# What the measurement does to an assertion

Sending and receiving data, the statistics, the reports and the timers change the counters of a test and its
timers. The lights of the streams and the write set they change in one place only, in
`iperf_check_throttle`, which they call only if there is a rate or a burst, or if a send timer is due. An
assertion that is indifferent to these changes (`Indifferent`) is kept by every function of the
measurement (`Steady`). The functions that leave also the timers and their handles alone keep an assertion
that is only indifferent to the counters (`CountIndifferent`).
-/

namespace Iperf

open Dll (Addr)
open Reactive

/-- What the measurement leaves alone of a stream: its descriptors, its id and its routines. -/
structure StreamCore where
  socket : Int
  id : Int
  bufferFd : Int
  diskfileFd : Int
  prot : ProtId
  diskfile : Bool

def IperfStream.core (st : IperfStream) : StreamCore where
  socket := st.socket
  id := st.id
  bufferFd := st.bufferFd
  diskfileFd := st.diskfileFd
  prot := st.prot
  diskfile := st.diskfile

/-- What the measurement leaves alone of a test: everything but the counters, the descriptor sets and
the timers, and the cores of the streams. -/
def IperfTest.core (t : IperfTest) : IperfTest × List StreamCore :=
  ({ t with
      senderHasRetransmits := 0
      multisend := 0
      maxFd := 0
      readSet := ∅
      writeSet := ∅
      omitting := false
      omitTimer := none
      timer := none
      done := false
      statsTimer := none
      reporterTimer := none
      cpuUtil := (0, 0, 0)
      remoteCpuUtil := (0, 0, 0)
      bytesSent := 0
      blocksSent := 0
      streams := [] },
    t.streams.map IperfStream.core)

/-- Does the output announce a stream? -/
def Output.announces : Output → Prop
  | .iprintf .reportConnected _ => True
  | .json .start "connected" _ => True
  | _ => False

/-- The requests of the measurement; `cores` are the cores of the streams. -/
def Req.harmless (cores : List StreamCore) : Req → Prop
  | .read fd _ | .write fd _ => ∃ st ∈ cores, fd = st.socket ∨ fd = st.diskfileFd
  | .sendfile toFd fromFd _ _ => ∃ st ∈ cores, toFd = st.socket ∧ fromFd = st.bufferFd
  | .output o => ¬ o.announces
  | .gettimeofday | .tcpInfo _ | .fstat _ | .getpeername _ | .getsockdomain _ | .getsockopt _ _
  | .stackInterval | .mallocTimer | .cJSON_Create | .cpuUtil | .setitimer _ | .sigalrm
  | .setaffinity _ | .clearaffinity => True
  | _ => False

/-- There is no stream where a sum or a summary would need one. -/
def lacksStream (c : IperfTest × List StreamCore) : Prop :=
  c.2 = [] ∧ (c.1.numStreams > 1 ∨ c.1.state = TestState.DISPLAY_RESULTS)

/-- More descriptors make more requests harmless. -/
theorem Req.harmless_mono {cores cores' : List StreamCore} {r : Req} (h : r.harmless cores)
    (hs : ∀ st ∈ cores, st ∈ cores') : r.harmless cores' := by
  cases r
  case read | write | sendfile =>
    obtain ⟨st, hst, hfd⟩ := h
    exact ⟨st, hs st hst, hfd⟩
  all_goals exact h

/-! ## Indifferent assertions -/

/-- What the measurement leaves alone of a stream unless it checks the throttle. -/
def IperfStream.still (st : IperfStream) : StreamCore × Bool := (st.core, st.greenLight)

/-- What the measurement leaves alone of a test unless it checks the throttle: the core, the write set and
the lights. -/
def IperfTest.still (t : IperfTest) : (IperfTest × List StreamCore) × FdSet × List Bool :=
  (t.core, t.writeSet, t.streams.map IperfStream.greenLight)

/-- The handles of the timers of a test and of its streams -/
structure TimerHandles where
  omitTimer : Option Addr
  timer : Option Addr
  statsTimer : Option Addr
  reporterTimer : Option Addr
  sendTimers : List (Option Addr)

def IperfTest.handles (t : IperfTest) : TimerHandles where
  omitTimer := t.omitTimer
  timer := t.timer
  statsTimer := t.statsTimer
  reporterTimer := t.reporterTimer
  sendTimers := t.streams.map IperfStream.sendTimer

/-- What the data, the statistics and the reports leave alone of a test unless they check the throttle: also the
handles of the timers, the read set and `max_fd`. -/
def IperfTest.settled (t : IperfTest) :
    ((IperfTest × List StreamCore) × FdSet × List Bool) × TimerHandles × FdSet × Int :=
  (t.still, t.handles, t.readSet, t.maxFd)

/-- The timer procedures that do not check the throttle. -/
def TimerProc.keepsLights (p : TimerProc) : Prop := ∀ sp, p ≠ .sendTimer sp

/-- Does anything ask for the throttle to be checked? -/
def Mem.throttled (m : Mem) : Prop :=
  m.test.settings.rate ≠ 0 ∨ m.test.settings.burst ≠ 0 ∨ ¬ m.timers.Procs TimerProc.keepsLights

/-- The timers `s'` have no procedures that do not keep the lights, but those of `s`. -/
def Arises (s s' : TimerState TimerProc) : Prop :=
  ∀ P : TimerProc → Prop, (∀ p, p.keepsLights → P p) → s.Procs P → s'.Procs P

/-- The program keeps `I`, makes requests in `N` only and stops for good only in a way in `H`. -/
def Steady {α : Type} (I : Mem → Prop) (N : Req → Prop) (H : Halt → Prop) (p : IperfProg α) : Prop :=
  p.Stays I N H

/-- The assertion `I` is indifferent to the data, the statistics and the reports, and the bounds `N` and `H` leave
room for them. -/
structure CountIndifferent (I : Mem → Prop) (N : Req → Prop) (H : Halt → Prop) : Prop where
  req : ∀ r, Req.harmless [] r → N r
  onFds : ∀ m r, I m → Req.harmless m.test.core.2 r → N r
  stop : ∀ h, h ≠ .emptyStreams → H h
  empty : ∀ m, I m → lacksStream m.test.core → H .emptyStreams
  state : ∀ m m', I m → I m' → H .emptyStreams ∨ m.test.state = m'.test.state
  change : ∀ m m', I m → m'.test.settled = m.test.settled → m'.timers = m.timers → I m'
  throttle : ∀ m sp now, I m → m.throttled → Steady I N H (iperfCheckThrottle sp now)

/-- The assertion `I` is indifferent to the measurement, and the bounds `N` and `H` leave room for it. -/
structure Indifferent (I : Mem → Prop) (N : Req → Prop) (H : Halt → Prop) : Prop extends
    CountIndifferent I N H where
  handles : ∀ m m', I m → m'.test.still = m.test.still → m'.timers = m.timers → I m'
  timers : ∀ m m' s, I m → I m' → Arises m.timers s → I { m' with timers := s }

instance {I : Mem → Prop} {N : Req → Prop} {H : Halt → Prop} : Coe (Indifferent I N H) (CountIndifferent I N H) where
  coe := Indifferent.toCountIndifferent

theorem map_modify {γ : Type} {g : IperfStream → γ} {f : IperfStream → IperfStream} (hf : ∀ st, g (f st) = g st)
    (sts : List IperfStream) (sp : Nat) : (sts.modify sp f).map g = sts.map g := by
  refine List.ext_getElem? fun i => ?_
  simp only [List.getElem?_map, List.getElem?_modify]
  cases sts[i]? with
  | none => simp
  | some st => by_cases h : sp = i <;> simp [h, hf]

theorem core_modifyStream (t : IperfTest) (sp : Nat) {f : IperfStream → IperfStream}
    (hf : ∀ st, (f st).core = st.core) :
    ({ t with streams := t.streams.modify sp f } : IperfTest).core = t.core :=
  Prod.ext rfl (map_modify hf t.streams sp)

theorem still_modifyStream (t : IperfTest) (sp : Nat) {f : IperfStream → IperfStream}
    (hf : ∀ st, (f st).still = st.still) :
    ({ t with streams := t.streams.modify sp f } : IperfTest).still = t.still :=
  Prod.ext (core_modifyStream t sp fun st => congrArg Prod.fst (hf st))
    (Prod.ext rfl (map_modify (fun st => congrArg Prod.snd (hf st)) t.streams sp))

theorem handles_modifyStream (t : IperfTest) (sp : Nat) {f : IperfStream → IperfStream}
    (hf : ∀ st, (f st).sendTimer = st.sendTimer) :
    ({ t with streams := t.streams.modify sp f } : IperfTest).handles = t.handles := by
  unfold IperfTest.handles
  rw [map_modify hf]

theorem settled_modifyStream (t : IperfTest) (sp : Nat) {f : IperfStream → IperfStream}
    (hf : ∀ st, (f st).still = st.still ∧ (f st).sendTimer = st.sendTimer) :
    ({ t with streams := t.streams.modify sp f } : IperfTest).settled = t.settled :=
  Prod.ext (still_modifyStream t sp fun st => (hf st).1)
    (Prod.ext (handles_modifyStream t sp fun st => (hf st).2) rfl)

namespace Steady

variable {α β : Type} {I : Mem → Prop} {N : Req → Prop} {H : Halt → Prop}

/-! ### Rules -/

theorem pure (a : α) : Steady I N H (Pure.pure a : IperfProg α) := Prog.stays_pure a

theorem bind {p : IperfProg α} {f : α → IperfProg β} (hp : Steady I N H p)
    (hf : ∀ a, Steady I N H (f a)) : Steady I N H (p >>= f) := Prog.Stays.bind hp hf

theorem ite {b : Prop} [Decidable b] {p q : IperfProg α} (hp : b → Steady I N H p)
    (hq : ¬ b → Steady I N H q) : Steady I N H (if b then p else q) := Prog.Stays.ite hp hq

theorem sys {r : Req} (h : N r) : Steady I N H (sys r) := (Prog.stays_ask r).2 h

theorem stop {h : Halt} (hh : H h) : Steady I N H (Prog.stop h : IperfProg α) := hh

theorem getMem_bind {f : Mem → IperfProg β} (hf : ∀ m, I m → Steady I N H (f m)) :
    Steady I N H (Prog.get >>= f) := hf

theorem getTest_bind {f : IperfTest → IperfProg β}
    (hf : ∀ t, (∃ m, I m ∧ m.test = t) → Steady I N H (f t)) : Steady I N H (getTest >>= f) :=
  fun m hm => hf m.test ⟨m, hm, rfl⟩

theorem getStream_bind (hstop : H .nullPointer) {sp : Nat} {f : IperfStream → IperfProg β}
    (hf : ∀ st, (∃ m : Mem, I m ∧ m.test.streams[sp]? = some st) → Steady I N H (f st)) :
    Steady I N H (getStream sp >>= f) := by
  unfold getStream
  rw [Prog.bind_assoc]
  refine .getTest_bind ?_
  rintro t ⟨m, hm, rfl⟩
  split
  · exact hstop
  · rename_i st h
    exact hf st ⟨m, hm, h⟩

theorem allStreams : Steady I N H allStreams := .getTest_bind fun _ _ => .pure _

theorem forStreams {body : Nat → IperfProg (Option α)} (hb : ∀ sp, Steady I N H (body sp))
    (sps : List Nat) : Steady I N H (forStreams body sps) := by
  induction sps with
  | nil => exact .pure _
  | cons sp sps ih =>
    refine .bind (hb sp) fun r => ?_
    cases r with
    | some a => exact .pure _
    | none => exact ih

theorem forAllStreams {body : Nat → IperfProg Unit} (hb : ∀ sp, Steady I N H (body sp))
    (sps : List Nat) : Steady I N H (forAllStreams body sps) := by
  induction sps with
  | nil => exact .pure _
  | cons sp sps ih => exact .bind (hb sp) fun _ => ih

/-- A statement that is executed only if `b` holds. -/
theorem guard {b : Prop} [Decidable b] {p : IperfProg Unit} {k : Unit → IperfProg β}
    (hp : b → Steady I N H p) (hk : Steady I N H (k ())) :
    Steady I N H (if b then p >>= k else k ()) := .ite (fun h => .bind (hp h) fun _ => hk) fun _ => hk

/-- A change of the handles -/
theorem modifyHandles (hh : Indifferent I N H) {f : IperfTest → IperfTest} (hf : ∀ t, (f t).still = t.still) :
    Steady I N H (Iperf.modifyTest f) :=
  (Prog.stays_modify _).2 fun m hm => hh.handles m _ hm (hf m.test) rfl

section Indifferent

variable (hh : CountIndifferent I N H)

include hh

/-- A change of the memory that leaves the timers alone. -/
theorem modify {f : Mem → Mem} (hf : ∀ m, (f m).test.settled = m.test.settled ∧ (f m).timers = m.timers) :
    Steady I N H (Prog.modify f) :=
  (Prog.stays_modify _).2 fun m hm => hh.change m (f m) hm (hf m).1 (hf m).2

theorem modifyTest {f : IperfTest → IperfTest} (hf : ∀ t, (f t).settled = t.settled) :
    Steady I N H (modifyTest f) := modify hh fun m => ⟨hf m.test, rfl⟩

theorem setErrno (e : Errno) : Steady I N H (setErrno e) := modify hh fun _ => ⟨rfl, rfl⟩

theorem setIErrno (e : IErr) : Steady I N H (setIErrno e) := modify hh fun _ => ⟨rfl, rfl⟩

theorem fail (e : IErr) : Steady I N H (fail e) := .bind (.setIErrno hh e) fun _ => .pure _

theorem result (a : Except Errno α) (f : α → Int) : Steady I N H (result a f) := by
  cases a with
  | error e => exact .bind (.setErrno hh e) fun _ => .pure _
  | ok v => exact .pure _

/-- A change of a stream that keeps its descriptors, its light and its timer. -/
theorem modifyStream {sp : Nat} {f : IperfStream → IperfStream}
    (hf : ∀ st, (f st).still = st.still ∧ (f st).sendTimer = st.sendTimer) :
    Steady I N H (modifyStream sp f) := .modifyTest hh fun t => settled_modifyStream t sp hf

/-- A routine that counts what `p` has moved. -/
theorem counted {p : IperfProg Int} (hp : Steady I N H p) {sp : Nat}
    {f : Int → IperfStream → IperfStream}
    (hf : ∀ r st, (f r st).still = st.still ∧ (f r st).sendTimer = st.sendTimer) :
    Steady I N H (do
      let r ← p
      if r < 0 then Pure.pure r else do
        Iperf.modifyStream sp (f r)
        Pure.pure r) :=
  .bind hp fun r => .ite (fun _ => .pure _) fun _ => .bind (.modifyStream hh (hf r)) fun _ => .pure _

end Indifferent

end Steady

theorem result_still (st : IperfStream) (r : IperfStreamResult) :
    ({ st with result := r } : IperfStream).still = st.still ∧
      ({ st with result := r } : IperfStream).sendTimer = st.sendTimer := ⟨rfl, rfl⟩

theorem countPacket_still (pcount : Nat) (st : IperfStream) :
    (countPacket pcount st).1.still = st.still ∧ (countPacket pcount st).1.sendTimer = st.sendTimer := by
  by_cases h₁ : (pcount : Int) ≥ (st.packetCount + 1) % 0x100000000
  · by_cases h₂ : (pcount : Int) > (st.packetCount + 1) % 0x100000000 <;>
      simp only [countPacket, h₁, h₂, if_true, if_false, IperfStream.still, IperfStream.core, and_self]
  · simp only [countPacket, h₁, if_false, IperfStream.still, IperfStream.core, and_self]

/-! ## The measurement -/

section Measurement

variable {α β : Type} {I : Mem → Prop} {N : Req → Prop} {H : Halt → Prop} (hh : CountIndifferent I N H)

include hh

theorem getStream_bind_steady {sp : Nat} {f : IperfStream → IperfProg β}
    (hf : ∀ st, (∀ r, Req.harmless [st.core] r → N r) → Steady I N H (f st)) :
    Steady I N H (getStream sp >>= f) := by
  refine .getStream_bind (hh.stop _ nofun) ?_
  rintro st ⟨m, hm, hst⟩
  refine hf st fun r hr => hh.onFds m r hm (Req.harmless_mono hr ?_)
  simp only [List.mem_singleton, forall_eq]
  exact List.mem_map.2 ⟨st, List.mem_of_getElem? hst, rfl⟩

theorem gettimeofday_steady : Steady I N H gettimeofday := by
  refine .bind (.sys (hh.req _ trivial)) fun a => ?_
  cases a with
  | ok now => exact .pure _
  | error e => exact .bind (.setErrno hh e) fun _ => .pure _

theorem iprintf_steady {fmt : Format} {args : List Arg} (hf : fmt ≠ .reportConnected) :
    Steady I N H (iprintf fmt args) := by
  refine .sys (hh.req _ fun ho => hf ?_)
  cases fmt <;> first | rfl | exact absurd ho id

theorem output_steady {o : Output} (ho : ¬ o.announces) : Steady I N H (sys (.output o)) :=
  .sys (hh.req _ ho)

theorem iperfErr_steady (message : String) : Steady I N H (iperfErr message) :=
  output_steady hh id

/-! ### Moving data -/

theorem nreadLoop_steady {fd : Int} (hfd : ∀ n, N (.read fd n)) (count fuel : Nat)
    (got : List UInt8) : Steady I N H (nreadLoop fd count fuel got) := by
  induction fuel generalizing got with
  | zero => exact .stop (hh.stop _ nofun)
  | succ fuel ih =>
    refine .ite (fun _ => .pure _) fun _ => .bind (.sys (hfd _)) fun a => ?_
    split
    · exact ih got
    · exact .bind (.setErrno hh _) fun _ => .pure _
    · exact .pure _
    · exact ih _

theorem nwriteLoop_steady {fd : Int} (hfd : ∀ bs, N (.write fd bs)) (count fuel : Nat)
    (left : List UInt8) : Steady I N H (nwriteLoop fd count fuel left) := by
  induction fuel generalizing left with
  | zero => exact .stop (hh.stop _ nofun)
  | succ fuel ih =>
    refine .ite (fun _ => .pure _) fun _ => .bind (.sys (hfd _)) fun a => ?_
    split
    · exact .pure _
    · exact .bind (.setErrno hh _) fun _ => .pure _
    · exact .pure _
    · exact ih _

theorem nsendfileLoop_steady {toFd fromFd : Int} (hfd : ∀ o n, N (.sendfile toFd fromFd o n))
    (count fuel nleft : Nat) : Steady I N H (nsendfileLoop fromFd toFd count fuel nleft) := by
  induction fuel generalizing nleft with
  | zero => exact .stop (hh.stop _ nofun)
  | succ fuel ih =>
    refine .ite (fun _ => .pure _) fun _ => .bind (.sys (hfd _ _)) fun a => ?_
    split
    · exact .pure _
    · exact .bind (.setErrno hh _) fun _ => .pure _
    · exact .pure _
    · exact ih _

theorem streamRead_steady (fuel sp : Nat) : Steady I N H (streamRead fuel sp) := by
  refine .getTest_bind fun t _ => getStream_bind_steady hh fun st hst => ?_
  refine .bind (nreadLoop_steady hh (fun n => hst _ ⟨_, List.mem_singleton_self _, .inl rfl⟩) _ _ _)
    fun got => ?_
  cases got with
  | none => exact .pure _
  | some bs => exact .bind (.modifyStream hh fun _ => ⟨rfl, rfl⟩) fun _ => .pure _

theorem streamWrite_steady (fuel sp : Nat) : Steady I N H (streamWrite fuel sp) := by
  refine .getTest_bind fun t _ => getStream_bind_steady hh fun st hst => ?_
  exact .bind (nwriteLoop_steady hh (fun n => hst _ ⟨_, List.mem_singleton_self _, .inl rfl⟩) _ _ _)
    fun _ => .pure _

theorem iperfTcpRecv_steady (fuel sp : Nat) : Steady I N H (iperfTcpRecv fuel sp) :=
  Steady.counted hh (streamRead_steady hh fuel sp) fun _ _ => ⟨rfl, rfl⟩

theorem iperfTcpSend_steady (fuel sp : Nat) : Steady I N H (iperfTcpSend fuel sp) := by
  refine .getTest_bind fun t _ => .ite (fun _ => ?_) fun _ => ?_
  · refine getStream_bind_steady hh fun st hst => .counted hh ?_ fun _ _ => ⟨rfl, rfl⟩
    exact nsendfileLoop_steady hh (fun _ _ => hst _ ⟨_, List.mem_singleton_self _, rfl, rfl⟩) _ _ _
  · exact .counted hh (streamWrite_steady hh fuel sp) fun _ _ => ⟨rfl, rfl⟩

theorem iperfSctpSend_steady (fuel sp : Nat) : Steady I N H (iperfSctpSend fuel sp) :=
  Steady.counted hh (streamWrite_steady hh fuel sp) fun _ _ => ⟨rfl, rfl⟩

theorem iperfUdpRecv_steady (fuel sp : Nat) : Steady I N H (iperfUdpRecv fuel sp) := by
  refine .bind (streamRead_steady hh fuel sp) fun r => .ite (fun _ => .pure _) fun _ => ?_
  refine .bind (.modifyStream hh fun _ => ⟨rfl, rfl⟩) fun _ => getStream_bind_steady hh fun st _ => ?_
  refine .bind (.modifyStream hh fun st => countPacket_still _ st) fun _ => ?_
  refine .guard (fun _ => iperfErr_steady hh _) ?_
  exact .bind (gettimeofday_steady hh) fun _ => .bind (.modifyStream hh fun _ => ⟨rfl, rfl⟩) fun _ => .pure _

theorem iperfUdpSend_steady (fuel sp : Nat) : Steady I N H (iperfUdpSend fuel sp) :=
  .bind (gettimeofday_steady hh) fun _ => .bind (.modifyStream hh fun _ => ⟨rfl, rfl⟩) fun _ =>
    Steady.counted hh (streamWrite_steady hh fuel sp) fun _ _ => ⟨rfl, rfl⟩

theorem protocolSend_steady (fuel : Nat) (prot : ProtId) (sp : Nat) :
    Steady I N H (protocolSend fuel prot sp) := by
  cases prot with
  | tcp => exact iperfTcpSend_steady hh fuel sp
  | udp => exact iperfUdpSend_steady hh fuel sp
  | sctp => exact iperfSctpSend_steady hh fuel sp

theorem protocolRecv_steady (fuel : Nat) (prot : ProtId) (sp : Nat) :
    Steady I N H (protocolRecv fuel prot sp) := by
  cases prot with
  | tcp => exact iperfTcpRecv_steady hh fuel sp
  | udp => exact iperfUdpRecv_steady hh fuel sp
  | sctp => exact iperfTcpRecv_steady hh fuel sp

theorem diskfileSend_steady (fuel sp : Nat) : Steady I N H (diskfileSend fuel sp) := by
  refine .getTest_bind fun t _ => getStream_bind_steady hh fun st hst => ?_
  refine .bind (.sys (hst _ ⟨_, List.mem_singleton_self _, .inr rfl⟩)) fun a => ?_
  split
  · exact .bind (.modifyTest hh fun _ => rfl) fun _ => .pure _
  · exact .bind (.modifyStream hh fun _ => ⟨rfl, rfl⟩) fun _ => protocolSend_steady hh fuel st.prot sp
  · exact .bind (.setErrno hh _) fun _ => protocolSend_steady hh fuel st.prot sp

theorem diskfileRecv_steady (fuel sp : Nat) : Steady I N H (diskfileRecv fuel sp) := by
  refine getStream_bind_steady hh fun st _ => ?_
  refine .bind (protocolRecv_steady hh fuel st.prot sp) fun r => .ite (fun _ => ?_) fun _ => .pure _
  refine getStream_bind_steady hh fun st hst => ?_
  refine .bind (.sys (hst _ ⟨_, List.mem_singleton_self _, .inr rfl⟩)) fun a => ?_
  exact .bind (.result hh a _) fun _ => .pure _

theorem streamSnd_steady (fuel sp : Nat) : Steady I N H (streamSnd fuel sp) :=
  getStream_bind_steady hh fun st _ => .ite (fun _ => diskfileSend_steady hh fuel sp)
    fun _ => protocolSend_steady hh fuel st.prot sp

theorem streamRcv_steady (fuel sp : Nat) : Steady I N H (streamRcv fuel sp) :=
  getStream_bind_steady hh fun st _ => .ite (fun _ => diskfileRecv_steady hh fuel sp)
    fun _ => protocolRecv_steady hh fuel st.prot sp

theorem sendStreams_steady (fuel : Nat) (writeSet : Option FdSet) (multisend : Nat) (now : Timeval)
    (sps : List Nat) : Steady I N H (sendStreams fuel writeSet multisend now sps) := by
  induction sps with
  | nil => exact .pure _
  | cons sp sps ih =>
    refine getStream_bind_steady hh fun st _ => .ite (fun _ => ?_) fun _ => ih
    refine .bind (streamSnd_steady hh fuel sp) fun r => .ite (fun _ => ?_) fun _ => ?_
    · exact .ite (fun _ => .pure _) fun _ => .bind (.setIErrno hh _) fun _ => .pure _
    · refine .bind (.modifyTest hh fun _ => rfl) fun _ => .getTest_bind ?_
      rintro _ ⟨m, hm, rfl⟩
      refine .guard (fun hrate => hh.throttle m sp now hm (.inl hrate.1)) ?_
      exact .ite (fun _ => .pure _) fun _ => .ite (fun _ => .pure _) fun _ => ih

theorem sendRounds_steady (fuel : Nat) (writeSet : Option FdSet) (multisend : Nat) :
    Steady I N H (sendRounds fuel writeSet multisend) := by
  induction multisend with
  | zero => exact .pure _
  | succ multisend ih =>
    refine .getTest_bind fun t _ => .ite (fun _ => .bind (gettimeofday_steady hh) fun now => ?_)
      fun _ => .bind (.pure (⟨0, 0⟩ : Timeval)) fun now => ?_
    all_goals
      refine .bind .allStreams fun sps => .bind (sendStreams_steady hh _ _ _ _ _) fun r => ?_
      cases r with
      | some r => exact .pure _
      | none => exact ih

theorem iperfSend_steady (fuel : Nat) (writeSet : Option FdSet) :
    Steady I N H (iperfSend fuel writeSet) := by
  refine .getTest_bind ?_
  rintro _ ⟨m, hm, rfl⟩
  refine .bind (sendRounds_steady hh _ _ _) fun r => ?_
  cases r with
  | some r => exact .pure _
  | none =>
    refine .ite (fun hburst => ?_) fun _ => .pure _
    refine .bind (gettimeofday_steady hh) fun now => .bind .allStreams fun sps => .bind ?_ fun _ => .pure _
    exact .forAllStreams (fun sp => hh.throttle m sp now hm (.inr (.inl hburst))) sps

theorem recvStreams_steady (fuel : Nat) (readSet : FdSet) (sps : List Nat) :
    Steady I N H (recvStreams fuel readSet sps) := by
  induction sps generalizing readSet with
  | nil => exact .pure _
  | cons sp sps ih =>
    refine getStream_bind_steady hh fun st _ => .ite (fun _ => ?_) fun _ => ih readSet
    refine .bind (streamRcv_steady hh fuel sp) fun r => .ite (fun _ => ?_) fun _ => ?_
    · exact .bind (.setIErrno hh _) fun _ => .pure _
    · exact .bind (.modifyTest hh fun _ => rfl) fun _ => ih _

theorem iperfRecv_steady (fuel : Nat) (readSet : FdSet) : Steady I N H (iperfRecv fuel readSet) :=
  .bind .allStreams fun sps => recvStreams_steady hh fuel readSet sps

/-! ### Statistics -/

theorem saveTcpinfo_steady (socket : Int) (info : TcpInfo) :
    Steady I N H (saveTcpinfo socket info) := by
  refine .bind (.sys (hh.req _ trivial)) fun a => ?_
  cases a with
  | ok info => exact .pure _
  | error e => exact .bind (.setErrno hh e) fun _ => .bind (iperfErr_steady hh _) fun _ => .pure _

theorem statsStreams_steady (sps : List Nat) (temp : IperfIntervalResults) :
    Steady I N H (statsStreams sps temp) := by
  induction sps generalizing temp with
  | nil => exact .pure _
  | cons sp sps ih =>
    refine .getTest_bind fun t _ => getStream_bind_steady hh fun st _ => ?_
    refine .bind (gettimeofday_steady hh) fun endTime => .ite (fun _ => ?_) fun _ => ?_
    · refine .bind (saveTcpinfo_steady hh _ _) fun info => .ite (fun _ => ?_) fun _ => ?_
      · refine .bind (.modifyStream hh fun st => result_still st _) fun _ => ?_
        exact .bind (.modifyStream hh fun _ => ⟨rfl, rfl⟩) fun _ => ih _
      · exact .bind (.modifyStream hh fun _ => ⟨rfl, rfl⟩) fun _ => ih _
    · exact .bind (.modifyStream hh fun _ => ⟨rfl, rfl⟩) fun _ => ih _

theorem iperfStatsCallback_steady : Steady I N H iperfStatsCallback :=
  .getTest_bind fun _ _ => .bind (.sys (hh.req _ trivial)) fun _ => .bind .allStreams fun sps =>
    statsStreams_steady hh sps _

theorem iperfResetStats_steady : Steady I N H iperfResetStats := by
  refine .bind (.modifyTest hh fun _ => rfl) fun _ => .bind (gettimeofday_steady hh) fun now => ?_
  refine .bind .allStreams fun sps => .forAllStreams (fun sp => ?_) sps
  refine .getTest_bind fun t _ => getStream_bind_steady hh fun st _ => .ite (fun _ => ?_) fun _ => ?_
  · refine .bind (.sys (hh.req _ trivial)) fun ir => .bind (saveTcpinfo_steady hh _ _) fun info => ?_
    exact .modifyStream hh fun _ => ⟨rfl, rfl⟩
  · exact .modifyStream hh fun _ => ⟨rfl, rfl⟩

/-! ### Reports -/

theorem report_steady {json : Bool} {parent : JsonNode} {name : String}
    {fields : List (String × Arg)} {fmt : Format} {args : List Arg}
    (hj : ¬ (Output.json parent name fields).announces) (hf : fmt ≠ .reportConnected) :
    Steady I N H (report json parent name fields fmt args) :=
  .ite (fun _ => output_steady hh hj) fun _ => iprintf_steady hh hf

theorem printIntervalHeader_steady (t : IperfTest) (st : IperfStream) (irp : IperfIntervalResults) :
    Steady I N H (printIntervalHeader t st irp) := by
  refine .ite (fun _ => .ite (fun _ => .ite (fun _ => ?_) fun _ => ?_) fun _ =>
    .ite (fun _ => ?_) fun _ => ?_) fun _ => .ite (fun _ => ?_) fun _ => .pure _
  all_goals exact iprintf_steady hh nofun

theorem printIntervalLine_steady (t : IperfTest) (st : IperfStream) (irp : IperfIntervalResults) :
    Steady I N H (printIntervalLine t st irp) := by
  refine .ite (fun _ => .ite (fun _ => ?_) fun _ => ?_) fun _ => .ite (fun _ => ?_) fun _ => ?_
  · exact .guard (fun _ => output_steady hh id) (iprintf_steady hh nofun)
  all_goals exact report_steady hh id nofun

theorem printIntervalResults_steady (sp : Nat) : Steady I N H (printIntervalResults sp) := by
  refine .getTest_bind fun t _ => getStream_bind_steady hh fun st _ => ?_
  cases st.result.intervalResults.getLast? with
  | none => exact iperfErr_steady hh _
  | some irp =>
    exact .guard (fun _ => printIntervalHeader_steady hh t st irp) (printIntervalLine_steady hh t st irp)

theorem sumIntervals_steady (sps : List Nat) (a : IntervalSum) :
    Steady I N H (sumIntervals sps a) := by
  induction sps generalizing a with
  | nil => exact .pure _
  | cons sp sps ih =>
    refine .bind (printIntervalResults_steady hh sp) fun _ => .getTest_bind fun t _ => ?_
    refine getStream_bind_steady hh fun st _ => ?_
    cases st.result.intervalResults.getLast? with
    | none => exact .bind (iperfErr_steady hh _) fun _ => .pure _
    | some irp =>
      exact .ite (fun _ => .ite (fun _ => ih _) fun _ => ih _) fun _ => ih _

theorem printIntervalSum_steady (t : IperfTest) (a : IntervalSum) (st : IperfStream)
    (irp : IperfIntervalResults) : Steady I N H (printIntervalSum t a st irp) := by
  refine .ite (fun _ => .ite (fun _ => ?_) fun _ => ?_) fun _ => .ite (fun _ => ?_) fun _ => ?_
  all_goals exact report_steady hh id nofun

theorem cJSON_Create_steady : Steady I N H (sys .cJSON_Create) := .sys (hh.req _ trivial)

theorem jsonIntervalObjects_steady (t : IperfTest) : Steady I N H (jsonIntervalObjects t) := by
  refine .ite (fun _ => ?_) fun _ => .pure _
  refine .bind (cJSON_Create_steady hh) fun _ => .ite (fun _ => .pure _) fun _ => ?_
  refine .bind (output_steady hh id) fun _ => ?_
  refine .bind (cJSON_Create_steady hh) fun _ => .ite (fun _ => .pure _) fun _ => ?_
  exact .bind (output_steady hh id) fun _ => .pure _

theorem iperfPrintIntermediate_steady : Steady I N H iperfPrintIntermediate := by
  refine .getTest_bind ?_
  rintro _ ⟨m, hm, rfl⟩
  generalize ht : m.test = t
  refine .bind (jsonIntervalObjects_steady hh t) fun _ => .ite (fun _ => .pure _) fun _ => ?_
  refine .bind .allStreams fun sps => .bind (sumIntervals_steady hh sps _) fun a => ?_
  cases a with
  | none => exact .pure _
  | some a =>
    refine .ite (fun hn => ?_) fun _ => .pure _
    cases hs : t.streams with
    | nil =>
      -- There is no stream, and a sum over the streams is asked for.
      exact .stop (hh.empty m hm ⟨by rw [ht, IperfTest.core, hs]; rfl, .inl (ht ▸ hn)⟩)
    | cons st sts =>
      dsimp only [List.head?_cons]
      cases st.result.intervalResults.getLast? with
      | none => exact .stop (hh.stop _ nofun)
      | some irp => exact printIntervalSum_steady hh t a st irp

theorem printSummarySender_steady (t : IperfTest) (st : IperfStream) (endTime : ℚ) :
    Steady I N H (printSummarySender t st endTime) := by
  refine .ite (fun _ => .ite (fun _ => ?_) fun _ => ?_) fun _ => .ite (fun _ => ?_) fun _ => ?_
  · exact report_steady hh id nofun
  · exact report_steady hh id nofun
  · exact output_steady hh id
  · refine .bind (iprintf_steady hh nofun) fun _ => .guard (fun _ => iprintf_steady hh nofun) ?_
    exact .ite (fun _ => iprintf_steady hh nofun) fun _ => .pure _

theorem printSummaryDiskfile_steady (t : IperfTest) (st : IperfStream) :
    Steady I N H (printSummaryDiskfile t st) := by
  refine .ite (fun _ => .bind (.sys (hh.req _ trivial)) fun size => ?_) fun _ => .pure _
  cases size with
  | none => exact .pure _
  | some size => exact report_steady hh id nofun

theorem printSummaryReceiver_steady (t : IperfTest) (st : IperfStream) (endTime : ℚ) :
    Steady I N H (printSummaryReceiver t st endTime) :=
  .ite (fun _ => report_steady hh id nofun) fun _ => .pure _

theorem printSummaries_steady (endTime : ℚ) (sps : List Nat) (a : SummarySum) :
    Steady I N H (printSummaries endTime sps a) := by
  induction sps generalizing a with
  | nil => exact .pure _
  | cons sp sps ih =>
    have hstream : ∀ (t : IperfTest) (ok : Bool), Steady I N H (if !ok then pure none else do
        if t.jsonOutput then sys (.output (.json .summaryStreams "" []))
        let st ← getStream sp
        printSummarySender t st endTime
        printSummaryDiskfile t st
        printSummaryReceiver t st endTime
        printSummaries endTime sps (a.add t st)) := by
      intro t ok
      refine .ite (fun _ => .pure _) fun _ => .guard (fun _ => output_steady hh id) ?_
      refine getStream_bind_steady hh fun st _ => .bind (printSummarySender_steady hh t st _) ?_
      refine fun _ => .bind (printSummaryDiskfile_steady hh t st) fun _ => ?_
      exact .bind (printSummaryReceiver_steady hh t st _) fun _ => ih _
    refine .getTest_bind fun t _ => .ite (fun _ => ?_) fun _ => hstream t true
    exact .bind (cJSON_Create_steady hh) fun ok => hstream t ok

theorem printSummarySum_steady (t : IperfTest) (a : SummarySum) (endTime : ℚ) :
    Steady I N H (printSummarySum t a endTime) := by
  refine .ite (fun _ => ?_) fun _ => report_steady hh id nofun
  refine .ite (fun _ => ?_) fun _ => ?_
  all_goals exact .bind (report_steady hh id nofun) fun _ => report_steady hh id nofun

theorem printResultsHeader_steady (t : IperfTest) : Steady I N H (printResultsHeader t) := by
  refine .ite (fun _ => ?_) fun _ => ?_
  · refine .bind (cJSON_Create_steady hh) fun _ => .ite (fun _ => .pure _) fun _ => ?_
    exact .bind (output_steady hh id) fun _ => .pure _
  · refine .bind (iprintf_steady hh nofun) fun _ => .guard (fun _ => iprintf_steady hh nofun) ?_
    refine .ite (fun _ => .ite (fun _ => ?_) fun _ => ?_) fun _ => ?_
    all_goals exact .bind (iprintf_steady hh nofun) fun _ => .pure _

theorem printCpu_steady (t : IperfTest) : Steady I N H (printCpu t) :=
  .ite (fun _ => output_steady hh id) fun _ => .ite (fun _ => iprintf_steady hh nofun)
    fun _ => .pure _

theorem iperfPrintResults_steady (hempty : ∀ m, I m → m.test.streams = [] → H .emptyStreams) :
    Steady I N H iperfPrintResults := by
  refine .getTest_bind ?_
  rintro _ ⟨m, hm, rfl⟩
  generalize ht : m.test = t
  refine .bind (printResultsHeader_steady hh t) fun _ => .ite (fun _ => .pure _) fun _ => ?_
  cases hs : t.streams with
  | nil => exact .stop (hempty m hm (ht ▸ hs))
  | cons st sts =>
    refine .bind .allStreams fun sps => .bind (printSummaries_steady hh _ sps _) fun a => ?_
    cases a with
    | none => exact .pure _
    | some a => exact .guard (fun _ => printSummarySum_steady hh t a _) (printCpu_steady hh t)

theorem iperfReporterCallback_steady : Steady I N H iperfReporterCallback := by
  refine .getTest_bind ?_
  rintro _ ⟨m, hm, rfl⟩
  refine .ite (fun _ => iperfPrintIntermediate_steady hh) fun _ => .ite (fun hdisplay => ?_) fun _ => .pure _
  refine .bind (iperfPrintIntermediate_steady hh) fun _ => iperfPrintResults_steady hh ?_
  intro m' hm' hnil
  rcases hh.state m m' hm hm' with h | h
  · exact h
  · exact hh.empty m' hm' ⟨by rw [IperfTest.core, hnil]; rfl, .inr (h.symm.trans hdisplay)⟩

/-! ### Callbacks -/

theorem reportPeer_steady (t : IperfTest) : Steady I N H (reportPeer t) := by
  refine .ite (fun _ => .ite (fun _ => output_steady hh id) fun _ => ?_) fun _ => ?_
  · refine .bind (iprintf_steady hh nofun) fun _ => ?_
    exact .ite (fun _ => iprintf_steady hh nofun) fun _ => .pure _
  · refine .bind (.sys (hh.req _ trivial)) fun _ => .bind (.sys (hh.req _ trivial)) fun _ => ?_
    exact .ite (fun _ => output_steady hh id) fun _ => iprintf_steady hh nofun

theorem reportMss_steady (t : IperfTest) {given byDefault : Int → IperfProg Unit}
    (hg : ∀ mss, Steady I N H (given mss)) (hd : ∀ mss, Steady I N H (byDefault mss)) :
    Steady I N H (reportMss t given byDefault) :=
  .ite (fun _ => .ite (fun _ => hg _) fun _ => .bind (.sys (hh.req _ trivial)) hd) fun _ => .pure _

theorem reportCookie_steady (t : IperfTest) : Steady I N H (reportCookie t) := by
  refine .ite (fun _ => ?_) fun _ => .ite (fun _ => ?_) fun _ => .pure _
  · refine .bind (output_steady hh id) fun _ => reportMss_steady hh t ?_ ?_
    all_goals exact fun _ => output_steady hh id
  · refine .bind (iprintf_steady hh nofun) fun _ => reportMss_steady hh t ?_ ?_
    all_goals exact fun _ => iprintf_steady hh nofun

theorem iperfOnConnect_steady : Steady I N H iperfOnConnect := by
  refine .getTest_bind fun t _ => ?_
  have htime : Steady I N H (reportTime t) :=
    .ite (fun _ => output_steady hh id) fun _ => .ite (fun _ => iprintf_steady hh nofun)
      fun _ => .pure _
  exact .bind htime fun _ => .bind (reportPeer_steady hh t) fun _ => reportCookie_steady hh t

theorem iperfOnTestStart_steady : Steady I N H iperfOnTestStart := by
  refine .getTest_bind fun t _ => .ite (fun _ => output_steady hh id) fun _ => ?_
  refine .ite (fun _ => .ite (fun _ => ?_) fun _ => .ite (fun _ => ?_) fun _ => ?_) fun _ => .pure _
  all_goals exact iprintf_steady hh nofun

theorem withTime_steady {k : Timeval → IperfProg Int} (hk : ∀ now, Steady I N H (k now)) :
    Steady I N H (withTime k) := by
  refine .bind (.sys (hh.req _ trivial)) fun a => ?_
  cases a with
  | error e => exact .bind (.setErrno hh e) fun _ => .fail hh _
  | ok now => exact hk now

theorem iperfInitTest_steady : Steady I N H iperfInitTest := by
  refine withTime_steady hh fun now => .bind (.modifyTest hh fun t => ?_) fun _ => ?_
  · unfold IperfTest.settled IperfTest.handles IperfTest.still IperfTest.core
    simp only [List.map_map]
    rfl
  · exact .bind (iperfOnTestStart_steady hh) fun _ => .pure _

theorem iperfSetaffinity_steady (affinity : Int) : Steady I N H (iperfSetaffinity affinity) :=
  .bind (.sys (hh.req _ trivial)) fun a => .bind (.result hh a _) fun _ =>
    .ite (fun _ => .fail hh _) fun _ => .pure _

theorem iperfClearaffinity_steady : Steady I N H iperfClearaffinity :=
  .bind (.sys (hh.req _ trivial)) fun a => .bind (.result hh a _) fun _ =>
    .ite (fun _ => .fail hh _) fun _ => .pure _

theorem updateCpuUtil_steady : Steady I N H updateCpuUtil :=
  .bind (.sys (hh.req _ trivial)) fun _ => .modifyTest hh fun _ => rfl

theorem iperfJsonFinish_steady : Steady I N H iperfJsonFinish :=
  .bind (cJSON_Create_steady hh) fun _ => .ite (fun _ => .pure _) fun _ =>
    .bind (output_steady hh id) fun _ => .pure _

theorem iperfJsonStart_steady : Steady I N H iperfJsonStart := by
  refine .getTest_bind fun t _ => .bind (cJSON_Create_steady hh) fun _ => ?_
  refine .ite (fun _ => .pure _) fun _ => .guard (fun _ => output_steady hh id) ?_
  refine .bind (cJSON_Create_steady hh) fun _ => .ite (fun _ => .pure _) fun _ => ?_
  refine .bind (output_steady hh id) fun _ => .bind (cJSON_Create_steady hh) fun _ => ?_
  refine .ite (fun _ => .pure _) fun _ => .bind (output_steady hh id) fun _ => ?_
  refine .bind (cJSON_Create_steady hh) fun _ => .ite (fun _ => .pure _) fun _ => ?_
  exact .bind (output_steady hh id) fun _ => .pure _

theorem reportVersion_steady (t : IperfTest) : Steady I N H (reportVersion t) := by
  refine .ite (fun _ => ?_) fun _ => .ite (fun _ => ?_) fun _ => .pure _
  · exact .bind (output_steady hh id) fun _ => output_steady hh id
  · exact .bind (iprintf_steady hh nofun) fun _ => iprintf_steady hh nofun

end Measurement

/-! ## Timers -/

section Timers

variable {α β : Type} {I : Mem → Prop} {N : Req → Prop} {H : Halt → Prop} (hh : Indifferent I N H)

include hh

/-- A function of the timer package, unless it makes up procedures. -/
theorem runTimer_steady {f : TimerState TimerProc → Option (TimerState TimerProc)}
    (hf : ∀ (P : TimerProc → Prop) s s', s.Procs P → f s = some s' → s'.Procs P) :
    Steady I N H (memTimers.run f) := by
  refine .getMem_bind fun m hm => ?_
  cases h : f (memTimers.get m) with
  | none => exact .stop (hh.stop _ nofun)
  | some s => exact (Prog.stays_modify _).2 fun m' hm' => hh.timers m m' s hm hm' fun P _ hp => hf P _ _ hp h

theorem loadTimer_bind_steady {t : Addr} {f : Timer TimerProc → IperfProg β}
    (hf : ∀ c, (∃ m, I m ∧ m.timers.mem t = some c) → Steady I N H (f c)) :
    Steady I N H (memTimers.load t >>= f) := by
  simp only [Steady, TimerView.load, Bind.bind, Prog.get, Prog.bind, Prog.Stays]
  intro m hm
  cases h : (memTimers.get m).mem t with
  | none => exact hh.stop .wildTimer nofun
  | some c => exact hf c ⟨m, hm, h⟩

theorem resetHandle_steady (now : Timeval) (handle : Option Addr) :
    Steady I N H (resetHandle now handle) := by
  cases handle with
  | none => exact .pure _
  | some t => exact runTimer_steady hh fun _ _ _ hp hs => hp.tmrReset hs

/-- A timer procedure; a send timer asks for the throttle to be checked. -/
theorem timerProc_steady (t : Addr) (proc : TimerProc) (now : Timeval)
    (hsend : ∀ sp, proc = .sendTimer sp → ∃ m, I m ∧ m.throttled) :
    Steady I N H (timerProc t proc now) := by
  cases proc with
  | testTimer =>
    exact Steady.modifyHandles (f := fun t => { t with timer := none, done := true }) hh fun _ => rfl
  | statsTimer =>
    exact .getTest_bind fun _ _ => .ite (fun _ => .pure _) fun _ => iperfStatsCallback_steady hh
  | reporterTimer =>
    exact .getTest_bind fun _ _ => .ite (fun _ => .pure _) fun _ => iperfReporterCallback_steady hh
  | omitTimer =>
    refine .bind (.modifyHandles hh fun _ => rfl) fun _ => .bind (iperfResetStats_steady hh) fun _ => ?_
    refine .getTest_bind fun t _ => .guard (fun _ => iprintf_steady hh nofun) ?_
    exact .bind (resetHandle_steady hh _ _) fun _ => resetHandle_steady hh _ _
  | sendTimer sp =>
    obtain ⟨m, hm, hthrottled⟩ := hsend sp rfl
    exact hh.throttle m sp now hm hthrottled

theorem tmrRunLoop_steady (now : Timeval) (fuel : Nat) (t : Option Addr) :
    Steady I N H (tmrRunLoop memTimers timerProc now fuel t) := by
  induction fuel generalizing t with
  | zero => exact .stop (hh.stop _ nofun)
  | succ fuel ih =>
    cases t with
    | none => exact .pure _
    | some t =>
      refine loadTimer_bind_steady hh ?_
      rintro c ⟨m, hm, hc⟩
      refine .ite (fun _ => .pure _) fun _ => .bind (timerProc_steady hh t _ now ?_) fun _ => ?_
      · rintro sp hsp
        exact ⟨m, hm, .inr (.inr fun hp => hp t c hc sp hsp)⟩
      · refine loadTimer_bind_steady hh fun c _ => .bind ?_ fun _ => ih _
        exact runTimer_steady hh fun _ _ _ hp hs => hp.tmrRunNext hs

theorem runTimers_steady (fuel : Nat) : Steady I N H (runTimers fuel) :=
  .bind (gettimeofday_steady hh) fun now => .getMem_bind fun _ _ => tmrRunLoop_steady hh now _ _

theorem getTimeout_steady (now : Timeval) : Steady I N H (getTimeout now) := by
  refine .getMem_bind fun m _ => ?_
  cases tmrTimeout now m.timers with
  | none => exact .stop (hh.stop _ nofun)
  | some timeout => exact .pure _

/-- `tmr_create`, if the assertion allows for a timer with the procedure `proc`. -/
theorem createTimer_steady {proc : TimerProc} (hproc : ∀ m m' s, I m → I m' →
      (∀ P : TimerProc → Prop, P proc → m.timers.Procs P → s.Procs P) → I { m' with timers := s })
    (now : Timeval) (usecs : Int) (periodic : Bool) :
    Steady I N H (createTimer now proc usecs periodic) := by
  refine .getMem_bind fun m hm => .ite (fun _ => .bind (.pure none) fun a => ?_) fun _ =>
    .bind (.sys (hh.req _ trivial)) fun a => ?_
  all_goals
    dsimp only
    split
    · exact .stop (hh.stop _ nofun)
    · rename_i s' t hs
      refine .bind ((Prog.stays_modify _).2 fun m' hm' => hproc m m' s' hm hm' ?_) fun _ => .pure _
      exact fun P hP hp => hp.tmrCreate hP hs

theorem startTimer_steady {proc : TimerProc} (hproc : proc.keepsLights) (now : Timeval) (usecs : Int)
    (periodic : Bool) {keep : Option Addr → IperfTest → IperfTest}
    (hk : ∀ h t, (keep h t).still = t.still) :
    Steady I N H (startTimer now proc usecs periodic keep) := by
  refine .bind (createTimer_steady hh ?_ now usecs periodic) fun handle => ?_
  · exact fun m m' s hm hm' hs => hh.timers m m' s hm hm' fun P hP hp => hs P (hP proc hproc) hp
  · exact .bind (.modifyHandles hh (hk handle)) fun _ => .ite (fun _ => .fail hh _) fun _ => .pure _

theorem createStatsTimer_steady (now : Timeval) : Steady I N H (createStatsTimer now) :=
  .getTest_bind fun _ _ => .ite
    (fun _ => startTimer_steady hh (fun _ => TimerProc.noConfusion) _ _ _ fun _ _ => rfl) fun _ => .pure _

theorem createReporterTimer_steady (now : Timeval) : Steady I N H (createReporterTimer now) :=
  .getTest_bind fun _ _ => .ite
    (fun _ => startTimer_steady hh (fun _ => TimerProc.noConfusion) _ _ _ fun _ _ => rfl) fun _ => .pure _

theorem createServerTimers_steady : Steady I N H createServerTimers := by
  refine withTime_steady hh fun now => .bind (.modifyHandles hh fun _ => rfl) fun _ => ?_
  refine .bind (createStatsTimer_steady hh now) fun _ => .ite (fun _ => .pure _) fun _ => ?_
  exact createReporterTimer_steady hh now

theorem createClientTimers_steady : Steady I N H createClientTimers := by
  refine withTime_steady hh fun now => .bind (.modifyHandles hh fun _ => rfl) fun _ => ?_
  have htest : Steady I N H (createTestTimer now) := by
    refine .getTest_bind fun _ _ => .ite (fun _ => ?_) fun _ => .pure _
    refine .bind (.modifyHandles hh fun _ => rfl) fun _ => ?_
    exact startTimer_steady hh (fun _ => TimerProc.noConfusion) _ _ _ fun _ _ => rfl
  refine .bind htest fun _ => .ite (fun _ => .pure _) fun _ => ?_
  refine .bind (createStatsTimer_steady hh now) fun _ => .ite (fun _ => .pure _) fun _ => ?_
  exact createReporterTimer_steady hh now

theorem createOmitTimer_steady : Steady I N H createOmitTimer := by
  refine .getTest_bind fun _ _ => .ite (fun _ => ?_) fun _ => withTime_steady hh fun now => ?_
  · exact .bind (.modifyHandles hh fun _ => rfl) fun _ => .pure _
  · refine .bind (.modifyHandles hh fun _ => rfl) fun _ => ?_
    exact startTimer_steady hh (fun _ => TimerProc.noConfusion) _ _ _ fun _ _ => rfl

theorem cancelHandle_steady (handle : Option Addr) : Steady I N H (cancelHandle handle) := by
  cases handle with
  | none => exact .pure _
  | some t => exact runTimer_steady hh fun _ _ _ hp hs => hp.tmrCancel hs

theorem cancelTimer_steady {handle : IperfTest → Option Addr} {clear : IperfTest → IperfTest}
    (hc : ∀ t, (clear t).still = t.still) : Steady I N H (cancelTimer handle clear) :=
  .getTest_bind fun _ _ => .bind (cancelHandle_steady hh _) fun _ => .modifyHandles hh hc

end Timers

end Iperf
