import WifiTestTool.Iperf.Server
import WifiTestTool.Iperf.Client
import WifiTestTool.Iperf.Proofs.Neutral

/-!
# Opening sockets

Making, binding and connecting sockets, listening and setting up the buffer of a stream ask a lot of
the system and change little: the error numbers, the descriptor sets and the two listeners. An
assertion that does not depend on these, under a contract to which these calls are indifferent, is
kept by all functions of this kind (`Plumbing`). The descriptors that such a function may write to
and close are those with the property `Other`; they are meant to be those that are not the control
connection.
-/

namespace Iperf

open Reactive

/-- The requests that are made for a new socket or a new stream. -/
def Req.plumbing (Other : Int → Prop) : Req → Prop
  | .getaddrinfo _ _ _ | .socket _ _ | .setsockopt _ _ _ | .bind _ | .listen _ | .connect _
  | .recvfrom _ | .getsockname _ | .getpeername _ | .getsockdomain _ | .select _ _ _ _
  | .mallocStruct | .mkstemp | .unlink | .ftruncate _ _ | .mmap _ _ | .munmap _ | .random _
  | .openFile _ _ => True
  | .output o => ¬ o.announces
  | .close fd | .write fd _ => Other fd
  | _ => False

/-- The descriptor that the system has opened. -/
def Req.newFd : (r : Req) → r.Ans → Option Int
  | .socket _ _, .ok fd | .mkstemp, .ok fd | .openFile _ _, .ok fd => some fd
  | _, _ => none

/-- What of a test does not concern the sockets that are being opened. -/
def IperfTest.unplumbed (t : IperfTest) : IperfTest :=
  { t with listener := 0, protListener := 0, maxFd := 0, readSet := ∅ }

/-- The changes of the memory that come with new sockets. -/
structure Replumbed (Other : Int → Prop) (m m' : Mem) : Prop where
  test : m'.test.unplumbed = m.test.unplumbed
  timers : m'.timers = m.timers
  listener : m'.test.listener = m.test.listener ∨ Other m'.test.listener
  protListener : m'.test.protListener = m.test.protListener ∨ Other m'.test.protListener
  iErrno : m'.iErrno = m.iErrno ∨ m'.iErrno ≠ .IEMESSAGE

/-- The contract `K` is indifferent to the opening of sockets, and so is the assertion `I`. -/
structure Plumbing {G : Type} (K : Contract Mem Req.Ans Halt G) (I : Mem → G → Prop)
    (Other : Int → Prop) : Prop where
  req : ∀ m g r, I m g → r.plumbing Other →
    K.ok m g r ∧ ∀ a, K.allows m g r a → I m (K.onCall m g r a)
  fresh : ∀ m g r a fd, I m g → K.allows m g r a → r.newFd a = some fd → Other fd
  neg : ∀ fd, fd < 0 → Other fd
  listener : ∀ m g, I m g → Other m.test.listener
  protListener : ∀ m g, I m g → Other m.test.protListener
  change : ∀ m m' g, I m g → Replumbed Other m m' →
    K.inv m' (K.onWrite m' g) ∧ I m' (K.onWrite m' g)
  halt : ∀ m g h, I m g → h ≠ .emptyStreams → K.mayHalt m g h

section Rules

variable {G α β : Type} {K : Contract Mem Req.Ans Halt G} {I : Mem → G → Prop} {Q : α → Prop}

theorem safe_getTest_bind {f : IperfTest → IperfProg α} {Q : α → Mem → G → Prop} {m : Mem} {g : G} :
    (getTest >>= f).Safe K Q m g ↔ (f m.test).Safe K Q m g := Iff.rfl

theorem keeps_getTest_bind {f : IperfTest → IperfProg α}
    (hf : ∀ m g, I m g → Prog.Keeps K I Q (f m.test)) : Prog.Keeps K I Q (getTest >>= f) :=
  fun m g hm => hf m g hm m g hm

theorem triple_getTest_bind {f : IperfTest → IperfProg α} {Q : α → Mem → G → Prop}
    (hf : ∀ m g, I m g → Prog.Triple K I (f m.test) Q) : Prog.Triple K I (getTest >>= f) Q :=
  fun m g hm => hf m g hm m g hm

theorem keeps_modifyTest {f : IperfTest → IperfTest}
    (hf : ∀ m g, I m g → K.inv { m with test := f m.test } (K.onWrite { m with test := f m.test } g) ∧
      I { m with test := f m.test } (K.onWrite { m with test := f m.test } g)) :
    Prog.Keeps K I (fun _ => True) (modifyTest f) := .modify hf

/-- `Nread`, when its requests and the changes of `errno` keep the assertion. -/
theorem nread_keeps {fd : Int} (hread : ∀ n, Prog.Keeps K I (fun _ => True) (sys (.read fd n)))
    (herrno : ∀ e, Prog.Keeps K I (fun _ => True) (setErrno e))
    (hspin : ∀ m g, I m g → K.mayHalt m g .spin) (fuel count : Nat) :
    Prog.Keeps K I (fun _ => True) (nread fuel fd count) := by
  unfold nread
  generalize ([] : List UInt8) = got
  induction fuel generalizing got with
  | zero => exact .stop hspin
  | succ fuel ih =>
    refine .ite (fun _ => .pure trivial) fun _ => .bind (hread _) fun a _ => ?_
    split
    · exact ih got
    · exact .bind (herrno _) fun _ _ => .pure trivial
    · exact .pure trivial
    · exact ih _

/-- `Nwrite`, when its requests and the changes of `errno` keep the assertion. -/
theorem nwrite_keeps {fd : Int} (hwrite : ∀ bs, Prog.Keeps K I (fun _ => True) (sys (.write fd bs)))
    (herrno : ∀ e, Prog.Keeps K I (fun _ => True) (setErrno e))
    (hspin : ∀ m g, I m g → K.mayHalt m g .spin) (fuel : Nat) (buf : List UInt8) :
    Prog.Keeps K I (fun _ => True) (nwrite fuel fd buf) := by
  unfold nwrite
  generalize buf.length = count
  induction fuel generalizing buf with
  | zero => exact .stop hspin
  | succ fuel ih =>
    refine .ite (fun _ => .pure trivial) fun _ => .bind (hwrite _) fun a _ => ?_
    split
    · exact .pure trivial
    · exact .bind (herrno _) fun _ _ => .pure trivial
    · exact .pure trivial
    · exact ih _

/-- What both parties do before they open a socket. -/
theorem prolog_triple (haffinity : ∀ affinity, Prog.Keeps K I (fun _ => True) (iperfSetaffinity affinity))
    (hjson : Prog.Keeps K I (fun _ => True) iperfJsonStart)
    (hversion : ∀ t, Prog.Keeps K I (fun _ => True) (reportVersion t)) {k : IperfProg Int}
    {Q : Int → Mem → G → Prop} (hfail : ∀ m g, I m g → Q (-1) m g) (hk : Prog.Triple K I k Q) :
    Prog.Triple K I (prolog k) Q := by
  have hgo : ∀ (t : IperfTest) (r : Int), Prog.Triple K I (if r < 0 then pure (-1) else do
      reportVersion t
      k) Q := fun t r =>
    .ite (fun _ => .ret hfail) fun _ => .seq (hversion t) fun _ _ => hk
  have hreport : ∀ (t : IperfTest) (r : Int),
      Prog.Triple K I (if r ≠ 0 then pure (-1) else startReport t k) Q := fun t r => by
    refine .ite (fun _ => .ret hfail) fun _ => .ite (fun _ => ?_) fun _ => hgo t 0
    exact .seq hjson fun r _ => hgo t r
  refine triple_getTest_bind fun m g _ => .ite (fun _ => ?_) fun _ => hreport m.test 0
  exact .seq (haffinity _) fun r _ => hreport m.test r

end Rules

section Sockets

variable {G : Type} {K : Contract Mem Req.Ans Halt G} {I : Mem → G → Prop} {Other : Int → Prop}
  (hp : Plumbing K I Other)

include hp

theorem sys_keeps {r : Req} (hr : r.plumbing Other) : Prog.Keeps K I (fun _ => True) (sys r) :=
  .ask fun m g hm => ⟨(hp.req m g r hm hr).1, fun a ha => ⟨trivial, (hp.req m g r hm hr).2 a ha⟩⟩

theorem setErrno_keeps (e : Errno) : Prog.Keeps K I (fun _ => True) (setErrno e) :=
  .modify fun m g hm => hp.change m _ g hm ⟨rfl, rfl, .inl rfl, .inl rfl, .inl rfl⟩

theorem setIErrno_keeps {e : IErr} (he : e ≠ .IEMESSAGE) :
    Prog.Keeps K I (fun _ => True) (setIErrno e) :=
  .modify fun m g hm => hp.change m _ g hm ⟨rfl, rfl, .inl rfl, .inl rfl, .inr he⟩

theorem fail_keeps {e : IErr} (he : e ≠ .IEMESSAGE) {Q : Int → Prop} (h₁ : Q (-1)) :
    Prog.Keeps K I Q (fail e) :=
  .bind (setIErrno_keeps hp he) fun _ _ => .pure h₁

theorem result_keeps {α : Type} {a : Except Errno α} {f : α → Int} {Q : Int → Prop} (h₁ : Q (-1))
    (hf : ∀ v, a = .ok v → Q (f v)) : Prog.Keeps K I Q (result a f) := by
  cases a with
  | error e => exact .bind (setErrno_keeps hp e) fun _ _ => .pure h₁
  | ok v => exact .pure (hf v rfl)

/-- A call that returns 0 or `-1`. -/
theorem call_keeps {α : Type} {r : IperfProg (Except Errno α)} {f : α → Int}
    (hr : Prog.Keeps K I (fun _ => True) r) :
    Prog.Keeps K I (fun _ => True) (r >>= fun a => result a f) :=
  .bind hr fun _ _ => result_keeps hp trivial fun _ _ => trivial

theorem setsockopt_keeps (fd : Int) (opt : SockOpt) (value : Int) :
    Prog.Keeps K I (fun _ => True) (setsockopt fd opt value) := call_keeps hp (sys_keeps hp trivial)

theorem sockBind_keeps (fd : Int) : Prog.Keeps K I (fun _ => True) (sockBind fd) :=
  call_keeps hp (sys_keeps hp trivial)

theorem sockListen_keeps (fd : Int) : Prog.Keeps K I (fun _ => True) (sockListen fd) :=
  call_keeps hp (sys_keeps hp trivial)

theorem sockConnect_keeps (fd : Int) : Prog.Keeps K I (fun _ => True) (sockConnect fd) := by
  refine .bind (sys_keeps hp trivial) fun a _ => ?_
  split
  · exact .pure trivial
  · exact result_keeps hp trivial fun _ _ => trivial

/-- A request whose answer may be a new descriptor. -/
theorem newFd_keeps {r : Req} (hr : r.plumbing Other) :
    Prog.Keeps K I (fun a => ∀ fd, r.newFd a = some fd → Other fd) (sys r) := .ask fun m g hm =>
  have hreq := hp.req m g r hm hr
  ⟨hreq.1, fun a ha => ⟨fun fd h => hp.fresh m g r a fd hm ha h, hreq.2 a ha⟩⟩

theorem sockSocket_keeps (family : Domain) (prot : ProtId) :
    Prog.Keeps K I Other (sockSocket family prot) :=
  .bind (newFd_keeps hp trivial) fun a ha =>
    result_keeps hp (hp.neg _ (by decide)) fun fd hfd => ha fd (by rw [hfd]; rfl)

theorem orClose_keeps {s : Int} (hs : Other s) {r k : IperfProg Int} {Q : Int → Prop}
    (hr : Prog.Keeps K I (fun _ => True) r) (h₁ : Q (-1)) (hk : Prog.Keeps K I Q k) :
    Prog.Keeps K I Q (orClose s r k) :=
  .bind hr fun _ _ => .ite (fun _ => .bind (sys_keeps hp hs) fun _ _ => .pure h₁) fun _ => hk

theorem orCloseFail_keeps {s : Int} (hs : Other s) {e : IErr} (he : e ≠ .IEMESSAGE)
    {r k : IperfProg Int} {Q : Int → Prop} (hr : Prog.Keeps K I (fun _ => True) r) (h₁ : Q (-1))
    (hk : Prog.Keeps K I Q k) : Prog.Keeps K I Q (orCloseFail s e r k) :=
  .bind hr fun _ _ => .ite (fun _ => .bind (sys_keeps hp hs) fun _ _ => fail_keeps hp he h₁)
    fun _ => hk

theorem v6only_keeps (s : Int) (domain : Domain) :
    Prog.Keeps K I (fun _ => True) (v6only s domain) :=
  .ite (fun _ => setsockopt_keeps hp _ _ _) fun _ => .ite (fun _ => setsockopt_keeps hp _ _ _)
    fun _ => .pure trivial

theorem netannounce_keeps (domain : Domain) (prot : ProtId) (loc : Option String) (port : Int) :
    Prog.Keeps K I Other (netannounce domain prot loc port) := by
  have h₁ : Other (-1) := hp.neg _ (by decide)
  refine .bind (sys_keeps hp trivial) fun res _ => ?_
  cases res with
  | none => exact .pure h₁
  | some family =>
    refine .bind (sockSocket_keeps hp family prot) fun s hs => .ite (fun _ => .pure h₁) fun _ => ?_
    refine orClose_keeps hp hs (setsockopt_keeps hp _ _ _) h₁ ?_
    refine orClose_keeps hp hs (v6only_keeps hp _ _) h₁ ?_
    refine orClose_keeps hp hs (sockBind_keeps hp _) h₁ (.ite (fun _ => ?_) fun _ => .pure hs)
    exact orClose_keeps hp hs (sockListen_keeps hp _) h₁ (.pure hs)

theorem lookupLocal_keeps (domain : Domain) (loc : Option String) :
    Prog.Keeps K I (fun _ => True) (lookupLocal domain loc) := by
  cases loc with
  | none => exact .pure trivial
  | some host => exact .bind (sys_keeps hp trivial) fun _ _ => .pure trivial

theorem bindLocal_keeps (s : Int) (loc : Option String) :
    Prog.Keeps K I (fun _ => True) (bindLocal s loc) :=
  .ite (fun _ => sockBind_keeps hp s) fun _ => .pure trivial

theorem netdial_keeps (domain : Domain) (prot : ProtId) (loc server : Option String) (port : Int) :
    Prog.Keeps K I Other (netdial domain prot loc server port) := by
  have h₁ : Other (-1) := hp.neg _ (by decide)
  refine .bind (lookupLocal_keeps hp _ _) fun _ _ => .ite (fun _ => .pure h₁) fun _ => ?_
  refine .bind (sys_keeps hp trivial) fun res _ => ?_
  cases res with
  | none => exact .pure h₁
  | some family =>
    refine .bind (sockSocket_keeps hp family prot) fun s hs => .ite (fun _ => .pure h₁) fun _ => ?_
    refine orClose_keeps hp hs (bindLocal_keeps hp _ _) h₁ ?_
    exact orClose_keeps hp hs (sockConnect_keeps hp _) h₁ (.pure hs)

theorem isClosed_keeps (fd : Int) : Prog.Keeps K I (fun _ => True) (isClosed fd) := by
  refine .bind (sys_keeps hp trivial) fun a _ => ?_
  cases a with
  | error e => exact .bind (setErrno_keeps hp e) fun _ _ => .pure trivial
  | ok v => exact .pure trivial

/-! ## Listening -/

/-- A change of the test that comes with new sockets. -/
theorem modifyTest_keeps {f : IperfTest → IperfTest} (hf : ∀ t, (f t).unplumbed = t.unplumbed)
    (hl : ∀ t, (f t).listener = t.listener ∨ Other (f t).listener)
    (hl' : ∀ t, (f t).protListener = t.protListener ∨ Other (f t).protListener) :
    Prog.Keeps K I (fun _ => True) (modifyTest f) :=
  .modify fun m g hm => hp.change m _ g hm ⟨hf _, rfl, hl _, hl' _, .inl rfl⟩

theorem optionUnlessZero_keeps (s : Int) (opt : SockOpt) (value : Int) :
    Prog.Keeps K I (fun _ => True) (optionUnlessZero s opt value) :=
  .ite (fun _ => setsockopt_keeps hp _ _ _) fun _ => .pure trivial

theorem congestionOption_keeps (s : Int) (congestion : Option String) :
    Prog.Keeps K I (fun _ => True) (congestionOption s congestion) := by
  cases congestion with
  | none => exact .pure trivial
  | some name => exact setsockopt_keeps hp _ _ _

theorem noDelayOption_keeps (s noDelay : Int) :
    Prog.Keeps K I (fun _ => True) (if noDelay ≠ 0 then setsockopt s .nodelay 1 else pure 0) :=
  .ite (fun _ => setsockopt_keeps hp _ _ _) fun _ => .pure trivial

/-- The end of the two functions that open a new listener. -/
theorem listenAs_keeps {s : Int} (hs : Other s) : Prog.Keeps K I Other (do
    let r ← sockListen s
    if r < 0 then fail .IESTREAMLISTEN else do
      modifyTest fun t => { t with listener := s }
      pure s) := by
  refine .bind (sockListen_keeps hp s) fun r _ => .ite (fun _ => ?_) fun _ => ?_
  · exact fail_keeps hp (by decide) (hp.neg _ (by decide))
  · refine .bind (modifyTest_keeps hp (fun _ => rfl) (fun _ => .inr hs) fun _ => .inl rfl) ?_
    exact fun _ _ => .pure hs

theorem iperfTcpListen_keeps : Prog.Keeps K I Other iperfTcpListen := by
  have h₁ : Other (-1) := hp.neg _ (by decide)
  have hfail : Prog.Keeps K I Other (fail .IESTREAMLISTEN) := fail_keeps hp (by decide) h₁
  refine keeps_getTest_bind fun m g hm => .ite (fun _ => ?_) fun _ => .pure (hp.listener m g hm)
  refine .bind (modifyTest_keeps hp (fun _ => rfl) (fun _ => .inl rfl) fun _ => .inl rfl) fun _ _ => ?_
  refine .bind (sys_keeps hp (hp.listener m g hm)) fun _ _ => ?_
  refine .bind (sys_keeps hp trivial) fun res _ => ?_
  cases res with
  | none => exact hfail
  | some family =>
    refine .bind (sockSocket_keeps hp _ _) fun s hs => .ite (fun _ => hfail) fun _ => ?_
    refine orCloseFail_keeps hp hs (by decide) (noDelayOption_keeps hp _ _) h₁ ?_
    refine orCloseFail_keeps hp hs (by decide) (optionUnlessZero_keeps hp _ _ _) h₁ ?_
    refine orCloseFail_keeps hp hs (by decide) (optionUnlessZero_keeps hp _ _ _) h₁ ?_
    refine orCloseFail_keeps hp hs (by decide) (optionUnlessZero_keeps hp _ _ _) h₁ ?_
    refine orCloseFail_keeps hp hs (by decide) (congestionOption_keeps hp _ _) h₁ ?_
    refine orCloseFail_keeps hp hs (by decide) (setsockopt_keeps hp _ _ _) h₁ ?_
    refine orCloseFail_keeps hp hs (by decide) (v6only_keeps hp _ _) h₁ ?_
    exact orCloseFail_keeps hp hs (by decide) (sockBind_keeps hp _) h₁ (listenAs_keeps hp hs)

theorem iperfUdpListen_keeps : Prog.Keeps K I Other iperfUdpListen := by
  refine keeps_getTest_bind fun m g hm => .bind (netannounce_keeps hp _ _ _ _) fun s hs => ?_
  refine .ite (fun _ => ?_) fun _ => .pure hs
  exact fail_keeps hp (by decide) (hp.neg _ (by decide))

theorem iperfSctpListen_keeps : Prog.Keeps K I Other iperfSctpListen := by
  have h₁ : Other (-1) := hp.neg _ (by decide)
  have hfail : Prog.Keeps K I Other (fail .IESTREAMLISTEN) := fail_keeps hp (by decide) h₁
  refine keeps_getTest_bind fun m g hm => .bind (sys_keeps hp (hp.listener m g hm)) fun _ _ => ?_
  refine .bind (sys_keeps hp trivial) fun res _ => ?_
  cases res with
  | none => exact hfail
  | some family =>
    refine .bind (sockSocket_keeps hp _ _) fun s hs => .ite (fun _ => hfail) fun _ => ?_
    refine orCloseFail_keeps hp hs (by decide) (v6only_keeps hp _ _) h₁ ?_
    refine orCloseFail_keeps hp hs (by decide) (setsockopt_keeps hp _ _ _) h₁ ?_
    exact orCloseFail_keeps hp hs (by decide) (sockBind_keeps hp _) h₁ (listenAs_keeps hp hs)

theorem protocolListen_keeps (prot : ProtId) : Prog.Keeps K I Other (protocolListen prot) := by
  cases prot with
  | tcp => exact iperfTcpListen_keeps hp
  | udp => exact iperfUdpListen_keeps hp
  | sctp => exact iperfSctpListen_keeps hp

theorem announceListener_keeps : Prog.Keeps K I Other announceListener := by
  refine keeps_getTest_bind fun m g hm => .bind (netannounce_keeps hp _ _ _ _) fun s hs => ?_
  refine .bind (modifyTest_keeps hp (fun _ => rfl) (fun _ => .inr hs) fun _ => .inl rfl) ?_
  exact fun _ _ => .pure hs

theorem replaceListener_keeps : Prog.Keeps K I (fun _ => True) replaceListener := by
  refine keeps_getTest_bind fun m g hm => .ite (fun _ => ?_) fun _ => .ite (fun _ => ?_) fun _ =>
    .pure trivial
  · refine .bind (modifyTest_keeps hp (fun _ => rfl) (fun _ => .inl rfl) fun _ => .inl rfl) ?_
    exact fun _ _ => .bind (sys_keeps hp (hp.protListener m g hm)) fun _ _ => .pure trivial
  · refine .bind (modifyTest_keeps hp (fun _ => rfl) (fun _ => .inl rfl) fun _ => .inl rfl) ?_
    refine fun _ _ => .bind (sys_keeps hp (hp.listener m g hm)) fun _ _ => ?_
    refine .bind (netannounce_keeps hp _ _ _ _) fun s hs => .ite (fun _ => .pure trivial) fun _ => ?_
    refine .bind (modifyTest_keeps hp (fun _ => rfl) (fun _ => .inr hs) fun _ => .inl rfl) ?_
    exact fun _ _ => .pure trivial

theorem iperfUdpAccept_keeps : Prog.Keeps K I Other iperfUdpAccept := by
  have hfail : ∀ e : IErr, e ≠ .IEMESSAGE → Prog.Keeps K I Other (fail e) := fun e he =>
    fail_keeps hp he (hp.neg _ (by decide))
  refine keeps_getTest_bind fun m g hm => ?_
  have hs := hp.protListener m g hm
  refine .bind (sys_keeps hp trivial) fun a _ => ?_
  refine .bind (result_keeps (Q := fun _ => True) hp trivial fun _ _ => trivial) fun sz _ => ?_
  refine .ite (fun _ => hfail _ nofun) fun _ => .bind (sys_keeps hp trivial) fun a _ => ?_
  refine .bind (result_keeps (Q := fun _ => True) hp trivial fun _ _ => trivial) fun r _ => ?_
  refine .ite (fun _ => hfail _ nofun) fun _ => .bind (netannounce_keeps hp _ _ _ _) fun fd hfd => ?_
  refine .bind (modifyTest_keeps hp (fun _ => rfl) (fun _ => .inl rfl) fun _ => .inr hfd) fun _ _ => ?_
  refine .ite (fun _ => hfail _ nofun) fun _ => ?_
  refine .bind (modifyTest_keeps hp (fun _ => rfl) (fun _ => .inl rfl) fun _ => .inl rfl) fun _ _ => ?_
  refine .bind (sys_keeps hp hs) fun a _ => ?_
  refine .bind (result_keeps (Q := fun _ => True) hp trivial fun _ _ => trivial) fun r _ => ?_
  exact .ite (fun _ => hfail _ nofun) fun _ => .pure hs

/-! ## Streams -/

/-- `Nwrite` on a descriptor that may be written to. -/
theorem nwriteOther_keeps {fd : Int} (hfd : Other fd) (fuel : Nat) (buf : List UInt8) :
    Prog.Keeps K I (fun _ => True) (nwrite fuel fd buf) :=
  nwrite_keeps (fun _ => sys_keeps hp hfd) (setErrno_keeps hp)
    (fun m g hm => hp.halt m g _ hm nofun) fuel buf

theorem streamSocket_keeps (t : IperfTest) (prot : ProtId) {k : Domain → Int → IperfProg Int}
    (hk : ∀ family s, Other s → Prog.Keeps K I Other (k family s)) :
    Prog.Keeps K I Other (streamSocket t prot k) := by
  have hfail : Prog.Keeps K I Other (fail .IESTREAMCONNECT) :=
    fail_keeps hp (by decide) (hp.neg _ (by decide))
  refine .bind (lookupLocal_keeps hp _ _) fun _ _ => .ite (fun _ => hfail) fun _ => ?_
  refine .bind (sys_keeps hp trivial) fun res _ => ?_
  cases res with
  | none => exact hfail
  | some family =>
    exact .bind (sockSocket_keeps hp _ _) fun s hs => .ite (fun _ => hfail) fun _ => hk family s hs

theorem flowlabelOption_keeps (s : Int) (family : Domain) (flowlabel : Int) :
    Prog.Keeps K I (fun _ => True) (flowlabelOption s family flowlabel) := by
  refine .ite (fun _ => .ite (fun _ => .pure trivial) fun _ => ?_) fun _ => .pure trivial
  refine .bind (setsockopt_keeps hp _ _ _) fun _ _ => .ite (fun _ => .pure trivial) fun _ => ?_
  exact setsockopt_keeps hp _ _ _

theorem iperfTcpConnect_keeps (fuel : Nat) : Prog.Keeps K I Other (iperfTcpConnect fuel) := by
  have h₁ : Other (-1) := hp.neg _ (by decide)
  refine keeps_getTest_bind fun m g _ => streamSocket_keeps hp _ _ fun family s hs => ?_
  refine orCloseFail_keeps hp hs (by decide) (bindLocal_keeps hp _ _) h₁ ?_
  refine orCloseFail_keeps hp hs (by decide) (noDelayOption_keeps hp _ _) h₁ ?_
  refine orCloseFail_keeps hp hs (by decide) (optionUnlessZero_keeps hp _ _ _) h₁ ?_
  refine orCloseFail_keeps hp hs (by decide) (optionUnlessZero_keeps hp _ _ _) h₁ ?_
  refine orCloseFail_keeps hp hs (by decide) (optionUnlessZero_keeps hp _ _ _) h₁ ?_
  refine orCloseFail_keeps hp hs (by decide) (flowlabelOption_keeps hp _ _ _) h₁ ?_
  refine orCloseFail_keeps hp hs (by decide) (congestionOption_keeps hp _ _) h₁ ?_
  refine orCloseFail_keeps hp hs (by decide) (sockConnect_keeps hp _) h₁ ?_
  exact orCloseFail_keeps hp hs (by decide) (nwriteOther_keeps hp hs _ _) h₁ (.pure hs)

theorem iperfSctpConnect_keeps (fuel : Nat) : Prog.Keeps K I Other (iperfSctpConnect fuel) := by
  have h₁ : Other (-1) := hp.neg _ (by decide)
  refine keeps_getTest_bind fun m g _ => streamSocket_keeps hp _ _ fun family s hs => ?_
  refine orCloseFail_keeps hp hs (by decide) (sockConnect_keeps hp _) h₁ ?_
  refine orCloseFail_keeps hp hs (by decide) (nwriteOther_keeps hp hs _ _) h₁ ?_
  exact orCloseFail_keeps hp hs (by decide) (setsockopt_keeps hp _ _ _) h₁ (.pure hs)

theorem iperfUdpConnect_keeps : Prog.Keeps K I Other iperfUdpConnect := by
  have hfail : ∀ e : IErr, e ≠ .IEMESSAGE → Prog.Keeps K I Other (fail e) := fun e he =>
    fail_keeps hp he (hp.neg _ (by decide))
  refine keeps_getTest_bind fun m g _ => .bind (netdial_keeps hp _ _ _ _ _) fun s hs => ?_
  refine .ite (fun _ => hfail _ nofun) fun _ => .bind (sys_keeps hp hs) fun a _ => ?_
  refine .bind (result_keeps (Q := fun _ => True) hp trivial fun _ _ => trivial) fun r _ => ?_
  refine .ite (fun _ => hfail _ nofun) fun _ => .bind (sys_keeps hp trivial) fun a _ => ?_
  refine .bind (result_keeps (Q := fun _ => True) hp trivial fun _ _ => trivial) fun r _ => ?_
  exact .ite (fun _ => hfail _ nofun) fun _ => .pure hs

theorem protocolConnect_keeps (fuel : Nat) (prot : ProtId) :
    Prog.Keeps K I Other (protocolConnect fuel prot) := by
  cases prot with
  | tcp => exact iperfTcpConnect_keeps hp fuel
  | udp => exact iperfUdpConnect_keeps hp
  | sctp => exact iperfSctpConnect_keeps hp fuel

theorem streamTos_keeps (s tos : Int) : Prog.Keeps K I (fun _ => True) (streamTos s tos) := by
  refine .ite (fun _ => .bind (sys_keeps hp trivial) fun family _ => ?_) fun _ => .pure trivial
  refine .ite (fun _ => ?_) fun _ => ?_
  all_goals
    refine .bind (setsockopt_keeps hp _ _ _) fun _ _ => ?_
    exact .ite (fun _ => fail_keeps hp (by decide) trivial) fun _ => .pure trivial

theorem iperfInitStream_keeps (s : Int) : Prog.Keeps K I (fun _ => True) (iperfInitStream s) := by
  refine keeps_getTest_bind fun m g _ => .bind (sys_keeps hp trivial) fun a _ => ?_
  refine .bind (result_keeps (Q := fun _ => True) hp trivial fun _ _ => trivial) fun r _ => ?_
  refine .ite (fun _ => fail_keeps hp (by decide) trivial) fun _ => .bind (sys_keeps hp trivial) fun a _ => ?_
  refine .bind (result_keeps (Q := fun _ => True) hp trivial fun _ _ => trivial) fun r _ => ?_
  exact .ite (fun _ => fail_keeps hp (by decide) trivial) fun _ => streamTos_keeps hp _ _

theorem orErrexit_triple {α : Type} {a : Except Errno α} {message : String}
    {k : α → IperfProg Bool} {Q : Bool → Mem → G → Prop}
    (hk : ∀ v, a = .ok v → Prog.Triple K I (k v) Q) : Prog.Triple K I (orErrexit a message k) Q := by
  cases a with
  | error e =>
    refine .seq (setErrno_keeps hp e) fun _ _ => .seq (setIErrno_keeps hp (by decide)) fun _ _ => ?_
    refine .seq (sys_keeps hp id) fun _ _ => ?_
    exact fun m g hm => hp.halt m g _ hm nofun
  | ok v => exact hk v rfl

/-- The end of `iperf_new_stream`: either nothing has happened, or the stream is added. -/
theorem finishStream_triple {s bufferFd diskfileFd : Int} (hb : Other bufferFd)
    (hd : Other diskfileFd) (buffer : List UInt8) {Q : Bool → Mem → G → Prop}
    (hfalse : ∀ m g, I m g → Q false m g)
    (hadd : ∀ f : IperfTest → IperfStream, (∀ t, (f t).socket = s ∧ Other (f t).diskfileFd) →
      Prog.Triple K I (modifyTest fun t => iperfAddStream (f t) t) fun _ => Q true) :
    Prog.Triple K I (finishStream s bufferFd diskfileFd buffer) Q := by
  refine .seq (iperfInitStream_keeps hp s) fun r _ => .ite (fun _ => ?_) fun _ => ?_
  · refine triple_getTest_bind fun m g _ => .seq (sys_keeps hp hb) fun _ _ => ?_
    exact .seq (sys_keeps hp trivial) fun _ _ => .ret hfalse
  · exact .bind (hadd _ fun _ => ⟨rfl, hd⟩) fun _ => .ret fun _ _ h => h

/-- `iperf_new_stream`: either nothing has happened, or a stream for the socket `s` is added. -/
theorem iperfNewStream_triple {s : Int} {Q : Bool → Mem → G → Prop}
    (hfalse : ∀ m g, I m g → Q false m g)
    (hadd : ∀ f : IperfTest → IperfStream, (∀ t, (f t).socket = s ∧ Other (f t).diskfileFd) →
      Prog.Triple K I (modifyTest fun t => iperfAddStream (f t) t) fun _ => Q true) :
    Prog.Triple K I (iperfNewStream s) Q := by
  have hexit : ∀ message, Prog.Triple K I (iperfErrexit message) Q := fun message =>
    .seq (sys_keeps hp id) fun _ _ m g hm => hp.halt m g _ hm nofun
  refine triple_getTest_bind fun m g _ => .seq (sys_keeps hp trivial) fun _ _ => ?_
  refine .ite (fun _ => hexit _) fun _ => .seq (sys_keeps hp trivial) fun _ _ => ?_
  refine .ite (fun _ => .seq (setIErrno_keeps hp (by decide)) fun _ _ => hexit _) fun _ => ?_
  refine .seq (newFd_keeps hp trivial) fun a ha => orErrexit_triple hp fun bufferFd hb => ?_
  have hb : Other bufferFd := ha bufferFd (by rw [hb]; rfl)
  refine .seq (sys_keeps hp trivial) fun _ _ => orErrexit_triple hp fun _ _ => ?_
  refine .seq (sys_keeps hp trivial) fun _ _ => orErrexit_triple hp fun _ _ => ?_
  refine .seq (sys_keeps hp trivial) fun _ _ => orErrexit_triple hp fun _ _ => ?_
  refine .seq (sys_keeps hp trivial) fun buffer _ => ?_
  cases m.test.diskfileName with
  | none =>
    exact finishStream_triple hp hb (hp.neg _ (by decide)) buffer hfalse hadd
  | some name =>
    refine .seq (newFd_keeps hp trivial) fun a' ha' => ?_
    refine .seq (result_keeps hp (hp.neg _ (by decide)) fun fd h => ha' fd (by rw [h]; rfl)) ?_
    refine fun fd hfd => .ite (fun _ => ?_) fun _ => ?_
    · refine .seq (setIErrno_keeps hp (by decide)) fun _ _ => ?_
      exact .seq (sys_keeps hp trivial) fun _ _ => .ret hfalse
    · exact finishStream_triple hp hb hfd buffer hfalse hadd

end Sockets

end Iperf
