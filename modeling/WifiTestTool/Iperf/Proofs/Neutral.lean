import WifiTestTool.Iperf.Proofs.Measurement

/-!
# What the measurement leaves alone

Sending and receiving data, the statistics, the reports and the timers change the counters of a test,
its descriptor sets and its timers, and nothing else. The rest of a test is its `core`. The functions
of the measurement keep it, they read and write nothing but the sockets and the files of the streams,
and they do not touch an empty list of streams unless a sum or a summary has to be printed.
-/

namespace Iperf

open Dll (Addr)
open Reactive

/-- The program keeps a property `P` of the core of the test. -/
def Neutral {α : Type} (P : IperfTest × List StreamCore → Prop) (N : Req → Prop) (H : Halt → Prop)
    (p : IperfProg α) : Prop :=
  p.Stays (fun m => P m.test.core) N H

/-- The bounds `N` and `H` leave room for the measurement of a test whose core has the property `P`. -/
structure Harmless (P : IperfTest × List StreamCore → Prop) (N : Req → Prop) (H : Halt → Prop) :
    Prop where
  req : ∀ r, Req.harmless [] r → N r
  onFds : ∀ c r, P c → Req.harmless c.2 r → N r
  stop : ∀ h, h ≠ .emptyStreams → H h
  empty : ∀ c, P c → lacksStream c → H .emptyStreams
  state : ∀ c c', P c → P c' → H .emptyStreams ∨ c.1.state = c'.1.state

/-- The measurement of a test whose core is `c`. -/
theorem harmless_at (c : IperfTest × List StreamCore) :
    Harmless (· = c) (Req.harmless c.2) fun h => h = .emptyStreams → lacksStream c where
  req := fun r hr => Req.harmless_mono hr nofun
  onFds := fun c' r hc hr => hc ▸ hr
  stop := fun h hne he => absurd he hne
  empty := fun c' hc hl _ => hc ▸ hl
  state := fun c₁ c₂ h₁ h₂ => .inr (by rw [h₁, h₂])

/-- The program measures: whatever the core of the test is, it does not interfere with it. -/
def Measures {α : Type} (p : IperfProg α) : Prop := ∀ P N H, Harmless P N H → Neutral P N H p

/-! ## Results of the other side -/

theorem takeResult_core (sender : Bool) (r : RemoteResult) (st : IperfStream) :
    (st.takeResult sender r).core = st.core := by
  cases sender <;> rfl

theorem takeStreamResults_core (js : List Json) (t : IperfTest) (e : Option IErr) :
    (takeStreamResults js (t, e)).1.core = t.core := by
  induction js generalizing t e with
  | nil => rfl
  | cons j js ih =>
    simp only [takeStreamResults]
    split
    · exact ih _ _
    · split
      · exact ih _ _
      · exact (ih _ _).trans (core_modifyStream t _ (takeResult_core _ _))

/-- The results of the other side do not touch the core of a test. -/
theorem takeResults_core (j : Json) (t : IperfTest) : (takeResults j t).1.core = t.core := by
  unfold takeResults
  split
  · cases cJSON_GetObjectItem j "streams" with
    | none =>
      dsimp only
      split <;> rfl
    | some streams =>
      refine (takeStreamResults_core _ _ _).trans ?_
      dsimp only
      split <;> rfl
  · rfl

/-! ## The measurement -/

section Measurement

variable {α β : Type} {P : IperfTest × List StreamCore → Prop} {N : Req → Prop} {H : Halt → Prop}
  (hh : Harmless P N H)

/-- A change that does not touch the core of the test. -/
theorem neutral_modifyTest {f : IperfTest → IperfTest} (hf : ∀ t, (f t).core = t.core) :
    Neutral P N H (modifyTest f) := (Prog.stays_modify _).2 fun m hm => by
  show P (f m.test).core
  rw [hf]
  exact hm

include hh

/-- The check of the throttle touches a light and the write set only. -/
theorem iperfCheckThrottle_neutral (sp : Nat) (now : Timeval) :
    Neutral P N H (iperfCheckThrottle sp now) := by
  refine Steady.getTest_bind fun t _ => .ite (fun _ => .pure _) fun _ => ?_
  refine .getStream_bind (hh.stop _ nofun) fun st _ => .ite (fun _ => ?_) fun _ => ?_
  all_goals
    refine .bind (neutral_modifyTest fun t => ?_) fun _ => neutral_modifyTest fun _ => rfl
    exact core_modifyStream t sp fun _ => rfl

/-- What concerns only the core of the test is indifferent to the measurement. -/
theorem Harmless.indifferent : Indifferent (fun m => P m.test.core) N H where
  req := hh.req
  onFds := fun m => hh.onFds m.test.core
  stop := hh.stop
  empty := fun m => hh.empty m.test.core
  state := fun m m' => hh.state m.test.core m'.test.core
  change := fun m m' hm ht _ => by
    have hcore : m'.test.core = m.test.core := congrArg (fun v => v.1.1) ht
    rw [hcore]
    exact hm
  handles := fun m m' hm ht _ => by
    have hcore : m'.test.core = m.test.core := congrArg Prod.fst ht
    rw [hcore]
    exact hm
  timers := fun _ _ _ _ hm' _ => hm'
  throttle := fun _ sp now _ _ => iperfCheckThrottle_neutral hh sp now

theorem diskfileSend_neutral (fuel sp : Nat) : Neutral P N H (diskfileSend fuel sp) :=
  diskfileSend_steady hh.indifferent fuel sp

theorem streamSnd_neutral (fuel sp : Nat) : Neutral P N H (streamSnd fuel sp) :=
  streamSnd_steady hh.indifferent fuel sp

theorem iperfSend_neutral (fuel : Nat) (writeSet : Option FdSet) : Neutral P N H (iperfSend fuel writeSet) :=
  iperfSend_steady hh.indifferent fuel writeSet

theorem iperfRecv_neutral (fuel : Nat) (readSet : FdSet) : Neutral P N H (iperfRecv fuel readSet) :=
  iperfRecv_steady hh.indifferent fuel readSet

theorem iperfStatsCallback_neutral : Neutral P N H iperfStatsCallback :=
  iperfStatsCallback_steady hh.indifferent

theorem iperfReporterCallback_neutral : Neutral P N H iperfReporterCallback :=
  iperfReporterCallback_steady hh.indifferent

theorem gettimeofday_neutral : Neutral P N H gettimeofday :=
  gettimeofday_steady hh.indifferent

theorem runTimers_neutral (fuel : Nat) : Neutral P N H (runTimers fuel) :=
  runTimers_steady hh.indifferent fuel

theorem getTimeout_neutral (now : Timeval) : Neutral P N H (getTimeout now) :=
  getTimeout_steady hh.indifferent now

theorem createServerTimers_neutral : Neutral P N H createServerTimers :=
  createServerTimers_steady hh.indifferent

theorem createOmitTimer_neutral : Neutral P N H createOmitTimer :=
  createOmitTimer_steady hh.indifferent

theorem cancelHandle_neutral (handle : Option Addr) : Neutral P N H (cancelHandle handle) :=
  cancelHandle_steady hh.indifferent handle

theorem iperfOnConnect_neutral : Neutral P N H iperfOnConnect :=
  iperfOnConnect_steady hh.indifferent

theorem iperfInitTest_neutral : Neutral P N H iperfInitTest :=
  iperfInitTest_steady hh.indifferent

theorem iperfSetaffinity_neutral (affinity : Int) : Neutral P N H (iperfSetaffinity affinity) :=
  iperfSetaffinity_steady hh.indifferent affinity

theorem iperfClearaffinity_neutral : Neutral P N H iperfClearaffinity :=
  iperfClearaffinity_steady hh.indifferent

theorem updateCpuUtil_neutral : Neutral P N H updateCpuUtil :=
  updateCpuUtil_steady hh.indifferent

theorem iperfJsonFinish_neutral : Neutral P N H iperfJsonFinish :=
  iperfJsonFinish_steady hh.indifferent

theorem iperfJsonStart_neutral : Neutral P N H iperfJsonStart :=
  iperfJsonStart_steady hh.indifferent

theorem reportVersion_neutral (t : IperfTest) : Neutral P N H (reportVersion t) :=
  reportVersion_steady hh.indifferent t

theorem createSendTimer_neutral (sp : Nat) : Neutral P N H (createSendTimer sp) := by
  have hi := hh.indifferent
  refine Steady.bind (neutral_modifyTest fun t => core_modifyStream t sp fun _ => rfl) fun _ => ?_
  refine .getTest_bind fun _ _ => .ite (fun _ => .bind (gettimeofday_steady hi) fun now => ?_) fun _ => .pure _
  refine .bind (createTimer_steady hi (fun _ _ _ _ hm' _ => hm') now _ _) fun handle => ?_
  refine .bind (neutral_modifyTest fun t => core_modifyStream t sp fun _ => rfl) fun _ => .ite (fun _ => ?_) fun _ => .pure _
  exact .bind (.setIErrno hi.toCountIndifferent _) fun _ => .pure _

theorem iperfCreateSendTimers_neutral : Neutral P N H iperfCreateSendTimers :=
  withTime_steady hh.indifferent fun _ => .bind .allStreams fun sps =>
    .bind (.forStreams (createSendTimer_neutral hh) sps) fun _ => .pure _

theorem cancelTimer_neutral {handle : IperfTest → Option Addr} {clear : IperfTest → IperfTest}
    (hc : ∀ t, (clear t).core = t.core) : Neutral P N H (cancelTimer handle clear) :=
  Steady.getTest_bind fun _ _ => .bind (cancelHandle_steady hh.indifferent _) fun _ => neutral_modifyTest hc

end Measurement

end Iperf
