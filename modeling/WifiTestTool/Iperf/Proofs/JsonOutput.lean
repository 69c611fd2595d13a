import WifiTestTool.Iperf.Proofs.CallRuns
import WifiTestTool.Iperf.Proofs.Measurement

/-!
# What a test with JSON output prints

The five functions that report, called in any order, with whatever the rest of the program does to the test
in between. With `json_output` all that they have to say goes into the JSON report, except for one line:
`print_interval_results` calls `iprintf` for a TCP sender with retransmits in either case.
-/

namespace Iperf

open Reactive

/-- Output that is an item of the trees `json_start`, `json_intervals` and `json_end`, or an error message. -/
def Output.inReport : Output → Prop
  | .json parent _ _ => parent ≠ .top
  | .err _ => True
  | .iprintf _ _ => False
  | .jsonFinish => False

/-- The functions that report. -/
inductive ReportCall where
  | onConnect
  | onNewStream (socket : Int)
  | onTestStart
  | stats
  | reporter
deriving DecidableEq

/-- The function that is called. -/
def ReportCall.prog : ReportCall → IperfProg Unit
  | onConnect => iperfOnConnect
  | onNewStream socket => connectMsg socket
  | onTestStart => iperfOnTestStart
  | stats => iperfStatsCallback
  | reporter => iperfReporterCallback

/-- A call, and what the rest of the program does to the test in front of it. -/
structure ReportStep where
  change : IperfTest → IperfTest
  keepsMode : ∀ t, (change t).jsonOutput = t.jsonOutput
  call : ReportCall

/-- A sequence of calls. -/
def reportRun : List ReportStep → IperfProg Unit
  | [] => pure ()
  | step :: steps => do
    modifyTest step.change
    step.call.prog
    reportRun steps

theorem reportRun_append (pre post : List ReportStep) :
    reportRun (pre ++ post) = reportRun pre >>= fun _ => reportRun post := by
  induction pre with
  | nil => rfl
  | cons step pre ih =>
    show (modifyTest step.change >>= fun _ => step.call.prog >>= fun _ => reportRun (pre ++ post)) =
      (modifyTest step.change >>= fun _ => step.call.prog >>= fun _ => reportRun pre) >>= fun _ => reportRun post
    rw [ih, Prog.bind_assoc]
    refine congrArg _ (funext fun _ => ?_)
    rw [Prog.bind_assoc]

/-- The observer who writes down all output. -/
def outputObserver : Observer (List Output) where
  notes printed r _ := match r with
    | .output o => printed ++ [o]
    | _ => printed
  allows _ _ _ _ := True

/-- Whatever the system answers, all output of the program is part of the JSON report. -/
def OnlyReports (m : Mem) (p : IperfProg Unit) : Prop :=
  ∀ c, Goes outputObserver m [] p c → ∀ o ∈ c.2.2, o.inReport

/-- The reporter, called for this test, comes to a line about the retransmits of a TCP sender. -/
structure ReportsRetransmits (t : IperfTest) : Prop where
  running : t.state = TestState.TEST_RUNNING ∨ t.state = TestState.STREAM_RUNNING ∨
    t.state = TestState.DISPLAY_RESULTS
  bytes : isByteProtocol t.protocol = true
  retransmits : (t.sender && t.senderHasRetransmits ≠ 0) = true
  interval : ∃ st irp, t.streams[0]? = some st ∧ st.result.intervalResults.getLast? = some irp

/-! ## The requests of a test with JSON output -/

/-- A request that prints nothing, or something that is part of the JSON report. -/
def Req.reports : Req → Prop
  | .output o => o.inReport
  | _ => True

/-- A test with JSON output of which `A` holds. -/
def JsonTest (A : IperfTest → Prop) (m : Mem) : Prop := m.test.jsonOutput = true ∧ A m.test

/-- As long as the test has JSON output and `A` holds of it, the program prints nothing else. -/
abbrev Reports {α : Type} (A : IperfTest → Prop) (p : IperfProg α) : Prop :=
  Steady (JsonTest A) Req.reports (fun _ => True) p

section Reports

variable {α β : Type} {A : IperfTest → Prop}

theorem reports_item {parent : JsonNode} (h : parent ≠ .top) (name : String) (fields : List (String × Arg)) :
    Reports A (sys (.output (.json parent name fields))) := .sys h

theorem reports_err (message : String) : Reports A (iperfErr message) := .sys trivial

theorem reports_report {json : Bool} (hjson : json = true) {parent : JsonNode} (h : parent ≠ .top)
    (name : String) (fields : List (String × Arg)) (fmt : Format) (args : List Arg) :
    Reports A (report json parent name fields fmt args) :=
  .ite (fun _ => reports_item h name fields) fun hnot => absurd hjson hnot

theorem reports_getTest {f : IperfTest → IperfProg β} (hf : ∀ t, t.jsonOutput = true → A t → Reports A (f t)) :
    Reports A (getTest >>= f) := by
  refine .getTest_bind ?_
  rintro t ⟨m, hm, rfl⟩
  exact hf m.test hm.1 hm.2

theorem reports_getStream {sp : Nat} {f : IperfStream → IperfProg β}
    (hf : ∀ t st, A t → t.streams[sp]? = some st → Reports A (f st)) : Reports A (getStream sp >>= f) := by
  refine .getStream_bind trivial ?_
  rintro st ⟨m, hm, hst⟩
  exact hf m.test st hm.2 hst

theorem reports_modifyStream {sp : Nat} {f : IperfStream → IperfStream} :
    Reports (fun _ => True) (modifyStream sp f) :=
  (Prog.stays_modify _).2 fun _ hm => ⟨hm.1, trivial⟩

theorem reports_gettimeofday : Reports A gettimeofday := by
  refine .bind (.sys trivial) fun a => ?_
  cases a with
  | ok now => exact .pure _
  | error e => exact .bind ((Prog.stays_modify _).2 fun _ hm => hm) fun _ => .pure _

end Reports

/-! ## The functions that report -/

theorem reports_reportMss {A : IperfTest → Prop} (t : IperfTest) {given byDefault : Int → IperfProg Unit}
    (hg : ∀ mss, Reports A (given mss)) (hd : ∀ mss, Reports A (byDefault mss)) :
    Reports A (reportMss t given byDefault) :=
  .ite (fun _ => .ite (fun _ => hg _) fun _ => .bind (.sys trivial) hd) fun _ => .pure _

theorem reports_onConnect : Reports (fun _ => True) iperfOnConnect := by
  refine reports_getTest fun t hjson _ => ?_
  have htime : Reports (fun _ => True) (reportTime t) :=
    .ite (fun _ => reports_item (by simp) _ _) fun h => absurd hjson h
  have hpeer : Reports (fun _ => True) (reportPeer t) := by
    refine .ite (fun _ => .ite (fun _ => reports_item (by simp) _ _) fun h => absurd hjson h) fun _ => ?_
    refine .bind (.sys trivial) fun _ => .bind (.sys trivial) fun _ => ?_
    exact .ite (fun _ => reports_item (by simp) _ _) fun h => absurd hjson h
  have hcookie : Reports (fun _ => True) (reportCookie t) := by
    refine .ite (fun _ => .bind (reports_item (by simp) _ _) fun _ => ?_) fun h => absurd hjson h
    exact reports_reportMss t (fun _ => reports_item (by simp) _ _) fun _ => reports_item (by simp) _ _
  exact .bind htime fun _ => .bind hpeer fun _ => hcookie

theorem reports_onNewStream (socket : Int) : Reports (fun _ => True) (connectMsg socket) := by
  refine reports_getTest fun t hjson _ => .bind (.sys trivial) fun _ => ?_
  exact .ite (fun _ => reports_item (by simp) _ _) fun h => absurd hjson h

theorem reports_onTestStart : Reports (fun _ => True) iperfOnTestStart :=
  reports_getTest fun _ hjson _ => .ite (fun _ => reports_item (by simp) _ _) fun h => absurd hjson h

theorem reports_saveTcpinfo (socket : Int) (info : TcpInfo) :
    Reports (fun _ => True) (saveTcpinfo socket info) := by
  refine .bind (.sys trivial) fun a => ?_
  cases a with
  | ok info => exact .pure _
  | error e =>
    refine .bind ((Prog.stays_modify _).2 fun _ hm => hm) fun _ => ?_
    exact .bind (reports_err _) fun _ => .pure _

theorem reports_stats : Reports (fun _ => True) iperfStatsCallback := by
  have hstreams : ∀ sps temp, Reports (fun _ => True) (statsStreams sps temp) := by
    intro sps
    induction sps with
    | nil => exact fun _ => .pure _
    | cons sp sps ih =>
      intro temp
      refine reports_getTest fun t _ _ => reports_getStream fun _ st _ _ => ?_
      refine .bind reports_gettimeofday fun endTime => .ite (fun _ => ?_) fun _ => ?_
      · refine .bind (reports_saveTcpinfo _ _) fun info => .ite (fun _ => ?_) fun _ => ?_
        · exact .bind reports_modifyStream fun _ => .bind reports_modifyStream fun _ => ih _
        · exact .bind reports_modifyStream fun _ => ih _
      · exact .bind reports_modifyStream fun _ => ih _
  exact reports_getTest fun _ _ _ => .bind (.sys trivial) fun _ => .bind .allStreams fun sps => hstreams sps _

/-! ### The reporter -/

/-- The test is not that of a TCP sender with retransmits. -/
def noRetransmits (t : IperfTest) : Prop :=
  (isByteProtocol t.protocol && (t.sender && t.senderHasRetransmits ≠ 0)) = false

/-- The first stream has no interval yet. -/
def noInterval (t : IperfTest) : Prop :=
  ∀ st, t.streams[0]? = some st → st.result.intervalResults.getLast? = none

section Reporter

variable {A : IperfTest → Prop}

theorem reports_allStreams {β : Type} {f : List Nat → IperfProg β}
    (hf : ∀ n, Reports A (f (List.range n))) : Reports A (allStreams >>= f) := by
  unfold allStreams
  rw [Prog.bind_assoc]
  exact reports_getTest fun t _ _ => hf _

theorem reports_intervalLine {t : IperfTest} (hjson : t.jsonOutput = true) (hquiet : noRetransmits t)
    (st : IperfStream) (irp : IperfIntervalResults) : Reports A (printIntervalLine t st irp) := by
  unfold noRetransmits at hquiet
  refine .ite (fun hbytes => .ite (fun hretrans => ?_) fun _ => ?_) fun _ => .ite (fun _ => ?_) fun _ => ?_
  · rw [hbytes, hretrans] at hquiet
    exact absurd hquiet (by simp)
  all_goals exact reports_report hjson (by simp) _ _ _ _

theorem reports_intervalSum {t : IperfTest} (hjson : t.jsonOutput = true) (a : IntervalSum)
    (st : IperfStream) (irp : IperfIntervalResults) : Reports A (printIntervalSum t a st irp) := by
  refine .ite (fun _ => .ite (fun _ => ?_) fun _ => ?_) fun _ => .ite (fun _ => ?_) fun _ => ?_
  all_goals exact reports_report hjson (by simp) _ _ _ _

theorem reports_jsonIntervalObjects (t : IperfTest) : Reports A (jsonIntervalObjects t) := by
  refine .ite (fun _ => .bind (.sys trivial) fun ok => .ite (fun _ => .pure _) fun _ => ?_) fun _ => .pure _
  refine .bind (reports_item (by simp) _ _) fun _ => .bind (.sys trivial) fun ok => ?_
  exact .ite (fun _ => .pure _) fun _ => .bind (reports_item (by simp) _ _) fun _ => .pure _

/-- Where there are no retransmits to report, every line of an interval goes into the report. -/
theorem reports_intervalResults (sp : Nat) : Reports noRetransmits (printIntervalResults sp) := by
  refine reports_getTest fun t hjson hquiet => reports_getStream fun _ st _ _ => ?_
  cases st.result.intervalResults.getLast? with
  | none => exact reports_err _
  | some irp =>
    refine .guard (fun h => ?_) (reports_intervalLine hjson hquiet st irp)
    rw [hjson] at h
    exact absurd h (by simp)

theorem reports_sumIntervals (sps : List Nat) (a : IntervalSum) :
    Reports noRetransmits (sumIntervals sps a) := by
  induction sps generalizing a with
  | nil => exact .pure _
  | cons sp sps ih =>
    refine .bind (reports_intervalResults sp) fun _ => reports_getTest fun t _ _ => ?_
    refine reports_getStream fun _ st _ _ => ?_
    cases st.result.intervalResults.getLast? with
    | none => exact .bind (reports_err _) fun _ => .pure _
    | some irp => exact .ite (fun _ => .ite (fun _ => ih _) fun _ => ih _) fun _ => ih _

/-- Where the first stream has no interval, no line comes up at all. -/
theorem reports_sumIntervals_none (n : Nat) (a : IntervalSum) :
    Reports noInterval (sumIntervals (List.range n) a) := by
  cases n with
  | zero => exact .pure _
  | succ n =>
    rw [List.range_succ_eq_map]
    have hfirst : Reports noInterval (printIntervalResults 0) := by
      refine reports_getTest fun t _ _ => reports_getStream fun t' st hnone hst => ?_
      rw [hnone st hst]
      exact reports_err _
    refine .bind hfirst fun _ => reports_getTest fun t _ _ => reports_getStream fun t' st hnone hst => ?_
    rw [hnone st hst]
    exact .bind (reports_err _) fun _ => .pure _

theorem reports_intermediate (hsum : ∀ n a, Reports A (sumIntervals (List.range n) a)) :
    Reports A iperfPrintIntermediate := by
  refine reports_getTest fun t hjson _ => .bind (reports_jsonIntervalObjects t) fun ok => ?_
  refine .ite (fun _ => .pure _) fun _ => reports_allStreams fun n => .bind (hsum n _) fun a => ?_
  cases a with
  | none => exact .pure _
  | some a =>
    refine .ite (fun _ => ?_) fun _ => .pure _
    cases t.streams.head? with
    | none => exact .stop trivial
    | some st =>
      dsimp only
      cases st.result.intervalResults.getLast? with
      | none => exact .stop trivial
      | some irp => exact reports_intervalSum hjson a st irp

theorem reports_summaryDiskfile {t : IperfTest} (hjson : t.jsonOutput = true) (st : IperfStream) :
    Reports A (printSummaryDiskfile t st) := by
  refine .ite (fun _ => .bind (.sys trivial) fun size => ?_) fun _ => .pure _
  cases size with
  | none => exact .pure _
  | some size => exact reports_report hjson (by simp) _ _ _ _

theorem reports_summarySender {t : IperfTest} (hjson : t.jsonOutput = true) (st : IperfStream) (endTime : ℚ) :
    Reports A (printSummarySender t st endTime) := by
  refine .ite (fun _ => .ite (fun _ => ?_) fun _ => ?_) fun _ => ?_
  · exact reports_report hjson (by simp) _ _ _ _
  · exact reports_report hjson (by simp) _ _ _ _
  · exact .ite (fun _ => reports_item (by simp) _ _) fun h => absurd hjson h

theorem reports_summaries (endTime : ℚ) (sps : List Nat) (a : SummarySum) :
    Reports A (printSummaries endTime sps a) := by
  induction sps generalizing a with
  | nil => exact .pure _
  | cons sp sps ih =>
    refine reports_getTest fun t hjson _ => .ite (fun _ => .bind (.sys trivial) fun ok => ?_) fun h =>
      absurd hjson h
    refine .ite (fun _ => .pure _) fun _ => .guard (fun _ => reports_item (by simp) _ _) ?_
    refine reports_getStream fun _ st _ _ => .bind (reports_summarySender hjson st endTime) fun _ => ?_
    refine .bind (reports_summaryDiskfile hjson st) fun _ => .bind ?_ fun _ => ih _
    exact .ite (fun _ => reports_report hjson (by simp) _ _ _ _) fun _ => .pure _

theorem reports_summarySum {t : IperfTest} (hjson : t.jsonOutput = true) (a : SummarySum) (endTime : ℚ) :
    Reports A (printSummarySum t a endTime) := by
  refine .ite (fun _ => .ite (fun _ => ?_) fun _ => ?_) fun _ => reports_report hjson (by simp) _ _ _ _
  all_goals
    refine .bind (reports_report hjson (by simp) _ _ _ _) fun _ => ?_
    exact reports_report hjson (by simp) _ _ _ _

theorem reports_results : Reports A iperfPrintResults := by
  refine reports_getTest fun t hjson _ => .bind ?_ fun ok => .ite (fun _ => .pure _) fun _ => ?_
  · refine .ite (fun _ => .bind (.sys trivial) fun ok => .ite (fun _ => .pure _) fun _ => ?_) fun h =>
      absurd hjson h
    exact .bind (reports_item (by simp) _ _) fun _ => .pure _
  · cases t.streams.head? with
    | none => exact .stop trivial
    | some st =>
      refine reports_allStreams fun n => .bind (reports_summaries _ _ _) fun a => ?_
      cases a with
      | none => exact .pure _
      | some a =>
        refine .guard (fun _ => reports_summarySum hjson a _) ?_
        exact .ite (fun _ => reports_item (by simp) _ _) fun h => absurd hjson h

end Reporter

/-- Unless it comes to a line about retransmits, the reporter only adds to the report. -/
theorem reports_reporter {t : IperfTest} (h : ¬ ReportsRetransmits t) :
    ∃ A : IperfTest → Prop, A t ∧ Reports A iperfReporterCallback := by
  have hprints : ∀ {A : IperfTest → Prop}, (∀ n a, Reports A (sumIntervals (List.range n) a)) →
      Reports A iperfReporterCallback := fun hsum =>
    reports_getTest fun _ _ _ => .ite (fun _ => reports_intermediate hsum) fun _ =>
      .ite (fun _ => .bind (reports_intermediate hsum) fun _ => reports_results) fun _ => .pure _
  by_cases hquiet : noRetransmits t
  · exact ⟨noRetransmits, hquiet, hprints fun n a => reports_sumIntervals _ a⟩
  by_cases hnone : noInterval t
  · exact ⟨noInterval, hnone, hprints reports_sumIntervals_none⟩
  -- What is missing is a state in which the reporter prints at all.
  refine ⟨fun t' => t'.state = t.state, rfl, reports_getTest fun t' _ hstate => ?_⟩
  unfold noRetransmits at hquiet
  rw [Bool.not_eq_false, Bool.and_eq_true] at hquiet
  unfold noInterval at hnone
  push Not at hnone
  obtain ⟨st, hst, hirp⟩ := hnone
  obtain ⟨irp, hirp⟩ := Option.ne_none_iff_exists'.1 hirp
  have hidle : ¬ (t.state = TestState.TEST_RUNNING ∨ t.state = TestState.STREAM_RUNNING ∨
      t.state = TestState.DISPLAY_RESULTS) := fun hrun => h ⟨hrun, hquiet.1, hquiet.2, st, irp, hst, hirp⟩
  rw [← hstate] at hidle
  refine .ite (fun hs => absurd ?_ hidle) fun _ => .ite (fun hs => absurd ?_ hidle) fun _ => .pure _
  · rcases hs with hs | hs
    · exact .inl hs
    · exact .inr (.inl hs)
  · exact .inr (.inr hs)

/-! ## Runs -/

/-- The contract of a program that has all its output in the report. -/
def reportContract : Contract Mem Req.Ans Halt (List Output) where
  onCall _ printed r a := outputObserver.notes printed r a
  onWrite _ printed := printed
  allows _ _ _ _ := True
  ok _ _ r := r.reports
  inv _ printed := ∀ o ∈ printed, o.inReport
  mayHalt _ _ _ := True

theorem reports_notes {printed : List Output} (h : ∀ o ∈ printed, o.inReport) {r : Req} (hr : r.reports)
    (a : r.Ans) : ∀ o ∈ outputObserver.notes printed r a, o.inReport := by
  intro o ho
  cases r with
  | output o' =>
    rcases List.mem_append.1 ho with ho | ho
    · exact h o ho
    · rw [List.mem_singleton.1 ho]
      exact hr
  | _ => exact h o ho

/-- A program that keeps the contract only adds to the report. -/
theorem onlyReports_of_safe {m : Mem} {p : IperfProg Unit} {Q : Unit → Mem → List Output → Prop}
    (h : p.Safe reportContract Q m []) : OnlyReports m p := by
  intro c hc
  refine h.inv_reach nofun (fun _ _ r a hr _ hinv => reports_notes hinv hr a) ?_
  exact Prog.Reach.weaken hc rfl rfl fun _ _ _ _ _ => trivial

theorem Reports.safe {A : IperfTest → Prop} {p : IperfProg Unit} (hp : Reports A p) {m : Mem}
    {printed : List Output} (hjson : m.test.jsonOutput = true) (hA : A m.test)
    (h : ∀ o ∈ printed, o.inReport) :
    p.Safe reportContract (fun _ m' printed' => m'.test.jsonOutput = true ∧ ∀ o ∈ printed', o.inReport)
      m printed := by
  have hsafe := Prog.Stays.safe (K := reportContract) (J := fun printed => ∀ o ∈ printed, o.inReport) hp
    ⟨hjson, hA⟩ h (fun _ _ r _ hg hr => ⟨hr, fun a _ => reports_notes hg hr a⟩) (fun _ _ _ hg => ⟨hg, hg⟩)
    fun _ _ _ _ _ _ => trivial
  exact hsafe.mono fun _ _ _ hQ => ⟨hQ.1.1, hQ.2⟩

/-- No call of the reporter in the sequence comes to a line about retransmits. -/
def NoRetransmitReport (m : Mem) (steps : List ReportStep) : Prop :=
  ∀ pre step post, steps = pre ++ step :: post → step.call = .reporter →
    ∀ m', Prog.Returns (reportRun pre) m () m' → ¬ ReportsRetransmits (step.change m'.test)

theorem call_safe {call : ReportCall} {m : Mem} {printed : List Output} (hjson : m.test.jsonOutput = true)
    (hcall : call = .reporter → ¬ ReportsRetransmits m.test) (h : ∀ o ∈ printed, o.inReport) :
    call.prog.Safe reportContract (fun _ m' printed' => m'.test.jsonOutput = true ∧ ∀ o ∈ printed', o.inReport)
      m printed := by
  cases call with
  | onConnect => exact Reports.safe reports_onConnect hjson trivial h
  | onNewStream socket => exact Reports.safe (reports_onNewStream socket) hjson trivial h
  | onTestStart => exact Reports.safe reports_onTestStart hjson trivial h
  | stats => exact Reports.safe reports_stats hjson trivial h
  | reporter =>
    obtain ⟨A, hA, hp⟩ := reports_reporter (hcall rfl)
    exact Reports.safe hp hjson hA h

theorem reportRun_safe {steps : List ReportStep} {m : Mem} {printed : List Output}
    (hjson : m.test.jsonOutput = true) (hsteps : NoRetransmitReport m steps)
    (h : ∀ o ∈ printed, o.inReport) :
    (reportRun steps).Safe reportContract (fun _ m' _ => m'.test.jsonOutput = true) m printed := by
  induction steps generalizing m printed with
  | nil => exact hjson
  | cons step steps ih =>
    have hjson₁ : (step.change m.test).jsonOutput = true := (step.keepsMode _).trans hjson
    have hstep : step.call.prog.Safe reportContract _ { m with test := step.change m.test } printed :=
      call_safe hjson₁ (fun hcall => hsteps [] step steps rfl hcall m .refl) h
    refine ⟨h, (hstep.reached).bind fun _ m' printed' hend => ?_⟩
    obtain ⟨⟨hjson', h'⟩, hrun⟩ := hend
    refine ih hjson' (fun pre s post heq hcall m'' hpre => ?_) h'
    have hrest := (Prog.Reach.bind (fun _ => reportRun pre) hrun.forget).trans hpre
    exact hsteps (step :: pre) s post (by rw [heq]; rfl) hcall m'' (.head .write hrest)

/-! ## The line about retransmits -/

section Prints

variable {m : Mem} {printed : List Output}

/-- The notes at the end of the run have a line of text. -/
def PrintsText {α : Type} (c : IperfProg α × Mem × List Output) : Prop := ∃ o ∈ c.2.2, ¬ o.inReport

/-- The run of a program comes to a line of text. -/
def MayPrint {α : Type} (m : Mem) (printed : List Output) (p : IperfProg α) : Prop :=
  ∃ c, Goes outputObserver m printed p c ∧ PrintsText c

theorem MayPrint.bind {α β : Type} {p : IperfProg α} (h : MayPrint m printed p) (f : α → IperfProg β) :
    MayPrint m printed (p >>= f) := by
  obtain ⟨⟨q, m', printed'⟩, hrun, ho⟩ := h
  exact ⟨(q >>= f, m', printed'), Prog.Reach.bind f hrun, ho⟩

theorem MayPrint.seq {α β : Type} {m' : Mem} {printed' : List Output} {p : IperfProg α} {a : α}
    {f : α → IperfProg β} (hp : Goes outputObserver m printed p (.ret a, m', printed'))
    (h : MayPrint m' printed' (f a)) : MayPrint m printed (p >>= f) := by
  obtain ⟨c, hrun, ho⟩ := h
  exact ⟨c, hp.seq hrun, ho⟩

theorem MayPrint.getTest_bind {α : Type} {f : IperfTest → IperfProg α}
    (h : MayPrint m printed (f m.test)) : MayPrint m printed (getTest >>= f) :=
  .seq (.head .read .refl) h

theorem MayPrint.sys_bind {α : Type} {r : Req} (a : r.Ans) {f : r.Ans → IperfProg α}
    (h : MayPrint m (outputObserver.notes printed r a) (f a)) : MayPrint m printed (sys r >>= f) :=
  .seq (Goes.ask a trivial) h

theorem MayPrint.allStreams_bind {α : Type} {f : List Nat → IperfProg α}
    (h : MayPrint m printed (f (List.range m.test.streams.length))) : MayPrint m printed (allStreams >>= f) :=
  .seq (.head .read .refl) h

theorem MayPrint.getStream_bind {α : Type} {sp : Nat} {st : IperfStream} {f : IperfStream → IperfProg α}
    (hst : m.test.streams[sp]? = some st) (h : MayPrint m printed (f st)) :
    MayPrint m printed (getStream sp >>= f) := by
  obtain ⟨c, hrun, ho⟩ := h
  exact ⟨c, hrun.getStream_bind hst, ho⟩

theorem mayPrint_iprintf (fmt : Format) (args : List Arg) : MayPrint m printed (iprintf fmt args) :=
  ⟨_, Goes.ask (r := .output (.iprintf fmt args)) () trivial, .iprintf fmt args,
    List.mem_append_right _ (List.mem_singleton_self _), id⟩

theorem ReportsRetransmits.mayPrint_line (h : ReportsRetransmits m.test) {st : IperfStream}
    {irp : IperfIntervalResults} (hst : m.test.streams[0]? = some st)
    (hirp : st.result.intervalResults.getLast? = some irp) (hjson : m.test.jsonOutput = true) :
    MayPrint m printed (printIntervalResults 0) := by
  unfold printIntervalResults
  refine .getTest_bind (.getStream_bind hst ?_)
  rw [hirp]
  dsimp only
  rw [hjson, if_neg (by simp)]
  unfold printIntervalLine
  dsimp only
  rw [if_pos h.bytes, if_pos h.retransmits, if_pos hjson]
  exact .sys_bind () (mayPrint_iprintf _ _)

theorem ReportsRetransmits.mayPrint_intermediate (h : ReportsRetransmits m.test)
    (hjson : m.test.jsonOutput = true) : MayPrint m printed iperfPrintIntermediate := by
  obtain ⟨st, irp, hst, hirp⟩ := h.interval
  unfold iperfPrintIntermediate jsonIntervalObjects
  refine .getTest_bind ?_
  rw [if_pos hjson]
  refine .sys_bind true (.sys_bind () (.sys_bind true (.sys_bind () ?_)))
  refine .allStreams_bind (.bind ?_ _)
  cases hstreams : m.test.streams with
  | nil =>
    rw [hstreams] at hst
    exact absurd hst (by simp)
  | cons st' sts =>
    rw [List.length_cons, List.range_succ_eq_map]
    exact .bind (h.mayPrint_line hst hirp hjson) _

theorem ReportsRetransmits.mayPrint_reporter (h : ReportsRetransmits m.test)
    (hjson : m.test.jsonOutput = true) : MayPrint m printed iperfReporterCallback := by
  unfold iperfReporterCallback
  refine .getTest_bind ?_
  by_cases hrun : m.test.state = TestState.TEST_RUNNING ∨ m.test.state = TestState.STREAM_RUNNING
  · rw [if_pos hrun]
    exact h.mayPrint_intermediate hjson
  · have hdisplay : m.test.state = TestState.DISPLAY_RESULTS := by
      rcases h.running with hs | hs | hs
      · exact absurd (.inl hs) hrun
      · exact absurd (.inr hs) hrun
      · exact hs
    rw [if_neg hrun, if_pos hdisplay]
    exact .bind (h.mayPrint_intermediate hjson) _

end Prints

/-- After the calls `pre` the next one may print a line of text. -/
theorem mayPrint_after {m m' : Mem} {pre : List ReportStep} {step : ReportStep} (post : List ReportStep)
    (hpre : Prog.Returns (reportRun pre) m () m')
    (h : ∀ printed, MayPrint { m' with test := step.change m'.test } printed step.call.prog) :
    MayPrint m [] (reportRun (pre ++ step :: post)) := by
  obtain ⟨printed, hrun⟩ := Prog.Reach.observe (K := outputObserver.contract) hpre (fun _ _ _ _ => trivial) []
  rw [reportRun_append]
  refine .seq hrun (.seq (.head .write .refl) ?_)
  exact .bind (h printed) _

/-- **What a test with JSON output prints**: in a sequence of calls of the functions that report, all output
goes into the JSON report if and only if the reporter is never called in one of the states in which it
prints while the test is that of a TCP or SCTP sender with retransmits whose first stream has an interval. -/
theorem json_output_iff {m : Mem} (hjson : m.test.jsonOutput = true) (steps : List ReportStep) :
    OnlyReports m (reportRun steps) ↔ NoRetransmitReport m steps := by
  constructor
  · intro honly pre
    -- Up to the first such call of the reporter the test keeps its JSON output.
    induction hn : pre.length using Nat.strong_induction_on generalizing pre with
    | _ n ih =>
      rintro step post rfl hcall m' hpre h
      have hquiet : NoRetransmitReport m pre := by
        rintro pre' step' post' rfl
        refine ih pre'.length ?_ pre' rfl step' (post' ++ step :: post) (by simp)
        rw [← hn, List.length_append, List.length_cons]
        omega
      have hjson' : m'.test.jsonOutput = true := by
        obtain ⟨printed, hrun⟩ := Prog.Reach.observe (K := reportContract) hpre (fun _ _ _ _ => trivial) []
        have hsafe := reportRun_safe hjson hquiet (List.forall_mem_nil Output.inReport)
        exact hsafe.reach hrun
      obtain ⟨c, hrun, o, ho, hnot⟩ := mayPrint_after post hpre fun printed => by
        rw [hcall]
        exact h.mayPrint_reporter (m := { m' with test := step.change m'.test })
          ((step.keepsMode _).trans hjson')
      exact hnot (honly c hrun o ho)
  · intro h
    exact onlyReports_of_safe (reportRun_safe hjson h nofun)

/-- A call in front of which the test becomes a running one with the protocol `prot`. -/
def runningStep (prot : ProtId) (call : ReportCall) : ReportStep where
  change t := { t with protocol := prot, state := TestState.TEST_RUNNING }
  keepsMode _ := rfl
  call := call

/-- A client with JSON output, which knows of retransmits and has one stream. -/
def jsonClient : IperfTest :=
  let t := iperfSetTestRole .client mainTest
  { t with jsonOutput := true, senderHasRetransmits := 1, streams := [newStream t 3 4 (-1) []] }

/-- The calls of a short test. -/
def shortTest (prot : ProtId) : List ReportStep :=
  [.onConnect, .onNewStream 3, .onTestStart, .stats, .reporter].map (runningStep prot)

/-- With UDP the output is in the report. -/
theorem json_output_udp : OnlyReports (Mem.start jsonClient) (reportRun (shortTest .udp)) := by
  refine (json_output_iff rfl _).2 fun pre step post heq _ m' _ h => ?_
  obtain ⟨call, -, rfl⟩ := List.mem_map.1 (heq ▸ List.mem_append_right pre List.mem_cons_self :
    step ∈ shortTest .udp)
  exact absurd h.bytes (by simp [runningStep, isByteProtocol])

instance (m : Mem) (printed : List Output) (r : Req) (a : r.Ans) :
    Decidable (outputObserver.contract.allows m printed r a) := .isTrue trivial

/-- With TCP the reporter prints a line of text. -/
theorem json_output_refuted :
    ¬ ∀ m : Mem, m.test.jsonOutput = true → ∀ steps, OnlyReports m (reportRun steps) := by
  intro h
  have hrun := Prog.drive_reach outputObserver.contract (fun _ => Req.quiet) 100 0
    (reportRun (shortTest .tcp), Mem.start jsonClient, [])
  refine h (Mem.start jsonClient) rfl (shortTest .tcp) _ hrun (.iprintf .reportBwRetransCwndFormat
    [.int 3, .float 0, .float 0, .unit 0 'A', .unit 0 'a', .int 0, .unit 0 'A', .bool false]) ?_
  decide +kernel

end Iperf
