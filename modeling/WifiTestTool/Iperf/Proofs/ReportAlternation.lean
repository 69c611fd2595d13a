import WifiTestTool.Iperf.Proofs.ReportStart
import WifiTestTool.Lib.Noted

/-!
# Statistics and reports take turns

With the same interval for both, `tmr_run` calls the procedure of the stats timer and that of the reporter timer in
turn, the former first, however late it is called and whatever omit timers and send timers there are. So every
report shows the one interval that was recorded since the previous one.
-/

namespace Iperf

open Dll (Addr)
open StableInsert Reactive

/-! ## The calls of the timer procedures -/

/-- A memory of iperf, with the timer procedures that `tmr_run` has called -/
abbrev NotedMem := Mem × List TimerProc

/-- The timer package in it -/
def notedTimers : TimerView NotedMem Halt TimerProc where
  get m := m.1.timers
  set s m := ({ m.1 with timers := s }, m.2)
  wild := .wildTimer
  spin := .spin

/-- The call of a timer procedure, which is noted. -/
def notedProc (t : Addr) (proc : TimerProc) (now : Timeval) : Prog NotedMem Req.Ans Halt Unit := do
  Prog.modify fun m => (m.1, m.2 ++ [proc])
  (timerProc t proc now).beside _

/-- `tmr_run` in this memory -/
def notedRun (fuel : Nat) (now : Timeval) : Prog NotedMem Req.Ans Halt Unit := tmrRun notedTimers notedProc fuel now

/-- The calls of the stats timer procedure and of the reporter timer procedure -/
def reportCalls (log : List TimerProc) : List TimerProc := log.filter TimerProc.reports

/-- The two are called in turn, the former first. -/
def Alternates (log : List TimerProc) : Prop := ∀ n proc, (reportCalls log)[n]? = some proc → proc = turn n

/-! ### The notes change nothing -/

section Noting

theorem load_noting (t : Addr) :
    Prog.Noting (notedTimers.load t : Prog NotedMem Req.Ans Halt _) (memTimers.load t) := by
  refine .read fun m => ?_
  simp only [Prog.bind]
  rw [show notedTimers.get m = memTimers.get m.1 from rfl]
  cases (memTimers.get m.1).mem t with
  | none => exact .halt _
  | some c => exact .ret c

theorem viewRun_noting (f : TimerState TimerProc → Option (TimerState TimerProc)) :
    Prog.Noting (notedTimers.run f : Prog NotedMem Req.Ans Halt _) (memTimers.run f) := by
  refine .read fun m => ?_
  simp only [Prog.bind]
  rw [show notedTimers.get m = memTimers.get m.1 from rfl]
  cases f (memTimers.get m.1) with
  | none => exact .halt _
  | some s => exact .write (fun _ => rfl) (.ret _)

theorem tmrRunLoop_noting (now : Timeval) (fuel : Nat) (next : Option Addr) :
    Prog.Noting (tmrRunLoop notedTimers notedProc now fuel next) (tmrRunLoop memTimers timerProc now fuel next) := by
  induction fuel generalizing next with
  | zero => exact .halt _
  | succ fuel ih =>
    cases next with
    | none => exact .ret _
    | some t =>
      refine (load_noting t).bind fun c => ?_
      dsimp only
      split
      · exact .ret _
      · refine .bind (.noted (fun _ => rfl) (.beside _)) fun _ => ?_
        refine (load_noting t).bind fun c' => ?_
        exact (viewRun_noting _).bind fun _ => ih c.next

/-- The calls of `tmr_run` are those with notes, without the notes. -/
theorem tmrRun_noting {fuel : Nat} {now : Timeval} {m m' : Mem} {log : List TimerProc} :
    Prog.Returns (tmrRun memTimers timerProc fuel now) m () m' ↔
      ∃ log', Prog.Returns (notedRun fuel now) (m, log) () (m', log') := by
  refine Prog.Noting.returns_iff (.read fun m => ?_)
  exact tmrRunLoop_noting now fuel m.1.timers.timers

end Noting

/-! ## The loop -/

theorem reportCalls_snoc (log : List TimerProc) (proc : TimerProc) :
    reportCalls (log ++ [proc]) = reportCalls log ++ if proc.reports then [proc] else [] := by
  rw [reportCalls, List.filter_append, List.filter_singleton]
  cases proc.reports <;> rfl

theorem length_reportCalls_snoc (log : List TimerProc) (proc : TimerProc) :
    (reportCalls (log ++ [proc])).length = (reportCalls log).length + if proc.reports then 1 else 0 := by
  rw [reportCalls_snoc, List.length_append]
  split <;> rfl

theorem Alternates.snoc {log : List TimerProc} {proc : TimerProc} (h : Alternates log)
    (hp : proc.reports = true → proc = turn (reportCalls log).length) : Alternates (log ++ [proc]) := by
  intro n p hn
  rw [reportCalls_snoc] at hn
  by_cases hlt : n < (reportCalls log).length
  · rw [List.getElem?_append_left hlt] at hn
    exact h n p hn
  · rw [List.getElem?_append_right (not_lt.1 hlt)] at hn
    split at hn
    · rw [List.getElem?_singleton] at hn
      split at hn
      · cases hn
        rw [show n = (reportCalls log).length by omega]
        exact hp ‹_›
      · cases hn
    · simp at hn

/-- Between the calls of `tmr_run` it is the turn of the stats timer. -/
structure StatsTurn (usecs : Int) (stats reporter : Addr) (m : NotedMem) : Prop where
  alternates : Alternates m.2
  even : (reportCalls m.2).length % 2 = 0
  due : StatsDue usecs stats reporter m.1

section Loop

variable {usecs : Int} {stats reporter : Addr}

/-- The loop of `tmr_run`, from a timer of the list on -/
theorem tmrRunLoop_alternates (hu : 0 < usecs) (now : Timeval) (fuel : Nat) {m : NotedMem} {pre todo : List Addr}
    (ha : Alternates m.2) (hm : Handled stats reporter m.1.test)
    (h : Turn usecs stats reporter now (reportCalls m.2).length m.1.timers pre todo) :
    (tmrRunLoop notedTimers notedProc now fuel todo.head?).Safe (Prog.keeping fun m => Alternates m.2)
      (fun _ m' _ => StatsTurn usecs stats reporter m') m () := by
  induction fuel generalizing m pre todo with
  | zero => exact trivial
  | succ fuel ih =>
    cases todo with
    | nil =>
      obtain ⟨heven, hnext⟩ := h.done nofun
      exact ⟨ha, heven, hm, hnext⟩
    | cons t rest =>
      obtain ⟨⟨free, hrep⟩, hsorted⟩ := h.listed
      obtain ⟨c, hc⟩ := hrep.mem_active (a := t) (by simp)
      have hd : dataAt m.1.timers t = some c.val := by rw [dataAt, hc]; rfl
      have hnext : c.next = rest.head? := hrep.next_eq hc
      rw [List.head?_cons, tmrRunLoop, Prog.safe_bind]
      refine safe_load hc ?_
      dsimp only
      by_cases hdue : now.before c.val.time
      · rw [if_pos hdue]
        obtain ⟨heven, hnext'⟩ := h.done (hsorted.not_due hd hdue)
        exact ⟨ha, heven, hm, hnext'⟩
      · rw [if_neg hdue, Prog.safe_bind, notedProc, Prog.safe_bind]
        have hnoted : Alternates (m.2 ++ [c.val.proc]) := ha.snoc (h.calls hd hdue)
        refine ⟨hnoted, ?_⟩
        have hproc := timerProc_leaves (s := m.1.timers) t c.val.proc now m.1 () ⟨rfl, hm⟩
        refine (hproc.beside (P := Alternates) hnoted).mono ?_
        rintro ⟨⟩ ⟨m₁, log⟩ ⟨⟩ ⟨⟨hleaves, hm₁⟩, rfl⟩
        obtain ⟨hd₁, s', pre', todo', hs', hhead, hturn⟩ := h.pass hu hd hdue hleaves
        obtain ⟨c₁, hc₁, hval⟩ := Option.map_eq_some_iff.1 hd₁
        rw [Prog.safe_bind]
        refine safe_load hc₁ ?_
        rw [Prog.safe_bind, hval, hnext, ← hhead]
        rw [← length_reportCalls_snoc] at hturn
        exact safe_viewRun hs' ⟨hnoted, ih hnoted hm₁ hturn⟩

/-- `tmr_run` -/
theorem notedRun_alternates (hu : 0 < usecs) (fuel : Nat) (now : Timeval) {m : NotedMem}
    (h : StatsTurn usecs stats reporter m) :
    (notedRun fuel now).Safe (Prog.keeping fun m => Alternates m.2)
      (fun _ m' _ => StatsTurn usecs stats reporter m') m () := by
  obtain ⟨hhandled, l, time, hnext⟩ := h.due
  obtain ⟨free, hrep⟩ := hnext.rep
  have hturn : Turn usecs stats reporter now (reportCalls m.2).length m.1.timers [] l :=
    .stats h.even hnext (.inl hnext.statsMem)
  have hloop := tmrRunLoop_alternates hu now fuel h.alternates hhandled hturn
  rwa [← hrep.timers_eq] at hloop

end Loop

/-! ## A test -/

/-- Called in the memory `m`, the function returns `r` in the memory `m'`, where `malloc` returns what is not
allocated. -/
def Creates (p : IperfProg Int) (m : Mem) (r : Int) (m' : Mem) : Prop :=
  Prog.Reach freshTimers (p, m, ()) (.ret r, m', ())

/-- A test of the client or the server, from the creation of its timers on. -/
inductive ReportRun : NotedMem → Prop where
  | client {q : ℚ} {m m' : Mem} (hq : MIN_INTERVAL ≤ q) (h : ReportStart q m) (hc : Creates createClientTimers m 0 m') :
      ReportRun (m', [])
  | server {q : ℚ} {m m' : Mem} (hq : MIN_INTERVAL ≤ q) (h : ReportStart q m) (hc : Creates createServerTimers m 0 m') :
      ReportRun (m', [])
  | omitTimer {m m' : Mem} {log : List TimerProc} {r : Int} (h : ReportRun (m, log))
      (hc : Creates createOmitTimer m r m') : ReportRun (m', log)
  | sendTimers {m m' : Mem} {log : List TimerProc} {r : Int} (h : ReportRun (m, log))
      (hc : Creates iperfCreateSendTimers m r m') : ReportRun (m', log)
  | tmrRun {m m' : NotedMem} {fuel : Nat} {now : Timeval} (h : ReportRun m)
      (hr : Prog.Returns (notedRun fuel now) m () m') : ReportRun m'
  /-- Anything else that leaves the timers and the handles of the two alone -/
  | other {m m' : Mem} {log : List TimerProc} (h : ReportRun (m, log)) (hs : m'.timers = m.timers)
      (hstats : m'.test.statsTimer = m.test.statsTimer) (hreporter : m'.test.reporterTimer = m.test.reporterTimer) :
      ReportRun (m', log)

theorem ReportRun.statsTurn {m : NotedMem} (h : ReportRun m) :
    ∃ usecs stats reporter, 0 < usecs ∧ StatsTurn usecs stats reporter m := by
  have hstart : ∀ {q : ℚ} {m' : Mem}, MIN_INTERVAL ≤ q →
      (∃ stats reporter, StatsDue (secToUs q) stats reporter m') →
      ∃ usecs stats reporter, 0 < usecs ∧ StatsTurn usecs stats reporter (m', []) := by
    rintro q m' hq ⟨stats, reporter, hdue⟩
    exact ⟨secToUs q, stats, reporter, secToUs_pos hq, nofun, rfl, hdue⟩
  have hne : ∀ {q : ℚ}, MIN_INTERVAL ≤ q → q ≠ 0 := by
    intro q hq
    have hpos : (0 : ℚ) < MIN_INTERVAL := by norm_num [MIN_INTERVAL]
    exact (hpos.trans_le hq).ne'
  induction h with
  | client hq h hc => exact hstart hq ((createClientTimers_due (hne hq) _ () h).reach hc rfl)
  | server hq h hc => exact hstart hq ((createServerTimers_due (hne hq) _ () h).reach hc rfl)
  | omitTimer _ hc ih =>
    obtain ⟨usecs, stats, reporter, hu, ha, heven, hdue⟩ := ih
    exact ⟨usecs, stats, reporter, hu, ha, heven, ((createOmitTimer_keepsReports _ () hdue).reach hc).2⟩
  | sendTimers _ hc ih =>
    obtain ⟨usecs, stats, reporter, hu, ha, heven, hdue⟩ := ih
    exact ⟨usecs, stats, reporter, hu, ha, heven, ((iperfCreateSendTimers_keepsReports _ () hdue).reach hc).2⟩
  | @tmrRun m m' fuel now _ hr ih =>
    obtain ⟨usecs, stats, reporter, hu, hturn⟩ := ih
    have hsafe := notedRun_alternates hu fuel now hturn
    exact ⟨usecs, stats, reporter, hu, hsafe.reach_free (fun _ _ _ => trivial) hr⟩
  | other _ hs hstats hreporter ih =>
    obtain ⟨usecs, stats, reporter, hu, ha, heven, hdue⟩ := ih
    exact ⟨usecs, stats, reporter, hu, ha, heven, hdue.congr hs hstats hreporter⟩

/-- **Statistics and reports take turns.** Take a client or a server with one interval, not below the smallest one, for
the statistics and the reports, and no timers of these kinds before it creates its own; let it create omit timers and
send timers, and call `tmr_run` at any times, however late. Then the procedures of its stats timer and its reporter
timer are called in turn, the former first, at every point of every call of `tmr_run`, and equally often whenever one
has returned. -/
theorem reports_alternate {m : NotedMem} (h : ReportRun m) :
    Alternates m.2 ∧ (reportCalls m.2).length % 2 = 0 ∧
      ∀ fuel now c, Prog.Reach Prog.free (notedRun fuel now, m, ()) c → Alternates c.2.1.2 := by
  obtain ⟨usecs, stats, reporter, hu, hturn⟩ := h.statsTurn
  refine ⟨hturn.alternates, hturn.even, fun fuel now c hr => ?_⟩
  exact (notedRun_alternates hu fuel now hturn).kept hturn.alternates hr

instance (m : Mem) (g : Unit) (r : Req) (a : r.Ans) : Decidable (freshTimers.allows m g r a) :=
  inferInstanceAs (Decidable (_ = true))

/-- A client that omits the first second -/
def omittingClient : IperfTest :=
  { iperfSetTestRole .client mainTest with omitTime := 1, state := TestState.TEST_RUNNING }

/-- `malloc` returns the addresses from `n` on. -/
def mallocFrom (n i : Nat) : (r : Req) → r.Ans
  | .mallocTimer => some (n + i)
  | r => r.quiet

/-- The memory after a function has created timers -/
def afterCreation (n : Nat) (p : IperfProg Int) (m : Mem) : Mem :=
  (Prog.drive freshTimers (mallocFrom n) 100 0 (p, m, ())).2.1

/-- The memory after a call of `tmr_run` -/
def afterRun (now : Timeval) (m : NotedMem) : NotedMem := Prog.after (fun _ => Req.quiet) 200 (notedRun 6 now) m

/-- All timers of the client are created at time 0; `tmr_run` is called after two and a half and after five seconds. -/
def lateClient : NotedMem :=
  let m := afterCreation 0 createClientTimers (Mem.start omittingClient)
  afterRun ⟨5, 0⟩ (afterRun ⟨2, 500000⟩ (afterCreation 3 createOmitTimer m, []))

theorem lateClient_run : ReportRun lateClient := by
  have hstart : ReportStart 1 (Mem.start omittingClient) :=
    ⟨rfl, rfl, [], ⟨[], .init⟩, List.Pairwise.nil, nofun⟩
  have hcreate : Creates createClientTimers (Mem.start omittingClient) 0
      (afterCreation 0 createClientTimers (Mem.start omittingClient)) :=
    Prog.reach_of_drive _ 100 (by decide +kernel)
  have homit : Creates createOmitTimer _ 0 (afterCreation 3 createOmitTimer _) :=
    Prog.reach_of_drive (mallocFrom 3) 100
      (s := afterCreation 0 createClientTimers (Mem.start omittingClient)) (by decide +kernel)
  refine .tmrRun (.tmrRun (.omitTimer (.client ?_ hstart hcreate) homit) (.of_drive _ 200 ?_)) (.of_drive _ 200 ?_)
  · norm_num [MIN_INTERVAL]
  · decide +kernel
  · decide +kernel

/-- The omit timer fires after the first report. In the second call the two timers are overdue twice. -/
theorem reports_alternate_late :
    lateClient.2 = [.statsTimer, .reporterTimer, .omitTimer, .statsTimer, .reporterTimer, .statsTimer,
      .reporterTimer] ∧ Alternates lateClient.2 :=
  ⟨by decide +kernel, (reports_alternate lateClient_run).1⟩

end Iperf
