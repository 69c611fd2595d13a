import WifiTestTool.Iperf.Proofs.ReportTimers

/-!
# How the stats timer and the reporter timer are created

`create_client_timers` and `create_server_timers` create the stats timer before the reporter timer, with the same
time, and no omit timer gets between them, neither then nor when it is created.
-/

namespace Iperf

open Dll (Addr)
open StableInsert Reactive

/-! ## New timers on the list -/

/-- The timer `t` with the contents `d` is new on the list `l`. -/
structure Inserted (t : Addr) (d : TimerData TimerProc) (s s' : TimerState TimerProc) (l : List Addr) : Prop where
  new : t ∉ l
  rep : ∃ free, Rep s' (insertBy (keyAt s') t l) free []
  sorted : Sorted s' (insertBy (keyAt s') t l)
  data : dataAt s' t = some d
  others : ∀ a, a ≠ t → dataAt s' a = dataAt s a
  before : ∀ a b, a ≠ t → b ≠ t → ([a, b].Sublist (insertBy (keyAt s') t l) ↔ [a, b].Sublist l)
  place : ∀ b ∈ l, [t, b].Sublist (insertBy (keyAt s') t l) ↔ keyAt s' t < keyAt s' b

/-- No stats timer and no reporter timer is on the list. -/
structure NoReports (s : TimerState TimerProc) (l : List Addr) : Prop where
  rep : ∃ free, Rep s l free []
  sorted : Sorted s l
  others : ∀ a ∈ l, ∀ d, dataAt s a = some d → d.proc.reports = false

/-- The stats timer `stats` is on the list, due at `time`, and no reporter timer. -/
structure StatsAlone (usecs : Int) (stats : Addr) (s : TimerState TimerProc) (l : List Addr) (time : Timeval) :
    Prop where
  rep : ∃ free, Rep s l free []
  sorted : Sorted s l
  statsMem : stats ∈ l
  statsData : dataAt s stats = some ⟨.statsTimer, usecs, true, time⟩
  others : ∀ a ∈ l, a ≠ stats → ∀ d, dataAt s a = some d → d.proc.reports = false
  behind : ∀ w, ResetsReports s w → [stats, w].Sublist l → keyAt s stats < keyAt s w

section Order

variable {usecs : Int} {stats reporter t : Addr} {now time : Timeval} {s s' : TimerState TimerProc} {l : List Addr}
  {d : TimerData TimerProc} {proc : TimerProc} {periodic : Bool}

/-- `tmr_create` -/
theorem tmrCreate_inserted (hrep : ∃ free, Rep s l free []) (hs : Sorted s l) (malloc : Option Addr)
    (hm : ∀ a, malloc = some a → s.mem a = none) (now : Timeval) (proc : TimerProc) (usecs : Int) (periodic : Bool) :
    ∃ s' r, tmrCreate malloc now proc usecs periodic s = some (s', r) ∧ (r = none → s' = s) ∧
      ∀ t, r = some t → Inserted t ⟨proc, usecs, periodic, addUsecs now usecs⟩ s s' l := by
  obtain ⟨free, hrep⟩ := hrep
  obtain ⟨s', r, hs', hnone, hsome⟩ := tmrCreate_spec hrep hs malloc hm now proc usecs periodic
  refine ⟨s', r, hs', hnone, fun t ht => ?_⟩
  obtain ⟨hnew, hrep', hsorted, hdata, hothers⟩ := hsome t ht
  have hl : Sorted s' l := hs.congr fun a ha => hothers a fun heq => hnew (heq ▸ ha)
  refine ⟨hnew, hrep', hsorted, hdata, hothers, fun a b ha hb => pair_sublist_insertBy_new hl ha hb, fun b hb => ?_⟩
  exact pair_sublist_insertBy_self hl (List.nodup_cons.2 ⟨hnew, hrep.nodup_active⟩) hb

theorem Inserted.ne (h : Inserted t d s s' l) {a : Addr} (ha : a ∈ l) : a ≠ t := by
  rintro rfl
  exact h.new ha

theorem Inserted.key (h : Inserted t d s s' l) {a : Addr} (ha : a ≠ t) : keyAt s' a = keyAt s a := by
  rw [keyAt, keyAt, h.others a ha]

/-- A new timer that is not due before `a` is behind it. -/
theorem Inserted.behind (h : Inserted t d s s' l) {a : Addr} (ha : a ∈ l) (hkey : keyAt s' a ≤ keyAt s' t) :
    [a, t].Sublist (insertBy (keyAt s') t l) := by
  have hmem : a ∈ insertBy (keyAt s') t l := mem_insertBy.2 (.inr ha)
  refine (pair_sublist_or hmem (mem_insertBy.2 (.inl rfl)) (h.ne ha)).resolve_right fun hbefore => ?_
  exact absurd ((h.place a ha).1 hbefore) (not_lt.2 hkey)

theorem Inserted.resetsReports (h : Inserted t d s s' l) {w : Addr} (hw : w ≠ t) :
    ResetsReports s' w ↔ ResetsReports s w := by
  rw [ResetsReports, ResetsReports, h.others w hw]

theorem NoReports.insert (h : NoReports s l) (hi : Inserted t d s s' l) (hp : d.proc.reports = false) :
    NoReports s' (insertBy (keyAt s') t l) := by
  refine ⟨hi.rep, hi.sorted, fun a ha d' hd' => ?_⟩
  rcases mem_insertBy.1 ha with rfl | ha
  · rw [hi.data] at hd'
    obtain rfl := Option.some.inj hd'
    exact hp
  · rw [hi.others a (hi.ne ha)] at hd'
    exact h.others a ha d' hd'

/-- The stats timer is created. -/
theorem NoReports.insertStats (h : NoReports s l) (hi : Inserted stats ⟨.statsTimer, usecs, true, time⟩ s s' l) :
    StatsAlone usecs stats s' (insertBy (keyAt s') stats l) time := by
  refine ⟨hi.rep, hi.sorted, mem_insertBy.2 (.inl rfl), hi.data, fun a ha hne d hd => ?_, fun w hw hafter => ?_⟩
  · rw [hi.others a hne] at hd
    exact h.others a ((mem_insertBy.1 ha).resolve_left hne) d hd
  · have hne : w ≠ stats := by
      rintro rfl
      obtain ⟨d, hd, homit⟩ := hw
      rw [hi.data] at hd
      cases hd
      cases homit
    exact (hi.place w ((mem_insertBy.1 (hafter.mem (by simp))).resolve_left hne)).1 hafter

/-- The reporter timer is created. -/
theorem StatsAlone.insertReporter (h : StatsAlone usecs stats s l time)
    (hi : Inserted reporter ⟨.reporterTimer, usecs, true, time⟩ s s' l) :
    StatsNext usecs stats reporter s' (insertBy (keyAt s') reporter l) time := by
  have hne : stats ≠ reporter := hi.ne h.statsMem
  have hstats : dataAt s' stats = some ⟨.statsTimer, usecs, true, time⟩ := by rw [hi.others _ hne, h.statsData]
  have hpair : ReportPair usecs stats reporter s' (insertBy (keyAt s') reporter l) time time := by
    refine ⟨hi.rep, hi.sorted, mem_insertBy.2 (.inr h.statsMem), mem_insertBy.2 (.inl rfl), hstats, hi.data,
      fun a ha hstats hreporter d hd => ?_⟩
    rw [hi.others a hreporter] at hd
    exact h.others a ((mem_insertBy.1 ha).resolve_left hreporter) hstats d hd
  have hkeys : keyAt s' stats ≤ keyAt s' reporter := by rw [hpair.statsKey, hpair.reporterKey]
  refine ⟨hpair, hi.behind h.statsMem hkeys, fun w hw hafter => ?_⟩
  have hw' : w ≠ reporter := by
    rintro rfl
    obtain ⟨d, hd, homit⟩ := hw
    rw [hi.data] at hd
    cases hd
    cases homit
  have hkey := h.behind w ((hi.resetsReports hw').1 hw) ((hi.before _ _ hne hw').1 hafter)
  rw [← hi.key hne, ← hi.key hw', hpair.statsKey] at hkey
  exact hpair.not_between hkey

/-- Another timer is created. -/
theorem StatsNext.insert (h : StatsNext usecs stats reporter s l time) (hi : Inserted t d s s' l)
    (hp : d.proc.reports = false) : StatsNext usecs stats reporter s' (insertBy (keyAt s') t l) time := by
  have hstats : stats ≠ t := hi.ne h.statsMem
  have hreporter : reporter ≠ t := hi.ne h.reporterMem
  have hpair : ReportPair usecs stats reporter s' (insertBy (keyAt s') t l) time time := by
    refine ⟨hi.rep, hi.sorted, mem_insertBy.2 (.inr h.statsMem), mem_insertBy.2 (.inr h.reporterMem), ?_, ?_, ?_⟩
    · rw [hi.others _ hstats, h.statsData]
    · rw [hi.others _ hreporter, h.reporterData]
    · intro a ha hne hne' d' hd'
      rcases mem_insertBy.1 ha with rfl | ha
      · rw [hi.data] at hd'
        obtain rfl := Option.some.inj hd'
        exact hp
      · rw [hi.others a (hi.ne ha)] at hd'
        exact h.others a ha hne hne' d' hd'
  refine ⟨hpair, (hi.before _ _ hstats hreporter).2 h.before, fun w hw hafter hbefore => ?_⟩
  by_cases hne : w = t
  · subst hne
    -- Both have the same time, so nothing new gets between them.
    have hle := hpair.sorted.key_le hafter
    have hlt := (hi.place _ h.reporterMem).1 hbefore
    rw [hpair.statsKey] at hle
    rw [hpair.reporterKey] at hlt
    exact absurd (hle.trans_lt hlt) (lt_irrefl _)
  · exact h.between w ((hi.resetsReports hne).1 hw) ((hi.before _ _ hstats hne).1 hafter)
      ((hi.before _ _ hne hreporter).1 hbefore)

end Order

/-! ## Creating them -/

/-- `malloc` returns what is not allocated. -/
def Req.freshAnswer (m : Mem) : (r : Req) → r.Ans → Bool
  | .mallocTimer, a => (a.bind m.timers.mem).isNone
  | _, _ => true

/-- The contract for `tmr_create`: `malloc` returns what is not allocated. -/
def freshTimers : Contract Mem Req.Ans Halt Unit :=
  { Prog.free with allows := fun m _ r a => Req.freshAnswer m r a = true }

/-- The test has the interval `q` for the statistics and for the reports, and the two timers are not yet created. -/
structure ReportStart (q : ℚ) (m : Mem) : Prop where
  statsInterval : m.test.statsInterval = q
  reporterInterval : m.test.reporterInterval = q
  timers : ∃ l, NoReports m.timers l

/-- The two timers are created, and the stats timer is the next. -/
def StatsDue (usecs : Int) (stats reporter : Addr) (m : Mem) : Prop :=
  Handled stats reporter m.test ∧ ∃ l time, StatsNext usecs stats reporter m.timers l time

section Create

variable {q : ℚ} {usecs : Int} {stats reporter : Addr} {m : Mem} {l : List Addr} {Q : Int → Mem → Unit → Prop}

theorem createTimer_inserted (hrep : ∃ free, Rep m.timers l free []) (hs : Sorted m.timers l) (now : Timeval)
    (proc : TimerProc) (usecs : Int) (periodic : Bool) {Q : Option Addr → Mem → Unit → Prop} (hnone : Q none m ())
    (hsome : ∀ t s', Inserted t ⟨proc, usecs, periodic, addUsecs now usecs⟩ m.timers s' l →
      Q (some t) { m with timers := s' } ()) :
    (createTimer now proc usecs periodic).Safe freshTimers Q m () := by
  have hcreate : ∀ malloc, (∀ a, malloc = some a → m.timers.mem a = none) →
      ∃ s' r, tmrCreate malloc now proc usecs periodic m.timers = some (s', r) ∧ Q r { m with timers := s' } () := by
    intro malloc hm
    obtain ⟨s', r, hs', hkeep, hnew⟩ := tmrCreate_inserted hrep hs malloc hm now proc usecs periodic
    refine ⟨s', r, hs', ?_⟩
    cases r with
    | none =>
      obtain rfl := hkeep rfl
      exact hnone
    | some t => exact hsome t s' (hnew t rfl)
  rw [createTimer, TimerView.create, Prog.safe_bind, Prog.safe_get]
  dsimp only
  split
  · obtain ⟨s', r, hs', hQ⟩ := hcreate none nofun
    rw [Prog.safe_bind, Prog.safe_pure, show memTimers.get m = m.timers from rfl, hs']
    exact ⟨trivial, hQ⟩
  · rw [Prog.safe_bind]
    refine ⟨trivial, fun malloc hm => ?_⟩
    obtain ⟨s', r, hs', hQ⟩ := hcreate malloc fun a ha => by
      subst ha
      exact Option.isNone_iff_eq_none.1 hm
    rw [Prog.safe_ret, show memTimers.get m = m.timers from rfl, hs']
    exact ⟨trivial, hQ⟩

theorem startTimer_inserted (hrep : ∃ free, Rep m.timers l free []) (hs : Sorted m.timers l) (now : Timeval)
    (proc : TimerProc) (usecs : Int) (periodic : Bool) {keep : Option Addr → IperfTest → IperfTest}
    (hfail : ∀ m', Q (-1) m' ())
    (hsome : ∀ t s', Inserted t ⟨proc, usecs, periodic, addUsecs now usecs⟩ m.timers s' l →
      Q 0 { m with timers := s', test := keep (some t) m.test } ()) :
    (startTimer now proc usecs periodic keep).Safe freshTimers Q m () := by
  rw [startTimer, Prog.safe_bind]
  refine createTimer_inserted hrep hs now proc usecs periodic ?_ fun t s' hi => ?_
  · exact ⟨trivial, trivial, hfail _⟩
  · exact ⟨trivial, hsome t s' hi⟩

theorem createStatsTimer_alone (h : NoReports m.timers l) (hq : m.test.statsInterval ≠ 0) (now : Timeval)
    (hfail : ∀ m', Q (-1) m' ())
    (hsome : ∀ stats s' l', StatsAlone (secToUs m.test.statsInterval) stats s' l'
        (addUsecs now (secToUs m.test.statsInterval)) →
      Q 0 { m with timers := s', test := { m.test with statsTimer := some stats } } ()) :
    (createStatsTimer now).Safe freshTimers Q m () := by
  refine Prog.Safe.bind (Q := fun t m' _ => t = m.test ∧ m' = m) ⟨rfl, rfl⟩ ?_
  rintro t m' ⟨⟩ ⟨rfl, rfl⟩
  rw [if_pos hq]
  exact startTimer_inserted h.rep h.sorted now _ _ _ hfail fun t s' hi => hsome t s' _ (h.insertStats hi)

theorem createReporterTimer_next (h : StatsAlone usecs stats m.timers l (addUsecs now usecs))
    (hq : m.test.reporterInterval ≠ 0) (husecs : secToUs m.test.reporterInterval = usecs)
    (hfail : ∀ m', Q (-1) m' ())
    (hsome : ∀ reporter s' l', StatsNext usecs stats reporter s' l' (addUsecs now usecs) →
      Q 0 { m with timers := s', test := { m.test with reporterTimer := some reporter } } ()) :
    (createReporterTimer now).Safe freshTimers Q m () := by
  refine Prog.Safe.bind (Q := fun t m' _ => t = m.test ∧ m' = m) ⟨rfl, rfl⟩ ?_
  rintro t m' ⟨⟩ ⟨rfl, rfl⟩
  rw [if_pos hq, husecs]
  exact startTimer_inserted h.rep h.sorted now _ _ _ hfail fun t s' hi => hsome t s' _ (h.insertReporter hi)

/-- The stats timer is created and then the reporter timer. -/
theorem createReports_due (hq : q ≠ 0) (now : Timeval) :
    Prog.Triple freshTimers (fun m _ => ReportStart q m) (do
      let r ← createStatsTimer now
      if r < 0 then pure (-1) else createReporterTimer now)
    fun r m _ => r = 0 → ∃ stats reporter, StatsDue (secToUs q) stats reporter m := by
  rintro m ⟨⟩ ⟨hstats, hreporter, l, hl⟩
  rw [Prog.safe_bind]
  refine createStatsTimer_alone hl (hstats ▸ hq) now (fun m' => ?_) fun stats s' l' hs' => ?_
  · rw [if_pos (by decide)]
    exact fun h => absurd h (by decide)
  · rw [if_neg (by decide)]
    rw [hstats] at hs'
    refine createReporterTimer_next hs' (hreporter ▸ hq) (congrArg secToUs hreporter) ?_ ?_
    · exact fun m' h => absurd h (by decide)
    · exact fun reporter s'' l'' hs'' _ => ⟨stats, reporter, ⟨rfl, rfl⟩, l'', _, hs''⟩

theorem withTime_triple {I : Mem → Unit → Prop} {k : Timeval → IperfProg Int}
    (hI : ∀ m e, I m () → I { m with errno := e } ())
    (hfail : ∀ m e, I m () → Q (-1) { m with iErrno := e } ())
    (hk : ∀ now, Prog.Triple freshTimers I (k now) Q) : Prog.Triple freshTimers I (withTime k) Q := by
  rintro m ⟨⟩ hm
  refine ⟨trivial, fun a _ => ?_⟩
  cases a with
  | error e => exact ⟨trivial, trivial, hfail _ _ (hI m e hm)⟩
  | ok now => exact hk now m () hm

theorem forgetHandles_start {f : IperfTest → IperfTest}
    (hf : ∀ t, (f t).statsInterval = t.statsInterval ∧ (f t).reporterInterval = t.reporterInterval) :
    Prog.Triple freshTimers (fun m _ => ReportStart q m) (modifyTest f) fun _ m _ => ReportStart q m :=
  fun m _ h => ⟨trivial, (hf m.test).1.trans h.statsInterval, (hf m.test).2.trans h.reporterInterval, h.timers⟩

theorem createServerTimers_due (hq : q ≠ 0) :
    Prog.Triple freshTimers (fun m _ => ReportStart q m) createServerTimers
      fun r m _ => r = 0 → ∃ stats reporter, StatsDue (secToUs q) stats reporter m := by
  refine withTime_triple (fun m e h => ⟨h.statsInterval, h.reporterInterval, h.timers⟩) ?_ fun now => ?_
  · exact fun m e _ h => absurd h (by decide)
  · exact .bind (forgetHandles_start fun _ => ⟨rfl, rfl⟩) fun _ => createReports_due hq now

theorem createTestTimer_start (now : Timeval) :
    Prog.Triple freshTimers (fun m _ => ReportStart q m) (createTestTimer now)
      fun r m _ => 0 ≤ r → ReportStart q m := by
  rintro m ⟨⟩ hm
  refine Prog.Safe.bind (Q := fun t m' _ => t = m.test ∧ m' = m) ⟨rfl, rfl⟩ ?_
  rintro t m' ⟨⟩ ⟨rfl, rfl⟩
  refine Prog.Triple.ite (I := fun m _ => ReportStart q m) (fun _ => ?_) (fun _ => ?_) m' () hm
  · refine .bind (forgetHandles_start fun _ => ⟨rfl, rfl⟩) fun _ => ?_
    rintro m ⟨⟩ ⟨hstats, hreporter, l, hl⟩
    refine startTimer_inserted hl.rep hl.sorted now _ _ _ (fun m' h => absurd h (by decide)) fun t s' hi _ => ?_
    exact ⟨hstats, hreporter, _, hl.insert hi rfl⟩
  · exact .ret fun _ _ h _ => h

theorem createClientTimers_due (hq : q ≠ 0) :
    Prog.Triple freshTimers (fun m _ => ReportStart q m) createClientTimers
      fun r m _ => r = 0 → ∃ stats reporter, StatsDue (secToUs q) stats reporter m := by
  refine withTime_triple (fun m e h => ⟨h.statsInterval, h.reporterInterval, h.timers⟩) ?_ fun now => ?_
  · exact fun m e _ h => absurd h (by decide)
  · refine .bind (forgetHandles_start fun _ => ⟨rfl, rfl⟩) fun _ => .bind (createTestTimer_start now) fun r => ?_
    refine .ite (fun _ m g _ h => absurd h (by decide)) fun hr => ?_
    exact (createReports_due hq now).conseq (fun m g h => h (not_lt.1 hr)) fun _ _ _ h => h

/-! ### Timers created later -/

/-- What does not touch the timers and the handles of the two. -/
theorem StatsDue.congr {m' : Mem} (h : StatsDue usecs stats reporter m) (hs : m'.timers = m.timers)
    (hstats : m'.test.statsTimer = m.test.statsTimer) (hreporter : m'.test.reporterTimer = m.test.reporterTimer) :
    StatsDue usecs stats reporter m' := by
  obtain ⟨hhandled, hnext⟩ := h
  exact ⟨⟨hstats.trans hhandled.1, hreporter.trans hhandled.2⟩, hs ▸ hnext⟩

/-- The program keeps the two timers. -/
abbrev KeepsReports (usecs : Int) (stats reporter : Addr) {α : Type} (p : IperfProg α) : Prop :=
  Prog.Keeps freshTimers (fun m _ => StatsDue usecs stats reporter m) (fun _ => True) p

theorem modify_keepsReports {f : Mem → Mem} (hs : ∀ m, (f m).timers = m.timers)
    (hf : ∀ m, (f m).test.statsTimer = m.test.statsTimer ∧ (f m).test.reporterTimer = m.test.reporterTimer) :
    KeepsReports usecs stats reporter (Prog.modify f) :=
  .modify fun m _ h => ⟨trivial, h.congr (hs m) (hf m).1 (hf m).2⟩

theorem createTimer_keepsReports (now : Timeval) {proc : TimerProc} (hp : proc.reports = false) (us : Int)
    (periodic : Bool) : KeepsReports usecs stats reporter (createTimer now proc us periodic) := by
  rintro m ⟨⟩ ⟨hhandled, l, time, hnext⟩
  refine createTimer_inserted hnext.rep hnext.sorted now proc us periodic ?_ fun t s' hi => ?_
  · exact ⟨trivial, hhandled, l, time, hnext⟩
  · exact ⟨trivial, hhandled, _, time, hnext.insert hi hp⟩

theorem ask_keepsReports (r : Req) : KeepsReports usecs stats reporter (sys r) :=
  .ask fun _ _ h => ⟨trivial, fun _ _ => ⟨trivial, h⟩⟩

theorem getTest_keepsReports {α : Type} {f : IperfTest → IperfProg α}
    (hf : ∀ t, KeepsReports usecs stats reporter (f t)) : KeepsReports usecs stats reporter (getTest >>= f) :=
  fun m _ h => hf m.test m _ h

theorem withTime_keepsReports {k : Timeval → IperfProg Int} (hk : ∀ now, KeepsReports usecs stats reporter (k now)) :
    KeepsReports usecs stats reporter (withTime k) := by
  refine .bind (ask_keepsReports _) fun a _ => ?_
  cases a with
  | error e =>
    refine .bind (modify_keepsReports (fun _ => rfl) fun _ => ⟨rfl, rfl⟩) fun _ _ => ?_
    exact .bind (modify_keepsReports (fun _ => rfl) fun _ => ⟨rfl, rfl⟩) fun _ _ => .pure trivial
  | ok now => exact hk now

theorem createOmitTimer_keepsReports : KeepsReports usecs stats reporter createOmitTimer := by
  refine getTest_keepsReports fun t => .ite (fun _ => ?_) fun _ => withTime_keepsReports fun now => ?_
  · exact .bind (modify_keepsReports (fun _ => rfl) fun _ => ⟨rfl, rfl⟩) fun _ _ => .pure trivial
  · refine .bind (modify_keepsReports (fun _ => rfl) fun _ => ⟨rfl, rfl⟩) fun _ _ => ?_
    refine .bind (createTimer_keepsReports now rfl _ _) fun handle _ => ?_
    refine .bind (modify_keepsReports (fun _ => rfl) fun _ => ⟨rfl, rfl⟩) fun _ _ => .ite (fun _ => ?_) fun _ => ?_
    · exact .bind (modify_keepsReports (fun _ => rfl) fun _ => ⟨rfl, rfl⟩) fun _ _ => .pure trivial
    · exact .pure trivial

theorem gettimeofday_keepsReports : KeepsReports usecs stats reporter gettimeofday := by
  refine .bind (ask_keepsReports _) fun a _ => ?_
  cases a with
  | error e => exact .bind (modify_keepsReports (fun _ => rfl) fun _ => ⟨rfl, rfl⟩) fun _ _ => .pure trivial
  | ok now => exact .pure trivial

theorem createSendTimer_keepsReports (sp : Nat) : KeepsReports usecs stats reporter (createSendTimer sp) := by
  refine .bind (modify_keepsReports (fun _ => rfl) fun _ => ⟨rfl, rfl⟩) fun _ _ => ?_
  refine getTest_keepsReports fun t => .ite (fun _ => ?_) fun _ => .pure trivial
  refine .bind gettimeofday_keepsReports fun now _ => .bind (createTimer_keepsReports now rfl _ _) fun handle _ => ?_
  refine .bind (modify_keepsReports (fun _ => rfl) fun _ => ⟨rfl, rfl⟩) fun _ _ => .ite (fun _ => ?_) fun _ => ?_
  · exact .bind (modify_keepsReports (fun _ => rfl) fun _ => ⟨rfl, rfl⟩) fun _ _ => .pure trivial
  · exact .pure trivial

theorem forStreams_keepsReports {α : Type} {body : Nat → IperfProg (Option α)}
    (hb : ∀ sp, KeepsReports usecs stats reporter (body sp)) (sps : List Nat) :
    KeepsReports usecs stats reporter (forStreams body sps) := by
  induction sps with
  | nil => exact .pure trivial
  | cons sp sps ih =>
    refine .bind (hb sp) fun r _ => ?_
    cases r with
    | some a => exact .pure trivial
    | none => exact ih

theorem iperfCreateSendTimers_keepsReports : KeepsReports usecs stats reporter iperfCreateSendTimers :=
  withTime_keepsReports fun _ => .bind (getTest_keepsReports fun _ => .pure trivial) fun sps _ =>
    .bind (forStreams_keepsReports createSendTimer_keepsReports sps) fun _ _ => .pure trivial

/-! ### The interval -/

theorem secToUs_pos (hq : MIN_INTERVAL ≤ q) : 0 < secToUs q := by
  have hq' : (1 : ℚ) / 10 ≤ q := hq
  have hus : 1 ≤ q * (SEC_TO_US : ℚ) := by
    rw [show (SEC_TO_US : ℚ) = 1000000 from rfl]
    linarith
  rw [secToUs, truncRat, if_pos (by linarith)]
  exact Int.floor_pos.2 hus

end Create

end Iperf
