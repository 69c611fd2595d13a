import WifiTestTool.Iperf.TestTimers
import WifiTestTool.Iperf.Proofs.Measurement
import WifiTestTool.Iperf.Proofs.TimerResets

/-!
# The stats timer and the reporter timer

With the same interval, the two timers are due at the same times, and it is only their order on the list that makes
the stats timer fire first. A timer that has fired goes behind those with the same time; so the stats timer comes
before the reporter timer, whether they are rescheduled or reset, and no omit timer gets between them.
-/

namespace Iperf

open Dll (Addr)
open StableInsert Reactive

/-! ## The order on the list -/

/-- A stats timer procedure or a reporter timer procedure -/
def TimerProc.reports : TimerProc → Bool
  | .statsTimer | .reporterTimer => true
  | _ => false

/-- The procedure of the timer `w` is the one that resets the stats timer and the reporter timer. -/
def ResetsReports (s : TimerState TimerProc) (w : Addr) : Prop := ∃ d, dataAt s w = some d ∧ d.proc = .omitTimer

/-- On the list `l` are a stats timer `stats`, due at `statsTime`, and a reporter timer `reporter`, due at
`reporterTime`, with the same period `usecs`, and no others of their kinds. -/
structure ReportPair (usecs : Int) (stats reporter : Addr) (s : TimerState TimerProc) (l : List Addr)
    (statsTime reporterTime : Timeval) : Prop where
  rep : ∃ free, Rep s l free []
  sorted : Sorted s l
  statsMem : stats ∈ l
  reporterMem : reporter ∈ l
  statsData : dataAt s stats = some ⟨.statsTimer, usecs, true, statsTime⟩
  reporterData : dataAt s reporter = some ⟨.reporterTimer, usecs, true, reporterTime⟩
  others : ∀ a ∈ l, a ≠ stats → a ≠ reporter → ∀ d, dataAt s a = some d → d.proc.reports = false

/-- The stats timer is the next of the two: both are due at `time`. -/
structure StatsNext (usecs : Int) (stats reporter : Addr) (s : TimerState TimerProc) (l : List Addr)
    (time : Timeval) : Prop extends ReportPair usecs stats reporter s l time time where
  before : [stats, reporter].Sublist l
  between : ∀ w, ResetsReports s w → [stats, w].Sublist l → ¬ [w, reporter].Sublist l

/-- The reporter timer is the next of the two. It is due, and the loop of `tmr_run` comes to it before it comes to an
omit timer. -/
structure ReporterNext (usecs : Int) (stats reporter : Addr) (now : Timeval) (s : TimerState TimerProc)
    (l todo : List Addr) (time : Timeval) : Prop extends
    ReportPair usecs stats reporter s l (addUsecs time usecs) time where
  before : [reporter, stats].Sublist l
  due : ¬ now.before time
  ahead : reporter ∈ todo
  behind : ∀ w, ResetsReports s w → [stats, w].Sublist l → keyAt s stats < keyAt s w
  between : ∀ w, ResetsReports s w → ¬ [w, reporter].Sublist todo

section Order

variable {usecs : Int} {stats reporter t : Addr} {now time statsTime reporterTime : Timeval}
  {s s' : TimerState TimerProc} {l l' pre rest todo : List Addr} {d : TimerData TimerProc}

theorem Rep.nodup_active {active free out : List Addr} (h : Rep s active free out) : active.Nodup :=
  (List.nodup_append.1 (List.nodup_append.1 h.nodup).1).1

theorem Rescheduled.nodup (h : Rescheduled t d s s' l l') : l'.Nodup := by
  obtain ⟨free, hrep⟩ := h.rep
  exact hrep.nodup_active

/-- Later on a sorted list is not before. -/
theorem Sorted.key_le {a b : Addr} (hs : Sorted s l) (hab : [a, b].Sublist l) : keyAt s a ≤ keyAt s b := by
  have hpair : Sorted s [a, b] := hs.sublist hab
  exact (List.pairwise_cons.1 hpair).1 b (List.mem_singleton_self b)

/-- The list after a pass of the loop is cut where the saved pointer `next` points to. -/
theorem Rescheduled.cut (h : Rescheduled t d s s' (pre ++ t :: rest) l') (hnd : (pre ++ t :: rest).Nodup) :
    ∃ pre' todo', l' = pre' ++ todo' ∧ todo'.head? = rest.head? ∧
      (rest ≠ [] → ∀ a, a ≠ t → (a ∈ todo' ↔ a ∈ rest)) := by
  cases rest with
  | nil => exact ⟨l', [], (List.append_nil l').symm, rfl, fun hne => absurd rfl hne⟩
  | cons b rest =>
    have hbt : b ≠ t := by
      rintro rfl
      rw [List.nodup_append, List.nodup_cons] at hnd
      exact hnd.2.1.1 (List.mem_cons_self ..)
    have hb : b ∈ l' := h.mem hbt (by simp)
    obtain ⟨pre', todo', rfl⟩ := List.append_of_mem hb
    refine ⟨pre', b :: todo', rfl, rfl, fun _ a hat => ?_⟩
    by_cases hab : a = b
    · simp [hab]
    · have hassoc : pre ++ t :: b :: rest = (pre ++ [t]) ++ b :: rest := by simp
      have horder := h.others b a hbt hat
      rw [pair_sublist_iff h.nodup, hassoc, pair_sublist_iff (hassoc ▸ hnd)] at horder
      simp [hab, horder]

/-- The contents of the timers that a pass of the loop leaves on the list. -/
theorem Rescheduled.proc (h : Rescheduled t d s s' l l') (hd : dataAt s t = some d) (a : Addr) :
    (dataAt s' a).map TimerData.proc = (dataAt s a).map TimerData.proc := by
  by_cases hat : a = t
  · subst hat
    rw [h.expired, hd]
    unfold TimerData.next
    split <;> rfl
  · rw [h.data a hat]

theorem Rescheduled.resetsReports (h : Rescheduled t d s s' l l') (hd : dataAt s t = some d) {w : Addr} :
    ResetsReports s' w ↔ ResetsReports s w := by
  have hproc := h.proc hd w
  unfold ResetsReports
  constructor
  · rintro ⟨d', hd', hw⟩
    rw [hd'] at hproc
    obtain ⟨d₀, hd₀, hp⟩ := Option.map_eq_some_iff.1 hproc.symm
    exact ⟨d₀, hd₀, hp.trans hw⟩
  · rintro ⟨d', hd', hw⟩
    rw [hd'] at hproc
    obtain ⟨d₀, hd₀, hp⟩ := Option.map_eq_some_iff.1 hproc
    exact ⟨d₀, hd₀, hp.trans hw⟩

/-- A pass of the loop keeps the two timers on the list. -/
theorem ReportPair.rescheduled (h : ReportPair usecs stats reporter s l statsTime reporterTime)
    (hr : Rescheduled t d s s' l l') (hd : dataAt s t = some d) {statsTime' reporterTime' : Timeval}
    (hstats : dataAt s' stats = some ⟨.statsTimer, usecs, true, statsTime'⟩)
    (hreporter : dataAt s' reporter = some ⟨.reporterTimer, usecs, true, reporterTime'⟩) :
    ReportPair usecs stats reporter s' l' statsTime' reporterTime' := by
  have hmem : ∀ {a : Addr} {p : TimerProc} {time : Timeval}, a ∈ l →
      dataAt s a = some ⟨p, usecs, true, time⟩ → a ∈ l' := by
    intro a p time ha hda
    by_cases hat : a = t
    · subst hat
      have hperm := hr.perm
      rw [hd] at hda
      rw [Option.some.inj hda, if_pos rfl] at hperm
      exact hperm.mem_iff.2 ha
    · exact hr.mem hat ha
  refine ⟨hr.rep, hr.sorted, hmem h.statsMem h.statsData, hmem h.reporterMem h.reporterData, hstats, hreporter, ?_⟩
  intro a ha hne₁ hne₂ d' hd'
  have hproc := hr.proc hd a
  rw [hd'] at hproc
  obtain ⟨d₀, hd₀, hp⟩ := Option.map_eq_some_iff.1 hproc.symm
  rw [← hp]
  exact h.others a (hr.sub ha) hne₁ hne₂ d₀ hd₀

/-! ### One pass of the loop -/

theorem ReportPair.ne (h : ReportPair usecs stats reporter s l statsTime reporterTime) : stats ≠ reporter := by
  rintro rfl
  have hdata := h.statsData
  rw [h.reporterData] at hdata
  cases hdata

theorem ReportPair.statsKey (h : ReportPair usecs stats reporter s l statsTime reporterTime) :
    keyAt s stats = statsTime.key := by
  rw [keyAt, h.statsData]
  rfl

theorem ReportPair.reporterKey (h : ReportPair usecs stats reporter s l statsTime reporterTime) :
    keyAt s reporter = reporterTime.key := by
  rw [keyAt, h.reporterData]
  rfl

/-- Nothing with the time of the reporter timer is behind something later. -/
theorem ReportPair.not_between (h : ReportPair usecs stats reporter s l statsTime reporterTime) {w : Addr}
    (hkey : reporterTime.key < keyAt s w) : ¬ [w, reporter].Sublist l := by
  intro hw
  have hle := h.sorted.key_le hw
  rw [h.reporterKey] at hle
  exact absurd (hkey.trans_le hle) (lt_irrefl _)

/-- The stats timer fires. -/
theorem StatsNext.fireStats (h : StatsNext usecs stats reporter s (pre ++ stats :: rest) time) (hu : 0 < usecs)
    (hdue : ¬ now.before time) :
    ∃ s' pre' todo', tmrRunNext stats true s = some s' ∧ todo'.head? = rest.head? ∧
      ReporterNext usecs stats reporter now s' (pre' ++ todo') todo' time := by
  obtain ⟨free, hrep⟩ := h.rep
  have hnd := hrep.nodup_active
  obtain ⟨s', l', hs', hr⟩ := tmrRunNext_rescheduled hrep h.sorted (by simp) h.statsData
  obtain ⟨pre', todo', rfl, hhead, htodo⟩ := hr.cut hnd
  have hreporter : reporter ∈ rest := (pair_sublist_iff hnd).1 h.before
  have htodo := htodo (List.ne_nil_of_mem hreporter)
  have hpair : ReportPair usecs stats reporter s' (pre' ++ todo') (addUsecs time usecs) time :=
    h.toReportPair.rescheduled hr h.statsData hr.expired (by rw [hr.data _ h.ne.symm]; exact h.reporterData)
  have hlater : time.key < (addUsecs time usecs).key := key_lt_addUsecs time hu
  refine ⟨s', pre', todo', hs', hhead, hpair, ?_, hdue, (htodo _ h.ne.symm).2 hreporter, ?_, ?_⟩
  · refine (pair_sublist_or hpair.reporterMem hpair.statsMem h.ne.symm).resolve_right fun hbefore => ?_
    rw [hr.moved rfl _ h.reporterMem h.ne.symm, hpair.statsKey, hpair.reporterKey] at hbefore
    exact absurd (hlater.trans hbefore) (lt_irrefl _)
  · intro w hw hafter
    have hmem : w ∈ pre ++ stats :: rest := hr.sub (hafter.mem (by simp))
    have hne : w ≠ stats := by
      rintro rfl
      exact absurd hafter (fun hdup => by simpa using hdup.nodup hr.nodup)
    exact (hr.moved rfl w hmem hne).1 hafter
  · intro w hw hafter
    have hne : w ≠ stats := by
      rintro rfl
      obtain ⟨d, hd, homit⟩ := hw
      rw [hpair.statsData] at hd
      cases hd
      cases homit
    have hrest : w ∈ rest := (htodo w hne).1 (hafter.mem (by simp))
    refine h.between w ((hr.resetsReports h.statsData).1 hw) ((pair_sublist_iff hnd).2 hrest) ?_
    exact (hr.others w reporter hne h.ne.symm).1 (hafter.trans (List.sublist_append_right ..))

/-- The reporter timer fires. -/
theorem ReporterNext.fireReporter (h : ReporterNext usecs stats reporter now s (pre ++ reporter :: rest)
    (reporter :: rest) time) :
    ∃ s' pre' todo', tmrRunNext reporter true s = some s' ∧ todo'.head? = rest.head? ∧ stats ∈ todo' ∧
      StatsNext usecs stats reporter s' (pre' ++ todo') (addUsecs time usecs) := by
  obtain ⟨free, hrep⟩ := h.rep
  have hnd := hrep.nodup_active
  obtain ⟨s', l', hs', hr⟩ := tmrRunNext_rescheduled hrep h.sorted (by simp) h.reporterData
  obtain ⟨pre', todo', rfl, hhead, htodo⟩ := hr.cut hnd
  have hstats : stats ∈ rest := (pair_sublist_iff hnd).1 h.before
  have hpair : ReportPair usecs stats reporter s' (pre' ++ todo') (addUsecs time usecs) (addUsecs time usecs) :=
    h.toReportPair.rescheduled hr h.reporterData (by rw [hr.data _ h.ne]; exact h.statsData) hr.expired
  refine ⟨s', pre', todo', hs', hhead, (htodo (List.ne_nil_of_mem hstats) _ h.ne).2 hstats, hpair, ?_, ?_⟩
  · refine (pair_sublist_or hpair.statsMem hpair.reporterMem h.ne).resolve_right fun hbefore => ?_
    rw [hr.moved rfl _ h.statsMem h.ne, hpair.statsKey, hpair.reporterKey] at hbefore
    exact absurd hbefore (lt_irrefl _)
  · intro w hw hafter
    have hne : w ≠ reporter := by
      rintro rfl
      obtain ⟨d, hd, homit⟩ := hw
      rw [hpair.reporterData] at hd
      cases hd
      cases homit
    have hkey := h.behind w ((hr.resetsReports h.reporterData).1 hw) ((hr.others _ _ h.ne hne).1 hafter)
    refine hpair.not_between ?_
    rw [h.toReportPair.statsKey] at hkey
    rwa [keyAt, hr.data w hne]

/-- Another timer goes to a new place, or is gone. -/
theorem StatsNext.rescheduled (h : StatsNext usecs stats reporter s l time) (hr : Rescheduled t d s s' l l')
    (hd : dataAt s t = some d) (hnd : l.Nodup) (ht : t ∈ l) (hstats : t ≠ stats) (hreporter : t ≠ reporter) :
    StatsNext usecs stats reporter s' l' time := by
  have hpair : ReportPair usecs stats reporter s' l' time time := by
    refine h.toReportPair.rescheduled hr hd ?_ ?_
    · rw [hr.data _ hstats.symm]
      exact h.statsData
    · rw [hr.data _ hreporter.symm]
      exact h.reporterData
  refine ⟨hpair, (hr.others _ _ hstats.symm hreporter.symm).2 h.before, fun w hw hafter hbefore => ?_⟩
  by_cases hne : w = t
  · subst hne
    have hperm := hr.perm
    cases hp : d.periodic with
    | true =>
      have hkey := (hr.moved hp _ h.reporterMem hreporter.symm).1 hbefore
      have hle := hr.sorted.key_le hafter
      rw [hpair.reporterKey] at hkey
      rw [hpair.statsKey] at hle
      exact absurd (hle.trans_lt hkey) (lt_irrefl _)
    | false =>
      rw [hp, if_neg (by simp)] at hperm
      exact (List.nodup_cons.1 (hperm.nodup_iff.2 hnd)).1 (hbefore.mem (by simp))
  · exact h.between w ((hr.resetsReports hd).1 hw) ((hr.others _ _ hstats.symm hne).1 hafter)
      ((hr.others _ _ hne hreporter.symm).1 hbefore)

/-- A timer fires that does not matter to the two. -/
theorem StatsNext.fireOther (h : StatsNext usecs stats reporter s (pre ++ t :: rest) time)
    (hd : dataAt s t = some d) (hstats : t ≠ stats) (hreporter : t ≠ reporter) :
    ∃ s' pre' todo', tmrRunNext t d.periodic s = some s' ∧ todo'.head? = rest.head? ∧
      (stats ∈ rest → stats ∈ todo') ∧ StatsNext usecs stats reporter s' (pre' ++ todo') time := by
  obtain ⟨free, hrep⟩ := h.rep
  have hnd := hrep.nodup_active
  obtain ⟨s', l', hs', hr⟩ := tmrRunNext_rescheduled hrep h.sorted (by simp) hd
  have hnext := h.rescheduled hr hd hnd (by simp) hstats hreporter
  obtain ⟨pre', todo', rfl, hhead, htodo⟩ := hr.cut hnd
  exact ⟨s', pre', todo', hs', hhead, fun hmem => (htodo (List.ne_nil_of_mem hmem) _ hstats.symm).2 hmem, hnext⟩

/-- Up to the reporter timer, the loop comes neither to the stats timer nor to an omit timer. -/
theorem ReporterNext.head (h : ReporterNext usecs stats reporter now s (pre ++ t :: rest) (t :: rest) time)
    (hreporter : t ≠ reporter) : t ≠ stats ∧ ¬ ResetsReports s t ∧ reporter ∈ rest := by
  obtain ⟨free, hrep⟩ := h.rep
  have hahead : reporter ∈ rest := (List.mem_cons.1 h.ahead).resolve_left hreporter.symm
  have hbefore : [t, reporter].Sublist (t :: rest) := (List.singleton_sublist.2 hahead).cons_cons t
  refine ⟨?_, fun hw => h.between t hw hbefore, hahead⟩
  rintro rfl
  exact pair_sublist_asymm hrep.nodup_active h.before (hbefore.trans (List.sublist_append_right ..))

theorem ReporterNext.fireOther (h : ReporterNext usecs stats reporter now s (pre ++ t :: rest) (t :: rest) time)
    (hd : dataAt s t = some d) (hreporter : t ≠ reporter) :
    ∃ s' pre' todo', tmrRunNext t d.periodic s = some s' ∧ todo'.head? = rest.head? ∧
      ReporterNext usecs stats reporter now s' (pre' ++ todo') todo' time := by
  obtain ⟨free, hrep⟩ := h.rep
  have hnd := hrep.nodup_active
  obtain ⟨hstats, homit, hahead⟩ := h.head hreporter
  obtain ⟨s', l', hs', hr⟩ := tmrRunNext_rescheduled hrep h.sorted (by simp) hd
  obtain ⟨pre', todo', rfl, hhead, htodo⟩ := hr.cut hnd
  have htodo := htodo (List.ne_nil_of_mem hahead)
  have hpair : ReportPair usecs stats reporter s' (pre' ++ todo') (addUsecs time usecs) time := by
    refine h.toReportPair.rescheduled hr hd ?_ ?_
    · rw [hr.data _ hstats.symm]
      exact h.statsData
    · rw [hr.data _ hreporter.symm]
      exact h.reporterData
  have hne : ∀ {w}, ResetsReports s' w → w ≠ t := by
    rintro w hw rfl
    exact homit ((hr.resetsReports hd).1 hw)
  refine ⟨s', pre', todo', hs', hhead, hpair, (hr.others _ _ hreporter.symm hstats.symm).2 h.before, h.due,
    (htodo _ hreporter.symm).2 hahead, fun w hw hafter => ?_, fun w hw hafter => ?_⟩
  · have hkey := h.behind w ((hr.resetsReports hd).1 hw) ((hr.others _ _ hstats.symm (hne hw)).1 hafter)
    rwa [keyAt, keyAt, hr.data _ hstats.symm, hr.data _ (hne hw)]
  · have hrest : [w, reporter].Sublist (pre ++ t :: rest) :=
      (hr.others _ _ (hne hw) hreporter.symm).1 (hafter.trans (List.sublist_append_right ..))
    have hmem : w ∈ rest := (htodo w (hne hw)).1 (hafter.mem (by simp))
    exact h.between w ((hr.resetsReports hd).1 hw) (pair_sublist_of_append hnd (List.mem_cons_of_mem _ hmem) hrest)

/-- The stats timer and the reporter timer are reset, in this order. -/
theorem StatsNext.resetBoth (h : StatsNext usecs stats reporter s l time) (now : Timeval) :
    ∃ s₁ s₂ l₂, tmrReset now stats s = some s₁ ∧ tmrReset now reporter s₁ = some s₂ ∧ l₂.Perm l ∧
      (∀ a, a ≠ stats → a ≠ reporter → dataAt s₂ a = dataAt s a) ∧
      StatsNext usecs stats reporter s₂ l₂ (addUsecs now usecs) := by
  obtain ⟨free, hrep⟩ := h.rep
  obtain ⟨s₁, l₁, hs₁, h₁⟩ := tmrReset_rearranged hrep h.sorted h.statsMem now
  have hreporter₁ : reporter ∈ l₁ := h₁.perm.mem_iff.2 h.reporterMem
  obtain ⟨s₂, l₂, hs₂, h₂⟩ := tmrReset_rearranged h₁.rep h₁.sorted hreporter₁ now
  have hother₁ : ∀ a, a ≠ stats → lastReset [(now, stats)] a = none := by
    intro a ha
    simp [lastReset, ha.symm]
  have hother₂ : ∀ a, a ≠ reporter → lastReset [(now, reporter)] a = none := by
    intro a ha
    simp [lastReset, ha.symm]
  have hdata₁ : ∀ a, a ≠ stats → dataAt s₁ a = dataAt s a := by
    intro a ha
    rw [h₁.data, hother₁ a ha, map_resetAt_none]
  have hdata₂ : ∀ a, a ≠ reporter → dataAt s₂ a = dataAt s₁ a := by
    intro a ha
    rw [h₂.data, hother₂ a ha, map_resetAt_none]
  have hstats₁ : dataAt s₁ stats = some ⟨.statsTimer, usecs, true, addUsecs now usecs⟩ := by
    rw [h₁.data, h.statsData]
    simp [lastReset, TimerData.resetAt]
  have hstats₂ : dataAt s₂ stats = some ⟨.statsTimer, usecs, true, addUsecs now usecs⟩ := by
    rw [hdata₂ _ h.ne, hstats₁]
  have hreporter₂ : dataAt s₂ reporter = some ⟨.reporterTimer, usecs, true, addUsecs now usecs⟩ := by
    rw [h₂.data, hdata₁ _ h.ne.symm, h.reporterData]
    simp [lastReset, TimerData.resetAt]
  have hperm : l₂.Perm l := h₂.perm.trans h₁.perm
  have hdata : ∀ a, a ≠ stats → a ≠ reporter → dataAt s₂ a = dataAt s a := by
    intro a ha ha'
    rw [hdata₂ a ha', hdata₁ a ha]
  have hpair : ReportPair usecs stats reporter s₂ l₂ (addUsecs now usecs) (addUsecs now usecs) := by
    refine ⟨⟨free, h₂.rep⟩, h₂.sorted, hperm.mem_iff.2 h.statsMem, hperm.mem_iff.2 h.reporterMem, hstats₂,
      hreporter₂, fun a ha hne₁ hne₂ d hd => ?_⟩
    rw [hdata a hne₁ hne₂] at hd
    exact h.others a (hperm.mem_iff.1 ha) hne₁ hne₂ d hd
  refine ⟨s₁, s₂, l₂, hs₁, hs₂, hperm, hdata, hpair, ?_, fun w hw hafter => ?_⟩
  · refine (pair_sublist_or hpair.statsMem hpair.reporterMem h.ne).resolve_right fun hbefore => ?_
    rw [h₂.moved _ _ hreporter₁ (h₁.perm.mem_iff.2 h.statsMem) (by simp [lastReset]) (hother₂ _ h.ne),
      hpair.statsKey, hpair.reporterKey] at hbefore
    exact absurd hbefore (lt_irrefl _)
  · have hne : w ≠ stats ∧ w ≠ reporter := by
      obtain ⟨d, hd, homit⟩ := hw
      constructor
      · rintro rfl
        rw [hstats₂] at hd
        cases hd
        cases homit
      · rintro rfl
        rw [hreporter₂] at hd
        cases hd
        cases homit
    have hmem : w ∈ l := hperm.mem_iff.1 (hafter.mem (by simp))
    have hkey := (h₁.moved _ _ h.statsMem hmem (by simp [lastReset]) (hother₁ w hne.1)).1
      ((h₂.others _ _ (hother₂ _ h.ne) (hother₂ w hne.2)).1 hafter)
    refine hpair.not_between ?_
    rw [keyAt, keyAt, hstats₁] at hkey
    rwa [keyAt, hdata₂ w hne.2]

/-- An omit timer fires, whose procedure has reset the two. -/
theorem StatsNext.fireOmit (h : StatsNext usecs stats reporter s (pre ++ t :: rest) time) {s₁ s₂ : TimerState TimerProc}
    (hd : dataAt s t = some d) (hstats : t ≠ stats) (hreporter : t ≠ reporter) (hs₁ : tmrReset now stats s = some s₁)
    (hs₂ : tmrReset now reporter s₁ = some s₂) :
    dataAt s₂ t = some d ∧ ∃ s' pre' todo', tmrRunNext t d.periodic s₂ = some s' ∧ todo'.head? = rest.head? ∧
      StatsNext usecs stats reporter s' (pre' ++ todo') (addUsecs now usecs) := by
  obtain ⟨free, hrep⟩ := h.rep
  have hnd := hrep.nodup_active
  obtain ⟨r₁, r₂, l₂, hr₁, hr₂, hperm, hdata, hnext⟩ := h.resetBoth now
  obtain rfl : r₁ = s₁ := Option.some.inj (hr₁.symm.trans hs₁)
  obtain rfl : r₂ = s₂ := Option.some.inj (hr₂.symm.trans hs₂)
  have hd₂ : dataAt r₂ t = some d := (hdata t hstats hreporter).trans hd
  have ht : t ∈ l₂ := hperm.mem_iff.2 (by simp)
  obtain ⟨free₂, hrep₂⟩ := hnext.rep
  obtain ⟨s', l', hs', hr⟩ := tmrRunNext_rescheduled hrep₂ hnext.sorted ht hd₂
  have hnext' := hnext.rescheduled hr hd₂ hrep₂.nodup_active ht hstats hreporter
  refine ⟨hd₂, ?_⟩
  cases rest with
  | nil => exact ⟨s', l', [], hs', rfl, by rwa [List.append_nil]⟩
  | cons b rest =>
    have hbt : b ≠ t := by
      rintro rfl
      rw [List.nodup_append, List.nodup_cons] at hnd
      exact hnd.2.1.1 (List.mem_cons_self ..)
    have hb : b ∈ l' := hr.mem hbt (hperm.mem_iff.2 (by simp))
    obtain ⟨pre', todo', rfl⟩ := List.append_of_mem hb
    exact ⟨s', pre', b :: todo', hs', rfl, hnext'⟩

/-! ### Whose turn it is -/

/-- Where the loop of `tmr_run` is after `calls` calls of the two procedures: at the first timer of `todo`. -/
inductive Turn (usecs : Int) (stats reporter : Addr) (now : Timeval) (calls : Nat) (s : TimerState TimerProc)
    (pre todo : List Addr) : Prop where
  /-- It comes to the stats timer before it comes to the reporter timer, or the two are not due. -/
  | stats {time : Timeval} (even : calls % 2 = 0) (next : StatsNext usecs stats reporter s (pre ++ todo) time)
      (ahead : stats ∈ todo ∨ now.before time) : Turn usecs stats reporter now calls s pre todo
  | reporter {time : Timeval} (odd : calls % 2 = 1)
      (next : ReporterNext usecs stats reporter now s (pre ++ todo) todo time) :
      Turn usecs stats reporter now calls s pre todo

/-- Whose turn it is after `n` calls -/
def turn (n : Nat) : TimerProc := if n % 2 = 0 then .statsTimer else .reporterTimer

/-- What the procedure `proc` does with the timers `s`. -/
def Leaves (now : Timeval) (stats reporter : Addr) (proc : TimerProc) (s s' : TimerState TimerProc) : Prop :=
  if proc = .omitTimer then ∃ s₁, tmrReset now stats s = some s₁ ∧ tmrReset now reporter s₁ = some s' else s' = s

/-- The loop does not come to the reporter timer while it is the turn of the stats timer. -/
theorem StatsNext.head (h : StatsNext usecs stats reporter s (pre ++ t :: rest) time)
    (hahead : stats ∈ t :: rest ∨ now.before time) (hd : dataAt s t = some d) (hdue : ¬ now.before d.time) :
    t ≠ reporter := by
  rintro rfl
  obtain ⟨free, hrep⟩ := h.rep
  rw [h.reporterData] at hd
  obtain rfl := Option.some.inj hd
  have hstats := (List.mem_cons.1 (hahead.resolve_right hdue)).resolve_left h.ne
  exact pair_sublist_asymm hrep.nodup_active h.before ((pair_sublist_iff hrep.nodup_active).2 hstats)

theorem Turn.listed {calls : Nat} (h : Turn usecs stats reporter now calls s pre todo) :
    (∃ free, Rep s (pre ++ todo) free []) ∧ Sorted s (pre ++ todo) := by
  cases h with
  | stats _ hnext _ => exact ⟨hnext.rep, hnext.sorted⟩
  | reporter _ hnext => exact ⟨hnext.rep, hnext.sorted⟩

/-- The procedures are called when it is their turn. -/
theorem Turn.calls {calls : Nat} (h : Turn usecs stats reporter now calls s pre (t :: rest))
    (hd : dataAt s t = some d) (hdue : ¬ now.before d.time) (hp : d.proc.reports = true) : d.proc = turn calls := by
  have hmem : t ∈ pre ++ t :: rest := by simp
  cases h with
  | stats heven hnext hahead =>
    have hreporter := hnext.head hahead hd hdue
    by_cases hstats : t = stats
    · subst hstats
      rw [hnext.statsData] at hd
      obtain rfl := Option.some.inj hd
      rw [turn, if_pos heven]
    · rw [hnext.others t hmem hstats hreporter d hd] at hp
      cases hp
  | reporter hodd hnext =>
    by_cases hreporter : t = reporter
    · subst hreporter
      rw [hnext.reporterData] at hd
      obtain rfl := Option.some.inj hd
      rw [turn, if_neg (by omega)]
    · rw [hnext.others t hmem (hnext.head hreporter).1 hreporter d hd] at hp
      cases hp

/-- One pass of the loop. -/
theorem Turn.pass {calls : Nat} {s₁ : TimerState TimerProc} (h : Turn usecs stats reporter now calls s pre (t :: rest))
    (hu : 0 < usecs) (hd : dataAt s t = some d) (hdue : ¬ now.before d.time)
    (hs₁ : Leaves now stats reporter d.proc s s₁) :
    dataAt s₁ t = some d ∧ ∃ s' pre' todo', tmrRunNext t d.periodic s₁ = some s' ∧ todo'.head? = rest.head? ∧
      Turn usecs stats reporter now (calls + if d.proc.reports then 1 else 0) s' pre' todo' := by
  have hmem : t ∈ pre ++ t :: rest := by simp
  unfold Leaves at hs₁
  cases h with
  | @stats time heven hnext hahead =>
    have hreporter := hnext.head hahead hd hdue
    by_cases hstats : t = stats
    · subst hstats
      have hd' := hd
      rw [hnext.statsData] at hd'
      obtain rfl := Option.some.inj hd'
      rw [if_neg TimerProc.noConfusion] at hs₁
      subst hs₁
      obtain ⟨s', pre', todo', hs', hhead, hnext'⟩ := hnext.fireStats hu hdue
      exact ⟨hd, s', pre', todo', hs', hhead, .reporter (by simp [TimerProc.reports]; omega) hnext'⟩
    · rw [hnext.others t hmem hstats hreporter d hd]
      split at hs₁
      · obtain ⟨s₀, hs₀, hs₁⟩ := hs₁
        obtain ⟨hd₁, s', pre', todo', hs', hhead, hnext'⟩ := hnext.fireOmit hd hstats hreporter hs₀ hs₁
        have hlater : now.before (addUsecs now usecs) := (before_iff ..).2 (key_lt_addUsecs now hu)
        exact ⟨hd₁, s', pre', todo', hs', hhead, .stats heven hnext' (.inr hlater)⟩
      · subst hs₁
        obtain ⟨s', pre', todo', hs', hhead, hahead', hnext'⟩ := hnext.fireOther hd hstats hreporter
        refine ⟨hd, s', pre', todo', hs', hhead, .stats heven hnext' (hahead.imp_left fun hstats' => ?_)⟩
        exact hahead' ((List.mem_cons.1 hstats').resolve_left (Ne.symm hstats))
  | reporter hodd hnext =>
    by_cases hreporter : t = reporter
    · subst hreporter
      have hd' := hd
      rw [hnext.reporterData] at hd'
      obtain rfl := Option.some.inj hd'
      rw [if_neg TimerProc.noConfusion] at hs₁
      subst hs₁
      obtain ⟨s', pre', todo', hs', hhead, hstats, hnext'⟩ := hnext.fireReporter
      exact ⟨hd, s', pre', todo', hs', hhead, .stats (by simp [TimerProc.reports]; omega) hnext' (.inl hstats)⟩
    · obtain ⟨hstats, homit, -⟩ := hnext.head hreporter
      rw [if_neg fun hp => homit ⟨d, hd, hp⟩] at hs₁
      subst hs₁
      rw [hnext.others t hmem hstats hreporter d hd]
      obtain ⟨s', pre', todo', hs', hhead, hnext'⟩ := hnext.fireOther hd hreporter
      exact ⟨hd, s', pre', todo', hs', hhead, .reporter hodd hnext'⟩

/-- The loop ends where it is the turn of the stats timer. -/
theorem Turn.done {calls : Nat} (h : Turn usecs stats reporter now calls s pre todo)
    (hdone : ∀ a ∈ todo, ∀ d, dataAt s a = some d → now.before d.time) :
    calls % 2 = 0 ∧ ∃ l time, StatsNext usecs stats reporter s l time := by
  cases h with
  | stats heven hnext _ => exact ⟨heven, _, _, hnext⟩
  | reporter _ hnext => exact absurd (hdone reporter hnext.ahead _ hnext.reporterData) hnext.due

end Order

/-! ## The timer procedures -/

/-- The handles of the test are those of the two timers. -/
def Handled (stats reporter : Addr) (t : IperfTest) : Prop :=
  t.statsTimer = some stats ∧ t.reporterTimer = some reporter

section Procedures

variable {stats reporter : Addr} {s : TimerState TimerProc}

/-- The timers and the handles that matter here. -/
def TimersAre (stats reporter : Addr) (s : TimerState TimerProc) (m : Mem) : Prop :=
  m.timers = s ∧ Handled stats reporter m.test

theorem iperfCheckThrottle_keeps (sp : Nat) (now : Timeval) :
    Steady (TimersAre stats reporter s) (fun _ => True) (fun _ => True) (iperfCheckThrottle sp now) := by
  refine .getTest_bind fun t _ => .ite (fun _ => .pure _) fun _ => .getStream_bind trivial fun st _ => ?_
  refine .ite (fun _ => ?_) fun _ => ?_
  all_goals exact .bind ((Prog.stays_modify _).2 fun _ h => h) fun _ => (Prog.stays_modify _).2 fun _ h => h

/-- The statistics and the reports leave the timers and their handles alone. -/
theorem countIndifferent_timers (stats reporter : Addr) (s : TimerState TimerProc) :
    CountIndifferent (TimersAre stats reporter s) (fun _ => True) fun _ => True where
  req _ _ := trivial
  onFds _ _ _ _ := trivial
  stop _ _ := trivial
  empty _ _ _ := trivial
  state _ _ _ _ := .inl trivial
  change m m' hm ht hs := by
    have hhandles : m'.test.handles = m.test.handles := congrArg (fun v => v.2.1) ht
    refine ⟨hs.trans hm.1, ?_, ?_⟩
    · exact (congrArg TimerHandles.statsTimer hhandles).trans hm.2.1
    · exact (congrArg TimerHandles.reporterTimer hhandles).trans hm.2.2
  throttle _ sp now _ _ := iperfCheckThrottle_keeps sp now

/-- A timer procedure other than that of an omit timer. -/
theorem timerProc_keeps (t : Addr) {proc : TimerProc} (hproc : proc ≠ .omitTimer) (now : Timeval) :
    Prog.Hoare (TimersAre stats reporter s) (timerProc t proc now)
      fun _ => TimersAre stats reporter s := by
  have hh := countIndifferent_timers stats reporter s
  cases proc with
  | testTimer => exact .modify fun _ h => h
  | statsTimer =>
    have hsteady : Steady _ _ _ statsTimerProc :=
      .getTest_bind fun _ _ => .ite (fun _ => .pure _) fun _ => iperfStatsCallback_steady hh
    exact hsteady.hoare
  | reporterTimer =>
    have hsteady : Steady _ _ _ reporterTimerProc :=
      .getTest_bind fun _ _ => .ite (fun _ => .pure _) fun _ => iperfReporterCallback_steady hh
    exact hsteady.hoare
  | omitTimer => exact absurd rfl hproc
  | sendTimer sp => exact (iperfCheckThrottle_keeps sp now).hoare

/-- `tmr_reset` behind a handle. -/
theorem resetHandle_hoare (now : Timeval) {a : Addr} {P : TimerState TimerProc → Prop}
    (hP : ∀ s', tmrReset now a s = some s' → P s') :
    Prog.Hoare (TimersAre stats reporter s) (resetHandle now (some a))
      fun _ m => P m.timers ∧ Handled stats reporter m.test := by
  rintro m g ⟨rfl, hm⟩
  show (memTimers.run (tmrReset now a)).Safe Prog.free _ m g
  rw [TimerView.run, Prog.safe_bind, Prog.safe_get]
  cases h : tmrReset now a (memTimers.get m) with
  | none => exact trivial
  | some s' => exact ⟨trivial, hP s' h, hm⟩

/-- The procedure of an omit timer resets the stats timer and then the reporter timer. -/
theorem omitTimerProc_resets (now : Timeval) :
    Prog.Hoare (TimersAre stats reporter s) (omitTimerProc now)
      fun _ m => (∃ s₁, tmrReset now stats s = some s₁ ∧ tmrReset now reporter s₁ = some m.timers) ∧
        Handled stats reporter m.test := by
  have hh := countIndifferent_timers stats reporter s
  have hreset : ∀ t : IperfTest, Handled stats reporter t →
      Prog.Hoare (TimersAre stats reporter s) (do
        resetHandle now t.statsTimer
        resetHandle now t.reporterTimer)
      fun _ m => (∃ s₁, tmrReset now stats s = some s₁ ∧ tmrReset now reporter s₁ = some m.timers) ∧
        Handled stats reporter m.test := by
    rintro t ⟨hstats, hreporter⟩
    rw [hstats, hreporter]
    refine .bind (resetHandle_hoare now (P := fun s₁ => tmrReset now stats s = some s₁) fun _ h => h) fun _ => ?_
    rintro m g ⟨hs₁, hm⟩
    exact resetHandle_hoare now (P := fun s' => ∃ s₁, tmrReset now stats s = some s₁ ∧
      tmrReset now reporter s₁ = some s') (fun s' hs' => ⟨m.timers, hs₁, hs'⟩) m g ⟨rfl, hm⟩
  refine .bind (M := fun _ => TimersAre stats reporter s) (.modify fun _ h => h) fun _ => ?_
  refine .bind (Prog.Stays.hoare (iperfResetStats_steady hh)) fun _ => ?_
  rintro m g ⟨hs, hm⟩
  refine Prog.Hoare.ite (fun _ => ?_) (fun _ => hreset m.test hm) m g ⟨hs, hm⟩
  exact .bind (.ask fun _ _ h => h) fun _ => hreset m.test hm

/-- A timer procedure -/
theorem timerProc_leaves (t : Addr) (proc : TimerProc) (now : Timeval) :
    Prog.Hoare (TimersAre stats reporter s) (timerProc t proc now)
      fun _ m => Leaves now stats reporter proc s m.timers ∧ Handled stats reporter m.test := by
  unfold Leaves
  by_cases hproc : proc = .omitTimer
  · subst hproc
    simp only [if_true]
    exact omitTimerProc_resets now
  · simp only [if_neg hproc]
    exact timerProc_keeps t hproc now

end Procedures

end Iperf
