import WifiTestTool.Iperf.Proofs.Accounting

/-!
# The loss figures of a UDP receiver

An observer who sees the numbers of the packets of a stream knows how many packets are missing and how
many came out of order in every interval (`LossLog`). The receiver keeps running totals instead, and
reports the differences between the total at the end of an interval and the one in the last record.
`iperf_reset_stats` sets the totals back to zero, but not the record, so the first interval after the
omit period is wrong if anything was lost in the intervals before it.
-/

namespace Iperf

open Reactive

/-! ## The observer -/

/-- The packets that were missing, and those that came out of order. -/
abbrev Figures : Type := Nat × Nat

/-- The notes of an observer of one stream. -/
structure LossLog where
  /-- The number that the next packet should have. -/
  next : Nat
  /-- The number that the next packet should have had when the counting started. -/
  first : Nat
  /-- The intervals before the end of the omit period. -/
  omitted : List Figures
  /-- The other intervals. -/
  recorded : List Figures
  /-- The current interval. -/
  current : Figures
deriving DecidableEq

namespace LossLog

/-- The notes before the first packet, which has the number 1. -/
def start : LossLog := ⟨1, 1, [], [], (0, 0)⟩

/-- The packet `p` arrives. -/
def packet (p : Nat) (l : LossLog) : LossLog :=
  if l.next ≤ p then
    { l with next := (p + 1) % 0x100000000, current := (l.current.1 + (p - l.next), l.current.2) }
  else
    { l with current := (l.current.1, l.current.2 + 1) }

/-- An interval ends. -/
def close (l : LossLog) : LossLog :=
  { l with recorded := l.recorded ++ [l.current], current := (0, 0) }

/-- The omit period ends. -/
def restart (l : LossLog) : LossLog :=
  { l with first := l.next, omitted := l.recorded, recorded := [], current := (0, 0) }

end LossLog

/-- The sums of the figures of some intervals. -/
def totals (fs : List Figures) : Figures := ((fs.map Prod.fst).sum, (fs.map Prod.snd).sum)

@[simp] theorem totals_nil : totals [] = (0, 0) := rfl

@[simp] theorem totals_cons (f : Figures) (fs : List Figures) :
    totals (f :: fs) = (f.1 + (totals fs).1, f.2 + (totals fs).2) := rfl

theorem totals_snoc (fs : List Figures) (f : Figures) :
    totals (fs ++ [f]) = ((totals fs).1 + f.1, (totals fs).2 + f.2) := by
  simp [totals]

/-! ## Running totals and differences -/

/-- The running total `s` as the receiver has it. -/
def counted (s : Figures) : Int × Int := (toInt s.1, s.2)

/-- What the receiver reports for the intervals `fs`, when the totals at the start were `s`, and `prev`
in the last record. -/
def reported (prev : Int × Int) (s : Figures) : List Figures → List (Int × Int)
  | [] => []
  | f :: fs =>
    let s' : Figures := (s.1 + f.1, s.2 + f.2)
    ((counted s').1 - prev.1, (counted s').2 - prev.2) :: reported (counted s') s' fs

/-- The totals in the last record. -/
def lastCounted (prev : Int × Int) (s : Figures) (fs : List Figures) : Int × Int :=
  if fs = [] then prev else counted (s.1 + (totals fs).1, s.2 + (totals fs).2)

/-- The figures of the intervals as integers. -/
def asReported (fs : List Figures) : List (Int × Int) := fs.map fun f => ((f.1 : Int), (f.2 : Int))

theorem toInt_le (n : Nat) : toInt n ≤ n := by
  have h := Int.bmod_add_bdiv (n : Int) 0x100000000
  unfold toInt
  rw [Int.bmod_def]
  split <;> omega

theorem toInt_eq_iff (n : Nat) : toInt n = n ↔ n < 0x80000000 := by
  unfold toInt
  rw [Int.bmod_def]
  split <;> omega

/-- The receiver reports the true figures if and only if the last record had the true totals and they
have not overflowed since. -/
theorem reported_eq_iff (fs : List Figures) : ∀ (prev : Int × Int) (s : Figures), (s.1 : Int) ≤ prev.1 →
    (reported prev s fs = asReported fs ↔
      fs = [] ∨ (prev = ((s.1 : Int), (s.2 : Int)) ∧ s.1 + (totals fs).1 < 0x80000000)) := by
  induction fs with
  | nil => exact fun prev s _ => iff_of_true rfl (.inl rfl)
  | cons f fs ih =>
    intro prev s hle
    have hsum := toInt_le (s.1 + f.1)
    have hiff := toInt_eq_iff (s.1 + f.1)
    show ((counted (s.1 + f.1, s.2 + f.2)).1 - prev.1, (counted (s.1 + f.1, s.2 + f.2)).2 - prev.2) ::
        reported (counted (s.1 + f.1, s.2 + f.2)) (s.1 + f.1, s.2 + f.2) fs =
      ((f.1 : Int), (f.2 : Int)) :: asReported fs ↔ _
    rw [List.cons.injEq, Prod.mk.injEq]
    have ih' := ih (counted (s.1 + f.1, s.2 + f.2)) (s.1 + f.1, s.2 + f.2)
    have hcounted : counted (s.1 + f.1, s.2 + f.2) = (toInt (s.1 + f.1 : Nat), ((s.2 + f.2 : Nat) : Int)) :=
      rfl
    rw [hcounted] at ih' ⊢
    rw [totals_cons]
    generalize toInt (s.1 + f.1 : Nat) = c at *
    constructor
    · rintro ⟨⟨h₁, h₂⟩, hrest⟩
      dsimp only at h₁ h₂
      have htrue : c = (s.1 + f.1 : Nat) := by push_cast at *; omega
      have hlt := hiff.1 htrue
      refine .inr ⟨Prod.ext (by push_cast at *; omega) (by push_cast at *; omega), ?_⟩
      rcases (ih' htrue.ge).1 hrest with rfl | ⟨-, hlt'⟩
      · exact hlt
      · rw [← Nat.add_assoc]
        exact hlt'
    · rintro (h | ⟨rfl, hlt⟩)
      · cases h
      · dsimp only at hlt ⊢
        have htrue : c = (s.1 + f.1 : Nat) := hiff.2 (by omega)
        refine ⟨⟨by rw [htrue]; push_cast; omega, by push_cast; omega⟩, ?_⟩
        refine (ih' htrue.ge).2 (.inr ⟨by rw [htrue], ?_⟩)
        rw [← Nat.add_assoc] at hlt
        exact hlt

theorem lastCounted_nil (prev : Int × Int) (s : Figures) : lastCounted prev s [] = prev := if_pos rfl

theorem lastCounted_cons (prev : Int × Int) (s f : Figures) (fs : List Figures) :
    lastCounted prev s (f :: fs) = lastCounted (counted (s.1 + f.1, s.2 + f.2)) (s.1 + f.1, s.2 + f.2) fs := by
  unfold lastCounted
  rw [if_neg (List.cons_ne_nil f fs), totals_cons, ← Nat.add_assoc, ← Nat.add_assoc]
  split
  · rename_i h
    rw [h]
    rfl
  · rfl

theorem lastCounted_snoc (prev : Int × Int) (s f : Figures) (fs : List Figures) :
    lastCounted prev s (fs ++ [f]) =
      counted (s.1 + (totals fs).1 + f.1, s.2 + (totals fs).2 + f.2) := by
  unfold lastCounted
  rw [if_neg (by simp), totals_snoc, Nat.add_assoc, Nat.add_assoc]

/-- What is reported for one more interval. -/
theorem reported_snoc (fs : List Figures) (f : Figures) : ∀ (prev : Int × Int) (s : Figures),
    reported prev s (fs ++ [f]) = reported prev s fs ++
      [((lastCounted prev s (fs ++ [f])).1 - (lastCounted prev s fs).1,
        (lastCounted prev s (fs ++ [f])).2 - (lastCounted prev s fs).2)] := by
  induction fs with
  | nil =>
    intro prev s
    rw [List.nil_append, lastCounted_cons]
    rfl
  | cons g fs ih =>
    intro prev s
    rw [List.cons_append, reported, ih, lastCounted_cons, lastCounted_cons]
    rfl

/-- The condition under which all reports of a stream are true: the losses of either period can be
counted, and nothing was lost before the end of the omit period that a later record would be compared
with. -/
def LossLog.Fine (l : LossLog) : Prop :=
  (totals l.omitted).1 < 0x80000000 ∧ (totals l.recorded).1 < 0x80000000 ∧
    (l.recorded = [] ∨ totals l.omitted = (0, 0))

instance (l : LossLog) : Decidable l.Fine := inferInstanceAs (Decidable (_ ∧ _))

/-- What the receiver reports for the intervals of a stream. -/
def LossLog.reports (l : LossLog) : List (Int × Int) :=
  reported (0, 0) (0, 0) l.omitted ++ reported (lastCounted (0, 0) (0, 0) l.omitted) (0, 0) l.recorded

theorem reported_length (fs : List Figures) : ∀ (prev : Int × Int) (s : Figures),
    (reported prev s fs).length = fs.length := by
  induction fs with
  | nil => exact fun _ _ => rfl
  | cons f fs ih => exact fun prev s => congrArg (· + 1) (ih _ _)

/-- The totals in the last record of the omit period. -/
theorem lastCounted_start {fs : List Figures} (h : (totals fs).1 < 0x80000000) :
    lastCounted (0, 0) (0, 0) fs = (((totals fs).1 : Int), ((totals fs).2 : Int)) := by
  unfold lastCounted
  split
  · rename_i hfs
    rw [hfs]
    rfl
  · have hfirst := (toInt_eq_iff (totals fs).1).2 h
    rw [Nat.zero_add, Nat.zero_add, counted, hfirst]

theorem reports_eq_iff (l : LossLog) : l.reports = asReported (l.omitted ++ l.recorded) ↔ l.Fine := by
  have hsplit : l.reports = asReported (l.omitted ++ l.recorded) ↔
      reported (0, 0) (0, 0) l.omitted = asReported l.omitted ∧
      reported (lastCounted (0, 0) (0, 0) l.omitted) (0, 0) l.recorded = asReported l.recorded := by
    unfold LossLog.reports asReported
    rw [List.map_append]
    refine ⟨fun h => List.append_inj h ?_, fun h => by rw [h.1, h.2]⟩
    rw [reported_length, List.length_map]
  have hfirst : reported (0, 0) (0, 0) l.omitted = asReported l.omitted ↔
      (totals l.omitted).1 < 0x80000000 := by
    rw [reported_eq_iff _ _ _ le_rfl, Nat.zero_add]
    refine ⟨?_, fun h => .inr ⟨rfl, h⟩⟩
    rintro (h | ⟨-, h⟩)
    · rw [h]
      decide
    · exact h
  rw [hsplit, hfirst, LossLog.Fine]
  refine and_congr_right fun hlt => ?_
  rw [lastCounted_start hlt, reported_eq_iff _ _ _ (Int.natCast_nonneg _), Nat.zero_add]
  constructor
  · rintro (h | ⟨h, hlt'⟩)
    · rw [h]
      exact ⟨by decide, .inl rfl⟩
    · rw [Prod.mk.injEq] at h
      exact ⟨hlt', .inr (Prod.ext (by exact_mod_cast h.1) (by exact_mod_cast h.2))⟩
  · rintro ⟨hlt', h | h⟩
    · exact .inl h
    · rw [h]
      exact .inr ⟨rfl, hlt'⟩

/-! ## The receiver and the observer -/

theorem toInt_congr {a b : Int} (h : a % 0x100000000 = b % 0x100000000) : toInt a = toInt b := by
  unfold toInt
  rw [← Int.emod_bmod a, ← Int.emod_bmod b]
  exact congrArg (Int.bmod · _) h

theorem toInt_zero : toInt 0 = 0 := by decide

theorem toInt_emod (a : Int) : toInt a % 0x100000000 = a % 0x100000000 := Int.bmod_emod

/-- What the last record of a stream says about losses. -/
def IperfStreamResult.lastFigures (rp : IperfStreamResult) : Int × Int :=
  match rp.intervalResults.getLast? with
  | none => (0, 0)
  | some irp => (irp.cntError, irp.outoforderPackets)

/-- What the records of a stream report. -/
def IperfStreamResult.figures (rp : IperfStreamResult) : List (Int × Int) :=
  rp.intervalResults.map fun irp => (irp.intervalCntError, irp.intervalOutoforderPackets)

/-- The counters of the stream `st` are those of a receiver that has seen what the observer has. -/
structure Tracks (l : LossLog) (st : IperfStream) : Prop where
  next_lt : l.next < 0x100000000
  packetCount : st.packetCount = toInt (l.next - 1)
  omittedPacketCount : st.omittedPacketCount = toInt (l.first - 1)
  cntError : st.cntError = toInt ((totals l.recorded).1 + l.current.1)
  outoforderPackets : st.outoforderPackets = (totals l.recorded).2 + l.current.2
  figures : st.result.figures = l.reports
  lastFigures : st.result.lastFigures =
    lastCounted (lastCounted (0, 0) (0, 0) l.omitted) (0, 0) l.recorded

/-- What `iperf_udp_recv` counts. -/
def IperfStream.udpCounts (st : IperfStream) : (Int × Int) × (Int × Int) × List IperfIntervalResults :=
  ((st.packetCount, st.omittedPacketCount), (st.cntError, st.outoforderPackets), st.result.intervalResults)

theorem Tracks.congr {l : LossLog} {st st' : IperfStream} (h : Tracks l st)
    (hc : st'.udpCounts = st.udpCounts) : Tracks l st' := by
  simp only [IperfStream.udpCounts, Prod.mk.injEq] at hc
  obtain ⟨⟨h₁, h₂⟩, ⟨h₃, h₄⟩, h₅⟩ := hc
  refine ⟨h.next_lt, h₁.trans h.packetCount, h₂.trans h.omittedPacketCount, h₃.trans h.cntError,
    h₄.trans h.outoforderPackets, ?_, ?_⟩
  · rw [← h.figures, IperfStreamResult.figures, h₅]
    rfl
  · rw [← h.lastFigures, IperfStreamResult.lastFigures, h₅]
    rfl

/-- Other numbers and losses in the current interval. -/
theorem Tracks.advance {l : LossLog} {st : IperfStream} (h : Tracks l st) {next lost : Nat}
    {packetCount cntError : Int} (hlt : next < 0x100000000) (hcount : packetCount = toInt (next - 1))
    (hlost : cntError = toInt ((totals l.recorded).1 + lost)) :
    Tracks { l with next := next, current := (lost, l.current.2) }
      { st with cntError := cntError, packetCount := packetCount } :=
  ⟨hlt, hcount, h.omittedPacketCount, hlost, h.outoforderPackets, h.figures, h.lastFigures⟩

/-- `iperf_udp_recv` counts a packet as the observer does. -/
theorem Tracks.packet {l : LossLog} {st : IperfStream} (h : Tracks l st) (p : Nat) :
    Tracks (l.packet p) (countPacket p st).1 := by
  have hnext : (st.packetCount + 1) % 0x100000000 = l.next := by
    have := h.next_lt
    have := toInt_emod (l.next - 1)
    rw [h.packetCount]
    omega
  unfold countPacket LossLog.packet
  rw [hnext]
  by_cases hle : l.next ≤ p
  · rw [if_pos hle, if_pos (by exact_mod_cast hle)]
    have hlost : toInt (st.cntError + (p - 1 - st.packetCount)) =
        toInt ((totals l.recorded).1 + (l.current.1 + (p - l.next : Nat) : Nat)) := by
      have hpackets := toInt_emod (l.next - 1)
      have hlosses := toInt_emod ((totals l.recorded).1 + l.current.1)
      rw [← h.packetCount] at hpackets
      rw [← h.cntError] at hlosses
      refine toInt_congr ?_
      push_cast [hle]
      omega
    have hcount : toInt (p : Int) = toInt (((p + 1) % 0x100000000 : Nat) - 1) := toInt_congr (by omega)
    have hlt : (p + 1) % 0x100000000 < 0x100000000 := Nat.mod_lt _ (by decide)
    by_cases hgt : l.next < p
    · rw [if_pos (by exact_mod_cast hgt)]
      exact h.advance hlt hcount hlost
    · rw [if_neg (by exact_mod_cast hgt)]
      have heq : l.current.1 + (p - l.next) = l.current.1 := by omega
      rw [heq]
      exact h.advance hlt hcount h.cntError
  · rw [if_neg hle, if_neg (by exact_mod_cast hle)]
    refine ⟨h.next_lt, h.packetCount, h.omittedPacketCount, h.cntError, ?_, h.figures, h.lastFigures⟩
    dsimp only
    rw [h.outoforderPackets]
    push_cast
    ring

theorem packetRecord_figures (st : IperfStream) (temp : IperfIntervalResults) :
    ((packetRecord st temp).intervalCntError, (packetRecord st temp).intervalOutoforderPackets) =
      (st.cntError - st.result.lastFigures.1, st.outoforderPackets - st.result.lastFigures.2) ∧
    ((packetRecord st temp).cntError, (packetRecord st temp).outoforderPackets) =
      (st.cntError, st.outoforderPackets) := by
  unfold packetRecord IperfStreamResult.lastFigures
  cases st.result.intervalResults.getLast? with
  | none => exact ⟨Prod.ext (sub_zero _).symm (sub_zero _).symm, rfl⟩
  | some irp => exact ⟨rfl, rfl⟩

theorem ClosesInterval.udpCounts {t : IperfTest} {st st' : IperfStream} (h : ClosesInterval t st st') :
    ∃ temp, RecordOf t st temp ∧
      st'.udpCounts = (st.udpCounts.1, st.udpCounts.2.1, st.result.intervalResults ++ [temp]) := by
  obtain ⟨temp, endTime, hrec, rfl⟩ := h
  refine ⟨temp, hrec, ?_⟩
  by_cases hc : t.countsRetransmits <;>
    simp [hc, IperfStream.udpCounts, IperfStream.closeInterval, IperfStream.countRetransmits]

/-- `iperf_stats_callback` ends an interval as the observer does. -/
theorem Tracks.close {l : LossLog} {t : IperfTest} {st st' : IperfStream} (h : Tracks l st)
    (hc : ClosesInterval t st st') (hp : t.protocol = .udp) : Tracks l.close st' := by
  obtain ⟨temp, hrec, hcounts⟩ := hc.udpCounts
  obtain ⟨temp₀, rfl⟩ := hrec.packets (by rw [hp]; decide)
  obtain ⟨hfigures, hlast⟩ := packetRecord_figures st temp₀
  simp only [IperfStream.udpCounts, Prod.mk.injEq] at hcounts hfigures hlast
  obtain ⟨⟨h₁, h₂⟩, ⟨h₃, h₄⟩, h₅⟩ := hcounts
  have hnow : (st.cntError, st.outoforderPackets) =
      lastCounted (lastCounted (0, 0) (0, 0) l.omitted) (0, 0) (l.recorded ++ [l.current]) := by
    rw [lastCounted_snoc, Nat.zero_add, Nat.zero_add, h.cntError, h.outoforderPackets, counted]
    push_cast
    rfl
  refine ⟨h.next_lt, h₁.trans h.packetCount, h₂.trans h.omittedPacketCount, ?_, ?_, ?_, ?_⟩
  · rw [h₃, h.cntError]
    show _ = toInt ((totals (l.recorded ++ [l.current])).1 + (0 : Nat))
    rw [totals_snoc]
    push_cast
    rw [add_zero]
  · rw [h₄, h.outoforderPackets]
    show _ = ((totals (l.recorded ++ [l.current])).2 : Int) + (0 : Nat)
    rw [totals_snoc]
    push_cast
    rw [add_zero]
  · have hreports : l.close.reports = l.reports ++
        [(st.cntError - st.result.lastFigures.1, st.outoforderPackets - st.result.lastFigures.2)] := by
      unfold LossLog.reports LossLog.close
      rw [reported_snoc, ← List.append_assoc, ← hnow, ← h.lastFigures]
    rw [hreports, ← h.figures, IperfStreamResult.figures, h₅, List.map_append, List.map_singleton,
      hfigures.1, hfigures.2]
    rfl
  · unfold IperfStreamResult.lastFigures
    rw [h₅, List.getLast?_concat]
    dsimp only
    rw [hlast.1, hlast.2]
    exact hnow

/-- `iperf_reset_stats` starts the counting afresh, as the observer does. -/
theorem Tracks.restart {l : LossLog} {st st' : IperfStream} (h : Tracks l st) (hr : Restarts st st')
    (ho : l.omitted = []) : Tracks l.restart st' := by
  obtain ⟨now, total, rfl⟩ := hr
  have hfigures := h.figures
  have hlast := h.lastFigures
  rw [LossLog.reports, ho, lastCounted_nil, reported, List.nil_append] at hfigures
  rw [ho, lastCounted_nil] at hlast
  have hzero : ((totals l.restart.recorded).1 : Int) + l.restart.current.1 = 0 := rfl
  have hnext : l.restart.next = l.next := rfl
  have hfirst : l.restart.first = l.next := rfl
  refine ⟨h.next_lt, ?_, ?_, ?_, rfl, ?_, ?_⟩
  · rw [hnext]
    exact h.packetCount
  · rw [hfirst]
    exact h.packetCount
  · rw [hzero, toInt_zero]
    rfl
  · rw [LossLog.reports, LossLog.restart, reported, List.append_nil, ← hfigures]
    rfl
  · rw [LossLog.restart, lastCounted_nil, ← hlast]
    rfl

/-! ## `iperf_udp_recv` -/

theorem countPacket_udpCounts (p : Nat) {st st' : IperfStream} (h : st'.udpCounts = st.udpCounts) :
    (countPacket p st').1.udpCounts = (countPacket p st).1.udpCounts := by
  simp only [IperfStream.udpCounts, Prod.mk.injEq] at h
  obtain ⟨⟨h₁, h₂⟩, ⟨h₃, h₄⟩, h₅⟩ := h
  simp only [countPacket, apply_ite Prod.fst, IperfStream.udpCounts, h₁, h₂, h₃, h₄]
  split_ifs <;> simp only [h₂, h₃, h₄, h₅]

theorem countPacket_buffer (p : Nat) (st : IperfStream) : (countPacket p st).1.buffer = st.buffer := by
  simp only [countPacket, apply_ite Prod.fst, apply_ite IperfStream.buffer, ite_self]

theorem measureJitter_udpCounts (sent arrival : Timeval) (st : IperfStream) :
    (measureJitter sent arrival st).udpCounts = st.udpCounts := rfl

/-- What `iperf_udp_recv` does to the stream at `sp`: with a result that is no error, it has counted the
packet whose number is in the buffer. -/
def Receives (t : IperfTest) (sp : Nat) (r : Int) (t' : IperfTest) : Prop :=
  ∃ f : IperfStream → IperfStream, t' = { t with streams := t.streams.modify sp f } ∧
    ∀ st, t.streams[sp]? = some st →
      (f st).udpCounts =
        if r < 0 then st.udpCounts else (countPacket (bufferWord (f st).buffer 8) st).1.udpCounts

theorem streamRead_udpCounts (fuel : Nat) (t : IperfTest) (sp : Nat) :
    Ends t (streamRead fuel sp) fun _ t' => ∃ f : IperfStream → IperfStream,
      t' = { t with streams := t.streams.modify sp f } ∧ ∀ st, (f st).udpCounts = st.udpCounts := by
  refine .getTest_bind (.getStream_bind fun st _ => .silent_bind (nreadLoop_silent _ _ _ _) fun got => ?_)
  cases got with
  | none =>
    refine .pure ⟨id, ?_, fun _ => rfl⟩
    rw [List.modify_id]
  | some bs => exact .modifyTest_bind (.pure ⟨_, rfl, fun _ => rfl⟩)

theorem iperfUdpRecv_receives (fuel : Nat) (t : IperfTest) (sp : Nat) :
    Ends t (iperfUdpRecv fuel sp) (Receives t sp) := by
  refine .bind (streamRead_udpCounts fuel t sp) ?_
  rintro r _ ⟨f, rfl, hf⟩
  refine .ite (fun hr => .pure ⟨f, rfl, fun st _ => ?_⟩) fun hr => .modifyTest_bind ?_
  · rw [if_pos hr, hf]
  refine .getStream_bind fun st₁ hst₁ => .modifyTest_bind ?_
  rw [List.modify_modify_eq] at hst₁ ⊢
  rw [List.modify_modify_eq]
  have hrest : ∀ (t' : IperfTest) (g : IperfStream → IperfStream), t' = { t with streams := t.streams.modify sp g } →
      (∀ st, t.streams[sp]? = some st → (g st).buffer = st₁.buffer ∧
        (g st).udpCounts = (countPacket (bufferWord st₁.buffer 8) st).1.udpCounts) → Ends t' (do
      let arrival ← gettimeofday
      modifyStream sp (measureJitter ⟨bufferWord st₁.buffer 0, bufferWord st₁.buffer 4⟩ arrival)
      pure r) (Receives t sp) := by
    rintro _ g rfl hg
    refine .silent_bind gettimeofday_silent fun arrival => .modifyTest_bind (.pure ?_)
    rw [Receives]
    refine ⟨measureJitter ⟨bufferWord st₁.buffer 0, bufferWord st₁.buffer 4⟩ arrival ∘ g, ?_, fun st hst => ?_⟩
    · rw [List.modify_modify_eq]
    · obtain ⟨hbuffer, hcounts⟩ := hg st hst
      rw [if_neg hr]
      show (g st).udpCounts = (countPacket (bufferWord (g st).buffer 8) st).1.udpCounts
      rw [hbuffer, hcounts]
  have hg : ∀ st, t.streams[sp]? = some st →
      ((countPacket (bufferWord st₁.buffer 8) (IperfStream.received r (f st))).1).buffer = st₁.buffer ∧
        ((countPacket (bufferWord st₁.buffer 8) (IperfStream.received r (f st))).1).udpCounts =
          (countPacket (bufferWord st₁.buffer 8) st).1.udpCounts := by
    intro st hst
    have hsame : st₁ = IperfStream.received r (f st) := by
      rw [List.getElem?_modify_eq, hst] at hst₁
      exact (Option.some.inj hst₁).symm
    refine ⟨?_, countPacket_udpCounts _ (hf st)⟩
    rw [countPacket_buffer, ← hsame]
  exact .ite (fun _ => .silent_bind (.sys _) fun _ => hrest _ _ rfl hg) fun _ => hrest _ _ rfl hg

/-! ## Runs -/

/-- A run of a UDP receiver from `m₀`, with the notes of the observers of its streams: packets arrive in
any order, `iperf_stats_callback` is called at any time, and the omit period ends. The number of a
packet is what stands in the buffer when `iperf_udp_recv` has returned. -/
inductive UdpRun (m₀ : Mem) : List LossLog → Mem → Prop where
  | start : UdpRun m₀ (m₀.test.streams.map fun _ => .start) m₀
  | packet {logs : List LossLog} {m m' : Mem} {fuel sp : Nat} {r : Int} {st : IperfStream} :
      UdpRun m₀ logs m → Prog.Returns (iperfUdpRecv fuel sp) m r m' → 0 ≤ r →
      m'.test.streams[sp]? = some st →
      UdpRun m₀ (logs.modify sp (LossLog.packet (bufferWord st.buffer 8))) m'
  | failure {logs : List LossLog} {m m' : Mem} {fuel sp : Nat} {r : Int} :
      UdpRun m₀ logs m → Prog.Returns (iperfUdpRecv fuel sp) m r m' → r < 0 → UdpRun m₀ logs m'
  | stats {logs : List LossLog} {m m' : Mem} :
      UdpRun m₀ logs m → Prog.Returns iperfStatsCallback m () m' →
      UdpRun m₀ (logs.map LossLog.close) m'
  | omitOver {logs : List LossLog} {m m' : Mem} {now : Timeval} :
      UdpRun m₀ logs m → m.test.omitting = true → Prog.Returns (omitTimerProc now) m () m' →
      UdpRun m₀ (logs.map LossLog.restart) m'

/-- What holds along a run: the streams count what their observers have seen. -/
structure UdpInv (logs : List LossLog) (t : IperfTest) : Prop where
  protocol : t.protocol = .udp
  tracks : List.Forall₂ Tracks logs t.streams
  omitting : t.omitting = true → ∀ l ∈ logs, l.omitted = []

theorem forall₂_modify {α β : Type} {R : α → β → Prop} {l : List α} {l' : List β} {f : α → α} {g : β → β}
    {i : Nat} (h : List.Forall₂ R l l') (hfg : ∀ a b, l[i]? = some a → l'[i]? = some b → R a b → R (f a) (g b)) :
    List.Forall₂ R (l.modify i f) (l'.modify i g) := by
  induction h generalizing i with
  | nil => cases i <;> exact .nil
  | cons hab hl ih =>
    cases i with
    | zero => exact .cons (hfg _ _ rfl rfl hab) hl
    | succ i => exact .cons hab (ih fun a b ha hb => hfg a b ha hb)

theorem packet_omitted (p : Nat) (l : LossLog) : (l.packet p).omitted = l.omitted := by
  unfold LossLog.packet
  split <;> rfl

theorem UdpInv.packet {logs : List LossLog} {t t' : IperfTest} {sp : Nat} {r : Int} {st : IperfStream}
    (h : UdpInv logs t) (hr : Receives t sp r t') (hpos : 0 ≤ r) (hst : t'.streams[sp]? = some st) :
    UdpInv (logs.modify sp (LossLog.packet (bufferWord st.buffer 8))) t' := by
  obtain ⟨f, rfl, hf⟩ := hr
  refine ⟨h.protocol, forall₂_modify h.tracks fun l st₀ _ hst₀ hl => ?_, fun ho l hl => ?_⟩
  · have hsame : f st₀ = st := by
      rw [List.getElem?_modify_eq, hst₀] at hst
      exact Option.some.inj hst
    have hcounts := hf st₀ hst₀
    rw [if_neg (not_lt.2 hpos), hsame] at hcounts
    rw [hsame]
    exact (hl.packet (bufferWord st.buffer 8)).congr hcounts
  · rcases mem_modify hl with hl | ⟨l', hl', rfl⟩
    · exact h.omitting ho l hl
    · rw [packet_omitted]
      exact h.omitting ho l' hl'

theorem UdpInv.failure {logs : List LossLog} {t t' : IperfTest} {sp : Nat} {r : Int}
    (h : UdpInv logs t) (hr : Receives t sp r t') (hneg : r < 0) : UdpInv logs t' := by
  obtain ⟨f, rfl, hf⟩ := hr
  refine ⟨h.protocol, ?_, h.omitting⟩
  have hmodify := @forall₂_modify _ _ _ _ _ id f sp h.tracks fun l st _ hst hl => by
    have hcounts := hf st hst
    rw [if_pos hneg] at hcounts
    exact hl.congr hcounts
  rwa [List.modify_id] at hmodify

theorem forall₂_map_left {α α' β β' : Type} {R : α → β → Prop} {R' : α' → β' → Prop} {S : β → β' → Prop}
    {P : α → Prop} {f : α → α'} {l : List α} {l₁ : List β} {l₂ : List β'} (h : List.Forall₂ R l l₁)
    (hs : List.Forall₂ S l₁ l₂) (hP : ∀ a ∈ l, P a)
    (hf : ∀ a b b', P a → R a b → S b b' → R' (f a) b') : List.Forall₂ R' (l.map f) l₂ := by
  induction h generalizing l₂ with
  | nil =>
    cases hs
    exact .nil
  | cons hab _ ih =>
    cases hs with
    | cons hbb hs =>
      exact .cons (hf _ _ _ (hP _ List.mem_cons_self) hab hbb)
        (ih hs fun a ha => hP a (List.mem_cons_of_mem _ ha))

theorem UdpInv.close {logs : List LossLog} {t t' : IperfTest} (h : UdpInv logs t)
    (hc : Each (ClosesInterval t) t t') : UdpInv (logs.map LossLog.close) t' := by
  refine ⟨?_, ?_, fun ho l hl => ?_⟩
  · rw [hc.rest]
    exact h.protocol
  · exact forall₂_map_left h.tracks hc.streams (fun _ _ => trivial) fun l st st' _ hl hst =>
      hl.close hst h.protocol
  · rw [hc.rest] at ho
    obtain ⟨l', hl', rfl⟩ := List.mem_map.1 hl
    exact h.omitting ho l' hl'

theorem UdpInv.restart {logs : List LossLog} {t t₁ t' : IperfTest} (h : UdpInv logs t)
    (ho : t.omitting = true) (hr : Each Restarts t₁ t') (hp : t₁.protocol = t.protocol)
    (ho₁ : t₁.omitting = false) (hst : t₁.streams = t.streams) :
    UdpInv (logs.map LossLog.restart) t' := by
  refine ⟨?_, ?_, fun ho' => ?_⟩
  · rw [hr.rest]
    exact hp.trans h.protocol
  · exact forall₂_map_left h.tracks (hst ▸ hr.streams) (h.omitting ho) fun l st st' hl htracks hrst =>
      htracks.restart hrst hl
  · rw [hr.rest] at ho'
    exact absurd (ho₁.symm.trans ho') Bool.false_ne_true

theorem tracks_unused {st : IperfStream} (h : st.Unused) : Tracks .start st := by
  have hzero : toInt (((1 : Nat) : Int) - 1) = 0 := by decide
  refine ⟨by decide, ?_, ?_, ?_, ?_, ?_, ?_⟩
  · rw [h.packetCount]
    exact hzero.symm
  · rw [h.omittedPacketCount]
    exact hzero.symm
  · rw [h.cntError]
    exact toInt_zero.symm
  · rw [h.outoforderPackets]
    rfl
  · unfold IperfStreamResult.figures
    rw [h.intervalResults]
    rfl
  · unfold IperfStreamResult.lastFigures
    rw [h.intervalResults]
    rfl

theorem UdpInv.start {t : IperfTest} (hp : t.protocol = .udp) (h : ∀ st ∈ t.streams, st.Unused) :
    UdpInv (t.streams.map fun _ => .start) t := by
  refine ⟨hp, ?_, fun _ l hl => ?_⟩
  · rw [List.forall₂_map_left_iff, List.forall₂_same]
    exact fun st hst => tracks_unused (h st hst)
  · obtain ⟨st, -, rfl⟩ := List.mem_map.1 hl
    rfl

theorem udpRun_inv {m₀ m : Mem} {logs : List LossLog} (hp : m₀.test.protocol = .udp)
    (hst : ∀ st ∈ m₀.test.streams, st.Unused) (h : UdpRun m₀ logs m) : UdpInv logs m.test := by
  induction h with
  | start => exact .start hp hst
  | packet _ hcall hr hst ih => exact ih.packet ((iperfUdpRecv_receives _ _ _).returns hcall) hr hst
  | failure _ hcall hr ih => exact ih.failure ((iperfUdpRecv_receives _ _ _).returns hcall) hr
  | stats _ hcall ih => exact ih.close ((iperfStatsCallback_ends _).returns hcall)
  | omitOver _ ho hcall ih => exact ih.restart ho ((omitTimerProc_ends _ _).returns hcall) rfl rfl rfl

/-- All intervals of a stream report what was missing and what came out of order in them. -/
def ReportsTrue (l : LossLog) (st : IperfStream) : Prop :=
  st.result.figures = asReported (l.omitted ++ l.recorded)

/-- A UDP receiver of one stream in blocks of 12 bytes. -/
def smallReceiver : IperfTest :=
  let t := setProtocol .udp (iperfSetTestRole .server mainTest)
  { t with
    omitting := true
    settings := { t.settings with blksize := 12 }
    streams := [newStream t 3 4 (-1) (List.replicate 12 0)] }

/-- The packet `p` is all that arrives. -/
def onePacket (p : UInt8) (_ : Nat) : (r : Req) → r.Ans
  | .read _ _ => .ok [0, 0, 0, 0, 0, 0, 0, 0, 0, 0, 0, p]
  | r => r.quiet

/-- The calls of the receiver: the packet `p`, the end of an interval, the end of the omit period, the
packet `p + 1`, and the end of another interval. -/
def receiverCall (p : UInt8) (i : Nat) : Mem → Mem :=
  match i with
  | 0 => Prog.after (onePacket p) 100 (iperfUdpRecv 9 0)
  | 2 => Prog.after (onePacket p) 100 (omitTimerProc ⟨0, 0⟩)
  | 3 => Prog.after (onePacket (p + 1)) 100 (iperfUdpRecv 9 0)
  | _ => Prog.after (onePacket p) 100 iperfStatsCallback

/-- The receiver after some of these calls. -/
def receiverState (p : UInt8) : Nat → Mem
  | 0 => Mem.start smallReceiver
  | i + 1 => receiverCall p i (receiverState p i)

theorem receiverState_run {p : UInt8} (hp : p = 1 ∨ p = 5) :
    UdpRun (Mem.start smallReceiver)
      [(LossLog.packet (p + 1).toNat (LossLog.packet p.toNat .start).close.restart).close]
      (receiverState p 5) := by
  have h₁ : Prog.Returns (iperfUdpRecv 9 0) (receiverState p 0) 12 (receiverState p 1) :=
    .of_drive _ 100 (by rcases hp with rfl | rfl <;> decide)
  have h₂ : Prog.Returns iperfStatsCallback (receiverState p 1) () (receiverState p 2) :=
    .of_drive _ 100 (by rcases hp with rfl | rfl <;> decide)
  have h₃ : Prog.Returns (omitTimerProc ⟨0, 0⟩) (receiverState p 2) () (receiverState p 3) :=
    .of_drive _ 100 (by rcases hp with rfl | rfl <;> decide)
  have h₄ : Prog.Returns (iperfUdpRecv 9 0) (receiverState p 3) 12 (receiverState p 4) :=
    .of_drive _ 100 (by rcases hp with rfl | rfl <;> decide)
  have h₅ : Prog.Returns iperfStatsCallback (receiverState p 4) () (receiverState p 5) :=
    .of_drive _ 100 (by rcases hp with rfl | rfl <;> decide)
  have homit : (receiverState p 2).test.omitting = true := by rcases hp with rfl | rfl <;> decide
  have hnum₁ : (receiverState p 1).test.streams.map (bufferWord ·.buffer 8) = [p.toNat] := by
    rcases hp with rfl | rfl <;> decide
  have hnum₄ : (receiverState p 4).test.streams.map (bufferWord ·.buffer 8) = [(p + 1).toNat] := by
    rcases hp with rfl | rfl <;> decide
  obtain ⟨st₁, hst₁, hnum₁⟩ := List.map_eq_singleton_iff.1 hnum₁
  obtain ⟨st₄, hst₄, hnum₄⟩ := List.map_eq_singleton_iff.1 hnum₄
  have hrun₁ := UdpRun.packet (.start) h₁ (by decide) (by rw [hst₁]; rfl)
  have hrun := UdpRun.stats (.packet (.omitOver (.stats hrun₁ h₂) homit h₃) h₄ (by decide)
    (by rw [hst₄]; rfl)) h₅
  rw [hnum₁, hnum₄] at hrun
  exact hrun

end Iperf
