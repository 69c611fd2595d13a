import Mathlib.Order.Interval.Finset.Nat
import WifiTestTool.Iperf.Proofs.UdpLoss

/-!
# The loss count and the order of arrival

Between two calls of `iperf_reset_stats` the counters of a stream of a UDP receiver depend on the numbers
of its packets only. The books balance: a packet is counted as received, as missing or as late. But a
packet that is late was counted as missing before, and that is never taken back.
-/

namespace Iperf

open Reactive

/-! ## The run of one stream -/

/-- What happens to the counters of a stream. -/
inductive Arrival where
  /-- The packet with this number arrives. -/
  | packet (p : Nat)
  /-- `iperf_reset_stats` -/
  | reset

/-- The counters of a stream that `iperf_udp_recv` keeps. -/
def IperfStream.packetCounters (st : IperfStream) : (Int × Int) × (Int × Int) :=
  ((st.packetCount, st.omittedPacketCount), (st.cntError, st.outoforderPackets))

/-- A run from `m₀` in which the given things happen to the stream at `sp`. Calls that fail, calls for other
streams and calls of `iperf_stats_callback` may come in between. -/
inductive ReceiverRun (m₀ : Mem) (sp : Nat) : List Arrival → Mem → Prop where
  | start : ReceiverRun m₀ sp [] m₀
  | packet {es : List Arrival} {m m' : Mem} {fuel : Nat} {r : Int} {st : IperfStream} :
      ReceiverRun m₀ sp es m → Prog.Returns (iperfUdpRecv fuel sp) m r m' → 0 ≤ r →
      m'.test.streams[sp]? = some st → ReceiverRun m₀ sp (es ++ [.packet (bufferWord st.buffer 8)]) m'
  | failure {es : List Arrival} {m m' : Mem} {fuel : Nat} {r : Int} :
      ReceiverRun m₀ sp es m → Prog.Returns (iperfUdpRecv fuel sp) m r m' → r < 0 →
      ReceiverRun m₀ sp es m'
  | other {es : List Arrival} {m m' : Mem} {fuel sp' : Nat} {r : Int} :
      ReceiverRun m₀ sp es m → Prog.Returns (iperfUdpRecv fuel sp') m r m' → sp' ≠ sp →
      ReceiverRun m₀ sp es m'
  | stats {es : List Arrival} {m m' : Mem} :
      ReceiverRun m₀ sp es m → Prog.Returns iperfStatsCallback m () m' → ReceiverRun m₀ sp es m'
  | reset {es : List Arrival} {m m' : Mem} :
      ReceiverRun m₀ sp es m → Prog.Returns iperfResetStats m () m' →
      ReceiverRun m₀ sp (es ++ [.reset]) m'

/-- What becomes of a stream. -/
def Arrival.apply (st : IperfStream) : Arrival → IperfStream
  | .packet p => (countPacket p st).1
  | .reset => st.resetStats ⟨0, 0⟩ none

theorem packetCounters_eq {st st' : IperfStream} (h : st'.packetCounters = st.packetCounters) :
    st'.packetCount = st.packetCount ∧ st'.omittedPacketCount = st.omittedPacketCount ∧
      st'.cntError = st.cntError ∧ st'.outoforderPackets = st.outoforderPackets := by
  simp only [IperfStream.packetCounters, Prod.mk.injEq] at h
  obtain ⟨⟨h₁, h₂⟩, h₃, h₄⟩ := h
  exact ⟨h₁, h₂, h₃, h₄⟩

theorem packetCounters_of_udpCounts {st st' : IperfStream} (h : st'.udpCounts = st.udpCounts) :
    st'.packetCounters = st.packetCounters := by
  simp only [IperfStream.udpCounts, Prod.mk.injEq] at h
  simp only [IperfStream.packetCounters, h]

/-- What happens to the counters depends on the counters only. -/
theorem apply_packetCounters {st st' : IperfStream} (h : st'.packetCounters = st.packetCounters)
    (e : Arrival) : (e.apply st').packetCounters = (e.apply st).packetCounters := by
  obtain ⟨h₁, h₂, h₃, h₄⟩ := packetCounters_eq h
  cases e with
  | packet p =>
    simp only [Arrival.apply, countPacket, apply_ite Prod.fst, IperfStream.packetCounters, h₁, h₂, h₃, h₄]
    split_ifs <;> simp only [h₂, h₃, h₄]
  | reset => simp only [Arrival.apply, IperfStream.resetStats, IperfStream.packetCounters, h₁]

theorem restarts_packetCounters {st st' : IperfStream} (h : Restarts st st') :
    st'.packetCounters = (Arrival.reset.apply st).packetCounters := by
  obtain ⟨now, total, rfl⟩ := h
  rfl

theorem closesInterval_packetCounters {t : IperfTest} {st st' : IperfStream} (h : ClosesInterval t st st') :
    st'.packetCounters = st.packetCounters := by
  obtain ⟨temp, -, hcounts⟩ := h.udpCounts
  simp only [IperfStream.udpCounts, Prod.mk.injEq] at hcounts
  simp only [IperfStream.packetCounters, hcounts]

/-- A stream after a call that changes every stream as `R` says. -/
theorem Each.stream {R : IperfStream → IperfStream → Prop} {t t' : IperfTest} {sp : Nat} {st : IperfStream}
    (h : Each R t t') (hst : t.streams[sp]? = some st) : ∃ st', t'.streams[sp]? = some st' ∧ R st st' := by
  obtain ⟨hlt, rfl⟩ := List.getElem?_eq_some_iff.1 hst
  have hlt' : sp < t'.streams.length := h.streams.length_eq ▸ hlt
  exact ⟨t'.streams[sp], List.getElem?_eq_getElem hlt', (List.forall₂_iff_get.1 h.streams).2 sp hlt hlt'⟩

/-- The counters of the stream are what the things that have happened to it have made of them. -/
theorem ReceiverRun.counters {m₀ m : Mem} {sp : Nat} {es : List Arrival} {st₀ : IperfStream}
    (hst : m₀.test.streams[sp]? = some st₀) (h : ReceiverRun m₀ sp es m) :
    ∃ st, m.test.streams[sp]? = some st ∧
      st.packetCounters = (es.foldl Arrival.apply st₀).packetCounters := by
  induction h with
  | start => exact ⟨st₀, hst, rfl⟩
  | @packet _ _ _ _ _ st' _ hcall hr hst' ih =>
    obtain ⟨st, hst, hcounters⟩ := ih
    obtain ⟨f, ht, hf⟩ := (iperfUdpRecv_receives _ _ _).returns hcall
    have hsame : f st = st' := by
      rw [ht, List.getElem?_modify_eq, hst] at hst'
      exact Option.some.inj hst'
    have hcounts := hf st hst
    rw [if_neg (not_lt.2 hr), hsame] at hcounts
    refine ⟨st', hst', ?_⟩
    rw [List.foldl_concat, packetCounters_of_udpCounts hcounts]
    exact apply_packetCounters hcounters (.packet _)
  | failure _ hcall hr ih =>
    obtain ⟨st, hst, hcounters⟩ := ih
    obtain ⟨f, ht, hf⟩ := (iperfUdpRecv_receives _ _ _).returns hcall
    have hcounts := hf st hst
    rw [if_pos hr] at hcounts
    refine ⟨f st, ?_, (packetCounters_of_udpCounts hcounts).trans hcounters⟩
    rw [ht, List.getElem?_modify_eq, hst]
    rfl
  | other _ hcall hne ih =>
    obtain ⟨st, hst, hcounters⟩ := ih
    obtain ⟨f, ht, -⟩ := (iperfUdpRecv_receives _ _ _).returns hcall
    refine ⟨st, ?_, hcounters⟩
    rw [ht, List.getElem?_modify, hst]
    simp [hne]
  | stats _ hcall ih =>
    obtain ⟨st, hst, hcounters⟩ := ih
    obtain ⟨st', hst', hclose⟩ := ((iperfStatsCallback_ends _).returns hcall).stream hst
    exact ⟨st', hst', (closesInterval_packetCounters hclose).trans hcounters⟩
  | reset _ hcall ih =>
    obtain ⟨st, hst, hcounters⟩ := ih
    obtain ⟨st', hst', hrestart⟩ := ((iperfResetStats_ends _).returns hcall).stream hst
    refine ⟨st', hst', ?_⟩
    rw [List.foldl_concat, restarts_packetCounters hrestart]
    exact apply_packetCounters hcounters .reset

theorem ntohl_lt (bs : List UInt8) : ntohl bs < 256 ^ bs.length := by
  induction bs using List.reverseRecOn with
  | nil => decide
  | append_singleton bs b ih =>
    have hb := b.toNat_lt
    have hconcat : ntohl (bs ++ [b]) = ntohl bs * 256 + b.toNat := List.foldl_concat ..
    rw [hconcat, List.length_append, List.length_singleton, pow_succ]
    omega

theorem bufferWord_lt (buffer : List UInt8) (offset : Nat) : bufferWord buffer offset < 0x100000000 := by
  have hlen : (((buffer ++ List.replicate 12 0).drop offset).take 4).length ≤ 4 := List.length_take_le _ _
  exact (ntohl_lt _).trans_le (Nat.pow_le_pow_right (by decide) hlen)

/-- The numbers of packets are `uint32_t`. -/
theorem ReceiverRun.packet_lt {m₀ m : Mem} {sp : Nat} {es : List Arrival} (h : ReceiverRun m₀ sp es m)
    {p : Nat} (hp : Arrival.packet p ∈ es) : p < 0x100000000 := by
  induction h with
  | start => exact absurd hp List.not_mem_nil
  | packet _ _ _ _ ih =>
    rcases List.mem_append.1 hp with hp | hp
    · exact ih hp
    · cases List.mem_singleton.1 hp
      exact bufferWord_lt _ _
  | failure _ _ _ ih => exact ih hp
  | other _ _ _ ih => exact ih hp
  | stats _ _ ih => exact ih hp
  | reset _ _ ih =>
    rcases List.mem_append.1 hp with hp | hp
    · exact ih hp
    · cases List.mem_singleton.1 hp

/-- The packet `p` arrives. -/
def arrive (p : UInt8) (m : Mem) : Mem := Prog.after (onePacket p) 100 (iperfUdpRecv 9 0) m

/-- The receiver after two packets. -/
def arrived (p q : UInt8) : Mem := arrive q (arrive p (Mem.start smallReceiver))

theorem arrived_run {p q : UInt8} (hp : p = 1 ∧ q = 3 ∨ p = 2 ∧ q = 1) :
    ReceiverRun (Mem.start smallReceiver) 0 ([p.toNat, q.toNat].map .packet) (arrived p q) := by
  have h₁ : Prog.Returns (iperfUdpRecv 9 0) (Mem.start smallReceiver) 12 (arrive p (Mem.start smallReceiver)) :=
    .of_drive _ 100 (by rcases hp with ⟨rfl, rfl⟩ | ⟨rfl, rfl⟩ <;> decide)
  have h₂ : Prog.Returns (iperfUdpRecv 9 0) (arrive p (Mem.start smallReceiver)) 12 (arrived p q) :=
    .of_drive _ 100 (by rcases hp with ⟨rfl, rfl⟩ | ⟨rfl, rfl⟩ <;> decide)
  have hnum₁ : (arrive p (Mem.start smallReceiver)).test.streams.map (bufferWord ·.buffer 8) = [p.toNat] := by
    rcases hp with ⟨rfl, rfl⟩ | ⟨rfl, rfl⟩ <;> decide
  have hnum₂ : (arrived p q).test.streams.map (bufferWord ·.buffer 8) = [q.toNat] := by
    rcases hp with ⟨rfl, rfl⟩ | ⟨rfl, rfl⟩ <;> decide
  obtain ⟨st₁, hst₁, hnum₁⟩ := List.map_eq_singleton_iff.1 hnum₁
  obtain ⟨st₂, hst₂, hnum₂⟩ := List.map_eq_singleton_iff.1 hnum₂
  have hrun := ReceiverRun.packet (.packet .start h₁ (by decide) (by rw [hst₁]; rfl)) h₂ (by decide)
    (by rw [hst₂]; rfl)
  rw [hnum₁, hnum₂] at hrun
  exact hrun

/-! ## The books -/

/-- The greatest number of a packet, or 0. -/
def greatest (ns : List Nat) : Nat := ns.foldl max 0

theorem greatest_concat (ns : List Nat) (p : Nat) : greatest (ns ++ [p]) = max (greatest ns) p :=
  List.foldl_concat ..

/-- The numbers of the packets that have arrived. -/
def packetsOf (es : List Arrival) : List Nat :=
  es.filterMap fun
    | .packet p => some p
    | .reset => none

/-- The number of packets since the last call of `iperf_reset_stats`. -/
def sinceReset (es : List Arrival) : Nat :=
  es.foldl (fun n e => match e with
    | .packet _ => n + 1
    | .reset => 0) 0

/-- The counters account for all packets since the last call of `iperf_reset_stats`. -/
structure Accounts (es : List Arrival) (st : IperfStream) : Prop where
  packetCount : st.packetCount = greatest (packetsOf es)
  omittedPacketCount : 0 ≤ st.omittedPacketCount
  received : (sinceReset es : Int) =
    (st.packetCount - st.omittedPacketCount) - st.cntError + st.outoforderPackets
  cntError : 0 ≤ st.cntError
  cntError_le : st.cntError ≤ st.packetCount - st.omittedPacketCount

theorem packetsOf_concat (es : List Arrival) (p : Nat) :
    packetsOf (es ++ [.packet p]) = packetsOf es ++ [p] := by
  unfold packetsOf
  rw [List.filterMap_append]
  rfl

theorem packetsOf_concat_reset (es : List Arrival) : packetsOf (es ++ [.reset]) = packetsOf es := by
  unfold packetsOf
  rw [List.filterMap_append]
  exact List.append_nil _

theorem toInt_of_lt {n : Int} (h : 0 ≤ n) (hlt : n < 0x80000000) : toInt n = n := by
  have := (toInt_eq_iff n.toNat).2 (by omega)
  rwa [Int.toNat_of_nonneg h] at this

theorem Accounts.start {st : IperfStream} (h : st.Unused) : Accounts [] st := by
  refine ⟨h.packetCount, h.omittedPacketCount.ge, ?_, h.cntError.ge, ?_⟩
  · rw [h.packetCount, h.omittedPacketCount, h.cntError, h.outoforderPackets]
    rfl
  · rw [h.packetCount, h.omittedPacketCount, h.cntError]
    rfl

theorem greatest_lt {bound : Nat} (hbound : 0 < bound) (ns : List Nat) (h : ∀ n ∈ ns, n < bound) :
    greatest ns < bound := by
  induction ns using List.reverseRecOn with
  | nil => exact hbound
  | append_singleton ns n ih =>
    rw [greatest_concat]
    exact max_lt (ih fun n' hn' => h n' (List.mem_append_left _ hn'))
      (h n (List.mem_append_right _ (List.mem_singleton_self n)))

/-- What `iperf_udp_recv` counts where nothing overflows. -/
theorem countPacket_of_lt {st : IperfStream} {p : Nat} (hpos : 0 ≤ st.packetCount)
    (hlt : st.packetCount < 0x7fffffff) (hp : p < 0x7fffffff) (herr : 0 ≤ st.cntError)
    (hle : st.cntError ≤ st.packetCount) :
    (countPacket p st).1 =
      if st.packetCount < p then
        { st with packetCount := p, cntError := st.cntError + (p - 1 - st.packetCount) }
      else { st with outoforderPackets := st.outoforderPackets + 1 } := by
  have hmod : (st.packetCount + 1) % 0x100000000 = st.packetCount + 1 := by omega
  have hnumber : toInt p = p := toInt_of_lt (by omega) (by omega)
  unfold countPacket
  rw [hmod, hnumber]
  by_cases hge : st.packetCount < p
  · rw [if_pos (by omega), if_pos hge]
    by_cases hgap : (p : Int) > st.packetCount + 1
    · rw [if_pos hgap, toInt_of_lt (by omega) (by omega)]
    · have hnone : st.cntError + (p - 1 - st.packetCount) = st.cntError := by omega
      rw [if_neg hgap, hnone]
  · rw [if_neg (by omega), if_neg hge]

/-- A packet is received, and those between it and the last one are missing; or it is late. -/
theorem Accounts.packet {es : List Arrival} {st : IperfStream} (h : Accounts es st) {p : Nat}
    (hp : p < 0x7fffffff) (hes : ∀ n ∈ packetsOf es, n < 0x7fffffff) :
    Accounts (es ++ [.packet p]) (countPacket p st).1 := by
  obtain ⟨hcount, homitted, hreceived, hpos, hle⟩ := h
  have hgreatest := greatest_lt (by decide) _ hes
  have hsince : sinceReset (es ++ [.packet p]) = sinceReset es + 1 := List.foldl_concat ..
  have hmax : greatest (packetsOf (es ++ [.packet p])) = max (greatest (packetsOf es)) p := by
    rw [packetsOf_concat, greatest_concat]
  rw [countPacket_of_lt (by omega) (by omega) hp hpos (by omega)]
  by_cases hlt : st.packetCount < p
  · rw [if_pos hlt]
    refine ⟨?_, homitted, ?_, ?_, ?_⟩ <;> dsimp only
    · rw [hmax, max_eq_right (by omega)]
    · rw [hsince]
      push_cast
      omega
    · omega
    · omega
  · rw [if_neg hlt]
    refine ⟨?_, homitted, ?_, hpos, hle⟩ <;> dsimp only
    · rw [hmax, max_eq_left (by omega), hcount]
    · rw [hsince]
      push_cast
      omega

theorem Accounts.reset {es : List Arrival} {st : IperfStream} (h : Accounts es st) (now : Timeval)
    (total : Option Int) : Accounts (es ++ [.reset]) (st.resetStats now total) := by
  have hsince : sinceReset (es ++ [.reset]) = 0 := List.foldl_concat ..
  refine ⟨?_, ?_, ?_, le_rfl, ?_⟩
  · rw [packetsOf_concat_reset]
    exact h.packetCount
  · show 0 ≤ st.packetCount
    rw [h.packetCount]
    exact Int.natCast_nonneg _
  · rw [hsince]
    show (0 : Int) = st.packetCount - st.packetCount - 0 + 0
    omega
  · show 0 ≤ st.packetCount - st.packetCount
    omega

theorem Accounts.congr {es : List Arrival} {st st' : IperfStream} (h : Accounts es st)
    (hc : st'.packetCounters = st.packetCounters) : Accounts es st' := by
  obtain ⟨h₁, h₂, h₃, h₄⟩ := packetCounters_eq hc
  refine ⟨h₁.trans h.packetCount, h₂ ▸ h.omittedPacketCount, ?_, h₃ ▸ h.cntError, ?_⟩
  · rw [h₁, h₂, h₃, h₄]
    exact h.received
  · rw [h₁, h₂, h₃]
    exact h.cntError_le

theorem accounts_foldl {st : IperfStream} (hst : st.Unused) (es : List Arrival)
    (hes : ∀ p ∈ packetsOf es, p < 0x7fffffff) : Accounts es (es.foldl Arrival.apply st) := by
  induction es using List.reverseRecOn with
  | nil => exact .start hst
  | append_singleton es e ih =>
    rw [List.foldl_concat]
    cases e with
    | packet p =>
      rw [packetsOf_concat] at hes
      have hes' : ∀ n ∈ packetsOf es, n < 0x7fffffff := fun n hn => hes n (List.mem_append_left _ hn)
      exact (ih hes').packet (hes p (List.mem_append_right _ (List.mem_singleton_self p))) hes'
    | reset =>
      rw [packetsOf_concat_reset] at hes
      exact (ih hes).reset _ _

/-- The notes of the observer after some packets. -/
def LossLog.packets (l : LossLog) (ns : List Nat) : LossLog := ns.foldl (fun l p => l.packet p) l

/-- How many of some packets are late, when the number `next` is expected first. -/
def late (next : Nat) : List Nat → Nat
  | [] => 0
  | p :: ps => if next ≤ p then late (p + 1) ps else late next ps + 1

theorem late_le_length (next : Nat) (ns : List Nat) : late next ns ≤ ns.length := by
  induction ns generalizing next with
  | nil => exact le_rfl
  | cons p ps ih =>
    unfold late
    split
    · exact (ih _).trans (Nat.le_succ _)
    · exact Nat.succ_le_succ (ih _)

/-- No packet is late if and only if their numbers increase. -/
theorem late_eq_zero_iff (next : Nat) (ns : List Nat) :
    late next ns = 0 ↔ (∀ p ∈ ns, next ≤ p) ∧ ns.Pairwise (· < ·) := by
  induction ns generalizing next with
  | nil => simp [late]
  | cons p ps ih =>
    rw [List.forall_mem_cons, List.pairwise_cons]
    unfold late
    by_cases hle : next ≤ p
    · rw [if_pos hle, ih]
      constructor
      · rintro ⟨hps, hpairs⟩
        exact ⟨⟨hle, fun q hq => by have := hps q hq; omega⟩, hps, hpairs⟩
      · rintro ⟨-, hps, hpairs⟩
        exact ⟨hps, hpairs⟩
    · rw [if_neg hle]
      exact iff_of_false (Nat.succ_ne_zero _) fun h => hle h.1.1

/-- The number that is expected next. -/
def expected (next : Nat) (ns : List Nat) : Nat := ns.foldl (fun n p => max n (p + 1)) next

theorem expected_eq (next : Nat) (ns : List Nat) (hne : ns ≠ []) :
    expected next ns = max next (greatest ns + 1) := by
  induction ns using List.reverseRecOn with
  | nil => exact absurd rfl hne
  | append_singleton ns p ih =>
    have hconcat : expected next (ns ++ [p]) = max (expected next ns) (p + 1) := List.foldl_concat ..
    rw [hconcat, greatest_concat]
    by_cases hns : ns = []
    · rw [hns]
      show max next (p + 1) = max next (max 0 p + 1)
      rw [Nat.zero_max]
    · rw [ih hns]
      omega

/-- As long as the largest number is not among them, every packet is missing, expected or late. -/
theorem packets_balance (ns : List Nat) (hns : ∀ p ∈ ns, p < 0xffffffff) (l : LossLog) :
    (l.packets ns).next = expected l.next ns ∧
      (l.packets ns).current.1 + ns.length + l.next =
        l.current.1 + expected l.next ns + late l.next ns := by
  induction ns generalizing l with
  | nil => exact ⟨rfl, rfl⟩
  | cons p ps ih =>
    have hp := hns p List.mem_cons_self
    obtain ⟨hnext, hlost⟩ := ih (fun q hq => hns q (List.mem_cons_of_mem p hq)) (l.packet p)
    have hpackets : l.packets (p :: ps) = (l.packet p).packets ps := rfl
    have hexpected : expected l.next (p :: ps) = expected (max l.next (p + 1)) ps := rfl
    rw [hpackets, hexpected, List.length_cons]
    unfold late
    by_cases hle : l.next ≤ p
    · have hmod : (p + 1) % 0x100000000 = p + 1 := Nat.mod_eq_of_lt (by omega)
      have hpacket : l.packet p =
          { l with next := p + 1, current := (l.current.1 + (p - l.next), l.current.2) } := by
        unfold LossLog.packet
        rw [if_pos hle, hmod]
      rw [if_pos hle, max_eq_right (by omega)]
      rw [hpacket] at hnext hlost ⊢
      dsimp only at hnext hlost ⊢
      exact ⟨hnext, by omega⟩
    · have hpacket : l.packet p = { l with current := (l.current.1, l.current.2 + 1) } := by
        unfold LossLog.packet
        rw [if_neg hle]
      rw [if_neg hle, max_eq_left (by omega)]
      rw [hpacket] at hnext hlost ⊢
      dsimp only at hnext hlost ⊢
      exact ⟨hnext, by omega⟩

theorem packets_late (ns : List Nat) (hns : ∀ p ∈ ns, p < 0xffffffff) (l : LossLog) :
    (l.packets ns).current.2 = l.current.2 + late l.next ns := by
  induction ns generalizing l with
  | nil => rfl
  | cons p ps ih =>
    have hp := hns p List.mem_cons_self
    have hpackets : l.packets (p :: ps) = (l.packet p).packets ps := rfl
    have hlate : late l.next (p :: ps) = if l.next ≤ p then late (p + 1) ps else late l.next ps + 1 := rfl
    rw [hpackets, ih fun q hq => hns q (List.mem_cons_of_mem p hq), hlate]
    unfold LossLog.packet
    by_cases hle : l.next ≤ p
    · rw [if_pos hle, if_pos hle, Nat.mod_eq_of_lt (by omega)]
    · rw [if_neg hle, if_neg hle]
      dsimp only
      omega

/-- Without late packets the expected number grows by at least one with each of them. -/
theorem le_expected (next : Nat) (ns : List Nat) (h : late next ns = 0) :
    next + ns.length ≤ expected next ns ∧
      (expected next ns = next + ns.length → ns = List.range' next ns.length) := by
  induction ns generalizing next with
  | nil => exact ⟨le_rfl, fun _ => rfl⟩
  | cons p ps ih =>
    unfold late at h
    split at h
    · rename_i hle
      have hexpected : expected next (p :: ps) = expected (max next (p + 1)) ps := rfl
      rw [hexpected, max_eq_right (by omega), List.length_cons]
      obtain ⟨hgrows, hrange⟩ := ih (p + 1) h
      refine ⟨by omega, fun heq => ?_⟩
      have hp : p = next := by omega
      rw [hp] at hrange heq ⊢
      rw [List.range'_succ, ← hrange (by omega)]
    · exact absurd h (Nat.succ_ne_zero _)

theorem late_range (next n : Nat) : late next (List.range' next n) = 0 := by
  rw [late_eq_zero_iff]
  refine ⟨fun p hp => (List.mem_range'_1.1 hp).1, List.pairwise_lt_range'⟩

theorem expected_range (next n : Nat) : expected next (List.range' next n) = next + n := by
  induction n generalizing next with
  | zero => rfl
  | succ n ih =>
    rw [List.range'_succ]
    have hexpected : expected next (next :: List.range' (next + 1) n) =
        expected (max next (next + 1)) (List.range' (next + 1) n) := rfl
    rw [hexpected, max_eq_right (Nat.le_succ next), ih]
    omega

/-- The largest number is followed by the number 0, so packets that arrive after it are expected once
more. -/
def CountedAgain (ns : List Nat) : Prop :=
  ∃ before after, ns = before ++ 0xffffffff :: after ∧ after ≠ [] ∧
    late 1 before + late 0 after + greatest after + 1 = 0x100000000

theorem le_greatest {ns : List Nat} {p : Nat} (hp : p ∈ ns) : p ≤ greatest ns := by
  induction ns using List.reverseRecOn with
  | nil => exact absurd hp List.not_mem_nil
  | append_singleton ns n ih =>
    rw [greatest_concat]
    rcases List.mem_append.1 hp with hp | hp
    · exact (ih hp).trans (le_max_left _ _)
    · rw [List.mem_singleton.1 hp]
      exact le_max_right _ _

/-- The numbers are those in front of the largest one, this one, and those after it. -/
theorem split_largest {ns : List Nat} (hnd : ns.Nodup) (hlt : ∀ p ∈ ns, p < 0x100000000)
    {before after : List Nat} (hns : ns = before ++ 0xffffffff :: after) :
    (∀ p ∈ before, p < 0xffffffff) ∧ (∀ p ∈ after, p < 0xffffffff) := by
  have hne : ∀ p ∈ before ++ after, p ≠ 0xffffffff := by
    rintro _ hp rfl
    rw [hns, List.nodup_middle, List.nodup_cons] at hnd
    exact hnd.1 hp
  constructor
  · intro p hp
    have := hne p (List.mem_append_left _ hp)
    have := hlt p (hns ▸ List.mem_append_left _ hp)
    omega
  · intro p hp
    have := hne p (List.mem_append_right _ hp)
    have := hlt p (hns ▸ List.mem_append_right _ (List.mem_cons_of_mem _ hp))
    omega

theorem countedAgain_iff {ns before after : List Nat} (hnd : ns.Nodup) (hlt : ∀ p ∈ ns, p < 0x100000000)
    (hns : ns = before ++ 0xffffffff :: after) :
    CountedAgain ns ↔ after ≠ [] ∧ late 1 before + late 0 after + greatest after + 1 = 0x100000000 := by
  constructor
  · rintro ⟨before', after', hns', hafter, hsum⟩
    obtain ⟨hb, ha⟩ := split_largest hnd hlt hns
    obtain ⟨hb', ha'⟩ := split_largest hnd hlt hns'
    have hnot : ∀ {xs : List Nat}, (∀ p ∈ xs, p < 0xffffffff) → 0xffffffff ∉ xs :=
      fun hxs hmem => lt_irrefl _ (hxs _ hmem)
    obtain ⟨rfl, -, rfl⟩ := (List.append_cons_inj_of_notMem (hnot hb') (hnot ha')).1 (hns'.symm.trans hns)
    exact ⟨hafter, hsum⟩
  · rintro ⟨hafter, hsum⟩
    exact ⟨before, after, hns, hafter, hsum⟩

/-- The largest number arrives, and others after it. -/
theorem largest_balance (l : LossLog) (after : List Nat) (hafter : ∀ p ∈ after, p < 0xffffffff)
    (hnext : l.next ≤ 0xffffffff) :
    ((l.packet 0xffffffff).packets after).current.1 + after.length + l.next =
      l.current.1 + 0xffffffff + expected 0 after + late 0 after := by
  have hpacket : l.packet 0xffffffff =
      { l with next := 0, current := (l.current.1 + (0xffffffff - l.next), l.current.2) } := by
    unfold LossLog.packet
    rw [if_pos hnext]
  obtain ⟨-, hlost⟩ := packets_balance after hafter (l.packet 0xffffffff)
  rw [hpacket] at hlost ⊢
  dsimp only at hlost ⊢
  omega

/-- By how much more than the missing packets are counted as lost. -/
theorem packets_excess {ns : List Nat} (hnd : ns.Nodup) (hpos : ∀ p ∈ ns, 1 ≤ p)
    (hlt : ∀ p ∈ ns, p < 0x100000000) (hlen : ns.length < 0x100000000) :
    ∃ excess, (LossLog.start.packets ns).current.1 + ns.length = greatest ns + excess ∧
      (excess % 0x100000000 = 0 ↔ ns.Pairwise (· < ·) ∨ CountedAgain ns) := by
  have hexpected : ∀ xs : List Nat, expected 1 xs = greatest xs + 1 := by
    intro xs
    by_cases hxs : xs = []
    · rw [hxs]
      rfl
    · rw [expected_eq 1 xs hxs, max_eq_right (Nat.le_add_left 1 _)]
  by_cases hmem : 0xffffffff ∈ ns
  · obtain ⟨before, after, hns⟩ := List.append_of_mem hmem
    obtain ⟨hbefore, hafter⟩ := split_largest hnd hlt hns
    rw [countedAgain_iff hnd hlt hns]
    have hgreatest : greatest ns = 0xffffffff := by
      apply le_antisymm
      · exact Nat.le_of_lt_succ (greatest_lt (by decide) ns hlt)
      · exact le_greatest hmem
    obtain ⟨hnext, hlost⟩ := packets_balance before hbefore LossLog.start
    have hlate := late_le_length 1 before
    have hlate' := late_le_length 0 after
    have hlength : ns.length = before.length + (after.length + 1) := by
      rw [hns, List.length_append, List.length_cons]
    have hpairwise : ns.Pairwise (· < ·) ↔ after = [] ∧ late 1 before = 0 := by
      have hposb : ∀ p ∈ before, 1 ≤ p := fun p hp => hpos p (hns ▸ List.mem_append_left _ hp)
      rw [hns, List.pairwise_append, List.pairwise_cons, late_eq_zero_iff]
      constructor
      · rintro ⟨hb, ⟨ha, -⟩, -⟩
        refine ⟨?_, hposb, hb⟩
        cases after with
        | nil => rfl
        | cons q qs =>
          have := ha q List.mem_cons_self
          have := hafter q List.mem_cons_self
          omega
      · rintro ⟨rfl, -, hb⟩
        refine ⟨hb, ⟨nofun, .nil⟩, fun p hp q hq => ?_⟩
        rw [List.mem_singleton.1 hq]
        exact hbefore p hp
    have hstart : LossLog.start.next = 1 := rfl
    have hnone : LossLog.start.current.1 = 0 := rfl
    rw [hstart, hexpected] at hnext
    rw [hstart, hnone, hexpected] at hlost
    have hfirst := greatest_lt (by decide) before hbefore
    have hbalance := largest_balance (LossLog.start.packets before) after hafter (by omega)
    have hpackets : LossLog.start.packets ns =
        ((LossLog.start.packets before).packet 0xffffffff).packets after := by
      rw [hns]
      exact List.foldl_append ..
    refine ⟨late 1 before + late 0 after + expected 0 after, ?_, ?_⟩
    · rw [hpackets, hgreatest]
      omega
    · rw [hpairwise]
      by_cases hnil : after = []
      · rw [hnil]
        have hexcess : late 1 before + late 0 [] + expected 0 [] = late 1 before := rfl
        rw [hexcess, Nat.mod_eq_of_lt (by omega)]
        exact ⟨fun h => .inl ⟨rfl, h⟩, fun h => h.elim And.right fun h => absurd rfl h.1⟩
      · have hlast := greatest_lt (by decide) after hafter
        rw [expected_eq 0 after hnil, Nat.zero_max]
        constructor
        · exact fun h => .inr ⟨hnil, by omega⟩
        · rintro (h | ⟨-, h⟩)
          · exact absurd h.1 hnil
          · omega
  · have hlt' : ∀ p ∈ ns, p < 0xffffffff := fun p hp => by
      have := hlt p hp
      have hne : p ≠ 0xffffffff := fun h => hmem (h ▸ hp)
      omega
    obtain ⟨-, hlost⟩ := packets_balance ns hlt' LossLog.start
    have hstart : LossLog.start.next = 1 := rfl
    have hnone : LossLog.start.current.1 = 0 := rfl
    rw [hstart, hnone, hexpected] at hlost
    refine ⟨late 1 ns, by omega, ?_⟩
    have hlate := late_le_length 1 ns
    have hzero : late 1 ns % 0x100000000 = 0 ↔ late 1 ns = 0 := by omega
    rw [hzero, late_eq_zero_iff]
    constructor
    · exact fun h => .inl h.2
    · rintro (h | ⟨before, after, hns, -⟩)
      · exact ⟨hpos, h⟩
      · exact absurd (hns ▸ List.mem_append_right _ List.mem_cons_self) hmem

theorem nodup_length_le {ns : List Nat} (hnd : ns.Nodup) (hpos : ∀ p ∈ ns, 1 ≤ p) :
    ns.length ≤ greatest ns := by
  have hsubset : ns.toFinset ⊆ Finset.Icc 1 (greatest ns) := by
    intro p hp
    have hmem := List.mem_toFinset.1 hp
    exact Finset.mem_Icc.2 ⟨hpos p hmem, le_greatest hmem⟩
  have hcard := Finset.card_le_card hsubset
  rwa [List.toFinset_card_of_nodup hnd, Nat.card_Icc, Nat.add_sub_cancel] at hcard

theorem toInt_excess_iff (missing excess : Nat) :
    toInt ((missing + excess : Nat) : Int) = missing ↔
      missing < 0x80000000 ∧ excess % 0x100000000 = 0 := by
  unfold toInt
  rw [Int.bmod_def]
  split <;> omega

/-- The receiver counts what its observer counts. -/
theorem tracks_packets {st : IperfStream} (hst : st.Unused) (ns : List Nat) :
    Tracks (LossLog.start.packets ns) ((ns.map Arrival.packet).foldl Arrival.apply st) := by
  induction ns using List.reverseRecOn with
  | nil => exact tracks_unused hst
  | append_singleton ns p ih =>
    have hpackets : LossLog.start.packets (ns ++ [p]) = (LossLog.start.packets ns).packet p :=
      List.foldl_concat ..
    rw [hpackets, List.map_append, List.map_singleton, List.foldl_concat]
    exact ih.packet p

theorem packets_recorded (ns : List Nat) : (LossLog.start.packets ns).recorded = [] := by
  induction ns using List.reverseRecOn with
  | nil => rfl
  | append_singleton ns p ih =>
    have hpackets : LossLog.start.packets (ns ++ [p]) = (LossLog.start.packets ns).packet p :=
      List.foldl_concat ..
    rw [hpackets, ← ih]
    unfold LossLog.packet
    split <;> rfl

/-- All packets are counted, and none as lost or late, if and only if they are numbered without a gap. -/
theorem counts_all_iff {st : IperfStream} (hst : st.Unused) {ns : List Nat} (hns : ∀ p ∈ ns, p < 0xffffffff)
    (hlen : ns.length < 0x80000000) {st' : IperfStream}
    (h : st'.packetCounters = ((ns.map Arrival.packet).foldl Arrival.apply st).packetCounters) :
    (st'.cntError = 0 ∧ st'.outoforderPackets = 0 ∧ st'.packetCount = ns.length) ↔
      ns = List.range' 1 ns.length := by
  obtain ⟨hpackets, -, herror, hlate⟩ := packetCounters_eq h
  have htracks := tracks_packets hst ns
  obtain ⟨hnext, hbalance⟩ := packets_balance ns hns .start
  have hlates := packets_late ns hns .start
  have hstart : LossLog.start.next = 1 := rfl
  have hnone : LossLog.start.current = (0, 0) := rfl
  rw [hpackets, herror, hlate, htracks.packetCount, htracks.cntError, htracks.outoforderPackets,
    packets_recorded, totals_nil]
  have hbound := htracks.next_lt
  rw [hstart, hnone] at hbalance hlates
  rw [hstart] at hnext
  rw [hnext] at hbound ⊢
  rw [hlates]
  generalize (LossLog.start.packets ns).current.1 = lost at hbalance
  constructor
  · rintro ⟨hlost, hooo, -⟩
    have hzero : late 1 ns = 0 := by omega
    have hmod : (lost : Int) % 0x100000000 = 0 := by
      rw [← toInt_emod, ← zero_add (lost : Int), ← Nat.cast_zero, hlost]
      rfl
    exact (le_expected 1 ns hzero).2 (by omega)
  · intro hrange
    have hzero : late 1 ns = 0 := hrange ▸ late_range 1 ns.length
    have hexpected : expected 1 ns = 1 + ns.length := by
      conv_lhs => rw [hrange, expected_range]
    have hlost : lost = 0 := by omega
    rw [hzero, hexpected, hlost]
    refine ⟨toInt_zero, rfl, ?_⟩
    have hpred : ((1 + ns.length : Nat) : Int) - 1 = ns.length := by omega
    rw [hpred]
    exact toInt_of_lt (by omega) (by omega)

/-- **The loss count.** When distinct packets, numbered from 1 on, reach a fresh stream, the count of the
lost ones is the number of those that are missing if and only if it fits in an `int` and the packets arrive
in the order of their numbers (or the largest number makes up for the late ones). -/
theorem loss_count_iff {m₀ m : Mem} {sp : Nat} {ns : List Nat} {st₀ : IperfStream}
    (hst : m₀.test.streams[sp]? = some st₀) (hunused : st₀.Unused)
    (h : ReceiverRun m₀ sp (ns.map .packet) m) (hnd : ns.Nodup) (hpos : ∀ p ∈ ns, 1 ≤ p) :
    ∃ st, m.test.streams[sp]? = some st ∧
      (st.cntError = (greatest ns : Int) - ns.length ↔
        greatest ns - ns.length < 0x80000000 ∧ (ns.Pairwise (· < ·) ∨ CountedAgain ns)) := by
  obtain ⟨st, hst', hcounters⟩ := h.counters hst
  obtain ⟨-, -, herror, -⟩ := packetCounters_eq hcounters
  have htracks := (tracks_packets hunused ns).cntError
  rw [packets_recorded, totals_nil, ← herror] at htracks
  have hlt : ∀ p ∈ ns, p < 0x100000000 := fun p hp => h.packet_lt (List.mem_map_of_mem hp)
  have hle := nodup_length_le hnd hpos
  have hgreatest := greatest_lt (by decide) ns hlt
  obtain ⟨excess, hexcess, hiff⟩ := packets_excess hnd hpos hlt (by omega)
  refine ⟨st, hst', ?_⟩
  have hlost : ((0 : Nat) : Int) + (LossLog.start.packets ns).current.1 =
      ((greatest ns - ns.length + excess : Nat) : Int) := by omega
  have hmissing : (greatest ns : Int) - ns.length = ((greatest ns - ns.length : Nat) : Int) := by omega
  rw [htracks, hlost, hmissing, toInt_excess_iff, hiff]

/-- The packets 1 and 3 in this order: the packet 2 is counted as lost. -/
theorem loss_count_in_order :
    ∃ st, (arrived 1 3).test.streams[0]? = some st ∧ st.cntError = 1 := by
  have hrun : ReceiverRun (Mem.start smallReceiver) 0 ([1, 3].map .packet) (arrived 1 3) :=
    arrived_run (.inl ⟨rfl, rfl⟩)
  obtain ⟨st, hst, hiff⟩ := loss_count_iff rfl (newStream_unused ..) hrun (by decide) (by decide)
  exact ⟨st, hst, hiff.2 ⟨by decide, .inl (by decide)⟩⟩

/-- The packets 2 and 1 in this order: none is missing, but one is counted as lost. -/
theorem late_packet_counted :
    ReceiverRun (Mem.start smallReceiver) 0 ([2, 1].map .packet) (arrived 2 1) ∧
      ∃ st, (arrived 2 1).test.streams[0]? = some st ∧ st.cntError ≠ (greatest [2, 1] : Int) - [2, 1].length := by
  refine ⟨arrived_run (.inr ⟨rfl, rfl⟩), ?_⟩
  have herror : (arrived 2 1).test.streams.map (·.cntError) = [1] := by decide
  obtain ⟨st, hst, herror⟩ := List.map_eq_singleton_iff.1 herror
  refine ⟨st, by rw [hst]; rfl, ?_⟩
  rw [herror]
  decide

end Iperf
