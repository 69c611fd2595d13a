import WifiTestTool.Iperf.Proofs.UdpLoss
import WifiTestTool.Iperf.Proofs.ResultExchange

/-!
# The totals of a UDP test

The totals that both ends print are the packets since the end of the omit period and, of these, the ones
that were lost. The sender takes the number of packets and of losses from the receiver, but subtracts the
packets that it had sent itself when its own omit period ended. So the totals agree if and only if, on
every stream, the receiver had seen the last of these packets, and no later one, when its omit period
ended.
-/

namespace Iperf

open Reactive

/-! ## The sender -/

/-- The notes of an observer of one stream of the sender. -/
structure SendLog where
  /-- The datagrams so far. -/
  sent : Nat
  /-- The datagrams that were sent when the omit period ended. -/
  omitted : Nat
deriving DecidableEq

namespace SendLog

/-- The notes before the first datagram. -/
def start : SendLog := ⟨0, 0⟩

/-- A datagram is sent. -/
def datagram (l : SendLog) : SendLog := { l with sent := l.sent + 1 }

/-- The omit period ends. -/
def restart (l : SendLog) : SendLog := { l with omitted := l.sent }

end SendLog

/-- The counters of the stream `st` are those of a sender that has sent what the observer has seen. -/
structure Stamps (l : SendLog) (st : IperfStream) : Prop where
  packetCount : st.packetCount = l.sent
  omittedPacketCount : st.omittedPacketCount = l.omitted

/-- `iperf_udp_send` counts one datagram, whatever becomes of it. -/
theorem iperfUdpSend_stamps (fuel : Nat) (t : IperfTest) (sp : Nat) :
    Ends t (iperfUdpSend fuel sp) fun _ t' => ∃ f : IperfStream → IperfStream,
      t' = { t with streams := t.streams.modify sp f } ∧
        ∀ l st, Stamps l st → Stamps l.datagram (f st) := by
  refine .silent_bind gettimeofday_silent fun before => .modifyTest_bind ?_
  have hstamp : ∀ l st, Stamps l st → Stamps l.datagram (st.stamp before) := by
    intro l st h
    refine ⟨?_, h.omittedPacketCount⟩
    show st.packetCount + 1 = ((l.sent + 1 : Nat) : Int)
    rw [h.packetCount]
    push_cast
    rfl
  refine .bind (streamWrite_ends fuel) fun r t₁ h₁ => .ite (fun _ => ?_) fun _ => ?_
  · rw [h₁]
    exact .pure ⟨IperfStream.stamp before, rfl, hstamp⟩
  · rw [h₁]
    refine .modifyTest_bind (.pure ⟨IperfStream.sent r ∘ IperfStream.stamp before, ?_, fun l st h => ?_⟩)
    · rw [List.modify_modify_eq]
    · exact ⟨(hstamp l st h).packetCount, (hstamp l st h).omittedPacketCount⟩

/-- `iperf_stats_callback` leaves the packets alone. -/
theorem Stamps.close {l : SendLog} {t : IperfTest} {st st' : IperfStream} (h : Stamps l st)
    (hc : ClosesInterval t st st') : Stamps l st' := by
  obtain ⟨temp, -, hcounts⟩ := hc.udpCounts
  simp only [IperfStream.udpCounts, Prod.mk.injEq] at hcounts
  exact ⟨hcounts.1.1.trans h.packetCount, hcounts.1.2.trans h.omittedPacketCount⟩

theorem Stamps.restart {l : SendLog} {st st' : IperfStream} (h : Stamps l st) (hr : Restarts st st') :
    Stamps l.restart st' := by
  obtain ⟨now, total, rfl⟩ := hr
  exact ⟨h.packetCount, h.packetCount⟩

/-! ## Both ends -/

/-- A run of a UDP test: a sender from `p₀` and a receiver from `q₀`, with the notes of the observers of
their streams. Either end may call `iperf_stats_callback` at any time, and end its omit period; datagrams
may be lost, repeated and reordered, but every packet that arrives has a number that the sender has given
to a datagram of the stream with the same id. -/
inductive UdpTest (p₀ q₀ : Mem) : List SendLog → Mem → List LossLog → Mem → Prop where
  | start : UdpTest p₀ q₀ (p₀.test.streams.map fun _ => .start) p₀ (q₀.test.streams.map fun _ => .start) q₀
  | datagram {sent : List SendLog} {seen : List LossLog} {p p' q : Mem} {fuel sp : Nat} {r : Int} :
      UdpTest p₀ q₀ sent p seen q → Prog.Returns (iperfUdpSend fuel sp) p r p' →
      UdpTest p₀ q₀ (sent.modify sp SendLog.datagram) p' seen q
  | senderStats {sent : List SendLog} {seen : List LossLog} {p p' q : Mem} :
      UdpTest p₀ q₀ sent p seen q → Prog.Returns iperfStatsCallback p () p' →
      UdpTest p₀ q₀ sent p' seen q
  | senderOmitOver {sent : List SendLog} {seen : List LossLog} {p p' q : Mem} {now : Timeval} :
      UdpTest p₀ q₀ sent p seen q → p.test.omitting = true →
      Prog.Returns (omitTimerProc now) p () p' →
      UdpTest p₀ q₀ (sent.map SendLog.restart) p' seen q
  | packet {sent : List SendLog} {seen : List LossLog} {p q q' : Mem} {fuel sp : Nat} {r : Int}
      {st : IperfStream} :
      UdpTest p₀ q₀ sent p seen q → Prog.Returns (iperfUdpRecv fuel sp) q r q' → 0 ≤ r →
      q'.test.streams[sp]? = some st →
      (∃ x ∈ sent.zip p.test.streams, x.2.id = st.id ∧ bufferWord st.buffer 8 ≤ x.1.sent) →
      UdpTest p₀ q₀ sent p (seen.modify sp (LossLog.packet (bufferWord st.buffer 8))) q'
  | failure {sent : List SendLog} {seen : List LossLog} {p q q' : Mem} {fuel sp : Nat} {r : Int} :
      UdpTest p₀ q₀ sent p seen q → Prog.Returns (iperfUdpRecv fuel sp) q r q' → r < 0 →
      UdpTest p₀ q₀ sent p seen q'
  | receiverStats {sent : List SendLog} {seen : List LossLog} {p q q' : Mem} :
      UdpTest p₀ q₀ sent p seen q → Prog.Returns iperfStatsCallback q () q' →
      UdpTest p₀ q₀ sent p (seen.map LossLog.close) q'
  | receiverOmitOver {sent : List SendLog} {seen : List LossLog} {p q q' : Mem} {now : Timeval} :
      UdpTest p₀ q₀ sent p seen q → q.test.omitting = true →
      Prog.Returns (omitTimerProc now) q () q' →
      UdpTest p₀ q₀ sent p (seen.map LossLog.restart) q'

variable {p₀ q₀ p q : Mem} {sent : List SendLog} {seen : List LossLog}

/-- What the receiver does is a run of a receiver. -/
theorem UdpTest.receiver (h : UdpTest p₀ q₀ sent p seen q) : UdpRun q₀ seen q := by
  induction h with
  | start => exact .start
  | datagram _ _ ih => exact ih
  | senderStats _ _ ih => exact ih
  | senderOmitOver _ _ _ ih => exact ih
  | packet _ hcall hr hst _ ih => exact .packet ih hcall hr hst
  | failure _ hcall hr ih => exact .failure ih hcall hr
  | receiverStats _ hcall ih => exact .stats ih hcall
  | receiverOmitOver _ ho hcall ih => exact .omitOver ih ho hcall

/-- The sender counts what its observers have seen. -/
theorem UdpTest.stamps (hst : ∀ st ∈ p₀.test.streams, st.Unused) (h : UdpTest p₀ q₀ sent p seen q) :
    List.Forall₂ Stamps sent p.test.streams := by
  induction h with
  | start =>
    rw [List.forall₂_map_left_iff, List.forall₂_same]
    exact fun st hmem => ⟨(hst st hmem).packetCount, (hst st hmem).omittedPacketCount⟩
  | datagram _ hcall ih =>
    obtain ⟨f, hp', hf⟩ := (iperfUdpSend_stamps _ _ _).returns hcall
    rw [hp']
    exact forall₂_modify ih fun l st _ _ => hf l st
  | senderStats _ hcall ih =>
    have hclose := ((iperfStatsCallback_ends _).returns hcall).streams
    have := forall₂_map_left (f := id) ih hclose (fun _ _ => trivial) fun l st st' _ h hc => h.close hc
    rwa [List.map_id] at this
  | senderOmitOver _ _ hcall ih =>
    have hrestart := ((omitTimerProc_ends _ _).returns hcall).streams
    exact forall₂_map_left ih hrestart (fun _ _ => trivial) fun l st st' _ h hr => h.restart hr
  | packet _ _ _ _ _ ih => exact ih
  | failure _ _ _ ih => exact ih
  | receiverStats _ _ ih => exact ih
  | receiverOmitOver _ _ _ ih => exact ih

/-! ## Losses among the packets -/

/-- When no packet has a number above `bound`, the losses are among the packets since the counting
started. -/
structure LossLog.Within (bound : Nat) (l : LossLog) : Prop where
  first_pos : 1 ≤ l.first
  first_le : l.first ≤ l.next
  next_le : l.next ≤ bound + 1
  lost_le : (totals l.recorded).1 + l.current.1 ≤ l.next - l.first

theorem LossLog.Within.packet {bound n : Nat} {l : LossLog} (h : l.Within bound) (hn : n ≤ bound)
    (hb : bound < 0x80000000) : (l.packet n).Within bound := by
  obtain ⟨h₁, h₂, h₃, h₄⟩ := h
  unfold LossLog.packet
  split
  · have hmod : (n + 1) % 0x100000000 = n + 1 := Nat.mod_eq_of_lt (by omega)
    rw [hmod]
    exact ⟨h₁, by dsimp only; omega, by dsimp only; omega, by dsimp only; omega⟩
  · exact ⟨h₁, h₂, h₃, h₄⟩

theorem LossLog.Within.close {bound : Nat} {l : LossLog} (h : l.Within bound) : l.close.Within bound := by
  refine ⟨h.first_pos, h.first_le, h.next_le, ?_⟩
  unfold LossLog.close
  rw [totals_snoc]
  exact h.lost_le

theorem LossLog.Within.restart {bound : Nat} {l : LossLog} (h : l.Within bound) :
    l.restart.Within bound :=
  ⟨h.first_pos.trans h.first_le, le_rfl, h.next_le, Nat.zero_le _⟩

theorem sent_le_datagram (sent : List SendLog) (sp : Nat) {x : SendLog} (hx : x ∈ sent) :
    ∃ y ∈ sent.modify sp SendLog.datagram, x.sent ≤ y.sent := by
  obtain ⟨i, hi⟩ := List.mem_iff_getElem?.1 hx
  have hget := List.getElem?_modify SendLog.datagram sp sent i
  rw [hi] at hget
  refine ⟨_, List.mem_of_getElem? hget, ?_⟩
  show x.sent ≤ (if sp = i then x.datagram else x).sent
  split
  · exact Nat.le_succ _
  · exact le_rfl

/-- As long as the sender has sent no more than `bound` datagrams on a stream. -/
theorem UdpTest.within {bound : Nat} (hb : bound < 0x80000000) (h : UdpTest p₀ q₀ sent p seen q) :
    (∀ x ∈ sent, x.sent ≤ bound) → ∀ l ∈ seen, l.Within bound := by
  induction h with
  | start =>
    intro _ l hl
    obtain ⟨st, -, rfl⟩ := List.mem_map.1 hl
    exact ⟨le_rfl, le_rfl, Nat.le_add_left _ _, le_rfl⟩
  | datagram _ _ ih =>
    intro hsent
    refine ih fun x hx => ?_
    obtain ⟨y, hy, hxy⟩ := sent_le_datagram _ _ hx
    exact hxy.trans (hsent y hy)
  | senderStats _ _ ih => exact ih
  | senderOmitOver _ _ _ ih =>
    exact fun hsent => ih fun x hx => hsent x.restart (List.mem_map_of_mem hx)
  | packet _ _ _ _ hnumber ih =>
    intro hsent l hl
    obtain ⟨x, hx, -, hle⟩ := hnumber
    rcases mem_modify hl with hl | ⟨l', hl', rfl⟩
    · exact ih hsent l hl
    · exact (ih hsent l' hl').packet (hle.trans (hsent x.1 (List.of_mem_zip hx).1)) hb
  | failure _ _ _ ih => exact ih
  | receiverStats _ _ ih =>
    intro hsent l hl
    obtain ⟨l', hl', rfl⟩ := List.mem_map.1 hl
    exact (ih hsent l' hl').close
  | receiverOmitOver _ _ _ ih =>
    intro hsent l hl
    obtain ⟨l', hl', rfl⟩ := List.mem_map.1 hl
    exact (ih hsent l' hl').restart

/-- What the receiver has counted. -/
theorem Tracks.values {bound : Nat} {l : LossLog} {st : IperfStream} (h : Tracks l st)
    (hw : l.Within bound) (hb : bound < 0x80000000) :
    st.packetCount = (l.next : Int) - 1 ∧ st.omittedPacketCount = (l.first : Int) - 1 ∧
      0 ≤ st.cntError ∧ st.cntError ≤ st.packetCount - st.omittedPacketCount := by
  obtain ⟨h₁, h₂, h₃, h₄⟩ := hw
  have hpred : ∀ n : Nat, 1 ≤ n → n ≤ bound + 1 → toInt ((n : Int) - 1) = (n : Int) - 1 := by
    intro n hn hle
    have := (toInt_eq_iff (n - 1)).2 (by omega)
    rwa [Nat.cast_sub hn, Nat.cast_one] at this
  have hlost := (toInt_eq_iff ((totals l.recorded).1 + l.current.1)).2 (by omega)
  push_cast at hlost
  have hpackets := h.packetCount.trans (hpred _ (h₁.trans h₂) h₃)
  have homitted := h.omittedPacketCount.trans (hpred _ h₁ (h₂.trans h₃))
  have herrors := h.cntError.trans hlost
  exact ⟨hpackets, homitted, by omega, by omega⟩

/-! ## After the exchange -/

/-- What the receiver takes leaves its own packets alone. -/
def KeepsPackets (b b' : IperfStream) : Prop :=
  b'.id = b.id ∧ b'.packetCount = b.packetCount ∧ b'.omittedPacketCount = b.omittedPacketCount ∧
    b'.cntError = b.cntError

/-- The sender takes the packets and the losses of the receiver, but keeps the packets that it has
omitted itself. -/
def TakesPackets (q : IperfTest) (a a' : IperfStream) : Prop :=
  a'.id = a.id ∧ a'.omittedPacketCount = a.omittedPacketCount ∧
    ∀ b ∈ q.streams, b.id = a.id → a'.packetCount = toInt b.packetCount ∧ a'.cntError = toInt b.cntError

theorem takeResult_keeps (r : RemoteResult) (b : IperfStream) : KeepsPackets b (b.takeResult false r) :=
  ⟨rfl, rfl, rfl, rfl⟩

theorem takeResult_omitted (sender : Bool) (r : RemoteResult) (st : IperfStream) :
    (st.takeResult sender r).omittedPacketCount = st.omittedPacketCount := by
  cases sender <;> rfl

theorem takeFrom_keeps (u : IperfTest) (vs : List IperfStream) (b : IperfStream) :
    KeepsPackets b (b.takeFrom false u vs) := by
  unfold IperfStream.takeFrom
  split
  · exact ⟨rfl, rfl, rfl, rfl⟩
  · exact takeResult_keeps _ _

theorem takenFrom_keeps {u q : IperfTest} (hq : q.sender = false) :
    List.Forall₂ KeepsPackets q.streams (takenFrom u q).streams := by
  have hmap : (takenFrom u q).streams = q.streams.map (·.takeFrom q.sender u u.streams) := rfl
  rw [hmap, hq, List.forall₂_map_right_iff, List.forall₂_same]
  exact fun b _ => takeFrom_keeps u u.streams b

/-- The sender `p` takes the results of `w`, which has the packets of `q`. -/
theorem takenFrom_takes {p q w : IperfTest} (hp : p.sender = true) (hnd : (w.streams.map (·.id)).Nodup)
    (hw : List.Forall₂ KeepsPackets q.streams w.streams) :
    List.Forall₂ (TakesPackets q) p.streams (takenFrom w p).streams := by
  have hmap : (takenFrom w p).streams = p.streams.map (·.takeFrom p.sender w w.streams) := rfl
  rw [hmap, hp, List.forall₂_map_right_iff, List.forall₂_same]
  refine fun a _ => ⟨takeFrom_id _ _ _ _, ?_, fun b hb hid => ?_⟩
  · unfold IperfStream.takeFrom
    split
    · rfl
    · exact takeResult_omitted _ _ _
  · obtain ⟨v, hv, hvid, hpackets, -, herrors⟩ : ∃ v ∈ w.streams, KeepsPackets b v := by
      obtain ⟨i, hi⟩ := List.mem_iff_getElem?.1 hb
      have hlen := hw.length_eq
      obtain ⟨hlt, rfl⟩ := List.getElem?_eq_some_iff.1 hi
      exact ⟨w.streams[i], List.getElem_mem _, (List.forall₂_iff_get.1 hw).2 i hlt (hlen ▸ hlt)⟩
    rw [takeFrom_found hnd hv (hvid.trans hid), ← hpackets, ← herrors]
    exact ⟨rfl, rfl⟩

/-- One of the two tests is that of the client, the other one that of the server. -/
def OppositeRoles (p q : IperfTest) : Prop :=
  (p.role = .client ∧ q.role = .server) ∨ (p.role = .server ∧ q.role = .client)

/-- The exchange between a sender and a receiver, whichever of them is the client. -/
theorem exchanged_packets {fuel fuel' : Nat} {p q p' q' : Mem} {fromSender fromReceiver : Option Json}
    (hroles : OppositeRoles p.test q.test) (hss : SameStreams p.test q.test)
    (hp : p.test.sender = true) (hq : q.test.sender = false)
    (hpe : Exchanges fuel p p' fromSender fromReceiver)
    (hqe : Exchanges fuel' q q' fromReceiver fromSender) :
    List.Forall₂ (TakesPackets q.test) p.test.streams p'.test.streams ∧
      List.Forall₂ KeepsPackets q.test.streams q'.test.streams := by
  rcases hroles with ⟨hclient, hserver⟩ | ⟨hserver, hclient⟩
  · obtain ⟨hq', hp'⟩ := (exchanged_of_exchanges hpe hqe hclient hserver).eq hss
    have hkeeps : List.Forall₂ KeepsPackets q.test.streams q'.test.streams := hq' ▸ takenFrom_keeps hq
    refine ⟨?_, hkeeps⟩
    rw [hp']
    refine takenFrom_takes hp ?_ hkeeps
    rw [hq', takenFrom_ids]
    exact hss.nodup
  · obtain ⟨hp', hq'⟩ := (exchanged_of_exchanges hqe hpe hclient hserver).eq hss.symm
    refine ⟨?_, hq' ▸ takenFrom_keeps hq⟩
    rw [hp']
    refine takenFrom_takes hp hss.nodup ?_
    rw [List.forall₂_same]
    exact fun b _ => ⟨rfl, rfl, rfl, rfl⟩

/-- The totals that are printed for the streams agree, and the losses are among the packets. -/
def TotalsAgree (p q : IperfTest) : Prop :=
  ∀ a ∈ p.streams, ∀ b ∈ q.streams, a.id = b.id →
    a.packetCount - a.omittedPacketCount = b.packetCount - b.omittedPacketCount ∧
      a.cntError = b.cntError ∧ 0 ≤ a.cntError ∧ a.cntError ≤ a.packetCount - a.omittedPacketCount

/-- On every stream the receiver's omit period ended after the last datagram that was sent in the
sender's, and before any later one arrived: the number that the receiver expected next was the one of
the first datagram that the sender has not omitted. -/
def SameOmitted (sent : List SendLog) (p : IperfTest) (seen : List LossLog) (q : IperfTest) : Prop :=
  ∀ x ∈ sent.zip p.streams, ∀ y ∈ seen.zip q.streams, x.2.id = y.2.id → y.1.first = x.1.omitted + 1

instance (sent : List SendLog) (p : IperfTest) (seen : List LossLog) (q : IperfTest) :
    Decidable (SameOmitted sent p seen q) := inferInstanceAs (Decidable (∀ _ ∈ _, ∀ _ ∈ _, _ → _))

/-- An element of a list has a partner in the other one. -/
theorem forall₂_partner {α β : Type} {R : α → β → Prop} {l : List α} {l' : List β}
    (h : List.Forall₂ R l l') {b : β} (hb : b ∈ l') : ∃ a, (a, b) ∈ l.zip l' ∧ R a b := by
  induction h with
  | nil => cases hb
  | @cons a₀ b₀ l l' hab _ ih =>
    rw [List.zip_cons_cons]
    rcases List.mem_cons.1 hb with rfl | hb
    · exact ⟨a₀, List.mem_cons_self, hab⟩
    · obtain ⟨a, ha, hR⟩ := ih hb
      exact ⟨a, List.mem_cons_of_mem _ ha, hR⟩

theorem forall₂_partner' {α β : Type} {R : α → β → Prop} {l : List α} {l' : List β}
    (h : List.Forall₂ R l l') {a : α} (ha : a ∈ l) : ∃ b ∈ l', R a b := by
  obtain ⟨b, hb, hR⟩ := forall₂_partner h.flip ha
  exact ⟨b, (List.of_mem_zip hb).1, hR⟩

/-- **The totals.** In every run of a UDP test whose packet counters are in the range of an `int`, the
totals agree after the exchange if and only if both ends have omitted the same datagrams. -/
theorem udp_totals_agree_iff {fuel fuel' : Nat} {p' q' : Mem} {fromSender fromReceiver : Option Json}
    (hudp : q₀.test.protocol = .udp) (hp₀ : ∀ st ∈ p₀.test.streams, st.Unused)
    (hq₀ : ∀ st ∈ q₀.test.streams, st.Unused) (h : UdpTest p₀ q₀ sent p seen q)
    (hint : ∀ st ∈ p.test.streams, IsInt st.packetCount)
    (hroles : OppositeRoles p.test q.test) (hss : SameStreams p.test q.test)
    (hp : p.test.sender = true) (hq : q.test.sender = false)
    (hpe : Exchanges fuel p p' fromSender fromReceiver)
    (hqe : Exchanges fuel' q q' fromReceiver fromSender) :
    TotalsAgree p'.test q'.test ↔ SameOmitted sent p.test seen q.test := by
  obtain ⟨htakes, hkeeps⟩ := exchanged_packets hroles hss hp hq hpe hqe
  have hstamps := h.stamps hp₀
  have htracks := (udpRun_inv hudp hq₀ h.receiver).tracks
  have hsent : ∀ x ∈ sent, x.sent ≤ 0x7fffffff := by
    intro x hx
    obtain ⟨st, hst, hstamp⟩ := forall₂_partner' hstamps hx
    have := (hint st hst).2
    rw [hstamp.packetCount] at this
    omega
  have hwithin := h.within (by decide) hsent
  -- What becomes of the streams `a` and `b` of the two ends.
  have hvalues : ∀ l x a b a' b', Stamps l a → x ∈ seen → Tracks x b → b ∈ q.test.streams → b.id = a.id →
      TakesPackets q.test a a' → KeepsPackets b b' →
      a'.packetCount = b'.packetCount ∧ a'.cntError = b'.cntError ∧ b'.packetCount = (x.next : Int) - 1 ∧
        a'.omittedPacketCount = l.omitted ∧ b'.omittedPacketCount = (x.first : Int) - 1 ∧
        0 ≤ b'.cntError ∧ b'.cntError ≤ b'.packetCount - b'.omittedPacketCount := by
    rintro l x a b a' b' hl hx hxb hb hid ⟨-, homitted, htake⟩ ⟨-, hk₁, hk₂, hk₃⟩
    obtain ⟨v₁, v₂, v₃, v₄⟩ := hxb.values (hwithin x hx) (by decide)
    obtain ⟨t₁, t₂⟩ := htake b hb hid
    have hi₁ : toInt b.packetCount = b.packetCount := by
      rw [hxb.packetCount]
      exact toInt_toInt _
    have hi₂ : toInt b.cntError = b.cntError := by
      rw [hxb.cntError]
      exact toInt_toInt _
    rw [hk₁, hk₂, hk₃, homitted, t₁, t₂, hi₁, hi₂]
    exact ⟨rfl, rfl, v₁, hl.omittedPacketCount, v₂, v₃, v₄⟩
  constructor
  · intro hagree x hx y hy hid
    obtain ⟨a', ha', hta⟩ := forall₂_partner' htakes (List.of_mem_zip hx).2
    obtain ⟨b', hb', hkb⟩ := forall₂_partner' hkeeps (List.of_mem_zip hy).2
    obtain ⟨e₁, -, -, e₂, e₃, -, -⟩ := hvalues x.1 y.1 x.2 y.2 a' b'
      ((List.forall₂_iff_zip.1 hstamps).2 hx) (List.of_mem_zip hy).1
      ((List.forall₂_iff_zip.1 htracks).2 hy) (List.of_mem_zip hy).2 hid.symm hta hkb
    obtain ⟨htotal, -⟩ := hagree a' ha' b' hb' (hta.1.trans (hid.trans hkb.1.symm))
    omega
  · intro hsame a' ha' b' hb' hid
    obtain ⟨a, ha, hta⟩ := forall₂_partner htakes ha'
    obtain ⟨b, hb, hkb⟩ := forall₂_partner hkeeps hb'
    obtain ⟨l, hl, hstamp⟩ := forall₂_partner hstamps (List.of_mem_zip ha).1
    obtain ⟨x, hx, htrack⟩ := forall₂_partner htracks (List.of_mem_zip hb).1
    have hids : a.id = b.id := hta.1.symm.trans (hid.trans hkb.1)
    obtain ⟨e₁, e₂, -, e₃, e₄, e₅, e₆⟩ := hvalues l x a b a' b' hstamp (List.of_mem_zip hx).1 htrack
      (List.of_mem_zip hb).1 hids.symm hta hkb
    have hfirst : x.first = l.omitted + 1 := hsame (l, a) hl (x, b) hx hids
    refine ⟨by omega, e₂, by omega, by omega⟩

/-- A UDP sender over one stream, in blocks of 12 bytes. -/
def smallUdpSender : IperfTest :=
  let t := setProtocol .udp (iperfSetTestRole .client mainTest)
  { t with
    omitting := true
    settings := { t.settings with blksize := 12 }
    streams := [newStream t 3 4 (-1) (List.replicate 12 0)] }

/-- The sender after one datagram. -/
def oneDatagram : Mem := Prog.after (fun _ => Req.quiet) 100 (iperfUdpSend 9 0) (Mem.start smallUdpSender)

/-- The sender after the end of its omit period. -/
def senderEnd : Mem := Prog.after (fun _ => Req.quiet) 100 (omitTimerProc ⟨0, 0⟩) oneDatagram

/-- The receiver after the datagram, or after the end of its omit period. -/
def receiverOnce (early : Bool) : Mem :=
  if early then Prog.after (onePacket 1) 100 (omitTimerProc ⟨0, 0⟩) (Mem.start smallReceiver)
  else Prog.after (onePacket 1) 100 (iperfUdpRecv 9 0) (Mem.start smallReceiver)

/-- The receiver after both, in this order or in the other one. -/
def receiverEnd (early : Bool) : Mem :=
  if early then Prog.after (onePacket 1) 100 (iperfUdpRecv 9 0) (receiverOnce true)
  else Prog.after (onePacket 1) 100 (omitTimerProc ⟨0, 0⟩) (receiverOnce false)

/-- What the receiver's observer notes. -/
def receiverLog (early : Bool) : LossLog :=
  if early then LossLog.start.restart.packet 1 else (LossLog.start.packet 1).restart

theorem receiverEnd_run (early : Bool) :
    UdpTest (Mem.start smallUdpSender) (Mem.start smallReceiver) [⟨1, 1⟩] senderEnd
      [receiverLog early] (receiverEnd early) := by
  have hsend : Prog.Returns (iperfUdpSend 9 0) (Mem.start smallUdpSender) 12 oneDatagram :=
    .of_drive _ 100 (by decide)
  have homit : Prog.Returns (omitTimerProc ⟨0, 0⟩) oneDatagram () senderEnd :=
    .of_drive _ 100 (by decide)
  have hstart : UdpTest (Mem.start smallUdpSender) (Mem.start smallReceiver) [.start]
      (Mem.start smallUdpSender) [.start] (Mem.start smallReceiver) := .start
  have hsent := hstart.datagram hsend
  have hids : oneDatagram.test.streams.map (·.id) = [0] ∧ senderEnd.test.streams.map (·.id) = [0] := by
    decide
  obtain ⟨a, ha, haid⟩ := List.map_eq_singleton_iff.1 hids.1
  obtain ⟨b, hb, hbid⟩ := List.map_eq_singleton_iff.1 hids.2
  have hboth := hsent.senderOmitOver (by decide) homit
  cases early with
  | true =>
    have h₁ : Prog.Returns (omitTimerProc ⟨0, 0⟩) (Mem.start smallReceiver) () (receiverOnce true) :=
      .of_drive _ 100 (by decide)
    have h₂ : Prog.Returns (iperfUdpRecv 9 0) (receiverOnce true) 12 (receiverEnd true) :=
      .of_drive _ 100 (by decide)
    have hst : (receiverEnd true).test.streams.map (fun st => (st.id, bufferWord st.buffer 8)) =
      [(0, 1)] := by decide
    obtain ⟨st, hst, hnum⟩ := List.map_eq_singleton_iff.1 hst
    rw [Prod.mk.injEq] at hnum
    have hget : (receiverEnd true).test.streams[0]? = some st := by rw [hst]; rfl
    have hrun := UdpTest.packet (hboth.receiverOmitOver (by decide) h₁) h₂ (by decide) hget ⟨(⟨1, 1⟩, b), by rw [hb]; exact List.mem_cons_self, hbid.trans hnum.1.symm,
        hnum.2.le⟩
    rw [hnum.2] at hrun
    exact hrun
  | false =>
    have h₁ : Prog.Returns (iperfUdpRecv 9 0) (Mem.start smallReceiver) 12 (receiverOnce false) :=
      .of_drive _ 100 (by decide)
    have h₂ : Prog.Returns (omitTimerProc ⟨0, 0⟩) (receiverOnce false) () (receiverEnd false) :=
      .of_drive _ 100 (by decide)
    have hst : (receiverOnce false).test.streams.map (fun st => (st.id, bufferWord st.buffer 8)) =
      [(0, 1)] := by decide
    obtain ⟨st, hst, hnum⟩ := List.map_eq_singleton_iff.1 hst
    rw [Prod.mk.injEq] at hnum
    have hget : (receiverOnce false).test.streams[0]? = some st := by rw [hst]; rfl
    have hrun := (UdpTest.packet hboth h₁ (by decide) hget ⟨(⟨1, 1⟩, b), by rw [hb]; exact List.mem_cons_self, hbid.trans hnum.1.symm,
        hnum.2.le⟩).receiverOmitOver (by decide) h₂
    rw [hnum.2] at hrun
    exact hrun

/-- The two ends after the exchange. -/
def receiverDone (early : Bool) : Mem := afterExchange (receiverEnd early) (resultDoc senderEnd.test)

def senderDone (early : Bool) : Mem := afterExchange senderEnd (resultDoc (receiverDone early).test)

theorem receiverDone_exchanges (early : Bool) :
    Exchanges 9 senderEnd (senderDone early) (some (resultDoc senderEnd.test))
        (some (resultDoc (receiverDone early).test)) ∧
      Exchanges 9 (receiverEnd early) (receiverDone early) (some (resultDoc (receiverDone early).test))
        (some (resultDoc senderEnd.test)) := by
  have hq := exchangeRun_exchanges (receiverEnd early) (resultDoc senderEnd.test)
    (by cases early <;> decide)
  have hp := exchangeRun_exchanges senderEnd (resultDoc (receiverDone early).test)
    (by cases early <;> decide)
  rw [if_neg (by cases early <;> decide)] at hq
  rw [if_pos (by decide)] at hp
  exact ⟨hp, hq⟩

/-- Both ends have omitted the datagram. -/
theorem udp_totals_agree_both_omitted : TotalsAgree (senderDone false).test (receiverDone false).test := by
  obtain ⟨hp, hq⟩ := receiverDone_exchanges false
  refine (udp_totals_agree_iff rfl (fun st hst => ?_) (fun st hst => ?_) (receiverEnd_run false)
    (by decide) (.inl ⟨by decide, by decide⟩)
    ⟨by decide, by decide, by decide⟩ (by decide) (by decide)
    hp hq).2 (by decide)
  · rw [List.mem_singleton.1 hst]
    exact newStream_unused ..
  · rw [List.mem_singleton.1 hst]
    exact newStream_unused ..

/-- The datagram arrives after the end of the receiver's omit period: the receiver prints one packet,
the sender none. -/
theorem datagram_after_omit :
    UdpTest (Mem.start smallUdpSender) (Mem.start smallReceiver) [⟨1, 1⟩] senderEnd [receiverLog true]
        (receiverEnd true) ∧
      Exchanges 9 senderEnd (senderDone true) (some (resultDoc senderEnd.test))
        (some (resultDoc (receiverDone true).test)) ∧
      Exchanges 9 (receiverEnd true) (receiverDone true) (some (resultDoc (receiverDone true).test))
        (some (resultDoc senderEnd.test)) ∧
      (senderDone true).test.streams.map (fun st => st.packetCount - st.omittedPacketCount) = [0] ∧
      (receiverDone true).test.streams.map (fun st => st.packetCount - st.omittedPacketCount) = [1] ∧
      ¬ TotalsAgree (senderDone true).test (receiverDone true).test :=
  ⟨receiverEnd_run true, (receiverDone_exchanges true).1, (receiverDone_exchanges true).2,
    by decide, by decide, by unfold TotalsAgree; decide⟩

end Iperf
