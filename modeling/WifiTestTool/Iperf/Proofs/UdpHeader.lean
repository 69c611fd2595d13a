import WifiTestTool.Iperf.Proofs.ObservedCalls
import WifiTestTool.Iperf.Proofs.ParamsExchange
import WifiTestTool.Iperf.Proofs.UdpOrder

/-!
# Datagrams between `iperf_udp_send` and `iperf_udp_recv`

The first 12 bytes of a datagram are its header, the time at which it was sent and the number of the packet.
The block size is not checked against this: with blocks of less than 12 bytes the end of the header stays
behind. The number is given to a datagram before it is known whether the system takes it, so the numbers of
the datagrams that it does not take are missing at the receiver.
-/

namespace Iperf

open Reactive

/-! ## The header -/

theorem ntohl_htonl {n : Nat} (h : n < 0x100000000) : ntohl (htonl n) = n := by
  have hbyte : ∀ k, (UInt8.ofNat k).toNat = k % 256 := fun k => rfl
  show (((0 * 256 + (UInt8.ofNat (n / 0x1000000)).toNat) * 256 + (UInt8.ofNat (n / 0x10000)).toNat) * 256 +
    (UInt8.ofNat (n / 0x100)).toNat) * 256 + (UInt8.ofNat n).toNat = n
  rw [hbyte, hbyte, hbyte, hbyte]
  omega

theorem datagramHeader_length (time : Timeval) (packetCount : Int) :
    (datagramHeader time packetCount).length = 12 := rfl

/-- What `iperf_udp_recv` takes from the buffer: the time at which the packet was sent, and its number. -/
def header (buffer : List UInt8) : Timeval × Nat :=
  (⟨bufferWord buffer 0, bufferWord buffer 4⟩, bufferWord buffer 8)

/-- The words of a header are read as they were written. -/
theorem header_datagramHeader {time : Timeval} {packetCount : Int} (rest : List UInt8)
    (husec : 0 ≤ time.tvUsec) (husec' : time.tvUsec < 0x100000000) (hcount : 0 ≤ packetCount)
    (hcount' : packetCount < 0x100000000) :
    header (datagramHeader time packetCount ++ rest) =
      (⟨time.tvSec % 0x100000000, time.tvUsec⟩, packetCount.toNat) := by
  have hword : ∀ n : Int, ntohl (htonl (n % 0x100000000).toNat) = (n % 0x100000000).toNat :=
    fun n => ntohl_htonl (by omega)
  have hsec' : bufferWord (datagramHeader time packetCount ++ rest) 0 = (time.tvSec % 0x100000000).toNat :=
    hword _
  have husec' : bufferWord (datagramHeader time packetCount ++ rest) 4 = (time.tvUsec % 0x100000000).toNat :=
    hword _
  have hcount' : bufferWord (datagramHeader time packetCount ++ rest) 8 = (packetCount % 0x100000000).toNat :=
    hword _
  unfold header
  rw [hsec', husec', hcount']
  refine Prod.ext ?_ ?_
  · simp only [Timeval.mk.injEq]
    omega
  · dsimp only
    omega

/-! ## One datagram -/

/-- What is seen of a socket over which datagrams are sent: what the clock has said last, and the datagrams
that the system has taken. -/
structure Sending where
  clock : Timeval
  accepted : List (List UInt8)
deriving DecidableEq

/-- A datagram is taken as a whole, or it is refused because a buffer is full, or the call is interrupted. -/
def sendingObserver : Observer Sending where
  notes
    | g, .gettimeofday, .ok now => { g with clock := now }
    | g, .write _ bs, .ok _ => { g with accepted := g.accepted ++ [bs] }
    | g, _, _ => g
  allows
    | _, _, .gettimeofday, .ok now => 0 ≤ now.tvUsec ∧ now.tvUsec < 1000000
    | _, _, .gettimeofday, .error _ => False
    | _, _, .write _ bs, .ok n => n = bs.length
    | _, _, .write _ _, .error e => e = .eagain ∨ e = .enobufs ∨ e = .eintr
    | _, _, _, _ => True

/-- The datagrams that wait are read one by one; of a datagram that is too long only the beginning is
read. -/
def deliveringObserver : Observer (List (List UInt8)) where
  notes
    | g, .read _ _, .ok _ => g.tail
    | g, _, _ => g
  allows
    | _, d :: _, .read _ n, .ok bs => bs = d.take n
    | _, [], .read _ _, .ok _ => False
    | _, _, .read _ _, .error e => e = .eintr
    | _, _, _, _ => True

instance (m : Mem) (g : Sending) (r : Req) (a : r.Ans) :
    Decidable (sendingObserver.contract.allows m g r a) := by
  rcases r
  case gettimeofday =>
    rcases a with e | now
    · exact isFalse id
    · exact (inferInstance : Decidable (0 ≤ now.tvUsec ∧ now.tvUsec < 1000000))
  case write fd bs =>
    rcases a with e | n
    · exact (inferInstance : Decidable (e = .eagain ∨ e = .enobufs ∨ e = .eintr))
    · exact (inferInstance : Decidable (n = bs.length))
  all_goals exact isTrue trivial

instance (m : Mem) (g : List (List UInt8)) (r : Req) (a : r.Ans) :
    Decidable (deliveringObserver.contract.allows m g r a) := by
  rcases r
  case read fd n =>
    rcases a with e | bs <;> rcases g with _ | ⟨d, g⟩
    · exact (inferInstance : Decidable (e = .eintr))
    · exact (inferInstance : Decidable (e = .eintr))
    · exact isFalse id
    · exact (inferInstance : Decidable (bs = d.take n))
  all_goals rcases g with _ | ⟨d, g⟩ <;> exact isTrue trivial

/-- `Nwrite` hands its buffer to the system as one datagram, which the system takes or not. -/
theorem nwrite_sends {t : IperfTest} {g : Sending} (fuel : Nat) (fd : Int) {buf : List UInt8} (hbuf : buf ≠ []) :
    Sees sendingObserver t g (nwrite fuel fd buf) fun _ t' g' =>
      t' = t ∧ g'.clock = g.clock ∧ (g'.accepted = g.accepted ∨ g'.accepted = g.accepted ++ [buf]) := by
  unfold nwrite
  cases fuel with
  | zero => exact .stop _
  | succ fuel =>
    unfold nwriteLoop
    rw [if_neg hbuf]
    refine .sys_bind fun a ha => ?_
    match a, ha with
    | .error .eintr, _ => exact .pure ⟨rfl, rfl, .inl rfl⟩
    | .error .eagain, _ | .error .enobufs, _ => exact .setErrno_bind (.pure ⟨rfl, rfl, .inl rfl⟩)
    | .ok 0, ha => exact absurd (List.eq_nil_of_length_eq_zero (Eq.symm ha)) hbuf
    | .ok (n + 1), ha =>
      have hdrop : buf.drop (n + 1) = [] := by
        rw [show n + 1 = buf.length from ha, List.drop_length]
      show Sees _ _ _ (nwriteLoop fd buf.length fuel (buf.drop (n + 1))) _
      rw [hdrop]
      cases fuel with
      | zero => exact .stop _
      | succ fuel =>
        unfold nwriteLoop
        rw [if_pos rfl]
        exact .pure ⟨rfl, rfl, .inr rfl⟩

/-- `iperf_udp_send` stamps a datagram, which the system takes or not. -/
theorem iperfUdpSend_sends {t : IperfTest} {g : Sending} {sp : Nat} {st : IperfStream} (fuel : Nat)
    (hst : t.streams[sp]? = some st) (hsize : 0 < sizeT t.settings.blksize) :
    Sees sendingObserver t g (iperfUdpSend fuel sp) fun _ t' g' => ∃ f : IperfStream → IperfStream,
      t' = { t with streams := t.streams.modify sp f } ∧
      (0 ≤ g'.clock.tvUsec ∧ g'.clock.tvUsec < 1000000) ∧
      (f st).packetCount = st.packetCount + 1 ∧ (f st).buffer = (st.stamp g'.clock).buffer ∧
      (g'.accepted = g.accepted ∨
        g'.accepted = g.accepted ++ [(st.stamp g'.clock).buffer.take (sizeT t.settings.blksize)]) := by
  refine .gettimeofday_bind (fun now hnow => .modifyTest_bind ?_) fun _ h => absurd h id
  have hwrite : Sees sendingObserver { t with streams := t.streams.modify sp (IperfStream.stamp now) }
      { g with clock := now } (streamWrite fuel sp) fun _ t' g' =>
        t' = { t with streams := t.streams.modify sp (IperfStream.stamp now) } ∧ g'.clock = now ∧
          (g'.accepted = g.accepted ∨
            g'.accepted = g.accepted ++ [(st.stamp now).buffer.take (sizeT t.settings.blksize)]) := by
    refine .getTest_bind (.getStream_bind fun st' hst' => ?_)
    have hsame : st' = st.stamp now := by
      rw [List.getElem?_modify_eq, hst] at hst'
      exact (Option.some.inj hst').symm
    rw [hsame]
    refine (nwrite_sends fuel _ ?_).bind fun _ _ _ h => .pure h
    rw [← List.length_pos_iff, List.length_take]
    have hlen : (st.stamp now).buffer.length = 12 + (st.buffer.drop 12).length := List.length_append
    show 0 < min (sizeT t.settings.blksize) _
    omega
  refine hwrite.bind fun r t' g' h => ?_
  obtain ⟨rfl, hclock, haccepted⟩ := h
  rw [← hclock] at hnow haccepted ⊢
  refine .ite (fun _ => .pure ⟨IperfStream.stamp g'.clock, rfl, hnow, rfl, rfl, haccepted⟩) fun _ => ?_
  refine .modifyTest_bind (.pure ⟨IperfStream.sent r ∘ IperfStream.stamp g'.clock, ?_, hnow, rfl, rfl, haccepted⟩)
  rw [List.modify_modify_eq]

/-- `Nread` reads a datagram that fills its buffer. -/
theorem nread_delivers {t : IperfTest} {d : List UInt8} (fuel : Nat) (fd : Int) (hd : d ≠ []) :
    Sees deliveringObserver t [d] (nread fuel fd d.length) fun r t' g' => t' = t ∧ r = some d ∧ g' = [] := by
  have hempty : ¬ d.length ≤ ([] : List UInt8).length := by
    have := List.length_pos_iff.2 hd
    simp only [List.length_nil]
    omega
  unfold nread
  induction fuel with
  | zero => exact .stop _
  | succ fuel ih =>
    unfold nreadLoop
    rw [if_neg hempty]
    refine .sys_bind fun a ha => ?_
    match a, ha with
    | .error .eintr, _ => exact ih
    | .ok [], ha =>
      have hnil : [] = d.take (d.length - 0) := ha
      rw [Nat.sub_zero, List.take_length] at hnil
      exact absurd hnil.symm hd
    | .ok (b :: bs), ha =>
      have hwhole : b :: bs = d.take (d.length - 0) := ha
      rw [Nat.sub_zero, List.take_length] at hwhole
      show Sees _ _ [] (nreadLoop fd d.length fuel ([] ++ b :: bs)) _
      rw [List.nil_append, hwhole]
      cases fuel with
      | zero => exact .stop _
      | succ fuel =>
        unfold nreadLoop
        rw [if_pos le_rfl]
        exact .pure ⟨rfl, rfl, rfl⟩

/-- `iperf_udp_recv` reads a datagram into the buffer. -/
theorem iperfUdpRecv_delivers {t : IperfTest} {sp : Nat} {st : IperfStream} {d : List UInt8} (fuel : Nat)
    (hst : t.streams[sp]? = some st) (hd : d ≠ []) (hsize : sizeT t.settings.blksize = d.length) :
    Sees deliveringObserver t [d] (iperfUdpRecv fuel sp) fun r t' _ => ∃ f : IperfStream → IperfStream,
      t' = { t with streams := t.streams.modify sp f } ∧ (f st).buffer = overlay st.buffer d ∧
        r = toInt d.length := by
  have hread : Sees deliveringObserver t [d] (streamRead fuel sp) fun r t' _ =>
      t' = { t with streams := t.streams.modify sp fun st => { st with buffer := overlay st.buffer d } } ∧
        r = toInt d.length := by
    refine .getTest_bind (.getStream_bind fun _ _ => ?_)
    rw [hsize]
    refine (nread_delivers fuel _ hd).bind fun r t' g' h => ?_
    obtain ⟨rfl, rfl, rfl⟩ := h
    exact .modifyTest_bind (.pure ⟨rfl, rfl⟩)
  refine hread.bind fun r t' g' h => ?_
  obtain ⟨rfl, hr⟩ := h
  refine .ite (fun _ => .pure ⟨_, rfl, rfl, hr⟩) fun _ => .modifyTest_bind (.getStream_bind fun st' _ => ?_)
  refine .modifyTest_bind ?_
  rw [List.modify_modify_eq, List.modify_modify_eq]
  have hrest : ∀ (f : IperfStream → IperfStream) g', (f st).buffer = overlay st.buffer d →
      Sees deliveringObserver { t with streams := t.streams.modify sp f } g' (do
        let arrival ← gettimeofday
        modifyStream sp (measureJitter ⟨bufferWord st'.buffer 0, bufferWord st'.buffer 4⟩ arrival)
        pure r) fun r t' _ => ∃ f : IperfStream → IperfStream,
          t' = { t with streams := t.streams.modify sp f } ∧ (f st).buffer = overlay st.buffer d ∧
            r = toInt d.length := by
    intro f g' hf
    have hmeasure : ∀ arrival g', Sees deliveringObserver { t with streams := t.streams.modify sp f } g' (do
        modifyStream sp (measureJitter ⟨bufferWord st'.buffer 0, bufferWord st'.buffer 4⟩ arrival)
        pure r) fun r t' _ => ∃ f : IperfStream → IperfStream,
          t' = { t with streams := t.streams.modify sp f } ∧ (f st).buffer = overlay st.buffer d ∧
            r = toInt d.length := by
      intro arrival g'
      refine .modifyTest_bind (.pure ?_)
      rw [List.modify_modify_eq]
      exact ⟨measureJitter _ arrival ∘ f, rfl, hf, hr⟩
    exact .gettimeofday_bind (fun now _ => hmeasure now _) fun _ _ => hmeasure _ _
  have hbuffer := countPacket_buffer (bufferWord st'.buffer 8)
    (IperfStream.received r { st with buffer := overlay st.buffer d })
  exact .ite (fun _ => .sys_bind fun _ _ => hrest _ _ hbuffer) fun _ => hrest _ _ hbuffer

/-- At the time `time` the stream at `sp` sends the datagram `d`. -/
def SendsAt (p : Mem) (sp : Nat) (time : Timeval) (d : List UInt8) : Prop :=
  ∃ fuel clock r p', Prog.Reach sendingObserver.contract (iperfUdpSend fuel sp, p, ⟨clock, []⟩)
    (.ret r, p', ⟨time, [d]⟩)

/-- The stream at `sp` receives the datagram `d`. -/
def ReceivesAt (q : Mem) (sp : Nat) (d : List UInt8) (q' : Mem) : Prop :=
  ∃ fuel r, Prog.Reach deliveringObserver.contract (iperfUdpRecv fuel sp, q, [d]) (.ret r, q', [])

/-- Between a sender and a receiver with this block size, `iperf_udp_recv` finds in the buffer what
`iperf_udp_send` has put there: the time at which the packet was sent and its number. -/
def HeaderSurvives (blksize : Int) : Prop :=
  ∀ (p q q' : Mem) (sp sq : Nat) (st old new : IperfStream) (time : Timeval) (d : List UInt8),
    p.test.settings.blksize = blksize → q.test.settings.blksize = blksize →
    p.test.streams[sp]? = some st → 0 ≤ st.packetCount → st.packetCount < 0x7fffffff →
    q.test.streams[sq]? = some old → SendsAt p sp time d → d.length = blksize → ReceivesAt q sq d q' →
    q'.test.streams[sq]? = some new →
    header new.buffer = (⟨time.tvSec % 0x100000000, time.tvUsec⟩, (st.packetCount + 1).toNat)

theorem sizeT_block {blksize : Int} (hpos : 0 < blksize) (hle : blksize ≤ MAX_BLOCKSIZE) :
    sizeT blksize = blksize.toNat := by
  have hmax : MAX_BLOCKSIZE = 1048576 := rfl
  unfold sizeT
  omega

/-- What is sent of a datagram whose buffer is large enough. -/
theorem stamp_take {st : IperfStream} (time : Timeval) {n : Nat} (hn : 12 ≤ n) :
    (st.stamp time).buffer.take n =
      datagramHeader time (st.packetCount + 1) ++ (st.buffer.drop 12).take (n - 12) := by
  show (datagramHeader time (st.packetCount + 1) ++ st.buffer.drop 12).take n = _
  rw [List.take_append, datagramHeader_length, List.take_of_length_le (by rw [datagramHeader_length]; exact hn)]

theorem headerSurvives_of_le {blksize : Int} (hle : 12 ≤ blksize) (hmax : blksize ≤ MAX_BLOCKSIZE) :
    HeaderSurvives blksize := by
  rintro p q q' sp sq st old new time d hp hq hst hpos hlt hold ⟨_, _, _, p', hsend⟩ hlen ⟨_, _, hrecv⟩ hnew
  have hsize := sizeT_block (by omega) hmax
  obtain ⟨f, -, ⟨husec, husec'⟩, -, -, hd⟩ :=
    (iperfUdpSend_sends _ hst (by rw [hp, hsize]; omega)).reach hsend
  rw [List.nil_append, hp, hsize, stamp_take time (by omega)] at hd
  have hd : d = datagramHeader time (st.packetCount + 1) ++ (st.buffer.drop 12).take (blksize.toNat - 12) := by
    rcases hd with hd | hd
    · cases hd
    · exact List.singleton_inj.1 hd
  have hne : d ≠ [] := by
    rintro rfl
    simp only [List.length_nil] at hlen
    omega
  obtain ⟨f', ht, hbuffer, -⟩ := (iperfUdpRecv_delivers _ hold hne (by rw [hq, hsize]; omega)).reach hrecv
  have hsame : f' old = new := by
    rw [ht, List.getElem?_modify_eq, hold] at hnew
    exact Option.some.inj hnew
  rw [← hsame, hbuffer, overlay, hd, List.append_assoc, header_datagramHeader _ husec (by omega) (by omega) (by omega)]

/-- One end of a UDP test with one stream, whose buffer is filled with zeros. -/
def udpEnd (role : Role) (blksize : Int) : IperfTest :=
  let t := setProtocol .udp (iperfSetTestRole role mainTest)
  { t with
    settings := { t.settings with blksize := blksize }
    streams := [newStream t 3 4 (-1) (List.replicate blksize.toNat 0)] }

/-- The sender after a call that nothing disturbs, and what was seen of it. -/
def quietSend (n : Nat) : Option Int × Sending :=
  match Prog.drive sendingObserver.contract (fun _ => Req.quiet) 100 0
    (iperfUdpSend 9 0, Mem.start (udpEnd .client n), ⟨⟨0, 0⟩, []⟩) with
  | (p, _, g) => (Prog.returned p, g)

/-- The receiver after a call that reads zeros. -/
def quietRecv (n : Nat) : Option Int × List (List UInt8) × List Nat :=
  match Prog.drive deliveringObserver.contract (fun _ => Req.quiet) 100 0
    (iperfUdpRecv 9 0, Mem.start (udpEnd .server n), [List.replicate n 0]) with
  | (q, m, g) => (Prog.returned q, g, m.test.streams.map (bufferWord ·.buffer 8))

theorem quietSend_block : ∀ n < 12, 0 < n → quietSend n = (some (n : Int), ⟨⟨0, 0⟩, [List.replicate n 0]⟩) := by
  decide

theorem quietRecv_block : ∀ n < 12, 0 < n → (quietRecv n).1 = some (n : Int) ∧ (quietRecv n).2 = ([], [0]) := by
  decide

theorem udpEnd_sends {n : Nat} (hpos : 0 < n) (hlt : n < 12) :
    SendsAt (Mem.start (udpEnd .client n)) 0 ⟨0, 0⟩ (List.replicate n 0) := by
  have hquiet := quietSend_block n hlt hpos
  have hreach := Prog.drive_reach sendingObserver.contract (fun _ => Req.quiet) 100 0
    (iperfUdpSend 9 0, Mem.start (udpEnd .client n), ⟨⟨0, 0⟩, []⟩)
  unfold quietSend at hquiet
  generalize Prog.drive sendingObserver.contract (fun _ => Req.quiet) 100 0
    (iperfUdpSend 9 0, Mem.start (udpEnd .client n), ⟨⟨0, 0⟩, []⟩) = c at hquiet hreach
  obtain ⟨p, p', g⟩ := c
  obtain ⟨hreturned, rfl⟩ := Prod.mk.inj hquiet
  cases p <;> cases hreturned
  exact ⟨9, _, _, p', hreach⟩

theorem udpEnd_receives {n : Nat} (hpos : 0 < n) (hlt : n < 12) :
    ∃ q', ReceivesAt (Mem.start (udpEnd .server n)) 0 (List.replicate n 0) q' ∧
      ∃ st, q'.test.streams[0]? = some st ∧ (header st.buffer).2 = 0 := by
  have hquiet := quietRecv_block n hlt hpos
  have hreach := Prog.drive_reach deliveringObserver.contract (fun _ => Req.quiet) 100 0
    (iperfUdpRecv 9 0, Mem.start (udpEnd .server n), [List.replicate n 0])
  unfold quietRecv at hquiet
  generalize Prog.drive deliveringObserver.contract (fun _ => Req.quiet) 100 0
    (iperfUdpRecv 9 0, Mem.start (udpEnd .server n), [List.replicate n 0]) = c at hquiet hreach
  obtain ⟨p, q', g⟩ := c
  obtain ⟨hreturned, hnotes⟩ := hquiet
  obtain ⟨rfl, hnumber⟩ := Prod.mk.inj hnotes
  obtain ⟨st, hst, hnumber⟩ := List.map_eq_singleton_iff.1 hnumber
  cases p <;> cases hreturned
  exact ⟨q', ⟨9, _, hreach⟩, st, by rw [hst]; rfl, hnumber⟩

/-- With less than 12 bytes the end of the number stays behind. -/
theorem not_headerSurvives_of_lt {blksize : Int} (hpos : 0 < blksize) (hlt : blksize < 12) :
    ¬ HeaderSurvives blksize := by
  intro h
  obtain ⟨n, rfl⟩ := Int.eq_ofNat_of_zero_le hpos.le
  have hsend := udpEnd_sends (by omega) (show n < 12 by omega)
  obtain ⟨q', hrecv, st, hst, hnumber⟩ := udpEnd_receives (by omega) (show n < 12 by omega)
  have hfirst : (0 : Int) < 0x7fffffff := by decide
  have hheader := h _ _ _ 0 0 _ _ st ⟨0, 0⟩ _ rfl rfl rfl le_rfl hfirst rfl hsend
    (by rw [List.length_replicate]) hrecv hst
  rw [hheader] at hnumber
  exact absurd hnumber Nat.one_ne_zero

theorem parseArguments_maxBlksize {t₀ t : IperfTest} {opts : List Opt}
    (h : iperfParseArguments t₀ opts = .ok t) : t.settings.blksize ≤ MAX_BLOCKSIZE := by
  unfold iperfParseArguments at h
  generalize parseOpts opts _ = parsed at h
  cases parsed with
  | error e => cases h
  | ok p =>
    change parseFinish p = .ok t at h
    unfold parseFinish at h
    split_ifs at h with h₁ h₂ h₃
    cases h
    exact not_lt.1 fun hgt => h₃ (.inr hgt)

/-- **The header.** With a block size that `iperf_parse_arguments` accepts the header of every datagram
survives if and only if a block holds the 12 bytes of the header. -/
theorem header_survives_iff {opts : List Opt} {t : IperfTest} (h : iperfParseArguments mainTest opts = .ok t) :
    HeaderSurvives t.settings.blksize ↔ 12 ≤ t.settings.blksize := by
  have hpos := parseArguments_blksize h
  constructor
  · intro hsurvives
    by_contra hlt
    exact not_headerSurvives_of_lt hpos (not_le.1 hlt) hsurvives
  · intro hle
    exact headerSurvives_of_le hle (parseArguments_maxBlksize h)

/-- `iperf3 -c h -u -l 12` or `iperf3 -c h -u -l 8` -/
theorem parse_udp_length {n : UInt64} (hn : n = 12 ∨ n = 8) :
    ∃ t, iperfParseArguments mainTest [.client "h", .udp, .length n] = .ok t ∧ t.settings.blksize = n.toNat := by
  have hblksize : (iperfParseArguments mainTest [.client "h", .udp, .length n]).toOption.map
      (·.settings.blksize) = some (n.toNat : Int) := by
    rcases hn with rfl | rfl <;> decide
  obtain ⟨t, ht, hblksize⟩ := Option.map_eq_some_iff.1 hblksize
  refine ⟨t, ?_, hblksize⟩
  cases hparse : iperfParseArguments mainTest [.client "h", .udp, .length n] with
  | error e =>
    rw [hparse] at ht
    cases ht
  | ok t' =>
    rw [hparse] at ht
    cases ht
    rfl

theorem header_survives_twelve : HeaderSurvives 12 := by
  obtain ⟨t, hparse, hblksize⟩ := parse_udp_length (.inl rfl)
  have hiff := header_survives_iff hparse
  rw [hblksize] at hiff
  exact hiff.2 (by decide)

/-- With blocks of 8 bytes the number of the packet stays behind. -/
theorem header_cut_eight :
    (∃ t, iperfParseArguments mainTest [.client "h", .udp, .length 8] = .ok t ∧ t.settings.blksize = 8) ∧
      ¬ HeaderSurvives 8 :=
  ⟨parse_udp_length (.inr rfl), not_headerSurvives_of_lt (by decide) (by decide)⟩

/-! ## A stream of datagrams -/

/-- Calls of `iperf_udp_send` for the stream at `sp`, with the datagrams that the system has taken of each
call. The number of a packet is an `int`, which is not incremented beyond its largest value. -/
inductive SenderCalls (p₀ : Mem) (sp : Nat) : List (List (List UInt8)) → Mem → Prop where
  | start : SenderCalls p₀ sp [] p₀
  | call {calls : List (List (List UInt8))} {p p' : Mem} {fuel : Nat} {r : Int} {st : IperfStream}
      {clock clock' : Timeval} {ds : List (List UInt8)} :
      SenderCalls p₀ sp calls p → p.test.streams[sp]? = some st → st.packetCount < 0x7fffffff →
      Prog.Reach sendingObserver.contract (iperfUdpSend fuel sp, p, ⟨clock, []⟩) (.ret r, p', ⟨clock', ds⟩) →
      SenderCalls p₀ sp (calls ++ [ds]) p'

/-- The datagrams are delivered to the stream at `sp`, in this order. -/
inductive Delivered (q₀ : Mem) (sp : Nat) : List (List UInt8) → Mem → Prop where
  | start : Delivered q₀ sp [] q₀
  | call {ds : List (List UInt8)} {d : List UInt8} {q q' : Mem} :
      Delivered q₀ sp ds q → ReceivesAt q sp d q' → Delivered q₀ sp (ds ++ [d]) q'

/-- A datagram of the `n`-th call with blocks of `size` bytes. -/
def IsDatagram (size n : Nat) (d : List UInt8) : Prop :=
  ∃ time rest, d = (datagramHeader time n ++ rest).take size ∧ d.length = size

/-- What holds of the sender after some calls. -/
structure SenderInv (t₀ : IperfTest) (sp size : Nat) (calls : List (List (List UInt8))) (t : IperfTest) :
    Prop where
  settings : t.settings = t₀.settings
  stream : ∃ st, t.streams[sp]? = some st ∧ st.packetCount = calls.length ∧ size ≤ st.buffer.length
  count : calls.length ≤ 0x7fffffff
  datagrams : ∀ i ds, calls[i]? = some ds → ds = [] ∨ ∃ d, ds = [d] ∧ IsDatagram size (i + 1) d

theorem SenderInv.call {t₀ t t' : IperfTest} {sp size : Nat} {calls : List (List (List UInt8))}
    {st : IperfStream} {ds : List (List UInt8)} {now : Timeval} {f : IperfStream → IperfStream}
    (h : SenderInv t₀ sp size calls t) (hst : t.streams[sp]? = some st) (hlt : st.packetCount < 0x7fffffff)
    (ht : t' = { t with streams := t.streams.modify sp f }) (hcount : (f st).packetCount = st.packetCount + 1)
    (hbuffer : (f st).buffer = (st.stamp now).buffer)
    (hds : ds = [] ∨ ds = [(st.stamp now).buffer.take size]) :
    SenderInv t₀ sp size (calls ++ [ds]) t' := by
  obtain ⟨st', hst', hpackets, hsize⟩ := h.stream
  have hsame : st = st' := Option.some.inj (hst.symm.trans hst')
  rw [← hsame] at hpackets hsize
  have hlen : (st.stamp now).buffer.length = 12 + (st.buffer.length - 12) := by
    show (datagramHeader now (st.packetCount + 1) ++ st.buffer.drop 12).length = _
    rw [List.length_append, datagramHeader_length, List.length_drop]
  have hlength : (calls ++ [ds]).length = calls.length + 1 := List.length_append
  refine ⟨?_, ⟨f st, ?_, ?_, ?_⟩, ?_, ?_⟩
  · rw [ht]
    exact h.settings
  · rw [ht, List.getElem?_modify_eq, hst]
    rfl
  · rw [hcount, hpackets, hlength]
    push_cast
    rfl
  · rw [hbuffer, hlen]
    omega
  · rw [hlength]
    omega
  · intro i ds' hi
    rcases Nat.lt_trichotomy i calls.length with hi' | rfl | hi'
    · rw [List.getElem?_append_left hi'] at hi
      exact h.datagrams i ds' hi
    · rw [List.getElem?_concat_length, Option.some.injEq] at hi
      rw [← hi]
      refine hds.imp id fun hds => ⟨_, hds, now, st.buffer.drop 12, ?_, ?_⟩
      · have hnumber : st.packetCount + 1 = ((calls.length + 1 : Nat) : Int) := by omega
        rw [← hnumber]
        rfl
      · rw [List.length_take, hlen]
        omega
    · rw [List.getElem?_eq_none (by omega)] at hi
      cases hi

theorem senderCalls_inv {p₀ p : Mem} {sp size : Nat} {calls : List (List (List UInt8))} {st₀ : IperfStream}
    (hst : p₀.test.streams[sp]? = some st₀) (hcount : st₀.packetCount = 0) (hbuffer : size ≤ st₀.buffer.length)
    (hpos : 0 < size) (hsize : sizeT p₀.test.settings.blksize = size) (h : SenderCalls p₀ sp calls p) :
    SenderInv p₀.test sp size calls p.test := by
  induction h with
  | start => exact ⟨rfl, ⟨st₀, hst, hcount, hbuffer⟩, by decide, nofun⟩
  | call _ hst hlt hcall ih =>
    have hblksize : sizeT _ = size := (congrArg (fun s => sizeT s.blksize) ih.settings).trans hsize
    obtain ⟨f, ht, -, hcount, hbuffer, hds⟩ :=
      (iperfUdpSend_sends _ hst (by rw [hblksize]; exact hpos)).reach hcall
    rw [hblksize] at hds
    exact ih.call hst hlt ht hcount hbuffer hds

/-- The number of the packet in a datagram that fills the buffer. -/
def numberOf (d : List UInt8) : Nat := bufferWord d 8

theorem delivered_run {q₀ q : Mem} {sp size : Nat} {ds : List (List UInt8)} {st₀ : IperfStream}
    (hst : q₀.test.streams[sp]? = some st₀) (hbuffer : st₀.buffer.length = size) (hpos : 0 < size)
    (hlt : size < 0x80000000) (hsize : sizeT q₀.test.settings.blksize = size)
    (hds : ∀ d ∈ ds, d.length = size) (h : Delivered q₀ sp ds q) :
    ReceiverRun q₀ sp (ds.map fun d => .packet (numberOf d)) q ∧ q.test.settings = q₀.test.settings ∧
      ∃ st, q.test.streams[sp]? = some st ∧ st.buffer.length = size := by
  induction h with
  | start => exact ⟨.start, rfl, st₀, hst, hbuffer⟩
  | @call ds d q q' _ hcall ih =>
    obtain ⟨hrun, hsettings, st, hst, hlen⟩ := ih fun d' hd' => hds d' (List.mem_append_left _ hd')
    have hd : d.length = size := hds d (List.mem_append_right _ (List.mem_singleton_self d))
    have hne : d ≠ [] := by
      rintro rfl
      simp only [List.length_nil] at hd
      omega
    obtain ⟨fuel, r, hcall⟩ := hcall
    obtain ⟨f, ht, hbuffer, hr⟩ :=
      (iperfUdpRecv_delivers fuel hst hne (by rw [hsettings, hsize, hd])).reach hcall
    rw [overlay_whole (hd.trans hlen.symm)] at hbuffer
    rw [toInt_of_lt (by omega) (by omega)] at hr
    have hst' : q'.test.streams[sp]? = some (f st) := by
      rw [ht, List.getElem?_modify_eq, hst]
      rfl
    refine ⟨?_, ?_, f st, hst', by rw [hbuffer, hd]⟩
    · have hpacket := hrun.packet hcall.forget (by omega) hst'
      rw [hbuffer] at hpacket
      rw [List.map_append]
      exact hpacket
    · rw [ht]
      exact hsettings

/-! ## The numbers -/

theorem isDatagram_number {size n : Nat} {d : List UInt8} (h : IsDatagram size n d) (hsize : 12 ≤ size)
    (hn : n < 0x100000000) : numberOf d = n := by
  obtain ⟨time, rest, rfl, -⟩ := h
  rw [List.take_append, datagramHeader_length,
    List.take_of_length_le (by rw [datagramHeader_length]; exact hsize)]
  have hword : numberOf (datagramHeader time n ++ rest.take (size - 12)) =
      ntohl (htonl ((n : Int) % 0x100000000).toNat) := rfl
  rw [hword, ntohl_htonl (by omega)]
  omega

/-- Where the last byte of the number stays behind there is a zero. -/
theorem numberOf_cut {d : List UInt8} (h : d.length < 12) : numberOf d % 256 = 0 := by
  obtain ⟨xs, hxs⟩ : ∃ xs, ((d ++ List.replicate 12 0).drop 8).take 4 = xs ++ [0] := by
    refine ⟨((d ++ List.replicate 12 0).drop 8).take 3, ?_⟩
    have hlast : ((d ++ List.replicate 12 0).drop 8)[3]? = some 0 := by
      rw [List.getElem?_drop, List.getElem?_append_right (by omega), List.getElem?_replicate, if_pos (by omega)]
    rw [List.take_add_one, hlast]
    rfl
  have hconcat : ntohl (xs ++ [0]) = ntohl xs * 256 + 0 := List.foldl_concat ..
  unfold numberOf bufferWord
  rw [hxs, hconcat]
  omega

/-- The numbers of the calls whose datagram was taken; the first one has the number `i`. -/
def takenCalls (i : Nat) : List (List (List UInt8)) → List Nat
  | [] => []
  | ds :: calls => if ds = [] then takenCalls (i + 1) calls else i :: takenCalls (i + 1) calls

theorem takenCalls_cons (i : Nat) (ds : List (List UInt8)) (calls : List (List (List UInt8))) :
    takenCalls i (ds :: calls) = if ds = [] then takenCalls (i + 1) calls else i :: takenCalls (i + 1) calls := rfl

/-- No call whose datagram was refused comes before one whose datagram was taken. -/
def RefusedLast (calls : List (List (List UInt8))) : Prop := calls.Pairwise fun ds ds' => ds = [] → ds' = []

theorem takenCalls_le {i n : Nat} {calls : List (List (List UInt8))} (h : n ∈ takenCalls i calls) : i ≤ n := by
  induction calls generalizing i with
  | nil => exact absurd h List.not_mem_nil
  | cons ds calls ih =>
    unfold takenCalls at h
    split at h
    · exact (Nat.le_succ i).trans (ih h)
    · rcases List.mem_cons.1 h with rfl | h
      · exact le_rfl
      · exact (Nat.le_succ i).trans (ih h)

theorem takenCalls_lt {i n : Nat} {calls : List (List (List UInt8))} (h : n ∈ takenCalls i calls) :
    n < i + calls.length := by
  induction calls generalizing i with
  | nil => exact absurd h List.not_mem_nil
  | cons ds calls ih =>
    rw [List.length_cons]
    rw [takenCalls_cons] at h
    split at h
    · have := ih h
      omega
    · rcases List.mem_cons.1 h with rfl | h
      · omega
      · have := ih h
        omega

theorem takenCalls_eq_nil_iff {i : Nat} {calls : List (List (List UInt8))} :
    takenCalls i calls = [] ↔ ∀ ds ∈ calls, ds = [] := by
  induction calls generalizing i with
  | nil => exact iff_of_true rfl nofun
  | cons ds calls ih =>
    rw [List.forall_mem_cons]
    unfold takenCalls
    split
    · rename_i hnil
      rw [ih]
      exact ⟨fun h => ⟨hnil, h⟩, And.right⟩
    · rename_i hnil
      exact iff_of_false (List.cons_ne_nil _ _) fun h => hnil h.1

/-- The datagrams that were taken are numbered without a gap if and only if none was refused before one of
them. -/
theorem takenCalls_eq_range_iff (i : Nat) (calls : List (List (List UInt8))) :
    takenCalls i calls = List.range' i (takenCalls i calls).length ↔ RefusedLast calls := by
  induction calls generalizing i with
  | nil => exact iff_of_true rfl .nil
  | cons ds calls ih =>
    unfold RefusedLast
    rw [List.pairwise_cons]
    unfold takenCalls
    by_cases hnil : ds = []
    · rw [if_pos hnil]
      have hempty : takenCalls (i + 1) calls = List.range' i (takenCalls (i + 1) calls).length ↔
          takenCalls (i + 1) calls = [] := by
        constructor
        · intro h
          cases htaken : takenCalls (i + 1) calls with
          | nil => rfl
          | cons n ns =>
            have hle := takenCalls_le (htaken ▸ List.mem_cons_self : n ∈ takenCalls (i + 1) calls)
            rw [htaken, List.length_cons, List.range'_succ, List.cons.injEq] at h
            omega
        · intro h
          rw [h]
          rfl
      rw [hempty, takenCalls_eq_nil_iff]
      constructor
      · intro h
        refine ⟨fun ds' hds' _ => h ds' hds', ?_⟩
        exact List.pairwise_of_forall_mem_list fun a ha b hb _ => h b hb
      · exact fun h ds' hds' => h.1 ds' hds' hnil
    · rw [if_neg hnil, List.length_cons, List.range'_succ, List.cons.injEq, eq_self_iff_true, true_and, ih]
      exact ⟨fun h => ⟨fun _ _ hds => absurd hds hnil, h⟩, And.right⟩

theorem flatten_length_le {α : Type} {xss : List (List α)} (h : ∀ xs ∈ xss, xs.length ≤ 1) :
    xss.flatten.length ≤ xss.length := by
  induction xss with
  | nil => exact le_rfl
  | cons xs xss ih =>
    have hxs := h xs List.mem_cons_self
    have hrest := ih fun ys hys => h ys (List.mem_cons_of_mem xs hys)
    rw [List.flatten_cons, List.length_append, List.length_cons]
    omega

theorem flatten_numbers {calls : List (List (List UInt8))} {i : Nat}
    (h : ∀ k ds, calls[k]? = some ds → ds = [] ∨ ∃ d, ds = [d] ∧ numberOf d = i + k) :
    calls.flatten.map numberOf = takenCalls i calls := by
  induction calls generalizing i with
  | nil => rfl
  | cons ds calls ih =>
    have hrest : calls.flatten.map numberOf = takenCalls (i + 1) calls := by
      refine ih fun k ds' hk => ?_
      rw [Nat.add_right_comm]
      exact h (k + 1) ds' hk
    rw [List.flatten_cons, List.map_append, hrest, takenCalls_cons]
    rcases h 0 ds rfl with rfl | ⟨d, rfl, hd⟩
    · rw [if_pos rfl]
      rfl
    · rw [if_neg (List.cons_ne_nil d [])]
      show numberOf d :: takenCalls (i + 1) calls = _
      rw [hd]
      rfl

/-- **No loss on a network without loss.** The datagrams that the system has taken are delivered in their
order to a receiver with the same block size. It counts all of them, and none as lost or out of order, if and
only if there is none, or a block holds the header and no datagram was refused before one that was taken. -/
theorem lossless_iff {p₀ p q₀ q : Mem} {sp sq : Nat} {calls : List (List (List UInt8))} {st₀ st₁ : IperfStream}
    (hpos : 0 < p₀.test.settings.blksize) (hmax : p₀.test.settings.blksize ≤ MAX_BLOCKSIZE)
    (hsame : q₀.test.settings.blksize = p₀.test.settings.blksize)
    (hst₀ : p₀.test.streams[sp]? = some st₀) (hunused₀ : st₀.Unused)
    (hbuffer₀ : st₀.buffer.length = p₀.test.settings.blksize)
    (hst₁ : q₀.test.streams[sq]? = some st₁) (hunused₁ : st₁.Unused)
    (hbuffer₁ : st₁.buffer.length = q₀.test.settings.blksize)
    (hsend : SenderCalls p₀ sp calls p) (hrecv : Delivered q₀ sq calls.flatten q) :
    ∃ st, q.test.streams[sq]? = some st ∧
      ((st.cntError = 0 ∧ st.outoforderPackets = 0 ∧ st.packetCount = calls.flatten.length) ↔
        calls.flatten = [] ∨ (12 ≤ p₀.test.settings.blksize ∧ RefusedLast calls)) := by
  have hsize := sizeT_block hpos hmax
  have hmaximum : MAX_BLOCKSIZE = 1048576 := rfl
  obtain ⟨size, hblksize⟩ := Int.eq_ofNat_of_zero_le hpos.le
  rw [hblksize] at hpos hmax hsame hbuffer₀ hsize ⊢
  rw [hsame] at hbuffer₁
  rw [Int.toNat_natCast] at hsize
  have hinv := senderCalls_inv hst₀ hunused₀.packetCount (by omega) (by omega) (hblksize ▸ hsize) hsend
  have hlength : ∀ d ∈ calls.flatten, d.length = size := by
    intro d hd
    obtain ⟨ds, hds, hmem⟩ := List.mem_flatten.1 hd
    obtain ⟨i, hi⟩ := List.mem_iff_getElem?.1 hds
    rcases hinv.datagrams i ds hi with rfl | ⟨d', rfl, _, _, -, hlen⟩
    · exact absurd hmem List.not_mem_nil
    · rw [List.mem_singleton.1 hmem]
      exact hlen
  obtain ⟨hrun, -, -⟩ := delivered_run hst₁ (by omega) (by omega) (by omega) (hsame ▸ hsize) hlength hrecv
  have hcount : calls.flatten.length ≤ calls.length := by
    refine flatten_length_le fun ds hds => ?_
    obtain ⟨i, hi⟩ := List.mem_iff_getElem?.1 hds
    rcases hinv.datagrams i ds hi with rfl | ⟨d, rfl, -⟩
    · exact Nat.zero_le 1
    · exact le_rfl
  obtain ⟨st, hst, hcounters⟩ := hrun.counters hst₁
  have hmap : calls.flatten.map (fun d => Arrival.packet (numberOf d)) =
      (calls.flatten.map numberOf).map Arrival.packet := by
    rw [List.map_map]
    rfl
  rw [hmap] at hcounters
  refine ⟨st, hst, ?_⟩
  have hcalls := hinv.count
  have hiff : (∀ n ∈ calls.flatten.map numberOf, n < 0xffffffff) →
      ((st.cntError = 0 ∧ st.outoforderPackets = 0 ∧ st.packetCount = calls.flatten.length) ↔
        calls.flatten.map numberOf = List.range' 1 calls.flatten.length) := by
    intro hns
    have := counts_all_iff hunused₁ hns (by rw [List.length_map]; omega) hcounters
    rwa [List.length_map] at this
  by_cases htwelve : 12 ≤ size
  · have hnumbers : calls.flatten.map numberOf = takenCalls 1 calls := by
      refine flatten_numbers fun k ds hk => (hinv.datagrams k ds hk).imp_right ?_
      rintro ⟨d, hds, hd⟩
      have hlt := (List.getElem?_eq_some_iff.1 hk).1
      exact ⟨d, hds, (isDatagram_number hd htwelve (by omega)).trans (Nat.add_comm k 1)⟩
    have hlen : calls.flatten.length = (takenCalls 1 calls).length := by rw [← hnumbers, List.length_map]
    rw [hiff fun n hn => ?_, hlen, hnumbers, takenCalls_eq_range_iff]
    · constructor
      · exact fun h => .inr ⟨by omega, h⟩
      · rintro (h | ⟨-, h⟩)
        · rw [h, List.map_nil] at hnumbers
          rw [← takenCalls_eq_range_iff 1, ← hnumbers]
          rfl
        · exact h
    · have := takenCalls_lt (hnumbers ▸ hn)
      omega
  · have hcut : ∀ n ∈ calls.flatten.map numberOf, n < 0x100000000 ∧ n % 256 = 0 := by
      intro n hn
      obtain ⟨d, hd, rfl⟩ := List.mem_map.1 hn
      exact ⟨bufferWord_lt _ _, numberOf_cut (by rw [hlength d hd]; omega)⟩
    rw [hiff fun n hn => by have := hcut n hn; omega]
    constructor
    · intro hrange
      cases hflatten : calls.flatten with
      | nil => exact .inl rfl
      | cons d ds =>
        have hfirst := hcut (numberOf d) (by rw [hflatten]; exact List.mem_cons_self)
        rw [hflatten, List.map_cons, List.length_cons, List.range'_succ, List.cons.injEq] at hrange
        omega
    · rintro (h | ⟨h, -⟩)
      · rw [h]
        rfl
      · omega

/-- The environment in which the system takes datagrams, or refuses them. -/
def takes (taken : Bool) (_ : Nat) : (r : Req) → r.Ans
  | .write _ bs => if taken then .ok bs.length else .error .eagain
  | r => r.quiet

/-- A call of the sender, and what is seen of it. -/
def sendCall (taken : Bool) (m : Mem) : IperfProg Int × Mem × Sending :=
  Prog.drive sendingObserver.contract (takes taken) 100 0 (iperfUdpSend 9 0, m, ⟨⟨0, 0⟩, []⟩)

/-- The receiver after a call that reads `d`. -/
def recvCall (d : List UInt8) (m : Mem) : IperfProg Int × Mem × List (List UInt8) :=
  Prog.drive deliveringObserver.contract (fun _ r => match r with
    | .read _ _ => .ok d
    | r => r.quiet) 100 0 (iperfUdpRecv 9 0, m, [d])

theorem sendCall_calls {p₀ p : Mem} {calls : List (List (List UInt8))} {n r : Int} (taken : Bool)
    (h : SenderCalls p₀ 0 calls p) (hcount : p.test.streams.map (·.packetCount) = [n]) (hn : n < 0x7fffffff)
    (hr : Prog.returned (sendCall taken p).1 = some r) :
    SenderCalls p₀ 0 (calls ++ [(sendCall taken p).2.2.accepted]) (sendCall taken p).2.1 := by
  obtain ⟨st, hst, rfl⟩ := List.map_eq_singleton_iff.1 hcount
  exact .call h (by rw [hst]; rfl) hn (Prog.reach_of_drive _ 100 hr)

theorem recvCall_receives {d : List UInt8} {q : Mem} {r : Int}
    (hr : Prog.returned (recvCall d q).1 = some r) (hread : (recvCall d q).2.2 = []) :
    ReceivesAt q 0 d (recvCall d q).2.1 := by
  have hreach : Prog.Reach deliveringObserver.contract (iperfUdpRecv 9 0, q, [d]) (.ret r, (recvCall d q).2) :=
    Prog.reach_of_drive _ 100 hr
  have hnotes : (recvCall d q).2 = ((recvCall d q).2.1, []) := Prod.ext rfl hread
  rw [hnotes] at hreach
  exact ⟨9, r, hreach⟩

/-- The sender after two calls; the datagram of the second one is taken. -/
def sentTwice (taken : Bool) : Mem :=
  (sendCall true (sendCall taken (Mem.start (udpEnd .client 12))).2.1).2.1

theorem sentTwice_calls (taken : Bool) :
    SenderCalls (Mem.start (udpEnd .client 12)) 0
      [if taken then [datagramHeader ⟨0, 0⟩ 1] else [], [datagramHeader ⟨0, 0⟩ 2]] (sentTwice taken) := by
  have hzero : (Mem.start (udpEnd .client 12)).test.streams.map (·.packetCount) = [0] := rfl
  have hcount : (sendCall taken (Mem.start (udpEnd .client 12))).2.1.test.streams.map (·.packetCount) = [1] := by
    cases taken <;> decide
  have hfirst : (sendCall taken (Mem.start (udpEnd .client 12))).2.2.accepted =
      if taken then [datagramHeader ⟨0, 0⟩ 1] else [] := by
    cases taken <;> decide
  have hsecond : (sendCall true (sendCall taken (Mem.start (udpEnd .client 12))).2.1).2.2.accepted =
      [datagramHeader ⟨0, 0⟩ 2] := by
    cases taken <;> decide
  have h₁ : Prog.returned (sendCall taken (Mem.start (udpEnd .client 12))).1 =
      some (if taken then 12 else NET_SOFTERROR) := by
    cases taken <;> decide
  have h₂ : Prog.returned (sendCall true (sendCall taken (Mem.start (udpEnd .client 12))).2.1).1 = some 12 := by
    cases taken <;> decide
  have hcalls := sendCall_calls true (sendCall_calls taken .start hzero (by decide) h₁) hcount (by decide) h₂
  rw [hfirst, hsecond] at hcalls
  exact hcalls

/-- The receiver after the datagrams of two calls. -/
def gotTwo : Mem :=
  (recvCall (datagramHeader ⟨0, 0⟩ 2)
    (recvCall (datagramHeader ⟨0, 0⟩ 1) (Mem.start (udpEnd .server 12))).2.1).2.1

/-- Two datagrams, both of which are taken and delivered. -/
theorem lossless_two : ∃ st, gotTwo.test.streams[0]? = some st ∧
    st.cntError = 0 ∧ st.outoforderPackets = 0 ∧ st.packetCount = 2 := by
  have h₁ : ReceivesAt (Mem.start (udpEnd .server 12)) 0 (datagramHeader ⟨0, 0⟩ 1)
      (recvCall (datagramHeader ⟨0, 0⟩ 1) (Mem.start (udpEnd .server 12))).2.1 :=
    recvCall_receives (r := 12) (by decide) (by decide)
  have h₂ : ReceivesAt (recvCall (datagramHeader ⟨0, 0⟩ 1) (Mem.start (udpEnd .server 12))).2.1 0
      (datagramHeader ⟨0, 0⟩ 2) gotTwo :=
    recvCall_receives (r := 12) (by decide) (by decide)
  have hdelivered : Delivered (Mem.start (udpEnd .server 12)) 0
      [[datagramHeader ⟨0, 0⟩ 1], [datagramHeader ⟨0, 0⟩ 2]].flatten gotTwo := .call (.call .start h₁) h₂
  have hsent : SenderCalls (Mem.start (udpEnd .client 12)) 0
      [[datagramHeader ⟨0, 0⟩ 1], [datagramHeader ⟨0, 0⟩ 2]] (sentTwice true) := sentTwice_calls true
  have hst₀ : (Mem.start (udpEnd .client 12)).test.streams[0]? =
      some (newStream (udpEnd .client 12) 3 4 (-1) (List.replicate 12 0)) := rfl
  have hst₁ : (Mem.start (udpEnd .server 12)).test.streams[0]? =
      some (newStream (udpEnd .server 12) 3 4 (-1) (List.replicate 12 0)) := rfl
  have hsame : (Mem.start (udpEnd .server 12)).test.settings.blksize =
      (Mem.start (udpEnd .client 12)).test.settings.blksize := rfl
  obtain ⟨st, hst, hiff⟩ := lossless_iff (by decide) (by decide) hsame hst₀ (newStream_unused ..) rfl hst₁
    (newStream_unused ..) rfl hsent hdelivered
  exact ⟨st, hst, hiff.2 (.inr ⟨by decide, .cons (fun _ _ h => absurd h (List.cons_ne_nil _ _)) (.cons nofun .nil)⟩)⟩

/-- The first datagram is refused, the second one is taken and delivered: one is counted as lost. -/
theorem refused_datagram_lost :
    SenderCalls (Mem.start (udpEnd .client 12)) 0 [[], [datagramHeader ⟨0, 0⟩ 2]] (sentTwice false) ∧
      ∃ q, Delivered (Mem.start (udpEnd .server 12)) 0 [datagramHeader ⟨0, 0⟩ 2] q ∧
        q.test.streams.map (·.cntError) = [1] := by
  refine ⟨sentTwice_calls false, (recvCall (datagramHeader ⟨0, 0⟩ 2) (Mem.start (udpEnd .server 12))).2.1, ?_,
    by decide⟩
  exact .call .start (recvCall_receives (r := 12) (by decide) (by decide))

end Iperf
