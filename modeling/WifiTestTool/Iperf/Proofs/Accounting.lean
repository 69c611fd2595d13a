import WifiTestTool.Iperf.Proofs.DataCalls
import WifiTestTool.Iperf.Streams
import Mathlib.Algebra.BigOperators.Group.List.Basic

/-!
# The counters of a test add up

The bytes of a stream are counted three times: in its total, in the current interval, and in the records
of the closed intervals; those of all streams are counted once more in the test. `Books` are these
counters, and they are `Balanced` when they add up. Every call that moves data, closes an interval or
ends the omit period keeps the books balanced. The totals are those since the omit period ended, or,
while it lasts, since the start, so the records that count are those with the current `omitting` flag.
-/

namespace Iperf

open Reactive

/-! ## Books -/

/-- The sum of some counters, modulo `2 ^ 64`. -/
def sum64 (l : List UInt64) : UInt64 := l.foldr (· + ·) 0

theorem sum64_snoc (l : List UInt64) (x : UInt64) : sum64 (l ++ [x]) = sum64 l + x := by
  induction l with
  | nil => exact UInt64.add_comm x 0
  | cons y l ih =>
    show y + sum64 (l ++ [x]) = y + sum64 l + x
    rw [ih, UInt64.add_assoc]

/-- The sum after one of the terms has grown. -/
theorem sum64_modify {α : Type} {f : α → α} {g : α → UInt64} {d : UInt64} (hf : ∀ a, g (f a) = g a + d)
    {l : List α} {i : Nat} (hi : i < l.length) :
    sum64 ((l.modify i f).map g) = sum64 (l.map g) + d := by
  induction l generalizing i with
  | nil => exact absurd hi (Nat.not_lt_zero i)
  | cons a l ih =>
    cases i with
    | zero =>
      show g (f a) + sum64 (l.map g) = g a + sum64 (l.map g) + d
      rw [hf, UInt64.add_assoc, UInt64.add_comm d, ← UInt64.add_assoc]
    | succ i =>
      have hi' : i < l.length := Nat.lt_of_succ_lt_succ hi
      show g a + sum64 ((l.modify i f).map g) = g a + sum64 (l.map g) + d
      rw [ih hi', UInt64.add_assoc]

namespace IperfStreamResult

/-- The bytes of a stream in the direction of the test. -/
def total (sender : Bool) (rp : IperfStreamResult) : UInt64 :=
  if sender then rp.bytesSent else rp.bytesReceived

/-- The number of packets at the end of the last interval that was recorded. -/
def lastCount (rp : IperfStreamResult) : Int :=
  match rp.intervalResults.getLast? with
  | none => 0
  | some irp => irp.packetCount

/-- The records with the flag `omitting`. -/
def recorded (omitting : Bool) (rp : IperfStreamResult) : List IperfIntervalResults :=
  rp.intervalResults.filter fun irp => irp.omitted = omitting

/-- Count bytes in the direction of the test. -/
def move (sender : Bool) (r : Int) (rp : IperfStreamResult) : IperfStreamResult :=
  if sender then
    { rp with
      bytesSent := rp.bytesSent + UInt64.ofInt r
      bytesSentThisInterval := rp.bytesSentThisInterval + UInt64.ofInt r }
  else
    { rp with
      bytesReceived := rp.bytesReceived + UInt64.ofInt r
      bytesReceivedThisInterval := rp.bytesReceivedThisInterval + UInt64.ofInt r }

end IperfStreamResult

/-- The counters of a test, and what says which of them count. -/
structure Books where
  sender : Bool
  /-- The retransmits are counted. -/
  retransmits : Bool
  udp : Bool
  omitting : Bool
  bytesSent : UInt64
  results : List IperfStreamResult

/-- The counters of a stream add up. -/
structure Balanced (b : Books) (rp : IperfStreamResult) : Prop where
  bytes : sum64 ((rp.recorded b.omitting).map (·.bytesTransferred)) + rp.thisInterval b.sender =
    rp.total b.sender
  retransmits : b.retransmits = true →
    ((rp.recorded b.omitting).map (·.intervalRetrans)).sum = rp.streamRetrans
  packets : b.udp = true → (rp.intervalResults.map (·.intervalPacketCount)).sum = rp.lastCount
  omitted : b.omitting = true → ∀ irp ∈ rp.intervalResults, irp.omitted = true

/-- All counters add up, apart from `d` bytes that the test has not counted yet. -/
structure Books.BalancedUpTo (b : Books) (d : UInt64) : Prop where
  streams : ∀ rp ∈ b.results, Balanced b rp
  total : b.bytesSent + d = sum64 (b.results.map (IperfStreamResult.total b.sender))

/-- Between `b` and `b'` bytes were moved, and no interval was closed. -/
structure Books.Moved (b b' : Books) : Prop where
  sender : b'.sender = b.sender
  retransmits : b'.retransmits = b.retransmits
  udp : b'.udp = b.udp
  omitting : b'.omitting = b.omitting
  intervals : b'.results.map (·.intervalResults) = b.results.map (·.intervalResults)

theorem Books.Moved.refl (b : Books) : b.Moved b := ⟨rfl, rfl, rfl, rfl, rfl⟩

theorem Books.Moved.trans {b₁ b₂ b₃ : Books} (h : b₁.Moved b₂) (h' : b₂.Moved b₃) : b₁.Moved b₃ :=
  ⟨h'.sender.trans h.sender, h'.retransmits.trans h.retransmits, h'.udp.trans h.udp,
    h'.omitting.trans h.omitting, h'.intervals.trans h.intervals⟩

theorem Books.Moved.length {b b' : Books} (h : b.Moved b') : b'.results.length = b.results.length := by
  have := congrArg List.length h.intervals
  simpa using this

/-- Whether the counters of a stream add up depends on the flags of the books only. -/
theorem Balanced.moved {b b' : Books} {rp : IperfStreamResult} (h : Balanced b rp) (hm : b.Moved b') :
    Balanced b' rp := by
  refine ⟨?_, ?_, ?_, ?_⟩
  · rw [hm.omitting, hm.sender]
    exact h.bytes
  · rw [hm.omitting, hm.retransmits]
    exact h.retransmits
  · rw [hm.udp]
    exact h.packets
  · rw [hm.omitting]
    exact h.omitted

/-- Books with a stream that has moved `r` bytes. -/
def Books.move (b : Books) (sp : Nat) (r : Int) : Books :=
  { b with results := b.results.modify sp (IperfStreamResult.move b.sender r) }

section Move

variable {b : Books} {r : Int} {rp : IperfStreamResult}

theorem move_total (sender : Bool) (r : Int) (rp : IperfStreamResult) :
    (rp.move sender r).total sender = rp.total sender + UInt64.ofInt r := by
  cases sender <;> rfl

theorem move_thisInterval (sender : Bool) (r : Int) (rp : IperfStreamResult) :
    (rp.move sender r).thisInterval sender = rp.thisInterval sender + UInt64.ofInt r := by
  cases sender <;> rfl

theorem move_intervals (sender : Bool) (r : Int) (rp : IperfStreamResult) :
    (rp.move sender r).intervalResults = rp.intervalResults := by
  cases sender <;> rfl

theorem move_retrans (sender : Bool) (r : Int) (rp : IperfStreamResult) :
    (rp.move sender r).streamRetrans = rp.streamRetrans := by
  cases sender <;> rfl

theorem move_recorded (sender omitting : Bool) (r : Int) (rp : IperfStreamResult) :
    (rp.move sender r).recorded omitting = rp.recorded omitting := by
  cases sender <;> rfl

theorem move_lastCount (sender : Bool) (r : Int) (rp : IperfStreamResult) :
    (rp.move sender r).lastCount = rp.lastCount := by
  cases sender <;> rfl

/-- The counters of a stream that has moved some bytes. -/
theorem Balanced.move (h : Balanced b rp) : Balanced b (rp.move b.sender r) := by
  refine ⟨?_, fun hr => ?_, fun hu => ?_, fun ho => ?_⟩
  · rw [move_recorded, move_thisInterval, move_total, ← UInt64.add_assoc, h.bytes]
  · rw [move_recorded, move_retrans]
    exact h.retransmits hr
  · rw [move_intervals, move_lastCount]
    exact h.packets hu
  · rw [move_intervals]
    exact h.omitted ho

theorem mem_modify {α : Type} {f : α → α} {l : List α} {i : Nat} {a : α} (h : a ∈ l.modify i f) :
    a ∈ l ∨ ∃ a' ∈ l, a = f a' := by
  obtain ⟨j, hj⟩ := List.mem_iff_getElem?.1 h
  rw [List.getElem?_modify] at hj
  obtain ⟨a', ha', rfl⟩ := Option.map_eq_some_iff.1 hj
  have hmem : a' ∈ l := List.mem_of_getElem? ha'
  split
  · exact .inr ⟨a', hmem, rfl⟩
  · exact .inl hmem

theorem Books.moved_move (b : Books) (sp : Nat) (r : Int) : b.Moved (b.move sp r) := by
  refine ⟨rfl, rfl, rfl, rfl, List.ext_getElem? fun i => ?_⟩
  show ((b.results.modify sp (IperfStreamResult.move b.sender r)).map _)[i]? = _
  simp only [List.getElem?_map, List.getElem?_modify]
  cases b.results[i]? with
  | none => rfl
  | some rp => by_cases h : sp = i <;> simp [h, move_intervals]

theorem Books.BalancedUpTo.move {d : UInt64} (h : b.BalancedUpTo d) {sp : Nat}
    (hsp : sp < b.results.length) : (b.move sp r).BalancedUpTo (d + UInt64.ofInt r) := by
  refine ⟨fun rp hrp => ?_, ?_⟩
  · rcases mem_modify hrp with hrp | ⟨rp', hrp', rfl⟩
    · exact (h.streams rp hrp).moved (b.moved_move sp r)
    · exact ((h.streams rp' hrp').move).moved (b.moved_move sp r)
  · have hsum := sum64_modify (move_total b.sender r) hsp
    rw [← h.total, UInt64.add_assoc] at hsum
    exact hsum.symm

end Move

/-! ## Moving data -/

/-- The books of a test. -/
def IperfTest.books (t : IperfTest) : Books where
  sender := t.sender
  retransmits := decide t.countsRetransmits
  udp := decide (t.protocol = .udp)
  omitting := t.omitting
  bytesSent := t.bytesSent
  results := t.streams.map (·.result)

/-- A change of a stream that moves no data. -/
theorem books_modifyStream (t : IperfTest) (sp : Nat) {f : IperfStream → IperfStream}
    (hf : ∀ st, (f st).result = st.result) :
    ({ t with streams := t.streams.modify sp f } : IperfTest).books = t.books := by
  have hmap : (t.streams.modify sp f).map (·.result) = t.streams.map (·.result) := by
    refine List.ext_getElem? fun i => ?_
    simp only [List.getElem?_map, List.getElem?_modify]
    cases t.streams[i]? with
    | none => rfl
    | some st => by_cases h : sp = i <;> simp [h, hf]
  unfold IperfTest.books
  rw [hmap]
  rfl

/-- A change of a stream that moves data. -/
theorem books_move (t : IperfTest) (sp : Nat) (r : Int) {f : IperfStream → IperfStream}
    (hf : ∀ st, (f st).result = st.result.move t.sender r) :
    ({ t with streams := t.streams.modify sp f } : IperfTest).books = t.books.move sp r := by
  have hmap : (t.streams.modify sp f).map (·.result) =
      (t.streams.map (·.result)).modify sp (IperfStreamResult.move t.sender r) := by
    refine List.ext_getElem? fun i => ?_
    simp only [List.getElem?_map, List.getElem?_modify]
    cases t.streams[i]? with
    | none => rfl
    | some st => by_cases h : sp = i <;> simp [h, hf]
  unfold IperfTest.books
  rw [hmap]
  rfl

/-- What a routine of a stream does to the books: with a result that is no error, that many bytes have
moved. -/
def Moves (t : IperfTest) (sp : Nat) (r : Int) (t' : IperfTest) : Prop :=
  t'.books = if r < 0 then t.books else t.books.move sp r

section Routines

variable {t : IperfTest} {sp : Nat} (fuel : Nat)

/-- A program of a stream that keeps the books. -/
theorem Ends.books_bind {α β : Type} {p : IperfProg α} {f : α → IperfProg β}
    {Q : β → IperfTest → Prop} (hp : Ends t p fun _ t' => t'.books = t.books)
    (hf : ∀ a t', t'.books = t.books → Ends t' (f a) Q) : Ends t (p >>= f) Q := .bind hp hf

theorem streamRead_books : Ends t (streamRead fuel sp) fun _ t' => t'.books = t.books := by
  refine .getTest_bind (.getStream_bind fun st _ => .silent_bind (nreadLoop_silent _ _ _ _) fun got => ?_)
  cases got with
  | none => exact .pure rfl
  | some bs => exact .modifyTest_bind (.pure (books_modifyStream t sp fun _ => rfl))

theorem streamWrite_ends : Ends t (streamWrite fuel sp) fun _ t' => t' = t := by
  refine .getTest_bind (.getStream_bind fun st _ => ?_)
  exact .silent (.bind (nwriteLoop_silent _ _ _ _) fun _ => .pure _)

/-- A call that keeps the books, followed by the counting of the bytes. -/
theorem counting_moves {p : IperfProg Int} {f : Int → IperfStream → IperfStream} (t₀ : IperfTest)
    (hp : Ends t p fun _ t' => t'.books = t₀.books)
    (hf : ∀ r st, (f r st).result = st.result.move t₀.sender r) :
    Ends t (do
      let r ← p
      if r < 0 then
        pure r
      else do
        modifyStream sp (f r)
        pure r) (Moves t₀ sp) := by
  refine .bind hp fun r t' ht' => .ite (fun hr => ?_) fun hr => ?_
  · refine .pure ?_
    rw [Moves, if_pos hr, ht']
  · refine .modifyTest_bind (.pure ?_)
    have hsender : t'.sender = t₀.sender := congrArg Books.sender ht'
    have hmove := books_move t' sp r (fun st => (hf r st).trans (by rw [hsender]))
    rw [Moves, if_neg hr, hmove, ht']

theorem iperfTcpRecv_moves (hs : t.sender = false) : Ends t (iperfTcpRecv fuel sp) (Moves t sp) :=
  counting_moves t (streamRead_books fuel) fun r st => by rw [hs]; rfl

theorem iperfTcpSend_moves (hs : t.sender = true) : Ends t (iperfTcpSend fuel sp) (Moves t sp) := by
  have hf : ∀ r st, (IperfStream.sent r st).result = st.result.move t.sender r := fun r st => by
    rw [hs]
    rfl
  refine .getTest_bind (.ite (fun _ => ?_) fun _ => ?_)
  · refine .getStream_bind fun st _ => ?_
    exact counting_moves t ((Ends.silent (nsendfileLoop_silent _ _ _ _ _)).mono fun _ _ h => h ▸ rfl) hf
  · exact counting_moves t ((streamWrite_ends fuel).mono fun _ _ h => h ▸ rfl) hf

theorem iperfSctpSend_moves (hs : t.sender = true) : Ends t (iperfSctpSend fuel sp) (Moves t sp) :=
  counting_moves t ((streamWrite_ends fuel).mono fun _ _ h => h ▸ rfl) fun r st => by rw [hs]; rfl

theorem stamp_result (time : Timeval) (st : IperfStream) : (st.stamp time).result = st.result := rfl

theorem measureJitter_result (sent arrival : Timeval) (st : IperfStream) :
    (measureJitter sent arrival st).result = st.result := rfl

theorem iperfUdpSend_moves (hs : t.sender = true) : Ends t (iperfUdpSend fuel sp) (Moves t sp) := by
  refine .silent_bind gettimeofday_silent fun before => .modifyTest_bind ?_
  have hbooks := books_modifyStream t sp (stamp_result before)
  exact counting_moves t ((streamWrite_ends fuel).mono fun _ _ h => h ▸ hbooks) fun r st => by rw [hs]; rfl

theorem countPacket_result (pcount : Nat) (st : IperfStream) :
    (countPacket pcount st).1.result = st.result := by
  simp only [countPacket, apply_ite Prod.fst, apply_ite IperfStream.result, ite_self]

theorem iperfUdpRecv_moves (hs : t.sender = false) : Ends t (iperfUdpRecv fuel sp) (Moves t sp) := by
  refine .bind (streamRead_books fuel) fun r t₁ h₁ => .ite (fun hr => ?_) fun hr => ?_
  · refine .pure ?_
    rw [Moves, if_pos hr, h₁]
  have hs₁ : t₁.sender = false := (congrArg Books.sender h₁).trans hs
  have hmove : ({ t₁ with streams := t₁.streams.modify sp (IperfStream.received r) } : IperfTest).books =
      t.books.move sp r := by
    rw [books_move t₁ sp r fun st => by rw [hs₁]; rfl, h₁]
  refine .modifyTest_bind (.getStream_bind fun st _ => .modifyTest_bind ?_)
  have hcount := (books_modifyStream _ sp (countPacket_result (bufferWord st.buffer 8))).trans hmove
  have hrest : ∀ t₂, t₂.books = t.books.move sp r → Ends t₂ (do
      let arrival ← gettimeofday
      modifyStream sp (measureJitter ⟨bufferWord st.buffer 0, bufferWord st.buffer 4⟩ arrival)
      pure r) (Moves t sp) := by
    intro t₂ h₂
    refine .silent_bind gettimeofday_silent fun arrival => .modifyTest_bind (.pure ?_)
    rw [Moves, if_neg hr]
    exact (books_modifyStream t₂ sp (measureJitter_result _ arrival)).trans h₂
  exact .ite (fun _ => .silent_bind (.sys _) fun _ => hrest _ hcount) fun _ => hrest _ hcount

theorem protocolSend_moves (prot : ProtId) (hs : t.sender = true) :
    Ends t (protocolSend fuel prot sp) (Moves t sp) := by
  cases prot with
  | tcp => exact iperfTcpSend_moves fuel hs
  | udp => exact iperfUdpSend_moves fuel hs
  | sctp => exact iperfSctpSend_moves fuel hs

theorem protocolRecv_moves (prot : ProtId) (hs : t.sender = false) :
    Ends t (protocolRecv fuel prot sp) (Moves t sp) := by
  cases prot with
  | tcp => exact iperfTcpRecv_moves fuel hs
  | udp => exact iperfUdpRecv_moves fuel hs
  | sctp => exact iperfTcpRecv_moves fuel hs

/-- A call after something that keeps the books. -/
theorem protocolSend_moves_after {t₁ : IperfTest} (prot : ProtId) (h : t₁.books = t.books)
    (hs : t.sender = true) : Ends t₁ (protocolSend fuel prot sp) (Moves t sp) := by
  have hs₁ : t₁.sender = true := (congrArg Books.sender h).trans hs
  refine (protocolSend_moves fuel prot hs₁).mono fun r t' ht' => ?_
  rw [Moves, ← h]
  exact ht'

/-- Nothing has moved. -/
theorem books_move_zero (b : Books) (sp : Nat) : b.move sp 0 = b := by
  have hzero : IperfStreamResult.move b.sender 0 = id := by
    funext rp
    have hz : ∀ x : UInt64, x + UInt64.ofInt 0 = x := UInt64.add_zero
    cases hs : b.sender <;> simp [IperfStreamResult.move, hz]
  unfold Books.move
  rw [hzero, List.modify_id]

theorem diskfileSend_moves (hs : t.sender = true) : Ends t (diskfileSend fuel sp) (Moves t sp) := by
  refine .getTest_bind (.getStream_bind fun st _ => .silent_bind (.sys _) fun a => ?_)
  match a with
  | .ok [] =>
    refine .modifyTest_bind (.pure ?_)
    rw [Moves, if_neg (by decide), books_move_zero]
    rfl
  | .ok (c :: bs) =>
    exact .modifyTest_bind (protocolSend_moves_after fuel _ (books_modifyStream t sp fun _ => rfl) hs)
  | .error e => exact .silent_bind (.setErrno e) fun _ => protocolSend_moves fuel st.prot hs

theorem diskfileRecv_moves (hs : t.sender = false) : Ends t (diskfileRecv fuel sp) (Moves t sp) := by
  refine .getStream_bind fun st _ => .bind (protocolRecv_moves fuel st.prot hs) fun r t' h => ?_
  refine .ite (fun _ => .getStream_bind fun st' _ => ?_) fun _ => .pure h
  refine .silent_bind (.sys _) fun a => .silent_bind (.result a _) fun _ => .pure h

theorem streamSnd_moves (hs : t.sender = true) : Ends t (streamSnd fuel sp) (Moves t sp) :=
  .getStream_bind fun _ _ => .ite (fun _ => diskfileSend_moves fuel hs) fun _ =>
    protocolSend_moves fuel _ hs

theorem streamRcv_moves (hs : t.sender = false) : Ends t (streamRcv fuel sp) (Moves t sp) :=
  .getStream_bind fun _ _ => .ite (fun _ => diskfileRecv_moves fuel hs) fun _ =>
    protocolRecv_moves fuel _ hs

end Routines

/-! ## `iperf_send` and `iperf_recv` -/

/-- Between `t` and `t'` data was moved, and the books are balanced. -/
structure Kept (t t' : IperfTest) : Prop where
  moved : t.books.Moved t'.books
  balanced : t'.books.BalancedUpTo 0

theorem Kept.refl {t : IperfTest} (h : t.books.BalancedUpTo 0) : Kept t t := ⟨.refl _, h⟩

theorem Kept.trans {t₁ t₂ t₃ : IperfTest} (h : Kept t₁ t₂) (h' : Kept t₂ t₃) : Kept t₁ t₃ :=
  ⟨h.moved.trans h'.moved, h'.balanced⟩

theorem Kept.of_books {t t' : IperfTest} (hb : t.books.BalancedUpTo 0) (h : t'.books = t.books) :
    Kept t t' :=
  ⟨h ▸ .refl _, h ▸ hb⟩

theorem Kept.length {t t' : IperfTest} (h : Kept t t') : t'.streams.length = t.streams.length := by
  simpa [IperfTest.books] using h.moved.length

theorem Kept.sender {t t' : IperfTest} (h : Kept t t') : t'.sender = t.sender := h.moved.sender

/-- After `r` bytes of a stream were moved and counted. -/
theorem Kept.count {t t' : IperfTest} {sp : Nat} {r : Int} (hb : t.books.BalancedUpTo 0)
    (hsp : sp < t.streams.length) (h : t'.books = t.books.move sp r) : Kept t (t'.count r) := by
  have hcount : (t'.count r).books = { t'.books with bytesSent := t'.books.bytesSent + UInt64.ofInt r } :=
    rfl
  have hmoved := t.books.moved_move sp r
  have hlen : sp < t.books.results.length := by simpa [IperfTest.books] using hsp
  have hbal : (t.books.move sp r).BalancedUpTo (0 + UInt64.ofInt r) := hb.move hlen
  rw [h] at hcount
  refine ⟨hcount ▸ ⟨hmoved.sender, hmoved.retransmits, hmoved.udp, hmoved.omitting, hmoved.intervals⟩, ?_⟩
  rw [hcount]
  refine ⟨fun rp hrp => (hbal.streams rp hrp).moved ⟨rfl, rfl, rfl, rfl, rfl⟩, ?_⟩
  have htotal := hbal.total
  rw [UInt64.zero_add] at htotal
  rw [UInt64.add_zero]
  exact htotal

theorem iperfCheckThrottle_books (t : IperfTest) (sp : Nat) (now : Timeval) :
    Ends t (iperfCheckThrottle sp now) fun _ t' => t'.books = t.books := by
  refine .getTest_bind (.ite (fun _ => .pure rfl) fun _ => .getStream_bind fun st _ => ?_)
  refine .ite (fun _ => ?_) fun _ => ?_
  · exact .modifyTest_bind (.modifyTest (books_modifyStream t sp fun _ => rfl))
  · exact .modifyTest_bind (.modifyTest (books_modifyStream t sp fun _ => rfl))

/-- A call that keeps the books, followed by the rest. -/
theorem Kept.books_bind {α β : Type} {t t₁ : IperfTest} {p : IperfProg α} {f : α → IperfProg β}
    (h : Kept t t₁) (hp : Ends t₁ p fun _ t₂ => t₂.books = t₁.books)
    (hf : ∀ a t₂, Kept t t₂ → Ends t₂ (f a) fun _ t₃ => Kept t t₃) :
    Ends t₁ (p >>= f) fun _ t₃ => Kept t t₃ :=
  .bind hp fun a t₂ h₂ => hf a t₂ (h.trans (.of_books h.balanced h₂))

theorem sendStreams_kept (fuel : Nat) (writeSet : Option FdSet) (multisend : Nat) (now : Timeval)
    (sps : List Nat) : ∀ t, (∀ sp ∈ sps, sp < t.streams.length) → t.sender = true →
      t.books.BalancedUpTo 0 →
      Ends t (sendStreams fuel writeSet multisend now sps) fun _ t' => Kept t t' := by
  induction sps with
  | nil => exact fun t _ _ hb => .pure (.refl hb)
  | cons sp sps ih =>
    intro t hsps hs hb
    have hlater : ∀ t', Kept t t' → Ends t' (sendStreams fuel writeSet multisend now sps)
        fun _ t'' => Kept t t'' := by
      intro t' h
      refine (ih t' (fun sp' hsp' => ?_) (h.sender.trans hs) h.balanced).mono fun _ _ h' => h.trans h'
      rw [h.length]
      exact hsps sp' (List.mem_cons_of_mem _ hsp')
    refine .getStream_bind fun st _ => .ite (fun _ => ?_) fun _ => hlater t (.refl hb)
    refine .bind (streamSnd_moves fuel hs) fun r t₁ h₁ => .ite (fun hr => ?_) fun hr => ?_
    · have hkept : Kept t t₁ := .of_books hb (by rw [h₁, if_pos hr])
      refine .ite (fun _ => .pure hkept) fun _ => ?_
      exact .silent_bind (.setIErrno _) fun _ => .pure hkept
    · have hkept : Kept t (t₁.count r) := by
        refine .count hb (hsps sp List.mem_cons_self) ?_
        rw [h₁, if_neg hr]
      have hk : ∀ t₂ (t₃ : IperfTest), Kept t t₂ → Ends t₂
          (if multisend > 1 ∧ t₃.settings.bytes ≠ 0 ∧ t₃.bytesSent ≥ t₃.settings.bytes then
            pure none
          else if multisend > 1 ∧ t₃.settings.blocks ≠ 0 ∧ t₃.blocksSent ≥ t₃.settings.blocks then
            pure none
          else
            sendStreams fuel writeSet multisend now sps) fun _ t' => Kept t t' := fun t₂ t₃ h₂ =>
        .ite (fun _ => .pure h₂) fun _ => .ite (fun _ => .pure h₂) fun _ => hlater t₂ h₂
      refine .modifyTest_bind (.getTest_bind (.ite (fun _ => ?_) fun _ => hk _ _ hkept))
      exact hkept.books_bind (iperfCheckThrottle_books _ sp now) fun _ t₂ h₂ => hk t₂ _ h₂

theorem sendRounds_kept (fuel : Nat) (writeSet : Option FdSet) (multisend : Nat) :
    ∀ t, t.sender = true → t.books.BalancedUpTo 0 →
      Ends t (sendRounds fuel writeSet multisend) fun _ t' => Kept t t' := by
  induction multisend with
  | zero => exact fun t _ hb => .pure (.refl hb)
  | succ multisend ih =>
    intro t hs hb
    -- With and without the time, the round is the same.
    refine .getTest_bind (.ite (fun _ => .silent_bind gettimeofday_silent fun now => ?_) fun _ => ?_)
    all_goals
      refine .allStreams_bind (.bind (sendStreams_kept fuel writeSet _ _ _ t ?_ hs hb) ?_)
      · exact fun sp hsp => List.mem_range.1 hsp
      · intro r t₁ h₁
        cases r with
        | some r => exact .pure h₁
        | none => exact (ih t₁ (h₁.sender.trans hs) h₁.balanced).mono fun _ _ h => h₁.trans h

/-- A loop over the streams that keeps the books. -/
theorem forAllStreams_books {body : Nat → IperfProg Unit} (sps : List Nat) :
    ∀ t, (∀ sp t, Ends t (body sp) fun _ t' => t'.books = t.books) →
      Ends t (forAllStreams body sps) fun _ t' => t'.books = t.books := by
  induction sps with
  | nil => exact fun t _ => .pure rfl
  | cons sp sps ih =>
    intro t hbody
    exact .bind (hbody sp t) fun _ t₁ h₁ => (ih t₁ hbody).mono fun _ _ h => h.trans h₁

theorem iperfSend_kept (fuel : Nat) (writeSet : Option FdSet) {t : IperfTest} (hs : t.sender = true)
    (hb : t.books.BalancedUpTo 0) : Ends t (iperfSend fuel writeSet) fun _ t' => Kept t t' := by
  refine .getTest_bind (.bind (sendRounds_kept fuel writeSet _ t hs hb) fun r t₁ h₁ => ?_)
  cases r with
  | some r => exact .pure h₁
  | none =>
    refine .ite (fun _ => ?_) fun _ => .pure h₁
    refine .silent_bind gettimeofday_silent fun now => .allStreams_bind ?_
    refine h₁.books_bind (forAllStreams_books _ t₁ fun sp t => ?_) fun _ t₂ h₂ => .pure h₂
    exact iperfCheckThrottle_books t sp now

theorem recvStreams_kept (fuel : Nat) (sps : List Nat) : ∀ (readSet : FdSet) (t : IperfTest),
    (∀ sp ∈ sps, sp < t.streams.length) → t.sender = false → t.books.BalancedUpTo 0 →
      Ends t (recvStreams fuel readSet sps) fun _ t' => Kept t t' := by
  induction sps with
  | nil => exact fun _ t _ _ hb => .pure (.refl hb)
  | cons sp sps ih =>
    intro readSet t hsps hs hb
    have hlater : ∀ readSet t', Kept t t' → Ends t' (recvStreams fuel readSet sps)
        fun _ t'' => Kept t t'' := by
      intro readSet t' h
      refine (ih readSet t' (fun sp' hsp' => ?_) (h.sender.trans hs) h.balanced).mono
        fun _ _ h' => h.trans h'
      rw [h.length]
      exact hsps sp' (List.mem_cons_of_mem _ hsp')
    refine .getStream_bind fun st _ => .ite (fun _ => ?_) fun _ => hlater _ t (.refl hb)
    refine .bind (streamRcv_moves fuel hs) fun r t₁ h₁ => .ite (fun hr => ?_) fun hr => ?_
    · have hkept : Kept t t₁ := .of_books hb (by rw [h₁, if_pos hr])
      exact .silent_bind (.setIErrno _) fun _ => .pure hkept
    · refine .modifyTest_bind (hlater _ _ (.count hb (hsps sp List.mem_cons_self) ?_))
      rw [h₁, if_neg hr]

theorem iperfRecv_kept (fuel : Nat) (readSet : FdSet) {t : IperfTest} (hs : t.sender = false)
    (hb : t.books.BalancedUpTo 0) : Ends t (iperfRecv fuel readSet) fun _ t' => Kept t t' :=
  .allStreams_bind (recvStreams_kept fuel _ readSet t (fun _ hsp => List.mem_range.1 hsp) hs hb)

/-! ## Closing an interval -/

theorem packetRecord_count (st : IperfStream) (temp : IperfIntervalResults) :
    (packetRecord st temp).intervalPacketCount = st.packetCount - st.result.lastCount ∧
      (packetRecord st temp).packetCount = st.packetCount := by
  unfold packetRecord IperfStreamResult.lastCount
  cases st.result.intervalResults.getLast? with
  | none => exact ⟨(sub_zero _).symm, rfl⟩
  | some irp => exact ⟨rfl, rfl⟩

theorem ClosesInterval.intervals {t : IperfTest} {st st' : IperfStream} (h : ClosesInterval t st st') :
    ∃ temp, RecordOf t st temp ∧ st'.packetCount = st.packetCount ∧
      st'.result.intervalResults = st.result.intervalResults ++ [temp] ∧
      st'.result.thisInterval t.sender = 0 ∧
      st'.result.total t.sender = st.result.total t.sender ∧
      (t.countsRetransmits → st'.result.streamRetrans = st.result.streamRetrans + temp.intervalRetrans) := by
  obtain ⟨temp, endTime, hrec, rfl⟩ := h
  refine ⟨temp, hrec, ?_⟩
  by_cases hc : t.countsRetransmits
  · cases t.sender <;> simp [hc, IperfStream.closeInterval, IperfStream.countRetransmits,
      IperfStreamResult.thisInterval, IperfStreamResult.total]
  · cases t.sender <;> simp [hc, IperfStream.closeInterval, IperfStreamResult.thisInterval,
      IperfStreamResult.total]

theorem lastCount_snoc {rp : IperfStreamResult} {irps : List IperfIntervalResults}
    {temp : IperfIntervalResults} (h : rp.intervalResults = irps ++ [temp]) :
    rp.lastCount = temp.packetCount := by
  unfold IperfStreamResult.lastCount
  rw [h, List.getLast?_concat]

/-- A closed interval keeps the counters of the stream balanced. -/
theorem ClosesInterval.balanced {t : IperfTest} {st st' : IperfStream} (h : ClosesInterval t st st')
    (hb : Balanced t.books st.result) : Balanced t.books st'.result := by
  obtain ⟨temp, hrec, -, hint, hthis, htotal, hretrans⟩ := h.intervals
  have hrecorded : st'.result.recorded t.omitting = st.result.recorded t.omitting ++ [temp] := by
    unfold IperfStreamResult.recorded
    rw [hint, List.filter_append]
    simp [hrec.omitted]
  refine ⟨?_, fun hr => ?_, fun hu => ?_, fun ho irp hirp => ?_⟩
  · show sum64 ((st'.result.recorded t.omitting).map _) + st'.result.thisInterval t.sender =
      st'.result.total t.sender
    rw [hrecorded, List.map_append, List.map_cons, List.map_nil, sum64_snoc, hthis, htotal,
      UInt64.add_zero, hrec.bytes]
    exact hb.bytes
  · show ((st'.result.recorded t.omitting).map _).sum = st'.result.streamRetrans
    rw [hrecorded, hretrans (of_decide_eq_true hr), ← hb.retransmits hr]
    simp
    rfl
  · have hudp : t.protocol = .udp := of_decide_eq_true hu
    obtain ⟨temp₀, rfl⟩ := hrec.packets (by rw [hudp]; decide)
    obtain ⟨hcount, hlast⟩ := packetRecord_count st temp₀
    rw [lastCount_snoc hint, hint, hlast, List.map_append, List.sum_append, hb.packets hu]
    simp [hcount]
  · rw [hint] at hirp
    rcases List.mem_append.1 hirp with hirp | hirp
    · exact hb.omitted ho irp hirp
    · rw [List.mem_singleton.1 hirp, hrec.omitted]
      exact ho

theorem Each.books_streams {R : IperfStream → IperfStream → Prop} {t t' : IperfTest} (h : Each R t t') :
    t'.books = { t.books with results := t'.streams.map (·.result) } := by
  rw [h.rest]
  rfl

/-- What holds of every changed stream. -/
theorem forall_of_forall₂ {α β : Type} {R : α → β → Prop} {P : α → Prop} {Q : β → Prop} {l : List α}
    {l' : List β} (h : List.Forall₂ R l l') (hl : ∀ a ∈ l, P a) (hR : ∀ a b, R a b → P a → Q b) :
    ∀ b ∈ l', Q b := by
  induction h with
  | nil => exact nofun
  | cons hab _ ih =>
    intro b hb
    rcases List.mem_cons.1 hb with rfl | hb
    · exact hR _ _ hab (hl _ List.mem_cons_self)
    · exact ih (fun a ha => hl a (List.mem_cons_of_mem _ ha)) b hb

theorem map_eq_of_forall₂ {α β γ : Type} {R : α → β → Prop} {f : α → γ} {g : β → γ} {l : List α}
    {l' : List β} (h : List.Forall₂ R l l') (hR : ∀ a b, R a b → g b = f a) : l'.map g = l.map f := by
  induction h with
  | nil => rfl
  | cons hab _ ih => rw [List.map_cons, List.map_cons, hR _ _ hab, ih]

/-- `iperf_stats_callback` keeps the books balanced. -/
theorem closesIntervals_balanced {t t' : IperfTest} (h : Each (ClosesInterval t) t t')
    (hb : t.books.BalancedUpTo 0) : t'.books.BalancedUpTo 0 := by
  have hflags : Books.Moved { t.books with results := t'.streams.map (·.result) } t'.books := by
    rw [h.books_streams]
    exact .refl _
  have hstreams : ∀ st ∈ t'.streams, Balanced t.books st.result :=
    forall_of_forall₂ h.streams (fun st hst => hb.streams _ (List.mem_map_of_mem hst))
      fun st st' hR hst => hR.balanced hst
  rw [h.books_streams]
  refine ⟨fun rp hrp => ?_, ?_⟩
  · obtain ⟨st, hst, rfl⟩ := List.mem_map.1 hrp
    have := hstreams st hst
    exact ⟨this.bytes, this.retransmits, this.packets, this.omitted⟩
  · show t.bytesSent + 0 = sum64 ((t'.streams.map (·.result)).map (IperfStreamResult.total t.sender))
    have htotal : t'.streams.map (fun st => st.result.total t.sender) =
        t.streams.map fun st => st.result.total t.sender :=
      map_eq_of_forall₂ h.streams fun st st' hR => by
        obtain ⟨temp, -, -, -, -, ht, -⟩ := hR.intervals
        exact ht
    rw [List.map_map]
    refine Eq.trans ?_ (congrArg sum64 htotal.symm)
    have := hb.total
    rw [show t.books.results = t.streams.map (·.result) from rfl, List.map_map] at this
    exact this

/-! ## The end of the omit period -/

/-- `iperf_reset_stats` balances the counters of a stream whose intervals were all omitted. -/
theorem Restarts.balanced {b b' : Books} {st st' : IperfStream} (h : Restarts st st')
    (hb : Balanced b st.result) (ho : b.omitting = true) (ho' : b'.omitting = false)
    (hu : b'.udp = b.udp) : Balanced b' st'.result := by
  obtain ⟨now, total, rfl⟩ := h
  have hint : (st.resetStats now total).result.intervalResults = st.result.intervalResults := rfl
  have hnone : (st.resetStats now total).result.recorded false = [] := by
    unfold IperfStreamResult.recorded
    rw [hint, List.filter_eq_nil_iff]
    intro irp hirp
    simp [hb.omitted ho irp hirp]
  refine ⟨?_, fun _ => ?_, fun h => hb.packets (hu ▸ h), fun h => ?_⟩
  · rw [ho', hnone]
    cases b'.sender <;> rfl
  · rw [ho', hnone]
    rfl
  · rw [ho'] at h
    cases h

theorem sum64_zeros {α : Type} {l : List α} {f : α → UInt64} (h : ∀ a ∈ l, f a = 0) :
    sum64 (l.map f) = 0 := by
  induction l with
  | nil => rfl
  | cons a l ih =>
    show f a + sum64 (l.map f) = 0
    rw [h a List.mem_cons_self, ih fun b hb => h b (List.mem_cons_of_mem _ hb)]
    rfl

/-- The end of the omit period leaves the books balanced. -/
theorem restarts_balanced {t t₁ t' : IperfTest} (h : Each Restarts t₁ t') (hb : t.books.BalancedUpTo 0)
    (ho : t.omitting = true) (ho₁ : t₁.omitting = false) (hp : t₁.protocol = t.protocol)
    (hsent : t₁.bytesSent = 0) (hst : t₁.streams = t.streams) : t'.books.BalancedUpTo 0 := by
  have homit : t'.books.omitting = false := by rw [h.books_streams]; exact ho₁
  have hudp : t'.books.udp = t.books.udp := by
    rw [h.books_streams]
    show decide (t₁.protocol = .udp) = decide (t.protocol = .udp)
    rw [hp]
  have hall : ∀ st ∈ t'.streams, Balanced t'.books st.result ∧ st.result.total t'.sender = 0 :=
    forall_of_forall₂ h.streams (fun st hmem => hb.streams _ (List.mem_map_of_mem (hst ▸ hmem)))
      fun st st' hR hbal => ⟨hR.balanced hbal ho homit hudp, by
        obtain ⟨now, total, rfl⟩ := hR
        cases t'.sender <;> rfl⟩
  refine ⟨fun rp hrp => ?_, ?_⟩
  · obtain ⟨st, hmem, rfl⟩ := List.mem_map.1 hrp
    exact (hall st hmem).1
  · show t'.bytesSent + 0 = sum64 ((t'.streams.map (·.result)).map _)
    rw [List.map_map]
    refine Eq.trans ?_ (sum64_zeros fun st hmem => (hall st hmem).2).symm
    rw [h.rest]
    show t₁.bytesSent + 0 = 0
    rw [hsent]
    rfl

/-! ## Runs -/

/-- A stream that has counted nothing yet. -/
structure IperfStream.Unused (st : IperfStream) : Prop where
  bytesSent : st.result.bytesSent = 0
  bytesReceived : st.result.bytesReceived = 0
  bytesSentThisInterval : st.result.bytesSentThisInterval = 0
  bytesReceivedThisInterval : st.result.bytesReceivedThisInterval = 0
  streamRetrans : st.result.streamRetrans = 0
  intervalResults : st.result.intervalResults = []
  packetCount : st.packetCount = 0
  omittedPacketCount : st.omittedPacketCount = 0
  outoforderPackets : st.outoforderPackets = 0
  cntError : st.cntError = 0

/-- The streams of `iperf_new_stream` have counted nothing yet. -/
theorem newStream_unused (t : IperfTest) (s bufferFd diskfileFd : Int) (buffer : List UInt8) :
    (newStream t s bufferFd diskfileFd buffer).Unused :=
  ⟨rfl, rfl, rfl, rfl, rfl, rfl, rfl, rfl, rfl, rfl⟩

/-- A run of the data phase from `m₀`: calls of `iperf_send` or `iperf_recv`, calls of
`iperf_stats_callback`, and the end of the omit period, which clears `omitting`. The list holds the
packet counts of the streams at the last call of `iperf_stats_callback`. -/
inductive DataRun (m₀ : Mem) : List Int → Mem → Prop where
  | start : DataRun m₀ (m₀.test.streams.map fun _ => 0) m₀
  | send {counts : List Int} {m m' : Mem} {fuel : Nat} {writeSet : Option FdSet} {r : Int} :
      DataRun m₀ counts m → m.test.sender = true → Prog.Returns (iperfSend fuel writeSet) m r m' →
      DataRun m₀ counts m'
  | recv {counts : List Int} {m m' : Mem} {fuel : Nat} {readSet : FdSet} {r : Int} :
      DataRun m₀ counts m → m.test.sender = false → Prog.Returns (iperfRecv fuel readSet) m r m' →
      DataRun m₀ counts m'
  | stats {counts : List Int} {m m' : Mem} :
      DataRun m₀ counts m → Prog.Returns iperfStatsCallback m () m' →
      DataRun m₀ (m'.test.streams.map (·.packetCount)) m'
  | omitOver {counts : List Int} {m m' : Mem} {now : Timeval} :
      DataRun m₀ counts m → m.test.omitting = true → Prog.Returns (omitTimerProc now) m () m' →
      DataRun m₀ counts m'

/-- The counters of the test `t` add up. -/
structure Conserved (counts : List Int) (t : IperfTest) : Prop where
  /-- The records of the current period and the current interval make up the bytes of a stream. -/
  bytes : ∀ st ∈ t.streams,
    sum64 ((st.result.recorded t.omitting).map (·.bytesTransferred)) + st.result.thisInterval t.sender =
      st.result.total t.sender
  /-- The records of the current period make up the retransmits of a stream. -/
  retransmits : t.countsRetransmits → ∀ st ∈ t.streams,
    ((st.result.recorded t.omitting).map (·.intervalRetrans)).sum = st.result.streamRetrans
  /-- All records make up the packets of a stream at the last callback. -/
  packets : t.protocol = .udp →
    t.streams.map (fun st => (st.result.intervalResults.map (·.intervalPacketCount)).sum) = counts
  /-- The streams make up the bytes of the test. -/
  test : t.bytesSent = sum64 (t.streams.map (·.result.total t.sender))

/-- What holds along a run: the books are balanced, and the packet counts are those of the records. -/
structure DataInv (counts : List Int) (t : IperfTest) : Prop where
  balanced : t.books.BalancedUpTo 0
  counts : t.protocol = .udp → t.streams.map (·.result.lastCount) = counts

theorem DataInv.conserved {counts : List Int} {t : IperfTest} (h : DataInv counts t) :
    Conserved counts t := by
  have hst : ∀ st ∈ t.streams, Balanced t.books st.result := fun st hst =>
    h.balanced.streams _ (List.mem_map_of_mem hst)
  refine ⟨fun st hmem => (hst st hmem).bytes, fun hc st hmem => ?_, fun hu => ?_, ?_⟩
  · exact (hst st hmem).retransmits (decide_eq_true hc)
  · rw [← h.counts hu]
    exact List.map_congr_left fun st hmem => (hst st hmem).packets (decide_eq_true hu)
  · have := h.balanced.total
    rw [show t.books.results = t.streams.map (·.result) from rfl, List.map_map, UInt64.add_zero] at this
    exact this

/-- Moving data closes no interval. -/
theorem Kept.lastCounts {t t' : IperfTest} (h : Kept t t') :
    t'.streams.map (·.result.lastCount) = t.streams.map (·.result.lastCount) := by
  have hint := h.moved.intervals
  simp only [IperfTest.books, List.map_map] at hint
  have hmap := congrArg (List.map fun irps : List IperfIntervalResults =>
    match irps.getLast? with
    | none => (0 : Int)
    | some irp => irp.packetCount) hint
  simp only [List.map_map] at hmap
  exact hmap

theorem DataInv.kept {counts : List Int} {t t' : IperfTest} (h : DataInv counts t) (hk : Kept t t') :
    DataInv counts t' := by
  refine ⟨hk.balanced, fun hu => ?_⟩
  have hudp : decide (t'.protocol = .udp) = decide (t.protocol = .udp) := hk.moved.udp
  rw [hk.lastCounts]
  exact h.counts (by simpa [hu] using hudp)

/-- A test whose streams have counted nothing yet. -/
theorem DataInv.start {t : IperfTest} (hst : ∀ st ∈ t.streams, st.Unused) (hsent : t.bytesSent = 0) :
    DataInv (t.streams.map fun _ => 0) t := by
  have htotal : ∀ st ∈ t.streams, st.result.total t.sender = 0 := fun st hmem => by
    unfold IperfStreamResult.total
    rw [(hst st hmem).bytesSent, (hst st hmem).bytesReceived, ite_self]
  refine ⟨⟨fun rp hrp => ?_, ?_⟩, fun _ => List.map_congr_left fun st hmem => ?_⟩
  · obtain ⟨st, hmem, rfl⟩ := List.mem_map.1 hrp
    have hrecorded : st.result.recorded t.omitting = [] := by
      unfold IperfStreamResult.recorded
      rw [(hst st hmem).intervalResults, List.filter_nil]
    have hthis : st.result.thisInterval t.sender = 0 := by
      unfold IperfStreamResult.thisInterval
      rw [(hst st hmem).bytesSentThisInterval, (hst st hmem).bytesReceivedThisInterval, ite_self]
    refine ⟨?_, fun _ => ?_, fun _ => ?_, fun _ irp hirp => ?_⟩
    · show sum64 ((st.result.recorded t.omitting).map _) + st.result.thisInterval t.sender =
        st.result.total t.sender
      rw [hrecorded, hthis, htotal st hmem]
      rfl
    · show ((st.result.recorded t.omitting).map _).sum = st.result.streamRetrans
      rw [hrecorded, (hst st hmem).streamRetrans]
      rfl
    · unfold IperfStreamResult.lastCount
      rw [(hst st hmem).intervalResults]
      rfl
    · rw [(hst st hmem).intervalResults] at hirp
      cases hirp
  · show t.bytesSent + 0 = sum64 ((t.streams.map (·.result)).map _)
    rw [List.map_map, hsent]
    exact (sum64_zeros htotal).symm
  · unfold IperfStreamResult.lastCount
    rw [(hst st hmem).intervalResults]
    rfl

theorem dataRun_inv {m₀ m : Mem} {counts : List Int} (hst : ∀ st ∈ m₀.test.streams, st.Unused)
    (hsent : m₀.test.bytesSent = 0) (h : DataRun m₀ counts m) : DataInv counts m.test := by
  induction h with
  | start => exact .start hst hsent
  | send _ hs hcall ih => exact ih.kept ((iperfSend_kept _ _ hs ih.balanced).returns hcall)
  | recv _ hs hcall ih => exact ih.kept ((iperfRecv_kept _ _ hs ih.balanced).returns hcall)
  | @stats counts m m' _ hcall ih =>
    have heach := (iperfStatsCallback_ends m.test).returns hcall
    refine ⟨closesIntervals_balanced heach ih.balanced, fun hu => ?_⟩
    have hp : m.test.protocol = .udp := by
      rw [heach.rest] at hu
      exact hu
    have hlast : ∀ st' ∈ m'.test.streams, st'.result.lastCount = st'.packetCount :=
      forall_of_forall₂ heach.streams (fun _ _ => trivial) fun st st' hR _ => by
        obtain ⟨temp, hrec, hcount, hint, -⟩ := hR.intervals
        obtain ⟨temp₀, rfl⟩ := hrec.packets (by rw [hp]; decide)
        rw [lastCount_snoc hint, hcount]
        exact (packetRecord_count st temp₀).2
    exact List.map_congr_left hlast
  | @omitOver counts m m' now _ ho hcall ih =>
    have heach := (omitTimerProc_ends m.test now).returns hcall
    refine ⟨restarts_balanced heach ih.balanced ho rfl rfl rfl rfl, fun hu => ?_⟩
    have hp : m.test.protocol = .udp := by
      rw [heach.rest] at hu
      exact hu
    rw [← ih.counts hp]
    exact map_eq_of_forall₂ heach.streams fun st st' hR => by
      obtain ⟨now, total, rfl⟩ := hR
      rfl

/-- A sender of blocks of 4 bytes over one stream. -/
def smallSender (omitting : Bool) : IperfTest :=
  let t := iperfSetTestRole .client mainTest
  { t with
    omitting := omitting
    multisend := 2
    settings := { t.settings with blksize := 4 }
    streams := [{ newStream t 3 4 (-1) [1, 2, 3, 4] with greenLight := true }] }

/-- The sender after two blocks. -/
def afterBlocks (omitting : Bool) : Mem :=
  Prog.after (fun _ => Req.quiet) 100 (iperfSend 9 none) (Mem.start (smallSender omitting))

/-- The sender after two blocks and a call of `iperf_stats_callback`. -/
def afterInterval (omitting : Bool) : Mem :=
  Prog.after (fun _ => Req.quiet) 100 iperfStatsCallback (afterBlocks omitting)

theorem afterInterval_run (omitting : Bool) :
    DataRun (Mem.start (smallSender omitting)) [0] (afterInterval omitting) := by
  have hsend : Prog.Returns (iperfSend 9 none) (Mem.start (smallSender omitting)) 0
      (afterBlocks omitting) := .of_drive _ 100 (by cases omitting <;> decide)
  have hstats : Prog.Returns iperfStatsCallback (afterBlocks omitting) () (afterInterval omitting) :=
    .of_drive _ 100 (by cases omitting <;> decide)
  have hcounts : (afterInterval omitting).test.streams.map (·.packetCount) = [0] := by
    cases omitting <;> decide
  exact hcounts ▸ .stats (.send .start rfl hsend) hstats

end Iperf
