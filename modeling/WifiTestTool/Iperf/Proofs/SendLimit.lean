import WifiTestTool.Iperf.Proofs.CallRuns
import WifiTestTool.Iperf.Proofs.Neutral
import WifiTestTool.Iperf.Proofs.SendCalls

/-!
# The amount that is to be sent

With `-n` or `-k` a test is to send a certain number of bytes or blocks. `iperf_send` looks at the counters of
the test after every send, but a `break` only leaves the inner of its two loops, so the next round begins with
another send, and in the last round it does not look at them at all. Up to one block less than the rounds allow
for, the limit has to be out of reach.
-/

namespace Iperf

open Reactive

/-! ## Sends beyond the limit -/

/-- What was to be sent was sent. -/
def IperfTest.limitReached (t : IperfTest) : Prop :=
  (t.settings.bytes ≠ 0 ∧ t.bytesSent ≥ t.settings.bytes) ∨
    (t.settings.blocks ≠ 0 ∧ t.blocksSent ≥ t.settings.blocks)

instance (t : IperfTest) : Decidable t.limitReached := inferInstanceAs (Decidable (_ ∨ _))

/-- The loop of `iperf_send` over the streams, with `snd` in the place of `sp->snd`. -/
def sendStreamsWith (snd : Nat → IperfProg Int) (writeSet : Option FdSet) (multisend : Nat) (now : Timeval) :
    List Nat → IperfProg (Option Int)
  | [] => pure none
  | sp :: sps => do
    let st ← getStream sp
    if st.greenLight ∧ ∀ ws ∈ writeSet, st.socket ∈ ws then do
      let r ← snd sp
      if r < 0 then
        if r = NET_SOFTERROR then
          pure none
        else do
          setIErrno .IESTREAMWRITE
          pure (some r)
      else do
        modifyTest (IperfTest.count r)
        let t ← getTest
        if t.settings.rate ≠ 0 ∧ t.settings.burst = 0 then iperfCheckThrottle sp now
        if multisend > 1 ∧ t.settings.bytes ≠ 0 ∧ t.bytesSent ≥ t.settings.bytes then
          pure none
        else if multisend > 1 ∧ t.settings.blocks ≠ 0 ∧ t.blocksSent ≥ t.settings.blocks then
          pure none
        else
          sendStreamsWith snd writeSet multisend now sps
    else
      sendStreamsWith snd writeSet multisend now sps

/-- The outer loop of `iperf_send`, with `snd` in the place of `sp->snd`. -/
def sendRoundsWith (snd : Nat → IperfProg Int) (writeSet : Option FdSet) : Nat → IperfProg (Option Int)
  | 0 => pure none
  | multisend + 1 => do
    let t ← getTest
    let now ← if t.settings.rate ≠ 0 ∧ t.settings.burst = 0 then gettimeofday else pure ⟨0, 0⟩
    let sps ← allStreams
    let r ← sendStreamsWith snd writeSet (multisend + 1) now sps
    match r with
    | some r => pure (some r)
    | none => sendRoundsWith snd writeSet multisend

/-- The number of rounds of `iperf_send`. -/
def IperfTest.rounds (t : IperfTest) : Nat :=
  (if t.settings.burst ≠ 0 then t.settings.burst
    else if t.settings.rate = 0 then t.multisend
    else 1).toNat

/-- `iperf_send`, with `snd` in the place of `sp->snd`. -/
def iperfSendWith (snd : Nat → IperfProg Int) (writeSet : Option FdSet) : IperfProg Int := do
  let t ← getTest
  let r ← sendRoundsWith snd writeSet t.rounds
  match r with
  | some r => pure r
  | none => do
    if t.settings.burst ≠ 0 then do
      let now ← gettimeofday
      let sps ← allStreams
      forAllStreams (fun sp => iperfCheckThrottle sp now) sps
    pure 0

theorem sendStreamsWith_streamSnd (fuel : Nat) (writeSet : Option FdSet) (multisend : Nat) (now : Timeval)
    (sps : List Nat) :
    sendStreamsWith (streamSnd fuel) writeSet multisend now sps = sendStreams fuel writeSet multisend now sps := by
  induction sps with
  | nil => rfl
  | cons sp sps ih =>
    unfold sendStreamsWith sendStreams
    rw [ih]

theorem sendRoundsWith_streamSnd (fuel : Nat) (writeSet : Option FdSet) (multisend : Nat) :
    sendRoundsWith (streamSnd fuel) writeSet multisend = sendRounds fuel writeSet multisend := by
  induction multisend with
  | zero => rfl
  | succ multisend ih =>
    unfold sendRoundsWith sendRounds
    simp only [sendStreamsWith_streamSnd, ih]
    try rfl

/-- With `sp->snd` itself it is `iperf_send`. -/
theorem iperfSendWith_streamSnd (fuel : Nat) (writeSet : Option FdSet) :
    iperfSendWith (streamSnd fuel) writeSet = iperfSend fuel writeSet := by
  unfold iperfSendWith iperfSend
  simp only [sendRoundsWith_streamSnd]
  rfl

/-- `sp->snd`, which is not to be called any more when the limit is reached: the program stops then, in a way in
which nothing else in `iperf_send` stops. -/
def guardedSnd (fuel sp : Nat) : IperfProg Int := do
  let t ← getTest
  if t.limitReached then Prog.stop Halt.emptyStreams else streamSnd fuel sp

/-- `iperf_send`, called in the memory `m`, makes no call of `sp->snd` when the limit is reached, whatever the
system answers. -/
def RespectsLimit (fuel : Nat) (writeSet : Option FdSet) (m : Mem) : Prop :=
  ∀ m', ¬ Prog.Reach Prog.free (iperfSendWith (guardedSnd fuel) writeSet, m, ())
    (.halt Halt.emptyStreams, m', ())

/-! ## What a call can send -/

/-- `iperf_send` sends to the stream. -/
def IperfStream.ready (writeSet : Option FdSet) (st : IperfStream) : Bool :=
  decide (st.greenLight ∧ ∀ ws ∈ writeSet, st.socket ∈ ws)

/-- Full blocks, fewer than `k` of them, do not reach the limit. -/
def IperfTest.StaysBelow (k : Nat) (t : IperfTest) : Prop :=
  ∀ j < k,
    (t.settings.bytes ≠ 0 → t.bytesSent.toNat + j * t.settings.blksize.toNat < t.settings.bytes.toNat) ∧
    (t.settings.blocks ≠ 0 → t.blocksSent + j < t.settings.blocks)

instance (k : Nat) (t : IperfTest) : Decidable (t.StaysBelow k) := inferInstanceAs (Decidable (∀ j < k, _))

/-- `iperf_send` sends to the stream at `sp`. -/
def readyAt (writeSet : Option FdSet) (t : IperfTest) (sp : Nat) : Bool :=
  (t.streams[sp]?).any (IperfStream.ready writeSet)

theorem IperfTest.StaysBelow.mono {k k' : Nat} {t : IperfTest} (h : t.StaysBelow k) (hk : k' ≤ k) : t.StaysBelow k' :=
  fun j hj => h j (hj.trans_le hk)

theorem IperfTest.StaysBelow.notReached {k : Nat} {t : IperfTest} (h : t.StaysBelow k) (hk : 0 < k) : ¬ t.limitReached := by
  obtain ⟨hbytes, hblocks⟩ := h 0 hk
  rintro (⟨hne, hge⟩ | ⟨hne, hge⟩)
  · have hlt := hbytes hne
    have hle := UInt64.le_iff_toNat_le.1 hge
    omega
  · have hlt := hblocks hne
    omega

/-- A limit that is reached is not out of reach. -/
theorem not_staysBelow {k : Nat} {t : IperfTest} (h : t.limitReached) (hk : 0 < k) : ¬ t.StaysBelow k :=
  fun hb => hb.notReached hk h

/-- The limit, the lengths of the buffers and which streams are ready, apart from the one at `sp`, are the same. -/
structure SameLimits (writeSet : Option FdSet) (t t' : IperfTest) (changed : Nat → Prop) : Prop where
  settings : t'.settings = t.settings
  streams : ∀ (i : Nat) (st' : IperfStream), t'.streams[i]? = some st' → ∃ st, t.streams[i]? = some st ∧
    st.buffer.length ≤ st'.buffer.length ∧ (¬ changed i → st'.ready writeSet = st.ready writeSet)
  length : t'.streams.length = t.streams.length

section Same

variable {writeSet : Option FdSet} {t t' t'' : IperfTest} {changed : Nat → Prop} {sp : Nat} {r : Int}

theorem SameLimits.refl (t : IperfTest) : SameLimits writeSet t t changed :=
  ⟨rfl, fun _ st' h => ⟨st', h, le_rfl, fun _ => rfl⟩, rfl⟩

theorem SameLimits.trans (h : SameLimits writeSet t t' changed) (h' : SameLimits writeSet t' t'' changed) :
    SameLimits writeSet t t'' changed := by
  refine ⟨h'.settings.trans h.settings, fun i st₃ h₃ => ?_, h'.length.trans h.length⟩
  obtain ⟨st₂, h₂, hle₂, hready₂⟩ := h'.streams i st₃ h₃
  obtain ⟨st₁, h₁, hle₁, hready₁⟩ := h.streams i st₂ h₂
  exact ⟨st₁, h₁, hle₁.trans hle₂, fun hi => (hready₂ hi).trans (hready₁ hi)⟩

theorem SameLimits.mono {changed' : Nat → Prop} (h : SameLimits writeSet t t' changed)
    (hc : ∀ i, changed i → changed' i) : SameLimits writeSet t t' changed' := by
  refine ⟨h.settings, fun i st' hst' => ?_, h.length⟩
  obtain ⟨st, hst, hle, hready⟩ := h.streams i st' hst'
  exact ⟨st, hst, hle, fun hi => hready fun hc' => hi (hc i hc')⟩

theorem SameLimits.readyAt (h : SameLimits writeSet t t' changed) {i : Nat} (hi : ¬ changed i) :
    readyAt writeSet t' i = readyAt writeSet t i := by
  unfold Iperf.readyAt
  cases hst' : t'.streams[i]? with
  | none =>
    have hnone : t.streams[i]? = none := by
      rw [List.getElem?_eq_none_iff] at hst' ⊢
      rw [← h.length]
      exact hst'
    rw [hnone]
  | some st' =>
    obtain ⟨st, hst, -, hready⟩ := h.streams i st' hst'
    rw [hst]
    exact hready hi

theorem SameLimits.counted (h : SameLimits writeSet t t' changed) (r : Int) :
    SameLimits writeSet t (t'.count r) changed := ⟨h.settings, h.streams, h.length⟩

theorem Snd.same (h : Snd t sp r t') (writeSet : Option FdSet) (changed : Nat → Prop) :
    SameLimits writeSet t t' changed := by
  obtain ⟨⟨f, done, rfl, -, hf⟩, -⟩ := h
  refine ⟨rfl, fun i st' hst' => ?_, List.length_modify _ _ _⟩
  obtain ⟨a, ha, rfl⟩ := getElem?_modify_some hst'
  refine ⟨a, ha, ?_⟩
  obtain ⟨hsocket, hgreen, -, -, hbuffer⟩ := hf a
  by_cases hsp : sp = i
  · rw [if_pos hsp]
    refine ⟨hbuffer, fun _ => ?_⟩
    unfold IperfStream.ready
    rw [hsocket, hgreen]
  · rw [if_neg hsp]
    exact ⟨le_rfl, fun _ => rfl⟩

/-- `iperf_check_throttle` changes the light of its stream only. -/
theorem iperfCheckThrottle_same (t : IperfTest) (sp : Nat) (now : Timeval) (writeSet : Option FdSet) :
    Ends t (iperfCheckThrottle sp now) fun _ t' => SameLimits writeSet t t' (· = sp) ∧
      t'.bytesSent = t.bytesSent ∧ t'.blocksSent = t.blocksSent := by
  refine .getTest_bind (.ite (fun _ => .pure ⟨.refl t, rfl, rfl⟩) fun _ => .getStream_bind fun st hst => ?_)
  have hswitch : ∀ (green : Bool) (ws : FdSet), SameLimits writeSet t { t with
      streams := t.streams.modify sp fun st => { st with greenLight := green }
      writeSet := ws } (· = sp) := by
    intro green ws
    refine ⟨rfl, fun i st' hst' => ?_, List.length_modify _ _ _⟩
    obtain ⟨a, ha, rfl⟩ := getElem?_modify_some hst'
    refine ⟨a, ha, ?_⟩
    by_cases hsp : sp = i
    · rw [if_pos hsp]
      exact ⟨le_rfl, fun hne => absurd hsp.symm hne⟩
    · rw [if_neg hsp]
      exact ⟨le_rfl, fun _ => rfl⟩
  refine .ite (fun _ => ?_) fun _ => ?_
  · exact .modifyTest_bind (.modifyTest ⟨hswitch true _, rfl, rfl⟩)
  · exact .modifyTest_bind (.modifyTest ⟨hswitch false _, rfl, rfl⟩)

end Same

/-! ## One send -/

section OneSend

variable {t t' : IperfTest} {sp k : Nat} {r : Int}

theorem Snd.counted (h : Snd t sp r t') : (t'.count r).settings = t.settings ∧
    (t'.count r).bytesSent = t.bytesSent + UInt64.ofInt r ∧ (t'.count r).blocksSent = t.blocksSent + 1 := by
  obtain ⟨⟨f, done, rfl, -, -⟩, -⟩ := h
  exact ⟨rfl, rfl, rfl⟩

theorem IperfTest.StaysBelow.same (h : t.StaysBelow k) (hset : t'.settings = t.settings)
    (hbytes : t'.bytesSent = t.bytesSent) (hblocks : t'.blocksSent = t.blocksSent) : t'.StaysBelow k := by
  intro j hj
  rw [hset, hbytes, hblocks]
  exact h j hj

/-- After a send one block less is out of reach. -/
theorem IperfTest.StaysBelow.sent (h : t.StaysBelow (k + 1)) (hs : Snd t sp r t') (hr : 0 ≤ r) :
    (t'.count r).StaysBelow k := by
  obtain ⟨hset, hbytes, hblocks⟩ := hs.counted
  have hle := hs.le
  intro j hj
  obtain ⟨hb, hk⟩ := h (j + 1) (Nat.succ_lt_succ hj)
  rw [hset, hbytes, hblocks]
  refine ⟨fun hne => ?_, fun hne => ?_⟩
  · have hb := hb hne
    rw [Nat.succ_mul] at hb
    have hlt := t.settings.bytes.toNat_lt
    have hofInt : (UInt64.ofInt r).toNat = (r % 2 ^ 64).toNat % 2 ^ 64 := rfl
    rw [UInt64.toNat_add, hofInt]
    omega
  · have hk := hk hne
    push_cast at hk
    omega

/-- A block, or what is left to be sent. -/
def IperfTest.nextBlock (t : IperfTest) : Int :=
  if t.settings.bytes ≠ 0 then min t.settings.blksize (t.settings.bytes.toNat - t.bytesSent.toNat)
  else t.settings.blksize

theorem below_of_not_reached (h : ¬ t.limitReached) :
    (t.settings.bytes ≠ 0 → t.bytesSent.toNat < t.settings.bytes.toNat) ∧
      (t.settings.blocks ≠ 0 → t.blocksSent < t.settings.blocks) := by
  refine ⟨fun hne => ?_, fun hne => ?_⟩
  · by_contra hge
    exact h (.inl ⟨hne, UInt64.le_iff_toNat_le.2 (not_lt.1 hge)⟩)
  · by_contra hge
    exact h (.inr ⟨hne, not_lt.1 hge⟩)

theorem nextBlock_pos (hpos : 0 < t.settings.blksize) (h : ¬ t.limitReached) :
    1 ≤ t.nextBlock ∧ t.nextBlock ≤ t.settings.blksize := by
  unfold IperfTest.nextBlock
  by_cases hne : t.settings.bytes ≠ 0
  · have hlt := (below_of_not_reached h).1 hne
    rw [if_pos hne]
    omega
  · rw [if_neg hne]
    omega

/-- After the send of the next block the limit has come nearer. -/
theorem nextBlock_nearer (hpos : 0 < t.settings.blksize) (h : ¬ t.StaysBelow (k + 1)) (hnot : ¬ t.limitReached)
    (hs : Snd t sp t.nextBlock t') : ¬ (t'.count t.nextBlock).StaysBelow k := by
  obtain ⟨hset, hbytes, hblocks⟩ := hs.counted
  obtain ⟨hone, hle⟩ := nextBlock_pos hpos hnot
  intro hbelow
  refine h fun j hj => ?_
  have hzero := below_of_not_reached hnot
  cases j with
  | zero =>
    rw [Nat.zero_mul]
    simpa using hzero
  | succ j =>
    obtain ⟨hb, hk⟩ := hbelow j (Nat.lt_of_succ_lt_succ hj)
    rw [hset, hbytes] at hb
    rw [hset, hblocks] at hk
    refine ⟨fun hne => ?_, fun hne => ?_⟩
    · have hb := hb hne
      have hnext : t.nextBlock = min t.settings.blksize (t.settings.bytes.toNat - t.bytesSent.toNat) := by
        unfold IperfTest.nextBlock
        rw [if_pos hne]
      have hlt := t.settings.bytes.toNat_lt
      have hzero := hzero.1 hne
      have hofInt : (UInt64.ofInt t.nextBlock).toNat = (t.nextBlock % 2 ^ 64).toNat % 2 ^ 64 := rfl
      rw [UInt64.toNat_add, hofInt] at hb
      rw [Nat.succ_mul]
      omega
    · have hk := hk hne
      push_cast
      omega

end OneSend

/-! ## Calls that stay below the limit -/

/-- From the test `t` the program does not stop as `guardedSnd` does, and it returns only where `Q` holds. -/
def Spares {α : Type} (t : IperfTest) (p : IperfProg α) (Q : α → IperfTest → Prop) : Prop :=
  Prog.Triple (Prog.halting (· ≠ Halt.emptyStreams)) (fun m _ => m.test = t) p fun a m _ => Q a m.test

namespace Spares

variable {α β : Type} {t : IperfTest} {M : α → IperfTest → Prop} {Q : β → IperfTest → Prop}

theorem pure {a : α} (h : M a t) : Spares t (Pure.pure a : IperfProg α) M := by
  rintro m g rfl
  exact h

theorem bind {p : IperfProg α} {f : α → IperfProg β} (hp : Spares t p M)
    (hf : ∀ a t', M a t' → Spares t' (f a) Q) : Spares t (p >>= f) Q :=
  Prog.Triple.bind hp fun a m g hm => hf a m.test hm m g rfl

theorem mono {M' : α → IperfTest → Prop} {p : IperfProg α} (hp : Spares t p M)
    (hM : ∀ a t', M a t' → M' a t') : Spares t p M' :=
  fun m g hm => (hp m g hm).mono fun a m' _ h => hM a m'.test h

theorem ite {c : Prop} [Decidable c] {p q : IperfProg α} (hp : c → Spares t p M)
    (hq : ¬ c → Spares t q M) : Spares t (if c then p else q) M :=
  Prog.Triple.ite hp hq

theorem getTest_bind {f : IperfTest → IperfProg β} (hf : Spares t (f t) Q) : Spares t (getTest >>= f) Q := by
  rintro m g rfl
  exact hf m g rfl

theorem allStreams_bind {f : List Nat → IperfProg β} (hf : Spares t (f (List.range t.streams.length)) Q) :
    Spares t (allStreams >>= f) Q := by
  rintro m g rfl
  exact hf m g rfl

theorem modifyTest_bind {f : IperfTest → IperfTest} {k : Unit → IperfProg β} (hk : Spares (f t) (k ()) Q) :
    Spares t (modifyTest f >>= k) Q := by
  rintro m g rfl
  exact ⟨trivial, hk _ _ rfl⟩

theorem setIErrno_bind {e : IErr} {k : Unit → IperfProg β} (hk : Spares t (k ()) Q) :
    Spares t (setIErrno e >>= k) Q := by
  rintro m g rfl
  exact ⟨trivial, hk _ _ rfl⟩

theorem getStream_bind {sp : Nat} {f : IperfStream → IperfProg β}
    (hf : ∀ st, t.streams[sp]? = some st → Spares t (f st) Q) : Spares t (getStream sp >>= f) Q := by
  rintro m g rfl
  unfold getStream getTest
  rw [Prog.safe_bind, Prog.safe_bind, Prog.safe_bind, Prog.safe_get, Prog.safe_pure]
  split
  · exact nofun
  · rename_i st hst
    exact hf st hst m g rfl

theorem gettimeofday_bind {f : Timeval → IperfProg β} (hf : ∀ now, Spares t (f now) Q) :
    Spares t (gettimeofday >>= f) Q := by
  rintro m g rfl
  refine ⟨trivial, fun a _ => ?_⟩
  cases a with
  | ok now => exact hf now m _ rfl
  | error e => exact ⟨trivial, hf ⟨0, 0⟩ _ _ rfl⟩

/-- A call of a program of the measurement, when there is a stream. -/
theorem of_ends {p : IperfProg α} (h : Ends t p M) (hp : Measures p) (hne : t.streams ≠ []) : Spares t p M := by
  rintro m g rfl
  have hlack : ¬ lacksStream m.test.core := fun hl => hne (List.map_eq_nil_iff.1 hl.1)
  refine (h m () rfl).halting ((hp _ _ _ (harmless_at m.test.core)).mono (fun _ => id) ?_) rfl
  intro h' himp heq
  exact hlack (himp heq)

end Spares

/-- The streams among `sps` that `iperf_send` sends to. -/
def readyAmong (writeSet : Option FdSet) (t : IperfTest) (sps : List Nat) : Nat :=
  sps.countP (readyAt writeSet t)

theorem readyAmong_cons (writeSet : Option FdSet) (t : IperfTest) (sp : Nat) (sps : List Nat) :
    readyAmong writeSet t (sp :: sps) =
      readyAmong writeSet t sps + if readyAt writeSet t sp = true then 1 else 0 := List.countP_cons

theorem readyAt_eq {writeSet : Option FdSet} {t : IperfTest} {sp : Nat} {st : IperfStream}
    (hst : t.streams[sp]? = some st) :
    readyAt writeSet t sp = true ↔ st.greenLight = true ∧ ∀ ws ∈ writeSet, st.socket ∈ ws := by
  unfold readyAt
  rw [hst]
  exact decide_eq_true_iff

theorem SameLimits.readyAmong {writeSet : Option FdSet} {t t' : IperfTest} {changed : Nat → Prop}
    (h : SameLimits writeSet t t' changed) {sps : List Nat} (hc : ∀ i ∈ sps, ¬ changed i) :
    readyAmong writeSet t' sps = readyAmong writeSet t sps := by
  refine List.countP_congr fun i hi => ?_
  rw [h.readyAt (hc i hi)]

/-- `iperf_send` computes the lights after every send. -/
def IperfTest.throttled (t : IperfTest) : Prop := t.settings.rate ≠ 0 ∧ t.settings.burst = 0

/-- The settings are those of a test that is sending. -/
structure Blocks (S : IperfSettings) : Prop where
  pos : 0 < S.blksize
  int : IsInt S.blksize

section Below

variable {writeSet : Option FdSet} {t : IperfTest}

theorem streamSnd_spares (fuel : Nat) {sp : Nat} {st : IperfStream} (hb : Blocks t.settings)
    (hst : t.streams[sp]? = some st) : Spares t (streamSnd fuel sp) (Snd t sp) := by
  refine .of_ends (streamSnd_snd fuel hb.pos hb.int) (fun _ _ _ hh => streamSnd_neutral hh fuel sp) ?_
  intro hnil
  rw [hnil] at hst
  cases hst

theorem iperfCheckThrottle_spares (writeSet : Option FdSet) (t : IperfTest) (sp : Nat) (now : Timeval) :
    Spares t (iperfCheckThrottle sp now) fun _ t' => SameLimits writeSet t t' (· = sp) ∧
      t'.bytesSent = t.bytesSent ∧ t'.blocksSent = t.blocksSent := by
  by_cases hne : t.streams = []
  · refine .getTest_bind (.ite (fun _ => .pure ⟨.refl t, rfl, rfl⟩) fun _ => .getStream_bind fun st hst => ?_)
    rw [hne] at hst
    cases hst
  · exact .of_ends (iperfCheckThrottle_same t sp now writeSet) (fun _ _ _ hh => iperfCheckThrottle_neutral hh sp now)
      hne

/-- The loop over the streams uses up one block for every stream that is ready. -/
theorem sendStreamsWith_below (fuel multisend rest : Nat) (now : Timeval) (sps : List Nat) : sps.Nodup →
    ∀ t, Blocks t.settings → t.StaysBelow (readyAmong writeSet t sps + rest) →
      Spares t (sendStreamsWith (guardedSnd fuel) writeSet multisend now sps) fun _ t' =>
        t'.StaysBelow rest ∧ SameLimits writeSet t t' fun _ => t.throttled := by
  induction sps with
  | nil => exact fun _ t _ h => .pure ⟨h.mono (Nat.le_add_left _ _), .refl t⟩
  | cons sp sps ih =>
    intro hnodup t hb h
    obtain ⟨hsp, hnodup⟩ := List.nodup_cons.1 hnodup
    rw [readyAmong_cons] at h
    refine .getStream_bind fun st hst => .ite (fun hready => ?_) fun hnot => ?_
    swap
    · rw [if_neg fun hr => hnot ((readyAt_eq hst).1 hr)] at h
      exact ih hnodup t hb h
    rw [if_pos ((readyAt_eq hst).2 hready), Nat.add_right_comm] at h
    have hreach := h.notReached (Nat.succ_pos _)
    refine .bind (.getTest_bind (.ite (fun hl => absurd hl hreach) fun _ => streamSnd_spares fuel hb hst)) ?_
    intro r t₁ hsnd
    have hsame := hsnd.same writeSet fun _ => t.throttled
    refine .ite (fun _ => ?_) fun hr => ?_
    · obtain ⟨⟨f, done, rfl, -, -⟩, -⟩ := id hsnd
      have hrest₀ : t.StaysBelow rest := h.mono (by omega)
      have hrest : { t with streams := t.streams.modify sp f, done := done }.StaysBelow rest :=
        hrest₀.same rfl rfl rfl
      exact .ite (fun _ => .pure ⟨hrest, hsame⟩) fun _ => .setIErrno_bind (.pure ⟨hrest, hsame⟩)
    have hcount := hsame.counted r
    have hbelow := h.sent hsnd (not_lt.1 hr)
    have hset : (t₁.count r).settings = t.settings := hcount.settings
    -- What follows the look at the light of the stream.
    have hk : ∀ t₂ (t₃ : IperfTest), SameLimits writeSet t t₂ (fun _ => t.throttled) →
        SameLimits writeSet t t₂ (· = sp) → t₂.StaysBelow (readyAmong writeSet t sps + rest) → Spares t₂
          (if multisend > 1 ∧ t₃.settings.bytes ≠ 0 ∧ t₃.bytesSent ≥ t₃.settings.bytes then
            pure none
          else if multisend > 1 ∧ t₃.settings.blocks ≠ 0 ∧ t₃.blocksSent ≥ t₃.settings.blocks then
            pure none
          else
            sendStreamsWith (guardedSnd fuel) writeSet multisend now sps) fun _ t' =>
          t'.StaysBelow rest ∧ SameLimits writeSet t t' fun _ => t.throttled := by
      intro t₂ t₃ hall hothers h₂
      have hrest := h₂.mono (Nat.le_add_left rest _)
      refine .ite (fun _ => .pure ⟨hrest, hall⟩) fun _ => .ite (fun _ => .pure ⟨hrest, hall⟩) fun _ => ?_
      rw [← hothers.readyAmong (fun i hi heq => hsp (heq ▸ hi))] at h₂
      refine (ih hnodup t₂ (hall.settings ▸ hb) h₂).mono fun _ t' h' => ⟨h'.1, hall.trans (h'.2.mono ?_)⟩
      intro _ hthrottled
      unfold IperfTest.throttled at hthrottled ⊢
      rw [← hall.settings]
      exact hthrottled
    refine .modifyTest_bind (.getTest_bind (.ite (fun hthrottled => ?_) fun _ => ?_))
    · rw [hset] at hthrottled
      refine .bind (iperfCheckThrottle_spares writeSet _ sp now) fun _ t₂ h₂ => ?_
      obtain ⟨hcheck, hbytes, hblocks⟩ := h₂
      refine hk t₂ _ (hcount.trans (hcheck.mono fun _ _ => hthrottled)) ?_ ?_
      · exact ((hsnd.same writeSet _).counted r).trans hcheck
      · exact hbelow.same hcheck.settings hbytes hblocks
    · exact hk _ _ hcount ((hsnd.same writeSet _).counted r) hbelow

/-- The rounds use up a block for every stream that is ready. -/
theorem sendRoundsWith_below (fuel rounds : Nat) : ∀ t, Blocks t.settings → (t.throttled → rounds ≤ 1) →
    t.StaysBelow (rounds * readyAmong writeSet t (List.range t.streams.length)) →
      Spares t (sendRoundsWith (guardedSnd fuel) writeSet rounds) fun _ _ => True := by
  induction rounds with
  | zero => exact fun t _ _ _ => .pure trivial
  | succ rounds ih =>
    intro t hb hone h
    rw [Nat.succ_mul, Nat.add_comm] at h
    have hround : ∀ now, Spares t (do
        let sps ← allStreams
        let r ← sendStreamsWith (guardedSnd fuel) writeSet (rounds + 1) now sps
        match r with
        | some r => pure (some r)
        | none => sendRoundsWith (guardedSnd fuel) writeSet rounds) fun _ _ => True := by
      intro now
      refine .allStreams_bind (.bind (sendStreamsWith_below fuel _ _ now _ List.nodup_range t hb h) ?_)
      rintro r t₁ ⟨hrest, hsame⟩
      cases r with
      | some r => exact .pure trivial
      | none =>
        have hthrottled : t₁.throttled = t.throttled := by
          unfold IperfTest.throttled
          rw [hsame.settings]
        refine ih t₁ (hsame.settings ▸ hb) (fun ht => ?_) ?_
        · have := hone (hthrottled ▸ ht)
          omega
        · by_cases ht : t.throttled
          · have hzero : rounds = 0 := by
              have := hone ht
              omega
            rw [hzero, Nat.zero_mul]
            exact fun j hj => absurd hj (Nat.not_lt_zero j)
          · rw [hsame.length, hsame.readyAmong fun _ _ => ht]
            exact hrest
    refine .getTest_bind (.ite (fun _ => ?_) fun _ => hround _)
    exact .gettimeofday_bind fun now => hround now

theorem rounds_throttled (h : t.throttled) : t.rounds ≤ 1 := by
  unfold IperfTest.rounds
  rw [if_neg (not_not.2 h.2), if_neg h.1]
  decide

/-- When as many blocks as there may be sends stay below the limit, it is respected. -/
theorem respectsLimit_of_below {m : Mem} (fuel : Nat) (hb : Blocks m.test.settings)
    (h : m.test.StaysBelow (m.test.rounds * readyAmong writeSet m.test (List.range m.test.streams.length))) :
    RespectsLimit fuel writeSet m := by
  have hspares : Spares m.test (iperfSendWith (guardedSnd fuel) writeSet) fun _ _ => True := by
    refine .getTest_bind (.bind (sendRoundsWith_below fuel _ m.test hb rounds_throttled h) fun r t₁ _ => ?_)
    cases r with
    | some r => exact .pure trivial
    | none =>
      refine .ite (fun _ => .gettimeofday_bind fun now => .allStreams_bind ?_) fun _ => .pure trivial
      have hall : ∀ sps t, Spares t (forAllStreams (fun sp => iperfCheckThrottle sp now) sps) fun _ _ => True := by
        intro sps
        induction sps with
        | nil => exact fun t => .pure trivial
        | cons sp sps ih =>
          exact fun t => .bind (iperfCheckThrottle_spares none t sp now) fun _ t' _ => ih t'
      exact .bind (hall _ _) fun _ _ _ => .pure trivial
  intro m' hr
  have hsafe := (hspares m () rfl).reach_free (fun _ _ _ => trivial) hr
  exact hsafe rfl

end Below

/-! ## Calls that go beyond it -/

section Beyond

variable {m : Mem} {sp n : Nat} {st : IperfStream}

/-- `Nwrite` may stop after any number of bytes. -/
theorem nwrite_may (fuel : Nat) (fd : Int) {buf : List UInt8} (hpos : 0 < n) (hle : n ≤ buf.length) :
    Goes anyObserver m () (nwrite (fuel + 2) fd buf) (.ret (n : Int), m, ()) := by
  obtain ⟨k, rfl⟩ : ∃ k, n = k + 1 := ⟨n - 1, by omega⟩
  have hne : buf ≠ [] := by
    rintro rfl
    exact absurd hle (by simp)
  unfold nwrite nwriteLoop
  rw [if_neg hne]
  refine .sys_bind (r := .write _ _) (Except.ok (k + 1)) trivial ?_
  show Goes _ m _ (nwriteLoop fd buf.length (fuel + 1) (buf.drop (k + 1))) _
  have hlength : (buf.drop (k + 1)).length = buf.length - (k + 1) := List.length_drop
  unfold nwriteLoop
  by_cases hdone : buf.drop (k + 1) = []
  · have hcount : (buf.length : Int) = (k + 1 : Nat) := by
      rw [hdone, List.length_nil] at hlength
      omega
    rw [if_pos hdone, hcount]
    exact .refl _
  · rw [if_neg hdone]
    refine .sys_bind (r := .write _ _) (Except.error .eintr) trivial ?_
    have hcount : (buf.length : Int) - (buf.drop (k + 1)).length = (k + 1 : Nat) := by omega
    dsimp only
    rw [hcount]
    exact .refl _

/-- `Nsendfile` may stop after any number of bytes. -/
theorem nsendfile_may (fuel : Nat) (fromFd toFd : Int) (count : Nat) (hpos : 0 < n) (hle : n ≤ count) :
    Goes anyObserver m () (nsendfile (fuel + 2) fromFd toFd count) (.ret (n : Int), m, ()) := by
  obtain ⟨k, rfl⟩ : ∃ k, n = k + 1 := ⟨n - 1, by omega⟩
  unfold nsendfile nsendfileLoop
  rw [if_neg (by omega)]
  refine .sys_bind (r := .sendfile _ _ _ _) (Except.ok (k + 1)) trivial ?_
  show Goes _ m _ (nsendfileLoop fromFd toFd count (fuel + 1) (count - (k + 1))) _
  unfold nsendfileLoop
  by_cases hdone : count - (k + 1) = 0
  · have hcount : (count : Int) = (k + 1 : Nat) := by omega
    rw [if_pos hdone, hcount]
    exact .refl _
  · rw [if_neg hdone]
    refine .sys_bind (r := .sendfile _ _ _ _) (Except.error .eintr) trivial ?_
    have hcount : (count : Int) - (count - (k + 1) : Nat) = (k + 1 : Nat) := by omega
    dsimp only
    rw [hcount]
    exact .refl _

/-- The buffer of a stream holds a block. -/
def IperfStream.Whole (S : IperfSettings) (st : IperfStream) : Prop := S.blksize.toNat ≤ st.buffer.length

theorem streamWrite_may (fuel : Nat) (hb : Blocks m.test.settings) (hst : m.test.streams[sp]? = some st)
    (hw : st.Whole m.test.settings) (hpos : 0 < n) (hle : (n : Int) ≤ m.test.settings.blksize) :
    Goes anyObserver m () (streamWrite (fuel + 2) sp) (.ret (n : Int), m, ()) := by
  have hsize := sizeT_of_isInt hb.pos hb.int
  have hlength : (st.buffer.take (sizeT m.test.settings.blksize)).length = m.test.settings.blksize.toNat := by
    rw [hsize, List.length_take]
    exact Nat.min_eq_left hw
  have hint : toInt (n : Int) = n := by
    have hlt := hb.int.2
    exact toInt_of_isInt ⟨by omega, by omega⟩
  refine .getTest_bind (.getStream_bind hst (.seq (nwrite_may fuel st.socket hpos (by omega)) ?_))
  rw [hint]
  exact .refl _

/-- A transfer and the counting of its bytes. -/
theorem counting_may (sp : Nat) {p : IperfProg Int} (hp : Goes anyObserver m () p (.ret (n : Int), m, ())) :
    ∃ m', Goes anyObserver m () (do
      let r ← p
      if r < 0 then
        pure r
      else do
        modifyStream sp (IperfStream.sent r)
        pure r) (.ret (n : Int), m', ()) := by
  refine ⟨{ m with test := { m.test with streams := m.test.streams.modify sp (IperfStream.sent n) } }, ?_⟩
  refine .seq hp (.ite (fun hr => ?_) fun _ => .modifyTest_bind (.refl _))
  omega

theorem protocolSend_may (fuel : Nat) (prot : ProtId) (hb : Blocks m.test.settings)
    (hst : m.test.streams[sp]? = some st) (hw : st.Whole m.test.settings) (hpos : 0 < n)
    (hle : (n : Int) ≤ m.test.settings.blksize) :
    ∃ m', Goes anyObserver m () (protocolSend (fuel + 2) prot sp) (.ret (n : Int), m', ()) := by
  cases prot with
  | tcp =>
    by_cases hz : m.test.zerocopy = true
    · have hfile := nsendfile_may (m := m) fuel st.bufferFd st.socket
        (sizeT m.test.settings.blksize) hpos (by
          rw [sizeT_of_isInt hb.pos hb.int]
          omega)
      obtain ⟨m', hm'⟩ := counting_may sp hfile
      refine ⟨m', .getTest_bind ?_⟩
      rw [if_pos hz]
      exact .getStream_bind hst hm'
    · obtain ⟨m', hm'⟩ := counting_may sp (streamWrite_may fuel hb hst hw hpos hle)
      refine ⟨m', .getTest_bind ?_⟩
      rw [if_neg hz]
      exact hm'
  | sctp => exact counting_may _ (streamWrite_may fuel hb hst hw hpos hle)
  | udp =>
    obtain ⟨m₁, hm₁⟩ : ∃ m₁ : Mem, m₁ = { m with test := { m.test with
      streams := m.test.streams.modify sp (IperfStream.stamp ⟨0, 0⟩) } } := ⟨_, rfl⟩
    have hset : m₁.test.settings = m.test.settings := by rw [hm₁]
    have hst₁ : m₁.test.streams[sp]? = some (st.stamp ⟨0, 0⟩) := by
      rw [hm₁, List.getElem?_modify, hst]
      simp
    have hw₁ : (st.stamp ⟨0, 0⟩).Whole m₁.test.settings := by
      rw [hset]
      exact hw.trans (overlay_length_le _ _)
    have hwrite := streamWrite_may fuel (hset ▸ hb) hst₁ hw₁ hpos (by rw [hset]; exact hle)
    obtain ⟨m', hm'⟩ := counting_may sp hwrite
    refine ⟨m', .gettimeofday_bind ⟨0, 0⟩ trivial (.modifyTest_bind ?_)⟩
    rw [hm₁] at hm'
    exact hm'

/-- A call of `sp->snd` may send any part of a block. -/
theorem streamSnd_may (fuel : Nat) (hb : Blocks m.test.settings) (hst : m.test.streams[sp]? = some st)
    (hw : st.Whole m.test.settings) (hpos : 0 < n) (hle : (n : Int) ≤ m.test.settings.blksize) :
    ∃ m', Goes anyObserver m () (streamSnd (fuel + 2) sp) (.ret (n : Int), m', ()) := by
  by_cases hdisk : st.diskfile = true
  · -- A read of the file that fails makes no difference.
    obtain ⟨m', hm'⟩ := protocolSend_may (m := { m with errno := .eagain }) fuel st.prot hb hst hw hpos hle
    refine ⟨m', .getStream_bind hst ?_⟩
    rw [if_pos hdisk]
    refine .getTest_bind (.getStream_bind hst ?_)
    exact .sys_bind (r := .read _ _) (Except.error .eagain) trivial (.setErrno_bind hm')
  · obtain ⟨m', hm'⟩ := protocolSend_may fuel st.prot hb hst hw hpos hle
    refine ⟨m', .getStream_bind hst ?_⟩
    rw [if_neg hdisk]
    exact hm'

/-- `iperf_check_throttle` returns. -/
theorem iperfCheckThrottle_may (now : Timeval) (hst : m.test.streams[sp]? = some st) :
    ∃ m', Goes anyObserver m () (iperfCheckThrottle sp now) (.ret (), m', ()) := by
  by_cases hdone : m.test.done = true
  · refine ⟨m, .getTest_bind ?_⟩
    rw [if_pos hdone]
    exact .refl _
  have hswitch : ∀ f g : IperfTest → IperfTest, ∃ m', Goes anyObserver m () (do
      modifyTest f
      modifyTest g) (.ret (), m', ()) := fun f g =>
    ⟨{ m with test := g (f m.test) }, .modifyTest_bind (Relation.ReflTransGen.single .write)⟩
  by_cases hlight : bitsPerSecond st now < m.test.settings.rate
  · obtain ⟨m', hm'⟩ := hswitch
      (fun t => { t with streams := t.streams.modify sp fun st => { st with greenLight := true } })
      fun t => { t with writeSet := insert st.socket t.writeSet }
    refine ⟨m', .getTest_bind ?_⟩
    rw [if_neg hdone]
    refine .getStream_bind hst ?_
    rw [if_pos hlight]
    exact hm'
  · obtain ⟨m', hm'⟩ := hswitch
      (fun t => { t with streams := t.streams.modify sp fun st => { st with greenLight := false } })
      fun t => { t with writeSet := t.writeSet.erase st.socket }
    refine ⟨m', .getTest_bind ?_⟩
    rw [if_neg hdone]
    refine .getStream_bind hst ?_
    rw [if_neg hlight]
    exact hm'

/-- There is a run of the program in which `sp->snd` is called when the limit is reached. -/
def Oversends {α : Type} (m : Mem) (p : IperfProg α) : Prop :=
  ∃ m', Goes anyObserver m () p (.halt Halt.emptyStreams, m', ())

theorem Oversends.bind {α β : Type} {p : IperfProg α} (h : Oversends m p) (f : α → IperfProg β) :
    Oversends m (p >>= f) := by
  obtain ⟨m', hm'⟩ := h
  exact ⟨m', .stop_bind f hm'⟩

/-- All buffers hold a block. -/
def IperfTest.Whole (t : IperfTest) : Prop := ∀ st ∈ t.streams, st.Whole t.settings

instance (t : IperfTest) : Decidable t.Whole :=
  inferInstanceAs (Decidable (∀ st ∈ t.streams, t.settings.blksize.toNat ≤ st.buffer.length))

theorem SameLimits.whole {writeSet : Option FdSet} {t t' : IperfTest} {changed : Nat → Prop}
    (h : SameLimits writeSet t t' changed) (hw : t.Whole) : t'.Whole := by
  intro st' hst'
  obtain ⟨i, hi⟩ := List.mem_iff_getElem?.1 hst'
  obtain ⟨st, hst, hle, -⟩ := h.streams i st' hi
  unfold IperfStream.Whole
  rw [h.settings]
  exact (hw st (List.mem_of_getElem? hst)).trans hle

theorem getElem?_of_lt {α : Type} {l : List α} {i : Nat} (h : i < l.length) : ∃ a, l[i]? = some a :=
  ⟨l[i], List.getElem?_eq_getElem h⟩

variable {writeSet : Option FdSet}

/-- There is a run of the program, which is a loop over streams of the test `t`, that goes beyond the limit, or one
after which the blocks of the rounds that are left, `rest` of them, go beyond it. -/
def GoesBeyond (writeSet : Option FdSet) (t : IperfTest) (rest : Nat) (m : Mem) (p : IperfProg (Option Int)) :
    Prop :=
  Oversends m p ∨ ∃ m', Goes anyObserver m () p (.ret none, m', ()) ∧ ¬ m'.test.StaysBelow rest ∧
    SameLimits writeSet t m'.test fun _ => t.throttled

/-- Where the run begins does not matter. -/
theorem GoesBeyond.after {t : IperfTest} {rest : Nat} {m m₁ : Mem} {p p₁ : IperfProg (Option Int)}
    (h : GoesBeyond writeSet t rest m₁ p₁)
    (hp : ∀ c, Goes anyObserver m₁ () p₁ c → Goes anyObserver m () p (c.1, c.2)) :
    GoesBeyond writeSet t rest m p := by
  rcases h with ⟨m', hm'⟩ | ⟨m', hm', hrest⟩
  · exact .inl ⟨m', hp _ hm'⟩
  · exact .inr ⟨m', hp _ hm', hrest⟩

theorem GoesBeyond.trans {t t₁ : IperfTest} {rest : Nat} {p : IperfProg (Option Int)}
    (h : GoesBeyond writeSet t₁ rest m p) (hsame : SameLimits writeSet t t₁ fun _ => t.throttled) :
    GoesBeyond writeSet t rest m p := by
  rcases h with hover | ⟨m', hm', hrest, hsame'⟩
  · exact .inl hover
  · refine .inr ⟨m', hm', hrest, hsame.trans (hsame'.mono fun _ ht => ?_)⟩
    unfold IperfTest.throttled at ht ⊢
    rw [← hsame.settings]
    exact ht

/-- The two tests of `iperf_send` after a send, when the counters are those of `t`. -/
def afterSend (multisend : Nat) (t : IperfTest) (next : IperfProg (Option Int)) : IperfProg (Option Int) :=
  if multisend > 1 ∧ t.settings.bytes ≠ 0 ∧ t.bytesSent ≥ t.settings.bytes then
    pure none
  else if multisend > 1 ∧ t.settings.blocks ≠ 0 ∧ t.blocksSent ≥ t.settings.blocks then
    pure none
  else
    next

/-- When the limit is reached the loop is left, but another round follows; in the last round the loop goes on. -/
theorem afterSend_beyond {t : IperfTest} {multisend rest : Nat} {next : IperfProg (Option Int)}
    (hrest : 1 < multisend → 0 < rest) (hsame : SameLimits writeSet t m.test fun _ => t.throttled)
    (hnext : GoesBeyond writeSet t rest m next) {t' : IperfTest} (hset : t'.settings = m.test.settings)
    (hbytes : t'.bytesSent = m.test.bytesSent) (hblocks : t'.blocksSent = m.test.blocksSent) :
    GoesBeyond writeSet t rest m (afterSend multisend t' next) := by
  have hreach : m.test.limitReached → 1 < multisend → ¬ m.test.StaysBelow rest := fun hl hmulti =>
    not_staysBelow hl (hrest hmulti)
  unfold afterSend
  rw [hset, hbytes, hblocks]
  by_cases hc₁ : multisend > 1 ∧ m.test.settings.bytes ≠ 0 ∧ m.test.bytesSent ≥ m.test.settings.bytes
  · rw [if_pos hc₁]
    exact .inr ⟨m, .refl _, hreach (.inl hc₁.2) hc₁.1, hsame⟩
  rw [if_neg hc₁]
  by_cases hc₂ : multisend > 1 ∧ m.test.settings.blocks ≠ 0 ∧ m.test.blocksSent ≥ m.test.settings.blocks
  · rw [if_pos hc₂]
    exact .inr ⟨m, .refl _, hreach (.inr hc₂.2) hc₂.1, hsame⟩
  rw [if_neg hc₂]
  exact hnext

/-- A send of the next block, and what the loop does then. -/
theorem sendStreamsWith_step (fuel multisend : Nat) (now : Timeval) (sps : List Nat) {m₁ : Mem}
    (hst : m.test.streams[sp]? = some st) (hready : st.greenLight = true ∧ ∀ ws ∈ writeSet, st.socket ∈ ws)
    (hnot : ¬ m.test.limitReached)
    (hsnd : Goes anyObserver m () (streamSnd (fuel + 2) sp) (.ret (n : Int), m₁, ()))
    {c : IperfProg (Option Int) × Mem × Unit}
    (hc : Goes anyObserver { m₁ with test := m₁.test.count n } () (do
      let t ← getTest
      if t.settings.rate ≠ 0 ∧ t.settings.burst = 0 then iperfCheckThrottle sp now
      afterSend multisend t (sendStreamsWith (guardedSnd (fuel + 2)) writeSet multisend now sps)) c) :
    Goes anyObserver m () (sendStreamsWith (guardedSnd (fuel + 2)) writeSet multisend now (sp :: sps)) c := by
  refine .getStream_bind hst ?_
  rw [if_pos hready]
  have hguarded : Goes anyObserver m () (guardedSnd (fuel + 2) sp) (.ret (n : Int), m₁, ()) := by
    refine .getTest_bind ?_
    rw [if_neg hnot]
    exact hsnd
  refine .seq hguarded (.ite (fun hr => ?_) fun _ => .modifyTest_bind hc)
  omega

/-- The loop over the streams, when full blocks go beyond the limit. -/
theorem sendStreamsWith_beyond (writeSet : Option FdSet) (fuel multisend rest : Nat) (now : Timeval)
    (hrest : 1 < multisend → 0 < rest) (sps : List Nat) : sps.Nodup →
    ∀ m : Mem, Blocks m.test.settings → m.test.Whole → (∀ sp ∈ sps, sp < m.test.streams.length) →
      ¬ m.test.StaysBelow (readyAmong writeSet m.test sps + rest) →
      GoesBeyond writeSet m.test rest m (sendStreamsWith (guardedSnd (fuel + 2)) writeSet multisend now sps) := by
  induction sps with
  | nil =>
    intro _ m _ _ _ h
    refine .inr ⟨m, .refl _, ?_, .refl _⟩
    rwa [show readyAmong writeSet m.test [] = 0 from rfl, Nat.zero_add] at h
  | cons sp sps ih =>
    intro hnodup m hb hw hlt h
    obtain ⟨hsp, hnodup⟩ := List.nodup_cons.1 hnodup
    obtain ⟨st, hst⟩ := getElem?_of_lt (hlt sp List.mem_cons_self)
    have hlater : ∀ i ∈ sps, i < m.test.streams.length := fun i hi => hlt i (List.mem_cons_of_mem _ hi)
    rw [readyAmong_cons] at h
    by_cases hready : st.greenLight = true ∧ ∀ ws ∈ writeSet, st.socket ∈ ws
    swap
    · -- Nothing is sent to this stream.
      rw [if_neg fun hr => hready ((readyAt_eq hst).1 hr)] at h
      refine (ih hnodup m hb hw hlater h).after fun c hc => .getStream_bind hst ?_
      rw [if_neg hready]
      exact hc
    rw [if_pos ((readyAt_eq hst).2 hready), Nat.add_right_comm] at h
    by_cases hreached : m.test.limitReached
    · refine .inl ⟨m, .getStream_bind hst ?_⟩
      rw [if_pos hready]
      refine .stop_bind _ (.getTest_bind ?_)
      rw [if_pos hreached]
      exact .refl _
    -- The next block is sent as a whole, or up to the limit.
    obtain ⟨hone, hle⟩ := nextBlock_pos hb.pos hreached
    obtain ⟨n, hn⟩ : ∃ n : Nat, m.test.nextBlock = n := ⟨m.test.nextBlock.toNat, by omega⟩
    obtain ⟨m₁, hm₁⟩ := streamSnd_may fuel hb hst (hw st (List.mem_of_getElem? hst)) (n := n) (by omega) (by omega)
    have hsnd : Snd m.test sp m.test.nextBlock m₁.test := by
      rw [hn]
      exact (streamSnd_snd (fuel + 2) hb.pos hb.int).returns hm₁
    have hnear := nextBlock_nearer hb.pos h hreached hsnd
    rw [hn] at hsnd hnear
    obtain ⟨m₂, hm₂⟩ : ∃ m₂ : Mem, m₂ = { m₁ with test := m₁.test.count n } := ⟨_, rfl⟩
    have hall : SameLimits writeSet m.test m₂.test fun _ => m.test.throttled :=
      hm₂ ▸ (hsnd.same writeSet _).counted n
    have hothers : SameLimits writeSet m.test m₂.test (· = sp) := hm₂ ▸ (hsnd.same writeSet _).counted n
    have hnear₂ : ¬ m₂.test.StaysBelow (readyAmong writeSet m.test sps + rest) := hm₂ ▸ hnear
    have hk : ∀ m₃ : Mem, SameLimits writeSet m.test m₃.test (fun _ => m.test.throttled) →
        SameLimits writeSet m.test m₃.test (· = sp) → m₂.test.bytesSent = m₃.test.bytesSent →
        m₂.test.blocksSent = m₃.test.blocksSent → GoesBeyond writeSet m.test rest m₃
          (afterSend multisend m₂.test
            (sendStreamsWith (guardedSnd (fuel + 2)) writeSet multisend now sps)) := by
      intro m₃ hall₃ hothers₃ hbytes hblocks
      have hset : m₂.test.settings = m₃.test.settings := hall.settings.trans hall₃.settings.symm
      have hnear₃ : ¬ m₃.test.StaysBelow (readyAmong writeSet m₃.test sps + rest) := by
        rw [hothers₃.readyAmong fun i hi heq => hsp (heq ▸ hi)]
        exact fun hbelow => hnear₂ (hbelow.same hset hbytes hblocks)
      refine afterSend_beyond hrest hall₃ (.trans ?_ hall₃) hset hbytes hblocks
      refine ih hnodup m₃ (hall₃.settings ▸ hb) (hall₃.whole hw) (fun i hi => ?_) hnear₃
      rw [hall₃.length]
      exact hlater i hi
    by_cases hthrottled : m₂.test.settings.rate ≠ 0 ∧ m₂.test.settings.burst = 0
    · obtain ⟨st₂, hst₂⟩ := getElem?_of_lt (l := m₂.test.streams) (i := sp) (by
        rw [hall.length]
        exact hlt sp List.mem_cons_self)
      obtain ⟨m₃, hm₃⟩ := iperfCheckThrottle_may now hst₂
      obtain ⟨hcheck, hbytes, hblocks⟩ := (iperfCheckThrottle_same m₂.test sp now writeSet).returns hm₃
      have ht : m.test.throttled := by
        unfold IperfTest.throttled
        rw [← hall.settings]
        exact hthrottled
      refine (hk m₃ (hall.trans (hcheck.mono fun _ _ => ht)) (hothers.trans hcheck) hbytes.symm
        hblocks.symm).after fun c hc => ?_
      refine sendStreamsWith_step fuel multisend now sps hst hready hreached hm₁ ?_
      rw [← hm₂]
      refine .getTest_bind ?_
      rw [if_pos hthrottled]
      exact .seq hm₃ hc
    · refine (hk m₂ hall hothers rfl rfl).after fun c hc => ?_
      refine sendStreamsWith_step fuel multisend now sps hst hready hreached hm₁ ?_
      rw [← hm₂]
      refine .getTest_bind ?_
      rw [if_neg hthrottled]
      exact hc

theorem staysBelow_zero (t : IperfTest) : t.StaysBelow 0 := fun j hj => absurd hj (Nat.not_lt_zero j)

/-- The rounds, when full blocks go beyond the limit. -/
theorem sendRoundsWith_beyond (fuel rounds : Nat) : ∀ m : Mem, Blocks m.test.settings → m.test.Whole →
    (m.test.throttled → rounds ≤ 1) →
    ¬ m.test.StaysBelow (rounds * readyAmong writeSet m.test (List.range m.test.streams.length)) →
    Oversends m (sendRoundsWith (guardedSnd (fuel + 2)) writeSet rounds) := by
  induction rounds with
  | zero =>
    intro m _ _ _ h
    rw [Nat.zero_mul] at h
    exact absurd (staysBelow_zero _) h
  | succ rounds ih =>
    intro m hb hw hone h
    obtain ⟨n, hn⟩ : ∃ n, n = readyAmong writeSet m.test (List.range m.test.streams.length) := ⟨_, rfl⟩
    rw [← hn] at h
    have hpos : 0 < n := by
      rcases Nat.eq_zero_or_pos n with hz | hpos
      · rw [hz, Nat.mul_zero] at h
        exact absurd (staysBelow_zero _) h
      · exact hpos
    rw [Nat.succ_mul, Nat.add_comm, hn, ← hn] at h
    have hround : ∀ now, Oversends m (do
        let sps ← allStreams
        let r ← sendStreamsWith (guardedSnd (fuel + 2)) writeSet (rounds + 1) now sps
        match r with
        | some r => pure (some r)
        | none => sendRoundsWith (guardedSnd (fuel + 2)) writeSet rounds) := by
      intro now
      have hloop := sendStreamsWith_beyond writeSet fuel (rounds + 1) (rounds * n) now
        (fun hlt => Nat.mul_pos (Nat.lt_of_succ_lt_succ hlt) hpos) _ List.nodup_range m hb hw
        (fun i hi => List.mem_range.1 hi) (hn ▸ h)
      rcases hloop with hover | ⟨m', hm', hrest, hsame⟩
      · obtain ⟨m', hm'⟩ := hover.bind fun r => match r with
          | some r => pure (some r)
          | none => sendRoundsWith (guardedSnd (fuel + 2)) writeSet rounds
        exact ⟨m', .allStreams_bind hm'⟩
      have hnot : ¬ m.test.throttled := by
        intro ht
        have hzero : rounds = 0 := by
          have := hone ht
          omega
        rw [hzero, Nat.zero_mul] at hrest
        exact hrest (staysBelow_zero _)
      have hnext : Oversends m' (sendRoundsWith (guardedSnd (fuel + 2)) writeSet rounds) := by
        refine ih m' (hsame.settings ▸ hb) (hsame.whole hw) (fun ht => ?_) ?_
        · unfold IperfTest.throttled at ht
          rw [hsame.settings] at ht
          exact absurd ht hnot
        · rw [hsame.length, hsame.readyAmong fun _ _ => hnot, ← hn]
          exact hrest
      obtain ⟨m'', hm''⟩ := hnext
      exact ⟨m'', .allStreams_bind (.seq hm' hm'')⟩
    by_cases ht : m.test.settings.rate ≠ 0 ∧ m.test.settings.burst = 0
    · obtain ⟨m', hm'⟩ := hround ⟨0, 0⟩
      refine ⟨m', .getTest_bind ?_⟩
      rw [if_pos ht]
      exact .gettimeofday_bind ⟨0, 0⟩ trivial hm'
    · obtain ⟨m', hm'⟩ := hround ⟨0, 0⟩
      refine ⟨m', .getTest_bind ?_⟩
      rw [if_neg ht]
      exact hm'

end Beyond

/-- The streams that `iperf_send` sends to. -/
def IperfTest.readyCount (writeSet : Option FdSet) (t : IperfTest) : Nat :=
  t.streams.countP (IperfStream.ready writeSet)

theorem readyAmong_range (writeSet : Option FdSet) (t : IperfTest) :
    readyAmong writeSet t (List.range t.streams.length) = t.readyCount writeSet := by
  have hmap : (List.range t.streams.length).map (fun i => t.streams[i]?) = t.streams.map some := by
    refine List.ext_getElem? fun i => ?_
    rw [List.getElem?_map, List.getElem?_map]
    by_cases hi : i < t.streams.length
    · rw [List.getElem?_range hi, Option.map_some, List.getElem?_eq_getElem hi, Option.map_some]
    · rw [List.getElem?_eq_none (by rw [List.length_range]; omega), List.getElem?_eq_none (by omega)]
      rfl
  have hcount := congrArg (List.countP fun o : Option IperfStream => o.any (IperfStream.ready writeSet)) hmap
  rw [List.countP_map, List.countP_map] at hcount
  exact hcount

/-- **The amount that is sent.** `iperf_send` makes no call of `sp->snd` when the limit is reached, whatever its calls
of `sp->snd` report, exactly if as many full blocks as there may be sends, less one, stay below the limit. -/
theorem limit_respected_iff {m : Mem} {writeSet : Option FdSet} {fuel : Nat} (hfuel : 2 ≤ fuel)
    (hb : Blocks m.test.settings) (hw : m.test.Whole) :
    RespectsLimit fuel writeSet m ↔ m.test.StaysBelow (m.test.rounds * m.test.readyCount writeSet) := by
  rw [← readyAmong_range]
  constructor
  · intro h
    by_contra hbeyond
    obtain ⟨k, rfl⟩ : ∃ k, fuel = k + 2 := ⟨fuel - 2, by omega⟩
    obtain ⟨m', hm'⟩ := sendRoundsWith_beyond k _ m hb hw rounds_throttled hbeyond
    have hover : Goes anyObserver m () (iperfSendWith (guardedSnd (k + 2)) writeSet)
        (.halt Halt.emptyStreams, m', ()) := .getTest_bind (.stop_bind _ hm')
    exact h m' hover
  · exact respectsLimit_of_below fuel hb

/-- A sender of blocks of 4 bytes over one stream, which is to send `bytes` bytes; it may send twice in a call of
`iperf_send`. -/
def amountSender (bytes : UInt64) : IperfTest :=
  let t := iperfSetTestRole .client mainTest
  { t with
    multisend := 2
    settings := { t.settings with blksize := 4, bytes := bytes }
    streams := [{ newStream t 3 4 (-1) [1, 2, 3, 4] with greenLight := true }] }

/-- With 5 bytes to send, the second block is sent while there is something left. -/
theorem limit_respected_five : RespectsLimit 2 none (Mem.start (amountSender 5)) := by
  refine (limit_respected_iff (by decide) ⟨by decide, by decide⟩ (by decide)).2 ?_
  decide

/-- With 4 bytes to send, a second block is sent after the first one has reached the limit. -/
theorem limit_exceeded_four : ¬ (amountSender 4).limitReached ∧
    ¬ RespectsLimit 2 none (Mem.start (amountSender 4)) ∧
    (Prog.after (fun _ => Req.quiet) 100 (iperfSend 2 none) (Mem.start (amountSender 4))).test.bytesSent = 8 := by
  refine ⟨by decide, fun h => ?_, by decide⟩
  exact h _ (Prog.reach_halt_of_drive (fun _ => Req.quiet) 100 (by decide))

end Iperf
