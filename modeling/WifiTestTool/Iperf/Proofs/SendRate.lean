import WifiTestTool.Iperf.Proofs.CallRuns
import WifiTestTool.Iperf.Proofs.SendCalls
import Mathlib.Tactic.Linarith

/-!
# The rate limit

With a rate limit a stream is only sent to while its green light is on. The light is computed by
`iperf_check_throttle`, from the time that `iperf_send` took before the send or after the whole burst, or from
the time of the timer; it is used at later times. A stream whose light is on has sent no more than its rate
allows, so whatever one round of `iperf_send` adds to that is the most that it can be ahead by.
-/

namespace Iperf

open Reactive

/-! ## Times and bits -/

/-- A time in microseconds. -/
def Timeval.usecs (tv : Timeval) : Int := tv.tvSec * 1000000 + tv.tvUsec

/-- A time in seconds. -/
def Timeval.seconds (tv : Timeval) : ℚ := tv.tvSec + tv.tvUsec / 1000000

theorem seconds_eq (tv : Timeval) : tv.seconds = tv.usecs / 1000000 := by
  unfold Timeval.seconds Timeval.usecs
  push_cast
  ring

theorem timevalDiff_eq {start now : Timeval} (h : start.usecs ≤ now.usecs) :
    timevalDiff start now = (now.usecs - start.usecs : Int) / 1000000 := by
  have hcast : (start.usecs : ℚ) ≤ now.usecs := by exact_mod_cast h
  have hdiff : timevalDiff start now =
      if start.seconds - now.seconds < 0 then -(start.seconds - now.seconds)
      else start.seconds - now.seconds := rfl
  rw [hdiff, seconds_eq, seconds_eq]
  push_cast
  split
  · ring
  · linarith

/-- The bits of a block, in millionths. -/
def IperfSettings.block (S : IperfSettings) : Int := 8000000 * S.blksize

/-- The bits of a round of `iperf_send`, in millionths. -/
def IperfSettings.round (S : IperfSettings) : Int := S.block * max 1 S.burst

/-- What `iperf_check_throttle` computes, as long as it fits into 64 bits. -/
theorem bitsPerSecond_lt {st : IperfStream} {now : Timeval} {rate : UInt64}
    (hnow : st.result.startTime.usecs < now.usecs) (hbits : st.result.bytesSent.toNat * 8 < 2 ^ 64)
    (hrate : 8000000 * (st.result.bytesSent.toNat : Int) < 2 ^ 64 * (now.usecs - st.result.startTime.usecs)) :
    bitsPerSecond st now < rate ↔
      8000000 * (st.result.bytesSent.toNat : Int) < rate.toNat * (now.usecs - st.result.startTime.usecs) := by
  obtain ⟨d, hd⟩ : ∃ d, d = now.usecs - st.result.startTime.usecs := ⟨_, rfl⟩
  obtain ⟨b, hb⟩ : ∃ b, b = st.result.bytesSent.toNat := ⟨_, rfl⟩
  have hdpos : (0 : ℚ) < d := by exact_mod_cast (by omega : 0 < d)
  have hmul : (st.result.bytesSent * 8).toNat = b * 8 := by
    rw [UInt64.toNat_mul, hb]
    exact Nat.mod_eq_of_lt hbits
  obtain ⟨q, hq⟩ : ∃ q : ℚ, q = (b * 8 : Nat) / ((d : ℚ) / 1000000) := ⟨_, rfl⟩
  have hqd : q * d = 8000000 * b := by
    rw [hq]
    field_simp
    push_cast
    ring
  have hq0 : 0 ≤ q := by
    rw [hq]
    positivity
  have hlt : ∀ n : Nat, ⌊q⌋ < (n : Int) ↔ 8000000 * (b : Int) < n * d := by
    intro n
    rw [Int.floor_lt]
    have hcast : (8000000 * (b : Int) < n * d) ↔ (8000000 * b : ℚ) < n * d := by exact_mod_cast Iff.rfl
    rw [hcast, ← hqd]
    exact (mul_lt_mul_iff_left₀ hdpos).symm
  have hfloor : 0 ≤ ⌊q⌋ := Int.floor_nonneg.2 hq0
  have hfit : ⌊q⌋ < (2 ^ 64 : Nat) := by
    rw [hlt, hb, hd]
    exact hrate
  have hbps : bitsPerSecond st now = UInt64.ofInt ⌊q⌋ := by
    unfold bitsPerSecond truncRat
    rw [hmul, timevalDiff_eq hnow.le, ← hd, ← hq, if_pos hq0]
  have htoNat : (bitsPerSecond st now).toNat = ⌊q⌋.toNat := by
    rw [hbps]
    show (⌊q⌋ % 2 ^ 64).toNat % 2 ^ 64 = _
    omega
  rw [UInt64.lt_iff_toNat_lt, htoNat, ← hb, ← hd, ← hlt]
  omega

/-! ## The pace of a stream -/

/-- At the time `T` the stream has not sent more than it may: with its green light on it is ahead of its rate
by `slack` at most, and otherwise by a round. Up to the horizon this fits into 64 bits. -/
structure Pace (S : IperfSettings) (horizon T slack : Int) (st : IperfStream) : Prop where
  started : st.result.startTime.usecs ≤ T
  fits : S.rate.toNat * (horizon - st.result.startTime.usecs) + S.round < 2 ^ 64 * 1000000
  bound : 8000000 * (st.result.bytesSent.toNat : Int) ≤
    S.rate.toNat * (T - st.result.startTime.usecs) + S.round
  green : st.greenLight = true → 8000000 * (st.result.bytesSent.toNat : Int) ≤
    S.rate.toNat * (T - st.result.startTime.usecs) + slack

section Pace

variable {S : IperfSettings} {horizon T T' slack slack' : Int} {st st' : IperfStream}

/-- The allowance of a stream grows with time. -/
theorem allowance_mono (S : IperfSettings) {a b c : Int} (h : a ≤ b) :
    (S.rate.toNat : Int) * (a - c) ≤ S.rate.toNat * (b - c) :=
  mul_le_mul_of_nonneg_left (by omega) (Int.natCast_nonneg _)

theorem Pace.later (h : Pace S horizon T slack st) (hT : T ≤ T') : Pace S horizon T' slack st := by
  have hmono := allowance_mono S (c := st.result.startTime.usecs) hT
  refine ⟨h.started.trans hT, h.fits, ?_, fun hg => ?_⟩
  · have := h.bound
    omega
  · have := h.green hg
    omega

theorem Pace.loosen (h : Pace S horizon T slack st) (hs : slack ≤ slack') : Pace S horizon T slack' st := by
  refine ⟨h.started, h.fits, h.bound, fun hg => ?_⟩
  have := h.green hg
  omega

/-- The bits of a stream that keeps its pace can be computed with 64 bits. -/
theorem Pace.bits (h : Pace S horizon T slack st) (hT : T ≤ horizon) :
    st.result.bytesSent.toNat * 8 < 2 ^ 64 := by
  have hmono := allowance_mono S (c := st.result.startTime.usecs) hT
  have hbound := h.bound
  have hfits := h.fits
  omega

/-- A stream with its green light on sends a block. -/
theorem Pace.send (h : Pace S horizon T slack st) (hT : T ≤ horizon) (hgreen : st.greenLight = true) {r : Int}
    (hr : 0 ≤ r) (hblock : r ≤ S.blksize) (hround : slack + S.block ≤ S.round)
    (hstart : st'.result.startTime = st.result.startTime)
    (hbytes : st'.result.bytesSent = st.result.bytesSent + UInt64.ofInt r) :
    Pace S horizon T (slack + S.block) st' := by
  have hmono := allowance_mono S (c := st.result.startTime.usecs) hT
  have hahead := h.green hgreen
  have hfits := h.fits
  have hblk : S.block = 8000000 * S.blksize := rfl
  have hr64 : (UInt64.ofInt r).toNat = (r % 2 ^ 64).toNat % 2 ^ 64 := rfl
  have hsum : st'.result.bytesSent.toNat = st.result.bytesSent.toNat + r.toNat := by
    rw [hbytes, UInt64.toNat_add, hr64]
    omega
  refine ⟨?_, ?_, ?_, fun _ => ?_⟩
  · rw [hstart]
    exact h.started
  · rw [hstart]
    exact h.fits
  · rw [hstart, hsum]
    push_cast
    omega
  · rw [hstart, hsum]
    push_cast
    omega

/-- A stream whose green light was computed anew keeps its pace. -/
theorem Pace.check {now : Timeval} (h : Pace S horizon now.usecs slack st) (hT : now.usecs ≤ horizon)
    (hstarted : st.result.startTime.usecs < now.usecs) (hrate : S.rate.toNat + S.round < 2 ^ 64)
    (hround : 0 ≤ S.round) (hstart : st'.result = st.result)
    (hgreen : st'.greenLight = true → bitsPerSecond st now < S.rate) : Pace S horizon now.usecs 0 st' := by
  refine ⟨hstart ▸ h.started, hstart ▸ h.fits, hstart ▸ h.bound, fun hg => ?_⟩
  rw [hstart]
  have hquotient : 8000000 * (st.result.bytesSent.toNat : Int) <
      2 ^ 64 * (now.usecs - st.result.startTime.usecs) := by
    have hbound := h.bound
    have hlong : S.round ≤ S.round * (now.usecs - st.result.startTime.usecs) :=
      le_mul_of_one_le_right hround (by omega)
    have hlt : ((S.rate.toNat : Int) + S.round) * (now.usecs - st.result.startTime.usecs) <
        2 ^ 64 * (now.usecs - st.result.startTime.usecs) :=
      mul_lt_mul_of_pos_right hrate (by omega)
    rw [add_mul] at hlt
    omega
  have hlt := (bitsPerSecond_lt hstarted (h.bits hT) hquotient).1 (hgreen hg)
  omega

end Pace

/-! ## The pace of a test -/

/-- The sockets of the streams are different, and the lights of the streams are those of the write set. -/
structure Lit (t : IperfTest) : Prop where
  sockets : ∀ (i j : Nat) (st st' : IperfStream), t.streams[i]? = some st → t.streams[j]? = some st' →
    st.socket = st'.socket → i = j
  agree : ∀ (i : Nat) (st : IperfStream), t.streams[i]? = some st →
    (st.greenLight = true ↔ st.socket ∈ t.writeSet)

/-- Unless the test is done, its streams keep their pace. -/
structure Paced (S : IperfSettings) (horizon T : Int) (slack : Nat → Int) (t : IperfTest) : Prop where
  settings : t.settings = S
  lit : t.done = false → Lit t
  pace : t.done = false → ∀ i st, t.streams[i]? = some st → Pace S horizon T (slack i) st

/-- All streams were started before the time `now`. -/
def StartedBefore (now : Timeval) (t : IperfTest) : Prop :=
  ∀ st ∈ t.streams, st.result.startTime.usecs < now.usecs

section Paced

variable {S : IperfSettings} {horizon T T' : Int} {slack slack' : Nat → Int} {t t' : IperfTest} {sp : Nat}
  {r : Int} {st : IperfStream}

theorem Paced.later (h : Paced S horizon T slack t) (hT : T ≤ T') : Paced S horizon T' slack t :=
  ⟨h.settings, h.lit, fun hd i st hst => (h.pace hd i st hst).later hT⟩

theorem Paced.loosen (h : Paced S horizon T slack t) (hs : ∀ i < t.streams.length, slack i ≤ slack' i) :
    Paced S horizon T slack' t := by
  refine ⟨h.settings, h.lit, fun hd i st hst => (h.pace hd i st hst).loosen (hs i ?_)⟩
  obtain ⟨hlt, -⟩ := List.getElem?_eq_some_iff.1 hst
  exact hlt

theorem Snd.started {now : Timeval} (h : Snd t sp r t') (hn : StartedBefore now t) : StartedBefore now t' := by
  obtain ⟨⟨f, done, rfl, -, hf⟩, -⟩ := h
  intro st hst
  obtain ⟨i, hi⟩ := List.mem_iff_getElem?.1 hst
  obtain ⟨st₀, hst₀, rfl⟩ := getElem?_modify_some hi
  have hlt := hn st₀ (List.mem_of_getElem? hst₀)
  by_cases hsp : sp = i
  · rw [if_pos hsp, (hf st₀).startTime]
    exact hlt
  · rw [if_neg hsp]
    exact hlt

/-- A call of `sp->snd` leaves the lights alone. -/
theorem Snd.lit (h : Snd t sp r t') (hl : Lit t) : Lit t' := by
  obtain ⟨⟨f, done, rfl, -, hf⟩, -⟩ := h
  have hkeep : ∀ {i : Nat} {st st₀ : IperfStream}, (st = if sp = i then f st₀ else st₀) →
      st.socket = st₀.socket ∧ st.greenLight = st₀.greenLight := by
    intro i st st₀ hst
    by_cases hsp : sp = i
    · rw [hst, if_pos hsp]
      exact ⟨(hf st₀).socket, (hf st₀).greenLight⟩
    · rw [hst, if_neg hsp]
      exact ⟨rfl, rfl⟩
  refine ⟨fun i j st st' hst hst' hsock => ?_, fun i st hst => ?_⟩
  · obtain ⟨a, ha, hsa⟩ := getElem?_modify_some hst
    obtain ⟨b, hb, hsb⟩ := getElem?_modify_some hst'
    rw [(hkeep hsa).1, (hkeep hsb).1] at hsock
    exact hl.sockets i j a b ha hb hsock
  · obtain ⟨a, ha, hsa⟩ := getElem?_modify_some hst
    rw [(hkeep hsa).1, (hkeep hsa).2]
    exact hl.agree i a ha

/-- A call of `sp->snd` that fails. -/
theorem Paced.failed (h : Paced S horizon T slack t) (hsnd : Snd t sp r t') (hr : r < 0) :
    Paced S horizon T slack t' := by
  obtain ⟨⟨f, done, rfl, hdone, hf⟩, -⟩ := id hsnd
  have hnot : done = false → t.done = false := fun hd => by
    by_contra hne
    rw [hdone (by simpa using hne)] at hd
    cases hd
  refine ⟨h.settings, fun hd => hsnd.lit (h.lit (hnot hd)), fun hd i st hst => ?_⟩
  obtain ⟨a, ha, rfl⟩ := getElem?_modify_some hst
  have hpace := h.pace (hnot hd) i a ha
  obtain ⟨-, hgreen, hstart, hbytes, -⟩ := hf a
  rw [if_pos hr] at hbytes
  by_cases hsp : sp = i
  · rw [if_pos hsp]
    refine ⟨?_, ?_, ?_, ?_⟩
    · rw [hstart]
      exact hpace.started
    · rw [hstart]
      exact hpace.fits
    · rw [hstart, hbytes]
      exact hpace.bound
    · rw [hstart, hbytes, hgreen]
      exact hpace.green
  · rw [if_neg hsp]
    exact hpace

/-- A call of `sp->snd` on a stream with its green light on. -/
theorem Paced.sent (h : Paced S horizon T slack t) (hsnd : Snd t sp r t') (hT : T ≤ horizon) (hr : ¬ r < 0)
    (hst : t.streams[sp]? = some st) (hgreen : st.greenLight = true) (hround : slack sp + S.block ≤ S.round) :
    Paced S horizon T (Function.update slack sp (slack sp + S.block)) (t'.count r) := by
  obtain ⟨⟨f, done, rfl, hdone, hf⟩, hle⟩ := id hsnd
  have hnot : done = false → t.done = false := fun hd => by
    by_contra hne
    rw [hdone (by simpa using hne)] at hd
    cases hd
  refine ⟨h.settings, fun hd => ?_, fun hd i st' hst' => ?_⟩
  · obtain ⟨hsock, hagree⟩ := hsnd.lit (h.lit (hnot hd))
    exact ⟨hsock, hagree⟩
  obtain ⟨a, ha, rfl⟩ := getElem?_modify_some hst'
  have hpace := h.pace (hnot hd) i a ha
  by_cases hsp : sp = i
  · subst hsp
    obtain rfl : a = st := Option.some.inj (ha.symm.trans hst)
    obtain ⟨-, -, hstart, hbytes, -⟩ := hf a
    rw [if_neg hr] at hbytes
    rw [h.settings] at hle
    rw [if_pos rfl, Function.update_self]
    exact hpace.send hT hgreen (by omega) hle hround hstart hbytes
  · rw [if_neg hsp, Function.update_of_ne (Ne.symm hsp)]
    exact hpace

/-- The lights after one of them was switched. -/
theorem Lit.switch (hl : Lit t) (hst : t.streams[sp]? = some st) (green : Bool) :
    Lit { t with
      streams := t.streams.modify sp fun st => { st with greenLight := green }
      writeSet := if green then insert st.socket t.writeSet else t.writeSet.erase st.socket } := by
  refine ⟨fun i j st₁ st₂ h₁ h₂ hsock => ?_, fun i st₁ h₁ => ?_⟩
  · obtain ⟨a, ha, rfl⟩ := getElem?_modify_some h₁
    obtain ⟨b, hb, rfl⟩ := getElem?_modify_some h₂
    refine hl.sockets i j a b ha hb ?_
    split at hsock <;> split at hsock <;> exact hsock
  · obtain ⟨a, ha, rfl⟩ := getElem?_modify_some h₁
    by_cases hsp : sp = i
    · subst hsp
      obtain rfl : a = st := Option.some.inj (ha.symm.trans hst)
      rw [if_pos rfl]
      cases green <;> simp
    · have hne : a.socket ≠ st.socket := fun heq => hsp (hl.sockets i sp a st ha hst heq).symm
      have hagree := hl.agree i a ha
      rw [if_neg hsp, hagree]
      cases green <;> simp [hne]

/-- `iperf_check_throttle` computes the light of a stream anew. -/
theorem Paced.check {now : Timeval} (h : Paced S horizon now.usecs slack t) (sp : Nat)
    (hn : StartedBefore now t) (hT : now.usecs ≤ horizon) (hrate : S.rate.toNat + S.round < 2 ^ 64) (hround : 0 ≤ S.round) :
    Ends t (iperfCheckThrottle sp now) fun _ t' =>
      Paced S horizon now.usecs (Function.update slack sp 0) t' ∧ StartedBefore now t' := by
  refine .getTest_bind (.ite (fun hd => .pure ⟨⟨h.settings, ?_, ?_⟩, hn⟩) fun _ => ?_)
  · intro hd'
    rw [hd] at hd'
    cases hd'
  · intro hd'
    rw [hd] at hd'
    cases hd'
  refine .getStream_bind fun st hst => ?_
  have hswitch : ∀ green : Bool, (green = true → bitsPerSecond st now < S.rate) →
      ∀ t', t' = { t with
        streams := t.streams.modify sp fun st => { st with greenLight := green }
        writeSet := if green then insert st.socket t.writeSet else t.writeSet.erase st.socket } →
      Paced S horizon now.usecs (Function.update slack sp 0) t' ∧ StartedBefore now t' := by
    rintro green hlt t' rfl
    refine ⟨⟨h.settings, fun hd => (h.lit hd).switch hst green, fun hd i st' hst' => ?_⟩, fun st' hst' => ?_⟩
    · obtain ⟨a, ha, rfl⟩ := getElem?_modify_some hst'
      have hpace := h.pace hd i a ha
      by_cases hsp : sp = i
      · subst hsp
        obtain rfl : a = st := Option.some.inj (ha.symm.trans hst)
        rw [if_pos rfl, Function.update_self]
        exact hpace.check hT (hn a (List.mem_of_getElem? ha)) hrate hround rfl hlt
      · rw [if_neg hsp, Function.update_of_ne (Ne.symm hsp)]
        exact hpace
    · obtain ⟨i, hi⟩ := List.mem_iff_getElem?.1 hst'
      obtain ⟨a, ha, rfl⟩ := getElem?_modify_some hi
      have hlt := hn a (List.mem_of_getElem? ha)
      split <;> exact hlt
  refine .ite (fun hlt => ?_) fun _ => ?_
  · rw [h.settings] at hlt
    exact .modifyTest_bind (.modifyTest (hswitch true (fun _ => hlt) _ rfl))
  · exact .modifyTest_bind (.modifyTest (hswitch false nofun _ rfl))

end Paced

/-! ## `iperf_send` -/

/-- What is seen of a call is the clock, and what it has said last. It does not go back, it does not go beyond
the horizon, and what it says is later than the start of every stream. -/
def clockObserver (horizon : Int) : Observer Timeval where
  notes
    | _, .gettimeofday, .ok now => now
    | g, _, _ => g
  allows
    | t, g, .gettimeofday, .ok now => g.usecs ≤ now.usecs ∧ now.usecs ≤ horizon ∧ StartedBefore now t
    | _, _, .gettimeofday, .error _ => False
    | _, _, _, _ => True

/-- The clock has gone on. -/
def Later (horizon : Int) (g g' : Timeval) : Prop :=
  g.usecs ≤ g'.usecs ∧ (g.usecs ≤ horizon → g'.usecs ≤ horizon)

theorem Later.refl {horizon : Int} (g : Timeval) : Later horizon g g := ⟨le_rfl, id⟩

theorem Later.trans {horizon : Int} {g₁ g₂ g₃ : Timeval} (h : Later horizon g₁ g₂) (h' : Later horizon g₂ g₃) :
    Later horizon g₁ g₃ := ⟨h.1.trans h'.1, fun hg => h'.2 (h.2 hg)⟩

/-- A call whose effect on the test is known, while the clock goes on. -/
theorem Ends.clocked {α : Type} {horizon : Int} {t : IperfTest} {g : Timeval} {p : IperfProg α}
    {M : α → IperfTest → Prop} (h : Ends t p M) :
    Sees (clockObserver horizon) t g p fun a t' g' => M a t' ∧ Later horizon g g' := by
  refine h.sees .refl (fun _ _ _ => .trans) fun t g r a ha => ?_
  cases r with
  | gettimeofday =>
    cases a with
    | ok now => exact ⟨ha.1, fun _ => ha.2.1⟩
    | error e => exact ha.elim
  | _ => exact .refl g

/-- The settings of a test with a rate limit, for which 64 bits are enough. -/
structure RateSettings (S : IperfSettings) : Prop where
  rate : S.rate ≠ 0
  blksize_pos : 0 < S.blksize
  blksize_int : IsInt S.blksize
  fits : S.rate.toNat + S.round < 2 ^ 64

theorem RateSettings.block_nonneg {S : IperfSettings} (hS : RateSettings S) : 0 ≤ S.block := by
  have := hS.blksize_pos
  unfold IperfSettings.block
  omega

theorem RateSettings.rounds_le {S : IperfSettings} (hS : RateSettings S) {k : Nat} (hk : (k : Int) ≤ max 1 S.burst) :
    k * S.block ≤ S.round := by
  unfold IperfSettings.round
  rw [mul_comm]
  exact mul_le_mul_of_nonneg_left hk hS.block_nonneg

theorem RateSettings.round_nonneg {S : IperfSettings} (hS : RateSettings S) : 0 ≤ S.round :=
  (mul_nonneg (Int.natCast_nonneg 0) hS.block_nonneg).trans (hS.rounds_le (Nat.cast_nonneg 0 |>.trans (by omega)))

section Send

variable {S : IperfSettings} {horizon T : Int} {t : IperfTest} {g : Timeval}

theorem streamSnd_clocked (hS : RateSettings S) (hset : t.settings = S) (fuel sp : Nat) :
    Sees (clockObserver horizon) t g (streamSnd fuel sp) fun r t' g' => Snd t sp r t' ∧ Later horizon g g' :=
  (streamSnd_snd fuel (hset ▸ hS.blksize_pos) (hset ▸ hS.blksize_int)).clocked

/-- The loop over the streams when the lights are computed after every send. -/
theorem sendStreams_checked (hS : RateSettings S) (hburst : S.burst = 0) (fuel : Nat) (writeSet : Option FdSet)
    (multisend : Nat) {now : Timeval} (hnow : now.usecs ≤ horizon) (sps : List Nat) :
    ∀ t g, Paced S horizon now.usecs (fun _ => 0) t → StartedBefore now t →
      Sees (clockObserver horizon) t g (sendStreams fuel writeSet multisend now sps)
        fun _ t' g' => Paced S horizon now.usecs (fun _ => 0) t' ∧ Later horizon g g' := by
  have hround : 0 + S.block ≤ S.round := by
    have := hS.rounds_le (k := 1) (by omega)
    omega
  induction sps with
  | nil => exact fun t g h _ => .pure ⟨h, .refl g⟩
  | cons sp sps ih =>
    intro t g h hn
    refine .getStream_bind fun st hst => .ite (fun hready => ?_) fun _ => ih t g h hn
    refine .bind (streamSnd_clocked hS h.settings fuel sp) fun r t₁ g₁ h₁ => ?_
    obtain ⟨hsnd, hlater⟩ := h₁
    refine .ite (fun hr => ?_) fun hr => ?_
    · have hfailed := h.failed hsnd hr
      exact .ite (fun _ => .pure ⟨hfailed, hlater⟩) fun _ => .setIErrno_bind (.pure ⟨hfailed, hlater⟩)
    have hsent := h.sent hsnd hnow hr hst hready.1 hround
    have hn₁ : StartedBefore now (t₁.count r) := hsnd.started hn
    have hrate : (t₁.count r).settings.rate ≠ 0 ∧ (t₁.count r).settings.burst = 0 := by
      rw [hsent.settings]
      exact ⟨hS.rate, hburst⟩
    refine .modifyTest_bind (.getTest_bind (.ite (fun _ => ?_) fun hne => absurd hrate hne))
    refine .bind (hsent.check _ hn₁ hnow hS.fits hS.round_nonneg).clocked fun _ t₂ g₂ h₂ => ?_
    obtain ⟨⟨hchecked, hn₂⟩, hlater₂⟩ := h₂
    have hlater' := hlater.trans hlater₂
    have hpaced : Paced S horizon now.usecs (fun _ => 0) t₂ := by
      refine hchecked.loosen fun i _ => ?_
      by_cases hi : i = sp
      · rw [hi, Function.update_self]
      · rw [Function.update_of_ne hi, Function.update_of_ne hi]
    refine .ite (fun _ => .pure ⟨hpaced, hlater'⟩) fun _ => .ite (fun _ => .pure ⟨hpaced, hlater'⟩) fun _ => ?_
    exact (ih t₂ g₂ hpaced hn₂).mono fun _ _ _ h₃ => ⟨h₃.1, hlater'.trans h₃.2⟩

/-- The loop over the streams within a burst: every stream may send one more block. -/
theorem sendStreams_burst (hS : RateSettings S) (hburst : S.burst ≠ 0) (fuel : Nat) (writeSet : Option FdSet)
    (multisend : Nat) (now : Timeval) (hT : T ≤ horizon) {k : Nat} (hk : ((k + 1 : Nat) : Int) ≤ max 1 S.burst)
    (sps : List Nat) : sps.Nodup →
    ∀ t g, Paced S horizon T (fun i => if i ∈ sps then k * S.block else (k + 1 : Nat) * S.block) t →
      Sees (clockObserver horizon) t g (sendStreams fuel writeSet multisend now sps)
        fun r t' g' => Paced S horizon T (fun _ => (k + 1 : Nat) * S.block) t' ∧ (∀ v ∈ r, v < 0) ∧
          Later horizon g g' := by
  have hblock := hS.block_nonneg
  have hstep : ((k + 1 : Nat) : Int) * S.block = k * S.block + S.block := by push_cast; ring
  have hround : (k : Int) * S.block + S.block ≤ S.round := hstep ▸ hS.rounds_le hk
  induction sps with
  | nil => exact fun _ t g h => .pure ⟨h.loosen fun i _ => by simp, nofun, .refl g⟩
  | cons sp sps ih =>
    intro hnodup t g h
    obtain ⟨hsp, hnodup⟩ := List.nodup_cons.1 hnodup
    have hall : ∀ {t'}, Paced S horizon T
        (fun i => if i ∈ sp :: sps then k * S.block else (k + 1 : Nat) * S.block) t' →
        Paced S horizon T (fun _ => (k + 1 : Nat) * S.block) t' := fun h' => h'.loosen fun i _ => by
      rw [hstep]
      split <;> omega
    have hskip : ∀ {t'}, Paced S horizon T
        (fun i => if i ∈ sp :: sps then k * S.block else (k + 1 : Nat) * S.block) t' →
        Paced S horizon T (fun i => if i ∈ sps then k * S.block else (k + 1 : Nat) * S.block) t' :=
      fun h' => h'.loosen fun i _ => by
        rw [hstep]
        by_cases hi : i ∈ sps
        · rw [if_pos hi, if_pos (List.mem_cons_of_mem sp hi)]
        · rw [if_neg hi]
          split <;> omega
    refine .getStream_bind fun st hst => .ite (fun hready => ?_) fun _ => ih hnodup t g (hskip h)
    refine .bind (streamSnd_clocked hS h.settings fuel sp) fun r t₁ g₁ h₁ => ?_
    obtain ⟨hsnd, hlater⟩ := h₁
    refine .ite (fun hr => ?_) fun hr => ?_
    · have hfailed := hall (h.failed hsnd hr)
      refine .ite (fun _ => .pure ⟨hfailed, nofun, hlater⟩) fun _ => .setIErrno_bind (.pure ⟨hfailed, ?_, hlater⟩)
      rintro v ⟨⟩
      exact hr
    have hsent := h.sent hsnd hT hr hst hready.1 (by rw [if_pos List.mem_cons_self]; exact hround)
    have hpaced : Paced S horizon T (fun i => if i ∈ sps then k * S.block else (k + 1 : Nat) * S.block)
        (t₁.count r) := by
      refine hsent.loosen fun i _ => ?_
      by_cases hi : i = sp
      · rw [hi, Function.update_self, if_pos List.mem_cons_self, if_neg hsp, hstep]
      · rw [Function.update_of_ne hi]
        simp only [List.mem_cons, hi, false_or, le_refl]
    have hdone : Paced S horizon T (fun _ => (k + 1 : Nat) * S.block) (t₁.count r) := by
      refine hpaced.loosen fun i _ => ?_
      rw [hstep]
      split <;> omega
    have hrate : ¬ ((t₁.count r).settings.rate ≠ 0 ∧ (t₁.count r).settings.burst = 0) := by
      rw [hsent.settings]
      exact fun hne => hburst hne.2
    refine .modifyTest_bind (.getTest_bind (.ite (fun hne => absurd hne hrate) fun _ => ?_))
    refine .ite (fun _ => .pure ⟨hdone, nofun, hlater⟩) fun _ =>
      .ite (fun _ => .pure ⟨hdone, nofun, hlater⟩) fun _ => ?_
    exact (ih hnodup _ g₁ hpaced).mono fun _ _ _ h₃ => ⟨h₃.1, h₃.2.1, hlater.trans h₃.2.2⟩

/-- The rounds of a burst. -/
theorem sendRounds_burst (hS : RateSettings S) (hburst : S.burst ≠ 0) (fuel : Nat) (writeSet : Option FdSet)
    (hT : T ≤ horizon) (rounds : Nat) : ∀ (k : Nat) t g, ((k + rounds : Nat) : Int) ≤ max 1 S.burst →
      Paced S horizon T (fun _ => k * S.block) t →
      Sees (clockObserver horizon) t g (sendRounds fuel writeSet rounds) fun r t' g' =>
        Paced S horizon T (fun _ => S.round) t' ∧ (∀ v ∈ r, v < 0) ∧ Later horizon g g' := by
  induction rounds with
  | zero => exact fun k t g hk h => .pure ⟨h.loosen fun _ _ => hS.rounds_le hk, nofun, .refl g⟩
  | succ rounds ih =>
    intro k t g hk h
    have hrate : ¬ (t.settings.rate ≠ 0 ∧ t.settings.burst = 0) := by
      rw [h.settings]
      exact fun hne => hburst hne.2
    refine .getTest_bind (.ite (fun hne => absurd hne hrate) fun _ => .allStreams_bind ?_)
    have hstart : Paced S horizon T
        (fun i => if i ∈ List.range t.streams.length then k * S.block else (k + 1 : Nat) * S.block) t :=
      h.loosen fun i hi => by rw [if_pos (List.mem_range.2 hi)]
    refine .bind (sendStreams_burst hS hburst fuel writeSet _ _ hT (by omega) _ List.nodup_range t g hstart) ?_
    rintro r t₁ g₁ ⟨h₁, hneg, hlater⟩
    cases r with
    | some r => exact .pure ⟨h₁.loosen fun _ _ => hS.rounds_le (by omega), hneg, hlater⟩
    | none =>
      exact (ih (k + 1) t₁ g₁ (by omega) h₁).mono fun _ _ _ h₂ => ⟨h₂.1, h₂.2.1, hlater.trans h₂.2.2⟩

/-- The lights of all streams are computed anew. -/
theorem checkAll_paced (hS : RateSettings S) {now : Timeval} (hnow : now.usecs ≤ horizon) (sps : List Nat) :
    ∀ t, Paced S horizon now.usecs (fun i => if i ∈ sps then S.round else 0) t → StartedBefore now t →
      Ends t (forAllStreams (fun sp => iperfCheckThrottle sp now) sps)
        fun _ t' => Paced S horizon now.usecs (fun _ => 0) t' := by
  induction sps with
  | nil => exact fun t h _ => .pure (h.loosen fun i _ => by simp)
  | cons sp sps ih =>
    intro t h hn
    refine .bind (h.check _ hn hnow hS.fits hS.round_nonneg) fun _ t₁ h₁ => ih t₁ (h₁.1.loosen fun i _ => ?_) h₁.2
    by_cases hi : i = sp
    · rw [hi, Function.update_self]
      split
      · exact hS.round_nonneg
      · exact le_rfl
    · rw [Function.update_of_ne hi]
      simp only [List.mem_cons, hi, false_or, le_refl]

/-- `iperf_send`, called when no stream is ahead of its rate, leaves them so; when it fails, a stream may be a
round ahead. -/
theorem iperfSend_paced (hS : RateSettings S) (fuel : Nat) (writeSet : Option FdSet)
    (h : Paced S horizon g.usecs (fun _ => 0) t) (hg : g.usecs ≤ horizon) :
    Sees (clockObserver horizon) t g (iperfSend fuel writeSet) fun r t' g' =>
      Paced S horizon g'.usecs (fun _ => if 0 ≤ r then 0 else S.round) t' ∧ g'.usecs ≤ horizon := by
  have hround := hS.round_nonneg
  refine .getTest_bind ?_
  rw [h.settings]
  by_cases hburst : S.burst = 0
  · have hrate : t.settings.rate ≠ 0 ∧ t.settings.burst = 0 := by
      rw [h.settings]
      exact ⟨hS.rate, hburst⟩
    rw [if_neg (not_not.2 hburst), if_neg hS.rate]
    -- One round, in which every send is followed by a look at the light.
    refine .bind (M := fun _ t' g' => Paced S horizon g'.usecs (fun _ => 0) t' ∧ g'.usecs ≤ horizon) ?_ ?_
    · refine .getTest_bind (.ite (fun _ => ?_) fun hne => absurd hrate hne)
      refine .gettimeofday_bind (fun now hnow => .allStreams_bind ?_) fun e he => he.elim
      obtain ⟨hlater, hhorizon, hstarted⟩ := hnow
      refine .bind (sendStreams_checked hS hburst fuel writeSet _ hhorizon _ t now (h.later hlater) hstarted) ?_
      rintro r t₁ g₁ ⟨h₁, hlater₁⟩
      cases r with
      | some r => exact .pure ⟨h₁.later hlater₁.1, hlater₁.2 hhorizon⟩
      | none => exact .pure ⟨h₁.later hlater₁.1, hlater₁.2 hhorizon⟩
    · rintro r t₁ g₁ ⟨h₁, hhorizon⟩
      cases r with
      | some r =>
        refine .pure ⟨h₁.loosen fun _ _ => ?_, hhorizon⟩
        split <;> omega
      | none => exact .ite (fun hne => absurd hburst hne) fun _ => .pure ⟨h₁, hhorizon⟩
  · rw [if_pos hburst]
    refine .bind (sendRounds_burst hS hburst fuel writeSet hg _ 0 t g (by omega) ?_) ?_
    · exact h.loosen fun _ _ => by simp
    rintro r t₁ g₁ ⟨h₁, hneg, hlater⟩
    cases r with
    | some r =>
      have hr : ¬ 0 ≤ r := not_le.2 (hneg r rfl)
      refine .pure ⟨?_, hlater.2 hg⟩
      rw [if_neg hr]
      exact h₁.later hlater.1
    | none =>
      refine .ite (fun _ => ?_) fun hne => absurd hburst hne
      refine .gettimeofday_bind (fun now hnow => .allStreams_bind ?_) fun e he => he.elim
      obtain ⟨hlater₁, hhorizon, hstarted⟩ := hnow
      have hstart : Paced S horizon now.usecs
          (fun i => if i ∈ List.range t₁.streams.length then S.round else 0) t₁ :=
        (h₁.later (hlater.1.trans hlater₁)).loosen fun i hi => by rw [if_pos (List.mem_range.2 hi)]
      refine .bind (checkAll_paced hS hhorizon _ t₁ hstart hstarted).clocked fun _ t₂ g₂ h₂ => .pure ?_
      exact ⟨h₂.1.later h₂.2.1, h₂.2.2 hhorizon⟩

end Send

/-! ## `iperf_reset_stats` -/

section Reset

variable {S : IperfSettings} {horizon T : Int} {t t' : IperfTest} {g : Timeval}

/-- `iperf_reset_stats` has started the stream afresh at the time `now`. -/
def RestartsAt (now : Timeval) (st st' : IperfStream) : Prop := ∃ total, st' = st.resetStats now total

theorem forall₂_getElem? {α β : Type} {R : α → β → Prop} {l : List α} {l' : List β} (h : List.Forall₂ R l l')
    {i : Nat} {b : β} (hb : l'[i]? = some b) : ∃ a, l[i]? = some a ∧ R a b := by
  induction h generalizing i with
  | nil => cases hb
  | cons hR _ ih =>
    cases i with
    | zero =>
      obtain rfl := Option.some.inj hb
      exact ⟨_, rfl, hR⟩
    | succ i => exact ih hb

/-- Streams that start afresh are not ahead of their rate. -/
theorem Paced.restarted {now : Timeval} (hS : RateSettings S) (h : Paced S horizon now.usecs (fun _ => 0) t)
    (hr : Each (RestartsAt now) { t with bytesSent := 0, blocksSent := 0 } t') :
    Paced S horizon now.usecs (fun _ => 0) t' := by
  obtain ⟨hrest, hstreams⟩ := hr
  have hdone : t'.done = t.done := by rw [hrest]
  have hws : t'.writeSet = t.writeSet := by rw [hrest]
  refine ⟨by rw [hrest]; exact h.settings, fun hd => ⟨fun i j st₁ st₂ h₁ h₂ hsock => ?_, fun i st₁ h₁ => ?_⟩,
    fun hd i st₁ h₁ => ?_⟩
  · obtain ⟨a, ha, _, rfl⟩ := forall₂_getElem? hstreams h₁
    obtain ⟨b, hb, _, rfl⟩ := forall₂_getElem? hstreams h₂
    exact (h.lit (hdone ▸ hd)).sockets i j a b ha hb hsock
  · obtain ⟨a, ha, _, rfl⟩ := forall₂_getElem? hstreams h₁
    rw [hws]
    exact (h.lit (hdone ▸ hd)).agree i a ha
  · obtain ⟨a, ha, _, rfl⟩ := forall₂_getElem? hstreams h₁
    have hpace := h.pace (hdone ▸ hd) i a ha
    have hmono := mul_le_mul_of_nonneg_left (a := (S.rate.toNat : Int))
      (sub_le_sub_left hpace.started horizon) (Int.natCast_nonneg _)
    have hfits := hpace.fits
    have hround := hS.round_nonneg
    refine ⟨le_rfl, ?_, ?_, fun _ => ?_⟩
    · show (S.rate.toNat : Int) * (horizon - now.usecs) + S.round < _
      omega
    · show 8000000 * (((0 : UInt64).toNat : Nat) : Int) ≤ S.rate.toNat * (now.usecs - now.usecs) + S.round
      simpa using hround
    · show 8000000 * (((0 : UInt64).toNat : Nat) : Int) ≤ S.rate.toNat * (now.usecs - now.usecs) + 0
      simp

theorem iperfResetStats_paced (hS : RateSettings S) (h : Paced S horizon g.usecs (fun _ => 0) t) :
    Sees (clockObserver horizon) t g iperfResetStats fun _ t' g' =>
      Paced S horizon g'.usecs (fun _ => 0) t' ∧ g'.usecs ≤ horizon := by
  refine .modifyTest_bind (.gettimeofday_bind (fun now hnow => ?_) fun e he => he.elim)
  obtain ⟨hlater, hhorizon, -⟩ := hnow
  refine Sees.mono (Ends.clocked (M := fun _ t' => Each (RestartsAt now)
    { t with bytesSent := 0, blocksSent := 0 } t') ?_) fun _ t' g' h' => ?_
  · refine .forAllStreams fun k t' hk => .getTest_bind (.getStream_bind fun st hst => .ite (fun _ => ?_) fun _ => ?_)
    · refine .silent_bind (.sys _) fun ir => .silent_bind (saveTcpinfo_silent _ _) fun info => ?_
      exact .modifyTest (hk.step hst ⟨_, rfl⟩)
    · exact .modifyTest (hk.step hst ⟨_, rfl⟩)
  · obtain ⟨hr, hlater'⟩ := h'
    exact ⟨((h.later hlater).restarted hS hr).later hlater'.1, hlater'.2 hhorizon⟩

end Reset

/-! ## Runs -/

/-- A run of a test with a rate limit, from the memory and the time `p₀`; no clock goes beyond the horizon. It
goes on as long as `iperf_send` does not fail: its callers give up the test then. -/
inductive RateRun (horizon : Int) (p₀ : Mem × Timeval) : Bool → Mem → Timeval → Prop where
  | start : RateRun horizon p₀ true p₀.1 p₀.2
  | wait {running : Bool} {m : Mem} {T now : Timeval} : RateRun horizon p₀ running m T →
      T.usecs ≤ now.usecs → now.usecs ≤ horizon → RateRun horizon p₀ running m now
  | send {m m' : Mem} {T T' : Timeval} {fuel : Nat} {writeSet : Option FdSet} {r : Int} :
      RateRun horizon p₀ true m T →
      Prog.Reach (clockObserver horizon).contract (iperfSend fuel writeSet, m, T) (.ret r, m', T') →
      RateRun horizon p₀ (decide (0 ≤ r)) m' T'
  | timer {m m' : Mem} {T now : Timeval} {sp : Nat} : RateRun horizon p₀ true m T →
      T.usecs ≤ now.usecs → now.usecs ≤ horizon → StartedBefore now m.test →
      Prog.Returns (sendTimerProc sp now) m () m' → RateRun horizon p₀ true m' now
  | reset {m m' : Mem} {T T' : Timeval} : RateRun horizon p₀ true m T →
      Prog.Reach (clockObserver horizon).contract (iperfResetStats, m, T) (.ret (), m', T') →
      RateRun horizon p₀ true m' T'

/-- At the time `T` a test with a rate limit is about to send: its streams are connected over different
sockets, all of them may be written to, and nothing was sent yet. -/
structure AboutToSend (horizon : Int) (t : IperfTest) (T : Timeval) : Prop where
  rate : t.settings.rate ≠ 0
  blksize_pos : 0 < t.settings.blksize
  blksize_int : IsInt t.settings.blksize
  sockets : (t.streams.map (·.socket)).Nodup
  green : ∀ st ∈ t.streams, st.greenLight = true ∧ st.socket ∈ t.writeSet
  unsent : ∀ st ∈ t.streams, st.result.bytesSent = 0
  started : ∀ st ∈ t.streams, st.result.startTime.usecs ≤ T.usecs
  horizon : T.usecs ≤ horizon

/-- Up to the horizon 64 bits are enough for the bits that the rate allows with a round on top, and for the bits
per second when these bits have taken a microsecond or more. -/
structure Fits (horizon : Int) (t : IperfTest) : Prop where
  rate : t.settings.rate.toNat + t.settings.round < 2 ^ 64
  bits : ∀ st ∈ t.streams,
    t.settings.rate.toNat * (horizon - st.result.startTime.usecs) + t.settings.round < 2 ^ 64 * 1000000

/-- At the time `T` no stream of `t` has sent more than the rate of `S` allows and one round on top of it, and the
green light of a stream is on exactly if it is in the write set. -/
def RateLimitKept (S : IperfSettings) (t : IperfTest) (T : Timeval) : Prop :=
  ∀ st ∈ t.streams,
    8 * (st.result.bytesSent.toNat : ℚ) ≤
        S.rate.toNat * (T.seconds - st.result.startTime.seconds) + 8 * S.blksize * max 1 S.burst ∧
      (st.greenLight = true ↔ st.socket ∈ t.writeSet)

section Runs

variable {horizon : Int} {m m₀ : Mem} {T T₀ : Timeval} {running : Bool}

theorem AboutToSend.settings {t : IperfTest} (h : AboutToSend horizon t T) (hfits : Fits horizon t) :
    RateSettings t.settings := ⟨h.rate, h.blksize_pos, h.blksize_int, hfits.rate⟩

theorem AboutToSend.paced {t : IperfTest} (h : AboutToSend horizon t T) (hfits : Fits horizon t) :
    Paced t.settings horizon T.usecs (fun _ => 0) t := by
  refine ⟨rfl, fun _ => ⟨fun i j st st' hst hst' hsock => ?_, fun i st hst => ?_⟩, fun _ i st hst => ?_⟩
  · have hi : (t.streams.map (·.socket))[i]? = some st.socket := by rw [List.getElem?_map, hst]; rfl
    have hj : (t.streams.map (·.socket))[j]? = some st.socket := by rw [List.getElem?_map, hst', hsock]; rfl
    obtain ⟨hlt, -⟩ := List.getElem?_eq_some_iff.1 hi
    exact (List.getElem?_inj hlt h.sockets).1 (hi.trans hj.symm)
  · have hmem := List.mem_of_getElem? hst
    simp [h.green st hmem]
  · have hmem := List.mem_of_getElem? hst
    have hstarted := h.started st hmem
    have hround := (h.settings hfits).round_nonneg
    have hallow : 0 ≤ (t.settings.rate.toNat : Int) * (T.usecs - st.result.startTime.usecs) :=
      mul_nonneg (Int.natCast_nonneg _) (by omega)
    refine ⟨hstarted, hfits.bits st hmem, ?_, fun _ => ?_⟩
    · rw [h.unsent st hmem]
      show 8000000 * (0 : Int) ≤ _
      omega
    · rw [h.unsent st hmem]
      show 8000000 * (0 : Int) ≤ _
      omega

theorem rateRun_paced (h₀ : AboutToSend horizon m₀.test T₀) (hfits : Fits horizon m₀.test)
    (h : RateRun horizon (m₀, T₀) running m T) :
    Paced m₀.test.settings horizon T.usecs
      (fun _ => if running then 0 else m₀.test.settings.round) m.test ∧ T.usecs ≤ horizon := by
  have hS := h₀.settings hfits
  induction h with
  | start => exact ⟨h₀.paced hfits, h₀.horizon⟩
  | wait _ hlater hhorizon ih => exact ⟨ih.1.later hlater, hhorizon⟩
  | @send m m' T T' fuel writeSet r _ hcall ih =>
    obtain ⟨hpaced, hhorizon⟩ := (iperfSend_paced hS fuel writeSet ih.1 ih.2).reach hcall
    refine ⟨hpaced.loosen fun _ _ => ?_, hhorizon⟩
    by_cases hr : 0 ≤ r <;> simp [hr]
  | @timer m m' T now sp _ hlater hhorizon hstarted hcall ih =>
    have hround := hS.round_nonneg
    have hcheck := ((ih.1.later hlater).check sp hstarted hhorizon hS.fits hround).returns hcall
    refine ⟨hcheck.1.loosen fun i _ => ?_, hhorizon⟩
    by_cases hi : i = sp
    · rw [hi, Function.update_self]
      rfl
    · rw [Function.update_of_ne hi]
  | reset _ hcall ih => exact (iperfResetStats_paced hS ih.1).reach hcall

end Runs

/-- A sender of blocks of 4 bytes at 16 bits per second, over one stream. -/
def slowSender : IperfTest :=
  let t := iperfSetTestRole .client mainTest
  { t with
    writeSet := {3}
    settings := { t.settings with blksize := 4, rate := 16 }
    streams := [{ newStream t 3 4 (-1) [1, 2, 3, 4] with greenLight := true }] }

/-- A system whose clock says that it is one second past the start. -/
def atOneSecond : Nat → (r : Req) → r.Ans
  | _, .gettimeofday => .ok ⟨1, 0⟩
  | _, r => r.quiet

instance (now : Timeval) (t : IperfTest) : Decidable (StartedBefore now t) :=
  inferInstanceAs (Decidable (∀ st ∈ t.streams, _))

instance (horizon : Int) (m : Mem) (g : Timeval) (r : Req) (a : r.Ans) :
    Decidable ((clockObserver horizon).contract.allows m g r a) := by
  rcases r
  case gettimeofday =>
    rcases a with e | now
    · exact isFalse id
    · exact (inferInstance : Decidable (g.usecs ≤ now.usecs ∧ now.usecs ≤ horizon ∧ StartedBefore now m.test))
  all_goals exact isTrue trivial

/-- The slow sender after a call of `iperf_send`, and the time then. -/
def afterSlowSend : Mem × Timeval :=
  (Prog.drive (clockObserver 2000000).contract atOneSecond 100 0
    (iperfSend 9 none, Mem.start slowSender, ⟨0, 0⟩)).2

/-- A TCP sender of blocks that are not looked at, over one stream that has sent `sent` bytes so far. -/
structure Bursting (S : IperfSettings) (sent : Nat) (t : IperfTest) : Prop where
  settings : t.settings = S
  zerocopy : t.zerocopy = true
  done : t.done = false
  stream : ∃ st, t.streams = [st] ∧ st.prot = .tcp ∧ st.diskfile = false ∧ st.greenLight = true ∧
    st.result.startTime = ⟨0, 0⟩ ∧ st.result.bytesSent = UInt64.ofNat sent

section Burst

variable {S : IperfSettings} {horizon : Int} {sent : Nat} {m : Mem} {g : Timeval}

/-- `sendfile` takes a whole block. -/
theorem Bursting.snd (h : Bursting S sent m.test) (horizon : Int) (g : Timeval) (hpos : 0 < S.blksize) (hint : IsInt S.blksize) :
    ∃ m', Goes (clockObserver horizon) m g (streamSnd 2 0) (.ret S.blksize, m', g) ∧
      Bursting S (sent + S.blksize.toNat) m'.test := by
  obtain ⟨st, hstreams, hprot, hdisk, hgreen, hstart, hbytes⟩ := h.stream
  have hst : m.test.streams[0]? = some st := by rw [hstreams]; rfl
  obtain ⟨n, hn⟩ : ∃ n, S.blksize.toNat = n + 1 := ⟨S.blksize.toNat - 1, by omega⟩
  have hfile : Goes (clockObserver horizon) m g
      (nsendfile 2 st.bufferFd st.socket (sizeT m.test.settings.blksize)) (.ret S.blksize, m, g) := by
    rw [h.settings, sizeT_of_isInt hpos hint, hn]
    unfold nsendfile nsendfileLoop
    rw [if_neg (Nat.succ_ne_zero n)]
    refine .sys_bind (r := .sendfile _ _ _ _) (Except.ok (n + 1)) trivial ?_
    have hcount : ((n + 1 : Nat) : Int) = S.blksize := by omega
    show Goes _ m _ (nsendfileLoop st.bufferFd st.socket (n + 1) 1 (n + 1 - (n + 1))) _
    unfold nsendfileLoop
    rw [if_pos (Nat.sub_self _), hcount]
    exact .refl _
  refine ⟨{ m with test := { m.test with
    streams := m.test.streams.modify 0 (IperfStream.sent S.blksize) } }, ?_, ?_⟩
  · refine .getStream_bind hst ?_
    rw [if_neg (by rw [hdisk]; exact Bool.false_ne_true), hprot]
    refine .getTest_bind ?_
    rw [if_pos h.zerocopy]
    refine .getStream_bind hst (.seq hfile (.ite (fun hr => ?_) fun _ => .modifyTest_bind (.refl _)))
    omega
  · refine ⟨h.settings, h.zerocopy, h.done, st.sent S.blksize, ?_, hprot, hdisk, hgreen, hstart, ?_⟩
    · show m.test.streams.modify 0 _ = _
      rw [hstreams]
      rfl
    · show st.result.bytesSent + UInt64.ofInt S.blksize = _
      have hofInt : UInt64.ofInt S.blksize = UInt64.ofNat S.blksize.toNat := by
        obtain ⟨-, hlt⟩ := hint
        refine UInt64.toNat_inj.1 ?_
        show (S.blksize % 2 ^ 64).toNat % 2 ^ 64 = S.blksize.toNat % 2 ^ 64
        omega
      rw [hbytes, hofInt, ← UInt64.ofNat_add]

/-- Nothing but the number of rounds ends a burst. -/
theorem Bursting.rounds (horizon : Int) (g : Timeval) (hpos : 0 < S.blksize) (hint : IsInt S.blksize) (hburst : S.burst ≠ 0)
    (hbytes : S.bytes = 0) (hblocks : S.blocks = 0) (rounds : Nat) : ∀ sent m, Bursting S sent m.test →
      ∃ m', Goes (clockObserver horizon) m g (sendRounds 2 none rounds) (.ret none, m', g) ∧
        Bursting S (sent + rounds * S.blksize.toNat) m'.test := by
  induction rounds with
  | zero =>
    intro sent m h
    refine ⟨m, .refl _, ?_⟩
    rw [Nat.zero_mul]
    exact h
  | succ rounds ih =>
    intro sent m h
    obtain ⟨st, hstreams, hprot, hdisk, hgreen, hstart, hbytesSent⟩ := id h.stream
    obtain ⟨m₁, hsnd, h₁⟩ := h.snd horizon g hpos hint
    have hcount : Bursting S (sent + S.blksize.toNat) (m₁.test.count S.blksize) :=
      ⟨h₁.settings, h₁.zerocopy, h₁.done, h₁.stream⟩
    obtain ⟨m₂, hrest, h₂⟩ := ih _ { m₁ with test := m₁.test.count S.blksize } hcount
    have hset : (m₁.test.count S.blksize).settings = S := h₁.settings
    refine ⟨m₂, ?_, ?_⟩
    · refine .getTest_bind ?_
      rw [if_neg (by rw [h.settings]; exact fun hne => hburst hne.2)]
      refine .allStreams_bind ?_
      rw [hstreams]
      refine .seq (p := sendStreams 2 none (rounds + 1) ⟨0, 0⟩ [0]) (a := none) ?_ hrest
      have hst : m.test.streams[0]? = some st := by rw [hstreams]; rfl
      refine .getStream_bind hst ?_
      rw [if_pos ⟨hgreen, nofun⟩]
      refine .seq hsnd ?_
      rw [if_neg (by omega)]
      refine .modifyTest_bind (.getTest_bind ?_)
      rw [if_neg (by rw [hset]; exact fun hne => hburst hne.2), hset, hbytes, hblocks,
        if_neg (fun hne => hne.2.1 rfl), if_neg (fun hne => hne.2.1 rfl)]
      exact .refl _
    · have hmul : sent + (rounds + 1) * S.blksize.toNat =
          sent + S.blksize.toNat + rounds * S.blksize.toNat := by ring
      rw [hmul]
      exact h₂

/-- A burst after which the light is still on. -/
theorem Bursting.send (hpos : 0 < S.blksize) (hint : IsInt S.blksize) (hburst : S.burst ≠ 0)
    (hbytes : S.bytes = 0) (hblocks : S.blocks = 0) {now : Timeval} (h : Bursting S sent m.test)
    (hnow : g.usecs ≤ now.usecs ∧ now.usecs ≤ horizon ∧ 0 < now.usecs)
    (hlight : ∀ st : IperfStream, st.result.startTime = ⟨0, 0⟩ →
      st.result.bytesSent = UInt64.ofNat (sent + S.burst.toNat * S.blksize.toNat) →
      bitsPerSecond st now < S.rate) :
    ∃ m', Goes (clockObserver horizon) m g (iperfSend 2 none) (.ret 0, m', now) ∧
      Bursting S (sent + S.burst.toNat * S.blksize.toNat) m'.test := by
  obtain ⟨m₁, hrounds, h₁⟩ := h.rounds horizon g hpos hint hburst hbytes hblocks S.burst.toNat
  obtain ⟨st, hstreams, hprot, hdisk, -, hstart, hsent⟩ := id h₁.stream
  have hst : m₁.test.streams[0]? = some st := by rw [hstreams]; rfl
  have hstarted : StartedBefore now m₁.test := by
    intro st' hst'
    rw [hstreams, List.mem_singleton] at hst'
    rw [hst', hstart]
    exact hnow.2.2
  obtain ⟨m₂, hm₂⟩ : ∃ m₂ : Mem, m₂ = { m₁ with test := { m₁.test with
    streams := m₁.test.streams.modify 0 fun st => { st with greenLight := true }
    writeSet := insert st.socket m₁.test.writeSet } } := ⟨_, rfl⟩
  have hcheck : Goes (clockObserver horizon) m₁ now (iperfCheckThrottle 0 now) (.ret (), m₂, now) := by
    refine .getTest_bind ?_
    rw [if_neg (by rw [h₁.done]; exact Bool.false_ne_true)]
    refine .getStream_bind hst ?_
    rw [if_pos (by rw [h₁.settings]; exact hlight st hstart hsent), hm₂]
    exact .modifyTest_bind (Relation.ReflTransGen.single .write)
  refine ⟨m₂, ?_, ?_⟩
  · refine .getTest_bind ?_
    rw [h.settings, if_pos hburst]
    refine .seq hrounds ?_
    refine .ite (fun _ => ?_) fun hne => absurd hburst hne
    refine .gettimeofday_bind now ⟨hnow.1, hnow.2.1, hstarted⟩ (.allStreams_bind ?_)
    rw [hstreams]
    exact .seq (.seq hcheck (.refl _)) (.refl _)
  · rw [hm₂]
    refine ⟨h₁.settings, h₁.zerocopy, h₁.done, { st with greenLight := true }, ?_, hprot, hdisk, rfl, hstart, hsent⟩
    show m₁.test.streams.modify 0 _ = _
    rw [hstreams]
    rfl

end Burst

/-- A sender of bursts of more than 2 ^ 61 bytes, at 20 Gbit/s. -/
def hugeSender : IperfTest :=
  let t := iperfSetTestRole .client mainTest
  { t with
    zerocopy := true
    writeSet := {3}
    settings := { t.settings with blksize := 1342177280, burst := 1717986919, rate := 20000000000 }
    streams := [{ newStream t 3 4 (-1) [] with greenLight := true }] }

theorem hugeSender_bursting : Bursting hugeSender.settings 0 hugeSender :=
  ⟨rfl, rfl, rfl, _, rfl, rfl, rfl, rfl, rfl, rfl⟩

/-- The eightfold of the bytes of one or two of these bursts is computed modulo `2 ^ 64`, and what is left is
less than the rate. -/
theorem hugeSender_light {n : Nat} (hn : n = 1 ∨ n = 2) {st : IperfStream}
    (hstart : st.result.startTime = ⟨0, 0⟩)
    (hsent : st.result.bytesSent = UInt64.ofNat (n * (1717986919 * 1342177280))) :
    bitsPerSecond st ⟨1, 0⟩ < hugeSender.settings.rate := by
  unfold bitsPerSecond
  rw [hstart, hsent]
  rcases hn with rfl | rfl <;> decide +kernel

end Iperf
