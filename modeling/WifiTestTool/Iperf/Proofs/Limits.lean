import WifiTestTool.Iperf.Proofs.Options
import WifiTestTool.Iperf.Proofs.ParamsExchange

/-!
# The limits of the settings (`iperf_parse_arguments` and `get_parameters`)

A configuration that the test can run with has its settings within the limits of `iperf.h`, as they were
asked for. `iperf_parse_arguments` checks most limits on one side only and a block size after its conversion
to `int`; `get_parameters` checks none of them. Both leave such a configuration exactly for the options, or
the documents, that stay within the limits by themselves.
-/

namespace Iperf

open Updates

/-! ## What was asked for -/

/-- The number of streams that an option asks for. -/
def Opt.givenStreams : Opt → Option Int
  | .parallel n => some n
  | _ => none

/-- The duration that an option asks for. -/
def Opt.givenTime : Opt → Option Int
  | .time n => some n
  | _ => none

/-- The segment size that an option asks for. -/
def Opt.givenMss : Opt → Option Int
  | .setMss n => some n
  | _ => none

/-- The seconds to omit that an option asks for. -/
def Opt.givenOmit : Opt → Option Int
  | .omitTime n => some n
  | _ => none

/-- The socket buffer that an option asks for. -/
def Opt.givenWindow : Opt → Option Int
  | .window n => some n
  | _ => none

/-- The burst that an option asks for. -/
def Opt.givenBurst : Opt → Option Int
  | .bandwidth _ burst => burst
  | _ => none

/-- The number of bytes that an option asks for. -/
def Opt.givenBytes : Opt → Option UInt64
  | .bytes n => some n
  | _ => none

/-- A variable that one option alone sets has the value of the last such option. -/
theorem variable_last {α : Type} {opts : List Opt} {p p' : ParseState} (g : ParseState → α)
    (f : Opt → Option α) (hset : ∀ (o : Opt) q, g (o.update q) = (f o).getD (g q))
    (h : opts.foldlM optStep p = some p') : g p' = (last f opts).getD (g p) := by
  refine foldlM_last g f ?_ h
  intro q o q' hstep
  rw [(optStep_some hstep).2]
  exact hset o q

/-- A setting that one option alone sets. -/
theorem setting_last {α : Type} {opts : List Opt} {p p' : ParseState} (g : IperfSettings → α)
    (f : Opt → Option α) (hset : ∀ (o : Opt) s, g (o.setSettings s) = (f o).getD (g s))
    (h : opts.foldlM optStep p = some p') :
    g p'.test.settings = (last f opts).getD (g p.test.settings) := by
  refine variable_last (fun p => g p.test.settings) f ?_ h
  intro o q
  change g (o.setSettings (o.setTest q.test).settings) = _
  rw [Opt.setTest_settings]
  exact hset o _

/-- Another field of the test that one option alone sets. -/
theorem field_last {α : Type} {opts : List Opt} {p p' : ParseState} (g : IperfTest → α) (f : Opt → Option α)
    (hsettings : ∀ k t, g (onSettings k t) = g t) (hset : ∀ (o : Opt) t, g (o.setTest t) = (f o).getD (g t))
    (h : opts.foldlM optStep p = some p') : g p'.test = (last f opts).getD (g p.test) := by
  refine variable_last (fun p => g p.test) f ?_ h
  intro o q
  change g (onSettings o.setSettings (o.setTest q.test)) = _
  rw [hsettings]
  exact hset o _

section
variable {opts : List Opt} {p p' : ParseState} (h : opts.foldlM optStep p = some p')
include h

theorem numStreams_last : p'.test.numStreams = (last Opt.givenStreams opts).getD p.test.numStreams := by
  refine field_last IperfTest.numStreams _ (fun _ _ => rfl) ?_ h
  intro o t
  cases o <;> rfl

theorem duration_last : p'.test.duration = (last Opt.givenTime opts).getD p.test.duration := by
  refine field_last IperfTest.duration _ (fun _ _ => rfl) ?_ h
  intro o t
  cases o <;> rfl

theorem omitTime_last : p'.test.omitTime = (last Opt.givenOmit opts).getD p.test.omitTime := by
  refine field_last IperfTest.omitTime _ (fun _ _ => rfl) ?_ h
  intro o t
  cases o <;> rfl

theorem mss_last : p'.test.settings.mss = (last Opt.givenMss opts).getD p.test.settings.mss := by
  refine setting_last IperfSettings.mss _ ?_ h
  intro o s
  change (o.set s).mss = _
  cases o <;> rfl

theorem window_last :
    p'.test.settings.socketBufsize = (last Opt.givenWindow opts).getD p.test.settings.socketBufsize := by
  refine setting_last IperfSettings.socketBufsize _ ?_ h
  intro o s
  change (o.set s).socketBufsize = _
  cases o <;> rfl

theorem burst_last : p'.test.settings.burst = (last Opt.givenBurst opts).getD p.test.settings.burst := by
  refine setting_last IperfSettings.burst _ ?_ h
  intro o s
  change (o.set s).burst = _
  cases o <;> rfl

theorem blocks_last : ∀ n ∈ last Opt.givenBlocks opts, p'.test.settings.blocks = toInt n.toNat := by
  have hlast : p'.test.settings.blocks =
      (last (fun o => o.givenBlocks.map fun n => toInt n.toNat) opts).getD p.test.settings.blocks :=
    setting_last IperfSettings.blocks _ (fun _ _ => rfl) h
  intro n hn
  rw [hlast, last_map, hn, Option.map_some, Option.getD_some]

theorem blksize_last : ∀ n ∈ last Opt.givenBlksize opts, p'.blksize = toInt n.toNat := by
  have hlast : p'.blksize = (last (fun o => o.givenBlksize.map fun n => toInt n.toNat) opts).getD p.blksize :=
    variable_last ParseState.blksize _ (fun _ _ => rfl) h
  intro n hn
  rw [hlast, last_map, hn, Option.map_some, Option.getD_some]

/-- `duration_flag` says that there was a `-t`. -/
theorem durationFlag_iff (hp : p.durationFlag = false) : p'.durationFlag = (last Opt.givenTime opts).isSome := by
  have hset : ∀ (o : Opt) (q : ParseState),
      (o.update q).durationFlag = (o.givenTime.map fun _ => true).getD q.durationFlag := by
    intro o q
    change (o.setsDuration || q.durationFlag) = _
    cases o <;> rfl
  rw [variable_last ParseState.durationFlag _ hset h, last_map, hp]
  cases last Opt.givenTime opts <;> rfl

end

/-! ## The command line -/

/-- What `iperf_parse_arguments` has checked after its loop when it succeeds. -/
theorem parseFinish_checked {p : ParseState} {t : IperfTest} (h : parseFinish p = .ok t) :
    t = p.finalTest ∧ (1 ≤ p.finalBlksize ∧ p.finalBlksize ≤ MAX_BLOCKSIZE) ∧
      (p.durationFlag → p.test.settings.bytes = 0 ∧ p.test.settings.blocks = 0) ∧
      (p.test.settings.bytes = 0 ∨ p.test.settings.blocks = 0) := by
  unfold parseFinish at h
  split_ifs at h with hclient hserver hblksize hends hrole
  cases h
  refine ⟨rfl, by omega, ?_, by tauto⟩
  intro hflag
  tauto

/-- The loop and the end of `iperf_parse_arguments`, when it succeeds. -/
theorem parse_checked {t₀ t : IperfTest} {opts : List Opt} (h : iperfParseArguments t₀ opts = .ok t) :
    ∃ p, opts.foldlM optStep (parseStart t₀) = some p ∧ parseFinish p = .ok t := by
  have hparse : (iperfParseArguments t₀ opts).toOption = some t := by
    rw [h]
    rfl
  rw [toOption_iperfParseArguments] at hparse
  obtain ⟨p, hloop, hend⟩ := Option.bind_eq_some_iff.1 hparse
  refine ⟨p, hloop, ?_⟩
  cases hp : parseFinish p with
  | error e =>
    rw [hp] at hend
    cases hend
  | ok t' =>
    rw [hp] at hend
    cases hend
    rfl

/-- The test has exactly one end condition. -/
def OneEndCondition (t : IperfTest) : Prop :=
  (t.duration ≠ 0 ∧ t.settings.bytes = 0 ∧ t.settings.blocks = 0) ∨
    (t.duration = 0 ∧ t.settings.bytes ≠ 0 ∧ t.settings.blocks = 0) ∨
    (t.duration = 0 ∧ t.settings.bytes = 0 ∧ t.settings.blocks ≠ 0)

/-- A configuration that the test can run with, as it was asked for. -/
structure Runnable (opts : List Opt) (t : IperfTest) : Prop where
  numStreams : 1 ≤ t.numStreams ∧ t.numStreams ≤ MAX_STREAMS
  duration : 0 ≤ t.duration ∧ t.duration ≤ MAX_TIME
  mss : 0 ≤ t.settings.mss ∧ t.settings.mss ≤ MAX_MSS
  socketBufsize : 0 ≤ t.settings.socketBufsize ∧ t.settings.socketBufsize ≤ MAX_TCP_BUFFER
  burst : 0 ≤ t.settings.burst ∧ t.settings.burst ≤ MAX_BURST
  blksize : 1 ≤ t.settings.blksize ∧ t.settings.blksize ≤ MAX_BLOCKSIZE
  /-- The block size is the one that was asked for. -/
  asked_blksize : ∀ n ∈ last Opt.givenBlksize opts, t.settings.blksize = n.toNat
  /-- The number of blocks is the one that was asked for. -/
  asked_blocks : ∀ n ∈ last Opt.givenBlocks opts, t.settings.blocks = n.toNat
  one_end : OneEndCondition t

/-- Options that ask for what the test can run with, where `iperf_parse_arguments` does not check it. -/
structure SoundOptions (opts : List Opt) : Prop where
  streams : ∀ n ∈ last Opt.givenStreams opts, 1 ≤ n
  time : ∀ n ∈ last Opt.givenTime opts, 1 ≤ n
  mss : ∀ n ∈ last Opt.givenMss opts, 0 ≤ n
  window : ∀ n ∈ last Opt.givenWindow opts, 0 ≤ n
  /-- The block size as a 64-bit number, which is 0 for `-l 0`. -/
  blksize : ∀ n ∈ last Opt.givenBlksize opts, 1 ≤ n.toNat ∧ n.toNat ≤ MAX_BLOCKSIZE
  blocks : ∀ n ∈ last Opt.givenBlocks opts, n.toNat < 2 ^ 31

/-- The conversion of a 64-bit number to `int` keeps it exactly if it fits. -/
theorem toInt_toNat_iff (n : UInt64) : toInt n.toNat = n.toNat ↔ n.toNat < 2 ^ 31 := by
  constructor
  · intro h
    have hlt : toInt n.toNat < 2 ^ 31 := by
      have := Int.bmod_lt (x := n.toNat) (m := 0x100000000) (by omega)
      unfold toInt
      omega
    omega
  · intro h
    exact toInt_of_isInt ⟨by omega, by omega⟩

/-- What every accepted option guarantees about its value holds of the last one. -/
theorem last_accepted {α : Type} {P : α → Prop} {opts : List Opt} {p p' : ParseState} (f : Opt → Option α)
    (hP : ∀ (o : Opt) role, ¬ o.Refused role → ∀ a ∈ f o, P a) (h : opts.foldlM optStep p = some p') :
    ∀ a ∈ last f opts, P a := by
  refine last_of_forall (foldlM_forall ?_ h)
  intro q o q' hstep
  exact hP o _ (optStep_some hstep).1

/-- A value that is asked for or a default has a property if both have it. -/
theorem getD_of_forall {α : Type} {P : α → Prop} {o : Option α} {d : α} (h : ∀ a ∈ o, P a) (hd : P d) :
    P (o.getD d) := by
  cases o with
  | none => exact hd
  | some a => exact h a rfl

section
variable {opts : List Opt} {p p' : ParseState} (h : opts.foldlM optStep p = some p')
include h

theorem streams_accepted : ∀ n ∈ last Opt.givenStreams opts, n ≤ MAX_STREAMS := by
  refine last_accepted _ ?_ h
  intro o role hr n hn
  cases o <;> cases hn
  exact not_lt.1 hr

theorem time_accepted : ∀ n ∈ last Opt.givenTime opts, n ≤ MAX_TIME := by
  refine last_accepted _ ?_ h
  intro o role hr n hn
  cases o <;> cases hn
  exact not_lt.1 hr

theorem mss_accepted : ∀ n ∈ last Opt.givenMss opts, n ≤ MAX_MSS := by
  refine last_accepted _ ?_ h
  intro o role hr n hn
  cases o <;> cases hn
  exact not_lt.1 hr

theorem window_accepted : ∀ n ∈ last Opt.givenWindow opts, n ≤ MAX_TCP_BUFFER := by
  refine last_accepted _ ?_ h
  intro o role hr n hn
  cases o <;> cases hn
  exact not_lt.1 hr

theorem burst_accepted : ∀ n ∈ last Opt.givenBurst opts, 0 ≤ n ∧ n ≤ MAX_BURST := by
  refine last_accepted _ ?_ h
  intro o role hr n hn
  cases o with
  | bandwidth rate burst =>
    cases hn
    simp only [Opt.Refused] at hr
    omega
  | _ => cases hn

end

/-- The duration that `iperf_parse_arguments` settles on, and the end condition, for the options `-t` that
were given. -/
theorem duration_iff {p : ParseState} {given : Option Int} (hdur : p.test.duration = given.getD DURATION)
    (hgiven : p.durationFlag = given.isSome)
    (hflag : p.durationFlag → p.test.settings.bytes = 0 ∧ p.test.settings.blocks = 0)
    (hends : p.test.settings.bytes = 0 ∨ p.test.settings.blocks = 0) (hmax : ∀ n ∈ given, n ≤ MAX_TIME) :
    ((0 ≤ p.finalTest.duration ∧ p.finalTest.duration ≤ MAX_TIME) ∧ OneEndCondition p.finalTest) ↔
      ∀ n ∈ given, 1 ≤ n := by
  cases given with
  | some n =>
    obtain ⟨hbytes, hblocks⟩ := hflag hgiven
    have hfinal : p.finalTest.duration = n := by
      simp [ParseState.finalTest, hbytes, hblocks, hdur]
    have hb : p.finalTest.settings.bytes = 0 := hbytes
    have hk : p.finalTest.settings.blocks = 0 := hblocks
    have hn : n ≤ MAX_TIME := hmax n rfl
    unfold OneEndCondition
    rw [hfinal, hb, hk]
    constructor
    · rintro ⟨⟨h0, -⟩, hone⟩ m hm
      cases hm
      have hne : n ≠ 0 := by simpa using hone
      omega
    · intro h
      have h1 : 1 ≤ n := h n rfl
      exact ⟨⟨by omega, hn⟩, .inl ⟨by omega, rfl, rfl⟩⟩
  | none =>
    have hnoflag : p.durationFlag = false := hgiven
    have hfinal : p.finalTest.duration =
        if p.test.settings.bytes ≠ 0 ∨ p.test.settings.blocks ≠ 0 then 0 else DURATION := by
      simp [ParseState.finalTest, hnoflag, hdur]
    have hb : p.finalTest.settings.bytes = p.test.settings.bytes := rfl
    have hk : p.finalTest.settings.blocks = p.test.settings.blocks := rfl
    unfold OneEndCondition
    rw [hfinal, hb, hk]
    refine iff_of_true ?_ (by simp)
    by_cases hbytes : p.test.settings.bytes = 0
    · by_cases hblocks : p.test.settings.blocks = 0
      · simp [hbytes, hblocks, DURATION, MAX_TIME]
      · simp [hbytes, hblocks, MAX_TIME]
    · have hblocks : p.test.settings.blocks = 0 := hends.resolve_left hbytes
      simp [hbytes, hblocks, MAX_TIME]

/-- **When an accepted configuration can be run.** `iperf_parse_arguments` leaves a configuration that the
test can run with, as it was asked for, exactly if the last option of each kind asks for one. -/
theorem accepted_runnable_iff (sigalrm : Bool) {opts : List Opt} {t : IperfTest}
    (h : iperfParseArguments (defaultTest sigalrm) opts = .ok t) : Runnable opts t ↔ SoundOptions opts := by
  obtain ⟨p, hloop, hend⟩ := parse_checked h
  obtain ⟨rfl, hblksize, hflag, hends⟩ := parseFinish_checked hend
  have hstreams : p.finalTest.numStreams = (last Opt.givenStreams opts).getD 1 := numStreams_last hloop
  have hmss : p.finalTest.settings.mss = (last Opt.givenMss opts).getD 0 := mss_last hloop
  have hwindow : p.finalTest.settings.socketBufsize = (last Opt.givenWindow opts).getD 0 := window_last hloop
  have hburst : p.finalTest.settings.burst = (last Opt.givenBurst opts).getD 0 := burst_last hloop
  have htime := duration_iff (duration_last hloop) (durationFlag_iff hloop rfl) hflag hends (time_accepted hloop)
  have hblocks : ∀ n ∈ last Opt.givenBlocks opts, p.finalTest.settings.blocks = toInt n.toNat := blocks_last hloop
  have hsize : ∀ n ∈ last Opt.givenBlksize opts, p.blksize = toInt n.toNat := blksize_last hloop
  constructor
  · intro hr
    constructor
    · intro n hn
      have hbound := hr.numStreams
      rw [hstreams, hn, Option.getD_some] at hbound
      exact hbound.1
    · exact htime.1 ⟨hr.duration, hr.one_end⟩
    · intro n hn
      have hbound := hr.mss
      rw [hmss, hn, Option.getD_some] at hbound
      exact hbound.1
    · intro n hn
      have hbound := hr.socketBufsize
      rw [hwindow, hn, Option.getD_some] at hbound
      exact hbound.1
    · intro n hn
      have hbound := hr.blksize
      rw [hr.asked_blksize n hn] at hbound
      exact ⟨by omega, hbound.2⟩
    · intro n hn
      have hkept := hr.asked_blocks n hn
      rw [hblocks n hn] at hkept
      exact (toInt_toNat_iff n).1 hkept
  · intro hs
    obtain ⟨hduration, hone⟩ := htime.2 hs.time
    have hmax : MAX_BLOCKSIZE = 1048576 := by decide
    refine ⟨?_, hduration, ?_, ?_, ?_, hblksize, ?_, ?_, hone⟩
    · rw [hstreams]
      exact getD_of_forall (P := fun n => 1 ≤ n ∧ n ≤ MAX_STREAMS)
        (fun n hn => ⟨hs.streams n hn, streams_accepted hloop n hn⟩) (by decide)
    · rw [hmss]
      exact getD_of_forall (P := fun n => 0 ≤ n ∧ n ≤ MAX_MSS)
        (fun n hn => ⟨hs.mss n hn, mss_accepted hloop n hn⟩) (by decide)
    · rw [hwindow]
      exact getD_of_forall (P := fun n => 0 ≤ n ∧ n ≤ MAX_TCP_BUFFER)
        (fun n hn => ⟨hs.window n hn, window_accepted hloop n hn⟩) (by decide)
    · rw [hburst]
      exact getD_of_forall (P := fun n => 0 ≤ n ∧ n ≤ MAX_BURST) (burst_accepted hloop) (by decide)
    · intro n hn
      obtain ⟨hpos, hle⟩ := hs.blksize n hn
      have hne : (n.toNat : Int) ≠ 0 := by omega
      have hkept : toInt n.toNat = n.toNat := (toInt_toNat_iff n).2 (by omega)
      have hn0 : p.blksize ≠ 0 := by
        rw [hsize n hn, hkept]
        exact hne
      change p.finalBlksize = n.toNat
      rw [ParseState.finalBlksize, if_neg hn0, hsize n hn, hkept]
    · intro n hn
      rw [hblocks n hn]
      exact (toInt_toNat_iff n).2 (hs.blocks n hn)

/-- `iperf3 -c h -P 4 -t 30` -/
theorem accepted_runnable_four_streams :
    ∃ t, iperfParseArguments (defaultTest true) [.client "h", .parallel 4, .time 30] = .ok t ∧
      Runnable [.client "h", .parallel 4, .time 30] t := by
  have hsound : SoundOptions [.client "h", .parallel 4, .time 30] := by
    constructor <;> rintro n ⟨⟩ <;> decide
  have hparse : iperfParseArguments (defaultTest true) [.client "h", .parallel 4, .time 30] = .ok _ := rfl
  exact ⟨_, hparse, (accepted_runnable_iff true hparse).2 hsound⟩

/-- `iperf3 -c h -P 0` is accepted, and the test has no streams. -/
theorem no_streams_accepted :
    ¬ ∀ (opts : List Opt) (t : IperfTest), iperfParseArguments (defaultTest true) opts = .ok t → Runnable opts t := by
  intro h
  have hparse : iperfParseArguments (defaultTest true) [.client "h", .parallel 0] = .ok _ := rfl
  exact absurd (h _ _ hparse).numStreams.1 (by decide)

/-! ## The parameters of a client -/

/-- The number of an item that is a number. -/
def Json.number : Json → Option Int
  | num v _ => some v
  | _ => none

/-- The limits that `iperf_parse_arguments` enforces for a local user. -/
structure WithinLimits (t : IperfTest) : Prop where
  omitTime : 0 ≤ t.omitTime ∧ t.omitTime ≤ 60
  mss : t.settings.mss ≤ MAX_MSS
  numStreams : 1 ≤ t.numStreams ∧ t.numStreams ≤ MAX_STREAMS
  socketBufsize : t.settings.socketBufsize ≤ MAX_TCP_BUFFER
  blksize : 1 ≤ t.settings.blksize ∧ t.settings.blksize ≤ MAX_BLOCKSIZE
  burst : 0 ≤ t.settings.burst ∧ t.settings.burst ≤ MAX_BURST

/-- The document has no item `name`, or one with the number `n`. -/
def Told (j : Json) (name : String) (n : Int) : Prop :=
  ∀ p, cJSON_GetObjectItem j name = some p → p.number = some n

/-- Every integer of the test is the number in the document, if there is one. -/
structure AsTold (j : Json) (t : IperfTest) : Prop where
  omitTime : Told j "omit" t.omitTime
  serverAffinity : Told j "server_affinity" t.serverAffinity
  duration : Told j "time" t.duration
  bytes : Told j "num" t.settings.bytes.toNat
  blocks : Told j "blockcount" t.settings.blocks
  mss : Told j "MSS" t.settings.mss
  numStreams : Told j "parallel" t.numStreams
  socketBufsize : Told j "window" t.settings.socketBufsize
  blksize : Told j "len" t.settings.blksize
  rate : Told j "bandwidth" t.settings.rate.toNat
  burst : Told j "burst" t.settings.burst
  tos : Told j "TOS" t.settings.tos
  flowlabel : Told j "flowlabel" t.settings.flowlabel

/-- `get_parameters` copies no string from an item that has none, and leaves a configuration within the
limits, with the numbers of the document. -/
def Checked (j : Json) (t : IperfTest) : Prop :=
  ∃ t', takeParameters j t = some t' ∧ WithinLimits t' ∧ AsTold j t'

/-- The document has no item `name`, or one with a number from `lo` to `hi`. -/
def Within (j : Json) (name : String) (lo hi : Int) : Prop :=
  ∀ p, cJSON_GetObjectItem j name = some p → ∃ n, p.number = some n ∧ lo ≤ n ∧ n ≤ hi

instance (j : Json) (name : String) (lo hi : Int) : Decidable (Within j name lo hi) :=
  match h : cJSON_GetObjectItem j name with
  | none => isTrue fun p hp => by rw [h] at hp; cases hp
  | some p =>
    match hn : p.number with
    | none => isFalse fun hw => by
        obtain ⟨n, hsome, -⟩ := hw p h
        rw [hn] at hsome
        cases hsome
    | some n => decidable_of_iff (lo ≤ n ∧ n ≤ hi) (by unfold Within; simp [h, hn])

/-- A document whose strings are strings and whose numbers are within the limits, where there is one, and
within the type of the setting. -/
structure SoundDocument (j : Json) : Prop where
  strings : StringsOk j
  omitTime : Within j "omit" 0 60
  serverAffinity : Within j "server_affinity" (-2 ^ 31) (2 ^ 31 - 1)
  duration : Within j "time" (-2 ^ 31) (2 ^ 31 - 1)
  bytes : Within j "num" 0 (2 ^ 64 - 1)
  blocks : Within j "blockcount" (-2 ^ 31) (2 ^ 31 - 1)
  mss : Within j "MSS" (-2 ^ 31) MAX_MSS
  numStreams : Within j "parallel" 1 MAX_STREAMS
  socketBufsize : Within j "window" (-2 ^ 31) MAX_TCP_BUFFER
  blksize : Within j "len" 1 MAX_BLOCKSIZE
  rate : Within j "bandwidth" 0 (2 ^ 64 - 1)
  burst : Within j "burst" 0 MAX_BURST
  tos : Within j "TOS" (-2 ^ 31) (2 ^ 31 - 1)
  flowlabel : Within j "flowlabel" (-2 ^ 31) (2 ^ 31 - 1)

theorem Json.valueint_of_number {p : Json} {n : Int} (h : p.number = some n) : p.valueint = n := by
  cases p <;> cases h
  rfl

theorem isInt_toInt (n : Int) : IsInt (toInt n) := by
  have hlo := Int.le_bmod (x := n) (m := 0x100000000) (by omega)
  have hhi := Int.bmod_lt (x := n) (m := 0x100000000) (by omega)
  unfold toInt IsInt
  omega

section
variable {j : Json} {name : String}

/-- An `int` of the test is the number in the document if that is a value of an `int`. -/
theorem told_lookupInt {n d : Int} (h : n = lookupInt j name d) :
    Told j name n ↔ Within j name (-2 ^ 31) (2 ^ 31 - 1) := by
  subst h
  unfold Told Within lookupInt lookupOr
  cases hp : cJSON_GetObjectItem j name with
  | none => simp
  | some p =>
    simp only [Option.some.injEq, forall_eq']
    constructor
    · intro h
      obtain ⟨hlo, hhi⟩ := isInt_toInt p.valueint
      exact ⟨_, h, hlo, by omega⟩
    · rintro ⟨n, hn, hlo, hhi⟩
      rw [Json.valueint_of_number hn, toInt_of_isInt ⟨hlo, by omega⟩, hn]

/-- The same for a `uint64_t`. -/
theorem told_lookupSize {n d : UInt64} (h : n = lookupSize j name d) :
    Told j name n.toNat ↔ Within j name 0 (2 ^ 64 - 1) := by
  subst h
  unfold Told Within lookupSize lookupOr
  cases hp : cJSON_GetObjectItem j name with
  | none => simp
  | some p =>
    simp only [Option.some.injEq, forall_eq']
    have hnat : ((UInt64.ofInt p.valueint).toNat : Int) = p.valueint % 2 ^ 64 := by
      have hmod : (p.valueint % 2 ^ 64).toNat < 2 ^ 64 := by omega
      rw [UInt64.ofInt, UInt64.toNat_ofNat_of_lt' hmod]
      omega
    constructor
    · intro h
      rw [hnat] at h
      exact ⟨_, h, by omega, by omega⟩
    · rintro ⟨n, hn, hlo, hhi⟩
      rw [hnat, Json.valueint_of_number hn, hn, Int.emod_eq_of_lt hlo (by omega)]

/-- An `int` of the test is the number in the document and within its limits `P`, as it was before, exactly if
the number in the document is within them. -/
theorem limited_lookupInt {n d lo hi : Int} (P : Int → Prop) (h : n = lookupInt j name d) (hd : P d)
    (hP : ∀ n, IsInt n → (P n ↔ lo ≤ n ∧ n ≤ hi)) (hlo : -2 ^ 31 ≤ lo) (hhi : hi ≤ 2 ^ 31 - 1) :
    P n ∧ Told j name n ↔ Within j name lo hi := by
  rw [told_lookupInt h]
  subst h
  unfold Within lookupInt lookupOr
  cases hp : cJSON_GetObjectItem j name with
  | none => simpa using hd
  | some p =>
    simp only [Option.some.injEq, forall_eq']
    constructor
    · rintro ⟨hlim, n, hn, h1, h2⟩
      have hint : IsInt n := ⟨h1, by omega⟩
      rw [Json.valueint_of_number hn, toInt_of_isInt hint, hP n hint] at hlim
      exact ⟨n, hn, hlim.1, hlim.2⟩
    · rintro ⟨n, hn, h1, h2⟩
      have hint : IsInt n := ⟨by omega, by omega⟩
      rw [Json.valueint_of_number hn, toInt_of_isInt hint, hP n hint]
      exact ⟨⟨h1, h2⟩, n, hn, by omega, by omega⟩

end

/-- `iperf_reset_test` leaves settings within the limits. -/
theorem resetFields_within (t : IperfTest) : WithinLimits (resetFields t) where
  omitTime := (by decide : 0 ≤ OMIT ∧ OMIT ≤ 60)
  mss := (by decide : (0 : Int) ≤ MAX_MSS)
  numStreams := (by decide : (1 : Int) ≤ 1 ∧ 1 ≤ MAX_STREAMS)
  socketBufsize := (by decide : (0 : Int) ≤ MAX_TCP_BUFFER)
  blksize := (by decide : 1 ≤ DEFAULT_TCP_BLKSIZE ∧ DEFAULT_TCP_BLKSIZE ≤ MAX_BLOCKSIZE)
  burst := (by decide : (0 : Int) ≤ 0 ∧ 0 ≤ MAX_BURST)

/-- The options of a server that is accepted are none of the client's. -/
theorem server_options {opts : List Opt} {p : ParseState} {t t₀ : IperfTest}
    (hloop : opts.foldlM optStep (parseStart t₀) = some p) (h : parseFinish p = .ok t) (hrole : t.role = .server) :
    ∀ o ∈ opts, o.clientOnly = false := by
  have hset : ∀ (o : Opt) (q : ParseState),
      (o.update q).clientFlag = (if o.clientOnly then some true else none).getD q.clientFlag := by
    intro o q
    change (o.clientOnly || q.clientFlag) = _
    cases o.clientOnly <;> rfl
  have hlast := variable_last ParseState.clientFlag (fun o => if o.clientOnly then some true else none) hset hloop
  obtain ⟨rfl, -, hclient⟩ := parseFinish_ok h
  have hflag : p.clientFlag = false := by
    cases hp : p.clientFlag with
    | false => rfl
    | true => exact absurd ⟨hrole, hp⟩ hclient
  intro o ho
  cases hone : o.clientOnly with
  | false => rfl
  | true =>
    -- A client's option would have set the flag.
    have htrue : ∀ b ∈ last (fun o : Opt => if o.clientOnly then some true else none) opts, b = true := by
      refine last_of_forall ?_
      intro o' _ b hb
      cases h' : o'.clientOnly <;> simp [h'] at hb
      exact hb
    cases hl : last (fun o : Opt => if o.clientOnly then some true else none) opts with
    | none =>
      have hnone := last_eq_none.1 hl o ho
      simp [hone] at hnone
    | some b =>
      rw [hl, Option.getD_some, htrue b hl, hflag] at hlast
      cases hlast

/-- A server that `iperf_parse_arguments` accepts has settings within the limits. -/
theorem server_within {sigalrm : Bool} {opts : List Opt} {t : IperfTest}
    (h : iperfParseArguments (defaultTest sigalrm) opts = .ok t) (hrole : t.role = .server) : WithinLimits t := by
  obtain ⟨p, hloop, hend⟩ := parse_checked h
  have hserver := server_options hloop hend hrole
  obtain ⟨rfl, hblksize, -, -⟩ := parseFinish_checked hend
  have hnone : ∀ {α : Type} (f : Opt → Option α), (∀ o : Opt, o.clientOnly = false → f o = none) →
      last f opts = none := by
    intro α f hf
    exact last_eq_none.2 fun o ho => hf o (hserver o ho)
  have hstreams := numStreams_last hloop
  have homit := omitTime_last hloop
  have hmss := mss_last hloop
  have hwindow := window_last hloop
  rw [hnone _ (by intro o ho; cases o <;> first | rfl | cases ho)] at hstreams homit hmss hwindow
  have hburst : ∀ n ∈ last Opt.givenBurst opts, 0 ≤ n ∧ n ≤ MAX_BURST := burst_accepted hloop
  constructor
  · change 0 ≤ p.test.omitTime ∧ p.test.omitTime ≤ 60
    rw [homit]
    cases sigalrm <;> decide
  · change p.test.settings.mss ≤ MAX_MSS
    rw [hmss]
    cases sigalrm <;> decide
  · change 1 ≤ p.test.numStreams ∧ p.test.numStreams ≤ MAX_STREAMS
    rw [hstreams]
    cases sigalrm <;> decide
  · change p.test.settings.socketBufsize ≤ MAX_TCP_BUFFER
    rw [hwindow]
    cases sigalrm <;> decide
  · exact hblksize
  · change 0 ≤ p.test.settings.burst ∧ p.test.settings.burst ≤ MAX_BURST
    rw [burst_last hloop]
    exact getD_of_forall (P := fun n => 0 ≤ n ∧ n ≤ MAX_BURST) hburst (by cases sigalrm <;> decide)

end Iperf
