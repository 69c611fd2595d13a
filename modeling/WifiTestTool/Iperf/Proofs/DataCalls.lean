import WifiTestTool.Iperf.TestTimers
import WifiTestTool.Lib.Frame

/-!
# What the calls that move data do to the test

`Ends t p Q` says where the program `p` returns when the test is `t` at its start. The rules follow the
program and keep track of the test; what does not change the test is `Silent`. At the end stand the
specifications of the functions that close an interval and that start the counting afresh: they say what
becomes of every stream.
-/

namespace Iperf

open Dll (Addr)
open Reactive

variable {α β : Type}

/-- A new block: what was in the buffer is only seen where the block is short. -/
theorem overlay_whole {old new : List UInt8} (h : new.length = old.length) : overlay old new = new := by
  unfold overlay
  rw [h, List.drop_length, List.append_nil]

/-! ## Programs that leave the test alone -/

/-- The program does not change the test. -/
def Silent (p : IperfProg α) : Prop :=
  ∀ t, p.Stays (fun m => m.test = t) (fun _ => True) fun _ => True

namespace Silent

theorem pure (a : α) : Silent (Pure.pure a : IperfProg α) := fun _ => trivial

theorem bind {p : IperfProg α} {f : α → IperfProg β} (hp : Silent p) (hf : ∀ a, Silent (f a)) :
    Silent (p >>= f) := fun t => (hp t).bind fun a => hf a t

theorem ite {c : Prop} [Decidable c] {p q : IperfProg α} (hp : Silent p) (hq : Silent q) :
    Silent (if c then p else q) := by
  split
  · exact hp
  · exact hq

theorem sys (r : Req) : Silent (sys r) := fun _ => (Prog.stays_ask r).2 trivial

theorem stop (h : Halt) : Silent (Prog.stop h : IperfProg α) := fun _ => trivial

theorem setErrno (e : Errno) : Silent (setErrno e) := fun _ => (Prog.stays_modify _).2 fun _ hm => hm

theorem setIErrno (e : IErr) : Silent (setIErrno e) := fun _ => (Prog.stays_modify _).2 fun _ hm => hm

theorem result (a : Except Errno α) (f : α → Int) : Silent (result a f) := by
  cases a with
  | error e => exact .bind (.setErrno e) fun _ => .pure _
  | ok v => exact .pure _

end Silent

theorem gettimeofday_silent : Silent gettimeofday := by
  refine .bind (.sys _) fun a => ?_
  cases a with
  | ok now => exact .pure now
  | error e => exact .bind (.setErrno e) fun _ => .pure _

theorem nreadLoop_silent (fd : Int) (count fuel : Nat) (got : List UInt8) :
    Silent (nreadLoop fd count fuel got) := by
  induction fuel generalizing got with
  | zero => exact .stop _
  | succ fuel ih =>
    refine .ite (.pure _) (.bind (.sys _) fun a => ?_)
    match a with
    | .error .eintr => exact ih got
    | .ok [] => exact .pure _
    | .ok (b :: bs) => exact ih _
    | .error (.other _) | .error .eagain | .error .enobufs | .error .enomem | .error .ebadf
    | .error .eafnosupport | .error .einprogress => exact .bind (.setErrno _) fun _ => .pure _

theorem nwriteLoop_silent (fd : Int) (count fuel : Nat) (left : List UInt8) :
    Silent (nwriteLoop fd count fuel left) := by
  induction fuel generalizing left with
  | zero => exact .stop _
  | succ fuel ih =>
    refine .ite (.pure _) (.bind (.sys _) fun a => ?_)
    match a with
    | .error .eintr => exact .pure _
    | .ok 0 => exact .pure _
    | .ok (n + 1) => exact ih _
    | .error (.other _) | .error .eagain | .error .enobufs | .error .enomem | .error .ebadf
    | .error .eafnosupport | .error .einprogress => exact .bind (.setErrno _) fun _ => .pure _

theorem nsendfileLoop_silent (fromFd toFd : Int) (count fuel nleft : Nat) :
    Silent (nsendfileLoop fromFd toFd count fuel nleft) := by
  induction fuel generalizing nleft with
  | zero => exact .stop _
  | succ fuel ih =>
    refine .ite (.pure _) (.bind (.sys _) fun a => ?_)
    match a with
    | .error .eintr => exact .pure _
    | .ok 0 => exact .pure _
    | .ok (n + 1) => exact ih _
    | .error (.other _) | .error .eagain | .error .enobufs | .error .enomem | .error .ebadf
    | .error .eafnosupport | .error .einprogress => exact .bind (.setErrno _) fun _ => .pure _

theorem saveTcpinfo_silent (socket : Int) (info : TcpInfo) : Silent (saveTcpinfo socket info) := by
  refine .bind (.sys _) fun a => ?_
  cases a with
  | ok info => exact .pure _
  | error e => exact .bind (.setErrno e) fun _ => .bind (.sys _) fun _ => .pure _

theorem resetHandle_silent (now : Timeval) (handle : Option Addr) : Silent (resetHandle now handle) := by
  cases handle with
  | none => exact .pure _
  | some a =>
    intro t
    refine .bind_get fun m hm => ?_
    split
    · exact trivial
    · exact (Prog.stays_modify _).2 fun _ h => h

/-! ## Where a program returns -/

/-- When the test is `t` at the start, the program returns only where `Q` holds of the result and the
test. -/
def Ends (t : IperfTest) (p : IperfProg α) (Q : α → IperfTest → Prop) : Prop :=
  Prog.Hoare (fun m => m.test = t) p fun a m => Q a m.test

namespace Ends

variable {t : IperfTest} {M : α → IperfTest → Prop} {Q : β → IperfTest → Prop}

theorem returns {p : IperfProg α} {m m' : Mem} {a : α} (hp : Ends m.test p M)
    (h : Prog.Returns p m a m') : M a m'.test :=
  (hp m () rfl).reach h

theorem pure {a : α} (h : M a t) : Ends t (Pure.pure a : IperfProg α) M :=
  Prog.Hoare.pure fun _ hm => hm ▸ h

theorem bind {p : IperfProg α} {f : α → IperfProg β} (hp : Ends t p M)
    (hf : ∀ a t', M a t' → Ends t' (f a) Q) : Ends t (p >>= f) Q :=
  Prog.Hoare.bind hp fun a m _ hm => hf a m.test hm m () rfl

theorem mono {M' : α → IperfTest → Prop} {p : IperfProg α} (hp : Ends t p M)
    (hM : ∀ a t', M a t' → M' a t') : Ends t p M' :=
  Prog.Hoare.conseq hp (fun _ h => h) fun a m h => hM a m.test h

theorem ite {c : Prop} [Decidable c] {p q : IperfProg α} (hp : c → Ends t p M)
    (hq : ¬ c → Ends t q M) : Ends t (if c then p else q) M :=
  Prog.Hoare.ite hp hq

theorem stop (h : Halt) : Ends t (Prog.stop h : IperfProg α) M := Prog.Hoare.stop h

theorem getTest_bind {f : IperfTest → IperfProg β} (hf : Ends t (f t) Q) :
    Ends t (getTest >>= f) Q := by
  rintro m g rfl
  exact hf m g rfl

theorem allStreams_bind {f : List Nat → IperfProg β}
    (hf : Ends t (f (List.range t.streams.length)) Q) : Ends t (allStreams >>= f) Q := by
  rintro m g rfl
  exact hf m g rfl

theorem modifyTest {f : IperfTest → IperfTest} {M : Unit → IperfTest → Prop} (h : M () (f t)) :
    Ends t (modifyTest f) M :=
  Prog.Hoare.modify fun _ hm => hm ▸ h

theorem modifyTest_bind {f : IperfTest → IperfTest} {k : Unit → IperfProg β}
    (hk : Ends (f t) (k ()) Q) : Ends t (Iperf.modifyTest f >>= k) Q :=
  bind (M := fun _ t' => t' = f t) (modifyTest rfl) fun _ _ h => h ▸ hk

theorem getStream_bind {sp : Nat} {f : IperfStream → IperfProg β}
    (hf : ∀ st, t.streams[sp]? = some st → Ends t (f st) Q) : Ends t (getStream sp >>= f) Q := by
  refine bind (M := fun st t' => t' = t ∧ t.streams[sp]? = some st) ?_ ?_
  · refine getTest_bind ?_
    split
    · exact stop _
    · rename_i st hst
      exact pure ⟨rfl, hst⟩
  · rintro st _ ⟨rfl, hst⟩
    exact hf st hst

theorem silent {p : IperfProg α} (hp : Silent p) : Ends t p fun _ t' => t' = t :=
  Prog.Stays.hoare (hp t)

theorem silent_bind {p : IperfProg α} {f : α → IperfProg β} (hp : Silent p)
    (hf : ∀ a, Ends t (f a) Q) : Ends t (p >>= f) Q :=
  bind (silent hp) fun a _ h => h ▸ hf a

end Ends

/-! ## Loops over the streams -/

/-- The streams of `t'` are those of `t`, each changed as `R` says; the rest is the same. -/
structure Each (R : IperfStream → IperfStream → Prop) (t t' : IperfTest) : Prop where
  rest : t' = { t with streams := t'.streams }
  streams : List.Forall₂ R t.streams t'.streams

/-- The first `k` streams of `t'` are changed as `R` says; the rest is the same. -/
structure Upto (R : IperfStream → IperfStream → Prop) (t : IperfTest) (k : Nat) (t' : IperfTest) :
    Prop where
  rest : t' = { t with streams := t'.streams }
  length : t'.streams.length = t.streams.length
  done : ∀ i st st', i < k → t.streams[i]? = some st → t'.streams[i]? = some st' → R st st'
  left : ∀ i, k ≤ i → t'.streams[i]? = t.streams[i]?

section Loop

variable {R : IperfStream → IperfStream → Prop} {t t' : IperfTest} {k : Nat}

theorem Upto.zero : Upto R t 0 t :=
  ⟨rfl, rfl, fun _ _ _ hi => absurd hi (Nat.not_lt_zero _), fun _ _ => rfl⟩

/-- The next stream is changed. -/
theorem Upto.step (h : Upto R t k t') {st : IperfStream} {f : IperfStream → IperfStream}
    (hst : t'.streams[k]? = some st) (hR : R st (f st)) :
    Upto R t (k + 1) { t' with streams := t'.streams.modify k f } := by
  refine ⟨?_, ?_, ?_, ?_⟩
  · rw [h.rest]
  · rw [List.length_modify]
    exact h.length
  · intro i st₁ st₂ hi h₁ h₂
    rw [List.getElem?_modify] at h₂
    rcases Nat.lt_succ_iff_lt_or_eq.1 hi with hlt | rfl
    · refine h.done i st₁ st₂ hlt h₁ ?_
      simpa [hlt.ne'] using h₂
    · have hsame : st₁ = st := by
        rw [h.left i le_rfl, h₁] at hst
        exact Option.some.inj hst
      rw [hst] at h₂
      rw [hsame, ← Option.some.inj h₂]
      simpa using hR
  · intro i hi
    rw [List.getElem?_modify, h.left i (Nat.le_of_succ_le hi)]
    have hne : k ≠ i := by omega
    simp [hne]

/-- All streams are changed. -/
theorem Upto.all (h : Upto R t k t') (hk : t.streams.length = k) : Each R t t' := by
  refine ⟨h.rest, List.forall₂_iff_get.2 ⟨h.length.symm, fun i h₁ h₂ => ?_⟩⟩
  refine h.done i _ _ (hk ▸ h₁) ?_ ?_
  · simp [List.get_eq_getElem, List.getElem?_eq_getElem h₁]
  · simp [List.get_eq_getElem, List.getElem?_eq_getElem h₂]

/-- A loop over all streams whose body changes its stream. -/
theorem Ends.forAllStreams {body : Nat → IperfProg Unit}
    (hbody : ∀ k t', Upto R t k t' → Ends t' (body k) fun _ t'' => Upto R t (k + 1) t'') :
    Ends t (allStreams >>= Iperf.forAllStreams body) fun _ t' => Each R t t' := by
  have hloop : ∀ n k t', k + n = t.streams.length → Upto R t k t' →
      Ends t' (Iperf.forAllStreams body (List.range' k n)) fun _ t'' => Each R t t'' := by
    intro n
    induction n with
    | zero => exact fun k t' hk h => .pure (h.all hk.symm)
    | succ n ih =>
      intro k t' hk h
      exact .bind (hbody k t' h) fun _ t'' h' => ih (k + 1) t'' (by omega) h'
  refine .allStreams_bind ?_
  rw [List.range_eq_range']
  exact hloop _ 0 _ (Nat.zero_add _) .zero

end Loop

/-! ## The statistics -/

/-- `temp` is the record of an interval of the stream `st`. -/
structure RecordOf (t : IperfTest) (st : IperfStream) (temp : IperfIntervalResults) : Prop where
  omitted : temp.omitted = t.omitting
  bytes : temp.bytesTransferred = st.result.thisInterval t.sender
  packets : t.protocol ≠ .tcp → ∃ temp₀, temp = packetRecord st temp₀

/-- Does `iperf_stats_callback` count the retransmits? -/
def IperfTest.countsRetransmits (t : IperfTest) : Prop :=
  t.protocol = .tcp ∧ (t.sender && decide (t.senderHasRetransmits ≠ 0)) = true

instance (t : IperfTest) : Decidable t.countsRetransmits := inferInstanceAs (Decidable (_ ∧ _))

/-- `iperf_stats_callback` makes `st'` of the stream `st`. -/
def ClosesInterval (t : IperfTest) (st st' : IperfStream) : Prop :=
  ∃ temp endTime, RecordOf t st temp ∧
    st' = ((if t.countsRetransmits then st.countRetransmits temp else st).closeInterval temp endTime)

theorem ClosesInterval.counted {t : IperfTest} {st : IperfStream} {temp : IperfIntervalResults}
    {endTime : Timeval} (hc : t.countsRetransmits) (h : RecordOf t st temp) :
    ClosesInterval t st ((st.countRetransmits temp).closeInterval temp endTime) :=
  ⟨temp, endTime, h, by rw [if_pos hc]⟩

theorem ClosesInterval.plain {t : IperfTest} {st : IperfStream} {temp : IperfIntervalResults}
    {endTime : Timeval} (hc : ¬ t.countsRetransmits) (h : RecordOf t st temp) :
    ClosesInterval t st (st.closeInterval temp endTime) :=
  ⟨temp, endTime, h, by rw [if_neg hc]⟩

theorem packetRecord_omitted (st : IperfStream) (temp : IperfIntervalResults) :
    (packetRecord st temp).omitted = temp.omitted := by
  unfold packetRecord
  cases st.result.intervalResults.getLast? <;> rfl

theorem packetRecord_bytes (st : IperfStream) (temp : IperfIntervalResults) :
    (packetRecord st temp).bytesTransferred = temp.bytesTransferred := by
  unfold packetRecord
  cases st.result.intervalResults.getLast? <;> rfl

theorem Upto.sender {R : IperfStream → IperfStream → Prop} {t t' : IperfTest} {k : Nat}
    (h : Upto R t k t') : t'.sender = t.sender := by
  rw [h.rest]

theorem Upto.protocol {R : IperfStream → IperfStream → Prop} {t t' : IperfTest} {k : Nat}
    (h : Upto R t k t') : t'.protocol = t.protocol := by
  rw [h.rest]

theorem Upto.senderHasRetransmits {R : IperfStream → IperfStream → Prop} {t t' : IperfTest} {k : Nat}
    (h : Upto R t k t') : t'.senderHasRetransmits = t.senderHasRetransmits := by
  rw [h.rest]

/-- The loop of `iperf_stats_callback` closes the interval of every stream that is left. -/
theorem statsStreams_ends {t : IperfTest} (n : Nat) :
    ∀ k t' temp, k + n = t.streams.length → Upto (ClosesInterval t) t k t' →
      temp.omitted = t.omitting →
      Ends t' (statsStreams (List.range' k n) temp) fun _ t'' => Each (ClosesInterval t) t t'' := by
  induction n with
  | zero => exact fun k t' temp hk h _ => .pure (h.all hk.symm)
  | succ n ih =>
    intro k t' temp hk h homit
    refine .getTest_bind (.getStream_bind fun st hst => .silent_bind gettimeofday_silent fun endTime => ?_)
    have hbytes : (intervalRecord t' st endTime temp).bytesTransferred = st.result.thisInterval t.sender := by
      rw [← h.sender]
      rfl
    refine .ite (fun htcp => ?_) fun htcp => ?_
    · refine .silent_bind (saveTcpinfo_silent _ _) fun info => .ite (fun hretrans => ?_) fun hretrans => ?_
      · have hc : t.countsRetransmits := by
          refine ⟨h.protocol ▸ htcp, ?_⟩
          rw [← h.sender, ← h.senderHasRetransmits]
          exact hretrans
        refine .modifyTest_bind (.modifyTest_bind ?_)
        rw [List.modify_modify_eq]
        refine ih (k + 1) _ _ (by omega) (h.step hst ?_) homit
        exact .counted hc ⟨homit, hbytes, fun hne => absurd hc.1 hne⟩
      · have hc : ¬ t.countsRetransmits := by
          rintro ⟨-, hc⟩
          rw [← h.sender, ← h.senderHasRetransmits] at hc
          exact hretrans hc
        refine .modifyTest_bind (ih (k + 1) _ _ (by omega) (h.step hst ?_) homit)
        exact .plain hc ⟨homit, hbytes, fun hne => absurd (h.protocol ▸ htcp) hne⟩
    · have hc : ¬ t.countsRetransmits := fun hc => htcp (h.protocol.trans hc.1)
      have homit' := (packetRecord_omitted st (intervalRecord t' st endTime temp)).trans homit
      refine .modifyTest_bind (ih (k + 1) _ _ (by omega) (h.step hst ?_) homit')
      exact .plain hc ⟨homit', (packetRecord_bytes _ _).trans hbytes, fun _ => ⟨_, rfl⟩⟩

/-- `iperf_stats_callback` closes the interval of every stream. -/
theorem iperfStatsCallback_ends (t : IperfTest) :
    Ends t iperfStatsCallback fun _ t' => Each (ClosesInterval t) t t' := by
  refine .getTest_bind (.silent_bind (.sys _) fun temp => .allStreams_bind ?_)
  rw [List.range_eq_range']
  exact statsStreams_ends _ 0 t _ (Nat.zero_add _) .zero rfl

/-- `iperf_reset_stats` makes `st'` of the stream `st`. -/
def Restarts (st st' : IperfStream) : Prop := ∃ now total, st' = st.resetStats now total

/-- `iperf_reset_stats` starts the counting afresh on every stream. -/
theorem iperfResetStats_ends (t : IperfTest) :
    Ends t iperfResetStats fun _ t' => Each Restarts { t with bytesSent := 0, blocksSent := 0 } t' := by
  refine .modifyTest_bind (.silent_bind gettimeofday_silent fun now => .forAllStreams fun k t' h => ?_)
  refine .getTest_bind (.getStream_bind fun st hst => .ite (fun _ => ?_) fun _ => ?_)
  · refine .silent_bind (.sys _) fun ir => .silent_bind (saveTcpinfo_silent _ _) fun info => ?_
    exact .modifyTest (h.step hst ⟨_, _, rfl⟩)
  · exact .modifyTest (h.step hst ⟨_, _, rfl⟩)

/-- When the omit period is over, the counting starts afresh. -/
theorem omitTimerProc_ends (t : IperfTest) (now : Timeval) :
    Ends t (omitTimerProc now) fun _ t' =>
      Each Restarts { t with omitTimer := none, omitting := false, bytesSent := 0, blocksSent := 0 } t' := by
  refine .modifyTest_bind (.bind (iperfResetStats_ends _) fun _ t' h => .getTest_bind ?_)
  have hreset : Silent (do
      resetHandle now t'.statsTimer
      resetHandle now t'.reporterTimer) :=
    .bind (resetHandle_silent _ _) fun _ => resetHandle_silent _ _
  refine .ite (fun _ => ?_) fun _ => ?_
  · exact .silent_bind (.sys _) fun _ => (Ends.silent hreset).mono fun _ _ ht => ht ▸ h
  · exact (Ends.silent hreset).mono fun _ _ ht => ht ▸ h

end Iperf
