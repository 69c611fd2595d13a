import WifiTestTool.Iperf.Proofs.DataCalls
import WifiTestTool.Iperf.Proofs.NewStream
import WifiTestTool.Iperf.Proofs.ParamsExchange

/-!
# Sending with and without the zero-copy option

`Nwrite` sends the buffer of a stream, `Nsendfile` the file behind it. The buffer is a private mapping of
this file, so what is stored to it (random bytes at the start, the blocks of a disk file later) never gets
into the file, which holds the zeros of `ftruncate` for the life of the stream.
-/

namespace Iperf

open Reactive

/-! ## One transfer -/

/-- The number of bytes that were transferred. -/
def transferred : List (Except Errno Nat) → Nat
  | [] => 0
  | .ok n :: outs => n + transferred outs
  | .error _ :: outs => transferred outs

theorem transferred_snoc_ok (outs : List (Except Errno Nat)) (n : Nat) :
    transferred (outs ++ [.ok n]) = transferred outs + n := by
  induction outs with
  | nil => simp [transferred]
  | cons a outs ih =>
    cases a with
    | error e => exact ih
    | ok k =>
      show k + transferred (outs ++ [.ok n]) = k + transferred outs + n
      rw [ih, Nat.add_assoc]

theorem transferred_snoc_error (outs : List (Except Errno Nat)) (e : Errno) :
    transferred (outs ++ [.error e]) = transferred outs := by
  induction outs with
  | nil => rfl
  | cons a outs ih =>
    cases a with
    | error e => exact ih
    | ok k => exact congrArg (k + ·) ih

/-- The system after the data `src` was sent over the socket `fd` with the results `outs`; `sent` and
`received` are the bytes of the socket before. -/
def Os.moved (fd : Int) (sent received src : List UInt8) (outs : List (Except Errno Nat)) (g : Os) : Os :=
  { g with
    handle := Function.update g.handle fd (some (.socket (sent ++ src.take (transferred outs)) received))
    transfers := g.transfers ++ outs }

section Moved

variable {g : Os} {fd : Int} {sent received src : List UInt8}

theorem Os.moved_nil (h : g.handle fd = some (.socket sent received)) :
    g.moved fd sent received src [] = g := by
  unfold Os.moved
  rw [transferred, List.take_zero, List.append_nil, List.append_nil, ← h, Function.update_eq_self]

theorem Os.moved_error (outs : List (Except Errno Nat)) (e : Errno) :
    (g.moved fd sent received src outs).note (.error e) =
      g.moved fd sent received src (outs ++ [.error e]) := by
  unfold Os.moved Os.note
  rw [transferred_snoc_error, List.append_assoc]

/-- `n` more bytes of the data. -/
theorem Os.moved_ok (outs : List (Except Errno Nat)) (n : Nat) :
    ((g.moved fd sent received src outs).adjust fd
        (Handle.write ((src.drop (transferred outs)).take n))).note (.ok n) =
      g.moved fd sent received src (outs ++ [.ok n]) := by
  have hhandle : (g.moved fd sent received src outs).handle fd =
      some (.socket (sent ++ src.take (transferred outs)) received) := Function.update_self ..
  unfold Os.adjust
  rw [hhandle]
  unfold Os.moved Os.put Os.note
  dsimp only [Option.map_some, Handle.write]
  rw [Function.update_idem, transferred_snoc_ok, List.append_assoc, List.append_assoc, ← List.take_add]

end Moved

/-- The test is `t`, and the data `src` has been sent; `r` is the number of bytes, or the code of an
error. -/
def MovedAt (t : IperfTest) (g₀ : Os) (fd : Int) (sent received src : List UInt8) (r : Int) (m : Mem)
    (g : Os) : Prop :=
  m.test = t ∧ ∃ outs, transferred outs ≤ src.length ∧ g = g₀.moved fd sent received src outs ∧
    (r = transferred outs ∨ r = NET_SOFTERROR ∨ r = NET_HARDERROR)

/-- `Nwrite` sends its buffer. -/
theorem nwrite_moves {t : IperfTest} {g₀ : Os} {fd : Int} {sent received : List UInt8} (fuel : Nat)
    (buf : List UInt8) (hfd : g₀.handle fd = some (.socket sent received)) :
    Prog.Triple systemContract (fun m g => m.test = t ∧ g = g₀) (nwrite fuel fd buf) fun r =>
      MovedAt t g₀ fd sent received buf r := by
  suffices H : ∀ fuel outs, transferred outs ≤ buf.length →
      Prog.Triple systemContract (fun m g => m.test = t ∧ g = g₀.moved fd sent received buf outs)
        (nwriteLoop fd buf.length fuel (buf.drop (transferred outs))) fun r =>
        MovedAt t g₀ fd sent received buf r by
    have := H fuel [] (Nat.zero_le _)
    rw [Os.moved_nil hfd] at this
    exact this
  intro fuel
  induction fuel with
  | zero => exact fun _ _ _ _ _ => trivial
  | succ fuel ih =>
    intro outs hle
    refine .ite (fun hnil => .ret fun m g h => ⟨h.1, outs, hle, h.2, .inl ?_⟩) fun _ => ?_
    · have := List.drop_eq_nil_iff.1 hnil
      omega
    rintro m g ⟨hm, rfl⟩
    refine ⟨trivial, fun a ha => ?_⟩
    have hfail : ∀ e r, (r = (transferred outs : Int) ∨ r = NET_SOFTERROR ∨ r = NET_HARDERROR) →
        MovedAt t g₀ fd sent received buf r m
          ((g₀.moved fd sent received buf outs).note (.error e)) := fun e r hr => by
      refine ⟨hm, outs ++ [.error e], ?_, Os.moved_error outs e, ?_⟩
      · rw [transferred_snoc_error]
        exact hle
      · rw [transferred_snoc_error]
        exact hr
    match a, ha with
    | .error .eintr, _ =>
      refine hfail _ _ (.inl ?_)
      rw [List.length_drop]
      omega
    | .error .eagain, _ | .error .enobufs, _ => exact ⟨trivial, hfail _ _ (.inr (.inl rfl))⟩
    | .error (.other _), _ | .error .enomem, _ | .error .ebadf, _ | .error .eafnosupport, _
    | .error .einprogress, _ => exact ⟨trivial, hfail _ _ (.inr (.inr rfl))⟩
    | .ok 0, ha =>
      refine ⟨hm, outs ++ [.ok 0], by rw [transferred_snoc_ok]; exact hle, ?_, .inr (.inl rfl)⟩
      exact Os.moved_ok outs 0
    | .ok (n + 1), ha =>
      have hn : n + 1 ≤ (buf.drop (transferred outs)).length := ha.2
      rw [List.length_drop] at hn
      have hnext := ih (outs ++ [.ok (n + 1)]) (by rw [transferred_snoc_ok]; omega)
      rw [transferred_snoc_ok, ← List.drop_drop] at hnext
      exact hnext m _ ⟨hm, Os.moved_ok outs (n + 1)⟩

/-- `Nsendfile` sends the file. -/
theorem nsendfile_moves {t : IperfTest} {g₀ : Os} {fromFd toFd : Int} {sent received src : List UInt8}
    {pos : Nat} (fuel count : Nat) (hto : g₀.handle toFd = some (.socket sent received))
    (hfrom : g₀.handle fromFd = some (.file src pos)) :
    Prog.Triple systemContract (fun m g => m.test = t ∧ g = g₀) (nsendfile fuel fromFd toFd count) fun r =>
      MovedAt t g₀ toFd sent received src r := by
  have hne : fromFd ≠ toFd := by
    rintro rfl
    rw [hto] at hfrom
    cases hfrom
  have hcontents : ∀ outs, (g₀.moved toFd sent received src outs).contents fromFd = src := by
    intro outs
    have : (g₀.moved toFd sent received src outs).handle fromFd = some (.file src pos) :=
      (Function.update_of_ne hne ..).trans hfrom
    unfold Os.contents
    rw [this]
  suffices H : ∀ fuel outs, transferred outs ≤ src.length → transferred outs ≤ count →
      Prog.Triple systemContract (fun m g => m.test = t ∧ g = g₀.moved toFd sent received src outs)
        (nsendfileLoop fromFd toFd count fuel (count - transferred outs)) fun r =>
        MovedAt t g₀ toFd sent received src r by
    have := H fuel [] (Nat.zero_le _) (Nat.zero_le _)
    rw [Os.moved_nil hto] at this
    exact this
  intro fuel
  induction fuel with
  | zero => exact fun _ _ _ _ _ _ => trivial
  | succ fuel ih =>
    intro outs hle hcount
    refine .ite (fun hzero => .ret fun m g h => ⟨h.1, outs, hle, h.2, .inl (by omega)⟩) fun _ => ?_
    rw [Nat.sub_sub_self hcount]
    rintro m g ⟨hm, rfl⟩
    refine ⟨trivial, fun a ha => ?_⟩
    have hfail : ∀ e r, (r = (transferred outs : Int) ∨ r = NET_SOFTERROR ∨ r = NET_HARDERROR) →
        MovedAt t g₀ toFd sent received src r m
          ((g₀.moved toFd sent received src outs).note (.error e)) := fun e r hr => by
      refine ⟨hm, outs ++ [.error e], ?_, Os.moved_error outs e, ?_⟩
      · rw [transferred_snoc_error]
        exact hle
      · rw [transferred_snoc_error]
        exact hr
    have hok : ∀ n, (g₀.moved toFd sent received src outs).answer
        (.sendfile toFd fromFd (transferred outs) (count - transferred outs)) (.ok n) =
        g₀.moved toFd sent received src (outs ++ [.ok n]) := fun n => by
      unfold Os.answer
      dsimp only
      rw [hcontents, Os.moved_ok]
    match a, ha with
    | .error .eintr, _ => exact hfail _ _ (.inl (by omega))
    | .error .eagain, _ | .error .enobufs, _ | .error .enomem, _ =>
      exact ⟨trivial, hfail _ _ (.inr (.inl rfl))⟩
    | .error (.other _), _ | .error .ebadf, _ | .error .eafnosupport, _ | .error .einprogress, _ =>
      exact ⟨trivial, hfail _ _ (.inr (.inr rfl))⟩
    | .ok 0, ha =>
      refine ⟨hm, outs ++ [.ok 0], by rw [transferred_snoc_ok]; exact hle, ?_, .inr (.inl rfl)⟩
      exact hok 0
    | .ok (n + 1), ha =>
      obtain ⟨-, hn, hfile⟩ := ha
      rw [hcontents] at hfile
      have hnext := ih (outs ++ [.ok (n + 1)]) (by rw [transferred_snoc_ok]; omega)
        (by rw [transferred_snoc_ok]; omega)
      rw [transferred_snoc_ok, ← Nat.sub_sub] at hnext
      exact hnext m _ ⟨hm, hok (n + 1)⟩

/-! ## The files behind the buffers -/

/-- The file behind the buffer of every stream holds zeros, and nothing else is open there. -/
structure Backed (c : IperfTest × List StreamCore) (g : Os) : Prop where
  sockets : ∀ st ∈ c.2, ∃ sent received, g.handle st.socket = some (.socket sent received)
  buffers : ∀ st ∈ c.2, 0 ≤ st.bufferFd ∧
    ∃ pos, g.handle st.bufferFd = some (.file (List.replicate c.1.settings.blksize.toNat 0) pos)
  disks : ∀ st ∈ c.2, st.diskfileFd < 0 ∨ g.handle st.diskfileFd ≠ none
  apart : ∀ st ∈ c.2, ∀ st' ∈ c.2, st.bufferFd ≠ st'.diskfileFd

namespace Backed

variable {c : IperfTest × List StreamCore} {g : Os} {fd : Int}

theorem buffer_ne_socket (h : Backed c g) {st st' : StreamCore} (hst : st ∈ c.2) (hst' : st' ∈ c.2) :
    st.bufferFd ≠ st'.socket := by
  intro heq
  obtain ⟨-, pos, hbuffer⟩ := h.buffers st hst
  obtain ⟨sent, received, hsocket⟩ := h.sockets st' hst'
  rw [heq, hsocket] at hbuffer
  cases hbuffer

/-- Reading and writing elsewhere. -/
theorem adjust {f : Handle → Handle} (h : Backed c g) (hne : ∀ st ∈ c.2, st.bufferFd ≠ fd)
    (hf : ∀ sent received, ∃ sent' received', f (.socket sent received) = .socket sent' received') :
    Backed c (g.adjust fd f) := by
  refine ⟨fun st hst => ?_, fun st hst => ?_, fun st hst => ?_, h.apart⟩
  · obtain ⟨sent, received, hsocket⟩ := h.sockets st hst
    by_cases heq : st.socket = fd
    · obtain ⟨sent', received', hf⟩ := hf sent received
      rw [heq] at hsocket
      exact ⟨sent', received', by rw [heq, Os.handle_adjust_same, hsocket, Option.map_some, hf]⟩
    · exact ⟨sent, received, (Os.handle_adjust_of_ne heq).trans hsocket⟩
  · rw [Os.handle_adjust_of_ne (hne st hst)]
    exact h.buffers st hst
  · refine (h.disks st hst).imp_right fun hopen => ?_
    by_cases heq : st.diskfileFd = fd
    · rw [heq] at hopen ⊢
      rw [Os.handle_adjust_same]
      exact fun hnone => hopen (Option.map_eq_none_iff.1 hnone)
    · rw [Os.handle_adjust_of_ne heq]
      exact hopen

/-- The requests of the measurement leave the files behind the buffers alone. -/
theorem answer (h : Backed c g) {r : Req} (hr : r.harmless c.2) (a : r.Ans) : Backed c (g.answer r a) := by
  have hne : ∀ {fd}, (∃ st ∈ c.2, fd = st.socket ∨ fd = st.diskfileFd) → ∀ st ∈ c.2, st.bufferFd ≠ fd := by
    rintro fd ⟨st', hst', rfl | rfl⟩ st hst
    · exact h.buffer_ne_socket hst hst'
    · exact h.apart st hst st' hst'
  have hwrite : ∀ bs sent received, ∃ sent' received',
      Handle.write bs (.socket sent received) = .socket sent' received' := fun _ _ _ => ⟨_, _, rfl⟩
  cases r with
  | read fd n =>
    cases a with
    | error e => exact h
    | ok bs => exact h.adjust (hne hr) fun _ _ => ⟨_, _, rfl⟩
  | write fd bs =>
    cases a with
    | error e => exact ⟨h.sockets, h.buffers, h.disks, h.apart⟩
    | ok n =>
      obtain ⟨h₁, h₂, h₃, h₄⟩ := h.adjust (hne hr) (hwrite (bs.take n))
      exact ⟨h₁, h₂, h₃, h₄⟩
  | sendfile toFd fromFd offset n =>
    cases a with
    | error e => exact ⟨h.sockets, h.buffers, h.disks, h.apart⟩
    | ok k =>
      obtain ⟨st', hst', rfl, -⟩ := hr
      obtain ⟨h₁, h₂, h₃, h₄⟩ := h.adjust (hne ⟨st', hst', .inl rfl⟩)
        (hwrite (((g.contents fromFd).drop offset).take k))
      exact ⟨h₁, h₂, h₃, h₄⟩
  | _ => first | exact h | exact hr.elim

/-- A descriptor that no stream has. -/
theorem put (h : Backed c g) (v : Option Handle)
    (hne : ∀ st ∈ c.2, st.socket ≠ fd ∧ st.bufferFd ≠ fd ∧ st.diskfileFd ≠ fd) : Backed c (g.put fd v) := by
  refine ⟨fun st hst => ?_, fun st hst => ?_, fun st hst => ?_, h.apart⟩
  · rw [Os.handle_put_of_ne v (hne st hst).1]
    exact h.sockets st hst
  · rw [Os.handle_put_of_ne v (hne st hst).2.1]
    exact h.buffers st hst
  · rw [Os.handle_put_of_ne v (hne st hst).2.2]
    exact h.disks st hst

/-- No stream has a descriptor that is not in use. -/
theorem fresh (h : Backed c g) (hfd : 0 ≤ fd ∧ g.handle fd = none) :
    ∀ st ∈ c.2, st.socket ≠ fd ∧ st.bufferFd ≠ fd ∧ st.diskfileFd ≠ fd := by
  intro st hst
  refine ⟨?_, ?_, ?_⟩
  · rintro rfl
    obtain ⟨sent, received, hsocket⟩ := h.sockets st hst
    rw [hfd.2] at hsocket
    cases hsocket
  · rintro rfl
    obtain ⟨-, pos, hbuffer⟩ := h.buffers st hst
    rw [hfd.2] at hbuffer
    cases hbuffer
  · rintro rfl
    rcases h.disks st hst with hneg | hopen
    · omega
    · exact hopen hfd.2

end Backed

/-- A part of the program that measures leaves the files behind the buffers alone. -/
theorem measures_backed {α : Type} {p : IperfProg α} (hp : Measures p) :
    Prog.Triple systemContract (fun m g => Backed m.test.core g) p fun _ m g => Backed m.test.core g := by
  intro m g hm
  refine (Prog.Stays.safe (J := Backed m.test.core) (hp _ _ _ (harmless_at m.test.core)) rfl hm
    (fun m' g' r hc hg hr => ⟨trivial, fun a _ => hg.answer hr a⟩) (fun _ _ _ hg => ⟨trivial, hg⟩)
    fun _ _ _ _ _ _ => trivial).mono ?_
  rintro _ m' g' ⟨hcore, hg⟩
  exact hcore ▸ hg

/-- The new stream joins the others. -/
theorem Backed.add {t : IperfTest} {g : Os} {st : IperfStream} (h : Backed t.core g)
    (hsocket : ∃ sent received, g.handle st.socket = some (.socket sent received))
    (hbuffer : 0 ≤ st.bufferFd ∧
      ∃ pos, g.handle st.bufferFd = some (.file (List.replicate t.settings.blksize.toNat 0) pos))
    (hdisk : st.diskfileFd < 0 ∨ g.handle st.diskfileFd ≠ none)
    (hapart : st.bufferFd ≠ st.diskfileFd) (hold : ∀ st' ∈ t.core.2, st'.diskfileFd ≠ st.bufferFd)
    (hold' : ∀ st' ∈ t.core.2, st'.bufferFd ≠ st.diskfileFd) : Backed (iperfAddStream st t).core g := by
  have hcore : ∀ sc, sc ∈ (iperfAddStream st t).core.2 → sc ∈ t.core.2 ∨
      (sc.socket = st.socket ∧ sc.bufferFd = st.bufferFd ∧ sc.diskfileFd = st.diskfileFd) := by
    intro sc hsc
    obtain ⟨st', hst', rfl⟩ := List.mem_map.1 hsc
    rcases List.mem_append.1 hst' with hst' | hst'
    · exact .inl (List.mem_map_of_mem hst')
    · rw [List.mem_singleton.1 hst']
      exact .inr ⟨rfl, rfl, rfl⟩
  refine ⟨fun sc hsc => ?_, fun sc hsc => ?_, fun sc hsc => ?_, fun sc hsc sc' hsc' => ?_⟩
  · rcases hcore sc hsc with hsc | ⟨h₁, -, -⟩
    · exact h.sockets sc hsc
    · exact h₁ ▸ hsocket
  · rcases hcore sc hsc with hsc | ⟨-, h₂, -⟩
    · exact h.buffers sc hsc
    · exact h₂ ▸ hbuffer
  · rcases hcore sc hsc with hsc | ⟨-, -, h₃⟩
    · exact h.disks sc hsc
    · exact h₃ ▸ hdisk
  · rcases hcore sc hsc with hsc | ⟨-, h₂, -⟩ <;> rcases hcore sc' hsc' with hsc' | ⟨-, -, h₃⟩
    · exact h.apart sc hsc sc' hsc'
    · exact h₃ ▸ hold' sc hsc
    · exact h₂ ▸ (hold sc' hsc').symm
    · exact h₂ ▸ h₃ ▸ hapart

/-- A descriptor for a new buffer. -/
theorem Backed.withBuffer {t : IperfTest} {g : Os} {bufferFd : Int} (h : Backed t.core g)
    (hfree : g.Free bufferFd) : Backed t.core (g.withBuffer t bufferFd) :=
  h.put _ (h.fresh hfree)

/-- `iperf_new_stream` leaves the other streams alone, and the file behind the new buffer holds zeros. -/
theorem Backed.newStream {t t' : IperfTest} {g g' : Os} {s : Int} {ok : Bool} (h : Backed t.core g)
    (hs : ∃ sent received, g.handle s = some (.socket sent received))
    (hr : NewStreamResult t g s ok t' g') : Backed t'.core g' := by
  have hsocket : ∀ {fd : Int} {g₁ : Os} (v : Option Handle), g₁.Free fd →
      (∃ sent received, g₁.handle s = some (.socket sent received)) →
      ∃ sent received, (g₁.put fd v).handle s = some (.socket sent received) := by
    rintro fd g₁ v hfree ⟨sent, received, hs⟩
    have hne : s ≠ fd := by
      rintro rfl
      rw [hfree.2] at hs
      cases hs
    exact ⟨sent, received, (Os.handle_put_of_ne v hne).trans hs⟩
  cases hr with
  | noFile hfree _ => exact h.withBuffer hfree
  | noInit hfree hprep =>
    have hunused := h.fresh hfree
    cases hprep with
    | plain _ => exact (h.withBuffer hfree).put none hunused
    | disk _ hdisk => exact ((h.withBuffer hfree).put _ ((h.withBuffer hfree).fresh hdisk)).put none hunused
  | @made bufferFd _ _ _ hfree hprep _ =>
    have hunused := h.fresh hfree
    have hbuffer := h.withBuffer hfree
    have hzeros := g.handle_withBuffer t
    cases hprep with
    | plain _ =>
      refine hbuffer.add (hsocket _ hfree hs) ⟨hfree.1, 0, hzeros _⟩ (.inl ?_) ?_ ?_ ?_
      · show (-1 : Int) < 0
        decide
      · have := hfree.1
        show bufferFd ≠ -1
        omega
      · exact fun st hst => (hunused st hst).2.2
      · intro st hst
        have := (h.buffers st hst).1
        show st.bufferFd ≠ -1
        omega
    | disk _ hdisk =>
      have hne := g.withBuffer_ne hdisk
      refine (hbuffer.put _ (hbuffer.fresh hdisk)).add (hsocket _ hdisk (hsocket _ hfree hs))
        ⟨hfree.1, 0, ?_⟩ (.inr ?_) hne ?_ ?_
      · exact (Os.handle_put_of_ne _ hne).trans (hzeros _)
      · exact (Os.handle_put_same _).trans_ne nofun
      · exact fun st hst => (hunused st hst).2.2
      · exact fun st hst => (hbuffer.fresh hdisk st hst).2.1

/-! ## Runs -/

/-- A run of a test from `m₀`: connections are opened, streams are made for them, and data is sent and
received; the timers may expire. -/
inductive TransferRun (m₀ : Mem) (g₀ : Os) : Mem → Os → Prop where
  | start : TransferRun m₀ g₀ m₀ g₀
  | connected {m : Mem} {g : Os} {fd : Int} : TransferRun m₀ g₀ m g → 0 ≤ fd ∧ g.handle fd = none →
      TransferRun m₀ g₀ m (g.put fd (some (.socket [] [])))
  | newStream {m m' : Mem} {g g' : Os} {s : Int} {ok : Bool} : TransferRun m₀ g₀ m g →
      (∃ sent received, g.handle s = some (.socket sent received)) →
      Prog.Reach systemContract (iperfNewStream s, m, g) (.ret ok, m', g') → TransferRun m₀ g₀ m' g'
  | send {m m' : Mem} {g g' : Os} {fuel : Nat} {writeSet : Option FdSet} {r : Int} :
      TransferRun m₀ g₀ m g →
      Prog.Reach systemContract (iperfSend fuel writeSet, m, g) (.ret r, m', g') →
      TransferRun m₀ g₀ m' g'
  | recv {m m' : Mem} {g g' : Os} {fuel : Nat} {readSet : FdSet} {r : Int} : TransferRun m₀ g₀ m g →
      Prog.Reach systemContract (iperfRecv fuel readSet, m, g) (.ret r, m', g') →
      TransferRun m₀ g₀ m' g'
  | timers {m m' : Mem} {g g' : Os} {fuel : Nat} : TransferRun m₀ g₀ m g →
      Prog.Reach systemContract (runTimers fuel, m, g) (.ret (), m', g') → TransferRun m₀ g₀ m' g'

/-- Along a run the files behind the buffers hold zeros. -/
theorem transferRun_backed {m₀ m : Mem} {g₀ g : Os} (hnone : m₀.test.streams = [])
    (h : TransferRun m₀ g₀ m g) : Backed m.test.core g := by
  induction h with
  | start =>
    have hcore : m₀.test.core.2 = [] := by
      show m₀.test.streams.map _ = []
      rw [hnone, List.map_nil]
    have hmem : ∀ st, st ∉ m₀.test.core.2 := fun st => by rw [hcore]; exact List.not_mem_nil
    exact ⟨fun st hst => absurd hst (hmem st), fun st hst => absurd hst (hmem st),
      fun st hst => absurd hst (hmem st), fun st hst => absurd hst (hmem st)⟩
  | connected _ hfd ih => exact ih.put _ (ih.fresh hfd)
  | newStream _ hs hcall ih => exact ih.newStream hs ((iperfNewStream_result _ _ ⟨rfl, rfl⟩).reach hcall)
  | send _ hcall ih =>
    exact (measures_backed (fun _ _ _ hh => iperfSend_neutral hh _ _) _ _ ih).reach hcall
  | recv _ hcall ih =>
    exact (measures_backed (fun _ _ _ hh => iperfRecv_neutral hh _ _) _ _ ih).reach hcall
  | timers _ hcall ih =>
    exact (measures_backed (fun _ _ _ hh => runTimers_neutral hh _) _ _ ih).reach hcall

/-! ## The data of a stream -/

/-- What a stream sends of: the zeros in the file or the bytes in its buffer. -/
def sendSource (t : IperfTest) (buffer : List UInt8) : List UInt8 :=
  if t.zerocopy then List.replicate t.settings.blksize.toNat 0 else buffer.take (sizeT t.settings.blksize)

/-- The stream at `sp`, whose socket is `fd`, has sent the data of its source. -/
def HasSent (t : IperfTest) (g₀ : Os) (sp : Nat) (fd : Int) (sent : List UInt8) (m : Mem) (g : Os) : Prop :=
  ∃ st' outs received, m.test.streams[sp]? = some st' ∧ g.transfers = g₀.transfers ++ outs ∧
    transferred outs ≤ (sendSource t st'.buffer).length ∧
    g.handle fd = some (.socket (sent ++ (sendSource t st'.buffer).take (transferred outs)) received)

/-- `iperf_tcp_send` has sent data of the source of the stream `st` at `sp`, and returns `r`. -/
def TcpSent (t : IperfTest) (g₀ : Os) (sp : Nat) (st : IperfStream) (sent received : List UInt8) (r : Int)
    (m : Mem) (g : Os) : Prop :=
  ∃ outs f, m.test = { t with streams := t.streams.modify sp f } ∧
    (∀ st, (f st).buffer = st.buffer ∧ (f st).core = st.core) ∧
    transferred outs ≤ (sendSource t st.buffer).length ∧
    g = g₀.moved st.socket sent received (sendSource t st.buffer) outs ∧
    (0 ≤ r → toInt r = toInt (transferred outs))

theorem TcpSent.hasSent {t : IperfTest} {g₀ : Os} {sp : Nat} {st : IperfStream}
    {sent received : List UInt8} {r : Int} {m : Mem} {g : Os} (hst : t.streams[sp]? = some st)
    (h : TcpSent t g₀ sp st sent received r m g) : HasSent t g₀ sp st.socket sent m g := by
  obtain ⟨outs, f, hm, hf, hle, rfl, -⟩ := h
  refine ⟨f st, outs, received, ?_, rfl, ?_, ?_⟩
  · rw [hm]
    show (t.streams.modify sp f)[sp]? = _
    rw [List.getElem?_modify_eq, hst]
    rfl
  · rw [(hf st).1]
    exact hle
  · rw [(hf st).1]
    exact Function.update_self ..

theorem triple_getStream {t : IperfTest} {g : Os} {sp : Nat} {st : IperfStream} {α : Type}
    {f : IperfStream → IperfProg α} {Q : α → Mem → Os → Prop} (hst : t.streams[sp]? = some st)
    (hf : Prog.Triple systemContract (At t g) (f st) Q) :
    Prog.Triple systemContract (At t g) (getStream sp >>= f) Q := by
  rintro m g' ⟨rfl, rfl⟩
  unfold getStream getTest
  rw [Prog.safe_bind, Prog.safe_bind, Prog.safe_bind, Prog.safe_get, Prog.safe_pure, hst]
  exact hf m g' ⟨rfl, rfl⟩

theorem toInt_softerror : toInt NET_SOFTERROR = NET_SOFTERROR := by decide

theorem toInt_harderror : toInt NET_HARDERROR = NET_HARDERROR := by decide

/-- `iperf_tcp_send` -/
theorem iperfTcpSend_sends {t : IperfTest} {g : Os} {sp : Nat} {st : IperfStream}
    {sent received : List UInt8} (fuel : Nat) (h : Backed t.core g) (hst : t.streams[sp]? = some st)
    (hs : g.handle st.socket = some (.socket sent received)) :
    Prog.Triple systemContract (At t g) (iperfTcpSend fuel sp) (TcpSent t g sp st sent received) := by
  have hcount : ∀ (r : Int), Prog.Triple systemContract
      (fun m g' => m.test = t ∧ ∃ outs, transferred outs ≤ (sendSource t st.buffer).length ∧
        g' = g.moved st.socket sent received (sendSource t st.buffer) outs ∧
        (0 ≤ r → toInt r = toInt (transferred outs)))
      (if r < 0 then pure r else do
        modifyStream sp (IperfStream.sent r)
        pure r) (TcpSent t g sp st sent received) := by
    refine fun r => .ite (fun _ => .ret fun m g' hm => ?_) fun _ m g' hm => ⟨trivial, ?_⟩
    · obtain ⟨hm, outs, hle, hg, hr⟩ := hm
      exact ⟨outs, id, by rw [hm, List.modify_id], fun _ => ⟨rfl, rfl⟩, hle, hg, hr⟩
    · obtain ⟨hm, outs, hle, hg, hr⟩ := hm
      exact ⟨outs, IperfStream.sent r, by rw [← hm], fun _ => ⟨rfl, rfl⟩, hle, hg, hr⟩
  obtain ⟨-, pos, hbuffer⟩ := h.buffers st.core (List.mem_map_of_mem (List.mem_of_getElem? hst))
  refine triple_getTest_bind fun m₀ g₀ hm₀ => ?_
  rw [hm₀.1]
  by_cases hz : t.zerocopy
  · have hsource : sendSource t st.buffer = List.replicate t.settings.blksize.toNat 0 := if_pos hz
    rw [if_pos hz]
    refine triple_getStream hst ?_
    refine (nsendfile_moves fuel _ hs hbuffer).bind fun r => (hcount r).conseq ?_ fun _ _ _ h => h
    rintro m g' ⟨hm, outs, hle, hg, hr⟩
    rw [hsource]
    refine ⟨hm, outs, hle, hg, fun hpos => ?_⟩
    rcases hr with rfl | rfl | rfl
    · rfl
    · exact absurd hpos (by decide)
    · exact absurd hpos (by decide)
  · have hsource : sendSource t st.buffer = st.buffer.take (sizeT t.settings.blksize) := if_neg hz
    rw [if_neg hz]
    have hwrite : Prog.Triple systemContract (At t g) (streamWrite fuel sp) fun r m g' =>
        m.test = t ∧ ∃ outs, transferred outs ≤ (sendSource t st.buffer).length ∧
          g' = g.moved st.socket sent received (sendSource t st.buffer) outs ∧
          (0 ≤ r → toInt r = toInt (transferred outs)) := by
      refine triple_getTest_bind fun m₁ g₁ hm₁ => triple_getStream hst ?_
      rw [hm₁.1, hsource]
      refine (nwrite_moves fuel _ hs).bind fun r => .ret fun m g' => ?_
      rintro ⟨hm, outs, hle, hg, hr⟩
      refine ⟨hm, outs, hle, hg, fun hpos => ?_⟩
      rcases hr with rfl | rfl | rfl
      · exact toInt_toInt _
      · rw [toInt_softerror] at hpos
        exact absurd hpos (by decide)
      · rw [toInt_harderror] at hpos
        exact absurd hpos (by decide)
    exact hwrite.bind hcount

/-- Reading leaves alone what a socket has sent. -/
theorem read_socket {g : Os} {s : Int} {sent received : List UInt8} (bs : List UInt8)
    (hs : g.handle s = some (.socket sent received)) (fd : Int) :
    ∃ received', (g.adjust fd (Handle.read bs)).handle s = some (.socket sent received') := by
  by_cases heq : s = fd
  · rw [heq] at hs ⊢
    rw [Os.handle_adjust_same, hs]
    exact ⟨_, rfl⟩
  · exact ⟨received, (Os.handle_adjust_of_ne heq).trans hs⟩

/-- The test after the bytes `bs` were read into the buffer of the stream at `sp`. -/
def IperfTest.withBlock (sp : Nat) (bs : List UInt8) (t : IperfTest) : IperfTest :=
  { t with streams := t.streams.modify sp fun st => { st with buffer := overlay st.buffer bs } }

/-- What `diskfile_send` has done for the stream `st` at `sp`, with the return value `r`. -/
inductive DiskSent (t : IperfTest) (g₀ : Os) (sp : Nat) (st : IperfStream) (sent : List UInt8) :
    Int → Mem → Os → Prop where
  /-- The end of the file. -/
  | ended {m : Mem} : g₀.mayAnswer (.read st.diskfileFd (sizeT t.settings.blksize)) (.ok []) →
      m.test = { t with done := true } →
      DiskSent t g₀ sp st sent 0 m (g₀.adjust st.diskfileFd (Handle.read []))
  /-- The block `bs` was read and sent. -/
  | block {bs received : List UInt8} {r : Int} {m : Mem} {g : Os} : bs ≠ [] →
      g₀.mayAnswer (.read st.diskfileFd (sizeT t.settings.blksize)) (.ok bs) →
      (g₀.adjust st.diskfileFd (Handle.read bs)).handle st.socket = some (.socket sent received) →
      TcpSent (t.withBlock sp bs) (g₀.adjust st.diskfileFd (Handle.read bs)) sp
        { st with buffer := overlay st.buffer bs } sent received r m g →
      DiskSent t g₀ sp st sent r m g
  /-- The file could not be read. -/
  | failed {e : Errno} {received : List UInt8} {r : Int} {m : Mem} {g : Os} :
      g₀.mayAnswer (.read st.diskfileFd (sizeT t.settings.blksize)) (.error e) →
      TcpSent t g₀ sp st sent received r m g → DiskSent t g₀ sp st sent r m g

theorem diskfileSend_sends {t : IperfTest} {g : Os} {sp : Nat} {st : IperfStream}
    {sent received : List UInt8} (fuel : Nat) (h : Backed t.core g) (hst : t.streams[sp]? = some st)
    (hprot : st.prot = .tcp) (hs : g.handle st.socket = some (.socket sent received)) :
    Prog.Triple systemContract (At t g) (diskfileSend fuel sp) (DiskSent t g sp st sent) := by
  have hmem : st.core ∈ t.core.2 := List.mem_map_of_mem (List.mem_of_getElem? hst)
  refine triple_getTest_bind fun m₀ g₀ hm₀ => triple_getStream hst ?_
  rw [hm₀.1, hprot]
  rintro m g' ⟨hm, rfl⟩
  refine ⟨trivial, fun a ha => ?_⟩
  have hbacked := h.answer (r := .read st.diskfileFd (sizeT t.settings.blksize))
    ⟨st.core, hmem, .inr rfl⟩ a
  match a, ha, hbacked with
  | .error e, ha, hbacked =>
    have hsends := iperfTcpSend_sends fuel hbacked hst hs ⟨m.test, m.timers, m.iErrno, e⟩ _ ⟨hm, rfl⟩
    exact ⟨trivial, hsends.mono fun _ _ _ h => .failed ha h⟩
  | .ok [], ha, _ => exact ⟨trivial, .ended ha (by rw [← hm])⟩
  | .ok (b :: bs), ha, hbacked =>
    refine ⟨trivial, ?_⟩
    obtain ⟨received', hs'⟩ := read_socket (b :: bs) hs st.diskfileFd
    have hcore : (t.withBlock sp (b :: bs)).core = t.core := core_modifyStream t sp fun _ => rfl
    have hst' : (t.withBlock sp (b :: bs)).streams[sp]? =
        some { st with buffer := overlay st.buffer (b :: bs) } := by
      unfold IperfTest.withBlock
      rw [List.getElem?_modify_eq, hst]
      rfl
    have hm' : m.test.withBlock sp (b :: bs) = t.withBlock sp (b :: bs) := by rw [hm]
    have hsends := iperfTcpSend_sends fuel (hcore.symm ▸ hbacked) hst' hs'
      ⟨m.test.withBlock sp (b :: bs), m.timers, m.iErrno, m.errno⟩ _ ⟨hm', rfl⟩
    exact hsends.mono fun _ _ _ h => .block (List.cons_ne_nil b bs) ha hs' h

theorem DiskSent.hasSent {t : IperfTest} {g₀ : Os} {sp : Nat} {st : IperfStream}
    {sent received : List UInt8} {r : Int} {m : Mem} {g : Os} (hst : t.streams[sp]? = some st)
    (hs : g₀.handle st.socket = some (.socket sent received)) (h : DiskSent t g₀ sp st sent r m g) :
    HasSent t g₀ sp st.socket sent m g := by
  cases h with
  | ended _ hm =>
    obtain ⟨received', hs'⟩ := read_socket [] hs st.diskfileFd
    refine ⟨st, [], received', by rw [hm]; exact hst, (List.append_nil _).symm, Nat.zero_le _, ?_⟩
    rw [hs', transferred, List.take_zero, List.append_nil]
  | block _ _ _ hsent =>
    refine hsent.hasSent ?_
    unfold IperfTest.withBlock
    rw [List.getElem?_modify_eq, hst]
    rfl
  | failed _ hsent => exact hsent.hasSent hst

/-- `sp->snd`, with or without a disk file. -/
theorem streamSnd_sends {t : IperfTest} {g : Os} {sp : Nat} {st : IperfStream}
    {sent received : List UInt8} (fuel : Nat) (h : Backed t.core g) (hst : t.streams[sp]? = some st)
    (hprot : st.prot = .tcp) (hs : g.handle st.socket = some (.socket sent received)) :
    Prog.Triple systemContract (At t g) (streamSnd fuel sp) fun _ => HasSent t g sp st.socket sent := by
  refine triple_getStream hst (.ite (fun _ => ?_) fun _ => ?_)
  · exact (diskfileSend_sends fuel h hst hprot hs).conseq (fun _ _ h => h) fun _ _ _ h =>
      h.hasSent hst hs
  · rw [hprot]
    exact (iperfTcpSend_sends fuel h hst hs).conseq (fun _ _ h => h) fun _ _ _ h => h.hasSent hst

/-- In a call of `sp->snd` with or without the zero-copy option, the transfers have the results `outs`,
the buffer is `block` when it is sent, and `bytes` go over the socket of the stream. -/
def Sends (zerocopy : Bool) (m : Mem) (g : Os) (sp : Nat) (outs : List (Except Errno Nat))
    (block bytes : List UInt8) : Prop :=
  ∃ fuel r m' g' st st' sent received received',
    m.test.streams[sp]? = some st ∧ g.handle st.socket = some (.socket sent received) ∧
    Prog.Reach systemContract
      (streamSnd fuel sp, { m with test := { m.test with zerocopy := zerocopy } }, g) (.ret r, m', g') ∧
    m'.test.streams[sp]? = some st' ∧ st'.buffer = block ∧ g'.transfers = g.transfers ++ outs ∧
    g'.handle st.socket = some (.socket (sent ++ bytes) received')

theorem Sends.bytes_eq {zerocopy : Bool} {m : Mem} {g : Os} {sp : Nat} {st : IperfStream}
    {outs : List (Except Errno Nat)} {block bytes : List UInt8} (hb : Backed m.test.core g)
    (hst : m.test.streams[sp]? = some st) (hprot : st.prot = .tcp)
    (h : Sends zerocopy m g sp outs block bytes) :
    transferred outs ≤ (sendSource { m.test with zerocopy := zerocopy } block).length ∧
      bytes = (sendSource { m.test with zerocopy := zerocopy } block).take (transferred outs) := by
  obtain ⟨fuel, r, m', g', st₀, st', sent, received, received', hst₀, hs, hrun, hst', hblock, houts, hs'⟩ := h
  rw [hst] at hst₀
  cases hst₀
  -- The option is no part of what `Backed` is about.
  have hbacked : Backed ({ m.test with zerocopy := zerocopy } : IperfTest).core g := by
    obtain ⟨h₁, h₂, h₃, h₄⟩ := hb
    exact ⟨h₁, h₂, h₃, h₄⟩
  obtain ⟨st'', outs', received'', hst'', houts', hle, hsent⟩ :=
    (streamSnd_sends fuel hbacked hst hprot hs _ _ ⟨rfl, rfl⟩).reach hrun
  rw [hst'] at hst''
  cases hst''
  have heq : outs' = outs := List.append_cancel_left (houts'.symm.trans houts)
  rw [hs', heq, hblock, Option.some.injEq, Handle.socket.injEq] at hsent
  rw [heq, hblock] at hle
  exact ⟨hle, List.append_cancel_left hsent.1⟩

/-- **Zero copy.** In every run, and for every stream over TCP, what a call of `sp->snd` sends without the
zero-copy option is its buffer, as far as it gets; with the option and the same results of the transfers
the same bytes are sent if and only if this part of the buffer is all zero. -/
theorem zerocopy_same_data_iff {m₀ m : Mem} {g₀ g : Os} {sp : Nat} {st : IperfStream}
    {outs : List (Except Errno Nat)} {block bytes bytes' : List UInt8}
    (hnone : m₀.test.streams = []) (h : TransferRun m₀ g₀ m g) (hst : m.test.streams[sp]? = some st)
    (hprot : st.prot = .tcp) (hz : Sends true m g sp outs block bytes)
    (hp : Sends false m g sp outs block bytes') :
    bytes' = block.take (transferred outs) ∧
      (bytes = bytes' ↔ ∀ b ∈ block.take (transferred outs), b = 0) := by
  have hbacked := transferRun_backed hnone h
  obtain ⟨hle, rfl⟩ := hz.bytes_eq hbacked hst hprot
  obtain ⟨hle', rfl⟩ := hp.bytes_eq hbacked hst hprot
  have hzeros : sendSource { m.test with zerocopy := true } block =
      List.replicate m.test.settings.blksize.toNat 0 := if_pos rfl
  have hplain : sendSource { m.test with zerocopy := false } block =
      block.take (sizeT m.test.settings.blksize) := if_neg Bool.false_ne_true
  rw [hzeros, List.length_replicate] at hle
  rw [hplain, List.length_take] at hle'
  have htake : (block.take (sizeT m.test.settings.blksize)).take (transferred outs) =
      block.take (transferred outs) := by
    rw [List.take_take, Nat.min_eq_left (hle'.trans (Nat.min_le_left _ _))]
  rw [hzeros, hplain, htake, List.take_replicate, Nat.min_eq_left hle]
  refine ⟨rfl, ?_⟩
  rw [eq_comm, List.eq_replicate_iff, List.length_take,
    Nat.min_eq_left (hle'.trans (Nat.min_le_right _ _))]
  exact and_iff_right rfl

/-- A sender in blocks of 4 bytes, without streams. -/
def blockSender : IperfTest :=
  let t := iperfSetTestRole .client mainTest
  { t with settings := { t.settings with blksize := 4 } }

/-- The system with one connection. -/
def oneSocket : Os :=
  Os.put 3 (some (.socket [] [])) { handle := fun _ => none, disk := fun _ => [], transfers := [] }

/-- The environment in which `random` returns `b`. -/
def randomByte (b : UInt8) (_ : Nat) : (r : Req) → r.Ans
  | .random n => List.replicate n b
  | r => r.quiet

/-- The sender with a stream that has the byte `b` in its buffer. -/
def streamOf (b : UInt8) : Mem × Os :=
  (Prog.drive systemContract (randomByte b) 100 0 (iperfNewStream 3, Mem.start blockSender, oneSocket)).2

/-- The sender after a call of `sp->snd`. -/
def sendOf (b : UInt8) (zerocopy : Bool) : Mem × Os :=
  (Prog.drive systemContract (randomByte b) 100 0 (streamSnd 9 0,
    { (streamOf b).1 with test := { (streamOf b).1.test with zerocopy := zerocopy } }, (streamOf b).2)).2

theorem streamOf_run {b : UInt8} (hb : b = 0 ∨ b = 1) :
    TransferRun (Mem.start blockSender) oneSocket (streamOf b).1 (streamOf b).2 :=
  .newStream .start ⟨[], [], rfl⟩ (Prog.reach_of_drive (K := systemContract) (p := iperfNewStream 3)
    (s := Mem.start blockSender) (g := oneSocket) (a := true) (randomByte b) 100
    (by rcases hb with rfl | rfl <;> decide))

theorem sendOf_sends {b : UInt8} (hb : b = 0 ∨ b = 1) (zerocopy : Bool) :
    Sends zerocopy (streamOf b).1 (streamOf b).2 0 [.ok 4] [b, b, b, b]
      (if zerocopy then [0, 0, 0, 0] else [b, b, b, b]) := by
  have hrun := Prog.reach_of_drive (K := systemContract) (p := streamSnd 9 0)
    (s := { (streamOf b).1 with test := { (streamOf b).1.test with zerocopy := zerocopy } })
    (g := (streamOf b).2) (a := 4) (randomByte b) 100
    (by rcases hb with rfl | rfl <;> cases zerocopy <;> decide)
  have hst : (streamOf b).1.test.streams.map (·.socket) = [3] := by rcases hb with rfl | rfl <;> decide
  have hst' : (sendOf b zerocopy).1.test.streams.map (·.buffer) = [[b, b, b, b]] := by
    rcases hb with rfl | rfl <;> cases zerocopy <;> decide
  obtain ⟨st, hst, hsocket⟩ := List.map_eq_singleton_iff.1 hst
  obtain ⟨st', hst', hbuffer⟩ := List.map_eq_singleton_iff.1 hst'
  refine ⟨9, 4, (sendOf b zerocopy).1, (sendOf b zerocopy).2, st, st', [], [], [], ?_, ?_, hrun, ?_, hbuffer, ?_, ?_⟩
  · rw [hst]
    rfl
  · rw [hsocket]
    rcases hb with rfl | rfl <;> decide
  · rw [hst']
    rfl
  · rcases hb with rfl | rfl <;> cases zerocopy <;> decide
  · rw [hsocket]
    rcases hb with rfl | rfl <;> cases zerocopy <;> decide

/-- Zeros are what the file holds too. -/
theorem zerocopy_same_data_zeros :
    Sends true (streamOf 0).1 (streamOf 0).2 0 [.ok 4] [0, 0, 0, 0] [0, 0, 0, 0] ∧
      ∀ bytes, Sends false (streamOf 0).1 (streamOf 0).2 0 [.ok 4] [0, 0, 0, 0] bytes →
        bytes = [0, 0, 0, 0] := by
  have hz := sendOf_sends (b := 0) (.inl rfl) true
  have hst : (streamOf 0).1.test.streams.map (·.prot) = [.tcp] := by decide
  obtain ⟨st, hst, hprot⟩ := List.map_eq_singleton_iff.1 hst
  refine ⟨hz, fun bytes hp => ?_⟩
  have hzero : ∀ b ∈ [0, 0, 0, 0].take (transferred [.ok 4]), b = (0 : UInt8) := fun b hb =>
    List.eq_of_mem_replicate (n := 4) (List.mem_of_mem_take hb)
  exact ((zerocopy_same_data_iff rfl (streamOf_run (.inl rfl)) (by rw [hst]; rfl) hprot hz hp).2.2 hzero).symm

/-- The buffer of four ones: with the zero-copy option four zeros are sent. -/
theorem zerocopy_sends_zeros :
    TransferRun (Mem.start blockSender) oneSocket (streamOf 1).1 (streamOf 1).2 ∧
      Sends true (streamOf 1).1 (streamOf 1).2 0 [.ok 4] [1, 1, 1, 1] [0, 0, 0, 0] ∧
      Sends false (streamOf 1).1 (streamOf 1).2 0 [.ok 4] [1, 1, 1, 1] [1, 1, 1, 1] :=
  ⟨streamOf_run (.inr rfl), sendOf_sends (.inr rfl) true, sendOf_sends (.inr rfl) false⟩

end Iperf
