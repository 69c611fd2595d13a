import WifiTestTool.Iperf.Os
import WifiTestTool.Iperf.Proofs.Plumbing

/-!
# What `iperf_new_stream` leaves behind

A new stream has a buffer, which is mapped from a file of zeros, and with a disk file a descriptor for
it. When something fails on the way, `iperf_new_stream` gives up some of the descriptors that it has
opened, but not all of them (`NewStreamResult`).
-/

namespace Iperf

open Reactive

/-- The contract under which the system follows its rules and the program owes nothing. -/
abbrev systemContract : Contract Mem Req.Ans Halt Os := osContract fun _ _ _ => True

/-- The test is `t` and the system is in the state `g₀`. -/
def At (t : IperfTest) (g₀ : Os) (m : Mem) (g : Os) : Prop := m.test = t ∧ g = g₀

section At

variable {t : IperfTest} {g₀ : Os}

theorem sys_at {r : Req} (hr : ∀ a, g₀.answer r a = g₀) :
    Prog.Keeps systemContract (At t g₀) (fun _ => True) (sys r) := by
  refine .ask fun m g hm => ⟨trivial, fun a _ => ⟨trivial, hm.1, ?_⟩⟩
  rw [hm.2]
  exact hr a

theorem silentErrors_at {f : Mem → Mem} (hf : ∀ m, (f m).test = m.test) :
    Prog.Keeps systemContract (At t g₀) (fun _ => True) (Prog.modify f) :=
  .modify fun m _ hm => ⟨trivial, (hf m).trans hm.1, hm.2⟩

theorem result_at {α : Type} (a : Except Errno α) (f : α → Int) :
    Prog.Keeps systemContract (At t g₀) (fun _ => True) (result a f) := by
  cases a with
  | error e => exact .bind (silentErrors_at fun _ => rfl) fun _ _ => .pure trivial
  | ok v => exact .pure trivial

theorem fail_at (e : IErr) : Prog.Keeps systemContract (At t g₀) (fun _ => True) (fail e) :=
  .bind (silentErrors_at fun _ => rfl) fun _ _ => .pure trivial

theorem setsockopt_at (s : Int) (opt : SockOpt) (value : Int) :
    Prog.Keeps systemContract (At t g₀) (fun _ => True) (setsockopt s opt value) :=
  .bind (sys_at fun _ => rfl) fun _ _ => result_at _ _

theorem streamTos_at (s tos : Int) :
    Prog.Keeps systemContract (At t g₀) (fun _ => True) (streamTos s tos) := by
  refine .ite (fun _ => .bind (sys_at fun _ => rfl) fun family _ => ?_) fun _ => .pure trivial
  exact .ite
    (fun _ => .bind (setsockopt_at _ _ _) fun _ _ => .ite (fun _ => fail_at _) fun _ => .pure trivial)
    fun _ => .bind (setsockopt_at _ _ _) fun _ _ => .ite (fun _ => fail_at _) fun _ => .pure trivial

theorem iperfInitStream_at (s : Int) :
    Prog.Keeps systemContract (At t g₀) (fun _ => True) (iperfInitStream s) := by
  refine keeps_getTest_bind fun m g _ => .bind (sys_at fun _ => rfl) fun a _ => ?_
  refine .bind (result_at _ _) fun r _ => .ite (fun _ => fail_at _) fun _ => ?_
  refine .bind (sys_at fun _ => rfl) fun a _ => .bind (result_at _ _) fun r _ => ?_
  exact .ite (fun _ => fail_at _) fun _ => streamTos_at _ _

theorem iperfErrexit_at {Q : Bool → Mem → Os → Prop} (message : String) :
    Prog.Triple systemContract (At t g₀) (iperfErrexit message) Q :=
  .seq (sys_at fun _ => rfl) fun _ _ _ _ _ => trivial

/-- A step whose failure makes the process exit. -/
theorem errexit_at {e : Errno} {message : String} {Q : Bool → Mem → Os → Prop} :
    Prog.Triple systemContract (At t g₀) (do
      setErrno e
      setIErrno .IECREATESTREAM
      iperfErrexit message) Q :=
  .seq (silentErrors_at fun _ => rfl) fun _ _ => .seq (silentErrors_at fun _ => rfl)
    fun _ _ => iperfErrexit_at _

theorem orErrexit_at {α : Type} {a : Except Errno α} {message : String} {k : α → IperfProg Bool}
    {Q : Bool → Mem → Os → Prop} (hk : ∀ v, a = .ok v → Prog.Triple systemContract (At t g₀) (k v) Q) :
    Prog.Triple systemContract (At t g₀) (orErrexit a message k) Q := by
  cases a with
  | error e => exact errexit_at
  | ok v => exact hk v rfl

end At

/-! ## The new stream -/

namespace Os

/-- The descriptor may be given to a new file or socket. -/
def Free (g : Os) (fd : Int) : Prop := 0 ≤ fd ∧ g.handle fd = none

/-- The system with the file behind the new buffer `bufferFd`. -/
def withBuffer (g : Os) (t : IperfTest) (bufferFd : Int) : Os :=
  g.put bufferFd (some (.file (List.replicate t.settings.blksize.toNat 0) 0))

/-- The system with the disk file `name` open at `fd`. -/
def withDisk (g : Os) (t : IperfTest) (name : String) (fd : Int) : Os :=
  g.put fd (some (.file (if !t.sender then [] else g.disk name) 0))

theorem handle_withBuffer (g : Os) (t : IperfTest) (bufferFd : Int) :
    (g.withBuffer t bufferFd).handle bufferFd =
      some (.file (List.replicate t.settings.blksize.toNat 0) 0) := handle_put_same _

theorem withBuffer_ne (g : Os) {t : IperfTest} {bufferFd fd : Int}
    (h : (g.withBuffer t bufferFd).Free fd) : bufferFd ≠ fd := by
  rintro rfl
  have hfree := h.2
  rw [handle_withBuffer] at hfree
  cases hfree

end Os

/-- `mkstemp` and `ftruncate` make a file of zeros. -/
theorem bufferFile_zeros (g : Os) (t : IperfTest) (fd : Int) :
    (g.put fd (some (.file [] 0))).answer (.ftruncate fd t.settings.blksize) (.ok ()) =
      g.withBuffer t fd := by
  unfold Os.withBuffer Os.answer Os.adjust
  dsimp only
  rw [Os.handle_put_same]
  unfold Os.put
  rw [Function.update_idem]
  dsimp only [Option.map_some, Handle.truncate]
  rw [List.take_nil, List.nil_append, List.length_nil, Nat.sub_zero]

/-- The state of the system when `iperf_init_stream` is called for the stream with these descriptors. -/
inductive Prepared (t : IperfTest) (g : Os) (bufferFd : Int) : Int → Os → Prop where
  | plain : t.diskfileName = none → Prepared t g bufferFd (-1) (g.withBuffer t bufferFd)
  | disk {name : String} {fd : Int} : t.diskfileName = some name → (g.withBuffer t bufferFd).Free fd →
      Prepared t g bufferFd fd ((g.withBuffer t bufferFd).withDisk t name fd)

/-- What `iperf_new_stream` returns for the socket `s`, and what it leaves behind. -/
inductive NewStreamResult (t : IperfTest) (g : Os) (s : Int) : Bool → IperfTest → Os → Prop where
  | made {bufferFd diskfileFd : Int} {buffer : List UInt8} {g' : Os} : g.Free bufferFd →
      Prepared t g bufferFd diskfileFd g' → buffer.length = t.settings.blksize.toNat →
      NewStreamResult t g s true (iperfAddStream (newStream t s bufferFd diskfileFd buffer) t) g'
  /-- The disk file cannot be opened: the buffer stays open. -/
  | noFile {bufferFd : Int} : g.Free bufferFd → t.diskfileName ≠ none →
      NewStreamResult t g s false t (g.withBuffer t bufferFd)
  /-- `iperf_init_stream` fails: a disk file stays open. -/
  | noInit {bufferFd diskfileFd : Int} {g' : Os} : g.Free bufferFd →
      Prepared t g bufferFd diskfileFd g' → NewStreamResult t g s false t (g'.put bufferFd none)

/-- The end of `iperf_new_stream`. -/
theorem finishStream_result {t : IperfTest} {g g' : Os} {s bufferFd diskfileFd : Int}
    {buffer : List UInt8} (hfree : g.Free bufferFd) (hprep : Prepared t g bufferFd diskfileFd g')
    (hbuffer : buffer.length = t.settings.blksize.toNat) :
    Prog.Triple systemContract (At t g') (finishStream s bufferFd diskfileFd buffer) fun ok m g' =>
      NewStreamResult t g s ok m.test g' := by
  refine .seq (iperfInitStream_at s) fun r _ => .ite (fun _ => ?_) fun _ => ?_
  · rintro m g₁ ⟨rfl, rfl⟩
    exact ⟨trivial, fun _ _ => ⟨trivial, fun _ _ => .noInit hfree hprep⟩⟩
  · rintro m g₁ ⟨rfl, rfl⟩
    exact ⟨trivial, .made hfree hprep hbuffer⟩

theorem iperfNewStream_result {t : IperfTest} {g : Os} {s : Int} :
    Prog.Triple systemContract (At t g) (iperfNewStream s) fun ok m g' =>
      NewStreamResult t g s ok m.test g' := by
  refine triple_getTest_bind fun m₀ g₀ hm₀ => ?_
  rw [hm₀.1]
  refine .seq (sys_at fun _ => rfl) fun _ _ => .ite (fun _ => iperfErrexit_at _) fun _ => ?_
  refine .seq (sys_at fun _ => rfl) fun _ _ => .ite (fun _ => ?_) fun _ => ?_
  · exact .seq (silentErrors_at fun _ => rfl) fun _ _ => iperfErrexit_at _
  rintro m g₁ ⟨hm, rfl⟩
  refine ⟨trivial, fun a hfree => ?_⟩
  cases a with
  | error e => exact errexit_at m g₁ ⟨hm, rfl⟩
  | ok bufferFd =>
  refine (Prog.Triple.seq (sys_at fun _ => rfl) fun _ _ => orErrexit_at fun _ _ => ?_) m
    (g₁.put bufferFd (some (.file [] 0))) ⟨hm, rfl⟩
  rintro m g' ⟨hm, rfl⟩
  refine ⟨trivial, fun a _ => ?_⟩
  cases a with
  | error e => exact errexit_at m _ ⟨hm, rfl⟩
  | ok v =>
  refine (Prog.Triple.seq (sys_at fun _ => rfl) fun _ _ => orErrexit_at fun _ _ => ?_) m _
    ⟨hm, bufferFile_zeros g₁ t bufferFd⟩
  rintro m g' ⟨hm, rfl⟩
  refine ⟨trivial, fun buffer hbuffer => ?_⟩
  cases hname : t.diskfileName with
  | none => exact finishStream_result hfree (.plain hname) hbuffer m _ ⟨hm, rfl⟩
  | some name =>
    refine ⟨trivial, fun a ha => ?_⟩
    cases a with
    | error e =>
      refine ⟨trivial, trivial, trivial, fun _ _ => ?_⟩
      show NewStreamResult t g₁ s false m.test _
      rw [hm]
      exact .noFile hfree (by rw [hname]; exact nofun)
    | ok fd =>
      refine (Prog.Triple.ite (fun hneg => ?_) fun _ => finishStream_result hfree (.disk hname ha) hbuffer)
        m _ ⟨hm, rfl⟩
      have hneg : fd = -1 := hneg
      have hpos : 0 ≤ fd := ha.1
      omega

end Iperf
