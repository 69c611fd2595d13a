import WifiTestTool.Iperf.Streams
import WifiTestTool.Lib.Frame

/-!
# When `iperf_new_stream` fails

`creating` keeps track of what a call of `iperf_new_stream` has acquired and of the first step that fails. Most of
the steps make the process exit when they fail; the others return, but not with everything given back. The only
failure that is contained is that of `iperf_init_stream` for a stream without a disk file.
-/

namespace Iperf

open Reactive

/-- The steps of `iperf_new_stream` that can fail. -/
inductive CreateStep where
  | allocation
  | temporaryFile
  | unlink
  | truncate
  | map
  | diskFile
  | initStream
deriving DecidableEq, Repr

namespace CreateStep

/-- What `i_errno` says when the step has failed. -/
def errors : CreateStep → List IErr
  | diskFile => [.IEFILE]
  | initStream => [.IEINITSTREAM, .IESETCOS, .IESETTOS]
  | _ => [.IECREATESTREAM]

/-- The process exits when the step fails. -/
def exits : CreateStep → Prop
  | diskFile | initStream => False
  | _ => True

end CreateStep

/-- What the call has acquired and not given back, and the first step that has failed. -/
structure Acquired where
  fds : List Int
  mappings : List Int
  failed : Option CreateStep
deriving DecidableEq, Repr

namespace Acquired

/-- The notes at the start of the call -/
def none : Acquired := ⟨[], [], .none⟩

/-- A step has failed. -/
def fail (step : CreateStep) (g : Acquired) : Acquired := { g with failed := g.failed.or (some step) }

/-- The notes after a request was answered. -/
def answer (g : Acquired) : (r : Req) → r.Ans → Acquired
  | .mallocStruct, ok => if ok then g else g.fail .allocation
  | .mkstemp, .ok fd => { g with fds := fd :: g.fds }
  | .mkstemp, .error _ => g.fail .temporaryFile
  | .unlink, .error _ => g.fail .unlink
  | .ftruncate _ _, .error _ => g.fail .truncate
  | .mmap _ n, .ok _ => { g with mappings := n :: g.mappings }
  | .mmap _ _, .error _ => g.fail .map
  | .openFile _ _, .ok fd => { g with fds := fd :: g.fds }
  | .openFile _ _, .error _ => g.fail .diskFile
  | .getsockname _, .error _ | .getpeername _, .error _ | .setsockopt _ _ _, .error _ => g.fail .initStream
  | .close fd, _ => { g with fds := g.fds.erase fd }
  | .munmap n, _ => { g with mappings := g.mappings.erase n }
  | _, _ => g

end Acquired

/-- A new descriptor is not negative. -/
def validFd : (r : Req) → r.Ans → Prop
  | .mkstemp, .ok fd | .openFile _ _, .ok fd => 0 ≤ fd
  | _, _ => True

instance (r : Req) (a : r.Ans) : Decidable (validFd r a) := by
  rcases r
  case mkstemp =>
    rcases a with e | fd
    · exact isTrue trivial
    · exact (inferInstance : Decidable (0 ≤ fd))
  case openFile =>
    rcases a with e | fd
    · exact isTrue trivial
    · exact (inferInstance : Decidable (0 ≤ fd))
  all_goals exact isTrue trivial

/-- The process only exits at the failure of a step that makes it exit. -/
def creating : Contract Mem Req.Ans Halt Acquired where
  onCall _ g r a := g.answer r a
  onWrite _ g := g
  allows _ _ r a := validFd r a
  ok _ _ _ := True
  inv _ _ := True
  mayHalt _ g _ := ∃ step ∈ g.failed, step.exits

instance (m : Mem) (g : Acquired) (r : Req) (a : r.Ans) : Decidable (creating.allows m g r a) :=
  inferInstanceAs (Decidable (validFd r a))

/-- The call has come to its end: it has returned, or the process has stopped. -/
def Ended (p : IperfProg Bool) : Prop := (∃ ok, p = .ret ok) ∨ ∃ h, p = .halt h

/-- A failed creation is contained: when a step of the call has failed, then at its end it has returned `NULL` with
`i_errno` set, the streams are the ones of before, and everything that it has acquired is given back. -/
def Contained (m : Mem) : IperfProg Bool × Mem × Acquired → Prop
  | (p, m', g) => ∀ step ∈ g.failed, p = .ret false ∧ m'.iErrno ∈ step.errors ∧
      m'.test.streams = m.test.streams ∧ g.fds = [] ∧ g.mappings = []

/-- What a call of `iperf_new_stream` returns and leaves behind, when the test is `t`. -/
inductive CreateResult (t : IperfTest) : Bool → Mem → Acquired → Prop where
  | made {m : Mem} {g : Acquired} : g.failed = .none → CreateResult t true m g
  /-- The disk file cannot be opened: the buffer file stays open. -/
  | noFile {m : Mem} {bufferFd : Int} : CreateResult t false m ⟨[bufferFd], [], some .diskFile⟩
  /-- `iperf_init_stream` fails: a disk file stays open. -/
  | noInit {m : Mem} (diskfileFd : Int) : m.test = t → m.iErrno ∈ CreateStep.initStream.errors →
      CreateResult t false m ⟨if t.diskfileName.isSome then [diskfileFd] else [], [], some .initStream⟩

section Create

variable {t : IperfTest} {g₀ : Acquired}

/-- The test is `t`, and the notes are `g₀`. -/
def CreateAt (t : IperfTest) (g₀ : Acquired) (m : Mem) (g : Acquired) : Prop := m.test = t ∧ g = g₀

/-! ## `iperf_init_stream` -/

/-- The notes after a call of `iperf_init_stream` to the system. -/
def Acquired.called (g : Acquired) : Except Errno Unit → Acquired
  | .ok _ => g
  | .error _ => g.fail .initStream

/-- The result of such a call -/
def CallResult (t : IperfTest) (g₀ : Acquired) (r : Int) (m : Mem) (g : Acquired) : Prop :=
  (r = 0 ∧ CreateAt t g₀ m g) ∨ (r = -1 ∧ CreateAt t (g₀.fail .initStream) m g)

/-- The result of `iperf_init_stream` -/
def InitResult (t : IperfTest) (g₀ : Acquired) (r : Int) (m : Mem) (g : Acquired) : Prop :=
  (r = 0 ∧ CreateAt t g₀ m g) ∨
    (r = -1 ∧ m.iErrno ∈ CreateStep.initStream.errors ∧ CreateAt t (g₀.fail .initStream) m g)

theorem getsockname_called (s : Int) : Prog.Triple creating (CreateAt t g₀) (sys (.getsockname s))
    fun (a : Except Errno Unit) => CreateAt t (g₀.called a) := by
  rintro m g ⟨rfl, rfl⟩
  refine ⟨trivial, fun a _ => ?_⟩
  cases a <;> exact ⟨rfl, rfl⟩

theorem getpeername_called (s : Int) : Prog.Triple creating (CreateAt t g₀) (sys (.getpeername s))
    fun (a : Except Errno Unit) => CreateAt t (g₀.called a) := by
  rintro m g ⟨rfl, rfl⟩
  refine ⟨trivial, fun a _ => ?_⟩
  cases a <;> exact ⟨rfl, rfl⟩

theorem result_called (a : Except Errno Unit) :
    Prog.Triple creating (CreateAt t (g₀.called a)) (result a fun _ => 0) (CallResult t g₀) := by
  cases a with
  | error e =>
    rintro m g ⟨hm, hg⟩
    exact ⟨trivial, .inr ⟨rfl, hm, hg⟩⟩
  | ok v =>
    rintro m g ⟨hm, hg⟩
    exact .inl ⟨rfl, hm, hg⟩

theorem setsockopt_called (s : Int) (opt : SockOpt) (value : Int) :
    Prog.Triple creating (CreateAt t g₀) (setsockopt s opt value) (CallResult t g₀) := by
  refine .bind (M := fun (a : Except Errno Unit) => CreateAt t (g₀.called a)) ?_ result_called
  rintro m g ⟨rfl, rfl⟩
  refine ⟨trivial, fun a _ => ?_⟩
  cases a <;> exact ⟨rfl, rfl⟩

/-- The check of such a result -/
theorem check_called {e : IErr} (he : e ∈ CreateStep.initStream.errors) {k : IperfProg Int}
    (hk : Prog.Triple creating (CreateAt t g₀) k (InitResult t g₀)) (r : Int) :
    Prog.Triple creating (CallResult t g₀ r) (if r < 0 then fail e else k) (InitResult t g₀) := by
  rintro m g (⟨rfl, hm⟩ | ⟨rfl, hm⟩)
  · rw [if_neg (by decide)]
    exact hk m g hm
  · rw [if_pos (by decide)]
    exact ⟨trivial, .inr ⟨rfl, he, hm⟩⟩

theorem streamTos_creates (s tos : Int) :
    Prog.Triple creating (CreateAt t g₀) (streamTos s tos) (InitResult t g₀) := by
  have hdone : Prog.Triple creating (CreateAt t g₀) (pure 0) (InitResult t g₀) :=
    .ret fun m g h => .inl ⟨rfl, h⟩
  have hset : ∀ opt e, e ∈ CreateStep.initStream.errors → Prog.Triple creating (CreateAt t g₀) (do
      let r ← setsockopt s opt tos
      if r < 0 then fail e else pure 0) (InitResult t g₀) := fun opt e he =>
    .bind (setsockopt_called s opt tos) (check_called he hdone)
  refine .ite (fun _ => ?_) fun _ => hdone
  rintro m g ⟨rfl, rfl⟩
  refine ⟨trivial, fun (family : Domain) _ => ?_⟩
  have hfamily := Prog.Triple.ite (c := family = .inet6) (fun _ => hset .tclass .IESETCOS (by decide))
    fun _ => hset .tos .IESETTOS (by decide)
  exact hfamily m g ⟨rfl, rfl⟩

theorem iperfInitStream_creates (s : Int) :
    Prog.Triple creating (CreateAt t g₀) (iperfInitStream s) (InitResult t g₀) := by
  rintro m g ⟨rfl, rfl⟩
  have hpeer : Prog.Triple creating (CreateAt m.test g) (do
      let a ← sys (.getpeername s)
      let r ← result a fun _ => 0
      if r < 0 then fail .IEINITSTREAM else streamTos s m.test.settings.tos) (InitResult m.test g) :=
    .bind (getpeername_called s) fun a => .bind (result_called a)
      (check_called (by decide) (streamTos_creates _ _))
  have hsock := Prog.Triple.bind (getsockname_called s) fun a => .bind (result_called a)
    (check_called (e := .IEINITSTREAM) (by decide) hpeer)
  exact hsock m g ⟨rfl, rfl⟩

/-! ## `iperf_new_stream` -/

/-- The process exits when a step has failed. -/
theorem iperfErrexit_exits {Q : Bool → Mem → Acquired → Prop} (step : CreateStep) (hstep : step.exits)
    (hfailed : g₀.failed = some step) (message : String) :
    Prog.Triple creating (CreateAt t g₀) (iperfErrexit message) Q := by
  rintro m g ⟨-, rfl⟩
  exact ⟨trivial, fun _ _ => ⟨step, hfailed, hstep⟩⟩

theorem orErrexit_creates {α : Type} {a : Except Errno α} (step : CreateStep) (hstep : step.exits)
    {message : String} {k : α → IperfProg Bool} {Q : Bool → Mem → Acquired → Prop}
    (hfailed : ∀ e, a = .error e → g₀.failed = some step)
    (hk : ∀ v, a = .ok v → Prog.Triple creating (CreateAt t g₀) (k v) Q) :
    Prog.Triple creating (CreateAt t g₀) (orErrexit a message k) Q := by
  cases a with
  | error e =>
    rintro m g ⟨hm, hg⟩
    exact ⟨trivial, trivial, iperfErrexit_exits step hstep (hfailed e rfl) _ _ _ ⟨hm, hg⟩⟩
  | ok v => exact hk v rfl

theorem erase_buffer (diskfileFd bufferFd : Int) : [diskfileFd, bufferFd].erase bufferFd = [diskfileFd] := by
  by_cases h : diskfileFd = bufferFd <;> simp [h]

/-- The end of `iperf_new_stream`: it gives the buffer file and the mapping back when `iperf_init_stream` fails. -/
theorem finishStream_creates {s bufferFd diskfileFd : Int} {buffer : List UInt8} {fds left : List Int}
    (hleft : fds.erase bufferFd = left)
    (hnoInit : ∀ m : Mem, m.test = t → m.iErrno ∈ CreateStep.initStream.errors →
      CreateResult t false m ⟨left, [], some .initStream⟩) :
    Prog.Triple creating (CreateAt t ⟨fds, [t.settings.blksize], .none⟩)
      (finishStream s bufferFd diskfileFd buffer) (CreateResult t) := by
  refine .bind (iperfInitStream_creates s) fun r => ?_
  rintro m g (⟨rfl, hm, rfl⟩ | ⟨rfl, herr, hm, rfl⟩)
  · rw [if_neg (by decide)]
    exact ⟨trivial, .made rfl⟩
  · rw [if_pos (by decide)]
    refine ⟨trivial, fun _ _ => ⟨trivial, fun _ _ => ?_⟩⟩
    have hresult := hnoInit m hm herr
    rw [← hleft] at hresult
    show CreateResult t false m
      ⟨fds.erase bufferFd, [t.settings.blksize].erase m.test.settings.blksize, some .initStream⟩
    rw [hm, List.erase_cons_head]
    exact hresult

/-- The rest of `iperf_new_stream` when the buffer is there. -/
theorem openDiskfile_creates (s bufferFd : Int) (buffer : List UInt8) :
    Prog.Triple creating (CreateAt t ⟨[bufferFd], [t.settings.blksize], .none⟩)
      (match t.diskfileName with
        | none => finishStream s bufferFd (-1) buffer
        | some name => do
          let a ← sys (.openFile name (!t.sender))
          let fd ← result a fun fd => fd
          if fd = -1 then do
            setIErrno .IEFILE
            sys (.munmap t.settings.blksize)
            pure false
          else
            finishStream s bufferFd fd buffer) (CreateResult t) := by
  cases hname : t.diskfileName with
  | none =>
    refine finishStream_creates (List.erase_cons_head ..) fun m hm herr => ?_
    have hresult := CreateResult.noInit 0 hm herr
    rw [hname] at hresult
    exact hresult
  | some name =>
    rintro m g ⟨rfl, rfl⟩
    refine ⟨trivial, fun a ha => ?_⟩
    cases a with
    | error e =>
      refine ⟨trivial, trivial, trivial, fun _ _ => ?_⟩
      show CreateResult m.test false _
        ⟨[bufferFd], [m.test.settings.blksize].erase m.test.settings.blksize, some .diskFile⟩
      rw [List.erase_cons_head]
      exact .noFile
    | ok fd =>
      have hfd : ¬ fd = -1 := by
        rintro rfl
        have hvalid : (0 : Int) ≤ -1 := ha
        omega
      have hend : Prog.Triple creating
          (CreateAt m.test ⟨[fd, bufferFd], [m.test.settings.blksize], .none⟩)
          (finishStream s bufferFd fd buffer) (CreateResult m.test) := by
        refine finishStream_creates (erase_buffer fd bufferFd) fun m' hm herr => ?_
        have hresult := CreateResult.noInit fd hm herr
        rw [hname] at hresult
        exact hresult
      exact (Prog.Triple.ite (fun h => absurd h hfd) fun _ => hend) m _ ⟨rfl, rfl⟩

theorem iperfNewStream_creates (s : Int) :
    Prog.Triple creating (CreateAt t .none) (iperfNewStream s) (CreateResult t) := by
  rintro m g ⟨rfl, rfl⟩
  refine ⟨trivial, fun (ok : Bool) _ => ?_⟩
  cases ok with
  | false => exact iperfErrexit_exits .allocation trivial rfl _ m _ ⟨rfl, rfl⟩
  | true =>
  refine ⟨trivial, fun (ok : Bool) _ => ?_⟩
  cases ok with
  | false => exact ⟨trivial, iperfErrexit_exits .allocation trivial rfl _ _ _ ⟨rfl, rfl⟩⟩
  | true =>
  refine ⟨trivial, fun (a : Except Errno Int) _ => ?_⟩
  refine orErrexit_creates .temporaryFile trivial (fun e h => by rw [h]; rfl) (fun bufferFd h => ?_) m _ ⟨rfl, rfl⟩
  subst h
  rintro m g ⟨hm, rfl⟩
  refine ⟨trivial, fun (a : Except Errno Unit) _ => ?_⟩
  refine orErrexit_creates .unlink trivial (fun e h => by rw [h]; rfl) (fun _ h => ?_) m _ ⟨hm, rfl⟩
  subst h
  rintro m g ⟨hm, rfl⟩
  refine ⟨trivial, fun (a : Except Errno Unit) _ => ?_⟩
  refine orErrexit_creates .truncate trivial (fun e h => by rw [h]; rfl) (fun _ h => ?_) m _ ⟨hm, rfl⟩
  subst h
  rintro m g ⟨hm, rfl⟩
  refine ⟨trivial, fun (a : Except Errno Unit) _ => ?_⟩
  refine orErrexit_creates .map trivial (fun e h => by rw [h]; rfl) (fun _ h => ?_) m _ ⟨hm, rfl⟩
  subst h
  rintro m g ⟨hm, rfl⟩
  exact ⟨trivial, fun buffer _ => openDiskfile_creates s bufferFd buffer m _ ⟨hm, rfl⟩⟩

end Create

/-- **When a failed creation is contained.** A call of `iperf_new_stream` in which a step fails is contained if and
only if that step is one of `iperf_init_stream` and there is no disk file: until the buffer is mapped the process
exits, without the disk file the buffer file stays open, and a disk file stays open when `iperf_init_stream` fails. -/
theorem failure_contained_iff {m : Mem} {s : Int} {c : IperfProg Bool × Mem × Acquired}
    (h : Prog.Reach creating (iperfNewStream s, m, .none) c) (hend : Ended c.1) :
    Contained m c ↔ c.2.2.failed = none ∨
      (c.2.2.failed = some .initStream ∧ m.test.diskfileName = none) := by
  obtain ⟨p, m', g⟩ := c
  have hsafe := (iperfNewStream_creates s m .none ⟨rfl, rfl⟩).reach h
  rcases hend with ⟨ok, rfl⟩ | ⟨halt, rfl⟩
  · cases (show CreateResult m.test ok m' g from hsafe) with
    | made hok =>
      refine iff_of_true (fun step hstep => ?_) (.inl hok)
      rw [show g.failed = none from hok] at hstep
      cases hstep
    | noFile =>
      refine iff_of_false (fun hcontained => ?_) (by simp)
      exact List.cons_ne_nil _ _ (hcontained .diskFile rfl).2.2.2.1
    | noInit diskfileFd htest herr =>
      cases hname : m.test.diskfileName with
      | none =>
        refine iff_of_true (fun step hstep => ?_) (.inr ⟨rfl, rfl⟩)
        cases hstep
        exact ⟨rfl, herr, congrArg _ htest, rfl, rfl⟩
      | some name =>
        refine iff_of_false (fun hcontained => ?_) (by simp)
        exact List.cons_ne_nil _ _ (hcontained .initStream rfl).2.2.2.1
  · obtain ⟨step, hstep, hexits⟩ := hsafe
    refine iff_of_false (fun hcontained => ?_) ?_
    · exact absurd (hcontained step hstep).1 nofun
    · rintro (hnone | ⟨hinit, -⟩)
      · rw [show g.failed = none from hnone] at hstep
        cases hstep
      · rw [show g.failed = some .initStream from hinit] at hstep
        cases hstep
        exact hexits

/-! ## Runs in which a step fails -/

/-- The environment in which the step fails. -/
def failsAt (step : CreateStep) (_ : Nat) : (r : Req) → r.Ans
  | .mkstemp => if step = .temporaryFile then .error .enomem else .ok 5
  | .openFile _ _ => if step = .diskFile then .error .ebadf else .ok 6
  | .getpeername _ => if step = .initStream then .error .ebadf else .ok ()
  | r => r.quiet

/-- A server that receives to the disk file, if there is one. -/
def diskServer (diskfile : Option String) : Mem :=
  let t := iperfSetTestRole .server mainTest
  Mem.start { t with diskfileName := diskfile }

/-- The call when the step fails. -/
def failedCall (step : CreateStep) (diskfile : Option String) : IperfProg Bool × Mem × Acquired :=
  Prog.drive creating (failsAt step) 100 0 (iperfNewStream 3, diskServer diskfile, .none)

theorem failedCall_run (step : CreateStep) (diskfile : Option String) :
    Prog.Reach creating (iperfNewStream 3, diskServer diskfile, .none) (failedCall step diskfile) :=
  Prog.drive_reach ..

/-- `getpeername` fails for a stream without a disk file. -/
theorem failure_contained_init :
    (failedCall .initStream none).2.2.failed = some .initStream ∧
      Contained (diskServer none) (failedCall .initStream none) := by
  have hfailed : (failedCall .initStream none).2.2.failed = some .initStream := by decide
  refine ⟨hfailed, (failure_contained_iff (failedCall_run ..) (.inl ⟨false, ?_⟩)).2 (.inr ⟨hfailed, rfl⟩)⟩
  rfl

/-- The process exits when there is no room for the buffer file, and when the disk file cannot be opened the buffer
file stays open. -/
theorem failures_not_contained :
    (¬ ∀ m s c, Prog.Reach creating (iperfNewStream s, m, .none) c → (∃ h, c.1 = .halt h) → Contained m c) ∧
      ¬ ∀ m s c, Prog.Reach creating (iperfNewStream s, m, .none) c → (∃ ok, c.1 = .ret ok) → Contained m c := by
  constructor
  · intro hall
    have hcontained := hall _ _ _ (failedCall_run .temporaryFile none) ⟨.exit, rfl⟩
    exact absurd (hcontained .temporaryFile (by decide)).1 nofun
  · intro hall
    have hcontained := hall _ _ _ (failedCall_run .diskFile (some "data")) ⟨false, rfl⟩
    exact absurd (hcontained .diskFile (by decide)).2.2.2.1 (by decide)

end Iperf
