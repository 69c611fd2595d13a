import WifiTestTool.Iperf.Proofs.ObservedCalls

/-!
# Runs of calls, step by step

`Sees` speaks about all runs of a call. To show that a call may do something, one run of it is put together
from its steps: `Goes o m g p c` says that the program `p`, from the memory `m` and the notes `g`, gets to the
configuration `c`. There is a rule for every kind of step.
-/

namespace Iperf

open Reactive

variable {G α β : Type}

/-- There is a run of the program to the configuration `c` in which the answers are as the observer allows. -/
def Goes (o : Observer G) (m : Mem) (g : G) (p : IperfProg α) (c : IperfProg α × Mem × G) : Prop :=
  Prog.Reach o.contract (p, m, g) c

/-- The observer who takes no notes and lets everything happen. -/
def anyObserver : Observer Unit where
  notes _ _ _ := ()
  allows _ _ _ _ := True

theorem anyObserver_contract : anyObserver.contract = Prog.free := rfl

namespace Goes

variable {o : Observer G} {m m' : Mem} {g g' : G} {c : IperfProg β × Mem × G}

theorem refl (p : IperfProg α) : Goes o m g p (p, m, g) := Relation.ReflTransGen.refl

/-- A call that returns, and the rest. -/
theorem seq {p : IperfProg α} {f : α → IperfProg β} {a : α} (hp : Goes o m g p (.ret a, m', g'))
    (hf : Goes o m' g' (f a) c) : Goes o m g (p >>= f) c :=
  Relation.ReflTransGen.trans (Prog.Reach.bind f hp) hf

/-- A call that stops the program. -/
theorem stop_bind {p : IperfProg α} {h : Halt} (f : α → IperfProg β) (hp : Goes o m g p (.halt h, m', g')) :
    Goes o m g (p >>= f) (.halt h, m', g') := Prog.Reach.bind f hp

theorem ite {b : Prop} [Decidable b] {p q : IperfProg β} (hp : b → Goes o m g p c) (hq : ¬ b → Goes o m g q c) :
    Goes o m g (if b then p else q) c := by
  split
  · exact hp ‹_›
  · exact hq ‹_›

theorem ask {r : Req} (a : r.Ans) (ha : o.allows m.test g r a) :
    Goes o m g (Iperf.sys r) (.ret a, m, o.notes g r a) :=
  Relation.ReflTransGen.head (.call a ha) .refl

theorem sys_bind {r : Req} (a : r.Ans) {f : r.Ans → IperfProg β} (ha : o.allows m.test g r a)
    (hf : Goes o m (o.notes g r a) (f a) c) : Goes o m g (sys r >>= f) c :=
  Relation.ReflTransGen.head (.call a ha) hf

theorem getTest_bind {f : IperfTest → IperfProg β} (hf : Goes o m g (f m.test) c) :
    Goes o m g (getTest >>= f) c :=
  Relation.ReflTransGen.head .read hf

theorem allStreams_bind {f : List Nat → IperfProg β}
    (hf : Goes o m g (f (List.range m.test.streams.length)) c) : Goes o m g (allStreams >>= f) c :=
  Relation.ReflTransGen.head .read hf

theorem modifyTest_bind {f : IperfTest → IperfTest} {k : Unit → IperfProg β}
    (hk : Goes o { m with test := f m.test } g (k ()) c) : Goes o m g (modifyTest f >>= k) c :=
  Relation.ReflTransGen.head .write hk

theorem setErrno_bind {e : Errno} {k : Unit → IperfProg β} (hk : Goes o { m with errno := e } g (k ()) c) :
    Goes o m g (setErrno e >>= k) c :=
  Relation.ReflTransGen.head .write hk

theorem setIErrno_bind {e : IErr} {k : Unit → IperfProg β} (hk : Goes o { m with iErrno := e } g (k ()) c) :
    Goes o m g (setIErrno e >>= k) c :=
  Relation.ReflTransGen.head .write hk

theorem getStream_bind {sp : Nat} {st : IperfStream} {f : IperfStream → IperfProg β}
    (hst : m.test.streams[sp]? = some st) (hf : Goes o m g (f st) c) : Goes o m g (getStream sp >>= f) c := by
  refine Relation.ReflTransGen.head .read ?_
  dsimp only [Prog.bind, bind, pure]
  rw [hst]
  exact hf

theorem gettimeofday_bind (now : Timeval) {f : Timeval → IperfProg β}
    (ha : o.allows m.test g .gettimeofday (.ok now))
    (hf : Goes o m (o.notes g .gettimeofday (.ok now)) (f now) c) : Goes o m g (gettimeofday >>= f) c :=
  sys_bind (r := Req.gettimeofday) (Except.ok now) ha hf

end Goes

end Iperf
