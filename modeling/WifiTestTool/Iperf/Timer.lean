import WifiTestTool.Lib.Dll
import WifiTestTool.Lib.Prog

/-!
# The timer package (`timer.c`)

The package keeps its active timers on a doubly linked list, sorted by time, and its unused timer
structures on a singly linked free list. The two lists are modelled as they are in memory: a heap of
timer structures with `prev` and `next` pointers and the two head pointers `timers` and
`free_timers`. A function that would follow a null pointer or touch a structure that is not
allocated yields `none`.

`tmr_run` calls the timer procedures while it walks the list. It is therefore a program
(`Reactive.Prog`) in any memory that holds the timer package, with the procedures as a parameter.
-/

namespace Iperf

open Dll (Addr)
open Reactive

/-- `struct timeval`. -/
structure Timeval where
  tvSec : Int
  tvUsec : Int
deriving DecidableEq, Repr, Inhabited

/-- The comparison of times that `timer.c` spells out wherever it needs one. -/
def Timeval.before (a b : Timeval) : Prop :=
  a.tvSec < b.tvSec ∨ (a.tvSec = b.tvSec ∧ a.tvUsec < b.tvUsec)

instance (a b : Timeval) : Decidable (a.before b) :=
  inferInstanceAs (Decidable (_ ∨ _))

/-- The contents of a timer structure except for its links. The function pointer `timer_proc` and
the `client_data` passed to it are one value `proc` of the type `C` of timer procedures. -/
structure TimerData (C : Type) where
  proc : C
  usecs : Int
  periodic : Bool
  time : Timeval

/-- `Timer`. -/
abbrev Timer (C : Type) := Dll.Node (TimerData C)

/-- The memory of the timer package. `live` counts the allocated structures; it bounds the walks over
the lists. -/
structure TimerState (C : Type) where
  mem : Dll.Heap (TimerData C)
  live : Nat
  timers : Option Addr
  freeTimers : Option Addr

variable {C : Type}

namespace TimerState

/-- The package before its first use. -/
def init : TimerState C := { mem := fun _ => none, live := 0, timers := none, freeTimers := none }

/-- Write through the pointer `p`. -/
def store (s : TimerState C) (p : Option Addr) (f : Timer C → Timer C) : Option (TimerState C) :=
  (s.mem.store p f).map fun m => { s with mem := m }

end TimerState

/-- The end of `list_add`: put `t` between `t2prev` and `t2`. -/
def listInsert (t t2prev : Addr) (t2 : Option Addr) (s : TimerState C) : Option (TimerState C) := do
  let s ← s.store (some t2prev) (Dll.Node.withNext (some t))
  let s ← s.store (some t) (Dll.Node.withPrev (some t2prev))
  let s ← s.store (some t) (Dll.Node.withNext t2)
  match t2 with
  | none => some s
  | some t2 => s.store (some t2) (Dll.Node.withPrev (some t))

/-- The loop of `list_add` that finds the insertion point of `t`. -/
def listAddWalk (t : Addr) (time : Timeval) :
    Nat → Addr → Option Addr → TimerState C → Option (TimerState C)
  | 0, _, _, _ => none
  | _ + 1, t2prev, none, s => listInsert t t2prev none s
  | fuel + 1, t2prev, some t2, s => do
    let c2 ← s.mem t2
    if time.before c2.val.time then
      listInsert t t2prev (some t2) s
    else
      listAddWalk t time fuel t2 c2.next s

/-- `list_add` -/
def listAdd (t : Addr) (s : TimerState C) : Option (TimerState C) :=
  match s.timers with
  | none =>
    -- The list is empty.
    { s with timers := some t }.store (some t) (Dll.Node.withPrev none ∘ Dll.Node.withNext none)
  | some head => do
    let c ← s.mem t
    let ch ← s.mem head
    if c.val.time.before ch.val.time then
      -- The new timer goes at the head of the list.
      let s ← s.store (some t) (Dll.Node.withPrev none)
      let s ← s.store (some t) (Dll.Node.withNext (some head))
      let s ← s.store (some head) (Dll.Node.withPrev (some t))
      some { s with timers := some t }
    else
      listAddWalk t c.val.time s.live head ch.next s

/-- The first half of `list_remove`: what points to `t` from the front. -/
def listRemovePrev (t : Addr) (s : TimerState C) : Option (TimerState C) := do
  let c ← s.mem t
  match c.prev with
  | none => some { s with timers := c.next }
  | some p => s.store (some p) (Dll.Node.withNext c.next)

/-- The second half of `list_remove`: what points to `t` from the back. -/
def listRemoveNext (t : Addr) (s : TimerState C) : Option (TimerState C) := do
  let c ← s.mem t
  match c.next with
  | none => some s
  | some n => s.store (some n) (Dll.Node.withPrev c.prev)

/-- `list_remove` -/
def listRemove (t : Addr) (s : TimerState C) : Option (TimerState C) := do
  let s ← listRemovePrev t s
  listRemoveNext t s

/-- `list_resort` -/
def listResort (t : Addr) (s : TimerState C) : Option (TimerState C) := do
  let s ← listRemove t s
  listAdd t s

/-- `add_usecs`; the divisions are those of C. -/
def addUsecs (t : Timeval) (usecs : Int) : Timeval :=
  let sec := t.tvSec + usecs.tdiv 1000000
  let usec := t.tvUsec + usecs.tmod 1000000
  if usec ≥ 1000000 then ⟨sec + usec.tdiv 1000000, usec.tmod 1000000⟩ else ⟨sec, usec⟩

/-- Set the contents of the timer `t`. -/
def TimerState.setData (t : Addr) (d : TimerData C → TimerData C) (s : TimerState C) :
    Option (TimerState C) :=
  s.store (some t) fun c => { c with val := d c.val }

/-- The structure that `tmr_create` uses: the first of the free list or, if there is none, the one
that `malloc` returns. -/
def tmrAlloc (malloc : Option Addr) (d : TimerData C) (s : TimerState C) :
    Option (TimerState C × Option Addr) :=
  match s.freeTimers with
  | some t => do
    let c ← s.mem t
    let s ← { s with freeTimers := c.next }.setData t fun _ => d
    some (s, some t)
  | none =>
    match malloc with
    | none => some (s, none)
    | some t =>
      let node : Timer C := { val := d, prev := none, next := none }
      some ({ s with mem := Function.update s.mem t (some node), live := s.live + 1 }, some t)

/-- `tmr_create`; `malloc` is the answer of `malloc`, if it is called. -/
def tmrCreate (malloc : Option Addr) (now : Timeval) (proc : C) (usecs : Int) (periodic : Bool)
    (s : TimerState C) : Option (TimerState C × Option Addr) := do
  let (s, t) ← tmrAlloc malloc
    { proc := proc, usecs := usecs, periodic := periodic, time := addUsecs now usecs } s
  match t with
  | none => some (s, none)
  | some t =>
    -- Add the new timer to the active list.
    let s ← listAdd t s
    some (s, some t)

/-- `tmr_timeout`: the time until the first timer is due, if there is any. -/
def tmrTimeout (now : Timeval) (s : TimerState C) : Option (Option Timeval) :=
  match s.timers with
  | none => some none
  | some t => do
    let c ← s.mem t
    let usecs := (c.val.time.tvSec - now.tvSec) * 1000000 + (c.val.time.tvUsec - now.tvUsec)
    let usecs := if usecs ≤ 0 then 0 else usecs
    some (some ⟨usecs.tdiv 1000000, usecs.tmod 1000000⟩)

/-- `tmr_reset` -/
def tmrReset (now : Timeval) (t : Addr) (s : TimerState C) : Option (TimerState C) := do
  let s ← s.setData t fun d => { d with time := addUsecs now d.usecs }
  listResort t s

/-- `tmr_cancel` -/
def tmrCancel (t : Addr) (s : TimerState C) : Option (TimerState C) := do
  let s ← listRemove t s
  let s ← s.store (some t) (Dll.Node.withNext s.freeTimers)
  { s with freeTimers := some t }.store (some t) (Dll.Node.withPrev none)

/-- The loop of `tmr_cleanup`. -/
def tmrCleanupLoop : Nat → TimerState C → Option (TimerState C)
  | 0, s => if s.freeTimers = none then some s else none
  | fuel + 1, s =>
    match s.freeTimers with
    | none => some s
    | some t => do
      let c ← s.mem t
      tmrCleanupLoop fuel
        { s with freeTimers := c.next, mem := Function.update s.mem t none, live := s.live - 1 }

/-- `tmr_cleanup` -/
def tmrCleanup (s : TimerState C) : Option (TimerState C) := tmrCleanupLoop s.live s

/-- The loop of `tmr_destroy`. -/
def tmrDestroyLoop : Nat → TimerState C → Option (TimerState C)
  | 0, s => if s.timers = none then some s else none
  | fuel + 1, s =>
    match s.timers with
    | none => some s
    | some t => do
      let s ← tmrCancel t s
      tmrDestroyLoop fuel s

/-- `tmr_destroy` -/
def tmrDestroy (s : TimerState C) : Option (TimerState C) := do
  let s ← tmrDestroyLoop s.live s
  tmrCleanup s

/-! ## `tmr_run` -/

/-- Where a program keeps the timer package, and how it stops when the package makes a wild access
(`wild`) or when the bound on the number of passes through a loop is used up (`spin`). -/
structure TimerView (σ η C : Type) where
  get : σ → TimerState C
  set : TimerState C → σ → σ
  wild : η
  spin : η

namespace TimerView

variable {σ ρ η : Type} {Ans : ρ → Type} (V : TimerView σ η C)

/-- Run a function of the timer package. -/
def run (f : TimerState C → Option (TimerState C)) : Prog σ Ans η Unit := do
  match f (V.get (← Prog.get)) with
  | none => Prog.stop V.wild
  | some t => Prog.modify (V.set t)

/-- The timer structure at `t`. -/
def load (t : Addr) : Prog σ Ans η (Timer C) := do
  match (V.get (← Prog.get)).mem t with
  | none => Prog.stop V.wild
  | some c => pure c

/-- A call of `tmr_create`; `malloc` is called when there is no free timer structure. -/
def create (malloc : Prog σ Ans η (Option Addr)) (now : Timeval) (proc : C) (usecs : Int)
    (periodic : Bool) : Prog σ Ans η (Option Addr) := do
  let s ← Prog.get
  let m ← if (V.get s).freeTimers.isSome then pure none else malloc
  match tmrCreate m now proc usecs periodic (V.get s) with
  | none => Prog.stop V.wild
  | some (s', t) => do
    Prog.modify (V.set s')
    pure t

end TimerView

/-- What `tmr_run` does with the timer `t` after its procedure has returned. -/
def tmrRunNext (t : Addr) (periodic : Bool) (s : TimerState C) : Option (TimerState C) :=
  if periodic then do
    -- Reschedule.
    let s ← s.setData t fun d => { d with time := addUsecs d.time d.usecs }
    listResort t s
  else
    tmrCancel t s

/-- The loop of `tmr_run` from the timer `t` on. -/
def tmrRunLoop {σ ρ η : Type} {Ans : ρ → Type} (V : TimerView σ η C) (timerProc : Addr → C → Timeval → Prog σ Ans η Unit)
    (now : Timeval) : Nat → Option Addr → Prog σ Ans η Unit
  | 0, _ => Prog.stop V.spin
  | _ + 1, none => pure ()
  | fuel + 1, some t => do
    let c ← V.load t
    let next := c.next
    -- Since the list is sorted, as soon as we find a timer that isn't ready yet, we are done.
    if now.before c.val.time then
      pure ()
    else do
      timerProc t c.val.proc now
      let c ← V.load t
      V.run (tmrRunNext t c.val.periodic)
      tmrRunLoop V timerProc now fuel next

/-- `tmr_run` -/
def tmrRun {σ ρ η : Type} {Ans : ρ → Type} (V : TimerView σ η C) (timerProc : Addr → C → Timeval → Prog σ Ans η Unit)
    (fuel : Nat) (now : Timeval) : Prog σ Ans η Unit := do
  let s ← Prog.get
  tmrRunLoop V timerProc now fuel (V.get s).timers

/-! ## Arbitrary users of the package -/

/-- The calls that a user of the package can make. -/
inductive TimerOp (C : Type) where
  | create (now : Timeval) (proc : C) (usecs : Int) (periodic : Bool)
  | reset (now : Timeval) (t : Addr)
  | cancel (t : Addr)
  | run (now : Timeval)
  | cleanup
  | destroy

/-- What the package asks its user and the system. -/
inductive TimerReq (C : Type) where
  /-- The last call has returned (`created` is the timer it returned): which call is next? -/
  | nextOp (created : Option Addr)
  /-- The procedure of the timer `t` is called. -/
  | enter (t : Addr) (proc : C)
  /-- Which timer does the procedure reset next, and at which time? -/
  | nextReset
  /-- The procedure of the timer `t` has returned. -/
  | leave (t : Addr)
  /-- A call of `malloc`. -/
  | malloc

/-- The answers. -/
abbrev TimerReq.Ans : TimerReq C → Type
  | .nextOp _ => Option (TimerOp C)
  | .enter _ _ => Unit
  | .nextReset => Option (Timeval × Addr)
  | .leave _ => Unit
  | .malloc => Option Addr

/-- The ways in which the package can stop without returning. -/
inductive TimerHalt where
  | wild
  | spin
deriving DecidableEq

/-- Programs that use the timer package and nothing else. -/
abbrev TimerProg (C : Type) : Type → Type := Prog (TimerState C) (TimerReq.Ans (C := C)) TimerHalt

/-- Ask the user or the system. -/
abbrev timerAsk (r : TimerReq C) : TimerProg C r.Ans := Prog.ask r

/-- The view of the package on itself. -/
def timerView (C : Type) : TimerView (TimerState C) TimerHalt C where
  get := id
  set t _ := t
  wild := .wild
  spin := .spin

/-- A timer procedure that resets any timers. -/
def resetProc : Nat → TimerProg C Unit
  | 0 => Prog.stop TimerHalt.spin
  | fuel + 1 => do
    let r ← timerAsk .nextReset
    match r with
    | none => pure ()
    | some (now, t) => do
      (timerView C).run (tmrReset now t)
      resetProc fuel

/-- A call of a timer procedure. -/
def userProc (fuel : Nat) (t : Addr) (proc : C) (_now : Timeval) : TimerProg C Unit := do
  let _ ← timerAsk (.enter t proc)
  resetProc fuel
  let _ ← timerAsk (.leave t)

/-- One call of a user. -/
def timerOp (fuel : Nat) : TimerOp C → TimerProg C (Option Addr)
  | .create now proc usecs periodic =>
    (timerView C).create (timerAsk .malloc) now proc usecs periodic
  | .reset now t => do (timerView C).run (tmrReset now t); pure none
  | .cancel t => do (timerView C).run (tmrCancel t); pure none
  | .run now => do tmrRun (timerView C) (userProc fuel) fuel now; pure none
  | .cleanup => do (timerView C).run tmrCleanup; pure none
  | .destroy => do (timerView C).run tmrDestroy; pure none

/-- Any sequence of calls. -/
def timerUser (fuel : Nat) : Nat → Option Addr → TimerProg C Unit
  | 0, _ => Prog.stop TimerHalt.spin
  | n + 1, created => do
    let op ← timerAsk (.nextOp created)
    match op with
    | none => pure ()
    | some op => do
      let created ← timerOp fuel op
      timerUser fuel n created

end Iperf
