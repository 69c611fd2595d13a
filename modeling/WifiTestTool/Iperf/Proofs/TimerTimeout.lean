import Mathlib.Order.Bounds.Basic
import WifiTestTool.Lib.Frame
import WifiTestTool.Iperf.Proofs.TimerQueue
import WifiTestTool.Iperf.Proofs.TimerRun

/-!
# The time until the next timer

`tmr_timeout` looks at the first timer of the list only. What it returns is exact because the list is sorted, and
because the times of all timers are normalised: then their order is that of their microseconds.
-/

namespace Iperf

open Dll StableInsert Reactive

variable {C : Type}

/-! ## Normalised times -/

/-- The microseconds are less than a second. -/
def Timeval.Normalised (t : Timeval) : Prop := 0 ≤ t.tvUsec ∧ t.tvUsec < 1000000

instance (t : Timeval) : Decidable t.Normalised := inferInstanceAs (Decidable (_ ∧ _))

/-- The intervals of timers: microseconds, or whole seconds of either sign. -/
def Interval (usecs : Int) : Prop := 0 ≤ usecs ∨ 1000000 ∣ usecs

theorem before_iff_micros {a b : Timeval} (ha : a.Normalised) (hb : b.Normalised) :
    a.before b ↔ a.micros < b.micros := by
  obtain ⟨ha₀, ha₁⟩ := ha
  obtain ⟨hb₀, hb₁⟩ := hb
  unfold Timeval.before Timeval.micros
  omega

/-- `add_usecs` carries whole seconds, and leaves no negative microseconds. -/
theorem addUsecs_normalised {t : Timeval} {usecs : Int} (ht : t.Normalised) (hu : Interval usecs) :
    (addUsecs t usecs).Normalised := by
  refine ⟨?_, addUsecs_tvUsec ..⟩
  have hrem : 0 ≤ usecs.tmod 1000000 := by
    rcases hu with hu | hu
    · exact Int.tmod_nonneg _ hu
    · rw [Int.tmod_eq_zero_of_dvd hu]
  have hsum : 0 ≤ t.tvUsec + usecs.tmod 1000000 := Int.add_nonneg ht.1 hrem
  unfold addUsecs
  dsimp only
  split
  · exact Int.tmod_nonneg _ hsum
  · exact hsum

/-- A timer with a normalised time, and an interval that keeps it so. -/
structure TimerData.Regular (d : TimerData C) : Prop where
  time : d.time.Normalised
  interval : Interval d.usecs

theorem TimerData.Regular.retime {d : TimerData C} (h : d.Regular) {now : Timeval} (hnow : now.Normalised) :
    TimerData.Regular { d with time := addUsecs now d.usecs } :=
  ⟨addUsecs_normalised hnow h.interval, h.interval⟩

/-! ## Timely users -/

/-- The times that the user and its timer procedures pass to the package are normalised, and the intervals are
those of timers. -/
def Timely : (r : TimerReq C) → r.Ans → Prop
  | .nextOp _, some (.create now _ usecs _) => now.Normalised ∧ Interval usecs
  | .nextOp _, some (.reset now _) => now.Normalised
  | .nextReset, some (now, _) => now.Normalised
  | _, _ => True

/-- The contract with a timely user, in which the package owes normalised times. -/
noncomputable def timelyContract (C : Type) :
    Contract (TimerState C) (TimerReq.Ans (C := C)) TimerHalt (List Addr) where
  onCall := (userContract C).onCall
  onWrite := (userContract C).onWrite
  allows s owned r a := (userContract C).allows s owned r a ∧ Timely r a
  ok s _ _ := s.All TimerData.Regular
  inv _ _ := True
  mayHalt _ _ _ := True

/-- The program keeps the times normalised. -/
abbrev KeepsRegular {α : Type} (p : TimerProg C α) : Prop :=
  Prog.Keeps (timelyContract C) (fun s _ => s.All TimerData.Regular) (fun _ => True) p

theorem run_regular {f : TimerState C → Option (TimerState C)}
    (hf : ∀ s s', s.All TimerData.Regular → f s = some s' → s'.All TimerData.Regular) :
    KeepsRegular ((timerView C).run f) := by
  refine Prog.Keeps.get_bind fun s _ hs => ?_
  cases h : f ((timerView C).get s) with
  | none => exact .stop fun _ _ _ => trivial
  | some s' => exact .modify fun _ _ _ => ⟨trivial, hf s s' hs h⟩

theorem load_regular (t : Addr) : KeepsRegular ((timerView C).load t) := by
  refine Prog.Keeps.get_bind fun s _ hs => ?_
  cases ((timerView C).get s).mem t with
  | none => exact .stop fun _ _ _ => trivial
  | some c => exact .pure trivial

theorem resetProc_regular (fuel : Nat) : KeepsRegular (resetProc (C := C) fuel) := by
  induction fuel with
  | zero => exact .stop fun _ _ _ => trivial
  | succ fuel ih =>
    have hask : Prog.Keeps (timelyContract C) (fun s _ => s.All TimerData.Regular)
        (fun r => ∀ now t, r = some (now, t) → now.Normalised) (timerAsk (C := C) .nextReset) :=
      .ask fun s g hs => ⟨hs, fun r hr => ⟨fun now t heq => by
        subst heq
        exact hr.2, hs⟩⟩
    refine .bind hask fun r hr => ?_
    cases r with
    | none => exact .pure trivial
    | some r =>
      obtain ⟨now, t⟩ := r
      have hnow := hr now t rfl
      refine .bind (run_regular fun s s' hs h => ?_) fun _ _ => ih
      exact hs.tmrReset (fun _ hd => hd.retime hnow) h

theorem userProc_regular (fuel : Nat) (t : Addr) (proc : C) (now : Timeval) :
    KeepsRegular (userProc fuel t proc now) := by
  have hask : ∀ r : TimerReq C, Prog.Keeps (timelyContract C) (fun s _ => s.All TimerData.Regular)
      (fun _ => True) (timerAsk r) := fun r => .ask fun s g hs => ⟨hs, fun _ _ => ⟨trivial, hs⟩⟩
  exact .bind (hask _) fun _ _ => .bind (resetProc_regular fuel) fun _ _ => .bind (hask _) fun _ _ => .pure trivial

theorem tmrRunLoop_regular (m fuel : Nat) (now : Timeval) (next : Option Addr) :
    KeepsRegular (tmrRunLoop (timerView C) (userProc m) now fuel next) := by
  induction fuel generalizing next with
  | zero => exact .stop fun _ _ _ => trivial
  | succ fuel ih =>
    cases next with
    | none => exact .pure trivial
    | some t =>
      refine .bind (load_regular t) fun c _ => .ite (fun _ => .pure trivial) fun _ => ?_
      refine .bind (userProc_regular m t c.val.proc now) fun _ _ => .bind (load_regular t) fun c' _ => ?_
      refine .bind (run_regular fun s s' hs h => ?_) fun _ _ => ih _
      exact hs.tmrRunNext (fun _ hd => hd.retime hd.time) h

/-- A call of a timely user. -/
theorem timerOp_regular (fuel : Nat) {op : TimerOp C} {created : Option Addr}
    (hop : Timely (.nextOp created) (some op)) : KeepsRegular (timerOp fuel op) := by
  cases op with
  | create now proc usecs periodic =>
    have hmalloc : Prog.Keeps (timelyContract C) (fun s _ => s.All TimerData.Regular)
        (fun _ => True) (timerAsk (C := C) .malloc) := .ask fun s g hs => ⟨hs, fun _ _ => ⟨trivial, hs⟩⟩
    have hnew : TimerData.Regular ⟨proc, usecs, periodic, addUsecs now usecs⟩ :=
      ⟨addUsecs_normalised hop.1 hop.2, hop.2⟩
    refine Prog.Keeps.get_bind fun s _ hs => .ite (fun _ => .bind (Q := fun _ => True) (.pure trivial) fun m _ => ?_)
      fun _ => .bind hmalloc fun m _ => ?_
    all_goals
      dsimp only
      split
      · exact .stop fun _ _ _ => trivial
      · rename_i s' t h
        refine .bind (.modify fun _ _ _ => ⟨trivial, ?_⟩) fun _ _ => .pure trivial
        exact hs.tmrCreate hnew h
  | reset now t =>
    refine .bind (run_regular fun s s' hs h => ?_) fun _ _ => .pure trivial
    exact hs.tmrReset (fun _ hd => hd.retime hop) h
  | cancel t => exact .bind (run_regular fun s s' hs h => hs.tmrCancel h) fun _ _ => .pure trivial
  | run now =>
    refine .bind (Q := fun _ => True) ?_ fun _ _ => .pure trivial
    exact Prog.Keeps.get_bind fun s _ _ => tmrRunLoop_regular fuel fuel now _
  | cleanup => exact .bind (run_regular fun s s' hs h => hs.tmrCleanup h) fun _ _ => .pure trivial
  | destroy => exact .bind (run_regular fun s s' hs h => hs.tmrDestroy h) fun _ _ => .pure trivial

theorem timerUser_regular (fuel n : Nat) (created : Option Addr) : KeepsRegular (timerUser (C := C) fuel n created) := by
  induction n generalizing created with
  | zero => exact .stop fun _ _ _ => trivial
  | succ n ih =>
    have hask : Prog.Keeps (timelyContract C) (fun s _ => s.All TimerData.Regular)
        (fun op => ∀ op', op = some op' → Timely (.nextOp created) (some op')) (timerAsk (C := C) (.nextOp created)) :=
      .ask fun s g hs => ⟨hs, fun op hop => ⟨fun op' heq => heq ▸ hop.2, hs⟩⟩
    refine .bind hask fun op hop => ?_
    cases op with
    | none => exact .pure trivial
    | some op => exact .bind (timerOp_regular fuel (hop op rfl)) fun created' _ => ih created'

/-! ## `tmr_timeout` -/

/-- The times of the timers `active`, in microseconds. -/
def activeTimes (s : TimerState C) (active : List Addr) : Set Int :=
  fun m => ∃ a ∈ active, ∃ d, dataAt s a = some d ∧ d.time.micros = m

/-- `timeout` is the time from `now` until the first of the timers `active` is due. -/
structure ExactTimeout (s : TimerState C) (active : List Addr) (now : Timeval) (timeout : Option Timeval) : Prop where
  /-- It is `NULL` if there is no active timer. -/
  null_iff : timeout = none ↔ active = []
  /-- Otherwise it is a normalised time, and exact. -/
  exact : ∀ t, timeout = some t → t.Normalised ∧ 0 ≤ t.tvSec ∧
    ∃ first, IsLeast (activeTimes s active) first ∧ t.micros = max 0 (first - now.micros)
  /-- It is zero if a timer is due. -/
  zero_iff : ∀ t, timeout = some t →
    (t = ⟨0, 0⟩ ↔ ∃ a ∈ active, ∃ d, dataAt s a = some d ∧ ¬ now.before d.time)

/-- The time of the first timer of the list is the earliest. -/
theorem QueueOk.first_least {s : TimerState C} {owned free l : List Addr} {t : Addr} {c : Timer C}
    (h : QueueOk s owned (t :: l) free) (hs : s.All TimerData.Regular) (hc : s.mem t = some c) :
    IsLeast (activeTimes s owned) c.val.time.micros := by
  have hd : dataAt s t = some c.val := by rw [dataAt, hc]; rfl
  refine ⟨⟨t, h.perm.mem_iff.1 (List.mem_cons_self ..), c.val, hd, rfl⟩, ?_⟩
  rintro m ⟨a, ha, d, hda, rfl⟩
  obtain ⟨ca, hca⟩ := h.rep.mem_active (h.perm.mem_iff.2 ha)
  obtain rfl : ca.val = d := by
    rw [dataAt, hca] at hda
    exact Option.some.inj hda
  have hkey : keyAt s t ≤ keyAt s a := by
    rcases List.mem_cons.1 (h.perm.mem_iff.2 ha) with rfl | hal
    · exact le_rfl
    · exact (List.pairwise_cons.1 h.sorted).1 a hal
  rw [keyAt_eq hc, keyAt_eq hca, ← not_lt, ← before_iff, before_iff_micros (hs a ca hca).time (hs t c hc).time] at hkey
  exact not_lt.1 hkey

theorem micros_eq_zero {t : Timeval} (ht : t.Normalised) (hsec : 0 ≤ t.tvSec) : t = ⟨0, 0⟩ ↔ t.micros = 0 := by
  obtain ⟨sec, usec⟩ := t
  obtain ⟨h₀, h₁⟩ := ht
  simp only [Timeval.mk.injEq, Timeval.micros] at *
  omega

theorem tmrTimeout_exact {s : TimerState C} {owned active free : List Addr} (h : QueueOk s owned active free)
    (hs : s.All TimerData.Regular) {now : Timeval} (hnow : now.Normalised) :
    ∃ timeout, tmrTimeout now s = some timeout ∧ ExactTimeout s owned now timeout := by
  cases active with
  | nil =>
    have ht : s.timers = none := h.rep.timers_eq
    have howned : owned = [] := h.perm.nil_eq.symm
    refine ⟨none, by simp only [tmrTimeout, ht], ?_, nofun, nofun⟩
    simp [howned]
  | cons t l =>
    have ht : s.timers = some t := h.rep.timers_eq
    obtain ⟨c, hc⟩ := h.rep.mem_active (a := t) (by simp)
    have hleast := h.first_least hs hc
    -- The difference, cut off at zero.
    obtain ⟨usecs, husecs⟩ : ∃ usecs, usecs = max 0 (c.val.time.micros - now.micros) := ⟨_, rfl⟩
    have htimeout : tmrTimeout now s = some (some ⟨usecs.tdiv 1000000, usecs.tmod 1000000⟩) := by
      have hdiff : (if (c.val.time.tvSec - now.tvSec) * 1000000 + (c.val.time.tvUsec - now.tvUsec) ≤ 0 then 0
          else (c.val.time.tvSec - now.tvSec) * 1000000 + (c.val.time.tvUsec - now.tvUsec)) = usecs := by
        rw [husecs]
        unfold Timeval.micros
        split <;> omega
      simp only [tmrTimeout, ht, hc, Option.bind_eq_bind, Option.bind_some, hdiff]
    have hpos : 0 ≤ usecs := husecs ▸ le_max_left ..
    have hnorm : Timeval.Normalised ⟨usecs.tdiv 1000000, usecs.tmod 1000000⟩ :=
      ⟨Int.tmod_nonneg _ hpos, Int.tmod_lt_of_pos _ (by omega)⟩
    have hsec : 0 ≤ usecs.tdiv 1000000 := Int.tdiv_nonneg hpos (by omega)
    have hmicros : Timeval.micros ⟨usecs.tdiv 1000000, usecs.tmod 1000000⟩ = usecs := by
      have hsplit := Int.tmod_add_mul_tdiv usecs 1000000
      unfold Timeval.micros
      dsimp only
      omega
    refine ⟨_, htimeout, ?_, ?_, ?_⟩
    · have hne : owned ≠ [] := by
        rintro rfl
        exact absurd h.perm.eq_nil (List.cons_ne_nil t l)
      simp [hne]
    · rintro t' ⟨⟩
      exact ⟨hnorm, hsec, _, hleast, hmicros.trans husecs⟩
    · rintro t' ⟨⟩
      rw [micros_eq_zero hnorm hsec, hmicros, husecs]
      constructor
      · intro hzero
        obtain ⟨a, ha, d, hd, hfirst⟩ := hleast.1
        refine ⟨a, ha, d, hd, fun hbefore => ?_⟩
        have hnormal : d.time.Normalised := by
          obtain ⟨ca, hca, rfl⟩ := Option.map_eq_some_iff.1 hd
          exact (hs a ca hca).time
        have hless := (before_iff_micros hnow hnormal).1 hbefore
        omega
      · rintro ⟨a, ha, d, hd, hdue⟩
        have hnormal : d.time.Normalised := by
          obtain ⟨ca, hca, rfl⟩ := Option.map_eq_some_iff.1 hd
          exact (hs a ca hca).time
        rw [before_iff_micros hnow hnormal] at hdue
        have hle := hleast.2 ⟨a, ha, d, hd, rfl⟩
        omega

/-- The package has returned to its user, or is in a timer procedure; `active` are the timers that were created and
have neither been cancelled nor expired. -/
inductive AtRest : TimerProg C Unit → List Addr → List Addr → Prop
  | returned (created k owned) : AtRest (.call (.nextOp created) k) owned (withCreated created owned)
  | entered (t proc k owned) : AtRest (.call (.enter t proc) k) owned owned
  | resetting (k owned) : AtRest (.call .nextReset k) owned owned
  | leaving (t k owned) : AtRest (.call (.leave t) k) owned owned

/-- **The select timeout is exact.** Take any sequence of calls of the package with normalised times and the
intervals of timers, and timer procedures that reset any active timers. Whenever a call has returned, and in the
timer procedures, all stored times are normalised. For every normalised time, `tmr_timeout` returns `NULL` if no
timer is active, and otherwise exactly the time until the first one is due, zero if one is due. -/
theorem select_timeout_exact (fuel n : Nat) (p : TimerProg C Unit) (s : TimerState C) (owned active : List Addr)
    (hr : Prog.Reach (timelyContract C) (timerUser fuel n none, TimerState.init, []) (p, s, owned))
    (hrest : AtRest p owned active) :
    (∀ a c, s.mem a = some c → c.val.time.Normalised) ∧
    ∀ now : Timeval, now.Normalised →
      ∃ timeout, tmrTimeout now s = some timeout ∧ ExactTimeout s active now timeout := by
  have hinit : QueueInv (TimerState.init (C := C)) (withCreated none []) := QueueInv.init
  have hqueue := (timerUser_safe fuel n hinit).reach (hr.weaken rfl rfl fun _ _ _ _ h => h.1)
  have hregular := (timerUser_regular fuel n none TimerState.init [] nofun).reach hr
  have hboth : QueueInv s active ∧ s.All TimerData.Regular := by
    cases hrest with
    | returned created k owned => exact ⟨hqueue.1, hregular.1⟩
    | entered t proc k owned => exact ⟨hqueue.1, hregular.1⟩
    | resetting k owned => exact ⟨hqueue.1, hregular.1⟩
    | leaving t k owned => exact ⟨hqueue.1, hregular.1⟩
  obtain ⟨⟨l, free, hok⟩, hall⟩ := hboth
  exact ⟨fun a c hc => (hall a c hc).time, fun now hnow => tmrTimeout_exact hok hall hnow⟩

/-- The user creates a timer for a second before the epoch, whose structure `malloc` puts at the address 7. -/
theorem select_timeout_exact_create :
    ∃ s, (∀ a c, s.mem a = some c → c.val.time.Normalised) ∧
      ∀ now : Timeval, now.Normalised → ∃ timeout, tmrTimeout now s = some timeout ∧
        ExactTimeout (C := Unit) s [7] now timeout := by
  have hr : Prog.Reach (timelyContract Unit) (timerUser 1 2 none, TimerState.init, [])
      (.call (.nextOp (some 7)) _, _, _) :=
    .head (.call (r := TimerReq.nextOp none) (some (TimerOp.create ⟨0, 5⟩ () (-1000000) false))
      (by exact ⟨trivial, by decide, .inr (by decide)⟩)) <|
    .head .read <|
    .head (.call (r := TimerReq.malloc) (some 7) (by exact ⟨fun _ _ => rfl, trivial⟩)) <|
    .head .write .refl
  exact ⟨_, select_timeout_exact 1 2 _ _ _ _ hr (.returned ..)⟩

end Iperf
