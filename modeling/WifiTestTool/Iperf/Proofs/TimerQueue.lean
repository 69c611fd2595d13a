import WifiTestTool.Iperf.Proofs.TimerProofs

/-!
# The invariant of the timer queue

An arbitrary user calls the timer package in any order, and the timer procedures that `tmr_run`
calls reset any active timers. `userContract` says what such a user may do (it resets and cancels
only timers that are active) and keeps track of the timers it owns: those that were created and
neither cancelled nor expired. Whenever the package calls a procedure or returns to its user, the two
lists are in order and the active list holds exactly the timers the user owns.
-/

namespace Iperf

open Dll StableInsert Reactive

variable {C : Type}

/-- The state of the timer package when its user owns the timers `owned`. -/
structure QueueOk (s : TimerState C) (owned : List Addr) (active free : List Addr) : Prop where
  /-- The active list is a doubly linked list, the free list a singly linked one, and no timer is
  on both of them or twice on one of them. -/
  rep : Rep s active free []
  /-- The active list is sorted by time. -/
  sorted : Sorted s active
  /-- Every timer that the user owns is on the active list exactly once, and no other one is. -/
  perm : active.Perm owned

/-- The lists of the package are in order. -/
def QueueInv (s : TimerState C) (owned : List Addr) : Prop :=
  ∃ active free, QueueOk s owned active free

theorem QueueOk.inv {s : TimerState C} {owned active free : List Addr}
    (h : QueueOk s owned active free) : QueueInv s owned := ⟨active, free, h⟩

/-- The timers that the user owns once the last call has returned `created`. -/
def withCreated (created : Option Addr) (owned : List Addr) : List Addr :=
  created.toList ++ owned

/-- The timers that the user still owns when it makes the call `op`. -/
def afterOp : Option (TimerOp C) → List Addr → List Addr
  | some (.cancel t), owned => owned.erase t
  | some .destroy, _ => []
  | _, owned => owned

/-- The calls that a user who owns the timers `owned` may make. -/
def mayCall (owned : List Addr) : Option (TimerOp C) → Prop
  | some (.reset _ t) => t ∈ owned
  | some (.cancel t) => t ∈ owned
  | _ => True

/-- The timer at `t` is rescheduled when it has expired. -/
def isPeriodic (s : TimerState C) (t : Addr) : Prop := ∃ d, dataAt s t = some d ∧ d.periodic = true

open Classical in
/-- The contract between the package and its user; the notes are the timers that the user owns. -/
noncomputable def userContract (C : Type) : Contract (TimerState C) (TimerReq.Ans (C := C)) TimerHalt (List Addr) where
  onCall s owned
    | .nextOp created, op => afterOp op (withCreated created owned)
    -- A timer that is not periodic has expired when its procedure returns.
    | .leave t, _ => if isPeriodic s t then owned else owned.erase t
    | _, _ => owned
  onWrite _ owned := owned
  allows s owned
    | .nextOp created, op => mayCall (withCreated created owned) op
    | .nextReset, r => ∀ now t, r = some (now, t) → t ∈ owned
    | .malloc, r => ∀ a, r = some a → s.mem a = none
    | _, _ => True
  ok s owned
    | .nextOp created => QueueInv s (withCreated created owned)
    | .malloc => True
    | _ => QueueInv s owned
  inv _ _ := True
  mayHalt _ _ h := h = .spin

section Specs

variable {s : TimerState C} {owned : List Addr}

/-- A function of the package that makes no wild access keeps the contract. -/
theorem safe_timerRun {f : TimerState C → Option (TimerState C)}
    {Q : Unit → TimerState C → List Addr → Prop} {s' : TimerState C} (h : f s = some s')
    (hQ : Q () s' owned) : ((timerView C).run f).Safe (userContract C) Q s owned := by
  simp only [TimerView.run, Prog.safe_bind, Prog.safe_get]
  rw [show f ((timerView C).get s) = some s' from h]
  exact ⟨trivial, hQ⟩

/-- A timer that the user owns is somewhere on the active list. -/
theorem QueueOk.split {active free : List Addr} (h : QueueOk s owned active free) {t : Addr}
    (ht : t ∈ owned) : ∃ l₁ l₂, active = l₁ ++ t :: l₂ :=
  List.append_of_mem (h.perm.mem_iff.2 ht)

/-- Moving one timer within the active list does not change which timers are on it. -/
theorem perm_insertBy_middle {f : Addr → ℤ ×ₗ ℤ} {t : Addr} {l₁ l₂ : List Addr} :
    (insertBy f t (l₁ ++ l₂)).Perm (l₁ ++ t :: l₂) :=
  perm_insertBy.trans List.perm_middle.symm

theorem tmrReset_queue (h : QueueInv s owned) {t : Addr} (ht : t ∈ owned) (now : Timeval) :
    ∃ s', tmrReset now t s = some s' ∧ QueueInv s' owned := by
  obtain ⟨active, free, hq⟩ := h
  obtain ⟨l₁, l₂, rfl⟩ := hq.split ht
  obtain ⟨s', hs', hrep, hsorted, -⟩ := tmrReset_spec now hq.rep hq.sorted
  exact ⟨s', hs', _, _, hrep, hsorted, perm_insertBy_middle.trans hq.perm⟩

theorem tmrCancel_queue (h : QueueInv s owned) {t : Addr} (ht : t ∈ owned) :
    ∃ s', tmrCancel t s = some s' ∧ QueueInv s' (owned.erase t) := by
  obtain ⟨active, free, hq⟩ := h
  obtain ⟨l₁, l₂, rfl⟩ := hq.split ht
  obtain ⟨s', hs', hrep, hd⟩ := tmrCancel_spec hq.rep
  have hsorted : Sorted s (l₁ ++ l₂) :=
    hq.sorted.sublist ((List.sublist_cons_self t l₂).append_left l₁)
  refine ⟨s', hs', _, _, hrep, hsorted.congr fun a _ => hd a, ?_⟩
  have hp : (t :: (l₁ ++ l₂)).Perm owned := List.perm_middle.symm.trans hq.perm
  simpa using hp.erase t

/-- The end of one pass of `tmr_run`. -/
theorem tmrRunNext_queue (h : QueueInv s owned) {t : Addr} (ht : t ∈ owned) (periodic : Bool) :
    ∃ s', tmrRunNext t periodic s = some s' ∧
      QueueInv s' (if periodic then owned else owned.erase t) := by
  cases periodic with
  | false => simpa [tmrRunNext] using tmrCancel_queue h ht
  | true =>
    obtain ⟨active, free, hq⟩ := h
    obtain ⟨l₁, l₂, rfl⟩ := hq.split ht
    obtain ⟨s', hs', hrep, hsorted, -⟩ := retime_spec hq.rep hq.sorted
      fun d => { d with time := addUsecs d.time d.usecs }
    exact ⟨s', hs', _, _, hrep, hsorted, perm_insertBy_middle.trans hq.perm⟩

end Specs

/-! ## The programs -/

/-- A timer procedure that resets active timers leaves the lists in order. -/
theorem resetProc_safe (fuel : Nat) {s : TimerState C} {owned : List Addr} (h : QueueInv s owned) :
    (resetProc fuel).Safe (userContract C) (fun _ s' g => g = owned ∧ QueueInv s' owned) s owned := by
  induction fuel generalizing s with
  | zero => exact rfl
  | succ fuel ih =>
    simp only [resetProc, Prog.safe_bind, Prog.safe_ask]
    refine ⟨h, fun r hr => ?_⟩
    cases r with
    | none => exact ⟨rfl, h⟩
    | some r =>
      obtain ⟨now, t⟩ := r
      obtain ⟨s', hs', hq⟩ := tmrReset_queue h (hr now t rfl) now
      exact (Prog.safe_bind ..).2 (safe_timerRun hs' (ih hq))

theorem userProc_safe (fuel : Nat) (t : Addr) (proc : C) (now : Timeval) {s : TimerState C}
    {owned : List Addr} (h : QueueInv s owned) :
    (userProc fuel t proc now).Safe (userContract C)
      (fun _ s' g => QueueInv s' owned ∧
        g = (userContract C).onCall s' owned (.leave t) ()) s owned := by
  simp only [userProc, Prog.safe_bind, Prog.safe_ask]
  refine ⟨h, fun _ _ => (resetProc_safe fuel h).mono ?_⟩
  rintro ⟨⟩ s' g ⟨rfl, hq⟩
  exact ⟨hq, fun _ _ => ⟨hq, rfl⟩⟩

theorem load_safe {s : TimerState C} {owned : List Addr} {t : Addr}
    {Q : Timer C → TimerState C → List Addr → Prop} {c : Timer C} (hc : s.mem t = some c)
    (hQ : Q c s owned) : ((timerView C).load t).Safe (userContract C) Q s owned := by
  simp only [TimerView.load, Prog.safe_bind, Prog.safe_get]
  rw [show ((timerView C).get s).mem t = some c from hc]
  exact hQ

/-- The loop of `tmr_run`. The saved pointer `next` stays good because the timers that are reset in the
meantime stay active and the only one that expires is the one before it. -/
theorem tmrRunLoop_safe (m fuel : Nat) (now : Timeval) {s : TimerState C} {owned : List Addr}
    {next : Option Addr} (h : QueueInv s owned) (hn : ∀ t, next = some t → t ∈ owned) :
    (tmrRunLoop (timerView C) (userProc m) now fuel next).Safe (userContract C)
      (fun _ s' g => QueueInv s' g) s owned := by
  induction fuel generalizing s owned next with
  | zero => exact rfl
  | succ fuel ih =>
    cases next with
    | none => exact h
    | some t =>
      have ht := hn t rfl
      obtain ⟨active, free, hq⟩ := h
      obtain ⟨l₁, l₂, rfl⟩ := hq.split ht
      obtain ⟨c, hc⟩ := hq.rep.mem_active (a := t) (by simp)
      have hnext := hq.rep.next_eq hc
      -- The saved `next` is another timer that the user owns.
      have hnext' : ∀ b, c.next = some b → b ∈ owned ∧ b ≠ t := by
        intro b hb
        have hb₂ : b ∈ l₂ := List.mem_of_mem_head? (by rw [← hnext, hb]; rfl)
        refine ⟨hq.perm.mem_iff.1 (by simp [hb₂]), ?_⟩
        rintro rfl
        have hnd := hq.rep.nodup
        simp only [List.append_nil, List.nodup_append, List.nodup_cons] at hnd
        exact hnd.1.2.1.1 hb₂
      simp only [tmrRunLoop, Prog.safe_bind]
      refine load_safe hc ?_
      split
      · exact hq.inv
      · rw [Prog.safe_bind]
        refine (userProc_safe m t c.val.proc now hq.inv).mono ?_
        rintro ⟨⟩ s' g ⟨hq', hg⟩
        obtain ⟨c', hc'⟩ : ∃ c', s'.mem t = some c' := by
          obtain ⟨active', free', hq''⟩ := hq'
          exact hq''.rep.mem_active (hq''.perm.mem_iff.2 ht)
        have hd : dataAt s' t = some c'.val := by simp [dataAt, hc']
        rw [Prog.safe_bind]
        refine load_safe hc' ?_
        rw [Prog.safe_bind]
        obtain ⟨s'', hs'', hq''⟩ := tmrRunNext_queue hq' ht c'.val.periodic
        have hg' : g = if c'.val.periodic then owned else owned.erase t := by
          rw [hg]
          simp only [userContract, isPeriodic, hd, Option.some.injEq, exists_eq_left']
        rw [← hg'] at hq''
        refine safe_timerRun hs'' (ih hq'' fun b hb => ?_)
        obtain ⟨hb, hbt⟩ := hnext' b hb
        rw [hg']
        split
        · exact hb
        · exact (List.mem_erase_of_ne hbt).2 hb

/-- Every call leaves the lists in order. -/
theorem timerOp_safe (fuel : Nat) (op : TimerOp C) {s : TimerState C} {owned : List Addr}
    (h : QueueInv s owned) (hop : mayCall owned (some op)) :
    (timerOp fuel op).Safe (userContract C) (fun r s' g => QueueInv s' (withCreated r g)) s
      (afterOp (some op) owned) := by
  obtain ⟨active, free, hq⟩ := h
  cases op with
  | create now proc usecs periodic =>
    -- Whatever `malloc` returns, it is a structure that is not in use.
    have key : ∀ m : Option Addr, (∀ a, m = some a → s.mem a = none) →
        ∃ s' r, tmrCreate m now proc usecs periodic s = some (s', r) ∧
          QueueInv s' (withCreated r owned) := by
      intro m hm
      obtain ⟨s', r, hs', hnone, hsome⟩ :=
        tmrCreate_spec hq.rep hq.sorted m hm now proc usecs periodic
      refine ⟨s', r, hs', ?_⟩
      cases r with
      | none => exact hnone rfl ▸ hq.inv
      | some t =>
        obtain ⟨-, ⟨free', hrep⟩, hsorted, -⟩ := hsome t rfl
        exact ⟨_, free', hrep, hsorted, perm_insertBy.trans (hq.perm.cons t)⟩
    simp only [timerOp, TimerView.create, Prog.safe_bind, Prog.safe_get]
    split
    · obtain ⟨s', r, hs', hq'⟩ := key none (by simp)
      have hs : tmrCreate none now proc usecs periodic ((timerView C).get s) = some (s', r) := hs'
      rw [Prog.safe_bind, Prog.safe_pure, hs]
      exact ⟨trivial, hq'⟩
    · refine ⟨trivial, fun m hm => ?_⟩
      obtain ⟨s', r, hs', hq'⟩ := key m hm
      have hs : tmrCreate m now proc usecs periodic ((timerView C).get s) = some (s', r) := hs'
      dsimp only [Prog.bind]
      rw [hs]
      exact ⟨trivial, hq'⟩
  | reset now t =>
    obtain ⟨s', hs', hq'⟩ := tmrReset_queue hq.inv hop now
    exact (Prog.safe_bind ..).2 (safe_timerRun hs' hq')
  | cancel t =>
    obtain ⟨s', hs', hq'⟩ := tmrCancel_queue hq.inv hop
    exact (Prog.safe_bind ..).2 (safe_timerRun hs' hq')
  | run now =>
    simp only [timerOp, tmrRun, Prog.safe_bind, Prog.safe_get]
    refine (tmrRunLoop_safe fuel fuel now hq.inv fun t ht => hq.perm.mem_iff.1 ?_).mono ?_
    · exact List.mem_of_mem_head? (by rw [← hq.rep.timers_eq]; exact ht)
    · exact fun _ _ _ h => h
  | cleanup =>
    obtain ⟨s', hs', hrep, hd⟩ := tmrCleanup_spec hq.rep
    exact (Prog.safe_bind ..).2
      (safe_timerRun hs' ⟨active, [], hrep, hq.sorted.congr hd, hq.perm⟩)
  | destroy =>
    obtain ⟨s', hs', hrep⟩ := tmrDestroy_spec hq.rep
    exact (Prog.safe_bind ..).2
      (safe_timerRun hs' ⟨[], [], hrep, List.Pairwise.nil, List.Perm.refl _⟩)

theorem timerUser_safe (fuel n : Nat) {s : TimerState C} {owned : List Addr}
    {created : Option Addr} (h : QueueInv s (withCreated created owned)) :
    (timerUser fuel n created).Safe (userContract C) (fun _ s' g => QueueInv s' g) s owned := by
  induction n generalizing s owned created with
  | zero => exact rfl
  | succ n ih =>
    simp only [timerUser, Prog.safe_bind, Prog.safe_ask]
    refine ⟨h, fun op hop => ?_⟩
    cases op with
    | none => exact h
    | some op =>
      rw [Prog.safe_bind]
      exact (timerOp_safe fuel op h hop).mono fun r s' g h' => ih h'

theorem QueueInv.init : QueueInv (TimerState.init : TimerState C) [] :=
  ⟨[], [], .init, List.Pairwise.nil, List.Perm.refl _⟩

/-- What `QueueInv` means for the pointers. -/
structure QueueFacts (s : TimerState C) (owned active free : List Addr) : Prop where
  /-- `active` is what a walk from `timers` along `next` sees, with all `prev` pointers in place. -/
  list : ∃ q, Seg s.mem none s.timers active q none
  /-- `free` is what a walk from `free_timers` along `next` sees. -/
  freeList : Chain s.mem s.freeTimers free
  /-- `next` and `prev` are inverse on the active list. -/
  inverse : ∀ a ∈ active, ∀ b ∈ active, ∀ ca cb, s.mem a = some ca → s.mem b = some cb →
    (ca.next = some b ↔ cb.prev = some a)
  /-- The head has no `prev`. -/
  headPrev : ∀ a c, s.timers = some a → s.mem a = some c → c.prev = none
  /-- The list is sorted by `(tv_sec, tv_usec)`. -/
  sorted : active.Pairwise fun a b => ∀ ca cb, s.mem a = some ca → s.mem b = some cb →
    ¬ cb.val.time.before ca.val.time
  /-- The timers on the active list are those that were created and neither cancelled nor expired,
  each exactly once. -/
  owns : ∀ a, active.count a = if a ∈ owned then 1 else 0
  /-- No timer is on both lists. -/
  disjoint : ∀ a ∈ active, a ∉ free

theorem QueueOk.facts {s : TimerState C} {owned active free : List Addr}
    (h : QueueOk s owned active free) : QueueFacts s owned active free := by
  obtain ⟨q, hseg⟩ := h.rep.seg
  have hnd := h.rep.nodup
  simp only [List.append_nil, List.nodup_append] at hnd
  refine ⟨⟨q, hseg⟩, h.rep.chain, ?_, ?_, ?_, ?_, fun a ha hf => hnd.2.2 a ha a hf rfl⟩
  · intro a ha b hb ca cb hca hcb
    rw [hseg.next_eq_iff ha hca, hseg.prev_eq_iff hb hcb]
  · intro a c ha hc
    cases active with
    | nil => rw [h.rep.timers_eq] at ha; cases ha
    | cons b l =>
      obtain ⟨hb, c', hc', hp, -⟩ := hseg
      obtain rfl : b = a := Option.some.inj (hb.symm.trans ha)
      rw [← Option.some.inj (hc'.symm.trans hc), hp]
  · refine h.sorted.imp fun {a b} hab ca cb hca hcb => ?_
    rw [before_iff, not_lt, ← keyAt_eq hca, ← keyAt_eq hcb]
    exact hab
  · intro a
    by_cases ha : a ∈ owned
    · rw [if_pos ha]
      exact List.count_eq_one_of_mem hnd.1 (h.perm.mem_iff.2 ha)
    · rw [if_neg ha]
      exact List.count_eq_zero_of_not_mem fun h' => ha (h.perm.mem_iff.1 h')

/-- **The timer queue.** Take any sequence of calls of the package, with timer procedures that reset
any active timers. Whenever a call has returned, and whenever a timer procedure runs, the active list
is a well-formed doubly linked list, sorted by time, that holds every timer which was created and has
neither been cancelled nor expired exactly once, and no timer is on both lists. The package never
makes a wild access. -/
theorem timer_queue_invariant (fuel n : Nat) (p : TimerProg C Unit) (s : TimerState C)
    (owned : List Addr)
    (hr : Prog.Reach (userContract C) (timerUser fuel n none, TimerState.init, []) (p, s, owned)) :
    (∀ created k, p = .call (.nextOp created) k →
      ∃ active free, QueueFacts s (withCreated created owned) active free) ∧
    (∀ t proc k, p = .call (.enter t proc) k → ∃ active free, QueueFacts s owned active free) ∧
    (∀ k, p = .call .nextReset k → ∃ active free, QueueFacts s owned active free) ∧
    (∀ t k, p = .call (.leave t) k → ∃ active free, QueueFacts s owned active free) ∧
    p ≠ .halt .wild := by
  have hinit : QueueInv (TimerState.init (C := C)) (withCreated none []) := QueueInv.init
  have hsafe := (timerUser_safe fuel n hinit).reach hr
  refine ⟨?_, ?_, ?_, ?_, ?_⟩
  · rintro created k rfl
    obtain ⟨active, free, hq⟩ := hsafe.1
    exact ⟨active, free, hq.facts⟩
  · rintro t proc k rfl
    obtain ⟨active, free, hq⟩ := hsafe.1
    exact ⟨active, free, hq.facts⟩
  · rintro k rfl
    obtain ⟨active, free, hq⟩ := hsafe.1
    exact ⟨active, free, hq.facts⟩
  · rintro t k rfl
    obtain ⟨active, free, hq⟩ := hsafe.1
    exact ⟨active, free, hq.facts⟩
  · rintro rfl
    exact absurd hsafe (by simp [Prog.Safe, userContract])

/-- The run in which the user creates one timer, whose structure `malloc` puts at the address 7. -/
theorem timer_queue_invariant_create :
    ∃ s k, Prog.Reach (userContract Unit) (timerUser 1 2 none, TimerState.init, [])
        (.call (.nextOp (some 7)) k, s, []) ∧
      ∃ active free, QueueFacts s (withCreated (some 7) []) active free := by
  have hr : Prog.Reach (userContract Unit) (timerUser 1 2 none, TimerState.init, [])
      (_, _, _) :=
    .head (.call (r := TimerReq.nextOp none) (some (TimerOp.create ⟨0, 0⟩ () 5 true)) (by trivial)) <|
    .head .read <|
    .head (.call (r := TimerReq.malloc) (some 7) (by exact fun _ _ => rfl)) <|
    .head .write .refl
  exact ⟨_, _, hr, (timer_queue_invariant 1 2 _ _ _ hr).1 (some 7) _ rfl⟩

end Iperf
