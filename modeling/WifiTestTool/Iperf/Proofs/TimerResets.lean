import WifiTestTool.Iperf.Types
import WifiTestTool.Iperf.Proofs.TimerRun

/-!
# Timer procedures that reset other timers

`tmr_run` saves the pointer to the next timer before it calls the procedure of a timer. A procedure that resets
exactly that timer moves the saved pointer to another place of the list, and the loop goes on from there: what was
due in between is passed over. So a due timer fires unless the last procedure that did so carried the pointer past
it (`due_timers_fire_iff`).

The proof follows two timers at a time. `[a, b] <+ l` says that `b` comes after `a` on the list `l`; a reset of
other timers does not change that, and the timer that is reset comes before exactly those that are later.
-/

namespace Iperf

open Dll StableInsert Reactive

variable {C : Type}

/-! ## The procedures -/

/-- What a timer procedure asks its user. -/
inductive ResetReq (C : Type) where
  /-- The procedure of the timer `t` is called: which timers does it reset, and at which times? -/
  | call (t : Addr) (proc : C)

/-- The answers. -/
abbrev ResetReq.Ans : ResetReq C → Type
  | .call _ _ => List (Timeval × Addr)

/-- Programs that use the timer package, with such procedures. -/
abbrev ResetProg (C : Type) : Type → Type := Prog (TimerState C) (ResetReq.Ans (C := C)) TimerHalt

/-- Reset timers, one after the other. -/
def resetEach : List (Timeval × Addr) → ResetProg C Unit
  | [] => pure ()
  | (now, t) :: resets => do
    (timerView C).run (tmrReset now t)
    resetEach resets

/-- A timer procedure that resets any timers. -/
def resettingProc (t : Addr) (proc : C) (_now : Timeval) : ResetProg C Unit := do
  let resets ← Prog.ask (ResetReq.call t proc)
  resetEach resets

/-- A call of a timer procedure. -/
structure ProcCall where
  timer : Addr
  /-- The timer directly behind it on the list when the procedure is called. -/
  behind : Option Addr
  resets : List (Timeval × Addr)
deriving DecidableEq

/-- The time of the last reset of the timer `a`. -/
def lastReset : List (Timeval × Addr) → Addr → Option Timeval
  | [], _ => none
  | (now, t) :: resets, a => (lastReset resets a).or (if t = a then some now else none)

/-- The timer `a` is on the active list. -/
def OnList (s : TimerState C) (a : Addr) : Prop := ∃ l q, Seg s.mem none s.timers l q none ∧ a ∈ l

/-- The contents of a timer after its last reset. -/
def TimerData.resetAt (o : Option Timeval) (d : TimerData C) : TimerData C :=
  match o with
  | none => d
  | some now => { d with time := addUsecs now d.usecs }

/-- The procedures reset active timers. If they are `modest`, then a timer that has been reset is not due. The notes
are the calls so far. -/
def resetContract (C : Type) (modest : Prop) (now : Timeval) :
    Contract (TimerState C) (ResetReq.Ans (C := C)) TimerHalt (List ProcCall) where
  onCall s calls
    | .call t _, resets => calls ++ [⟨t, (s.mem t).bind Node.next, resets⟩]
  onWrite _ calls := calls
  allows s _
    | .call _ _, resets => ∀ r ∈ resets, OnList s r.2 ∧
        (modest → ∀ d, dataAt s r.2 = some d → now.before (addUsecs r.1 d.usecs))
  ok _ _ _ := True
  inv _ _ := True
  mayHalt _ _ h := h = .spin ∧ ¬ modest

/-! ## Which calls carry the pointer along -/

/-- The time that the timer directly behind gets, if the procedure resets it. -/
def ProcCall.lands (s₀ : TimerState C) (c : ProcCall) : Option Timeval := do
  let b ← c.behind
  let now ← lastReset c.resets b
  let d ← dataAt s₀ b
  some (addUsecs now d.usecs)

/-- The calls up to the last one that resets the timer directly behind its own, and the time that timer gets. -/
def lastLanding (s₀ : TimerState C) : List ProcCall → List ProcCall → Option (List ProcCall × Timeval)
  | _, [] => none
  | past, c :: calls =>
    (lastLanding s₀ (past ++ [c]) calls).or ((c.lands s₀).map fun time => (past ++ [c], time))

/-- A procedure resets the timer `a`. -/
def ResetIn (calls : List ProcCall) (a : Addr) : Prop := ∃ c ∈ calls, ∃ r ∈ c.resets, r.2 = a

/-- The timer `a` has fired. -/
def FiredIn (calls : List ProcCall) (a : Addr) : Prop := ∃ c ∈ calls, c.timer = a

/-- The last call that resets the timer directly behind its own one leaves it before every due timer that has not
fired by then and is never reset. -/
def LeavesInFront (now : Timeval) (active : List Addr) (s₀ : TimerState C) (calls : List ProcCall) : Prop :=
  ∀ past time, lastLanding s₀ [] calls = some (past, time) →
    ∀ a ∈ active, ∀ d, dataAt s₀ a = some d → ¬ now.before d.time → ¬ ResetIn calls a → ¬ FiredIn past a →
      time.before d.time

/-! ## Resets -/

theorem onList_iff {s : TimerState C} {l free out : List Addr} (h : Rep s l free out) (a : Addr) :
    OnList s a ↔ a ∈ l := by
  obtain ⟨q, hseg⟩ := h.seg
  constructor
  · rintro ⟨l', q', hseg', ha⟩
    exact hseg.unique hseg' ▸ ha
  · exact fun ha => ⟨l, q, hseg, ha⟩

@[simp] theorem map_resetAt_none (o : Option (TimerData C)) : o.map (TimerData.resetAt none) = o := by
  cases o <;> rfl

theorem resetAt_usecs (o : Option Timeval) (d : TimerData C) : (TimerData.resetAt o d).usecs = d.usecs := by
  cases o <;> rfl

theorem resetAt_periodic (o : Option Timeval) (d : TimerData C) :
    (TimerData.resetAt o d).periodic = d.periodic := by
  cases o <;> rfl

theorem lastReset_eq_none {resets : List (Timeval × Addr)} {a : Addr} :
    lastReset resets a = none ↔ ∀ r ∈ resets, r.2 ≠ a := by
  induction resets with
  | nil => simp [lastReset]
  | cons r resets ih =>
    obtain ⟨now, t⟩ := r
    rw [lastReset, Option.or_eq_none_iff, ih]
    simp [and_comm]

/-- The timers of the list `l` are reset, one after the other, and are on the list `l'` then. -/
structure Rearranged (resets : List (Timeval × Addr)) (s s' : TimerState C) (l l' free : List Addr) : Prop where
  rep : Rep s' l' free []
  sorted : Sorted s' l'
  perm : l'.Perm l
  data : ∀ a, dataAt s' a = (dataAt s a).map (TimerData.resetAt (lastReset resets a))
  /-- The timers that are not reset stay in order. -/
  others : ∀ a b, lastReset resets a = none → lastReset resets b = none →
    ([a, b].Sublist l' ↔ [a, b].Sublist l)
  /-- A timer that is reset comes before those that are later. -/
  moved : ∀ a b, a ∈ l → b ∈ l → lastReset resets a ≠ none → lastReset resets b = none →
    ([a, b].Sublist l' ↔ keyAt s' a < keyAt s' b)

/-- The timer `t` gets new contents and a new place. -/
theorem retime_order {s s' : TimerState C} {l₁ l₂ free : List Addr} {t : Addr}
    (h : Rep s (l₁ ++ t :: l₂) free []) (hs : Sorted s (l₁ ++ t :: l₂))
    (hd : ∀ a, a ≠ t → dataAt s' a = dataAt s a) :
    (∀ a b, a ≠ t → b ≠ t → ([a, b].Sublist (insertBy (keyAt s') t (l₁ ++ l₂)) ↔ [a, b].Sublist (l₁ ++ t :: l₂))) ∧
      ∀ b ∈ l₁ ++ t :: l₂, b ≠ t →
        ([t, b].Sublist (insertBy (keyAt s') t (l₁ ++ l₂)) ↔ keyAt s' t < keyAt s' b) := by
  have hnd := (List.nodup_append.1 (List.nodup_append.1 h.nodup).1).1
  have hnd' : (t :: (l₁ ++ l₂)).Nodup := List.perm_middle.nodup_iff.1 hnd
  have hsub := (List.sublist_cons_self t l₂).append_left l₁
  have hsorted : Sorted s (l₁ ++ l₂) := hs.sublist hsub
  have hsorted : Sorted s' (l₁ ++ l₂) := hsorted.congr fun a ha => hd a fun e => by
    subst e
    exact (List.nodup_cons.1 hnd').1 ha
  refine ⟨fun a b ha hb => pair_sublist_insertBy hsorted ha hb, fun b hb hbt => ?_⟩
  refine pair_sublist_insertBy_self hsorted hnd' ?_
  rcases List.mem_cons.1 (List.perm_middle.mem_iff.1 hb) with rfl | hb
  · exact absurd rfl hbt
  · exact hb

/-- One reset. -/
theorem tmrReset_rearranged {s : TimerState C} {l free : List Addr} {t : Addr} (h : Rep s l free [])
    (hs : Sorted s l) (ht : t ∈ l) (now : Timeval) :
    ∃ s' l', tmrReset now t s = some s' ∧ Rearranged [(now, t)] s s' l l' free := by
  obtain ⟨l₁, l₂, rfl⟩ := List.append_of_mem ht
  obtain ⟨s', hs', hrep, hsorted, hdt, hdo⟩ := tmrReset_spec now h hs
  obtain ⟨hothers, hmoved⟩ := retime_order h hs hdo
  have hlast : ∀ a, lastReset [(now, t)] a = if t = a then some now else none := fun a => by simp [lastReset]
  refine ⟨s', _, hs', hrep, hsorted, perm_insertBy.trans List.perm_middle.symm, fun a => ?_, fun a b ha hb => ?_,
    fun a b _ hb ha hb' => ?_⟩
  · rw [hlast]
    by_cases ha : t = a
    · subst ha
      rw [if_pos rfl, hdt]
      rfl
    · rw [if_neg ha, hdo a (Ne.symm ha), map_resetAt_none]
  · rw [lastReset_eq_none] at ha hb
    exact hothers a b (Ne.symm (ha _ (List.mem_singleton_self _))) (Ne.symm (hb _ (List.mem_singleton_self _)))
  · rw [lastReset_eq_none] at hb'
    rw [hlast] at ha
    obtain rfl : t = a := by
      by_contra hne
      rw [if_neg hne] at ha
      exact ha rfl
    exact hmoved b hb (Ne.symm (hb' _ (List.mem_singleton_self _)))

/-- No reset. -/
theorem Rearranged.refl {s : TimerState C} {l free : List Addr} (h : Rep s l free []) (hs : Sorted s l) :
    Rearranged [] s s l l free :=
  ⟨h, hs, .refl _, fun a => by simp [lastReset], fun _ _ _ _ => .rfl, fun _ _ _ _ ha => absurd rfl ha⟩

/-- One reset and then others. -/
theorem Rearranged.cons {s s₁ s₂ : TimerState C} {l l₁ l₂ free : List Addr} {now : Timeval} {t : Addr}
    {resets : List (Timeval × Addr)} (h₁ : Rearranged [(now, t)] s s₁ l l₁ free)
    (h₂ : Rearranged resets s₁ s₂ l₁ l₂ free) : Rearranged ((now, t) :: resets) s s₂ l l₂ free where
  rep := h₂.rep
  sorted := h₂.sorted
  perm := h₂.perm.trans h₁.perm
  data a := by
    rw [h₂.data, h₁.data, Option.map_map, lastReset]
    congr 1
    funext d
    simp only [lastReset, Option.none_or, Function.comp_apply]
    cases hlast : lastReset resets a with
    | none => rfl
    | some now' =>
      rw [Option.some_or]
      simp only [TimerData.resetAt]
      split <;> rfl
  others a b ha hb := by
    rw [lastReset, Option.or_eq_none_iff] at ha hb
    rw [h₂.others a b ha.1 hb.1]
    exact h₁.others a b (by simpa [lastReset] using ha.2) (by simpa [lastReset] using hb.2)
  moved a b hal hbl ha hb := by
    rw [lastReset, Option.or_eq_none_iff] at hb
    cases hlast : lastReset resets a with
    | some now' =>
      exact h₂.moved a b (h₁.perm.mem_iff.2 hal) (h₁.perm.mem_iff.2 hbl) (by simp [hlast]) hb.1
    | none =>
      rw [lastReset, hlast, Option.none_or] at ha
      rw [h₂.others a b hlast hb.1, h₁.moved a b hal hbl (by simpa [lastReset] using ha) (by simpa [lastReset] using hb.2)]
      simp only [keyAt, h₂.data, hlast, hb.1, map_resetAt_none]

/-- Resets of active timers. -/
theorem resetEach_safe {K : Contract (TimerState C) (ResetReq.Ans (C := C)) TimerHalt (List ProcCall)}
    (hK : ∀ s g, K.inv s (K.onWrite s g) ∧ K.onWrite s g = g) {free : List Addr}
    {Q : Unit → TimerState C → List ProcCall → Prop} (resets : List (Timeval × Addr)) {s : TimerState C}
    {l : List Addr} {g : List ProcCall} (h : Rep s l free []) (hs : Sorted s l) (hon : ∀ r ∈ resets, r.2 ∈ l)
    (hQ : ∀ s' l', Rearranged resets s s' l l' free → Q () s' g) : (resetEach resets).Safe K Q s g := by
  induction resets generalizing s l with
  | nil => exact hQ s l (.refl h hs)
  | cons r resets ih =>
    obtain ⟨now, t⟩ := r
    obtain ⟨s₁, l₁, hs₁, h₁⟩ := tmrReset_rearranged h hs (hon _ (List.mem_cons_self ..)) now
    rw [resetEach, Prog.safe_bind]
    refine safe_viewRun hs₁ ⟨(hK ..).1, ?_⟩
    rw [(hK ..).2]
    refine ih h₁.rep h₁.sorted (fun r hr => h₁.perm.mem_iff.2 (hon r (List.mem_cons_of_mem _ hr))) ?_
    intro s₂ l₂ h₂
    exact hQ s₂ l₂ (h₁.cons h₂)

/-! ## The end of a pass -/

/-- The procedure of the timer `t` has returned, which has the contents `d` then, and the list `l` becomes `l'`. -/
structure Rescheduled (t : Addr) (d : TimerData C) (s s' : TimerState C) (l l' : List Addr) : Prop where
  rep : ∃ free, Rep s' l' free []
  sorted : Sorted s' l'
  expired : dataAt s' t = some d.next
  data : ∀ a, a ≠ t → dataAt s' a = dataAt s a
  perm : if d.periodic then l'.Perm l else (t :: l').Perm l
  others : ∀ a b, a ≠ t → b ≠ t → ([a, b].Sublist l' ↔ [a, b].Sublist l)
  /-- If it is periodic, it comes before those that are later. -/
  moved : d.periodic = true → ∀ b ∈ l, b ≠ t → ([t, b].Sublist l' ↔ keyAt s' t < keyAt s' b)

theorem Rescheduled.sub {t : Addr} {d : TimerData C} {s s' : TimerState C} {l l' : List Addr}
    (h : Rescheduled t d s s' l l') {a : Addr} (ha : a ∈ l') : a ∈ l := by
  have hperm := h.perm
  split at hperm
  · exact hperm.mem_iff.1 ha
  · exact hperm.mem_iff.1 (List.mem_cons_of_mem _ ha)

theorem Rescheduled.mem {t : Addr} {d : TimerData C} {s s' : TimerState C} {l l' : List Addr}
    (h : Rescheduled t d s s' l l') {a : Addr} (hat : a ≠ t) (ha : a ∈ l) : a ∈ l' := by
  have hperm := h.perm
  split at hperm
  · exact hperm.mem_iff.2 ha
  · exact (List.mem_cons.1 (hperm.mem_iff.2 ha)).resolve_left hat

theorem tmrRunNext_rescheduled {s : TimerState C} {l free : List Addr} {t : Addr} {d : TimerData C}
    (h : Rep s l free []) (hs : Sorted s l) (ht : t ∈ l) (hd : dataAt s t = some d) :
    ∃ s' l', tmrRunNext t d.periodic s = some s' ∧ Rescheduled t d s s' l l' := by
  obtain ⟨l₁, l₂, rfl⟩ := List.append_of_mem ht
  cases hp : d.periodic with
  | false =>
    obtain ⟨s', hs', hrep, hdata⟩ := tmrCancel_spec h
    have hsorted : Sorted s (l₁ ++ l₂) := hs.sublist ((List.sublist_cons_self t l₂).append_left l₁)
    refine ⟨s', l₁ ++ l₂, by simpa [tmrRunNext] using hs', ⟨_, hrep⟩, hsorted.congr fun a _ => hdata a, ?_,
      fun a _ => hdata a, ?_, fun a b ha hb => (pair_sublist_erase ha hb).symm, fun hp' => ?_⟩
    · rw [hdata, hd, TimerData.next, if_neg (by simp [hp])]
    · rw [hp, if_neg (by simp)]
      exact List.perm_middle.symm
    · rw [hp] at hp'
      cases hp'
  | true =>
    obtain ⟨s', hs', hrep, hsorted, hdt, hdo⟩ := retime_spec h hs
      fun d => { d with time := addUsecs d.time d.usecs }
    refine ⟨s', _, by simpa [tmrRunNext] using hs', ⟨_, hrep⟩, hsorted, ?_, hdo, ?_, (retime_order h hs hdo).1,
      fun _ => (retime_order h hs hdo).2⟩
    · rw [hdt, hd, TimerData.next_of_periodic hp]
      rfl
    · rw [hp, if_pos rfl]
      exact perm_insertBy.trans List.perm_middle.symm

/-! ## The loop -/

theorem lastLanding_snoc (s₀ : TimerState C) (past calls : List ProcCall) (c : ProcCall) :
    lastLanding s₀ past (calls ++ [c]) =
      ((c.lands s₀).map fun time => (past ++ calls ++ [c], time)).or (lastLanding s₀ past calls) := by
  induction calls generalizing past with
  | nil => simp [lastLanding]
  | cons c' calls ih =>
    rw [List.cons_append, lastLanding, ih, lastLanding, Option.or_assoc]
    simp

theorem lastLanding_fired {s₀ : TimerState C} {past calls upto : List ProcCall} {time : Timeval} {a : Addr}
    (h : lastLanding s₀ past calls = some (upto, time)) (ha : FiredIn upto a) : FiredIn (past ++ calls) a := by
  induction calls generalizing past with
  | nil => cases h
  | cons c calls ih =>
    rw [lastLanding] at h
    rcases Option.or_eq_some_iff.1 h with h | ⟨-, h⟩
    · simpa using ih h
    · obtain ⟨time', -, heq⟩ := Option.map_eq_some_iff.1 h
      rw [Prod.mk.injEq] at heq
      obtain ⟨rfl, -⟩ := heq
      obtain ⟨c', hc', rfl⟩ := ha
      refine ⟨c', ?_, rfl⟩
      rcases List.mem_append.1 hc' with hc' | hc'
      · exact List.mem_append_left _ hc'
      · rw [List.mem_singleton.1 hc']
        simp

theorem firedIn_snoc (calls : List ProcCall) (c : ProcCall) (a : Addr) :
    FiredIn (calls ++ [c]) a ↔ FiredIn calls a ∨ c.timer = a := by
  simp only [FiredIn, List.mem_append, List.mem_singleton]
  constructor
  · rintro ⟨c', hc' | rfl, ha⟩
    · exact .inl ⟨c', hc', ha⟩
    · exact .inr ha
  · rintro (⟨c', hc', ha⟩ | ha)
    · exact ⟨c', .inl hc', ha⟩
    · exact ⟨c, .inr rfl, ha⟩

theorem resetIn_snoc (calls : List ProcCall) (c : ProcCall) (a : Addr) :
    ResetIn (calls ++ [c]) a ↔ ResetIn calls a ∨ ∃ r ∈ c.resets, r.2 = a := by
  simp only [ResetIn, List.mem_append, List.mem_singleton]
  constructor
  · rintro ⟨c', hc' | rfl, ha⟩
    · exact .inl ⟨c', hc', ha⟩
    · exact .inr ha
  · rintro (⟨c', hc', ha⟩ | ha)
    · exact ⟨c', .inl hc', ha⟩
    · exact ⟨c, .inr rfl, ha⟩

/-- The timer `a` has not fired when the pointer is carried along for the last time. -/
def Waits (s₀ : TimerState C) (calls : List ProcCall) (a : Addr) : Prop :=
  ∀ past time, lastLanding s₀ [] calls = some (past, time) → ¬ FiredIn past a

/-- The last time that the pointer is carried along, it stays before the time of `d`. -/
def StaysBefore (s₀ : TimerState C) (calls : List ProcCall) (d : TimerData C) : Prop :=
  ∀ past time, lastLanding s₀ [] calls = some (past, time) → time.before d.time

/-- The loop of `tmr_run` has called the procedures `calls`. It is at the first timer of `todo`. -/
structure ResetInv (now : Timeval) (active : List Addr) (s₀ : TimerState C) (calls : List ProcCall)
    (s : TimerState C) (pre todo : List Addr) : Prop where
  rep : ∃ free, Rep s (pre ++ todo) free []
  sorted : Sorted s (pre ++ todo)
  sub : ∀ a ∈ pre ++ todo, a ∈ active
  kind : ∀ a d, dataAt s₀ a = some d → ∃ d', dataAt s a = some d' ∧ d'.usecs = d.usecs ∧ d'.periodic = d.periodic
  kept : ∀ a ∈ active, ¬ FiredIn calls a → a ∈ pre ++ todo ∧ (¬ ResetIn calls a → dataAt s a = dataAt s₀ a)
  /-- A due timer that has not been passed over has fired or is still to come. -/
  waiting : ∀ a ∈ active, ∀ d, dataAt s₀ a = some d → ¬ now.before d.time → ¬ ResetIn calls a → Waits s₀ calls a →
    (StaysBefore s₀ calls d ↔ FiredIn calls a ∨ a ∈ todo)

section Loop

variable {now : Timeval} {active : List Addr} {s₀ s : TimerState C} {calls : List ProcCall}
  {pre todo : List Addr}

/-- Before the first call. -/
theorem ResetInv.start {free : List Addr} (hrep : Rep s₀ active free []) (hsorted : Sorted s₀ active) :
    ResetInv now active s₀ [] s₀ [] active where
  rep := ⟨free, hrep⟩
  sorted := hsorted
  sub _ ha := ha
  kind _ d hd := ⟨d, hd, rfl, rfl⟩
  kept _ ha _ := ⟨ha, fun _ => rfl⟩
  waiting _ ha _ _ _ _ _ := ⟨fun _ => .inr ha, fun _ _ _ h => nomatch h⟩

/-- What comes after the timer `b` that was directly behind `t`, of the timers that are not reset: if `b` is not
reset either, what came after it before, and otherwise what is later. -/
theorem ResetInv.behind {t b a : Addr} {rest pre' rest' l₁ free : List Addr} {s₁ s₂ : TimerState C}
    {d dt : TimerData C} {resets : List (Timeval × Addr)} (h : ResetInv now active s₀ calls s pre (t :: b :: rest))
    (hr : Rearranged resets s s₁ (pre ++ t :: b :: rest) l₁ free) (hn : Rescheduled t dt s₁ s₂ l₁ (pre' ++ b :: rest'))
    (hal : a ∈ pre ++ t :: b :: rest) (hat : a ≠ t) (hlast : lastReset resets a = none) (hd : dataAt s a = some d) :
    (lastReset resets b = none → (a ∈ b :: rest' ↔ a ∈ b :: rest)) ∧
      ∀ now', lastReset resets b = some now' → ∀ db, dataAt s₀ b = some db →
        ((addUsecs now' db.usecs).before d.time ↔ a ∈ b :: rest') := by
  obtain ⟨free₀, hrep₀⟩ := h.rep
  have hnd := (List.nodup_append.1 (List.nodup_append.1 hrep₀.nodup).1).1
  obtain ⟨free₂, hrep₂⟩ := hn.rep
  have hnd₂ := (List.nodup_append.1 (List.nodup_append.1 hrep₂.nodup).1).1
  have hbt : b ≠ t := by
    rintro rfl
    simp [List.nodup_append] at hnd
  have hafter : [b, a].Sublist (pre' ++ b :: rest') ↔ [b, a].Sublist l₁ := hn.others b a hbt hat
  rw [pair_sublist_iff hnd₂] at hafter
  constructor
  · intro hb
    have hassoc : pre ++ t :: b :: rest = (pre ++ [t]) ++ b :: rest := by simp
    rw [hr.others b a hb hlast, hassoc, pair_sublist_iff (hassoc ▸ hnd)] at hafter
    rw [List.mem_cons, List.mem_cons, hafter]
  · intro now' hb db hdb
    have hab : a ≠ b := by
      rintro rfl
      rw [hlast] at hb
      cases hb
    rw [hr.moved b a (by simp) hal (by simp [hb]) hlast] at hafter
    rw [List.mem_cons, or_iff_right hab, hafter, before_iff]
    obtain ⟨db', hdb', hu, -⟩ := h.kind b db hdb
    have hkeyb : keyAt s₁ b = (addUsecs now' db.usecs).key := by
      rw [keyAt, hr.data, hdb', hb, ← hu]
      rfl
    have hkeya : keyAt s₁ a = d.time.key := by
      rw [keyAt, hr.data, hlast, hd]
      rfl
    rw [hkeyb, hkeya]

/-- The timer `t` fires. -/
theorem ResetInv.pass {t : Addr} {rest l₁ l₂ free : List Addr} {s₁ s₂ : TimerState C} {dt : TimerData C}
    {resets : List (Timeval × Addr)} (h : ResetInv now active s₀ calls s pre (t :: rest))
    (hr : Rearranged resets s s₁ (pre ++ t :: rest) l₁ free) (hdt : dataAt s₁ t = some dt)
    (hn : Rescheduled t dt s₁ s₂ l₁ l₂)
    (h₀ : ∀ a ∈ active, ∃ d, dataAt s₀ a = some d) :
    ∃ pre' todo', l₂ = pre' ++ todo' ∧ todo'.head? = rest.head? ∧
      ResetInv now active s₀ (calls ++ [⟨t, rest.head?, resets⟩]) s₂ pre' todo' := by
  obtain ⟨free₀, hrep₀⟩ := h.rep
  have hnd := (List.nodup_append.1 (List.nodup_append.1 hrep₀.nodup).1).1
  -- The loop goes on at the timer that was directly behind `t`.
  have hsplit : ∃ pre' todo', l₂ = pre' ++ todo' ∧ todo'.head? = rest.head? := by
    cases rest with
    | nil => exact ⟨l₂, [], (List.append_nil _).symm, rfl⟩
    | cons b rest =>
      have hbt : b ≠ t := by
        rintro rfl
        simp [List.nodup_append] at hnd
      have hb : b ∈ l₂ := hn.mem hbt (hr.perm.mem_iff.2 (by simp))
      obtain ⟨pre', rest', rfl⟩ := List.append_of_mem hb
      exact ⟨pre', b :: rest', rfl, rfl⟩
  obtain ⟨pre', todo', hl₂, hhead⟩ := hsplit
  have hnotReset : ∀ a, ¬ ResetIn (calls ++ [⟨t, rest.head?, resets⟩]) a →
      ¬ ResetIn calls a ∧ lastReset resets a = none := by
    intro a ha
    rw [resetIn_snoc, not_or] at ha
    exact ⟨ha.1, lastReset_eq_none.2 fun r hr hra => ha.2 ⟨r, hr, hra⟩⟩
  refine ⟨pre', todo', hl₂, hhead, hl₂ ▸ hn.rep, hl₂ ▸ hn.sorted, ?_, ?_, ?_, ?_⟩
  · intro a ha
    exact h.sub a (hr.perm.mem_iff.1 (hn.sub (hl₂ ▸ ha)))
  · intro a d hd
    obtain ⟨d', hd', hu, hp⟩ := h.kind a d hd
    have hd₁ : dataAt s₁ a = some (d'.resetAt (lastReset resets a)) := by
      rw [hr.data, hd', Option.map_some]
    by_cases hat : a = t
    · subst hat
      obtain rfl := Option.some.inj (hdt.symm.trans hd₁)
      refine ⟨_, hn.expired, ?_, ?_⟩
      · rw [TimerData.next_usecs, resetAt_usecs, hu]
      · rw [TimerData.next_periodic, resetAt_periodic, hp]
    · exact ⟨_, (hn.data a hat).trans hd₁, (resetAt_usecs ..).trans hu, (resetAt_periodic ..).trans hp⟩
  · intro a ha hfired
    rw [firedIn_snoc, not_or] at hfired
    obtain ⟨hmem, hsame⟩ := h.kept a ha hfired.1
    have hat : a ≠ t := Ne.symm hfired.2
    refine ⟨hl₂ ▸ hn.mem hat (hr.perm.mem_iff.2 hmem), fun hreset => ?_⟩
    obtain ⟨hcalls, hlast⟩ := hnotReset a hreset
    rw [hn.data a hat, hr.data, hlast, map_resetAt_none, hsame hcalls]
  · intro a ha d hd hdue hreset hwaits
    obtain ⟨hcalls, hlast⟩ := hnotReset a hreset
    have hsnoc := lastLanding_snoc s₀ [] calls ⟨t, rest.head?, resets⟩
    have hstill : ¬ FiredIn calls a → a ∈ pre ++ t :: rest ∧ dataAt s a = some d := fun hf =>
      ⟨(h.kept a ha hf).1, ((h.kept a ha hf).2 hcalls).trans hd⟩
    cases rest with
    | nil =>
      -- The loop is at its end.
      have htodo : todo' = [] := List.head?_eq_none_iff.1 hhead
      have hnone : ProcCall.lands s₀ ⟨t, none, resets⟩ = none := rfl
      rw [List.head?_nil, hnone, Option.map_none, Option.none_or] at hsnoc
      have hwait := h.waiting a ha d hd hdue hcalls fun past time hl => hwaits past time (hsnoc.trans hl)
      rw [StaysBefore, List.head?_nil, hsnoc, ← StaysBefore, hwait, firedIn_snoc, htodo]
      simp [eq_comm]
    | cons b rest =>
      obtain ⟨rest', rfl⟩ : ∃ rest', todo' = b :: rest' := by
        cases todo' with
        | nil => cases hhead
        | cons b' rest' => exact ⟨rest', by rw [Option.some.inj hhead]⟩
      rw [hl₂] at hn
      obtain ⟨db, hdb⟩ := h₀ b (h.sub b (by simp))
      cases hb : lastReset resets b with
      | none =>
        have hnone : ProcCall.lands s₀ ⟨t, some b, resets⟩ = none := by simp [ProcCall.lands, hb]
        rw [List.head?_cons, hnone, Option.map_none, Option.none_or] at hsnoc
        have hwait := h.waiting a ha d hd hdue hcalls fun past time hl => hwaits past time (hsnoc.trans hl)
        rw [StaysBefore, List.head?_cons, hsnoc, ← StaysBefore, hwait, firedIn_snoc]
        by_cases hf : FiredIn calls a
        · simp [hf]
        · by_cases hat : a = t
          · simp [hat]
          · obtain ⟨hal, hda⟩ := hstill hf
            have hiff := (h.behind hr hn hal hat hlast hda).1 hb
            rw [List.mem_cons, or_iff_right hat, hiff, or_iff_left (Ne.symm hat)]
      | some now' =>
        have hsome : ProcCall.lands s₀ ⟨t, some b, resets⟩ = some (addUsecs now' db.usecs) := by
          simp [ProcCall.lands, hb, hdb]
        rw [List.head?_cons, hsome, Option.map_some, Option.some_or] at hsnoc
        have hf := hwaits _ _ hsnoc
        have hiff : StaysBefore s₀ (calls ++ [⟨t, some b, resets⟩]) d ↔ (addUsecs now' db.usecs).before d.time :=
          ⟨fun hs => hs _ _ hsnoc, fun hs past time hl => by
            have heq := Option.some.inj (hsnoc.symm.trans hl)
            rw [Prod.mk.injEq] at heq
            exact heq.2 ▸ hs⟩
        rw [List.nil_append, firedIn_snoc, not_or] at hf
        obtain ⟨hal, hda⟩ := hstill hf.1
        rw [List.head?_cons, hiff, (h.behind hr hn hal (Ne.symm hf.2) hlast hda).2 now' hb db hdb, firedIn_snoc,
          or_iff_right (not_or.2 hf)]

/-- The loop has come to a timer that is not due, or to the end of the list: a due timer that is not reset has
fired unless the pointer was carried past it. -/
theorem ResetInv.done (h : ResetInv now active s₀ calls s pre todo)
    (hdone : ∀ a ∈ todo, ∀ d, dataAt s a = some d → now.before d.time) :
    (∀ a ∈ active, ∀ d, dataAt s₀ a = some d → ¬ now.before d.time → ¬ ResetIn calls a → FiredIn calls a) ↔
      LeavesInFront now active s₀ calls := by
  have hfired : ∀ a ∈ active, ∀ d, dataAt s₀ a = some d → ¬ now.before d.time → ¬ ResetIn calls a →
      Waits s₀ calls a → (StaysBefore s₀ calls d ↔ FiredIn calls a) := by
    intro a ha d hd hdue hreset hwaits
    rw [h.waiting a ha d hd hdue hreset hwaits]
    constructor
    · intro hor
      by_contra hf
      have hsame := ((h.kept a ha hf).2 hreset).trans hd
      exact hdue (hdone a (hor.resolve_left hf) d hsame)
    · exact .inl
  constructor
  · intro hall past time hl a ha d hd hdue hreset hpast
    have hwaits : Waits s₀ calls a := fun past' time' hl' => by
      have heq := Option.some.inj (hl.symm.trans hl')
      rw [Prod.mk.injEq] at heq
      exact heq.1 ▸ hpast
    exact (hfired a ha d hd hdue hreset hwaits).2 (hall a ha d hd hdue hreset) past time hl
  · intro hfront a ha d hd hdue hreset
    by_contra hf
    have hwaits : Waits s₀ calls a := fun past time hl hp => hf (lastLanding_fired hl hp)
    refine hf ((hfired a ha d hd hdue hreset hwaits).1 fun past time hl => ?_)
    exact hfront past time hl a ha d hd hdue hreset (hwaits past time hl)

/-! ## How long the loop goes on -/

theorem lastReset_mem {resets : List (Timeval × Addr)} {a : Addr} {time : Timeval}
    (h : lastReset resets a = some time) : (time, a) ∈ resets := by
  induction resets with
  | nil => cases h
  | cons r resets ih =>
    obtain ⟨now, t⟩ := r
    rw [lastReset] at h
    rcases Option.or_eq_some_iff.1 h with h | ⟨-, h⟩
    · exact List.mem_cons_of_mem _ (ih h)
    · obtain ⟨rfl, heq⟩ := Option.ite_none_right_eq_some.1 h
      rw [Option.some.inj heq]
      exact List.mem_cons_self ..

/-- A timer that has been reset modestly is not due. -/
theorem overdue_resetAt {resets : List (Timeval × Addr)} {a : Addr} {d : TimerData C}
    (hmodest : ∀ r ∈ resets, ∀ d, dataAt s r.2 = some d → now.before (addUsecs r.1 d.usecs))
    (hd : dataAt s a = some d) :
    d.resetAt (lastReset resets a) = d ∨ now.before (d.resetAt (lastReset resets a)).time := by
  cases hlast : lastReset resets a with
  | none => exact .inl rfl
  | some now' => exact .inr (hmodest _ (lastReset_mem hlast) d hd)

theorem workLeft_le {s' : TimerState C} {l : List Addr}
    (h : ∀ a ∈ l, ∀ d, dataAt s a = some d → ∃ d', dataAt s' a = some d' ∧ overdue now d' ≤ overdue now d)
    (hd : ∀ a ∈ l, ∃ d, dataAt s a = some d) : workLeft now s' l ≤ workLeft now s l := by
  induction l with
  | nil => exact le_rfl
  | cons a l ih =>
    obtain ⟨d, hda⟩ := hd a (List.mem_cons_self ..)
    obtain ⟨d', hda', hle⟩ := h a (List.mem_cons_self ..) d hda
    rw [workLeft_cons hda, workLeft_cons hda']
    exact Nat.add_le_add hle (ih (fun b hb => h b (List.mem_cons_of_mem _ hb)) fun b hb =>
      hd b (List.mem_cons_of_mem _ hb))

/-- With modest procedures, every pass takes from what is left to do. -/
theorem workLeft_pass {t : Addr} {l l₁ l₂ free free' : List Addr} {s₁ s₂ : TimerState C} {d : TimerData C}
    {resets : List (Timeval × Addr)} (h : Rep s l free' []) (ht : t ∈ l) (hd : dataAt s t = some d)
    (hdue : ¬ now.before d.time) (hu : d.periodic = true → 0 < d.usecs)
    (hr : Rearranged resets s s₁ l l₁ free)
    (hn : Rescheduled t (d.resetAt (lastReset resets t)) s₁ s₂ l₁ l₂)
    (hmodest : ∀ r ∈ resets, ∀ d, dataAt s r.2 = some d → now.before (addUsecs r.1 d.usecs)) :
    workLeft now s₂ l₂ < workLeft now s l := by
  have hnd := (List.nodup_append.1 (List.nodup_append.1 h.nodup).1).1
  have hsome : ∀ a ∈ l, ∃ d, dataAt s a = some d := fun a ha => by
    obtain ⟨c, hc⟩ := h.mem_active ha
    exact ⟨c.val, by rw [dataAt, hc]; rfl⟩
  have hpos := overdue_pos hdue
  -- The other timers have no more to do than before.
  have hothers : ∀ m : List Addr, (t :: m).Perm l → workLeft now s₂ m ≤ workLeft now s m := by
    intro m hm
    have hml : ∀ a ∈ m, a ∈ l ∧ a ≠ t := fun a ha => by
      refine ⟨hm.mem_iff.1 (List.mem_cons_of_mem _ ha), ?_⟩
      rintro rfl
      exact (List.nodup_cons.1 (hm.nodup_iff.2 hnd)).1 ha
    refine workLeft_le (fun a ha da hda => ?_) fun a ha => hsome a (hml a ha).1
    refine ⟨_, by rw [hn.data a (hml a ha).2, hr.data, hda]; rfl, ?_⟩
    rcases overdue_resetAt hmodest hda with heq | hlater
    · rw [heq]
    · rw [overdue, if_pos hlater]
      exact Nat.zero_le _
  have hperm := hn.perm
  rw [resetAt_periodic] at hperm
  cases hp : d.periodic with
  | false =>
    rw [hp, if_neg (by simp)] at hperm
    have hl := hperm.trans hr.perm
    have hle := hothers l₂ hl
    rw [← workLeft_perm hl, workLeft_cons hd]
    omega
  | true =>
    rw [hp, if_pos rfl] at hperm
    have hl := List.perm_cons_erase ht
    have hle := hothers (l.erase t) hl.symm
    have hless : overdue now (d.resetAt (lastReset resets t)).next < overdue now d := by
      rcases overdue_resetAt hmodest hd with heq | hlater
      · rw [heq]
        exact overdue_next hdue hp (hu hp)
      · have hnext : now.before (d.resetAt (lastReset resets t)).next.time := by
          rw [TimerData.next_of_periodic (by rw [resetAt_periodic, hp]), before_iff]
          refine ((before_iff ..).1 hlater).trans (key_lt_addUsecs _ ?_)
          rw [resetAt_usecs]
          exact hu hp
        rw [overdue, if_pos hnext]
        exact hpos
    rw [workLeft_perm ((hperm.trans hr.perm).trans hl), workLeft_perm hl, workLeft_cons hn.expired, workLeft_cons hd]
    omega

/-- The loop of `tmr_run`, from a timer of the list on. -/
theorem tmrRunLoop_resets {modest : Prop} (h₀ : ∀ a ∈ active, ∃ d, dataAt s₀ a = some d)
    (hu : modest → ∀ a ∈ active, ∀ d, dataAt s₀ a = some d → d.periodic = true → 0 < d.usecs) (fuel : Nat)
    (h : ResetInv now active s₀ calls s pre todo) (hfuel : modest → workLeft now s (pre ++ todo) < fuel) :
    (tmrRunLoop (timerView C) resettingProc now fuel todo.head?).Safe (resetContract C modest now)
      (fun _ s' calls' => ∃ pre' todo', ResetInv now active s₀ calls' s' pre' todo' ∧
        ∀ a ∈ todo', ∀ d, dataAt s' a = some d → now.before d.time) s calls := by
  induction fuel generalizing s calls pre todo with
  | zero => exact ⟨rfl, fun hm => absurd (hfuel hm) (Nat.not_lt_zero _)⟩
  | succ fuel ih =>
    cases todo with
    | nil => exact ⟨pre, [], h, nofun⟩
    | cons t rest =>
      obtain ⟨free, hrep⟩ := h.rep
      obtain ⟨c, hc⟩ := hrep.mem_active (a := t) (by simp)
      have hd : dataAt s t = some c.val := by rw [dataAt, hc]; rfl
      have hnext : c.next = rest.head? := hrep.next_eq hc
      rw [List.head?_cons, tmrRunLoop, Prog.safe_bind]
      refine safe_load hc ?_
      dsimp only
      by_cases hdue : now.before c.val.time
      · rw [if_pos hdue]
        exact ⟨pre, t :: rest, h, h.sorted.not_due hd hdue⟩
      · rw [if_neg hdue, Prog.safe_bind, resettingProc, Prog.safe_bind, Prog.safe_ask]
        refine ⟨trivial, fun resets hresets => ?_⟩
        have hon : ∀ r ∈ resets, r.2 ∈ pre ++ t :: rest := fun r hr => (onList_iff hrep _).1 (hresets r hr).1
        refine resetEach_safe (fun _ _ => ⟨trivial, rfl⟩) resets hrep h.sorted hon fun s₁ l₁ hr => ?_
        have hcalls : (resetContract C modest now).onCall s calls (.call t c.val.proc) resets =
            calls ++ [⟨t, rest.head?, resets⟩] := by
          simp only [resetContract, hc, Option.bind_some, hnext]
        have hd₁ : dataAt s₁ t = some (c.val.resetAt (lastReset resets t)) := by
          rw [hr.data, hd]
          rfl
        obtain ⟨c₁, hc₁⟩ := hr.rep.mem_active (a := t) (hr.perm.mem_iff.2 (by simp))
        have hval : c₁.val = c.val.resetAt (lastReset resets t) := by
          rw [dataAt, hc₁] at hd₁
          exact Option.some.inj hd₁
        obtain ⟨s₂, l₂, hs₂, hn⟩ := tmrRunNext_rescheduled hr.rep hr.sorted (hr.perm.mem_iff.2 (by simp)) hd₁
        obtain ⟨pre', todo', rfl, hhead, hinv⟩ := h.pass hr hd₁ hn h₀
        rw [Prog.safe_bind]
        refine safe_load hc₁ ?_
        rw [Prog.safe_bind, hnext, hval]
        refine safe_viewRun hs₂ ⟨trivial, ?_⟩
        rw [← hhead] at hinv
        rw [hcalls, ← hhead]
        refine ih hinv fun hm => ?_
        obtain ⟨d₀, hd₀⟩ := h₀ t (h.sub t (by simp))
        obtain ⟨d', hd', husecs, hperiodic⟩ := h.kind t d₀ hd₀
        obtain rfl := Option.some.inj (hd.symm.trans hd')
        have hless := workLeft_pass hrep (by simp) hd hdue
          (fun hp => husecs ▸ hu hm t (h.sub t (by simp)) d₀ hd₀ (hperiodic ▸ hp)) hr hn
          fun r hr => (hresets r hr).2 hm
        have := hfuel hm
        show workLeft now s₂ (pre' ++ todo') < fuel
        omega

end Loop

/-! ## `tmr_run` -/

theorem tmrRun_resets {modest : Prop} {now : Timeval} {active free : List Addr} {s₀ : TimerState C}
    (hrep : Rep s₀ active free []) (hsorted : Sorted s₀ active)
    (hu : modest → ∀ a ∈ active, ∀ d, dataAt s₀ a = some d → d.periodic = true → 0 < d.usecs) (fuel : Nat)
    (hfuel : modest → workLeft now s₀ active < fuel) :
    (tmrRun (timerView C) resettingProc fuel now).Safe (resetContract C modest now)
      (fun _ _ calls => (∀ a ∈ active, ∀ d, dataAt s₀ a = some d → ¬ now.before d.time → ¬ ResetIn calls a →
        FiredIn calls a) ↔ LeavesInFront now active s₀ calls) s₀ [] := by
  have h₀ : ∀ a ∈ active, ∃ d, dataAt s₀ a = some d := fun a ha => by
    obtain ⟨c, hc⟩ := hrep.mem_active ha
    exact ⟨c.val, by rw [dataAt, hc]; rfl⟩
  rw [tmrRun, Prog.safe_bind, Prog.safe_get, show ((timerView C).get s₀).timers = active.head? from hrep.timers_eq]
  refine (tmrRunLoop_resets h₀ hu fuel (.start hrep hsorted) hfuel).mono ?_
  rintro - s calls ⟨pre, todo, hinv, hdone⟩
  exact hinv.done hdone

/-- **When resets hide due timers.** Take any sorted list of timers, and timer procedures that reset any active
timers, at any times. In a call of `tmr_run` that has come to its end, every timer that was due and that no
procedure has reset has fired if and only if the last procedure that reset the timer directly behind its own one
left it before every such timer that had not fired by then. If the procedures are modest and the periods are
above 0, then the call does come to its end. -/
theorem due_timers_fire_iff (now : Timeval) {active free : List Addr} {s₀ : TimerState C}
    (hrep : Rep s₀ active free []) (hsorted : Sorted s₀ active) (fuel : Nat) :
    (∀ s calls, Prog.Reach (resetContract C False now) (tmrRun (timerView C) resettingProc fuel now, s₀, [])
        (.ret (), s, calls) →
      ((∀ a ∈ active, ∀ d, dataAt s₀ a = some d → ¬ now.before d.time → ¬ ResetIn calls a → FiredIn calls a) ↔
        LeavesInFront now active s₀ calls)) ∧
    ((∀ a ∈ active, ∀ d, dataAt s₀ a = some d → d.periodic = true → 0 < d.usecs) → workLeft now s₀ active < fuel →
      ∀ p s calls, Prog.Reach (resetContract C True now) (tmrRun (timerView C) resettingProc fuel now, s₀, [])
        (p, s, calls) → ∀ h, p ≠ .halt h) := by
  refine ⟨fun s calls hr => ?_, ?_⟩
  · exact (tmrRun_resets hrep hsorted False.elim fuel False.elim).reach hr
  · rintro hu hfuel p s calls hr h rfl
    have hhalt := (tmrRun_resets hrep hsorted (fun _ => hu) fuel fun _ => hfuel).reach hr
    exact hhalt.2 trivial

/-- The time that a timer gets which is reset directly behind a call is that of one of the calls. -/
theorem lastLanding_time {s₀ : TimerState C} {past calls upto : List ProcCall} {time : Timeval}
    (h : lastLanding s₀ past calls = some (upto, time)) : ∃ c ∈ calls, c.lands s₀ = some time := by
  induction calls generalizing past with
  | nil => cases h
  | cons c calls ih =>
    rw [lastLanding] at h
    rcases Option.or_eq_some_iff.1 h with h | ⟨-, h⟩
    · obtain ⟨c', hc', hl⟩ := ih h
      exact ⟨c', List.mem_cons_of_mem _ hc', hl⟩
    · obtain ⟨time', hl, heq⟩ := Option.map_eq_some_iff.1 h
      rw [Prod.mk.injEq] at heq
      exact ⟨c, List.mem_cons_self .., heq.2 ▸ hl⟩

/-- The omit timer procedures reset the other timers at the time that `tmr_run` hands to them. Then the pointer must
not be carried along as long as there is a due timer left. -/
theorem leavesInFront_iff {now : Timeval} {active : List Addr} {s₀ : TimerState C} {calls : List ProcCall}
    (hlater : ∀ c ∈ calls, ∀ time, c.lands s₀ = some time → now.before time) :
    LeavesInFront now active s₀ calls ↔
      ∀ past time, lastLanding s₀ [] calls = some (past, time) →
        ∀ a ∈ active, ∀ d, dataAt s₀ a = some d → ¬ now.before d.time → ResetIn calls a ∨ FiredIn past a := by
  constructor
  · intro h past time hl a ha d hd hdue
    by_contra hnot
    rw [not_or] at hnot
    obtain ⟨c, hc, hlands⟩ := lastLanding_time hl
    have hbefore := (before_iff ..).1 (h past time hl a ha d hd hdue hnot.1 hnot.2)
    exact hdue ((before_iff ..).2 (((before_iff ..).1 (hlater c hc time hlands)).trans hbefore))
  · intro h past time hl a ha d hd hdue hreset hfired
    rcases h past time hl a ha d hd hdue with hr | hf
    · exact absurd hr hreset
    · exact absurd hf hfired

/-! ## The omit timer -/

/-- The timers of a client with an omit period, a second after the start of the test: the omit timer, the stats
timer and the test timer. -/
def omitTimers : TimerState TimerProc where
  mem
    | 1 => some ⟨⟨.omitTimer, 1000000, false, ⟨1, 100⟩⟩, none, some 2⟩
    | 2 => some ⟨⟨.statsTimer, 1000000, true, ⟨1, 200⟩⟩, some 1, some 3⟩
    | 3 => some ⟨⟨.testTimer, 2000000, false, ⟨2, 50⟩⟩, some 2, none⟩
    | _ => none
  live := 3
  timers := some 1
  freeTimers := none

theorem omitTimers_seg : Seg omitTimers.mem none omitTimers.timers [1, 2, 3] (some 3) none :=
  ⟨rfl, _, rfl, rfl, rfl, _, rfl, rfl, rfl, _, rfl, rfl, rfl, rfl⟩

theorem omitTimers_rep : Rep omitTimers [1, 2, 3] [] [] where
  seg := ⟨some 3, omitTimers_seg⟩
  chain := rfl
  held := nofun
  nodup := by decide
  live := rfl

theorem omitTimers_sorted : Sorted omitTimers [1, 2, 3] := by
  refine List.pairwise_cons.2 ⟨?_, List.pairwise_pair.2 (by decide)⟩
  intro b hb
  rcases List.mem_cons.1 hb with rfl | hb
  · decide
  · rw [List.mem_singleton.1 hb]
    decide

/-- `tmr_run` comes late, when all three are due. The omit timer resets the stats timer, and the run ends there. -/
theorem omitTimers_run (modest : Prop) :
    ∃ s, Prog.Reach (resetContract TimerProc modest ⟨2, 60⟩)
      (tmrRun (timerView TimerProc) resettingProc 4 ⟨2, 60⟩, omitTimers, [])
      (.ret (), s, [⟨1, some 2, [(⟨2, 60⟩, 2)]⟩]) := by
  have hr : Prog.Reach (resetContract TimerProc modest ⟨2, 60⟩)
      (tmrRun (timerView TimerProc) resettingProc 4 ⟨2, 60⟩, omitTimers, []) (_, _, _) :=
    .head .read <|
    .head .read <|
    .head (.call (r := ResetReq.call 1 TimerProc.omitTimer) [((⟨2, 60⟩ : Timeval), (2 : Addr))] (by
      intro r hr
      rw [List.mem_singleton.1 hr]
      refine ⟨⟨_, _, omitTimers_seg, by simp⟩, fun _ d hd => ?_⟩
      cases hd
      decide)) <|
    .head .read <|
    .head .write <|
    .head .read <|
    .head .read <|
    .head .write <|
    .head .read .refl
  exact ⟨_, hr⟩

/-- The test timer was due, has not been reset, and has not fired. -/
theorem omitTimers_missed :
    ¬ ∀ a ∈ [1, 2, 3], ∀ d, dataAt omitTimers a = some d → ¬ Timeval.before ⟨2, 60⟩ d.time →
      ¬ ResetIn [⟨1, some 2, [(⟨2, 60⟩, 2)]⟩] a → FiredIn [⟨1, some 2, [(⟨2, 60⟩, 2)]⟩] a := by
  intro h
  obtain ⟨c, hc, htimer⟩ := h 3 (by simp) _ rfl (by decide) (by
    rintro ⟨c, hc, r, hr, heq⟩
    rw [List.mem_singleton.1 hc] at hr
    rw [List.mem_singleton.1 hr] at heq
    cases heq)
  rw [List.mem_singleton.1 hc] at htimer
  cases htimer

/-- In this run the pointer was carried past a due timer. -/
theorem due_timers_fire_iff_omit :
    ∃ s calls, Prog.Reach (resetContract TimerProc False ⟨2, 60⟩)
        (tmrRun (timerView TimerProc) resettingProc 4 ⟨2, 60⟩, omitTimers, []) (.ret (), s, calls) ∧
      ¬ LeavesInFront ⟨2, 60⟩ [1, 2, 3] omitTimers calls := by
  obtain ⟨s, hr⟩ := omitTimers_run False
  have hiff := (due_timers_fire_iff ⟨2, 60⟩ omitTimers_rep omitTimers_sorted 4).1 s _ hr
  exact ⟨s, _, hr, fun h => omitTimers_missed (hiff.2 h)⟩

theorem due_timers_fire_refuted :
    ¬ ∀ (now : Timeval) (active free : List Addr) (s₀ : TimerState TimerProc) (fuel : Nat) (s : TimerState TimerProc)
      (calls : List ProcCall), Rep s₀ active free [] → Sorted s₀ active →
      Prog.Reach (resetContract TimerProc False now) (tmrRun (timerView TimerProc) resettingProc fuel now, s₀, [])
        (.ret (), s, calls) →
      ∀ a ∈ active, ∀ d, dataAt s₀ a = some d → ¬ now.before d.time → ¬ ResetIn calls a → FiredIn calls a := by
  intro h
  obtain ⟨s, hr⟩ := omitTimers_run False
  exact omitTimers_missed (h _ _ _ _ _ s _ omitTimers_rep omitTimers_sorted hr)

end Iperf
