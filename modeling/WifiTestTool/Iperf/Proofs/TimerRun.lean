import Mathlib.Algebra.GroupWithZero.Nat
import Mathlib.Data.List.Induction
import WifiTestTool.Iperf.Proofs.TimerProofs
import WifiTestTool.Lib.Frame

/-!
# What `tmr_run` fires

The timer procedures leave the timer package alone. Then a call of `tmr_run` fires every timer that is due, none
before its time, and in the order of the scheduled times; among equal times the timer goes first that was put on
the active list first. A periodic timer that is still due when it has fired may fire again in the same call, so the
bound on the number of firings counts all the periods that are overdue.

The proof follows the list `pre ++ todo`: the loop is at the first timer of `todo`, and the timers of `pre` have
fired and are not looked at again. A timer that has fired moves behind `pre`, to the place in `todo` where it
belongs; if that is in front of the rest of `todo`, the saved pointer `next` has already passed it.
-/

namespace Iperf

open Dll StableInsert Reactive

variable {C : Type}

/-! ## Firings -/

/-- A call of a timer procedure: the timer and its contents at that time. -/
structure Firing (C : Type) where
  timer : Addr
  data : TimerData C

/-- How often the timer `a` has fired. -/
def firings (log : List (Firing C)) (a : Addr) : Nat := log.countP (·.timer = a)

/-- The one-shot timers that have fired, the last one first. -/
def firedOnce (log : List (Firing C)) : List Addr :=
  ((log.filter fun f => !f.data.periodic).map (·.timer)).reverse

/-- The contents of a timer after it has fired. -/
def TimerData.next (d : TimerData C) : TimerData C :=
  if d.periodic then { d with time := addUsecs d.time d.usecs } else d

/-- A time in microseconds -/
def Timeval.micros (t : Timeval) : Int := t.tvSec * 1000000 + t.tvUsec

/-- When the timer `a` was put on its place of the list, after the firings `log`: the timers were on the list
`active` in that order, and every firing puts its timer on a new place. -/
def insertedAt (active : List Addr) (log : List (Firing C)) (a : Addr) : Nat :=
  log.zipIdx.foldl (fun n p => if p.1.timer = a then active.length + p.2 else n) (active.idxOf a)

/-- Scheduled times, and the order of insertion among equal ones. -/
abbrev Rank := (ℤ ×ₗ ℤ) ×ₗ ℕ

/-- The rank of the firing `f` after the firings `past`. -/
def Firing.rank (active : List Addr) (past : List (Firing C)) (f : Firing C) : Rank :=
  toLex (f.data.time.key, insertedAt active past f.timer)

/-- The ranks of the firings `log` that come after the firings `past`. -/
def ranks (active : List Addr) (past : List (Firing C)) : List (Firing C) → List Rank
  | [] => []
  | f :: fs => f.rank active past :: ranks active (past ++ [f]) fs

/-- The firings `log` of a call of `tmr_run` that leads from `s` to `s'`; on entry `active` and `free` are the two
lists. -/
structure FiresTimers (now : Timeval) (active free : List Addr) (s s' : TimerState C) (log : List (Firing C)) :
    Prop where
  /-- Every timer that is due fires. -/
  due : ∀ a ∈ active, ∀ d, dataAt s a = some d → ¬ now.before d.time → a ∈ log.map (·.timer)
  /-- No timer fires before its time. -/
  notEarly : ∀ f ∈ log, ¬ now.before f.data.time
  /-- The timers fire in the order of the scheduled times, and of insertion among equal ones. -/
  ordered : (ranks active [] log).Pairwise (· < ·)
  /-- A timer fires with the contents it had on entry, but for the periods that its firings have added. -/
  fired : ∀ past f rest, log = past ++ f :: rest → f.timer ∈ active ∧
    ∃ d, dataAt s f.timer = some d ∧ f.data = TimerData.next^[firings past f.timer] d
  left : ∀ a d, dataAt s a = some d → dataAt s' a = some (TimerData.next^[firings log a] d)
  /-- A firing adds exactly one period to the time of a periodic timer, and changes nothing else. -/
  period : ∀ f ∈ log, f.data.periodic = true →
    f.data.next = { f.data with time := f.data.next.time } ∧
      f.data.next.time.micros = f.data.time.micros + f.data.usecs
  /-- The one-shot timers that have fired are on the free list, the others on the active list, in order. -/
  lists : ∃ active', Rep s' active' (firedOnce log ++ free) [] ∧ Sorted s' active' ∧
    (active' ++ firedOnce log).Perm active

/-! ## Periods -/

theorem addUsecs_micros (t : Timeval) (usecs : Int) : (addUsecs t usecs).micros = t.micros + usecs := by
  have hsplit := Int.tmod_add_mul_tdiv usecs 1000000
  unfold addUsecs Timeval.micros
  dsimp only
  split
  · have hcarry := Int.tmod_add_mul_tdiv (t.tvUsec + usecs.tmod 1000000) 1000000
    dsimp only
    omega
  · dsimp only
    omega

/-- The microseconds of a new time are less than a second. -/
theorem addUsecs_tvUsec (t : Timeval) (usecs : Int) : (addUsecs t usecs).tvUsec < 1000000 := by
  unfold addUsecs
  dsimp only
  split
  · exact Int.tmod_lt_of_pos _ (by omega)
  · dsimp only
    omega

theorem key_lt_addUsecs (t : Timeval) {usecs : Int} (h : 0 < usecs) : t.key < (addUsecs t usecs).key := by
  rw [← before_iff]
  have hsplit := Int.tmod_add_mul_tdiv usecs 1000000
  have hq : 0 ≤ usecs.tdiv 1000000 := Int.tdiv_nonneg h.le (by omega)
  have hr : 0 ≤ usecs.tmod 1000000 := Int.tmod_nonneg _ h.le
  unfold addUsecs Timeval.before
  dsimp only
  split
  · rename_i hcarry
    have hsec : 0 < (t.tvUsec + usecs.tmod 1000000).tdiv 1000000 := by
      rw [Int.tdiv_eq_ediv_of_nonneg (by omega)]
      omega
    dsimp only
    omega
  · dsimp only
    omega

theorem TimerData.next_periodic (d : TimerData C) : d.next.periodic = d.periodic := by
  unfold TimerData.next
  split <;> rfl

theorem TimerData.next_usecs (d : TimerData C) : d.next.usecs = d.usecs := by
  unfold TimerData.next
  split <;> rfl

theorem TimerData.next_of_periodic {d : TimerData C} (h : d.periodic = true) :
    d.next = { d with time := addUsecs d.time d.usecs } := if_pos h

theorem TimerData.iterate_next (d : TimerData C) (n : Nat) :
    (TimerData.next^[n] d).periodic = d.periodic ∧ (TimerData.next^[n] d).usecs = d.usecs := by
  induction n with
  | zero => exact ⟨rfl, rfl⟩
  | succ n ih => rw [Function.iterate_succ_apply', TimerData.next_periodic, TimerData.next_usecs]; exact ih

/-- A bound on how often a timer fires: how many microseconds of its periods are left. -/
def overdue (now : Timeval) (d : TimerData C) : Nat :=
  if now.before d.time then 0
  else if d.periodic then 1 + ((now.tvSec + 1) * 1000000 - d.next.time.micros).toNat
  else 1

theorem overdue_pos {now : Timeval} {d : TimerData C} (h : ¬ now.before d.time) : 0 < overdue now d := by
  unfold overdue
  rw [if_neg h]
  split <;> omega

/-- A firing takes at least one microsecond off the bound. -/
theorem overdue_next {now : Timeval} {d : TimerData C} (hdue : ¬ now.before d.time) (hp : d.periodic = true)
    (hu : 0 < d.usecs) : overdue now d.next < overdue now d := by
  by_cases hnext : now.before d.next.time
  · rw [overdue, if_pos hnext]
    exact overdue_pos hdue
  · have hmicros : d.next.next.time.micros = d.next.time.micros + d.usecs := by
      rw [TimerData.next_of_periodic (d.next_periodic.trans hp), TimerData.next_usecs]
      exact addUsecs_micros ..
    have husec : d.next.time.tvUsec < 1000000 := by
      rw [TimerData.next_of_periodic hp]
      exact addUsecs_tvUsec ..
    have hbound : d.next.time.micros < (now.tvSec + 1) * 1000000 := by
      unfold Timeval.before at hnext
      unfold Timeval.micros
      omega
    unfold overdue
    rw [if_neg hnext, if_neg hdue, if_pos hp, if_pos (d.next_periodic.trans hp), hmicros]
    omega

/-! ## Logs -/

theorem firings_snoc (log : List (Firing C)) (f : Firing C) (a : Addr) :
    firings (log ++ [f]) a = firings log a + if f.timer = a then 1 else 0 := by
  unfold firings
  rw [List.countP_append, List.countP_singleton]
  simp

theorem firings_eq_zero {log : List (Firing C)} {a : Addr} (h : a ∉ log.map (·.timer)) : firings log a = 0 := by
  refine List.countP_eq_zero.2 fun f hf => ?_
  simp only [decide_eq_true_eq]
  rintro rfl
  exact h (List.mem_map.2 ⟨f, hf, rfl⟩)

theorem firedOnce_snoc (log : List (Firing C)) (f : Firing C) :
    firedOnce (log ++ [f]) = if f.data.periodic then firedOnce log else f.timer :: firedOnce log := by
  unfold firedOnce
  cases h : f.data.periodic <;> simp [h]

theorem insertedAt_snoc (active : List Addr) (log : List (Firing C)) (f : Firing C) (a : Addr) :
    insertedAt active (log ++ [f]) a =
      if f.timer = a then active.length + log.length else insertedAt active log a := by
  unfold insertedAt
  rw [List.zipIdx_append, List.foldl_append]
  simp

/-- No timer has been inserted after the last firing. -/
theorem insertedAt_lt {active : List Addr} {a : Addr} (ha : a ∈ active) (log : List (Firing C)) :
    insertedAt active log a < active.length + log.length := by
  induction log using List.reverseRecOn with
  | nil => exact List.idxOf_lt_length_of_mem ha
  | append_singleton log f ih =>
    rw [insertedAt_snoc, List.length_append, List.length_singleton]
    split <;> omega

theorem ranks_snoc (active : List Addr) (past log : List (Firing C)) (f : Firing C) :
    ranks active past (log ++ [f]) = ranks active past log ++ [f.rank active (past ++ log)] := by
  induction log generalizing past with
  | nil => rw [List.append_nil]; rfl
  | cons f' log ih =>
    rw [List.cons_append, ranks, ranks, ih, List.cons_append, List.append_assoc, List.singleton_append]

/-- A split of a list with one element more. -/
theorem split_snoc {α : Type} {l past rest : List α} {x y : α} (h : l ++ [y] = past ++ x :: rest) :
    (past = l ∧ x = y) ∨ ∃ rest', l = past ++ x :: rest' := by
  rcases List.eq_nil_or_concat' rest with rfl | ⟨rest', z, rfl⟩
  · obtain ⟨rfl, hy⟩ := List.append_inj' h rfl
    exact .inl ⟨rfl, (List.singleton_inj.1 hy).symm⟩
  · rw [← List.cons_append, ← List.append_assoc] at h
    exact .inr ⟨rest', (List.append_inj' h rfl).1⟩

/-! ## The loop -/

/-- The list is sorted: if a timer is not due, those behind it are not due. -/
theorem Sorted.not_due {now : Timeval} {s : TimerState C} {pre rest : List Addr} {t : Addr} {d : TimerData C}
    (h : Sorted s (pre ++ t :: rest)) (hd : dataAt s t = some d) (hdue : now.before d.time) :
    ∀ a ∈ t :: rest, ∀ d', dataAt s a = some d' → now.before d'.time := by
  intro a ha d' hd'
  have hkey : keyAt s t ≤ keyAt s a := by
    rcases List.mem_cons.1 ha with rfl | ha
    · exact le_rfl
    · exact (List.pairwise_cons.1 (List.pairwise_append.1 h).2.1).1 a ha
  rw [keyAt, keyAt, hd, hd'] at hkey
  exact (before_iff ..).2 (((before_iff ..).1 hdue).trans_le hkey)

/-- The rank of the timer `a` on the list, after the firings `log`. -/
def rankAt (active : List Addr) (log : List (Firing C)) (s : TimerState C) (a : Addr) : Rank :=
  toLex (keyAt s a, insertedAt active log a)

/-- The loop of `tmr_run` has fired the timers `log`. It is at the first timer of `todo`; the timers `pre` in front
of it are back on the list. -/
structure RunInv (now : Timeval) (active free : List Addr) (s₀ : TimerState C) (log : List (Firing C))
    (s : TimerState C) (pre todo : List Addr) : Prop where
  rep : Rep s (pre ++ todo) (firedOnce log ++ free) []
  perm : (pre ++ todo ++ firedOnce log).Perm active
  left : ∀ a d, dataAt s₀ a = some d → dataAt s a = some (TimerData.next^[firings log a] d)
  /-- The list is sorted by time, with ties in the order of insertion. -/
  ranked : (pre ++ todo).Pairwise fun a b => rankAt active log s a < rankAt active log s b
  /-- What has fired was scheduled before what is still to do. -/
  behind : ∀ r ∈ ranks active [] log, ∀ a ∈ todo, r < rankAt active log s a
  all : ∀ a ∈ active, a ∈ todo ∨ a ∈ log.map (·.timer)
  notEarly : ∀ f ∈ log, ¬ now.before f.data.time
  ordered : (ranks active [] log).Pairwise (· < ·)
  fired : ∀ past f rest, log = past ++ f :: rest → f.timer ∈ active ∧
    ∃ d, dataAt s₀ f.timer = some d ∧ f.data = TimerData.next^[firings past f.timer] d

section RunInv

variable {now : Timeval} {active free : List Addr} {s₀ s : TimerState C} {log : List (Firing C)}
  {pre todo : List Addr}

theorem RunInv.sorted (h : RunInv now active free s₀ log s pre todo) : Sorted s (pre ++ todo) :=
  h.ranked.imp fun {a b} hab => by
    rcases Prod.Lex.toLex_lt_toLex.1 hab with hab | hab
    · exact hab.le
    · exact hab.1.le

theorem RunInv.mem (h : RunInv now active free s₀ log s pre todo) {a : Addr} (ha : a ∈ pre ++ todo) :
    a ∈ active := h.perm.mem_iff.1 (List.mem_append_left _ ha)

/-- What a firing adds to the log. -/
theorem RunInv.log_snoc {t : Addr} {rest : List Addr} {d : TimerData C}
    (h : RunInv now active free s₀ log s pre (t :: rest)) (hd : dataAt s t = some d)
    (h₀ : ∀ a ∈ active, ∃ d, dataAt s₀ a = some d) (hdue : ¬ now.before d.time) :
    (∀ f ∈ log ++ [⟨t, d⟩], ¬ now.before f.data.time) ∧
      (ranks active [] (log ++ [⟨t, d⟩])).Pairwise (· < ·) ∧
      ∀ past f rest, log ++ [⟨t, d⟩] = past ++ f :: rest → f.timer ∈ active ∧
        ∃ d, dataAt s₀ f.timer = some d ∧ f.data = TimerData.next^[firings past f.timer] d := by
  have ht : t ∈ active := h.mem (by simp)
  refine ⟨?_, ?_, ?_⟩
  · intro f hf
    rcases List.mem_append.1 hf with hf | hf
    · exact h.notEarly f hf
    · rw [List.mem_singleton.1 hf]
      exact hdue
  · have hrank : (⟨t, d⟩ : Firing C).rank active log = rankAt active log s t := by
      rw [rankAt, keyAt, hd]
      rfl
    rw [ranks_snoc, List.nil_append, hrank]
    refine List.pairwise_append.2 ⟨h.ordered, List.pairwise_singleton _ _, fun r hr r' hr' => ?_⟩
    rw [List.mem_singleton.1 hr']
    exact h.behind r hr t (List.mem_cons_self ..)
  · intro past f rest' heq
    rcases split_snoc heq with ⟨rfl, rfl⟩ | ⟨rest'', hlog⟩
    · obtain ⟨d₀, hd₀⟩ := h₀ t ht
      refine ⟨ht, d₀, hd₀, ?_⟩
      have hleft := h.left t d₀ hd₀
      rw [hd] at hleft
      exact Option.some.inj hleft
    · exact h.fired past f rest'' hlog

theorem rankAt_snoc {f : Firing C} {s' : TimerState C} {a : Addr} (hd : dataAt s' a = dataAt s a)
    (ha : a ≠ f.timer) : rankAt active (log ++ [f]) s' a = rankAt active log s a := by
  rw [rankAt, rankAt, insertedAt_snoc, if_neg (Ne.symm ha), keyAt, keyAt, hd]

/-- The invariant after the timer `t` has fired and the lists are `pre'` and `todo'`. -/
theorem RunInv.fire {t : Addr} {rest pre' todo' : List Addr} {d : TimerData C} {s' : TimerState C}
    (h : RunInv now active free s₀ log s pre (t :: rest)) (hd : dataAt s t = some d)
    (h₀ : ∀ a ∈ active, ∃ d, dataAt s₀ a = some d) (hdue : ¬ now.before d.time)
    (hrep : Rep s' (pre' ++ todo') (firedOnce (log ++ [⟨t, d⟩]) ++ free) [])
    (hperm : (pre' ++ todo' ++ firedOnce (log ++ [⟨t, d⟩])).Perm active)
    (hdt : dataAt s' t = some d.next) (hdo : ∀ a, a ≠ t → dataAt s' a = dataAt s a)
    (hranked : (pre' ++ todo').Pairwise fun a b =>
      rankAt active (log ++ [⟨t, d⟩]) s' a < rankAt active (log ++ [⟨t, d⟩]) s' b)
    (hbehind : ∀ a ∈ todo', rankAt active log s t < rankAt active (log ++ [⟨t, d⟩]) s' a)
    (hall : ∀ a ∈ rest, a ∈ todo') :
    RunInv now active free s₀ (log ++ [⟨t, d⟩]) s' pre' todo' := by
  obtain ⟨hearly, hordered, hfired⟩ := h.log_snoc hd h₀ hdue
  refine ⟨hrep, hperm, ?_, hranked, ?_, ?_, hearly, hordered, hfired⟩
  · intro a d₀ hd₀
    have hleft := h.left a d₀ hd₀
    rw [firings_snoc]
    by_cases ha : a = t
    · subst ha
      rw [hd] at hleft
      rw [if_pos rfl, Function.iterate_succ_apply', ← Option.some.inj hleft, hdt]
    · rw [if_neg (Ne.symm ha), Nat.add_zero, hdo a ha, hleft]
  · intro r hr a ha
    have hrank : (⟨t, d⟩ : Firing C).rank active log = rankAt active log s t := by
      rw [rankAt, keyAt, hd]
      rfl
    rw [ranks_snoc, List.nil_append, List.mem_append, List.mem_singleton, hrank] at hr
    rcases hr with hr | rfl
    · exact (h.behind r hr t (List.mem_cons_self ..)).trans (hbehind a ha)
    · exact hbehind a ha
  · intro a ha
    rw [List.map_append, List.mem_append]
    rcases h.all a ha with ha | ha
    · rcases List.mem_cons.1 ha with rfl | ha
      · exact .inr (.inr (List.mem_singleton.2 rfl))
      · exact .inl (hall a ha)
    · exact .inr (.inl ha)

/-- How often the timers `l` fire, at most. -/
def workLeft (now : Timeval) (s : TimerState C) (l : List Addr) : Nat :=
  (l.map fun a => ((dataAt s a).map (overdue now)).getD 0).sum

theorem workLeft_congr {s' : TimerState C} {l : List Addr} (h : ∀ a ∈ l, dataAt s' a = dataAt s a) :
    workLeft now s' l = workLeft now s l := by
  unfold workLeft
  rw [List.map_congr_left fun a ha => by rw [h a ha]]

theorem workLeft_perm {l l' : List Addr} (h : l.Perm l') : workLeft now s l = workLeft now s l' :=
  (h.map _).sum_nat

theorem workLeft_cons {t : Addr} {d : TimerData C} (hd : dataAt s t = some d) (l : List Addr) :
    workLeft now s (t :: l) = overdue now d + workLeft now s l := by
  unfold workLeft
  rw [List.map_cons, List.sum_cons, hd]
  rfl

/-- A one-shot timer fires: it goes to the free list. -/
theorem RunInv.fire_once {t : Addr} {rest : List Addr} {d : TimerData C}
    (h : RunInv now active free s₀ log s pre (t :: rest)) (hd : dataAt s t = some d)
    (h₀ : ∀ a ∈ active, ∃ d, dataAt s₀ a = some d) (hdue : ¬ now.before d.time) (hp : d.periodic = false) :
    ∃ s', tmrCancel t s = some s' ∧ RunInv now active free s₀ (log ++ [⟨t, d⟩]) s' pre rest ∧
      workLeft now s' rest < workLeft now s (t :: rest) := by
  obtain ⟨s', hs', hrep, hdata⟩ := tmrCancel_spec h.rep
  have honce : firedOnce (log ++ [⟨t, d⟩]) = t :: firedOnce log := by
    rw [firedOnce_snoc, if_neg (by simp [hp])]
  have hnext : d.next = d := if_neg (by simp [hp])
  have hnd := h.rep.nodup
  simp only [List.append_nil, List.nodup_append, List.nodup_cons, List.mem_cons] at hnd
  have hother : ∀ a ∈ pre ++ rest, a ≠ t := by grind
  have hsame : ∀ a ∈ pre ++ rest, rankAt active (log ++ [⟨t, d⟩]) s' a = rankAt active log s a := fun a ha =>
    rankAt_snoc (hdata a) (hother a ha)
  obtain ⟨hpre, hcons, hacross⟩ := List.pairwise_append.1 h.ranked
  refine ⟨s', hs', h.fire hd h₀ hdue ?_ ?_ ?_ (fun a _ => hdata a) ?_ ?_ fun a ha => ha, ?_⟩
  · rw [honce]
    exact hrep
  · rw [honce]
    refine List.Perm.trans ?_ h.perm
    rw [List.perm_iff_count]
    intro x
    simp only [List.count_append, List.count_cons]
    omega
  · rw [hdata, hd, hnext]
  · have hrest := h.ranked.sublist ((List.sublist_cons_self t rest).append_left pre)
    refine List.Pairwise.imp_of_mem (fun {a b} ha hb hab => ?_) hrest
    rw [hsame a ha, hsame b hb]
    exact hab
  · intro a ha
    rw [hsame a (List.mem_append_right _ ha)]
    exact (List.pairwise_cons.1 hcons).1 a ha
  · rw [workLeft_congr fun a _ => hdata a, workLeft_cons hd]
    have hpos := overdue_pos hdue
    omega

/-- A periodic timer fires: it moves to its new place, which is in front of the rest of the list or in it. -/
theorem RunInv.fire_periodic {t : Addr} {rest : List Addr} {d : TimerData C}
    (h : RunInv now active free s₀ log s pre (t :: rest)) (hd : dataAt s t = some d)
    (h₀ : ∀ a ∈ active, ∃ d, dataAt s₀ a = some d) (hdue : ¬ now.before d.time) (hp : d.periodic = true)
    (hu : 0 < d.usecs) :
    ∃ s' pre' todo', (s.setData t fun d => { d with time := addUsecs d.time d.usecs }).bind (listResort t) = some s' ∧
      rest.head? = todo'.head? ∧ RunInv now active free s₀ (log ++ [⟨t, d⟩]) s' pre' todo' ∧
      workLeft now s' todo' < workLeft now s (t :: rest) := by
  obtain ⟨s', hs', hrep, -, hdt, hdo⟩ := retime_spec h.rep h.sorted
    fun d => { d with time := addUsecs d.time d.usecs }
  have hdt' : dataAt s' t = some d.next := by
    rw [hdt, hd, TimerData.next_of_periodic hp]
    rfl
  have honce : firedOnce (log ++ [⟨t, d⟩]) = firedOnce log := by rw [firedOnce_snoc, if_pos hp]
  have hnd := h.rep.nodup
  simp only [List.append_nil, List.nodup_append, List.nodup_cons, List.mem_cons] at hnd
  have hother : ∀ a ∈ pre ++ rest, a ≠ t := by grind
  have hsame : ∀ a ∈ pre ++ rest, rankAt active (log ++ [⟨t, d⟩]) s' a = rankAt active log s a := fun a ha =>
    rankAt_snoc (hdo a (hother a ha)) (hother a ha)
  have hkey : ∀ a ∈ pre ++ rest, keyAt s' a = keyAt s a := fun a ha => by
    rw [keyAt, keyAt, hdo a (hother a ha)]
  -- The new time is after the old one, which is not before those of `pre`.
  have hlater : keyAt s t < keyAt s' t := by
    rw [keyAt, keyAt, hd, hdt', TimerData.next_of_periodic hp]
    exact key_lt_addUsecs _ hu
  obtain ⟨hpre, hcons, hacross⟩ := List.pairwise_append.1 h.ranked
  have hsorted := List.pairwise_append.1 h.sorted
  have hbefore : ∀ a ∈ pre, keyAt s' a ≤ keyAt s' t := fun a ha => by
    rw [hkey a (List.mem_append_left _ ha)]
    exact (hsorted.2.2 a ha t (List.mem_cons_self ..)).trans hlater.le
  have hbehind : ∀ a ∈ t :: rest, rankAt active log s t < rankAt active (log ++ [⟨t, d⟩]) s' a := by
    intro a ha
    rcases List.mem_cons.1 ha with rfl | ha
    · exact Prod.Lex.toLex_lt_toLex.2 (.inl hlater)
    · rw [hsame a (List.mem_append_right _ ha)]
      exact (List.pairwise_cons.1 hcons).1 a ha
  have hranked : (insertBy (keyAt s') t (pre ++ rest)).Pairwise fun a b =>
      rankAt active (log ++ [⟨t, d⟩]) s' a < rankAt active (log ++ [⟨t, d⟩]) s' b := by
    have hrest : (pre ++ rest).Pairwise fun a b =>
        rankAt active (log ++ [⟨t, d⟩]) s' a < rankAt active (log ++ [⟨t, d⟩]) s' b := by
      refine List.Pairwise.imp_of_mem (fun {a b} ha hb hab => ?_)
        (h.ranked.sublist ((List.sublist_cons_self t rest).append_left pre))
      rw [hsame a ha, hsame b hb]
      exact hab
    refine pairwise_insertBy_lex hrest fun a ha => ?_
    rw [insertedAt_snoc, insertedAt_snoc, if_pos rfl, if_neg (Ne.symm (hother a ha))]
    exact insertedAt_lt (h.mem (((List.sublist_cons_self t rest).append_left pre).mem ha)) log
  rw [insertBy_append hbefore] at hranked hrep
  have hpermutes : (pre ++ insertBy (keyAt s') t rest).Perm (pre ++ t :: rest) := perm_insertBy.append_left pre
  have hworks : workLeft now s' (t :: rest) < workLeft now s (t :: rest) := by
    rw [workLeft_cons hdt', workLeft_cons hd,
      workLeft_congr fun a ha => hdo a (hother a (List.mem_append_right _ ha))]
    have hless := overdue_next hdue hp hu
    omega
  have hdone : ∀ pre' todo', pre' ++ todo' = pre ++ insertBy (keyAt s') t rest → (∀ a ∈ todo', a ∈ t :: rest) →
      (∀ a ∈ rest, a ∈ todo') → RunInv now active free s₀ (log ++ [⟨t, d⟩]) s' pre' todo' := by
    intro pre' todo' heq hsub hall
    refine h.fire hd h₀ hdue ?_ ?_ hdt' hdo ?_ (fun a ha => hbehind a (hsub a ha)) hall
    · rw [heq, honce]
      exact hrep
    · rw [heq, honce]
      exact (hpermutes.append_right _).trans h.perm
    · rw [heq]
      exact hranked
  cases rest with
  | nil =>
    refine ⟨s', pre ++ [t], [], hs', rfl, hdone _ _ (by simp) (by simp) (by simp), ?_⟩
    have hpos := overdue_pos hdue
    rw [workLeft_cons hd]
    exact Nat.add_pos_left hpos _
  | cons b rest =>
    by_cases hb : keyAt s' t < keyAt s' b
    · -- The timer is in front of the saved pointer.
      refine ⟨s', pre ++ [t], b :: rest, hs', rfl, hdone _ _ ?_ ?_ fun a ha => ha, ?_⟩
      · rw [insertBy_cons_of_lt hb, List.append_assoc, List.singleton_append]
      · exact fun a ha => List.mem_cons_of_mem _ ha
      · refine Nat.lt_of_le_of_lt ?_ hworks
        rw [workLeft_cons hdt']
        exact Nat.le_add_left ..
    · have hins := insertBy_cons_of_le (f := keyAt s') (a := t) (l := rest) (not_lt.1 hb)
      refine ⟨s', pre, insertBy (keyAt s') t (b :: rest), hs', by rw [hins]; rfl, hdone _ _ rfl ?_ ?_, ?_⟩
      · exact fun a ha => perm_insertBy.mem_iff.1 ha
      · exact fun a ha => perm_insertBy.mem_iff.2 (List.mem_cons_of_mem _ ha)
      · rw [workLeft_perm perm_insertBy]
        exact hworks

/-- The loop has come to a timer that is not due, or to the end of the list. -/
theorem RunInv.done (h : RunInv now active free s₀ log s pre todo)
    (hdone : ∀ a ∈ todo, ∀ d, dataAt s a = some d → now.before d.time) :
    FiresTimers now active free s₀ s log where
  due a ha d hd hdue := by
    by_contra hnot
    have htodo := (h.all a ha).resolve_right hnot
    have hleft := h.left a d hd
    rw [firings_eq_zero hnot] at hleft
    exact hdue (hdone a htodo d hleft)
  notEarly := h.notEarly
  ordered := h.ordered
  fired := h.fired
  left := h.left
  period f hf hp := by
    rw [TimerData.next_of_periodic hp]
    exact ⟨rfl, addUsecs_micros ..⟩
  lists := ⟨pre ++ todo, h.rep, h.sorted, h.perm⟩

end RunInv

/-- Before the first timer has fired. -/
theorem RunInv.start {now : Timeval} {active free : List Addr} {s : TimerState C} (hrep : Rep s active free [])
    (hsorted : Sorted s active) : RunInv now active free s [] s [] active where
  rep := hrep
  perm := by rw [List.nil_append]; exact (List.append_nil active).symm ▸ List.Perm.refl _
  left _ _ hd := hd
  ranked := by
    have hnd : active.Nodup := (List.nodup_append.1 (List.nodup_append.1 hrep.nodup).1).1
    refine List.pairwise_iff_getElem.2 fun i j hi hj hij => Prod.Lex.toLex_lt_toLex.2 ?_
    rcases (List.pairwise_iff_getElem.1 hsorted i j hi hj hij).lt_or_eq with hlt | heq
    · exact .inl hlt
    · refine .inr ⟨heq, ?_⟩
      show active.idxOf active[i] < active.idxOf active[j]
      rw [hnd.idxOf_getElem, hnd.idxOf_getElem]
      exact hij
  behind := nofun
  all a ha := .inl ha
  notEarly := nofun
  ordered := List.Pairwise.nil
  fired past f rest h := by simp at h

/-! ## `tmr_run` -/

section Run

variable {σ ρ η G : Type} {Ans : ρ → Type} {V : TimerView σ η C} {K : Contract σ Ans η G}
  {timerProc : Addr → C → Timeval → Prog σ Ans η Unit} {now : Timeval} {J : List (Firing C) → σ → G → Prop}

/-- Timer procedures that leave the timer package alone. `J log` is what holds of the memory and of the notes of the
observer after the firings `log`; it is not about the timer package. -/
structure LeaveAlone (V : TimerView σ η C) (K : Contract σ Ans η G)
    (timerProc : Addr → C → Timeval → Prog σ Ans η Unit) (now : Timeval) (J : List (Firing C) → σ → G → Prop) :
    Prop where
  get_set : ∀ ts s, V.get (V.set ts s) = ts
  set : ∀ log ts s g, J log s g →
    K.inv (V.set ts s) (K.onWrite (V.set ts s) g) ∧ J log (V.set ts s) (K.onWrite (V.set ts s) g)
  proc : ∀ log f s g, J log s g → dataAt (V.get s) f.timer = some f.data →
    (timerProc f.timer f.data.proc now).Safe K (fun _ s' g' => V.get s' = V.get s ∧ J (log ++ [f]) s' g') s g

theorem safe_load {s : σ} {g : G} {t : Addr} {c : Timer C} {Q : Timer C → σ → G → Prop}
    (hc : (V.get s).mem t = some c) (hQ : Q c s g) : (V.load t : Prog σ Ans η (Timer C)).Safe K Q s g := by
  rw [TimerView.load, Prog.safe_bind, Prog.safe_get, hc]
  exact hQ

theorem safe_viewRun {s : σ} {g : G} {f : TimerState C → Option (TimerState C)} {ts : TimerState C}
    {Q : Unit → σ → G → Prop} (hf : f (V.get s) = some ts)
    (hQ : K.inv (V.set ts s) (K.onWrite (V.set ts s) g) ∧ Q () (V.set ts s) (K.onWrite (V.set ts s) g)) :
    (V.run f : Prog σ Ans η Unit).Safe K Q s g := by
  rw [TimerView.run, Prog.safe_bind, Prog.safe_get, hf]
  exact hQ

/-- The loop of `tmr_run`, from a timer of the list on. Every pass takes from what is left to do. -/
theorem tmrRunLoop_fires (hproc : LeaveAlone V K timerProc now J) {active free : List Addr} {s₀ : TimerState C}
    (h₀ : ∀ a ∈ active, ∃ d, dataAt s₀ a = some d)
    (hu : ∀ a ∈ active, ∀ d, dataAt s₀ a = some d → d.periodic = true → 0 < d.usecs) (fuel : Nat)
    {log : List (Firing C)} {s : σ} {g : G} {pre todo : List Addr}
    (h : RunInv now active free s₀ log (V.get s) pre todo) (hJ : J log s g)
    (hfuel : workLeft now (V.get s) todo < fuel) :
    (tmrRunLoop V timerProc now fuel todo.head?).Safe K
      (fun _ s' g' => ∃ log', J log' s' g' ∧ FiresTimers now active free s₀ (V.get s') log') s g := by
  induction fuel generalizing log s g pre todo with
  | zero => exact absurd hfuel (Nat.not_lt_zero _)
  | succ fuel ih =>
    cases todo with
    | nil => exact ⟨log, hJ, h.done nofun⟩
    | cons t rest =>
      obtain ⟨c, hc⟩ := h.rep.mem_active (a := t) (by simp)
      have hd : dataAt (V.get s) t = some c.val := by rw [dataAt, hc]; rfl
      have hnext : c.next = rest.head? := h.rep.next_eq hc
      rw [List.head?_cons, tmrRunLoop, Prog.safe_bind]
      refine safe_load hc ?_
      dsimp only
      by_cases hdue : now.before c.val.time
      · rw [if_pos hdue]
        exact ⟨log, hJ, h.done (h.sorted.not_due hd hdue)⟩
      · rw [if_neg hdue, Prog.safe_bind]
        refine (hproc.proc log ⟨t, c.val⟩ s g hJ hd).mono ?_
        rintro ⟨⟩ s₁ g₁ ⟨hget, hJ₁⟩
        rw [Prog.safe_bind]
        refine safe_load (hget ▸ hc) ?_
        rw [Prog.safe_bind, hnext]
        have hstep : ∀ ts pre' todo', tmrRunNext t c.val.periodic (V.get s) = some ts →
            rest.head? = todo'.head? → RunInv now active free s₀ (log ++ [⟨t, c.val⟩]) ts pre' todo' →
            workLeft now ts todo' < workLeft now (V.get s) (t :: rest) →
            (V.run (tmrRunNext t c.val.periodic) : Prog σ Ans η Unit).Safe K
              (fun _ => (tmrRunLoop V timerProc now fuel rest.head?).Safe K fun _ s' g' =>
                ∃ log', J log' s' g' ∧ FiresTimers now active free s₀ (V.get s') log') s₁ g₁ := by
          intro ts pre' todo' hts hhead hinv hless
          obtain ⟨hkept, hJ₂⟩ := hproc.set _ ts _ _ hJ₁
          refine safe_viewRun (hget ▸ hts) ⟨hkept, ?_⟩
          rw [hhead]
          refine ih (by rw [hproc.get_set]; exact hinv) hJ₂ ?_
          rw [hproc.get_set]
          omega
        cases hp : c.val.periodic with
        | false =>
          obtain ⟨ts, hts, hinv, hless⟩ := h.fire_once hd h₀ hdue hp
          rw [hp] at hstep
          exact hstep ts pre rest (by rw [tmrRunNext, if_neg (by simp), hts]) rfl hinv hless
        | true =>
          obtain ⟨d, hd₀⟩ := h₀ t (h.mem (by simp))
          have hkept := h.left t d hd₀
          rw [hd] at hkept
          obtain ⟨hperiodic, husecs⟩ := TimerData.iterate_next d (firings log t)
          have hperiod : 0 < c.val.usecs := by
            rw [Option.some.inj hkept, husecs]
            refine hu t (h.mem (by simp)) d hd₀ ?_
            rw [← hperiodic, ← Option.some.inj hkept, hp]
          obtain ⟨ts, pre', todo', hts, hhead, hinv, hless⟩ := h.fire_periodic hd h₀ hdue hp hperiod
          rw [hp] at hstep
          exact hstep ts pre' todo' (by rw [tmrRunNext, if_pos rfl]; exact hts) hhead hinv hless

/-- **`tmr_run` does its job.** Take any sorted list of timers, the periods of the periodic ones above 0, and timer
procedures that leave the package alone. A call of `tmr_run` comes to its end: it never uses up a bound on the
passes of the loop that is larger than `workLeft`, and makes no wild access. Then every timer that was due has
fired, none before its time, in the order of the scheduled times with ties in the order of insertion; the one-shot
timers that have fired are on the free list, and every firing has moved a periodic timer by exactly its period. -/
theorem timers_fire (hproc : LeaveAlone V K timerProc now J) {s : σ} {g : G} {active free : List Addr}
    (hrep : Rep (V.get s) active free []) (hsorted : Sorted (V.get s) active)
    (hu : ∀ a ∈ active, ∀ d, dataAt (V.get s) a = some d → d.periodic = true → 0 < d.usecs) (hJ : J [] s g)
    (fuel : Nat) (hfuel : workLeft now (V.get s) active < fuel) :
    (tmrRun V timerProc fuel now).Safe K
      (fun _ s' g' => ∃ log, J log s' g' ∧ FiresTimers now active free (V.get s) (V.get s') log) s g := by
  have h₀ : ∀ a ∈ active, ∃ d, dataAt (V.get s) a = some d := fun a ha => by
    obtain ⟨c, hc⟩ := hrep.mem_active ha
    exact ⟨c.val, by rw [dataAt, hc]; rfl⟩
  rw [tmrRun, Prog.safe_bind, Prog.safe_get, hrep.timers_eq]
  exact tmrRunLoop_fires hproc h₀ hu fuel (.start hrep hsorted) hJ hfuel

end Run

/-! ## Two timers -/

/-- A memory that holds the timer package and the firings so far. -/
abbrev LogMem := TimerState Unit × List (Firing Unit)

/-- The view of the package in it. -/
def logView : TimerView LogMem TimerHalt Unit where
  get := Prod.fst
  set ts s := (ts, s.2)
  wild := .wild
  spin := .spin

/-- A timer procedure that notes its call. -/
def logProc (t : Addr) (_proc : Unit) (_now : Timeval) : Prog LogMem (fun _ : Empty => Unit) TimerHalt Unit := do
  let s ← Prog.get
  match dataAt s.1 t with
  | none => pure ()
  | some d => Prog.modify fun s => (s.1, s.2 ++ [⟨t, d⟩])

/-- The program may not stop. -/
abbrev neverHalts : Contract LogMem (fun _ : Empty => Unit) TimerHalt Unit := Prog.halting fun _ => False

theorem logProc_leaveAlone (now : Timeval) :
    LeaveAlone logView neverHalts logProc now fun log s _ => s.2 = log where
  get_set _ _ := rfl
  set _ _ _ _ h := ⟨trivial, h⟩
  proc log f s g h hd := by
    rw [logProc, Prog.safe_bind, Prog.safe_get, show dataAt s.1 f.timer = some f.data from hd]
    exact ⟨trivial, rfl, congrArg (· ++ [f]) h⟩

/-- The timer 1 every 3 µs, from 8 µs before the full second on, and the timer 2 once, 6 µs before it. -/
def twoTimers : TimerState Unit where
  mem
    | 1 => some ⟨⟨(), 3, true, ⟨0, 999992⟩⟩, none, some 2⟩
    | 2 => some ⟨⟨(), 5, false, ⟨0, 999994⟩⟩, some 1, none⟩
    | _ => none
  live := 2
  timers := some 1
  freeTimers := none

theorem twoTimers_rep : Rep twoTimers [1, 2] [] [] where
  seg := ⟨some 2, rfl, _, rfl, rfl, rfl, _, rfl, rfl, rfl, rfl⟩
  chain := rfl
  held := nofun
  nodup := by decide
  live := rfl

/-- At the end of the second the timers 1, 2 and 1 fire. -/
theorem timers_fire_two :
    ∃ s', Prog.Returns (tmrRun logView logProc 20 ⟨0, 999999⟩) (twoTimers, []) () s' ∧
      s'.2.map (fun f => (f.timer, f.data.time.tvUsec)) = [(1, 999992), (2, 999994), (1, 999995)] ∧
      FiresTimers ⟨0, 999999⟩ [1, 2] [] twoTimers s'.1 s'.2 := by
  have hsafe := timers_fire (logProc_leaveAlone ⟨0, 999999⟩) (s := (twoTimers, [])) (g := ()) twoTimers_rep
    (List.pairwise_pair.2 (by decide)) (by
      intro a ha d hd _
      rcases List.mem_cons.1 ha with rfl | ha
      · cases hd
        decide
      · obtain rfl := List.mem_singleton.1 ha
        cases hd
        decide) rfl 20 (by decide)
  have hrun : Prog.Returns (tmrRun logView logProc 20 ⟨0, 999999⟩) (twoTimers, []) () _ :=
    .of_drive nofun 100 (by decide)
  refine ⟨_, hrun, by decide, ?_⟩
  obtain ⟨log, rfl, hfires⟩ := hsafe.reach_free (fun _ _ _ => trivial) hrun
  exact hfires

end Iperf
