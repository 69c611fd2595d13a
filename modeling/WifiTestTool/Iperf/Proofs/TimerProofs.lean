import Mathlib.Data.Prod.Lex
import WifiTestTool.Iperf.Timer
import WifiTestTool.Lib.StableInsert

/-!
# The timer lists

`Rep s active free out` relates the memory of the timer package to the lists it stands for: the
active list, the free list, and the structures that a function has in hand. Each function of the
package has one specification in these terms: it makes no wild access, and what it does to the
pointers is removal, respectively insertion behind ties (`StableInsert.insertBy`), of one timer of the
active list.
-/

namespace Iperf

open Dll StableInsert

variable {C : Type}

/-- The time as an element of a linear order. -/
def Timeval.key (t : Timeval) : ℤ ×ₗ ℤ := toLex (t.tvSec, t.tvUsec)

theorem before_iff (a b : Timeval) : a.before b ↔ a.key < b.key := by
  simp [Timeval.before, Timeval.key, Prod.Lex.toLex_lt_toLex]

/-- The contents of the timer at `a`. -/
def dataAt (s : TimerState C) (a : Addr) : Option (TimerData C) := (s.mem a).map Node.val

/-- The time of the timer at `a`, as an element of a linear order. -/
def keyAt (s : TimerState C) (a : Addr) : ℤ ×ₗ ℤ :=
  ((dataAt s a).map fun d => d.time.key).getD (toLex (0, 0))

theorem keyAt_eq {s : TimerState C} {a : Addr} {c : Timer C} (h : s.mem a = some c) :
    keyAt s a = c.val.time.key := by
  simp [keyAt, dataAt, h]

theorem keyAt_congr {s s' : TimerState C} (h : ∀ a, dataAt s' a = dataAt s a) :
    keyAt s' = keyAt s := by
  funext a; rw [keyAt, h, keyAt]

/-- The memory `s` stands for the active list `active`, the free list `free` and the structures `out`
that are on neither of them. -/
structure Rep (s : TimerState C) (active free out : List Addr) : Prop where
  seg : ∃ q, Seg s.mem none s.timers active q none
  chain : Chain s.mem s.freeTimers free
  held : ∀ a ∈ out, ∃ c, s.mem a = some c
  nodup : (active ++ free ++ out).Nodup
  live : s.live = (active ++ free ++ out).length

/-- No timer has been created yet. -/
theorem Rep.init : Rep (TimerState.init : TimerState C) [] [] [] where
  seg := ⟨none, rfl, rfl⟩
  chain := rfl
  held := nofun
  nodup := List.nodup_nil
  live := rfl

/-- The active list is sorted by time. -/
def Sorted (s : TimerState C) (active : List Addr) : Prop :=
  active.Pairwise fun a b => keyAt s a ≤ keyAt s b

theorem Sorted.congr {s s' : TimerState C} {l : List Addr} (h : Sorted s l)
    (hd : ∀ a ∈ l, dataAt s' a = dataAt s a) : Sorted s' l := by
  refine List.Pairwise.imp_of_mem (fun {a b} ha hb hab => ?_) h
  simpa only [keyAt, hd a ha, hd b hb] using hab

theorem TimerState.store_some {s : TimerState C} {a : Addr} {c : Timer C} (h : s.mem a = some c)
    (f : Timer C → Timer C) :
    s.store (some a) f = some { s with mem := s.mem.modify a f } := by
  simp [TimerState.store, Heap.store_some h]

section Rep

variable {s : TimerState C} {active free out : List Addr}

theorem Rep.mem_active (h : Rep s active free out) {a : Addr} (ha : a ∈ active) :
    ∃ c, s.mem a = some c :=
  let ⟨_, hseg⟩ := h.seg
  hseg.isSome ha

theorem Rep.timers_eq (h : Rep s active free out) : s.timers = active.head? :=
  let ⟨_, hseg⟩ := h.seg
  hseg.head?

/-- Every structure that the lists account for is allocated. -/
theorem Rep.allocated (h : Rep s active free out) {a : Addr} (ha : a ∈ active ++ free ++ out) :
    ∃ c, s.mem a = some c := by
  simp only [List.mem_append] at ha
  rcases ha with (ha | ha) | ha
  · exact h.mem_active ha
  · exact h.chain.isSome ha
  · exact h.held a ha

/-- The pointer to the timer behind `a` on the active list. -/
theorem Rep.next_eq {l₁ l₂ : List Addr} {a : Addr} (h : Rep s (l₁ ++ a :: l₂) free out) {c : Timer C}
    (hc : s.mem a = some c) : c.next = l₂.head? := by
  obtain ⟨q, hseg⟩ := h.seg
  obtain ⟨-, -, -, -, c', hc', -, hrest⟩ := (seg_append ..).1 hseg
  obtain rfl : c' = c := Option.some.inj (hc'.symm.trans hc)
  exact hrest.head?

/-- The links of the active list change from `active` to `active'` while structures move between the
lists; the nodes of the free list and those in hand are left alone. -/
theorem Rep.relink (h : Rep s active free out) {s' : TimerState C} {active' out' : List Addr}
    (hseg : ∃ q, Seg s'.mem none s'.timers active' q none)
    (hfree : s'.freeTimers = s.freeTimers) (hlive : s'.live = s.live)
    (hdata : ∀ a, dataAt s' a = dataAt s a)
    (hother : ∀ a ∈ free, s'.mem a = s.mem a)
    (hout : ∀ a ∈ out', a ∈ active ++ free ++ out)
    (hp : (active' ++ free ++ out').Perm (active ++ free ++ out)) : Rep s' active' free out' where
  seg := hseg
  chain := by rw [hfree]; exact h.chain.congr hother
  held a ha := by
    obtain ⟨c, hc⟩ := h.allocated (hout a ha)
    have := hdata a
    rw [dataAt, dataAt, hc] at this
    cases hs : s'.mem a with
    | none => simp [hs] at this
    | some c' => exact ⟨c', rfl⟩
  nodup := hp.nodup_iff.2 h.nodup
  live := by rw [hlive, h.live, hp.length_eq]

end Rep

/-! ## `list_add` -/

theorem listInsert_eq {s : TimerState C} {t p : Addr} {n : Option Addr} {cp ct : Timer C}
    (hp : s.mem p = some cp) (ht : s.mem t = some ct) (htp : t ≠ p)
    (hn : ∀ b, n = some b → b ≠ t ∧ b ≠ p ∧ ∃ c, s.mem b = some c) :
    listInsert t p n s = some { s with mem := s.mem.linkAfter t p n } := by
  have ht₁ : s.mem.modify p (Node.withNext (some t)) t = some ct := by
    rw [Heap.modify_other _ _ htp, ht]
  have ht₂ : (s.mem.modify p (Node.withNext (some t))).modify t (Node.withPrev (some p)) t =
      some (ct.withPrev (some p)) := by simp [ht₁]
  unfold listInsert
  rw [TimerState.store_some hp]
  simp only [Option.bind_eq_bind, Option.bind_some]
  rw [TimerState.store_some ht₁]
  simp only [Option.bind_some]
  rw [TimerState.store_some ht₂]
  simp only [Option.bind_some]
  cases n with
  | none => rfl
  | some b =>
    obtain ⟨hbt, hbp, c, hb⟩ := hn b rfl
    refine TimerState.store_some (c := c) ?_ _
    show ((s.mem.modify p _).modify t _).modify t _ b = _
    rw [Heap.modify_other _ _ hbt, Heap.modify_other _ _ hbt, Heap.modify_other _ _ hbp, hb]

/-- `list_add` at its insertion point, behind `p`. -/
theorem listInsert_spec {s : TimerState C} {l₁ l₂ free out : List Addr} {p t : Addr}
    (h : Rep s (l₁ ++ p :: l₂) free (t :: out)) :
    ∃ s', listInsert t p l₂.head? s = some s' ∧ Rep s' (l₁ ++ p :: t :: l₂) free out ∧
      (∀ a, dataAt s' a = dataAt s a) ∧ s'.live = s.live := by
  obtain ⟨q, hseg⟩ := h.seg
  obtain ⟨ct, hct⟩ := h.held t (by simp)
  obtain ⟨cp, hcp⟩ := h.mem_active (a := p) (by simp)
  have hnd := h.nodup
  simp only [List.nodup_append, List.nodup_cons, List.mem_append, List.mem_cons] at hnd
  have hn : ∀ b, l₂.head? = some b → b ∈ l₂ := fun b hb => List.mem_of_mem_head? hb
  have heq := listInsert_eq (n := l₂.head?) hcp hct (by grind) fun b hb =>
    ⟨by grind, by grind, h.mem_active (by simp [hn b hb])⟩
  have hdata : ∀ a, dataAt { s with mem := s.mem.linkAfter t p l₂.head? } a = dataAt s a :=
    fun a => Heap.linkAfter_val ..
  refine ⟨_, heq, h.relink (hseg.linkAfter ?_ ?_ hct) rfl rfl hdata ?_ ?_ ?_, hdata, rfl⟩
  · exact (List.nodup_append.1 (List.nodup_append.1 h.nodup).1).1
  · simp only [List.mem_append, List.mem_cons]; grind
  · intro a ha
    exact Heap.linkAfter_other _ (by grind) (by grind) fun e => by grind
  · intro a ha; simp [ha]
  · rw [List.perm_iff_count]; intro x; simp only [List.count_append, List.count_cons]; omega

/-- The walk of `list_add` inserts `t` behind ties into the rest `l₂` of the list. -/
theorem listAddWalk_spec {s : TimerState C} {free out : List Addr} {t : Addr} {c : Timer C}
    (hc : s.mem t = some c) :
    ∀ (l₂ l₁ : List Addr) (p : Addr) (fuel : Nat), Rep s (l₁ ++ p :: l₂) free (t :: out) →
      l₂.length < fuel →
      ∃ s', listAddWalk t c.val.time fuel p l₂.head? s = some s' ∧
        Rep s' (l₁ ++ p :: insertBy (keyAt s) t l₂) free out ∧
        (∀ a, dataAt s' a = dataAt s a) ∧ s'.live = s.live := by
  intro l₂
  induction l₂ with
  | nil =>
    intro l₁ p fuel h hf
    obtain ⟨fuel, rfl⟩ : ∃ k, fuel = k + 1 := ⟨fuel - 1, by simp at hf; omega⟩
    exact listInsert_spec h
  | cons b l₂ ih =>
    intro l₁ p fuel h hf
    obtain ⟨fuel, rfl⟩ : ∃ k, fuel = k + 1 := ⟨fuel - 1, by simp at hf; omega⟩
    obtain ⟨cb, hcb⟩ := h.mem_active (a := b) (by simp)
    have hlt : c.val.time.before cb.val.time ↔ keyAt s t < keyAt s b := by
      rw [before_iff, keyAt_eq hc, keyAt_eq hcb]
    have hunf : listAddWalk t c.val.time (fuel + 1) p (b :: l₂).head? s =
        if c.val.time.before cb.val.time then listInsert t p (some b) s
        else listAddWalk t c.val.time fuel b cb.next s := by
      simp [listAddWalk, hcb]
    have h' : Rep s ((l₁ ++ [p]) ++ b :: l₂) free (t :: out) := by simpa using h
    by_cases hb : c.val.time.before cb.val.time
    · rw [hunf, if_pos hb, insertBy_cons_of_lt (hlt.1 hb)]
      exact listInsert_spec h
    · rw [hunf, if_neg hb, insertBy_cons_of_le (not_lt.1 fun hh => hb (hlt.2 hh)), h'.next_eq hcb]
      obtain ⟨s', hs', hrep, hd, hl⟩ := ih (l₁ ++ [p]) b fuel h' (by simpa using hf)
      exact ⟨s', hs', by simpa using hrep, hd, hl⟩

/-- `list_add` inserts the timer it is given behind ties into the active list. -/
theorem listAdd_spec {s : TimerState C} {active free out : List Addr} {t : Addr}
    (h : Rep s active free (t :: out)) :
    ∃ s', listAdd t s = some s' ∧ Rep s' (insertBy (keyAt s) t active) free out ∧
      (∀ a, dataAt s' a = dataAt s a) ∧ s'.live = s.live := by
  obtain ⟨q, hseg⟩ := h.seg
  obtain ⟨c, hc⟩ := h.held t (by simp)
  have hnd := h.nodup
  simp only [List.nodup_append, List.nodup_cons, List.mem_append, List.mem_cons] at hnd
  have hperm : (t :: active ++ free ++ out).Perm (active ++ free ++ t :: out) := by
    rw [List.perm_iff_count]; intro x
    simp only [List.count_append, List.count_cons]; omega
  -- Two of the cases put the timer in front of the list.
  have hhead : ∀ s', s' = { s with mem := s.mem.linkHead t active.head?, timers := some t } →
      Rep s' (t :: active) free out ∧ (∀ a, dataAt s' a = dataAt s a) ∧ s'.live = s.live := by
    rintro s' rfl
    have hdata : ∀ a, dataAt { s with mem := s.mem.linkHead t active.head?, timers := some t } a =
        dataAt s a := fun a => Heap.linkHead_val ..
    refine ⟨h.relink ?_ rfl rfl hdata ?_ (fun a ha => by simp [ha]) hperm, hdata, rfl⟩
    · rw [← hseg.head?]; exact hseg.linkHead (by grind) (by grind) hc
    · intro a ha
      exact Heap.linkHead_other _ (by grind) fun e => by
        have := List.mem_of_mem_head? e; grind
  cases active with
  | nil =>
    have ht : s.timers = none := h.timers_eq
    refine ⟨{ s with mem := s.mem.linkHead t none, timers := some t }, ?_, hhead _ rfl⟩
    simp only [listAdd, ht]
    rw [TimerState.store_some (s := { s with timers := some t }) hc]
    congr 2
    funext a
    by_cases ha : a = t
    · subst ha; simp [Heap.linkHead, Heap.setPrev?, hc, Node.withPrev, Node.withNext]
    · rw [Heap.modify_other _ _ ha, Heap.linkHead_other _ ha (by simp)]
  | cons b l =>
    obtain ⟨cb, hcb⟩ := h.mem_active (a := b) (by simp)
    have ht : s.timers = some b := h.timers_eq
    have hbt : b ≠ t := by grind
    have hlt : c.val.time.before cb.val.time ↔ keyAt s t < keyAt s b := by
      rw [before_iff, keyAt_eq hc, keyAt_eq hcb]
    have hunf : listAdd t s = if c.val.time.before cb.val.time then
        some { s with mem := s.mem.linkHead t (some b), timers := some t }
        else listAddWalk t c.val.time s.live b cb.next s := by
      have ht₁ : s.mem.modify t (Node.withPrev none) t = some (c.withPrev none) := by simp [hc]
      have hb₂ : (s.mem.modify t (Node.withPrev none)).modify t (Node.withNext (some b)) b =
          some cb := by rw [Heap.modify_other _ _ hbt, Heap.modify_other _ _ hbt, hcb]
      simp only [listAdd, ht, hc, hcb, Option.bind_eq_bind, Option.bind_some]
      rw [TimerState.store_some hc]
      simp only [Option.bind_some]
      rw [TimerState.store_some ht₁]
      simp only [Option.bind_some]
      rw [TimerState.store_some hb₂]
      rfl
    by_cases hb : c.val.time.before cb.val.time
    · rw [insertBy_cons_of_lt (hlt.1 hb), hunf, if_pos hb]
      exact ⟨_, rfl, hhead _ rfl⟩
    · rw [hunf, if_neg hb, insertBy_cons_of_le (not_lt.1 fun hh => hb (hlt.2 hh))]
      rw [@Rep.next_eq _ _ _ _ [] _ _ h _ hcb]
      have hlen : l.length < s.live := by rw [h.live, List.length_append, List.length_append, List.length_cons]; omega
      exact listAddWalk_spec hc l [] b s.live h hlen

/-! ## `list_remove` and `list_resort` -/

/-- `list_remove` takes the timer out of the active list. -/
theorem listRemove_spec {s : TimerState C} {l₁ l₂ free out : List Addr} {t : Addr}
    (h : Rep s (l₁ ++ t :: l₂) free out) :
    ∃ s', listRemove t s = some s' ∧ Rep s' (l₁ ++ l₂) free (t :: out) ∧
      (∀ a, dataAt s' a = dataAt s a) ∧ s'.live = s.live := by
  obtain ⟨q, hseg⟩ := h.seg
  obtain ⟨c, hc⟩ := h.mem_active (a := t) (by simp)
  have hnd := h.nodup
  simp only [List.nodup_append, List.nodup_cons, List.mem_append, List.mem_cons] at hnd
  obtain ⟨hsegs, hprev, hnext⟩ := hseg.unlink (by simp [List.nodup_append]; grind) hc
  have hp : ∀ b, c.prev = some b → b ∈ l₁ := fun b hb =>
    List.mem_of_mem_getLast? (by rw [← hprev, hb]; rfl)
  have hn : ∀ b, c.next = some b → b ∈ l₂ := fun b hb =>
    List.mem_of_mem_head? (by rw [← hnext, hb]; rfl)
  have heq : listRemove t s = some { s with
      mem := s.mem.unlink c.prev c.next
      timers := if c.prev = none then c.next else s.timers } := by
    have hfirst : listRemovePrev t s = some { s with
        mem := s.mem.setNext? c.prev c.next
        timers := if c.prev = none then c.next else s.timers } := by
      simp only [listRemovePrev, hc, Option.bind_eq_bind, Option.bind_some]
      cases hcp : c.prev with
      | none => simp [Heap.setNext?]
      | some p =>
        obtain ⟨cp, hcp'⟩ := h.mem_active (a := p) (by simp [hp p hcp])
        simpa [Heap.setNext?] using TimerState.store_some hcp' (Node.withNext c.next)
    have hct : s.mem.setNext? c.prev c.next t = some c := by
      rw [Heap.setNext?_other _ _ fun e => by have := hp t e; grind, hc]
    rw [listRemove, hfirst, Option.bind_eq_bind, Option.bind_some, listRemoveNext]
    simp only [hct, Option.bind_eq_bind, Option.bind_some]
    cases hcn : c.next with
    | none => simp [Heap.unlink, Heap.setPrev?]
    | some n =>
      obtain ⟨cn, hcn'⟩ := h.mem_active (a := n) (by simp [hn n hcn])
      have hne : c.prev ≠ some n := fun e => by have := hp n e; have := hn n hcn; grind
      refine TimerState.store_some (c := cn) ?_ _
      show s.mem.setNext? c.prev (some n) n = some cn
      rw [Heap.setNext?_other _ _ hne, hcn']
  have hdata : ∀ a, dataAt { s with
      mem := s.mem.unlink c.prev c.next
      timers := if c.prev = none then c.next else s.timers } a = dataAt s a :=
    fun a => Heap.unlink_val ..
  refine ⟨_, heq, h.relink hsegs rfl rfl hdata ?_ ?_ ?_, hdata, rfl⟩
  · intro a ha
    exact Heap.unlink_other _ (fun e => by have := hp a e; grind) fun e => by have := hn a e; grind
  · intro a ha
    rcases List.mem_cons.1 ha with rfl | ha <;> simp_all
  · rw [List.perm_iff_count]; intro x; simp only [List.count_append, List.count_cons]; omega

/-- `list_resort` moves the timer to its place behind ties. -/
theorem listResort_spec {s : TimerState C} {l₁ l₂ free out : List Addr} {t : Addr}
    (h : Rep s (l₁ ++ t :: l₂) free out) :
    ∃ s', listResort t s = some s' ∧ Rep s' (insertBy (keyAt s) t (l₁ ++ l₂)) free out ∧
      (∀ a, dataAt s' a = dataAt s a) ∧ s'.live = s.live := by
  obtain ⟨s₁, h₁, hrep₁, hd₁, hl₁⟩ := listRemove_spec h
  obtain ⟨s₂, h₂, hrep₂, hd₂, hl₂⟩ := listAdd_spec hrep₁
  rw [keyAt_congr hd₁] at hrep₂
  exact ⟨s₂, by simp [listResort, h₁, h₂], hrep₂, fun a => by rw [hd₂, hd₁], by rw [hl₂, hl₁]⟩

/-! ## Changing the time of a timer -/

theorem setData_spec {s : TimerState C} {active free out : List Addr} {t : Addr}
    (h : Rep s active free out) (ht : t ∈ active ++ free ++ out) (d : TimerData C → TimerData C) :
    ∃ s', s.setData t d = some s' ∧ Rep s' active free out ∧
      dataAt s' t = (dataAt s t).map d ∧ (∀ a, a ≠ t → dataAt s' a = dataAt s a) := by
  obtain ⟨ct, hct⟩ := h.allocated ht
  have hlinks : ∀ a c, s.mem a = some c →
      ∃ c', s.mem.modify t (fun c => { c with val := d c.val }) a = some c' ∧
        c'.prev = c.prev ∧ c'.next = c.next := by
    intro a c hc
    by_cases ha : a = t
    · subst ha; exact ⟨{ c with val := d c.val }, by simp [hc], rfl, rfl⟩
    · exact ⟨c, by rw [Heap.modify_other _ _ ha, hc], rfl, rfl⟩
  obtain ⟨q, hseg⟩ := h.seg
  refine ⟨_, TimerState.store_some hct _, ⟨⟨q, hseg.congr_links fun a _ c hc => hlinks a c hc⟩,
    h.chain.congr_links fun a _ c hc => ?_, fun a ha => ?_, h.nodup, h.live⟩, ?_, fun a ha => ?_⟩
  · obtain ⟨c', hc', -, hn⟩ := hlinks a c hc
    exact ⟨c', hc', hn⟩
  · obtain ⟨c, hc⟩ := h.held a ha
    obtain ⟨c', hc', -⟩ := hlinks a c hc
    exact ⟨c', hc'⟩
  · simp [dataAt, hct]
  · simp [dataAt, Heap.modify_other _ _ ha]

/-- The timer `t` gets new contents and is put back in its place. -/
theorem retime_spec {s : TimerState C} {l₁ l₂ free out : List Addr} {t : Addr}
    (h : Rep s (l₁ ++ t :: l₂) free out) (hs : Sorted s (l₁ ++ t :: l₂))
    (d : TimerData C → TimerData C) :
    ∃ s', (s.setData t d).bind (listResort t) = some s' ∧
      Rep s' (insertBy (keyAt s') t (l₁ ++ l₂)) free out ∧
      Sorted s' (insertBy (keyAt s') t (l₁ ++ l₂)) ∧
      dataAt s' t = (dataAt s t).map d ∧ (∀ a, a ≠ t → dataAt s' a = dataAt s a) := by
  obtain ⟨s₁, h₁, hrep₁, hdt, hdo⟩ := setData_spec h (t := t) (by simp) d
  obtain ⟨s₂, h₂, hrep₂, hd₂, -⟩ := listResort_spec hrep₁
  have hd : ∀ a, a ≠ t → dataAt s₂ a = dataAt s a := fun a ha => by rw [hd₂, hdo a ha]
  have hnd := h.nodup
  simp only [List.nodup_append, List.nodup_cons, List.mem_cons] at hnd
  rw [← keyAt_congr hd₂] at hrep₂
  refine ⟨s₂, by rw [h₁]; exact h₂, hrep₂, pairwise_insertBy ?_, by rw [hd₂, hdt], hd⟩
  have hs' : Sorted s (l₁ ++ l₂) :=
    hs.sublist ((List.sublist_cons_self t l₂).append_left l₁)
  exact hs'.congr fun a ha => hd a fun e => by subst e; grind

/-- `tmr_reset` on an active timer. -/
theorem tmrReset_spec {s : TimerState C} {l₁ l₂ free out : List Addr} {t : Addr} (now : Timeval)
    (h : Rep s (l₁ ++ t :: l₂) free out) (hs : Sorted s (l₁ ++ t :: l₂)) :
    ∃ s', tmrReset now t s = some s' ∧ Rep s' (insertBy (keyAt s') t (l₁ ++ l₂)) free out ∧
      Sorted s' (insertBy (keyAt s') t (l₁ ++ l₂)) ∧
      dataAt s' t = (dataAt s t).map (fun d => { d with time := addUsecs now d.usecs }) ∧
      (∀ a, a ≠ t → dataAt s' a = dataAt s a) :=
  retime_spec h hs _

/-! ## `tmr_cancel` and `tmr_create` -/

/-- `tmr_cancel` moves an active timer to the front of the free list. -/
theorem tmrCancel_spec {s : TimerState C} {l₁ l₂ free : List Addr} {t : Addr}
    (h : Rep s (l₁ ++ t :: l₂) free []) :
    ∃ s', tmrCancel t s = some s' ∧ Rep s' (l₁ ++ l₂) (t :: free) [] ∧
      (∀ a, dataAt s' a = dataAt s a) := by
  obtain ⟨s₁, h₁, hrep, hd, -⟩ := listRemove_spec h
  obtain ⟨c, hc⟩ := hrep.held t (by simp)
  have hnd := hrep.nodup
  simp only [List.nodup_append, List.nodup_cons, List.mem_append, List.mem_cons] at hnd
  set m₂ := s₁.mem.modify t (Node.withNext s₁.freeTimers) with hm₂
  have ht₂ : m₂ t = some (c.withNext s₁.freeTimers) := by simp [hm₂, hc]
  have hcancel : tmrCancel t s = some { s₁ with
      freeTimers := some t, mem := m₂.modify t (Node.withPrev none) } := by
    simp only [tmrCancel, h₁, Option.bind_eq_bind, Option.bind_some]
    rw [TimerState.store_some hc]
    simp only [Option.bind_some]
    exact TimerState.store_some (s := { s₁ with freeTimers := some t, mem := m₂ }) ht₂ _
  have hother : ∀ a, a ≠ t → m₂.modify t (Node.withPrev none) a = s₁.mem a := fun a ha => by
    rw [Heap.modify_other _ _ ha, hm₂, Heap.modify_other _ _ ha]
  obtain ⟨q, hseg⟩ := hrep.seg
  refine ⟨_, hcancel, ⟨⟨q, hseg.congr fun a ha => hother a (by grind)⟩,
    ⟨rfl, (c.withNext s₁.freeTimers).withPrev none, by simp [ht₂],
      hrep.chain.congr fun a ha => hother a (by grind)⟩, by simp, ?_, ?_⟩, fun a => ?_⟩
  · have hp : (l₁ ++ l₂ ++ t :: free ++ []).Perm (l₁ ++ l₂ ++ free ++ [t]) := by
      rw [List.perm_iff_count]; intro x; simp only [List.count_append, List.count_cons]; omega
    exact hp.nodup_iff.2 hrep.nodup
  · show s₁.live = _
    rw [hrep.live]; simp
  · rw [← hd a]
    simp [dataAt, hm₂]

/-- The structure that `tmr_create` gets to work with. -/
theorem tmrAlloc_spec {s : TimerState C} {active free : List Addr} (h : Rep s active free [])
    (malloc : Option Addr) (hm : ∀ a, malloc = some a → s.mem a = none) (d : TimerData C) :
    ∃ s' r, tmrAlloc malloc d s = some (s', r) ∧ (r = none → s' = s) ∧
      ∀ t, r = some t → t ∉ active ∧ (∃ free', Rep s' active free' [t]) ∧
        dataAt s' t = some d ∧ ∀ a, a ≠ t → dataAt s' a = dataAt s a := by
  have hnd := h.nodup
  obtain ⟨q, hseg⟩ := h.seg
  cases free with
  | cons t free =>
    obtain ⟨hft, c, hc, hchain⟩ := h.chain
    simp only [List.nodup_append, List.nodup_cons, List.mem_append, List.mem_cons] at hnd
    have hrep : Rep { s with freeTimers := c.next } active free [t] := by
      refine ⟨⟨q, hseg⟩, hchain, by simp [hc], ?_, ?_⟩
      · have hp : (active ++ free ++ [t]).Perm (active ++ t :: free ++ []) := by
          rw [List.perm_iff_count]; intro x; simp only [List.count_append, List.count_cons]; omega
        exact hp.nodup_iff.2 h.nodup
      · show s.live = _
        rw [h.live]; simp
    obtain ⟨s', hs', hrep', hdt, hdo⟩ := setData_spec hrep (t := t) (by simp) fun _ => d
    refine ⟨s', some t, ?_, by simp, fun t' ht' => ?_⟩
    · simp only [tmrAlloc, hft, hc, Option.bind_eq_bind, Option.bind_some, hs']
    · obtain rfl := Option.some.inj ht'
      refine ⟨by grind, ⟨free, hrep'⟩, ?_, hdo⟩
      rw [hdt]; simp [dataAt, hc]
  | nil =>
    have hft : s.freeTimers = none := h.chain
    cases malloc with
    | none => exact ⟨s, none, by simp [tmrAlloc, hft], by simp, by simp⟩
    | some t =>
      have hmt := hm t rfl
      have hta : ∀ a ∈ active, a ≠ t := by
        rintro a ha rfl
        obtain ⟨c, hc⟩ := h.mem_active ha
        rw [hc] at hmt; cases hmt
      have hother : ∀ a, a ≠ t → ∀ n, Function.update s.mem t n a = s.mem a := fun a ha n =>
        Function.update_of_ne ha _ _
      refine ⟨_, some t, by simp only [tmrAlloc, hft]; rfl, by simp, fun t' ht' => ?_⟩
      obtain rfl := Option.some.inj ht'
      refine ⟨fun ha => hta t ha rfl, ⟨[], ⟨q, hseg.congr fun a ha => hother a (hta a ha) _⟩, rfl,
        ?_, ?_, ?_⟩, ?_, fun a ha => ?_⟩
      · intro a ha
        obtain rfl : a = t := by simpa using ha
        exact ⟨_, by simp; rfl⟩
      · simp only [List.append_nil] at hnd ⊢
        exact List.nodup_append.2 ⟨hnd, by simp, fun a ha b hb => by
          obtain rfl : b = t := by simpa using hb
          exact hta a ha⟩
      · show s.live + 1 = _
        rw [h.live]; simp
      · simp [dataAt]
      · simp [dataAt, hother a ha]

/-- `tmr_create` puts the new timer in its place on the active list, or returns `NULL`. -/
theorem tmrCreate_spec {s : TimerState C} {active free : List Addr} (h : Rep s active free [])
    (hs : Sorted s active) (malloc : Option Addr) (hm : ∀ a, malloc = some a → s.mem a = none)
    (now : Timeval) (proc : C) (usecs : Int) (periodic : Bool) :
    ∃ s' r, tmrCreate malloc now proc usecs periodic s = some (s', r) ∧ (r = none → s' = s) ∧
      ∀ t, r = some t → t ∉ active ∧ (∃ free', Rep s' (insertBy (keyAt s') t active) free' []) ∧
        Sorted s' (insertBy (keyAt s') t active) ∧
        dataAt s' t = some ⟨proc, usecs, periodic, addUsecs now usecs⟩ ∧
        ∀ a, a ≠ t → dataAt s' a = dataAt s a := by
  obtain ⟨s₁, r, h₁, hnone, hsome⟩ := tmrAlloc_spec h malloc hm
    ⟨proc, usecs, periodic, addUsecs now usecs⟩
  cases r with
  | none =>
    obtain rfl := hnone rfl
    exact ⟨s₁, none, by simp [tmrCreate, h₁], fun _ => rfl, by simp⟩
  | some t =>
    obtain ⟨hta, ⟨free', hrep₁⟩, hdt, hdo⟩ := hsome t rfl
    obtain ⟨s₂, h₂, hrep₂, hd₂, -⟩ := listAdd_spec hrep₁
    rw [← keyAt_congr hd₂] at hrep₂
    refine ⟨s₂, some t, by simp [tmrCreate, h₁, h₂], by simp, fun t' ht' => ?_⟩
    obtain rfl := Option.some.inj ht'
    have hd : ∀ a, a ≠ t → dataAt s₂ a = dataAt s a := fun a ha => by rw [hd₂, hdo a ha]
    refine ⟨hta, ⟨free', hrep₂⟩, pairwise_insertBy ?_, by rw [hd₂, hdt], hd⟩
    exact hs.congr fun a ha => hd a fun e => hta (e ▸ ha)

/-! ## `tmr_cleanup` and `tmr_destroy` -/

theorem tmrCleanupLoop_spec {active : List Addr} : ∀ (free : List Addr) (fuel : Nat)
    {s : TimerState C}, Rep s active free [] → free.length ≤ fuel →
    ∃ s', tmrCleanupLoop fuel s = some s' ∧ Rep s' active [] [] ∧
      ∀ a ∈ active, dataAt s' a = dataAt s a := by
  intro free
  induction free with
  | nil =>
    intro fuel s h _
    have hft : s.freeTimers = none := h.chain
    refine ⟨s, ?_, h, fun _ _ => rfl⟩
    cases fuel <;> simp [tmrCleanupLoop, hft]
  | cons t free ih =>
    intro fuel s h hf
    obtain ⟨fuel, rfl⟩ : ∃ k, fuel = k + 1 := ⟨fuel - 1, by simp at hf; omega⟩
    obtain ⟨hft, c, hc, hchain⟩ := h.chain
    obtain ⟨q, hseg⟩ := h.seg
    have hnd := h.nodup
    simp only [List.nodup_append, List.nodup_cons, List.mem_cons] at hnd
    have hother : ∀ a, a ≠ t → Function.update s.mem t none a = s.mem a := fun a ha =>
      Function.update_of_ne ha _ _
    have hrep : Rep { s with
        freeTimers := c.next, mem := Function.update s.mem t none, live := s.live - 1 }
        active free [] := by
      refine ⟨⟨q, hseg.congr fun a ha => hother a (by grind)⟩,
        hchain.congr fun a ha => hother a (by grind), by simp, ?_, ?_⟩
      · exact h.nodup.sublist (by simp)
      · show s.live - 1 = _
        rw [h.live]; simp
    obtain ⟨s', hs', hrep', hd'⟩ := ih fuel hrep (by simpa using hf)
    refine ⟨s', by simp [tmrCleanupLoop, hft, hc, hs'], hrep', fun a ha => ?_⟩
    rw [hd' a ha]
    simp [dataAt, hother a (by grind)]

/-- `tmr_cleanup` empties the free list. -/
theorem tmrCleanup_spec {s : TimerState C} {active free : List Addr} (h : Rep s active free []) :
    ∃ s', tmrCleanup s = some s' ∧ Rep s' active [] [] ∧
      ∀ a ∈ active, dataAt s' a = dataAt s a :=
  tmrCleanupLoop_spec free s.live h (by rw [h.live]; simp)

theorem tmrDestroyLoop_spec : ∀ (active free : List Addr) (fuel : Nat) {s : TimerState C},
    Rep s active free [] → active.length ≤ fuel →
    ∃ s' free', tmrDestroyLoop fuel s = some s' ∧ Rep s' [] free' [] := by
  intro active
  induction active with
  | nil =>
    intro free fuel s h _
    have ht : s.timers = none := h.timers_eq
    refine ⟨s, free, ?_, h⟩
    cases fuel <;> simp [tmrDestroyLoop, ht]
  | cons t active ih =>
    intro free fuel s h hf
    obtain ⟨fuel, rfl⟩ : ∃ k, fuel = k + 1 := ⟨fuel - 1, by simp at hf; omega⟩
    have ht : s.timers = some t := h.timers_eq
    obtain ⟨s₁, h₁, hrep₁, -⟩ := @tmrCancel_spec _ _ [] active free t h
    obtain ⟨s', free', hs', hrep'⟩ := ih (t :: free) fuel hrep₁ (by simpa using hf)
    exact ⟨s', free', by simp [tmrDestroyLoop, ht, h₁, hs'], hrep'⟩

/-- `tmr_destroy` empties both lists. -/
theorem tmrDestroy_spec {s : TimerState C} {active free : List Addr} (h : Rep s active free []) :
    ∃ s', tmrDestroy s = some s' ∧ Rep s' [] [] [] := by
  obtain ⟨s₁, free', h₁, hrep₁⟩ := tmrDestroyLoop_spec active free s.live h
    (by rw [h.live]; simp)
  obtain ⟨s₂, h₂, hrep₂, -⟩ := tmrCleanup_spec hrep₁
  exact ⟨s₂, by simp [tmrDestroy, h₁, h₂], hrep₂⟩

/-! ## The timers in memory

The package changes the times of its timers and nothing else of their contents. Unlike the specifications above
this needs no well-formed lists.
-/

/-- Every timer structure in memory, on a list or not, has contents with the property `P`. -/
def TimerState.All (P : TimerData C → Prop) (s : TimerState C) : Prop := ∀ a c, s.mem a = some c → P c.val

namespace TimerState.All

variable {P : TimerData C → Prop} {s s' : TimerState C}

theorem store (h : s.All P) {p : Option Addr} {f : Timer C → Timer C}
    (hf : ∀ c, P c.val → P (f c).val) (hs : s.store p f = some s') : s'.All P := by
  cases p with
  | none => simp [TimerState.store, Heap.store] at hs
  | some a =>
    cases hc : s.mem a with
    | none => simp [TimerState.store, Heap.store, hc] at hs
    | some c =>
      rw [TimerState.store_some hc] at hs
      cases hs
      intro b d hd
      by_cases hb : b = a
      · simp only [Heap.modify, hb, Function.update_self, hc, Option.map_some, Option.some.injEq] at hd
        exact hd ▸ hf c (h a c hc)
      · simp only [Heap.modify, Function.update_of_ne hb] at hd
        exact h b d hd

/-- A write that changes the links only. -/
theorem link (h : s.All P) {p : Option Addr} {f : Timer C → Timer C} (hs : s.store p f = some s')
    (hf : ∀ c, (f c).val = c.val) : s'.All P :=
  h.store (fun c hc => by rw [hf c]; exact hc) hs

theorem listInsert (h : s.All P) {t p : Addr} {n : Option Addr} (hs : listInsert t p n s = some s') :
    s'.All P := by
  simp only [Iperf.listInsert, Option.bind_eq_bind, Option.bind_eq_some_iff] at hs
  obtain ⟨s₁, h₁, s₂, h₂, s₃, h₃, h₄⟩ := hs
  have hp₁ := h.link h₁ fun _ => rfl
  have hp₂ := hp₁.link h₂ fun _ => rfl
  have hp₃ := hp₂.link h₃ fun _ => rfl
  cases n with
  | none => exact Option.some.inj h₄ ▸ hp₃
  | some n => exact hp₃.link h₄ fun _ => rfl

theorem listAddWalk (h : s.All P) {t : Addr} {time : Timeval} {fuel : Nat} {p : Addr} {n : Option Addr}
    (hs : listAddWalk t time fuel p n s = some s') : s'.All P := by
  induction fuel generalizing p n with
  | zero => simp [Iperf.listAddWalk] at hs
  | succ fuel ih =>
    cases n with
    | none => exact h.listInsert hs
    | some n =>
      simp only [Iperf.listAddWalk, Option.bind_eq_bind, Option.bind_eq_some_iff] at hs
      obtain ⟨c, -, hs⟩ := hs
      split at hs
      · exact h.listInsert hs
      · exact ih hs

theorem listAdd (h : s.All P) {t : Addr} (hs : listAdd t s = some s') : s'.All P := by
  unfold Iperf.listAdd at hs
  cases ht : s.timers with
  | none =>
    rw [ht] at hs
    have hp : ({ s with timers := some t } : TimerState C).All P := h
    exact hp.link hs fun _ => rfl
  | some head =>
    simp only [ht, Option.bind_eq_bind, Option.bind_eq_some_iff] at hs
    obtain ⟨c, -, ch, -, hs⟩ := hs
    split at hs
    · simp only [Option.bind_eq_some_iff] at hs
      obtain ⟨s₁, h₁, s₂, h₂, s₃, h₃, hs⟩ := hs
      have hp₁ := h.link h₁ fun _ => rfl
      have hp₂ := hp₁.link h₂ fun _ => rfl
      have hp₃ := hp₂.link h₃ fun _ => rfl
      exact Option.some.inj hs ▸ hp₃
    · exact h.listAddWalk hs

theorem listRemove (h : s.All P) {t : Addr} (hs : listRemove t s = some s') : s'.All P := by
  simp only [Iperf.listRemove, Option.bind_eq_bind, Option.bind_eq_some_iff] at hs
  obtain ⟨s₁, h₁, h₂⟩ := hs
  have hp₁ : s₁.All P := by
    simp only [listRemovePrev, Option.bind_eq_bind, Option.bind_eq_some_iff] at h₁
    obtain ⟨c, -, h₁⟩ := h₁
    cases hc : c.prev with
    | none =>
      rw [hc] at h₁
      exact Option.some.inj h₁ ▸ h
    | some p =>
      rw [hc] at h₁
      exact h.link h₁ fun _ => rfl
  simp only [listRemoveNext, Option.bind_eq_bind, Option.bind_eq_some_iff] at h₂
  obtain ⟨c, -, h₂⟩ := h₂
  cases hc : c.next with
  | none =>
    rw [hc] at h₂
    exact Option.some.inj h₂ ▸ hp₁
  | some n =>
    rw [hc] at h₂
    exact hp₁.link h₂ fun _ => rfl

theorem listResort (h : s.All P) {t : Addr} (hs : listResort t s = some s') : s'.All P := by
  simp only [Iperf.listResort, Option.bind_eq_bind, Option.bind_eq_some_iff] at hs
  obtain ⟨s₁, h₁, h₂⟩ := hs
  exact (h.listRemove h₁).listAdd h₂

/-- The contents of a timer are set, and the list is sorted again. -/
theorem reschedule (h : s.All P) {t : Addr} {d : TimerData C → TimerData C}
    (hd : ∀ c, P c → P (d c)) (hs : (s.setData t d >>= Iperf.listResort t) = some s') : s'.All P := by
  simp only [Option.bind_eq_bind, Option.bind_eq_some_iff] at hs
  obtain ⟨s₁, h₁, h₂⟩ := hs
  have hp₁ : s₁.All P := h.store (fun c hc => hd c.val hc) h₁
  exact hp₁.listResort h₂

theorem tmrReset (h : s.All P) {now : Timeval} (hP : ∀ d, P d → P { d with time := addUsecs now d.usecs })
    {t : Addr} (hs : tmrReset now t s = some s') : s'.All P :=
  h.reschedule (d := fun d => { d with time := addUsecs now d.usecs }) hP hs

theorem tmrCancel (h : s.All P) {t : Addr} (hs : tmrCancel t s = some s') : s'.All P := by
  simp only [Iperf.tmrCancel, Option.bind_eq_bind, Option.bind_eq_some_iff] at hs
  obtain ⟨s₁, h₁, s₂, h₂, h₃⟩ := hs
  have hp₂ : s₂.All P := (h.listRemove h₁).link h₂ fun _ => rfl
  have hp₂' : ({ s₂ with freeTimers := some t } : TimerState C).All P := hp₂
  exact hp₂'.link h₃ fun _ => rfl

theorem tmrRunNext (h : s.All P) (hP : ∀ d, P d → P { d with time := addUsecs d.time d.usecs }) {t : Addr}
    {periodic : Bool} (hs : tmrRunNext t periodic s = some s') : s'.All P := by
  unfold Iperf.tmrRunNext at hs
  split at hs
  · exact h.reschedule (d := fun d => { d with time := addUsecs d.time d.usecs }) hP hs
  · exact h.tmrCancel hs

theorem tmrAlloc (h : s.All P) {malloc : Option Addr} {d : TimerData C} (hd : P d) {t : Option Addr}
    (hs : tmrAlloc malloc d s = some (s', t)) : s'.All P := by
  unfold Iperf.tmrAlloc at hs
  cases hf : s.freeTimers with
  | some f =>
    simp only [hf, Option.bind_eq_bind, Option.bind_eq_some_iff] at hs
    obtain ⟨c, -, s₁, h₁, hs⟩ := hs
    have hp : ({ s with freeTimers := c.next } : TimerState C).All P := h
    have hp₁ : s₁.All P := hp.store (fun _ _ => hd) h₁
    cases hs
    exact hp₁
  | none =>
    rw [hf] at hs
    cases malloc with
    | none =>
      cases hs
      exact h
    | some m =>
      cases hs
      intro a c hc
      by_cases ha : a = m
      · simp only [ha, Function.update_self, Option.some.injEq] at hc
        exact hc ▸ hd
      · simp only [Function.update_of_ne ha] at hc
        exact h a c hc

theorem tmrCreate (h : s.All P) {malloc : Option Addr} {now : Timeval} {proc : C} {usecs : Int}
    {periodic : Bool} (hnew : P ⟨proc, usecs, periodic, addUsecs now usecs⟩) {t : Option Addr}
    (hs : tmrCreate malloc now proc usecs periodic s = some (s', t)) : s'.All P := by
  simp only [Iperf.tmrCreate, Option.bind_eq_bind, Option.bind_eq_some_iff] at hs
  obtain ⟨⟨s₁, t₁⟩, h₁, hs⟩ := hs
  have hp₁ : s₁.All P := h.tmrAlloc hnew h₁
  cases t₁ with
  | none =>
    cases hs
    exact hp₁
  | some t₁ =>
    simp only [Option.bind_eq_some_iff] at hs
    obtain ⟨s₂, h₂, hs⟩ := hs
    cases hs
    exact hp₁.listAdd h₂

theorem tmrCleanupLoop (h : s.All P) {fuel : Nat} (hs : tmrCleanupLoop fuel s = some s') : s'.All P := by
  induction fuel generalizing s with
  | zero =>
    obtain ⟨-, heq⟩ := Option.ite_none_right_eq_some.1 hs
    exact Option.some.inj heq ▸ h
  | succ fuel ih =>
    rw [Iperf.tmrCleanupLoop] at hs
    cases hf : s.freeTimers with
    | none =>
      rw [hf] at hs
      exact Option.some.inj hs ▸ h
    | some t =>
      simp only [hf, Option.bind_eq_bind, Option.bind_eq_some_iff] at hs
      obtain ⟨c, -, hs⟩ := hs
      refine ih (fun a c' hc' => ?_) hs
      by_cases ha : a = t
      · simp [ha] at hc'
      · simp only [Function.update_of_ne ha] at hc'
        exact h a c' hc'

theorem tmrCleanup (h : s.All P) (hs : tmrCleanup s = some s') : s'.All P := h.tmrCleanupLoop hs

theorem tmrDestroyLoop (h : s.All P) {fuel : Nat} (hs : tmrDestroyLoop fuel s = some s') : s'.All P := by
  induction fuel generalizing s with
  | zero =>
    obtain ⟨-, heq⟩ := Option.ite_none_right_eq_some.1 hs
    exact Option.some.inj heq ▸ h
  | succ fuel ih =>
    rw [Iperf.tmrDestroyLoop] at hs
    cases ht : s.timers with
    | none =>
      rw [ht] at hs
      exact Option.some.inj hs ▸ h
    | some t =>
      simp only [ht, Option.bind_eq_bind, Option.bind_eq_some_iff] at hs
      obtain ⟨s₁, h₁, hs⟩ := hs
      exact ih (h.tmrCancel h₁) hs

theorem tmrDestroy (h : s.All P) (hs : tmrDestroy s = some s') : s'.All P := by
  simp only [Iperf.tmrDestroy, Option.bind_eq_bind, Option.bind_eq_some_iff] at hs
  obtain ⟨s₁, h₁, hs⟩ := hs
  exact (h.tmrDestroyLoop h₁).tmrCleanup hs

end TimerState.All

/-- Every timer structure in memory, on a list or not, has a procedure with the property `P`. -/
def TimerState.Procs (P : C → Prop) (s : TimerState C) : Prop := ∀ a c, s.mem a = some c → P c.val.proc

namespace TimerState.Procs

variable {P : C → Prop} {s s' : TimerState C}

theorem all (h : s.Procs P) : s.All fun d => P d.proc := h

theorem tmrReset (h : s.Procs P) {now : Timeval} {t : Addr} (hs : tmrReset now t s = some s') :
    s'.Procs P :=
  h.all.tmrReset (fun _ hd => hd) hs

theorem tmrCancel (h : s.Procs P) {t : Addr} (hs : tmrCancel t s = some s') : s'.Procs P :=
  h.all.tmrCancel hs

theorem tmrRunNext (h : s.Procs P) {t : Addr} {periodic : Bool} (hs : tmrRunNext t periodic s = some s') :
    s'.Procs P :=
  h.all.tmrRunNext (fun _ hd => hd) hs

theorem tmrCreate (h : s.Procs P) {malloc : Option Addr} {now : Timeval} {proc : C} {usecs : Int}
    {periodic : Bool} (hproc : P proc) {t : Option Addr}
    (hs : tmrCreate malloc now proc usecs periodic s = some (s', t)) : s'.Procs P :=
  h.all.tmrCreate hproc hs

end TimerState.Procs

end Iperf
