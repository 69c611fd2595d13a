import Mathlib.Data.List.Nodup
import Mathlib.Data.List.Sort
import Mathlib.Data.Prod.Lex
import Mathlib.Order.Lattice

/-!
# Insertion behind ties

`List.orderedInsert` with the *strict* order of a key inserts an element before the first element
with a greater key, that is, behind all elements with the same key. For a list sorted by that key
this keeps the list sorted, and it cuts the list in the elements up to the new key and those after
it. `[a, b].Sublist l` says that `b` comes after `a`.
-/

namespace StableInsert

variable {α κ : Type} [LinearOrder κ]

/-- Insert `a` into `l`, behind all elements whose key is not greater. -/
def insertBy (f : α → κ) (a : α) (l : List α) : List α :=
  l.orderedInsert (fun x y => f x < f y) a

variable {f : α → κ} {a : α} {l : List α}

@[simp] theorem insertBy_nil : insertBy f a [] = [a] := rfl

theorem insertBy_cons (b : α) :
    insertBy f a (b :: l) = if f a < f b then a :: b :: l else b :: insertBy f a l := rfl

theorem insertBy_cons_of_lt {b : α} (h : f a < f b) : insertBy f a (b :: l) = a :: b :: l := by
  rw [insertBy_cons, if_pos h]

theorem insertBy_cons_of_le {b : α} (h : f b ≤ f a) :
    insertBy f a (b :: l) = b :: insertBy f a l := by
  rw [insertBy_cons, if_neg (not_lt.2 h)]

theorem perm_insertBy : (insertBy f a l).Perm (a :: l) :=
  List.perm_orderedInsert _ a l

@[simp] theorem mem_insertBy {x : α} : x ∈ insertBy f a l ↔ x = a ∨ x ∈ l := by
  rw [perm_insertBy.mem_iff, List.mem_cons]

/-- The insertion point in front of a list of greater keys. -/
theorem insertBy_of_lt (h : ∀ x ∈ l, f a < f x) : insertBy f a l = a :: l := by
  cases l with
  | nil => rfl
  | cons b l => exact insertBy_cons_of_lt (h b (by simp))

/-- Insertion passes over all elements whose key is not greater. -/
theorem insertBy_append {l₁ l₂ : List α} (h : ∀ x ∈ l₁, f x ≤ f a) :
    insertBy f a (l₁ ++ l₂) = l₁ ++ insertBy f a l₂ := by
  induction l₁ with
  | nil => rfl
  | cons b l ih =>
    rw [List.cons_append, insertBy_cons_of_le (h b (by simp)), ih fun x hx => h x (by simp [hx]),
      List.cons_append]

/-- A sorted list is cut by the insertion of `a`: not greater keys before it, greater keys after. -/
theorem insertBy_split (hl : l.Pairwise fun x y => f x ≤ f y) :
    ∃ l₁ l₂, l = l₁ ++ l₂ ∧ insertBy f a l = l₁ ++ a :: l₂ ∧ (∀ x ∈ l₁, f x ≤ f a) ∧
      ∀ x ∈ l₂, f a < f x := by
  induction l with
  | nil => exact ⟨[], [], rfl, rfl, by simp, by simp⟩
  | cons b l ih =>
    obtain ⟨hb, hl⟩ := List.pairwise_cons.1 hl
    by_cases h : f a < f b
    · refine ⟨[], b :: l, rfl, insertBy_cons_of_lt h, by simp, fun x hx => ?_⟩
      rcases List.mem_cons.1 hx with rfl | hx
      · exact h
      · exact h.trans_le (hb x hx)
    · obtain ⟨l₁, l₂, rfl, hins, h₁, h₂⟩ := ih hl
      refine ⟨b :: l₁, l₂, rfl, ?_, fun x hx => ?_, h₂⟩
      · rw [insertBy_cons_of_le (not_lt.1 h), hins, List.cons_append]
      · rcases List.mem_cons.1 hx with rfl | hx
        · exact not_lt.1 h
        · exact h₁ x hx

/-- Insertion keeps a list sorted. -/
theorem pairwise_insertBy (hl : l.Pairwise fun x y => f x ≤ f y) :
    (insertBy f a l).Pairwise fun x y => f x ≤ f y := by
  obtain ⟨l₁, l₂, rfl, hins, h₁, h₂⟩ := insertBy_split (a := a) hl
  obtain ⟨hp₁, hp₂, hp⟩ := List.pairwise_append.1 hl
  rw [hins]
  refine List.pairwise_append.2 ⟨hp₁, List.pairwise_cons.2 ⟨fun x hx => (h₂ x hx).le, hp₂⟩, ?_⟩
  intro x hx y hy
  rcases List.mem_cons.1 hy with rfl | hy
  · exact h₁ x hx
  · exact hp x hx y hy

/-- Insertion keeps ties in the order `n` of insertion, when the new element is the last one inserted. -/
theorem pairwise_insertBy_lex {n : α → ℕ} (hl : l.Pairwise fun x y => toLex (f x, n x) < toLex (f y, n y))
    (hn : ∀ x ∈ l, n x < n a) :
    (insertBy f a l).Pairwise fun x y => toLex (f x, n x) < toLex (f y, n y) := by
  have hsorted : l.Pairwise fun x y => f x ≤ f y := hl.imp fun {x y} h => by
    rcases Prod.Lex.toLex_lt_toLex.1 h with h | h
    · exact h.le
    · exact h.1.le
  obtain ⟨l₁, l₂, rfl, hins, h₁, h₂⟩ := insertBy_split (a := a) hsorted
  obtain ⟨hp₁, hp₂, hp⟩ := List.pairwise_append.1 hl
  rw [hins]
  refine List.pairwise_append.2 ⟨hp₁, List.pairwise_cons.2 ⟨fun x hx => ?_, hp₂⟩, ?_⟩
  · exact Prod.Lex.toLex_lt_toLex.2 (.inl (h₂ x hx))
  · intro x hx y hy
    rcases List.mem_cons.1 hy with rfl | hy
    · rcases (h₁ x hx).lt_or_eq with hlt | heq
      · exact Prod.Lex.toLex_lt_toLex.2 (.inl hlt)
      · exact Prod.Lex.toLex_lt_toLex.2 (.inr ⟨heq, hn x (by simp [hx])⟩)
    · exact hp x hx y hy

/-! ## The order of two elements -/

section Order

/-- What comes after an element of a list without duplicates. -/
theorem pair_sublist_iff {l₁ l₂ : List α} {a b : α} (hnd : (l₁ ++ a :: l₂).Nodup) :
    [a, b].Sublist (l₁ ++ a :: l₂) ↔ b ∈ l₂ := by
  constructor
  · intro h
    obtain ⟨m₁, m₂, heq, h₁, h₂⟩ := List.sublist_append_iff.1 h
    have ha : a ∉ l₁ := by
      intro ha
      exact (List.nodup_append.1 hnd).2.2 a ha a (List.mem_cons_self ..) rfl
    cases m₁ with
    | nil =>
      rw [List.nil_append] at heq
      subst heq
      exact List.singleton_sublist.1 (List.cons_sublist_cons.1 h₂)
    | cons c m₁ =>
      rw [List.cons_append, List.cons.injEq] at heq
      exact absurd (h₁.subset (heq.1 ▸ List.mem_cons_self ..)) ha
  · intro h
    exact ((List.singleton_sublist.2 h).cons_cons a).trans (List.sublist_append_right ..)

/-- What comes after an element of the second part is in the second part. -/
theorem pair_sublist_of_append {l₁ l₂ : List α} {a b : α} (hnd : (l₁ ++ l₂).Nodup) (ha : a ∈ l₂)
    (h : [a, b].Sublist (l₁ ++ l₂)) : [a, b].Sublist l₂ := by
  obtain ⟨m₁, m₂, rfl⟩ := List.append_of_mem ha
  rw [← List.append_assoc] at hnd h
  have hb := (pair_sublist_iff hnd).1 h
  exact ((List.singleton_sublist.2 hb).cons_cons a).trans (List.sublist_append_right ..)

/-- Two elements come in one order or the other. -/
theorem pair_sublist_or {a b : α} (ha : a ∈ l) (hb : b ∈ l) (hab : a ≠ b) :
    [a, b].Sublist l ∨ [b, a].Sublist l := by
  obtain ⟨l₁, l₂, rfl⟩ := List.append_of_mem ha
  rcases List.mem_append.1 hb with hb | hb
  · right
    exact (List.singleton_sublist.2 hb).append ((List.nil_sublist l₂).cons_cons a)
  · rcases List.mem_cons.1 hb with rfl | hb
    · exact absurd rfl hab
    · left
      exact ((List.singleton_sublist.2 hb).cons_cons a).trans (List.sublist_append_right ..)

/-- They do not come in both orders. -/
theorem pair_sublist_asymm {a b : α} (hnd : l.Nodup) (hab : [a, b].Sublist l) : ¬ [b, a].Sublist l := by
  intro hba
  obtain ⟨l₁, l₂, rfl⟩ := List.append_of_mem (hab.mem (List.mem_cons_self ..))
  have hb := (pair_sublist_iff hnd).1 hab
  obtain ⟨m₁, m₂, rfl⟩ := List.append_of_mem hb
  have hnd' : ((l₁ ++ a :: m₁) ++ b :: m₂).Nodup := by simpa using hnd
  have ha : a ∈ m₂ := (pair_sublist_iff hnd').1 (by simpa using hba)
  rw [List.nodup_append] at hnd'
  exact hnd'.2.2 a (by simp) a (List.mem_cons_of_mem _ ha) rfl

/-- Another element does not matter. -/
theorem pair_sublist_erase {l₁ l₂ : List α} {a b u : α} (ha : a ≠ u) (hb : b ≠ u) :
    [a, b].Sublist (l₁ ++ u :: l₂) ↔ [a, b].Sublist (l₁ ++ l₂) := by
  classical
  constructor
  · intro h
    have hf := h.filter (fun x => decide (x ≠ u))
    have hfrom : ([a, b].filter fun x => decide (x ≠ u)) = [a, b] := by simp [ha, hb]
    rw [hfrom, List.filter_append, List.filter_cons_of_neg (by simp), ← List.filter_append] at hf
    exact hf.trans List.filter_sublist
  · intro h
    exact h.trans ((List.sublist_cons_self u l₂).append_left l₁)

/-- A new place for `u` leaves the order of the others. -/
theorem pair_sublist_insertBy {l₁ l₂ : List α} {a b u : α}
    (hl : (l₁ ++ l₂).Pairwise fun x y => f x ≤ f y) (ha : a ≠ u) (hb : b ≠ u) :
    [a, b].Sublist (insertBy f u (l₁ ++ l₂)) ↔ [a, b].Sublist (l₁ ++ u :: l₂) := by
  obtain ⟨m₁, m₂, hm, hins, -, -⟩ := insertBy_split (a := u) hl
  rw [hins, pair_sublist_erase ha hb, pair_sublist_erase ha hb, hm]

/-- A new element leaves the order of the others. -/
theorem pair_sublist_insertBy_new {a b u : α} (hl : l.Pairwise fun x y => f x ≤ f y) (ha : a ≠ u) (hb : b ≠ u) :
    [a, b].Sublist (insertBy f u l) ↔ [a, b].Sublist l := by
  obtain ⟨m₁, m₂, rfl, hins, -, -⟩ := insertBy_split (a := u) hl
  rw [hins, pair_sublist_erase ha hb]

/-- The place of `u`. -/
theorem pair_sublist_insertBy_self {x u : α}
    (hl : l.Pairwise fun x y => f x ≤ f y) (hnd : (u :: l).Nodup) (hx : x ∈ l) :
    [u, x].Sublist (insertBy f u l) ↔ f u < f x := by
  obtain ⟨m₁, m₂, hm, hins, h₁, h₂⟩ := insertBy_split (a := u) hl
  have hnd' : (m₁ ++ u :: m₂).Nodup := by
    rw [← hins]
    exact perm_insertBy.nodup_iff.2 hnd
  rw [hins, pair_sublist_iff hnd']
  constructor
  · exact h₂ x
  · intro hlt
    rw [hm, List.mem_append] at hx
    rcases hx with hx | hx
    · exact absurd (h₁ x hx) (not_le.2 hlt)
    · exact hx

end Order

end StableInsert
