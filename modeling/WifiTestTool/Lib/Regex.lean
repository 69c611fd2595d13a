import Mathlib.Computability.Language

/-!
# Regular expressions with classes

The regular expressions of `Mathlib` are built from single letters. Those of programs use classes of
characters, bounded repetitions and literal texts; here a class is any predicate on the letters, and the rest
is built from it.

The meaning of an expression is a `Language`; `Regex.accepts` decides it by derivatives
(`Regex.accepts_iff`).
-/

/-- Regular expressions over the letters `α`. -/
inductive Regex (α : Type*) where
  | empty
  | epsilon
  | cls (p : α → Bool)
  | alt (r s : Regex α)
  | seq (r s : Regex α)
  | star (r : Regex α)

namespace Regex

open scoped Computability

variable {α : Type*}

/-- What an expression stands for. -/
def language : Regex α → Language α
  | empty => 0
  | epsilon => 1
  | cls p => {x | ∃ a, p a = true ∧ x = [a]}
  | alt r s => r.language + s.language
  | seq r s => r.language * s.language
  | star r => r.language∗

/-! ## Derived expressions -/

/-- `r?` -/
def opt (r : Regex α) : Regex α := alt epsilon r

/-- `r` at most `n` times -/
def upTo (r : Regex α) : Nat → Regex α
  | 0 => epsilon
  | n + 1 => opt (seq r (r.upTo n))

/-- `r` at least `lo` and at most `lo + more` times -/
def times (r : Regex α) : Nat → Nat → Regex α
  | 0, more => r.upTo more
  | lo + 1, more => seq r (r.times lo more)

/-- `r{lo,hi}` -/
def between (r : Regex α) (lo hi : Nat) : Regex α := r.times lo (hi - lo)

/-- `r+` -/
def plus (r : Regex α) : Regex α := seq r (star r)

/-- A text that stands for itself. -/
def lit [DecidableEq α] : List α → Regex α
  | [] => epsilon
  | a :: as => seq (cls fun b => decide (b = a)) (lit as)

/-- One of several expressions. -/
def oneOf : List (Regex α) → Regex α
  | [] => empty
  | r :: rs => alt r (oneOf rs)

theorem mem_cls {p : α → Bool} {x : List α} : x ∈ (cls p).language ↔ ∃ a, p a = true ∧ x = [a] := Iff.rfl

theorem mem_alt {r s : Regex α} {x : List α} : x ∈ (alt r s).language ↔ x ∈ r.language ∨ x ∈ s.language :=
  Iff.rfl

theorem mem_seq {r s : Regex α} {x : List α} :
    x ∈ (seq r s).language ↔ ∃ u ∈ r.language, ∃ v ∈ s.language, u ++ v = x := Iff.rfl

theorem append_mem_seq {r s : Regex α} {u v : List α} (hu : u ∈ r.language) (hv : v ∈ s.language) :
    u ++ v ∈ (seq r s).language := ⟨u, hu, v, hv, rfl⟩

theorem cons_mem_seq {p : α → Bool} {s : Regex α} {a : α} {v : List α} (ha : p a = true) (hv : v ∈ s.language) :
    a :: v ∈ (seq (cls p) s).language := ⟨[a], ⟨a, ha, rfl⟩, v, hv, rfl⟩

theorem nil_mem_star (r : Regex α) : [] ∈ (star r).language := Language.nil_mem_kstar _

theorem append_mem_star {r : Regex α} {u v : List α} (hu : u ∈ r.language) (hv : v ∈ (star r).language) :
    u ++ v ∈ (star r).language := by
  obtain ⟨parts, rfl, hparts⟩ := Language.mem_kstar.1 hv
  refine Language.mem_kstar.2 ⟨u :: parts, rfl, ?_⟩
  intro y hy
  rcases List.mem_cons.1 hy with rfl | hy
  · exact hu
  · exact hparts y hy

theorem mem_opt {r : Regex α} {x : List α} : x ∈ r.opt.language ↔ x = [] ∨ x ∈ r.language := Iff.rfl

theorem mem_oneOf {rs : List (Regex α)} {x : List α} :
    x ∈ (oneOf rs).language ↔ ∃ r ∈ rs, x ∈ r.language := by
  induction rs with
  | nil => simp [oneOf, language]
  | cons r rs ih => rw [oneOf, mem_alt, ih, List.exists_mem_cons_iff]

theorem mem_lit [DecidableEq α] {w x : List α} : x ∈ (lit w).language ↔ x = w := by
  induction w generalizing x with
  | nil => exact Iff.rfl
  | cons a w ih =>
    rw [lit, mem_seq]
    constructor
    · rintro ⟨u, ⟨b, hb, rfl⟩, v, hv, rfl⟩
      rw [ih.1 hv, of_decide_eq_true hb]
      rfl
    · rintro rfl
      exact cons_mem_seq (decide_eq_true rfl) (ih.2 rfl)

/-- The texts of a class, repeated. -/
theorem mem_star_cls {p : α → Bool} {x : List α} : x ∈ (star (cls p)).language ↔ ∀ a ∈ x, p a = true := by
  constructor
  · intro h a ha
    obtain ⟨parts, rfl, hparts⟩ := Language.mem_kstar.1 h
    obtain ⟨part, hpart, ha⟩ := List.mem_flatten.1 ha
    obtain ⟨b, hb, rfl⟩ := hparts part hpart
    rw [List.mem_singleton] at ha
    rwa [ha]
  · intro h
    induction x with
    | nil => exact nil_mem_star _
    | cons a x ih =>
      rw [List.forall_mem_cons] at h
      exact append_mem_star (u := [a]) ⟨a, h.1, rfl⟩ (ih h.2)

theorem mem_plus_cls {p : α → Bool} {x : List α} :
    x ∈ (plus (cls p)).language ↔ x ≠ [] ∧ ∀ a ∈ x, p a = true := by
  rw [plus, mem_seq]
  constructor
  · rintro ⟨u, ⟨a, ha, rfl⟩, v, hv, rfl⟩
    refine ⟨by simp, ?_⟩
    rw [mem_star_cls] at hv
    simpa [ha] using hv
  · rintro ⟨hne, hall⟩
    cases x with
    | nil => exact absurd rfl hne
    | cons a x =>
      rw [List.forall_mem_cons] at hall
      exact ⟨[a], ⟨a, hall.1, rfl⟩, x, mem_star_cls.2 hall.2, rfl⟩

theorem mem_upTo_cls {p : α → Bool} {n : Nat} {x : List α} (hall : ∀ a ∈ x, p a = true) (hlen : x.length ≤ n) :
    x ∈ ((cls p).upTo n).language := by
  induction n generalizing x with
  | zero =>
    have hnil : x = [] := List.length_eq_zero_iff.1 (Nat.le_zero.1 hlen)
    exact hnil
  | succ n ih =>
    cases x with
    | nil => exact .inl rfl
    | cons a x =>
      rw [List.forall_mem_cons] at hall
      exact .inr (cons_mem_seq hall.1 (ih hall.2 (Nat.le_of_succ_le_succ hlen)))

theorem mem_times_cls {p : α → Bool} {lo more : Nat} {x : List α} (hall : ∀ a ∈ x, p a = true)
    (hlo : lo ≤ x.length) (hhi : x.length ≤ lo + more) : x ∈ ((cls p).times lo more).language := by
  induction lo generalizing x with
  | zero => exact mem_upTo_cls hall (by omega)
  | succ lo ih =>
    cases x with
    | nil => simp at hlo
    | cons a x =>
      rw [List.forall_mem_cons] at hall
      rw [List.length_cons] at hlo hhi
      exact cons_mem_seq hall.1 (ih hall.2 (by omega) (by omega))

/-- A text of a class with a length in the bounds. -/
theorem mem_between_cls {p : α → Bool} {lo hi : Nat} {x : List α} (hall : ∀ a ∈ x, p a = true)
    (hlo : lo ≤ x.length) (hhi : x.length ≤ hi) : x ∈ ((cls p).between lo hi).language :=
  mem_times_cls hall hlo (by omega)

/-! ## The letters of an expression -/

/-- All classes of the expression are within `p`. -/
def Only (p : α → Prop) : Regex α → Prop
  | empty => True
  | epsilon => True
  | cls q => ∀ a, q a = true → p a
  | alt r s => r.Only p ∧ s.Only p
  | seq r s => r.Only p ∧ s.Only p
  | star r => r.Only p

theorem Only.forall_mem {p : α → Prop} {r : Regex α} (h : r.Only p) {x : List α} (hx : x ∈ r.language) :
    ∀ a ∈ x, p a := by
  induction r generalizing x with
  | empty => exact absurd hx (Language.notMem_zero x)
  | epsilon =>
    rw [(Language.mem_one x).1 hx]
    simp
  | cls q =>
    obtain ⟨a, ha, rfl⟩ := hx
    intro b hb
    rw [List.mem_singleton] at hb
    rw [hb]
    exact h a ha
  | alt r s ihr ihs =>
    rcases mem_alt.1 hx with hx | hx
    · exact ihr h.1 hx
    · exact ihs h.2 hx
  | seq r s ihr ihs =>
    obtain ⟨u, hu, v, hv, rfl⟩ := mem_seq.1 hx
    intro a ha
    rcases List.mem_append.1 ha with ha | ha
    · exact ihr h.1 hu a ha
    · exact ihs h.2 hv a ha
  | star r ih =>
    obtain ⟨parts, rfl, hparts⟩ := Language.mem_kstar.1 hx
    intro a ha
    obtain ⟨part, hpart, ha⟩ := List.mem_flatten.1 ha
    exact ih h (hparts part hpart) a ha

theorem Only.upTo {p : α → Prop} {r : Regex α} (h : r.Only p) (n : Nat) : (r.upTo n).Only p := by
  induction n with
  | zero => trivial
  | succ n ih => exact ⟨trivial, h, ih⟩

theorem Only.times {p : α → Prop} {r : Regex α} (h : r.Only p) (lo more : Nat) : (r.times lo more).Only p := by
  induction lo with
  | zero => exact h.upTo more
  | succ lo ih => exact ⟨h, ih⟩

theorem Only.between {p : α → Prop} {r : Regex α} (h : r.Only p) (lo hi : Nat) : (r.between lo hi).Only p :=
  h.times lo (hi - lo)

/-! ## Deciding -/

/-- Does the expression stand for the empty text? -/
def nullable : Regex α → Bool
  | empty => false
  | epsilon => true
  | cls _ => false
  | alt r s => r.nullable || s.nullable
  | seq r s => r.nullable && s.nullable
  | star _ => true

theorem nullable_iff (r : Regex α) : r.nullable = true ↔ [] ∈ r.language := by
  induction r with
  | empty => simp [nullable, language]
  | epsilon => simp [nullable, language]
  | cls p => simp [nullable, mem_cls]
  | alt r s ihr ihs => rw [nullable, Bool.or_eq_true, ihr, ihs, mem_alt]
  | seq r s ihr ihs =>
    rw [nullable, Bool.and_eq_true, ihr, ihs, mem_seq]
    constructor
    · rintro ⟨hr, hs⟩
      exact ⟨[], hr, [], hs, rfl⟩
    · rintro ⟨u, hu, v, hv, huv⟩
      obtain ⟨rfl, rfl⟩ := List.append_eq_nil_iff.1 huv
      exact ⟨hu, hv⟩
  | star r => simp [nullable, nil_mem_star]

/-- Alternation, without a part that stands for nothing. -/
def either : Regex α → Regex α → Regex α
  | empty, s => s
  | r, empty => r
  | r, s => alt r s

/-- Concatenation, with nothing where a part stands for nothing. -/
def andThen : Regex α → Regex α → Regex α
  | empty, _ => empty
  | epsilon, s => s
  | r, s => seq r s

theorem mem_either {r s : Regex α} {x : List α} :
    x ∈ (either r s).language ↔ x ∈ r.language ∨ x ∈ s.language := by
  have hempty : x ∉ (empty : Regex α).language := Language.notMem_zero x
  unfold either
  split
  · simp [hempty]
  · simp [hempty]
  · exact mem_alt

theorem mem_andThen {r s : Regex α} {x : List α} : x ∈ (andThen r s).language ↔ x ∈ (seq r s).language := by
  unfold andThen
  split
  · simp [language]
  · simp [language]
  · exact Iff.rfl

/-- The texts that continue `a` in the expression. -/
def deriv (a : α) : Regex α → Regex α
  | empty => empty
  | epsilon => empty
  | cls p => if p a then epsilon else empty
  | alt r s => either (r.deriv a) (s.deriv a)
  | seq r s => if r.nullable then either (andThen (r.deriv a) s) (s.deriv a) else andThen (r.deriv a) s
  | star r => andThen (r.deriv a) (star r)

/-- A text that begins with `a`, cut in two. -/
theorem cons_mem_seq_iff {r s : Regex α} {a : α} {x : List α} :
    a :: x ∈ (seq r s).language ↔
      (∃ u v, a :: u ∈ r.language ∧ v ∈ s.language ∧ u ++ v = x) ∨
        ([] ∈ r.language ∧ a :: x ∈ s.language) := by
  rw [mem_seq]
  constructor
  · rintro ⟨u, hu, v, hv, huv⟩
    cases u with
    | nil =>
      rw [List.nil_append] at huv
      exact .inr ⟨hu, huv ▸ hv⟩
    | cons b u =>
      rw [List.cons_append, List.cons.injEq] at huv
      obtain ⟨rfl, rfl⟩ := huv
      exact .inl ⟨u, v, hu, hv, rfl⟩
  · rintro (⟨u, v, hu, hv, rfl⟩ | ⟨hnil, hs⟩)
    · exact ⟨a :: u, hu, v, hv, rfl⟩
    · exact ⟨[], hnil, a :: x, hs, rfl⟩

/-- A repetition that begins with `a`: its first part that is not empty does. -/
theorem cons_mem_star_iff {r : Regex α} {a : α} {x : List α} :
    a :: x ∈ (star r).language ↔ ∃ u v, a :: u ∈ r.language ∧ v ∈ (star r).language ∧ u ++ v = x := by
  constructor
  · intro h
    obtain ⟨parts, hx, hparts⟩ := Language.mem_kstar_iff_exists_nonempty.1 h
    cases parts with
    | nil => simp at hx
    | cons part parts =>
      rw [List.forall_mem_cons] at hparts
      obtain ⟨⟨hpart, hne⟩, hrest⟩ := hparts
      cases part with
      | nil => exact absurd rfl hne
      | cons b u =>
        rw [List.flatten_cons, List.cons_append, List.cons.injEq] at hx
        obtain ⟨rfl, rfl⟩ := hx
        exact ⟨u, parts.flatten, hpart, Language.join_mem_kstar fun y hy => (hrest y hy).1, rfl⟩
  · rintro ⟨u, v, hu, hv, rfl⟩
    exact append_mem_star hu hv

theorem mem_deriv {r : Regex α} {a : α} {x : List α} : x ∈ (r.deriv a).language ↔ a :: x ∈ r.language := by
  induction r generalizing x with
  | empty => simp [deriv, language]
  | epsilon => simp [deriv, language]
  | cls p =>
    rw [deriv, mem_cls]
    by_cases hp : p a = true
    · rw [if_pos hp]
      constructor
      · intro hx
        rw [(Language.mem_one x).1 hx]
        exact ⟨a, hp, rfl⟩
      · rintro ⟨b, -, hb⟩
        rw [List.cons.injEq] at hb
        exact hb.2
    · rw [if_neg hp]
      constructor
      · intro hx
        exact absurd hx (Language.notMem_zero x)
      · rintro ⟨b, hb, hab⟩
        rw [List.cons.injEq] at hab
        rw [← hab.1] at hb
        exact absurd hb hp
  | alt r s ihr ihs => rw [deriv, mem_either, ihr, ihs, mem_alt]
  | seq r s ihr ihs =>
    have hfirst : x ∈ (andThen (r.deriv a) s).language ↔
        ∃ u v, a :: u ∈ r.language ∧ v ∈ s.language ∧ u ++ v = x := by
      rw [mem_andThen, mem_seq]
      constructor
      · rintro ⟨u, hu, v, hv, huv⟩
        exact ⟨u, v, ihr.1 hu, hv, huv⟩
      · rintro ⟨u, v, hu, hv, huv⟩
        exact ⟨u, ihr.2 hu, v, hv, huv⟩
    rw [deriv, cons_mem_seq_iff, ← nullable_iff]
    by_cases hr : r.nullable = true
    · rw [if_pos hr, mem_either, hfirst, ihs]
      simp [hr]
    · rw [if_neg hr, hfirst]
      simp [hr]
  | star r ih =>
    rw [deriv, mem_andThen, mem_seq, cons_mem_star_iff]
    constructor
    · rintro ⟨u, hu, v, hv, huv⟩
      exact ⟨u, v, ih.1 hu, hv, huv⟩
    · rintro ⟨u, v, hu, hv, huv⟩
      exact ⟨u, ih.2 hu, v, hv, huv⟩

/-- Does the expression stand for the text? -/
def accepts (r : Regex α) : List α → Bool
  | [] => r.nullable
  | a :: x => (r.deriv a).accepts x

/-- **Deciding is right.** -/
theorem accepts_iff {r : Regex α} {x : List α} : r.accepts x = true ↔ x ∈ r.language := by
  induction x generalizing r with
  | nil => exact r.nullable_iff
  | cons a x ih => rw [accepts, ih, mem_deriv]

end Regex
