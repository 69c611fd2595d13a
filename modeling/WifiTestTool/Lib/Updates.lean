import Mathlib.Data.List.Perm.Basic

/-!
# Lists of updates

A list of updates is applied to a state one after the other, and any of them may fail: this is
`List.foldlM` in `Option`. Two rules: a field has the value that the last update of the field gave it, and
updates that are independent of each other can be applied in any order.
-/

namespace Updates

variable {σ α β : Type*} {step : σ → α → Option σ}

/-- The value that the last of the updates which set a field gives it. -/
def last (f : α → Option β) (l : List α) : Option β := (l.filterMap f).getLast?

theorem last_nil (f : α → Option β) : last f [] = none := rfl

theorem last_cons (f : α → Option β) (a : α) (l : List α) : last f (a :: l) = (last f l).or (f a) := by
  unfold last
  cases h : f a with
  | none => rw [List.filterMap_cons_none h, Option.or_none]
  | some b =>
    rw [List.filterMap_cons_some h, List.getLast?_cons]
    cases (l.filterMap f).getLast? <;> rfl

theorem last_eq_none {f : α → Option β} {l : List α} : last f l = none ↔ ∀ a ∈ l, f a = none := by
  unfold last
  rw [List.getLast?_eq_none_iff, List.filterMap_eq_nil_iff]

theorem last_map {γ : Type*} (g : β → γ) (f : α → Option β) (l : List α) :
    last (fun a => (f a).map g) l = (last f l).map g := by
  induction l with
  | nil => rfl
  | cons a l ih =>
    rw [last_cons, last_cons, ih]
    cases last f l <;> rfl

/-- Every property of all values that updates give a field holds of the last one. -/
theorem last_of_forall {f : α → Option β} {P : β → Prop} {l : List α} (h : ∀ a ∈ l, ∀ b ∈ f a, P b) :
    ∀ b ∈ last f l, P b := by
  intro b hb
  obtain ⟨a, ha, hab⟩ := List.mem_filterMap.1 (List.mem_of_getLast? hb)
  exact h a ha b hab

/-- **A field has the value that the last update of it gave it**, and without one it keeps its value. -/
theorem foldlM_last (g : σ → β) (f : α → Option β)
    (h : ∀ s a s', step s a = some s' → g s' = (f a).getD (g s)) {l : List α} {s s' : σ}
    (hs : l.foldlM step s = some s') : g s' = (last f l).getD (g s) := by
  induction l generalizing s with
  | nil =>
    rw [List.foldlM_nil] at hs
    cases hs
    rfl
  | cons a l ih =>
    rw [List.foldlM_cons] at hs
    obtain ⟨s₁, hone, hrest⟩ := Option.bind_eq_some_iff.1 hs
    rw [ih hrest, h s a s₁ hone, last_cons]
    cases last f l <;> rfl

/-- What every successful update requires holds of all updates of a list that succeeds. -/
theorem foldlM_forall {P : α → Prop} (h : ∀ s a s', step s a = some s' → P a) {l : List α} {s s' : σ}
    (hs : l.foldlM step s = some s') : ∀ a ∈ l, P a := by
  induction l generalizing s with
  | nil => simp
  | cons a l ih =>
    rw [List.foldlM_cons] at hs
    obtain ⟨s₁, hone, hrest⟩ := Option.bind_eq_some_iff.1 hs
    intro b hb
    rcases List.mem_cons.1 hb with rfl | hb
    · exact h s b s₁ hone
    · exact ih hrest b hb

/-- **Independent updates can be applied in any order.** `R` says which updates are independent; two of
them may be exchanged in the states that `I` allows for the list of updates to come. -/
theorem foldlM_perm (R : α → α → Prop) (I : List α → σ → Prop) (hR : ∀ {a b}, R a b → R b a)
    (hI : ∀ {l l' : List α} {s}, l.Perm l' → I l s → I l' s)
    (hnext : ∀ {a l s s'}, I (a :: l) s → step s a = some s' → I l s')
    (hswap : ∀ {a b l s}, I (a :: b :: l) s → R a b →
      ((step s a).bind fun s' => step s' b) = (step s b).bind fun s' => step s' a)
    {l l' : List α} (h : l.Perm l') {s : σ} (hl : l.Pairwise R) (hs : I l s) :
    l.foldlM step s = l'.foldlM step s := by
  induction h generalizing s with
  | nil => rfl
  | @cons a l l' _ ih =>
    rw [List.foldlM_cons, List.foldlM_cons]
    cases hone : step s a with
    | none => rfl
    | some s₁ => exact ih (List.Pairwise.of_cons hl) (hnext hs hone)
  | swap a b l =>
    have hba : R b a := (List.pairwise_cons.1 hl).1 a List.mem_cons_self
    have h2 : ((step s b).bind fun s' => step s' a) = (step s a).bind fun s' => step s' b := hswap hs hba
    have hgo : ∀ c d : α, (c :: d :: l).foldlM step s =
        ((step s c).bind fun s' => step s' d).bind fun s' => l.foldlM step s' := by
      intro c d
      rw [List.foldlM_cons]
      cases step s c <;> rfl
    rw [hgo, hgo, h2]
  | trans h₁ _ ih₁ ih₂ =>
    rw [ih₁ hl hs]
    exact ih₂ (h₁.pairwise hl hR) (hI h₁ hs)

end Updates
