import Mathlib.Data.List.Basic

/-!
# Systems that react to events

A program that waits for events (clicks, messages, the turns of its threads) is a function `step`, which
takes a state and an event to the state after it and to what the reaction shows to the outside. It has no
value where the event cannot happen, or where it ends the program.

A run records every step it takes, so that a property of the reactions and a condition on the states they
are made in can be stated for all steps of a run.
-/

namespace Events

/-- A step that was taken. -/
structure Taken (σ ε ω : Type*) where
  before : σ
  event : ε
  output : ω
  after : σ

/-- A run of `step` that starts in one of the states `init`, with its steps and the state it leads to. -/
inductive Run {σ ε ω : Type*} (step : σ → ε → Option (σ × ω)) (init : σ → Prop) :
    List (Taken σ ε ω) → σ → Prop where
  | start {s : σ} (h : init s) : Run step init [] s
  /-- One more event. -/
  | next {steps : List (Taken σ ε ω)} {s s' : σ} {e : ε} {o : ω} (h : Run step init steps s)
      (hs : step s e = some (s', o)) : Run step init (steps ++ [⟨s, e, o, s'⟩]) s'

variable {σ ε ω : Type*} {step : σ → ε → Option (σ × ω)} {init : σ → Prop} {steps : List (Taken σ ε ω)} {s : σ}

namespace Run

/-- **The invariant rule.** What holds at the start and is kept by every step that meets the condition `C`
holds at the end of every run whose steps meet it. -/
theorem invariant_of (C : σ → ε → Prop) (I : σ → Prop) (hinit : ∀ s, init s → I s)
    (hstep : ∀ s e s' o, I s → C s e → step s e = some (s', o) → I s')
    (h : Run step init steps s) (hC : ∀ t ∈ steps, C t.before t.event) : I s := by
  induction h with
  | start h => exact hinit _ h
  | @next steps s s' e o h hs ih =>
    have hsteps : ∀ t ∈ steps, C t.before t.event := fun t ht => hC t (by simp [ht])
    have hlast : C s e := hC ⟨s, e, o, s'⟩ (by simp)
    exact hstep s e s' o (ih hsteps) hlast hs

/-- The invariant rule without a condition. -/
theorem invariant (I : σ → Prop) (hinit : ∀ s, init s → I s)
    (hstep : ∀ s e s' o, I s → step s e = some (s', o) → I s') (h : Run step init steps s) : I s :=
  h.invariant_of (fun _ _ => True) I hinit (fun s e s' o hI _ => hstep s e s' o hI) fun _ _ => trivial

/-- A step of a run is a step, and the run up to it meets the conditions that the whole run meets. -/
theorem taken (h : Run step init steps s) {t : Taken σ ε ω} (ht : t ∈ steps) :
    step t.before t.event = some (t.after, t.output) ∧
      ∃ earlier, Run step init earlier t.before ∧ earlier ⊆ steps := by
  induction h with
  | start h => simp at ht
  | @next steps s s' e o h hs ih =>
    rcases List.mem_append.1 ht with hold | hlast
    · obtain ⟨hstep, earlier, hrun, hsub⟩ := ih hold
      exact ⟨hstep, earlier, hrun, fun _ hx => List.mem_append_left _ (hsub hx)⟩
    · rw [List.mem_singleton] at hlast
      subst hlast
      exact ⟨hs, steps, h, List.subset_append_left _ _⟩

/-- The steps before a step of a run are the run up to it. -/
theorem upto {earlier later : List (Taken σ ε ω)} {t : Taken σ ε ω}
    (h : Run step init (earlier ++ t :: later) s) :
    Run step init earlier t.before ∧ step t.before t.event = some (t.after, t.output) := by
  generalize hall : earlier ++ t :: later = all at h
  induction h generalizing later with
  | start h => simp at hall
  | @next steps s s' e o h hs ih =>
    rcases List.eq_nil_or_concat later with hlater | ⟨later, u, hlater⟩
    · subst hlater
      obtain ⟨hsteps, ht⟩ := List.append_inj' hall rfl
      rw [List.cons.injEq] at ht
      obtain ⟨rfl, -⟩ := ht
      subst hsteps
      exact ⟨h, hs⟩
    · rw [hlater, List.concat_eq_append, ← List.cons_append, ← List.append_assoc] at hall
      exact ih (List.append_inj' hall rfl).1

/-- The invariant rule, for the state before a step of the run. -/
theorem invariant_before (C : σ → ε → Prop) (I : σ → Prop) (hinit : ∀ s, init s → I s)
    (hstep : ∀ s e s' o, I s → C s e → step s e = some (s', o) → I s')
    (h : Run step init steps s) (hC : ∀ t ∈ steps, C t.before t.event) {t : Taken σ ε ω} (ht : t ∈ steps) :
    I t.before := by
  obtain ⟨-, earlier, hrun, hsub⟩ := h.taken ht
  exact hrun.invariant_of C I hinit hstep fun u hu => hC u (hsub hu)

/-- A property of states which a step keeps exactly if it meets the condition `C` holds in all states of a run
exactly if all its steps meet the condition. -/
theorem forall_after_iff {P : σ → Prop} {C : σ → ε → Prop} (hinit : ∀ s, init s → P s)
    (hstep : ∀ s e s' o, P s → step s e = some (s', o) → (P s' ↔ C s e)) (h : Run step init steps s) :
    (∀ t ∈ steps, P t.after) ↔ ∀ t ∈ steps, C t.before t.event := by
  suffices hboth : ((∀ t ∈ steps, P t.after) ↔ ∀ t ∈ steps, C t.before t.event) ∧
      ((∀ t ∈ steps, P t.after) → P s) from hboth.1
  induction h with
  | start h => exact ⟨by simp, fun _ => hinit _ h⟩
  | @next steps s s' e o h hs ih =>
    obtain ⟨hiff, hlast⟩ := ih
    constructor
    · constructor
      · intro hP t ht
        have hearlier : ∀ t ∈ steps, P t.after := fun t ht => hP t (by simp [ht])
        have hs' : P s' := hP ⟨s, e, o, s'⟩ (by simp)
        rcases List.mem_append.1 ht with hold | hnew
        · exact hiff.1 hearlier t hold
        · rw [List.mem_singleton] at hnew
          subst hnew
          exact (hstep s e s' o (hlast hearlier) hs).1 hs'
      · intro hC t ht
        have hearlier : ∀ t ∈ steps, P t.after := hiff.2 fun t ht => hC t (by simp [ht])
        have hCs : C s e := hC ⟨s, e, o, s'⟩ (by simp)
        rcases List.mem_append.1 ht with hold | hnew
        · exact hearlier t hold
        · rw [List.mem_singleton] at hnew
          subst hnew
          exact (hstep s e s' o (hlast hearlier) hs).2 hCs
    · intro hP
      exact hP ⟨s, e, o, s'⟩ (by simp)

/-- Two properties of steps that agree in the states of an invariant agree on runs. -/
theorem forall_iff {P Q : Taken σ ε ω → Prop} (I : σ → Prop) (hinit : ∀ s, init s → I s)
    (hstep : ∀ s e s' o, I s → step s e = some (s', o) → I s')
    (hPQ : ∀ t : Taken σ ε ω, I t.before → step t.before t.event = some (t.after, t.output) → (P t ↔ Q t))
    (h : Run step init steps s) : (∀ t ∈ steps, P t) ↔ ∀ t ∈ steps, Q t := by
  have hone : ∀ t ∈ steps, (P t ↔ Q t) := by
    intro t ht
    obtain ⟨hs, earlier, hrun, -⟩ := h.taken ht
    exact hPQ t (hrun.invariant I hinit hstep) hs
  constructor
  · intro hP t ht
    exact (hone t ht).1 (hP t ht)
  · intro hQ t ht
    exact (hone t ht).2 (hQ t ht)

end Run

/-! ## Following a list of events -/

/-- The steps for the given events, and the state they lead to. -/
def follow (step : σ → ε → Option (σ × ω)) (s : σ) : List ε → Option (List (Taken σ ε ω) × σ)
  | [] => some ([], s)
  | e :: es =>
    match step s e with
    | none => none
    | some (s', o) => (follow step s' es).map fun r => (⟨s, e, o, s'⟩ :: r.1, r.2)

theorem follow_cons {e : ε} {es : List ε} {s₁ s₂ : σ} {o : ω} {later : List (Taken σ ε ω)}
    (h : step s e = some (s₁, o)) (hf : follow step s₁ es = some (later, s₂)) :
    follow step s (e :: es) = some (⟨s, e, o, s₁⟩ :: later, s₂) := by
  simp only [follow, h, hf, Option.map_some]

/-- Following a list of events continues a run. -/
theorem Run.follow (h : Run step init steps s) {es : List ε} {more : List (Taken σ ε ω)} {s' : σ}
    (hf : Events.follow step s es = some (more, s')) : Run step init (steps ++ more) s' := by
  induction es generalizing steps s more with
  | nil =>
    simp only [Events.follow, Option.some.injEq, Prod.mk.injEq] at hf
    obtain ⟨rfl, rfl⟩ := hf
    rwa [List.append_nil]
  | cons e es ih =>
    rw [Events.follow] at hf
    cases hs : step s e with
    | none => simp [hs] at hf
    | some r =>
      obtain ⟨s₁, o⟩ := r
      rw [hs] at hf
      cases hrest : Events.follow step s₁ es with
      | none => simp [hrest] at hf
      | some rest =>
        obtain ⟨later, s₂⟩ := rest
        simp only [hrest, Option.map_some, Option.some.injEq, Prod.mk.injEq] at hf
        obtain ⟨rfl, rfl⟩ := hf
        have hgo := ih (h.next hs) hrest
        rwa [List.append_assoc, List.singleton_append] at hgo

variable (step) in
/-- A run along a list of events, with a property that can be evaluated. -/
theorem Run.exists_of_follow (h : init s) (es : List ε) (P : List (Taken σ ε ω) × σ → Bool)
    (hP : (Events.follow step s es).any P = true) : ∃ more s', Run step init more s' ∧ P (more, s') = true := by
  cases hf : Events.follow step s es with
  | none => simp [hf] at hP
  | some r =>
    obtain ⟨more, s'⟩ := r
    have hrun := (Run.start h).follow hf
    rw [List.nil_append] at hrun
    refine ⟨more, s', hrun, ?_⟩
    rwa [hf, Option.any_some] at hP

end Events
