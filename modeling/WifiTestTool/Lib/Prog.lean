import Mathlib.Logic.Relation

/-!
# Programs that make requests to their environment

A C function that calls the operating system is a program with a memory of its own that, from time
to time, asks the environment for an answer (the result of a system call) and continues with it.
`Prog σ Ans η α` is the free such program with memory `σ`, requests `r` with answers in `Ans r`, and
ways `η` to stop for good; the code is written in it with `do`-notation, and it does not fix what the
environment answers.

What the environment may answer, what an observer records of a run, and what the program owes at
each point are the three parts of a `Contract`. `Prog.Safe` computes, by recursion over the program,
what has to be shown for the program to keep its contract whatever the environment does within its
own part of it; `Prog.Safe.reach` says that this is indeed what holds along every run.
-/

namespace Reactive

/-- Programs that return a value of type `α`. -/
inductive Prog (σ : Type) {ρ : Type} (Ans : ρ → Type) (η : Type) (α : Type) : Type where
  /-- Return. -/
  | ret (a : α)
  /-- Look at the memory. -/
  | read (k : σ → Prog σ Ans η α)
  /-- Change the memory. -/
  | write (f : σ → σ) (k : Prog σ Ans η α)
  /-- Make the request `r` and continue with its answer. -/
  | call (r : ρ) (k : Ans r → Prog σ Ans η α)
  /-- Stop for good. -/
  | halt (h : η)

namespace Prog

variable {σ ρ η : Type} {Ans : ρ → Type} {α β : Type}

/-- Sequential composition. -/
def bind (p : Prog σ Ans η α) (f : α → Prog σ Ans η β) : Prog σ Ans η β :=
  match p with
  | ret a => f a
  | read k => read fun s => (k s).bind f
  | write g k => write g (k.bind f)
  | call r k => call r fun a => (k a).bind f
  | halt h => halt h

instance : Monad (Prog σ Ans η) where
  pure := ret
  bind := bind

/-- The current memory. -/
def get : Prog σ Ans η σ := read ret

/-- Apply `f` to the memory. -/
def modify (f : σ → σ) : Prog σ Ans η Unit := write f (ret ())

/-- Make a request and return its answer. -/
def ask (r : ρ) : Prog σ Ans η (Ans r) := call r ret

/-- Stop for good. -/
def stop (h : η) : Prog σ Ans η α := halt h

theorem bind_assoc {γ : Type} (p : Prog σ Ans η α) (f : α → Prog σ Ans η β) (k : β → Prog σ Ans η γ) :
    (p >>= f) >>= k = p >>= fun a => f a >>= k := by
  show (p.bind f).bind k = p.bind fun a => (f a).bind k
  induction p with
  | ret a => rfl
  | read r ih => exact congrArg read (funext ih)
  | write g k ih => exact congrArg (write g) ih
  | call r k ih => exact congrArg (call r) (funext ih)
  | halt h => rfl

end Prog

/-- A contract between a program and its environment, relative to an observer whose notes are of type
`G`. -/
structure Contract (σ : Type) {ρ : Type} (Ans : ρ → Type) (η : Type) (G : Type) where
  /-- The observer's notes after a request was answered. -/
  onCall : σ → G → (r : ρ) → Ans r → G
  /-- The observer's notes after the memory became the given one. -/
  onWrite : σ → G → G
  /-- The answers that the environment may give. -/
  allows : σ → G → (r : ρ) → Ans r → Prop
  /-- What the program owes when it makes a request. -/
  ok : σ → G → ρ → Prop
  /-- What the program owes after it has changed its memory. -/
  inv : σ → G → Prop
  /-- The ways in which the program may stop for good. -/
  mayHalt : σ → G → η → Prop

namespace Prog

variable {σ ρ η : Type} {Ans : ρ → Type} {G : Type} {α β : Type}

/-- The program `p`, started in memory `s` with the observer's notes `g`, keeps the contract `K`,
and what it returns satisfies `Q`. -/
def Safe (K : Contract σ Ans η G) (Q : α → σ → G → Prop) : Prog σ Ans η α → σ → G → Prop
  | ret a, s, g => Q a s g
  | read k, s, g => (k s).Safe K Q s g
  | write f k, s, g =>
    K.inv (f s) (K.onWrite (f s) g) ∧ k.Safe K Q (f s) (K.onWrite (f s) g)
  | call r k, s, g =>
    K.ok s g r ∧ ∀ a, K.allows s g r a → (k a).Safe K Q s (K.onCall s g r a)
  | halt h, s, g => K.mayHalt s g h

/-! ## Rules -/

section Rules

variable {K : Contract σ Ans η G} {Q Q' : α → σ → G → Prop} {s : σ} {g : G}

@[simp] theorem safe_pure (a : α) : (pure a : Prog σ Ans η α).Safe K Q s g ↔ Q a s g := Iff.rfl

@[simp] theorem safe_ret (a : α) : (ret a : Prog σ Ans η α).Safe K Q s g ↔ Q a s g := Iff.rfl

@[simp] theorem safe_get {Q : σ → σ → G → Prop} :
    (get : Prog σ Ans η σ).Safe K Q s g ↔ Q s s g := Iff.rfl

@[simp] theorem safe_modify {Q : Unit → σ → G → Prop} (f : σ → σ) :
    (modify f : Prog σ Ans η Unit).Safe K Q s g ↔
      K.inv (f s) (K.onWrite (f s) g) ∧ Q () (f s) (K.onWrite (f s) g) := Iff.rfl

@[simp] theorem safe_ask (r : ρ) {Q : Ans r → σ → G → Prop} :
    (ask r).Safe K Q s g ↔
      K.ok s g r ∧ ∀ a, K.allows s g r a → Q a s (K.onCall s g r a) := Iff.rfl

@[simp] theorem safe_stop (h : η) : (stop h : Prog σ Ans η α).Safe K Q s g ↔ K.mayHalt s g h :=
  Iff.rfl

/-- The contract of a composition: the second part starts where the first one ends. -/
@[simp] theorem safe_bind (p : Prog σ Ans η α) (f : α → Prog σ Ans η β) {Q : β → σ → G → Prop} :
    (p >>= f).Safe K Q s g ↔ p.Safe K (fun a => (f a).Safe K Q) s g := by
  show (p.bind f).Safe K Q s g ↔ _
  induction p generalizing s g with
  | ret a => rfl
  | read k ih => exact ih s
  | write f k ih => exact and_congr_right fun _ => ih
  | call r k ih => exact and_congr_right fun _ => forall₂_congr fun a _ => ih a
  | halt h => rfl

/-- Consequence: what a program returns may be weakened. -/
theorem Safe.mono {p : Prog σ Ans η α} (h : p.Safe K Q s g) (hQ : ∀ a s g, Q a s g → Q' a s g) :
    p.Safe K Q' s g := by
  induction p generalizing s g with
  | ret a => exact hQ _ _ _ h
  | read k ih => exact ih s h
  | write f k ih => exact ⟨h.1, ih h.2⟩
  | call r k ih => exact ⟨h.1, fun a ha => ih a (h.2 a ha)⟩
  | halt h' => exact h

/-- Conjunction: two specifications of a program hold together. -/
theorem Safe.and {p : Prog σ Ans η α} (h : p.Safe K Q s g) (h' : p.Safe K Q' s g) :
    p.Safe K (fun a s g => Q a s g ∧ Q' a s g) s g := by
  induction p generalizing s g with
  | ret a => exact ⟨h, h'⟩
  | read k ih => exact ih s h h'
  | write f k ih => exact ⟨h.1, ih h.2 h'.2⟩
  | call r k ih => exact ⟨h.1, fun a ha => ih a (h.2 a ha) (h'.2 a ha)⟩
  | halt _ => exact h

/-- The rule of composition in the form in which a function's specification `hp` is used. -/
theorem Safe.bind {p : Prog σ Ans η α} {f : α → Prog σ Ans η β} {Q' : β → σ → G → Prop}
    (hp : p.Safe K Q s g) (hf : ∀ a s g, Q a s g → (f a).Safe K Q' s g) :
    (p >>= f).Safe K Q' s g :=
  (safe_bind p f).2 (hp.mono hf)

end Rules

/-! ## Runs -/

/-- One step of a program: it looks at its memory, changes it, or gets an allowed answer. -/
inductive Step (K : Contract σ Ans η G) :
    Prog σ Ans η α × σ × G → Prog σ Ans η α × σ × G → Prop where
  | read {k : σ → Prog σ Ans η α} {s : σ} {g : G} : Step K (.read k, s, g) (k s, s, g)
  | write {f : σ → σ} {k : Prog σ Ans η α} {s : σ} {g : G} :
      Step K (.write f k, s, g) (k, f s, K.onWrite (f s) g)
  | call {r : ρ} {k : Ans r → Prog σ Ans η α} {s : σ} {g : G} (a : Ans r)
      (ha : K.allows s g r a) : Step K (.call r k, s, g) (k a, s, K.onCall s g r a)

/-- Any number of steps. -/
abbrev Reach (K : Contract σ Ans η G) : Prog σ Ans η α × σ × G → Prog σ Ans η α × σ × G → Prop :=
  Relation.ReflTransGen (Step K)

/-- A run of the first part is the beginning of a run of the composition. -/
theorem Reach.bind {K : Contract σ Ans η G} {p p' : Prog σ Ans η α} {s s' : σ} {g g' : G}
    (f : α → Prog σ Ans η β) (h : Reach K (p, s, g) (p', s', g')) :
    Reach K (p >>= f, s, g) (p' >>= f, s', g') := by
  suffices H : ∀ c, Reach K (p, s, g) c → Reach K (p >>= f, s, g) (c.1 >>= f, c.2.1, c.2.2) from H _ h
  intro c hc
  induction hc with
  | refl => exact .refl
  | tail _ hstep ih =>
    refine ih.tail ?_
    cases hstep with
    | read => exact .read
    | write => exact .write
    | call a ha => exact .call a ha

/-- A run that one contract allows is allowed by a contract that asks for less of the environment. -/
theorem Reach.weaken {K K' : Contract σ Ans η G} {p p' : Prog σ Ans η α} {s s' : σ} {g g' : G}
    (h : Reach K (p, s, g) (p', s', g')) (hcall : K'.onCall = K.onCall) (hwrite : K'.onWrite = K.onWrite)
    (hallows : ∀ s g r a, K.allows s g r a → K'.allows s g r a) : Reach K' (p, s, g) (p', s', g') := by
  refine Relation.ReflTransGen.mono ?_ _ _ h
  intro c c' hstep
  cases hstep with
  | read => exact .read
  | write =>
    rw [← hwrite]
    exact .write
  | call a ha =>
    rw [← hcall]
    exact .call a (hallows _ _ _ _ ha)

theorem Safe.step {K : Contract σ Ans η G} {Q : α → σ → G → Prop} {p p' : Prog σ Ans η α}
    {s s' : σ} {g g' : G} (h : p.Safe K Q s g) (hs : Step K (p, s, g) (p', s', g')) :
    p'.Safe K Q s' g' := by
  cases hs with
  | read => exact h
  | write => exact h.2
  | call a ha => exact h.2 a ha

/-- A safe program is safe at every point of every run. -/
theorem Safe.reach {K : Contract σ Ans η G} {Q : α → σ → G → Prop} {p p' : Prog σ Ans η α}
    {s s' : σ} {g g' : G} (h : p.Safe K Q s g) (hr : Reach K (p, s, g) (p', s', g')) :
    p'.Safe K Q s' g' := by
  suffices H : ∀ c, Reach K (p, s, g) c → c.1.Safe K Q c.2.1 c.2.2 from H _ hr
  intro c hc
  induction hc with
  | refl => exact h
  | tail _ hstep ih => exact ih.step hstep

/-- What a safe program returns, it returns at the end of a run. -/
theorem Safe.reached {K : Contract σ Ans η G} {Q : α → σ → G → Prop} {p : Prog σ Ans η α} {s : σ} {g : G}
    (h : p.Safe K Q s g) :
    p.Safe K (fun a s' g' => Q a s' g' ∧ Reach K (p, s, g) (.ret a, s', g')) s g := by
  induction p generalizing s g with
  | ret a => exact ⟨h, .refl⟩
  | read k ih => exact (ih s h).mono fun _ _ _ hQ => ⟨hQ.1, .head .read hQ.2⟩
  | write f k ih => exact ⟨h.1, (ih h.2).mono fun _ _ _ hQ => ⟨hQ.1, .head .write hQ.2⟩⟩
  | call r k ih =>
    exact ⟨h.1, fun a ha => (ih a (h.2 a ha)).mono fun _ _ _ hQ => ⟨hQ.1, .head (.call a ha) hQ.2⟩⟩
  | halt h' => exact h

/-- The invariant of the contract holds at every point of every run of a safe program. -/
theorem Safe.inv_reach {K : Contract σ Ans η G} {Q : α → σ → G → Prop} {p : Prog σ Ans η α}
    {s : σ} {g : G} {c : Prog σ Ans η α × σ × G} (h : p.Safe K Q s g) (hi : K.inv s g)
    (hcall : ∀ s g r a, K.ok s g r → K.allows s g r a → K.inv s g → K.inv s (K.onCall s g r a))
    (hr : Reach K (p, s, g) c) : K.inv c.2.1 c.2.2 := by
  induction hr with
  | refl => exact hi
  | tail hr hstep ih =>
    have hsafe := h.reach hr
    cases hstep with
    | read => exact ih
    | write => exact hsafe.1
    | call a ha => exact hcall _ _ _ _ hsafe.1 ha ih

/-- Run a program for a number of steps: the `i`-th request gets the answer `oracle i`. The run stops
where the contract does not allow the answer. -/
def drive (K : Contract σ Ans η G) [∀ s g r a, Decidable (K.allows s g r a)]
    (oracle : Nat → (r : ρ) → Ans r) :
    Nat → Nat → Prog σ Ans η α × σ × G → Prog σ Ans η α × σ × G
  | steps + 1, i, (read k, s, g) => drive K oracle steps i (k s, s, g)
  | steps + 1, i, (write f k, s, g) => drive K oracle steps i (k, f s, K.onWrite (f s) g)
  | steps + 1, i, (call r k, s, g) =>
    if K.allows s g r (oracle i r) then
      drive K oracle steps (i + 1) (k (oracle i r), s, K.onCall s g r (oracle i r))
    else
      (call r k, s, g)
  | _, _, c => c

theorem drive_reach (K : Contract σ Ans η G) [∀ s g r a, Decidable (K.allows s g r a)]
    (oracle : Nat → (r : ρ) → Ans r) (steps i : Nat) (c : Prog σ Ans η α × σ × G) :
    Reach K c (drive K oracle steps i c) := by
  induction steps generalizing i c with
  | zero =>
    obtain ⟨p, s, g⟩ := c
    cases p <;> exact .refl
  | succ steps ih =>
    obtain ⟨p, s, g⟩ := c
    cases p with
    | ret a => exact .refl
    | halt h => exact .refl
    | read k => exact .head .read (ih _ _)
    | write f k => exact .head .write (ih _ _)
    | call r k =>
      unfold drive
      split
      · rename_i h
        exact .head (.call _ h) (ih _ _)
      · exact .refl

/-- What the answers of the oracle keep of the notes holds at the end. -/
theorem drive_notes {K : Contract σ Ans η G} [∀ s g r a, Decidable (K.allows s g r a)]
    {oracle : Nat → (r : ρ) → Ans r} {J : G → Prop}
    (hcall : ∀ i s g r, J g → J (K.onCall s g r (oracle i r))) (hwrite : ∀ s g, J g → J (K.onWrite s g))
    (steps i : Nat) (c : Prog σ Ans η α × σ × G) (hc : J c.2.2) :
    J (drive K oracle steps i c).2.2 := by
  induction steps generalizing i c with
  | zero =>
    obtain ⟨p, s, g⟩ := c
    cases p <;> exact hc
  | succ steps ih =>
    obtain ⟨p, s, g⟩ := c
    cases p with
    | ret a => exact hc
    | halt h => exact hc
    | read k => exact ih i _ hc
    | write f k => exact ih i _ (hwrite _ _ hc)
    | call r k =>
      unfold drive
      split
      · exact ih (i + 1) _ (hcall _ _ _ _ hc)
      · exact hc

end Prog

end Reactive
