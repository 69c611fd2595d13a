import WifiTestTool.Lib.Frame

/-!
# Programs that keep notes

A program `p` with the memory `σ × τ` keeps notes in `τ` for a program `q` with the memory `σ` (`Prog.Noting p q`): it
does what `q` does, and between that it changes the notes. The two have the same runs, up to the notes
(`Prog.Noting.returns_iff`), so what a program calls can be noted without a change of the program.
-/

namespace Reactive.Prog

variable {σ τ ρ η : Type} {Ans : ρ → Type} {α β : Type}

/-! ## What holds all the time -/

/-- The contract by which `P` holds of the memory all the time. -/
def keeping (P : σ → Prop) : Contract σ Ans η Unit := { free with inv := fun s _ => P s }

/-- What is kept all the time holds at every point of a run. -/
theorem Safe.kept {P : σ → Prop} {Q : α → σ → Unit → Prop} {p : Prog σ Ans η α} {s : σ}
    (h : p.Safe (keeping P) Q s ()) (hs : P s) {c : Prog σ Ans η α × σ × Unit} (hr : Reach free (p, s, ()) c) :
    P c.2.1 := by
  have hreach : Reach (keeping P) (p, s, ()) c := by
    refine Relation.ReflTransGen.mono ?_ _ _ hr
    intro c c' hstep
    cases hstep with
    | read => exact .read
    | write => exact .write
    | call a ha => exact .call a ha
  exact h.inv_reach hs (fun _ _ _ _ _ _ hi => hi) hreach

/-! ## A memory that holds more -/

/-- The program in a memory that also holds a `τ`. -/
def beside (τ : Type) : Prog σ Ans η α → Prog (σ × τ) Ans η α
  | ret a => ret a
  | read k => read fun s => (k s.1).beside τ
  | write f k => write (fun s => (f s.1, s.2)) (k.beside τ)
  | call r k => call r fun a => (k a).beside τ
  | halt h => halt h

/-- The program leaves it alone. -/
theorem Safe.beside {P : τ → Prop} {Q : α → σ → Unit → Prop} {p : Prog σ Ans η α} {s : σ} {t : τ}
    (h : p.Safe free Q s ()) (ht : P t) :
    (p.beside τ).Safe (keeping fun s => P s.2) (fun a s' _ => Q a s'.1 () ∧ s'.2 = t) (s, t) () := by
  induction p generalizing s with
  | ret a => exact ⟨h, rfl⟩
  | read k ih => exact ih s h
  | write f k ih => exact ⟨ht, ih h.2⟩
  | call r k ih => exact ⟨trivial, fun a _ => ih a (h.2 a trivial)⟩
  | halt h' => exact trivial

/-! ## Runs, step by step -/

section Steps

variable {s s' : σ} {a : α}

theorem returns_ret {b : α} : Returns (ret b : Prog σ Ans η α) s a s' ↔ b = a ∧ s = s' := by
  constructor
  · intro h
    rcases h.cases_head with heq | ⟨c, hstep, -⟩
    · cases heq
      exact ⟨rfl, rfl⟩
    · cases hstep
  · rintro ⟨rfl, rfl⟩
    exact .refl

theorem returns_read {k : σ → Prog σ Ans η α} : Returns (read k) s a s' ↔ Returns (k s) s a s' := by
  constructor
  · intro h
    rcases h.cases_head with heq | ⟨c, hstep, h⟩
    · cases heq
    · cases hstep
      exact h
  · exact fun h => .head .read h

theorem returns_write {f : σ → σ} {k : Prog σ Ans η α} : Returns (write f k) s a s' ↔ Returns k (f s) a s' := by
  constructor
  · intro h
    rcases h.cases_head with heq | ⟨c, hstep, h⟩
    · cases heq
    · cases hstep
      exact h
  · exact fun h => .head .write h

theorem returns_call {r : ρ} {k : Ans r → Prog σ Ans η α} :
    Returns (call r k) s a s' ↔ ∃ b, Returns (k b) s a s' := by
  constructor
  · intro h
    rcases h.cases_head with heq | ⟨c, hstep, h⟩
    · cases heq
    · cases hstep with
      | call b => exact ⟨b, h⟩
  · rintro ⟨b, h⟩
    exact .head (.call b trivial) h

theorem not_returns_halt {h : η} : ¬ Returns (halt h : Prog σ Ans η α) s a s' := by
  intro hr
  rcases hr.cases_head with heq | ⟨c, hstep, -⟩
  · cases heq
  · cases hstep

end Steps

/-! ## Notes -/

/-- The program `p` does what `q` does, and keeps notes. -/
inductive Noting : Prog (σ × τ) Ans η α → Prog σ Ans η α → Prop where
  | ret (a : α) : Noting (ret a) (ret a)
  | read {k : σ × τ → Prog (σ × τ) Ans η α} {k' : σ → Prog σ Ans η α} (hk : ∀ s, Noting (k s) (k' s.1)) :
      Noting (read k) (read k')
  | write {f : σ × τ → σ × τ} {f' : σ → σ} {k : Prog (σ × τ) Ans η α} {k' : Prog σ Ans η α}
      (hf : ∀ s, (f s).1 = f' s.1) (hk : Noting k k') : Noting (write f k) (write f' k')
  | note {f : σ × τ → σ × τ} {k : Prog (σ × τ) Ans η α} {q : Prog σ Ans η α} (hf : ∀ s, (f s).1 = s.1)
      (hk : Noting k q) : Noting (write f k) q
  | call {r : ρ} {k : Ans r → Prog (σ × τ) Ans η α} {k' : Ans r → Prog σ Ans η α} (hk : ∀ a, Noting (k a) (k' a)) :
      Noting (call r k) (call r k')
  | halt (h : η) : Noting (halt h) (halt h)

namespace Noting

theorem bind {p : Prog (σ × τ) Ans η α} {q : Prog σ Ans η α} {f : α → Prog (σ × τ) Ans η β}
    {f' : α → Prog σ Ans η β} (h : Noting p q) (hf : ∀ a, Noting (f a) (f' a)) : Noting (p >>= f) (q >>= f') := by
  induction h with
  | ret a => exact hf a
  | read _ ih => exact .read ih
  | write hg _ ih => exact .write hg ih
  | note hg _ ih => exact .note hg ih
  | call _ ih => exact .call ih
  | halt h => exact .halt h

theorem beside (q : Prog σ Ans η α) : Noting (q.beside τ) q := by
  induction q with
  | ret a => exact .ret a
  | read k ih => exact .read fun s => ih s.1
  | write f k ih => exact .write (fun _ => rfl) ih
  | call r k ih => exact .call ih
  | halt h => exact .halt h

/-- A note before `q`. -/
theorem noted {f : σ × τ → σ × τ} {p : Prog (σ × τ) Ans η α} {q : Prog σ Ans η α} (hf : ∀ s, (f s).1 = s.1)
    (h : Noting p q) : Noting (modify f >>= fun _ => p) q := .note hf h

/-- With and without notes, a program returns the same. -/
theorem returns_iff {p : Prog (σ × τ) Ans η α} {q : Prog σ Ans η α} (h : Noting p q) {s s' : σ} {t : τ} {a : α} :
    Returns q s a s' ↔ ∃ t', Returns p (s, t) a (s', t') := by
  induction h generalizing s t with
  | ret b => simp [returns_ret]
  | read _ ih =>
    simp only [returns_read]
    exact ih (s, t)
  | write hf _ ih =>
    simp only [returns_write]
    rw [← hf (s, t)]
    exact ih
  | @note f k q hf _ ih =>
    have hsplit : f (s, t) = (s, (f (s, t)).2) := Prod.ext (hf (s, t)) rfl
    simp only [returns_write]
    rw [hsplit]
    exact ih
  | call _ ih =>
    simp only [returns_call]
    rw [exists_comm]
    exact exists_congr fun b => ih b
  | halt h => exact ⟨fun hr => absurd hr not_returns_halt, fun ⟨_, hr⟩ => absurd hr not_returns_halt⟩

end Noting

end Reactive.Prog
