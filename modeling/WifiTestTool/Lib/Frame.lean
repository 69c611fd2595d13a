import WifiTestTool.Lib.Prog

/-!
# Programs that stay in an invariant

A large part of a program has nothing to do with what a contract is about. `Prog.Stays I N H p` says
so of `p`: as long as its memory satisfies `I` whenever it looks at it, it keeps `I`, makes requests in
`N` only, whatever the answers are, and stops for good only in a way in `H`. Unlike `Prog.Safe` it
does not follow the memory through the program, so it is shown function by function, and then serves
every contract in which the requests in `N` are harmless (`Prog.Stays.safe`).
-/

namespace Reactive.Prog

variable {σ ρ η : Type} {Ans : ρ → Type} {G : Type} {α β : Type}

/-- The program keeps `I`, makes requests in `N` only and stops only in a way in `H`. -/
def Stays (I : σ → Prop) (N : ρ → Prop) (H : η → Prop) : Prog σ Ans η α → Prop
  | ret _ => True
  | read k => ∀ s, I s → (k s).Stays I N H
  | write f k => (∀ s, I s → I (f s)) ∧ k.Stays I N H
  | call r k => N r ∧ ∀ a, (k a).Stays I N H
  | halt h => H h

section Rules

variable {I : σ → Prop} {N : ρ → Prop} {H : η → Prop}

@[simp] theorem stays_pure (a : α) : (pure a : Prog σ Ans η α).Stays I N H := trivial

@[simp] theorem stays_get : (get : Prog σ Ans η σ).Stays I N H := fun _ _ => trivial

@[simp] theorem stays_modify (f : σ → σ) :
    (modify f : Prog σ Ans η Unit).Stays I N H ↔ ∀ s, I s → I (f s) :=
  ⟨And.left, fun h => ⟨h, trivial⟩⟩

@[simp] theorem stays_ask (r : ρ) : (ask r : Prog σ Ans η (Ans r)).Stays I N H ↔ N r :=
  ⟨And.left, fun h => ⟨h, fun _ => trivial⟩⟩

@[simp] theorem stays_stop (h : η) : (stop h : Prog σ Ans η α).Stays I N H ↔ H h := Iff.rfl

/-- Composition. -/
theorem Stays.bind {p : Prog σ Ans η α} {f : α → Prog σ Ans η β} (hp : p.Stays I N H)
    (hf : ∀ a, (f a).Stays I N H) : (p >>= f).Stays I N H := by
  show (p.bind f).Stays I N H
  induction p with
  | ret a => exact hf a
  | read k ih => exact fun s hs => ih s (hp s hs)
  | write g k ih => exact ⟨hp.1, ih hp.2⟩
  | call r k ih => exact ⟨hp.1, fun a => ih a (hp.2 a)⟩
  | halt h => exact hp

/-- Composition with a look at the memory, which satisfies `I`. -/
theorem Stays.bind_get {f : σ → Prog σ Ans η β} (hf : ∀ s, I s → (f s).Stays I N H) :
    (get >>= f).Stays I N H := hf

/-- A conditional. -/
theorem Stays.ite {c : Prop} [Decidable c] {p q : Prog σ Ans η α} (hp : c → p.Stays I N H)
    (hq : ¬ c → q.Stays I N H) : (if c then p else q).Stays I N H := by
  split
  · exact hp ‹_›
  · exact hq ‹_›

/-- The two bounds may be weakened. -/
theorem Stays.mono {N' : ρ → Prop} {H' : η → Prop} {p : Prog σ Ans η α} (hp : p.Stays I N H)
    (hN : ∀ r, N r → N' r) (hH : ∀ h, H h → H' h) : p.Stays I N' H' := by
  induction p with
  | ret a => exact trivial
  | read k ih => exact fun s hs => ih s (hp s hs)
  | write g k ih => exact ⟨hp.1, ih hp.2⟩
  | call r k ih => exact ⟨hN _ hp.1, fun a => ih a (hp.2 a)⟩
  | halt h => exact hH _ hp

/-- A program that stays in `I` keeps a contract in which the requests in `N` are harmless: they are
allowed, and together with `I` they keep what `J` says about the observer's notes. -/
theorem Stays.safe {K : Contract σ Ans η G} {J : G → Prop} {p : Prog σ Ans η α} {s : σ} {g : G}
    (hp : p.Stays I N H) (hs : I s) (hg : J g)
    (hcall : ∀ s g r, I s → J g → N r → K.ok s g r ∧ ∀ a, K.allows s g r a → J (K.onCall s g r a))
    (hwrite : ∀ s g, I s → J g → K.inv s (K.onWrite s g) ∧ J (K.onWrite s g))
    (hhalt : ∀ s g h, I s → J g → H h → K.mayHalt s g h) :
    p.Safe K (fun _ s g => I s ∧ J g) s g := by
  induction p generalizing s g with
  | ret a => exact ⟨hs, hg⟩
  | read k ih => exact ih s (hp s hs) hs hg
  | write f k ih =>
    have hfs := hp.1 s hs
    obtain ⟨hinv, hJ⟩ := hwrite (f s) g hfs hg
    exact ⟨hinv, ih hp.2 hfs hJ⟩
  | call r k ih =>
    obtain ⟨hok, hJ⟩ := hcall s g r hs hg hp.1
    exact ⟨hok, fun a ha => ih a (hp.2 a) hs (hJ a ha)⟩
  | halt h => exact hhalt s g h hs hg hp

/-- Under a contract that asks nothing of the program, what all requests and changes of the memory keep of the
observer's notes is kept by every program. -/
theorem safe_notes {K : Contract σ Ans η G} {J : G → Prop} (hok : ∀ s g r, K.ok s g r) (hinv : ∀ s g, K.inv s g)
    (hhalt : ∀ s g h, K.mayHalt s g h) (hcall : ∀ s g r a, J g → J (K.onCall s g r a))
    (hwrite : ∀ s g, J g → J (K.onWrite s g)) (p : Prog σ Ans η α) {s : σ} {g : G} (hg : J g) :
    p.Safe K (fun _ _ g => J g) s g := by
  induction p generalizing s g with
  | ret a => exact hg
  | read k ih => exact ih s hg
  | write f k ih => exact ⟨hinv _ _, ih (hwrite _ _ hg)⟩
  | call r k ih => exact ⟨hok s g r, fun a _ => ih a (hcall s g r a hg)⟩
  | halt h => exact hhalt s g h

end Rules

/-! ## Triples -/

/-- Started where `I` holds, the program keeps the contract `K`, and `Q` holds where it returns. -/
def Triple (K : Contract σ Ans η G) (I : σ → G → Prop) (p : Prog σ Ans η α)
    (Q : α → σ → G → Prop) : Prop :=
  ∀ s g, I s g → p.Safe K Q s g

/-- Under the contract `K` the program keeps the assertion `I`, and what it returns satisfies `Q`. -/
def Keeps (K : Contract σ Ans η G) (I : σ → G → Prop) (Q : α → Prop) (p : Prog σ Ans η α) : Prop :=
  Triple K I p fun a s g => Q a ∧ I s g

section Triple

variable {K : Contract σ Ans η G} {I J : σ → G → Prop} {M : α → σ → G → Prop} {Q : β → σ → G → Prop}

theorem Triple.bind {p : Prog σ Ans η α} {f : α → Prog σ Ans η β} (hp : Triple K I p M)
    (hf : ∀ a, Triple K (M a) (f a) Q) : Triple K I (p >>= f) Q :=
  fun s g hs => (hp s g hs).bind fun a s g ha => hf a s g ha

theorem Triple.ret {b : β} (h : ∀ s g, I s g → Q b s g) :
    Triple K I (Pure.pure b : Prog σ Ans η β) Q := h

theorem Triple.ite {c : Prop} [Decidable c] {p q : Prog σ Ans η β} (hp : c → Triple K I p Q)
    (hq : ¬ c → Triple K I q Q) : Triple K I (if c then p else q) Q := by
  split
  · exact hp ‹_›
  · exact hq ‹_›

/-- A look at the memory: what follows may depend on what it is. -/
theorem Triple.get_bind {f : σ → Prog σ Ans η β}
    (hf : ∀ s, Triple K (fun s' g => s' = s ∧ I s g) (f s) Q) : Triple K I (get >>= f) Q :=
  fun s g hs => hf s s g ⟨rfl, hs⟩

/-- Consequence. -/
theorem Triple.conseq {p : Prog σ Ans η α} {M' : α → σ → G → Prop} (hp : Triple K J p M)
    (hI : ∀ s g, I s g → J s g) (hM : ∀ a s g, M a s g → M' a s g) : Triple K I p M' :=
  fun s g hs => (hp s g (hI s g hs)).mono hM

/-- A program that keeps the assertion, followed by one that starts from it. -/
theorem Triple.seq {p : Prog σ Ans η α} {R : α → Prop} {f : α → Prog σ Ans η β}
    (hp : Keeps K I R p) (hf : ∀ a, R a → Triple K I (f a) Q) : Triple K I (p >>= f) Q :=
  fun s g hs => (hp s g hs).bind fun a s g ha => hf a ha.1 s g ha.2

end Triple

section Keeps

variable {K : Contract σ Ans η G} {I : σ → G → Prop} {Q Q' : α → Prop} {R : β → Prop}

theorem Keeps.pure {a : α} (ha : Q a) : Keeps K I Q (Pure.pure a : Prog σ Ans η α) :=
  fun _ _ hs => ⟨ha, hs⟩

theorem Keeps.bind {p : Prog σ Ans η α} {f : α → Prog σ Ans η β} (hp : Keeps K I Q p)
    (hf : ∀ a, Q a → Keeps K I R (f a)) : Keeps K I R (p >>= f) :=
  fun s g hs => (hp s g hs).bind fun a s g ha => hf a ha.1 s g ha.2

theorem Keeps.mono {p : Prog σ Ans η α} (hp : Keeps K I Q p) (hQ : ∀ a, Q a → Q' a) :
    Keeps K I Q' p :=
  fun s g hs => (hp s g hs).mono fun a _ _ ha => ⟨hQ a ha.1, ha.2⟩

theorem Keeps.ite {c : Prop} [Decidable c] {p q : Prog σ Ans η α} (hp : c → Keeps K I Q p)
    (hq : ¬ c → Keeps K I Q q) : Keeps K I Q (if c then p else q) := by
  split
  · exact hp ‹_›
  · exact hq ‹_›

theorem Keeps.get_bind {f : σ → Prog σ Ans η β} (hf : ∀ s g, I s g → Keeps K I R (f s)) :
    Keeps K I R (get >>= f) :=
  fun s g hs => hf s g hs s g hs

theorem Keeps.modify {f : σ → σ}
    (hf : ∀ s g, I s g → K.inv (f s) (K.onWrite (f s) g) ∧ I (f s) (K.onWrite (f s) g)) :
    Keeps K I (fun _ => True) (modify f : Prog σ Ans η Unit) :=
  fun s g hs => ⟨(hf s g hs).1, trivial, (hf s g hs).2⟩

theorem Keeps.ask {r : ρ} {Q : Ans r → Prop}
    (hr : ∀ s g, I s g → K.ok s g r ∧ ∀ a, K.allows s g r a → Q a ∧ I s (K.onCall s g r a)) :
    Keeps K I Q (ask r : Prog σ Ans η (Ans r)) :=
  fun s g hs => hr s g hs

theorem Keeps.stop {h : η} (hh : ∀ s g, I s g → K.mayHalt s g h) :
    Keeps K I Q (stop h : Prog σ Ans η α) :=
  fun s g hs => hh s g hs

end Keeps

/-! ## Calls that return -/

/-- The contract that asks for nothing. -/
def free : Contract σ Ans η Unit where
  onCall _ _ _ _ := ()
  onWrite _ _ := ()
  allows _ _ _ _ := True
  ok _ _ _ := True
  inv _ _ := True
  mayHalt _ _ _ := True

/-- Started in the memory `s`, the program may return `a`, with the memory `s'` then. -/
def Returns (p : Prog σ Ans η α) (s : σ) (a : α) (s' : σ) : Prop :=
  Reach free (p, s, ()) (.ret a, s', ())

instance (s : σ) (g : Unit) (r : ρ) (a : Ans r) :
    Decidable ((free : Contract σ Ans η Unit).allows s g r a) := .isTrue trivial

/-- A run, without the notes of its observer. -/
theorem Reach.forget {K : Contract σ Ans η G} {p p' : Prog σ Ans η α} {s s' : σ} {g g' : G}
    (h : Reach K (p, s, g) (p', s', g')) : Reach free (p, s, ()) (p', s', ()) := by
  suffices H : ∀ c, Reach K (p, s, g) c → Reach free (p, s, ()) (c.1, c.2.1, ()) from H _ h
  intro c hc
  induction hc with
  | refl => exact .refl
  | tail _ hstep ih =>
    refine ih.tail ?_
    cases hstep with
    | read => exact .read
    | write => exact .write
    | call a _ => exact .call a trivial

/-- A run that no contract rules is seen by an observer for whom all answers are possible. -/
theorem Reach.observe {K : Contract σ Ans η G} {p p' : Prog σ Ans η α} {s s' : σ}
    (h : Reach free (p, s, ()) (p', s', ())) (hall : ∀ s g r a, K.allows s g r a) (g : G) :
    ∃ g', Reach K (p, s, g) (p', s', g') := by
  suffices H : ∀ c, Reach free (p, s, ()) c → ∃ g', Reach K (p, s, g) (c.1, c.2.1, g') from H _ h
  intro c hc
  induction hc with
  | refl => exact ⟨g, .refl⟩
  | tail _ hstep ih =>
    obtain ⟨g', hg'⟩ := ih
    cases hstep with
    | read => exact ⟨g', hg'.tail .read⟩
    | write => exact ⟨_, hg'.tail .write⟩
    | call a _ => exact ⟨_, hg'.tail (.call a (hall _ _ _ a))⟩

/-- What is shown under a contract that allows every answer holds along the runs that no contract rules. -/
theorem Safe.reach_free {K : Contract σ Ans η Unit} {Q : α → σ → Unit → Prop} {p p' : Prog σ Ans η α}
    {s s' : σ} (h : p.Safe K Q s ()) (hall : ∀ s r a, K.allows s () r a)
    (hr : Reach free (p, s, ()) (p', s', ())) : p'.Safe K Q s' () := by
  apply h.reach
  refine Relation.ReflTransGen.mono ?_ _ _ hr
  intro c c' hstep
  cases hstep with
  | read => exact .read
  | write => exact .write
  | call a _ => exact .call a (hall _ _ a)

/-- What is shown of a program's calls is seen by every observer, together with what becomes of his notes. -/
theorem Safe.observed {K : Contract σ Ans η G} {R : G → G → Prop} {Q : α → σ → Unit → Prop}
    {p : Prog σ Ans η α} {s : σ} {g : G} (h : p.Safe free Q s ()) (hrefl : ∀ g, R g g)
    (htrans : ∀ g₁ g₂ g₃, R g₁ g₂ → R g₂ g₃ → R g₁ g₃)
    (hcall : ∀ s g r, K.ok s g r ∧ ∀ a, K.allows s g r a → R g (K.onCall s g r a))
    (hwrite : ∀ s g, K.inv s (K.onWrite s g) ∧ R g (K.onWrite s g))
    (hhalt : ∀ s g h, K.mayHalt s g h) : p.Safe K (fun a s' g' => Q a s' () ∧ R g g') s g := by
  induction p generalizing s g with
  | ret a => exact ⟨h, hrefl g⟩
  | read k ih => exact ih s h
  | write f k ih =>
    obtain ⟨hinv, hR⟩ := hwrite (f s) g
    exact ⟨hinv, (ih h.2).mono fun _ _ _ hQ => ⟨hQ.1, htrans _ _ _ hR hQ.2⟩⟩
  | call r k ih =>
    obtain ⟨hok, hR⟩ := hcall s g r
    exact ⟨hok, fun a ha => (ih a (h.2 a trivial)).mono fun _ _ _ hQ => ⟨hQ.1, htrans _ _ _ (hR a ha) hQ.2⟩⟩
  | halt h' => exact hhalt s g h'

/-- What is shown under no contract holds under every contract besides. -/
theorem Safe.and_free {K : Contract σ Ans η G} {Q : α → σ → G → Prop} {Q' : α → σ → Unit → Prop}
    {p : Prog σ Ans η α} {s : σ} {g : G} (h : p.Safe K Q s g) (hfree : p.Safe free Q' s ()) :
    p.Safe K (fun a s g => Q a s g ∧ Q' a s ()) s g := by
  induction p generalizing s g with
  | ret a => exact ⟨h, hfree⟩
  | read k ih => exact ih s h hfree
  | write f k ih => exact ⟨h.1, ih h.2 hfree.2⟩
  | call r k ih => exact ⟨h.1, fun a ha => ih a (h.2 a ha) (hfree.2 a trivial)⟩
  | halt _ => exact h

/-- The contract that only limits how the program may stop. -/
def halting (H : η → Prop) : Contract σ Ans η Unit where
  onCall _ _ _ _ := ()
  onWrite _ _ := ()
  allows _ _ _ _ := True
  ok _ _ _ := True
  inv _ _ := True
  mayHalt _ _ h := H h

/-- What is shown of a program's calls, when it is also known how it may stop. -/
theorem Safe.halting {I : σ → Prop} {N : ρ → Prop} {H : η → Prop} {Q : α → σ → Unit → Prop}
    {p : Prog σ Ans η α} {s : σ} (h : p.Safe free Q s ()) (hp : p.Stays I N H) (hs : I s) :
    p.Safe (halting H) Q s () := by
  induction p generalizing s with
  | ret a => exact h
  | read k ih => exact ih s h (hp s hs) hs
  | write f k ih => exact ⟨trivial, ih h.2 hp.2 (hp.1 s hs)⟩
  | call r k ih => exact ⟨trivial, fun a _ => ih a (h.2 a trivial) (hp.2 a) hs⟩
  | halt h' => exact hp

/-- What a program returns that has come to its end. -/
def returned : Prog σ Ans η α → Option α
  | ret a => some a
  | _ => none

/-- How a program has stopped. -/
def halted : Prog σ Ans η α → Option η
  | halt h => some h
  | _ => none

/-- The memory after a call in which the `i`-th request gets the answer `oracle i`. -/
def after (oracle : Nat → (r : ρ) → Ans r) (steps : Nat) (p : Prog σ Ans η α) (s : σ) : σ :=
  (drive free oracle steps 0 (p, s, ())).2.1

/-- A program that is driven to its end has a run to there. -/
theorem reach_of_drive {K : Contract σ Ans η G} [∀ s g r a, Decidable (K.allows s g r a)]
    {p : Prog σ Ans η α} {s : σ} {g : G} {a : α} (oracle : Nat → (r : ρ) → Ans r) (steps : Nat)
    (h : returned (drive K oracle steps 0 (p, s, g)).1 = some a) :
    Reach K (p, s, g) (.ret a, (drive K oracle steps 0 (p, s, g)).2) := by
  have hreach := drive_reach K oracle steps 0 (p, s, g)
  generalize drive K oracle steps 0 (p, s, g) = c at h hreach
  obtain ⟨q, s', g'⟩ := c
  cases q <;> cases h
  exact hreach

/-- A program that is driven to where it stops has a run to there. -/
theorem reach_halt_of_drive {K : Contract σ Ans η G} [∀ s g r a, Decidable (K.allows s g r a)]
    {p : Prog σ Ans η α} {s : σ} {g : G} {h' : η} (oracle : Nat → (r : ρ) → Ans r) (steps : Nat)
    (h : halted (drive K oracle steps 0 (p, s, g)).1 = some h') :
    Reach K (p, s, g) (.halt h', (drive K oracle steps 0 (p, s, g)).2) := by
  have hreach := drive_reach K oracle steps 0 (p, s, g)
  generalize drive K oracle steps 0 (p, s, g) = c at h hreach
  obtain ⟨q, s', g'⟩ := c
  cases q <;> cases h
  exact hreach

theorem Returns.of_drive {p : Prog σ Ans η α} {s : σ} {a : α} (oracle : Nat → (r : ρ) → Ans r)
    (steps : Nat) (h : returned (drive free oracle steps 0 (p, s, ())).1 = some a) :
    Returns p s a (after oracle steps p s) :=
  reach_of_drive oracle steps h

/-- Started where `I` holds, the program returns only where `Q` holds. -/
def Hoare (I : σ → Prop) (p : Prog σ Ans η α) (Q : α → σ → Prop) : Prop :=
  Triple free (fun s _ => I s) p fun a s _ => Q a s

section Hoare

variable {I J : σ → Prop} {M M' : α → σ → Prop} {Q : β → σ → Prop}

/-- What is shown of a program holds of its calls. -/
theorem Hoare.returns {p : Prog σ Ans η α} {s s' : σ} {a : α} (hp : Hoare I p M) (hs : I s)
    (h : Returns p s a s') : M a s' :=
  (hp s () hs).reach h

theorem Hoare.bind {p : Prog σ Ans η α} {f : α → Prog σ Ans η β} (hp : Hoare I p M)
    (hf : ∀ a, Hoare (M a) (f a) Q) : Hoare I (p >>= f) Q :=
  Triple.bind hp hf

theorem Hoare.pure {a : α} (h : ∀ s, I s → M a s) : Hoare I (Pure.pure a : Prog σ Ans η α) M :=
  fun s _ hs => h s hs

theorem Hoare.ite {c : Prop} [Decidable c] {p q : Prog σ Ans η α} (hp : c → Hoare I p M)
    (hq : ¬ c → Hoare I q M) : Hoare I (if c then p else q) M :=
  Triple.ite hp hq

theorem Hoare.get_bind {f : σ → Prog σ Ans η β} (hf : ∀ s, I s → Hoare (fun s' => s' = s) (f s) Q) :
    Hoare I (get >>= f) Q :=
  fun s g hs => hf s hs s g rfl

theorem Hoare.modify {f : σ → σ} {M : Unit → σ → Prop} (h : ∀ s, I s → M () (f s)) :
    Hoare I (modify f : Prog σ Ans η Unit) M :=
  fun s _ hs => ⟨trivial, h s hs⟩

theorem Hoare.ask {r : ρ} {M : Ans r → σ → Prop} (h : ∀ s a, I s → M a s) :
    Hoare I (ask r : Prog σ Ans η (Ans r)) M :=
  fun s _ hs => ⟨trivial, fun a _ => h s a hs⟩

theorem Hoare.stop (h : η) : Hoare I (stop h : Prog σ Ans η α) M := fun _ _ _ => trivial

theorem Hoare.conseq {p : Prog σ Ans η α} (hp : Hoare J p M) (hI : ∀ s, I s → J s)
    (hM : ∀ a s, M a s → M' a s) : Hoare I p M' :=
  Triple.conseq hp (fun s _ => hI s) fun a s _ => hM a s

/-- A program that stays in `I` returns there. -/
theorem Stays.hoare {N : ρ → Prop} {H : η → Prop} {p : Prog σ Ans η α} (hp : p.Stays I N H) :
    Hoare I p fun _ => I := by
  intro s g hs
  have hsafe := @Stays.safe σ ρ η Ans Unit α I N H free (fun _ => True) p s g hp hs trivial
    (fun _ _ _ _ _ _ => ⟨trivial, fun _ _ => trivial⟩) (fun _ _ _ _ => ⟨trivial, trivial⟩)
    fun _ _ _ _ _ _ => trivial
  exact hsafe.mono fun _ _ _ h => h.1

end Hoare

end Reactive.Prog
