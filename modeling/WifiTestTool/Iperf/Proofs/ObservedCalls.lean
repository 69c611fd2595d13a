import WifiTestTool.Iperf.Proofs.DataCalls

/-!
# Calls that are observed

An observer sees the answers that the system gives to a call of the program and takes notes. `Sees o t g p Q`
says where the program `p` returns when the test is `t` and the notes are `g` at its start. The rules are
those of `Ends`, with the notes.
-/

namespace Iperf

open Reactive

variable {G α β : Type}

/-- An observer: what he notes when a request is answered, and the answers that there may be. -/
structure Observer (G : Type) where
  notes : G → (r : Req) → r.Ans → G
  allows : IperfTest → G → (r : Req) → r.Ans → Prop

/-- The contract that asks for nothing but the answers that the observer may see. -/
def Observer.contract (o : Observer G) : Contract Mem Req.Ans Halt G where
  onCall _ g r a := o.notes g r a
  onWrite _ g := g
  allows m g r a := o.allows m.test g r a
  ok _ _ _ := True
  inv _ _ := True
  mayHalt _ _ _ := True

/-- When the test is `t` and the notes are `g` at the start, the program returns only where `Q` holds of the
result, the test and the notes. -/
def Sees (o : Observer G) (t : IperfTest) (g : G) (p : IperfProg α) (Q : α → IperfTest → G → Prop) : Prop :=
  Prog.Triple o.contract (fun m g' => m.test = t ∧ g' = g) p fun a m g' => Q a m.test g'

namespace Sees

variable {o : Observer G} {t : IperfTest} {g : G} {M : α → IperfTest → G → Prop}
  {Q : β → IperfTest → G → Prop}

theorem reach {p : IperfProg α} {m m' : Mem} {g' : G} {a : α} (hp : Sees o m.test g p M)
    (h : Prog.Reach o.contract (p, m, g) (.ret a, m', g')) : M a m'.test g' :=
  (hp m g ⟨rfl, rfl⟩).reach h

theorem pure {a : α} (h : M a t g) : Sees o t g (Pure.pure a : IperfProg α) M := by
  rintro m g ⟨rfl, rfl⟩
  exact h

theorem bind {p : IperfProg α} {f : α → IperfProg β} (hp : Sees o t g p M)
    (hf : ∀ a t' g', M a t' g' → Sees o t' g' (f a) Q) : Sees o t g (p >>= f) Q :=
  Prog.Triple.bind hp fun a m g' hm => hf a m.test g' hm m g' ⟨rfl, rfl⟩

theorem mono {M' : α → IperfTest → G → Prop} {p : IperfProg α} (hp : Sees o t g p M)
    (hM : ∀ a t' g', M a t' g' → M' a t' g') : Sees o t g p M' :=
  fun m g' hm => (hp m g' hm).mono fun a m' g'' h => hM a m'.test g'' h

theorem and {M' : α → IperfTest → G → Prop} {p : IperfProg α} (hp : Sees o t g p M) (hp' : Sees o t g p M') :
    Sees o t g p fun a t' g' => M a t' g' ∧ M' a t' g' :=
  fun m g' hm => (hp m g' hm).and (hp' m g' hm)

theorem ite {c : Prop} [Decidable c] {p q : IperfProg α} (hp : c → Sees o t g p M)
    (hq : ¬ c → Sees o t g q M) : Sees o t g (if c then p else q) M :=
  Prog.Triple.ite hp hq

theorem stop (h : Halt) : Sees o t g (Prog.stop h : IperfProg α) M := fun _ _ _ => trivial

/-- A request whose answer is returned. -/
theorem ask {r : Req} {M : r.Ans → IperfTest → G → Prop} (h : ∀ a, o.allows t g r a → M a t (o.notes g r a)) :
    Sees o t g (Iperf.sys r) M := by
  rintro m g ⟨rfl, rfl⟩
  exact ⟨trivial, fun a ha => h a ha⟩

/-- A request and its answer. -/
theorem sys_bind {r : Req} {f : r.Ans → IperfProg β}
    (hf : ∀ a, o.allows t g r a → Sees o t (o.notes g r a) (f a) Q) : Sees o t g (sys r >>= f) Q := by
  rintro m g ⟨rfl, rfl⟩
  exact ⟨trivial, fun a ha => hf a ha m _ ⟨rfl, rfl⟩⟩

theorem getTest_bind {f : IperfTest → IperfProg β} (hf : Sees o t g (f t) Q) :
    Sees o t g (getTest >>= f) Q := by
  rintro m g ⟨rfl, rfl⟩
  exact hf m g ⟨rfl, rfl⟩

theorem allStreams_bind {f : List Nat → IperfProg β}
    (hf : Sees o t g (f (List.range t.streams.length)) Q) : Sees o t g (allStreams >>= f) Q := by
  rintro m g ⟨rfl, rfl⟩
  exact hf m g ⟨rfl, rfl⟩

theorem modifyTest {f : IperfTest → IperfTest} {M : Unit → IperfTest → G → Prop} (h : M () (f t) g) :
    Sees o t g (Iperf.modifyTest f) M := by
  rintro m g ⟨rfl, rfl⟩
  exact ⟨trivial, h⟩

theorem modifyTest_bind {f : IperfTest → IperfTest} {k : Unit → IperfProg β}
    (hk : Sees o (f t) g (k ()) Q) : Sees o t g (Iperf.modifyTest f >>= k) Q := by
  rintro m g ⟨rfl, rfl⟩
  exact ⟨trivial, hk _ g ⟨rfl, rfl⟩⟩

theorem setErrno_bind {e : Errno} {k : Unit → IperfProg β} (hk : Sees o t g (k ()) Q) :
    Sees o t g (Iperf.setErrno e >>= k) Q := by
  rintro m g ⟨rfl, rfl⟩
  exact ⟨trivial, hk _ g ⟨rfl, rfl⟩⟩

theorem setIErrno_bind {e : IErr} {k : Unit → IperfProg β} (hk : Sees o t g (k ()) Q) :
    Sees o t g (Iperf.setIErrno e >>= k) Q := by
  rintro m g ⟨rfl, rfl⟩
  exact ⟨trivial, hk _ g ⟨rfl, rfl⟩⟩

theorem getStream_bind {sp : Nat} {f : IperfStream → IperfProg β}
    (hf : ∀ st, t.streams[sp]? = some st → Sees o t g (f st) Q) : Sees o t g (getStream sp >>= f) Q := by
  rintro m g ⟨rfl, rfl⟩
  unfold getStream Iperf.getTest
  rw [Prog.safe_bind, Prog.safe_bind, Prog.safe_bind, Prog.safe_get, Prog.safe_pure]
  split
  · exact trivial
  · rename_i st hst
    exact hf st hst m g ⟨rfl, rfl⟩

/-- What the system's clock may say. -/
theorem gettimeofday_bind {f : Timeval → IperfProg β}
    (hok : ∀ now, o.allows t g .gettimeofday (.ok now) →
      Sees o t (o.notes g .gettimeofday (.ok now)) (f now) Q)
    (herror : ∀ e, o.allows t g .gettimeofday (.error e) →
      Sees o t (o.notes g .gettimeofday (.error e)) (f ⟨0, 0⟩) Q) : Sees o t g (gettimeofday >>= f) Q := by
  rintro m g ⟨rfl, rfl⟩
  refine ⟨trivial, fun a ha => ?_⟩
  cases a with
  | ok now => exact hok now ha m _ ⟨rfl, rfl⟩
  | error e => exact ⟨trivial, herror e ha _ _ ⟨rfl, rfl⟩⟩

end Sees

/-- What a call does to the test, and what becomes of the observer's notes meanwhile. -/
theorem Ends.sees {o : Observer G} {R : G → G → Prop} {t : IperfTest} {g : G} {p : IperfProg α}
    {M : α → IperfTest → Prop} (h : Ends t p M) (hrefl : ∀ g, R g g)
    (htrans : ∀ g₁ g₂ g₃, R g₁ g₂ → R g₂ g₃ → R g₁ g₃)
    (hR : ∀ t g r a, o.allows t g r a → R g (o.notes g r a)) :
    Sees o t g p fun a t' g' => M a t' ∧ R g g' := by
  rintro m g ⟨hm, rfl⟩
  exact (h m () hm).observed hrefl htrans (fun _ _ _ => ⟨trivial, fun _ => hR _ _ _ _⟩)
    (fun _ _ => ⟨trivial, hrefl _⟩) fun _ _ _ => trivial

/-- What is observed of a call is a call. -/
theorem Observer.returns {o : Observer G} {p : IperfProg α} {m m' : Mem} {g g' : G} {a : α}
    (h : Prog.Reach o.contract (p, m, g) (.ret a, m', g')) : Prog.Returns p m a m' := h.forget

end Iperf
