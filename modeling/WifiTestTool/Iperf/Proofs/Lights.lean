import WifiTestTool.Iperf.Proofs.Plumbing

/-!
# The lights of the streams

`iperf_send` sends on a stream only while its `green_light` is on, and `select` reports a socket only while
it is in the write set. An observer of a run watches the lights: he notes when all of them are on in a
running test, as `iperf_create_send_timers` leaves them, and watches until the test is over or until it runs
with settings that he is not interested in. `Watched` is the assertion that goes through the programs of
both parties; the functions of the measurement and the functions that open sockets keep it as long as there
is neither a rate nor a burst.
-/

namespace Iperf

open Reactive

/-- What there is to see of the lights of a test. -/
structure Lights where
  settings : IperfSettings
  state : TestState
  sender : Bool
  writeSet : FdSet
  /-- The socket and the light of every stream. -/
  streams : List (Int × Bool)

/-- The lights of a test. -/
def IperfTest.lights (t : IperfTest) : Lights where
  settings := t.settings
  state := t.state
  sender := t.sender
  writeSet := t.writeSet
  streams := t.streams.map fun st => (st.socket, st.greenLight)

namespace Lights

/-- The test has been started, and is not over. -/
def Running (v : Lights) : Prop := v.state = TestState.TEST_START ∨ v.state = TestState.TEST_RUNNING

/-- All lights are on. -/
def AllLit (v : Lights) : Prop := ∀ st ∈ v.streams, st.2 = true

/-- The sockets of a sender are in the write set. -/
def Wired (v : Lights) : Prop := v.sender = true → ∀ st ∈ v.streams, st.1 ∈ v.writeSet

/-- The test has no streams yet, or it is on its way with settings for which `L` holds. -/
def OnCourse (L : IperfSettings → Prop) (v : Lights) : Prop :=
  (v.state = 0 ∨ v.state = TestState.IPERF_START ∨ v.state = TestState.PARAM_EXCHANGE) ∧ v.streams = [] ∨
    (v.state = TestState.CREATE_STREAMS ∨ v.Running) ∧ L v.settings

instance (v : Lights) : Decidable v.Running := inferInstanceAs (Decidable (_ ∨ _))

instance (v : Lights) : Decidable v.AllLit := inferInstanceAs (Decidable (∀ _ ∈ _, _))

instance (L : IperfSettings → Prop) [DecidablePred L] (v : Lights) : Decidable (v.OnCourse L) :=
  inferInstanceAs (Decidable (_ ∨ _))

variable {L : IperfSettings → Prop} {v : Lights}

/-- A test whose streams are being created or used has settings for which `L` holds. -/
theorem OnCourse.settings (h : v.OnCourse L) (hs : v.state = TestState.CREATE_STREAMS ∨ v.Running) :
    L v.settings := by
  rcases h with ⟨h, -⟩ | ⟨-, h⟩
  · rcases h with h | h | h <;> rcases hs with hs | hs | hs <;> rw [h] at hs <;> cases hs
  · exact h

/-- Before the streams are created there are none. -/
theorem OnCourse.streams (h : v.OnCourse L)
    (hs : v.state = 0 ∨ v.state = TestState.IPERF_START ∨ v.state = TestState.PARAM_EXCHANGE) :
    v.streams = [] := by
  rcases h with ⟨-, h⟩ | ⟨h, -⟩
  · exact h
  · rcases hs with hs | hs | hs <;> rcases h with h | h | h <;> rw [hs] at h <;> cases h

end Lights

/-! ## The observer -/

/-- What the observer has noted. -/
inductive Watch where
  /-- The lights have yet to be switched on. -/
  | waiting
  /-- All lights were on in the running test, and it has been running since. -/
  | sending
  /-- The test is over, or its settings are none of those to be watched. -/
  | ended
deriving DecidableEq

/-- The notes after the lights have become `v`. -/
def Watch.next (L : IperfSettings → Prop) [DecidablePred L] (v : Lights) : Watch → Watch
  | .ended => .ended
  | .sending => if v.OnCourse L then (if v.Running then .sending else .waiting) else .ended
  | .waiting => if v.OnCourse L then (if v.Running ∧ v.AllLit then .sending else .waiting) else .ended

/-- The observer of the tests whose settings satisfy `L`. The program promises him that the lights stay on
once they are on, and that the sockets of a sender are in the write set as long as the test runs. -/
def watchLights (L : IperfSettings → Prop) [DecidablePred L] : Contract Mem Req.Ans Halt Watch where
  onCall _ g _ _ := g
  onWrite m g := g.next L m.test.lights
  allows _ _ _ _ := True
  ok _ _ _ := True
  inv m g := g ≠ .ended → (g = .sending ↔ m.test.lights.Running ∧ m.test.lights.AllLit) ∧
    (m.test.lights.Running → m.test.lights.Wired)
  mayHalt _ _ _ := True

instance (L : IperfSettings → Prop) [DecidablePred L] (m : Mem) (g : Watch) (r : Req) (a : r.Ans) :
    Decidable ((watchLights L).allows m g r a) := .isTrue trivial

/-- There is neither a rate nor a burst. -/
def Unthrottled (s : IperfSettings) : Prop := s.rate = 0 ∧ s.burst = 0

instance : DecidablePred Unthrottled := fun _ => inferInstanceAs (Decidable (_ ∧ _))

/-! ## The assertion -/

/-- As long as the observer watches, the test is on its course, he has noted whether the lights are on, the
sockets are in the write set, there is no send timer, and the lights satisfy `E`. -/
structure Lighted (E : Lights → Prop) (m : Mem) (g : Watch) : Prop where
  onCourse : m.test.lights.OnCourse Unthrottled
  noted : g = .sending ↔ m.test.lights.Running ∧ m.test.lights.AllLit
  wired : m.test.lights.Running → m.test.lights.Wired
  procs : m.timers.Procs TimerProc.keepsLights
  expect : E m.test.lights

/-- The assertion of a program under the observer's eyes. -/
def Watched (E : Lights → Prop) (m : Mem) (g : Watch) : Prop := g ≠ .ended → Lighted E m g

theorem Watched.ended {E : Lights → Prop} {m : Mem} : Watched E m .ended := fun h => absurd rfl h

theorem Watched.mono {E E' : Lights → Prop} {m : Mem} {g : Watch} (h : Watched E m g)
    (hE : ∀ v, v.OnCourse Unthrottled → E v → E' v) : Watched E' m g := fun hg =>
  ⟨(h hg).onCourse, (h hg).noted, (h hg).wired, (h hg).procs, hE _ (h hg).onCourse (h hg).expect⟩

section Rules

variable {α β : Type} {E E' : Lights → Prop} {m m' : Mem} {g : Watch}

/-- A change of the memory under the observer's eyes. -/
theorem watched_write (h : Watched E m g)
    (hprocs : m.timers.Procs TimerProc.keepsLights → m'.timers.Procs TimerProc.keepsLights)
    (hm' : Lighted E m g → m'.test.lights.OnCourse Unthrottled →
      (m'.test.lights.Running → m'.test.lights.Wired) ∧ E' m'.test.lights ∧
        (m.test.lights.Running → m.test.lights.AllLit → m'.test.lights.Running → m'.test.lights.AllLit)) :
    (watchLights Unthrottled).inv m' (g.next Unthrottled m'.test.lights) ∧
      Watched E' m' (g.next Unthrottled m'.test.lights) := by
  suffices H : Watched E' m' (g.next Unthrottled m'.test.lights) from
    ⟨fun hg => ⟨(H hg).noted, (H hg).wired⟩, H⟩
  cases g with
  | ended => exact .ended
  | sending =>
    have hl := h nofun
    obtain ⟨hrun, hlit⟩ := hl.noted.1 rfl
    dsimp only [Watch.next]
    split
    · rename_i hcourse
      obtain ⟨hwired, hE', hstay⟩ := hm' hl hcourse
      refine fun _ => ⟨hcourse, ?_, hwired, hprocs hl.procs, hE'⟩
      split
      · rename_i hrun'
        exact iff_of_true rfl ⟨hrun', hstay hrun hlit hrun'⟩
      · exact iff_of_false nofun fun h => absurd h.1 ‹_›
    · exact .ended
  | waiting =>
    have hl := h nofun
    dsimp only [Watch.next]
    split
    · rename_i hcourse
      obtain ⟨hwired, hE', -⟩ := hm' hl hcourse
      refine fun _ => ⟨hcourse, ?_, hwired, hprocs hl.procs, hE'⟩
      split
      · exact iff_of_true rfl ‹_›
      · exact iff_of_false nofun ‹_›
    · exact .ended

/-- A change of the memory that leaves the lights alone. -/
theorem watched_congr (h : Watched E m g) (hl : m'.test.lights = m.test.lights)
    (hprocs : m.timers.Procs TimerProc.keepsLights → m'.timers.Procs TimerProc.keepsLights) :
    (watchLights Unthrottled).inv m' (g.next Unthrottled m'.test.lights) ∧
      Watched E m' (g.next Unthrottled m'.test.lights) := by
  refine watched_write h hprocs fun hm _ => ?_
  rw [hl]
  exact ⟨hm.wired, hm.expect, fun _ hlit _ => hlit⟩

/-- The notes do not change while the lights do not. -/
theorem Lighted.next_eq (h : Lighted E m g) (hg : g ≠ .ended) : g.next Unthrottled m.test.lights = g := by
  cases g with
  | ended => exact absurd rfl hg
  | sending =>
    exact (if_pos h.onCourse).trans (if_pos (h.noted.1 rfl).1)
  | waiting =>
    have hnot : ¬ (m.test.lights.Running ∧ m.test.lights.AllLit) := fun hlit => nomatch h.noted.2 hlit
    exact (if_pos h.onCourse).trans (if_neg hnot)

/-- Nothing matters when the observer does not watch any more. -/
theorem safe_ended (p : IperfProg α) (m : Mem) :
    p.Safe (watchLights Unthrottled) (fun _ _ g => g = .ended) m .ended := by
  induction p generalizing m with
  | ret a => rfl
  | read k ih => exact ih m m
  | write f k ih => exact ⟨fun hg => absurd rfl hg, ih (f m)⟩
  | call r k ih => exact ⟨trivial, fun a _ => ih a m⟩
  | halt h => trivial

/-- What is done only if the observer does not watch. -/
theorem triple_off {p : IperfProg α} {Q : α → Mem → Watch → Prop} (hE : ∀ v, E v → ¬ v.OnCourse Unthrottled)
    (hQ : ∀ a m, Q a m .ended) : Prog.Triple (watchLights Unthrottled) (Watched E) p Q := by
  intro m g hm
  by_cases hg : g = .ended
  · subst hg
    exact (safe_ended p m).mono fun a m g hg => hg ▸ hQ a m
  · exact absurd (hm hg).onCourse (hE _ (hm hg).expect)

theorem watched_sys (r : Req) :
    Prog.Keeps (watchLights Unthrottled) (Watched E) (fun _ => True) (sys r) :=
  .ask fun _ _ hm => ⟨trivial, fun _ _ => ⟨trivial, hm⟩⟩

/-- A change of the test. -/
theorem watched_modifyTest {f : IperfTest → IperfTest}
    (hf : ∀ t, t.lights.OnCourse Unthrottled → (t.lights.Running → t.lights.Wired) → E t.lights →
      (f t).lights.OnCourse Unthrottled →
      ((f t).lights.Running → (f t).lights.Wired) ∧ E' (f t).lights ∧
        (t.lights.Running → t.lights.AllLit → (f t).lights.Running → (f t).lights.AllLit)) :
    Prog.Triple (watchLights Unthrottled) (Watched E) (modifyTest f) fun _ => Watched E' := fun m _ hm =>
  @watched_write _ _ _ { m with test := f m.test } _ hm id fun hl hcourse =>
    hf m.test hl.onCourse hl.wired hl.expect hcourse

/-- A change of the test that leaves the lights alone. -/
theorem watched_modify {f : Mem → Mem}
    (hf : ∀ m, (f m).test.lights = m.test.lights ∧ (f m).timers = m.timers) :
    Prog.Keeps (watchLights Unthrottled) (Watched E) (fun _ => True) (Prog.modify f) := .modify fun m _ hm =>
  watched_congr hm (hf m).1 fun hp => by rw [(hf m).2]; exact hp

theorem watched_keepTest {f : IperfTest → IperfTest} (hf : ∀ t, (f t).lights = t.lights) :
    Prog.Keeps (watchLights Unthrottled) (Watched E) (fun _ => True) (modifyTest f) :=
  watched_modify fun m => ⟨hf m.test, rfl⟩

end Rules

/-! ## The measurement -/

theorem lights_of_still {t t' : IperfTest} (h : t'.still = t.still) : t'.lights = t.lights := by
  have hcore : t'.core = t.core := congrArg Prod.fst h
  have hlights : t'.streams.map IperfStream.greenLight = t.streams.map IperfStream.greenLight :=
    congrArg (fun v => v.2.2) h
  have hsockets : t'.streams.map IperfStream.socket = t.streams.map IperfStream.socket := by
    have := congrArg (fun c => c.2.map StreamCore.socket) hcore
    simp only [IperfTest.core, List.map_map] at this
    exact this
  have hzip : ∀ sts : List IperfStream, (sts.map fun st => (st.socket, st.greenLight)) =
      (sts.map IperfStream.socket).zip (sts.map IperfStream.greenLight) := fun _ => List.zip_map'.symm
  unfold IperfTest.lights
  rw [hzip, hzip, hlights, hsockets]
  congr 1
  · exact congrArg (fun c => c.1.settings) hcore
  · exact congrArg (fun c => c.1.state) hcore
  · exact congrArg (fun c => c.1.sender) hcore
  · exact congrArg (fun v => v.2.1) h

/-- Without a rate and a burst, or without streams, the throttle has nothing to do. -/
theorem indifferent_still {E : Lights → Prop} {m : Mem} {g : Watch} (hm : Lighted E m g) :
    Indifferent (fun m' => m'.test.still = m.test.still ∧ m'.timers.Procs TimerProc.keepsLights)
      (fun _ => True) fun _ => True where
  req := fun _ _ => trivial
  onFds := fun _ _ _ _ => trivial
  stop := fun _ _ => trivial
  empty := fun _ _ _ => trivial
  state := fun m₁ m₂ h₁ h₂ => .inr (congrArg (fun v => v.1.1.state) (h₁.1.trans h₂.1.symm))
  change := fun m₁ m₂ h₁ ht hs => ⟨(congrArg Prod.fst ht).trans h₁.1, by rw [hs]; exact h₁.2⟩
  handles := fun m₁ m₂ h₁ ht hs => ⟨ht.trans h₁.1, by rw [hs]; exact h₁.2⟩
  timers := fun m₁ m₂ s h₁ h₂ hs => ⟨h₂.1, hs _ (fun _ h => h) h₁.2⟩
  throttle := by
    intro m₁ sp now ⟨hstill, hprocs⟩ hthrottled
    have hlights := lights_of_still hstill
    rcases hm.onCourse with ⟨-, hnone⟩ | ⟨-, hrate, hburst⟩
    · refine .getTest_bind fun t _ => .ite (fun _ => .pure _) fun _ => .getStream_bind trivial ?_
      rintro st ⟨m₂, ⟨hstill₂, -⟩, hst⟩
      have hempty : m₂.test.streams = [] :=
        List.map_eq_nil_iff.1 ((congrArg Lights.streams (lights_of_still hstill₂)).trans hnone)
      rw [hempty] at hst
      cases hst
    · rcases hthrottled with h | h | h
      · exact absurd ((congrArg (fun v => v.settings.rate) hlights).trans hrate) h
      · exact absurd ((congrArg (fun v => v.settings.burst) hlights).trans hburst) h
      · exact absurd hprocs h

section Keeps

variable {α : Type} {E : Lights → Prop}

/-- A program of the measurement goes unnoticed. -/
theorem watched_steady {p : IperfProg α}
    (hp : ∀ I, Indifferent I (fun _ => True) (fun _ => True) → Steady I (fun _ => True) (fun _ => True) p) :
    Prog.Keeps (watchLights Unthrottled) (Watched E) (fun _ => True) p := by
  intro m g hm
  by_cases hg : g = .ended
  · subst hg
    exact (safe_ended p m).mono fun a m g hg => ⟨trivial, hg ▸ .ended⟩
  · have hl := hm hg
    refine (Prog.Stays.safe (J := fun g' => g' = g) (hp _ (indifferent_still hl)) ⟨rfl, hl.procs⟩ rfl
      ?_ ?_ fun _ _ _ _ _ _ => trivial).mono ?_
    · exact fun _ _ _ _ hg' _ => ⟨trivial, fun _ _ => hg'⟩
    · rintro m' g ⟨hstill, hprocs⟩ rfl
      have hlights := lights_of_still hstill
      have hm' : Lighted E m' g := by
        refine ⟨?_, ?_, ?_, hprocs, ?_⟩ <;> rw [hlights]
        · exact hl.onCourse
        · exact hl.noted
        · exact hl.wired
        · exact hl.expect
      have hnext := hm'.next_eq hg
      refine ⟨?_, hnext⟩
      show (watchLights Unthrottled).inv m' (g.next Unthrottled m'.test.lights)
      rw [hnext]
      exact fun _ => ⟨hm'.noted, hm'.wired⟩
    · rintro _ m' _ ⟨⟨hstill, hprocs⟩, rfl⟩
      have hlights := lights_of_still hstill
      refine ⟨trivial, fun _ => ⟨?_, ?_, ?_, hprocs, ?_⟩⟩ <;> rw [hlights]
      · exact hl.onCourse
      · exact hl.noted
      · exact hl.wired
      · exact hl.expect

/-- Opening sockets goes unnoticed. -/
theorem watched_plumbing : Plumbing (watchLights Unthrottled) (Watched E) fun _ => True where
  req := fun _ _ _ hm _ => ⟨trivial, fun _ _ => hm⟩
  fresh := fun _ _ _ _ _ _ _ _ => trivial
  neg := fun _ _ => trivial
  listener := fun _ _ _ => trivial
  protListener := fun _ _ _ => trivial
  change := by
    intro m m' g hm hc
    have hlights : m'.test.unplumbed.lights = m.test.unplumbed.lights := congrArg IperfTest.lights hc.test
    exact watched_congr hm hlights fun hp => by rw [hc.timers]; exact hp
  halt := fun _ _ _ _ _ => trivial

end Keeps

end Iperf
