import WifiTestTool.Iperf.Proofs.ParamsOnWire
import WifiTestTool.Iperf.Proofs.TalkRules

/-!
# The exchanges of the conversation

The functions that both parties use to exchange the parameters and the results, and what they have in common
when a stream is made or a state is read.
-/

namespace Iperf

open Reactive
open Protocol (View)

variable {d : Side} {c : Int} {s : TestState} {p q : Phase} {V : View conversation → Prop} {S : TestState → Prop}

/-! ## States -/

/-- The byte of a state that was heard -/
theorem heard_state {v : View conversation} {b : UInt8} (hv : Before p v)
    (hmessages : ∀ x ∈ p.messages, ∃ s, x.1 = .state s) (hbegins : v.Begins [b]) :
    ∃ s q, (.state s, q) ∈ p.messages ∧ b.toInt8 = s ∧ Before q (v.add [b]) := by
  obtain ⟨w, hw, hfront⟩ := hbegins
  obtain ⟨q, hq⟩ := Option.isSome_iff_exists.1 hw
  have hnext : p.next w = some q := hv.1 ▸ hq
  rw [hv.2, List.nil_append] at hfront
  obtain ⟨⟨m, his⟩, hm, hw⟩ : ∃ m : {m : Message // m.is w}, (m.1, q) ∈ p.messages ∧ True := by
    obtain ⟨m, hm, his⟩ := Phase.next_some hnext
    exact ⟨⟨m, his⟩, hm, trivial⟩
  obtain ⟨s, rfl⟩ : ∃ s, m = .state s := hmessages _ hm
  have hbyte : w = [s.toUInt8] := beq_iff_eq.1 his
  rw [hbyte] at hfront
  obtain rfl : b = s.toUInt8 := by
    have hsame := hfront.eq_of_length rfl
    exact (List.cons.inj hsame).1
  exact ⟨s, q, hm, by simp, hv.add (hbyte ▸ hnext)⟩

/-- A state that may be heard may be set. -/
theorem message_states {d : Side} {p q : Phase} {s : TestState} (hp : (Message.state s, q) ∈ p.messages) :
    s ∈ Phase.states d q := by
  cases p <;> simp only [Phase.messages, List.mem_cons, List.not_mem_nil, or_false, Prod.mk.injEq, Message.state.injEq,
    reduceCtorEq, false_and] at hp
  case createStreams =>
    rcases hp with ⟨rfl, rfl⟩ | ⟨rfl, rfl⟩
    · cases d <;> decide
    · cases d <;> decide
  all_goals
    obtain ⟨rfl, rfl⟩ := hp
    cases d <;> decide

/-- `iperf_set_send_state` sets the state, whether it can send it or not. -/
theorem iperfSetSendState_sets (fuel : Nat) (m : Mem) :
    (iperfSetSendState fuel s).Safe Prog.free (fun _ m' _ => m'.test.state = s) m () := by
  refine ⟨trivial, ?_⟩
  have hwrite := unmoved_nwrite (o := ⟨fun _ _ _ => (), fun _ _ _ _ => True⟩) (t := { m.test with state := s }) fuel
    m.test.ctrlSck [s.toUInt8] { m with test := { m.test with state := s } } () rfl
  refine hwrite.bind fun r m' _ ⟨_, htest⟩ => ?_
  have hstate : m'.test.state = s := congrArg IperfTest.state htest
  split
  · exact ⟨trivial, hstate⟩
  · exact hstate

/-- The state of a party that sends it, even if it cannot -/
theorem talk_sendState (hturn : p.turn = d) (hnext : p.next [s.toUInt8] = some q) (hp : s ∈ Phase.states d p)
    (hq : s ∈ Phase.states d q) (fuel : Nat) :
    Prog.Triple (talkContract d) (On d c (Before p) S) (iperfSetSendState fuel s) fun _ =>
      On d c (fun _ => True) (· = s) := by
  intro m v h
  refine ((talk_iperfSetSendState hturn hnext hp hq fuel m v h).and_free (iperfSetSendState_sets fuel m)).mono ?_
  rintro r m' v' ⟨⟨-, h⟩ | ⟨-, h⟩, hstate⟩
  · exact ⟨h.wired, h.agrees, h.settled, trivial, h.state⟩
  · exact ⟨h.wired, h.agrees, h.settled, trivial, hstate⟩

/-- `Nread` of a block -/
theorem talk_nreadBlock {n : Nat} (hp : p.messages = [(.block n, q)]) (hq : s ∈ Phase.states d q) (fuel : Nat) :
    Prog.Triple (talkContract d) (Stands d c p s) (nread fuel c n) fun r m v =>
      (r = none → Connected d c m v) ∧ (r.isSome → Stands d c q s m v) := by
  have hblock : ∀ w, p.next w = if w.length = n then some q else none := by
    intro w
    unfold Phase.next
    rw [hp]
    by_cases hw : w.length = n
    · rw [List.find?_cons_of_pos (p := fun m : Message × Phase => m.1.is w) (by simpa [Message.is] using hw), if_pos hw]
      rfl
    · rw [List.find?_cons_of_neg (p := fun m : Message × Phase => m.1.is w) (by simpa [Message.is] using hw), if_neg hw]
      rfl
  refine triple_before fun v₀ hv => Prog.Triple.conseq (talk_nread [] hv.2 (fun w hw _ => ?_) ?_ fuel)
    (fun _ _ h => h) fun r m v h => ?_
  · rw [hv.1, hblock] at hw
    split at hw
    · simp_all
    · cases hw
  · rw [hv.1, hp]
    intro x hx
    rw [List.mem_singleton.1 hx]
    exact hq
  · rcases h with ⟨rfl, h⟩ | ⟨bs, rfl, hn, -, h⟩
    · refine ⟨fun _ => h, fun hsome => ?_⟩
      cases hsome
    · refine ⟨fun hnone => ?_, fun _ => h.before hv ((hblock bs).trans (if_pos hn))⟩
      cases hnone

/-! ## Between two passes -/

/-- Where a party waits for a message, or for the end of the test. -/
def restPoints : Side → List (Phase × TestState)
  | .left =>
    [(.paramExchange, 0), (.createStreams, TestState.PARAM_EXCHANGE), (.testStart, TestState.CREATE_STREAMS),
      (.testRunning, TestState.TEST_START), (.testEnd, TestState.TEST_RUNNING), (.exchangeResults, TestState.TEST_END),
      (.displayResults, TestState.EXCHANGE_RESULTS)]
  | .right =>
    [(.testStart, TestState.CREATE_STREAMS), (.testEnd, TestState.TEST_RUNNING),
      (.iperfDone, TestState.DISPLAY_RESULTS)]

/-- A party that waits for a message waits for a state, and its own state allows for what it may hear. -/
theorem restPoint_messages {x : Phase × TestState} (hx : x ∈ restPoints d) (hturn : x.1.turn = d.other) :
    (∀ y ∈ x.1.messages, ∃ s, y.1 = .state s) ∧ ∀ y ∈ x.1.messages, x.2 ∈ Phase.states d y.2 := by
  have hstates : ∀ d, ∀ x ∈ restPoints d, x.1.turn = d.other → ∀ y ∈ x.1.messages, x.2 ∈ Phase.states d y.2 := by
    intro d
    cases d <;> decide
  have hkind : ∀ d, ∀ x ∈ restPoints d, x.1.turn = d.other → ∀ y ∈ x.1.messages, ∃ s ∈ [TestState.PARAM_EXCHANGE,
      TestState.CREATE_STREAMS, TestState.SERVER_ERROR, TestState.TEST_START, TestState.TEST_RUNNING, TestState.TEST_END,
      TestState.EXCHANGE_RESULTS, TestState.DISPLAY_RESULTS, TestState.IPERF_DONE], y.1 = .state s := by
    intro d
    cases d <;> decide
  refine ⟨fun y hy => ?_, hstates d x hx hturn⟩
  obtain ⟨s, -, hs⟩ := hkind d x hx hturn y hy
  exact ⟨s, hs⟩

/-- A party waits at one of these points. -/
def Awaits (d : Side) (c : Int) (m : Mem) (v : View conversation) : Prop :=
  ∃ x ∈ restPoints d, Stands d c x.1 x.2 m v

/-- A party between two passes of its loop: it waits, or it is done. -/
def Rests (d : Side) (c : Int) (m : Mem) (v : View conversation) : Prop :=
  Awaits d c m v ∨ On d c (fun _ => True) (· = TestState.IPERF_DONE) m v

/-- What a function returns that leads to the next pass: `-1` if the run ends. -/
def Proceeds (d : Side) (c : Int) (r : Int) (m : Mem) (v : View conversation) : Prop :=
  r < 0 ∧ Connected d c m v ∨ Rests d c m v

/-- What a part of a pass returns: `none` if the run ends. -/
def Passes {α : Type} (d : Side) (c : Int) (r : Option α) (m : Mem) (v : View conversation) : Prop :=
  (r = none → Connected d c m v) ∧ (r.isSome → Rests d c m v)

/-- A party that returns 0 is done. -/
def TalkedOut (r : Int) (m : Mem) (_ : View conversation) : Prop := r = 0 → m.test.state = TestState.IPERF_DONE

theorem Rests.connected {m : Mem} {v : View conversation} (h : Rests d c m v) : Connected d c m v := by
  rcases h with ⟨x, -, h⟩ | h
  · exact h.connected
  · exact h.connected

theorem Proceeds.connected {r : Int} {m : Mem} {v : View conversation} (h : Proceeds d c r m v) : Connected d c m v := by
  rcases h with ⟨-, h⟩ | h
  · exact h
  · exact h.connected

theorem On.rests {m : Mem} {v : View conversation} (h : Stands d c p s m v) (hx : (p, s) ∈ restPoints d) :
    Rests d c m v := .inl ⟨_, hx, h⟩

/-- What a party does while it waits, without a look at the connection -/
theorem Awaits.keeps {α : Type} {prog : IperfProg α} {Q : α → Prop}
    (hprog : ∀ (V : View conversation → Prop) (S : TestState → Prop), Prog.Keeps (talkContract d) (On d c V S) Q prog) :
    Prog.Keeps (talkContract d) (Awaits d c) Q prog := by
  rintro m v ⟨x, hx, h⟩
  exact (hprog _ _ m v h).mono fun _ _ _ h => ⟨h.1, x, hx, h.2⟩

theorem Rests.keeps {α : Type} {prog : IperfProg α} {Q : α → Prop}
    (hprog : ∀ (V : View conversation → Prop) (S : TestState → Prop), Prog.Keeps (talkContract d) (On d c V S) Q prog) :
    Prog.Keeps (talkContract d) (Rests d c) Q prog := by
  rintro m v (h | h)
  · exact (Awaits.keeps hprog m v h).mono fun _ _ _ h => ⟨h.1, .inl h.2⟩
  · exact (hprog _ _ m v h).mono fun _ _ _ h => ⟨h.1, .inr h.2⟩

theorem Awaits.rests {m : Mem} {v : View conversation} (h : Awaits d c m v) : Rests d c m v := .inl h

/-- The run ends here. -/
theorem passes_none {α : Type} {m : Mem} {v : View conversation} (h : Connected d c m v) : Passes d c (none : Option α) m v :=
  ⟨fun _ => h, nofun⟩

/-- The pass goes on here. -/
theorem passes_some {α : Type} {a : α} {m : Mem} {v : View conversation} (h : Rests d c m v) : Passes d c (some a) m v :=
  ⟨nofun, fun _ => h⟩

/-- What follows a call that returns a negative value on failure -/
theorem Done.bind {α : Type} {I J : Mem → View conversation → Prop} {Q : α → Mem → View conversation → Prop} {a : α}
    {prog : IperfProg Int} {k : IperfProg α} (hprog : Prog.Triple (talkContract d) I prog (Done d c J))
    (hfail : ∀ m v, Connected d c m v → Q a m v) (hk : Prog.Triple (talkContract d) J k Q) :
    Prog.Triple (talkContract d) I (prog >>= fun r => if r < 0 then pure a else k) Q := by
  refine .bind hprog fun r => .ite (fun hr => .ret fun m v h => ?_) fun hr m v h => ?_
  · rcases h with ⟨rfl, -⟩ | ⟨-, h⟩
    · exact absurd hr (by decide)
    · exact hfail m v h
  · rcases h with ⟨-, h⟩ | ⟨hlt, -⟩
    · exact hk m v h
    · exact absurd hlt hr

/-- What follows a call that returns another value than 0 on failure -/
theorem Done.bind_ne {α : Type} {I J : Mem → View conversation → Prop} {Q : α → Mem → View conversation → Prop} {a : α}
    {prog : IperfProg Int} {k : IperfProg α} (hprog : Prog.Triple (talkContract d) I prog (Done d c J))
    (hfail : ∀ m v, Connected d c m v → Q a m v) (hk : Prog.Triple (talkContract d) J k Q) :
    Prog.Triple (talkContract d) I (prog >>= fun r => if r ≠ 0 then pure a else k) Q := by
  refine .bind hprog fun r => .ite (fun hr => .ret fun m v h => ?_) fun hr m v h => ?_
  · rcases h with ⟨hzero, -⟩ | ⟨-, h⟩
    · exact absurd hzero hr
    · exact hfail m v h
  · rcases h with ⟨-, h⟩ | ⟨hlt, -⟩
    · exact hk m v h
    · exact absurd hlt (by omega)

/-- The same for a call that returns 0 or fails at once -/
theorem Done.ret {J : Mem → View conversation → Prop} :
    Prog.Triple (talkContract d) J (pure 0) (Done d c J) := .ret fun _ _ h => .inl ⟨rfl, h⟩

theorem Done.fail {J : Mem → View conversation → Prop} {m : Mem} {v : View conversation} (h : Connected d c m v) :
    Done d c J (-1) m v := .inr ⟨by decide, h⟩

/-! ## Parameters -/

/-- What `get_parameters` leaves alone -/
theorem takeParameters_connection {j : Json} {t t' : IperfTest} (h : takeParameters j t = some t') :
    (t'.ctrlSck, t'.role, t'.listener, t'.protListener, t'.state, t'.streams) =
      (t.ctrlSck, t.role, t.listener, t.protListener, t.state, t.streams) := by
  let connection : IperfTest → Int × Role × Int × Int × TestState × List IperfStream := fun t =>
    (t.ctrlSck, t.role, t.listener, t.protListener, t.state, t.streams)
  show connection t' = connection t
  have hread : connection (readItems j parameterReaders t) = connection t :=
    apply_readItems connection j (by simp [connection, parameterReaders, onSettings, setProtocol,
      iperfSetTestReverse, checkSenderHasRetransmits]) t
  simp only [takeParameters, Option.bind_eq_bind, Option.bind_eq_some_iff] at h
  obtain ⟨t₁, h₁, t₂, h₂, h₃⟩ := h
  have e₁ : connection t₁ = connection t := by
    rcases onString_some h₁ with rfl | ⟨s, rfl⟩ <;> exact hread
  have e₂ : connection t₂ = connection t := by
    rcases onString_some h₂ with rfl | ⟨s, rfl⟩ <;> exact e₁
  rw [← Option.some.inj h₃]
  split <;> exact e₂

/-- `JSON_read`, with the test as it was -/
theorem talk_jsonRead_unmoved (hturn : p.turn = d.other) (hp : p.messages = [(.document, q)]) (hq : s ∈ Phase.states d q) (fuel : Nat)
    {m : Mem} {v : View conversation} (h : Stands d c p s m v) :
    (jsonRead fuel c).Safe (talkContract d) (fun j m' v' => ((j = none → Connected d c m' v') ∧
      (j.isSome → Stands d c q s m' v')) ∧ m'.test = m.test) m v := by
  have hfree := unmoved_jsonRead (o := ⟨fun _ _ _ => (), fun _ _ _ _ => True⟩) (t := m.test) fuel c m () rfl
  exact ((talk_jsonRead hturn hp hq fuel m v h).and_free hfree).mono fun _ _ _ h => ⟨h.1, h.2.2⟩

/-- `send_parameters` -/
theorem talk_sendParameters (hturn : p.turn = d) (hp : p.messages = [(.document, q)]) (hq : s ∈ Phase.states d q)
    (fuel : Nat) :
    Prog.Triple (talkContract d) (Stands d c p s) (sendParameters fuel) (Done d c (Stands d c q s)) := by
  refine .seq (talk_sys id) fun ok _ => .ite (fun _ => talk_fail _) fun _ => triple_getTest_bind fun m v h => ?_
  rw [h.wired.ctrl]
  refine .bind (talk_jsonWrite hturn hp hq fuel _) fun r => .ite (fun hr => ?_) fun hr => ?_
  · refine Prog.Triple.conseq (talk_fail _) (J := Connected d c) (fun m v h => ?_) fun _ _ _ h => h
    rcases h with ⟨rfl, -⟩ | ⟨-, h⟩
    · exact absurd hr (by decide)
    · exact h
  · refine .ret fun m v h => ?_
    rcases h with ⟨-, h⟩ | ⟨hlt, -⟩
    · exact .inl ⟨rfl, h⟩
    · exact absurd hlt hr

/-- `get_parameters` -/
theorem talk_getParameters (hturn : p.turn = d.other) (hp : p.messages = [(.document, q)]) (hq : s ∈ Phase.states d q) (fuel : Nat) :
    Prog.Triple (talkContract d) (Stands d c p s) (getParameters fuel) (Done d c (Stands d c q s)) := by
  intro m v h
  refine safe_getTest_bind.2 ?_
  rw [h.wired.ctrl]
  refine (talk_jsonRead_unmoved hturn hp hq fuel h).bind fun j m' v' ⟨⟨hnone, hsome⟩, htest⟩ => ?_
  cases j with
  | none => exact talk_fail _ m' v' (hnone rfl)
  | some j =>
    dsimp only
    cases htake : takeParameters j m.test with
    | none => trivial
    | some t' =>
      have hon := hsome rfl
      have hw := h.wired
      have hconnection := takeParameters_connection htake
      simp only [Prod.mk.injEq] at hconnection
      obtain ⟨hctrl, hrole, hlistener, hprotListener, hstate, hstreams⟩ := hconnection
      have hwired : Wired d c t' := by
        refine ⟨hctrl.trans hw.ctrl, hw.pos, hrole.trans hw.role, hlistener.trans_ne hw.listener,
          hprotListener.trans_ne hw.protListener, ?_⟩
        rw [hstreams]
        exact hw.streams
      have hdone : Stands d c q s { m' with test := t' } v' := hon.congr hwired (hstate.trans (by rw [htest]))
      exact ⟨hdone.agrees, .inl ⟨rfl, hdone⟩⟩

/-! ## Streams -/

theorem talk_allStreams : Prog.Keeps (talkContract d) (On d c V S) (fun _ => True) allStreams :=
  keeps_getTest_bind fun _ _ _ => .pure trivial

theorem talk_getStream (sp : Nat) : Prog.Keeps (talkContract d) (On d c V S) (fun _ => True) (getStream sp) := by
  refine keeps_getTest_bind fun m _ _ => ?_
  cases m.test.streams[sp]? with
  | none => exact .stop fun _ _ _ => trivial
  | some st => exact .pure trivial

theorem talk_forAllStreams {body : Nat → IperfProg Unit}
    (hbody : ∀ sp, Prog.Keeps (talkContract d) (On d c V S) (fun _ => True) (body sp)) (sps : List Nat) :
    Prog.Keeps (talkContract d) (On d c V S) (fun _ => True) (forAllStreams body sps) := by
  induction sps with
  | nil => exact .pure trivial
  | cons sp sps ih => exact .bind (hbody sp) fun _ _ => ih

/-- A stream with other descriptors is added. -/
theorem talk_addStream {s : Int} (hs : s ≠ c) (f : IperfTest → IperfStream)
    (hf : ∀ t, (f t).socket = s ∧ (f t).diskfileFd ≠ c) :
    Prog.Triple (talkContract d) (On d c V S) (modifyTest fun t => iperfAddStream (f t) t) fun _ => On d c V S := by
  intro m v h
  have hw := h.wired
  have hwired : Wired d c (iperfAddStream (f m.test) m.test) := by
    refine ⟨hw.ctrl, hw.pos, hw.role, hw.listener, hw.protListener, fun st hst => ?_⟩
    rw [iperfAddStream, List.map_append, List.mem_append] at hst
    rcases hst with hst | hst
    · exact hw.streams st hst
    · rw [List.mem_singleton.1 hst]
      exact ⟨(hf m.test).1.trans_ne hs, (hf m.test).2⟩
  have hm : On d c V S { m with test := iperfAddStream (f m.test) m.test } v := h.congr hwired rfl
  exact ⟨hm.agrees, hm⟩

theorem talk_iperfNewStream (hc : 0 < c) {s : Int} (hs : s ≠ c) :
    Prog.Keeps (talkContract d) (On d c V S) (fun _ => True) (iperfNewStream s) := by
  have hnew := iperfNewStream_triple (Q := fun _ => On d c V S) (talk_plumbing (V := V) (S := S) (d := d) hc)
    (s := s) (fun _ _ h => h) fun f hf => talk_addStream hs f hf
  exact fun m v h => (hnew m v h).mono fun _ _ _ h => ⟨trivial, h⟩

theorem talk_connectMsg (s : Int) : Prog.Keeps (talkContract d) (On d c V S) (fun _ => True) (connectMsg s) := by
  refine keeps_getTest_bind fun m v _ => .bind (talk_sys id) fun _ _ => ?_
  exact .ite (fun _ => talk_sys id) fun _ => talk_sys id

/-! ## Results -/

theorem talk_allocResults (sps : List Nat) (r : Int) :
    Prog.Keeps (talkContract d) (On d c V S) (fun r' => r' = r ∨ r' = -1) (allocResults sps r) := by
  induction sps generalizing r with
  | nil => exact .pure (.inl rfl)
  | cons sp sps ih =>
    refine .bind (talk_sys id) fun _ _ => .ite (fun _ => ih r) fun _ => .bind (talk_setIErrno _) fun _ _ => ?_
    exact (ih (-1)).mono fun _ h => .inr (or_self_iff.1 h)

/-- `send_results` -/
theorem talk_sendResults (hturn : p.turn = d) (hp : p.messages = [(.document, q)]) (hq : s ∈ Phase.states d q)
    (fuel : Nat) :
    Prog.Triple (talkContract d) (Stands d c p s) (sendResults fuel) (Done d c (Stands d c q s)) := by
  refine .seq (talk_sys id) fun ok _ => .ite (fun _ => talk_fail _) fun _ => ?_
  refine .seq (talk_sys id) fun ok _ => .ite (fun _ => talk_fail _) fun _ => ?_
  refine .seq talk_allStreams fun sps _ => ?_
  refine .seq (talk_allocResults sps 0) fun r hr => .ite (fun _ => ?_) fun hne => ?_
  · refine triple_getTest_bind fun m v h => ?_
    rw [h.wired.ctrl]
    refine .bind (talk_jsonWrite hturn hp hq fuel _) fun r => .ite (fun hr => ?_) fun hr => ?_
    · refine Prog.Triple.conseq (talk_fail _) (J := Connected d c) (fun m v h => ?_) fun _ _ _ h => h
      rcases h with ⟨rfl, -⟩ | ⟨-, h⟩
      · exact absurd hr (by decide)
      · exact h
    · refine .ret fun m v h => ?_
      rcases h with ⟨-, h⟩ | ⟨hlt, -⟩
      · exact .inl ⟨rfl, h⟩
      · exact absurd hlt hr
  · refine .ret fun m v h => .inr ⟨?_, h.connected⟩
    rw [hr.resolve_left hne]
    decide

/-- `get_results` -/
theorem talk_getResults (hturn : p.turn = d.other) (hp : p.messages = [(.document, q)]) (hq : s ∈ Phase.states d q) (fuel : Nat) :
    Prog.Triple (talkContract d) (Stands d c p s) (getResults fuel) (Done d c (Stands d c q s)) := by
  intro m v h
  refine safe_getTest_bind.2 ?_
  rw [h.wired.ctrl]
  refine (talk_jsonRead_unmoved hturn hp hq fuel h).bind fun j m' v' ⟨⟨hnone, hsome⟩, htest⟩ => ?_
  cases j with
  | none => exact talk_fail _ m' v' (hnone rfl)
  | some j =>
    have hcore : (takeResults j m.test).1.core = m'.test.core := by
      rw [htest]
      exact takeResults_core j m.test
    have hdone : Stands d c q s { m' with test := (takeResults j m.test).1 } v' := (hsome rfl).of_core hcore
    refine ⟨hdone.agrees, ?_⟩
    dsimp only
    split
    · exact .inl ⟨rfl, hdone⟩
    · exact talk_fail _ _ _ hdone

end Iperf
