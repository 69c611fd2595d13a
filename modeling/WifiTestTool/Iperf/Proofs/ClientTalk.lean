import WifiTestTool.Iperf.Proofs.TalkExchange

/-!
# The client keeps to the conversation

Each function of the client, from the opening of the control connection to the end of `iperf_run_client`.
-/

namespace Iperf

open Reactive
open Protocol (View)

variable {c : Int} {V : View conversation → Prop} {S : TestState → Prop}

/-! ## Messages of the server -/

theorem talk_createStreamsLoop (hc : 0 < c) (fuel n : Nat) :
    Prog.Keeps (talkContract .left) (On .left c V S) (fun _ => True) (createStreamsLoop fuel n) := by
  induction n with
  | zero => exact .pure trivial
  | succ n ih =>
    refine keeps_getTest_bind fun _ _ _ => .bind (protocolConnect_keeps (talk_plumbing hc) _ _) fun s hs => ?_
    refine .ite (fun _ => .pure trivial) fun _ => .bind (talk_modifyTest (fun t hw => ?_) fun t => ?_) fun _ _ => ?_
    · dsimp only
      split <;> exact ⟨hw.ctrl, hw.pos, hw.role, hw.listener, hw.protListener, hw.streams⟩
    · dsimp only
      split <;> rfl
    · refine .bind (talk_iperfNewStream hc hs) fun sp _ => .ite (fun _ => .pure trivial) fun _ => ?_
      exact .bind (talk_connectMsg s) fun _ _ => ih

theorem talk_iperfCreateStreams (hc : 0 < c) (fuel : Nat) :
    Prog.Keeps (talkContract .left) (On .left c V S) (fun _ => True) (iperfCreateStreams fuel) :=
  keeps_getTest_bind fun _ _ _ => talk_createStreamsLoop hc fuel _

theorem talk_handleTestStart : Prog.Keeps (talkContract .left) (On .left c V S) (fun _ => True) handleTestStart := by
  refine .bind (talk_measures fun _ _ _ hh => iperfInitTest_neutral hh) fun _ _ => .ite (fun _ => .pure trivial) ?_
  refine fun _ => .bind (talk_measures fun _ _ _ hh => createClientTimers_steady hh.indifferent) fun _ _ => ?_
  refine .ite (fun _ => .pure trivial) fun _ => ?_
  refine .bind (talk_measures fun _ _ _ hh => createOmitTimer_neutral hh) fun _ _ => .ite (fun _ => .pure trivial) ?_
  refine fun _ => keeps_getTest_bind fun m v _ => ?_
  have hrest : ∀ r : Int, Prog.Keeps (talkContract .left) (On .left c V S) (fun _ => True)
      (if r < 0 then pure (-1) else pure (0 : Int)) := fun r => .ite (fun _ => .pure trivial) fun _ => .pure trivial
  refine .ite (fun _ => ?_) fun _ => hrest 0
  exact .bind (talk_measures fun _ _ _ hh => iperfCreateSendTimers_neutral hh) fun r _ => hrest r

theorem talk_closeStreamSockets :
    Prog.Keeps (talkContract .left) (On .left c V S) (fun _ => True) closeStreamSockets :=
  .bind talk_allStreams fun sps _ => talk_forAllStreams (fun sp => .bind (talk_getStream sp) fun _ _ => talk_sys id) sps

/-- `iperf_client_end`: the test is done, even if the server cannot be told. -/
theorem talk_iperfClientEnd (fuel : Nat) :
    Prog.Triple (talkContract .left) (On .left c (Before .iperfDone) S) (iperfClientEnd fuel) fun _ =>
      On .left c (fun _ => True) (· = TestState.IPERF_DONE) := by
  refine .seq talk_closeStreamSockets fun _ _ => ?_
  refine .seq (talk_measures fun _ _ _ hh => iperfReporterCallback_neutral hh) fun _ _ => ?_
  refine .bind (talk_sendState (d := .left) (p := .iperfDone) (q := .finished) rfl rfl (by decide) (by decide) fuel) fun r => ?_
  exact .ite (fun _ => .ret fun _ _ h => h) fun _ => .ret fun _ _ h => h

theorem talk_clientParameters (fuel : Nat) :
    Prog.Triple (talkContract .left) (Stands .left c .parameters TestState.PARAM_EXCHANGE)
      (iperfExchangeParameters fuel) (Done .left c (Stands .left c .createStreams TestState.PARAM_EXCHANGE)) := by
  refine triple_getTest_bind fun m v h => .ite (fun _ => ?_) fun hne => absurd h.wired.role hne
  exact Done.bind (talk_sendParameters (p := .parameters) rfl rfl (by decide) fuel) (fun _ _ => Done.fail) Done.ret

theorem talk_clientResults (fuel : Nat) :
    Prog.Triple (talkContract .left) (Stands .left c .clientResults TestState.EXCHANGE_RESULTS)
      (iperfExchangeResults fuel) (Done .left c (Stands .left c .displayResults TestState.EXCHANGE_RESULTS)) := by
  refine triple_getTest_bind fun m v h => .ite (fun _ => ?_) fun hne => absurd h.wired.role hne
  refine Done.bind (talk_sendResults (p := .clientResults) rfl rfl (by decide) fuel) (fun _ _ => Done.fail) ?_
  exact Done.bind (talk_getResults (p := .serverResults) rfl rfl (by decide) fuel) (fun _ _ => Done.fail) Done.ret

/-- The server cannot listen for the streams. -/
theorem talk_handleServerError (fuel : Nat) :
    Prog.Triple (talkContract .left) (Stands .left c .iErrno TestState.SERVER_ERROR) (handleServerError fuel)
      fun r m v => r < 0 ∧ Connected .left c m v := by
  have hfail : ∀ e, Prog.Triple (talkContract .left) (Connected .left c) (fail e) fun r m v =>
      r < 0 ∧ Connected .left c m v := fun e =>
    .seq (talk_setIErrno e) fun _ _ => .ret fun _ _ h => ⟨by decide, h⟩
  refine triple_getTest_bind fun m v h => .seq (talk_sys id) fun err _ => ?_
  rw [h.wired.ctrl]
  refine .bind (talk_nreadBlock (d := .left) (p := .iErrno) (q := .errno) rfl (by decide) fuel) fun got => ?_
  cases got with
  | none => exact Prog.Triple.conseq (hfail _) (fun m v h => h.1 rfl) fun _ _ _ h => h
  | some got =>
    refine Prog.Triple.conseq (J := Stands .left c .errno TestState.SERVER_ERROR) ?_ (fun m v h => h.2 rfl)
      fun _ _ _ h => h
    refine .seq (talk_setIErrno _) fun _ _ => ?_
    refine .bind (talk_nreadBlock (d := .left) (p := .errno) (q := .refused) rfl (by decide) fuel) fun got => ?_
    cases got with
    | none => exact Prog.Triple.conseq (hfail _) (fun m v h => h.1 rfl) fun _ _ _ h => h
    | some got =>
      refine Prog.Triple.conseq (J := Connected .left c) (.seq (talk_setErrno _) fun _ _ => ?_)
        (fun m v h => (h.2 rfl).connected) fun _ _ _ h => h
      exact .ret fun _ _ h => ⟨by decide, h⟩

/-- What the client does when it has heard the state `s`, with which the conversation has come to the phase `q` -/
theorem talk_handleStateClient (hc : 0 < c) {p q : Phase} {s : TestState} (hp : (Message.state s, q) ∈ p.messages)
    (hturn : p.turn = .right) (fuel : Nat) :
    Prog.Triple (talkContract .left) (Stands .left c q s) (handleStateClient fuel s) (Proceeds .left c) := by
  have hrest : ∀ {p s} {r : Int}, (p, s) ∈ restPoints .left →
      Prog.Triple (talkContract .left) (Stands .left c p s) (pure r) (Proceeds .left c) := fun hx =>
    .ret fun _ _ h => .inr (h.rests hx)
  have hstop : ∀ m v, Connected .left c m v → Proceeds .left c (-1) m v := fun _ _ h => .inl ⟨by decide, h⟩
  cases p <;> simp only [Phase.messages, List.mem_cons, List.not_mem_nil, or_false, Prod.mk.injEq, Message.state.injEq,
    reduceCtorEq, false_and] at hp <;> try cases hturn
  case paramExchange =>
    obtain ⟨rfl, rfl⟩ := hp
    refine Done.bind (talk_clientParameters fuel) hstop ?_
    exact .seq (talk_measures fun _ _ _ hh => iperfOnConnect_neutral hh) fun _ _ => hrest (by decide)
  case createStreams =>
    rcases hp with ⟨rfl, rfl⟩ | ⟨rfl, rfl⟩
    · refine .seq (talk_iperfCreateStreams hc fuel) fun r _ => .ite (fun _ => ?_) fun _ => hrest (by decide)
      exact hrest (by decide)
    · exact fun m v h => (talk_handleServerError fuel m v h).mono fun _ _ _ h => .inl h
  case testStart =>
    obtain ⟨rfl, rfl⟩ := hp
    exact fun m v h => (talk_handleTestStart m v h).mono fun _ _ _ h => .inr (h.2.rests (by decide))
  case testRunning =>
    obtain ⟨rfl, rfl⟩ := hp
    exact hrest (by decide)
  case exchangeResults =>
    obtain ⟨rfl, rfl⟩ := hp
    exact Done.bind (talk_clientResults fuel) hstop (hrest (by decide))
  case displayResults =>
    obtain ⟨rfl, rfl⟩ := hp
    exact .bind (talk_iperfClientEnd fuel) fun _ => .ret fun _ _ h => .inr (.inr h)

theorem talk_iperfHandleMessageClient (hc : 0 < c) (fuel : Nat) :
    Prog.Triple (talkContract .left) (Awaits .left c) (iperfHandleMessageClient fuel) (Proceeds .left c) := by
  have hfail : ∀ e, Prog.Triple (talkContract .left) (Connected .left c) (fail e) (Proceeds .left c) := fun e =>
    .seq (talk_setIErrno e) fun _ _ => .ret fun _ _ h => .inl ⟨by decide, h⟩
  rintro m v ⟨x, hx, h⟩
  refine safe_getTest_bind.2 ?_
  rw [h.wired.ctrl]
  have hstate : m.test.state = x.2 := h.state
  have hread := talk_read (d := .left) (c := c) (n := 1) (s := m.test.state) v (fun _ w hw _ => ?_) (fun hturn y hy => ?_)
    m v h.point
  · refine hread.bind fun a m' v' h' => ?_
    match a with
    | .error e => exact (Prog.Triple.seq (talk_setErrno e) fun _ _ => hfail _) m' v' h'.connected
    | .ok [] => exact absurd rfl h'.1
    | .ok (b :: bs) =>
      obtain ⟨-, hlength, hturn, hbegins, hon⟩ := h'
      obtain rfl : bs = [] := List.eq_nil_of_length_eq_zero (by simpa using hlength)
      rw [h.view.1] at hturn
      obtain ⟨s, q, hmem, hb, hv'⟩ := heard_state h.view (restPoint_messages hx hturn).1 hbegins
      have hset : Prog.Triple (talkContract .left) (On .left c (Before q) fun _ => True)
          (modifyTest fun t => { t with state := s }) fun _ => Stands .left c q s :=
        talk_setState fun v hv => hv.1 ▸ message_states hmem
      dsimp only
      rw [hb]
      exact Prog.Triple.bind hset (fun _ => talk_handleStateClient hc hmem hturn fuel) m' v'
        ⟨hon.wired, hon.agrees, hon.settled, hon.view ▸ hv', trivial⟩
  · rw [h.view.2, List.length_nil, Nat.zero_add]
    refine List.length_pos_iff.2 fun hnil => ?_
    have hnone : Phase.next v.state [] = none := conversation.next_nil v.state
    rw [hnil, hnone] at hw
    cases hw
  · rw [h.view.1] at hturn hy
    rw [hstate]
    exact (restPoint_messages hx hturn).2 y hy

/-! ## The loop -/

/-- The test is running in one phase only. -/
theorem Rests.running {m : Mem} {v : View conversation} (h : Rests .left c m v)
    (hs : m.test.state = TestState.TEST_RUNNING) : Stands .left c .testEnd TestState.TEST_RUNNING m v := by
  rcases h with ⟨x, hx, h⟩ | h
  · have hpoint : ∀ x ∈ restPoints .left, x.2 = TestState.TEST_RUNNING → x = (.testEnd, TestState.TEST_RUNNING) := by
      decide
    rw [hpoint x hx (h.state.symm.trans hs)] at h
    exact h
  · exact absurd (h.state.symm.trans hs) (by decide)

theorem talk_clientSelect (hc : 0 < c) (fuel : Nat) (l : ClientLocals) :
    Prog.Triple (talkContract .left) (Awaits .left c) (clientSelect fuel l) (Passes .left c) := by
  refine triple_getTest_bind fun _ _ _ => ?_
  refine .seq (Awaits.keeps fun _ _ => talk_measures fun _ _ _ hh => gettimeofday_neutral hh) fun now _ => ?_
  refine .seq (Awaits.keeps fun _ _ => talk_measures fun _ _ _ hh => getTimeout_neutral hh now) fun timeout _ => ?_
  refine .seq (Awaits.keeps fun _ _ => talk_sys id) fun a _ => ?_
  cases a with
  | error e =>
    refine .seq (Awaits.keeps fun _ _ => talk_setErrno e) fun _ _ => .ite (fun _ => ?_) fun _ => ?_
    · refine .seq (Awaits.keeps fun _ _ => talk_setIErrno _) fun _ _ => ?_
      exact .ret fun _ _ h => passes_none h.rests.connected
    · exact .ret fun _ _ h => passes_some h.rests
  | ok a =>
    obtain ⟨n, readSet, writeSet⟩ := a
    refine triple_getTest_bind fun _ _ _ => .ite (fun _ => ?_) fun _ => .ret fun _ _ h => passes_some h.rests
    refine .bind (talk_iperfHandleMessageClient hc fuel) fun r => .ite (fun _ => ?_) fun hr => ?_
    · exact .ret fun _ _ h => passes_none h.connected
    · exact triple_getTest_bind fun _ _ _ => .ret fun _ _ h => passes_some (h.resolve_left fun h => hr h.1)

theorem talk_clientStartup (l : ClientLocals) :
    Prog.Keeps (talkContract .left) (On .left c V S) (fun _ => True) (clientStartup l) := by
  refine keeps_getTest_bind fun _ _ _ => .ite (fun _ => .ite (fun _ => ?_) fun _ => .pure trivial) fun _ => .pure trivial
  refine .bind (talk_modifyTest (fun t hw => ?_) fun _ => rfl) fun _ _ => .bind (talk_sys id) fun _ _ => .pure trivial
  exact ⟨hw.ctrl, hw.pos, hw.role, hw.listener, hw.protListener, hw.streams⟩

theorem talk_clientData (fuel : Nat) (l : ClientLocals) :
    Prog.Keeps (talkContract .left) (On .left c V S) (fun _ => True) (clientData fuel l) :=
  keeps_getTest_bind fun _ _ _ => .ite (fun _ => talk_measures fun _ _ _ hh => iperfRecv_neutral hh _ _) fun _ =>
    talk_measures fun _ _ _ hh => iperfSend_neutral hh _ _

theorem talk_runTimers {d : Side} (fuel : Nat) :
    Prog.Keeps (talkContract d) (On d c V S) (fun _ => True) (runTimers fuel) :=
  talk_measures fun _ _ _ hh => runTimers_neutral hh fuel

theorem talk_clientTimers (fuel : Nat) (l : ClientLocals) :
    Prog.Keeps (talkContract .left) (On .left c V S) (fun _ => True) (clientTimers fuel l) := by
  refine .ite (fun _ => .bind (talk_sys id) fun _ _ => ?_) fun _ => ?_
  · exact .ite (fun _ => talk_runTimers fuel) fun _ => .pure trivial
  · exact .ite (fun _ => talk_runTimers fuel) fun _ => .pure trivial

/-- The client ends the test: it is its turn. -/
theorem talk_clientMaybeEnd (fuel : Nat) (l : ClientLocals) :
    Prog.Triple (talkContract .left) (Stands .left c .testEnd TestState.TEST_RUNNING) (clientMaybeEnd fuel l)
      (Passes .left c) := by
  refine triple_getTest_bind fun _ _ _ => .ite (fun _ => ?_) fun _ => .ret fun _ _ h => passes_some (h.rests (by decide))
  refine .seq (talk_modifyTest (fun t hw => ?_) fun _ => rfl) fun _ _ => ?_
  · exact ⟨hw.ctrl, hw.pos, hw.role, hw.listener, hw.protListener, hw.streams⟩
  refine .seq (talk_measures fun _ _ _ hh => updateCpuUtil_neutral hh) fun _ _ => ?_
  refine .seq (talk_measures fun _ _ _ hh => iperfStatsCallback_neutral hh) fun _ _ => ?_
  refine Done.bind_ne (talk_iperfSetSendState (p := .testEnd) (q := .exchangeResults) rfl rfl (by decide) (by decide) fuel)
    (fun _ _ => passes_none) (.ite (fun _ => .seq (talk_sys id) fun _ _ => ?_) fun _ => ?_)
  · exact .ret fun _ _ h => passes_some (h.rests (by decide))
  · exact .ret fun _ _ h => passes_some (h.rests (by decide))

theorem talk_clientRunning (fuel : Nat) (l : ClientLocals) :
    Prog.Triple (talkContract .left) (Stands .left c .testEnd TestState.TEST_RUNNING) (clientRunning fuel l)
      (Passes .left c) := by
  refine .seq (talk_clientStartup l) fun l _ => .seq (talk_clientData fuel l) fun r _ => ?_
  refine .ite (fun _ => .ret fun _ _ h => passes_none h.connected) fun _ => ?_
  exact .seq (talk_clientTimers fuel l) fun _ _ => talk_clientMaybeEnd fuel l

theorem talk_clientStep (hc : 0 < c) (fuel : Nat) (l : ClientLocals) :
    Prog.Triple (talkContract .left) (Awaits .left c) (clientStep fuel l) (Passes .left c) := by
  have hrest : ∀ l : ClientLocals, Prog.Triple (talkContract .left) (Rests .left c) (do
      let t ← getTest
      if t.state = TestState.TEST_RUNNING then
        clientRunning fuel l
      else if t.reverse ≠ 0 ∧ t.state = TestState.TEST_END then do
        let r ← iperfRecv fuel l.readSet
        if r < 0 then pure none else pure (some l)
      else
        pure (some l)) (Passes .left c) := by
    refine fun l m v h => safe_getTest_bind.2 ?_
    split
    · exact talk_clientRunning fuel l m v (h.running ‹_›)
    · refine (Prog.Triple.ite (fun _ => ?_) fun _ => .ret fun _ _ h => passes_some h :
        Prog.Triple (talkContract .left) (Rests .left c) _ (Passes .left c)) m v h
      refine .seq (Rests.keeps fun _ _ => talk_measures fun _ _ _ hh => iperfRecv_neutral hh _ _) fun r _ => ?_
      exact .ite (fun _ => .ret fun _ _ h => passes_none h.connected) fun _ => .ret fun _ _ h => passes_some h
  refine .ite (fun _ => Prog.Triple.conseq (hrest l) (fun _ _ h => h.rests) fun _ _ _ h => h) fun _ => ?_
  refine .bind (talk_clientSelect hc fuel l) fun r => ?_
  cases r with
  | none => exact .ret fun _ _ h => passes_none (h.1 rfl)
  | some l => exact Prog.Triple.conseq (hrest l) (fun _ _ h => h.2 rfl) fun _ _ _ h => h

/-- The loop ends where the client is done, or where the run ends. -/
theorem talk_clientLoop (hc : 0 < c) (fuel passes : Nat) (l : ClientLocals) :
    Prog.Triple (talkContract .left) (Rests .left c) (clientLoop fuel passes l) fun ok =>
      On .left c (fun _ => True) fun s => ok = true → s = TestState.IPERF_DONE := by
  have hstop : ∀ m v, Connected .left c m v → On .left c (fun _ => True)
      (fun s => false = true → s = TestState.IPERF_DONE) m v := fun m v h =>
    ⟨h.wired, h.agrees, h.settled, trivial, nofun⟩
  induction passes generalizing l with
  | zero => exact fun _ _ _ => trivial
  | succ passes ih =>
    refine fun m v h => safe_getTest_bind.2 ?_
    split
    · rename_i hdone
      exact ⟨h.connected.wired, h.connected.agrees, h.connected.settled, trivial, fun _ => hdone⟩
    · rename_i hdone
      refine Prog.Safe.bind (talk_clientStep hc fuel l m v (h.resolve_right fun h => hdone h.state)) fun r m v h => ?_
      cases r with
      | none => exact hstop m v (h.1 rfl)
      | some l => exact ih l m v (h.2 rfl)

theorem talk_clientFinish : Prog.Keeps (talkContract .left) (On .left c V S) (fun _ => True) clientFinish := by
  refine keeps_getTest_bind fun _ _ _ => .ite (fun _ => ?_) fun _ => ?_
  · refine .bind (talk_measures fun _ _ _ hh => iperfJsonFinish_neutral hh) fun _ _ => ?_
    exact .ite (fun _ => .pure trivial) fun _ => .pure trivial
  · exact .bind (talk_sys id) fun _ _ => .bind (talk_sys id) fun _ _ => .pure trivial

/-! ## The opening of the connection -/

section Connect

variable {T : IperfTest → Prop}

theorem idle_result {α : Type} {a : Except Errno α} {f : α → Int} {P : Int → Prop} (hneg : P (-1))
    (hok : ∀ v, a = .ok v → P (f v)) : Prog.Keeps (talkContract .left) (Idle .left T) P (result a f) := by
  cases a with
  | error e => exact .bind (idle_setErrno e) fun _ _ => .pure hneg
  | ok v => exact .pure (hok v rfl)

/-- A new descriptor is positive. -/
theorem idle_sockSocket (family : Domain) (prot : ProtId) :
    Prog.Keeps (talkContract .left) (Idle .left T) (fun s => s < 0 ∨ 0 < s) (sockSocket family prot) := by
  refine .bind (Q := fun a => ∀ s, a = .ok s → 0 < s) (.ask fun m v h => ?_) fun a ha => ?_
  · have hcall := idle_call (r := .socket family prot) h trivial
    refine ⟨hcall.1, fun a ha => ⟨?_, by rw [hcall.2 a ha.1]; exact h⟩⟩
    rintro s rfl
    exact ha.1.1
  · exact idle_result (.inl (by decide)) fun s hs => .inr (ha s hs)

theorem idle_orClose {s : Int} {r k : IperfProg Int}
    (hr : Prog.Keeps (talkContract .left) (Idle .left T) (fun _ => True) r)
    (hk : Prog.Keeps (talkContract .left) (Idle .left T) (fun s => s < 0 ∨ 0 < s) k) :
    Prog.Keeps (talkContract .left) (Idle .left T) (fun s => s < 0 ∨ 0 < s) (orClose s r k) :=
  .bind hr fun _ _ => .ite (fun _ => .bind (idle_sys trivial) fun _ _ => .pure (.inl (by decide))) fun _ => hk

theorem idle_netdial (domain : Domain) (loc server : Option String) (port : Int) :
    Prog.Keeps (talkContract .left) (Idle .left T) (fun s => s < 0 ∨ 0 < s) (netdial domain .tcp loc server port) := by
  have hfail : (-1 : Int) < 0 ∨ (0 : Int) < -1 := .inl (by decide)
  have hlookup : Prog.Keeps (talkContract .left) (Idle .left T) (fun _ => True) (lookupLocal domain loc) := by
    cases loc with
    | none => exact .pure trivial
    | some host => exact .bind (idle_sys trivial) fun _ _ => .pure trivial
  refine .bind hlookup fun _ _ => .ite (fun _ => .pure hfail) fun _ => .bind (idle_sys trivial) fun res _ => ?_
  cases res with
  | none => exact .pure hfail
  | some family =>
    refine .bind (idle_sockSocket family .tcp) fun s hs => .ite (fun _ => .pure hfail) fun _ => ?_
    refine idle_orClose (.ite (fun _ => .bind (idle_sys trivial) fun _ _ => ?_) fun _ => .pure trivial) ?_
    · exact idle_result trivial fun _ _ => trivial
    refine idle_orClose (.bind (idle_sys trivial) fun a _ => ?_) (.pure hs)
    split
    · exact .pure trivial
    · exact idle_result trivial fun _ _ => trivial

/-- A client has no listeners. -/
def NoListener (t : IperfTest) : Prop := t.listener = 0 ∧ t.protListener = -1

/-- The client says the cookie. -/
theorem talk_sayCookie (fuel : Nat) :
    Prog.Triple (talkContract .left) (fun m v => On .left c (Before .cookie) (· = 0) m v ∧ m.test.cookie.length = COOKIE_SIZE)
      (do
        let t ← getTest
        if t.ctrlSck < 0 then
          fail .IECONNECT
        else do
          let r ← nwrite fuel t.ctrlSck t.cookie
          if r < 0 then
            fail .IESENDCOOKIE
          else do
            modifyTest fun t => { t with
              readSet := insert t.ctrlSck t.readSet
              maxFd := max t.maxFd t.ctrlSck }
            pure (0 : Int)) fun r m v => r < 0 ∨ r = 0 ∧ Stands .left c .paramExchange 0 m v := by
  rintro m v ⟨h, hcookie⟩
  refine safe_getTest_bind.2 ?_
  have hpos := h.wired.pos
  rw [h.wired.ctrl, if_neg (by omega)]
  have hnext : Phase.cookie.next m.test.cookie = some .paramExchange := by
    have his : (Message.block COOKIE_SIZE).is m.test.cookie = true := by simpa [Message.is] using hcookie
    unfold Phase.next Phase.messages
    rw [List.find?_cons_of_pos (p := fun m : Message × Phase => m.1.is _) his]
    rfl
  refine (triple_before (p := .cookie) (s := 0) fun v₀ hv => ?_) m v h
  obtain ⟨hstate, hcur⟩ := hv
  have hwrite := talk_nwrite (d := .left) (c := c) (s := 0) [] m.test.cookie hcur
    (by rw [hstate]; rfl) (by rw [hstate]; exact hnext) (by decide) List.prefix_rfl fuel
  refine .bind hwrite fun r => .ite (fun hr => ?_) fun hr => ?_
  · refine Prog.Triple.conseq (J := Connected .left c) (.seq (talk_setIErrno _) fun _ _ => .ret fun _ _ _ => .inl (by decide))
      (fun m v h => ?_) fun _ _ _ h => h
    rcases h with ⟨hge, -⟩ | ⟨-, h⟩
    · exact absurd hr (not_lt.2 hge)
    · exact h
  · refine Prog.Triple.conseq (J := Stands .left c .paramExchange 0) (.seq (talk_modifyTest (fun t hw => ?_) fun _ => rfl) ?_)
      (fun m v h => ?_) fun _ _ _ h => h
    · exact ⟨hw.ctrl, hw.pos, hw.role, hw.listener, hw.protListener, hw.streams⟩
    · exact fun _ _ => .ret fun _ _ h => .inr ⟨rfl, h⟩
    · rcases h with ⟨-, h⟩ | ⟨hlt, -⟩
      · exact h.before ⟨hstate, hcur⟩ hnext
      · exact absurd hlt hr

theorem talk_iperfConnect (fuel : Nat) :
    Prog.Triple (talkContract .left) (Idle .left NoListener) (iperfConnect fuel) fun r m v =>
      r < 0 ∨ r = 0 ∧ ∃ c, 0 < c ∧ Stands .left c .paramExchange 0 m v := by
  have hsets : Prog.Keeps (talkContract .left) (Idle .left NoListener) (fun _ => True)
      (modifyTest fun t => { t with readSet := ∅, writeSet := ∅ }) :=
    idle_modify fun _ _ h => h.congr rfl rfl h.streams rfl h.test
  refine .seq hsets fun _ _ => .seq (R := fun cookie => cookie.length = COOKIE_SIZE) (.ask fun m v h => ?_) ?_
  · have hcall := idle_call (r := .makeCookie) h trivial
    exact ⟨hcall.1, fun a ha => ⟨ha.1, by rw [hcall.2 a ha.1]; exact h⟩⟩
  intro cookie hcookie
  refine .bind (M := fun _ => Idle .left fun t => NoListener t ∧ t.cookie.length = COOKIE_SIZE) (fun m v h => ?_) fun _ => ?_
  · exact ⟨h.agrees, h.ctrl, h.role, h.streams, h.agrees, h.view, h.test, hcookie⟩
  refine fun m v h => safe_getTest_bind.2 ?_
  rw [if_pos (by rw [h.ctrl]; decide)]
  refine (idle_netdial _ _ _ _ m v h).bind fun s m v ⟨hs, h⟩ => ⟨h.agrees, ?_⟩
  rcases hs with hneg | hpos
  · exact safe_getTest_bind.2 (by rw [if_pos hneg]; exact ⟨h.agrees, .inl (by decide)⟩)
  · have hzero : m.test.state = 0 := by
      have hagrees := h.agrees
      rw [Agrees, h.view] at hagrees
      exact List.mem_singleton.1 hagrees
    have hon := h.connect hpos (by rw [h.test.1.1]; omega) (by rw [h.test.1.2]; omega)
    rw [hzero] at hon
    refine (talk_sayCookie fuel _ v ⟨⟨hon.wired, hon.agrees, hon.settled, ?_, hon.state⟩, h.test.2⟩).mono ?_
    · rw [h.view]
      exact ⟨rfl, rfl⟩
    · rintro r m v (hneg | ⟨hr, h⟩)
      · exact .inl hneg
      · exact .inr ⟨hr, s, hpos, h⟩

end Connect

/-! ## `iperf_run_client` -/

theorem talk_clientMain (fuel : Nat) :
    Prog.Triple (talkContract .left) (Idle .left NoListener) (clientMain fuel) TalkedOut := by
  refine .bind (talk_iperfConnect fuel) fun r => .ite (fun _ => .ret fun _ _ _ => nofun) fun hr => ?_
  rintro m v (hneg | ⟨-, c, hc, h⟩)
  · exact absurd hneg hr
  refine (talk_sys (r := .cpuUtil) id m v h).bind fun _ m v ⟨_, h⟩ => ?_
  refine (talk_clientLoop hc fuel fuel _ m v (h.rests (by decide))).bind fun ok m v h => ?_
  cases ok with
  | false => exact nofun
  | true => exact (talk_clientFinish m v h).mono fun _ _ _ h _ => h.2.state rfl

/-- **The client keeps to the conversation.** -/
theorem talk_iperfRunClient (fuel : Nat) :
    Prog.Triple (talkContract .left) (Idle .left NoListener) (iperfRunClient fuel) TalkedOut := by
  have hcore : ∀ t t' : IperfTest, t'.core = t.core → NoListener t → NoListener t' := fun t t' hcore h =>
    ⟨(congrArg (fun k => k.1.listener) hcore).trans h.1, (congrArg (fun k => k.1.protListener) hcore).trans h.2⟩
  refine .seq (idle_sys trivial) fun _ _ => ?_
  exact prolog_triple (fun affinity => idle_measures hcore fun _ _ _ hh => iperfSetaffinity_neutral hh affinity)
    (idle_measures hcore fun _ _ _ hh => iperfJsonStart_neutral hh)
    (fun t => idle_measures hcore fun _ _ _ hh => reportVersion_neutral hh t) (fun _ _ _ => nofun) (talk_clientMain fuel)

end Iperf
