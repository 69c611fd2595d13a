import WifiTestTool.Iperf.Proofs.TalkExchange

/-!
# The server keeps to the conversation

Each function of `iperf_run_server`. The server waits for a client without a control connection; once it has
one, it turns other clients away.
-/

namespace Iperf

open Reactive
open Protocol (View)

variable {c : Int} {V : View conversation → Prop} {S : TestState → Prop}

/-! ## Other descriptors -/

theorem talk_sockAccept (hc : 0 < c) (fd : Int) :
    Prog.Keeps (talkContract .right) (On .right c V S) (· ≠ c) (sockAccept fd) := by
  refine .bind (Q := fun a => ∀ s, a = .ok s → s ≠ c) (.ask fun m v h => ?_) fun a ha => ?_
  · have hquiet := quiet_call (r := .accept fd) h id
    refine ⟨hquiet.1, fun a ha => ⟨?_, by rw [hquiet.2]; exact h⟩⟩
    rintro s rfl
    have hne := ha.1.2.2.2
    rwa [h.wired.ctrl] at hne
  · cases a with
    | error e => exact .bind (talk_setErrno e) fun _ _ => .pure (by omega)
    | ok s => exact .pure (ha s rfl)

theorem talk_nreadOther {fd : Int} (hfd : fd ≠ c) (fuel n : Nat) :
    Prog.Keeps (talkContract .right) (On .right c V S) (fun _ => True) (nread fuel fd n) :=
  nread_keeps (fun _ => talk_sys hfd) talk_setErrno (fun _ _ _ => trivial) fuel n

theorem talk_nwriteOther {fd : Int} (hfd : fd ≠ c) (fuel : Nat) (buf : List UInt8) :
    Prog.Keeps (talkContract .right) (On .right c V S) (fun _ => True) (nwrite fuel fd buf) :=
  nwrite_keeps (fun _ => talk_sys hfd) talk_setErrno (fun _ _ _ => trivial) fuel buf

theorem talk_failKeeps {P : Int → Prop} {e : IErr} (hneg : P (-1)) :
    Prog.Keeps (talkContract .right) (On .right c V S) P (fail e) := .bind (talk_setIErrno e) fun _ _ => .pure hneg

theorem talk_denyClient {s : Int} (hs : s ≠ c) (fuel : Nat) :
    Prog.Keeps (talkContract .right) (On .right c V S) (fun _ => True) (denyClient fuel s) := by
  refine .bind (talk_sys id) fun _ _ => .bind (talk_nreadOther hs fuel _) fun got _ => ?_
  cases got with
  | none => exact talk_failKeeps trivial
  | some got =>
    refine .bind (talk_nwriteOther hs fuel _) fun _ _ => .ite (fun _ => talk_failKeeps trivial) fun _ => ?_
    exact .bind (talk_sys id) fun _ _ => .pure trivial

theorem talk_iperfTcpAccept (hc : 0 < c) (fuel : Nat) :
    Prog.Keeps (talkContract .right) (On .right c V S) (· ≠ c) (iperfTcpAccept fuel) := by
  have hneg : (-1 : Int) ≠ c := by omega
  refine keeps_getTest_bind fun m v _ => .bind (talk_sockAccept hc _) fun s hs => ?_
  refine .ite (fun _ => talk_failKeeps hneg) fun _ => .bind (talk_sys id) fun cookie _ => ?_
  refine .bind (talk_nreadOther hs fuel _) fun got _ => ?_
  cases got with
  | none => exact talk_failKeeps hneg
  | some got =>
    have hrest : ∀ equal : Bool, Prog.Keeps (talkContract .right) (On .right c V S) (· ≠ c) (if equal then pure s else do
        let r ← nwrite fuel s [TestState.ACCESS_DENIED.toUInt8]
        if r < 0 then
          fail .IESENDMESSAGE
        else do
          sys (.close s)
          pure s) := by
      refine fun equal => .ite (fun _ => .pure hs) fun _ => .bind (talk_nwriteOther hs fuel _) fun _ _ => ?_
      refine .ite (fun _ => talk_failKeeps hneg) fun _ => .bind (talk_sys id) fun _ _ => .pure hs
    dsimp only
    split
    · exact hrest _
    · exact .bind (talk_sys id) fun equal _ => hrest equal

theorem talk_protocolAccept (hc : 0 < c) (fuel : Nat) (prot : ProtId) :
    Prog.Keeps (talkContract .right) (On .right c V S) (· ≠ c) (protocolAccept fuel prot) := by
  cases prot with
  | tcp => exact talk_iperfTcpAccept hc fuel
  | udp => exact iperfUdpAccept_keeps (talk_plumbing hc)
  | sctp => exact talk_iperfTcpAccept hc fuel

theorem talk_cleanupServer :
    Prog.Keeps (talkContract .right) (On .right c V S) (fun _ => True) cleanupServer := by
  refine keeps_getTest_bind fun _ _ _ => .bind (talk_sys id) fun _ _ => .bind (talk_sys id) fun _ _ => ?_
  refine .bind (talk_measures fun _ _ _ hh => cancelTimer_neutral hh fun _ => rfl) fun _ _ => ?_
  refine .bind (talk_measures fun _ _ _ hh => cancelTimer_neutral hh fun _ => rfl) fun _ _ => ?_
  exact talk_measures fun _ _ _ hh => cancelTimer_neutral hh fun _ => rfl

/-- A call after which the run may be over -/
theorem talk_orCleanup {α : Type} {I J : Mem → View conversation → Prop} {r : IperfProg Int} {k : IperfProg (Option α)}
    (hr : Prog.Triple (talkContract .right) I r (Done .right c J))
    (hk : Prog.Triple (talkContract .right) J k (Passes .right c)) :
    Prog.Triple (talkContract .right) I (orCleanup r k) (Passes .right c) := by
  refine .bind hr fun v => .ite (fun hv => ?_) fun hv m v h => ?_
  · refine Prog.Triple.conseq (J := Connected .right c) (.seq talk_cleanupServer fun _ _ => .ret fun _ _ h => passes_none h)
      (fun m v h => ?_) fun _ _ _ h => h
    rcases h with ⟨rfl, -⟩ | ⟨-, h⟩
    · exact absurd hv (by decide)
    · exact h
  · rcases h with ⟨-, h⟩ | ⟨hlt, -⟩
    · exact hk m v h
    · exact absurd hlt hv

/-- The same for a call that does not touch the connection -/
theorem talk_orCleanup_keeps {α : Type} {r : IperfProg Int} {k : IperfProg (Option α)}
    (hr : Prog.Keeps (talkContract .right) (On .right c V S) (fun _ => True) r)
    (hk : Prog.Triple (talkContract .right) (On .right c V S) k (Passes .right c)) :
    Prog.Triple (talkContract .right) (On .right c V S) (orCleanup r k) (Passes .right c) := by
  refine .seq hr fun v _ => .ite (fun _ => ?_) fun _ => hk
  exact .seq talk_cleanupServer fun _ _ => .ret fun _ _ h => passes_none h.connected

/-! ## The parameters -/

/-- `Nwrite` of a block -/
theorem talk_nwriteBlock {p q : Phase} {s : TestState} {w : List UInt8} (hturn : p.turn = .right)
    (hnext : p.next w = some q) (hq : s ∈ Phase.states .right q) (fuel : Nat) :
    Prog.Triple (talkContract .right) (Stands .right c p s) (nwrite fuel c w) fun r m v =>
      r < 0 ∧ Connected .right c m v ∨ 0 ≤ r ∧ Stands .right c q s m v := by
  refine triple_before fun v₀ hv => ?_
  obtain ⟨rfl, hcur⟩ := hv
  refine Prog.Triple.conseq (talk_nwrite [] w hcur hturn hnext hq List.prefix_rfl fuel) (fun _ _ h => h) ?_
  rintro r m v (⟨hr, h⟩ | h)
  · exact .inr ⟨hr, h.before ⟨rfl, hcur⟩ hnext⟩
  · exact .inl h

theorem next_block {p q : Phase} {n : Nat} (hp : p.messages = [(.block n, q)]) {w : List UInt8} (hw : w.length = n) :
    p.next w = some q := by
  unfold Phase.next
  rw [hp, List.find?_cons_of_pos (p := fun m : Message × Phase => m.1.is w) (by simpa [Message.is] using hw)]
  rfl

theorem safe_getMem_bind {α : Type} {K : Contract Mem Req.Ans Halt (View conversation)} {f : Mem → IperfProg α}
    {Q : α → Mem → View conversation → Prop} {m : Mem} {v : View conversation} :
    (Prog.get >>= f).Safe K Q m v ↔ (f m).Safe K Q m v := Iff.rfl

/-- The server tells the client that it cannot listen for the streams. -/
theorem talk_sendServerError (fuel : Nat) :
    Prog.Triple (talkContract .right) (Stands .right c .createStreams TestState.PARAM_EXCHANGE) (sendServerError fuel)
      fun r m v => r < 0 ∧ Connected .right c m v := by
  have hfail : Prog.Triple (talkContract .right) (Connected .right c) (fail .IECTRLWRITE) fun r m v =>
      r < 0 ∧ Connected .right c m v := .seq (talk_setIErrno _) fun _ _ => .ret fun _ _ h => ⟨by decide, h⟩
  have hcode : ∀ n, (htonl n).length = 4 := fun _ => rfl
  refine Done.bind_ne (talk_iperfSetSendState (p := .createStreams) (q := .iErrno) rfl rfl (by decide) (by decide) fuel)
    (fun _ _ h => ⟨by decide, h⟩) fun m v h => safe_getMem_bind.2 ?_
  rw [h.wired.ctrl]
  refine (talk_nwriteBlock (p := .iErrno) (q := .errno) rfl (next_block rfl (hcode _)) (by decide) fuel m v h).bind ?_
  rintro r m v (⟨hr, h⟩ | ⟨hr, h⟩)
  · rw [if_pos hr]
    exact hfail m v h
  rw [if_neg (not_lt.2 hr)]
  refine safe_getMem_bind.2 ?_
  rw [h.wired.ctrl]
  refine (talk_nwriteBlock (p := .errno) (q := .refused) rfl (next_block rfl (hcode _)) (by decide) fuel m v h).bind ?_
  rintro r m v (⟨hr, h⟩ | ⟨hr, h⟩)
  · rw [if_pos hr]
    exact hfail m v h
  · rw [if_neg (not_lt.2 hr)]
    exact ⟨by decide, h.connected⟩

theorem talk_listenForStreams (hc : 0 < c) (fuel : Nat) :
    Prog.Triple (talkContract .right) (Stands .right c .createStreams TestState.PARAM_EXCHANGE) (listenForStreams fuel)
      (Done .right c (Stands .right c .testStart TestState.CREATE_STREAMS)) := by
  refine triple_getTest_bind fun _ _ _ => .seq (protocolListen_keeps (talk_plumbing hc) _) fun s hs => ?_
  refine .ite (fun _ m v h => ?_) fun _ => ?_
  · exact (talk_sendServerError fuel m v h).mono fun _ _ _ h => .inr h
  · refine .seq (talk_modifyTest (fun t hw => ?_) fun _ => rfl) fun _ _ => ?_
    · exact ⟨hw.ctrl, hw.pos, hw.role, hw.listener, hs, hw.streams⟩
    exact Done.bind_ne (talk_iperfSetSendState (p := .createStreams) (q := .testStart) rfl rfl (by decide) (by decide) fuel)
      (fun _ _ => Done.fail) Done.ret

theorem talk_serverParameters (hc : 0 < c) (fuel : Nat) :
    Prog.Triple (talkContract .right) (Stands .right c .parameters TestState.PARAM_EXCHANGE)
      (iperfExchangeParameters fuel) (Done .right c (Stands .right c .testStart TestState.CREATE_STREAMS)) := by
  refine triple_getTest_bind fun m v h => .ite (fun hrole => ?_) fun _ => ?_
  · exact absurd (hrole.symm.trans h.wired.role) (by decide)
  · exact Done.bind (talk_getParameters (p := .parameters) rfl rfl (by decide) fuel) (fun _ _ => Done.fail)
      (talk_listenForStreams hc fuel)

/-- The server is free. -/
theorem talk_acceptClient {s : Int} (hs : 0 < s) (fuel : Nat) :
    Prog.Triple (talkContract .right) (fun m v => Idle .right (fun t => t.state = TestState.IPERF_START) m v ∧
      s ≠ m.test.listener ∧ s ≠ m.test.protListener) (acceptClient fuel s)
      (Done .right s (Stands .right s .testStart TestState.CREATE_STREAMS)) := by
  refine .bind (M := fun _ => Stands .right s .cookie TestState.IPERF_START) ?_ fun _ => ?_
  · rintro m v ⟨h, hlistener, hprotListener⟩
    have hon := h.connect hs hlistener.symm hprotListener.symm
    exact ⟨hon.agrees, hon.wired, hon.agrees, hon.settled, by rw [h.view]; exact ⟨rfl, rfl⟩, h.test⟩
  refine .bind (talk_nreadBlock (d := .right) (s := TestState.IPERF_START) (p := .cookie) rfl (by decide) fuel) fun got => ?_
  cases got with
  | none => exact fun m v h => talk_fail _ m v (h.1 rfl)
  | some got =>
    refine Prog.Triple.conseq (J := Stands .right s .paramExchange TestState.IPERF_START) ?_ (fun m v h => h.2 rfl)
      fun _ _ _ h => h
    refine .seq (talk_modifyTest (fun t hw => ?_) fun _ => rfl) fun _ _ => ?_
    · exact ⟨hw.ctrl, hw.pos, hw.role, hw.listener, hw.protListener, hw.streams⟩
    refine Done.bind_ne (talk_iperfSetSendState (p := .paramExchange) (q := .parameters) rfl rfl (by decide) (by decide)
      fuel) (fun _ _ => Done.fail) ?_
    refine Done.bind (talk_serverParameters hs fuel) (fun _ _ => Done.fail) ?_
    have hconnect : ∀ r : Int, Prog.Triple (talkContract .right) (Stands .right s .testStart TestState.CREATE_STREAMS)
        (if r ≠ 0 then pure (-1) else do
          iperfOnConnect
          pure (0 : Int)) (Done .right s (Stands .right s .testStart TestState.CREATE_STREAMS)) := by
      refine fun r => .ite (fun _ => .ret fun _ _ h => Done.fail h.connected) fun _ => ?_
      exact .seq (talk_measures fun _ _ _ hh => iperfOnConnect_neutral hh) fun _ _ => Done.ret
    refine triple_getTest_bind fun _ _ _ => .ite (fun _ => ?_) fun _ => hconnect 0
    exact .seq (talk_measures fun _ _ _ hh => iperfSetaffinity_neutral hh _) fun r _ => hconnect r

/-! ## The messages of the client -/

theorem talk_closeStreams : Prog.Keeps (talkContract .right) (On .right c V S) (fun _ => True) closeStreams := by
  refine .bind talk_allStreams fun sps _ => talk_forAllStreams (fun sp => .bind (talk_getStream sp) fun _ _ => ?_) sps
  refine .bind (talk_modifyTest (fun t hw => ?_) fun _ => rfl) fun _ _ => talk_sys id
  exact ⟨hw.ctrl, hw.pos, hw.role, hw.listener, hw.protListener, hw.streams⟩

theorem talk_serverResults (fuel : Nat) :
    Prog.Triple (talkContract .right) (Stands .right c .clientResults TestState.EXCHANGE_RESULTS)
      (iperfExchangeResults fuel) (Done .right c (Stands .right c .displayResults TestState.EXCHANGE_RESULTS)) := by
  refine triple_getTest_bind fun m v h => .ite (fun hrole => ?_) fun _ => ?_
  · exact absurd (hrole.symm.trans h.wired.role) (by decide)
  refine Done.bind (talk_getResults (p := .clientResults) (q := .serverResults) rfl rfl (by decide) fuel) (fun _ _ => Done.fail) ?_
  exact Done.bind (talk_sendResults (p := .serverResults) rfl rfl (by decide) fuel) (fun _ _ => Done.fail) Done.ret

theorem talk_handleTestEnd (fuel : Nat) :
    Prog.Triple (talkContract .right) (Stands .right c .exchangeResults TestState.TEST_END) (handleTestEnd fuel)
      (Done .right c (Stands .right c .iperfDone TestState.DISPLAY_RESULTS)) := by
  refine .seq (talk_modifyTest (fun t hw => ?_) fun _ => rfl) fun _ _ => ?_
  · exact ⟨hw.ctrl, hw.pos, hw.role, hw.listener, hw.protListener, hw.streams⟩
  refine .seq (talk_measures fun _ _ _ hh => updateCpuUtil_neutral hh) fun _ _ => ?_
  refine .seq (talk_measures fun _ _ _ hh => iperfStatsCallback_neutral hh) fun _ _ => ?_
  refine .seq talk_closeStreams fun _ _ => ?_
  refine Done.bind_ne (talk_iperfSetSendState (p := .exchangeResults) (q := .clientResults) rfl rfl (by decide) (by decide)
    fuel) (fun _ _ => Done.fail) ?_
  refine Done.bind (talk_serverResults fuel) (fun _ _ => Done.fail) ?_
  refine Done.bind_ne (talk_iperfSetSendState (p := .displayResults) (q := .iperfDone) rfl rfl (by decide) (by decide) fuel)
    (fun _ _ => Done.fail) ?_
  exact .seq (talk_measures fun _ _ _ hh => iperfReporterCallback_neutral hh) fun _ _ => Done.ret

/-- What the server does when it has heard the state `s`, with which the conversation has come to the phase `q` -/
theorem talk_handleStateServer {p q : Phase} {s : TestState} (hp : (Message.state s, q) ∈ p.messages)
    (hturn : p.turn = .left) (fuel : Nat) :
    Prog.Triple (talkContract .right) (Stands .right c q s) (handleStateServer fuel s) (Proceeds .right c) := by
  cases p <;> simp only [Phase.messages, List.mem_cons, List.not_mem_nil, or_false, Prod.mk.injEq, Message.state.injEq,
    reduceCtorEq, false_and] at hp <;> try cases hturn
  case testEnd =>
    obtain ⟨rfl, rfl⟩ := hp
    refine fun m v h => (talk_handleTestEnd fuel m v h).mono fun r m v h => ?_
    rcases h with ⟨-, h⟩ | h
    · exact .inr (h.rests (by decide))
    · exact .inl h
  case iperfDone =>
    obtain ⟨rfl, rfl⟩ := hp
    exact .ret fun _ _ h => .inr (.inr ⟨h.wired, h.agrees, h.settled, trivial, h.state⟩)

theorem talk_iperfHandleMessageServer (fuel : Nat) :
    Prog.Triple (talkContract .right) (Awaits .right c) (iperfHandleMessageServer fuel) (Proceeds .right c) := by
  have hfail : ∀ e, Prog.Triple (talkContract .right) (Connected .right c) (fail e) (Proceeds .right c) := fun e =>
    .seq (talk_setIErrno e) fun _ _ => .ret fun _ _ h => .inl ⟨by decide, h⟩
  rintro m v ⟨x, hx, h⟩
  refine safe_getTest_bind.2 ?_
  rw [h.wired.ctrl]
  cases hturn : x.1.turn with
  | right =>
    -- There is nothing to read before the server has said more.
    have hmute := talk_nread_mute hturn fuel 1 (by decide) m v
      (⟨h.wired, h.agrees, h.settled, h.view.1, h.state⟩ : On .right c (fun v => v.state = x.1) (· = x.2) m v)
    refine hmute.bind fun got m v ⟨hnone, h⟩ => ?_
    subst hnone
    exact hfail _ m v h
  | left =>
    have hpoint := restPoint_messages hx (show x.1.turn = Side.other .right from hturn)
    refine (triple_before fun v₀ hv => .bind (talk_nread [] hv.2 (fun w hw _ => ?_) ?_ fuel) fun got => ?_) m v h
    · rw [List.length_nil, Nat.zero_add]
      refine List.length_pos_iff.2 fun hnil => ?_
      have hnone : Phase.next v₀.state [] = none := conversation.next_nil v₀.state
      rw [hnil, hnone] at hw
      cases hw
    · rw [hv.1]
      exact hpoint.2
    rintro m v (⟨rfl, h⟩ | ⟨bs, rfl, hlength, hbegins, hon⟩)
    · exact hfail _ m v h
    · obtain ⟨b, rfl⟩ : ∃ b, bs = [b] := List.length_eq_one_iff.1 hlength
      rw [List.nil_append] at hon
      have hbegins : v₀.Begins [b] := by
        obtain ⟨w, hw, hfront⟩ := hbegins (by simp)
        exact ⟨w, hw, by rw [hv.2]; exact hfront⟩
      obtain ⟨s, q, hmem, hb, hv'⟩ := heard_state hv hpoint.1 hbegins
      have hset : Prog.Triple (talkContract .right) (On .right c (Before q) fun _ => True)
          (modifyTest fun t => { t with state := s }) fun _ => Stands .right c q s :=
        talk_setState fun v hv => hv.1 ▸ message_states hmem
      dsimp only
      rw [hb]
      exact Prog.Triple.bind hset (fun _ => talk_handleStateServer hmem hturn fuel) m v
        ⟨hon.wired, hon.agrees, hon.settled, hon.view ▸ hv', trivial⟩

/-! ## Streams and data -/

theorem talk_admitStream (s : Int) : Prog.Keeps (talkContract .right) (On .right c V S) (fun _ => True) (admitStream s) := by
  refine .bind (talk_modifyTest (fun t hw => ?_) fun t => ?_) fun _ _ => talk_connectMsg s
  · dsimp only
    split <;> exact ⟨hw.ctrl, hw.pos, hw.role, hw.listener, hw.protListener, hw.streams⟩
  · dsimp only
    split <;> rfl

theorem talk_serverAcceptStream (hc : 0 < c) (fuel : Nat) (accepted : Int) :
    Prog.Keeps (talkContract .right) (On .right c V S) (fun _ => True) (serverAcceptStream fuel accepted) := by
  have hclean : Prog.Keeps (talkContract .right) (On .right c V S) (fun _ => True)
      (do cleanupServer; pure (none : Option Int)) := .bind talk_cleanupServer fun _ _ => .pure trivial
  refine keeps_getTest_bind fun _ _ _ => .bind (talk_protocolAccept hc fuel _) fun s hs => ?_
  refine .ite (fun _ => hclean) fun _ => .bind (isClosed_keeps (talk_plumbing hc) s) fun closed _ => ?_
  refine .ite (fun _ => .pure trivial) fun _ => .bind (talk_iperfNewStream hc hs) fun sp _ => ?_
  exact .ite (fun _ => hclean) fun _ => .bind (talk_admitStream s) fun _ _ => .pure trivial

theorem talk_serverStartTest (hc : 0 < c) (fuel : Nat) (accepted : Int) :
    Prog.Triple (talkContract .right) (Stands .right c .testStart TestState.CREATE_STREAMS)
      (serverStartTest fuel accepted) (Passes .right c) := by
  refine .seq (replaceListener_keeps (talk_plumbing hc)) fun r _ => .ite (fun _ => ?_) fun _ => ?_
  · refine .seq talk_cleanupServer fun _ _ => .seq (talk_setIErrno _) fun _ _ => ?_
    exact .ret fun _ _ h => passes_none h.connected
  · refine .seq (talk_modifyTest (fun t hw => ?_) fun _ => rfl) fun _ _ => ?_
    · exact ⟨hw.ctrl, hw.pos, hw.role, hw.listener, by show (-1 : Int) ≠ c; omega, hw.streams⟩
    refine talk_orCleanup (talk_iperfSetSendState (p := .testStart) (q := .testRunning) rfl rfl (by decide) (by decide)
      fuel) ?_
    refine talk_orCleanup_keeps (talk_measures fun _ _ _ hh => iperfInitTest_neutral hh) ?_
    refine talk_orCleanup_keeps (talk_measures fun _ _ _ hh => createServerTimers_neutral hh) ?_
    refine talk_orCleanup_keeps (talk_measures fun _ _ _ hh => createOmitTimer_neutral hh) ?_
    refine triple_getTest_bind fun _ _ _ => talk_orCleanup_keeps (.ite (fun _ => ?_) fun _ => .pure trivial) ?_
    · exact talk_measures fun _ _ _ hh => iperfCreateSendTimers_neutral hh
    refine talk_orCleanup (talk_iperfSetSendState (p := .testRunning) (q := .testEnd) rfl rfl (by decide) (by decide)
      fuel) ?_
    exact .ret fun _ _ h => passes_some (h.rests (by decide))

theorem talk_serverMaybeStart (hc : 0 < c) (fuel : Nat) (accepted : Int) :
    Prog.Triple (talkContract .right) (Stands .right c .testStart TestState.CREATE_STREAMS)
      (serverMaybeStart fuel accepted) (Passes .right c) :=
  triple_getTest_bind fun _ _ _ => .ite (fun _ => talk_serverStartTest hc fuel accepted) fun _ =>
    .ret fun _ _ h => passes_some (h.rests (by decide))

theorem Passes.map {d : Side} {α β : Type} {r : Option α} {f : α → β} {m : Mem} {v : View conversation}
    (h : Passes d c r m v) : Passes d c (r.map f) m v := by
  cases r with
  | none => exact passes_none (h.1 rfl)
  | some a => exact passes_some (h.2 rfl)

/-- The streams are made in one phase only. -/
theorem Rests.creating {m : Mem} {v : View conversation} (h : Rests .right c m v)
    (hs : m.test.state = TestState.CREATE_STREAMS) : Stands .right c .testStart TestState.CREATE_STREAMS m v := by
  rcases h with ⟨x, hx, h⟩ | h
  · have hpoint : ∀ x ∈ restPoints .right, x.2 = TestState.CREATE_STREAMS → x = (.testStart, TestState.CREATE_STREAMS) := by
      decide
    rw [hpoint x hx (h.state.symm.trans hs)] at h
    exact h
  · exact absurd (h.state.symm.trans hs) (by decide)

theorem talk_serverStreamsPart (hc : 0 < c) (fuel : Nat) (readSet : FdSet) (accepted : Int) :
    Prog.Triple (talkContract .right) (Rests .right c) (serverStreamsPart fuel readSet accepted) (Passes .right c) := by
  have hstart : ∀ (accepted : Int) (f : Int → FdSet × Int),
      Prog.Triple (talkContract .right) (Stands .right c .testStart TestState.CREATE_STREAMS) (do
        let r ← serverMaybeStart fuel accepted
        pure (r.map f)) (Passes .right c) := fun accepted f =>
    .bind (talk_serverMaybeStart hc fuel accepted) fun _ => .ret fun _ _ h => h.map
  refine fun m v h => safe_getTest_bind.2 ?_
  split
  · refine (Prog.Triple.ite (fun _ => ?_) fun _ => hstart accepted _ : Prog.Triple (talkContract .right)
      (Stands .right c .testStart TestState.CREATE_STREAMS) _ (Passes .right c)) m v (h.creating ‹_›)
    refine .seq (talk_serverAcceptStream hc fuel accepted) fun r _ => ?_
    cases r with
    | none => exact .ret fun _ _ h => passes_none h.connected
    | some accepted => exact triple_getTest_bind fun _ _ _ => hstart accepted _
  · exact passes_some h

/-- The measurement, after which the run may be over -/
theorem rests_orCleanup {α : Type} {r : IperfProg Int} {a : α} (hr : Measures r) :
    Prog.Triple (talkContract .right) (Rests .right c) (orCleanup r (pure (some a))) (Passes .right c) := by
  refine .seq (Rests.keeps fun _ _ => talk_measures hr) fun v _ => .ite (fun _ m v h => ?_) fun _ => ?_
  · exact (Prog.Triple.seq talk_cleanupServer fun _ _ => .ret fun _ _ h => passes_none h) m v h.connected
  · exact .ret fun _ _ h => passes_some h

theorem talk_serverDataPart (fuel : Nat) (readSet writeSet : FdSet) (accepted : Int) :
    Prog.Triple (talkContract .right) (Rests .right c) (serverDataPart fuel readSet writeSet accepted)
      (Passes .right c) := by
  refine triple_getTest_bind fun _ _ _ => .ite (fun _ => .ite (fun _ => ?_) fun _ => ?_) fun _ =>
    .ret fun _ _ h => passes_some h
  · exact rests_orCleanup fun _ _ _ hh => iperfSend_neutral hh _ _
  · exact rests_orCleanup fun _ _ _ hh => iperfRecv_neutral hh _ _

/-- A server with a client turns other clients away. -/
theorem talk_iperfAccept (hc : 0 < c) (fuel : Nat) :
    Prog.Keeps (talkContract .right) (On .right c V S) (fun _ => True) (iperfAccept fuel) := by
  refine keeps_getTest_bind fun m v h => .bind (talk_sockAccept hc _) fun s hs => ?_
  refine .ite (fun _ => talk_failKeeps trivial) fun _ => .ite (fun hfree => ?_) fun _ => talk_denyClient hs fuel
  exact absurd (h.wired.ctrl.symm.trans hfree) (by omega)

theorem waits_serverListenerPart (hc : 0 < c) (fuel : Nat) (readSet : FdSet) :
    Prog.Keeps (talkContract .right) (Awaits .right c) (fun _ => True) (serverListenerPart fuel readSet) := by
  refine keeps_getTest_bind fun _ _ _ => .ite (fun _ => ?_) fun _ => .pure trivial
  refine .bind (Awaits.keeps fun _ _ => talk_iperfAccept hc fuel) fun r _ => .ite (fun _ => ?_) fun _ => ?_
  · exact .bind (Awaits.keeps fun _ _ => talk_cleanupServer) fun _ _ => .pure trivial
  · exact keeps_getTest_bind fun _ _ _ => .pure trivial

theorem waits_serverControlPart (fuel : Nat) (readSet : FdSet) :
    Prog.Triple (talkContract .right) (Awaits .right c) (serverControlPart fuel readSet) (Passes .right c) := by
  refine triple_getTest_bind fun _ _ _ => .ite (fun _ => ?_) fun _ => .ret fun _ _ h => passes_some h.rests
  refine .bind (talk_iperfHandleMessageServer fuel) fun r => .ite (fun _ m v h => ?_) fun hr => ?_
  · exact (Prog.Triple.seq talk_cleanupServer fun _ _ => .ret fun _ _ h => passes_none h) m v h.connected
  · exact triple_getTest_bind fun _ _ _ => .ret fun _ _ h => passes_some (h.resolve_left fun h => hr h.1)

/-! ## The loop -/

/-- The server has no client yet. -/
abbrev Free : Mem → View conversation → Prop := Idle .right fun t => t.state = TestState.IPERF_START

/-- The server has no client yet, or is connected with one, and then `A` holds. -/
def Serves (A : Int → Mem → View conversation → Prop) (m : Mem) (v : View conversation) : Prop :=
  Free m v ∨ ∃ c, 0 < c ∧ A c m v

/-- What a part of a pass returns: `none` if the run ends. -/
def ServerPasses {α : Type} (r : Option α) (m : Mem) (v : View conversation) : Prop :=
  r.isSome → Serves (Rests .right) m v

section Serves

variable {α : Type} {A B : Int → Mem → View conversation → Prop} {m : Mem} {v : View conversation}

theorem Serves.mono (h : Serves A m v) (hAB : ∀ c, A c m v → B c m v) : Serves B m v :=
  h.imp_right fun ⟨c, hc, h⟩ => ⟨c, hc, hAB c h⟩

theorem serves_keeps {p : IperfProg α} {P : α → Prop} (hfree : Prog.Keeps (talkContract .right) Free P p)
    (hclient : ∀ c, Prog.Keeps (talkContract .right) (A c) P p) : Prog.Keeps (talkContract .right) (Serves A) P p := by
  rintro m v (h | ⟨c, hc, h⟩)
  · exact (hfree m v h).mono fun _ _ _ h => ⟨h.1, .inl h.2⟩
  · exact (hclient c m v h).mono fun _ _ _ h => ⟨h.1, .inr ⟨c, hc, h.2⟩⟩

theorem serves_passes {p : IperfProg (Option α)} (hfree : Prog.Keeps (talkContract .right) Free (fun _ => True) p)
    (hclient : ∀ c, 0 < c → Prog.Triple (talkContract .right) (A c) p (Passes .right c)) :
    Prog.Triple (talkContract .right) (Serves A) p ServerPasses := by
  rintro m v (h | ⟨c, hc, h⟩)
  · exact (hfree m v h).mono fun _ _ _ h _ => .inl h.2
  · exact (hclient c hc m v h).mono fun _ _ _ h hs => .inr ⟨c, hc, h.2 hs⟩

theorem serverPasses_none {I : Mem → View conversation → Prop} :
    Prog.Triple (talkContract .right) I (pure (none : Option α)) ServerPasses := .ret fun _ _ _ h => nomatch h

end Serves

theorem free_measures {α : Type} {p : IperfProg α} (hp : Measures p) :
    Prog.Keeps (talkContract .right) Free (fun _ => True) p :=
  idle_measures (fun _ _ hcore h => (congrArg (fun k => k.1.state) hcore).trans h) hp

theorem free_cleanupServer : Prog.Keeps (talkContract .right) Free (fun _ => True) cleanupServer := by
  refine keeps_getTest_bind fun _ _ _ => .bind (idle_sys trivial) fun _ _ => .bind (idle_sys trivial) fun _ _ => ?_
  refine .bind (free_measures fun _ _ _ hh => cancelTimer_neutral hh fun _ => rfl) fun _ _ => ?_
  refine .bind (free_measures fun _ _ _ hh => cancelTimer_neutral hh fun _ => rfl) fun _ _ => ?_
  exact free_measures fun _ _ _ hh => cancelTimer_neutral hh fun _ => rfl

/-- A new connection has a descriptor of its own. -/
theorem free_sockAccept {m : Mem} {v : View conversation} (h : Free m v) :
    (sockAccept m.test.listener).Safe (talkContract .right) (fun s m' v' => Free m' v' ∧
      (s < 0 ∨ 0 < s ∧ s ≠ m'.test.listener ∧ s ≠ m'.test.protListener)) m v := by
  have hcall := idle_call (r := .accept m.test.listener) h trivial
  have hsys : (sys (.accept m.test.listener)).Safe (talkContract .right) (fun a m' v' => m' = m ∧ v' = v ∧
      ctrlPort.allows m (.accept m.test.listener) a) m v := ⟨hcall.1, fun a ha => ⟨rfl, hcall.2 a ha.1, ha.1⟩⟩
  refine hsys.bind ?_
  rintro (e | s) m v ⟨rfl, rfl, ha⟩
  · exact (Prog.Triple.seq (idle_setErrno e) fun _ _ => .ret fun _ _ h => ⟨h, .inl (by decide)⟩) m v h
  · exact ⟨h, .inr ⟨ha.1, ha.2.1, ha.2.2.1⟩⟩

theorem serves_cleanupServer :
    Prog.Keeps (talkContract .right) (Serves (Connected .right)) (fun _ => True) cleanupServer :=
  serves_keeps free_cleanupServer fun _ => talk_cleanupServer

/-- The server is free when a connection comes in. -/
theorem free_iperfAccept (fuel : Nat) :
    Prog.Triple (talkContract .right) Free (iperfAccept fuel) fun r m v =>
      r < 0 ∧ Serves (Connected .right) m v ∨ ∃ c, 0 < c ∧ Awaits .right c m v := by
  refine fun m v h => safe_getTest_bind.2 ((free_sockAccept h).bind fun s m' v' ⟨h', hs⟩ => ?_)
  split
  · refine (idle_fail _ m' v' h').mono fun _ _ _ h => .inl ⟨?_, .inl h.2⟩
    rw [h.1]
    decide
  · rw [if_pos h.ctrl]
    obtain ⟨hpos, hothers⟩ := hs.resolve_left ‹_›
    refine (talk_acceptClient hpos fuel m' v' ⟨h', hothers⟩).mono fun r _ _ h => ?_
    rcases h with ⟨-, h⟩ | ⟨hlt, h⟩
    · exact .inr ⟨s, hpos, (.testStart, TestState.CREATE_STREAMS), by decide, h⟩
    · exact .inl ⟨hlt, .inr ⟨s, hpos, h⟩⟩

/-- There is no control connection to read from. -/
theorem free_iperfHandleMessageServer (fuel : Nat) :
    Prog.Keeps (talkContract .right) Free (· < 0) (iperfHandleMessageServer fuel) := by
  have hread : Prog.Keeps (talkContract .right) Free (· = none) (nread fuel (-1) 1) := by
    unfold nread
    induction fuel with
    | zero => exact fun _ _ _ => trivial
    | succ fuel ih =>
      refine .bind (Q := fun a => ∃ e, a = .error e) (.ask fun m v h => ?_) fun a ha => ?_
      · have hcall := idle_call (r := .read (-1) (1 - ([] : List UInt8).length)) h trivial
        refine ⟨hcall.1, fun a ha => ⟨?_, by rw [hcall.2 a ha.1]; exact h⟩⟩
        cases a with
        | error e => exact ⟨e, rfl⟩
        | ok bs => exact absurd ha.1.1 (by decide)
      · obtain ⟨e, rfl⟩ := ha
        cases e with
        | eintr => exact ih
        | _ => exact .bind (idle_setErrno _) fun _ _ => .pure rfl
  refine keeps_getTest_bind fun m v h => ?_
  rw [h.ctrl]
  refine .bind hread fun got hgot => ?_
  subst hgot
  exact (idle_fail _).mono fun r hr => by omega

theorem talk_serverListenerPart (fuel : Nat) (readSet : FdSet) :
    Prog.Triple (talkContract .right) (Serves (Awaits .right)) (serverListenerPart fuel readSet) fun r m v =>
      r.isSome → Serves (Awaits .right) m v := by
  rintro m v (h | ⟨c, hc, h⟩)
  · refine (triple_getTest_bind fun _ _ _ => .ite (fun _ => ?_) fun _ => .ret fun _ _ h _ => .inl h :
      Prog.Triple (talkContract .right) Free _ _) m v h
    refine .bind (free_iperfAccept fuel) fun r => .ite (fun hr => ?_) fun hr => ?_
    · refine Prog.Triple.conseq (.seq serves_cleanupServer fun _ _ => .ret fun _ _ _ => nofun) (fun m v h => ?_)
        fun _ _ _ h => h
      rcases h with ⟨-, h⟩ | ⟨c, hc, h⟩
      · exact h
      · exact .inr ⟨c, hc, h.rests.connected⟩
    · exact triple_getTest_bind fun _ _ _ => .ret fun _ _ h _ => .inr (h.resolve_left fun h => hr h.1)
  · exact (waits_serverListenerPart hc fuel readSet m v h).mono fun _ _ _ h _ => .inr ⟨c, hc, h.2⟩

theorem free_serverControlPart (fuel : Nat) (readSet : FdSet) :
    Prog.Keeps (talkContract .right) Free (fun _ => True) (serverControlPart fuel readSet) := by
  refine keeps_getTest_bind fun _ _ _ => .ite (fun _ => ?_) fun _ => .pure trivial
  refine .bind (free_iperfHandleMessageServer fuel) fun r hr => .ite (fun _ => ?_) fun hne => absurd hr hne
  exact .bind free_cleanupServer fun _ _ => .pure trivial

theorem free_serverStreamsPart (fuel : Nat) (readSet : FdSet) (accepted : Int) :
    Prog.Keeps (talkContract .right) Free (fun _ => True) (serverStreamsPart fuel readSet accepted) :=
  keeps_getTest_bind fun _ _ h => .ite (fun hs => absurd (h.test.symm.trans hs) (by decide)) fun _ => .pure trivial

theorem free_serverDataPart (fuel : Nat) (readSet writeSet : FdSet) (accepted : Int) :
    Prog.Keeps (talkContract .right) Free (fun _ => True) (serverDataPart fuel readSet writeSet accepted) :=
  keeps_getTest_bind fun _ _ h => .ite (fun hs => absurd (h.test.symm.trans hs) (by decide)) fun _ => .pure trivial

theorem talk_serverHandle (fuel : Nat) (readSet writeSet : FdSet) (accepted : Int) :
    Prog.Triple (talkContract .right) (Serves (Awaits .right)) (serverHandle fuel readSet writeSet accepted)
      ServerPasses := by
  have hcontrol : ∀ readSet, Prog.Triple (talkContract .right) (Serves (Awaits .right)) (serverControlPart fuel readSet)
      ServerPasses := fun readSet =>
    serves_passes (free_serverControlPart fuel readSet) fun _ _ => waits_serverControlPart fuel readSet
  have hstreams : ∀ readSet, Prog.Triple (talkContract .right) (Serves (Rests .right))
      (serverStreamsPart fuel readSet accepted) ServerPasses := fun readSet =>
    serves_passes (free_serverStreamsPart fuel readSet accepted) fun _ hc => talk_serverStreamsPart hc fuel readSet accepted
  have hdata : ∀ readSet accepted, Prog.Triple (talkContract .right) (Serves (Rests .right))
      (serverDataPart fuel readSet writeSet accepted) ServerPasses := fun readSet accepted =>
    serves_passes (free_serverDataPart fuel readSet writeSet accepted) fun _ _ =>
      talk_serverDataPart fuel readSet writeSet accepted
  refine .bind (talk_serverListenerPart fuel readSet) fun r => ?_
  cases r with
  | none => exact serverPasses_none
  | some readSet =>
    refine Prog.Triple.conseq (.bind (hcontrol readSet) fun r => ?_) (fun _ _ h => h rfl) fun _ _ _ h => h
    cases r with
    | none => exact serverPasses_none
    | some readSet =>
      refine Prog.Triple.conseq (.bind (hstreams readSet) fun r => ?_) (fun _ _ h => h rfl) fun _ _ _ h => h
      cases r with
      | none => exact serverPasses_none
      | some r => exact Prog.Triple.conseq (hdata r.1 r.2) (fun _ _ h => h rfl) fun _ _ _ h => h

theorem serves_measures {α : Type} {p : IperfProg α} (hp : Measures p) :
    Prog.Keeps (talkContract .right) (Serves (Awaits .right)) (fun _ => True) p :=
  serves_keeps (free_measures hp) fun _ => Awaits.keeps fun _ _ => talk_measures hp

theorem talk_serverTimers (fuel : Nat) (b : Prop) [Decidable b] (accepted : Int) :
    Prog.Triple (talkContract .right) (Serves (Rests .right))
      (if b then do runTimers fuel; pure (some accepted) else pure (some accepted)) ServerPasses := by
  have htimers : Measures (runTimers fuel) := fun _ _ _ hh => runTimers_neutral hh fuel
  have hkeeps : Prog.Keeps (talkContract .right) (Serves (Rests .right)) (fun _ => True) (runTimers fuel) :=
    serves_keeps (free_measures htimers) fun _ => Rests.keeps fun _ _ => talk_measures htimers
  exact .ite (fun _ => .seq hkeeps fun _ _ => .ret fun _ _ h _ => h) fun _ => .ret fun _ _ h _ => h

theorem talk_serverStep (fuel : Nat) (accepted : Int) :
    Prog.Triple (talkContract .right) (Serves (Awaits .right)) (serverStep fuel accepted) ServerPasses := by
  have hrest : ∀ (b : Prop) [Decidable b], Prog.Triple (talkContract .right) (Serves (Awaits .right))
      (if b then do runTimers fuel; pure (some accepted) else pure (some accepted)) ServerPasses := fun b _ =>
    Prog.Triple.conseq (talk_serverTimers fuel b accepted) (fun _ _ h => h.mono fun _ h => h.rests) fun _ _ _ h => h
  refine triple_getTest_bind fun _ _ _ => .seq (serves_measures fun _ _ _ hh => gettimeofday_neutral hh) fun now _ => ?_
  refine .seq (serves_measures fun _ _ _ hh => getTimeout_neutral hh now) fun timeout _ => ?_
  refine .seq (serves_keeps (idle_sys trivial) fun _ => Awaits.keeps fun _ _ => talk_sys id) fun a _ => ?_
  cases a with
  | error e =>
    refine .seq (serves_keeps (idle_setErrno e) fun _ => Awaits.keeps fun _ _ => talk_setErrno e) fun _ _ => ?_
    refine .ite (fun _ => ?_) fun _ => hrest _
    have hset : Prog.Keeps (talkContract .right) (Serves (Connected .right)) (fun _ => True) (setIErrno .IESELECT) :=
      serves_keeps (idle_modify fun _ _ h => h.congr rfl rfl h.streams rfl h.test) fun _ => talk_setIErrno _
    exact Prog.Triple.conseq (.seq serves_cleanupServer fun _ _ => .seq hset fun _ _ => serverPasses_none)
      (fun _ _ h => h.mono fun _ h => h.rests.connected) fun _ _ _ h => h
  | ok a =>
    obtain ⟨n, readSet, writeSet⟩ := a
    refine .ite (fun _ => .bind (talk_serverHandle fuel readSet writeSet accepted) fun r => ?_) fun _ => hrest _
    cases r with
    | none => exact serverPasses_none
    | some accepted => exact Prog.Triple.conseq (talk_serverTimers fuel _ accepted) (fun _ _ h => h rfl) fun _ _ _ h => h

/-- The loop ends where the server is done, or where the run ends. -/
theorem talk_serverLoop (fuel passes : Nat) (accepted : Int) :
    Prog.Triple (talkContract .right) (Serves (Rests .right)) (serverLoop fuel passes accepted) fun r m v =>
      r.isSome → ∃ c, On .right c (fun _ => True) (· = TestState.IPERF_DONE) m v := by
  induction passes generalizing accepted with
  | zero => exact fun _ _ _ => trivial
  | succ passes ih =>
    refine fun m v h => safe_getTest_bind.2 ?_
    split
    · rename_i hdone
      rcases h with h | ⟨c, -, h⟩
      · exact absurd (h.test.symm.trans hdone) (by decide)
      · exact fun _ => ⟨c, h.connected.wired, h.connected.agrees, h.connected.settled, trivial, hdone⟩
    · rename_i hdone
      have hwaits : Serves (Awaits .right) m v := h.mono fun c h => h.resolve_right fun h => hdone h.state
      refine (talk_serverStep fuel accepted m v hwaits).bind fun r m v h => ?_
      cases r with
      | none => exact nofun
      | some accepted => exact ih accepted m v (h rfl)

/-! ## `iperf_run_server` -/

theorem talk_serverFinish : Prog.Keeps (talkContract .right) (On .right c V S) (fun _ => True) serverFinish := by
  refine .bind talk_cleanupServer fun _ _ => keeps_getTest_bind fun _ _ _ => ?_
  have haffinity : ∀ r : Int, Prog.Keeps (talkContract .right) (On .right c V S) (fun _ => True)
      (if r < 0 then pure (-1) else do
        let t ← getTest
        let r ← if t.serverAffinity ≠ -1 then iperfClearaffinity else pure 0
        if r ≠ 0 then pure (-1) else pure (0 : Int)) := by
    refine fun r => .ite (fun _ => .pure trivial) fun _ => keeps_getTest_bind fun _ _ _ => ?_
    refine .ite (fun _ => ?_) fun _ => .pure trivial
    refine .bind (talk_measures fun _ _ _ hh => iperfClearaffinity_neutral hh) fun r _ => ?_
    exact .ite (fun _ => .pure trivial) fun _ => .pure trivial
  refine .ite (fun _ => ?_) fun _ => haffinity 0
  exact .bind (talk_measures fun _ _ _ hh => iperfJsonFinish_neutral hh) fun r _ => haffinity r

/-- Opening the listener, before there is a control connection -/
theorem idle_plumbing : Plumbing (talkContract .right) (Idle .right fun _ => True) fun _ => True where
  req := by
    intro m v r h hr
    have hquiet : r.unconnected := by
      cases r
      case sendfile | cJSON_Parse => exact hr
      all_goals exact trivial
    have hcall := idle_call h hquiet
    exact ⟨hcall.1, fun a ha => by rw [hcall.2 a ha.1]; exact h⟩
  fresh _ _ _ _ _ _ _ _ := trivial
  neg _ _ := trivial
  listener _ _ _ := trivial
  protListener _ _ _ := trivial
  change := by
    intro m m' v h hchange
    have htest := hchange.test
    have hctrl : m'.test.unplumbed.ctrlSck = m.test.unplumbed.ctrlSck := by rw [htest]
    have hrole : m'.test.unplumbed.role = m.test.unplumbed.role := by rw [htest]
    have hstreams : m'.test.unplumbed.streams = m.test.unplumbed.streams := by rw [htest]
    have hstate : m'.test.unplumbed.state = m.test.unplumbed.state := by rw [htest]
    have hidle : Idle .right (fun _ => True) m' v := h.congr hctrl hrole (hstreams.trans h.streams) hstate trivial
    exact ⟨hidle.agrees, hidle⟩
  halt _ _ _ _ _ := trivial

theorem idle_openListener :
    Prog.Keeps (talkContract .right) (Idle .right fun _ => True) (fun _ => True) openListener := by
  have hannounce : Prog.Keeps (talkContract .right) (Idle .right fun _ => True) (fun _ => True) announceListener :=
    (announceListener_keeps idle_plumbing).mono fun _ _ => trivial
  have hfail : ∀ e, Prog.Keeps (talkContract .right) (Idle .right fun _ => True) (fun _ => True) (fail e) := fun e =>
    (idle_fail e).mono fun _ _ => trivial
  refine .bind hannounce fun s _ => .ite (fun _ => ?_) fun _ => .pure trivial
  refine .get_bind fun _ _ _ => .ite (fun _ => ?_) fun _ => hfail _
  refine .bind (idle_sys trivial) fun _ _ => .bind (idle_modify fun _ _ h => ?_) fun _ _ => ?_
  · exact h.congr rfl rfl h.streams rfl trivial
  · exact .bind hannounce fun s _ => .ite (fun _ => hfail _) fun _ => .pure trivial

theorem idle_iperfServerListen :
    Prog.Keeps (talkContract .right) (Idle .right fun _ => True) (fun _ => True) iperfServerListen := by
  refine .bind idle_openListener fun r _ => .ite (fun _ => .pure trivial) fun _ => keeps_getTest_bind fun _ _ _ => ?_
  have hsets : Prog.Keeps (talkContract .right) (Idle .right fun _ => True) (fun _ => True) (do
      modifyTest fun t => { t with
        readSet := {t.listener}
        writeSet := ∅
        maxFd := max t.maxFd t.listener }
      pure (0 : Int)) :=
    .bind (idle_modify fun _ _ h => h.congr rfl rfl h.streams rfl trivial) fun _ _ => .pure trivial
  refine .ite (fun _ => ?_) fun _ => hsets
  refine .bind (idle_sys trivial) fun _ _ => .bind (idle_sys trivial) fun _ _ => ?_
  exact .bind (idle_sys trivial) fun _ _ => hsets

theorem talk_serverMain (fuel : Nat) :
    Prog.Triple (talkContract .right) (Idle .right fun _ => True) (serverMain fuel) TalkedOut := by
  refine .seq idle_iperfServerListen fun r _ => .ite (fun _ => .ret fun _ _ _ => nofun) fun _ => ?_
  refine .seq (idle_sys trivial) fun _ _ => .bind (M := fun _ => Free) (fun m v h => ?_) fun _ => ?_
  · have hagrees : TestState.IPERF_START ∈ Phase.states .right v.state := by
      rw [h.view]
      decide
    exact ⟨hagrees, h.ctrl, h.role, h.streams, hagrees, h.view, rfl⟩
  · refine .bind (fun m v h => talk_serverLoop fuel fuel 0 m v (.inl h)) fun r => ?_
    cases r with
    | none => exact .ret fun _ _ _ => nofun
    | some _ =>
      intro m v h
      obtain ⟨c, h⟩ := h rfl
      exact (talk_serverFinish m v h).mono fun _ _ _ h _ => h.2.state

/-- **The server keeps to the conversation.** -/
theorem talk_iperfRunServer (fuel : Nat) :
    Prog.Triple (talkContract .right) (Idle .right fun _ => True) (iperfRunServer fuel) TalkedOut := by
  refine .seq (idle_sys trivial) fun _ _ => ?_
  exact prolog_triple (fun affinity => idle_measures (fun _ _ _ h => h) fun _ _ _ hh => iperfSetaffinity_neutral hh affinity)
    (idle_measures (fun _ _ _ h => h) fun _ _ _ hh => iperfJsonStart_neutral hh)
    (fun t => idle_measures (fun _ _ _ h => h) fun _ _ _ hh => reportVersion_neutral hh t) (fun _ _ _ => nofun)
    (talk_serverMain fuel)

end Iperf
