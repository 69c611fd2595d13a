import WifiTestTool.Iperf.Proofs.Accounting
import WifiTestTool.Iperf.Proofs.Lights
import WifiTestTool.Iperf.Proofs.Options
import WifiTestTool.Iperf.Proofs.ParamsExchange

/-!
# Tests without a rate

A test with rate 0 and no burst is not limited: from `iperf_create_send_timers` to the end of the test every
stream of the sender has a green light and its socket in the write set, whatever the other party and the
system do. With a burst it is not so: `iperf_send` then checks the throttle of every stream, no rate is below
0, and there is no send timer to switch the light on again.
-/

namespace Iperf

open Reactive

/-- From `E` on, the program leads to `E'` wherever it returns. -/
abbrev Leads {α : Type} (E : Lights → Prop) (p : IperfProg α) (E' : Lights → Prop) : Prop :=
  Prog.Triple (watchLights Unthrottled) (Watched E) p fun _ => Watched E'

/-- The program keeps `E`, whatever that is. -/
abbrev Unnoticed {α : Type} (p : IperfProg α) : Prop :=
  ∀ E : Lights → Prop, Prog.Keeps (watchLights Unthrottled) (Watched E) (fun _ => True) p

/-- The program keeps the sockets of a sender in the write set. -/
abbrev Wires {α : Type} (p : IperfProg α) : Prop := Leads Lights.Wired p Lights.Wired

/-- The test is in the given state, and the sockets of a sender are in the write set. -/
def Lights.WiredIn (state : TestState) (v : Lights) : Prop := v.state = state ∧ v.Wired

/-- There are no streams. -/
def Lights.Empty (v : Lights) : Prop := v.streams = []

theorem Lights.Empty.wired {v : Lights} (h : v.Empty) : v.Wired := by
  intro _ st hst
  rw [h] at hst
  cases hst

section Rules

variable {α β : Type} {E E' E'' : Lights → Prop}

theorem Unnoticed.leads {p : IperfProg α} (hp : Unnoticed p) (hE : ∀ v, v.OnCourse Unthrottled → E v → E' v) :
    Leads E p E' :=
  Prog.Triple.conseq (hp E) (fun _ _ h => h) fun _ _ _ h => h.2.mono hE

theorem Unnoticed.wires {p : IperfProg α} (hp : Unnoticed p) : Wires p := hp.leads fun _ _ h => h

theorem leads_pure (a : α) (hE : ∀ v, v.OnCourse Unthrottled → E v → E' v) :
    Leads E (pure a : IperfProg α) E' := .ret fun _ _ h => h.mono hE

theorem Leads.mono {p : IperfProg α} (hp : Leads E' p E'') (hE : ∀ v, v.OnCourse Unthrottled → E v → E' v) :
    Leads E p E'' := Prog.Triple.conseq hp (fun _ _ h => h.mono hE) fun _ _ _ h => h

/-- A look at the test: what follows may use that the lights are still those of the test. -/
theorem leads_getTest_bind {f : IperfTest → IperfProg α}
    (hf : ∀ t, Leads (fun v => v = t.lights ∧ E v) (f t) E') : Leads E (getTest >>= f) E' :=
  fun m g hm => hf m.test m g fun hg =>
    ⟨(hm hg).onCourse, (hm hg).noted, (hm hg).wired, (hm hg).procs, rfl, (hm hg).expect⟩

/-- The same where it does not matter what the lights are. -/
theorem leads_look_bind {f : IperfTest → IperfProg α} (hf : ∀ t, Leads E (f t) E') :
    Leads E (getTest >>= f) E' := leads_getTest_bind fun t => (hf t).mono fun _ _ h => h.2

theorem unnoticed_getTest_bind {f : IperfTest → IperfProg α} (hf : ∀ t, Unnoticed (f t)) :
    Unnoticed (getTest >>= f) := fun E => keeps_getTest_bind fun m _ _ => hf m.test E

/-- A statement that is executed only if `b` holds. -/
theorem leads_guard {b : Prop} [Decidable b] {p : IperfProg Unit} {k : Unit → IperfProg α}
    (hp : Unnoticed p) (hk : Leads E (k ()) E') : Leads E (if b then p >>= k else k ()) E' :=
  .ite (fun _ => .seq (hp E) fun _ _ => hk) fun _ => hk

theorem unnoticed_fail (e : IErr) : Unnoticed (fail e) := fun _ => watched_steady fun _ hh => .fail hh e

theorem unnoticed_setErrno (e : Errno) : Unnoticed (setErrno e) :=
  fun _ => watched_steady fun _ hh => .setErrno hh e

theorem unnoticed_nread (fuel : Nat) (fd : Int) (count : Nat) : Unnoticed (nread fuel fd count) :=
  fun _ => watched_steady fun _ hh => nreadLoop_steady hh (fun _ => trivial) count fuel []

theorem unnoticed_nwrite (fuel : Nat) (fd : Int) (buf : List UInt8) : Unnoticed (nwrite fuel fd buf) :=
  fun _ => watched_steady fun _ hh => nwriteLoop_steady hh (fun _ => trivial) _ fuel buf

/-- The state of the test changes. -/
theorem leads_setState (state : TestState) :
    Leads Lights.Wired (modifyTest fun t => { t with state := state }) (Lights.WiredIn state) :=
  watched_modifyTest fun _ _ _ hwired _ => ⟨fun _ => hwired, ⟨rfl, hwired⟩, fun _ hlit _ => hlit⟩

theorem leads_iperfSetSendState (fuel : Nat) (state : TestState) :
    Leads Lights.Wired (iperfSetSendState fuel state) (Lights.WiredIn state) := by
  refine .bind (leads_setState state) fun _ => leads_look_bind fun t => ?_
  refine .seq (unnoticed_nwrite _ _ _ _) fun r _ => .ite (fun _ => ?_) fun _ => leads_pure _ fun _ _ h => h
  exact (unnoticed_fail _).leads fun _ _ h => h

/-- In these states the observer has stopped to watch. -/
theorem leads_off {p : IperfProg α} {state : TestState}
    (hstate : state ∉ [0, TestState.IPERF_START, TestState.PARAM_EXCHANGE, TestState.CREATE_STREAMS,
      TestState.TEST_START, TestState.TEST_RUNNING]) :
    Leads (Lights.WiredIn state) p E := by
  refine triple_off (fun v hv hcourse => ?_) fun _ _ => .ended
  obtain ⟨hs, -⟩ := hv
  refine hstate ?_
  rcases hcourse with ⟨h, -⟩ | ⟨h, -⟩
  · rcases h with h | h | h <;> rw [← hs, h] <;> simp
  · rcases h with h | h | h <;> rw [← hs, h] <;> simp

end Rules

/-! ## The parameters -/

theorem unnoticed_jsonWrite (fuel : Nat) (fd : Int) (json : Json) : Unnoticed (jsonWrite fuel fd json) := by
  intro E
  refine .bind (watched_sys _) fun str _ => ?_
  cases str with
  | none => exact .pure trivial
  | some str =>
    refine .bind (unnoticed_nwrite _ _ _ E) fun _ _ => .ite (fun _ => .pure trivial) fun _ => ?_
    exact .bind (unnoticed_nwrite _ _ _ E) fun _ _ => .pure trivial

theorem unnoticed_jsonRead (fuel : Nat) (fd : Int) : Unnoticed (jsonRead fuel fd) := by
  intro E
  refine .bind (watched_sys _) fun nsize _ => .bind (unnoticed_nread _ _ _ E) fun got _ => ?_
  cases got with
  | none => exact .pure trivial
  | some got =>
    refine .bind (watched_sys _) fun str _ => ?_
    cases str with
    | none => exact .pure trivial
    | some str =>
      refine .bind (unnoticed_nread _ _ _ E) fun got _ => ?_
      cases got with
      | none => exact .pure trivial
      | some got => exact watched_sys _

theorem unnoticed_sendParameters (fuel : Nat) : Unnoticed (sendParameters fuel) := by
  intro E
  refine .bind (watched_sys _) fun _ _ => .ite (fun _ => unnoticed_fail _ E) fun _ => ?_
  refine unnoticed_getTest_bind (fun t E => ?_) E
  refine .bind (unnoticed_jsonWrite _ _ _ E) fun _ _ => ?_
  exact .ite (fun _ => unnoticed_fail _ E) fun _ => .pure trivial

/-- `get_parameters` changes neither the state nor the streams. -/
theorem takeParameters_state_streams {j : Json} {t t' : IperfTest} (h : takeParameters j t = some t') :
    t'.state = t.state ∧ t'.streams = t.streams := by
  have hread : (readItems j parameterReaders t).state = t.state ∧
      (readItems j parameterReaders t).streams = t.streams := by
    constructor
    · exact apply_readItems IperfTest.state j (by simp [parameterReaders, onSettings, setProtocol,
        iperfSetTestReverse, checkSenderHasRetransmits]) t
    · exact apply_readItems IperfTest.streams j (by simp [parameterReaders, onSettings, setProtocol,
        iperfSetTestReverse, checkSenderHasRetransmits]) t
  simp only [takeParameters, Option.bind_eq_bind, Option.bind_eq_some_iff] at h
  obtain ⟨t₁, h₁, t₂, h₂, h₃⟩ := h
  have e₁ : t₁.state = t.state ∧ t₁.streams = t.streams := by
    rcases onString_some h₁ with rfl | ⟨s, rfl⟩ <;> exact hread
  have e₂ : t₂.state = t.state ∧ t₂.streams = t.streams := by
    rcases onString_some h₂ with rfl | ⟨s, rfl⟩ <;> exact e₁
  rw [← Option.some.inj h₃]
  split <;> exact e₂

theorem leads_getParameters (fuel : Nat) :
    Leads (Lights.WiredIn TestState.PARAM_EXCHANGE) (getParameters fuel) Lights.Wired := by
  refine leads_getTest_bind fun t => .seq (unnoticed_jsonRead _ _ _) fun j _ => ?_
  cases j with
  | none => exact (unnoticed_fail _).leads fun _ _ h => h.2.2
  | some j =>
    dsimp only
    cases htake : takeParameters j t with
    | none => exact fun _ _ _ => trivial
    | some t' =>
      obtain ⟨hstate, hstreams⟩ := takeParameters_state_streams htake
      refine .bind (M := fun _ => Watched Lights.Empty) (watched_modifyTest fun t₁ hcourse _ hE _ => ?_)
        fun _ => leads_pure _ fun _ _ h => h.wired
      obtain ⟨hsame, hin, -⟩ := hE
      have hnone : t₁.lights.streams = [] := hcourse.streams (.inr (.inr hin))
      have hempty : t'.lights.Empty := by
        have ht : t.lights.streams = [] := hsame ▸ hnone
        show t'.streams.map _ = []
        rw [hstreams]
        exact ht
      refine ⟨fun _ => hempty.wired, hempty, fun _ _ _ st hst => ?_⟩
      rw [hempty] at hst
      cases hst

theorem wires_sendServerError (fuel : Nat) : Wires (sendServerError fuel) := by
  refine .bind (leads_iperfSetSendState fuel _) fun r => ?_
  exact leads_off (by decide)

theorem wires_listenForStreams (fuel : Nat) : Wires (listenForStreams fuel) := by
  refine leads_look_bind fun t => .seq (protocolListen_keeps watched_plumbing _) fun s _ => ?_
  refine .ite (fun _ => wires_sendServerError fuel) fun _ => ?_
  refine .seq (watched_keepTest fun _ => rfl) fun _ _ => .bind (leads_iperfSetSendState fuel _) fun r => ?_
  exact .ite (fun _ => leads_pure _ fun _ _ h => h.2) fun _ => leads_pure _ fun _ _ h => h.2

theorem leads_iperfExchangeParameters (fuel : Nat) :
    Leads (Lights.WiredIn TestState.PARAM_EXCHANGE) (iperfExchangeParameters fuel) Lights.Wired := by
  refine leads_look_bind fun t => .ite (fun _ => ?_) fun _ => ?_
  · refine .seq (unnoticed_sendParameters fuel _) fun r _ => ?_
    exact .ite (fun _ => leads_pure _ fun _ _ h => h.2) fun _ => leads_pure _ fun _ _ h => h.2
  · refine .bind (leads_getParameters fuel) fun r => ?_
    exact .ite (fun _ => leads_pure _ fun _ _ h => h) fun _ => wires_listenForStreams fuel

/-! ## New streams -/

/-- The streams are being created, and `s` is in the write set of a sender. -/
def Lights.ReadyFor (s : Int) (v : Lights) : Prop :=
  v.WiredIn TestState.CREATE_STREAMS ∧ (v.sender = true → s ∈ v.writeSet)

/-- The streams are being created, and no socket but `s` is missing in the write set of a sender. -/
def Lights.Lacking (s : Int) (v : Lights) : Prop :=
  v.state = TestState.CREATE_STREAMS ∧
    (v.sender = true → ∀ st ∈ v.streams, st.1 = s ∨ st.1 ∈ v.writeSet)

theorem lights_iperfAddStream (st : IperfStream) (t : IperfTest) :
    (iperfAddStream st t).lights =
      { t.lights with streams := t.lights.streams ++ [(st.socket, st.greenLight)] } := by
  simp [iperfAddStream, IperfTest.lights]

/-- The socket of a new stream is entered in the set that `select` gets for the streams. -/
theorem lights_select (s : Int) (t : IperfTest) :
    IperfTest.lights (
      let t := if t.sender then { t with writeSet := insert s t.writeSet }
        else { t with readSet := insert s t.readSet }
      { t with maxFd := max t.maxFd s }) =
      { t.lights with writeSet := if t.sender then insert s t.writeSet else t.writeSet } := by
  dsimp only
  split <;> rfl

/-- In this state the lights need not be on. -/
theorem not_running_of_creating {v : Lights} (h : v.state = TestState.CREATE_STREAMS) : ¬ v.Running := by
  rintro (h' | h') <;> rw [h] at h' <;> cases h'

/-- A stream is added whose socket is in the write set already. -/
theorem leads_addStream {s : Int} {f : IperfTest → IperfStream} (hf : ∀ t, (f t).socket = s) :
    Leads (Lights.ReadyFor s) (modifyTest fun t => iperfAddStream (f t) t)
      (Lights.WiredIn TestState.CREATE_STREAMS) := by
  refine watched_modifyTest fun t _ _ hE _ => ?_
  obtain ⟨⟨hstate, hwired⟩, hs⟩ := hE
  have hnew : (iperfAddStream (f t) t).lights.WiredIn TestState.CREATE_STREAMS := by
    rw [lights_iperfAddStream]
    refine ⟨hstate, fun hsender st hst => ?_⟩
    rcases List.mem_append.1 hst with hst | hst
    · exact hwired hsender st hst
    · rw [List.mem_singleton.1 hst]
      exact (hf t).symm ▸ hs hsender
  exact ⟨fun _ => hnew.2, hnew, fun hrun => absurd hrun (not_running_of_creating hstate)⟩

theorem unnoticed_connectMsg (s : Int) : Unnoticed (connectMsg s) := by
  refine unnoticed_getTest_bind fun t E => .bind (watched_sys _) fun _ _ => ?_
  exact .ite (fun _ => watched_sys _) fun _ => watched_sys _

/-! ## The send timers -/

/-- The light of a stream is switched on; nothing else changes. -/
theorem mem_lightOn {t : IperfTest} {sp : Nat} {st : Int × Bool}
    (h : st ∈ ({ t with streams := t.streams.modify sp fun st => { st with greenLight := true } } :
      IperfTest).lights.streams) :
    st ∈ t.lights.streams ∨ st.2 = true ∧ ∃ b, (st.1, b) ∈ t.lights.streams := by
  obtain ⟨st', hst', rfl⟩ := List.mem_map.1 h
  rcases mem_modify hst' with hst' | ⟨st'', hst'', rfl⟩
  · exact .inl (List.mem_map_of_mem hst')
  · exact .inr ⟨rfl, _, List.mem_map_of_mem hst''⟩

theorem leads_lightOn (sp : Nat) :
    Leads (Lights.WiredIn TestState.TEST_START) (modifyStream sp fun st => { st with greenLight := true })
      (Lights.WiredIn TestState.TEST_START) := by
  refine watched_modifyTest fun t _ _ hE _ => ?_
  obtain ⟨hstate, hwired⟩ := hE
  have hwired' : ({ t with streams := t.streams.modify sp fun st => { st with greenLight := true } } :
      IperfTest).lights.Wired := by
    intro hsender st hst
    rcases mem_lightOn hst with hst | ⟨-, b, hst⟩
    · exact hwired hsender st hst
    · have h := hwired hsender (st.1, b) hst
      exact h
  refine ⟨fun _ => hwired', ⟨hstate, hwired'⟩, fun _ hlit _ st hst => ?_⟩
  rcases mem_lightOn hst with hst | ⟨hst, -⟩
  · exact hlit st hst
  · exact hst

/-- There is no send timer without a rate. -/
theorem leads_createSendTimer (sp : Nat) :
    Leads (Lights.WiredIn TestState.TEST_START) (createSendTimer sp)
      (Lights.WiredIn TestState.TEST_START) := by
  refine .bind (leads_lightOn sp) fun _ => leads_getTest_bind fun t => .ite (fun hrate => ?_) fun _ => ?_
  · refine triple_off (fun v hv hcourse => ?_) fun _ _ => .ended
    obtain ⟨rfl, hstate, -⟩ := hv
    exact hrate (hcourse.settings (.inr (.inl hstate))).1
  · exact leads_pure _ fun _ _ h => h.2

theorem leads_forStreams {E : Lights → Prop} {α : Type} {body : Nat → IperfProg (Option α)}
    (hb : ∀ sp, Leads E (body sp) E) (sps : List Nat) : Leads E (forStreams body sps) E := by
  induction sps with
  | nil => exact leads_pure _ fun _ _ h => h
  | cons sp sps ih =>
    refine .bind (hb sp) fun r => ?_
    cases r with
    | some a => exact leads_pure _ fun _ _ h => h
    | none => exact ih

theorem leads_iperfCreateSendTimers :
    Leads (Lights.WiredIn TestState.TEST_START) iperfCreateSendTimers
      (Lights.WiredIn TestState.TEST_START) := by
  refine .seq (watched_sys _) fun a _ => ?_
  cases a with
  | error e => exact .seq (unnoticed_setErrno e _) fun _ _ => (unnoticed_fail _).leads fun _ _ h => h
  | ok now =>
    have hall : Unnoticed allStreams := unnoticed_getTest_bind fun _ _ => .pure trivial
    refine .seq (hall _) fun sps _ => ?_
    exact .bind (leads_forStreams leads_createSendTimer sps) fun r => leads_pure _ fun _ _ h => h

/-! ## The client -/

/-- `FD_SET` for the socket of a stream that is to be created. -/
theorem leads_readyFor (s : Int) :
    Leads (Lights.WiredIn TestState.CREATE_STREAMS) (modifyTest fun t =>
      let t := if t.sender then { t with writeSet := insert s t.writeSet }
        else { t with readSet := insert s t.readSet }
      { t with maxFd := max t.maxFd s }) (Lights.ReadyFor s) := by
  refine watched_modifyTest fun t _ _ hE _ => ?_
  obtain ⟨hstate, hwired⟩ := hE
  rw [lights_select]
  have hnew : Lights.ReadyFor s
      { t.lights with writeSet := if t.sender then insert s t.writeSet else t.writeSet } := by
    refine ⟨⟨hstate, fun hsender st hst => ?_⟩, fun hsender => ?_⟩
    · have h := hwired hsender st hst
      have hsender : t.sender = true := hsender
      simp only [hsender, if_true]
      exact Finset.mem_insert_of_mem h
    · have hsender : t.sender = true := hsender
      simp [hsender]
  exact ⟨fun _ => hnew.1.2, hnew, fun hrun => absurd hrun (not_running_of_creating hstate)⟩

theorem leads_createStreamsLoop (fuel n : Nat) :
    Leads (Lights.WiredIn TestState.CREATE_STREAMS) (createStreamsLoop fuel n) Lights.Wired := by
  induction n with
  | zero => exact leads_pure _ fun _ _ h => h.2
  | succ n ih =>
    refine leads_look_bind fun t => .seq (protocolConnect_keeps watched_plumbing _ _) fun s _ => ?_
    refine .ite (fun _ => leads_pure _ fun _ _ h => h.2) fun _ => .bind (leads_readyFor s) fun _ => ?_
    refine .bind (iperfNewStream_triple (Q := fun _ => Watched (Lights.WiredIn TestState.CREATE_STREAMS))
      watched_plumbing ?_ ?_) fun sp => ?_
    · exact fun m g hm => hm.mono fun _ _ h => h.1
    · exact fun f hf => leads_addStream fun t => (hf t).1
    · refine .ite (fun _ => leads_pure _ fun _ _ h => h.2) fun _ => ?_
      exact .seq (unnoticed_connectMsg s _) fun _ _ => ih

theorem leads_iperfCreateStreams (fuel : Nat) :
    Leads (Lights.WiredIn TestState.CREATE_STREAMS) (iperfCreateStreams fuel) Lights.Wired :=
  leads_look_bind fun _ => leads_createStreamsLoop fuel _

theorem unnoticed_setIErrno (e : IErr) : Unnoticed (setIErrno e) :=
  fun _ => watched_steady fun _ hh => .setIErrno hh e

theorem leads_handleTestStart :
    Leads (Lights.WiredIn TestState.TEST_START) handleTestStart Lights.Wired := by
  have hfail : Leads (Lights.WiredIn TestState.TEST_START) (pure (-1)) Lights.Wired :=
    leads_pure _ fun _ _ h => h.2
  refine .seq (watched_steady fun _ hh => iperfInitTest_steady hh) fun r _ => .ite (fun _ => hfail) ?_
  refine fun _ =>
    .seq (watched_steady fun _ hh => createClientTimers_steady hh) fun r _ => .ite (fun _ => hfail) ?_
  refine fun _ => .seq (watched_steady fun _ hh => createOmitTimer_steady hh) fun r _ => ?_
  refine .ite (fun _ => hfail) fun _ => leads_look_bind fun t => ?_
  have hrest : ∀ r : Int, Leads (Lights.WiredIn TestState.TEST_START)
      (if r < 0 then pure (-1) else pure (0 : Int)) Lights.Wired := fun r =>
    .ite (fun _ => hfail) fun _ => leads_pure _ fun _ _ h => h.2
  exact .ite (fun _ => .bind leads_iperfCreateSendTimers fun r => hrest r) fun _ => hrest 0

theorem leads_handleStateClient (fuel : Nat) (state : TestState) :
    Leads (Lights.WiredIn state) (handleStateClient fuel state) Lights.Wired := by
  have hpure : ∀ r : Int, Leads (Lights.WiredIn state) (pure r) Lights.Wired := fun r =>
    leads_pure _ fun _ _ h => h.2
  refine .ite (fun h => ?_) fun _ => .ite (fun h => ?_) fun _ => .ite (fun h => ?_) fun _ => ?_
  · subst h
    refine .bind (leads_iperfExchangeParameters fuel) fun r => .ite (fun _ => leads_pure _ fun _ _ h => h) ?_
    refine fun _ => .seq (watched_steady fun _ hh => iperfOnConnect_steady hh) fun _ _ => ?_
    exact leads_pure _ fun _ _ h => h
  · subst h
    refine .bind (leads_iperfCreateStreams fuel) fun r => .ite (fun _ => ?_) fun _ => ?_
    all_goals exact leads_pure _ fun _ _ h => h
  · subst h
    exact leads_handleTestStart
  refine .ite (fun _ => hpure 0) fun _ => .ite (fun h => ?_) fun _ => .ite (fun h => ?_) fun _ => ?_
  · subst h
    exact leads_off (by decide)
  · subst h
    exact leads_off (by decide)
  refine .ite (fun _ => hpure 0) fun _ => .ite (fun h => ?_) fun _ => ?_
  · subst h
    exact leads_off (by decide)
  refine .ite (fun _ => ?_) fun _ => .ite (fun h => ?_) fun _ => ?_
  · exact (unnoticed_fail _).leads fun _ _ h => h.2
  · subst h
    exact leads_off (by decide)
  · exact (unnoticed_fail _).leads fun _ _ h => h.2

theorem wires_iperfHandleMessageClient (fuel : Nat) : Wires (iperfHandleMessageClient fuel) := by
  refine leads_look_bind fun t => .seq (watched_sys _) fun a _ => ?_
  match a with
  | .error e => exact .seq (unnoticed_setErrno e _) fun _ _ => (unnoticed_fail _).wires
  | .ok [] => exact (unnoticed_fail _).wires
  | .ok (b :: _) => exact .bind (leads_setState _) fun _ => leads_handleStateClient fuel _

theorem wires_clientSelect (fuel : Nat) (l : ClientLocals) : Wires (clientSelect fuel l) := by
  refine leads_look_bind fun t => .seq (watched_steady fun _ hh => gettimeofday_steady hh) fun now _ => ?_
  refine .seq (watched_steady fun _ hh => getTimeout_steady hh now) fun timeout _ => ?_
  refine .seq (watched_sys _) fun a _ => ?_
  cases a with
  | error e =>
    refine .seq (unnoticed_setErrno e _) fun _ _ => .ite (fun _ => ?_) fun _ => leads_pure _ fun _ _ h => h
    exact .seq (unnoticed_setIErrno _ _) fun _ _ => leads_pure _ fun _ _ h => h
  | ok v =>
    refine leads_look_bind fun t => .ite (fun _ => ?_) fun _ => leads_pure _ fun _ _ h => h
    refine .bind (wires_iperfHandleMessageClient fuel) fun r => .ite (fun _ => leads_pure _ fun _ _ h => h) ?_
    exact fun _ => leads_look_bind fun t => leads_pure _ fun _ _ h => h

theorem unnoticed_clientStartup (l : ClientLocals) : Unnoticed (clientStartup l) := by
  refine unnoticed_getTest_bind fun t E => .ite (fun _ => .ite (fun _ => ?_) fun _ => .pure trivial) fun _ =>
    .pure trivial
  refine .bind (watched_keepTest fun _ => rfl) fun _ _ => ?_
  exact .bind (watched_sys _) fun _ _ => .pure trivial

theorem unnoticed_iperfRecv (fuel : Nat) (readSet : FdSet) : Unnoticed (iperfRecv fuel readSet) :=
  fun _ => watched_steady fun _ hh => iperfRecv_steady hh fuel readSet

theorem unnoticed_runTimers (fuel : Nat) : Unnoticed (runTimers fuel) :=
  fun _ => watched_steady fun _ hh => runTimers_steady hh fuel

theorem unnoticed_clientData (fuel : Nat) (l : ClientLocals) : Unnoticed (clientData fuel l) :=
  unnoticed_getTest_bind fun _ E => .ite (fun _ => unnoticed_iperfRecv _ _ E) fun _ =>
    watched_steady fun _ hh => iperfSend_steady hh fuel _

theorem unnoticed_clientTimers (fuel : Nat) (l : ClientLocals) : Unnoticed (clientTimers fuel l) := by
  refine fun E => .ite (fun _ => .bind (watched_sys _) fun _ _ => ?_) fun _ => ?_
  · exact .ite (fun _ => unnoticed_runTimers fuel E) fun _ => .pure trivial
  · exact .ite (fun _ => unnoticed_runTimers fuel E) fun _ => .pure trivial

theorem wires_clientMaybeEnd (fuel : Nat) (l : ClientLocals) : Wires (clientMaybeEnd fuel l) := by
  refine leads_look_bind fun t => .ite (fun _ => ?_) fun _ => leads_pure _ fun _ _ h => h
  refine .seq (watched_keepTest fun _ => rfl) fun _ _ => ?_
  refine .seq (watched_steady fun _ hh => updateCpuUtil_steady hh) fun _ _ => ?_
  refine .seq (watched_steady fun _ hh => iperfStatsCallback_steady hh) fun _ _ => ?_
  exact .bind (leads_iperfSetSendState fuel _) fun r => leads_off (by decide)

theorem wires_clientRunning (fuel : Nat) (l : ClientLocals) : Wires (clientRunning fuel l) := by
  refine .seq (unnoticed_clientStartup l _) fun l _ => .seq (unnoticed_clientData fuel l _) fun r _ => ?_
  refine .ite (fun _ => leads_pure _ fun _ _ h => h) fun _ => ?_
  exact .seq (unnoticed_clientTimers fuel l _) fun _ _ => wires_clientMaybeEnd fuel l

theorem wires_clientStep (fuel : Nat) (l : ClientLocals) : Wires (clientStep fuel l) := by
  have hrest : ∀ l : ClientLocals, Wires (do
      let t ← getTest
      if t.state = TestState.TEST_RUNNING then
        clientRunning fuel l
      else if t.reverse ≠ 0 ∧ t.state = TestState.TEST_END then do
        let r ← iperfRecv fuel l.readSet
        if r < 0 then pure none else pure (some l)
      else
        pure (some l)) := by
    intro l
    refine leads_look_bind fun t => .ite (fun _ => wires_clientRunning fuel l) fun _ => ?_
    refine .ite (fun _ => ?_) fun _ => leads_pure _ fun _ _ h => h
    refine .seq (unnoticed_iperfRecv _ _ _) fun r _ => ?_
    exact .ite (fun _ => leads_pure _ fun _ _ h => h) fun _ => leads_pure _ fun _ _ h => h
  refine .ite (fun _ => hrest l) fun _ => .bind (wires_clientSelect fuel l) fun r => ?_
  cases r with
  | none => exact leads_pure _ fun _ _ h => h
  | some l => exact hrest l

theorem wires_clientLoop (fuel passes : Nat) (l : ClientLocals) : Wires (clientLoop fuel passes l) := by
  induction passes generalizing l with
  | zero => exact fun _ _ _ => trivial
  | succ passes ih =>
    refine leads_look_bind fun t => .ite (fun _ => leads_pure _ fun _ _ h => h) fun _ => ?_
    refine .bind (wires_clientStep fuel l) fun r => ?_
    cases r with
    | none => exact leads_pure _ fun _ _ h => h
    | some l => exact ih l

theorem wires_clientFinish : Wires clientFinish := by
  refine leads_look_bind fun t => .ite (fun _ => ?_) fun _ => ?_
  · refine .seq (watched_steady fun _ hh => iperfJsonFinish_steady hh) fun r _ => ?_
    exact .ite (fun _ => leads_pure _ fun _ _ h => h) fun _ => leads_pure _ fun _ _ h => h
  · exact .seq (watched_sys _) fun _ _ => .seq (watched_sys _) fun _ _ => leads_pure _ fun _ _ h => h

theorem leads_iperfConnect (fuel : Nat) : Leads Lights.Empty (iperfConnect fuel) Lights.Empty := by
  have hsets : Leads Lights.Empty (modifyTest fun t => { t with readSet := ∅, writeSet := ∅ }) Lights.Empty :=
    watched_modifyTest fun t _ _ hE _ => ⟨fun _ => Lights.Empty.wired hE, hE, fun _ hlit _ => hlit⟩
  have hdial : Unnoticed (do
      let t ← getTest
      if t.ctrlSck < 0 then
        fail .IECONNECT
      else do
        let r ← nwrite fuel t.ctrlSck t.cookie
        if r < 0 then
          fail .IESENDCOOKIE
        else do
          modifyTest fun t => { t with
            readSet := insert t.ctrlSck t.readSet
            maxFd := max t.maxFd t.ctrlSck }
          pure (0 : Int)) := by
    refine unnoticed_getTest_bind fun t E => .ite (fun _ => unnoticed_fail _ E) fun _ => ?_
    refine .bind (unnoticed_nwrite _ _ _ E) fun r _ => .ite (fun _ => unnoticed_fail _ E) fun _ => ?_
    exact .bind (watched_keepTest fun _ => rfl) fun _ _ => .pure trivial
  refine .bind hsets fun _ => .seq (watched_sys _) fun cookie _ => ?_
  refine .seq (watched_keepTest fun _ => rfl) fun _ _ => leads_look_bind fun t => ?_
  refine .ite (fun _ => ?_) fun _ => hdial.leads fun _ _ h => h
  refine .seq (netdial_keeps watched_plumbing _ _ _ _ _) fun s _ => ?_
  exact .seq (watched_keepTest fun _ => rfl) fun _ _ => hdial.leads fun _ _ h => h

theorem leads_clientMain (fuel : Nat) : Leads Lights.Empty (clientMain fuel) Lights.Wired := by
  refine .bind (leads_iperfConnect fuel) fun r => .ite (fun _ => leads_pure _ fun _ _ h => h.wired) ?_
  refine fun _ => .seq (watched_sys _) fun _ _ => ?_
  refine .bind ((wires_clientLoop fuel fuel _).mono fun _ _ h => h.wired) ?_
  refine fun ok => .ite (fun _ => wires_clientFinish) fun _ => leads_pure _ fun _ _ h => h

/-- What both parties do before they open a socket goes unnoticed. -/
theorem leads_prolog {k : IperfProg Int} (hk : Leads Lights.Empty k Lights.Wired) :
    Leads Lights.Empty (prolog k) Lights.Wired :=
  prolog_triple (fun affinity => watched_steady fun _ hh => iperfSetaffinity_steady hh affinity)
    (watched_steady fun _ hh => iperfJsonStart_steady hh)
    (fun t => watched_steady fun _ hh => reportVersion_steady hh t)
    (fun _ _ h => h.mono fun _ _ hempty => hempty.wired) hk

/-- A client that has no streams yet keeps the sockets of its streams in the write set. -/
theorem leads_iperfRunClient (fuel : Nat) : Leads Lights.Empty (iperfRunClient fuel) Lights.Wired :=
  .seq (watched_sys _) fun _ _ => leads_prolog (leads_clientMain fuel)

/-! ## The server -/

theorem unnoticed_sockAccept (fd : Int) : Unnoticed (sockAccept fd) := fun _ =>
  .bind (watched_sys _) fun _ _ => result_keeps watched_plumbing trivial fun _ _ => trivial

theorem wires_acceptClient (fuel : Nat) (s : Int) : Wires (acceptClient fuel s) := by
  refine .seq (watched_keepTest fun _ => rfl) fun _ _ => .seq (unnoticed_nread _ _ _ _) fun got _ => ?_
  cases got with
  | none => exact (unnoticed_fail _).wires
  | some got =>
    refine .seq (watched_keepTest fun _ => rfl) fun _ _ => .bind (leads_iperfSetSendState fuel _) fun r => ?_
    refine .ite (fun _ => leads_pure _ fun _ _ h => h.2) fun _ => ?_
    refine .bind (leads_iperfExchangeParameters fuel) fun r => .ite (fun _ => leads_pure _ fun _ _ h => h) ?_
    refine fun _ => leads_look_bind fun t => ?_
    have hconnect : ∀ r : Int, Wires (if r ≠ 0 then pure (-1) else do
        iperfOnConnect
        pure (0 : Int)) := by
      refine fun r => .ite (fun _ => leads_pure _ fun _ _ h => h) fun _ => ?_
      refine .seq (watched_steady fun _ hh => iperfOnConnect_steady hh) fun _ _ => ?_
      exact leads_pure _ fun _ _ h => h
    refine .ite (fun _ => ?_) fun _ => hconnect 0
    exact .seq (watched_steady fun _ hh => iperfSetaffinity_steady hh _) fun r _ => hconnect r

theorem unnoticed_denyClient (fuel : Nat) (s : Int) : Unnoticed (denyClient fuel s) := by
  refine fun E => .bind (watched_sys _) fun _ _ => .bind (unnoticed_nread _ _ _ E) fun got _ => ?_
  cases got with
  | none => exact unnoticed_fail _ E
  | some got =>
    refine .bind (unnoticed_nwrite _ _ _ E) fun _ _ => .ite (fun _ => unnoticed_fail _ E) fun _ => ?_
    exact .bind (watched_sys _) fun _ _ => .pure trivial

theorem wires_iperfAccept (fuel : Nat) : Wires (iperfAccept fuel) := by
  refine leads_look_bind fun t => .seq (unnoticed_sockAccept _ _) fun s _ => ?_
  refine .ite (fun _ => (unnoticed_fail _).wires) fun _ => .ite (fun _ => ?_) fun _ => ?_
  · exact wires_acceptClient fuel s
  · exact (unnoticed_denyClient fuel s).wires

theorem leads_handleStateServer (fuel : Nat) (state : TestState) :
    Leads (Lights.WiredIn state) (handleStateServer fuel state) Lights.Wired := by
  have hpure : Leads (Lights.WiredIn state) (pure 0) Lights.Wired := leads_pure _ fun _ _ h => h.2
  refine .ite (fun _ => hpure) fun _ => .ite (fun h => ?_) fun _ => .ite (fun _ => hpure) fun _ => ?_
  · subst h
    exact leads_off (by decide)
  refine .ite (fun h => ?_) fun _ => (unnoticed_fail _).leads fun _ _ h => h.2
  subst h
  exact leads_off (by decide)

theorem wires_iperfHandleMessageServer (fuel : Nat) : Wires (iperfHandleMessageServer fuel) := by
  refine leads_look_bind fun t => .seq (unnoticed_nread _ _ _ _) fun got _ => ?_
  match got with
  | none => exact (unnoticed_fail _).wires
  | some [] =>
    refine .seq (watched_sys _) fun _ _ => .seq (unnoticed_setIErrno _ _) fun _ _ => ?_
    exact .bind (leads_setState _) fun _ => leads_pure _ fun _ _ h => h.2
  | some (b :: _) => exact .bind (leads_setState _) fun _ => leads_handleStateServer fuel _

theorem unnoticed_cleanupServer : Unnoticed cleanupServer := by
  refine unnoticed_getTest_bind fun t E => .bind (watched_sys _) fun _ _ => ?_
  refine .bind (watched_sys _) fun _ _ => ?_
  refine .bind (watched_steady fun _ hh => cancelTimer_steady hh fun _ => rfl) fun _ _ => ?_
  refine .bind (watched_steady fun _ hh => cancelTimer_steady hh fun _ => rfl) fun _ _ => ?_
  exact watched_steady fun _ hh => cancelTimer_steady hh fun _ => rfl

/-- A call whose failure ends the run. -/
theorem leads_orCleanup {E F : Lights → Prop} {α : Type} {r : IperfProg Int} {k : IperfProg (Option α)}
    (hr : Leads E r F) (hk : Leads F k Lights.Wired) (hF : ∀ v, F v → v.Wired) :
    Leads E (orCleanup r k) Lights.Wired := by
  refine .bind hr fun v => .ite (fun _ => ?_) fun _ => hk
  exact .seq (unnoticed_cleanupServer _) fun _ _ => leads_pure _ fun v _ h => hF v h

theorem wires_serverListenerPart (fuel : Nat) (readSet : FdSet) :
    Wires (serverListenerPart fuel readSet) := by
  refine leads_look_bind fun t => .ite (fun _ => ?_) fun _ => leads_pure _ fun _ _ h => h
  refine leads_orCleanup (wires_iperfAccept fuel) ?_ fun _ h => h
  exact leads_look_bind fun t => leads_pure _ fun _ _ h => h

theorem wires_serverControlPart (fuel : Nat) (readSet : FdSet) :
    Wires (serverControlPart fuel readSet) := by
  refine leads_look_bind fun t => .ite (fun _ => ?_) fun _ => leads_pure _ fun _ _ h => h
  refine leads_orCleanup (wires_iperfHandleMessageServer fuel) ?_ fun _ h => h
  exact leads_look_bind fun t => leads_pure _ fun _ _ h => h

theorem unnoticed_iperfTcpAccept (fuel : Nat) : Unnoticed (iperfTcpAccept fuel) := by
  refine unnoticed_getTest_bind fun t E => .bind (unnoticed_sockAccept _ E) fun s _ => ?_
  refine .ite (fun _ => unnoticed_fail _ E) fun _ => .bind (watched_sys _) fun cookie _ => ?_
  refine .bind (unnoticed_nread _ _ _ E) fun got _ => ?_
  cases got with
  | none => exact unnoticed_fail _ E
  | some got =>
    have hrest : ∀ equal : Bool, Prog.Keeps (watchLights Unthrottled) (Watched E) (fun _ => True)
        (if equal then pure s else do
          let r ← nwrite fuel s [TestState.ACCESS_DENIED.toUInt8]
          if r < 0 then
            fail .IESENDMESSAGE
          else do
            sys (.close s)
            pure s) := by
      refine fun equal => .ite (fun _ => .pure trivial) fun _ => ?_
      refine .bind (unnoticed_nwrite _ _ _ E) fun r _ => .ite (fun _ => unnoticed_fail _ E) fun _ => ?_
      exact .bind (watched_sys _) fun _ _ => .pure trivial
    dsimp only
    split
    · exact hrest _
    · exact .bind (watched_sys _) fun equal _ => hrest equal

theorem unnoticed_protocolAccept (fuel : Nat) (prot : ProtId) : Unnoticed (protocolAccept fuel prot) := by
  cases prot with
  | tcp => exact unnoticed_iperfTcpAccept fuel
  | udp => exact fun E => (iperfUdpAccept_keeps watched_plumbing).mono fun _ _ => trivial
  | sctp => exact unnoticed_iperfTcpAccept fuel

/-- The server adds a stream first. -/
theorem leads_addLacking {s : Int} {f : IperfTest → IperfStream} (hf : ∀ t, (f t).socket = s) :
    Leads (Lights.WiredIn TestState.CREATE_STREAMS) (modifyTest fun t => iperfAddStream (f t) t)
      (Lights.Lacking s) := by
  refine watched_modifyTest fun t _ _ hE _ => ?_
  obtain ⟨hstate, hwired⟩ := hE
  rw [lights_iperfAddStream]
  have hnot := not_running_of_creating hstate
  refine ⟨fun hrun => absurd hrun hnot, ⟨hstate, fun hsender st hst => ?_⟩, fun hrun => absurd hrun hnot⟩
  rcases List.mem_append.1 hst with hst | hst
  · exact .inr (hwired hsender st hst)
  · rw [List.mem_singleton.1 hst]
    exact .inl (hf t)

/-- Then it enters its socket in the write set. -/
theorem leads_admitStream (s : Int) :
    Leads (Lights.Lacking s) (admitStream s) (Lights.WiredIn TestState.CREATE_STREAMS) := by
  have hselect : Leads (Lights.Lacking s) (modifyTest fun t =>
      let t := if t.sender then { t with writeSet := insert s t.writeSet }
        else { t with readSet := insert s t.readSet }
      { t with maxFd := max t.maxFd s }) (Lights.WiredIn TestState.CREATE_STREAMS) := by
    refine watched_modifyTest fun t _ _ hE _ => ?_
    obtain ⟨hstate, hlacking⟩ := hE
    rw [lights_select]
    have hnew : Lights.WiredIn TestState.CREATE_STREAMS
        { t.lights with writeSet := if t.sender then insert s t.writeSet else t.writeSet } := by
      refine ⟨hstate, fun hsender st hst => ?_⟩
      have h := hlacking hsender st hst
      have hsender : t.sender = true := hsender
      simp only [hsender, if_true]
      rcases h with h | h
      · exact h ▸ Finset.mem_insert_self _ _
      · exact Finset.mem_insert_of_mem h
    exact ⟨fun _ => hnew.2, hnew, fun hrun => absurd hrun (not_running_of_creating hstate)⟩
  exact .bind hselect fun _ => (unnoticed_connectMsg s).leads fun _ _ h => h

theorem leads_serverAcceptStream (fuel : Nat) (accepted : Int) :
    Leads (Lights.WiredIn TestState.CREATE_STREAMS) (serverAcceptStream fuel accepted) Lights.Wired := by
  have hclean : Leads (Lights.WiredIn TestState.CREATE_STREAMS) (do
      cleanupServer
      pure (none : Option Int)) Lights.Wired :=
    .seq (unnoticed_cleanupServer _) fun _ _ => leads_pure _ fun _ _ h => h.2
  refine leads_look_bind fun t => .seq (unnoticed_protocolAccept fuel _ _) fun s _ => ?_
  refine .ite (fun _ => hclean) fun _ => .seq (isClosed_keeps watched_plumbing s) fun closed _ => ?_
  refine .ite (fun _ => leads_pure _ fun _ _ h => h.2) fun _ => ?_
  refine .bind (iperfNewStream_triple (Q := fun sp => Watched fun v =>
    if sp then v.Lacking s else v.WiredIn TestState.CREATE_STREAMS) watched_plumbing ?_ ?_) fun sp => ?_
  · exact fun m g hm => hm
  · exact fun f hf => leads_addLacking fun t => (hf t).1
  · cases sp with
    | false => exact hclean
    | true => exact .bind (leads_admitStream s) fun _ => leads_pure _ fun _ _ h => h.2

theorem wires_serverStartTest (fuel : Nat) (accepted : Int) : Wires (serverStartTest fuel accepted) := by
  have hwired : ∀ v, Lights.WiredIn TestState.TEST_START v → v.Wired := fun _ h => h.2
  refine .seq (replaceListener_keeps watched_plumbing) fun r _ => .ite (fun _ => ?_) fun _ => ?_
  · refine .seq (unnoticed_cleanupServer _) fun _ _ => .seq (unnoticed_setIErrno _ _) fun _ _ => ?_
    exact leads_pure _ fun _ _ h => h
  · refine .seq (watched_keepTest fun _ => rfl) fun _ _ => ?_
    refine leads_orCleanup (leads_iperfSetSendState fuel _) ?_ hwired
    refine leads_orCleanup (Unnoticed.leads (fun _ => watched_steady fun _ hh => iperfInitTest_steady hh)
      fun _ _ h => h) ?_ hwired
    refine leads_orCleanup (Unnoticed.leads (fun _ => watched_steady fun _ hh => createServerTimers_steady hh)
      fun _ _ h => h) ?_ hwired
    refine leads_orCleanup (Unnoticed.leads (fun _ => watched_steady fun _ hh => createOmitTimer_steady hh)
      fun _ _ h => h) ?_ hwired
    refine leads_look_bind fun t => leads_orCleanup (F := Lights.Wired) (.ite (fun _ => ?_) fun _ => ?_) ?_
      fun _ h => h
    · refine Prog.Triple.conseq leads_iperfCreateSendTimers (fun _ _ h => h) fun _ _ _ h => ?_
      exact h.mono fun _ _ h => h.2
    · exact leads_pure _ fun _ _ h => h.2
    · exact leads_orCleanup (leads_iperfSetSendState fuel _) (leads_pure _ fun _ _ h => h.2) fun _ h => h.2

theorem wires_serverMaybeStart (fuel : Nat) (accepted : Int) : Wires (serverMaybeStart fuel accepted) :=
  leads_look_bind fun _ => .ite (fun _ => wires_serverStartTest fuel accepted) fun _ =>
    leads_pure _ fun _ _ h => h

theorem wires_serverStreamsPart (fuel : Nat) (readSet : FdSet) (accepted : Int) :
    Wires (serverStreamsPart fuel readSet accepted) := by
  have hstart : ∀ (readSet : FdSet) (accepted : Int), Wires (do
      let r ← serverMaybeStart fuel accepted
      pure (r.map fun accepted => (readSet, accepted))) := fun readSet accepted =>
    .bind (wires_serverMaybeStart fuel accepted) fun r => leads_pure _ fun _ _ h => h
  refine leads_getTest_bind fun t => .ite (fun hstate => ?_) fun _ => leads_pure _ fun _ _ h => h.2
  have hin : ∀ v, v = t.lights ∧ v.Wired → v.WiredIn TestState.CREATE_STREAMS := by
    rintro v ⟨rfl, hwired⟩
    exact ⟨hstate, hwired⟩
  refine .ite (fun _ => ?_) fun _ => (hstart readSet accepted).mono fun _ _ h => h.2
  refine .bind ((leads_serverAcceptStream fuel accepted).mono fun v _ h => hin v h) fun r => ?_
  cases r with
  | none => exact leads_pure _ fun _ _ h => h
  | some accepted => exact leads_look_bind fun t => hstart _ accepted

theorem wires_serverDataPart (fuel : Nat) (readSet writeSet : FdSet) (accepted : Int) :
    Wires (serverDataPart fuel readSet writeSet accepted) := by
  refine leads_look_bind fun t => .ite (fun _ => .ite (fun _ => ?_) fun _ => ?_) fun _ =>
    leads_pure _ fun _ _ h => h
  · refine leads_orCleanup (F := Lights.Wired) ?_ (leads_pure _ fun _ _ h => h) fun _ h => h
    exact Unnoticed.wires fun _ => watched_steady fun _ hh => iperfSend_steady hh fuel _
  · refine leads_orCleanup (F := Lights.Wired) ?_ (leads_pure _ fun _ _ h => h) fun _ h => h
    exact (unnoticed_iperfRecv fuel readSet).wires

theorem wires_serverHandle (fuel : Nat) (readSet writeSet : FdSet) (accepted : Int) :
    Wires (serverHandle fuel readSet writeSet accepted) := by
  refine .bind (wires_serverListenerPart fuel readSet) fun r => ?_
  cases r with
  | none => exact leads_pure _ fun _ _ h => h
  | some readSet =>
    refine .bind (wires_serverControlPart fuel readSet) fun r => ?_
    cases r with
    | none => exact leads_pure _ fun _ _ h => h
    | some readSet =>
      refine .bind (wires_serverStreamsPart fuel readSet accepted) fun r => ?_
      cases r with
      | none => exact leads_pure _ fun _ _ h => h
      | some r => exact wires_serverDataPart fuel _ _ _

theorem wires_serverStep (fuel : Nat) (accepted : Int) : Wires (serverStep fuel accepted) := by
  refine leads_look_bind fun t => .seq (watched_steady fun _ hh => gettimeofday_steady hh) fun now _ => ?_
  refine .seq (watched_steady fun _ hh => getTimeout_steady hh now) fun timeout _ => ?_
  refine .seq (watched_sys _) fun a _ => ?_
  have htimers : ∀ (p : Prop) [Decidable p] (accepted : Int), Wires
      (if p then do runTimers fuel; pure (some accepted) else pure (some accepted)) := fun p _ accepted =>
    .ite (fun _ => .seq (unnoticed_runTimers fuel _) fun _ _ => leads_pure _ fun _ _ h => h) fun _ =>
      leads_pure _ fun _ _ h => h
  cases a with
  | error e =>
    refine .seq (unnoticed_setErrno e _) fun _ _ => .ite (fun _ => ?_) fun _ => htimers _ _
    refine .seq (unnoticed_cleanupServer _) fun _ _ => .seq (unnoticed_setIErrno _ _) fun _ _ => ?_
    exact leads_pure _ fun _ _ h => h
  | ok v =>
    obtain ⟨n, readSet, writeSet⟩ := v
    refine .ite (fun _ => .bind (wires_serverHandle fuel readSet writeSet accepted) fun r => ?_)
      fun _ => htimers _ accepted
    cases r with
    | none => exact leads_pure _ fun _ _ h => h
    | some accepted => exact htimers _ accepted

theorem wires_serverLoop (fuel passes : Nat) (accepted : Int) :
    Wires (serverLoop fuel passes accepted) := by
  induction passes generalizing accepted with
  | zero => exact fun _ _ _ => trivial
  | succ passes ih =>
    refine leads_look_bind fun t => .ite (fun _ => leads_pure _ fun _ _ h => h) fun _ => ?_
    refine .bind (wires_serverStep fuel accepted) fun r => ?_
    cases r with
    | none => exact leads_pure _ fun _ _ h => h
    | some accepted => exact ih accepted

theorem wires_serverFinish : Wires serverFinish := by
  refine .seq (unnoticed_cleanupServer _) fun _ _ => leads_look_bind fun t => ?_
  have haffinity : ∀ r : Int, Wires (if r < 0 then pure (-1) else do
      let t ← getTest
      let r ← if t.serverAffinity ≠ -1 then iperfClearaffinity else pure 0
      if r ≠ 0 then pure (-1) else pure (0 : Int)) := by
    refine fun r => .ite (fun _ => leads_pure _ fun _ _ h => h) fun _ => leads_look_bind fun t => ?_
    have hend : ∀ r : Int, Wires (if r ≠ 0 then pure (-1) else pure (0 : Int)) := fun r =>
      .ite (fun _ => leads_pure _ fun _ _ h => h) fun _ => leads_pure _ fun _ _ h => h
    refine .ite (fun _ => ?_) fun _ => hend 0
    exact .seq (watched_steady fun _ hh => iperfClearaffinity_steady hh) fun r _ => hend r
  refine .ite (fun _ => ?_) fun _ => haffinity 0
  exact .seq (watched_steady fun _ hh => iperfJsonFinish_steady hh) fun r _ => haffinity r

theorem leads_openListener : Leads Lights.Empty openListener Lights.Empty := by
  have hannounce : Unnoticed announceListener := fun E =>
    (announceListener_keeps watched_plumbing).mono fun _ _ => trivial
  have hfail : Leads Lights.Empty (fail .IELISTEN) Lights.Empty := (unnoticed_fail _).leads fun _ _ h => h
  have hsome : ∀ s : Int, Leads Lights.Empty (if s < 0 then fail .IELISTEN else pure 0) Lights.Empty :=
    fun s => .ite (fun _ => hfail) fun _ => leads_pure _ fun _ _ h => h
  refine .seq (hannounce _) fun s _ => .ite (fun _ m g hm => ?_) fun _ => leads_pure _ fun _ _ h => h
  refine Prog.Triple.ite (I := Watched Lights.Empty) (fun _ => ?_) (fun _ => hfail) m g hm
  have hdomain : Leads Lights.Empty (modifyTest (onSettings fun s => { s with domain := .inet }))
      Lights.Empty :=
    watched_modifyTest fun t _ _ hE _ => ⟨fun _ => Lights.Empty.wired hE, hE, fun _ hlit _ => hlit⟩
  refine .seq (watched_sys _) fun _ _ => .bind hdomain fun _ => ?_
  exact .seq (hannounce _) fun s _ => hsome s

theorem leads_iperfServerListen : Leads Lights.Empty iperfServerListen Lights.Empty := by
  have hsets : Leads Lights.Empty (do
      modifyTest fun t => { t with
        readSet := {t.listener}
        writeSet := ∅
        maxFd := max t.maxFd t.listener }
      pure (0 : Int)) Lights.Empty := by
    have hset : Leads Lights.Empty (modifyTest fun t => { t with
        readSet := {t.listener}
        writeSet := ∅
        maxFd := max t.maxFd t.listener }) Lights.Empty :=
      watched_modifyTest fun t _ _ hE _ => ⟨fun _ => Lights.Empty.wired hE, hE, fun _ hlit _ => hlit⟩
    exact .bind hset fun _ => leads_pure _ fun _ _ h => h
  refine .bind leads_openListener fun r => .ite (fun _ => leads_pure _ fun _ _ h => h) fun _ => ?_
  refine leads_look_bind fun t => .ite (fun _ => ?_) fun _ => hsets
  exact .seq (watched_sys _) fun _ _ => .seq (watched_sys _) fun _ _ => .seq (watched_sys _) fun _ _ => hsets

theorem leads_serverMain (fuel : Nat) : Leads Lights.Empty (serverMain fuel) Lights.Wired := by
  refine .bind leads_iperfServerListen fun r => .ite (fun _ => leads_pure _ fun _ _ h => h.wired) fun _ => ?_
  refine .seq (watched_sys _) fun _ _ => .bind ((leads_setState _).mono fun _ _ h => h.wired) fun _ => ?_
  refine .bind ((wires_serverLoop fuel fuel 0).mono fun _ _ h => h.2) fun r => ?_
  cases r with
  | none => exact leads_pure _ fun _ _ h => h
  | some _ => exact wires_serverFinish

/-- A server that has no streams yet keeps the sockets of its streams in the write set. -/
theorem leads_iperfRunServer (fuel : Nat) : Leads Lights.Empty (iperfRunServer fuel) Lights.Wired :=
  .seq (watched_sys _) fun _ _ => leads_prolog (leads_serverMain fuel)

/-! ## The start -/

theorem update_streams (o : Opt) (p : ParseState) :
    (o.update p).test.state = p.test.state ∧ (o.update p).test.streams = p.test.streams := by
  have hset : (o.setTest p.test).state = p.test.state ∧ (o.setTest p.test).streams = p.test.streams := by
    cases o <;> exact ⟨rfl, rfl⟩
  exact hset

theorem parseOpts_streams {opts : List Opt} {p p' : ParseState} (h : parseOpts opts p = .ok p') :
    p'.test.state = p.test.state ∧ p'.test.streams = p.test.streams := by
  induction opts generalizing p with
  | nil => cases h; exact ⟨rfl, rfl⟩
  | cons o opts ih =>
    simp only [parseOpts] at h
    cases ho : parseOpt p o with
    | error e => rw [ho] at h; cases h
    | ok p₁ =>
      rw [ho] at h
      obtain ⟨hstate, hstreams⟩ := ih h
      rw [hstate, hstreams, (parseOpt_ok ho).2]
      exact update_streams o p

theorem finalTest_streams (p : ParseState) :
    p.finalTest.state = p.test.state ∧ p.finalTest.streams = p.test.streams := ⟨rfl, rfl⟩

/-- The observer starts to watch. -/
theorem watched_start {sigalrm : Bool} {opts : List Opt} {t : IperfTest}
    (h : iperfParseArguments (defaultTest sigalrm) opts = .ok t) :
    Watched Lights.Empty (Mem.start t) .waiting := by
  obtain ⟨p, hp, rfl, -⟩ := parseArguments_ok h
  obtain ⟨hstate, hstreams⟩ := parseOpts_streams hp
  have hzero : p.finalTest.state = 0 := hstate
  have hempty : p.finalTest.lights.Empty := congrArg (List.map _) hstreams
  refine fun _ => ⟨.inl ⟨.inl hzero, hempty⟩, iff_of_false nofun ?_, fun _ => hempty.wired, nofun, hempty⟩
  rintro ⟨hrun | hrun, -⟩
  · exact absurd (hzero.symm.trans hrun) (by decide)
  · exact absurd (hzero.symm.trans hrun) (by decide)

/-! ## After `iperf_create_send_timers` -/

/-- The rate is 0, there are `n` streams, and the lights of those with an index in `sps` are on. -/
def LitAt (n : Nat) (sps : List Nat) (m : Mem) : Prop :=
  m.test.settings.rate = 0 ∧ m.test.streams.length = n ∧
    ∀ sp ∈ sps, ∀ st, m.test.streams[sp]? = some st → st.greenLight = true

theorem createSendTimer_lit (n : Nat) (sps : List Nat) (sp : Nat) :
    Prog.Hoare (LitAt n sps) (createSendTimer sp) fun r m => r = none ∧ LitAt n (sp :: sps) m := by
  rintro m _ ⟨hrate, hlen, hlit⟩
  refine ⟨trivial, ?_⟩
  refine Prog.Triple.ite (I := fun m' _ => LitAt n (sp :: sps) m') (fun h => absurd hrate h)
    (fun _ => ?_) _ _ ?_
  · exact .ret fun _ _ h => ⟨rfl, h⟩
  · refine ⟨hrate, (List.length_modify ..).trans hlen, fun i hi st hst => ?_⟩
    rw [List.getElem?_modify] at hst
    obtain ⟨st', hst', rfl⟩ := Option.map_eq_some_iff.1 hst
    split
    · rfl
    · rename_i hne
      rcases List.mem_cons.1 hi with rfl | hi
      · exact absurd rfl hne
      · exact hlit i hi st' hst'

theorem forStreams_lit (n : Nat) (sps sps' : List Nat) :
    Prog.Hoare (LitAt n sps') (forStreams createSendTimer sps)
      fun r m => r = none ∧ LitAt n (sps.reverse ++ sps') m := by
  induction sps generalizing sps' with
  | nil => exact .pure fun _ h => ⟨rfl, h⟩
  | cons sp sps ih =>
    refine .bind (createSendTimer_lit n sps' sp) fun r => ?_
    cases r with
    | some a => exact fun _ _ h => nomatch h.1
    | none =>
      refine Prog.Hoare.conseq (ih (sp :: sps')) (fun _ h => h.2) fun r m h => ?_
      rw [List.reverse_cons, List.append_assoc]
      exact h

/-- Without a rate, `iperf_create_send_timers` switches all lights on. -/
theorem iperfCreateSendTimers_lit {m m' : Mem} (hrate : m.test.settings.rate = 0)
    (h : Prog.Returns iperfCreateSendTimers m 0 m') : m'.test.lights.AllLit := by
  have hgo : ∀ now : Timeval, Prog.Hoare (fun s => s = m) (do
      let sps ← allStreams
      let r ← forStreams createSendTimer sps
      pure (r.getD 0)) fun r m' => r = 0 → m'.test.lights.AllLit := by
    rintro now s g rfl
    refine (Prog.Hoare.bind (forStreams_lit _ (List.range _) []) fun r => .pure fun s' h _ => ?_) s g
      ⟨hrate, rfl, nofun⟩
    obtain ⟨-, -, hlen, hlit⟩ := h
    intro v hv
    obtain ⟨st, hst, rfl⟩ := List.mem_map.1 hv
    obtain ⟨i, hi⟩ := List.mem_iff_getElem?.1 hst
    have hlt : i < s'.test.streams.length := (List.getElem?_eq_some_iff.1 hi).1
    refine hlit i ?_ st hi
    simpa [hlen] using hlt
  have hrun : Prog.Hoare (fun s => s = m) iperfCreateSendTimers
      fun r m' => r = 0 → m'.test.lights.AllLit := by
    intro s g hs
    refine ⟨trivial, fun a _ => ?_⟩
    cases a with
    | error e => exact ⟨trivial, trivial, nofun⟩
    | ok now => exact hgo now s g hs
  exact hrun.returns rfl h rfl

/-! ## The run -/

/-- The light of every stream of a sender is on, and its socket is in the write set. -/
def Lights.Unlimited (v : Lights) : Prop :=
  v.sender = true → ∀ st ∈ v.streams, st.2 = true ∧ st.1 ∈ v.writeSet

instance (v : Lights) : Decidable v.Unlimited :=
  inferInstanceAs (Decidable (_ → ∀ _ ∈ _, _))

/-- **Rate 0 without a burst is unlimited.** Once all lights are on in the running test, as
`iperf_create_send_timers` leaves them, the light of every stream of a sender is on and its socket is in the
write set in every state up to the end of the test. -/
theorem unlimited_run {sigalrm : Bool} {opts : List Opt} {t : IperfTest}
    (h : iperfParseArguments (defaultTest sigalrm) opts = .ok t) {fuel : Nat} {main : IperfProg Int}
    (hmain : main = iperfRunClient fuel ∨ main = iperfRunServer fuel) {p : IperfProg Int} {m : Mem}
    {g : Watch}
    (hr : Prog.Reach (watchLights Unthrottled) (main, Mem.start t, .waiting) (p, m, g)) :
    (∀ m', m.test.settings.rate = 0 → Prog.Returns iperfCreateSendTimers m 0 m' → m'.test.lights.AllLit) ∧
    (g ≠ .ended → m.test.lights.Running → m.test.lights.AllLit → g = .sending) ∧
    (g = .sending → m.test.lights.Unlimited) := by
  have hstart := watched_start h
  have hsafe : main.Safe (watchLights Unthrottled) (fun _ => Watched Lights.Wired) (Mem.start t)
      .waiting := by
    rcases hmain with rfl | rfl
    · exact leads_iperfRunClient fuel _ _ hstart
    · exact leads_iperfRunServer fuel _ _ hstart
  have hbegin : (watchLights Unthrottled).inv (Mem.start t) .waiting := fun hg =>
    ⟨(hstart hg).noted, (hstart hg).wired⟩
  have hinv : (watchLights Unthrottled).inv m g :=
    hsafe.inv_reach hbegin (fun _ _ _ _ _ _ hi => hi) hr
  refine ⟨fun m' hrate hret => iperfCreateSendTimers_lit hrate hret, fun hg hrun hlit => ?_, ?_⟩
  · exact (hinv hg).1.2 ⟨hrun, hlit⟩
  · rintro rfl hsender st hst
    obtain ⟨hnoted, hwired⟩ := hinv nofun
    obtain ⟨hrun, hlit⟩ := hnoted.1 rfl
    exact ⟨hlit st hst, hwired hrun hsender st hst⟩

/-! ## Clients with rate 0 -/

/-- The answers to a client with one stream: the control connection has the descriptor 3 and the stream has
7, and the server goes through the states from the exchange of the parameters to the running test. -/
def patientServer (i : Nat) : (r : Req) → r.Ans
  | .socket _ _ => .ok (if i < 10 then 3 else 7)
  | .gettimeofday => .ok ⟨i, 0⟩
  | .mallocTimer => some i
  | .select _ _ _ _ => .ok (1, {3}, {7})
  | .read _ _ => .ok [if i < 10 then 9 else if i < 20 then 10 else if i < 40 then 1 else 2]
  | r => r.quiet

/-- `iperf3 -c h -b 0 -l 1 -i 0`, or the same with `-b 0/burst` -/
def rateZero (burst : Option Int) : List Opt := [.client "h", .bandwidth 0 burst, .length 1, .interval 0]

/-- The test of such a client. -/
def rateZeroTest (burst : Option Int) : IperfTest :=
  match iperfParseArguments (defaultTest true) (rateZero burst) with
  | .ok t => t
  | .error _ => mainTest

theorem rateZero_parsed {burst : Option Int}
    (h : (iperfParseArguments (defaultTest true) (rateZero burst)).toOption.isSome) :
    iperfParseArguments (defaultTest true) (rateZero burst) = .ok (rateZeroTest burst) := by
  unfold rateZeroTest
  cases hp : iperfParseArguments (defaultTest true) (rateZero burst) with
  | ok t => rfl
  | error e =>
    rw [hp] at h
    cases h

/-- A run of such a client. -/
def rateZeroRun (L : IperfSettings → Prop) [DecidablePred L] (burst : Option Int) (steps : Nat) :
    IperfProg Int × Mem × Watch :=
  Prog.drive (watchLights L) patientServer steps 0
    (iperfRunClient 9, Mem.start (rateZeroTest burst), .waiting)

theorem rateZeroRun_reach (L : IperfSettings → Prop) [DecidablePred L] (burst : Option Int) (steps : Nat) :
    Prog.Reach (watchLights L) (iperfRunClient 9, Mem.start (rateZeroTest burst), .waiting)
      (rateZeroRun L burst steps) := Prog.drive_reach _ _ _ _ _

/-- `iperf3 -c h -b 0 -l 1 -i 0` -/
theorem unlimited_run_client :
    ∃ p m, Prog.Reach (watchLights Unthrottled) (iperfRunClient 9, Mem.start (rateZeroTest none), .waiting)
        (p, m, .sending) ∧
      m.test.streams.map (·.socket) = [7] ∧ m.test.lights.Unlimited := by
  have hparse := @rateZero_parsed none (by decide +kernel)
  have hreach := rateZeroRun_reach Unthrottled none 150
  have hnoted : (rateZeroRun Unthrottled none 150).2.2 = .sending := by decide +kernel
  have hsockets : (rateZeroRun Unthrottled none 150).2.1.test.streams.map (·.socket) = [7] := by
    decide +kernel
  generalize rateZeroRun Unthrottled none 150 = c at hreach hnoted hsockets
  obtain ⟨p, m, g⟩ := c
  subst hnoted
  exact ⟨p, m, hreach, hsockets, (unlimited_run hparse (.inl rfl) hreach).2.2 rfl⟩

/-- `iperf3 -c h -b 0/1 -l 1 -i 0`: the light goes out after the first byte. -/
theorem unlimited_burst_refuted :
    ¬ ∀ (sigalrm : Bool) (opts : List Opt) (t : IperfTest) (fuel : Nat) (p : IperfProg Int) (m : Mem)
        (g : Watch),
      iperfParseArguments (defaultTest sigalrm) opts = .ok t → t.settings.rate = 0 →
      Prog.Reach (watchLights fun s => s.rate = 0) (iperfRunClient fuel, Mem.start t, .waiting) (p, m, g) →
      g = .sending → m.test.lights.Unlimited := by
  intro h
  have hparse := @rateZero_parsed (some 1) (by decide +kernel)
  have hzero : (rateZeroTest (some 1)).settings.rate = 0 := by decide +kernel
  have hreach := rateZeroRun_reach (fun s => s.rate = 0) (some 1) 130
  have hnoted : (rateZeroRun (fun s => s.rate = 0) (some 1) 130).2.2 = .sending := by decide +kernel
  have hdark : ¬ (rateZeroRun (fun s => s.rate = 0) (some 1) 130).2.1.test.lights.Unlimited := by
    decide +kernel
  generalize rateZeroRun (fun s => s.rate = 0) (some 1) 130 = c at hreach hnoted hdark
  obtain ⟨p, m, g⟩ := c
  exact hdark (h true _ _ 9 p m g hparse hzero hreach hnoted)

end Iperf
