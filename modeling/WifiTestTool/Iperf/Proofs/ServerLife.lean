import WifiTestTool.Iperf.Proofs.ParamsExchange
import WifiTestTool.Iperf.Proofs.Plumbing

/-!
# The life of a server

`main` runs one test after the other on the same structure, and calls `iperf_reset_test` in between.
An observer of the server counts the tests that were started, notes the parameter documents that were
received, and notes whether the server has fallen back to IPv4. What the operator asked for on the
command line and what the next client finds depends on these notes only: `iperf_reset_test` loses the
address to bind to, and it does not restore four of the parameters, which stay what the last document
that had them made of them.
-/

namespace Iperf

open Reactive

/-! ## What the operator asks for -/

/-- The options of the operator of a server. -/
@[ext]
structure Options where
  serverPort : Int
  bindAddress : Option String
  domain : Domain
  affinity : Int
  unitFormat : Char
  statsInterval : ℚ
  reporterInterval : ℚ
  verbose : Bool
  jsonOutput : Bool
  diskfileName : Option String
  pidfile : Option String
deriving DecidableEq

/-- The options of a test. -/
def IperfTest.options (t : IperfTest) : Options where
  serverPort := t.serverPort
  bindAddress := t.bindAddress
  domain := t.settings.domain
  affinity := t.affinity
  unitFormat := t.settings.unitFormat
  statsInterval := t.statsInterval
  reporterInterval := t.reporterInterval
  verbose := t.verbose
  jsonOutput := t.jsonOutput
  diskfileName := t.diskfileName
  pidfile := t.pidfile

/-! ## What a reset forgets -/

/-- The parameters that `iperf_reset_test` does not restore. -/
def Params.carried (p : Params) : UInt64 × Int × Int × Int := (p.bytes, p.blocks, p.tos, p.flowlabel)

/-- Parameters with other values for those that are not restored. -/
def Params.carrying (p : Params) (v : UInt64 × Int × Int × Int) : Params :=
  { p with bytes := v.1, blocks := v.2.1, tos := v.2.2.1, flowlabel := v.2.2.2 }

/-- The last value that one of the documents gives to a `uint64_t`, or else 0. -/
def lastSize (docs : List Json) (name : String) : UInt64 :=
  docs.foldl (fun d j => lookupSize j name d) 0

/-- The last value that one of the documents gives to an `int`, or else 0. -/
def lastInt (docs : List Json) (name : String) : Int :=
  docs.foldl (fun d j => lookupInt j name d) 0

/-- What the documents have left behind. -/
def leftBehind (docs : List Json) : UInt64 × Int × Int × Int :=
  (lastSize docs "num", lastInt docs "blockcount", lastInt docs "TOS", lastInt docs "flowlabel")

theorem carried_take (j : Json) (p : Params) {docs : List Json} (hp : p.carried = leftBehind docs) :
    (p.take j).carried = leftBehind (docs ++ [j]) := by
  simp only [Params.carried, leftBehind, Prod.mk.injEq] at hp
  obtain ⟨h₁, h₂, h₃, h₄⟩ := hp
  simp only [Params.carried, Params.take, leftBehind, lastSize, lastInt, List.foldl_append,
    List.foldl_cons, List.foldl_nil, h₁, h₂, h₃, h₄]

/-- `iperf_reset_test` restores all parameters but four. -/
theorem resetFields_params (t : IperfTest) :
    (resetFields t).params = freshServer.params.carrying t.params.carried := rfl

/-- `iperf_reset_test` restores all options but the address to bind to. -/
theorem resetFields_options (t : IperfTest) :
    (resetFields t).options = { t.options with bindAddress := none } := rfl

/-- `get_parameters` does not touch the options. -/
theorem takeParameters_options {j : Json} {t t' : IperfTest} (h : takeParameters j t = some t') :
    t'.options = t.options := by
  have hread : (readItems j parameterReaders t).options = t.options :=
    apply_readItems IperfTest.options j (by simp [parameterReaders, onSettings, setProtocol,
      iperfSetTestReverse, checkSenderHasRetransmits, IperfTest.options]) t
  unfold takeParameters at h
  obtain ⟨t₁, h₁, h⟩ := Option.bind_eq_some_iff.1 h
  obtain ⟨t₂, h₂, h⟩ := Option.bind_eq_some_iff.1 h
  have e₁ : t₁.options = t.options := by
    rcases onString_some h₁ with rfl | ⟨s, rfl⟩
    · exact hread
    · exact hread
  have e₂ : t₂.options = t₁.options := by
    rcases onString_some h₂ with rfl | ⟨s, rfl⟩ <;> rfl
  have e₃ : t'.options = t₂.options := by
    rw [← Option.some.inj h]
    split <;> rfl
  exact e₃.trans (e₂.trans e₁)

/-- What `get_parameters` leaves behind. -/
theorem takeParameters_carried {j : Json} {t t' : IperfTest} (h : takeParameters j t = some t')
    {docs : List Json} (ht : t.params.carried = leftBehind docs) :
    t'.params.carried = leftBehind (docs ++ [j]) := by
  by_cases hj : StringsOk j
  · obtain ⟨t₁, h₁, hp⟩ := takeParameters_spec hj t
    rw [h] at h₁
    cases h₁
    rw [hp]
    exact carried_take j t.params ht
  · rw [takeParameters_none hj] at h
    cases h

/-! ## The command line of a server -/

/-- The options so far are none that only a client may have, and have changed no parameter; or else the
command line is not one of a server. -/
def ServerSoFar (p : ParseState) : Prop :=
  p.clientFlag = true ∨ p.test.role = .client ∨
    (p.test.params = mainTest.params ∧ p.blksize = 0 ∧ p.rateFlag = false ∧ p.durationFlag = false)

/-- An option that touches neither the role nor the parameters. -/
theorem ServerSoFar.congr {p p' : ParseState} (h : ServerSoFar p) (hc : p'.clientFlag = p.clientFlag)
    (hr : p'.test.role = p.test.role) (hp : p'.test.params = p.test.params)
    (hf : (p'.blksize, p'.rateFlag, p'.durationFlag) = (p.blksize, p.rateFlag, p.durationFlag)) :
    ServerSoFar p' := by
  simp only [Prod.mk.injEq] at hf
  unfold ServerSoFar at h ⊢
  rw [hc, hr, hp, hf.1, hf.2.1, hf.2.2]
  exact h

theorem parseOpt_serverSoFar {p p' : ParseState} {o : Opt} (h : parseOpt p o = .ok p')
    (hp : ServerSoFar p) : ServerSoFar p' := by
  cases o with
  | udp | sctp | bytes | blockcount | length | reverse | noDelay | tos | zerocopy | title
  | linuxCongestion => cases h; exact .inl rfl
  | time | parallel | window | setMss | flowlabel | omitTime => rw [orFail_ok h]; exact .inl rfl
  | bandwidth rate burst =>
    cases burst with
    | none => cases h; exact .inl rfl
    | some n => rw [orFail_ok h]; exact .inl rfl
  | affinity n server =>
    cases server with
    | none => rw [orFail_ok h]; exact hp.congr rfl rfl rfl rfl
    | some m => rw [orFail_ok h]; exact .inl rfl
  | server =>
    have hrole : p.test.role ≠ .client := by
      intro hc
      simp [parseOpt, orFail, hc] at h
    rw [orFail_ok h]
    rcases hp with hp | hp | ⟨hp, hb⟩
    · exact .inl hp
    · exact absurd hp hrole
    · refine .inr (.inr ⟨?_, hb⟩)
      have hrev : p.test.reverse = 0 := congrArg Params.reverse hp
      have hsender : p.test.sender = false := congrArg Params.sender hp
      have hset : (iperfSetTestRole .server p.test).params = p.test.params := by
        ext1 <;> first | rfl | skip
        show (if p.test.reverse ≠ 0 then !false else false) = p.test.sender
        rw [hrev, hsender]
        rfl
      exact hset.trans hp
  | client host => rw [orFail_ok h]; exact .inr (.inl rfl)
  | version => cases h
  | help => cases h
  | port | format | daemon | verbose | json | bind | version4 | version6 | file | pidfile | debug =>
    cases h; exact hp.congr rfl rfl rfl rfl
  | interval => rw [orFail_ok h]; exact hp.congr rfl rfl rfl rfl

theorem parseOpts_serverSoFar {opts : List Opt} {p p' : ParseState} (h : parseOpts opts p = .ok p')
    (hp : ServerSoFar p) : ServerSoFar p' := by
  induction opts generalizing p with
  | nil => cases h; exact hp
  | cons o opts ih =>
    simp only [parseOpts] at h
    cases ho : parseOpt p o with
    | error e => rw [ho] at h; cases h
    | ok p₁ =>
      rw [ho] at h
      exact ih h (parseOpt_serverSoFar ho hp)

/-- The command line of a server sets no parameter. -/
theorem parseArguments_server {opts : List Opt} {c : IperfTest}
    (h : iperfParseArguments mainTest opts = .ok c) (hr : c.role = .server) :
    c.params = freshServer.params := by
  obtain ⟨p, hparse, rfl, -, hflag⟩ := parseArguments_ok h
  have hrole : p.test.role = .server := hr
  rcases parseOpts_serverSoFar hparse (.inr (.inr ⟨rfl, rfl, rfl, rfl⟩)) with hc | hc | hp
  · exact absurd ⟨hrole, hc⟩ hflag
  · rw [hrole] at hc
    cases hc
  · obtain ⟨hp, hb, hrate, -⟩ := hp
    have hbytes : p.test.settings.bytes = 0 := congrArg Params.bytes hp
    have hblocks : p.test.settings.blocks = 0 := congrArg Params.blocks hp
    have hprot : p.test.protocol = .tcp := congrArg Params.protocol hp
    have hfinal : p.finalTest.params =
        { p.test.params with blksize := DEFAULT_TCP_BLKSIZE, rate := 0 } := by
      unfold ParseState.finalTest ParseState.finalBlksize IperfTest.params
      simp [hb, hrate, hbytes, hblocks, hprot, defaultBlksize]
    rw [hfinal, hp]
    rfl

/-! ## The observer -/

/-- The notes of an observer of a server. -/
structure Log where
  /-- The calls of `iperf_run_server` so far. -/
  starts : Nat
  /-- The server has fallen back to IPv4. -/
  fellBack : Bool
  /-- The parameter documents that were received. -/
  docs : List Json

/-- What the server says when it falls back to IPv4. -/
def fallbackMessage : String := "this system does not seem to support IPv6 - trying IPv4"

/-- The server's promise at the start of a test: its parameters are those of a fresh server up to what
is left behind, and its options those of the operator `c`, up to the address to bind to in every test
but the first. -/
structure AtStart (c : IperfTest) (m : Mem) (g : Log) : Prop where
  options : m.test.options = { c.options with
    bindAddress := if g.starts = 0 then c.bindAddress else none
    domain := m.test.settings.domain }
  domain : g.fellBack = false → m.test.settings.domain = c.settings.domain
  params : m.test.params = freshServer.params.carrying (leftBehind g.docs)

/-- The contract of a server that was set up as `c`, in an environment that may do anything. -/
def lifeContract (c : IperfTest) : Contract Mem Req.Ans Halt Log where
  onCall m g r a := match r, a with
    | .catchSigend, _ => { g with starts := g.starts + 1 }
    | .output (.err message), _ => { g with fellBack := g.fellBack || message == fallbackMessage }
    | .cJSON_Parse _, some j =>
      if m.test.state = TestState.PARAM_EXCHANGE then { g with docs := g.docs ++ [j] } else g
    | _, _ => g
  onWrite _ g := g
  allows _ _ _ _ := True
  ok m g r := match r with
    | .catchSigend => AtStart c m g
    | _ => True
  inv _ _ := True
  mayHalt _ _ _ := True

/-- What holds while a test runs; `b` is the address to bind to, and the state of the test is in `S`. -/
structure Life (c : IperfTest) (b : Option String) (S : TestState → Prop) (m : Mem) (g : Log) :
    Prop where
  started : 0 < g.starts
  options : m.test.options = { c.options with bindAddress := b, domain := m.test.settings.domain }
  domain : g.fellBack = false → m.test.settings.domain = c.settings.domain
  carried : m.test.params.carried = leftBehind g.docs
  state : S m.test.state

section Walk

variable {c : IperfTest} {b : Option String} {S : TestState → Prop}

/-- A test with the same options and parameters. -/
theorem Life.congr {S' : TestState → Prop} {m m' : Mem} {g : Log} (h : Life c b S m g)
    (ho : m'.test.options = m.test.options)
    (hp : m'.test.params.carried = m.test.params.carried) (hs : S' m'.test.state) :
    Life c b S' m' g := by
  have hd : m'.test.settings.domain = m.test.settings.domain := congrArg Options.domain ho
  exact ⟨h.started, by rw [ho, hd]; exact h.options, fun hf => hd.trans (h.domain hf),
    hp.trans h.carried, hs⟩

theorem Life.any {m : Mem} {g : Log} (h : Life c b S m g) : Life c b (fun _ => True) m g :=
  h.congr rfl rfl trivial

/-- Notes with the same tests and documents. -/
theorem Life.notes {m : Mem} {g g' : Log} (h : Life c b S m g) (hs : g'.starts = g.starts)
    (hf : g'.fellBack = false → g.fellBack = false) (hd : g'.docs = g.docs) : Life c b S m g' :=
  ⟨hs ▸ h.started, h.options, fun hf' => h.domain (hf hf'), hd ▸ h.carried, h.state⟩

/-- What no document comes with leaves the notes alone, up to the fallback. -/
theorem onCall_notes {m : Mem} {g : Log} {r : Req} (a : r.Ans) (h₁ : r ≠ .catchSigend)
    (h₂ : ∀ text, r ≠ .cJSON_Parse text) :
    ((lifeContract c).onCall m g r a).starts = g.starts ∧
    (((lifeContract c).onCall m g r a).fellBack = false → g.fellBack = false) ∧
    ((lifeContract c).onCall m g r a).docs = g.docs := by
  unfold lifeContract
  dsimp only
  split
  · exact absurd rfl h₁
  · exact ⟨rfl, fun h => (Bool.or_eq_false_iff.1 h).1, rfl⟩
  · exact absurd rfl (h₂ _)
  · exact ⟨rfl, id, rfl⟩

theorem ok_of_ne {m : Mem} {g : Log} {r : Req} (h₁ : r ≠ .catchSigend) : (lifeContract c).ok m g r := by
  unfold lifeContract
  dsimp only
  split
  · exact absurd rfl h₁
  · trivial

/-- A request that starts no test and brings no document. -/
theorem life_sys {r : Req} (h₁ : r ≠ .catchSigend) (h₂ : ∀ text, r ≠ .cJSON_Parse text) :
    Prog.Keeps (lifeContract c) (Life c b S) (fun _ => True) (sys r) := .ask fun _ _ hm =>
  ⟨ok_of_ne h₁, fun a _ => ⟨trivial, hm.notes (onCall_notes a h₁ h₂).1 (onCall_notes a h₁ h₂).2.1
    (onCall_notes a h₁ h₂).2.2⟩⟩

/-- A change of the memory that keeps the options, the parameters and the state. -/
theorem life_modify {f : Mem → Mem} (ho : ∀ m, (f m).test.options = m.test.options)
    (hp : ∀ m, (f m).test.params.carried = m.test.params.carried)
    (hs : ∀ m, S m.test.state → S (f m).test.state) :
    Prog.Keeps (lifeContract c) (Life c b S) (fun _ => True) (Prog.modify f) :=
  .modify fun m _ hm => ⟨trivial, hm.congr (ho m) (hp m) (hs m hm.state)⟩

theorem life_setErrno (e : Errno) :
    Prog.Keeps (lifeContract c) (Life c b S) (fun _ => True) (setErrno e) :=
  life_modify (fun _ => rfl) (fun _ => rfl) fun _ h => h

theorem life_fail (e : IErr) : Prog.Keeps (lifeContract c) (Life c b S) (fun _ => True) (fail e) :=
  .bind (life_modify (fun _ => rfl) (fun _ => rfl) fun _ h => h) fun _ _ => .pure trivial

theorem life_measures {α : Type} {p : IperfProg α} (hp : Measures p) :
    Prog.Keeps (lifeContract c) (Life c b S) (fun _ => True) p := by
  intro m g hm
  have hstays := hp _ _ _ (harmless_at m.test.core)
  refine (Prog.Stays.safe (J := fun g' => g'.starts = g.starts ∧
    (g'.fellBack = false → g.fellBack = false) ∧ g'.docs = g.docs) hstays rfl ⟨rfl, id, rfl⟩
    ?_ (fun _ _ _ hg => ⟨trivial, hg⟩) fun _ _ _ _ _ _ => trivial).mono ?_
  · intro m' g' r _ hg hr
    have h₁ : r ≠ .catchSigend := by rintro rfl; exact hr
    have h₂ : ∀ text, r ≠ .cJSON_Parse text := by rintro text rfl; exact hr
    refine ⟨ok_of_ne h₁, fun a _ => ?_⟩
    obtain ⟨e₁, e₂, e₃⟩ := onCall_notes (c := c) (m := m') (g := g') a h₁ h₂
    exact ⟨e₁.trans hg.1, fun h => hg.2.1 (e₂ h), e₃.trans hg.2.2⟩
  · intro _ m' g' ⟨hcore, hs, hf, hd⟩
    have hstate : m'.test.state = m.test.state := congrArg (fun c => c.1.state) hcore
    refine ⟨trivial, (hm.congr ?_ ?_ (hstate ▸ hm.state)).notes hs hf hd⟩
    · exact congrArg (fun c => IperfTest.options c.1) hcore
    · exact congrArg (fun c => c.1.params.carried) hcore

theorem life_plumbing : Plumbing (lifeContract c) (Life c b S) fun _ => True where
  req := by
    intro m g r hm hr
    have h₁ : r ≠ .catchSigend := by rintro rfl; exact hr
    have h₂ : ∀ text, r ≠ .cJSON_Parse text := by rintro text rfl; exact hr
    refine ⟨ok_of_ne h₁, fun a _ => ?_⟩
    obtain ⟨e₁, e₂, e₃⟩ := onCall_notes (c := c) (m := m) (g := g) a h₁ h₂
    exact hm.notes e₁ e₂ e₃
  fresh := fun _ _ _ _ _ _ _ _ => trivial
  neg := fun _ _ => trivial
  listener := fun _ _ _ => trivial
  protListener := fun _ _ _ => trivial
  change := by
    intro m m' g hm hc
    have ho : m'.test.unplumbed.options = m.test.unplumbed.options := by rw [hc.test]
    have hp : m'.test.unplumbed.params = m.test.unplumbed.params := by rw [hc.test]
    have hs : m'.test.unplumbed.state = m.test.unplumbed.state := by rw [hc.test]
    have hstate : m'.test.state = m.test.state := hs
    exact ⟨trivial, hm.congr ho (congrArg Params.carried hp) (hstate ▸ hm.state)⟩
  halt := fun _ _ _ _ _ => trivial

/-! ## The control connection -/

theorem life_nread (fuel : Nat) (fd : Int) (count : Nat) :
    Prog.Keeps (lifeContract c) (Life c b S) (fun _ => True) (nread fuel fd count) :=
  nread_keeps (fun _ => life_sys nofun nofun) life_setErrno (fun _ _ _ => trivial) fuel count

theorem life_nwrite (fuel : Nat) (fd : Int) (buf : List UInt8) :
    Prog.Keeps (lifeContract c) (Life c b S) (fun _ => True) (nwrite fuel fd buf) :=
  nwrite_keeps (fun _ => life_sys nofun nofun) life_setErrno (fun _ _ _ => trivial) fuel buf

theorem life_modifyTest {f : IperfTest → IperfTest} (ho : ∀ t, (f t).options = t.options)
    (hp : ∀ t, (f t).params.carried = t.params.carried) (hs : ∀ t, S t.state → S (f t).state) :
    Prog.Keeps (lifeContract c) (Life c b S) (fun _ => True) (modifyTest f) :=
  life_modify (fun m => ho m.test) (fun m => hp m.test) fun m => hs m.test

theorem life_iperfSetSendState (fuel : Nat) (state : TestState) :
    Prog.Triple (lifeContract c) (Life c b S) (iperfSetSendState fuel state)
      fun _ => Life c b (· = state) := by
  have hset : Prog.Triple (lifeContract c) (Life c b S)
      (modifyTest fun t => { t with state := state }) fun _ => Life c b (· = state) :=
    fun m g hm => ⟨trivial, hm.congr rfl rfl rfl⟩
  refine .bind hset fun _ => triple_getTest_bind fun m g _ => .seq (life_nwrite _ _ _) fun _ _ => ?_
  refine .ite (fun _ => ?_) fun _ => .ret fun _ _ h => h
  exact fun m g hm => (life_fail _ m g hm).mono fun _ _ _ h => h.2

/-- The same where the state does not matter. -/
theorem life_sendState (fuel : Nat) (state : TestState) :
    Prog.Keeps (lifeContract c) (Life c b fun _ => True) (fun _ => True)
      (iperfSetSendState fuel state) :=
  fun m g hm => (life_iperfSetSendState fuel state m g hm).mono fun _ _ _ h => ⟨trivial, h.any⟩

theorem life_jsonWrite (fuel : Nat) (fd : Int) (json : Json) :
    Prog.Keeps (lifeContract c) (Life c b S) (fun _ => True) (jsonWrite fuel fd json) := by
  refine .bind (life_sys nofun nofun) fun str _ => ?_
  cases str with
  | none => exact .pure trivial
  | some str =>
    refine .bind (life_nwrite _ _ _) fun _ _ => .ite (fun _ => .pure trivial) fun _ => ?_
    exact .bind (life_nwrite _ _ _) fun _ _ => .pure trivial

/-- The memory and the notes after a document was read into the memory of a test `t`: the document is
noted if it was read as parameters. -/
def Noted (c : IperfTest) (b : Option String) (S : TestState → Prop) (t : IperfTest)
    (j : Option Json) (m : Mem) (g : Log) : Prop :=
  m.test = t ∧ ∃ g₀, Life c b S m g₀ ∧ (j = none → g = g₀) ∧
    ∀ doc, j = some doc → g =
      if t.state = TestState.PARAM_EXCHANGE then { g₀ with docs := g₀.docs ++ [doc] } else g₀

theorem life_jsonRead (fuel : Nat) (fd : Int) (t : IperfTest) :
    Prog.Triple (lifeContract c) (fun m g => m.test = t ∧ Life c b S m g) (jsonRead fuel fd)
      (Noted c b S t) := by
  have hsys : ∀ r : Req, r ≠ .catchSigend → (∀ text, r ≠ .cJSON_Parse text) →
      Prog.Keeps (lifeContract c) (fun m g => m.test = t ∧ Life c b S m g) (fun _ => True) (sys r) := by
    refine fun r h₁ h₂ => .ask fun m g hm => ⟨ok_of_ne h₁, fun a _ => ⟨trivial, hm.1, ?_⟩⟩
    exact (life_sys h₁ h₂ m g hm.2).2 a trivial |>.2
  have hread : ∀ count, Prog.Keeps (lifeContract c) (fun m g => m.test = t ∧ Life c b S m g)
      (fun _ => True) (nread fuel fd count) := by
    refine nread_keeps (fun n => hsys _ nofun nofun) (fun e => ?_) (fun _ _ _ => trivial) fuel
    exact .modify fun m g hm => ⟨trivial, hm.1, hm.2.congr rfl rfl hm.2.state⟩
  have hnone : ∀ m g, m.test = t ∧ Life c b S m g → Noted c b S t none m g :=
    fun m g hm => ⟨hm.1, g, hm.2, fun _ => rfl, nofun⟩
  refine .seq (hsys _ nofun nofun) fun nsize _ => .seq (hread 4) fun got _ => ?_
  cases got with
  | none => exact .ret hnone
  | some got =>
    refine .seq (hsys _ nofun nofun) fun str _ => ?_
    cases str with
    | none => exact .ret hnone
    | some str =>
      refine .seq (hread _) fun got _ => ?_
      cases got with
      | none => exact .ret hnone
      | some got =>
        intro m g hm
        refine ⟨trivial, fun j _ => ⟨hm.1, g, hm.2, ?_, ?_⟩⟩
        · rintro rfl; rfl
        · rintro doc rfl; rw [← hm.1]; rfl

theorem life_getParameters (fuel : Nat) :
    Prog.Triple (lifeContract c) (Life c b (· = TestState.PARAM_EXCHANGE)) (getParameters fuel)
      fun _ => Life c b fun _ => True := by
  intro m g hm
  refine safe_getTest_bind.2 ((life_jsonRead fuel _ m.test m g ⟨rfl, hm⟩).bind ?_)
  rintro (_ | j) m' g' ⟨ht, g₀, hl, hnone, hsome⟩
  · rw [hnone rfl]
    exact (life_fail _ m' _ hl.any).mono fun _ _ _ h => h.2
  · rw [hsome j rfl, if_pos hm.state]
    dsimp only
    cases htake : takeParameters j m.test with
    | none => trivial
    | some t' =>
      have hc := ht ▸ hl.carried
      have ho := takeParameters_options htake
      have hd : t'.settings.domain = m.test.settings.domain := congrArg Options.domain ho
      refine ⟨trivial, hl.started, ?_, fun hf => hd.trans (ht ▸ hl.domain hf),
        takeParameters_carried htake hc, trivial⟩
      show t'.options = { c.options with bindAddress := b, domain := t'.settings.domain }
      rw [ho, hd, ← ht]
      exact hl.options

theorem life_sendServerError (fuel : Nat) :
    Prog.Keeps (lifeContract c) (Life c b fun _ => True) (fun _ => True) (sendServerError fuel) := by
  refine .bind (life_sendState _ _) fun _ _ => .ite (fun _ => .pure trivial) fun _ => ?_
  refine .get_bind fun _ _ _ => .bind (life_nwrite _ _ _) fun _ _ => ?_
  refine .ite (fun _ => life_fail _) fun _ => .get_bind fun _ _ _ => ?_
  exact .bind (life_nwrite _ _ _) fun _ _ => .ite (fun _ => life_fail _) fun _ => .pure trivial

theorem life_listenForStreams (fuel : Nat) :
    Prog.Keeps (lifeContract c) (Life c b fun _ => True) (fun _ => True) (listenForStreams fuel) := by
  refine keeps_getTest_bind fun _ _ _ => .bind (protocolListen_keeps life_plumbing _) fun s _ => ?_
  refine .ite (fun _ => life_sendServerError _) fun _ => ?_
  refine .bind (life_modifyTest (fun _ => rfl) (fun _ => rfl) fun _ h => h) fun _ _ => ?_
  refine .bind (life_sendState _ _) fun _ _ => ?_
  exact .ite (fun _ => .pure trivial) fun _ => .pure trivial

theorem life_sendParameters (fuel : Nat) :
    Prog.Keeps (lifeContract c) (Life c b S) (fun _ => True) (sendParameters fuel) := by
  refine .bind (life_sys nofun nofun) fun _ _ => .ite (fun _ => life_fail _) fun _ => ?_
  refine keeps_getTest_bind fun _ _ _ => .bind (life_jsonWrite _ _ _) fun _ _ => ?_
  exact .ite (fun _ => life_fail _) fun _ => .pure trivial

theorem life_iperfExchangeParameters (fuel : Nat) :
    Prog.Triple (lifeContract c) (Life c b (· = TestState.PARAM_EXCHANGE))
      (iperfExchangeParameters fuel) fun _ => Life c b fun _ => True := by
  refine triple_getTest_bind fun _ _ _ => .ite (fun _ => ?_) fun _ => ?_
  · refine .seq (life_sendParameters fuel) fun _ _ => .ite (fun _ => ?_) fun _ => ?_
    all_goals exact .ret fun _ _ h => h.any
  · refine .bind (life_getParameters fuel) fun _ => .ite (fun _ => .ret fun _ _ h => h) fun _ => ?_
    exact fun m g hm => (life_listenForStreams fuel m g hm).mono fun _ _ _ h => h.2

theorem life_getResults (fuel : Nat) :
    Prog.Keeps (lifeContract c) (Life c b (· = TestState.EXCHANGE_RESULTS)) (fun _ => True)
      (getResults fuel) := by
  intro m g hm
  refine safe_getTest_bind.2 ((life_jsonRead fuel _ m.test m g ⟨rfl, hm⟩).bind ?_)
  rintro (_ | j) m' g' ⟨ht, g₀, hl, hnone, hsome⟩
  · rw [hnone rfl]
    exact life_fail _ m' _ hl
  · have hpe : ¬ m.test.state = TestState.PARAM_EXCHANGE := by rw [hm.state]; decide
    rw [hsome j rfl, if_neg hpe]
    have hcore := takeResults_core j m.test
    have ho : (takeResults j m.test).1.options = m'.test.options :=
      (congrArg (fun c => IperfTest.options c.1) hcore).trans (by rw [ht]; rfl)
    have hp : (takeResults j m.test).1.params.carried = m'.test.params.carried :=
      (congrArg (fun c => c.1.params.carried) hcore).trans (by rw [ht]; rfl)
    have hs : (takeResults j m.test).1.state = TestState.EXCHANGE_RESULTS :=
      (congrArg (fun c => c.1.state) hcore).trans hm.state
    refine ⟨trivial, ?_⟩
    dsimp only
    have hl' : Life c b (· = TestState.EXCHANGE_RESULTS)
      { m' with test := (takeResults j m.test).1 } g₀ := hl.congr ho hp hs
    split
    · exact ⟨trivial, hl'⟩
    · exact life_fail _ _ _ hl'

theorem life_allocResults (sps : List Nat) (r : Int) :
    Prog.Keeps (lifeContract c) (Life c b S) (fun _ => True) (allocResults sps r) := by
  induction sps generalizing r with
  | nil => exact .pure trivial
  | cons sp sps ih =>
    refine .bind (life_sys nofun nofun) fun _ _ => .ite (fun _ => ih r) fun _ => ?_
    exact .bind (life_modify (fun _ => rfl) (fun _ => rfl) fun _ h => h) fun _ _ => ih _

theorem life_allStreams : Prog.Keeps (lifeContract c) (Life c b S) (fun _ => True) allStreams :=
  keeps_getTest_bind fun _ _ _ => .pure trivial

theorem life_sendResults (fuel : Nat) :
    Prog.Keeps (lifeContract c) (Life c b S) (fun _ => True) (sendResults fuel) := by
  refine .bind (life_sys nofun nofun) fun _ _ => .ite (fun _ => life_fail _) fun _ => ?_
  refine .bind (life_sys nofun nofun) fun _ _ => .ite (fun _ => life_fail _) fun _ => ?_
  refine .bind life_allStreams fun sps _ => ?_
  refine .bind (life_allocResults _ _) fun r _ => .ite (fun _ => ?_) fun _ => .pure trivial
  refine keeps_getTest_bind fun _ _ _ => .bind (life_jsonWrite _ _ _) fun _ _ => ?_
  exact .ite (fun _ => life_fail _) fun _ => .pure trivial

/-- The exchange of the results as it follows the announcement of the results. -/
theorem life_iperfExchangeResults (fuel : Nat) :
    Prog.Keeps (lifeContract c) (Life c b (· = TestState.EXCHANGE_RESULTS)) (fun _ => True)
      (iperfExchangeResults fuel) := by
  refine keeps_getTest_bind fun _ _ _ => .ite (fun _ => ?_) fun _ => ?_
  · refine .bind (life_sendResults fuel) fun _ _ => .ite (fun _ => .pure trivial) fun _ => ?_
    exact .bind (life_getResults fuel) fun _ _ => .ite (fun _ => .pure trivial) fun _ => .pure trivial
  · refine .bind (life_getResults fuel) fun _ _ => .ite (fun _ => .pure trivial) fun _ => ?_
    exact .bind (life_sendResults fuel) fun _ _ => .ite (fun _ => .pure trivial) fun _ => .pure trivial

/-! ## The server -/

/-- The program keeps the life of the server going, whatever the state of the test is. -/
abbrev Lives {α : Type} (c : IperfTest) (b : Option String) (p : IperfProg α) : Prop :=
  Prog.Keeps (lifeContract c) (Life c b fun _ => True) (fun _ => True) p

theorem lives_of_triple {α : Type} {p : IperfProg α}
    (hp : Prog.Triple (lifeContract c) (Life c b fun _ => True) p
      fun _ => Life c b fun _ => True) : Lives c b p :=
  fun m g hm => (hp m g hm).mono fun _ _ _ h => ⟨trivial, h⟩

theorem lives_modifyTest {f : IperfTest → IperfTest} (ho : ∀ t, (f t).options = t.options)
    (hp : ∀ t, (f t).params.carried = t.params.carried) : Lives c b (modifyTest f) :=
  life_modifyTest ho hp fun _ _ => trivial

theorem lives_setIErrno (e : IErr) : Lives c b (setIErrno e) :=
  life_modify (fun _ => rfl) (fun _ => rfl) fun _ h => h

theorem lives_acceptClient (fuel : Nat) (s : Int) : Lives c b (acceptClient fuel s) := by
  refine .bind (lives_modifyTest (fun _ => rfl) fun _ => rfl) fun _ _ => ?_
  refine .bind (life_nread _ _ _) fun got _ => ?_
  cases got with
  | none => exact life_fail _
  | some got =>
    refine .bind (lives_modifyTest (fun _ => rfl) fun _ => rfl) fun _ _ => ?_
    refine lives_of_triple (.bind (life_iperfSetSendState fuel _) fun r => .ite (fun _ => ?_) fun _ => ?_)
    · exact .ret fun _ _ h => h.any
    · refine .bind (life_iperfExchangeParameters fuel) fun r => ?_
      have hrest : Lives c b (if r < 0 then pure (-1) else do
          let t ← getTest
          let r ← if t.serverAffinity ≠ -1 then iperfSetaffinity t.serverAffinity else pure 0
          if r ≠ 0 then
            pure (-1)
          else do
            iperfOnConnect
            pure (0 : Int)) := by
        refine .ite (fun _ => .pure trivial) fun _ => keeps_getTest_bind fun m g _ => ?_
        have hconnect : ∀ r : Int, Lives c b (if r ≠ 0 then pure (-1) else do
            iperfOnConnect
            pure (0 : Int)) := fun r =>
          .ite (fun _ => .pure trivial) fun _ =>
            .bind (life_measures fun _ _ _ hh => iperfOnConnect_neutral hh) fun _ _ => .pure trivial
        refine .ite (fun _ => ?_) fun _ => hconnect 0
        exact .bind (life_measures fun _ _ _ hh => iperfSetaffinity_neutral hh _) fun r _ => hconnect r
      exact fun m g hm => (hrest m g hm).mono fun _ _ _ h => h.2

theorem lives_denyClient (fuel : Nat) (s : Int) : Lives c b (denyClient fuel s) := by
  refine .bind (life_sys nofun nofun) fun _ _ => .bind (life_nread _ _ _) fun got _ => ?_
  cases got with
  | none => exact life_fail _
  | some got =>
    refine .bind (life_nwrite _ _ _) fun _ _ => .ite (fun _ => life_fail _) fun _ => ?_
    exact .bind (life_sys nofun nofun) fun _ _ => .pure trivial

theorem lives_sockAccept (fd : Int) : Lives c b (sockAccept fd) :=
  .bind (life_sys nofun nofun) fun _ _ => result_keeps life_plumbing trivial fun _ _ => trivial

theorem lives_iperfAccept (fuel : Nat) : Lives c b (iperfAccept fuel) := by
  refine keeps_getTest_bind fun m g _ => .bind (lives_sockAccept _) fun s _ => ?_
  refine .ite (fun _ => life_fail _) fun _ => .ite (fun _ => lives_acceptClient _ _) fun _ => ?_
  exact lives_denyClient _ _

theorem lives_forAllStreams {body : Nat → IperfProg Unit} (hb : ∀ sp, Lives c b (body sp))
    (sps : List Nat) : Lives c b (forAllStreams body sps) := by
  induction sps with
  | nil => exact .pure trivial
  | cons sp sps ih => exact .bind (hb sp) fun _ _ => ih

theorem lives_getStream (sp : Nat) : Lives c b (getStream sp) := by
  refine keeps_getTest_bind fun m g _ => ?_
  cases m.test.streams[sp]? with
  | none => exact .stop fun _ _ _ => trivial
  | some st => exact .pure trivial

theorem lives_closeStreams : Lives c b closeStreams := by
  refine .bind life_allStreams fun sps _ => lives_forAllStreams (fun sp => ?_) sps
  refine .bind (lives_getStream sp) fun st _ => ?_
  refine .bind (lives_modifyTest (fun _ => rfl) fun _ => rfl) fun _ _ => ?_
  exact life_sys nofun nofun

theorem lives_reporterCallback : Lives c b iperfReporterCallback :=
  life_measures fun _ _ _ hh => iperfReporterCallback_neutral hh

theorem lives_updateCpuUtil : Lives c b updateCpuUtil :=
  life_measures fun _ _ _ hh => updateCpuUtil_neutral hh

theorem lives_handleTestEnd (fuel : Nat) : Lives c b (handleTestEnd fuel) := by
  refine .bind (lives_modifyTest (fun _ => rfl) fun _ => rfl) fun _ _ => ?_
  refine .bind lives_updateCpuUtil fun _ _ => ?_
  refine .bind (life_measures fun _ _ _ hh => iperfStatsCallback_neutral hh) fun _ _ => ?_
  refine .bind lives_closeStreams fun _ _ => ?_
  refine lives_of_triple (.bind (life_iperfSetSendState fuel _) fun r => .ite (fun _ => ?_) fun _ => ?_)
  · exact .ret fun _ _ h => h.any
  · refine .seq (life_iperfExchangeResults fuel) fun r _ => .ite (fun _ => ?_) fun _ => ?_
    · exact .ret fun _ _ h => h.any
    · refine .bind (life_iperfSetSendState fuel _) fun r => .ite (fun _ => ?_) fun _ => ?_
      · exact .ret fun _ _ h => h.any
      · refine .seq (life_measures fun _ _ _ hh => iperfReporterCallback_neutral hh) fun _ _ => ?_
        exact .ret fun _ _ h => h.any

theorem lives_handleClientTerminate : Lives c b handleClientTerminate := by
  refine .bind (lives_setIErrno _) fun _ _ => keeps_getTest_bind fun m g _ => ?_
  refine .bind lives_updateCpuUtil fun _ _ => ?_
  refine .bind (lives_modifyTest (fun _ => rfl) fun _ => rfl) fun _ _ => ?_
  refine .bind lives_reporterCallback fun _ _ => ?_
  refine .bind (lives_modifyTest (fun _ => rfl) fun _ => rfl) fun _ _ => ?_
  refine .bind (life_sys nofun nofun) fun _ _ => .bind lives_closeStreams fun _ _ => ?_
  exact .bind (lives_modifyTest (fun _ => rfl) fun _ => rfl) fun _ _ => .pure trivial

theorem lives_handleClientClosed : Lives c b handleClientClosed := by
  refine .bind (life_sys nofun nofun) fun _ _ => .bind (lives_setIErrno _) fun _ _ => ?_
  exact .bind (lives_modifyTest (fun _ => rfl) fun _ => rfl) fun _ _ => .pure trivial

theorem lives_iperfHandleMessageServer (fuel : Nat) : Lives c b (iperfHandleMessageServer fuel) := by
  refine keeps_getTest_bind fun m g _ => .bind (life_nread _ _ _) fun got _ => ?_
  match got with
  | none => exact life_fail _
  | some [] => exact lives_handleClientClosed
  | some (byte :: _) =>
    refine .bind (lives_modifyTest (fun _ => rfl) fun _ => rfl) fun _ _ => ?_
    refine .ite (fun _ => .pure trivial) fun _ => .ite (fun _ => lives_handleTestEnd _) fun _ => ?_
    refine .ite (fun _ => .pure trivial) fun _ => .ite (fun _ => lives_handleClientTerminate) fun _ => ?_
    exact life_fail _

theorem lives_cleanupServer : Lives c b cleanupServer := by
  refine keeps_getTest_bind fun m g _ => ?_
  refine .bind (life_sys nofun nofun) fun _ _ => .bind (life_sys nofun nofun) fun _ _ => ?_
  refine .bind (life_measures fun _ _ _ hh => cancelTimer_neutral hh fun _ => rfl) fun _ _ => ?_
  refine .bind (life_measures fun _ _ _ hh => cancelTimer_neutral hh fun _ => rfl) fun _ _ => ?_
  exact life_measures fun _ _ _ hh => cancelTimer_neutral hh fun _ => rfl

theorem lives_orCleanup {α : Type} {r : IperfProg Int} {k : IperfProg (Option α)}
    (hr : Lives c b r) (hk : Lives c b k) : Lives c b (orCleanup r k) :=
  .bind hr fun _ _ => .ite (fun _ => .bind lives_cleanupServer fun _ _ => .pure trivial) fun _ => hk

theorem lives_serverListenerPart (fuel : Nat) (readSet : FdSet) :
    Lives c b (serverListenerPart fuel readSet) := by
  refine keeps_getTest_bind fun m g _ => .ite (fun _ => ?_) fun _ => .pure trivial
  exact lives_orCleanup (lives_iperfAccept fuel) (keeps_getTest_bind fun _ _ _ => .pure trivial)

theorem lives_serverControlPart (fuel : Nat) (readSet : FdSet) :
    Lives c b (serverControlPart fuel readSet) := by
  refine keeps_getTest_bind fun m g _ => .ite (fun _ => ?_) fun _ => .pure trivial
  exact lives_orCleanup (lives_iperfHandleMessageServer fuel)
    (keeps_getTest_bind fun _ _ _ => .pure trivial)

theorem lives_iperfTcpAccept (fuel : Nat) : Lives c b (iperfTcpAccept fuel) := by
  refine keeps_getTest_bind fun m g _ => .bind (lives_sockAccept _) fun s _ => ?_
  refine .ite (fun _ => life_fail _) fun _ => .bind (life_sys nofun nofun) fun cookie _ => ?_
  refine .bind (life_nread _ _ _) fun got _ => ?_
  cases got with
  | none => exact life_fail _
  | some got =>
    have hrest : ∀ equal : Bool, Lives c b (if equal then pure s else do
        let r ← nwrite fuel s [TestState.ACCESS_DENIED.toUInt8]
        if r < 0 then
          fail .IESENDMESSAGE
        else do
          sys (.close s)
          pure s) := by
      refine fun equal => .ite (fun _ => .pure trivial) fun _ => .bind (life_nwrite _ _ _) fun _ _ => ?_
      refine .ite (fun _ => life_fail _) fun _ => .bind (life_sys nofun nofun) fun _ _ => .pure trivial
    dsimp only
    split
    · exact hrest _
    · exact .bind (life_sys nofun nofun) fun equal _ => hrest equal

theorem lives_protocolAccept (fuel : Nat) (prot : ProtId) : Lives c b (protocolAccept fuel prot) := by
  cases prot with
  | tcp => exact lives_iperfTcpAccept fuel
  | udp => exact (iperfUdpAccept_keeps life_plumbing).mono fun _ _ => trivial
  | sctp => exact lives_iperfTcpAccept fuel

theorem lives_admitStream (s : Int) : Lives c b (admitStream s) := by
  refine .bind (lives_modifyTest (fun t => ?_) fun t => ?_) fun _ _ => ?_
  · dsimp only; split <;> rfl
  · dsimp only; split <;> rfl
  · refine keeps_getTest_bind fun m g _ => .bind (life_sys nofun nofun) fun _ _ => ?_
    exact .ite (fun _ => life_sys nofun nofun) fun _ => life_sys nofun nofun

theorem lives_iperfNewStream (s : Int) : Lives c b (iperfNewStream s) :=
  lives_of_triple (iperfNewStream_triple life_plumbing (fun _ _ h => h) fun _ _ _ _ hm =>
    ⟨trivial, hm.congr rfl rfl trivial⟩)

theorem lives_serverAcceptStream (fuel : Nat) (accepted : Int) :
    Lives c b (serverAcceptStream fuel accepted) := by
  have hclean : Lives c b (do cleanupServer; pure (none : Option Int)) :=
    .bind lives_cleanupServer fun _ _ => .pure trivial
  refine keeps_getTest_bind fun m g _ => .bind (lives_protocolAccept _ _) fun s _ => ?_
  refine .ite (fun _ => hclean) fun _ => .bind (isClosed_keeps life_plumbing s) fun closed _ => ?_
  refine .ite (fun _ => .pure trivial) fun _ => .bind (lives_iperfNewStream s) fun sp _ => ?_
  exact .ite (fun _ => hclean) fun _ => .bind (lives_admitStream s) fun _ _ => .pure trivial

theorem lives_serverStartTest (fuel : Nat) (accepted : Int) :
    Lives c b (serverStartTest fuel accepted) := by
  refine .bind (replaceListener_keeps life_plumbing) fun r _ => .ite (fun _ => ?_) fun _ => ?_
  · exact .bind lives_cleanupServer fun _ _ => .bind (lives_setIErrno _) fun _ _ => .pure trivial
  · refine .bind (lives_modifyTest (fun _ => rfl) fun _ => rfl) fun _ _ => ?_
    refine lives_orCleanup (life_sendState _ _) ?_
    refine lives_orCleanup (life_measures fun _ _ _ hh => iperfInitTest_neutral hh) ?_
    refine lives_orCleanup (life_measures fun _ _ _ hh => createServerTimers_neutral hh) ?_
    refine lives_orCleanup (life_measures fun _ _ _ hh => createOmitTimer_neutral hh) ?_
    refine keeps_getTest_bind fun m g _ => lives_orCleanup (.ite (fun _ => ?_) fun _ => ?_) ?_
    · exact life_measures fun _ _ _ hh => iperfCreateSendTimers_neutral hh
    · exact .pure trivial
    · exact lives_orCleanup (life_sendState _ _) (.pure trivial)

theorem lives_serverMaybeStart (fuel : Nat) (accepted : Int) :
    Lives c b (serverMaybeStart fuel accepted) :=
  keeps_getTest_bind fun _ _ _ => .ite (fun _ => lives_serverStartTest _ _) fun _ => .pure trivial

theorem lives_serverStreamsPart (fuel : Nat) (readSet : FdSet) (accepted : Int) :
    Lives c b (serverStreamsPart fuel readSet accepted) := by
  refine keeps_getTest_bind fun m g _ => .ite (fun _ => .ite (fun _ => ?_) fun _ => ?_) fun _ =>
    .pure trivial
  · refine .bind (lives_serverAcceptStream _ _) fun r _ => ?_
    cases r with
    | none => exact .pure trivial
    | some accepted =>
      exact keeps_getTest_bind fun _ _ _ => .bind (lives_serverMaybeStart _ _) fun _ _ => .pure trivial
  · exact .bind (lives_serverMaybeStart _ _) fun _ _ => .pure trivial

theorem lives_serverDataPart (fuel : Nat) (readSet writeSet : FdSet) (accepted : Int) :
    Lives c b (serverDataPart fuel readSet writeSet accepted) := by
  refine keeps_getTest_bind fun m g _ => .ite (fun _ => .ite (fun _ => ?_) fun _ => ?_) fun _ =>
    .pure trivial
  · exact lives_orCleanup (life_measures fun _ _ _ hh => iperfSend_neutral hh _ _) (.pure trivial)
  · exact lives_orCleanup (life_measures fun _ _ _ hh => iperfRecv_neutral hh _ _) (.pure trivial)

theorem lives_serverHandle (fuel : Nat) (readSet writeSet : FdSet) (accepted : Int) :
    Lives c b (serverHandle fuel readSet writeSet accepted) := by
  refine .bind (lives_serverListenerPart _ _) fun r _ => ?_
  cases r with
  | none => exact .pure trivial
  | some readSet =>
    refine .bind (lives_serverControlPart _ _) fun r _ => ?_
    cases r with
    | none => exact .pure trivial
    | some readSet =>
      refine .bind (lives_serverStreamsPart _ _ _) fun r _ => ?_
      cases r with
      | none => exact .pure trivial
      | some r => exact lives_serverDataPart _ _ _ _

theorem lives_runTimers (fuel : Nat) : Lives c b (runTimers fuel) :=
  life_measures fun _ _ _ hh => runTimers_neutral hh fuel

theorem lives_serverStep (fuel : Nat) (accepted : Int) : Lives c b (serverStep fuel accepted) := by
  refine keeps_getTest_bind fun m g _ => ?_
  refine .bind (life_measures fun _ _ _ hh => gettimeofday_neutral hh) fun now _ => ?_
  refine .bind (life_measures fun _ _ _ hh => getTimeout_neutral hh now) fun timeout _ => ?_
  refine .bind (life_sys nofun nofun) fun a _ => ?_
  have htimers : ∀ (p : Prop) [Decidable p] (accepted : Int), Lives c b
      (if p then do runTimers fuel; pure (some accepted) else pure (some accepted)) := fun p _ _ =>
    .ite (fun _ => .bind (lives_runTimers fuel) fun _ _ => .pure trivial) fun _ => .pure trivial
  cases a with
  | error e =>
    refine .bind (life_setErrno e) fun _ _ => .ite (fun _ => ?_) fun _ => htimers _ _
    exact .bind lives_cleanupServer fun _ _ => .bind (lives_setIErrno _) fun _ _ => .pure trivial
  | ok v =>
    obtain ⟨n, readSet, writeSet⟩ := v
    refine .ite (fun _ => .bind (lives_serverHandle _ _ _ _) fun r _ => ?_) fun _ => htimers _ accepted
    cases r with
    | none => exact .pure trivial
    | some accepted => exact htimers _ accepted

theorem lives_serverLoop (fuel passes : Nat) (accepted : Int) :
    Lives c b (serverLoop fuel passes accepted) := by
  induction passes generalizing accepted with
  | zero => exact .stop fun _ _ _ => trivial
  | succ passes ih =>
    refine keeps_getTest_bind fun m g _ => .ite (fun _ => .pure trivial) fun _ => ?_
    refine .bind (lives_serverStep fuel accepted) fun r _ => ?_
    cases r with
    | none => exact .pure trivial
    | some accepted => exact ih accepted

theorem lives_serverFinish : Lives c b serverFinish := by
  refine .bind lives_cleanupServer fun _ _ => keeps_getTest_bind fun m g _ => ?_
  have haffinity : ∀ r : Int, Lives c b (if r < 0 then pure (-1) else do
      let t ← getTest
      let r ← if t.serverAffinity ≠ -1 then iperfClearaffinity else pure 0
      if r ≠ 0 then pure (-1) else pure (0 : Int)) := by
    refine fun r => .ite (fun _ => .pure trivial) fun _ => keeps_getTest_bind fun m g _ => ?_
    refine .ite (fun _ => ?_) fun _ => .pure trivial
    refine .bind (life_measures fun _ _ _ hh => iperfClearaffinity_neutral hh) fun r _ => ?_
    exact .ite (fun _ => .pure trivial) fun _ => .pure trivial
  refine .ite (fun _ => ?_) fun _ => haffinity 0
  exact .bind (life_measures fun _ _ _ hh => iperfJsonFinish_neutral hh) fun r _ => haffinity r

/-- The fallback to IPv4 is announced before the domain changes. -/
theorem lives_openListener : Lives c b openListener := by
  have hfail : ∀ s : Int, Lives c b (if s < 0 then fail .IELISTEN else pure 0) := fun s =>
    .ite (fun _ => life_fail _) fun _ => .pure trivial
  refine .bind ((announceListener_keeps life_plumbing).mono fun _ _ => trivial) fun s _ => ?_
  refine .ite (fun _ => .get_bind fun m g _ => .ite (fun _ => ?_) fun _ => life_fail _) fun _ =>
    .pure trivial
  intro m g hm
  refine ⟨trivial, fun _ _ => ⟨trivial, ?_⟩⟩
  have hlife : Life c b (fun _ => True)
      { m with test := onSettings (fun s => { s with domain := .inet }) m.test }
      { g with fellBack := true } := by
    refine ⟨hm.started, ?_, nofun, hm.carried, trivial⟩
    have ho := hm.options
    simp only [Options.ext_iff, IperfTest.options] at ho ⊢
    exact ⟨ho.1, ho.2.1, trivial, ho.2.2.2⟩
  have hgoes : Lives c b (do
      let s ← announceListener
      if s < 0 then fail .IELISTEN else pure 0) :=
    .bind ((announceListener_keeps life_plumbing).mono fun _ _ => trivial) fun s _ => hfail s
  have hnotes : ((lifeContract c).onCall m g (.output (.err fallbackMessage)) ()) =
      { g with fellBack := true } := by
    simp [lifeContract]
  exact (congrArg (Prog.Safe _ _ _ _) hnotes).mpr (hgoes _ _ hlife)

theorem lives_iperfServerListen : Lives c b iperfServerListen := by
  refine .bind lives_openListener fun r _ => .ite (fun _ => .pure trivial) fun _ => ?_
  refine keeps_getTest_bind fun m g _ => ?_
  have hsets : Lives c b (do
      modifyTest fun t => { t with
        readSet := {t.listener}
        writeSet := ∅
        maxFd := max t.maxFd t.listener }
      pure (0 : Int)) :=
    .bind (lives_modifyTest (fun _ => rfl) fun _ => rfl) fun _ _ => .pure trivial
  refine .ite (fun _ => ?_) fun _ => hsets
  refine .bind (life_sys nofun nofun) fun _ _ => .bind (life_sys nofun nofun) fun _ _ => ?_
  exact .bind (life_sys nofun nofun) fun _ _ => hsets

theorem lives_serverMain (fuel : Nat) : Lives c b (serverMain fuel) := by
  refine .bind lives_iperfServerListen fun r _ => .ite (fun _ => .pure trivial) fun _ => ?_
  refine .bind (life_sys nofun nofun) fun _ _ => ?_
  refine .bind (lives_modifyTest (fun _ => rfl) fun _ => rfl) fun _ _ => ?_
  refine .bind (lives_serverLoop fuel fuel 0) fun r _ => ?_
  cases r with
  | none => exact .pure trivial
  | some _ => exact lives_serverFinish

/-- One test: the server keeps its promise at the start, and lives through the test. -/
theorem life_iperfRunServer (fuel : Nat) :
    Prog.Triple (lifeContract c) (AtStart c) (iperfRunServer fuel)
      fun _ m g => ∃ b, Life c b (fun _ => True) m g := by
  intro m g hm
  have hlife : Life c (if g.starts = 0 then c.bindAddress else none) (fun _ => True) m
      { g with starts := g.starts + 1 } :=
    ⟨Nat.succ_pos _, hm.options, hm.domain, by rw [hm.params]; rfl, trivial⟩
  refine ⟨hm, fun _ _ => ?_⟩
  refine prolog_triple (fun a => life_measures fun _ _ _ hh => iperfSetaffinity_neutral hh a)
    (life_measures fun _ _ _ hh => iperfJsonStart_neutral hh)
    (fun t => life_measures fun _ _ _ hh => reportVersion_neutral hh t) ?_ ?_ m _ hlife
  · exact fun _ _ h => ⟨_, h⟩
  · exact fun m g h => (lives_serverMain fuel m g h).mono fun _ _ _ h => ⟨_, h.2⟩

theorem lives_freeStreams (sts : List IperfStream) : Lives c b (freeStreams sts) := by
  induction sts with
  | nil => exact .pure trivial
  | cons st sts ih =>
    have hcancel : Lives c b (cancelHandle st.sendTimer) :=
      life_measures fun _ _ _ hh => cancelHandle_neutral hh _
    have hfree : Lives c b (iperfFreeStream st) := by
      refine keeps_getTest_bind fun m g _ => .bind (life_sys nofun nofun) fun _ _ => ?_
      refine .bind (life_sys nofun nofun) fun _ _ => .ite (fun _ => ?_) fun _ => hcancel
      exact .bind (life_sys nofun nofun) fun _ _ => hcancel
    refine .bind (lives_modifyTest (fun _ => rfl) fun _ => rfl) fun _ _ => ?_
    exact .bind hfree fun _ _ => ih

/-- `iperf_reset_test` makes the server ready for the next test. -/
theorem life_iperfResetTest :
    Prog.Triple (lifeContract c) (Life c b fun _ => True) iperfResetTest fun _ => AtStart c := by
  have hcancel : ∀ {handle clear}, (∀ t, (clear t).core = t.core) →
      Lives c b (cancelTimer handle clear) := fun hclear =>
    life_measures fun _ _ _ hh => cancelTimer_neutral hh hclear
  refine triple_getTest_bind fun m g _ => .seq (lives_freeStreams _) fun _ _ => ?_
  refine .seq (hcancel fun _ => rfl) fun _ _ => .seq (hcancel fun _ => rfl) fun _ _ => ?_
  refine .seq (hcancel fun _ => rfl) fun _ _ => .seq (hcancel fun _ => rfl) fun _ _ => ?_
  intro m g hm
  refine ⟨trivial, ?_, hm.domain, ?_⟩
  · have hb : (if g.starts = 0 then c.bindAddress else none) = none := if_neg hm.started.ne'
    show (resetFields m.test).options = { c.options with
      bindAddress := if g.starts = 0 then c.bindAddress else none
      domain := m.test.settings.domain }
    rw [resetFields_options, hm.options, hb]
  · show (resetFields m.test).params = _
    rw [resetFields_params, hm.carried]
    rfl

theorem life_runServerLoop (fuel rounds errors : Nat) :
    Prog.Triple (lifeContract c) (AtStart c) (runServerLoop fuel rounds errors)
      fun _ _ _ => True := by
  induction rounds generalizing errors with
  | zero => exact fun _ _ _ => trivial
  | succ rounds ih =>
    refine .bind (life_iperfRunServer fuel) fun r => ?_
    rintro m g ⟨b, hm⟩
    have hnext : ∀ errors, Prog.Triple (lifeContract c) (Life c b fun _ => True) (do
        iperfResetTest
        runServerLoop fuel rounds errors) fun _ _ _ => True := fun errors =>
      .bind life_iperfResetTest fun _ => ih errors
    have herr : ∀ message, Lives c b (iperfErr message) := fun _ => life_sys nofun nofun
    have hgo : Prog.Triple (lifeContract c) (Life c b fun _ => True)
        (if r < 0 then do
          iperfErr "error"
          if errors + 1 ≥ 5 then
            iperfErr "too many errors, exiting"
          else do
            iperfResetTest
            runServerLoop fuel rounds (errors + 1)
        else do
          iperfResetTest
          runServerLoop fuel rounds 0) fun _ _ _ => True := by
      refine .ite (fun _ => .seq (herr _) fun _ _ => .ite (fun _ => ?_) fun _ => hnext _) fun _ => hnext 0
      exact fun m g hm => (herr _ m g hm).mono fun _ _ _ _ => trivial
    exact hgo m g hm

end Walk

end Iperf
