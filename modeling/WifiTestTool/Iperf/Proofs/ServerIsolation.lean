import WifiTestTool.Iperf.Proofs.ServerLife

/-!
# Tests of one server influence each other

The two things that `iperf_reset_test` gets wrong, seen at the start of a later test: the address that
the server was bound to is lost, and the parameters that are not restored show in the next test if its
document does not set them.
-/

namespace Iperf

open Reactive

/-! ## The address to bind to -/

theorem onSettings_bindAddress (p : ParseState) (f : IperfSettings → IperfSettings) :
    (p.onSettings f).clientOnly.test.bindAddress = p.test.bindAddress := rfl

theorem parseOpt_bindAddress {p p' : ParseState} {o : Opt} (h : parseOpt p o = .ok p') :
    p'.test.bindAddress = none ↔ (∀ host, o ≠ .bind host) ∧ p.test.bindAddress = none := by
  have hother (ho : ∀ host, o ≠ .bind host) (hb : p'.test.bindAddress = p.test.bindAddress) :
      p'.test.bindAddress = none ↔ (∀ host, o ≠ .bind host) ∧ p.test.bindAddress = none := by
    rw [hb, and_iff_right ho]
  cases o with
  | bind host => cases h; simp
  | bandwidth rate burst =>
    cases burst with
    | none => exact hother nofun (by cases h; rfl)
    | some n => exact hother nofun (by rw [orFail_ok h]; rfl)
  | affinity n server =>
    cases server with
    | none => exact hother nofun (by rw [orFail_ok h]; rfl)
    | some m => exact hother nofun (by rw [orFail_ok h]; rfl)
  | time | parallel | window | setMss | flowlabel | omitTime | interval | server | client =>
    exact hother nofun (by rw [orFail_ok h]; rfl)
  | version => cases h
  | help => cases h
  | blockcount => exact hother nofun (by cases h; exact onSettings_bindAddress p _)
  | udp | sctp | bytes | length | reverse | noDelay | tos | zerocopy | title
  | linuxCongestion | port | format | daemon | verbose | json | version4 | version6 | file
  | pidfile | debug => exact hother nofun (by cases h; rfl)

theorem parseOpts_bindAddress {opts : List Opt} {p p' : ParseState} (h : parseOpts opts p = .ok p') :
    p'.test.bindAddress = none ↔ (∀ host, .bind host ∉ opts) ∧ p.test.bindAddress = none := by
  induction opts generalizing p with
  | nil => cases h; simp
  | cons o opts ih =>
    simp only [parseOpts] at h
    cases ho : parseOpt p o with
    | error e => rw [ho] at h; cases h
    | ok p₁ =>
      rw [ho] at h
      rw [ih h, parseOpt_bindAddress ho, ← and_assoc, ← forall_and]
      refine and_congr_left' (forall_congr' fun host => ?_)
      rw [List.mem_cons, not_or, and_comm, ne_comm, ne_eq]

/-- A server is bound to an address if `-B` says so. -/
theorem parseArguments_bindAddress {opts : List Opt} {c : IperfTest}
    (h : iperfParseArguments mainTest opts = .ok c) :
    c.bindAddress = none ↔ ∀ host, .bind host ∉ opts := by
  obtain ⟨p, hp, rfl, -⟩ := parseArguments_ok h
  exact (parseOpts_bindAddress hp).trans (and_iff_left rfl)

/-! ## What the next test finds -/

instance (c : IperfTest) (m : Mem) (g : Log) (r : Req) (a : r.Ans) :
    Decidable ((lifeContract c).allows m g r a) := .isTrue trivial

/-- An observer's notes before the first test. -/
def Log.start : Log := ⟨0, false, []⟩

/-- At the start of every test of an accepted server the promise holds. -/
theorem atStart_of_reach {opts : List Opt} {c : IperfTest} {m m' : Mem} {g : Log}
    {fuel rounds : Nat} {k : Req.Ans .catchSigend → IperfProg Unit}
    (h : iperfParseArguments mainTest opts = .ok c) (hr : c.role = .server) (hm : m.test = c)
    (hreach : Prog.Reach (lifeContract c) (runServerLoop fuel rounds 0, m, .start)
      (.call .catchSigend k, m', g)) : AtStart c m' g := by
  have hstart : AtStart c m .start := by
    refine ⟨?_, fun _ => by rw [hm], ?_⟩
    · rw [hm]
      rfl
    · rw [hm, parseArguments_server h hr]
      rfl
  exact ((life_runServerLoop fuel rounds 0 m .start hstart).reach hreach).1

/-- The operator's options at the start of a later test are those of the first test if and only if the
server was not bound to an address. -/
theorem server_options_kept_iff {opts : List Opt} {c : IperfTest} {m m' : Mem} {g : Log}
    {fuel rounds : Nat} {k : Req.Ans .catchSigend → IperfProg Unit}
    (h : iperfParseArguments mainTest opts = .ok c) (hr : c.role = .server) (hm : m.test = c)
    (hreach : Prog.Reach (lifeContract c) (runServerLoop fuel rounds 0, m, .start)
      (.call .catchSigend k, m', g)) (hlater : 0 < g.starts) :
    m'.test.options = { c.options with
        domain := if g.fellBack then m'.test.settings.domain else c.settings.domain } ↔
      ∀ host, .bind host ∉ opts := by
  have hs := atStart_of_reach h hr hm hreach
  have hdomain : m'.test.settings.domain =
      if g.fellBack then m'.test.settings.domain else c.settings.domain := by
    cases hf : g.fellBack with
    | true => rfl
    | false => exact hs.domain hf
  rw [← parseArguments_bindAddress h, hs.options, if_neg hlater.ne', ← hdomain]
  constructor
  · intro heq
    exact (congrArg Options.bindAddress heq).symm
  · intro hb
    have hc : c.options.bindAddress = none := hb
    rw [← hc]

/-- The server of `iperf3 -s`. -/
def plainServer : IperfTest := iperfSetTestRole .server mainTest

/-- The server of `iperf3 -s -B 10.0.0.1`. -/
def boundServer : IperfTest := { plainServer with bindAddress := some "10.0.0.1" }

/-- No address can be found for the listener, so that every test fails at once. -/
def noAddress (_ : Nat) : (r : Req) → r.Ans
  | .getaddrinfo _ _ _ => none
  | r => r.quiet

/-- The second test of `iperf3 -s`. -/
theorem server_options_kept_second_test :
    ∃ k m' g, Prog.Reach (lifeContract plainServer) (runServerLoop 9 3 0, Mem.start plainServer, .start)
        (.call .catchSigend k, m', g) ∧ 0 < g.starts ∧
      m'.test.options = { plainServer.options with
        domain := if g.fellBack then m'.test.settings.domain else plainServer.settings.domain } := by
  have hreach := Prog.drive_reach (lifeContract plainServer) noAddress 18 0
    (runServerLoop 9 3 0, Mem.start plainServer, .start)
  have hparse : iperfParseArguments mainTest [.server] = .ok plainServer := rfl
  exact ⟨_, _, _, hreach, by decide,
    (server_options_kept_iff hparse rfl rfl hreach (by decide)).2 (by simp)⟩

/-- The second test of `iperf3 -s -B 10.0.0.1` listens on every address. -/
theorem bind_address_lost :
    iperfParseArguments mainTest [.server, .bind "10.0.0.1"] = .ok boundServer ∧
    ∃ k m' g, Prog.Reach (lifeContract boundServer) (runServerLoop 9 3 0, Mem.start boundServer, .start)
        (.call .catchSigend k, m', g) ∧ 0 < g.starts ∧
      boundServer.options.bindAddress = some "10.0.0.1" ∧ m'.test.options.bindAddress = none :=
  ⟨rfl, _, _, _, Prog.drive_reach (lifeContract boundServer) noAddress 18 0 _, by decide, rfl, rfl⟩

/-- What a document makes of parameters that were left behind. -/
theorem take_carrying_eq_iff (j : Json) (p : Params) (v : UInt64 × Int × Int × Int) :
    (p.carrying v).take j = p.take j ↔
      lookupSize j "num" v.1 = lookupSize j "num" p.bytes ∧
      lookupInt j "blockcount" v.2.1 = lookupInt j "blockcount" p.blocks ∧
      lookupInt j "TOS" v.2.2.1 = lookupInt j "TOS" p.tos ∧
      lookupInt j "flowlabel" v.2.2.2 = lookupInt j "flowlabel" p.flowlabel := by
  rw [Params.ext_iff]
  simp [Params.carrying, Params.take]

theorem lookupOr_eq_iff {α : Type} (j : Json) (name : String) (f : Json → α) (a b : α) :
    lookupOr j name f a = lookupOr j name f b ↔ cJSON_GetObjectItem j name ≠ none ∨ a = b := by
  unfold lookupOr
  cases cJSON_GetObjectItem j name with
  | none => simp
  | some p => simp

/-- The document `j` covers what the documents before it left behind: each of the four parameters that
are not restored is in `j`, or the last document that had it set it to zero. -/
def Covers (docs : List Json) (j : Json) : Prop :=
  (cJSON_GetObjectItem j "num" ≠ none ∨ lastSize docs "num" = 0) ∧
  (cJSON_GetObjectItem j "blockcount" ≠ none ∨ lastInt docs "blockcount" = 0) ∧
  (cJSON_GetObjectItem j "TOS" ≠ none ∨ lastInt docs "TOS" = 0) ∧
  (cJSON_GetObjectItem j "flowlabel" ≠ none ∨ lastInt docs "flowlabel" = 0)

/-- The next client gets what a fresh server would have given it if and only if its document covers
what the earlier tests left behind, or is refused. -/
theorem server_parameters_isolated_iff {opts : List Opt} {c : IperfTest} {m m' : Mem} {g : Log}
    {fuel rounds : Nat} {k : Req.Ans .catchSigend → IperfProg Unit}
    (h : iperfParseArguments mainTest opts = .ok c) (hr : c.role = .server) (hm : m.test = c)
    (hreach : Prog.Reach (lifeContract c) (runServerLoop fuel rounds 0, m, .start)
      (.call .catchSigend k, m', g)) (j : Json) :
    (takeParameters j m'.test).map IperfTest.params = (takeParameters j c).map IperfTest.params ↔
      (StringsOk j → Covers g.docs j) := by
  have hs := atStart_of_reach h hr hm hreach
  by_cases hj : StringsOk j
  · obtain ⟨t₁, h₁, e₁⟩ := takeParameters_spec hj m'.test
    obtain ⟨t₀, h₀, e₀⟩ := takeParameters_spec hj c
    rw [h₁, h₀, Option.map_some, Option.map_some, Option.some_inj, e₁, e₀, hs.params,
      parseArguments_server h hr, take_carrying_eq_iff]
    simp only [lookupSize, lookupInt, lookupOr_eq_iff, hj, forall_true_left]
    rfl
  · rw [takeParameters_none hj, takeParameters_none hj]
    exact ⟨fun _ h => absurd h hj, fun _ => rfl⟩

/-- A client sends its cookie and the document `{"TOS":16}`, and then closes the connection. -/
def tosClient (i : Nat) : (r : Req) → r.Ans
  | .read _ n => .ok (if i < 20 then List.replicate n 0 else [])
  | .cJSON_Parse _ => some (.obj [("TOS", .int 16)])
  | r => r.quiet

/-- A client after it that sets the type of service again. -/
theorem server_parameters_isolated_covered :
    ∃ k m' g, Prog.Reach (lifeContract plainServer) (runServerLoop 9 3 0, Mem.start plainServer, .start)
        (.call .catchSigend k, m', g) ∧ g.starts = 1 ∧
      (takeParameters (.obj [("TOS", .int 0)]) m'.test).map IperfTest.params =
        (takeParameters (.obj [("TOS", .int 0)]) plainServer).map IperfTest.params := by
  have hreach := Prog.drive_reach (lifeContract plainServer) tosClient 91 0
    (runServerLoop 9 3 0, Mem.start plainServer, .start)
  have hparse : iperfParseArguments mainTest [.server] = .ok plainServer := rfl
  refine ⟨_, _, _, hreach, rfl, (server_parameters_isolated_iff hparse rfl rfl hreach _).2 fun _ => ?_⟩
  exact ⟨.inr rfl, .inr rfl, .inl (by decide), .inr rfl⟩

/-- A client that says nothing about the type of service gets that of the client before it. -/
theorem type_of_service_left_behind :
    iperfParseArguments mainTest [.server] = .ok plainServer ∧
    ∃ k m' g, Prog.Reach (lifeContract plainServer) (runServerLoop 9 3 0, Mem.start plainServer, .start)
        (.call .catchSigend k, m', g) ∧ g.starts = 1 ∧
      (takeParameters (.obj []) m'.test).map (·.settings.tos) = some 16 ∧
      (takeParameters (.obj []) plainServer).map (·.settings.tos) = some 0 :=
  ⟨rfl, _, _, _, Prog.drive_reach (lifeContract plainServer) tosClient 91 0 _, rfl, rfl, rfl⟩

end Iperf
