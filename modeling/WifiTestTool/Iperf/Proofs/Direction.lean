import WifiTestTool.Lib.Events
import WifiTestTool.Iperf.Proofs.Options
import WifiTestTool.Iperf.Proofs.ParamsProofs

/-!
# The direction of a test (`sender`)

`sender` is what the role and the flag `reverse` say: the client sends unless the test is reversed.
`iperf_set_test_role` sets it so, while `iperf_set_test_reverse` turns it over, whatever it was. The two agree as
long as a test with a role is reversed once at most.
-/

namespace Iperf

open Events

/-- The calls that set the role, the direction or the protocol of a test. -/
inductive SetCall where
  /-- `iperf_set_test_role` -/
  | role (r : Role)
  /-- `iperf_set_test_reverse` -/
  | reverse (reverse : Int)
  /-- `set_protocol` -/
  | protocol (prot : ProtId)
  /-- `get_parameters`, with the document that it has read -/
  | parameters (j : Json)
  /-- `iperf_reset_test` -/
  | reset
  /-- An option, in the loop of `iperf_parse_arguments` -/
  | option (o : Opt)

/-- The test after a call. There is none when no role is given, when a string of the document is missing, or
when the option is refused. -/
def setStep (t : IperfTest) : SetCall → Option (IperfTest × Unit)
  | .role r => if r = .unset then none else some (iperfSetTestRole r t, ())
  | .reverse reverse => some (iperfSetTestReverse reverse t, ())
  | .protocol prot => some (setProtocol prot t, ())
  | .parameters j => (takeParameters j t).map fun t' => (t', ())
  | .reset => some (resetFields t, ())
  | .option o =>
    match parseOpt (parseStart t) o with
    | .ok p => some (p.test, ())
    | .error _ => none

/-- Once there is a role, `sender` says what it and `reverse` say. -/
def Consistent (t : IperfTest) : Prop :=
  t.role ≠ .unset →
    (t.sender = true ↔ (t.role = .client ∧ t.reverse = 0) ∨ (t.role = .server ∧ t.reverse ≠ 0))

/-- The calls that set `reverse` in a test: they turn `sender` over, unless it is set to 0. -/
def SetCall.setsReverse : SetCall → Prop
  | .reverse _ => True
  | .parameters j => (cJSON_GetObjectItem j "reverse").isSome
  | .option o => o = .reverse
  | _ => False

/-- A call that sets `reverse` finds a test without a role or one that is not reversed. -/
def ReversedOnce (t : IperfTest) (c : SetCall) : Prop :=
  c.setsReverse → t.role ≠ .unset → t.reverse = 0

/-- `iperf_set_test_role` makes the test consistent. -/
theorem consistent_setRole (r : Role) (t : IperfTest) : Consistent (iperfSetTestRole r t) := by
  intro hr
  change r ≠ .unset at hr
  change (if t.reverse ≠ 0 then !roleSender r t.sender else roleSender r t.sender) = true ↔
    (r = .client ∧ t.reverse = 0) ∨ (r = .server ∧ t.reverse ≠ 0)
  cases r with
  | unset => exact absurd rfl hr
  | client => by_cases h : t.reverse = 0 <;> simp [h, roleSender]
  | server => by_cases h : t.reverse = 0 <;> simp [h, roleSender]

/-- `iperf_set_test_reverse` keeps a test with a role consistent exactly if the test was not reversed. -/
theorem consistent_setReverse (reverse : Int) {t : IperfTest} (h : Consistent t) :
    Consistent (iperfSetTestReverse reverse t) ↔ (t.role ≠ .unset → t.reverse = 0) := by
  have hrole : (iperfSetTestReverse reverse t).role = t.role := rfl
  have hreverse : (iperfSetTestReverse reverse t).reverse = reverse := rfl
  have hsender : (iperfSetTestReverse reverse t).sender = if reverse ≠ 0 then !t.sender else t.sender := rfl
  unfold Consistent at h ⊢
  rw [hrole, hreverse, hsender]
  cases hr : t.role with
  | unset => simp
  | client =>
    have ht := h (by simp [hr])
    by_cases h0 : t.reverse = 0 <;> by_cases h1 : reverse = 0 <;> simp_all
  | server =>
    have ht := h (by simp [hr])
    by_cases h0 : t.reverse = 0 <;> by_cases h1 : reverse = 0 <;> simp_all

/-- What changes neither the role nor `sender` nor `reverse` keeps a test consistent. -/
theorem consistent_congr {t t' : IperfTest} (hrole : t'.role = t.role) (hsender : t'.sender = t.sender)
    (hreverse : t'.reverse = t.reverse) : Consistent t' ↔ Consistent t := by
  unfold Consistent
  rw [hrole, hsender, hreverse]

theorem onString_role {j : Json} {name : String} {f : String → IperfTest → IperfTest} {t t' : IperfTest}
    (h : onString j name f t = some t') (hf : ∀ s t, (f s t).role = t.role) : t'.role = t.role := by
  unfold onString at h
  cases hp : cJSON_GetObjectItem j name with
  | none =>
    rw [hp] at h
    cases h
    rfl
  | some p =>
    simp only [hp, Option.map_eq_some_iff] at h
    obtain ⟨s, -, rfl⟩ := h
    exact hf s t

/-- `get_parameters` leaves the role as it is. -/
theorem takeParameters_role {j : Json} {t t' : IperfTest} (h : takeParameters j t = some t') :
    t'.role = t.role := by
  simp only [takeParameters, Option.bind_eq_bind, Option.bind_eq_some_iff] at h
  obtain ⟨t₁, h₁, t₂, h₂, h₃⟩ := h
  have hread : (readItems j parameterReaders t).role = t.role :=
    apply_readItems IperfTest.role j (by simp [parameterReaders, onSettings, setProtocol, iperfSetTestReverse,
      checkSenderHasRetransmits]) t
  have hlast : t'.role = t₂.role := by
    split_ifs at h₃ <;> cases h₃ <;> rfl
  rw [hlast, onString_role h₂ fun _ _ => rfl, onString_role h₁ fun _ _ => rfl, hread]

/-- `get_parameters` keeps a test with a role consistent exactly if the test was not reversed or the document
does not reverse it. -/
theorem consistent_takeParameters {j : Json} {t t' : IperfTest} (h : takeParameters j t = some t')
    (ht : Consistent t) : Consistent t' ↔ ReversedOnce t (.parameters j) := by
  have hstrings : StringsOk j := by
    by_contra hs
    rw [takeParameters_none hs] at h
    cases h
  obtain ⟨t₁, htake, hp⟩ := takeParameters_spec hstrings t
  rw [h] at htake
  cases htake
  have hrole := takeParameters_role h
  have hsender : t'.sender = lookupOr j "reverse" (fun _ => !t.sender) t.sender := congrArg Params.sender hp
  have hreverse : t'.reverse = lookupOr j "reverse" (fun _ => 1) t.reverse := congrArg Params.reverse hp
  unfold ReversedOnce SetCall.setsReverse
  unfold lookupOr at hsender hreverse
  cases hr : cJSON_GetObjectItem j "reverse" with
  | none =>
    rw [hr] at hsender hreverse
    rw [consistent_congr hrole hsender hreverse]
    exact iff_of_true ht (by simp [hr])
  | some p =>
    rw [hr] at hsender hreverse
    have hturn : Consistent t' ↔ Consistent (iperfSetTestReverse 1 t) :=
      consistent_congr hrole (hsender.trans rfl) hreverse
    rw [hturn, consistent_setReverse 1 ht]
    simp [hr]

/-- An option keeps a test consistent unless it reverses the test again. -/
theorem consistent_option {o : Opt} {t : IperfTest} (ht : Consistent t) :
    Consistent (o.update (parseStart t)).test ↔ ReversedOnce t (.option o) := by
  have hsettings : Consistent (o.update (parseStart t)).test ↔ Consistent (o.setTest t) :=
    consistent_congr rfl rfl rfl
  rw [hsettings]
  unfold ReversedOnce SetCall.setsReverse
  cases o with
  | reverse =>
    rw [show Opt.reverse.setTest t = iperfSetTestReverse 1 t from rfl, consistent_setReverse 1 ht]
    simp
  | server => exact iff_of_true (consistent_setRole .server t) (by simp)
  | client host => exact iff_of_true (consistent_setRole .client t) (by simp)
  | _ => exact iff_of_true ht (by simp)

/-- **One call** keeps a test consistent exactly if it does not reverse it a second time. -/
theorem consistent_step {t t' : IperfTest} {c : SetCall} {o : Unit} (ht : Consistent t)
    (h : setStep t c = some (t', o)) : Consistent t' ↔ ReversedOnce t c := by
  cases c with
  | role r =>
    simp only [setStep] at h
    split_ifs at h
    cases h
    exact iff_of_true (consistent_setRole r t) (by simp [ReversedOnce, SetCall.setsReverse])
  | reverse reverse =>
    cases h
    rw [consistent_setReverse reverse ht]
    simp [ReversedOnce, SetCall.setsReverse]
  | protocol prot =>
    cases h
    exact iff_of_true ht (by simp [ReversedOnce, SetCall.setsReverse])
  | parameters j =>
    simp only [setStep, Option.map_eq_some_iff] at h
    obtain ⟨t₁, htake, heq⟩ := h
    cases heq
    exact consistent_takeParameters htake ht
  | reset =>
    cases h
    refine iff_of_true ?_ (by simp [ReversedOnce, SetCall.setsReverse])
    intro _
    change false = true ↔ (Role.server = .client ∧ (0 : Int) = 0) ∨ (Role.server = .server ∧ (0 : Int) ≠ 0)
    simp
  | option opt =>
    simp only [setStep] at h
    cases hp : parseOpt (parseStart t) opt with
    | error e =>
      rw [hp] at h
      cases h
    | ok p =>
      rw [hp] at h
      cases h
      rw [(parseOpt_ok hp).2]
      exact consistent_option ht

/-- A test that `iperf_new_test` and `iperf_defaults` have made, or any test without a role to which
`iperf_defaults` is applied. -/
def AfterDefaults (t : IperfTest) : Prop := ∃ t₀, t₀.role = .unset ∧ t = iperfDefaults t₀

/-- **When the direction is consistent.** In a run of the calls, `sender` says in every state what the role and
`reverse` say exactly if no call sets `reverse` in a test that has a role and is reversed already. -/
theorem direction_consistent_iff {steps : List (Taken IperfTest SetCall Unit)} {t : IperfTest}
    (h : Run setStep AfterDefaults steps t) :
    (∀ s ∈ steps, Consistent s.after) ↔ ∀ s ∈ steps, ReversedOnce s.before s.event := by
  refine Run.forall_after_iff ?_ (fun t c t' o => consistent_step) h
  rintro t ⟨t₀, hrole, rfl⟩ hr
  exact absurd hrole hr

/-- The test of `iperf3 -c h`. -/
def clientTest : IperfTest :=
  { iperfSetTestRole .client (iperfDefaults iperfNewTest) with serverHostname := some "h" }

/-- The run for the options of `iperf3 -c h -R`. -/
theorem run_reverse : Run setStep AfterDefaults
    [⟨iperfDefaults iperfNewTest, .option (.client "h"), (), clientTest⟩,
      ⟨clientTest, .option .reverse, (), iperfSetTestReverse 1 clientTest⟩] (iperfSetTestReverse 1 clientTest) := by
  have hstart : Run setStep AfterDefaults [] (iperfDefaults iperfNewTest) := .start ⟨iperfNewTest, rfl, rfl⟩
  have hclient : setStep (iperfDefaults iperfNewTest) (.option (.client "h")) = some (clientTest, ()) := rfl
  have hreverse : setStep clientTest (.option .reverse) = some (iperfSetTestReverse 1 clientTest, ()) := rfl
  exact (hstart.next hclient).next hreverse

/-- `iperf3 -c h -R` -/
theorem direction_consistent_reverse :
    Consistent clientTest ∧ Consistent (iperfSetTestReverse 1 clientTest) := by
  have hall := (direction_consistent_iff run_reverse).2 (by
    intro s hs _ _
    simp only [List.mem_cons, List.not_mem_nil, or_false] at hs
    rcases hs with rfl | rfl <;> rfl)
  exact ⟨hall _ List.mem_cons_self, hall _ (List.mem_cons_of_mem _ List.mem_cons_self)⟩

/-- After `iperf3 -c h -R -R` the test is reversed, and the client is the sender. -/
theorem reversed_twice : ¬ ∀ (steps : List (Taken IperfTest SetCall Unit)) (t : IperfTest),
    Run setStep AfterDefaults steps t → Consistent t := by
  intro h
  have hagain : setStep (iperfSetTestReverse 1 clientTest) (.option .reverse) =
      some (iperfSetTestReverse 1 (iperfSetTestReverse 1 clientTest), ()) := rfl
  have hconsistent := h _ _ (run_reverse.next hagain) (by decide)
  exact absurd hconsistent (by decide)

end Iperf
