import WifiTestTool.Iperf.Proofs.ParamsProofs

/-!
# The exchange of the parameters is faithful

What `send_parameters` writes, `get_parameters` of a fresh server reads: zero is sent as absence and
read as the default, which is zero.
-/

namespace Iperf

/-! ## Looking up what was added -/

/-- The items of `send_parameters` by name; an item that is not added has no value. -/
def parameterSlots (t : IperfTest) : List (String × Option Json) := [
  ("tcp", if t.protocol = .tcp then some Json.true else none),
  ("udp", if t.protocol = .udp then some Json.true else none),
  ("sctp", if t.protocol = .sctp then some Json.true else none),
  ("omit", some (.int t.omitTime)),
  ("server_affinity", if t.serverAffinity ≠ -1 then some (.int t.serverAffinity) else none),
  ("time", if t.duration ≠ 0 then some (.int t.duration) else none),
  ("num", if t.settings.bytes ≠ 0 then some (.int (toInt64 t.settings.bytes)) else none),
  ("blockcount", if t.settings.blocks ≠ 0 then some (.int t.settings.blocks) else none),
  ("MSS", if t.settings.mss ≠ 0 then some (.int t.settings.mss) else none),
  ("nodelay", if t.noDelay ≠ 0 then some Json.true else none),
  ("parallel", some (.int t.numStreams)),
  ("reverse", if t.reverse ≠ 0 then some Json.true else none),
  ("window", if t.settings.socketBufsize ≠ 0 then some (.int t.settings.socketBufsize) else none),
  ("len", if t.settings.blksize ≠ 0 then some (.int t.settings.blksize) else none),
  ("bandwidth", if t.settings.rate ≠ 0 then some (.int (toInt64 t.settings.rate)) else none),
  ("burst", if t.settings.burst ≠ 0 then some (.int t.settings.burst) else none),
  ("TOS", if t.settings.tos ≠ 0 then some (.int t.settings.tos) else none),
  ("flowlabel", if t.settings.flowlabel ≠ 0 then some (.int t.settings.flowlabel) else none),
  ("title", t.title.map .str),
  ("congestion", t.congestion.map .str)]

/-- The items that have a value. -/
def filled (slots : List (String × Option Json)) : List (String × Json) :=
  slots.filterMap fun s => s.2.map fun v => (s.1, v)

theorem filled_append (l₁ l₂ : List (String × Option Json)) :
    filled (l₁ ++ l₂) = filled l₁ ++ filled l₂ := List.filterMap_append

theorem filled_ite (c : Prop) [Decidable c] (name : String) (v : Json) :
    filled [(name, if c then some v else none)] = item c name v := by
  by_cases h : c <;> simp [filled, item, h]

theorem filled_string (name : String) (s : Option String) :
    filled [(name, s.map .str)] = stringItem name s := by
  cases s <;> rfl

theorem filled_some (name : String) (v : Json) : filled [(name, some v)] = [(name, v)] := rfl

theorem parameterItems_eq (t : IperfTest) : parameterItems t = filled (parameterSlots t) := by
  have hprot : filled [("tcp", if t.protocol = .tcp then some Json.true else none),
      ("udp", if t.protocol = .udp then some Json.true else none),
      ("sctp", if t.protocol = .sctp then some Json.true else none)] =
      [(protocolKey t.protocol, Json.true)] := by
    cases t.protocol <;> rfl
  have hslots : parameterSlots t = (parameterSlots t).take 3 ++ (parameterSlots t).drop 3 := rfl
  rw [hslots, filled_append, show (parameterSlots t).take 3 = [_, _, _] from rfl, hprot]
  unfold parameterItems
  simp only [← filled_ite, ← filled_string, ← filled_append, ← filled_some, List.append_assoc]
  rfl

/-- Two names are the same name when the case of letters is ignored. -/
theorem strcasecmpEq_trans {a b c : String} (h : strcasecmpEq a c = true)
    (h' : strcasecmpEq b c = true) : strcasecmpEq a b = true := by
  simp only [strcasecmpEq, beq_iff_eq] at *
  rw [h, h']

/-- When the names are distinct, the first item of a name is the one added under it. -/
theorem find_filled {slots : List (String × Option Json)} {name : String}
    (hd : (slots.map Prod.fst).Pairwise fun a b => strcasecmpEq a b = false) :
    ((filled slots).find? fun kv => strcasecmpEq kv.1 name).map Prod.snd =
      (slots.find? fun s => strcasecmpEq s.1 name).bind Prod.snd := by
  induction slots with
  | nil => rfl
  | cons s slots ih =>
    obtain ⟨key, v⟩ := s
    simp only [List.map_cons, List.pairwise_cons] at hd
    have ih := ih hd.2
    cases hk : strcasecmpEq key name with
    | false =>
      cases v <;> simp [filled, hk] at ih ⊢ <;> exact ih
    | true =>
      -- No later slot has this name, so nothing else can be found under it.
      have hnone : (slots.find? fun s => strcasecmpEq s.1 name) = none := by
        rw [List.find?_eq_none]
        intro s hs h
        have := hd.1 s.1 (List.mem_map.2 ⟨s, hs, rfl⟩)
        rw [strcasecmpEq_trans hk h] at this
        cases this
      cases v with
      | none =>
        rw [hnone] at ih
        simpa [filled, hk] using ih
      | some v => simp [filled, hk]

theorem parameterSlots_distinct (t : IperfTest) :
    ((parameterSlots t).map Prod.fst).Pairwise fun a b => strcasecmpEq a b = false := by
  have hkeys : (parameterSlots t).map Prod.fst = ["tcp", "udp", "sctp", "omit", "server_affinity",
      "time", "num", "blockcount", "MSS", "nodelay", "parallel", "reverse", "window", "len",
      "bandwidth", "burst", "TOS", "flowlabel", "title", "congestion"] := rfl
  rw [hkeys]
  decide

/-- Looking up a name in the document of `send_parameters` finds the value of its slot. -/
theorem lookup_slot (t : IperfTest) (i : Nat) {name : String} {v : Option Json}
    (hi : (parameterSlots t)[i]? = some (name, v)) :
    cJSON_GetObjectItem (parameterDoc t) name = v := by
  have hd := parameterSlots_distinct t
  have hfind : (parameterSlots t).find? (fun s => strcasecmpEq s.1 name) = some (name, v) := by
    refine List.find?_eq_some_iff_getElem.2 ⟨by simp [strcasecmpEq], i, ?_⟩
    obtain ⟨hlt, hget⟩ := List.getElem?_eq_some_iff.1 hi
    refine ⟨hlt, hget, fun k hk => ?_⟩
    have := List.pairwise_iff_getElem.1 hd k i (by simpa using hk.trans hlt) (by simpa using hlt) hk
    simp only [List.getElem_map, hget] at this
    simp [this]
  rw [parameterDoc, parameterItems_eq]
  exact (find_filled hd).trans (by rw [hfind]; rfl)

/-! ## Conversions that lose nothing -/

/-- The values of an `int`. -/
def IsInt (n : Int) : Prop := -2 ^ 31 ≤ n ∧ n < 2 ^ 31

instance (n : Int) : Decidable (IsInt n) := inferInstanceAs (Decidable (_ ∧ _))

theorem toInt_toInt (n : Int) : toInt (toInt n) = toInt n := Int.bmod_bmod

theorem toInt_of_isInt {n : Int} (h : IsInt n) : toInt n = n := by
  unfold IsInt at h
  exact Int.bmod_eq_of_le_mul_two (by omega) (by omega)

theorem ofInt_toInt64 {n : UInt64} (h : n.toNat < 2 ^ 63) : UInt64.ofInt (toInt64 n) = n := by
  have hb : toInt64 n = n.toNat := Int.bmod_eq_of_le_mul_two (by omega) (by omega)
  have hm : ((n.toNat : Int) % 2 ^ 64).toNat = n.toNat := by omega
  rw [hb, UInt64.ofInt, hm, UInt64.ofNat_toNat]

@[simp] theorem Json.valueint_int (n : Int) : (Json.int n).valueint = n := rfl

theorem lookupInt_some {j : Json} {name : String} {n d : Int}
    (h : cJSON_GetObjectItem j name = some (.int n)) : lookupInt j name d = toInt n := by
  simp [lookupInt, lookupOr, h]

theorem lookupInt_none {j : Json} {name : String} {d : Int}
    (h : cJSON_GetObjectItem j name = none) : lookupInt j name d = d := by
  simp [lookupInt, lookupOr, h]

theorem lookupSize_some {j : Json} {name : String} {n : Int} {d : UInt64}
    (h : cJSON_GetObjectItem j name = some (.int n)) : lookupSize j name d = UInt64.ofInt n := by
  simp [lookupSize, lookupOr, h]

theorem lookupSize_none {j : Json} {name : String} {d : UInt64}
    (h : cJSON_GetObjectItem j name = none) : lookupSize j name d = d := by
  simp [lookupSize, lookupOr, h]

/-- An `int` that is always sent. -/
theorem lookupInt_sent {j : Json} {name : String} {n d : Int} (hn : IsInt n)
    (h : cJSON_GetObjectItem j name = some (.int n)) : lookupInt j name d = n := by
  rw [lookupInt_some h, toInt_of_isInt hn]

/-- An `int` that is sent unless it has the value `d`. -/
theorem lookupInt_unless {j : Json} {name : String} {n d : Int} (e : Int) (hn : IsInt n)
    (h : cJSON_GetObjectItem j name = if n ≠ d then some (.int n) else none) :
    lookupInt j name e = if n = d then e else n := by
  by_cases hd : n = d
  · rw [lookupInt_none (by rw [h, if_neg (not_not.2 hd)]), if_pos hd]
  · rw [lookupInt_sent hn (by rw [h, if_pos hd]), if_neg hd]

/-- An `int` that is sent unless it is the default of the field that it is read into. -/
theorem lookupInt_slot {j : Json} {name : String} {n d : Int} (hn : IsInt n)
    (h : cJSON_GetObjectItem j name = if n ≠ d then some (.int n) else none) :
    lookupInt j name d = n := by
  rw [lookupInt_unless d hn h]
  exact ite_eq_right_iff.2 Eq.symm

/-- The same for a `uint64_t`. -/
theorem lookupSize_slot {j : Json} {name : String} {n : UInt64} (hn : n.toNat < 2 ^ 63)
    (h : cJSON_GetObjectItem j name = if n ≠ 0 then some (.int (toInt64 n)) else none) :
    lookupSize j name 0 = n := by
  by_cases h0 : n = 0
  · rw [lookupSize_none (by rw [h, if_neg (not_not.2 h0)]), h0]
  · rw [lookupSize_some (by rw [h, if_pos h0]), ofInt_toInt64 hn]

/-- A flag that is sent as nothing when it is zero. -/
theorem lookupFlag_slot {α : Type} {j : Json} {name : String} {n : Int} (a d : α)
    (h : cJSON_GetObjectItem j name = if n ≠ 0 then some Json.true else none) :
    lookupOr j name (fun _ => a) d = if n ≠ 0 then a else d := by
  unfold lookupOr
  rw [h]
  by_cases h0 : n = 0 <;> simp [h0]

/-- A string that is sent as nothing when it is `NULL`. -/
theorem lookupString_slot {j : Json} {name : String} {s : Option String}
    (h : cJSON_GetObjectItem j name = s.map .str) : lookupOr j name Json.valuestring none = s := by
  unfold lookupOr
  rw [h]
  cases s <;> rfl

/-! ## What the command line can set -/

/-- The flags `no_delay` and `reverse` of a test are 0 or 1. -/
def FlagsOk (t : IperfTest) : Prop :=
  (t.noDelay = 0 ∨ t.noDelay = 1) ∧ (t.reverse = 0 ∨ t.reverse = 1)

theorem orFail_ok {bad : Prop} [Decidable bad] {e : IErr} {p p' : ParseState}
    (h : orFail bad e p = .ok p') : p' = p := by
  unfold orFail at h
  split at h
  · cases h
  · cases h; rfl

@[simp] theorem ParseState.onTest_test (p : ParseState) (f : IperfTest → IperfTest) :
    (p.onTest f).test = f p.test := rfl

@[simp] theorem ParseState.onSettings_test (p : ParseState) (f : IperfSettings → IperfSettings) :
    (p.onSettings f).test = { p.test with settings := f p.test.settings } := rfl

@[simp] theorem ParseState.clientOnly_test (p : ParseState) : p.clientOnly.test = p.test := rfl

@[simp] theorem ParseState.serverOnly_test (p : ParseState) : p.serverOnly.test = p.test := rfl

/-- The flags do not depend on the settings. -/
theorem flagsOk_settings {t : IperfTest} {s : IperfSettings} :
    FlagsOk { t with settings := s } ↔ FlagsOk t := Iff.rfl

/-- An option changes `no_delay` and `reverse` to 1 or not at all. -/
theorem parseOpt_flags {p p' : ParseState} {o : Opt} (h : parseOpt p o = .ok p')
    (hp : FlagsOk p.test) : FlagsOk p'.test := by
  cases o with
  | bandwidth rate burst =>
    cases burst with
    | none => cases h; exact flagsOk_settings.2 hp
    | some n => rw [orFail_ok h]; exact flagsOk_settings.2 hp
  | affinity n server =>
    cases server with
    | none => rw [orFail_ok h]; exact ⟨hp.1, hp.2⟩
    | some m => rw [orFail_ok h]; exact ⟨hp.1, hp.2⟩
  | noDelay => cases h; exact ⟨.inr rfl, hp.2⟩
  | reverse => cases h; exact ⟨hp.1, .inr rfl⟩
  | version => cases h
  | help => cases h
  | format | bytes | blockcount | version4 | version6 | tos => cases h; exact flagsOk_settings.2 hp
  | window | setMss | flowlabel => rw [orFail_ok h]; exact flagsOk_settings.2 hp
  | port | daemon | verbose | json | udp | sctp | length | bind | zerocopy | file | title
  | linuxCongestion | pidfile | debug => cases h; exact ⟨hp.1, hp.2⟩
  | interval | server | client | time | parallel | omitTime => rw [orFail_ok h]; exact ⟨hp.1, hp.2⟩

theorem parseOpts_flags {opts : List Opt} {p p' : ParseState} (h : parseOpts opts p = .ok p')
    (hp : FlagsOk p.test) : FlagsOk p'.test := by
  induction opts generalizing p with
  | nil => cases h; exact hp
  | cons o opts ih =>
    simp only [parseOpts] at h
    cases ho : parseOpt p o with
    | error e => rw [ho] at h; cases h
    | ok p₁ =>
      rw [ho] at h
      exact ih h (parseOpt_flags ho hp)

/-- The end of `iperf_parse_arguments`, when it succeeds. -/
theorem parseFinish_ok {p : ParseState} {t : IperfTest} (h : parseFinish p = .ok t) :
    t = p.finalTest ∧ 0 < p.finalBlksize ∧ ¬ (p.test.role = .server ∧ p.clientFlag) := by
  unfold parseFinish at h
  split at h
  · cases h
  split at h
  · cases h
  rename_i hclient
  split at h
  · cases h
  rename_i hblk
  split at h
  · cases h
  split at h
  · cases h
  cases h
  exact ⟨rfl, by omega, hclient⟩

/-- `iperf_parse_arguments`, when it succeeds. -/
theorem parseArguments_ok {t₀ t : IperfTest} {opts : List Opt}
    (h : iperfParseArguments t₀ opts = .ok t) :
    ∃ p, parseOpts opts ⟨t₀, 0, false, false, false, false⟩ = .ok p ∧ t = p.finalTest ∧
      0 < p.finalBlksize ∧ ¬ (p.test.role = .server ∧ p.clientFlag) := by
  unfold iperfParseArguments at h
  cases hp : parseOpts opts ⟨t₀, 0, false, false, false, false⟩ with
  | error e => rw [hp] at h; cases h
  | ok p =>
    rw [hp] at h
    exact ⟨p, rfl, parseFinish_ok h⟩

/-- The flags of a test that `iperf_parse_arguments` has accepted. -/
theorem parseArguments_flags {t₀ t : IperfTest} {opts : List Opt}
    (h : iperfParseArguments t₀ opts = .ok t) (h₀ : FlagsOk t₀) : FlagsOk t := by
  obtain ⟨p, hp, rfl, -⟩ := parseArguments_ok h
  exact parseOpts_flags hp h₀

/-- The block size of a test that `iperf_parse_arguments` has accepted. -/
theorem parseArguments_blksize {t₀ t : IperfTest} {opts : List Opt}
    (h : iperfParseArguments t₀ opts = .ok t) : 0 < t.settings.blksize := by
  obtain ⟨p, -, rfl, hb, -⟩ := parseArguments_ok h
  exact hb

/-! ## The exchange -/

/-- A server that `iperf_defaults` and `iperf_set_test_role` have just set up. -/
def freshServer : IperfTest := iperfSetTestRole .server (iperfDefaults iperfNewTest)

/-- The parameters of a test are values of their types in C, and the two sizes are below `2 ^ 63`. -/
structure Params.InRange (p : Params) : Prop where
  omitTime : IsInt p.omitTime
  serverAffinity : IsInt p.serverAffinity
  duration : IsInt p.duration
  bytes : p.bytes.toNat < 2 ^ 63
  blocks : IsInt p.blocks
  mss : IsInt p.mss
  numStreams : IsInt p.numStreams
  socketBufsize : IsInt p.socketBufsize
  blksize : IsInt p.blksize
  rate : p.rate.toNat < 2 ^ 63
  burst : IsInt p.burst
  tos : IsInt p.tos
  flowlabel : IsInt p.flowlabel

/-- The server's parameters `s` are what the client's parameters `c` ask for. -/
structure Params.Faithful (c s : Params) : Prop where
  protocol : s.protocol = c.protocol
  omitTime : s.omitTime = c.omitTime
  serverAffinity : s.serverAffinity = c.serverAffinity
  duration : c.duration ≠ 0 → s.duration = c.duration
  bytes : s.bytes = c.bytes
  blocks : s.blocks = c.blocks
  mss : s.mss = c.mss
  noDelay : s.noDelay = c.noDelay
  numStreams : s.numStreams = c.numStreams
  reverse : s.reverse = c.reverse
  sender : s.sender = decide (c.reverse ≠ 0)
  socketBufsize : s.socketBufsize = c.socketBufsize
  blksize : s.blksize = c.blksize
  rate : s.rate = c.rate
  burst : s.burst = c.burst
  tos : s.tos = c.tos
  flowlabel : s.flowlabel = c.flowlabel
  title : s.title = c.title
  congestion : s.congestion = c.congestion

/-- What the client leaves out of the document, because it is zero or absent, the server has from its
own default parameters `d`. -/
structure Params.AbsentAsDefault (c s d : Params) : Prop where
  omitTime : c.omitTime = 0 → s.omitTime = d.omitTime
  serverAffinity : c.serverAffinity = -1 → s.serverAffinity = d.serverAffinity
  duration : c.duration = 0 → s.duration = d.duration
  bytes : c.bytes = 0 → s.bytes = d.bytes
  blocks : c.blocks = 0 → s.blocks = d.blocks
  mss : c.mss = 0 → s.mss = d.mss
  noDelay : c.noDelay = 0 → s.noDelay = d.noDelay
  reverse : c.reverse = 0 → s.reverse = d.reverse ∧ s.sender = d.sender
  socketBufsize : c.socketBufsize = 0 → s.socketBufsize = d.socketBufsize
  blksize : c.blksize = 0 → s.blksize = d.blksize
  rate : c.rate = 0 → s.rate = d.rate
  burst : c.burst = 0 → s.burst = d.burst
  tos : c.tos = 0 → s.tos = d.tos
  flowlabel : c.flowlabel = 0 → s.flowlabel = d.flowlabel
  title : c.title = none → s.title = d.title
  congestion : c.congestion = none → s.congestion = d.congestion

/-- The same for every value that is zero, also the two that the document holds when they are zero:
CPU 0 for the server, and no streams at all. -/
structure Params.ZeroAsDefault (c s d : Params) : Prop extends c.AbsentAsDefault s d where
  zeroAffinity : c.serverAffinity = 0 → s.serverAffinity = d.serverAffinity
  zeroStreams : c.numStreams = 0 → s.numStreams = d.numStreams

/-- The document of `send_parameters` has strings where `get_parameters` duplicates strings. -/
theorem parameterDoc_stringsOk (c : IperfTest) : StringsOk (parameterDoc c) := by
  have hstr : ∀ (s : Option String) (p : Json), s.map Json.str = some p → p.valuestring ≠ none := by
    rintro (_ | s) p hp
    · cases hp
    · cases hp; exact nofun
  intro name hname p hp
  simp only [List.mem_cons, List.not_mem_nil, or_false] at hname
  rcases hname with rfl | rfl
  · exact hstr _ p ((lookup_slot c 18 rfl).symm.trans hp)
  · exact hstr _ p ((lookup_slot c 19 rfl).symm.trans hp)

/-- The protocol is the one whose name the document has. -/
theorem lookup_protocol (c : IperfTest) (d : ProtId) :
    lookupOr (parameterDoc c) "sctp" (fun _ => ProtId.sctp) (lookupOr (parameterDoc c) "udp"
      (fun _ => .udp) (lookupOr (parameterDoc c) "tcp" (fun _ => .tcp) d)) = c.protocol := by
  unfold lookupOr
  rw [lookup_slot c 0 rfl, lookup_slot c 1 rfl, lookup_slot c 2 rfl]
  cases c.protocol <;> rfl

theorem ite_flag {n : Int} (h : n = 0 ∨ n = 1) : (if n ≠ 0 then 1 else 0) = n := by
  rcases h with rfl | rfl <;> rfl

/-- What a fresh server takes from the document of a client. -/
theorem take_parameterDoc {c : IperfTest} (hc : c.params.InRange) (hf : FlagsOk c)
    (hb : c.settings.blksize ≠ 0) :
    freshServer.params.take (parameterDoc c) =
      { c.params with
        duration := if c.duration = 0 then DURATION else c.duration
        sender := decide (c.reverse ≠ 0) } := by
  ext1 <;> dsimp only [Params.take]
  case protocol => exact lookup_protocol c _
  case omitTime => exact lookupInt_sent hc.omitTime (lookup_slot c 3 rfl)
  case serverAffinity => exact lookupInt_slot (d := -1) hc.serverAffinity (lookup_slot c 4 rfl)
  case duration => exact lookupInt_unless DURATION hc.duration (lookup_slot c 5 rfl)
  case bytes => exact lookupSize_slot hc.bytes (lookup_slot c 6 rfl)
  case blocks => exact lookupInt_slot (d := 0) hc.blocks (lookup_slot c 7 rfl)
  case mss => exact lookupInt_slot (d := 0) hc.mss (lookup_slot c 8 rfl)
  case noDelay => exact (lookupFlag_slot 1 0 (lookup_slot c 9 rfl)).trans (ite_flag hf.1)
  case numStreams => exact lookupInt_sent hc.numStreams (lookup_slot c 10 rfl)
  case reverse => exact (lookupFlag_slot 1 0 (lookup_slot c 11 rfl)).trans (ite_flag hf.2)
  case sender =>
    refine (lookupFlag_slot true false (lookup_slot c 11 rfl)).trans ?_
    by_cases h : c.reverse = 0 <;> simp [h]
  case socketBufsize => exact lookupInt_slot (d := 0) hc.socketBufsize (lookup_slot c 12 rfl)
  case blksize => exact lookupInt_sent hc.blksize ((lookup_slot c 13 rfl).trans (if_pos hb))
  case rate => exact lookupSize_slot hc.rate (lookup_slot c 14 rfl)
  case burst => exact lookupInt_slot (d := 0) hc.burst (lookup_slot c 15 rfl)
  case tos => exact lookupInt_slot (d := 0) hc.tos (lookup_slot c 16 rfl)
  case flowlabel => exact lookupInt_slot (d := 0) hc.flowlabel (lookup_slot c 17 rfl)
  case title => exact lookupString_slot (lookup_slot c 18 rfl)
  case congestion => exact lookupString_slot (lookup_slot c 19 rfl)

/-- `get_parameters` on the document of a client whose flags are flags and whose block size is set. -/
theorem exchange_params {c : IperfTest} (hc : c.params.InRange) (hf : FlagsOk c)
    (hb : c.settings.blksize ≠ 0) :
    ∃ s, takeParameters (parameterDoc c) freshServer = some s ∧ s.params = { c.params with
      duration := if c.duration = 0 then DURATION else c.duration
      sender := decide (c.reverse ≠ 0) } := by
  obtain ⟨s, hs, hp⟩ := takeParameters_spec (parameterDoc_stringsOk c) freshServer
  exact ⟨s, hs, hp.trans (take_parameterDoc hc hf hb)⟩

/-- The exchange of the parameters is faithful: the server has what the client's command line asks
for, and its own defaults where the client left something out. -/
theorem parameter_exchange_faithful {opts : List Opt} {c : IperfTest}
    (h : iperfParseArguments mainTest opts = .ok c) (hc : c.params.InRange) :
    ∃ s, takeParameters (parameterDoc c) freshServer = some s ∧ c.params.Faithful s.params ∧
      c.params.AbsentAsDefault s.params freshServer.params := by
  have hb := parseArguments_blksize h
  obtain ⟨s, hs, hp⟩ := exchange_params hc
    (parseArguments_flags h ⟨.inl rfl, .inl rfl⟩) (by omega)
  refine ⟨s, hs, ?_, ?_⟩
  · rw [hp]
    exact { protocol := rfl, omitTime := rfl, serverAffinity := rfl, duration := fun h => if_neg h, bytes := rfl,
            blocks := rfl, mss := rfl, noDelay := rfl, numStreams := rfl, reverse := rfl,
            sender := rfl, socketBufsize := rfl, blksize := rfl, rate := rfl, burst := rfl,
            tos := rfl, flowlabel := rfl, title := rfl, congestion := rfl }
  · rw [hp]
    exact { omitTime := id, serverAffinity := id, duration := fun h => if_pos h, bytes := id, blocks := id,
            mss := id, noDelay := id, reverse := fun h => ⟨h, decide_eq_false (not_not.2 h)⟩,
            socketBufsize := id, blksize := fun h => absurd h hb.ne', rate := id, burst := id,
            tos := id, flowlabel := id, title := id, congestion := id }

/-- `iperf3 -c h -R -n 1000 -P 4 -T x`: a reverse test of 1000 bytes over four streams. -/
theorem parameter_exchange_faithful_reverse :
    ∃ c, iperfParseArguments mainTest
        [.client "h", .reverse, .bytes 1000, .parallel 4, .title "x"] = .ok c ∧
      c.params.InRange ∧ c.duration = 0 ∧
      ∃ s, takeParameters (parameterDoc c) freshServer = some s ∧ c.params.Faithful s.params ∧
        c.params.AbsentAsDefault s.params freshServer.params := by
  have hparse : iperfParseArguments mainTest
      [.client "h", .reverse, .bytes 1000, .parallel 4, .title "x"] = .ok _ := rfl
  refine ⟨_, hparse, ?_, rfl, parameter_exchange_faithful hparse ?_⟩
  · constructor <;> decide
  · constructor <;> decide

/-- The client of `iperf3 -c h -A 0,0 -P 0`. -/
def zeroClient : IperfTest :=
  { iperfSetTestRole .client mainTest with
    serverHostname := some "h", affinity := 0, serverAffinity := 0, numStreams := 0 }

/-- CPU 0 for the server and no streams at all are zero, and the server is told so. -/
theorem zero_affinity_not_default :
    iperfParseArguments mainTest [.client "h", .affinity 0 (some 0), .parallel 0] = .ok zeroClient ∧
      zeroClient.params.InRange ∧
      ∃ s, takeParameters (parameterDoc zeroClient) freshServer = some s ∧
        s.serverAffinity = 0 ∧ s.numStreams = 0 ∧
        ¬ zeroClient.params.ZeroAsDefault s.params freshServer.params := by
  have hrange : zeroClient.params.InRange := by constructor <;> decide
  obtain ⟨s, hs, hp⟩ := exchange_params hrange ⟨.inl rfl, .inl rfl⟩ (by decide)
  have ha : s.params.serverAffinity = 0 := by rw [hp]; rfl
  have hn : s.params.numStreams = 0 := by rw [hp]; rfl
  refine ⟨rfl, hrange, s, hs, ha, hn, fun hz => ?_⟩
  have hd : s.params.serverAffinity = -1 := hz.zeroAffinity rfl
  rw [ha] at hd
  cases hd

end Iperf
