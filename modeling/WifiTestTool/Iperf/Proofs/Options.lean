import WifiTestTool.Iperf.Params
import WifiTestTool.Lib.Updates

/-!
# The options as updates (`iperf_parse_arguments`)

What an option does to the variables of `iperf_parse_arguments` is an update: it is accepted or not, and an
accepted option sets some settings, some other fields of the test and some of the local variables. From this
follow the two properties of lists of options that a user relies on: which value of a repeated option counts,
and that options can be given in any order.
-/

namespace Iperf

/-! ## What an option does -/

/-- The letter of an option in the option string; `--sctp` has none. -/
def Opt.letter : Opt → String
  | .port _ => "p"
  | .format _ => "f"
  | .interval _ => "i"
  | .daemon => "D"
  | .verbose => "V"
  | .json => "J"
  | .version => "v"
  | .server => "s"
  | .client _ => "c"
  | .udp => "u"
  | .sctp => "sctp"
  | .bandwidth _ _ => "b"
  | .time _ => "t"
  | .bytes _ => "n"
  | .blockcount _ => "k"
  | .length _ => "l"
  | .parallel _ => "P"
  | .reverse => "R"
  | .window _ => "w"
  | .bind _ => "B"
  | .setMss _ => "M"
  | .noDelay => "N"
  | .version4 => "4"
  | .version6 => "6"
  | .tos _ => "S"
  | .flowlabel _ => "L"
  | .zerocopy => "Z"
  | .omitTime _ => "O"
  | .file _ => "F"
  | .affinity _ _ => "A"
  | .title _ => "T"
  | .linuxCongestion _ => "C"
  | .pidfile _ => "I"
  | .debug => "d"
  | .help => "h"

/-- The options that `iperf_parse_arguments` does not go on after, when the role is `role`. -/
def Opt.Refused (role : Role) : Opt → Prop
  | .interval q => (q < MIN_INTERVAL ∨ q > MAX_INTERVAL) ∧ q ≠ 0
  | .version => True
  | .server => role = .client
  | .client _ => role = .server
  | .bandwidth _ (some n) => n ≤ 0 ∨ n > MAX_BURST
  | .time n => n > MAX_TIME
  | .parallel n => n > MAX_STREAMS
  | .window n => n > MAX_TCP_BUFFER
  | .setMss n => n > MAX_MSS
  | .flowlabel n => n < 1 ∨ n > 0xfffff
  | .omitTime n => n < 0 ∨ n > 60
  | .affinity n none => n < 0 ∨ n > 1024
  | .affinity n (some m) => (n < 0 ∨ n > 1024) ∨ m < 0 ∨ m > 1024
  | .help => True
  | _ => False

instance (role : Role) (o : Opt) : Decidable (o.Refused role) := by
  cases o with
  | bandwidth rate burst => cases burst <;> unfold Opt.Refused <;> infer_instance
  | affinity n server => cases server <;> unfold Opt.Refused <;> infer_instance
  | _ => unfold Opt.Refused; infer_instance

/-- What an option sets among the settings, the number of blocks apart. -/
def Opt.set : Opt → IperfSettings → IperfSettings
  | .format c => fun s => { s with unitFormat := c }
  | .bandwidth rate burst => fun s => { s with rate := rate, burst := burst.getD s.burst }
  | .bytes n => fun s => { s with bytes := n }
  | .window n => fun s => { s with socketBufsize := n }
  | .setMss n => fun s => { s with mss := n }
  | .version4 => fun s => { s with domain := .inet }
  | .version6 => fun s => { s with domain := .inet6 }
  | .tos n => fun s => { s with tos := n }
  | .flowlabel n => fun s => { s with flowlabel := n }
  | _ => id

/-- What an option sets among the other fields of the test. -/
def Opt.setTest : Opt → IperfTest → IperfTest
  | .port n => fun t => { t with serverPort := n }
  | .interval q => fun t => { t with statsInterval := q, reporterInterval := q }
  | .daemon => fun t => { t with daemon := true }
  | .verbose => fun t => { t with verbose := true }
  | .json => fun t => { t with jsonOutput := true }
  | .server => iperfSetTestRole .server
  | .client host => fun t => { iperfSetTestRole .client t with serverHostname := some host }
  | .udp => setProtocol .udp
  | .sctp => setProtocol .sctp
  | .time n => fun t => { t with duration := n }
  | .parallel n => fun t => { t with numStreams := n }
  | .reverse => iperfSetTestReverse 1
  | .bind host => fun t => { t with bindAddress := some host }
  | .noDelay => fun t => { t with noDelay := 1 }
  | .zerocopy => fun t => { t with zerocopy := true }
  | .omitTime n => fun t => { t with omitTime := n }
  | .file name => fun t => { t with diskfileName := some name }
  | .affinity n m => fun t => { t with affinity := n, serverAffinity := m.getD t.serverAffinity }
  | .title s => fun t => { t with title := some s }
  | .linuxCongestion s => fun t => { t with congestion := some s }
  | .pidfile name => fun t => { t with pidfile := some name }
  | .debug => fun t => { t with debug := true }
  | _ => id

/-- The number of blocks that an option asks for: what `unit_atoi` makes of its argument. -/
def Opt.givenBlocks : Opt → Option UInt64
  | .blockcount n => some n
  | _ => none

/-- The block size that an option asks for: what `unit_atoi` makes of its argument. -/
def Opt.givenBlksize : Opt → Option UInt64
  | .length n => some n
  | _ => none

/-- The number of blocks after an option, when it was `b` before it. -/
def Opt.setBlocks (o : Opt) (b : Int) : Int := (o.givenBlocks.map fun n => toInt n.toNat).getD b

/-- The settings `s` with another number of blocks. -/
def IperfSettings.withBlocks (b : Int) (s : IperfSettings) : IperfSettings := { s with blocks := b }

/-- The settings after an accepted option. -/
def Opt.setSettings (o : Opt) (s : IperfSettings) : IperfSettings :=
  (o.set s).withBlocks (o.setBlocks s.blocks)

/-- The variable `blksize` after an option, when it was `b` before it. -/
def Opt.setBlksize (o : Opt) (b : Int) : Int := (o.givenBlksize.map fun n => toInt n.toNat).getD b

/-- The options that set `server_flag`. -/
def Opt.serverOnly : Opt → Bool
  | .daemon | .pidfile _ => true
  | _ => false

/-- The options that set `client_flag`. -/
def Opt.clientOnly : Opt → Bool
  | .udp | .sctp | .bandwidth _ _ | .time _ | .bytes _ | .blockcount _ | .length _ | .parallel _ | .reverse
  | .window _ | .setMss _ | .noDelay | .tos _ | .flowlabel _ | .zerocopy | .omitTime _ | .affinity _ (some _)
  | .title _ | .linuxCongestion _ => true
  | _ => false

/-- `-b` sets `rate_flag`. -/
def Opt.setsRate : Opt → Bool
  | .bandwidth _ _ => true
  | _ => false

/-- `-t` sets `duration_flag`. -/
def Opt.setsDuration : Opt → Bool
  | .time _ => true
  | _ => false

/-- The variables after an accepted option. -/
def Opt.update (o : Opt) (p : ParseState) : ParseState where
  test := onSettings o.setSettings (o.setTest p.test)
  blksize := o.setBlksize p.blksize
  serverFlag := o.serverOnly || p.serverFlag
  clientFlag := o.clientOnly || p.clientFlag
  rateFlag := o.setsRate || p.rateFlag
  durationFlag := o.setsDuration || p.durationFlag

/-- An option as an update that may fail. -/
def optStep (p : ParseState) (o : Opt) : Option ParseState :=
  if o.Refused p.test.role then none else some (o.update p)

theorem toOption_orFail (bad : Prop) [Decidable bad] (e : IErr) (p : ParseState) :
    (orFail bad e p).toOption = if bad then none else some p := by
  unfold orFail
  split_ifs <;> rfl

/-- An option that is always accepted. -/
theorem toOption_accepted {p : ParseState} {o : Opt} (h : parseOpt p o = .ok (o.update p))
    (hr : ¬ o.Refused p.test.role) : (parseOpt p o).toOption = optStep p o := by
  rw [h]
  simp only [optStep, hr]
  rfl

/-- **One pass through the loop is an update.** -/
theorem toOption_parseOpt (p : ParseState) (o : Opt) : (parseOpt p o).toOption = optStep p o := by
  cases o with
  | interval q => exact toOption_orFail _ _ _
  | server => exact toOption_orFail _ _ _
  | client host => exact toOption_orFail _ _ _
  | bandwidth rate burst =>
    cases burst with
    | none => exact toOption_accepted rfl id
    | some n => exact toOption_orFail _ _ _
  | time n => exact toOption_orFail _ _ _
  | parallel n => exact toOption_orFail _ _ _
  | window n => exact toOption_orFail _ _ _
  | setMss n => exact toOption_orFail _ _ _
  | flowlabel n => exact toOption_orFail _ _ _
  | omitTime n => exact toOption_orFail _ _ _
  | affinity n server =>
    cases server with
    | none => exact toOption_orFail _ _ _
    | some m => exact toOption_orFail _ _ _
  | version => exact (if_pos trivial).symm
  | help => exact (if_pos trivial).symm
  | blockcount n =>
    refine toOption_accepted ?_ id
    have hblocks : ∀ b, (Opt.blockcount n).setBlocks b = toInt n.toNat := by
      intro b
      rw [Opt.setBlocks, Opt.givenBlocks, Option.map_some, Option.getD_some]
    have hset : (Opt.blockcount n).setSettings = IperfSettings.withBlocks (toInt n.toNat) := by
      funext s
      rw [Opt.setSettings, hblocks]
      rfl
    rw [parseOpt, Opt.update, hset]
    generalize toInt n.toNat = blocks
    rfl
  | length n =>
    refine toOption_accepted ?_ id
    have hset : (Opt.length n).setBlksize p.blksize = toInt n.toNat := by
      rw [Opt.setBlksize, Opt.givenBlksize, Option.map_some, Option.getD_some]
    rw [parseOpt, Opt.update, hset]
    generalize toInt n.toNat = blksize
    rfl
  | _ => exact toOption_accepted rfl id

theorem optStep_some {p p' : ParseState} {o : Opt} (h : optStep p o = some p') :
    ¬ o.Refused p.test.role ∧ p' = o.update p := by
  unfold optStep at h
  split_ifs at h with hr
  cases h
  exact ⟨hr, rfl⟩

/-- An option that is accepted. -/
theorem parseOpt_ok {p p' : ParseState} {o : Opt} (h : parseOpt p o = .ok p') :
    ¬ o.Refused p.test.role ∧ p' = o.update p := by
  refine optStep_some ?_
  rw [← toOption_parseOpt, h]
  rfl

/-- The variables before the first option. -/
def parseStart (t : IperfTest) : ParseState where
  test := t
  blksize := 0
  serverFlag := false
  clientFlag := false
  rateFlag := false
  durationFlag := false

/-- **The loop of `iperf_parse_arguments`** applies the options one after the other. -/
theorem toOption_parseOpts (opts : List Opt) (p : ParseState) :
    (parseOpts opts p).toOption = opts.foldlM optStep p := by
  induction opts generalizing p with
  | nil => rfl
  | cons o opts ih =>
    rw [List.foldlM_cons, ← toOption_parseOpt, parseOpts]
    cases parseOpt p o with
    | error e => rfl
    | ok p' => exact ih p'

theorem toOption_iperfParseArguments (t : IperfTest) (opts : List Opt) :
    (iperfParseArguments t opts).toOption =
      (opts.foldlM optStep (parseStart t)).bind fun p => (parseFinish p).toOption := by
  rw [← toOption_parseOpts, iperfParseArguments]
  change (parseOpts opts (parseStart t) >>= parseFinish).toOption = _
  cases parseOpts opts (parseStart t) <;> rfl

/-! ## The order of the options -/

/-- `-s` and `-c` -/
def Opt.setsRole : Opt → Bool
  | .server | .client _ => true
  | _ => false

/-- `-u` and `--sctp` -/
def Opt.setsProtocol : Opt → Bool
  | .udp | .sctp => true
  | _ => false

/-- `-4` and `-6` -/
def Opt.setsDomain : Opt → Bool
  | .version4 | .version6 => true
  | _ => false

/-- Two different options that do not contradict each other. -/
def Opt.Independent (a b : Opt) : Prop :=
  a.letter ≠ b.letter ∧ ¬ (a.setsProtocol ∧ b.setsProtocol) ∧ ¬ (a.setsDomain ∧ b.setsDomain)

theorem Opt.Independent.symm {a b : Opt} (h : a.Independent b) : b.Independent a :=
  ⟨fun e => h.1 e.symm, fun e => h.2.1 e.symm, fun e => h.2.2 e.symm⟩

/-- What independent options set among the settings. -/
theorem Opt.Independent.set_comm {a b : Opt} (h : a.Independent b) (s : IperfSettings) :
    a.set (b.set s) = b.set (a.set s) := by
  cases a with
  | format | bandwidth | bytes | window | setMss | version4 | version6 | tos | flowlabel =>
    cases b <;> first | rfl | exact absurd rfl h.1 | exact absurd ⟨rfl, rfl⟩ h.2.2
  | _ => rfl

theorem Opt.set_withBlocks (o : Opt) (b : Int) (s : IperfSettings) :
    o.set (s.withBlocks b) = (o.set s).withBlocks b := by
  cases o <;> rfl

@[simp] theorem IperfSettings.withBlocks_blocks (b : Int) (s : IperfSettings) : (s.withBlocks b).blocks = b := rfl

@[simp] theorem IperfSettings.withBlocks_withBlocks (b b' : Int) (s : IperfSettings) :
    (s.withBlocks b).withBlocks b' = s.withBlocks b' := rfl

theorem Opt.Independent.setBlocks_comm {a b : Opt} (h : a.Independent b) (n : Int) :
    a.setBlocks (b.setBlocks n) = b.setBlocks (a.setBlocks n) := by
  have hone : a.givenBlocks = none ∨ b.givenBlocks = none := by
    cases a with
    | blockcount n =>
      cases b with
      | blockcount m => exact absurd rfl h.1
      | _ => exact .inr rfl
    | _ => exact .inl rfl
  unfold Opt.setBlocks
  rcases hone with hone | hone
  · rw [hone]
    rfl
  · rw [hone]
    rfl

theorem Opt.Independent.setBlksize_comm {a b : Opt} (h : a.Independent b) (n : Int) :
    a.setBlksize (b.setBlksize n) = b.setBlksize (a.setBlksize n) := by
  have hone : a.givenBlksize = none ∨ b.givenBlksize = none := by
    cases a with
    | length n =>
      cases b with
      | length m => exact absurd rfl h.1
      | _ => exact .inr rfl
    | _ => exact .inl rfl
  unfold Opt.setBlksize
  rcases hone with hone | hone
  · rw [hone]
    rfl
  · rw [hone]
    rfl

theorem Opt.Independent.setSettings_comm {a b : Opt} (h : a.Independent b) (s : IperfSettings) :
    a.setSettings (b.setSettings s) = b.setSettings (a.setSettings s) := by
  unfold Opt.setSettings
  simp only [Opt.set_withBlocks, IperfSettings.withBlocks_blocks, IperfSettings.withBlocks_withBlocks, h.set_comm,
    h.setBlocks_comm]

/-- `-R` and an option for the role, on a test that is not reversed. -/
theorem reverse_role_comm {t : IperfTest} (role : Role) (hrole : role ≠ .unset) (ht : t.reverse = 0) :
    iperfSetTestReverse 1 (iperfSetTestRole role t) = iperfSetTestRole role (iperfSetTestReverse 1 t) := by
  cases role with
  | unset => exact absurd rfl hrole
  | client => simp [iperfSetTestReverse, iperfSetTestRole, checkSenderHasRetransmits, roleSender, ht]
  | server => simp [iperfSetTestReverse, iperfSetTestRole, checkSenderHasRetransmits, roleSender, ht]

/-- What independent options set among the other fields of the test. -/
theorem Opt.Independent.setTest_comm {a b : Opt} (h : a.Independent b) (hrole : ¬ (a.setsRole ∧ b.setsRole))
    {t : IperfTest} (ht : a = .reverse ∨ b = .reverse → t.reverse = 0) :
    a.setTest (b.setTest t) = b.setTest (a.setTest t) := by
  cases a with
  | server =>
    cases b with
    | reverse => exact (reverse_role_comm .server (by simp) (ht (.inr rfl))).symm
    | _ => first | rfl | exact absurd ⟨rfl, rfl⟩ hrole
  | client host =>
    cases b with
    | reverse =>
      have hcomm := reverse_role_comm .client (by simp) (ht (.inr rfl))
      exact congrArg (fun t : IperfTest => { t with serverHostname := some host }) hcomm.symm
    | _ => first | rfl | exact absurd ⟨rfl, rfl⟩ hrole
  | reverse =>
    cases b with
    | server => exact reverse_role_comm .server (by simp) (ht (.inl rfl))
    | client host =>
      have hcomm := reverse_role_comm .client (by simp) (ht (.inl rfl))
      exact congrArg (fun t : IperfTest => { t with serverHostname := some host }) hcomm
    | _ => rfl
  | udp => cases b <;> first | rfl | exact absurd ⟨rfl, rfl⟩ h.2.1
  | sctp => cases b <;> first | rfl | exact absurd ⟨rfl, rfl⟩ h.2.1
  | port | interval | daemon | verbose | json | time | parallel | bind | noDelay | zerocopy | omitTime | file
    | affinity | title | linuxCongestion | pidfile | debug =>
    cases b <;> first | rfl | exact absurd rfl h.1
  | _ => rfl

theorem Opt.setTest_settings (o : Opt) (t : IperfTest) : (o.setTest t).settings = t.settings := by
  cases o <;> rfl

theorem Opt.setTest_onSettings (o : Opt) (f : IperfSettings → IperfSettings) (t : IperfTest) :
    o.setTest (onSettings f t) = onSettings f (o.setTest t) := by
  cases o <;> rfl

/-- The variables after two independent options. -/
theorem Opt.Independent.update_comm {a b : Opt} (h : a.Independent b) (hrole : ¬ (a.setsRole ∧ b.setsRole))
    {p : ParseState} (hp : a = .reverse ∨ b = .reverse → p.test.reverse = 0) :
    a.update (b.update p) = b.update (a.update p) := by
  have htest : onSettings a.setSettings (a.setTest (onSettings b.setSettings (b.setTest p.test))) =
      onSettings b.setSettings (b.setTest (onSettings a.setSettings (a.setTest p.test))) := by
    rw [Opt.setTest_onSettings, Opt.setTest_onSettings, h.setTest_comm hrole hp]
    unfold onSettings
    simp only [h.setSettings_comm]
  simp only [Opt.update, htest, h.setBlksize_comm, Bool.or_left_comm]

/-- Only `-s` and `-c` set the role. -/
theorem Opt.update_role {o : Opt} (h : ¬ o.setsRole) (p : ParseState) :
    (o.update p).test.role = p.test.role := by
  change (o.setTest p.test).role = p.test.role
  cases o with
  | server => exact absurd rfl h
  | client host => exact absurd rfl h
  | _ => rfl

/-- Only `-s` and `-c` depend on the role. -/
theorem Opt.refused_congr {o : Opt} (h : ¬ o.setsRole) (role role' : Role) :
    o.Refused role ↔ o.Refused role' := by
  cases o with
  | server => exact absurd rfl h
  | client host => exact absurd rfl h
  | bandwidth rate burst => cases burst <;> rfl
  | affinity n m => cases m <;> rfl
  | _ => rfl

/-- Only `-R` sets the direction. -/
theorem Opt.update_reverse {o : Opt} (h : o ≠ .reverse) (p : ParseState) :
    (o.update p).test.reverse = p.test.reverse := by
  change (o.setTest p.test).reverse = p.test.reverse
  cases o with
  | reverse => exact absurd rfl h
  | _ => rfl

/-- An option for the role is refused after another one. -/
theorem Opt.refused_after_role {a b : Opt} (ha : a.setsRole) (hb : b.setsRole) (hab : a.letter ≠ b.letter)
    (p : ParseState) : b.Refused (a.update p).test.role := by
  cases a with
  | server =>
    cases b with
    | client host => rfl
    | server => exact absurd rfl hab
    | _ => cases hb
  | client host =>
    cases b with
    | server => rfl
    | client host' => exact absurd rfl hab
    | _ => cases hb
  | _ => cases ha

/-- Two options one after the other. -/
theorem optStep_bind (p : ParseState) (a b : Opt) : ((optStep p a).bind fun p' => optStep p' b) =
    if a.Refused p.test.role ∨ b.Refused (a.update p).test.role then none else some (b.update (a.update p)) := by
  unfold optStep
  by_cases ha : a.Refused p.test.role
  · rw [if_pos ha, if_pos (.inl ha)]
    rfl
  · rw [if_neg ha, Option.bind_some]
    by_cases hb : b.Refused (a.update p).test.role
    · rw [if_pos hb, if_pos (.inr hb)]
    · rw [if_neg hb, if_neg (by rintro (h | h) <;> contradiction)]

/-- **Two independent options can be exchanged.** -/
theorem Opt.Independent.optStep_comm {a b : Opt} (h : a.Independent b) {p : ParseState}
    (hp : a = .reverse ∨ b = .reverse → p.test.reverse = 0) :
    ((optStep p a).bind fun p' => optStep p' b) = (optStep p b).bind fun p' => optStep p' a := by
  rw [optStep_bind, optStep_bind]
  by_cases hrole : a.setsRole ∧ b.setsRole
  · -- The second of `-s` and `-c` is refused, whichever it is.
    rw [if_pos (.inr (Opt.refused_after_role hrole.1 hrole.2 h.1 p)),
      if_pos (.inr (Opt.refused_after_role hrole.2 hrole.1 h.symm.1 p))]
  · have hrefused : a.Refused p.test.role ∨ b.Refused (a.update p).test.role ↔
        b.Refused p.test.role ∨ a.Refused (b.update p).test.role := by
      by_cases ha : a.setsRole
      · have hb : ¬ b.setsRole := fun hb => hrole ⟨ha, hb⟩
        rw [Opt.refused_congr hb _ p.test.role, Opt.update_role hb, or_comm]
      · rw [Opt.update_role ha, Opt.refused_congr ha _ (b.update p).test.role, or_comm]
    rw [h.update_comm hrole hp]
    exact if_congr hrefused rfl rfl

/-- No option sets the direction a second time. -/
def ReverseOnce (opts : List Opt) (p : ParseState) : Prop :=
  .reverse ∈ opts → p.test.reverse = 0

/-- **Options that do not contradict each other can be given in any order.** -/
theorem parse_perm {opts opts' : List Opt} (h : opts.Perm opts') (hind : opts.Pairwise Opt.Independent)
    {t : IperfTest} (ht : t.reverse = 0) :
    (iperfParseArguments t opts).toOption = (iperfParseArguments t opts').toOption := by
  have hI : ∀ {l l' : List Opt} {p : ParseState}, l.Perm l' →
      l.Pairwise Opt.Independent ∧ ReverseOnce l p → l'.Pairwise Opt.Independent ∧ ReverseOnce l' p := by
    intro l l' p hl hp
    refine ⟨hl.pairwise hp.1 fun hab => hab.symm, ?_⟩
    intro hmem
    exact hp.2 (hl.mem_iff.2 hmem)
  have hnext : ∀ {o l} {p p' : ParseState}, (o :: l).Pairwise Opt.Independent ∧ ReverseOnce (o :: l) p →
      optStep p o = some p' → l.Pairwise Opt.Independent ∧ ReverseOnce l p' := by
    intro o l p p' hp hstep
    refine ⟨List.Pairwise.of_cons hp.1, ?_⟩
    intro hmem
    have hne : o ≠ .reverse := by
      rintro rfl
      exact ((List.pairwise_cons.1 hp.1).1 _ hmem).1 rfl
    unfold optStep at hstep
    split_ifs at hstep
    cases hstep
    rw [Opt.update_reverse hne]
    exact hp.2 (List.mem_cons_of_mem _ hmem)
  have hswap : ∀ {a b l} {p : ParseState},
      (a :: b :: l).Pairwise Opt.Independent ∧ ReverseOnce (a :: b :: l) p → a.Independent b →
      ((optStep p a).bind fun p' => optStep p' b) = (optStep p b).bind fun p' => optStep p' a := by
    intro a b l p hp hab
    refine hab.optStep_comm ?_
    rintro (rfl | rfl)
    · exact hp.2 (by simp)
    · exact hp.2 (by simp)
  rw [toOption_iperfParseArguments, toOption_iperfParseArguments]
  have hloop : opts.foldlM optStep (parseStart t) = opts'.foldlM optStep (parseStart t) :=
    Updates.foldlM_perm Opt.Independent (fun l p => l.Pairwise Opt.Independent ∧ ReverseOnce l p)
      (fun hab => hab.symm) hI hnext hswap h hind ⟨hind, fun _ => ht⟩
  rw [hloop]

/-- Each option occurs at most once, and at most one of `-u` and `--sctp` and one of `-4` and `-6`. -/
def NotContradictory (opts : List Opt) : Prop :=
  (opts.map Opt.letter).Nodup ∧ ¬ (.udp ∈ opts ∧ .sctp ∈ opts) ∧ ¬ (.version4 ∈ opts ∧ .version6 ∈ opts)

theorem NotContradictory.independent {opts : List Opt} (h : NotContradictory opts) :
    opts.Pairwise Opt.Independent := by
  obtain ⟨hnd, hprot, hdomain⟩ := h
  have hletters : opts.Pairwise fun a b => a.letter ≠ b.letter := List.pairwise_map.1 hnd
  refine hletters.imp_of_mem ?_
  intro a b ha hb hab
  refine ⟨hab, ?_, ?_⟩
  · rintro ⟨hpa, hpb⟩
    cases a with
    | udp =>
      cases b with
      | udp => exact hab rfl
      | sctp => exact hprot ⟨ha, hb⟩
      | _ => cases hpb
    | sctp =>
      cases b with
      | udp => exact hprot ⟨hb, ha⟩
      | sctp => exact hab rfl
      | _ => cases hpb
    | _ => cases hpa
  · rintro ⟨hpa, hpb⟩
    cases a with
    | version4 =>
      cases b with
      | version4 => exact hab rfl
      | version6 => exact hdomain ⟨ha, hb⟩
      | _ => cases hpb
    | version6 =>
      cases b with
      | version4 => exact hdomain ⟨hb, ha⟩
      | version6 => exact hab rfl
      | _ => cases hpb
    | _ => cases hpa

/-- A test on which `iperf_parse_arguments` is called: `iperf_new_test`, `iperf_defaults` and
`iperf_set_test_may_use_sigalrm`. -/
def defaultTest (sigalrm : Bool) : IperfTest := { iperfDefaults iperfNewTest with mayUseSigalrm := sigalrm }

/-- **The order of the options does not matter.** Either both orders are accepted and lead to the same test,
or both are rejected. -/
theorem option_order (sigalrm : Bool) {opts opts' : List Opt} (hopts : NotContradictory opts)
    (h : opts.Perm opts') : (iperfParseArguments (defaultTest sigalrm) opts).toOption =
      (iperfParseArguments (defaultTest sigalrm) opts').toOption :=
  parse_perm h hopts.independent rfl

/-- `iperf3 -c h -R -u` and `iperf3 -R -u -c h` -/
theorem option_order_reverse_udp :
    ∃ t, t.sender = false ∧ (iperfParseArguments (defaultTest true) [.client "h", .reverse, .udp]).toOption = some t ∧
      (iperfParseArguments (defaultTest true) [.reverse, .udp, .client "h"]).toOption = some t := by
  have hopts : NotContradictory [.client "h", .reverse, .udp] := by
    refine ⟨by decide, ?_, ?_⟩ <;> simp
  have hperm : [Opt.client "h", .reverse, .udp].Perm [.reverse, .udp, .client "h"] :=
    (List.Perm.swap _ _ _).trans ((List.Perm.swap _ _ _).cons _)
  have horder := option_order true hopts hperm
  have hfirst : (iperfParseArguments (defaultTest true) [.client "h", .reverse, .udp]).toOption = some _ := rfl
  exact ⟨_, rfl, hfirst, horder.symm.trans hfirst⟩

end Iperf
