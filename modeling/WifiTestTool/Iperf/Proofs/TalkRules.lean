import WifiTestTool.Iperf.ControlTalk
import WifiTestTool.Iperf.Proofs.Plumbing

/-!
# Keeping to the conversation

What a party does between two messages does not touch the control connection: opening sockets, moving
data, statistics, reports and timers work on other descriptors. The functions that send and receive on the
control connection move the party's view of the conversation on by whole messages, or end the run.
-/

namespace Iperf

open Reactive
open Protocol (View)

/-! ## Assertions -/

/-- The role of the party at an end of the connection. -/
def roleAt : Side → Role
  | .left => .client
  | .right => .server

/-- The control connection of the test is `c`, and no other descriptor of the test is. -/
structure Wired (d : Side) (c : Int) (t : IperfTest) : Prop where
  ctrl : t.ctrlSck = c
  pos : 0 < c
  role : t.role = roleAt d
  listener : t.listener ≠ c
  protListener : t.protListener ≠ c
  streams : ∀ st ∈ t.streams.map IperfStream.core, st.socket ≠ c ∧ st.diskfileFd ≠ c

/-- The party has its control connection, its view of the conversation satisfies `V` and its state `S`. -/
structure On (d : Side) (c : Int) (V : View conversation → Prop) (S : TestState → Prop) (m : Mem)
    (v : View conversation) : Prop where
  wired : Wired d c m.test
  agrees : Agrees d m v
  settled : v.state.next v.cur = none
  view : V v
  state : S m.test.state

/-- Between two messages. -/
def Before (p : Phase) (v : View conversation) : Prop := v.state = p ∧ v.cur = []

/-- The party is in the phase `p`, and its state is `s`. -/
abbrev Stands (d : Side) (c : Int) (p : Phase) (s : TestState) : Mem → View conversation → Prop :=
  On d c (Before p) (· = s)

/-- The party has its control connection. -/
abbrev Connected (d : Side) (c : Int) : Mem → View conversation → Prop := On d c (fun _ => True) fun _ => True

/-- What a function returns: 0 when it got to `I`, or `-1`, and the run ends. -/
def Done (d : Side) (c : Int) (I : Mem → View conversation → Prop) (r : Int) (m : Mem) (v : View conversation) :
    Prop := r = 0 ∧ I m v ∨ r < 0 ∧ Connected d c m v

section Rules

variable {d : Side} {c : Int} {V V' : View conversation → Prop} {S S' : TestState → Prop} {m m' : Mem}
  {v : View conversation}

theorem On.connected (h : On d c V S m v) : Connected d c m v := ⟨h.wired, h.agrees, h.settled, trivial, trivial⟩

/-- Another memory with the same descriptors and the same state. -/
theorem On.congr (h : On d c V S m v) (hw : Wired d c m'.test) (hs : m'.test.state = m.test.state) :
    On d c V S m' v :=
  ⟨hw, by rw [Agrees, hs]; exact h.agrees, h.settled, h.view, by rw [hs]; exact h.state⟩

/-- The measurement keeps the descriptors. -/
theorem Wired.of_core {t t' : IperfTest} (h : Wired d c t) (hcore : t'.core = t.core) : Wired d c t' where
  ctrl := (congrArg (fun k => k.1.ctrlSck) hcore).trans h.ctrl
  pos := h.pos
  role := (congrArg (fun k => k.1.role) hcore).trans h.role
  listener := (congrArg (fun k => k.1.listener) hcore).trans_ne h.listener
  protListener := (congrArg (fun k => k.1.protListener) hcore).trans_ne h.protListener
  streams := by
    have hstreams : t'.streams.map IperfStream.core = t.streams.map IperfStream.core := congrArg Prod.snd hcore
    rw [hstreams]
    exact h.streams

theorem On.of_core (h : On d c V S m v) (hcore : m'.test.core = m.test.core) : On d c V S m' v :=
  h.congr (h.wired.of_core hcore) (congrArg (fun k => k.1.state) hcore)

/-! ## What does not touch the connection -/

/-- The requests that have to do with the conversation on the descriptor `c`. -/
def Req.touches (c : Int) : Req → Prop
  | .read fd _ | .write fd _ | .sendfile fd _ _ _ => fd = c
  | .cJSON_Parse _ => True
  | _ => False

theorem moved_nil {r : Req} (hw : Wired d c m.test) (hr : ¬ r.touches c) (a : r.Ans) :
    ctrlPort.taken m r a = [] ∧ ctrlPort.given m r a = [] := by
  have hctrl := hw.ctrl
  unfold ctrlPort
  dsimp only
  constructor
  · split
    · exact if_neg fun h => hr (h.trans hctrl)
    · rfl
  · split
    · exact if_neg fun h => hr (h.trans hctrl)
    · exact if_neg fun h => hr (h.trans hctrl)
    · rfl

theorem owes_quiet {r : Req} (hr : ¬ r.touches c) : Owes d m v r := by
  unfold Owes
  split
  · exact absurd trivial hr
  · trivial

/-- Such a request is no part of the conversation. -/
theorem quiet_call {r : Req} (h : On d c V S m v) (hr : ¬ r.touches c) :
    (talkContract d).ok m v r ∧ ∀ a, (talkContract d).onCall m v r a = v := by
  have hcall : ∀ a, v.add (ctrlPort.moved m r a) = v := by
    intro a
    rw [Port.moved, (moved_nil h.wired hr a).1, (moved_nil h.wired hr a).2]
    exact View.add_nil h.settled
  refine ⟨⟨owes_quiet hr, fun a _ => ⟨⟨fun hne => ?_, fun hne => ?_⟩, fun _ => ?_⟩⟩, hcall⟩
  · exact absurd (moved_nil h.wired hr a).2 hne
  · exact absurd (moved_nil h.wired hr a).1 hne
  · rw [hcall]
    exact h.agrees

theorem talk_sys {r : Req} (hr : ¬ r.touches c) : Prog.Keeps (talkContract d) (On d c V S) (fun _ => True) (sys r) :=
  .ask fun m v h => ⟨(quiet_call h hr).1, fun a _ => ⟨trivial, by rw [(quiet_call h hr).2]; exact h⟩⟩

theorem talk_modify {f : Mem → Mem} (hw : ∀ m, Wired d c m.test → Wired d c (f m).test)
    (hs : ∀ m, (f m).test.state = m.test.state) :
    Prog.Keeps (talkContract d) (On d c V S) (fun _ => True) (Prog.modify f) :=
  .modify fun m _ h => by
    have hm := h.congr (hw m h.wired) (hs m)
    exact ⟨hm.agrees, hm⟩

theorem talk_setErrno (e : Errno) : Prog.Keeps (talkContract d) (On d c V S) (fun _ => True) (setErrno e) :=
  talk_modify (fun _ h => h) fun _ => rfl

theorem talk_setIErrno (e : IErr) : Prog.Keeps (talkContract d) (On d c V S) (fun _ => True) (setIErrno e) :=
  talk_modify (fun _ h => h) fun _ => rfl

theorem talk_fail {J : Mem → View conversation → Prop} (e : IErr) :
    Prog.Triple (talkContract d) (On d c V S) (fail e) (Done d c J) :=
  .seq (talk_setIErrno e) fun _ _ => .ret fun _ _ h => .inr ⟨by decide, h.connected⟩

theorem talk_modifyTest {f : IperfTest → IperfTest} (hw : ∀ t, Wired d c t → Wired d c (f t))
    (hs : ∀ t, (f t).state = t.state) :
    Prog.Keeps (talkContract d) (On d c V S) (fun _ => True) (modifyTest f) :=
  talk_modify (fun m => hw m.test) fun m => hs m.test

/-- The measurement does not touch the control connection. -/
theorem harmless_quiet {r : Req} (hw : Wired d c m.test) (hr : r.harmless m.test.core.2) : ¬ r.touches c := by
  have hfd : ∀ fd, (∃ st ∈ m.test.core.2, fd = st.socket ∨ fd = st.diskfileFd) → fd ≠ c := by
    rintro fd ⟨st, hst, rfl | rfl⟩
    · exact (hw.streams st hst).1
    · exact (hw.streams st hst).2
  cases r
  case read | write => exact hfd _ hr
  case sendfile =>
    obtain ⟨st, hst, rfl, -⟩ := hr
    exact (hw.streams st hst).1
  case cJSON_Parse => exact fun _ => hr
  all_goals exact fun h => h

theorem talk_measures {α : Type} {p : IperfProg α} (hp : Measures p) :
    Prog.Keeps (talkContract d) (On d c V S) (fun _ => True) p := by
  intro m v h
  have hstays := hp _ _ _ (harmless_at m.test.core)
  refine (Prog.Stays.safe (J := (· = v)) hstays rfl rfl ?_ ?_ fun _ _ _ _ _ _ => trivial).mono ?_
  · rintro m' _ r hcore rfl hr
    have h' := h.of_core hcore
    have hquiet := quiet_call h' (harmless_quiet h'.wired (hcore ▸ hr))
    exact ⟨hquiet.1, fun a _ => hquiet.2 a⟩
  · rintro m' _ hcore rfl
    exact ⟨(h.of_core hcore).agrees, rfl⟩
  · rintro _ m' _ ⟨hcore, rfl⟩
    exact ⟨trivial, h.of_core hcore⟩

/-- Opening sockets does not touch the control connection. -/
theorem talk_plumbing (hc : 0 < c) : Plumbing (talkContract d) (On d c V S) (· ≠ c) where
  req := by
    intro m v r h hr
    have hquiet : ¬ r.touches c := by
      cases r
      case write => exact hr
      case read | sendfile | cJSON_Parse => exact fun _ => hr
      all_goals exact fun h => h
    exact ⟨(quiet_call h hquiet).1, fun a _ => by rw [(quiet_call h hquiet).2]; exact h⟩
  fresh := by
    intro m v r a fd h ha hfd
    have hfresh : fd ≠ m.test.ctrlSck := by
      have hallows := ha.1
      unfold Req.newFd at hfd
      split at hfd
      all_goals first | (cases hfd; exact hallows.2) | cases hfd
    rwa [h.wired.ctrl] at hfresh
  neg := by
    rintro fd hfd rfl
    exact absurd hc (not_lt.2 hfd.le)
  listener _ _ h := h.wired.listener
  protListener _ _ h := h.wired.protListener
  change := by
    intro m m' v h hchange
    have htest := hchange.test
    have hw := h.wired
    have hwired : Wired d c m'.test := by
      refine ⟨?_, hc, ?_, ?_, ?_, ?_⟩
      · exact (congrArg IperfTest.ctrlSck htest).trans hw.ctrl
      · exact (congrArg IperfTest.role htest).trans hw.role
      · rcases hchange.listener with hsame | hother
        · exact hsame.trans_ne hw.listener
        · exact hother
      · rcases hchange.protListener with hsame | hother
        · exact hsame.trans_ne hw.protListener
        · exact hother
      · have hstreams : m'.test.unplumbed.streams = m.test.unplumbed.streams := by rw [htest]
        have hcores := congrArg (List.map IperfStream.core) hstreams
        exact fun st hst => hw.streams st (hcores ▸ hst)
    have hstate : m'.test.unplumbed.state = m.test.unplumbed.state := by rw [htest]
    have hm := h.congr hwired hstate
    exact ⟨hm.agrees, hm⟩
  halt _ _ _ _ _ := trivial

end Rules

/-! ## Pieces of messages -/

section Pieces

variable {d : Side} {c : Int} {s : TestState} {v₀ : View conversation}

/-- The party knows what it may hear. -/
theorem On.point {V : View conversation → Prop} {S : TestState → Prop} {m : Mem} {v : View conversation}
    (h : On d c V S m v) : On d c (· = v) (· = m.test.state) m v :=
  ⟨h.wired, h.agrees, h.settled, rfl, rfl⟩

/-- A call of `write` on the connection, with a part of the message `w`. -/
theorem talk_write {w sent left : List UInt8} {q : Phase} (hstart : v₀.cur = []) (hturn : Phase.turn v₀.state = d)
    (hnext : Phase.next v₀.state w = some q) (hstates : s ∈ Phase.states d q) (hw : sent ++ left <+: w)
    (hleft : left ≠ []) : Prog.Triple (talkContract d) (On d c (· = v₀.add sent) (· = s)) (sys (.write c left))
      fun a m v => match a with
        | .error e => e ≠ .eintr ∧ On d c (· = v₀.add sent) (· = s) m v
        | .ok n => n ≤ left.length ∧ On d c (· = v₀.add (sent ++ left.take n)) (· = s) m v := by
  have hbefore : v₀.state.next (v₀.cur ++ sent) = none := by
    cases hsent : v₀.state.next (v₀.cur ++ sent) with
    | none => rfl
    | some q' =>
      rw [hstart, List.nil_append] at hsent
      have heq := Phase.ends v₀.state (by rw [hsent]; rfl) (by rw [hnext]; rfl) ((List.prefix_append sent left).trans hw)
      have hlength := hw.length_le
      have hpos := List.length_pos_iff.2 hleft
      rw [heq, List.length_append] at hlength
      omega
  rintro m v ⟨hwired, hagrees, hsettled, rfl, hs⟩
  have hpart : v₀.add sent = { v₀ with cur := sent } := by
    rw [View.add_part hbefore, hstart]
    rfl
  have hctrl : c = m.test.ctrlSck := hwired.ctrl.symm
  have hwhole : (Phase.next v₀.state w).isSome := by
    rw [hnext]
    rfl
  have hgiven : ∀ n, ctrlPort.given m (.write c left) (.ok n) = left.take n := fun n => if_pos hctrl
  have hfront : ∀ n, sent ++ left.take n <+: w := fun n =>
    ((List.prefix_append_right_inj sent).2 (List.take_prefix n left)).trans hw
  have hagree : ∀ n, m.test.state ∈ Phase.states d (v₀.add (sent ++ left.take n)).state := by
    intro n
    cases hmore : v₀.state.next (v₀.cur ++ (sent ++ left.take n)) with
    | none =>
      rw [View.add_part hmore]
      rw [Agrees, hpart] at hagrees
      exact hagrees
    | some q' =>
      rw [View.add_whole hmore]
      rw [hstart, List.nil_append] at hmore
      have heq := Phase.ends v₀.state (by rw [hmore]; rfl) (by rw [hnext]; rfl) (hfront n)
      rw [heq, hnext] at hmore
      cases hmore
      rw [hs]
      exact hstates
  refine ⟨⟨trivial, fun a ha => ⟨⟨fun hne => ?_, fun hne => absurd rfl hne⟩, fun _ => ?_⟩⟩, fun a ha => ?_⟩
  · cases a with
    | error e => exact absurd rfl hne
    | ok n =>
      rw [hgiven, hpart]
      exact ⟨hturn, w, hwhole, hfront n⟩
  · cases a with
    | error e =>
      have hsame : (v₀.add sent).add [] = v₀.add sent := View.add_nil hsettled
      show m.test.state ∈ Phase.states d ((v₀.add sent).add []).state
      rw [hsame]
      exact hagrees
    | ok n =>
      rw [Port.moved, hgiven]
      show m.test.state ∈ Phase.states d ((v₀.add sent).add (left.take n)).state
      rw [View.add_add hbefore]
      exact hagree n
  · cases a with
    | error e =>
      have hsame : (v₀.add sent).add [] = v₀.add sent := View.add_nil hsettled
      refine ⟨ha.1 hctrl, ?_⟩
      show On d c _ _ m ((v₀.add sent).add [])
      rw [hsame]
      exact ⟨hwired, hagrees, hsettled, rfl, hs⟩
    | ok n =>
      refine ⟨ha.1.2, ?_⟩
      show On d c _ _ m ((v₀.add sent).add (ctrlPort.given m (.write c left) (.ok n)))
      rw [hgiven, View.add_add hbefore]
      exact ⟨hwired, hagree n, View.add_next (T := conversation) v₀ _, rfl, hs⟩

/-- `Nwrite` on the connection, with a part of the message `w`. -/
theorem talk_nwrite {w : List UInt8} (sent buf : List UInt8) {q : Phase} (hstart : v₀.cur = []) (hturn : Phase.turn v₀.state = d)
    (hnext : Phase.next v₀.state w = some q) (hstates : s ∈ Phase.states d q) (hw : sent ++ buf <+: w) (fuel : Nat) :
    Prog.Triple (talkContract d) (On d c (· = v₀.add sent) (· = s)) (nwrite fuel c buf) fun r m v =>
      0 ≤ r ∧ On d c (· = v₀.add (sent ++ buf)) (· = s) m v ∨ r < 0 ∧ Connected d c m v := by
  unfold nwrite
  generalize buf.length = count
  induction fuel generalizing sent buf with
  | zero => exact fun _ _ _ => trivial
  | succ fuel ih =>
    refine .ite (fun hnil => .ret fun m v h => .inl ⟨Int.natCast_nonneg _, ?_⟩) fun hleft => ?_
    · rw [hnil, List.append_nil]
      exact h
    · refine .bind (talk_write hstart hturn hnext hstates hw hleft) fun a => ?_
      match a with
      | .error .eintr => exact fun m v h => absurd rfl h.1
      | .ok 0 => exact .ret fun m v h => .inr ⟨by decide, h.2.connected⟩
      | .ok (n + 1) =>
        have hmore : (sent ++ buf.take (n + 1)) ++ buf.drop (n + 1) = sent ++ buf := by
          rw [List.append_assoc, List.take_append_drop]
        have hrest := ih (sent ++ buf.take (n + 1)) (buf.drop (n + 1)) (by rwa [hmore])
        rw [hmore] at hrest
        exact hrest.conseq (fun m v h => h.2) fun _ _ _ h => h
      | .error (.other _) | .error .eagain | .error .enobufs | .error .enomem | .error .ebadf
      | .error .eafnosupport | .error .einprogress =>
        refine Prog.Triple.conseq (J := Connected d c) (.seq (talk_setErrno _) fun _ _ => .ret fun m v h => .inr ⟨?_, h⟩)
          (fun m v h => h.2.connected) fun _ _ _ h => h
        split <;> decide

/-- A call of `read` on the connection, for no more than the rest of the message. -/
theorem talk_read (v₁ : View conversation) {n : Nat}
    (hwithin : Phase.turn v₁.state = d.other → ∀ w, (Phase.next v₁.state w).isSome → v₁.cur <+: w →
      v₁.cur.length + n ≤ w.length)
    (hstates : Phase.turn v₁.state = d.other → ∀ x ∈ Phase.messages v₁.state, s ∈ Phase.states d x.2) :
    Prog.Triple (talkContract d) (On d c (· = v₁) (· = s)) (sys (.read c n)) fun a m v => match a with
      | .error _ => On d c (· = v₁) (· = s) m v
      | .ok bs => bs ≠ [] ∧ bs.length ≤ n ∧ Phase.turn v₁.state = d.other ∧ v₁.Begins bs ∧
        On d c (· = v₁.add bs) (· = s) m v := by
  rintro m v ⟨hwired, hagrees, hsettled, rfl, hs⟩
  have hctrl : c = m.test.ctrlSck := hwired.ctrl.symm
  have htaken : ∀ bs, ctrlPort.taken m (.read c n) (.ok bs) = bs := fun bs => if_pos hctrl
  have hmoved : ∀ bs, ctrlPort.moved m (.read c n) (.ok bs) = bs := fun bs =>
    (congrArg (· ++ []) (htaken bs)).trans (List.append_nil bs)
  have hagree : ∀ bs, Phase.turn v.state = d.other → m.test.state ∈ Phase.states d (v.add bs).state := by
    intro bs hturn
    cases hmore : v.state.next (v.cur ++ bs) with
    | none =>
      rw [View.add_part hmore]
      exact hagrees
    | some q =>
      rw [View.add_whole hmore, hs]
      obtain ⟨x, hx, -⟩ := Phase.next_some hmore
      exact hstates hturn _ hx
  refine ⟨⟨trivial, fun a ha => ⟨⟨fun hne => ?_, fun hne hturn w hw hcur => ?_⟩, fun hhears => ?_⟩⟩, fun a ha => ?_⟩
  · cases a <;> exact absurd rfl hne
  · cases a with
    | error e => exact absurd rfl hne
    | ok bs =>
      rw [htaken]
      have hlength := (ha.2 hctrl).2
      have hle := hwithin hturn w hw hcur
      omega
  · cases a with
    | error e =>
      show m.test.state ∈ Phase.states d (v.add []).state
      rw [View.add_nil hsettled]
      exact hagrees
    | ok bs =>
      rw [Port.Hears, htaken] at hhears
      rw [hmoved]
      exact hagree bs (hhears (ha.2 hctrl).1).1
  · cases a with
    | error e =>
      show On d c _ _ m (v.add [])
      rw [View.add_nil hsettled]
      exact ⟨hwired, hagrees, hsettled, rfl, hs⟩
    | ok bs =>
      obtain ⟨⟨-, hfits⟩, hhears⟩ := ha
      rw [Port.Hears, htaken] at hhears
      obtain ⟨hturn, hbegins⟩ := hhears (hfits hctrl).1
      refine ⟨(hfits hctrl).1, (hfits hctrl).2, hturn, hbegins, ?_⟩
      show On d c _ _ m (v.add (ctrlPort.moved m (.read c n) (.ok bs)))
      rw [hmoved]
      exact ⟨hwired, hagree bs hturn, View.add_next (T := conversation) v bs, rfl, hs⟩

/-- `Nread` on the connection, for no more than the rest of the message. -/
theorem talk_nread (got : List UInt8) {n : Nat} (hstart : v₀.cur = [])
    (hwithin : ∀ w, (Phase.next v₀.state w).isSome → got <+: w → got.length + n ≤ w.length)
    (hstates : ∀ x ∈ Phase.messages v₀.state, s ∈ Phase.states d x.2) (fuel : Nat) :
    Prog.Triple (talkContract d) (On d c (· = v₀.add got) (· = s)) (nread fuel c n) fun r m v =>
      r = none ∧ Connected d c m v ∨ ∃ bs, r = some bs ∧ bs.length = n ∧
        (bs ≠ [] → ∃ w, (Phase.next v₀.state w).isSome ∧ got ++ bs <+: w) ∧
        On d c (· = v₀.add (got ++ bs)) (· = s) m v := by
  suffices hloop : ∀ more : List UInt8, more.length ≤ n →
      (more ≠ [] → ∃ w, (Phase.next v₀.state w).isSome ∧ got ++ more <+: w) →
      Prog.Triple (talkContract d) (On d c (· = v₀.add (got ++ more)) (· = s)) (nreadLoop c n fuel more) fun r m v =>
        r = none ∧ Connected d c m v ∨ ∃ bs, r = some bs ∧ bs.length = n ∧
          (bs ≠ [] → ∃ w, (Phase.next v₀.state w).isSome ∧ got ++ bs <+: w) ∧
          On d c (· = v₀.add (got ++ bs)) (· = s) m v by
    have h := hloop [] (Nat.zero_le _) fun h => absurd rfl h
    rwa [List.append_nil] at h
  induction fuel with
  | zero => exact fun _ _ _ _ _ _ => trivial
  | succ fuel ih =>
    intro more hmore hbegins
    refine .ite (fun hall => .ret fun m v h => .inr ⟨more, rfl, le_antisymm hmore hall, hbegins, h⟩) fun hpart => ?_
    have hbefore : v₀.state.next (v₀.cur ++ (got ++ more)) = none := by
      cases hnext : v₀.state.next (v₀.cur ++ (got ++ more)) with
      | none => rfl
      | some q =>
        rw [hstart, List.nil_append] at hnext
        have hle := hwithin _ (by rw [hnext]; rfl) (List.prefix_append got more)
        rw [List.length_append] at hle
        omega
    have hadd : v₀.add (got ++ more) = ⟨v₀.log, v₀.state, got ++ more⟩ := by
      rw [View.add_part hbefore, hstart]
      rfl
    refine .bind (talk_read (v₀.add (got ++ more)) ?_ ?_) fun a => ?_
    · rw [hadd]
      intro _ w hw hcur
      have hle := hwithin w hw ((List.prefix_append got more).trans hcur)
      rw [List.length_append]
      omega
    · rw [hadd]
      exact fun _ => hstates
    · match a with
      | .error .eintr => exact ih more hmore hbegins
      | .ok [] => exact fun m v h => absurd rfl h.1
      | .ok (b :: bs) =>
        have hrest := ih (more ++ b :: bs)
        rw [← List.append_assoc] at hrest
        rintro m v ⟨-, hlength, -, ⟨w, hw, hfront⟩, hon⟩
        rw [View.add_add hbefore] at hon
        rw [hadd] at hw hfront
        exact hrest (by rw [List.length_append]; omega) (fun _ => ⟨w, hw, hfront⟩) m v hon
      | .error (.other _) | .error .eagain | .error .enobufs | .error .enomem | .error .ebadf
      | .error .eafnosupport | .error .einprogress =>
        exact .seq (talk_setErrno _) fun _ _ => .ret fun m v h => .inl ⟨rfl, h.connected⟩

/-- `Nread` where it is the turn of the party itself -/
theorem talk_nread_mute {p : Phase} (hturn : p.turn = d) (fuel n : Nat) (hn : 0 < n) :
    Prog.Triple (talkContract d) (On d c (fun v => v.state = p) (· = s)) (nread fuel c n) fun r m v =>
      r = none ∧ Connected d c m v := by
  unfold nread
  induction fuel with
  | zero => exact fun _ _ _ => trivial
  | succ fuel ih =>
    have hne : ∀ v : View conversation, v.state = p → Phase.turn v.state ≠ d.other := by
      rintro v rfl
      rw [hturn]
      exact (Side.other_ne d).symm
    refine .ite (fun hall => absurd hall (by simp; omega)) fun _ => .bind (M := fun a m v =>
      (∃ e, a = .error e) ∧ On d c (fun v => v.state = p) (· = s) m v) (fun m v h => ?_) fun a => ?_
    · obtain rfl := h.state
      have hp := h.view
      refine (talk_read v (fun h => absurd h (hne v hp)) (fun h => absurd h (hne v hp)) m v h.point).mono ?_
      intro a m' v' h'
      cases a with
      | error e => exact ⟨⟨e, rfl⟩, h'.wired, h'.agrees, h'.settled, h'.view ▸ hp, h'.state⟩
      | ok bs => exact absurd h'.2.2.1 (hne v hp)
    · match a with
      | .error .eintr => exact ih.conseq (fun m v h => h.2) fun _ _ _ h => h
      | .ok _ => exact fun m v h => absurd h.1 (by rintro ⟨e, he⟩; cases he)
      | .error (.other _) | .error .eagain | .error .enobufs | .error .enomem | .error .ebadf
      | .error .eafnosupport | .error .einprogress =>
        refine Prog.Triple.conseq (J := Connected d c) (.seq (talk_setErrno _) fun _ _ => .ret fun m v h => ⟨rfl, h⟩)
          (fun m v h => h.2.connected) fun _ _ _ h => h

end Pieces

/-! ## Messages -/

section Messages

variable {d : Side} {c : Int} {s s' : TestState} {p q : Phase} {S : TestState → Prop}

/-- What is known besides -/
theorem triple_pure {α : Type} {P : Prop} {I : Mem → View conversation → Prop} {prog : IperfProg α}
    {Q : α → Mem → View conversation → Prop} (h : P → Prog.Triple (talkContract d) I prog Q) :
    Prog.Triple (talkContract d) (fun m v => P ∧ I m v) prog Q :=
  fun m v hm => h hm.1 m v hm.2

/-- Between two messages, a view that is known. -/
theorem triple_before {α : Type} {prog : IperfProg α} {Q : α → Mem → View conversation → Prop}
    (h : ∀ v₀, Before p v₀ → Prog.Triple (talkContract d) (On d c (· = v₀.add []) (· = s)) prog Q) :
    Prog.Triple (talkContract d) (Stands d c p s) prog Q := by
  intro m v hon
  refine h v hon.view m v ⟨hon.wired, hon.agrees, hon.settled, ?_, hon.state⟩
  exact (View.add_nil (T := conversation) hon.settled).symm

theorem Before.add {v : View conversation} (h : Before p v) {w : List UInt8} (hnext : p.next w = some q) :
    Before q (v.add w) := by
  obtain ⟨rfl, hcur⟩ := h
  have hwhole : conversation.next v.state (v.cur ++ w) = some q := by
    rw [hcur]
    exact hnext
  rw [View.add_whole hwhole]
  exact ⟨rfl, rfl⟩

theorem Before.log_add {v : View conversation} (h : Before p v) {w : List UInt8} (hnext : p.next w = some q) :
    (v.add w).log = v.log ++ [w] := by
  obtain ⟨rfl, hcur⟩ := h
  have hwhole : conversation.next v.state (v.cur ++ w) = some q := by
    rw [hcur]
    exact hnext
  rw [View.add_whole hwhole, hcur]
  rfl

theorem On.before {m : Mem} {v v₀ : View conversation} {w : List UInt8} (h : On d c (· = v₀.add w) (· = s) m v)
    (hv : Before p v₀) (hnext : p.next w = some q) : Stands d c q s m v :=
  ⟨h.wired, h.agrees, h.settled, h.view ▸ hv.add hnext, h.state⟩

/-- A state is set before it is sent. -/
theorem talk_setState {V : View conversation → Prop} (hstates : ∀ v, V v → s ∈ Phase.states d v.state) :
    Prog.Triple (talkContract d) (On d c V S) (modifyTest fun t => { t with state := s }) fun _ => On d c V (· = s) := by
  intro m v h
  have hw := h.wired
  have hagrees := hstates v h.view
  exact ⟨hagrees, ⟨hw.ctrl, hw.pos, hw.role, hw.listener, hw.protListener, hw.streams⟩, hagrees, h.settled, h.view, rfl⟩

/-- `iperf_set_send_state` -/
theorem talk_iperfSetSendState (hturn : p.turn = d) (hnext : p.next [s'.toUInt8] = some q)
    (hp : s' ∈ Phase.states d p) (hq : s' ∈ Phase.states d q) (fuel : Nat) :
    Prog.Triple (talkContract d) (On d c (Before p) S) (iperfSetSendState fuel s') (Done d c (Stands d c q s')) := by
  refine .bind (talk_setState fun v hv => by rw [hv.1]; exact hp) fun _ => triple_getTest_bind fun m g h => ?_
  rw [h.wired.ctrl]
  refine triple_before fun v₀ hv => ?_
  obtain ⟨rfl, hcur⟩ := hv
  refine .bind (talk_nwrite [] _ hcur hturn hnext hq List.prefix_rfl fuel) fun r => .ite (fun hr => ?_) fun hr => ?_
  · refine Prog.Triple.conseq (talk_fail _) (J := Connected d c) (fun m v h => ?_) fun _ _ _ h => h
    rcases h with ⟨hge, -⟩ | ⟨-, h⟩
    · exact absurd hr (not_lt.2 hge)
    · exact h
  · refine .ret fun m v h => ?_
    rcases h with ⟨-, h⟩ | ⟨hlt, -⟩
    · exact .inl ⟨rfl, h.before ⟨rfl, hcur⟩ hnext⟩
    · exact absurd hlt hr

theorem htonl_mod (n : Nat) : htonl (n % 0x100000000) = htonl n := by
  unfold htonl
  have h1 : UInt8.ofNat (n % 0x100000000 / 0x1000000) = UInt8.ofNat (n / 0x1000000) := by
    apply UInt8.toNat_inj.1
    show n % 0x100000000 / 0x1000000 % 256 = n / 0x1000000 % 256
    omega
  have h2 : UInt8.ofNat (n % 0x100000000 / 0x10000) = UInt8.ofNat (n / 0x10000) := by
    apply UInt8.toNat_inj.1
    show n % 0x100000000 / 0x10000 % 256 = n / 0x10000 % 256
    omega
  have h3 : UInt8.ofNat (n % 0x100000000 / 0x100) = UInt8.ofNat (n / 0x100) := by
    apply UInt8.toNat_inj.1
    show n % 0x100000000 / 0x100 % 256 = n / 0x100 % 256
    omega
  have h4 : UInt8.ofNat (n % 0x100000000) = UInt8.ofNat n := by
    apply UInt8.toNat_inj.1
    show n % 0x100000000 % 256 = n % 256
    omega
  rw [h1, h2, h3, h4]

theorem htonl_ntohl {bs : List UInt8} (h : bs.length = 4) : htonl (ntohl bs) = bs := by
  match bs, h with
  | [a, b, c, d], _ =>
    have hvalue : ntohl [a, b, c, d] = ((a.toNat * 256 + b.toNat) * 256 + c.toNat) * 256 + d.toNat := by
      simp [ntohl]
    have ha := a.toNat_lt
    have hb := b.toNat_lt
    have hc := c.toNat_lt
    have hd := d.toNat_lt
    have byte : ∀ (n : Nat) (x : UInt8), n % 256 = x.toNat → UInt8.ofNat n = x := fun n x hx => UInt8.toNat_inj.1 hx
    rw [htonl, hvalue, byte _ a (by omega), byte _ b (by omega), byte _ c (by omega), byte _ d (by omega)]

/-- What `JSON_write` sends of a text is the frame of the text, up to the length that fits into four bytes. -/
theorem document_frame (text : List UInt8) : Message.document.is (htonl text.length ++ text.take (text.length % 0x100000000)) := by
  have hle : text.length % 0x100000000 ≤ text.length := Nat.mod_le _ _
  have hlt : text.length % 0x100000000 < 0x100000000 := Nat.mod_lt _ (by decide)
  have hhead : (htonl text.length ++ text.take (text.length % 0x100000000)).take 4 = htonl text.length := rfl
  refine Message.is_document.2 ⟨?_, ?_⟩
  · rw [List.length_append]
    exact Nat.le_add_right 4 _
  · rw [hhead, ← htonl_mod, ntohl_htonl hlt, List.length_append, List.length_take, min_eq_left hle]
    rfl

/-- A phase in which one document comes -/
theorem next_document (hp : p.messages = [(.document, q)]) {w : List UInt8} (hw : Message.document.is w) :
    p.next w = some q := by
  unfold Phase.next
  rw [hp, List.find?_cons_of_pos (p := fun m : Message × Phase => m.1.is w) hw]
  rfl

theorem document_of_next (hp : p.messages = [(.document, q)]) {w : List UInt8} (hw : (p.next w).isSome) :
    4 ≤ w.length ∧ w.length = 4 + ntohl (w.take 4) := by
  obtain ⟨q', hq'⟩ := Option.isSome_iff_exists.1 hw
  obtain ⟨m, hm, his⟩ := Phase.next_some hq'
  rw [hp] at hm
  cases List.mem_singleton.1 hm
  exact Message.is_document.1 his

/-- `JSON_write` -/
theorem talk_jsonWrite (hturn : p.turn = d) (hp : p.messages = [(.document, q)]) (hq : s ∈ Phase.states d q) (fuel : Nat)
    (json : Json) : Prog.Triple (talkContract d) (Stands d c p s) (jsonWrite fuel c json) (Done d c (Stands d c q s)) := by
  have hstop : Prog.Triple (talkContract d) (Connected d c) (pure (-1)) (Done d c (Stands d c q s)) :=
    .ret fun _ _ h => .inr ⟨by decide, h⟩
  refine .seq (talk_sys id) fun str _ => ?_
  cases str with
  | none => exact hstop.conseq (fun _ _ h => h.connected) fun _ _ _ h => h
  | some text =>
    refine triple_before fun v₀ hv => ?_
    obtain ⟨rfl, hcur⟩ := hv
    have hnext := next_document hp (document_frame text)
    have hwrite := talk_nwrite (c := c) [] (htonl text.length) hcur hturn hnext hq
      (List.prefix_append _ _) fuel
    rw [List.nil_append] at hwrite
    refine .bind hwrite fun r => .ite (fun hr => ?_) fun hr => ?_
    · refine hstop.conseq (fun m v h => ?_) fun _ _ _ h => h
      rcases h with ⟨hge, -⟩ | ⟨-, h⟩
      · exact absurd hr (not_lt.2 hge)
      · exact h
    · refine .bind (Prog.Triple.conseq (talk_nwrite _ _ hcur hturn hnext hq List.prefix_rfl fuel) (fun m v h => ?_)
        fun _ _ _ h => h) fun r => .ret fun m v h => ?_
      · rcases h with ⟨-, h⟩ | ⟨hlt, -⟩
        · exact h
        · exact absurd hlt hr
      · rcases h with ⟨hge, h⟩ | ⟨hlt, h⟩
        · exact .inl ⟨if_neg (not_lt.2 hge), h.before ⟨rfl, hcur⟩ hnext⟩
        · rw [if_pos hlt]
          exact .inr ⟨by decide, h⟩

/-- The document that was heard is parsed. -/
theorem talk_parse {v₀ : View conversation} (hv : Before p v₀) (hturn : p.turn = d.other)
    (hp : p.messages = [(.document, q)])
    {head body : List UInt8} (hfour : head.length = 4) (hbody : body.length = ntohl head) :
    Prog.Triple (talkContract d) (On d c (· = v₀.add (head ++ body)) (· = s)) (sys (.cJSON_Parse body)) fun j m v =>
      (j = none → Connected d c m v) ∧ (j.isSome → Stands d c q s m v) := by
  intro m v hon
  have hframe : head ++ body = frame body := by
    rw [frame, hbody, htonl_ntohl hfour]
  have hdoc : Message.document.is (head ++ body) := by
    refine Message.is_document.2 ⟨?_, ?_⟩
    · rw [List.length_append]
      omega
    · rw [← hfour, List.take_left, List.length_append, hbody]
  have hnext := next_document hp hdoc
  have hon' := hon.before hv hnext
  have hlog : v.log.getLast? = some (frame body) := by
    rw [hon.view, hv.log_add hnext, hframe, List.getLast?_concat]
  have hphase : p.messages = [(.document, v.state)] := by
    rw [hon'.view.1]
    exact hp
  have hquiet : v.add [] = v := View.add_nil (T := conversation) hon.settled
  refine ⟨⟨⟨hlog, p, hturn, hphase⟩, fun a _ => ⟨⟨fun hne => absurd rfl hne, fun hne => absurd rfl hne⟩, fun _ => ?_⟩⟩,
    fun j _ => ?_⟩
  · show Agrees d m (v.add [])
    rw [hquiet]
    exact hon.agrees
  · show (j = none → Connected d c m (v.add [])) ∧ (j.isSome → Stands d c q s m (v.add []))
    rw [hquiet]
    exact ⟨fun _ => hon.connected, fun _ => hon'⟩

/-- `JSON_read` -/
theorem talk_jsonRead (hturn : p.turn = d.other) (hp : p.messages = [(.document, q)]) (hq : s ∈ Phase.states d q) (fuel : Nat) :
    Prog.Triple (talkContract d) (Stands d c p s) (jsonRead fuel c) fun j m v =>
      (j = none → Connected d c m v) ∧ (j.isSome → Stands d c q s m v) := by
  have hnone : ∀ m v, Connected d c m v → ((none : Option Json) = none → Connected d c m v) ∧
      ((none : Option Json).isSome → Stands d c q s m v) := fun m v h => ⟨fun _ => h, fun h => by cases h⟩
  refine .bind (M := fun nsize m v => nsize.length = 4 ∧ Stands d c p s m v) ?_ fun nsize => ?_
  · intro m v h
    have hquiet := quiet_call (r := .stack 4) h id
    refine ⟨hquiet.1, fun bs hbs => ⟨hbs.1, ?_⟩⟩
    rw [hquiet.2]
    exact h
  refine triple_pure fun hnsize => triple_before fun v₀ hv => ?_
  have hmessages : Phase.messages v₀.state = [(.document, q)] := hv.1.symm ▸ hp
  have hstates : ∀ x ∈ Phase.messages v₀.state, s ∈ Phase.states d x.2 := by
    rw [hmessages]
    intro x hx
    rw [List.mem_singleton.1 hx]
    exact hq
  refine .bind (talk_nread [] hv.2 (fun w hw _ => ?_) hstates fuel) fun got => ?_
  · rw [List.length_nil, Nat.zero_add]
    exact (document_of_next hmessages hw).1
  rintro m v (⟨rfl, h⟩ | ⟨head, rfl, hfour, -, hon⟩)
  · exact hnone m v h
  have hoverlay : overlay nsize head = head := by
    rw [overlay, List.drop_eq_nil_of_le (by omega), List.append_nil]
  dsimp only
  rw [hoverlay]
  refine Prog.Safe.bind (talk_sys id m v hon) fun str m v hstr => ?_
  have hon := hstr.2
  cases str with
  | none => exact hnone m v hon.connected
  | some str =>
    refine Prog.Safe.bind (talk_nread _ hv.2 (fun w hw hhead => ?_) hstates fuel m v hon) fun got m v h => ?_
    · obtain ⟨-, hlength⟩ := document_of_next hmessages hw
      have htake : w.take 4 = head := by
        rw [← hfour]
        exact (List.prefix_iff_eq_take.1 hhead).symm
      rw [hlength, htake, List.nil_append, hfour]
    · rcases h with ⟨rfl, h⟩ | ⟨body, rfl, hbody, -, hon⟩
      · exact hnone m v h
      · have htext : (overlay str body).take (ntohl head) = body := by
          rw [overlay, ← hbody, List.take_left]
        dsimp only
        rw [htext]
        exact talk_parse hv hturn hp hfour hbody m v hon

end Messages

/-! ## Before the connection -/

/-- The party has no control connection and no streams, and its test satisfies `T`. -/
structure Idle (d : Side) (T : IperfTest → Prop) (m : Mem) (v : View conversation) : Prop where
  ctrl : m.test.ctrlSck = -1
  role : m.test.role = roleAt d
  streams : m.test.streams = []
  agrees : Agrees d m v
  view : v = View.start Phase.cookie
  test : T m.test

section Unconnected

variable {d : Side} {T : IperfTest → Prop} {m m' : Mem} {v : View conversation}

theorem Idle.congr (h : Idle d T m v) (hctrl : m'.test.ctrlSck = m.test.ctrlSck) (hrole : m'.test.role = m.test.role)
    (hstreams : m'.test.streams = []) (hstate : m'.test.state = m.test.state) (ht : T m'.test) : Idle d T m' v :=
  ⟨hctrl.trans h.ctrl, hrole.trans h.role, hstreams, by rw [Agrees, hstate]; exact h.agrees, h.view, ht⟩

/-- The requests of a party that has no control connection -/
def Req.unconnected : Req → Prop
  | .sendfile _ _ _ _ | .cJSON_Parse _ => False
  | _ => True

/-- Such a request is no part of the conversation. -/
theorem idle_call {r : Req} (h : Idle d T m v) (hr : r.unconnected) :
    (talkContract d).ok m v r ∧ ∀ a, ctrlPort.allows m r a → (talkContract d).onCall m v r a = v := by
  have hmoved : ∀ a, ctrlPort.allows m r a → ctrlPort.taken m r a = [] ∧ ctrlPort.given m r a = [] := by
    intro a ha
    have hctrl := h.ctrl
    unfold ctrlPort at ha ⊢
    dsimp only at ha ⊢
    constructor
    · split
      · exact if_neg (by have hfd := ha.1; omega)
      · rfl
    · split
      · exact if_neg (by have hfd := ha.1; omega)
      · exact absurd hr id
      · rfl
  have hcall : ∀ a, ctrlPort.allows m r a → v.add (ctrlPort.moved m r a) = v := by
    intro a ha
    rw [Port.moved, (hmoved a ha).1, (hmoved a ha).2, h.view]
    rfl
  have howes : Owes d m v r := by
    unfold Owes
    split
    · exact absurd hr id
    · trivial
  refine ⟨⟨howes, fun a ha => ⟨⟨fun hne => absurd (hmoved a ha).2 hne, fun hne => absurd (hmoved a ha).1 hne⟩, fun _ => ?_⟩⟩,
    hcall⟩
  rw [hcall a ha]
  exact h.agrees

theorem idle_sys {r : Req} (hr : r.unconnected) : Prog.Keeps (talkContract d) (Idle d T) (fun _ => True) (sys r) :=
  .ask fun m v h => ⟨(idle_call h hr).1, fun a ha => ⟨trivial, by rw [(idle_call h hr).2 a ha.1]; exact h⟩⟩

theorem idle_modify {f : Mem → Mem} (hf : ∀ m v, Idle d T m v → Idle d T (f m) v) :
    Prog.Keeps (talkContract d) (Idle d T) (fun _ => True) (Prog.modify f) :=
  .modify fun m v h => ⟨(hf m v h).agrees, hf m v h⟩

theorem idle_setErrno (e : Errno) : Prog.Keeps (talkContract d) (Idle d T) (fun _ => True) (setErrno e) :=
  idle_modify fun _ _ h => h.congr rfl rfl h.streams rfl h.test

theorem idle_fail (e : IErr) : Prog.Keeps (talkContract d) (Idle d T) (· = -1) (fail e) :=
  .bind (idle_modify fun _ _ h => h.congr rfl rfl h.streams rfl h.test) fun _ _ => .pure rfl

/-- The measurement without streams -/
theorem idle_measures (hT : ∀ t t' : IperfTest, t'.core = t.core → T t → T t') {α : Type} {p : IperfProg α}
    (hp : Measures p) : Prog.Keeps (talkContract d) (Idle d T) (fun _ => True) p := by
  intro m v h
  have hstays := hp _ _ _ (harmless_at m.test.core)
  have hidle : ∀ m' : Mem, m'.test.core = m.test.core → Idle d T m' v := by
    intro m' hcore
    refine h.congr (congrArg (fun k => k.1.ctrlSck) hcore) (congrArg (fun k => k.1.role) hcore) ?_
      (congrArg (fun k => k.1.state) hcore) (hT _ _ hcore h.test)
    have hstreams : m'.test.streams.map IperfStream.core = m.test.streams.map IperfStream.core :=
      congrArg Prod.snd hcore
    rw [h.streams] at hstreams
    exact List.map_eq_nil_iff.1 hstreams
  have hnone : m.test.core.2 = [] := by
    show m.test.streams.map IperfStream.core = []
    rw [h.streams]
    rfl
  rw [hnone] at hstays
  refine (Prog.Stays.safe (J := (· = v)) hstays rfl rfl ?_ ?_ fun _ _ _ _ _ _ => trivial).mono ?_
  · rintro m' _ r hcore rfl hr
    have hquiet : r.unconnected := by
      cases r
      case sendfile =>
        obtain ⟨st, hst, -⟩ := hr
        cases hst
      case cJSON_Parse => exact hr
      all_goals exact trivial
    have hcall := idle_call (hidle m' hcore) hquiet
    exact ⟨hcall.1, fun a ha => hcall.2 a ha.1⟩
  · rintro m' _ hcore rfl
    exact ⟨(hidle m' hcore).agrees, rfl⟩
  · rintro _ m' _ ⟨hcore, rfl⟩
    exact ⟨trivial, hidle m' hcore⟩

/-- The control connection is there. -/
theorem Idle.connect {c : Int} (h : Idle d T m v) (hc : 0 < c) (hlistener : m.test.listener ≠ c)
    (hprotListener : m.test.protListener ≠ c) :
    On d c (· = View.start Phase.cookie) (· = m.test.state) { m with test := { m.test with ctrlSck := c } } v := by
  refine ⟨⟨rfl, hc, h.role, hlistener, hprotListener, ?_⟩, h.agrees, ?_, h.view, rfl⟩
  · show ∀ st ∈ m.test.streams.map IperfStream.core, _
    rw [h.streams]
    exact fun st hst => nomatch hst
  · rw [h.view]
    rfl

end Unconnected

end Iperf
