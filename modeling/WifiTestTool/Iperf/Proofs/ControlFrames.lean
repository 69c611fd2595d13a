import WifiTestTool.Iperf.Control
import WifiTestTool.Iperf.Proofs.CallRuns
import WifiTestTool.Iperf.Proofs.UdpHeader

/-!
# Frames on the control socket (`JSON_write`, `iperf_set_send_state`, `JSON_read`)

A document goes over the control socket as a frame: its length in four bytes, and its text. `Nwrite` reports an
interrupted write by the number of bytes that it has written, which its callers take for success, so that a
message is whole exactly if no write was interrupted. `Nread` reports the end of the stream in the same way,
so that `JSON_read` is exact exactly on streams that hold a whole frame.
-/

namespace Iperf

open Reactive

/-! ## Writing -/

/-- What is seen of the socket that a message is written to. -/
structure Wire where
  /-- The bytes that the socket has accepted -/
  accepted : List UInt8
  /-- A call of `write` was interrupted. -/
  interrupted : Bool
  /-- The text of the document -/
  text : Option (List UInt8)

/-- Before the message -/
def Wire.unused : Wire := ⟨[], false, none⟩

/-- The observer of the socket `fd`. A call of `write` accepts at most what it is given. -/
def wireObserver (fd : Int) : Observer Wire where
  notes
    | g, .write s bs, .ok n => if s = fd then { g with accepted := g.accepted ++ bs.take n } else g
    | g, .write s _, .error .eintr => if s = fd then { g with interrupted := true } else g
    | g, .cJSON_Print _, some text => { g with text := some text }
    | g, _, _ => g
  allows
    | _, _, .write _ bs, .ok n => n ≤ bs.length
    | _, _, _, _ => True

/-- The frame of a text -/
def frame (text : List UInt8) : List UInt8 := htonl text.length ++ text

/-- The part `left` of a buffer was written as far as `Nwrite` got: to its end, unless it was interrupted. -/
def Written (left : List UInt8) (g g' : Wire) : Prop :=
  ∃ k ≤ left.length, g' = { g with accepted := g.accepted ++ left.take k, interrupted := g'.interrupted } ∧
    (g'.interrupted = g.interrupted ∧ k = left.length ∨ g'.interrupted = true ∧ k < left.length)

/-- `Nwrite` succeeds after it has written everything, or when it is interrupted. -/
theorem nwriteLoop_written {t : IperfTest} (fd : Int) (count fuel : Nat) {left : List UInt8} {g : Wire}
    (hleft : left.length ≤ count) : Sees (wireObserver fd) t g (nwriteLoop fd count fuel left)
      fun r t' g' => t' = t ∧ (0 ≤ r → Written left g g') := by
  induction fuel generalizing left g with
  | zero => exact .stop _
  | succ fuel ih =>
    have herror : ∀ (e : Errno) (g₁ : Wire), Sees (wireObserver fd) t g₁ (do
        setErrno e
        pure (if e = .eagain ∨ e = .enobufs then NET_SOFTERROR else NET_HARDERROR))
        fun r t' g' => t' = t ∧ ((0 : Int) ≤ r → Written left g g') := by
      intro e g₁
      refine .setErrno_bind (.pure ⟨rfl, ?_⟩)
      unfold NET_SOFTERROR NET_HARDERROR
      split <;> omega
    refine .ite (fun hnil => .pure ⟨rfl, fun _ => ?_⟩) fun hnil => .sys_bind fun a ha => ?_
    · exact ⟨0, Nat.zero_le _, by simp, .inl ⟨rfl, by simp [hnil]⟩⟩
    · have hpos : 0 < left.length := List.length_pos_iff.2 hnil
      match a, ha with
      | .error .eintr, _ =>
        refine .pure ⟨rfl, fun _ => ⟨0, Nat.zero_le _, ?_, .inr ⟨?_, hpos⟩⟩⟩
        · simp [wireObserver]
        · simp [wireObserver]
      | .ok 0, _ =>
        refine .pure ⟨rfl, ?_⟩
        unfold NET_SOFTERROR
        omega
      | .ok (n + 1), ha =>
        have hn : n + 1 ≤ left.length := ha
        have hrest : (left.drop (n + 1)).length ≤ count := by rw [List.length_drop]; omega
        refine (ih hrest).mono ?_
        rintro r t' g' ⟨ht, hw⟩
        refine ⟨ht, fun hr => ?_⟩
        obtain ⟨k, hk, hg, hend⟩ := hw hr
        rw [List.length_drop] at hk hend
        refine ⟨n + 1 + k, by omega, ?_, ?_⟩
        · rw [hg]
          simp [wireObserver, List.take_add]
        · rcases hend with ⟨hsame, hall⟩ | ⟨hint, hlt⟩
          · exact .inl ⟨hsame.trans (by simp [wireObserver]), by omega⟩
          · exact .inr ⟨hint, by omega⟩
      | .error (.other _), _ | .error .eagain, _ | .error .enobufs, _ | .error .enomem, _ | .error .ebadf, _
      | .error .eafnosupport, _ | .error .einprogress, _ => exact herror _ _

theorem nwrite_written {t : IperfTest} (fd : Int) (fuel : Nat) (buf : List UInt8) {g : Wire} :
    Sees (wireObserver fd) t g (nwrite fuel fd buf) fun r t' g' => t' = t ∧ (0 ≤ r → Written buf g g') :=
  nwriteLoop_written fd buf.length fuel le_rfl

/-- Messages on the control socket -/
inductive ControlMessage where
  /-- A document, by `JSON_write` -/
  | document (doc : Json)
  /-- A state, by `iperf_set_send_state` -/
  | state (s : TestState)

/-- The call that sends a message. -/
def ControlMessage.write (fuel : Nat) : ControlMessage → IperfProg Int
  | .document doc => do
    let t ← getTest
    jsonWrite fuel t.ctrlSck doc
  | .state s => iperfSetSendState fuel s

/-- Exactly the message was accepted: the frame of the document, or the byte of the state. -/
def ControlMessage.Whole (g : Wire) : ControlMessage → Prop
  | .document _ => ∃ text, g.text = some text ∧ g.accepted = frame text
  | .state s => g.accepted = [s.toUInt8]

/-- The length of the document fits into the four bytes of the frame. -/
def ControlMessage.Fits (g : Wire) : ControlMessage → Prop
  | .document _ => ∀ text ∈ g.text, text.length < 0x100000000
  | .state _ => True

/-- `JSON_write`, when it succeeds. -/
theorem jsonWrite_frame {t : IperfTest} (fd : Int) (fuel : Nat) (doc : Json) :
    Sees (wireObserver fd) t Wire.unused (jsonWrite fuel fd doc) fun r _ g => r = 0 → ∃ text,
      g.text = some text ∧ (g.accepted = frame text ↔ g.interrupted = false ∧ text.length < 0x100000000) := by
  refine .sys_bind fun str _ => ?_
  cases str with
  | none => exact .pure (by omega)
  | some text =>
    refine .bind (nwrite_written fd fuel (htonl text.length)) ?_
    rintro r t₁ g₁ ⟨-, hheader⟩
    refine .ite (fun _ => .pure (by omega)) fun hr => ?_
    refine .bind (nwrite_written fd fuel (text.take (text.length % 0x100000000))) ?_
    rintro r' t₂ g₂ ⟨-, hbody⟩
    refine .pure fun hret => ?_
    have hr' : ¬ r' < 0 := by
      intro hneg
      rw [if_pos hneg] at hret
      cases hret
    obtain ⟨k₁, hk₁, hg₁, hend₁⟩ := hheader (by omega)
    obtain ⟨k₂, hk₂, hg₂, hend₂⟩ := hbody (by omega)
    have haccepted : g₂.accepted = (htonl text.length).take k₁ ++
        (text.take (text.length % 0x100000000)).take k₂ := by
      rw [hg₂, hg₁]
      rfl
    have htext : g₂.text = some text := by
      rw [hg₂, hg₁]
      rfl
    have hstart : (wireObserver fd).notes Wire.unused (.cJSON_Print doc) (some text) =
        { Wire.unused with text := some text } := rfl
    rw [hstart] at hend₁
    have hlen : (text.take (text.length % 0x100000000)).length = text.length % 0x100000000 := by
      rw [List.length_take]
      omega
    have hfour : (htonl text.length).length = 4 := rfl
    rw [hlen] at hk₂ hend₂
    rw [hfour] at hk₁ hend₁
    refine ⟨text, htext, ?_⟩
    constructor
    · -- The two parts together are as long as the frame.
      intro hwhole
      have hcount := congrArg List.length (haccepted.symm.trans hwhole)
      rw [frame, List.length_append, List.length_append, List.length_take, List.length_take, hlen, hfour] at hcount
      have hfit : text.length % 0x100000000 = text.length := by omega
      refine ⟨?_, by omega⟩
      rcases hend₂ with ⟨hsame, -⟩ | ⟨-, hlt⟩
      · rcases hend₁ with ⟨hsame₁, -⟩ | ⟨-, hlt⟩
        · exact hsame.trans hsame₁
        · omega
      · omega
    · rintro ⟨hno, hfit⟩
      have hmod : text.length % 0x100000000 = text.length := Nat.mod_eq_of_lt hfit
      rcases hend₂ with ⟨hsame, hall⟩ | ⟨hint, -⟩
      · rcases hend₁ with ⟨-, hall₁⟩ | ⟨hint, -⟩
        · rw [haccepted, hall, hall₁, hmod, List.take_length, List.take_length, frame]
          exact congrArg (· ++ text) (List.take_of_length_le (le_of_eq hfour))
        · rw [hsame, hint] at hno
          cases hno
      · rw [hint] at hno
        cases hno

/-- `iperf_set_send_state`, when it succeeds. -/
theorem iperfSetSendState_byte {t : IperfTest} (fuel : Nat) (s : TestState) :
    Sees (wireObserver t.ctrlSck) t Wire.unused (iperfSetSendState fuel s) fun r _ g => r = 0 →
      (g.accepted = [s.toUInt8] ↔ g.interrupted = false) := by
  refine .modifyTest_bind (.getTest_bind (.bind (nwrite_written _ fuel [s.toUInt8]) ?_))
  rintro r t₁ g₁ ⟨-, hw⟩
  refine .ite (fun _ => .setIErrno_bind (.pure (by omega))) fun hr => .pure fun _ => ?_
  obtain ⟨k, hk, hg, hend⟩ := hw (by omega)
  have haccepted : g₁.accepted = [s.toUInt8].take k := by
    rw [hg]
    rfl
  rw [List.length_singleton] at hk hend
  rw [haccepted]
  constructor
  · intro hwhole
    have hcount := congrArg List.length hwhole
    rw [List.length_take, List.length_singleton] at hcount
    rcases hend with ⟨hsame, -⟩ | ⟨-, hlt⟩
    · exact hsame
    · omega
  · intro hno
    rcases hend with ⟨-, rfl⟩ | ⟨hint, -⟩
    · rfl
    · rw [hint] at hno
      cases hno

/-- **When a message that is reported as sent was sent.** In a run of the call that returns 0, the socket has
accepted exactly the message, in order and without repetition, exactly if no call of `write` was interrupted
(and the length of the document fits into the frame). -/
theorem message_whole_iff {msg : ControlMessage} {fuel : Nat} {m m' : Mem} {g : Wire}
    (h : Goes (wireObserver m.test.ctrlSck) m Wire.unused (msg.write fuel) (.ret 0, m', g)) :
    msg.Whole g ↔ g.interrupted = false ∧ msg.Fits g := by
  cases msg with
  | document doc =>
    have hsees : Sees (wireObserver m.test.ctrlSck) m.test Wire.unused ((ControlMessage.document doc).write fuel)
        fun r _ g => r = 0 → ∃ text, g.text = some text ∧
          (g.accepted = frame text ↔ g.interrupted = false ∧ text.length < 0x100000000) :=
      .getTest_bind (jsonWrite_frame m.test.ctrlSck fuel doc)
    obtain ⟨text, htext, hiff⟩ := hsees.reach h rfl
    unfold ControlMessage.Whole ControlMessage.Fits
    rw [htext]
    simpa using hiff
  | state s =>
    have hsees := iperfSetSendState_byte (t := m.test) fuel s
    have hiff := hsees.reach h rfl
    simpa [ControlMessage.Whole, ControlMessage.Fits] using hiff

/-- One byte is written, or the call is interrupted. -/
theorem nwrite_byte {m : Mem} {g : Wire} (fd : Int) (b : UInt8) :
    Goes (wireObserver fd) m g (nwrite 2 fd [b]) (.ret 1, m, { g with accepted := g.accepted ++ [b] }) ∧
      Goes (wireObserver fd) m g (nwrite 2 fd [b]) (.ret 0, m, { g with interrupted := true }) := by
  have hok : (wireObserver fd).notes g (.write fd [b]) (Except.ok 1) =
      { g with accepted := g.accepted ++ [b] } := if_pos rfl
  have hint : (wireObserver fd).notes g (.write fd [b]) (Except.error .eintr) =
      { g with interrupted := true } := if_pos rfl
  rw [nwrite, nwriteLoop, if_neg (by simp)]
  constructor
  · refine .sys_bind (r := .write fd [b]) (Except.ok 1) (le_refl 1) ?_
    rw [hok]
    exact .refl _
  · refine .sys_bind (r := .write fd [b]) (Except.error .eintr) trivial ?_
    rw [hint]
    exact .refl _

/-- `TEST_START` is sent in one go. -/
theorem message_whole_state : ∃ m' g,
    Goes (wireObserver mainTest.ctrlSck) (Mem.start mainTest) Wire.unused
      ((ControlMessage.state TestState.TEST_START).write 2) (.ret 0, m', g) ∧
    (ControlMessage.state TestState.TEST_START).Whole g := by
  have hrun : Goes (wireObserver mainTest.ctrlSck) (Mem.start mainTest) Wire.unused
      ((ControlMessage.state TestState.TEST_START).write 2) (.ret 0, _, _) :=
    .modifyTest_bind (.getTest_bind (.seq (nwrite_byte _ _).1 (.ite (fun h => absurd h (by decide)) fun _ => .refl _)))
  exact ⟨_, _, hrun, (message_whole_iff (m := Mem.start mainTest) hrun).2 ⟨rfl, trivial⟩⟩

/-- The `write` of `TEST_START` is interrupted: nothing was sent, and the call succeeds. -/
theorem interrupted_state_sent : ¬ ∀ (msg : ControlMessage) (fuel : Nat) (m m' : Mem) (g : Wire),
    Goes (wireObserver m.test.ctrlSck) m Wire.unused (msg.write fuel) (.ret 0, m', g) → msg.Whole g := by
  intro h
  have hrun : Goes (wireObserver mainTest.ctrlSck) (Mem.start mainTest) Wire.unused
      ((ControlMessage.state TestState.TEST_START).write 2) (.ret 0, _, _) :=
    .modifyTest_bind (.getTest_bind (.seq (nwrite_byte _ _).2 (.ite (fun h => absurd h (by decide)) fun _ => .refl _)))
  have hwhole := h _ 2 (Mem.start mainTest) _ _ hrun
  cases hwhole

/-! ## Reading -/

/-- What is left of the stream that a document is read from, and the sizes of the buffers that were allocated
for it. -/
structure Incoming where
  rest : List UInt8
  allocated : List Nat

/-- The socket `fd` delivers a stream, in any parts: a call of `read` gives some of what is left, or fails, or
tells the end of the stream. What memory holds before it is written to is arbitrary, and `parse` is what
`cJSON_Parse` makes of a string. -/
def streamObserver (fd : Int) (parse : List UInt8 → Option Json) : Observer Incoming where
  notes
    | g, .read _ _, .ok bs => { g with rest := g.rest.drop bs.length }
    | g, .malloc n, _ => { g with allocated := g.allocated ++ [n] }
    | g, _, _ => g
  allows
    | _, g, .read s n, .ok bs => s = fd → bs <+: g.rest ∧ bs.length ≤ n ∧ (bs = [] → g.rest = [])
    | _, _, .stack n, bs => bs.length = n
    | _, _, .malloc n, some bs => bs.length = n
    | _, _, .cJSON_Parse text, r => r = parse (cstr text)
    | _, _, _, _ => True

/-- The bytes `got` were taken from the stream, as many as were asked for or up to its end. -/
def TakenOff (count : Nat) (g g' : Incoming) (got : List UInt8) : Prop :=
  got <+: g.rest ∧ got.length ≤ count ∧ g' = { g with rest := g.rest.drop got.length } ∧
    (got.length < count → g'.rest = [])

theorem nreadLoop_taken {t : IperfTest} {parse : List UInt8 → Option Json} (fd : Int) (count fuel : Nat)
    {got : List UInt8} {g g₀ : Incoming} (h : got <+: g₀.rest ∧ got.length ≤ count)
    (hg : g = { g₀ with rest := g₀.rest.drop got.length }) :
    Sees (streamObserver fd parse) t g (nreadLoop fd count fuel got) fun r _ g' =>
      g'.allocated = g₀.allocated ∧ ∀ got' ∈ r, TakenOff count g₀ g' got' := by
  have hallocated : g.allocated = g₀.allocated := by rw [hg]
  induction fuel generalizing got g with
  | zero => exact .stop _
  | succ fuel ih =>
    refine .ite (fun hall => .pure ⟨hallocated, ?_⟩) fun hless => .sys_bind fun a ha => ?_
    · intro got' hsome
      cases hsome
      exact ⟨h.1, h.2, hg, fun hlt => absurd hall (by omega)⟩
    · match a, ha with
      | .error .eintr, _ => exact ih h hg hallocated
      | .ok [], ha =>
        obtain ⟨-, -, hend⟩ := ha rfl
        refine .pure ⟨hallocated, ?_⟩
        intro got' hsome
        cases hsome
        exact ⟨h.1, h.2, hg, fun _ => hend rfl⟩
      | .ok (b :: bs), ha =>
        obtain ⟨hpre, hle, -⟩ := ha rfl
        refine ih ⟨?_, ?_⟩ ?_ hallocated
        · rw [hg] at hpre
          obtain ⟨more, hmore⟩ := hpre
          refine ⟨more, ?_⟩
          rw [List.append_assoc, hmore]
          exact (List.prefix_iff_eq_append.1 h.1)
        · rw [List.length_append]
          omega
        · rw [hg]
          simp [streamObserver, List.drop_drop]
      | .error (.other _), _ | .error .eagain, _ | .error .enobufs, _ | .error .enomem, _ | .error .ebadf, _
      | .error .eafnosupport, _ | .error .einprogress, _ =>
        exact .setErrno_bind (.pure ⟨hallocated, nofun⟩)

/-- `Nread` takes bytes off the stream, or fails. -/
theorem nread_taken {t : IperfTest} {parse : List UInt8 → Option Json} (fd : Int) (fuel count : Nat)
    (g : Incoming) : Sees (streamObserver fd parse) t g (nread fuel fd count) fun r _ g' =>
      g'.allocated = g.allocated ∧ ∀ got ∈ r, TakenOff count g g' got :=
  nreadLoop_taken fd count fuel ⟨List.nil_prefix, Nat.zero_le _⟩ rfl

/-- Where there is enough in the stream, `Nread` takes exactly as much as it was asked for. -/
theorem TakenOff.exact {count : Nat} {g g' : Incoming} {got : List UInt8} (h : TakenOff count g g' got)
    (henough : count ≤ g.rest.length) :
    got = g.rest.take count ∧ g' = { g with rest := g.rest.drop count } := by
  obtain ⟨hpre, hle, hg, hend⟩ := h
  have hlen : got.length = count := by
    by_contra hne
    have hempty := hend (by omega)
    rw [hg] at hempty
    have hzero := congrArg List.length hempty
    rw [List.length_drop, List.length_nil] at hzero
    omega
  refine ⟨?_, by rw [hg, hlen]⟩
  rw [← hlen]
  exact List.prefix_iff_eq_take.1 hpre

/-- What `JSON_read` owes on the stream `s`: a document that it returns is the parse of exactly the text of a
frame at the front of the stream, of which it has taken exactly the frame; it returns none when the stream ends
before that; and a buffer is larger than the length that the stream begins with. -/
def ExactRead (parse : List UInt8 → Option Json) (s : List UInt8) (r : Option Json) (g : Incoming) : Prop :=
  (∀ doc ∈ r, ∃ text rest, s = frame text ++ rest ∧ text.length < 0x100000000 ∧ g.rest = rest ∧
    parse (cstr text) = some doc) ∧
  (s.length < 4 + ntohl (s.take 4) → r = none) ∧
  (∀ n ∈ g.allocated, 4 ≤ s.length → ntohl (s.take 4) < n)

/-- The stream begins with a whole frame, and its length can be incremented. -/
def WholeFrame (s : List UInt8) : Prop :=
  ∃ text rest, s = frame text ++ rest ∧ text.length + 1 < 0x100000000

theorem take_frame (text rest : List UInt8) : (frame text ++ rest).take 4 = htonl text.length := rfl

theorem frame_length (text : List UInt8) : (frame text).length = 4 + text.length := by
  rw [frame, List.length_append]
  rfl

/-- The length at the front of a frame -/
theorem ntohl_frame {text rest : List UInt8} (h : text.length < 0x100000000) :
    ntohl ((frame text ++ rest).take 4) = text.length := by
  rw [take_frame, ntohl_htonl h]

theorem drop_frame (text rest : List UInt8) : (frame text ++ rest).drop 4 = text ++ rest := rfl

/-- `JSON_read` is exact on a stream that begins with a whole frame. -/
theorem jsonRead_exact {t : IperfTest} {parse : List UInt8 → Option Json} (fd : Int) (fuel : Nat)
    {text rest : List UInt8} (h : text.length + 1 < 0x100000000) :
    Sees (streamObserver fd parse) t ⟨frame text ++ rest, []⟩ (jsonRead fuel fd) fun r _ g =>
      (∀ doc ∈ r, g.rest = rest ∧ parse (cstr text) = some doc) ∧ ∀ n ∈ g.allocated, text.length < n := by
  have hfour : (htonl text.length).length = 4 := rfl
  have hlong : 4 ≤ (frame text ++ rest).length := by
    rw [List.length_append, frame_length]
    omega
  refine .sys_bind fun nsize hnsize => ?_
  refine .bind (nread_taken fd fuel 4 ⟨frame text ++ rest, []⟩) ?_
  rintro got t₁ g₁ ⟨hsame, hgot⟩
  cases got with
  | none => exact .pure ⟨nofun, by rw [hsame]; exact nofun⟩
  | some got =>
    obtain ⟨hheader, hg₁⟩ := (hgot got rfl).exact hlong
    rw [take_frame] at hheader
    have hsize : ntohl (overlay nsize got) = text.length := by
      rw [hheader, overlay_whole (hfour.trans (Eq.symm hnsize)), ntohl_htonl (by omega)]
    have hmod : (text.length + 1) % 0x100000000 = text.length + 1 := Nat.mod_eq_of_lt h
    have hnotes : ∀ a, (streamObserver fd parse).notes g₁
        (.malloc ((ntohl (overlay nsize got) + 1) % 0x100000000)) a = ⟨text ++ rest, [text.length + 1]⟩ := by
      intro a
      change { g₁ with allocated := g₁.allocated ++ [(ntohl (overlay nsize got) + 1) % 0x100000000] } = _
      rw [hg₁, hsize, hmod]
      rfl
    refine .sys_bind fun str hstr => ?_
    rw [hnotes]
    cases str with
    | none => exact .pure ⟨nofun, by simp⟩
    | some str =>
      have hlen : str.length = text.length + 1 := by
        rw [← hmod, ← hsize]
        exact hstr
      rw [hsize]
      refine .bind (nread_taken fd fuel text.length ⟨text ++ rest, [text.length + 1]⟩) ?_
      rintro got₂ t₂ g₂ ⟨hsame₂, hgot₂⟩
      have hlarger : ∀ n ∈ g₂.allocated, text.length < n := by
        rw [hsame₂]
        simp
      cases got₂ with
      | none => exact .pure ⟨nofun, hlarger⟩
      | some got₂ =>
        obtain ⟨hbody, hg₂⟩ := (hgot₂ got₂ rfl).exact (by simp)
        refine .ask fun r hr => ⟨?_, hlarger⟩
        have htext : (overlay str got₂).take text.length = text := by
          rw [hbody, overlay]
          simp
        rw [htext] at hr
        have hparse : r = parse (cstr text) := hr
        intro doc hdoc
        have hrest : g₂.rest = rest := by
          rw [hg₂]
          simp
        exact ⟨hrest, hparse.symm.trans hdoc⟩

/-- A call of `Nread` that gets what there is in one part. -/
theorem nread_all {parse : List UInt8 → Option Json} {m : Mem} {g : Incoming} (fd : Int) (count : Nat) :
    Goes (streamObserver fd parse) m g (nread 2 fd count)
      (.ret (some (g.rest.take count)), m, { g with rest := g.rest.drop count }) := by
  by_cases hzero : count = 0
  · subst hzero
    exact .refl _
  · have hinitial : (g.rest.take count) <+: g.rest := List.take_prefix _ _
    have hle : (g.rest.take count).length ≤ count := by
      rw [List.length_take]
      omega
    have hend : g.rest.take count = [] → g.rest = [] := fun hnil =>
      (List.take_eq_nil_iff.1 hnil).resolve_left hzero
    have hdrop : g.rest.drop (g.rest.take count).length = g.rest.drop count := by
      rw [List.length_take]
      rcases Nat.le_total count g.rest.length with h | h
      · rw [Nat.min_eq_left h]
      · rw [Nat.min_eq_right h, List.drop_length, List.drop_eq_nil_of_le h]
    have hnotes : (streamObserver fd parse).notes g (.read fd (count - 0)) (Except.ok (g.rest.take count)) =
        { g with rest := g.rest.drop count } := by
      change { g with rest := g.rest.drop (g.rest.take count).length } = _
      rw [hdrop]
    rw [nread, nreadLoop, if_neg (by rw [List.length_nil]; omega)]
    refine .sys_bind (r := .read fd (count - 0)) (Except.ok (g.rest.take count))
      (fun _ => ⟨hinitial, hle, hend⟩) ?_
    rw [hnotes]
    generalize hgot : g.rest.take count = got at hle
    cases got with
    | nil => exact .refl _
    | cons b bs =>
      refine .ite (fun _ => .refl _) fun hless => ?_
      -- The stream has ended.
      have hnil : g.rest.drop count = [] := by
        have hlen := congrArg List.length hgot
        rw [List.length_take] at hlen
        simp only [List.nil_append] at hless
        exact List.drop_eq_nil_of_le (by omega)
      rw [hnil]
      have hallows : (streamObserver fd parse).allows m.test ⟨[], g.allocated⟩
          (.read fd (count - ([] ++ b :: bs).length)) (Except.ok []) :=
        fun _ => ⟨List.nil_prefix, Nat.zero_le _, fun _ => rfl⟩
      exact .sys_bind (r := .read fd (count - ([] ++ b :: bs).length)) (Except.ok []) hallows (.refl _)

/-- `JSON_read` is exact on a stream, whatever is in the memory and whatever `cJSON_Parse` makes of strings. -/
def ReadsExactly (s : List UInt8) : Prop :=
  ∀ (parse : List UInt8 → Option Json) (fuel : Nat) (fd : Int) (m m' : Mem) (r : Option Json) (g : Incoming),
    Goes (streamObserver fd parse) m ⟨s, []⟩ (jsonRead fuel fd) (.ret r, m', g) → ExactRead parse s r g

/-- Otherwise some memory is read for the rest of the frame. -/
theorem ReadsExactly.wholeFrame {s : List UInt8} (h : ReadsExactly s) : WholeFrame s := by
  -- The memory is zero, and every string is a document.
  let hsize := ntohl (overlay (List.replicate 4 0) (s.take 4))
  have hrun : Goes (streamObserver 0 fun _ => some .null) (Mem.start mainTest) ⟨s, []⟩ (jsonRead 2 0)
      (.ret (some .null), Mem.start mainTest, ⟨(s.drop 4).drop hsize, [(hsize + 1) % 0x100000000]⟩) := by
    refine .sys_bind (r := .stack 4) (List.replicate 4 0) (List.length_replicate ..) ?_
    refine .seq (nread_all 0 4) ?_
    refine .sys_bind (r := .malloc _) (some (List.replicate _ 0)) (List.length_replicate ..) ?_
    refine .seq (nread_all 0 _) ?_
    refine .ask (r := .cJSON_Parse _) (some Json.null) ?_
    rfl
  obtain ⟨hdoc, -, hlarger⟩ := h _ _ _ _ _ _ _ hrun
  obtain ⟨text, rest, rfl, hlt, -, -⟩ := hdoc .null rfl
  have hlength : ntohl ((frame text ++ rest).take 4) = text.length := ntohl_frame hlt
  have hsize_eq : hsize = text.length := by
    have hwhole : overlay (List.replicate 4 0) ((frame text ++ rest).take 4) = (frame text ++ rest).take 4 :=
      overlay_whole rfl
    rw [← hlength, ← hwhole]
  have hbuffer := hlarger _ List.mem_cons_self (by rw [List.length_append, frame_length]; omega)
  rw [hlength, hsize_eq] at hbuffer
  refine ⟨text, rest, rfl, ?_⟩
  by_contra hge
  have hwrap : text.length + 1 = 0x100000000 := by omega
  rw [hwrap] at hbuffer
  omega
end Iperf
