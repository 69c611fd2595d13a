import WifiTestTool.Iperf.Proofs.Plumbing

/-!
# Another connection at a busy server

While a test is in progress the server accepts other connections only to turn them away. It does so with the error
handling of the test's own connections: if the other side resets the connection before it is turned away, the server
ends the test. An observer notes what the other side does.
-/

namespace Iperf

open Reactive

/-! ## The observer -/

/-- What an observer notes of a connection. -/
structure Visit where
  /-- `accept` or a call on the socket has failed. -/
  failed : Bool
  /-- The socket -/
  socket : Int
  /-- The buffer for the cookie before anything was read into it -/
  buffer : List UInt8
  /-- What the other side has sent -/
  sent : List UInt8
  /-- The outcome of a comparison that runs past the end of the buffer -/
  beyond : Bool
  /-- The socket was closed. -/
  closed : Bool

def Visit.start : Visit := ⟨false, -1, [], [], false, false⟩

/-- The notes after a request was answered. -/
def Visit.note (g : Visit) : (r : Req) → r.Ans → Visit
  | .accept _, .error _ => { g with failed := true }
  | .accept _, .ok s => { g with failed := decide (s < 0) || g.failed, socket := s }
  | .stack _, bs => { g with buffer := bs }
  | .read _ _, .error e => { g with failed := decide (e ≠ .eintr) || g.failed }
  | .read _ _, .ok bs => { g with sent := g.sent ++ bs }
  | .beyond, b => { g with beyond := b }
  | .write _ _, .error e => { g with failed := decide (e ≠ .eintr) || g.failed }
  | .write _ _, .ok n => { g with failed := decide (n = 0) || g.failed }
  | .close _, _ => { g with closed := true }
  | _, _ => g

/-- The buffer does not hold the cookie of the test. -/
def Visit.foreign (g : Visit) (cookie : List UInt8) : Bool :=
  !(strcmpEq cookie (overlay g.buffer g.sent)).getD g.beyond

/-- The system says of a closed socket, and of no other, that the descriptor is bad. -/
def Visit.tellsClosed (g : Visit) : (r : Req) → r.Ans → Bool
  | .select _ _ _ _, .error e => decide (e = .ebadf) == g.closed
  | .select _ _ _ _, .ok _ => !g.closed
  | _, _ => true

/-- The contract of the server with this observer -/
def visitContract : Contract Mem Req.Ans Halt Visit where
  onCall _ g r a := g.note r a
  onWrite _ g := g
  allows _ g r a := g.tellsClosed r a = true
  ok _ _ _ := True
  inv _ _ := True
  mayHalt _ _ _ := True

/-- The test is what it was: its state, its streams, counters, timers, descriptors and sets. -/
def Untouched (m m' : Mem) : Prop := m'.test = m.test ∧ m'.timers = m.timers

/-- What the connections for streams are compared with -/
def IperfTest.setup (t : IperfTest) : TestState × List UInt8 × Int × ProtId :=
  (t.state, t.cookie, t.numStreams, t.protocol)

/-- The sockets of the streams -/
def IperfTest.sockets (t : IperfTest) : List Int := t.streams.map IperfStream.socket

/-- What may become of a connection for a stream: the server ends the test (`none`), or it goes on without the
connection, or with a stream for it. -/
inductive Outcome (accepted : Int) (m : Mem) : Option Int → Mem → Visit → Prop where
  | ends {m' : Mem} {g : Visit} (h : g.failed = true ∨ g.foreign m.test.cookie = false) : Outcome accepted m none m' g
  | denied {m' : Mem} {g : Visit} (hm : Untouched m m') (hfailed : g.failed = false)
      (hforeign : g.foreign m.test.cookie = true) : Outcome accepted m (some accepted) m' g
  | admitted {m' : Mem} {g : Visit} (hsetup : m'.test.setup = m.test.setup)
      (hsockets : m'.test.sockets = m.test.sockets ++ [g.socket]) (hforeign : g.foreign m.test.cookie = false) :
      Outcome accepted m (some (accepted + 1)) m' g

/-! ## The calls on the socket -/

section Calls

variable {m : Mem} {g : Visit}

/-- A failure stays noted. -/
theorem failed_visit {α : Type} (p : IperfProg α) (h : g.failed = true) :
    p.Safe visitContract (fun _ _ g' => g'.failed = true) m g := by
  refine Prog.safe_notes (fun _ _ _ => trivial) (fun _ _ => trivial) (fun _ _ _ => trivial) (fun m g r a hg => ?_)
    (fun _ _ hg => hg) p h
  show (g.note r a).failed = true
  unfold Visit.note
  split <;> simp [hg]

theorem sockAccept_visit {Q : Int → Mem → Visit → Prop} (fd : Int)
    (hbad : ∀ s m' g', s < 0 → Untouched m m' → g'.failed = true → Q s m' g')
    (hgood : ∀ s, 0 ≤ s → Q s m { g with socket := s }) : (sockAccept fd).Safe visitContract Q m g := by
  refine ⟨trivial, fun a _ => ?_⟩
  cases a with
  | error e => exact ⟨trivial, hbad (-1) _ _ (by decide) ⟨rfl, rfl⟩ rfl⟩
  | ok s =>
    by_cases hs : s < 0
    · exact hbad s m _ hs ⟨rfl, rfl⟩ (by simp [visitContract, Visit.note, hs])
    · have hnote : g.note (.accept fd) (.ok s) = { g with socket := s } := by simp [Visit.note, hs]
      exact (congrArg (Q s m) hnote).mpr (hgood s (not_lt.1 hs))

theorem nread_visit {Q : Option (List UInt8) → Mem → Visit → Prop} (fuel : Nat) (fd : Int) (count : Nat)
    (hbad : ∀ m' bs, Untouched m m' → Q none m' { g with sent := g.sent ++ bs, failed := true })
    (hgood : ∀ bs, Q (some bs) m { g with sent := g.sent ++ bs }) : (nread fuel fd count).Safe visitContract Q m g := by
  suffices hloop : ∀ got, (nreadLoop fd count fuel got).Safe visitContract Q m { g with sent := g.sent ++ got } by
    have h := hloop []
    rwa [List.append_nil] at h
  intro got
  induction fuel generalizing got with
  | zero => exact trivial
  | succ fuel ih =>
    rw [nreadLoop]
    split
    · exact hgood got
    · refine ⟨trivial, fun a _ => ?_⟩
      rcases a with e | bs
      · cases e with
        | eintr => exact ih got
        | _ => exact ⟨trivial, hbad _ got ⟨rfl, rfl⟩⟩
      · cases bs with
        | nil => exact (congrArg (fun bs => Q (some got) m { g with sent := bs }) (List.append_nil _)).mpr (hgood got)
        | cons b bs =>
          have hnext := ih (got ++ b :: bs)
          rwa [← List.append_assoc] at hnext

theorem nwrite_visit {Q : Int → Mem → Visit → Prop} (fuel : Nat) (fd : Int) (buf : List UInt8)
    (hbad : ∀ r m', r < 0 → Untouched m m' → Q r m' { g with failed := true })
    (hgood : ∀ r, 0 ≤ r → Q r m g) : (nwrite fuel fd buf).Safe visitContract Q m g := by
  suffices hloop : ∀ left : List UInt8, left.length ≤ buf.length →
      (nwriteLoop fd buf.length fuel left).Safe visitContract Q m g from hloop buf le_rfl
  intro left hleft
  induction fuel generalizing left with
  | zero => exact trivial
  | succ fuel ih =>
    rw [nwriteLoop]
    split
    · exact hgood _ (Int.natCast_nonneg _)
    · refine ⟨trivial, fun a _ => ?_⟩
      rcases a with e | n
      · cases e with
        | eintr => exact hgood _ (by omega)
        | eagain => exact ⟨trivial, hbad _ _ (by decide) ⟨rfl, rfl⟩⟩
        | enobufs => exact ⟨trivial, hbad _ _ (by decide) ⟨rfl, rfl⟩⟩
        | _ => exact ⟨trivial, hbad NET_HARDERROR _ (by decide) ⟨rfl, rfl⟩⟩
      · cases n with
        | zero => exact hbad NET_SOFTERROR m (by decide) ⟨rfl, rfl⟩
        | succ n => exact ih _ (by rw [List.length_drop]; omega)

end Calls

/-! ## Turning it away -/

section Handling

variable {m : Mem} {g : Visit}

/-- `iperf_accept` -/
theorem iperfAccept_visit (hctrl : m.test.ctrlSck ≠ -1) (hg : g.failed = false) (fuel : Nat) :
    (iperfAccept fuel).Safe visitContract
      (fun r m' g' => Untouched m m' ∧ (r < 0 ↔ g'.failed = true)) m g := by
  have hbad : ∀ {e : IErr} {m' : Mem} {g' : Visit}, Untouched m m' → g'.failed = true →
      (fail e).Safe visitContract (fun r m' g' => Untouched m m' ∧ (r < 0 ↔ g'.failed = true)) m' g' :=
    fun hm' hg' => ⟨trivial, hm', iff_of_true (by decide) hg'⟩
  refine safe_getTest_bind.2 ((Prog.safe_bind _ _).2 (sockAccept_visit _ (fun s m' g' hs hm' hg' => ?_) fun s hs => ?_))
  · rw [if_pos hs]
    exact hbad hm' hg'
  · rw [if_neg (not_lt.2 hs), if_neg hctrl]
    rw [denyClient, Prog.safe_bind]
    refine (Prog.safe_ask _).2 ⟨trivial, fun bs _ => ?_⟩
    refine (Prog.safe_bind _ _).2 (nread_visit _ _ _ (fun m' _ hm' => ?_) fun got => ?_)
    · exact hbad hm' rfl
    · refine (Prog.safe_bind _ _).2 (nwrite_visit _ _ _ (fun r m' hr hm' => ?_) fun r hr => ?_)
      · rw [if_pos hr]
        exact hbad hm' rfl
      · rw [if_neg (not_lt.2 hr)]
        refine ⟨trivial, fun _ _ => ⟨⟨rfl, rfl⟩, iff_of_false (by decide) ?_⟩⟩
        show g.failed ≠ true
        rw [hg]
        decide

/-- The part of the loop of `iperf_run_server` that calls it: `none` is where the server cleans up and returns. -/
theorem serverListenerPart_visit (hctrl : m.test.ctrlSck ≠ -1) (hstate : m.test.state ≠ TestState.CREATE_STREAMS)
    {readSet : FdSet} (hready : m.test.listener ∈ readSet) (hg : g.failed = false) (fuel : Nat) :
    (serverListenerPart fuel readSet).Safe visitContract
      (fun r m' g' => r.isSome = true ∧ Untouched m m' ↔ g'.failed = false) m g := by
  refine safe_getTest_bind.2 ?_
  rw [if_pos ⟨hready, hstate⟩]
  refine (iperfAccept_visit hctrl hg fuel).bind fun r m' g' ⟨hm', hr⟩ => ?_
  split
  · rename_i hneg
    refine (failed_visit cleanupServer (hr.1 hneg)).bind fun _ m'' g'' hg'' => ?_
    simp [hg'']
  · rename_i hneg
    have hfailed : g'.failed = false := by
      rw [← Bool.not_eq_true]
      exact fun h => hneg (hr.2 h)
    exact iff_of_true ⟨rfl, hm'⟩ hfailed

/-- `iperf_tcp_accept` closes the connection if and only if it did not send the cookie. -/
theorem iperfTcpAccept_visit (fuel : Nat) :
    (iperfTcpAccept fuel).Safe visitContract (fun s m' g' => Untouched m m' ∧
      (s < 0 ∧ g'.failed = true ∨ 0 ≤ s ∧ g'.failed = false ∧ g'.socket = s ∧ g'.closed = g'.foreign m.test.cookie)) m .start := by
  have hbad : ∀ {e : IErr} {m' : Mem} {g' : Visit}, Untouched m m' → g'.failed = true →
      (fail e).Safe visitContract (fun s m' g' => Untouched m m' ∧
        (s < 0 ∧ g'.failed = true ∨ 0 ≤ s ∧ g'.failed = false ∧ g'.socket = s ∧ g'.closed = g'.foreign m.test.cookie)) m' g' :=
    fun hm' hg' => ⟨trivial, hm', .inl ⟨by decide, hg'⟩⟩
  refine safe_getTest_bind.2 ((Prog.safe_bind _ _).2 (sockAccept_visit _ (fun s m' g' hs hm' hg' => ?_) fun s hs => ?_))
  · rw [if_pos hs]
    exact hbad hm' hg'
  · rw [if_neg (not_lt.2 hs), Prog.safe_bind]
    refine (Prog.safe_ask _).2 ⟨trivial, fun buffer _ => ?_⟩
    refine (Prog.safe_bind _ _).2 (nread_visit _ _ _ (fun m' _ hm' => ?_) fun got => ?_)
    · exact hbad hm' rfl
    · dsimp only
      have hdecide : ∀ (equal : Bool) (g' : Visit), g'.failed = false → g'.socket = s → g'.closed = false →
          g'.foreign m.test.cookie = !equal → Prog.Safe visitContract (fun s m' g' => Untouched m m' ∧
            (s < 0 ∧ g'.failed = true ∨ 0 ≤ s ∧ g'.failed = false ∧ g'.socket = s ∧ g'.closed = g'.foreign m.test.cookie))
            (if equal then pure s else do
              let r ← nwrite fuel s [TestState.ACCESS_DENIED.toUInt8]
              if r < 0 then
                fail .IESENDMESSAGE
              else do
                sys (.close s)
                pure s) m g' := by
        intro equal g' hfailed hsocket hopen hforeign
        cases equal with
        | true => exact ⟨⟨rfl, rfl⟩, .inr ⟨hs, hfailed, hsocket, by rw [hopen, hforeign]; rfl⟩⟩
        | false =>
          refine (Prog.safe_bind _ _).2 (nwrite_visit _ _ _ (fun r m' hr hm' => ?_) fun r hr => ?_)
          · rw [if_pos hr]
            exact hbad hm' rfl
          · rw [if_neg (not_lt.2 hr)]
            exact ⟨trivial, fun _ _ => ⟨⟨rfl, rfl⟩, .inr ⟨hs, hfailed, hsocket, hforeign.symm⟩⟩⟩
      cases hcmp : strcmpEq m.test.cookie (overlay buffer got) with
      | some equal =>
        have hforeign : Visit.foreign ⟨false, s, buffer, [] ++ got, false, false⟩ m.test.cookie = !equal := by
          rw [Visit.foreign, List.nil_append, hcmp]
          rfl
        exact hdecide equal _ rfl rfl rfl hforeign
      | none =>
        rw [Prog.safe_bind]
        refine (Prog.safe_ask _).2 ⟨trivial, fun equal _ => ?_⟩
        have hforeign : Visit.foreign ⟨false, s, buffer, [] ++ got, equal, false⟩ m.test.cookie = !equal := by
          rw [Visit.foreign, List.nil_append, hcmp]
          rfl
        exact hdecide equal _ rfl rfl rfl hforeign

theorem isClosed_visit (s : Int) : (isClosed s).Safe visitContract (fun closed m' g' => Untouched m m' ∧
    closed = g.closed ∧ g' = g) m g := by
  rw [isClosed, Prog.safe_bind]
  refine (Prog.safe_ask _).2 ⟨trivial, fun a ha => ?_⟩
  cases a with
  | error e => exact ⟨trivial, ⟨rfl, rfl⟩, beq_iff_eq.1 ha, rfl⟩
  | ok v => exact ⟨⟨rfl, rfl⟩, ((Bool.not_eq_true' _).mp ha).symm, rfl⟩

/-- The notes and the test when the connection has sent the cookie of the test `t` -/
def Sent (t : IperfTest) (s : Int) (m : Mem) (g : Visit) : Prop :=
  m.test.unplumbed = t.unplumbed ∧ g.foreign t.cookie = false ∧ g.socket = s

/-- What sets up a stream leaves the outcome of the comparison alone. -/
theorem sent_plumbing (t : IperfTest) (s : Int) : Plumbing visitContract (Sent t s) fun _ => True where
  req := by
    rintro m g r ⟨ht, hforeign, hsocket⟩ hr
    refine ⟨trivial, fun a _ => ⟨ht, ?_⟩⟩
    show (g.note r a).foreign t.cookie = false ∧ (g.note r a).socket = s
    unfold Visit.note
    split <;> first | exact ⟨hforeign, hsocket⟩ | exact absurd hr id
  fresh _ _ _ _ _ _ _ _ := trivial
  neg _ _ := trivial
  listener _ _ _ := trivial
  protListener _ _ _ := trivial
  change _ _ _ hg hc := ⟨trivial, hc.test.trans hg.1, hg.2⟩
  halt _ _ _ _ _ := trivial

/-- The server ends the test after the connection has sent the cookie. -/
theorem cleanupServer_visit {cookie : List UInt8} (h : g.foreign cookie = false) :
    cleanupServer.Safe visitContract (fun _ _ g' => g'.foreign cookie = false) m g := by
  let I : Mem → Visit → Prop := fun _ g => g.foreign cookie = false
  have hclose : ∀ fd, Prog.Keeps visitContract I (fun _ => True) (sys (.close fd)) := fun _ =>
    .ask fun _ _ hg => ⟨trivial, fun _ _ => ⟨trivial, hg⟩⟩
  have hmodify : ∀ f : Mem → Mem, Prog.Keeps visitContract I (fun _ => True) (Prog.modify f) := fun _ =>
    .modify fun _ _ hg => ⟨trivial, hg⟩
  have hcancel : ∀ handle clear, Prog.Keeps visitContract I (fun _ => True) (cancelTimer handle clear) := by
    refine fun handle clear => keeps_getTest_bind fun m g _ => .bind (Q := fun _ => True) ?_ fun _ _ => hmodify _
    cases handle m.test with
    | none => exact .pure trivial
    | some t =>
      refine .get_bind fun m g _ => ?_
      cases tmrCancel t (memTimers.get m) with
      | none => exact .stop fun _ _ _ => trivial
      | some s => exact hmodify _
  have hclean : Prog.Keeps visitContract I (fun _ => True) cleanupServer := by
    refine keeps_getTest_bind fun m g _ => .bind (hclose _) fun _ _ => .bind (hclose _) fun _ _ => ?_
    exact .bind (hcancel _ _) fun _ _ => .bind (hcancel _ _) fun _ _ => hcancel _ _
  exact (hclean m g h).mono fun _ _ _ h => h.2

/-- A connection that is taken for a stream of the test is added and counted, or ends the test. -/
theorem addStream_visit {s : Int} (accepted : Int) (t : IperfTest) :
    Prog.Triple visitContract (Sent t s) (do
      let sp ← iperfNewStream s
      if !sp then do
        cleanupServer
        pure none
      else do
        admitStream s
        pure (some (accepted + 1)))
      fun r m g => g.foreign t.cookie = false ∧ (r = none ∨ r = some (accepted + 1) ∧
        m.test.setup = t.setup ∧ m.test.sockets = t.sockets ++ [g.socket]) := by
  let Added : Mem → Visit → Prop := fun m g =>
    (m.test.setup = t.setup ∧ m.test.sockets = t.sockets ++ [s]) ∧ g.foreign t.cookie = false ∧ g.socket = s
  have hnew : Prog.Triple visitContract (Sent t s) (iperfNewStream s) fun sp m g =>
      (sp = false → g.foreign t.cookie = false) ∧ (sp = true → Added m g) := by
    refine iperfNewStream_triple (sent_plumbing t s) (fun _ _ hg => ⟨fun _ => hg.2.1, nofun⟩) fun f hf => ?_
    rintro m g ⟨ht, hg⟩
    refine ⟨trivial, nofun, fun _ => ⟨⟨?_, ?_⟩, hg⟩⟩
    · have hsetup : m.test.unplumbed.setup = t.unplumbed.setup := by rw [ht]
      exact hsetup
    · have hsockets : m.test.unplumbed.sockets = t.unplumbed.sockets := by rw [ht]
      have hold : m.test.sockets = t.sockets := hsockets
      show (m.test.streams ++ [_]).map IperfStream.socket = t.sockets ++ [s]
      rw [List.map_append, show m.test.streams.map IperfStream.socket = t.sockets from hold]
      exact congrArg (fun socket => t.sockets ++ [socket]) (hf m.test).1
  refine .bind hnew fun sp => ?_
  cases sp with
  | false =>
    rintro m g ⟨hg, -⟩
    exact (cleanupServer_visit (hg rfl)).bind fun _ _ _ hg' => ⟨hg', .inl rfl⟩
  | true =>
    have hadded : Prog.Keeps visitContract Added (fun _ => True) (admitStream s) := by
      refine .bind (Q := fun _ => True) (.modify fun m g hg => ⟨trivial, ?_⟩) fun _ _ => ?_
      · refine ⟨?_, hg.2⟩
        dsimp only
        split <;> exact hg.1
      · refine keeps_getTest_bind fun m g _ => .bind (Q := fun _ => True) ?_ fun _ _ => .ite (fun _ => ?_) fun _ => ?_
        all_goals exact .ask fun _ _ hg => ⟨trivial, fun _ _ => ⟨trivial, hg⟩⟩
    rintro m g ⟨-, hg⟩
    refine (hadded m g (hg rfl)).bind fun _ m' g' ⟨_, hm', hforeign, hsocket⟩ => ?_
    exact ⟨hforeign, .inr ⟨rfl, hm'.1, hsocket ▸ hm'.2⟩⟩

/-- The part of the loop of `iperf_run_server` that calls `iperf_tcp_accept` -/
theorem serverAcceptStream_outcome (hprot : m.test.protocol ≠ .udp) (fuel : Nat) (accepted : Int) :
    (serverAcceptStream fuel accepted).Safe visitContract (Outcome accepted m) m .start := by
  have haccept : protocolAccept fuel m.test.protocol = iperfTcpAccept fuel := by
    cases hp : m.test.protocol with
    | udp => exact absurd hp hprot
    | tcp => rfl
    | sctp => rfl
  refine safe_getTest_bind.2 ?_
  rw [haccept]
  refine (iperfTcpAccept_visit fuel).bind fun s m' g' ⟨hm', hs⟩ => ?_
  rcases hs with ⟨hs, hfailed⟩ | ⟨hs, hfailed, hsocket, hclosed⟩
  · rw [if_pos hs]
    exact (failed_visit cleanupServer hfailed).bind fun _ m'' g'' hg'' => .ends (.inl hg'')
  · rw [if_neg (not_lt.2 hs)]
    refine (isClosed_visit s).bind fun closed m'' g'' ⟨hm'', hc, hg''⟩ => ?_
    subst hg''
    rw [hclosed] at hc
    have hsame : m''.test = m.test := hm''.1.trans hm'.1
    cases hf : g''.foreign m.test.cookie with
    | true =>
      rw [hf] at hc
      subst hc
      exact .denied ⟨hsame, hm''.2.trans hm'.2⟩ hfailed hf
    | false =>
      rw [hf] at hc
      subst hc
      refine (addStream_visit accepted m.test m'' g'' ⟨by rw [hsame], hf, hsocket⟩).mono ?_
      rintro r m₃ g₃ ⟨hforeign, rfl | ⟨rfl, hsetup, hsockets⟩⟩
      · exact .ends (.inr hforeign)
      · exact .admitted hsetup hsockets hforeign

theorem Outcome.untouched_iff {accepted : Int} {m : Mem} {r : Option Int} {m' : Mem} {g : Visit}
    (h : Outcome accepted m r m' g) :
    r = some accepted ∧ Untouched m m' ↔ g.failed = false ∧ g.foreign m.test.cookie = true := by
  cases h with
  | ends h => rcases h with h | h <;> simp [h]
  | denied hm hfailed hforeign => exact iff_of_true ⟨rfl, hm⟩ ⟨hfailed, hforeign⟩
  | admitted _ _ hforeign =>
    refine iff_of_false (fun h => ?_) (by simp [hforeign])
    have heq := Option.some.inj h.1
    omega

end Handling

/-- **A busy server and another connection.** In a test with a control connection the server goes on, and the test is
what it was, if and only if neither `accept` nor a call on the new socket fails. While streams are being accepted over
TCP or SCTP, the same holds of a connection for a stream if and only if besides the buffer does not hold the cookie of
the test after what was sent has been read into it. -/
theorem intruder_untouched_iff (fuel : Nat) (m m' : Mem) (g : Visit) :
    (m.test.ctrlSck ≠ -1 → m.test.state ≠ TestState.CREATE_STREAMS → ∀ readSet, m.test.listener ∈ readSet →
      ∀ r, Prog.Reach visitContract (serverListenerPart fuel readSet, m, .start) (.ret r, m', g) →
        (r.isSome = true ∧ Untouched m m' ↔ g.failed = false)) ∧
    (m.test.protocol ≠ .udp → ∀ accepted r,
      Prog.Reach visitContract (serverAcceptStream fuel accepted, m, .start) (.ret r, m', g) →
        (r = some accepted ∧ Untouched m m' ↔ g.failed = false ∧ g.foreign m.test.cookie = true)) :=
  ⟨fun hctrl hstate _ hready _ hr => (serverListenerPart_visit hctrl hstate hready rfl fuel).reach hr,
    fun hprot accepted _ hr => ((serverAcceptStream_outcome hprot fuel accepted).reach hr).untouched_iff⟩

instance (m : Mem) (g : Visit) (r : Req) (a : r.Ans) : Decidable (visitContract.allows m g r a) :=
  inferInstanceAs (Decidable (_ = true))

/-- A server with a control connection in the state `state` -/
def busyServer (state : TestState) : Mem :=
  Mem.start { iperfSetTestRole .server mainTest with
    ctrlSck := 5, listener := 3, protListener := 3, state := state, cookie := List.replicate 36 97 ++ [0] }

/-- A connection that sends other bytes than the cookie, and is then turned away -/
def strangerAnswers (_ : Nat) : (r : Req) → r.Ans
  | .select _ _ _ _ => .error .ebadf
  | r => r.quiet

/-- A connection that is reset before it has sent anything -/
def resetAnswers (_ : Nat) : (r : Req) → r.Ans
  | .read _ _ => .error (.other 104)
  | r => r.quiet

/-- A stranger is turned away while the test runs, and while its streams are accepted. -/
theorem intruder_untouched_stranger :
    (∃ m' g r, Prog.Reach visitContract (serverListenerPart 9 {3}, busyServer TestState.TEST_RUNNING, .start)
        (.ret r, m', g) ∧ r.isSome = true ∧ Untouched (busyServer TestState.TEST_RUNNING) m') ∧
    ∃ m' g, Prog.Reach visitContract (serverAcceptStream 9 0, busyServer TestState.CREATE_STREAMS, .start)
        (.ret (some 0), m', g) ∧ Untouched (busyServer TestState.CREATE_STREAMS) m' := by
  constructor
  · have hr := Prog.reach_of_drive (K := visitContract) (a := some ∅) strangerAnswers 50
      (p := serverListenerPart 9 {3}) (s := busyServer TestState.TEST_RUNNING) (g := .start) (by decide)
    have h := (intruder_untouched_iff 9 _ _ _).1 (by decide) (by decide) {3} (by decide) _ hr
    exact ⟨_, _, _, hr, h.2 (by decide)⟩
  · have hr := Prog.reach_of_drive (K := visitContract) (a := some 0) strangerAnswers 50
      (p := serverAcceptStream 9 0) (s := busyServer TestState.CREATE_STREAMS) (g := .start) (by decide)
    have h := (intruder_untouched_iff 9 _ _ _).2 (by decide) 0 _ hr
    exact ⟨_, _, hr, (h.2 (by decide)).2⟩

/-- A connection that is reset while its cookie is read ends the test. -/
theorem intruder_ends_test :
    ¬ ∀ (fuel : Nat) (m m' : Mem) (g : Visit) (readSet : FdSet) (r : Option FdSet), m.test.ctrlSck ≠ -1 →
      m.test.state ≠ TestState.CREATE_STREAMS → m.test.listener ∈ readSet →
      Prog.Reach visitContract (serverListenerPart fuel readSet, m, .start) (.ret r, m', g) →
      r.isSome = true ∧ Untouched m m' := by
  intro h
  have hr := Prog.reach_of_drive (K := visitContract) (a := none) resetAnswers 50
    (p := serverListenerPart 9 {3}) (s := busyServer TestState.TEST_RUNNING) (g := .start) (by decide)
  have hnone := (h 9 _ _ _ {3} _ (by decide) (by decide) (by decide) hr).1
  cases hnone

end Iperf
