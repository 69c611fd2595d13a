import WifiTestTool.Lib.Session
import WifiTestTool.Iperf.Proofs.ControlFrames

/-!
# What is said on the control connection

The purpose of the control connection, apart from the code that implements it: the client introduces
itself with a cookie, the two parties agree on the parameters, start and end the test, and exchange
the results. At each point it is known whose turn it is and what kinds of messages may come. The two ends
of the connection are those of a process each (`ctrlPort`); the client is at the left end.
-/

namespace Iperf

open Reactive
open Protocol (View)

/-- The kinds of messages. -/
inductive Message where
  /-- So many bytes -/
  | block (n : Nat)
  /-- The byte of a state -/
  | state (s : TestState)
  /-- A document behind its length -/
  | document
deriving DecidableEq

/-- Are the bytes a message of this kind? -/
def Message.is : Message → List UInt8 → Bool
  | block n, w => w.length == n
  | state s, w => w == [s.toUInt8]
  | document, w => decide (4 ≤ w.length) && w.length == 4 + ntohl (w.take 4)

/-- How far the conversation is: the message that comes next. -/
inductive Phase where
  | cookie
  | paramExchange
  | parameters
  | createStreams
  /-- `i_errno` of a server that cannot listen for the streams -/
  | iErrno
  | errno
  /-- The server has given up. -/
  | refused
  | testStart
  | testRunning
  | testEnd
  | exchangeResults
  | clientResults
  | serverResults
  | displayResults
  | iperfDone
  | finished
deriving DecidableEq

namespace Phase

/-- Whose turn it is. -/
def turn : Phase → Side
  | cookie | parameters | testEnd | clientResults | iperfDone => .left
  | paramExchange | createStreams | iErrno | errno | refused | testStart | testRunning | exchangeResults
  | serverResults | displayResults | finished => .right

/-- The messages that may come, and where the conversation goes on then. -/
def messages : Phase → List (Message × Phase)
  | cookie => [(.block COOKIE_SIZE, paramExchange)]
  | paramExchange => [(.state TestState.PARAM_EXCHANGE, parameters)]
  | parameters => [(.document, createStreams)]
  | createStreams => [(.state TestState.CREATE_STREAMS, testStart), (.state TestState.SERVER_ERROR, iErrno)]
  | iErrno => [(.block 4, errno)]
  | errno => [(.block 4, refused)]
  | refused => []
  | testStart => [(.state TestState.TEST_START, testRunning)]
  | testRunning => [(.state TestState.TEST_RUNNING, testEnd)]
  | testEnd => [(.state TestState.TEST_END, exchangeResults)]
  | exchangeResults => [(.state TestState.EXCHANGE_RESULTS, clientResults)]
  | clientResults => [(.document, serverResults)]
  | serverResults => [(.document, displayResults)]
  | displayResults => [(.state TestState.DISPLAY_RESULTS, iperfDone)]
  | iperfDone => [(.state TestState.IPERF_DONE, finished)]
  | finished => []

/-- The phase after the message `w`. -/
def next (p : Phase) (w : List UInt8) : Option Phase := (p.messages.find? fun m => m.1.is w).map Prod.snd

/-- What `test->state` may be at the client, whose view of the conversation has come to this phase. A state is set
before its message is sent, and after its message was received. -/
def clientStates : Phase → List TestState
  | cookie | paramExchange => [0]
  | parameters => [0, TestState.PARAM_EXCHANGE]
  | createStreams => [TestState.PARAM_EXCHANGE]
  | iErrno => [TestState.PARAM_EXCHANGE, TestState.SERVER_ERROR]
  | errno | refused => [TestState.SERVER_ERROR]
  | testStart => [TestState.PARAM_EXCHANGE, TestState.CREATE_STREAMS]
  | testRunning => [TestState.CREATE_STREAMS, TestState.TEST_START]
  | testEnd => [TestState.TEST_START, TestState.TEST_RUNNING, TestState.TEST_END]
  | exchangeResults => [TestState.TEST_END]
  | clientResults => [TestState.TEST_END, TestState.EXCHANGE_RESULTS]
  | serverResults | displayResults => [TestState.EXCHANGE_RESULTS]
  | iperfDone => [TestState.EXCHANGE_RESULTS, TestState.DISPLAY_RESULTS, TestState.IPERF_DONE]
  | finished => [TestState.IPERF_DONE]

/-- The same at the server. -/
def serverStates : Phase → List TestState
  | cookie => [0, TestState.IPERF_START]
  | paramExchange => [TestState.IPERF_START, TestState.PARAM_EXCHANGE]
  | parameters => [TestState.PARAM_EXCHANGE]
  | createStreams => [TestState.PARAM_EXCHANGE, TestState.CREATE_STREAMS, TestState.SERVER_ERROR]
  | iErrno | errno | refused => [TestState.SERVER_ERROR]
  | testStart => [TestState.CREATE_STREAMS, TestState.TEST_START]
  | testRunning => [TestState.TEST_START, TestState.TEST_RUNNING]
  | testEnd => [TestState.TEST_RUNNING]
  | exchangeResults => [TestState.TEST_RUNNING, TestState.TEST_END, TestState.EXCHANGE_RESULTS]
  | clientResults | serverResults => [TestState.EXCHANGE_RESULTS]
  | displayResults => [TestState.EXCHANGE_RESULTS, TestState.DISPLAY_RESULTS]
  | iperfDone => [TestState.DISPLAY_RESULTS]
  | finished => [TestState.DISPLAY_RESULTS, TestState.IPERF_DONE]

def states : Side → Phase → List TestState
  | .left, p => p.clientStates
  | .right, p => p.serverStates

end Phase

/-! ## The protocol -/

theorem Message.is_document {w : List UInt8} : Message.document.is w ↔ 4 ≤ w.length ∧ w.length = 4 + ntohl (w.take 4) := by
  simp [Message.is]

/-- A message ends where it says so. -/
theorem Message.ends (m : Message) {w w' : List UInt8} (h : m.is w) (h' : m.is w') (hfront : w <+: w') : w = w' := by
  cases m with
  | block n =>
    have hlength : w.length = n := beq_iff_eq.1 h
    have hlength' : w'.length = n := beq_iff_eq.1 h'
    exact hfront.eq_of_length (hlength.trans hlength'.symm)
  | state s => exact (beq_iff_eq.1 h).trans (beq_iff_eq.1 h').symm
  | document =>
    obtain ⟨hfour, hlength⟩ := Message.is_document.1 h
    obtain ⟨-, hlength'⟩ := Message.is_document.1 h'
    obtain ⟨rest, rfl⟩ := hfront
    rw [List.take_append_of_le_length hfour] at hlength'
    exact (List.prefix_append w rest).eq_of_length (hlength.trans hlength'.symm)

theorem Phase.next_some {p q : Phase} {w : List UInt8} (h : p.next w = some q) :
    ∃ m, (m, q) ∈ p.messages ∧ m.is w := by
  obtain ⟨⟨m, _⟩, hfind, rfl⟩ := Option.map_eq_some_iff.1 h
  have his : m.is w = true := List.find?_some (p := fun m : Message × Phase => m.1.is w) hfind
  exact ⟨m, List.mem_of_find?_eq_some hfind, his⟩

/-- Either there is one kind of message, or the messages are states. -/
theorem Phase.messages_kind (p : Phase) :
    (∀ m ∈ p.messages, ∀ m' ∈ p.messages, m.1 = m'.1) ∨ ∀ m ∈ p.messages, ∃ s, m.1 = .state s := by
  cases p with
  | createStreams =>
    right
    intro m hm
    simp only [messages, List.mem_cons, List.not_mem_nil, or_false] at hm
    rcases hm with rfl | rfl
    · exact ⟨_, rfl⟩
    · exact ⟨_, rfl⟩
  | refused | finished => exact .inl fun _ h => absurd h List.not_mem_nil
  | _ =>
    left
    intro m hm m' hm'
    rw [List.mem_singleton.1 hm, List.mem_singleton.1 hm']

theorem Phase.ends (p : Phase) {w w' : List UInt8} (h : (p.next w).isSome) (h' : (p.next w').isSome)
    (hfront : w <+: w') : w = w' := by
  obtain ⟨q, hq⟩ := Option.isSome_iff_exists.1 h
  obtain ⟨q', hq'⟩ := Option.isSome_iff_exists.1 h'
  obtain ⟨m, hm, hw⟩ := next_some hq
  obtain ⟨m', hm', hw'⟩ := next_some hq'
  rcases p.messages_kind with hone | hstates
  · obtain rfl : m = m' := hone _ hm _ hm'
    exact m.ends hw hw' hfront
  · obtain ⟨s, rfl⟩ : ∃ s, m = .state s := hstates _ hm
    obtain ⟨s', rfl⟩ : ∃ s, m' = .state s := hstates _ hm'
    refine hfront.eq_of_length ?_
    rw [show w = _ from beq_iff_eq.1 hw, show w' = _ from beq_iff_eq.1 hw']
    rfl

/-- What the two parties say to each other. -/
abbrev conversation : Protocol UInt8 where
  State := Phase
  turn := Phase.turn
  next := Phase.next
  next_nil := by
    intro p
    cases p <;> rfl
  ends _ _ _ := Phase.ends _

/-! ## The two ends of the connection -/

/-- What a process takes from its control connection, and what it puts on it. The connection is reliable: there is no
end of the stream, and no call of `write` on it is interrupted. New descriptors are not in use. -/
def ctrlPort : Port Mem Req.Ans UInt8 where
  taken
    | m, .read fd _, .ok bs => if fd = m.test.ctrlSck then bs else []
    | _, _, _ => []
  given
    | m, .write fd bs, .ok n => if fd = m.test.ctrlSck then bs.take n else []
    -- Which bytes of the file these are does not matter: nothing is ever sent so.
    | m, .sendfile toFd _ _ _, .ok n => if toFd = m.test.ctrlSck then List.replicate n 0 else []
    | _, _, _ => []
  allows
    | m, .read fd n, .ok bs => 0 ≤ fd ∧ (fd = m.test.ctrlSck → bs ≠ [] ∧ bs.length ≤ n)
    | _, .write fd bs, .ok n => 0 ≤ fd ∧ n ≤ bs.length
    | m, .write fd _, .error e => fd = m.test.ctrlSck → e ≠ .eintr
    | m, .accept fd, .ok s => 0 < s ∧ s ≠ fd ∧ s ≠ m.test.protListener ∧ s ≠ m.test.ctrlSck
    | m, .socket _ _, .ok s | m, .mkstemp, .ok s | m, .openFile _ _, .ok s => 0 < s ∧ s ≠ m.test.ctrlSck
    | _, .makeCookie, bs => bs.length = COOKIE_SIZE
    | _, .stack n, bs => bs.length = n
    | _, _, _ => True
  oneWay m r a := by
    split
    · exact .inr (by split <;> first | rfl | contradiction)
    · exact .inl rfl

/-- Besides the answers that the port restricts, every one is allowed. -/
instance (m : Mem) (r : Req) (a : r.Ans) : Decidable (ctrlPort.allows m r a) :=
  match r, a with
  | .read fd n, .ok bs => inferInstanceAs (Decidable (0 ≤ fd ∧ (fd = m.test.ctrlSck → bs ≠ [] ∧ bs.length ≤ n)))
  | .write fd bs, .ok n => inferInstanceAs (Decidable (0 ≤ fd ∧ n ≤ bs.length))
  | .write fd _, .error e => inferInstanceAs (Decidable (fd = m.test.ctrlSck → e ≠ .eintr))
  | .accept fd, .ok s =>
    inferInstanceAs (Decidable (0 < s ∧ s ≠ fd ∧ s ≠ m.test.protListener ∧ s ≠ m.test.ctrlSck))
  | .socket _ _, .ok s | .mkstemp, .ok s | .openFile _ _, .ok s =>
    inferInstanceAs (Decidable (0 < s ∧ s ≠ m.test.ctrlSck))
  | .makeCookie, bs => inferInstanceAs (Decidable (bs.length = COOKIE_SIZE))
  | .stack n, bs => inferInstanceAs (Decidable (bs.length = n))
  | .read _ _, .error _ | .accept _, .error _ | .socket _ _, .error _ | .mkstemp, .error _ | .openFile _ _, .error _
  | .sendfile _ _ _ _, _ | .close _, _ | .select _ _ _ _, _ | .gettimeofday, _ | .getaddrinfo _ _ _, _
  | .setsockopt _ _ _, _ | .bind _, _ | .listen _, _ | .connect _, _ | .recvfrom _, _ | .getsockname _, _
  | .getpeername _, _ | .getsockdomain _, _ | .getsockopt _ _, _ | .tcpInfo _, _ | .malloc _, _ | .mallocTimer, _
  | .mallocStruct, _ | .stackInterval, _ | .beyond, _ | .unlink, _ | .ftruncate _ _, _ | .mmap _ _, _ | .munmap _, _
  | .fstat _, _ | .random _, _ | .cpuUtil, _ | .catchSigend, _ | .setitimer _, _ | .sigalrm, _ | .setaffinity _, _
  | .clearaffinity, _ | .cJSON_Create, _ | .cJSON_Print _, _ | .cJSON_Parse _, _ | .output _, _ => .isTrue trivial

/-- A party parses the text of the document that it has heard last. -/
def Owes (d : Side) (_ : Mem) (v : View conversation) : Req → Prop
  | .cJSON_Parse text => v.log.getLast? = some (frame text) ∧
    ∃ p : Phase, p.turn = d.other ∧ p.messages = [(.document, v.state)]
  | _ => True

/-- `test->state` is one of the states of the phase. -/
def Agrees (d : Side) (m : Mem) (v : View conversation) : Prop := m.test.state ∈ Phase.states d v.state

/-- What a party owes to the other one. -/
abbrev talkContract (d : Side) : Contract Mem Req.Ans Halt (View conversation) :=
  ctrlPort.contract conversation d (Owes d) (Agrees d)

end Iperf
