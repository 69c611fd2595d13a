import WifiTestTool.Iperf.Proofs.ClientTalk
import WifiTestTool.Iperf.Proofs.Options
import WifiTestTool.Iperf.Proofs.ServerTalk

/-!
# A client and a server in step

A client and a server with a control connection between them take steps in any order, and what is written
on the connection is read later, in pieces of any size. Each of them keeps its contract, and so what they
say is one conversation, in which `test->state` of either follows the phase that it has come to.
-/

namespace Iperf

open Reactive
open Protocol (View)

/-! ## Phases -/

theorem Phase.message_of_next {p q : Phase} {w : List UInt8} (h : p.next w = some q) :
    q ∈ p.messages.map Prod.snd := by
  obtain ⟨m, hm, -⟩ := next_some h
  exact List.mem_map.2 ⟨_, hm, rfl⟩

/-- A phase that is reached from phases in which it is the turn of the other party. -/
theorem Phase.reached {d : Side} {q : Phase} (h : ∀ p : Phase, q ∈ p.messages.map Prod.snd → p.turn ≠ d) :
    ∀ (p : conversation.State) w, conversation.next p w = some q → conversation.turn p ≠ d :=
  fun p _ hnext => h p (Phase.message_of_next hnext)

/-- A phase behind a document is reached by it alone. -/
theorem document_once {p p' q : Phase} (h : p.messages = [(.document, q)]) (h' : q ∈ p'.messages.map Prod.snd) :
    p' = p := by
  cases p with
  | parameters | clientResults | serverResults =>
    obtain rfl := (Prod.mk.inj (List.cons.inj h).1).2
    revert h'
    cases p' <;> decide
  | _ => cases h

theorem phase_of_running {p : Phase} (h : TestState.TEST_RUNNING ∈ Phase.states .left p) : p = .testEnd := by
  revert h
  cases p <;> decide

theorem phase_of_client_done {p : Phase} (h : TestState.IPERF_DONE ∈ Phase.states .left p) :
    p = .iperfDone ∨ p = .finished := by
  revert h
  cases p <;> decide

theorem phase_of_server_done {p : Phase} (h : TestState.IPERF_DONE ∈ Phase.states .right p) : p = .finished := by
  revert h
  cases p <;> decide

/-- With the message before these phases the turn passes to the other party. -/
theorem Phase.turn_passed {p q : Phase} (h : q ∈ p.messages.map Prod.snd)
    (hq : q = .testEnd ∨ q = .iperfDone ∨ q = .finished) : p.turn ≠ q.turn := by
  rcases hq with rfl | rfl | rfl
  all_goals
    revert h
    cases p <;> decide

/-- The last words of the client. -/
theorem path_to_finished {p q : conversation.State} {ws : List (List UInt8)} (h : conversation.Path .left p ws q)
    (hq : q = Phase.finished) : p = Phase.iperfDone ∨ p = Phase.finished := by
  induction h with
  | nil => exact .inr hq
  | @cons p _ _ _ _ hturn hnext _ ih =>
    have hmem := Phase.message_of_next hnext
    rcases ih hq with rfl | rfl
    · revert hmem hturn
      cases p <;> decide
    · revert hmem
      cases p <;> decide

/-- Behind the last message nothing is said. -/
theorem path_from_finished {d : Side} {q : conversation.State} {ws : List (List UInt8)}
    (h : conversation.Path d Phase.finished ws q) : q = Phase.finished := by
  rcases h.inv with ⟨-, hq⟩ | ⟨_, _, _, -, -, hnext, -⟩
  · exact hq.symm
  · cases hnext

/-- A client that is about to say that it is done, or has said so, has a server that has displayed its results. -/
theorem server_near_end {view : Side → View conversation} {coming : Side → List UInt8}
    (h : Session.InStep view coming)
    (hleft : (view .left).state = Phase.iperfDone ∨ (view .left).state = Phase.finished) :
    (view .right).state = Phase.iperfDone ∨ (view .right).state = Phase.finished := by
  rcases hleft with hleft | hleft
  · obtain ⟨-, hstate⟩ := h.together (d := .left) (by rw [hleft]; rfl)
      (by rw [hleft]; exact Phase.reached fun p hp => Phase.turn_passed hp (.inr (.inl rfl)))
    exact .inl (hstate.trans hleft)
  · obtain ⟨d, ⟨⟨ws, -, hpath, -⟩, -⟩, -⟩ := h.leads
    cases d with
    | left => exact path_to_finished hpath hleft
    | right =>
      rw [Side.other, hleft] at hpath
      exact .inr (path_from_finished hpath)

/-! ## Reachable states -/

/-- `iperf_run_client` at the left end and `iperf_run_server` at the right end -/
def party (fuel : Side → Nat) : Side → IperfProg Int
  | .left => iperfRunClient (fuel .left)
  | .right => iperfRunServer (fuel .right)

/-- A client and a server with a control connection between them -/
abbrev Connection := Session Mem Req.Ans Halt Int conversation

namespace Connection

/-- Both processes have parsed their command lines, and nothing has been said. -/
def start (fuel : Side → Nat) (t : Side → IperfTest) : Connection :=
  Session.start (party fuel) (fun d => Mem.start (t d)) Phase.cookie

/-- Any number of steps of the two processes, in any order -/
abbrev Reach : Connection → Connection → Prop := Session.Reach fun _ => ctrlPort

/-- `test->state` of the process at an end -/
abbrev state (c : Connection) (d : Side) : TestState := (c.mem d).test.state

end Connection

/-- What a command line does not touch -/
def IperfTest.unopened (t : IperfTest) : Int × Int × Int × TestState × List IperfStream :=
  (t.ctrlSck, t.listener, t.protListener, t.state, t.streams)

theorem update_unopened (o : Opt) (p : ParseState) : (o.update p).test.unopened = p.test.unopened := by
  have hset : (o.setTest p.test).unopened = p.test.unopened := by cases o <;> rfl
  exact hset

theorem parseOpts_unopened {opts : List Opt} {p p' : ParseState} (h : parseOpts opts p = .ok p') :
    p'.test.unopened = p.test.unopened := by
  induction opts generalizing p with
  | nil =>
    cases h
    rfl
  | cons o opts ih =>
    simp only [parseOpts] at h
    cases ho : parseOpt p o with
    | error e =>
      rw [ho] at h
      cases h
    | ok p₁ =>
      rw [ho] at h
      rw [ih h, (parseOpt_ok ho).2]
      exact update_unopened o p

theorem parsed_unopened {opts : List Opt} {t : IperfTest} (h : iperfParseArguments mainTest opts = .ok t) :
    t.unopened = (-1, 0, -1, 0, []) := by
  obtain ⟨p, hp, rfl, -⟩ := parseArguments_ok h
  exact parseOpts_unopened hp

/-- A process that has parsed its command line has no connection yet. -/
theorem idle_start {d : Side} {opts : List Opt} {t : IperfTest} (h : iperfParseArguments mainTest opts = .ok t)
    (hrole : t.role = roleAt d) : Idle d NoListener (Mem.start t) (View.start Phase.cookie) := by
  have ht := parsed_unopened h
  simp only [IperfTest.unopened, Prod.mk.injEq] at ht
  obtain ⟨hctrl, hlistener, hprotListener, hstate, hstreams⟩ := ht
  refine ⟨hctrl, hrole, hstreams, ?_, rfl, hlistener, hprotListener⟩
  show t.state ∈ _
  rw [hstate]
  cases d <;> decide

/-! ## A run on fixed inputs -/

/-- The answers to two processes with one stream. What the server is told of the parameters and both are told of the
results are the same empty fields. -/
def plainWires (m : Mem) (coming : List UInt8) : (r : Req) → r.Ans
  | .read fd n => .ok (if fd = m.test.ctrlSck then coming.take n else List.replicate n 0)
  | .select _ readSet writeSet _ => .ok (1, if coming = [] then readSet.erase m.test.ctrlSck else readSet, writeSet)
  | .accept _ => .ok (if m.test.ctrlSck = -1 then 4 else 9)
  | .socket _ _ => .ok (if m.test.ctrlSck = -1 then 3 else 7)
  | .mallocTimer => some m.timers.live
  | .cJSON_Print _ => some (ascii ['{', '}'])
  | .cJSON_Parse _ => some (.obj [("cpu_util_total", .null), ("cpu_util_user", .null), ("cpu_util_system", .null),
      ("sender_has_retransmits", .null), ("streams", .null)])
  | r => r.quiet

/-- `iperf3 -c h -n 1 -l 1` and `iperf3 -s` -/
def oneByte : Side → List Opt
  | .left => [.client "h", .bytes 1, .length 1]
  | .right => [.server]

/-- The tests of the two -/
def oneByteTest (d : Side) : IperfTest :=
  match iperfParseArguments mainTest (oneByte d) with
  | .ok t => t
  | .error _ => mainTest

theorem oneByte_parsed (d : Side) : iperfParseArguments mainTest (oneByte d) = .ok (oneByteTest d) := by
  have hok : (iperfParseArguments mainTest (oneByte d)).toOption.isSome := by cases d <;> decide +kernel
  unfold oneByteTest
  cases hp : iperfParseArguments mainTest (oneByte d) with
  | ok t => rfl
  | error e =>
    rw [hp] at hok
    cases hok

theorem oneByte_role (d : Side) : (oneByteTest d).role = roleAt d := by cases d <;> decide +kernel

/-- A run of the two -/
def oneByteRun (turns : List (Side × Nat)) : Connection :=
  Session.drive (fun _ => ctrlPort) plainWires turns (Connection.start (fun _ => 12) oneByteTest)

theorem oneByteRun_reach (turns : List (Side × Nat)) :
    Connection.Reach (.start (fun _ => 12) oneByteTest) (oneByteRun turns) := Session.drive_reach _ _ _ _

/-- The server is about to parse the parameters. -/
def untilParameters : List (Side × Nat) := [(.left, 18), (.right, 34), (.left, 19), (.right, 3)]

/-- The server has said that the test starts, and that it runs. -/
def untilStarted : List (Side × Nat) := untilParameters ++ [(.right, 22), (.left, 34), (.right, 58)]

/-- The client has heard of it. -/
def untilRunning : List (Side × Nat) := untilStarted ++ [(.left, 39)]

/-- Both are done. -/
def untilDone : List (Side × Nat) :=
  untilRunning ++ [(.left, 40), (.right, 37), (.left, 16), (.right, 40), (.left, 100), (.right, 13)]

/-- The text that a process is about to parse -/
def textToParse : IperfProg Int → Option (List UInt8)
  | .call (.cJSON_Parse text) _ => some text
  | _ => none

theorem call_of_textToParse {p : IperfProg Int} {text : List UInt8} (h : textToParse p = some text) :
    ∃ k, p = .call (.cJSON_Parse text) k := by
  unfold textToParse at h
  split at h
  · cases h
    exact ⟨_, rfl⟩
  · cases h

/-! ## The two processes in step -/

variable {fuel : Side → Nat} {opts : Side → List Opt} {t : Side → IperfTest} {c : Connection}

/-- Each party keeps its contract in every interleaving. -/
theorem connection_good
    (ht : ∀ d, iperfParseArguments mainTest (opts d) = .ok (t d)) (hrole : ∀ d, (t d).role = roleAt d)
    (hr : Connection.Reach (.start fuel t) c) :
    c.Good (fun _ => ctrlPort) Owes Agrees fun _ => TalkedOut := by
  refine Session.reach_good (fun d => ?_) (fun d => (idle_start (ht d) (hrole d)).agrees) hr
  have hidle := idle_start (ht d) (hrole d)
  cases d with
  | left => exact talk_iperfRunClient _ _ _ hidle
  | right => exact talk_iperfRunServer _ _ _ ⟨hidle.ctrl, hidle.role, hidle.streams, hidle.agrees, hidle.view, trivial⟩

/-- **No document is made up.** A text that a process is about to parse is that of the last document that it has heard,
whole, and the other process has said it before: its log begins with that of this one. -/
theorem connection_documents
    (ht : ∀ d, iperfParseArguments mainTest (opts d) = .ok (t d)) (hrole : ∀ d, (t d).role = roleAt d)
    (hr : Connection.Reach (.start fuel t) c) {d : Side} {text : List UInt8} {k : Option Json → IperfProg Int}
    (hcall : c.prog d = .call (.cJSON_Parse text) k) :
    ∃ log ws, (c.view d).log = log ++ [frame text] ∧ (c.view d.other).log = log ++ [frame text] ++ ws := by
  have hgood := connection_good ht hrole hr
  have hsafe := hgood.safe d
  rw [hcall] at hsafe
  obtain ⟨⟨⟨hlast, p, hturn, hmessages⟩, -⟩, -⟩ := hsafe
  obtain ⟨log, hlog⟩ := List.getLast?_eq_some_iff.1 hlast
  have hreached : ∀ p' : Phase, (c.view d).state ∈ p'.messages.map Prod.snd → p'.turn ≠ d := by
    intro p' hp'
    rw [document_once hmessages hp', hturn]
    exact Side.other_ne d
  obtain ⟨ws, hother, -⟩ := hgood.inStep.behind (Phase.reached hreached)
  exact ⟨log, ws, hlog, by rw [hother, hlog]⟩

/-- The server has got the parameters. -/
theorem connection_documents_parameters :
    ∃ c, Connection.Reach (.start (fun _ => 12) oneByteTest) c ∧
      textToParse (c.prog .right) = some (ascii ['{', '}']) ∧
      ∃ log ws, (c.view .right).log = log ++ [frame (ascii ['{', '}'])] ∧
        (c.view .left).log = log ++ [frame (ascii ['{', '}'])] ++ ws := by
  have hreach := oneByteRun_reach untilParameters
  have htext : textToParse ((oneByteRun untilParameters).prog .right) = some (ascii ['{', '}']) := by decide +kernel
  generalize oneByteRun untilParameters = c at hreach htext
  obtain ⟨k, hcall⟩ := call_of_textToParse htext
  exact ⟨c, hreach, htext, connection_documents oneByte_parsed oneByte_role hreach hcall⟩

end Iperf
