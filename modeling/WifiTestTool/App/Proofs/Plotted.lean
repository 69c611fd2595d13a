import WifiTestTool.App.Progress
import WifiTestTool.App.Proofs.ReportLine
import WifiTestTool.Iperf.Control
import WifiTestTool.Iperf.Proofs.DataCalls
import WifiTestTool.Iperf.Proofs.MessageTexts

/-!
# Which messages are plotted

The app takes a line for an interval report if it has `bits/sec` in it and does not end with `sender` or
`receiver`. The lines of a UDP summary are such lines too, and a report in bytes is not.
-/

namespace WifiTest

open Iperf (Format Arg IperfStream IperfIntervalResults MessageText Unusual Mem Directive HasWord
  intervalFormat intervalLine messageFormat SystemArgs)

/-! ## What looks like a report -/

theorem Text.contains_iff (s part : Text) : s.contains part = true ↔ part <:+: s := by
  unfold Text.contains
  rw [List.any_eq_true, List.infix_iff_prefix_suffix]
  constructor
  · rintro ⟨rest, hrest, hpart⟩
    exact ⟨rest, List.isPrefixOf_iff_prefix.1 hpart, (List.mem_tails _ _).1 hrest⟩
  · rintro ⟨rest, hpart, hrest⟩
    exact ⟨rest, (List.mem_tails _ _).2 hrest, List.isPrefixOf_iff_prefix.2 hpart⟩

theorem Text.endsWith_iff (s part : Text) : s.endsWith part = true ↔ part <:+ s :=
  List.isSuffixOf_iff_suffix

/-- A word that is in a text is behind a blank that is not in it, if its first letter is not in front. -/
theorem infix_word {word front part : Text} {c : Char} (hblank : ' ' ∉ c :: word) (hfront : c ∉ front) :
    (c :: word) <:+: front ++ ' ' :: part ↔ (c :: word) <:+: part := by
  constructor
  · rintro ⟨u, v, heq⟩
    rw [List.append_assoc, List.append_eq_append_iff] at heq
    rcases heq with ⟨a, rfl, heq⟩ | ⟨a, rfl, heq⟩
    · rcases a with _ | ⟨d, a⟩
      · rw [List.nil_append, List.cons_append, List.cons.injEq] at heq
        exact absurd (heq.1 ▸ List.mem_cons_self) hblank
      · rw [List.cons_append, List.cons_append, List.cons.injEq] at heq
        exact absurd (by simp [heq.1]) hfront
    · rcases a with _ | ⟨d, a⟩
      · rw [List.nil_append, List.cons_append, List.cons.injEq] at heq
        exact absurd (heq.1 ▸ List.mem_cons_self) hblank
      · rw [List.cons_append, List.cons.injEq] at heq
        exact ⟨a, v, by rw [heq.2, List.append_assoc]⟩
  · rintro ⟨u, v, rfl⟩
    exact ⟨front ++ ' ' :: u, v, by simp only [List.append_assoc, List.cons_append]⟩

theorem suffix_word {word front part : Text} (hblank : ' ' ∉ word) :
    word <:+ front ++ ' ' :: part ↔ word <:+ part := by
  constructor
  · rintro ⟨u, heq⟩
    rw [List.append_eq_append_iff] at heq
    rcases heq with ⟨a, rfl, rfl⟩ | ⟨a, rfl, heq⟩
    · exact absurd (by simp) hblank
    · rcases a with _ | ⟨d, a⟩
      · rw [List.nil_append] at heq
        exact absurd (by simp [← heq]) hblank
      · rw [List.cons_append, List.cons.injEq] at heq
        exact ⟨a, heq.2.symm⟩
  · rintro ⟨u, rfl⟩
    exact ⟨front ++ ' ' :: u, by simp only [List.append_assoc, List.cons_append]⟩

theorem looksLikeReport_iff (value : Text) : looksLikeReport value = true ↔
    ¬ "sender".toList <:+ value ∧ ¬ "receiver".toList <:+ value ∧ "bits/sec".toList <:+: value := by
  unfold looksLikeReport
  rw [Bool.and_eq_true, Bool.and_eq_true, Bool.not_eq_true', Bool.not_eq_true', Text.contains_iff,
    ← Text.endsWith_iff, ← Text.endsWith_iff, Bool.not_eq_true, Bool.not_eq_true, and_assoc]

/-- What stands in front of a blank does not matter. -/
theorem looksLikeReport_word {front part : Text} (hfront : 'b' ∉ front) :
    looksLikeReport (front ++ ' ' :: part) = looksLikeReport part := by
  rw [Bool.eq_iff_iff, looksLikeReport_iff, looksLikeReport_iff, suffix_word (by decide),
    suffix_word (by decide)]
  exact and_congr_right fun _ => and_congr_right fun _ => infix_word (by decide) hfront

/-- A character is missing. -/
theorem looksLikeReport_of_notMem {value : Text} {c : Char} (hc : c ∈ "bits/sec".toList) (h : c ∉ value) :
    looksLikeReport value = false := by
  rw [← Bool.not_eq_true, looksLikeReport_iff]
  rintro ⟨-, -, hbits⟩
  exact h (hbits.subset hc)

theorem mem_of_mem_readLine {text : Text} {c : Char} (h : c ∈ readLine text) : c ∈ text :=
  (List.takeWhile_prefix _).subset h

/-- The line begins with what has no end of a line in it. -/
theorem readLine_append {front : Text} (h : '\n' ∉ front) (text : Text) :
    readLine (front ++ text) = front ++ readLine text := by
  unfold readLine
  exact List.takeWhile_append_of_pos fun c hc => decide_eq_true (fun heq => h (heq ▸ hc))

/-! ## The calls of `drawLinePort` -/

/-- The line is plotted: it looks like a report and can be taken apart. -/
def isPlotted (value : Text) : Bool := looksLikeReport value && (parseData value).isOk

theorem onProgressUpdate_calls (value : Text) (s : Screen) :
    (onProgressUpdate value s).1.calls = s.calls + if isPlotted value = true then 1 else 0 := by
  unfold onProgressUpdate Screen.draw isPlotted
  dsimp only
  by_cases hlooks : looksLikeReport value = true
  · rw [if_pos hlooks, hlooks, Bool.true_and]
    cases hparse : parseData value with
    | error e => rfl
    | ok bean =>
      dsimp only
      cases drawLinePort bean <;> rfl
  · rw [if_neg hlooks, Bool.eq_false_iff.2 hlooks]
    rfl

/-! ## The messages of a test with one stream -/

open Reactive (Prog)

/-- The calls that print the reports, the headers and the messages about connections. -/
inductive MessageCall where
  | iperfOnConnect
  | connectMsg (s : Int)
  | printIntervalResults
  | iperfPrintResults
deriving DecidableEq

/-- The call. The stream is the first one. -/
def MessageCall.prog : MessageCall → Iperf.IperfProg Unit
  | .iperfOnConnect => Iperf.iperfOnConnect
  | .connectMsg s => Iperf.connectMsg s
  | .printIntervalResults => Iperf.printIntervalResults 0
  | .iperfPrintResults => Iperf.iperfPrintResults

/-- A message that a call prints in the state `m`. -/
structure Prints (m : Mem) (call : MessageCall) (fmt : Format) (args : List Arg) (text : Text) : Prop where
  reached : ∃ (k : Unit → Iperf.IperfProg Unit) (m' : Mem),
    Prog.Reach Prog.free (call.prog, m, ()) (.call (.output (.iprintf fmt args)) k, m', ())
  text : MessageText m.test fmt args text

/-- A test with one stream, which may not be there yet. -/
structure SingleStream (t : Iperf.IperfTest) : Prop where
  numStreams : t.numStreams = 1
  streams : t.streams.length ≤ 1
  socket : ∀ st ∈ t.streams, 0 ≤ st.socket
  duration : ∀ st ∈ t.streams, ∀ irp ∈ st.result.intervalResults,
    irp.intervalDuration = Iperf.timevalDiff irp.intervalStartTime irp.intervalEndTime

/-- The part of a message that begins with a name that is not the engine's own: that of the host, the cookie
or the name of the file. -/
inductive NamePart (t : Iperf.IperfTest) : Format → List Arg → Text → Prop where
  | connecting (host : String) (port : Int) : NamePart t .reportConnecting [.text host, .int port]
      (host.toList ++ (", port ".toList ++ Iperf.signed (port < 0) (Nat.toDigits 10 port.natAbs)))
  | reverse (host : String) : NamePart t .reportReverse [.text host] (host.toList ++ " is sending".toList)
  | cookie : NamePart t .reportCookie [] (Iperf.cookieText t.cookie)
  | diskfile (sent size : ℚ) (percent : Int) (name : String) : NamePart t .reportDiskfile
      [.unit sent 'A', .unit size 'A', .int percent, .text name] name.toList

theorem readLine_end (text : Text) : readLine (text ++ ['\n']) = readLine text := by
  unfold readLine
  rw [List.takeWhile_append]
  split
  · next hall =>
    have heq := (List.takeWhile_prefix fun c => decide (c ≠ '\n')).eq_of_length hall
    rw [heq]
    simp
  · rfl

theorem unusual_b : Unusual 'b' := by decide

theorem unusual_slash : Unusual '/' := by decide

theorem unusual_newline : Unusual '\n' := by decide

/-- A message with a word in it, and what its line is. -/
theorem word_line {t : Iperf.IperfTest} {fmt : Format} {args front rest : List Arg} {word : Arg}
    {ds back : List Directive} {text name tail : Text} (htext : MessageText t fmt args text)
    (hargs : ∀ more, SystemArgs t fmt more → args ++ more = front ++ word :: rest)
    (hword : HasWord fmt front.length ds back) (hds : .char '\n' ∉ ds)
    (hfront : ∀ arg ∈ front, arg.Lacks '\n')
    (hname : Iperf.convert none 's' word = some name) (htail : Iperf.render back rest = some (tail ++ ['\n'])) :
    ∃ u, Iperf.render ds front = some u ∧ readLine text = u ++ ' ' :: readLine (name ++ tail) := by
  obtain ⟨u, s, v, hu, hs, hv, rfl⟩ := htext.word hword hargs
  cases hs.symm.trans hname
  cases hv.symm.trans htail
  have hline : '\n' ∉ u ++ [' '] := by
    rw [List.mem_append, not_or]
    exact ⟨Iperf.render_notMem unusual_newline hu hds hfront, by decide⟩
  refine ⟨u, hu, ?_⟩
  have hassoc : u ++ ' ' :: (name ++ (tail ++ ['\n'])) = (u ++ [' ']) ++ ((name ++ tail) ++ ['\n']) := by
    simp only [List.append_assoc, List.cons_append, List.nil_append]
  rw [hassoc, readLine_append hline, readLine_end]
  simp only [List.append_assoc, List.cons_append, List.nil_append]

/-- The text of a message with a name: in front of the blank before the name there is no `b`. -/
theorem NamePart.line {t : Iperf.IperfTest} {fmt : Format} {args : List Arg} {part text : Text}
    (h : NamePart t fmt args part) (htext : MessageText t fmt args text) :
    ∃ front, 'b' ∉ front ∧ readLine text = front ++ ' ' :: readLine part := by
  have hpad : ∀ s, Iperf.pad false 0 s = s := by
    intro s
    unfold Iperf.pad
    simp
  cases h with
  | connecting host port =>
    have hargs : ∀ more, SystemArgs t .reportConnecting more →
        [.text host, .int port] ++ more = [] ++ Arg.text host :: [.int port] := by
      intro more hmore
      rw [hmore.eq_nil (by simp)]
      rfl
    have hword : HasWord .reportConnecting 0 ("Connecting to host".toList.map .char)
      (", port ".toList.map .char ++ [.conversion false 0 none 'd', .char '\n']) := ⟨_, rfl, rfl, rfl⟩
    have htail : Iperf.render (", port ".toList.map .char ++ [.conversion false 0 none 'd', .char '\n'])
        [.int port] = some ((", port ".toList ++ Iperf.signed (port < 0) (Nat.toDigits 10 port.natAbs)) ++ ['\n']) := by
      rw [Iperf.render_chars]
      simp [Iperf.render, Iperf.convert, hpad]
    obtain ⟨u, hu, hline⟩ := word_line htext hargs hword (by decide) (by simp) rfl htail
    exact ⟨u, Iperf.render_notMem unusual_b hu (by decide) (by simp), hline⟩
  | reverse host =>
    have hargs : ∀ more, SystemArgs t .reportReverse more →
        [.text host] ++ more = [] ++ Arg.text host :: [] := by
      intro more hmore
      rw [hmore.eq_nil (by simp)]
      rfl
    have hword : HasWord .reportReverse 0 ("Reverse mode, remote host".toList.map .char)
      (" is sending".toList.map .char ++ [.char '\n']) := ⟨_, rfl, rfl, rfl⟩
    have htail : Iperf.render (" is sending".toList.map .char ++ [.char '\n']) [] =
        some (" is sending".toList ++ ['\n']) := by
      rw [Iperf.render_chars]
      rfl
    obtain ⟨u, hu, hline⟩ := word_line htext hargs hword (by decide) (by simp) rfl htail
    exact ⟨u, Iperf.render_notMem unusual_b hu (by decide) (by simp), hline⟩
  | cookie =>
    have hargs : ∀ more, SystemArgs t .reportCookie more →
        [] ++ more = [] ++ Arg.text (String.ofList (Iperf.cookieText t.cookie)) :: [] := by
      intro more hmore
      cases hmore with
      | cookie => rfl
      | none hnot => simp at hnot
    have hword : HasWord .reportCookie 0 ("      Cookie:".toList.map .char) [.char '\n'] := ⟨_, rfl, rfl, rfl⟩
    have htail : Iperf.render [.char '\n'] [] = some (([] : Text) ++ ['\n']) := rfl
    obtain ⟨u, hu, hline⟩ := word_line htext hargs hword (by decide) (by simp) rfl htail
    rw [String.toList_ofList, List.append_nil] at hline
    exact ⟨u, Iperf.render_notMem unusual_b hu (by decide) (by simp), hline⟩
  | diskfile sent size percent name =>
    have hargs : ∀ more, SystemArgs t .reportDiskfile more →
        [.unit sent 'A', .unit size 'A', .int percent, .text name] ++ more =
          [.unit sent 'A', .unit size 'A', .int percent] ++ Arg.text name :: [] := by
      intro more hmore
      rw [hmore.eq_nil (by simp)]
      rfl
    have hword : HasWord .reportDiskfile 3
      ("        Sent ".toList.map .char ++ .conversion false 0 none 's' :: (" / ".toList.map .char ++
        .conversion false 0 none 's' :: (" (".toList.map .char ++ .conversion false 0 none 'd' ::
          "%) of".toList.map .char))) [.char '\n'] := ⟨_, rfl, rfl, rfl⟩
    have htail : Iperf.render [.char '\n'] [] = some (([] : Text) ++ ['\n']) := rfl
    obtain ⟨u, hu, hline⟩ := word_line htext hargs hword (by decide) (by simp [Arg.Lacks]) rfl htail
    rw [List.append_nil] at hline
    exact ⟨u, Iperf.render_notMem unusual_b hu (by decide) (by simp [Arg.Lacks]), hline⟩

/-! ## The intervals -/

theorem SingleStream.modify {t : Iperf.IperfTest} (h : SingleStream t) {f : IperfStream → IperfStream} (sp : Nat)
    (hsocket : ∀ st ∈ t.streams, (f st).socket = st.socket)
    (hduration : ∀ st ∈ t.streams, ∀ irp ∈ (f st).result.intervalResults, irp ∈ st.result.intervalResults ∨
      irp.intervalDuration = Iperf.timevalDiff irp.intervalStartTime irp.intervalEndTime) :
    SingleStream { t with streams := t.streams.modify sp f } := by
  have hmem : ∀ st' ∈ t.streams.modify sp f, st' ∈ t.streams ∨ ∃ st ∈ t.streams, st' = f st := by
    intro st' hst'
    obtain ⟨i, hi, rfl⟩ := List.mem_iff_getElem.1 hst'
    rw [List.length_modify] at hi
    rw [List.getElem_modify]
    split_ifs
    · exact .inr ⟨_, List.getElem_mem hi, rfl⟩
    · exact .inl (List.getElem_mem hi)
  refine ⟨h.numStreams, by rw [List.length_modify]; exact h.streams, fun st' hst' => ?_, fun st' hst' => ?_⟩
  · rcases hmem st' hst' with hst | ⟨st, hst, rfl⟩
    · exact h.socket st' hst
    · rw [hsocket st hst]
      exact h.socket st hst
  · rcases hmem st' hst' with hst | ⟨st, hst, rfl⟩
    · exact h.duration st' hst
    · intro irp hirp
      rcases hduration st hst irp hirp with hirp | heq
      · exact h.duration st hst irp hirp
      · exact heq

/-- The loop of `iperf_stats_callback` records how long an interval was. -/
theorem statsStreams_single {t : Iperf.IperfTest} (h : SingleStream t) (sps : List Nat) (temp : IperfIntervalResults) :
    Iperf.Ends t (Iperf.statsStreams sps temp) fun _ t' => SingleStream t' := by
  have hclose : ∀ {t : Iperf.IperfTest} {temp : IperfIntervalResults} {endTime : Iperf.Timeval}, SingleStream t →
      temp.intervalDuration = Iperf.timevalDiff temp.intervalStartTime temp.intervalEndTime → ∀ sp,
      SingleStream { t with streams := t.streams.modify sp (IperfStream.closeInterval temp endTime) } := by
    intro t temp endTime h htemp sp
    refine h.modify sp (fun _ _ => rfl) fun st _ irp hirp => ?_
    rcases List.mem_append.1 hirp with hirp | hirp
    · exact .inl hirp
    · rw [List.mem_singleton.1 hirp]
      exact .inr htemp
  have hcounted : ∀ {t : Iperf.IperfTest} {temp : IperfIntervalResults} {endTime : Iperf.Timeval}, SingleStream t →
      temp.intervalDuration = Iperf.timevalDiff temp.intervalStartTime temp.intervalEndTime → ∀ sp,
      SingleStream { t with
        streams := t.streams.modify sp
          (IperfStream.closeInterval temp endTime ∘ IperfStream.countRetransmits temp) } := by
    intro t temp endTime h htemp sp
    have hcount : ∀ st, ∃ retrans total, IperfStream.countRetransmits temp st = { st with
        result := { st.result with streamRetrans := retrans, streamPrevTotalRetrans := total } } :=
      fun st => ⟨_, _, rfl⟩
    refine h.modify sp (fun st _ => ?_) fun st _ irp hirp => ?_
    · obtain ⟨retrans, total, heq⟩ := hcount st
      rw [Function.comp_apply, heq]
      rfl
    · obtain ⟨retrans, total, heq⟩ := hcount st
      rw [Function.comp_apply, heq] at hirp
      rcases List.mem_append.1 hirp with hirp | hirp
      · exact .inl hirp
      · rw [List.mem_singleton.1 hirp]
        exact .inr htemp
  induction sps generalizing t temp with
  | nil => exact .pure h
  | cons sp sps ih =>
    refine .getTest_bind (.getStream_bind fun st hst => .silent_bind Iperf.gettimeofday_silent fun endTime => ?_)
    refine .ite (fun _ => ?_) fun _ => ?_
    · refine .silent_bind (Iperf.saveTcpinfo_silent _ _) fun info => .ite (fun _ => ?_) fun _ => ?_
      · refine .modifyTest_bind (.modifyTest_bind ?_)
        rw [List.modify_modify_eq]
        exact ih (hcounted h rfl sp) _
      · exact .modifyTest_bind (ih (hclose h rfl sp) _)
    · refine .modifyTest_bind (ih (hclose h ?_ sp) _)
      unfold Iperf.packetRecord
      cases st.result.intervalResults.getLast? <;> rfl

/-- `iperf_stats_callback` leaves a test with one stream. -/
theorem SingleStream.iperfStatsCallback {t : Iperf.IperfTest} (h : SingleStream t) :
    Iperf.Ends t Iperf.iperfStatsCallback fun _ t' => SingleStream t' :=
  .getTest_bind (.silent_bind (.sys _) fun _ => .allStreams_bind (statsStreams_single h _ _))
/-! ## The kinds of messages -/

/-- The line about a stream, with the text at its end: what `print_interval_results` and the summary have in
common. -/
inductive StreamLine (unitFormat : Char) (fmt : Format) (word : Arg) : List Arg → Prop where
  | mk {socket : Int} {start finish bandwidth : ℚ} {bytes : UInt64} {rest : List Arg} (hsocket : 0 ≤ socket)
    (hstart : 0 ≤ start) (hfinish : 0 ≤ finish) (hbandwidth : 0 ≤ bandwidth ∧ bandwidth ≤ 2 ^ 64 * 10 ^ 6)
    (hrest : ∀ arg ∈ rest, ∀ c, arg.Lacks c) (hfmt : fmt ∈ Iperf.lineFormats)
    (hlength : Iperf.arity (Iperf.lineFront fmt) = 5 + rest.length) :
    StreamLine unitFormat fmt word
      (Iperf.intervalArgs (some socket) start finish bytes bandwidth unitFormat ++ (rest ++ [word]))

/-- What a call prints. A message that lacks a letter of `bits/sec` is `plain`. -/
inductive Kind (m : Mem) : MessageCall → Format → List Arg → Prop where
  | plain {call : MessageCall} {fmt : Format} {args : List Arg} (c : Char) (hc : c ∈ "bits/sec".toList)
    (hunusual : Unusual c) (hfmt : ∀ string ∈ messageFormat fmt, c ∉ string.toList)
    (hargs : ∀ more, SystemArgs m.test fmt more → ∀ arg ∈ args ++ more, arg.Lacks c)
    (hnot : intervalFormat fmt = none) : Kind m call fmt args
  | named {call : MessageCall} {fmt : Format} {args : List Arg} {part : Text}
    (h : NamePart m.test fmt args part) : Kind m call fmt args
  | interval {fmt : Format} {args : List Arg} {string : String} (omitted : Bool)
    (hfmt : intervalFormat fmt = some string)
    (h : StreamLine m.test.settings.unitFormat fmt (.bool omitted) args) : Kind m .printIntervalResults fmt args
  | summary {fmt : Format} {args : List Arg} {who : String} (hwho : who = "sender" ∨ who = "receiver")
    (hfmt : fmt = .reportBwFormat ∨ fmt = .reportBwRetransFormat)
    (h : StreamLine m.test.settings.unitFormat fmt (.text who) args) : Kind m .iperfPrintResults fmt args
  | udp {args : List Arg} (h : StreamLine m.test.settings.unitFormat .reportBwUdpFormat (.text "") args) :
    Kind m .iperfPrintResults .reportBwUdpFormat args

/-- The program prints messages of these kinds only, and leaves the memory as it is. -/
def Tells {α : Type} (m : Mem) (call : MessageCall) (p : Iperf.IperfProg α) : Prop :=
  p.Safe (lineContract (Kind m call)) (fun _ m' _ => m' = m) m ()

section Tells

variable {α β : Type} {m : Mem} {call : MessageCall}

theorem Tells.pure (a : α) : Tells m call (pure a) := rfl

theorem Tells.stop (h : Iperf.Halt) : Tells m call (Prog.stop h : Iperf.IperfProg α) := trivial

theorem Tells.bind {p : Iperf.IperfProg α} {f : α → Iperf.IperfProg β} (hp : Tells m call p)
    (hf : ∀ a, Tells m call (f a)) : Tells m call (p >>= f) := by
  refine Prog.Safe.bind hp ?_
  rintro a m' ⟨⟩ rfl
  exact hf a

theorem Tells.getTest {f : Iperf.IperfTest → Iperf.IperfProg α} (hf : Tells m call (f m.test)) :
    Tells m call (Iperf.getTest >>= f) := hf

theorem Tells.getStream {sp : Nat} {f : IperfStream → Iperf.IperfProg α}
    (hf : ∀ st ∈ m.test.streams, Tells m call (f st)) : Tells m call (Iperf.getStream sp >>= f) := by
  unfold Iperf.getStream
  rw [Reactive.Prog.bind_assoc]
  refine .getTest ?_
  cases hst : m.test.streams[sp]? with
  | none => trivial
  | some st => exact hf st (List.mem_of_getElem? hst)

theorem Tells.iprintf {fmt : Format} {args : List Arg} (h : Kind m call fmt args) :
    Tells m call (Iperf.iprintf fmt args) := iprintf_lines h

/-- Other calls print nothing. -/
theorem Tells.sys {r : Iperf.Req} (h : ∀ fmt args, r ≠ .output (.iprintf fmt args)) :
    Tells m call (Iperf.sys r) :=
  ⟨fun fmt args heq => absurd heq (h fmt args), fun _ _ => rfl⟩

/-- A part of the JSON document is no message. -/
theorem Tells.json {parent : Iperf.JsonNode} {name : String} {fields : List (String × Arg)} :
    Tells m call (Iperf.sys (.output (.json parent name fields))) :=
  .sys fun _ _ heq => by cases heq

theorem Tells.report {json : Bool} {parent : Iperf.JsonNode} {name : String} {fields : List (String × Arg)}
    {fmt : Format} {args : List Arg} (h : Kind m call fmt args) :
    Tells m call (Iperf.report json parent name fields fmt args) := by
  unfold Iperf.report
  by_cases hjson : json = true
  · rw [if_pos hjson]
    exact .json
  · rw [if_neg hjson]
    exact .iprintf h

/-- Headers and figures. -/
theorem Kind.figures {fmt : Format} {args : List Arg} (hargs : ∀ arg ∈ args, arg.Lacks 'b')
    (hsystem : fmt ∉ [.reportTime, .reportAccepted, .reportCookie, Format.reportConnected])
    (hnot : intervalFormat fmt = none) : Kind m call fmt args := by
  refine .plain 'b' (by decide) unusual_b (fun _ => Iperf.messageFormat_notMem) (fun more hmore => ?_) hnot
  rw [hmore.eq_nil hsystem, List.append_nil]
  exact hargs

end Tells

/-! ## What the calls print -/

section Calls

variable {m : Mem} {call : MessageCall}

theorem tells_printIntervalHeader (t : Iperf.IperfTest) (st : IperfStream) (irp : IperfIntervalResults) :
    Tells m call (Iperf.printIntervalHeader t st irp) := by
  unfold Iperf.printIntervalHeader
  split_ifs
  all_goals first
    | exact .pure ()
    | exact .iprintf (.figures nofun (by simp) rfl)

theorem tells_printIntervalLine (hsingle : SingleStream m.test) {st : IperfStream} (hst : st ∈ m.test.streams)
    {irp : IperfIntervalResults} (hirp : irp ∈ st.result.intervalResults) :
    Tells m .printIntervalResults (Iperf.printIntervalLine m.test st irp) := by
  have hbandwidth := Iperf.bandwidth_bound irp.bytesTransferred irp.intervalStartTime irp.intervalEndTime
  rw [← hsingle.duration st hst irp hirp] at hbandwidth
  have hline : ∀ {fmt : Format} {string : String} (rest : List Arg), intervalFormat fmt = some string →
      (∀ arg ∈ rest, ∀ c, arg.Lacks c) → fmt ∈ Iperf.lineFormats →
      Iperf.arity (Iperf.lineFront fmt) = 5 + rest.length →
      Kind m .printIntervalResults fmt (Iperf.intervalArgs (some st.socket) (reportStart st irp)
        (reportEnd st irp) irp.bytesTransferred (reportBandwidth irp) m.test.settings.unitFormat ++
          (rest ++ [.bool irp.omitted])) :=
    fun rest hstring hrest hfmt hlength => .interval irp.omitted hstring
      (.mk (hsingle.socket st hst) (Iperf.timevalDiff_nonneg _ _) (Iperf.timevalDiff_nonneg _ _) hbandwidth
        hrest hfmt hlength)
  have hretrans : Kind m .printIntervalResults .reportBwRetransCwndFormat (Iperf.intervalArgs (some st.socket)
      (reportStart st irp) (reportEnd st irp) irp.bytesTransferred (reportBandwidth irp)
        m.test.settings.unitFormat ++ ([.int irp.intervalRetrans, .unit irp.sndCwnd 'A'] ++ [.bool irp.omitted])) :=
    hline _ rfl (by simp [Arg.Lacks]) (by simp [Iperf.lineFormats]) rfl
  unfold Iperf.printIntervalLine
  dsimp only
  split_ifs
  · exact .bind .json fun _ => .iprintf hretrans
  · exact .bind (.pure ()) fun _ => .iprintf hretrans
  · exact .report (hline [] rfl (by simp) (by simp [Iperf.lineFormats]) rfl)
  · exact .report (hline [.int irp.intervalPacketCount] rfl (by simp [Arg.Lacks])
      (by simp [Iperf.lineFormats]) rfl)
  · exact .report (hline [.float (irp.jitter * 1000), .int irp.intervalCntError, .int irp.intervalPacketCount,
      .float (Iperf.ratio (100 * irp.intervalCntError) irp.intervalPacketCount)] rfl (by simp [Arg.Lacks])
      (by simp [Iperf.lineFormats]) rfl)

theorem tells_printIntervalResults (hsingle : SingleStream m.test) :
    Tells m .printIntervalResults (Iperf.printIntervalResults 0) := by
  unfold Iperf.printIntervalResults
  refine .getTest (.getStream fun st hst => ?_)
  split
  · exact .sys nofun
  · next irp hirp =>
    have hline := tells_printIntervalLine hsingle hst (List.mem_of_getLast? hirp)
    split_ifs
    · exact .bind (tells_printIntervalHeader _ _ _) fun _ => hline
    · exact hline

section Summary

variable {st : IperfStream} (tv0 tv1 : Iperf.Timeval)

theorem summary_line (hsocket : 0 ≤ st.socket) (bytes : UInt64) {fmt : Format} (word : String)
    (rest : List Arg) (hrest : ∀ arg ∈ rest, ∀ c, arg.Lacks c) (hfmt : fmt ∈ Iperf.lineFormats)
    (hlength : Iperf.arity (Iperf.lineFront fmt) = 5 + rest.length) :
    StreamLine m.test.settings.unitFormat fmt (.text word)
      (Iperf.intervalArgs (some st.socket) 0 (Iperf.timevalDiff tv0 tv1) bytes
        (Iperf.ratio (Iperf.bytesRat bytes) (Iperf.timevalDiff tv0 tv1)) m.test.settings.unitFormat ++
          (rest ++ [.text word])) :=
  .mk hsocket le_rfl (Iperf.timevalDiff_nonneg _ _) (Iperf.bandwidth_bound _ _ _) hrest hfmt hlength

theorem tells_printSummarySender (hsocket : 0 ≤ st.socket) :
    Tells m .iperfPrintResults (Iperf.printSummarySender m.test st (Iperf.timevalDiff tv0 tv1)) := by
  have hdatagrams : Kind m .iperfPrintResults .reportDatagrams
      [.int st.socket, .int (st.packetCount - st.omittedPacketCount)] :=
    .figures (by simp [Arg.Lacks]) (by simp) rfl
  have houtoforder : Kind m .iperfPrintResults .reportSumOutoforder
      [.float 0, .float (Iperf.timevalDiff tv0 tv1), .int st.cntError] :=
    .figures (by simp [Arg.Lacks]) (by simp) rfl
  unfold Iperf.printSummarySender
  dsimp only
  split_ifs
  · exact .report (.summary (.inl rfl) (.inr rfl) (summary_line tv0 tv1 hsocket st.result.bytesSent "sender"
      [.int st.result.streamRetrans] (by simp [Arg.Lacks]) (by simp [Iperf.lineFormats]) rfl))
  · exact .report (.summary (.inl rfl) (.inl rfl) (summary_line tv0 tv1 hsocket st.result.bytesSent "sender" []
      (by simp) (by simp [Iperf.lineFormats]) rfl))
  · exact .json
  all_goals
    refine .bind (.iprintf (.udp (summary_line tv0 tv1 hsocket st.result.bytesSent "" [.float (st.jitter * 1000),
      .int st.cntError, .int (st.packetCount - st.omittedPacketCount),
      .float (Iperf.ratio (100 * st.cntError) (st.packetCount - st.omittedPacketCount : Int))]
      (by simp [Arg.Lacks]) (by simp [Iperf.lineFormats]) rfl))) fun _ => ?_
  · exact .bind (.iprintf hdatagrams) fun _ => .iprintf houtoforder
  · exact .bind (.iprintf hdatagrams) fun _ => .pure ()
  · exact .bind (.pure ()) fun _ => .iprintf houtoforder
  · exact .bind (.pure ()) fun _ => .pure ()

theorem tells_printSummaryReceiver (hsocket : 0 ≤ st.socket) :
    Tells m .iperfPrintResults (Iperf.printSummaryReceiver m.test st (Iperf.timevalDiff tv0 tv1)) := by
  unfold Iperf.printSummaryReceiver
  dsimp only
  split_ifs
  · exact .report (.summary (.inr rfl) (.inl rfl) (summary_line tv0 tv1 hsocket st.result.bytesReceived
      "receiver" [] (by simp) (by simp [Iperf.lineFormats]) rfl))
  · exact .pure ()

theorem tells_printSummaryDiskfile (t : Iperf.IperfTest) (st : IperfStream) :
    Tells m call (Iperf.printSummaryDiskfile t st) := by
  unfold Iperf.printSummaryDiskfile
  split_ifs
  · refine .bind (.sys nofun) fun size => ?_
    cases size with
    | none => exact .pure ()
    | some size => exact .report (.named (.diskfile _ _ _ _))
  · exact .pure ()

theorem tells_printSummaries (hsingle : SingleStream m.test) (sps : List Nat) (a : Iperf.SummarySum) :
    Tells m .iperfPrintResults (Iperf.printSummaries (Iperf.timevalDiff tv0 tv1) sps a) := by
  induction sps generalizing a with
  | nil => exact .pure _
  | cons sp sps ih =>
    unfold Iperf.printSummaries
    refine .getTest ?_
    have hstream : Tells m .iperfPrintResults (do
        let st ← Iperf.getStream sp
        Iperf.printSummarySender m.test st (Iperf.timevalDiff tv0 tv1)
        Iperf.printSummaryDiskfile m.test st
        Iperf.printSummaryReceiver m.test st (Iperf.timevalDiff tv0 tv1)
        Iperf.printSummaries (Iperf.timevalDiff tv0 tv1) sps (a.add m.test st)) :=
      .getStream fun st hst =>
        .bind (tells_printSummarySender tv0 tv1 (hsingle.socket st hst)) fun _ =>
          .bind (tells_printSummaryDiskfile m.test st) fun _ =>
            .bind (tells_printSummaryReceiver tv0 tv1 (hsingle.socket st hst)) fun _ => ih _
    split_ifs with hjson
    · refine .bind (.sys nofun) fun ok => ?_
      dsimp only
      split_ifs
      · exact .pure none
      · exact .bind (.sys nofun) fun _ => hstream
    · refine .bind (.pure true) fun ok => ?_
      dsimp only
      split_ifs
      · exact .pure none
      · exact hstream

end Summary

theorem tells_printResultsHeader (t : Iperf.IperfTest) : Tells m call (Iperf.printResultsHeader t) := by
  have hheader : ∀ fmt ∈ [.reportBwSeparator, .reportSummary, .reportBwRetransHeader, .reportBwHeader,
      Format.reportBwUdpHeader], Tells m call (Iperf.iprintf fmt []) := by
    intro fmt hfmt
    simp only [List.mem_cons, List.not_mem_nil, or_false] at hfmt
    rcases hfmt with rfl | rfl | rfl | rfl | rfl
    all_goals exact .iprintf (.figures nofun (by simp) rfl)
  have hprotocol : Tells m call (do
      if Iperf.isByteProtocol t.protocol then
        if t.senderHasRetransmits ≠ 0 then Iperf.iprintf .reportBwRetransHeader []
        else Iperf.iprintf .reportBwHeader []
      else
        Iperf.iprintf .reportBwUdpHeader []
      Pure.pure true) := by
    split_ifs
    all_goals exact .bind (hheader _ (by simp)) fun _ => .pure true
  unfold Iperf.printResultsHeader
  by_cases hjson : t.jsonOutput = true
  · rw [if_pos hjson]
    refine .bind (.sys nofun) fun ok => ?_
    split_ifs
    · exact .pure false
    · exact .bind (.sys nofun) fun _ => .pure true
  · rw [if_neg hjson]
    refine .bind (hheader _ (by simp)) fun _ => ?_
    by_cases hverbose : t.verbose = true
    · rw [if_pos hverbose]
      exact .bind (hheader _ (by simp)) fun _ => hprotocol
    · rw [if_neg hverbose]
      exact .bind (.pure ()) fun _ => hprotocol

theorem tells_printCpu (t : Iperf.IperfTest) : Tells m call (Iperf.printCpu t) := by
  unfold Iperf.printCpu
  dsimp only
  split_ifs
  · exact .sys nofun
  · exact .iprintf (.figures (by simp [Arg.Lacks]) (by simp) rfl)
  · exact .iprintf (.figures (by simp [Arg.Lacks]) (by simp) rfl)
  · exact .pure ()

theorem tells_iperfPrintResults (hsingle : SingleStream m.test) :
    Tells m .iperfPrintResults Iperf.iperfPrintResults := by
  unfold Iperf.iperfPrintResults
  refine .getTest (.bind (tells_printResultsHeader m.test) fun ok => ?_)
  by_cases hok : (!ok) = true
  · rw [if_pos hok]
    exact .pure ()
  · rw [if_neg hok]
    split
    · exact .stop _
    · refine .bind (p := Iperf.allStreams) rfl fun sps => .bind (tells_printSummaries _ _ hsingle _ _) fun a => ?_
      split
      · exact .pure ()
      · split_ifs with hmany
        · rw [hsingle.numStreams] at hmany
          exact absurd hmany (by decide)
        · exact tells_printCpu m.test

theorem tells_reportPeer : Tells m call (Iperf.reportPeer m.test) := by
  unfold Iperf.reportPeer
  split_ifs
  · exact .sys nofun
  · exact .bind (.iprintf (.named (.connecting _ _))) fun _ => .iprintf (.named (.reverse _))
  · exact .bind (.iprintf (.named (.connecting _ _))) fun _ => .pure ()
  · exact .bind (.sys nofun) fun _ => .bind (.sys nofun) fun _ => .sys nofun
  · refine .bind (.sys nofun) fun _ => .bind (.sys nofun) fun _ => .iprintf ?_
    refine .plain '/' (by decide) unusual_slash (by decide) (fun more hmore => ?_) rfl
    cases hmore with
    | accepted ipr port h => simpa [Arg.Lacks] using h
    | none hnot => simp at hnot

theorem tells_reportMss (t : Iperf.IperfTest) {given byDefault : Int → Iperf.IperfProg Unit}
    (hgiven : ∀ mss, Tells m call (given mss)) (hdefault : ∀ mss, Tells m call (byDefault mss)) :
    Tells m call (Iperf.reportMss t given byDefault) := by
  unfold Iperf.reportMss
  split_ifs
  · exact hgiven _
  · exact .bind (.sys nofun) hdefault
  · exact .pure ()

theorem tells_reportCookie : Tells m call (Iperf.reportCookie m.test) := by
  have hmss : ∀ mss, Kind m call .tcpMss [.int mss] := fun mss =>
    .figures (by simp [Arg.Lacks]) (by simp) rfl
  have hdefault : ∀ mss, Kind m call .tcpMssDefault [.int mss] := fun mss =>
    .figures (by simp [Arg.Lacks]) (by simp) rfl
  unfold Iperf.reportCookie
  split_ifs
  · exact .bind (.sys nofun) fun _ => tells_reportMss _ (fun _ => .sys nofun) fun _ => .sys nofun
  · exact .bind (.iprintf (.named .cookie)) fun _ =>
      tells_reportMss _ (fun mss => .iprintf (hmss mss)) fun mss => .iprintf (hdefault mss)
  · exact .pure ()

theorem tells_iperfOnConnect : Tells m call Iperf.iperfOnConnect := by
  have htime : Tells m call (Iperf.reportTime m.test) := by
    unfold Iperf.reportTime
    split_ifs
    · exact .sys nofun
    · refine .iprintf (.plain '/' (by decide) unusual_slash (by decide) (fun more hmore => ?_) rfl)
      cases hmore with
      | time now h => simpa [Arg.Lacks] using h
      | none hnot => simp at hnot
    · exact .pure ()
  unfold Iperf.iperfOnConnect
  exact .getTest (.bind htime fun _ => .bind tells_reportPeer fun _ => tells_reportCookie)

theorem tells_connectMsg (s : Int) : Tells m call (Iperf.connectMsg s) := by
  unfold Iperf.connectMsg
  refine .getTest (.bind (.sys nofun) fun _ => ?_)
  split_ifs
  · exact .sys nofun
  · refine .iprintf (.plain '/' (by decide) unusual_slash (by decide) (fun more hmore => ?_) rfl)
    cases hmore with
    | connected ipl ipr lport rport hl hr => simpa [Arg.Lacks] using ⟨hl, hr⟩
    | none hnot => simp at hnot

/-- What a message is. -/
theorem Prints.kind {fmt : Format} {args : List Arg} {text : Text} (hsingle : SingleStream m.test)
    (h : Prints m call fmt args text) : Kind m call fmt args := by
  have htells : Tells m call call.prog := by
    cases call with
    | iperfOnConnect => exact tells_iperfOnConnect
    | connectMsg s => exact tells_connectMsg s
    | printIntervalResults => exact tells_printIntervalResults hsingle
    | iperfPrintResults => exact tells_iperfPrintResults hsingle
  obtain ⟨k, m', hreach⟩ := h.reached
  exact (htells.reach_free (fun _ _ _ => trivial) hreach).1 fmt args rfl

end Calls

/-! ## The lines about a stream -/

section StreamLine

variable {t : Iperf.IperfTest} {unitFormat c : Char} {fmt : Format} {args : List Arg} {word : Arg} {text w : Text}

theorem StreamLine.lacks (h : StreamLine unitFormat fmt word args)
    (hunit : ∀ bandwidth, (Arg.unit bandwidth unitFormat).Lacks c) (hword : word.Lacks c) :
    ∀ arg ∈ args, arg.Lacks c := by
  cases h with
  | mk hsocket hstart hfinish hbandwidth hrest hfmt hlength =>
    intro arg harg
    rcases List.mem_append.1 harg with harg | harg
    · exact Iperf.intervalArgs_lacks (hunit _) arg harg
    · rcases List.mem_append.1 harg with harg | harg
      · exact hrest arg harg c
      · rw [List.mem_singleton.1 harg]
        exact hword

/-- The line ends with its last word. -/
theorem StreamLine.line (h : StreamLine unitFormat fmt word args) (htext : MessageText t fmt args text)
    (hword : Iperf.convert none 's' word = some w) : ∃ u, readLine text = u ++ ' ' :: readLine w := by
  have hbits : ∀ s ∈ Iperf.labelBit, '\n' ∉ s.toList := by decide
  cases h with
  | mk hsocket hstart hfinish hbandwidth hrest hfmt hlength =>
    rename_i socket start finish bandwidth bytes rest
    have hfront : ∀ arg ∈ Iperf.intervalArgs (some socket) start finish bytes bandwidth unitFormat ++ rest,
        arg.Lacks '\n' := by
      intro arg harg
      rcases List.mem_append.1 harg with harg | harg
      · exact Iperf.intervalArgs_lacks (.inr hbits) arg harg
      · exact hrest arg harg '\n'
    have hargs : ∀ more, SystemArgs t fmt more →
        (Iperf.intervalArgs (some socket) start finish bytes bandwidth unitFormat ++ (rest ++ [word])) ++ more =
          (Iperf.intervalArgs (some socket) start finish bytes bandwidth unitFormat ++ rest) ++ word :: [] := by
      intro more hmore
      rw [hmore.eq_nil (Iperf.lineFormats_system hfmt), List.append_nil, List.append_assoc]
    have htail : Iperf.render [.char '\n'] [] = some (([] : Text) ++ ['\n']) := rfl
    have hends : HasWord fmt (Iperf.intervalArgs (some socket) start finish bytes bandwidth unitFormat ++
        rest).length (Iperf.lineFront fmt) [.char '\n'] := by
      rw [List.length_append]
      exact hlength ▸ Iperf.lineFront_word hfmt
    obtain ⟨u, -, hline⟩ := word_line htext hargs hends (Iperf.lineFront_newline hfmt) hfront hword htail
    rw [List.append_nil] at hline
    exact ⟨u, hline⟩

/-- A report in bytes does not look like one. -/
theorem StreamLine.not_plotted (h : StreamLine unitFormat fmt word args) (htext : MessageText t fmt args text)
    {string : String} (hfmt : intervalFormat fmt = some string) (hword : word.Lacks 'b')
    (hupper : unitFormat.isUpper = true) : isPlotted (readLine text) = false := by
  have hmissing : 'b' ∉ text := by
    refine htext.notMem unusual_b (fun _ => Iperf.messageFormat_notMem) fun more hmore => ?_
    rw [hmore.eq_nil (Iperf.intervalFormat_system hfmt), List.append_nil]
    exact h.lacks (fun _ => .inl hupper) hword
  unfold isPlotted
  rw [looksLikeReport_of_notMem (by decide : 'b' ∈ _) fun h => hmissing (mem_of_mem_readLine h)]
  rfl

theorem intervalLine_bits {socket start finish ubuf number tail : Text} {suffix : String}
    (hsuffix : suffix ∈ Iperf.labelBit) :
    "bits/sec".toList <:+: intervalLine socket start finish ubuf (number ++ ' ' :: suffix.toList) tail := by
  have hbit : ∃ unit : Text, suffix.toList = unit ++ "bit".toList := by
    simp only [Iperf.labelBit, List.mem_cons, List.not_mem_nil, or_false] at hsuffix
    rcases hsuffix with rfl | rfl | rfl | rfl
    · exact ⟨[], rfl⟩
    · exact ⟨['K'], rfl⟩
    · exact ⟨['M'], rfl⟩
    · exact ⟨['G'], rfl⟩
  obtain ⟨unit, hunit⟩ := hbit
  refine ⟨'[' :: (socket ++ ']' :: ' ' :: (start ++ '-' :: (finish ++ " sec  ".toList ++ ubuf ++ "s  ".toList ++
    (number ++ ' ' :: unit)))), "  ".toList ++ tail, ?_⟩
  rw [hunit]
  unfold intervalLine
  simp only [List.append_assoc, List.cons_append]
  rfl

/-- A report in bits is plotted. -/
theorem StreamLine.plotted (h : StreamLine unitFormat fmt word args) (htext : MessageText t fmt args text)
    {string : String} (hfmt : intervalFormat fmt = some string)
    (hword : Iperf.convert none 's' word = some w) (hw : w = [] ∨ w = "(omitted)".toList)
    (hlower : unitFormat.isUpper = false) : isPlotted (readLine text) = true := by
  have hprinted := htext.interval hfmt
  have hends : ¬ "sender".toList <:+ readLine text ∧ ¬ "receiver".toList <:+ readLine text := by
    obtain ⟨u, hline⟩ := h.line htext hword
    rw [hline, suffix_word (by decide), suffix_word (by decide)]
    rcases hw with rfl | rfl <;> decide
  cases h with
  | mk hsocket hstart hfinish hbandwidth hrest hline hlength =>
    obtain ⟨ubuf, nbuf, tail, hubuf, hnbuf, rfl⟩ := Iperf.vsprintf_interval hprinted
    obtain ⟨bytes, label, -, hbytes, rfl⟩ := Iperf.unitSnprintf_eq (Nat.cast_nonneg _) (.inr rfl) hubuf
    obtain ⟨scaled, suffix, hscaled, hsuffix, rfl⟩ :=
      Iperf.unitSnprintf_bits hbandwidth.1 hbandwidth.2 hlower hnbuf
    have hread := readLine_printed tail hsocket hstart hfinish hbytes hscaled (List.mem_append_right _ hsuffix)
    obtain ⟨transfer, hparsed⟩ := parseData_printed (readLine tail) hsocket hstart hfinish hbytes hscaled
      (List.mem_append_right _ hsuffix)
    rw [hread] at hends ⊢
    unfold isPlotted
    rw [(looksLikeReport_iff _).2 ⟨hends.1, hends.2, intervalLine_bits hsuffix⟩, hparsed]
    rfl

end StreamLine

/-! ## The result -/

/-- The app tells the message apart as it should: `drawLinePort` is called once for a line of an interval
report, and never for another message. -/
def ToldApart (call : MessageCall) (fmt : Format) (text : Text) : Prop :=
  ∀ s : Screen, (onProgressUpdate (readLine text) s).1.calls =
    s.calls + if call = .printIntervalResults ∧ (intervalFormat fmt).isSome = true then 1 else 0

theorem toldApart_iff {call : MessageCall} {fmt : Format} {text : Text} : ToldApart call fmt text ↔
    (isPlotted (readLine text) = true ↔ call = .printIntervalResults ∧ (intervalFormat fmt).isSome = true) := by
  unfold ToldApart
  constructor
  · intro h
    have hcalls := h ⟨[], [], 0⟩
    rw [onProgressUpdate_calls] at hcalls
    split_ifs at hcalls with hplotted hline hline
    · exact iff_of_true hplotted hline
    · exact absurd hcalls (by decide)
    · exact absurd hcalls (by decide)
    · exact iff_of_false hplotted hline
  · intro h s
    rw [onProgressUpdate_calls]
    simp only [h]

/-- What it takes for that: an interval report in bits, a UDP summary in bytes, and no name that makes a line
look like a report, unless the line cannot be taken apart. -/
structure Distinct (m : Mem) (call : MessageCall) (fmt : Format) (args : List Arg) (text : Text) : Prop where
  bits : call = .printIntervalResults → (intervalFormat fmt).isSome = true →
    m.test.settings.unitFormat.isUpper = false
  bytes : call = .iperfPrintResults → fmt = .reportBwUdpFormat → m.test.settings.unitFormat.isUpper = true
  name : ∀ part, NamePart m.test fmt args part → looksLikeReport (readLine part) = true →
    (parseData (readLine text)).isOk = false

/-- The message that a program is about to print, if the system gives no arguments for it. -/
def messageAt {α : Type} : Iperf.IperfProg α → Option (Format × Text)
  | .call (.output (.iprintf fmt args)) _ => do
    let string ← messageFormat fmt
    let ds ← Iperf.scanFormat .text string.toList
    let text ← Iperf.render ds args
    pure (fmt, text)
  | _ => none

theorem Prints.of_drive {m : Mem} {call : MessageCall} {fmt : Format} {text : Text} (steps : Nat)
    (hsystem : fmt ∉ [.reportTime, .reportAccepted, .reportCookie, Format.reportConnected])
    (h : messageAt (Prog.drive Prog.free (fun _ => Iperf.Req.quiet) steps 0 (call.prog, m, ())).1 =
      some (fmt, text)) : ∃ args, Prints m call fmt args text := by
  have hreach := Prog.drive_reach Prog.free (fun _ => Iperf.Req.quiet) steps 0 (call.prog, m, ())
  generalize Prog.drive Prog.free (fun _ => Iperf.Req.quiet) steps 0 (call.prog, m, ()) = c at h hreach
  obtain ⟨p, m', u⟩ := c
  cases p with
  | call r k =>
    cases r with
    | output o =>
      cases o with
      | iprintf fmt' args =>
        simp only [messageAt, Option.bind_eq_bind, Option.pure_def, Option.bind_eq_some_iff, Option.some.injEq,
          Prod.mk.injEq] at h
        obtain ⟨string, hstring, ds, hds, text', htext, rfl, rfl⟩ := h
        exact ⟨args, ⟨k, m', hreach⟩, string, ds, [], hstring, hds, .none hsystem,
          by rw [List.append_nil, htext]⟩
      | _ => cases h
    | _ => cases h
  | _ => cases h

/-- A test over TCP or UDP that has reported its second second. -/
def reportedMem (protocol : Iperf.ProtId) : Mem :=
  let st := reportStream 1250000
  Mem.start { Iperf.mainTest with
    protocol := protocol
    numStreams := 1
    streams := [{ st with
      packetCount := 850
      result := { st.result with bytesSent := 1250000, endTime := ⟨2, 0⟩ } }] }

theorem reportedMem_single (protocol : Iperf.ProtId) : SingleStream (reportedMem protocol).test where
  numStreams := rfl
  streams := Nat.le_refl 1
  socket st hst := by
    rw [List.mem_singleton.1 hst]
    decide
  duration st hst irp hirp := by
    rw [List.mem_singleton.1 hst] at hirp
    rw [List.mem_singleton.1 hirp]
    decide +kernel

end WifiTest
