import WifiTestTool.Iperf.Proofs.Accounting
import WifiTestTool.Iperf.Proofs.CallRuns
import WifiTestTool.Iperf.Proofs.ResultExchange
import WifiTestTool.Lib.Updates

/-!
# What `get_results` takes from a document

`get_results` stores the header of a document as soon as it is complete, and then applies the entries for the
streams one after the other; an entry that is not complete or has an unknown id makes it fail at the end but does
not stop it. So a stream ends up as the last of its entries says, and one without an entry is left as it was,
whether the call succeeds or not.
-/

namespace Iperf

open Reactive Updates

/-- The entry `j` as far as it is for the stream at `i`: the first with the id of the entry. -/
def entryFor (sts : List IperfStream) (i : Nat) (j : Json) : Option RemoteResult :=
  (remoteResult j).filter fun r => sts.findIdx? (fun st => st.id = r.id) = some i

/-- A complete entry with the id of a stream -/
def KnownEntry (sts : List IperfStream) (j : Json) : Prop :=
  ∃ r, remoteResult j = some r ∧ r.id ∈ sts.map (·.id)

/-- The streams as the last of their entries says. -/
def takenStreams (sender : Bool) (js : List Json) (sts : List IperfStream) : List IperfStream :=
  sts.mapIdx fun i st =>
    match last (entryFor sts i) js with
    | none => st
    | some r => st.takeResult sender r

/-- Only the last result counts. -/
theorem takeResult_takeResult (sender : Bool) (r r' : RemoteResult) (st : IperfStream) :
    (st.takeResult sender r).takeResult sender r' = st.takeResult sender r' := by
  cases sender <;> rfl

/-- A result does not change the id of its stream. -/
theorem ids_modify (sts : List IperfStream) (sp : Nat) (sender : Bool) (r : RemoteResult) :
    (sts.modify sp (IperfStream.takeResult sender r)).map (·.id) = sts.map (·.id) := by
  refine List.ext_getElem? fun i => ?_
  rw [List.getElem?_map, List.getElem?_map, List.getElem?_modify]
  cases sts[i]? with
  | none => rfl
  | some st => by_cases h : sp = i <;> simp [h, takeResult_id]

theorem findIdx_ids (sts : List IperfStream) (id : Int) :
    sts.findIdx? (fun st => st.id = id) = (sts.map (·.id)).findIdx? (· = id) := by
  rw [List.findIdx?_map]
  rfl

theorem entryFor_modify (sts : List IperfStream) (sp : Nat) (sender : Bool) (r : RemoteResult) (i : Nat) :
    entryFor (sts.modify sp (IperfStream.takeResult sender r)) i = entryFor sts i := by
  funext j
  unfold entryFor
  simp only [findIdx_ids, ids_modify]

theorem getElem?_takenStreams (sender : Bool) (js : List Json) (sts : List IperfStream) (i : Nat) :
    (takenStreams sender js sts)[i]? = sts[i]?.map fun st =>
      match last (entryFor sts i) js with
      | none => st
      | some r => st.takeResult sender r := List.getElem?_mapIdx

/-- One entry more: it counts where no later one does. -/
theorem takenStreams_cons {sts : List IperfStream} {j : Json} {r : RemoteResult} {sp : Nat} (sender : Bool)
    (js : List Json) (hj : remoteResult j = some r) (hsp : sts.findIdx? (fun st => st.id = r.id) = some sp) :
    takenStreams sender (j :: js) sts =
      takenStreams sender js (sts.modify sp (IperfStream.takeResult sender r)) := by
  refine List.ext_getElem? fun i => ?_
  have hentry : entryFor sts i j = if sp = i then some r else none := by
    unfold entryFor
    rw [hj, Option.filter_some, hsp]
    simp
  rw [getElem?_takenStreams, getElem?_takenStreams, entryFor_modify, last_cons, hentry, List.getElem?_modify]
  cases sts[i]? with
  | none => rfl
  | some st =>
    cases hl : last (entryFor sts i) js with
    | none => by_cases h : sp = i <;> simp [h]
    | some r' => by_cases h : sp = i <;> simp [h, takeResult_takeResult]

/-- An entry that is for no stream changes nothing. -/
theorem takenStreams_skip {sts : List IperfStream} {j : Json} (sender : Bool) (js : List Json)
    (hj : ∀ i, entryFor sts i j = none) : takenStreams sender (j :: js) sts = takenStreams sender js sts := by
  unfold takenStreams
  simp only [last_cons, hj, Option.or_none]

theorem takenStreams_nil (sender : Bool) (sts : List IperfStream) : takenStreams sender [] sts = sts := by
  refine List.ext_getElem? fun i => ?_
  rw [getElem?_takenStreams, last_nil]
  exact Option.map_id' ..

/-- **The loop of `get_results`.** -/
theorem takeStreamResults_taken (js : List Json) (t : IperfTest) (e : Option IErr) :
    (takeStreamResults js (t, e)).1 = { t with streams := takenStreams t.sender js t.streams } ∧
      ((takeStreamResults js (t, e)).2 = none ↔ e = none ∧ ∀ j ∈ js, KnownEntry t.streams j) := by
  induction js generalizing t e with
  | nil =>
    rw [takenStreams_nil, takeStreamResults]
    exact ⟨rfl, by simp⟩
  | cons j js ih =>
    cases hj : remoteResult j with
    | none =>
      have hskip : ∀ i, entryFor t.streams i j = none := fun i => by rw [entryFor, hj]; rfl
      have hunknown : ¬ KnownEntry t.streams j := by
        rintro ⟨r, hr, -⟩
        rw [hj] at hr
        cases hr
      simp only [takeStreamResults, hj, takenStreams_skip _ _ hskip]
      refine ⟨(ih t _).1, (ih t _).2.trans ?_⟩
      simp [hunknown]
    | some r =>
      cases hsp : t.streams.findIdx? fun st => st.id = r.id with
      | none =>
        have hskip : ∀ i, entryFor t.streams i j = none := fun i => by
          rw [entryFor, hj, Option.filter_some, hsp]
          simp
        have hunknown : ¬ KnownEntry t.streams j := by
          rintro ⟨r', hr', hmem⟩
          rw [hj] at hr'
          cases hr'
          obtain ⟨st, hst, hid⟩ := List.mem_map.1 hmem
          have hnot := List.findIdx?_eq_none_iff.1 hsp st hst
          simp [hid] at hnot
        simp only [takeStreamResults, hj, hsp, takenStreams_skip _ _ hskip]
        refine ⟨(ih t _).1, (ih t _).2.trans ?_⟩
        simp [hunknown]
      | some sp =>
        have hknown : KnownEntry t.streams j := by
          obtain ⟨hlt, hid, -⟩ := List.findIdx?_eq_some_iff_getElem.1 hsp
          exact ⟨r, hj, List.mem_map.2 ⟨_, List.getElem_mem hlt, by simpa using hid⟩⟩
        have hsame : ∀ j', KnownEntry (t.streams.modify sp (IperfStream.takeResult t.sender r)) j' ↔
            KnownEntry t.streams j' := by
          intro j'
          unfold KnownEntry
          rw [ids_modify]
        simp only [takeStreamResults, hj, hsp]
        obtain ⟨h1, h2⟩ := ih { t with streams := t.streams.modify sp (IperfStream.takeResult t.sender r) } e
        refine ⟨?_, ?_⟩
        · rw [h1, takenStreams_cons _ _ hj hsp]
        · rw [h2]
          simp [hknown, hsame]

/-! ## `get_results` -/

/-- The document has the items of the header. -/
def HasHeader (j : Json) : Prop :=
  ∀ name ∈ ["cpu_util_total", "cpu_util_user", "cpu_util_system", "sender_has_retransmits"],
    (cJSON_GetObjectItem j name).isSome

instance (j : Json) : Decidable (HasHeader j) := inferInstanceAs (Decidable (∀ _ ∈ _, _))

/-- The entries for the streams -/
def resultEntries (j : Json) : List Json :=
  match cJSON_GetObjectItem j "streams" with
  | none => []
  | some streams => cJSON_children streams

/-- The test with the header of the document: the CPU load of the other side and, on the receiver, whether the
sender counts retransmits. -/
def takenHeader (j : Json) (t : IperfTest) : IperfTest :=
  let t := { t with remoteCpuUtil := (lookupOr j "cpu_util_total" Json.valuefloat 0,
    lookupOr j "cpu_util_user" Json.valuefloat 0, lookupOr j "cpu_util_system" Json.valuefloat 0) }
  if t.sender then t else { t with senderHasRetransmits := lookupInt j "sender_has_retransmits" 0 }

/-- What `get_results` leaves of the test `t` when it has read the document `d` and returns `r`. -/
structure ResultsTaken (t : IperfTest) (d : Option Json) (r : Int) (t' : IperfTest) : Prop where
  result : r = 0 ∨ r = -1
  /-- Success: a whole header, and a list of complete entries for known streams. -/
  success : r = 0 ↔ ∃ j ∈ d, HasHeader j ∧ (cJSON_GetObjectItem j "streams").isSome ∧
    ∀ e ∈ resultEntries j, KnownEntry t.streams e
  /-- Without a document, or without the whole header, nothing has changed. -/
  rejected : (∀ j ∈ d, ¬ HasHeader j) → t' = t
  /-- Otherwise the header is stored, and every stream is as the last of its entries says. -/
  taken : ∀ j ∈ d, HasHeader j →
    t' = { takenHeader j t with streams := takenStreams t.sender (resultEntries j) t.streams }

theorem takenHeader_streams (j : Json) (t : IperfTest) :
    (takenHeader j t).streams = t.streams ∧ (takenHeader j t).sender = t.sender := by
  unfold takenHeader
  dsimp only
  split <;> exact ⟨rfl, rfl⟩

/-- What is taken from a document. -/
theorem takeResults_taken (j : Json) (t : IperfTest) :
    ((takeResults j t).2 = none ↔ HasHeader j ∧ (cJSON_GetObjectItem j "streams").isSome ∧
      ∀ e ∈ resultEntries j, KnownEntry t.streams e) ∧
    (¬ HasHeader j → (takeResults j t).1 = t) ∧
    (HasHeader j → (takeResults j t).1 =
      { takenHeader j t with streams := takenStreams t.sender (resultEntries j) t.streams }) := by
  by_cases hheader : HasHeader j
  · have hitem : ∀ name ∈ ["cpu_util_total", "cpu_util_user", "cpu_util_system", "sender_has_retransmits"],
        ∃ p, cJSON_GetObjectItem j name = some p := fun name hname =>
      Option.isSome_iff_exists.1 (hheader name hname)
    obtain ⟨total, htotal⟩ := hitem "cpu_util_total" (by simp)
    obtain ⟨user, huser⟩ := hitem "cpu_util_user" (by simp)
    obtain ⟨system, hsystem⟩ := hitem "cpu_util_system" (by simp)
    obtain ⟨retransmits, hretransmits⟩ := hitem "sender_has_retransmits" (by simp)
    have htaken : takeResults j t = match cJSON_GetObjectItem j "streams" with
        | none => (takenHeader j t, some .IERECVRESULTS)
        | some streams => takeStreamResults (cJSON_children streams) (takenHeader j t, none) := by
      unfold takeResults takenHeader lookupInt lookupOr
      rw [htotal, huser, hsystem, hretransmits]
      try rfl
    obtain ⟨hstreams, hsender⟩ := takenHeader_streams j t
    rw [htaken]
    unfold resultEntries
    cases hs : cJSON_GetObjectItem j "streams" with
    | none =>
      refine ⟨by simp, fun h => absurd hheader h, fun _ => ?_⟩
      simp only [takenStreams_nil, ← hstreams]
    | some streams =>
      obtain ⟨hfst, hsnd⟩ := takeStreamResults_taken (cJSON_children streams) (takenHeader j t) none
      refine ⟨?_, fun h => absurd hheader h, fun _ => ?_⟩
      · simp only [hsnd, hstreams, hheader, Option.isSome_some, true_and]
      · simp only [hfst, hstreams, hsender]
  · have htaken : takeResults j t = (t, some .IERECVRESULTS) := by
      unfold takeResults
      split
      · rename_i h1 h2 h3 h4
        refine absurd ?_ hheader
        simp [HasHeader, h1, h2, h3, h4]
      · rfl
    rw [htaken]
    exact ⟨by simp [hheader], fun _ => rfl, fun h => absurd h hheader⟩

/-- The observer of the document that was read. -/
def docObserver : Observer (Option Json) where
  notes
    | _, .cJSON_Parse _, r => r
    | g, _, _ => g
  allows _ _ _ _ := True

theorem nread_watched {t : IperfTest} {d : Option Json} (fd : Int) (fuel count : Nat) :
    Sees docObserver t d (nread fuel fd count) fun _ t' d' => t' = t ∧ d' = d := by
  suffices H : ∀ fuel got, Sees docObserver t d (nreadLoop fd count fuel got) fun _ t' d' => t' = t ∧ d' = d from
    H fuel []
  intro fuel
  induction fuel with
  | zero => exact fun _ => .stop _
  | succ fuel ih =>
    intro got
    refine .ite (fun _ => .pure ⟨rfl, rfl⟩) fun _ => .sys_bind fun a _ => ?_
    match a with
    | .error .eintr => exact ih got
    | .ok [] => exact .pure ⟨rfl, rfl⟩
    | .ok (b :: bs) => exact ih _
    | .error (.other _) | .error .eagain | .error .enobufs | .error .enomem | .error .ebadf
    | .error .eafnosupport | .error .einprogress => exact .setErrno_bind (.pure ⟨rfl, rfl⟩)

/-- The document that `JSON_read` returns is the one that was read. -/
theorem jsonRead_watched {t : IperfTest} (fd : Int) (fuel : Nat) :
    Sees docObserver t none (jsonRead fuel fd) fun j t' d => t' = t ∧ j = d := by
  refine .sys_bind fun nsize _ => .bind (nread_watched fd fuel 4) ?_
  rintro got t₁ d₁ ⟨rfl, rfl⟩
  cases got with
  | none => exact .pure ⟨rfl, rfl⟩
  | some got =>
    refine .sys_bind fun str _ => ?_
    cases str with
    | none => exact .pure ⟨rfl, rfl⟩
    | some str =>
      refine .bind (nread_watched fd fuel _) ?_
      rintro got₂ t₂ d₂ ⟨rfl, rfl⟩
      cases got₂ with
      | none => exact .pure ⟨rfl, rfl⟩
      | some got₂ => exact .ask fun r _ => ⟨rfl, rfl⟩

/-- `get_results` takes from the document that was read. -/
theorem getResults_watched {t : IperfTest} (fuel : Nat) :
    Sees docObserver t none (getResults fuel) fun r t' d =>
      match d with
      | none => r = -1 ∧ t' = t
      | some j => t' = (takeResults j t).1 ∧ r = if (takeResults j t).2 = none then 0 else -1 := by
  refine .getTest_bind (.bind (jsonRead_watched t.ctrlSck fuel) ?_)
  rintro j t₁ d ⟨rfl, rfl⟩
  cases j with
  | none => exact .setIErrno_bind (.pure ⟨rfl, rfl⟩)
  | some j =>
    dsimp only
    generalize htake : takeResults j t₁ = te
    obtain ⟨t', e⟩ := te
    refine .modifyTest_bind ?_
    cases e with
    | none =>
      refine .pure ?_
      simp only [htake, if_pos, and_self]
    | some e =>
      refine .setIErrno_bind (.pure ?_)
      simp only [htake, reduceCtorEq, if_false, and_self]

/-- **What `get_results` takes.** It succeeds exactly on a document with a whole header and a list of complete
entries for known streams. Without a whole header nothing has changed; with it the header is stored, and every
stream is as the last of its entries says, also when the call fails. -/
theorem results_taken {fuel : Nat} {m m' : Mem} {r : Int} {d : Option Json}
    (h : Goes docObserver m none (getResults fuel) (.ret r, m', d)) : ResultsTaken m.test d r m'.test := by
  have hnoted := (getResults_watched fuel).reach h
  cases d with
  | none =>
    obtain ⟨rfl, ht⟩ := hnoted
    exact ⟨.inr rfl, by simp, fun _ => ht, nofun⟩
  | some j =>
    obtain ⟨ht, hr⟩ := hnoted
    obtain ⟨hsuccess, hrejected, htaken⟩ := takeResults_taken j m.test
    refine ⟨?_, ?_, ?_, ?_⟩
    · rw [hr]
      split_ifs
      · exact .inl rfl
      · exact .inr rfl
    · rw [hr]
      simpa using hsuccess
    · intro hno
      rw [ht]
      exact hrejected (hno j rfl)
    · rintro j' hj hheader
      cases hj
      rw [ht]
      exact htaken hheader

/-! ## Not all or nothing -/

/-- A run of `JSON_read` that reads the document `j`. -/
theorem jsonRead_run (m : Mem) (fd : Int) (j : Json) :
    Goes docObserver m none (jsonRead 2 fd) (.ret (some j), m, some j) := by
  have hheader : Goes docObserver m none (nread 2 fd 4) (.ret (some [0, 0, 0, 0]), m, none) := by
    rw [nread, nreadLoop, if_neg (by simp)]
    exact .sys_bind (r := .read fd (4 - 0)) (Except.ok [0, 0, 0, 0]) trivial (.refl _)
  refine .sys_bind (r := .stack 4) [0, 0, 0, 0] trivial (.seq hheader ?_)
  refine .sys_bind (r := .malloc _) (some [0]) trivial ?_
  have hbody : Goes docObserver m none (nread 2 fd 0) (.ret (some []), m, none) := .refl _
  exact .seq hbody (.ask (r := .cJSON_Parse _) (some j) trivial)

/-- A run of `get_results` that reads the document `j`. -/
theorem getResults_run (t : IperfTest) (j : Json) : ∃ m', m'.test = (takeResults j t).1 ∧
    Goes docObserver (Mem.start t) none (getResults 2)
      (.ret (if (takeResults j t).2 = none then 0 else -1), m', some j) := by
  generalize htake : takeResults j t = te
  obtain ⟨t', e⟩ := te
  cases e with
  | none =>
    refine ⟨{ Mem.start t with test := t' }, rfl, .getTest_bind (.seq (jsonRead_run _ _ j) ?_)⟩
    simp only [Mem.start, htake]
    exact .modifyTest_bind (.refl _)
  | some e =>
    refine ⟨{ Mem.start t with test := t', iErrno := e }, rfl, .getTest_bind (.seq (jsonRead_run _ _ j) ?_)⟩
    simp only [Mem.start, htake]
    exact .modifyTest_bind (.setIErrno_bind (.refl _))

/-- A header -/
def smallHeader : List (String × Json) :=
  [("cpu_util_total", .int 1), ("cpu_util_user", .int 1), ("cpu_util_system", .int 0),
    ("sender_has_retransmits", .int 0)]

/-- The entry of the stream 1, with the number of bytes -/
def smallEntry (bytes : Int) : Json :=
  .obj [("id", .int 1), ("bytes", .int bytes), ("retransmits", .int 0), ("jitter", .int 0), ("errors", .int 0),
    ("packets", .int 0)]

/-- All or nothing: on success every stream was updated from exactly one entry with its id, and otherwise
nothing has changed. -/
def AllOrNothing (t : IperfTest) (d : Option Json) (r : Int) (t' : IperfTest) : Prop :=
  (r = 0 → ∃ j ∈ d, ∀ st ∈ t.streams,
    ((resultEntries j).filter fun e => (remoteResult e).any (·.id = st.id)).length = 1) ∧
  (r = -1 → t'.streams = t.streams ∧ t'.remoteCpuUtil = t.remoteCpuUtil ∧
    t'.senderHasRetransmits = t.senderHasRetransmits)

/-- A receiver with one stream -/
def receivingServer : IperfTest :=
  let t := iperfSetTestRole .server mainTest
  { t with streams := [{ newStream t 3 4 (-1) [1, 2, 3, 4] with id := 1 }] }

theorem results_taken_one_stream : ∃ m', Goes docObserver (Mem.start receivingServer) none (getResults 2)
    (.ret 0, m', some (.obj (smallHeader ++ [("streams", .arr [smallEntry 4, smallEntry 8])]))) ∧
    m'.test.streams.map (·.result.bytesSent) = [8] ∧
    ResultsTaken receivingServer (some (.obj (smallHeader ++ [("streams", .arr [smallEntry 4, smallEntry 8])]))) 0
      m'.test := by
  obtain ⟨m', ht, hrun⟩ := getResults_run receivingServer
    (.obj (smallHeader ++ [("streams", .arr [smallEntry 4, smallEntry 8])]))
  rw [if_pos (by decide)] at hrun
  refine ⟨m', hrun, ?_, results_taken hrun⟩
  rw [ht]
  decide

/-- A header without entries: the call succeeds and no stream was updated. A header alone: the call fails, and the
load of the other side has changed. -/
theorem results_half_taken :
    (¬ ∀ fuel m m' d, Goes docObserver m none (getResults fuel) (.ret 0, m', d) →
      AllOrNothing m.test d 0 m'.test) ∧
    ¬ ∀ fuel m m' d, Goes docObserver m none (getResults fuel) (.ret (-1), m', d) →
      AllOrNothing m.test d (-1) m'.test := by
  constructor
  · intro hall
    obtain ⟨m', ht, hrun⟩ := getResults_run receivingServer (.obj (smallHeader ++ [("streams", .arr [])]))
    rw [if_pos (by decide)] at hrun
    obtain ⟨j, hj, hevery⟩ := (hall _ _ _ _ hrun).1 rfl
    obtain rfl := Option.some.inj hj
    exact absurd (hevery _ (List.mem_cons_self ..)) (by decide)
  · intro hall
    obtain ⟨m', ht, hrun⟩ := getResults_run receivingServer (.obj smallHeader)
    rw [if_neg (by decide)] at hrun
    have hsame := ((hall _ _ _ _ hrun).2 rfl).2.1
    rw [ht] at hsame
    exact absurd hsame (by decide)

end Iperf
