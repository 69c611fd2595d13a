import WifiTestTool.Iperf.Proofs.ParamsExchange
import WifiTestTool.Iperf.Proofs.Plumbing

/-!
# The exchange of the results

Both ends send a document with one item for every stream, and take the other end's values by the id of
the stream: the receiver takes the bytes that were sent and the retransmits, the sender everything else.
The server takes the client's results before it sends its own, so what it sends already holds what it
has taken; that this does not matter is part of what is shown here.
-/

namespace Iperf

open Reactive

/-! ## The documents -/

/-- What `get_results` finds in the item for the stream `v` of the test `u`. -/
def sentResult (u : IperfTest) (v : IperfStream) : RemoteResult where
  id := toInt v.id
  bytes := UInt64.ofInt (toInt64 (if u.sender then v.result.bytesSent else v.result.bytesReceived))
  retransmits := toInt (if u.sender && u.senderHasRetransmits ≠ 0 then v.result.streamRetrans else -1)
  jitter := v.jitter
  errors := toInt v.cntError
  packets := toInt v.packetCount

/-- An item is found by the position of its name. -/
theorem getObjectItem_at {items : List (String × Json)} {name : String} {names : List String} {i : Nat}
    (hnames : items.map Prod.fst = names) (hi : names.findIdx? (strcasecmpEq · name) = some i) :
    cJSON_GetObjectItem (.obj items) name = items[i]?.map Prod.snd := by
  subst hnames
  rw [List.findIdx?_map] at hi
  show (items.find? fun kv => strcasecmpEq kv.1 name).map Prod.snd = _
  rw [List.find?_eq_bind_findIdx?_getElem?, show items.findIdx? (fun kv => strcasecmpEq kv.1 name) = some i from hi]
  rfl

/-- The names of the items of a stream in the results. -/
def resultNames : List String := ["id", "bytes", "retransmits", "jitter", "errors", "packets"]

theorem remoteResult_items (id bytes retransmits errors packets : Int) (jitter : ℚ) :
    remoteResult (.obj [("id", .int id), ("bytes", .int bytes), ("retransmits", .int retransmits),
      ("jitter", .float jitter), ("errors", .int errors), ("packets", .int packets)]) =
    some ⟨toInt id, UInt64.ofInt bytes, toInt retransmits, jitter, toInt errors, toInt packets⟩ := by
  generalize hitems : [("id", Json.int id), ("bytes", Json.int bytes),
    ("retransmits", Json.int retransmits), ("jitter", Json.float jitter), ("errors", Json.int errors),
    ("packets", Json.int packets)] = items
  have hnames : items.map Prod.fst = resultNames := by rw [← hitems]; rfl
  have hid := @getObjectItem_at items "id" resultNames 0 hnames (by decide)
  have hbytes := @getObjectItem_at items "bytes" resultNames 1 hnames (by decide)
  have hretransmits := @getObjectItem_at items "retransmits" resultNames 2 hnames (by decide)
  have hjitter := @getObjectItem_at items "jitter" resultNames 3 hnames (by decide)
  have herrors := @getObjectItem_at items "errors" resultNames 4 hnames (by decide)
  have hpackets := @getObjectItem_at items "packets" resultNames 5 hnames (by decide)
  rw [remoteResult, hid, hbytes, hretransmits, hjitter, herrors, hpackets, ← hitems]
  simp only [List.getElem?_cons_zero, List.getElem?_cons_succ, Option.map_some, Option.bind_eq_bind,
    Option.bind_some, Json.int, Json.float, Json.valueint, Json.valuefloat]

theorem remoteResult_streamResultDoc (u : IperfTest) (v : IperfStream) :
    remoteResult (streamResultDoc u v) = some (sentResult u v) := remoteResult_items ..

/-- The stream `st` after the results of the streams `vs` of the test `u` were read. -/
def IperfStream.takeFrom (sender : Bool) (u : IperfTest) (vs : List IperfStream) (st : IperfStream) :
    IperfStream :=
  match vs.find? fun v => v.id = st.id with
  | none => st
  | some v => st.takeResult sender (sentResult u v)

theorem takeResult_id (sender : Bool) (r : RemoteResult) (st : IperfStream) :
    (st.takeResult sender r).id = st.id := by
  cases sender <;> rfl

theorem takeFrom_id (sender : Bool) (u : IperfTest) (vs : List IperfStream) (st : IperfStream) :
    (st.takeFrom sender u vs).id = st.id := by
  unfold IperfStream.takeFrom
  split
  · rfl
  · exact takeResult_id _ _ _

/-- With distinct ids, changing the stream that was found changes the stream with this id. -/
theorem modify_found {sts : List IperfStream} {id : Int} {f : IperfStream → IperfStream} {i : Nat}
    (hnd : (sts.map (·.id)).Nodup) (hi : sts.findIdx? (fun st => st.id = id) = some i) :
    sts.modify i f = sts.map fun st => if st.id = id then f st else st := by
  induction sts generalizing i with
  | nil => cases hi
  | cons st sts ih =>
    rw [List.map_cons, List.nodup_cons] at hnd
    rw [List.findIdx?_cons] at hi
    by_cases hst : st.id = id
    · simp only [hst, decide_true, if_true, Option.some.injEq] at hi
      subst hi
      have hrest : sts.map (fun st => if st.id = id then f st else st) = sts := by
        conv_rhs => rw [← List.map_id sts]
        refine List.map_congr_left fun st' hst' => ?_
        have hne : st'.id ≠ id := fun h => hnd.1 (by rw [hst, ← h]; exact List.mem_map_of_mem hst')
        simp [hne]
      simp [hst, hrest]
    · simp only [hst, decide_false, Bool.false_eq_true, if_false, Option.map_eq_some_iff] at hi
      obtain ⟨j, hj, rfl⟩ := hi
      simp [hst, ih hnd.2 hj]

/-- `get_results` reads an item for each of the streams `vs`. -/
theorem takeStreamResults_spec (u : IperfTest) (e : Option IErr) : ∀ (vs : List IperfStream) (t : IperfTest),
    (vs.map (·.id)).Nodup → (∀ v ∈ vs, IsInt v.id) → (t.streams.map (·.id)).Nodup →
    (∀ v ∈ vs, v.id ∈ t.streams.map (·.id)) →
    takeStreamResults (vs.map (streamResultDoc u)) (t, e) =
      ({ t with streams := t.streams.map (·.takeFrom t.sender u vs) }, e) := by
  intro vs
  induction vs with
  | nil =>
    intro t _ _ _ _
    have hnil : t.streams.map (·.takeFrom t.sender u []) = t.streams := List.map_id' t.streams
    rw [hnil]
    rfl
  | cons v vs ih =>
    intro t hnd hint htnd hmem
    rw [List.map_cons, List.nodup_cons] at hnd
    have hid : toInt v.id = v.id := toInt_of_isInt (hint v List.mem_cons_self)
    obtain ⟨st₀, hst₀, hst₀id⟩ := List.mem_map.1 (hmem v List.mem_cons_self)
    obtain ⟨i, hi⟩ : ∃ i, t.streams.findIdx? (fun st => st.id = v.id) = some i := by
      rw [← Option.isSome_iff_exists, List.findIdx?_isSome]
      exact List.any_eq_true.2 ⟨st₀, hst₀, decide_eq_true hst₀id⟩
    have hstep : takeStreamResults ((v :: vs).map (streamResultDoc u)) (t, e) =
        takeStreamResults (vs.map (streamResultDoc u))
          ({ t with streams := t.streams.modify i (IperfStream.takeResult t.sender (sentResult u v)) }, e) := by
      rw [List.map_cons, takeStreamResults, remoteResult_streamResultDoc]
      have hi' : t.streams.findIdx? (fun st => st.id = (sentResult u v).id) = some i := by
        show t.streams.findIdx? (fun st => st.id = toInt v.id) = some i
        rw [hid]
        exact hi
      simp only [hi']
    have hids : (t.streams.modify i (IperfStream.takeResult t.sender (sentResult u v))).map (·.id) =
        t.streams.map (·.id) := by
      rw [modify_found htnd hi, List.map_map]
      refine List.map_congr_left fun st _ => ?_
      show (if st.id = v.id then st.takeResult t.sender (sentResult u v) else st).id = st.id
      split
      · exact takeResult_id _ _ _
      · rfl
    rw [hstep, ih _ hnd.2 (fun w hw => hint w (List.mem_cons_of_mem _ hw)) (hids ▸ htnd)
      fun w hw => hids ▸ hmem w (List.mem_cons_of_mem _ hw)]
    have hstreams : (t.streams.modify i (IperfStream.takeResult t.sender (sentResult u v))).map
        (·.takeFrom t.sender u vs) = t.streams.map (·.takeFrom t.sender u (v :: vs)) := by
      rw [modify_found htnd hi, List.map_map]
      refine List.map_congr_left fun st _ => ?_
      show (if st.id = v.id then st.takeResult t.sender (sentResult u v) else st).takeFrom t.sender u vs =
        st.takeFrom t.sender u (v :: vs)
      by_cases hst : st.id = v.id
      · have hnone : vs.find? (fun w => w.id = st.id) = none := by
          rw [List.find?_eq_none]
          intro w hw hwid
          exact hnd.1 (by rw [← hst, ← of_decide_eq_true hwid]; exact List.mem_map_of_mem hw)
        unfold IperfStream.takeFrom
        rw [if_pos hst, takeResult_id, hnone, List.find?_cons_of_pos (by simp [hst])]
      · unfold IperfStream.takeFrom
        rw [if_neg hst, List.find?_cons_of_neg (by simpa using fun h => hst h.symm)]
    rw [hstreams]

/-- The names of the items of the results. -/
def resultsNames : List String :=
  ["cpu_util_total", "cpu_util_user", "cpu_util_system", "sender_has_retransmits", "streams"]

/-- The test `t` after it has read the results of the test `u`. -/
def takenFrom (u t : IperfTest) : IperfTest :=
  { t with
    remoteCpuUtil := u.cpuUtil
    senderHasRetransmits := if t.sender then t.senderHasRetransmits
      else toInt (if u.sender then u.senderHasRetransmits else -1)
    streams := t.streams.map (·.takeFrom t.sender u u.streams) }

/-- The stream lists of two tests fit together: the same distinct ids. -/
structure SameStreams (u t : IperfTest) : Prop where
  ids : (u.streams.map (·.id)).Perm (t.streams.map (·.id))
  nodup : (t.streams.map (·.id)).Nodup
  range : ∀ st ∈ t.streams, IsInt st.id

theorem SameStreams.symm {u t : IperfTest} (h : SameStreams u t) : SameStreams t u := by
  refine ⟨h.ids.symm, h.ids.symm.nodup h.nodup, fun v hv => ?_⟩
  obtain ⟨st, hst, hid⟩ := List.mem_map.1 (h.ids.mem_iff.1 (List.mem_map_of_mem hv))
  rw [← hid]
  exact h.range st hst

/-- `get_results` reads what `send_results` wrote. -/
theorem takeResults_resultDoc {u t : IperfTest} (h : SameStreams u t) :
    takeResults (resultDoc u) t = (takenFrom u t, none) := by
  have hstreams : ∀ t₁ : IperfTest, t₁.streams = t.streams →
      takeStreamResults (u.streams.map (streamResultDoc u)) (t₁, none) =
        ({ t₁ with streams := t₁.streams.map (·.takeFrom t₁.sender u u.streams) }, none) := by
    intro t₁ ht₁
    refine takeStreamResults_spec u none u.streams t₁ h.symm.nodup h.symm.range (ht₁ ▸ h.nodup)
      fun v hv => ?_
    rw [ht₁]
    exact h.ids.mem_iff.1 (List.mem_map_of_mem hv)
  unfold resultDoc
  generalize hitems : [("cpu_util_total", Json.float u.cpuUtil.1), ("cpu_util_user", .float u.cpuUtil.2.1),
    ("cpu_util_system", .float u.cpuUtil.2.2),
    ("sender_has_retransmits", .int (if u.sender then u.senderHasRetransmits else -1)),
    ("streams", .arr (u.streams.map (streamResultDoc u)))] = items
  have hnames : items.map Prod.fst = resultsNames := by rw [← hitems]; rfl
  have hget : ∀ i name, resultsNames.findIdx? (strcasecmpEq · name) = some i →
      cJSON_GetObjectItem (.obj items) name = items[i]?.map Prod.snd := fun i name h =>
    getObjectItem_at hnames h
  have hretransmits : items[3]?.map Prod.snd =
      some (.int (if u.sender then u.senderHasRetransmits else -1)) := by rw [← hitems]; rfl
  have hstreamItem : items[4]?.map Prod.snd = some (.arr (u.streams.map (streamResultDoc u))) := by
    rw [← hitems]; rfl
  have hcpu : items[0]?.map Prod.snd = some (.float u.cpuUtil.1) ∧
      items[1]?.map Prod.snd = some (.float u.cpuUtil.2.1) ∧
      items[2]?.map Prod.snd = some (.float u.cpuUtil.2.2) := by rw [← hitems]; exact ⟨rfl, rfl, rfl⟩
  have htotal := (hget 0 "cpu_util_total" (by decide)).trans hcpu.1
  have huser := (hget 1 "cpu_util_user" (by decide)).trans hcpu.2.1
  have hsystem := (hget 2 "cpu_util_system" (by decide)).trans hcpu.2.2
  have hretrans := (hget 3 "sender_has_retransmits" (by decide)).trans hretransmits
  have hlist := (hget 4 "streams" (by decide)).trans hstreamItem
  unfold takeResults
  rw [htotal, huser, hsystem, hretrans]
  dsimp only
  rw [hlist]
  dsimp only [cJSON_children]
  rw [hstreams _ (by split <;> rfl)]
  unfold takenFrom
  cases t.sender <;> simp only [Bool.false_eq_true, if_true, if_false, Json.float, Json.valuefloat,
    Json.int, Json.valueint]

/-! ## Agreement -/

/-- The counters of the streams are in the ranges of their types in C, and the bytes below `2 ^ 63`. -/
structure CountersInRange (t : IperfTest) : Prop where
  bytesSent : ∀ st ∈ t.streams, st.result.bytesSent.toNat < 2 ^ 63
  bytesReceived : ∀ st ∈ t.streams, st.result.bytesReceived.toNat < 2 ^ 63
  streamRetrans : ∀ st ∈ t.streams, IsInt st.result.streamRetrans
  cntError : ∀ st ∈ t.streams, IsInt st.cntError
  packetCount : ∀ st ∈ t.streams, IsInt st.packetCount
  senderHasRetransmits : IsInt t.senderHasRetransmits

/-- The streams `a'` and `b'` of the sender and the receiver, which were `a` and `b`, agree: they have the
bytes sent of the sender, and everything else of the receiver. -/
structure StreamsAgree (retransmits : Bool) (a b a' b' : IperfStream) : Prop where
  bytesSent : a'.result.bytesSent = a.result.bytesSent ∧ b'.result.bytesSent = a.result.bytesSent
  bytesReceived : a'.result.bytesReceived = b.result.bytesReceived ∧
    b'.result.bytesReceived = b.result.bytesReceived
  cntError : a'.cntError = b.cntError ∧ b'.cntError = b.cntError
  packetCount : a'.packetCount = b.packetCount ∧ b'.packetCount = b.packetCount
  streamRetrans : retransmits = true → b'.result.streamRetrans = a'.result.streamRetrans

/-- The tests `p'` and `q'` of the sender and the receiver, which were `p` and `q`, agree. -/
structure Agree (p q p' q' : IperfTest) : Prop where
  senderHasRetransmits : p'.senderHasRetransmits = p.senderHasRetransmits ∧
    q'.senderHasRetransmits = p.senderHasRetransmits
  ids : p'.streams.map (·.id) = p.streams.map (·.id) ∧ q'.streams.map (·.id) = q.streams.map (·.id)
  streams : ∀ a ∈ p.streams, ∀ b ∈ q.streams, ∀ a' ∈ p'.streams, ∀ b' ∈ q'.streams,
    b.id = a.id → a'.id = a.id → b'.id = a.id →
    StreamsAgree (decide (p.senderHasRetransmits = 1)) a b a' b'

theorem takenFrom_ids (u t : IperfTest) : (takenFrom u t).streams.map (·.id) = t.streams.map (·.id) := by
  show (t.streams.map _).map _ = _
  rw [List.map_map]
  exact List.map_congr_left fun st _ => takeFrom_id _ _ _ _

/-- Streams with the same id are the same. -/
theorem eq_of_id {sts : List IperfStream} (hnd : (sts.map (·.id)).Nodup) {st st' : IperfStream}
    (hst : st ∈ sts) (hst' : st' ∈ sts) (hid : st'.id = st.id) : st' = st :=
  List.inj_on_of_nodup_map hnd hst' hst hid

/-- The stream takes the result of the stream with its id. -/
theorem takeFrom_found {sender : Bool} {u : IperfTest} {vs : List IperfStream} {st v : IperfStream}
    (hnd : (vs.map (·.id)).Nodup) (hv : v ∈ vs) (hid : v.id = st.id) :
    st.takeFrom sender u vs = st.takeResult sender (sentResult u v) := by
  have hfind : vs.find? (fun w => w.id = st.id) = some v := by
    obtain ⟨w, hw⟩ : ∃ w, vs.find? (fun w => w.id = st.id) = some w := by
      rw [← Option.isSome_iff_exists, List.find?_isSome]
      exact ⟨v, hv, decide_eq_true hid⟩
    have hwid : w.id = st.id := by simpa using List.find?_some hw
    rw [hw, eq_of_id hnd hv (List.mem_of_find?_eq_some hw) (hwid.trans hid.symm)]
  unfold IperfStream.takeFrom
  rw [hfind]

/-- What becomes of a stream. -/
theorem takenFrom_stream {u t : IperfTest} (h : SameStreams u t) {st v st' : IperfStream}
    (hst : st ∈ t.streams) (hv : v ∈ u.streams) (hst' : st' ∈ (takenFrom u t).streams)
    (hid : v.id = st.id) (hid' : st'.id = st.id) : st' = st.takeResult t.sender (sentResult u v) := by
  obtain ⟨st₀, hst₀, rfl⟩ := List.mem_map.1 hst'
  rw [takeFrom_id] at hid'
  rw [eq_of_id h.nodup hst hst₀ hid']
  exact takeFrom_found h.symm.nodup hv hid

theorem sentResult_bytes {u : IperfTest} {v : IperfStream}
    (h : (if u.sender then v.result.bytesSent else v.result.bytesReceived).toNat < 2 ^ 63) :
    (sentResult u v).bytes = if u.sender then v.result.bytesSent else v.result.bytesReceived :=
  ofInt_toInt64 h

theorem takeResult_false (r : RemoteResult) (st : IperfStream) :
    (st.takeResult false r).result.bytesSent = r.bytes ∧
    (st.takeResult false r).result.bytesReceived = st.result.bytesReceived ∧
    (st.takeResult false r).cntError = st.cntError ∧
    (st.takeResult false r).packetCount = st.packetCount ∧
    (st.takeResult false r).result.streamRetrans = r.retransmits := ⟨rfl, rfl, rfl, rfl, rfl⟩

theorem takeResult_true (r : RemoteResult) (st : IperfStream) :
    (st.takeResult true r).result.bytesSent = st.result.bytesSent ∧
    (st.takeResult true r).result.bytesReceived = r.bytes ∧
    (st.takeResult true r).cntError = r.errors ∧
    (st.takeResult true r).packetCount = r.packets ∧
    (st.takeResult true r).result.streamRetrans = st.result.streamRetrans := ⟨rfl, rfl, rfl, rfl, rfl⟩

/-- What the receiver makes of its stream `b`. -/
theorem takeResult_receiver {p : IperfTest} {a b : IperfStream} (hp : p.sender = true)
    (hbytes : a.result.bytesSent.toNat < 2 ^ 63) (hretrans : IsInt a.result.streamRetrans) :
    (b.takeResult false (sentResult p a)).result.bytesSent = a.result.bytesSent ∧
    (b.takeResult false (sentResult p a)).result.bytesReceived = b.result.bytesReceived ∧
    (b.takeResult false (sentResult p a)).cntError = b.cntError ∧
    (b.takeResult false (sentResult p a)).packetCount = b.packetCount ∧
    (p.senderHasRetransmits = 1 →
      (b.takeResult false (sentResult p a)).result.streamRetrans = a.result.streamRetrans) := by
  have hb : (sentResult p a).bytes = a.result.bytesSent := by
    have hsent : (if p.sender then a.result.bytesSent else a.result.bytesReceived) = a.result.bytesSent :=
      if_pos hp
    rw [sentResult_bytes (by rw [hsent]; exact hbytes), hsent]
  have hr : p.senderHasRetransmits = 1 → (sentResult p a).retransmits = a.result.streamRetrans := by
    intro h
    have hsent : (if p.sender && decide (p.senderHasRetransmits ≠ 0) then a.result.streamRetrans else -1) =
        a.result.streamRetrans := by simp [hp, h]
    unfold sentResult
    dsimp only
    rw [hsent]
    exact toInt_of_isInt hretrans
  obtain ⟨h₁, h₂, h₃, h₄, h₅⟩ := takeResult_false (sentResult p a) b
  exact ⟨h₁.trans hb, h₂, h₃, h₄, fun h => h₅.trans (hr h)⟩

/-- What the sender makes of its stream `a`. -/
theorem takeResult_sender {q : IperfTest} {a b : IperfStream} (hq : q.sender = false)
    (hbytes : b.result.bytesReceived.toNat < 2 ^ 63) (herr : IsInt b.cntError)
    (hpkt : IsInt b.packetCount) :
    (a.takeResult true (sentResult q b)).result.bytesSent = a.result.bytesSent ∧
    (a.takeResult true (sentResult q b)).result.bytesReceived = b.result.bytesReceived ∧
    (a.takeResult true (sentResult q b)).cntError = b.cntError ∧
    (a.takeResult true (sentResult q b)).packetCount = b.packetCount ∧
    (a.takeResult true (sentResult q b)).result.streamRetrans = a.result.streamRetrans := by
  have hb : (sentResult q b).bytes = b.result.bytesReceived := by
    have hrecv : (if q.sender then b.result.bytesSent else b.result.bytesReceived) =
        b.result.bytesReceived := if_neg (by rw [hq]; decide)
    rw [sentResult_bytes (by rw [hrecv]; exact hbytes), hrecv]
  have he : (sentResult q b).errors = b.cntError := by
    unfold sentResult
    exact toInt_of_isInt herr
  have hp : (sentResult q b).packets = b.packetCount := by
    unfold sentResult
    exact toInt_of_isInt hpkt
  obtain ⟨h₁, h₂, h₃, h₄, h₅⟩ := takeResult_true (sentResult q b) a
  exact ⟨h₁, h₂.trans hb, h₃.trans he, h₄.trans hp, h₅⟩

/-- The client and the server after the exchange: the server takes the client's results first. -/
structure Exchanged (c s c' s' : IperfTest) : Prop where
  server : takeResults (resultDoc c) s = (s', none)
  client : takeResults (resultDoc s') c = (c', none)

theorem SameStreams.taken {u t v : IperfTest} (h : SameStreams u t) : SameStreams (takenFrom v u) t :=
  ⟨(takenFrom_ids v u).symm ▸ h.ids, h.nodup, h.range⟩

/-- When both ends have the same streams, the exchange is determined. -/
theorem Exchanged.eq {c s c' s' : IperfTest} (h : Exchanged c s c' s') (hss : SameStreams c s) :
    s' = takenFrom c s ∧ c' = takenFrom s' c := by
  have hs : s' = takenFrom c s := by
    have := h.server
    rw [takeResults_resultDoc hss] at this
    exact (congrArg Prod.fst this).symm
  have hc := h.client
  rw [hs, takeResults_resultDoc hss.symm.taken] at hc
  exact ⟨hs, by rw [hs]; exact (congrArg Prod.fst hc).symm⟩

/-- The client sends. -/
theorem exchanged_client_sends {c s c' s' : IperfTest} (h : Exchanged c s c' s') (hss : SameStreams c s)
    (hc : CountersInRange c) (hs : CountersInRange s) (hsender : c.sender = true)
    (hreceiver : s.sender = false) : Agree c s c' s' := by
  obtain ⟨rfl, rfl⟩ := h.eq hss
  refine ⟨⟨?_, ?_⟩, ⟨takenFrom_ids _ _, takenFrom_ids _ _⟩, ?_⟩
  · show (if c.sender then c.senderHasRetransmits else _) = _
    rw [if_pos hsender]
  · show (if s.sender then _ else toInt (if c.sender then c.senderHasRetransmits else -1)) = _
    rw [if_neg (by rw [hreceiver]; decide), if_pos hsender]
    exact toInt_of_isInt hc.senderHasRetransmits
  · intro a ha b hb a' ha' b' hb' hba haa hbb
    have hb₁ := takenFrom_stream hss hb ha hb' hba.symm (hbb.trans hba.symm)
    rw [hreceiver] at hb₁
    have ha₁ := takenFrom_stream hss.symm.taken ha hb' ha' hbb haa
    rw [hsender] at ha₁
    obtain ⟨r₁, r₂, r₃, r₄, r₅⟩ := takeResult_receiver hsender (hc.bytesSent a ha) (hc.streamRetrans a ha)
      (b := b)
    rw [← hb₁] at r₁ r₂ r₃ r₄ r₅
    obtain ⟨s₁, s₂, s₃, s₄, s₅⟩ := takeResult_sender (q := takenFrom c s) (b := b') (a := a) hreceiver
      (by rw [r₂]; exact hs.bytesReceived b hb) (by rw [r₃]; exact hs.cntError b hb)
      (by rw [r₄]; exact hs.packetCount b hb)
    rw [← ha₁] at s₁ s₂ s₃ s₄ s₅
    exact ⟨⟨s₁, r₁⟩, ⟨s₂.trans r₂, r₂⟩, ⟨s₃.trans r₃, r₃⟩, ⟨s₄.trans r₄, r₄⟩,
      fun h => (r₅ (of_decide_eq_true h)).trans s₅.symm⟩

/-- The server sends. -/
theorem exchanged_server_sends {c s c' s' : IperfTest} (h : Exchanged c s c' s') (hss : SameStreams c s)
    (hc : CountersInRange c) (hs : CountersInRange s) (hsender : s.sender = true)
    (hreceiver : c.sender = false) : Agree s c s' c' := by
  obtain ⟨rfl, rfl⟩ := h.eq hss
  have hs' : (takenFrom c s).senderHasRetransmits = s.senderHasRetransmits := by
    show (if s.sender then s.senderHasRetransmits else _) = _
    rw [if_pos hsender]
  refine ⟨⟨hs', ?_⟩, ⟨takenFrom_ids _ _, takenFrom_ids _ _⟩, ?_⟩
  · show (if c.sender then _ else toInt (if s.sender then (takenFrom c s).senderHasRetransmits else -1)) = _
    rw [if_neg (by rw [hreceiver]; decide), if_pos hsender, hs']
    exact toInt_of_isInt hs.senderHasRetransmits
  · intro a ha b hb a' ha' b' hb' hba haa hbb
    have ha₁ := takenFrom_stream hss ha hb ha' hba haa
    rw [hsender] at ha₁
    have hb₁ := takenFrom_stream hss.symm.taken hb ha' hb' (haa.trans hba.symm) (hbb.trans hba.symm)
    rw [hreceiver] at hb₁
    obtain ⟨s₁, s₂, s₃, s₄, s₅⟩ := takeResult_sender (a := a) hreceiver (hc.bytesReceived b hb)
      (hc.cntError b hb) (hc.packetCount b hb)
    rw [← ha₁] at s₁ s₂ s₃ s₄ s₅
    obtain ⟨r₁, r₂, r₃, r₄, r₅⟩ := takeResult_receiver (p := takenFrom c s) (a := a') (b := b) hsender
      (by rw [s₁]; exact hs.bytesSent a ha) (by rw [s₅]; exact hs.streamRetrans a ha)
    rw [← hb₁] at r₁ r₂ r₃ r₄ r₅
    rw [hs'] at r₅
    exact ⟨⟨s₁, r₁.trans s₁⟩, ⟨s₂, r₂⟩, ⟨s₃, r₃⟩, ⟨s₄, r₄⟩, fun h => r₅ (of_decide_eq_true h)⟩

/-! ## `iperf_exchange_results` -/

/-- An observer of the exchange notes the document that was printed and the one that was read. -/
def exchangeContract : Contract Mem Req.Ans Halt (Option Json × Option Json) where
  onCall _ g r a := match r, a with
    | .cJSON_Print doc, _ => (some doc, g.2)
    | .cJSON_Parse _, j => (g.1, j)
    | _, _ => g
  onWrite _ g := g
  allows _ _ _ _ := True
  ok _ _ _ := True
  inv _ _ := True
  mayHalt _ _ _ := True

instance (m : Mem) (g : Option Json × Option Json) (r : Req) (a : r.Ans) :
    Decidable (exchangeContract.allows m g r a) := .isTrue trivial

/-- The test is `t` and the observer has noted `n`. -/
def NotedAt (t : IperfTest) (n : Option Json × Option Json) (m : Mem) (g : Option Json × Option Json) :
    Prop := m.test = t ∧ g = n

section Noted

variable {t : IperfTest} {n : Option Json × Option Json}

/-- A request at which the observer notes nothing. -/
theorem sys_noted {r : Req} (hr : ∀ a, exchangeContract.onCall (Mem.start t) n r a = n) :
    Prog.Keeps exchangeContract (NotedAt t n) (fun _ => True) (sys r) := by
  refine .ask fun m g hm => ⟨trivial, fun a _ => ⟨trivial, hm.1, ?_⟩⟩
  rw [hm.2]
  exact hr a

theorem setErrno_noted (e : Errno) :
    Prog.Keeps exchangeContract (NotedAt t n) (fun _ => True) (setErrno e) :=
  .modify fun _ _ hm => ⟨trivial, hm⟩

theorem setIErrno_noted (e : IErr) :
    Prog.Keeps exchangeContract (NotedAt t n) (fun _ => True) (setIErrno e) :=
  .modify fun _ _ hm => ⟨trivial, hm⟩

/-- A function that reports an error. -/
theorem fail_or (e : IErr) {I Q : Mem → Option Json × Option Json → Prop} :
    Prog.Triple exchangeContract I (fail e) fun r m g => r < 0 ∨ Q m g :=
  fun _ _ _ => ⟨trivial, .inl (by decide)⟩

theorem nread_noted (fuel : Nat) (fd : Int) (count : Nat) :
    Prog.Keeps exchangeContract (NotedAt t n) (fun _ => True) (nread fuel fd count) :=
  nread_keeps (fun _ => sys_noted fun _ => rfl) setErrno_noted (fun _ _ _ => trivial) fuel count

theorem nwrite_noted (fuel : Nat) (fd : Int) (buf : List UInt8) :
    Prog.Keeps exchangeContract (NotedAt t n) (fun _ => True) (nwrite fuel fd buf) :=
  nwrite_keeps (fun _ => sys_noted fun _ => rfl) setErrno_noted (fun _ _ _ => trivial) fuel buf

theorem allStreams_noted : Prog.Keeps exchangeContract (NotedAt t n) (fun _ => True) allStreams :=
  keeps_getTest_bind fun _ _ _ => .pure trivial

/-- `JSON_write` has had the document printed when it succeeds. -/
theorem jsonWrite_noted (fuel : Nat) (fd : Int) (doc : Json) :
    Prog.Triple exchangeContract (NotedAt t n) (jsonWrite fuel fd doc) fun r m g =>
      r < 0 ∨ NotedAt t (some doc, n.2) m g := by
  have hprint : Prog.Triple exchangeContract (NotedAt t n) (sys (.cJSON_Print doc)) fun _ =>
      NotedAt t (some doc, n.2) := by
    rintro m g ⟨hm, rfl⟩
    exact ⟨trivial, fun _ _ => ⟨hm, rfl⟩⟩
  refine hprint.bind fun str => ?_
  cases str with
  | none => exact .ret fun _ _ _ => .inl (by decide)
  | some str =>
    refine .seq (nwrite_noted fuel fd _) fun r _ => .ite (fun _ => ?_) fun _ => ?_
    · exact .ret fun _ _ _ => .inl (by decide)
    · exact .seq (nwrite_noted fuel fd _) fun r _ => .ret fun _ _ h => .inr h

/-- What `JSON_read` returns is what was parsed. -/
theorem jsonRead_noted (fuel : Nat) (fd : Int) :
    Prog.Triple exchangeContract (NotedAt t n) (jsonRead fuel fd) fun j m g =>
      ∀ d, j = some d → NotedAt t (n.1, some d) m g := by
  have hnone : ∀ {I : Mem → Option Json × Option Json → Prop},
      Prog.Triple exchangeContract I (pure none : IperfProg (Option Json)) fun j m g =>
        ∀ d, j = some d → NotedAt t (n.1, some d) m g := .ret fun _ _ _ => nofun
  refine .seq (sys_noted fun _ => rfl) fun nsize _ => .seq (nread_noted fuel fd 4) fun got _ => ?_
  cases got with
  | none => exact hnone
  | some got =>
    refine .seq (sys_noted fun _ => rfl) fun str _ => ?_
    cases str with
    | none => exact hnone
    | some str =>
      refine .seq (nread_noted fuel fd _) fun got _ => ?_
      cases got with
      | none => exact hnone
      | some got =>
        rintro m g ⟨hm, rfl⟩
        refine ⟨trivial, fun j _ d hd => ⟨hm, ?_⟩⟩
        show (g.1, j) = (g.1, some d)
        rw [hd]

theorem allocResults_noted (sps : List Nat) (r : Int) (hr : r = 0 ∨ r < 0) :
    Prog.Keeps exchangeContract (NotedAt t n) (fun r => r = 0 ∨ r < 0) (allocResults sps r) := by
  induction sps generalizing r with
  | nil => exact .pure hr
  | cons sp sps ih =>
    refine .bind (sys_noted fun _ => rfl) fun ok _ => .ite (fun _ => ih r hr) fun _ => ?_
    exact .bind (setIErrno_noted _) fun _ _ => ih (-1) (.inr (by decide))

/-- `send_results` -/
theorem sendResults_noted (fuel : Nat) :
    Prog.Triple exchangeContract (NotedAt t n) (sendResults fuel) fun r m g =>
      r < 0 ∨ NotedAt t (some (resultDoc t), n.2) m g := by
  refine .seq (sys_noted fun _ => rfl) fun ok _ => .ite (fun _ => fail_or _) fun _ => ?_
  refine .seq (sys_noted fun _ => rfl) fun ok _ => .ite (fun _ => fail_or _) fun _ => ?_
  refine .seq allStreams_noted fun sps _ => .seq (allocResults_noted sps 0 (.inl rfl)) fun r hr => ?_
  refine .ite (fun _ => ?_) fun hne => .ret fun _ _ _ => .inl (hr.resolve_left hne)
  refine triple_getTest_bind fun m g hm => ?_
  rw [hm.1]
  refine (jsonWrite_noted fuel _ _).bind fun w => .ite (fun _ => ?_) fun hw => ?_
  · exact fail_or _
  · exact .ret fun _ _ h => .inr (h.resolve_left hw)

/-- `get_results` -/
theorem getResults_noted (fuel : Nat) :
    Prog.Triple exchangeContract (NotedAt t n) (getResults fuel) fun r m g =>
      r < 0 ∨ ∃ j t', takeResults j t = (t', none) ∧ NotedAt t' (n.1, some j) m g := by
  refine triple_getTest_bind fun m₀ g₀ hm₀ => ?_
  rw [hm₀.1]
  refine (jsonRead_noted fuel _).bind fun j => ?_
  cases j with
  | none => exact fail_or _
  | some j =>
    dsimp only
    generalize htake : takeResults j t = te
    obtain ⟨t', e⟩ := te
    have hset : Prog.Triple exchangeContract
        (fun m g => ∀ d, some j = some d → NotedAt t (n.1, some d) m g)
        (modifyTest fun _ => t') fun _ => NotedAt t' (n.1, some j) := fun m g hg =>
      ⟨trivial, rfl, (hg j rfl).2⟩
    refine hset.bind fun _ => ?_
    cases e with
    | none => exact .ret fun m g hg => .inr ⟨j, t', htake, hg⟩
    | some e => exact fail_or e

end Noted

/-- One end of the exchange, which was `t` and is `t'` now: the document it has sent and the one it has
received. -/
def OneEnd (t t' : IperfTest) (printed parsed : Option Json) : Prop :=
  ∃ j, parsed = some j ∧ takeResults j t = (t', none) ∧
    printed = some (resultDoc (if t.role = .client then t else t'))

theorem iperfExchangeResults_noted (fuel : Nat) (t : IperfTest) :
    Prog.Triple exchangeContract (NotedAt t (none, none)) (iperfExchangeResults fuel) fun r m g =>
      r < 0 ∨ OneEnd t m.test g.1 g.2 := by
  refine triple_getTest_bind fun m₀ g₀ hm₀ => ?_
  rw [hm₀.1]
  refine .ite (fun hrole => ?_) fun hrole => ?_
  · refine (sendResults_noted fuel).bind fun r => .ite (fun _ => ?_) fun hr => ?_
    · exact .ret fun _ _ _ => .inl (by decide)
    · intro m g hg
      refine (((getResults_noted fuel).bind fun r => .ite (fun _ => ?_) fun hr => ?_) m g
        (hg.resolve_left hr))
      · exact .ret fun _ _ _ => .inl (by decide)
      · refine .ret fun m g h => .inr ?_
        obtain ⟨j, t', htake, rfl, hg⟩ := h.resolve_left hr
        rw [hg]
        exact ⟨j, rfl, htake, by rw [if_pos hrole]⟩
  · refine (getResults_noted fuel).bind fun r => .ite (fun _ => ?_) fun hr => ?_
    · exact .ret fun _ _ _ => .inl (by decide)
    · intro m g h
      obtain ⟨j, t', htake, rfl, hg⟩ := h.resolve_left hr
      refine (((sendResults_noted fuel).bind fun r => .ite (fun _ => ?_) fun hr => ?_) m g ⟨rfl, hg⟩)
      · exact .ret fun _ _ _ => .inl (by decide)
      · refine .ret fun m' g' h => .inr ?_
        obtain ⟨hm', hg'⟩ := h.resolve_left hr
        rw [hm', hg']
        exact ⟨j, rfl, htake, by rw [if_neg hrole]⟩

/-- A call of `iperf_exchange_results` that succeeds, with the document that it sends and the one that it
receives. -/
def Exchanges (fuel : Nat) (m m' : Mem) (printed parsed : Option Json) : Prop :=
  Prog.Reach exchangeContract (iperfExchangeResults fuel, m, (none, none))
    (.ret 0, m', (printed, parsed))

theorem Exchanges.oneEnd {fuel : Nat} {m m' : Mem} {printed parsed : Option Json}
    (h : Exchanges fuel m m' printed parsed) : OneEnd m.test m'.test printed parsed :=
  ((iperfExchangeResults_noted fuel m.test m _ ⟨rfl, rfl⟩).reach h).resolve_left (by decide)

/-- Each end has received what the other end has sent. -/
theorem exchanged_of_exchanges {fuel fuel' : Nat} {c s c' s' : Mem} {sent received : Option Json}
    (hc : Exchanges fuel c c' sent received) (hs : Exchanges fuel' s s' received sent)
    (hclient : c.test.role = .client) (hserver : s.test.role = .server) :
    Exchanged c.test s.test c'.test s'.test := by
  obtain ⟨j, hj, htake, hsent⟩ := hc.oneEnd
  obtain ⟨j', hj', htake', hsent'⟩ := hs.oneEnd
  rw [if_pos hclient] at hsent
  rw [if_neg (by rw [hserver]; decide)] at hsent'
  have hfromServer : j = resultDoc s'.test := by simpa [hj] using hsent'
  have hfromClient : j' = resultDoc c.test := by simpa [hj'] using hsent
  exact ⟨hfromClient ▸ htake', hfromServer ▸ htake⟩

/-- **The exchange of the results makes both ends agree**, whichever of them sends. -/
theorem exchanged_results_agree {fuel fuel' : Nat} {c s c' s' : Mem} {sent received : Option Json}
    (hclient : c.test.role = .client) (hserver : s.test.role = .server)
    (hss : SameStreams c.test s.test) (hcount : CountersInRange c.test)
    (hcount' : CountersInRange s.test) (hone : s.test.sender = !c.test.sender)
    (hc : Exchanges fuel c c' sent received) (hs : Exchanges fuel' s s' received sent) :
    if c.test.sender then Agree c.test s.test c'.test s'.test
    else Agree s.test c.test s'.test c'.test := by
  have hexchanged := exchanged_of_exchanges hc hs hclient hserver
  split
  · rename_i hsender
    exact exchanged_client_sends hexchanged hss hcount hcount' hsender (by rw [hone, hsender]; rfl)
  · rename_i hsender
    have hfalse : c.test.sender = false := by simpa using hsender
    exact exchanged_server_sends hexchanged hss hcount hcount' (by rw [hone, hfalse]; rfl) hfalse

/-- A client that has sent 8 bytes and 3 retransmits over one stream. -/
def doneSender : IperfTest :=
  let t := iperfSetTestRole .client mainTest
  let st := newStream t 3 4 (-1) []
  { t with
    senderHasRetransmits := 1
    streams := [{ st with id := 1, result := { st.result with bytesSent := 8, streamRetrans := 3 } }] }

/-- The server that has received 6 of the 8 bytes. -/
def doneReceiver : IperfTest :=
  let t := iperfSetTestRole .server mainTest
  let st := newStream t 3 4 (-1) []
  { t with streams := [{ st with id := 1, result := { st.result with bytesReceived := 6 } }] }

/-- The environment in which the document `doc` is received. -/
def receiving (doc : Json) (_ : Nat) : (r : Req) → r.Ans
  | .cJSON_Parse _ => some doc
  | r => r.quiet

/-- The exchange of an end with the memory `m` that receives the document `doc`. -/
def exchangeRun (m : Mem) (doc : Json) : IperfProg Int × Mem × Option Json × Option Json :=
  Prog.drive exchangeContract (receiving doc) 100 0 (iperfExchangeResults 9, m, (none, none))

/-- The memory of this end after the exchange. -/
def afterExchange (m : Mem) (doc : Json) : Mem := (exchangeRun m doc).2.1

theorem exchangeRun_exchanges (m : Mem) (doc : Json)
    (h : Prog.returned (exchangeRun m doc).1 = some 0) :
    Exchanges 9 m (afterExchange m doc)
      (some (resultDoc (if m.test.role = .client then m.test else (afterExchange m doc).test)))
      (some doc) := by
  have hrun : Exchanges 9 m (afterExchange m doc) (exchangeRun m doc).2.2.1
      (exchangeRun m doc).2.2.2 := Prog.reach_of_drive (receiving doc) 100 h
  have hparsed := @Prog.drive_notes _ _ _ _ _ _ exchangeContract _ (receiving doc)
    (fun g => g.2 = none ∨ g.2 = some doc)
    (fun i s g r hg => by cases r <;> first | exact hg | exact .inr rfl)
    (fun _ _ hg => hg) 100 0 (iperfExchangeResults 9, m, (none, none)) (.inl rfl)
  obtain ⟨j, hj, -, hprinted⟩ := hrun.oneEnd
  have hj' : (exchangeRun m doc).2.2.2 = some doc := hparsed.resolve_left (by
    show (exchangeRun m doc).2.2.2 ≠ none
    rw [hj]
    exact nofun)
  rw [hprinted, hj'] at hrun
  exact hrun

/-- The memory of the server after the exchange. -/
def doneServer : Mem := afterExchange (Mem.start doneReceiver) (resultDoc doneSender)

/-- Both ends have the 8 bytes, the 6 bytes and the 3 retransmits. -/
theorem exchanged_results_agree_one_stream :
    Agree doneSender doneReceiver
      (afterExchange (Mem.start doneSender) (resultDoc doneServer.test)).test doneServer.test := by
  have hs := exchangeRun_exchanges (Mem.start doneReceiver) (resultDoc doneSender)
    (by decide)
  have hc := exchangeRun_exchanges (Mem.start doneSender) (resultDoc doneServer.test)
    (by decide)
  have hss : SameStreams doneSender doneReceiver :=
    ⟨by decide, by decide, by decide⟩
  have hcount : CountersInRange doneSender := by constructor <;> decide
  have hcount' : CountersInRange doneReceiver := by constructor <;> decide
  exact exchanged_results_agree rfl rfl hss hcount hcount' rfl hc hs

end Iperf
