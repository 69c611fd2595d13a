import WifiTestTool.Iperf.Proofs.CJsonExact
import WifiTestTool.Iperf.Proofs.ControlFrames
import WifiTestTool.Iperf.Proofs.ParamsExchange
import WifiTestTool.Iperf.Proofs.Plumbing
import Mathlib.Data.List.TakeWhile

/-!
# The parameters on the control socket

From the client's command line to the server's parameters, over the bytes that are sent: the document of
`send_parameters`, its text, its frame, what `JSON_read` takes from the stream, what `cJSON_Parse` makes of it, and
what `get_parameters` takes from that.
-/

namespace Iperf

open Reactive

/-! ## Documents that the library cannot tell apart -/

theorem stringBytes_inj {s s' : String} (h : stringBytes s = stringBytes s') : s = s' :=
  String.toByteArray_inj.1 (ByteArray.ext (Array.toList_inj.1 h))

section Same

variable {j j' : Json}

theorem valueint_eq (h : j.item = j'.item) : j.valueint = j'.valueint := by
  cases j <;> cases j' <;> simp only [Json.item, reduceCtorEq, CJsonItem.bool.injEq, CJsonItem.number.injEq] at h
  case bool.bool => rw [h]
  case num.num => exact h.1
  all_goals rfl

theorem valuestring_eq (h : j.item = j'.item) : j.valuestring = j'.valuestring := by
  cases j <;> cases j' <;> simp only [Json.item, reduceCtorEq, CJsonItem.string.injEq] at h
  case str.str => rw [stringBytes_inj h]
  all_goals rfl

theorem find_item {items items' : List (String × Json)} (h : itemMembers items = itemMembers items') (name : String) :
    ((items.find? fun kv => strcasecmpEq kv.1 name).map Prod.snd).map Json.item =
      ((items'.find? fun kv => strcasecmpEq kv.1 name).map Prod.snd).map Json.item := by
  induction items generalizing items' with
  | nil =>
    cases items' with
    | nil => rfl
    | cons _ _ => cases h
  | cons kv items ih =>
    cases items' with
    | nil => cases h
    | cons kv' items' =>
      obtain ⟨hhead, htail⟩ := List.cons_eq_cons.1 h
      have hname : kv.1 = kv'.1 := stringBytes_inj (congrArg Prod.fst hhead)
      have hitem : kv.2.item = kv'.2.item := congrArg Prod.snd hhead
      rw [List.find?_cons, List.find?_cons, hname]
      cases strcasecmpEq kv'.1 name with
      | true => exact congrArg some hitem
      | false => exact ih htail

theorem getObjectItem_item (h : j.item = j'.item) (name : String) :
    (cJSON_GetObjectItem j name).map Json.item = (cJSON_GetObjectItem j' name).map Json.item := by
  cases j <;> cases j' <;> simp only [Json.item, reduceCtorEq, CJsonItem.object.injEq] at h
  case obj.obj => exact find_item h name
  all_goals rfl

/-- An item is found in both or in none, and it is the same item. -/
theorem getObjectItem_cases (h : j.item = j'.item) (name : String) :
    cJSON_GetObjectItem j name = none ∧ cJSON_GetObjectItem j' name = none ∨
    ∃ p p', cJSON_GetObjectItem j name = some p ∧ cJSON_GetObjectItem j' name = some p' ∧ p.item = p'.item := by
  have hitem := getObjectItem_item h name
  cases hj : cJSON_GetObjectItem j name with
  | none =>
    cases hj' : cJSON_GetObjectItem j' name with
    | none => exact .inl ⟨rfl, rfl⟩
    | some p' =>
      rw [hj, hj'] at hitem
      cases hitem
  | some p =>
    cases hj' : cJSON_GetObjectItem j' name with
    | none =>
      rw [hj, hj'] at hitem
      cases hitem
    | some p' =>
      rw [hj, hj'] at hitem
      exact .inr ⟨p, p', rfl, rfl, Option.some_inj.1 hitem⟩

theorem parameterReaders_valueint : ∀ r ∈ parameterReaders, ∀ (p p' : Json) (t : IperfTest),
    p.valueint = p'.valueint → r.2 p t = r.2 p' t := by
  intro r hr p p' t h
  simp only [parameterReaders, List.mem_cons, List.not_mem_nil, or_false] at hr
  rcases hr with rfl | rfl | rfl | rfl | rfl | rfl | rfl | rfl | rfl | rfl | rfl | rfl | rfl | rfl | rfl | rfl | rfl |
    rfl <;> simp only [h]

theorem readItems_same (h : j.item = j'.item) {readers : List (String × (Json → IperfTest → IperfTest))}
    (hreaders : ∀ r ∈ readers, ∀ (p p' : Json) (t : IperfTest), p.valueint = p'.valueint → r.2 p t = r.2 p' t)
    (t : IperfTest) : readItems j readers t = readItems j' readers t := by
  induction readers generalizing t with
  | nil => rfl
  | cons r readers ih =>
    have hone : onItem j r.1 r.2 t = onItem j' r.1 r.2 t := by
      unfold onItem
      rcases getObjectItem_cases h r.1 with ⟨hj, hj'⟩ | ⟨p, p', hj, hj', hp⟩
      · rw [hj, hj']
      · rw [hj, hj']
        exact hreaders r List.mem_cons_self p p' t (valueint_eq hp)
    have hrest := ih (fun r' hr' => hreaders r' (List.mem_cons_of_mem r hr')) (onItem j' r.1 r.2 t)
    unfold readItems at hrest ⊢
    rw [List.foldl_cons, List.foldl_cons, hone]
    exact hrest

theorem onString_same (h : j.item = j'.item) (name : String) (f : String → IperfTest → IperfTest) (t : IperfTest) :
    onString j name f t = onString j' name f t := by
  unfold onString
  rcases getObjectItem_cases h name with ⟨hj, hj'⟩ | ⟨p, p', hj, hj', hp⟩
  · rw [hj, hj']
  · rw [hj, hj']
    exact congrArg (Option.map fun s => f s t) (valuestring_eq hp)

/-- `get_parameters` takes the same from both. -/
theorem takeParameters_same (h : j.item = j'.item) (t : IperfTest) : takeParameters j t = takeParameters j' t := by
  unfold takeParameters
  simp only [readItems_same h parameterReaders_valueint, onString_same h]

end Same

/-! ## The document of the parameters -/

/-- The parameters are in range, and so that their document is read back as it was. -/
structure Params.Sendable (p : Params) : Prop extends p.InRange where
  bytesConvertible : p.bytes.toNat + 512 < 2 ^ 63
  rateConvertible : p.rate.toNat + 512 < 2 ^ 63
  titleString : ∀ s ∈ p.title, 0 ∉ stringBytes s
  congestionString : ∀ s ∈ p.congestion, 0 ∉ stringBytes s

theorem IsInt.convertible {n : Int} (h : IsInt n) : Convertible n := by
  unfold IsInt at h
  constructor <;> omega

theorem toInt64_convertible {n : UInt64} (h : n.toNat + 512 < 2 ^ 63) : Convertible (toInt64 n) := by
  have hvalue : toInt64 n = n.toNat := Int.bmod_eq_of_le_mul_two (by omega) (by omega)
  rw [hvalue]
  constructor <;> omega

theorem sendable_ite {c : Prop} [Decidable c] {v : Json} (h : v.Sendable) :
    ∀ w ∈ (if c then some v else none), w.Sendable := by
  intro w hw
  split at hw
  · cases hw
    exact h
  · cases hw

theorem sendable_str {s : Option String} (h : ∀ s' ∈ s, 0 ∉ stringBytes s') : ∀ w ∈ s.map Json.str, w.Sendable := by
  intro w hw
  obtain ⟨s', hs', rfl⟩ := Option.map_eq_some_iff.1 hw
  exact .str (h s' hs')

theorem parameterSlots_sendable {t : IperfTest} (h : t.params.Sendable) :
    ∀ s ∈ parameterSlots t, 0 ∉ stringBytes s.1 ∧ ∀ v ∈ s.2, v.Sendable := by
  have hint : ∀ {n : Int}, IsInt n → (Json.int n).Sendable := fun hn => .int hn.convertible
  have hsome : ∀ {v : Json}, v.Sendable → ∀ w ∈ some v, w.Sendable := by
    rintro v hv w ⟨⟩
    exact hv
  intro s hs
  simp only [parameterSlots, List.mem_cons, List.not_mem_nil, or_false] at hs
  have hname : ∀ {name : String} {v : Option Json}, 0 ∉ stringBytes name → (∀ w ∈ v, w.Sendable) →
      0 ∉ stringBytes (name, v).1 ∧ ∀ w ∈ (name, v).2, w.Sendable := And.intro
  rcases hs with rfl | rfl | rfl | rfl | rfl | rfl | rfl | rfl | rfl | rfl | rfl | rfl | rfl | rfl | rfl | rfl | rfl |
    rfl | rfl | rfl
  · exact hname (by decide) (sendable_ite (.bool true))
  · exact hname (by decide) (sendable_ite (.bool true))
  · exact hname (by decide) (sendable_ite (.bool true))
  · exact hname (by decide) (hsome (hint h.omitTime))
  · exact hname (by decide) (sendable_ite (hint h.serverAffinity))
  · exact hname (by decide) (sendable_ite (hint h.duration))
  · exact hname (by decide) (sendable_ite (.int (toInt64_convertible h.bytesConvertible)))
  · exact hname (by decide) (sendable_ite (hint h.blocks))
  · exact hname (by decide) (sendable_ite (hint h.mss))
  · exact hname (by decide) (sendable_ite (.bool true))
  · exact hname (by decide) (hsome (hint h.numStreams))
  · exact hname (by decide) (sendable_ite (.bool true))
  · exact hname (by decide) (sendable_ite (hint h.socketBufsize))
  · exact hname (by decide) (sendable_ite (hint h.blksize))
  · exact hname (by decide) (sendable_ite (.int (toInt64_convertible h.rateConvertible)))
  · exact hname (by decide) (sendable_ite (hint h.burst))
  · exact hname (by decide) (sendable_ite (hint h.tos))
  · exact hname (by decide) (sendable_ite (hint h.flowlabel))
  · exact hname (by decide) (sendable_str h.titleString)
  · exact hname (by decide) (sendable_str h.congestionString)

theorem parameterDoc_sendable {t : IperfTest} (h : t.params.Sendable) : (parameterDoc t).Sendable := by
  have hslot : ∀ kv ∈ filled (parameterSlots t), 0 ∉ stringBytes kv.1 ∧ kv.2.Sendable := by
    intro kv hkv
    obtain ⟨s, hs, hvalue⟩ := List.mem_filterMap.1 hkv
    obtain ⟨v, hv, rfl⟩ := Option.map_eq_some_iff.1 hvalue
    obtain ⟨hname, hv'⟩ := parameterSlots_sendable h s hs
    exact ⟨hname, hv' v hv⟩
  rw [parameterDoc, parameterItems_eq]
  exact .obj (fun kv hkv => (hslot kv hkv).1) fun kv hkv => (hslot kv hkv).2

/-- The text of a document -/
def Json.text (P : Platform) (j : Json) : List UInt8 := cJSON_PrintUnformatted P j.item

theorem Json.Sendable.cstr_text {j : Json} (h : j.Sendable) (P : Platform) : cstr (j.text P) = j.text P := by
  refine List.takeWhile_eq_self_iff.2 fun c hc => ?_
  have hne : c ≠ 0 := by
    rintro rfl
    exact h.sound.1.no_nul P false 0 hc
  simpa using hne

/-! ## Both ends of the connection -/

section Calls

variable {G : Type} {o : Observer G} {t : IperfTest}

/-- The test is `t`. -/
def Unmoved (t : IperfTest) (m : Mem) (_ : G) : Prop := m.test = t

theorem unmoved_sys (r : Req) : Prog.Keeps o.contract (Unmoved t) (fun _ => True) (sys r) :=
  .ask fun _ _ hm => ⟨trivial, fun _ _ => ⟨trivial, hm⟩⟩

theorem unmoved_errno (e : Errno) : Prog.Keeps o.contract (Unmoved t) (fun _ => True) (setErrno e) :=
  .modify fun _ _ hm => ⟨trivial, hm⟩

theorem unmoved_nread (fuel : Nat) (fd : Int) (count : Nat) :
    Prog.Keeps o.contract (Unmoved t) (fun _ => True) (nread fuel fd count) :=
  nread_keeps (fun _ => unmoved_sys _) unmoved_errno (fun _ _ _ => trivial) fuel count

theorem unmoved_nwrite (fuel : Nat) (fd : Int) (buf : List UInt8) :
    Prog.Keeps o.contract (Unmoved t) (fun _ => True) (nwrite fuel fd buf) :=
  nwrite_keeps (fun _ => unmoved_sys _) unmoved_errno (fun _ _ _ => trivial) fuel buf

/-- `JSON_write` returns 0 or -1. -/
theorem jsonWrite_ret (fuel : Nat) (fd : Int) (doc : Json) :
    Prog.Keeps o.contract (Unmoved t) (fun r => r = 0 ∨ r = -1) (jsonWrite fuel fd doc) := by
  refine .bind (unmoved_sys _) fun str _ => ?_
  cases str with
  | none => exact .pure (.inr rfl)
  | some text =>
    refine .bind (unmoved_nwrite fuel fd _) fun r _ => .ite (fun _ => .pure (.inr rfl)) fun _ => ?_
    refine .bind (unmoved_nwrite fuel fd _) fun r _ => .pure ?_
    split
    · exact .inr rfl
    · exact .inl rfl

theorem unmoved_jsonRead (fuel : Nat) (fd : Int) :
    Prog.Keeps o.contract (Unmoved t) (fun _ => True) (jsonRead fuel fd) := by
  refine .bind (unmoved_sys _) fun nsize _ => .bind (unmoved_nread fuel fd 4) fun got _ => ?_
  cases got with
  | none => exact .pure trivial
  | some got =>
    refine .bind (unmoved_sys _) fun str _ => ?_
    cases str with
    | none => exact .pure trivial
    | some str =>
      refine .bind (unmoved_nread fuel fd _) fun got _ => ?_
      cases got with
      | none => exact .pure trivial
      | some got => exact unmoved_sys _

theorem unmoved_sees {α : Type} {Q : α → Prop} {p : IperfProg α}
    (h : Prog.Keeps o.contract (Unmoved t) Q p) (g : G) : Sees o t g p fun a t' _ => Q a ∧ t' = t := by
  rintro m g' ⟨hm, -⟩
  exact h m g' hm

end Calls

/-- `send_parameters`, when it succeeds -/
theorem sendParameters_frame {t : IperfTest} (fuel : Nat) :
    Sees (wireObserver t.ctrlSck) t Wire.unused (sendParameters fuel) fun r _ g => r = 0 → ∃ text,
      g.text = some text ∧ (g.accepted = frame text ↔ g.interrupted = false ∧ text.length < 0x100000000) := by
  refine .sys_bind fun ok _ => ?_
  cases ok with
  | false => exact .setIErrno_bind (.pure (by omega))
  | true =>
    have hret := unmoved_sees (jsonWrite_ret (o := wireObserver t.ctrlSck) (t := t) fuel t.ctrlSck (parameterDoc t))
      Wire.unused
    refine .getTest_bind (.bind ((jsonWrite_frame t.ctrlSck fuel (parameterDoc t)).and hret) ?_)
    rintro r t' g ⟨hframe, hr, -⟩
    exact .ite (fun _ => .setIErrno_bind (.pure (by omega))) fun _ => .pure fun _ => hframe (by omega)

/-- `get_parameters` on a stream that begins with the frame of a text, when it succeeds -/
theorem getParameters_taken {t : IperfTest} {parse : List UInt8 → Option Json} (fuel : Nat) {text rest : List UInt8}
    (h : text.length + 1 < 0x100000000) :
    Sees (streamObserver t.ctrlSck parse) t ⟨frame text ++ rest, []⟩ (getParameters fuel) fun r t' g => r = 0 →
      g.rest = rest ∧ ∃ doc, parse (cstr text) = some doc ∧ takeParameters doc t = some t' := by
  have hread := (@jsonRead_exact t parse t.ctrlSck fuel text rest h).and
    (unmoved_sees (unmoved_jsonRead fuel t.ctrlSck) _)
  refine .getTest_bind (.bind hread ?_)
  rintro j t' g ⟨⟨hdoc, -⟩, -, rfl⟩
  cases j with
  | none => exact .setIErrno_bind (.pure (by omega))
  | some doc =>
    obtain ⟨hrest, hparse⟩ := hdoc doc rfl
    dsimp only
    cases htake : takeParameters doc t' with
    | none => exact .stop _
    | some t₁ => exact .modifyTest_bind (.pure fun _ => ⟨hrest, doc, hparse, htake⟩)

/-- `send_parameters` succeeds, without an interrupted write; its socket accepts the bytes `sent`. -/
def SendsParameters (P : Platform) (m : Mem) (sent : List UInt8) : Prop :=
  ∃ fuel m' g, Goes (wireObserver m.test.ctrlSck) m Wire.unused (sendParameters fuel) (.ret 0, m', g) ∧
    g.text = some ((parameterDoc m.test).text P) ∧ g.interrupted = false ∧ g.accepted = sent

/-- `get_parameters` succeeds; its socket delivers `stream`, of which `rest` is left. -/
def TakesParameters (P : Platform) (m : Mem) (stream : List UInt8) (m' : Mem) (rest : List UInt8) : Prop :=
  ∃ parse fuel g, (∀ text, ∀ doc ∈ parse text, cJSON_Parse P text = .ok doc.item) ∧
    Goes (streamObserver m.test.ctrlSck parse) m ⟨stream, []⟩ (getParameters fuel) (.ret 0, m', g) ∧ g.rest = rest

/-- `iperf3 -c h` -/
def plainClient : IperfTest :=
  let t := iperfSetTestRole .client mainTest
  { t with serverHostname := some "h", settings := { t.settings with blksize := DEFAULT_TCP_BLKSIZE } }

theorem plainClient_parsed : iperfParseArguments mainTest [.client "h"] = .ok plainClient := rfl

theorem plainClient_sendable : plainClient.params.Sendable where
  omitTime := by decide
  serverAffinity := by decide
  duration := by decide
  bytes := by decide
  blocks := by decide
  mss := by decide
  numStreams := by decide
  socketBufsize := by decide
  blksize := by decide
  rate := by decide
  burst := by decide
  tos := by decide
  flowlabel := by decide
  bytesConvertible := by decide
  rateConvertible := by decide
  titleString := by rintro _ ⟨⟩
  congestionString := by rintro _ ⟨⟩

/-- The text of its parameters -/
theorem plainClient_text : (parameterDoc plainClient).text .x86 =
    stringBytes "\x7b\"tcp\":true,\"omit\":0,\"time\":10,\"parallel\":1,\"len\":131072\x7d" := by
  have hdoc : parameterDoc plainClient = .obj [("tcp", Json.true), ("omit", .int 0), ("time", .int 10),
    ("parallel", .int 1), ("len", .int 131072)] := rfl
  have homit := printNumber_int x86_conforms (v := 0) ⟨by decide, by decide⟩
  have htime := printNumber_int x86_conforms (v := 10) ⟨by decide, by decide⟩
  have hparallel := printNumber_int x86_conforms (v := 1) ⟨by decide, by decide⟩
  have hlen := printNumber_int x86_conforms (v := 131072) ⟨by decide, by decide⟩
  rw [hdoc]
  simp only [Json.text, cJSON_PrintUnformatted, Json.item, itemMembers, printValue, printMembers, Json.true, Json.int,
    homit, htime, hparallel, hlen]
  rfl

/-- A buffer that is written in one go -/
theorem nwrite_all {m : Mem} {g : Wire} (fd : Int) {buf : List UInt8} (hbuf : buf ≠ []) :
    Goes (wireObserver fd) m g (nwrite 2 fd buf) (.ret buf.length, m, { g with accepted := g.accepted ++ buf }) := by
  obtain ⟨k, hk⟩ := Nat.exists_eq_add_one.2 (List.length_pos_iff.2 hbuf)
  have hnotes : (wireObserver fd).notes g (.write fd buf) (Except.ok (k + 1)) =
      { g with accepted := g.accepted ++ buf } := by
    have htake : buf.take (k + 1) = buf := by rw [← hk, List.take_length]
    refine (if_pos rfl).trans ?_
    rw [htake]
  have hdrop : buf.drop (k + 1) = [] := by rw [← hk, List.drop_length]
  rw [nwrite, nwriteLoop, if_neg hbuf]
  refine .sys_bind (r := .write fd buf) (Except.ok (k + 1)) hk.ge ?_
  rw [hnotes]
  show Goes _ _ _ (nwriteLoop fd buf.length 1 (buf.drop (k + 1))) _
  rw [hdrop]
  exact .refl _

/-- A document that is sent in two writes -/
theorem jsonWrite_all {m : Mem} {g : Wire} (fd : Int) (doc : Json) {text : List UInt8} (hpos : text ≠ [])
    (hfit : text.length < 0x100000000) : Goes (wireObserver fd) m g (jsonWrite 2 fd doc)
      (.ret 0, m, { g with accepted := g.accepted ++ frame text, text := some text }) := by
  have htake : text.take (text.length % 0x100000000) = text := by rw [Nat.mod_eq_of_lt hfit, List.take_length]
  refine .sys_bind (r := .cJSON_Print doc) (some text) trivial ?_
  refine .seq (nwrite_all fd nofun) (.ite (fun h => by omega) fun _ => ?_)
  rw [htake]
  refine .seq (nwrite_all fd hpos) ?_
  rw [if_neg (by omega)]
  show Goes _ _ (Wire.mk ((g.accepted ++ htonl text.length) ++ text) g.interrupted (some text)) _ _
  rw [List.append_assoc]
  exact .refl _

/-- A document that is read in two reads -/
theorem jsonRead_all {parse : List UInt8 → Option Json} {m : Mem} (fd : Int) {text rest : List UInt8}
    (hfit : text.length + 1 < 0x100000000) : ∃ g, g.rest = rest ∧
      Goes (streamObserver fd parse) m ⟨frame text ++ rest, []⟩ (jsonRead 2 fd) (.ret (parse (cstr text)), m, g) := by
  let start : Incoming := (streamObserver fd parse).notes ⟨frame text ++ rest, []⟩ (.stack 4) [0, 0, 0, 0]
  have hsize : ntohl (overlay [0, 0, 0, 0] (start.rest.take 4)) = text.length := by
    show ntohl (overlay [0, 0, 0, 0] (htonl text.length)) = _
    have hheader : overlay [0, 0, 0, 0] (htonl text.length) = htonl text.length := overlay_whole rfl
    rw [hheader, ntohl_htonl (by omega)]
  have hbody : (overlay (List.replicate (text.length + 1) 0) ((text ++ rest).take text.length)).take text.length =
      text := by
    rw [List.take_left, overlay, List.take_left]
  refine ⟨⟨rest, [text.length + 1]⟩, rfl, ?_⟩
  refine .sys_bind (r := .stack 4) [0, 0, 0, 0] rfl (.seq (nread_all fd 4) ?_)
  dsimp only
  rw [hsize, Nat.mod_eq_of_lt hfit]
  refine .sys_bind (r := .malloc (text.length + 1)) (some (List.replicate (text.length + 1) 0))
    List.length_replicate (.seq (nread_all fd _) ?_)
  show Goes _ _ (Incoming.mk ((text ++ rest).drop text.length) [text.length + 1]) (sys (.cJSON_Parse
    ((overlay (List.replicate (text.length + 1) 0) ((text ++ rest).take text.length)).take text.length))) _
  rw [hbody, List.drop_left]
  exact .ask (r := .cJSON_Parse text) (parse (cstr text)) rfl

/-- The text of the parameters is sent in one go. -/
theorem plainClient_sends : SendsParameters .x86 (Mem.start plainClient)
    (frame ((parameterDoc plainClient).text .x86)) := by
  have hpos : (parameterDoc plainClient).text .x86 ≠ [] := by
    rw [plainClient_text]
    decide
  have hfit : ((parameterDoc plainClient).text .x86).length < 0x100000000 := by
    rw [plainClient_text]
    decide
  have hwrite := jsonWrite_all (m := Mem.start plainClient) (g := Wire.unused) (-1) (parameterDoc plainClient) hpos hfit
  refine ⟨2, Mem.start plainClient, ⟨frame ((parameterDoc plainClient).text .x86), false,
    some ((parameterDoc plainClient).text .x86)⟩, ?_, rfl, rfl, rfl⟩
  refine .sys_bind (r := .cJSON_Create) true trivial (.getTest_bind (.seq hwrite ?_))
  exact .ite (fun h => absurd h (by decide)) fun _ => .refl _

/-- The frame is taken from the stream. -/
theorem freshServer_takes : ∃ n', TakesParameters .x86 (Mem.start freshServer)
    (frame ((parameterDoc plainClient).text .x86) ++ [1]) n' [1] := by
  have hsendable := parameterDoc_sendable plainClient_sendable
  have hfit : ((parameterDoc plainClient).text .x86).length + 1 < 0x100000000 := by
    rw [plainClient_text]
    decide
  let parse := fun text => if text = (parameterDoc plainClient).text .x86 then some (parameterDoc plainClient) else none
  have hparse : ∀ text, ∀ doc ∈ parse text, cJSON_Parse .x86 text = .ok doc.item := by
    intro text doc hdoc
    dsimp only [parse] at hdoc
    split at hdoc
    · rename_i htext
      obtain rfl := Option.some_inj.1 hdoc
      rw [htext]
      exact hsendable.parse_text x86_conforms
    · cases hdoc
  obtain ⟨g, hrest, hread⟩ := @jsonRead_all parse (Mem.start freshServer) (-1) _ [1] hfit
  rw [hsendable.cstr_text] at hread
  have hdoc : parse ((parameterDoc plainClient).text .x86) = some (parameterDoc plainClient) := if_pos rfl
  rw [hdoc] at hread
  obtain ⟨s, hs, -⟩ := takeParameters_spec (parameterDoc_stringsOk plainClient) freshServer
  have htest : (Mem.start freshServer).test = freshServer := rfl
  refine ⟨{ Mem.start freshServer with test := s }, parse, 2, g, hparse, .getTest_bind (.seq hread ?_), hrest⟩
  dsimp only
  rw [htest, hs]
  exact .modifyTest_bind (.refl _)

end Iperf
