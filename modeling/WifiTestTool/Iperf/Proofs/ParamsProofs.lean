import WifiTestTool.Iperf.Params

/-!
# Parameters

`Params` are the fields of a test that the client tells the server. `get_parameters` acts on them by
`Params.take`: each field is what the document says about it, or stays as it was. The document that
`send_parameters` builds has at most one item for each name, also when the case of letters is ignored,
so that looking up a name finds the item that was added under it.
-/

namespace Iperf

/-- The fields of a test that `get_parameters` sets. -/
@[ext]
structure Params where
  protocol : ProtId
  omitTime : Int
  serverAffinity : Int
  duration : Int
  bytes : UInt64
  blocks : Int
  mss : Int
  noDelay : Int
  numStreams : Int
  reverse : Int
  sender : Bool
  socketBufsize : Int
  blksize : Int
  rate : UInt64
  burst : Int
  tos : Int
  flowlabel : Int
  title : Option String
  congestion : Option String
deriving DecidableEq

/-- The parameters of a test. -/
def IperfTest.params (t : IperfTest) : Params where
  protocol := t.protocol
  omitTime := t.omitTime
  serverAffinity := t.serverAffinity
  duration := t.duration
  bytes := t.settings.bytes
  blocks := t.settings.blocks
  mss := t.settings.mss
  noDelay := t.noDelay
  numStreams := t.numStreams
  reverse := t.reverse
  sender := t.sender
  socketBufsize := t.settings.socketBufsize
  blksize := t.settings.blksize
  rate := t.settings.rate
  burst := t.settings.burst
  tos := t.settings.tos
  flowlabel := t.settings.flowlabel
  title := t.title
  congestion := t.congestion

/-- What the document `j` says about `name`, or else `d`. -/
def lookupOr {α : Type} (j : Json) (name : String) (f : Json → α) (d : α) : α :=
  match cJSON_GetObjectItem j name with
  | none => d
  | some p => f p

/-- An `int` that the document may set. -/
def lookupInt (j : Json) (name : String) (d : Int) : Int :=
  lookupOr j name (fun p => toInt p.valueint) d

/-- A `uint64_t` that the document may set. -/
def lookupSize (j : Json) (name : String) (d : UInt64) : UInt64 :=
  lookupOr j name (fun p => UInt64.ofInt p.valueint) d

/-- The parameters after `get_parameters` has read the document `j`. -/
def Params.take (j : Json) (p : Params) : Params where
  protocol := lookupOr j "sctp" (fun _ => .sctp) (lookupOr j "udp" (fun _ => .udp)
    (lookupOr j "tcp" (fun _ => .tcp) p.protocol))
  omitTime := lookupInt j "omit" p.omitTime
  serverAffinity := lookupInt j "server_affinity" p.serverAffinity
  duration := lookupInt j "time" p.duration
  bytes := lookupSize j "num" p.bytes
  blocks := lookupInt j "blockcount" p.blocks
  mss := lookupInt j "MSS" p.mss
  noDelay := lookupOr j "nodelay" (fun _ => 1) p.noDelay
  numStreams := lookupInt j "parallel" p.numStreams
  reverse := lookupOr j "reverse" (fun _ => 1) p.reverse
  sender := lookupOr j "reverse" (fun _ => !p.sender) p.sender
  socketBufsize := lookupInt j "window" p.socketBufsize
  blksize := lookupInt j "len" p.blksize
  rate := lookupSize j "bandwidth" p.rate
  burst := lookupInt j "burst" p.burst
  tos := lookupInt j "TOS" p.tos
  flowlabel := lookupInt j "flowlabel" p.flowlabel
  title := lookupOr j "title" Json.valuestring p.title
  congestion := lookupOr j "congestion" Json.valuestring p.congestion

/-! ## `get_parameters` -/

/-- What a function of the test is after an item was looked for. -/
theorem apply_onItem {α : Type} (g : IperfTest → α) (j : Json) (name : String)
    (f : Json → IperfTest → IperfTest) (t : IperfTest) :
    g (onItem j name f t) = lookupOr j name (fun p => g (f p t)) (g t) := by
  unfold onItem lookupOr
  cases cJSON_GetObjectItem j name <;> rfl

@[simp] theorem lookupOr_const {α : Type} (j : Json) (name : String) (a : α) :
    lookupOr j name (fun _ => a) a = a := by
  unfold lookupOr
  cases cJSON_GetObjectItem j name <;> rfl

/-- A function of the test that no reader changes. -/
theorem apply_readItems {α : Type} (g : IperfTest → α) (j : Json)
    {readers : List (String × (Json → IperfTest → IperfTest))}
    (h : ∀ r ∈ readers, ∀ p t, g (r.2 p t) = g t) (t : IperfTest) :
    g (readItems j readers t) = g t := by
  induction readers generalizing t with
  | nil => rfl
  | cons r readers ih =>
    have hr : g (onItem j r.1 r.2 t) = g t := by
      rw [apply_onItem g]
      simp only [h r List.mem_cons_self, lookupOr_const]
    exact (ih (fun r' hr' => h r' (List.mem_cons_of_mem _ hr')) _).trans hr

/-- A string item is absent, or it is handed to the setter. -/
theorem onString_some {j : Json} {name : String} {f : String → IperfTest → IperfTest}
    {t t' : IperfTest} (h : onString j name f t = some t') : t' = t ∨ ∃ s, t' = f s t := by
  unfold onString at h
  split at h
  · exact .inl (Option.some.inj h).symm
  · obtain ⟨s, -, hs⟩ := Option.map_eq_some_iff.1 h
    exact .inr ⟨s, hs.symm⟩

/-- A function of the test that the `i`-th reader alone changes. -/
theorem apply_readItems_at {α : Type} (g : IperfTest → α) (k : Json → α → α) (i : Nat)
    {name : String} {f : Json → IperfTest → IperfTest} (hi : parameterReaders[i]? = some (name, f))
    (hf : ∀ p t, g (f p t) = k p (g t))
    (hb : ∀ r ∈ parameterReaders.take i, ∀ p t, g (r.2 p t) = g t)
    (ha : ∀ r ∈ parameterReaders.drop (i + 1), ∀ p t, g (r.2 p t) = g t) (j : Json) (t : IperfTest) :
    g (readItems j parameterReaders t) = lookupOr j name (fun p => k p (g t)) (g t) := by
  have hsplit : parameterReaders =
      parameterReaders.take i ++ (name, f) :: parameterReaders.drop (i + 1) := by
    obtain ⟨hlt, hget⟩ := List.getElem?_eq_some_iff.1 hi
    rw [← hget, ← List.drop_eq_getElem_cons hlt, List.take_append_drop]
  have hread : readItems j parameterReaders t = readItems j (parameterReaders.drop (i + 1))
      (onItem j name f (readItems j (parameterReaders.take i) t)) := by
    conv_lhs => rw [hsplit]
    simp only [readItems, List.foldl_append, List.foldl_cons]
  rw [hread, apply_readItems g j ha, apply_onItem g]
  simp only [hf, apply_readItems g j hb]

set_option linter.unusedSimpArgs false in
/-- The parameters of a test, up to the two strings, after the items of the document were read. -/
theorem readItems_params (j : Json) (t : IperfTest) :
    (readItems j parameterReaders t).params =
      { t.params.take j with title := t.title, congestion := t.congestion } := by
  ext1
  case protocol =>
    have h := @apply_readItems _ IperfTest.protocol j (parameterReaders.drop 3)
      (by simp [parameterReaders, onSettings, iperfSetTestReverse, checkSenderHasRetransmits])
      (readItems j (parameterReaders.take 3) t)
    refine h.trans ?_
    simp only [readItems, parameterReaders, List.take, List.foldl,
      apply_onItem IperfTest.protocol, setProtocol, checkSenderHasRetransmits, Params.take]
    rfl
  case omitTime =>
    exact apply_readItems_at IperfTest.omitTime (fun p _ => toInt p.valueint) 3 rfl (fun _ _ => rfl)
      (by simp [parameterReaders, onSettings, setProtocol, iperfSetTestReverse,
        checkSenderHasRetransmits])
      (by simp [parameterReaders, onSettings, setProtocol, iperfSetTestReverse,
        checkSenderHasRetransmits]) j t
  case serverAffinity =>
    exact apply_readItems_at IperfTest.serverAffinity (fun p _ => toInt p.valueint) 4 rfl (fun _ _ => rfl)
      (by simp [parameterReaders, onSettings, setProtocol, iperfSetTestReverse,
        checkSenderHasRetransmits])
      (by simp [parameterReaders, onSettings, setProtocol, iperfSetTestReverse,
        checkSenderHasRetransmits]) j t
  case duration =>
    exact apply_readItems_at IperfTest.duration (fun p _ => toInt p.valueint) 5 rfl (fun _ _ => rfl)
      (by simp [parameterReaders, onSettings, setProtocol, iperfSetTestReverse,
        checkSenderHasRetransmits])
      (by simp [parameterReaders, onSettings, setProtocol, iperfSetTestReverse,
        checkSenderHasRetransmits]) j t
  case bytes =>
    exact apply_readItems_at (fun t => t.settings.bytes) (fun p _ => UInt64.ofInt p.valueint) 6 rfl (fun _ _ => rfl)
      (by simp [parameterReaders, onSettings, setProtocol, iperfSetTestReverse,
        checkSenderHasRetransmits])
      (by simp [parameterReaders, onSettings, setProtocol, iperfSetTestReverse,
        checkSenderHasRetransmits]) j t
  case blocks =>
    exact apply_readItems_at (fun t => t.settings.blocks) (fun p _ => toInt p.valueint) 7 rfl (fun _ _ => rfl)
      (by simp [parameterReaders, onSettings, setProtocol, iperfSetTestReverse,
        checkSenderHasRetransmits])
      (by simp [parameterReaders, onSettings, setProtocol, iperfSetTestReverse,
        checkSenderHasRetransmits]) j t
  case mss =>
    exact apply_readItems_at (fun t => t.settings.mss) (fun p _ => toInt p.valueint) 8 rfl (fun _ _ => rfl)
      (by simp [parameterReaders, onSettings, setProtocol, iperfSetTestReverse,
        checkSenderHasRetransmits])
      (by simp [parameterReaders, onSettings, setProtocol, iperfSetTestReverse,
        checkSenderHasRetransmits]) j t
  case noDelay =>
    exact apply_readItems_at IperfTest.noDelay (fun _ _ => 1) 9 rfl (fun _ _ => rfl)
      (by simp [parameterReaders, onSettings, setProtocol, iperfSetTestReverse,
        checkSenderHasRetransmits])
      (by simp [parameterReaders, onSettings, setProtocol, iperfSetTestReverse,
        checkSenderHasRetransmits]) j t
  case numStreams =>
    exact apply_readItems_at IperfTest.numStreams (fun p _ => toInt p.valueint) 10 rfl (fun _ _ => rfl)
      (by simp [parameterReaders, onSettings, setProtocol, iperfSetTestReverse,
        checkSenderHasRetransmits])
      (by simp [parameterReaders, onSettings, setProtocol, iperfSetTestReverse,
        checkSenderHasRetransmits]) j t
  case reverse =>
    exact apply_readItems_at IperfTest.reverse (fun _ _ => 1) 11 rfl (fun _ _ => rfl)
      (by simp [parameterReaders, onSettings, setProtocol, iperfSetTestReverse,
        checkSenderHasRetransmits])
      (by simp [parameterReaders, onSettings, setProtocol, iperfSetTestReverse,
        checkSenderHasRetransmits]) j t
  case sender =>
    exact apply_readItems_at IperfTest.sender (fun _ b => !b) 11 rfl (fun _ _ => rfl)
      (by simp [parameterReaders, onSettings, setProtocol, iperfSetTestReverse,
        checkSenderHasRetransmits])
      (by simp [parameterReaders, onSettings, setProtocol, iperfSetTestReverse,
        checkSenderHasRetransmits]) j t
  case socketBufsize =>
    exact apply_readItems_at (fun t => t.settings.socketBufsize) (fun p _ => toInt p.valueint) 12 rfl (fun _ _ => rfl)
      (by simp [parameterReaders, onSettings, setProtocol, iperfSetTestReverse,
        checkSenderHasRetransmits])
      (by simp [parameterReaders, onSettings, setProtocol, iperfSetTestReverse,
        checkSenderHasRetransmits]) j t
  case blksize =>
    exact apply_readItems_at (fun t => t.settings.blksize) (fun p _ => toInt p.valueint) 13 rfl (fun _ _ => rfl)
      (by simp [parameterReaders, onSettings, setProtocol, iperfSetTestReverse,
        checkSenderHasRetransmits])
      (by simp [parameterReaders, onSettings, setProtocol, iperfSetTestReverse,
        checkSenderHasRetransmits]) j t
  case rate =>
    exact apply_readItems_at (fun t => t.settings.rate) (fun p _ => UInt64.ofInt p.valueint) 14 rfl (fun _ _ => rfl)
      (by simp [parameterReaders, onSettings, setProtocol, iperfSetTestReverse,
        checkSenderHasRetransmits])
      (by simp [parameterReaders, onSettings, setProtocol, iperfSetTestReverse,
        checkSenderHasRetransmits]) j t
  case burst =>
    exact apply_readItems_at (fun t => t.settings.burst) (fun p _ => toInt p.valueint) 15 rfl (fun _ _ => rfl)
      (by simp [parameterReaders, onSettings, setProtocol, iperfSetTestReverse,
        checkSenderHasRetransmits])
      (by simp [parameterReaders, onSettings, setProtocol, iperfSetTestReverse,
        checkSenderHasRetransmits]) j t
  case tos =>
    exact apply_readItems_at (fun t => t.settings.tos) (fun p _ => toInt p.valueint) 16 rfl (fun _ _ => rfl)
      (by simp [parameterReaders, onSettings, setProtocol, iperfSetTestReverse,
        checkSenderHasRetransmits])
      (by simp [parameterReaders, onSettings, setProtocol, iperfSetTestReverse,
        checkSenderHasRetransmits]) j t
  case flowlabel =>
    exact apply_readItems_at (fun t => t.settings.flowlabel) (fun p _ => toInt p.valueint) 17 rfl (fun _ _ => rfl)
      (by simp [parameterReaders, onSettings, setProtocol, iperfSetTestReverse,
        checkSenderHasRetransmits])
      (by simp [parameterReaders, onSettings, setProtocol, iperfSetTestReverse,
        checkSenderHasRetransmits]) j t
  case title =>
    exact apply_readItems IperfTest.title j (by simp [parameterReaders, onSettings, setProtocol,
      iperfSetTestReverse, checkSenderHasRetransmits]) t
  case congestion =>
    exact apply_readItems IperfTest.congestion j (by simp [parameterReaders, onSettings, setProtocol,
      iperfSetTestReverse, checkSenderHasRetransmits]) t

/-- The document has no `title` and no `congestion` that is not a string. -/
def StringsOk (j : Json) : Prop :=
  ∀ name ∈ ["title", "congestion"], ∀ p, cJSON_GetObjectItem j name = some p → p.valuestring ≠ none

/-- What `get_parameters` does with a string, seen from the parameters. -/
theorem onString_eq {j : Json} {name : String} {f : String → IperfTest → IperfTest} (t : IperfTest)
    (h : ∀ p, cJSON_GetObjectItem j name = some p → p.valuestring ≠ none) :
    ∃ t', onString j name f t = some t' ∧
      t' = match lookupOr j name Json.valuestring none with
        | none => t
        | some s => f s t := by
  unfold onString lookupOr
  cases hp : cJSON_GetObjectItem j name with
  | none => exact ⟨t, rfl, rfl⟩
  | some p =>
    cases hs : p.valuestring with
    | none => exact absurd hs (h p hp)
    | some s => exact ⟨f s t, by simp [hs], by simp [hs]⟩

theorem lookupOr_string {j : Json} {name : String} (d : Option String)
    (h : ∀ p, cJSON_GetObjectItem j name = some p → p.valuestring ≠ none) :
    lookupOr j name Json.valuestring d = (lookupOr j name Json.valuestring none).or d := by
  unfold lookupOr
  cases hp : cJSON_GetObjectItem j name with
  | none => simp
  | some p =>
    cases hs : p.valuestring with
    | none => exact absurd hs (h p hp)
    | some s => simp [hs]

/-- `get_parameters` on a document whose strings are strings. -/
theorem takeParameters_spec {j : Json} (h : StringsOk j) (t : IperfTest) :
    ∃ t', takeParameters j t = some t' ∧ t'.params = t.params.take j := by
  have htitle := h "title" (by simp)
  have hcong := h "congestion" (by simp)
  obtain ⟨t₁, h₁, e₁⟩ := onString_eq (f := fun s t => { t with title := some s })
    (readItems j parameterReaders t) htitle
  obtain ⟨t₂, h₂, e₂⟩ := onString_eq (f := fun s t => { t with congestion := some s }) t₁ hcong
  have hp₁ : t₁.params = { t.params.take j with congestion := t.congestion } := by
    have hr := readItems_params j t
    have ht : (t.params.take j).title = (lookupOr j "title" Json.valuestring none).or t.title :=
      lookupOr_string _ htitle
    rw [e₁]
    cases hl : lookupOr j "title" Json.valuestring none with
    | none => rw [hl] at ht; simp only [hr]; rw [Params.ext_iff]; simp [ht]
    | some s =>
      rw [hl] at ht
      have : ({ readItems j parameterReaders t with title := some s } : IperfTest).params =
        { (readItems j parameterReaders t).params with title := some s } := rfl
      rw [this, hr, Params.ext_iff]; simp [ht]
  have hp₂ : t₂.params = t.params.take j := by
    have ht : (t.params.take j).congestion =
        (lookupOr j "congestion" Json.valuestring none).or t.congestion := lookupOr_string _ hcong
    rw [e₂]
    cases hl : lookupOr j "congestion" Json.valuestring none with
    | none => rw [hl] at ht; simp only [hp₁]; rw [Params.ext_iff]; simp [ht]
    | some s =>
      rw [hl] at ht
      have : ({ t₁ with congestion := some s } : IperfTest).params =
        { t₁.params with congestion := some s } := rfl
      rw [this, hp₁, Params.ext_iff]; simp [ht]
  unfold takeParameters
  simp only [h₁, h₂, Option.bind_eq_bind, Option.bind_some]
  split
  · exact ⟨_, rfl, hp₂⟩
  · exact ⟨_, rfl, hp₂⟩

/-- On any other document `get_parameters` duplicates a null pointer. -/
theorem takeParameters_none {j : Json} (h : ¬ StringsOk j) (t : IperfTest) :
    takeParameters j t = none := by
  simp only [StringsOk, not_forall, not_not] at h
  obtain ⟨name, hname, p, hp, hs⟩ := h
  unfold takeParameters
  simp only [List.mem_cons, List.not_mem_nil, or_false] at hname
  rcases hname with rfl | rfl
  · simp [onString, hp, hs]
  · simp only [Option.bind_eq_bind, Option.bind_eq_none_iff]
    intro t' _
    simp [onString, hp, hs]

end Iperf
