import Mathlib.Data.List.Perm.Subperm
import Mathlib.Data.List.TakeWhile
import WifiTestTool.Iperf.JsonPrintf

/-!
# The formats of `iperf_json_printf`

A format is a sequence of fields, each with a name, a colon and a conversion. The name of a field is gathered
in a buffer that all fields share: the colon ends it and the conversion makes it start again.
-/

namespace Iperf

open Dll (Addr Node Seg)

/-! ## Fields and values -/

/-- The name of a field -/
structure FieldName where
  chars : List Char
  pos : 1 ≤ chars.length
  le : chars.length ≤ 99
  plain : ∀ c ∈ chars, c ∉ [' ', ':', '%', '\x00']

/-- A field `name: %type`, with the numbers of the blanks in front of its three tokens. -/
structure Field where
  name : FieldName
  type : Char
  letter : type ≠ '\x00'
  beforeName : Nat
  beforeColon : Nat
  beforeType : Nat

/-- The text of a field -/
def Field.text (f : Field) : List Char :=
  List.replicate f.beforeName ' ' ++ (f.name.chars ++ (List.replicate f.beforeColon ' ' ++
    ':' :: (List.replicate f.beforeType ' ' ++ ['%', f.type])))

/-- A format, with blanks at its end. -/
def formatText (fields : List Field) (blanks : Nat) : List Char :=
  fields.flatMap Field.text ++ List.replicate blanks ' '

/-- The conversions -/
def conversionTypes : List Char := ['b', 'd', 'f', 's']

/-- The conversion for an argument of this type. -/
def VaArg.type : VaArg → Char
  | .int _ => 'b'
  | .int64 _ => 'd'
  | .double _ => 'f'
  | .charp _ => 's'

/-- What is bound to a name in a JSON object. -/
inductive JsonValue where
  | bool (b : Bool)
  | int (i : Int64)
  | float (f : Float)
  | string (s : List Char)

/-- The value that an argument stands for. -/
def VaArg.value : VaArg → JsonValue
  | .int b => .bool (b ≠ 0)
  | .int64 i => .int i
  | .double f => .float f
  | .charp s => .string (cString s)

/-- The item with this name and this value. -/
def JsonValue.item (name : List Char) : JsonValue → CJson
  | .bool b => { CJson.zero with type := if b then .true else .false, string := some name }
  | .int i => { CJson.zero with
      type := .number, valuefloat := i.toFloat, valueint := i, string := some name }
  | .float f => { CJson.zero with
      type := .number, valuefloat := f, valueint := f.toInt64, string := some name }
  | .string s => { CJson.zero with type := .string, valuestring := some s, string := some name }

/-- At `o` there is an object with these names bound to these values, in this order. -/
def CJsonMem.HoldsObject (m : CJsonMem) (o : Addr) (entries : List (List Char × JsonValue)) : Prop :=
  ∃ c l last, m.items o = some c ∧ c.val.type = .object ∧ Seg m.items none c.val.child l last none ∧
    (o :: l).Nodup ∧ l.map (fun a => (m.items a).map Node.val) = entries.map fun e => some (e.2.item e.1)

/-- There is always memory. -/
structure Malloc.Succeeds (malloc : Malloc) : Prop where
  item : ∀ m, (malloc.item m).isSome = true
  text : ∀ m s, malloc.text m s = true

/-! ## The items -/

section Items

variable {malloc : Malloc} {m m' : CJsonMem} {o a : Addr} {entries : List (List Char × JsonValue)}

theorem CJsonMem.store_eq {c : Node CJson} (h : m.items a = some c) (f : Node CJson → Node CJson) :
    m.store a f = some (m.modify a f) := by
  unfold CJsonMem.store
  rw [h]
  rfl

theorem CJsonMem.put_self (m : CJsonMem) (a : Addr) (c : Node CJson) : (m.put a c).items a = some c :=
  Function.update_self ..

theorem CJsonMem.put_other (m : CJsonMem) {a b : Addr} (h : b ≠ a) (c : Node CJson) :
    (m.put a c).items b = m.items b :=
  Function.update_of_ne h ..

theorem CJsonMem.modify_self (m : CJsonMem) (a : Addr) (f : Node CJson → Node CJson) :
    (m.modify a f).items a = (m.items a).map f :=
  Dll.Heap.modify_same ..

theorem CJsonMem.modify_other (m : CJsonMem) {a b : Addr} (h : b ≠ a) (f : Node CJson → Node CJson) :
    (m.modify a f).items b = m.items b :=
  Dll.Heap.modify_other _ _ h

/-- There are no more items than addresses up to `top`. -/
theorem CJsonMem.length_le (m : CJsonMem) {l : List Addr} (hnodup : l.Nodup)
    (hl : ∀ a ∈ l, (m.items a).isSome = true) : l.length ≤ m.top := by
  have hsubset : l ⊆ List.range m.top := by
    intro a ha
    rw [List.mem_range]
    by_contra htop
    have hsome := hl a ha
    rw [m.free a (Nat.le_of_not_lt htop)] at hsome
    cases hsome
  have hlength := (List.Nodup.subperm hnodup hsubset).length_le
  rwa [List.length_range] at hlength

/-- An object depends on the items that there are. -/
theorem CJsonMem.HoldsObject.frame (h : m.HoldsObject o entries)
    (hm : ∀ a c, m.items a = some c → m'.items a = some c) : m'.HoldsObject o entries := by
  obtain ⟨c, l, last, ho, htype, hseg, hnodup, hvals⟩ := h
  have hsame : ∀ a ∈ l, m'.items a = m.items a := by
    intro a ha
    obtain ⟨ca, hca⟩ := hseg.isSome ha
    rw [hca, hm a ca hca]
  refine ⟨c, l, last, hm o c ho, htype, hseg.congr hsame, hnodup, ?_⟩
  rw [← hvals]
  exact List.map_congr_left fun a ha => by rw [hsame a ha]

/-- A constructor makes an item at an address where there was none. -/
theorem createItem_succeeds (hmalloc : malloc.Succeeds) (f : CJsonMem → CJson → CJson) (m : CJsonMem) :
    ∃ a m₁ m', createItem malloc f m = (some a, m') ∧ m.items a = none ∧
      m'.items a = some ⟨f m₁ CJson.zero, none, none⟩ ∧ ∀ b, b ≠ a → m'.items b = m.items b := by
  obtain ⟨a, ha⟩ := Option.isSome_iff_exists.1 (hmalloc.item m)
  refine ⟨a, m.put a ⟨CJson.zero, none, none⟩,
    (m.put a ⟨CJson.zero, none, none⟩).modify a (Node.mapVal (f (m.put a ⟨CJson.zero, none, none⟩))),
    ?_, malloc.fresh m a ha, ?_, ?_⟩
  · unfold createItem cJSON_New_Item
    rw [ha]
  · rw [CJsonMem.modify_self, CJsonMem.put_self]
    rfl
  · intro b hb
    rw [CJsonMem.modify_other _ hb, CJsonMem.put_other _ hb]

theorem cJSON_strdup_succeeds (hmalloc : malloc.Succeeds) (s : List Char) (m : CJsonMem) :
    cJSON_strdup malloc s m = some (cString s) := by
  unfold cJSON_strdup
  rw [if_pos (hmalloc.text m _)]

/-- `suffix_object` is the link behind the last node. -/
theorem suffixObject_items {t b : Addr} {items : Dll.Heap CJson} (h : m.items.linkLast t b = some items) :
    ∃ m', suffixObject b t m = some m' ∧ m'.items = items := by
  unfold Dll.Heap.linkLast at h
  obtain ⟨items₁, h₁, h₂⟩ := Option.bind_eq_some_iff.1 h
  simp only [Dll.Heap.store] at h₁ h₂
  split at h₁
  · rename_i hb
    cases h₁
    split at h₂
    · rename_i ht
      cases h₂
      refine ⟨(m.modify b (Node.withNext (some t))).modify t (Node.withPrev (some b)), ?_, rfl⟩
      unfold suffixObject CJsonMem.store
      rw [if_pos hb]
      exact if_pos ht
    · cases h₂
  · cases h₁

/-- The first item of an object -/
theorem cJSON_AddItemToArray_first {c : Node CJson} (ho : m.items o = some c) (hchild : c.val.child = none) :
    cJSON_AddItemToArray o (some a) m =
      some (m.modify o (Node.mapVal fun c => { c with child := some a })) := by
  unfold cJSON_AddItemToArray
  rw [ho]
  simp only [Option.bind_eq_bind, Option.bind_some, hchild]
  exact CJsonMem.store_eq ho _

/-- Another item of an object -/
theorem cJSON_AddItemToArray_next {c : Node CJson} {child : Addr} (ho : m.items o = some c)
    (hchild : c.val.child = some child) :
    cJSON_AddItemToArray o (some a) m = (m.items.walkLast m.top child).bind fun last => suffixObject last a m := by
  unfold cJSON_AddItemToArray
  rw [ho]
  simp only [Option.bind_eq_bind, Option.bind_some, hchild]

/-- An item without neighbours becomes the last one of the object. -/
theorem CJsonMem.HoldsObject.addItem (h : m.HoldsObject o entries) {name : List Char} {v : JsonValue}
    (ha : m.items a = none) (ha' : m'.items a = some ⟨v.item name, none, none⟩)
    (hm : ∀ b, b ≠ a → m'.items b = m.items b) :
    ∃ m'', cJSON_AddItemToArray o (some a) m' = some m'' ∧ m''.HoldsObject o (entries ++ [(name, v)]) := by
  obtain ⟨c, l, last, ho, htype, hseg, hnodup, hvals⟩ := h
  have hoa : o ≠ a := by
    rintro rfl
    rw [ha] at ho
    cases ho
  have hal : a ∉ l := by
    intro hal
    obtain ⟨ca, hca⟩ := hseg.isSome hal
    rw [ha] at hca
    cases hca
  have hla : ∀ b ∈ l, m'.items b = m.items b := fun b hb => hm b fun hba => hal (hba ▸ hb)
  have ho' : m'.items o = some c := by rw [hm o hoa, ho]
  have hseg' : Seg m'.items none c.val.child l last none := hseg.congr hla
  have hnodup' : (o :: (l ++ [a])).Nodup := by
    rw [List.nodup_cons] at hnodup ⊢
    refine ⟨?_, hnodup.2.append (List.nodup_singleton a) ?_⟩
    · simp [hnodup.1, hoa]
    · simpa using hal
  have hvals' : (l ++ [a]).map (fun b => (m'.items b).map Node.val) =
      (entries ++ [(name, v)]).map fun e => some (e.2.item e.1) := by
    rw [List.map_append, List.map_append, ← hvals]
    congr 1
    · exact List.map_congr_left fun b hb => by rw [hla b hb]
    · simp [ha']
  rcases List.eq_nil_or_concat' l with rfl | ⟨l, b, rfl⟩
  · have hchild : c.val.child = none := hseg'.1
    refine ⟨_, cJSON_AddItemToArray_first ho' hchild, Node.mapVal (fun c => { c with child := some a }) c,
      [a], some a, ?_, ?_, ?_, hnodup', ?_⟩
    · rw [CJsonMem.modify_self, ho']
      rfl
    · exact htype
    · refine ⟨rfl, ⟨v.item name, none, none⟩, ?_, rfl, rfl, rfl⟩
      rw [CJsonMem.modify_other _ hoa.symm, ha']
    · rw [← hvals']
      simp [CJsonMem.modify_other _ hoa.symm]
  · obtain ⟨child, hchild⟩ : ∃ child, c.val.child = some child := by
      cases l with
      | nil => exact ⟨_, hseg'.1⟩
      | cons d l => exact ⟨_, hseg'.1⟩
    rw [hchild] at hseg'
    have hl := List.nodup_cons.1 hnodup
    have htop : (l ++ [b]).length ≤ m'.top :=
      m'.length_le hl.2 fun d hd => by
        obtain ⟨cd, hcd⟩ := hseg'.isSome hd
        rw [hcd]
        rfl
    have hlength : l.length < m'.top := by
      rw [List.length_append] at htop
      exact htop
    obtain ⟨items, hlink, hseg'', hother, hval⟩ := hseg'.linkLast hl.2 hal ha' rfl
    obtain ⟨m'', hsuffix, rfl⟩ := suffixObject_items hlink
    have hob : o ≠ b := by
      rintro rfl
      exact hl.1 (by simp)
    refine ⟨m'', ?_, c, l ++ [b] ++ [a], some a, ?_, htype, ?_, hnodup', ?_⟩
    · rw [cJSON_AddItemToArray_next ho' hchild, hseg'.walkLast hlength]
      exact hsuffix
    · rw [hother o hob hoa, ho']
    · rw [hchild]
      exact hseg''
    · rw [← hvals']
      exact List.map_congr_left fun d _ => hval d

/-- A new item becomes the last one of the object, under the name. -/
theorem CJsonMem.HoldsObject.add (hmalloc : malloc.Succeeds) (h : m.HoldsObject o entries)
    (ha : m.items a = none) {c : CJson} (ha' : m'.items a = some ⟨c, none, none⟩)
    (hm : ∀ b, b ≠ a → m'.items b = m.items b) {name : List Char} {v : JsonValue}
    (hv : { c with string := some (cString name) } = v.item (cString name)) :
    ∃ m'', cJSON_AddItemToObject malloc o name (some a) m' = some m'' ∧
      m''.HoldsObject o (entries ++ [(cString name, v)]) := by
  set m₁ := m'.modify a (Node.mapVal fun c => { c with string := cJSON_strdup malloc name m' }) with hm₁
  have ha₁ : m₁.items a = some ⟨v.item (cString name), none, none⟩ := by
    rw [hm₁, CJsonMem.modify_self, ha', ← hv, cJSON_strdup_succeeds hmalloc]
    rfl
  have hother : ∀ b, b ≠ a → m₁.items b = m.items b := by
    intro b hb
    rw [hm₁, CJsonMem.modify_other _ hb, hm b hb]
  obtain ⟨m'', hadd, hobject⟩ := h.addItem ha ha₁ hother
  refine ⟨m'', ?_, hobject⟩
  unfold cJSON_AddItemToObject
  simp only [CJsonMem.store_eq ha', Option.bind_eq_bind, Option.bind_some]
  exact hadd

/-- A new object is empty. -/
theorem cJSON_CreateObject_succeeds (hmalloc : malloc.Succeeds) (m : CJsonMem) :
    ∃ o m', cJSON_CreateObject malloc m = (some o, m') ∧ m'.HoldsObject o [] := by
  obtain ⟨o, m₁, m', hcreate, -, ho, -⟩ :=
    createItem_succeeds hmalloc (fun _ c => { c with type := .object }) m
  exact ⟨o, m', hcreate, _, [], none, ho, rfl, ⟨rfl, rfl⟩, List.nodup_singleton o, rfl⟩

/-- The conversion for the argument makes an item with its value. -/
theorem convertArg_value (hmalloc : malloc.Succeeds) (arg : VaArg) (argp : List VaArg) (m : CJsonMem) :
    ∃ a m' c, convertArg malloc arg.type (arg :: argp) m = some (some a, argp, m') ∧ m.items a = none ∧
      m'.items a = some ⟨c, none, none⟩ ∧ (∀ b, b ≠ a → m'.items b = m.items b) ∧
      ∀ name, { c with string := some name } = arg.value.item name := by
  cases arg with
  | int b =>
    obtain ⟨a, m₁, m', hcreate, ha, ha', hother⟩ :=
      createItem_succeeds hmalloc (fun _ c => { c with type := if b ≠ 0 then .true else .false }) m
    refine ⟨a, m', _, ?_, ha, ha', hother, fun name => ?_⟩
    · simp only [convertArg, VaArg.type, if_true, cJSON_CreateBool, hcreate]
    · simp [VaArg.value, JsonValue.item]
  | int64 i =>
    obtain ⟨a, m₁, m', hcreate, ha, ha', hother⟩ := createItem_succeeds hmalloc
      (fun _ c => { c with type := .number, valuefloat := i.toFloat, valueint := i }) m
    refine ⟨a, m', _, ?_, ha, ha', hother, fun name => rfl⟩
    simp [convertArg, VaArg.type, cJSON_CreateInt, hcreate]
  | double f =>
    obtain ⟨a, m₁, m', hcreate, ha, ha', hother⟩ := createItem_succeeds hmalloc
      (fun _ c => { c with type := .number, valuefloat := f, valueint := f.toInt64 }) m
    refine ⟨a, m', _, ?_, ha, ha', hother, fun name => rfl⟩
    simp [convertArg, VaArg.type, cJSON_CreateFloat, hcreate]
  | charp s =>
    obtain ⟨a, m₁, m', hcreate, ha, ha', hother⟩ := createItem_succeeds hmalloc
      (fun m c => { c with type := .string, valuestring := cJSON_strdup malloc s m }) m
    refine ⟨a, m', _, ?_, ha, ha', hother, fun name => ?_⟩
    · simp [convertArg, VaArg.type, cJSON_CreateString, hcreate]
    · simp [VaArg.value, JsonValue.item, cJSON_strdup_succeeds hmalloc]

/-- A letter that is no conversion makes no item. -/
theorem convertArg_other {type : Char} (htype : type ∉ conversionTypes) (argp : List VaArg) (m : CJsonMem) :
    convertArg malloc type argp m = some (none, argp, m) := by
  simp only [conversionTypes, List.mem_cons, List.not_mem_nil, or_false, not_or] at htype
  obtain ⟨hb, hd, hf, hs⟩ := htype
  unfold convertArg
  rw [if_neg hb, if_neg hd, if_neg hf, if_neg hs]

end Items

/-! ## The name buffer -/

section Buffer

variable {name : NameBuffer} {chars : List Char} {c : Char} {i : Nat}

theorem cString_eq (h : '\x00' ∉ chars) : cString chars = chars := by
  refine List.takeWhile_eq_self_iff.2 fun c hc => ?_
  rw [decide_eq_true_eq]
  rintro rfl
  exact h hc

/-- A write keeps the characters in front of it. -/
theorem NameBuffer.set_lt (hi : i < 100) (c : Char) (name : NameBuffer) :
    ∃ name', name.set i c = some name' ∧ name'.chars.take i = name.chars.take i ∧
      name'.chars[i]? = some c := by
  refine ⟨_, if_pos hi, ?_, ?_⟩
  · exact List.take_set_of_le (Nat.le_refl i)
  · rw [List.getElem?_set_self (by rw [name.length_eq]; exact hi)]

/-- The colon ends the name. -/
theorem NameBuffer.string_eq (hplain : '\x00' ∉ chars) (htake : name.chars.take chars.length = chars)
    (hend : name.chars[chars.length]? = some '\x00') : name.string = some chars := by
  obtain ⟨hlt, hget⟩ := List.getElem?_eq_some_iff.1 hend
  have hchars : name.chars = chars ++ '\x00' :: name.chars.drop (chars.length + 1) := by
    calc name.chars = name.chars.take chars.length ++ name.chars.drop chars.length :=
          (List.take_append_drop ..).symm
      _ = chars ++ '\x00' :: name.chars.drop (chars.length + 1) := by
          rw [htake, List.drop_eq_getElem_cons hlt, hget]
  have hmem : '\x00' ∈ name.chars := by
    rw [hchars]
    simp
  unfold NameBuffer.string
  rw [if_pos hmem, hchars, cString, List.takeWhile_append_of_pos]
  · simp
  · intro c hc
    rw [decide_eq_true_eq]
    rintro rfl
    exact hplain hc

end Buffer

/-! ## The loop -/

section Loop

variable {malloc : Malloc} {o : Addr} {s : PrintfState} {cs chars : List Char} {f : Field} {arg : VaArg}
  {args argp : List VaArg} {entries : List (List Char × JsonValue)} {fields : List Field}

theorem FieldName.ne_nul (name : FieldName) : '\x00' ∉ name.chars :=
  fun h => name.plain _ h (by simp)

theorem jsonPrintfLoop_colon (cs : List Char) (s : PrintfState) :
    jsonPrintfLoop malloc o (':' :: cs) s =
      (s.name.set s.np '\x00').bind fun name => jsonPrintfLoop malloc o cs { s with name := name } := by
  rw [jsonPrintfLoop.eq_def]
  dsimp only
  rw [if_neg (by decide), if_pos rfl]
  rfl

theorem jsonPrintfLoop_char {c : Char} (hc : c ∉ [' ', ':', '%', '\x00']) (cs : List Char) (s : PrintfState) :
    jsonPrintfLoop malloc o (c :: cs) s =
      (s.name.set s.np c).bind fun name => jsonPrintfLoop malloc o cs { s with name := name, np := s.np + 1 } := by
  simp only [List.mem_cons, List.not_mem_nil, or_false, not_or] at hc
  obtain ⟨hblank, hcolon, hpercent, -⟩ := hc
  rw [jsonPrintfLoop.eq_def]
  dsimp only
  rw [if_neg hblank, if_neg hcolon, if_neg hpercent]
  rfl

/-- Blanks are passed over. -/
theorem jsonPrintfLoop_blanks (n : Nat) (cs : List Char) (s : PrintfState) :
    jsonPrintfLoop malloc o (List.replicate n ' ' ++ cs) s = jsonPrintfLoop malloc o cs s := by
  induction n with
  | zero => rfl
  | succ n ih =>
    rw [List.replicate_succ, List.cons_append, jsonPrintfLoop.eq_def]
    dsimp only
    rw [if_pos rfl, ih]

/-- The characters of a name are written behind what the buffer holds. -/
theorem jsonPrintfLoop_name (malloc : Malloc) (o : Addr) (hplain : ∀ c ∈ chars, c ∉ [' ', ':', '%', '\x00'])
    (hle : s.np + chars.length ≤ 100) (cs : List Char) :
    ∃ name : NameBuffer, name.chars.take (s.np + chars.length) = s.name.chars.take s.np ++ chars ∧
      jsonPrintfLoop malloc o (chars ++ cs) s =
        jsonPrintfLoop malloc o cs { s with name := name, np := s.np + chars.length } := by
  induction chars generalizing s with
  | nil => exact ⟨s.name, by simp, rfl⟩
  | cons c chars ih =>
    rw [List.length_cons] at hle ⊢
    obtain ⟨name₁, hset, htake₁, hget⟩ := NameBuffer.set_lt (by omega : s.np < 100) c s.name
    obtain ⟨name, htake, hloop⟩ := ih (s := { s with name := name₁, np := s.np + 1 })
      (fun d hd => hplain d (by simp [hd])) (by dsimp only; omega)
    refine ⟨name, ?_, ?_⟩
    · rw [show s.np + (chars.length + 1) = s.np + 1 + chars.length by omega, htake, List.take_add_one,
        htake₁, hget]
      simp
    · rw [List.cons_append, jsonPrintfLoop_char (hplain c (by simp)), hset, Option.bind_some, hloop,
        show s.np + (chars.length + 1) = s.np + 1 + chars.length by omega]

/-- Up to its conversion, a field puts its name into the buffer. -/
theorem jsonPrintfLoop_token (malloc : Malloc) (o : Addr) (f : Field) (cs : List Char) (hnp : s.np = 0) :
    ∃ name : NameBuffer, name.string = some f.name.chars ∧
      jsonPrintfLoop malloc o (f.text ++ cs) s = jsonPrintfLoop malloc o ('%' :: f.type :: cs)
        { s with name := name, np := f.name.chars.length } := by
  have hlength := f.name.le
  obtain ⟨name₁, htake₁, hloop⟩ := jsonPrintfLoop_name malloc o f.name.plain (by omega : s.np + _ ≤ 100)
    (List.replicate f.beforeColon ' ' ++ ':' :: (List.replicate f.beforeType ' ' ++ '%' :: f.type :: cs))
  rw [hnp, Nat.zero_add, List.take_zero, List.nil_append] at htake₁
  obtain ⟨name, hset, htake, hget⟩ :=
    NameBuffer.set_lt (by omega : f.name.chars.length < 100) '\x00' name₁
  refine ⟨name, NameBuffer.string_eq f.name.ne_nul (htake.trans htake₁) hget, ?_⟩
  unfold Field.text
  simp only [List.append_assoc, List.cons_append, List.nil_append]
  rw [jsonPrintfLoop_blanks, hloop, jsonPrintfLoop_blanks, jsonPrintfLoop_colon]
  simp only [hnp, Nat.zero_add, hset, Option.bind_some]
  exact jsonPrintfLoop_blanks ..

/-- A field binds its name to the value of its argument and leaves the buffer to the next one. -/
theorem jsonPrintfLoop_field (hmalloc : malloc.Succeeds) (cs : List Char) (hnp : s.np = 0)
    (hargs : s.argp = arg :: argp) (htype : f.type = arg.type) (h : s.mem.HoldsObject o entries) :
    ∃ s', s'.np = 0 ∧ s'.argp = argp ∧ s'.mem.HoldsObject o (entries ++ [(f.name.chars, arg.value)]) ∧
      jsonPrintfLoop malloc o (f.text ++ cs) s = jsonPrintfLoop malloc o cs s' := by
  obtain ⟨name, hname, hloop⟩ := jsonPrintfLoop_token malloc o f cs hnp
  obtain ⟨a, m₁, c, hconvert, ha, ha₁, hother, hvalue⟩ := convertArg_value hmalloc arg argp s.mem
  obtain ⟨m, hadd, hobject⟩ := h.add hmalloc ha ha₁ hother (hvalue (cString f.name.chars))
  rw [cString_eq f.name.ne_nul] at hobject
  refine ⟨⟨name, 0, argp, m⟩, rfl, rfl, hobject, ?_⟩
  rw [hloop, jsonPrintfLoop, if_neg (by decide), if_neg (by decide), if_pos rfl]
  simp only [hargs, htype, hconvert, hname, hadd, Option.bind_eq_bind, Option.bind_some]

/-- A field with a letter that is no conversion ends the loop. -/
theorem jsonPrintfLoop_other (hnp : s.np = 0) (htype : f.type ∉ conversionTypes) :
    jsonPrintfLoop malloc o (f.text ++ cs) s = some (none, s.mem) := by
  obtain ⟨name, -, hloop⟩ := jsonPrintfLoop_token malloc o f cs hnp
  rw [hloop, jsonPrintfLoop, if_neg (by decide), if_neg (by decide), if_pos rfl]
  simp only [convertArg_other htype, Option.bind_eq_bind, Option.bind_some]

/-- The names of the fields and the values of the arguments -/
def boundValues (fields : List Field) (args : List VaArg) : List (List Char × JsonValue) :=
  List.zipWith (fun f arg => (f.name.chars, arg.value)) fields args

/-- Fields bind their names in their order. -/
theorem jsonPrintfLoop_fields (hmalloc : malloc.Succeeds) (cs : List Char) (hnp : s.np = 0)
    (hargs : s.argp = args ++ argp) (htypes : fields.map Field.type = args.map VaArg.type) (h : s.mem.HoldsObject o entries) :
    ∃ s', s'.np = 0 ∧ s'.argp = argp ∧ s'.mem.HoldsObject o (entries ++ boundValues fields args) ∧
      jsonPrintfLoop malloc o (fields.flatMap Field.text ++ cs) s = jsonPrintfLoop malloc o cs s' := by
  induction fields generalizing args entries s with
  | nil =>
    obtain rfl : args = [] := by simpa using htypes.symm
    exact ⟨s, hnp, hargs, by simpa [boundValues] using h, rfl⟩
  | cons f fields ih =>
    cases args with
    | nil => cases htypes
    | cons arg args =>
      rw [List.map_cons, List.map_cons, List.cons.injEq] at htypes
      obtain ⟨htype, htypes⟩ := htypes
      obtain ⟨s₁, hnp₁, hargs₁, h₁, hloop₁⟩ :=
        jsonPrintfLoop_field hmalloc (fields.flatMap Field.text ++ cs) hnp hargs htype h
      obtain ⟨s', hnp', hargs', h', hloop⟩ := ih hnp₁ hargs₁ htypes h₁
      refine ⟨s', hnp', hargs', ?_, ?_⟩
      · rw [List.append_assoc] at h'
        exact h'
      · rw [List.flatMap_cons, List.append_assoc, hloop₁, hloop]

/-- There is no NUL in a format. -/
theorem formatText_ne_nul (fields : List Field) (blanks : Nat) : '\x00' ∉ formatText fields blanks := by
  unfold formatText
  rw [List.mem_append, List.mem_flatMap, List.mem_replicate]
  rintro (⟨f, -, hf⟩ | ⟨-, h⟩)
  · simp only [Field.text, List.mem_append, List.mem_cons, List.mem_replicate, List.not_mem_nil, or_false] at hf
    rcases hf with ⟨-, h⟩ | h | ⟨-, h⟩ | h | ⟨-, h⟩ | h | h
    · exact absurd h (by decide)
    · exact f.name.ne_nul h
    · exact absurd h (by decide)
    · exact absurd h (by decide)
    · exact absurd h (by decide)
    · exact absurd h (by decide)
    · exact f.letter h.symm
  · exact absurd h (by decide)

theorem iperfJsonPrintf_eq {name : NameBuffer} {args : List VaArg} {m m' : CJsonMem}
    (ho : cJSON_CreateObject malloc m = (some o, m')) (fields : List Field) (blanks : Nat) :
    iperfJsonPrintf malloc name (formatText fields blanks) args m =
      jsonPrintfLoop malloc o (formatText fields blanks) ⟨name, 0, args, m'⟩ := by
  unfold iperfJsonPrintf
  rw [ho, cString_eq (formatText_ne_nul fields blanks)]

/-- The first field whose letter is no conversion. -/
theorem exists_first_other (h : ∃ f ∈ fields, f.type ∉ conversionTypes) :
    ∃ f rest, f.type ∉ conversionTypes ∧
      fields = (fields.takeWhile fun f => f.type ∈ conversionTypes) ++ f :: rest := by
  induction fields with
  | nil =>
    obtain ⟨f, hf, -⟩ := h
    cases hf
  | cons g fields ih =>
    by_cases hg : g.type ∈ conversionTypes
    · have hrest : ∃ f ∈ fields, f.type ∉ conversionTypes := by
        obtain ⟨f, hf, hother⟩ := h
        rcases List.mem_cons.1 hf with rfl | hf
        · exact absurd hg hother
        · exact ⟨f, hf, hother⟩
      obtain ⟨f, rest, hother, hfields⟩ := ih hrest
      refine ⟨f, rest, hother, ?_⟩
      rw [List.takeWhile_cons_of_pos (by simpa using hg), List.cons_append, ← hfields]
    · refine ⟨g, fields, hg, ?_⟩
      rw [List.takeWhile_cons_of_neg (by simpa using hg), List.nil_append]

/-- The result of `iperf_json_printf` is the object that binds the names of the fields to the values of the
arguments, in the order of the fields. It is `NULL` if there is a letter that is no conversion. -/
theorem iperfJsonPrintf_formatText (hmalloc : malloc.Succeeds) (name : NameBuffer) (fields : List Field)
    (blanks : Nat) (args : List VaArg) (m : CJsonMem) :
    (fields.map Field.type = args.map VaArg.type →
      ∃ o m', iperfJsonPrintf malloc name (formatText fields blanks) args m = some (some o, m') ∧
        m'.HoldsObject o (boundValues fields args)) ∧
    ((∃ f ∈ fields, f.type ∉ conversionTypes) →
      (fields.takeWhile fun f => f.type ∈ conversionTypes).map Field.type <+: args.map VaArg.type →
      ∃ m', iperfJsonPrintf malloc name (formatText fields blanks) args m = some (none, m')) := by
  obtain ⟨o, m₁, ho, hempty⟩ := cJSON_CreateObject_succeeds hmalloc m
  rw [iperfJsonPrintf_eq ho]
  unfold formatText
  constructor
  · intro htypes
    obtain ⟨s', -, -, hobject, hloop⟩ := jsonPrintfLoop_fields (s := ⟨name, 0, args, m₁⟩)
      hmalloc (List.replicate blanks ' ' ++ []) rfl (List.append_nil args).symm htypes hempty
    rw [List.append_nil] at hloop
    refine ⟨o, s'.mem, ?_, hobject⟩
    rw [hloop, ← List.append_nil (List.replicate blanks ' '), jsonPrintfLoop_blanks]
    rfl
  · intro hother hprefix
    -- The fields in front of the first other letter use up the arguments of their own.
    obtain ⟨types, htypes⟩ := hprefix
    obtain ⟨args₁, argp, rfl, htypes₁, -⟩ := List.map_eq_append_iff.1 htypes.symm
    obtain ⟨f, rest, hf, hfields⟩ := exists_first_other hother
    obtain ⟨s', hnp, -, -, hloop⟩ := jsonPrintfLoop_fields (s := ⟨name, 0, args₁ ++ argp, m₁⟩)
      hmalloc (f.text ++ (rest.flatMap Field.text ++ List.replicate blanks ' ')) rfl rfl htypes₁.symm hempty
    refine ⟨s'.mem, ?_⟩
    rw [hfields, List.flatMap_append, List.flatMap_cons, List.append_assoc, List.append_assoc, hloop]
    exact jsonPrintfLoop_other hnp hf

/-- An allocator that takes the next address. -/
def nextMalloc : Malloc where
  item m := some m.top
  text _ _ := true
  fresh m a ha := by
    cases ha
    exact m.free _ (Nat.le_refl _)

/-- The format `"host: %s  port: %d "`, and the one with a letter that is no conversion in its place. -/
def hostPort (type : Char) (letter : type ≠ '\x00') : List Field :=
  [⟨⟨['h', 'o', 's', 't'], by simp, by simp, by simp⟩, 's', by decide, 0, 0, 1⟩,
    ⟨⟨['p', 'o', 'r', 't'], by simp, by simp, by simp⟩, type, letter, 2, 0, 1⟩]

theorem iperfJsonPrintf_hostPort :
    (∃ o m', iperfJsonPrintf nextMalloc ⟨List.replicate 100 'x', List.length_replicate⟩
        (formatText (hostPort 'd' (by decide)) 1) [.charp ['p', 'c'], .int64 5201] CJsonMem.empty =
          some (some o, m') ∧
      m'.HoldsObject o [(['h', 'o', 's', 't'], .string ['p', 'c']), (['p', 'o', 'r', 't'], .int 5201)]) ∧
    ∃ m', iperfJsonPrintf nextMalloc ⟨List.replicate 100 'x', List.length_replicate⟩
        (formatText (hostPort 'i' (by decide)) 1) [.charp ['p', 'c'], .int64 5201] CJsonMem.empty =
          some (none, m') := by
  have hmalloc : nextMalloc.Succeeds := ⟨fun _ => rfl, fun _ _ => rfl⟩
  constructor
  · exact (iperfJsonPrintf_formatText hmalloc _ _ 1 _ _).1 rfl
  · exact (iperfJsonPrintf_formatText hmalloc _ _ 1 _ _).2
      ⟨_, List.mem_cons_of_mem _ List.mem_cons_self, by decide⟩ ⟨['d'], rfl⟩

end Loop

end Iperf
