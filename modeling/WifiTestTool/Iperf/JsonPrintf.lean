import WifiTestTool.Lib.Dll

/-!
# Building JSON items from a format (`iperf_util.c`, `cjson.c`)

`iperf_json_printf` with what it calls of cJSON, on the items in memory. A `char` is a `Char`, a `double` is
a `Float`, and `none` as the outcome of a function is an access to memory that the program does not own, or
an argument of another type than the one that is asked for.
-/

namespace Iperf

open Dll (Addr Node)

/-! ## `cjson.c` -/

/-- The types of an item, without the flag `cJSON_IsReference`. -/
inductive CJsonType where
  | false | true | null | number | string | array | object
deriving DecidableEq, Repr

/-- `cJSON` without its links to the items beside it -/
structure CJson where
  child : Option Addr
  type : CJsonType
  valuestring : Option (List Char)
  valueint : Int64
  valuefloat : Float
  string : Option (List Char)

/-- An item filled with zeros. -/
def CJson.zero : CJson where
  child := none
  type := .false
  valuestring := none
  valueint := 0
  valuefloat := 0
  string := none

/-- The items in memory. There is none from the address `top` on. -/
structure CJsonMem where
  items : Dll.Heap CJson
  top : Nat
  free : ∀ a, top ≤ a → items a = none

namespace CJsonMem

/-- No items. -/
def empty : CJsonMem where
  items _ := none
  top := 0
  free _ _ := rfl

/-- Put an item at the address `a`. -/
def put (a : Nat) (c : Node CJson) (m : CJsonMem) : CJsonMem where
  items := Function.update m.items a (some c)
  top := max m.top (a + 1)
  free b hb := by
    have hba : b ≠ a := by omega
    rw [Function.update_of_ne hba]
    exact m.free b (by omega)

/-- Change the item at the address `a`, if there is one. -/
def modify (a : Addr) (f : Node CJson → Node CJson) (m : CJsonMem) : CJsonMem where
  items := m.items.modify a f
  top := m.top
  free b hb := by
    by_cases hba : b = a
    · rw [hba, Dll.Heap.modify_same, ← hba, m.free b hb]
      rfl
    · rw [Dll.Heap.modify_other _ _ hba]
      exact m.free b hb

/-- Change the item at the address `a`: `none` is the access to an address without an item. -/
def store (a : Addr) (f : Node CJson → Node CJson) (m : CJsonMem) : Option CJsonMem :=
  if (m.items a).isSome then some (m.modify a f) else none

end CJsonMem

/-- `malloc`: the place for a new item, and whether there is memory for the copy of a string. -/
structure Malloc where
  item : CJsonMem → Option Addr
  text : CJsonMem → List Char → Bool
  fresh : ∀ m a, item m = some a → m.items a = none

section Malloc

variable (malloc : Malloc)

/-- The string in a buffer: the characters in front of the first NUL. -/
def cString (s : List Char) : List Char := s.takeWhile fun c => c ≠ '\x00'

/-- `cJSON_strdup` -/
def cJSON_strdup (s : List Char) (m : CJsonMem) : Option (List Char) :=
  if malloc.text m (cString s) then some (cString s) else none

/-- `cJSON_New_Item` -/
def cJSON_New_Item (m : CJsonMem) : Option Addr × CJsonMem :=
  match malloc.item m with
  | none => (none, m)
  | some a => (some a, m.put a ⟨CJson.zero, none, none⟩)

/-- What the constructors of items have in common: `f` fills in the new item. -/
def createItem (f : CJsonMem → CJson → CJson) (m : CJsonMem) : Option Addr × CJsonMem :=
  match cJSON_New_Item malloc m with
  | (none, m) => (none, m)
  | (some a, m) => (some a, m.modify a (Node.mapVal (f m)))

/-- `cJSON_CreateBool` -/
def cJSON_CreateBool (b : Int32) : CJsonMem → Option Addr × CJsonMem :=
  createItem malloc fun _ c => { c with type := if b ≠ 0 then .true else .false }

/-- `cJSON_CreateInt` -/
def cJSON_CreateInt (num : Int64) : CJsonMem → Option Addr × CJsonMem :=
  createItem malloc fun _ c => { c with type := .number, valuefloat := num.toFloat, valueint := num }

/-- `cJSON_CreateFloat`. Where `num` is no `int64_t`, the conversion to one is undefined. -/
def cJSON_CreateFloat (num : Float) : CJsonMem → Option Addr × CJsonMem :=
  createItem malloc fun _ c => { c with type := .number, valuefloat := num, valueint := num.toInt64 }

/-- `cJSON_CreateString` -/
def cJSON_CreateString (string : List Char) : CJsonMem → Option Addr × CJsonMem :=
  createItem malloc fun m c => { c with type := .string, valuestring := cJSON_strdup malloc string m }

/-- `cJSON_CreateObject` -/
def cJSON_CreateObject : CJsonMem → Option Addr × CJsonMem :=
  createItem malloc fun _ c => { c with type := .object }

/-- `suffix_object` -/
def suffixObject (prev item : Addr) (m : CJsonMem) : Option CJsonMem := do
  let m ← m.store prev (Node.withNext (some item))
  m.store item (Node.withPrev (some prev))

/-- `cJSON_AddItemToArray`. A walk over more items than there can be does not end. -/
def cJSON_AddItemToArray (array : Addr) (item : Option Addr) (m : CJsonMem) : Option CJsonMem := do
  let c ← m.items array
  match item, c.val.child with
  | none, _ => some m
  | some item, none => m.store array (Node.mapVal fun c => { c with child := some item })
  | some item, some child => do
    let last ← m.items.walkLast m.top child
    suffixObject last item m

/-- `cJSON_AddItemToObject`. The name that the item had is set free. -/
def cJSON_AddItemToObject (object : Addr) (string : List Char) (item : Option Addr) (m : CJsonMem) :
    Option CJsonMem :=
  match item with
  | none => some m
  | some item => do
    let m ← m.store item (Node.mapVal fun c => { c with string := cJSON_strdup malloc string m })
    cJSON_AddItemToArray object (some item) m

/-! ## `iperf_json_printf` -/

/-- An argument behind the format. -/
inductive VaArg where
  | int (b : Int32)
  | int64 (i : Int64)
  | double (f : Float)
  | charp (s : List Char)

/-- `char name[100]`. Before the first write it holds anything. -/
structure NameBuffer where
  chars : List Char
  length_eq : chars.length = 100

/-- `name[i] = c` -/
def NameBuffer.set (i : Nat) (c : Char) (name : NameBuffer) : Option NameBuffer :=
  if i < 100 then some ⟨name.chars.set i c, by rw [List.length_set, name.length_eq]⟩ else none

/-- The string in the buffer. Without a NUL a reader runs past its end. -/
def NameBuffer.string (name : NameBuffer) : Option (List Char) :=
  if '\x00' ∈ name.chars then some (cString name.chars) else none

/-- The local variables in the loop, and the memory. -/
structure PrintfState where
  name : NameBuffer
  np : Nat
  argp : List VaArg
  mem : CJsonMem

/-- The item for a conversion, and the arguments behind its own. There is none for a letter that is no
conversion. -/
def convertArg (type : Char) (argp : List VaArg) (m : CJsonMem) : Option (Option Addr × List VaArg × CJsonMem) :=
  if type = 'b' then
    match argp with
    | .int b :: argp => some ((cJSON_CreateBool malloc b m).1, argp, (cJSON_CreateBool malloc b m).2)
    | _ => none
  else if type = 'd' then
    match argp with
    | .int64 i :: argp => some ((cJSON_CreateInt malloc i m).1, argp, (cJSON_CreateInt malloc i m).2)
    | _ => none
  else if type = 'f' then
    match argp with
    | .double f :: argp => some ((cJSON_CreateFloat malloc f m).1, argp, (cJSON_CreateFloat malloc f m).2)
    | _ => none
  else if type = 's' then
    match argp with
    | .charp s :: argp => some ((cJSON_CreateString malloc s m).1, argp, (cJSON_CreateString malloc s m).2)
    | _ => none
  else
    some (none, argp, m)

/-- The loop of `iperf_json_printf` over the rest of the format, whose end is its NUL; `o` is the object. -/
def jsonPrintfLoop (o : Addr) : List Char → PrintfState → Option (Option Addr × CJsonMem)
  | [], s => some (some o, s.mem)
  | c :: cs, s =>
    if c = ' ' then
      jsonPrintfLoop o cs s
    else if c = ':' then do
      let name ← s.name.set s.np '\x00'
      jsonPrintfLoop o cs { s with name := name }
    else if c = '%' then
      match cs with
      | [] => some (none, s.mem)
      | type :: cs => do
        let (j, argp, m) ← convertArg malloc type s.argp s.mem
        match j with
        | none => some (none, m)
        | some j => do
          let string ← s.name.string
          let m ← cJSON_AddItemToObject malloc o string (some j) m
          jsonPrintfLoop o cs { s with np := 0, argp := argp, mem := m }
    else do
      let name ← s.name.set s.np c
      jsonPrintfLoop o cs { s with name := name, np := s.np + 1 }

/-- `iperf_json_printf`: the result is the object or `NULL`. `name` is what the buffer holds at first. -/
def iperfJsonPrintf (name : NameBuffer) (format : List Char) (args : List VaArg) (m : CJsonMem) :
    Option (Option Addr × CJsonMem) :=
  match cJSON_CreateObject malloc m with
  | (none, m) => some (none, m)
  | (some o, m) => jsonPrintfLoop malloc o (cString format) ⟨name, 0, args, m⟩

end Malloc

end Iperf
