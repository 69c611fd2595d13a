import WifiTestTool.Iperf.Cookie
import WifiTestTool.Iperf.Sys

/-!
# Documents as texts (`cjson.c`)

The printer and the parser of cJSON, byte by byte. A text is the list of its bytes without the NUL behind it, so that
a pointer into it is a tail of the list, and the empty list is a pointer to the NUL. Behind the NUL nothing is known:
a read there stops the parser (`Stop.overread`), and so does a string that is longer than the buffer that was
allocated for it (`Stop.overflow`).
-/

namespace Iperf

/-- A cJSON item with its children; the names and the strings are bytes. -/
inductive CJsonItem where
  | null
  | bool (b : Bool)
  | number (valueint : Int) (valuefloat : ℚ)
  | string (valuestring : List UInt8)
  | array (child : List CJsonItem)
  | object (child : List (List UInt8 × CJsonItem))

/-- What the language and its library leave to the platform. -/
structure Platform where
  /-- A `double` that becomes an `int64_t`; only a value in the range of the type is truncated. -/
  toInt64 : ℚ → Int
  /-- `sscanf` with `%4x`; `none` if nothing is assigned -/
  scan4x : List UInt8 → Option UInt32
  /-- `uc` and `uc2` before anything is assigned to them -/
  stack : List UInt8 → UInt32 × UInt32

/-- Why a text is not parsed -/
inductive Stop where
  /-- The parser returns 0. -/
  | fail
  /-- It has read behind the NUL. -/
  | overread
  /-- It has written behind a buffer. -/
  | overflow
  /-- It needs more passes or more nested calls than it was given. -/
  | unfinished
deriving DecidableEq, Repr

/-- A value, and the pointer to what follows it in the text -/
abbrev Parser (α : Type) : Type := List UInt8 → Except Stop (α × List UInt8)

abbrev quote : UInt8 := 34
abbrev backslash : UInt8 := 92

/-- `*num >= '0' && *num <= '9'` -/
def isDigit (c : UInt8) : Bool := decide (48 ≤ c ∧ c ≤ 57)

/-- `*num - '0'` -/
def digitValue (c : UInt8) : Nat := c.toNat - 48

/-! ## Numbers -/

/-- An `int64_t` -/
def int64 (n : Int) : Int := n.bmod (2 ^ 64)

/-- The loop of `ipow` -/
def ipowLoop (r n : ℚ) (exp : Nat) : ℚ :=
  if exp = 0 then
    r
  else
    ipowLoop (if exp % 2 = 1 then double (r * n) else r) (double (n * n)) (exp / 2)

/-- `ipow` -/
def ipow (n : ℚ) (exp : Int) : ℚ :=
  if exp < 0 then double (1 / ipowLoop 1 n exp.natAbs) else ipowLoop 1 n exp.natAbs

/-- A digit more of a `double` -/
def addDigit (f : ℚ) (c : UInt8) : ℚ := double (double (f * 10) + digitValue c)

/-- The digits in front of the point -/
def readDigits (i : Int) (f : ℚ) : List UInt8 → Int × ℚ × List UInt8
  | [] => (i, f, [])
  | c :: num =>
    if isDigit c then readDigits (int64 (i * 10 + digitValue c)) (addDigit f c) num
    else (i, f, c :: num)

/-- The digits behind the point; `scale` counts them. -/
def readFraction (f : ℚ) (scale : Int) : List UInt8 → ℚ × Int × List UInt8
  | [] => (f, scale, [])
  | c :: num => if isDigit c then readFraction (addDigit f c) (scale - 1) num else (f, scale, c :: num)

/-- The digits of the exponent -/
def readExponent (subscale : Int) : List UInt8 → Int × List UInt8
  | [] => (subscale, [])
  | c :: num => if isDigit c then readExponent (subscale * 10 + digitValue c) num else (subscale, c :: num)

/-- A sign in front of a number -/
def readSign (num : List UInt8) : Int × List UInt8 :=
  match num with
  | [] => (1, [])
  | c :: rest => if c = '-'.toUInt8 then (-1, rest) else (1, num)

/-- A zero that a number may begin with -/
def skipZero (num : List UInt8) : List UInt8 :=
  match num with
  | [] => []
  | c :: rest => if c = '0'.toUInt8 then rest else num

/-- The integer part of a number -/
def readInteger (num : List UInt8) : Int × ℚ × List UInt8 :=
  match num with
  | [] => (0, 0, [])
  | c :: _ => if '1'.toUInt8 ≤ c ∧ c ≤ '9'.toUInt8 then readDigits 0 0 num else (0, 0, num)

/-- The fractional part of a number, if there is one: is the number still an integer? -/
def readPoint (f : ℚ) (num : List UInt8) : Bool × ℚ × Int × List UInt8 :=
  match num with
  | c :: d :: rest =>
    if c = '.'.toUInt8 ∧ isDigit d = true then (false, readFraction f 0 (d :: rest)) else (true, f, 0, num)
  | _ => (true, f, 0, num)

/-- The exponent of a number, if there is one -/
def readScale (num : List UInt8) : Bool × Int × List UInt8 :=
  match num with
  | [] => (true, 0, [])
  | c :: rest =>
    if c = 'e'.toUInt8 ∨ c = 'E'.toUInt8 then
      match rest with
      | [] => (false, 0, [])
      | s :: rest' =>
        if s = '+'.toUInt8 then (false, readExponent 0 rest')
        else if s = '-'.toUInt8 then
          let (subscale, num) := readExponent 0 rest'
          (false, -subscale, num)
        else (false, readExponent 0 rest)
    else (true, 0, num)

/-- `parse_number` -/
def parseNumber (P : Platform) (num : List UInt8) : CJsonItem × List UInt8 :=
  let (sign, num) := readSign num
  let (i, f, num) := readInteger (skipZero num)
  let (whole, f, scale, num) := readPoint f num
  let (plain, subscale, num) := readScale num
  if whole && plain then
    let i := int64 (sign * i)
    (.number i (double i), num)
  else
    let f := double (sign * f * ipow 10 (scale + subscale))
    (.number (P.toInt64 f) f, num)

/-- `%lld` -/
def printInt (n : Int) : List UInt8 := ascii (decimal n)

/-- `print_number` -/
def printNumber (P : Platform) (valueint : Int) (valuefloat : ℚ) : List UInt8 :=
  if double (P.toInt64 valuefloat) = valuefloat ∧ -2 ^ 63 ≤ valueint ∧ valueint < 2 ^ 63 then printInt valueint
  else ascii (general 6 valuefloat)

/-! ## Strings -/

/-- The loop of `parse_string` that skips escaped quotes: the value of `len` behind it -/
def stringLength : List UInt8 → Option Nat
  | [] => some 0
  | c :: ptr =>
    if c = quote then
      some 0
    else if c = backslash then
      match ptr with
      | [] => none
      | _ :: ptr => (stringLength ptr).map (· + 1)
    else
      (stringLength ptr).map (· + 1)

/-- The bytes of a character in UTF-8 -/
def utf8Length (uc : UInt32) : Nat :=
  if uc < 0x80 then 1 else if uc < 0x800 then 2 else if uc < 0x10000 then 3 else 4

/-- `firstByteMark` -/
def firstByteMark : Nat → UInt32
  | 2 => 0xC0
  | 3 => 0xE0
  | 4 => 0xF0
  | _ => 0

/-- The `switch` that transcodes a character, from its last byte on -/
def utf8Bytes (len : Nat) : Nat → UInt32 → List UInt8
  | 0, _ => []
  | 1, uc => [(uc ||| firstByteMark len).toUInt8]
  | n + 2, uc => utf8Bytes len (n + 1) (uc >>> 6) ++ [((uc ||| 0x80) &&& 0xBF).toUInt8]

/-- A character of a surrogate pair -/
def surrogatePair (uc uc2 : UInt32) : UInt32 := (0x10000 : UInt32) ||| ((uc &&& 0x3FF) <<< 10) ||| (uc2 &&& 0x3FF)

/-- A byte behind a backslash, unless it is a `u` -/
def unescaped (c : UInt8) : UInt8 :=
  if c = 'b'.toUInt8 then 8
  else if c = 'f'.toUInt8 then 12
  else if c = 'n'.toUInt8 then 10
  else if c = 'r'.toUInt8 then 13
  else if c = 't'.toUInt8 then 9
  else c

/-- The loop of `parse_string` that fills the buffer: what it writes, and where it ends; `none` if it reads behind
the NUL. -/
def unescape (P : Platform) (uc uc2 : UInt32) : List UInt8 → Option (List UInt8 × List UInt8)
  | [] => some ([], [])
  | c :: ptr =>
    if c = quote then
      some ([], c :: ptr)
    else if c ≠ backslash then
      (unescape P uc uc2 ptr).map (.map (c :: ·) id)
    else
      match ptr with
      | [] => none
      | e :: ptr =>
        if e ≠ 'u'.toUInt8 then
          (unescape P uc uc2 ptr).map (.map (unescaped e :: ·) id)
        else
          -- Transcode utf16 to utf8.
          let uc := (P.scan4x ptr).getD uc
          match ptr with
          | _ :: _ :: _ :: _ :: ptr =>
            if 0xDC00 ≤ uc ∧ uc ≤ 0xDFFF ∨ uc = 0 then
              unescape P uc uc2 ptr
            else if 0xD800 ≤ uc ∧ uc ≤ 0xDBFF then
              match ptr with
              | b :: u :: more =>
                if b = backslash ∧ u = 'u'.toUInt8 then
                  let uc2 := (P.scan4x more).getD uc2
                  match more with
                  | _ :: _ :: _ :: _ :: ptr =>
                    if uc2 < 0xDC00 ∨ 0xDFFF < uc2 then
                      unescape P uc uc2 ptr
                    else
                      let uc := surrogatePair uc uc2
                      let len := utf8Length uc
                      (unescape P (uc >>> UInt32.ofNat (6 * (len - 1))) uc2 ptr).map
                        (.map (utf8Bytes len len uc ++ ·) id)
                  | _ => none
                else
                  -- The second half of the surrogate is missing.
                  unescape P uc uc2 (b :: u :: more)
              | ptr => unescape P uc uc2 ptr
            else
              let len := utf8Length uc
              (unescape P (uc >>> UInt32.ofNat (6 * (len - 1))) uc2 ptr).map (.map (utf8Bytes len len uc ++ ·) id)
          | _ => none

/-- `parse_string` -/
def parseString (P : Platform) : Parser (List UInt8)
  | [] => .error .fail
  | c :: ptr =>
    if c ≠ quote then
      .error .fail
    else
      match stringLength ptr, unescape P (P.stack ptr).1 (P.stack ptr).2 ptr with
      | some len, some (out, ptr) =>
        if len < out.length then .error .overflow
        -- `ptr` is at the quote, or at the NUL.
        else .ok (out, ptr.tail)
      | _, _ => .error .overread

/-- A hexadecimal digit, as `%x` prints it -/
def hexDigit (n : Nat) : UInt8 := (Nat.digitChar n).toUInt8

/-- What `print_string_ptr` writes for a byte -/
def escaped (token : UInt8) : List UInt8 :=
  if token > 31 ∧ token ≠ quote ∧ token ≠ backslash then
    [token]
  else
    backslash ::
      if token = backslash then [backslash]
      else if token = quote then [quote]
      else if token = 8 then ascii ['b']
      else if token = 12 then ascii ['f']
      else if token = 10 then ascii ['n']
      else if token = 13 then ascii ['r']
      else if token = 9 then ascii ['t']
      else ascii ['u', '0', '0'] ++ [hexDigit (token.toNat / 16), hexDigit (token.toNat % 16)]

/-- What `print_string_ptr` reserves for a byte -/
def escapedRoom (token : UInt8) : Nat :=
  if token ∈ [quote, backslash, 8, 12, 10, 13, 9] then 2 else if token < 32 then 6 else 1

/-- `print_string_ptr` -/
def printStringPtr (str : List UInt8) : List UInt8 := quote :: str.flatMap escaped ++ [quote]

/-- The size of the buffer of `print_string_ptr` -/
def stringRoom (str : List UInt8) : Nat := (str.map escapedRoom).sum + 3

/-! ## The parser -/

/-- `skip` -/
def skip : List UInt8 → List UInt8
  | [] => []
  | c :: ptr => if c ≤ 32 then skip ptr else c :: ptr

/-- The loops of `parse_array` and `parse_object`, behind the first child -/
def parseMore {α : Type} (parse : Parser α) : Nat → Parser (List α)
  | 0, _ => .error .unfinished
  | n + 1, value =>
    match value with
    | [] => .ok ([], [])
    | c :: rest =>
      if c = ','.toUInt8 then do
        let (child, value) ← parse (skip rest)
        let (more, value) ← parseMore parse n (skip value)
        .ok (child :: more, value)
      else
        .ok ([], value)

/-- `parse_array` and `parse_object` behind the bracket; `close` is the bracket that ends the list. -/
def parseChildren {α : Type} (parse : Parser α) (close : UInt8) (n : Nat) : Parser (List α) := fun value => do
  let value := skip value
  if value.head? = some close then
    .ok ([], value.tail)
  else do
    let (child, value) ← parse value
    let (more, value) ← parseMore parse n (skip value)
    if value.head? = some close then .ok (child :: more, value.tail) else .error .fail

/-- A member of an object: its name, a colon and its value -/
def parseMember (P : Platform) (parse : Parser CJsonItem) : Parser (List UInt8 × CJsonItem) := fun value => do
  let (string, value) ← parseString P value
  let value := skip value
  if value.head? = some ':'.toUInt8 then do
    let (child, value) ← parse (skip value.tail)
    .ok ((string, child), value)
  else
    .error .fail

/-- `parse_value`, for at most `n` calls of itself inside of each other and at most `n` children of an item -/
def parseValue (P : Platform) : Nat → Parser CJsonItem
  | 0, _ => .error .unfinished
  | n + 1, value =>
    if ascii ['n', 'u', 'l', 'l'] <+: value then
      .ok (.null, value.drop 4)
    else if ascii ['f', 'a', 'l', 's', 'e'] <+: value then
      .ok (.bool false, value.drop 5)
    else if ascii ['t', 'r', 'u', 'e'] <+: value then
      .ok (.bool true, value.drop 4)
    else
      match value with
      | [] => .error .fail
      | c :: rest =>
        if c = quote then
          (parseString P value).map (.map .string id)
        else if c = '-'.toUInt8 ∨ isDigit c then
          .ok (parseNumber P value)
        else if c = '['.toUInt8 then
          (parseChildren (parseValue P n) ']'.toUInt8 n rest).map (.map .array id)
        else if c = '\x7b'.toUInt8 then
          (parseChildren (parseMember P (parseValue P n)) '\x7d'.toUInt8 n rest).map (.map .object id)
        else
          .error .fail

/-- `cJSON_Parse`. What follows the value in the text is not looked at. -/
def cJSON_Parse (P : Platform) (value : List UInt8) : Except Stop CJsonItem :=
  (parseValue P (value.length + 1) (skip value)).map Prod.fst

/-! ## The printer -/

/-- The entries of an array with what stands between them -/
def joinEntries (fmt : Bool) : List (List UInt8) → List UInt8
  | [] => []
  | [e] => e
  | e :: es => e ++ ascii (',' :: if fmt then [' '] else []) ++ joinEntries fmt es

/-- The text of an array -/
def composeArray (fmt : Bool) (entries : List (List UInt8)) : List UInt8 :=
  ascii ['['] ++ joinEntries fmt entries ++ ascii [']']

/-- The members of an object with what stands between them -/
def joinMembers (fmt : Bool) (depth : Nat) : List (List UInt8 × List UInt8) → List UInt8
  | [] => []
  | (name, entry) :: es =>
    ascii (if fmt then List.replicate depth '\t' else []) ++ name ++ ascii (':' :: if fmt then ['\t'] else []) ++
      entry ++ ascii (if es = [] then [] else [',']) ++ ascii (if fmt then ['\n'] else []) ++
      joinMembers fmt depth es

/-- The text of an object -/
def composeObject (fmt : Bool) (depth : Nat) (members : List (List UInt8 × List UInt8)) : List UInt8 :=
  ascii ('\x7b' :: if fmt then ['\n'] else []) ++ joinMembers fmt depth members ++
    ascii (if fmt then List.replicate (depth - 1) '\t' else []) ++ ascii ['\x7d']

/-- The size of the buffer of `print_array` -/
def arrayRoom (fmt : Bool) (entries : List (List UInt8)) : Nat :=
  5 + (entries.map fun e => e.length + 2 + if fmt then 1 else 0).sum

/-- The size of the buffer of `print_object` -/
def objectRoom (fmt : Bool) (depth : Nat) (members : List (List UInt8 × List UInt8)) : Nat :=
  7 + (if fmt then depth else 0) +
    (members.map fun m => m.2.length + m.1.length + 2 + if fmt then 2 + depth else 0).sum

mutual

/-- `print_value`, with `print_array` and `print_object` -/
def printValue (P : Platform) (fmt : Bool) (depth : Nat) : CJsonItem → List UInt8
  | .null => ascii ['n', 'u', 'l', 'l']
  | .bool false => ascii ['f', 'a', 'l', 's', 'e']
  | .bool true => ascii ['t', 'r', 'u', 'e']
  | .number valueint valuefloat => printNumber P valueint valuefloat
  | .string valuestring => printStringPtr valuestring
  | .array child => composeArray fmt (printEntries P fmt (depth + 1) child)
  | .object child => composeObject fmt (depth + 1) (printMembers P fmt (depth + 1) child)

/-- The entries of `print_array` -/
def printEntries (P : Platform) (fmt : Bool) (depth : Nat) : List CJsonItem → List (List UInt8)
  | [] => []
  | child :: more => printValue P fmt depth child :: printEntries P fmt depth more

/-- The names and the entries of `print_object` -/
def printMembers (P : Platform) (fmt : Bool) (depth : Nat) :
    List (List UInt8 × CJsonItem) → List (List UInt8 × List UInt8)
  | [] => []
  | (string, child) :: more =>
    (printStringPtr string, printValue P fmt depth child) :: printMembers P fmt depth more

end

/-- `cJSON_Print` -/
def cJSON_Print (P : Platform) (item : CJsonItem) : List UInt8 := printValue P true 0 item

/-- `cJSON_PrintUnformatted` -/
def cJSON_PrintUnformatted (P : Platform) (item : CJsonItem) : List UInt8 := printValue P false 0 item

/-! ## Documents -/

/-- The bytes of a string -/
def stringBytes (s : String) : List UInt8 := s.toByteArray.data.toList

mutual

/-- A document as the item of the library: its strings are bytes, and a `valuefloat` is a `double`. -/
def Json.item : Json → CJsonItem
  | .null => .null
  | .bool b => .bool b
  | .num valueint valuefloat => .number valueint (double valuefloat)
  | .str valuestring => .string (stringBytes valuestring)
  | .arr items => .array (itemEntries items)
  | .obj items => .object (itemMembers items)

/-- The items of an array -/
def itemEntries : List Json → List CJsonItem
  | [] => []
  | j :: more => j.item :: itemEntries more

/-- The items of an object -/
def itemMembers : List (String × Json) → List (List UInt8 × CJsonItem)
  | [] => []
  | (name, j) :: more => (stringBytes name, j.item) :: itemMembers more

end

end Iperf
