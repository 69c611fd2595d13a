import WifiTestTool.Iperf.Report
import WifiTestTool.Lib.Rounding

/-!
# The texts of the reports (`units.c`, `locale.c`)

`unit_snprintf`, the formats of the interval reports, and `vsprintf` as far as these formats need it. A
`double` is a rational number, and what is computed with `double`s is rounded.
-/

namespace Iperf

/-- A value as a `double`. -/
def double (q : ℚ) : ℚ := Rounding.toFloat 53 (-1022) q

/-! ## `printf` -/

/-- A text that is filled up with blanks to a width, on the left or on the right. -/
def pad (left : Bool) (width : Nat) (s : List Char) : List Char :=
  if left then s ++ List.replicate (width - s.length) ' '
  else List.replicate (width - s.length) ' ' ++ s

/-- A number with at least `width` digits. -/
def digits (width n : Nat) : List Char :=
  List.replicate (width - (Nat.toDigits 10 n).length) '0' ++ Nat.toDigits 10 n

/-- A sign for the negative numbers. -/
def signed (negative : Bool) (s : List Char) : List Char := if negative then '-' :: s else s

/-- The magnitude of a number that is printed in `%f`, in units of the last digit. -/
def fixedUnits (precision : Nat) (q : ℚ) : Nat := (Rounding.nearest (|q| * 10 ^ precision)).toNat

/-- `%f` -/
def fixed (precision : Nat) (q : ℚ) : List Char :=
  let n := fixedUnits precision q
  signed (q < 0) (Nat.toDigits 10 (n / 10 ^ precision) ++
    if precision = 0 then [] else '.' :: digits precision (n % 10 ^ precision))

/-- A fraction without the zeros at its end, and without the point if nothing is left. -/
def trimZeros (s : List Char) : List Char :=
  let s := (s.reverse.dropWhile fun c => c = '0').reverse
  if s.getLast? = some '.' then s.dropLast else s

/-- `%g` -/
def general (precision : Nat) (q : ℚ) : List Char :=
  if q = 0 then
    ['0']
  else
    let p := max precision 1
    let x := Int.log 10 |q|
    let n := (Rounding.nearest (|q| / 10 ^ (x - (p - 1 : Int)))).toNat
    -- Rounding may give one more digit.
    let x := if n = 10 ^ p then x + 1 else x
    let n := if n = 10 ^ p then 10 ^ (p - 1) else n
    if -4 ≤ x ∧ x < p then
      if x < p - 1 then trimZeros (fixed (p - 1 - x).toNat q) else fixed 0 q
    else
      let fraction := if p = 1 then [] else '.' :: digits (p - 1) (n % 10 ^ (p - 1))
      signed (q < 0) (trimZeros (Nat.toDigits 10 (n / 10 ^ (p - 1)) ++ fraction) ++
        'e' :: (if x < 0 then '-' else '+') :: digits 2 x.natAbs)

/-! ## `units.c` -/

def UNIT_LEN : Nat := 32

def KILO_CONV : Nat := 1

def MEGA_CONV : Nat := 2

def GIGA_CONV : Nat := 3

/-- `conversion_bytes` -/
def conversionBytes : List ℚ :=
  [1, double (1 / 1024), double (double (1 / 1024) / 1024),
    double (double (double (1 / 1024) / 1024) / 1024)]

/-- `conversion_bits` -/
def conversionBits : List ℚ :=
  [1, double (1 / 1000), double (double (1 / 1000) / 1000),
    double (double (double (1 / 1000) / 1000) / 1000)]

/-- `label_byte` -/
def labelByte : List String := ["Byte", "KByte", "MByte", "GByte"]

/-- `label_bit` -/
def labelBit : List String := ["bit", "Kbit", "Mbit", "Gbit"]

/-- The loop that finds the unit of a number. It may run past the last unit. -/
def adaptive (base : ℚ) : Nat → ℚ → Nat → Nat
  | 0, _, conv => conv
  | passes + 1, tmpNum, conv =>
    if base ≤ tmpNum ∧ conv ≤ GIGA_CONV then adaptive base passes (double (tmpNum / base)) (conv + 1)
    else conv

/-- The number that `unit_snprintf` prints, with its label; `none` is an access beyond the end of the
tables. -/
def unitScale (inNum : ℚ) (inFormat : Char) : Option (ℚ × String) :=
  let inNum := if !inFormat.isUpper then double (inNum * 8) else inNum
  let conv := match inFormat.toUpper with
    | 'B' => 0
    | 'K' => KILO_CONV
    | 'M' => MEGA_CONV
    | 'G' => GIGA_CONV
    | _ => adaptive (if inFormat.isUpper then 1024 else 1000) (GIGA_CONV + 1) inNum 0
  let conversion := if !inFormat.isUpper then conversionBits else conversionBytes
  let label := if !inFormat.isUpper then labelBit else labelByte
  match conversion[conv]?, label[conv]? with
  | some factor, some suffix => some (double (inNum * factor), suffix)
  | _, _ => none

/-- The number of decimals with which `unit_snprintf` prints a number. -/
def unitPrecision (inNum : ℚ) : Nat :=
  if inNum < double (9995 / 1000) then 2       -- 9.995 would be rounded to 10.0
  else if inNum < double (9995 / 100) then 1   -- 99.95 would be rounded to 100
  else if inNum < double (9995 / 10) then 0    -- 999.5 would be rounded to 1000
  else 0                                       -- 1000-1024 fits in 4 places

/-- `unit_snprintf` -/
def unitSnprintf (inLen : Nat) (inNum : ℚ) (inFormat : Char) : Option (List Char) :=
  (unitScale inNum inFormat).map fun (inNum, suffix) =>
    (pad false 4 (fixed (unitPrecision inNum) inNum) ++ ' ' :: suffix.toList).take (inLen - 1)

/-! ## The formats of `locale.c` -/

def reportBwFormat : String := "[%3d] %6.2f-%-6.2f sec  %ss  %ss/sec                  %s\n"

def reportBwRetransCwndFormat : String :=
  "[%3d] %6.2f-%-6.2f sec  %ss  %ss/sec  %3u   %ss       %s\n"

def reportBwUdpFormat : String :=
  "[%3d] %6.2f-%-6.2f sec  %ss  %ss/sec  %5.3f ms  %d/%d (%.2g%%)  %s\n"

def reportBwUdpSenderFormat : String := "[%3d] %6.2f-%-6.2f sec  %ss  %ss/sec  %d  %s\n"

def reportOmitted : String := "(omitted)"

/-- The formats of the lines of an interval report. -/
def intervalFormat : Format → Option String
  | .reportBwFormat => some reportBwFormat
  | .reportBwRetransCwndFormat => some reportBwRetransCwndFormat
  | .reportBwUdpFormat => some reportBwUdpFormat
  | .reportBwUdpSenderFormat => some reportBwUdpSenderFormat
  | _ => none

/-! ## `vsprintf` -/

/-- A part of a format. -/
inductive Directive where
  | char (c : Char)
  | conversion (left : Bool) (width : Nat) (precision : Option Nat) (type : Char)
deriving DecidableEq, Repr

/-- Where in a format we are: in the text, or in a conversion with its flag, width and precision. -/
inductive Scan where
  | text
  | conversion (left : Bool) (width : Nat) (precision : Option Nat)

/-- The parts of a format. -/
def scanFormat : Scan → List Char → Option (List Directive)
  | .text, [] => some []
  | .conversion _ _ _, [] => none
  | .text, c :: cs =>
    if c = '%' then scanFormat (.conversion false 0 none) cs
    else (scanFormat .text cs).map (.char c :: ·)
  | .conversion left width precision, c :: cs =>
    if c = '%' then
      (scanFormat .text cs).map (.char c :: ·)
    else if c = '-' then
      scanFormat (.conversion true width precision) cs
    else if c = '.' then
      scanFormat (.conversion left width (some 0)) cs
    else if c.isDigit then
      match precision with
      | none => scanFormat (.conversion left (10 * width + (c.toNat - 48)) none) cs
      | some p => scanFormat (.conversion left width (some (10 * p + (c.toNat - 48)))) cs
    else
      (scanFormat .text cs).map (.conversion left width precision c :: ·)

/-- A conversion without its padding. A quantity comes as what `unit_snprintf` has made of it, and the
flag `omitted` as its text. -/
def convert (precision : Option Nat) : Char → Arg → Option (List Char)
  | 'd', .int n => some (signed (n < 0) (Nat.toDigits 10 n.natAbs))
  | 'u', .int n => some (Nat.toDigits 10 (n % 0x100000000).toNat)
  | 'f', .float q => some (fixed (precision.getD 6) q)
  | 'g', .float q => some (general (precision.getD 6) q)
  | 's', .text s => some s.toList
  | 's', .unit q format => unitSnprintf UNIT_LEN q format
  | 's', .bool omitted => some (if omitted then reportOmitted.toList else [])
  | _, _ => none

/-- The text of a format with the given arguments. -/
def render : List Directive → List Arg → Option (List Char)
  | [], _ => some []
  | .char c :: ds, args => (render ds args).map (c :: ·)
  | .conversion left width precision type :: ds, arg :: args => do
    let s ← convert precision type arg
    let rest ← render ds args
    pure (pad left width s ++ rest)
  | .conversion _ _ _ _ :: _, [] => none

/-- `vsprintf` with a format of an interval report -/
def vsprintf (fmt : Format) (args : List Arg) : Option (List Char) := do
  let string ← intervalFormat fmt
  let ds ← scanFormat .text string.toList
  render ds args

end Iperf
