import WifiTestTool.Lib.Rounding

/-!
# The library of the app

The parts of the Java library that the app uses on texts: `String.split` with a text that has no special
characters as its pattern, `String.indexOf`, `String.contains`, `String.substring`, `Integer.valueOf` and
`Float.valueOf`.
-/

namespace WifiTest

/-- A `String` -/
abbrev Text : Type := List Char

/-- The exceptions that end the app. -/
inductive AppException where
  | nullPointer
  | indexOutOfBounds
  | numberFormat
deriving DecidableEq, Repr

namespace Text

/-- `contains` -/
def contains (s part : Text) : Bool := s.tails.any fun rest => part.isPrefixOf rest

/-- `indexOf` -/
def indexOf (s part : Text) : Int :=
  match s.tails.findIdx? fun rest => part.isPrefixOf rest with
  | none => -1
  | some i => i

/-- `substring` -/
def substring (s : Text) (begin finish : Int) : Except AppException Text :=
  if begin < 0 ∨ finish < begin ∨ s.length < finish then .error .indexOutOfBounds
  else .ok ((s.take finish.toNat).drop begin.toNat)

/-- The pieces between the matches of `sep`, which are looked for from the left. The first `skip` characters
belong to a match; `piece` is what stands since the last match, backwards. -/
def pieces (sep : Text) : Nat → Text → Text → List Text
  | _, piece, [] => [piece.reverse]
  | skip + 1, piece, _ :: s => pieces sep skip piece s
  | 0, piece, c :: s =>
    if sep.isPrefixOf (c :: s) then piece.reverse :: pieces sep (sep.length - 1) [] s
    else pieces sep 0 (c :: piece) s

/-- `split`: without a match the whole text, and otherwise the pieces up to the last one that is not
empty. -/
def split (s sep : Text) : List Text :=
  let ps := pieces sep 0 [] s
  if ps.length = 1 then [s] else (ps.reverse.dropWhile fun p => p = []).reverse

/-- `a[i]` -/
def item (a : List Text) (i : Nat) : Except AppException Text :=
  match a[i]? with
  | none => .error .indexOutOfBounds
  | some s => .ok s

/-- `trim` -/
def trim (s : Text) : Text := ((s.dropWhile fun c => c ≤ ' ').reverse.dropWhile fun c => c ≤ ' ').reverse

end Text

/-- The value of a whole number with the given digits, in the range of an `int`. -/
def intValue (sign : Int) (digits : Text) : Except AppException Int32 :=
  let n := sign * Nat.ofDigitChars 10 digits 0
  if digits ≠ [] ∧ digits.all Char.isDigit ∧ -2 ^ 31 ≤ n ∧ n < 2 ^ 31 then .ok (Int32.ofInt n)
  else .error .numberFormat

/-- `Integer.valueOf` -/
def integerValueOf : Text → Except AppException Int32
  | '-' :: digits => intValue (-1) digits
  | '+' :: digits => intValue 1 digits
  | digits => intValue 1 digits

/-- The value of an unsigned decimal number with the given digits before and after the point. -/
def decimal (whole fraction : Text) : ℚ :=
  Nat.ofDigitChars 10 whole 0 + Nat.ofDigitChars 10 fraction 0 / 10 ^ fraction.length

/-- An unsigned decimal number. -/
def unsignedValue (s : Text) : Except AppException ℚ :=
  let whole := s.takeWhile Char.isDigit
  match s.dropWhile Char.isDigit with
  | [] => if whole = [] then .error .numberFormat else .ok (decimal whole [])
  | '.' :: fraction =>
    if fraction.all Char.isDigit && (whole ≠ [] || fraction ≠ []) then .ok (decimal whole fraction)
    else .error .numberFormat
  | _ => .error .numberFormat

/-- `Float.valueOf`, for numbers in decimal notation without an exponent or a type suffix -/
def floatValueOf (s : Text) : Except AppException ℚ :=
  match s.trim with
  | '-' :: s => (unsignedValue s).map fun q => -Rounding.toFloat 24 (-126) q
  | '+' :: s => (unsignedValue s).map (Rounding.toFloat 24 (-126))
  | s => (unsignedValue s).map (Rounding.toFloat 24 (-126))

end WifiTest
