import WifiTestTool.App.Java
import WifiTestTool.Iperf.Getopt
import WifiTestTool.Lib.Regex

/-!
# The check of a command (`doInBackground` in `IperfTestActivity.java`)

Before the app runs a command it matches it against a regular expression, and then splits it at blanks into
the arguments of iperf.
-/

namespace WifiTest

open Regex

/-! ## The regular expression -/

/-- The characters of a class `[...]`: the ranges `a-b`, and single characters. -/
def characters : Text → Char → Bool
  | a :: '-' :: b :: more, c => (decide (a ≤ c) && decide (c ≤ b)) || characters more c
  | a :: more, c => decide (c = a) || characters more c
  | [], _ => false

/-- `[...]` -/
def bracket (s : String) : Regex Char := cls (characters s.toList)

/-- `\d` -/
def digit : Regex Char := cls Char.isDigit

/-- `\w` -/
def wordCharacter : Regex Char := cls fun c => c.isAlphanum || decide (c = '_')

/-- `\s` is a blank, a tab, or one of the characters that end a line or a page. -/
def isSpace (c : Char) : Bool := c = ' ' || (decide ('\t' ≤ c) && decide (c ≤ '\r'))

/-- `[01]?\d\d?|2[0-4]\d|25[0-5]` -/
def octet : Regex Char :=
  oneOf
    [seq (opt (bracket "01")) (seq digit (opt digit)), seq (lit ['2']) (seq (bracket "0-4") digit),
      seq (lit ['2', '5']) (bracket "0-5")]

/-- Four octets with points between them. -/
def address : Regex Char :=
  seq octet (seq (lit ['.']) (seq octet (seq (lit ['.']) (seq octet (seq (lit ['.']) octet)))))

/-- An alternative of the expression: ` -[...]`, and an argument after a blank if there is one. -/
structure OptionPattern where
  letters : String
  argument : Option (Regex Char)

/-- The part of an alternative after the blank in front of it. -/
def OptionPattern.regex (o : OptionPattern) : Regex Char :=
  match o.argument with
  | none => seq (lit ['-']) (bracket o.letters)
  | some r => seq (lit ['-']) (seq (bracket o.letters) (seq (lit [' ']) r))

/-- What a command has for its first option. -/
def firstOptions : List OptionPattern :=
  [⟨"s,-server", none⟩, ⟨"c,-client", some address⟩, ⟨"c,-client", some (wordCharacter.between 1 63)⟩,
    ⟨"h,-help", none⟩]

/-- `\d{1,n}[KM]` -/
def kiloMega (n : Nat) : Regex Char := seq (digit.between 1 n) (bracket "KM")

/-- What may follow. -/
def moreOptions : List OptionPattern :=
  [⟨"f,-format", some (bracket "bBkKmMgG")⟩, ⟨"l,-len", some (kiloMega 5)⟩,
    ⟨"B,-bind", some (wordCharacter.between 1 63)⟩, ⟨"r,-tradeoff", none⟩, ⟨"v,-version", none⟩,
    ⟨"N,-nodelay", none⟩, ⟨"T,-ttl", some (digit.between 1 8)⟩, ⟨"U,-single_udp", none⟩,
    ⟨"d,-dualtest", none⟩, ⟨"w,-window", some (kiloMega 5)⟩, ⟨"n,-num", some (kiloMega 10)⟩,
    ⟨"p,-port", some (digit.between 1 5)⟩, ⟨"L,-listenport", some (digit.between 1 5)⟩,
    ⟨"t,-time", some (digit.between 1 8)⟩, ⟨"i,-interval", some (digit.between 1 4)⟩, ⟨"u,-udp", none⟩,
    ⟨"b,-bandwidth", some (seq (digit.between 1 20) (bracket "bBkKmMgG"))⟩, ⟨"m,-print_mss", none⟩,
    ⟨"P,-parallel", some ((lit ['d']).between 1 2)⟩, ⟨"M,-mss", some ((lit ['d']).between 1 20)⟩]

/-- One of the options that may follow, with a blank in front, or white space. -/
def morePart : Regex Char :=
  alt (oneOf (moreOptions.map fun o => seq (lit [' ']) o.regex)) (cls isSpace)

/-- A command without a leading `iperf`. -/
def optionsPart : Regex Char := seq (oneOf (firstOptions.map OptionPattern.regex)) (star morePart)

/-- The expression that a command has to match. -/
def commandPattern : Regex Char := seq (opt (lit "iperf ".toList)) optionsPart

/-! ## What is run -/

/-- The arguments: the words of the command, without a leading `iperf` -/
def commandList (command : Text) : Except AppException (List Text) :=
  match command.split [' '] with
  | [] => .error .indexOutOfBounds
  | w :: ws => .ok (if w = "iperf".toList then ws else w :: ws)

/-- `doInBackground`, up to the start of the process: nothing, or the arguments of the process -/
def checkCommand (command : Text) : Except AppException (Option (List Text)) :=
  if command = [] then .ok none
  else if commandPattern.accepts command then (commandList command).map some
  else .ok none

/-! ## The purpose -/

/-- What the check lets through is understood by iperf. -/
def CheckAgrees (command : Text) : Prop :=
  checkCommand command = .ok none ∨
    ∃ args, checkCommand command = .ok (some args) ∧ Iperf.understands args = true

/-- The letters of the options of iperf that have no argument -/
def flagLetters : Text := "DVJvsuRN46Zdh".toList

/-- The letters of the options of iperf that have an argument -/
def argumentLetters : Text := "pficbtnklPwBMSLOFATCI".toList

/-- `[^ ]` -/
def notBlank : Regex Char := cls fun c => decide (c ≠ ' ')

/-- `-[DVJvsuRN46Zdh]` -/
def flag : Regex Char := seq (lit ['-']) (cls fun c => decide (c ∈ flagLetters))

/-- `-[pficbtnklPwBMSLOFATCI]`, followed by `r` -/
def withArgument (r : Regex Char) : Regex Char :=
  seq (lit ['-']) (seq (cls fun c => decide (c ∈ argumentLetters)) r)

/-- An option that is followed by another one. Its argument may be empty. -/
def innerOption : Regex Char :=
  oneOf [flag, withArgument (plus notBlank), withArgument (seq (lit [' ']) (star notBlank))]

/-- The last option. -/
def lastOption : Regex Char :=
  oneOf [flag, withArgument (plus notBlank), withArgument (seq (lit [' ']) (plus notBlank))]

/-- Options of iperf with blanks between them, and at the end. -/
def optionsPattern : Regex Char :=
  seq (star (seq innerOption (lit [' ']))) (seq lastOption (star (cls fun c => decide (c = ' '))))

/-- The options of iperf, in the place of those that `commandPattern` lets through. -/
def understoodPattern : Regex Char := seq (opt (lit "iperf ".toList)) optionsPattern

end WifiTest
