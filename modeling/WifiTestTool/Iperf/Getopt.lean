import Mathlib.Data.List.Basic

/-!
# The options of iperf (`iperf_parse_arguments` in `iperf_api.c`)

The table of options that `iperf_parse_arguments` gives to `getopt_long`, and what `getopt_long` makes of the
words of a command line with it: which words are options it knows, and which of them take the next word for
their argument.
-/

namespace Iperf

/-- The short options; a colon says that the option in front of it has an argument. -/
def optstring : List Char := "p:f:i:DVJvsc:ub:t:n:k:l:P:Rw:B:M:N46S:L:ZO:F:A:T:C:dI:h".toList

/-- The long options, with `true` for `required_argument`. -/
def longopts : List (List Char × Bool) :=
  [("port".toList, true), ("format".toList, true), ("interval".toList, true), ("daemon".toList, false),
    ("verbose".toList, false), ("json".toList, false), ("version".toList, false), ("server".toList, false),
    ("client".toList, true), ("udp".toList, false), ("bandwidth".toList, true), ("time".toList, true),
    ("bytes".toList, true), ("blockcount".toList, true), ("length".toList, true), ("parallel".toList, true),
    ("reverse".toList, false), ("window".toList, true), ("bind".toList, true), ("set-mss".toList, true),
    ("no-delay".toList, false), ("version4".toList, false), ("version6".toList, false), ("tos".toList, true),
    ("flowlabel".toList, true), ("zerocopy".toList, false), ("omit".toList, true), ("file".toList, true),
    ("affinity".toList, true), ("title".toList, true), ("linux-congestion".toList, true),
    ("sctp".toList, false), ("pidfile".toList, true), ("debug".toList, false), ("help".toList, false)]

/-- What a word of the command line is to `getopt_long`, where an option may stand. -/
inductive Word where
  /-- Options of the table, with the argument if there has to be one. -/
  | options
  /-- Options of the table, the last of which takes the next word for its argument. -/
  | wantsArgument
  /-- Anything else: an option that is not in the table, an argument that the option does not take, the end
  of the options, a word that is no option. -/
  | other
deriving DecidableEq, Repr

/-- Is the letter a short option, and does it have an argument? -/
def shortOption (c : Char) : Option Bool :=
  if c = ':' ∨ c = ';' then none
  else
    match optstring.dropWhile fun d => d ≠ c with
    | [] => none
    | _ :: ':' :: _ => some true
    | _ :: _ => some false

/-- A word with the letters of short options. The rest of the word is the argument of the first one that
has an argument. -/
def shortOptions : List Char → Word
  | [] => .options
  | c :: cs =>
    match shortOption c with
    | none => .other
    | some false => shortOptions cs
    | some true => if cs = [] then .wantsArgument else .options

/-- The long option with this name, or with a name that it is the only one to begin. -/
def longOption (name : List Char) : Option Bool :=
  match longopts.find? fun o => o.1 = name with
  | some o => some o.2
  | none =>
    match longopts.filter fun o => name.isPrefixOf o.1 with
    | [o] => some o.2
    | _ => none

/-- A word with a long option, and its argument if there is a `=`. -/
def longWord (s : List Char) : Word :=
  match longOption (s.takeWhile fun c => c ≠ '='), s.dropWhile fun c => c ≠ '=' with
  | none, _ => .other
  | some true, [] => .wantsArgument
  | some true, _ => .options
  | some false, [] => .options
  | some false, _ => .other

/-- A word of the command line -/
def word : List Char → Word
  | ['-'] => .other
  | '-' :: '-' :: [] => .other
  | '-' :: '-' :: s => longWord s
  | '-' :: s => shortOptions s
  | _ => .other

/-- Every word is an option of the table, or the argument of one that has to have one. -/
def understands : List (List Char) → Bool
  | [] => true
  | [w] => decide (word w = .options)
  | w :: arg :: ws =>
    match word w with
    | .options => understands (arg :: ws)
    | .wantsArgument => understands ws
    | .other => false

end Iperf
