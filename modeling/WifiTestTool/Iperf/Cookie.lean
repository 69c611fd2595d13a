import WifiTestTool.Iperf.Units

/-!
# The cookie of a test (`iperf_util.c`)

`make_cookie` as a function of what the system gives it. A C string is the list of its bytes.
-/

namespace Iperf

/-- The bytes of a text of ASCII characters. -/
def ascii (s : List Char) : List UInt8 := s.map fun c => UInt8.ofNat c.toNat

/-- `%08lx` -/
def hex08 (n : Nat) : List Char :=
  List.replicate (8 - (Nat.toDigits 16 n).length) '0' ++ Nat.toDigits 16 n

/-- `%ld` -/
def decimal (n : Int) : List Char := signed (n < 0) (Nat.toDigits 10 n.natAbs)

/-- `%06ld` -/
def decimal06 (n : Int) : List Char := signed (n < 0) (digits (if n < 0 then 5 else 6) n.natAbs)

/-- The filler at the end of the string in `make_cookie`. -/
def filler : String := "1234567890123456789012345678901234567890"

/-- What `make_cookie` prints behind the host name: the time, two random numbers and the filler. -/
def cookieTail (tv : Timeval) (random₁ random₂ : Nat) : List Char :=
  decimal tv.tvSec ++ '.' :: (decimal06 tv.tvUsec ++ '.' :: (hex08 random₁ ++ (hex08 random₂ ++
    '.' :: filler.toList)))

/-- `make_cookie`, where the host name is `hostname`, the time is `tv` and `random` gives the two numbers.
(The generator gets a new seed on every call, because `randomized` stays 0.) -/
def makeCookie (hostname : List UInt8) (tv : Timeval) (random₁ random₂ : Nat) : List UInt8 :=
  -- Generate a string based on hostname, time, randomness, and filler. It has room for 999 characters.
  let temp := (hostname ++ ascii ('.' :: cookieTail tv random₁ random₂)).take 999
  -- Now truncate it to 36 bytes and terminate.
  temp.take 36 ++ [0]

end Iperf
