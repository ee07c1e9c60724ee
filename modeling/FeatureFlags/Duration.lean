import FeatureFlags.Binary64.Basic

/-!
# Lengths of time

A `Duration` is a whole number of nanoseconds. `text` shows it in the largest unit that it reaches,
without zeros at the end. `ofSeconds` rounds a number of seconds to the nearest nanosecond.
-/

namespace FeatureFlags

/-- A length of time. -/
structure Duration where
  nanoseconds : Nat
  deriving DecidableEq

namespace Duration

def zero : Duration := ⟨0⟩

instance : Inhabited Duration := ⟨zero⟩

def ofMilliseconds (n : Nat) : Duration := ⟨n * 1000000⟩

def isZero (d : Duration) : Bool := d.nanoseconds == 0

/-- The whole milliseconds of a duration. -/
def milliseconds (d : Duration) : Nat := d.nanoseconds / 1000000

/-- The milliseconds until a timer with this duration rings, which counts in whole milliseconds. -/
def timerMilliseconds (d : Duration) : Nat := (d.nanoseconds + 999999) / 1000000

def min (d e : Duration) : Duration := ⟨Nat.min d.nanoseconds e.nanoseconds⟩

def max (d e : Duration) : Duration := ⟨Nat.max d.nanoseconds e.nanoseconds⟩

/-- The seconds of a duration: the whole seconds and the fraction, each rounded, and their rounded
sum. -/
def toSeconds (d : Duration) : Binary64 :=
  (Binary64.ofNat (d.nanoseconds / 1000000000)).add
    ((Binary64.ofNat (d.nanoseconds % 1000000000)).div (Binary64.ofNat 1000000000))

/-- The duration nearest to a number of seconds, ties to the even nanosecond. -/
def ofSeconds (seconds : Binary64) : Duration :=
  ⟨Binary64.roundDiv (seconds.units * 1000000000) Binary64.oneUnits⟩

/-- The digits of a fraction in the given number of places, without zeros at the end. -/
def fraction (places n : Nat) : List Char :=
  let digits := Nat.toDigits 10 n
  let padded := List.replicate (places - digits.length) '0' ++ digits
  (padded.reverse.dropWhile (· == '0')).reverse

/-- A number of nanoseconds in a unit of `10 ^ places` of them. -/
def inUnit (places n : Nat) (unit : String) : String :=
  let whole := toString (n / Nat.pow 10 places)
  let rest := n % Nat.pow 10 places
  if rest = 0 then whole ++ unit
  else whole ++ "." ++ String.ofList (fraction places rest) ++ unit

/-- The text of a duration. -/
def text (d : Duration) : String :=
  let n := d.nanoseconds
  if 1000000000 ≤ n then inUnit 9 n "s"
  else if 1000000 ≤ n then inUnit 6 n "ms"
  else if 1000 ≤ n then inUnit 3 n "µs"
  else inUnit 0 n "ns"

end Duration

end FeatureFlags
