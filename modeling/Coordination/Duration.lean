namespace Coordination

structure Duration where
  nanos : Nat
  deriving DecidableEq, Repr, Inhabited

namespace Duration

def ofMillis (ms : Nat) : Duration :=
  ⟨ms * 1000000⟩

def ofSeconds (seconds nanos : Nat) : Duration :=
  ⟨seconds * 1000000000 + nanos⟩

-- The longest length of time: a full 64 bit count of seconds and the last nanosecond.
def max : Duration :=
  ofSeconds (UInt64.size - 1) 999999999

def millis (d : Duration) : Nat :=
  d.nanos / 1000000

instance : LE Duration := ⟨fun d e => d.nanos ≤ e.nanos⟩

instance (d e : Duration) : Decidable (d ≤ e) := Nat.decLe d.nanos e.nanos

-- The decimals of `part / 10 ^ places`, without trailing zeros.
def decimals (part places : Nat) : List Char :=
  let digits := Nat.toDigits 10 part
  let padded := List.replicate (places - digits.length) '0' ++ digits
  (padded.reverse.dropWhile (· == '0')).reverse

-- `n` units of which `10 ^ places` make one of the unit named.
def inUnit (n places : Nat) (unit : String) : String :=
  let fraction := decimals (n % Nat.pow 10 places) places
  let whole := toString (n / Nat.pow 10 places)
  if fraction.isEmpty then whole ++ unit else whole ++ "." ++ String.ofList fraction ++ unit

def text (d : Duration) : String :=
  if 1000000000 ≤ d.nanos then inUnit d.nanos 9 "s"
  else if 1000000 ≤ d.nanos then inUnit d.nanos 6 "ms"
  else if 1000 ≤ d.nanos then inUnit d.nanos 3 "µs"
  else inUnit d.nanos 0 "ns"

end Duration
end Coordination
