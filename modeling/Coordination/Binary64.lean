namespace Coordination

-- Numbers of the binary format with 53 bits of mantissa, by their values.
inductive Binary64 where
  | nan
  | infinite (negative : Bool)
  -- The value is `mantissa * 2 ^ exponent`, below zero if `negative`.
  | finite (negative : Bool) (mantissa : Nat) (exponent : Int)
  deriving DecidableEq, Repr, Inhabited

namespace Binary64

-- The whole number nearest to a quotient; of two equally near ones the even one.
def divNearest (numerator denominator : Nat) : Nat :=
  let quotient := numerator / denominator
  let twice := 2 * (numerator % denominator)
  if twice < denominator || (twice == denominator && quotient % 2 == 0) then quotient
  else quotient + 1

-- The quotient of two numbers times a power of two, as a quotient of two numbers.
def scale (numerator denominator : Nat) (power : Int) : Nat × Nat :=
  if 0 ≤ power then (numerator * Nat.pow 2 power.toNat, denominator)
  else (numerator, denominator * Nat.pow 2 (-power).toNat)

-- The number nearest to a positive quotient; a tie goes to the even mantissa. Below the smallest
-- exponent the mantissa loses bits, above the largest one there is only infinity.
def ofRatio (negative : Bool) (numerator denominator : Nat) : Binary64 :=
  -- With this exponent the mantissa has 53 or 54 bits.
  let estimate : Int := (numerator.log2 : Int) - denominator.log2 - 53
  let (n, d) := scale numerator denominator (-estimate)
  let fitting := if Nat.pow 2 53 * d ≤ n then estimate + 1 else estimate
  let exponent := max fitting (-1074)
  let (n, d) := scale numerator denominator (-exponent)
  let mantissa := divNearest n d
  if 0 ≤ exponent && Nat.pow 2 1024 ≤ mantissa * Nat.pow 2 exponent.toNat then infinite negative
  else finite negative mantissa exponent

-- The number nearest to `digits * 10 ^ power`. Decimal numbers far outside the range are told by
-- their length alone.
def ofDecimal (negative : Bool) (digits : Nat) (power : Int) : Binary64 :=
  let places : Int := (Nat.toDigits 10 digits).length + power
  if digits = 0 || places < -330 then finite negative 0 0
  else if 310 < places then infinite negative
  else if 0 ≤ power then ofRatio negative (digits * Nat.pow 10 power.toNat) 1
  else ofRatio negative digits (Nat.pow 10 (-power).toNat)

def isZero : Binary64 → Bool
  | finite _ mantissa _ => mantissa = 0
  | _ => false

-- The nearest whole number, a half away from zero, held to the range of 64 bits.
def clamp : Binary64 → UInt64
  | nan | infinite true | finite true _ _ => 0
  | infinite false => .ofNat (UInt64.size - 1)
  | finite false mantissa exponent =>
    let whole :=
      if 0 ≤ exponent then mantissa * Nat.pow 2 exponent.toNat
      else (2 * mantissa + Nat.pow 2 (-exponent).toNat) / Nat.pow 2 (1 - exponent).toNat
    .ofNat (min whole (UInt64.size - 1))

end Binary64
end Coordination
