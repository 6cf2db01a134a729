import Coordination.Setting.Reading
import Coordination.Toml.Scan

namespace Coordination.Toml

-- Digits of a kind, with single underscores between them that are left out.
def digits (ok : Char → Bool) : Scan (List Char) := do
  let first ← Scan.char ok
  let others ← Scan.many <| Scan.char ok <|> (do Scan.word ['_']; Scan.char ok)
  return first :: others

def sign : Scan Bool := do
  return (← Scan.optional? (Scan.char fun c => c = '+' || c = '-')) = some '-'

-- The number that digits of a base stand for.
def ofDigits (base : Nat) (cs : List Char) : Nat :=
  let value (c : Char) : Nat := if c.isDigit then c.toNat - 48 else c.toLower.toNat - 87
  cs.foldl (fun n c => base * n + value c) 0

-- Whether a character is a digit of a base up to sixteen.
def isDigitOf (base : Nat) (c : Char) : Bool :=
  (c.isDigit || ('a' ≤ c.toLower && c.toLower ≤ 'f')) && ofDigits 16 [c] < base

-- Decimal digits that do not start with a zero, or the zero.
def wholePart : Scan (List Char) := do
  match ← Scan.ahead with
  | '0' :: _ => return [← Scan.char Char.isDigit]
  | _ => digits Char.isDigit

def basedInteger : Scan Int := do
  let base ← Scan.word' "0x" 16 <|> Scan.word' "0o" 8 <|> Scan.word' "0b" 2
  return ofDigits base (← digits (isDigitOf base))

def decimalInteger : Scan Int := do
  let negative ← sign
  let n : Int := ofDigits 10 (← wholePart)
  return if negative then -n else n

-- A whole number, refused if it is too large for a setting.
def integer : Scan Setting := do
  match Setting.ofInt? (← basedInteger <|> decimalInteger) with
  | some v => return v
  | none => failure

def fraction : Scan (List Char) := do
  Scan.word ['.']
  digits Char.isDigit

def exponent : Scan Int := do
  let _ ← Scan.char fun c => c = 'e' || c = 'E'
  let negative ← sign
  let n : Int := ofDigits 10 (← digits Char.isDigit)
  return if negative then -n else n

-- A decimal number with a fraction, an exponent or both.
def decimalFloat : Scan Binary64 := do
  let negative ← sign
  let whole ← wholePart
  let decimals ← Scan.optional? fraction
  let power ← Scan.optional? exponent
  if decimals.isNone && power.isNone then failure
  let decimals := decimals.getD []
  let x : Binary64 :=
    .ofDecimal negative (ofDigits 10 (whole ++ decimals)) (power.getD 0 - decimals.length)
  -- A number too large above zero is refused, one too large below zero is not.
  if x = .infinite false then failure
  return x

-- Infinity or no number, by its word, after a sign perhaps.
def specialFloat : Scan Binary64 := do
  let negative ← sign
  Scan.word' "inf" (.infinite negative) <|> Scan.word' "nan" .nan

def float : Scan Setting := do
  return .float (← decimalFloat <|> specialFloat)

end Coordination.Toml
