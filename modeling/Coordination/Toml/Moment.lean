import Coordination.Setting
import Coordination.Toml.Scan

namespace Coordination.Toml

-- A number of so many digits, in a range.
def fixed (width low high : Nat) : Scan Nat := do
  let cs ← Scan.times width Char.isDigit
  let n := cs.foldl (fun n c => 10 * n + (c.toNat - 48)) 0
  if low ≤ n && n ≤ high then return n else failure

def isLeap (year : Nat) : Bool :=
  year % 4 = 0 && (year % 100 ≠ 0 || year % 400 = 0)

def daysOf (year month : Nat) : Nat :=
  if month = 2 then (if isLeap year then 29 else 28)
  else if [4, 6, 9, 11].contains month then 30
  else 31

def date : Scan Unit := do
  let year ← fixed 4 0 9999
  Scan.word ['-']
  let month ← fixed 2 1 12
  Scan.word ['-']
  let _ ← fixed 2 1 (daysOf year month)

-- A time of day; its last minute may have a leap second.
def timeOfDay : Scan Unit := do
  let _ ← fixed 2 0 23
  Scan.word [':']
  let _ ← fixed 2 0 59
  Scan.word [':']
  let _ ← fixed 2 0 60
  let _ ← Scan.optional? (do Scan.word ['.']; Scan.run1 Char.isDigit)

-- How far the time of day is from the universal one.
def offset : Scan Unit :=
  (do let _ ← Scan.char fun c => c = 'Z' || c = 'z') <|> do
    let _ ← Scan.char fun c => c = '+' || c = '-'
    let _ ← fixed 2 0 23
    Scan.word [':']
    let _ ← fixed 2 0 59

def timeOfDate : Scan Unit := do
  let _ ← Scan.char fun c => c = 'T' || c = 't' || c = ' '
  timeOfDay
  let _ ← Scan.optional? offset

-- A date, a date with a time, or a time.
def moment : Scan Setting := do
  let cs ← Scan.written <| (do date; let _ ← Scan.optional? timeOfDate) <|> timeOfDay
  return .text (String.ofList cs)

end Coordination.Toml
