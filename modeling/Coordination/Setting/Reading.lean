import Coordination.Setting
import Coordination.Text.Lower

namespace Coordination

-- A number without a sign, in decimal digits.
def digits? (cs : List Char) : Option Nat :=
  if cs.isEmpty || !cs.all Char.isDigit then none
  else some (cs.foldl (fun n c => 10 * n + (c.toNat - '0'.toNat)) 0)

-- A number in decimal digits, after a plus perhaps.
def unsigned? : List Char → Option Nat
  | '+' :: cs => digits? cs
  | cs => digits? cs

-- A number in decimal digits, after a sign perhaps.
def signed? : List Char → Option Int
  | '-' :: cs => (digits? cs).map fun n => -(n : Int)
  | cs => (unsigned? cs).map fun n => (n : Int)

namespace Setting

-- A whole number, if it is one of those that settings can hold.
def ofInt? (n : Int) : Option Setting :=
  if smallestInteger ≤ n && n ≤ largestInteger then some (integer n) else none

def isYes (s : String) : Bool :=
  ["true", "on", "yes"].contains (Text.lower s)

def isNo (s : String) : Bool :=
  ["false", "off", "no"].contains (Text.lower s)

def count? : Setting → Option UInt64
  | bool b => some (if b then 1 else 0)
  | integer n => if 0 ≤ n then some (.ofNat n.toNat) else none
  | float x => some x.clamp
  | text s =>
    if isYes s then some 1
    else if isNo s then some 0
    else (unsigned? s.toList).bind fun n => if n < UInt64.size then some (.ofNat n) else none
  | list _ | table _ | absent => none

def switch? : Setting → Option Bool
  | bool b => some b
  | integer n => some (n ≠ 0)
  | float x => some !x.isZero
  | text s =>
    if isYes s || s = "1" then some true
    else if isNo s || s = "0" then some false
    else none
  | list _ | table _ | absent => none

-- The one of several words that a text is, whatever the case of its letters.
def wordOf? (words : List String) (s : String) : Option String :=
  words.find? fun word => Text.lower word = Text.lower s

-- The setting as one of several words: a text, or a table whose only key is the word.
def variant? (words : List String) : Setting → Option String
  | text s => wordOf? words s
  | table [(key, _)] => wordOf? words key
  | _ => none

end Setting
end Coordination
