namespace Coordination.Toml

abbrev Scan := StateT (List Char) Option

namespace Scan

def char (ok : Char → Bool) : Scan Char
  | c :: rest => if ok c then some (c, rest) else none
  | [] => none

def word : List Char → Scan Unit
  | [], cs => some ((), cs)
  | w :: ws, c :: cs => if w = c then word ws cs else none
  | _ :: _, [] => none

-- The given characters, for a value that they stand for.
def word' (s : String) (a : α) : Scan α := do
  word s.toList
  return a

-- The characters up to the first that is not of a kind.
def run (ok : Char → Bool) : Scan (List Char) :=
  fun cs => some (cs.takeWhile ok, cs.dropWhile ok)

-- As `run`, but at least one.
def run1 (ok : Char → Bool) : Scan (List Char) := do
  let cs ← run ok
  if cs.isEmpty then failure else return cs

-- Exactly so many characters of a kind.
def times (n : Nat) (ok : Char → Bool) : Scan (List Char) :=
  fun cs => if (cs.take n).length = n && (cs.take n).all ok then some (cs.take n, cs.drop n) else none

def optional? (p : Scan α) : Scan (Option α) :=
  (some <$> p) <|> pure none

-- Looks at what is left without reading it.
def ahead : Scan (List Char) := get

-- What `p` reads, as it is written.
def written (p : Scan α) : Scan (List Char) := do
  let before ← ahead
  let _ ← p
  return before.take (before.length - (← ahead).length)

-- At most `fuel` times `p`, up to where it refuses or reads nothing.
def repeated (p : Scan α) : Nat → Scan (List α)
  | 0, cs => some ([], cs)
  | fuel + 1, cs =>
    match p cs with
    | none => some ([], cs)
    | some (a, rest) =>
      if rest.length < cs.length then
        (repeated p fuel rest).map fun (as, rest) => (a :: as, rest)
      else some ([], cs)

def many (p : Scan α) : Scan (List α) :=
  fun cs => repeated p cs.length cs

-- One or more of what `p` reads, with separators between them.
def sepBy1 (p : Scan α) (separator : Scan Unit) : Scan (List α) := do
  let first ← p
  let others ← many (do separator; p)
  return first :: others

-- None or more of what `p` reads, with separators between them.
def sepBy (p : Scan α) (separator : Scan Unit) : Scan (List α) :=
  sepBy1 p separator <|> pure []

end Scan

def isGap (c : Char) : Bool :=
  c = ' ' || c = '\t'

-- Whether a character may stand in a comment or text that ends with its line: no control but the
-- tabulator.
def isVisible (c : Char) : Bool :=
  c = '\t' || (0x20 ≤ c.toNat && c.toNat ≠ 0x7F)

def gap : Scan Unit := do
  let _ ← Scan.run isGap

-- The end of a line: a line feed, after a carriage return perhaps.
def newline : Scan Unit :=
  Scan.word ['\n'] <|> Scan.word ['\r', '\n']

def comment : Scan Unit := do
  Scan.word ['#']
  let _ ← Scan.run isVisible

-- The end of a line or of the text.
def lineEnd : Scan Unit := do
  if (← Scan.ahead).isEmpty then return
  newline

-- Anything that may stand between the items of a list.
def space : Scan Unit := do
  let _ ← Scan.many <|
    (do let _ ← Scan.run1 isGap) <|> newline <|> (do comment; newline)

end Coordination.Toml
