import Coordination.Toml.Scan

namespace Coordination.Toml

-- The character with a code point given by so many hexadecimal digits.
def codePoint (digits : Nat) : Scan Char := do
  let cs ← Scan.times digits fun c => c.isDigit || ('a' ≤ c.toLower && c.toLower ≤ 'f')
  let value (c : Char) : Nat := if c.isDigit then c.toNat - 48 else c.toLower.toNat - 87
  let n := cs.foldl (fun n c => 16 * n + value c) 0
  if n.isValidChar then return Char.ofNat n else failure

-- A backslash with what follows it.
def escaped : Scan Char := do
  Scan.word ['\\']
  match ← Scan.char fun _ => true with
  | 'b' => return '\x08'
  | 'f' => return '\x0c'
  | 'n' => return '\n'
  | 'r' => return '\r'
  | 't' => return '\t'
  | '\\' => return '\\'
  | '"' => return '"'
  | 'u' => codePoint 4
  | 'U' => codePoint 8
  | _ => failure

-- Whether a character stands for itself between double quotes.
def isPlain (c : Char) : Bool :=
  isVisible c && c ≠ '"' && c ≠ '\\'

-- Whether a character stands for itself between single quotes.
def isLiteral (c : Char) : Bool :=
  isVisible c && c ≠ '\''

def basicText : Scan (List Char) := do
  Scan.word ['"']
  let cs ← Scan.many (Scan.char isPlain <|> escaped)
  Scan.word ['"']
  return cs

def literalText : Scan (List Char) := do
  Scan.word ['\'']
  let cs ← Scan.run isLiteral
  Scan.word ['\'']
  return cs

-- One or two quotes inside a text with tripled quotes.
def loneQuotes (quote : Char) : Scan (List Char) := do
  let cs ← Scan.run1 (· = quote)
  if cs.length ≤ 2 then return cs else failure

-- The tripled quote that ends a text, with up to two quotes before it that belong to the text.
def closingQuotes (quote : Char) : Scan (List Char) := do
  let cs ← Scan.run1 (· = quote)
  if 3 ≤ cs.length && cs.length ≤ 5 then return cs.drop 3 else failure

-- A text with tripled quotes: a line end right at its beginning does not count.
def longText (quote : Char) (piece : Scan (List Char)) : Scan (List Char) := do
  Scan.word [quote, quote, quote]
  let _ ← Scan.optional? newline
  let pieces ← Scan.many (piece <|> loneQuotes quote)
  return pieces.flatten ++ (← closingQuotes quote)

-- A line end in a text is a line feed, however it is written.
def lineFeed : Scan (List Char) := do
  newline
  return ['\n']

-- A backslash at the end of a line joins the lines: all gaps and line ends after it are left out.
def joinedLines : Scan (List Char) := do
  Scan.word ['\\']
  gap
  newline
  let _ ← Scan.many ((do let _ ← Scan.run1 isGap) <|> newline)
  return []

def longBasicText : Scan (List Char) :=
  longText '"' <| Scan.run1 isPlain <|> joinedLines <|> (do return [← escaped]) <|> lineFeed

def longLiteralText : Scan (List Char) :=
  longText '\'' <| Scan.run1 isLiteral <|> lineFeed

-- A text of any of the four kinds.
def quotedText : Scan String := do
  let cs ← longBasicText <|> basicText <|> longLiteralText <|> literalText
  return String.ofList cs

-- A key without quotes, or in quotes of either kind on one line.
def simpleKey : Scan String := do
  let bare (c : Char) : Bool := c.isAlphanum || c = '-' || c = '_'
  let cs ← basicText <|> literalText <|> Scan.run1 bare
  return String.ofList cs

-- How many parts a key may have, and how many lists and tables may be written inside one another.
def depthLimit : Nat := 79

-- Keys with points between them.
def dottedKey : Scan (List String) := do
  let part : Scan String := do
    gap
    let key ← simpleKey
    gap
    return key
  let keys ← Scan.sepBy1 part (Scan.word ['.'])
  if keys.length ≤ depthLimit then return keys else failure

end Coordination.Toml
