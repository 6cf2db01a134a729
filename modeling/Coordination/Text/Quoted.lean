import Coordination.Text.Printable

namespace Coordination.Text

-- A code point in hexadecimal, without leading zeros.
def hex (n : Nat) : String :=
  String.ofList (Nat.toDigits 16 n)

def escape : Char → String
  | '"' => "\\\""
  | '\\' => "\\\\"
  | '\t' => "\\t"
  | '\r' => "\\r"
  | '\n' => "\\n"
  | '\x00' => "\\0"
  | c => if isPrintable c then c.toString else "\\u\x7b" ++ hex c.toNat ++ "\x7d"

def quote (s : String) : String :=
  "\"" ++ String.join (s.toList.map escape) ++ "\""

def quoteList (texts : List String) : String :=
  "[" ++ ", ".intercalate (texts.map quote) ++ "]"

def quoteOption : Option String → String
  | none => "None"
  | some s => "Some(" ++ quote s ++ ")"

end Coordination.Text
