import Coordination.Setting.Layer
import Coordination.Setting.Library
import Coordination.Target

namespace Coordination.Environment

-- A text with a point for each separator, from the left. The first `skip` characters belong to the
-- separator before them.
def points (separator : List Char) : Nat → List Char → List Char
  | _, [] => []
  | skip + 1, _ :: cs => points separator skip cs
  | 0, c :: cs =>
    if !separator.isEmpty && separator.isPrefixOf (c :: cs) then
      '.' :: points separator (separator.length - 1) cs
    else c :: points separator 0 cs

-- The key that a variable sets, where a separator leads into a table.
def key? (style : VariableStyle) (name : String) : Option String :=
  (Target.dropLeading (Text.lower (style.lead ++ style.separator)).toList
    (Text.lower name).toList).map fun cs => String.ofList (points style.separator.toList 0 cs)

-- A decimal number after its sign: digits, perhaps with a point among or beside them, perhaps with
-- an exponent.
def decimal? (negative : Bool) (cs : List Char) : Option Binary64 :=
  let mantissa := cs.takeWhile fun c => c ≠ 'e' && c ≠ 'E'
  let whole := mantissa.takeWhile Char.isDigit
  let fraction? : Option (List Char) :=
    match mantissa.dropWhile Char.isDigit with
    | [] => some []
    | '.' :: fraction => if fraction.all Char.isDigit then some fraction else none
    | _ => none
  let exponent? : Option Int :=
    match cs.dropWhile fun c => c ≠ 'e' && c ≠ 'E' with
    | [] => some 0
    | _ :: cs => signed? cs
  match fraction?, exponent? with
  | some fraction, some exponent =>
    (digits? (whole ++ fraction)).map fun n => .ofDecimal negative n (exponent - fraction.length)
  | _, _ => none

-- A floating point number: a decimal one, or the word for infinity or for what is no number.
def float? (s : String) : Option Binary64 :=
  let (negative, cs) :=
    match s.toList with
    | '-' :: cs => (true, cs)
    | '+' :: cs => (false, cs)
    | cs => (false, cs)
  let word := String.ofList (cs.map Char.toLower)
  if word = "inf" || word = "infinity" then some (.infinite negative)
  else if word = "nan" then some .nan
  else decimal? negative cs

-- What the value of a variable stands for: the first of switch, whole number and number that it
-- reads as, or else its text.
def setting (value : String) : Setting :=
  let word := Text.lower value
  if word = "true" then .bool true
  else if word = "false" then .bool false
  else
    match (signed? value.toList).bind Setting.ofInt? with
    | some n => n
    | none =>
      match float? value with
      | some x => .float x
      | none => .text value

-- The entry that a variable gives, if it has one of the names.
def entry (style : VariableStyle) (v : String × String) : Option (String × Setting) :=
  if style.ignoresEmpty && v.2.isEmpty then none
  else (key? style v.1).map fun key => (key, if style.parses then setting v.2 else .text v.2)

-- The layer that the variables give; of two that set the same key the later one counts.
def layer (style : VariableStyle) (vars : List (String × String)) : Settings :=
  (vars.filterMap (entry style)).foldl (fun s e => s.put e.1 e.2) []

end Coordination.Environment
