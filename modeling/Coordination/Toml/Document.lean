import Coordination.Toml.Moment
import Coordination.Toml.Number
import Coordination.Toml.Table
import Coordination.Toml.Text

namespace Coordination.Toml

-- A key, the keys before it, and what it is set to.
structure Pair where
  path : List String
  key : String
  value : Setting

-- A dotted key, cut before its last part.
def keyPath : Scan (List String × String) := do
  let keys ← dottedKey
  match keys.getLast? with
  | some key => return (keys.dropLast, key)
  | none => failure

def pair (value : Scan Setting) : Scan Pair := do
  let (path, key) ← keyPath
  Scan.word ['=']
  gap
  return ⟨path, key, ← value⟩

-- A list in brackets; a comma may stand after its last item.
def list (value : Scan Setting) : Scan Setting := do
  Scan.word ['[']
  let item : Scan Setting := do
    space
    let v ← value
    space
    return v
  let vs ← Scan.sepBy item (Scan.word [','])
  unless vs.isEmpty do
    let _ ← Scan.optional? (Scan.word [','])
  space
  Scan.word [']']
  return .list vs

-- A table in braces, on one line; none may stand after its last pair.
def inlineTable (value : Scan Setting) : Scan Setting := do
  Scan.word ['\x7b']
  let entry : Scan Pair := do
    let entry ← pair value
    gap
    return entry
  let pairs ← Scan.sepBy entry (Scan.word [','])
  gap
  Scan.word ['\x7d']
  match pairs.foldlM (fun es p => Entries.insert p.path p.key p.value es) [] with
  | some es => return .table (settings es)
  | none => failure

-- A value with lists and tables to some depth.
def value : Nat → Scan Setting
  | 0 => scalar
  | depth + 1 => scalar <|> list (value depth) <|> inlineTable (value depth)
where
  scalar : Scan Setting :=
    (.text <$> quotedText) <|> Scan.word' "true" (.bool true) <|>
      Scan.word' "false" (.bool false) <|> moment <|> float <|> integer

inductive Statement where
  | blank
  | pair (p : Pair)
  -- The header of a table.
  | table (path : List String) (key : String)
  -- The header of one more table of a list.
  | item (path : List String) (key : String)

def header (before after : String) : Scan (List String × String) := do
  Scan.word before.toList
  let path ← keyPath
  Scan.word after.toList
  return path

-- One line, with its end.
def line : Scan Statement := do
  gap
  let statement ←
    (do let (path, key) ← header "[[" "]]"; return .item path key) <|>
    (do let (path, key) ← header "[" "]"; return .table path key) <|>
    (.pair <$> pair (value depthLimit)) <|> pure .blank
  gap
  let _ ← Scan.optional? comment
  lineEnd
  return statement

-- What has been written so far, and the way to the table that pairs are added to.
structure Draft where
  entries : Entries
  header : List String

def Draft.add (d : Draft) : Statement → Option Draft
  | .blank => some d
  | .pair p => (d.entries.insertUnder d.header p.path p.key p.value).map ({ d with entries := · })
  | .table path key => (d.entries.openTable path key).map (⟨·, path ++ [key]⟩)
  | .item path key => (d.entries.openItem path key).map (⟨·, path ++ [key]⟩)

def lines? (cs : List Char) : Option (List Statement) :=
  let cs := match cs with
    | '\uFEFF' :: cs => cs
    | cs => cs
  match Scan.many line cs with
  | some (statements, []) => some statements
  | _ => none

-- The settings of a document.
def parse (text : String) : Option (List (String × Setting)) := do
  let statements ← lines? text.toList
  let draft ← statements.foldlM Draft.add ⟨[], []⟩
  return settings draft.entries

end Coordination.Toml
