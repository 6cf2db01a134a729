import Coordination.Setting

/-!
Tables while they are being written: each remembers how it came to be, which decides what may still
be added to it. A table with a header of its own is written once; a table made by a dotted key grows
by dotted keys only; a table that was only gone through may still get its header.
-/
namespace Coordination.Toml

-- How a table came to be.
inductive Origin where
  | header
  -- It stands in the header of a table inside it.
  | passed
  | dotted
  deriving DecidableEq, Repr

inductive Node where
  | value (v : Setting)
  | table (origin : Origin) (entries : List (String × Node))
  -- A list of tables, one for each of its headers; only the last can still be added to.
  | tables (earlier : List Setting) (last : List (String × Node))
  deriving Inhabited

-- A table by its entries.
abbrev Entries := List (String × Node)

mutual

-- The setting that is written.
def Node.setting : Node → Setting
  | .value v => v
  | .table _ es => .table (settings es)
  | .tables earlier last => .list (earlier ++ [.table (settings last)])

-- The settings that are written.
def settings : List (String × Node) → List (String × Setting)
  | [] => []
  | (key, node) :: rest => (key, node.setting) :: settings rest

end

namespace Entries

-- Changes what stands under a key, if the change is allowed.
def alter (key : String) (f : Option Node → Option Node) : Entries → Option Entries
  | [] => (f none).map fun node => [(key, node)]
  | (k, node) :: rest =>
    if k = key then (f (some node)).map fun node => (k, node) :: rest
    else (alter key f rest).map ((k, node) :: ·)

-- Changes the table that a path leads to; tables that are missing on the way are made. A dotted
-- path does not lead into a table with a header of its own.
def descend (dotted : Bool) (f : Origin → Entries → Option Entries) :
    List String → Origin → Entries → Option Entries
  | [], origin, es => f origin es
  | key :: path, _, es => es.alter key fun
    | none =>
      let origin := if dotted then Origin.dotted else .passed
      (descend dotted f path origin []).map (.table origin)
    | some (.value _) => none
    | some (.tables earlier last) => (descend dotted f path .header last).map (.tables earlier)
    | some (.table origin es) =>
      if dotted && origin = .header then none
      else (descend dotted f path origin es).map (.table origin)

-- Adds a value under a dotted key, which has to be new.
def insert (path : List String) (key : String) (v : Setting) (es : Entries) : Option Entries :=
  let add (origin : Origin) (es : Entries) : Option Entries :=
    if !path.isEmpty && origin ≠ .dotted then none
    else es.alter key fun
      | none => some (.value v)
      | some _ => none
  es.descend true add path .header

-- Opens the table of a header, which has to be its first.
def openTable (path : List String) (key : String) (es : Entries) : Option Entries :=
  let add (_ : Origin) (es : Entries) : Option Entries := es.alter key fun
    | none => some (.table .header [])
    | some (.table .passed es) => some (.table .header es)
    | some _ => none
  es.descend false add path .header

-- Opens one more table of a list of tables.
def openItem (path : List String) (key : String) (es : Entries) : Option Entries :=
  let add (_ : Origin) (es : Entries) : Option Entries := es.alter key fun
    | none => some (.tables [] [])
    | some (.tables earlier last) => some (.tables (earlier ++ [.table (settings last)]) [])
    | some _ => none
  es.descend false add path .header

-- Adds a value under a dotted key of the table that a header opened.
def insertUnder (header : List String) (path : List String) (key : String) (v : Setting)
    (es : Entries) : Option Entries :=
  es.descend false (fun _ es => es.insert path key v) header .header

end Entries
end Coordination.Toml
