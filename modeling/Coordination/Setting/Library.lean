import Coordination.Setting

namespace Coordination

-- A file that settings are read from.
structure SettingsFile where
  name : String
  -- The text in the file; absent if there is no such file.
  content : Option String
  deriving DecidableEq, Repr

-- Why no configuration could be loaded.
inductive LoadError where
  -- A field of the first layer is larger than a setting can be.
  | outOfRange (key : String)
  | noSuchFile (name : String)
  -- The name of the file does not end in a known format.
  | unknownFormat (name : String)
  | malformed (name : String)
  -- What is set for a field makes no sense for it.
  | undecodable (key : String)
  deriving DecidableEq, Repr

-- Which variables of the environment are settings, and how they are taken.
structure VariableStyle where
  -- What their names begin with, in capitals or not, and what stands behind it.
  lead : String
  separator : String
  -- Whether a variable without a value counts as not set.
  ignoresEmpty : Bool
  -- Whether numbers and switches are told from other texts.
  parses : Bool

-- The order in which the entries of a source are taken. It is not laid down, and may be another one
-- each time.
structure Order where
  arrange : Settings → Settings
  perm (s : Settings) : (arrange s).Perm s

def Order.asGiven : Order :=
  ⟨id, fun _ => .rfl⟩

-- What settings are read, put together and understood with.
class SettingsLibrary where
  read : SettingsFile → Except LoadError Settings
  -- What the value of a variable stands for, if it is told from other texts.
  parsed : String → Setting
  -- The entry that a variable stands for, by its name and value.
  ofVariable? : VariableStyle → String × String → Option (String × Setting)
  -- The entries that all variables together stand for.
  environment : VariableStyle → List (String × String) → Settings
  ofCount? : UInt64 → Option Setting
  ofWord : String → Setting
  ofSwitch : Bool → Setting
  -- A key may be a path that leads into a table or a list. This is the first part of the path.
  head : String → String
  -- Lays the entries of a source over settings, one after the other.
  lay : Settings → Settings → Settings
  count? : Setting → Option UInt64
  -- The one of several words that a setting means.
  variant? : List String → Setting → Option String
  switch? : Setting → Option Bool

-- The settings of several sources, the later ones over the earlier ones.
def SettingsLibrary.merge [SettingsLibrary] (order : Nat → Order) (sources : List Settings) :
    Settings :=
  sources.zipIdx.foldl (fun below (source, i) => lay ((order i).arrange source) below) []

end Coordination
