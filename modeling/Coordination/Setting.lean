import Coordination.Binary64

namespace Coordination

-- A setting as it is written down, before the field that it is for is known.
inductive Setting where
  | bool (value : Bool)
  -- A whole number from `-2 ^ 63` to `2 ^ 63 - 1`.
  | integer (value : Int)
  | float (value : Binary64)
  | text (value : String)
  | list (items : List Setting)
  | table (entries : List (String × Setting))
  -- The place of a list that nothing was put in.
  | absent
  deriving Inhabited

-- Settings by key.
abbrev Settings := List (String × Setting)

def Settings.get? (s : Settings) (key : String) : Option Setting :=
  s.lookup key

namespace Setting

def largestInteger : Int := 9223372036854775807

def smallestInteger : Int := -9223372036854775808

-- The settings in a table; anything else holds none.
def entries : Option Setting → Settings
  | some (table es) => es
  | _ => []

-- The items of a list; anything else holds none.
def items : Option Setting → List Setting
  | some (list vs) => vs
  | _ => []

end Setting

end Coordination
