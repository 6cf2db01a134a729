import Coordination.Setting.Reading

namespace Coordination

namespace Settings

-- Replaces the setting under the key or adds it at the end.
def put (key : String) (v : Setting) : Settings → Settings
  | [] => [(key, v)]
  | (k, w) :: rest => if k = key then (k, v) :: rest else (k, w) :: put key v rest

@[simp] theorem get?_nil (key : String) : get? [] key = none := rfl

theorem get?_put (key k : String) (v : Setting) (s : Settings) :
    get? (put key v s) k = if k = key then some v else get? s k := by
  induction s with
  | nil => grind [put, get?]
  | cons e rest ih => grind [put, get?]

end Settings

namespace Setting

mutual

-- What stands under a key after `v` is laid over what stood there. A table goes over a table key by
-- key, so that an empty table changes nothing; anything else replaces what was there.
def onto : Setting → Option Setting → Setting
  | table es, below => ontoAll es (below.getD (table []))
  | bool b, _ => bool b
  | integer n, _ => integer n
  | float x, _ => float x
  | text s, _ => text s
  | list vs, _ => list vs
  | absent, _ => absent

-- Lays the settings of a table over a setting, each under its key in lower case.
def ontoAll : List (String × Setting) → Setting → Setting
  | [], below => below
  | (key, v) :: rest, below =>
    let under := entries (some below)
    ontoAll rest (table (under.put (Text.lower key) (onto v (under.get? (Text.lower key)))))

end

end Setting

inductive PathStep where
  | key (name : String)
  -- A place in a list; below zero it counts from the end.
  | index (place : Int)
  deriving DecidableEq, Repr

structure SettingPath where
  head : String
  steps : List PathStep
  deriving DecidableEq, Repr

namespace SettingPath

-- What the parts of a path are made of.
def isNameChar (c : Char) : Bool :=
  c.isAlphanum || c = ' ' || c = '_' || c = '-'

-- The place between the brackets of an index.
def place? (cs : List Char) : Option Int :=
  let isGap (c : Char) : Bool := c = ' ' || c = '\t'
  let trimmed := ((cs.dropWhile isGap).reverse.dropWhile isGap).reverse
  match trimmed with
  | '+' :: _ => none
  | cs => (signed? cs).bind fun n =>
    if Setting.smallestInteger ≤ n && n ≤ Setting.largestInteger then some n else none

-- The steps in a text, of at most `fuel` steps.
def steps? : Nat → List Char → Option (List PathStep)
  | _, [] => some []
  | 0, _ => none
  | fuel + 1, '.' :: cs =>
    let name := cs.takeWhile isNameChar
    if name.isEmpty then none
    else (steps? fuel (cs.dropWhile isNameChar)).map (.key (String.ofList name) :: ·)
  | fuel + 1, '[' :: cs =>
    match cs.dropWhile (· ≠ ']') with
    | [] => none
    | _ :: rest => do
      let place ← place? (cs.takeWhile (· ≠ ']'))
      let steps ← steps? fuel rest
      some (.index place :: steps)
  | _, _ => none

-- The path that a key of a layer stands for.
def ofKey (key : String) : SettingPath :=
  let cs := key.toList
  let name := cs.takeWhile isNameChar
  match steps? cs.length (cs.dropWhile isNameChar) with
  | some steps => if name.isEmpty then ⟨key, []⟩ else ⟨String.ofList name, steps⟩
  | none => ⟨key, []⟩

end SettingPath

namespace Setting

-- Replaces the item at a place; missing places before it are filled up.
def putItem (v : Setting) (place : Nat) (vs : List Setting) : List Setting :=
  (vs ++ List.replicate (place + 1 - vs.length) absent).set place v

-- What stands at the beginning of a way after `v` is put at its end. What is not a table on the way
-- gives way to one where a key follows, and to a list where an index follows.
def atEnd (v : Setting) : List PathStep → Option Setting → Setting
  | [], below => onto v below
  | .key name :: steps, below =>
    let under := entries below
    let key := Text.lower name
    table (under.put key (atEnd v steps (under.get? key)))
  | .index place :: steps, below =>
    let under := items below
    let spot := if place < 0 then under.length - (-place).toNat else place.toNat
    list (putItem (atEnd v steps under[spot]?) spot under)

end Setting

namespace Settings

-- Puts a setting under a key of a layer, over what stands there.
def lay (s : Settings) (key : String) (v : Setting) : Settings :=
  let path := SettingPath.ofKey key
  let head := Text.lower path.head
  s.put head (v.atEnd path.steps (s.get? head))

-- Lays a layer over the settings.
def onto (layer below : Settings) : Settings :=
  layer.foldl (fun s entry => s.lay entry.1 entry.2) below

@[simp] theorem onto_nil (below : Settings) : onto [] below = below := rfl

@[simp] theorem onto_cons (key : String) (v : Setting) (layer below : Settings) :
    onto ((key, v) :: layer) below = onto layer (below.lay key v) := rfl

end Settings
end Coordination
