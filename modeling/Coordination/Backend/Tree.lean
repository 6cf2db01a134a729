import Coordination.Backend

namespace Coordination

structure Node where
  data : ByteArray
  acl : List Acl
  stat : Stat
  -- The number the next sequence node below this one gets.
  nextSequence : Nat
  deriving DecidableEq, Inhabited

namespace Node

-- A node created by transaction `zxid` at time `now`; `owner` is its session, or 0.
def new (data : ByteArray) (acl : List Acl) (zxid owner now : Int) : Node where
  data := data
  acl := acl
  nextSequence := 0
  stat := {
    czxid := zxid
    mzxid := zxid
    pzxid := zxid
    ctime := now
    mtime := now
    ephemeralOwner := owner
    dataLength := data.size }

def isEphemeral (n : Node) : Bool :=
  n.stat.ephemeralOwner ≠ 0

def childCreated (zxid : Int) (n : Node) : Node :=
  { n with stat.cversion := n.stat.cversion + 1, stat.numChildren := n.stat.numChildren + 1,
           stat.pzxid := zxid }

def childDeleted (zxid : Int) (n : Node) : Node :=
  { n with stat.cversion := n.stat.cversion + 1, stat.numChildren := n.stat.numChildren - 1,
           stat.pzxid := zxid }

def replaceData (data : ByteArray) (zxid now : Int) (n : Node) : Node :=
  { n with data := data, stat.version := n.stat.version + 1, stat.mzxid := zxid,
           stat.mtime := now, stat.dataLength := data.size }

def replaceAcl (acl : List Acl) (n : Node) : Node :=
  { n with acl := acl, stat.aversion := n.stat.aversion + 1 }

end Node

namespace Path

-- The text before the last slash; the root for a path with no other slash.
def parent? (path : String) : Option String :=
  match path.toList.reverse.dropWhile (· ≠ '/') with
  | [] => none
  | _ :: before => if before.isEmpty then some "/" else some (String.ofList before.reverse)

-- What the paths of the nodes below a path start with.
def below (path : String) : List Char :=
  if path = "/" then ['/'] else path.toList ++ ['/']

-- The last segment of `path` if `parent` and that segment are all of it.
def childName? (parent path : String) : Option String :=
  match Target.dropLeading (below parent) path.toList with
  | some rest => if rest.isEmpty || rest.contains '/' then none else some (String.ofList rest)
  | none => none

-- A number in ten digits or more.
def sequenceDigits (n : Nat) : List Char :=
  let digits := Nat.toDigits 10 n
  List.replicate (10 - digits.length) '0' ++ digits

-- The name a sequence node gets from the number `n`.
def withSequence (path : String) (n : Nat) : String :=
  path ++ String.ofList (sequenceDigits n)

-- Appends the segments one by one, and lists the paths on the way.
def descend (start : List Char) : List (List Char) → List String
  | [] => []
  | segment :: rest =>
    let here := start ++ '/' :: segment
    String.ofList here :: descend here rest

-- The path and all paths above it but the root, from the top down; empty segments are left out.
def steps (path : String) : List String :=
  descend [] ((Text.pieces '/' path.toList).filter (· ≠ []))

end Path

abbrev Tree := Std.ExtTreeMap String Node

namespace Tree

-- The names of the children of a path, in the order of their bytes.
def children (t : Tree) (path : String) : List String :=
  t.keys.filterMap (Path.childName? path)

-- The tree without what belongs to some session.
def sweep (t : Tree) : Tree :=
  t.filter fun _ node => !node.isEphemeral

end Tree
end Coordination
