import Coordination.Error
import Coordination.Text.Blank

namespace Coordination

structure Target where
  -- The text the target was read from, without blanks around it.
  raw : String
  hosts : List String
  chroot : Option String
  deriving DecidableEq, Repr, Inhabited

namespace Target

-- A text without the characters it starts with, if it starts with them.
def dropLeading : List Char → List Char → Option (List Char)
  | [], cs => some cs
  | _ :: _, [] => none
  | l :: lead, c :: cs => if l = c then dropLeading lead cs else none

-- The texts between the commas, without blanks around them; none of them may be empty.
def hosts? (cs : List Char) : Option (List String) :=
  let hosts := (Text.pieces ',' cs).map Text.trimChars
  if hosts.any List.isEmpty then none else some (hosts.map String.ofList)

def parse (text : String) : Except Error Target :=
  let cs := Text.trimChars text.toList
  if cs.isEmpty then .error (.invalidTarget text "target is empty")
  else if cs.getLast? = some '/' then .error (.invalidTarget text "target may not end with /")
  else
    let path := cs.dropWhile (· ≠ '/')
    match hosts? (cs.takeWhile (· ≠ '/')) with
    | none => .error (.invalidTarget text "empty host in server list")
    | some hosts =>
      let chroot := if path.isEmpty then none else some (String.ofList path)
      .ok ⟨String.ofList cs, hosts, chroot⟩

def isChrooted (t : Target) : Bool :=
  t.chroot.isSome

-- The path below the root of the tree that a path of the client stands for.
def fullPath (t : Target) (path : String) : String :=
  match t.chroot with
  | none => path
  | some chroot => if path = "/" then chroot else chroot ++ path

-- The client's own name of a full path. What does not lie below the chroot is left alone, also a
-- sibling whose name starts with the chroot's.
def stripChroot (t : Target) (path : String) : String :=
  match t.chroot with
  | none => path
  | some chroot =>
    match dropLeading chroot.toList path.toList with
    | some [] => "/"
    | some ('/' :: rest) => String.ofList ('/' :: rest)
    | _ => path

def describe (t : Target) : String :=
  "ConnectionTarget \x7b raw: " ++ Text.quote t.raw ++ ", hosts: " ++ Text.quoteList t.hosts ++
    ", chroot: " ++ Text.quoteOption t.chroot ++ " \x7d"

end Target
end Coordination
