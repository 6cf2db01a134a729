import Coordination.Event

namespace Coordination

-- A value of the application that is handed back to its handler.
inductive Context where
  | text (value : String)
  | number (value : Int)
  deriving DecidableEq, Repr, Inhabited

namespace Context

def text? : Context → Option String
  | text s => some s
  | number _ => none

def number? : Context → Option Int
  | text _ => none
  | number n => some n

end Context

-- A handler and the context it was registered with.
structure Entry (η : Type) where
  handler : η
  context : Option Context
  deriving Inhabited

abbrev Entries (η : Type) := Std.ExtTreeMap RequestId (Entry η)

structure Registry (η : Type) where
  nextId : RequestId
  completions : Entries η
  watchers : Entries η

-- How much a registry lost when it was cleared.
structure Cleared where
  watchers : Nat
  completions : Nat
  deriving DecidableEq, Repr, Inhabited

namespace Registry

variable {η : Type}

def empty : Registry η := ⟨.first, ∅, ∅⟩

-- Gives out the next identifier and records the handlers for it.
def allocate (completion watcher : Option (Entry η)) (r : Registry η) : RequestId × Registry η :=
  let id := r.nextId
  (id, {
    nextId := ⟨id.number + 1⟩
    completions := match completion with
      | some e => r.completions.insert id e
      | none => r.completions
    watchers := match watcher with
      | some e => r.watchers.insert id e
      | none => r.watchers })

def resolveCompletion (id : RequestId) (r : Registry η) : Option (Entry η) × Registry η :=
  (r.completions[id]?, { r with completions := r.completions.erase id })

def peekCompletion (id : RequestId) (r : Registry η) : Option (Entry η) :=
  r.completions[id]?

-- Whether a watch event of this type leaves the watcher registered.
def keepsWatcher (id : RequestId) (type : EventType) : Bool :=
  id.isGlobal || type.isSession

def resolveWatcher (id : RequestId) (type : EventType) (r : Registry η) :
    Option (Entry η) × Registry η :=
  (r.watchers[id]?,
    if keepsWatcher id type then r else { r with watchers := r.watchers.erase id })

-- Puts a completion back unless there is one.
def restoreCompletion (id : RequestId) (e : Entry η) (r : Registry η) : Registry η :=
  { r with completions := r.completions.insertIfNew id e }

-- Puts a watcher back unless there is one.
def restoreWatcher (id : RequestId) (e : Entry η) (r : Registry η) : Registry η :=
  { r with watchers := r.watchers.insertIfNew id e }

-- Forgets the watcher of a request; the global watcher stays.
def discardWatcher (id : RequestId) (r : Registry η) : Registry η :=
  if id.isGlobal then r else { r with watchers := r.watchers.erase id }

-- Forgets everything registered for a request; the global watcher stays.
def discard (id : RequestId) (r : Registry η) : Registry η :=
  { r with completions := r.completions.erase id }.discardWatcher id

def installGlobal (e : Entry η) (r : Registry η) : Registry η :=
  { r with watchers := r.watchers.insert .global e }

-- What a clearing will drop; the global watcher does not count.
def droppable (r : Registry η) : Cleared where
  watchers := r.watchers.keys.countP (!·.isGlobal)
  completions := r.completions.size

-- Drops every entry and installs the global watcher. Identifiers go on from where they are.
def clear (global : Entry η) (r : Registry η) : Cleared × Registry η :=
  (r.droppable, { r with completions := ∅, watchers := (∅ : Entries η).insert .global global })

def hasCompletion (id : RequestId) (r : Registry η) : Bool :=
  r.completions.contains id

def hasWatcher (id : RequestId) (r : Registry η) : Bool :=
  r.watchers.contains id

end Registry
end Coordination
