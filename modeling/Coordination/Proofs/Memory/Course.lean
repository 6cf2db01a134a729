import Coordination.Proofs.Memory.Effect
import Coordination.Proofs.Memory.Watches

namespace Coordination

-- Whether the operation makes, changes or removes a node in a way that watches are told of.
def Operation.changes : Operation → Bool
  | set .. | create .. | delete .. => true
  | _ => false

namespace Memory

variable {m : Memory} {id : RequestId} {path : String} {data : ByteArray} {acl : List Acl}

-- Sets the watch of a read: on the children of its path, or on the node there.
def watch (id : RequestId) (op : Operation) (m : Memory) : Memory :=
  match op with
  | .getChildren path _ => m.watchChildren (m.fullPath path) id
  | op => m.watchData (m.fullPath op.path) id

-- The service once a transaction has changed the nodes.
def committed (nodes : Tree) (m : Memory) : Memory :=
  { m with nodes := nodes, zxid := m.zxid + 1 }

-- The nodes when the number of the next sequence node below a parent is given out, if one is.
def numbered (isSequence : Bool) (parent : String) (node : Node) (m : Memory) : Tree :=
  if isSequence then m.nodes.insert parent { node with nextSequence := node.nextSequence + 1 }
  else m.nodes

inductive Course (m : Memory) (id : RequestId) : Operation → Outcome × Memory → Prop
  | quiet {op : Operation} {rc : ResultCode} {payload : Payload}
    (unchanged : op.changes → rc ≠ .ok) :
    Course m id op (⟨rc, payload, []⟩, if op.setsWatch rc then m.watch id op else m)
  | set {path : String} {data : ByteArray} {version : Int} {node node' : Node}
    (found : m.nodes[m.fullPath path]? = some node)
    (replaced : node' = node.replaceData data (m.zxid + 1) m.clock) :
    Course m id (.set path data version)
      (⟨.ok, .stat (some node'.stat), (m.fireData .changed (m.fullPath path)).1⟩,
        (m.committed (m.nodes.insert (m.fullPath path) node') |>.fireData .changed
          (m.fullPath path)).2)
  | setAcl {path : String} {acl : List Acl} {version : Int} {node : Node}
    (found : m.nodes[m.fullPath path]? = some node) :
    Course m id (.setAcl path acl version)
      (⟨.ok, .stat (some (node.replaceAcl acl).stat), []⟩,
        { m with nodes := m.nodes.insert (m.fullPath path) (node.replaceAcl acl) })
  -- The number is given out, but the name with it is taken.
  | counted {path parent : String} {data : ByteArray} {acl : List Acl} {flags : Nat} {node : Node}
    (isParent : Path.parent? (m.fullPath path) = some parent)
    (found : m.nodes[parent]? = some node) :
    Course m id (.create path data acl flags)
      (⟨.nodeExists, .string none, []⟩, { m with nodes := m.numbered true parent node })
  | create {path parent full : String} {data : ByteArray} {acl : List Acl} {flags : Nat}
    {owner : Int} {node : Node} {nodes : Tree}
    (isParent : Path.parent? (m.fullPath path) = some parent)
    (found : m.nodes[parent]? = some node) (lasting : node.isEphemeral = false)
    (named : full = if (Operation.create path data acl flags).isSequence then
      Path.withSequence (m.fullPath path) node.nextSequence else m.fullPath path)
    (counted : nodes = m.numbered (Operation.create path data acl flags).isSequence parent node)
    (absent : nodes[full]? = none) :
    Course m id (.create path data acl flags)
      ({ m with nodes := nodes }.insertNode parent full data acl owner)
  | delete {path : String} {version : Int} {node : Node}
    (unprotected : m.isProtected (m.fullPath path) = false)
    (found : m.nodes[m.fullPath path]? = some node)
    (childless : m.nodes.children (m.fullPath path) = []) :
    Course m id (.delete path version) (m.removeNode (m.fullPath path))

namespace Course

theorem read {op : Operation} {rc : ResultCode} {payload : Payload} (h : op.changes = false) :
    Course m id op (⟨rc, payload, []⟩, if op.setsWatch rc then m.watch id op else m) :=
  quiet fun hc => absurd (h.symm.trans hc) Bool.false_ne_true

-- An operation that asks for no watch has done nothing.
theorem refused {op : Operation} {rc : ResultCode} {payload : Payload} (h : op.asksWatch = false)
    (hr : rc ≠ .ok) : Course m id op (⟨rc, payload, []⟩, m) := by
  have hs : op.setsWatch rc = false := by rw [Operation.setsWatch, h, Bool.false_and]
  have hq : Course m id op (⟨rc, payload, []⟩, if op.setsWatch rc then _ else _) :=
    quiet fun _ => hr
  rwa [hs, if_neg Bool.false_ne_true] at hq

theorem of_set {version : Int} :
    Course m id (.set path data version) (m.set path data version) := by
  simp only [Memory.set]
  split
  case h_1 => exact refused rfl (by decide)
  case h_2 node found =>
    split
    case isTrue  => exact refused rfl (by decide)
    case isFalse => exact set found rfl

theorem of_setAcl {version : Int} :
    Course m id (.setAcl path acl version) (m.setAcl path acl version) := by
  simp only [Memory.setAcl]
  split
  case h_1 => exact refused rfl (by decide)
  case h_2 node found =>
    split
    case isTrue  => exact refused rfl (by decide)
    case isFalse => exact setAcl found

theorem of_create {flags : Nat} :
    Course m id (.create path data acl flags) (m.create path data acl flags) := by
  simp only [Memory.create]
  split
  case h_1 => exact refused rfl (by decide)
  case h_2 parent isParent =>
    split
    case h_1 => exact refused rfl (by decide)
    case h_2 node found =>
      split
      case isTrue => exact refused rfl (by decide)
      case isFalse lasting =>
        have lasting := Bool.eq_false_iff.mpr lasting
        by_cases hs : flags &&& createSequence ≠ 0
        case pos =>
          have hq : (Operation.create path data acl flags).isSequence := decide_eq_true hs
          simp only [if_pos hs]
          split
          case isTrue => exact counted isParent found
          case isFalse absent =>
            exact create isParent found lasting (by rw [if_pos hq]) (by rw [hq]; rfl)
              (Std.ExtTreeMap.getElem?_eq_none absent)
        case neg =>
          have hq : (Operation.create path data acl flags).isSequence = false := by
            simpa [Operation.isSequence] using hs
          simp only [if_neg hs]
          split
          case isTrue => exact refused rfl (by decide)
          case isFalse absent =>
            exact create isParent found lasting (by rw [hq]; rfl) (by rw [hq]; rfl)
              (Std.ExtTreeMap.getElem?_eq_none absent)

theorem of_delete {version : Int} :
    Course m id (.delete path version) (m.delete path version) := by
  simp only [Memory.delete]
  split
  case isTrue => exact refused rfl (by decide)
  case isFalse unprotected =>
    split
    case h_1 => exact refused rfl (by decide)
    case h_2 node found =>
      split
      case isTrue => exact refused rfl (by decide)
      case isFalse =>
        split
        case isTrue => exact refused rfl (by decide)
        case isFalse childless =>
          exact delete (Bool.eq_false_iff.mpr unprotected) found (by simpa using childless)

end Course

-- The session stays the one it was.
theorem Course.session {op : Operation} {outcome : Outcome} {m' : Memory}
    (h : Course m id op (outcome, m')) : m'.target = m.target := by
  cases h
  case quiet rc payload unchanged =>
    split
    case isTrue  => cases op <;> rfl
    case isFalse => rfl
  all_goals rfl

theorem execute_course (id : RequestId) (op : Operation) : Course m id op (m.execute id op) := by
  cases op
  case get path watch =>
    simp only [execute, get]
    cases m.nodes[m.fullPath path]? <;> cases watch <;> exact .read rfl
  case «exists» path watch =>
    simp only [execute, doesExist]
    cases m.nodes[m.fullPath path]? <;> cases watch <;> exact .read rfl
  case getChildren path watch =>
    simp only [execute, getChildren]
    cases m.nodes[m.fullPath path]? <;> cases watch <;> exact .read rfl
  case getAcl path =>
    simp only [execute, getAcl]
    cases m.nodes[m.fullPath path]? <;> exact .read rfl
  case set    => exact .of_set
  case create => exact .of_create
  case delete => exact .of_delete
  case setAcl => exact .of_setAcl

end Memory
end Coordination
