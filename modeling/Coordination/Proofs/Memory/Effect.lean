import Coordination.Backend.Memory

namespace Coordination

namespace Tree

variable {t : Tree} {path q : String} {node : Node}

theorem getElem?_put : (t.insert path node)[q]? = if q = path then some node else t[q]? := by
  simp [Std.ExtTreeMap.getElem?_insert, eq_comm (a := path)]

theorem getElem?_putIf (b : Bool) :
    (if b then t.insert path node else t)[q]? = if b ∧ q = path then some node else t[q]? := by
  cases b <;> simp [getElem?_put]

theorem getElem?_drop : (t.erase path)[q]? = if q = path then none else t[q]? := by
  simp [Std.ExtTreeMap.getElem?_erase, eq_comm (a := path)]

theorem getElem?_change (f : Node → Node) :
    (t.modify path f)[q]? = if q = path then t[q]?.map f else t[q]? := by
  simp only [Std.ExtTreeMap.getElem?_modify, Std.LawfulEqCmp.compare_eq_iff_eq]
  by_cases h : path = q
  case pos => subst h; simp
  case neg => simp [h, Ne.symm h]

theorem getElem?_sweep : t.sweep[path]? = t[path]?.filter (!·.isEphemeral) := by
  unfold sweep
  rw [Std.ExtTreeMap.getElem?_filter]
  cases t[path]? <;> simp

theorem mem_iff : path ∈ t ↔ t[path]?.isSome :=
  Std.ExtTreeMap.mem_iff_isSome_getElem?

theorem exists_node (h : path ∈ t) : ∃ node, t[path]? = some node :=
  Option.isSome_iff_exists.mp (mem_iff.mp h)

theorem mem_of_found (h : t[path]? = some node) : path ∈ t :=
  mem_iff.mpr (Option.isSome_of_eq_some h)

theorem mem_put : q ∈ t.insert path node ↔ q = path ∨ q ∈ t := by
  rw [Std.ExtTreeMap.mem_insert, Std.LawfulEqCmp.compare_eq_iff_eq, eq_comm]

theorem mem_rewrite {node' : Node} (found : t[path]? = some node) :
    q ∈ t.insert path node' ↔ q ∈ t :=
  mem_put.trans <| or_iff_right_of_imp fun h => h ▸ mem_of_found found

theorem mem_drop : q ∈ t.erase path ↔ q ≠ path ∧ q ∈ t := by
  rw [Std.ExtTreeMap.mem_erase, ne_eq, Std.LawfulEqCmp.compare_eq_iff_eq, eq_comm]

theorem mem_change {f : Node → Node} : q ∈ t.modify path f ↔ q ∈ t :=
  Std.ExtTreeMap.mem_modify

end Tree

-- The name of the created node ends in a number.
def Operation.isSequence : Operation → Bool
  | create _ _ _ flags => flags &&& createSequence ≠ 0
  | _ => false

namespace Memory

variable {m m' : Memory} {op : Operation} {id : RequestId} {full : String} {type : EventType}
  {w : WatchEvent}

-- The event tells somebody who watches a full path what happened there.
structure Tells (m : Memory) (type : EventType) (full : String) (w : WatchEvent) : Prop where
  type    : w.type = type
  path    : w.path = some (m.clientPath full)
  watched : ∃ watch ∈ m.dataWatches ++ m.childWatches, watch.path = full

-- What can become of the tree, next to the outcome.
inductive Effect (m : Memory) (op : Operation) : Outcome → Tree → Prop
  -- A read, or a refusal.
  | idle {rc : ResultCode} {payload : Payload} (string : payload.string? = none)
    (refused : op.isCreate → rc ≠ .ok ∧ (op.isSequence → rc ≠ .nodeExists)) :
    Effect m op ⟨rc, payload, []⟩ m.nodes
  | written {node node' : Node} {payload : Payload} {fired : List WatchEvent}
    (isCreate : op.isCreate = false) (string : payload.string? = none)
    (found : m.nodes[m.fullPath op.path]? = some node) (changed : node' ≠ node)
    (tells : ∀ w ∈ fired, m.Tells .changed (m.fullPath op.path) w) :
    Effect m op ⟨.ok, payload, fired⟩ (m.nodes.insert (m.fullPath op.path) node')
  -- The number was given out, but the name with it is taken.
  | counted {parent : String} {node : Node} (isSequence : op.isSequence)
    (isParent : Path.parent? (m.fullPath op.path) = some parent)
    (found : m.nodes[parent]? = some node) :
    Effect m op ⟨.nodeExists, .string none, []⟩
      (m.nodes.insert parent { node with nextSequence := node.nextSequence + 1 })
  | created {parent full : String} {node child : Node} {t : Tree} {fired : List WatchEvent}
    (isCreate : op.isCreate)
    (isParent : Path.parent? (m.fullPath op.path) = some parent)
    (found : m.nodes[parent]? = some node)
    (named : full = if op.isSequence then
      Path.withSequence (m.fullPath op.path) node.nextSequence else m.fullPath op.path)
    (absent : m.nodes[full]? = none)
    (counted : t = if op.isSequence then
      m.nodes.insert parent { node with nextSequence := node.nextSequence + 1 } else m.nodes)
    (tells : ∀ w ∈ fired, m.Tells .created full w ∨ m.Tells .child parent w) :
    Effect m op ⟨.ok, .string (some full), fired⟩
      ((t.insert full child).modify parent (Node.childCreated (m.zxid + 1)))
  | deleted {node : Node} {fired : List WatchEvent} (isCreate : op.isCreate = false)
    (unprotected : m.isProtected (m.fullPath op.path) = false)
    (found : m.nodes[m.fullPath op.path]? = some node)
    (tells : ∀ w ∈ fired, m.Tells .deleted (m.fullPath op.path) w ∨
      m.Tells .child ((Path.parent? (m.fullPath op.path)).getD "/") w) :
    Effect m op ⟨.ok, .none, fired⟩
      ((m.nodes.erase (m.fullPath op.path)).modify
        ((Path.parent? (m.fullPath op.path)).getD "/") (Node.childDeleted (m.zxid + 1)))

theorem tells_notices {ws : List Watch} (hw : ∀ watch ∈ ws, watch ∈ m.dataWatches ++ m.childWatches)
    (ht : m'.target = m.target) (h : w ∈ m'.notices (Watch.idsAt full ws) type full) :
    m.Tells type full w := by
  simp only [notices, Watch.idsAt, List.mem_map, List.mem_filterMap] at h
  obtain ⟨_, ⟨watch, hm, hi⟩, rfl⟩ := h
  refine ⟨rfl, by simp only [clientPath, ht], watch, hw _ hm, ?_⟩
  split at hi
  case isTrue h => exact h
  case isFalse  => cases hi

section

variable {path parent : String} {data : ByteArray} {acl : List Acl}

theorem insertNode_effect {owner : Int} {node : Node} {t : Tree}
    (isCreate : op.isCreate) (isParent : Path.parent? (m.fullPath op.path) = some parent)
    (found : m.nodes[parent]? = some node)
    (named : full = if op.isSequence then
      Path.withSequence (m.fullPath op.path) node.nextSequence else m.fullPath op.path)
    (absent : m.nodes[full]? = none)
    (counted : t = if op.isSequence then
      m.nodes.insert parent { node with nextSequence := node.nextSequence + 1 } else m.nodes) :
    Effect m op ({ m with nodes := t }.insertNode parent full data acl owner).1
      ({ m with nodes := t }.insertNode parent full data acl owner).2.nodes :=
  .created isCreate isParent found named absent counted fun _ h =>
    (List.mem_append.mp h).imp
      (tells_notices (fun _ => List.mem_append_left _) rfl)
      (tells_notices (fun _ => List.mem_append_right _) rfl)

theorem create_effect {flags : Nat} :
    Effect m (.create path data acl flags) (m.create path data acl flags).1
      (m.create path data acl flags).2.nodes := by
  simp only [create]
  split
  case h_1 => exact .idle rfl fun _ => ⟨nofun, fun _ => nofun⟩
  case h_2 parent hp =>
    split
    case h_1 => exact .idle rfl fun _ => ⟨nofun, fun _ => nofun⟩
    case h_2 node hn =>
      split
      case isTrue => exact .idle rfl fun _ => ⟨nofun, fun _ => nofun⟩
      case isFalse =>
        by_cases hs : flags &&& createSequence ≠ 0
        case pos =>
          have hq : (Operation.create path data acl flags).isSequence := decide_eq_true hs
          simp only [if_pos hs]
          split
          case isTrue => exact .counted hq hp hn
          case isFalse ha =>
            refine insertNode_effect rfl hp hn (by rw [if_pos hq]; rfl) ?_ (if_pos hq).symm
            rw [Tree.mem_put, not_or, Tree.mem_iff] at ha
            simpa using ha.right
        case neg =>
          have hq : ¬(Operation.create path data acl flags).isSequence := by
            simpa [Operation.isSequence] using hs
          simp only [if_neg hs]
          split
          case isTrue => exact .idle rfl fun _ => ⟨nofun, fun h => absurd h hq⟩
          case isFalse ha =>
            refine insertNode_effect rfl hp hn (by rw [if_neg hq]; rfl) ?_ (if_neg hq).symm
            rw [Tree.mem_iff] at ha
            simpa using ha

theorem delete_effect {version : Int} :
    Effect m (.delete path version) (m.delete path version).1 (m.delete path version).2.nodes := by
  simp only [delete]
  split
  case isTrue => exact .idle rfl nofun
  case isFalse hp =>
    split
    case h_1 => exact .idle rfl nofun
    case h_2 node hn =>
      split
      case isTrue => exact .idle rfl nofun
      case isFalse =>
        split
        case isTrue => exact .idle rfl nofun
        case isFalse =>
          refine .deleted rfl (Bool.eq_false_iff.mpr hp) hn fun w h => ?_
          rcases List.mem_append.mp h with h | h
          · refine .inl ?_
            rcases List.mem_append.mp h with h | h
            · exact tells_notices (fun _ => List.mem_append_left _) rfl h
            · exact tells_notices (fun _ => List.mem_append_right _) rfl h
          · refine .inr (tells_notices (fun _ hw => List.mem_append_right _ ?_) rfl h)
            exact (List.mem_filter.mp hw).left

theorem set_effect {version : Int} :
    Effect m (.set path data version) (m.set path data version).1
      (m.set path data version).2.nodes := by
  simp only [set]
  split
  case h_1 => exact .idle rfl nofun
  case h_2 node hn =>
    split
    case isTrue => exact .idle rfl nofun
    case isFalse =>
      refine .written rfl rfl hn (fun h => ?_)
        fun _ => tells_notices (fun _ => List.mem_append_left _) rfl
      have : node.stat.version + 1 = node.stat.version := congrArg (·.stat.version) h
      omega

theorem setAcl_effect {version : Int} :
    Effect m (.setAcl path acl version) (m.setAcl path acl version).1
      (m.setAcl path acl version).2.nodes := by
  simp only [setAcl]
  split
  case h_1 => exact .idle rfl nofun
  case h_2 node hn =>
    split
    case isTrue => exact .idle rfl nofun
    case isFalse =>
      refine .written rfl rfl hn (fun h => ?_) nofun
      have : node.stat.aversion + 1 = node.stat.aversion := congrArg (·.stat.aversion) h
      omega

end

theorem execute_effect (id : RequestId) (op : Operation) :
    Effect m op (m.execute id op).1 (m.execute id op).2.nodes := by
  cases op
  case get path watch =>
    simp only [execute, get]
    cases m.nodes[m.fullPath path]? <;> cases watch <;> exact .idle rfl nofun
  case «exists» path watch =>
    simp only [execute, doesExist]
    cases m.nodes[m.fullPath path]? <;> cases watch <;> exact .idle rfl nofun
  case getChildren path watch =>
    simp only [execute, getChildren]
    cases m.nodes[m.fullPath path]? <;> cases watch <;> exact .idle rfl nofun
  case getAcl path =>
    simp only [execute, getAcl]
    cases m.nodes[m.fullPath path]? <;> exact .idle rfl nofun
  case set    => exact set_effect
  case create => exact create_effect
  case delete => exact delete_effect
  case setAcl => exact setAcl_effect

end Memory
end Coordination
