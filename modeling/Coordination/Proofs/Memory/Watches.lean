import Coordination.Backend.Memory

namespace Coordination

open scoped List

namespace Watch

theorem ids_perm (path : String) (ws : List Watch) :
    ws.map (·.id) ~ (elsewhere path ws).map (·.id) ++ idsAt path ws := by
  induction ws
  case nil => rfl
  case cons w ws ih =>
    by_cases h : w.path = path <;> simp only [elsewhere, idsAt, List.filter_cons,
      List.filterMap_cons, List.map_cons, h, ne_eq, not_true_eq_false, not_false_eq_true,
      decide_true, decide_false, if_true, if_false, Bool.false_eq_true] at ih ⊢
    case pos => exact ih.cons _ |>.trans List.perm_middle.symm
    case neg => exact ih.cons _

theorem idsAt_elsewhere {path at' : String} {ws : List Watch} :
    idsAt path (elsewhere at' ws) = if path = at' then [] else idsAt path ws := by
  unfold idsAt elsewhere
  rw [List.filterMap_filter]
  split
  case isTrue h  => subst h; simp
  case isFalse h =>
    refine congrArg (List.filterMap · ws) (funext fun w => ?_)
    by_cases hw : w.path = path <;> simp [hw, h]

end Watch

namespace Operation

-- Whether a watch is asked for.
def asksWatch : Operation → Bool
  | get _ watch | .exists _ watch | getChildren _ watch => watch
  | _ => false

-- Whether the operation, with this result, has left a watch behind: a read that found its node, or
-- `exists` also without one.
def setsWatch (op : Operation) (rc : ResultCode) : Bool :=
  op.asksWatch && (rc == .ok || op.isExists && rc == .noNode)

theorem asksWatch_watching {op : Operation} {watch : Bool} :
    (op.watching watch).asksWatch = (watch && (op.watching watch).supportsWatch) := by
  cases op <;> simp [watching, asksWatch, supportsWatch]

end Operation

namespace Memory

variable {m : Memory} {id : RequestId}

-- The requests whose watch is set.
def watched (m : Memory) : List RequestId :=
  m.dataWatches.map (·.id) ++ m.childWatches.map (·.id)

-- The operation has led from `m` to `m'`, where `added` are the watches it has set.
structure Executes (m m' : Memory) (added : List RequestId) (fired : List WatchEvent) : Prop where
  channel      : m'.channel = m.channel
  held         : m'.held = m.held
  holding      : m'.holding = m.holding
  handleClosed : m'.handleClosed = m.handleClosed
  state        : m'.state = m.state
  calls        : m'.calls = m.calls
  watched      : m'.watched ++ fired.map (·.id) ~ m.watched ++ added
  changes      : ∀ w ∈ fired, w.type.isSession = false

namespace Executes

theorem refl : Executes m m [] [] := by
  constructor <;> simp

theorem trans {m' m'' : Memory} {added added' : List RequestId} {fired fired' : List WatchEvent}
    (e : Executes m m' added fired) (e' : Executes m' m'' added' fired') :
    Executes m m'' (added ++ added') (fired ++ fired') where
  channel      := e'.channel.trans e.channel
  held         := e'.held.trans e.held
  holding      := e'.holding.trans e.holding
  handleClosed := e'.handleClosed.trans e.handleClosed
  state        := e'.state.trans e.state
  calls        := e'.calls.trans e.calls
  watched      := by
    have h  := e.watched.append_right added'
    have h' := e'.watched.append_right (fired.map (·.id))
    simp only [List.map_append, List.append_assoc] at h h' ⊢
    calc m''.watched ++ (fired.map (·.id) ++ fired'.map (·.id))
      _ ~ m''.watched ++ (fired'.map (·.id) ++ fired.map (·.id)) :=
        List.perm_append_comm.append_left _
      _ ~ m'.watched ++ (added' ++ fired.map (·.id)) := h'
      _ ~ m'.watched ++ (fired.map (·.id) ++ added') := List.perm_append_comm.append_left _
      _ ~ _ := h
  changes      := by
    intro w hw
    cases List.mem_append.mp hw
    case inl hw => exact e.changes w hw
    case inr hw => exact e'.changes w hw

end Executes

theorem notices_id (ids : List RequestId) (type : EventType) (path : String) :
    (m.notices ids type path).map (·.id) = ids := by
  simp [notices, Function.comp_def]

theorem fireData_executes (type : EventType) (path : String) (h : type.isSession = false) :
    Executes m (m.fireData type path).2 [] (m.fireData type path).1 where
  watched := by
    simp only [fireData, watched, notices_id, List.append_nil]
    have h := Watch.ids_perm path m.dataWatches |>.append_right (m.childWatches.map (·.id))
    refine List.Perm.trans ?_ h.symm
    simp only [List.append_assoc]
    exact List.perm_append_comm.append_left _
  changes := by simp [fireData, notices, h]
  channel := rfl
  held := rfl
  holding := rfl
  handleClosed := rfl
  state := rfl
  calls := rfl

theorem fireChild_executes (type : EventType) (path : String) (h : type.isSession = false) :
    Executes m (m.fireChild type path).2 [] (m.fireChild type path).1 where
  watched := by
    simp only [fireChild, watched, notices_id, List.append_nil, List.append_assoc]
    exact Watch.ids_perm path m.childWatches |>.symm.append_left _
  changes := by simp [fireChild, notices, h]
  channel := rfl
  held := rfl
  holding := rfl
  handleClosed := rfl
  state := rfl
  calls := rfl

theorem watchData_executes {path : String} : Executes m (m.watchData path id) [id] [] where
  watched := by
    simp only [watchData, watched, List.map_append, List.map_cons, List.map_nil, List.append_nil,
      List.append_assoc]
    exact List.perm_append_comm.append_left _
  changes := by simp
  channel := rfl
  held := rfl
  holding := rfl
  handleClosed := rfl
  state := rfl
  calls := rfl

theorem watchChildren_executes {path : String} :
    Executes m (m.watchChildren path id) [id] [] where
  watched := by simp [watchChildren, watched]
  changes := by simp
  channel := rfl
  held := rfl
  holding := rfl
  handleClosed := rfl
  state := rfl
  calls := rfl

-- Changing the tree alone concerns no watch.
theorem nodes_executes (nodes : Tree) (zxid : Int) :
    Executes m { m with nodes := nodes, zxid := zxid } [] [] := by
  constructor <;> simp [watched]

theorem insertNode_executes {parent path : String} {data : ByteArray} {acl : List Acl}
    {owner : Int} :
    Executes m (m.insertNode parent path data acl owner).2 []
      (m.insertNode parent path data acl owner).1.fired :=
  nodes_executes _ _ |>.trans (fireData_executes _ _ rfl) |>.trans (fireChild_executes _ _ rfl)

theorem removeNode_executes {path : String} :
    Executes m (m.removeNode path).2 [] (m.removeNode path).1.fired := by
  have h := nodes_executes (m := m)
    ((m.nodes.erase path).modify ((Path.parent? path).getD "/") (Node.childDeleted (m.zxid + 1)))
    (m.zxid + 1)
  have h₁ := h.trans (fireData_executes .deleted path rfl)
  have h₂ := h₁.trans (fireChild_executes .deleted path rfl)
  exact h₂.trans (fireChild_executes .child _ rfl)

theorem create_executes {path : String} {data : ByteArray} {acl : List Acl} {flags : Nat} :
    Executes m (m.create path data acl flags).2 [] (m.create path data acl flags).1.fired := by
  simp only [create]
  split
  case h_1 => exact .refl
  case h_2 parent _ =>
    split
    case h_1 => exact .refl
    case h_2 node _ =>
      split
      case isTrue => exact .refl
      case isFalse =>
        by_cases hs : flags &&& createSequence ≠ 0
        case pos =>
          simp only [if_pos hs]
          split
          case isTrue  => exact nodes_executes _ m.zxid
          case isFalse => exact nodes_executes _ m.zxid |>.trans insertNode_executes
        case neg =>
          simp only [if_neg hs]
          split
          case isTrue  => exact .refl
          case isFalse => exact insertNode_executes

theorem delete_executes {path : String} {version : Int} :
    Executes m (m.delete path version).2 [] (m.delete path version).1.fired := by
  simp only [delete]
  repeat' split
  all_goals first | exact .refl | exact removeNode_executes

theorem set_executes {path : String} {data : ByteArray} {version : Int} :
    Executes m (m.set path data version).2 [] (m.set path data version).1.fired := by
  simp only [set]
  repeat' split
  all_goals first | exact .refl | exact (nodes_executes _ _).trans (fireData_executes _ _ rfl)

theorem setAcl_executes {path : String} {acl : List Acl} {version : Int} :
    Executes m (m.setAcl path acl version).2 [] (m.setAcl path acl version).1.fired := by
  simp only [setAcl]
  repeat' split
  all_goals first | exact .refl | exact nodes_executes _ m.zxid

-- The one place where the service decides whether a read sets its watch.
theorem execute_executes (id : RequestId) (op : Operation) :
    Executes m (m.execute id op).2 (if op.setsWatch (m.execute id op).1.rc then [id] else [])
      (m.execute id op).1.fired := by
  cases op
  case get path watch =>
    rcases (m.nodes[m.fullPath path]?).eq_none_or_eq_some with h | ⟨node, h⟩ <;>
      simp only [execute, get, h] <;> cases watch
    case inr.true => exact watchData_executes
    all_goals exact .refl
  case «exists» path watch =>
    rcases (m.nodes[m.fullPath path]?).eq_none_or_eq_some with h | ⟨node, h⟩ <;>
      simp only [execute, doesExist, h] <;> cases watch
    case inl.true | inr.true => exact watchData_executes
    all_goals exact .refl
  case getChildren path watch =>
    rcases (m.nodes[m.fullPath path]?).eq_none_or_eq_some with h | ⟨node, h⟩ <;>
      simp only [execute, getChildren, h] <;> cases watch
    case inr.true => exact watchChildren_executes
    all_goals exact .refl
  case getAcl path =>
    rcases (m.nodes[m.fullPath path]?).eq_none_or_eq_some with h | ⟨node, h⟩ <;>
      simp only [execute, getAcl, h] <;> exact .refl
  case set    => exact set_executes
  case create => exact create_executes
  case delete => exact delete_executes
  case setAcl => exact setAcl_executes

end Memory
end Coordination
