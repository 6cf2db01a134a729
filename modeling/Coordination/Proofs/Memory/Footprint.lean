import Coordination.Proofs.Memory.Steps

namespace Coordination

-- What operations work on.
structure Contents where
  nodes : Tree
  zxid : Int
  dataWatches : List Watch
  childWatches : List Watch

namespace Memory

def contents (m : Memory) : Contents :=
  ⟨m.nodes, m.zxid, m.dataWatches, m.childWatches⟩

theorem Still.contents {m m' : Memory} (h : Still m m') : m'.contents = m.contents := by
  simp only [Memory.contents, h.nodes, h.zxid, h.dataWatches, h.childWatches]

-- What there is after an operation that was refused.
def Refused (id : RequestId) (rc : ResultCode) (m : Memory) (c : Contents) : Operation → Prop
  | .exists path watch =>
    c = { m.contents with
      dataWatches := m.dataWatches ++
        if watch ∧ rc = .noNode then [⟨m.fullPath path, id⟩] else [] }
  | .create path _ _ flags =>
    -- The number was given out, but the name with it is taken.
    if flags &&& createSequence ≠ 0 ∧ rc = .nodeExists then
      ∃ parent node, Path.parent? (m.fullPath path) = some parent ∧
        m.nodes[parent]? = some node ∧
        (∀ q : String, c.nodes[q]? =
          if q = parent then some { node with nextSequence := node.nextSequence + 1 }
          else m.nodes[q]?) ∧
        c = { m.contents with nodes := c.nodes }
    else c = m.contents
  | _ => c = m.contents

-- What there is after an operation that succeeded with a payload.
def Served (id : RequestId) (payload : Payload) (m : Memory) (c : Contents) : Operation → Prop
  | .get path watch | .exists path watch =>
    c = { m.contents with
      dataWatches := m.dataWatches ++ if watch then [⟨m.fullPath path, id⟩] else [] }
  | .getChildren path watch =>
    c = { m.contents with
      childWatches := m.childWatches ++ if watch then [⟨m.fullPath path, id⟩] else [] }
  | .getAcl _ => c = m.contents
  | .set path data _ =>
    let full := m.fullPath path
    ∃ node, m.nodes[full]? = some node ∧
      (∀ q : String, c.nodes[q]? =
        if q = full then
          some { node with
            data := data
            stat.dataLength := data.size
            stat.version := node.stat.version + 1
            stat.mzxid := m.zxid + 1
            stat.mtime := m.clock }
        else m.nodes[q]?) ∧
      c = ⟨c.nodes, m.zxid + 1, Watch.elsewhere full m.dataWatches, m.childWatches⟩
  | .setAcl path acl _ =>
    let full := m.fullPath path
    ∃ node, m.nodes[full]? = some node ∧
      (∀ q : String, c.nodes[q]? =
        if q = full then some { node with acl := acl, stat.aversion := node.stat.aversion + 1 }
        else m.nodes[q]?) ∧
      c = { m.contents with nodes := c.nodes }
  | .create path data acl flags =>
    let isSequence := flags &&& createSequence ≠ 0
    ∃ parent node created, Path.parent? (m.fullPath path) = some parent ∧
      m.nodes[parent]? = some node ∧ m.nodes[created]? = none ∧
      created = (if isSequence then Path.withSequence (m.fullPath path) node.nextSequence
        else m.fullPath path) ∧
      payload = .string (some created) ∧
      (∀ q : String, c.nodes[q]? =
        if q = created then
          let owner := if flags &&& createEphemeral ≠ 0 then m.sessionId else 0
          some (.new data acl (m.zxid + 1) owner m.clock)
        else if q = parent then
          some { node with
            nextSequence := node.nextSequence + if isSequence then 1 else 0
            stat.cversion := node.stat.cversion + 1
            stat.numChildren := node.stat.numChildren + 1
            stat.pzxid := m.zxid + 1 }
        else m.nodes[q]?) ∧
      c = ⟨c.nodes, m.zxid + 1, Watch.elsewhere created m.dataWatches,
        Watch.elsewhere parent m.childWatches⟩
  | .delete path _ =>
    let full := m.fullPath path
    let parent := (Path.parent? full).getD "/"
    full ∈ m.nodes ∧
      (∀ q : String, c.nodes[q]? =
        if q = full then none
        else if q = parent then
          m.nodes[q]?.map fun node => { node with
            stat.cversion := node.stat.cversion + 1
            stat.numChildren := node.stat.numChildren - 1
            stat.pzxid := m.zxid + 1 }
        else m.nodes[q]?) ∧
      c = ⟨c.nodes, m.zxid + 1, Watch.elsewhere full m.dataWatches,
        Watch.elsewhere parent (Watch.elsewhere full m.childWatches)⟩

structure Footprint (id : RequestId) (op : Operation) (m : Memory) (outcome : Outcome)
    (c : Contents) : Prop where
  refused : outcome.rc ≠ .ok → outcome.fired = [] ∧ m.Refused id outcome.rc c op
  served  : outcome.rc = .ok → m.Served id outcome.payload c op

namespace Footprint

variable {m : Memory} {id : RequestId} {op : Operation} {c : Contents} {rc : ResultCode}
  {payload : Payload} {fired : List WatchEvent} {path : String} {data : ByteArray} {acl : List Acl}

theorem of_refused (hr : rc ≠ .ok) (h : m.Refused id rc c op) :
    Footprint id op m ⟨rc, payload, []⟩ c :=
  ⟨fun _ => ⟨rfl, h⟩, fun ho => absurd ho hr⟩

theorem of_served (h : m.Served id payload c op) : Footprint id op m ⟨.ok, payload, fired⟩ c :=
  ⟨fun hr => absurd rfl hr, fun _ => h⟩

theorem get {watch : Bool} :
    Footprint id (.get path watch) m (m.get id path watch).1
      (m.get id path watch).2.contents := by
  simp only [Memory.get]
  split
  case h_1 => exact of_refused (by decide) rfl
  case h_2 =>
    refine of_served ?_
    cases watch
    case false => simp [Served, contents]
    case true  => rfl

theorem doesExist {watch : Bool} :
    Footprint id (.exists path watch) m (m.doesExist id path watch).1
      (m.doesExist id path watch).2.contents := by
  simp only [Memory.doesExist]
  split
  case h_1 =>
    refine of_refused (by decide) ?_
    cases watch
    case false => simp [Refused, contents]
    case true  => rfl
  case h_2 =>
    refine of_served ?_
    cases watch
    case false => simp [Served, contents]
    case true  => rfl

theorem getChildren {watch : Bool} :
    Footprint id (.getChildren path watch) m (m.getChildren id path watch).1
      (m.getChildren id path watch).2.contents := by
  simp only [Memory.getChildren]
  split
  case h_1 => exact of_refused (by decide) rfl
  case h_2 =>
    refine of_served ?_
    cases watch
    case false => simp [Served, contents]
    case true  => rfl

theorem getAcl : Footprint id (.getAcl path) m (m.getAcl path).1 (m.getAcl path).2.contents := by
  simp only [Memory.getAcl]
  split
  case h_1 => exact of_refused (by decide) rfl
  case h_2 => exact of_served rfl

theorem set {version : Int} :
    Footprint id (.set path data version) m (m.set path data version).1
      (m.set path data version).2.contents := by
  simp only [Memory.set]
  split
  case h_1 => exact of_refused (by decide) rfl
  case h_2 node found =>
    split
    case isTrue  => exact of_refused (by decide) rfl
    case isFalse => exact of_served ⟨node, found, fun _ => Tree.getElem?_put, rfl⟩

theorem setAcl {version : Int} :
    Footprint id (.setAcl path acl version) m (m.setAcl path acl version).1
      (m.setAcl path acl version).2.contents := by
  simp only [Memory.setAcl]
  split
  case h_1 => exact of_refused (by decide) rfl
  case h_2 node found =>
    split
    case isTrue  => exact of_refused (by decide) rfl
    case isFalse => exact of_served ⟨node, found, fun _ => Tree.getElem?_put, rfl⟩

-- A refusal that gives no number out.
theorem of_create_refused {flags : Nat} (hr : rc ≠ .ok)
    (hn : flags &&& createSequence ≠ 0 → rc ≠ .nodeExists) :
    Footprint id (.create path data acl flags) m ⟨rc, payload, []⟩ m.contents :=
  of_refused hr (by rw [Refused, if_neg fun h => hn h.left h.right])

-- The parent of what is made has given out a number by then, if one was asked for.
theorem insertNode {flags : Nat} {parent created : String} {node : Node} {t : Tree} {owner : Int}
    (isParent : Path.parent? (m.fullPath path) = some parent)
    (found : m.nodes[parent]? = some node)
    (counted : ∀ q : String, t[q]? =
      if q = parent then
        some { node with
          nextSequence := node.nextSequence + if flags &&& createSequence ≠ 0 then 1 else 0 }
      else m.nodes[q]?)
    (named : created = if flags &&& createSequence ≠ 0 then
      Path.withSequence (m.fullPath path) node.nextSequence else m.fullPath path)
    (absent : t[created]? = none)
    (owned : owner = if flags &&& createEphemeral ≠ 0 then m.sessionId else 0) :
    Footprint id (.create path data acl flags) m
      ({ m with nodes := t }.insertNode parent created data acl owner).1
      ({ m with nodes := t }.insertNode parent created data acl owner).2.contents := by
  have other : created ≠ parent := by
    rintro rfl
    rw [counted, if_pos rfl] at absent
    cases absent
  refine of_served ⟨parent, node, created, isParent, found, ?_, named, rfl, fun q => ?_, rfl⟩
  · rw [← absent, counted, if_neg other]
  · simp only [Memory.contents, Memory.insertNode, fireData, fireChild]
    rw [Tree.getElem?_change, Tree.getElem?_put, counted, ← owned]
    by_cases hp : q = parent
    case pos => subst hp; simp only [if_neg other.symm, if_true]; rfl
    case neg => simp only [if_neg hp]

theorem create {flags : Nat} :
    Footprint id (.create path data acl flags) m (m.create path data acl flags).1
      (m.create path data acl flags).2.contents := by
  simp only [Memory.create]
  split
  case h_1 => exact of_create_refused (by decide) fun _ => by decide
  case h_2 parent isParent =>
    split
    case h_1 => exact of_create_refused (by decide) fun _ => by decide
    case h_2 node found =>
      split
      case isTrue => exact of_create_refused (by decide) fun _ => by decide
      case isFalse =>
        by_cases hs : flags &&& createSequence ≠ 0
        case pos =>
          simp only [if_pos hs]
          split
          case isTrue =>
            refine of_refused (by decide) ?_
            rw [Refused, if_pos ⟨hs, rfl⟩]
            exact ⟨parent, node, isParent, found, fun _ => Tree.getElem?_put, rfl⟩
          case isFalse absent =>
            refine insertNode isParent found (fun q => ?_) (if_pos hs).symm
              (Std.ExtTreeMap.getElem?_eq_none absent) rfl
            rw [Tree.getElem?_put, if_pos hs]
        case neg =>
          simp only [if_neg hs]
          split
          case isTrue => exact of_create_refused (by decide) fun h => absurd h hs
          case isFalse absent =>
            refine insertNode isParent found (fun q => ?_) (if_neg hs).symm
              (Std.ExtTreeMap.getElem?_eq_none absent) rfl
            rw [if_neg hs]
            split
            case isTrue h => exact h ▸ found
            case isFalse  => rfl

theorem delete {version : Int} :
    Footprint id (.delete path version) m (m.delete path version).1
      (m.delete path version).2.contents := by
  simp only [Memory.delete]
  split
  case isTrue  => exact of_refused (by decide) rfl
  case isFalse =>
    split
    case h_1 => exact of_refused (by decide) rfl
    case h_2 node found =>
      split
      case isTrue  => exact of_refused (by decide) rfl
      case isFalse =>
        split
        case isTrue  => exact of_refused (by decide) rfl
        case isFalse =>
          refine of_served ⟨Tree.mem_of_found found, fun q => ?_, rfl⟩
          simp only [Memory.contents, Memory.removeNode, fireData, fireChild]
          rw [Tree.getElem?_change, Tree.getElem?_drop]
          split <;> split <;> rfl

end Footprint

theorem execute_footprint (m : Memory) (id : RequestId) (op : Operation) :
    Footprint id op m (m.execute id op).1 (m.execute id op).2.contents := by
  cases op
  case get         => exact .get
  case «exists»    => exact .doesExist
  case getChildren => exact .getChildren
  case getAcl      => exact .getAcl
  case set         => exact .set
  case create      => exact .create
  case delete      => exact .delete
  case setAcl      => exact .setAcl

-- A call that gets through leaves what its operation leaves, and puts nothing on the stream but
-- the events this sets off and, after them, its own answer.
theorem issue_footprint {m : Memory} (h : m.serves) (id : RequestId) (call : Call) :
    ∃ outcome, m.outcome? id call = some outcome ∧
      (m.issue id call).1 = .ok (call.result outcome) ∧
      Emits m
        (outcome.fired.map .watch ++ if m.holding then [] else call.answer id outcome)
        (m.issue id call).2 ∧
      Footprint id call.op m outcome (m.issue id call).2.contents := by
  have ⟨ho, hs⟩ := isOpen_of_serves h
  have hm : m.outcome? id call = some ((m.logged id call).execute id call.op).1 := if_pos h
  have he := Emits.issue (m := m) id call
  simp only [emission, hm] at he
  refine ⟨_, hm, by rw [issue_eq ho hs], he, ?_⟩
  have still := Still.of_talks (Talks.answered (m := ((m.logged id call).execute id call.op).2) id
    call ((m.logged id call).execute id call.op).1)
  have fp := (m.logged id call).execute_footprint id call.op
  rw [issue_eq ho hs]
  exact still.contents ▸ ⟨fp.refused, fp.served⟩

-- The first number below the root is taken by a node that was named by hand.
def numberTaken : Memory :=
  let m := (new 0).init ⟨"localhost:2181", ["localhost:2181"], none⟩
  (m.issue ⟨1⟩ ⟨.create "/n0000000000" ByteArray.empty Acl.openUnsafe 0, .sync⟩).2

def numbering : Call :=
  ⟨.create "/n" ByteArray.empty Acl.openUnsafe createSequence, .async⟩

theorem issue_footprint_numbering :
    numberTaken.serves ∧ ∃ outcome, numberTaken.outcome? ⟨2⟩ numbering = some outcome ∧
      outcome.rc = .nodeExists ∧ outcome.fired = [] ∧
      numberTaken.Refused ⟨2⟩ .nodeExists (numberTaken.issue ⟨2⟩ numbering).2.contents
        numbering.op := by
  have serves : numberTaken.serves := by decide +kernel
  have ⟨outcome, ho, _, _, footprint⟩ := issue_footprint serves ⟨2⟩ numbering
  have taken : (numberTaken.outcome? ⟨2⟩ numbering).map (·.rc) = some .nodeExists := by
    decide +kernel
  rw [ho, Option.map_some, Option.some_inj] at taken
  have ⟨fired, refused⟩ := footprint.refused (by rw [taken]; decide)
  exact ⟨serves, outcome, ho, taken, fired, taken ▸ refused⟩

end Memory
end Coordination
