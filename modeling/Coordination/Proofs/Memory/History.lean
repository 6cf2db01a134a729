import Coordination.Proofs.Memory.Census
import Coordination.Proofs.Memory.Footprint

namespace Coordination

open Coordination.Path

-- Whether the operation only looks at nodes.
def Operation.isRead : Operation → Bool
  | get .. | .exists .. | getChildren .. | getAcl .. => true
  | _ => false

inductive Happening where
  -- An operation got through, on a full path.
  | answered (op : Operation) (full : String) (outcome : Memory.Outcome)
  -- A session that began has made a node for its chroot.
  | founded (path : String)

namespace Happening

-- A node was made at the path.
def makes (path : String) : Happening → Bool
  | answered (.create ..) _ o => o.rc = .ok ∧ o.payload.string? = some path
  | answered .. => false
  | founded made => made = path

-- The data at the path was replaced.
def sets (path : String) : Happening → Bool
  | answered (.set ..) full o => o.rc = .ok ∧ full = path
  | _ => false

def setsAcl (path : String) : Happening → Bool
  | answered (.setAcl ..) full o => o.rc = .ok ∧ full = path
  | _ => false

-- A call made or deleted a node, and the path is the text before its last slash.
def tells (path : String) : Happening → Bool
  | answered (.create ..) _ o => o.rc = .ok ∧ o.payload.string?.bind parent? = some path
  | answered (.delete ..) full o => o.rc = .ok ∧ parent? full = some path
  | _ => false

-- A sequence create below the path was given a number, if only to find that its name is taken.
def numbers (path : String) : Happening → Bool
  | answered (.create _ _ _ flags) full o =>
    flags &&& createSequence ≠ 0 ∧ (o.rc = .ok ∨ o.rc = .nodeExists) ∧ parent? full = some path
  | _ => false

-- A transaction was carried out.
def commits : Happening → Bool
  | answered (.create ..) _ o | answered (.set ..) _ o | answered (.delete ..) _ o => o.rc = .ok
  | answered .. => false
  | founded _ => true

-- The path that a sequence create below `parent` asked for, and the one that it was given.
def grant? (parent : String) : Happening → Option (String × String)
  | answered (.create _ _ _ flags) full o =>
    if flags &&& createSequence ≠ 0 ∧ o.rc = .ok ∧ parent? full = some parent then
      o.payload.string?.map (full, ·)
    else none
  | _ => none

variable {e : Happening} {path : String}

theorem commits_of_makes (h : e.makes path) : e.commits := by
  cases e
  case founded => rfl
  case answered op full o =>
    cases op <;> simp_all [makes, commits]

theorem numbers_of_grant? {grant : String × String} (h : e.grant? path = some grant) :
    e.numbers path := by
  cases e
  case founded => cases h
  case answered op full o =>
    cases op
    case create =>
      have ⟨hs, hr, hp⟩ := (Option.ite_none_right_eq_some.mp h).left
      exact decide_eq_true ⟨hs, .inl hr, hp⟩
    all_goals cases h

end Happening

-- What has happened since the node at the path was made.
def life (path : String) (log : List Happening) : List Happening :=
  log.foldl (fun life e => if e.makes path then [] else life ++ [e]) []

@[simp] theorem life_concat (path : String) (log : List Happening) (e : Happening) :
    life path (log ++ [e]) = if e.makes path then [] else life path log ++ [e] := by
  simp [life]

namespace Memory

-- What a step makes happen.
def history (step : ServiceStep) (m : Memory) : List Happening :=
  match step with
  | .init text _ =>
    match Target.parse text with
    | .error _ => []
    | .ok target => (m.founded target).map .founded
  | .call id call =>
    (m.outcome? id call).toList.map (.answered call.op (m.fullPath call.op.path))
  | _ => []

def historyAt : List (Int × ServiceStep) → Memory → List Happening
  | [], _ => []
  | (now, step) :: rest, m =>
    (m.tick now).history step ++ historyAt rest ((m.tick now).perform step).2

end Memory

-- A node stays, and is changed by what the happening tells of its path. The transaction, if it is
-- one, has the number `zxid`.
structure Node.Advances (e : Happening) (path : String) (zxid : Int) (n n' : Node) : Prop where
  czxid        : n'.stat.czxid = n.stat.czxid
  mzxid        : n'.stat.mzxid = if e.sets path then zxid else n.stat.mzxid
  pzxid        : n'.stat.pzxid = if e.tells path then zxid else n.stat.pzxid
  version      : n'.stat.version = n.stat.version + (e.sets path).toNat
  aversion     : n'.stat.aversion = n.stat.aversion + (e.setsAcl path).toNat
  cversion     : n'.stat.cversion = n.stat.cversion + (e.tells path).toNat
  data         : e.sets path = false → n'.data = n.data
  dataLength   : n.stat.dataLength = n.data.size → n'.stat.dataLength = n'.data.size
  nextSequence : n'.nextSequence = n.nextSequence + (e.numbers path).toNat

namespace Happening

-- Nothing is told of any path.
structure IsIdle (e : Happening) (path : String) : Prop where
  sets    : e.sets path = false
  setsAcl : e.setsAcl path = false
  tells   : e.tells path = false
  numbers : e.numbers path = false

theorem IsIdle.advances {e : Happening} {path : String} {zxid : Int} {n : Node}
    (h : e.IsIdle path) : n.Advances e path zxid n := by
  constructor <;> simp [h.sets, h.setsAcl, h.tells, h.numbers]

-- The nodes before a happening and after it, each with the number of the last transaction.
structure Changes (e : Happening) (t : Tree) (zxid : Int) (t' : Tree) (zxid' : Int) : Prop where
  zxid    : zxid' = zxid + e.commits.toNat
  made    : ∀ path, e.makes path → t[path]? = none ∧
    ∃ data acl owner now, t'[path]? = some (.new data acl zxid' owner now)
  kept    : ∀ (path : String) node', e.makes path = false → t'[path]? = some node' →
    ∃ node, t[path]? = some node ∧ node.Advances e path zxid' node'
  granted : ∀ path grant, e.grant? path = some grant → ∃ node,
    t[path]? = some node ∧ grant.2 = withSequence grant.1 node.nextSequence

namespace Changes

variable {e : Happening} {t t' : Tree} {zxid : Int} {op : Operation} {full p q : String}
  {o : Memory.Outcome} {n n' node' : Node}

theorem of_idle (made : ∀ path, e.makes path = false) (commits : e.commits = false)
    (idle : ∀ path, e.IsIdle path) : e.Changes t zxid t zxid where
  zxid := by simp [commits]
  made path h := by simp [made] at h
  kept path node' _ h := ⟨node', h, (idle path).advances⟩
  granted path grant h := by
    have hn := numbers_of_grant? h
    simp [(idle path).numbers] at hn

-- A refusal, but for that of a sequence node whose name is taken.
theorem of_refused (hr : o.rc ≠ .ok) (hn : op.isSequence → o.rc ≠ .nodeExists) :
    (answered op full o).Changes t zxid t zxid := by
  refine of_idle (fun path => ?_) ?_ fun path => ?_
  case refine_1 => cases op <;> simp [makes, hr]
  case refine_2 => cases op <;> simp [commits, hr]
  case refine_3 =>
    constructor
    case numbers =>
      cases op
      case create => simp_all [numbers, Operation.isSequence]
      all_goals rfl
    all_goals cases op <;> simp [sets, setsAcl, tells, hr]

-- What is told of one path only.
theorem keeps (hq : t'[q]? = some node') (told : t'[q]? = if q = p then some n' else t[q]?)
    (found : t[p]? = some n) (advances : n.Advances e p zxid n') (idle : q ≠ p → e.IsIdle q) :
    ∃ node, t[q]? = some node ∧ node.Advances e q zxid node' := by
  rw [told] at hq
  split at hq
  case isTrue hp  => cases hq; exact ⟨n, hp ▸ found, hp ▸ advances⟩
  case isFalse hp => exact ⟨node', hq, (idle hp).advances⟩

section

variable {m : Memory} {id : RequestId} {path : String} {data : ByteArray} {acl : List Acl}
  {version : Int} {flags : Nat} {c : Contents}

theorem set (h : Memory.Footprint id (.set path data version) m o c) :
    Changes (answered (.set path data version) (m.fullPath path) o) m.nodes m.zxid c.nodes
      c.zxid := by
  by_cases hr : o.rc = .ok
  case neg =>
    obtain ⟨_, rfl⟩ := h.refused hr
    exact .of_refused hr nofun
  case pos =>
    obtain ⟨node, found, told, hc⟩ := h.served hr
    have zxid : c.zxid = m.zxid + 1 := congrArg Contents.zxid hc
    constructor
    case zxid => simp [commits, hr, zxid]
    case made => exact fun _ h => nomatch h
    case granted => exact fun _ _ h => nomatch h
    case kept =>
      intro q node' _ hq
      refine keeps hq (told q) found ?_ fun hp => ⟨?_, rfl, rfl, rfl⟩
      case refine_1 => constructor <;> simp [sets, setsAcl, tells, numbers, hr, zxid]
      case refine_2 => simp [sets, Ne.symm hp]

theorem setAcl (h : Memory.Footprint id (.setAcl path acl version) m o c) :
    Changes (answered (.setAcl path acl version) (m.fullPath path) o) m.nodes m.zxid c.nodes
      c.zxid := by
  by_cases hr : o.rc = .ok
  case neg =>
    obtain ⟨_, rfl⟩ := h.refused hr
    exact .of_refused hr nofun
  case pos =>
    obtain ⟨node, found, told, hc⟩ := h.served hr
    have zxid : c.zxid = m.zxid := congrArg Contents.zxid hc
    constructor
    case zxid    => simp [commits, zxid]
    case made    => exact fun _ h => nomatch h
    case granted => exact fun _ _ h => nomatch h
    case kept =>
      intro q node' _ hq
      refine keeps hq (told q) found ?_ fun hp => ⟨rfl, ?_, rfl, rfl⟩
      case refine_1 => constructor <;> simp [sets, setsAcl, tells, numbers, hr]
      case refine_2 => simp [setsAcl, Ne.symm hp]

-- A number is given out, but the name with it is taken.
theorem counted (hr : o.rc = .nodeExists) (hs : flags &&& createSequence ≠ 0)
    (h : m.Refused id o.rc c (.create path data acl flags)) :
    Changes (answered (.create path data acl flags) (m.fullPath path) o) m.nodes m.zxid c.nodes
      c.zxid := by
  rw [Memory.Refused, if_pos ⟨hs, hr⟩] at h
  obtain ⟨parent, node, isParent, found, told, hc⟩ := h
  have zxid : c.zxid = m.zxid := congrArg Contents.zxid hc
  constructor
  case zxid    => simp [commits, hr, zxid]
  case made    => simp [makes, hr]
  case granted => simp [grant?, hr]
  case kept =>
    intro q node' _ hq
    refine keeps hq (told q) found ?_ fun hp => ⟨rfl, rfl, ?_, ?_⟩
    case refine_1 => constructor <;> simp [sets, setsAcl, tells, numbers, hr, hs, isParent]
    case refine_2 => simp [tells, hr]
    case refine_3 => simp [numbers, isParent, Ne.symm hp]

theorem created (hr : o.rc = .ok) (h : m.Served id o.payload c (.create path data acl flags)) :
    Changes (answered (.create path data acl flags) (m.fullPath path) o) m.nodes m.zxid c.nodes
      c.zxid := by
  obtain ⟨parent, node, created, isParent, found, absent, named, hp, told, hc⟩ := h
  have zxid : c.zxid = m.zxid + 1 := congrArg Contents.zxid hc
  have hs : o.payload.string? = some created := by rw [hp]; rfl
  have isParent' : parent? created = some parent := by
    rw [named]
    split
    case isTrue  => rw [parent?_withSequence (exists_slash isParent), isParent]
    case isFalse => exact isParent
  constructor
  case zxid    => simp [commits, hr, zxid]
  case made =>
    intro q hq
    have hq : created = q := by simpa [makes, hr, hs] using hq
    subst hq
    exact ⟨absent, _, _, _, _, by rw [told, if_pos rfl, zxid]⟩
  case granted =>
    intro q grant hg
    obtain ⟨⟨hf, _, hq⟩, hg⟩ := Option.ite_none_right_eq_some.mp hg
    rw [hs] at hg
    cases hg
    cases hq.symm.trans isParent
    rw [if_pos hf] at named
    exact ⟨node, found, named⟩
  case kept =>
    intro q node' hm hq
    have other : q ≠ created := fun he => by simp [makes, hr, hs, he] at hm
    refine keeps hq ((told q).trans (if_neg other)) found ?_ fun hp => ⟨rfl, rfl, ?_, ?_⟩
    case refine_1 =>
      constructor
      case nextSequence => by_cases hf : flags &&& createSequence ≠ 0 <;> simp [numbers, hr, hf, isParent]
      all_goals simp [sets, setsAcl, tells, hr, hs, isParent', zxid]
    case refine_2 => simp [tells, hs, isParent', Ne.symm hp]
    case refine_3 => simp [numbers, isParent, Ne.symm hp]

theorem create (h : Memory.Footprint id (.create path data acl flags) m o c) :
    Changes (answered (.create path data acl flags) (m.fullPath path) o) m.nodes m.zxid c.nodes
      c.zxid := by
  by_cases hr : o.rc = .ok
  case pos => exact created hr (h.served hr)
  case neg =>
    have ⟨_, refused⟩ := h.refused hr
    by_cases hn : flags &&& createSequence ≠ 0 ∧ o.rc = .nodeExists
    case pos => exact counted hn.right hn.left refused
    case neg =>
      rw [Memory.Refused, if_neg hn] at refused
      subst refused
      exact .of_refused hr fun hs he => hn ⟨of_decide_eq_true hs, he⟩

theorem delete (h : Memory.Footprint id (.delete path version) m o c)
    (slashed : ∀ path ∈ m.nodes, '/' ∈ path.toList) :
    Changes (answered (.delete path version) (m.fullPath path) o) m.nodes m.zxid c.nodes
      c.zxid := by
  by_cases hr : o.rc = .ok
  case neg =>
    obtain ⟨_, rfl⟩ := h.refused hr
    exact .of_refused hr nofun
  case pos =>
    obtain ⟨found, told, hc⟩ := h.served hr
    have zxid : c.zxid = m.zxid + 1 := congrArg Contents.zxid hc
    have ⟨parent, isParent⟩ := exists_parent (slashed _ found)
    rw [isParent, Option.getD_some] at told
    constructor
    case zxid    => simp [commits, hr, zxid]
    case made    => exact fun _ h => nomatch h
    case granted => exact fun _ _ h => nomatch h
    case kept =>
      intro q node' _ hq
      have other : q ≠ m.fullPath path := fun he => by simp [told, he] at hq
      rw [told, if_neg other] at hq
      split at hq
      case isTrue hp =>
        have ⟨node, hn, hn'⟩ := Option.map_eq_some_iff.mp hq
        refine ⟨node, hn, ?_⟩
        subst hn'
        constructor <;> simp [sets, setsAcl, tells, numbers, hr, hp, isParent, zxid]
      case isFalse hp =>
        refine ⟨node', hq, IsIdle.advances ⟨rfl, rfl, ?_, rfl⟩⟩
        simp [tells, isParent, Ne.symm hp]

theorem read (h : Memory.Footprint id op m o c) (hr : op.isRead) :
    Changes (answered op (m.fullPath op.path) o) m.nodes m.zxid c.nodes c.zxid := by
  have same : c.nodes = m.nodes ∧ c.zxid = m.zxid := by
    by_cases ok : o.rc = .ok
    case pos =>
      have served := h.served ok
      cases op
      case set | create | delete | setAcl => cases hr
      all_goals
        obtain rfl : c = _ := served
        exact ⟨rfl, rfl⟩
    case neg =>
      have refused := (h.refused ok).right
      cases op
      case set | create | delete | setAcl => cases hr
      all_goals
        obtain rfl : c = _ := refused
        exact ⟨rfl, rfl⟩
  rw [same.left, same.right]
  cases op
  case set | create | delete | setAcl => cases hr
  all_goals exact of_idle (fun _ => rfl) rfl fun _ => ⟨rfl, rfl, rfl, rfl⟩

end

end Changes
end Happening

namespace Memory

theorem execute_changes {m : Memory} (id : RequestId) (op : Operation)
    (slashed : ∀ path ∈ m.nodes, '/' ∈ path.toList) :
    (Happening.answered op (m.fullPath op.path) (m.execute id op).1).Changes m.nodes m.zxid
      (m.execute id op).2.nodes (m.execute id op).2.zxid := by
  have h := m.execute_footprint id op
  cases op
  case set    => exact .set h
  case setAcl => exact .setAcl h
  case create => exact .create h
  case delete => exact .delete h slashed
  all_goals exact .read h rfl

end Memory

-- From a tree to a later one: happening after happening, and now and then a session begins and
-- nodes of the last one go without a word.
inductive Tree.Evolves (t : Tree) (zxid : Int) : List Happening → Tree → Int → Prop
  | refl : Evolves t zxid [] t zxid
  | sweep {log : List Happening} {t' : Tree} {zxid' : Int} (h : Evolves t zxid log t' zxid') :
    Evolves t zxid log t'.sweep zxid'
  | step {log : List Happening} {e : Happening} {t' t'' : Tree} {zxid' zxid'' : Int}
    (h : Evolves t zxid log t' zxid') (changes : e.Changes t' zxid' t'' zxid'') :
    Evolves t zxid (log ++ [e]) t'' zxid''

namespace Tree.Evolves

variable {t t' t'' : Tree} {zxid zxid' zxid'' : Int} {log log' : List Happening}

theorem trans (h : Evolves t zxid log t' zxid') (h' : Evolves t' zxid' log' t'' zxid'') :
    Evolves t zxid (log ++ log') t'' zxid'' := by
  induction h'
  case refl                 => exact (List.append_nil log).symm ▸ h
  case sweep _ ih           => exact ih.sweep
  case step _ _ changes ih  => exact List.append_assoc .. ▸ ih.step changes

theorem zxid_eq (h : Evolves t zxid log t' zxid') : zxid' = zxid + log.countP (·.commits) := by
  induction h
  case refl       => simp
  case sweep ih   => exact ih
  case step e _ _ _ _ _ changes ih =>
    rw [changes.zxid, ih, List.countP_append, List.countP_singleton]
    cases e.commits <;> simp; omega

end Tree.Evolves

namespace Memory

open Coordination.Tree (Evolves)

variable {m : Memory} {passages : List Passage}

theorem ensureNode_changes {path : String} (absent : path ∉ m.nodes) :
    (Happening.founded path).Changes m.nodes m.zxid (m.ensureNode path).nodes
      (m.ensureNode path).zxid := by
  have put (q : String) : (m.ensureNode path).nodes[q]? =
      if q = path then some (.new ByteArray.empty Acl.openUnsafe (m.zxid + 1) 0 m.clock)
      else m.nodes[q]? := by
    rw [ensureNode, if_neg absent, Tree.getElem?_put]
  have zxid : (m.ensureNode path).zxid = m.zxid + 1 := by rw [ensureNode, if_neg absent]
  constructor
  case zxid    => exact zxid
  case granted => intro _ _ h; cases h
  case made =>
    intro q hq
    obtain rfl : path = q := of_decide_eq_true hq
    exact ⟨Std.ExtTreeMap.getElem?_eq_none absent, _, _, _, _, by rw [put, if_pos rfl, zxid]⟩
  case kept =>
    intro q node' hm hq
    have other : q ≠ path := fun he => by simp [Happening.makes, he] at hm
    exact ⟨node', by rwa [put, if_neg other] at hq, Happening.IsIdle.advances ⟨rfl, rfl, rfl, rfl⟩⟩

theorem founds_evolves (paths : List String) :
    Evolves m.nodes m.zxid ((m.founds paths).map .founded)
      (paths.foldl (fun m p => m.ensureNode p) m).nodes
      (paths.foldl (fun m p => m.ensureNode p) m).zxid := by
  induction paths generalizing m
  case nil => exact .refl
  case cons path paths ih =>
    rw [List.foldl_cons, founds]
    split
    case isTrue hm =>
      have he : m.ensureNode path = m := if_pos hm
      exact he.symm ▸ ih
    case isFalse hm =>
      have h := Evolves.step .refl (ensureNode_changes hm)
      exact h.trans ih

theorem init_evolves (target : Target) :
    Evolves m.nodes m.zxid ((m.founded target).map .founded) (m.init target).nodes
      (m.init target).zxid := by
  have still := m.init_still target
  rw [still.nodes, still.zxid, prepared_eq_ensureAll, founded_eq_founds]
  have swept : Evolves m.nodes m.zxid [] (m.blank target).nodes (m.blank target).zxid :=
    .sweep .refl
  exact swept.trans (founds_evolves target.ways)

theorem issue_evolves (c : m.nodes.Census passages) (id : RequestId) (call : Call) :
    Evolves m.nodes m.zxid (m.history (.call id call)) (m.issue id call).2.nodes
      (m.issue id call).2.zxid := by
  simp only [history]
  cases hs : m.serves
  case false =>
    have still := issue_still hs id call
    rw [still.nodes, still.zxid, (issue_refused hs id call).left]
    exact .refl
  case true =>
    have still := executed_still hs id call
    have slashed : ∀ path ∈ (m.logged id call).nodes, '/' ∈ path.toList := by
      intro path hm
      have ⟨node, found⟩ := Tree.exists_node hm
      exact (c.absolute path node found).slash_mem
    have ho : m.outcome? id call = some ((m.logged id call).execute id call.op).1 := if_pos hs
    rw [still.nodes, still.zxid, ho]
    exact .step .refl <| execute_changes id call.op slashed

theorem perform_evolves (c : m.nodes.Census passages) (step : ServiceStep) :
    Evolves m.nodes m.zxid (m.history step) (m.perform step).2.nodes (m.perform step).2.zxid := by
  cases step
  case init text timeout =>
    simp only [perform, history]
    cases Target.parse text
    case error     => exact .refl
    case ok target => exact init_evolves target
  case call id call => exact issue_evolves c id call
  all_goals
    rw [(Still.perform rfl).nodes, (Still.perform rfl).zxid]
    exact .refl

theorem performAt_evolves (c : m.nodes.Census passages) (run : List (Int × ServiceStep)) :
    Evolves m.nodes m.zxid (m.historyAt run) (m.performAt run).nodes (m.performAt run).zxid := by
  induction run generalizing m passages
  case nil => exact .refl
  case cons s run ih =>
    have h := perform_evolves (m := m.tick s.1) c s.2
    exact h.trans <| ih <| perform_census (m := m.tick s.1) c s.2

end Memory
end Coordination
