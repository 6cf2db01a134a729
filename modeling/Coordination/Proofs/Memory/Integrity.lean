import Coordination.Proofs.Memory.Census
import Coordination.Proofs.Memory.Seat

namespace Coordination

open Coordination.Path

-- The chroot of a target that is read, or where a call goes.
def ServiceStep.named : ServiceStep → List String
  | init text _ =>
    match Target.parse text with
    | .error _ => []
    | .ok target => target.chroot.toList
  | call _ c => [c.op.path]
  | _ => []

def ServiceStep.IsRegular (step : ServiceStep) : Prop :=
  ∀ path ∈ step.named, Path.IsRegular path

instance ServiceStep.decidableIsRegular (step : ServiceStep) : Decidable step.IsRegular :=
  inferInstanceAs <| Decidable <| ∀ path ∈ step.named, Path.IsRegular path

theorem Path.IsRegular.parent {path parent : String} (h : IsRegular path)
    (hp : parent? path = some parent) : IsRegular parent := by
  cases h.eq_root_or_concat
  case inl hr =>
    subst hr
    cases hp
    rfl
  case inr hc =>
    have ⟨a, s, ha, hs, he⟩ := hc
    rw [he, parent?_join hs.right] at hp
    cases hp
    exact isRegular_join ha

namespace Seat

-- A target that was read has a seat, unless its chroot has an empty segment.
theorem exists_of_parse {text : String} {target : Target} (h : Target.parse text = .ok target)
    (hr : ∀ root ∈ target.chroot, IsRegular root) : ∃ s : Seat, s.target = target := by
  cases hc : target.chroot
  case none => exact ⟨⟨target, [], proper_nil, hc⟩, rfl⟩
  case some root =>
    have hr : IsRegular root := hr root hc
    have hn : segments root ≠ [] := (Target.isRoot_of_parse h hc).segments_ne_nil hr
    exact ⟨⟨target, segments root, proper_segments root, by rw [if_neg hn, hc, hr]⟩, rfl⟩

theorem fullPath_isRegular (s : Seat) {path : String} (h : IsRegular path) :
    IsRegular (s.target.fullPath path) := by
  have ⟨a, ha, he⟩ := h.exists_segments
  rw [he, s.fullPath ha]
  exact isRegular_join (proper_path ha)

end Seat

namespace Tree

variable {t t' : Tree} {path : String} {node : Node} {log : List Passage}

def Regular (t : Tree) : Prop :=
  ∀ path ∈ t, IsRegular path

-- There is a root, every other node has its parent, and what belongs to a session has no children:
-- none are listed, and none have it as their parent.
structure Intact (t : Tree) : Prop where
  root   : "/" ∈ t
  parent : ∀ path ∈ t, path ≠ "/" → ∃ parent ∈ t, parent? path = some parent
  leaf   : ∀ path node, t[path]? = some node → node.isEphemeral →
    t.children path = [] ∧ ∀ child ∈ t, parent? child ≠ some path

namespace Regular

theorem put (r : t.Regular) (h : IsRegular path) : Regular (t.insert path node) := by
  intro q hq
  cases mem_put.mp hq
  case inl he => exact he ▸ h
  case inr hm => exact r q hm

theorem change {f : Node → Node} (r : t.Regular) : Regular (t.modify path f) :=
  fun q hq => r q (mem_change.mp hq)

theorem drop (r : t.Regular) : Regular (t.erase path) :=
  fun q hq => r q (mem_drop.mp hq).right

theorem sweep (r : t.Regular) : t.sweep.Regular :=
  fun q hq => r q (mem_sweep.mp hq).mem

theorem found (r : t.Regular) (h : t[path]? = some node) : IsRegular path :=
  r path (mem_of_found h)

-- A path that comes right below another in the text is listed there, so the other stays.
theorem lasts_parent {parent : String} (r : t.Regular) (c : t.Census log) (h : path ∈ t)
    (hp : parent? path = some parent) : t.Lasts parent := by
  have ⟨node, hn⟩ := exists_node h
  have hr := r path h
  by_cases he : path = "/"
  case pos =>
    subst he
    cases hp
    exact c.root
  case neg => exact c.parent path node hn parent (hr.parent hp).isAbsolute (hr.lists he hp)

theorem intact (r : t.Regular) (c : t.Census log) : t.Intact := by
  constructor
  case root => exact c.root.mem
  case parent =>
    intro path hm _
    have ⟨parent, hp⟩ := exists_parent (r path hm).isAbsolute.slash_mem
    exact ⟨parent, (r.lasts_parent c hm hp).mem, hp⟩
  case leaf =>
    intro path node hn he
    have stays : ¬t.Lasts path := by
      intro ⟨node', hn', he'⟩
      cases hn.symm.trans hn'
      exact nomatch he.symm.trans he'
    constructor
    case right => exact fun child hm hp => stays (r.lasts_parent c hm hp)
    case left =>
      refine children_eq_nil.mpr fun child hm => Bool.eq_false_iff.mpr fun hl => stays ?_
      exact r.lasts_parent c hm (parent?_of_lists (r.found hn).isAbsolute hl)

end Regular
end Tree

namespace Memory

variable {m m' : Memory} {id : RequestId} {op : Operation} {call : Call} {outcome : Outcome}

theorem Course.regular (h : Course m id op (outcome, m')) (r : m.nodes.Regular)
    (hp : IsRegular (m.fullPath op.path)) : m'.nodes.Regular := by
  have numbered {parent : String} {node : Node} (isSequence : Bool)
      (found : m.nodes[parent]? = some node) : (m.numbered isSequence parent node).Regular := by
    unfold Memory.numbered
    split
    case isTrue  => exact r.put (r.found found)
    case isFalse => exact r
  cases h
  case quiet rc payload unchanged =>
    split
    case isTrue  => rw [nodes_watch]; exact r
    case isFalse => exact r
  case set                => exact r.put hp
  case setAcl             => exact r.put hp
  case counted node _ found => exact numbered true found
  case delete             => exact r.drop.change
  case create path parent full data acl flags owner node nodes isParent found _ named counted _ =>
    have hf : IsRegular full := by
      rw [named]
      split
      case isTrue  => exact hp.withSequence node.nextSequence
      case isFalse => exact hp
    have hn : nodes.Regular := counted ▸ numbered _ found
    exact (hn.put hf).change

-- Induction on the paths: each of them is regular, and so is what is there when it is made.
theorem ensureAll_regular {paths : List String} (r : m.nodes.Regular)
    (h : ∀ path ∈ paths, IsRegular path) :
    (paths.foldl (fun m p => m.ensureNode p) m).nodes.Regular := by
  induction paths generalizing m
  case nil => exact r
  case cons q paths ih =>
    have rq : (m.ensureNode q).nodes.Regular := by
      unfold ensureNode
      split
      case isTrue  => exact r
      case isFalse => exact r.put (h q List.mem_cons_self)
    exact ih rq fun path hp => h path (List.mem_cons_of_mem q hp)

-- All paths in the tree are regular, and so are those that a client can name. Its root stays.
structure Regular (m : Memory) : Prop where
  nodes  : m.nodes.Regular
  seat   : ∀ target ∈ m.target, ∃ s : Seat, s.target = target
  rooted : ∀ target ∈ m.target, m.Rooted target

-- The tree is intact, also without what goes when the next session begins, and the root of the
-- client and all that lies above it is there to stay.
structure Intact (m : Memory) : Prop where
  nodes : m.nodes.Intact
  swept : m.nodes.sweep.Intact
  ways  : ∀ target ∈ m.target, ∀ root ∈ target.chroot,
    m.nodes.Lasts root ∧ ∀ p, p <+: segments root → m.nodes.Lasts (join p)

namespace Regular

theorem still (r : m.Regular) (h : Still m m') : m'.Regular where
  nodes              := h.nodes ▸ r.nodes
  seat target ht     := r.seat target (h.target ▸ ht)
  rooted target ht   := (r.rooted target (h.target ▸ ht)).still h

theorem init {text : String} {target : Target} (r : m.Regular)
    (hp : Target.parse text = .ok target) (hc : ∀ root ∈ target.chroot, IsRegular root) :
    (m.init target).Regular := by
  have ri := Rooted.init m target
  have only {q : Target} (h : q ∈ (m.init target).target) : target = q :=
    Option.some.inj <| ri.session.symm.trans h
  constructor
  case seat   => exact fun q h => only h ▸ Seat.exists_of_parse hp hc
  case rooted => exact fun q h => only h ▸ ri
  case nodes  =>
    rw [(m.init_still target).nodes, prepared_eq_ensureAll]
    exact ensureAll_regular r.nodes.sweep fun _ => Target.isRegular_of_mem_ways

theorem fullPath (r : m.Regular) {path : String} (h : IsRegular path) :
    IsRegular (m.fullPath path) := by
  unfold Memory.fullPath
  split
  case h_1 => exact h
  case h_2 target ht =>
    have ⟨s, hs⟩ := r.seat target ht
    exact hs ▸ s.fullPath_isRegular h

theorem issue (r : m.Regular) (hp : IsRegular call.op.path) : (m.issue id call).2.Regular := by
  have ht : (m.issue id call).2.target = m.target := issue_target id call
  constructor
  case seat   => exact fun target h => r.seat target (ht ▸ h)
  case rooted => exact fun target h => (r.rooted target (ht ▸ h)).issue hp.isAbsolute
  case nodes  =>
    cases issue_cases (m := m) id call
    case inl h => exact h.right.nodes ▸ r.nodes
    case inr h =>
      have ⟨_, _, _, course, still⟩ := h
      exact still.nodes ▸ course.regular r.nodes (r.fullPath hp)

theorem perform (r : m.Regular) {step : ServiceStep} (h : step.IsRegular) :
    (m.perform step).2.Regular := by
  cases step
  case init text timeout =>
    simp only [Memory.perform]
    cases hp : Target.parse text
    case error     => exact r
    case ok target =>
      rw [ServiceStep.IsRegular, ServiceStep.named, hp] at h
      exact r.init hp fun root hc => h root (Option.mem_toList.mpr hc)
  case call id call => exact r.issue (h call.op.path List.mem_cons_self)
  all_goals exact r.still (Still.perform rfl)

theorem performAt (r : m.Regular) {run : List (Int × ServiceStep)}
    (h : ∀ s ∈ run, s.2.IsRegular) : (m.performAt run).Regular := by
  induction run generalizing m
  case nil => exact r
  case cons s run ih =>
    have rt : (m.tick s.1).Regular := r.still ⟨rfl, rfl, rfl, rfl, rfl, rfl⟩
    exact ih (rt.perform (h s List.mem_cons_self)) fun q hq => h q (List.mem_cons_of_mem s hq)

theorem new (clock : Int) : (new clock).Regular where
  nodes path hm := by
    cases Tree.mem_put.mp hm
    case inl he => exact he ▸ rfl
    case inr hm => exact absurd hm Std.ExtTreeMap.not_mem_empty
  seat   := nofun
  rooted := nofun

theorem intact {log : List Passage} (r : m.Regular) (c : m.nodes.Census log) : m.Intact where
  nodes := r.nodes.intact c
  swept := r.nodes.sweep.intact c.sweep
  ways target ht root hc := by
    have hr : IsRegular root := by
      have ⟨s, hs⟩ := r.seat target ht
      have h := s.fullPath_isRegular (rfl : IsRegular "/")
      rwa [hs, Target.fullPath_root hc] at h
    have ways (p : List (List Char)) (hp : p <+: segments root) : m.nodes.Lasts (join p) := by
      by_cases hn : p = []
      case pos => rw [hn]; exact c.root
      case neg =>
        refine (r.rooted target ht).stays _ ?_
        rw [Target.ways, hc]
        exact mem_steps.mpr ⟨p, hp, hn, rfl⟩
    exact ⟨hr ▸ ways _ (List.prefix_refl _), ways⟩

end Regular

-- Whatever regular paths a service was given, its tree is intact.
theorem performAt_intact {clock : Int} {run : List (Int × ServiceStep)}
    (regular : ∀ s ∈ run, s.2.IsRegular) : ((new clock).performAt run).Intact :=
  (Regular.new clock).performAt regular |>.intact (performAt_census (new_census clock) run)

-- A chroot, a node below it and one that goes with the session, then a session with another chroot.
def moved : List (Int × ServiceStep) := [
  (0, .init "localhost:2181/srv/app" ⟨0⟩),
  (0, .call ⟨1⟩ ⟨.create "/a" ByteArray.empty Acl.openUnsafe 0, .sync⟩),
  (0, .call ⟨2⟩ ⟨.create "/a/e" ByteArray.empty Acl.openUnsafe createEphemeral, .sync⟩),
  (0, .init "localhost:2181/srv/other" ⟨0⟩)]

theorem performAt_intact_moved :
    (∀ s ∈ moved, s.2.IsRegular) ∧ ((new 0).performAt moved).Intact ∧
      ((new 0).performAt moved).nodes.keys =
        ["/", "/srv", "/srv/app", "/srv/app/a", "/srv/other"] := by
  have regular : ∀ s ∈ moved, s.2.IsRegular := by decide +kernel
  exact ⟨regular, performAt_intact regular, by decide +kernel⟩

end Memory
end Coordination
