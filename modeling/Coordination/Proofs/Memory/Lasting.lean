import Coordination.Proofs.Memory.Steps
import Coordination.Proofs.Paths.Segments

namespace Coordination

open Coordination.Path

namespace Tree

variable {t : Tree} {p path : String} {node node' : Node}

-- There is a node that stays when a session begins.
def Lasts (t : Tree) (path : String) : Prop :=
  ∃ node, t[path]? = some node ∧ node.isEphemeral = false

-- No node belongs to a session.
def Lasting (t : Tree) : Prop :=
  ∀ path ∈ t, t.Lasts path

theorem sweep_lasting : t.sweep.Lasting := by
  intro path hm
  have ⟨node, hn⟩ := exists_node hm
  rw [getElem?_sweep] at hn
  exact ⟨node, getElem?_sweep.trans hn, by simpa using (Option.filter_eq_some_iff.mp hn).right⟩

theorem mem_sweep : path ∈ t.sweep ↔ t.Lasts path := by
  rw [mem_iff, getElem?_sweep, Option.isSome_iff_exists]
  exact exists_congr fun node => by simp [Option.filter_eq_some_iff]

namespace Lasts

theorem mem (h : t.Lasts p) : p ∈ t := by
  have ⟨_, hn, _⟩ := h
  exact mem_of_found hn

theorem put (h : t.Lasts p) (absent : t[path]? = none) : Lasts (t.insert path node) p := by
  have ⟨n, hn, he⟩ := h
  have hp : p ≠ path := fun h => nomatch (h ▸ hn).symm.trans absent
  exact ⟨n, by rw [getElem?_put, if_neg hp, hn], he⟩

theorem drop (h : t.Lasts p) (hp : p ≠ path) : Lasts (t.erase path) p := by
  have ⟨n, hn, he⟩ := h
  exact ⟨n, by rw [getElem?_drop, if_neg hp, hn], he⟩

-- Whose node it is does not change.
theorem rewrite (h : t.Lasts p) (found : t[path]? = some node)
    (he : node'.isEphemeral = node.isEphemeral) : Lasts (t.insert path node') p := by
  have ⟨n, hn, hl⟩ := h
  rw [Lasts, getElem?_put]
  split
  case isFalse => exact h
  case isTrue hp =>
    subst hp
    cases hn.symm.trans found
    exact ⟨node', rfl, he.trans hl⟩

theorem change {f : Node → Node} (h : t.Lasts p)
    (he : ∀ node, (f node).isEphemeral = node.isEphemeral) : Lasts (t.modify path f) p := by
  have ⟨n, hn, hl⟩ := h
  rw [Lasts, getElem?_change]
  split
  case isFalse => exact h
  case isTrue  => exact ⟨f n, by rw [hn]; rfl, (he n).trans hl⟩

theorem sweep (h : t.Lasts p) : t.sweep.Lasts p := by
  have ⟨n, hn, he⟩ := h
  exact ⟨n, by simp [getElem?_sweep, hn, Option.filter_some, he], he⟩

end Lasts
end Tree

namespace Memory

variable {m m' : Memory} {id : RequestId} {op : Operation} {outcome : Outcome} {p : String}

theorem nodes_watch : (m.watch id op).nodes = m.nodes := by
  cases op <;> rfl

theorem numbered_lasts {parent : String} {node : Node} {isSequence : Bool}
    (h : m.nodes.Lasts p) (found : m.nodes[parent]? = some node) :
    (m.numbered isSequence parent node).Lasts p := by
  unfold numbered
  split
  case isTrue  => exact h.rewrite found rfl
  case isFalse => exact h

theorem Course.lasts (h : Course m id op (outcome, m')) (hl : m.nodes.Lasts p)
    (kept : m.isProtected (m.fullPath op.path) = false → p ≠ m.fullPath op.path) :
    m'.nodes.Lasts p := by
  cases h
  case quiet rc payload unchanged =>
    split
    case isTrue  => rw [nodes_watch]; exact hl
    case isFalse => exact hl
  case set found replaced   => exact hl.rewrite found (replaced ▸ rfl)
  case setAcl found         => exact hl.rewrite found rfl
  case counted isParent found => exact numbered_lasts hl found
  case create isParent found lasting named counted absent =>
    have hl := counted ▸ numbered_lasts hl found
    exact (hl.put absent).change fun _ => rfl
  case delete unprotected found childless =>
    exact (hl.drop <| kept unprotected).change fun _ => rfl

section

variable {paths : List String} {q : String}

theorem mem_ensureNode : p ∈ (m.ensureNode q).nodes ↔ p = q ∨ p ∈ m.nodes := by
  unfold ensureNode
  split
  case isTrue hq => exact ⟨.inr, fun h => h.elim (fun he => he ▸ hq) id⟩
  case isFalse   => exact Tree.mem_put

theorem ensureNode_lasts (hl : m.nodes.Lasts p) (q : String) : (m.ensureNode q).nodes.Lasts p := by
  unfold ensureNode
  split
  case isTrue     => exact hl
  case isFalse hq => exact hl.put (Std.ExtTreeMap.getElem?_eq_none hq)

theorem ensureNode_lasting (hl : m.nodes.Lasting) (q : String) :
    (m.ensureNode q).nodes.Lasting := by
  intro p hm
  by_cases hp : p ∈ m.nodes
  case pos => exact ensureNode_lasts (hl p hp) q
  case neg =>
    cases (mem_ensureNode.mp hm).resolve_right hp
    unfold ensureNode
    rw [if_neg hp, Tree.Lasts, Tree.getElem?_put, if_pos rfl]
    exact ⟨_, rfl, rfl⟩

-- Every one of the paths has a node in the end, and none of these belongs to a session.
theorem ensureAll_lasts (hl : m.nodes.Lasting) (hp : p ∈ paths ∨ m.nodes.Lasts p) :
    (paths.foldl (fun m p => m.ensureNode p) m).nodes.Lasts p := by
  induction paths generalizing m
  case nil => exact hp.resolve_left List.not_mem_nil
  case cons q paths ih =>
    refine ih (ensureNode_lasting hl q) ?_
    rcases hp with hp | hp
    case inr => exact .inr <| ensureNode_lasts hp q
    case inl =>
      rcases List.mem_cons.mp hp with rfl | hp
      · exact .inr <| ensureNode_lasting hl p p (mem_ensureNode.mpr (.inl rfl))
      · exact .inl hp

theorem mem_ensureAll :
    p ∈ (paths.foldl (fun m p => m.ensureNode p) m).nodes ↔ p ∈ paths ∨ p ∈ m.nodes := by
  induction paths generalizing m
  case nil => simp
  case cons q paths ih =>
    rw [List.foldl_cons, ih, mem_ensureNode, List.mem_cons, or_left_comm, or_assoc]

theorem ensureAll_of_mem (h : ∀ p ∈ paths, p ∈ m.nodes) :
    paths.foldl (fun m p => m.ensureNode p) m = m := by
  induction paths
  case nil => rfl
  case cons q paths ih =>
    rw [List.foldl_cons, ensureNode, if_pos (h q List.mem_cons_self)]
    exact ih fun p hp => h p (List.mem_cons_of_mem _ hp)

end
end Memory

-- The paths that a session makes sure of: the root of its client and what is above it.
def Target.ways (target : Target) : List String :=
  match target.chroot with
  | none => []
  | some root => steps root

theorem Target.isRegular_of_mem_ways {target : Target} {path : String} (h : path ∈ target.ways) :
    IsRegular path := by
  unfold ways at h
  split at h
  case h_1 => cases h
  case h_2 root hc =>
    have ⟨p, hp, _, he⟩ := mem_steps.mp h
    rw [he]
    exact isRegular_join <| Proper.of_prefix (proper_segments root) hp

-- Of these, the client has a path for its root at most.
theorem Target.eq_root_of_fullPath {target : Target} {path : String} (ha : IsAbsolute path)
    (h : target.fullPath path ∈ target.ways) : path = "/" := by
  refine Decidable.byContradiction fun hn => ?_
  unfold ways at h
  split at h
  case h_1 => cases h
  case h_2 root hc =>
    have hl := length_le_of_mem_steps h
    rw [fullPath_of_ne hc hn, String.toList_ofList, List.length_append] at hl
    have ⟨rest, hp⟩ := ha.cons
    cases rest
    case nil  => exact hn <| String.toList_inj.mp hp
    case cons => simp [hp] at hl

namespace Memory

variable {m m' : Memory} {id : RequestId} {call : Call} {target : Target}

theorem prepared_eq_ensureAll (target : Target) :
    m.prepared target = target.ways.foldl (fun m p => m.ensureNode p) (m.blank target) := by
  unfold prepared Target.ways
  cases target.chroot <;> rfl

-- What the client can name of them cannot be deleted.
theorem isProtected_of_mem_ways {path : String} (hs : m.target = some target)
    (ha : IsAbsolute path) (h : m.fullPath path ∈ target.ways) :
    m.isProtected (m.fullPath path) := by
  simp only [fullPath, hs] at h ⊢
  cases Target.eq_root_of_fullPath ha h
  unfold Target.ways at h
  split at h
  case h_1         => cases h
  case h_2 root hc => simp [isProtected, hs, hc, Target.fullPath_root hc]

-- A session of a target whose root, and what is above it, is there to stay.
structure Rooted (target : Target) (m : Memory) : Prop where
  session : m.target = some target
  stays   : ∀ path ∈ target.ways, m.nodes.Lasts path

namespace Rooted

theorem still (r : Rooted target m) (h : Still m m') : Rooted target m' where
  session         := h.target.trans r.session
  stays path hp := h.nodes ▸ r.stays path hp

theorem init (m : Memory) (target : Target) : (m.init target).Rooted target := by
  have ⟨nodes, zxid, h⟩ := m.prepared_keeps target
  refine still ⟨by rw [h]; rfl, fun path hp => ?_⟩ (m.init_still target)
  rw [prepared_eq_ensureAll]
  exact ensureAll_lasts Tree.sweep_lasting (.inl hp)

theorem issue (r : Rooted target m) (hp : IsAbsolute call.op.path) :
    (m.issue id call).2.Rooted target := by
  cases issue_cases (m := m) id call
  case inl h => exact r.still h.right
  case inr h =>
    have ⟨outcome, executed, _, course, still⟩ := h
    have re : executed.Rooted target := by
      refine ⟨course.session.trans r.session, fun path hm => ?_⟩
      refine course.lasts (r.stays path hm) fun unprotected he => ?_
      have hl : (m.logged id call).target = some target := r.session
      exact nomatch unprotected.symm.trans <| isProtected_of_mem_ways hl hp (he ▸ hm)
    exact re.still still

-- The next session makes no nodes.
theorem nodes_init (r : Rooted target m) : (m.init target).nodes = m.nodes.sweep := by
  rw [(m.init_still target).nodes, prepared_eq_ensureAll,
    ensureAll_of_mem fun p hp => (r.stays p hp).sweep.mem]
  rfl

end Rooted
end Memory
end Coordination
