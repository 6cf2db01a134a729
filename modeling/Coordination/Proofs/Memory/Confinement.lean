import Coordination.Proofs.Memory.Effect
import Coordination.Proofs.Paths.Chroot

namespace Coordination

open Coordination.Path

namespace Tree

-- The node is in the second tree only.
def Created (t t' : Tree) (path : String) : Prop :=
  t[path]? = none ∧ t'[path]?.isSome

theorem created_insert {t : Tree} {path parent : String} (t₀ : Tree) (child : Node)
    (f : Node → Node) (ha : t[path]? = none) (hn : path ≠ parent) :
    Created t ((t₀.insert path child).modify parent f) path := by
  refine ⟨ha, ?_⟩
  rw [getElem?_change, if_neg hn, getElem?_put, if_pos rfl]
  rfl

theorem created_erase {t : Tree} {path : String} {node : Node} (parent : String) (f : Node → Node)
    (hf : t[path]? = some node) : Created ((t.erase path).modify parent f) t path := by
  refine ⟨?_, by rw [hf]; rfl⟩
  rw [getElem?_change, getElem?_drop, if_pos rfl]
  split <;> rfl

-- Something has happened at a path that a watch event of this type tells.
def Happened (t t' : Tree) (path : String) : EventType → Prop
  | .created => Created t t' path
  | .deleted => Created t' t path
  | .changed => t[path]?.isSome ∧ t'[path]?.isSome ∧ t'[path]? ≠ t[path]?
  | .child => ∃ child, parent? child = some path ∧ (Created t t' child ∨ Created t' t child)
  | _ => False

end Tree

-- The operation creates the chroot of the client, or a node named after it.
def Operation.createsRoot (op : Operation) : Prop :=
  op.isCreate ∧ op.path = "/"

-- What a session with a chroot grants for an operation, given the tree before and after it.
structure Confined (target : Target) (root : String) (op : Operation) (before after : Tree)
    (outcome : Memory.Outcome) : Prop where
  -- Outside the chroot something changes just if the operation makes the chroot or a sibling of it,
  -- or counts up the sequence number for a sibling that is there.
  outside : (∃ path, ¬Within root path ∧ after[path]? ≠ before[path]?) ↔
    op.createsRoot ∧ (outcome.rc = .ok ∨ op.isSequence ∧ outcome.rc = .nodeExists)
  -- The client can go on with the path of the node it has made, unless this is a sibling.
  created : ∀ path, outcome.payload = .string (some path) → Tree.Created before after path ∧
    (target.fullPath (target.stripChroot path) = path ↔ ¬(op.createsRoot ∧ op.isSequence))
  -- A watch event names the place where it happened.
  fired : ∀ w ∈ outcome.fired, ∃ path, w.path = some path ∧
    Tree.Happened before after (target.fullPath path) w.type

namespace Memory

-- A session of a target, whose watches are those of a client.
structure Anchored (target : Target) (m : Memory) : Prop where
  session : m.target = some target
  watches : ∀ watch ∈ m.dataWatches ++ m.childWatches,
    ∃ path, IsAbsolute path ∧ watch.path = target.fullPath path

variable {m : Memory} {target : Target} {root : String} {op : Operation} {outcome : Outcome}
  {t : Tree} {w : WatchEvent} {full : String} {type : EventType}

namespace Anchored

theorem fullPath (a : Anchored target m) (path : String) :
    m.fullPath path = target.fullPath path := by
  simp only [Memory.fullPath, a.session]

-- A watch event gives the path by which the client speaks of it.
theorem tells (a : Anchored target m) (hc : target.chroot = some root) (h : m.Tells type full w) :
    ∃ path, w.path = some path ∧ target.fullPath path = full := by
  have ⟨watch, hw, hf⟩ := h.watched
  have ⟨path, hp, hwp⟩ := a.watches watch hw
  have hs : m.clientPath full = path := by
    simp only [clientPath, a.session]
    rw [← hf, hwp, Target.strip_fullPath hc hp]
  exact ⟨path, by rw [h.path, hs], by rw [← hwp, hf]⟩

end Anchored

namespace Effect

-- Where the parent of the path is, and with it everything that is counted or told there.
theorem parent_within (a : Anchored target m) (hc : target.chroot = some root) (r : IsRoot root)
    (hp : IsAbsolute op.path) (hn : op.path ≠ "/") :
    ∃ parent, parent? (m.fullPath op.path) = some parent ∧ Within root parent := by
  rw [a.fullPath, Target.fullPath_of_ne hc hn]
  exact parent?_within r hp

-- Unless the root is created, everything that changes is within it.
theorem inside {path : String} (e : Effect m op outcome t) (a : Anchored target m)
    (hc : target.chroot = some root) (r : IsRoot root) (hp : IsAbsolute op.path)
    (hn : ¬op.createsRoot) (h : t[path]? ≠ m.nodes[path]?) : Within root path := by
  have hf := a.fullPath op.path
  have hw : Within root (m.fullPath op.path) := hf ▸ Target.fullPath_within hc hp
  refine Decidable.byContradiction fun hout => h ?_
  cases e
  case idle => rfl
  case written isCreate string found changed tells => rw [Tree.getElem?_put, if_neg (hw.ne hout)]
  case counted parent node isSequence isParent found =>
    have hi : op.isCreate := by cases op <;> first | rfl | cases isSequence
    obtain ⟨_, hpar, hwp⟩ := parent_within a hc r hp fun he => hn ⟨hi, he⟩
    cases isParent.symm.trans hpar
    rw [Tree.getElem?_put, if_neg (hwp.ne hout)]
  case created parent full node child t₀ fired isCreate isParent found named absent counted tells =>
    have hne : op.path ≠ "/" := fun he => hn ⟨isCreate, he⟩
    obtain ⟨_, hpar, hwp⟩ := parent_within a hc r hp hne
    cases isParent.symm.trans hpar
    have hwf : Within root full := by
      rw [named]
      split
      case isTrue  => exact withSequence_within (hf ▸ Target.fullPath_below hc hp hne) _
      case isFalse => exact hw
    rw [Tree.getElem?_change, Tree.getElem?_put, if_neg (hwp.ne hout), if_neg (hwf.ne hout),
      counted, Tree.getElem?_putIf, if_neg fun he => hwp.ne hout he.right]
  case deleted node fired isCreate unprotected found tells =>
    have hne : op.path ≠ "/" := fun he => by
      have hroot : m.fullPath op.path = root := by rw [hf, he, Target.fullPath_root hc]
      simp [isProtected, hroot, a.session, hc] at unprotected
    obtain ⟨parent, hpar, hwp⟩ := parent_within a hc r hp hne
    rw [hpar, Option.getD_some, Tree.getElem?_change, Tree.getElem?_drop, if_neg (hwp.ne hout),
      if_neg (hw.ne hout)]

-- If it is created, something changes in its parent, which is outside.
theorem escapes (e : Effect m op outcome t) (a : Anchored target m)
    (hc : target.chroot = some root) (r : IsRoot root) (h : op.createsRoot) :
    (∃ path, ¬Within root path ∧ t[path]? ≠ m.nodes[path]?) ↔
      outcome.rc = .ok ∨ op.isSequence ∧ outcome.rc = .nodeExists := by
  have hroot : m.fullPath op.path = root := by rw [a.fullPath, h.right, Target.fullPath_root hc]
  obtain ⟨outer, hpar, hnw⟩ := r.parent?_not_within
  have hi (hf : op.isCreate = false) : False := nomatch hf.symm.trans h.left
  cases e
  case idle rc payload string refused =>
    obtain ⟨h₁, h₂⟩ := refused h.left
    exact iff_of_false (fun ⟨_, _, h⟩ => h rfl) fun h => h.elim h₁ fun h => h₂ h.left h.right
  case written isCreate _ _ _ _ => exact (hi isCreate).elim
  case deleted isCreate _ _ _   => exact (hi isCreate).elim
  case counted parent node isSequence isParent found =>
    cases isParent.symm.trans (hroot ▸ hpar)
    refine iff_of_true ⟨outer, hnw, ?_⟩ (.inr ⟨isSequence, rfl⟩)
    rw [Tree.getElem?_put, if_pos rfl, found]
    intro he
    have : node.nextSequence + 1 = node.nextSequence :=
      congrArg (·.nextSequence) (Option.some.inj he)
    omega
  case created parent full node child t₀ fired isCreate isParent found named absent counted tells =>
    cases isParent.symm.trans (hroot ▸ hpar)
    refine iff_of_true ⟨outer, hnw, ?_⟩ (.inl rfl)
    have hne : outer ≠ full := fun he => nomatch (he ▸ found).symm.trans absent
    obtain ⟨node', hn, hs⟩ : ∃ node', t₀[outer]? = some node' ∧ node'.stat = node.stat := by
      rw [counted, Tree.getElem?_putIf, found]
      split
      case isTrue  => exact ⟨_, rfl, rfl⟩
      case isFalse => exact ⟨_, rfl, rfl⟩
    rw [Tree.getElem?_change, if_pos rfl, Tree.getElem?_put, if_neg hne, hn, found]
    intro he
    have : node'.stat.cversion + 1 = node.stat.cversion :=
      congrArg (·.stat.cversion) (Option.some.inj he)
    rw [hs] at this
    omega

theorem outside (e : Effect m op outcome t) (a : Anchored target m)
    (hc : target.chroot = some root) (r : IsRoot root) (hp : IsAbsolute op.path) :
    (∃ path, ¬Within root path ∧ t[path]? ≠ m.nodes[path]?) ↔
      op.createsRoot ∧ (outcome.rc = .ok ∨ op.isSequence ∧ outcome.rc = .nodeExists) := by
  by_cases h : op.createsRoot
  case pos => rw [e.escapes a hc r h, and_iff_right h]
  case neg =>
    exact iff_of_false (fun ⟨_, hn, hd⟩ => hn (e.inside a hc r hp h hd)) fun hr => h hr.left

theorem isCreate_of_string {path : String} (e : Effect m op outcome t)
    (h : outcome.payload = .string (some path)) : op.isCreate := by
  cases e
  case created isCreate _ _ _ _ _ _  => exact isCreate
  case idle string refused           => cases h; cases string
  case written isCreate string _ _ _ => cases h; cases string
  case counted                       => cases h
  case deleted                       => cases h

theorem created_path {path : String} (e : Effect m op outcome t) (a : Anchored target m)
    (hc : target.chroot = some root) (r : IsRoot root) (hp : IsAbsolute op.path)
    (h : outcome.payload = .string (some path)) :
    Tree.Created m.nodes t path ∧
      (target.fullPath (target.stripChroot path) = path ↔ ¬(op.createsRoot ∧ op.isSequence)) := by
  cases e
  case idle string refused           => cases h; cases string
  case written isCreate string _ _ _ => cases h; cases string
  case counted                       => cases h
  case deleted                       => cases h
  case created parent full node child t₀ fired isCreate isParent found named absent counted tells =>
    obtain rfl : full = path := by cases h; rfl
    have hne : full ≠ parent := fun he => nomatch (he ▸ absent).symm.trans found
    refine ⟨Tree.created_insert _ _ _ absent hne, ?_⟩
    rw [a.fullPath] at named
    by_cases hr : op.path = "/"
    case pos =>
      rw [hr, Target.fullPath_root hc] at named
      cases hs : op.isSequence <;> rw [hs] at named
      case false =>
        rw [named, if_neg Bool.false_ne_true, Target.stripChroot_root hc, Target.fullPath_root hc]
        simp
      case true =>
        rw [if_pos rfl] at named
        have hn : ¬Within root full := named ▸ withSequence_not_within _
        have ha : IsAbsolute full := named ▸ withSequence_absolute r.absolute _
        rw [Target.stripChroot_not_within hc hn]
        refine ⟨fun he => absurd (he ▸ Target.fullPath_within hc ha) hn, fun h => ?_⟩
        exact absurd ⟨⟨isCreate, hr⟩, rfl⟩ h
    case neg =>
      have ⟨rest, hrest⟩ := hp.cons
      have hne : rest ≠ [] := fun he => hr (String.ext (by rw [hrest, he]; rfl))
      have hf : (target.fullPath op.path).toList = root.toList ++ '/' :: rest := by
        rw [Target.fullPath_of_ne hc hr, String.toList_ofList, hrest]
      have : target.fullPath (target.stripChroot full) = full := by
        cases hs : op.isSequence <;> rw [hs] at named
        case false => exact Target.full_stripChroot hc (named ▸ hf) hne
        case true  =>
          have hd : full.toList =
              root.toList ++ '/' :: (rest ++ sequenceDigits node.nextSequence) := by
            rw [named, if_pos rfl, toList_withSequence, hf, List.append_assoc]
            rfl
          exact Target.full_stripChroot hc hd (by simp [hne])
      simp [this, Operation.createsRoot, hr]

theorem fired_happened (e : Effect m op outcome t) (a : Anchored target m)
    (hc : target.chroot = some root) (r : IsRoot root) (hp : IsAbsolute op.path)
    (h : w ∈ outcome.fired) :
    ∃ path, w.path = some path ∧ Tree.Happened m.nodes t (target.fullPath path) w.type := by
  have happened (full : String) (type : EventType) (ht : m.Tells type full w)
      (hh : Tree.Happened m.nodes t full type) :
      ∃ path, w.path = some path ∧ Tree.Happened m.nodes t (target.fullPath path) w.type := by
    have ⟨path, hw, hf⟩ := a.tells hc ht
    exact ⟨path, hw, by rw [hf, ht.type]; exact hh⟩
  have hs : '/' ∈ (m.fullPath op.path).toList :=
    (a.fullPath op.path ▸ Target.fullPath_within hc hp : Within root _).slash_mem r
  cases e
  case idle    => cases h
  case counted => cases h
  case written node node' payload fired isCreate string found changed tells =>
    refine happened _ _ (tells w h) ?_
    have : (m.nodes.insert (m.fullPath op.path) node')[m.fullPath op.path]? = some node' := by
      rw [Tree.getElem?_put, if_pos rfl]
    refine ⟨by rw [found]; rfl, by rw [this]; rfl, ?_⟩
    rw [this, found]
    exact fun h => changed (Option.some.inj h)
  case created parent full node child t₀ fired isCreate isParent found named absent counted tells =>
    have hne : full ≠ parent := fun he => nomatch (he ▸ absent).symm.trans found
    have hcr := Tree.created_insert t₀ child (Node.childCreated (m.zxid + 1)) absent hne
    refine (tells w h).elim (happened _ _ · hcr) (happened _ _ · ⟨full, ?_, .inl hcr⟩)
    rw [named]
    split
    case isFalse => exact isParent
    case isTrue  => rw [parent?_withSequence hs, isParent]
  case deleted node fired isCreate unprotected found tells =>
    have ⟨parent, hpar⟩ := exists_parent hs
    have hcr := Tree.created_erase parent (Node.childDeleted (m.zxid + 1)) found
    simp only [hpar, Option.getD_some] at tells happened ⊢
    exact (tells w h).elim (happened _ _ · hcr) (happened _ _ · ⟨_, hpar, .inr hcr⟩)

theorem confined (e : Effect m op outcome t) (a : Anchored target m)
    (hc : target.chroot = some root) (r : IsRoot root) (hp : IsAbsolute op.path) :
    Confined target root op m.nodes t outcome where
  outside     := e.outside a hc r hp
  created _ h := e.created_path a hc r hp h
  fired _ h   := e.fired_happened a hc r hp h

end Effect
end Memory
end Coordination
