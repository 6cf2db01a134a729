import Coordination.Proofs.Memory.Presence

namespace Coordination

open Coordination.Path

namespace Path

variable {path parent : String} {before segment : List Char}

-- The text behind the last slash.
def lastSegment (path : String) : String :=
  String.ofList (path.toList.reverse.takeWhile (· ≠ '/')).reverse

-- There is something behind the last slash, and what is before it is not a slash alone. Otherwise
-- the parent and the last segment do not spell the path.
def IsPlaced (path : String) : Prop :=
  ∃ before segment, path.toList = before ++ '/' :: segment ∧ '/' ∉ segment ∧ segment ≠ [] ∧
    before ≠ ['/']

theorem lastSegment_split (hp : path.toList = before ++ '/' :: segment) (hs : '/' ∉ segment) :
    lastSegment path = String.ofList segment := by
  have hn : ∀ c ∈ segment.reverse, decide (c ≠ '/') = true := fun c hc =>
    decide_eq_true fun he => hs (he ▸ List.mem_reverse.mp hc)
  rw [lastSegment, hp, List.reverse_append, List.reverse_cons, List.append_assoc,
    List.takeWhile_append_of_pos hn]
  simp

theorem isAbsolute_parent (ha : IsAbsolute path) (hp : parent? path = some parent) :
    IsAbsolute parent := by
  have ⟨before, segment, h, hs⟩ := exists_split ha.slash_mem
  rw [parent?_split h hs] at hp
  cases before
  case nil => cases hp; rfl
  case cons c before =>
    cases hp
    rw [IsAbsolute, h] at ha
    simpa [IsAbsolute] using ha

-- The path is where its parent lists its last segment.
theorem IsPlaced.childName? (h : IsPlaced path) (hp : parent? path = some parent) :
    childName? parent path = some (lastSegment path) := by
  have ⟨before, segment, hb, hs, hn, hr⟩ := h
  rw [parent?_split hb hs] at hp
  have below : below parent = before ++ ['/'] := by
    cases before
    case nil => cases hp; rfl
    case cons c before =>
      have he : String.ofList (c :: before) = parent := Option.some.inj hp
      have hne : String.ofList (c :: before) ≠ "/" := fun he => hr (String.ofList_inj.mp he)
      rw [Path.below, ← he, if_neg hne, String.toList_ofList]
  rw [childName?_eq_some, lastSegment_split hb hs, String.toList_ofList, below, hb]
  exact ⟨⟨hn, hs⟩, by rw [List.append_assoc]; rfl⟩

theorem isPlaced_of_lists (h : lists parent path) : IsPlaced path := by
  have ⟨rest, hp, hn, hs⟩ := toList_of_lists h
  unfold below at hp
  split at hp
  case isTrue    => exact ⟨[], rest, hp, hs, hn, nofun⟩
  case isFalse h =>
    refine ⟨parent.toList, rest, by rw [hp, List.append_assoc]; rfl, hs, hn, fun he => h ?_⟩
    exact String.toList_inj.mp he

end Path

namespace Tree

variable {t : Tree} {path parent name : String}

theorem mem_children_iff :
    name ∈ t.children parent ↔ ∃ key ∈ t, childName? parent key = some name := by
  simp [children]

theorem children_nodup : (t.children parent).Nodup := by
  refine List.Pairwise.filterMap _ (fun key key' hne name hn name' hn' he => hne ?_) t.nodup_keys
  refine String.toList_inj.mp ?_
  rw [(childName?_eq_some.mp hn).right, (childName?_eq_some.mp hn').right, he]

-- No other path is listed by the same name.
theorem placed_mem_children (h : IsPlaced path) (hp : parent? path = some parent) :
    lastSegment path ∈ t.children parent ↔ path ∈ t := by
  rw [mem_children_iff]
  constructor
  case mpr => exact fun hm => ⟨path, hm, h.childName? hp⟩
  case mp =>
    intro ⟨key, hm, hn⟩
    have he : key = path := String.toList_inj.mp <| by
      rw [(childName?_eq_some.mp hn).right, (childName?_eq_some.mp (h.childName? hp)).right]
    exact he ▸ hm

end Tree

namespace Memory

variable {m m' : Memory} {id : RequestId} {op : Operation} {call : Call} {outcome : Outcome}
  {path parent q : String} {mode : CallMode} {log : List Passage}

-- The client has no chroot, so its paths stand for themselves.
def Plain (m : Memory) : Prop :=
  ∀ target ∈ m.target, target.chroot = none

-- Whoever asks for the children of the parent is told the last segment of the path, and only once.
def Lists (path : String) (m : Memory) : Prop :=
  ∀ id q watch mode, m.serves → parent? path = some (m.fullPath q) → ∃ children stat,
    m.outcome? id ⟨.getChildren q watch, mode⟩ = some ⟨.ok, .children children (some stat), []⟩ ∧
      children.count (lastSegment path) = 1

-- Whoever asks for the children of the parent is not told the last segment of the path.
def Omits (path : String) (m : Memory) : Prop :=
  ∀ id q watch mode, m.serves → parent? path = some (m.fullPath q) → ∃ rc children stat,
    m.outcome? id ⟨.getChildren q watch, mode⟩ = some ⟨rc, .children children stat, []⟩ ∧
      lastSegment path ∉ children

-- What is promised for a node while it is there.
structure Guarded (path : String) (m : Memory) : Prop where
  listed  : m.Lists path
  kept    : ∀ id q version mode, m.serves → parent? path = some (m.fullPath q) → ∃ outcome,
    m.outcome? id ⟨.delete q version, mode⟩ = some outcome ∧ outcome.rc ≠ .ok
  -- Once the node is deleted, until it is made again.
  omitted : ∀ id q version mode later, m.fullPath q = path →
    (m.outcome? id ⟨.delete q version, mode⟩).map (·.rc) = some .ok →
    let deleted := (m.issue id ⟨.delete q version, mode⟩).2
    .created path ∉ deleted.passagesAt later → .founded path ∉ deleted.passagesAt later →
      (deleted.performAt later).Omits path

theorem outcome_getChildren {watch : Bool} (serves : m.serves) :
    m.outcome? id ⟨.getChildren q watch, mode⟩ = some (match m.nodes[m.fullPath q]? with
      | none => ⟨.noNode, .children [] none, []⟩
      | some node => ⟨.ok, .children (m.nodes.children (m.fullPath q)) (some node.stat), []⟩) := by
  have hn : (m.logged id ⟨.getChildren q watch, mode⟩).nodes = m.nodes := rfl
  have hp : (m.logged id ⟨.getChildren q watch, mode⟩).fullPath q = m.fullPath q := rfl
  rw [outcome?, if_pos serves]
  simp only [execute, getChildren, hn, hp]
  cases m.nodes[m.fullPath q]? <;> rfl

theorem lists_of_mem (c : m.nodes.Census log) (h : IsPlaced path) (hm : path ∈ m.nodes) :
    m.Lists path := by
  intro id q watch mode serves hp
  have ⟨node, hn⟩ := Tree.exists_node hm
  have ha : IsAbsolute (m.fullPath q) := isAbsolute_parent (c.absolute path node hn) hp
  have hl : lists (m.fullPath q) path := by rw [lists, h.childName? hp]; rfl
  obtain ⟨parent, hf, _⟩ := c.parent path node hn _ ha hl
  refine ⟨m.nodes.children (m.fullPath q), parent.stat, ?_, ?_⟩
  case refine_1 => rw [outcome_getChildren serves, hf]
  case refine_2 =>
    rw [Tree.children_nodup.count, if_pos <| (Tree.placed_mem_children h hp).mpr hm]

theorem omits_of_not_mem (h : IsPlaced path) (hm : path ∉ m.nodes) : m.Omits path := by
  intro id q watch mode serves hp
  rw [outcome_getChildren serves]
  cases m.nodes[m.fullPath q]?
  case none      => exact ⟨_, _, _, rfl, List.not_mem_nil⟩
  case some node => exact ⟨_, _, _, rfl, mt (Tree.placed_mem_children h hp).mp hm⟩

theorem Lists.mem (l : m.Lists path) (serves : m.serves) (hq : m.fullPath q = parent)
    (hp : parent? path = some parent) :
    parent ∈ m.nodes ∧ lastSegment path ∈ m.nodes.children parent := by
  subst hq
  have ⟨children, stat, ho, hc⟩ := l ⟨0⟩ q false .sync serves hp
  rw [outcome_getChildren serves] at ho
  rw [Tree.mem_iff]
  cases hn : m.nodes[m.fullPath q]? <;> rw [hn] at ho <;> cases ho
  case some node => exact ⟨rfl, List.one_le_count_iff.mp (Nat.le_of_eq hc.symm)⟩

theorem Omits.not_mem (o : m.Omits path) (serves : m.serves) (hq : m.fullPath q = parent)
    (hp : parent? path = some parent) (hm : parent ∈ m.nodes) :
    lastSegment path ∉ m.nodes.children parent := by
  subst hq
  have ⟨rc, children, stat, ho, hc⟩ := o ⟨0⟩ q false .sync serves hp
  have ⟨node, hn⟩ := Tree.exists_node hm
  rw [outcome_getChildren serves, hn] at ho
  cases ho
  exact hc

theorem serves_of_outcome (ho : m.outcome? id call = some outcome) : m.serves :=
  Option.ite_none_right_eq_some.mp ho |>.left

-- Calls go on to get through.
theorem serves_issue (h : m.serves) (id : RequestId) (call : Call) :
    (m.issue id call).2.serves := by
  have ⟨ho, hs⟩ := isOpen_of_serves h
  let executed := ((m.logged id call).execute id call.op).2
  have he := (m.logged id call).execute_executes id call.op
  have hi : (m.issue id call).2 = executed.answered id call _ :=
    congrArg Prod.snd (issue_eq ho hs id call)
  have ht : Talks executed (m.issue id call).2 := hi ▸ .answered ..
  have hc : (m.issue id call).2.channel = m.channel.map _ := Emits.issue id call
  have hh : (m.issue id call).2.handleClosed = m.handleClosed :=
    (congrArg handleClosed ht.eq).trans he.handleClosed
  have hs : (m.issue id call).2.state = m.state := (congrArg state ht.eq).trans he.state
  rw [serves, hc, hh, hs, Option.isSome_map]
  exact h

theorem Course.childless {version : Int} (h : Course m id (.delete q version) (outcome, m'))
    (hr : outcome.rc = .ok) : m.nodes.children (m.fullPath q) = [] := by
  cases h
  case quiet unchanged   => exact absurd hr (unchanged rfl)
  case delete childless  => exact childless

theorem Course.absent {n : String} (h : Course m id op (outcome, m')) (hop : op.isCreate)
    (hr : outcome.rc = .ok) (hn : outcome.payload = .string (some n)) : n ∉ m.nodes := by
  cases h
  case quiet unchanged => exact absurd hr (unchanged (by cases op <;> first | rfl | cases hop))
  case counted         => cases hr
  case create found _ _ counted absent =>
    cases hn
    rw [← numbered_mem found, ← counted, Tree.mem_iff, absent]
    exact Bool.false_ne_true
  all_goals cases hop

theorem delete_ok (serves : m.serves) (hq : m.fullPath q = path)
    (unprotected : m.isProtected path = false) (found : path ∈ m.nodes)
    (childless : m.nodes.children path = []) :
    (m.outcome? id ⟨.delete q anyVersion, mode⟩).map (·.rc) = some .ok := by
  have ⟨node, hn⟩ := Tree.exists_node found
  let logged := m.logged id ⟨.delete q anyVersion, mode⟩
  have hq : logged.fullPath q = path := hq
  have hp : logged.isProtected path = false := unprotected
  have hn : logged.nodes[path]? = some node := hn
  have hc : logged.nodes.children path = [] := childless
  have ho : (logged.delete q anyVersion).1.rc = .ok := by
    simp [delete, hq, hp, hn, hc, versionMatches, removeNode]
  rw [outcome?, if_pos serves, Option.map_some]
  exact congrArg some ho

-- A call that gets through leaves what its passage tells.
theorem issue_mem {x : Passage} (ho : m.outcome? id call = some outcome)
    (hx : call.op.passages (m.fullPath call.op.path) outcome = [x]) :
    path ∈ (m.issue id call).2.nodes ↔ x.leaves path (path ∈ m.nodes) := by
  have ht := perform_traced (m := m) (.call id call) path
  simp only [passages, ho, hx] at ht
  exact ht

theorem deleted_mem {version : Int} {key : String} (hq : m.fullPath q = path)
    (ok : (m.outcome? id ⟨.delete q version, mode⟩).map (·.rc) = some .ok) :
    key ∈ (m.issue id ⟨.delete q version, mode⟩).2.nodes ↔ key ∈ m.nodes ∧ path ≠ key := by
  have ⟨outcome, ho, hr⟩ := Option.map_eq_some_iff.mp ok
  have hx : (Operation.delete q version).passages (m.fullPath q) outcome = [.deleted path] := by
    rw [Operation.passages, if_pos hr, hq]
  exact issue_mem ho hx

theorem guarded_of_mem (c : m.nodes.Census log) (h : IsPlaced path) (hm : path ∈ m.nodes) :
    m.Guarded path := by
  constructor
  case listed => exact lists_of_mem c h hm
  case kept =>
    intro id q version mode serves hp
    have ⟨outcome, executed, ho, course, _⟩ := issue_course serves id ⟨.delete q version, mode⟩
    refine ⟨outcome, ho, fun hr => ?_⟩
    have hc : m.nodes.children (m.fullPath q) = [] := course.childless hr
    exact List.not_mem_nil <| hc ▸ (Tree.placed_mem_children h hp).mpr hm
  case omitted =>
    intro id q version mode later hq ok deleted created founded
    have gone : path ∉ deleted.nodes := fun h => (deleted_mem hq ok).mp h |>.right rfl
    refine omits_of_not_mem h fun hm => ?_
    cases made_of_present <| (performAt_traced later path).mp hm
    case inl h => exact gone h
    case inr h => exact h.elim created founded

namespace Plain

theorem fullPath (plain : m.Plain) (q : String) : m.fullPath q = q := by
  unfold Memory.fullPath
  split
  case h_1    => rfl
  case h_2 ht => rw [Target.fullPath, plain _ ht]

theorem isProtected (plain : m.Plain) (hq : q ≠ "/") : m.isProtected q = false := by
  have hc : m.target.bind Target.chroot = none := by
    cases ht : m.target
    case none => rfl
    case some => exact plain _ ht
  simp [Memory.isProtected, hc, hq]

theorem issue (plain : m.Plain) (id : RequestId) (call : Call) : (m.issue id call).2.Plain := by
  rw [Plain, issue_target]
  exact plain

end Plain

-- What is listed by the name of the node is the node itself: it goes with the node.
theorem Guarded.lists (g : m.Guarded path) (serves : m.serves) (plain : m.Plain)
    (hm : path ∈ m.nodes) (childless : m.nodes.children path = []) (hne : path ≠ "/")
    (hp : parent? path = some parent) : lists parent path := by
  have ⟨hpm, listed⟩ := g.listed.mem serves (plain.fullPath parent) hp
  have ⟨key, hk, hn⟩ := Tree.mem_children_iff.mp listed
  refine Decidable.byContradiction fun hl => ?_
  have other : path ≠ key := fun he => hl (by rw [Path.lists, he, hn]; rfl)
  have ok : (m.outcome? ⟨0⟩ ⟨.delete path anyVersion, .sync⟩).map (·.rc) = some .ok :=
    delete_ok serves (plain.fullPath path) (plain.isProtected hne) hm childless
  let left := (m.issue ⟨0⟩ ⟨.delete path anyVersion, .sync⟩).2
  have stays {q : String} (hq : q ∈ m.nodes) (hne : path ≠ q) : q ∈ left.nodes :=
    (deleted_mem (plain.fullPath path) ok).mpr ⟨hq, hne⟩
  have omitted : left.Omits path :=
    g.omitted ⟨0⟩ path anyVersion .sync [] (plain.fullPath path) ok List.not_mem_nil
      List.not_mem_nil
  have hleft : left.serves := serves_issue serves _ _
  have hs : lastSegment path ∉ left.nodes.children parent :=
    omitted.not_mem hleft ((plain.issue _ _).fullPath parent) hp
      (stays hpm (parent?_ne hp hne).symm)
  exact hs <| Tree.mem_children_iff.mpr ⟨key, stays hk other, hn⟩

section

variable {n : String} {fired : List WatchEvent}

theorem passages_created {full : String} (hop : op.isCreate) :
    op.passages full ⟨.ok, .string (some n), fired⟩ = [.created n] := by
  cases op <;> first | rfl | cases hop

variable (hop : call.op.isCreate) (ho : m.outcome? id call = some ⟨.ok, .string (some n), fired⟩)

include hop ho

theorem created_mem : path ∈ (m.issue id call).2.nodes ↔ path ∈ m.nodes ∨ n = path :=
  issue_mem ho (passages_created hop)

theorem created_absent : n ∉ m.nodes := by
  have ⟨outcome, executed, ho', course, _⟩ := issue_course (serves_of_outcome ho) id call
  cases ho.symm.trans ho'
  exact course.absent hop rfl rfl

theorem created_childless (c : m.nodes.Census log) (ha : IsAbsolute n) (hne : n ≠ "/") :
    (m.issue id call).2.nodes.children n = [] := by
  refine Tree.children_eq_nil.mpr fun child hm => Bool.eq_false_iff.mpr fun hl => ?_
  cases (created_mem hop ho).mp hm
  case inl old =>
    have ⟨node, hn⟩ := Tree.exists_node old
    exact created_absent hop ho (c.parent child node hn n ha hl).mem
  case inr he => exact parent?_ne (parent?_of_lists ha (he ▸ hl)) hne rfl

end

-- A created node is listed by its parent and keeps it from being deleted for as long as it is
-- there, whatever is done, if and only if its last segment is not empty and what is before its last
-- slash is not a slash alone.
theorem created_guarded_iff {clock : Int} {run : List (Int × ServiceStep)} {n : String}
    {fired : List WatchEvent}
    (plain : ((new clock).performAt run).Plain)
    (create : call.op.isCreate)
    (answered : ((new clock).performAt run).outcome? id call =
      some ⟨.ok, .string (some n), fired⟩) :
    let made := (((new clock).performAt run).issue id call).2
    IsPlaced n ↔ ∀ later, .deleted n ∉ made.passagesAt later → .swept n ∉ made.passagesAt later →
      (made.performAt later).Guarded n := by
  intro made
  have c := performAt_census (new_census clock) run
  have c' : made.nodes.Census _ := perform_census c (.call id call)
  have hm : n ∈ made.nodes := (created_mem create answered).mpr (.inr rfl)
  constructor
  case mp =>
    intro placed later deleted swept
    refine guarded_of_mem (performAt_census c' later) placed ?_
    exact (performAt_traced later n).mpr <| present_of_made deleted swept (.inl hm)
  case mpr =>
    intro h
    have g : made.Guarded n := h [] List.not_mem_nil List.not_mem_nil
    have ⟨node, hn⟩ := Tree.exists_node hm
    have ha : IsAbsolute n := c'.absolute n node hn
    have hne : n ≠ "/" := fun he => created_absent create answered (he ▸ c.root.mem)
    have ⟨parent, hp⟩ := exists_parent ha.slash_mem
    have serves : made.serves := serves_issue (serves_of_outcome answered) id call
    have childless : made.nodes.children n = [] := created_childless create answered c ha hne
    exact isPlaced_of_lists <| g.lists serves (plain.issue id call) hm childless hne hp

def opening : List (Int × ServiceStep) :=
  [(0, .init "localhost:2181" ⟨0⟩)]

def making (path : String) (flags : Nat) : Call :=
  ⟨.create path ByteArray.empty Acl.openUnsafe flags, .sync⟩

-- A sequence node, when another one has been made after it.
theorem created_guarded_numbered :
    let m := (new 0).performAt opening
    let made := (m.issue ⟨1⟩ (making "/a" createSequence)).2
    let later : List (Int × ServiceStep) := [(0, .call ⟨2⟩ (making "/a" createSequence))]
    m.Plain ∧ (making "/a" createSequence).op.isCreate ∧
      m.outcome? ⟨1⟩ (making "/a" createSequence) =
        some ⟨.ok, .string (some "/a0000000000"), []⟩ ∧
      IsPlaced "/a0000000000" ∧ made.passagesAt later = [.created "/a0000000001"] ∧
      (made.performAt later).Guarded "/a0000000000" := by
  intro m made later
  have plain : m.Plain := by
    have h : ∀ target ∈ m.target, target.chroot = none := by decide +kernel
    exact h
  have answered : m.outcome? ⟨1⟩ (making "/a" createSequence) =
      some ⟨.ok, .string (some "/a0000000000"), []⟩ := by decide +kernel
  have placed : IsPlaced "/a0000000000" :=
    ⟨[], "a0000000000".toList, by decide +kernel, by decide +kernel, by decide +kernel, nofun⟩
  have passages : made.passagesAt later = [.created "/a0000000001"] := by decide +kernel
  have guarded := (created_guarded_iff plain rfl answered).mp placed later
  refine ⟨plain, rfl, answered, placed, passages, guarded ?_ ?_⟩
  case refine_1 => exact passages ▸ by decide
  case refine_2 => exact passages ▸ by decide

-- The node at "/a/" is not listed by its parent, which can be deleted while the node is there.
theorem unnamed_not_guarded :
    let m := (new 0).performAt (opening ++ [(0, .call ⟨1⟩ (making "/a" 0))])
    let made := (m.issue ⟨2⟩ (making "/a/" 0)).2
    let left := (made.issue ⟨3⟩ ⟨.delete "/a" anyVersion, .sync⟩).2
    m.target.bind Target.chroot = none ∧
      m.outcome? ⟨2⟩ (making "/a/" 0) = some ⟨.ok, .string (some "/a/"), []⟩ ∧
      parent? "/a/" = some "/a" ∧
      made.outcome? ⟨3⟩ ⟨.getChildren "/a" false, .sync⟩ = some ⟨.ok, .children [] (some
        { czxid := 1, mzxid := 1, pzxid := 2, cversion := 1, numChildren := 1 }), []⟩ ∧
      (made.outcome? ⟨3⟩ ⟨.delete "/a" anyVersion, .sync⟩).map (·.rc) = some .ok ∧
      left.nodes.keys = ["/", "/a/"] := by
  decide +kernel

end Memory
end Coordination
