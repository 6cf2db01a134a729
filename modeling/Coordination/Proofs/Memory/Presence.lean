import Coordination.Proofs.Memory.Census

namespace Coordination

open Coordination.Path

variable {path : String} {log log' : List Passage} {there : Prop}

-- The step begins a session, if its target can be read.
def ServiceStep.begins : ServiceStep → Bool
  | init .. => true
  | _ => false

-- Whether a path has a node after the passage, if `there` is whether it had one before.
def Passage.leaves (path : String) (there : Prop) : Passage → Prop
  | created q | founded q => there ∨ q = path
  | deleted q | swept q   => there ∧ q ≠ path

def present (path : String) (there : Prop) (log : List Passage) : Prop :=
  log.foldl (Passage.leaves path) there

theorem present_append :
    present path there (log ++ log') = present path (present path there log) log' :=
  List.foldl_append ..

theorem present_swept (paths : List String) :
    present path there (paths.map .swept) ↔ there ∧ path ∉ paths := by
  induction paths generalizing there
  case nil => simp [present]
  case cons q paths ih =>
    rw [List.map_cons, List.mem_cons, not_or, eq_comm, ← and_assoc]
    exact ih

theorem present_founded (paths : List String) :
    present path there (paths.map .founded) ↔ there ∨ path ∈ paths := by
  induction paths generalizing there
  case nil => simp [present]
  case cons q paths ih =>
    rw [List.map_cons, List.mem_cons, eq_comm, ← or_assoc]
    exact ih

-- What is there in the end was there at the start or has been made.
theorem made_of_present (h : present path there log) :
    there ∨ .created path ∈ log ∨ .founded path ∈ log := by
  induction log generalizing there
  case nil => exact .inl h
  case cons x log ih =>
    have := ih h
    cases x <;> grind [Passage.leaves]

-- What was there at the start or has been made is there in the end, if it never goes.
theorem present_of_made (deleted : .deleted path ∉ log) (swept : .swept path ∉ log)
    (h : there ∨ .created path ∈ log ∨ .founded path ∈ log) : present path there log := by
  induction log generalizing there
  case nil => simpa [present] using h
  case cons x log ih =>
    rw [List.mem_cons, not_or] at deleted swept
    refine ih deleted.right swept.right ?_
    cases x <;> grind [Passage.leaves]

namespace Tree

variable {t t' t'' : Tree}

-- The second tree has nodes where the log leaves one of the first tree.
def Traced (t t' : Tree) (log : List Passage) : Prop :=
  ∀ path, path ∈ t' ↔ present path (path ∈ t) log

namespace Traced

theorem refl : Traced t t [] :=
  fun _ => .rfl

theorem trans (h : Traced t t' log) (h' : Traced t' t'' log') : Traced t t'' (log ++ log') := by
  intro path
  rw [present_append, ← propext (h path)]
  exact h' path

theorem sweep : Traced t t.sweep (t.swept.map .swept) := by
  intro path
  rw [present_swept, mem_sweep, swept, List.mem_filter, Std.ExtTreeMap.mem_keys, mem_iff, Lasts]
  cases t[path]? <;> simp

end Traced
end Tree

namespace Memory

variable {m m' : Memory} {id : RequestId} {op : Operation} {call : Call} {outcome : Outcome}
  {target : Target}

theorem numbered_mem {parent : String} {node : Node} {isSequence : Bool}
    (found : m.nodes[parent]? = some node) :
    path ∈ m.numbered isSequence parent node ↔ path ∈ m.nodes := by
  unfold numbered
  split
  case isTrue  => exact Tree.mem_rewrite found
  case isFalse => rfl

theorem Course.traced (h : Course m id op (outcome, m')) :
    Tree.Traced m.nodes m'.nodes (op.passages (m.fullPath op.path) outcome) := by
  intro path
  cases h
  case quiet rc payload unchanged =>
    rw [passages_of_quiet unchanged]
    split
    case isTrue  => rw [nodes_watch]; rfl
    case isFalse => rfl
  case set found _   => exact Tree.mem_rewrite found
  case setAcl found  => exact Tree.mem_rewrite found
  case counted found => exact numbered_mem found
  case create full data acl flags owner node nodes _ found _ _ counted _ =>
    refine Tree.mem_change.trans <| Tree.mem_put.trans ?_
    rw [counted, numbered_mem found, or_comm, eq_comm]
    rfl
  case delete path version node _ _ _ =>
    refine Tree.mem_change.trans <| Tree.mem_drop.trans ?_
    rw [and_comm, ne_comm]
    rfl

theorem mem_founds {paths : List String} :
    path ∈ m.founds paths ↔ path ∈ paths ∧ path ∉ m.nodes := by
  induction paths generalizing m
  case nil => simp [founds]
  case cons q paths ih =>
    rw [founds, List.mem_cons]
    split
    case isTrue hq  => rw [ih]; grind
    case isFalse hq => rw [List.mem_cons, ih, mem_ensureNode]; grind

theorem init_traced (target : Target) :
    Tree.Traced m.nodes (m.init target).nodes
      (m.nodes.swept.map .swept ++ (m.founded target).map .founded) := by
  refine Tree.Traced.sweep.trans fun path => ?_
  rw [(m.init_still target).nodes, prepared_eq_ensureAll, mem_ensureAll, present_founded]
  rw [founded_eq_founds, mem_founds]
  change _ ∨ path ∈ m.nodes.sweep ↔ path ∈ m.nodes.sweep ∨ _ ∧ path ∉ m.nodes.sweep
  grind

theorem perform_traced (step : ServiceStep) :
    Tree.Traced m.nodes (m.perform step).2.nodes (m.passages step) := by
  cases step
  case init text timeout =>
    simp only [perform, passages]
    cases Target.parse text
    case error     => exact .refl
    case ok target => exact init_traced target
  case call id call =>
    simp only [perform, passages]
    cases issue_cases (m := m) id call
    case inl h =>
      rw [h.left, h.right.nodes]
      exact .refl
    case inr h =>
      obtain ⟨outcome, executed, ho, course, still⟩ := h
      rw [ho, still.nodes]
      exact course.traced
  all_goals
    rw [(Still.perform rfl).nodes]
    exact .refl

-- After every run, a path has a node if and only if the log leaves one there.
theorem performAt_traced (run : List (Int × ServiceStep)) :
    Tree.Traced m.nodes (m.performAt run).nodes (m.passagesAt run) := by
  induction run generalizing m
  case nil           => exact .refl
  case cons s run ih => exact (perform_traced (m := m.tick s.1) s.2).trans ih

section

variable {step : ServiceStep} {run : List (Int × ServiceStep)}

theorem perform_target (h : step.begins = false) : (m.perform step).2.target = m.target := by
  cases step
  case init         => cases h
  case call id call => exact issue_target id call
  all_goals exact (Still.perform rfl).target

theorem performAt_target (h : ∀ s ∈ run, s.2.begins = false) :
    (m.performAt run).target = m.target := by
  induction run generalizing m
  case nil => rfl
  case cons s run ih =>
    have ih := @ih ((m.tick s.1).perform s.2).2 fun q hq => h q (List.mem_cons_of_mem s hq)
    exact ih.trans <| perform_target (h s List.mem_cons_self)

-- An operation creates nodes, or deletes some that it may.
theorem Course.passage {x : Passage} (h : Course m id op (outcome, m'))
    (hx : x ∈ op.passages (m.fullPath op.path) outcome) :
    (∃ q, x = .created q) ∨ ∃ q, x = .deleted q ∧ m.isProtected q = false := by
  cases h
  case quiet unchanged =>
    rw [passages_of_quiet unchanged] at hx
    cases hx
  case create                 => exact .inl ⟨_, List.mem_singleton.mp hx⟩
  case delete unprotected _ _ => exact .inr ⟨_, List.mem_singleton.mp hx, unprotected⟩
  all_goals cases hx

theorem passage_of_session {x : Passage} (h : step.begins = false) (hx : x ∈ m.passages step) :
    (∃ q, x = .created q) ∨ ∃ q, x = .deleted q ∧ m.isProtected q = false := by
  cases step
  case init => cases h
  case call id call =>
    simp only [passages] at hx
    cases issue_cases (m := m) id call
    case inl h =>
      rw [h.left] at hx
      cases hx
    case inr h =>
      obtain ⟨outcome, executed, ho, course, _⟩ := h
      rw [ho] at hx
      exact course.passage hx
  all_goals cases hx

-- What is protected is there from when it is created.
theorem perform_protected (h : step.begins = false) (hp : m.isProtected path) :
    path ∈ (m.perform step).2.nodes ↔ path ∈ m.nodes ∨ .created path ∈ m.passages step := by
  have ht := perform_traced (m := m) step path
  have founded : .founded path ∉ m.passages step := fun hx => by
    simpa using passage_of_session h hx
  have swept : .swept path ∉ m.passages step := fun hx => by
    simpa using passage_of_session h hx
  have deleted : .deleted path ∉ m.passages step := fun hx => by
    simpa [hp] using passage_of_session h hx
  constructor
  case mp =>
    intro hm
    exact made_of_present (ht.mp hm) |>.imp_right (·.resolve_right founded)
  case mpr =>
    intro hm
    exact ht.mpr <| present_of_made deleted swept (hm.imp_right .inl)

theorem performAt_protected (h : ∀ s ∈ run, s.2.begins = false) (hp : m.isProtected path) :
    path ∈ (m.performAt run).nodes ↔ path ∈ m.nodes ∨ .created path ∈ m.passagesAt run := by
  induction run generalizing m
  case nil => simp [performAt, passagesAt]
  case cons s run ih =>
    have hs : s.2.begins = false := h s List.mem_cons_self
    have hp' : ((m.tick s.1).perform s.2).2.isProtected path := by
      rw [isProtected, perform_target hs]
      exact hp
    have ih := ih (fun q hq => h q (List.mem_cons_of_mem s hq)) hp'
    rw [passagesAt, List.mem_append, ← or_assoc]
    exact ih.trans <| or_congr_left <| perform_protected (m := m.tick s.1) hs hp

end

section

variable {root : String} {run : List (Int × ServiceStep)} {watch : Bool} {data : ByteArray}
  {acl : List Acl} {flags : Nat} {mode : CallMode} {rc : ResultCode}

theorem root_mem_init (hc : target.chroot = some root) (hr : IsRoot root) :
    root ∈ (m.init target).nodes ↔ IsRegular root ∨ m.nodes.Lasts root := by
  have hw : root ∈ target.ways ↔ IsRegular root := by
    refine ⟨Target.isRegular_of_mem_ways, fun h => ?_⟩
    rw [Target.ways, hc]
    exact mem_steps.mpr ⟨segments root, List.prefix_refl _, hr.segments_ne_nil h, h.symm⟩
  rw [(m.init_still target).nodes, prepared_eq_ensureAll, mem_ensureAll]
  exact or_congr hw Tree.mem_sweep

-- The root is there from the start, or from when the client creates it.
theorem root_mem_iff (c : m.nodes.Census log) (hr : ∀ root ∈ target.chroot, IsRoot root)
    (session : ∀ s ∈ run, s.2.begins = false) :
    target.fullPath "/" ∈ ((m.init target).performAt run).nodes ↔ ∀ root ∈ target.chroot,
      IsRegular root ∨ m.nodes.Lasts root ∨ .created root ∈ (m.init target).passagesAt run := by
  cases hc : target.chroot
  case none =>
    have ci : (m.init target).nodes.Census _ := (m.init_still target).nodes ▸ prepared_census c _
    rw [Target.fullPath, hc]
    exact iff_of_true (performAt_census ci run).root.mem (by simp)
  case some root =>
    have ht : (m.init target).target = some target := (Rooted.init m target).session
    have hp : (m.init target).isProtected root := by simp [isProtected, ht, hc]
    rw [Target.fullPath_root hc, performAt_protected session hp, root_mem_init hc (hr root hc),
      or_assoc]
    simp

theorem parent?_fullPath {x : List Char} (hr : ∀ root ∈ target.chroot, IsRoot root)
    (hx : x ≠ [] ∧ '/' ∉ x) :
    parent? (target.fullPath (join [x])) = some (target.fullPath "/") := by
  cases hc : target.chroot
  case none =>
    rw [Target.fullPath, Target.fullPath, hc]
    exact (parent?_join hx.right : parent? (join ([] ++ [x])) = some (join []))
  case some root =>
    obtain ⟨_, ht⟩ := (hr root hc).absolute.cons
    have hn : join [x] ≠ "/" :=
      mt (join_eq_root (proper_singleton.mpr hx)).mp (List.cons_ne_nil _ _)
    have hp : (String.ofList (root.toList ++ (join [x]).toList)).toList =
        root.toList ++ '/' :: x := by
      rw [String.toList_ofList, toList_join (List.cons_ne_nil _ _), spell_singleton]
    rw [Target.fullPath_of_ne hc hn, Target.fullPath_root hc, parent?_split hp hx.right,
      String.ofList_toList, ht]
    rfl

theorem outcome_rc (serves : m.serves) :
    (m.outcome? id ⟨op, mode⟩).map (·.rc) = some rc ↔
      ((m.logged id ⟨op, mode⟩).execute id op).1.rc = rc := by
  rw [outcome?, if_pos serves, Option.map_some, Option.some.injEq]

theorem exists_ok :
    (m.execute id (.exists path watch)).1.rc = .ok ↔ m.fullPath path ∈ m.nodes := by
  rw [Tree.mem_iff]
  simp only [execute, doesExist]
  cases m.nodes[m.fullPath path]? <;> simp

theorem get_ok : (m.execute id (.get path watch)).1.rc = .ok ↔ m.fullPath path ∈ m.nodes := by
  rw [Tree.mem_iff]
  simp only [execute, get]
  cases m.nodes[m.fullPath path]? <;> simp

theorem create_noNode {parent : String} (hp : parent? (m.fullPath path) = some parent) :
    (m.execute id (.create path data acl flags)).1.rc ≠ .noNode ↔ parent ∈ m.nodes := by
  rw [Tree.mem_iff]
  simp only [execute, create, hp]
  cases m.nodes[parent]?
  case none => simp
  case some node =>
    simp only [Option.isSome_some, iff_true]
    split
    case isTrue  => simp
    case isFalse => split <;> split <;> simp [insertNode]

-- A client finds its root, and a place for nodes right below it, if and only if it has no chroot,
-- or one without empty segments, or the root was there when the session began, or the client has
-- created it. Otherwise the session makes the root at another path than the client asks for.
theorem root_served_iff {clock : Int} {before run : List (Int × ServiceStep)} {text : String}
    {target : Target} (parsed : Target.parse text = .ok target)
    (session : ∀ s ∈ run, s.2.begins = false) :
    let m₀ := (new clock).performAt before
    let m := (m₀.init target).performAt run
    let rooted := ∀ root ∈ target.chroot, IsRegular root ∨ m₀.nodes.Lasts root ∨
      .created root ∈ (m₀.init target).passagesAt run
    m.serves → ∀ id mode,
      (∀ watch, (m.outcome? id ⟨.exists "/" watch, mode⟩).map (·.rc) = some .ok ↔ rooted) ∧
      (∀ watch, (m.outcome? id ⟨.get "/" watch, mode⟩).map (·.rc) = some .ok ↔ rooted) ∧
      ∀ x data acl flags, x ≠ [] ∧ '/' ∉ x →
        ((m.outcome? id ⟨.create (join [x]) data acl flags, mode⟩).map (·.rc) ≠ some .noNode ↔
          rooted) := by
  intro m₀ m rooted serves id mode
  have hr (root : String) (hc : root ∈ target.chroot) : IsRoot root :=
    Target.isRoot_of_parse parsed hc
  have ht : m.target = some target :=
    (performAt_target session).trans (Rooted.init m₀ target).session
  have full (path : String) : m.fullPath path = target.fullPath path := by
    rw [fullPath, ht]
  have there : target.fullPath "/" ∈ m.nodes ↔ rooted :=
    root_mem_iff (performAt_census (new_census clock) before) hr session
  refine ⟨fun watch => ?_, fun watch => ?_, fun x data acl flags hx => ?_⟩
  case refine_1 => rw [outcome_rc serves, exists_ok, ← there, ← full]; rfl
  case refine_2 => rw [outcome_rc serves, get_ok, ← there, ← full]; rfl
  case refine_3 =>
    let logged := m.logged id ⟨.create (join [x]) data acl flags, mode⟩
    have hp : parent? (logged.fullPath (join [x])) = some (target.fullPath "/") :=
      (full (join [x])).symm ▸ parent?_fullPath hr hx
    rw [ne_eq, outcome_rc serves, ← ne_eq, create_noNode hp, ← there]
    rfl

-- A node below the root, and an attempt to delete the root when the node is gone again.
def visits : List (Int × ServiceStep) := [
  (0, .call ⟨1⟩ ⟨.create "/x" ByteArray.empty Acl.openUnsafe 0, .sync⟩),
  (0, .call ⟨2⟩ ⟨.delete "/x" anyVersion, .sync⟩),
  (0, .call ⟨3⟩ ⟨.delete "/" anyVersion, .sync⟩)]

def visited : Target :=
  ⟨"localhost:2181/srv/app", ["localhost:2181"], some "/srv/app"⟩

theorem root_served_visits :
    let m := ((new 0).init visited).performAt visits
    Target.parse "localhost:2181/srv/app" = .ok visited ∧
      (∀ s ∈ visits, s.2.begins = false) ∧ m.serves ∧
      (m.outcome? ⟨4⟩ ⟨.exists "/" false, .sync⟩).map (·.rc) = some .ok := by
  intro m
  have parsed : Target.parse "localhost:2181/srv/app" = .ok visited := rfl
  have session : ∀ s ∈ visits, s.2.begins = false := by decide
  have serves : m.serves := by decide +kernel
  have regular : ∀ root ∈ visited.chroot, IsRegular root := by decide +kernel
  have h := @root_served_iff 0 [] visits _ visited parsed session serves ⟨4⟩ .sync
  exact ⟨parsed, session, serves, (h.left false).mpr fun root hc => .inl (regular root hc)⟩

-- The session makes the root as "/a", and the client asks for "//a".
theorem root_not_served :
    let m := (new 0).performAt [(0, .init "localhost:2181//a" ⟨0⟩)]
    m.serves ∧ m.target.bind Target.chroot = some "//a" ∧ m.nodes.keys = ["/", "/a"] ∧
      (m.outcome? ⟨1⟩ ⟨.exists "/" false, .sync⟩).map (·.rc) = some .noNode ∧
      (m.outcome? ⟨1⟩ ⟨.get "/" false, .sync⟩).map (·.rc) = some .noNode ∧
      (m.outcome? ⟨1⟩ ⟨.create "/x" ByteArray.empty Acl.openUnsafe 0, .sync⟩).map (·.rc) =
        some .noNode := by
  decide +kernel

end

end Memory
end Coordination
