import Coordination.Proofs.Memory.Children
import Coordination.Proofs.Memory.Lasting

namespace Coordination

open Coordination.Path

-- A node comes or goes.
inductive Passage where
  | created (path : String)
  | deleted (path : String)
  -- By a session that begins, for its chroot.
  | founded (path : String)
  -- With the session it belonged to.
  | swept (path : String)
  deriving DecidableEq, Repr

namespace Passage

-- By how much the number reported for a path is too high after the passage, if it was too high by
-- `n` before. Calls go by the text before the last slash, which only differs from what is listed
-- for segments that are empty.
def drift (p : String) (n : Int) : Passage → Int
  | created path =>
    if path = p then 0 else if parent? path = some p ∧ !lists p path then n + 1 else n
  | deleted path => if parent? path = some p ∧ !lists p path then n - 1 else n
  | founded path => if path = p then 0 else if lists p path then n - 1 else n
  | swept path => if lists p path then n + 1 else n

end Passage

-- By how much the number reported for a path is too high in the end.
def drift (p : String) (log : List Passage) : Int :=
  log.foldl (Passage.drift p) 0

-- What an operation on a full path did to the nodes.
def Operation.passages (op : Operation) (full : String) (o : Memory.Outcome) : List Passage :=
  if o.rc = .ok then
    match op, o.payload with
    | .create .., .string (some path) => [.created path]
    | .delete .., _ => [.deleted full]
    | _, _ => []
  else []

namespace Memory

-- Those of some paths that are made because they are not there.
def founds : List String → Memory → List String
  | [], _ => []
  | path :: rest, m =>
    if path ∈ m.nodes then m.founds rest else path :: (m.ensureNode path).founds rest

-- The nodes that a session makes for its chroot.
def founded (target : Target) (m : Memory) : List String :=
  match target.chroot with
  | none => []
  | some root => (m.blank target).founds (steps root)

def passages (step : ServiceStep) (m : Memory) : List Passage :=
  match step with
  | .init text _ =>
    match Target.parse text with
    | .error _ => []
    | .ok target => m.nodes.swept.map .swept ++ (m.founded target).map .founded
  | .call id call =>
    match m.outcome? id call with
    | none => []
    | some outcome => call.op.passages (m.fullPath call.op.path) outcome
  | _ => []

def passagesAt : List (Int × ServiceStep) → Memory → List Passage
  | [], _ => []
  | (now, step) :: rest, m =>
    (m.tick now).passages step ++ passagesAt rest ((m.tick now).perform step).2

end Memory

variable {log log' : List Passage} {p path parent : String}

theorem drift_concat (x : Passage) : drift p (log ++ [x]) = x.drift p (drift p log) := by
  simp [drift]

theorem drift_swept (paths : List String) :
    drift p (log ++ paths.map .swept) = drift p log + paths.countP (lists p) := by
  induction paths generalizing log
  case nil => simp
  case cons path paths ih =>
    rw [List.map_cons, ← List.singleton_append, ← List.append_assoc, ih, drift_concat,
      List.countP_cons, Passage.drift]
    split <;> omega

-- On regular paths, calls keep the number as it is.
theorem drift_regular {n : Int} (h : IsRegular path) (hr : path ≠ "/") :
    (Passage.created path).drift p n = (if path = p then 0 else n) ∧
      (Passage.deleted path).drift p n = n := by
  have hn : ¬(parent? path = some p ∧ !lists p path) := by
    rintro ⟨hp, hn⟩
    simp [h.lists hr hp] at hn
  simp only [Passage.drift, if_neg hn, true_and]

namespace Tree

variable {t t' : Tree} {node node' : Node}

-- Every node has its place below the root, and what it reports is off by as much as the log tells.
structure Census (t : Tree) (log : List Passage) : Prop where
  root     : t.Lasts "/"
  absolute : ∀ path node, t[path]? = some node → IsAbsolute path
  parent   : ∀ path node, t[path]? = some node → ∀ p, IsAbsolute p → lists p path → t.Lasts p
  counts   : ∀ path node, t[path]? = some node →
    node.stat.numChildren = (t.children path).length + drift path log

namespace Census

-- A node that is not there has no children.
theorem children_eq_nil_of_absent (c : t.Census log) (ha : IsAbsolute path) (h : t[path]? = none) :
    t.children path = [] := by
  refine children_eq_nil.mpr fun child hm => Bool.eq_false_iff.mpr fun hl => ?_
  have ⟨node, hn⟩ := exists_node hm
  have ⟨_, hf, _⟩ := c.parent child node hn path ha hl
  exact nomatch hf.symm.trans h

-- The same nodes, each as far off as the log now tells.
theorem recount (c : t.Census log) (hs : ∀ path : String, t[path]?.isSome → t'[path]?.isSome)
    (h : ∀ (path : String) node', t'[path]? = some node' → ∃ node, t[path]? = some node ∧
      node'.isEphemeral = node.isEphemeral ∧
      node'.stat.numChildren - drift path log' = node.stat.numChildren - drift path log) :
    t'.Census log' := by
  have lasts {path : String} (hl : t.Lasts path) : t'.Lasts path := by
    have ⟨node, hn, he⟩ := hl
    have ⟨node', hn'⟩ := Option.isSome_iff_exists.mp <| hs path (by rw [hn]; rfl)
    have ⟨_, hn₀, he', _⟩ := h path node' hn'
    cases hn.symm.trans hn₀
    exact ⟨node', hn', he'.trans he⟩
  constructor
  case root => exact lasts c.root
  case absolute =>
    intro path node' hn'
    have ⟨node, hn, _⟩ := h path node' hn'
    exact c.absolute path node hn
  case parent =>
    intro path node' hn' p hp hl
    have ⟨node, hn, _⟩ := h path node' hn'
    exact lasts <| c.parent path node hn p hp hl
  case counts =>
    intro path node' hn'
    have ⟨node, hn, _, hd⟩ := h path node' hn'
    have hc := c.counts path node hn
    have hk : ∀ q, q ∈ t' ↔ q ∈ t := by
      intro q
      rw [mem_iff, mem_iff]
      refine ⟨fun hq => ?_, hs q⟩
      have ⟨_, hq⟩ := Option.isSome_iff_exists.mp hq
      have ⟨_, hq, _⟩ := h q _ hq
      rw [hq]
      rfl
    rw [length_children_congr hk]
    omega

-- A node gets new contents.
theorem rewrite (c : t.Census log) (found : t[path]? = some node)
    (he : node'.isEphemeral = node.isEphemeral)
    (hn : node'.stat.numChildren = node.stat.numChildren) :
    Census (t.insert path node') log := by
  refine c.recount (fun q hq => ?_) fun q n h => ?_ <;> rw [getElem?_put] at *
  case refine_1 => split <;> simp_all
  case refine_2 =>
    split at h
    case isFalse   => exact ⟨n, h, rfl, rfl⟩
    case isTrue hq => cases h; exact ⟨node, hq ▸ found, he, by rw [hn]⟩

-- The number in a node goes up or down.
theorem modify {f : Node → Node} {d : Int} (c : t.Census log)
    (he : ∀ node, (f node).isEphemeral = node.isEphemeral)
    (hn : ∀ node, (f node).stat.numChildren = node.stat.numChildren + d)
    (hd : ∀ path node, t[path]? = some node →
      drift path log' = drift path log + if path = parent then d else 0) :
    Census (t.modify parent f) log' := by
  refine c.recount (fun q hq => ?_) fun q n h => ?_ <;> rw [getElem?_change] at *
  case refine_1 => split <;> simp_all
  case refine_2 =>
    split at h
    case isFalse hq => exact ⟨n, h, rfl, by rw [hd q n h, if_neg hq, Int.add_zero]⟩
    case isTrue hq =>
      have ⟨n₀, h₀, hf⟩ := Option.map_eq_some_iff.mp h
      refine ⟨n₀, h₀, hf ▸ he n₀, ?_⟩
      rw [← hf, hn, hd q n₀ h₀, if_pos hq]
      omega

-- A node is made that does not report anything yet, and its parent does not either.
theorem found (c : t.Census log) (absent : t[path]? = none) (hp : parent? path = some parent)
    (lasts : t.Lasts parent) (hn : node.stat.numChildren = 0) :
    Census (t.insert path node) (log ++ [.founded path]) := by
  have ⟨_, hpar, _⟩ := lasts
  have ha : IsAbsolute path := (c.absolute parent _ hpar).of_parent? hp
  have hne : path ≠ parent := fun h => nomatch (h ▸ hpar).symm.trans absent
  constructor
  case root => exact c.root.put absent
  case absolute =>
    intro q n h
    rw [getElem?_put] at h
    split at h
    case isTrue hq => exact hq ▸ ha
    case isFalse   => exact c.absolute q n h
  case parent =>
    intro q n h p hp' hl
    rw [getElem?_put] at h
    split at h
    case isFalse => exact (c.parent q n h p hp' hl).put absent
    case isTrue hq =>
      subst hq
      cases hp.symm.trans (parent?_of_lists hp' hl)
      exact lasts.put absent
  case counts =>
    intro q n h
    rw [length_children_put node absent, drift_concat, Passage.drift]
    rw [getElem?_put] at h
    split at h
    case isFalse hq =>
      rw [if_neg (Ne.symm hq), c.counts q n h]
      split <;> omega
    case isTrue hq =>
      subst hq
      cases h
      have hl : lists q q = false := Bool.eq_false_iff.mpr fun hl =>
        hne <| Option.some.inj <| (parent?_of_lists ha hl).symm.trans hp
      rw [if_pos rfl, c.children_eq_nil_of_absent ha absent, hn, hl]
      rfl

-- A node without children goes, and its parent still reports it.
theorem sweepOne (c : t.Census log) (found : t[path]? = some node) (hc : t.children path = [])
    (hne : path ≠ "/") : Census (t.erase path) (log ++ [.swept path]) := by
  have old {q : String} {n : Node} (h : (t.erase path)[q]? = some n) :
      q ≠ path ∧ t[q]? = some n := by
    rw [getElem?_drop] at h
    split at h
    case isTrue     => cases h
    case isFalse hq => exact ⟨hq, h⟩
  constructor
  case root => exact c.root.drop hne.symm
  case absolute =>
    intro q n h
    exact c.absolute q n (old h).right
  case parent =>
    intro q n h p hp hl
    refine (c.parent q n (old h).right p hp hl).drop fun hpath => ?_
    exact nomatch hl.symm.trans (children_eq_nil.mp (hpath ▸ hc) q (mem_of_found (old h).right))
  case counts =>
    intro q n h
    have hl : (t.children q).length =
        (children (t.erase path) q).length + if lists q path then 1 else 0 :=
      length_children_drop (by rw [found]; rfl)
    rw [c.counts q n (old h).right, drift_concat, Passage.drift, hl]
    split <;> omega

-- By a call: the parent reports the new node, whether it is listed or not.
theorem create {zxid : Int} (c : t.Census log) (absent : t[path]? = none)
    (hp : parent? path = some parent) (lasts : t.Lasts parent)
    (hn : node.stat.numChildren = 0) :
    Census (Std.ExtTreeMap.modify (t.insert path node) parent (Node.childCreated zxid))
      (log ++ [.created path]) := by
  have cf := c.found absent hp lasts hn
  refine cf.modify (fun _ => rfl) (fun _ => rfl) fun q n h => ?_
  have hq := cf.absolute q n h
  have ⟨_, hpar, _⟩ := lasts
  have hne : path ≠ parent := fun h => nomatch (h ▸ hpar).symm.trans absent
  simp only [drift_concat, Passage.drift, hp, Option.some.injEq]
  by_cases hpath : path = q
  case pos => rw [if_pos hpath, if_pos hpath, if_neg fun h => hne (hpath.trans h)]; rfl
  case neg =>
    rw [if_neg hpath, if_neg hpath]
    by_cases hpar : q = parent
    case pos => subst hpar; cases lists q path <;> simp
    case neg =>
      have hl : lists q path = false := Bool.eq_false_iff.mpr fun hl =>
        hpar <| Option.some.inj <| (parent?_of_lists hq hl).symm.trans hp
      simp [hl, hpar, Ne.symm hpar]

theorem delete {zxid : Int} (c : t.Census log) (found : t[path]? = some node)
    (hc : t.children path = []) (hne : path ≠ "/") (hp : parent? path = some parent) :
    Census (Std.ExtTreeMap.modify (t.erase path) parent (Node.childDeleted zxid))
      (log ++ [.deleted path]) := by
  have cs := c.sweepOne found hc hne
  refine cs.modify (fun _ => rfl) (fun _ => rfl) fun q n h => ?_
  have hq := cs.absolute q n h
  simp only [drift_concat, Passage.drift, hp, Option.some.injEq]
  by_cases hpar : q = parent
  case pos =>
    subst hpar
    cases lists q path
    case false => simp [Int.sub_eq_add_neg]
    case true =>
      simp only [Bool.not_true, Bool.false_eq_true, and_false, ↓reduceIte]
      omega
  case neg =>
    have hl : lists q path = false := Bool.eq_false_iff.mpr fun hl =>
      hpar <| Option.some.inj <| (parent?_of_lists hq hl).symm.trans hp
    simp [hl, hpar, Ne.symm hpar]

-- Nodes of a session have no children, so those that stay keep their parents.
theorem sweep (c : t.Census log) : t.sweep.Census (log ++ t.swept.map .swept) := by
  have old {q : String} {n : Node} (h : t.sweep[q]? = some n) :
      t[q]? = some n ∧ n.isEphemeral = false := by
    rw [getElem?_sweep, Option.filter_eq_some_iff] at h
    exact ⟨h.left, by simpa using h.right⟩
  constructor
  case root => exact c.root.sweep
  case absolute =>
    intro q n h
    exact c.absolute q n (old h).left
  case parent =>
    intro q n h p hp hl
    exact (c.parent q n (old h).left p hp hl).sweep
  case counts =>
    intro q n h
    rw [c.counts q n (old h).left, drift_swept, length_children_sweep]
    omega

end Census

end Tree

namespace Memory

variable {m m' : Memory} {id : RequestId} {op : Operation} {outcome : Outcome}

open Coordination.Tree (Census)

theorem founded_eq_founds (target : Target) :
    m.founded target = (m.blank target).founds target.ways := by
  unfold founded Target.ways
  cases target.chroot <;> rfl

theorem removeNode_nodes (hp : parent? path = some parent) :
    (m.removeNode path).2.nodes =
      Std.ExtTreeMap.modify (m.nodes.erase path) parent (Node.childDeleted (m.zxid + 1)) := by
  simp only [removeNode, fireData, fireChild, hp, Option.getD_some]

theorem passages_of_refused {full : String} (h : outcome.rc ≠ .ok) :
    op.passages full outcome = [] := by
  unfold Operation.passages
  exact if_neg h

-- Nor do operations that leave the nodes as they are.
theorem passages_of_quiet {full : String} {rc : ResultCode} {payload : Payload}
    (h : op.changes → rc ≠ .ok) : op.passages full ⟨rc, payload, []⟩ = [] := by
  by_cases hr : rc = .ok
  case neg => exact passages_of_refused hr
  case pos =>
    unfold Operation.passages
    cases op <;> first | exact ite_self [] | exact absurd hr (h rfl)

theorem numbered_census {node : Node} {isSequence : Bool} (c : m.nodes.Census log)
    (found : m.nodes[parent]? = some node) : (m.numbered isSequence parent node).Census log := by
  unfold numbered
  split
  case isTrue  => exact c.rewrite found rfl rfl
  case isFalse => exact c

theorem Course.census (h : Course m id op (outcome, m')) (c : m.nodes.Census log) :
    m'.nodes.Census (log ++ op.passages (m.fullPath op.path) outcome) := by
  cases h
  case quiet rc payload unchanged =>
    have hn : (if op.setsWatch rc then m.watch id op else m).nodes = m.nodes := by
      split
      case isTrue  => exact nodes_watch
      case isFalse => rfl
    rw [hn, passages_of_quiet unchanged, List.append_nil]
    exact c
  case set path data version node node' found replaced =>
    have hc : Census (m.nodes.insert (m.fullPath path) node') log := by
      subst replaced
      exact c.rewrite found rfl rfl
    rw [← List.append_nil log] at hc
    exact hc
  case setAcl path acl version node found =>
    have hc : Census (m.nodes.insert (m.fullPath path) (node.replaceAcl acl)) log :=
      c.rewrite found rfl rfl
    rw [← List.append_nil log] at hc
    exact hc
  case counted path parent data acl flags node isParent found =>
    have hc : (m.numbered true parent node).Census log := numbered_census c found
    rw [← List.append_nil log] at hc
    exact hc
  case create path parent full data acl flags owner node nodes isParent found lasting named counted
      absent =>
    have hp : parent? full = some parent := parent?_named isParent named
    have hc : nodes.Census log := counted ▸ numbered_census c found
    have hl : nodes.Lasts parent := counted ▸ numbered_lasts ⟨node, found, lasting⟩ found
    exact hc.create absent hp hl rfl
  case delete path version node unprotected found childless =>
    have hne : m.fullPath path ≠ "/" := fun h => by simp [isProtected, h] at unprotected
    obtain ⟨parent, hp⟩ := exists_parent (c.absolute _ node found).slash_mem
    have hd : (m.removeNode (m.fullPath path)).2.nodes.Census
        (log ++ [.deleted (m.fullPath path)]) := by
      rw [removeNode_nodes hp]
      exact c.delete found childless hne hp
    exact hd

-- Induction on the segments that are still to come: what is above them is there.
theorem founds_census {a b : List (List Char)} (c : m.nodes.Census log) (hb : Proper b)
    (ha : m.nodes.Lasts (join a)) (hl : m.nodes.Lasting) :
    ((descend (spell a) b).foldl (fun m p => m.ensureNode p) m).nodes.Census
      (log ++ (m.founds (descend (spell a) b)).map .founded) := by
  induction b generalizing m log a
  case nil => simpa [descend, founds] using c
  case cons s b ih =>
    have hs := hb s List.mem_cons_self
    have hb := fun s h => hb s (List.mem_cons_of_mem _ h)
    rw [descend_cons, List.foldl_cons, founds]
    by_cases hm : join (a ++ [s]) ∈ m.nodes
    case pos =>
      have he : m.ensureNode (join (a ++ [s])) = m := if_pos hm
      rw [he, if_pos hm]
      exact ih c hb (hl _ hm) hl
    case neg =>
      have absent : m.nodes[join (a ++ [s])]? = none := Std.ExtTreeMap.getElem?_eq_none hm
      let node := Node.new ByteArray.empty Acl.openUnsafe (m.zxid + 1) 0 m.clock
      have he : (m.ensureNode (join (a ++ [s]))).nodes = m.nodes.insert (join (a ++ [s])) node := by
        simp only [ensureNode, if_neg hm, node]
      have hc := c.found absent (parent?_join hs.right) ha (rfl : node.stat.numChildren = 0)
      rw [if_neg hm, List.map_cons, List.append_cons log]
      have hl := ensureNode_lasting hl (join (a ++ [s]))
      exact ih (he ▸ hc) hb (hl _ (mem_ensureNode.mpr (.inl rfl))) hl

theorem prepared_census (c : m.nodes.Census log) (target : Target) :
    (m.prepared target).nodes.Census
      (log ++ (m.nodes.swept.map .swept ++ (m.founded target).map .founded)) := by
  have hs : (m.blank target).nodes.Census (log ++ m.nodes.swept.map .swept) := c.sweep
  rw [← List.append_assoc]
  unfold prepared founded
  cases target.chroot
  case none => rwa [List.map_nil, List.append_nil]
  case some root =>
    exact founds_census (a := []) hs (proper_segments root) hs.root Tree.sweep_lasting

theorem perform_census (c : m.nodes.Census log) (step : ServiceStep) :
    (m.perform step).2.nodes.Census (log ++ m.passages step) := by
  cases step
  case init text timeout =>
    simp only [perform, passages]
    cases Target.parse text
    case error     => simpa using c
    case ok target => exact (m.init_still target).nodes ▸ prepared_census c target
  case call id call =>
    simp only [perform, passages]
    cases issue_cases (m := m) id call
    case inl h =>
      rw [h.left, h.right.nodes, List.append_nil]
      exact c
    case inr h =>
      obtain ⟨outcome, executed, ho, course, still⟩ := h
      rw [ho, still.nodes]
      exact course.census c
  all_goals
    rw [(Still.perform rfl).nodes]
    simpa only [passages, List.append_nil] using c

theorem performAt_census (c : m.nodes.Census log) (run : List (Int × ServiceStep)) :
    (m.performAt run).nodes.Census (log ++ m.passagesAt run) := by
  induction run generalizing m log
  case nil => simpa [performAt, passagesAt] using c
  case cons s run ih =>
    rw [passagesAt, ← List.append_assoc]
    exact ih (perform_census (m := m.tick s.1) c s.2)

theorem new_census (clock : Int) : (new clock).nodes.Census [] := by
  have only {path : String} {node : Node} (h : (new clock).nodes[path]? = some node) :
      path = "/" ∧ node.stat.numChildren = 0 := by
    rw [new, Tree.getElem?_put] at h
    split at h
    case isTrue hp => cases h; exact ⟨hp, rfl⟩
    case isFalse   => simp at h
  constructor
  case root => exact ⟨_, Tree.getElem?_put.trans (if_pos rfl), rfl⟩
  case absolute =>
    intro path node h
    exact (only h).left ▸ rfl
  case parent =>
    intro path node h p hp hl
    rw [(only h).left, lists_root] at hl
    cases hl
  case counts =>
    intro path node h
    have hc : (new clock).nodes.children path = [] := Tree.children_eq_nil.mpr fun q hm => by
      have ⟨_, hq⟩ := Tree.exists_node hm
      rw [(only hq).left, lists_root]
    rw [hc, (only h).right]
    rfl

theorem found_of_outcome {call : Call} {path : String} {watch : Bool} {children : List String}
    {stat : Stat} (hop : call.op = .getChildren path watch)
    (h : m.outcome? id call = some ⟨.ok, .children children (some stat), []⟩) :
    ∃ node, m.nodes[m.fullPath path]? = some node ∧ stat = node.stat ∧
      children = m.nodes.children (m.fullPath path) := by
  have ⟨_, h⟩ := Option.ite_none_right_eq_some.mp h
  rw [hop, execute, getChildren] at h
  cases hn : (m.logged id call).nodes[(m.logged id call).fullPath path]? <;>
    simp only [hn, Option.some.injEq, Outcome.mk.injEq, reduceCtorEq, false_and] at h
  case some node =>
    obtain ⟨_, hp, _⟩ := h
    cases hp
    exact ⟨node, hn, rfl, rfl⟩

-- After every run, a node reports as many children as are listed and as many more as the log tells.
theorem numChildren_eq_drift {clock : Int} {run : List (Int × ServiceStep)} {id : RequestId}
    {call : Call} {path : String} {watch : Bool} {children : List String} {stat : Stat}
    (hop : call.op = .getChildren path watch)
    (h : ((new clock).performAt run).outcome? id call =
      some ⟨.ok, .children children (some stat), []⟩) :
    stat.numChildren = children.length +
      drift (((new clock).performAt run).fullPath path) ((new clock).passagesAt run) := by
  have c := performAt_census (new_census clock) run
  have ⟨node, hn, hs, hc⟩ := found_of_outcome hop h
  rw [hs, hc, c.counts _ node hn, List.nil_append]

-- The root is listed after a session whose node has gone away with it.
def successive : List (Int × ServiceStep) := [
  (0, .init "localhost:2181" ⟨0⟩),
  (0, .call ⟨1⟩ ⟨.create "/e" ByteArray.empty Acl.openUnsafe createEphemeral, .sync⟩),
  (0, .init "localhost:2181" ⟨0⟩)]

def listRoot : Call :=
  ⟨.getChildren "/" false, .sync⟩

theorem numChildren_eq_drift_successive :
    ((new 0).performAt successive).outcome? ⟨2⟩ listRoot =
      some ⟨.ok, .children [] (some { cversion := 1, numChildren := 1, pzxid := 1 }), []⟩ ∧
    (1 : Int) = ([] : List String).length +
      drift (((new 0).performAt successive).fullPath "/") ((new 0).passagesAt successive) := by
  have h : ((new 0).performAt successive).outcome? ⟨2⟩ listRoot =
      some ⟨.ok, .children [] (some { cversion := 1, numChildren := 1, pzxid := 1 }), []⟩ := by
    decide +kernel
  exact ⟨h, numChildren_eq_drift rfl h⟩

-- The node is not listed any more, but still reported.
theorem swept_still_reported :
    ((new 0).performAt successive).outcome? ⟨2⟩ listRoot =
      some ⟨.ok, .children [] (some { cversion := 1, numChildren := 1, pzxid := 1 }), []⟩ ∧
    (1 : Int) ≠ ([] : List String).length := by
  decide +kernel

end Memory
end Coordination
