import Coordination.Proofs.Memory.Children
import Coordination.Proofs.Memory.Steps

namespace Coordination

open Coordination.Path

-- What a watch is on.
inductive Subject where
  | node
  | children
  deriving DecidableEq, Repr

def Operation.subject : Operation → Subject
  | getChildren .. => .children
  | _ => .node

namespace Memory

-- Something has happened to the node at a full path, or to its children.
structure Signal where
  subject : Subject
  path : String
  type : EventType

-- A call that got through, the full path it was about, and what it came to.
structure Report where
  id : RequestId
  op : Operation
  full : String
  outcome : Outcome

def report (id : RequestId) (op : Operation) (outcome : Outcome) (m : Memory) : Report :=
  ⟨id, op, m.fullPath op.path, outcome⟩

namespace Report

-- The call has registered a watch.
def sets (s : Subject) (r : Report) : Bool :=
  r.op.setsWatch r.outcome.rc && r.op.subject = s

-- What has happened, in the order in which it is told. A node that is made has the path that the
-- call answered, also when a number was put behind the one it was given.
def signals (r : Report) : List Signal :=
  if r.outcome.rc = .ok then
    match r.op, r.outcome.payload with
    | .set .., _ => [⟨.node, r.full, .changed⟩]
    | .create .., .string (some path) =>
      ⟨.node, path, .created⟩ :: (parent? path).toList.map (⟨.children, ·, .child⟩)
    | .delete .., _ =>
      ⟨.node, r.full, .deleted⟩ :: ⟨.children, r.full, .deleted⟩ ::
        (parent? r.full).toList.map (⟨.children, ·, .child⟩)
    | _, _ => []
  else []

def touches (s : Subject) (path : String) (r : Report) : Bool :=
  r.signals.any fun g => g.subject = s && g.path = path

-- What the registration is told, in the words of the client.
def told (type : EventType) (r : Report) : WatchEvent :=
  ⟨r.id, type, .connected, some r.op.path⟩

def watch (r : Report) : Watch :=
  ⟨r.full, r.id⟩

end Report

-- The registrations that nothing has touched since.
def standing (s : Subject) : List Report → List Report
  | [] => []
  | r :: later =>
    if r.sets s && !later.any (·.touches s r.full) then r :: standing s later
    else standing s later

-- Those that a signal reaches.
def Signal.reaches (log : List Report) (g : Signal) : List Report :=
  (standing g.subject log).filter (·.full = g.path)

variable {m m' : Memory} {log : List Report} {r k : Report} {s : Subject} {type : EventType}
  {path : String} {id : RequestId} {op : Operation} {outcome : Outcome}

theorem standing_concat : standing s (log ++ [k]) =
    (standing s log).filter (fun r => !k.touches s r.full) ++ if k.sets s then [k] else [] := by
  induction log
  case nil => cases h : k.sets s <;> simp [standing, h]
  case cons r log ih =>
    simp only [List.cons_append, standing, ih, List.any_append, List.any_cons, List.any_nil,
      Bool.or_false]
    cases r.sets s <;> cases log.any (·.touches s r.full) <;> cases h : k.touches s r.full <;>
      simp [h]

theorem mem_of_standing (h : r ∈ standing s log) : r ∈ log := by
  induction log
  case nil => cases h
  case cons r' log ih =>
    unfold standing at h
    split at h
    case isFalse => exact List.mem_cons_of_mem _ (ih h)
    case isTrue =>
      rcases List.mem_cons.mp h with rfl | h
      · exact List.mem_cons_self
      · exact List.mem_cons_of_mem _ (ih h)

theorem notices_watch {rs : List Report} (h : ∀ r ∈ rs, m.clientPath r.full = r.op.path) :
    m.notices (Watch.idsAt path (rs.map Report.watch)) type path =
      (rs.filter (·.full = path)).map (·.told type) := by
  induction rs
  case nil => rfl
  case cons r rs ih =>
    have ih := ih fun r hr => h r (List.mem_cons_of_mem _ hr)
    by_cases hp : r.full = path
    case neg => simpa [notices, Watch.idsAt, Report.watch, hp] using ih
    case pos =>
      have hr : m.clientPath path = r.op.path := hp ▸ h r List.mem_cons_self
      simpa [notices, Watch.idsAt, Report.watch, hp, Report.told, hr] using ih

def watches (s : Subject) (m : Memory) : List Watch :=
  match s with
  | .node => m.dataWatches
  | .children => m.childWatches

-- What is reported has been told to all who watched, and to nobody else; they watch no longer.
structure Rings (m : Memory) (k : Report) (m' : Memory) : Prop where
  target   : m'.target = m.target
  fired    : k.outcome.fired = k.signals.flatMap fun g =>
    m.notices (Watch.idsAt g.path (m.watches g.subject)) g.type g.path
  watches  : ∀ s, m'.watches s = (m.watches s).filter (fun w => !k.touches s w.path) ++
    if k.sets s then [k.watch] else []
  distinct : (k.signals.map fun g => (g.subject, g.path)).Nodup

theorem filter_untouched {ws : List Watch} (h : ∀ path, k.touches s path = false) :
    ws.filter (fun w => !k.touches s w.path) = ws :=
  List.filter_eq_self.mpr fun w _ => by rw [h]; rfl

theorem filter_elsewhere {ws : List Watch} (h : ∀ p, k.touches s p = decide (p = path)) :
    ws.filter (fun w => !k.touches s w.path) = Watch.elsewhere path ws :=
  List.filter_congr fun w _ => by simp [h]

-- A call that has nothing to tell.
theorem rings_silent (hs : k.signals = []) (hf : k.outcome.fired = [])
    (ht : m'.target = m.target)
    (hw : ∀ s, m'.watches s = m.watches s ++ if k.sets s then [k.watch] else []) :
    Rings m k m' where
  target := ht
  fired := by rw [hs, hf]; rfl
  watches s := by
    rw [filter_untouched fun path => by simp [Report.touches, hs], hw]
  distinct := by rw [hs]; exact .nil

theorem sets_eq_false (h : op.changes) : (m.report id op outcome).sets s = false := by
  cases op <;> first | rfl | cases h

-- A read that says so has set its watch.
theorem watches_watch {rc : ResultCode} (hr : op.setsWatch rc = true) :
    (m.watch id op).watches s =
      m.watches s ++ if op.subject = s then [⟨m.fullPath op.path, id⟩] else [] := by
  cases op <;> cases s <;> first | rfl | cases hr | exact (List.append_nil _).symm

theorem quiet_rings {rc : ResultCode} {payload : Payload} (unchanged : op.changes → rc ≠ .ok) :
    Rings m (m.report id op ⟨rc, payload, []⟩)
      (if op.setsWatch rc then m.watch id op else m) := by
  have hsig : (m.report id op ⟨rc, payload, []⟩).signals = [] := by
    unfold Report.signals
    split
    case isFalse => rfl
    case isTrue hr => cases op <;> first | rfl | exact absurd hr (unchanged rfl)
  have hsets (s : Subject) : (m.report id op ⟨rc, payload, []⟩).sets s =
    (op.setsWatch rc && decide (op.subject = s)) := rfl
  refine rings_silent hsig rfl ?_ fun s => ?_
  case refine_1 =>
    split
    case isFalse => rfl
    case isTrue  => cases op <;> rfl
  case refine_2 =>
    rw [hsets]
    by_cases hr : op.setsWatch rc
    case neg => simp [hr]
    case pos => simp [hr, watches_watch hr, Report.watch, report]

theorem set_rings {data : ByteArray} {version : Int} {nodes : Tree} {stat : Stat} :
    let fire := m.committed nodes |>.fireData .changed (m.fullPath path)
    Rings m (m.report id (.set path data version) ⟨.ok, .stat (some stat), fire.1⟩) fire.2 := by
  intro fire
  generalize hr : m.report id (.set path data version) _ = k
  have hsig : k.signals = [⟨.node, m.fullPath path, .changed⟩] := hr ▸ rfl
  have hu (s : Subject) : k.sets s = false := hr ▸ sets_eq_false rfl
  constructor
  case target   => rfl
  case distinct => simp [hsig]
  case fired    => rw [hsig, List.flatMap_singleton, ← hr]; rfl
  case watches =>
    intro s
    rw [hu, if_neg Bool.false_ne_true, List.append_nil]
    cases s
    case node     => exact (filter_elsewhere fun p => by simp [Report.touches, hsig, eq_comm]).symm
    case children => exact (filter_untouched fun p => by simp [Report.touches, hsig]).symm

theorem create_rings {parent full : String} {data : ByteArray} {acl : List Acl} {flags : Nat}
    {owner : Int} {nodes : Tree} (hp : parent? full = some parent) :
    let insert := { m with nodes := nodes }.insertNode parent full data acl owner
    Rings m (m.report id (.create path data acl flags) insert.1) insert.2 := by
  intro insert
  generalize hr : m.report id (.create path data acl flags) insert.1 = k
  have hsig : k.signals = [⟨.node, full, .created⟩, ⟨.children, parent, .child⟩] := by
    rw [← hr]
    change _ :: (parent? full).toList.map _ = _
    rw [hp]
    rfl
  have hu (s : Subject) : k.sets s = false := hr ▸ sets_eq_false rfl
  constructor
  case target   => rfl
  case distinct => simp [hsig]
  case fired    => rw [hsig, List.flatMap_cons, List.flatMap_singleton, ← hr]; rfl
  case watches =>
    intro s
    rw [hu, if_neg Bool.false_ne_true, List.append_nil]
    cases s
    all_goals exact (filter_elsewhere fun p => by simp [Report.touches, hsig, eq_comm]).symm

theorem removeNode_fired {parent : String} (hp : parent? path = some parent)
    (hne : parent ≠ path) : (m.removeNode path).1.fired =
      m.notices (Watch.idsAt path m.dataWatches) .deleted path ++
      (m.notices (Watch.idsAt path m.childWatches) .deleted path ++
      m.notices (Watch.idsAt parent m.childWatches) .child parent) := by
  simp only [removeNode, fireData, fireChild, hp, Option.getD_some, Watch.idsAt_elsewhere,
    if_neg hne, List.append_assoc]
  rfl

theorem removeNode_childWatches {parent : String} (hp : parent? path = some parent) :
    (m.removeNode path).2.childWatches =
      Watch.elsewhere parent (Watch.elsewhere path m.childWatches) := by
  simp only [removeNode, fireData, fireChild, hp, Option.getD_some]

theorem delete_rings {parent : String} {version : Int}
    (hp : parent? (m.fullPath path) = some parent) (hne : parent ≠ m.fullPath path) :
    let remove := m.removeNode (m.fullPath path)
    Rings m (m.report id (.delete path version) remove.1) remove.2 := by
  intro remove
  have hfired := removeNode_fired (m := m) hp hne
  have hchildren := removeNode_childWatches (m := m) hp
  generalize hr : m.report id (.delete path version) remove.1 = k
  have hsig : k.signals = [⟨.node, m.fullPath path, .deleted⟩,
      ⟨.children, m.fullPath path, .deleted⟩, ⟨.children, parent, .child⟩] := by
    rw [← hr]
    change _ :: _ :: (parent? (m.fullPath path)).toList.map _ = _
    rw [hp]
    rfl
  have hu (s : Subject) : k.sets s = false := hr ▸ sets_eq_false rfl
  constructor
  case target   => rfl
  case distinct => simp [hsig, hne.symm]
  case fired =>
    rw [hsig, List.flatMap_cons, List.flatMap_cons, List.flatMap_singleton, ← hr]
    exact hfired
  case watches =>
    intro s
    rw [hu, if_neg Bool.false_ne_true, List.append_nil]
    cases s
    case node => exact (filter_elsewhere fun p => by simp [Report.touches, hsig, eq_comm]).symm
    case children =>
      have ht (p : String) : (!k.touches .children p) =
          (decide (p ≠ parent) && decide (p ≠ m.fullPath path)) := by
        simp [Report.touches, hsig, eq_comm, Bool.and_comm]
      rw [List.filter_congr fun w _ => ht w.path, ← List.filter_filter]
      exact hchildren

-- What is removed lies below the root, also below that of the client.
theorem slash_mem_fullPath (ha : IsAbsolute path) (h : m.isProtected (m.fullPath path) = false) :
    '/' ∈ (m.fullPath path).toList := by
  cases ht : m.target
  case none => simpa only [fullPath, ht] using ha.slash_mem
  case some target =>
    simp only [fullPath, isProtected, ht] at h ⊢
    cases hc : target.chroot
    case none => simpa only [Target.fullPath, hc] using ha.slash_mem
    case some root =>
      by_cases hp : path = "/"
      case pos => simp [hp, Target.fullPath_root hc, hc] at h
      case neg =>
        rw [Target.fullPath_of_ne hc hp, String.toList_ofList]
        exact List.mem_append_right _ ha.slash_mem

theorem Course.rings (h : Course m id op (outcome, m')) (ha : IsAbsolute op.path) :
    Rings m (m.report id op outcome) m' := by
  cases h
  case quiet unchanged => exact quiet_rings unchanged
  case set             => exact set_rings
  case setAcl          => exact rings_silent rfl rfl rfl fun s => (List.append_nil _).symm
  case counted         => exact rings_silent rfl rfl rfl fun s => (List.append_nil _).symm
  case create isParent found lasting named counted absent =>
    exact create_rings (parent?_named isParent named)
  case delete path version node unprotected found childless =>
    have hr : m.fullPath path ≠ "/" := fun h => by simp [isProtected, h] at unprotected
    obtain ⟨parent, hp⟩ := exists_parent (slash_mem_fullPath ha unprotected)
    exact delete_rings hp (parent?_ne hp hr)

-- The watches that are set are the registrations that stand.
structure Told (m : Memory) (log : List Report) : Prop where
  watches : ∀ s, m.watches s = (standing s log).map Report.watch
  named   : ∀ r ∈ log, m.clientPath r.full = r.op.path

namespace Told

theorem notices (t : Told m log) (g : Signal) :
    m.notices (Watch.idsAt g.path (m.watches g.subject)) g.type g.path =
      (g.reaches log).map (·.told g.type) := by
  rw [t.watches]
  exact notices_watch fun r hr => t.named r (mem_of_standing hr)

theorem fired (t : Told m log) (h : Rings m k m') :
    k.outcome.fired = k.signals.flatMap fun g => (g.reaches log).map (·.told g.type) :=
  h.fired.trans <| congrArg (List.flatMap · k.signals) <| funext t.notices

theorem concat (t : Told m log) (h : Rings m k m') (hk : m.clientPath k.full = k.op.path) :
    Told m' (log ++ [k]) where
  watches s := by
    rw [h.watches, t.watches, standing_concat, List.map_append, List.filter_map]
    cases k.sets s <;> rfl
  named r hr := by
    have hm : m'.clientPath r.full = m.clientPath r.full := by simp only [clientPath, h.target]
    rcases List.mem_append.mp hr with hr | hr
    · exact hm.trans (t.named r hr)
    · cases List.mem_singleton.mp hr
      exact hm.trans hk

theorem still (t : Told m log) (h : Still m m') : Told m' log where
  watches s  := by
    cases s
    case node     => exact h.dataWatches.trans (t.watches .node)
    case children => exact h.childWatches.trans (t.watches .children)
  named r hr := (h.clientPath _).trans (t.named r hr)

end Told

-- The client's name of the full path of one of its paths.
theorem clientPath_fullPath (h : IsAbsolute path) : m.clientPath (m.fullPath path) = path := by
  unfold clientPath fullPath
  cases m.target
  case none => rfl
  case some target =>
    cases hc : target.chroot
    case none      => simp [Target.fullPath, Target.stripChroot, hc]
    case some root => exact Target.strip_fullPath hc h

-- The reports of the session that goes on; those of the last one are forgotten when one begins.
def reported (log : List Report) (step : ServiceStep) (m : Memory) : List Report :=
  match step with
  | .init text _ =>
    match Target.parse text with
    | .error _ => log
    | .ok _ => []
  | .call id call => log ++ (m.outcome? id call).toList.map (m.report id call.op)
  | _ => log

def reportedAt : List (Int × ServiceStep) → List Report → Memory → List Report
  | [], log, _ => log
  | (now, step) :: rest, log, m =>
    reportedAt rest ((m.tick now).reported log step) ((m.tick now).perform step).2

theorem new_told (clock : Int) : Told (new clock) [] where
  watches s := by cases s <;> rfl
  named r hr := absurd hr List.not_mem_nil

theorem init_told (target : Target) : Told (m.init target) [] := by
  have b := m.init_begins target
  refine ⟨fun s => ?_, fun r hr => absurd hr List.not_mem_nil⟩
  cases s
  case node     => rw [watches, b.dataWatches]; rfl
  case children => rw [watches, b.childWatches]; rfl

theorem Told.perform {step : ServiceStep} (t : Told m log)
    (hp : ∀ id call, step = .call id call → IsAbsolute call.op.path) :
    Told (m.perform step).2 (m.reported log step) := by
  cases step
  case init text timeout =>
    simp only [Memory.perform, reported]
    cases Target.parse text
    case error     => exact t
    case ok target => exact init_told target
  case call id call =>
    have ha := hp id call rfl
    simp only [Memory.perform, reported]
    cases issue_cases (m := m) id call
    case inl h =>
      rw [h.left]
      simpa using t.still h.right
    case inr h =>
      obtain ⟨outcome, executed, ho, course, still⟩ := h
      have tl : Told (m.logged id call) log := t.still ⟨rfl, rfl, rfl, rfl, rfl, rfl⟩
      have tc := tl.concat (course.rings ha) (clientPath_fullPath ha)
      rw [ho]
      exact tc.still still
  all_goals exact t.still (.perform rfl)

theorem Told.performAt {run : List (Int × ServiceStep)} (t : Told m log)
    (hp : ∀ s ∈ run, ∀ id call, s.2 = .call id call → IsAbsolute call.op.path) :
    Told (m.performAt run) (m.reportedAt run log) := by
  induction run generalizing m log
  case nil => exact t
  case cons s run ih =>
    have tt : Told (m.tick s.1) log := t.still ⟨rfl, rfl, rfl, rfl, rfl, rfl⟩
    exact ih (tt.perform (hp s List.mem_cons_self)) fun s hs => hp s (List.mem_cons_of_mem _ hs)

-- After every run, a call sets off what its signals are to those they reach, which are all who have
-- registered and were not told yet; this comes on the stream before the call is answered. A call
-- that is refused puts nothing there. When the next session begins, nobody is told anything.
theorem fired_to_standing {clock : Int} {run : List (Int × ServiceStep)} {id : RequestId}
    {call : Call}
    (hp : ∀ s ∈ run, ∀ id call, s.2 = .call id call → IsAbsolute call.op.path)
    (ha : IsAbsolute call.op.path) :
    let m := (new clock).performAt run
    let log := (new clock).reportedAt run []
    (∀ outcome, m.outcome? id call = some outcome →
      let k := m.report id call.op outcome
      outcome.fired = k.signals.flatMap (fun g => (g.reaches log).map (·.told g.type)) ∧
        (k.signals.map fun g => (g.subject, g.path)).Nodup ∧
        m.Emits (outcome.fired.map .watch ++ if m.holding then [] else call.answer id outcome)
          (m.issue id call).2) ∧
      (m.outcome? id call = none → m.Emits [] (m.issue id call).2) ∧
      ∀ target, (m.init target).channel =
        some (if m.connectOnInit then [.event (.watch (.session .connected))] else []) := by
  intro m log
  have t : Told m log := (new_told clock).performAt hp
  have he := Emits.issue (m := m) id call
  refine ⟨fun outcome h => ?_, fun h => ?_, init_stream⟩
  case refine_1 =>
    intro k
    have hs : m.serves := (Option.ite_none_right_eq_some.mp h).left
    have ⟨outcome', executed, ho, course, _, hi⟩ := issue_course hs id call
    cases h.symm.trans ho
    have tl : Told (m.logged id call) log := t.still ⟨rfl, rfl, rfl, rfl, rfl, rfl⟩
    have hr := course.rings ha
    rw [emission, h] at he
    exact ⟨tl.fired hr, hr.distinct, he⟩
  case refine_2 =>
    rw [emission, h] at he
    exact he

-- A client waits for a node below its root.
def awaitingNode : List (Int × ServiceStep) := [
  (0, .init "localhost:2181/app" ⟨0⟩),
  (0, .call ⟨1⟩ ⟨.exists "/a" true, .sync⟩)]

theorem fired_to_standing_created :
    let m := (new 0).performAt awaitingNode
    let call : Call := ⟨.create "/a" ByteArray.empty Acl.openUnsafe 0, .async⟩
    let fired : List WatchEvent := [⟨⟨1⟩, .created, .connected, some "/a"⟩]
    let outcome : Outcome := ⟨.ok, .string (some "/app/a"), fired⟩
    m.outcome? ⟨2⟩ call = some outcome ∧
      fired = (m.report ⟨2⟩ call.op outcome).signals.flatMap fun g =>
        (g.reaches ((new 0).reportedAt awaitingNode [])).map (·.told g.type) := by
  intro m call fired outcome
  have h : m.outcome? ⟨2⟩ call = some outcome := by decide +kernel
  have hp : ∀ s ∈ awaitingNode, ∀ id call, s.2 = .call id call → IsAbsolute call.op.path := by
    intro s hs id call hc
    simp only [awaitingNode, List.mem_cons, List.not_mem_nil, or_false] at hs
    rcases hs with rfl | rfl <;> cases hc
    decide
  exact ⟨h, ((fired_to_standing hp (by decide)).left outcome h).left⟩

end Memory
end Coordination
