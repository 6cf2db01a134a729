import Coordination.Proofs.Memory.Confinement
import Coordination.Proofs.Memory.Course
import Coordination.Proofs.Memory.InFlight

namespace Coordination

open Coordination.Path

namespace Memory

variable {m : Memory} {target : Target} {op : Operation} {id : RequestId} {full : String}

-- Only what is on the stream or kept back has changed.
structure Talks (m m' : Memory) : Prop where
  eq : m' = { m with channel := m'.channel, held := m'.held }

namespace Talks

variable {m' m'' : Memory}

theorem trans (h : Talks m m') (h' : Talks m' m'') : Talks m m'' :=
  ⟨h'.eq.trans (by rw [h.eq])⟩

theorem nodes (h : Talks m m') : m'.nodes = m.nodes := by
  rw [h.eq]

theorem emitWatches (events : List WatchEvent) : Talks m (m.emitWatches events) := by
  unfold Memory.emitWatches
  induction events generalizing m
  case nil               => exact ⟨rfl⟩
  case cons e events ih  => exact (⟨rfl⟩ : Talks m (m.emit (.watch e))).trans ih

theorem complete (c : CompletionEvent) : Talks m (m.complete c) := by
  unfold Memory.complete
  split <;> exact ⟨rfl⟩

theorem answered (id : RequestId) (call : Call) (outcome : Outcome) :
    Talks m (m.answered id call outcome) := by
  unfold Memory.answered
  cases call.mode
  case sync  => exact emitWatches _
  case async => exact (emitWatches _).trans (complete _)

theorem release (id : RequestId) : Talks m (m.release id).2 := by
  unfold Memory.release
  split <;> exact ⟨rfl⟩

theorem releaseAll : Talks m m.releaseAll.2 := by
  have h (cs : List CompletionEvent) (m : Memory) :
      Talks m (cs.foldl (fun m c => m.emit (.completion c)) m) := by
    induction cs generalizing m
    case nil          => exact ⟨rfl⟩
    case cons c cs ih => exact (⟨rfl⟩ : Talks m (m.emit (.completion c))).trans (ih _)
  exact (⟨rfl⟩ : Talks m { m with held := [] }).trans (h m.held _)

end Talks

theorem ensurePath_eq (path : String) :
    ∃ nodes zxid, m.ensurePath path = { m with nodes := nodes, zxid := zxid } := by
  unfold ensurePath
  induction Path.steps path generalizing m
  case nil => exact ⟨_, _, rfl⟩
  case cons p steps ih =>
    have ⟨nodes, zxid, h⟩ := @ih (m.ensureNode p)
    refine ⟨nodes, zxid, h.trans ?_⟩
    unfold ensureNode
    split <;> rfl

theorem prepared_keeps (target : Target) :
    ∃ nodes zxid, m.prepared target = { m.blank target with nodes := nodes, zxid := zxid } := by
  unfold prepared
  split
  case h_1 => exact ⟨_, _, rfl⟩
  case h_2 => exact ensurePath_eq _

-- The session is the same, and the watches were there before or are at a path.
structure WatchesAt (path : String) (m m' : Memory) : Prop where
  session : m'.target = m.target
  watches : ∀ watch ∈ m'.dataWatches ++ m'.childWatches,
    watch ∈ m.dataWatches ++ m.childWatches ∨ watch.path = path

namespace WatchesAt

variable {m' m'' : Memory} {path : String}

theorem refl : WatchesAt path m m :=
  ⟨rfl, fun _ => .inl⟩

theorem trans (h : WatchesAt path m m') (h' : WatchesAt path m' m'') : WatchesAt path m m'' where
  session := h'.session.trans h.session
  watches watch hw := (h'.watches watch hw).elim (h.watches watch) .inr

theorem fireData (type : EventType) (at' : String) : WatchesAt path m (m.fireData type at').2 :=
  ⟨rfl, fun _ h => .inl <| (List.mem_append.mp h).elim
    (List.mem_append_left _ <| List.mem_filter.mp · |>.left) (List.mem_append_right _)⟩

theorem fireChild (type : EventType) (at' : String) : WatchesAt path m (m.fireChild type at').2 :=
  ⟨rfl, fun _ h => .inl <| (List.mem_append.mp h).elim
    (List.mem_append_left _) (List.mem_append_right _ <| List.mem_filter.mp · |>.left)⟩

theorem nodes (nodes : Tree) (zxid : Int) :
    WatchesAt path m { m with nodes := nodes, zxid := zxid } :=
  ⟨rfl, fun _ => .inl⟩

theorem watchData : WatchesAt path m (m.watchData path id) := by
  refine ⟨rfl, fun watch h => ?_⟩
  simp only [Memory.watchData, List.mem_append, List.mem_singleton] at h ⊢
  rcases h with (h | rfl) | h
  · exact .inl (.inl h)
  · exact .inr rfl
  · exact .inl (.inr h)

theorem watchChildren : WatchesAt path m (m.watchChildren path id) := by
  refine ⟨rfl, fun watch h => ?_⟩
  simp only [Memory.watchChildren, List.mem_append, List.mem_singleton] at h ⊢
  rcases h with h | h | rfl
  · exact .inl (.inl h)
  · exact .inl (.inr h)
  · exact .inr rfl

theorem insertNode {parent child : String} {data : ByteArray} {acl : List Acl} {owner : Int} :
    WatchesAt path m (m.insertNode parent child data acl owner).2 :=
  (nodes _ _).trans (fireData .created _) |>.trans (fireChild .child _)

theorem removeNode {child : String} : WatchesAt path m (m.removeNode child).2 :=
  (nodes _ _).trans (fireData .deleted _) |>.trans (fireChild .deleted _)
    |>.trans (fireChild .child _)

theorem of_course {outcome : Outcome} (h : Course m id op (outcome, m')) :
    WatchesAt (m.fullPath op.path) m m' := by
  cases h
  case quiet rc payload unchanged =>
    split
    case isFalse => exact .refl
    case isTrue  =>
      cases op
      case getChildren => exact watchChildren
      all_goals exact watchData
  case set     => exact (nodes _ _).trans (fireData .changed _)
  case setAcl  => exact nodes _ m.zxid
  case counted => exact nodes _ m.zxid
  case create  => exact (nodes _ m.zxid).trans insertNode
  case delete  => exact removeNode

end WatchesAt

namespace Anchored

theorem init (m : Memory) (target : Target) : (m.init target).Anchored target := by
  have hw := (m.init_fresh target).right.left
  refine ⟨?_, ?_⟩
  · rw [init_eq]
    have : (m.prepared target).target = some target := by
      unfold prepared
      split
      case h_1 => rfl
      case h_2 chroot _ =>
        have ⟨_, _, h⟩ := (m.blank target).ensurePath_eq chroot
        rw [h]
        rfl
    split <;> exact this
  · have ⟨hd, hc⟩ := List.append_eq_nil_iff.mp hw
    simp [List.map_eq_nil_iff.mp hd, List.map_eq_nil_iff.mp hc]

theorem execute (a : Anchored target m) (hp : IsAbsolute op.path) :
    (m.execute id op).2.Anchored target := by
  have h := WatchesAt.of_course <| m.execute_course id op
  refine ⟨h.session.trans a.session, fun watch hw => ?_⟩
  refine (h.watches watch hw).elim (a.watches watch) fun h => ?_
  exact ⟨op.path, hp, h.trans (a.fullPath op.path)⟩

theorem talks {m' : Memory} (a : Anchored target m) (h : Talks m m') : m'.Anchored target := by
  rw [h.eq]
  exact ⟨a.session, a.watches⟩

end Anchored
end Memory
end Coordination
