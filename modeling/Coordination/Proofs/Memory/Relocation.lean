import Coordination.Proofs.Memory.Seat
import Coordination.Proofs.Memory.Watches

namespace Coordination

open Coordination.Path

variable {s s' : Seat} {a b : List (List Char)} {x : List Char}

namespace Tree

variable {t t' : Tree} {n n' : Node} {path : String}

-- Seen from their seats, the trees have the same nodes.
def Agree (s s' : Seat) (t t' : Tree) : Prop :=
  ∀ a, Proper a →
    t'[s'.path a]?.map (·.since s'.depth) = t[s.path a]?.map (·.since s.depth)

namespace Agree

theorem found (h : Agree s s' t t') (ha : Proper a) :
    (t[s.path a]? = none ∧ t'[s'.path a]? = none) ∨
      ∃ n n', t[s.path a]? = some n ∧ t'[s'.path a]? = some n' ∧
        n'.since s'.depth = n.since s.depth := by
  have h := h a ha
  cases hn : t[s.path a]? <;> cases hn' : t'[s'.path a]? <;> simp [hn, hn'] at h ⊢
  exact h

theorem mem (h : Agree s s' t t') (ha : Proper a) : s'.path a ∈ t' ↔ s.path a ∈ t := by
  have h := congrArg Option.isSome (h a ha)
  rw [Option.isSome_map, Option.isSome_map] at h
  rw [mem_iff, mem_iff, h]

theorem put (h : Agree s s' t t') (ha : Proper a) (hn : n'.since s'.depth = n.since s.depth) :
    Agree s s' (t.insert (s.path a) n) (t'.insert (s'.path a) n') := by
  intro b hb
  simp only [getElem?_put, Seat.path_inj hb ha]
  split
  case isTrue  => exact congrArg some hn
  case isFalse => exact h b hb

theorem change {f f' : Node → Node} (h : Agree s s' t t') (ha : Proper a)
    (hf : ∀ n n', n'.since s'.depth = n.since s.depth →
      (f' n').since s'.depth = (f n).since s.depth) :
    Agree s s' (t.modify (s.path a) f) (t'.modify (s'.path a) f') := by
  intro b hb
  simp only [getElem?_change, Seat.path_inj hb ha]
  split
  case isFalse => exact h b hb
  case isTrue =>
    rcases h.found hb with ⟨h₁, h₂⟩ | ⟨n, n', h₁, h₂, hn⟩ <;> simp only [h₁, h₂]
    case inl => rfl
    case inr => exact congrArg some (hf n n' hn)

theorem drop (h : Agree s s' t t') (ha : Proper a) :
    Agree s s' (t.erase (s.path a)) (t'.erase (s'.path a)) := by
  intro b hb
  simp only [getElem?_drop, Seat.path_inj hb ha]
  split
  case isTrue  => rfl
  case isFalse => exact h b hb

theorem sweep (h : Agree s s' t t') : Agree s s' t.sweep t'.sweep := by
  intro a ha
  simp only [getElem?_sweep]
  rcases h.found ha with ⟨h₁, h₂⟩ | ⟨n, n', h₁, h₂, hn⟩ <;> simp only [h₁, h₂]
  case inl => rfl
  case inr =>
    have he := congrArg Node.isEphemeral hn
    rw [Node.isEphemeral_since, Node.isEphemeral_since] at he
    cases hs : n.isEphemeral <;> simp [Option.filter, he, hs, hn]

theorem children (h : Agree s s' t t') (ha : Proper a) :
    t'.children (s'.path a) = t.children (s.path a) := by
  refine children_congr (Seat.proper_path ha) (Seat.proper_path ha) fun x hx => ?_
  rw [← Seat.path_concat, ← Seat.path_concat]
  exact h.mem (proper_append.mpr ⟨ha, proper_singleton.mpr hx⟩)

end Agree
end Tree

namespace Seat.Founded

variable {t : Tree} {n : Node} {p : List (List Char)}

theorem mem (h : s.Founded t) (hp : p <+: s.base) : join p ∈ t := by
  obtain ⟨_, hn, _⟩ := h p hp
  rw [Tree.mem_iff, hn]
  rfl

-- Above the root there is no path of the client.
theorem path_ne (ha : Proper a) (hp : p <+: s.base) (hn : a ≠ []) : join p ≠ s.path a := by
  rw [Ne, path, join_inj (s.proper.of_prefix hp) (proper_path ha)]
  rintro rfl
  have hl := hp.length_le
  have := List.length_pos_iff.mpr hn
  rw [List.length_append] at hl
  omega

theorem put (h : s.Founded t) (ha : Proper a) (hn : a = [] → n.isEphemeral = false) :
    s.Founded (t.insert (s.path a) n) := by
  intro p hp
  rw [Tree.getElem?_put]
  split
  case isFalse => exact h p hp
  case isTrue he =>
    exact ⟨n, rfl, hn <| Decidable.byContradiction fun hne => path_ne ha hp hne he⟩

theorem change {f : Node → Node} {path : String} (h : s.Founded t)
    (hf : ∀ n, (f n).isEphemeral = n.isEphemeral) : s.Founded (t.modify path f) := by
  intro p hp
  obtain ⟨n, hn, he⟩ := h p hp
  rw [Tree.getElem?_change, hn]
  split
  case isTrue  => exact ⟨f n, rfl, (hf n).trans he⟩
  case isFalse => exact ⟨n, rfl, he⟩

theorem drop (h : s.Founded t) (ha : Proper a) (hn : a ≠ []) : s.Founded (t.erase (s.path a)) := by
  intro p hp
  rw [Tree.getElem?_drop, if_neg (path_ne ha hp hn)]
  exact h p hp

theorem sweep (h : s.Founded t) : s.Founded t.sweep := by
  intro p hp
  obtain ⟨n, hn, he⟩ := h p hp
  exact ⟨n, by simp [Tree.getElem?_sweep, hn, he], he⟩

end Seat.Founded

-- A client's operation on one of its paths, other than the one that leaves its root.
structure Operation.IsRegular (op : Operation) : Prop where
  path : Path.IsRegular op.path
  root : ¬(op.isSequence ∧ op.path = "/")

namespace Memory

variable {m m' : Memory} {n n' : Node} {id : RequestId} {data : ByteArray} {acl : List Acl}
  {version : Int}

-- What stays from one session to the next.
structure Stores (s s' : Seat) (m m' : Memory) : Prop where
  tree          : Tree.Agree s s' m.nodes m'.nodes
  founded       : s.Founded m.nodes
  founded'      : s'.Founded m'.nodes
  zxid          : m'.zxid - s'.depth = m.zxid - s.depth
  sessionId     : m'.sessionId = m.sessionId
  holding       : m'.holding = m.holding
  connectOnInit : m'.connectOnInit = m.connectOnInit

-- What the operations of a session read and write.
structure Realms (s s' : Seat) (m m' : Memory) : Prop extends Stores s s' m m' where
  target       : m.target = some s.target
  target'      : m'.target = some s'.target
  dataWatches  : ∀ a, Proper a →
    Watch.idsAt (s'.path a) m'.dataWatches = Watch.idsAt (s.path a) m.dataWatches
  childWatches : ∀ a, Proper a →
    Watch.idsAt (s'.path a) m'.childWatches = Watch.idsAt (s.path a) m.childWatches

-- The operation has come to the same.
structure Same (s s' : Seat) (x x' : Outcome × Memory) : Prop where
  rc      : x'.1.rc = x.1.rc
  payload : s'.payload x'.1.payload = s.payload x.1.payload
  fired   : x'.1.fired = x.1.fired
  realms  : Realms s s' x.2 x'.2

namespace Realms

theorem fullPath (h : Realms s s' m m') (ha : Proper a) :
    m.fullPath (join a) = s.path a ∧ m'.fullPath (join a) = s'.path a := by
  simp only [Memory.fullPath, h.target, h.target', Seat.fullPath _ ha, and_self]

theorem clientPath (h : Realms s s' m m') (ha : Proper a) :
    m.clientPath (s.path a) = join a ∧ m'.clientPath (s'.path a) = join a := by
  simp only [Memory.clientPath, h.target, h.target', Seat.stripChroot _ ha, and_self]

theorem refuse (h : Realms s s' m m') {rc : ResultCode} {payload : Payload}
    (hp : s'.payload payload = s.payload payload) :
    Same s s' (⟨rc, payload, []⟩, m) (⟨rc, payload, []⟩, m') :=
  ⟨rfl, hp, rfl, h⟩

theorem withTree {t t' : Tree} {z z' : Int} (h : Realms s s' m m') (ht : Tree.Agree s s' t t')
    (hf : s.Founded t) (hf' : s'.Founded t') (hz : z' - s'.depth = z - s.depth) :
    Realms s s' { m with nodes := t, zxid := z } { m' with nodes := t', zxid := z' } :=
  { h with tree := ht, founded := hf, founded' := hf', zxid := hz }

theorem next_zxid (h : Realms s s' m m') :
    m'.zxid + 1 - s'.depth = m.zxid + 1 - s.depth := by
  have := h.zxid
  omega

theorem notices (h : Realms s s' m m') (ha : Proper a) (ids : List RequestId) (type : EventType) :
    m'.notices ids type (s'.path a) = m.notices ids type (s.path a) := by
  simp only [Memory.notices, h.clientPath ha]

theorem fireData (h : Realms s s' m m') (ha : Proper a) (type : EventType) :
    (m'.fireData type (s'.path a)).1 = (m.fireData type (s.path a)).1 ∧
      Realms s s' (m.fireData type (s.path a)).2 (m'.fireData type (s'.path a)).2 := by
  refine ⟨?_, { h with dataWatches := fun b hb => ?_ }⟩
  case refine_1 => rw [Memory.fireData, Memory.fireData, h.dataWatches a ha, h.notices ha]
  case refine_2 =>
    change Watch.idsAt _ (Watch.elsewhere _ _) = Watch.idsAt _ (Watch.elsewhere _ _)
    simp only [Watch.idsAt_elsewhere, Seat.path_inj hb ha, h.dataWatches b hb]

theorem fireChild (h : Realms s s' m m') (ha : Proper a) (type : EventType) :
    (m'.fireChild type (s'.path a)).1 = (m.fireChild type (s.path a)).1 ∧
      Realms s s' (m.fireChild type (s.path a)).2 (m'.fireChild type (s'.path a)).2 := by
  refine ⟨?_, { h with childWatches := fun b hb => ?_ }⟩
  case refine_1 => rw [Memory.fireChild, Memory.fireChild, h.childWatches a ha, h.notices ha]
  case refine_2 =>
    change Watch.idsAt _ (Watch.elsewhere _ _) = Watch.idsAt _ (Watch.elsewhere _ _)
    simp only [Watch.idsAt_elsewhere, Seat.path_inj hb ha, h.childWatches b hb]

theorem idsAt_concat (ha : Proper a) (hb : Proper b) {ws ws' : List Watch}
    (h : Watch.idsAt (s'.path b) ws' = Watch.idsAt (s.path b) ws) :
    Watch.idsAt (s'.path b) (ws' ++ [⟨s'.path a, id⟩]) =
      Watch.idsAt (s.path b) (ws ++ [⟨s.path a, id⟩]) := by
  simp only [Watch.idsAt, List.filterMap_append, List.filterMap_cons, List.filterMap_nil,
    Seat.path_inj ha hb]
  exact congrArg (· ++ _) h

theorem watchData (h : Realms s s' m m') (ha : Proper a) (id : RequestId) (watch : Bool) :
    Realms s s' (if watch then m.watchData (s.path a) id else m)
      (if watch then m'.watchData (s'.path a) id else m') := by
  cases watch
  case false => exact h
  case true  =>
    exact { h with dataWatches := fun b hb => idsAt_concat ha hb (h.dataWatches b hb) }

theorem watchChildren (h : Realms s s' m m') (ha : Proper a) (id : RequestId) (watch : Bool) :
    Realms s s' (if watch then m.watchChildren (s.path a) id else m)
      (if watch then m'.watchChildren (s'.path a) id else m') := by
  cases watch
  case false => exact h
  case true  =>
    exact { h with childWatches := fun b hb => idsAt_concat ha hb (h.childWatches b hb) }

theorem get (h : Realms s s' m m') (ha : Proper a) (id : RequestId) (watch : Bool) :
    Same s s' (m.get id (join a) watch) (m'.get id (join a) watch) := by
  simp only [Memory.get, h.fullPath ha]
  rcases h.tree.found ha with ⟨h₁, h₂⟩ | ⟨n, n', h₁, h₂, hn⟩ <;> simp only [h₁, h₂]
  case inl => exact h.refuse rfl
  case inr =>
    refine ⟨rfl, ?_, rfl, h.watchData ha id watch⟩
    exact congrArg (fun n => Payload.data (some n.data) (some n.stat)) hn

theorem doesExist (h : Realms s s' m m') (ha : Proper a) (id : RequestId) (watch : Bool) :
    Same s s' (m.doesExist id (join a) watch) (m'.doesExist id (join a) watch) := by
  simp only [Memory.doesExist, h.fullPath ha]
  rcases h.tree.found ha with ⟨h₁, h₂⟩ | ⟨n, n', h₁, h₂, hn⟩ <;> simp only [h₁, h₂]
  case inl => exact ⟨rfl, rfl, rfl, h.watchData ha id watch⟩
  case inr =>
    refine ⟨rfl, ?_, rfl, h.watchData ha id watch⟩
    exact congrArg (fun n => Payload.stat (some n.stat)) hn

theorem getChildren (h : Realms s s' m m') (ha : Proper a) (id : RequestId) (watch : Bool) :
    Same s s' (m.getChildren id (join a) watch) (m'.getChildren id (join a) watch) := by
  simp only [Memory.getChildren, h.fullPath ha]
  rcases h.tree.found ha with ⟨h₁, h₂⟩ | ⟨n, n', h₁, h₂, hn⟩ <;> simp only [h₁, h₂]
  case inl => exact h.refuse rfl
  case inr =>
    refine ⟨rfl, ?_, rfl, h.watchChildren ha id watch⟩
    rw [h.tree.children ha]
    exact congrArg (fun n => Payload.children _ (some n.stat)) hn

theorem getAcl (h : Realms s s' m m') (ha : Proper a) :
    Same s s' (m.getAcl (join a)) (m'.getAcl (join a)) := by
  simp only [Memory.getAcl, h.fullPath ha]
  rcases h.tree.found ha with ⟨h₁, h₂⟩ | ⟨n, n', h₁, h₂, hn⟩ <;> simp only [h₁, h₂]
  case inl => exact h.refuse rfl
  case inr =>
    refine ⟨rfl, ?_, rfl, h⟩
    exact congrArg (fun n => Payload.acl n.acl (some n.stat)) hn

theorem isEphemeral_found (h : s.Founded m.nodes) (hn : m.nodes[s.path a]? = some n) :
    a = [] → n.isEphemeral = false := by
  rintro rfl
  obtain ⟨_, hr, he⟩ := h s.base List.prefix_rfl
  rw [Seat.path, List.append_nil, hr] at hn
  exact Option.some.inj hn ▸ he

-- A node that was found is written with another content.
theorem rewrite {z z' : Int} (h : Realms s s' m m') (f f' : Node → Node) (ha : Proper a)
    (hn : m.nodes[s.path a]? = some n) (hn' : m'.nodes[s'.path a]? = some n')
    (hf : (f' n').since s'.depth = (f n).since s.depth)
    (he : ∀ n, (f n).isEphemeral = n.isEphemeral) (he' : ∀ n, (f' n).isEphemeral = n.isEphemeral)
    (hz : z' - s'.depth = z - s.depth) :
    Realms s s' { m with nodes := m.nodes.insert (s.path a) (f n), zxid := z }
      { m' with nodes := m'.nodes.insert (s'.path a) (f' n'), zxid := z' } :=
  h.withTree (h.tree.put ha hf)
    (h.founded.put ha fun hr => (he n).trans (isEphemeral_found h.founded hn hr))
    (h.founded'.put ha fun hr => (he' n').trans (isEphemeral_found h.founded' hn' hr)) hz

theorem set (h : Realms s s' m m') (ha : Proper a) :
    Same s s' (m.set (join a) data version) (m'.set (join a) data version) := by
  simp only [Memory.set, h.fullPath ha]
  rcases h.tree.found ha with ⟨h₁, h₂⟩ | ⟨n, n', h₁, h₂, hn⟩ <;> simp only [h₁, h₂]
  case inl => exact h.refuse rfl
  case inr =>
    have hv : n'.stat.version = n.stat.version := congrArg (·.stat.version) hn
    rw [hv]
    split
    case isTrue  => exact h.refuse rfl
    case isFalse =>
      have hr : (n'.replaceData data (m'.zxid + 1) m'.clock).since s'.depth =
          (n.replaceData data (m.zxid + 1) m.clock).since s.depth := by
        rw [Node.since_replaceData, Node.since_replaceData, hn, h.next_zxid]
      have hw := h.rewrite (·.replaceData data (m.zxid + 1) m.clock)
        (·.replaceData data (m'.zxid + 1) m'.clock) ha h₁ h₂ hr (fun _ => rfl) (fun _ => rfl)
        h.next_zxid
      obtain ⟨hf, hw⟩ := hw.fireData ha .changed
      exact ⟨rfl, congrArg (fun n : Node => Payload.stat (some n.stat)) hr, hf, hw⟩

theorem setAcl (h : Realms s s' m m') (ha : Proper a) :
    Same s s' (m.setAcl (join a) acl version) (m'.setAcl (join a) acl version) := by
  simp only [Memory.setAcl, h.fullPath ha]
  rcases h.tree.found ha with ⟨h₁, h₂⟩ | ⟨n, n', h₁, h₂, hn⟩ <;> simp only [h₁, h₂]
  case inl => exact h.refuse rfl
  case inr =>
    have hv : n'.stat.aversion = n.stat.aversion := congrArg (·.stat.aversion) hn
    rw [hv]
    split
    case isTrue  => exact h.refuse rfl
    case isFalse =>
      have hr : (n'.replaceAcl acl).since s'.depth = (n.replaceAcl acl).since s.depth := by
        rw [Node.since_replaceAcl, Node.since_replaceAcl, hn]
      refine ⟨rfl, congrArg (fun n : Node => Payload.stat (some n.stat)) hr, rfl, ?_⟩
      exact h.rewrite (·.replaceAcl acl) (·.replaceAcl acl) ha h₁ h₂ hr (fun _ => rfl)
        (fun _ => rfl) h.zxid

theorem insertNode (h : Realms s s' m m') (ha : Proper (a ++ [x])) (owner : Int) :
    Same s s' (m.insertNode (s.path a) (s.path (a ++ [x])) data acl owner)
      (m'.insertNode (s'.path a) (s'.path (a ++ [x])) data acl owner) := by
  have hp := (proper_append.mp ha).left
  have hnew : (Node.new data acl (m'.zxid + 1) owner m'.clock).since s'.depth =
      (Node.new data acl (m.zxid + 1) owner m.clock).since s.depth := by
    rw [Node.since_new, Node.since_new, h.next_zxid]
  have hc (n n' : Node) (hn : n'.since s'.depth = n.since s.depth) :
      (n'.childCreated (m'.zxid + 1)).since s'.depth =
        (n.childCreated (m.zxid + 1)).since s.depth := by
    rw [Node.since_childCreated, Node.since_childCreated, hn, h.next_zxid]
  have hw := h.withTree (h.tree.put ha hnew |>.change hp hc)
    (h.founded.put ha (by simp) |>.change fun _ => rfl)
    (h.founded'.put ha (by simp) |>.change fun _ => rfl) h.next_zxid
  obtain ⟨hf₁, hw₁⟩ := hw.fireData ha .created
  obtain ⟨hf₂, hw₂⟩ := hw₁.fireChild hp .child
  refine ⟨rfl, ?_, ?_, hw₂⟩
  case refine_1 =>
    simp only [Memory.insertNode, Seat.payload, Payload.strip, Seat.stripChroot _ ha]
    rfl
  case refine_2 =>
    simp only [Memory.insertNode]
    rw [hf₁, hf₂]

-- The node is made unless it is there.
theorem place {ephemeral : Prop} [Decidable ephemeral] (h : Realms s s' m m')
    (ha : Proper (a ++ [x])) :
    Same s s'
      (if s.path (a ++ [x]) ∈ m.nodes then (⟨.nodeExists, .string none, []⟩, m)
        else m.insertNode (s.path a) (s.path (a ++ [x])) data acl
          (if ephemeral then m.sessionId else 0))
      (if s'.path (a ++ [x]) ∈ m'.nodes then (⟨.nodeExists, .string none, []⟩, m')
        else m'.insertNode (s'.path a) (s'.path (a ++ [x])) data acl
          (if ephemeral then m'.sessionId else 0)) := by
  rw [h.sessionId]
  by_cases hm : s.path (a ++ [x]) ∈ m.nodes
  case pos => rw [if_pos hm, if_pos ((h.tree.mem ha).mpr hm)]; exact h.refuse rfl
  case neg => rw [if_neg hm, if_neg (mt (h.tree.mem ha).mp hm)]; exact h.insertNode ha _

-- Creating the root of the client finds that it is there.
theorem create_root {flags : Nat} (h : s.Founded m.nodes) (hf : m.fullPath "/" = s.path [])
    (hs : ¬flags &&& createSequence ≠ 0) :
    m.create "/" data acl flags = (⟨.nodeExists, .string none, []⟩, m) := by
  obtain ⟨p, hp, hpar⟩ : ∃ p, p <+: s.base ∧ parent? (s.path []) = some (join p) := by
    rw [Seat.path, List.append_nil]
    have hb := s.proper
    rcases s.base.eq_nil_or_concat with hn | ⟨p, x, hn⟩ <;> rw [hn] at hb ⊢
    case inl => exact ⟨[], List.prefix_rfl, rfl⟩
    case inr =>
      rw [List.concat_eq_append] at hb ⊢
      have hx := proper_singleton.mp (proper_append.mp hb).right
      exact ⟨p, List.prefix_append .., parent?_join hx.right⟩
  obtain ⟨node, hn, he⟩ := h p hp
  have hm : s.path [] ∈ m.nodes := by
    rw [Seat.path, List.append_nil]
    exact h.mem List.prefix_rfl
  simp only [Memory.create, hf, hpar, hn, he, if_neg hs, hm, if_true, Bool.false_eq_true, if_false]

theorem create {flags : Nat} (h : Realms s s' m m') (ha : Proper a)
    (hr : ¬(flags &&& createSequence ≠ 0 ∧ a = [])) :
    Same s s' (m.create (join a) data acl flags) (m'.create (join a) data acl flags) := by
  rcases a.eq_nil_or_concat with rfl | ⟨a, x, rfl⟩
  case inl =>
    have hs : ¬flags &&& createSequence ≠ 0 := fun hs => hr ⟨hs, rfl⟩
    obtain ⟨hf, hf'⟩ := h.fullPath ha
    rw [join, create_root h.founded hf hs, create_root h.founded' hf' hs]
    exact h.refuse rfl
  case inr =>
    rw [List.concat_eq_append] at ha ⊢
    obtain ⟨hp, hx⟩ := proper_append.mp ha
    have hx := proper_singleton.mp hx
    simp only [Memory.create, h.fullPath ha, Seat.parent?_path hx.right]
    rcases h.tree.found hp with ⟨h₁, h₂⟩ | ⟨n, n', h₁, h₂, hn⟩ <;> simp only [h₁, h₂]
    case inl => exact h.refuse rfl
    case inr =>
      have he := congrArg Node.isEphemeral hn
      rw [Node.isEphemeral_since, Node.isEphemeral_since] at he
      have hq : n'.nextSequence = n.nextSequence := congrArg (·.nextSequence) hn
      rw [he, hq]
      split
      case isTrue  => exact h.refuse rfl
      case isFalse =>
        by_cases hs : flags &&& createSequence ≠ 0
        case neg =>
          simp only [if_neg hs]
          exact h.place ha
        case pos =>
          simp only [if_pos hs, Seat.withSequence_path]
          have hc : Proper (a ++ [x ++ sequenceDigits n.nextSequence]) := by
            refine proper_append.mpr ⟨hp, proper_singleton.mpr ⟨by simp [hx.left], fun hm => ?_⟩⟩
            exact (List.mem_append.mp hm).elim hx.right (slash_not_mem_digits _)
          have hk : ({ n' with nextSequence := n.nextSequence + 1 } : Node).since s'.depth =
              ({ n with nextSequence := n.nextSequence + 1 } : Node).since s.depth :=
            congrArg (fun k : Node => { k with nextSequence := n.nextSequence + 1 }) hn
          exact (h.rewrite (fun k => { k with nextSequence := n.nextSequence + 1 })
            (fun k => { k with nextSequence := n.nextSequence + 1 }) hp h₁ h₂ hk
            (fun _ => rfl) (fun _ => rfl) h.zxid).place hc

theorem isProtected (h : Realms s s' m m') (ha : Proper a) :
    m.isProtected (s.path a) = decide (a = []) ∧ m'.isProtected (s'.path a) = decide (a = []) := by
  have of {s : Seat} {m : Memory} (ht : m.target = some s.target) :
      m.isProtected (s.path a) = decide (a = []) := by
    rw [Memory.isProtected, ht, Option.bind_some, s.chroot, ← Bool.decide_or, decide_eq_decide,
      Seat.path_eq_root ha]
    by_cases hb : s.base = []
    case pos => simp [hb]
    case neg =>
      rw [if_neg hb, Option.some.injEq, Seat.path, join_inj s.proper (Seat.proper_path ha)]
      simp [hb]
  exact ⟨of h.target, of h.target'⟩

theorem removeNode (h : Realms s s' m m') (ha : Proper (a ++ [x])) :
    Same s s' (m.removeNode (s.path (a ++ [x]))) (m'.removeNode (s'.path (a ++ [x]))) := by
  obtain ⟨hp, hx⟩ := proper_append.mp ha
  have hpar {s : Seat} : (parent? (s.path (a ++ [x]))).getD "/" = s.path a := by
    rw [Seat.parent?_path (proper_singleton.mp hx).right, Option.getD_some]
  have hc (n n' : Node) (hn : n'.since s'.depth = n.since s.depth) :
      (n'.childDeleted (m'.zxid + 1)).since s'.depth =
        (n.childDeleted (m.zxid + 1)).since s.depth := by
    rw [Node.since_childDeleted, Node.since_childDeleted, hn, h.next_zxid]
  have hw := h.withTree (h.tree.drop ha |>.change hp hc)
    (h.founded.drop ha (by simp) |>.change fun _ => rfl)
    (h.founded'.drop ha (by simp) |>.change fun _ => rfl) h.next_zxid
  obtain ⟨hf₁, hw₁⟩ := hw.fireData ha .deleted
  obtain ⟨hf₂, hw₂⟩ := hw₁.fireChild ha .deleted
  obtain ⟨hf₃, hw₃⟩ := hw₂.fireChild hp .child
  simp only [Memory.removeNode, hpar]
  exact ⟨rfl, rfl, by simp only [hf₁, hf₂, hf₃], hw₃⟩

theorem delete (h : Realms s s' m m') (ha : Proper a) :
    Same s s' (m.delete (join a) version) (m'.delete (join a) version) := by
  simp only [Memory.delete, h.fullPath ha, h.isProtected ha, decide_eq_true_eq]
  split
  case isTrue => exact h.refuse rfl
  case isFalse hne =>
    rcases h.tree.found ha with ⟨h₁, h₂⟩ | ⟨n, n', h₁, h₂, hn⟩ <;> simp only [h₁, h₂]
    case inl => exact h.refuse rfl
    case inr =>
      have hv : n'.stat.version = n.stat.version := congrArg (·.stat.version) hn
      rw [hv, h.tree.children ha]
      split
      case isTrue => exact h.refuse rfl
      case isFalse =>
        split
        case isTrue => exact h.refuse rfl
        case isFalse =>
          obtain ⟨a, x, rfl⟩ := (a.eq_nil_or_concat).resolve_left hne
          rw [List.concat_eq_append] at ha ⊢
          exact h.removeNode ha

theorem execute {op : Operation} (h : Realms s s' m m') (hop : op.IsRegular) (id : RequestId) :
    Same s s' (m.execute id op) (m'.execute id op) := by
  obtain ⟨a, ha, hpath⟩ := hop.path.exists_segments
  cases op
  case get path watch => obtain rfl : path = join a := hpath; exact h.get ha id watch
  case «exists» path watch => obtain rfl : path = join a := hpath; exact h.doesExist ha id watch
  case getChildren path watch =>
    obtain rfl : path = join a := hpath
    exact h.getChildren ha id watch
  case getAcl path => obtain rfl : path = join a := hpath; exact h.getAcl ha
  case set path data version => obtain rfl : path = join a := hpath; exact h.set ha
  case delete path version => obtain rfl : path = join a := hpath; exact h.delete ha
  case setAcl path acl version => obtain rfl : path = join a := hpath; exact h.setAcl ha
  case create path data acl flags =>
    obtain rfl : path = join a := hpath
    refine h.create ha fun ⟨hs, hr⟩ => hop.root ⟨?_, ?_⟩
    case refine_1 => simpa [Operation.isSequence] using hs
    case refine_2 => exact (join_eq_root ha).mpr hr

end Realms
end Memory
end Coordination
