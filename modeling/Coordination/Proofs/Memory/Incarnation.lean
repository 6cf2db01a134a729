import Coordination.Proofs.Memory.Bookkeeping
import Coordination.Proofs.Memory.Listing

namespace Coordination

open Coordination.Path

-- The same node later on.
structure Node.Becomes (n n' : Node) : Prop where
  czxid   : n'.stat.czxid = n.stat.czxid
  version : n.stat.version ≤ n'.stat.version
  data    : n'.stat.version = n.stat.version → n'.data = n.data

namespace Node.Becomes

variable {e : Happening} {path : String} {zxid : Int} {n n' n'' : Node}

theorem refl : n.Becomes n :=
  ⟨rfl, Int.le_refl _, fun _ => rfl⟩

theorem trans (h : n.Becomes n') (h' : n'.Becomes n'') : n.Becomes n'' where
  czxid   := h'.czxid.trans h.czxid
  version := Int.le_trans h.version h'.version
  data hv := by
    have hle := h.version
    have hle' := h'.version
    rw [h'.data (by omega), h.data (by omega)]

theorem of_advances (h : n.Advances e path zxid n') : n.Becomes n' where
  czxid   := h.czxid
  version := by
    have hv := h.version
    omega
  data hv := by
    refine h.data (Bool.eq_false_iff.mpr fun hs => ?_)
    rw [h.version, hs] at hv
    simp only [Bool.toNat_true] at hv
    omega

end Node.Becomes

namespace Tree

variable {t t' : Tree} {zxid zxid' czxid version : Int} {log log' : List Happening} {e : Happening}
  {path : String} {node node' : Node}

theorem Evolves.zxid_le (h : t.Evolves zxid log t' zxid') : zxid ≤ zxid' := by
  have := h.zxid_eq
  omega

-- What is there in the end has been there from the start, or was made since.
theorem Evolves.origin (h : t.Evolves zxid log t' zxid') (found : t'[path]? = some node') :
    zxid < node'.stat.czxid ∨ ∃ node, t[path]? = some node ∧ node.Becomes node' := by
  induction h generalizing node'
  case refl => exact .inr ⟨node', found, .refl⟩
  case sweep ih =>
    rw [getElem?_sweep, Option.filter_eq_some_iff] at found
    exact ih found.left
  case step e _ _ _ _ h changes ih =>
    cases hm : e.makes path
    case true =>
      have ⟨_, _, _, _, _, made⟩ := changes.made path hm
      cases made.symm.trans found
      have hle := h.zxid_le
      exact .inl (changes.zxid_made hm ▸ Int.lt_add_one_of_le hle)
    case false =>
      have ⟨node, found, advances⟩ := changes.kept path node' hm found
      rcases ih found with hlt | ⟨first, hf, becomes⟩
      · exact .inl (advances.czxid ▸ hlt)
      · exact .inr ⟨first, hf, becomes.trans (.of_advances advances)⟩

-- The number of the transaction that made it tells which node it is.
theorem Booked.becomes (b : t.Booked zxid log) (h : t.Evolves zxid log' t' zxid')
    (found : t[path]? = some node) (found' : t'[path]? = some node')
    (same : node'.stat.czxid = node.stat.czxid) : node.Becomes node' := by
  have hle := b.czxid_le found
  rcases h.origin found' with hlt | ⟨first, hf, becomes⟩
  · omega
  · cases found.symm.trans hf
    exact becomes

end Tree

namespace Memory

variable {m : Memory} {id : RequestId} {op : Operation} {mode : CallMode} {path : String}
  {data : ByteArray} {acl : List Acl} {version : Int} {node : Node}

-- The call gets through, and is answered with success.
def succeeds (m : Memory) (id : RequestId) (call : Call) : Prop :=
  (m.outcome? id call).map (·.rc) = some .ok

instance {call : Call} : Decidable (m.succeeds id call) :=
  inferInstanceAs (Decidable (_ = _))

-- The number of the transaction that made the node there.
def czxid? (path : String) (m : Memory) : Option Int :=
  m.nodes[m.fullPath path]?.map (·.stat.czxid)

theorem succeeds_iff {call : Call} : m.succeeds id call ↔
    m.serves ∧ ((m.logged id call).execute id call.op).1.rc = .ok := by
  unfold succeeds outcome?
  split <;> simp_all

-- What succeeds leaves what its operation leaves.
theorem succeeds_served (h : m.succeeds id ⟨op, mode⟩) :
    ∃ payload, m.Served id payload (m.issue id ⟨op, mode⟩).2.contents op := by
  have ⟨serves, ok⟩ := succeeds_iff.mp h
  have still := executed_still serves id ⟨op, mode⟩
  have footprint := (m.logged id ⟨op, mode⟩).execute_footprint id op
  exact ⟨_, still.contents ▸ footprint.served ok⟩

-- What is read is what is there.
theorem found_of_get {watch : Bool} {stat : Stat}
    (h : m.outcome? id ⟨.get path watch, mode⟩ = some ⟨.ok, .data (some data) (some stat), []⟩) :
    ∃ node, m.nodes[m.fullPath path]? = some node ∧ node.data = data ∧ node.stat = stat := by
  have ⟨_, he⟩ := Option.ite_none_right_eq_some.mp h
  simp only [execute, get] at he
  split at he <;> cases he
  case h_2 node found => exact ⟨node, found, rfl, rfl⟩

theorem eq_of_matches {actual : Int} (hv : 0 ≤ version) (h : versionMatches version actual) :
    version = actual := by
  have hm : version = -1 ∨ version = actual := by
    simpa [versionMatches, anyVersion] using h
  omega

-- Nothing is replaced or deleted but in the version that was asked for.
theorem found_of_succeeds
    (hop : (∃ data, op = .set path data version) ∨ op = .delete path version)
    (hv : 0 ≤ version) (h : m.succeeds id ⟨op, mode⟩) :
    ∃ node, m.nodes[m.fullPath path]? = some node ∧ version = node.stat.version := by
  have ⟨_, ok⟩ := succeeds_iff.mp h
  rcases hop with ⟨data, rfl⟩ | rfl <;> simp only [execute, set, delete] at ok
  case inl =>
    split at ok
    case h_1 => cases ok
    case h_2 node found =>
      split at ok
      case isTrue     => cases ok
      case isFalse hm => exact ⟨node, found, eq_of_matches hv (by simpa using hm)⟩
  case inr =>
    split at ok
    case isTrue => cases ok
    case isFalse =>
      split at ok
      case h_1 => cases ok
      case h_2 node found =>
        split at ok
        case isTrue     => cases ok
        case isFalse hm => exact ⟨node, found, eq_of_matches hv (by simpa using hm)⟩

theorem nodeData_of_found (found : m.nodes[m.fullPath path]? = some node) :
    m.nodeData path = some node.data := by
  rw [nodeData, found, Option.map_some]

theorem nodeData_of_deleted (h : m.succeeds id ⟨.delete path version, mode⟩) :
    (m.issue id ⟨.delete path version, mode⟩).2.nodeData path = none := by
  let left := (m.issue id ⟨.delete path version, mode⟩).2
  have target : left.target = m.target := issue_target ..
  have same : left.fullPath path = m.fullPath path := by simp only [fullPath, target]
  have absent : m.fullPath path ∉ left.nodes :=
    fun hm => (deleted_mem rfl h).mp hm |>.right rfl
  rw [Tree.mem_iff, Bool.not_eq_true, Option.isSome_eq_false_iff, Option.isNone_iff_eq_none]
    at absent
  change left.nodes[left.fullPath path]?.map Node.data = none
  rw [same, absent, Option.map_none]

theorem replaced_of_succeeds (hv : 0 ≤ version)
    (h : m.succeeds id ⟨.set path data version, mode⟩) : ∃ node node',
    m.nodes[m.fullPath path]? = some node ∧ node.stat.version = version ∧
      (m.issue id ⟨.set path data version, mode⟩).2.nodes[m.fullPath path]? = some node' ∧
      node'.stat.czxid = node.stat.czxid ∧ version < node'.stat.version := by
  have ⟨node, found, hn⟩ := found_of_succeeds (.inl ⟨_, rfl⟩) hv h
  have ⟨_, _, served, told, _⟩ := succeeds_served h
  cases found.symm.trans served
  refine ⟨node, _, found, hn.symm, (told _).trans (if_pos rfl), rfl, ?_⟩
  exact hn ▸ Int.lt_succ node.stat.version

section

variable {m' : Memory} {log log' : List Happening} {p q : String} {data' : ByteArray}
  (booked : m.nodes.Booked m.zxid log)
  (evolves : Tree.Evolves m.nodes m.zxid log' m'.nodes m'.zxid)
  (found : m.nodes[p]? = some node) (samePath : m'.fullPath q = p)
  (sameNode : m'.czxid? q = some node.stat.czxid)

include booked evolves found samePath sameNode

theorem becomes_of_sameNode {node' : Node} (found' : m'.nodes[m'.fullPath q]? = some node') :
    node.Becomes node' := by
  rw [czxid?, found'] at sameNode
  exact booked.becomes evolves found (samePath ▸ found') (Option.some_inj.mp sameNode)

-- Who names the version that was read finds the data that was read.
theorem unchanged_of_succeeds
    (hop : (∃ data', op = .set q data' node.stat.version) ∨ op = .delete q node.stat.version)
    (h : m'.succeeds id ⟨op, mode⟩) : m'.nodeData q = some node.data := by
  have known : 0 ≤ node.stat.version := by
    rw [(booked.nodes _ node found).version]
    exact Int.natCast_nonneg _
  have ⟨node', found', hv⟩ := found_of_succeeds hop known h
  have becomes := becomes_of_sameNode booked evolves found samePath sameNode found'
  rw [nodeData_of_found found', becomes.data hv.symm]

-- A version that the node has left behind is not welcome any more.
theorem not_succeeds_of_lt (hv : 0 ≤ version) (behind : version < node.stat.version) :
    ¬m'.succeeds id ⟨.set q data' version, mode⟩ := by
  intro h
  have ⟨node', found', hv'⟩ := found_of_succeeds (.inl ⟨_, rfl⟩) hv h
  have hle := (becomes_of_sameNode booked evolves found samePath sameNode found').version
  omega

end

-- Whoever has read a node and names the version he has read replaces or deletes what he has read,
-- if it is still that node. And once somebody has replaced the data of a node in the version he
-- named, nobody else who names it does.
theorem versioned_writes_exact {clock t₁ t₂ : Int} {before between : List (Int × ServiceStep)}
    {first : Call} {p q : String} :
    let m₁ := ((new clock).performAt before).tick t₁
    let m₂ := ((m₁.issue id first).2.performAt between).tick t₂
    m₂.fullPath q = m₁.fullPath p →
    (∀ watch data stat, first.op = .get p watch →
      m₁.outcome? id first = some ⟨.ok, .data (some data) (some stat), []⟩ →
      m₂.czxid? q = some stat.czxid → ∀ id mode,
        (∀ data', m₂.succeeds id ⟨.set q data' stat.version, mode⟩ → m₂.nodeData q = some data) ∧
        (m₂.succeeds id ⟨.delete q stat.version, mode⟩ → m₂.nodeData q = some data ∧
          (m₂.issue id ⟨.delete q stat.version, mode⟩).2.nodeData q = none)) ∧
    (∀ data version, first.op = .set p data version → 0 ≤ version → m₁.succeeds id first →
      m₂.czxid? q = m₁.czxid? p → ∀ id data' mode,
        ¬m₂.succeeds id ⟨.set q data' version, mode⟩) := by
  intro m₁ m₂ samePath
  have census : m₁.nodes.Census _ := performAt_census (new_census clock) before
  have booked : m₁.nodes.Booked m₁.zxid _ := performAt_booked clock before
  have issued := issue_evolves census id first
  have onward : Tree.Evolves (m₁.issue id first).2.nodes (m₁.issue id first).2.zxid _ m₂.nodes
      m₂.zxid := performAt_evolves (perform_census (m := m₁) census (.call id first)) between
  have evolves : Tree.Evolves m₁.nodes m₁.zxid _ m₂.nodes m₂.zxid := issued.trans onward
  obtain ⟨op, mode⟩ := first
  constructor
  case left =>
    rintro watch data stat rfl ho sameNode
    obtain ⟨node, found, rfl, rfl⟩ := found_of_get ho
    have unchanged {id op mode} (hop) (h : m₂.succeeds id ⟨op, mode⟩) :=
      unchanged_of_succeeds booked evolves found samePath sameNode hop h
    exact fun id mode => ⟨fun data' => unchanged (.inl ⟨data', rfl⟩),
      fun h => ⟨unchanged (.inr rfl) h, nodeData_of_deleted h⟩⟩
  case right =>
    rintro data version rfl known h sameNode id data' mode
    obtain ⟨node, node', found, -, found', czxid, behind⟩ := replaced_of_succeeds known h
    have sameNode : m₂.czxid? q = some node'.stat.czxid := by
      rw [sameNode, czxid?, found, Option.map_some, czxid]
    exact not_succeeds_of_lt (booked.evolves issued) onward found' samePath sameNode known behind

-- A node below a chroot is read. It gets other access rights, and the next session has the whole
-- tree before it.
def belowChroot : List (Int × ServiceStep) := [
  (0, .init "localhost:2181/app" ⟨0⟩),
  (0, .call ⟨1⟩ ⟨.create "/n" "old".toUTF8 Acl.openUnsafe 0, .sync⟩)]

def rightsAndSession : List (Int × ServiceStep) := [
  (2, .call ⟨3⟩ ⟨.setAcl "/n" [] anyVersion, .async⟩),
  (3, .init "localhost:2181" ⟨0⟩)]

def replacing (path data : String) : Call :=
  ⟨.set path data.toUTF8 0, .sync⟩

def seen : Stat :=
  { czxid := 2, mzxid := 2, pzxid := 2, dataLength := 3 }

theorem versioned_writes_exact_chroot :
    let m := ((new 0).performAt belowChroot).tick 1
    let read : Call := ⟨.get "/n" false, .async⟩
    let afterRead := ((m.issue ⟨2⟩ read).2.performAt rightsAndSession).tick 4
    let afterWrite := ((m.issue ⟨2⟩ (replacing "/n" "new")).2.performAt rightsAndSession).tick 4
    (m.outcome? ⟨2⟩ read = some ⟨.ok, .data (some "old".toUTF8) (some seen), []⟩ ∧
      afterRead.czxid? "/app/n" = some seen.czxid ∧
      afterRead.succeeds ⟨4⟩ (replacing "/app/n" "new") ∧
      afterRead.nodeData "/app/n" = some "old".toUTF8) ∧
    m.succeeds ⟨2⟩ (replacing "/n" "new") ∧ afterWrite.czxid? "/app/n" = m.czxid? "/n" ∧
      ¬afterWrite.succeeds ⟨4⟩ (replacing "/app/n" "newer") := by
  intro m read afterRead afterWrite
  have answered : m.outcome? ⟨2⟩ read =
      some ⟨.ok, .data (some "old".toUTF8) (some seen), []⟩ := by decide +kernel
  have stays : afterRead.czxid? "/app/n" = some seen.czxid := by decide +kernel
  have stays' : afterWrite.czxid? "/app/n" = m.czxid? "/n" := by decide +kernel
  have written : afterRead.succeeds ⟨4⟩ (replacing "/app/n" "new") := by decide +kernel
  have written' : m.succeeds ⟨2⟩ (replacing "/n" "new") := by decide +kernel
  have path : afterRead.fullPath "/app/n" = m.fullPath "/n" := by decide +kernel
  have path' : afterWrite.fullPath "/app/n" = m.fullPath "/n" := by decide +kernel
  have reads := (versioned_writes_exact path).left false _ seen rfl answered stays ⟨4⟩ .sync
  have writes := (versioned_writes_exact path').right _ 0 rfl (Int.le_refl 0) written' stays'
  exact ⟨⟨answered, stays, written, reads.left _ written⟩, written', stays', writes ⟨4⟩ _ .sync⟩

end Memory
end Coordination
