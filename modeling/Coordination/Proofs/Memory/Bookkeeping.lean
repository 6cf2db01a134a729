import Coordination.Proofs.Memory.History

namespace Coordination

open Coordination.Path

-- The books of a node with such a life, when `zxid` is the last transaction.
structure Node.Booked (path : String) (zxid : Int) (life : List Happening) (n : Node) : Prop where
  version      : n.stat.version = life.countP (·.sets path)
  aversion     : n.stat.aversion = life.countP (·.setsAcl path)
  cversion     : n.stat.cversion = life.countP (·.tells path)
  dataLength   : n.stat.dataLength = n.data.size
  mzxid        : n.stat.czxid ≤ n.stat.mzxid ∧ n.stat.mzxid ≤ zxid
  pzxid        : n.stat.czxid ≤ n.stat.pzxid ∧ n.stat.pzxid ≤ zxid
  nextSequence : n.nextSequence = life.countP (·.numbers path)

theorem countP_concat {e : Happening} (p : Happening → Bool) (log : List Happening) :
    (log ++ [e]).countP p = log.countP p + (p e).toNat := by
  rw [List.countP_append, List.countP_singleton]
  cases p e <;> rfl

namespace Happening

variable {e : Happening} {p q : String} {t t' : Tree} {zxid zxid' : Int}

-- A happening makes one node at most.
theorem makes_inj (hp : e.makes p) (hq : e.makes q) : p = q := by
  cases e
  case founded => simp_all [makes]
  case answered op _ _ => cases op <;> simp_all [makes]

theorem Changes.zxid_le (c : e.Changes t zxid t' zxid') : zxid ≤ zxid' := by
  have := c.zxid
  omega

theorem Changes.zxid_made (c : e.Changes t zxid t' zxid') (h : e.makes p) : zxid' = zxid + 1 := by
  rw [c.zxid, commits_of_makes h]
  rfl

theorem Changes.not_makes {node' : Node} (c : e.Changes t zxid t' zxid')
    (found' : t'[p]? = some node') (old : node'.stat.czxid ≤ zxid) : e.makes p = false := by
  refine Bool.eq_false_iff.mpr fun h => ?_
  have ⟨_, _, _, _, _, made⟩ := c.made p h
  cases made.symm.trans found'
  exact Int.not_le.mpr (Int.lt_succ zxid) (c.zxid_made h ▸ old)

end Happening

namespace Node.Booked

variable {path : String} {zxid zxid' owner now : Int} {log : List Happening} {n n' : Node}
  {e : Happening} {data : ByteArray} {acl : List Acl}

theorem new : (Node.new data acl zxid owner now).Booked path zxid [] where
  version      := rfl
  aversion     := rfl
  cversion     := rfl
  dataLength   := rfl
  mzxid        := ⟨Int.le_refl _, Int.le_refl _⟩
  pzxid        := ⟨Int.le_refl _, Int.le_refl _⟩
  nextSequence := rfl

theorem advances (b : n.Booked path zxid log) (h : n.Advances e path zxid' n')
    (le : zxid ≤ zxid') : n'.Booked path zxid' (log ++ [e]) := by
  have hm := b.mzxid
  have hp := b.pzxid
  constructor
  case version      => rw [h.version, b.version, countP_concat]; simp
  case aversion     => rw [h.aversion, b.aversion, countP_concat]; simp
  case cversion     => rw [h.cversion, b.cversion, countP_concat]; simp
  case dataLength   => exact h.dataLength b.dataLength
  case mzxid        => rw [h.czxid, h.mzxid]; split <;> omega
  case pzxid        => rw [h.czxid, h.pzxid]; split <;> omega
  case nextSequence => rw [h.nextSequence, b.nextSequence, countP_concat]

end Node.Booked

namespace Tree

variable {t t' : Tree} {zxid zxid' : Int} {log log' : List Happening} {e : Happening}

structure Booked (t : Tree) (zxid : Int) (log : List Happening) : Prop where
  nodes    : ∀ (path : String) node, t[path]? = some node → node.Booked path zxid (life path log)
  made     : ∀ path ∈ t, path = "/" ∨ ∃ e ∈ log, e.makes path
  distinct : ∀ (p q : String) node node', t[p]? = some node → t[q]? = some node' →
    node.stat.czxid = node'.stat.czxid → p = q

namespace Booked

theorem czxid_le (b : t.Booked zxid log) {path : String} {node : Node}
    (found : t[path]? = some node) : node.stat.czxid ≤ zxid :=
  have h := (b.nodes path node found).mzxid
  Int.le_trans h.left h.right

theorem sweep (b : t.Booked zxid log) : t.sweep.Booked zxid log := by
  have old {path : String} {node : Node} (h : t.sweep[path]? = some node) :
      t[path]? = some node := by
    rw [getElem?_sweep, Option.filter_eq_some_iff] at h
    exact h.left
  constructor
  case nodes    => exact fun path node h => b.nodes path node (old h)
  case distinct => exact fun p q node node' h h' => b.distinct p q node node' (old h) (old h')
  case made     => exact fun path h => b.made path (mem_sweep.mp h).mem

theorem step (b : t.Booked zxid log) (c : e.Changes t zxid t' zxid') :
    t'.Booked zxid' (log ++ [e]) := by
  -- Nodes that were there before the happening are older than the one it made.
  have older {p q : String} {node node' : Node} (hp : e.makes p) (hn : t'[p]? = some node)
      (hq : e.makes q = false) (hn' : t'[q]? = some node') :
      node'.stat.czxid < node.stat.czxid := by
    have ⟨_, _, _, _, _, made⟩ := c.made p hp
    have ⟨old, found, advances⟩ := c.kept q node' hq hn'
    have hz := c.zxid_made hp
    have hle := b.czxid_le found
    cases made.symm.trans hn
    rw [advances.czxid]
    change _ < zxid'
    omega
  constructor
  case nodes =>
    intro path node' hn
    rw [life_concat]
    cases hm : e.makes path
    case true =>
      have ⟨_, _, _, _, _, made⟩ := c.made path hm
      cases made.symm.trans hn
      exact .new
    case false =>
      have ⟨node, found, advances⟩ := c.kept path node' hm hn
      exact (b.nodes path node found).advances advances c.zxid_le
  case made =>
    intro path h
    cases hm : e.makes path
    case true  => exact .inr ⟨e, by simp, hm⟩
    case false =>
      have ⟨node', hn⟩ := exists_node h
      have ⟨node, found, _⟩ := c.kept path node' hm hn
      refine (b.made path (mem_of_found found)).imp_right fun ⟨e', he, hm'⟩ => ?_
      exact ⟨e', List.mem_append_left _ he, hm'⟩
  case distinct =>
    intro p q node node' hn hn' he
    cases hp : e.makes p <;> cases hq : e.makes q
    case true.true  => exact Happening.makes_inj hp hq
    case true.false => exact absurd he.symm (Int.ne_of_lt (older hp hn hq hn'))
    case false.true => exact absurd he (Int.ne_of_lt (older hq hn' hp hn))
    case false.false =>
      have ⟨_, found, advances⟩ := c.kept p node hp hn
      have ⟨_, found', advances'⟩ := c.kept q node' hq hn'
      rw [advances.czxid, advances'.czxid] at he
      exact b.distinct p q _ _ found found' he

theorem evolves (b : t.Booked zxid log) (h : t.Evolves zxid log' t' zxid') :
    t'.Booked zxid' (log ++ log') := by
  induction h
  case refl                => exact (List.append_nil log).symm ▸ b
  case sweep _ ih          => exact ih.sweep
  case step _ _ changes ih => exact List.append_assoc .. ▸ ih.step changes

end Booked
end Tree

namespace Memory

theorem new_booked (clock : Int) : (new clock).nodes.Booked 0 [] := by
  have only {path : String} {node : Node} (h : (new clock).nodes[path]? = some node) :
      path = "/" ∧ node = .new ByteArray.empty Acl.openUnsafe 0 0 clock := by
    rw [new, Tree.getElem?_put] at h
    split at h
    case isTrue hp => cases h; exact ⟨hp, rfl⟩
    case isFalse   => simp at h
  constructor
  case nodes =>
    intro path node h
    rw [(only h).right]
    exact .new
  case made =>
    intro path h
    obtain ⟨_, hn⟩ := Tree.exists_node h
    exact .inl (only hn).left
  case distinct =>
    intro p q node node' h h' _
    rw [(only h).left, (only h').left]

theorem performAt_booked (clock : Int) (run : List (Int × ServiceStep)) :
    ((new clock).performAt run).nodes.Booked ((new clock).performAt run).zxid
      ((new clock).historyAt run) :=
  (new_booked clock).evolves <| performAt_evolves (new_census clock) run

-- After every run, every node was made or is the root that was there from the start, and its books
-- tell what has happened to it since; no two nodes were made by the same transaction; and the
-- transactions of the next step are its creations, replacements and deletions, and the nodes made
-- for a chroot.
theorem stats_booked {clock : Int} {run : List (Int × ServiceStep)} :
    let m := (new clock).performAt run
    let log := (new clock).historyAt run
    (∀ path ∈ m.nodes, path = "/" ∨ ∃ e ∈ log, e.makes path) ∧
    (∀ (path : String) node, m.nodes[path]? = some node →
      node.Booked path m.zxid (life path log)) ∧
    (∀ (p q : String) node node', m.nodes[p]? = some node → m.nodes[q]? = some node' → p ≠ q →
      node.stat.czxid ≠ node'.stat.czxid) ∧
    ∀ now step, ((m.tick now).perform step).2.zxid =
      m.zxid + ((m.tick now).history step).countP (·.commits) := by
  intro m log
  have b : m.nodes.Booked m.zxid log := performAt_booked clock run
  have c : m.nodes.Census _ := performAt_census (new_census clock) run
  refine ⟨b.made, b.nodes, ?_, fun now step => ?_⟩
  case refine_1 => exact fun p q node node' h h' => mt (b.distinct p q node node' h h')
  case refine_2 => exact (perform_evolves (m := m.tick now) c step).zxid_eq

-- A node is deleted and made again. Then its data is replaced twice, but the first time is refused,
-- and the second is in a session that has the whole tree before it.
def madeAgain : List (Int × ServiceStep) := [
  (0, .init "localhost:2181/app" ⟨0⟩),
  (1, .call ⟨1⟩ ⟨.create "/n" ByteArray.empty [] 0, .sync⟩),
  (2, .call ⟨2⟩ ⟨.set "/n" ByteArray.empty 0, .sync⟩),
  (3, .call ⟨3⟩ ⟨.delete "/n" anyVersion, .async⟩),
  (4, .call ⟨4⟩ ⟨.create "/n" ByteArray.empty [] 0, .async⟩),
  (5, .call ⟨5⟩ ⟨.set "/n" ByteArray.empty 7, .sync⟩),
  (6, .init "localhost:2181" ⟨0⟩),
  (7, .call ⟨6⟩ ⟨.set "/app/n" "data".toUTF8 0, .sync⟩),
  (8, .call ⟨7⟩ ⟨.create "/app/n/c" ByteArray.empty [] createSequence, .sync⟩),
  (9, .call ⟨8⟩ ⟨.setAcl "/app/n" [] 0, .sync⟩)]

theorem stats_booked_again :
    let m := (new 0).performAt madeAgain
    let log := (new 0).historyAt madeAgain
    let stat : Stat :=
      { czxid := 5, mzxid := 6, pzxid := 7, ctime := 4, mtime := 7, version := 1, cversion := 1,
        aversion := 1, dataLength := 4, numChildren := 1 }
    m.nodes["/app/n"]?.map (·.stat) = some stat ∧
      (life "/app/n" log).countP (·.sets "/app/n") = 1 ∧
      (life "/app/n" log).countP (·.setsAcl "/app/n") = 1 ∧
      (life "/app/n" log).countP (·.tells "/app/n") = 1 := by
  intro m log stat
  have reported : m.nodes["/app/n"]?.map (·.stat) = some stat := by decide +kernel
  obtain ⟨node, found, hs⟩ := Option.map_eq_some_iff.mp reported
  obtain ⟨_, books, _⟩ := @stats_booked 0 madeAgain
  have b : node.Booked "/app/n" m.zxid (life "/app/n" log) := books "/app/n" node found
  have version := b.version
  have aversion := b.aversion
  have cversion := b.cversion
  rw [hs] at version aversion cversion
  simp only [stat] at version aversion cversion
  exact ⟨reported, by omega, by omega, by omega⟩

end Memory
end Coordination
