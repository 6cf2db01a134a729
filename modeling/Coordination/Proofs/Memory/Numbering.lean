import Coordination.Proofs.Memory.Incarnation
import Coordination.Proofs.Paths.Numbers

namespace Coordination

open Coordination.Path

variable {grants : List (String × String)} {next next' : Nat}

-- Names that were given out for the paths that were asked for, with numbers that go up to `next`.
inductive Numbered : List (String × String) → Nat → Prop
  | nil {next : Nat} : Numbered [] next
  | grant {grants : List (String × String)} {asked : String} {number next : Nat}
    (h : Numbered grants number) (lt : number < next) :
    Numbered (grants ++ [(asked, withSequence asked number)]) next

-- The second name was given out after the first.
def Follows (next : Nat) (first second : String × String) : Prop :=
  ∃ n k, n < k ∧ k < next ∧ first.2 = withSequence first.1 n ∧ second.2 = withSequence second.1 k

namespace Numbered

theorem le (h : Numbered grants next) (hn : next ≤ next') : Numbered grants next' := by
  cases h
  case nil        => exact .nil
  case grant h lt => exact h.grant (Nat.lt_of_lt_of_le lt hn)

theorem named (h : Numbered grants next) :
    ∀ g ∈ grants, ∃ n, n < next ∧ g.2 = withSequence g.1 n := by
  induction h
  case nil => exact fun _ hg => nomatch hg
  case grant number _ _ lt ih =>
    intro g hg
    rcases List.mem_append.mp hg with hg | hg
    case inl =>
      have ⟨n, hn, he⟩ := ih g hg
      exact ⟨n, Nat.lt_trans hn lt, he⟩
    case inr => exact ⟨number, lt, List.mem_singleton.mp hg ▸ rfl⟩

theorem follows (h : Numbered grants next) : grants.Pairwise (Follows next) := by
  induction h
  case nil => exact .nil
  case grant number _ h lt ih =>
    refine List.pairwise_append.mpr ⟨ih.imp ?_, List.pairwise_singleton .., fun g hg g' hg' => ?_⟩
    case refine_1 => exact fun ⟨n, k, hn, hk, he⟩ => ⟨n, k, hn, Nat.lt_trans hk lt, he⟩
    case refine_2 =>
      have ⟨n, hn, he⟩ := h.named g hg
      exact ⟨n, number, hn, lt, he, List.mem_singleton.mp hg' ▸ rfl⟩

section

variable {t t' : Tree} {zxid zxid' : Int} {e : Happening} {path : String} {node node' : Node}

theorem step (c : e.Changes t zxid t' zxid') (found : t[path]? = some node)
    (advances : node.Advances e path zxid' node') (h : Numbered grants node.nextSequence) :
    Numbered (grants ++ (e.grant? path).toList) node'.nextSequence := by
  have hn := advances.nextSequence
  cases hg : e.grant? path
  case none => simpa using h.le (by omega)
  case some grant =>
    have ⟨node, found', named⟩ := c.granted path grant hg
    cases found.symm.trans found'
    rw [Happening.numbers_of_grant? hg] at hn
    obtain ⟨asked, made⟩ := grant
    have named : made = withSequence asked node.nextSequence := named
    subst named
    exact h.grant (by simp [hn])

end

end Numbered

namespace Follows

variable {first second : String × String} (h : Follows next first second)
  (few : next ≤ 10000000000)

include h few

theorem number_lt : sequenceNumber first.2 < sequenceNumber second.2 := by
  have ⟨n, k, hn, hk, hf, hs⟩ := h
  rw [hf, hs, sequenceNumber_withSequence (by omega), sequenceNumber_withSequence (by omega)]
  exact hn

theorem ne : first.2 ≠ second.2 :=
  fun he => Nat.lt_irrefl _ (he ▸ number_lt h few)

theorem name_lt (same : first.1 = second.1) : first.2 < second.2 := by
  have ⟨n, k, hn, hk, hf, hs⟩ := h
  rw [hf, hs, same]
  exact withSequence_lt hn (by omega)

end Follows

namespace Tree

variable {t t' : Tree} {zxid zxid' : Int} {log log' : List Happening} {path : String}
  {node node' : Node}

-- While a node is there, the names given out below it are numbered.
theorem Booked.numbered (b : t.Booked zxid log) (h : t.Evolves zxid log' t' zxid')
    (found : t[path]? = some node) (found' : t'[path]? = some node')
    (same : node'.stat.czxid = node.stat.czxid) :
    Numbered (log'.filterMap (·.grant? path)) node'.nextSequence := by
  induction h generalizing node'
  case refl => exact .nil
  case sweep ih =>
    rw [getElem?_sweep, Option.filter_eq_some_iff] at found'
    exact ih found'.left same
  case step e _ _ _ _ h changes ih =>
    have old : node'.stat.czxid ≤ _ := same ▸ Int.le_trans (b.czxid_le found) h.zxid_le
    have ⟨_, hn, advances⟩ := changes.kept path node' (changes.not_makes found' old) found'
    have hi := ih hn (advances.czxid ▸ same)
    rw [List.filterMap_append]
    have he : [e].filterMap (·.grant? path) = (e.grant? path).toList := by
      cases hg : e.grant? path <;> simp [hg]
    exact he ▸ Numbered.step changes hn advances hi

-- Keys in order that are all there are listed in that order.
theorem sublist_keys {names : List String} (sorted : names.Pairwise (· < ·))
    (there : ∀ name ∈ names, name ∈ t) : names.Sublist t.keys := by
  have listed : t.keys.filter (· ∈ names) = names := by
    refine eq_of_sorted (t.keys_sorted.filter _) sorted fun name => ?_
    have := there name
    simp_all
  exact listed ▸ List.filter_sublist

end Tree

namespace Numbered

theorem suffix (h : Numbered grants next) (few : next ≤ 10000000000) :
    ∀ g ∈ grants, g.2.toList = g.1.toList ++ sequenceSuffix g.2 ∧
      (sequenceSuffix g.2).length = 10 ∧ ∀ c ∈ sequenceSuffix g.2, c.isDigit := by
  intro g hg
  have ⟨n, hn, he⟩ := h.named g hg
  have hn : n < 10000000000 := Nat.lt_of_lt_of_le hn few
  rw [he, sequenceSuffix_withSequence hn]
  exact ⟨toList_withSequence n, length_digits hn, isDigit_of_mem_digits n⟩

-- The names that were given out for the same path come in their order.
theorem sorted (h : Numbered grants next) (few : next ≤ 10000000000) (asked : String) :
    ((grants.filter (·.1 = asked)).map (·.2)).Pairwise (· < ·) := by
  refine List.pairwise_map.mpr <| List.pairwise_filter.mpr <| h.follows.imp ?_
  intro first second follows hf hs
  exact follows.name_lt few <| (of_decide_eq_true hf).trans (of_decide_eq_true hs).symm

end Numbered

namespace Memory

theorem performAt_append {m : Memory} (before run : List (Int × ServiceStep)) :
    m.performAt (before ++ run) = (m.performAt before).performAt run :=
  List.foldl_append

-- While a node is there, every name that is given out below it ends in ten digits that stand for a
-- higher number than those before, so that no name is given out twice; and those that start alike
-- are made, and listed, in their order.
theorem sequence_names_ascend {clock : Int} {before run : List (Int × ServiceStep)} {path : String}
    {node node' : Node} :
    let m := (new clock).performAt before
    let m' := m.performAt run
    let grants := (m.historyAt run).filterMap (·.grant? path)
    m.nodes[path]? = some node → m'.nodes[path]? = some node' →
    node'.stat.czxid = node.stat.czxid →
    (life path ((new clock).historyAt (before ++ run))).countP (·.numbers path) < 2147483647 →
    (grants.map (sequenceNumber ·.2)).Pairwise (· < ·) ∧
    (∀ g ∈ grants, g.2.toList = g.1.toList ++ sequenceSuffix g.2 ∧
      (sequenceSuffix g.2).length = 10 ∧ ∀ c ∈ sequenceSuffix g.2, c.isDigit) ∧
    (grants.map (·.2)).Nodup ∧
    ∀ asked, let names := (grants.filter (·.1 = asked)).map (·.2)
      names.Pairwise (· < ·) ∧
      ∀ id q watch mode children stat, m'.fullPath q = path →
        m'.outcome? id ⟨.getChildren q watch, mode⟩ = some ⟨.ok, .children children stat, []⟩ →
        ((names.filter (· ∈ m'.nodes)).filterMap (childName? path)).Sublist children := by
  intro m m' grants found found' same few
  have booked : m.nodes.Booked m.zxid _ := performAt_booked clock before
  have booked' : m'.nodes.Booked m'.zxid _ :=
    performAt_append (m := new clock) before run ▸ performAt_booked clock (before ++ run)
  have census : m.nodes.Census _ := performAt_census (new_census clock) before
  have numbered : Numbered grants node'.nextSequence :=
    booked.numbered (performAt_evolves census run) found found' same
  have few : node'.nextSequence ≤ 10000000000 := by
    rw [(booked'.nodes path node' found').nextSequence]
    omega
  have follows := numbered.follows
  refine ⟨?_, numbered.suffix few, ?_, fun asked => ⟨numbered.sorted few asked, ?_⟩⟩
  case refine_1 => exact List.pairwise_map.mpr <| follows.imp fun h => h.number_lt few
  case refine_2 => exact List.pairwise_map.mpr <| follows.imp fun h => h.ne few
  case refine_3 =>
    intro id q watch mode children stat hq ho
    rw [outcome_getChildren (serves_of_outcome ho), hq, found'] at ho
    cases ho
    refine (Tree.sublist_keys ((numbered.sorted few asked).filter _) fun name h => ?_).filterMap _
    simpa using (List.mem_filter.mp h).right

-- The third number is given out for a name that is taken, and the first name is free again before
-- the last one is made, by another session.
def founding : List (Int × ServiceStep) :=
  [(0, .init "localhost:2181/app" ⟨0⟩)]

def numberingOn : List (Int × ServiceStep) := [
  (0, .call ⟨1⟩ (making "/a-" createSequence)),
  (0, .call ⟨2⟩ (making "/b-" (createSequence ||| createEphemeral))),
  (0, .call ⟨3⟩ (making "/a-0000000002" 0)),
  (0, .call ⟨4⟩ (making "/a-" createSequence)),
  (0, .call ⟨5⟩ ⟨.delete "/a-0000000000" anyVersion, .async⟩),
  (0, .init "localhost:2181" ⟨0⟩),
  (0, .call ⟨6⟩ (making "/app/a-" createSequence))]

theorem sequence_names_ascend_taken :
    let m := (new 0).performAt founding
    let m' := m.performAt numberingOn
    let grants := (m.historyAt numberingOn).filterMap (·.grant? "/app")
    grants = [("/app/a-", "/app/a-0000000000"), ("/app/b-", "/app/b-0000000001"),
      ("/app/a-", "/app/a-0000000003")] ∧
    (m.nodes["/app"]?.map (·.stat.czxid) = some 1 ∧ m'.nodes["/app"]?.map (·.stat.czxid) = some 1) ∧
    (life "/app" ((new 0).historyAt (founding ++ numberingOn))).countP (·.numbers "/app") = 4 ∧
    (grants.map (sequenceNumber ·.2)).Pairwise (· < ·) ∧ (grants.map (·.2)).Nodup := by
  intro m m' grants
  have made : grants = [("/app/a-", "/app/a-0000000000"), ("/app/b-", "/app/b-0000000001"),
      ("/app/a-", "/app/a-0000000003")] := by decide +kernel
  have there : m.nodes["/app"]?.map (·.stat.czxid) = some 1 := by decide +kernel
  have stays : m'.nodes["/app"]?.map (·.stat.czxid) = some 1 := by decide +kernel
  have four : (life "/app" ((new 0).historyAt (founding ++ numberingOn))).countP
      (·.numbers "/app") = 4 := by decide +kernel
  have ⟨node, found, hz⟩ := Option.map_eq_some_iff.mp there
  have ⟨node', found', hz'⟩ := Option.map_eq_some_iff.mp stays
  have ⟨ascend, _, distinct, _⟩ :=
    sequence_names_ascend found found' (hz'.trans hz.symm) (four ▸ by decide)
  exact ⟨made, ⟨there, stays⟩, four, ascend, distinct⟩

end Memory
end Coordination
