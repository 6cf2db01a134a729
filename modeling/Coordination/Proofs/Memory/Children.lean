import Coordination.Proofs.Memory.Effect
import Coordination.Proofs.Paths.Segments

namespace Coordination

open scoped List

namespace Path

variable {parent path : String}

-- The path is among those listed as the children of `parent`.
def lists (parent path : String) : Bool :=
  (childName? parent path).isSome

theorem exists_slash (h : parent? path = some parent) : '/' ∈ path.toList := by
  refine Decidable.byContradiction fun hn => ?_
  have hs : ∀ c ∈ path.toList.reverse, decide (c ≠ '/') = true := fun c hc =>
    decide_eq_true fun he => hn (he ▸ List.mem_reverse.mp hc)
  rw [parent?, ← List.append_nil path.toList.reverse, List.dropWhile_append_of_pos hs] at h
  cases h

theorem IsAbsolute.of_parent? (ha : IsAbsolute parent) (h : parent? path = some parent) :
    IsAbsolute path := by
  have ⟨before, segment, hp, hs⟩ := exists_split (exists_slash h)
  rw [parent?_split hp hs] at h
  rw [IsAbsolute, hp]
  cases before
  case nil => rfl
  case cons c before =>
    cases h
    simpa [IsAbsolute] using ha

theorem IsAbsolute.slash_mem (ha : IsAbsolute path) : '/' ∈ path.toList := by
  have ⟨rest, h⟩ := ha.cons
  exact h ▸ List.mem_cons_self

-- No path but the root is its own parent.
theorem parent?_ne (h : parent? path = some parent) (hr : path ≠ "/") : parent ≠ path := by
  rintro rfl
  have ⟨before, segment, hb, hs⟩ := exists_split (exists_slash h)
  have he := Option.some.inj <| (parent?_split hb hs).symm.trans h
  split at he
  case isTrue  => exact hr he.symm
  case isFalse =>
    have hl := congrArg (·.toList.length) he
    simp [hb] at hl

-- The parent of a node that is made, whether a number is put behind its path or not.
theorem parent?_named {full : String} {isSequence : Bool} {n : Nat}
    (h : parent? path = some parent)
    (named : full = if isSequence then withSequence path n else path) :
    parent? full = some parent := by
  rw [named]
  split
  case isTrue  => rw [parent?_withSequence (exists_slash h), h]
  case isFalse => exact h

-- The text of a listed child, after that of its parent.
theorem toList_of_lists (h : lists parent path) :
    ∃ rest, path.toList = below parent ++ rest ∧ rest ≠ [] ∧ '/' ∉ rest := by
  have ⟨name, hn⟩ := Option.isSome_iff_exists.mp h
  have ⟨hr, hp⟩ := childName?_eq_some.mp hn
  exact ⟨name.toList, hp, hr⟩

theorem parent?_of_lists (ha : IsAbsolute parent) (h : lists parent path) :
    parent? path = some parent := by
  have ⟨rest, hp, _, hr⟩ := toList_of_lists h
  unfold below at hp
  split at hp
  case isTrue hroot =>
    have hp : path.toList = [] ++ '/' :: rest := hp
    rw [parent?_split hp hr, hroot]
    rfl
  case isFalse =>
    have hp : path.toList = parent.toList ++ '/' :: rest := by rw [hp, List.append_assoc]; rfl
    have ⟨_, ht⟩ := ha.cons
    rw [parent?_split hp hr, String.ofList_toList, ht]
    rfl

-- A regular path is listed for its parent.
theorem IsRegular.lists (h : IsRegular path) (hr : path ≠ "/") (hp : parent? path = some parent) :
    lists parent path := by
  obtain ⟨a, s, ha, hs, rfl⟩ := h.eq_root_or_concat.resolve_left hr
  cases hp.symm.trans (parent?_join hs.right)
  have hc : childName? (join a) (join (a ++ [s])) = some (String.ofList s) :=
    (childName?_join ha).mpr (by simpa using hs)
  rw [Path.lists, hc]
  rfl

theorem lists_root : lists parent "/" = false := by
  refine Bool.eq_false_iff.mpr fun h => ?_
  have ⟨rest, hp, hn, _⟩ := toList_of_lists h
  have hl := congrArg List.length hp
  have := List.length_pos_iff.mpr hn
  have : 0 < (below parent).length := by unfold below; split <;> simp
  rw [List.length_append] at hl
  change 1 = _ at hl
  omega

end Path

namespace Tree

variable {t t' : Tree} {p path : String}

-- The paths of the nodes that belong to some session.
def swept (t : Tree) : List String :=
  t.keys.filter fun path => t[path]?.any Node.isEphemeral

theorem length_children : (t.children p).length = t.keys.countP (Path.lists p) :=
  List.length_filterMap_eq_countP

theorem children_eq_nil : t.children p = [] ↔ ∀ path ∈ t, Path.lists p path = false := by
  simp [children, Path.lists, List.filterMap_eq_nil_iff]

theorem keys_perm {l : List String} (hn : l.Nodup) (h : ∀ path, path ∈ t ↔ path ∈ l) :
    t.keys ~ l :=
  (List.perm_ext_iff_of_nodup t.nodup_keys hn).mpr fun path =>
    Std.ExtTreeMap.mem_keys.trans (h path)

theorem keys_sorted : t.keys.Pairwise (· < ·) :=
  t.ordered_keys.imp compareOfLessAndEq_eq_lt.mp

-- Sorted lists with the same members are the same.
theorem eq_of_sorted {a b : List String} (ha : a.Pairwise (· < ·)) (hb : b.Pairwise (· < ·))
    (h : ∀ x, x ∈ a ↔ x ∈ b) : a = b := by
  have nodup {l : List String} (hl : l.Pairwise (· < ·)) : l.Nodup :=
    hl.imp fun hlt => fun he => String.lt_irrefl _ (he ▸ hlt)
  exact List.Perm.eq_of_pairwise (fun _ _ _ _ h h' => absurd h' (String.lt_asymm h)) ha hb <|
    (List.perm_ext_iff_of_nodup (nodup ha) (nodup hb)).mpr h

-- The nodes themselves do not matter.
theorem length_children_congr (h : ∀ path, path ∈ t' ↔ path ∈ t) :
    (t'.children p).length = (t.children p).length := by
  rw [length_children, length_children]
  refine (keys_perm t.nodup_keys fun path => ?_).countP_eq _
  rw [h, Std.ExtTreeMap.mem_keys]

theorem length_children_put (node : Node) (h : t[path]? = none) :
    (children (t.insert path node) p).length =
      (t.children p).length + if Path.lists p path then 1 else 0 := by
  have hm : path ∉ t.keys := by
    rw [Std.ExtTreeMap.mem_keys, mem_iff, h]
    exact Bool.false_ne_true
  have hk : Std.ExtTreeMap.keys (t.insert path node) ~ path :: t.keys :=
    keys_perm (List.nodup_cons.mpr ⟨hm, t.nodup_keys⟩) fun q => by
      rw [List.mem_cons, Std.ExtTreeMap.mem_keys]
      exact mem_put
  rw [length_children, length_children, hk.countP_eq, List.countP_cons]

theorem length_children_drop (h : t[path]?.isSome) :
    (t.children p).length =
      (children (t.erase path) p).length + if Path.lists p path then 1 else 0 := by
  have hm : path ∉ Std.ExtTreeMap.keys (t.erase path) := by simp
  have hk : t.keys ~ path :: Std.ExtTreeMap.keys (t.erase path) :=
    keys_perm (List.nodup_cons.mpr ⟨hm, Std.ExtTreeMap.nodup_keys⟩) fun q => by
      rw [List.mem_cons, Std.ExtTreeMap.mem_keys, mem_iff, mem_iff, getElem?_drop]
      by_cases hq : q = path <;> simp [hq, h]
  rw [length_children, length_children, hk.countP_eq, List.countP_cons]

theorem length_children_sweep :
    (t.children p).length = (t.sweep.children p).length + t.swept.countP (Path.lists p) := by
  have hk : t.sweep.keys ~ t.keys.filter fun path => !t[path]?.any Node.isEphemeral :=
    keys_perm (t.nodup_keys.sublist List.filter_sublist) fun q => by
      rw [List.mem_filter, Std.ExtTreeMap.mem_keys, mem_iff, mem_iff, getElem?_sweep]
      cases t[q]? <;> simp [Option.filter_some]
  rw [length_children, length_children, hk.countP_eq, Nat.add_comm]
  exact List.countP_eq_countP_filter_add ..

end Tree
end Coordination
