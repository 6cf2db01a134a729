import Coordination.Backend.Tree

namespace Coordination

theorem Target.dropLeading_eq_some {lead cs rest : List Char} :
    dropLeading lead cs = some rest ↔ cs = lead ++ rest := by
  induction lead generalizing cs
  case nil => simp [dropLeading, eq_comm]
  case cons l lead ih =>
    cases cs
    case nil => simp [dropLeading]
    case cons c cs =>
      by_cases h : l = c
      case pos => simp [dropLeading, h, ih]
      case neg => simp [dropLeading, h, Ne.symm h]

namespace Path

-- A path of a client.
def IsAbsolute (path : String) : Prop :=
  path.toList.head? = some '/'

instance (path : String) : Decidable (IsAbsolute path) :=
  inferInstanceAs (Decidable (_ = _))

-- The path is `root` or lies below it.
def Within (root path : String) : Prop :=
  path = root ∨ root.toList ++ ['/'] <+: path.toList

instance (root path : String) : Decidable (Within root path) :=
  inferInstanceAs (Decidable (_ ∨ _))

-- What a chroot looks like.
structure IsRoot (root : String) : Prop where
  absolute : IsAbsolute root
  noTrail  : root.toList.getLast? ≠ some '/'

variable {root path : String} {before segment rest : List Char}

theorem IsAbsolute.cons (h : IsAbsolute path) : ∃ rest, path.toList = '/' :: rest := by
  unfold IsAbsolute at h
  rcases hp : path.toList with _ | ⟨c, rest⟩
  case nil  => simp [hp] at h
  case cons => exact ⟨rest, by simpa [hp] using h⟩

-- Splits at the last slash. Induction on the text: its first slash counts only if no other follows.
theorem exists_split {cs : List Char} (h : '/' ∈ cs) :
    ∃ before segment, cs = before ++ '/' :: segment ∧ '/' ∉ segment := by
  induction cs
  case nil => cases h
  case cons c cs ih =>
    by_cases hc : '/' ∈ cs
    case pos =>
      have ⟨before, segment, he, hs⟩ := ih hc
      exact ⟨c :: before, segment, by rw [he]; rfl, hs⟩
    case neg =>
      have : c = '/' := by simpa [hc, eq_comm] using h
      exact ⟨[], cs, by rw [this]; rfl, hc⟩

theorem parent?_split (hp : path.toList = before ++ '/' :: segment) (hs : '/' ∉ segment) :
    parent? path = some (if before.isEmpty then "/" else String.ofList before) := by
  have h : path.toList.reverse.dropWhile (· ≠ '/') = '/' :: before.reverse := by
    have hn : ∀ c ∈ segment.reverse, decide (c ≠ '/') = true := fun c hc =>
      decide_eq_true fun h => hs (h ▸ List.mem_reverse.mp hc)
    rw [hp, List.reverse_append, List.reverse_cons, List.append_assoc,
      List.dropWhile_append_of_pos hn]
    simp
  unfold parent?
  rw [h]
  cases before <;> simp

theorem isDigit_of_mem_digits (n : Nat) : ∀ c ∈ sequenceDigits n, c.isDigit := by
  intro c h
  rcases List.mem_append.mp h with h | h
  case inl => exact (List.mem_replicate.mp h).right ▸ rfl
  case inr => exact Nat.isDigit_of_mem_toDigits (by decide) (by decide) h

theorem slash_not_mem_digits (n : Nat) : '/' ∉ sequenceDigits n := by
  intro h
  have := isDigit_of_mem_digits n '/' h
  cases this

theorem digits_ne_nil (n : Nat) : sequenceDigits n ≠ [] :=
  fun h => Nat.toDigits_ne_nil (List.append_eq_nil_iff.mp h).right

theorem toList_withSequence (n : Nat) :
    (withSequence path n).toList = path.toList ++ sequenceDigits n := by
  simp [withSequence]

-- A number at the end does not change the parent.
theorem parent?_withSequence (h : '/' ∈ path.toList) (n : Nat) :
    parent? (withSequence path n) = parent? path := by
  have ⟨before, segment, hp, hs⟩ := exists_split h
  have hq : (withSequence path n).toList = before ++ '/' :: (segment ++ sequenceDigits n) := by
    rw [toList_withSequence, hp, List.append_assoc, List.cons_append]
  rw [parent?_split hp hs, parent?_split hq]
  exact fun h => (List.mem_append.mp h).elim hs (slash_not_mem_digits n)

theorem withSequence_ne (n : Nat) : withSequence path n ≠ path := fun h => by
  have := congrArg String.toList h
  rw [toList_withSequence] at this
  exact digits_ne_nil n (List.append_right_eq_self.mp this)

theorem within_append (h : rest.head? = some '/') :
    Within root (String.ofList (root.toList ++ rest)) := by
  rcases rest with _ | ⟨c, rest⟩ <;> cases h
  exact .inr ⟨rest, by simp⟩

theorem Within.ne {q : String} (h : Within root q) (hn : ¬Within root path) : path ≠ q :=
  fun he => hn (he ▸ h)

theorem Within.length_le (h : Within root path) : root.toList.length ≤ path.toList.length := by
  rcases h with rfl | ⟨rest, h⟩
  · exact Nat.le_refl _
  · rw [← h]
    simp

theorem Within.slash_mem (h : Within root path) (r : IsRoot root) : '/' ∈ path.toList := by
  have ⟨rest, hr⟩ := r.absolute.cons
  rcases h with rfl | ⟨_, h⟩
  · rw [hr]
    exact List.mem_cons_self
  · rw [← h, hr]
    exact List.mem_append_left _ (List.mem_append_left _ List.mem_cons_self)

theorem exists_parent (h : '/' ∈ path.toList) : ∃ parent, parent? path = some parent := by
  have ⟨_, _, hp, hs⟩ := exists_split h
  exact ⟨_, parent?_split hp hs⟩

theorem IsRoot.split (r : IsRoot root) :
    ∃ before segment, root.toList = before ++ '/' :: segment ∧ '/' ∉ segment ∧ segment ≠ [] := by
  have ⟨rest, h⟩ := r.absolute.cons
  have ⟨before, segment, hs, hn⟩ := exists_split (h ▸ List.mem_cons_self : '/' ∈ root.toList)
  refine ⟨before, segment, hs, hn, ?_⟩
  rintro rfl
  exact r.noTrail (by rw [hs, List.getLast?_concat])

-- The parent of a root is outside.
theorem IsRoot.parent?_not_within (r : IsRoot root) :
    ∃ parent, parent? root = some parent ∧ ¬Within root parent := by
  have ⟨before, segment, hs, hn, hne⟩ := r.split
  refine ⟨_, parent?_split hs hn, fun h => ?_⟩
  have hl := h.length_le
  have := List.length_pos_iff.mpr hne
  rw [hs, List.length_append, List.length_cons] at hl
  rcases before with _ | ⟨c, before⟩
  · change 0 + (segment.length + 1) ≤ 1 at hl
    omega
  · rw [List.isEmpty_cons, if_neg Bool.false_ne_true, String.toList_ofList] at hl
    omega

-- The parent of a path below a root is not outside.
theorem parent?_within (r : IsRoot root) (h : rest.head? = some '/') :
    ∃ parent, parent? (String.ofList (root.toList ++ rest)) = some parent ∧ Within root parent := by
  have ⟨before, segment, hs, hn⟩ :=
    exists_split (List.mem_of_mem_head? (Option.mem_def.mpr h) : '/' ∈ rest)
  have hr : (root.toList ++ before).isEmpty = false := by
    have ⟨rest, hr⟩ := r.absolute.cons
    simp [hr]
  have hp : (String.ofList (root.toList ++ rest)).toList =
      root.toList ++ before ++ '/' :: segment := by simp [hs]
  refine ⟨_, parent?_split hp hn, ?_⟩
  rw [hr, if_neg Bool.false_ne_true]
  rcases before with _ | ⟨c, before⟩
  · exact .inl (by simp)
  · rw [hs] at h
    exact within_append h

theorem withSequence_absolute (h : IsAbsolute path) (n : Nat) :
    IsAbsolute (withSequence path n) := by
  have ⟨rest, hp⟩ := h.cons
  rw [IsAbsolute, toList_withSequence, hp]
  rfl

theorem withSequence_within (h : root.toList ++ ['/'] <+: path.toList) (n : Nat) :
    Within root (withSequence path n) := by
  refine .inr (h.trans ?_)
  rw [toList_withSequence]
  exact List.prefix_append ..

theorem withSequence_not_within (n : Nat) : ¬Within root (withSequence root n) := by
  rintro (h | ⟨rest, h⟩)
  · exact withSequence_ne n h
  · rw [toList_withSequence, List.append_assoc, List.append_right_inj] at h
    exact slash_not_mem_digits n (h ▸ List.mem_cons_self ..)

end Path

namespace Target

open Coordination.Path

variable {target : Target} {root path : String}

theorem fullPath_root (hc : target.chroot = some root) : target.fullPath "/" = root := by
  simp [fullPath, hc]

theorem fullPath_of_ne (hc : target.chroot = some root) (h : path ≠ "/") :
    target.fullPath path = String.ofList (root.toList ++ path.toList) := by
  simp [fullPath, hc, h]

theorem fullPath_within (hc : target.chroot = some root) (h : IsAbsolute path) :
    Within root (target.fullPath path) := by
  by_cases hp : path = "/"
  case pos => rw [hp, fullPath_root hc]; exact .inl rfl
  case neg => rw [fullPath_of_ne hc hp]; exact within_append h

theorem fullPath_below (hc : target.chroot = some root) (h : IsAbsolute path) (hn : path ≠ "/") :
    root.toList ++ ['/'] <+: (target.fullPath path).toList := by
  have ⟨rest, hp⟩ := h.cons
  rw [fullPath_of_ne hc hn]
  exact ⟨rest, by simp [hp]⟩

theorem stripChroot_root (hc : target.chroot = some root) : target.stripChroot root = "/" := by
  have : dropLeading root.toList root.toList = some [] :=
    dropLeading_eq_some.mpr (List.append_nil _).symm
  simp [stripChroot, hc, this]

theorem stripChroot_append (hc : target.chroot = some root) (h : IsAbsolute path) :
    target.stripChroot (String.ofList (root.toList ++ path.toList)) = path := by
  have ⟨rest, hp⟩ := h.cons
  have : dropLeading root.toList (root.toList ++ '/' :: rest) = some ('/' :: rest) :=
    dropLeading_eq_some.mpr rfl
  simp [stripChroot, hc, hp, this, String.ext_iff]

-- A path that is not the chroot's or below it is left alone.
theorem stripChroot_not_within (hc : target.chroot = some root) (h : ¬Within root path) :
    target.stripChroot path = path := by
  simp only [stripChroot, hc]
  split
  case h_1 hd =>
    refine absurd (.inl ?_) h
    rw [dropLeading_eq_some, List.append_nil] at hd
    exact String.ext hd
  case h_2 rest hd =>
    refine absurd (.inr ⟨rest, ?_⟩) h
    rw [dropLeading_eq_some] at hd
    rw [hd, List.append_assoc]
    rfl
  case h_3 => rfl

-- What comes back from below the chroot is the path that went there.
theorem strip_fullPath (hc : target.chroot = some root) (h : IsAbsolute path) :
    target.stripChroot (target.fullPath path) = path := by
  by_cases hp : path = "/"
  case pos => rw [hp, fullPath_root hc, stripChroot_root hc]
  case neg => rw [fullPath_of_ne hc hp, stripChroot_append hc h]

-- What lies below the chroot is known by its own name, but for the empty one.
theorem full_stripChroot {rest : List Char} (hc : target.chroot = some root)
    (hp : path.toList = root.toList ++ '/' :: rest) (hr : rest ≠ []) :
    target.fullPath (target.stripChroot path) = path := by
  have hs : target.stripChroot path = String.ofList ('/' :: rest) := by
    have : path = String.ofList (root.toList ++ (String.ofList ('/' :: rest)).toList) :=
      String.ext (by simp [hp])
    rw [this, stripChroot_append hc (by simp [IsAbsolute])]
  have hn : String.ofList ('/' :: rest) ≠ "/" := fun h => hr <| by
    simpa using congrArg String.toList h
  rw [hs, fullPath_of_ne hc hn]
  exact String.ext (by simp [hp])

-- The texts that are read as targets have a chroot that can be one.
theorem isRoot_of_parse {text : String} (h : parse text = .ok target)
    (hc : target.chroot = some root) : IsRoot root := by
  simp only [parse] at h
  split at h
  case isTrue => cases h
  case isFalse =>
    split at h
    case isTrue => cases h
    case isFalse hl =>
      split at h
      case h_1 => cases h
      case h_2 =>
        cases h
        generalize Text.trimChars text.toList = cs at hc hl
        have ⟨hne, hr⟩ := Option.ite_none_left_eq_some.mp hc
        cases hr
        have hw := cs.takeWhile_append_dropWhile (p := (· ≠ '/'))
        have hh := cs.head?_dropWhile_not (· ≠ '/')
        rcases hd : cs.dropWhile (· ≠ '/') with _ | ⟨c, rest⟩ <;> rw [hd] at hne hh hw
        case nil => simp at hne
        case cons =>
          constructor
          · simpa [IsAbsolute] using hh
          · rw [← hw, List.getLast?_append, List.getLast?_cons] at hl
            simpa [List.getLast?_cons] using hl

end Target
end Coordination
