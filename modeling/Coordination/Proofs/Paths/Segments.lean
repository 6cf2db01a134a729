import Coordination.Proofs.Paths.Chroot

namespace Coordination

namespace Text

variable {separator : Char} {cs rest : List Char} {others : List (List Char)}

theorem pieces_cons_separator :
    pieces separator (separator :: rest) = [] :: pieces separator rest := by
  rcases h : pieces separator rest with _ | ⟨piece, others⟩
  case nil  => exact absurd h (pieces_ne_nil separator rest)
  case cons => simp [pieces, h]

theorem pieces_append (hs : separator ∉ cs) (h : pieces separator rest = [] :: others) :
    pieces separator (cs ++ rest) = cs :: others := by
  induction cs
  case nil => exact h
  case cons c cs ih =>
    rw [List.mem_cons, not_or] at hs
    simp [pieces, ih hs.right, Ne.symm hs.left]

theorem not_mem_of_mem_pieces {piece : List Char} (h : piece ∈ pieces separator cs) :
    separator ∉ piece := by
  induction cs generalizing piece
  case nil => simp_all [pieces]
  case cons c cs ih =>
    rcases hp : pieces separator cs with _ | ⟨first, others⟩
    case nil => exact absurd hp (pieces_ne_nil separator cs)
    case cons =>
      simp only [hp, List.mem_cons, pieces] at h ih
      split at h
      case isTrue => grind
      case isFalse => grind

end Text

namespace Path

variable {a b segs : List (List Char)} {s : List Char} {path key name : String} {n : Nat}

-- Segments that can stand between slashes.
def Proper (segs : List (List Char)) : Prop :=
  ∀ s ∈ segs, s ≠ [] ∧ '/' ∉ s

def spell (segs : List (List Char)) : List Char :=
  segs.flatMap ('/' :: ·)

def join : List (List Char) → String
  | [] => "/"
  | s :: segs => String.ofList (spell (s :: segs))

def segments (path : String) : List (List Char) :=
  (Text.pieces '/' path.toList).filter (· ≠ [])

-- The root, or a slash before every segment and nothing else.
def IsRegular (path : String) : Prop :=
  join (segments path) = path

instance (path : String) : Decidable (IsRegular path) :=
  inferInstanceAs (Decidable (_ = _))

@[simp] theorem proper_append : Proper (a ++ b) ↔ Proper a ∧ Proper b := by
  simp only [Proper, List.mem_append]
  exact ⟨fun h => ⟨fun s hs => h s (.inl hs), fun s hs => h s (.inr hs)⟩,
    fun h s hs => hs.elim (h.left s) (h.right s)⟩

@[simp] theorem proper_singleton : Proper [s] ↔ s ≠ [] ∧ '/' ∉ s := by
  simp [Proper]

theorem proper_nil : Proper [] :=
  fun _ h => nomatch h

theorem Proper.of_prefix (h : Proper b) (hp : a <+: b) : Proper a :=
  fun s hs => h s (hp.subset hs)

theorem proper_segments (path : String) : Proper (segments path) := by
  intro s hs
  have ⟨hm, hn⟩ := List.mem_filter.mp hs
  exact ⟨by simpa using hn, Text.not_mem_of_mem_pieces hm⟩

@[simp] theorem spell_append : spell (a ++ b) = spell a ++ spell b :=
  List.flatMap_append

@[simp] theorem spell_singleton : spell [s] = '/' :: s := by
  simp [spell]

theorem spell_cons : spell (s :: segs) = '/' :: s ++ spell segs :=
  List.flatMap_cons

-- Between the slashes of a text stand its pieces.
theorem spell_pieces (cs : List Char) : spell (Text.pieces '/' cs) = '/' :: cs := by
  induction cs
  case nil => rfl
  case cons c cs ih =>
    rcases h : Text.pieces '/' cs with _ | ⟨piece, others⟩
    case nil => exact absurd h (Text.pieces_ne_nil '/' cs)
    case cons =>
      rw [h, spell_cons] at ih
      have ih : piece ++ spell others = cs := List.cons_inj_right '/' |>.mp ih
      simp only [Text.pieces, h]
      split
      case isTrue hc => rw [spell_cons, spell_cons, hc, ← ih]; rfl
      case isFalse   => rw [spell_cons, ← ih]; rfl

-- Nothing is spelled for an empty piece.
theorem length_spell_segments : (spell (segments path)).length ≤ path.toList.length + 1 := by
  have h (segs : List (List Char)) :
      (spell (segs.filter (· ≠ []))).length ≤ (spell segs).length := by
    induction segs
    case nil => exact Nat.le_refl _
    case cons s segs ih =>
      rw [List.filter_cons, spell_cons, List.length_append]
      split
      case isTrue  => rw [spell_cons, List.length_append]; exact Nat.add_le_add_left ih _
      case isFalse => exact Nat.le_trans ih <| Nat.le_add_left ..
  have hp := h (Text.pieces '/' path.toList)
  rwa [spell_pieces] at hp

theorem toList_join (h : segs ≠ []) : (join segs).toList = spell segs := by
  cases segs
  case nil  => exact absurd rfl h
  case cons => exact String.toList_ofList

theorem toList_join_concat : (join (segs ++ [s])).toList = spell segs ++ '/' :: s := by
  rw [toList_join (by simp), spell_append, spell_singleton]

theorem pieces_spell (h : Proper segs) : Text.pieces '/' (spell segs) = [] :: segs := by
  induction segs
  case nil => rfl
  case cons s segs ih =>
    have hs := h s List.mem_cons_self
    have ih := ih fun s hs => h s (List.mem_cons_of_mem _ hs)
    change Text.pieces '/' ('/' :: (s ++ spell segs)) = _
    rw [Text.pieces_cons_separator, Text.pieces_append hs.right ih]

-- A path gives back the segments it was spelled with.
theorem segments_join (h : Proper segs) : segments (join segs) = segs := by
  cases hs : decide (segs = [])
  case true  => cases of_decide_eq_true hs; rfl
  case false =>
    rw [segments, toList_join (of_decide_eq_false hs), pieces_spell h]
    simpa using fun s hs => (h s hs).left

theorem join_inj (ha : Proper a) (hb : Proper b) : join a = join b ↔ a = b :=
  ⟨fun h => by rw [← segments_join ha, h, segments_join hb], congrArg join⟩

theorem join_eq_root (h : Proper segs) : join segs = "/" ↔ segs = [] :=
  join_inj h proper_nil

theorem IsRegular.exists_segments (h : IsRegular path) : ∃ segs, Proper segs ∧ path = join segs :=
  ⟨segments path, proper_segments path, h.symm⟩

theorem isAbsolute_join : IsAbsolute (join segs) := by
  cases segs
  case nil  => rfl
  case cons => simp [IsAbsolute, join, spell]

theorem isRegular_join (h : Proper segs) : IsRegular (join segs) :=
  congrArg join (segments_join h)

theorem IsRegular.isAbsolute (h : IsRegular path) : IsAbsolute path :=
  h ▸ isAbsolute_join

theorem IsRegular.eq_root_or_concat (h : IsRegular path) :
    path = "/" ∨ ∃ a s, Proper a ∧ (s ≠ [] ∧ '/' ∉ s) ∧ path = join (a ++ [s]) := by
  obtain ⟨segs, hs, rfl⟩ := h.exists_segments
  rcases segs.eq_nil_or_concat with rfl | ⟨a, s, rfl⟩
  case inl => exact .inl rfl
  case inr =>
    rw [List.concat_eq_append] at hs ⊢
    have ⟨ha, hs⟩ := proper_append.mp hs
    exact .inr ⟨a, s, ha, proper_singleton.mp hs, rfl⟩

theorem IsRoot.segments_ne_nil (r : IsRoot path) (h : IsRegular path) : segments path ≠ [] := by
  intro hs
  have he : path = "/" := h.symm.trans (congrArg join hs)
  exact r.noTrail (by rw [he]; rfl)

theorem parent?_join (h : '/' ∉ s) : parent? (join (segs ++ [s])) = some (join segs) := by
  rw [parent?_split toList_join_concat h]
  cases segs
  case nil  => rfl
  case cons => simp [join, spell]

theorem withSequence_join :
    withSequence (join (segs ++ [s])) n = join (segs ++ [s ++ sequenceDigits n]) := by
  refine String.ext ?_
  rw [toList_withSequence, toList_join_concat, toList_join_concat, List.append_assoc,
    List.cons_append]

theorem withSequence_root : withSequence "/" n = join [sequenceDigits n] := by
  refine String.ext ?_
  rw [toList_withSequence, toList_join (List.cons_ne_nil _ _), spell_singleton]
  rfl

theorem IsRegular.withSequence (h : IsRegular path) (n : Nat) :
    IsRegular (withSequence path n) := by
  have hn {s : List Char} (hs : '/' ∉ s) : Proper [s ++ sequenceDigits n] := by
    simp [digits_ne_nil, slash_not_mem_digits, hs]
  rcases h.eq_root_or_concat with rfl | ⟨a, s, ha, hs, rfl⟩
  case inl =>
    rw [withSequence_root]
    exact isRegular_join (hn List.not_mem_nil)
  case inr =>
    rw [withSequence_join]
    exact isRegular_join (proper_append.mpr ⟨ha, hn hs.right⟩)

theorem below_join (h : Proper segs) : below (join segs) = spell segs ++ ['/'] := by
  unfold below
  by_cases hs : segs = []
  case pos => subst hs; rfl
  case neg => rw [if_neg (mt (join_eq_root h).mp hs), toList_join hs]

theorem childName?_eq_some :
    childName? path key = some name ↔
      (name.toList ≠ [] ∧ '/' ∉ name.toList) ∧ key.toList = below path ++ name.toList := by
  rw [← Target.dropLeading_eq_some, childName?]
  cases hd : Target.dropLeading (below path) key.toList
  case none => simp
  case some rest =>
    simp only [Option.some.injEq]
    by_cases he : rest = name.toList
    case pos => subst he; simp
    case neg =>
      refine iff_of_false (fun h => he ?_) (fun h => he h.right)
      split at h
      case isTrue  => cases h
      case isFalse => rw [← Option.some.inj h, String.toList_ofList]

-- The children of a path have one segment more.
theorem childName?_join (h : Proper segs) :
    childName? (join segs) key = some name ↔
      (name.toList ≠ [] ∧ '/' ∉ name.toList) ∧ key = join (segs ++ [name.toList]) := by
  rw [childName?_eq_some, below_join h, ← String.toList_inj, toList_join_concat, List.append_assoc]
  rfl

theorem descend_cons :
    descend (spell a) (s :: b) = join (a ++ [s]) :: descend (spell (a ++ [s])) b := by
  rw [descend, spell_append, spell_singleton]
  refine congrArg (· :: _) (String.ext ?_)
  rw [toList_join_concat, String.toList_ofList]

theorem mem_descend (h : path ∈ descend (spell a) b) :
    ∃ p, p <+: a ++ b ∧ p ≠ [] ∧ path = join p := by
  induction b generalizing a
  case nil => cases h
  case cons s b ih =>
    have hb : a ++ s :: b = a ++ [s] ++ b := List.append_cons ..
    rw [descend_cons, List.mem_cons] at h
    rw [hb]
    rcases h with rfl | h
    case inl => exact ⟨a ++ [s], List.prefix_append .., List.concat_ne_nil _ _, rfl⟩
    case inr => exact ih h

-- Induction on the segments that are still to come, the first of which the prefix has in common.
theorem mem_descend_of_prefix {p : List (List Char)} (hp : p <+: b) (hn : p ≠ []) :
    join (a ++ p) ∈ descend (spell a) b := by
  induction b generalizing a p
  case nil => exact absurd (List.prefix_nil.mp hp) hn
  case cons s b ih =>
    rw [descend_cons]
    obtain ⟨rest, rfl, hq⟩ := (List.prefix_cons_iff.mp hp).resolve_left hn
    by_cases hr : rest = []
    case pos => rw [hr]; exact List.mem_cons_self
    case neg => rw [List.append_cons a s rest]; exact List.mem_cons_of_mem _ (ih hq hr)

-- The steps to a path are what its segments lead to, one after the other.
theorem mem_steps : key ∈ steps path ↔ ∃ p, p <+: segments path ∧ p ≠ [] ∧ key = join p := by
  constructor
  case mp  => exact mem_descend (a := [])
  case mpr =>
    rintro ⟨p, hp, hn, rfl⟩
    exact mem_descend_of_prefix (a := []) hp hn

theorem steps_join (h : Proper segs) : steps (join segs) = descend [] segs :=
  congrArg (descend []) (segments_join h)

theorem length_le_of_mem_steps (h : key ∈ steps path) :
    key.toList.length ≤ path.toList.length + 1 := by
  obtain ⟨p, ⟨rest, hp⟩, hn, rfl⟩ := mem_descend (a := []) h
  have hl : (spell (segments path)).length ≤ _ := length_spell_segments
  have hs : segments path = p ++ rest := hp.symm
  rw [hs, spell_append, List.length_append] at hl
  rw [toList_join hn]
  omega

end Path
end Coordination
