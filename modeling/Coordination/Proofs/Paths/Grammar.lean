import Coordination.Proofs.Paths.Segments

namespace Coordination

namespace Text

variable {separator : Char} {a b cs piece : List Char} {ps : List (List Char)}

-- No blank stands at either end.
structure IsTrimmed (cs : List Char) : Prop where
  first : ∀ c ∈ cs.head?, ¬isBlank c
  last  : ∀ c ∈ cs.getLast?, ¬isBlank c

theorem not_isBlank_of_mem_head?_dropWhile (cs : List Char) :
    ∀ c ∈ (cs.dropWhile isBlank).head?, ¬isBlank c := by
  intro c h
  have hd := cs.head?_dropWhile_not isBlank
  rw [Option.mem_def.mp h] at hd
  simpa using hd

theorem trimEnd_append (cs : List Char) :
    ∃ after, (∀ c ∈ after, isBlank c) ∧ trimEnd cs ++ after = cs := by
  refine ⟨(cs.reverse.takeWhile isBlank).reverse, fun c h => ?_, ?_⟩
  case refine_1 => exact List.all_eq_true.mp List.all_takeWhile c (List.mem_reverse.mp h)
  case refine_2 =>
    rw [trimEnd, ← List.reverse_append, List.takeWhile_append_dropWhile, List.reverse_reverse]

theorem append_trimChars_append (cs : List Char) :
    ∃ before after, (∀ c ∈ before ++ after, isBlank c) ∧ before ++ trimChars cs ++ after = cs := by
  have ⟨after, ha, he⟩ := trimEnd_append (cs.dropWhile isBlank)
  refine ⟨cs.takeWhile isBlank, after, fun c h => ?_, ?_⟩
  case refine_1 =>
    rcases List.mem_append.mp h with h | h
    case inl => exact List.all_eq_true.mp List.all_takeWhile c h
    case inr => exact ha c h
  case refine_2 => rw [trimChars, List.append_assoc, he, List.takeWhile_append_dropWhile]

theorem isTrimmed_trimChars (cs : List Char) : IsTrimmed (trimChars cs) where
  first c h := by
    have ⟨after, _, he⟩ := trimEnd_append (cs.dropWhile isBlank)
    refine not_isBlank_of_mem_head?_dropWhile cs c ?_
    rw [← he, List.head?_append, Option.mem_def]
    rw [trimChars, Option.mem_def] at h
    rw [h, Option.some_or]
  last c h := by
    rw [trimChars, trimEnd, List.getLast?_reverse] at h
    exact not_isBlank_of_mem_head?_dropWhile _ c h

theorem dropWhile_eq_self (h : ∀ c ∈ cs.head?, ¬isBlank c) : cs.dropWhile isBlank = cs := by
  cases cs
  case nil  => rfl
  case cons => exact List.dropWhile_cons_of_neg <| h _ rfl

theorem IsTrimmed.trimChars_eq (h : IsTrimmed cs) : trimChars cs = cs := by
  have hl : ∀ c ∈ cs.reverse.head?, ¬isBlank c := by rw [List.head?_reverse]; exact h.last
  rw [trimChars, dropWhile_eq_self h.first, trimEnd, dropWhile_eq_self hl, List.reverse_reverse]

theorem IsTrimmed.append (ha : IsTrimmed a) (hb : IsTrimmed b) : IsTrimmed (a ++ b) where
  first c h := by
    rw [List.head?_append, Option.mem_def] at h
    rcases Option.or_eq_some_iff.mp h with h | ⟨_, h⟩
    case inl => exact ha.first c h
    case inr => exact hb.first c h
  last c h := by
    rw [List.getLast?_append, Option.mem_def] at h
    rcases Option.or_eq_some_iff.mp h with h | ⟨_, h⟩
    case inl => exact hb.last c h
    case inr => exact ha.last c h

-- Only of blanks nothing is left.
theorem trimChars_ne_nil : trimChars cs ≠ [] ↔ ∃ c ∈ cs, ¬isBlank c := by
  have ⟨before, after, hb, he⟩ := append_trimChars_append cs
  constructor
  case mp =>
    intro h
    rcases hc : trimChars cs with _ | ⟨c, rest⟩
    case nil => exact absurd hc h
    case cons =>
      refine ⟨c, ?_, (isTrimmed_trimChars cs).first c (by rw [hc]; rfl)⟩
      rw [← he, hc]
      simp
  case mpr =>
    rintro ⟨c, hc, hn⟩ h
    rw [← he, h, List.append_nil] at hc
    exact hn (hb c hc)

theorem mem_of_mem_trimChars {c : Char} (h : c ∈ trimChars cs) : c ∈ cs := by
  have ⟨before, after, _, he⟩ := append_trimChars_append cs
  rw [← he]
  simp [h]

theorem intercalate_cons (h : ps ≠ []) :
    [separator].intercalate (piece :: ps) = piece ++ separator :: [separator].intercalate ps := by
  cases ps
  case nil  => exact absurd rfl h
  case cons => rw [List.intercalate_cons_cons, List.append_assoc, List.singleton_append]

theorem intercalate_cons_cons {c : Char} :
    [separator].intercalate ((c :: piece) :: ps) = c :: [separator].intercalate (piece :: ps) := by
  by_cases h : ps = []
  case pos => subst h; rw [List.intercalate_singleton, List.intercalate_singleton]
  case neg => rw [intercalate_cons h, intercalate_cons h]; rfl

-- Between the separators of a text stand its pieces.
theorem intercalate_pieces (cs : List Char) :
    [separator].intercalate (pieces separator cs) = cs := by
  induction cs
  case nil => rfl
  case cons c cs ih =>
    rcases h : pieces separator cs with _ | ⟨piece, others⟩
    case nil => exact absurd h (pieces_ne_nil separator cs)
    case cons =>
      simp only [pieces, h] at ih ⊢
      split
      case isTrue hc => rw [intercalate_cons (by simp), ih, hc]; rfl
      case isFalse   => rw [intercalate_cons_cons, ih]

theorem pieces_eq_splitOn (cs : List Char) : pieces separator cs = cs.splitOn separator := by
  have h := List.splitOn_intercalate separator (fun piece hp => not_mem_of_mem_pieces hp)
    (pieces_ne_nil separator cs)
  rw [← h, intercalate_pieces]

theorem mem_intercalate {c : Char} (hc : c ≠ separator) :
    c ∈ [separator].intercalate ps ↔ ∃ piece ∈ ps, c ∈ piece := by
  induction ps
  case nil => simp
  case cons piece ps ih =>
    by_cases h : ps = []
    case pos => simp [h]
    case neg => simp [intercalate_cons h, hc, ih]

-- A character of a piece is one of the text, and no separator.
theorem mem_of_mem_splitOn {c : Char} (h : piece ∈ cs.splitOn separator) (hc : c ∈ piece) :
    c ≠ separator ∧ c ∈ cs := by
  rw [← pieces_eq_splitOn] at h
  have hs : c ≠ separator := fun he => not_mem_of_mem_pieces h (he ▸ hc)
  refine ⟨hs, ?_⟩
  have he : [separator].intercalate (pieces separator cs) = cs := intercalate_pieces cs
  rw [← he]
  exact mem_intercalate hs |>.mpr ⟨piece, h, hc⟩

theorem isTrimmed_intercalate (hs : ¬isBlank separator) (h : ∀ piece ∈ ps, IsTrimmed piece) :
    IsTrimmed ([separator].intercalate ps) := by
  have hs : IsTrimmed [separator] := ⟨by simpa using hs, by simpa using hs⟩
  induction ps
  case nil => exact ⟨nofun, nofun⟩
  case cons piece ps ih =>
    have hp := h piece List.mem_cons_self
    have ih := ih fun p hp => h p (List.mem_cons_of_mem _ hp)
    by_cases h : ps = []
    case pos => subst h; rwa [List.intercalate_singleton]
    case neg => rw [intercalate_cons h]; exact hp.append (hs.append ih)

end Text

theorem Path.IsRoot.two_le_length {root : String} (h : IsRoot root) : 2 ≤ root.length := by
  have ⟨rest, hr⟩ := h.absolute.cons
  rcases rest with _ | ⟨c, rest⟩
  case nil  => exact absurd (by rw [hr]; rfl) h.noTrail
  case cons => rw [← String.length_toList, hr]; exact Nat.le_add_left 2 _

namespace Target

open Coordination.Path

variable {target : Target} {text : String} {cs : List Char} {hosts : List String}

def names (cs : List Char) : List (List Char) :=
  (cs.takeWhile (· ≠ '/')).splitOn ','

def path (cs : List Char) : List Char :=
  cs.dropWhile (· ≠ '/')

-- A text without blanks around it that is a target.
structure Accepted (cs : List Char) : Prop where
  filled  : cs ≠ []
  noTrail : cs.getLast? ≠ some '/'
  named   : ∀ name ∈ names cs, ∃ c ∈ name, ¬Text.isBlank c

def reading (cs : List Char) : Target where
  raw    := String.ofList cs
  hosts  := (names cs).map fun name => Text.trim (String.ofList name)
  chroot := if path cs = [] then none else some (String.ofList (path cs))

theorem hosts?_eq_some :
    hosts? cs = some hosts ↔ (∀ name ∈ cs.splitOn ',', ∃ c ∈ name, ¬Text.isBlank c) ∧
      (cs.splitOn ',').map (fun name => Text.trim (String.ofList name)) = hosts := by
  have hb : ((Text.pieces ',' cs).map Text.trimChars).any List.isEmpty = false ↔
      ∀ name ∈ cs.splitOn ',', ∃ c ∈ name, ¬Text.isBlank c := by
    simp only [← Text.trimChars_ne_nil, Text.pieces_eq_splitOn]
    simp
  have hh : ((Text.pieces ',' cs).map Text.trimChars).map String.ofList =
      (cs.splitOn ',').map fun name => Text.trim (String.ofList name) := by
    simp [Text.pieces_eq_splitOn, Text.trim]
  rw [← hb, ← hh, hosts?]
  cases ((Text.pieces ',' cs).map Text.trimChars).any List.isEmpty <;> simp

theorem parse_eq_ok :
    parse text = .ok target ↔
      Accepted (Text.trimChars text.toList) ∧ reading (Text.trimChars text.toList) = target := by
  rw [parse]
  generalize Text.trimChars text.toList = cs
  by_cases hf : cs = []
  case pos => exact iff_of_false (by simp [hf]) fun h => h.left.filled hf
  by_cases ht : cs.getLast? = some '/'
  case pos => exact iff_of_false (by simp [hf, ht]) fun h => h.left.noTrail ht
  simp only [List.isEmpty_iff, hf, ht, if_false]
  cases hh : hosts? (cs.takeWhile (· ≠ '/'))
  case none =>
    refine iff_of_false (by simp) fun h => ?_
    rw [hosts?_eq_some.mpr ⟨h.left.named, rfl⟩] at hh
    cases hh
  case some hosts =>
    obtain ⟨hn, rfl⟩ := hosts?_eq_some.mp hh
    have accepted : Accepted cs := ⟨hf, ht, hn⟩
    simp only [accepted, true_and]
    exact ⟨fun h => by cases h; rfl, fun h => by rw [← h]; rfl⟩

theorem accepted_iff :
    (∃ target, parse text = .ok target) ↔ Accepted (Text.trimChars text.toList) := by
  simp [parse_eq_ok]

-- The parts of a target.
structure Proper (target : Target) : Prop where
  named  : target.hosts ≠ []
  host   : ∀ host ∈ target.hosts,
    host ≠ "" ∧ ',' ∉ host.toList ∧ '/' ∉ host.toList ∧ Text.IsTrimmed host.toList
  chroot : ∀ root ∈ target.chroot, IsRoot root ∧ Text.IsTrimmed root.toList

theorem proper_host {name : List Char} (ha : Accepted cs) (h : name ∈ names cs) :
    let host := Text.trim (String.ofList name)
    host ≠ "" ∧ ',' ∉ host.toList ∧ '/' ∉ host.toList ∧ Text.IsTrimmed host.toList := by
  intro host
  have hh : host.toList = Text.trimChars name := by simp [host, Text.trim]
  have hm {c : Char} (hc : c ∈ host.toList) : c ≠ ',' ∧ c ∈ cs.takeWhile (· ≠ '/') := by
    rw [hh] at hc
    exact Text.mem_of_mem_splitOn h <| Text.mem_of_mem_trimChars hc
  refine ⟨fun he => ?_, fun hc => (hm hc).left rfl, fun hc => ?_, ?_⟩
  case refine_1 =>
    refine Text.trimChars_ne_nil.mpr (ha.named name h) ?_
    rw [← hh, he]
    rfl
  case refine_2 => simpa using List.all_eq_true.mp List.all_takeWhile _ (hm hc).right
  case refine_3 => exact hh ▸ Text.isTrimmed_trimChars name

theorem isTrimmed_path (h : Text.IsTrimmed cs) : Text.IsTrimmed (path cs) where
  first c hc := by
    have hs := cs.head?_dropWhile_not (· ≠ '/')
    rw [path, Option.mem_def] at hc
    rw [hc] at hs
    have hs : c = '/' := by simpa using hs
    subst hs
    decide
  last c hc := by
    refine h.last c ?_
    rw [← cs.takeWhile_append_dropWhile (p := (· ≠ '/')), List.getLast?_append, Option.mem_def]
    rw [path, Option.mem_def] at hc
    rw [hc, Option.some_or]

theorem proper_of_parse (h : parse text = .ok target) : target.Proper := by
  have root {root : String} (hr : root ∈ target.chroot) : IsRoot root := isRoot_of_parse h hr
  obtain ⟨ha, rfl⟩ := parse_eq_ok.mp h
  constructor
  case named => simp [reading, names, List.splitOn_ne_nil]
  case host =>
    intro host hh
    obtain ⟨name, hn, rfl⟩ := List.mem_map.mp hh
    exact proper_host ha hn
  case chroot =>
    intro r hr
    refine ⟨root hr, ?_⟩
    have ⟨_, hr⟩ := Option.ite_none_left_eq_some.mp hr
    rw [← Option.some.inj hr, String.toList_ofList]
    exact isTrimmed_path <| Text.isTrimmed_trimChars _

def spelled (target : Target) : String :=
  ",".intercalate target.hosts ++ target.chroot.getD ""

def tail (target : Target) : List Char :=
  (target.chroot.getD "").toList

theorem toList_spelled :
    target.spelled.toList = [','].intercalate (target.hosts.map String.toList) ++ target.tail := by
  simp [spelled, tail]

theorem tail_of_none (h : target.chroot = none) : target.tail = [] := by
  rw [tail, h]
  rfl

theorem tail_of_some {root : String} (h : target.chroot = some root) :
    target.tail = root.toList := by
  rw [tail, h]
  rfl

namespace Proper

-- No host has a slash, and a chroot begins with one.
theorem divide (h : target.Proper) :
    target.spelled.toList.takeWhile (· ≠ '/') =
        [','].intercalate (target.hosts.map String.toList) ∧
      path target.spelled.toList = target.tail := by
  have hs : ∀ c ∈ [','].intercalate (target.hosts.map String.toList), decide (c ≠ '/') := by
    intro c hc
    refine decide_eq_true fun he => ?_
    subst he
    obtain ⟨piece, hp, hc⟩ := Text.mem_intercalate (by decide) |>.mp hc
    obtain ⟨host, hh, rfl⟩ := List.mem_map.mp hp
    exact (h.host host hh).right.right.left hc
  rw [path, toList_spelled, List.takeWhile_append_of_pos hs, List.dropWhile_append_of_pos hs]
  cases hc : target.chroot
  case none => simp [tail_of_none hc]
  case some root =>
    have ⟨rest, hr⟩ := (h.chroot root hc).left.absolute.cons
    simp [tail_of_some hc, hr]

theorem names_spelled (h : target.Proper) :
    names target.spelled.toList = target.hosts.map String.toList := by
  rw [names, h.divide.left]
  refine List.splitOn_intercalate ',' (fun piece hp => ?_) (by simpa using h.named)
  obtain ⟨host, hh, rfl⟩ := List.mem_map.mp hp
  exact (h.host host hh).right.left

theorem trim_host (h : target.Proper) {host : String} (hh : host ∈ target.hosts) :
    Text.trim (String.ofList host.toList) = host := by
  have ⟨_, _, _, ht⟩ := h.host host hh
  rw [Text.trim, String.toList_ofList, ht.trimChars_eq, String.ofList_toList]

theorem reading_spelled (h : target.Proper) :
    reading target.spelled.toList = { target with raw := target.spelled } := by
  have hh : (target.hosts.map String.toList).map (fun name => Text.trim (String.ofList name)) =
      target.hosts := by
    rw [List.map_map]
    exact List.map_congr_left (fun _ => h.trim_host) |>.trans (List.map_id _)
  have hc : (if target.tail = [] then none else some (String.ofList target.tail)) =
      target.chroot := by
    cases hc : target.chroot
    case none => rw [tail_of_none hc]; rfl
    case some root =>
      have ⟨rest, hr⟩ := (h.chroot root hc).left.absolute.cons
      rw [tail_of_some hc, if_neg (by simp [hr]), String.ofList_toList]
  rw [reading, h.names_spelled, h.divide.right, hh, hc, String.ofList_toList]

theorem isTrimmed_spelled (h : target.Proper) : Text.IsTrimmed target.spelled.toList := by
  have ht : Text.IsTrimmed target.tail := by
    cases hc : target.chroot
    case none      => rw [tail_of_none hc]; exact ⟨nofun, nofun⟩
    case some root => rw [tail_of_some hc]; exact (h.chroot root hc).right
  rw [toList_spelled]
  refine (Text.isTrimmed_intercalate (by decide) fun piece hp => ?_).append ht
  obtain ⟨host, hh, rfl⟩ := List.mem_map.mp hp
  exact (h.host host hh).right.right.right

theorem accepted_spelled (h : target.Proper) : Accepted target.spelled.toList := by
  constructor
  case filled =>
    intro he
    have hn : [] ∈ target.hosts.map String.toList := by
      rw [← h.names_spelled, he]
      exact List.mem_singleton_self []
    obtain ⟨host, hh, he⟩ := List.mem_map.mp hn
    exact (h.host host hh).left (String.ext he)
  case noTrail =>
    intro hl
    cases hc : target.chroot
    case none =>
      have hs := List.mem_of_getLast? hl
      rw [toList_spelled, tail_of_none hc, List.append_nil, ← h.divide.left] at hs
      simpa using List.all_eq_true.mp List.all_takeWhile _ hs
    case some root =>
      have hr := (h.chroot root hc).left
      rw [toList_spelled, tail_of_some hc, List.getLast?_append] at hl
      rcases Option.or_eq_some_iff.mp hl with hl | ⟨hn, _⟩
      case inl => exact hr.noTrail hl
      case inr =>
        have ⟨rest, he⟩ := hr.absolute.cons
        simp [he] at hn
  case named =>
    intro name hn
    rw [h.names_spelled] at hn
    obtain ⟨host, hh, rfl⟩ := List.mem_map.mp hn
    have ⟨hne, _, _, ht⟩ := h.host host hh
    refine Text.trimChars_ne_nil.mp fun he => hne (String.ext ?_)
    rw [← ht.trimChars_eq, he]
    rfl

theorem parse_spelled (h : target.Proper) :
    parse target.spelled = .ok { target with raw := target.spelled } := by
  rw [parse_eq_ok, h.isTrimmed_spelled.trimChars_eq]
  exact ⟨h.accepted_spelled, h.reading_spelled⟩

end Proper

theorem parse_raw (h : parse text = .ok target) : parse target.raw = .ok target := by
  obtain ⟨ha, rfl⟩ := parse_eq_ok.mp h
  have ht := Text.isTrimmed_trimChars text.toList
  rw [reading, parse_eq_ok, String.toList_ofList, ht.trimChars_eq]
  exact ⟨ha, rfl⟩

-- A text is a target if, without the blanks around it, it is not empty, does not end with a slash,
-- and names a host between any two commas in front of its first slash.
theorem parse_exact (text : String) :
    let t := Text.trim text
    let names := (t.toList.takeWhile (· ≠ '/')).splitOn ','
    let path := t.toList.dropWhile (· ≠ '/')
    (Text.IsTrimmed t.toList ∧ ∃ before after, (∀ c ∈ before ++ after, Text.isBlank c) ∧
      before ++ t.toList ++ after = text.toList) ∧
    ((∃ target, parse text = .ok target) ↔ t ≠ "" ∧ t.toList.getLast? ≠ some '/' ∧
      ∀ name ∈ names, ∃ c ∈ name, ¬Text.isBlank c) ∧
    ∀ target, parse text = .ok target →
      target = ⟨t, names.map fun name => Text.trim (String.ofList name),
        if path = [] then none else some (String.ofList path)⟩ ∧
      parse target.raw = .ok target ∧
      parse target.spelled = .ok { target with raw := target.spelled } ∧
      (∀ host ∈ target.hosts, host ≠ "" ∧ ',' ∉ host.toList ∧ '/' ∉ host.toList ∧
        Text.IsTrimmed host.toList) ∧
      ∀ root ∈ target.chroot, root.toList.head? = some '/' ∧ root.toList.getLast? ≠ some '/' ∧
        2 ≤ root.length := by
  intro t names path
  have ht : Text.trimChars text.toList = t.toList := String.toList_ofList.symm
  refine ⟨?_, ?_, ?_⟩
  case refine_1 =>
    rw [← ht]
    exact ⟨Text.isTrimmed_trimChars _, Text.append_trimChars_append _⟩
  case refine_2 =>
    rw [accepted_iff, ht]
    constructor
    case mp  => exact fun ⟨hf, hl, hn⟩ => ⟨fun he => hf (by rw [he]; rfl), hl, hn⟩
    case mpr => exact fun ⟨hf, hl, hn⟩ => ⟨fun he => hf (String.ext he), hl, hn⟩
  case refine_3 =>
    intro target h
    have hp := proper_of_parse h
    have root {root : String} (hr : root ∈ target.chroot) : IsRoot root := (hp.chroot _ hr).left
    have hr := (parse_eq_ok.mp h).right
    rw [ht, reading, String.ofList_toList] at hr
    exact ⟨hr.symm, parse_raw h, hp.parse_spelled, hp.host, fun r hr =>
      ⟨(root hr).absolute, (root hr).noTrail, (root hr).two_le_length⟩⟩

theorem parse_exact_spaced :
    let target : Target := ⟨"a , b:1/c d", ["a", "b:1"], some "/c d"⟩
    parse "\t a , b:1/c d\u2003" = .ok target ∧
      parse "a , b:1/c d" = .ok target ∧
      parse "a,b:1/c d" = .ok { target with raw := "a,b:1/c d" } := by
  intro target
  have h : parse "\t a , b:1/c d\u2003" = .ok target := rfl
  have ⟨_, _, exact⟩ := parse_exact "\t a , b:1/c d\u2003"
  have ⟨_, raw, spelled, _⟩ := exact target h
  exact ⟨h, raw, spelled⟩

end Target
end Coordination
