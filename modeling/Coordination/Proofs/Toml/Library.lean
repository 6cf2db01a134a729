import Coordination.Config.Load
import Coordination.Proofs.Config.Lawful
import Coordination.Proofs.Paths.Chroot

namespace Coordination

namespace SettingPath

variable {key : String} {c : Char} {cs : List Char} {fuel : Nat}

theorem steps?_cons_eq_none (hd : c ≠ '.') (hb : c ≠ '[') : steps? fuel (c :: cs) = none := by
  cases fuel <;> simp [steps?, hd, hb]

theorem ofKey_of_unmarked (hd : '.' ∉ key.toList) (hb : '[' ∉ key.toList) :
    ofKey key = ⟨key, []⟩ := by
  unfold ofKey
  simp only
  split
  case h_2 => rfl
  case h_1 steps hs =>
    split
    case isTrue => rfl
    case isFalse =>
      rcases hr : key.toList.dropWhile isNameChar with _ | ⟨c, rest⟩
      case nil =>
        have ha := key.toList.takeWhile_append_dropWhile (p := isNameChar)
        rw [hr, List.append_nil] at ha
        rw [hr, steps?] at hs
        cases hs
        rw [ha, String.ofList_toList]
      case cons =>
        have hc : c ∈ key.toList := List.dropWhile_subset _ (hr ▸ List.mem_cons_self)
        have hn : steps? key.toList.length (c :: rest) = none :=
          steps?_cons_eq_none (fun h => hd (h ▸ hc)) fun h => hb (h ▸ hc)
        rw [hr, hn] at hs
        cases hs

end SettingPath

open SettingsLibrary

namespace Settings

variable {key : String} {v : Setting} {s : Settings}

theorem put_of_new (h : key ∉ s.map Prod.fst) : put key v s = s ++ [(key, v)] := by
  induction s
  case nil => rfl
  case cons e s ih =>
    obtain ⟨k, w⟩ := e
    rw [List.map_cons, List.mem_cons, not_or] at h
    rw [put, if_neg (Ne.symm h.left), ih h.right, List.cons_append]

-- What entries that lead to a key make of what stands there.
def laid (layer : Settings) (below : Option Setting) : Option Setting :=
  layer.foldl (fun below e => some (e.2.atEnd (SettingPath.ofKey e.1).steps below)) below

theorem get?_onto (layer : Settings) :
    (onto layer s).get? key = laid (leading key layer) (s.get? key) := by
  induction layer generalizing s
  case nil => rfl
  case cons e layer ih =>
    obtain ⟨name, v⟩ := e
    rw [onto_cons, ih, lay, get?_put]
    by_cases h : Text.lower (SettingPath.ofKey name).head = key
    case pos =>
      rw [if_pos h.symm, leading_cons_of_eq h, h]
      rfl
    case neg => rw [if_neg (Ne.symm h), leading_cons_of_ne h]

end Settings

namespace Setting

variable {b b' v : Setting} {es under : Settings}

namespace IsSingle

theorem entries_eq (h : b.IsSingle) : Setting.entries (some b) = [] := by
  cases b
  case table => cases h
  all_goals rfl

theorem items_eq (h : b.IsSingle) : Setting.items (some b) = [] := by
  cases b
  case list => cases h
  all_goals rfl

end IsSingle

theorem onto_eq_self (h : ∀ es, v ≠ table es) (below : Option Setting) : v.onto below = v := by
  cases v
  case table es => exact absurd rfl (h es)
  all_goals rfl

theorem ontoAll_cons_congr {key : String} (hb : Setting.entries (some b) = [])
    (hb' : Setting.entries (some b') = []) :
    ontoAll ((key, v) :: es) b = ontoAll ((key, v) :: es) b' := by
  simp only [ontoAll, hb, hb']

-- A table brings its keys, in small letters, to a table that has none of them.
theorem ontoAll_keys (hd : Distinct es)
    (hu : ∀ e ∈ es, Text.lower e.1 ∉ under.map Prod.fst) :
    ∃ ts, ontoAll es (table under) = table ts ∧
      ts.map Prod.fst = under.map Prod.fst ++ es.map fun e => Text.lower e.1 := by
  induction es generalizing under
  case nil => exact ⟨under, rfl, by simp⟩
  case cons e es ih =>
    obtain ⟨key, v⟩ := e
    have hk : Text.lower key ∉ under.map Prod.fst := hu (key, v) List.mem_cons_self
    simp only [ontoAll, Setting.entries]
    rw [Settings.put_of_new hk]
    generalize v.onto _ = w
    have hu : ∀ e ∈ es, Text.lower e.1 ∉ (under ++ [(Text.lower key, w)]).map Prod.fst := by
      intro e he
      rw [List.map_append, List.mem_append, not_or]
      exact ⟨hu e (List.mem_cons_of_mem _ he), by simpa using hd.ne he⟩
    obtain ⟨ts, he, hts⟩ := ih hd.tail hu
    exact ⟨ts, he, by rw [hts]; simp⟩

theorem onto_keys (hb : b.IsSingle) (hn : es ≠ []) (hd : Distinct es) :
    ∃ ts, (table es).onto (some b) = table ts ∧
      ts.map Prod.fst = es.map fun e => Text.lower e.1 := by
  rcases es with _ | ⟨⟨key, v⟩, es⟩
  case nil => exact absurd rfl hn
  case cons =>
    simp only [onto, Option.getD_some]
    rw [ontoAll_cons_congr hb.entries_eq (rfl : Setting.entries (some (table [])) = [])]
    exact ontoAll_keys hd fun e _ => List.not_mem_nil

theorem variant?_table (words : List String) (es : Settings) :
    variant? words (table es) =
      match es.map Prod.fst with
      | [key] => wordOf? words key
      | _ => none := by
  rcases es with _ | ⟨e, _ | ⟨e', es⟩⟩ <;> rfl

theorem wordOf?_lower (words : List String) (s : String) :
    wordOf? words (Text.lower s) = wordOf? words s := by
  rw [wordOf?, wordOf?, Text.lower_lower]

theorem alike_onto (hb : b.IsSingle) (hn : es ≠ []) (hd : Distinct es) :
    Alike ((table es).onto (some b)) (table es) := by
  have ⟨ts, ht, hk⟩ := onto_keys hb hn hd
  rw [ht]
  refine ⟨rfl, fun words => ?_, rfl⟩
  change variant? words (table ts) = variant? words (table es)
  simp only [variant?_table, hk]
  rcases es with _ | ⟨e, _ | ⟨e', es⟩⟩
  case cons.nil => exact wordOf?_lower words e.1
  all_goals rfl

-- Only an empty table leaves a single value as it is; everything else leaves nothing of it.
theorem atEnd_single (v : Setting) (steps : List PathStep) :
    (∀ b, v.atEnd steps (some b) = b) ∨
      ∀ b b', b.IsSingle → b'.IsSingle → v.atEnd steps (some b) = v.atEnd steps (some b') := by
  rcases steps with _ | ⟨_ | _, steps⟩
  case nil =>
    cases v
    case table es =>
      rcases es with _ | ⟨⟨key, v⟩, es⟩
      case nil  => exact .inl fun _ => rfl
      case cons =>
        refine .inr fun b b' hb hb' => ?_
        simp only [atEnd, onto, Option.getD_some]
        exact ontoAll_cons_congr hb.entries_eq hb'.entries_eq
    all_goals exact .inr fun _ _ _ _ => rfl
  all_goals
    refine .inr fun b b' hb hb' => ?_
    simp only [atEnd, hb.entries_eq, hb'.entries_eq, hb.items_eq, hb'.items_eq]

end Setting

theorem Settings.laid_single (e : String × Setting) :
    (∀ b, laid [e] (some b) = some b) ∨
      ∀ b b', b.IsSingle → b'.IsSingle → laid [e] (some b) = laid [e] (some b') :=
  (e.2.atEnd_single (SettingPath.ofKey e.1).steps).imp
    (fun h b => congrArg some (h b)) fun h b b' hb hb' => congrArg some (h b b' hb hb')

namespace Environment

variable {style : VariableStyle} {separator cs : List Char} {name value key : String} {v : Setting}

theorem points_eq_self (h : '.' ∉ points separator 0 cs) : points separator 0 cs = cs := by
  induction cs
  case nil => rfl
  case cons c cs ih =>
    rw [points] at h ⊢
    split at h
    case isTrue => simp at h
    case isFalse hs =>
      rw [List.mem_cons, not_or] at h
      rw [if_neg hs, ih h.right]

theorem points_of_absent (h : ¬separator <:+: cs) : points separator 0 cs = cs := by
  induction cs
  case nil => rfl
  case cons c cs ih =>
    have hs : ¬separator.isPrefixOf (c :: cs) := fun hs =>
      h (List.isPrefixOf_iff_prefix.mp hs).isInfix
    rw [points, if_neg (by simp [hs]), ih fun hi => h (hi.trans (List.suffix_cons c cs).isInfix)]

theorem key?_eq_some : key? style name = some key ↔ ∃ cs,
    (Text.lower name).toList = (Text.lower (style.lead ++ style.separator)).toList ++ cs ∧
      String.ofList (points style.separator.toList 0 cs) = key := by
  simp only [key?, Option.map_eq_some_iff, Target.dropLeading_eq_some]

theorem key?_iff (hk : IsKey key) (hs : ¬style.separator.toList <:+: key.toList) :
    key? style name = some key ↔
      Text.lower name = Text.lower (style.lead ++ style.separator) ++ key := by
  rw [key?_eq_some]
  constructor
  case mp =>
    rintro ⟨cs, hn, rfl⟩
    have hp : points style.separator.toList 0 cs = cs := by
      refine points_eq_self fun hc => ?_
      exact (hk.unmarked hk.lower_eq).left (by rwa [String.toList_ofList])
    exact String.ext (by rw [hn, String.toList_append, String.toList_ofList, hp])
  case mpr =>
    intro h
    exact ⟨key.toList, by rw [h, String.toList_append], by
      rw [points_of_absent hs, String.ofList_toList]⟩

theorem mem_points {c : Char} {skip : Nat} (h : c ∈ points separator skip cs) :
    c = '.' ∨ c ∈ cs := by
  induction cs generalizing skip
  case nil => cases skip <;> cases h
  case cons d cs ih =>
    cases skip
    case succ => exact (ih h).imp_right (List.mem_cons_of_mem d)
    case zero =>
      rw [points] at h
      split at h
      all_goals
        rcases List.mem_cons.mp h with rfl | h
        case inl => simp
        case inr => exact (ih h).imp_right (List.mem_cons_of_mem d)

theorem lower_of_key? (h : key? style name = some key) : Text.lower key = key := by
  obtain ⟨cs, hn, rfl⟩ := key?_eq_some.mp h
  refine String.ext ?_
  rw [Text.toList_lower, String.toList_ofList]
  refine (List.map_congr_left fun c hc => ?_).trans (List.map_id _)
  rcases mem_points hc with rfl | hc
  case inl => rfl
  case inr =>
    -- What is left of a name in small letters is in small letters.
    have hc : c ∈ (Text.lower name).toList := hn ▸ List.mem_append_right _ hc
    rw [Text.toList_lower] at hc
    obtain ⟨d, _, rfl⟩ := List.mem_map.mp hc
    exact Text.lowerChar_lowerChar d

theorem setting_ne_table (value : String) (es : Settings) : setting value ≠ .table es := by
  unfold setting
  simp only
  split
  case isTrue => nofun
  case isFalse =>
    split
    case isTrue => nofun
    case isFalse =>
      split
      case h_1 n h =>
        have ⟨_, _, hn⟩ := Option.bind_eq_some_iff.mp h
        cases (Option.ite_none_right_eq_some.mp hn).right
        nofun
      case h_2 => split <;> nofun

theorem entry_eq_some {e : String × String} : entry style e = some (key, v) ↔
    (style.ignoresEmpty → e.2 ≠ "") ∧ key? style e.1 = some key ∧
      (if style.parses then setting e.2 else .text e.2) = v := by
  unfold entry
  by_cases h : style.ignoresEmpty && e.2.isEmpty
  case pos =>
    rw [if_pos h]
    rw [Bool.and_eq_true, String.isEmpty_iff] at h
    exact iff_of_false nofun fun hn => hn.left h.left h.right
  case neg =>
    have hv : style.ignoresEmpty = true → e.2 ≠ "" := fun hi he => h (by simp [hi, he])
    rw [if_neg h, Option.map_eq_some_iff]
    constructor
    case mp =>
      rintro ⟨_, hk, he⟩
      cases he
      exact ⟨hv, hk, rfl⟩
    case mpr =>
      rintro ⟨_, hk, rfl⟩
      exact ⟨key, hk, rfl⟩

variable {p : String → Bool} {es s : Settings}

theorem filter_put_of_neg (h : p key = false) :
    (s.put key v).filter (fun e => p e.1) = s.filter fun e => p e.1 := by
  induction s
  case nil => simp [Settings.put, h]
  case cons e s ih =>
    obtain ⟨k, w⟩ := e
    rw [Settings.put]
    split
    case isTrue hk =>
      rw [hk, List.filter_cons_of_neg (by simp [h]), List.filter_cons_of_neg (by simp [h])]
    case isFalse => rw [List.filter_cons, List.filter_cons, ih]

-- If there is only one entry of a kind, it is not replaced by another.
theorem filter_puts
    (h : (s.filter fun e => p e.1).length + (es.filter fun e => p e.1).length ≤ 1) :
    (es.foldl (fun s e => s.put e.1 e.2) s).filter (fun e => p e.1) =
      s.filter (fun e => p e.1) ++ es.filter fun e => p e.1 := by
  induction es generalizing s
  case nil => simp
  case cons e es ih =>
    obtain ⟨k, w⟩ := e
    rw [List.foldl_cons]
    by_cases hp : p k
    case neg =>
      have hp : p k = false := by simpa using hp
      rw [List.filter_cons_of_neg (by simp [hp])] at h ⊢
      rw [ih (by rwa [filter_put_of_neg hp]), filter_put_of_neg hp]
    case pos =>
      rw [List.filter_cons_of_pos (by simpa using hp)] at h ⊢
      have hs : s.filter (fun e => p e.1) = [] :=
        List.length_eq_zero_iff.mp (by rw [List.length_cons] at h; omega)
      have hn : k ∉ s.map Prod.fst := by
        intro hk
        obtain ⟨e, he, rfl⟩ := List.mem_map.mp hk
        exact List.filter_eq_nil_iff.mp hs e he hp
      have hk : ((s.put k w).filter fun e => p e.1) = [(k, w)] := by
        rw [Settings.put_of_new hn, List.filter_append, hs]
        simp [hp]
      rw [hs] at h ⊢
      rw [ih (by rw [hk]; simpa [Nat.add_comm] using h), hk]
      rfl

end Environment

theorem Settings.get?_onto_of_leading {key name : String} {v : Setting} {s t : Settings}
    (hk : IsKey key) (hl : leading key s = [(name, v)]) (hn : Text.lower name = key) :
    (onto s t).get? key = some (v.onto (t.get? key)) := by
  have ⟨hd, hb⟩ := hk.unmarked hn
  rw [get?_onto, hl]
  simp only [laid, List.foldl_cons, List.foldl_nil, SettingPath.ofKey_of_unmarked hd hb,
    Setting.atEnd]

theorem Setting.ofInt?_natCast {n : Nat} :
    ofInt? n = if n ≤ largestInteger then some (integer n) else none := by
  have hs : smallestInteger ≤ n := by simp only [smallestInteger]; omega
  simp [ofInt?, hs]

theorem Setting.wordOf?_of_mem {word : String} {words : List String} (hw : ∀ w ∈ words, IsKey w)
    (h : word ∈ words) : wordOf? words word = some word := by
  induction words
  case nil => cases h
  case cons w words ih =>
    have ⟨hl, hw⟩ := List.forall_mem_cons.mp hw
    rw [wordOf?, List.find?_cons]
    rcases List.mem_cons.mp h with rfl | h
    case inl => simp
    case inr =>
      split
      case h_1 he =>
        have he := of_decide_eq_true he
        rw [hl.lower_eq, (hw word h).lower_eq] at he
        rw [he]
      case h_2 => exact ih hw h

theorem Toml.lawful : Toml.library.Lawful where
  head_eq hd hb := congrArg SettingPath.head (SettingPath.ofKey_of_unmarked hd hb)
  lay_nil t := rfl
  lay_cons e s t := rfl
  lay_local {key s s' t t'} _ hs ht := by
    change (Settings.onto s t).get? key = (Settings.onto s' t').get? key
    rw [Settings.get?_onto, Settings.get?_onto, hs, ht]
  lay_value {key name v s t} hk hl hn hv := by
    change (Settings.onto s t).get? key = some v
    rw [Settings.get?_onto_of_leading hk hl hn, Setting.onto_eq_self hv]
  lay_empty {key name b s t} hk hl hn ht := by
    change (Settings.onto s t).get? key = some b
    rw [Settings.get?_onto_of_leading hk hl hn, ht]
    rfl
  lay_table {key name b es s t} hk hl hn he hd ht hb := by
    refine ⟨_, Settings.get?_onto_of_leading hk hl hn, ?_⟩
    rw [ht]
    exact Setting.alike_onto hb he hd
  lay_single {key b b' t t'} e _ ht ht' hb hb' := by
    change (Settings.onto [e] t).get? key = _ ∧ (Settings.onto [e] t').get? key = _ ∨
      (Settings.onto [e] t).get? key = (Settings.onto [e] t').get? key
    rw [Settings.get?_onto, Settings.get?_onto, ht, ht']
    by_cases he : Text.lower (SettingPath.ofKey e.1).head = key
    case pos =>
      have hl : leading key [e] = [e] := leading_cons_of_eq he
      rw [hl]
      exact (Settings.laid_single e).imp (fun h => ⟨h b, h b'⟩) fun h => h b b' hb hb'
    case neg =>
      have hl : leading key [e] = [] := leading_cons_of_ne he
      rw [hl]
      exact .inl ⟨rfl, rfl⟩
  ofCount?_of_le {n} h := by
    refine ⟨.integer n.toNat, (Setting.ofInt?_natCast).trans (if_pos h), trivial, ?_⟩
    change (if (0 : Int) ≤ n.toNat then some (UInt64.ofNat (n.toNat : Int).toNat) else none) =
      some n
    rw [if_pos (Int.natCast_nonneg _), Int.toNat_natCast, UInt64.ofNat_toNat]
  ofCount?_of_lt {n} h := (Setting.ofInt?_natCast).trans (if_neg h)
  ofWord_single word := trivial
  variant?_ofWord hw h := Setting.wordOf?_of_mem hw h
  ofSwitch_single b := trivial
  switch?_ofSwitch b := rfl
  ofVariable?_iff {style key name value} hk hs := by
    change (∃ v, Environment.entry style (name, value) = some (key, v)) ↔ _
    simp only [Environment.entry_eq_some, Environment.key?_iff hk hs]
    exact ⟨fun ⟨_, hv, hn, _⟩ => ⟨hn, hv⟩, fun ⟨hn, hv⟩ => ⟨_, hv, hn, rfl⟩⟩
  lower_ofVariable? h := Environment.lower_of_key? (Environment.entry_eq_some.mp h).right.left
  ofVariable?_parsed {style key name value v} hp h := by
    have hv := (Environment.entry_eq_some.mp h).right.right
    rw [if_pos hp] at hv
    exact hv.symm
  parsed_ne_table := Environment.setting_ne_table
  environment_leading {style key vars} _ h := by
    refine (Environment.filter_puts (p := fun k => Text.lower (SettingPath.ofKey k).head = key) ?_)
    rw [List.filter_nil, List.length_nil, Nat.zero_add]
    exact h

end Coordination
