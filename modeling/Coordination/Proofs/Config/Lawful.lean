import Coordination.Setting.Library
import Coordination.Text.Lower

namespace Coordination

-- No two keys differ in case only.
def Distinct {α : Type} (s : List (String × α)) : Prop :=
  (s.map fun e => Text.lower e.1).Nodup

instance {α : Type} (s : List (String × α)) : Decidable (Distinct s) :=
  inferInstanceAs (Decidable (List.Nodup _))

theorem Distinct.tail {α : Type} {e : String × α} {s : List (String × α)} (h : Distinct (e :: s)) :
    Distinct s :=
  (List.nodup_cons.mp h).right

theorem Distinct.ne {α : Type} {e e' : String × α} {s : List (String × α)}
    (h : Distinct (e :: s)) (he : e' ∈ s) : Text.lower e'.1 ≠ Text.lower e.1 := fun hl =>
  (List.nodup_cons.mp h).left <| List.mem_map.mpr ⟨e', he, hl⟩

-- The setting holds no other.
def Setting.IsSingle : Setting → Prop
  | list _ | table _ => False
  | _ => True

namespace SettingsLibrary

-- The key has only small letters and underscores.
def IsKey (key : String) : Prop :=
  ∀ c ∈ key.toList, c = '_' ∨ c.isLower

instance (key : String) : Decidable (IsKey key) :=
  decidable_of_iff (key.toList.all fun c => c = '_' || c.isLower) (by simp [IsKey])

namespace IsKey

variable {key name : String}

theorem lower_eq (h : IsKey key) : Text.lower key = key := by
  refine String.ext ?_
  rw [Text.toList_lower]
  refine (List.map_congr_left fun c hc => ?_).trans (List.map_id _)
  rcases h c hc with rfl | hl
  case inl => rfl
  case inr => exact Text.lowerChar_of_isLower hl

theorem unmarked (h : IsKey key) (hl : Text.lower name = key) :
    '.' ∉ name.toList ∧ '[' ∉ name.toList := by
  have mem {c : Char} (hc : Text.lowerChar c = c) (hn : c ∈ name.toList) : c ∈ key.toList := by
    rw [← hl, Text.toList_lower]
    exact List.mem_map.mpr ⟨c, hn, hc⟩
  exact ⟨fun hn => absurd (h _ (mem rfl hn)) (by decide),
    fun hn => absurd (h _ (mem rfl hn)) (by decide)⟩

end IsKey

variable [SettingsLibrary]

-- The entries that lead to what stands under a key, or further into it.
def leading (key : String) (s : Settings) : Settings :=
  s.filter fun e => Text.lower (head e.1) = key

-- Whatever is asked for, both settings give the same.
structure Alike (v w : Setting) : Prop where
  count   : count? v = count? w
  variant : ∀ words, variant? words v = variant? words w
  switch  : switch? v = switch? w

-- What such a library promises, as far as plain keys are concerned.
structure Lawful : Prop where
  -- Paths: without a point or a bracket, a key is one part.
  head_eq {key : String} : '.' ∉ key.toList → '[' ∉ key.toList → head key = key
  -- Sources are merged entry by entry and key by key.
  lay_nil (t : Settings) : lay [] t = t
  lay_cons (e : String × Setting) (s t : Settings) : lay (e :: s) t = lay s (lay [e] t)
  lay_local {key : String} {s s' t t' : Settings} : IsKey key → leading key s = leading key s' →
    t.get? key = t'.get? key → (lay s t).get? key = (lay s' t').get? key
  -- A value takes the place of an earlier one.
  lay_value {key name : String} {v : Setting} {s t : Settings} : IsKey key →
    leading key s = [(name, v)] → Text.lower name = key → (∀ es, v ≠ .table es) →
      (lay s t).get? key = some v
  -- A table does so with its keys, whatever their case. One without keys changes nothing.
  lay_empty {key name : String} {b : Setting} {s t : Settings} : IsKey key →
    leading key s = [(name, .table [])] → Text.lower name = key → t.get? key = some b →
      (lay s t).get? key = some b
  lay_table {key name : String} {b : Setting} {es s t : Settings} : IsKey key →
    leading key s = [(name, .table es)] → Text.lower name = key → es ≠ [] → Distinct es →
      t.get? key = some b → b.IsSingle → ∃ v, (lay s t).get? key = some v ∧ Alike v (.table es)
  -- An entry lets a value stay that holds no other, or leaves nothing of it, whatever it was.
  lay_single {key : String} {b b' : Setting} {t t' : Settings} (e : String × Setting) : IsKey key →
    t.get? key = some b → t'.get? key = some b' → b.IsSingle → b'.IsSingle →
      (lay [e] t).get? key = some b ∧ (lay [e] t').get? key = some b' ∨
        (lay [e] t).get? key = (lay [e] t').get? key
  -- What is written down is read again as what it was. A count is written as a number with a sign.
  ofCount?_of_le {n : UInt64} : n.toNat ≤ Setting.largestInteger →
    ∃ v, ofCount? n = some v ∧ v.IsSingle ∧ count? v = some n
  ofCount?_of_lt {n : UInt64} : ¬n.toNat ≤ Setting.largestInteger → ofCount? n = none
  ofWord_single (word : String) : (ofWord word).IsSingle
  variant?_ofWord {word : String} {words : List String} : (∀ w ∈ words, IsKey w) → word ∈ words →
    variant? words (ofWord word) = some word
  ofSwitch_single (b : Bool) : (ofSwitch b).IsSingle
  switch?_ofSwitch (b : Bool) : switch? (ofSwitch b) = some b
  -- A variable sets what its name says behind the lead, in small letters.
  ofVariable?_iff {style : VariableStyle} {key name value : String} : IsKey key →
    ¬style.separator.toList <:+: key.toList →
      ((∃ v, ofVariable? style (name, value) = some (key, v)) ↔
        Text.lower name = Text.lower (style.lead ++ style.separator) ++ key ∧
          (style.ignoresEmpty → value ≠ ""))
  lower_ofVariable? {style : VariableStyle} {key name value : String} {v : Setting} :
    ofVariable? style (name, value) = some (key, v) → Text.lower key = key
  ofVariable?_parsed {style : VariableStyle} {key name value : String} {v : Setting} :
    style.parses → ofVariable? style (name, value) = some (key, v) → v = parsed value
  parsed_ne_table (value : String) (es : Settings) : parsed value ≠ .table es
  environment_leading {style : VariableStyle} {key : String} {vars : List (String × String)} :
    IsKey key → (leading key (vars.filterMap (ofVariable? style))).length ≤ 1 →
      leading key (environment style vars) =
        leading key (vars.filterMap (ofVariable? style))

section

variable {key name : String} {v : Setting} {s : Settings}

theorem leading_cons_of_eq (h : Text.lower (head name) = key) :
    leading key ((name, v) :: s) = (name, v) :: leading key s :=
  List.filter_cons_of_pos (decide_eq_true h)

theorem leading_cons_of_ne (h : Text.lower (head name) ≠ key) :
    leading key ((name, v) :: s) = leading key s :=
  List.filter_cons_of_neg (mt of_decide_eq_true h)

theorem leading_leading (key : String) (s : Settings) :
    leading key (leading key s) = leading key s := by
  simp [leading, List.filter_filter]

theorem leading_arrange (order : Order) (h : (leading key s).length ≤ 1) :
    leading key (order.arrange s) = leading key s := by
  have hp : (leading key (order.arrange s)).Perm (leading key s) := (order.perm s).filter _
  match hs : leading key s with
  | [] => exact List.perm_nil.mp (hs ▸ hp)
  | [e] => exact List.perm_singleton.mp (hs ▸ hp)
  | _ :: _ :: _ => simp [hs] at h

end

namespace Lawful

variable {key name : String} {v : Setting} (lawful : Lawful)
include lawful

theorem lower_head (hk : IsKey key) (h : Text.lower name = key) : Text.lower (head name) = key := by
  have ⟨hd, hb⟩ := hk.unmarked h
  rw [lawful.head_eq hd hb, h]

theorem leading_singleton (hk : IsKey key) : leading key [(key, v)] = [(key, v)] :=
  leading_cons_of_eq (lawful.lower_head hk hk.lower_eq)

-- Induction on the entries: the first that does not let the values stay decides.
theorem lay_singles {b b' : Setting} {s t t' : Settings} (hk : IsKey key) (ht : t.get? key = some b)
    (ht' : t'.get? key = some b') (hb : b.IsSingle) (hb' : b'.IsSingle) :
    (lay s t).get? key = some b ∧ (lay s t').get? key = some b' ∨
      (lay s t).get? key = (lay s t').get? key := by
  induction s generalizing t t'
  case nil =>
    rw [lawful.lay_nil, lawful.lay_nil]
    exact .inl ⟨ht, ht'⟩
  case cons e s ih =>
    rw [lawful.lay_cons e s t, lawful.lay_cons e s t']
    rcases lawful.lay_single e hk ht ht' hb hb' with ⟨stays, stays'⟩ | same
    case inl => exact ih stays stays'
    case inr => exact .inr (lawful.lay_local hk rfl same)

end Lawful

end SettingsLibrary
end Coordination
