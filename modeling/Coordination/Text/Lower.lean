namespace Coordination.Text

-- The lower case of ASCII. Besides its capitals, only the Kelvin sign has a letter of ASCII for its
-- lower case.
def lowerChar (c : Char) : Char :=
  if c = '\u212A' then 'k' else c.toLower

def lower (s : String) : String :=
  String.ofList (s.toList.map lowerChar)

theorem isUpper_eq_true_iff {c : Char} : c.isUpper = true ↔ 65 ≤ c.toNat ∧ c.toNat ≤ 90 :=
  decide_eq_true_iff.trans <| by simp [UInt32.le_iff_toNat_le]

theorem toLower_eq_self {c : Char} (h : c.isUpper = false) : c.toLower = c :=
  dif_neg <| of_decide_eq_false h

theorem toNat_toLower {c : Char} (h : c.isUpper = true) : c.toLower.toNat = c.toNat + 32 := by
  have hl : c.toLower = _ := dif_pos <| of_decide_eq_true h
  have hu := isUpper_eq_true_iff.mp h
  rw [hl]
  show (c.val + 32).toNat = _
  rw [UInt32.toNat_add]
  exact Nat.mod_eq_of_lt (by change c.toNat + 32 < _; omega)

-- No capital letter is left, and no Kelvin sign.
theorem isUpper_lowerChar (c : Char) : (lowerChar c).isUpper = false := by
  unfold lowerChar
  split
  case isTrue => rfl
  case isFalse =>
    cases hu : c.isUpper
    case false => rwa [toLower_eq_self hu]
    case true =>
      have ⟨hl, _⟩ := isUpper_eq_true_iff.mp hu
      rw [← Bool.not_eq_true, isUpper_eq_true_iff, toNat_toLower hu]
      omega

theorem lowerChar_ne_kelvin (c : Char) : lowerChar c ≠ '\u212A' := by
  unfold lowerChar
  split
  case isTrue => decide
  case isFalse hk =>
    cases hu : c.isUpper
    case false => rwa [toLower_eq_self hu]
    case true =>
      have ⟨_, hr⟩ := isUpper_eq_true_iff.mp hu
      intro he
      have hn := toNat_toLower hu
      rw [he] at hn
      have hn : 8490 = c.toNat + 32 := hn
      omega

theorem lowerChar_eq_self {c : Char} (hu : c.isUpper = false) (hk : c ≠ '\u212A') :
    lowerChar c = c := by
  rw [lowerChar, if_neg hk, toLower_eq_self hu]
theorem lowerChar_lowerChar (c : Char) : lowerChar (lowerChar c) = lowerChar c :=
  lowerChar_eq_self (isUpper_lowerChar c) (lowerChar_ne_kelvin c)

theorem lowerChar_of_isLower {c : Char} (h : c.isLower) : lowerChar c = c := by
  have h : 97 ≤ c.toNat ∧ c.toNat ≤ 122 := by
    have hl : (decide (c.val ≥ 'a'.val) && decide (c.val ≤ 'z'.val)) = true := h
    simpa [UInt32.le_iff_toNat_le] using hl
  refine lowerChar_eq_self ?_ ?_
  case refine_1 =>
    rw [← Bool.not_eq_true, isUpper_eq_true_iff]
    omega
  case refine_2 =>
    rintro rfl
    exact absurd h (by decide)

@[simp] theorem toList_lower (s : String) : (lower s).toList = s.toList.map lowerChar :=
  String.toList_ofList

@[simp] theorem lower_lower (s : String) : lower (lower s) = lower s :=
  String.ext <| by simp [lowerChar_lowerChar]

end Coordination.Text
