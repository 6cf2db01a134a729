import Coordination.Proofs.Paths.Chroot

namespace Coordination

namespace Path

variable {a b : List Char} {i j n k : Nat} {path : String}

-- The ten digits at the end of the name of a sequence node.
def sequenceSuffix (path : String) : List Char :=
  path.toList.drop (path.toList.length - 10)

def sequenceNumber (path : String) : Nat :=
  Nat.ofDigitChars 10 (sequenceSuffix path) 0

theorem length_digits (h : n < 10000000000) : (sequenceDigits n).length = 10 := by
  have hl : (Nat.toDigits 10 n).length ≤ 10 :=
    (Nat.length_toDigits_le_iff (by decide) (by decide)).mpr h
  rw [sequenceDigits, List.length_append, List.length_replicate]
  omega

theorem ofDigitChars_digits (n : Nat) : Nat.ofDigitChars 10 (sequenceDigits n) 0 = n := by
  rw [sequenceDigits, Nat.ofDigitChars_append, Nat.ofDigitChars_replicate_zero, Nat.mul_zero,
    Nat.ofDigitChars_ten_toDigits]

-- What comes first counts most.
theorem ofDigitChars_lt (ha : ∀ c ∈ a, c.isDigit) (hl : a.length = b.length) (h : i < j) :
    Nat.ofDigitChars 10 a i < Nat.ofDigitChars 10 b j := by
  induction a generalizing b i j
  case nil =>
    cases List.length_eq_zero_iff.mp hl.symm
    exact h
  case cons c a ih =>
    cases b
    case nil => cases hl
    case cons d b =>
      have hc := (Char.isDigit_iff_toNat.mp (ha c List.mem_cons_self)).right
      rw [Nat.ofDigitChars_cons, Nat.ofDigitChars_cons]
      refine ih (fun c hc => ha c (List.mem_cons_of_mem _ hc)) (Nat.succ.inj hl) ?_
      simp only [Char.reduceToNat] at hc ⊢
      omega

theorem lt_of_ofDigitChars_lt (ha : ∀ c ∈ a, c.isDigit) (hb : ∀ c ∈ b, c.isDigit)
    (hl : a.length = b.length) (h : Nat.ofDigitChars 10 a i < Nat.ofDigitChars 10 b i) : a < b := by
  induction a generalizing b i
  case nil =>
    cases List.length_eq_zero_iff.mp hl.symm
    exact absurd h (Nat.lt_irrefl _)
  case cons c a ih =>
    cases b
    case nil => cases hl
    case cons d b =>
      have hl' : a.length = b.length := Nat.succ.inj hl
      have ha' c (hc : c ∈ a) := ha c (List.mem_cons_of_mem _ hc)
      have hb' c (hc : c ∈ b) := hb c (List.mem_cons_of_mem _ hc)
      rw [Nat.ofDigitChars_cons, Nat.ofDigitChars_cons] at h
      rw [List.cons_lt_cons_iff]
      rcases Nat.lt_trichotomy c.toNat d.toNat with hlt | heq | hgt
      case inl => exact .inl hlt
      case inr.inl =>
        cases Char.toNat_inj.mp heq
        exact .inr ⟨rfl, ih ha' hb' hl' h⟩
      case inr.inr =>
        have hd := (Char.isDigit_iff_toNat.mp (hb d List.mem_cons_self)).left
        have := ofDigitChars_lt hb' hl'.symm (i := 10 * i + (d.toNat - '0'.toNat))
          (j := 10 * i + (c.toNat - '0'.toNat)) (by omega)
        omega

theorem digits_lt (h : n < k) (hk : k < 10000000000) : sequenceDigits n < sequenceDigits k := by
  have hl : (sequenceDigits n).length = (sequenceDigits k).length := by
    rw [length_digits hk, length_digits (Nat.lt_trans h hk)]
  refine lt_of_ofDigitChars_lt (i := 0) (isDigit_of_mem_digits n) (isDigit_of_mem_digits k) hl ?_
  rwa [ofDigitChars_digits, ofDigitChars_digits]

theorem sequenceSuffix_withSequence (h : n < 10000000000) :
    sequenceSuffix (withSequence path n) = sequenceDigits n := by
  rw [sequenceSuffix, toList_withSequence, List.length_append, length_digits h, Nat.add_sub_cancel,
    List.drop_left]

theorem sequenceNumber_withSequence (h : n < 10000000000) :
    sequenceNumber (withSequence path n) = n := by
  rw [sequenceNumber, sequenceSuffix_withSequence h, ofDigitChars_digits]

theorem withSequence_lt (h : n < k) (hk : k < 10000000000) :
    withSequence path n < withSequence path k := by
  rw [String.lt_iff, toList_withSequence, toList_withSequence]
  exact List.append_left_lt (digits_lt h hk)

end Path
end Coordination
