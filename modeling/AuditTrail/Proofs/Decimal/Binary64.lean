import AuditTrail.Decimal.Binary64
import Mathlib.Tactic.Ring

/-!
# Whole numbers in binary64

A whole number of at most 53 bits loses nothing as a binary64 number (`Binary64.exists_ofRatio`): its significand is the number with its
bits moved up until there are 53 of them, and rounding leaves that as it is.
-/

namespace AuditTrail.Binary64

/-- A number that is divided by one is rounded to itself. -/
theorem roundHalfEven_one (n : Nat) : roundHalfEven n 1 = n := by
  simp [roundHalfEven, Nat.mod_one]

/-- The bits of a number can be moved up until there are 53. -/
theorem unit_le_shift {n : Nat} (h0 : n ≠ 0) (h : n < 2 ^ 53) :
    unit ≤ n * 2 ^ (52 - n.log2) ∧ n * 2 ^ (52 - n.log2) < 2 * unit := by
  have hlog : n.log2 ≤ 52 := Nat.le_of_lt_succ ((Nat.log2_lt h0).2 h)
  have hunit : unit = 2 ^ n.log2 * 2 ^ (52 - n.log2) := by
    rw [← Nat.pow_add, Nat.add_sub_cancel' hlog]
    rfl
  have hpos : 0 < 2 ^ (52 - n.log2) := Nat.two_pow_pos _
  constructor
  · rw [hunit]
    exact Nat.mul_le_mul_right _ (Nat.log2_self_le h0)
  · rw [hunit, ← Nat.mul_assoc, ← Nat.pow_succ']
    exact Nat.mul_lt_mul_of_pos_right Nat.lt_log2_self hpos

/-- The exponent of a whole number says how far its bits have been moved up. -/
theorem exponentFor_one {n : Nat} (h0 : n ≠ 0) (h : n < 2 ^ 53) : exponentFor n 1 = (n.log2 : Int) - 52 := by
  have hlog : n.log2 ≤ 52 := Nat.le_of_lt_succ ((Nat.log2_lt h0).2 h)
  obtain ⟨hlow, -⟩ := unit_le_shift h0 h
  have habs : ((n.log2 : Int) - 52).natAbs = 52 - n.log2 := by omega
  have hfits : if (n.log2 : Int) - 52 < 0 then 1 * unit ≤ n * Nat.pow 2 (52 - n.log2)
      else 1 * unit * Nat.pow 2 (52 - n.log2) ≤ n := by
    split
    · rw [Nat.one_mul]
      exact hlow
    · have hzero : 52 - n.log2 = 0 := by omega
      rw [hzero] at hlow ⊢
      simpa using hlow
  have hone : Nat.log2 1 = 0 := by decide
  simp only [exponentFor, hone, Nat.cast_zero, Int.sub_zero, habs]
  rw [if_pos (by simpa using hfits)]
  omega

/-- A significand of 53 bits is read back, with its exponent. -/
theorem parts_normal {k s : Nat} (hlow : unit ≤ s) (hhigh : s < 2 * unit) :
    parts ⟨false, (k + 1022) * unit + s⟩ = (s, (k : Int) - 52) := by
  obtain ⟨r, rfl⟩ := Nat.exists_eq_add_of_le hlow
  have hr : r < unit := by omega
  have hmag : (k + 1022) * unit + (unit + r) = r + unit * (k + 1023) := by ring
  have hdiv : ((k + 1022) * unit + (unit + r)) / unit = k + 1023 := by
    rw [hmag, Nat.add_mul_div_left _ _ (by decide : 0 < unit), Nat.div_eq_of_lt hr, Nat.zero_add]
  have hmod : ((k + 1022) * unit + (unit + r)) % unit = r := by
    rw [hmag, Nat.add_mul_mod_self_left, Nat.mod_eq_of_lt hr]
  have hexp : ((k + 1023 : Nat) : Int) - 1075 = (k : Int) - 52 := by omega
  simp only [parts, hdiv, hmod, hexp]
  exact if_neg (Nat.succ_ne_zero _)

/-- The ratio of a number is told by its parts. -/
theorem ratio_eq {x : Binary64} {m : Nat} {e : Int} (h : x.parts = (m, e)) :
    x.ratio = if e < 0 then (m, Nat.pow 2 e.natAbs) else (m * Nat.pow 2 e.natAbs, 1) := by
  rw [ratio, h]

/-- A number whose significand is zero is zero. -/
theorem ratio_div_of_zero {x : Binary64} {e : Int} (h : x.parts = (0, e)) : x.ratio.1 / x.ratio.2 = 0 := by
  rw [ratio_eq h]
  split
  · exact Nat.zero_div _
  · rw [Nat.zero_mul]
    exact Nat.zero_div 1

/-- A whole number of at most 53 bits is the value of a binary64 number. -/
theorem exists_ofRatio {n : Nat} (h : n < 2 ^ 53) : ∃ x, ofRatio false n 1 = some x ∧ x.ratio.1 / x.ratio.2 = n := by
  by_cases h0 : n = 0
  · subst h0
    have hparts : (zero false).parts = (0, -1074) := rfl
    exact ⟨zero false, if_pos rfl, ratio_div_of_zero hparts⟩
  · have hlog : n.log2 ≤ 52 := Nat.le_of_lt_succ ((Nat.log2_lt h0).2 h)
    obtain ⟨hlow, hhigh⟩ := unit_le_shift h0 h
    have hexp := exponentFor_one h0 h
    have habs : ((n.log2 : Int) - 52).natAbs = 52 - n.log2 := by omega
    have hplace : ((n.log2 : Int) - 52 + 1074).toNat = n.log2 + 1022 := by omega
    have hround : roundScaled n 1 ((n.log2 : Int) - 52) = n * 2 ^ (52 - n.log2) := by
      rw [roundScaled, habs]
      split
      · exact roundHalfEven_one _
      · have hzero : 52 - n.log2 = 0 := by omega
        simp [hzero, roundHalfEven_one]
    have hmag : (n.log2 + 1022) * unit + n * 2 ^ (52 - n.log2) < infinity := by
      have hle : (n.log2 + 1022) * unit ≤ 1074 * unit := Nat.mul_le_mul_right _ (by omega)
      have hinf : 1074 * unit + 2 * unit < infinity := by decide
      omega
    refine ⟨⟨false, (n.log2 + 1022) * unit + n * 2 ^ (52 - n.log2)⟩, ?_, ?_⟩
    · simp only [ofRatio, h0, if_false, hexp, hround, hplace, hmag, if_true]
    · -- the number is named, so that no step computes with its bits
      generalize hx : (⟨false, (n.log2 + 1022) * unit + n * 2 ^ (52 - n.log2)⟩ : Binary64) = x
      have hparts : x.parts = (n * 2 ^ (52 - n.log2), (n.log2 : Int) - 52) :=
        hx ▸ parts_normal (k := n.log2) hlow hhigh
      rw [ratio_eq hparts, habs]
      split
      · exact Nat.mul_div_cancel _ (Nat.two_pow_pos _)
      · have hzero : 52 - n.log2 = 0 := by omega
        simp [hzero]

end AuditTrail.Binary64
