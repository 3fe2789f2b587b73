import AuditTrail.Json.Printer
import AuditTrail.Time.Rfc3339
import Mathlib.Algebra.Group.Nat.Defs

/-!
# Decimal numerals

A numeral is a run of digits that is not empty. It tells the number that it is read as, with or without leading zeros.
-/

namespace AuditTrail

/-- Digits that are read as the number `n`. -/
structure Numeral (cs : List Char) (n : Nat) : Prop where
  ne_nil : cs ≠ []
  digits : ∀ c ∈ cs, c.isDigit = true
  value : Nat.ofDigitChars 10 cs 0 = n

namespace Numeral

/-- The digits of a number are a numeral. -/
theorem toDigits (n : Nat) : Numeral (Nat.toDigits 10 n) n :=
  ⟨Nat.toDigits_ne_nil, fun _ h => Nat.isDigit_of_mem_toDigits (by decide) (by decide) h, Nat.ofDigitChars_ten_toDigits⟩

/-- Leading zeros leave the number as it is. -/
theorem padded (width n : Nat) : Numeral (AuditTrail.padded width n).toList n := by
  simp only [AuditTrail.padded, String.toList_ofList]
  refine ⟨List.append_ne_nil_of_right_ne_nil _ (toDigits n).ne_nil, fun c hc => ?_, ?_⟩
  · rcases List.mem_append.1 hc with hz | hd
    · rw [List.eq_of_mem_replicate hz]
      decide
    · exact (toDigits n).digits c hd
  · rw [Nat.ofDigitChars_append, Nat.ofDigitChars_replicate_zero, Nat.mul_zero]
    exact (toDigits n).value

/-- The value of digits, by the reader of times. -/
theorem digitsValue_eq (cs : List Char) : Instant.digitsValue cs = Nat.ofDigitChars 10 cs 0 := by
  simp only [Instant.digitsValue, Nat.ofDigitChars_eq_foldl, Nat.mul_comm]

/-- A digit stands for less than ten. -/
theorem digit_lt {c : Char} (h : c.isDigit = true) : c.toNat - '0'.toNat < 10 := by
  have : c.toNat ≤ '9'.toNat := by
    simp only [Char.isDigit, Bool.and_eq_true, decide_eq_true_eq] at h
    exact h.2
  have : '9'.toNat = 57 := rfl
  have : '0'.toNat = 48 := rfl
  omega

/-- So many digits tell a number below that power of ten. -/
theorem ofDigitChars_lt (cs : List Char) (h : ∀ c ∈ cs, c.isDigit = true) (start : Nat) :
    Nat.ofDigitChars 10 cs start < (start + 1) * 10 ^ cs.length := by
  induction cs generalizing start with
  | nil => simp
  | cons c cs ih =>
    have hc := digit_lt (h c List.mem_cons_self)
    have hle : 10 * start + (c.toNat - '0'.toNat) + 1 ≤ (start + 1) * 10 := by omega
    calc Nat.ofDigitChars 10 (c :: cs) start
        = Nat.ofDigitChars 10 cs (10 * start + (c.toNat - '0'.toNat)) := Nat.ofDigitChars_cons
      _ < (10 * start + (c.toNat - '0'.toNat) + 1) * 10 ^ cs.length := ih (fun d hd => h d (List.mem_cons_of_mem _ hd)) _
      _ ≤ (start + 1) * 10 * 10 ^ cs.length := Nat.mul_le_mul_right _ hle
      _ = (start + 1) * 10 ^ (c :: cs).length := by rw [List.length_cons, Nat.pow_succ', Nat.mul_assoc]

/-! ## How numbers are written -/

/-- The digits of a number, as they are written. -/
theorem toList_toString (n : Nat) : (toString n).toList = Nat.toDigits 10 n := Nat.toList_repr

/-- The digits tell the number. -/
theorem toDigits_inj {m n : Nat} (h : Nat.toDigits 10 m = Nat.toDigits 10 n) : m = n := by
  rw [← Nat.ofDigitChars_ten_toDigits (n := m), h, Nat.ofDigitChars_ten_toDigits]

/-- No digit is a hyphen. -/
theorem hyphen_not_mem_toDigits (n : Nat) : '-' ∉ Nat.toDigits 10 n := by
  intro h
  have hd : ('-' : Char).isDigit = true := Nat.isDigit_of_mem_toDigits (by decide) (by decide) h
  exact absurd hd (by decide)

/-- A number that is not negative is written by its digits alone. -/
theorem toList_renderInt_of_nonneg {n : Int} (h : 0 ≤ n) : (Json.renderInt n).toList = Nat.toDigits 10 n.natAbs := by
  have hn : ¬n < 0 := by omega
  rw [Json.renderInt, if_neg hn, toList_toString]

/-- A negative number is written with a hyphen in front. -/
theorem toList_renderInt_of_neg {n : Int} (h : n < 0) :
    (Json.renderInt n).toList = '-' :: Nat.toDigits 10 n.natAbs := by
  rw [Json.renderInt, if_pos h, String.toList_append, toList_toString]
  rfl

/-- A whole number is told by how it is written. -/
theorem renderInt_inj {m n : Int} (h : Json.renderInt m = Json.renderInt n) : m = n := by
  have hl : (Json.renderInt m).toList = (Json.renderInt n).toList := congrArg String.toList h
  rcases Int.lt_or_le m 0 with hm | hm <;> rcases Int.lt_or_le n 0 with hn | hn
  · rw [toList_renderInt_of_neg hm, toList_renderInt_of_neg hn, List.cons.injEq] at hl
    have := toDigits_inj hl.2
    omega
  · rw [toList_renderInt_of_neg hm, toList_renderInt_of_nonneg hn] at hl
    exact absurd (hl ▸ List.mem_cons_self) (hyphen_not_mem_toDigits n.natAbs)
  · rw [toList_renderInt_of_nonneg hm, toList_renderInt_of_neg hn] at hl
    exact absurd (hl ▸ List.mem_cons_self) (hyphen_not_mem_toDigits m.natAbs)
  · rw [toList_renderInt_of_nonneg hm, toList_renderInt_of_nonneg hn] at hl
    have := toDigits_inj hl
    omega

end Numeral

/-- A number that fits the width is padded to it. -/
theorem length_padded {width n : Nat} (hw : 0 < width) (h : n < 10 ^ width) : (padded width n).toList.length = width := by
  have := (Nat.length_toDigits_le_iff (b := 10) (by decide) hw).2 h
  simp only [padded, String.toList_ofList, List.length_append, List.length_replicate]
  omega

end AuditTrail
