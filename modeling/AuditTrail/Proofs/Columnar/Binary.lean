import AuditTrail.Columnar.Binary
import AuditTrail.Proofs.Text.Utf8
import Mathlib.Algebra.Group.Nat.Defs

/-!
# Binary values are taken back

Each value of a row is taken back from its octets, and what follows them is left as it is: lengths in groups of seven bits, whole
numbers of a count of octets, texts after their lengths, and values one after the other until nothing is left.
-/

namespace AuditTrail.Columnar

theorem toNat_toUInt8_of_lt {n : Nat} (h : n < 256) : n.toUInt8.toNat = n := by
  rw [Nat.toUInt8_eq, UInt8.toNat_ofNat', Nat.mod_eq_of_lt h]

/-- A length is taken back if it fits the groups that may be taken. -/
theorem takeGroups_groups {most n : Nat} (h : n < 128 ^ (most + 1)) (rest : Octets) :
    takeGroups (most + 1) (groups n ++ rest) = some (n, rest) := by
  induction most generalizing n with
  | zero =>
    have hn : n < 128 := by simpa using h
    rw [groups, if_pos hn, List.singleton_append, takeGroups, toNat_toUInt8_of_lt (by omega), if_pos hn]
  | succ most ih =>
    rw [groups]
    split
    · rename_i hn
      rw [List.singleton_append, takeGroups, toNat_toUInt8_of_lt (by omega), if_pos hn]
    · have hlow := toNat_toUInt8_of_lt (show n % 128 + 128 < 256 by omega)
      have hhigh : n / 128 < 128 ^ (most + 1) := Nat.div_lt_of_lt_mul (by rwa [Nat.pow_succ', ] at h)
      rw [List.cons_append, takeGroups, hlow, if_neg (by omega), ih hhigh]
      show some _ = some _
      congr 2
      omega

/-- The remainder by a product, by its low and its high part. -/
theorem emod_mul (n : Int) (m : Nat) (hm : 0 < m) :
    n % ((256 * m : Nat) : Int) = n % 256 + 256 * (n / 256 % (m : Int)) := by
  have hlow := Int.emod_nonneg n (show (256 : Int) ≠ 0 by decide)
  have hlow' := Int.emod_lt_of_pos n (show (0 : Int) < 256 by decide)
  have hhigh := Int.emod_nonneg (n / 256) (show (m : Int) ≠ 0 by omega)
  have hhigh' := Int.emod_lt_of_pos (n / 256) (show (0 : Int) < m by omega)
  have hdecomp : n = n % 256 + 256 * (n / 256 % (m : Int)) + ((256 * m : Nat) : Int) * (n / 256 / (m : Int)) := by
    have h1 := Int.mul_ediv_add_emod n 256
    have h2 := Int.mul_ediv_add_emod (n / 256) m
    rw [Int.natCast_mul, Int.mul_assoc]
    omega
  calc n % ((256 * m : Nat) : Int)
      = (n % 256 + 256 * (n / 256 % (m : Int)) + ((256 * m : Nat) : Int) * (n / 256 / (m : Int))) % ((256 * m : Nat) : Int) := by
        rw [← hdecomp]
    _ = (n % 256 + 256 * (n / 256 % (m : Int))) % ((256 * m : Nat) : Int) := Int.add_mul_emod_self_left _ _ _
    _ = n % 256 + 256 * (n / 256 % (m : Int)) := Int.emod_eq_of_lt (by omega) (by omega)

/-- The octets of a whole number, read as a natural number, are its remainder. -/
theorem takeUnsigned_fixed (count : Nat) (n : Int) (rest : Octets) :
    takeUnsigned count (fixed count n ++ rest) = some ((n % (256 ^ count : Nat)).toNat, rest) := by
  induction count generalizing n with
  | zero =>
    rw [Nat.pow_zero, Int.natCast_one, Int.emod_one]
    rfl
  | succ count ih =>
    have hlow := toNat_toUInt8_of_lt (show (n % 256).toNat < 256 by omega)
    have hpos : 0 < 256 ^ count := Nat.pow_pos (by decide)
    have hhigh := Int.emod_nonneg (n / 256) (show ((256 ^ count : Nat) : Int) ≠ 0 by omega)
    rw [fixed, List.cons_append, takeUnsigned, ih]
    show some _ = some _
    rw [hlow, Nat.pow_succ', emod_mul n _ hpos]
    congr 2
    omega

/-- A whole number that its octets have room for is taken back with its sign. -/
theorem takeSigned_fixed (count : Nat) {n : Int} (hlow : -(2 ^ (8 * count + 7) : Nat) ≤ n) (hhigh : n < (2 ^ (8 * count + 7) : Nat))
    (rest : Octets) : takeSigned (count + 1) (fixed (count + 1) n ++ rest) = some (n, rest) := by
  have hwhole : (2 : Nat) ^ (8 * (count + 1)) = 2 ^ (8 * count + 7) * 2 := Nat.pow_succ 2 (8 * count + 7)
  have hmodulus : (256 ^ (count + 1) : Nat) = 2 ^ (8 * count + 7) * 2 := by
    rw [← hwhole, Nat.pow_mul]
  simp only [takeSigned, takeUnsigned_fixed, hmodulus, Option.bind_eq_bind, Option.bind_some, Nat.pow_eq, hwhole,
    show 8 * (count + 1) - 1 = 8 * count + 7 by omega]
  generalize (2 : Nat) ^ (8 * count + 7) = half at *
  by_cases hneg : n < 0
  · have hremainder : n % ((half * 2 : Nat) : Int) = n + (half * 2 : Nat) := by
      rw [← Int.add_emod_right]
      exact Int.emod_eq_of_lt (by omega) (by omega)
    rw [hremainder, if_neg (by omega)]
    congr 2
    omega
  · have hremainder : n % ((half * 2 : Nat) : Int) = n := Int.emod_eq_of_lt (by omega) (by omega)
    rw [hremainder, if_pos (by omega)]
    congr 2
    omega

/-- The texts whose length can be written: every text that can be held. -/
def Fits (t : String) : Prop := (Utf8.encode t).length < 2 ^ 63

instance (t : String) : Decidable (Fits t) := inferInstanceAs (Decidable (_ < _))

/-- A text is taken back. -/
theorem takeString_string {t : String} (h : Fits t) (rest : Octets) : takeString (string t ++ rest) = some (t, rest) := by
  have hlength : takeGroups 9 (groups (Utf8.encode t).length ++ (Utf8.encode t ++ rest)) =
      some ((Utf8.encode t).length, Utf8.encode t ++ rest) := takeGroups_groups h _
  have hroom : ¬ (Utf8.encode t ++ rest).length < (Utf8.encode t).length := by
    rw [List.length_append]
    omega
  simp only [takeString, string, List.append_assoc, hlength, Option.bind_eq_bind, Option.bind_some, if_neg hroom, List.take_left,
    List.drop_left, Utf8.decode?_encode]

/-- Values that have an octet each have no fewer octets than there are values. -/
theorem length_le_flatten {α : Type} {write : α → Octets} {as : List α} (hwrite : ∀ a ∈ as, write a ≠ []) :
    as.length ≤ (as.map write).flatten.length := by
  induction as with
  | nil => exact Nat.zero_le _
  | cons a as ih =>
    have hpos := List.length_pos_iff.2 (hwrite a List.mem_cons_self)
    have := ih fun c hc => hwrite c (List.mem_cons_of_mem _ hc)
    rw [List.map_cons, List.flatten_cons, List.length_cons, List.length_append]
    omega

/-- Values are taken back one after the other, if each of them has an octet. -/
theorem takeAll_flatten {α : Type} {take : Take α} {write : α → Octets} {as : List α}
    (htake : ∀ a ∈ as, ∀ rest, take (write a ++ rest) = some (a, rest)) (hwrite : ∀ a ∈ as, write a ≠ []) {fuel : Nat}
    (hfuel : as.length ≤ fuel) : takeAll take fuel (as.map write).flatten = some as := by
  induction as generalizing fuel with
  | nil =>
    cases fuel <;> rfl
  | cons a as ih =>
    obtain ⟨b, bs, hb⟩ := List.exists_cons_of_ne_nil (hwrite a List.mem_cons_self)
    obtain ⟨fuel, rfl⟩ := Nat.exists_eq_succ_of_ne_zero (show fuel ≠ 0 by rw [List.length_cons] at hfuel; omega)
    have hread := htake a List.mem_cons_self (as.map write).flatten
    rw [hb, List.cons_append] at hread
    rw [List.map_cons, List.flatten_cons, hb, List.cons_append, takeAll, hread]
    simp only [Option.bind_eq_bind, Option.bind_some]
    rw [ih (fun c hc => htake c (List.mem_cons_of_mem _ hc)) (fun c hc => hwrite c (List.mem_cons_of_mem _ hc))
      (by rw [List.length_cons] at hfuel; omega), Option.bind_some]

end AuditTrail.Columnar
