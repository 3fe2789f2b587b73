import AuditTrail.Text.Utf8
import Mathlib.Data.String.Basic
import Mathlib.Tactic.SplitIfs

/-!
# The order of texts

Texts compare as their octets do (`encode_lt_encode_iff`). Of two characters the one with the lower code point has the lower
octets, and the difference shows before either run of octets ends, whatever follows.
-/

namespace AuditTrail.Utf8

/-- Runs of octets compare by the first octets, and by the rest when these are the same. -/
theorem cons_lt_cons {m n : Nat} (hm : m < 0x100) (hn : n < 0x100) (s t : Octets) :
    UInt8.ofNat m :: s < UInt8.ofNat n :: t ↔ m < n ∨ m = n ∧ s < t := by
  rw [List.cons_lt_cons_iff, UInt8.lt_iff_toNat_lt, ← UInt8.toNat_inj, UInt8.toNat_ofNat', UInt8.toNat_ofNat',
    Nat.mod_eq_of_lt hm, Nat.mod_eq_of_lt hn]

/-- The lower of two characters has the lower octets, whatever follows them. -/
theorem encodeChar_lt {c d : Char} (h : c < d) (s t : Octets) :
    String.utf8EncodeChar c ++ s < String.utf8EncodeChar d ++ t := by
  have hd : d.val.toNat < 0x110000 := by
    have := d.valid
    simp only [UInt32.isValidChar, Nat.isValidChar] at this
    omega
  have hlt : c.val.toNat < d.val.toNat := UInt32.lt_iff_toNat_lt.1 (Char.lt_def.1 h)
  simp only [String.utf8EncodeChar]
  generalize c.val.toNat = m at hlt
  generalize d.val.toNat = n at hlt hd
  have htop {a : Nat} (h : a < 0x110000) : a / 262144 % 8 = a / 64 / 64 / 64 := by omega
  have hnext (a : Nat) : a / 4096 = a / 64 / 64 := by omega
  rw [htop hd, htop (hlt.trans hd), hnext, hnext]
  -- a longer run begins with a higher octet
  split_ifs <;> simp (disch := omega) only [List.cons_append, List.nil_append, cons_lt_cons] <;> omega

/-- The lower of two runs of characters has the lower octets. -/
theorem flatMap_lt {cs ds : List Char} (h : cs < ds) :
    cs.flatMap String.utf8EncodeChar < ds.flatMap String.utf8EncodeChar := by
  induction cs generalizing ds with
  | nil =>
    cases ds with
    | nil => exact absurd h (List.lt_irrefl [])
    | cons d ds =>
      obtain ⟨b, bs, hb⟩ := List.exists_cons_of_ne_nil (String.utf8EncodeChar_ne_nil (c := d))
      rw [List.flatMap_nil, List.flatMap_cons, hb]
      exact List.nil_lt_cons b _
  | cons c cs ih =>
    cases ds with
    | nil => exact absurd h (List.not_lt_nil _)
    | cons d ds =>
      rw [List.flatMap_cons, List.flatMap_cons]
      rcases List.cons_lt_cons_iff.1 h with hlt | ⟨rfl, hlt⟩
      · exact encodeChar_lt hlt _ _
      · exact List.append_left_lt (ih hlt)

/-- Texts compare as their octets do. -/
theorem encode_lt_encode_iff (s t : String) : encode s < encode t ↔ s < t := by
  have mono {s t : String} (h : s < t) : encode s < encode t := flatMap_lt (String.lt_iff_toList_lt.1 h)
  refine ⟨fun h => ?_, mono⟩
  rcases lt_trichotomy s t with hlt | rfl | hgt
  · exact hlt
  · exact absurd h (List.lt_irrefl _)
  · exact absurd h (List.lt_asymm (mono hgt))

end AuditTrail.Utf8
