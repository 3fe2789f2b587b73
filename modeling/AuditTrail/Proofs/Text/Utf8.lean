import AuditTrail.Text.Utf8

/-!
# Texts survive their octets

`decode?` undoes `encode`. The octets of a character are read back as that character whatever follows, and none of them looks
like an ASCII character unless the character is one.
-/

namespace AuditTrail.Utf8

/-! ## Octets by their six bits -/

/-- A continuation octet gives back the six bits it was made of. -/
theorem continuation?_add (n : Nat) (h : n < 0x40) : continuation? (UInt8.ofNat (n + 0x80)) = some n := by
  have all : ∀ n < 0x40, continuation? (UInt8.ofNat (n + 0x80)) = some n := by decide
  exact all n h

/-- The first octet of two gives back its five bits. -/
theorem lead_two (n : Nat) (h : n < 0x20) :
    ¬ UInt8.ofNat (n + 0xc0) < 0x80 ∧ (UInt8.ofNat (n + 0xc0) &&& 0xe0 == 0xc0) = true ∧
      (UInt8.ofNat (n + 0xc0) &&& 0x1f).toNat = n := by
  have all : ∀ n < 0x20, ¬ UInt8.ofNat (n + 0xc0) < 0x80 ∧ (UInt8.ofNat (n + 0xc0) &&& 0xe0 == 0xc0) = true ∧
      (UInt8.ofNat (n + 0xc0) &&& 0x1f).toNat = n := by decide
  exact all n h

/-- The first octet of three gives back its four bits. -/
theorem lead_three (n : Nat) (h : n < 0x10) :
    ¬ UInt8.ofNat (n + 0xe0) < 0x80 ∧ (UInt8.ofNat (n + 0xe0) &&& 0xe0 == 0xc0) = false ∧
      (UInt8.ofNat (n + 0xe0) &&& 0xf0 == 0xe0) = true ∧ (UInt8.ofNat (n + 0xe0) &&& 0x0f).toNat = n := by
  have all : ∀ n < 0x10, ¬ UInt8.ofNat (n + 0xe0) < 0x80 ∧ (UInt8.ofNat (n + 0xe0) &&& 0xe0 == 0xc0) = false ∧
      (UInt8.ofNat (n + 0xe0) &&& 0xf0 == 0xe0) = true ∧ (UInt8.ofNat (n + 0xe0) &&& 0x0f).toNat = n := by decide
  exact all n h

/-- The first octet of four gives back its three bits. -/
theorem lead_four (n : Nat) (h : n < 0x8) :
    ¬ UInt8.ofNat (n + 0xf0) < 0x80 ∧ (UInt8.ofNat (n + 0xf0) &&& 0xe0 == 0xc0) = false ∧
      (UInt8.ofNat (n + 0xf0) &&& 0xf0 == 0xe0) = false ∧ (UInt8.ofNat (n + 0xf0) &&& 0xf8 == 0xf0) = true ∧
      (UInt8.ofNat (n + 0xf0) &&& 0x07).toNat = n := by
  have all : ∀ n < 0x8, ¬ UInt8.ofNat (n + 0xf0) < 0x80 ∧ (UInt8.ofNat (n + 0xf0) &&& 0xe0 == 0xc0) = false ∧
      (UInt8.ofNat (n + 0xf0) &&& 0xf0 == 0xe0) = false ∧ (UInt8.ofNat (n + 0xf0) &&& 0xf8 == 0xf0) = true ∧
      (UInt8.ofNat (n + 0xf0) &&& 0x07).toNat = n := by decide
  exact all n h

/-- The character of a code point within bounds is the character that has it. -/
theorem charIn?_toNat (lo hi : Nat) (c : Char) (hlo : lo ≤ c.toNat) (hhi : c.toNat ≤ hi) : charIn? lo hi c.toNat = some c := by
  have hv : c.toNat.isValidChar := c.valid
  rw [charIn?, if_pos ⟨hlo, hhi⟩, dif_pos hv]
  congr 1
  apply Char.ext
  exact UInt32.ofNat_toNat

/-! ## Reading back -/

/-- The octets of a character are read back as that character. -/
theorem decodeChars_char (c : Char) (rest : Octets) :
    decodeChars (String.utf8EncodeChar c ++ rest) = (decodeChars rest).map (c :: ·) := by
  have hc : c.toNat < 0x110000 := by
    have := c.valid
    simp only [UInt32.isValidChar, Nat.isValidChar] at this
    simp only [Char.toNat]
    omega
  simp only [String.utf8EncodeChar, show c.val.toNat = c.toNat from rfl]
  split
  · rename_i h1
    have hlt : UInt8.ofNat c.toNat < 0x80 := by
      rw [UInt8.lt_iff_toNat_lt, UInt8.toNat_ofNat', Nat.mod_eq_of_lt (by omega)]
      exact Nat.lt_succ_of_le h1
    rw [List.singleton_append, decodeChars.eq_def]
    simp only [if_pos hlt, UInt8.toNat_ofNat', Nat.mod_eq_of_lt (show c.toNat < 2 ^ 8 by omega), Char.ofNat_toNat]
  split
  · rename_i h1 h2
    obtain ⟨hge, htwo, hbits⟩ := lead_two (c.toNat / 64 % 32) (by omega)
    have hn : c.toNat / 64 % 32 * 0x40 + c.toNat % 64 = c.toNat := by omega
    simp only [List.cons_append, List.nil_append]
    rw [decodeChars.eq_def]
    simp only [if_neg hge, continuation?_add _ (Nat.mod_lt _ (by decide)), htwo, hbits, hn, if_true, Option.bind_eq_bind,
      Option.bind_some, charIn?_toNat 0x80 0x7ff c (by omega) (by omega)]
  split
  · rename_i h1 h2 h3
    obtain ⟨hge, htwo, hthree, hbits⟩ := lead_three (c.toNat / 4096 % 16) (by omega)
    have hn : (c.toNat / 4096 % 16 * 0x40 + c.toNat / 64 % 64) * 0x40 + c.toNat % 64 = c.toNat := by omega
    simp only [List.cons_append, List.nil_append]
    rw [decodeChars.eq_def]
    simp only [if_neg hge, continuation?_add _ (Nat.mod_lt _ (by decide)), htwo, hthree, hbits, hn, if_true,
      Bool.false_eq_true, if_false, Option.bind_eq_bind, Option.bind_some,
      charIn?_toNat 0x800 0xffff c (by omega) (by omega)]
  · rename_i h1 h2 h3
    obtain ⟨hge, htwo, hthree, hfour, hbits⟩ := lead_four (c.toNat / 262144 % 8) (by omega)
    have hn : ((c.toNat / 262144 % 8 * 0x40 + c.toNat / 4096 % 64) * 0x40 + c.toNat / 64 % 64) * 0x40 + c.toNat % 64
        = c.toNat := by omega
    simp only [List.cons_append, List.nil_append]
    rw [decodeChars.eq_def]
    simp only [if_neg hge, continuation?_add _ (Nat.mod_lt _ (by decide)), htwo, hthree, hfour, hbits, hn, if_true,
      Bool.false_eq_true, if_false, Option.bind_eq_bind, Option.bind_some,
      charIn?_toNat 0x10000 0x10ffff c (by omega) (by omega)]

/-- The octets of characters are read back as those characters. -/
theorem decodeChars_flatMap (cs : List Char) : decodeChars (cs.flatMap String.utf8EncodeChar) = some cs := by
  induction cs with
  | nil => rw [List.flatMap_nil, decodeChars]
  | cons c cs ih => rw [List.flatMap_cons, decodeChars_char, ih, Option.map_some]

/-- Decoding undoes encoding. -/
theorem decode?_encode (s : String) : decode? (encode s) = some s := by
  rw [decode?, encode, decodeChars_flatMap, Option.map_some, String.ofList_toList]

/-! ## The octets of a text -/

@[simp] theorem encode_empty : encode "" = [] := rfl

@[simp] theorem encode_append (s t : String) : encode (s ++ t) = encode s ++ encode t := by
  simp [encode, String.toList_append]

theorem encode_ofList (cs : List Char) : encode (String.ofList cs) = cs.flatMap String.utf8EncodeChar := by
  simp [encode]

/-- An ASCII character is its own octet. -/
theorem encodeChar_ascii {c : Char} (h : c.toNat < 0x80) : String.utf8EncodeChar c = [Octets.ofAscii c] := by
  have : c.val.toNat ≤ 0x7f := Nat.le_of_lt_succ h
  simp only [String.utf8EncodeChar, if_pos this]
  rfl

/-- The octets of a text of ASCII characters. -/
theorem flatMap_ascii {cs : List Char} (h : ∀ c ∈ cs, c.toNat < 0x80) :
    cs.flatMap String.utf8EncodeChar = cs.map Octets.ofAscii := by
  induction cs with
  | nil => rfl
  | cons c cs ih =>
    rw [List.flatMap_cons, encodeChar_ascii (h c List.mem_cons_self), ih fun d hd => h d (List.mem_cons_of_mem _ hd)]
    rfl

/-- No octet of a character beyond ASCII is the code of an ASCII character. -/
theorem ascii_lt_of_mem {c : Char} (h : ¬ c.toNat < 0x80) {b : UInt8} (hb : b ∈ String.utf8EncodeChar c) : 0x80 ≤ b.toNat := by
  have h1 : ¬ c.val.toNat ≤ 0x7f := fun hle => h (Nat.lt_succ_of_le hle)
  simp only [String.utf8EncodeChar, if_neg h1] at hb
  split at hb
  · simp only [List.mem_cons, List.not_mem_nil, or_false] at hb
    rcases hb with rfl | rfl <;> rw [UInt8.toNat_ofNat'] <;> omega
  split at hb
  · simp only [List.mem_cons, List.not_mem_nil, or_false] at hb
    rcases hb with rfl | rfl | rfl <;> rw [UInt8.toNat_ofNat'] <;> omega
  · simp only [List.mem_cons, List.not_mem_nil, or_false] at hb
    rcases hb with rfl | rfl | rfl | rfl <;> rw [UInt8.toNat_ofNat'] <;> omega

end AuditTrail.Utf8
