import AuditTrail.Json.Reader
import AuditTrail.Proofs.Outcome
import AuditTrail.Proofs.Text.Numerals
import AuditTrail.Proofs.Text.Utf8

/-!
# Strings and numbers survive their JSON text

A string is read back from its escapes whatever follows it, and a whole number from its digits where no further digit, point or
exponent follows (`Ends`). In the other direction, the whole numbers that are read fit 64 bits.
-/

namespace AuditTrail.Json

open Octets (ofAscii isDigit digit)
open Outcome

/-! ## Characters of a string -/

/-- A hexadecimal digit is read back. -/
theorem hexDigit?_digitChar {n : Nat} (h : n < 16) : Octets.hexDigit? (ofAscii (Nat.digitChar n)) = some n := by
  have all : ∀ n < 16, Octets.hexDigit? (ofAscii (Nat.digitChar n)) = some n := by decide
  exact all n h

/-- An octet that needs no escape stands for itself inside a string. -/
theorem stringOctets_plain (esc : Reader Octets) {b : UInt8} (h1 : b ≠ ofAscii '\x22') (h2 : b ≠ ofAscii '\\') (h3 : ¬ b < 0x20)
    (bound : Nat) (s : Octets) :
    stringOctets esc (bound + 1) (b :: s) = (stringOctets esc bound s).map fun r => (b :: r.1, r.2) := by
  rw [stringOctets, if_neg h1, if_neg h2, if_neg h3]
  cases stringOctets esc bound s <;> rfl

/-- Octets beyond ASCII stand for themselves inside a string. -/
theorem stringOctets_beyond (esc : Reader Octets) {bs : Octets} (h : ∀ b ∈ bs, 0x80 ≤ b.toNat) (bound : Nat) (s : Octets) :
    stringOctets esc (bs.length + bound) (bs ++ s) = (stringOctets esc bound s).map fun r => (bs ++ r.1, r.2) := by
  induction bs with
  | nil =>
    rw [List.length_nil, Nat.zero_add, List.nil_append]
    cases stringOctets esc bound s <;> rfl
  | cons b bs ih =>
    have hb : 0x80 ≤ b.toNat := h b List.mem_cons_self
    have h1 : b ≠ ofAscii '\x22' := fun he => absurd hb (by rw [he]; decide)
    have h2 : b ≠ ofAscii '\\' := fun he => absurd hb (by rw [he]; decide)
    have h3 : ¬ b < 0x20 := fun hlt => by
      have : b.toNat < 0x20 := hlt
      omega
    rw [List.length_cons, Nat.add_right_comm, List.cons_append, stringOctets_plain esc h1 h2 h3,
      ih fun d hd => h d (List.mem_cons_of_mem _ hd)]
    cases stringOctets esc bound s <;> rfl

/-- An escape stands for what it is read as. -/
theorem stringOctets_escape {e x s : Octets} (h : escape (e ++ s) = .ok (x, s)) (bound : Nat) :
    stringOctets escape (1 + bound) (ofAscii '\\' :: e ++ s) = (stringOctets escape bound s).map fun r => (x ++ r.1, r.2) := by
  rw [Nat.add_comm, List.cons_append, stringOctets, if_neg (by decide), if_pos rfl, h]
  cases hr : stringOctets escape bound s <;> simp only [Except.map, bind, Except.bind, hr]

/-- A control character is read back from its code. -/
theorem escape_code {c : Char} (h : c.toNat < 0x20) (s : Octets) :
    escape (['u', '0', '0', Nat.digitChar (c.toNat / 16), Nat.digitChar (c.toNat % 16)].map ofAscii ++ s) =
      .ok (String.utf8EncodeChar c, s) := by
  have h0 : Octets.hexDigit? (ofAscii '0') = some 0 := by decide
  have hu : simpleEscape? (ofAscii 'u') = none := by decide
  have hn : ((0 * 16 + 0) * 16 + c.toNat / 16) * 16 + c.toNat % 16 = c.toNat := by omega
  simp only [List.map_cons, List.map_nil, List.cons_append, List.nil_append, escape, hu, ne_eq, not_true_eq_false, if_false, hexFour,
    h0, hexDigit?_digitChar (show c.toNat / 16 < 16 by omega), hexDigit?_digitChar (show c.toNat % 16 < 16 by omega), hn]
  show (if _ then _ else if _ then _ else _) = _
  rw [if_neg (by omega), if_neg (by omega), codePoint, Char.ofNat_toNat]

/-- Characters inside a string are read as one character, in no more turns than they have octets. -/
def StandsFor (cs : List Char) (c : Char) : Prop :=
  ∃ turns, turns ≤ (cs.flatMap String.utf8EncodeChar).length ∧
    ∀ bound s, stringOctets escape (turns + bound) (cs.flatMap String.utf8EncodeChar ++ s) =
      (stringOctets escape bound s).map fun r => (String.utf8EncodeChar c ++ r.1, r.2)

section

variable {c d : Char}

/-- A backslash and a letter stand for what the letter is read as. -/
theorem standsFor_letter (hd : d.toNat < 0x80) (hescape : ∀ s, escape (ofAscii d :: s) = .ok (String.utf8EncodeChar c, s)) :
    StandsFor ['\\', d] c := by
  have hflat : ['\\', d].flatMap String.utf8EncodeChar = [ofAscii '\\', ofAscii d] :=
    Utf8.flatMap_ascii (by simpa using hd)
  rw [StandsFor, hflat]
  exact ⟨1, Nat.le_add_left _ _, fun bound s => stringOctets_escape (hescape s) bound⟩

/-- The code of a control character stands for it. -/
theorem standsFor_code (h : c.toNat < 0x20) :
    StandsFor ['\\', 'u', '0', '0', Nat.digitChar (c.toNat / 16), Nat.digitChar (c.toNat % 16)] c := by
  have hdigit : ∀ n < 16, (Nat.digitChar n).toNat < 0x80 := by decide
  have hcode : ∀ d ∈ ['\\', 'u', '0', '0', Nat.digitChar (c.toNat / 16), Nat.digitChar (c.toNat % 16)], d.toNat < 0x80 := by
    simp only [List.forall_mem_cons]
    exact ⟨by decide, by decide, by decide, by decide, hdigit _ (by omega), hdigit _ (by omega), by simp⟩
  rw [StandsFor, Utf8.flatMap_ascii hcode, List.map_cons]
  exact ⟨1, Nat.le_add_left _ _, fun bound s => stringOctets_escape (escape_code h s) bound⟩

/-- A character is told from others by its octet, if it is ASCII. -/
theorem ofAscii_ne (hc : c.toNat < 0x80) (hd : d.toNat < 0x80) (hne : c ≠ d) : ofAscii c ≠ ofAscii d := by
  have htoNat : ∀ e : Char, e.toNat < 0x80 → (ofAscii e).toNat = e.toNat := by
    intro e he
    rw [ofAscii, Nat.toUInt8_eq, UInt8.toNat_ofNat']
    omega
  intro he
  exact hne (Char.toNat_inj.1 (by rw [← htoNat c hc, he, htoNat d hd]))

/-- A character that is not escaped stands for itself. -/
theorem standsFor_self (hquote : c ≠ '\x22') (hbackslash : c ≠ '\\') (hcontrol : ¬ c.toNat < 0x20) : StandsFor [c] c := by
  rw [StandsFor, List.flatMap_singleton]
  by_cases hascii : c.toNat < 0x80
  · have hspace : ¬ ofAscii c < 0x20 := by
      intro hlt
      have hlt' : (ofAscii c).toNat < 0x20 := hlt
      rw [ofAscii, Nat.toUInt8_eq, UInt8.toNat_ofNat'] at hlt'
      omega
    rw [Utf8.encodeChar_ascii hascii]
    refine ⟨1, Nat.le_refl _, fun bound s => ?_⟩
    rw [Nat.add_comm, List.singleton_append, stringOctets_plain escape (ofAscii_ne hascii (by decide) hquote)
      (ofAscii_ne hascii (by decide) hbackslash) hspace]
    rfl
  · exact ⟨_, Nat.le_refl _, stringOctets_beyond escape fun b hb => Utf8.ascii_lt_of_mem hascii hb⟩

/-- A character is read back from how it is written. -/
theorem standsFor_escapeChar (c : Char) : StandsFor (escapeChar c) c := by
  unfold escapeChar
  split
  · rename_i h
    subst h
    exact standsFor_letter (by decide) fun s => rfl
  split
  · rename_i h
    subst h
    exact standsFor_letter (by decide) fun s => rfl
  split
  · rename_i h
    obtain rfl : c = Char.ofNat 0x08 := by rw [← h, Char.ofNat_toNat]
    exact standsFor_letter (by decide) fun s => rfl
  split
  · rename_i h
    obtain rfl : c = Char.ofNat 0x0c := by rw [← h, Char.ofNat_toNat]
    exact standsFor_letter (by decide) fun s => rfl
  split
  · rename_i h
    subst h
    exact standsFor_letter (by decide) fun s => rfl
  split
  · rename_i h
    subst h
    exact standsFor_letter (by decide) fun s => rfl
  split
  · rename_i h
    subst h
    exact standsFor_letter (by decide) fun s => rfl
  split
  · rename_i h
    exact standsFor_code h
  · rename_i hquote hbackslash _ _ _ _ _ hcontrol
    exact standsFor_self hquote hbackslash hcontrol

end

/-! ## Strings -/

/-- The octets of a string inside its quotes. -/
def escapedOctets (cs : List Char) : Octets := (cs.flatMap escapeChar).flatMap String.utf8EncodeChar

/-- A string is its quotes and what is inside. -/
theorem encode_renderString (s : String) :
    Utf8.encode (renderString s) = ofAscii '\x22' :: (escapedOctets s.toList ++ [ofAscii '\x22']) := by
  rw [renderString, Utf8.encode_ofList, List.flatMap_cons, List.flatMap_append, List.flatMap_singleton,
    Utf8.encodeChar_ascii (by decide)]
  rfl

/-- The characters of a string are read back up to its closing quote. -/
theorem stringOctets_escaped (cs : List Char) (rest : Octets) (bound : Nat) (h : (escapedOctets cs).length < bound) :
    stringOctets escape bound (escapedOctets cs ++ ofAscii '\x22' :: rest) = .ok (cs.flatMap String.utf8EncodeChar, rest) := by
  induction cs generalizing bound with
  | nil =>
    obtain ⟨bound, rfl⟩ := Nat.exists_eq_succ_of_ne_zero (Nat.ne_of_gt (Nat.lt_of_le_of_lt (Nat.zero_le _) h))
    rfl
  | cons c cs ih =>
    obtain ⟨turns, hturns, hread⟩ := standsFor_escapeChar c
    have hsplit : escapedOctets (c :: cs) = (escapeChar c).flatMap String.utf8EncodeChar ++ escapedOctets cs := by
      simp only [escapedOctets, List.flatMap_cons, List.flatMap_append]
    rw [hsplit, List.length_append] at h
    obtain ⟨bound, rfl⟩ := Nat.exists_eq_add_of_le (show turns ≤ bound by omega)
    rw [hsplit, List.append_assoc, hread, ih bound (by omega)]
    rfl

/-- A string is read back after its opening quote. -/
theorem stringBody_renderString (s : String) (rest : Octets) :
    stringBody (escapedOctets s.toList ++ ofAscii '\x22' :: rest) = .ok (s, rest) := by
  have hread := stringOctets_escaped s.toList rest ((escapedOctets s.toList ++ ofAscii '\x22' :: rest).length + 1)
    (by rw [List.length_append]; omega)
  have hdecode : Utf8.decode? (s.toList.flatMap String.utf8EncodeChar) = some s := Utf8.decode?_encode s
  simp only [stringBody, hread, bind, Except.bind, hdecode]

/-! ## Whole numbers -/

/-- What may follow a value: nothing, or a character that ends it. -/
def Ends (rest : Octets) : Prop := ∀ b ∈ rest.head?, b = ofAscii ',' ∨ b = ofAscii ']' ∨ b = ofAscii '\x7d'

theorem ends_nil : Ends [] := nofun

theorem ends_cons {b : UInt8} (h : b = ofAscii ',' ∨ b = ofAscii ']' ∨ b = ofAscii '\x7d') (rest : Octets) : Ends (b :: rest) := by
  intro c hc
  cases hc
  exact h

/-- Nothing that ends a value goes on with a number. -/
theorem Ends.cases {rest : Octets} (h : Ends rest) : rest = [] ∨ ∃ b rest', rest = b :: rest' ∧
    isDigit b = false ∧ b ≠ ofAscii '.' ∧ exponentFollows rest = none := by
  cases rest with
  | nil => exact .inl rfl
  | cons b rest' =>
    refine .inr ⟨b, rest', rfl, ?_⟩
    rcases h b rfl with rfl | rfl | rfl <;> exact ⟨by decide, by decide, rfl⟩

/-- A digit is the octet with its value. -/
theorem digit_ofAscii {c : Char} (h : c.isDigit = true) :
    isDigit (ofAscii c) = true ∧ digit (ofAscii c) = c.toNat - '0'.toNat := by
  have all : ∀ n < 58, 48 ≤ n → isDigit (ofAscii (Char.ofNat n)) = true ∧ digit (ofAscii (Char.ofNat n)) = n - '0'.toNat := by decide
  have hc : 48 ≤ c.toNat ∧ c.toNat ≤ 57 := by
    simp only [Char.isDigit, Bool.and_eq_true, decide_eq_true_eq] at h
    exact h
  have := all c.toNat (by omega) hc.1
  rwa [Char.ofNat_toNat] at this

/-- The octets of a numeral, as the reader of digits takes them. -/
theorem digits_numeral {cs : List Char} {n : Nat} (h : Numeral cs n) {rest : Octets} (hrest : Ends rest) :
    digits (cs.map ofAscii ++ rest) = (cs.map fun c => c.toNat - '0'.toNat, rest) := by
  have hall : ∀ b ∈ cs.map ofAscii, isDigit b = true := by
    intro b hb
    obtain ⟨c, hc, rfl⟩ := List.mem_map.1 hb
    exact (digit_ofAscii (h.digits c hc)).1
  have hstop : rest.takeWhile isDigit = [] ∧ rest.dropWhile isDigit = rest := by
    obtain rfl | ⟨b, rest, rfl, hb, -⟩ := hrest.cases
    · exact ⟨rfl, rfl⟩
    · have hb' : ¬ isDigit b = true := by rw [hb]; exact Bool.false_ne_true
      exact ⟨List.takeWhile_cons_of_neg hb', List.dropWhile_cons_of_neg hb'⟩
  rw [digits, List.takeWhile_append_of_pos hall, List.dropWhile_append_of_pos hall, hstop.1, hstop.2, List.append_nil, List.map_map]
  congr 1
  exact List.map_congr_left fun c hc => (digit_ofAscii (h.digits c hc)).2

/-- Digits are only ever appended to a significand. -/
theorem le_foldl_digits (ds : List Nat) (sig : Nat) : sig ≤ ds.foldl (fun n d => n * 10 + d) sig := by
  induction ds generalizing sig with
  | nil => exact Nat.le_refl sig
  | cons d ds ih => exact Nat.le_trans (by omega) (ih (sig * 10 + d))

/-- The digits of a number that fits are all kept. -/
theorem gather_eq (ds : List Nat) (sig : Nat) (h : ds.foldl (fun n d => n * 10 + d) sig ≤ greatestWhole) :
    gather sig ds = (ds.foldl (fun n d => n * 10 + d) sig, ds.length, []) := by
  induction ds generalizing sig with
  | nil => rfl
  | cons d ds ih =>
    have hfits : sig * 10 + d ≤ greatestWhole := Nat.le_trans (le_foldl_digits ds _) h
    rw [gather, if_pos hfits, ih _ h]
    rfl

/-- A significand stays within 64 bits. -/
theorem gather_le (ds : List Nat) {sig : Nat} (h : sig ≤ greatestWhole) : (gather sig ds).1 ≤ greatestWhole := by
  induction ds generalizing sig with
  | nil => exact h
  | cons d ds ih =>
    rw [gather]
    split
    · exact ih ‹_›
    · exact h

/-- No number is written with a zero in front of other digits. -/
theorem tail_eq_nil_of_zero {n : Nat} {c : Char} {cs : List Char} (h : Nat.toDigits 10 n = c :: cs)
    (hzero : c.toNat - '0'.toNat = 0) : cs = [] := by
  cases cs with
  | nil => rfl
  | cons d ds =>
    have hn := Numeral.toDigits n
    rw [h] at hn
    have hvalue : Nat.ofDigitChars 10 (d :: ds) 0 = n := by
      have := hn.value
      rwa [Nat.ofDigitChars_cons, hzero] at this
    have hlt := Numeral.ofDigitChars_lt (d :: ds) (fun e he => hn.digits e (List.mem_cons_of_mem _ he)) 0
    rw [hvalue, Nat.zero_add, Nat.one_mul] at hlt
    have := (Nat.length_toDigits_le_iff (b := 10) (by decide) (by simp)).2 hlt
    rw [h, List.length_cons] at this
    omega

/-- A number is read back from its digits, after its sign. -/
theorem unsignedNumber_toDigits (negative : Bool) {n : Nat} (hn : n ≤ greatestWhole) {rest : Octets} (hrest : Ends rest) :
    unsignedNumber negative ((Nat.toDigits 10 n).map ofAscii ++ rest) = .ok (wholeNumber negative n, rest) := by
  have hnumeral := Numeral.toDigits n
  have hvalue : ((Nat.toDigits 10 n).map fun c => c.toNat - '0'.toNat).foldl (fun n d => n * 10 + d) 0 = n := by
    have := hnumeral.value
    rw [Nat.ofDigitChars_eq_foldl] at this
    simpa only [List.foldl_map, Nat.mul_comm] using this
  obtain ⟨c, cs, hcs⟩ := List.exists_cons_of_ne_nil hnumeral.ne_nil
  have hgather := gather_eq ((Nat.toDigits 10 n).map fun c => c.toNat - '0'.toNat) 0 (by rw [hvalue]; exact hn)
  rw [hvalue, hcs, List.map_cons] at hgather
  have hzero : ¬ (c.toNat - '0'.toNat = 0 ∧ cs.map (fun c => c.toNat - '0'.toNat) ≠ []) := fun hz =>
    hz.2 (by rw [tail_eq_nil_of_zero hcs hz.1]; rfl)
  rw [unsignedNumber, digits_numeral hnumeral hrest, hcs, List.map_cons]
  simp only [if_neg hzero, hgather]
  obtain rfl | ⟨b, rest, rfl, -, hpoint, hexponent⟩ := hrest.cases
  · rfl
  · simp only [if_neg hpoint, hexponent, List.isEmpty_nil, Option.isNone_none, and_self, if_true]

/-- Whole numbers that are kept as such fit 64 bits, signed or unsigned. -/
def FitsWhole (n : Int) : Prop := -0x8000000000000000 ≤ n ∧ n ≤ 0xffffffffffffffff

/-- The octets of the digits of a number. -/
theorem flatMap_toDigits (n : Nat) : (Nat.toDigits 10 n).flatMap String.utf8EncodeChar = (Nat.toDigits 10 n).map ofAscii := by
  refine Utf8.flatMap_ascii fun c hc => ?_
  have hd := (Numeral.toDigits n).digits c hc
  simp only [Char.isDigit, Bool.and_eq_true, decide_eq_true_eq] at hd
  have h9 : c.toNat ≤ 57 := hd.2
  omega

/-- A whole number that is not negative is its digits. -/
theorem encode_renderInt_of_nonneg {n : Int} (h : 0 ≤ n) :
    Utf8.encode (renderInt n) = (Nat.toDigits 10 n.natAbs).map ofAscii := by
  rw [Utf8.encode, Numeral.toList_renderInt_of_nonneg h, flatMap_toDigits]

/-- A negative number is a hyphen and digits. -/
theorem encode_renderInt_of_neg {n : Int} (h : n < 0) :
    Utf8.encode (renderInt n) = ofAscii '-' :: (Nat.toDigits 10 n.natAbs).map ofAscii := by
  rw [Utf8.encode, Numeral.toList_renderInt_of_neg h, List.flatMap_cons, flatMap_toDigits, Utf8.encodeChar_ascii (by decide)]
  rfl

/-- The first octet of a number is a digit. -/
theorem exists_digit_octet (n : Nat) : ∃ b rest, (Nat.toDigits 10 n).map ofAscii = b :: rest ∧ isDigit b = true := by
  obtain ⟨c, cs, hcs⟩ := List.exists_cons_of_ne_nil (Numeral.toDigits n).ne_nil
  have hd := (Numeral.toDigits n).digits c (by rw [hcs]; exact List.mem_cons_self)
  exact ⟨ofAscii c, cs.map ofAscii, by rw [hcs]; rfl, (digit_ofAscii hd).1⟩

/-- A whole number is read back. -/
theorem readNumber_renderInt {n : Int} (hn : FitsWhole n) {rest : Octets} (hrest : Ends rest) :
    readNumber (Utf8.encode (renderInt n) ++ rest) = .ok (.int n, rest) := by
  obtain ⟨hlow, hhigh⟩ := hn
  have hgreatest : greatestWhole = 0xffffffffffffffff := rfl
  rcases Int.lt_or_le n 0 with hneg | hneg
  · rw [encode_renderInt_of_neg hneg, List.cons_append]
    simp only [readNumber, if_true]
    rw [unsignedNumber_toDigits true (by omega) hrest, wholeNumber]
    simp only [Bool.not_true, Bool.false_eq_true, if_false]
    rw [if_pos (by omega), show -(n.natAbs : Int) = n by omega]
  · obtain ⟨b, ds, hds, hb⟩ := exists_digit_octet n.natAbs
    have hhyphen : b ≠ ofAscii '-' := fun he => absurd hb (by rw [he]; decide)
    have hread := unsignedNumber_toDigits false (n := n.natAbs) (by omega) hrest
    rw [encode_renderInt_of_nonneg hneg, hds, List.cons_append]
    rw [hds, List.cons_append] at hread
    simp only [readNumber, if_neg hhyphen]
    rw [hread, wholeNumber, Bool.not_false, if_pos rfl, show (n.natAbs : Int) = n by omega]

/-- A number with an exponent is no whole number. -/
theorem finishFloat_ne_int {negative : Bool} {sig : Nat} {e : Int} {s rest : Octets} {n : Int} :
    finishFloat negative sig e s ≠ .ok (.int n, rest) := by
  intro h
  unfold finishFloat at h
  split at h <;> obtain ⟨⟨e', s'⟩, -, h⟩ := bind_eq_ok.1 h <;> dsimp only at h <;> split at h <;> cases h

/-- A whole number that was gathered within 64 bits fits. -/
theorem fitsWhole_of_wholeNumber {negative : Bool} {sig : Nat} {n : Int} (hsig : sig ≤ greatestWhole)
    (h : wholeNumber negative sig = .int n) : FitsWhole n := by
  have hgreatest : greatestWhole = 0xffffffffffffffff := rfl
  unfold wholeNumber at h
  simp only [FitsWhole]
  split at h
  · simp only [Number.int.injEq] at h
    omega
  split at h
  · simp only [Number.int.injEq] at h
    omega
  · cases h

/-- The whole numbers that are read fit. -/
theorem fitsWhole_of_readNumber {s rest : Octets} {n : Int} (h : readNumber s = .ok (.int n, rest)) : FitsWhole n := by
  have hunsigned : ∀ negative s, unsignedNumber negative s = .ok (.int n, rest) → FitsWhole n := by
    intro negative s h
    unfold unsignedNumber at h
    split at h
    · cases h
    · cases h
    split at h
    · cases h
    rename_i d ds rest' _ _
    have hsig : (gather 0 (d :: ds)).1 ≤ greatestWhole := gather_le _ (Nat.zero_le _)
    dsimp only at h
    split at h
    · split at h
      · unfold fractionPart at h
        split at h
        · cases h
        · cases h
        · exact absurd h finishFloat_ne_int
      split at h
      · simp only [Except.ok.injEq, Prod.mk.injEq] at h
        exact fitsWhole_of_wholeNumber hsig h.1
      · exact absurd h finishFloat_ne_int
    · split at h
      · simp only [Except.ok.injEq, Prod.mk.injEq] at h
        exact fitsWhole_of_wholeNumber hsig h.1
      · exact absurd h finishFloat_ne_int
  unfold readNumber at h
  split at h
  · split at h
    · exact hunsigned true _ h
    · exact hunsigned false _ h
  · cases h

end AuditTrail.Json
