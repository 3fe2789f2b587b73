import AuditTrail.Proofs.Json.Numbers

/-!
# Tokens that are taken

Whatever the readers of names, strings and numbers take from the front of a text is the body of a string (`TakesBody`) or a number
(`IsNumber`), whether they keep it or skip it.
-/

namespace AuditTrail.Json

open Octets (ofAscii isDigit digit)
open Outcome

/-! ## Blanks and words -/

theorem forall_mem_takeWhile {α : Type} (p : α → Bool) (l : List α) : ∀ a ∈ l.takeWhile p, p a = true :=
  List.all_eq_true.1 List.all_takeWhile

/-- Leading blanks are split off. -/
theorem exists_blanks (s : Octets) : ∃ b : Blanks, s = b.1 ++ skipBlank s :=
  ⟨⟨s.takeWhile isBlank, forall_mem_takeWhile isBlank s⟩, List.takeWhile_append_dropWhile.symm⟩

/-- Before the first octet that is no blank stand blanks. -/
theorem exists_front {b : UInt8} {s t : Octets} (h : skipBlank s = b :: t) : ∃ before : Blanks, s = before.1 ++ b :: t := by
  obtain ⟨before, hs⟩ := exists_blanks s
  exact ⟨before, h ▸ hs⟩

/-- Blanks after blanks. -/
def Blanks.append (b c : Blanks) : Blanks := ⟨b.1 ++ c.1, fun x hx => (List.mem_append.1 hx).elim (b.2 x) (c.2 x)⟩

theorem eq_append_of_word {w s rest : Octets} {u : Unit} (h : word w s = .ok (u, rest)) : s = w ++ rest := by
  induction w generalizing s with
  | nil =>
    cases h
    rfl
  | cons a w ih =>
    cases s with
    | nil => cases h
    | cons b s =>
      rw [word] at h
      split at h
      · rename_i hab
        rw [hab, ih h, List.cons_append]
      · cases h

theorem exists_gap_of_colon {s rest : Octets} {u : Unit} (h : colon s = .ok (u, rest)) :
    ∃ gap : Blanks, s = gap.1 ++ ofAscii ':' :: rest := by
  rw [colon] at h
  split at h
  · cases h
  · rename_i b t hfront
    obtain ⟨gap, hs⟩ := exists_front hfront
    split at h
    · rename_i hb
      cases h
      exact ⟨gap, hb ▸ hs⟩
    · cases h

/-! ## Strings -/

theorem exists_hex_of_hexFour {s rest : Octets} {n : Nat} (h : hexFour s = .ok (n, rest)) :
    ∃ w x y z, s = w :: x :: y :: z :: rest ∧ IsHex w ∧ IsHex x ∧ IsHex y ∧ IsHex z := by
  unfold hexFour at h
  split at h
  · split at h
    · rename_i hw hx hy hz
      cases h
      exact ⟨_, _, _, _, rfl, isHex_of_hexDigit? hw, isHex_of_hexDigit? hx, isHex_of_hexDigit? hy, isHex_of_hexDigit? hz⟩
    · cases h
  · cases h

/-- Octets that make an escape, or two, with a backslash before them. -/
def Escapes (e : Octets) : Prop := ∀ body, IsBody body → IsBody (ofAscii '\\' :: (e ++ body))

theorem escapes_letter {b c : UInt8} (h : simpleEscape? b = some c) : Escapes [b] :=
  fun _ hbody => .letter (mem_of_simpleEscape? h) hbody

theorem escapes_code {w x y z : UInt8} (hw : IsHex w) (hx : IsHex x) (hy : IsHex y) (hz : IsHex z) :
    Escapes (ofAscii 'u' :: [w, x, y, z]) :=
  fun _ hbody => .code hw hx hy hz hbody

theorem exists_escape_of_skipEscape {s x rest : Octets} (h : skipEscape s = .ok (x, rest)) : ∃ e, s = e ++ rest ∧ Escapes e := by
  unfold skipEscape at h
  split at h
  · cases h
  split at h
  · rename_i hb
    cases h
    exact ⟨_, rfl, escapes_letter hb⟩
  split at h
  · cases h
  · rename_i hu
    obtain ⟨⟨n, s₁⟩, hcode, heq⟩ := map_eq_ok.1 h
    cases heq
    obtain ⟨w, x, y, z, rfl, hw, hx, hy, hz⟩ := exists_hex_of_hexFour hcode
    rw [Decidable.not_not.1 hu]
    exact ⟨_, rfl, escapes_code hw hx hy hz⟩

/-- The second half of a pair is the escape of a code. -/
theorem exists_escape_of_lowSurrogate {high : Nat} {s x rest : Octets} (h : lowSurrogate high s = .ok (x, rest)) :
    ∃ e, s = ofAscii '\\' :: (e ++ rest) ∧ Escapes e := by
  unfold lowSurrogate at h
  split at h
  · cases h
  split at h
  · cases h
  rename_i hbackslash
  split at h
  · cases h
  split at h
  · cases h
  rename_i hu
  obtain ⟨⟨n, s₁⟩, hcode, hlow⟩ := bind_eq_ok.1 h
  obtain ⟨w, x, y, z, hs, hw, hx, hy, hz⟩ := exists_hex_of_hexFour hcode
  dsimp only at hlow
  split at hlow
  · obtain ⟨-, rfl⟩ := Prod.mk.inj (Except.ok.inj hlow)
    rw [Decidable.not_not.1 hbackslash, Decidable.not_not.1 hu, hs]
    exact ⟨_, rfl, escapes_code hw hx hy hz⟩
  · cases hlow

theorem exists_escape_of_escape {s x rest : Octets} (h : escape s = .ok (x, rest)) : ∃ e, s = e ++ rest ∧ Escapes e := by
  unfold escape at h
  split at h
  · cases h
  split at h
  · rename_i hb
    cases h
    exact ⟨_, rfl, escapes_letter hb⟩
  split at h
  · cases h
  rename_i hu
  obtain ⟨⟨n, s₁⟩, hcode, hrest⟩ := bind_eq_ok.1 h
  obtain ⟨w, x, y, z, hs, hw, hx, hy, hz⟩ := exists_hex_of_hexFour hcode
  have hfirst := escapes_code hw hx hy hz
  rw [Decidable.not_not.1 hu, hs]
  dsimp only at hrest
  split at hrest
  · cases hrest
  split at hrest
  · obtain ⟨e, rfl, he⟩ := exists_escape_of_lowSurrogate hrest
    refine ⟨ofAscii 'u' :: [w, x, y, z] ++ ofAscii '\\' :: e, by simp only [List.cons_append, List.nil_append], ?_⟩
    intro body hbody
    rw [List.append_assoc, List.cons_append]
    exact hfirst _ (he body hbody)
  · cases hrest
    exact ⟨_, rfl, hfirst⟩

/-- What is read of a string is its body and its closing quote. -/
theorem exists_body_of_stringOctets {esc : Reader Octets}
    (hesc : ∀ {s x rest}, esc s = .ok (x, rest) → ∃ e, s = e ++ rest ∧ Escapes e) {bound : Nat} {s o rest : Octets}
    (h : stringOctets esc bound s = .ok (o, rest)) : ∃ body, IsBody body ∧ s = body ++ ofAscii '\x22' :: rest := by
  induction bound generalizing s o with
  | zero => cases h
  | succ bound ih =>
    cases s with
    | nil => cases h
    | cons b s =>
      rw [stringOctets] at h
      split at h
      · rename_i hquote
        cases h
        exact ⟨[], .nil, by rw [hquote, List.nil_append]⟩
      rename_i hquote
      split at h
      · rename_i hbackslash
        obtain ⟨⟨x, s₁⟩, hescape, h⟩ := bind_eq_ok.1 h
        obtain ⟨⟨y, s₂⟩, hread, h⟩ := bind_eq_ok.1 h
        cases h
        obtain ⟨e, rfl, he⟩ := hesc hescape
        obtain ⟨body, hbody, rfl⟩ := ih hread
        exact ⟨_, he body hbody, by rw [hbackslash, List.cons_append, List.append_assoc]⟩
      rename_i hbackslash
      split at h
      · cases h
      rename_i hcontrol
      obtain ⟨⟨y, s₂⟩, hread, h⟩ := bind_eq_ok.1 h
      cases h
      obtain ⟨body, hbody, rfl⟩ := ih hread
      exact ⟨_, .plain hquote hbackslash (UInt8.not_lt.1 hcontrol) hbody, rfl⟩

/-- A reader takes the body of a string and its closing quote. -/
def TakesBody {κ : Type} (name : Reader κ) : Prop :=
  ∀ ⦃s k rest⦄, name s = .ok (k, rest) → ∃ body, IsBody body ∧ s = body ++ ofAscii '\x22' :: rest

theorem takesBody_stringBody : TakesBody stringBody := by
  intro s t rest h
  obtain ⟨⟨o, s₁⟩, hread, h⟩ := bind_eq_ok.1 h
  dsimp only at h
  split at h
  · cases h
    exact exists_body_of_stringOctets exists_escape_of_escape hread
  · cases h

theorem takesBody_skipStringBody : TakesBody skipStringBody := by
  intro s u rest h
  obtain ⟨⟨o, s₁⟩, hread, h⟩ := bind_eq_ok.1 h
  cases h
  exact exists_body_of_stringOctets exists_escape_of_skipEscape hread

/-! ## Numbers -/

/-- The digits at the front of a text. -/
theorem exists_digits (s : Octets) : ∃ ds, s = ds ++ (digits s).2 ∧ (∀ b ∈ ds, isDigit b = true) ∧ (digits s).1 = ds.map digit :=
  ⟨s.takeWhile isDigit, List.takeWhile_append_dropWhile.symm, forall_mem_takeWhile isDigit s, rfl⟩

/-- Digits that are read are there. -/
theorem exists_isDigits {s rest : Octets} {n : Nat} {ns : List Nat} (h : digits s = (n :: ns, rest)) :
    ∃ ds, IsDigits ds ∧ s = ds ++ rest ∧ ds.map digit = n :: ns := by
  obtain ⟨ds, hs, hall, hmap⟩ := exists_digits s
  rw [h] at hs hmap
  refine ⟨ds, ⟨?_, hall⟩, hs, hmap.symm⟩
  rintro rfl
  cases hmap

/-- Digits of which only zero itself begins with one are those of a whole number. -/
theorem exists_isWhole {s rest : Octets} {n : Nat} {ns : List Nat} (h : digits s = (n :: ns, rest)) (hzero : ¬ (n = 0 ∧ ns ≠ [])) :
    ∃ whole, IsWhole whole ∧ s = whole ++ rest := by
  obtain ⟨ds, hds, hs, hmap⟩ := exists_isDigits h
  refine ⟨ds, ⟨hds, fun hhead => ?_⟩, hs⟩
  cases ds with
  | nil => cases hhead
  | cons d ds =>
    cases hhead
    obtain ⟨hn, hns⟩ := List.cons.inj hmap
    cases ds with
    | nil => rfl
    | cons c ds => exact absurd ⟨hn.symm.trans (by decide), hns ▸ List.cons_ne_nil _ _⟩ hzero

theorem exists_isDigits_of_skipDigits {s rest : Octets} {u : Unit} (h : skipDigits s = .ok (u, rest)) :
    ∃ ds, IsDigits ds ∧ s = ds ++ rest := by
  rw [skipDigits] at h
  cases hs : digits s with
  | mk ns t =>
    rw [hs] at h
    cases ns with
    | nil => cases h
    | cons n ns =>
      cases h
      obtain ⟨ds, hds, heq, -⟩ := exists_isDigits hs
      exact ⟨ds, hds, heq⟩

theorem exists_of_exponentFollows {s t : Octets} (h : exponentFollows s = some t) :
    ∃ e, (e = ofAscii 'e' ∨ e = ofAscii 'E') ∧ s = e :: t := by
  cases s with
  | nil => cases h
  | cons e s =>
    rw [exponentFollows] at h
    split at h
    · rename_i he
      cases h
      exact ⟨e, he, rfl⟩
    · cases h

/-- An exponent that is skipped is one, or none. -/
theorem exists_isExponent_of_skip {s rest : Octets} {u : Unit} (h : skipExponent s = .ok (u, rest)) :
    ∃ exponent, IsExponent exponent ∧ s = exponent ++ rest := by
  rw [skipExponent] at h
  split at h
  · rename_i b t hfollows
    obtain ⟨e, he, rfl⟩ := exists_of_exponentFollows hfollows
    split at h
    · rename_i hsign
      obtain ⟨ds, hds, rfl⟩ := exists_isDigits_of_skipDigits h
      exact ⟨_, .digits he (.inr (hsign.imp (congrArg (· :: [])) (congrArg (· :: [])))) hds, rfl⟩
    · obtain ⟨ds, hds, hs⟩ := exists_isDigits_of_skipDigits h
      exact ⟨_, .digits he (.inl rfl) hds, by rw [hs, List.nil_append, List.cons_append]⟩
  · cases h
  · cases h
    exact ⟨[], .none, rfl⟩

/-- A text without its sign. -/
def unsigned (s : Octets) : Octets :=
  match s with
  | b :: rest => if b = ofAscii '-' then rest else s
  | [] => s

theorem exists_sign (s : Octets) : ∃ sign, (sign = [] ∨ sign = [ofAscii '-']) ∧ s = sign ++ unsigned s := by
  cases s with
  | nil => exact ⟨[], .inl rfl, rfl⟩
  | cons b s =>
    by_cases hb : b = ofAscii '-'
    · exact ⟨[ofAscii '-'], .inr rfl, by rw [unsigned, if_pos hb, hb, List.singleton_append]⟩
    · exact ⟨[], .inl rfl, by rw [unsigned, if_neg hb, List.nil_append]⟩

/-- A number that is skipped is one. -/
theorem exists_isNumber_of_skipNumber {s rest : Octets} {u : Unit} (h : skipNumber s = .ok (u, rest)) :
    ∃ v, IsNumber v ∧ s = v ++ rest := by
  obtain ⟨sign, hsign, hs⟩ := exists_sign s
  unfold skipNumber at h
  dsimp only at h
  split at h
  · cases h
  rename_i m ms t hdigits
  split at h
  · cases h
  rename_i hzero
  obtain ⟨whole, hwhole, hunsigned⟩ := exists_isWhole (s := unsigned s) hdigits hzero
  have hnumber : ∀ {fraction r : Octets}, IsFraction fraction → t = fraction ++ r → skipExponent r = .ok (u, rest) →
      ∃ v, IsNumber v ∧ s = v ++ rest := by
    intro fraction r hfraction ht hskip
    obtain ⟨exponent, hexponent, rfl⟩ := exists_isExponent_of_skip hskip
    refine ⟨_, .parts hsign hwhole hfraction hexponent, hs.trans ?_⟩
    simp only [hunsigned, ht, List.append_assoc]
  simp only [ok_bind] at h
  split at h
  · split at h
    · rename_i hpoint
      obtain ⟨⟨u', r⟩, hfraction, hexponent⟩ := bind_eq_ok.1 h
      obtain ⟨ds, hds, rfl⟩ := exists_isDigits_of_skipDigits hfraction
      exact hnumber (.digits hds) (by rw [hpoint, List.cons_append]) hexponent
    · exact hnumber .none rfl h
  · exact hnumber .none rfl h

theorem exists_of_exponentPart {s rest : Octets} {e : Int} (h : exponentPart s = .ok (e, rest)) :
    ∃ sign ds, (sign = [] ∨ sign = [ofAscii '+'] ∨ sign = [ofAscii '-']) ∧ IsDigits ds ∧ s = sign ++ (ds ++ rest) := by
  unfold exponentPart at h
  dsimp only at h
  split at h
  · cases h
  · cases h
  rename_i ns t hnil hcons hdigits
  cases h
  cases ns with
  | nil =>
    cases rest with
    | nil => exact absurd rfl (hnil rfl)
    | cons b t => exact absurd rfl (hcons b t rfl)
  | cons m ms =>
    obtain ⟨ds, hds, hs, -⟩ := exists_isDigits hdigits
    cases s with
    | nil => exact ⟨[], ds, .inl rfl, hds, hs⟩
    | cons b s =>
      dsimp only at hs
      split at hs
      · rename_i hb
        exact ⟨_, ds, .inr (.inr rfl), hds, by rw [hb, ← hs, List.singleton_append]⟩
      split at hs
      · rename_i hb
        exact ⟨_, ds, .inr (.inl rfl), hds, by rw [hb, ← hs, List.singleton_append]⟩
      · exact ⟨[], ds, .inl rfl, hds, hs⟩

/-- The end of a binary64 number is an exponent, or none. -/
theorem exists_isExponent_of_finishFloat {negative : Bool} {sig : Nat} {e : Int} {s rest : Octets} {n : Number}
    (h : finishFloat negative sig e s = .ok (n, rest)) : ∃ exponent, IsExponent exponent ∧ s = exponent ++ rest := by
  unfold finishFloat at h
  dsimp only at h
  split at h
  · rename_i t hfollows
    obtain ⟨⟨e', s₁⟩, hexponent, hfinish⟩ := bind_eq_ok.1 h
    obtain ⟨⟨x, s₂⟩, hpart, heq⟩ := map_eq_ok.1 hexponent
    cases heq
    dsimp only at hfinish
    split at hfinish
    · cases hfinish
      obtain ⟨c, hc, hs⟩ := exists_of_exponentFollows hfollows
      obtain ⟨sign, ds, hsign, hds, ht⟩ := exists_of_exponentPart hpart
      exact ⟨_, .digits hc hsign hds, by rw [hs, ht, List.cons_append, List.append_assoc]⟩
    · cases hfinish
  · simp only [ok_bind] at h
    split at h
    · cases h
      exact ⟨[], .none, rfl⟩
    · cases h

theorem exists_of_fractionPart {negative : Bool} {sig : Nat} {e : Int} {s rest : Octets} {n : Number}
    (h : fractionPart negative sig e s = .ok (n, rest)) :
    ∃ ds exponent, IsDigits ds ∧ IsExponent exponent ∧ s = ds ++ (exponent ++ rest) := by
  unfold fractionPart at h
  split at h
  · cases h
  · cases h
  · rename_i ns t hnil hcons hdigits
    cases ns with
    | nil =>
      cases t with
      | nil => exact absurd rfl (hnil rfl)
      | cons b t => exact absurd rfl (hcons b t rfl)
    | cons m ms =>
      obtain ⟨ds, hds, rfl, -⟩ := exists_isDigits hdigits
      obtain ⟨exponent, hexponent, rfl⟩ := exists_isExponent_of_finishFloat h
      exact ⟨ds, exponent, hds, hexponent, rfl⟩

theorem exists_of_unsignedNumber {negative : Bool} {s rest : Octets} {n : Number} (h : unsignedNumber negative s = .ok (n, rest)) :
    ∃ whole fraction exponent, IsWhole whole ∧ IsFraction fraction ∧ IsExponent exponent ∧
      s = whole ++ (fraction ++ (exponent ++ rest)) := by
  unfold unsignedNumber at h
  split at h
  · cases h
  · cases h
  · rename_i m ms t hdigits
    split at h
    · cases h
    rename_i hzero
    obtain ⟨whole, hwhole, rfl⟩ := exists_isWhole hdigits hzero
    have hnumber : ∀ {negative : Bool} {sig : Nat} {e : Int}, finishFloat negative sig e t = .ok (n, rest) →
        ∃ fraction exponent, IsFraction fraction ∧ IsExponent exponent ∧ t = fraction ++ (exponent ++ rest) := by
      intro _ _ _ h
      obtain ⟨exponent, hexponent, ht⟩ := exists_isExponent_of_finishFloat h
      exact ⟨[], exponent, .none, hexponent, ht⟩
    suffices hrest : ∃ fraction exponent, IsFraction fraction ∧ IsExponent exponent ∧ t = fraction ++ (exponent ++ rest) by
      obtain ⟨fraction, exponent, hfraction, hexponent, rfl⟩ := hrest
      exact ⟨whole, fraction, exponent, hwhole, hfraction, hexponent, rfl⟩
    dsimp only at h
    split at h
    · split at h
      · rename_i hpoint
        obtain ⟨ds, exponent, hds, hexponent, rfl⟩ := exists_of_fractionPart h
        exact ⟨_, exponent, .digits hds, hexponent, by rw [hpoint, List.cons_append]⟩
      split at h
      · cases h
        exact ⟨[], [], .none, .none, rfl⟩
      · exact hnumber h
    · split at h
      · cases h
        exact ⟨[], [], .none, .none, rfl⟩
      · exact hnumber h

/-- A number that is kept is one. -/
theorem exists_isNumber_of_readNumber {s rest : Octets} {n : Number} (h : readNumber s = .ok (n, rest)) :
    ∃ v, IsNumber v ∧ s = v ++ rest := by
  have hsigned : ∀ {sign t : Octets} {negative : Bool}, (sign = [] ∨ sign = [ofAscii '-']) → s = sign ++ t →
      unsignedNumber negative t = .ok (n, rest) → ∃ v, IsNumber v ∧ s = v ++ rest := by
    intro sign t negative hsign hs h
    obtain ⟨whole, fraction, exponent, hwhole, hfraction, hexponent, rfl⟩ := exists_of_unsignedNumber h
    exact ⟨_, .parts hsign hwhole hfraction hexponent, by simp only [hs, List.append_assoc]⟩
  unfold readNumber at h
  split at h
  · split at h
    · rename_i hminus
      exact hsigned (.inr rfl) (by rw [hminus]; rfl) h
    · exact hsigned (.inl rfl) rfl h
  · cases h

end AuditTrail.Json
