import AuditTrail.Proofs.Json.Grammar

/-!
# Numbers by their grammar

What a reader makes of a number hangs on its own digits alone: on what is gathered of them, and on the exponent. A number that is not
kept is passed over, however long it is.
-/

namespace AuditTrail.Json

open Octets (ofAscii isDigit digit)
open Outcome

/-- What follows does not go on with a digit. -/
def NoDigit (s : Octets) : Prop := ∀ b ∈ s.head?, isDigit b = false

theorem ne_of_isDigit {b c : UInt8} (hb : isDigit b = true) (hc : isDigit c = false) : b ≠ c := by
  rintro rfl
  exact Bool.false_ne_true (hc.symm.trans hb)

/-- A run of digits is read up to its end. -/
theorem digits_append {ds t : Octets} (h : IsDigits ds) (ht : NoDigit t) : digits (ds ++ t) = (ds.map digit, t) := by
  have hstop : t.takeWhile isDigit = [] ∧ t.dropWhile isDigit = t := by
    cases t with
    | nil => exact ⟨rfl, rfl⟩
    | cons b t =>
      have hb : ¬ isDigit b = true := by rw [ht b rfl]; exact Bool.false_ne_true
      exact ⟨List.takeWhile_cons_of_neg hb, List.dropWhile_cons_of_neg hb⟩
  rw [digits, List.takeWhile_append_of_pos h.2, List.dropWhile_append_of_pos h.2, hstop.1, hstop.2, List.append_nil]

theorem Stops.noDigit {rest : Octets} (h : Stops rest) : NoDigit rest := by
  cases rest with
  | nil => exact nofun
  | cons b rest =>
    intro c hc
    cases hc
    exact h.octet.1

theorem exponentFollows_of_stops {rest : Octets} (h : Stops rest) : exponentFollows rest = none := by
  cases rest with
  | nil => rfl
  | cons b rest => exact if_neg (not_or.2 ⟨h.octet.2.2.1, h.octet.2.2.2⟩)

theorem IsExponent.noDigit {exponent rest : Octets} (h : IsExponent exponent) (hrest : Stops rest) : NoDigit (exponent ++ rest) := by
  cases h with
  | none => exact hrest.noDigit
  | digits he =>
    intro c hc
    cases hc
    rcases he with rfl | rfl <;> decide

/-- An exponent does not begin with a point, nor does what follows it. -/
theorem IsExponent.noPoint {exponent rest : Octets} (h : IsExponent exponent) (hrest : Stops rest) :
    ∀ b ∈ (exponent ++ rest).head?, b ≠ ofAscii '.' := by
  cases h with
  | none =>
    intro b hb
    cases rest with
    | nil => cases hb
    | cons c rest =>
      cases hb
      exact hrest.octet.2.1
  | digits he =>
    intro b hb
    cases hb
    rcases he with rfl | rfl <;> decide

theorem IsFraction.noDigit {fraction exponent rest : Octets} (h : IsFraction fraction) (hexponent : IsExponent exponent)
    (hrest : Stops rest) : NoDigit (fraction ++ (exponent ++ rest)) := by
  cases h with
  | none => exact hexponent.noDigit hrest
  | digits =>
    intro c hc
    cases hc
    decide

/-- What comes of a number that is there before some rest. -/
def settled (o : Option Number) (rest : Octets) : Except Fault (Number × Octets) :=
  match o with
  | some n => .ok (n, rest)
  | none => .error .malformed

/-- The number of an exponent does not hang on what follows it. -/
theorem exponentPart_digits {sign ds : Octets} (hsign : sign = [] ∨ sign = [ofAscii '+'] ∨ sign = [ofAscii '-']) (h : IsDigits ds) :
    ∃ e, ∀ rest, Stops rest → exponentPart (sign ++ (ds ++ rest)) = .ok (e, rest) := by
  obtain ⟨hne, hall⟩ := h
  cases ds with
  | nil => exact absurd rfl hne
  | cons d ds =>
    have hd := hall d List.mem_cons_self
    have hdigits : ∀ rest, Stops rest → digits (d :: (ds ++ rest)) = ((d :: ds).map digit, rest) :=
      fun rest hrest => digits_append ⟨hne, hall⟩ hrest.noDigit
    let n : Nat := ((d :: ds).map digit).foldl (fun n d => n * 10 + d) 0
    rcases hsign with rfl | rfl | rfl
    · refine ⟨n, fun rest hrest => ?_⟩
      simp only [exponentPart, List.nil_append, List.cons_append, if_neg (ne_of_isDigit hd (show isDigit (ofAscii '-') = false by decide)),
        if_neg (ne_of_isDigit hd (show isDigit (ofAscii '+') = false by decide)), hdigits rest hrest, List.map_cons]
      rfl
    · refine ⟨n, fun rest hrest => ?_⟩
      simp only [exponentPart, List.nil_append, List.cons_append, if_neg (show ofAscii '+' ≠ ofAscii '-' by decide), if_true,
        hdigits rest hrest, List.map_cons]
      rfl
    · refine ⟨-n, fun rest hrest => ?_⟩
      simp only [exponentPart, List.nil_append, List.cons_append, if_true, hdigits rest hrest, List.map_cons]
      rfl

/-- A binary64 number with the exponent that is written after its digits. -/
theorem finishFloat_exponent {exponent : Octets} (h : IsExponent exponent) (negative : Bool) (sig : Nat) (e : Int) :
    ∃ o, ∀ rest, Stops rest → finishFloat negative sig e (exponent ++ rest) = settled o rest := by
  cases h with
  | none =>
    refine ⟨(floatOf negative sig e).map .float, fun rest hrest => ?_⟩
    rw [List.nil_append, finishFloat, exponentFollows_of_stops hrest]
    simp only [ok_bind]
    cases floatOf negative sig e <;> rfl
  | @digits c sign ds hc hsign hds =>
    obtain ⟨n, hn⟩ := exponentPart_digits hsign hds
    refine ⟨(floatOf negative sig (e + n)).map .float, fun rest hrest => ?_⟩
    have hfollows : exponentFollows (c :: (sign ++ ds) ++ rest) = some (sign ++ (ds ++ rest)) := by
      rw [List.cons_append, List.append_assoc, exponentFollows, if_pos hc]
    rw [finishFloat, hfollows]
    simp only [hn rest hrest, map_ok, ok_bind]
    cases floatOf negative sig (e + n) <;> rfl

/-- The digits after a point, with an exponent that may follow them. -/
theorem fractionPart_digits {ds exponent : Octets} (hds : IsDigits ds) (h : IsExponent exponent) (negative : Bool) (sig : Nat) (e : Int) :
    ∃ o, ∀ rest, Stops rest → fractionPart negative sig e (ds ++ (exponent ++ rest)) = settled o rest := by
  have hdigits : ∀ rest, Stops rest → digits (ds ++ (exponent ++ rest)) = (ds.map digit, exponent ++ rest) :=
    fun rest hrest => digits_append hds (h.noDigit hrest)
  cases ds with
  | nil => exact absurd rfl hds.1
  | cons d ds =>
    obtain ⟨o, ho⟩ := finishFloat_exponent h negative (gather sig ((d :: ds).map digit)).1
      (e - (gather sig ((d :: ds).map digit)).2.1)
    refine ⟨o, fun rest hrest => ?_⟩
    rw [fractionPart, hdigits rest hrest, ← ho rest hrest]
    rfl

/-- Only the digit zero has the value zero. -/
theorem eq_zero_of_digit {d : UInt8} (h : digit d = 0) : d = ofAscii '0' := by
  have hsub : d - ofAscii '0' = 0 := UInt8.toNat_inj.1 h
  grind

/-- A whole number does not go on after a leading zero. -/
theorem IsWhole.not_leading_zero {d : UInt8} {ds : Octets} (h : IsWhole (d :: ds)) : ¬ (digit d = 0 ∧ ds.map digit ≠ []) := by
  rintro ⟨hd, hds⟩
  obtain ⟨-, hnil⟩ := List.cons_eq_cons.1 (h.2 (congrArg some (eq_zero_of_digit hd)))
  exact hds (congrArg _ hnil)

/-- A whole number that no point follows. -/
theorem unsignedNumber_whole {d : UInt8} {ds t : Octets} (hwhole : IsWhole (d :: ds)) (ht : NoDigit t)
    (hpoint : ∀ b ∈ t.head?, b ≠ ofAscii '.') (negative : Bool) :
    let gathered := gather 0 ((d :: ds).map digit)
    unsignedNumber negative (d :: ds ++ t) =
      if gathered.2.2.isEmpty ∧ (exponentFollows t).isNone then .ok (wholeNumber negative gathered.1, t)
      else finishFloat negative gathered.1 gathered.2.2.length t := by
  rw [unsignedNumber, digits_append hwhole.1 ht]
  simp only [List.map_cons, if_neg hwhole.not_leading_zero]
  cases t with
  | nil => simp [exponentFollows]
  | cons b t => simp only [if_neg (hpoint b rfl)]

/-- A number without its sign. -/
theorem unsignedNumber_parts {whole fraction exponent : Octets} (hwhole : IsWhole whole) (hfraction : IsFraction fraction)
    (hexponent : IsExponent exponent) (negative : Bool) :
    ∃ o, ∀ rest, Stops rest → unsignedNumber negative (whole ++ (fraction ++ (exponent ++ rest))) = settled o rest := by
  cases whole with
  | nil => exact absurd rfl hwhole.1.1
  | cons d ds =>
    let gathered := gather 0 ((d :: ds).map digit)
    cases hfraction with
    | @digits fs hfs =>
      obtain ⟨o, ho⟩ := fractionPart_digits hfs hexponent negative gathered.1 gathered.2.2.length
      refine ⟨o, fun rest hrest => ?_⟩
      rw [unsignedNumber, digits_append hwhole.1 ((IsFraction.digits hfs).noDigit hexponent hrest), ← ho rest hrest]
      simp only [List.map_cons, if_neg hwhole.not_leading_zero, List.cons_append, if_true]
      rfl
    | none =>
      obtain ⟨o, ho⟩ := finishFloat_exponent hexponent negative gathered.1 gathered.2.2.length
      have hread : ∀ rest, Stops rest → unsignedNumber negative (d :: ds ++ ([] ++ (exponent ++ rest))) =
          if gathered.2.2.isEmpty ∧ (exponentFollows (exponent ++ rest)).isNone then
            .ok (wholeNumber negative gathered.1, exponent ++ rest)
          else finishFloat negative gathered.1 gathered.2.2.length (exponent ++ rest) :=
        fun rest hrest => unsignedNumber_whole hwhole (hexponent.noDigit hrest) (hexponent.noPoint hrest) negative
      cases hexponent with
      | none =>
        refine ⟨if gathered.2.2.isEmpty then some (wholeNumber negative gathered.1) else o, fun rest hrest => ?_⟩
        rw [hread rest hrest, ho rest hrest, List.nil_append, exponentFollows_of_stops hrest]
        cases gathered.2.2.isEmpty <;> simp [settled]
      | digits he =>
        refine ⟨o, fun rest hrest => ?_⟩
        rw [hread rest hrest, ho rest hrest, List.cons_append, exponentFollows, if_pos he]
        simp

/-- A number is read or refused by its own digits. -/
theorem readNumber_number {v : Octets} (h : IsNumber v) : ∃ o, ∀ rest, Stops rest → readNumber (v ++ rest) = settled o rest := by
  obtain @⟨sign, whole, fraction, exponent, hsign, hwhole, hfraction, hexponent⟩ := h
  have happend : ∀ rest, sign ++ (whole ++ (fraction ++ exponent)) ++ rest = sign ++ (whole ++ (fraction ++ (exponent ++ rest))) := by
    intro rest
    simp only [List.append_assoc]
  rcases hsign with rfl | rfl
  · obtain ⟨o, ho⟩ := unsignedNumber_parts hwhole hfraction hexponent false
    refine ⟨o, fun rest hrest => ?_⟩
    rw [happend, ← ho rest hrest]
    cases whole with
    | nil => exact absurd rfl hwhole.1.1
    | cons d ds =>
      have hd := hwhole.1.2 d List.mem_cons_self
      rw [List.nil_append, List.cons_append, readNumber, if_neg (ne_of_isDigit hd (by decide))]
  · obtain ⟨o, ho⟩ := unsignedNumber_parts hwhole hfraction hexponent true
    refine ⟨o, fun rest hrest => ?_⟩
    rw [happend, ← ho rest hrest]
    rfl

theorem frames_readNumber {v : Octets} (h : IsNumber v) : Frames readNumber v fun n => readNumber v = .ok (n, []) := by
  obtain ⟨o, ho⟩ := readNumber_number h
  have hframes : Frames readNumber v (o = some ·) := by
    intro rest hrest n s'
    rw [ho rest hrest]
    cases o <;> simp [settled, and_comm, eq_comm]
  exact hframes.self

theorem skipDigits_digits {ds t : Octets} (h : IsDigits ds) (ht : NoDigit t) : skipDigits (ds ++ t) = .ok ((), t) := by
  rw [skipDigits, digits_append h ht]
  cases ds with
  | nil => exact absurd rfl h.1
  | cons d ds => rfl

/-- The end of a number that is not kept, from where its exponent may stand. -/
def skipExponent : Reader Unit := fun s =>
  match exponentFollows s with
  | some (b :: t) => if b = ofAscii '+' ∨ b = ofAscii '-' then skipDigits t else skipDigits (b :: t)
  | some [] => .error .malformed
  | none => .ok ((), s)

theorem skipExponent_exponent {exponent rest : Octets} (h : IsExponent exponent) (hrest : Stops rest) :
    skipExponent (exponent ++ rest) = .ok ((), rest) := by
  cases h with
  | none =>
    rw [List.nil_append, skipExponent, exponentFollows_of_stops hrest]
  | @digits c sign ds hc hsign hds =>
    rw [List.cons_append, List.append_assoc, skipExponent, exponentFollows, if_pos hc]
    have hskip := skipDigits_digits hds hrest.noDigit
    rcases hsign with rfl | rfl | rfl
    · cases ds with
      | nil => exact absurd rfl hds.1
      | cons d ds =>
        have hd := hds.2 d List.mem_cons_self
        exact (if_neg (not_or.2 ⟨ne_of_isDigit hd (by decide), ne_of_isDigit hd (by decide)⟩)).trans hskip
    · exact hskip
    · exact hskip

/-- A number that is not kept is passed over. -/
theorem skipNumber_number {v rest : Octets} (h : IsNumber v) (hrest : Stops rest) : skipNumber (v ++ rest) = .ok ((), rest) := by
  obtain @⟨sign, whole, fraction, exponent, hsign, hwhole, hfraction, hexponent⟩ := h
  have hdigits := digits_append hwhole.1 (hfraction.noDigit hexponent hrest)
  have hexp := skipExponent_exponent hexponent hrest
  cases whole with
  | nil => exact absurd rfl hwhole.1.1
  | cons d ds =>
    have hminus := ne_of_isDigit (hwhole.1.2 d List.mem_cons_self) (show isDigit (ofAscii '-') = false by decide)
    have hstrip : skipNumber (sign ++ (d :: ds ++ (fraction ++ exponent)) ++ rest) =
        skipNumber (d :: ds ++ (fraction ++ (exponent ++ rest))) := by
      rcases hsign with rfl | rfl
      · simp only [List.nil_append, List.cons_append, List.append_assoc]
      · unfold skipNumber
        simp only [List.cons_append, List.nil_append, List.append_assoc, if_true, if_neg hminus]
    rw [hstrip]
    unfold skipNumber
    simp only [List.cons_append] at hdigits ⊢
    simp only [if_neg hminus, hdigits, List.map_cons, if_neg hwhole.not_leading_zero]
    cases hfraction with
    | digits hds =>
      simp only [List.cons_append, if_true, skipDigits_digits hds (hexponent.noDigit hrest), ok_bind]
      exact hexp
    | none =>
      have hpoint := hexponent.noPoint hrest
      rw [List.nil_append]
      cases ht : exponent ++ rest with
      | nil =>
        rw [ht] at hexp
        exact hexp
      | cons b t =>
        rw [ht] at hexp hpoint
        simp only [ok_bind, if_neg (hpoint b rfl)]
        exact hexp

end AuditTrail.Json
