import AuditTrail.Proofs.Text.Numerals
import AuditTrail.Proofs.Time.Calendar

/-!
# Times survive their text

`parse?` undoes `render`. An instant that `parse?` yields lies in the calendar, its fraction is below a second, and a leap
second follows the last second of a minute (`Representable`). `render` writes such an instant with all its digits, and each field
is read back by the lemma about its reader.
-/

namespace AuditTrail.Instant

/-- An instant that a time can be written for: one in the calendar, in a leap second only at the end of a minute. -/
structure Representable (t : Instant) : Prop where
  least : leastSecond ≤ t.seconds
  greatest : t.seconds ≤ greatestSecond
  nanos : t.nanos < 2000000000
  leap : 1000000000 ≤ t.nanos → t.seconds % 60 = 59

/-! ## What is read -/

/-- The fraction that is read is below a second. -/
theorem lt_of_takeFraction {cs rest : List Char} {n : Nat} (h : takeFraction cs = some (n, rest)) : n < 1000000000 := by
  unfold takeFraction at h
  split at h
  · rename_i cs
    simp only [Option.ite_none_left_eq_some, Option.some.injEq, Prod.mk.injEq] at h
    obtain ⟨-, rfl, -⟩ := h
    have hlen : ((cs.take 9).takeWhile Char.isDigit).length ≤ 9 :=
      Nat.le_trans (List.takeWhile_prefix _).length_le (List.length_take_le _ _)
    have hlt := Numeral.ofDigitChars_lt ((cs.take 9).takeWhile Char.isDigit) (fun c hc => List.all_eq_true.1 List.all_takeWhile c hc) 0
    rw [Numeral.digitsValue_eq]
    calc Nat.ofDigitChars 10 ((cs.take 9).takeWhile Char.isDigit) 0 * 10 ^ (9 - ((cs.take 9).takeWhile Char.isDigit).length)
        < 10 ^ ((cs.take 9).takeWhile Char.isDigit).length * 10 ^ (9 - ((cs.take 9).takeWhile Char.isDigit).length) :=
          Nat.mul_lt_mul_of_pos_right (by simpa using hlt) (Nat.pow_pos (by decide))
      _ = 1000000000 := by rw [← Nat.pow_add, Nat.add_sub_cancel' hlen]
  · simp only [Option.some.injEq, Prod.mk.injEq] at h
    omega

/-- Hours and minutes after the sign of an offset, in seconds. -/
def takeOffsetClock (negative : Bool) (cs : List Char) : Option (Int × List Char) := do
  let (hours, rest) ← takeTwoDigits '9' cs
  let (minutes, rest) ← takeTwoDigits '5' (rest.dropWhile fun c => c = ':' || Text.isBlank c)
  let seconds : Int := hours * 3600 + minutes * 60
  some (if negative then -seconds else seconds, rest)

/-- The hours and minutes of an offset make whole minutes. -/
theorem minutes_of_takeOffset {cs rest : List Char} {offset : Int} (h : takeOffset cs = some (offset, rest)) : offset % 60 = 0 := by
  have hclock : ∀ negative cs, takeOffsetClock negative cs = some (offset, rest) → offset % 60 = 0 := by
    intro negative cs h
    simp only [takeOffsetClock, Option.bind_eq_bind, Option.bind_eq_some_iff, Option.some.injEq, Prod.mk.injEq] at h
    obtain ⟨⟨hours, cs₁⟩, -, ⟨minutes, cs₂⟩, -, h, -⟩ := h
    split at h <;> omega
  unfold takeOffset at h
  simp only at h
  split at h
  · simp only [Option.some.injEq, Prod.mk.injEq] at h
    omega
  split at h
  · simp only [Option.some.injEq, Prod.mk.injEq] at h
    omega
  · simp only [Option.some.injEq, Prod.mk.injEq] at h
    omega
  · split at h
    · exact hclock false _ h
    split at h
    · exact hclock true _ h
    · cases h
  · cases h

/-- The time of day after a date and its separator, and the instant of both. -/
def parseClock (date : Date) (cs : List Char) : Option Instant := do
  let (hour, cs) ← takeField 0 23 cs
  let cs ← takeSeparator ':' cs
  let (minute, cs) ← takeField 0 59 cs
  let cs ← takeSeparator ':' cs
  let (second, cs) ← takeField 0 60 cs
  let (fraction, cs) ← takeFraction cs
  let (offset, cs) ← takeOffset cs
  let seconds := date.toDays * 86400 + (hour * 3600 + minute * 60 + min second 59 : Nat) - offset
  if !(Text.trimStart cs).isEmpty then none
  else if !date.isValid || date.year < -262143 || 262142 < date.year || offset.natAbs ≥ 86400 then none
  else if seconds < leastSecond ∨ greatestSecond < seconds then none
  else some ⟨seconds, fraction + if second = 60 then 1000000000 else 0⟩

/-- An instant that is read after a date is one that can be written. -/
theorem representable_of_parseClock {date : Date} {cs : List Char} {t : Instant} (h : parseClock date cs = some t) :
    t.Representable := by
  simp only [parseClock, Option.bind_eq_bind, Option.bind_eq_some_iff] at h
  obtain ⟨⟨hour, cs₁⟩, -, cs₂, -, ⟨minute, cs₃⟩, -, cs₄, -, ⟨second, cs₅⟩, -, ⟨fraction, cs₆⟩, hfraction, ⟨offset, cs₇⟩, hoffset, h⟩ := h
  simp only [Option.ite_none_left_eq_some, Option.some.injEq] at h
  obtain ⟨-, -, hrange, rfl⟩ := h
  have hlt := lt_of_takeFraction hfraction
  have hminutes := minutes_of_takeOffset hoffset
  constructor
  · exact Int.not_lt.mp fun hlow => hrange (.inl hlow)
  · exact Int.not_lt.mp fun hhigh => hrange (.inr hhigh)
  · simp only
    split <;> omega
  · intro hleap
    simp only at hleap ⊢
    split at hleap <;> omega

/-- What follows the separator between a date and a time of day. -/
def takeDateEnd : List Char → Option (List Char)
  | 't' :: rest => some rest
  | 'T' :: rest => some rest
  | ' ' :: rest => some rest
  | _ => none

/-- A text is read as a date, a separator and a time of day. -/
theorem parseChars_eq (cs : List Char) : parseChars cs =
    (takeYear cs).bind fun (year, cs) => (takeSeparator '-' cs).bind fun cs => (takeField 1 12 cs).bind fun (month, cs) =>
      (takeSeparator '-' cs).bind fun cs => (takeField 1 31 cs).bind fun (day, cs) =>
        (takeDateEnd cs).bind (parseClock ⟨year, month, day⟩) := by
  unfold parseChars
  refine Option.bind_congr ?_
  rintro ⟨year, cs⟩ -
  refine Option.bind_congr fun cs _ => Option.bind_congr ?_
  rintro ⟨month, cs⟩ -
  refine Option.bind_congr fun cs _ => Option.bind_congr ?_
  rintro ⟨day, cs⟩ -
  dsimp only
  split
  · rfl
  · rfl
  · rfl
  · rename_i hlower hupper hblank
    rw [takeDateEnd.eq_4 _ hlower hupper hblank]
    rfl

/-- An instant that is read is one that can be written. -/
theorem representable_of_parse {s : String} {t : Instant} (h : parse? s = some t) : t.Representable := by
  rw [parse?, parseChars_eq] at h
  simp only [Option.bind_eq_some_iff] at h
  obtain ⟨⟨year, cs₁⟩, -, cs₂, -, ⟨month, cs₃⟩, -, cs₄, -, ⟨day, cs₅⟩, -, cs₆, -, h⟩ := h
  exact representable_of_parseClock h

/-! ## What is written -/

/-- No digit is blank. -/
theorem isBlank_of_isDigit {c : Char} (h : c.isDigit = true) : Text.isBlank c = false := by
  have hc : 48 ≤ c.toNat ∧ c.toNat ≤ 57 := by
    simp only [Char.isDigit, Bool.and_eq_true, decide_eq_true_eq] at h
    exact h
  simp only [Text.isBlank, Text.inRanges, Text.blankRanges, List.any_cons, List.any_nil, Bool.or_false, Bool.or_eq_false_iff,
    Bool.and_eq_false_iff, decide_eq_false_iff_not]
  omega

/-- A numeral has no blanks in front. -/
theorem trimStart_numeral {cs : List Char} {n : Nat} (h : Numeral cs n) (rest : List Char) :
    Text.trimStart (cs ++ rest) = cs ++ rest := by
  obtain ⟨c, cs, rfl⟩ := List.exists_cons_of_ne_nil h.ne_nil
  rw [Text.trimStart, List.cons_append, List.dropWhile_cons_of_neg]
  rw [isBlank_of_isDigit (h.digits c List.mem_cons_self)]
  exact Bool.false_ne_true

/-- A numeral is read whole if it is not too long and no further digit is in reach. -/
theorem takeNumber_numeral {cs rest : List Char} {n most : Nat} (h : Numeral cs n) (hlen : cs.length ≤ most)
    (hrest : (rest.take (most - cs.length)).takeWhile Char.isDigit = []) : takeNumber most (cs ++ rest) = some (n, rest) := by
  have hds : ((cs ++ rest).take most).takeWhile Char.isDigit = cs := by
    rw [List.take_append, List.take_of_length_le hlen, List.takeWhile_append_of_pos h.digits, hrest, List.append_nil]
  simp only [takeNumber, hds, List.isEmpty_iff, if_neg h.ne_nil, Numeral.digitsValue_eq, h.value, List.drop_left]

/-- A field of two digits is read back. -/
theorem takeField_padded {lo hi n : Nat} (hlo : lo ≤ n) (hhi : n ≤ hi) (h : n < 100) (rest : List Char) :
    takeField lo hi ((padded 2 n).toList ++ rest) = some (n, rest) := by
  have hlen : (padded 2 n).toList.length = 2 := length_padded (by decide) h
  have hnumber : takeNumber 2 ((padded 2 n).toList ++ rest) = some (n, rest) :=
    takeNumber_numeral (.padded 2 n) (Nat.le_of_eq hlen) (by rw [hlen]; rfl)
  simp only [takeField, trimStart_numeral (.padded 2 n), hnumber, Option.bind_eq_bind, Option.bind_some, if_pos (And.intro hlo hhi)]

/-- Nothing is trimmed in front of a character that is not blank. -/
theorem trimStart_cons {c : Char} (h : Text.isBlank c = false) (rest : List Char) : Text.trimStart (c :: rest) = c :: rest := by
  rw [Text.trimStart, List.dropWhile_cons_of_neg (by rw [h]; exact Bool.false_ne_true)]

/-- A separator is read. -/
theorem takeSeparator_cons {c : Char} (h : Text.isBlank c = false) (rest : List Char) : takeSeparator c (c :: rest) = some rest := by
  simp only [takeSeparator, trimStart_cons h, if_true]

/-- A character that is no digit ends a numeral. -/
theorem takeWhile_take_cons {c : Char} (h : c.isDigit = false) (rest : List Char) (k : Nat) :
    ((c :: rest).take k).takeWhile Char.isDigit = [] := by
  cases k with
  | zero => rfl
  | succ k => rw [List.take_succ_cons, List.takeWhile_cons_of_neg (by rw [h]; exact Bool.false_ne_true)]

/-- The first character of a numeral is a digit. -/
theorem isDigit_of_append_eq_cons {cs rest rest' : List Char} {n : Nat} {c : Char} (hn : Numeral cs n)
    (h : cs ++ rest = c :: rest') : c.isDigit = true := by
  obtain ⟨d, ds, rfl⟩ := List.exists_cons_of_ne_nil hn.ne_nil
  rw [← (List.cons.inj h).1]
  exact hn.digits d List.mem_cons_self

/-- A year is read back, with its sign if it has one. -/
theorem takeYear_renderYear (y : Int) (rest : List Char) :
    takeYear ((renderYear y).toList ++ '-' :: rest) = some (y, '-' :: rest) := by
  have hyphen : ∀ k, (('-' :: rest).take k).takeWhile Char.isDigit = [] := takeWhile_take_cons rfl rest
  have hsigned : takeNumber ((padded 4 y.natAbs).toList ++ '-' :: rest).length ((padded 4 y.natAbs).toList ++ '-' :: rest) =
      some (y.natAbs, '-' :: rest) :=
    takeNumber_numeral (.padded 4 y.natAbs) (by rw [List.length_append]; exact Nat.le_add_right _ _) (hyphen _)
  unfold renderYear
  split
  · rename_i h
    have hlen : (padded 4 y.toNat).toList.length = 4 := length_padded (by decide) (by omega)
    have hnumber : takeNumber 4 ((padded 4 y.toNat).toList ++ '-' :: rest) = some (y.toNat, '-' :: rest) :=
      takeNumber_numeral (.padded 4 y.toNat) (Nat.le_of_eq hlen) (hyphen _)
    simp only [takeYear, trimStart_numeral (.padded 4 y.toNat)]
    split
    · rename_i hcs
      exact absurd (isDigit_of_append_eq_cons (.padded 4 y.toNat) hcs) (by decide)
    · rename_i hcs
      exact absurd (isDigit_of_append_eq_cons (.padded 4 y.toNat) hcs) (by decide)
    · rw [hnumber, Option.map_some, Int.toNat_of_nonneg h.1]
  split
  · have hlist : ("-" ++ padded 4 y.natAbs).toList = '-' :: (padded 4 y.natAbs).toList := by rw [String.toList_append]; rfl
    simp only [hlist, List.cons_append, takeYear, trimStart_cons (show Text.isBlank '-' = false from rfl), hsigned, Option.map_some]
    rw [show -(y.natAbs : Int) = y by omega]
  · have hlist : ("+" ++ padded 4 y.natAbs).toList = '+' :: (padded 4 y.natAbs).toList := by rw [String.toList_append]; rfl
    simp only [hlist, List.cons_append, takeYear, trimStart_cons (show Text.isBlank '+' = false from rfl), hsigned, Option.map_some]
    rw [show (y.natAbs : Int) = y by omega]

/-- A fraction of so many digits is read back in nanoseconds. -/
theorem takeFraction_padded {width n : Nat} (hpos : 0 < width) (hle : width ≤ 9) (hn : n < 10 ^ width) :
    takeFraction (("." ++ padded width n).toList ++ ['Z']) = some (n * 10 ^ (9 - width), ['Z']) := by
  have hlen : (padded width n).toList.length = width := length_padded hpos hn
  have hds : (((padded width n).toList ++ ['Z']).take 9).takeWhile Char.isDigit = (padded width n).toList := by
    rw [List.take_append, List.take_of_length_le (by omega), List.takeWhile_append_of_pos (Numeral.padded width n).digits,
      takeWhile_take_cons rfl, List.append_nil]
  have hlist : ("." ++ padded width n).toList = '.' :: (padded width n).toList := by rw [String.toList_append]; rfl
  have hletter : ['Z'].dropWhile Char.isDigit = ['Z'] := by decide
  rw [hlist, List.cons_append]
  simp only [takeFraction, hds, List.isEmpty_iff, if_neg (Numeral.padded width n).ne_nil, Numeral.digitsValue_eq,
    (Numeral.padded width n).value, hlen, List.drop_left' hlen, hletter]
  rfl

/-- A fraction is read back, whatever digits it is written with. -/
theorem takeFraction_renderFraction {nanos : Nat} (h : nanos < 1000000000) :
    takeFraction ((renderFraction nanos).toList ++ ['Z']) = some (nanos, ['Z']) := by
  unfold renderFraction
  split
  · rename_i hzero
    rw [hzero]
    rfl
  split
  · rw [takeFraction_padded (by decide) (by decide) (by omega)]
    congr 2
    omega
  split
  · rw [takeFraction_padded (by decide) (by decide) (by omega)]
    congr 2
    omega
  · rw [takeFraction_padded (by decide) (by decide) (by omega)]
    congr 2
    omega

/-- The text of an instant, field by field. -/
theorem toList_render (t : Instant) : (t.render .letter).toList =
    (renderYear (Date.ofDays (t.seconds / 86400)).year).toList ++ '-' ::
      ((padded 2 (Date.ofDays (t.seconds / 86400)).month).toList ++ '-' ::
        ((padded 2 (Date.ofDays (t.seconds / 86400)).day).toList ++ 'T' ::
          ((padded 2 ((t.seconds % 86400).toNat / 3600)).toList ++ ':' ::
            ((padded 2 ((t.seconds % 86400).toNat / 60 % 60)).toList ++ ':' ::
              ((padded 2 ((t.seconds % 86400).toNat % 60 + if t.nanos ≥ 1000000000 then 1 else 0)).toList ++
                ((renderFraction (t.nanos % 1000000000)).toList ++ ['Z'])))))) := by
  have hyphen : ("-" : String).toList = ['-'] := rfl
  have hcolon : (":" : String).toList = [':'] := rfl
  have hday : ("T" : String).toList = ['T'] := rfl
  have hzone : ("Z" : String).toList = ['Z'] := rfl
  simp only [render, String.toList_append, hyphen, hcolon, hday, hzone, List.append_assoc, List.cons_append, List.nil_append]

/-- The time of day is read back with the date it stands after. -/
theorem parseClock_render {t : Instant} (h : t.Representable) :
    parseClock (Date.ofDays (t.seconds / 86400))
      ((padded 2 ((t.seconds % 86400).toNat / 3600)).toList ++ ':' ::
        ((padded 2 ((t.seconds % 86400).toNat / 60 % 60)).toList ++ ':' ::
          ((padded 2 ((t.seconds % 86400).toNat % 60 + if t.nanos ≥ 1000000000 then 1 else 0)).toList ++
            ((renderFraction (t.nanos % 1000000000)).toList ++ ['Z'])))) = some t := by
  obtain ⟨hleast, hgreatest, hnanos, hleap⟩ := h
  have hcolon : Text.isBlank ':' = false := rfl
  have hzone : takeOffset ['Z'] = some (0, []) := by decide
  obtain ⟨hyear1, hyear2⟩ := Date.year_ofDays (t.seconds / 86400) (by omega) (by omega)
  have hminute : (t.seconds % 86400).toNat % 60 = (t.seconds % 60).toNat := by omega
  have hseconds : t.seconds / 86400 * 86400 + ((t.seconds % 86400).toNat / 3600 * 3600 + (t.seconds % 86400).toNat / 60 % 60 * 60 +
      min ((t.seconds % 86400).toNat % 60 + if t.nanos ≥ 1000000000 then 1 else 0) 59 : Nat) - 0 = t.seconds := by
    split <;> omega
  simp only [parseClock, Option.bind_eq_bind, Option.bind_some, takeField_padded (Nat.zero_le _)
    (show (t.seconds % 86400).toNat / 3600 ≤ 23 by omega) (by omega), takeSeparator_cons hcolon, takeField_padded (Nat.zero_le _)
    (show (t.seconds % 86400).toNat / 60 % 60 ≤ 59 by omega) (by omega), takeField_padded (Nat.zero_le _)
    (show (t.seconds % 86400).toNat % 60 + (if t.nanos ≥ 1000000000 then 1 else 0) ≤ 60 by split <;> omega)
    (by split <;> omega), takeFraction_renderFraction (Nat.mod_lt t.nanos (show 0 < 1000000000 by decide)), hzone,
    Date.toDays_ofDays, hseconds]
  have hvalid := Date.isValid_ofDays (t.seconds / 86400)
  rw [if_neg (by decide), if_neg, if_neg (by omega)]
  · have hnanos' : t.nanos % 1000000000 + (if (t.seconds % 86400).toNat % 60 + (if t.nanos ≥ 1000000000 then 1 else 0) = 60
        then 1000000000 else 0) = t.nanos := by
      by_cases hl : t.nanos ≥ 1000000000
      · have := hleap hl
        rw [if_pos hl, if_pos (by omega)]
        omega
      · rw [if_neg hl, if_neg (by omega)]
        omega
    rw [hnanos']
  · simp only [hvalid, Bool.not_true, Bool.false_or, Bool.or_eq_true, decide_eq_true_eq, not_or, Int.natAbs_zero]
    omega

/-- An instant is read back from its text. -/
theorem parse_render {t : Instant} (h : t.Representable) : parse? (t.render .letter) = some t := by
  obtain ⟨⟨hm1, hm2⟩, hd1, hd2⟩ := Date.bounds_of_isValid (Date.isValid_ofDays (t.seconds / 86400))
  have hyphen : Text.isBlank '-' = false := rfl
  have hend : ∀ rest, takeDateEnd ('T' :: rest) = some rest := fun _ => rfl
  rw [parse?, toList_render, parseChars_eq]
  simp only [takeYear_renderYear, Option.bind_some, takeSeparator_cons hyphen, takeField_padded hm1 hm2 (by omega),
    takeField_padded hd1 hd2 (by omega), hend]
  exact parseClock_render h

end AuditTrail.Instant
