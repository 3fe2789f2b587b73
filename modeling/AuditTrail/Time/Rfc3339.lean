import AuditTrail.Text.Blank
import AuditTrail.Time.Calendar
import AuditTrail.Time.Instant

/-!
# RFC 3339 times

`Instant.render` writes an instant with as many fraction digits as it needs: none, three, six or nine. Years outside 0 to 9999
carry a sign. `Instant.parse?` reads the same form and a relaxed one: blanks before a field, fields with fewer digits, a blank
instead of the `T`, any offset from UTC below a day, more than nine fraction digits (the rest is dropped), and a sixtieth second.
-/

namespace AuditTrail

/-- `n` in decimal with leading zeros up to `width` digits. -/
def padded (width n : Nat) : String :=
  let ds := Nat.toDigits 10 n
  String.ofList (List.replicate (width - ds.length) '0' ++ ds)

namespace Instant

/-- How an instant in UTC names its offset. -/
inductive ZoneStyle where
  /-- The letter Z. -/
  | letter
  /-- The offset `+00:00`. -/
  | offset

/-- The year with at least four digits, signed outside 0 to 9999. -/
def renderYear (y : Int) : String :=
  if 0 ≤ y ∧ y ≤ 9999 then padded 4 y.toNat
  else (if y < 0 then "-" else "+") ++ padded 4 y.natAbs

/-- The fraction of a second with the fewest digits out of none, three, six and nine. -/
def renderFraction (nanos : Nat) : String :=
  if nanos = 0 then ""
  else if nanos % 1000000 = 0 then "." ++ padded 3 (nanos / 1000000)
  else if nanos % 1000 = 0 then "." ++ padded 6 (nanos / 1000)
  else "." ++ padded 9 nanos

/-- The instant as an RFC 3339 time in UTC. -/
def render (t : Instant) (zone : ZoneStyle) : String :=
  let d := Date.ofDays (t.seconds / 86400)
  let s := (t.seconds % 86400).toNat
  let leap := if t.nanos ≥ 1000000000 then 1 else 0
  renderYear d.year ++ "-" ++ padded 2 d.month ++ "-" ++ padded 2 d.day ++ "T" ++ padded 2 (s / 3600) ++ ":" ++
    padded 2 (s / 60 % 60) ++ ":" ++ padded 2 (s % 60 + leap) ++ renderFraction (t.nanos % 1000000000) ++
    match zone with
    | .letter => "Z"
    | .offset => "+00:00"

/-- The value of a run of decimal digits. -/
def digitsValue (ds : List Char) : Nat := ds.foldl (fun n c => n * 10 + (c.toNat - '0'.toNat)) 0

/-- One to `most` decimal digits at the start, and what follows them. -/
def takeNumber (most : Nat) (cs : List Char) : Option (Nat × List Char) :=
  let ds := (cs.take most).takeWhile Char.isDigit
  if ds.isEmpty then none else some (digitsValue ds, cs.drop ds.length)

/-- A number of at most two digits within bounds, after blanks. -/
def takeField (lo hi : Nat) (cs : List Char) : Option (Nat × List Char) := do
  let (n, rest) ← takeNumber 2 (Text.trimStart cs)
  if lo ≤ n ∧ n ≤ hi then some (n, rest) else none

/-- The year, after blanks: up to four digits, or a sign and any number of them. -/
def takeYear (cs : List Char) : Option (Int × List Char) :=
  match Text.trimStart cs with
  | '-' :: rest => (takeNumber rest.length rest).map fun r => (-(r.1 : Int), r.2)
  | '+' :: rest => (takeNumber rest.length rest).map fun r => ((r.1 : Int), r.2)
  | rest => (takeNumber 4 rest).map fun r => ((r.1 : Int), r.2)

/-- The given separator, after blanks. -/
def takeSeparator (c : Char) (cs : List Char) : Option (List Char) :=
  match Text.trimStart cs with
  | d :: rest => if d = c then some rest else none
  | [] => none

/-- The fraction of a second in nanoseconds, zero when there is none. -/
def takeFraction (cs : List Char) : Option (Nat × List Char) :=
  match cs with
  | '.' :: rest => do
    let ds := (rest.take 9).takeWhile Char.isDigit
    if ds.isEmpty then none
    else some (digitsValue ds * Nat.pow 10 (9 - ds.length), (rest.drop ds.length).dropWhile Char.isDigit)
  | _ => some (0, cs)

/-- Two digits of an offset, the first of them no greater than `most`. -/
def takeTwoDigits (most : Char) : List Char → Option (Nat × List Char)
  | a :: b :: rest =>
    if a.isDigit && a ≤ most && b.isDigit then some (digitsValue [a, b], rest) else none
  | _ => none

/-- The offset from UTC in seconds: `Z`, the letters `UTC`, or a sign, hours and minutes. -/
def takeOffset (cs : List Char) : Option (Int × List Char) :=
  let cs := Text.trimStart cs
  if (cs.take 3).map Char.toUpper = ['U', 'T', 'C'] then some (0, cs.drop 3)
  else match cs with
    | 'Z' :: rest => some (0, rest)
    | 'z' :: rest => some (0, rest)
    | sign :: rest => do
      let negative ← if sign = '+' then some false else if sign = '-' ∨ sign = '−' then some true else none
      let (hours, rest) ← takeTwoDigits '9' rest
      let (minutes, rest) ← takeTwoDigits '5' (rest.dropWhile fun c => c = ':' || Text.isBlank c)
      let seconds : Int := hours * 3600 + minutes * 60
      some (if negative then -seconds else seconds, rest)
    | [] => none

/-- Reads a date, a separator and a time of day with its offset. -/
def parseChars (cs : List Char) : Option Instant := do
  let (year, cs) ← takeYear cs
  let cs ← takeSeparator '-' cs
  let (month, cs) ← takeField 1 12 cs
  let cs ← takeSeparator '-' cs
  let (day, cs) ← takeField 1 31 cs
  let cs ← match cs with
    | 't' :: rest => some rest
    | 'T' :: rest => some rest
    | ' ' :: rest => some rest
    | _ => none
  let (hour, cs) ← takeField 0 23 cs
  let cs ← takeSeparator ':' cs
  let (minute, cs) ← takeField 0 59 cs
  let cs ← takeSeparator ':' cs
  let (second, cs) ← takeField 0 60 cs
  let (fraction, cs) ← takeFraction cs
  let (offset, cs) ← takeOffset cs
  let date : Date := ⟨year, month, day⟩
  let leap := second = 60
  let seconds := date.toDays * 86400 + (hour * 3600 + minute * 60 + min second 59 : Nat) - offset
  if !(Text.trimStart cs).isEmpty then none
  else if !date.isValid || year < -262143 || 262142 < year || offset.natAbs ≥ 86400 then none
  else if seconds < leastSecond ∨ greatestSecond < seconds then none
  else some ⟨seconds, fraction + if leap then 1000000000 else 0⟩

/-- The instant that an RFC 3339 time denotes. -/
def parse? (s : String) : Option Instant := parseChars s.toList

end Instant

end AuditTrail
