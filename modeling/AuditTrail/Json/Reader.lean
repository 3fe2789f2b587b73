import AuditTrail.Json.Fault

/-!
# Reading JSON

Readers go over the octets of a document from front to back and stop at the first fault. A value that is kept is read strictly:
its strings are well-formed Unicode, its numbers fit, and it nests no deeper than the reader allows. A value that is skipped is
only checked for its grammar.

The loops over elements, members and characters carry a bound that the length of the document provides; each turn takes at
least one octet, so the bound is never reached.
-/

namespace AuditTrail.Json

open Octets (ofAscii isDigit digit)

/-- Reads a value from the front of the octets and returns what is left. -/
abbrev Reader (α : Type) := Octets → Except Fault (α × Octets)

/-- The blanks that may surround a token. -/
def isBlank (b : UInt8) : Bool := b == 0x20 || b == 0x0a || b == 0x09 || b == 0x0d

/-- The octets after leading blanks. -/
def skipBlank (s : Octets) : Octets := s.dropWhile isBlank

/-- The rest of a word whose first letter has been seen. -/
def word : Octets → Reader Unit
  | [], s => .ok ((), s)
  | _ :: _, [] => .error .unfinished
  | a :: as, b :: s => if a = b then word as s else .error .malformed

/-! ## Strings -/

/-- Four hexadecimal digits. -/
def hexFour : Reader Nat
  | a :: b :: c :: d :: s =>
    match Octets.hexDigit? a, Octets.hexDigit? b, Octets.hexDigit? c, Octets.hexDigit? d with
    | some w, some x, some y, some z => .ok (((w * 16 + x) * 16 + y) * 16 + z, s)
    | _, _, _, _ => .error .malformed
  | _ => .error .unfinished

/-- The octets of the character with a code point that is no surrogate. -/
def codePoint (n : Nat) : Octets := String.utf8EncodeChar (Char.ofNat n)

/-- The octet that a one-letter escape stands for. -/
def simpleEscape? (b : UInt8) : Option UInt8 :=
  if b = ofAscii '\x22' ∨ b = ofAscii '\\' ∨ b = ofAscii '/' then some b
  else if b = ofAscii 'b' then some 0x08
  else if b = ofAscii 'f' then some 0x0c
  else if b = ofAscii 'n' then some 0x0a
  else if b = ofAscii 'r' then some 0x0d
  else if b = ofAscii 't' then some 0x09
  else none

/-- The second half of a surrogate pair, after its first half `high`. -/
def lowSurrogate (high : Nat) : Reader Octets
  | [] => .error .unfinished
  | a :: s =>
    if a ≠ ofAscii '\\' then .error .malformed
    else match s with
      | [] => .error .unfinished
      | b :: s =>
        if b ≠ ofAscii 'u' then .error .malformed
        else do
          let (low, s) ← hexFour s
          if 0xdc00 ≤ low ∧ low ≤ 0xdfff then .ok (codePoint (0x10000 + (high - 0xd800) * 0x400 + (low - 0xdc00)), s)
          else .error .malformed

/-- What an escape stands for, after its backslash. -/
def escape : Reader Octets
  | [] => .error .unfinished
  | b :: s =>
    match simpleEscape? b with
    | some c => .ok ([c], s)
    | none =>
      if b ≠ ofAscii 'u' then .error .malformed
      else do
        let (n, s) ← hexFour s
        if 0xdc00 ≤ n ∧ n ≤ 0xdfff then .error .malformed
        else if 0xd800 ≤ n ∧ n ≤ 0xdbff then lowSurrogate n s
        else .ok (codePoint n, s)

/-- The grammar of an escape alone, after its backslash: any four digits will do. -/
def skipEscape : Reader Octets
  | [] => .error .unfinished
  | b :: s =>
    match simpleEscape? b with
    | some _ => .ok ([], s)
    | none => if b ≠ ofAscii 'u' then .error .malformed else (hexFour s).map fun r => ([], r.2)

/-- The octets of a string up to its closing quote, with `esc` reading each escape. -/
def stringOctets (esc : Reader Octets) : Nat → Reader Octets
  | 0, _ => .error .unfinished
  | _ + 1, [] => .error .unfinished
  | bound + 1, b :: s =>
    if b = ofAscii '\x22' then .ok ([], s)
    else if b = ofAscii '\\' then do
      let (xs, s) ← esc s
      let (ys, s) ← stringOctets esc bound s
      .ok (xs ++ ys, s)
    else if b < 0x20 then .error .malformed
    else do
      let (ys, s) ← stringOctets esc bound s
      .ok (b :: ys, s)

/-- A string after its opening quote. -/
def stringBody : Reader String := fun s => do
  let (bytes, rest) ← stringOctets escape (s.length + 1) s
  match Utf8.decode? bytes with
  | some t => .ok (t, rest)
  | none => .error .malformed

/-- The end of a string that is not kept, after its opening quote. -/
def skipStringBody : Reader Unit := fun s => do
  let (_, rest) ← stringOctets skipEscape (s.length + 1) s
  .ok ((), rest)

/-! ## Numbers -/

/-- The digits at the front, and what follows them. -/
def digits (s : Octets) : List Nat × Octets := ((s.takeWhile isDigit).map digit, s.dropWhile isDigit)

/-- The greatest whole number that is kept as such. -/
def greatestWhole : Nat := UInt64.size - 1

/-- Appends digits to a significand as long as it fits 64 bits; the number of digits taken, and those that were not. -/
def gather : Nat → List Nat → Nat × Nat × List Nat
  | sig, [] => (sig, 0, [])
  | sig, d :: ds =>
    if sig * 10 + d ≤ greatestWhole then
      let (sig', n, rest) := gather (sig * 10 + d) ds
      (sig', n + 1, rest)
    else (sig, 0, d :: ds)

/-- `10 ^ k` as a binary64 number, for `k` up to 308. -/
def powerOfTen (k : Nat) : Binary64 := (Binary64.ofRatio false (Nat.pow 10 k) 1).getD (Binary64.zero false)

/-- `x * 10 ^ e` in steps of at most 308 places, each rounded; `none` when the result is too large. -/
def scaleByTen : Nat → Binary64 → Int → Option Binary64
  | 0, _, _ => some (Binary64.zero false)
  | steps + 1, x, e =>
    if e.natAbs ≤ 308 then if 0 ≤ e then x.mul (powerOfTen e.natAbs) else x.div (powerOfTen e.natAbs)
    else if x.isZero then some x
    else if 0 ≤ e then none
    else (x.div (powerOfTen 308)).bind fun y => scaleByTen steps y (e + 308)

/-- The number `sig * 10 ^ e` with its sign. The significand is rounded first and scaled after. -/
def floatOf (negative : Bool) (sig : Nat) (e : Int) : Option Binary64 := do
  let x ← Binary64.ofRatio false sig 1
  let y ← scaleByTen 4 x e
  some (if negative then y.neg else y)

/-- The exponent after its letter: an optional sign and at least one digit. -/
def exponentPart : Reader Int := fun s =>
  let (negative, s) := match s with
    | b :: rest => if b = ofAscii '-' then (true, rest) else if b = ofAscii '+' then (false, rest) else (false, s)
    | [] => (false, s)
  match digits s with
  | ([], []) => .error .unfinished
  | ([], _ :: _) => .error .malformed
  | (ds, rest) =>
    let n : Nat := ds.foldl (fun n d => n * 10 + d) 0
    .ok (if negative then -(n : Int) else n, rest)

/-- Whether a number goes on with an exponent. -/
def exponentFollows : Octets → Option Octets
  | b :: rest => if b = ofAscii 'e' ∨ b = ofAscii 'E' then some rest else none
  | [] => none

/-- A binary64 number from its significand and exponent so far, after an optional exponent part. -/
def finishFloat (negative : Bool) (sig : Nat) (e : Int) : Reader Number := fun s => do
  let (e, s) ← match exponentFollows s with
    | some rest => (exponentPart rest).map fun r => (e + r.1, r.2)
    | none => .ok (e, s)
  match floatOf negative sig e with
  | some x => .ok (.float x, s)
  | none => .error .malformed

/-- The digits after a point. Those that do not fit the significand any more are dropped. -/
def fractionPart (negative : Bool) (sig : Nat) (e : Int) : Reader Number := fun s =>
  match digits s with
  | ([], []) => .error .unfinished
  | ([], _ :: _) => .error .malformed
  | (ds, rest) =>
    let (sig, taken, _) := gather sig ds
    finishFloat negative sig (e - taken) rest

/-- A whole number without point and exponent; minus zero, and one below -2^63, become binary64 numbers. -/
def wholeNumber (negative : Bool) (sig : Nat) : Number :=
  if !negative then .int sig
  else if 0 < sig ∧ sig ≤ 0x8000000000000000 then .int (-(sig : Int))
  else .float ((Binary64.ofRatio true sig 1).getD (Binary64.zero true))

/-- A number after its sign. -/
def unsignedNumber (negative : Bool) : Reader Number := fun s =>
  match digits s with
  | ([], []) => .error .unfinished
  | ([], _ :: _) => .error .malformed
  | (d :: ds, rest) =>
    if d = 0 ∧ ds ≠ [] then .error .malformed
    else
      let (sig, _, dropped) := gather 0 (d :: ds)
      match rest with
      | b :: rest' =>
        if b = ofAscii '.' then fractionPart negative sig dropped.length rest'
        else if dropped.isEmpty ∧ (exponentFollows rest).isNone then .ok (wholeNumber negative sig, rest)
        else finishFloat negative sig dropped.length rest
      | [] =>
        if dropped.isEmpty then .ok (wholeNumber negative sig, rest)
        else finishFloat negative sig dropped.length rest

/-- A number. -/
def readNumber : Reader Number := fun s =>
  match s with
  | b :: rest => if b = ofAscii '-' then unsignedNumber true rest else unsignedNumber false s
  | [] => .error .unfinished

/-- At least one digit, none of them kept. -/
def skipDigits : Reader Unit := fun s =>
  match digits s with
  | ([], _) => .error .malformed
  | (_, rest) => .ok ((), rest)

/-- The grammar of a number alone. -/
def skipNumber : Reader Unit := fun s => do
  let s := match s with
    | b :: rest => if b = ofAscii '-' then rest else s
    | [] => s
  let s ← match digits s with
    | ([], _) => .error .malformed
    | (d :: ds, rest) => if d = 0 ∧ ds ≠ [] then .error .malformed else .ok rest
  let ((), s) ← match s with
    | b :: rest => if b = ofAscii '.' then skipDigits rest else .ok ((), s)
    | [] => .ok ((), s)
  match exponentFollows s with
  | some (b :: rest) => if b = ofAscii '+' ∨ b = ofAscii '-' then skipDigits rest else skipDigits (b :: rest)
  | some [] => .error .malformed
  | none => .ok ((), s)

/-! ## Sequences and objects -/

/-- Folds `item` over the elements of a sequence, after its opening bracket. -/
def foldElements (item : σ → Reader σ) : Nat → Bool → σ → Reader σ
  | 0, _, _, _ => .error .unfinished
  | bound + 1, first, acc, s =>
    match skipBlank s with
    | [] => .error .unfinished
    | b :: rest =>
      if b = ofAscii ']' then .ok (acc, rest)
      else if first then do
        let (acc, s) ← item acc (b :: rest)
        foldElements item bound false acc s
      else if b = ofAscii ',' then
        match skipBlank rest with
        | [] => .error .unfinished
        | c :: rest =>
          if c = ofAscii ']' then .error .malformed
          else do
            let (acc, s) ← item acc (c :: rest)
            foldElements item bound false acc s
      else .error .malformed

/-- The colon between a name and its value. -/
def colon : Reader Unit := fun s =>
  match skipBlank s with
  | [] => .error .unfinished
  | b :: rest => if b = ofAscii ':' then .ok ((), rest) else .error .malformed

/-- Folds `member` over the members of an object, after its opening brace. `name` reads a name after its quote, and `member`
goes on from the colon. -/
def foldMembers (name : Reader κ) (member : σ → κ → Reader σ) : Nat → Bool → σ → Reader σ
  | 0, _, _, _ => .error .unfinished
  | bound + 1, first, acc, s =>
    match skipBlank s with
    | [] => .error .unfinished
    | b :: rest =>
      if b = ofAscii '\x7d' then .ok (acc, rest)
      else do
        let s ← if first then .ok (b :: rest) else if b = ofAscii ',' then .ok (skipBlank rest) else .error .malformed
        match s with
        | [] => .error .unfinished
        | q :: s =>
          if q ≠ ofAscii '\x22' then .error .malformed
          else do
            let (k, s) ← name s
            let (acc, s) ← member acc k s
            foldMembers name member bound false acc s

/-! ## Values -/

/-- What a value starts with. -/
inductive Lead where
  | null | true | false | number | string | sequence | object

/-- Which kind of value an octet starts. -/
def lead? (b : UInt8) : Option Lead :=
  if b = ofAscii '\x22' then some .string
  else if b = ofAscii '\x7b' then some .object
  else if b = ofAscii '[' then some .sequence
  else if isDigit b ∨ b = ofAscii '-' then some .number
  else if b = ofAscii 'n' then some .null
  else if b = ofAscii 't' then some .true
  else if b = ofAscii 'f' then some .false
  else none

/-- The octets of a word of ASCII letters. -/
def ascii (s : String) : Octets := s.toList.map ofAscii

/-- How often a value that is kept may nest. -/
def greatestDepth : Nat := 127

/-- A value that nests at most `depth` times. -/
def readValue : Nat → Reader Json
  | depth, s =>
    match skipBlank s with
    | [] => .error .unfinished
    | b :: rest =>
      match lead? b with
      | none => .error .malformed
      | some .null => (word (ascii "ull") rest).map fun r => (.null, r.2)
      | some .true => (word (ascii "rue") rest).map fun r => (.bool true, r.2)
      | some .false => (word (ascii "alse") rest).map fun r => (.bool false, r.2)
      | some .number => (readNumber (b :: rest)).map fun r => (.number r.1, r.2)
      | some .string => (stringBody rest).map fun r => (.string r.1, r.2)
      | some .sequence =>
        match depth with
        | 0 => .error .malformed
        | depth + 1 =>
          (foldElements (fun acc s => (readValue depth s).map fun r => (r.1 :: acc, r.2)) (rest.length + 1) true [] rest).map
            fun r => (.array r.1.reverse, r.2)
      | some .object =>
        match depth with
        | 0 => .error .malformed
        | depth + 1 =>
          (foldMembers stringBody
            (fun acc k s => do
              let ((), s) ← colon s
              (readValue depth s).map fun r => (setMember k r.1 acc, r.2))
            (rest.length + 1) true [] rest).map fun r => (.object r.1, r.2)

/-- A value that is not kept and nests at most `depth` times. -/
def skipNested : Nat → Reader Unit
  | depth, s =>
    match skipBlank s with
    | [] => .error .unfinished
    | b :: rest =>
      match lead? b with
      | none => .error .malformed
      | some .null => word (ascii "ull") rest
      | some .true => word (ascii "rue") rest
      | some .false => word (ascii "alse") rest
      | some .number => skipNumber (b :: rest)
      | some .string => skipStringBody rest
      | some .sequence =>
        match depth with
        | 0 => .error .unfinished
        | depth + 1 => foldElements (fun _ s => skipNested depth s) (rest.length + 1) true () rest
      | some .object =>
        match depth with
        | 0 => .error .unfinished
        | depth + 1 =>
          foldMembers skipStringBody
            (fun _ _ s => do
              let ((), s) ← colon s
              skipNested depth s)
            (rest.length + 1) true () rest

/-- A value that is not kept. It may nest as deep as its text is long. -/
def skipValue : Reader Unit := fun s => skipNested s.length s

/-- A whole document: one value and nothing but blanks after it. -/
def document (read : Reader α) (s : Octets) : Except Fault α := do
  let (a, rest) ← read s
  if (skipBlank rest).isEmpty then .ok a else .error .malformed

/-- The value of a document. -/
def ofOctets (s : Octets) : Except Fault Json := document (readValue greatestDepth) s

/-- The value of a document in a text. -/
def ofText (s : String) : Except Fault Json := ofOctets (Utf8.encode s)

end AuditTrail.Json
