/-!
# UTF-8

Texts travel as octets. `encode` writes a text, `decode?` reads octets back and refuses every ill-formed sequence: an
unexpected or missing continuation octet, an overlong form, a surrogate, or a code point beyond U+10FFFF.
-/

namespace AuditTrail

/-- A run of octets. -/
abbrev Octets := List UInt8

namespace Utf8

/-- The octets of a text. -/
def encode (s : String) : Octets :=
  s.toList.flatMap String.utf8EncodeChar

/-- The low six bits of a continuation octet, `none` for any other octet. -/
def continuation? (b : UInt8) : Option Nat :=
  if b &&& 0xc0 == 0x80 then some (b &&& 0x3f).toNat else none

/-- The character with code point `n` if it lies in `[lo, hi]` and is no surrogate. -/
def charIn? (lo hi n : Nat) : Option Char :=
  if lo ≤ n ∧ n ≤ hi then
    if h : n.isValidChar then some ⟨n.toUInt32, by
      unfold Nat.isValidChar at h
      unfold UInt32.isValidChar Nat.isValidChar
      have : n.toUInt32.toNat = n := by
        rw [Nat.toUInt32_eq, UInt32.toNat_ofNat']
        exact Nat.mod_eq_of_lt (by omega)
      omega⟩ else none
  else none

/-- Reads characters as long as octets last. -/
def decodeChars : Octets → Option (List Char)
  | [] => some []
  | a :: rest =>
    if a < 0x80 then (decodeChars rest).map (Char.ofNat a.toNat :: ·)
    else match rest with
      | [] => none
      | b :: rest => do
        let y ← continuation? b
        if a &&& 0xe0 == 0xc0 then
          let c ← charIn? 0x80 0x7ff ((a &&& 0x1f).toNat * 0x40 + y)
          (decodeChars rest).map (c :: ·)
        else match rest with
          | [] => none
          | c :: rest => do
            let z ← continuation? c
            if a &&& 0xf0 == 0xe0 then
              let c ← charIn? 0x800 0xffff (((a &&& 0x0f).toNat * 0x40 + y) * 0x40 + z)
              (decodeChars rest).map (c :: ·)
            else match rest with
              | [] => none
              | d :: rest => do
                let w ← continuation? d
                if a &&& 0xf8 == 0xf0 then
                  let c ← charIn? 0x10000 0x10ffff ((((a &&& 0x07).toNat * 0x40 + y) * 0x40 + z) * 0x40 + w)
                  (decodeChars rest).map (c :: ·)
                else none

/-- The text that the octets spell, if they are well-formed. -/
def decode? (bytes : Octets) : Option String :=
  (decodeChars bytes).map String.ofList

/-- The text that the octets spell, empty when they are ill-formed. -/
def decodeD (bytes : Octets) : String :=
  (decode? bytes).getD ""

end Utf8

namespace Octets

/-- The code of an ASCII character. -/
@[inline] def ofAscii (c : Char) : UInt8 := c.toNat.toUInt8

/-- The value of a hexadecimal digit, in either case. -/
def hexDigit? (b : UInt8) : Option Nat :=
  if ofAscii '0' ≤ b && b ≤ ofAscii '9' then some (b - ofAscii '0').toNat
  else if ofAscii 'a' ≤ b && b ≤ ofAscii 'f' then some ((b - ofAscii 'a').toNat + 10)
  else if ofAscii 'A' ≤ b && b ≤ ofAscii 'F' then some ((b - ofAscii 'A').toNat + 10)
  else none

/-- Whether the octet is a decimal digit. -/
def isDigit (b : UInt8) : Bool := ofAscii '0' ≤ b && b ≤ ofAscii '9'

/-- The value of a decimal digit. -/
def digit (b : UInt8) : Nat := (b - ofAscii '0').toNat

/-- Two lower-case hexadecimal digits for each octet. -/
def toHex (bytes : Octets) : String :=
  String.ofList (bytes.flatMap fun b => [Nat.digitChar (b.toNat / 16), Nat.digitChar (b.toNat % 16)])

/-- The octets written as pairs of hexadecimal digits. -/
def ofHex? : List Char → Option Octets
  | [] => some []
  | [_] => none
  | a :: b :: rest => do
    let x ← hexDigit? (ofAscii a)
    let y ← hexDigit? (ofAscii b)
    (ofHex? rest).map ((x * 16 + y).toUInt8 :: ·)

end Octets

end AuditTrail
