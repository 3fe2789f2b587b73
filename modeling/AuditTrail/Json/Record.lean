import AuditTrail.Json.Codec

/-!
# Records

A record travels as an object with a member for each field. It may also be read from the array of its fields in their order. A
record is read into a draft first, which knows of each field whether it has been seen; the draft then becomes the record if no
required field is missing.

Unknown members are skipped. A known member that comes twice is a fault before its second value is looked at.
-/

namespace AuditTrail.Json

open Octets (ofAscii)

/-- A field of a record that is being read into a draft. -/
structure Field (δ : Type) where
  name : String
  /-- Whether the draft has the field already. -/
  isSet : δ → Bool
  /-- Reads a value for the field; the result puts it into a draft. -/
  read : Nat → Reader (δ → δ)
  /-- Takes a value for the field from one that is already read. -/
  ofJson : Json → Except Fault (δ → δ)

/-- The field of that name with values of a codec. -/
def Field.ofCodec (name : String) (c : Codec τ) (get : δ → Option τ) (set : τ → δ → δ) : Field δ where
  name := name
  isSet d := (get d).isSome
  read depth s := (c.read depth s).map fun r => (set r.1, r.2)
  ofJson v := (c.ofJson v).map set

/-- How a record is read: its fields in their order, and how a draft becomes the record. -/
structure Shape (δ α : Type) where
  typeName : String
  empty : δ
  fields : List (Field δ)
  /-- The record of a draft, or the name of the first required field that is missing. -/
  finish : δ → Except String α

/-- The value of a required field, or its name. -/
def required (name : String) : Option τ → Except String τ
  | some a => .ok a
  | none => .error name

namespace Shape

/-- What the record is called where another value stands. -/
def expected (r : Shape δ α) : String := "struct " ++ r.typeName

/-- What the record is called where a sequence has the wrong length. -/
def expectedLength (r : Shape δ α) : String := r.expected ++ " with " ++ toString r.fields.length ++ " elements"

/-- The record of a draft that was read from an object. -/
def ofMembers (r : Shape δ α) (d : δ) : Except Fault α :=
  (r.finish d).mapError fun name => .mismatch (.missingField name)

/-- The record of a draft that was read from a sequence. A field is missing where the sequence ends too early. -/
def ofElements (r : Shape δ α) (d : δ) : Except Fault α :=
  (r.finish d).mapError fun name => .mismatch (.length (r.fields.findIdx (·.name == name)) r.expectedLength)

/-- Reads one member, from its colon on. -/
def readMember (r : Shape δ α) (depth : Nat) (d : δ) (name : String) : Reader δ := fun s =>
  match r.fields.find? (·.name == name) with
  | some f =>
    if f.isSet d then .error (.mismatch (.duplicateField name))
    else do
      let ((), s) ← colon s
      let (set, s) ← f.read depth s
      .ok (set d, s)
  | none => do
    let ((), s) ← colon s
    let ((), s) ← skipValue s
    .ok (d, s)

/-- The end of a sequence that has all its elements. -/
def closeSequence : Reader Unit := fun s =>
  match skipBlank s with
  | [] => .error .unfinished
  | b :: rest => if b = ofAscii ']' then .ok ((), rest) else .error .malformed

/-- Reads the elements of a sequence into the fields in their order, after its opening bracket. -/
def readElements (depth : Nat) : List (Field δ) → Bool → δ → Reader δ
  | [], _, d, s => do
    let ((), s) ← closeSequence s
    .ok (d, s)
  | f :: fs, first, d, s =>
    match skipBlank s with
    | [] => .error .unfinished
    | b :: rest =>
      if b = ofAscii ']' then .ok (d, rest)
      else do
        let s ← if first then .ok (b :: rest)
          else if b ≠ ofAscii ',' then .error .malformed
          else match skipBlank rest with
            | [] => .error .unfinished
            | c :: rest => if c = ofAscii ']' then .error .malformed else .ok (c :: rest)
        let (set, s) ← f.read depth s
        readElements depth fs false (set d) s

/-- Reads a record. -/
def read (r : Shape δ α) (depth : Nat) : Reader α := fun s =>
  match skipBlank s with
  | [] => .error .unfinished
  | b :: rest =>
    match lead? b, depth with
    | some .sequence, 0 => .error .malformed
    | some .object, 0 => .error .malformed
    | some .sequence, depth + 1 => do
      let (d, s) ← readElements depth r.fields true r.empty rest
      let a ← r.ofElements d
      .ok (a, s)
    | some .object, depth + 1 => do
      let (d, s) ← foldMembers stringBody (r.readMember depth) (rest.length + 1) true r.empty rest
      let a ← r.ofMembers d
      .ok (a, s)
    | _, _ => unexpected r.expected (b :: rest)

/-- Takes the known members into a draft. -/
def takeMembers (r : Shape δ α) : List (String × Json) → δ → Except Fault δ
  | [], d => .ok d
  | (name, v) :: rest, d =>
    match r.fields.find? (·.name == name) with
    | some f => do
      let set ← f.ofJson v
      r.takeMembers rest (set d)
    | none => r.takeMembers rest d

/-- Takes the elements into the fields in their order; what is left has no field. -/
def takeElements : List (Field δ) → List Json → δ → Except Fault (δ × List Json)
  | f :: fs, v :: vs, d => do
    let set ← f.ofJson v
    takeElements fs vs (set d)
  | _, vs, d => .ok (d, vs)

/-- Takes a record from a value. -/
def ofJson (r : Shape δ α) : Json → Except Fault α
  | .object ms => do
    let d ← r.takeMembers ms r.empty
    r.ofMembers d
  | .array vs => do
    let (d, rest) ← takeElements r.fields vs r.empty
    let a ← r.ofElements d
    if rest.isEmpty then .ok a else .error (.mismatch (.length vs.length "fewer elements in array"))
  | v => wrongType (.ofJson v) r.expected

/-- The codec of a record that is written by `write`. -/
def codec (r : Shape δ α) (write : α → String) : Codec α := ⟨write, r.read, r.ofJson⟩

end Shape

end AuditTrail.Json
