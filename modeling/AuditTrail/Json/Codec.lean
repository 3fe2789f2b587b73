import AuditTrail.Json.Reader
import AuditTrail.Time.Rfc3339

/-!
# Codecs

A codec says how the values of a type travel as JSON: the exact text written for one, how one is read from the front of a text,
and how one is taken from a value that has been read already. Reading from a text costs one level of depth wherever a bracket or
a brace opens.
-/

namespace AuditTrail.Json

open Octets (ofAscii)

/-- How the values of a type are written as JSON and read back. -/
structure Codec (α : Type) where
  /-- The exact text of a value. -/
  write : α → String
  /-- Reads a value that nests no deeper than the given depth. -/
  read : Nat → Reader α
  /-- Takes a value from one that is already read. -/
  ofJson : Json → Except Fault α

namespace Codec

/-- Reads a value from a whole document. -/
def decode (c : Codec α) (s : Octets) : Except Fault α := document (c.read greatestDepth) s

/-- The octets of the text of a value. -/
def encode (c : Codec α) (a : α) : Octets := Utf8.encode (c.write a)

end Codec

/-- A value of another type than expected. -/
def wrongType (found : Found) (expected : String) : Except Fault α := .error (.mismatch (.type found expected))

/-- The fault of a value at the front that has another type than expected. A scalar has to be well-formed to be named; of a
sequence or an object only the opening is looked at. -/
def unexpected (expected : String) : Reader α := fun s =>
  match s with
  | [] => .error .unfinished
  | b :: rest =>
    match lead? b with
    | none => .error .malformed
    | some .null => do let _ ← word (ascii "ull") rest; wrongType .null expected
    | some .true => do let _ ← word (ascii "rue") rest; wrongType (.bool true) expected
    | some .false => do let _ ← word (ascii "alse") rest; wrongType (.bool false) expected
    | some .number => do let (n, _) ← readNumber s; wrongType (.number n) expected
    | some .string => do let (t, _) ← stringBody rest; wrongType (.string t) expected
    | some .sequence => wrongType .sequence expected
    | some .object => wrongType .map expected

/-- A string, whatever it says. -/
def readString (expected : String) : Reader String := fun s =>
  match skipBlank s with
  | [] => .error .unfinished
  | b :: rest => if b = ofAscii '\x22' then stringBody rest else unexpected expected (b :: rest)

/-- A number, whatever its kind. -/
def numberFrom (expected : String) : Reader Number := fun s =>
  match skipBlank s with
  | [] => .error .unfinished
  | b :: rest =>
    match lead? b with
    | some .number => readNumber (b :: rest)
    | _ => unexpected expected (b :: rest)

/-- A codec for a type whose values are written as strings. -/
def Codec.viaString (expected : String) (parse : String → Except Fault α) (text : α → String) : Codec α where
  write a := renderString (text a)
  read _ s := do
    let (t, s) ← readString expected s
    let a ← parse t
    .ok (a, s)
  ofJson
    | .string t => parse t
    | v => wrongType (.ofJson v) expected

/-- A codec for a type whose values are written as whole numbers. -/
def Codec.viaInt (expected : String) (parse : Int → Except Fault α) (number : α → Int) : Codec α where
  write a := renderInt (number a)
  read _ s := do
    let (n, s) ← numberFrom expected s
    match n with
    | .int n => do let a ← parse n; .ok (a, s)
    | .float x => wrongType (.number (.float x)) expected
  ofJson
    | .number (.int n) => parse n
    | v => wrongType (.ofJson v) expected

/-- Strings. -/
def Codec.string : Codec String := .viaString "a string" .ok id

/-- Whole numbers between two bounds, under the name of their range. -/
def Codec.boundedInt (range : String) (lo hi : Int) : Codec Int :=
  .viaInt range (fun n => if lo ≤ n ∧ n ≤ hi then .ok n else .error (.mismatch (.value (.number (.int n)) range))) id

/-- Whole numbers of 32 bits. -/
def Codec.int32 : Codec Int := .boundedInt "i32" (-0x80000000) 0x7fffffff

/-- Whole numbers of 64 bits. -/
def Codec.int64 : Codec Int := .boundedInt "i64" (-0x8000000000000000) 0x7fffffffffffffff

/-- Instants as whole seconds since the epoch. Finer parts are dropped. -/
def Codec.seconds : Codec Instant :=
  .viaInt "a unix timestamp in seconds"
    (fun n => match Instant.ofSeconds? n with
      | some t => .ok t
      | none => .error (.mismatch (.timestamp n)))
    Instant.seconds

/-- Instants as RFC 3339 times. -/
def Codec.time : Codec Instant :=
  .viaString "an RFC 3339 formatted date and time string"
    (fun t => match Instant.parse? t with
      | some i => .ok i
      | none => .error (.mismatch (.time t)))
    (·.render .letter)

/-- Any value except null, which stands for none. -/
def Codec.optional : Codec (Option Json) where
  write
    | some v => v.render
    | none => "null"
  read depth s := do
    let (v, s) ← readValue depth s
    .ok (if v = .null then none else some v, s)
  ofJson v := .ok (if v = .null then none else some v)

/-- Sequences of values of one codec. -/
def Codec.list (c : Codec α) : Codec (List α) where
  write as := renderArray (as.map c.write)
  read depth s :=
    match skipBlank s with
    | [] => .error .unfinished
    | b :: rest =>
      if b = ofAscii '[' then
        match depth with
        | 0 => .error .malformed
        | depth + 1 => do
          let (as, s) ← foldElements (fun acc s => (c.read depth s).map fun r => (r.1 :: acc, r.2)) (rest.length + 1) true []
            rest
          .ok (as.reverse, s)
      else unexpected "a sequence" (b :: rest)
  ofJson
    | .array vs => vs.mapM c.ofJson
    | v => wrongType (.ofJson v) "a sequence"

/-! ## Named variants -/

/-- A type of named variants without data. -/
structure Variants (α : Type) where
  /-- The variants with their names, in order. -/
  all : List (String × α)
  name : α → String

namespace Variants

/-- The variant of that name. -/
def find (vs : Variants α) (name : String) : Except Fault α :=
  match vs.all.lookup name with
  | some a => .ok a
  | none => .error (.mismatch (.unknownVariant name (vs.all.map (·.1))))

/-- A null. -/
def readNull : Reader Unit := fun s =>
  match skipBlank s with
  | [] => .error .unfinished
  | b :: rest => if b = ofAscii 'n' then word (ascii "ull") rest else unexpected "unit" (b :: rest)

/-- A variant, as its name or as an object whose only member has that name and the value null. -/
def codec (vs : Variants α) : Codec α where
  write a := renderString (vs.name a)
  read depth s :=
    match skipBlank s with
    | [] => .error .unfinished
    | b :: rest =>
      if b = ofAscii '\x22' then do
        let (t, s) ← stringBody rest
        let a ← vs.find t
        .ok (a, s)
      else if b = ofAscii '\x7b' then
        if depth = 0 then .error .malformed
        else do
          let (t, s) ← readString "variant identifier" rest
          let a ← vs.find t
          let ((), s) ← colon s
          let ((), s) ← readNull s
          match skipBlank s with
          | [] => .error .unfinished
          | b :: s => if b = ofAscii '\x7d' then .ok (a, s) else .error .malformed
      else .error .malformed
  ofJson
    | .string t => vs.find t
    | .object [(t, v)] => do
      let a ← vs.find t
      if v = .null then .ok a else wrongType (.ofJson v) "unit"
    | .object _ => .error (.mismatch (.value .map "map with a single key"))
    | v => wrongType (.ofJson v) "string or map"

end Variants

end AuditTrail.Json
