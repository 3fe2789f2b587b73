import AuditTrail.Decimal.Shortest

/-!
# JSON values

A number is a whole number that fits 64 bits, signed or unsigned, or else a binary64 number. The members of an object are kept
sorted by name, each name once.
-/

namespace AuditTrail

namespace Json

/-- A JSON number. -/
inductive Number where
  /-- A whole number from -2^63 up to 2^64 - 1. -/
  | int (n : Int)
  /-- Any other number. -/
  | float (x : Binary64)
  deriving DecidableEq, Repr, Inhabited

end Json

/-- A JSON value. -/
inductive Json where
  | null
  | bool (b : Bool)
  | number (n : Json.Number)
  | string (s : String)
  | array (items : List Json)
  | object (members : List (String × Json))
  deriving Inhabited, Repr

namespace Json

mutual

/-- Decides equality of two values. -/
def decEq : (a b : Json) → Decidable (a = b)
  | .null, .null => isTrue rfl
  | .bool a, .bool b => if h : a = b then isTrue (h ▸ rfl) else isFalse (by simpa using h)
  | .number a, .number b => if h : a = b then isTrue (h ▸ rfl) else isFalse (by simpa using h)
  | .string a, .string b => if h : a = b then isTrue (h ▸ rfl) else isFalse (by simpa using h)
  | .array a, .array b => match decEqItems a b with
    | isTrue h => isTrue (h ▸ rfl)
    | isFalse h => isFalse (by simpa using h)
  | .object a, .object b => match decEqMembers a b with
    | isTrue h => isTrue (h ▸ rfl)
    | isFalse h => isFalse (by simpa using h)
  | .null, .bool _ | .null, .number _ | .null, .string _ | .null, .array _ | .null, .object _ => isFalse nofun
  | .bool _, .null | .bool _, .number _ | .bool _, .string _ | .bool _, .array _ | .bool _, .object _ => isFalse nofun
  | .number _, .null | .number _, .bool _ | .number _, .string _ | .number _, .array _ | .number _, .object _ => isFalse nofun
  | .string _, .null | .string _, .bool _ | .string _, .number _ | .string _, .array _ | .string _, .object _ => isFalse nofun
  | .array _, .null | .array _, .bool _ | .array _, .number _ | .array _, .string _ | .array _, .object _ => isFalse nofun
  | .object _, .null | .object _, .bool _ | .object _, .number _ | .object _, .string _ | .object _, .array _ => isFalse nofun

/-- Decides equality of two lists of values. -/
def decEqItems : (a b : List Json) → Decidable (a = b)
  | [], [] => isTrue rfl
  | x :: xs, y :: ys => match decEq x y, decEqItems xs ys with
    | isTrue h, isTrue h' => isTrue (h ▸ h' ▸ rfl)
    | isFalse h, _ => isFalse (by simp [h])
    | _, isFalse h => isFalse (by simp [h])
  | [], _ :: _ | _ :: _, [] => isFalse nofun

/-- Decides equality of two lists of members. -/
def decEqMembers : (a b : List (String × Json)) → Decidable (a = b)
  | [], [] => isTrue rfl
  | (k, x) :: xs, (l, y) :: ys => match decEq x y, decEqMembers xs ys with
    | isTrue h, isTrue h' => if hk : k = l then isTrue (hk ▸ h ▸ h' ▸ rfl) else isFalse (by simp [hk])
    | isFalse h, _ => isFalse (by simp [h])
    | _, isFalse h => isFalse (by simp [h])
  | [], _ :: _ | _ :: _, [] => isFalse nofun

end

instance : DecidableEq Json := decEq

/-- Numbers that compare equal: the two zeros among the binary64 numbers do. -/
def Number.sameValue : Number → Number → Bool
  | .int a, .int b => a == b
  | .float x, .float y => x.sameValue y
  | _, _ => false

mutual

/-- Values that compare equal: as `=`, except that numbers compare by value. -/
def sameValue : Json → Json → Bool
  | .number a, .number b => a.sameValue b
  | .array a, .array b => sameItems a b
  | .object a, .object b => sameMembers a b
  | .null, .null => true
  | .bool a, .bool b => a == b
  | .string a, .string b => a == b
  | _, _ => false

/-- Lists of values that compare equal. -/
def sameItems : List Json → List Json → Bool
  | [], [] => true
  | x :: xs, y :: ys => sameValue x y && sameItems xs ys
  | _, _ => false

/-- Lists of members that compare equal. -/
def sameMembers : List (String × Json) → List (String × Json) → Bool
  | [], [] => true
  | (k, x) :: xs, (l, y) :: ys => k == l && sameValue x y && sameMembers xs ys
  | _, _ => false

end

/-- Sets a member in a sorted list of members, in its place; an earlier value of the name is replaced. -/
def setMember (k : String) (v : Json) : List (String × Json) → List (String × Json)
  | [] => [(k, v)]
  | (l, w) :: rest =>
    if k < l then (k, v) :: (l, w) :: rest else if k = l then (k, v) :: rest else (l, w) :: setMember k v rest

/-- The object with the given members; of two with one name the later counts. -/
def ofMembers (ms : List (String × Json)) : Json :=
  .object (ms.foldl (fun acc m => setMember m.1 m.2 acc) [])

/-- The member of that name, if the value is an object that has one. -/
def get? (v : Json) (k : String) : Option Json :=
  match v with
  | .object ms => ms.lookup k
  | _ => none

/-- A whole number as a value. -/
def ofInt (n : Int) : Json := .number (.int n)

/-- A natural number as a value. -/
def ofNat (n : Nat) : Json := .number (.int n)

end Json

end AuditTrail
