import AuditTrail.Error
import AuditTrail.Json.Record

/-!
# Events

Two producers publish JSON: the row changes of every transaction, and one marker for each committed transaction that the
application annotates. Both carry the GTID of the transaction, the only key to join them by. On the wire their times are whole
seconds since the epoch.
-/

namespace AuditTrail

/-- What was done to a row. -/
inductive RowAction where
  | insert
  | update
  | delete
  deriving DecidableEq, Repr

namespace RowAction

/-- The name of an action. -/
def name : RowAction → String
  | .insert => "insert"
  | .update => "update"
  | .delete => "delete"

/-- The actions under their names. -/
def variants : Json.Variants RowAction := ⟨[("insert", .insert), ("update", .update), ("delete", .delete)], name⟩

/-- The action of that name. -/
def parse (s : String) : Except Error RowAction :=
  match variants.all.lookup s with
  | some a => .ok a
  | none => .error (.serialization ("unknown row action '" ++ s ++ "'"))

end RowAction

/-- The images of a row before and after its change. -/
structure Images where
  before : Option Json
  after : Option Json
  deriving DecidableEq, Repr, Inhabited

namespace Images

/-- Neither image. -/
def none : Images := ⟨Option.none, Option.none⟩

/-- Images that are being read. -/
structure Draft where
  before : Option (Option Json)
  after : Option (Option Json)

/-- How images are read. -/
def shape : Json.Shape Draft Images where
  typeName := "RowChangeData"
  empty := ⟨Option.none, Option.none⟩
  fields := [
    .ofCodec "before" .optional Draft.before fun v d => { d with before := some v },
    .ofCodec "after" .optional Draft.after fun v d => { d with after := some v }]
  finish d := .ok ⟨d.before.join, d.after.join⟩

/-- The text of images; an image that is absent is left out. -/
def write (i : Images) : String :=
  let image (name : String) (v : Option Json) := (v.map fun v => (name, v.render)).toList
  Json.renderFields (image "before" i.before ++ image "after" i.after)

/-- Images as JSON. -/
def codec : Json.Codec Images := shape.codec write

/-- Images that compare equal, numbers by value. -/
def sameValue (i j : Images) : Bool :=
  let same : Option Json → Option Json → Bool
    | some v, some w => v.sameValue w
    | Option.none, Option.none => true
    | _, _ => false
  same i.before j.before && same i.after j.after

end Images

/-- A change of one row, tagged with its transaction. -/
structure RowChange where
  database : String
  table : String
  action : RowAction
  gtid : String
  time : Instant
  images : Images
  deriving DecidableEq, Repr

namespace RowChange

/-- The qualified name of the table. -/
def qualifiedTable (e : RowChange) : String := e.database ++ "." ++ e.table

/-- A short description. -/
def describe (e : RowChange) : String := e.action.name ++ " " ++ e.qualifiedTable ++ " gtid=" ++ e.gtid

/-- A row change that is being read. -/
structure Draft where
  database : Option String
  table : Option String
  action : Option RowAction
  gtid : Option String
  time : Option Instant
  images : Option Images

/-- How a row change is read. Its images may be missing. -/
def shape : Json.Shape Draft RowChange where
  typeName := "RowChangeEvent"
  empty := ⟨none, none, none, none, none, none⟩
  fields := [
    .ofCodec "db" .string Draft.database fun v d => { d with database := some v },
    .ofCodec "table" .string Draft.table fun v d => { d with table := some v },
    .ofCodec "action" RowAction.variants.codec Draft.action fun v d => { d with action := some v },
    .ofCodec "gtid" .string Draft.gtid fun v d => { d with gtid := some v },
    .ofCodec "time" .seconds Draft.time fun v d => { d with time := some v },
    .ofCodec "data" Images.codec Draft.images fun v d => { d with images := some v }]
  finish d := do
    let database ← Json.required "db" d.database
    let table ← Json.required "table" d.table
    let action ← Json.required "action" d.action
    let gtid ← Json.required "gtid" d.gtid
    let time ← Json.required "time" d.time
    .ok ⟨database, table, action, gtid, time, d.images.getD .none⟩

/-- The text of a row change. -/
def write (e : RowChange) : String :=
  Json.renderFields [
    ("db", Json.renderString e.database), ("table", Json.renderString e.table),
    ("action", Json.renderString e.action.name), ("gtid", Json.renderString e.gtid),
    ("time", Json.Codec.seconds.write e.time), ("data", e.images.write)]

/-- A row change as JSON. -/
def codec : Json.Codec RowChange := shape.codec write

/-- Reads a row change from a payload. -/
def decode (payload : Octets) : Except Error RowChange := (codec.decode payload).mapError .json

/-- The payload of a row change. -/
def encode (e : RowChange) : Octets := codec.encode e

/-- Row changes that compare equal, the numbers in their images by value. -/
def sameValue (a b : RowChange) : Bool :=
  { a with images := .none } == { b with images := .none } && a.images.sameValue b.images

end RowChange

/-- What the application says about a transaction when it commits. -/
structure Marker where
  gtid : String
  /-- Anything the application wants to keep: a user, a request. -/
  context : String
  commitTime : Instant
  deriving DecidableEq, Repr

namespace Marker

/-- A marker that is being read. -/
structure Draft where
  gtid : Option String
  context : Option String
  commitTime : Option Instant

/-- How a marker is read. Its context may be missing. -/
def shape : Json.Shape Draft Marker where
  typeName := "TransactionMarker"
  empty := ⟨none, none, none⟩
  fields := [
    .ofCodec "gtid" .string Draft.gtid fun v d => { d with gtid := some v },
    .ofCodec "context" .string Draft.context fun v d => { d with context := some v },
    .ofCodec "time" .seconds Draft.commitTime fun v d => { d with commitTime := some v }]
  finish d := do
    let gtid ← Json.required "gtid" d.gtid
    let commitTime ← Json.required "time" d.commitTime
    .ok ⟨gtid, d.context.getD "", commitTime⟩

/-- The text of a marker. -/
def write (m : Marker) : String :=
  Json.renderFields [
    ("gtid", Json.renderString m.gtid), ("context", Json.renderString m.context),
    ("time", Json.Codec.seconds.write m.commitTime)]

/-- A marker as JSON. -/
def codec : Json.Codec Marker := shape.codec write

/-- Reads a marker from a payload. -/
def decode (payload : Octets) : Except Error Marker := (codec.decode payload).mapError .json

/-- The payload of a marker. -/
def encode (m : Marker) : Octets := codec.encode m

end Marker

end AuditTrail
