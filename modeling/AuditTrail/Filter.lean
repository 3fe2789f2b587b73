import AuditTrail.Event
import AuditTrail.Filter.Glob
import AuditTrail.Text.Lowercase

/-!
# Filtering

Only audited tables are stored. Tables are matched by glob patterns, on the qualified name or on the bare name; an exclusion
counts more than an inclusion, and without any inclusion all tables are included. Columns can be masked in both images of a row
before anything is stored.
-/

namespace AuditTrail

/-- Which tables to audit and which columns to hide. -/
structure FilterConfig where
  includeTables : List String
  excludeTables : List String
  maskColumns : List String
  deriving DecidableEq, Repr

namespace FilterConfig

/-- All tables, nothing hidden. -/
def default : FilterConfig := ⟨["*"], [], []⟩

/-- A filter configuration that is being read. -/
structure Draft where
  includeTables : Option (List String)
  excludeTables : Option (List String)
  maskColumns : Option (List String)

/-- How a filter configuration is read. Every field may be missing. -/
def shape : Json.Shape Draft FilterConfig where
  typeName := "TableFilterConfig"
  empty := ⟨none, none, none⟩
  fields := [
    .ofCodec "include_tables" (.list .string) Draft.includeTables fun v d => { d with includeTables := some v },
    .ofCodec "exclude_tables" (.list .string) Draft.excludeTables fun v d => { d with excludeTables := some v },
    .ofCodec "mask_columns" (.list .string) Draft.maskColumns fun v d => { d with maskColumns := some v }]
  finish d := .ok ⟨d.includeTables.getD default.includeTables, d.excludeTables.getD [], d.maskColumns.getD []⟩

/-- The text of a filter configuration. -/
def write (c : FilterConfig) : String :=
  Json.renderFields [
    ("include_tables", (Json.Codec.list .string).write c.includeTables),
    ("exclude_tables", (Json.Codec.list .string).write c.excludeTables),
    ("mask_columns", (Json.Codec.list .string).write c.maskColumns)]

/-- A filter configuration as JSON. -/
def codec : Json.Codec FilterConfig := shape.codec write

end FilterConfig

/-- A filter ready for use; the names of hidden columns are in lower case. -/
structure Filter where
  includePatterns : List String
  excludePatterns : List String
  masked : List String
  deriving DecidableEq, Repr

namespace Filter

/-- What stands in the place of a hidden value. -/
def mask : String := "***REDACTED***"

/-- The filter of a configuration. -/
def ofConfig (c : FilterConfig) : Filter := ⟨c.includeTables, c.excludeTables, c.maskColumns.map Text.lowercase⟩

/-- The filter that keeps everything as it is. -/
def allowAll : Filter := ⟨[], [], []⟩

/-- Whether a pattern matches the qualified or the bare name of a table. -/
def matchesTable (database table pattern : String) : Bool :=
  Glob.isMatch pattern (database ++ "." ++ table) || Glob.isMatch pattern table

/-- Whether a table is audited. -/
def includesTable (f : Filter) (database table : String) : Bool :=
  !f.excludePatterns.any (matchesTable database table) &&
    (f.includePatterns.isEmpty || f.includePatterns.any (matchesTable database table))

/-- Whether a column is hidden. Its case does not matter. -/
def masks (f : Filter) (column : String) : Bool := f.masked.contains (Text.lowercase column)

/-- An image with its hidden columns masked. Only the members of an object are columns. -/
def maskImage (f : Filter) : Json → Json
  | .object ms => .object (ms.map fun m => if f.masks m.1 then (m.1, .string mask) else m)
  | v => v

/-- An event with the hidden columns of both images masked. -/
def maskImages (f : Filter) (e : RowChange) : RowChange :=
  { e with images := ⟨e.images.before.map f.maskImage, e.images.after.map f.maskImage⟩ }

/-- Whether an event is kept, and the event afterwards: masked if it is kept, else unchanged. -/
def apply (f : Filter) (e : RowChange) : Bool × RowChange :=
  if f.includesTable e.database e.table then (true, f.maskImages e) else (false, e)

end Filter

end AuditTrail
