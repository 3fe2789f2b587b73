import AuditTrail.Columnar.Client
import AuditTrail.Proofs.Columnar.Binary
import AuditTrail.Proofs.Json.Payloads

/-!
# Rows are read back as they were written

Row changes and transactions go through two layers: a record becomes a flat row, with its images as a text and its times as
milliseconds, and the flat row becomes octets. Both are undone, except that a time comes back as the last whole millisecond up to
it. So the content of an insertion, given as the answer to the query, is read as the rows that were inserted.
-/

namespace AuditTrail

open Outcome

/-- The last whole millisecond up to an instant. -/
def Instant.floorMillis (t : Instant) : Instant := ⟨t.seconds, t.nanos / 1000000 * 1000000⟩

namespace Columnar

/-! ## Uses of the database -/

namespace Use

variable {α β : Type} {server : Server} {log : List Exchange}

/-- One use after the other: the second one sees what the first one exchanged. -/
theorem run_bind (u : Use α) (f : α → Use β) : (u >>= f).run server log =
    match u.run server log with
    | (.ok a, log) => (f a).run server log
    | (.error e, log) => (.error e, log) := by
  simp only [run, ReaderT.run_bind, ExceptT.run_bind, StateT.run_bind, Id.run_bind]
  rcases Id.run ((ReaderT.run u server).run.run log) with ⟨_ | a, log'⟩ <;> rfl

theorem run_pure (a : α) : (pure a : Use α).run server log = (.ok a, log) := rfl

theorem run_ofExcept (x : Except Error α) : (ofExcept x : Use α).run server log = (x, log) := by
  cases x <;> rfl

/-- What a request comes to by its reply. -/
def answer (what : String) : Reply → Except Error Octets
  | .unreachable => .error (.store what)
  | .response 200 body => .ok body
  | .response status body => .error (.store (what ++ ": bad response: " ++ refusal status body))

/-- A request is exchanged, whatever becomes of it. -/
theorem run_send (what : String) (r : Request) :
    (send what r).run server log = (answer what (server log r), log ++ [⟨r, server log r⟩]) := by
  have hread : (read : Use Server).run server log = (.ok server, log) := rfl
  have hget : (get : Use (List Exchange)).run server log = (.ok log, log) := rfl
  have hset : ∀ log', (set log' : Use PUnit).run server log = (.ok ⟨⟩, log') := fun _ => rfl
  simp only [send, run_bind, hread, hget, hset]
  cases server log r with
  | unreachable => rfl
  | response status body =>
    by_cases hstatus : status = 200
    · subst hstatus
      rfl
    · rw [answer.eq_3 what status body hstatus]
      split
      · rename_i h
        cases h
      · rename_i h
        cases h
        exact absurd rfl hstatus
      · rename_i h
        cases h
        rfl

end Use

/-! ## Statements -/

/-- A template is filled in if it has as many places as there are arguments. -/
theorem exists_fillMarks (columns : List String) (marks : List Mark) (args : List Argument)
    (h : marks.count .argument = args.length) : ∃ cs, fillMarks columns marks args = some cs := by
  induction marks generalizing args with
  | nil =>
    cases args with
    | nil => exact ⟨[], rfl⟩
    | cons a args => simp at h
  | cons mark marks ih =>
    cases mark with
    | char c =>
      obtain ⟨cs, hcs⟩ := ih args (by simpa using h)
      exact ⟨_, by rw [fillMarks, hcs, Option.map_some]⟩
    | fields =>
      obtain ⟨cs, hcs⟩ := ih args (by simpa using h)
      exact ⟨_, by rw [fillMarks, hcs, Option.map_some]⟩
    | argument =>
      cases args with
      | nil => simp at h
      | cons a args =>
        obtain ⟨cs, hcs⟩ := ih args (by simpa using h)
        exact ⟨_, by rw [fillMarks, hcs, Option.map_some]⟩

theorem exists_fill {template : String} (columns : List String) {args : List Argument}
    (h : (Mark.ofChars template.toList).count .argument = args.length) : ∃ sql, fill template columns args = some sql := by
  obtain ⟨cs, hcs⟩ := exists_fillMarks columns _ args h
  exact ⟨String.ofList cs, by rw [fill, hcs, Option.map_some]⟩

/-- A query that selects rows sends one request, which only its template, its columns and its arguments decide. -/
theorem exists_query (s : Settings) (what : String) {template : String} (columns : List String) {args : List Argument}
    (h : (Mark.ofChars template.toList).count .argument = args.length) : ∃ query, select s what template columns args = Use.send what query := by
  obtain ⟨sql, hsql⟩ := exists_fill columns h
  exact ⟨_, by rw [select, hsql]⟩

/-! ## Times -/

/-- Milliseconds below a leap second are read back as the last whole millisecond. -/
theorem instant_millis {t : Instant} (h : t.Representable) (hleap : t.nanos < 1000000000) : instant t.millis = .ok t.floorMillis := by
  obtain ⟨hleast, hgreatest, -, -⟩ := h
  have hseconds : t.millis / 1000 = t.seconds := by
    simp only [Instant.millis]
    omega
  have hrest : (t.millis % 1000).toNat = t.nanos / 1000000 := by
    simp only [Instant.millis]
    omega
  simp only [instant, Instant.ofMillis?, hseconds, hrest, if_pos (And.intro hleast hgreatest)]
  rfl

/-- The milliseconds of an instant fit 64 bits. -/
theorem millis_bounds {t : Instant} (h : t.Representable) :
    -((2 ^ 63 : Nat) : Int) ≤ t.millis ∧ t.millis < ((2 ^ 63 : Nat) : Int) := by
  obtain ⟨hleast, hgreatest, hnanos, -⟩ := h
  have : Instant.leastSecond = -8334601228800 := rfl
  have : Instant.greatestSecond = 8210266876799 := rfl
  simp only [Instant.millis]
  omega

/-! ## Row changes -/

namespace ChangeRow

/-- A flat row whose texts can be held and whose numbers fit their columns. -/
structure Writable (r : ChangeRow) : Prop where
  texts : Fits r.gtid ∧ Fits r.db ∧ Fits r.tbl ∧ Fits r.action ∧ Fits r.data
  eventTime : -((2 ^ 63 : Nat) : Int) ≤ r.eventTime ∧ r.eventTime < ((2 ^ 63 : Nat) : Int)
  queuePartition : -((2 ^ 31 : Nat) : Int) ≤ r.queuePartition ∧ r.queuePartition < ((2 ^ 31 : Nat) : Int)
  queueOffset : -((2 ^ 63 : Nat) : Int) ≤ r.queueOffset ∧ r.queueOffset < ((2 ^ 63 : Nat) : Int)
  ingestedAt : -((2 ^ 63 : Nat) : Int) ≤ r.ingestedAt ∧ r.ingestedAt < ((2 ^ 63 : Nat) : Int)

/-- A flat row is taken back from its octets. -/
theorem take_write {r : ChangeRow} (h : r.Writable) (rest : Octets) : take (r.write ++ rest) = some (r, rest) := by
  obtain ⟨⟨hgtid, hdb, htbl, haction, hdata⟩, heventTime, hpartition, hoffset, hingestedAt⟩ := h
  simp only [take, write, List.append_assoc, takeString_string hgtid, takeString_string hdb, takeString_string htbl,
    takeString_string haction, takeString_string hdata, takeSigned_fixed 7 heventTime.1 heventTime.2,
    takeSigned_fixed 3 hpartition.1 hpartition.2, takeSigned_fixed 7 hoffset.1 hoffset.2,
    takeSigned_fixed 7 hingestedAt.1 hingestedAt.2, Option.bind_eq_bind, Option.bind_some]

theorem write_ne_nil (r : ChangeRow) : r.write ≠ [] := by
  simp [write, fixed]

end ChangeRow

end Columnar

open Columnar

namespace StoredChange

/-- A row that decoding can produce, without binary64 numbers in its images and outside leap seconds, whose texts can be held. -/
structure Storable (c : StoredChange) : Prop where
  decoded : ∃ payload, codec.decode payload = .ok c
  floatFree : c.images.floatFree = true
  regular : c.eventTime.nanos < 1000000000 ∧ c.ingestedAt.nanos < 1000000000
  texts : Fits c.gtid ∧ Fits c.database ∧ Fits c.table ∧ Fits c.images.write

/-- The row with its times at whole milliseconds. -/
def floorMillis (c : StoredChange) : StoredChange :=
  { c with eventTime := c.eventTime.floorMillis, ingestedAt := c.ingestedAt.floorMillis }

/-- What is decoded is kept by the reader. -/
theorem Storable.kept {c : StoredChange} (h : c.Storable) : c.Kept 125 := by
  obtain ⟨payload, hdecode⟩ := h.decoded
  obtain ⟨rest, hread⟩ := Json.Codec.read_of_decode hdecode
  exact yields_codec 125 hread

/-- The flat row of a row can be written. -/
theorem Storable.writable {c : StoredChange} (h : c.Storable) : (ChangeRow.ofStored c).Writable := by
  have hkept := h.kept
  have haction : Fits c.action.name := by cases c.action <;> decide
  exact ⟨⟨h.texts.1, h.texts.2.1, h.texts.2.2.1, haction, h.texts.2.2.2⟩, millis_bounds hkept.eventTime,
    ⟨hkept.partition.1, Int.lt_add_one_of_le hkept.partition.2⟩, ⟨hkept.offset.1, Int.lt_add_one_of_le hkept.offset.2⟩,
    millis_bounds hkept.ingestedAt⟩

/-- The flat row of a row is the row again, at whole milliseconds. -/
theorem Storable.toStored {c : StoredChange} (h : c.Storable) : (ChangeRow.ofStored c).toStored = .ok c.floorMillis := by
  have hkept := h.kept
  have himages : (Images.codec.decode (Utf8.encode c.images.write)).mapError Error.json = .ok c.images :=
    mapError_eq_ok.2 (Json.Codec.decode_encode (Images.restores_codec (hkept.images.mono (by decide)) h.floatFree))
  have haction : RowAction.parse c.action.name = .ok c.action := by cases c.action <;> rfl
  simp only [ChangeRow.toStored, ChangeRow.ofStored, himages, haction, instant_millis hkept.eventTime h.regular.1,
    instant_millis hkept.ingestedAt h.regular.2, ok_bind]
  rfl

/-- The row of an event that was decoded from the queue is one that decoding can produce. -/
theorem storable_ofEvent {payload : Octets} {e : RowChange} (h : RowChange.decode payload = .ok e) (hfloat : e.images.floatFree = true)
    {partition offset : Int} (hpartition : -0x80000000 ≤ partition ∧ partition ≤ 0x7fffffff)
    (hoffset : -0x8000000000000000 ≤ offset ∧ offset ≤ 0x7fffffffffffffff) {now : Instant} (hnow : now.Representable)
    (hregular : now.nanos < 1000000000) (htexts : Fits e.gtid ∧ Fits e.database ∧ Fits e.table ∧ Fits e.images.write) :
    (ofEvent e partition offset now).Storable := by
  obtain ⟨rest, hread⟩ := Json.Codec.read_of_decode (mapError_eq_ok.1 h)
  have hevent := RowChange.yields_codec 125 hread
  have hkept : (ofEvent e partition offset now).Kept 125 :=
    ⟨hevent.time.representable, hevent.images, hpartition, hoffset, hnow⟩
  have htime : e.time.nanos = 0 := hevent.time.cases.2
  exact ⟨⟨_, Json.Codec.decode_encode (restores_codec hkept hfloat)⟩, hfloat, ⟨by simp only [ofEvent]; omega, hregular⟩, htexts⟩

end StoredChange

/-! ## Transactions -/

namespace Columnar.TransactionRow

/-- A flat row whose texts can be held and whose numbers fit their columns. -/
structure Writable (r : TransactionRow) : Prop where
  texts : Fits r.gtid ∧ Fits r.context
  commitTime : -((2 ^ 63 : Nat) : Int) ≤ r.commitTime ∧ r.commitTime < ((2 ^ 63 : Nat) : Int)
  status : r.status < 256

/-- A flat row is taken back from its octets. -/
theorem take_write {r : TransactionRow} (h : r.Writable) (rest : Octets) : take (r.write ++ rest) = some (r, rest) := by
  obtain ⟨⟨hgtid, hcontext⟩, hcommitTime, hstatus⟩ := h
  have hcode : ((r.status : Int) % (256 ^ 1 : Nat)).toNat = r.status := by omega
  simp only [take, write, List.append_assoc, takeString_string hgtid, takeString_string hcontext,
    takeSigned_fixed 7 hcommitTime.1 hcommitTime.2, takeUnsigned_fixed, hcode, Option.bind_eq_bind, Option.bind_some]

theorem write_ne_nil (r : TransactionRow) : r.write ≠ [] := by
  simp [write, fixed]

end Columnar.TransactionRow

namespace Transaction

/-- A transaction that decoding can produce, outside leap seconds, whose texts can be held. -/
structure Storable (t : Transaction) : Prop where
  decoded : ∃ payload, codec.decode payload = .ok t
  regular : t.commitTime.nanos < 1000000000
  texts : Fits t.gtid ∧ Fits t.context

/-- The transaction with its time at whole milliseconds. -/
def floorMillis (t : Transaction) : Transaction := { t with commitTime := t.commitTime.floorMillis }

theorem Storable.representable {t : Transaction} (h : t.Storable) : t.commitTime.Representable := by
  obtain ⟨payload, hdecode⟩ := h.decoded
  obtain ⟨rest, hread⟩ := Json.Codec.read_of_decode hdecode
  exact yields_codec 126 hread

/-- The flat row of a transaction can be written. -/
theorem Storable.writable {t : Transaction} (h : t.Storable) : (TransactionRow.ofStored t).Writable :=
  ⟨h.texts, millis_bounds h.representable, by cases hs : t.status <;> simp [TransactionRow.ofStored, hs, Status.code]⟩

/-- The flat row of a transaction is the transaction again, at whole milliseconds. -/
theorem Storable.toStored {t : Transaction} (h : t.Storable) : (TransactionRow.ofStored t).toStored = .ok t.floorMillis := by
  have hstatus : Status.ofCode t.status.code = .ok t.status := by cases t.status <;> rfl
  simp only [TransactionRow.toStored, TransactionRow.ofStored, instant_millis h.representable h.regular, hstatus, ok_bind]
  rfl

/-- The transaction of a marker that was decoded from the queue is one that decoding can produce. -/
theorem storable_ofMarker {payload : Octets} {m : Marker} (h : Marker.decode payload = .ok m)
    (htexts : Fits m.gtid ∧ Fits m.context) (status : Status) : (ofMarker m status).Storable := by
  obtain ⟨rest, hread⟩ := Json.Codec.read_of_decode (mapError_eq_ok.1 h)
  have htime := Marker.yields_codec 126 hread
  have hnanos : m.commitTime.nanos = 0 := htime.cases.2
  exact ⟨⟨_, Json.Codec.decode_encode (restores_codec (t := ofMarker m status) htime.representable 126)⟩,
    by simp only [ofMarker]; omega, htexts⟩

end Transaction

/-! ## Insertions and queries -/

namespace Columnar

/-- One use sends rows in one request and another asks for rows in one request, and the content of the first request, given as the
answer to the second, is read as `as`. -/
def ReadsBack {α : Type} (insert : Use Unit) (list : Use (List α)) (as : List α) : Prop :=
  ∃ insertion query sql content, insertion.body = .rows sql content ∧
    (∀ server log, (insert.run server log).2 = log ++ [⟨insertion, server log insertion⟩]) ∧
    (∀ server log, (list.run server log).2 = log ++ [⟨query, server log query⟩]) ∧
    ∀ server log, server log query = .response 200 content → (list.run server log).1 = .ok as

/-- A query of all rows, each of them as a record. -/
def query {ρ α : Type} (s : Settings) (what template : String) (columns : List String) (args : List Argument) (take : Take ρ)
    (toStored : ρ → Except Error α) : Use (List α) := do
  let answer ← select s what template columns args
  ofExcept ((← all what take answer).mapM toStored)

/-- What an answer is read as. -/
def readAnswer {ρ α : Type} (what : String) (take : Take ρ) (toStored : ρ → Except Error α) (content : Octets) :
    Except Error (List α) :=
  match takeAll take content.length content with
  | some rows => rows.mapM toStored
  | none => .error (.store what)

/-- A query sends one request and reads its answer. -/
theorem exists_run_query {ρ α : Type} (s : Settings) (what : String) {template : String} (columns : List String) {args : List Argument}
    (take : Take ρ) (toStored : ρ → Except Error α) (h : (Mark.ofChars template.toList).count .argument = args.length) :
    ∃ request, ∀ server log, (query s what template columns args take toStored).run server log =
      ((Use.answer what (server log request)).bind (readAnswer what take toStored), log ++ [⟨request, server log request⟩]) := by
  obtain ⟨request, hselect⟩ := exists_query s what columns h
  refine ⟨request, fun server log => ?_⟩
  rw [query, hselect, Use.run_bind, Use.run_send]
  cases Use.answer what (server log request) with
  | error e => rfl
  | ok content =>
    simp only [Use.run_bind, all, readAnswer, Except.bind]
    cases takeAll take content.length content with
    | none => rfl
    | some rows => simp only [Use.run_pure, Use.run_ofExcept]

/-- An insertion of rows sends them in one request. -/
theorem exists_insertion (s : Settings) (what table : String) (columns : List String) (rows : List Octets) (h : rows ≠ []) :
    ∃ insertion sql, insertion.body = .rows sql rows.flatten ∧
      ∀ server log, ((insertInto s what table columns rows).run server log).2 = log ++ [⟨insertion, server log insertion⟩] := by
  refine ⟨s.request (.rows ("INSERT INTO " ++ table ++ "(" ++ columnList columns ++ ") FORMAT RowBinary") rows.flatten), _, rfl,
    fun server log => ?_⟩
  simp only [insertInto, List.isEmpty_iff, if_neg h, Use.run_bind, Use.run_pure, Use.run_send]
  cases Use.answer what _ <;> rfl

/-- Rows that are each a record again are the records again. -/
theorem mapM_toStored {ρ α : Type} {ofStored : α → ρ} {toStored : ρ → Except Error α} {floor : α → α} {as : List α}
    (h : ∀ a ∈ as, toStored (ofStored a) = .ok (floor a)) : (as.map ofStored).mapM toStored = .ok (as.map floor) := by
  induction as with
  | nil => rfl
  | cons a as ih =>
    rw [List.map_cons, List.mapM_cons, h a List.mem_cons_self, ok_bind, ih fun c hc => h c (List.mem_cons_of_mem _ hc)]
    rfl

/-- Records that are each read back from their rows are read back from the content of their insertion. -/
theorem readsBack_of_rows {ρ α : Type} {s s' : Settings} {what what' table template : String} {columns columns' : List String}
    {args : List Argument} {take : Take ρ} {write : ρ → Octets} (ofStored : α → ρ) {toStored : ρ → Except Error α}
    {as : List α} {floor : α → α} (places : Nat) (has : as ≠ [])
    (hplaces : (Mark.ofChars template.toList).count .argument = places) (hargs : args.length = places)
    (htake : ∀ a ∈ as, ∀ rest, take (write (ofStored a) ++ rest) = some (ofStored a, rest)) (hwrite : ∀ r, write r ≠ [])
    (hstored : ∀ a ∈ as, toStored (ofStored a) = .ok (floor a)) :
    ReadsBack (insertInto s what table columns (as.map fun a => write (ofStored a)))
      (query s' what' template columns' args take toStored) (as.map floor) := by
  obtain ⟨insertion, sql, hbody, hinsert⟩ :=
    exists_insertion s what table columns (as.map fun a => write (ofStored a)) (by simpa using has)
  obtain ⟨request, hquery⟩ := exists_run_query s' what' columns' take toStored (hplaces.trans hargs.symm)
  refine ⟨insertion, request, sql, _, hbody, hinsert, fun server log => by rw [hquery], fun server log hreply => ?_⟩
  have hflat : (as.map fun a => write (ofStored a)) = (as.map ofStored).map write := by rw [List.map_map]; rfl
  have hrows : takeAll take ((as.map ofStored).map write).flatten.length ((as.map ofStored).map write).flatten =
      some (as.map ofStored) := by
    refine takeAll_flatten (fun r hr rest => ?_) (fun r _ => hwrite r) (length_le_flatten fun r _ => hwrite r)
    obtain ⟨a, ha, rfl⟩ := List.mem_map.1 hr
    exact htake a ha rest
  rw [hflat] at hreply
  rw [hquery, hreply]
  simp only [Use.answer, Except.bind, readAnswer, hrows, mapM_toStored hstored]

/-- Rows and transactions that decoding can produce are read back as they were written, with their times at whole milliseconds:
row changes by the query for a GTID, transactions by the query for the unprocessed ones. The rows and transactions that are made
of what was decoded from the queue are such. -/
theorem rows_read_back (s : Settings) :
    (∀ rows : List StoredChange, rows ≠ [] → (∀ c ∈ rows, c.Storable) → ∀ gtid,
      ReadsBack (insertChanges s rows) (changesOf s gtid) (rows.map StoredChange.floorMillis)) ∧
    (∀ ts : List Transaction, ts ≠ [] → (∀ t ∈ ts, t.Storable) → ∀ since limit,
      ReadsBack (upsertTransactions s ts) (unprocessed s since limit) (ts.map Transaction.floorMillis)) ∧
    (∀ payload e (partition offset : Int) now, RowChange.decode payload = .ok e → e.images.floatFree = true →
      (-0x80000000 ≤ partition ∧ partition ≤ 0x7fffffff) → (-0x8000000000000000 ≤ offset ∧ offset ≤ 0x7fffffffffffffff) →
      now.Representable → now.nanos < 1000000000 → (Fits e.gtid ∧ Fits e.database ∧ Fits e.table ∧ Fits e.images.write) →
      (StoredChange.ofEvent e partition offset now).Storable) ∧
    ∀ payload m status, Marker.decode payload = .ok m → (Fits m.gtid ∧ Fits m.context) → (Transaction.ofMarker m status).Storable := by
  refine ⟨fun rows hne hrows gtid => ?_, fun ts hne hts since limit => ?_, ?_, ?_⟩
  · exact readsBack_of_rows ChangeRow.ofStored 1 hne (by decide +kernel) rfl
      (fun c hc => ChangeRow.take_write (hrows c hc).writable) ChangeRow.write_ne_nil fun c hc => (hrows c hc).toStored
  · exact readsBack_of_rows TransactionRow.ofStored 3 hne (by decide +kernel) rfl
      (fun t ht => TransactionRow.take_write (hts t ht).writable) TransactionRow.write_ne_nil fun t ht => (hts t ht).toStored
  · exact fun payload e partition offset now h hfloat hpartition hoffset hnow hregular htexts =>
      StoredChange.storable_ofEvent h hfloat hpartition hoffset hnow hregular htexts
  · exact fun payload m status h htexts => Transaction.storable_ofMarker h htexts status

/-- Two rows of one event from before the epoch, on a negative partition, and the transaction of a marker. -/
theorem rows_read_back_before_epoch : ∃ c t,
    ReadsBack (insertChanges { } [c, c]) (changesOf { } "g") [c.floorMillis, c.floorMillis] ∧
    ReadsBack (upsertTransactions { } [t]) (unprocessed { } ⟨0, 0⟩ 10) [t.floorMillis] ∧
    c.eventTime = ⟨-1, 0⟩ ∧ c.floorMillis.ingestedAt = ⟨-5, 123000000⟩ ∧ t.commitTime = ⟨-2, 0⟩ := by
  have hevent : RowChange.decode (Utf8.encode "[\"d\",\"t\",\"update\",\"g\",-1,[null,[true,-3,\"\\u00e9\"]]]") =
      .ok ⟨"d", "t", .update, "g", ⟨-1, 0⟩, none, some (.array [.bool true, .ofInt (-3), .string "é"])⟩ :=
    toOption_eq_some.1 (by decide +kernel)
  have hmarker : Marker.decode (Utf8.encode "[\"g\",\"c\",-2]") = .ok ⟨"g", "c", ⟨-2, 0⟩⟩ := toOption_eq_some.1 (by decide +kernel)
  obtain ⟨hrows, htransactions, hchange, htransaction⟩ := rows_read_back { }
  have hc := hchange _ _ (-1) 5 ⟨-5, 123456789⟩ hevent (by decide) (by decide) (by decide)
    ⟨by decide, by decide, by decide, by decide⟩ (by decide) (by decide +kernel)
  have ht := htransaction _ _ .unprocessed hmarker (by decide +kernel)
  have hread := hrows _ (List.cons_ne_nil _ _) (List.forall_mem_cons.2 ⟨hc, List.forall_mem_singleton.2 hc⟩) "g"
  have hlist := htransactions _ (List.cons_ne_nil _ _) (List.forall_mem_singleton.2 ht) ⟨0, 0⟩ 10
  exact ⟨_, _, hread, hlist, rfl, rfl, rfl⟩

end Columnar

end AuditTrail
