import AuditTrail.Flow.Reader
import AuditTrail.Flow.Ticker

/-!
# The batch writer

The writer takes in rows and skipped offsets, stores the rows in batches, and owns the cursors of the row-change topic. A batch
is stored when it is full, at every tick, and when no sender is left. After each attempt the cursor of every partition moves
past the offsets taken in since the last one, so that a cursor never passes a row that is not stored.

A batch that cannot be stored is dropped. The cursors of its partitions are held from then on, so that the next run reads the
dropped rows again.
-/

namespace AuditTrail

/-- Why the writer flushes. -/
inductive FlushCause where
  | full
  | tick
  | closed
  deriving DecidableEq, Repr

/-- What the writer is doing. -/
inductive Writer.Phase where
  | taking
  /-- It is about to store the buffer. -/
  | storing (cause : FlushCause)
  /-- It writes the cursors of the partitions with offsets taken in. -/
  | committing (cause : FlushCause)
  | stopped
  deriving DecidableEq, Repr

/-- The batch writer. -/
structure Writer where
  settings : WriterSettings
  topic : String
  ticker : Ticker
  phase : Writer.Phase := .taking
  buffer : List StoredChange := []
  /-- For each partition the highest offset taken in since the last flush, sorted by partition. -/
  pending : List (Int × Int) := []
  /-- The partitions whose cursor stays where it is. -/
  held : List Int := []
  deriving DecidableEq, Repr

/-- What the writer attends to when it has a choice. -/
inductive Attention where
  | intake
  | ticker
  deriving DecidableEq, Repr

namespace Writer

/-- A writer that starts now. -/
def start (settings : WriterSettings) (topic : String) (now : Nat) : Writer :=
  { settings, topic, ticker := .start settings.flushInterval now }

/-- Whether the writer has stopped. -/
def isStopped (w : Writer) : Bool := w.phase == .stopped

/-- Notes that an offset of a partition has been taken in. -/
def mark (partition offset : Int) : List (Int × Int) → List (Int × Int)
  | [] => [(partition, offset)]
  | (p, o) :: rest =>
    if partition < p then (partition, offset) :: (p, o) :: rest
    else if partition = p then (p, max o offset) :: rest
    else (p, o) :: mark partition offset rest

/-- Takes in one item. -/
def take (w : Writer) : Intake → Writer
  | .row r =>
    let buffer := w.buffer ++ [r]
    { w with
      pending := mark r.partition r.offset w.pending
      buffer := buffer
      phase := if w.settings.batchSize ≤ buffer.length then .storing .full else .taking }
  | .skip partition offset => { w with pending := mark partition offset w.pending }

/-- Holds the partitions of some rows. -/
def hold (held : List Int) (rows : List StoredChange) : List Int :=
  rows.foldl (fun held r => if held.contains r.partition then held else held ++ [r.partition]) held

/-- Stores the buffer, if there is anything in it. -/
def store (w : Writer) (cause : FlushCause) (s : Services) : Writer × Services :=
  let w := { w with phase := .committing cause }
  if w.buffer.isEmpty then (w, s)
  else match s.store.insert w.buffer with
    | .ok stored => ({ w with buffer := [] }, { s with store := stored }.record (.flush w.buffer.length))
    | .error _ => ({ w with buffer := [], held := hold w.held w.buffer }, s.record (.flushFailure w.buffer.length))

/-- Writes the next cursor, or ends the flush. A size flush gives the ticker a new period. -/
def commit (w : Writer) (cause : FlushCause) (now : Nat) (s : Services) : Writer × Services :=
  match w.pending with
  | (partition, offset) :: rest =>
    ({ w with pending := rest }, if w.held.contains partition then s else s.putCursor w.topic partition (offset + 1))
  | [] =>
    match cause with
    | .full => ({ w with phase := .taking, ticker := w.ticker.reset now }, s)
    | .tick => ({ w with phase := .taking }, s)
    | .closed => ({ w with phase := .stopped }, s)

/-- One step of the writer, if it can take one. `senders` says whether anybody can still send. -/
def step (attention : Attention) (now : Nat) (senders : Bool) (w : Writer) (c : Channel Intake) (s : Services) :
    Option (Writer × Channel Intake × Services) :=
  match w.phase with
  | .taking =>
    match attention with
    | .intake =>
      match c.take? with
      | some (item, c) => some (w.take item, c, s)
      | none => if senders then none else some ({ w with phase := .storing .closed }, c, s)
    | .ticker =>
      if w.ticker.isDue now then some ({ w with phase := .storing .tick, ticker := w.ticker.tick now }, c, s) else none
  | .storing cause => let (w, s) := w.store cause s; some (w, c, s)
  | .committing cause =>
    let (w, s) := w.commit cause now s
    some (w, if w.isStopped then c.close else c, s)
  | .stopped => none

/-- When the writer goes on by itself. -/
def due? (w : Writer) : Option Nat :=
  match w.phase with
  | .taking => some w.ticker.due
  | _ => none

end Writer

end AuditTrail
