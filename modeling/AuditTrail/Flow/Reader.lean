import AuditTrail.Event
import AuditTrail.Flow.Channel
import AuditTrail.Flow.Feed
import AuditTrail.Stored

/-!
# Readers

A reader owns the feed of one partition. It turns every message into an item and sends the items in the order of the messages,
moving its feed past each message that is sent. It stops when it is told to while it waits for messages, when its feed ends, and
when nobody receives its items.

There are two kinds of readers. Those of row changes decode, filter and mask, and send a row or, for a message that yields none,
its offset alone. Those of markers send every marker with its offset, and the offset alone for a message that is no marker.
-/

namespace AuditTrail

/-- What the batch writer takes in. -/
inductive Intake where
  | row (r : StoredChange)
  /-- A message that yields no row. -/
  | skip (partition offset : Int)
  deriving DecidableEq, Repr

/-- The partition of an item. -/
def Intake.partition : Intake → Int
  | .row r => r.partition
  | .skip p _ => p

/-- The offset of an item. -/
def Intake.offset : Intake → Int
  | .row r => r.offset
  | .skip _ o => o

/-- A marker with its place in the queue; a message that is no marker has only the place. -/
structure Envelope where
  partition : Int
  offset : Int
  marker : Option Marker
  deriving DecidableEq, Repr

namespace Message

/-- The item of a message with row changes, and what is counted on the way. -/
def toIntake (filter : Filter) (clock : Instant) (m : Message) : Intake × List Update :=
  match RowChange.decode m.payload with
  | .error _ => (.skip m.partition m.offset, [.rowChange, .decodeError .rowChange])
  | .ok e =>
    match filter.apply e with
    | (false, _) => (.skip m.partition m.offset, [.rowChange, .filtered])
    | (true, e) => (.row (.ofEvent e m.partition m.offset clock), [.rowChange])

/-- The envelope of a message with markers, and what is counted on the way. -/
def toEnvelope (m : Message) : Envelope × List Update :=
  match Marker.decode m.payload with
  | .error _ => (⟨m.partition, m.offset, none⟩, [.decodeError .marker])
  | .ok marker => (⟨m.partition, m.offset, some marker⟩, [])

end Message

/-- What a reader is doing. -/
inductive Reader.Phase (α : Type) where
  | polling (p : Polling)
  /-- It has messages to turn into items. -/
  | decoding (rest : List Message)
  /-- It sends the item of a message. -/
  | sending (item : α) (offset : Int) (rest : List Message)
  | stopped
  deriving DecidableEq, Repr

/-- The reader of a partition. -/
structure Reader (α : Type) where
  index : Nat
  feed : Feed
  phase : Reader.Phase α := .polling .ready
  /-- Whether it has been told to stop. -/
  signalled : Bool := false
  deriving DecidableEq, Repr

namespace Reader

/-- Whether the reader has stopped. -/
def isStopped (r : Reader α) : Bool :=
  match r.phase with
  | .stopped => true
  | _ => false

/-- The readers of all partitions of a topic. -/
def openAll (settings : FeedSettings) (s : Services) (topic : String) : Except Error (List (Reader α)) := do
  let partitions ← s.queue.partitions topic
  let feeds ← partitions.mapM (Feed.openAt settings s topic)
  return feeds.mapIdx fun i f => { index := i, feed := f }

/-- Counts what `decode` says to count. -/
def recordAll (s : Services) (us : List Update) : Services := us.foldl Services.record s

/-- One step of a reader, if it can take one. When it has been told to stop and could also go on, `heed` says whether it
stops. -/
def step (decode : Services → Message → α × List Update) (heed : Bool) (now : Nat) (r : Reader α) (c : Channel α)
    (s : Services) : Option (Reader α × Channel α × Services) :=
  match r.phase with
  | .polling p =>
    if r.signalled && heed then some ({ r with phase := .stopped }, c, s)
    else match p.due? with
      | some due => if due ≤ now then some ({ r with feed := r.feed.wake p, phase := .polling .ready }, c, s) else none
      | none =>
        let (feed, fetched, s) := r.feed.fetch now s
        let phase := match fetched with
          | .batch ms => .decoding ms
          | .failed _ => .stopped
          | .wait p => .polling p
        some ({ r with feed := feed, phase := phase }, c, s)
  | .decoding [] => some ({ r with phase := .polling .ready }, c, s)
  | .decoding (m :: rest) =>
    let (item, updates) := decode s m
    some ({ r with phase := .sending item m.offset rest }, c, recordAll s updates)
  | .sending item offset rest =>
    match c.attempt (.reader r.index) item with
    | .closed => some ({ r with phase := .stopped }, c, s)
    | .joined c => some (r, c, s)
    | .sent c => some ({ r with feed := r.feed.advance offset, phase := .decoding rest }, c, s)
    | .blocked => none
  | .stopped => none

/-- When the reader goes on by itself. -/
def due? (r : Reader α) : Option Nat :=
  match r.phase with
  | .polling p => p.due?
  | _ => none

end Reader

/-- A reader of row changes. -/
abbrev Worker := Reader Intake

/-- A reader of markers. -/
abbrev Feeder := Reader Envelope

/-- One step of a reader of row changes. -/
def Worker.step (filter : Filter) : Bool → Nat → Worker → Channel Intake → Services →
    Option (Worker × Channel Intake × Services) :=
  Reader.step fun s => Message.toIntake filter s.clock

/-- One step of a reader of markers. -/
def Feeder.step : Bool → Nat → Feeder → Channel Envelope → Services → Option (Feeder × Channel Envelope × Services) :=
  Reader.step fun _ => Message.toEnvelope

end AuditTrail
