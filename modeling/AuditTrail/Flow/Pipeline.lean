import AuditTrail.Flow.Correlator
import AuditTrail.Flow.Sweeper
import AuditTrail.Flow.Writer

/-!
# Pipelines

A pipeline joins its tasks by three channels: the readers of row changes send to the batch writer, the readers of markers to the
correlator, and correlator and sweeper to the dispatcher, which hands every record to the handler. When it is told to stop, the
readers, the correlator and the sweeper do; the writer and the dispatcher stop once nobody can send to them any more, so that
what has been taken in is stored and what has been sent is handed over.

`Pipeline.step` takes one step of one task. Which task comes next, and what it attends to when it has a choice, is left open.
-/

namespace AuditTrail

/-- A task of a pipeline. -/
inductive Role where
  | dispatcher
  | writer
  | worker (i : Nat)
  | feeder (i : Nat)
  | correlator
  | sweeper
  deriving DecidableEq, Repr

/-- What a task does when it has a choice. -/
structure Choice where
  /-- Whether a task that has been told to stop does so at once. -/
  heed : Bool
  /-- What the writer attends to. -/
  attention : Attention
  deriving DecidableEq, Repr

/-- The tasks and channels of a pipeline. A task that has not been started is absent. -/
structure Pipeline where
  filter : Filter
  intake : Channel Intake
  markers : Channel Envelope
  delivery : Channel AuditRecord
  /-- Whether somebody outside can send to the writer. -/
  intakeHandle : Bool := false
  /-- Whether somebody outside can send to the correlator. -/
  markerHandle : Bool := false
  /-- Whether somebody outside can send to the dispatcher. -/
  deliveryHandle : Bool := false
  dispatching : Bool := false
  writer : Option Writer := none
  workers : List Worker := []
  feeders : List Feeder := []
  correlator : Option Correlator := none
  sweeper : Option Sweeper := none

namespace Pipeline

/-- Whether the correlator is at work. -/
def correlating (p : Pipeline) : Bool := p.correlator.any (!·.isStopped)

/-- Whether the sweeper is at work. -/
def sweeping (p : Pipeline) : Bool := p.sweeper.any (!·.stopped)

/-- Whether the writer is at work. -/
def writing (p : Pipeline) : Bool := p.writer.any (!·.isStopped)

/-- Whether anybody can send to the writer. -/
def intakeSenders (p : Pipeline) : Bool := p.intakeHandle || p.workers.any (!·.isStopped)

/-- Whether anybody can send to the correlator. -/
def markerSenders (p : Pipeline) : Bool := p.markerHandle || p.feeders.any (!·.isStopped)

/-- Whether anybody can send to the dispatcher. -/
def deliverySenders (p : Pipeline) : Bool := p.deliveryHandle || p.correlating || p.sweeping

/-- One step of the dispatcher: it hands over one record, or stops when there will be no more. -/
def dispatch (p : Pipeline) (s : Services) : Option (Pipeline × Services) :=
  if !p.dispatching then none
  else match p.delivery.take? with
    | some (r, d) => some ({ p with delivery := d }, s.handle r)
    | none => if p.deliverySenders then none else some ({ p with delivery := p.delivery.close, dispatching := false }, s)

/-- One step of a task, if it can take one. -/
def step (p : Pipeline) (role : Role) (choice : Choice) (now : Nat) (s : Services) : Option (Pipeline × Services) :=
  match role with
  | .dispatcher => p.dispatch s
  | .writer => do
    let w ← p.writer
    let (w, c, s) ← w.step choice.attention now p.intakeSenders p.intake s
    return ({ p with writer := some w, intake := c }, s)
  | .worker i => do
    let r ← p.workers[i]?
    let (r, c, s) ← Worker.step p.filter choice.heed now r p.intake s
    return ({ p with workers := p.workers.set i r, intake := c }, s)
  | .feeder i => do
    let r ← p.feeders[i]?
    let (r, c, s) ← Feeder.step choice.heed now r p.markers s
    return ({ p with feeders := p.feeders.set i r, markers := c }, s)
  | .correlator => do
    let c ← p.correlator
    let (c, m, d, s) ← c.step choice.heed now p.markerSenders p.markers p.delivery s
    return ({ p with correlator := some c, markers := m, delivery := d }, s)
  | .sweeper => do
    let x ← p.sweeper
    let (x, d, s) ← x.step choice.heed now p.delivery s
    return ({ p with sweeper := some x, delivery := d }, s)

/-- The tasks of a pipeline in the order in which they are started. -/
def roles (p : Pipeline) : List Role :=
  [.dispatcher, .writer] ++ (List.range p.workers.length).map .worker ++ (List.range p.feeders.length).map .feeder ++
    [.correlator, .sweeper]

/-- When a task goes on by itself. -/
def due? (p : Pipeline) : Role → Option Nat
  | .dispatcher => none
  | .writer => p.writer.bind (·.due?)
  | .worker i => p.workers[i]?.bind (·.due?)
  | .feeder i => p.feeders[i]?.bind (·.due?)
  | .correlator => p.correlator.bind (·.due?)
  | .sweeper => p.sweeper.bind (·.due?)

/-- Tells the readers of row changes to stop. -/
def signalWorkers (p : Pipeline) : Pipeline := { p with workers := p.workers.map ({ · with signalled := true }) }

/-- Tells the readers of markers and the correlator to stop. -/
def signalMarkers (p : Pipeline) : Pipeline :=
  { p with
    feeders := p.feeders.map ({ · with signalled := true })
    correlator := p.correlator.map ({ · with signalled := true }) }

/-- Tells the sweeper to stop. -/
def signalSweeper (p : Pipeline) : Pipeline := { p with sweeper := p.sweeper.map ({ · with signalled := true }) }

/-- Tells all tasks to stop. -/
def signal (p : Pipeline) : Pipeline := p.signalWorkers.signalMarkers.signalSweeper

/-- Whether all tasks have stopped. -/
def isStopped (p : Pipeline) : Bool :=
  !p.dispatching && !p.writing && p.workers.all (·.isStopped) && p.feeders.all (·.isStopped) && !p.correlating &&
    !p.sweeping

/-- A pipeline without tasks. -/
def idle (settings : PipelineSettings) : Pipeline where
  filter := .ofConfig settings.filter
  intake := .ofCapacity settings.writer.capacity
  markers := .ofCapacity settings.correlator.capacity
  delivery := .ofCapacity settings.deliveryCapacity

/-- Puts all tasks together. When a topic cannot be opened, the tasks that are there by then are told to stop, and the error is returned
with them. A sweeper that panics at once is gone, and the other tasks go on without it. -/
def assemble (settings : PipelineSettings) (now : Nat) (s : Services) : Pipeline × Option Error :=
  let p := { idle settings with
    dispatching := true, writer := some (.start settings.writer settings.rowChangeTopic now) }
  match Reader.openAll settings.feed s settings.rowChangeTopic with
  | .error e => (p, some e)
  | .ok workers =>
    let p := { p with workers := workers }
    match Reader.openAll settings.feed s settings.markerTopic with
    | .error e => (p.signal, some e)
    | .ok feeders =>
      ({ p with
        feeders := feeders
        correlator := some { settings := settings.correlator, topic := settings.markerTopic }
        sweeper := Sweeper.launch? settings.sweeper now }, none)

/-- Whether the start of a pipeline panics, as a channel cannot be made. The channel of the markers is made after the topic of the row
changes has been opened. -/
def panics (settings : PipelineSettings) (s : Services) : Bool :=
  let workers : Except Error (List Worker) := Reader.openAll settings.feed s settings.rowChangeTopic
  !Channel.isPossible settings.deliveryCapacity || !Channel.isPossible settings.writer.capacity ||
    (!Channel.isPossible settings.correlator.capacity && workers.isOk)

/-- What comes of starting a pipeline. -/
inductive Start where
  /-- The tasks are at work. -/
  | running (p : Pipeline)
  /-- A topic cannot be opened, and the tasks that are there have been told to stop. -/
  | failed (p : Pipeline) (e : Error)
  /-- The program has panicked, and nothing is left of it. -/
  | panicked

/-- Starts a pipeline. -/
def start (settings : PipelineSettings) (now : Nat) (s : Services) : Start :=
  if panics settings s then .panicked
  else match assemble settings now s with
    | (p, none) => .running p
    | (p, some e) => .failed p e

end Pipeline

end AuditTrail
