import AuditTrail.Flow.Pipeline
import AuditTrail.Scenario.Action

/-!
# The world of a scenario

The world holds the services, a virtual clock, and pipelines whose tasks run side by side. Tasks that can run wait in a queue;
the first one runs until it has to wait, and whatever it has made ready joins the queue. No time passes while tasks run. When
all of them wait, the clock may go on to the next moment at which something is due.
-/

namespace AuditTrail.Scenario

/-- A task of one of the pipelines. -/
structure Task where
  pipeline : Nat
  role : Role
  deriving DecidableEq, Repr

/-- The world of a scenario. -/
structure World where
  settings : PipelineSettings
  services : Services
  /-- The virtual time in milliseconds. -/
  now : Nat := 0
  /-- The pipelines. The first one is put together by hand, part by part; the others have been started as a whole. -/
  pipelines : List Pipeline
  /-- The pipeline that was started last and has not been stopped. -/
  current : Option Nat := none
  /-- The feeds opened by hand. -/
  feeds : List (String × Feed) := []
  /-- Actions that are still to come, with their times. -/
  later : List (Nat × Action) := []
  /-- The tasks that can run. -/
  ready : List Task := []
  /-- Whether the program has panicked. -/
  panicked : Bool := false

namespace World

/-- How long tasks may run without time passing. -/
def patience : Nat := 1000000

/-- All tasks, in the order in which they were started. -/
def tasks (w : World) : List Task :=
  (w.pipelines.mapIdx fun i p => p.roles.map (Task.mk i)).flatten

/-- A task told to stop does so, else the writer takes in what there is, and only then looks at its ticker. -/
def choices : List Choice := [⟨true, .intake⟩, ⟨true, .ticker⟩]

/-- One step of a task, if it can take one. -/
def stepTask (w : World) (t : Task) : Option World := do
  let p ← w.pipelines[t.pipeline]?
  let (p, s) ← choices.findSome? fun c => p.step t.role c w.now w.services
  return { w with pipelines := w.pipelines.set t.pipeline p, services := s }

/-- The world after a task has run until it waits. -/
def runTask : Nat → Task → World → World
  | 0, _, w => w
  | fuel + 1, t, w =>
    match w.stepTask t with
    | some w => runTask fuel t w
    | none => w

/-- The world with every task that can take a step in the queue. -/
def wake (w : World) : World :=
  { w with ready := w.ready ++ w.tasks.filter fun t => !w.ready.contains t && (w.stepTask t).isSome }

/-- The world after tasks have run until all of them wait. -/
def settleFrom : Nat → World → World
  | 0, w => w
  | fuel + 1, w =>
    match w.ready with
    | [] => w
    | t :: rest => settleFrom fuel (runTask patience t { w with ready := rest }).wake

/-- The world after all tasks have run until they wait. -/
def settle (w : World) : World := settleFrom patience w.wake

/-- The moments at which something is due. -/
def dues (w : World) : List Nat :=
  w.later.map (·.1) ++ w.tasks.filterMap fun t => (w.pipelines[t.pipeline]?).bind fun p => p.due? t.role

/-- The world after the actions that are due. -/
def runLater (w : World) : World :=
  let due := (w.later.filter (·.1 ≤ w.now)).mergeSort fun a b => a.1 ≤ b.1
  { w with later := w.later.filter (w.now < ·.1), services := due.foldl (fun s a => (a.2.run s).1) w.services }

/-- The world at a later moment. -/
def goTo (w : World) (time : Nat) : World := { w with now := max w.now time }.runLater

/-- The first of the moments after now. -/
def nextDue? (now : Nat) (dues : List Nat) : Option Nat := (dues.filter (now < ·)).min?

/-- The pipeline put together by hand. -/
def bench (w : World) : Pipeline := w.pipelines.headD (.idle w.settings)

/-- The world with that pipeline changed. -/
def setBench (w : World) (p : Pipeline) : World := { w with pipelines := p :: w.pipelines.tail }

/-- The world with some tasks of a pipeline in the queue, as when they are started. -/
def spawn (w : World) (pipeline : Nat) (roles : List Role) : World :=
  { w with ready := w.ready ++ roles.map (Task.mk pipeline) }

/-- A world before anything has happened but that the channel of records has been made. When records are dispatched they go to the
handler, else they stay where they are. -/
def start (settings : PipelineSettings) (services : Services) (dispatched : Bool) : World where
  settings := settings
  services := services
  pipelines := [{ Pipeline.idle settings with deliveryHandle := true, dispatching := dispatched }]
  panicked := !Channel.isPossible settings.deliveryCapacity

end World

end AuditTrail.Scenario
