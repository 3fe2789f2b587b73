import AuditTrail.Scenario.World

/-!
# Commands of a scenario

A command is carried out while all tasks go on. Some take time: they wait for room in a channel, for messages, or for tasks to
stop. A command that has not come to an end at its limit is given up.
-/

namespace AuditTrail.Scenario

/-- A command. -/
inductive Command where
  | act (a : Action)
  /-- An action that is to come after some milliseconds. -/
  | later (delay : Nat) (a : Action)
  | advance (ms : Nat)
  | reopenCursors (ns : String)
  | metrics
  | exported
  | openFeed (name topic : String) (partition : Int)
  | nextBatch (name : String) (timeout : Nat)
  | advanceFeed (name : String) (offset : Int)
  /-- Starts the writer; a dead one never receives anything. -/
  | startWriter (dead : Bool)
  | accept (items : List Intake)
  | stopWriter
  | startIngest (topic : String)
  | stopIngest (signal : Bool)
  | crash
  | receive (sorted : Bool)
  | closeDelivery
  | deliver (r : AuditRecord)
  | stopDispatcher
  | correlate (m : Marker)
  | startCorrelator
  | sendEnvelope (e : Envelope)
  | startFeeders (topic : String)
  | stopCorrelator (signal : Bool)
  | sweep
  | startSweeper
  | stopSweeper
  | startPipeline
  | stopPipeline (timeout : Nat)

/-- What a command waits to stop. -/
inductive Stopping where
  | writer
  | ingest
  | dispatcher
  | correlator
  | sweeper
  | pipeline (i : Nat)

/-- What a command is doing while it takes time. -/
inductive Activity where
  | sleeping (due : Nat)
  | sending (items : List Intake)
  | sendingEnvelope (e : Envelope)
  | delivering (r : AuditRecord)
  | correlating (c : Correlation)
  | sweeping (x : Sweep)
  | polling (name : String) (p : Polling)
  | stopping (what : Stopping)

namespace Activity

/-- One step of an activity: it goes on, or ends with a reply. -/
inductive Progress where
  | more (w : World) (a : Activity)
  | ended (w : World) (r : Reply)

/-- The reply when something has stopped, if it has. -/
def stoppedReply? (w : World) (elapsed : Nat) : Stopping → Option Reply
  | .writer => if w.bench.writing then none else some .stopped
  | .ingest =>
    if w.bench.writing || w.bench.workers.any (!·.isStopped) then none
    else some (.ingestStopped w.bench.workers.length)
  | .dispatcher => if w.bench.dispatching then none else some .stopped
  | .correlator =>
    if w.bench.correlating || w.bench.feeders.any (!·.isStopped) then none
    else some (.correlatorStopped elapsed w.bench.feeders.length)
  | .sweeper => if w.bench.sweeping then none else some .stopped
  | .pipeline i => if (w.pipelines[i]?).all (·.isStopped) then some (.pipelineStopped elapsed) else none

/-- One step of an activity that began at a moment, if it can take one. -/
def step (w : World) (began : Nat) : Activity → Option Progress
  | .sleeping due => if due ≤ w.now then some (.ended w (.time w.now)) else none
  | .sending [] => some (.ended w .done)
  | .sending (item :: rest) =>
    match w.bench.intake.attempt .caller item with
    | .closed => some (.ended w (.error (.channelClosed "batch writer")))
    | .joined c => some (.more (w.setBench { w.bench with intake := c }) (.sending (item :: rest)))
    | .sent c => some (.more (w.setBench { w.bench with intake := c }) (.sending rest))
    | .blocked => none
  | .sendingEnvelope e =>
    match w.bench.markers.attempt .caller e with
    | .closed => some (.ended w .closed)
    | .joined c => some (.more (w.setBench { w.bench with markers := c }) (.sendingEnvelope e))
    | .sent c => some (.ended (w.setBench { w.bench with markers := c }) .done)
    | .blocked => none
  | .delivering r =>
    match w.bench.delivery.attempt .caller r with
    | .closed => some (.ended w .closed)
    | .joined c => some (.more (w.setBench { w.bench with delivery := c }) (.delivering r))
    | .sent c => some (.ended (w.setBench { w.bench with delivery := c }) .done)
    | .blocked => none
  | .correlating c =>
    match c.phase with
    | .finished result => some (.ended w (.correlated result (w.now - began)))
    | _ => (c.step .caller w.now w.bench.delivery w.services).map fun (c, d, s) =>
      .more ({ w with services := s }.setBench { w.bench with delivery := d }) (.correlating c)
  | .sweeping x =>
    match x.phase with
    | .finished result => some (.ended w (.ofResult .swept result))
    | _ => (x.step .caller w.bench.delivery w.services).map fun (x, d, s) =>
      .more ({ w with services := s }.setBench { w.bench with delivery := d }) (.sweeping x)
  | .polling name p => do
    let feed ← w.feeds.lookup name
    let elapsed := w.now - began
    let setFeed (w : World) (f : Feed) : World :=
      { w with feeds := w.feeds.map fun e => if e.1 = name then (name, f) else e }
    match p.due? with
    | some due => if due ≤ w.now then some (.more (setFeed w (feed.wake p)) (.polling name .ready)) else none
    | none =>
      let (feed, fetched, s) := feed.fetch w.now w.services
      let w := setFeed { w with services := s } feed
      match fetched with
      | .batch ms => some (.ended w (.batch ms elapsed feed.position))
      | .failed e => some (.ended w (.failedBatch e elapsed feed.position))
      | .wait p => some (.more w (.polling name p))
  | .stopping what => (stoppedReply? w (w.now - began) what).map (.ended w)

/-- When an activity goes on by itself. -/
def due? : Activity → Option Nat
  | .sleeping due => some due
  | .correlating c => c.due?
  | .polling _ p => p.due?
  | _ => none

/-- The world after an activity has run until it waits, with what is left of it or its reply. -/
def run (began : Nat) : Nat → World → Activity → World × (Activity ⊕ Reply)
  | 0, w, a => (w, .inl a)
  | fuel + 1, w, a =>
    match a.step w began with
    | none => (w, .inl a)
    | some (.more w a) => run began fuel w a
    | some (.ended w r) => (w, .inr r)

/-- The world in which nobody waits for an activity any more. -/
def giveUp (w : World) : World :=
  let p := w.bench
  w.setBench { p with
    intake := p.intake.leave .caller, markers := p.markers.leave .caller, delivery := p.delivery.leave .caller }

/-- Runs an activity and all tasks, letting time pass up to a limit. -/
def drive (began limit : Nat) (late : World → Reply) : Nat → World → Activity → World × Reply
  | 0, w, _ => (giveUp w, late w)
  | fuel + 1, w, a =>
    match a.run began World.patience w with
    | (w, .inr r) => (w.settle, r)
    | (w, .inl a) =>
      let w := w.settle
      if (a.step w began).isSome then drive began limit late fuel w a
      else if limit ≤ w.now then ((giveUp w).settle, late w)
      else
        let next := (World.nextDue? w.now (a.due?.toList ++ w.dues)).getD limit
        drive began limit late fuel (w.goTo (min next limit)) a

end Activity

namespace Command

/-- How long a command may take if nothing else is said. -/
def defaultLimit : Nat := 60000

/-- Whether a command that sleeps is given up: it has to end before the limit. -/
def sleepsTooLong (ms limit : Nat) : Bool := limit ≤ ms

/-- A duration in milliseconds with its unit: seconds with their fraction from one second on. -/
def renderMillis (ms : Nat) : String :=
  if ms < 1000 then toString ms ++ "ms"
  else
    let fraction := (String.ofList (Nat.toDigits 10 (1000 + ms % 1000))).toList.drop 1
    let fraction := (fraction.reverse.dropWhile (· = '0')).reverse
    toString (ms / 1000) ++ (if fraction.isEmpty then "" else "." ++ String.ofList fraction) ++ "s"

/-- The error of a pipeline that did not stop in time. -/
def didNotStop (timeout : Nat) : Error :=
  .timeout ("pipeline tasks did not stop within " ++ renderMillis timeout)

/-- Starts an activity. -/
def carryOut (w : World) (limit : Nat) (a : Activity) (late : World → Reply := fun _ => .blocked) : World × Reply :=
  Activity.drive w.now (w.now + limit) late World.patience w a

/-- A reply at once. -/
def atOnce (w : World) (r : Reply) : World × Reply := (w.settle, r)

/-- Records ordered by GTID, then by context. -/
def sortRecords (rs : List AuditRecord) : List AuditRecord :=
  rs.mergeSort fun a b => a.gtid < b.gtid || (a.gtid == b.gtid && a.context ≤ b.context)

/-- The records handed over so far and those still in the channel, which are taken out. -/
def receiveAll (w : World) : World × List AuditRecord :=
  let shown := w.services.handler.shown
  let p := w.bench
  let waiting := if p.dispatching then [] else p.delivery.items
  ({ w with services := { w.services with handler := { w.services.handler with seen := [] } } }.setBench
    { p with delivery := if p.dispatching then p.delivery else { p.delivery with items := [] } }, shown ++ waiting)

/-- The world after a command, and its reply. A command that has not come to an end after `limit` milliseconds is given up. -/
def run (w : World) (limit : Nat) : Command → World × Reply
  | .act a => let (s, r) := a.run w.services; atOnce { w with services := s } r
  | .later delay a => atOnce { w with later := w.later ++ [(w.now + delay, a)] } .done
  | .advance ms => carryOut w limit (if sleepsTooLong ms limit then .sleeping (w.now + ms + limit) else .sleeping (w.now + ms))
  | .reopenCursors ns =>
    match w.services.cursors.reopen ns with
    | .ok c => atOnce { w with services := { w.services with cursors := c } } .done
    | .error e => atOnce w (.error e)
  | .metrics => atOnce w (.metrics w.services.metrics.snapshot)
  | .exported => atOnce w (.exported w.services.metrics.exported)
  | .openFeed name topic partition =>
    match Feed.openAt w.settings.feed w.services topic partition with
    | .ok f => atOnce { w with feeds := (name, f) :: w.feeds.filter (·.1 != name) } (.opened topic partition f.position)
    | .error e => atOnce w (.error e)
  | .nextBatch name timeout =>
    let position (w : World) : Int := ((w.feeds.lookup name).map (·.position)).getD 0
    carryOut w (min timeout limit) (.polling name .ready) fun w =>
      if timeout ≤ limit then .noBatch timeout (position w) else .blocked
  | .advanceFeed name offset =>
    let feeds := w.feeds.map fun e => if e.1 = name then (name, e.2.advance offset) else e
    atOnce { w with feeds := feeds } (.position (offset + 1))
  | .startWriter dead =>
    let p := w.bench
    let intake : Channel Intake := .ofCapacity w.settings.writer.capacity
    if !Channel.isPossible w.settings.writer.capacity then atOnce { w with panicked := true } .done
    else if dead then atOnce (w.setBench { p with intake := intake.close, intakeHandle := true, writer := none }) .done
    else
      let writer := Writer.start w.settings.writer w.settings.rowChangeTopic w.now
      atOnce ((w.setBench { p with intake := intake, intakeHandle := true, writer := some writer }).spawn 0 [.writer]) .done
  | .accept items => carryOut w limit (.sending items)
  | .stopWriter => carryOut (w.setBench { w.bench with intakeHandle := false }) limit (.stopping .writer)
  | .startIngest topic =>
    let p := { w.bench with intakeHandle := false }
    match Reader.openAll w.settings.feed w.services topic with
    | .ok workers =>
      let p := { p with workers := workers }
      atOnce ((w.setBench p).spawn 0 ((List.range workers.length).map .worker)) (.started workers.length)
    | .error e => atOnce (w.setBench p) (.error e)
  | .stopIngest signal =>
    carryOut (w.setBench (if signal then w.bench.signalWorkers else w.bench)) limit (.stopping .ingest)
  | .crash =>
    let p := w.bench
    atOnce (w.setBench { p with workers := [], writer := none, intake := p.intake.close }) .done
  | .receive sorted =>
    let (w, rs) := receiveAll w
    atOnce w (.records (if sorted then sortRecords rs else rs))
  | .closeDelivery =>
    let p := w.bench
    atOnce (w.setBench { p with dispatching := false, delivery := p.delivery.close }) .done
  | .deliver r => carryOut w limit (.delivering r)
  | .stopDispatcher => carryOut (w.setBench { w.bench with deliveryHandle := false }) limit (.stopping .dispatcher)
  | .correlate m => carryOut w limit (.correlating { settings := w.settings.correlator, marker := m })
  | .startCorrelator =>
    let correlator : Correlator := { settings := w.settings.correlator, topic := w.settings.markerTopic }
    let p := { w.bench with
      markers := .ofCapacity w.settings.correlator.capacity, markerHandle := true, correlator := some correlator }
    if !Channel.isPossible w.settings.correlator.capacity then atOnce { w with panicked := true } .done
    else atOnce ((w.setBench p).spawn 0 [.correlator]) .done
  | .sendEnvelope e => carryOut w limit (.sendingEnvelope e)
  | .startFeeders topic =>
    match Reader.openAll w.settings.feed w.services topic with
    | .ok feeders =>
      let p := { w.bench with feeders := feeders }
      atOnce ((w.setBench p).spawn 0 ((List.range feeders.length).map .feeder)) (.started feeders.length)
    | .error e => atOnce w (.error e)
  | .stopCorrelator signal =>
    let p := { w.bench with markerHandle := false }
    carryOut (w.setBench (if signal then p.signalMarkers else p)) limit (.stopping .correlator)
  | .sweep => carryOut w limit (.sweeping { settings := w.settings.sweeper })
  | .startSweeper =>
    atOnce ((w.setBench { w.bench with sweeper := Sweeper.launch? w.settings.sweeper w.now }).spawn 0 [.sweeper]) .done
  | .stopSweeper => carryOut (w.setBench w.bench.signalSweeper) limit (.stopping .sweeper)
  | .startPipeline =>
    let i := w.pipelines.length
    let add (p : Pipeline) (w : World) : World := { w with pipelines := w.pipelines ++ [p] }.spawn i p.roles
    match Pipeline.start w.settings w.now w.services with
    | .running p => atOnce { add p w with current := some i } .done
    | .failed p e => atOnce (add p w) (.error e)
    | .panicked => atOnce { w with panicked := true } .done
  | .stopPipeline timeout =>
    match w.current with
    | none => atOnce w .done
    | some i =>
      let pipelines := w.pipelines.mapIdx fun j p => if i = j then p.signal else p
      carryOut { w with pipelines := pipelines, current := none } (min timeout limit) (.stopping (.pipeline i)) fun _ =>
        if timeout ≤ limit then .error (didNotStop timeout) else .blocked

/-- The world after commands with their limits, one after the other, and the replies. A program that has panicked runs no more of
them. -/
def perform (w : World) : List (Nat × Command) → World × List Reply
  | [] => (w, [])
  | (limit, c) :: rest =>
    if w.panicked then (w, [])
    else
      let (w, r) := c.run w limit
      let (w, rs) := perform w rest
      (w, r :: rs)

/-- The replies to commands with their limits. -/
def runAll (w : World) (cs : List (Nat × Command)) : List Reply := (perform w cs).2

end Command

end AuditTrail.Scenario
