import AuditTrail.Proofs.Pipeline.Markers
import AuditTrail.Proofs.Totals

/-!
# The metrics account for every message and every record

A scene keeps what has gone through the channels of a pipeline, and a ledger what its correlator is through with. A `Log` keeps
besides the messages that the readers have got and taken up and the attempts of the writer to store a batch, so that it holds
all that the counters are about. `Scene.Logged` is a run with its log.

The readers, the writer, the correlator, the sweeper and the dispatcher count in parts, some before what they count is done and
some after it. At every point of a run the counters agree with the log, but for what is under way (`Balance`): a message that is
not taken up yet, a row in the hand of a reader, a marker that is correlated, a record whose transaction is not written. When all
tasks have stopped, nothing is under way (`metrics_balance`).
-/

namespace AuditTrail

namespace Correlator

/-- The marker of an envelope is counted when its correlation ends, and only then. -/
theorem Turn.concluded {senders : Bool} {c c' : Correlator} {m m' : Channel Envelope} {d d' : Channel AuditRecord}
    {s t : Services} (h : Turn senders c m d s c' m' d' t)
    (hm : ∀ e x, c.phase = .correlating e x → e.marker.isSome = true) :
    (c.releases ++ c'.settled).countP (·.marker.isSome) = c.settled.countP (·.marker.isSome) + c'.results.length := by
  cases h with
  | @work e x x' d' t hp hx =>
    have hmark := hm e x hp
    have hbusy : x.isFinished = false := by cases hx <;> simp_all [Correlation.isFinished]
    have hbefore : c.settled = [] := by simp [Correlator.settled, hp, hbusy]
    have hreleases : c.releases = [] := by simp [releases, hp]
    rw [hbefore, hreleases]
    cases hf : x'.phase <;>
      simp [Correlator.settled, results, Correlation.results, Correlation.isFinished, hf, hmark]
  | done hp hx => simp [releases, Correlator.settled, results, hp, Correlation.isFinished, hx]
  | pass hp hq he => simp [releases, Correlator.settled, results, hp, he]
  | commit hp => simp [releases, Correlator.settled, results, hp]
  | take hp hq he =>
    simp [releases, Correlator.settled, results, Correlation.results, hp, Correlation.isFinished]
  | stop hp hs => simp [releases, Correlator.settled, results, hp]

end Correlator

namespace Pipeline

/-- What has gone on in the course of a run. -/
structure Log extends Ledger where
  /-- The messages with row changes that the readers have got from the queue. -/
  fetched : List Message := []
  /-- The messages with row changes that the readers have taken up. -/
  rows : List Message := []
  /-- The messages with markers that the readers have taken up. -/
  markers : List Message := []
  /-- The attempts to store a batch. -/
  attempts : List Writer.Flush := []

/-- The log after a step of a task that leads to a pipeline. -/
def Log.after (l : Log) (x : Scene) (p : Pipeline) : Role → Log
  | .worker i =>
    { l with
      fetched := l.fetched ++ (x.pipeline.workers[i]?.bind fun r => p.workers[i]?.map fun r' => r.fetches r').getD []
      rows := l.rows ++ (x.pipeline.workers[i]?.map (·.takes)).getD [] }
  | .feeder i => { l with markers := l.markers ++ (x.pipeline.feeders[i]?.map (·.takes)).getD [] }
  | .writer => { l with attempts := l.attempts ++ (x.pipeline.writer.map (·.flushes x.services)).getD [] }
  | .correlator => { l with toLedger := l.toLedger.after x .correlator }
  | _ => l

/-- The messages with row changes that the readers have still to take up. -/
def unread (p : Pipeline) : List Message := p.workers.flatMap (·.remaining)

/-- The rows that the readers have in hand. -/
def inHand (p : Pipeline) : List StoredChange := p.workers.flatMap (·.inHand)

/-- The number of records that have been sent and whose transactions are not written yet. -/
def owed (p : Pipeline) : Nat := (p.correlator.map (·.owed)).getD 0 + (p.sweeper.map (·.owed)).getD 0

namespace Scene

/-- A run with its log, in which nobody outside counts anything or makes upserts fail. -/
inductive Logged (first : Scene) : Scene → Log → Prop where
  | start : Logged first first {}
  | task {x : Scene} {l : Log} {role : Role} {choice : Choice} {now : Nat} {p : Pipeline} {s : Services}
      (hx : Logged first x l) (h : x.pipeline.step role choice now x.services = some (p, s)) :
      Logged first (x.advance role p s) (l.after x p role)
  | signal {x : Scene} {l : Log} (hx : Logged first x l) : Logged first { x with pipeline := x.pipeline.signal } l
  | outside {x : Scene} {l : Log} {t : Services} (hx : Logged first x l) (h : x.services.Outside t)
      (hm : t.metrics = x.services.metrics) (hu : t.store.failUpserts = false) :
      Logged first { x with services := t } l

variable {first x : Scene} {l : Log}

/-- A run with its log is a run. -/
theorem Logged.run (h : Logged first x l) : Run (·.store.failUpserts = false) first x := by
  induction h with
  | start => exact .refl
  | task hx h ih => exact ih.tail (.task h)
  | signal hx ih => exact ih.tail .signal
  | outside hx h hm hu ih => exact ih.tail (.outside h hu)

/-- Upserts do not fail in the course of a run with its log. -/
theorem Logged.upserts (h : Logged first x l) (hu : first.services.store.failUpserts = false) :
    x.services.store.failUpserts = false :=
  h.run.of_faults (fun _ => id) (fun hf hs => hf.upserts.trans hs) hu

/-- What is counted of row changes agrees with the log, but for the messages that the readers have still to take up and the rows
that they have in hand. -/
structure RowBalance (x : Scene) (l : Log) : Prop where
  fetched : (l.rows ++ x.pipeline.unread).Perm l.fetched
  received : x.services.totals.received = l.rows.length
  filtered : x.services.totals.filtered + l.rows.countP (·.undecodable .rowChange) + (Intake.rowsOf x.accepted).length +
    x.pipeline.inHand.length = l.rows.length
  undecodable : x.services.totals.undecodable =
    l.rows.countP (·.undecodable .rowChange) + l.markers.countP (·.undecodable .marker)
  rows : x.services.totals.rows = (l.attempts.flatMap (·.rows)).length
  inserts : x.services.totals.inserts = l.attempts.length
  /-- As long as the writer is at work, it receives what is sent to it. -/
  received_of_writing : x.pipeline.writing = true → x.pipeline.intake.received = true

/-- What is counted of markers agrees with the log and the envelope that the correlator has in hand. -/
structure MarkerBalance (x : Scene) (l : Log) : Prop where
  outcomes : x.services.totals.outcomes = (x.correlated l.toLedger).countP (·.marker.isSome)
  /-- An envelope whose marker is correlated has one. -/
  correlating : ∀ c e z, x.pipeline.correlator = some c → c.phase = .correlating e z → e.marker.isSome = true

/-- What is counted of records agrees with those sent and handed over, but for the records whose transactions are not written
yet. -/
structure RecordBalance (x : Scene) : Prop where
  resolved : x.services.totals.resolved + x.pipeline.owed = x.enqueued.length
  delivered : x.services.totals.delivered = x.handled.length
  sweep : ∀ v w, x.pipeline.sweeper = some v → v.sweep = some w → w.Unreported
  /-- A sweeper that has stopped has no sweep under way. -/
  stopped : ∀ v, x.pipeline.sweeper = some v → v.stopped = true → v.sweep = none

/-- The counters agree with the log, but for what is under way. -/
structure Balance (x : Scene) (l : Log) : Prop where
  rows : RowBalance x l
  markers : MarkerBalance x l
  records : RecordBalance x

end Scene

namespace BalanceAux

open Scene

variable {x y : Scene} {l l' : Log} {t : Services}

/-- A move in which no reader and no writer counts anything keeps the balance of the rows. -/
theorem rowBalance_frame {outcomes resolved delivered : Nat} (h : RowBalance x l)
    (ht : y.services.totals =
      { x.services.totals with outcomes := outcomes, resolved := resolved, delivered := delivered })
    (ha : y.accepted = x.accepted) (hu : y.pipeline.unread = x.pipeline.unread)
    (hr : y.pipeline.inHand = x.pipeline.inHand) (hi : y.pipeline.intake = x.pipeline.intake)
    (hw : y.pipeline.writing = x.pipeline.writing) : RowBalance y l := by
  refine ⟨hu ▸ h.fetched, ?_, ?_, ?_, ?_, ?_, hi ▸ hw ▸ h.received_of_writing⟩
  · rw [ht]
    exact h.received
  · rw [ht, ha, hr]
    exact h.filtered
  · rw [ht]
    exact h.undecodable
  · rw [ht]
    exact h.rows
  · rw [ht]
    exact h.inserts

/-- A correlator that is told nothing is where it was. -/
theorem told_self (c : Option Correlator) :
    ∃ told : Correlator → Correlator, c = c.map told ∧ ∀ c, (told c).phase = c.phase :=
  ⟨id, Option.map_id_apply.symm, fun _ => rfl⟩

/-- A move in which the correlator does not go on keeps the balance of the markers. -/
theorem markerBalance_frame (h : MarkerBalance x l) (ht : y.services.totals.outcomes = x.services.totals.outcomes)
    (hl : l'.toLedger = l.toLedger)
    (hc : ∃ told : Correlator → Correlator, y.pipeline.correlator = x.pipeline.correlator.map told ∧
      ∀ c, (told c).phase = c.phase) : MarkerBalance y l' := by
  obtain ⟨told, hy, htold⟩ := hc
  refine ⟨?_, ?_⟩
  · have hsettled : ∀ c, (told c).settled = c.settled := fun c => by simp only [Correlator.settled, htold]
    have hsame : y.correlated l.toLedger = x.correlated l.toLedger := by
      rw [correlated, correlated, hy, Option.map_map]
      simp only [Function.comp_def, hsettled]
    rw [ht, hl, hsame]
    exact h.outcomes
  · intro c e z hcc he
    rw [hy] at hcc
    obtain ⟨c', hc', rfl⟩ := Option.map_eq_some_iff.1 hcc
    exact h.correlating c' e z hc' (htold c' ▸ he)

/-- A move in which nobody sends a record or hands one over, and nothing is written, keeps the balance of the records. -/
theorem recordBalance_frame (h : RecordBalance x) (hr : y.services.totals.resolved = x.services.totals.resolved)
    (hd : y.services.totals.delivered = x.services.totals.delivered) (he : y.enqueued = x.enqueued)
    (hh : y.handled = x.handled) (ho : y.pipeline.owed = x.pipeline.owed)
    (hs : ∀ v, y.pipeline.sweeper = some v →
      ∃ v', x.pipeline.sweeper = some v' ∧ v.sweep = v'.sweep ∧ v.stopped = v'.stopped) : RecordBalance y := by
  refine ⟨?_, ?_, ?_, ?_⟩
  · rw [hr, ho, he]
    exact h.resolved
  · rw [hd, hh]
    exact h.delivered
  · intro v w hv hw
    obtain ⟨v', hv', hsweep, -⟩ := hs v hv
    exact h.sweep v' w hv' (hsweep ▸ hw)
  · intro v hv hstopped
    obtain ⟨v', hv', hsweep, hsame⟩ := hs v hv
    exact hsweep.trans (h.stopped v' hv' (hsame ▸ hstopped))

/-- When one of many is replaced, what is made of all changes by what is made of the one. -/
theorem perm_flatMap_set {α β : Type} (f : α → List β) {as : List α} {i : Nat} {a : α} (b : α) (h : as[i]? = some a) :
    ((as.set i b).flatMap f ++ f a).Perm (as.flatMap f ++ f b) := by
  induction as generalizing i with
  | nil => exact absurd h (by simp)
  | cons c as ih =>
    cases i with
    | zero =>
      obtain rfl := Option.some.inj h
      simp only [List.set_cons_zero, List.flatMap_cons]
      exact (List.perm_append_comm).trans ((List.perm_append_comm.append_left _).trans (by simp))
    | succ i =>
      simp only [List.set_cons_succ, List.flatMap_cons, List.append_assoc]
      exact (ih h).append_left _

/-- A step in which the totals change only in what readers and the writer count keeps the balance of markers and records. -/
theorem balance_of_rows {role : Role} {p : Pipeline} {received filtered undecodable rows inserts : Nat} (h : Balance x l)
    (hrows : RowBalance (x.advance role p t) l') (hl : l'.toLedger = l.toLedger)
    (ht : t.totals = { x.services.totals with
      received := received, filtered := filtered, undecodable := undecodable, rows := rows, inserts := inserts })
    (hc : p.correlator = x.pipeline.correlator) (hv : p.sweeper = x.pipeline.sweeper)
    (hd : p.delivery = x.pipeline.delivery) (hhands : x.pipeline.hands role = []) :
    Balance (x.advance role p t) l' := by
  refine ⟨hrows, ?_, ?_⟩
  · exact markerBalance_frame h.markers (by rw [advance, ht]) hl (hc ▸ told_self _)
  · refine recordBalance_frame h.records (by rw [advance, ht]) (by rw [advance, ht]) ?_ ?_ ?_ ?_
    · simp [advance, hd]
    · simp [advance, hhands]
    · simp [advance, owed, hc, hv]
    · exact fun v hv' => ⟨v, hv.symm.trans hv', rfl, rfl⟩

/-- A step of a reader of row changes keeps the balance. -/
theorem balance_worker {i : Nat} {r r' : Worker} {c : Channel Intake} {heed : Bool} {now : Nat} (h : Balance x l)
    (hopen : x.pipeline.intake.received = true) (hr : x.pipeline.workers[i]? = some r)
    (ht : Worker.step x.pipeline.filter heed now r x.pipeline.intake x.services = some (r', c, t)) :
    Balance (x.advance (.worker i) { x.pipeline with workers := x.pipeline.workers.set i r', intake := c } t)
      (l.after x { x.pipeline with workers := x.pipeline.workers.set i r', intake := c } (.worker i)) := by
  obtain ⟨filtered, htotals, hsplit⟩ := Worker.totals_step ht hopen
  have hturn := Reader.turn_of_step ht
  have hset : (x.pipeline.workers.set i r')[i]? = some r' := List.getElem?_set_self (List.getElem?_eq_some_iff.1 hr).1
  have hlog : l.after x { x.pipeline with workers := x.pipeline.workers.set i r', intake := c } (.worker i) =
      { l with fetched := l.fetched ++ r.fetches r', rows := l.rows ++ r.takes } := by
    simp only [Log.after, hr, hset, Option.bind_some, Option.map_some, Option.getD_some]
  obtain ⟨hfetched, hreceived, hfiltered, hundecodable, hrows, hinserts, -⟩ := h.rows
  rw [hlog]
  refine balance_of_rows h ⟨?_, ?_, ?_, ?_, ?_, ?_, ?_⟩ rfl htotals rfl rfl rfl rfl
  · have hunread := perm_flatMap_set (fun r : Worker => r.remaining) r' hr
    have hmessages := hturn.messages hopen
    -- messages move from one reader's hands to the end of a list, so the lists agree only up to their order
    refine List.perm_iff_count.2 fun m => ?_
    have hbefore := hfetched.count_eq m
    have hset := hunread.count_eq m
    have hone := congrArg (List.count m) hmessages
    simp only [advance, unread, List.count_append] at hbefore hset hone ⊢
    omega
  · simp only [advance, htotals, hreceived, List.length_append]
  · have hset := (perm_flatMap_set (fun r : Worker => r.inHand) r' hr).length_eq
    simp only [advance, htotals, inHand, List.countP_append, Intake.rowsOf_append, List.length_append]
      at hfiltered hset ⊢
    omega
  · simp only [advance, htotals, List.countP_append]
    omega
  · simp only [advance, htotals, hrows]
  · simp only [advance, htotals, hinserts]
  · exact fun _ => hturn.received.trans hopen

/-- A step of a reader of markers keeps the balance. -/
theorem balance_feeder {i : Nat} {r r' : Feeder} {c : Channel Envelope} {heed : Bool} {now : Nat} (h : Balance x l)
    (hr : x.pipeline.feeders[i]? = some r)
    (ht : Feeder.step heed now r x.pipeline.markers x.services = some (r', c, t)) :
    Balance (x.advance (.feeder i) { x.pipeline with feeders := x.pipeline.feeders.set i r', markers := c } t)
      (l.after x { x.pipeline with feeders := x.pipeline.feeders.set i r', markers := c } (.feeder i)) := by
  have htotals := Feeder.totals_step ht
  have hlog : l.after x { x.pipeline with feeders := x.pipeline.feeders.set i r', markers := c } (.feeder i) =
      { l with markers := l.markers ++ r.takes } := by simp [Log.after, hr]
  obtain ⟨hfetched, hreceived, hfiltered, hundecodable, hrows, hinserts, hwriting⟩ := h.rows
  rw [hlog]
  refine balance_of_rows h ⟨hfetched, ?_, ?_, ?_, ?_, ?_, hwriting⟩ rfl htotals rfl rfl rfl rfl
  · simp only [advance, htotals, hreceived]
  · simpa [advance, htotals, inHand] using hfiltered
  · simp only [advance, htotals, List.countP_append]
    omega
  · simp only [advance, htotals, hrows]
  · simp only [advance, htotals, hinserts]

/-- A step of the writer keeps the balance. -/
theorem balance_writer {w w' : Writer} {c : Channel Intake} {senders : Bool} (h : Balance x l)
    (hw : x.pipeline.writer = some w) (ht : Writer.Turn senders w x.pipeline.intake x.services w' c t) :
    Balance (x.advance .writer { x.pipeline with writer := some w', intake := c } t)
      (l.after x { x.pipeline with writer := some w', intake := c } .writer) := by
  have htotals := ht.totals
  have hlog : l.after x { x.pipeline with writer := some w', intake := c } .writer =
      { l with attempts := l.attempts ++ w.flushes x.services } := by simp [Log.after, hw]
  obtain ⟨hfetched, hreceived, hfiltered, hundecodable, hrows, hinserts, hwriting⟩ := h.rows
  rw [hlog]
  refine balance_of_rows h ⟨hfetched, ?_, ?_, ?_, ?_, ?_, ?_⟩ rfl htotals rfl rfl rfl rfl
  · simp only [advance, htotals, hreceived]
  · simpa [advance, htotals, inHand, ht.entered] using hfiltered
  · simp only [advance, htotals, hundecodable]
  · simp only [advance, htotals, hrows, List.flatMap_append, List.length_append]
  · simp only [advance, htotals, hinserts, List.length_append]
  · intro hstill
    have hreceived := hwriting (by simp [writing, hw, ht.running])
    cases ht with
    | stop hp hq => exact absurd hstill (by simp [advance, writing, Writer.isStopped])
    | _ => exact hreceived

/-- A step of the correlator keeps the balance. -/
theorem balance_correlator {c c' : Correlator} {m : Channel Envelope} {d : Channel AuditRecord} {heed : Bool} {now : Nat}
    (h : Balance x l) (hopen : x.pipeline.delivery.received = true) (hc : x.pipeline.correlator = some c)
    (hstep : c.step heed now x.pipeline.markerSenders x.pipeline.markers x.pipeline.delivery x.services = some (c', m, d, t)) :
    Balance (x.advance .correlator { x.pipeline with correlator := some c', markers := m, delivery := d } t)
      (l.after x { x.pipeline with correlator := some c', markers := m, delivery := d } .correlator) := by
  have hturn := Correlator.turn_of_step hstep
  have htotals := Correlator.totals_step hstep hopen
  have hlog : l.after x { x.pipeline with correlator := some c', markers := m, delivery := d } .correlator =
      { l with toLedger := l.toLedger.note c x.services } := by
    simp [Log.after, Ledger.after, hc]
  have hrows : RowBalance
      (x.advance .correlator { x.pipeline with correlator := some c', markers := m, delivery := d } t) l :=
    rowBalance_frame h.rows htotals (by simp [advance]) rfl rfl rfl rfl
  rw [hlog]
  refine ⟨{ hrows with }, ⟨?_, ?_⟩, ⟨?_, ?_, h.records.sweep, h.records.stopped⟩⟩
  · have hsettled := hturn.concluded fun e z he => h.markers.correlating c e z hc he
    have houtcomes := h.markers.outcomes
    rw [MarkersAux.correlated_of_some hc, List.countP_append] at houtcomes
    rw [MarkersAux.correlated_advance, List.countP_append, hsettled]
    simp only [advance, htotals, Totals.conclude]
    omega
  · intro c₁ e z hc₁ he
    obtain rfl := Option.some.inj hc₁
    cases hturn with
    | take hp hm hmark =>
      obtain ⟨rfl, -⟩ := Correlator.Phase.correlating.inj he
      rw [hmark]
      rfl
    | work hp hx =>
      obtain ⟨rfl, -⟩ := Correlator.Phase.correlating.inj he
      exact h.markers.correlating c _ _ hc hp
    | _ => exact absurd he (by simp)
  · have howed := hturn.owed hopen
    have hresolved := h.records.resolved
    simp only [owed, hc, Option.map_some, Option.getD_some] at hresolved
    simp only [advance, htotals, Totals.conclude, owed, Option.map_some, Option.getD_some, List.length_append]
    omega
  · simpa [advance, htotals, Totals.conclude, hands] using h.records.delivered

/-- A step of the sweeper keeps the balance. -/
theorem balance_sweeper {v v' : Sweeper} {d : Channel AuditRecord} {heed : Bool} {now : Nat} (h : Balance x l)
    (hopen : x.pipeline.delivery.received = true) (hu : x.services.store.failUpserts = false)
    (hv : x.pipeline.sweeper = some v)
    (ht : v.step heed now x.pipeline.delivery x.services = some (v', d, t)) :
    Balance (x.advance .sweeper { x.pipeline with sweeper := some v', delivery := d } t) l := by
  obtain ⟨resolved, htotals, hnext⟩ := Sweeper.totals_step ht
  obtain ⟨hunreported, howed⟩ := hnext (fun w hw => h.records.sweep v w hv hw) hopen hu
  refine ⟨rowBalance_frame h.rows htotals (by simp [advance]) rfl rfl rfl rfl, ?_, ⟨?_, ?_, ?_, ?_⟩⟩
  · exact markerBalance_frame h.markers (by rw [advance, htotals]) rfl (told_self _)
  · have hresolved := h.records.resolved
    simp only [owed, hv, Option.map_some, Option.getD_some] at hresolved
    simp only [advance, htotals, owed, Option.map_some, Option.getD_some, List.length_append]
    omega
  · simpa [advance, htotals, hands] using h.records.delivered
  · intro v₁ w hv₁ hw
    obtain rfl := Option.some.inj hv₁
    exact hunreported w hw
  · intro v₁ hv₁ hstopped
    obtain rfl := Option.some.inj hv₁
    have hturn := Sweeper.turn_of_step ht
    have hrunning := hturn.running
    cases hturn with
    | stop hr hw hs => exact hw
    | _ => exact absurd (hrunning.symm.trans hstopped) (by decide)

/-- A step of the dispatcher keeps the balance. -/
theorem balance_dispatcher {p : Pipeline} (h : Balance x l) (ht : Turn x.pipeline x.services .dispatcher p t) :
    Balance (x.advance .dispatcher p t) l := by
  cases ht with
  | @deliver r rest hd hi =>
    have htotals := x.services.totals_handle r
    refine ⟨rowBalance_frame h.rows htotals (by simp [advance]) rfl rfl rfl rfl, ?_,
      ⟨?_, ?_, h.records.sweep, h.records.stopped⟩⟩
    · exact markerBalance_frame h.markers (by rw [advance, htotals]) rfl (told_self _)
    · simpa [advance, htotals, owed, Channel.entered_rest hi] using h.records.resolved
    · simp [advance, htotals, hands, hd, hi, h.records.delivered]
  | close hd hi hs =>
    refine ⟨rowBalance_frame h.rows rfl (by simp [advance]) rfl rfl rfl rfl, ?_, ?_⟩
    · exact markerBalance_frame h.markers rfl rfl (told_self _)
    · exact recordBalance_frame h.records rfl rfl (by simp [advance]) (by simp [advance, hands, hi]) rfl
        fun v hv => ⟨v, hv, rfl, rfl⟩

/-- Every step of a task keeps the balance, if upserts do not fail. -/
theorem balance_task {role : Role} {choice : Choice} {now : Nat} {p : Pipeline} (h : Balance x l) (hd : Delivering x)
    (hopen : x.pipeline.intakeSenders = true → x.pipeline.writing = true)
    (hu : x.services.store.failUpserts = false) (hstep : x.pipeline.step role choice now x.services = some (p, t)) :
    Balance (x.advance role p t) (l.after x p role) := by
  have hreceived (hsend : x.pipeline.deliverySenders = true) : x.pipeline.delivery.received = true :=
    hd.received (DeliveryAux.dispatching_of_senders hd hsend)
  cases role with
  | dispatcher => exact balance_dispatcher h (turn_of_dispatch hstep)
  | writer =>
    obtain ⟨w, hw, hstep⟩ := Option.bind_eq_some_iff.1 hstep
    obtain ⟨⟨w', c, t'⟩, ht, hstep⟩ := Option.bind_eq_some_iff.1 hstep
    obtain ⟨rfl, rfl⟩ := Prod.mk.inj (Option.some.inj hstep)
    exact balance_writer h hw (Writer.turn_of_step ht)
  | worker i =>
    obtain ⟨r, hr, hstep⟩ := Option.bind_eq_some_iff.1 hstep
    obtain ⟨⟨r', c, t'⟩, ht, hstep⟩ := Option.bind_eq_some_iff.1 hstep
    obtain ⟨rfl, rfl⟩ := Prod.mk.inj (Option.some.inj hstep)
    have hrunning := (Reader.turn_of_step ht).running
    have hsend : x.pipeline.intakeSenders = true :=
      Bool.or_eq_true_iff.2 (Or.inr (List.any_eq_true.2 ⟨r, List.mem_of_getElem? hr, by rw [hrunning]; rfl⟩))
    exact balance_worker h (h.rows.received_of_writing (hopen hsend)) hr ht
  | feeder i =>
    obtain ⟨r, hr, hstep⟩ := Option.bind_eq_some_iff.1 hstep
    obtain ⟨⟨r', c, t'⟩, ht, hstep⟩ := Option.bind_eq_some_iff.1 hstep
    obtain ⟨rfl, rfl⟩ := Prod.mk.inj (Option.some.inj hstep)
    exact balance_feeder h hr ht
  | correlator =>
    obtain ⟨c, hc, hstep⟩ := Option.bind_eq_some_iff.1 hstep
    obtain ⟨⟨c', m, d, t'⟩, ht, hstep⟩ := Option.bind_eq_some_iff.1 hstep
    obtain ⟨rfl, rfl⟩ := Prod.mk.inj (Option.some.inj hstep)
    have hrunning := (Correlator.turn_of_step ht).running
    exact balance_correlator h (hreceived (by simp [deliverySenders, correlating, hc, hrunning])) hc ht
  | sweeper =>
    obtain ⟨v, v', d, hv, ht, rfl⟩ := sweeper_of_step hstep
    have hrunning := (Sweeper.turn_of_step ht).running
    exact balance_sweeper h (hreceived (by simp [deliverySenders, sweeping, hv, hrunning])) hu hv ht

/-- Telling the tasks to stop keeps the balance. -/
theorem balance_signal (h : Balance x l) : Balance { x with pipeline := x.pipeline.signal } l := by
  have hunread : x.pipeline.signal.unread = x.pipeline.unread := List.flatMap_map _ _ _
  have hinHand : x.pipeline.signal.inHand = x.pipeline.inHand := List.flatMap_map _ _ _
  have howed : x.pipeline.signal.owed = x.pipeline.owed := by
    simp only [owed, signal, signalSweeper, signalMarkers, signalWorkers, Option.map_map]
    rfl
  refine ⟨rowBalance_frame h.rows rfl rfl hunread hinHand rfl rfl, ?_, ?_⟩
  · exact markerBalance_frame h.markers rfl rfl ⟨_, rfl, fun _ => rfl⟩
  · refine recordBalance_frame h.records rfl rfl rfl rfl howed ?_
    intro v hv
    obtain ⟨v', hv', rfl⟩ := Option.map_eq_some_iff.1 hv
    exact ⟨v', hv', rfl, rfl⟩

/-- What comes from outside keeps the balance, if it counts nothing. -/
theorem balance_outside (h : Balance x l) (hm : t.metrics = x.services.metrics) : Balance { x with services := t } l := by
  have htotals : t.totals = x.services.totals := congrArg (·.counts.totals) hm
  refine ⟨rowBalance_frame h.rows htotals rfl rfl rfl rfl rfl, ?_, ?_⟩
  · exact markerBalance_frame h.markers (congrArg Totals.outcomes htotals) rfl (told_self _)
  · exact recordBalance_frame h.records (congrArg Totals.resolved htotals) (congrArg Totals.delivered htotals) rfl rfl rfl
      fun v hv => ⟨v, hv, rfl, rfl⟩

/-- The counters of a pipeline that starts agree with an empty log, if nothing has been counted. -/
theorem balance_start (settings : PipelineSettings) (now : Nat) {s : Services} (hnew : s.metrics.counts = {}) :
    Balance (.start settings now s) {} := by
  have h := started_assemble settings now s
  have htotals : (Scene.start settings now s).services.totals = Counts.totals {} := congrArg Counts.totals hnew
  have hworkers : ∀ r ∈ (Scene.start settings now s).pipeline.workers, ∃ p, r.phase = .polling p := by
    intro r hr
    rcases h.workers with hw | ⟨ws, told, hopen, hw, htold⟩
    · exact absurd (hw ▸ hr) List.not_mem_nil
    · obtain ⟨r₀, hr₀, rfl⟩ := List.mem_map.1 (show r ∈ ws.map told from hw ▸ hr)
      exact ⟨_, (htold r₀).2.trans ((Reader.openAll_eq_ok hopen).2 r₀ hr₀).1⟩
  have hunread : (Scene.start settings now s).pipeline.unread = [] := by
    refine List.flatMap_eq_nil_iff.2 fun r hr => ?_
    obtain ⟨p, hp⟩ := hworkers r hr
    rw [Reader.remaining, hp]
  have hinHand : (Scene.start settings now s).pipeline.inHand = [] := by
    refine List.flatMap_eq_nil_iff.2 fun r hr => ?_
    obtain ⟨p, hp⟩ := hworkers r hr
    rw [Worker.inHand, hp]
  refine ⟨⟨?_, ?_, ?_, ?_, ?_, ?_, ?_⟩, ⟨?_, ?_⟩, ⟨?_, ?_, ?_, ?_⟩⟩
  · rw [hunread]; exact .rfl
  · rw [htotals]; rfl
  · rw [htotals, hinHand]; rfl
  · rw [htotals]; rfl
  · rw [htotals]; rfl
  · rw [htotals]; rfl
  · intro _
    simp [Scene.start, h.intake]
  · rw [htotals]
    rcases h.correlator with hc | hc <;> simp [correlated, Scene.start, hc, Counts.totals, Correlator.settled]
  · intro c e z hc he
    exact absurd he (h.not_correlating hc e z)
  · rw [htotals]
    rcases h.correlator with hc | hc <;> rcases h.sweeper with hv | hv <;>
      simp [owed, Scene.start, hc, hv, Counts.totals, Correlator.owed, Sweeper.owed, Sweeper.start]
  · rw [htotals]; rfl
  · intro v w hv hw
    exact absurd hw (h.not_sweeping hv w)
  · intro v hv hstopped
    rcases h.sweeper with hn | hn
    · exact absurd (hn.symm.trans hv) (by simp)
    · obtain rfl := Option.some.inj (hn.symm.trans hv)
      rfl

/-! ### When all tasks have stopped -/

/-- Readers that have stopped have no row in hand, and have taken up all messages that they have got. -/
theorem fetched_of_stopped (h : RowBalance x l) (hw : x.pipeline.workers.all (·.isStopped) = true) :
    x.pipeline.inHand = [] ∧ l.rows.Perm l.fetched := by
  have hreaders : ∀ r ∈ x.pipeline.workers, r.phase = .stopped := by
    intro r hr
    have hstopped := List.all_eq_true.1 hw r hr
    unfold Reader.isStopped at hstopped
    split at hstopped
    · assumption
    · exact absurd hstopped (by decide)
  have hunread : x.pipeline.unread = [] :=
    List.flatMap_eq_nil_iff.2 fun r hr => by rw [Reader.remaining, hreaders r hr]
  have hfetched := h.fetched
  rw [hunread, List.append_nil] at hfetched
  exact ⟨List.flatMap_eq_nil_iff.2 fun r hr => by rw [Worker.inHand, hreaders r hr], hfetched⟩

/-- A correlator that has stopped has no envelope in hand. -/
theorem correlated_of_stopped (h : x.pipeline.correlating = false) (l : Ledger) : x.correlated l = l.passed := by
  cases hc : x.pipeline.correlator with
  | none => simp [correlated, hc]
  | some c =>
    have hphase : c.phase = .stopped := by simpa [correlating, hc, Correlator.isStopped] using h
    simp [correlated, hc, Correlator.settled, hphase]

/-- A correlator and a sweeper that have stopped owe nothing. -/
theorem owed_of_stopped (h : RecordBalance x) (hc : x.pipeline.correlating = false) (hv : x.pipeline.sweeping = false) :
    x.pipeline.owed = 0 := by
  have hcorrelator : (x.pipeline.correlator.map (·.owed)).getD 0 = 0 := by
    cases hsome : x.pipeline.correlator with
    | none => rfl
    | some c =>
      have hphase : c.phase = .stopped := by simpa [correlating, hsome, Correlator.isStopped] using hc
      simp [Correlator.owed, hphase]
  have hsweeper : (x.pipeline.sweeper.map (·.owed)).getD 0 = 0 := by
    cases hsome : x.pipeline.sweeper with
    | none => rfl
    | some v =>
      have hsweep := h.stopped v hsome (by simpa [sweeping, hsome] using hv)
      simp [Sweeper.owed, hsweep]
  rw [owed, hcorrelator, hsweeper]

end BalanceAux

open BalanceAux

section

variable {settings : PipelineSettings} {now : Nat} {s : Services} {x : Scene} {l : Log}

/-- Every run with its log is a run of its writer, which has made the attempts of the log. -/
theorem writing_logged (h : Scene.Logged (.start settings now s) x l) :
    ∃ w, x.pipeline.writer = some w ∧ Writer.Scene.Noted (fun _ => False) (fun _ _ => True)
      (.start settings.writer settings.rowChangeTopic now settings.writer.capacity s) (x.view w) l.attempts := by
  open WritingAux in
  induction h with
  | start => exact view_start settings now s
  | @task x l role choice now p t hx hstep ih =>
    obtain ⟨w, hw, hn⟩ := ih
    cases turn_of_step hstep with
    | writer hw' ht =>
      obtain rfl := Option.some.inj (hw.symm.trans hw')
      refine ⟨_, rfl, ?_⟩
      simpa [Log.after, hw] using view_writer hn hw ht
    | worker hr ht => exact ⟨w, hw, view_worker hn trivial hr ht⟩
    | deliver hd hi => exact ⟨w, hw, view_others hn ⟨fun r hr => hr, nofun⟩ trivial rfl rfl rfl rfl⟩
    | close hd hi hs => exact ⟨w, hw, view_others hn ⟨fun r hr => hr, nofun⟩ trivial rfl rfl rfl rfl⟩
    | feeder hr ht => exact ⟨w, hw, view_others hn (undisturbed_updated ht.counted.updated) trivial rfl rfl rfl rfl⟩
    | correlator hc ht =>
      refine ⟨w, hw, view_others hn ?_ trivial rfl rfl rfl rfl⟩
      cases ht with
      | work hp hx => exact undisturbed_updated hx.updated
      | commit hp => exact ⟨fun r hr => by rwa [Services.putCursor_store], nofun⟩
      | _ => exact ⟨fun r hr => hr, nofun⟩
    | sweeper hv ht => exact ⟨w, hw, view_others hn (undisturbed_updated ht.updated) trivial rfl rfl rfl rfl⟩
  | @signal x l hx ih =>
    obtain ⟨w, hw, hn⟩ := ih
    have hview : ({ x with pipeline := x.pipeline.signal } : Scene).view w = x.view w := by
      simp only [Scene.view, intakeSenders_signal]
      rfl
    exact ⟨w, hw, hview ▸ hn⟩
  | outside hx ho hm hu ih =>
    obtain ⟨w, hw, hn⟩ := ih
    exact ⟨w, hw, hn.others (undisturbed_outside ho) trivial⟩

/-- Every run with its log keeps the account of the rows that its writer accepts. -/
theorem booked_logged (h : Scene.Logged (.start settings now s) x l) :
    ∃ w, x.pipeline.writer = some w ∧ Writer.Booked settings.writer (x.view w) l.attempts := by
  obtain ⟨w, hw, hn⟩ := writing_logged h
  exact ⟨w, hw, Writer.booked_noted (Writer.booked_start _ _ _ _ s) hn⟩

/-- On every run the writer is at work as long as anybody can send to it. -/
theorem writing_of_senders (h : Scene.Logged (.start settings now s) x l) (hs : x.pipeline.intakeSenders = true) :
    x.pipeline.writing = true := by
  obtain ⟨w, hw, hbooked⟩ := booked_logged h
  cases hp : w.isStopped with
  | false => simp [writing, hw, hp]
  | true =>
    have hphase : w.phase = .stopped := by simpa [Writer.isStopped] using hp
    exact absurd (hs.symm.trans (hbooked.closing (Or.inr (Or.inr hphase))).1) (by decide)

/-- When the writer has stopped, it has tried to store all rows that it has accepted. -/
theorem attempted_of_stopped (h : Scene.Logged (.start settings now s) x l) (hs : x.pipeline.writing = false) :
    l.attempts.flatMap (·.rows) = Intake.rowsOf x.accepted := by
  obtain ⟨w, hw, hbooked⟩ := booked_logged h
  have hphase : w.phase = .stopped := by simpa [writing, hw, Writer.isStopped] using hs
  have hrows := hbooked.rows
  rwa [hbooked.stopped hphase, (hbooked.closing (Or.inr (Or.inr hphase))).2, Intake.rowsOf_nil, List.append_nil,
    List.append_nil] at hrows

/-- On every run on which upserts do not fail, the counters agree with the log, but for what is under way. -/
theorem balance_logged (hnew : s.metrics.counts = {}) (hu : s.store.failUpserts = false)
    (h : Scene.Logged (.start settings now s) x l) : x.Balance l := by
  induction h with
  | start => exact balance_start settings now hnew
  | task hx hstep ih => exact balance_task ih (Scene.delivering_run hx.run) (writing_of_senders hx) (hx.upserts hu) hstep
  | signal hx ih => exact balance_signal ih
  | outside hx ho hm hu ih => exact balance_outside ih hm

/-- On every run that goes on until all tasks have stopped, with any failures of fetches, inserts, queries and cursors but with
none of upserts: every message with row changes that a reader has got is counted as received, and it is a row counted as flushed
or dropped, or counted as filtered, or cannot be decoded. The decode errors are the messages of both streams that were taken up
and cannot be decoded; flushes and failed flushes are the attempts to insert a batch; the outcomes of markers are the decoded
markers that the correlator is through with. Both the records delivered, with success or without, and the transactions resolved,
by the correlator or the sweeper, are the records that were sent. -/
theorem metrics_balance (hnew : s.metrics.counts = {}) (hu : s.store.failUpserts = false)
    (h : Scene.Logged (.start settings now s) x l) (hstop : x.pipeline.isStopped = true) :
    let c := x.services.metrics.counts
    c.rowChangesReceived = l.fetched.length ∧
    c.rowChangesReceived =
      c.rowsFlushed + c.rowsDropped + c.rowChangesFiltered + l.fetched.countP (·.undecodable .rowChange) ∧
    c.decodeErrors = l.fetched.countP (·.undecodable .rowChange) + l.markers.countP (·.undecodable .marker) ∧
    c.flushes + c.flushFailures = l.attempts.length ∧
    c.markersResolved + c.markersDeferred + c.markersAlreadyProcessed + c.markersSkipped =
      l.passed.countP (·.marker.isSome) ∧
    c.recordsDelivered + c.deliveryFailures = c.markersResolved + c.sweepResolved ∧
    c.markersResolved + c.sweepResolved = x.enqueued.length := by
  intro c
  obtain ⟨hrows, hmarkers, hrecords⟩ := balance_logged hnew hu h
  have hdelivering := Scene.delivering_run h.run
  simp only [isStopped, Bool.and_eq_true, Bool.not_eq_true'] at hstop
  obtain ⟨⟨⟨⟨⟨hdispatching, hwriting⟩, hworkers⟩, -⟩, hcorrelating⟩, hsweeping⟩ := hstop
  -- nothing is under way any more
  obtain ⟨hinHand, hfetched⟩ := fetched_of_stopped hrows hworkers
  have hattempted := congrArg List.length (attempted_of_stopped h hwriting)
  have howed := owed_of_stopped hrecords hcorrelating hsweeping
  have hhandled : x.handled.length = x.enqueued.length := by
    rw [hdelivering.enqueued, hdelivering.emptied hdispatching, List.append_nil]
  -- what the totals say, counter by counter
  have hreceived : c.rowChangesReceived = l.rows.length := hrows.received
  have hfiltered : c.rowChangesFiltered + l.rows.countP (·.undecodable .rowChange) + (Intake.rowsOf x.accepted).length +
      x.pipeline.inHand.length = l.rows.length := hrows.filtered
  have hflushed : c.rowsFlushed + c.rowsDropped = (l.attempts.flatMap (·.rows)).length := hrows.rows
  have hresolved : c.markersResolved + c.sweepResolved + x.pipeline.owed = x.enqueued.length := hrecords.resolved
  have hdelivered : c.recordsDelivered + c.deliveryFailures = x.handled.length := hrecords.delivered
  have houtcomes : c.markersResolved + c.markersDeferred + c.markersAlreadyProcessed + c.markersSkipped =
      (x.correlated l.toLedger).countP (·.marker.isSome) := hmarkers.outcomes
  rw [hinHand, List.length_nil] at hfiltered
  rw [correlated_of_stopped hcorrelating] at houtcomes
  rw [← hfetched.length_eq, ← hfetched.countP_eq]
  exact ⟨hreceived, by omega, hrows.undecodable, hrows.inserts, houtcomes, by omega, by omega⟩

end

namespace Scene

/-- The scene and the log after a step of a task, if it can take one. -/
def afterLogged (p : Scene × Log) (t : Role × Choice × Nat) : Option (Scene × Log) :=
  (p.1.after t).map fun y => (y, p.2.after p.1 y.pipeline t.1)

/-- Steps of tasks one after the other make a run with its log. -/
theorem logged_of_afters {first x y : Scene} {l k : Log} {ts : List (Role × Choice × Nat)} (hx : Logged first x l)
    (h : ts.foldlM afterLogged (x, l) = some (y, k)) : Logged first y k := by
  induction ts generalizing x l with
  | nil =>
    obtain ⟨rfl, rfl⟩ := Prod.mk.inj (Option.some.inj h)
    exact hx
  | cons t ts ih =>
    obtain ⟨p, hp, hy⟩ := Option.bind_eq_some_iff.1 h
    obtain ⟨z, hz, rfl⟩ := Option.map_eq_some_iff.1 hp
    obtain ⟨⟨q, s⟩, hstep, rfl⟩ := Option.map_eq_some_iff.1 hz
    exact ih (hx.task hstep) hy

end Scene

namespace LostBatch

open Scene

/-- Five messages with row changes, of which the second is none and the third is of a table that is left out; two markers, and a
message that is none. The handler fails for the record of the first transaction. -/
def services : Services where
  queue := { topics := [
    ("binlog", [["[\"d\",\"t\",\"insert\",\"g\",1]", "no row change", "[\"d\",\"x\",\"insert\",\"g\",1]",
      "[\"d\",\"t\",\"insert\",\"h\",1]", "[\"d\",\"t\",\"insert\",\"i\",1]"].map Utf8.encode]),
    ("tx_info", [["[\"g\",\"c\",3]", "[\"h\",\"c\",3]", "no marker"].map Utf8.encode])] }
  handler := { rejects := ["g"] }

/-- A batch for every row, and a single lookup for each marker. -/
def settings : PipelineSettings where
  writer := { batchSize := 1 }
  correlator := { maxAttempts := 1 }
  filter := ⟨["*"], ["d.x"], []⟩

/-- The first marker is resolved; the second is deferred, and swept once its row is stored. -/
def resolved : Option (Scene × Log) :=
  (steps 4 (.worker 0) ++ steps 4 .writer ++ steps 4 (.feeder 0) ++ steps 8 .correlator ++ steps 1 .dispatcher ++
    steps 3 (.feeder 0) ++ steps 6 .correlator ++ steps 9 (.worker 0) ++ steps 6 .writer ++ sweeps 8 ++
    steps 1 .dispatcher).foldlM afterLogged (.start settings 0 services, {})

/-- The scene with inserts that fail. -/
def failing (x : Scene) : Scene :=
  { x with services := { x.services with store := { x.services.store with failInserts := true } } }

/-- The last row is dropped, and the message that is no marker is passed over. -/
def dropped (p : Scene × Log) : Option (Scene × Log) :=
  (steps 4 (.worker 0) ++ steps 4 .writer ++ steps 4 (.feeder 0) ++ steps 2 .correlator).foldlM afterLogged
    (failing p.1, p.2)

/-- All tasks are told to stop, and do. -/
def stopped (p : Scene × Log) : Option (Scene × Log) :=
  (steps 1 (.worker 0) ++ steps 1 (.feeder 0) ++ steps 1 .correlator ++ steps 1 .sweeper ++ steps 3 .writer ++
    steps 1 .dispatcher).foldlM afterLogged ({ p.1 with pipeline := p.1.pipeline.signal }, p.2)

/-- The run with its log. -/
def run : Option (Scene × Log) := resolved.bind fun p => (dropped p).bind stopped

/-- What has gone on in the run. -/
theorem outcome : (run.any fun p => decide (p.1.pipeline.isStopped = true ∧ p.2.fetched.length = 5 ∧
    p.2.fetched.countP (·.undecodable .rowChange) = 1 ∧ p.2.markers.countP (·.undecodable .marker) = 1 ∧
    p.2.attempts.map (·.stored) = [true, true, false] ∧ p.2.passed.countP (·.marker.isSome) = 2 ∧
    p.1.enqueued.map (·.gtid) = ["g", "h"])) = true := by
  decide +kernel

/-- The run is one in which nobody outside counts anything or makes upserts fail. -/
theorem logged_run {p : Scene × Log} (h : run = some p) : Logged (.start settings 0 services) p.1 p.2 := by
  obtain ⟨⟨x, l⟩, hx, h⟩ := Option.bind_eq_some_iff.1 h
  obtain ⟨⟨y, k⟩, hy, h⟩ := Option.bind_eq_some_iff.1 h
  have hfailing : Logged (.start settings 0 services) (failing x) l :=
    (logged_of_afters .start hx).outside ⟨rfl, rfl, rfl, .rfl, rfl⟩ rfl
      ((logged_of_afters .start hx).upserts rfl)
  exact logged_of_afters (logged_of_afters hfailing hy).signal h

end LostBatch

/-- A run on which one batch of three is lost, one marker of two is deferred and then swept, one record of two is rejected by the
handler, and one message of each stream cannot be decoded. -/
theorem metrics_balance_lost_batch : ∃ x l,
    Scene.Logged (.start LostBatch.settings 0 LostBatch.services) x l ∧ x.pipeline.isStopped = true ∧
    let c := x.services.metrics.counts
    c.rowChangesReceived = 5 ∧ c.rowsFlushed + c.rowsDropped + c.rowChangesFiltered + 1 = 5 ∧ c.decodeErrors = 2 ∧
    c.flushes + c.flushFailures = 3 ∧
    c.markersResolved + c.markersDeferred + c.markersAlreadyProcessed + c.markersSkipped = 2 ∧
    c.recordsDelivered + c.deliveryFailures = 2 ∧ c.markersResolved + c.sweepResolved = 2 := by
  obtain ⟨⟨x, l⟩, hp, hprop⟩ := (Option.any_eq_true _ _).1 LostBatch.outcome
  obtain ⟨hstop, hrows, hgarbled, hnone, hattempts, hpassed, hsent⟩ := of_decide_eq_true hprop
  have hlogged := LostBatch.logged_run hp
  have hthree : l.attempts.length = 3 := by simpa using congrArg List.length hattempts
  have htwo : x.enqueued.length = 2 := by simpa using congrArg List.length hsent
  obtain ⟨hreceived, hsplit, hdecode, hinserts, houtcomes, hdelivered, hresolved⟩ :=
    metrics_balance rfl rfl hlogged hstop
  refine ⟨x, l, hlogged, hstop, ?_⟩
  intro c
  rw [hrows] at hreceived
  rw [hreceived, hgarbled] at hsplit
  rw [hgarbled, hnone] at hdecode
  rw [hthree] at hinserts
  rw [hpassed] at houtcomes
  rw [hresolved, htwo] at hdelivered
  rw [htwo] at hresolved
  exact ⟨hreceived, hsplit.symm, hdecode, hinserts, houtcomes, hdelivered, hresolved⟩

end Pipeline

end AuditTrail
