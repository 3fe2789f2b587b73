import AuditTrail.Proofs.Pipeline.MarkerCursors
import AuditTrail.Proofs.Pipeline.Settled

/-!
# A clean shutdown loses nothing and repeats nothing

A pipeline that is told to stop does so in an order: the readers, the correlator and the sweeper first, and the writer and the
dispatcher when nobody can send to them any more. When all have stopped, the writer has stored what it had taken in and has written
its cursors, the correlator has no envelope in hand, and the dispatcher has given all records to the handler. Each cursor is then at
the place up to which its partition is done with. The next run goes on from there, so that over any number of runs every message
before a cursor has been done with once, and no other (`Through`).
-/

namespace AuditTrail

namespace Pipeline

open Scene

/-- What has come of a partition is what the messages before its cursor yield, each once and in their order, and nothing else. -/
def Through {β : Type} (f : Message → Option β) (s : Services) (topic : String) (p : Int) (done : List β) : Prop :=
  ∃ n : Nat, (s.cursors.stored topic p).getD 0 = n ∧ n ≤ s.queue.size topic p ∧
    done = (s.queue.stretch topic p 0 n).filterMap f

/-- Runs on the services one after the other, which read the partitions from the beginning where there is no cursor. No call fails
in them, and each goes on until all tasks have stopped. With the runs go the envelopes that the correlators were through with in the
course of them, and what the last one has left. -/
inductive Restarts (filter : Filter) (topic markerTopic : String) (first : Services) :
    List Scene → List Envelope → Services → Prop where
  | first : Restarts filter topic markerTopic first [] [] first
  | after {xs : List Scene} {es : List Envelope} {s : Services} {settings : PipelineSettings} {now : Nat} {x : Scene}
      {l : Ledger} (h : Restarts filter topic markerTopic first xs es s) (hs : Ingests filter topic settings)
      (hm : settings.markerTopic = markerTopic) (hx : Noted Services.Unfailing (.start settings now s) x l)
      (hstop : x.pipeline.isStopped = true) : Restarts filter topic markerTopic first (xs ++ [x]) (es ++ l.passed) x.services

namespace ShutdownAux

variable {filter : Filter} {topic markerTopic : String} {settings : PipelineSettings} {now : Nat} {s t : Services}
  {x : Scene} {l : Ledger} {p : Int} {β : Type} {f : Message → Option β} {done more : List β}

/-- A run that does with the messages of a partition from its cursor up to one place, and leaves the cursor there, has then done with
all messages before the cursor. -/
theorem through_run {feed : FeedSettings} {b : Nat} (h : Through f s topic p done) (hq : s.queue.Grows t.queue)
    (he : feed.start = .earliest) (hle : (outset feed s topic p).toNat ≤ b)
    (hwithin : (outset feed s topic p).toNat < b → b ≤ t.queue.size topic p)
    (hmore : more = (t.queue.stretch topic p (outset feed s topic p).toNat b).filterMap f)
    (hcursor : t.cursors.stored topic p =
      if (outset feed s topic p).toNat < b then some (b : Int) else s.cursors.stored topic p) :
    Through f t topic p (done ++ more) := by
  obtain ⟨n, hn, hsize, rfl⟩ := h
  have houtset : (outset feed s topic p).toNat = n := by
    rw [outset, he]
    exact (congrArg Int.toNat hn).trans (Int.toNat_natCast n)
  have hgrown : n ≤ t.queue.size topic p := Nat.le_trans hsize (hq.size topic p)
  rw [houtset] at hle hwithin hmore hcursor
  refine ⟨b, ?_, ?_, ?_⟩
  · rw [hcursor]
    split
    · rfl
    · omega
  · omega
  · rw [hmore, ← hq.stretch hsize, ← List.filterMap_append, Queue.stretch_append (Nat.zero_le n) hle]

/-- The tasks of a pipeline that has stopped have stopped. -/
theorem stopped_of_isStopped {q : Pipeline} (h : q.isStopped = true) :
    q.dispatching = false ∧ q.writing = false ∧ q.correlating = false := by
  simp only [isStopped, Bool.and_eq_true, Bool.not_eq_true'] at h
  exact ⟨h.1.1.1.1.1, h.1.1.1.1.2, h.1.2⟩

/-- A correlator that has stopped has no envelope in hand. -/
theorem inHand_of_stopped {q : Pipeline} (h : q.correlating = false) {c : Correlator} (hc : q.correlator = some c) :
    c.inHand = [] := by
  have hphase : c.phase = .stopped := by simpa [correlating, hc, Correlator.isStopped] using h
  rw [Correlator.inHand, hphase]

/-- A run that goes on until all tasks have stopped has done with the row changes before the cursors that it leaves. -/
theorem rows_through (hs : Ingests filter topic settings) (hu : s.Unfailing)
    (hr : Run Services.Unfailing (.start settings now s) x) (hstop : x.pipeline.isStopped = true) (hp : 0 ≤ p)
    (h : Through (Message.row? filter) s topic p
      ((s.store.rows.filter (·.partition == p)).map StoredChange.unstamped)) :
    Through (Message.row? filter) x.services topic p
      ((x.services.store.rows.filter (·.partition == p)).map StoredChange.unstamped) := by
  have hset := SettledAux.settled_of_stopped hs.takes hu hr (stopped_of_isStopped hstop).2.1
  obtain ⟨b, hleft⟩ := exists_left hs.takes hu hr hset p
  rw [hleft.rows]
  exact through_run h (IngestionAux.grows_run hr) hs.earliest hleft.le hleft.within rfl (hleft.cursor hp)

/-- A run has done with the markers before the cursors that it leaves. -/
theorem markers_through (hs : Ingests filter topic settings) (hu : s.Unfailing)
    (hx : Noted Services.Unfailing (.start settings now s) x l) (hp : 0 ≤ p) {es : List Envelope}
    (h : Through (fun m => some m.toEnvelope.1) s settings.markerTopic p (es.filter (·.partition == p))) :
    Through (fun m => some m.toEnvelope.1) x.services settings.markerTopic p
      ((es ++ l.passed).filter (·.partition == p)) := by
  obtain ⟨b, hle, hwithin, hpassed, hcursor⟩ :=
    exists_passed (fun e => hs.other (e.symm.trans hs.ofTopic)) hp (fun _ ht => ht.puts) hu.puts hx
  rw [List.filter_append]
  refine through_run h (IngestionAux.grows_run hx.run) hs.earliest hle hwithin ?_ hcursor
  rw [hpassed, List.filterMap_eq_map']
  rfl

/-- A run that goes on until all tasks have stopped hands over all records that are enqueued in it. -/
theorem handled_of_stopped {ok : Services → Prop} (hr : Run ok (.start settings now s) x)
    (hdispatching : x.pipeline.dispatching = false) : x.handled = x.enqueued := by
  have hdelivering := delivering_run hr
  rw [hdelivering.enqueued, hdelivering.emptied hdispatching, List.append_nil]

/-- Any number of runs leave the services unfailing. -/
theorem unfailing_of_restarts {first : Services} {xs : List Scene} {es : List Envelope} (hu : first.Unfailing)
    (h : Restarts filter topic markerTopic first xs es s) : s.Unfailing := by
  induction h with
  | first => exact hu
  | after h hs hm hx hstop ih => exact hx.run.unfailing ih

end ShutdownAux

open ShutdownAux

/-- After any number of runs from an empty store and without cursors, on which no call fails and each of which has gone on until all
tasks had stopped, with messages published at any time: of every partition of row changes the store holds the rows of the messages
before its cursor, one for each that decodes and passes the filter, and no other; of every partition of markers the correlators
have been through with the messages before its cursor, each once, and with no other; the handler has been given the records that were
enqueued, run by run, each once and in the order in which they were enqueued, and no other, whatever it made of them; and in each run
all records that were enqueued were handed over, and the correlator was left with nothing in hand. -/
theorem stopped_exactly_once (filter : Filter) {topic markerTopic : String} {first s : Services} {xs : List Scene}
    {es : List Envelope} (hrows : first.store.rows = []) (hcur : ∀ p, first.cursors.stored topic p = none)
    (hmark : ∀ p, first.cursors.stored markerTopic p = none) (hu : first.Unfailing)
    (h : Restarts filter topic markerTopic first xs es s) :
    (∀ p, 0 ≤ p → Through (Message.row? filter) s topic p
      ((s.store.rows.filter (·.partition == p)).map StoredChange.unstamped)) ∧
    (∀ p, 0 ≤ p → Through (fun m => some m.toEnvelope.1) s markerTopic p (es.filter (·.partition == p))) ∧
    s.handler.seen = first.handler.seen ++ (xs.map (·.enqueued)).flatten ∧
    ∀ x ∈ xs, x.handled = x.enqueued ∧ ∀ c, x.pipeline.correlator = some c → c.inHand = [] := by
  induction h with
  | first =>
    refine ⟨?_, ?_, (List.append_nil _).symm, by simp⟩
    · exact fun p _ => ⟨0, by rw [hcur]; rfl, Nat.zero_le _, by rw [hrows]; rfl⟩
    · exact fun p _ => ⟨0, by rw [hmark]; rfl, Nat.zero_le _, rfl⟩
  | after h hs hm hx hstop ih =>
    subst hm
    obtain ⟨hchanges, hmarkers, hseen, hruns⟩ := ih
    have hunfailing := unfailing_of_restarts hu h
    obtain ⟨hdispatching, -, hcorrelating⟩ := stopped_of_isStopped hstop
    have hhandled := handled_of_stopped hx.run hdispatching
    refine ⟨?_, ?_, ?_, ?_⟩
    · exact fun p hp => rows_through hs hunfailing hx.run hstop hp (hchanges p hp)
    · exact fun p hp => markers_through hs hunfailing hx hp (hmarkers p hp)
    · rw [seen_run hx.run, hseen, hhandled, List.map_append, List.map_singleton, List.flatten_append, List.flatten_singleton,
        List.append_assoc]
    · intro y hy
      rcases List.mem_append.1 hy with hy | hy
      · exact hruns y hy
      · obtain rfl := List.mem_singleton.1 hy
        exact ⟨hhandled, fun c hc => inHand_of_stopped hcorrelating hc⟩

namespace StoppedTwice

/-- A row change, a message that is none, and the marker of the transaction. The handler fails for its record. -/
def services : Services where
  queue := { topics := [
    ("binlog", [[Utf8.encode "[\"d\",\"t\",\"insert\",\"g\",1]", Utf8.encode "no row change"]]),
    ("tx_info", [[Utf8.encode "[\"g\",\"c\",3]"]])] }
  handler := { rejects := ["g"] }

/-- One message at a time, and a single lookup for each marker. -/
def settings : PipelineSettings := { feed := { maxMessages := 1 }, correlator := { maxAttempts := 1 } }

/-- The scene with all tasks told to stop. -/
def told (x : Scene) : Scene := { x with pipeline := x.pipeline.signal }

/-- The first message of each topic is read; the correlator has found no row for the marker when the tasks are told to stop. -/
def begun : Option Scene :=
  (steps 4 (.worker 0) ++ steps 4 (.feeder 0) ++ steps 3 .correlator).foldlM after (.start settings 0 services)

/-- The first run to its end: the transaction is deferred, and the row is stored. -/
def stopped : Option Scene :=
  begun.bind fun x => (steps 4 .correlator ++ steps 2 (.worker 0) ++ steps 5 .writer ++ steps 2 (.feeder 0) ++
    steps 1 .sweeper ++ steps 1 .dispatcher).foldlM after (told x)

/-- The second message is read, and the transaction is swept. -/
def resumed (x : Scene) : Option Scene :=
  (steps 4 (.worker 0) ++ sweeps 8).foldlM after (.start settings 0 x.services)

/-- The second run to its end: the record is handed over. -/
def ended (x : Scene) : Option Scene :=
  (resumed x).bind fun y => (steps 2 (.worker 0) ++ steps 5 .writer ++ steps 1 (.feeder 0) ++ steps 1 .correlator ++
    steps 1 .sweeper ++ steps 2 .dispatcher).foldlM after (told y)

/-- What comes of the two runs. -/
theorem outcome : (stopped.any fun x => (ended x).any fun y =>
    decide (x.pipeline.isStopped = true ∧ y.pipeline.isStopped = true ∧ x.enqueued = [] ∧
      y.enqueued.map (·.gtid) = ["g"] ∧ y.services.cursors.stored "binlog" 0 = some 2 ∧
      y.services.cursors.stored "tx_info" 0 = some 1)) = true := by
  decide +kernel

/-- The settings are as they should be. -/
theorem ingests : Ingests (.ofConfig .default) "binlog" settings := ⟨rfl, rfl, by decide, rfl⟩

/-- The first run is one. -/
theorem run_stopped {x : Scene} (h : stopped = some x) : Run Services.Unfailing (.start settings 0 services) x := by
  obtain ⟨y, hy, hx⟩ := Option.bind_eq_some_iff.1 h
  have hsignal : Run Services.Unfailing (.start settings 0 services) (told y) := (run_of_afters hy).tail .signal
  exact hsignal.trans (run_of_afters hx)

/-- The second run is one. -/
theorem run_ended {x y : Scene} (h : ended x = some y) : Run Services.Unfailing (.start settings 0 x.services) y := by
  obtain ⟨z, hz, hy⟩ := Option.bind_eq_some_iff.1 h
  have hsignal : Run Services.Unfailing (.start settings 0 x.services) (told z) := (run_of_afters hz).tail .signal
  exact hsignal.trans (run_of_afters hy)

end StoppedTwice

/-- Two runs, of which the first is told to stop while the correlator has a marker in hand that it then defers. In the second one the
record of the transaction is given to a handler that fails for it. -/
theorem stopped_exactly_once_twice : ∃ x y es,
    Restarts (.ofConfig .default) "binlog" "tx_info" StoppedTwice.services [x, y] es y.services ∧
    y.services.cursors.stored "binlog" 0 = some 2 ∧
    Through (Message.row? (.ofConfig .default)) y.services "binlog" 0
      ((y.services.store.rows.filter (·.partition == 0)).map StoredChange.unstamped) ∧
    Through (fun m => some m.toEnvelope.1) y.services "tx_info" 0 (es.filter (·.partition == 0)) ∧
    y.services.handler.seen.map (·.gtid) = ["g"] ∧ x.handled = [] ∧ y.handled.map (·.gtid) = ["g"] := by
  obtain ⟨x, hx, hprop⟩ := (Option.any_eq_true _ _).1 StoppedTwice.outcome
  obtain ⟨y, hy, hprop⟩ := (Option.any_eq_true _ _).1 hprop
  obtain ⟨hstopx, hstopy, hsentx, hsenty, hcursor, -⟩ := of_decide_eq_true hprop
  obtain ⟨l, hl⟩ := exists_noted (StoppedTwice.run_stopped hx)
  obtain ⟨l', hl'⟩ := exists_noted (StoppedTwice.run_ended hy)
  have hruns : Restarts (.ofConfig .default) "binlog" "tx_info" StoppedTwice.services [x, y] ([] ++ l.passed ++ l'.passed)
      y.services :=
    .after (.after .first StoppedTwice.ingests rfl hl hstopx) StoppedTwice.ingests rfl hl' hstopy
  obtain ⟨hrows, hmarkers, hseen, hhandled⟩ := stopped_exactly_once (.ofConfig .default) rfl (fun _ => rfl) (fun _ => rfl)
    ⟨rfl, rfl, rfl, rfl, rfl, rfl⟩ hruns
  refine ⟨x, y, _, hruns, hcursor, hrows 0 (Int.le_refl 0), hmarkers 0 (Int.le_refl 0), ?_, ?_, ?_⟩
  · rw [hseen]
    simpa [StoppedTwice.services, hsentx] using hsenty
  · rw [(hhandled x (by simp)).1, hsentx]
  · rw [(hhandled y (by simp)).1, hsenty]

end Pipeline

end AuditTrail
