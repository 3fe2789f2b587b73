import AuditTrail.Flow.Pipeline
import AuditTrail.Proofs.Correlator
import AuditTrail.Proofs.Reader
import AuditTrail.Proofs.Sweeper
import AuditTrail.Proofs.Writer.Run

/-!
# Runs of a pipeline

A scene is a pipeline with the services it shares, and a record of what has gone on in it. In a move of a scene a task takes a
step, the tasks are told to stop, or somebody outside changes the services: the clock goes on, messages are published, calls are
made to fail or to succeed. Nobody outside touches what is stored, the cursors, or what the handler has been given. Which task comes
next, and at what time of its clock, is left open.

`Turn` lists what a step of a task is: the step of a part of the pipeline on its channels, with everything else unchanged.
-/

namespace AuditTrail

namespace Services

/-- What nobody outside a pipeline touches: stored rows and transactions, cursors, messages once they are published, and what the
handler has been given. -/
structure Outside (s t : Services) : Prop where
  rows : t.store.rows = s.store.rows
  transactions : t.store.transactions = s.store.transactions
  backing : t.cursors.backing = s.cursors.backing
  queue : s.queue.Grows t.queue
  seen : t.handler.seen = s.handler.seen

/-- No call is made to fail. -/
structure Unfailing (s : Services) : Prop where
  inserts : s.store.failInserts = false
  queries : s.store.failQueries = false
  upserts : s.store.failUpserts = false
  gets : s.cursors.failGets = false
  puts : s.cursors.failPuts = false
  fetches : s.queue.failFetches = false

end Services

namespace Pipeline

/-- What a step of a task does to the pipeline and the services. -/
inductive Turn (p : Pipeline) (s : Services) : Role → Pipeline → Services → Prop where
  /-- The dispatcher hands a record over. -/
  | deliver {r : AuditRecord} {rest : List AuditRecord} (hd : p.dispatching = true) (hi : p.delivery.items = r :: rest) :
      Turn p s .dispatcher { p with delivery := { p.delivery with items := rest } } (s.handle r)
  /-- The dispatcher stops, since nobody can send to it any more. -/
  | close (hd : p.dispatching = true) (hi : p.delivery.items = []) (hs : p.deliverySenders = false) :
      Turn p s .dispatcher { p with delivery := p.delivery.close, dispatching := false } s
  /-- The writer takes a step. -/
  | writer {attention : Attention} {now : Nat} {w w' : Writer} {c : Channel Intake} {t : Services}
      (hw : p.writer = some w) (ht : w.step attention now p.intakeSenders p.intake s = some (w', c, t)) :
      Turn p s .writer { p with writer := some w', intake := c } t
  /-- A reader of row changes takes a step. -/
  | worker {i : Nat} {r r' : Worker} {c : Channel Intake} {t : Services} (hr : p.workers[i]? = some r)
      (ht : Reader.Turn (fun s => Message.toIntake p.filter s.clock) r p.intake s r' c t) :
      Turn p s (.worker i) { p with workers := p.workers.set i r', intake := c } t
  /-- A reader of markers takes a step. -/
  | feeder {i : Nat} {r r' : Feeder} {c : Channel Envelope} {t : Services} (hr : p.feeders[i]? = some r)
      (ht : Reader.Turn (fun _ => Message.toEnvelope) r p.markers s r' c t) :
      Turn p s (.feeder i) { p with feeders := p.feeders.set i r', markers := c } t
  /-- The correlator takes a step. -/
  | correlator {c c' : Correlator} {m : Channel Envelope} {d : Channel AuditRecord} {t : Services}
      (hc : p.correlator = some c) (ht : Correlator.Turn p.markerSenders c p.markers p.delivery s c' m d t) :
      Turn p s .correlator { p with correlator := some c', markers := m, delivery := d } t
  /-- The sweeper takes a step. -/
  | sweeper {x x' : Sweeper} {d : Channel AuditRecord} {t : Services} (hx : p.sweeper = some x)
      (ht : Sweeper.Turn x p.delivery s x' d t) :
      Turn p s .sweeper { p with sweeper := some x', delivery := d } t

/-- Every step of the dispatcher is in the list. -/
theorem turn_of_dispatch {p p' : Pipeline} {s s' : Services} (h : p.dispatch s = some (p', s')) :
    Turn p s .dispatcher p' s' := by
  unfold dispatch at h
  split at h
  · exact absurd h (by simp)
  · rename_i hd
    replace hd : p.dispatching = true := by simpa using hd
    split at h
    · rename_i r d ht
      obtain ⟨rest, hi, rfl⟩ := Channel.take?_eq_some ht
      simp only [Option.some.injEq, Prod.mk.injEq] at h
      obtain ⟨rfl, rfl⟩ := h
      exact Turn.deliver hd hi
    · rename_i ht
      split at h
      · exact absurd h (by simp)
      · rename_i hs
        simp only [Option.some.injEq, Prod.mk.injEq] at h
        obtain ⟨rfl, rfl⟩ := h
        exact Turn.close hd (Channel.take?_eq_none ht) (by simpa using hs)

/-- A step of the sweeper of a pipeline is a step of the sweeper. -/
theorem sweeper_of_step {p p' : Pipeline} {choice : Choice} {now : Nat} {s s' : Services}
    (h : p.step .sweeper choice now s = some (p', s')) : ∃ x x' d, p.sweeper = some x ∧
      x.step choice.heed now p.delivery s = some (x', d, s') ∧ p' = { p with sweeper := some x', delivery := d } := by
  obtain ⟨x, hx, h⟩ := Option.bind_eq_some_iff.1 h
  obtain ⟨⟨x', d, t⟩, ht, h⟩ := Option.bind_eq_some_iff.1 h
  obtain ⟨rfl, rfl⟩ := Prod.mk.inj (Option.some.inj h)
  exact ⟨x, x', d, hx, ht, rfl⟩

/-- Every step of a task is in the list. -/
theorem turn_of_step {p p' : Pipeline} {role : Role} {choice : Choice} {now : Nat} {s s' : Services}
    (h : p.step role choice now s = some (p', s')) : Turn p s role p' s' := by
  cases role with
  | dispatcher => exact turn_of_dispatch h
  | writer =>
    obtain ⟨w, hw, h⟩ := Option.bind_eq_some_iff.1 h
    obtain ⟨⟨w', c, t⟩, ht, h⟩ := Option.bind_eq_some_iff.1 h
    obtain ⟨rfl, rfl⟩ := Prod.mk.inj (Option.some.inj h)
    exact Turn.writer hw ht
  | worker i =>
    obtain ⟨r, hr, h⟩ := Option.bind_eq_some_iff.1 h
    obtain ⟨⟨r', c, t⟩, ht, h⟩ := Option.bind_eq_some_iff.1 h
    obtain ⟨rfl, rfl⟩ := Prod.mk.inj (Option.some.inj h)
    exact Turn.worker hr (Reader.turn_of_step ht)
  | feeder i =>
    obtain ⟨r, hr, h⟩ := Option.bind_eq_some_iff.1 h
    obtain ⟨⟨r', c, t⟩, ht, h⟩ := Option.bind_eq_some_iff.1 h
    obtain ⟨rfl, rfl⟩ := Prod.mk.inj (Option.some.inj h)
    exact Turn.feeder hr (Reader.turn_of_step ht)
  | correlator =>
    obtain ⟨c, hc, h⟩ := Option.bind_eq_some_iff.1 h
    obtain ⟨⟨c', m, d, t⟩, ht, h⟩ := Option.bind_eq_some_iff.1 h
    obtain ⟨rfl, rfl⟩ := Prod.mk.inj (Option.some.inj h)
    exact Turn.correlator hc (Correlator.turn_of_step ht)
  | sweeper =>
    obtain ⟨x, x', d, hx, ht, rfl⟩ := sweeper_of_step h
    exact Turn.sweeper hx (Sweeper.turn_of_step ht)

/-- No task changes which calls fail. -/
theorem Turn.sameFaults {p q : Pipeline} {role : Role} {s t : Services} (h : Turn p s role q t) : s.SameFaults t := by
  cases h with
  | deliver hd hi => exact ⟨rfl, rfl, rfl, rfl, rfl, rfl⟩
  | close hd hi hs => exact (Services.counted_self s).sameFaults
  | writer hw ht => exact (Writer.turn_of_step ht).sameFaults
  | worker hr ht => exact ht.counted.sameFaults
  | feeder hr ht => exact ht.counted.sameFaults
  | correlator hc ht =>
    cases ht with
    | work hp hx => exact hx.updated.sameFaults
    | commit hp => exact Services.sameFaults_putCursor s _ _ _
    | _ => exact (Services.counted_self s).sameFaults
  | sweeper hx ht => exact ht.updated.sameFaults

/-- No task touches the queue. -/
theorem Turn.queue {p q : Pipeline} {role : Role} {s t : Services} (h : Turn p s role q t) : t.queue = s.queue := by
  cases h with
  | deliver hd hi => rw [Services.handle_queue]
  | close hd hi hs => rfl
  | writer hw ht => exact (Writer.turn_of_step ht).queue
  | worker hr ht => exact ht.counted.queue
  | feeder hr ht => exact ht.counted.queue
  | correlator hc ht =>
    cases ht with
    | work hp hx => exact hx.updated.queue
    | commit hp => rw [Services.putCursor_queue]
    | _ => rfl
  | sweeper hx ht => exact ht.updated.queue

/-- How a pipeline is right after its start, whether all its topics could be opened or not. -/
structure Started (settings : PipelineSettings) (now : Nat) (s : Services) (p : Pipeline) : Prop where
  filter : p.filter = .ofConfig settings.filter
  intake : p.intake = .ofCapacity settings.writer.capacity
  markers : p.markers = .ofCapacity settings.correlator.capacity
  delivery : p.delivery = .ofCapacity settings.deliveryCapacity
  handles : p.intakeHandle = false ∧ p.markerHandle = false ∧ p.deliveryHandle = false
  dispatching : p.dispatching = true
  writer : p.writer = some (.start settings.writer settings.rowChangeTopic now)
  workers : p.workers = [] ∨ ∃ (ws : List Worker) (told : Worker → Worker),
    Reader.openAll settings.feed s settings.rowChangeTopic = .ok ws ∧ p.workers = ws.map told ∧
      ∀ r, (told r).feed = r.feed ∧ (told r).phase = r.phase
  feeders : p.feeders = [] ∨ Reader.openAll settings.feed s settings.markerTopic = .ok p.feeders
  correlator : p.correlator = none ∨
    p.correlator = some { settings := settings.correlator, topic := settings.markerTopic }
  sweeper : p.sweeper = none ∨ p.sweeper = some (.start settings.sweeper now)

/-- A pipeline that is put together is as it should be. -/
theorem started_assemble (settings : PipelineSettings) (now : Nat) (s : Services) :
    Started settings now s (assemble settings now s).1 := by
  unfold assemble
  split
  · exact ⟨rfl, rfl, rfl, rfl, ⟨rfl, rfl, rfl⟩, rfl, rfl, Or.inl rfl, Or.inl rfl, Or.inl rfl, Or.inl rfl⟩
  · rename_i ws hws
    split
    · exact ⟨rfl, rfl, rfl, rfl, ⟨rfl, rfl, rfl⟩, rfl, rfl, Or.inr ⟨ws, _, hws, rfl, fun _ => ⟨rfl, rfl⟩⟩, Or.inl rfl,
        Or.inl rfl, Or.inl rfl⟩
    · rename_i fs hfs
      exact ⟨rfl, rfl, rfl, rfl, ⟨rfl, rfl, rfl⟩, rfl, rfl,
        Or.inr ⟨ws, id, hws, (List.map_id ws).symm, fun _ => ⟨rfl, rfl⟩⟩, Or.inr hfs, Or.inr rfl,
        Sweeper.launch?_eq_none_or settings.sweeper now⟩

/-- The pipeline that a start leaves, if any: at work, or told to stop. -/
def Start.pipeline? : Start → Option Pipeline
  | .running p => some p
  | .failed p _ => some p
  | .panicked => none

/-- A start that does not panic leaves the pipeline that has been put together. -/
theorem pipeline?_start {settings : PipelineSettings} {s : Services} (h : panics settings s = false) (now : Nat) :
    (start settings now s).pipeline? = some (assemble settings now s).1 := by
  unfold start
  rw [h]
  rcases assemble settings now s with ⟨p, _ | e⟩ <;> rfl

/-- The correlator of a pipeline that starts has no marker yet. -/
theorem Started.not_correlating {settings : PipelineSettings} {now : Nat} {s : Services} {p : Pipeline}
    (h : Started settings now s p) {c : Correlator} (hc : p.correlator = some c) (e : Envelope) (y : Correlation) :
    c.phase ≠ .correlating e y := by
  rcases h.correlator with hn | hn
  · exact absurd (hn.symm.trans hc) (by simp)
  · obtain rfl := Option.some.inj (hn.symm.trans hc)
    simp

/-- The sweeper of a pipeline that starts has no sweep under way. -/
theorem Started.not_sweeping {settings : PipelineSettings} {now : Nat} {s : Services} {p : Pipeline}
    (h : Started settings now s p) {v : Sweeper} (hv : p.sweeper = some v) (w : Sweep) : v.sweep ≠ some w := by
  rcases h.sweeper with hn | hn
  · exact absurd (hn.symm.trans hv) (by simp)
  · obtain rfl := Option.some.inj (hn.symm.trans hv)
    simp [Sweeper.start]

/-- The batch that the next step of a task stores. -/
def stores (p : Pipeline) (s : Services) : Role → List (List StoredChange)
  | .writer => (p.writer.map (·.stores s)).getD []
  | _ => []

/-- The cursor of the row-change topic that the next step of a task writes. -/
def writes (p : Pipeline) (s : Services) : Role → List (Int × Int)
  | .writer => (p.writer.map (·.writes s)).getD []
  | _ => []

/-- The record that the next step of a task hands to the handler. -/
def hands (p : Pipeline) : Role → List AuditRecord
  | .dispatcher => if p.dispatching then p.delivery.items.take 1 else []
  | _ => []

/-- No task but the dispatcher hands anything to the handler, and that only the record in front of its channel. -/
theorem Turn.seen {p q : Pipeline} {role : Role} {s t : Services} (h : Turn p s role q t) :
    t.handler.seen = s.handler.seen ++ p.hands role := by
  cases h with
  | deliver hd hi => simp [hands, hd, hi]
  | close hd hi hs => simp [hands, hi]
  | writer hw ht => simp [hands, (Writer.turn_of_step ht).handler]
  | worker hr ht => simp [hands, ht.counted.handler]
  | feeder hr ht => simp [hands, ht.counted.handler]
  | correlator hc ht =>
    cases ht with
    | work hp hx => simp [hands, hx.updated.handler]
    | commit hp => simp [hands]
    | _ => simp [hands]
  | sweeper hx ht => simp [hands, ht.updated.handler]

/-- A pipeline at work, with what it has done so far. -/
structure Scene where
  pipeline : Pipeline
  services : Services
  /-- The items put into the channel of the writer, the first in front. -/
  accepted : List Intake := []
  /-- The batches whose insert succeeded. -/
  batches : List (List StoredChange) := []
  /-- The cursors of the row-change topic that the writer has written, each with its partition. -/
  written : List (Int × Int) := []
  /-- The records put into the delivery channel. -/
  enqueued : List AuditRecord := []
  /-- The records passed to the handler. -/
  handled : List AuditRecord := []

namespace Scene

/-- A pipeline that has been put together now (see `pipeline?_start`). -/
def start (settings : PipelineSettings) (now : Nat) (s : Services) : Scene where
  pipeline := (assemble settings now s).1
  services := s

/-- The scene after a step of a task. -/
def advance (x : Scene) (role : Role) (p : Pipeline) (s : Services) : Scene where
  pipeline := p
  services := s
  accepted := x.accepted ++ x.pipeline.intake.entered p.intake
  batches := x.batches ++ x.pipeline.stores x.services role
  written := x.written ++ x.pipeline.writes x.services role
  enqueued := x.enqueued ++ x.pipeline.delivery.entered p.delivery
  handled := x.handled ++ x.pipeline.hands role

/-- One move of a scene. What comes from outside leaves calls to fail only as far as `ok` says. -/
inductive Move (ok : Services → Prop) (x : Scene) : Scene → Prop where
  /-- A task takes a step. -/
  | task {role : Role} {choice : Choice} {now : Nat} {p : Pipeline} {s : Services}
      (h : x.pipeline.step role choice now x.services = some (p, s)) : Move ok x (x.advance role p s)
  /-- All tasks are told to stop. -/
  | signal : Move ok x { x with pipeline := x.pipeline.signal }
  /-- Somebody outside changes the services. -/
  | outside {t : Services} (h : x.services.Outside t) (hok : ok t) : Move ok x { x with services := t }

/-- Any number of moves of a scene. -/
def Run (ok : Services → Prop) : Scene → Scene → Prop := Relation.ReflTransGen (Move ok)

/-- What depends only on which calls fail, and holds of all that comes from outside, goes on to hold. -/
theorem Move.of_faults {ok P : Services → Prop} {x y : Scene} (hm : Move ok x y) (hok : ∀ t, ok t → P t)
    (hP : ∀ {s t}, s.SameFaults t → P s → P t) (hx : P x.services) : P y.services := by
  cases hm with
  | task h => exact hP (turn_of_step h).sameFaults hx
  | signal => exact hx
  | outside ho ht => exact hok _ ht

/-- What depends only on which calls fail, and holds at the start and of all that comes from outside, holds on every run. -/
theorem Run.of_faults {ok P : Services → Prop} {x y : Scene} (hr : Run ok x y) (hok : ∀ t, ok t → P t)
    (hP : ∀ {s t}, s.SameFaults t → P s → P t) (hx : P x.services) : P y.services := by
  induction hr with
  | refl => exact hx
  | tail hr hm ih => exact hm.of_faults hok hP ih

/-- As long as nobody outside makes calls fail, none does. -/
theorem Run.unfailing {x y : Scene} (hr : Run Services.Unfailing x y) (hx : x.services.Unfailing) :
    y.services.Unfailing := by
  refine hr.of_faults (fun _ => id) ?_ hx
  intro s t hf hs
  exact ⟨hf.inserts.trans hs.inserts, hf.queries.trans hs.queries, hf.upserts.trans hs.upserts, hf.gets.trans hs.gets,
    hf.puts.trans hs.puts, hf.fetches.trans hs.fetches⟩

/-- The queue only grows in a move. -/
theorem Move.grows {ok : Services → Prop} {x y : Scene} (hm : Move ok x y) : x.services.queue.Grows y.services.queue := by
  cases hm with
  | task h => exact Queue.grows_of_eq (turn_of_step h).queue
  | signal => exact .rfl
  | outside ho hok => exact ho.queue

/-- The records of a move that the scene lists as handed over are those that the handler has been given in it. -/
theorem Move.seen {ok : Services → Prop} {x y : Scene} (hm : Move ok x y) :
    ∃ rs, y.handled = x.handled ++ rs ∧ y.services.handler.seen = x.services.handler.seen ++ rs := by
  cases hm with
  | task h => exact ⟨_, rfl, (turn_of_step h).seen⟩
  | signal => exact ⟨[], (List.append_nil _).symm, (List.append_nil _).symm⟩
  | outside ho hok => exact ⟨[], (List.append_nil _).symm, ho.seen.trans (List.append_nil _).symm⟩

/-- The records that the scene lists as handed over on a run are those that the handler has been given on it. -/
theorem Run.seen {ok : Services → Prop} {x y : Scene} (hr : Run ok x y) :
    ∃ rs, y.handled = x.handled ++ rs ∧ y.services.handler.seen = x.services.handler.seen ++ rs := by
  induction hr with
  | refl => exact ⟨[], (List.append_nil _).symm, (List.append_nil _).symm⟩
  | tail hr hm ih =>
    obtain ⟨before, hhandled, hseen⟩ := ih
    obtain ⟨rs, hhandled', hseen'⟩ := hm.seen
    refine ⟨before ++ rs, ?_, ?_⟩
    · rw [hhandled', hhandled, List.append_assoc]
    · rw [hseen', hseen, List.append_assoc]

/-- What the handler has been given on a run from the start is what the scene lists as handed over. -/
theorem seen_run {ok : Services → Prop} {settings : PipelineSettings} {now : Nat} {s : Services} {x : Scene}
    (hr : Run ok (.start settings now s) x) : x.services.handler.seen = s.handler.seen ++ x.handled := by
  obtain ⟨rs, hhandled, hseen⟩ := hr.seen
  obtain rfl : x.handled = rs := hhandled
  exact hseen

/-- The scene after a step of a task, if it can take one. -/
def after (x : Scene) (t : Role × Choice × Nat) : Option Scene :=
  (x.pipeline.step t.1 t.2.1 t.2.2 x.services).map fun y => x.advance t.1 y.1 y.2

/-- So many steps of a task, which heeds what it is told and takes in what there is. -/
def steps (n : Nat) (role : Role) : List (Role × Choice × Nat) := List.replicate n (role, ⟨true, .intake⟩, 0)

/-- So many steps of the sweeper at the time of its first tick. -/
def sweeps (n : Nat) : List (Role × Choice × Nat) := List.replicate n (.sweeper, ⟨true, .intake⟩, 10000)

/-- Steps of tasks one after the other make a run. -/
theorem run_of_afters {ok : Services → Prop} {x y : Scene} {ts : List (Role × Choice × Nat)}
    (h : ts.foldlM after x = some y) : Run ok x y := by
  induction ts generalizing x with
  | nil =>
    obtain rfl := Option.some.inj h
    exact .refl
  | cons t ts ih =>
    obtain ⟨z, hz, hy⟩ := Option.bind_eq_some_iff.1 h
    obtain ⟨⟨p, s⟩, hstep, rfl⟩ := Option.map_eq_some_iff.1 hz
    exact .head (.task hstep) (ih hy)

end Scene

end Pipeline

end AuditTrail
