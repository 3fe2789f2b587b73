import AuditTrail.Proofs.Correlator
import AuditTrail.Proofs.Reader
import AuditTrail.Proofs.Sweeper
import AuditTrail.Proofs.Writer.Accounting

/-!
# What a step counts

`Totals` sum up what the counters say of messages, batches, markers and records, and leave out what they say of calls that
fail on the way. For each task there is one statement of what a step adds to the totals: for each message that a reader takes up,
for each batch that the writer tries to store, for each marker whose correlation ends and for each sweep that ends. With it goes
what the step does to the things that are counted later, such as a record that has been sent and whose transaction is not
written yet (`Correlation.owed`, `Sweep.owed`).
-/

namespace AuditTrail

/-- What counters say of messages, batches, markers and records. -/
structure Totals where
  received : Nat
  filtered : Nat
  undecodable : Nat
  /-- The rows flushed and dropped. -/
  rows : Nat
  /-- The flushes, with success or without. -/
  inserts : Nat
  /-- The outcomes of markers, of whatever kind. -/
  outcomes : Nat
  /-- The transactions resolved, by the correlator or the sweeper. -/
  resolved : Nat
  /-- The records handed over, with success or without. -/
  delivered : Nat

/-- The totals of some counters. -/
def Counts.totals (c : Counts) : Totals where
  received := c.rowChangesReceived
  filtered := c.rowChangesFiltered
  undecodable := c.decodeErrors
  rows := c.rowsFlushed + c.rowsDropped
  inserts := c.flushes + c.flushFailures
  outcomes := c.markersResolved + c.markersDeferred + c.markersAlreadyProcessed + c.markersSkipped
  resolved := c.markersResolved + c.sweepResolved
  delivered := c.recordsDelivered + c.deliveryFailures

/-- The totals after an update. -/
def Totals.record (t : Totals) : Update → Totals
  | .rowChange => { t with received := t.received + 1 }
  | .filtered => { t with filtered := t.filtered + 1 }
  | .decodeError _ => { t with undecodable := t.undecodable + 1 }
  | .flush rows | .flushFailure rows => { t with rows := t.rows + rows, inserts := t.inserts + 1 }
  | .marker .resolved => { t with outcomes := t.outcomes + 1, resolved := t.resolved + 1 }
  | .marker _ => { t with outcomes := t.outcomes + 1 }
  | .sweep resolved => { t with resolved := t.resolved + resolved }
  | .delivery _ => { t with delivered := t.delivered + 1 }
  | _ => t

/-- The totals of the counters are kept like the counters. -/
theorem Counts.totals_record (c : Counts) (u : Update) : (c.record u).totals = c.totals.record u := by
  cases u with
  | marker o => cases o <;> simp [record, totals, Totals.record] <;> omega
  | delivery ok => cases ok <;> simp [record, totals, Totals.record] <;> omega
  | _ => simp [record, totals, Totals.record] <;> omega

namespace Services

/-- The totals of what has been counted. -/
def totals (s : Services) : Totals := s.metrics.counts.totals

@[simp] theorem totals_record (s : Services) (u : Update) : (s.record u).totals = s.totals.record u :=
  s.metrics.counts.totals_record u

@[simp] theorem totals_putCursor (s : Services) (topic : String) (p n : Int) :
    (s.putCursor topic p n).totals = s.totals := by
  cases h : s.cursors.failPuts
  · rw [putCursor_of_ok h]
    rfl
  · rw [putCursor_of_fail h, totals_record]
    rfl

/-- Every record that is handed over is counted. -/
theorem totals_handle (s : Services) (r : AuditRecord) :
    (s.handle r).totals = { s.totals with delivered := s.totals.delivered + 1 } :=
  totals_record _ _

end Services

/-! ## Messages -/

namespace Message

/-- A message of a stream cannot be decoded. -/
def undecodable (m : Message) : Stream → Bool
  | .rowChange => !(RowChange.decode m.payload).toBool
  | .marker => !(Marker.decode m.payload).toBool

/-- Every message with row changes is counted once as received, and once more if it cannot be decoded or is filtered. It yields a
row unless it is the one or the other. -/
theorem totals_toIntake (filter : Filter) (clock : Instant) (m : Message) (t : Totals) : ∃ filtered : Nat,
    (m.toIntake filter clock).2.foldl Totals.record t = { t with
      received := t.received + 1
      filtered := t.filtered + filtered
      undecodable := t.undecodable + [m].countP (·.undecodable .rowChange) } ∧
    filtered + [m].countP (·.undecodable .rowChange) + (Intake.rowsOf [(m.toIntake filter clock).1]).length = 1 := by
  rw [List.countP_singleton]
  unfold toIntake undecodable
  split
  · rename_i e he
    exact ⟨0, by simp [he, Totals.record, Except.toBool], by simp [he, Except.toBool, Intake.rowsOf, Intake.row?]⟩
  · rename_i e he
    split
    · exact ⟨1, by simp [he, Totals.record, Except.toBool], by simp [he, Except.toBool, Intake.rowsOf, Intake.row?]⟩
    · exact ⟨0, by simp [he, Totals.record, Except.toBool], by simp [he, Except.toBool, Intake.rowsOf, Intake.row?]⟩

/-- A message that is no marker is counted as such. -/
theorem totals_toEnvelope (m : Message) (t : Totals) : m.toEnvelope.2.foldl Totals.record t =
    { t with undecodable := t.undecodable + [m].countP (·.undecodable .marker) } := by
  rw [List.countP_singleton]
  unfold toEnvelope undecodable
  split <;> rename_i he <;> simp [he, Totals.record, Except.toBool]

end Message

namespace Reader

variable {α : Type} {decode : Services → Message → α × List Update} {heed : Bool} {now : Nat} {r r' : Reader α}
  {c c' : Channel α} {s t : Services}

/-- The message that the next step of a reader takes up. -/
def takes (r : Reader α) : List Message :=
  match r.phase with
  | .decoding (m :: _) => [m]
  | _ => []

/-- The messages that a reader has still to take up. -/
def remaining (r : Reader α) : List Message :=
  match r.phase with
  | .decoding ms => ms
  | .sending _ _ rest => rest
  | _ => []

/-- The messages that a reader has got in a step from one state to another. -/
def fetches (r r' : Reader α) : List Message :=
  match r.phase, r'.phase with
  | .polling _, .decoding ms => ms
  | _, _ => []

/-- A reader takes its messages up in the order in which it has got them and drops none, as long as somebody receives what it
sends. -/
theorem Turn.messages (h : Turn decode r c s r' c' t) (hc : c.received = true) :
    r.takes ++ r'.remaining = r.remaining ++ r.fetches r' := by
  cases h with
  | closed hp hclosed => exact absurd (hc.symm.trans hclosed) (by decide)
  | stop hp hf ht => simp [takes, remaining, fetches, hp]
  | wait hp hf ht => simp [takes, remaining, fetches, hp]
  | fetch hp hf hms => simp [takes, remaining, fetches, hp]
  | poll hp => simp [takes, remaining, fetches, hp]
  | decode hp => simp [takes, remaining, fetches, hp]
  | join hp hj => simp [takes, remaining, fetches, hp]
  | send hp hj => simp [takes, remaining, fetches, hp]

/-- What is to be counted is added to the totals, one after the other. -/
theorem totals_recordAll (s : Services) (us : List Update) : (recordAll s us).totals = us.foldl Totals.record s.totals := by
  induction us generalizing s with
  | nil => rfl
  | cons u us ih => exact (ih (s.record u)).trans (by rw [Services.totals_record]; rfl)

/-- A fetch adds nothing to the totals, whether it fails or not. -/
theorem totals_fetch (f : Feed) (now : Nat) (s : Services) : (f.fetch now s).2.2.totals = s.totals := by
  unfold Feed.fetch Feed.receive
  split
  · rfl
  · rfl
  · split <;> split <;> simp [Totals.record]

/-- A reader counts what its message says is to be counted, and nothing else. -/
theorem totals_step (h : r.step decode heed now c s = some (r', c', t)) :
    t.totals = (r.takes.flatMap fun m => (decode s m).2).foldl Totals.record s.totals := by
  unfold step at h
  split at h
  · rename_i p hp
    have htakes : r.takes = [] := by simp [takes, hp]
    rw [htakes]
    split at h
    · cases h
      rfl
    · split at h
      · split at h
        · cases h
          rfl
        · exact absurd h (by simp)
      · simp only [Option.some.injEq, Prod.mk.injEq] at h
        obtain ⟨-, -, rfl⟩ := h
        exact totals_fetch r.feed now s
  · rename_i hp
    cases h
    simp [takes, hp]
  · rename_i m rest hp
    cases h
    simp [takes, hp, totals_recordAll]
  · rename_i item offset rest hp
    have htakes : r.takes = [] := by simp [takes, hp]
    rw [htakes]
    split at h
    · cases h
      rfl
    · cases h
      rfl
    · cases h
      rfl
    · exact absurd h (by simp)
  · exact absurd h (by simp)

end Reader

/-- The row that a reader of row changes has in hand. -/
def Worker.inHand (r : Worker) : List StoredChange :=
  match r.phase with
  | .sending item _ _ => Intake.rowsOf [item]
  | _ => []

/-- What a reader of row changes counts of a message that it takes up. As long as somebody receives what it sends, every message
becomes a row in hand or is counted as one that cannot be decoded or is filtered, and a row in hand stays so until it is sent. -/
theorem Worker.totals_step {filter : Filter} {heed : Bool} {now : Nat} {r r' : Worker} {c c' : Channel Intake}
    {s t : Services} (h : Worker.step filter heed now r c s = some (r', c', t)) (hc : c.received = true) :
    ∃ filtered : Nat, t.totals = { s.totals with
      received := s.totals.received + r.takes.length
      filtered := s.totals.filtered + filtered
      undecodable := s.totals.undecodable + r.takes.countP (·.undecodable .rowChange) } ∧
    filtered + r.takes.countP (·.undecodable .rowChange) + (Intake.rowsOf (c.entered c')).length + r'.inHand.length =
      r.takes.length + r.inHand.length := by
  have htotals := Reader.totals_step h
  cases Reader.turn_of_step h with
  | @decode m rest hp =>
    obtain ⟨filtered, hcounts, hsplit⟩ := m.totals_toIntake filter s.clock s.totals
    have htakes : r.takes = [m] := by simp [Reader.takes, hp]
    have hinHand : r.inHand = [] := by simp [inHand, hp]
    refine ⟨filtered, ?_, ?_⟩
    · rw [htotals, htakes, List.flatMap_singleton]
      exact hcounts
    · rw [htakes, hinHand, Channel.entered_self]
      exact hsplit
  | closed hp hclosed => exact absurd (hc.symm.trans hclosed) (by decide)
  | @send item offset rest hp hsent =>
    have htakes : r.takes = [] := by simp [Reader.takes, hp]
    refine ⟨0, ?_, ?_⟩
    · rw [htotals, htakes]
      rfl
    · rw [htakes, Channel.entered_push]
      simp [inHand, hp]
  | _ =>
    have htakes : r.takes = [] := by simp_all [Reader.takes]
    refine ⟨0, ?_, ?_⟩
    · rw [htotals, htakes]
      rfl
    · rw [htakes]
      simp_all [inHand]

/-- What a reader of markers counts of a message that it takes up. -/
theorem Feeder.totals_step {heed : Bool} {now : Nat} {r r' : Feeder} {c c' : Channel Envelope} {s t : Services}
    (h : Feeder.step heed now r c s = some (r', c', t)) : t.totals = { s.totals with
      undecodable := s.totals.undecodable + r.takes.countP (·.undecodable .marker) } := by
  rw [Reader.totals_step h]
  unfold Reader.takes
  split
  · rw [List.flatMap_singleton, Message.totals_toEnvelope]
  · rfl

/-! ## Batches -/

/-- The writer counts every attempt to store a batch, with its rows. -/
theorem Writer.Turn.totals {senders : Bool} {w w' : Writer} {c c' : Channel Intake} {s t : Services}
    (h : Turn senders w c s w' c' t) : t.totals = { s.totals with
      rows := s.totals.rows + ((w.flushes s).flatMap (·.rows)).length
      inserts := s.totals.inserts + (w.flushes s).length } := by
  cases h with
  | store hp hb hi =>
    rw [AccountingAux.flushes_of_storing hp hb, Services.totals_record]
    simp [Totals.record, Services.totals]
  | drop hp hb hi =>
    rw [AccountingAux.flushes_of_storing hp hb, Services.totals_record]
    simp [Totals.record]
  | pass hp hb =>
    rw [AccountingAux.flushes_of_empty hb]
    rfl
  | put hp hq hh =>
    rw [AccountingAux.flushes_eq_nil (by simp [hp]), Services.totals_putCursor]
    rfl
  | _ =>
    rw [AccountingAux.flushes_eq_nil (by simp_all)]
    rfl

/-! ## Markers -/

/-- The totals with what has become of some markers. -/
def Totals.conclude (t : Totals) (results : List Correlated) : Totals :=
  { t with
    outcomes := t.outcomes + results.length
    resolved := t.resolved + results.countP (·.outcome == .resolved) }

namespace Correlation

variable {sender : Sender} {now : Nat} {x x' : Correlation} {d d' : Channel AuditRecord} {s t : Services}

/-- What has become of the marker, if the correlation is through. -/
def results (x : Correlation) : List Correlated :=
  match x.phase with
  | .finished result => [result]
  | _ => []

/-- The number of records that a correlation has sent and whose transactions it has not written yet. -/
def owed (x : Correlation) : Nat :=
  match x.phase with
  | .settling _ => 1
  | _ => 0

/-- A result is counted once. -/
theorem totals_finish (x : Correlation) (result : Correlated) (s : Services) :
    (x.finish result s).2.totals = s.totals.conclude [result] := by
  cases result <;> exact Services.totals_record s _

/-- Writing the transaction adds nothing to the totals, whether it fails or not. -/
theorem totals_write (x : Correlation) (status : Status) (s : Services) : (x.write status s).totals = s.totals := by
  unfold write
  split
  · rfl
  · exact Services.totals_record s _

theorem totals_begin (x : Correlation) (s : Services) :
    (x.begin s).2.totals = s.totals.conclude (x.begin s).1.results := by
  have hlooking : ∀ n, s.totals = s.totals.conclude { x with phase := .looking n }.results := fun _ => rfl
  unfold begin
  split
  · exact totals_finish x _ s
  · split
    · split
      · exact totals_finish x _ s
      · exact hlooking 1
    · exact hlooking 1

/-- A look-up adds nothing to the totals, whether it fails or not. -/
theorem totals_look (x : Correlation) (attempt now : Nat) (s : Services) :
    (x.look attempt now s).2.totals = s.totals ∧ (x.look attempt now s).1.results = [] := by
  have hlookup : (s.record .lookupAttempt).totals = s.totals := Services.totals_record s _
  have hnone : ({ x with phase := if attempt < x.attempts then .waiting (attempt + 1) (now + x.settings.retryInterval)
      else .deferring } : Correlation).results = [] := by
    by_cases hlt : attempt < x.attempts <;> simp [results, hlt]
  unfold look
  simp only [Services.record_store]
  split
  · exact ⟨hlookup, hnone⟩
  · exact ⟨hlookup, rfl⟩
  · exact ⟨(Services.totals_record _ _).trans hlookup, hnone⟩

/-- A correlation counts its result and nothing else, as long as somebody receives what it sends. -/
theorem totals_step (h : x.step sender now d s = some (x', d', t)) (hd : d.received = true) :
    t.totals = s.totals.conclude x'.results := by
  unfold step at h
  split at h
  · simp only [Option.some.injEq, Prod.mk.injEq] at h
    obtain ⟨rfl, -, rfl⟩ := h
    exact totals_begin x s
  · rename_i attempt _
    simp only [Option.some.injEq, Prod.mk.injEq] at h
    obtain ⟨rfl, -, rfl⟩ := h
    obtain ⟨htotals, hresults⟩ := totals_look x attempt now s
    rw [htotals, hresults]
    rfl
  · split at h
    · cases h
      rfl
    · exact absurd h (by simp)
  · rename_i rows hp
    split at h
    · rename_i hclosed
      exact absurd (hd.symm.trans (Channel.attempt_closed hclosed)) (by decide)
    · cases h
      rw [results, hp]
      rfl
    · cases h
      rfl
    · exact absurd h (by simp)
  · simp only [Option.some.injEq, Prod.mk.injEq] at h
    obtain ⟨rfl, -, rfl⟩ := h
    rw [totals_finish, totals_write]
    rfl
  · simp only [Option.some.injEq, Prod.mk.injEq] at h
    obtain ⟨rfl, -, rfl⟩ := h
    rw [totals_finish, totals_write]
    rfl
  · exact absurd h (by simp)

/-- Every record that a correlation sends is owed until it is counted as a transaction resolved. -/
theorem Turn.owed (h : Turn sender x d s x' d' t) (hd : d.received = true) :
    (d.entered d').length + x.owed = x'.owed + x'.results.countP (·.outcome == .resolved) := by
  cases h with
  | closed hp hclosed ht => exact absurd (hd.symm.trans hclosed) (by decide)
  | _ => simp_all [Correlation.owed, results, Correlated.outcome]

end Correlation

namespace Correlator

variable {c c' : Correlator} {m m' : Channel Envelope} {d d' : Channel AuditRecord} {s t : Services}

/-- What has become of the marker that the correlator has in hand, if its correlation is through. -/
def results (c : Correlator) : List Correlated :=
  match c.phase with
  | .correlating _ x => x.results
  | _ => []

/-- The number of records that the correlator has sent and whose transactions it has not written yet. -/
def owed (c : Correlator) : Nat :=
  match c.phase with
  | .correlating _ x => x.owed
  | _ => 0

/-- The correlator counts what becomes of its markers and nothing else, as long as somebody receives what it sends. -/
theorem totals_step {heed senders : Bool} {now : Nat} (h : c.step heed now senders m d s = some (c', m', d', t))
    (hd : d.received = true) : t.totals = s.totals.conclude c'.results := by
  unfold step at h
  split at h
  · split at h
    · cases h
      rfl
    · split at h
      · rename_i e _ _
        cases h
        cases e.marker <;> rfl
      · split at h
        · exact absurd h (by simp)
        · cases h
          rfl
  · split at h
    · cases h
      rfl
    · obtain ⟨⟨x', d₁, t₁⟩, hx, he⟩ := Option.map_eq_some_iff.1 h
      simp only [Prod.mk.injEq] at he
      obtain ⟨rfl, -, -, rfl⟩ := he
      exact Correlation.totals_step hx hd
  · cases h
    exact Services.totals_putCursor s _ _ _
  · exact absurd h (by simp)

/-- Every record that the correlator sends is owed until it is counted as a transaction resolved. -/
theorem Turn.owed {senders : Bool} (h : Turn senders c m d s c' m' d' t) (hd : d.received = true) :
    (d.entered d').length + c.owed = c'.owed + c'.results.countP (·.outcome == .resolved) := by
  cases h with
  | work hp hx => simpa [Correlator.owed, results, hp] using hx.owed hd
  | done hp hx => simp [Correlator.owed, Correlation.owed, results, hp, hx]
  | _ => simp_all [Correlator.owed, Correlation.owed, results, Correlation.results]

end Correlator

/-! ## Sweeps -/

namespace Sweep

variable {sender : Sender} {w w' : Sweep} {d d' : Channel AuditRecord} {s t : Services}

/-- The number of transactions resolved that a sweep reports once it is through. -/
def reported (w : Sweep) : Nat :=
  match w.phase with
  | .finished (.ok r) => r.resolved
  | _ => 0

/-- The number of records that a sweep has sent and whose transactions it has not written yet. -/
def owed (w : Sweep) : Nat :=
  match w.phase with
  | .sending _ _ _ done => done.length
  | _ => 0

/-- A sweep that sends has nothing to report yet. -/
def Unreported (w : Sweep) : Prop := ∀ r rows rest done, w.phase = .sending r rows rest done → r.resolved = 0

/-- How many transactions are too old is no part of the totals. -/
theorem totals_countAbandoned (since : Instant) (s : Services) : (countAbandoned since s).2.totals = s.totals := by
  unfold countAbandoned
  split
  · exact Services.totals_record s _
  · rfl

/-- The report of a sweep is counted. -/
theorem totals_finish (w : Sweep) (r : SweepReport) (s : Services) :
    (w.finish r s).2.totals = { s.totals with resolved := s.totals.resolved + (w.finish r s).1.reported } :=
  Services.totals_record s _

/-- A sweep counts what it reports and nothing else. -/
theorem totals_step (h : w.step sender d s = some (w', d', t)) :
    t.totals = { s.totals with resolved := s.totals.resolved + w'.reported } := by
  unfold step at h
  split at h
  · simp only [Option.some.injEq, Prod.mk.injEq] at h
    obtain ⟨rfl, -, rfl⟩ := h
    unfold begin
    split
    · rfl
    · exact totals_countAbandoned _ s
  · rename_i since abandoned _
    simp only [Option.some.injEq, Prod.mk.injEq] at h
    obtain ⟨rfl, -, rfl⟩ := h
    unfold list
    split
    · rfl
    · exact totals_finish w _ s
    · rfl
  · simp only [Option.some.injEq, Prod.mk.injEq] at h
    obtain ⟨rfl, -, rfl⟩ := h
    unfold Sweep.fetch
    split <;> rfl
  · rename_i r _ done _
    simp only [Option.some.injEq, Prod.mk.injEq] at h
    obtain ⟨rfl, -, rfl⟩ := h
    unfold settle
    split
    · exact totals_finish w r s
    · split
      · rfl
      · exact totals_finish w _ _
  · rename_i hp
    split at h
    · cases h
      rfl
    · split at h
      · cases h
        rfl
      · cases h
        rw [reported, hp]
        rfl
      · cases h
        rfl
      · exact absurd h (by simp)
  · exact absurd h (by simp)

theorem unreported_of_sending {r : SweepReport} {rows : List (String × List StoredChange)} {rest done : List Transaction}
    (hp : w.phase = .sending r rows rest done) (hr : r.resolved = 0) : w.Unreported := by
  intro r' rows' rest' done' he
  obtain ⟨rfl, -⟩ := Phase.sending.inj (hp.symm.trans he)
  exact hr

/-- Every record that a sweep sends is owed until it is reported as a transaction resolved, as long as somebody receives it and
upserts do not fail. -/
theorem owed_step (h : w.step sender d s = some (w', d', t)) (hw : w.Unreported) (hd : d.received = true)
    (hu : s.store.failUpserts = false) :
    w'.Unreported ∧ (d.entered d').length + w.owed = w'.owed + w'.reported := by
  unfold step at h
  split at h
  · rename_i hp
    simp only [Option.some.injEq, Prod.mk.injEq] at h
    obtain ⟨rfl, rfl, -⟩ := h
    unfold begin
    split <;> simp [Unreported, Sweep.owed, reported, hp, fail]
  · rename_i since abandoned hp
    simp only [Option.some.injEq, Prod.mk.injEq] at h
    obtain ⟨rfl, rfl, -⟩ := h
    unfold list
    split <;> simp [Unreported, Sweep.owed, reported, hp, fail, finish]
  · rename_i hp
    simp only [Option.some.injEq, Prod.mk.injEq] at h
    obtain ⟨rfl, rfl, -⟩ := h
    unfold Sweep.fetch
    split
    · simp [Unreported, Sweep.owed, reported, hp, fail]
    · exact ⟨unreported_of_sending rfl rfl, by simp [Sweep.owed, reported, hp]⟩
  · rename_i r _ done hp
    simp only [Option.some.injEq, Prod.mk.injEq] at h
    obtain ⟨rfl, rfl, -⟩ := h
    have hnone : r.resolved = 0 := hw _ _ _ _ hp
    -- what has been sent is written here, and upserts do not fail: all that was owed is reported
    unfold settle
    split
    · rename_i hdone
      have hempty : done = [] := by simpa using hdone
      simp [Unreported, Sweep.owed, reported, hp, finish, hempty, hnone]
    · split
      · rename_i e he
        exact absurd he (by simp [Store.upsert, hu])
      · simp [Unreported, Sweep.owed, reported, hp, finish]
  · rename_i r rows u rest done hp
    have hnone : r.resolved = 0 := hw _ _ _ _ hp
    split at h
    · cases h
      exact ⟨unreported_of_sending rfl hnone, by simp [Sweep.owed, reported, hp]⟩
    · split at h
      · rename_i hclosed
        exact absurd (hd.symm.trans (Channel.attempt_closed hclosed)) (by decide)
      · rename_i c hc
        obtain ⟨-, rfl⟩ := Channel.attempt_joined hc
        cases h
        exact ⟨hw, by simp [Sweep.owed, reported, hp]⟩
      · rename_i c hc
        obtain ⟨-, rfl⟩ := Channel.attempt_sent hc
        cases h
        exact ⟨unreported_of_sending rfl hnone, by simp [Sweep.owed, reported, hp, Nat.add_comm]⟩
      · exact absurd h (by simp)
  · exact absurd h (by simp)

end Sweep

namespace Sweeper

variable {heed : Bool} {now : Nat} {v v' : Sweeper} {d d' : Channel AuditRecord} {s t : Services}

/-- The number of records that the sweeper has sent and whose transactions it has not written yet. -/
def owed (v : Sweeper) : Nat := (v.sweep.map (·.owed)).getD 0

/-- What the sweeper adds to the totals, and what it owes after it. A sweep has just ended when a report is counted. -/
theorem totals_step (h : v.step heed now d s = some (v', d', t)) : ∃ resolved : Nat,
    t.totals = { s.totals with resolved := s.totals.resolved + resolved } ∧
    ((∀ w, v.sweep = some w → w.Unreported) → d.received = true → s.store.failUpserts = false →
      (∀ w, v'.sweep = some w → w.Unreported) ∧ (d.entered d').length + v.owed = v'.owed + resolved) := by
  unfold step at h
  split at h
  · exact absurd h (by simp)
  · split at h
    · rename_i hw
      split at h
      · cases h
        exact ⟨0, rfl, fun hu _ _ => ⟨hu, by simp [owed]⟩⟩
      · split at h
        · cases h
          exact ⟨0, rfl, fun _ _ _ => ⟨by simp [Sweep.Unreported], by simp [owed, hw, Sweep.owed]⟩⟩
        · exact absurd h (by simp)
    · rename_i w hw
      split at h
      · rename_i r hp
        cases h
        exact ⟨0, rfl, fun _ _ _ => ⟨by simp, by simp [owed, hw, hp, Sweep.owed]⟩⟩
      · rename_i e hp
        cases h
        exact ⟨0, Services.totals_record s _, fun _ _ _ => ⟨by simp, by simp [owed, hw, hp, Sweep.owed]⟩⟩
      · obtain ⟨⟨w', d₁, t₁⟩, hx, he⟩ := Option.map_eq_some_iff.1 h
        simp only [Prod.mk.injEq] at he
        obtain ⟨rfl, rfl, rfl⟩ := he
        refine ⟨w'.reported, Sweep.totals_step hx, ?_⟩
        intro hu hd hf
        obtain ⟨hunreported, howed⟩ := Sweep.owed_step hx (hu w hw) hd hf
        exact ⟨fun _ he => Option.some.inj he ▸ hunreported, by simpa [owed, hw] using howed⟩

end Sweeper

end AuditTrail
