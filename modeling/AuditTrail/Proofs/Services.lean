import AuditTrail.Services

/-!
# What the shared services keep

Counting changes the metrics alone, handing a record over the handler and the metrics, and writing a cursor the cursors or, when
it fails, the metrics. No write to the store changes which calls fail.
-/

namespace AuditTrail

namespace Services

@[simp] theorem record_store (s : Services) (u : Update) : (s.record u).store = s.store := rfl

@[simp] theorem record_cursors (s : Services) (u : Update) : (s.record u).cursors = s.cursors := rfl

@[simp] theorem record_queue (s : Services) (u : Update) : (s.record u).queue = s.queue := rfl

@[simp] theorem record_handler (s : Services) (u : Update) : (s.record u).handler = s.handler := rfl

@[simp] theorem handle_queue (s : Services) (r : AuditRecord) : (s.handle r).queue = s.queue := rfl

@[simp] theorem handle_cursors (s : Services) (r : AuditRecord) : (s.handle r).cursors = s.cursors := rfl

/-- A record that is handed over is the last one that the handler has been given. -/
@[simp] theorem handle_seen (s : Services) (r : AuditRecord) : (s.handle r).handler.seen = s.handler.seen ++ [r] := rfl

/-- Nothing but the metrics has changed. -/
def Counted (s t : Services) : Prop := ∃ metrics : Metrics, t = { s with metrics := metrics }

/-- Counting changes nothing but the metrics. -/
theorem counted_record (s : Services) (u : Update) : Counted s (s.record u) := ⟨_, rfl⟩

/-- Nothing has changed at all. -/
theorem counted_self (s : Services) : Counted s s := ⟨s.metrics, rfl⟩

/-- Counting goes on. -/
theorem Counted.trans {s t u : Services} (h : Counted s t) (h' : Counted t u) : Counted s u := by
  obtain ⟨m, rfl⟩ := h
  obtain ⟨n, rfl⟩ := h'
  exact ⟨n, rfl⟩

theorem Counted.store {s t : Services} (h : Counted s t) : t.store = s.store := by
  obtain ⟨m, rfl⟩ := h
  rfl

theorem Counted.cursors {s t : Services} (h : Counted s t) : t.cursors = s.cursors := by
  obtain ⟨m, rfl⟩ := h
  rfl

theorem Counted.queue {s t : Services} (h : Counted s t) : t.queue = s.queue := by
  obtain ⟨m, rfl⟩ := h
  rfl

theorem Counted.handler {s t : Services} (h : Counted s t) : t.handler = s.handler := by
  obtain ⟨m, rfl⟩ := h
  rfl

/-- Nothing but the transactions and the metrics has changed. -/
def Updated (s t : Services) : Prop :=
  ∃ (transactions : List Transaction) (batches : Nat) (metrics : Metrics),
    t = { s with
      store := { s.store with transactions := transactions, upsertBatches := batches }
      metrics := metrics }

theorem Counted.updated {s t : Services} (h : Counted s t) : Updated s t := by
  obtain ⟨m, rfl⟩ := h
  exact ⟨s.store.transactions, s.store.upsertBatches, m, rfl⟩

theorem Updated.trans {s t u : Services} (h : Updated s t) (h' : Updated t u) : Updated s u := by
  obtain ⟨ts, n, m, rfl⟩ := h
  obtain ⟨ts', n', m', rfl⟩ := h'
  exact ⟨ts', n', m', rfl⟩

theorem Updated.rows {s t : Services} (h : Updated s t) : t.store.rows = s.store.rows := by
  obtain ⟨ts, n, m, rfl⟩ := h
  rfl

theorem Updated.cursors {s t : Services} (h : Updated s t) : t.cursors = s.cursors := by
  obtain ⟨ts, n, m, rfl⟩ := h
  rfl

theorem Updated.queue {s t : Services} (h : Updated s t) : t.queue = s.queue := by
  obtain ⟨ts, n, m, rfl⟩ := h
  rfl

theorem Updated.handler {s t : Services} (h : Updated s t) : t.handler = s.handler := by
  obtain ⟨ts, n, m, rfl⟩ := h
  rfl

/-- The same calls are made to fail. -/
structure SameFaults (s t : Services) : Prop where
  inserts : t.store.failInserts = s.store.failInserts
  queries : t.store.failQueries = s.store.failQueries
  upserts : t.store.failUpserts = s.store.failUpserts
  gets : t.cursors.failGets = s.cursors.failGets
  puts : t.cursors.failPuts = s.cursors.failPuts
  fetches : t.queue.failFetches = s.queue.failFetches

theorem Counted.sameFaults {s t : Services} (h : Counted s t) : SameFaults s t := by
  obtain ⟨m, rfl⟩ := h
  exact ⟨rfl, rfl, rfl, rfl, rfl, rfl⟩

theorem Updated.sameFaults {s t : Services} (h : Updated s t) : SameFaults s t := by
  obtain ⟨ts, n, m, rfl⟩ := h
  exact ⟨rfl, rfl, rfl, rfl, rfl, rfl⟩

/-- A cursor that cannot be written is counted. -/
theorem putCursor_of_fail {s : Services} (h : s.cursors.failPuts = true) (topic : String) (p n : Int) :
    s.putCursor topic p n = s.record .cursorError := by
  simp [putCursor, Cursors.put, h]

/-- A cursor that can be written is. -/
theorem putCursor_of_ok {s : Services} (h : s.cursors.failPuts = false) (topic : String) (p n : Int) :
    s.putCursor topic p n = { s with cursors := s.cursors.set topic p n } := by
  simp [putCursor, Cursors.put, h]

@[simp] theorem putCursor_store (s : Services) (topic : String) (p n : Int) :
    (s.putCursor topic p n).store = s.store := by
  cases h : s.cursors.failPuts
  · rw [putCursor_of_ok h]
  · rw [putCursor_of_fail h, record_store]

/-- Writing a cursor makes nothing fail. -/
theorem sameFaults_putCursor (s : Services) (topic : String) (p n : Int) : SameFaults s (s.putCursor topic p n) := by
  cases h : s.cursors.failPuts
  · rw [putCursor_of_ok h]
    exact ⟨rfl, rfl, rfl, rfl, rfl, rfl⟩
  · rw [putCursor_of_fail h]
    exact (counted_record s _).sameFaults

@[simp] theorem putCursor_queue (s : Services) (topic : String) (p n : Int) :
    (s.putCursor topic p n).queue = s.queue := by
  cases h : s.cursors.failPuts
  · rw [putCursor_of_ok h]
  · rw [putCursor_of_fail h, record_queue]

@[simp] theorem putCursor_handler (s : Services) (topic : String) (p n : Int) :
    (s.putCursor topic p n).handler = s.handler := by
  cases h : s.cursors.failPuts
  · rw [putCursor_of_ok h]
  · rw [putCursor_of_fail h, record_handler]

end Services

end AuditTrail
