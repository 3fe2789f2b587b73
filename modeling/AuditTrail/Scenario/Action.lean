import AuditTrail.Flow.Correlation
import AuditTrail.Flow.Sweep

/-!
# Actions on the services

What a scenario does to store, cursors and queue directly. An action takes no time.
-/

namespace AuditTrail.Scenario

/-- An action on store, cursors or queue. -/
inductive Action where
  | ping
  | insert (rows : List StoredChange)
  | upsert (transactions : List Transaction)
  | transaction (gtid : String)
  | rowsOf (gtid : String)
  | rowsOfAll (gtids : List String)
  | unprocessed (since : Instant) (limit : Nat)
  | countBefore (cutoff : Instant)
  | inspectStore
  | failInserts (on : Bool)
  | failQueries (on : Bool)
  | failUpserts (on : Bool)
  | cursor (topic : String) (partition : Int)
  | putCursor (topic : String) (partition offset : Int)
  | cursors
  | failCursorGets (on : Bool)
  | failCursorPuts (on : Bool)
  | createTopic (topic : String) (partitions : Nat)
  | publish (topic : String) (partition : Int) (payload : Octets)
  | fetch (topic : String) (partition offset : Int) (most : Nat)
  | offsetAt (topic : String) (partition : Int) (start : StartOffset)
  | partitions (topic : String)
  | size (topic : String) (partition : Int)
  | failFetches (on : Bool)
  | closeQueue

/-- What comes of an action or a command. -/
inductive Reply where
  | done
  | error (e : Error)
  | rows (rows : List StoredChange)
  | groups (groups : List (String × List StoredChange))
  | transactions (ts : List Transaction)
  | transaction (t : Option Transaction)
  | count (n : Nat)
  | store (s : Store)
  | offset (n : Option Int)
  | cursors (cs : List Cursor)
  | messages (ms : List Message)
  | partitions (ps : List Int)
  /-- The counters under their names. -/
  | metrics (counts : List (String × Nat))
  /-- The exported series. -/
  | exported (series : List (String × Nat))
  /-- The time since the start. -/
  | time (now : Nat)
  /-- The step was given up because it took too long. -/
  | blocked
  /-- A feed has been opened. -/
  | opened (topic : String) (partition position : Int)
  | position (n : Int)
  | batch (ms : List Message) (elapsed : Nat) (position : Int)
  | failedBatch (e : Error) (elapsed : Nat) (position : Int)
  | noBatch (elapsed : Nat) (position : Int)
  /-- So many readers have been started. -/
  | started (readers : Nat)
  | stopped
  | ingestStopped (readers : Nat)
  | correlatorStopped (elapsed feeders : Nat)
  | pipelineStopped (elapsed : Nat)
  | records (rs : List AuditRecord)
  /-- Nobody receives records any more. -/
  | closed
  | correlated (result : Correlated) (elapsed : Nat)
  | swept (report : SweepReport)

/-- The reply for a result. -/
def Reply.ofResult (reply : α → Reply) : Except Error α → Reply
  | .ok a => reply a
  | .error e => .error e

namespace Action

/-- The services with another store. -/
def storing (s : Services) : Except Error Store → Services × Reply
  | .ok stored => ({ s with store := stored }, .done)
  | .error e => (s, .error e)

/-- The services after an action, and its reply. -/
def run (s : Services) : Action → Services × Reply
  | .ping => (s, .ofResult (fun _ => .done) s.store.ping)
  | .insert rows => storing s (s.store.insert rows)
  | .upsert ts => storing s (s.store.upsert ts)
  | .transaction gtid => (s, .ofResult .transaction (s.store.transaction gtid))
  | .rowsOf gtid => (s, .ofResult .rows (s.store.rowsOf gtid))
  | .rowsOfAll gtids => (s, .ofResult .groups (s.store.rowsOfAll gtids))
  | .unprocessed since limit => (s, .ofResult .transactions (s.store.unprocessed since limit))
  | .countBefore cutoff => (s, .ofResult .count (s.store.countBefore cutoff))
  | .inspectStore => (s, .store s.store)
  | .failInserts on => ({ s with store := { s.store with failInserts := on } }, .done)
  | .failQueries on => ({ s with store := { s.store with failQueries := on } }, .done)
  | .failUpserts on => ({ s with store := { s.store with failUpserts := on } }, .done)
  | .cursor topic partition => (s, .ofResult .offset (s.cursors.get topic partition))
  | .putCursor topic partition offset =>
    match s.cursors.put topic partition offset with
    | .ok c => ({ s with cursors := c }, .done)
    | .error e => (s, .error e)
  | .cursors => (s, .cursors s.cursors.list)
  | .failCursorGets on => ({ s with cursors := { s.cursors with failGets := on } }, .done)
  | .failCursorPuts on => ({ s with cursors := { s.cursors with failPuts := on } }, .done)
  | .createTopic topic n => ({ s with queue := s.queue.createTopic topic n }, .done)
  | .publish topic partition payload =>
    match s.queue.publish topic partition payload with
    | .ok (queue, offset) => ({ s with queue := queue }, .offset offset)
    | .error e => (s, .error e)
  | .fetch topic partition offset most => (s, .ofResult .messages (s.queue.fetch topic partition offset most))
  | .offsetAt topic partition start => (s, .offset (s.queue.offsetAt topic partition start))
  | .partitions topic => (s, .ofResult .partitions (s.queue.partitions topic))
  | .size topic partition => (s, .count (s.queue.size topic partition))
  | .failFetches on => ({ s with queue := { s.queue with failFetches := on } }, .done)
  | .closeQueue => ({ s with queue := { s.queue with closed := true } }, .done)

end Action

end AuditTrail.Scenario
