import AuditTrail.Services
import AuditTrail.Settings

/-!
# Feeds

A feed reads one partition. It starts at the stored cursor, or else where its settings say, and asks for the next messages until
there are some: it waits a little after an empty fetch and ever longer after failed ones. Its position moves only when its owner
says that a message is done with, and it never writes a cursor.
-/

namespace AuditTrail

/-- Where the reading of a partition stands. -/
structure Feed where
  settings : FeedSettings
  topic : String
  partition : Int
  /-- The offset of the next message. -/
  position : Int
  /-- How long to wait after the next failed fetch. -/
  backoff : Nat
  deriving DecidableEq, Repr

/-- What a feed is doing while its owner waits for messages. -/
inductive Polling where
  /-- It is about to fetch. -/
  | ready
  /-- It waits after an empty fetch. -/
  | idle (due : Nat)
  /-- It waits after a failed fetch. -/
  | retrying (due : Nat)
  deriving DecidableEq, Repr

/-- What comes of one fetch. -/
inductive Fetched where
  | batch (messages : List Message)
  /-- The feed ends with an error. -/
  | failed (e : Error)
  | wait (p : Polling)
  deriving DecidableEq, Repr

namespace Feed

/-- Opens a partition. -/
def openAt (settings : FeedSettings) (s : Services) (topic : String) (partition : Int) : Except Error Feed := do
  let stored ← s.cursors.get topic partition
  let position := stored.getD (s.queue.offsetAt topic partition settings.start)
  return ⟨settings, topic, partition, position, settings.retryInitial⟩

/-- The feed past a message. -/
def advance (f : Feed) (offset : Int) : Feed := { f with position := offset + 1 }

/-- What the feed makes of the answer to a fetch. Every failure is counted, except that the queue or a channel has been closed. -/
def receive (f : Feed) (now : Nat) (s : Services) : Except Error (List Message) → Feed × Fetched × Services
  | .ok [] => ({ f with backoff := f.settings.retryInitial }, .wait (.idle (now + f.settings.emptyDelay)), s)
  | .ok batch => ({ f with backoff := f.settings.retryInitial }, .batch batch, s)
  | .error e =>
    let counted := if e.isClosed then s else s.record (.fetchError e.code)
    if e.isRetriable then (f, .wait (.retrying (now + f.backoff)), counted) else (f, .failed e, counted)

/-- Fetches once. -/
def fetch (f : Feed) (now : Nat) (s : Services) : Feed × Fetched × Services :=
  f.receive now s (s.queue.fetch f.topic f.partition f.position f.settings.maxMessages)

/-- The feed after it has waited. -/
def wake (f : Feed) : Polling → Feed
  | .retrying _ => { f with backoff := min (f.backoff * 2) f.settings.retryMax }
  | _ => f

end Feed

/-- When waiting ends, if there is anything to wait for. -/
def Polling.due? : Polling → Option Nat
  | .ready => none
  | .idle due => some due
  | .retrying due => some due

end AuditTrail
