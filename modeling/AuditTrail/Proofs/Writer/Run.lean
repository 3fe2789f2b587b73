import AuditTrail.Proofs.Cursors
import AuditTrail.Proofs.Writer.Turn
import Mathlib.Logic.Relation

/-!
# Runs of the batch writer

A scene is a writer with its channel, the services it shares, and a record of what has gone on: the items accepted, the batches
stored and the cursors written. In a step of a scene either the writer takes one of its own, at any time of its clock, or a
sender does, or somebody else changes the services. Others may change everything but the rows that are stored, which only
grow, and the cursors that the writer owns; above all they may make calls fail and succeed as they like.
-/

namespace AuditTrail

namespace Writer

/-- A writer at work, with what it has done so far. -/
structure Scene where
  writer : Writer
  channel : Channel Intake
  services : Services
  /-- Whether anybody can still send. -/
  handles : Bool := true
  /-- The items put into the channel, the first in front. -/
  accepted : List Intake := []
  /-- The batches whose insert succeeded. -/
  batches : List (List StoredChange) := []
  /-- The cursors written, each with its partition, the first in front. -/
  written : List (Int × Int) := []
  deriving DecidableEq

/-- The batch that the next step of the writer stores. -/
def stores (w : Writer) (s : Services) : List (List StoredChange) :=
  match w.phase with
  | .storing _ =>
    if w.buffer.isEmpty then []
    else match s.store.insert w.buffer with
      | .ok _ => [w.buffer]
      | .error _ => []
  | _ => []

/-- The cursor that the next step of the writer writes. -/
def writes (w : Writer) (s : Services) : List (Int × Int) :=
  match w.phase, w.pending with
  | .committing _, (partition, offset) :: _ =>
    if w.held.contains partition then []
    else match s.cursors.put w.topic partition (offset + 1) with
      | .ok _ => [(partition, offset + 1)]
      | .error _ => []
  | _, _ => []

section

variable {w : Writer} {s : Services} {cause : FlushCause}

/-- A writer that is not about to store stores nothing. -/
theorem stores_eq_nil (h : ∀ cause, w.phase ≠ .storing cause) : w.stores s = [] := by
  unfold stores
  split
  · rename_i cause hp
    exact absurd hp (h cause)
  · rfl

/-- A writer with an empty buffer stores nothing. -/
theorem stores_of_empty (hb : w.buffer = []) : w.stores s = [] := by
  unfold stores
  split
  · simp [hb]
  · rfl

/-- A writer that is about to store, and whose insert succeeds, stores its buffer. -/
theorem stores_of_ok {t : Store} (hp : w.phase = .storing cause) (hb : w.buffer ≠ [])
    (hi : s.store.insert w.buffer = .ok t) : w.stores s = [w.buffer] := by
  simp only [stores, hp, List.isEmpty_iff, hb, if_false, hi]

/-- A writer whose insert fails stores nothing. -/
theorem stores_of_error {e : Error} (hi : s.store.insert w.buffer = .error e) : w.stores s = [] := by
  unfold stores
  split
  · simp [hi]
  · rfl

/-- A writer that is not about to write cursors writes none. -/
theorem writes_eq_nil (h : ∀ cause, w.phase ≠ .committing cause) : w.writes s = [] := by
  unfold writes
  split
  · rename_i cause _ _ _ hp _
    exact absurd hp (h cause)
  · rfl

/-- What a step of the writer adds to the rows that are stored. -/
theorem Turn.addsRows {senders : Bool} {w' : Writer} {c c' : Channel Intake} {s' : Services}
    (h : Turn senders w c s w' c' s') : s'.store.rows = s.store.rows ++ (w.stores s).flatten := by
  cases h with
  | store hp hb hi =>
    obtain ⟨-, hrows⟩ := Store.insert_eq_ok hi
    rw [stores_of_ok hp hb hi, List.flatten_singleton]
    exact congrArg Store.rows hrows
  | pass hp hb =>
    rw [stores_of_empty hb, List.flatten_nil, List.append_nil]
  | drop hp hb hi =>
    rw [stores_of_error hi, List.flatten_nil, List.append_nil]
    rfl
  | put hp hq hh =>
    rw [stores_eq_nil (by simp [hp]), Services.putCursor_store, List.flatten_nil, List.append_nil]
  | _ =>
    rw [stores_eq_nil (by simp_all), List.flatten_nil, List.append_nil]

end

/-- What others leave alone: rows that are stored, and the cursors of a topic in the partitions that are owned. -/
structure Undisturbed (owned : Int → Prop) (topic : String) (s t : Services) : Prop where
  rows : ∀ r ∈ s.store.rows, r ∈ t.store.rows
  cursors : ∀ p, owned p → t.cursors.stored topic p = s.cursors.stored topic p

namespace Scene

/-- A writer that starts with an empty channel. -/
def start (settings : WriterSettings) (topic : String) (now : Nat) (capacity : Nat) (s : Services) : Scene where
  writer := .start settings topic now
  channel := .ofCapacity capacity
  services := s

/-- One step of a scene. The writer owns the cursors of some partitions. -/
inductive Step (owned : Int → Prop) (x : Scene) : Scene → Prop where
  /-- The writer takes a step. -/
  | work {attention : Attention} {now : Nat} {w : Writer} {c : Channel Intake} {s : Services}
      (h : x.writer.step attention now x.handles x.channel x.services = some (w, c, s)) :
      Step owned x { x with
        writer := w, channel := c, services := s
        batches := x.batches ++ x.writer.stores x.services
        written := x.written ++ x.writer.writes x.services }
  /-- A sender puts an item in. -/
  | send {sender : Sender} {item : Intake} {c : Channel Intake} (hs : x.handles = true)
      (h : x.channel.attempt sender item = .sent c) :
      Step owned x { x with channel := c, accepted := x.accepted ++ [item] }
  /-- A sender joins the queue of the channel. -/
  | join {sender : Sender} {item : Intake} {c : Channel Intake} (h : x.channel.attempt sender item = .joined c) :
      Step owned x { x with channel := c }
  /-- A sender gives up waiting. -/
  | leave (sender : Sender) : Step owned x { x with channel := x.channel.leave sender }
  /-- The last sender goes. -/
  | release : Step owned x { x with handles := false }
  /-- Somebody else changes the services. -/
  | others {t : Services} (h : Undisturbed owned x.writer.topic x.services t) : Step owned x { x with services := t }

/-- The writer takes a step. -/
inductive Work (x : Scene) : Scene → Prop where
  | mk {attention : Attention} {now : Nat} {w : Writer} {c : Channel Intake} {s : Services}
      (h : x.writer.step attention now x.handles x.channel x.services = some (w, c, s)) :
      Work x { x with
        writer := w, channel := c, services := s
        batches := x.batches ++ x.writer.stores x.services
        written := x.written ++ x.writer.writes x.services }

/-- A step of a scene that the writer does not take. -/
inductive Aside (owned : Int → Prop) (x : Scene) : Scene → Prop where
  | send {sender : Sender} {item : Intake} {c : Channel Intake} (hs : x.handles = true)
      (h : x.channel.attempt sender item = .sent c) :
      Aside owned x { x with channel := c, accepted := x.accepted ++ [item] }
  | join {sender : Sender} {item : Intake} {c : Channel Intake} (h : x.channel.attempt sender item = .joined c) :
      Aside owned x { x with channel := c }
  | leave (sender : Sender) : Aside owned x { x with channel := x.channel.leave sender }
  | release : Aside owned x { x with handles := false }
  | others {t : Services} (h : Undisturbed owned x.writer.topic x.services t) : Aside owned x { x with services := t }

/-- Any number of steps of a scene. -/
def Run (owned : Int → Prop) : Scene → Scene → Prop := Relation.ReflTransGen (Step owned)

/-- Something that may happen to a scene, given by what it needs. -/
inductive Happening where
  /-- The writer takes a step at a time of its clock. -/
  | work (attention : Attention) (now : Nat)
  /-- A sender attempts to put an item in. -/
  | send (sender : Sender) (item : Intake)
  /-- The last sender goes. -/
  | release
  /-- From now on inserts and cursor writes fail, or do not. -/
  | fail (inserts puts : Bool)

/-- The scene after something has happened, if it can happen. -/
def after (x : Scene) : Happening → Option Scene
  | .work attention now => do
    let (w, c, s) ← x.writer.step attention now x.handles x.channel x.services
    return { x with
      writer := w, channel := c, services := s
      batches := x.batches ++ x.writer.stores x.services
      written := x.written ++ x.writer.writes x.services }
  | .send sender item =>
    match x.channel.attempt sender item with
    | .sent c => if x.handles then some { x with channel := c, accepted := x.accepted ++ [item] } else none
    | .joined c => some { x with channel := c }
    | _ => none
  | .release => some { x with handles := false }
  | .fail inserts puts =>
    some { x with services := { x.services with
      store := { x.services.store with failInserts := inserts }
      cursors := { x.services.cursors with failPuts := puts } } }

variable {owned : Int → Prop} {x y : Scene}

theorem Work.step (h : Work x y) : Step owned x y := by
  obtain ⟨h⟩ := h
  exact .work h

theorem Aside.step (h : Aside owned x y) : Step owned x y := by
  cases h with
  | send hs h => exact .send hs h
  | join h => exact .join h
  | leave sender => exact .leave sender
  | release => exact .release
  | others h => exact .others h

/-- A step is one of the writer or not. -/
theorem Step.work_or_aside (h : Step owned x y) : Work x y ∨ Aside owned x y := by
  cases h with
  | work h => exact Or.inl ⟨h⟩
  | send hs h => exact Or.inr (.send hs h)
  | join h => exact Or.inr (.join h)
  | leave sender => exact Or.inr (.leave sender)
  | release => exact Or.inr .release
  | others h => exact Or.inr (.others h)

/-- What happens to the writer is a step that it takes. -/
theorem work_of_after {attention : Attention} {now : Nat} (h : x.after (.work attention now) = some y) : Work x y := by
  obtain ⟨⟨w, c, s⟩, hw, hy⟩ := Option.bind_eq_some_iff.1 h
  obtain rfl := Option.some.inj hy
  exact ⟨hw⟩

/-- What a sender attempts is a step that the writer does not take. -/
theorem aside_of_send {sender : Sender} {item : Intake} (h : x.after (.send sender item) = some y) : Aside owned x y := by
  simp only [after] at h
  split at h
  · rename_i c hc
    split at h
    · rename_i hs
      obtain rfl := Option.some.inj h
      exact .send hs hc
    · exact absurd h (by simp)
  · rename_i c hc
    obtain rfl := Option.some.inj h
    exact .join hc
  · exact absurd h (by simp)

/-- So is the going of the last sender. -/
theorem aside_of_release (h : x.after .release = some y) : Aside owned x y := by
  obtain rfl := Option.some.inj h
  exact .release

/-- And so is a change of the calls that fail. -/
theorem aside_of_fail {inserts puts : Bool} (h : x.after (.fail inserts puts) = some y) : Aside owned x y := by
  obtain rfl := Option.some.inj h
  exact .others ⟨fun r hr => hr, fun p hp => rfl⟩

/-- Whatever happens is a step. -/
theorem step_of_after {e : Happening} (h : x.after e = some y) : Step owned x y := by
  cases e with
  | work attention now => exact (work_of_after h).step
  | send sender item => exact (aside_of_send h).step
  | release => exact (aside_of_release h).step
  | fail inserts puts => exact (aside_of_fail h).step

/-- Whatever happens one after the other makes a run. -/
theorem run_of_afters {es : List Happening} (h : es.foldlM after x = some y) : Run owned x y := by
  induction es generalizing x with
  | nil =>
    obtain rfl := Option.some.inj h
    exact .refl
  | cons e es ih =>
    obtain ⟨z, hz, hy⟩ := Option.bind_eq_some_iff.1 h
    exact .head (step_of_after hz) (ih hy)

/-- The log of accepted items only grows. -/
theorem Step.accepted_prefix (h : Step owned x y) : x.accepted <+: y.accepted := by
  cases h with
  | send hs h => exact List.prefix_append _ _
  | work h => exact List.prefix_refl _
  | join h => exact List.prefix_refl _
  | leave sender => exact List.prefix_refl _
  | release => exact List.prefix_refl _
  | others h => exact List.prefix_refl _

/-- The log of accepted items only grows on every run. -/
theorem Run.accepted_prefix (h : Run owned x y) : x.accepted <+: y.accepted := by
  induction h with
  | refl => exact List.prefix_refl _
  | tail _ hs ih => exact ih.trans hs.accepted_prefix

/-- On every run the writer keeps its topic. -/
theorem Run.topic (h : Run owned x y) : y.writer.topic = x.writer.topic := by
  induction h with
  | refl => rfl
  | tail hr hs ih =>
    refine Eq.trans ?_ ih
    cases hs with
    | work h => exact (turn_of_step h).topic
    | _ => rfl

/-- On every run no row is removed. -/
theorem Run.rows (h : Run owned x y) {r : StoredChange} (hr : r ∈ x.services.store.rows) : r ∈ y.services.store.rows := by
  induction h with
  | refl => exact hr
  | tail _ hs ih =>
    cases hs with
    | work h => exact (turn_of_step h).rows ih
    | others hu => exact hu.rows r ih
    | _ => exact ih

/-- A cursor that the writer owns does not vanish. -/
theorem Run.keepsCursor (h : Run owned x y) {p : Int} (hp : owned p)
    (hx : x.services.cursors.stored x.writer.topic p ≠ none) : y.services.cursors.stored x.writer.topic p ≠ none := by
  induction h with
  | refl => exact hx
  | @tail y z hr hs ih =>
    have htopic : y.writer.topic = x.writer.topic := Run.topic hr
    cases hs with
    | work hw =>
      rcases (turn_of_step hw).cursors with hsame | ⟨e, -, rfl⟩
      · exact hsame ▸ ih
      · cases hf : y.services.cursors.failPuts with
        | true =>
          rw [Services.putCursor_of_fail hf]
          exact ih
        | false =>
          rw [Services.putCursor_of_ok hf, htopic]
          by_cases hpe : p = e.1
          · rw [hpe, Cursors.stored_set_self]
            simp
          · rw [Cursors.stored_set_partition _ _ _ hpe]
            exact ih
    | others hu =>
      rw [← htopic, hu.cursors p hp, htopic]
      exact ih
    | _ => exact ih

end Scene

end Writer

end AuditTrail
