import AuditTrail.Proofs.Writer.Accounting

/-!
# The batch writer by the clock

A run of the writer on a clock. The writer takes its steps in no time, as do those who send to it; time goes by only while the writer
can take no step, and never past the moment at which it goes on by itself (`Scene.Clocked`). A run comes with a timeline, on which
everything the writer does is noted with its time. What a step does to the writer and to the timeline is listed by `Beat`.
-/

namespace AuditTrail

/-- The time between two ticks. -/
def WriterSettings.period (s : WriterSettings) : Nat := max s.flushInterval 1

/-- The number of rows at which a batch is full. -/
def WriterSettings.limit (s : WriterSettings) : Nat := max 1 s.batchSize

namespace Writer

/-- How the writer is done with the offsets of a partition. -/
inductive Settling where
  | written
  /-- The cursor could not be written. -/
  | failed
  /-- The partition is held. -/
  | held
  deriving DecidableEq

/-- What the writer does. -/
inductive Event where
  | took (item : Intake)
  | tick
  /-- It finds that nothing will come any more. -/
  | close
  /-- It tries to store a batch. -/
  | insert (cause : FlushCause) (flush : Flush)
  /-- It is done with the offsets of a partition below the next one. -/
  | settle (partition next : Int) (outcome : Settling)
  deriving DecidableEq

/-- What has been done, each with its time, the first in front. -/
abbrev Timeline := List (Nat × Event)

/-- What the next step of the writer does, if it is anything to be noted. -/
def event (attention : Attention) (w : Writer) (c : Channel Intake) (s : Services) : Option Event :=
  match w.phase with
  | .taking =>
    match attention with
    | .intake => some (match c.items.head? with
      | some item => .took item
      | none => .close)
    | .ticker => some .tick
  | .storing cause => (w.flushes s).head?.map (.insert cause)
  | .committing _ =>
    w.pending.head?.map fun e => .settle e.1 (e.2 + 1)
      (if w.held.contains e.1 then .held
        else if (s.cursors.put w.topic e.1 (e.2 + 1)).toBool then .written else .failed)
  | .stopped => none

/-- A timeline with what may have to be noted. -/
def note (now : Nat) (log : Timeline) (e : Option Event) : Timeline := log ++ (e.map fun e => (now, e)).toList

@[simp] theorem note_none (now : Nat) (log : Timeline) : note now log none = log := List.append_nil log

@[simp] theorem note_some (now : Nat) (log : Timeline) (e : Event) : note now log (some e) = log ++ [(now, e)] := rfl

/-! ## What can be read off a timeline -/

/-- The rows that were taken in. -/
def rowsTaken (log : Timeline) : List StoredChange :=
  log.flatMap fun e => match e.2 with
    | .took item => Intake.rowsOf [item]
    | _ => []

/-- The attempts to store. -/
def attempts (log : Timeline) : List Flush :=
  log.filterMap fun e => match e.2 with
    | .insert _ f => some f
    | _ => none

/-- The first attempt to store, with its time. -/
def firstAttempt? (log : Timeline) : Option (Nat × Flush) :=
  log.findSome? fun e => match e.2 with
    | .insert _ f => some (e.1, f)
    | _ => none

/-- The rows that were taken in since the last attempt to store. -/
def waitingRows (log : Timeline) : List StoredChange :=
  log.foldl (fun rows e => match e.2 with
    | .took item => rows ++ Intake.rowsOf [item]
    | .insert _ _ => []
    | _ => rows) []

/-- The latest of the start, the last tick and the last attempt to store a full batch. -/
def origin (start : Nat) (log : Timeline) : Nat :=
  log.foldl (fun o e => match e.2 with
    | .tick => max o e.1
    | .insert .full _ => max o e.1
    | _ => o) start

/-- The flush that the last event brings about, with its time: the row that makes a batch full, a tick, or the end of the intake. -/
def flushDue? (limit : Nat) (log : Timeline) : Option (Nat × FlushCause) :=
  match log.getLast? with
  | some (t, .took (.row _)) => if limit ≤ (waitingRows log).length then some (t, .full) else none
  | some (t, .tick) => some (t, .tick)
  | some (t, .close) => some (t, .closed)
  | _ => none

section

variable (start limit t : Nat) (log : Timeline) (e : Event)

theorem rowsTaken_append (log' : Timeline) : rowsTaken (log ++ log') = rowsTaken log ++ rowsTaken log' := List.flatMap_append

theorem waitingRows_concat : waitingRows (log ++ [(t, e)]) = match e with
    | .took item => waitingRows log ++ Intake.rowsOf [item]
    | .insert _ _ => []
    | _ => waitingRows log := by
  rw [waitingRows, List.foldl_append]
  rfl

theorem firstAttempt?_concat : firstAttempt? (log ++ [(t, e)]) = (firstAttempt? log).or (match e with
    | .insert _ f => some (t, f)
    | _ => none) := by
  rw [firstAttempt?, List.findSome?_append]
  cases e <;> rfl

theorem origin_concat : origin start (log ++ [(t, e)]) = match e with
    | .tick => max (origin start log) t
    | .insert .full _ => max (origin start log) t
    | _ => origin start log := by
  rw [origin, List.foldl_append]
  rfl

theorem flushDue?_concat : flushDue? limit (log ++ [(t, e)]) = match e with
    | .took (.row _) => if limit ≤ (waitingRows (log ++ [(t, e)])).length then some (t, .full) else none
    | .tick => some (t, .tick)
    | .close => some (t, .closed)
    | _ => none := by
  rw [flushDue?, List.getLast?_concat]
  rcases e with ⟨_ | _⟩ | _ | _ | _ | _ <;> rfl

/-- A flush of a full batch is due only if the batch is full. -/
theorem limit_le_of_full {limit t : Nat} {log : Timeline} (h : flushDue? limit log = some (t, .full)) :
    limit ≤ (waitingRows log).length := by
  unfold flushDue? at h
  split at h
  · split at h
    · assumption
    · exact absurd h (by simp)
  · exact absurd h (by simp)
  · exact absurd h (by simp)
  · exact absurd h (by simp)

/-- A flush is brought about by a row, by a tick or by the end, each with its own cause. -/
theorem cause_of_due {limit t t' : Nat} {log : Timeline} {e : Event} {cause : FlushCause}
    (h : flushDue? limit (log ++ [(t', e)]) = some (t, cause)) :
    (∃ r, e = .took (.row r)) ∧ cause = .full ∨ e = .tick ∧ cause = .tick ∨ e = .close ∧ cause = .closed := by
  rw [flushDue?_concat] at h
  split at h
  · split at h
    · exact .inl ⟨⟨_, rfl⟩, (Prod.mk.inj (Option.some.inj h)).2.symm⟩
    · exact absurd h (by simp)
  · exact .inr (.inl ⟨rfl, (Prod.mk.inj (Option.some.inj h)).2.symm⟩)
  · exact .inr (.inr ⟨rfl, (Prod.mk.inj (Option.some.inj h)).2.symm⟩)
  · exact absurd h (by simp)

end

/-! ## What a step does -/

/-- What a step of the writer does to the writer at a moment, with the items of its channel, and what is noted of it. -/
inductive Beat (now : Nat) (items : List Intake) (w : Writer) : Writer → Option Event → Prop where
  | take {item : Intake} {rest : List Intake} (hp : w.phase = .taking) (hc : items = item :: rest) :
      Beat now items w (w.take item) (some (.took item))
  | finish (hp : w.phase = .taking) : Beat now items w { w with phase := .storing .closed } (some .close)
  | tick (hp : w.phase = .taking) (hdue : w.ticker.due ≤ now) :
      Beat now items w { w with phase := .storing .tick, ticker := w.ticker.tick now } (some .tick)
  | pass {cause : FlushCause} (hp : w.phase = .storing cause) (hb : w.buffer = []) :
      Beat now items w { w with phase := .committing cause } none
  | insert {cause : FlushCause} (stored : Bool) (held : List Int) (hp : w.phase = .storing cause) (hb : w.buffer ≠ []) :
      Beat now items w { w with phase := .committing cause, buffer := [], held := held } (some (.insert cause ⟨w.buffer, stored⟩))
  | settle {cause : FlushCause} {e : Int × Int} {rest : List (Int × Int)} (outcome : Settling)
      (hp : w.phase = .committing cause) (hq : w.pending = e :: rest) :
      Beat now items w { w with pending := rest } (some (.settle e.1 (e.2 + 1) outcome))
  | restart (hp : w.phase = .committing .full) (hq : w.pending = []) :
      Beat now items w { w with phase := .taking, ticker := w.ticker.reset now } none
  | resume (hp : w.phase = .committing .tick) (hq : w.pending = []) : Beat now items w { w with phase := .taking } none
  | stop (hp : w.phase = .committing .closed) (hq : w.pending = []) : Beat now items w { w with phase := .stopped } none

namespace ClockAux

variable {attention : Attention} {now : Nat} {senders : Bool} {w w' : Writer} {c c' : Channel Intake} {s s' : Services}

/-- A step of a writer that takes in. -/
theorem beat_of_taking (hp : w.phase = .taking) (h : w.step attention now senders c s = some (w', c', s')) :
    Beat now c.items w w' (w.event attention c s) := by
  simp only [step, hp] at h
  cases attention with
  | intake =>
    simp only at h
    split at h
    · rename_i item c₁ ht
      obtain ⟨rest, hc, rfl⟩ := Channel.take?_eq_some ht
      obtain ⟨rfl, -⟩ := Prod.mk.inj (Option.some.inj h)
      rw [event, hp, hc]
      exact .take hp rfl
    · rename_i ht
      split at h
      · exact absurd h (by simp)
      · obtain ⟨rfl, -⟩ := Prod.mk.inj (Option.some.inj h)
        rw [event, hp, Channel.take?_eq_none ht]
        exact .finish hp
  | ticker =>
    simp only at h
    split at h
    · rename_i hdue
      obtain ⟨rfl, -⟩ := Prod.mk.inj (Option.some.inj h)
      rw [event, hp]
      exact .tick hp (of_decide_eq_true hdue)
    · exact absurd h (by simp)

/-- A step of a writer that stores. -/
theorem beat_of_storing {cause : FlushCause} (hp : w.phase = .storing cause)
    (h : w.step attention now senders c s = some (w', c', s')) : Beat now c.items w w' (w.event attention c s) := by
  simp only [step, hp, Option.some.injEq, Prod.mk.injEq] at h
  obtain ⟨rfl, -, -⟩ := h
  simp only [event, hp]
  by_cases hb : w.buffer = []
  · rw [AccountingAux.flushes_of_empty hb, Writer.store, if_pos (by simp [hb])]
    exact .pass hp hb
  · rw [AccountingAux.flushes_of_storing hp hb, Writer.store, if_neg (by simpa using hb)]
    split
    · exact .insert _ w.held hp hb
    · exact .insert _ (hold w.held w.buffer) hp hb

/-- A step of a writer that writes cursors. -/
theorem beat_of_committing {cause : FlushCause} (hp : w.phase = .committing cause)
    (h : w.step attention now senders c s = some (w', c', s')) : Beat now c.items w w' (w.event attention c s) := by
  simp only [step, hp, Option.some.injEq, Prod.mk.injEq] at h
  obtain ⟨rfl, -, -⟩ := h
  simp only [event, hp]
  unfold Writer.commit
  split
  · rename_i p o rest hq
    rw [hq]
    exact .settle _ hp hq
  · rename_i hq
    rw [List.head?_eq_none_iff.2 hq]
    cases cause with
    | full => exact .restart hp hq
    | tick => exact .resume hp hq
    | closed => exact .stop hp hq

end ClockAux

open ClockAux

/-- Every step of the writer is in the list. -/
theorem beat_of_step {attention : Attention} {now : Nat} {senders : Bool} {w w' : Writer} {c c' : Channel Intake}
    {s s' : Services} (h : w.step attention now senders c s = some (w', c', s')) :
    Beat now c.items w w' (w.event attention c s) := by
  cases hp : w.phase with
  | taking => exact beat_of_taking hp h
  | storing cause => exact beat_of_storing hp h
  | committing cause => exact beat_of_committing hp h
  | stopped => simp [step, hp] at h

/-- A writer that can take no step takes in, or has stopped. -/
theorem waits_of_idle {now : Nat} {senders : Bool} {w : Writer} {c : Channel Intake} {s : Services}
    (h : ∀ attention, w.step attention now senders c s = none) : w.phase = .taking ∨ w.phase = .stopped := by
  cases hp : w.phase with
  | taking => exact .inl rfl
  | storing cause => exact absurd (h .intake) (by simp [step, hp])
  | committing cause => exact absurd (h .intake) (by simp [step, hp])
  | stopped => exact .inr rfl

namespace Scene

/-- A run of the writer on a clock, with its time and its timeline. Others may do anything at any time. Time goes by while the writer
can take no step, at most until it goes on by itself. -/
inductive Clocked (owned : Int → Prop) (first : Scene) (start : Nat) : Scene → Nat → Timeline → Prop where
  | start : Clocked owned first start first start []
  | work {x : Scene} {now : Nat} {log : Timeline} {attention : Attention} {w : Writer} {c : Channel Intake} {s : Services}
      (hx : Clocked owned first start x now log)
      (h : x.writer.step attention now x.handles x.channel x.services = some (w, c, s)) :
      Clocked owned first start { x with
        writer := w, channel := c, services := s
        batches := x.batches ++ x.writer.stores x.services
        written := x.written ++ x.writer.writes x.services } now
        (note now log (x.writer.event attention x.channel x.services))
  | aside {x y : Scene} {now : Nat} {log : Timeline} (hx : Clocked owned first start x now log) (h : Aside owned x y) :
      Clocked owned first start y now log
  | wait {x : Scene} {now later : Nat} {log : Timeline} (hx : Clocked owned first start x now log)
      (hidle : ∀ attention, x.writer.step attention now x.handles x.channel x.services = none) (hlater : now ≤ later)
      (hdue : ∀ t ∈ x.writer.due?, later ≤ t) : Clocked owned first start x later log

end Scene

end Writer

end AuditTrail
