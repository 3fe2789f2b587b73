import AuditTrail.Flow.Writer
import AuditTrail.Proofs.Channel
import AuditTrail.Proofs.Services
import AuditTrail.Proofs.Store

/-!
# What one step of the batch writer does

`Writer.Turn` lists everything that a step of the writer can do, each with what has to hold for it, and `turn_of_step` says that
every step is one of these. All facts about the writer are read off this list.
-/

namespace AuditTrail

namespace Writer

/-! ## What taking an item in changes -/

/-- What an item adds to the offsets that are pending. -/
theorem pending_take (w : Writer) (item : Intake) :
    (w.take item).pending = mark item.partition item.offset w.pending := by
  cases item <;> rfl

/-- What an item adds to the buffer. -/
theorem mem_buffer_take {w : Writer} {item : Intake} {r : StoredChange} :
    r ∈ (w.take item).buffer ↔ r ∈ w.buffer ∨ item = .row r := by
  cases item with
  | row r' => simp [take, eq_comm]
  | skip p o => simp [take]

@[simp] theorem held_take (w : Writer) (item : Intake) : (w.take item).held = w.held := by
  cases item <;> rfl

@[simp] theorem topic_take (w : Writer) (item : Intake) : (w.take item).topic = w.topic := by
  cases item <;> rfl

/-- A writer that has taken an item in is still open, and writes no cursor before it has stored. -/
theorem phase_take {w : Writer} (hp : w.phase = .taking) (item : Intake) :
    (w.take item).phase = .taking ∨ (w.take item).phase = .storing .full := by
  cases item with
  | row r =>
    simp only [take]
    split
    · exact Or.inr rfl
    · exact Or.inl rfl
  | skip p o => exact Or.inl hp

/-! ## Steps -/

/-- What a step of the writer does to the writer, its channel and the services. -/
inductive Turn (senders : Bool) (w : Writer) (c : Channel Intake) (s : Services) :
    Writer → Channel Intake → Services → Prop where
  /-- It takes in the foremost item. -/
  | take {item : Intake} {rest : List Intake} (hp : w.phase = .taking) (hc : c.items = item :: rest) :
      Turn senders w c s (w.take item) { c with items := rest } s
  /-- It finds that nothing will come any more. -/
  | finish (hp : w.phase = .taking) (hc : c.items = []) (hs : senders = false) :
      Turn senders w c s { w with phase := .storing .closed } c s
  /-- It attends to its ticker. -/
  | tick (ticker : Ticker) (hp : w.phase = .taking) :
      Turn senders w c s { w with phase := .storing .tick, ticker := ticker } c s
  /-- It has nothing to store. -/
  | pass {cause : FlushCause} (hp : w.phase = .storing cause) (hb : w.buffer = []) :
      Turn senders w c s { w with phase := .committing cause } c s
  /-- It stores the buffer. -/
  | store {cause : FlushCause} {t : Store} (hp : w.phase = .storing cause) (hb : w.buffer ≠ [])
      (hi : s.store.insert w.buffer = .ok t) : Turn senders w c s { w with phase := .committing cause, buffer := [] } c
        ({ s with store := t }.record (.flush w.buffer.length))
  /-- It drops the buffer and holds its partitions. -/
  | drop {cause : FlushCause} {e : Error} (hp : w.phase = .storing cause) (hb : w.buffer ≠ [])
      (hi : s.store.insert w.buffer = .error e) :
      Turn senders w c s { w with phase := .committing cause, buffer := [], held := hold w.held w.buffer } c
        (s.record (.flushFailure w.buffer.length))
  /-- It leaves out the cursor of a partition that is held. -/
  | skip {cause : FlushCause} {e : Int × Int} {rest : List (Int × Int)} (hp : w.phase = .committing cause)
      (hq : w.pending = e :: rest) (hh : e.1 ∈ w.held) : Turn senders w c s { w with pending := rest } c s
  /-- It writes a cursor. -/
  | put {cause : FlushCause} {e : Int × Int} {rest : List (Int × Int)} (hp : w.phase = .committing cause)
      (hq : w.pending = e :: rest) (hh : e.1 ∉ w.held) :
      Turn senders w c s { w with pending := rest } c (s.putCursor w.topic e.1 (e.2 + 1))
  /-- It goes back to taking in. -/
  | resume {cause : FlushCause} (ticker : Ticker) (hp : w.phase = .committing cause) (hq : w.pending = [])
      (hc : cause ≠ .closed) : Turn senders w c s { w with phase := .taking, ticker := ticker } c s
  /-- It stops, and nothing can be sent to it any more. -/
  | stop (hp : w.phase = .committing .closed) (hq : w.pending = []) :
      Turn senders w c s { w with phase := .stopped } c.close s

namespace TurnAux

/-- A step of a writer that takes in. -/
theorem turn_of_taking {attention : Attention} {now : Nat} {senders : Bool} {w w' : Writer} {c c' : Channel Intake}
    {s s' : Services} (hp : w.phase = .taking) (h : w.step attention now senders c s = some (w', c', s')) :
    Turn senders w c s w' c' s' := by
  simp only [step, hp] at h
  cases attention with
  | intake =>
    simp only at h
    split at h
    · rename_i item c₁ ht
      obtain ⟨rest, hc, rfl⟩ := Channel.take?_eq_some ht
      simp only [Option.some.injEq, Prod.mk.injEq] at h
      obtain ⟨rfl, rfl, rfl⟩ := h
      exact Turn.take hp hc
    · rename_i ht
      split at h
      · exact absurd h (by simp)
      · rename_i hs
        simp only [Option.some.injEq, Prod.mk.injEq] at h
        obtain ⟨rfl, rfl, rfl⟩ := h
        exact Turn.finish hp (Channel.take?_eq_none ht) (by simpa using hs)
  | ticker =>
    simp only at h
    split at h
    · simp only [Option.some.injEq, Prod.mk.injEq] at h
      obtain ⟨rfl, rfl, rfl⟩ := h
      exact Turn.tick _ hp
    · exact absurd h (by simp)

/-- A step of a writer that stores. -/
theorem turn_of_storing {senders : Bool} {w : Writer} {c : Channel Intake} {s : Services} {cause : FlushCause}
    (hp : w.phase = .storing cause) : Turn senders w c s (w.store cause s).1 c (w.store cause s).2 := by
  unfold Writer.store
  by_cases hb : w.buffer = []
  · simp only [hb, List.isEmpty_nil, if_true]
    exact hb ▸ Turn.pass hp hb
  · have he : w.buffer.isEmpty = false := by simpa using hb
    simp only [he, Bool.false_eq_true, if_false]
    split
    · rename_i t hi
      exact Turn.store hp hb hi
    · rename_i e hi
      exact Turn.drop hp hb hi

/-- A step of a writer that writes cursors. -/
theorem turn_of_committing {senders : Bool} {w : Writer} {c : Channel Intake} {s : Services} {cause : FlushCause}
    (now : Nat) (hp : w.phase = .committing cause) :
    Turn senders w c s (w.commit cause now s).1
      (if (w.commit cause now s).1.isStopped then c.close else c) (w.commit cause now s).2 := by
  unfold Writer.commit
  split
  · rename_i p o rest hq
    have hns : Writer.isStopped { w with pending := rest } = false := by simp [isStopped, hp]
    by_cases hh : p ∈ w.held
    · have hc : w.held.contains p = true := by simpa using hh
      simp only [hc, if_true, hns, Bool.false_eq_true, if_false]
      exact Turn.skip hp hq hh
    · have hc : w.held.contains p = false := by simpa using hh
      simp only [hc, hns, Bool.false_eq_true, if_false]
      exact Turn.put hp hq hh
  · rename_i hq
    cases cause with
    | full => exact Turn.resume _ hp hq (by decide)
    | tick => exact Turn.resume w.ticker hp hq (by decide)
    | closed => exact Turn.stop hp hq

end TurnAux

open TurnAux

/-- Every step of the writer is in the list. -/
theorem turn_of_step {attention : Attention} {now : Nat} {senders : Bool} {w w' : Writer} {c c' : Channel Intake}
    {s s' : Services} (h : w.step attention now senders c s = some (w', c', s')) : Turn senders w c s w' c' s' := by
  cases hp : w.phase with
  | taking => exact turn_of_taking hp h
  | storing cause =>
    simp only [step, hp, Option.some.injEq, Prod.mk.injEq] at h
    obtain ⟨rfl, rfl, rfl⟩ := h
    exact turn_of_storing hp
  | committing cause =>
    simp only [step, hp, Option.some.injEq, Prod.mk.injEq] at h
    obtain ⟨rfl, rfl, rfl⟩ := h
    exact turn_of_committing now hp
  | stopped => simp [step, hp] at h

variable {senders : Bool} {w w' : Writer} {c c' : Channel Intake} {s s' : Services}

/-- Only a writer at work takes a step. -/
theorem Turn.running (h : Turn senders w c s w' c' s') : w.isStopped = false := by
  cases h <;> simp_all [isStopped]

/-- The writer keeps its topic. -/
theorem Turn.topic (h : Turn senders w c s w' c' s') : w'.topic = w.topic := by
  cases h with
  | take hp hc => exact topic_take w _
  | _ => rfl

/-- The writer puts nothing into its channel. -/
theorem Turn.entered (h : Turn senders w c s w' c' s') : c.entered c' = [] := by
  cases h with
  | take hp hc => exact Channel.entered_rest hc
  | stop hp hq => exact Channel.entered_close c
  | _ => exact Channel.entered_self c

/-- The writer leaves the queue alone. -/
theorem Turn.queue (h : Turn senders w c s w' c' s') : s'.queue = s.queue := by
  cases h with
  | put hp hq hh => rw [Services.putCursor_queue]
  | _ => rfl

/-- The writer hands nothing to the handler. -/
theorem Turn.handler (h : Turn senders w c s w' c' s') : s'.handler = s.handler := by
  cases h with
  | put hp hq hh => rw [Services.putCursor_handler]
  | _ => rfl

/-- The writer writes no cursor, or that of a partition that is pending. -/
theorem Turn.cursors (h : Turn senders w c s w' c' s') :
    s'.cursors = s.cursors ∨ ∃ e ∈ w.pending, s' = s.putCursor w.topic e.1 (e.2 + 1) := by
  cases h with
  | store hp hb hi => exact Or.inl rfl
  | put hp hq hh => exact Or.inr ⟨_, hq ▸ List.mem_cons_self, rfl⟩
  | _ => exact Or.inl rfl

/-- The writer removes no row. -/
theorem Turn.rows (h : Turn senders w c s w' c' s') {r : StoredChange} (hr : r ∈ s.store.rows) : r ∈ s'.store.rows := by
  cases h with
  | store hp hb hi =>
    obtain ⟨-, rfl⟩ := Store.insert_eq_ok hi
    exact List.mem_append_left _ hr
  | put hp hq hh => rwa [Services.putCursor_store]
  | _ => exact hr

/-- The writer leaves the transactions alone. -/
theorem Turn.transactions (h : Turn senders w c s w' c' s') : s'.store.transactions = s.store.transactions := by
  cases h with
  | store hp hb hi =>
    obtain ⟨-, rfl⟩ := Store.insert_eq_ok hi
    rfl
  | put hp hq hh => rw [Services.putCursor_store]
  | _ => rfl

/-- The writer changes no call to one that fails or to one that does not. -/
theorem Turn.sameFaults (h : Turn senders w c s w' c' s') : s.SameFaults s' := by
  cases h with
  | store hp hb hi =>
    obtain ⟨-, rfl⟩ := Store.insert_eq_ok hi
    exact ⟨rfl, rfl, rfl, rfl, rfl, rfl⟩
  | put hp hq hh => exact Services.sameFaults_putCursor s _ _ _
  | drop hp hb hi => exact (Services.counted_record s _).sameFaults
  | _ => exact (Services.counted_self s).sameFaults

end Writer

end AuditTrail
