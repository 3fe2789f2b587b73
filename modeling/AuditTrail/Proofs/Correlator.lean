import AuditTrail.Flow.Correlator
import AuditTrail.Proofs.Channel
import AuditTrail.Proofs.Services
import AuditTrail.Proofs.Store

/-!
# What one step of the correlator does

`Correlation.Turn` lists what a step of the correlation of a marker can do, `Correlator.Turn` what a step of the correlator can.
The rows of a record are those that the store held at one look-up, and a record is sent before its transaction is written.
-/

namespace AuditTrail

namespace Correlation

/-- What a step of a correlation does to it, the delivery channel and the services. -/
inductive Turn (sender : Sender) (x : Correlation) (d : Channel AuditRecord) (s : Services) :
    Correlation → Channel AuditRecord → Services → Prop where
  /-- It leaves a marker with a blank GTID alone. -/
  | skip {t : Services} (hp : x.phase = .starting) (hb : Text.blank x.marker.gtid = true) (ht : s.Counted t) :
      Turn sender x d s { x with phase := .finished .skipped } d t
  /-- It finds that the transaction is processed already. -/
  | known {t : Services} {u : Transaction} (hp : x.phase = .starting) (hb : Text.blank x.marker.gtid = false)
      (hu : s.store.transaction x.marker.gtid = .ok (some u)) (hs : u.isProcessed = true) (ht : s.Counted t) :
      Turn sender x d s { x with phase := .finished .alreadyProcessed } d t
  /-- It is going to look for rows. -/
  | proceed (hp : x.phase = .starting) (hb : Text.blank x.marker.gtid = false)
      (hu : ∀ u, s.store.transaction x.marker.gtid = .ok (some u) → u.isProcessed = false) :
      Turn sender x d s { x with phase := .looking 1 } d s
  /-- It finds rows. -/
  | found {attempt : Nat} {rows : List StoredChange} {t : Services} (hp : x.phase = .looking attempt)
      (hrows : s.store.rowsOf x.marker.gtid = .ok rows) (hne : rows ≠ []) (ht : s.Counted t) :
      Turn sender x d s { x with phase := .sending rows } d t
  /-- It finds none, and waits for the next attempt. -/
  | await {attempt due : Nat} {t : Services} (hp : x.phase = .looking attempt) (hlt : attempt < x.attempts)
      (hrows : ∀ rows, s.store.rowsOf x.marker.gtid = .ok rows → rows = []) (ht : s.Counted t) :
      Turn sender x d s { x with phase := .waiting (attempt + 1) due } d t
  /-- It finds none at its last attempt. -/
  | exhaust {attempt : Nat} {t : Services} (hp : x.phase = .looking attempt) (hle : x.attempts ≤ attempt)
      (hrows : ∀ rows, s.store.rowsOf x.marker.gtid = .ok rows → rows = []) (ht : s.Counted t) :
      Turn sender x d s { x with phase := .deferring } d t
  /-- It has waited. -/
  | again {attempt due : Nat} (hp : x.phase = .waiting attempt due) :
      Turn sender x d s { x with phase := .looking attempt } d s
  /-- It finds that nobody receives its record. -/
  | closed {rows : List StoredChange} {t : Services} (hp : x.phase = .sending rows) (hd : d.received = false)
      (ht : s.Counted t) : Turn sender x d s { x with phase := .settling rows.length } d t
  /-- It joins the queue of the delivery channel. -/
  | join {rows : List StoredChange} (hp : x.phase = .sending rows)
      (hd : d.attempt sender (recordOf x.marker rows) = .joined (d.join sender)) :
      Turn sender x d s x (d.join sender) s
  /-- It sends its record. -/
  | send {rows : List StoredChange} (hp : x.phase = .sending rows)
      (hd : d.attempt sender (recordOf x.marker rows) = .sent (d.push sender (recordOf x.marker rows))) :
      Turn sender x d s { x with phase := .settling rows.length } (d.push sender (recordOf x.marker rows)) s
  /-- It writes the transaction as processed, and is through. -/
  | settle {rows : Nat} {t : Services} (hp : x.phase = .settling rows) (ht : (x.write .processed s).Counted t) :
      Turn sender x d s { x with phase := .finished (.resolved rows) } d t
  /-- It writes the transaction as unprocessed, and is through. -/
  | defer {t : Services} (hp : x.phase = .deferring) (ht : (x.write .unprocessed s).Counted t) :
      Turn sender x d s { x with phase := .finished .deferred } d t

namespace TurnAux

/-- What the first step of a correlation does. -/
theorem turn_of_begin (sender : Sender) {x : Correlation} (d : Channel AuditRecord) (s : Services)
    (hp : x.phase = .starting) : Turn sender x d s (x.begin s).1 d (x.begin s).2 := by
  unfold begin
  by_cases hb : Text.blank x.marker.gtid = true
  · rw [if_pos hb]
    exact Turn.skip hp hb (Services.counted_record s _)
  · rw [if_neg hb]
    have hb' : Text.blank x.marker.gtid = false := by simpa using hb
    split
    · rename_i u hu
      by_cases hs : u.isProcessed = true
      · rw [if_pos hs]
        exact Turn.known hp hb' hu hs (Services.counted_record s _)
      · rw [if_neg hs]
        refine Turn.proceed hp hb' ?_
        intro v hv
        obtain rfl : u = v := by simpa [hu] using hv
        simpa using hs
    · rename_i hn
      exact Turn.proceed hp hb' fun u hu => absurd hu (hn u)

/-- What a look-up does. -/
theorem turn_of_look (sender : Sender) {x : Correlation} {attempt : Nat} (now : Nat) (d : Channel AuditRecord)
    (s : Services) (hp : x.phase = .looking attempt) :
    Turn sender x d s (x.look attempt now s).1 d (x.look attempt now s).2 := by
  have hmiss : ∀ {t : Services}, (∀ rows, s.store.rowsOf x.marker.gtid = .ok rows → rows = []) → s.Counted t →
      Turn sender x d s { x with
        phase := if attempt < x.attempts then .waiting (attempt + 1) (now + x.settings.retryInterval)
          else .deferring } d t := by
    intro t hrows ht
    by_cases hlt : attempt < x.attempts
    · rw [if_pos hlt]
      exact Turn.await hp hlt hrows ht
    · rw [if_neg hlt]
      exact Turn.exhaust hp (Nat.le_of_not_lt hlt) hrows ht
  unfold look
  simp only [Services.record_store]
  split
  · rename_i hrows
    exact hmiss (by simp [hrows]) (Services.counted_record s _)
  · rename_i rows hne hrows
    exact Turn.found hp hrows hne (Services.counted_record s _)
  · rename_i e hrows
    exact hmiss (by simp [hrows]) ((Services.counted_record s _).trans (Services.counted_record _ _))

end TurnAux

open TurnAux

/-- Every step of a correlation is in the list. -/
theorem turn_of_step {sender : Sender} {now : Nat} {x x' : Correlation} {d d' : Channel AuditRecord} {s s' : Services}
    (h : x.step sender now d s = some (x', d', s')) : Turn sender x d s x' d' s' := by
  unfold step at h
  split at h
  · rename_i hp
    simp only [Option.some.injEq, Prod.mk.injEq] at h
    obtain ⟨rfl, rfl, rfl⟩ := h
    exact turn_of_begin sender d s hp
  · rename_i attempt hp
    simp only [Option.some.injEq, Prod.mk.injEq] at h
    obtain ⟨rfl, rfl, rfl⟩ := h
    exact turn_of_look sender now d s hp
  · rename_i attempt due hp
    split at h
    · simp only [Option.some.injEq, Prod.mk.injEq] at h
      obtain ⟨rfl, rfl, rfl⟩ := h
      exact Turn.again hp
    · exact absurd h (by simp)
  · rename_i rows hp
    split at h
    · rename_i hd
      simp only [Option.some.injEq, Prod.mk.injEq] at h
      obtain ⟨rfl, rfl, rfl⟩ := h
      exact Turn.closed hp (Channel.attempt_closed hd) (Services.counted_record s _)
    · rename_i c hd
      obtain ⟨-, rfl⟩ := Channel.attempt_joined hd
      simp only [Option.some.injEq, Prod.mk.injEq] at h
      obtain ⟨rfl, rfl, rfl⟩ := h
      exact Turn.join hp hd
    · rename_i c hd
      obtain ⟨-, rfl⟩ := Channel.attempt_sent hd
      simp only [Option.some.injEq, Prod.mk.injEq] at h
      obtain ⟨rfl, rfl, rfl⟩ := h
      exact Turn.send hp hd
    · exact absurd h (by simp)
  · rename_i rows hp
    simp only [Option.some.injEq, Prod.mk.injEq] at h
    obtain ⟨rfl, rfl, rfl⟩ := h
    exact Turn.settle hp (Services.counted_record _ _)
  · rename_i hp
    simp only [Option.some.injEq, Prod.mk.injEq] at h
    obtain ⟨rfl, rfl, rfl⟩ := h
    exact Turn.defer hp (Services.counted_record _ _)
  · exact absurd h (by simp)

/-- Writing the transaction of the marker changes transactions and metrics only. -/
theorem updated_write (x : Correlation) (status : Status) (s : Services) : s.Updated (x.write status s) := by
  unfold write
  split
  · rename_i stored hu
    obtain ⟨-, rfl⟩ := Store.upsert_eq_ok hu
    exact ⟨_, _, _, rfl⟩
  · exact (Services.counted_record s _).updated

/-- Writing the transaction of the marker makes at most that transaction processed, and only when it is written as such. -/
theorem processed_write {x : Correlation} {status : Status} {s : Services} {g : String}
    (h : (x.write status s).store.processed g = true) :
    s.store.processed g = true ∨ x.marker.gtid = g ∧ status = .processed := by
  unfold write at h
  split at h
  · rename_i stored hu
    simp only [Store.processed_upsert hu, Bool.or_eq_true, List.any_cons, List.any_nil, Bool.or_false,
      Bool.and_eq_true, beq_iff_eq] at h
    refine h.imp_right fun h => ⟨h.1, ?_⟩
    simpa [Transaction.ofMarker, Transaction.isProcessed] using h.2
  · exact Or.inl h

/-- Writing the transaction of the marker only ever goes forward. -/
theorem forward_write (x : Correlation) (status : Status) (s : Services) :
    Store.Forward s.store (x.write status s).store := by
  unfold write
  split
  · rename_i stored hu
    exact Store.forward_upsert hu
  · exact .rfl

/-- Unless upserts fail, writing the transaction of the marker as processed makes it so. -/
theorem processed_write_self (x : Correlation) {s : Services} (h : s.store.failUpserts = false) :
    (x.write .processed s).store.processed x.marker.gtid = true := by
  unfold write
  split
  · rename_i stored hu
    rw [Store.processed_upsert hu]
    simp [Transaction.ofMarker, Transaction.isProcessed]
  · rename_i e hu
    exact absurd hu (by simp [Store.upsert, h])

/-- Unless upserts fail, writing the transaction of the marker makes it be there. -/
theorem holds_write (x : Correlation) (status : Status) {s : Services} (h : s.store.failUpserts = false) :
    (x.write status s).store.Holds x.marker.gtid := by
  unfold write
  split
  · rename_i stored hu
    exact (Store.holds_upsert hu).2 (Or.inr ⟨_, List.mem_singleton_self _, rfl⟩)
  · rename_i e hu
    exact absurd hu (by simp [Store.upsert, h])

/-- No step of a correlation changes its marker. -/
theorem Turn.marker {sender : Sender} {x x' : Correlation} {d d' : Channel AuditRecord} {s t : Services}
    (h : Turn sender x d s x' d' t) : x'.marker = x.marker := by
  cases h <;> rfl

/-- A correlation only ever goes forward with the transactions. -/
theorem Turn.forward {sender : Sender} {x x' : Correlation} {d d' : Channel AuditRecord} {s t : Services}
    (h : Turn sender x d s x' d' t) : Store.Forward s.store t.store := by
  cases h with
  | skip hp hb ht => exact ht.store ▸ .rfl
  | known hp hb hu hs ht => exact ht.store ▸ .rfl
  | found hp hrows hne ht => exact ht.store ▸ .rfl
  | await hp hlt hrows ht => exact ht.store ▸ .rfl
  | exhaust hp hle hrows ht => exact ht.store ▸ .rfl
  | closed hp hd ht => exact ht.store ▸ .rfl
  | settle hp ht => exact ht.store ▸ forward_write x _ s
  | defer hp ht => exact ht.store ▸ forward_write x _ s
  | _ => exact .rfl

/-- A correlation makes at most the transaction of its marker processed, and only when it writes it as such. -/
theorem Turn.processed {sender : Sender} {x x' : Correlation} {d d' : Channel AuditRecord} {s t : Services}
    (h : Turn sender x d s x' d' t) {g : String} (hg : x.marker.gtid = g → ∀ rows, x.phase ≠ .settling rows) :
    t.store.processed g = s.store.processed g := by
  rw [Bool.eq_iff_iff]
  refine ⟨?_, h.forward.processed g⟩
  intro hp
  cases h with
  | skip hs hb ht => exact ht.store ▸ hp
  | known hs hb hu hq ht => exact ht.store ▸ hp
  | found hs hrows hne ht => exact ht.store ▸ hp
  | await hs hlt hrows ht => exact ht.store ▸ hp
  | exhaust hs hle hrows ht => exact ht.store ▸ hp
  | closed hs hd ht => exact ht.store ▸ hp
  | settle hs ht =>
    rw [ht.store] at hp
    exact (processed_write hp).resolve_right fun he => hg he.1 _ hs
  | defer hs ht =>
    rw [ht.store] at hp
    exact (processed_write hp).resolve_right fun he => absurd he.2 (by decide)
  | _ => exact hp

/-- A correlation changes transactions and metrics only. -/
theorem Turn.updated {sender : Sender} {x x' : Correlation} {d d' : Channel AuditRecord} {s t : Services}
    (h : Turn sender x d s x' d' t) : s.Updated t := by
  cases h with
  | skip hp hb ht => exact ht.updated
  | known hp hb hu hs ht => exact ht.updated
  | found hp hrows hne ht => exact ht.updated
  | await hp hlt hrows ht => exact ht.updated
  | exhaust hp hle hrows ht => exact ht.updated
  | closed hp hd ht => exact ht.updated
  | settle hp ht => exact (updated_write x _ s).trans ht.updated
  | defer hp ht => exact (updated_write x _ s).trans ht.updated
  | _ => exact (Services.counted_self s).updated

end Correlation

namespace Correlator

/-- What a step of the correlator does to it, its channel, the delivery channel and the services. -/
inductive Turn (senders : Bool) (c : Correlator) (m : Channel Envelope) (d : Channel AuditRecord) (s : Services) :
    Correlator → Channel Envelope → Channel AuditRecord → Services → Prop where
  /-- It stops while it waits for an envelope: it has been told to, or nothing will come any more. -/
  | stop (hp : c.phase = .idle) (hs : c.signalled = true ∨ m.items = [] ∧ senders = false) :
      Turn senders c m d s { c with phase := .stopped } m.close d s
  /-- It takes an envelope with a marker. -/
  | take {e : Envelope} {marker : Marker} {rest : List Envelope} (hp : c.phase = .idle) (hm : m.items = e :: rest)
      (he : e.marker = some marker) : Turn senders c m d s
        { c with phase := .correlating e ⟨c.settings, marker, .starting⟩ } { m with items := rest } d s
  /-- It takes an envelope without a marker. -/
  | pass {e : Envelope} {rest : List Envelope} (hp : c.phase = .idle) (hm : m.items = e :: rest)
      (he : e.marker = none) : Turn senders c m d s { c with phase := .committing e } { m with items := rest } d s
  /-- It goes on correlating its marker. -/
  | work {e : Envelope} {x x' : Correlation} {d' : Channel AuditRecord} {t : Services}
      (hp : c.phase = .correlating e x) (hx : Correlation.Turn .correlator x d s x' d' t) :
      Turn senders c m d s { c with phase := .correlating e x' } m d' t
  /-- It is through with its marker. -/
  | done {e : Envelope} {x : Correlation} {result : Correlated} (hp : c.phase = .correlating e x)
      (hx : x.phase = .finished result) : Turn senders c m d s { c with phase := .committing e } m d s
  /-- It writes the cursor past its envelope. -/
  | commit {e : Envelope} (hp : c.phase = .committing e) :
      Turn senders c m d s { c with phase := .idle } m d (s.putCursor c.topic e.partition (e.offset + 1))

/-- Only a correlator at work takes a step. -/
theorem Turn.running {senders : Bool} {c c' : Correlator} {m m' : Channel Envelope} {d d' : Channel AuditRecord}
    {s t : Services} (h : Turn senders c m d s c' m' d' t) : c.isStopped = false := by
  cases h <;> simp_all [isStopped]

/-- The correlator only ever goes forward with the transactions. -/
theorem Turn.forward {senders : Bool} {c c' : Correlator} {m m' : Channel Envelope} {d d' : Channel AuditRecord}
    {s t : Services} (h : Turn senders c m d s c' m' d' t) : Store.Forward s.store t.store := by
  cases h with
  | work hp hx => exact hx.forward
  | commit hp => rw [Services.putCursor_store]; exact .rfl
  | _ => exact .rfl

/-- Every step of the correlator is in the list. -/
theorem turn_of_step {heed : Bool} {now : Nat} {senders : Bool} {c c' : Correlator} {m m' : Channel Envelope}
    {d d' : Channel AuditRecord} {s s' : Services} (h : c.step heed now senders m d s = some (c', m', d', s')) :
    Turn senders c m d s c' m' d' s' := by
  unfold step at h
  split at h
  · rename_i hp
    split at h
    · rename_i hs
      simp only [Option.some.injEq, Prod.mk.injEq] at h
      obtain ⟨rfl, rfl, rfl, rfl⟩ := h
      exact Turn.stop hp (Or.inl (Bool.and_eq_true_iff.1 hs).1)
    · split at h
      · rename_i e _ ht
        obtain ⟨rest, hm, rfl⟩ := Channel.take?_eq_some ht
        simp only [Option.some.injEq, Prod.mk.injEq] at h
        obtain ⟨rfl, rfl, rfl, rfl⟩ := h
        split
        · rename_i marker he
          exact Turn.take hp hm he
        · rename_i he
          exact Turn.pass hp hm he
      · rename_i hm
        split at h
        · exact absurd h (by simp)
        · rename_i hs
          simp only [Option.some.injEq, Prod.mk.injEq] at h
          obtain ⟨rfl, rfl, rfl, rfl⟩ := h
          exact Turn.stop hp (Or.inr ⟨Channel.take?_eq_none hm, by simpa using hs⟩)
  · rename_i e x hp
    split at h
    · rename_i result hx
      simp only [Option.some.injEq, Prod.mk.injEq] at h
      obtain ⟨rfl, rfl, rfl, rfl⟩ := h
      exact Turn.done hp hx
    · obtain ⟨⟨x', d₁, t⟩, hx, he⟩ := Option.map_eq_some_iff.1 h
      simp only [Prod.mk.injEq] at he
      obtain ⟨rfl, rfl, rfl, rfl⟩ := he
      exact Turn.work hp (Correlation.turn_of_step hx)
  · rename_i e hp
    simp only [Option.some.injEq, Prod.mk.injEq] at h
    obtain ⟨rfl, rfl, rfl, rfl⟩ := h
    exact Turn.commit hp
  · exact absurd h (by simp)

end Correlator

end AuditTrail
