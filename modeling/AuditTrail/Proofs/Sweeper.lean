import AuditTrail.Flow.Sweeper
import AuditTrail.Proofs.Channel
import AuditTrail.Proofs.Services
import AuditTrail.Proofs.Store

/-!
# What one step of the sweeper does

`Sweep.Turn` lists what a step of a sweep can do, `Sweeper.Turn` what a step of the sweeper can. All records of a sweep are made of
the rows of one look-up, and all its transactions are written at once after the last record has been sent.
-/

namespace AuditTrail

namespace Sweep

/-- What a step of a sweep does to it, the delivery channel and the services. -/
inductive Turn (sender : Sender) (x : Sweep) (d : Channel AuditRecord) (s : Services) :
    Sweep → Channel AuditRecord → Services → Prop where
  /-- It fixes how far it looks back. -/
  | begin {since : Instant} {abandoned : Option Nat} {t : Services} (hp : x.phase = .starting) (ht : s.Counted t) :
      Turn sender x d s { x with phase := .listing since abandoned } d t
  /-- It loads its candidates. -/
  | list {since : Instant} {abandoned : Option Nat} {candidates : List Transaction}
      (hp : x.phase = .listing since abandoned)
      (hc : s.store.unprocessed since x.settings.batchLimit = .ok candidates) :
      Turn sender x d s { x with phase := .fetching candidates abandoned } d s
  /-- It reads the rows of its candidates. -/
  | fetch {candidates : List Transaction} {abandoned : Option Nat} {rows : List (String × List StoredChange)}
      (hp : x.phase = .fetching candidates abandoned)
      (hr : s.store.rowsOfAll (candidates.map (·.gtid)) = .ok rows) :
      Turn sender x d s { x with phase := .sending ⟨candidates.length, 0, abandoned⟩ rows candidates [] } d s
  /-- It passes over a candidate without rows. -/
  | miss {r : SweepReport} {rows : List (String × List StoredChange)} {t : Transaction} {rest done : List Transaction}
      (hp : x.phase = .sending r rows (t :: rest) done) (hl : rows.lookup t.gtid = none) :
      Turn sender x d s { x with phase := .sending r rows rest done } d s
  /-- It joins the queue of the delivery channel. -/
  | join {r : SweepReport} {rows : List (String × List StoredChange)} {t : Transaction} {rest done : List Transaction}
      {changes : List StoredChange} (hp : x.phase = .sending r rows (t :: rest) done)
      (hl : rows.lookup t.gtid = some changes)
      (hd : d.attempt sender (.ofTransaction t changes) = .joined (d.join sender)) :
      Turn sender x d s x (d.join sender) s
  /-- It sends the record of a candidate. -/
  | send {r : SweepReport} {rows : List (String × List StoredChange)} {t : Transaction} {rest done : List Transaction}
      {changes : List StoredChange} (hp : x.phase = .sending r rows (t :: rest) done)
      (hl : rows.lookup t.gtid = some changes)
      (hd : d.attempt sender (.ofTransaction t changes) = .sent (d.push sender (.ofTransaction t changes))) :
      Turn sender x d s { x with phase := .sending r rows rest (done ++ [t]) }
        (d.push sender (.ofTransaction t changes)) s
  /-- It writes the transactions whose records have been sent, and is through. -/
  | settle {r : SweepReport} {rows : List (String × List StoredChange)} {done : List Transaction} {result : SweepReport}
      {stored : Store} {t : Services} (hp : x.phase = .sending r rows [] done) (hd : done ≠ [])
      (hu : s.store.upsert (done.map (·.toProcessed)) = .ok stored) (ht : ({ s with store := stored }).Counted t) :
      Turn sender x d s { x with phase := .finished (.ok result) } d t
  /-- It ends: without candidates, with no record sent, or by an error. -/
  | finish {result : Except Error SweepReport} {t : Services} (hp : ∀ r, x.phase ≠ .finished r) (ht : s.Counted t) :
      Turn sender x d s { x with phase := .finished result } d t

namespace TurnAux

/-- Counting transactions that are too old changes nothing else. -/
theorem counted_countAbandoned (since : Instant) (s : Services) : s.Counted (countAbandoned since s).2 := by
  unfold countAbandoned
  split
  · exact Services.counted_record s _
  · exact Services.counted_self s

/-- What the first step of a sweep does. -/
theorem turn_of_begin (sender : Sender) {x : Sweep} (d : Channel AuditRecord) (s : Services) (hp : x.phase = .starting) :
    Turn sender x d s (x.begin s).1 d (x.begin s).2 := by
  unfold begin
  split
  · exact Turn.finish (by simp [hp]) (Services.counted_self s)
  · exact Turn.begin hp (counted_countAbandoned _ s)

/-- What loading the candidates does. -/
theorem turn_of_list (sender : Sender) {x : Sweep} {since : Instant} {abandoned : Option Nat} (d : Channel AuditRecord)
    (s : Services) (hp : x.phase = .listing since abandoned) :
    Turn sender x d s (x.list since abandoned s).1 d (x.list since abandoned s).2 := by
  unfold list
  split
  · exact Turn.finish (by simp [hp]) (Services.counted_self s)
  · exact Turn.finish (by simp [hp]) (Services.counted_record s _)
  · rename_i candidates _ hc
    exact Turn.list hp hc

/-- What the write at the end of a sweep does. -/
theorem turn_of_settle (sender : Sender) {x : Sweep} {r : SweepReport} {rows : List (String × List StoredChange)}
    {done : List Transaction} (d : Channel AuditRecord) (s : Services) (hp : x.phase = .sending r rows [] done) :
    Turn sender x d s (x.settle r done s).1 d (x.settle r done s).2 := by
  unfold settle
  split
  · exact Turn.finish (by simp [hp]) (Services.counted_record s _)
  · rename_i hd
    split
    · exact Turn.finish (by simp [hp]) (Services.counted_self s)
    · rename_i stored hu
      exact Turn.settle hp (by simpa using hd) hu (Services.counted_record _ _)

end TurnAux

open TurnAux

/-- Every step of a sweep is in the list. -/
theorem turn_of_step {sender : Sender} {x x' : Sweep} {d d' : Channel AuditRecord} {s s' : Services}
    (h : x.step sender d s = some (x', d', s')) : Turn sender x d s x' d' s' := by
  unfold step at h
  split at h
  · rename_i hp
    simp only [Option.some.injEq, Prod.mk.injEq] at h
    obtain ⟨rfl, rfl, rfl⟩ := h
    exact turn_of_begin sender d s hp
  · rename_i since abandoned hp
    simp only [Option.some.injEq, Prod.mk.injEq] at h
    obtain ⟨rfl, rfl, rfl⟩ := h
    exact turn_of_list sender d s hp
  · rename_i candidates abandoned hp
    simp only [Option.some.injEq, Prod.mk.injEq] at h
    obtain ⟨rfl, rfl, rfl⟩ := h
    unfold Sweep.fetch
    split
    · exact Turn.finish (by simp [hp]) (Services.counted_self s)
    · rename_i rows hr
      exact Turn.fetch hp hr
  · rename_i r rows done hp
    simp only [Option.some.injEq, Prod.mk.injEq] at h
    obtain ⟨rfl, rfl, rfl⟩ := h
    exact turn_of_settle sender d s hp
  · rename_i r rows t rest done hp
    split at h
    · rename_i hl
      simp only [Option.some.injEq, Prod.mk.injEq] at h
      obtain ⟨rfl, rfl, rfl⟩ := h
      exact Turn.miss hp hl
    · rename_i changes hl
      split at h
      · simp only [Option.some.injEq, Prod.mk.injEq] at h
        obtain ⟨rfl, rfl, rfl⟩ := h
        exact Turn.finish (by simp [hp]) (Services.counted_self s)
      · rename_i c hd
        obtain ⟨-, rfl⟩ := Channel.attempt_joined hd
        simp only [Option.some.injEq, Prod.mk.injEq] at h
        obtain ⟨rfl, rfl, rfl⟩ := h
        exact Turn.join hp hl hd
      · rename_i c hd
        obtain ⟨-, rfl⟩ := Channel.attempt_sent hd
        simp only [Option.some.injEq, Prod.mk.injEq] at h
        obtain ⟨rfl, rfl, rfl⟩ := h
        exact Turn.send hp hl hd
      · exact absurd h (by simp)
  · exact absurd h (by simp)

/-- A sweep that ends while it sends has sent all records that it had to, and their transactions are processed, if there is a
receiver and upserts do not fail. -/
theorem processed_of_finished {sender : Sender} {x x' : Sweep} {d d' : Channel AuditRecord} {s s' : Services}
    {r : SweepReport} {rows : List (String × List StoredChange)} {rest done : List Transaction}
    {result : Except Error SweepReport} (h : x.step sender d s = some (x', d', s'))
    (hp : x.phase = .sending r rows rest done) (hf : x'.phase = .finished result) (hopen : d.received = true)
    (hup : s.store.failUpserts = false) : rest = [] ∧ ∀ t ∈ done, s'.store.processed t.gtid = true := by
  cases rest with
  | nil =>
    simp only [step, hp, Option.some.injEq, Prod.mk.injEq] at h
    obtain ⟨-, -, rfl⟩ := h
    refine ⟨rfl, ?_⟩
    intro t ht
    have hne : done.isEmpty = false := by
      cases done with
      | nil => exact absurd ht List.not_mem_nil
      | cons u us => rfl
    unfold settle
    simp only [hne, Bool.false_eq_true, if_false]
    split
    · rename_i e hu
      exact absurd hu (by simp [Store.upsert, hup])
    · rename_i stored hu
      have hwritten : (done.map (·.toProcessed)).any (fun u => u.gtid == t.gtid && u.isProcessed) = true :=
        List.any_eq_true.2 ⟨t.toProcessed, List.mem_map_of_mem ht,
          by simp [Transaction.toProcessed, Transaction.isProcessed]⟩
      simp only [finish, Services.record_store, Store.processed_upsert hu, hwritten, Bool.or_true]
  | cons t rest =>
    simp only [step, hp] at h
    split at h
    · simp only [Option.some.injEq, Prod.mk.injEq] at h
      obtain ⟨rfl, -, -⟩ := h
      exact absurd hf (by simp)
    · split at h
      · rename_i hd
        exact absurd ((Channel.attempt_closed hd).symm.trans hopen) (by decide)
      · simp only [Option.some.injEq, Prod.mk.injEq] at h
        obtain ⟨rfl, -, -⟩ := h
        exact absurd (hp.symm.trans hf) (by simp)
      · simp only [Option.some.injEq, Prod.mk.injEq] at h
        obtain ⟨rfl, -, -⟩ := h
        exact absurd hf (by simp)
      · exact absurd h (by simp)

/-- A sweep only ever goes forward with the transactions. -/
theorem Turn.forward {sender : Sender} {x x' : Sweep} {d d' : Channel AuditRecord} {s t : Services}
    (h : Turn sender x d s x' d' t) : Store.Forward s.store t.store := by
  cases h with
  | begin hp ht => exact ht.store ▸ .rfl
  | settle hp hd hu ht => exact ht.store ▸ Store.forward_upsert hu
  | finish hp ht => exact ht.store ▸ .rfl
  | _ => exact .rfl

/-- A sweep makes no transaction processed but those whose records it has sent. -/
theorem Turn.processed {sender : Sender} {x x' : Sweep} {d d' : Channel AuditRecord} {s t : Services}
    (h : Turn sender x d s x' d' t) {g : String}
    (hg : ∀ r rows rest done, x.phase = .sending r rows rest done → ∀ u ∈ done, u.gtid ≠ g) :
    t.store.processed g = s.store.processed g := by
  cases h with
  | begin hp ht => rw [ht.store]
  | finish hp ht => rw [ht.store]
  | @settle r rows done result stored t hp hd hu ht =>
    have hnone : (done.map (·.toProcessed)).any (fun u => u.gtid == g && u.isProcessed) = false := by
      rw [List.any_eq_false]
      intro u hu
      obtain ⟨v, hv, rfl⟩ := List.mem_map.1 hu
      have hne : v.toProcessed.gtid ≠ g := hg _ _ _ _ hp v hv
      simp [hne]
    rw [ht.store, Store.processed_upsert hu, hnone, Bool.or_false]
  | _ => rfl

/-- A sweep changes transactions and metrics only. -/
theorem Turn.updated {sender : Sender} {x x' : Sweep} {d d' : Channel AuditRecord} {s t : Services}
    (h : Turn sender x d s x' d' t) : s.Updated t := by
  cases h with
  | begin hp ht => exact ht.updated
  | settle hp hd hu ht =>
    obtain ⟨-, rfl⟩ := Store.upsert_eq_ok hu
    exact Services.Updated.trans ⟨_, _, s.metrics, rfl⟩ ht.updated
  | finish hp ht => exact ht.updated
  | _ => exact (Services.counted_self s).updated

end Sweep

namespace Sweeper

/-- A sweeper is launched just if the clock can show the time of its first tick. -/
theorem launch?_eq_some_iff {settings : SweeperSettings} {now : Nat} {x : Sweeper} :
    launch? settings now = some x ↔ start settings now = x ∧ (start settings now).ticker.due ≤ Machine.lastMillisecond := by
  rw [launch?, Option.filter_eq_some_iff, Option.some.injEq]
  constructor
  · rintro ⟨rfl, hdue⟩
    exact ⟨rfl, of_decide_eq_true hdue⟩
  · rintro ⟨rfl, hdue⟩
    exact ⟨rfl, decide_eq_true hdue⟩

theorem isSome_launch?_iff {settings : SweeperSettings} {now : Nat} :
    (launch? settings now).isSome = true ↔ (start settings now).ticker.due ≤ Machine.lastMillisecond := by
  rw [Option.isSome_iff_exists]
  constructor
  · rintro ⟨x, hx⟩
    exact (launch?_eq_some_iff.1 hx).2
  · intro hdue
    exact ⟨_, launch?_eq_some_iff.2 ⟨rfl, hdue⟩⟩

/-- A sweeper that is launched is one that starts now, or it panics. -/
theorem launch?_eq_none_or (settings : SweeperSettings) (now : Nat) :
    launch? settings now = none ∨ launch? settings now = some (start settings now) := by
  cases h : launch? settings now with
  | none => exact Or.inl rfl
  | some x => exact Or.inr (congrArg some (launch?_eq_some_iff.1 h).1.symm)

/-- What a step of the sweeper does to it, the delivery channel and the services. -/
inductive Turn (x : Sweeper) (d : Channel AuditRecord) (s : Services) :
    Sweeper → Channel AuditRecord → Services → Prop where
  /-- It stops between two sweeps, when it has been told to. -/
  | stop (hr : x.stopped = false) (hw : x.sweep = none) (hs : x.signalled = true) :
      Turn x d s { x with stopped := true } d s
  /-- It starts a sweep. -/
  | start {ticker : Ticker} (hr : x.stopped = false) (hw : x.sweep = none) :
      Turn x d s { x with ticker := ticker, sweep := some { settings := x.settings } } d s
  /-- It goes on with its sweep. -/
  | work {w w' : Sweep} {d' : Channel AuditRecord} {t : Services} (hr : x.stopped = false) (hw : x.sweep = some w)
      (ht : Sweep.Turn .sweeper w d s w' d' t) : Turn x d s { x with sweep := some w' } d' t
  /-- It is through with its sweep. -/
  | finish {w : Sweep} {result : Except Error SweepReport} {t : Services} (hr : x.stopped = false)
      (hw : x.sweep = some w) (hp : w.phase = .finished result) (ht : s.Counted t) :
      Turn x d s { x with sweep := none } d t

/-- Every step of the sweeper is in the list. -/
theorem turn_of_step {heed : Bool} {now : Nat} {x x' : Sweeper} {d d' : Channel AuditRecord} {s s' : Services}
    (h : x.step heed now d s = some (x', d', s')) : Turn x d s x' d' s' := by
  unfold step at h
  split at h
  · exact absurd h (by simp)
  · rename_i hr
    replace hr : x.stopped = false := by simpa using hr
    split at h
    · rename_i hw
      split at h
      · rename_i hs
        simp only [Option.some.injEq, Prod.mk.injEq] at h
        obtain ⟨rfl, rfl, rfl⟩ := h
        exact Turn.stop hr hw (Bool.and_eq_true_iff.1 hs).1
      · split at h
        · simp only [Option.some.injEq, Prod.mk.injEq] at h
          obtain ⟨rfl, rfl, rfl⟩ := h
          exact Turn.start hr hw
        · exact absurd h (by simp)
    · rename_i w hw
      split at h
      · rename_i hp
        simp only [Option.some.injEq, Prod.mk.injEq] at h
        obtain ⟨rfl, rfl, rfl⟩ := h
        exact Turn.finish hr hw hp (Services.counted_self s)
      · rename_i hp
        simp only [Option.some.injEq, Prod.mk.injEq] at h
        obtain ⟨rfl, rfl, rfl⟩ := h
        exact Turn.finish hr hw hp (Services.counted_record s _)
      · obtain ⟨⟨w', d₁, t⟩, hx, he⟩ := Option.map_eq_some_iff.1 h
        simp only [Prod.mk.injEq] at he
        obtain ⟨rfl, rfl, rfl⟩ := he
        exact Turn.work hr hw (Sweep.turn_of_step hx)

/-- A step of the sweeper is one of its sweep, or begins or ends a sweep. -/
theorem sweep_of_step {heed : Bool} {now : Nat} {x x' : Sweeper} {d d' : Channel AuditRecord} {s s' : Services}
    (h : x.step heed now d s = some (x', d', s')) :
    (∃ w w', x.sweep = some w ∧ x'.sweep = some w' ∧ w.step .sweeper d s = some (w', d', s')) ∨
      (∀ w, x.sweep = some w → ∃ result, w.phase = .finished result) ∧
        (∀ w, x'.sweep = some w → w.phase = .starting) ∧ d' = d ∧ s.Counted s' := by
  unfold step at h
  split at h
  · exact absurd h (by simp)
  · split at h
    · rename_i hw
      split at h
      · simp only [Option.some.injEq, Prod.mk.injEq] at h
        obtain ⟨rfl, rfl, rfl⟩ := h
        exact Or.inr ⟨by simp [hw], by simp [hw], rfl, Services.counted_self s⟩
      · split at h
        · simp only [Option.some.injEq, Prod.mk.injEq] at h
          obtain ⟨rfl, rfl, rfl⟩ := h
          exact Or.inr ⟨by simp [hw], by simp, rfl, Services.counted_self s⟩
        · exact absurd h (by simp)
    · rename_i w hw
      split at h
      · rename_i r hp
        simp only [Option.some.injEq, Prod.mk.injEq] at h
        obtain ⟨rfl, rfl, rfl⟩ := h
        exact Or.inr ⟨by simp [hw, hp], by simp, rfl, Services.counted_self s⟩
      · rename_i e hp
        simp only [Option.some.injEq, Prod.mk.injEq] at h
        obtain ⟨rfl, rfl, rfl⟩ := h
        exact Or.inr ⟨by simp [hw, hp], by simp, rfl, Services.counted_record s _⟩
      · obtain ⟨⟨w', d₁, t⟩, hx, he⟩ := Option.map_eq_some_iff.1 h
        simp only [Prod.mk.injEq] at he
        obtain ⟨rfl, rfl, rfl⟩ := he
        exact Or.inl ⟨w, w', hw, rfl, hx⟩

/-- Only a sweeper at work takes a step. -/
theorem Turn.running {x x' : Sweeper} {d d' : Channel AuditRecord} {s t : Services} (h : Turn x d s x' d' t) :
    x.stopped = false := by
  cases h <;> assumption

/-- The sweeper only ever goes forward with the transactions. -/
theorem Turn.forward {x x' : Sweeper} {d d' : Channel AuditRecord} {s t : Services} (h : Turn x d s x' d' t) :
    Store.Forward s.store t.store := by
  cases h with
  | work hr hw ht => exact ht.forward
  | finish hr hw hp ht => exact ht.store ▸ .rfl
  | _ => exact .rfl

/-- The sweeper changes transactions and metrics only. -/
theorem Turn.updated {x x' : Sweeper} {d d' : Channel AuditRecord} {s t : Services} (h : Turn x d s x' d' t) :
    s.Updated t := by
  cases h with
  | work hr hw ht => exact ht.updated
  | finish hr hw hp ht => exact ht.updated
  | _ => exact (Services.counted_self s).updated

end Sweeper

end AuditTrail
