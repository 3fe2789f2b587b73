import AuditTrail.Proofs.Script
import Mathlib.Data.List.Chain

/-!
# What a correlation decides

From the script that answers a correlation follows what becomes of the marker and all that the correlation does until then, in its
order (`Decision`): the look-ups and the waits between them, the one record that it offers, the one write after it, and what it
counts. `Doing` is the part of it that has been done by some phase, and every move keeps to it.
-/

namespace AuditTrail.Correlation

/-! ## Decisions -/

/-- Others leave the delivery channel alone, or they take everything out and go. -/
def Drained (sender : Sender) (d d' : Channel AuditRecord) : Prop := d' = d ∨ d' = d.cleared sender

section

variable (settings : CorrelatorSettings) (m : Marker) (σ : Script)

/-- There is something to look for, and the look-ups at some times have found nothing; each was made no sooner than the wait
after the one before allows. -/
structure Searched (times : List Nat) : Prop where
  named : Text.blank m.gtid = false
  unprocessed : σ.processed = false
  fruitless : ∀ i, 1 ≤ i → i ≤ times.length → σ.finds i = false
  apart : times.IsChain fun a b => a + settings.retryInterval ≤ b

/-- There was something to look for, and only the last of the look-ups at some times has found rows. -/
structure Found (times : List Nat) (rows : List StoredChange) : Prop where
  named : Text.blank m.gtid = false
  unprocessed : σ.processed = false
  some_lookup : 1 ≤ times.length
  within : times.length ≤ max settings.maxAttempts 1
  fruitless : ∀ i, 1 ≤ i → i < times.length → σ.finds i = false
  answer : σ.rows times.length = .ok rows
  fruitful : rows ≠ []
  apart : times.IsChain fun a b => a + settings.retryInterval ≤ b

/-- What becomes of a marker, all that is done until then, and the records that are put into the delivery channel. -/
inductive Decision : Correlated → List Deed → List AuditRecord → Prop where
  /-- A marker with a blank GTID is counted, and that is all. -/
  | skipped (h : Text.blank m.gtid = true) : Decision .skipped [.counted (.marker .skipped)] []
  /-- A processed transaction is found by the first question. -/
  | alreadyProcessed (h : Text.blank m.gtid = false) (hs : σ.processed = true) :
      Decision .alreadyProcessed [.asked σ.status, .counted (.marker .alreadyProcessed)] []
  /-- A record of the rows that were found is offered once, and then the transaction is written as processed. -/
  | resolved {times : List Nat} {rows : List StoredChange} (h : Found settings m σ times rows) (taken : Bool) :
      Decision (.resolved rows.length)
        (.asked σ.status :: lookups settings σ times ++ offering (recordOf m rows) taken ++
          writing σ (.ofMarker m .processed) ++ [.counted (.marker .resolved)])
        (if taken then [recordOf m rows] else [])
  /-- After all look-ups the transaction is written as unprocessed. -/
  | deferred {times : List Nat} (h : Searched settings m σ times) (hall : times.length = max settings.maxAttempts 1) :
      Decision .deferred
        (.asked σ.status :: lookups settings σ times ++ writing σ (.ofMarker m .unprocessed) ++
          [.counted (.marker .deferred)]) []

/-- What has been done in a phase of a correlation, by some time. -/
inductive Doing (now : Nat) : Phase → List Deed → List AuditRecord → Prop where
  | starting : Doing now .starting [] []
  | looking {times : List Nat} (h : Searched settings m σ times) (hlt : times.length < max settings.maxAttempts 1)
      (hlast : ∀ t ∈ times.getLast?, t + settings.retryInterval ≤ now) :
      Doing now (.looking (times.length + 1)) (.asked σ.status :: lookups settings σ times) []
  | waiting {times : List Nat} {due : Nat} (h : Searched settings m σ times)
      (hlt : times.length < max settings.maxAttempts 1) (hlast : ∀ t ∈ times.getLast?, t + settings.retryInterval ≤ due) :
      Doing now (.waiting (times.length + 1) due) (.asked σ.status :: lookups settings σ times) []
  | sending {times : List Nat} {rows : List StoredChange} (h : Found settings m σ times rows) :
      Doing now (.sending rows) (.asked σ.status :: lookups settings σ times) []
  | settling {times : List Nat} {rows : List StoredChange} (h : Found settings m σ times rows) (taken : Bool) :
      Doing now (.settling rows.length)
        (.asked σ.status :: lookups settings σ times ++ offering (recordOf m rows) taken)
        (if taken then [recordOf m rows] else [])
  | deferring {times : List Nat} (h : Searched settings m σ times) (hall : times.length = max settings.maxAttempts 1) :
      Doing now .deferring (.asked σ.status :: lookups settings σ times) []
  | finished {r : Correlated} {deeds : List Deed} {sent : List AuditRecord} (h : Decision settings m σ r deeds sent) :
      Doing now (.finished r) deeds sent

/-- A correlation in the course of its work. -/
structure Course.Going (x : Course) : Prop where
  same : x.correlation.settings = settings ∧ x.correlation.marker = m
  doing : Doing settings m σ x.now x.correlation.phase x.deeds x.sent

end

variable {sender : Sender} {settings : CorrelatorSettings} {m : Marker} {σ : Script}
  {ok : Channel AuditRecord → Channel AuditRecord → Prop} {x y : Course}

namespace DecisionAux

/-- One more look-up comes with the next number. -/
theorem lookups_append (settings : CorrelatorSettings) (σ : Script) (times : List Nat) (t : Nat) :
    lookups settings σ (times ++ [t]) = lookups settings σ times ++ lookup settings σ (times.length + 1) t := by
  simp [lookups, List.zipIdx_append, Nat.add_comm]

/-- One more look-up is made no sooner than the wait after the one before allows. -/
theorem isChain_append {interval : Nat} {times : List Nat} (h : times.IsChain fun a b => a + interval ≤ b) {now : Nat}
    (hlast : ∀ t ∈ times.getLast?, t + interval ≤ now) : (times ++ [now]).IsChain fun a b => a + interval ≤ b := by
  refine List.isChain_append.2 ⟨h, List.isChain_singleton now, fun t ht n hn => ?_⟩
  obtain rfl : now = n := by simpa using hn
  exact hlast t ht

/-- A look-up finds rows or it does not. -/
theorem finds_eq (σ : Script) (i : Nat) :
    (∃ r rows, σ.rows i = .ok (r :: rows) ∧ σ.finds i = true) ∨
      (∀ r rows, σ.rows i ≠ .ok (r :: rows)) ∧ σ.finds i = false := by
  simp only [Script.finds]
  cases σ.rows i with
  | error e => exact .inr ⟨by simp, rfl⟩
  | ok rows =>
    cases rows with
    | nil => exact .inr ⟨by simp, rfl⟩
    | cons r rows => exact .inl ⟨r, rows, rfl, rfl⟩

/-- After a look-up that finds rows, they are sent. -/
theorem doing_found {times : List Nat} {now : Nat} (h : Searched settings m σ times)
    (hlt : times.length < max settings.maxAttempts 1) (hlast : ∀ t ∈ times.getLast?, t + settings.retryInterval ≤ now)
    {rows : List StoredChange} (hrows : σ.rows (times.length + 1) = .ok rows) (hne : rows ≠ []) :
    Doing settings m σ now (.sending rows)
      (.asked σ.status :: lookups settings σ times ++ lookup settings σ (times.length + 1) now) [] := by
  rw [List.cons_append, ← lookups_append]
  have hlen : (times ++ [now]).length = times.length + 1 := by simp
  refine .sending ⟨h.named, h.unprocessed, ?_, ?_, fun i h1 hi => ?_, ?_, hne, isChain_append h.apart hlast⟩
  · omega
  · omega
  · exact h.fruitless i h1 (by omega)
  · rw [hlen, hrows]

/-- One more fruitless look-up. -/
theorem searched_append {times : List Nat} {now : Nat} (h : Searched settings m σ times)
    (hlast : ∀ t ∈ times.getLast?, t + settings.retryInterval ≤ now) (hnone : σ.finds (times.length + 1) = false) :
    Searched settings m σ (times ++ [now]) := by
  refine ⟨h.named, h.unprocessed, fun i h1 hi => ?_, isChain_append h.apart hlast⟩
  have hlen : (times ++ [now]).length = times.length + 1 := by simp
  rcases Nat.lt_or_ge times.length i with hlt | hle
  · obtain rfl : i = times.length + 1 := by omega
    exact hnone
  · exact h.fruitless i h1 hle

end DecisionAux

open DecisionAux

/-- A step of a correlation does what the script has for its phase. -/
theorem Doing.step {c c' : Correlation} {d d' : Channel AuditRecord} {now : Nat} {deeds more : List Deed}
    {sent : List AuditRecord} (h : Doing c.settings c.marker σ now c.phase deeds sent)
    (hstep : c.proceed sender now σ d = some (c', d', more)) :
    Doing c.settings c.marker σ now c'.phase (deeds ++ more) (sent ++ d.entered d') := by
  obtain ⟨settings, m, phase⟩ := c
  simp only at h ⊢
  cases h with
  | starting =>
    simp only [proceed] at hstep
    split at hstep
    · rename_i hb
      cases hstep
      simpa using Doing.finished (.skipped hb)
    · rename_i hb
      split at hstep
      · rename_i hs
        cases hstep
        simpa using Doing.finished (.alreadyProcessed (by simpa using hb) hs)
      · rename_i hs
        cases hstep
        have hnone : Searched settings m σ [] :=
          ⟨by simpa using hb, by simpa using hs, fun i h1 hi => absurd (h1.trans hi) (by decide), List.isChain_nil⟩
        simpa [lookups] using Doing.looking hnone (Nat.lt_of_lt_of_le Nat.one_pos (Nat.le_max_right _ _)) (by simp)
  | @looking times hsearched hlt hlast =>
    simp only [proceed, Option.some.injEq, Prod.mk.injEq] at hstep
    obtain ⟨rfl, rfl, rfl⟩ := hstep
    simp only [Channel.entered_self, List.append_nil]
    rcases finds_eq σ (times.length + 1) with ⟨r, rows, hrows, -⟩ | ⟨hnone, hfinds⟩
    · simp only [hrows]
      exact doing_found hsearched hlt hlast hrows (List.cons_ne_nil r rows)
    · have hnext := searched_append hsearched hlast hfinds
      have hlen : (times ++ [now]).length = times.length + 1 := by simp
      rw [List.cons_append, ← lookups_append]
      split
      · rename_i r rows hrows
        exact absurd hrows (hnone r rows)
      · split
        · rename_i hmore
          rw [← hlen]
          refine .waiting hnext (hlen ▸ hmore) fun t ht => ?_
          obtain rfl : now = t := by simpa using ht
          exact Nat.le_refl _
        · rename_i hmore
          refine .deferring hnext ?_
          have : ¬times.length + 1 < max settings.maxAttempts 1 := hmore
          omega
  | @waiting times due hsearched hlt hlast =>
    simp only [proceed] at hstep
    split at hstep
    · rename_i hdue
      cases hstep
      simpa using Doing.looking hsearched hlt fun t ht => (hlast t ht).trans hdue
    · cases hstep
  | @sending times rows hfound =>
    simp only [proceed] at hstep
    split at hstep
    · cases hstep
      simpa using Doing.settling hfound false
    · rename_i d₁ hjoin
      cases hstep
      rw [(Channel.attempt_joined hjoin).2]
      simpa using Doing.sending hfound
    · rename_i d₁ hsent
      cases hstep
      rw [(Channel.attempt_sent hsent).2]
      simpa using Doing.settling hfound true
    · cases hstep
  | @settling times rows hfound taken =>
    simp only [proceed, Option.some.injEq, Prod.mk.injEq] at hstep
    obtain ⟨rfl, rfl, rfl⟩ := hstep
    simpa using Doing.finished (.resolved hfound taken)
  | @deferring times hsearched hall =>
    simp only [proceed, Option.some.injEq, Prod.mk.injEq] at hstep
    obtain ⟨rfl, rfl, rfl⟩ := hstep
    simpa using Doing.finished (.deferred hsearched hall)
  | finished h => simp [proceed] at hstep

/-- The passing of time is no deed. -/
theorem Doing.later {now now' : Nat} {phase : Phase} {deeds : List Deed} {sent : List AuditRecord}
    (h : Doing settings m σ now phase deeds sent) (hle : now ≤ now') : Doing settings m σ now' phase deeds sent := by
  cases h with
  | starting => exact .starting
  | looking hs hlt hlast => exact .looking hs hlt fun t ht => (hlast t ht).trans hle
  | waiting hs hlt hlast => exact .waiting hs hlt hlast
  | sending hf => exact .sending hf
  | settling hf taken => exact .settling hf taken
  | deferring hs hall => exact .deferring hs hall
  | finished hd => exact .finished hd

/-- A step leaves the settings and the marker of a correlation as they are. -/
theorem same_of_proceed {c c' : Correlation} {d d' : Channel AuditRecord} {now : Nat} {deeds : List Deed}
    (h : c.proceed sender now σ d = some (c', d', deeds)) : c'.settings = c.settings ∧ c'.marker = c.marker := by
  unfold proceed at h
  split at h
  · split at h
    · cases h; exact ⟨rfl, rfl⟩
    · split at h <;> (cases h; exact ⟨rfl, rfl⟩)
  · cases h; exact ⟨rfl, rfl⟩
  · split at h
    · cases h; exact ⟨rfl, rfl⟩
    · cases h
  · split at h
    · cases h; exact ⟨rfl, rfl⟩
    · cases h; exact ⟨rfl, rfl⟩
    · cases h; exact ⟨rfl, rfl⟩
    · cases h
  · cases h; exact ⟨rfl, rfl⟩
  · cases h; exact ⟨rfl, rfl⟩
  · cases h

namespace Course

/-- Every move keeps a correlation going. -/
theorem Going.move (h : Going settings m σ x) (hm : Move sender σ ok x y) : Going settings m σ y := by
  obtain ⟨⟨rfl, rfl⟩, hdoing⟩ := h
  cases hm with
  | step hstep => exact ⟨same_of_proceed hstep, hdoing.step hstep⟩
  | others _ hle => exact ⟨⟨rfl, rfl⟩, hdoing.later hle⟩

/-- A correlation that starts goes on. -/
theorem going_run {d : Channel AuditRecord} {now : Nat} (h : Run sender σ ok (.start settings m d now) x) :
    Going settings m σ x := by
  induction h with
  | refl => exact ⟨⟨rfl, rfl⟩, .starting⟩
  | tail _ hm ih => exact ih.move hm

/-- A correlation can come to its end, if others do no more than to empty the delivery channel. -/
def Ends (sender : Sender) (σ : Script) (x : Course) : Prop :=
  ∃ y r, Run sender σ (Drained sender) x y ∧ y.correlation.phase = .finished r

/-- What can come to its end after a step can do so before. -/
theorem Ends.of_step {c : Correlation} {d : Channel AuditRecord} {deeds : List Deed}
    (hstep : x.correlation.proceed sender x.now σ x.channel = some (c, d, deeds))
    (h : Ends sender σ ⟨c, d, x.now, x.deeds ++ deeds, x.sent ++ x.channel.entered d⟩) : Ends sender σ x := by
  obtain ⟨z, r, hr, hp⟩ := h
  exact ⟨z, r, .head (.step hstep) hr, hp⟩

/-- What can come to its end after others have done something can do so before. -/
theorem Ends.of_others {d : Channel AuditRecord} {now : Nat} (hd : Drained sender x.channel d) (hle : x.now ≤ now)
    (h : Ends sender σ { x with channel := d, now := now }) : Ends sender σ x := by
  obtain ⟨z, r, hr, hp⟩ := h
  exact ⟨z, r, .head (.others hd hle) hr, hp⟩

/-- A correlation that has sent its record can come to its end. -/
theorem ends_settling (sender : Sender) (σ : Script) {rows : Nat} (hp : x.correlation.phase = .settling rows) :
    Ends sender σ x := by
  refine Ends.of_step (by simp only [proceed, hp]; rfl) ?_
  exact ⟨_, .resolved rows, .refl, rfl⟩

/-- A correlation that has found nothing can come to its end. -/
theorem ends_deferring (sender : Sender) (σ : Script) (hp : x.correlation.phase = .deferring) : Ends sender σ x := by
  refine Ends.of_step (by simp only [proceed, hp]; rfl) ?_
  exact ⟨_, .deferred, .refl, rfl⟩

/-- A correlation that has a record to send can come to its end. -/
theorem ends_sending (sender : Sender) (σ : Script) {rows : List StoredChange} (hp : x.correlation.phase = .sending rows)
    (hd : 0 < x.channel.capacity) : Ends sender σ x := by
  cases hr : x.channel.received with
  | false =>
    have hclosed : x.channel.attempt sender (recordOf x.correlation.marker rows) = .closed := by
      simp [Channel.attempt, hr]
    refine Ends.of_step (by simp only [proceed, hp, hclosed]; rfl) ?_
    exact ends_settling sender σ rfl
  | true =>
    refine Ends.of_others (.inr rfl) (Nat.le_refl x.now) ?_
    refine Ends.of_step (by simp only [proceed, hp, Channel.attempt_cleared hr hd]; rfl) ?_
    exact ends_settling sender σ rfl

/-- A correlation that looks for rows can come to its end. -/
theorem ends_looking (sender : Sender) (σ : Script) {i : Nat} (hp : x.correlation.phase = .looking i)
    (hd : 0 < x.channel.capacity) : Ends sender σ x := by
  -- by induction on the look-ups that are left after this one
  obtain ⟨more, hmore⟩ : ∃ more, x.correlation.attempts - i = more := ⟨_, rfl⟩
  induction more generalizing x i with
  | zero =>
    refine Ends.of_step (by simp only [proceed, hp]; rfl) ?_
    split
    · exact ends_sending sender σ rfl hd
    · rw [if_neg (by omega)]
      exact ends_deferring sender σ rfl
  | succ more ih =>
    refine Ends.of_step (by simp only [proceed, hp]; rfl) ?_
    split
    · exact ends_sending sender σ rfl hd
    · rw [if_pos (by omega)]
      refine Ends.of_others (.inl rfl) (Nat.le_add_right x.now x.correlation.settings.retryInterval) ?_
      refine Ends.of_step (by simp only [proceed, Nat.le_refl, if_true]; rfl) ?_
      refine ih rfl hd ?_
      have : x.correlation.attempts - (i + 1) = more := by omega
      exact this

/-- Wherever a correlation is, it can come to its end. -/
theorem ends (sender : Sender) (σ : Script) (x : Course) (hd : 0 < x.channel.capacity) : Ends sender σ x := by
  cases hp : x.correlation.phase with
  | starting =>
    by_cases hb : Text.blank x.correlation.marker.gtid = true
    · refine Ends.of_step (by simp only [proceed, hp, hb, if_true]; rfl) ?_
      exact ⟨_, .skipped, .refl, rfl⟩
    · by_cases hs : σ.processed = true
      · refine Ends.of_step (by simp only [proceed, hp, if_neg hb, hs, if_true]; rfl) ?_
        exact ⟨_, .alreadyProcessed, .refl, rfl⟩
      · refine Ends.of_step (by simp only [proceed, hp, if_neg hb, if_neg hs]; rfl) ?_
        exact ends_looking sender σ rfl hd
  | looking i => exact ends_looking sender σ hp hd
  | waiting i due =>
    refine Ends.of_others (.inl rfl) (Nat.le_max_left x.now due) ?_
    refine Ends.of_step (by simp only [proceed, hp, Nat.le_max_right, if_true]; rfl) ?_
    exact ends_looking sender σ rfl hd
  | sending rows => exact ends_sending sender σ hp hd
  | settling rows => exact ends_settling sender σ hp
  | deferring => exact ends_deferring sender σ hp
  | finished r => exact ⟨x, r, .refl, hp⟩

end Course

/-! ## The result -/

/-- There is a look-up among the first so many that finds rows. -/
def Script.Hits (σ : Script) (n : Nat) : Prop := ∃ k, 1 ≤ k ∧ k ≤ n ∧ σ.finds k = true

namespace DecisionAux

/-- Look-ups count no outcome. -/
theorem outcome_lookups (settings : CorrelatorSettings) (σ : Script) (times : List Nat) :
    (lookups settings σ times).filterMap Deed.outcome? = [] := by
  refine List.filterMap_eq_nil_iff.2 fun deed h => ?_
  obtain ⟨t, -, h⟩ := List.mem_flatMap.1 h
  simp only [lookup, List.mem_append, List.mem_cons, List.not_mem_nil, or_false] at h
  rcases h with ((rfl | rfl) | h) | h
  · rfl
  · rfl
  · split at h
    · rw [List.mem_singleton.1 h]; rfl
    · exact absurd h List.not_mem_nil
  · split at h
    · rw [List.mem_singleton.1 h]; rfl
    · exact absurd h List.not_mem_nil

/-- Offering a record counts no outcome. -/
theorem outcome_offering (r : AuditRecord) (taken : Bool) : (offering r taken).filterMap Deed.outcome? = [] := by
  cases taken <;> rfl

/-- Writing a transaction counts no outcome. -/
theorem outcome_writing (σ : Script) (t : Transaction) : (writing σ t).filterMap Deed.outcome? = [] := by
  cases h : σ.written <;> simp [writing, Deed.outcome?, h]

/-- The look-ups before the last have found nothing, and the last one has found rows. -/
theorem Found.hits {times : List Nat} {rows : List StoredChange} (h : Found settings m σ times rows) :
    σ.Hits (max settings.maxAttempts 1) := by
  refine ⟨times.length, h.some_lookup, h.within, ?_⟩
  obtain ⟨r, rest, hrows⟩ := List.exists_cons_of_ne_nil h.fruitful
  rw [Script.finds, h.answer, hrows]
  rfl

/-- When all look-ups have been made and have found nothing, none of them finds anything. -/
theorem Searched.not_hits {times : List Nat} (h : Searched settings m σ times)
    (hall : times.length = max settings.maxAttempts 1) : ¬σ.Hits (max settings.maxAttempts 1) := by
  rintro ⟨k, h1, hk, hfinds⟩
  rw [h.fruitless k h1 (hall ▸ hk)] at hfinds
  cases hfinds

end DecisionAux

/-- Exactly one outcome is counted, that of the result. -/
theorem Decision.outcome {r : Correlated} {deeds : List Deed} {sent : List AuditRecord}
    (h : Decision settings m σ r deeds sent) : deeds.filterMap Deed.outcome? = [r.outcome] := by
  cases h with
  | skipped => rfl
  | alreadyProcessed => rfl
  | resolved h taken =>
    simp [List.filterMap_cons, outcome_lookups, outcome_offering, outcome_writing, Deed.outcome?, Correlated.outcome]
  | deferred h hall =>
    simp [List.filterMap_cons, outcome_lookups, outcome_writing, Deed.outcome?, Correlated.outcome]

/-- The marker and the script tell the result. -/
theorem Decision.result {r : Correlated} {deeds : List Deed} {sent : List AuditRecord}
    (h : Decision settings m σ r deeds sent) :
    (r = .skipped ↔ Text.blank m.gtid = true) ∧
    (r = .alreadyProcessed ↔ Text.blank m.gtid = false ∧ σ.processed = true) ∧
    ((∃ n, r = .resolved n) ↔
      Text.blank m.gtid = false ∧ σ.processed = false ∧ σ.Hits (max settings.maxAttempts 1)) ∧
    (r = .deferred ↔
      Text.blank m.gtid = false ∧ σ.processed = false ∧ ¬σ.Hits (max settings.maxAttempts 1)) := by
  cases h with
  | skipped hb => simp [hb]
  | alreadyProcessed hb hs => simp [hb, hs]
  | resolved h taken => simp [h.named, h.unprocessed, Found.hits h]
  | deferred h hall => simp [h.named, h.unprocessed, Searched.not_hits h hall]

/-- What becomes of a marker follows from what its store answers, for any answers, any number of attempts and any interval
between them. Every step is one of the script that the store is at the time, and a run on services that change takes the course of
one script, whatever others do to them. A correlation can always come to its end, and when it does, it is skipped exactly when its
GTID is blank, and otherwise processed already exactly when the store says so at first, and otherwise resolved exactly when one of the
look-ups that it may make finds rows, and else deferred. What it has done is in every case what the decision prescribes, and it has
counted one outcome, that of its result. -/
theorem decided_by_script (sender : Sender) (settings : CorrelatorSettings) (m : Marker) (σ : Script)
    (ok : Channel AuditRecord → Channel AuditRecord → Prop) :
    (∀ now c d s, Correlation.step sender now c d s = (proceed sender now (.ofStore s.store c.marker.gtid) c d).map
      fun p => (p.1, p.2.1, p.2.2.foldl carryOut s)) ∧
    (∀ d now s x, Shared.Run sender ok (.start settings m d now s) x →
      ∃ τ, Course.Run sender τ ok (.start settings m d now) x.course) ∧
    ∀ d now x, Course.Run sender σ ok (.start settings m d now) x →
      (0 < x.channel.capacity → ∃ y r, Course.Run sender σ (Drained sender) x y ∧ y.correlation.phase = .finished r) ∧
      ∀ r, x.correlation.phase = .finished r →
        ((r = .skipped ↔ Text.blank m.gtid = true) ∧
          (r = .alreadyProcessed ↔ Text.blank m.gtid = false ∧ σ.processed = true) ∧
          ((∃ n, r = .resolved n) ↔
            Text.blank m.gtid = false ∧ σ.processed = false ∧ σ.Hits (max settings.maxAttempts 1)) ∧
          (r = .deferred ↔
            Text.blank m.gtid = false ∧ σ.processed = false ∧ ¬σ.Hits (max settings.maxAttempts 1))) ∧
        Decision settings m σ r x.deeds x.sent ∧ x.deeds.filterMap Deed.outcome? = [r.outcome] := by
  refine ⟨fun now c d s => step_eq_proceed sender now c d s, fun d now s x => Shared.exists_script, ?_⟩
  intro d now x hr
  refine ⟨Course.ends sender σ x, ?_⟩
  intro r hp
  have hdoing := (Course.going_run hr).doing
  rw [hp] at hdoing
  cases hdoing with
  | finished hdecision => exact ⟨hdecision.result, hdecision, hdecision.outcome⟩

end AuditTrail.Correlation

namespace AuditTrail

open Correlation

namespace ThirdAttempt

/-- A row of the transaction. -/
def row : StoredChange := ⟨"g", "d", "t", .insert, ⟨1, 0⟩, ⟨none, none⟩, 0, 0, ⟨5, 0⟩⟩

/-- The marker. -/
def marker : Marker := ⟨"g", "c", ⟨3, 0⟩⟩

/-- Three attempts with some time between. -/
def settings : CorrelatorSettings := { maxAttempts := 3, retryInterval := 500 }

/-- The store does not answer the first two questions, has no rows at the second look-up and one at the third, and cannot be
written. -/
def script : Script where
  status := .error (.store "down")
  rows i := if i = 1 then .error (.store "down") else if i = 2 then .ok [] else .ok [row]
  written := false

/-- What the correlation does. -/
def deeds : List Deed :=
  [.asked (.error (.store "down")),
    .counted .lookupAttempt, .looked 0 (.error (.store "down")), .counted .lookupError, .waits 500,
    .counted .lookupAttempt, .looked 500 (.ok []), .waits 1000,
    .counted .lookupAttempt, .looked 1000 (.ok [row]),
    .offered (recordOf marker [row]) true, .wrote (.ofMarker marker .processed) false, .counted .statusWriteError,
    .counted (.marker .resolved)]

/-- A course of the correlation with what it has done so far. -/
def course (phase : Phase) (d : Channel AuditRecord) (now done : Nat) (sent : List AuditRecord) : Course :=
  ⟨⟨settings, marker, phase⟩, d, now, deeds.take done, sent⟩

/-- The correlation comes to its end. -/
theorem run : ∃ d, Course.Run .correlator script (fun _ _ => True) (.start settings marker (.ofCapacity 1) 0)
    (course (.finished (.resolved 1)) d 1000 14 [recordOf marker [row]]) := by
  let d : Channel AuditRecord := .ofCapacity 1
  let d' := (d.join .correlator).push .correlator (recordOf marker [row])
  refine ⟨d', ?_⟩
  refine .head (b := course (.looking 1) d 0 1 []) (.step rfl) ?_
  refine .head (b := course (.waiting 2 500) d 0 5 []) (.step rfl) ?_
  refine .head (b := course (.waiting 2 500) d 500 5 []) (.others trivial (by decide)) ?_
  refine .head (b := course (.looking 2) d 500 5 []) (.step rfl) ?_
  refine .head (b := course (.waiting 3 1000) d 500 8 []) (.step rfl) ?_
  refine .head (b := course (.waiting 3 1000) d 1000 8 []) (.others trivial (by decide)) ?_
  refine .head (b := course (.looking 3) d 1000 8 []) (.step rfl) ?_
  refine .head (b := course (.sending [row]) d 1000 10 []) (.step rfl) ?_
  refine .head (b := course (.sending [row]) (d.join .correlator) 1000 10 []) (.step rfl) ?_
  refine .head (b := course (.settling 1) d' 1000 11 [recordOf marker [row]]) (.step rfl) ?_
  exact .single (.step rfl)

end ThirdAttempt

open ThirdAttempt in
/-- A marker whose rows are found at the last attempt is resolved, although all else fails. -/
theorem decided_by_script_third_attempt :
    ∃ x, Course.Run .correlator script (fun _ _ => True) (.start settings marker (.ofCapacity 1) 0) x ∧
      x.correlation.phase = .finished (.resolved 1) ∧ x.deeds = deeds ∧ x.sent = [recordOf marker [row]] ∧
      Decision settings marker script (.resolved 1) x.deeds x.sent ∧ x.deeds.filterMap Deed.outcome? = [.resolved] := by
  obtain ⟨d, hrun⟩ := run
  obtain ⟨-, hdecision, hone⟩ :=
    ((decided_by_script .correlator settings marker script fun _ _ => True).2.2 _ _ _ hrun).2 _ rfl
  exact ⟨_, hrun, rfl, rfl, rfl, hdecision, hone⟩

end AuditTrail
