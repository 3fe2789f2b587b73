import AuditTrail.Proofs.Pipeline.Emission

/-!
# Markers that come more than once

A marker that is read again finds its transaction processed, and nothing more is sent for it: once a transaction is processed and
no task has it in hand, no record follows. But the status is looked at well before it is written. When the sweeper has the
transaction in hand while the correlator correlates the marker again, both have found it unprocessed, and both send. So that at
most one record is sent is false (`emitted_once_false`); there are two at most, and two only in this case
(`emitted_again_only_if_contested`).
-/

namespace AuditTrail

/-- No query of the store and no upsert is made to fail. -/
structure Services.Answering (s : Services) : Prop where
  queries : s.store.failQueries = false
  upserts : s.store.failUpserts = false

namespace Pipeline

open Scene DeliveryAux EmissionAux HandoverAux

namespace RedeliveryAux

variable {ok : Services → Prop} {x y : Scene} {g : String}

/-- As long as queries are answered, every correlation finds out whether its transaction is processed. -/
theorem asks_of_queries (hq : x.services.store.failQueries = false) : x.Asks g := by
  intro c e y _ _ _ _ _ hu
  cases hp : x.services.store.processed g with
  | false => rfl
  | true =>
    obtain ⟨u, hans, hs⟩ := Store.transaction_of_processed hq hp
    exact absurd (hs.symm.trans (hu u hans)) (by decide)

/-- The transaction has been in hand of both tasks at a moment of a run. -/
def WasContested (ok : Services → Prop) (first x : Scene) (g : String) : Prop :=
  ∃ z, Run ok first z ∧ Run ok z x ∧ z.Contested g

end RedeliveryAux

open RedeliveryAux

section

variable {settings : PipelineSettings} {now : Nat} {s : Services} {x y : Scene} {g : String}

/-- On every run on which the store answers it goes on to answer. -/
theorem answering_run (hs : s.Answering) (hr : Run Services.Answering (.start settings now s) x) :
    x.services.Answering :=
  hr.of_faults (fun _ => id) (fun hf h => ⟨hf.queries.trans h.queries, hf.upserts.trans h.upserts⟩) hs

/-- On every run on which the store answers, the tally of every transaction is sound. -/
theorem sound_run (hs : s.Answering) (hd : (s.store.transactions.map (·.gtid)).Nodup)
    (hr : Run Services.Answering (.start settings now s) x) :
    (x.tally g).Sound (WasContested Services.Answering (.start settings now s) x g) := by
  induction hr with
  | refl => exact sound_start _ g settings now s
  | @tail x y hr hm ih =>
    have hans := answering_run hs hr
    have hstep := step_move (delivering_run hr) hans.upserts ((forward_run hr).distinct hd)
      (asks_of_queries hans.queries) ih.other hm
    have hlonger : (x.tally g).Sound (WasContested Services.Answering (.start settings now s) y g) := by
      refine ih.mono ?_
      rintro ⟨z, hz, hzx, hc⟩
      exact ⟨z, hz, hzx.tail hm, hc⟩
    exact hlonger.step hstep fun hm' ho => ⟨x, hr, .single hm, hm', ho⟩

/-- On every run on which the store answers, nothing more is sent for a transaction that is closed. -/
theorem closed_run (hs : s.Answering) (hd : (s.store.transactions.map (·.gtid)).Nodup)
    (hr : Run Services.Answering (.start settings now s) x) (hc : (x.tally g).Closed)
    (hxy : Run Services.Answering x y) :
    (y.tally g).Closed ∧ (y.tally g).records = (x.tally g).records := by
  induction hxy with
  | refl => exact ⟨hc, rfl⟩
  | tail hxz hm ih =>
    have hr' := hr.trans hxz
    have hans := answering_run hs hr'
    have hstep := step_move (g := g) (delivering_run hr') hans.upserts ((forward_run hr').distinct hd)
      (asks_of_queries hans.queries) (sound_run hs hd hr').other hm
    obtain ⟨hclosed, hsame⟩ := ih.1.step hstep
    exact ⟨hclosed, hsame.trans ih.2⟩

end

/-- However often its marker comes: at most two records are sent for a transaction, and more than one only if there was a moment at
which both correlator and sweeper had it in hand, each having found it unprocessed. Once it is processed and neither has it in
hand, nothing more is sent for it. -/
theorem emitted_again_only_if_contested (settings : PipelineSettings) (now : Nat) (s : Services) {x : Scene}
    (hs : s.Answering) (hd : (s.store.transactions.map (·.gtid)).Nodup)
    (hr : Run Services.Answering (.start settings now s) x) (g : String) :
    AuditRecord.countOf g x.enqueued ≤ 2 ∧
      (1 < AuditRecord.countOf g x.enqueued →
        ∃ z, Run Services.Answering (.start settings now s) z ∧ Run Services.Answering z x ∧ z.Contested g) ∧
      ∀ z, Run Services.Answering (.start settings now s) z → Run Services.Answering z x →
        z.services.store.processed g = true → ¬(z.correlatorShare g).Held → ¬(z.sweeperShare g).Held →
        AuditRecord.countOf g x.enqueued = AuditRecord.countOf g z.enqueued := by
  have hsound := sound_run (g := g) hs hd hr
  refine ⟨Nat.le_trans (Nat.le_add_right _ _) (Nat.le_trans (Nat.le_add_right _ _) hsound.bounded), ?_, ?_⟩
  · exact hsound.of_two fun hm ho => ⟨x, hr, .refl, hm, ho⟩
  · intro z hz hzx hp hc hv
    exact (closed_run hs hd hz ⟨hp, hc, hv⟩ hzx).2

namespace MarkerTwice

/-- A row change, and the marker of its transaction twice. -/
def services : Services where
  queue := { topics := [
    ("binlog", [[Utf8.encode "[\"d\",\"t\",\"insert\",\"g\",1]"]]),
    ("tx_info", [[Utf8.encode "[\"g\",\"c\",3]", Utf8.encode "[\"g\",\"c\",3]"]])] }

/-- Every row makes a batch, and each marker is looked up once. -/
def settings : PipelineSettings := { writer := { batchSize := 1 }, correlator := { maxAttempts := 1 } }

/-- The first marker is deferred, and the second finds its transaction unprocessed. Then the row is stored, the sweeper sends a
record and writes the transaction as processed; and the correlator finds the row and sends another. -/
def schedule : List (Role × Choice × Nat) :=
  steps 7 (.feeder 0) ++ steps 8 .correlator ++ steps 4 (.worker 0) ++ steps 3 .writer ++ sweeps 7 ++ steps 3 .correlator

/-- What comes of it: two records of one transaction. -/
theorem outcome : ((schedule.foldlM after (.start settings 0 services)).map fun x =>
    (AuditRecord.countOf "g" x.enqueued, x.services.store.processed "g")) = some (2, true) := by
  decide +kernel

/-- The scene at the end. -/
theorem exists_run (ok : Services → Prop) :
    ∃ x, Run ok (.start settings 0 services) x ∧ AuditRecord.countOf "g" x.enqueued = 2 := by
  obtain ⟨x, hx, he⟩ := Option.map_eq_some_iff.1 outcome
  obtain ⟨hcount, -⟩ : _ ∧ _ := by simpa only [Prod.mk.injEq] using he
  exact ⟨x, run_of_afters hx, hcount⟩

end MarkerTwice

/-- A run in which a transaction is contested and gets two records. -/
theorem emitted_again_only_if_contested_twice :
    ∃ x, Run Services.Answering (.start MarkerTwice.settings 0 MarkerTwice.services) x ∧
      AuditRecord.countOf "g" x.enqueued = 2 ∧
      ∃ z, Run Services.Answering (.start MarkerTwice.settings 0 MarkerTwice.services) z ∧
        Run Services.Answering z x ∧ z.Contested "g" := by
  obtain ⟨x, hr, hcount⟩ := MarkerTwice.exists_run Services.Answering
  obtain ⟨-, hcontested, -⟩ := emitted_again_only_if_contested MarkerTwice.settings 0 MarkerTwice.services
    ⟨rfl, rfl⟩ (by decide) hr "g"
  exact ⟨x, hr, hcount, hcontested (by omega)⟩

/-- That at most one record is sent for each transaction, on every run without failures from an empty store, is false. -/
theorem emitted_once_false :
    ¬∀ (settings : PipelineSettings) (now : Nat) (s : Services) (x : Scene), s.store.rows = [] →
      s.store.transactions = [] → s.Unfailing → Run Services.Unfailing (.start settings now s) x →
      ∀ g, AuditRecord.countOf g x.enqueued ≤ 1 := by
  intro h
  obtain ⟨x, hr, hcount⟩ := MarkerTwice.exists_run Services.Unfailing
  have hone := h MarkerTwice.settings 0 MarkerTwice.services x rfl rfl ⟨rfl, rfl, rfl, rfl, rfl, rfl⟩ hr "g"
  omega

end Pipeline

end AuditTrail
