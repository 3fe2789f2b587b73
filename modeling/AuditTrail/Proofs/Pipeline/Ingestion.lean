import AuditTrail.Proofs.Pipeline.Writing
import AuditTrail.Text.Utf8

/-!
# At-least-once ingestion

A cursor of the row-change topic lies behind only what is ingested: messages whose rows are stored, if they yield any (`Covered`).
Every run keeps that, however it ends and whatever fails in it, since the cursors that it leaves are those of its writer. A run
reads again what lies beyond the cursors, and once it has read all and stored all that it has read, every message is ingested
(`ingested_at_least_once`).
-/

namespace AuditTrail

namespace Pipeline

/-- There is a message at an offset of a partition, and its row is stored if it yields one. -/
def Ingested (filter : Filter) (topic : String) (s : Services) (p : Int) (k : Nat) : Prop :=
  ∃ payload, s.queue.payload? topic p k = some payload ∧ ∀ e e', RowChange.decode payload = .ok e →
    filter.apply e = (true, e') → ∃ clock, StoredChange.ofEvent e' p k clock ∈ s.store.rows

/-- All messages before a cursor are ingested. -/
def Covered (filter : Filter) (topic : String) (s : Services) : Prop :=
  ∀ p n, 0 ≤ p → s.cursors.stored topic p = some n → ∀ k : Nat, (k : Int) < n → Ingested filter topic s p k

/-- What is left of the services after any number of runs on them. A run may end at any step, by a crash or after all tasks have
been told to stop, and any calls may fail in it. -/
inductive Survives (filter : Filter) (topic : String) (first : Services) : Services → Prop where
  | first : Survives filter topic first first
  | after {s : Services} {settings : PipelineSettings} {now : Nat} {x : Scene} (h : Survives filter topic first s)
      (hs : Ingests filter topic settings) (hr : Scene.Run (fun _ => True) (.start settings now s) x) :
      Survives filter topic first x.services

namespace Scene

/-- Every partition of a topic has a reader that has sent all its messages. -/
def ReadToEnd (topic : String) (x : Scene) : Prop :=
  ∀ p ∈ (x.services.queue.partitions topic).toOption.getD [],
    ∃ r ∈ x.pipeline.workers, r.feed.partition = p ∧ (x.services.queue.size topic p : Int) ≤ r.feed.position

/-- Nothing waits for the writer and nothing is left in its buffer. -/
def Drained (x : Scene) : Prop := x.pipeline.intake.items = [] ∧ ∀ w ∈ x.pipeline.writer, w.buffer = []

instance (topic : String) (x : Scene) : Decidable (x.ReadToEnd topic) :=
  inferInstanceAs (Decidable (∀ p ∈ (x.services.queue.partitions topic).toOption.getD [],
    ∃ r ∈ x.pipeline.workers, r.feed.partition = p ∧ (x.services.queue.size topic p : Int) ≤ r.feed.position))

instance (x : Scene) : Decidable x.Drained :=
  inferInstanceAs (Decidable (x.pipeline.intake.items = [] ∧ ∀ w ∈ x.pipeline.writer, w.buffer = []))

end Scene

namespace IngestionAux

open Scene

variable {ok : Services → Prop} {filter : Filter} {topic : String} {settings : PipelineSettings} {now : Nat}
  {s t : Services} {x y : Scene} {p : Int} {k : Nat}

/-- An ingested message stays ingested. -/
theorem ingested_mono (h : Ingested filter topic s p k) (hq : s.queue.Grows t.queue)
    (hr : ∀ r ∈ s.store.rows, r ∈ t.store.rows) : Ingested filter topic t p k := by
  obtain ⟨payload, hp, hrow⟩ := h
  refine ⟨payload, hq.payload? hp, ?_⟩
  intro e e' hd hf
  obtain ⟨clock, hc⟩ := hrow e e' hd hf
  exact ⟨clock, hr _ hc⟩

/-- The item of a message that decodes and passes the filter is its row. -/
theorem row_of_yields {payload : Octets} {i : Intake} {e e' : RowChange}
    (h : Message.Yields filter ⟨topic, p, k, payload⟩ i) (hd : RowChange.decode payload = .ok e)
    (hf : filter.apply e = (true, e')) : ∃ clock, i = .row (.ofEvent e' p k clock) := by
  obtain ⟨clock, rfl⟩ := h
  exact ⟨clock, by simp [Message.toIntake, hd, hf]⟩

/-- A message whose item is accepted is ingested, if the row of the item is stored. -/
theorem ingested_of_accepted {first : Services} {i : Intake} (h : Passed filter topic first x i) (hp : i.partition = p)
    (hk : i.offset = k) (hrow : ∀ r, i = .row r → r ∈ x.services.store.rows) : Ingested filter topic x.services p k := by
  obtain ⟨k', payload, hpay, hyield, -⟩ := h
  obtain rfl : k' = k := by
    have hoff : i.offset = k' := IntakeAux.offset_of_yields hyield
    omega
  subst hp
  refine ⟨payload, hpay, ?_⟩
  intro e e' hd hf
  obtain ⟨clock, hi⟩ := row_of_yields hyield hd hf
  exact ⟨clock, hrow _ hi⟩

/-- What lies before the start of a reader lies before a cursor. -/
theorem ingested_of_lt_origin (h : Covered filter topic s) (hp : 0 ≤ p) (hk : (k : Int) < origin s topic p) :
    Ingested filter topic s p k := by
  unfold origin at hk
  cases hn : s.cursors.stored topic p with
  | none =>
    rw [hn, Option.getD_none] at hk
    omega
  | some n =>
    rw [hn, Option.getD_some] at hk
    exact h p n hp hn k hk

/-- No item was accepted from before a cursor that was there at first, if no reader started before it. -/
theorem low_of_passed {first : Services} (hlow : ∀ p n, s.cursors.stored topic p = some n → n ≤ origin first topic p)
    (h : ∀ i ∈ x.accepted, Passed filter topic first x i) :
    ∀ i ∈ x.accepted, ∀ n, s.cursors.stored topic i.partition = some n → n ≤ i.offset := by
  intro i hi n hn
  obtain ⟨k, payload, -, hyield, hk, -⟩ := h i hi
  have hoff : i.offset = k := IntakeAux.offset_of_yields hyield
  have hle := hlow i.partition n hn
  omega

/-- A reader starts at the cursor, if there is one. -/
theorem le_origin (p n : Int) (hn : s.cursors.stored topic p = some n) : n ≤ origin s topic p := by
  have horigin : origin s topic p = n := by rw [origin, hn, Option.getD_some]
  omega

/-- The queue only grows on a run. -/
theorem grows_run (h : Run ok x y) : x.services.queue.Grows y.services.queue := by
  induction h with
  | refl => exact .rfl
  | tail hr hm ih => exact ih.trans hm.grows

/-- What is known of the writer at any point of a run, if its readers send their messages in order, and of the rows. -/
theorem safe_of_streaming {first : Services} (ht : settings.rowChangeTopic = topic) (hne : settings.markerTopic ≠ topic)
    (hstream : Streaming filter topic first x) (hr : Run ok (.start settings now s) x) :
    ∃ w taken, x.pipeline.writer = some w ∧ Writer.Safe (0 ≤ ·) s topic (x.view w) taken ∧
      ∀ r ∈ s.store.rows, r ∈ x.services.store.rows := by
  obtain ⟨w, hw, hrun⟩ := writing_run (fun e => hne (e.symm.trans ht)) hr
  obtain ⟨taken, hsafe⟩ := Writer.safe_run (Writer.safe_start _ _ _ _ _ s) hrun hstream.ordered
  exact ⟨w, taken, hw, ht ▸ hsafe, fun r hr => hrun.rows hr⟩

/-- What is known at any point of a run: of the writer, of the readers of row changes, and of the rows. -/
theorem account_run (hs : Ingests filter topic settings) (hr : Run ok (.start settings now s) x) :
    ∃ w taken, x.pipeline.writer = some w ∧ Writer.Safe (0 ≤ ·) s topic (x.view w) taken ∧
      Streaming filter topic s x ∧ ∀ r ∈ s.store.rows, r ∈ x.services.store.rows := by
  have hstream := streaming_run hs hr
  obtain ⟨w, taken, hw, hsafe, hrows⟩ := safe_of_streaming hs.ofTopic hs.other hstream hr
  exact ⟨w, taken, hw, hsafe, hstream, hrows⟩

/-- Every message that lies between the start of its reader and a cursor that was written is ingested. -/
theorem ingested_of_written {first : Services} {w : Writer} {taken : List Intake} {n : Int}
    (hlow : ∀ p n, s.cursors.stored topic p = some n → n ≤ origin first topic p)
    (hsafe : Writer.Safe (0 ≤ ·) s topic (x.view w) taken) (hstream : Streaming filter topic first x) (hp : 0 ≤ p)
    (hn : x.services.cursors.stored topic p = some n) (hwritten : (p, n) ∈ x.written) (hle : origin first topic p ≤ k)
    (hk : (k : Int) < n) : Ingested filter topic x.services p k := by
  obtain ⟨i, hi, hip, hio⟩ := hsafe.exists_of_written hwritten
  obtain ⟨k', payload, -, hyield, -, q, hq, hqp, hlt⟩ := hstream.accepted i hi
  have hoff : i.offset = k' := IntakeAux.offset_of_yields hyield
  have hpart : q.feed.partition = p := hqp.trans hip
  simp only at hio
  obtain ⟨j, hj, hjp, hjk⟩ := (hstream.workers q hq).sent k (hpart ▸ hle) (by omega)
  refine ingested_of_accepted (hstream.accepted j hj) (hjp.trans hpart) hjk ?_
  intro r hjr
  subst hjr
  have hrp : r.partition = p := hjp.trans hpart
  have hro : r.offset = k := hjk
  exact hsafe.batched r (hsafe.batched_of_lt hstream.ordered (low_of_passed hlow hstream.accepted) (hrp ▸ hp) (hrp ▸ hn) hj
    (by omega))

/-- Every run leaves all messages before a cursor ingested, if it finds them so. -/
theorem covered_run (hs : Ingests filter topic settings) (hc : Covered filter topic s)
    (hr : Run ok (.start settings now s) x) : Covered filter topic x.services := by
  obtain ⟨w, taken, hw, hsafe, hstream, hrows⟩ := account_run hs hr
  intro p n hp hn k hk
  rcases hsafe.cursors p n hp hn with hfirst | hwritten
  · exact ingested_mono (hc p n hp hfirst k hk) (grows_run hr) hrows
  · rcases Int.lt_or_le k (origin s topic p) with hlt | hle
    · exact ingested_mono (ingested_of_lt_origin hc hp hlt) (grows_run hr) hrows
    · exact ingested_of_written le_origin hsafe hstream hp hn hwritten hle hk

/-- As long as inserts do not fail, the writer holds no partition. -/
theorem held_run (hok : ∀ t, ok t → t.store.failInserts = false) (h0 : s.store.failInserts = false)
    (hr : Run ok (.start settings now s) x) : ∀ w, x.pipeline.writer = some w → w.held = [] := by
  suffices h : x.services.store.failInserts = false ∧ ∀ w, x.pipeline.writer = some w → w.held = [] from h.2
  induction hr with
  | refl =>
    refine ⟨h0, ?_⟩
    intro w hw
    obtain rfl := Option.some.inj ((started_assemble settings now s).writer.symm.trans hw)
    rfl
  | tail hr hm ih =>
    obtain ⟨hins, hheld⟩ := ih
    refine ⟨hm.of_faults (P := fun t => t.store.failInserts = false) hok (fun hf hx => hf.inserts.trans hx) hins, ?_⟩
    intro w hw
    cases hm with
    | task hstep =>
      cases turn_of_step hstep with
      | writer hw' ht =>
        obtain rfl := Option.some.inj hw
        have hold := hheld _ hw'
        cases Writer.turn_of_step ht with
        | drop hp hb hi => exact absurd (hins.symm.trans (Store.insert_eq_error hi)) (by decide)
        | take hp hc => rw [Writer.held_take]; exact hold
        | _ => exact hold
      | _ => exact hheld w hw
    | _ => exact hheld w hw

/-- On a run on which inserts do not fail and which is drained, all rows that the writer has accepted are stored. -/
theorem stored_of_drained {w : Writer} {taken : List Intake} (hok : ∀ t, ok t → t.store.failInserts = false)
    (h0 : s.store.failInserts = false) (hr : Run ok (.start settings now s) x) (hd : x.Drained)
    (hw : x.pipeline.writer = some w) (hsafe : Writer.Safe (0 ≤ ·) s topic (x.view w) taken) {r : StoredChange}
    (hi : Intake.row r ∈ x.accepted) : r ∈ x.services.store.rows := by
  obtain ⟨hitems, hbuffer⟩ := hd
  have htaken : Intake.row r ∈ taken := by
    have hacc : Intake.row r ∈ (x.view w).accepted := hi
    have hnone : (x.view w).channel.items = [] := hitems
    rwa [hsafe.accepted, hnone, List.append_nil] at hacc
  rcases hsafe.kept r htaken with hb | hb | hh
  · exact hsafe.batched r hb
  · exact absurd (show r ∈ w.buffer from hb) (by simp [hbuffer w hw])
  · exact absurd (show r.partition ∈ w.held from hh) (by simp [held_run hok h0 hr w hw])

/-- On a run on which inserts do not fail, and which has read a partition to its end and is drained, all messages of the partition
are ingested. -/
theorem ingested_of_drained (hok : ∀ t, ok t → t.store.failInserts = false) (h0 : s.store.failInserts = false)
    (hs : Ingests filter topic settings) (hc : Covered filter topic s) (hr : Run ok (.start settings now s) x)
    (hd : x.Drained) {q : Worker} (hq : q ∈ x.pipeline.workers) (hk : (k : Int) < q.feed.position) :
    Ingested filter topic x.services q.feed.partition k := by
  obtain ⟨w, taken, hw, hsafe, hstream, hrows⟩ := account_run hs hr
  have hcaught := hstream.workers q hq
  rcases Int.lt_or_le k (origin s topic q.feed.partition) with hlt | hle
  · exact ingested_mono (ingested_of_lt_origin hc hcaught.numbered hlt) (grows_run hr) hrows
  · obtain ⟨i, hi, hip, hik⟩ := hcaught.sent k hle hk
    refine ingested_of_accepted (hstream.accepted i hi) hip hik ?_
    intro r hir
    subst hir
    exact stored_of_drained hok h0 hr hd hw hsafe hi

end IngestionAux

open IngestionAux

/-- Where there are no cursors at first, all messages before a cursor are ingested after any number of runs. -/
theorem covered_of_survives {filter : Filter} {topic : String} {first s : Services}
    (h0 : ∀ p, first.cursors.stored topic p = none) (h : Survives filter topic first s) : Covered filter topic s := by
  induction h with
  | first => exact fun p n _ hn => absurd ((h0 p).symm.trans hn) (by simp)
  | after h hs hr ih => exact covered_run hs ih hr

/-- After any number of runs on services that had no cursors of the topic at first, each ended at any step and with any failures, a
last run on which inserts do not fail, which has read every partition to its end and is drained, leaves a row in the store for
every message that decodes and passes the filter, with its partition, its offset and its content after masking. -/
theorem ingested_at_least_once (filter : Filter) (topic : String) {first s : Services} {settings : PipelineSettings}
    {now : Nat} {x : Scene} (h0 : ∀ p, first.cursors.stored topic p = none) (hsv : Survives filter topic first s)
    (hs : Ingests filter topic settings) (hins : s.store.failInserts = false)
    (hr : Scene.Run (fun t => t.store.failInserts = false) (.start settings now s) x) (hread : x.ReadToEnd topic)
    (hd : x.Drained) :
    ∀ p log, x.services.queue.log? topic p = some log → ∀ (k : Nat) payload, log[k]? = some payload →
      ∀ e e', RowChange.decode payload = .ok e → filter.apply e = (true, e') →
        ∃ clock, StoredChange.ofEvent e' p k clock ∈ x.services.store.rows := by
  intro p log hlog k payload hk e e' hdec hf
  have hpay : x.services.queue.payload? topic p k = some payload := Option.bind_eq_some_iff.2 ⟨log, hlog, hk⟩
  obtain ⟨ps, hps, hp⟩ := Queue.partitions_of_log? hlog
  obtain ⟨q, hq, hqp, hsize⟩ := hread p (by rw [hps]; exact hp)
  have hlt : (k : Int) < q.feed.position := by
    have hlen : k < log.length := (List.getElem?_eq_some_iff.1 hk).1
    rw [Queue.size, hlog, Option.map_some, Option.getD_some] at hsize
    omega
  obtain ⟨payload', hpay', hrow⟩ := ingested_of_drained (fun _ => id) hins hs (covered_of_survives h0 hsv) hr hd hq hlt
  rw [hqp, hpay] at hpay'
  obtain rfl := Option.some.inj hpay'
  exact hqp ▸ hrow e e' hdec hf

namespace FailedInsert

open Scene

/-- A message with a row change, in a store that takes no rows. -/
def services : Services where
  store := { failInserts := true }
  queue := { topics := [("binlog", [[Utf8.encode "[\"d\",\"t\",\"insert\",\"g\",1]"]]), ("tx_info", [[]])] }

/-- Every row makes a batch. -/
def settings : PipelineSettings := { writer := { batchSize := 1 } }

/-- The row is read and taken in, and the writer tries to store it. -/
def schedule : List (Role × Choice × Nat) := steps 4 (.worker 0) ++ steps 2 .writer

/-- The services with a store that takes rows again. -/
def repaired (s : Services) : Services := { s with store := { s.store with failInserts := false } }

/-- The first run. It ends by a crash after the insert has failed. -/
def crashed : Option Scene := schedule.foldlM after (.start settings 0 services)

/-- The second run, on what the first one left. -/
def recovered : Option Scene := crashed.bind fun x => schedule.foldlM after (.start settings 0 (repaired x.services))

/-- What comes of the two runs: no row at first, and then the row that was lost. -/
theorem outcome : crashed.map (·.services.store.rows) = some [] ∧
    (recovered.any fun x => decide (x.ReadToEnd "binlog" ∧ x.Drained ∧ x.services.store.rows ≠ [])) = true := by
  decide +kernel

/-- The services left by the first run and repaired, and the second run on them. -/
theorem exists_runs : ∃ s x, Survives (.ofConfig .default) "binlog" services s ∧ s.store.failInserts = false ∧
    Run (fun t => t.store.failInserts = false) (.start settings 0 s) x ∧ x.ReadToEnd "binlog" ∧ x.Drained := by
  obtain ⟨y, hy, hprop⟩ := (Option.any_eq_true _ _).1 outcome.2
  obtain ⟨x, hx, hxy⟩ := Option.bind_eq_some_iff.1 hy
  obtain ⟨hread, hd, -⟩ := of_decide_eq_true hprop
  have hrun : Run (fun _ => True) (.start settings 0 services) { x with services := repaired x.services } :=
    (run_of_afters hx).tail (.outside ⟨rfl, rfl, rfl, .rfl, rfl⟩ trivial)
  exact ⟨_, y, .after .first ⟨rfl, rfl, by decide, rfl⟩ hrun, rfl, run_of_afters hxy, hread, hd⟩

end FailedInsert

/-- Two runs, of which the first loses its only row since the insert fails and the second stores it. -/
theorem ingested_at_least_once_failed_insert : ∃ s x, Survives (.ofConfig .default) "binlog" FailedInsert.services s ∧
    Scene.Run (fun t => t.store.failInserts = false) (.start FailedInsert.settings 0 s) x ∧
    ∀ p log, x.services.queue.log? "binlog" p = some log → ∀ (k : Nat) payload, log[k]? = some payload →
      ∀ e e', RowChange.decode payload = .ok e → (Filter.ofConfig .default).apply e = (true, e') →
        ∃ clock, StoredChange.ofEvent e' p k clock ∈ x.services.store.rows := by
  obtain ⟨s, x, hsv, hins, hr, hread, hd⟩ := FailedInsert.exists_runs
  exact ⟨s, x, hsv, hr, ingested_at_least_once (.ofConfig .default) "binlog" (fun _ => rfl) hsv
    ⟨rfl, rfl, by decide, rfl⟩ hins hr hread hd⟩

end Pipeline

end AuditTrail
