import AuditTrail.Proofs.Pipeline.Delivery
import AuditTrail.Text.Utf8

/-!
# Which row changes a record contains

The rows of a transaction are looked up once, and the first look-up that finds any decides what is in the record. A row change that
reaches the store after that, with a later batch or from another partition, is in no record, although its transaction is processed
(`processed_complete_false`). What a record does contain is all that was stored for its transaction at that look-up
(`processed_joined`).
-/

namespace AuditTrail

namespace Pipeline

open Scene

/-- When a transaction has become processed, a record of it was sent that contains the row changes stored for it at the moment of
a look-up for it, all of them and at least one. A row change that the record lacks was not yet stored at that moment. -/
theorem processed_joined (ok : Services → Prop) (settings : PipelineSettings) (now : Nat) (s : Services) {x : Scene}
    (hr : Run ok (.start settings now s) x) {g : String} (h0 : s.store.processed g = false)
    (hg : x.services.store.processed g = true) :
    ∃ r ∈ x.enqueued, r.gtid = g ∧ ∃ z, Run ok (.start settings now s) z ∧ Run ok z x ∧ z.LooksUp g ∧
      r.changes = z.services.store.rowsWith g ∧ r.changes ≠ [] ∧
      ∀ c ∈ x.services.store.rows, c.gtid = g → c ∉ r.changes → c ∉ z.services.store.rows := by
  have h := announcing_run hr
  rcases h.processed g hg with hp | ⟨r, hmem, rfl⟩
  · exact absurd (h0.symm.trans hp) (by decide)
  · obtain ⟨z, hz, hzx, hl, hrows, hne⟩ := h.sent r hmem
    refine ⟨r, hmem, rfl, z, hz, hzx, hl, hrows, hne, ?_⟩
    intro c hc hcg hn hcz
    have hlooked : c ∈ z.services.store.rowsWith r.gtid := Store.mem_rowsWith.2 ⟨hcz, hcg⟩
    exact hn (hrows ▸ hlooked)

namespace LateRow

/-- Two row changes of one transaction, in one partition, and the marker of the transaction. -/
def services : Services where
  queue := { topics := [
    ("binlog", [[Utf8.encode "[\"d\",\"t\",\"insert\",\"g\",1]", Utf8.encode "[\"d\",\"t\",\"insert\",\"g\",2]"]]),
    ("tx_info", [[Utf8.encode "[\"g\",\"c\",3]"]])] }

/-- Every row makes a batch. -/
def settings : PipelineSettings := { writer := { batchSize := 1 } }

/-- The first row is stored, the marker is correlated, and then the second row is stored. -/
def schedule : List (Role × Choice × Nat) :=
  steps 4 (.worker 0) ++ steps 3 .writer ++ steps 4 (.feeder 0) ++ steps 6 .correlator ++ steps 3 (.worker 0) ++
    steps 3 .writer

/-- What comes of it: the transaction is processed, two of its rows are stored, and one record with one row was sent. -/
theorem outcome : ((schedule.foldlM after (.start settings 0 services)).map fun x =>
    (x.services.store.processed "g", x.services.store.rows.map fun c => (c.gtid, c.offset),
      x.enqueued.map fun r => r.changes.map (·.offset))) =
    some (true, [("g", 0), ("g", 1)], [[0]]) := by
  decide +kernel

/-- The scene at the end. -/
theorem exists_run : ∃ x, Run Services.Unfailing (.start settings 0 services) x ∧
    x.services.store.processed "g" = true ∧ (∃ c ∈ x.services.store.rows, c.gtid = "g" ∧ c.offset = 1) ∧
    ∀ r ∈ x.enqueued, ∀ c ∈ r.changes, c.offset = 0 := by
  obtain ⟨x, hx, he⟩ := Option.map_eq_some_iff.1 outcome
  obtain ⟨hp, hrows, hrec⟩ : _ ∧ _ ∧ _ := by simpa only [Prod.mk.injEq] using he
  refine ⟨x, run_of_afters hx, hp, ?_, ?_⟩
  · have hmem : ("g", (1 : Int)) ∈ x.services.store.rows.map fun c => (c.gtid, c.offset) := by rw [hrows]; decide
    obtain ⟨c, hc, hce⟩ := List.mem_map.1 hmem
    exact ⟨c, hc, (Prod.mk.inj hce).1, (Prod.mk.inj hce).2⟩
  · intro r hr c hc
    have hr' : r.changes.map (·.offset) ∈ x.enqueued.map fun r => r.changes.map (·.offset) := List.mem_map_of_mem hr
    rw [hrec, List.mem_singleton] at hr'
    have hc' : c.offset ∈ r.changes.map (·.offset) := List.mem_map_of_mem hc
    rw [hr'] at hc'
    exact List.mem_singleton.1 hc'

end LateRow

/-- A run in which the record lacks a row that was stored late. -/
theorem processed_joined_late_row : ∃ x, Run Services.Unfailing (.start LateRow.settings 0 LateRow.services) x ∧
    (∃ c ∈ x.services.store.rows, c.gtid = "g" ∧ c.offset = 1) ∧
    ∃ r ∈ x.enqueued, r.gtid = "g" ∧ ∃ z, Run Services.Unfailing (.start LateRow.settings 0 LateRow.services) z ∧
      Run Services.Unfailing z x ∧ z.LooksUp "g" ∧ r.changes = z.services.store.rowsWith "g" ∧ r.changes ≠ [] := by
  obtain ⟨x, hr, hp, hrow, -⟩ := LateRow.exists_run
  obtain ⟨r, hmem, hg, z, hz, hzx, hl, hrows, hne, -⟩ :=
    processed_joined Services.Unfailing LateRow.settings 0 LateRow.services hr (by decide +kernel) hp
  exact ⟨x, hr, hrow, r, hmem, hg, z, hz, hzx, hl, hrows, hne⟩

/-- That every row change stored for a processed transaction is in some record of it, on every run without failures from an empty
store, is false. -/
theorem processed_complete_false :
    ¬∀ (settings : PipelineSettings) (now : Nat) (s : Services) (x : Scene), s.store.rows = [] →
      s.store.transactions = [] → s.Unfailing → Run Services.Unfailing (.start settings now s) x →
      ∀ g, x.services.store.processed g = true → ∀ c ∈ x.services.store.rows, c.gtid = g →
        ∃ r ∈ x.enqueued, r.gtid = g ∧ c ∈ r.changes := by
  intro h
  obtain ⟨x, hr, hp, ⟨c, hc, hg, ho⟩, hlow⟩ := LateRow.exists_run
  obtain ⟨r, hmem, -, hcr⟩ :=
    h LateRow.settings 0 LateRow.services x rfl rfl ⟨rfl, rfl, rfl, rfl, rfl, rfl⟩ hr "g" hp c hc hg
  have := hlow r hmem c hcr
  omega

end Pipeline

end AuditTrail
