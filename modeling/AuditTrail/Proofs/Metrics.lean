import AuditTrail.Metrics
import AuditTrail.Proofs.Decimal.Binary64
import Mathlib.Data.List.Nodup

/-!
# What is exported of the counters

Every update goes two ways: it is counted, and it is exported to series. The counters can be read off the series again: one off each
series of its own, two off the sums over all labels (`Counts.ofSeries`). What is read is what was counted, up to the lookup attempts,
which no series tells.

The steps are followed on the exact numbers (`Counts.ofTotals_record`, `Metrics.Mirrored.record`). That what is shown of them agrees is
a matter of numbers alone: counters go round at the same place (`Counts.fields_ofTotals`), and a gauge shows what is below two to the
53 as it is (`Reading.value_gauge`).
-/

namespace AuditTrail

namespace Series

/-- The series that shows how many transactions are too old to be looked at again. -/
def tooOld : Series := .plain "transactions_abandoned"

/-- The series of the durations of flushes. -/
def durations : Series := .plain "flush_duration_seconds"

/-- A series has a certain name, whatever its label. -/
def isNamed (name : String) (s : Series) : Bool := s.name == "rivven_audit_" ++ name

/-- A series is that of a counter. -/
def IsCounter (s : Series) : Prop := s ≠ tooOld ∧ s ≠ durations

@[simp] theorem plain_inj {a b : String} : plain a = plain b ↔ a = b := by simp [plain]

@[simp] theorem labelled_inj {a b k l v w : String} : labelled a k v = labelled b l w ↔ a = b ∧ k = l ∧ v = w := by
  simp [labelled]

@[simp] theorem plain_ne_labelled {a b k v : String} : plain a ≠ labelled b k v := by simp [plain, labelled]

@[simp] theorem labelled_ne_plain {a b k v : String} : labelled b k v ≠ plain a := plain_ne_labelled.symm

@[simp] theorem isNamed_plain (a b : String) : (plain b).isNamed a = (b == a) := by simp [isNamed, plain]

@[simp] theorem isNamed_labelled (a b k v : String) : (labelled b k v).isNamed a = (b == a) := by simp [isNamed, labelled]

end Series

/-- The sum of what the series under a condition read. -/
def seriesSum (reads : Reading → Nat) (p : Series → Bool) (series : List (Series × Reading)) : Nat :=
  ((series.filter fun e => p e.1).map fun e => reads e.2).sum

/-- What a counter has come to. What is no counter counts nothing. -/
def Reading.count : Reading → Nat
  | .counter n => n
  | _ => 0

/-- What a gauge was last set to. -/
def Reading.level : Reading → Nat
  | .gauge n => n
  | _ => 0

/-- What a step adds to a counter. -/
def Export.count : Export → Nat
  | .add n => n
  | _ => 0

/-- What some steps add to the counters under a condition. -/
def exportSum (p : Series → Bool) (xs : List (Series × Export)) : Nat :=
  ((xs.filter fun x => p x.1).map fun x => x.2.count).sum

/-- The counters as sums over series say them, and how many transactions are too old. No series says how often rows were looked up. -/
def Counts.ofTotals (total : (Series → Bool) → Nat) (tooOld : Nat) : Counts where
  rowChangesReceived := total (· == .plain "row_changes_received_total")
  rowChangesFiltered := total (· == .plain "row_changes_filtered_total")
  decodeErrors := total (Series.isNamed "decode_errors_total")
  cursorErrors := total (· == .plain "cursor_errors_total")
  fetchErrors := total (Series.isNamed "fetch_errors_total")
  flushes := total (· == .labelled "flushes_total" "result" "ok")
  flushFailures := total (· == .labelled "flushes_total" "result" "error")
  rowsFlushed := total (· == .plain "rows_flushed_total")
  rowsDropped := total (· == .plain "rows_dropped_total")
  markersResolved := total (· == .labelled "markers_total" "outcome" "resolved")
  markersDeferred := total (· == .labelled "markers_total" "outcome" "deferred")
  markersAlreadyProcessed := total (· == .labelled "markers_total" "outcome" "already_processed")
  markersSkipped := total (· == .labelled "markers_total" "outcome" "skipped")
  lookupErrors := total (· == .plain "lookup_errors_total")
  statusWriteErrors := total (· == .plain "status_write_errors_total")
  sweepCycles := total (· == .plain "sweep_cycles_total")
  sweepResolved := total (· == .plain "sweep_resolved_total")
  sweepErrors := total (· == .plain "sweep_errors_total")
  abandoned := tooOld
  recordsDelivered := total (· == .labelled "records_delivered_total" "result" "ok")
  deliveryFailures := total (· == .labelled "records_delivered_total" "result" "error")

/-- The counters as the series show them. A series that has not been touched shows nothing. -/
def Counts.ofSeries (series : List (Series × Reading)) : Counts :=
  .ofTotals (seriesSum Reading.value · series) (seriesSum Reading.value (· == .tooOld) series)

/-- An update adds to the counters what it adds to their series. -/
theorem Counts.ofTotals_record (total : (Series → Bool) → Nat) (tooOld : Nat) (u : Update) :
    ofTotals (fun p => total p + exportSum p u.exports)
        (match u with
          | .abandoned n => n
          | _ => tooOld) =
      { (ofTotals total tooOld).record u with lookupAttempts := 0 } := by
  cases u with
  | marker outcome =>
    cases outcome <;> simp [ofTotals, record, exportSum, Update.exports, Export.count, Outcome.name]
  | delivery ok => cases ok <;> simp [ofTotals, record, exportSum, Update.exports, Export.count]
  | _ => simp [ofTotals, record, exportSum, Update.exports, Export.count]

/-- Sums that agree up to where counters go round are shown as the same counters. -/
theorem Counts.fields_ofTotals {total total' : (Series → Bool) → Nat} {tooOld attempts : Nat}
    (h : ∀ p, p .tooOld = false ∧ p .durations = false → total p % UInt64.size = total' p % UInt64.size) :
    ((fields { ofTotals total tooOld with lookupAttempts := attempts }).map fun f => (f.1, f.2 % UInt64.size)) =
      (fields { ofTotals total' tooOld with lookupAttempts := attempts }).map fun f => (f.1, f.2 % UInt64.size) := by
  have hplain (name : String) (h1 : name ≠ "transactions_abandoned") (h2 : name ≠ "flush_duration_seconds") :=
    h (· == .plain name) (by simp [Series.tooOld, Series.durations, h1.symm, h2.symm])
  have hlabelled (name key value : String) := h (· == .labelled name key value) (by simp [Series.tooOld, Series.durations])
  have hnamed (name : String) (h1 : name ≠ "transactions_abandoned") (h2 : name ≠ "flush_duration_seconds") :=
    h (Series.isNamed name) (by simp [Series.tooOld, Series.durations, h1.symm, h2.symm])
  simp [fields, ofTotals, hplain, hlabelled, hnamed]

/-- A reading is of the kind that its series has. -/
def Reading.Suits : Reading → Series → Prop
  | .counter _, s => s.IsCounter
  | .gauge _, s => s = .tooOld
  | .histogram _, s => s = .durations

/-- A step is of the kind that its series has. -/
def Export.Suits : Export → Series → Prop
  | .add _, s => s.IsCounter
  | .set _, s => s = .tooOld
  | .observe, s => s = .durations

/-- What an update exports suits the series. -/
theorem Update.exports_suit (u : Update) : ∀ x ∈ u.exports, x.2.Suits x.1 := by
  cases u <;> simp [exports, Export.Suits, Series.IsCounter, Series.tooOld, Series.durations]

/-- A gauge shows a number below two to the 53 as it is. -/
theorem Reading.value_gauge {n : Nat} (h : n < 2 ^ 53) : (Reading.gauge n).value = n := by
  have hmod : n % UInt64.size = n := Nat.mod_eq_of_lt (Nat.lt_trans h (by decide))
  obtain ⟨x, hx, hratio⟩ := Binary64.exists_ofRatio h
  rw [value, hmod, hx]
  exact hratio

@[simp] theorem seriesSum_nil (reads : Reading → Nat) (p : Series → Bool) : seriesSum reads p [] = 0 := rfl

theorem seriesSum_cons (reads : Reading → Nat) (p : Series → Bool) (s : Series) (r : Reading) (rest : List (Series × Reading)) :
    seriesSum reads p ((s, r) :: rest) = (if p s then reads r else 0) + seriesSum reads p rest := by
  by_cases hp : p s <;> simp [seriesSum, hp]

/-- Series that are not there sum up to nothing. -/
theorem seriesSum_eq_zero {reads : Reading → Nat} {p : Series → Bool} {series : List (Series × Reading)}
    (h : ∀ e ∈ series, p e.1 = false) : seriesSum reads p series = 0 := by
  have hnone : (series.filter fun e => p e.1) = [] := List.filter_eq_nil_iff.2 fun e he => by simp [h e he]
  rw [seriesSum, hnone]
  rfl

@[simp] theorem exportSum_nil (p : Series → Bool) : exportSum p [] = 0 := rfl

theorem exportSum_cons (p : Series → Bool) (x : Series × Export) (rest : List (Series × Export)) :
    exportSum p (x :: rest) = (if p x.1 then x.2.count else 0) + exportSum p rest := by
  by_cases hp : p x.1 <;> simp [exportSum, hp]

/-- Exported series are there once, and each holds what suits it. -/
structure Exported (series : List (Series × Reading)) : Prop where
  once : (series.map Prod.fst).Nodup
  suits : ∀ e ∈ series, e.2.Suits e.1

namespace Exported

variable {series : List (Series × Reading)} {s : Series} {x : Export}

theorem nil : Exported [] := ⟨List.nodup_nil, fun _ he => absurd he List.not_mem_nil⟩

theorem tail {e : Series × Reading} {rest : List (Series × Reading)} (h : Exported (e :: rest)) : Exported rest where
  once := (List.nodup_cons.1 h.once).2
  suits e' he' := h.suits e' (List.mem_cons_of_mem e he')

/-- A step touches its own series and, if that is new, adds it. -/
theorem mem_step {t : Series} (h : t ∈ (Metrics.step series s x).map Prod.fst) : t = s ∨ t ∈ series.map Prod.fst := by
  induction series with
  | nil => exact .inl (by simpa [Metrics.step] using h)
  | cons e rest ih =>
    rw [Metrics.step] at h
    split at h
    · exact .inr (by simpa using h)
    · rcases List.mem_cons.1 (List.map_cons ▸ h) with rfl | hrest
      · exact .inr List.mem_cons_self
      · exact (ih hrest).imp_right (List.mem_cons_of_mem _)

/-- A step of the right kind leaves the reading of the right kind. -/
theorem apply_suits {r : Option Reading} (hx : x.Suits s) : (x.apply r).Suits s := by
  cases x with
  | add n => rcases r with _ | ⟨m | m | m⟩ <;> exact hx
  | set n => exact hx
  | observe => rcases r with _ | ⟨m | m | m⟩ <;> exact hx

theorem step (h : Exported series) (hx : x.Suits s) : Exported (Metrics.step series s x) := by
  induction series with
  | nil => exact ⟨by simp [Metrics.step], by simpa [Metrics.step] using apply_suits hx⟩
  | cons e rest ih =>
    obtain ⟨t, r⟩ := e
    obtain ⟨hnew, -⟩ := List.nodup_cons.1 h.once
    rw [Metrics.step]
    split
    · rename_i hts
      subst hts
      exact ⟨h.once, List.forall_mem_cons.2 ⟨apply_suits hx, h.tail.suits⟩⟩
    · rename_i hts
      have hfirst : t ∉ (Metrics.step rest s x).map Prod.fst := fun hmem => (mem_step hmem).elim hts hnew
      exact ⟨List.nodup_cons.2 ⟨hfirst, (ih h.tail).once⟩,
        List.forall_mem_cons.2 ⟨h.suits _ List.mem_cons_self, (ih h.tail).suits⟩⟩

/-- A step adds to the counters what it says. -/
theorem count_step (h : Exported series) (hx : x.Suits s) (p : Series → Bool) :
    seriesSum Reading.count p (Metrics.step series s x) = seriesSum Reading.count p series + if p s then x.count else 0 := by
  induction series with
  | nil =>
    rw [Metrics.step, seriesSum_cons]
    cases x <;> simp [Export.apply, Reading.count, Export.count]
  | cons e rest ih =>
    obtain ⟨t, r⟩ := e
    have hr := h.suits _ List.mem_cons_self
    rw [Metrics.step]
    split
    · rename_i hts
      subst hts
      have hcount : (x.apply (some r)).count = r.count + x.count := by
        cases x <;> cases r <;> simp_all [Reading.Suits, Export.Suits, Export.apply, Reading.count, Export.count, Series.IsCounter]
      rw [seriesSum_cons, seriesSum_cons, hcount]
      split <;> omega
    · rw [seriesSum_cons, seriesSum_cons, ih h.tail]
      omega

/-- The gauge shows what it is set to. -/
theorem level_set (h : Exported series) (n : Nat) :
    seriesSum Reading.level (· == .tooOld) (Metrics.step series .tooOld (.set n)) = n := by
  induction series with
  | nil => simp [Metrics.step, seriesSum_cons, Export.apply, Reading.level]
  | cons e rest ih =>
    obtain ⟨t, r⟩ := e
    obtain ⟨hnew, -⟩ := List.nodup_cons.1 h.once
    rw [Metrics.step]
    split
    · rename_i hts
      subst hts
      have hrest : seriesSum Reading.level (· == Series.tooOld) rest = 0 :=
        seriesSum_eq_zero fun e' he' => beq_eq_false_iff_ne.2 fun heq => hnew (List.mem_map.2 ⟨e', he', heq⟩)
      rw [seriesSum_cons, hrest]
      simp [Export.apply, Reading.level]
    · rename_i hts
      rw [seriesSum_cons, ih h.tail]
      simp [hts]

/-- A step of another series leaves the gauge as it is. -/
theorem level_step (hs : s ≠ .tooOld) :
    seriesSum Reading.level (· == .tooOld) (Metrics.step series s x) = seriesSum Reading.level (· == .tooOld) series := by
  induction series with
  | nil => simp [Metrics.step, seriesSum_cons, hs]
  | cons e rest ih =>
    obtain ⟨t, r⟩ := e
    rw [Metrics.step]
    split
    · rename_i hts
      subst hts
      simp [seriesSum_cons, hs]
    · rw [seriesSum_cons, seriesSum_cons, ih]

end Exported

/-- Series after some steps. -/
def Metrics.steps (series : List (Series × Reading)) (xs : List (Series × Export)) : List (Series × Reading) :=
  xs.foldl (fun acc x => step acc x.1 x.2) series

namespace Exported

variable {series : List (Series × Reading)} {xs : List (Series × Export)}

theorem steps (h : Exported series) (hxs : ∀ x ∈ xs, x.2.Suits x.1) : Exported (Metrics.steps series xs) := by
  induction xs generalizing series with
  | nil => exact h
  | cons x rest ih =>
    obtain ⟨hx, hrest⟩ := List.forall_mem_cons.1 hxs
    exact ih (h.step hx) hrest

/-- Some steps add to the counters what they say. -/
theorem count_steps (h : Exported series) (hxs : ∀ x ∈ xs, x.2.Suits x.1) (p : Series → Bool) :
    seriesSum Reading.count p (Metrics.steps series xs) = seriesSum Reading.count p series + exportSum p xs := by
  induction xs generalizing series with
  | nil => rfl
  | cons x rest ih =>
    obtain ⟨hx, hrest⟩ := List.forall_mem_cons.1 hxs
    rw [exportSum_cons, ← Nat.add_assoc, ← h.count_step hx]
    exact ih (h.step hx) hrest

/-- Steps that leave the gauge alone do so one after another. -/
theorem level_steps (hxs : ∀ x ∈ xs, x.1 ≠ .tooOld) :
    seriesSum Reading.level (· == .tooOld) (Metrics.steps series xs) = seriesSum Reading.level (· == .tooOld) series := by
  induction xs generalizing series with
  | nil => rfl
  | cons x rest ih =>
    obtain ⟨hx, hrest⟩ := List.forall_mem_cons.1 hxs
    exact (ih hrest).trans (level_step hx)

/-- An update leaves the gauge at what it sets it to, if it does. -/
theorem level_update (h : Exported series) (u : Update) :
    seriesSum Reading.level (· == .tooOld) (Metrics.steps series u.exports) =
      match u with
      | .abandoned n => n
      | _ => seriesSum Reading.level (· == .tooOld) series := by
  cases u with
  | abandoned n => exact h.level_set n
  | _ => exact level_steps (by simp [Update.exports, Series.tooOld])

/-- A counter is shown as it is, up to where it goes round. -/
theorem value_counters (h : Exported series) {p : Series → Bool} (hgauge : p .tooOld = false) (hhistogram : p .durations = false) :
    seriesSum Reading.value p series % UInt64.size = seriesSum Reading.count p series % UInt64.size := by
  induction series with
  | nil => rfl
  | cons e rest ih =>
    obtain ⟨s, r⟩ := e
    have hr := h.suits _ List.mem_cons_self
    rw [seriesSum_cons, seriesSum_cons]
    split
    · rename_i hp
      cases r with
      | counter n =>
        have hvalue : (Reading.counter n).value = n % UInt64.size := rfl
        rw [hvalue, Nat.mod_add_mod, Nat.add_mod n, ih h.tail, ← Nat.add_mod]
        rfl
      | gauge n =>
        have hs : s = .tooOld := hr
        simp [hs, hgauge] at hp
      | histogram n =>
        have hs : s = .durations := hr
        simp [hs, hhistogram] at hp
    · simpa using ih h.tail

/-- The gauge is shown as it is below two to the 53. -/
theorem value_level (h : Exported series) (hlevel : seriesSum Reading.level (· == .tooOld) series < 2 ^ 53) :
    seriesSum Reading.value (· == .tooOld) series = seriesSum Reading.level (· == .tooOld) series := by
  induction series with
  | nil => rfl
  | cons e rest ih =>
    obtain ⟨s, r⟩ := e
    have hr := h.suits _ List.mem_cons_self
    rw [seriesSum_cons] at hlevel ⊢
    rw [seriesSum_cons, ih h.tail (by omega)]
    split
    · rename_i hp
      have hs : s = .tooOld := by simpa using hp
      subst hs
      cases r with
      | counter n => exact absurd rfl hr.1
      | gauge n =>
        rw [Reading.value_gauge (by simp [Reading.level] at hlevel; omega)]
        rfl
      | histogram n =>
        have hs : Series.tooOld = Series.durations := hr
        simp [Series.tooOld, Series.durations] at hs
    · rfl

end Exported

/-- What is counted and what is exported belong together. -/
structure Metrics.Mirrored (m : Metrics) : Prop where
  exported : Exported m.series
  counts : { m.counts with lookupAttempts := 0 } =
    .ofTotals (seriesSum Reading.count · m.series) (seriesSum Reading.level (· == .tooOld) m.series)

namespace Metrics.Mirrored

variable {m : Metrics}

theorem empty : Mirrored .empty := ⟨.nil, rfl⟩

/-- An update is counted and exported alike. -/
theorem record (h : Mirrored m) (u : Update) : Mirrored (m.record u) where
  exported := h.exported.steps u.exports_suit
  counts := by
    have hseries : (m.record u).series = steps m.series u.exports := rfl
    have hsums : (seriesSum Reading.count · (m.record u).series) =
        fun p => seriesSum Reading.count p m.series + exportSum p u.exports :=
      funext fun p => h.exported.count_steps u.exports_suit p
    rw [hsums, hseries, h.exported.level_update, Counts.ofTotals_record, ← h.counts]
    cases u with
    | marker outcome => cases outcome <;> rfl
    | delivery ok => cases ok <;> rfl
    | _ => rfl

/-- All that is shown of the counters but the lookup attempts is shown by the series. -/
theorem snapshot (h : Mirrored m) (hgauge : m.counts.abandoned < 2 ^ 53) :
    m.snapshot = (Counts.fields { Counts.ofSeries m.series with lookupAttempts := m.counts.lookupAttempts }).map
      fun f => (f.1, f.2 % UInt64.size) := by
  have hcounts : m.counts = { Counts.ofTotals (seriesSum Reading.count · m.series)
      (seriesSum Reading.level (· == .tooOld) m.series) with lookupAttempts := m.counts.lookupAttempts } := by
    rw [← h.counts]
  have hlevel : m.counts.abandoned = seriesSum Reading.level (· == .tooOld) m.series := by
    rw [hcounts]
    rfl
  rw [Metrics.snapshot, Counts.ofSeries, h.exported.value_level (hlevel ▸ hgauge)]
  conv_lhs => rw [hcounts]
  exact Counts.fields_ofTotals fun p hp => (h.exported.value_counters hp.1 hp.2).symm

end Metrics.Mirrored

namespace Metrics

/-- Lookup attempts leave the series as they are. -/
theorem foldl_record_series (us : List Update) {m m' : Metrics} (h : m.series = m'.series) :
    (us.foldl record m).series = ((us.filter (· ≠ .lookupAttempt)).foldl record m').series := by
  induction us generalizing m m' with
  | nil => exact h
  | cons u rest ih =>
    by_cases hu : u = .lookupAttempt
    · subst hu
      exact ih h
    · rw [List.filter_cons_of_pos (by simpa using hu)]
      exact ih (congrArg (steps · u.exports) h)

/-- Lookup attempts are counted one by one. -/
theorem foldl_record_lookupAttempts (us : List Update) (m : Metrics) :
    (us.foldl record m).counts.lookupAttempts = m.counts.lookupAttempts + us.count .lookupAttempt := by
  induction us generalizing m with
  | nil => rfl
  | cons u rest ih =>
    have hu : (m.record u).counts.lookupAttempts = m.counts.lookupAttempts + if u == .lookupAttempt then 1 else 0 := by
      cases u with
      | marker outcome => cases outcome <;> rfl
      | delivery ok => cases ok <;> rfl
      | _ => rfl
    rw [List.foldl_cons, ih, hu, List.count_cons]
    omega

end Metrics

/-- What is counted and what is exported belong together after any updates. -/
theorem Metrics.Mirrored.foldl {m : Metrics} (h : m.Mirrored) (us : List Update) : (us.foldl Metrics.record m).Mirrored := by
  induction us generalizing m with
  | nil => exact h
  | cons u rest ih => exact ih (h.record u)

/-- What is shown of the counters is what the series show, as long as the transactions that are too old are fewer than two to the 53.
How often rows were looked up is shown, too, but no series tells: the series are the same without these updates. -/
theorem snapshot_of_series (us : List Update) (h : (us.foldl Metrics.record .empty).counts.abandoned < 2 ^ 53) :
    let m := us.foldl Metrics.record .empty
    (m.series.map Prod.fst).Nodup ∧
      m.snapshot = (Counts.fields { Counts.ofSeries m.series with lookupAttempts := us.count .lookupAttempt }).map
        (fun f => (f.1, f.2 % UInt64.size)) ∧
      m.series = ((us.filter (· ≠ .lookupAttempt)).foldl Metrics.record .empty).series := by
  have hmirrored := Metrics.Mirrored.empty.foldl us
  have hlookups := Metrics.foldl_record_lookupAttempts us .empty
  rw [show Metrics.empty.counts.lookupAttempts = 0 from rfl, Nat.zero_add] at hlookups
  exact ⟨hmirrored.exported.once, hlookups ▸ hmirrored.snapshot h, Metrics.foldl_record_series us rfl⟩

/-- Two failed fetches with their codes, a flush that took two tries, a sweep that left transactions behind, and two lookups. -/
theorem snapshot_of_series_two_codes :
    let us : List Update := [.fetchError "timeout", .flushFailure 2, .flush 2, .fetchError "broken_pipe", .lookupAttempt,
      .lookupAttempt, .marker .deferred, .sweep 1, .abandoned 7, .abandoned 3]
    let m := us.foldl Metrics.record .empty
    m.series.length = 11 ∧ m.counts.fetchErrors = 2 ∧ m.counts.abandoned = 3 ∧
      m.snapshot = (Counts.fields { Counts.ofSeries m.series with lookupAttempts := 2 }).map
        fun f => (f.1, f.2 % UInt64.size) := by
  intro us m
  exact ⟨by decide +kernel, by decide +kernel, by decide +kernel, (snapshot_of_series us (by decide +kernel)).2.1⟩

/-- Whatever series are looked at, how often rows were looked up cannot be read off them. -/
theorem lookup_attempts_exported_false :
    ¬ ∃ p : Series → Bool, ∀ us : List Update,
      let m := us.foldl Metrics.record .empty
      m.snapshot.lookup "lookup_attempts" = some (seriesSum Reading.value p m.series % UInt64.size) := by
  rintro ⟨p, h⟩
  have hshown : ([Update.lookupAttempt].foldl Metrics.record .empty).snapshot.lookup "lookup_attempts" = some 1 := by
    decide +kernel
  have hseries : seriesSum Reading.value p ([Update.lookupAttempt].foldl Metrics.record .empty).series = 0 := rfl
  have hread := hshown.symm.trans (h [.lookupAttempt])
  rw [hseries] at hread
  exact absurd hread (by decide)

end AuditTrail
