import AuditTrail.Record
import Mathlib.Data.List.Nodup

/-!
# The order of a record

Rows are put in the order of event time, partition and offset by a stable sort. Sorting twice is the same as sorting once, so that
it does not matter where on its way into a record a list of rows is put in order.
-/

namespace AuditTrail

namespace StoredChange

/-- The place in the queue that a row was read from. -/
def place (r : StoredChange) : Int × Int := (r.partition, r.offset)

/-- A row without the time at which it was taken in. -/
def unstamped (r : StoredChange) : StoredChange := { r with ingestedAt := ⟨0, 0⟩ }

end StoredChange

namespace RecordAux

/-- An instant is before another or the other is not after it. -/
theorem lt_iff (a b : Instant) :
    a < b ↔ a.seconds < b.seconds ∨ a.seconds = b.seconds ∧ a.nanos < b.nanos := by
  show a.blt b = true ↔ _
  simp only [Instant.blt, Instant.ble, Bool.not_eq_true', Bool.or_eq_false_iff, Bool.and_eq_false_iff,
    decide_eq_false_iff_not, beq_eq_false_iff_ne, ne_eq]
  omega

/-- The order of rows, spelled out. -/
theorem le_iff (a b : StoredChange) :
    StoredChange.le a b = true ↔ a.eventTime < b.eventTime ∨
      a.eventTime = b.eventTime ∧ (a.partition < b.partition ∨ a.partition = b.partition ∧ a.offset ≤ b.offset) := by
  simp only [StoredChange.le, Bool.or_eq_true, Bool.and_eq_true, decide_eq_true_eq, beq_iff_eq]

/-- The order of rows by their numbers alone: seconds, nanoseconds, partition, offset. -/
theorem le_iff_numbers (a b : StoredChange) :
    StoredChange.le a b = true ↔ a.eventTime.seconds < b.eventTime.seconds ∨ a.eventTime.seconds = b.eventTime.seconds ∧
      (a.eventTime.nanos < b.eventTime.nanos ∨ a.eventTime.nanos = b.eventTime.nanos ∧
        (a.partition < b.partition ∨ a.partition = b.partition ∧ a.offset ≤ b.offset)) := by
  have heq : a.eventTime = b.eventTime ↔
      a.eventTime.seconds = b.eventTime.seconds ∧ a.eventTime.nanos = b.eventTime.nanos := by
    cases a.eventTime
    cases b.eventTime
    exact Instant.mk.injEq .. ▸ Iff.rfl
  rw [le_iff, lt_iff, heq]
  omega

/-- The order of rows is transitive. -/
theorem le_trans (a b c : StoredChange) (hab : StoredChange.le a b = true) (hbc : StoredChange.le b c = true) :
    StoredChange.le a c = true := by
  rw [le_iff_numbers] at *
  omega

/-- The order of rows is total. -/
theorem le_total (a b : StoredChange) : (StoredChange.le a b || StoredChange.le b a) = true := by
  rw [Bool.or_eq_true, le_iff_numbers, le_iff_numbers]
  omega

end RecordAux

open RecordAux

/-- A list in the order of a record has its rows in that order. -/
theorem sorted_recordOrder (rows : List StoredChange) :
    (recordOrder rows).Pairwise fun a b => StoredChange.le a b = true :=
  List.pairwise_mergeSort le_trans le_total rows

/-- Putting rows in order twice is putting them in order once. -/
@[simp] theorem recordOrder_recordOrder (rows : List StoredChange) : recordOrder (recordOrder rows) = recordOrder rows :=
  List.mergeSort_of_pairwise (sorted_recordOrder rows)

/-- Putting rows in order loses none and adds none. -/
@[simp] theorem mem_recordOrder {rows : List StoredChange} {r : StoredChange} : r ∈ recordOrder rows ↔ r ∈ rows :=
  List.mem_mergeSort

/-- Rows of which no two different ones may stand either way round have one order only. -/
theorem recordOrder_eq_of_antisymm {rows rows' : List StoredChange} (h : rows.Perm rows')
    (ha : ∀ a ∈ rows, ∀ b ∈ rows, StoredChange.le a b = true → StoredChange.le b a = true → a = b) :
    recordOrder rows = recordOrder rows' := by
  have hperm : (recordOrder rows).Perm (recordOrder rows') :=
    (List.mergeSort_perm rows _).trans (h.trans (List.mergeSort_perm rows' _).symm)
  refine List.Perm.eq_of_pairwise ?_ (sorted_recordOrder rows) (sorted_recordOrder rows') hperm
  intro a b hma hmb hab hba
  exact ha a (mem_recordOrder.1 hma) b (h.mem_iff.2 (mem_recordOrder.1 hmb)) hab hba

/-- Rows of different places have one order only. -/
theorem recordOrder_eq_of_perm {rows rows' : List StoredChange} (h : rows.Perm rows')
    (hd : (rows.map StoredChange.place).Nodup) : recordOrder rows = recordOrder rows' := by
  refine recordOrder_eq_of_antisymm h ?_
  intro a ha b hb hab hba
  have hplace : a.place = b.place := by
    rw [le_iff_numbers] at hab hba
    exact Prod.ext (show a.partition = b.partition by omega) (show a.offset = b.offset by omega)
  exact List.inj_on_of_nodup_map hd ha hb hplace

/-- The order of rows does not depend on when they were taken in. -/
theorem map_unstamped_recordOrder (rows : List StoredChange) :
    (recordOrder rows).map StoredChange.unstamped = recordOrder (rows.map StoredChange.unstamped) :=
  List.map_mergeSort fun _ _ _ _ => rfl

@[simp] theorem recordOrder_eq_nil {rows : List StoredChange} : recordOrder rows = [] ↔ rows = [] := by
  rw [← List.length_eq_zero_iff, recordOrder, List.length_mergeSort, List.length_eq_zero_iff]

namespace AuditRecord

/-- A name is among the distinct ones exactly if it is among all of them. -/
theorem mem_distinct {names : List String} {n : String} : n ∈ distinct names ↔ n ∈ names := by
  suffices h : ∀ seen : List String,
      n ∈ names.foldl (fun seen n => if n ∈ seen then seen else seen ++ [n]) seen ↔ n ∈ seen ∨ n ∈ names by
    simpa [distinct] using h []
  induction names with
  | nil => simp
  | cons m names ih =>
    intro seen
    rw [List.foldl_cons, ih]
    split
    · rename_i hm
      constructor
      · exact fun h => h.imp_right (List.mem_cons_of_mem _)
      · rintro (h | h)
        · exact Or.inl h
        · rcases List.mem_cons.1 h with rfl | h
          · exact Or.inl hm
          · exact Or.inr h
    · simp only [List.mem_append, List.mem_cons, List.not_mem_nil, or_false, or_assoc]

/-- Distinct names are distinct. -/
theorem nodup_distinct (names : List String) : (distinct names).Nodup := by
  suffices h : ∀ seen : List String, seen.Nodup →
      (names.foldl (fun seen n => if n ∈ seen then seen else seen ++ [n]) seen).Nodup from h [] List.nodup_nil
  induction names with
  | nil => exact fun seen h => h
  | cons n names ih =>
    intro seen h
    rw [List.foldl_cons]
    refine ih _ ?_
    split
    · exact h
    · rename_i hn
      refine List.nodup_append.2 ⟨h, by simp, ?_⟩
      intro a ha b hb hab
      rw [List.mem_singleton] at hb
      exact hn (hb ▸ hab ▸ ha)

end AuditRecord

/-- Of a table of groups by name, the group of a name that is there. -/
theorem lookup_map_self {β : Type} (f : String → β) {names : List String} {n : String} (h : n ∈ names) :
    (names.map fun m => (m, f m)).lookup n = some (f n) := by
  induction names with
  | nil => exact absurd h List.not_mem_nil
  | cons m names ih =>
    rw [List.map_cons, List.lookup_cons]
    by_cases hm : n = m
    · simp [hm]
    · rw [beq_eq_false_iff_ne.2 hm]
      exact ih ((List.mem_cons.1 h).resolve_left hm)

/-- Of a table of groups by name, there is none of a name that is not there. -/
theorem lookup_map_none {β : Type} (f : String → β) {names : List String} {n : String} (h : n ∉ names) :
    (names.map fun m => (m, f m)).lookup n = none := by
  induction names with
  | nil => rfl
  | cons m names ih =>
    obtain ⟨hm, hn⟩ := not_or.1 (mt List.mem_cons.2 h)
    rw [List.map_cons, List.lookup_cons, beq_eq_false_iff_ne.2 hm]
    exact ih hn

/-- There is one group for each GTID among the rows. -/
theorem keys_grouped (rows : List StoredChange) : (grouped rows).map (·.1) = AuditRecord.distinct (rows.map (·.gtid)) := by
  rw [grouped, List.map_map]
  exact List.map_id _

/-- The group of a GTID holds all rows with it, in the order of a record, and there is none without rows. -/
theorem lookup_grouped (rows : List StoredChange) (g : String) :
    (grouped rows).lookup g =
      if rows.filter (·.gtid == g) = [] then none else some (recordOrder (rows.filter (·.gtid == g))) := by
  have hmem : g ∈ AuditRecord.distinct (rows.map (·.gtid)) ↔ rows.filter (·.gtid == g) ≠ [] := by
    rw [AuditRecord.mem_distinct, List.mem_map, Ne, List.filter_eq_nil_iff]
    simp
  by_cases h : rows.filter (·.gtid == g) = []
  · rw [if_pos h]
    exact lookup_map_none _ fun hg => hmem.1 hg h
  · rw [if_neg h]
    exact lookup_map_self (fun g => recordOrder (rows.filter (·.gtid == g))) (hmem.2 h)

end AuditTrail
