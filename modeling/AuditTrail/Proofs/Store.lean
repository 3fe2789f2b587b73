import AuditTrail.Proofs.Record
import AuditTrail.Store

/-!
# What the store keeps and what it answers

Rows are only appended. Of a transaction the store keeps the version with the highest status, the last one of those, so that a
transaction that is processed stays so. A query answers about the store as it is at that moment, or fails.
-/

namespace AuditTrail

namespace Store

/-- Whether the transaction with a GTID is stored as processed. -/
def processed (s : Store) (g : String) : Bool := (s.lookup g).any (·.isProcessed)

theorem processed_iff {s : Store} {g : String} :
    s.processed g = true ↔ ∃ t, s.lookup g = some t ∧ t.isProcessed = true := by
  unfold processed
  cases s.lookup g <;> simp

/-- Whether there is a transaction with a GTID in the store. -/
def Holds (s : Store) (g : String) : Prop := ∃ t ∈ s.transactions, t.gtid = g

theorem holds_iff {s : Store} {g : String} : s.Holds g ↔ g ∈ s.transactions.map (·.gtid) := List.mem_map.symm

/-- A transaction that is found is there. -/
theorem holds_of_lookup {s : Store} {g : String} {t : Transaction} (h : s.lookup g = some t) : s.Holds g :=
  ⟨t, List.mem_of_find?_eq_some h, by simpa using List.find?_some h⟩

/-- A transaction that is processed is there. -/
theorem holds_of_processed {s : Store} {g : String} (h : s.processed g = true) : s.Holds g := by
  obtain ⟨t, hl, -⟩ := processed_iff.1 h
  exact holds_of_lookup hl

/-! ## Writes -/

/-- Rows are stored at the end, and only when inserts do not fail. -/
theorem insert_eq_ok {s s' : Store} {rows : List StoredChange} (h : s.insert rows = .ok s') :
    s.failInserts = false ∧ s' = { s with rows := s.rows ++ rows, insertBatches := s.insertBatches + 1 } := by
  unfold insert at h
  split at h
  · exact absurd h (by simp)
  · rename_i hf
    exact ⟨by simpa using hf, (Except.ok.inj h).symm⟩

/-- Rows cannot be stored only when inserts fail. -/
theorem insert_eq_error {s : Store} {rows : List StoredChange} {e : Error} (h : s.insert rows = .error e) :
    s.failInserts = true := by
  unfold insert at h
  split at h
  · assumption
  · exact absurd h (by simp)

/-- Transactions are put one after the other, and only when upserts do not fail. -/
theorem upsert_eq_ok {s s' : Store} {ts : List Transaction} (h : s.upsert ts = .ok s') :
    s.failUpserts = false ∧ s' = { s with
      transactions := ts.foldl (fun acc t => put t acc) s.transactions, upsertBatches := s.upsertBatches + 1 } := by
  unfold upsert at h
  split at h
  · exact absurd h (by simp)
  · rename_i hf
    exact ⟨by simpa using hf, (Except.ok.inj h).symm⟩

/-- Of two versions of a transaction, the one that stays. -/
def latest (t : Transaction) : Option Transaction → Transaction
  | some u => if t.status.code < u.status.code then u else t
  | none => t

/-- Whichever of two versions of a transaction stays, its GTID does. -/
theorem gtid_kept {t u : Transaction} (h : u.gtid = t.gtid) :
    (if t.status.code < u.status.code then u else t).gtid = t.gtid := by
  split
  · exact h
  · rfl

/-- Putting a transaction changes what is found under its own GTID only. -/
theorem find?_put (t : Transaction) (ts : List Transaction) (g : String) :
    (put t ts).find? (·.gtid == g) =
      if t.gtid = g then some (latest t (ts.find? (·.gtid == g))) else ts.find? (·.gtid == g) := by
  induction ts with
  | nil =>
    by_cases h : t.gtid = g
    · simp [put, latest, h]
    · simp [put, h]
  | cons u ts ih =>
    simp only [put]
    by_cases hu : u.gtid = t.gtid
    · rw [if_pos hu, List.find?_cons, List.find?_cons, gtid_kept hu, hu]
      by_cases h : t.gtid = g
      · simp [h, latest]
      · have hg : (t.gtid == g) = false := by simpa using h
        simp only [hg, if_neg h]
    · rw [if_neg hu, List.find?_cons, List.find?_cons, ih]
      by_cases h : t.gtid = g
      · have hug : (u.gtid == g) = false := by simpa [h] using hu
        simp only [hug]
      · simp only [if_neg h]

/-- The version that stays is processed exactly if one of the two is. -/
theorem isProcessed_latest (t : Transaction) (u : Option Transaction) :
    (latest t u).isProcessed = (u.any (·.isProcessed) || t.isProcessed) := by
  cases u with
  | none => simp [latest]
  | some u =>
    obtain ⟨_, _, _, st⟩ := t
    obtain ⟨_, _, _, su⟩ := u
    cases st <;> cases su <;> rfl

/-- After putting a transaction, those are processed that were so before, and it is if it says so. -/
theorem processed_put (t : Transaction) (ts : List Transaction) (g : String) :
    ((put t ts).find? (·.gtid == g)).any (·.isProcessed) =
      ((ts.find? (·.gtid == g)).any (·.isProcessed) || (t.gtid == g && t.isProcessed)) := by
  rw [find?_put]
  by_cases h : t.gtid = g
  · rw [if_pos h, Option.any_some, isProcessed_latest, beq_iff_eq.2 h, Bool.true_and]
  · rw [if_neg h, beq_eq_false_iff_ne.2 h, Bool.false_and, Bool.or_false]

/-- After an upsert, those transactions are processed that were so before or are written as such. -/
theorem processed_upsert {s s' : Store} {ts : List Transaction} (h : s.upsert ts = .ok s') (g : String) :
    s'.processed g = (s.processed g || ts.any fun t => t.gtid == g && t.isProcessed) := by
  obtain ⟨-, rfl⟩ := upsert_eq_ok h
  unfold processed lookup
  generalize s.transactions = us
  clear h
  induction ts generalizing us with
  | nil => simp
  | cons t ts ih => rw [List.foldl_cons, ih, processed_put, List.any_cons, Bool.or_assoc]

/-- Putting a transaction adds no GTID but its own, and adds that only if it is new. -/
theorem gtids_put (t : Transaction) (ts : List Transaction) :
    (put t ts).map (·.gtid) = if t.gtid ∈ ts.map (·.gtid) then ts.map (·.gtid) else ts.map (·.gtid) ++ [t.gtid] := by
  induction ts with
  | nil => simp [put]
  | cons u ts ih =>
    simp only [put, List.map_cons, List.mem_cons]
    by_cases hu : u.gtid = t.gtid
    · rw [if_pos hu, List.map_cons, gtid_kept hu, ← hu, if_pos (Or.inl rfl)]
    · have hne : ¬t.gtid = u.gtid := fun e => hu e.symm
      rw [if_neg hu, List.map_cons, ih]
      simp only [hne, false_or]
      split <;> simp

/-- After an upsert, those transactions are there that were so before or are written. -/
theorem holds_upsert {s s' : Store} {ts : List Transaction} (h : s.upsert ts = .ok s') {g : String} :
    s'.Holds g ↔ s.Holds g ∨ ∃ t ∈ ts, t.gtid = g := by
  obtain ⟨-, rfl⟩ := upsert_eq_ok h
  clear h
  simp only [holds_iff]
  generalize s.transactions = us
  induction ts generalizing us with
  | nil => simp
  | cons t ts ih =>
    have hput : g ∈ (put t us).map (·.gtid) ↔ g ∈ us.map (·.gtid) ∨ t.gtid = g := by
      rw [gtids_put]
      split
      · rename_i ht
        exact ⟨Or.inl, fun h => h.elim id fun e => e ▸ ht⟩
      · simp [eq_comm]
    simp only [List.foldl_cons, ih, hput, List.mem_cons, exists_eq_or_imp, or_assoc]

/-- A transaction that is put leaves no other but those that were there. -/
theorem mem_put {t u : Transaction} {ts : List Transaction} (h : u ∈ put t ts) : u ∈ ts ∨ u = t := by
  induction ts with
  | nil => exact Or.inr (List.mem_singleton.1 h)
  | cons v ts ih =>
    simp only [put] at h
    split at h
    · rcases List.mem_cons.1 h with rfl | h
      · split
        · exact Or.inl List.mem_cons_self
        · exact Or.inr rfl
      · exact Or.inl (List.mem_cons_of_mem _ h)
    · rcases List.mem_cons.1 h with rfl | h
      · exact Or.inl List.mem_cons_self
      · exact (ih h).imp_left (List.mem_cons_of_mem _)

/-- After an upsert, every transaction was there before or is one that was written. -/
theorem mem_upsert {s s' : Store} {ts : List Transaction} (h : s.upsert ts = .ok s') {t : Transaction}
    (ht : t ∈ s'.transactions) : t ∈ s.transactions ∨ t ∈ ts := by
  obtain ⟨-, rfl⟩ := upsert_eq_ok h
  clear h
  simp only at ht
  generalize s.transactions = us at ht ⊢
  induction ts generalizing us with
  | nil => exact Or.inl ht
  | cons u ts ih =>
    rcases ih (put u us) ht with hput | htail
    · rcases mem_put hput with hmem | rfl
      · exact Or.inl hmem
      · exact Or.inr List.mem_cons_self
    · exact Or.inr (List.mem_cons_of_mem _ htail)

/-- An upsert keeps the GTIDs of the transactions different. -/
theorem nodup_upsert {s s' : Store} {ts : List Transaction} (h : s.upsert ts = .ok s')
    (hs : (s.transactions.map (·.gtid)).Nodup) : (s'.transactions.map (·.gtid)).Nodup := by
  obtain ⟨-, rfl⟩ := upsert_eq_ok h
  clear h
  simp only
  generalize s.transactions = us at hs ⊢
  induction ts generalizing us with
  | nil => exact hs
  | cons t ts ih =>
    rw [List.foldl_cons]
    refine ih _ ?_
    rw [gtids_put]
    split
    · exact hs
    · rename_i hn
      refine List.nodup_append.2 ⟨hs, by simp, ?_⟩
      intro a ha b hb hab
      rw [List.mem_singleton] at hb
      subst hab
      exact hn (hb ▸ ha)

/-- Of two states of the store, in the second no transaction is gone, no processed one has gone back, and GTIDs that were different
are so. -/
structure Forward (s t : Store) : Prop where
  processed : ∀ g, s.processed g = true → t.processed g = true
  distinct : (s.transactions.map (·.gtid)).Nodup → (t.transactions.map (·.gtid)).Nodup
  holds : ∀ g, s.Holds g → t.Holds g

theorem Forward.rfl {s : Store} : Forward s s := ⟨fun _ => id, id, fun _ => id⟩

theorem Forward.trans {s t u : Store} (h : Forward s t) (h' : Forward t u) : Forward s u := by
  refine ⟨?_, ?_, ?_⟩
  · intro g hg
    exact h'.processed g (h.processed g hg)
  · intro hd
    exact h'.distinct (h.distinct hd)
  · intro g hg
    exact h'.holds g (h.holds g hg)

/-- What happens to the rest of the store does not matter. -/
theorem forward_of_eq {s t : Store} (h : t.transactions = s.transactions) : Forward s t := by
  refine ⟨?_, ?_, ?_⟩
  · intro g hg
    rwa [processed, lookup, h]
  · intro hd
    rwa [h]
  · intro g hg
    rwa [Holds, h]

/-- An upsert only ever goes forward. -/
theorem forward_upsert {s s' : Store} {ts : List Transaction} (h : s.upsert ts = .ok s') : Forward s s' := by
  refine ⟨?_, nodup_upsert h, fun g hg => (holds_upsert h).2 (Or.inl hg)⟩
  intro g hg
  rw [processed_upsert h, hg, Bool.true_or]

/-! ## Queries -/

/-- Queries are answered only when they are not made to fail. -/
theorem checkQueries_bind {β : Type} {s : Store} {b : β} {k : Except Error β}
    (h : (s.checkQueries >>= fun _ => k) = .ok b) : s.failQueries = false ∧ k = .ok b := by
  unfold checkQueries at h
  split at h
  · exact absurd h (by simp [bind, Except.bind])
  · rename_i hf
    exact ⟨by simpa using hf, h⟩

section

variable {s : Store} (hq : s.failQueries = false)
include hq

/-- Unless queries fail, the store answers with the transaction of a GTID. -/
theorem transaction_of_ok (g : String) : s.transaction g = .ok (s.lookup g) := by
  rw [transaction, checkQueries, hq]
  rfl

/-- Unless queries fail, the store answers with the rows of a GTID. -/
theorem rowsOf_of_ok (g : String) : s.rowsOf g = .ok (s.rowsWith g) := by
  rw [rowsOf, checkQueries, hq]
  rfl

/-- Unless queries fail, the store groups the rows of the GTIDs that it is asked about. -/
theorem rowsOfAll_of_ok (gtids : List String) :
    s.rowsOfAll gtids = .ok (grouped (s.rows.filter fun r => gtids.contains r.gtid)) := by
  rw [rowsOfAll, checkQueries, hq]
  rfl

/-- Unless queries fail, the store answers with the foremost of the unprocessed transactions. -/
theorem unprocessed_of_ok (since : Instant) (limit : Nat) :
    s.unprocessed since limit = .ok ((s.openSince since).take limit) := by
  rw [unprocessed, checkQueries, hq]
  rfl

/-- Unless queries fail, the store tells of a transaction that is processed that it is. -/
theorem transaction_of_processed {g : String} (hg : s.processed g = true) :
    ∃ u, s.transaction g = .ok (some u) ∧ u.isProcessed = true := by
  obtain ⟨u, hl, hs⟩ := processed_iff.1 hg
  exact ⟨u, by rw [transaction_of_ok hq, hl], hs⟩

end

/-- What the store answers about a transaction. -/
theorem transaction_eq_ok {s : Store} {g : String} {u : Option Transaction} (h : s.transaction g = .ok u) :
    u = s.lookup g :=
  (Except.ok.inj (checkQueries_bind h).2).symm

/-- What the store answers about the rows of a transaction. -/
theorem rowsOf_eq_ok {s : Store} {g : String} {rows : List StoredChange} (h : s.rowsOf g = .ok rows) :
    rows = s.rowsWith g :=
  (Except.ok.inj (checkQueries_bind h).2).symm

/-- Of the rows of several transactions, those of one of them are all rows that it has. -/
theorem filter_contains (rows : List StoredChange) {gtids : List String} {g : String} (hg : g ∈ gtids) :
    (rows.filter fun r => gtids.contains r.gtid).filter (·.gtid == g) = rows.filter (·.gtid == g) := by
  rw [List.filter_filter]
  refine List.filter_congr ?_
  intro r _
  by_cases hr : r.gtid = g
  · simp [hr, hg]
  · simp [hr]

/-- What the store answers about the rows of several transactions: to each that it was asked about, and that has rows, its rows. -/
theorem lookup_rowsOfAll {s : Store} {gtids : List String} {groups : List (String × List StoredChange)}
    (h : s.rowsOfAll gtids = .ok groups) {g : String} (hg : g ∈ gtids) :
    groups.lookup g = if s.rowsWith g = [] then none else some (s.rowsWith g) := by
  obtain rfl := (Except.ok.inj (checkQueries_bind h).2).symm
  rw [lookup_grouped, filter_contains s.rows hg, rowsWith]
  simp only [recordOrder_eq_nil]

/-- What the store answers about transactions that are unprocessed. -/
theorem mem_unprocessed {s : Store} {since : Instant} {limit : Nat} {ts : List Transaction} {t : Transaction}
    (h : s.unprocessed since limit = .ok ts) (ht : t ∈ ts) : t ∈ s.transactions ∧ t.isProcessed = false := by
  obtain rfl := (Except.ok.inj (checkQueries_bind h).2).symm
  have hmem := List.mem_mergeSort.1 (List.mem_of_mem_take ht)
  obtain ⟨hin, hp⟩ := List.mem_filter.1 hmem
  exact ⟨hin, by simpa using (Bool.and_eq_true_iff.1 hp).1⟩

/-- What the store answers about unprocessed transactions has every GTID once, where GTIDs are different. -/
theorem nodup_unprocessed {s : Store} {since : Instant} {limit : Nat} {ts : List Transaction}
    (h : s.unprocessed since limit = .ok ts) (hs : (s.transactions.map (·.gtid)).Nodup) : (ts.map (·.gtid)).Nodup := by
  obtain rfl := (Except.ok.inj (checkQueries_bind h).2).symm
  have hsorted : ((s.openSince since).map (·.gtid)).Nodup := by
    refine ((List.mergeSort_perm _ _).map Transaction.gtid).nodup_iff.2 ?_
    exact hs.sublist (List.filter_sublist.map _)
  exact hsorted.sublist ((List.take_sublist _ _).map _)

/-- Where GTIDs are different, a transaction that is stored as unprocessed is not processed. -/
theorem processed_of_mem {s : Store} (hs : (s.transactions.map (·.gtid)).Nodup) {t : Transaction}
    (ht : t ∈ s.transactions) : s.processed t.gtid = t.isProcessed := by
  unfold processed lookup
  generalize s.transactions = us at hs ht
  induction us with
  | nil => exact absurd ht List.not_mem_nil
  | cons u us ih =>
    rw [List.map_cons, List.nodup_cons] at hs
    rcases List.mem_cons.1 ht with rfl | ht
    · simp
    · have hne : (u.gtid == t.gtid) = false :=
        beq_eq_false_iff_ne.2 fun e => hs.1 (e ▸ List.mem_map_of_mem ht)
      rw [List.find?_cons, hne]
      exact ih hs.2 ht

/-- A row is among those of a transaction exactly if it is stored with its GTID. -/
@[simp] theorem mem_rowsWith {s : Store} {g : String} {r : StoredChange} :
    r ∈ s.rowsWith g ↔ r ∈ s.rows ∧ r.gtid = g := by
  rw [rowsWith, mem_recordOrder, List.mem_filter, beq_iff_eq]

end Store

end AuditTrail
