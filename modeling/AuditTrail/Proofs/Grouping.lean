import AuditTrail.Proofs.Columnar.Rows
import AuditTrail.Proofs.Record
import Mathlib.Data.List.Induction
import Mathlib.Data.List.Pairwise
import Mathlib.Data.List.Perm.Basic
import Mathlib.Data.Prod.Lex

/-!
# Groups of rows and their order

The rows of a record are in the order of their keys, and rows of one key stay in the order in which they came. There is one such order
of any rows, and it depends only on how the rows of each key come (`recordOrder_eq_iff`). Grouping rows by their GTID keeps all of them,
each in the group of its GTID and each group in that order. So where the rows of a GTID have different keys, no permutation of the
rows changes a group or a record of one GTID, and a set of transactions can be looked up from a server that answers in any order
(`grouped_canonically`).
-/

namespace AuditTrail

open Columnar Outcome RecordAux

/-! ## The order of a record -/

/-- What the rows of a record are ordered by: the seconds and nanoseconds of the event time, the partition and the offset. -/
abbrev SortKey := Int ×ₗ Nat ×ₗ Int ×ₗ Int

/-- The key of a row. -/
def StoredChange.sortKey (r : StoredChange) : SortKey :=
  toLex (r.eventTime.seconds, toLex (r.eventTime.nanos, toLex (r.partition, r.offset)))

/-- The order of rows is that of their keys. -/
theorem le_iff_sortKey {a b : StoredChange} : StoredChange.le a b = true ↔ a.sortKey ≤ b.sortKey := by
  rw [le_iff_numbers]
  simp only [StoredChange.sortKey, Prod.Lex.toLex_le_toLex]

/-- One list holds the rows of another in the order of their keys, and rows of one key as they come there. -/
structure InOrder (sorted rows : List StoredChange) : Prop where
  perm : sorted.Perm rows
  increasing : sorted.Pairwise fun a b => a.sortKey ≤ b.sortKey
  stable : ∀ k, sorted.filter (·.sortKey == k) = rows.filter (·.sortKey == k)

/-- Putting rows in the order of a record leaves the rows of one key as they come. -/
theorem filter_recordOrder (rows : List StoredChange) (k : SortKey) :
    (recordOrder rows).filter (·.sortKey == k) = rows.filter (·.sortKey == k) := by
  -- the rows of a key are in order already, so sorting keeps them as a sublist
  have hsub : (rows.filter (·.sortKey == k)).Sublist (recordOrder rows) := by
    refine List.sublist_mergeSort le_trans le_total ?_ List.filter_sublist
    refine List.pairwise_of_forall_mem_list fun a ha b hb => le_iff_sortKey.2 (le_of_eq ?_)
    rw [beq_iff_eq.1 (List.mem_filter.1 ha).2, beq_iff_eq.1 (List.mem_filter.1 hb).2]
  have hfilter := hsub.filter (·.sortKey == k)
  rw [List.filter_filter] at hfilter
  simp only [Bool.and_self] at hfilter
  have hlength : (rows.filter (·.sortKey == k)).length = ((recordOrder rows).filter (·.sortKey == k)).length :=
    ((List.mergeSort_perm rows StoredChange.le).filter _).length_eq.symm
  exact (hfilter.eq_of_length hlength).symm

/-- Rows are put in the order of a record. -/
theorem inOrder_recordOrder (rows : List StoredChange) : InOrder (recordOrder rows) rows :=
  ⟨List.mergeSort_perm rows _, (sorted_recordOrder rows).imp le_iff_sortKey.1, filter_recordOrder rows⟩

/-- A row at the head of a list in order has the least key in it. -/
theorem sortKey_le_of_increasing {a r : StoredChange} {rows : List StoredChange}
    (h : (a :: rows).Pairwise fun a b => a.sortKey ≤ b.sortKey) (hr : r ∈ a :: rows) : a.sortKey ≤ r.sortKey := by
  rcases List.mem_cons.1 hr with rfl | hr
  · exact le_refl _
  · exact (List.pairwise_cons.1 h).1 r hr

/-- Lists with the same rows of each key have the same rows. -/
theorem mem_iff_of_same_keys {rows rows' : List StoredChange}
    (hsame : ∀ k, rows.filter (·.sortKey == k) = rows'.filter (·.sortKey == k)) (r : StoredChange) : r ∈ rows ↔ r ∈ rows' := by
  have hr : r ∈ rows.filter (·.sortKey == r.sortKey) ↔ r ∈ rows'.filter (·.sortKey == r.sortKey) := by rw [hsame]
  rw [List.mem_filter, List.mem_filter] at hr
  simpa only [beq_self_eq_true, and_true] using hr

/-- Lists in the order of their keys are the same if they have the same rows of each key. -/
theorem eq_of_increasing {rows rows' : List StoredChange} (h : rows.Pairwise fun a b => a.sortKey ≤ b.sortKey)
    (h' : rows'.Pairwise fun a b => a.sortKey ≤ b.sortKey)
    (hsame : ∀ k, rows.filter (·.sortKey == k) = rows'.filter (·.sortKey == k)) : rows = rows' := by
  have hmem := mem_iff_of_same_keys hsame
  induction rows generalizing rows' with
  | nil => exact (List.eq_nil_iff_forall_not_mem.2 fun r hr => List.not_mem_nil ((hmem r).2 hr)).symm
  | cons a rows ih =>
    obtain _ | ⟨b, rows'⟩ := rows'
    · exact absurd ((hmem a).1 List.mem_cons_self) List.not_mem_nil
    -- both heads have the least key, and of the rows with that key they are the first
    have hkey : a.sortKey = b.sortKey := le_antisymm
      (sortKey_le_of_increasing h ((hmem b).2 List.mem_cons_self)) (sortKey_le_of_increasing h' ((hmem a).1 List.mem_cons_self))
    have hfirst := hsame a.sortKey
    simp only [List.filter_cons, ← hkey, beq_self_eq_true, if_true] at hfirst
    obtain ⟨rfl, -⟩ := List.cons.inj hfirst
    have htail : ∀ k, rows.filter (·.sortKey == k) = rows'.filter (·.sortKey == k) := by
      intro k
      have hk := hsame k
      rw [List.filter_cons, List.filter_cons] at hk
      split at hk
      · exact (List.cons.inj hk).2
      · exact hk
    rw [ih (List.pairwise_cons.1 h).2 (List.pairwise_cons.1 h').2 htail (mem_iff_of_same_keys htail)]

/-- There is one order of rows, and it is that of all rows that come alike by their keys. -/
theorem InOrder.eq_of_same {sorted sorted' rows rows' : List StoredChange} (h : InOrder sorted rows) (h' : InOrder sorted' rows')
    (hsame : ∀ k, rows.filter (·.sortKey == k) = rows'.filter (·.sortKey == k)) : sorted = sorted' := by
  refine eq_of_increasing h.increasing h'.increasing ?_
  intro k
  rw [h.stable, h'.stable, hsame]

/-- Two lists have one order exactly if the rows of each key come alike in both. -/
theorem recordOrder_eq_iff {rows rows' : List StoredChange} :
    recordOrder rows = recordOrder rows' ↔ ∀ k, rows.filter (·.sortKey == k) = rows'.filter (·.sortKey == k) := by
  constructor
  · intro h k
    rw [← filter_recordOrder rows, h, filter_recordOrder]
  · exact (inOrder_recordOrder rows).eq_of_same (inOrder_recordOrder rows')

/-! ## Rows of different keys -/

/-- No two rows of one GTID have one key. -/
def DistinctKeys (rows : List StoredChange) : Prop := rows.Pairwise fun a b => a.gtid = b.gtid → a.sortKey ≠ b.sortKey

instance (rows : List StoredChange) : Decidable (DistinctKeys rows) := inferInstanceAs (Decidable (List.Pairwise _ rows))

/-- Where rows have different keys, so have the rows of any one GTID. -/
theorem DistinctKeys.filter {rows : List StoredChange} (h : DistinctKeys rows) (p : StoredChange → Bool) :
    DistinctKeys (rows.filter p) :=
  List.Pairwise.filter p h

/-- A row is known by its GTID and its key. -/
theorem DistinctKeys.eq {rows : List StoredChange} (h : DistinctKeys rows) {a b : StoredChange} (ha : a ∈ rows) (hb : b ∈ rows)
    (hgtid : a.gtid = b.gtid) (hkey : a.sortKey = b.sortKey) : a = b := by
  by_contra hne
  have hsymm : Std.Symm fun a b : StoredChange => a.gtid = b.gtid → a.sortKey ≠ b.sortKey :=
    ⟨fun a b hab hba hk => hab hba.symm hk.symm⟩
  exact List.Pairwise.forall h ha hb hne hgtid hkey

/-- Rows of one GTID and different keys have one order only. -/
theorem DistinctKeys.recordOrder_eq {rows rows' : List StoredChange} (h : DistinctKeys rows) (hperm : rows.Perm rows')
    (hgtid : ∀ a ∈ rows, ∀ b ∈ rows, a.gtid = b.gtid) : recordOrder rows = recordOrder rows' := by
  refine recordOrder_eq_of_antisymm hperm ?_
  intro a ha b hb hab hba
  exact h.eq ha hb (hgtid a ha b hb) (le_antisymm (le_iff_sortKey.1 hab) (le_iff_sortKey.1 hba))

/-- Rows of different keys have one group of each GTID only, in whichever order they come. -/
theorem DistinctKeys.lookup_grouped_eq {rows rows' : List StoredChange} (h : DistinctKeys rows) (hperm : rows.Perm rows')
    (g : String) : (grouped rows).lookup g = (grouped rows').lookup g := by
  have hfilter : (rows.filter (·.gtid == g)).Perm (rows'.filter (·.gtid == g)) := hperm.filter _
  have hgtid : ∀ a ∈ rows.filter (·.gtid == g), ∀ b ∈ rows.filter (·.gtid == g), a.gtid = b.gtid := by
    intro a ha b hb
    rw [beq_iff_eq.1 (List.mem_filter.1 ha).2, beq_iff_eq.1 (List.mem_filter.1 hb).2]
  have hnil : rows.filter (·.gtid == g) = [] ↔ rows'.filter (·.gtid == g) = [] := by
    rw [← List.length_eq_zero_iff, ← List.length_eq_zero_iff, hfilter.length_eq]
  rw [lookup_grouped, lookup_grouped, (h.filter _).recordOrder_eq hfilter hgtid]
  simp only [hnil]

/-! ## Names in the order of their first occurrence -/

/-- Names without repetition in the order in which others first occur. -/
structure FirstOccurrences (names others : List String) : Prop where
  nodup : names.Nodup
  mem : ∀ n, n ∈ names ↔ n ∈ others
  inOrder : names.Pairwise fun m n => others.idxOf m < others.idxOf n

namespace AuditRecord

/-- One more name is a new one or known already. -/
theorem distinct_concat (names : List String) (n : String) :
    distinct (names ++ [n]) = if n ∈ names then distinct names else distinct names ++ [n] := by
  have hmem : n ∈ distinct names ↔ n ∈ names := mem_distinct
  rw [← ite_cond_congr (propext hmem), distinct, List.foldl_append]
  rfl

/-- Distinct names are in the order in which they first occur. -/
theorem distinct_inOrder (names : List String) :
    (distinct names).Pairwise fun m n => names.idxOf m < names.idxOf n := by
  induction names using List.reverseRecOn with
  | nil => exact List.Pairwise.nil
  | append_singleton names n ih =>
    have hkept : (distinct names).Pairwise fun m k => (names ++ [n]).idxOf m < (names ++ [n]).idxOf k := by
      refine ih.imp_of_mem ?_
      intro m k hm hk hlt
      rw [List.idxOf_append_of_mem (mem_distinct.1 hm), List.idxOf_append_of_mem (mem_distinct.1 hk)]
      exact hlt
    rw [distinct_concat]
    split
    · exact hkept
    · rename_i hn
      refine List.pairwise_append.2 ⟨hkept, List.pairwise_singleton _ _, ?_⟩
      intro m hm k hk
      rw [List.mem_singleton.1 hk, List.idxOf_append_of_mem (mem_distinct.1 hm), List.idxOf_append_of_notMem hn]
      exact Nat.lt_add_right _ (List.idxOf_lt_length_of_mem (mem_distinct.1 hm))

/-- Distinct names are the others in the order in which those first occur. -/
theorem firstOccurrences_distinct (names : List String) : FirstOccurrences (distinct names) names :=
  ⟨nodup_distinct names, fun _ => mem_distinct, distinct_inOrder names⟩

end AuditRecord

/-! ## Groups -/

/-- Groups of rows with one more row: it is put last in the group of its GTID, and into a new group if there is none. -/
def enter (groups : List (String × List StoredChange)) (r : StoredChange) : List (String × List StoredChange) :=
  if r.gtid ∈ groups.map (·.1) then groups.map fun e => if e.1 = r.gtid then (e.1, e.2 ++ [r]) else e
  else groups ++ [(r.gtid, [r])]

/-- Rows that are entered one after the other are in the groups of their GTIDs, each group as its rows come. -/
theorem foldl_enter (rows : List StoredChange) :
    rows.foldl enter [] = (AuditRecord.distinct (rows.map (·.gtid))).map fun g => (g, rows.filter (·.gtid == g)) := by
  induction rows using List.reverseRecOn with
  | nil => rfl
  | append_singleton rows r ih =>
    have hkeys : ((AuditRecord.distinct (rows.map (·.gtid))).map fun g => (g, rows.filter (·.gtid == g))).map (·.1) =
        AuditRecord.distinct (rows.map (·.gtid)) := by
      rw [List.map_map]
      exact List.map_id _
    have hother : ∀ g, g ≠ r.gtid → (rows ++ [r]).filter (·.gtid == g) = rows.filter (·.gtid == g) := by
      intro g hg
      rw [List.filter_append, List.filter_singleton, beq_eq_false_iff_ne.2 hg.symm]
      exact List.append_nil _
    have hown : (rows ++ [r]).filter (·.gtid == r.gtid) = rows.filter (·.gtid == r.gtid) ++ [r] := by
      rw [List.filter_append, List.filter_singleton, beq_self_eq_true]
      rfl
    rw [List.foldl_append, ih, List.foldl_cons, List.foldl_nil, enter, hkeys, List.map_append, List.map_singleton,
      AuditRecord.distinct_concat]
    simp only [AuditRecord.mem_distinct]
    split
    · rw [List.map_map]
      refine List.map_congr_left fun g _ => ?_
      by_cases hg : g = r.gtid
      · subst hg
        simp only [Function.comp_apply, if_true, hown]
      · simp only [Function.comp_apply, if_neg hg, hother g hg]
    · rename_i hnew
      have hnone : rows.filter (·.gtid == r.gtid) = [] := by
        refine List.filter_eq_nil_iff.2 fun a ha hgtid => hnew ?_
        exact beq_iff_eq.1 hgtid ▸ List.mem_map_of_mem ha
      rw [List.map_append, List.map_singleton, hown, hnone, List.nil_append]
      congr 1
      refine List.map_congr_left fun g hg => ?_
      rw [hother g]
      rintro rfl
      exact hnew (AuditRecord.mem_distinct.1 hg)

/-- The rows of all names together are all rows, if each is of one of the names. -/
theorem perm_flatMap_filter {names : List String} (hd : names.Nodup) {rows : List StoredChange} (h : ∀ r ∈ rows, r.gtid ∈ names) :
    (names.flatMap fun g => rows.filter (·.gtid == g)).Perm rows := by
  induction names generalizing rows with
  | nil =>
    rw [List.eq_nil_iff_forall_not_mem.2 fun r hr => List.not_mem_nil (h r hr)]
    exact List.Perm.refl _
  | cons g names ih =>
    obtain ⟨hg, hd⟩ := List.nodup_cons.1 hd
    -- the rows of the other names are among the rows that are not of this one
    have hrest : ∀ n ∈ names, rows.filter (·.gtid == n) = (rows.filter (!·.gtid == g)).filter (·.gtid == n) := by
      intro n hn
      rw [List.filter_filter]
      refine List.filter_congr fun r _ => ?_
      by_cases hr : r.gtid = n
      · have hne : r.gtid ≠ g := fun hrg => hg (hrg ▸ hr ▸ hn)
        simp [hr, hr ▸ hne]
      · simp [hr]
    have hothers : (names.flatMap fun n => (rows.filter (!·.gtid == g)).filter (·.gtid == n)).Perm (rows.filter (!·.gtid == g)) := by
      refine ih hd fun r hr => ?_
      obtain ⟨hr, hne⟩ := List.mem_filter.1 hr
      exact (List.mem_cons.1 (h r hr)).resolve_left (by simpa using hne)
    rw [List.flatMap_cons, List.flatMap_congr hrest]
    exact (hothers.append_left _).trans (List.filter_append_perm _ rows)

/-- Groups that hold rows by their GTID, each group in the order of a record. -/
structure Grouping (groups : List (String × List StoredChange)) (rows : List StoredChange) : Prop where
  nodup : (groups.map (·.1)).Nodup
  keys : ∀ g, g ∈ groups.map (·.1) ↔ ∃ r ∈ rows, r.gtid = g
  perm : (groups.flatMap (·.2)).Perm rows
  inOrder : ∀ e ∈ groups, InOrder e.2 (rows.filter (·.gtid == e.1))

/-- Rows are grouped. -/
theorem grouping_grouped (rows : List StoredChange) : Grouping (grouped rows) rows := by
  refine ⟨?_, ?_, ?_, ?_⟩
  · rw [keys_grouped]
    exact AuditRecord.nodup_distinct _
  · intro g
    rw [keys_grouped, AuditRecord.mem_distinct, List.mem_map]
  · have hnames : ∀ r ∈ rows, r.gtid ∈ AuditRecord.distinct (rows.map (·.gtid)) := fun r hr =>
      AuditRecord.mem_distinct.2 (List.mem_map_of_mem hr)
    rw [grouped, List.flatMap_map]
    refine List.Perm.trans ?_ (perm_flatMap_filter (AuditRecord.nodup_distinct _) hnames)
    exact List.Perm.flatMap_left _ fun g _ => List.mergeSort_perm _ _
  · intro e he
    obtain ⟨g, -, rfl⟩ := List.mem_map.1 he
    exact inOrder_recordOrder _

/-- Grouping rows is entering them one after the other and then putting each group in order. -/
theorem grouped_eq_foldl (rows : List StoredChange) :
    grouped rows = (rows.foldl enter []).map fun e => (e.1, recordOrder e.2) := by
  rw [foldl_enter, List.map_map]
  rfl

/-! ## Looking up a set of transactions -/

/-- The look-up of a set of transactions sends one request, and groups the rows that it reads in the answer. -/
theorem exists_run_changesOfAll (s : Columnar.Settings) {gtids : List String} (hne : gtids ≠ []) :
    ∃ request, ∀ server log content rows, server log request = .response 200 content →
      readAnswer "list row changes for set" ChangeRow.take ChangeRow.toStored content = .ok rows →
      (changesOfAll s gtids).run server log = (.ok (grouped rows), log ++ [⟨request, .response 200 content⟩]) := by
  have hplaces : (Mark.ofChars "SELECT ?fields FROM row_change_event WHERE has(?, gtid)".toList).count .argument = 1 := by
    decide +kernel
  have hargs : 1 = [Argument.strings gtids].length := rfl
  obtain ⟨request, hquery⟩ := exists_run_query s "list row changes for set" ChangeRow.columns ChangeRow.take ChangeRow.toStored
    (hplaces.trans hargs)
  have hgroup : changesOfAll s gtids = query s "list row changes for set"
      "SELECT ?fields FROM row_change_event WHERE has(?, gtid)" ChangeRow.columns [.strings gtids] ChangeRow.take
      ChangeRow.toStored >>= fun rows => pure (grouped rows) := by
    simp only [changesOfAll, List.isEmpty_iff, if_neg hne, query, changes, bind_assoc]
  refine ⟨request, ?_⟩
  intro server log content rows hreply hread
  rw [hgroup, Use.run_bind, hquery, hreply]
  simp only [Use.answer, Except.bind, hread, Use.run_pure]

/-! ## Main result -/

/-- Rows are grouped by their GTID, each group in the order of a record, as if they were entered one by one and the groups then put in
order. A record has the rows it is given, in order. Where no two rows of a GTID have one key, a permutation of the rows changes no group,
nor a record if the rows are of one GTID; whatever their GTIDs, two lists make the same record exactly if the rows of each key come
alike in both. The tables of a record are the qualified names of its rows, each at its first occurrence. And what is looked up for a set
of transactions is what the server answers, grouped. -/
theorem grouped_canonically :
    (∀ rows, Grouping (grouped rows) rows ∧ grouped rows = (rows.foldl enter []).map fun e => (e.1, recordOrder e.2)) ∧
    (∀ gtid context commitTime rows, InOrder (AuditRecord.ofChanges gtid context commitTime rows).changes rows) ∧
    (∀ rows rows', rows.Perm rows' → DistinctKeys rows → ∀ g, (grouped rows).lookup g = (grouped rows').lookup g) ∧
    (∀ rows rows', rows.Perm rows' → DistinctKeys rows → (∀ a ∈ rows, ∀ b ∈ rows, a.gtid = b.gtid) →
      ∀ gtid context commitTime,
        AuditRecord.ofChanges gtid context commitTime rows = AuditRecord.ofChanges gtid context commitTime rows') ∧
    (∀ gtid context commitTime rows rows',
      AuditRecord.ofChanges gtid context commitTime rows = AuditRecord.ofChanges gtid context commitTime rows' ↔
        ∀ k, rows.filter (·.sortKey == k) = rows'.filter (·.sortKey == k)) ∧
    (∀ r : AuditRecord, FirstOccurrences r.tables (r.changes.map (·.qualifiedTable))) ∧
    ∀ (s : Columnar.Settings) gtids, gtids ≠ [] → ∃ request, ∀ server log content rows,
      server log request = .response 200 content →
      readAnswer "list row changes for set" ChangeRow.take ChangeRow.toStored content = .ok rows →
      (changesOfAll s gtids).run server log = (.ok (grouped rows), log ++ [⟨request, .response 200 content⟩]) := by
  refine ⟨?_, ?_, ?_, ?_, ?_, ?_, ?_⟩
  · exact fun rows => ⟨grouping_grouped rows, grouped_eq_foldl rows⟩
  · exact fun gtid context commitTime rows => inOrder_recordOrder rows
  · exact fun rows rows' hperm hkeys g => hkeys.lookup_grouped_eq hperm g
  · intro rows rows' hperm hkeys hgtid gtid context commitTime
    rw [AuditRecord.ofChanges, hkeys.recordOrder_eq hperm hgtid, AuditRecord.ofChanges]
  · intro gtid context commitTime rows rows'
    rw [AuditRecord.ofChanges, AuditRecord.ofChanges, AuditRecord.mk.injEq, recordOrder_eq_iff]
    simp only [true_and]
  · exact fun r => AuditRecord.firstOccurrences_distinct _
  · exact fun s gtids hne => exists_run_changesOfAll s hne

/-- The two rows of one transaction in either order, in a group, in a record and from a server. -/
theorem grouped_canonically_two_rows : ∃ a b : StoredChange, a ≠ b ∧ DistinctKeys [b, a] ∧
    (grouped [b, a]).lookup "g" = (grouped [a, b]).lookup "g" ∧
    AuditRecord.ofChanges "g" "c" ⟨9, 0⟩ [b, a] = AuditRecord.ofChanges "g" "c" ⟨9, 0⟩ [a, b] ∧
    ∃ content log, (changesOfAll { } ["g"]).run (fun _ _ => .response 200 content) [] = (.ok (grouped [b, a]), log) := by
  obtain ⟨-, -, hgroup, hrecord, -, -, hlookup⟩ := grouped_canonically
  let a : StoredChange := ⟨"g", "d", "t", .insert, ⟨1, 0⟩, Images.none, 0, 4, ⟨5, 0⟩⟩
  let b : StoredChange := ⟨"g", "d", "u", .delete, ⟨1, 0⟩, Images.none, 0, 5, ⟨5, 0⟩⟩
  have hperm : [b, a].Perm [a, b] := List.Perm.swap a b []
  have hkeys : DistinctKeys [b, a] := by decide +kernel
  have hgtid : ∀ x ∈ [b, a], ∀ y ∈ [b, a], x.gtid = y.gtid := by decide +kernel
  obtain ⟨request, hrun⟩ := hlookup { } ["g"] (List.cons_ne_nil _ _)
  have hread : readAnswer "list row changes for set" ChangeRow.take ChangeRow.toStored
      ([b, a].map fun c => (ChangeRow.ofStored c).write).flatten = .ok [b, a] := toOption_eq_some.1 (by decide +kernel)
  exact ⟨a, b, by decide, hkeys, hgroup _ _ hperm hkeys "g", hrecord _ _ hperm hkeys hgtid "g" "c" ⟨9, 0⟩, _, _,
    hrun (fun _ _ => .response 200 _) [] _ _ rfl hread⟩

/-- Rows of two GTIDs may have one key, and a record of both keeps them as they come. -/
theorem record_of_permuted_false : ¬ ∀ rows rows' : List StoredChange, rows.Perm rows' → DistinctKeys rows →
    ∀ gtid context commitTime,
      AuditRecord.ofChanges gtid context commitTime rows = AuditRecord.ofChanges gtid context commitTime rows' := by
  intro h
  let a : StoredChange := ⟨"T1", "shop", "orders", .insert, ⟨1000, 0⟩, Images.none, 0, 4, ⟨2000, 0⟩⟩
  let b : StoredChange := ⟨"T2", "shop", "users", .insert, ⟨1000, 0⟩, Images.none, 0, 4, ⟨2000, 0⟩⟩
  have hrecord := h [b, a] [a, b] (List.Perm.swap a b []) (by decide +kernel) "T1" "c" ⟨3000, 0⟩
  have horder : recordOrder [b, a] = recordOrder [a, b] := congrArg AuditRecord.changes hrecord
  have hrows := recordOrder_eq_iff.1 horder a.sortKey
  revert hrows
  decide +kernel

end AuditTrail
