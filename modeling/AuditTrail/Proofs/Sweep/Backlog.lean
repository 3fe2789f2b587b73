import AuditTrail.Proofs.Sweep.Cycle
import Mathlib.Data.List.Nodup
import Mathlib.Data.List.Perm.Subperm

/-!
# Which transactions are swept, and when

A sweep takes the newest unprocessed transactions of its window, up to its limit, whether they have rows or not. Those that have
none stay where they are and take their places again in the next sweep. So a transaction with rows comes to its turn as soon as the
transactions with rows that are not older than it, one after the other, have gone through the places that those without rows leave;
and when these are newer and fill all places, it never does (`swept_in_turn`). That all transactions with rows are processed once
there have been places for as many transactions as are unprocessed is false (`swept_by_count_false`). As long as nothing is in the
way of the sweeps, there can be any number of them (`exists_sweeps`).
-/

namespace AuditTrail

namespace Instant

theorem le_iff (a b : Instant) : a ≤ b ↔ a.seconds < b.seconds ∨ a.seconds = b.seconds ∧ a.nanos ≤ b.nanos := by
  show a.ble b = true ↔ _
  simp [ble]

/-- The order of instants is transitive. -/
theorem le_trans {a b c : Instant} (h : a ≤ b) (h' : b ≤ c) : a ≤ c := by
  rw [le_iff] at *
  omega

/-- The order of instants is total. -/
theorem le_total (a b : Instant) : a ≤ b ∨ b ≤ a := by
  rw [le_iff, le_iff]
  omega

/-- An instant is strictly earlier if the other is not earlier or equal. -/
theorem lt_iff_not_le (a b : Instant) : a < b ↔ ¬b ≤ a := by
  show (!b.ble a) = true ↔ ¬b.ble a = true
  simp

end Instant

namespace Store

/-- How many unprocessed transactions there are with a property. -/
def backlog (s : Store) (p : Transaction → Bool) : Nat := s.transactions.countP fun t => !t.isProcessed && p t

/-- How many unprocessed transactions with rows are not older than a transaction. -/
def matchedBefore (s : Store) (t : Transaction) : Nat :=
  s.backlog fun u => decide (t.commitTime ≤ u.commitTime) && s.matched u

/-- How many unprocessed transactions without rows are not older than a transaction. -/
def rowlessBefore (s : Store) (t : Transaction) : Nat :=
  s.backlog fun u => decide (t.commitTime ≤ u.commitTime) && !s.matched u

/-- How many unprocessed transactions without rows are newer than a transaction. -/
def rowlessAhead (s : Store) (t : Transaction) : Nat :=
  s.backlog fun u => decide (t.commitTime < u.commitTime) && !s.matched u

end Store

/-- In a window that starts at an instant, all unprocessed transactions are still in the window that they were in. -/
def Services.Keeps (s : Services) (settings : SweeperSettings) (since : Instant) : Prop :=
  ∀ t ∈ s.store.transactions, t.isProcessed = false → s.windowStart settings ≤ t.commitTime → since ≤ t.commitTime

namespace BacklogAux

variable {s t : Store} {since : Instant} {limit : Nat}

/-! ### The order of the candidates -/

/-- The candidates are put in order, the newest first. -/
theorem sorted_openSince (s : Store) (since : Instant) :
    (s.openSince since).Pairwise fun a b => b.commitTime ≤ a.commitTime := by
  have htrans : ∀ a b c : Transaction, decide (b.commitTime ≤ a.commitTime) = true →
      decide (c.commitTime ≤ b.commitTime) = true → decide (c.commitTime ≤ a.commitTime) = true := by
    intro a b c hab hbc
    simp only [decide_eq_true_eq] at *
    exact Instant.le_trans hbc hab
  have htotal : ∀ a b : Transaction,
      (decide (b.commitTime ≤ a.commitTime) || decide (a.commitTime ≤ b.commitTime)) = true := by
    intro a b
    simp only [Bool.or_eq_true, decide_eq_true_eq]
    exact Instant.le_total _ _
  exact (List.pairwise_mergeSort htrans htotal _).imp fun hab => by simpa using hab

/-- In a list in order, if an element does not have a property that newer ones share, those behind it do not. -/
theorem countP_eq_zero_of_sorted {p : Transaction → Bool} {a : Transaction} {ts : List Transaction}
    (hp : ∀ a b : Transaction, b.commitTime ≤ a.commitTime → p b = true → p a = true)
    (hs : ∀ b ∈ ts, b.commitTime ≤ a.commitTime) (ha : p a = false) : ts.countP p = 0 := by
  refine List.countP_eq_zero.2 ?_
  intro b hb hpb
  exact absurd (ha.symm.trans (hp a b (hs b hb) hpb)) (by decide)

/-- Of the foremost of a list in order, those with a property that newer ones share have all places but those that others of them
take. -/
theorem le_countP_take {p q : Transaction → Bool}
    (hp : ∀ a b : Transaction, b.commitTime ≤ a.commitTime → p b = true → p a = true) {ts : List Transaction}
    (hs : ts.Pairwise fun a b => b.commitTime ≤ a.commitTime) (n : Nat) :
    min (ts.countP fun t => p t && q t) (n - ts.countP fun t => p t && !q t) ≤
      (ts.take n).countP fun t => p t && q t := by
  induction ts generalizing n with
  | nil => simp
  | cons a ts ih =>
    obtain ⟨ha, hs⟩ := List.pairwise_cons.1 hs
    cases n with
    | zero => simp
    | succ n =>
      have hrest := ih hs n
      simp only [List.take_succ_cons, List.countP_cons]
      cases hpa : p a with
      | false =>
        have hnone := countP_eq_zero_of_sorted hp ha hpa
        have hq : ts.countP (fun t => p t && q t) = 0 := by
          refine List.countP_eq_zero.2 fun b hb hpb => ?_
          exact List.countP_eq_zero.1 hnone b hb (Bool.and_eq_true_iff.1 hpb).1
        simp [hq]
      | true =>
        cases hqa : q a <;> simp <;> omega

/-- If enough elements of a list in order have a property that newer ones share, all of the foremost have it. -/
theorem of_mem_take {p : Transaction → Bool}
    (hp : ∀ a b : Transaction, b.commitTime ≤ a.commitTime → p b = true → p a = true) {ts : List Transaction}
    (hs : ts.Pairwise fun a b => b.commitTime ≤ a.commitTime) {n : Nat} (hn : n ≤ ts.countP p) :
    ∀ t ∈ ts.take n, p t = true := by
  induction ts generalizing n with
  | nil => simp
  | cons a ts ih =>
    obtain ⟨ha, hs⟩ := List.pairwise_cons.1 hs
    cases n with
    | zero => simp
    | succ n =>
      have hpa : p a = true := by
        cases hpa : p a with
        | true => rfl
        | false =>
          rw [List.countP_cons, countP_eq_zero_of_sorted hp ha hpa, hpa] at hn
          exact absurd hn (by simp)
      intro t ht
      rw [List.take_succ_cons] at ht
      rcases List.mem_cons.1 ht with rfl | ht
      · exact hpa
      · refine ih hs ?_ t ht
        rw [List.countP_cons, hpa] at hn
        exact Nat.le_of_succ_le_succ hn

/-- Where a property is one of transactions in the window, a sweep finds all of the backlog with it. -/
theorem countP_openSince {p : Transaction → Bool} (hp : ∀ t, p t = true → since ≤ t.commitTime) :
    (s.openSince since).countP p = s.backlog p := by
  rw [Store.openSince, (List.mergeSort_perm _ _).countP_eq, List.countP_filter, Store.backlog]
  refine List.countP_congr fun t _ => ?_
  simp only [Bool.and_eq_true, decide_eq_true_eq]
  constructor
  · rintro ⟨hpt, hopen, -⟩
    exact ⟨hopen, hpt⟩
  · rintro ⟨hopen, hpt⟩
    exact ⟨hpt, hopen, hp t hpt⟩

/-! ### What a sweep leaves -/

/-- A transaction with a GTID that is there once takes the place of the one that is there. -/
theorem put_append {a b : Transaction} {as bs : List Transaction} (has : ∀ u ∈ as, u.gtid ≠ b.gtid)
    (hg : a.gtid = b.gtid) (hle : ¬b.status.code < a.status.code) :
    Store.put b (as ++ a :: bs) = as ++ b :: bs := by
  induction as with
  | nil => simp [Store.put, hg, hle]
  | cons u as ih =>
    have hne : u.gtid ≠ b.gtid := has u List.mem_cons_self
    simp only [List.cons_append, Store.put, hne, if_false]
    rw [ih fun u hu => has u (List.mem_cons_of_mem _ hu)]

/-- Where GTIDs are different, writing a transaction as processed leaves the others as they are. -/
theorem perm_put {a : Transaction} {ts others : List Transaction} (h : ts.Perm (a :: others))
    (hd : (ts.map (·.gtid)).Nodup) : (Store.put a.toProcessed ts).Perm (a.toProcessed :: others) := by
  obtain ⟨as, bs, rfl⟩ := List.append_of_mem (h.symm.subset List.mem_cons_self)
  have hothers : (as ++ bs).Perm others := (List.perm_cons a).1 (List.perm_middle.symm.trans h)
  have has : ∀ u ∈ as, u.gtid ≠ a.toProcessed.gtid := by
    intro u hu he
    rw [List.map_append, List.nodup_append] at hd
    exact hd.2.2 _ (List.mem_map_of_mem hu) _ (List.mem_map_of_mem List.mem_cons_self) he
  have hle : ¬a.toProcessed.status.code < a.status.code := by
    cases hs : a.status <;> simp [Transaction.toProcessed, Status.code]
  have hput : Store.put a.toProcessed (as ++ a :: bs) = as ++ a.toProcessed :: bs := put_append has rfl hle
  rw [hput]
  exact List.perm_middle.trans (hothers.cons _)

/-- Where GTIDs are different, writing transactions as processed leaves the others as they are. -/
theorem perm_puts {chosen ts others : List Transaction} (h : ts.Perm (chosen ++ others)) (hd : (ts.map (·.gtid)).Nodup) :
    ((chosen.map (·.toProcessed)).foldl (fun acc u => Store.put u acc) ts).Perm
      (chosen.map (·.toProcessed) ++ others) := by
  induction chosen generalizing ts others with
  | nil => exact h
  | cons a chosen ih =>
    have hput := perm_put h hd
    have hnext : (Store.put a.toProcessed ts).Perm (chosen ++ a.toProcessed :: others) :=
      hput.trans List.perm_middle.symm
    have hgtids : ((Store.put a.toProcessed ts).map (·.gtid)).Perm (ts.map (·.gtid)) :=
      (hput.map Transaction.gtid).trans (h.map Transaction.gtid).symm
    rw [List.map_cons, List.foldl_cons]
    exact (ih hnext (hgtids.nodup_iff.2 hd)).trans List.perm_middle

/-- After a sweep the transactions that it has resolved are processed, and the others are as they were. -/
theorem exists_others (h : s.Resolves t since limit) (hd : (s.transactions.map (·.gtid)).Nodup) :
    ∃ others, s.transactions.Perm (s.resolvable since limit ++ others) ∧
      t.transactions.Perm ((s.resolvable since limit).map (·.toProcessed) ++ others) := by
  have hsub : (s.resolvable since limit).Sublist (s.openSince since) :=
    List.filter_sublist.trans (List.take_sublist _ _)
  obtain ⟨rest, hrest⟩ := hsub.exists_perm_append
  obtain ⟨out, hout⟩ := (List.filter_sublist (p := fun t => !t.isProcessed && decide (since ≤ t.commitTime))
    (l := s.transactions)).exists_perm_append
  have hperm : s.transactions.Perm (s.resolvable since limit ++ (rest ++ out)) := by
    refine hout.trans ?_
    rw [← List.append_assoc]
    exact ((List.mergeSort_perm _ _).symm.trans hrest).append_right out
  refine ⟨rest ++ out, hperm, ?_⟩
  rw [h.transactions]
  exact perm_puts hperm hd

/-- What a sweep finds is unprocessed. -/
theorem unprocessed_of_resolvable {u : Transaction} (h : u ∈ s.resolvable since limit) : u.isProcessed = false := by
  have hmem := List.mem_mergeSort.1 (List.mem_of_mem_take (List.mem_filter.1 h).1)
  simpa using (Bool.and_eq_true_iff.1 (List.mem_filter.1 hmem).2).1

/-- A sweep takes off every backlog what it has resolved of it. -/
theorem backlog_resolves (h : s.Resolves t since limit) (hd : (s.transactions.map (·.gtid)).Nodup)
    (p : Transaction → Bool) : t.backlog p + (s.resolvable since limit).countP p = s.backlog p := by
  obtain ⟨others, hbefore, hafter⟩ := exists_others h hd
  have hdone : ((s.resolvable since limit).map (·.toProcessed)).countP (fun u => !u.isProcessed && p u) = 0 := by
    refine List.countP_eq_zero.2 fun u hu => ?_
    obtain ⟨v, -, rfl⟩ := List.mem_map.1 hu
    simp [Transaction.toProcessed, Transaction.isProcessed]
  have hopen : (s.resolvable since limit).countP (fun u => !u.isProcessed && p u) =
      (s.resolvable since limit).countP p := by
    refine List.countP_congr fun u hu => ?_
    simp [unprocessed_of_resolvable hu]
  rw [Store.backlog, Store.backlog, hafter.countP_eq, hbefore.countP_eq, List.countP_append, List.countP_append, hdone,
    hopen]
  omega

/-- A store with the same rows has the same transactions matched. -/
theorem matched_of_rows (h : t.rows = s.rows) : t.matched = s.matched := by
  funext u
  rw [Store.matched, Store.matched, Sweep.CycleAux.rowsWith_of_eq h]

/-- A sweep takes nothing off a backlog without rows. -/
theorem backlog_rowless (h : s.Resolves t since limit) (hd : (s.transactions.map (·.gtid)).Nodup)
    (p : Transaction → Bool) : (t.backlog fun u => p u && !t.matched u) = s.backlog fun u => p u && !s.matched u := by
  have hnone : (s.resolvable since limit).countP (fun u => p u && !s.matched u) = 0 := by
    refine List.countP_eq_zero.2 fun u hu => ?_
    simp [(List.mem_filter.1 hu).2]
  have htaken := backlog_resolves h hd fun u => p u && !s.matched u
  rw [hnone, Nat.add_zero] at htaken
  rw [matched_of_rows h.rows]
  exact htaken

/-- Of the transactions with rows that are not older than one of the window, a sweep takes as many off the backlog as there are
places which those without rows leave. -/
theorem matchedBefore_resolves (h : s.Resolves t since limit) (hd : (s.transactions.map (·.gtid)).Nodup) {a : Transaction}
    (hw : since ≤ a.commitTime) : t.matchedBefore a ≤ s.matchedBefore a - (limit - s.rowlessBefore a) := by
  have hup : ∀ u v : Transaction, v.commitTime ≤ u.commitTime → decide (a.commitTime ≤ v.commitTime) = true →
      decide (a.commitTime ≤ u.commitTime) = true := by
    intro u v huv hv
    simp only [decide_eq_true_eq] at *
    exact Instant.le_trans hv huv
  have hwindow : ∀ q : Transaction → Bool, ∀ u, (decide (a.commitTime ≤ u.commitTime) && q u) = true →
      since ≤ u.commitTime := by
    intro q u hu
    exact Instant.le_trans hw (by simpa using (Bool.and_eq_true_iff.1 hu).1)
  have hleast := le_countP_take (q := s.matched) hup (sorted_openSince s since) limit
  rw [countP_openSince (hwindow s.matched), countP_openSince (hwindow fun u => !s.matched u)] at hleast
  have htaken := backlog_resolves h hd fun u => decide (a.commitTime ≤ u.commitTime) && s.matched u
  have hfilter : (s.resolvable since limit).countP (fun u => decide (a.commitTime ≤ u.commitTime) && s.matched u) =
      ((s.openSince since).take limit).countP fun u => decide (a.commitTime ≤ u.commitTime) && s.matched u := by
    rw [Store.resolvable, List.countP_filter]
    refine List.countP_congr fun u _ => ?_
    simp
  rw [hfilter] at htaken
  simp only [Store.matchedBefore, Store.rowlessBefore, matched_of_rows h.rows]
  omega

/-- Where there are enough transactions without rows that are newer than one of the window, a sweep does not come to it. -/
theorem not_resolvable_of_ahead {a : Transaction} (hw : since ≤ a.commitTime) (hle : limit ≤ s.rowlessAhead a) :
    a ∉ s.resolvable since limit := by
  intro hmem
  have hup : ∀ u v : Transaction, v.commitTime ≤ u.commitTime → decide (a.commitTime < v.commitTime) = true →
      decide (a.commitTime < u.commitTime) = true := by
    intro u v huv hv
    simp only [decide_eq_true_eq, Instant.lt_iff_not_le] at *
    exact fun hu => hv (Instant.le_trans huv hu)
  have hwindow : ∀ u, (decide (a.commitTime < u.commitTime) && !s.matched u) = true → since ≤ u.commitTime := by
    intro u hu
    have hlt := (Bool.and_eq_true_iff.1 hu).1
    simp only [decide_eq_true_eq, Instant.lt_iff_not_le] at hlt
    exact Instant.le_trans hw ((Instant.le_total _ _).resolve_right hlt)
  have hmany : limit ≤ (s.openSince since).countP fun u => decide (a.commitTime < u.commitTime) := by
    rw [Store.rowlessAhead, ← countP_openSince hwindow] at hle
    refine Nat.le_trans hle (List.countP_mono_left ?_)
    intro u _ hu
    exact (Bool.and_eq_true_iff.1 hu).1
  have hself := of_mem_take hup (sorted_openSince s since) hmany a (List.mem_filter.1 hmem).1
  simp only [decide_eq_true_eq, Instant.lt_iff_not_le] at hself
  exact hself ((Instant.le_total a.commitTime a.commitTime).elim id id)

/-- What a sweep does not resolve stays as it is. -/
theorem mem_of_not_resolvable (h : s.Resolves t since limit) (hd : (s.transactions.map (·.gtid)).Nodup) {a : Transaction}
    (ha : a ∈ s.transactions) (hnot : a ∉ s.resolvable since limit) : a ∈ t.transactions := by
  obtain ⟨others, hbefore, hafter⟩ := exists_others h hd
  have hothers := (List.mem_append.1 (hbefore.subset ha)).resolve_left hnot
  exact hafter.symm.subset (List.mem_append_right _ hothers)

/-- What a sweep resolves is processed. -/
theorem mem_of_resolvable (h : s.Resolves t since limit) (hd : (s.transactions.map (·.gtid)).Nodup) {a : Transaction}
    (ha : a ∈ s.resolvable since limit) : a.toProcessed ∈ t.transactions := by
  obtain ⟨others, -, hafter⟩ := exists_others h hd
  exact hafter.symm.subset (List.mem_append_left _ (List.mem_map_of_mem ha))

/-- A sweep keeps GTIDs different. -/
theorem distinct_resolves (h : s.Resolves t since limit) (hd : (s.transactions.map (·.gtid)).Nodup) :
    (t.transactions.map (·.gtid)).Nodup := by
  obtain ⟨others, hbefore, hafter⟩ := exists_others h hd
  have hsame : ((s.resolvable since limit).map (·.toProcessed) ++ others).map (·.gtid) =
      (s.resolvable since limit ++ others).map (·.gtid) := by
    simp [Transaction.toProcessed, Function.comp_def]
  have hperm := (hafter.map Transaction.gtid).trans (hsame ▸ (hbefore.map Transaction.gtid).symm)
  exact hperm.nodup_iff.2 hd

end BacklogAux

namespace Sweep

open BacklogAux

/-- So many sweeps one after the other, each of which ends without an error. -/
inductive Sweeps (settings : SweeperSettings) (ok : Instant → Prop) (first : Scene) : Nat → Scene → Prop where
  | none : Sweeps settings ok first 0 first
  | more {n : Nat} {x y : Scene} {r : SweepReport} (hx : Sweeps settings ok first n x)
      (hr : Run ok { x with sweep := { settings } } y) (hf : y.sweep.phase = .finished (.ok r)) :
      Sweeps settings ok first (n + 1) y

/-- As long as nothing is in the way of a sweep, there can be any number of them. -/
theorem exists_sweeps {settings : SweeperSettings} {ok : Instant → Prop} {first : Scene} (h : Unhindered ok settings first)
    (n : Nat) : ∃ x, Sweeps settings ok first n x ∧ Unhindered ok settings x := by
  induction n with
  | zero => exact ⟨first, .none, h⟩
  | succ n ih =>
    obtain ⟨x, hx, hfree⟩ := ih
    obtain ⟨y, r, hr, hp, hy⟩ := getsThrough hfree
    exact ⟨y, hx.more hr hp, hy⟩

/-- How it stands with a transaction of the window after so many sweeps: rows are the same and GTIDs are different; those without
rows are still in front of it; those with rows that are not older have become fewer; and it is as it was, or processed with its
record sent. -/
structure InTurn (ok : Instant → Prop) (settings : SweeperSettings) (first : Scene) (t : Transaction) (n : Nat) (x : Scene) :
    Prop where
  rows : x.services.store.rows = first.services.store.rows
  distinct : (x.services.store.transactions.map (·.gtid)).Nodup
  window : ok (x.services.windowStart settings)
  rowless : x.services.store.rowlessBefore t = first.services.store.rowlessBefore t
  ahead : x.services.store.rowlessAhead t = first.services.store.rowlessAhead t
  matched : x.services.store.matchedBefore t ≤ first.services.store.matchedBefore t -
    n * (settings.batchLimit - first.services.store.rowlessBefore t)
  there : t ∈ x.services.store.transactions ∨
    t.toProcessed ∈ x.services.store.transactions ∧ first.services.store.joined t ∈ x.sent
  passed : settings.batchLimit ≤ first.services.store.rowlessAhead t →
    t ∈ x.services.store.transactions ∧ ∀ r ∈ x.sent, r ∈ first.sent ∨ r.gtid ≠ t.gtid

section

variable {ok : Instant → Prop} {settings : SweeperSettings} {first x y : Scene} {n : Nat} {t : Transaction}

/-- A sweep that ends without an error goes on with the turns. -/
theorem InTurn.more {r : SweepReport} (hok : ∀ since, ok since → since ≤ t.commitTime) (h : InTurn ok settings first t n x)
    (hr : Run ok { x with sweep := { settings } } y) (hf : y.sweep.phase = .finished (.ok r)) :
    InTurn ok settings first t (n + 1) y := by
  obtain ⟨since, hsince, hres, hsent⟩ := resolves_of_finished h.window hr hf
  have hwin := hok since hsince
  have hjoined : x.services.store.joined = first.services.store.joined := by
    funext u
    rw [Store.joined, Store.joined, CycleAux.rowsWith_of_eq h.rows]
  have hless := matchedBefore_resolves hres h.distinct hwin
  rw [h.rowless] at hless
  refine ⟨hres.rows.trans h.rows, distinct_resolves hres h.distinct, (going_run h.window hr).window,
    (backlog_rowless hres h.distinct _).trans h.rowless, (backlog_rowless hres h.distinct _).trans h.ahead, ?_, ?_, ?_⟩
  · have hbound := h.matched
    rw [Nat.succ_mul]
    omega
  · rw [hsent]
    rcases h.there with ht | ⟨ht, hrec⟩
    · by_cases hmem : t ∈ x.services.store.resolvable since settings.batchLimit
      · refine Or.inr ⟨mem_of_resolvable hres h.distinct hmem, List.mem_append_right _ ?_⟩
        rw [hjoined]
        exact List.mem_map_of_mem hmem
      · exact Or.inl (mem_of_not_resolvable hres h.distinct ht hmem)
    · refine Or.inr ⟨mem_of_not_resolvable hres h.distinct ht ?_, List.mem_append_left _ hrec⟩
      intro hmem
      exact absurd (unprocessed_of_resolvable hmem) (by simp [Transaction.toProcessed, Transaction.isProcessed])
  · intro hle
    obtain ⟨ht, hnone⟩ := h.passed hle
    have hnot := not_resolvable_of_ahead hwin (h.ahead.symm ▸ hle)
    refine ⟨mem_of_not_resolvable hres h.distinct ht hnot, ?_⟩
    intro rec hrec
    rw [hsent] at hrec
    rcases List.mem_append.1 hrec with hold | hnew
    · exact hnone rec hold
    · obtain ⟨u, hu, rfl⟩ := List.mem_map.1 hnew
      obtain ⟨others, hbefore, -⟩ := exists_others hres h.distinct
      refine Or.inr fun hg => hnot ?_
      have hut : u = t :=
        List.inj_on_of_nodup_map h.distinct (hbefore.symm.subset (List.mem_append_left _ hu)) ht hg
      exact hut ▸ hu

/-- However many sweeps there are, the turns go on. -/
theorem inTurn_sweeps (hok : ∀ since, ok since → since ≤ t.commitTime)
    (hd : (first.services.store.transactions.map (·.gtid)).Nodup) (ht : t ∈ first.services.store.transactions)
    (hw : ok (first.services.windowStart settings)) (h : Sweeps settings ok first n x) :
    InTurn ok settings first t n x := by
  induction h with
  | none => exact ⟨rfl, hd, hw, rfl, rfl, by omega, Or.inl ht, fun _ => ⟨ht, fun r hr => Or.inl hr⟩⟩
  | more hx hr hf ih => exact ih.more hok hr hf

end

/-- An unprocessed transaction with rows, as long as it is in the window and nobody else writes to the store. After so many sweeps
without an error that the transactions with rows which are not older have had as many places as there are of them, counting
only the places that those without rows leave, it is processed and its record has been sent. But if newer ones without rows
fill all places, it is not processed, and nothing is sent for it, after any number of sweeps. -/
theorem swept_in_turn (settings : SweeperSettings) {first x : Scene} {n : Nat} {t : Transaction}
    (hd : (first.services.store.transactions.map (·.gtid)).Nodup) (ht : t ∈ first.services.store.transactions)
    (hu : t.isProcessed = false) (hm : first.services.store.matched t = true)
    (hw : first.services.windowStart settings ≤ t.commitTime) (hx : Sweeps settings (· ≤ t.commitTime) first n x) :
    (first.services.store.matchedBefore t ≤ n * (settings.batchLimit - first.services.store.rowlessBefore t) →
      x.services.store.processed t.gtid = true ∧ first.services.store.joined t ∈ x.sent) ∧
    (settings.batchLimit ≤ first.services.store.rowlessAhead t →
      x.services.store.processed t.gtid = false ∧ ∀ r ∈ x.sent, r ∈ first.sent ∨ r.gtid ≠ t.gtid) := by
  have hturn := inTurn_sweeps (fun _ => id) hd ht hw hx
  refine ⟨?_, ?_⟩
  · intro hle
    have hzero : x.services.store.matchedBefore t = 0 := by
      have hbound := hturn.matched
      omega
    rcases hturn.there with hthere | ⟨hdone, hrec⟩
    · -- it would be one of those that are still to come
      have hself : t.commitTime ≤ t.commitTime := (Instant.le_total _ _).elim id id
      refine absurd (List.countP_eq_zero.1 hzero t hthere) ?_
      simp [hu, hself, matched_of_rows hturn.rows, hm]
    · refine ⟨?_, hrec⟩
      have hproc := Store.processed_of_mem hturn.distinct hdone
      simpa [Transaction.toProcessed, Transaction.isProcessed] using hproc
  · intro hle
    obtain ⟨hthere, hnone⟩ := hturn.passed hle
    exact ⟨(Store.processed_of_mem hturn.distinct hthere).trans hu, hnone⟩

namespace OldAndNew

/-- A transaction with a row, and a newer one without. -/
def services : Services where
  store := {
    rows := [⟨"old", "d", "t", .insert, ⟨1, 0⟩, ⟨none, none⟩, 0, 0, ⟨1, 0⟩⟩]
    transactions := [⟨"old", "c", ⟨1, 0⟩, .unprocessed⟩, ⟨"new", "c", ⟨2, 0⟩, .unprocessed⟩] }

/-- The transaction with a row. -/
def old : Transaction := ⟨"old", "c", ⟨1, 0⟩, .unprocessed⟩

/-- Sweeps of so many transactions. -/
def settings (limit : Nat) : SweeperSettings := { batchLimit := limit }

/-- Before the first sweep. -/
def first (limit : Nat) : Scene := { sweep := { settings := settings limit }, channel := .ofCapacity 1, services }

/-- Nothing is in the way of the sweeps. -/
theorem unhindered (ok : Instant → Prop) (limit : Nat) (h : ok (services.windowStart (settings limit))) :
    Unhindered ok (settings limit) (first limit) := by
  have hlookback : 72 * 3600 ≤ greatestLookback := by decide
  exact ⟨hlookback, rfl, rfl, rfl, Nat.one_pos, h⟩

end OldAndNew

/-- A store with a transaction without rows and an older one with a row: with two places in a sweep the older one is processed by
the first, with one it is not by any. -/
theorem swept_in_turn_old_and_new :
    (∃ x, Sweeps (OldAndNew.settings 2) (· ≤ OldAndNew.old.commitTime) (OldAndNew.first 2) 1 x ∧
      x.services.store.processed "old" = true ∧ OldAndNew.services.store.joined OldAndNew.old ∈ x.sent) ∧
    ∀ n, ∃ x, Sweeps (OldAndNew.settings 1) (· ≤ OldAndNew.old.commitTime) (OldAndNew.first 1) n x ∧
      x.services.store.processed "old" = false ∧ ∀ r ∈ x.sent, r.gtid ≠ "old" := by
  refine ⟨?_, ?_⟩
  · obtain ⟨x, hx, -⟩ := exists_sweeps (OldAndNew.unhindered (· ≤ OldAndNew.old.commitTime) 2 (by decide)) 1
    obtain ⟨hturn, -⟩ := swept_in_turn (OldAndNew.settings 2) (by decide) (by decide) (by decide) (by decide +kernel)
      (by decide) hx
    exact ⟨x, hx, hturn (by decide +kernel)⟩
  · intro n
    obtain ⟨x, hx, -⟩ := exists_sweeps (OldAndNew.unhindered (· ≤ OldAndNew.old.commitTime) 1 (by decide)) n
    obtain ⟨-, hnever⟩ := swept_in_turn (OldAndNew.settings 1) (by decide) (by decide) (by decide) (by decide +kernel)
      (by decide) hx
    obtain ⟨hp, hsent⟩ := hnever (by decide +kernel)
    exact ⟨x, hx, hp, fun r hr => (hsent r hr).resolve_left List.not_mem_nil⟩

/-- That after as many sweeps without an error as there are times the limit among the unprocessed transactions in the window, while
none of these leaves the window and nobody else writes to the store, those that have rows are all processed with their records
sent, is false. -/
theorem swept_by_count_false :
    ¬∀ (settings : SweeperSettings) (first x : Scene) (n : Nat), 1 ≤ settings.batchLimit →
      (first.services.store.transactions.map (·.gtid)).Nodup →
      n = (first.services.store.backlog (fun u => decide (first.services.windowStart settings ≤ u.commitTime)) +
        settings.batchLimit - 1) / settings.batchLimit →
      Sweeps settings (first.services.Keeps settings) first n x →
      ∀ t ∈ first.services.store.transactions, t.isProcessed = false →
        first.services.windowStart settings ≤ t.commitTime → first.services.store.matched t = true →
        x.services.store.processed t.gtid = true ∧ first.services.store.joined t ∈ x.sent := by
  intro h
  have hmem : OldAndNew.old ∈ OldAndNew.services.store.transactions := by decide
  have hkeeps : OldAndNew.services.Keeps (OldAndNew.settings 1) (OldAndNew.services.windowStart (OldAndNew.settings 1)) :=
    fun t _ _ hw => hw
  obtain ⟨x, hx, -⟩ := exists_sweeps (OldAndNew.unhindered _ 1 hkeeps) 2
  obtain ⟨hdone, -⟩ := h (OldAndNew.settings 1) (OldAndNew.first 1) x 2 (by decide) (by decide) (by decide +kernel) hx
    OldAndNew.old hmem (by decide) (by decide) (by decide +kernel)
  have hin : ∀ since, OldAndNew.services.Keeps (OldAndNew.settings 1) since → since ≤ OldAndNew.old.commitTime :=
    fun since hok => hok OldAndNew.old hmem (by decide) (by decide)
  have hturn := inTurn_sweeps hin (by decide) hmem hkeeps hx
  obtain ⟨hthere, -⟩ := hturn.passed (by decide +kernel)
  exact absurd ((Store.processed_of_mem hturn.distinct hthere).symm.trans hdone) (by decide)

end Sweep

end AuditTrail
