import AuditTrail.Proofs.Store
import Mathlib.Data.List.MinMax
import Mathlib.Data.List.Nodup

/-!
# Which version of a transaction stays

Whatever calls are made on a store that starts empty, in whatever order and whichever of them fail, what it has of a transaction
depends only on the versions of it that were written: it is the last one among those with the highest status. A version that is
written replaces the one that is there unless its status is lower, and that is what `lastHighest` does with one more version
(`lastHighest_concat`); `Kept` carries it over the calls.
-/

namespace AuditTrail

namespace Store

/-! ## Calls -/

/-- A call that changes the store, or a change of which calls fail. -/
inductive Call where
  | upsert (ts : List Transaction)
  | insert (rows : List StoredChange)
  | fail (inserts queries upserts : Bool)
  deriving DecidableEq

/-- What a call answers, and the store that it leaves. -/
def call (s : Store) : Call → Except Error Unit × Store
  | .upsert ts =>
    match s.upsert ts with
    | .ok s' => (.ok (), s')
    | .error e => (.error e, s)
  | .insert rows =>
    match s.insert rows with
    | .ok s' => (.ok (), s')
    | .error e => (.error e, s)
  | .fail inserts queries upserts =>
    (.ok (), { s with failInserts := inserts, failQueries := queries, failUpserts := upserts })

/-- The store after some calls, one after the other. -/
def after (s : Store) (calls : List Call) : Store := calls.foldl (fun s c => (s.call c).2) s

/-- The versions of transactions that a call writes: those of an upsert that succeeds. -/
def writes (s : Store) (c : Call) : List Transaction :=
  match c, (s.call c).1 with
  | .upsert ts, .ok () => ts
  | _, _ => []

/-- The versions of transactions that some calls write, one after the other. -/
def upserted (s : Store) : List Call → List Transaction
  | [] => []
  | c :: cs => s.writes c ++ (s.call c).2.upserted cs

variable {s s' : Store} {ts us : List Transaction} {t u : Transaction} {g : String}

theorem after_cons (s : Store) (c : Call) (cs : List Call) : s.after (c :: cs) = (s.call c).2.after cs := rfl

/-- What a call does to the transactions: an upsert that succeeds puts its own, and nothing else changes any. -/
theorem call_cases (s : Store) (c : Call) :
    (∃ ts s', c = .upsert ts ∧ s.upsert ts = .ok s' ∧ (s.call c).2 = s' ∧ s.writes c = ts) ∨
      ((s.call c).2.transactions = s.transactions ∧ s.writes c = []) := by
  cases c with
  | upsert ts =>
    cases hs : s.upsert ts with
    | ok s' => exact .inl ⟨ts, s', rfl, hs, by simp [call, hs], by simp [writes, call, hs]⟩
    | error e => exact .inr ⟨by simp [call, hs], by simp [writes, call, hs]⟩
  | insert rows =>
    refine .inr ⟨?_, rfl⟩
    cases hs : s.insert rows with
    | ok s' =>
      obtain ⟨-, rfl⟩ := insert_eq_ok hs
      simp [call, hs]
    | error e => simp [call, hs]
  | fail inserts queries upserts => exact .inr ⟨rfl, rfl⟩

/-- A call that fails changes nothing. -/
theorem call_error {c : Call} {e : Error} (h : (s.call c).1 = .error e) : (s.call c).2 = s := by
  cases c with
  | upsert ts => cases hs : s.upsert ts <;> simp_all [call]
  | insert rows => cases hs : s.insert rows <;> simp_all [call]
  | fail inserts queries upserts => exact absurd h (by simp [call])

/-- A call only ever goes forward. -/
theorem forward_call (s : Store) (c : Call) : Forward s (s.call c).2 := by
  rcases call_cases s c with ⟨ts, s', -, hs, hc, -⟩ | ⟨hc, -⟩
  · exact hc ▸ forward_upsert hs
  · exact forward_of_eq hc

/-- Calls only ever go forward. -/
theorem forward_after (s : Store) (calls : List Call) : Forward s (s.after calls) := by
  induction calls generalizing s with
  | nil => exact .rfl
  | cons c cs ih => exact (forward_call s c).trans (ih _)

/-! ## The last version with the highest status -/

/-- Of some versions of a transaction, the last one among those with the highest status. -/
def lastHighest (ts : List Transaction) : Option Transaction :=
  (ts.filter fun t => ts.all fun u => u.status.code ≤ t.status.code).getLast?

/-- It is one of them, and none of them has a higher status. -/
theorem highest_of_lastHighest (h : lastHighest ts = some t) : t ∈ ts ∧ ∀ u ∈ ts, u.status.code ≤ t.status.code := by
  obtain ⟨hmem, hall⟩ := List.mem_filter.1 (List.mem_of_getLast? h)
  refine ⟨hmem, ?_⟩
  intro u hu
  simpa using List.all_eq_true.1 hall u hu

/-- There is one wherever there is a version. -/
theorem lastHighest_eq_none : lastHighest ts = none ↔ ts = [] := by
  constructor
  · intro h
    by_contra hne
    obtain ⟨m, hm⟩ : ∃ m, ts.argmax (·.status.code) = some m :=
      Option.ne_none_iff_exists'.1 fun hnone => hne (List.argmax_eq_none.1 hnone)
    have hmem : m ∈ ts.filter fun t => ts.all fun u => u.status.code ≤ t.status.code := by
      refine List.mem_filter.2 ⟨List.argmax_mem hm, List.all_eq_true.2 ?_⟩
      intro u hu
      simpa using List.le_of_mem_argmax hu hm
    rw [List.getLast?_eq_none_iff.1 h] at hmem
    exact absurd hmem List.not_mem_nil
  · rintro rfl
    rfl

/-- One more version becomes it, unless its status is lower. -/
theorem lastHighest_concat (ts : List Transaction) (t : Transaction) :
    lastHighest (ts ++ [t]) = some (latest t (lastHighest ts)) := by
  by_cases ht : ∀ u ∈ ts, u.status.code ≤ t.status.code
  · have hkept : latest t (lastHighest ts) = t := by
      cases hm : lastHighest ts with
      | none => rfl
      | some m => exact if_neg (Nat.not_lt.2 (ht m (highest_of_lastHighest hm).1))
    have hself : ((ts ++ [t]).all fun u => u.status.code ≤ t.status.code) = true := by simpa using ht
    rw [hkept, lastHighest, List.filter_append, List.filter_cons, if_pos hself]
    exact List.getLast?_concat
  · obtain ⟨v, hv, htv⟩ : ∃ v ∈ ts, t.status.code < v.status.code := by simpa using ht
    obtain ⟨m, hm⟩ : ∃ m, lastHighest ts = some m :=
      Option.ne_none_iff_exists'.1 fun hnone => List.ne_nil_of_mem hv (lastHighest_eq_none.1 hnone)
    have htm : t.status.code < m.status.code := Nat.lt_of_lt_of_le htv ((highest_of_lastHighest hm).2 v hv)
    have hself : ((ts ++ [t]).all fun u => u.status.code ≤ t.status.code) = false := by
      refine Bool.eq_false_iff.2 ?_
      intro hall
      exact ht (by simpa using hall)
    -- whoever is above all of `ts` is above `v`, and so above `t`
    have hothers : (ts.filter fun u => (ts ++ [t]).all fun w => w.status.code ≤ u.status.code) =
        ts.filter fun u => ts.all fun w => w.status.code ≤ u.status.code := by
      refine List.filter_congr ?_
      intro u _
      rw [List.all_append, Bool.and_eq_left_iff_imp]
      intro hall
      have hvu : v.status.code ≤ u.status.code := by simpa using List.all_eq_true.1 hall v hv
      simpa using (Nat.le_of_lt htv).trans hvu
    have hstay : lastHighest (ts ++ [t]) = lastHighest ts := by
      rw [lastHighest, List.filter_append, List.filter_cons, hself, hothers]
      simp [lastHighest]
    rw [hstay, hm]
    exact congrArg some (if_pos htm).symm

/-! ## What is kept -/

/-- The store has, of the versions written, the last one with the highest status of each transaction, and nothing else. -/
structure Kept (s : Store) (us : List Transaction) : Prop where
  lookup : ∀ g, s.lookup g = lastHighest (us.filter (·.gtid == g))
  distinct : (s.transactions.map (·.gtid)).Nodup

/-- What a store keeps does not depend on the rest of it. -/
theorem Kept.of_eq (h : Kept s us) (hs : s'.transactions = s.transactions) : Kept s' us := by
  refine ⟨?_, hs ▸ h.distinct⟩
  intro g
  rw [← h.lookup g, Store.lookup, Store.lookup, hs]

/-- An upsert that succeeds writes its versions one after the other. -/
theorem Kept.upsert (h : Kept s us) (hs : s.upsert ts = .ok s') : Kept s' (us ++ ts) := by
  refine ⟨?_, nodup_upsert hs h.distinct⟩
  intro g
  have hg := h.lookup g
  obtain ⟨-, rfl⟩ := upsert_eq_ok hs
  clear hs h
  unfold Store.lookup at hg ⊢
  generalize s.transactions = vs at hg ⊢
  induction ts generalizing us vs with
  | nil => simpa using hg
  | cons t ts ih =>
    have hput : (put t vs).find? (·.gtid == g) = lastHighest ((us ++ [t]).filter (·.gtid == g)) := by
      rw [find?_put, hg, List.filter_append]
      by_cases ht : t.gtid = g
      · have hone : [t].filter (·.gtid == g) = [t] := by simp [ht]
        rw [if_pos ht, hone, lastHighest_concat]
      · have hnone : [t].filter (·.gtid == g) = [] := by simp [ht]
        rw [if_neg ht, hnone, List.append_nil]
    rw [List.append_cons]
    exact ih _ hput

/-- Calls keep what they write. -/
theorem Kept.after (h : Kept s us) (calls : List Call) : Kept (s.after calls) (us ++ s.upserted calls) := by
  induction calls generalizing s us with
  | nil => simpa [Store.after, upserted] using h
  | cons c cs ih =>
    rw [after_cons, upserted, ← List.append_assoc]
    refine ih ?_
    rcases call_cases s c with ⟨ts, s', -, hs, hc, hw⟩ | ⟨hc, hw⟩
    · rw [hc, hw]
      exact h.upsert hs
    · rw [hw, List.append_nil]
      exact h.of_eq hc

/-- Where GTIDs are different, what is found under a GTID is all there is with it. -/
theorem filter_eq_find? (hs : (ts.map (·.gtid)).Nodup) (g : String) :
    ts.filter (·.gtid == g) = (ts.find? (·.gtid == g)).toList := by
  induction ts with
  | nil => rfl
  | cons t ts ih =>
    rw [List.map_cons, List.nodup_cons] at hs
    rw [List.filter_cons, List.find?_cons]
    cases ht : t.gtid == g with
    | false => exact ih hs.2
    | true =>
      have hnone : ts.filter (·.gtid == g) = [] := by
        refine List.filter_eq_nil_iff.2 ?_
        intro u hu hug
        refine hs.1 ?_
        rw [beq_iff_eq.1 ht, ← beq_iff_eq.1 hug]
        exact List.mem_map_of_mem hu
      simp [hnone]

/-- Where GTIDs are different, a transaction that is there is the only one with its GTID. -/
theorem filter_eq_singleton (hs : (ts.map (·.gtid)).Nodup) (ht : t ∈ ts) : ts.filter (·.gtid == t.gtid) = [t] := by
  obtain ⟨u, hu⟩ : ∃ u, ts.find? (·.gtid == t.gtid) = some u :=
    Option.isSome_iff_exists.1 (List.find?_isSome.2 ⟨t, ht, beq_self_eq_true _⟩)
  have hut : u = t := List.inj_on_of_nodup_map hs (List.mem_of_find?_eq_some hu) ht (by simpa using List.find?_some hu)
  rw [filter_eq_find? hs, hu, hut]
  rfl

/-- Where GTIDs are different, a transaction that is processed is not listed as unprocessed. -/
theorem not_listed_of_processed (hs : (s.transactions.map (·.gtid)).Nodup) (hg : s.processed g = true) {since : Instant}
    {limit : Nat} (h : s.unprocessed since limit = .ok ts) (ht : t ∈ ts) : t.gtid ≠ g := by
  rintro rfl
  obtain ⟨hmem, hopen⟩ := mem_unprocessed h ht
  rw [processed_of_mem hs hmem, hopen] at hg
  exact absurd hg (by simp)

/-- Where GTIDs are different, a transaction that is processed is not counted as unprocessed. -/
theorem countBefore_of_processed (hs : (s.transactions.map (·.gtid)).Nodup) (hg : s.processed g = true) {cutoff : Instant}
    {n : Nat} (h : s.countBefore cutoff = .ok n) :
    n = (s.transactions.filter fun t => t.gtid != g && !t.isProcessed && t.commitTime < cutoff).length := by
  obtain rfl := Except.ok.inj (checkQueries_bind h).2
  refine congrArg List.length (List.filter_congr ?_)
  intro t ht
  by_cases htg : t.gtid = g
  · have hp : t.isProcessed = true := by rw [← processed_of_mem hs ht, htg, hg]
    rw [hp, Bool.not_true, Bool.and_false]
  · rw [bne_iff_ne.2 htg, Bool.true_and]

/-- Upserts of one transaction each do what one upsert of all of them does, but for the number of writes. -/
theorem after_singles (s : Store) (ts : List Transaction) :
    s.after (ts.map fun t => .upsert [t]) =
      { s.after [.upsert ts] with upsertBatches := s.upsertBatches + if s.failUpserts then 0 else ts.length } := by
  induction ts generalizing s with
  | nil =>
    obtain ⟨rows, transactions, failInserts, failQueries, failUpserts, insertBatches, upsertBatches⟩ := s
    cases failUpserts <;> rfl
  | cons t ts ih =>
    rw [List.map_cons, after_cons, ih]
    cases hf : s.failUpserts
    · simp [after, call, upsert, hf]
      omega
    · simp [after, call, upsert, hf]

/-- Whatever calls are made on a store that starts empty, it answers with the last of the versions with the highest status that were
written of a transaction, and has no other version of it. Once a transaction is processed it stays so, whatever calls are made
after that: it is neither listed nor counted as unprocessed again. An upsert of several transactions does what upserts of one
each do, and a call that fails changes nothing. -/
theorem highest_version_stays (calls : List Call) :
    let s := after {} calls
    let us := upserted {} calls
    (∀ g, s.transaction g = if s.failQueries then .error (.store "injected query failure")
      else .ok (lastHighest (us.filter (·.gtid == g)))) ∧
    (∀ g, s.transactions.filter (·.gtid == g) = (lastHighest (us.filter (·.gtid == g))).toList) ∧
    (∀ g, lastHighest (us.filter (·.gtid == g)) = none ↔ ∀ t ∈ us, t.gtid ≠ g) ∧
    (∀ g more, s.processed g = true → (s.after more).processed g = true ∧
      (∀ since limit ts, (s.after more).unprocessed since limit = .ok ts → ∀ t ∈ ts, t.gtid ≠ g) ∧
      ∀ cutoff n, (s.after more).countBefore cutoff = .ok n →
        n = ((s.after more).transactions.filter fun t => t.gtid != g && !t.isProcessed && t.commitTime < cutoff).length) ∧
    (∀ ts, s.after (ts.map fun t => .upsert [t]) =
      { s.after [.upsert ts] with upsertBatches := s.upsertBatches + if s.failUpserts then 0 else ts.length }) ∧
    ∀ c e, (s.call c).1 = .error e → (s.call c).2 = s := by
  intro s us
  have hempty : Kept {} [] := ⟨fun _ => rfl, List.nodup_nil⟩
  have hkept : Kept s us := hempty.after calls
  refine ⟨?_, ?_, ?_, ?_, after_singles s, fun _ _ => call_error⟩
  · intro g
    rw [← hkept.lookup g, transaction, checkQueries]
    cases s.failQueries <;> rfl
  · intro g
    rw [filter_eq_find? hkept.distinct, ← hkept.lookup]
    rfl
  · intro g
    rw [lastHighest_eq_none, List.filter_eq_nil_iff]
    simp
  · intro g more hg
    have hon : Forward s (s.after more) := forward_after s more
    have hprocessed := hon.processed g hg
    have hdistinct := hon.distinct hkept.distinct
    exact ⟨hprocessed, fun since limit ts h t ht => not_listed_of_processed hdistinct hprocessed h ht,
      fun cutoff n h => countBefore_of_processed hdistinct hprocessed h⟩

/-- One transaction is written as unprocessed, then in one batch as processed and again as unprocessed, and once more as processed;
an upsert in between fails. The last of the two processed versions stays, and a late marker does not bring it back. -/
theorem highest_version_stays_redelivered :
    let version (context : String) (status : Status) : Transaction := ⟨"T1", context, ⟨0, 0⟩, status⟩
    let other : Transaction := ⟨"T2", "d", ⟨0, 0⟩, .unprocessed⟩
    let calls : List Call := [.upsert [version "a" .unprocessed],
      .upsert [version "b" .processed, other, version "c" .unprocessed], .fail false false true,
      .upsert [version "lost" .processed], .fail false false false, .upsert [version "d" .processed]]
    let s := after {} calls
    let late := s.after [.upsert [version "e" .unprocessed]]
    s.transaction "T1" = .ok (some (version "d" .processed)) ∧ late.unprocessed ⟨0, 0⟩ 10 = .ok [other] ∧
      (∀ t ∈ [other], t.gtid ≠ "T1") ∧ late.processed "T1" = true := by
  intro version other calls s late
  obtain ⟨hanswer, -, -, hstays, -, -⟩ := highest_version_stays calls
  have hlast : lastHighest ((upserted {} calls).filter (·.gtid == "T1")) = some (version "d" .processed) := by decide +kernel
  have hprocessed : s.processed "T1" = true := by decide +kernel
  have hopen : (late.transactions.filter fun t => !t.isProcessed && (⟨0, 0⟩ : Instant) ≤ t.commitTime) = [other] := by
    decide +kernel
  have hlisted : late.unprocessed ⟨0, 0⟩ 10 = .ok [other] := by
    change Except.ok ((List.mergeSort _ _).take 10) = _
    rw [hopen, List.mergeSort_singleton]
    rfl
  obtain ⟨hstill, hnot, -⟩ := hstays "T1" [.upsert [version "e" .unprocessed]] hprocessed
  refine ⟨?_, hlisted, hnot _ _ _ hlisted, hstill⟩
  rw [hanswer "T1", hlast]
  rfl

end Store

end AuditTrail
