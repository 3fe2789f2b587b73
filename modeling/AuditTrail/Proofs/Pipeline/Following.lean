import AuditTrail.Proofs.Pipeline.Ingestion
import AuditTrail.Proofs.Writer.Accounting

/-!
# Starting at the end of the log

A partition without a cursor may be read from what is published next. Then a run that ends before it has written a cursor of the
partition leaves no trace of where it began, and the next run begins at the end of the log again, beyond all that the first one
has read. So what a run has handed to the writer is stored in the end exactly if it was stored when the run ended, or if
the partition had a cursor by then (`replayed_iff_cursor`); that all of it is replayed is false (`replayed_false`).
-/

namespace AuditTrail

namespace Pipeline

/-- Settings under which a topic of row changes is ingested with a filter from what is published next on. The markers come from
another topic. -/
structure Follows (filter : Filter) (topic : String) (settings : PipelineSettings) : Prop where
  ofFilter : Filter.ofConfig settings.filter = filter
  ofTopic : settings.rowChangeTopic = topic
  other : settings.markerTopic ≠ topic
  latest : settings.feed.start = .latest

/-- Runs on the services one after the other, each as it was when it ended, and what the last one has left. A run may end at any
step, by a crash or after all tasks have been told to stop. -/
inductive Resumes (ok : Services → Prop) (filter : Filter) (topic : String) (first : Services) :
    List Scene → Services → Prop where
  | first : Resumes ok filter topic first [] first
  | after {ys : List Scene} {s : Services} {settings : PipelineSettings} {now : Nat} {y : Scene}
      (h : Resumes ok filter topic first ys s) (hs : Follows filter topic settings)
      (hr : Scene.Run ok (.start settings now s) y) : Resumes ok filter topic first (ys ++ [y]) y.services

namespace Resumes

variable {ok : Services → Prop} {filter : Filter} {topic : String} {first s : Services} {y : Scene} {ys : List Scene}

/-- What holds when one of several runs ends, and what every run keeps, holds in the end. -/
theorem since {P : Services → Prop} (h : Resumes ok filter topic first ys s) (hy : y ∈ ys) (h0 : P y.services)
    (hP : ∀ {t settings now z}, Follows filter topic settings → Scene.Run ok (.start settings now t) z → P t → P z.services) :
    P s := by
  induction h with
  | first => exact absurd hy List.not_mem_nil
  | @after ys s settings now z h hs hr ih =>
    rcases List.mem_append.1 hy with hy | hy
    · exact hP hs hr (ih hy)
    · exact List.mem_singleton.1 hy ▸ h0

/-- Each of several runs is one. -/
theorem run (h : Resumes ok filter topic first ys s) (hy : y ∈ ys) :
    ∃ settings now t, Follows filter topic settings ∧ Scene.Run ok (.start settings now t) y := by
  induction h with
  | first => exact absurd hy List.not_mem_nil
  | after h hs hr ih =>
    rcases List.mem_append.1 hy with hy | hy
    · exact ih hy
    · exact ⟨_, _, _, hs, List.mem_singleton.1 hy ▸ hr⟩

end Resumes

/-- A row is stored, at whatever time it was taken in. -/
def Holds (s : Services) (r : StoredChange) : Prop := ∃ clock, { r with ingestedAt := clock } ∈ s.store.rows

namespace Scene

/-- Where a reader starts that follows a partition: at the stored cursor, or else at the end of the log. -/
def opening (s : Services) (topic : String) (p : Int) : Int := (s.cursors.stored topic p).getD (s.queue.size topic p)

/-- The services with a cursor at every place where a reader starts. -/
def pinned (s : Services) (topic : String) : Services :=
  { s with cursors :=
      ((s.queue.partitions topic).toOption.getD []).foldl (fun c p => c.set topic p (opening s topic p)) s.cursors }

end Scene

namespace FollowingAux

open Scene IngestionAux

variable {ok : Services → Prop} {filter : Filter} {topic : String} {settings : PipelineSettings} {now : Nat}
  {first s t : Services} {x y : Scene} {ys : List Scene} {p : Int} {k : Nat}

/-- The readers start at the cursors of the services that are pinned. -/
theorem origin_pinned (s : Services) (topic : String) (p : Int) : origin (pinned s topic) topic p = opening s topic p := by
  simp only [origin, pinned, Cursors.stored_sets]
  split
  · rfl
  · rename_i hp
    have hnone : s.queue.log? topic p = none := by
      cases hl : s.queue.log? topic p with
      | none => rfl
      | some l =>
        obtain ⟨ps, hps, hmem⟩ := Queue.partitions_of_log? hl
        exact absurd (by rw [hps]; exact hmem) hp
    rw [opening, Queue.size, hnone]
    rfl

/-- A reader starts at the cursor, if there is one. -/
theorem le_pinned (p n : Int) (hn : s.cursors.stored topic p = some n) : n ≤ origin (pinned s topic) topic p := by
  have hopening : opening s topic p = n := by rw [opening, hn, Option.getD_some]
  rw [origin_pinned]
  omega

/-- What is known at any point of a run: of the writer, of the readers of row changes, and of the rows. -/
theorem account_following (hs : Follows filter topic settings) (hr : Run ok (.start settings now s) x) :
    ∃ w taken, x.pipeline.writer = some w ∧ Writer.Safe (0 ≤ ·) s topic (x.view w) taken ∧
      Streaming filter topic (pinned s topic) x ∧ ∀ r ∈ s.store.rows, r ∈ x.services.store.rows := by
  have hstream : Streaming filter topic (pinned s topic) x := by
    induction hr with
    | refl =>
      refine streaming_opened hs.ofFilter hs.ofTopic ?_
      intro p
      rw [origin_pinned, opening, hs.latest]
      rfl
    | tail hr hm ih => exact IntakeAux.streaming_move ih hm
  obtain ⟨w, taken, hw, hsafe, hrows⟩ := safe_of_streaming hs.ofTopic hs.other hstream hr
  exact ⟨w, taken, hw, hsafe, hstream, hrows⟩

/-- What is added to the rows in a move are the batches that are stored. -/
theorem rows_move (hm : Move ok x y) : ∃ new, y.batches = x.batches ++ new ∧
    y.services.store.rows = x.services.store.rows ++ new.flatten := by
  have hnone : ∀ {rows : List StoredChange}, rows = x.services.store.rows →
      rows = x.services.store.rows ++ ([] : List (List StoredChange)).flatten := by
    rintro rows rfl
    simp
  cases hm with
  | task hstep =>
    cases turn_of_step hstep with
    | @writer attention now w w' c t hw ht =>
      refine ⟨w.stores x.services, ?_, (Writer.turn_of_step ht).addsRows⟩
      simp [advance, stores, hw]
    | deliver hd hi => exact ⟨[], rfl, hnone rfl⟩
    | close hd hi hs => exact ⟨[], rfl, hnone rfl⟩
    | worker hr ht => exact ⟨[], rfl, hnone ht.counted.updated.rows⟩
    | feeder hr ht => exact ⟨[], rfl, hnone ht.counted.updated.rows⟩
    | correlator hc ht =>
      refine ⟨[], rfl, hnone ?_⟩
      cases ht with
      | work hp hx => exact hx.updated.rows
      | commit hp => simp only [advance, Services.putCursor_store]
      | _ => rfl
    | sweeper hx ht => exact ⟨[], rfl, hnone ht.updated.rows⟩
  | signal => exact ⟨[], (List.append_nil _).symm, hnone rfl⟩
  | outside ho hok => exact ⟨[], (List.append_nil _).symm, hnone ho.rows⟩

/-- On every run, the rows that are stored are those that were there at first and after them the batches. -/
theorem rows_run (hr : Run ok (.start settings now s) x) :
    x.services.store.rows = s.store.rows ++ x.batches.flatten := by
  induction hr with
  | refl => exact (List.append_nil _).symm
  | tail hr hm ih =>
    obtain ⟨new, hbatches, hadded⟩ := rows_move hm
    rw [hadded, ih, hbatches, List.flatten_append, List.append_assoc]

/-- A row that is stored after a run was stored before it, or was accepted in it. -/
theorem stored_or_accepted (hs : Follows filter topic settings) (hr : Run ok (.start settings now s) x) {r : StoredChange}
    (h : r ∈ x.services.store.rows) : r ∈ s.store.rows ∨ Intake.row r ∈ x.accepted := by
  obtain ⟨w, hw, hrun⟩ := writing_run (fun e => hs.other (e.symm.trans hs.ofTopic)) hr
  obtain ⟨fs, hnoted⟩ := Writer.Scene.exists_noted hrun
  have hbooked := Writer.booked_noted (Writer.booked_start settings.writer _ now settings.writer.capacity s) hnoted
  rw [rows_run hr] at h
  rcases List.mem_append.1 h with h | h
  · exact Or.inl h
  · exact Or.inr (hbooked.accepted_of_batched (List.mem_flatten.1 h))

/-- A cursor does not vanish in a run. -/
theorem cursor_run (hs : Follows filter topic settings) (hr : Run ok (.start settings now s) x) (hp : 0 ≤ p)
    (h : s.cursors.stored topic p ≠ none) : x.services.cursors.stored topic p ≠ none := by
  obtain ⟨w, hw, hrun⟩ := writing_run (fun e => hs.other (e.symm.trans hs.ofTopic)) hr
  have hfirst : (Writer.Scene.start settings.writer settings.rowChangeTopic now settings.writer.capacity
      s).writer.topic = topic := hs.ofTopic
  have hkeeps := hrun.keepsCursor hp
  rw [hfirst] at hkeeps
  exact hkeeps h

/-! ### What lies before the place where the next reader starts -/

/-- A message that the writer has accepted lies before the end of its log, and not before the place where its reader started. -/
theorem opening_le_of_accepted (hs : Follows filter topic settings) (hr : Run ok (.start settings now s) x)
    {i : Intake} (hi : i ∈ x.accepted) : opening s topic i.partition ≤ i.offset ∧ 0 ≤ i.partition ∧
      i.offset < x.services.queue.size topic i.partition := by
  obtain ⟨w, taken, hw, hsafe, hstream, hrows⟩ := account_following hs hr
  obtain ⟨k, payload, hpay, hyield, hk, q, hq, hqp, hlt⟩ := hstream.accepted i hi
  have hoff : i.offset = k := IntakeAux.offset_of_yields hyield
  have hend : k < x.services.queue.size topic i.partition := Queue.lt_size_of_payload? hpay
  rw [origin_pinned] at hk
  exact ⟨by omega, hqp ▸ (hstream.workers q hq).numbered, by omega⟩

/-- What lies before the place where the readers of a run start lies before that of the next run, and the run stores nothing for
it. -/
theorem passed_run (hs : Follows filter topic settings) (hr : Run ok (.start settings now s) x) (hp : 0 ≤ p) {n : Int}
    (hn : n < opening s topic p) : n < opening x.services topic p ∧
      ∀ r ∈ x.services.store.rows, r.partition = p → r.offset = n → r ∈ s.store.rows := by
  obtain ⟨w, taken, hw, hsafe, hstream, hrows⟩ := account_following hs hr
  refine ⟨?_, ?_⟩
  · cases hst : x.services.cursors.stored topic p with
    | none =>
      have hfirst : s.cursors.stored topic p = none := by
        by_contra hsome
        exact cursor_run hs hr hp hsome hst
      have hsize : s.queue.size topic p ≤ x.services.queue.size topic p := (grows_run hr).size topic p
      rw [opening, hfirst, Option.getD_none] at hn
      rw [opening, hst, Option.getD_none]
      omega
    | some m =>
      rw [opening, hst, Option.getD_some]
      rcases hsafe.cursors p m hp hst with hold | hwritten
      · rwa [opening, hold, Option.getD_some] at hn
      · obtain ⟨i, hi, hip, hio⟩ := hsafe.exists_of_written hwritten
        obtain ⟨hle, -, -⟩ := opening_le_of_accepted hs hr hi
        simp only at hip hio
        rw [hip] at hle
        omega
  · intro r hrx hrp hro
    rcases stored_or_accepted hs hr hrx with hold | hacc
    · exact hold
    · obtain ⟨hle, -, -⟩ := opening_le_of_accepted hs hr hacc
      have hle' : opening s topic r.partition ≤ r.offset := hle
      rw [hrp] at hle'
      omega

/-! ### What lies before a cursor -/

/-- There is a cursor, and all messages between a place and the cursor are ingested. -/
def Kept (filter : Filter) (topic : String) (p low : Int) (s : Services) : Prop :=
  ∃ n, s.cursors.stored topic p = some n ∧ ∀ k : Nat, low ≤ k → (k : Int) < n → Ingested filter topic s p k

/-- A run that leaves a cursor leaves the messages ingested that lie between the start of its reader and the cursor. -/
theorem kept_of_cursor (hs : Follows filter topic settings) (hr : Run ok (.start settings now s) x) (hp : 0 ≤ p)
    (h : x.services.cursors.stored topic p ≠ none) : Kept filter topic p (opening s topic p) x.services := by
  obtain ⟨w, taken, hw, hsafe, hstream, hrows⟩ := account_following hs hr
  obtain ⟨n, hn⟩ := Option.ne_none_iff_exists'.1 h
  refine ⟨n, hn, ?_⟩
  intro k hle hk
  rcases hsafe.cursors p n hp hn with hold | hwritten
  · rw [opening, hold, Option.getD_some] at hle
    omega
  · exact ingested_of_written le_pinned hsafe hstream hp hn hwritten (by rwa [origin_pinned]) hk

/-- Once there is a cursor, every run keeps what lies before it ingested. -/
theorem kept_run {low : Int} (hs : Follows filter topic settings) (hr : Run ok (.start settings now s) x) (hp : 0 ≤ p)
    (h : Kept filter topic p low s) : Kept filter topic p low x.services := by
  obtain ⟨w, taken, hw, hsafe, hstream, hrows⟩ := account_following hs hr
  obtain ⟨n, hn, hbefore⟩ := h
  have hopening : opening s topic p = n := by rw [opening, hn, Option.getD_some]
  obtain ⟨m, hm, hafter⟩ := kept_of_cursor hs hr hp (cursor_run hs hr hp (by simp [hn]))
  refine ⟨m, hm, ?_⟩
  intro k hle hk
  rcases Int.lt_or_le k n with hlt | hge
  · exact ingested_mono (hbefore k hle hlt) (grows_run hr) hrows
  · exact hafter k (hopening ▸ hge) hk

/-! ### What becomes of a row that was accepted -/

/-- An item that is a row was made of a message that decodes and passes the filter. -/
theorem event_of_yields {m : Message} {r : StoredChange} (h : m.Yields filter (.row r)) :
    ∃ e e' clock, RowChange.decode m.payload = .ok e ∧ filter.apply e = (true, e') ∧
      r = .ofEvent e' m.partition m.offset clock := by
  obtain ⟨clock, hi⟩ := h
  unfold Message.toIntake at hi
  split at hi
  · exact absurd hi (by simp)
  · rename_i e he
    split at hi
    · exact absurd hi (by simp)
    · rename_i e' hf
      exact ⟨e, e', clock, he, hf, Intake.row.inj hi⟩

/-- Where the message of a row is ingested, the row is stored. -/
theorem holds_of_ingested {r : StoredChange} {payload : Octets} (hpay : t.queue.payload? topic p k = some payload)
    (hyield : Message.Yields filter ⟨topic, p, k, payload⟩ (.row r)) (h : Ingested filter topic t p k) : Holds t r := by
  obtain ⟨e, e', clock, he, hf, rfl⟩ := event_of_yields hyield
  obtain ⟨payload', hpay', hrow⟩ := h
  obtain rfl : payload = payload' := Option.some.inj (hpay.symm.trans hpay')
  exact hrow e e' he hf

/-- A run that starts where messages are kept, and that has read the partition to its end and stored all it has accepted, leaves
them ingested to the end. -/
theorem ingested_of_kept {low : Int} (hs : Follows filter topic settings) (hr : Run ok (.start settings now s) x)
    (hstored : ∀ r, Intake.row r ∈ x.accepted → r ∈ x.services.store.rows) {q : Worker} (hq : q ∈ x.pipeline.workers)
    (hqp : q.feed.partition = p) (hread : x.services.queue.size topic p ≤ q.feed.position)
    (h : Kept filter topic p low s) (hle : low ≤ k) (hk : k < x.services.queue.size topic p) :
    Ingested filter topic x.services p k := by
  subst hqp
  obtain ⟨w, taken, hw, hsafe, hstream, hrows⟩ := account_following hs hr
  obtain ⟨n, hn, hbefore⟩ := h
  have hopening : opening s topic q.feed.partition = n := by rw [opening, hn, Option.getD_some]
  rcases Int.lt_or_le k n with hlt | hge
  · exact ingested_mono (hbefore k hle hlt) (grows_run hr) hrows
  · obtain ⟨i, hi, hip, hio⟩ := (hstream.workers q hq).sent k (by rwa [origin_pinned, hopening]) (by omega)
    refine ingested_of_accepted (hstream.accepted i hi) hip hio ?_
    intro r hir
    exact hstored r (hir ▸ hi)

/-- What has grown on the way, after one of several runs and the last one: the queue and the rows. -/
theorem grows_since (h : Resumes ok filter topic first ys s) (hy : y ∈ ys) :
    y.services.queue.Grows s.queue ∧ ∀ r ∈ y.services.store.rows, r ∈ s.store.rows := by
  refine h.since (P := fun t => y.services.queue.Grows t.queue ∧ ∀ r ∈ y.services.store.rows, r ∈ t.store.rows) hy
    ⟨.rfl, fun r hr => hr⟩ ?_
  rintro t settings now z hs hr ⟨hqueue, hrows⟩
  obtain ⟨w, taken, -, -, -, hmore⟩ := account_following hs hr
  exact ⟨hqueue.trans (grows_run hr), fun r hr => hmore r (hrows r hr)⟩

/-- A row that was accepted in a run that has left no cursor of its partition is stored in the end only if it was when the run
ended: no later run reads its message again. -/
theorem stored_of_no_cursor {settings' : PipelineSettings} {now' : Nat} (h : Resumes ok filter topic first ys s)
    (hy : y ∈ ys) {r : StoredChange} (hacc : Intake.row r ∈ y.accepted)
    (hcur : y.services.cursors.stored topic r.partition = none) {ok' : Services → Prop} (hs : Follows filter topic settings')
    (hr : Run ok' (.start settings' now' s) x) (hx : Holds x.services r) : Holds y.services r := by
  obtain ⟨settings, now, t, hsy, hry⟩ := h.run hy
  obtain ⟨-, hnum, hlt⟩ := opening_le_of_accepted hsy hry hacc
  replace hlt : r.offset < opening y.services topic r.partition := by
    rw [opening, hcur, Option.getD_none]
    exact hlt
  let P (u : Services) : Prop := r.offset < opening u topic r.partition ∧
    ∀ q ∈ u.store.rows, q.partition = r.partition → q.offset = r.offset → q ∈ y.services.store.rows
  have hkeep : ∀ {ok : Services → Prop} {u settings now z}, Follows filter topic settings →
      Run ok (.start settings now u) z → P u → P z.services := by
    rintro ok u settings now z hs hr ⟨hn, hrows⟩
    obtain ⟨hn', hrows'⟩ := passed_run hs hr hnum hn
    exact ⟨hn', fun q hq hqp hqo => hrows q (hrows' q hq hqp hqo) hqp hqo⟩
  have hend : P x.services := hkeep hs hr (h.since hy ⟨hlt, fun q hq _ _ => hq⟩ hkeep)
  obtain ⟨clock, hclock⟩ := hx
  exact ⟨clock, hend.2 _ hclock rfl rfl⟩

/-- A row that was accepted in a run that has left a cursor of its partition is stored in the end, if the last run has read the
partition to its end and stored all it has accepted. -/
theorem stored_of_cursor {settings' : PipelineSettings} {now' : Nat} (h : Resumes ok filter topic first ys s)
    (hy : y ∈ ys) {r : StoredChange} (hacc : Intake.row r ∈ y.accepted)
    (hcur : y.services.cursors.stored topic r.partition ≠ none) {ok' : Services → Prop} (hs : Follows filter topic settings')
    (hr : Run ok' (.start settings' now' s) x) (hstored : ∀ r, Intake.row r ∈ x.accepted → r ∈ x.services.store.rows)
    {q : Worker} (hq : q ∈ x.pipeline.workers) (hqp : q.feed.partition = r.partition)
    (hread : x.services.queue.size topic r.partition ≤ q.feed.position) : Holds x.services r := by
  obtain ⟨settings, now, t, hsy, hry⟩ := h.run hy
  obtain ⟨w, taken, -, -, hstream, -⟩ := account_following hsy hry
  obtain ⟨k, payload, hpay, hyield, hk, -⟩ := hstream.accepted _ hacc
  obtain ⟨-, hnum, -⟩ := opening_le_of_accepted hsy hry hacc
  have hkept : Kept filter topic r.partition (opening t topic r.partition) s :=
    h.since hy (kept_of_cursor hsy hry hnum hcur) fun hs hr => kept_run hs hr hnum
  have hpayx := ((grows_since h hy).1.trans (grows_run hr)).payload? hpay
  have hle : opening t topic r.partition ≤ k := origin_pinned t topic r.partition ▸ hk
  exact holds_of_ingested hpayx hyield
    (ingested_of_kept hs hr hstored hq hqp hread hkept hle (Queue.lt_size_of_payload? hpayx))

end FollowingAux

open Scene IngestionAux FollowingAux

/-- After runs that start at the end of the log where there is no cursor, each ended at any step and with any failures, and a last
run of this kind on which inserts do not fail and which is drained: the rows that it has handed to the writer are stored; and a
row that an earlier run has handed to the writer, of a partition that the last run has read to its end, is stored exactly if the
partition had a cursor when that run ended, or if the row was stored by then. -/
theorem replayed_iff_cursor (filter : Filter) (topic : String) {ok : Services → Prop} {first s : Services} {ys : List Scene}
    {settings : PipelineSettings} {now : Nat} {x : Scene} (h : Resumes ok filter topic first ys s)
    (hs : Follows filter topic settings) (hins : s.store.failInserts = false)
    (hr : Run (fun t => t.store.failInserts = false) (.start settings now s) x) (hd : x.Drained) :
    (∀ r, Intake.row r ∈ x.accepted → Holds x.services r) ∧
    ∀ q ∈ x.pipeline.workers, x.services.queue.size topic q.feed.partition ≤ q.feed.position →
      ∀ y ∈ ys, ∀ r, Intake.row r ∈ y.accepted → r.partition = q.feed.partition →
        (Holds x.services r ↔ y.services.cursors.stored topic r.partition ≠ none ∨ Holds y.services r) := by
  obtain ⟨w, taken, hw, hsafe, hstream, hrows⟩ := account_following hs hr
  have hstored : ∀ r, Intake.row r ∈ x.accepted → r ∈ x.services.store.rows := by
    intro r hi
    exact stored_of_drained (fun _ => id) hins hr hd hw hsafe hi
  refine ⟨fun r hi => ⟨r.ingestedAt, hstored r hi⟩, ?_⟩
  intro q hq hread y hy r hacc hrp
  constructor
  · intro hx
    by_cases hcur : y.services.cursors.stored topic r.partition = none
    · exact Or.inr (stored_of_no_cursor h hy hacc hcur hs hr hx)
    · exact Or.inl hcur
  · rintro (hcur | ⟨clock, hclock⟩)
    · exact stored_of_cursor h hy hacc hcur hs hr hstored hq hrp.symm (hrp ▸ hread)
    · exact ⟨clock, hrows _ ((grows_since h hy).2 _ hclock)⟩

namespace Unflushed

/-- Two partitions of row changes, with nothing in them. -/
def services : Services where
  queue := { topics := [("binlog", [[], []]), ("tx_info", [[]])] }

/-- A row change. -/
def payload (gtid : String) : Octets := Utf8.encode ("[\"d\",\"t\",\"insert\",\"" ++ gtid ++ "\",1]")

/-- Three row changes are published. -/
def published (s : Services) : Services :=
  { s with queue := { topics := [("binlog", [[payload "a", payload "b"], [payload "c"]]), ("tx_info", [[]])] } }

/-- From now on inserts fail, or do not. -/
def refusing (inserts : Bool) (s : Services) : Services := { s with store := { s.store with failInserts := inserts } }

/-- Every row makes a batch, and a partition without a cursor is read from its end. -/
def settings : PipelineSettings := { writer := { batchSize := 1 }, feed := { start := .latest } }

/-- A run has started, and the row changes are published. -/
def begun : Scene := { Scene.start settings 0 services with services := published services }

/-- The first row of the first partition is stored. -/
def flushed : Option Scene := (steps 4 (.worker 0) ++ steps 4 .writer).foldlM after begun

/-- Then the second row of this partition and that of the second partition are lost, since the insert fails. -/
def refused (x : Scene) : Option Scene :=
  (steps 3 (.worker 0) ++ steps 4 .writer ++ steps 4 (.worker 1) ++ steps 4 .writer).foldlM after
    { x with services := refusing true x.services }

/-- The first run to its end. -/
def stopped : Option Scene := (flushed.bind refused).map fun x => { x with services := refusing false x.services }

/-- The run that follows: it reads the second row of the first partition, and nothing of the second one. -/
def resumed (y : Scene) : Option Scene :=
  (steps 4 (.worker 0) ++ steps 4 .writer).foldlM after (.start settings 0 y.services)

/-- What comes of the two runs. -/
theorem outcome : (stopped.any fun y => (resumed y).any fun x =>
    decide ((Intake.rowsOf y.accepted).map (fun r => (r.partition, r.gtid)) = [(0, "a"), (0, "b"), (1, "c")] ∧
      y.services.store.rows.map (·.gtid) = ["a"] ∧ y.services.cursors.stored "binlog" 0 ≠ none ∧
      y.services.cursors.stored "binlog" 1 = none ∧ x.ReadToEnd "binlog" ∧ x.Drained ∧
      x.services.queue.partitions "binlog" = .ok [0, 1])) = true := by
  decide +kernel

/-- The run that has only handed the first row to its writer when it ends by a crash. No call fails. -/
def crashed : Option Scene := (steps 4 (.worker 0)).foldlM after begun

/-- The run that follows: it finds nothing new. -/
def restarted (y : Scene) : Option Scene := (steps 1 (.worker 0)).foldlM after (.start settings 0 y.services)

/-- What comes of these two runs. -/
theorem outcome_crashed : (crashed.any fun y => (restarted y).any fun x =>
    decide (Intake.rowsOf y.accepted ≠ [] ∧
      (∀ r ∈ Intake.rowsOf y.accepted, services.queue.size "binlog" r.partition ≤ r.offset) ∧
      x.ReadToEnd "binlog" ∧ x.Drained ∧ x.services.store.rows = [])) = true := by
  decide +kernel

/-- Publishing leaves what is there in its place. -/
theorem grows_published : services.queue.Grows (published services).queue := by
  intro topic p l hl
  by_cases hb : topic = "binlog"
  · subst hb
    simp only [Queue.log?, services, List.lookup_cons, beq_self_eq_true, Option.bind_eq_bind, Option.bind_some] at hl
    split at hl
    · exact absurd hl (by simp)
    · rename_i hp
      simp only [Queue.log?, published, List.lookup_cons, beq_self_eq_true, Option.bind_eq_bind, Option.bind_some, if_neg hp]
      generalize p.toNat = n at hl ⊢
      rcases n with _ | _ | n
      · exact ⟨[payload "a", payload "b"], by rw [← Option.some.inj hl]; rfl⟩
      · exact ⟨[payload "c"], by rw [← Option.some.inj hl]; rfl⟩
      · exact absurd hl (by simp)
  · refine ⟨[], ?_⟩
    have hb' : (topic == "binlog") = false := beq_eq_false_iff_ne.2 hb
    rw [List.append_nil, ← hl]
    simp [Queue.log?, services, published, List.lookup_cons, hb']

/-- The start of either first run. -/
theorem run_begun {ok : Services → Prop} (hok : ok (published services)) : Run ok (.start settings 0 services) begun :=
  .single (.outside ⟨rfl, rfl, rfl, grows_published, rfl⟩ hok)

/-- The first run to its end is a run, and inserts do not fail any more after it. -/
theorem run_stopped {y : Scene} (h : stopped = some y) :
    Run (fun _ => True) (.start settings 0 services) y ∧ y.services.store.failInserts = false := by
  rw [stopped] at h
  obtain ⟨z, hz, rfl⟩ := Option.map_eq_some_iff.1 h
  obtain ⟨x, hx, hz⟩ := Option.bind_eq_some_iff.1 hz
  rw [refused] at hz
  have hfirst : Run (fun _ => True) (.start settings 0 services) x := (run_begun trivial).trans (run_of_afters hx)
  have hsecond : Run (fun _ => True) (.start settings 0 services) { x with services := refusing true x.services } :=
    hfirst.tail (.outside ⟨rfl, rfl, rfl, .rfl, rfl⟩ trivial)
  have hthird : Run (fun _ => True) (.start settings 0 services) z := hsecond.trans (run_of_afters hz)
  exact ⟨hthird.tail (.outside ⟨rfl, rfl, rfl, .rfl, rfl⟩ trivial), rfl⟩

/-- The settings are as they should be. -/
theorem follows : Follows (.ofConfig .default) "binlog" settings := ⟨rfl, rfl, by decide, rfl⟩

end Unflushed

/-- Two runs, of which the first one loses a row of either partition since the insert fails: the second run stores the row of the
partition that has a cursor, and not that of the other one. -/
theorem replayed_iff_cursor_two_partitions : ∃ y x r q,
    Run (fun _ => True) (.start Unflushed.settings 0 Unflushed.services) y ∧
    Run (fun t => t.store.failInserts = false) (.start Unflushed.settings 0 y.services) x ∧
    Intake.row r ∈ y.accepted ∧ Intake.row q ∈ y.accepted ∧ ¬Holds y.services r ∧ ¬Holds y.services q ∧
    Holds x.services r ∧ ¬Holds x.services q := by
  obtain ⟨y, hy, hprop⟩ := (Option.any_eq_true _ _).1 Unflushed.outcome
  obtain ⟨x, hx, hprop⟩ := (Option.any_eq_true _ _).1 hprop
  obtain ⟨hacc, hrows, hkept, hlost, hread, hd, hps⟩ := of_decide_eq_true hprop
  obtain ⟨hry, hins⟩ := Unflushed.run_stopped hy
  have hrx : Run (fun t => t.store.failInserts = false) (.start Unflushed.settings 0 y.services) x := run_of_afters hx
  obtain ⟨-, hiff⟩ := replayed_iff_cursor (.ofConfig .default) "binlog" (.after .first Unflushed.follows hry)
    Unflushed.follows hins hrx hd
  have hrow : ∀ p g, (p, g) ∈ [((0 : Int), "a"), (0, "b"), (1, "c")] → ∃ r, Intake.row r ∈ y.accepted ∧ r.partition = p ∧
      r.gtid = g := by
    intro p g hmem
    rw [← hacc] at hmem
    obtain ⟨r, hr, he⟩ := List.mem_map.1 hmem
    obtain ⟨rfl, rfl⟩ := Prod.mk.inj he
    exact ⟨r, Intake.mem_rowsOf.1 hr, rfl, rfl⟩
  have hnot : ∀ r : StoredChange, r.gtid ≠ "a" → ¬Holds y.services r := by
    rintro r hr ⟨clock, hclock⟩
    have hmem := List.mem_map_of_mem (f := (·.gtid)) hclock
    rw [hrows] at hmem
    exact hr (List.mem_singleton.1 hmem)
  obtain ⟨r, hr, hrp, hrg⟩ := hrow 0 "b" (by simp)
  obtain ⟨q, hq, hqp, hqg⟩ := hrow 1 "c" (by simp)
  have hpartitions : (x.services.queue.partitions "binlog").toOption.getD [] = [0, 1] := by rw [hps]; rfl
  obtain ⟨u, hu, hup, hur⟩ := hread 0 (by simp [hpartitions])
  obtain ⟨v, hv, hvp, hvr⟩ := hread 1 (by simp [hpartitions])
  have hr' := hnot r (by simp [hrg])
  have hq' := hnot q (by simp [hqg])
  refine ⟨y, x, r, q, hry, hrx, hr, hq, hr', hq', ?_, ?_⟩
  · exact (hiff u hu (hup ▸ hur) y (by simp) r hr (hrp.trans hup.symm)).2 (Or.inl (hrp ▸ hkept))
  · intro hx'
    rcases (hiff v hv (hvp ▸ hvr) y (by simp) q hq (hqp.trans hvp.symm)).1 hx' with hcur | hy'
    · exact hcur (hqp ▸ hlost)
    · exact hq' hy'

/-- That whatever a run has handed to the writer, of what is published after the first start, is stored in the end is false: a crash
before the first flush is enough, though no call fails. -/
theorem replayed_false :
    ¬∀ (filter : Filter) (topic : String) (first s : Services) (ys : List Scene) (settings : PipelineSettings) (now : Nat)
      (x : Scene), (∀ p, first.cursors.stored topic p = none) → Resumes Services.Unfailing filter topic first ys s →
      Follows filter topic settings → s.Unfailing → Run Services.Unfailing (.start settings now s) x →
      x.ReadToEnd topic → x.Drained → ∀ y ∈ ys, ∀ r, Intake.row r ∈ y.accepted →
        first.queue.size topic r.partition ≤ r.offset → Holds x.services r := by
  intro hall
  obtain ⟨y, hy, hprop⟩ := (Option.any_eq_true _ _).1 Unflushed.outcome_crashed
  obtain ⟨x, hx, hprop⟩ := (Option.any_eq_true _ _).1 hprop
  obtain ⟨hsome, hlow, hread, hd, hrows⟩ := of_decide_eq_true hprop
  obtain ⟨r, hr⟩ := List.exists_mem_of_ne_nil _ hsome
  have hok : (Unflushed.published Unflushed.services).Unfailing := ⟨rfl, rfl, rfl, rfl, rfl, rfl⟩
  have hry : Run Services.Unfailing (.start Unflushed.settings 0 Unflushed.services) y :=
    (Unflushed.run_begun hok).trans (run_of_afters hy)
  have hend : y.services.Unfailing := by
    refine hry.of_faults (fun _ => id) ?_ ⟨rfl, rfl, rfl, rfl, rfl, rfl⟩
    intro s t hf hs
    exact ⟨hf.inserts.trans hs.inserts, hf.queries.trans hs.queries, hf.upserts.trans hs.upserts, hf.gets.trans hs.gets,
      hf.puts.trans hs.puts, hf.fetches.trans hs.fetches⟩
  obtain ⟨clock, hclock⟩ := hall (.ofConfig .default) "binlog" Unflushed.services y.services [y] Unflushed.settings 0 x
    (fun _ => rfl) (.after .first Unflushed.follows hry) Unflushed.follows hend (run_of_afters hx) hread hd y
    (List.mem_singleton_self y) r (Intake.mem_rowsOf.1 hr) (hlow r hr)
  rw [hrows] at hclock
  exact List.not_mem_nil hclock

end Pipeline

end AuditTrail
