import AuditTrail.Proofs.Pipeline.Following
import AuditTrail.Proofs.Writer.Progress
import Mathlib.Data.List.Sort

/-!
# What a run leaves of a partition

A run on which no call fails has done with the messages of each partition up to one place, once nothing waits for its writer, is
buffered or is pending (`Settled`). The rows of these messages have been added to the store, one for each message that yields one and
in the order of the messages, and the cursor is at that place (`exists_left`). The order in which the tasks took their steps,
the sizes of fetches, batches and channels and the times of ticks have no part in it. Only the times at which the rows were taken in
depend on them.
-/

namespace AuditTrail

namespace Message

/-- The row of a message, if it decodes and passes the filter, without the time at which it is taken in. -/
def row? (filter : Filter) (m : Message) : Option StoredChange := (m.toIntake filter ⟨0, 0⟩).1.row?

variable {filter : Filter} {m : Message} {i : Intake}

/-- What a message yields does not depend on the time of day, apart from the time at which it is taken in. -/
theorem row?_of_yields (h : m.Yields filter i) : i.row?.map StoredChange.unstamped = m.row? filter := by
  obtain ⟨clock, rfl⟩ := h
  unfold row? toIntake
  split
  · rfl
  · split <;> rfl

end Message

namespace Pipeline

/-- Settings under which a topic of row changes is read and filtered. The markers come from another topic. -/
structure Takes (filter : Filter) (topic : String) (settings : PipelineSettings) : Prop where
  ofFilter : Filter.ofConfig settings.filter = filter
  ofTopic : settings.rowChangeTopic = topic
  other : settings.markerTopic ≠ topic

theorem Ingests.takes {filter : Filter} {topic : String} {settings : PipelineSettings}
    (h : Ingests filter topic settings) : Takes filter topic settings :=
  ⟨h.ofFilter, h.ofTopic, h.other⟩

/-- Where the reader of a partition starts: at the stored cursor, or else where its settings say. -/
def outset (feed : FeedSettings) (s : Services) (topic : String) (p : Int) : Int :=
  (s.cursors.stored topic p).getD (s.queue.offsetAt topic p feed.start)

namespace Scene

/-- Nothing waits for the writer, nothing is in its buffer, and no cursor is still to be written. -/
def Settled (x : Scene) : Prop :=
  x.pipeline.intake.items = [] ∧ ∀ w ∈ x.pipeline.writer, w.buffer = [] ∧ w.pending = []

instance (x : Scene) : Decidable x.Settled :=
  inferInstanceAs (Decidable (x.pipeline.intake.items = [] ∧ ∀ w ∈ x.pipeline.writer, w.buffer = [] ∧ w.pending = []))

/-- What was accepted of a partition are the items of its messages from one offset on and before another, in their order. -/
structure Sent (topic : String) (x : Scene) (p : Int) (a b : Nat) : Prop where
  le : a ≤ b
  within : a < b → b ≤ x.services.queue.size topic p
  standing : ∀ r ∈ x.pipeline.workers, r.feed.partition = p → r.feed.position.toNat = b
  offsets : (x.accepted.filter (·.partition == p)).map (·.offset) = (List.range' a (b - a)).map Int.ofNat

/-- What a run that is settled has left of a partition: it has added the rows of the messages from one offset on and before another,
and its cursor is at that other offset, if there is anything between the two. -/
structure Left (filter : Filter) (topic : String) (s : Services) (x : Scene) (p : Int) (a b : Nat) : Prop extends
    Sent topic x p a b where
  rows : (x.services.store.rows.filter (·.partition == p)).map (·.unstamped) =
    (s.store.rows.filter (·.partition == p)).map (·.unstamped) ++
      (x.services.queue.stretch topic p a b).filterMap (Message.row? filter)
  cursor : 0 ≤ p → x.services.cursors.stored topic p = if a < b then some (b : Int) else s.cursors.stored topic p

end Scene

namespace SettledAux

open Scene IntakeAux IngestionAux FollowingAux

variable {filter : Filter} {topic : String} {settings : PipelineSettings} {now : Nat} {first s : Services} {x : Scene}
  {p : Int} {a b : Nat}

/-- The offsets from one on and before another. -/
theorem mem_offsets (h : a ≤ b) {n : Int} : n ∈ (List.range' a (b - a)).map Int.ofNat ↔ (a : Int) ≤ n ∧ n < b := by
  simp only [List.mem_map, List.mem_range'_1, Int.ofNat_eq_natCast]
  constructor
  · rintro ⟨k, ⟨hak, hkb⟩, rfl⟩
    omega
  · rintro ⟨hn, hlt⟩
    exact ⟨n.toNat, by omega, by omega⟩

/-- An offset lies between two others exactly if an item with it was accepted. -/
theorem exists_accepted_iff (h : Sent topic x p a b) {n : Int} :
    (∃ i ∈ x.accepted, i.partition = p ∧ i.offset = n) ↔ (a : Int) ≤ n ∧ n < b := by
  rw [← mem_offsets h.le, ← h.offsets]
  simp only [List.mem_map, List.mem_filter, beq_iff_eq, and_assoc]

/-- What is accepted of a partition with a reader are the items from where it started to where it stands. -/
theorem sent_of_worker (h : Streaming filter topic first x) {r : Worker} (hr : r ∈ x.pipeline.workers) :
    Sent topic x r.feed.partition (origin first topic r.feed.partition).toNat r.feed.position.toNat := by
  have hcaught := h.workers r hr
  have hbegun := hcaught.begun
  -- an offset lies between the two places exactly if an item with it was accepted
  have hplace : ∀ n : Int, (∃ i ∈ x.accepted, i.partition = r.feed.partition ∧ i.offset = n) ↔
      ((origin first topic r.feed.partition).toNat : Int) ≤ n ∧ n < (r.feed.position.toNat : Int) := by
    intro n
    constructor
    · rintro ⟨i, hi, hip, rfl⟩
      obtain ⟨k, payload, -, hyield, hk, q, hq, hqp, hlt⟩ := h.accepted i hi
      have hoff : i.offset = k := offset_of_yields hyield
      obtain rfl := eq_of_partition h hr hq (hqp.trans hip)
      rw [hip] at hk
      omega
    · rintro ⟨hle, hlt⟩
      obtain ⟨i, hi, hip, hio⟩ := hcaught.sent n.toNat (by omega) (by omega)
      exact ⟨i, hi, hip, by omega⟩
  refine ⟨by omega, ?_, ?_, ?_⟩
  · intro hlt
    obtain ⟨i, hi, hip, hio⟩ := (hplace (r.feed.position.toNat - 1)).2 (by omega)
    obtain ⟨k, payload, hpay, hyield, -⟩ := h.accepted i hi
    have hoff : i.offset = k := offset_of_yields hyield
    have hsize := Queue.lt_size_of_payload? hpay
    rw [hip] at hsize
    omega
  · intro q hq hqp
    rw [eq_of_partition h hr hq hqp]
  · refine List.Pairwise.eq_of_mem_iff (r := (· < ·)) ?_ ?_ ?_
    · refine List.pairwise_map.2 ((h.ordered.filter _).imp_of_mem ?_)
      intro i j hi hj hij
      have hip : i.partition = r.feed.partition := by simpa using (List.mem_filter.1 hi).2
      have hjp : j.partition = r.feed.partition := by simpa using (List.mem_filter.1 hj).2
      exact hij (hip.trans hjp.symm)
    · exact List.pairwise_map.2 ((List.pairwise_lt_range' 1).imp fun hlt => Int.ofNat_lt.2 hlt)
    · intro n
      rw [mem_offsets (by omega), ← hplace n]
      simp only [List.mem_map, List.mem_filter, beq_iff_eq, and_assoc]

/-- What is accepted of any partition are the items of its messages from where its reader started up to one place. -/
theorem exists_sent (h : Streaming filter topic first x) (p : Int) :
    ∃ b, Sent topic x p (origin first topic p).toNat b := by
  by_cases hw : ∃ r ∈ x.pipeline.workers, r.feed.partition = p
  · obtain ⟨r, hr, rfl⟩ := hw
    exact ⟨_, sent_of_worker h hr⟩
  · have hnone : x.accepted.filter (·.partition == p) = [] := by
      refine List.filter_eq_nil_iff.2 ?_
      intro i hi hip
      obtain ⟨k, payload, -, -, -, r, hr, hrp, -⟩ := h.accepted i hi
      exact hw ⟨r, hr, hrp.trans (by simpa using hip)⟩
    refine ⟨_, Nat.le_refl _, fun hlt => absurd hlt (Nat.lt_irrefl _), ?_, ?_⟩
    · intro r hr hrp
      exact absurd ⟨r, hr, hrp⟩ hw
    · rw [hnone, Nat.sub_self]
      rfl

/-- The rows of the items that were accepted of a partition are those of its messages. -/
theorem rows_of_sent (h : Sent topic x p a b) (hs : Streaming filter topic first x) :
    ((Intake.rowsOf x.accepted).filter (·.partition == p)).map (·.unstamped) =
      (x.services.queue.stretch topic p a b).filterMap (Message.row? filter) := by
  let row (n : Int) : Option StoredChange := (x.services.queue.message? topic p n.toNat).bind (Message.row? filter)
  have hrow : ∀ i ∈ x.accepted.filter (·.partition == p), i.row?.map StoredChange.unstamped = row i.offset := by
    intro i hi
    obtain ⟨hacc, hip⟩ := List.mem_filter.1 hi
    obtain rfl : i.partition = p := by simpa using hip
    obtain ⟨k, payload, hpay, hyield, -⟩ := hs.accepted i hacc
    have hoff : i.offset = k := offset_of_yields hyield
    have hmessage : x.services.queue.message? topic i.partition k = some ⟨topic, i.partition, k, payload⟩ := by
      rw [Queue.message?, hpay, Option.map_some]
    have hk : row i.offset = (⟨topic, i.partition, k, payload⟩ : Message).row? filter := by
      simp only [row, hoff, Int.toNat_natCast, hmessage, Option.bind_some]
    rw [hk, Message.row?_of_yields hyield]
  calc ((Intake.rowsOf x.accepted).filter (·.partition == p)).map (·.unstamped)
      = (x.accepted.filter (·.partition == p)).filterMap fun i => i.row?.map StoredChange.unstamped := by
        rw [Intake.filter_rowsOf, Intake.rowsOf, List.map_filterMap]
    _ = ((x.accepted.filter (·.partition == p)).map (·.offset)).filterMap row := by
        rw [List.filterMap_map]
        exact List.filterMap_congr hrow
    _ = (x.services.queue.stretch topic p a b).filterMap (Message.row? filter) := by
        rw [h.offsets, List.filterMap_map, Queue.stretch, List.filterMap_filterMap]
        rfl

/-! ### What the writer has done -/

/-- As long as no call fails, nobody but the writer makes its inserts or its cursor writes fail. -/
theorem bystanding : Bystanding Services.Unfailing fun s t =>
    (s.store.failInserts = false → t.store.failInserts = false) ∧
      (s.cursors.failPuts = false → t.cursors.failPuts = false) where
  task _ _ _ _ _ ht _ := ⟨fun h => ht.sameFaults.inserts.trans h, fun h => ht.sameFaults.puts.trans h⟩
  outside _ _ _ hok := ⟨fun _ => hok.inserts, fun _ => hok.puts⟩

/-- The readers start where the readers of some services do that all start at a cursor or at the beginning. -/
theorem exists_origin (feed : FeedSettings) (s : Services) (topic : String) :
    ∃ first, ∀ p, origin first topic p = outset feed s topic p := by
  cases hf : feed.start with
  | earliest => exact ⟨s, fun p => by rw [outset, hf]; rfl⟩
  | latest => exact ⟨pinned s topic, fun p => by rw [origin_pinned, outset, hf]; rfl⟩

/-- What the readers have sent on a run. -/
theorem exists_streaming (ht : Takes filter topic settings) {ok : Services → Prop}
    (hr : Run ok (.start settings now s) x) :
    ∃ first, (∀ p, origin first topic p = outset settings.feed s topic p) ∧ Streaming filter topic first x := by
  obtain ⟨first, hfirst⟩ := exists_origin settings.feed s topic
  refine ⟨first, hfirst, ?_⟩
  induction hr with
  | refl => exact streaming_opened ht.ofFilter ht.ofTopic hfirst
  | tail hr hm ih => exact streaming_move ih hm

/-- No item is accepted from before a cursor that was there at first. -/
theorem low_of_outset {feed : FeedSettings} (hfirst : ∀ p, origin first topic p = outset feed s topic p)
    (hstream : Streaming filter topic first x) :
    ∀ i ∈ x.accepted, ∀ n, s.cursors.stored topic i.partition = some n → n ≤ i.offset := by
  refine low_of_passed ?_ hstream.accepted
  intro p n hn
  have horigin : origin first topic p = n := by rw [hfirst, outset, hn, Option.getD_some]
  omega

/-- What is known of the writer at any point of a run without failures: where the rows are that it has accepted, that it has stored
all that it tried to and holds no partition, and that it tracks what it has taken in. -/
theorem exists_tracking (ht : Takes filter topic settings) (hu : s.Unfailing)
    (hr : Run Services.Unfailing (.start settings now s) x) :
    ∃ w fs, x.pipeline.writer = some w ∧ w.topic = topic ∧ w.held = [] ∧ (∀ f ∈ fs, f.stored = true) ∧
      Writer.Booked settings.writer (x.view w) fs ∧ Writer.Tracking (x.view w) := by
  obtain ⟨first, hfirst, hstream⟩ := exists_streaming ht hr
  obtain rfl := ht.ofTopic
  obtain ⟨w, fs, hw, hx⟩ := writing_noted bystanding (fun e => ht.other e.symm) hr
  obtain ⟨-, hheld, hall⟩ := Writer.stored_noted (fun _ _ h => h.1) hu.inserts hx
  have hown : ∀ i ∈ x.accepted, 0 ≤ i.partition := by
    intro i hi
    obtain ⟨k, payload, -, -, -, r, hr, hrp, -⟩ := hstream.accepted i hi
    exact hrp ▸ (hstream.workers r hr).numbered
  exact ⟨w, fs, hw, hx.run.topic, hheld, hall, Writer.booked_noted (Writer.booked_start settings.writer _ now _ s) hx,
    Writer.tracking_noted (fun _ _ h => h.2) hu.puts hx hstream.ordered hown (low_of_outset hfirst hstream)⟩

/-- Once a run without failures is settled, the rows of all items that were accepted have been added to the store. -/
theorem rows_of_settled (ht : Takes filter topic settings) (hu : s.Unfailing)
    (hr : Run Services.Unfailing (.start settings now s) x) (hset : x.Settled) :
    x.services.store.rows = s.store.rows ++ Intake.rowsOf x.accepted := by
  obtain ⟨w, fs, hw, -, -, hall, hbooked, -⟩ := exists_tracking ht hu hr
  obtain ⟨hitems, hwriter⟩ := hset
  have hrows := hbooked.rows_of_stored hall
  have hbuffer : (x.view w).writer.buffer = [] := (hwriter w hw).1
  have hnone : (x.view w).channel.items = [] := hitems
  rw [hbuffer, hnone, Intake.rowsOf_nil, List.append_nil, List.append_nil] at hrows
  rw [rows_run hr]
  exact congrArg _ hrows

/-- Once a run without failures is settled, the cursor of a partition is past all items that were accepted of it. -/
theorem passed_of_settled (ht : Takes filter topic settings) (hu : s.Unfailing)
    (hr : Run Services.Unfailing (.start settings now s) x) (hset : x.Settled) {i : Intake} (hi : i ∈ x.accepted) :
    ∃ n, x.services.cursors.stored topic i.partition = some n ∧ i.offset < n := by
  obtain ⟨w, fs, hw, htopic, hheld, -, -, htracking⟩ := exists_tracking ht hu hr
  obtain ⟨hitems, hwriter⟩ := hset
  have hpending : w.pending = [] := (hwriter w hw).2
  rcases htracking.tracked i hi with hwait | hh | ⟨e, he, -⟩ | hcur
  · exact absurd (show i ∈ x.pipeline.intake.items from hwait) (by simp [hitems])
  · exact absurd (show i.partition ∈ w.held from hh) (by simp [hheld])
  · exact absurd (show e ∈ w.pending from he) (by simp [hpending])
  · exact htopic ▸ hcur

/-- A run without failures whose writer has stopped is settled. -/
theorem settled_of_stopped (ht : Takes filter topic settings) (hu : s.Unfailing)
    (hr : Run Services.Unfailing (.start settings now s) x) (hstop : x.pipeline.writing = false) : x.Settled := by
  obtain ⟨w, fs, hw, -, -, -, hbooked, htracking⟩ := exists_tracking ht hu hr
  have hphase : w.phase = .stopped := by simpa [writing, hw, Writer.isStopped] using hstop
  refine ⟨(hbooked.closing (Or.inr (Or.inr hphase))).2, ?_⟩
  intro w' hw'
  obtain rfl := Option.some.inj (hw.symm.trans hw')
  exact ⟨hbooked.stopped hphase, htracking.stopped hphase⟩

/-- Once a run without failures is settled, the cursor of a partition is just past what was accepted of it. -/
theorem cursor_of_settled (ht : Takes filter topic settings) (hu : s.Unfailing)
    (hr : Run Services.Unfailing (.start settings now s) x) (hset : x.Settled) (hp : 0 ≤ p) (h : Sent topic x p a b) :
    x.services.cursors.stored topic p = if a < b then some (b : Int) else s.cursors.stored topic p := by
  obtain ⟨first, hfirst, hstream⟩ := exists_streaming ht hr
  obtain ⟨w, taken, hw, hsafe, -⟩ := safe_of_streaming ht.ofTopic ht.other hstream hr
  have hwritten : ∀ n, (p, n) ∈ x.written → (a : Int) < n ∧ n ≤ b := by
    intro n hn
    obtain ⟨i, hi, hip, hio⟩ := hsafe.exists_of_written hn
    have := (exists_accepted_iff h).1 ⟨i, hi, hip, rfl⟩
    simp only at hio
    omega
  split
  · rename_i hlt
    obtain ⟨i, hi, hip, hio⟩ := (exists_accepted_iff (n := b - 1) h).2 (by omega)
    obtain ⟨n, hn, hpast⟩ := passed_of_settled ht hu hr hset hi
    rw [hip] at hn
    have hle : n ≤ b := by
      rcases hsafe.cursors p n hp hn with hold | hnew
      · have hlow := low_of_outset hfirst hstream i hi n (hip ▸ hold)
        omega
      · exact (hwritten n hnew).2
    have hnb : n = b := by omega
    rw [hn, hnb]
  · rename_i hnot
    cases hn : x.services.cursors.stored topic p with
    | none =>
      obtain rfl := ht.ofTopic
      obtain ⟨w', hw', hrun⟩ := writing_run (fun e => ht.other e.symm) hr
      by_contra hsome
      exact hrun.keepsCursor hp (fun hnone => hsome hnone.symm) hn
    | some n =>
      rcases hsafe.cursors p n hp hn with hold | hnew
      · exact hold.symm
      · have := hwritten n hnew
        omega

end SettledAux

open Scene SettledAux

/-- Once a run without failures is settled, it has left of each partition what its messages from where the reader started up to one
place make of it. -/
theorem exists_left {filter : Filter} {topic : String} {settings : PipelineSettings} {now : Nat} {s : Services} {x : Scene}
    (ht : Takes filter topic settings) (hu : s.Unfailing) (hr : Run Services.Unfailing (.start settings now s) x)
    (hset : x.Settled) (p : Int) : ∃ b, Left filter topic s x p (outset settings.feed s topic p).toNat b := by
  obtain ⟨first, hfirst, hstream⟩ := exists_streaming ht hr
  obtain ⟨b, hsent⟩ := exists_sent hstream p
  rw [hfirst] at hsent
  refine ⟨b, { hsent with rows := ?_, cursor := fun hp => cursor_of_settled ht hu hr hset hp hsent }⟩
  rw [rows_of_settled ht hu hr hset, List.filter_append, List.map_append, rows_of_sent hsent hstream]

end Pipeline

end AuditTrail
