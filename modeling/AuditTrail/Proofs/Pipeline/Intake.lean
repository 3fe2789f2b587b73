import AuditTrail.Proofs.Pipeline.Run
import AuditTrail.Proofs.Writer.CursorSafety
import Mathlib.Data.List.Nodup

/-!
# What the readers of row changes hand to the writer

The readers of row changes have a partition each. What the writer has accepted of a partition are the items of its messages one
after the other, from where its reader started to where it stands now. `Streaming` says so, and every move keeps it.
-/

namespace AuditTrail

namespace Message

/-- An item belongs to the message it is made of. -/
theorem partition_toIntake (filter : Filter) (clock : Instant) (m : Message) :
    (m.toIntake filter clock).1.partition = m.partition := by
  unfold toIntake
  split
  · rfl
  · split <;> rfl

theorem offset_toIntake (filter : Filter) (clock : Instant) (m : Message) :
    (m.toIntake filter clock).1.offset = m.offset := by
  unfold toIntake
  split
  · rfl
  · split <;> rfl

/-- An item was made of a message, at some time of day. -/
def Yields (filter : Filter) (m : Message) (item : Intake) : Prop := ∃ clock, item = (m.toIntake filter clock).1

end Message

namespace Pipeline

namespace Scene

/-- Where the reader of a partition starts: at the stored cursor, or else at the beginning. -/
def origin (first : Services) (topic : String) (p : Int) : Int := (first.cursors.stored topic p).getD 0

/-- A reader of row changes has sent the items of all messages from where it started to where it stands. -/
structure Caught (filter : Filter) (topic : String) (first : Services) (x : Scene) (r : Worker) : Prop where
  ofTopic : r.feed.topic = topic
  numbered : 0 ≤ r.feed.partition
  sound : r.Sound x.services.queue (Message.Yields filter)
  begun : origin first topic r.feed.partition ≤ r.feed.position
  sent : ∀ k : Nat, origin first topic r.feed.partition ≤ k → (k : Int) < r.feed.position →
    ∃ i ∈ x.accepted, i.partition = r.feed.partition ∧ i.offset = k

/-- An item is that of a message of its partition, and its reader stands beyond it. -/
def Passed (filter : Filter) (topic : String) (first : Services) (x : Scene) (i : Intake) : Prop :=
  ∃ (k : Nat) (payload : Octets), x.services.queue.payload? topic i.partition k = some payload ∧
    Message.Yields filter ⟨topic, i.partition, k, payload⟩ i ∧ origin first topic i.partition ≤ k ∧
    ∃ r ∈ x.pipeline.workers, r.feed.partition = i.partition ∧ (k : Int) < r.feed.position

/-- The readers of row changes have sent the messages of their partitions in order and without a gap, each its own partition. -/
structure Streaming (filter : Filter) (topic : String) (first : Services) (x : Scene) : Prop where
  ofFilter : x.pipeline.filter = filter
  distinct : (x.pipeline.workers.map (·.feed.partition)).Nodup
  workers : ∀ r ∈ x.pipeline.workers, Caught filter topic first x r
  accepted : ∀ i ∈ x.accepted, Passed filter topic first x i
  ordered : Writer.Ordered x.accepted

end Scene

namespace IntakeAux

open Scene

variable {ok : Services → Prop} {filter : Filter} {topic : String} {first : Services} {x y : Scene}

/-- The item of a message has the place of the message. -/
theorem offset_of_yields {m : Message} {i : Intake} (h : m.Yields filter i) : i.offset = m.offset := by
  obtain ⟨clock, rfl⟩ := h
  exact Message.offset_toIntake filter clock m

theorem partition_of_yields {m : Message} {i : Intake} (h : m.Yields filter i) : i.partition = m.partition := by
  obtain ⟨clock, rfl⟩ := h
  exact Message.partition_toIntake filter clock m

/-- What is known of a reader stays known when the queue grows and more is accepted. -/
theorem caught_mono {r r' : Worker} (h : Caught filter topic first x r) (hf : r'.feed = r.feed) (hp : r'.phase = r.phase)
    (hq : x.services.queue.Grows y.services.queue) (ha : x.accepted <+: y.accepted) : Caught filter topic first y r' := by
  have hs : r'.Sound y.services.queue (Message.Yields filter) := (h.sound.grow hq).of_eq hf hp
  refine ⟨hf ▸ h.ofTopic, hf ▸ h.numbered, hs, hf ▸ h.begun, ?_⟩
  intro k hk hlt
  rw [hf] at *
  obtain ⟨i, hi, hip⟩ := h.sent k hk hlt
  exact ⟨i, ha.subset hi, hip⟩

/-- What is known of an item stays known when the queue grows and no reader goes back. -/
theorem passed_mono {i : Intake} (h : Passed filter topic first x i) (hq : x.services.queue.Grows y.services.queue)
    (hr : ∀ r ∈ x.pipeline.workers, ∃ r' ∈ y.pipeline.workers, r'.feed.partition = r.feed.partition ∧
      r.feed.position ≤ r'.feed.position) : Passed filter topic first y i := by
  obtain ⟨k, payload, hp, hy, hk, r, hmem, hrp, hlt⟩ := h
  obtain ⟨r', hmem', hrp', hle⟩ := hr r hmem
  exact ⟨k, payload, hq.payload? hp, hy, hk, r', hmem', hrp'.trans hrp, by omega⟩

/-- A move in which nothing is accepted and no reader of row changes goes on keeps what they have sent. -/
theorem streaming_frame (h : Streaming filter topic first x) (hf : y.pipeline.filter = x.pipeline.filter)
    (hw : ∃ told : Worker → Worker, y.pipeline.workers = x.pipeline.workers.map told ∧
      ∀ r, (told r).feed = r.feed ∧ (told r).phase = r.phase)
    (ha : y.accepted = x.accepted) (hq : x.services.queue.Grows y.services.queue) :
    Streaming filter topic first y := by
  obtain ⟨told, hw, htold⟩ := hw
  refine ⟨hf.trans h.ofFilter, ?_, ?_, ?_, ha ▸ h.ordered⟩
  · rw [hw, Reader.partitions_told fun r => (htold r).1]
    exact h.distinct
  · intro r hr
    rw [hw] at hr
    obtain ⟨r₀, hr₀, rfl⟩ := List.mem_map.1 hr
    exact caught_mono (h.workers r₀ hr₀) (htold r₀).1 (htold r₀).2 hq (ha ▸ List.prefix_refl _)
  · intro i hi
    refine passed_mono (h.accepted i (ha ▸ hi)) hq fun r hr => ⟨told r, ?_, ?_, ?_⟩
    · rw [hw]
      exact List.mem_map_of_mem hr
    · rw [(htold r).1]
    · exact Int.le_of_eq (by rw [(htold r).1])

/-- Readers of the same partition are the same. -/
theorem eq_of_partition (h : Streaming filter topic first x) {r q : Worker} (hr : r ∈ x.pipeline.workers)
    (hq : q ∈ x.pipeline.workers) (hp : q.feed.partition = r.feed.partition) : q = r :=
  List.inj_on_of_nodup_map h.distinct hq hr hp

/-- A move in which one reader goes on, and nothing is accepted but what it sends, keeps what they have sent. -/
theorem streaming_set {n : Nat} {r r' : Worker} {new : List Intake} (h : Streaming filter topic first x)
    (hr : x.pipeline.workers[n]? = some r) (hf : y.pipeline.filter = x.pipeline.filter)
    (hw : y.pipeline.workers = x.pipeline.workers.set n r') (hq : x.services.queue.Grows y.services.queue)
    (ha : y.accepted = x.accepted ++ new) (hc : Caught filter topic first y r')
    (hpart : r'.feed.partition = r.feed.partition) (hle : r.feed.position ≤ r'.feed.position)
    (hnew : ∀ i ∈ new, Passed filter topic first y i) (hord : Writer.Ordered y.accepted) :
    Streaming filter topic first y := by
  have hmem' : r' ∈ y.pipeline.workers := by
    rw [hw]
    exact List.mem_set (List.getElem?_eq_some_iff.1 hr).1 r'
  refine ⟨hf.trans h.ofFilter, ?_, ?_, ?_, hord⟩
  · rw [hw, Reader.partitions_set hr hpart]
    exact h.distinct
  · intro q hq'
    rcases List.mem_or_eq_of_mem_set (hw ▸ hq') with hq' | rfl
    · exact caught_mono (h.workers q hq') rfl rfl hq (ha ▸ List.prefix_append _ _)
    · exact hc
  · intro i hi
    rcases List.mem_append.1 (ha ▸ hi) with hi | hi
    · refine passed_mono (h.accepted i hi) hq ?_
      intro q hq'
      rcases Reader.mem_set_or_eq hr hq' with rfl | hset
      · exact ⟨r', hmem', hpart, hle⟩
      · exact ⟨q, hw ▸ hset, rfl, Int.le_refl _⟩
    · exact hnew i hi

/-- An item at the place of its reader comes after all that was accepted of the partition. -/
theorem ordered_append {r : Worker} {item : Intake} (h : Streaming filter topic first x) (hr : r ∈ x.pipeline.workers)
    (hpart : item.partition = r.feed.partition) (hoff : r.feed.position ≤ item.offset) :
    Writer.Ordered (x.accepted ++ [item]) := by
  refine List.pairwise_append.2 ⟨h.ordered, List.pairwise_singleton _ _, ?_⟩
  intro i hi j hj hij
  obtain rfl := List.mem_singleton.1 hj
  obtain ⟨k, payload, -, hyield, -, q, hq, hqp, hlt⟩ := h.accepted i hi
  obtain rfl := eq_of_partition h hr hq (hqp.trans (hij.trans hpart))
  have hk : i.offset = k := offset_of_yields hyield
  omega

/-- A step of a reader of row changes keeps what they have sent. -/
theorem streaming_worker {n : Nat} {r r' : Worker} {c : Channel Intake} {t : Services}
    (h : Streaming filter topic first x) (hr : x.pipeline.workers[n]? = some r)
    (ht : Reader.Turn (fun s => Message.toIntake x.pipeline.filter s.clock) r x.pipeline.intake x.services r' c t) :
    Streaming filter topic first
      (x.advance (.worker n) { x.pipeline with workers := x.pipeline.workers.set n r', intake := c } t) := by
  have hmem : r ∈ x.pipeline.workers := List.mem_of_getElem? hr
  have hcaught := h.workers r hmem
  have hqueue : t.queue = x.services.queue := ht.counted.queue
  have hsound : r'.Sound t.queue (Message.Yields filter) :=
    hqueue ▸ ht.sound hcaught.sound fun s m => ⟨s.clock, by rw [h.ofFilter]⟩
  have hgrow : x.services.queue.Grows t.queue := Queue.grows_of_eq hqueue
  rcases ht.moves hcaught.sound with ⟨hnone, hplace⟩ | ⟨item, payload, hsome, hpay, hyield, htop, hpart, hpos⟩
  · have hacc : x.accepted ++ x.pipeline.intake.entered c = x.accepted := by rw [hnone, List.append_nil]
    refine streaming_set h hr rfl rfl hgrow rfl ?_ hplace.partition (Int.le_of_eq hplace.position.symm) ?_ ?_
    · refine ⟨hplace.topic.trans hcaught.ofTopic, hplace.partition ▸ hcaught.numbered, hsound, ?_, ?_⟩
      · rw [hplace.partition, hplace.position]
        exact hcaught.begun
      · intro k hk hlt
        rw [hplace.partition] at hk ⊢
        rw [hplace.position] at hlt
        simp only [advance, hacc]
        exact hcaught.sent k hk hlt
    · simp [hnone]
    · simp only [advance, hacc]
      exact h.ordered
  · have hoff : item.offset = (r.feed.position.toNat : Int) := offset_of_yields hyield
    have hitem : item.partition = r.feed.partition := partition_of_yields hyield
    have hbegun := hcaught.begun
    refine streaming_set h hr rfl rfl hgrow rfl ?_ hpart (by omega) ?_ ?_
    · refine ⟨htop.trans hcaught.ofTopic, hpart ▸ hcaught.numbered, hsound, ?_, ?_⟩
      · rw [hpart]
        omega
      · intro k hk hlt
        rw [hpart] at hk ⊢
        simp only [advance, hsome]
        by_cases hk' : (k : Int) < r.feed.position
        · obtain ⟨i, hi, hip⟩ := hcaught.sent k hk hk'
          exact ⟨i, List.mem_append_left _ hi, hip⟩
        · exact ⟨item, by simp, hitem, by omega⟩
    · intro i hi
      obtain rfl : i = item := by simpa [hsome] using hi
      refine ⟨r.feed.position.toNat, payload, ?_, ?_, ?_, r', ?_, hpart.trans hitem.symm, by omega⟩
      · rw [hitem, ← hcaught.ofTopic]
        exact hgrow.payload? hpay
      · rw [hitem, ← hcaught.ofTopic]
        exact hyield
      · rw [hitem]
        omega
      · exact List.mem_set (List.getElem?_eq_some_iff.1 hr).1 r'
    · simp only [advance, hsome]
      exact ordered_append h hmem hitem (by omega)

/-- A step of another task keeps what the readers of row changes have sent. -/
theorem streaming_task {role : Role} {p : Pipeline} {t : Services} (h : Streaming filter topic first x)
    (hq : t.queue = x.services.queue) (hf : p.filter = x.pipeline.filter)
    (hw : p.workers = x.pipeline.workers) (ha : x.pipeline.intake.entered p.intake = []) :
    Streaming filter topic first (x.advance role p t) := by
  refine streaming_frame h hf ⟨id, hw.trans (List.map_id _).symm, fun r => ⟨rfl, rfl⟩⟩ ?_ (Queue.grows_of_eq hq)
  simp [advance, ha]

/-- Every move keeps what the readers of row changes have sent. -/
theorem streaming_move (h : Streaming filter topic first x) (hm : Move ok x y) : Streaming filter topic first y := by
  cases hm with
  | task hstep =>
    have hturn := turn_of_step hstep
    have hq := hturn.queue
    cases hturn with
    | worker hr ht => exact streaming_worker h hr ht
    | writer hw ht => exact streaming_task h hq rfl rfl (Writer.turn_of_step ht).entered
    | _ => exact streaming_task h hq rfl rfl (Channel.entered_self _)
  | signal => exact streaming_frame h rfl ⟨_, rfl, fun r => ⟨rfl, rfl⟩⟩ rfl .rfl
  | outside ho hok => exact streaming_frame h rfl ⟨id, (List.map_id _).symm, fun r => ⟨rfl, rfl⟩⟩ rfl ho.queue

end IntakeAux

open IntakeAux

/-- Settings under which a topic of row changes is ingested with a filter from its beginning on. The markers come from another
topic, as a configuration has to say. -/
structure Ingests (filter : Filter) (topic : String) (settings : PipelineSettings) : Prop where
  ofFilter : Filter.ofConfig settings.filter = filter
  ofTopic : settings.rowChangeTopic = topic
  other : settings.markerTopic ≠ topic
  earliest : settings.feed.start = .earliest

variable {ok : Services → Prop} {filter : Filter} {topic : String} {settings : PipelineSettings} {now : Nat} {s : Services}
  {x : Scene}

/-- The readers of a pipeline that starts have sent nothing and stand where they were opened. -/
theorem streaming_opened {first : Services} (hf : Filter.ofConfig settings.filter = filter)
    (ht : settings.rowChangeTopic = topic)
    (ho : ∀ p, Scene.origin first topic p =
      (s.cursors.stored topic p).getD (s.queue.offsetAt topic p settings.feed.start)) :
    Scene.Streaming filter topic first (.start settings now s) := by
  have h := started_assemble settings now s
  rcases h.workers with hw | ⟨ws, told, hopen, hw, htold⟩
  · refine ⟨h.filter.trans hf, ?_, ?_, fun i hi => absurd hi List.not_mem_nil, List.Pairwise.nil⟩
    · simp [Scene.start, hw]
    · intro r hr
      exact absurd (hw ▸ hr) List.not_mem_nil
  · obtain ⟨hps, hall⟩ := Reader.openAll_eq_ok hopen
    refine ⟨h.filter.trans hf, ?_, ?_, fun i hi => absurd hi List.not_mem_nil, List.Pairwise.nil⟩
    · rw [show (Scene.start settings now s).pipeline.workers = ws.map told from hw,
        Reader.partitions_told fun r => (htold r).1]
      exact Queue.nodup_partitions hps
    · intro r hr
      obtain ⟨r₀, hr₀, rfl⟩ := List.mem_map.1 (show r ∈ ws.map told from hw ▸ hr)
      obtain ⟨hphase, htopic, hpos⟩ := hall r₀ hr₀
      have hstart : r₀.feed.position = Scene.origin first topic r₀.feed.partition := by
        rw [hpos, ho, ht]
      obtain ⟨l, hl⟩ := (Queue.mem_partitions hps).1 (List.mem_map_of_mem hr₀)
      refine ⟨?_, ?_, ?_, ?_, ?_⟩
      · rw [(htold r₀).1, htopic, ht]
      · rw [(htold r₀).1]
        exact Queue.nonneg_of_log? hl
      · exact Reader.sound_of_polling ((htold r₀).2.trans hphase)
      · simp only [(htold r₀).1, hstart, Int.le_refl]
      · intro k hk hlt
        rw [(htold r₀).1] at hk hlt
        omega

/-- The readers of a pipeline that reads from the beginning have sent nothing and stand where they start. -/
theorem streaming_start (hs : Ingests filter topic settings) :
    Scene.Streaming filter topic s (.start settings now s) := by
  refine streaming_opened hs.ofFilter hs.ofTopic ?_
  intro p
  rw [hs.earliest]
  rfl

/-- On every run, what the writer has accepted of a partition are the items of its messages one after the other, from where its
reader started to where it stands. -/
theorem streaming_run (hs : Ingests filter topic settings) (hr : Scene.Run ok (.start settings now s) x) :
    Scene.Streaming filter topic s x := by
  induction hr with
  | refl => exact streaming_start hs
  | tail hr hm ih => exact streaming_move ih hm

end Pipeline

end AuditTrail
