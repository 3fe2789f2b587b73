import AuditTrail.Config.Derived
import AuditTrail.Config.Limits
import AuditTrail.Proofs.Backoff
import AuditTrail.Proofs.Pipeline.Run

/-!
# What the limits of a configuration are good for

A pipeline relies on numbers that it is told, and on a machine with words of 64 bits: a channel has no more room than the machine can
count, and a clock shows no time beyond its last second. What asks for more panics, be it the start of the pipeline or its sweeper. An
accepted configuration keeps every number within what the parts rely on (`PipelineSettings.Sound`). It does not keep every demand
within the machine, as the capacities of channels and the time between sweeps have a least value, but no greatest one: what is to be
said of those is `Config.WithinMachine`, which is just what a start needs in order not to panic (`Pipeline.Start.Unharmed`).
-/

namespace AuditTrail

/-- The most milliseconds of a duration, whose seconds are a word. -/
def Machine.longestDuration : Nat := 2 ^ 64 * 1000 - 1

/-- Neither the start of a pipeline nor one of its tasks has panicked: a pipeline at work has all of them. -/
def Pipeline.Start.Unharmed : Pipeline.Start → Prop
  | .running p => p.writer.isSome = true ∧ p.correlator.isSome = true ∧ p.sweeper.isSome = true
  | .failed _ _ => True
  | .panicked => False

/-- The longest time, in seconds, that an accepted configuration lets a sweep look back: a year. -/
def Config.longestLookback : Nat := 8760 * 3600

/-- The numbers that a pipeline is told are such as its parts rely on. -/
structure PipelineSettings.Sound (settings : PipelineSettings) : Prop where
  delivery : 1 ≤ settings.deliveryCapacity
  intake : 1 ≤ settings.writer.capacity
  markers : 1 ≤ settings.correlator.capacity
  batchSize : 1 ≤ settings.writer.batchSize
  maxMessages : 1 ≤ settings.feed.maxMessages
  retryOrder : settings.feed.retryInitial ≤ settings.feed.retryMax
  /-- The wait after a failed fetch can always be doubled. -/
  backoff : ∀ before f, Feed.Lives settings.feed before f → f.backoff * 2 ≤ Machine.longestDuration
  /-- The time to look back is a number of seconds that a word can count. -/
  lookback : settings.sweeper.lookback < 2 ^ 64
  /-- A sweep finds the instant since when it looks, unless there is not yet a year in the calendar. -/
  sweeps : ∀ s : Services, Instant.leastSecond + Config.longestLookback ≤ s.clock.seconds →
    ∃ since abandoned, (Sweep.begin { settings := settings.sweeper } s).1.phase = .listing since abandoned ∧
      Instant.leastSecond ≤ since.seconds

namespace Config

/-- What a configuration asks of the machine when a pipeline starts at some time is not too much. -/
structure WithinMachine (c : Config) (now : Nat) : Prop where
  delivery : c.delivery.channelCapacity.toNat ≤ Machine.greatestCapacity
  batch : c.batch.channelCapacity.toNat ≤ Machine.greatestCapacity
  correlator : c.correlator.channelCapacity.toNat ≤ Machine.greatestCapacity
  sweeper : now + c.sweeper.intervalSecs.toNat * 1000 ≤ Machine.lastMillisecond

section

variable {c : Config}

/-- An accepted configuration keeps every limit. -/
theorem holds_of_check (h : c.check = .ok ()) {b : Bound} (hb : b ∈ c.bounds) : b.holds = true := by
  have hnone : c.violations = [] := by
    rw [check] at h
    split at h
    · cases h
    · rename_i hempty
      simpa using hempty
  rw [violations, List.map_eq_nil_iff, List.filter_eq_nil_iff] at hnone
  simpa using hnone b hb

/-- In an accepted configuration no retry delay is longer than the last one. -/
theorem retryOrder_of_check (h : c.check = .ok ()) : c.queue.retryInitialMs.toNat ≤ c.queue.retryMaxMs.toNat := by
  rw [check] at h
  split at h
  · cases h
  · split at h
    · cases h
    · split at h
      · cases h
      · rename_i hlt
        exact Nat.le_of_not_lt (mt UInt64.lt_iff_toNat_lt.2 hlt)

/-- The limits of an accepted configuration that a pipeline relies on. -/
structure Limited (c : Config) : Prop where
  delivery : 1 ≤ c.delivery.channelCapacity.toNat
  batch : 1 ≤ c.batch.channelCapacity.toNat
  correlator : 1 ≤ c.correlator.channelCapacity.toNat
  batchSize : 1 ≤ c.batch.size.toNat
  intervalMs : 1 ≤ c.batch.intervalMs.toNat
  maxMessages : 1 ≤ c.queue.maxMessages.toNat
  intervalSecs : 1 ≤ c.sweeper.intervalSecs.toNat
  lookbackHours : c.sweeper.lookbackHours.toNat ≤ 8760

theorem limited_of_check (h : c.check = .ok ()) : c.Limited := by
  have hall : ∀ b ∈ c.bounds, b.holds = true := fun _ => holds_of_check h
  simp only [bounds, List.forall_mem_cons, Bound.atLeast, Bound.between, Bool.and_eq_true, decide_eq_true_eq] at hall
  constructor <;> omega

theorem lookback_le (h : c.Limited) : c.pipelineSettings.sweeper.lookback ≤ longestLookback :=
  Nat.mul_le_mul_right 3600 h.lookbackHours

/-- However often a fetch has failed, the wait is no longer than a word of milliseconds. -/
theorem backoff_lt (h : c.check = .ok ()) {before : List Feed.Answer} {f : Feed} (hf : Feed.Lives c.feedSettings before f) :
    f.backoff < 2 ^ 64 := by
  rw [(hf.paced (retryOrder_of_check h)).backoff]
  exact Nat.lt_of_le_of_lt (Nat.min_le_right _ _) c.queue.retryMaxMs.toNat_lt

/-- A sweep of an accepted configuration begins. -/
theorem sweep_begins (h : c.Limited) (s : Services) (hclock : Instant.leastSecond + longestLookback ≤ s.clock.seconds) :
    ∃ since abandoned, (Sweep.begin { settings := c.pipelineSettings.sweeper } s).1.phase = .listing since abandoned ∧
      Instant.leastSecond ≤ since.seconds := by
  have hle := lookback_le h
  have hfits : ¬ Sweep.greatestLookback < c.pipelineSettings.sweeper.lookback :=
    Nat.not_lt.2 (Nat.le_trans hle (by decide))
  have hbegin : (Sweep.begin { settings := c.pipelineSettings.sweeper } s).1.phase =
      let since := s.clock.addSeconds (-(c.pipelineSettings.sweeper.lookback : Int))
      .listing since (Sweep.countAbandoned since s).1 := by
    rw [Sweep.begin, if_neg hfits]
  refine ⟨_, _, hbegin, ?_⟩
  simp only [Instant.addSeconds]
  omega

theorem sound_of_check (h : c.check = .ok ()) : c.pipelineSettings.Sound := by
  have hlimited := limited_of_check h
  exact {
    delivery := hlimited.delivery
    intake := hlimited.batch
    markers := hlimited.correlator
    batchSize := hlimited.batchSize
    maxMessages := hlimited.maxMessages
    retryOrder := retryOrder_of_check h
    backoff := fun before f hf => by
      have := backoff_lt h hf
      rw [Machine.longestDuration]
      omega
    lookback := Nat.lt_of_le_of_lt (lookback_le hlimited) (by decide)
    sweeps := sweep_begins hlimited }

end

end Config

/-! ## Pipelines that start -/

namespace Pipeline

variable {settings : PipelineSettings} {now : Nat} {s : Services} {p : Pipeline}

/-- A channel with room for one item at least can be made if a machine can count the room. -/
theorem isPossible_eq_false_iff {n : Nat} (h : 1 ≤ n) : Channel.isPossible n = false ↔ Machine.greatestCapacity < n := by
  unfold Channel.isPossible
  rw [decide_eq_false_iff_not, Nat.max_eq_left h, Nat.not_le]

/-- A start panics if the channel of the records or that of the writer cannot be made, or if the topic of the row changes can be
opened and the channel of the markers cannot be made. -/
theorem panics_iff : panics settings s = true ↔
    Channel.isPossible settings.deliveryCapacity = false ∨ Channel.isPossible settings.writer.capacity = false ∨
      (Channel.isPossible settings.correlator.capacity = false ∧
        ∃ ws : List Worker, Reader.openAll settings.feed s settings.rowChangeTopic = .ok ws) := by
  have hok (o : Except Error (List Worker)) : o.isOk = true ↔ ∃ ws, o = .ok ws := by
    cases o <;> simp [Except.isOk, Except.toBool]
  unfold panics
  simp only [Bool.or_eq_true, Bool.and_eq_true, Bool.not_eq_true', hok, or_assoc]

/-- Nothing else makes a start panic. -/
theorem start_eq_panicked_iff : start settings now s = .panicked ↔ panics settings s = true := by
  unfold start
  split
  · rename_i h
    exact ⟨fun _ => h, fun _ => rfl⟩
  · rename_i h
    refine ⟨?_, fun h' => absurd h' h⟩
    intro hstart
    rcases hassemble : assemble settings now s with ⟨p, _ | e⟩ <;> rw [hassemble] at hstart <;> cases hstart

/-- A pipeline is at work if the start does not panic and opens all topics. -/
theorem assemble_of_running (h : start settings now s = .running p) : assemble settings now s = (p, none) := by
  unfold start at h
  split at h
  · cases h
  · rcases hassemble : assemble settings now s with ⟨q, _ | e⟩ <;> rw [hassemble] at h <;> cases h
    rfl

/-- A pipeline whose topics have been opened has all its tasks, but for a sweeper that has panicked. -/
theorem tasks_of_assemble (h : assemble settings now s = (p, none)) :
    (∃ ws : List Worker, Reader.openAll settings.feed s settings.rowChangeTopic = .ok ws) ∧ p.writer.isSome = true ∧
      p.correlator.isSome = true ∧ p.sweeper = Sweeper.launch? settings.sweeper now := by
  unfold assemble at h
  split at h
  · cases h
  · rename_i ws hws
    split at h
    · cases h
    · cases h
      exact ⟨⟨ws, hws⟩, rfl, rfl, rfl⟩

end Pipeline

namespace Config

variable {c : Config} {now : Nat} {s : Services}

/-- The first flush by the clock comes after the interval that is configured, which is a word of milliseconds. -/
theorem writer_due_le (h : c.Limited) (hnow : now + 2 ^ 64 ≤ Machine.lastMillisecond) {p : Pipeline}
    (hp : (Pipeline.start c.pipelineSettings now s).pipeline? = some p) {w : Writer} (hw : p.writer = some w) :
    w.ticker.due ≤ Machine.lastMillisecond := by
  have hpanics : Pipeline.panics c.pipelineSettings s = false := by
    rw [← Bool.not_eq_true]
    intro hpanics
    rw [Pipeline.start_eq_panicked_iff.2 hpanics] at hp
    cases hp
  obtain rfl := Option.some.inj ((Pipeline.pipeline?_start hpanics now).symm.trans hp)
  obtain rfl := Option.some.inj ((Pipeline.started_assemble c.pipelineSettings now s).writer.symm.trans hw)
  have hdue : (Writer.start c.pipelineSettings.writer c.pipelineSettings.rowChangeTopic now).ticker.due =
      now + c.batch.intervalMs.toNat := congrArg (now + ·) (Nat.max_eq_left h.intervalMs)
  have hlt := c.batch.intervalMs.toNat_lt
  omega

/-- The first sweep comes after the interval that is configured. -/
theorem sweeper_due (h : c.Limited) (now : Nat) :
    (Sweeper.start c.pipelineSettings.sweeper now).ticker.due = now + c.sweeper.intervalSecs.toNat * 1000 :=
  congrArg (now + ·) (Nat.max_eq_left (Nat.mul_pos h.intervalSecs (by decide)))

/-- What of an accepted configuration makes a start panic. -/
theorem panicked_iff (h : c.Limited) : Pipeline.start c.pipelineSettings now s = .panicked ↔
    Machine.greatestCapacity < c.delivery.channelCapacity.toNat ∨ Machine.greatestCapacity < c.batch.channelCapacity.toNat ∨
      (Machine.greatestCapacity < c.correlator.channelCapacity.toNat ∧
        ∃ ws : List Worker, Reader.openAll c.pipelineSettings.feed s c.pipelineSettings.rowChangeTopic = .ok ws) := by
  have hdelivery := Pipeline.isPossible_eq_false_iff h.delivery
  have hbatch := Pipeline.isPossible_eq_false_iff h.batch
  have hcorrelator := Pipeline.isPossible_eq_false_iff h.correlator
  rw [← hdelivery, ← hbatch, ← hcorrelator]
  exact Pipeline.start_eq_panicked_iff.trans Pipeline.panics_iff

/-- A pipeline at work has a sweeper just if the clock can show the time of the first sweep. -/
theorem unharmed_iff_of_running (h : c.Limited) {p : Pipeline} (hp : Pipeline.start c.pipelineSettings now s = .running p) :
    (Pipeline.Start.running p).Unharmed ↔ now + c.sweeper.intervalSecs.toNat * 1000 ≤ Machine.lastMillisecond := by
  obtain ⟨-, hwriter, hcorrelator, hsweeper⟩ := Pipeline.tasks_of_assemble (Pipeline.assemble_of_running hp)
  rw [← sweeper_due h now, ← Sweeper.isSome_launch?_iff]
  exact ⟨fun hall => hsweeper ▸ hall.2.2, fun hsome => ⟨hwriter, hcorrelator, hsweeper ▸ hsome⟩⟩

/-- Nothing panics if a configuration asks for no more than the machine has. -/
theorem WithinMachine.unharmed (hwithin : c.WithinMachine now) (h : c.Limited) (s : Services) :
    (Pipeline.start c.pipelineSettings now s).Unharmed := by
  cases hstart : Pipeline.start c.pipelineSettings now s with
  | running p => exact (unharmed_iff_of_running h hstart).2 hwithin.sweeper
  | failed p e => trivial
  | panicked =>
    obtain ⟨hdelivery, hbatch, hcorrelator, -⟩ := hwithin
    rcases (panicked_iff h).1 hstart with hlt | hlt | ⟨hlt, -⟩ <;> omega

/-- If all topics can be opened and nothing panics, a configuration asks for no more than the machine has. -/
theorem withinMachine_of_unharmed (h : c.Limited) (hopen : ∀ p e, Pipeline.start c.pipelineSettings now s ≠ .failed p e)
    (hunharmed : (Pipeline.start c.pipelineSettings now s).Unharmed) : c.WithinMachine now := by
  cases hstart : Pipeline.start c.pipelineSettings now s with
  | running p =>
    have hnot : Pipeline.start c.pipelineSettings now s ≠ .panicked := by rw [hstart]; nofun
    obtain ⟨hworkers, -⟩ := Pipeline.tasks_of_assemble (Pipeline.assemble_of_running hstart)
    rw [ne_eq, panicked_iff h] at hnot
    obtain ⟨hdelivery, hnot⟩ := not_or.1 hnot
    obtain ⟨hbatch, hcorrelator⟩ := not_or.1 hnot
    exact {
      delivery := Nat.le_of_not_lt hdelivery
      batch := Nat.le_of_not_lt hbatch
      correlator := Nat.le_of_not_lt fun hlt => hcorrelator ⟨hlt, hworkers⟩
      sweeper := (unharmed_iff_of_running h hstart).1 (hstart ▸ hunharmed) }
  | failed p e => exact absurd hstart (hopen p e)
  | panicked =>
    rw [hstart] at hunharmed
    exact hunharmed.elim

/-- The numbers that an accepted configuration tells a pipeline are such as its parts rely on, and the clock shows the time of the first
flush. A start panics just if a channel that it comes to is to have more room than the machine can count. Nothing panics if the
capacities and the time between sweeps are within the machine; and if all topics can be opened, then only if they are. -/
theorem started_iff_withinMachine (h : c.check = .ok ()) (hnow : now + 2 ^ 64 ≤ Machine.lastMillisecond) (s : Services) :
    c.pipelineSettings.Sound ∧
    (∀ p w, (Pipeline.start c.pipelineSettings now s).pipeline? = some p → p.writer = some w →
      w.ticker.due ≤ Machine.lastMillisecond) ∧
    (Pipeline.start c.pipelineSettings now s = .panicked ↔
      Machine.greatestCapacity < c.delivery.channelCapacity.toNat ∨ Machine.greatestCapacity < c.batch.channelCapacity.toNat ∨
        (Machine.greatestCapacity < c.correlator.channelCapacity.toNat ∧
          ∃ ws : List Worker, Reader.openAll c.pipelineSettings.feed s c.pipelineSettings.rowChangeTopic = .ok ws)) ∧
    (c.WithinMachine now → (Pipeline.start c.pipelineSettings now s).Unharmed) ∧
    ((∀ p e, Pipeline.start c.pipelineSettings now s ≠ .failed p e) →
      ((Pipeline.start c.pipelineSettings now s).Unharmed ↔ c.WithinMachine now)) := by
  have hlimited := limited_of_check h
  have hunharmed : c.WithinMachine now → (Pipeline.start c.pipelineSettings now s).Unharmed :=
    fun hwithin => hwithin.unharmed hlimited s
  refine ⟨sound_of_check h, ?_, panicked_iff hlimited, hunharmed, ?_⟩
  · intro p w hp hw
    exact writer_due_le hlimited hnow hp hw
  · intro hopen
    exact ⟨withinMachine_of_unharmed hlimited hopen, hunharmed⟩

/-- The default configuration starts on a machine that has been up for a day. -/
theorem started_iff_withinMachine_default :
    let c : Config := {}
    let s : Services := { queue := (Queue.createTopic (Queue.createTopic {} "binlog" 2) "tx_info" 1) }
    c.check = .ok () ∧ 86400000 + 2 ^ 64 ≤ Machine.lastMillisecond ∧ c.pipelineSettings.Sound ∧
      (Pipeline.start c.pipelineSettings 86400000 s).Unharmed ∧
      ∃ p, Pipeline.start c.pipelineSettings 86400000 s = .running p := by
  intro c s
  have hcheck : c.check = .ok () := by decide
  have hnow : 86400000 + 2 ^ 64 ≤ Machine.lastMillisecond := by decide
  obtain ⟨hsound, -, -, hunharmed, -⟩ := started_iff_withinMachine hcheck hnow s
  exact ⟨hcheck, hnow, hsound, hunharmed ⟨by decide, by decide, by decide, by decide⟩, _, rfl⟩

/-- A configuration is accepted whose channel of records would have more room than a machine can count: its start panics, whenever it
is. Another one is accepted whose first sweep would come after the last second of the clock: a pipeline that starts with it goes
without a sweeper. -/
theorem started_within_false :
    let roomy : Config := { delivery := ⟨2305843009213693952⟩ }
    let rare : Config := { sweeper := { intervalSecs := 9223372036854775808 } }
    (roomy.check = .ok () ∧ ∀ now s, Pipeline.start roomy.pipelineSettings now s = .panicked) ∧
      rare.check = .ok () ∧ ∀ now s p, Pipeline.start rare.pipelineSettings now s = .running p → p.sweeper = none := by
  intro roomy rare
  have hroomy : roomy.check = .ok () := by decide
  have hrare : rare.check = .ok () := by decide
  refine ⟨⟨hroomy, ?_⟩, hrare, ?_⟩
  · intro now s
    exact (panicked_iff (limited_of_check hroomy)).2 (Or.inl (by decide))
  · intro now s p hp
    obtain ⟨-, -, -, hsweeper⟩ := Pipeline.tasks_of_assemble (Pipeline.assemble_of_running hp)
    have hlast : Machine.lastMillisecond < rare.sweeper.intervalSecs.toNat * 1000 := by decide
    have hdue := sweeper_due (limited_of_check hrare) now
    rw [hsweeper, ← Option.not_isSome_iff_eq_none, Sweeper.isSome_launch?_iff]
    omega

end Config

end AuditTrail
