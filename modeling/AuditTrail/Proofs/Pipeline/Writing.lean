import AuditTrail.Proofs.Pipeline.Intake
import AuditTrail.Proofs.Writer.Accounting

/-!
# The writer of a pipeline

Seen from the writer of a pipeline, everything else is senders and others: a run of the pipeline is a run of its writer
(`writing_run`). What has to be shown for it is that the cursors of the markers are not those of the row changes. They are of
another topic, and of partitions with a number that is not negative, as all partitions of a queue are.
-/

namespace AuditTrail

namespace Message

/-- An envelope belongs to the message it is made of. -/
theorem partition_toEnvelope (m : Message) : m.toEnvelope.1.partition = m.partition := by
  unfold toEnvelope
  split <;> rfl

theorem offset_toEnvelope (m : Message) : m.toEnvelope.1.offset = m.offset := by
  unfold toEnvelope
  split <;> rfl

end Message

namespace Pipeline

namespace Scene

/-- Markers come from partitions that are not negative, and their cursors are written under their topic. -/
structure Numbered (topic : String) (x : Scene) : Prop where
  feeders : ∀ r ∈ x.pipeline.feeders, 0 ≤ r.feed.partition ∧
    r.Sound x.services.queue fun m e => e.partition = m.partition
  waiting : ∀ e ∈ x.pipeline.markers.items, 0 ≤ e.partition
  ofTopic : ∀ c, x.pipeline.correlator = some c → c.topic = topic
  correlating : ∀ c e y, x.pipeline.correlator = some c → c.phase = .correlating e y → 0 ≤ e.partition
  committing : ∀ c e, x.pipeline.correlator = some c → c.phase = .committing e → 0 ≤ e.partition

/-- What the writer of a scene sees of it. -/
def view (x : Scene) (w : Writer) : Writer.Scene where
  writer := w
  channel := x.pipeline.intake
  services := x.services
  handles := x.pipeline.intakeSenders
  accepted := x.accepted
  batches := x.batches
  written := x.written

/-- What anybody but the writer does to the services in a move is in a relation. -/
structure Bystanding (ok : Services → Prop) (R : Services → Services → Prop) : Prop where
  task : ∀ ⦃p q : Pipeline⦄ ⦃role : Role⦄ ⦃s t : Services⦄, Turn p s role q t → role ≠ .writer → R s t
  outside : ∀ ⦃s t : Services⦄, s.Outside t → ok t → R s t

end Scene

namespace WritingAux

open Scene

variable {ok : Services → Prop} {topic : String} {x y : Scene} {s t : Services}

/-- A move in which no reader of markers and no correlator goes on keeps the markers numbered. -/
theorem numbered_frame (h : Numbered topic x) (hq : x.services.queue.Grows y.services.queue)
    (hf : ∃ told : Feeder → Feeder, y.pipeline.feeders = x.pipeline.feeders.map told ∧
      ∀ r, (told r).feed = r.feed ∧ (told r).phase = r.phase)
    (hm : y.pipeline.markers = x.pipeline.markers)
    (hc : ∀ c, y.pipeline.correlator = some c →
      ∃ c', x.pipeline.correlator = some c' ∧ c.topic = c'.topic ∧ c.phase = c'.phase) : Numbered topic y := by
  obtain ⟨told, hf, htold⟩ := hf
  refine ⟨?_, hm ▸ h.waiting, ?_, ?_, ?_⟩
  · intro r hr
    obtain ⟨r₀, hr₀, rfl⟩ := List.mem_map.1 (hf ▸ hr)
    obtain ⟨hp, hs⟩ := h.feeders r₀ hr₀
    exact ⟨by rw [(htold r₀).1]; exact hp, (hs.grow hq).of_eq (htold r₀).1 (htold r₀).2⟩
  · intro c hcc
    obtain ⟨c', hc', ht, -⟩ := hc c hcc
    exact ht.trans (h.ofTopic c' hc')
  · intro c e z hcc he
    obtain ⟨c', hc', -, hp⟩ := hc c hcc
    exact h.correlating c' e z hc' (hp ▸ he)
  · intro c e hcc he
    obtain ⟨c', hc', -, hp⟩ := hc c hcc
    exact h.committing c' e hc' (hp ▸ he)

/-- A step of a reader of markers keeps the markers numbered. -/
theorem numbered_feeder {n : Nat} {r r' : Feeder} {c : Channel Envelope} (h : Numbered topic x)
    (hr : x.pipeline.feeders[n]? = some r)
    (ht : Reader.Turn (fun _ => Message.toEnvelope) r x.pipeline.markers x.services r' c t) :
    Numbered topic
      (x.advance (.feeder n) { x.pipeline with feeders := x.pipeline.feeders.set n r', markers := c } t) := by
  obtain ⟨hp, hs⟩ := h.feeders r (List.mem_of_getElem? hr)
  have hq : t.queue = x.services.queue := ht.counted.queue
  obtain ⟨hpart, hsent⟩ := ht.partition hs
  refine ⟨?_, ?_, h.ofTopic, h.correlating, h.committing⟩
  · intro q hq'
    simp only [advance, hq]
    rcases List.mem_or_eq_of_mem_set hq' with hq' | rfl
    · exact h.feeders q hq'
    · exact ⟨hpart ▸ hp, ht.sound hs fun _ => Message.partition_toEnvelope⟩
  · intro e he
    simp only [advance, ht.items] at he
    rcases List.mem_append.1 he with he | he
    · exact h.waiting e he
    · exact hsent e he ▸ hp

/-- A step of the correlator keeps the markers numbered. -/
theorem numbered_correlator {c c' : Correlator} {m : Channel Envelope} {d : Channel AuditRecord} (h : Numbered topic x)
    (hc : x.pipeline.correlator = some c) (hq : t.queue = x.services.queue)
    (ht : Correlator.Turn x.pipeline.markerSenders c x.pipeline.markers x.pipeline.delivery x.services c' m d t) :
    Numbered topic
      (x.advance .correlator { x.pipeline with correlator := some c', markers := m, delivery := d } t) := by
  have hfeeders : ∀ r ∈ x.pipeline.feeders, 0 ≤ r.feed.partition ∧
      r.Sound t.queue fun m e => e.partition = m.partition := hq ▸ h.feeders
  have htop : c'.topic = topic := by
    rw [← h.ofTopic c hc]
    cases ht <;> rfl
  refine ⟨hfeeders, ?_, fun c₁ hc₁ => Option.some.inj hc₁ ▸ htop, ?_, ?_⟩
  · intro e he
    cases ht with
    | stop hp hs => exact absurd he List.not_mem_nil
    | take hp hm hmark => exact h.waiting e (hm ▸ List.mem_cons_of_mem _ he)
    | pass hp hm hmark => exact h.waiting e (hm ▸ List.mem_cons_of_mem _ he)
    | _ => exact h.waiting e he
  · intro c₁ e z hc₁ he
    obtain rfl := Option.some.inj hc₁
    cases ht with
    | take hp hm hmark =>
      obtain ⟨rfl, -⟩ := Correlator.Phase.correlating.inj he
      exact h.waiting _ (hm ▸ List.mem_cons_self)
    | work hp hx =>
      obtain ⟨rfl, -⟩ := Correlator.Phase.correlating.inj he
      exact h.correlating c _ _ hc hp
    | _ => exact absurd he (by simp)
  · intro c₁ e hc₁ he
    obtain rfl := Option.some.inj hc₁
    cases ht with
    | pass hp hm hmark =>
      obtain rfl := Correlator.Phase.committing.inj he
      exact h.waiting _ (hm ▸ List.mem_cons_self)
    | done hp hx =>
      obtain rfl := Correlator.Phase.committing.inj he
      exact h.correlating c _ _ hc hp
    | _ => exact absurd he (by simp)

/-- Every move keeps the markers numbered. -/
theorem numbered_move (h : Numbered topic x) (hm : Move ok x y) : Numbered topic y := by
  cases hm with
  | task hstep =>
    have hturn := turn_of_step hstep
    have hq := hturn.queue
    cases hturn with
    | feeder hr ht => exact numbered_feeder h hr ht
    | correlator hc ht => exact numbered_correlator h hc hq ht
    | _ =>
      exact numbered_frame h (Queue.grows_of_eq hq) ⟨id, (List.map_id _).symm, fun r => ⟨rfl, rfl⟩⟩ rfl
        fun c hc => ⟨c, hc, rfl, rfl⟩
  | signal =>
    refine numbered_frame h .rfl ⟨_, rfl, fun r => ⟨rfl, rfl⟩⟩ rfl ?_
    intro c hc
    obtain ⟨c', hc', rfl⟩ := Option.map_eq_some_iff.1 hc
    exact ⟨c', hc', rfl, rfl⟩
  | outside ho hok =>
    exact numbered_frame h ho.queue ⟨id, (List.map_id _).symm, fun r => ⟨rfl, rfl⟩⟩ rfl
      fun c hc => ⟨c, hc, rfl, rfl⟩

/-- A pipeline that starts reads markers from partitions that are not negative, and has none yet. -/
theorem numbered_start (settings : PipelineSettings) (now : Nat) (s : Services) :
    Numbered settings.markerTopic (.start settings now s) := by
  have h := started_assemble settings now s
  refine ⟨?_, ?_, ?_, fun c e y hc he => absurd he (h.not_correlating hc e y), ?_⟩
  · intro r hr
    rcases h.feeders with hf | hopen
    · exact absurd (show r ∈ [] from hf ▸ hr) List.not_mem_nil
    · obtain ⟨hps, hall⟩ := Reader.openAll_eq_ok hopen
      obtain ⟨l, hl⟩ := (Queue.mem_partitions hps).1 (List.mem_map_of_mem hr)
      exact ⟨Queue.nonneg_of_log? hl, Reader.sound_of_polling (hall r hr).1⟩
  · simp [Scene.start, h.markers]
  · intro c hc
    rcases h.correlator with hn | hn
    · exact absurd (hn.symm.trans hc) (by simp)
    · exact Option.some.inj (hn.symm.trans hc) ▸ rfl
  · intro c e hc he
    rcases h.correlator with hn | hn
    · exact absurd (hn.symm.trans hc) (by simp)
    · obtain rfl := Option.some.inj (hn.symm.trans hc)
      exact absurd he (by simp)

/-! ### The steps that the writer sees -/

variable {owned : Int → Prop}

/-- Changes of the transactions do not disturb the writer. -/
theorem undisturbed_updated (h : s.Updated t) : Writer.Undisturbed owned topic s t :=
  ⟨fun r hr => h.rows ▸ hr, fun p _ => by rw [h.cursors]⟩

/-- A cursor of another topic does not disturb the writer. -/
theorem undisturbed_putCursor {other : String} {p : Int} (n : Int) (hne : topic ≠ other) (hp : 0 ≤ p) :
    Writer.Undisturbed (0 ≤ ·) topic s (s.putCursor other p n) := by
  refine ⟨fun r hr => by rwa [Services.putCursor_store], ?_⟩
  intro q hq
  cases hf : s.cursors.failPuts
  · rw [Services.putCursor_of_ok hf]
    exact Cursors.stored_set_topic _ n hne hp hq
  · rw [Services.putCursor_of_fail hf, Services.record_cursors]

/-- Nothing that comes from outside disturbs the writer. -/
theorem undisturbed_outside (h : s.Outside t) : Writer.Undisturbed owned topic s t := by
  refine ⟨fun r hr => h.rows ▸ hr, ?_⟩
  intro p _
  simp only [Cursors.stored, h.backing]

variable {R : Services → Services → Prop} {first : Writer.Scene} {fs : List Writer.Flush}

/-- Tasks other than the readers of row changes and the writer are others to the writer. -/
theorem view_others {w : Writer} {role : Role} {p : Pipeline} (hx : Writer.Scene.Noted owned R first (x.view w) fs)
    (hu : Writer.Undisturbed owned w.topic x.services t) (hR : R x.services t)
    (hi : p.intake = x.pipeline.intake) (hh : p.intakeSenders = x.pipeline.intakeSenders)
    (hb : x.pipeline.stores x.services role = []) (hw : x.pipeline.writes x.services role = []) :
    Writer.Scene.Noted owned R first ((x.advance role p t).view w) fs := by
  have hy : (x.advance role p t).view w = { x.view w with services := t } := by
    simp [view, advance, hi, hh, hb, hw]
  rw [hy]
  exact hx.others hu hR

/-- What a reader does to the channel of the writer is what a sender does. -/
theorem noted_of_reader {decode : Services → Message → Intake × List Update} {r r' : Worker} {c : Channel Intake}
    {v : Writer.Scene} (hx : Writer.Scene.Noted owned R first v fs) (hv : v.handles = true)
    (ht : Reader.Turn decode r v.channel s r' c t) :
    Writer.Scene.Noted owned R first { v with channel := c, accepted := v.accepted ++ v.channel.entered c } fs := by
  cases ht with
  | join hp hc =>
    rw [Channel.entered_join, List.append_nil]
    exact hx.join hc
  | send hp hc =>
    rw [Channel.entered_push]
    exact hx.send hv hc
  | _ =>
    rw [Channel.entered_self, List.append_nil]
    exact hx

/-- A step of a reader of row changes is what a sender does, and others besides. -/
theorem view_worker {w : Writer} {n : Nat} {r r' : Worker} {c : Channel Intake}
    (hx : Writer.Scene.Noted owned R first (x.view w) fs) (hR : R x.services t) (hr : x.pipeline.workers[n]? = some r)
    (ht : Reader.Turn (fun s => Message.toIntake x.pipeline.filter s.clock) r x.pipeline.intake x.services r' c t) :
    Writer.Scene.Noted owned R first
      ((x.advance (.worker n) { x.pipeline with workers := x.pipeline.workers.set n r', intake := c } t).view w) fs := by
  have hopen : (x.view w).handles = true := by
    refine Bool.or_eq_true_iff.2 (Or.inr (List.any_eq_true.2 ⟨r, List.mem_of_getElem? hr, ?_⟩))
    rw [ht.running]
    rfl
  let before : Writer.Scene := { x.view w with
    channel := c, accepted := x.accepted ++ x.pipeline.intake.entered c, services := t }
  have hsend : Writer.Scene.Noted owned R first before fs :=
    (noted_of_reader hx hopen ht).others (undisturbed_updated ht.counted.updated) hR
  let p : Pipeline := { x.pipeline with workers := x.pipeline.workers.set n r', intake := c }
  have hy : (x.advance (.worker n) p t).view w = { before with handles := p.intakeSenders } := by
    simp [before, p, view, advance, stores, writes]
  -- the reader that goes on may have been the last one that could send
  cases hlast : p.intakeSenders with
  | true =>
    have hsame : { before with handles := p.intakeSenders } = before := by rw [hlast, ← hopen]
    rw [hy, hsame]
    exact hsend
  | false =>
    rw [hy, hlast]
    exact hsend.release

/-- A step of the writer of a pipeline is a step of the writer. -/
theorem view_writer {attention : Attention} {now : Nat} {w w' : Writer} {c : Channel Intake}
    (hx : Writer.Scene.Noted owned R first (x.view w) fs) (hw : x.pipeline.writer = some w)
    (ht : w.step attention now x.pipeline.intakeSenders x.pipeline.intake x.services = some (w', c, t)) :
    Writer.Scene.Noted owned R first
      ((x.advance .writer { x.pipeline with writer := some w', intake := c } t).view w')
      (fs ++ w.flushes x.services) := by
  have hy : (x.advance .writer { x.pipeline with writer := some w', intake := c } t).view w' = { x.view w with
      writer := w', channel := c, services := t
      batches := x.batches ++ w.stores x.services
      written := x.written ++ w.writes x.services } := by
    simp [view, advance, stores, writes, hw, (Writer.turn_of_step ht).entered, intakeSenders]
  rw [hy]
  exact hx.work ht

/-- Telling tasks to stop leaves those who can send able to. -/
theorem intakeSenders_signal (p : Pipeline) : p.signal.intakeSenders = p.intakeSenders := by
  have hany : (p.workers.map fun r => { r with signalled := true }).any (!·.isStopped) = p.workers.any (!·.isStopped) := by
    rw [List.any_map]
    rfl
  exact congrArg (p.intakeHandle || ·) hany

/-- Every move of a pipeline is a run of its writer. -/
theorem view_move {w : Writer} (hR : Bystanding ok R) (hn : Numbered topic x) (hne : w.topic ≠ topic) (hm : Move ok x y)
    (hw : x.pipeline.writer = some w) (hx : Writer.Scene.Noted (0 ≤ ·) R first (x.view w) fs) :
    ∃ w' fs', y.pipeline.writer = some w' ∧ Writer.Scene.Noted (0 ≤ ·) R first (y.view w') fs' := by
  cases hm with
  | task hstep =>
    have hturn := turn_of_step hstep
    have hR := hR.task hturn
    cases hturn with
    | writer hw' ht =>
      obtain rfl := Option.some.inj (hw.symm.trans hw')
      exact ⟨_, _, rfl, view_writer hx hw ht⟩
    | worker hr ht => exact ⟨w, fs, hw, view_worker hx (hR nofun) hr ht⟩
    | deliver hd hi => exact ⟨w, fs, hw, view_others hx ⟨fun r hr => hr, fun p _ => rfl⟩ (hR nofun) rfl rfl rfl rfl⟩
    | close hd hi hs => exact ⟨w, fs, hw, view_others hx ⟨fun r hr => hr, fun p _ => rfl⟩ (hR nofun) rfl rfl rfl rfl⟩
    | feeder hr ht =>
      exact ⟨w, fs, hw, view_others hx (undisturbed_updated ht.counted.updated) (hR nofun) rfl rfl rfl rfl⟩
    | correlator hc ht =>
      refine ⟨w, fs, hw, view_others hx ?_ (hR nofun) rfl rfl rfl rfl⟩
      cases ht with
      | work hp hx => exact undisturbed_updated hx.updated
      | commit hp =>
        exact undisturbed_putCursor _ (hn.ofTopic _ hc ▸ hne) (hn.committing _ _ hc hp)
      | _ => exact ⟨fun r hr => hr, fun p _ => rfl⟩
    | sweeper hv ht => exact ⟨w, fs, hw, view_others hx (undisturbed_updated ht.updated) (hR nofun) rfl rfl rfl rfl⟩
  | signal =>
    refine ⟨w, fs, hw, ?_⟩
    have hy : ({ x with pipeline := x.pipeline.signal } : Scene).view w = x.view w := by
      simp only [view, intakeSenders_signal]
      rfl
    rw [hy]
    exact hx
  | outside ho hok => exact ⟨w, fs, hw, hx.others (undisturbed_outside ho) (hR.outside ho hok)⟩

/-- A pipeline that starts is a writer that starts, with senders or without. -/
theorem view_start (settings : PipelineSettings) (now : Nat) (s : Services) :
    ∃ w, (Scene.start settings now s).pipeline.writer = some w ∧ Writer.Scene.Noted owned R
      (.start settings.writer settings.rowChangeTopic now settings.writer.capacity s)
      ((Scene.start settings now s).view w) [] := by
  have h := started_assemble settings now s
  refine ⟨_, h.writer, ?_⟩
  let first : Writer.Scene := .start settings.writer settings.rowChangeTopic now settings.writer.capacity s
  have hy : (Scene.start settings now s).view (.start settings.writer settings.rowChangeTopic now) =
      { first with handles := (assemble settings now s).1.intakeSenders } := by
    simp [first, view, Scene.start, Writer.Scene.start, h.intake]
  cases hopen : (assemble settings now s).1.intakeSenders with
  | true =>
    rw [hy, hopen]
    exact .start
  | false =>
    rw [hy, hopen]
    exact .release .start

end WritingAux

open WritingAux

variable {ok : Services → Prop} {settings : PipelineSettings} {now : Nat} {s : Services} {x : Scene}

/-- On every run the markers are numbered. -/
theorem numbered_run (hr : Scene.Run ok (.start settings now s) x) : x.Numbered settings.markerTopic := by
  induction hr with
  | refl => exact numbered_start settings now s
  | tail hr hm ih => exact numbered_move ih hm

/-- Every run of a pipeline whose topics differ is a run of its writer, which owns the cursors of the row changes and has made
some attempts to store. -/
theorem writing_noted {R : Services → Services → Prop} (hR : Scene.Bystanding ok R)
    (hne : settings.rowChangeTopic ≠ settings.markerTopic) (hr : Scene.Run ok (.start settings now s) x) :
    ∃ w fs, x.pipeline.writer = some w ∧ Writer.Scene.Noted (0 ≤ ·) R
      (.start settings.writer settings.rowChangeTopic now settings.writer.capacity s) (x.view w) fs := by
  induction hr with
  | refl =>
    obtain ⟨w, hw, hx⟩ := view_start settings now s
    exact ⟨w, [], hw, hx⟩
  | tail hr hm ih =>
    obtain ⟨w, fs, hw, hx⟩ := ih
    have htop : w.topic = settings.rowChangeTopic := hx.run.topic
    exact view_move hR (numbered_run hr) (htop ▸ hne) hm hw hx

/-- Every run of a pipeline whose topics differ is a run of its writer. -/
theorem writing_run (hne : settings.rowChangeTopic ≠ settings.markerTopic) (hr : Scene.Run ok (.start settings now s) x) :
    ∃ w, x.pipeline.writer = some w ∧ Writer.Scene.Run (0 ≤ ·)
      (.start settings.writer settings.rowChangeTopic now settings.writer.capacity s) (x.view w) := by
  obtain ⟨w, fs, hw, hx⟩ := writing_noted (R := fun _ _ => True) ⟨fun _ _ _ _ _ _ _ => trivial, fun _ _ _ _ => trivial⟩ hne hr
  exact ⟨w, hw, hx.run⟩

end Pipeline

end AuditTrail
