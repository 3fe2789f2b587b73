import AuditTrail.Proofs.Pipeline.Handover
import AuditTrail.Proofs.Pipeline.Markers

/-!
# A marker cursor never passes a message that is not handled

The correlator writes the cursor of a partition past each envelope in turn, once it is through with it. So what is stored is at
most the number of envelopes it is through with, counted from where the reader started, and what is written increases. The cursors
of the row changes are in nobody's way: they are of another topic, and of partitions that are not negative.

When the correlator is through with a marker whose GTID is not blank, the transaction is in the store, unless it could not be
written (`marker_cursor_safe`).
-/

namespace AuditTrail

/-- A correlation that ends leaves its transaction in the store, unless it fails to write it. -/
theorem Correlation.Turn.holds {sender : Sender} {x x' : Correlation} {d d' : Channel AuditRecord} {s t : Services}
    (h : Turn sender x d s x' d' t) (hf : x'.isFinished = true) (hb : Text.blank x.marker.gtid = false) :
    (x.isWriting && s.store.failUpserts) = true ∨ t.store.Holds x.marker.gtid := by
  cases h with
  | skip hp hblank ht => exact absurd (hb.symm.trans hblank) (by decide)
  | known hp hblank hu hs ht => exact Or.inr (ht.store ▸ Store.holds_of_lookup (Store.transaction_eq_ok hu).symm)
  | settle hp ht =>
    cases hu : s.store.failUpserts with
    | true => exact Or.inl (by simp [isWriting, hp])
    | false => exact Or.inr (ht.store ▸ holds_write x _ hu)
  | defer hp ht =>
    cases hu : s.store.failUpserts with
    | true => exact Or.inl (by simp [isWriting, hp])
    | false => exact Or.inr (ht.store ▸ holds_write x _ hu)
  | join hp hd => exact absurd hf (by simp [isFinished, hp])
  | _ => exact absurd hf (by simp [isFinished])

namespace Pipeline

open Scene DeliveryAux

namespace Scene

/-- Row changes come from partitions that are not negative, and their cursors are written under their topic. -/
structure RowsNumbered (topic : String) (x : Scene) : Prop where
  workers : ∀ r ∈ x.pipeline.workers, 0 ≤ r.feed.partition ∧
    r.Sound x.services.queue fun m i => i.partition = m.partition
  waiting : ∀ i ∈ x.pipeline.intake.items, 0 ≤ i.partition
  ofTopic : ∀ w, x.pipeline.writer = some w → w.topic = topic
  pending : ∀ w, x.pipeline.writer = some w → ∀ e ∈ w.pending, 0 ≤ e.1

/-- Every marker that is correlated, and whose GTID is not blank, has its transaction in the store or could not be written. -/
def Recorded (x : Scene) (l : Ledger) : Prop :=
  ∀ e ∈ x.correlated l, ∀ m, e.marker = some m → Text.blank m.gtid = false →
    e ∈ l.missed ∨ x.services.store.Holds m.gtid

end Scene

/-- The cursors of a partition of markers one after the other: the one that is stored at the start, if there is one, and those that
are written. -/
def Ledger.cursors (l : Ledger) (topic : String) (first : Services) (p : Int) : List Int :=
  (first.cursors.stored topic p).toList ++ (l.written.filter (·.1 == p)).map (·.2)

/-- The cursors of a partition of markers increase, are not past the envelopes that the correlator is through with, and the last of
them is what is stored. -/
structure Scene.Marked (topic : String) (origin : Nat) (first : Services) (p : Int) (x : Scene) (l : Ledger) : Prop where
  increasing : (l.cursors topic first p).Pairwise (· < ·)
  bounded : ∀ n ∈ l.cursors topic first p, n ≤ (origin + Envelope.countOf p l.passed : Nat)
  stored : x.services.cursors.stored topic p = (l.cursors topic first p).getLast?

namespace MarkerCursorsAux

open MarkersAux

variable {ok : Services → Prop} {topic : String} {origin : Int → Nat} {first t : Services} {x y : Scene} {l : Ledger}
  {p : Int}

/-! ### The cursors of the row changes -/

/-- A move in which no reader of row changes and no writer goes on keeps the row changes numbered. -/
theorem rowsNumbered_frame (h : RowsNumbered topic x) (hq : x.services.queue.Grows y.services.queue)
    (hw : ∃ told : Worker → Worker, y.pipeline.workers = x.pipeline.workers.map told ∧
      ∀ r, (told r).feed = r.feed ∧ (told r).phase = r.phase)
    (hi : y.pipeline.intake = x.pipeline.intake) (hwr : y.pipeline.writer = x.pipeline.writer) : RowsNumbered topic y := by
  obtain ⟨told, hw, htold⟩ := hw
  refine ⟨?_, hi ▸ h.waiting, hwr ▸ h.ofTopic, hwr ▸ h.pending⟩
  intro r hr
  obtain ⟨r₀, hr₀, rfl⟩ := List.mem_map.1 (hw ▸ hr)
  obtain ⟨hp, hs⟩ := h.workers r₀ hr₀
  exact ⟨by rw [(htold r₀).1]; exact hp, (hs.grow hq).of_eq (htold r₀).1 (htold r₀).2⟩

/-- A step of a reader of row changes keeps them numbered. -/
theorem rowsNumbered_worker {n : Nat} {r r' : Worker} {c : Channel Intake} (h : RowsNumbered topic x)
    (hr : x.pipeline.workers[n]? = some r)
    (ht : Reader.Turn (fun s => Message.toIntake x.pipeline.filter s.clock) r x.pipeline.intake x.services r' c t) :
    RowsNumbered topic
      (x.advance (.worker n) { x.pipeline with workers := x.pipeline.workers.set n r', intake := c } t) := by
  obtain ⟨hp, hs⟩ := h.workers r (List.mem_of_getElem? hr)
  have hq : t.queue = x.services.queue := ht.counted.queue
  obtain ⟨hpart, hsent⟩ := ht.partition hs
  refine ⟨?_, ?_, h.ofTopic, h.pending⟩
  · intro q hq'
    simp only [advance, hq]
    rcases List.mem_or_eq_of_mem_set hq' with hq' | rfl
    · exact h.workers q hq'
    · exact ⟨hpart ▸ hp, ht.sound hs fun s => Message.partition_toIntake _ s.clock⟩
  · intro i hi
    simp only [advance, ht.items] at hi
    rcases List.mem_append.1 hi with hi | hi
    · exact h.waiting i hi
    · exact hsent i hi ▸ hp

/-- A step of the writer keeps the row changes numbered. -/
theorem rowsNumbered_writer {senders : Bool} {w w' : Writer} {c : Channel Intake} (h : RowsNumbered topic x)
    (hw : x.pipeline.writer = some w) (ht : Writer.Turn senders w x.pipeline.intake x.services w' c t) :
    RowsNumbered topic (x.advance .writer { x.pipeline with writer := some w', intake := c } t) := by
  have hpending := h.pending w hw
  refine ⟨ht.queue ▸ h.workers, ?_, ?_, ?_⟩
  · intro i hi
    cases ht with
    | take hp hc => exact h.waiting i (hc ▸ List.mem_cons_of_mem _ hi)
    | stop hp hq => exact absurd hi List.not_mem_nil
    | _ => exact h.waiting i hi
  · intro w₁ hw₁
    obtain rfl := Option.some.inj hw₁
    exact ht.topic.trans (h.ofTopic w hw)
  · intro w₁ hw₁ e he
    obtain rfl := Option.some.inj hw₁
    cases ht with
    | @take item rest hp hc =>
      rw [Writer.pending_take] at he
      rcases Writer.SafeAux.mem_mark he with rfl | he
      · exact h.waiting item (hc ▸ List.mem_cons_self)
      · exact hpending e he
    | skip hp hq hh => exact hpending e (hq ▸ List.mem_cons_of_mem _ he)
    | put hp hq hh => exact hpending e (hq ▸ List.mem_cons_of_mem _ he)
    | _ => exact hpending e he

/-- Every move keeps the row changes numbered. -/
theorem rowsNumbered_move (h : RowsNumbered topic x) (hm : Move ok x y) : RowsNumbered topic y := by
  cases hm with
  | task hstep =>
    have hturn := turn_of_step hstep
    have hq := hturn.queue
    cases hturn with
    | worker hr ht => exact rowsNumbered_worker h hr ht
    | writer hw ht => exact rowsNumbered_writer h hw (Writer.turn_of_step ht)
    | _ => exact rowsNumbered_frame h (Queue.grows_of_eq hq) ⟨id, (List.map_id _).symm, fun r => ⟨rfl, rfl⟩⟩ rfl rfl
  | signal => exact rowsNumbered_frame h .rfl ⟨_, rfl, fun r => ⟨rfl, rfl⟩⟩ rfl rfl
  | outside ho hok => exact rowsNumbered_frame h ho.queue ⟨id, (List.map_id _).symm, fun r => ⟨rfl, rfl⟩⟩ rfl rfl

/-- The readers of row changes of a pipeline that starts read from partitions that are not negative. -/
theorem rowsNumbered_start (settings : PipelineSettings) (now : Nat) (s : Services) :
    RowsNumbered settings.rowChangeTopic (.start settings now s) := by
  have h := started_assemble settings now s
  refine ⟨?_, ?_, ?_, ?_⟩
  · intro r hr
    rcases h.workers with hw | ⟨ws, told, hopen, hw, htold⟩
    · exact absurd (show r ∈ [] from hw ▸ hr) List.not_mem_nil
    · obtain ⟨r₀, hr₀, rfl⟩ := List.mem_map.1 (show r ∈ ws.map told from hw ▸ hr)
      obtain ⟨hps, hall⟩ := Reader.openAll_eq_ok hopen
      obtain ⟨l, hl⟩ := (Queue.mem_partitions hps).1 (List.mem_map_of_mem hr₀)
      refine ⟨?_, Reader.sound_of_polling ((htold r₀).2.trans (hall r₀ hr₀).1)⟩
      rw [(htold r₀).1]
      exact Queue.nonneg_of_log? hl
  · simp [Scene.start, h.intake]
  · intro w hw
    obtain rfl := Option.some.inj (h.writer.symm.trans hw)
    rfl
  · intro w hw e he
    obtain rfl := Option.some.inj (h.writer.symm.trans hw)
    exact absurd he List.not_mem_nil

/-- A move apart from the markers leaves their cursors as they are. -/
theorem stored_apart {other : String} (h : RowsNumbered other x) (hne : topic ≠ other) (hp : 0 ≤ p) (hm : Move ok x y)
    (ha : Apart x y) : y.services.cursors.stored topic p = x.services.cursors.stored topic p := by
  cases hm with
  | task hstep =>
    cases turn_of_step hstep with
    | deliver hd hi => simp only [advance, Services.handle_cursors]
    | close hd hi hs => rfl
    | worker hr ht => simp only [advance, ht.counted.cursors]
    | feeder hr ht => simp only [advance, ht.counted.cursors]
    | sweeper hx ht => simp only [advance, ht.updated.cursors]
    | writer hw ht =>
      rcases (Writer.turn_of_step ht).cursors with hc | ⟨e, he, rfl⟩
      · simp only [advance, hc]
      · -- the writer writes a cursor of its own topic
        rw [h.ofTopic _ hw]
        exact (WritingAux.undisturbed_putCursor _ hne (h.pending _ hw e he)).cursors p hp
    | @correlator c c' m d t hc ht =>
      cases ht with
      | work hp hx => simp only [advance, hx.updated.cursors]
      | commit hp =>
        -- a correlator that writes a cursor is not where it was
        obtain ⟨told, hc', htold⟩ := ha.correlator
        have hphase : (told c).phase = c.phase := (htold c).2
        rw [hc] at hc'
        rw [← Option.some.inj hc', hp] at hphase
        exact absurd hphase (by simp)
      | _ => rfl
  | signal => rfl
  | outside ho hok => simp only [Cursors.stored, ho.backing]

/-! ### The cursors of the markers -/

/-- What is written of a partition goes to the end of its cursors. -/
theorem cursors_note (l : Ledger) (topic : String) (first : Services) (p : Int) (c : Correlator) (s : Services) :
    (l.note c s).cursors topic first p =
      l.cursors topic first p ++ ((c.writes s).filter (·.1 == p)).map (·.2) := by
  simp [Ledger.cursors, Ledger.note]

/-- A step that writes no cursor of a partition keeps its cursors marked. -/
theorem marked_of_writes_nil {n : Nat} {c : Correlator} (h : Marked topic n first p x l)
    (hw : (c.writes x.services).filter (·.1 == p) = [])
    (hs : y.services.cursors.stored topic p = x.services.cursors.stored topic p) :
    Marked topic n first p y (l.note c x.services) := by
  have hsame : (l.note c x.services).cursors topic first p = l.cursors topic first p := by
    rw [cursors_note, hw, List.map_nil, List.append_nil]
  refine ⟨hsame ▸ h.increasing, ?_, hs.trans (hsame ▸ h.stored)⟩
  intro v hv
  have hb := h.bounded v (hsame ▸ hv)
  have hmore : Envelope.countOf p l.passed ≤ Envelope.countOf p (l.note c x.services).passed := by
    rw [Ledger.note, Envelope.countOf_append]
    exact Nat.le_add_right _ _
  omega

/-- A step of the correlator keeps the cursors of a partition marked. -/
theorem marked_correlator {c c' : Correlator} {m : Channel Envelope} {d : Channel AuditRecord}
    (h : Marked topic (origin p) first p x l) (hcarry : Carrying topic origin x l) (hc : x.pipeline.correlator = some c)
    (htopic : c.topic = topic)
    (ht : Correlator.Turn x.pipeline.markerSenders c x.pipeline.markers x.pipeline.delivery x.services c' m d t) :
    Marked topic (origin p) first p
      (x.advance .correlator { x.pipeline with correlator := some c', markers := m, delivery := d } t)
      (l.note c x.services) := by
  cases ht with
  | @commit e hp =>
    have hconv : x.services.queue.Conveys topic origin (l.passed ++ e :: x.pipeline.markers.items) := by
      simpa [carried, hc, Correlator.inHand, hp] using hcarry.conveyed
    have hoff := hconv.offset
    by_cases hput : x.services.cursors.failPuts = true
    · refine marked_of_writes_nil h ?_ ?_
      · simp [Correlator.writes, hp, Cursors.put, hput]
      · simp only [advance, Services.putCursor_of_fail hput, Services.record_cursors]
    · replace hput : x.services.cursors.failPuts = false := by simpa using hput
      have hwrites : c.writes x.services = [(e.partition, e.offset + 1)] := by
        simp [Correlator.writes, hp, Cursors.put, hput]
      by_cases hpart : e.partition = p
      · subst hpart
        -- the cursor is one past the envelopes that the correlator was through with, and so above all others
        have hcur : (l.note c x.services).cursors topic first e.partition =
            l.cursors topic first e.partition ++ [e.offset + 1] := by
          simp [cursors_note, hwrites]
        have hcount : Envelope.countOf e.partition (l.note c x.services).passed =
            Envelope.countOf e.partition l.passed + 1 := by
          simp [Ledger.note, Correlator.releases, hp, Envelope.countOf_append, Envelope.countOf_singleton]
        refine ⟨?_, ?_, ?_⟩
        · rw [hcur]
          refine List.pairwise_append.2 ⟨h.increasing, List.pairwise_singleton _ _, ?_⟩
          intro v hv w hw
          obtain rfl := List.mem_singleton.1 hw
          have := h.bounded v hv
          omega
        · rw [hcur, hcount]
          intro v hv
          rcases List.mem_append.1 hv with hv | hv
          · have := h.bounded v hv
            omega
          · obtain rfl := List.mem_singleton.1 hv
            omega
        · rw [hcur, List.getLast?_concat]
          simp only [advance, Services.putCursor_of_ok hput, htopic]
          exact Cursors.stored_set_self _ _ _ _
      · refine marked_of_writes_nil h ?_ ?_
        · simp [hwrites, hpart]
        · simp only [advance, Services.putCursor_of_ok hput, htopic]
          exact Cursors.stored_set_partition _ _ _ fun he => hpart he.symm
  | work hp hx =>
    exact marked_of_writes_nil h (by simp [Correlator.writes, hp]) (by simp only [advance, hx.updated.cursors])
  | stop hp hs => exact marked_of_writes_nil h (by simp [Correlator.writes, hp]) rfl
  | take hp hm he => exact marked_of_writes_nil h (by simp [Correlator.writes, hp]) rfl
  | pass hp hm he => exact marked_of_writes_nil h (by simp [Correlator.writes, hp]) rfl
  | done hp hx => exact marked_of_writes_nil h (by simp [Correlator.writes, hp]) rfl

/-! ### The transactions of the markers -/

/-- Every marker that is correlated after a step was so before, or its transaction is in the store or could not be written. -/
theorem recorded_correlator {c c' : Correlator} {m : Channel Envelope} {d : Channel AuditRecord}
    (h : Recorded x l) (hcarry : Carrying topic origin x l) (hc : x.pipeline.correlator = some c)
    (ht : Correlator.Turn x.pipeline.markerSenders c x.pipeline.markers x.pipeline.delivery x.services c' m d t) :
    Recorded (x.advance .correlator { x.pipeline with correlator := some c', markers := m, delivery := d } t)
      (l.note c x.services) := by
  have hafter := correlated_advance l c' m d x t c
  have hbefore := correlated_of_some hc l
  have hold : ∀ e ∈ x.correlated l, ∀ marker, e.marker = some marker → Text.blank marker.gtid = false →
      e ∈ (l.note c x.services).missed ∨ t.store.Holds marker.gtid := by
    intro e he marker hmark hb
    rcases h e he marker hmark hb with hmiss | hholds
    · exact Or.inl (List.mem_append_left _ hmiss)
    · exact Or.inr (ht.forward.holds _ hholds)
  intro e he marker hmark hb
  rw [hafter] at he
  rcases List.mem_append.1 he with hpassed | hnew
  · exact hold e (hbefore ▸ List.mem_append_left _ hpassed) marker hmark hb
  · have hsame : ∀ e, e ∈ c.settled → e ∈ x.correlated l := fun e he => hbefore ▸ List.mem_append_right _ he
    cases ht with
    | @work e₀ z z' d' t hp hz =>
      have he' : e = e₀ ∧ z'.isFinished = true := by simpa [Correlator.releases, Correlator.settled, hp, and_comm] using hnew
      obtain ⟨rfl, hfin⟩ := he'
      have hmarker : marker = z.marker := Option.some.inj (hmark.symm.trans (hcarry.correlating c e z hc hp))
      subst hmarker
      refine (hz.holds hfin hb).imp_left ?_
      intro hmiss
      refine List.mem_append_right _ ?_
      simp [Correlator.misses, hp, hmiss]
    | pass hp hm hnone =>
      obtain rfl := List.mem_singleton.1 (by simpa [Correlator.releases, Correlator.settled, hp] using hnew)
      exact absurd (hnone.symm.trans hmark) (by simp)
    | @done e₀ z result hp hz =>
      obtain rfl : e = e₀ := by simpa [Correlator.releases, Correlator.settled, hp] using hnew
      refine hold e (hsame e ?_) marker hmark hb
      simp [Correlator.settled, hp, Correlation.isFinished, hz]
    | @commit e₀ hp =>
      obtain rfl : e = e₀ := by simpa [Correlator.releases, Correlator.settled, hp] using hnew
      exact hold e (hsame e (by simp [Correlator.settled, hp])) marker hmark hb
    | stop hp hs => exact absurd hnew (by simp [Correlator.releases, Correlator.settled, hp])
    | take hp hm he =>
      exact absurd hnew (by simp [Correlator.releases, Correlator.settled, hp, Correlation.isFinished])

end MarkerCursorsAux

open MarkersAux MarkerCursorsAux

section

variable {ok : Services → Prop} {settings : PipelineSettings} {now : Nat} {s : Services} {x : Scene} {l : Ledger} {p : Int}

/-- On every run the row changes are numbered. -/
theorem rowsNumbered_run (hr : Run ok (.start settings now s) x) : x.RowsNumbered settings.rowChangeTopic := by
  induction hr with
  | refl => exact rowsNumbered_start settings now s
  | tail hr hm ih => exact rowsNumbered_move ih hm

/-- On every run the cursors of the markers increase and stay behind the envelopes that the correlator is through with. -/
theorem marked_noted (hne : settings.rowChangeTopic ≠ settings.markerTopic) (hp : 0 ≤ p)
    (hx : Noted ok (.start settings now s) x l) :
    Marked settings.markerTopic (markerOrigin settings s p) s p x l := by
  refine noted_induction (C := Marked settings.markerTopic (markerOrigin settings s p) s p) ?_ ?_ ?_ ?_ ?_ hx
  · have hcur : (({} : Ledger).cursors settings.markerTopic s p) = (s.cursors.stored settings.markerTopic p).toList := by
      simp [Ledger.cursors]
    refine ⟨?_, ?_, ?_⟩
    · rw [hcur]
      cases s.cursors.stored settings.markerTopic p <;> simp
    · intro n hn
      rw [hcur, Option.mem_toList] at hn
      simp only [markerOrigin, hn, Option.getD_some]
      omega
    · rw [hcur]
      cases h : s.cursors.stored settings.markerTopic p <;> simp [Scene.start, h]
  · intro x y l hl h hm ha _
    have hsame := stored_apart (rowsNumbered_run hl.run) hne.symm hp hm ha
    exact ⟨h.increasing, h.bounded, hsame.trans h.stored⟩
  · intro x l v v' d t _ h hv ht
    refine ⟨h.increasing, h.bounded, ?_⟩
    rw [← h.stored]
    simp only [advance, ht.updated.cursors]
  · intro x l n r r' c t _ h _ ht
    refine ⟨h.increasing, h.bounded, ?_⟩
    rw [← h.stored]
    simp only [advance, ht.counted.cursors]
  · intro x l c c' m d t hl h hc ht
    exact marked_correlator h (carrying_noted hl) hc ((numbered_run hl.run).ofTopic c hc) ht

/-- As long as cursors can be written, the correlator writes one for every envelope that it is through with. -/
theorem written_noted (hok : ∀ t, ok t → t.cursors.failPuts = false) (hputs : s.cursors.failPuts = false)
    (hx : Noted ok (.start settings now s) x l) : l.written = l.passed.map fun e => (e.partition, e.offset + 1) := by
  refine noted_induction (C := fun _ l => l.written = l.passed.map fun e => (e.partition, e.offset + 1))
    rfl ?_ ?_ ?_ ?_ hx
  · exact fun _ h _ _ _ => h
  · exact fun _ h _ _ => h
  · exact fun _ h _ _ => h
  · intro x l c c' m d t hl h hc ht
    have hx : x.services.cursors.failPuts = false :=
      hl.run.of_faults (P := fun t => t.cursors.failPuts = false) hok (fun hf h => hf.puts.trans h) hputs
    have hnew : c.writes x.services = c.releases.map fun e => (e.partition, e.offset + 1) := by
      unfold Correlator.writes Correlator.releases
      split <;> simp [Cursors.put, hx]
    rw [Ledger.note, h, hnew, List.map_append]

/-- As long as cursors can be written, the envelopes of a partition that the correlator is through with are those of a stretch of its
log, from where the reader started, and the stored cursor is at the end of the stretch, if there is anything in it. -/
theorem exists_passed (hne : settings.rowChangeTopic ≠ settings.markerTopic) (hp : 0 ≤ p)
    (hok : ∀ t, ok t → t.cursors.failPuts = false) (hputs : s.cursors.failPuts = false)
    (hx : Noted ok (.start settings now s) x l) :
    ∃ b, markerOrigin settings s p ≤ b ∧
      (markerOrigin settings s p < b → b ≤ x.services.queue.size settings.markerTopic p) ∧
      l.passed.filter (·.partition == p) =
        (x.services.queue.stretch settings.markerTopic p (markerOrigin settings s p) b).map (·.toEnvelope.1) ∧
      x.services.cursors.stored settings.markerTopic p =
        if markerOrigin settings s p < b then some (b : Int) else s.cursors.stored settings.markerTopic p := by
  obtain ⟨ms, ha, hf⟩ := (carrying_noted hx).conveyed.of_prefix (List.prefix_append _ _) p
  refine ⟨markerOrigin settings s p + ms.length, Nat.le_add_right _ _, ?_, by rw [← ha.eq_stretch, hf], ?_⟩
  · intro hlt
    refine ha.le_size ?_
    rintro rfl
    exact absurd hlt (by simp)
  · -- the cursors written are one past the messages of the stretch
    have hcursors : l.cursors settings.markerTopic s p =
        (s.cursors.stored settings.markerTopic p).toList ++ ms.map (·.offset + 1) := by
      have hfilter : (l.written.filter (·.1 == p)).map (·.2) = (l.passed.filter (·.partition == p)).map (·.offset + 1) := by
        rw [written_noted hok hputs hx, List.filter_map, List.map_map]
        rfl
      rw [Ledger.cursors, hfilter, hf, List.map_map]
      exact congrArg _ (List.map_congr_left fun m _ => by simp [Message.offset_toEnvelope])
    rw [(marked_noted hne hp hx).stored, hcursors]
    rcases List.eq_nil_or_concat' ms with rfl | ⟨ms, m, rfl⟩
    · cases s.cursors.stored settings.markerTopic p <;> simp
    · obtain ⟨⟨payload, -, rfl⟩, -⟩ := (Queue.ahead_append.1 ha).2
      rw [List.map_append, ← List.append_assoc, List.map_singleton, List.getLast?_concat]
      simp [Int.add_assoc]

/-- On every run, the transactions of the markers that are correlated are in the store, unless they could not be written. -/
theorem recorded_noted (hx : Noted ok (.start settings now s) x l) : Recorded x l := by
  refine noted_induction (C := Recorded) ?_ ?_ ?_ ?_ ?_ hx
  · have hnone : (Scene.start settings now s).correlated {} = [] := by
      rcases (started_assemble settings now s).correlator with hc | hc <;>
        simp [correlated, Scene.start, hc, Correlator.settled]
    intro e he
    exact absurd (hnone ▸ he) List.not_mem_nil
  · intro x y l _ h hm ha _ e he marker hmark hb
    have hsame : y.correlated l = x.correlated l := correlated_of_apart ha l
    exact (h e (hsame ▸ he) marker hmark hb).imp_right ((HandoverAux.forward_move hm).holds _)
  · intro x l v v' d t _ h hv ht e he marker hmark hb
    exact (h e he marker hmark hb).imp_right (ht.forward.holds _)
  · intro x l n r r' c t _ h _ ht e he marker hmark hb
    exact (h e he marker hmark hb).imp_right fun hh => by simpa only [advance, ht.counted.store] using hh
  · intro x l c c' m d t hl h hc ht
    exact recorded_correlator h (carrying_noted hl) hc ht

end

/-- However a run goes and wherever it stops, whether the tasks are told to or not: the envelopes of a partition that the
correlator is through with are those of its messages in the order of their offsets, from where the reader started. The stored
cursor is not past them. The cursors written increase, from the stored one on, and the last one is stored. Of each of these
messages that decodes to a marker whose GTID is not blank, the transaction is in the store, unless its upsert failed. The topics
are different, or the configuration is refused (`ConfigFault.sameTopics`). -/
theorem marker_cursor_safe (ok : Services → Prop) (settings : PipelineSettings) (now : Nat) (s : Services) {x : Scene}
    {l : Ledger} (hne : settings.rowChangeTopic ≠ settings.markerTopic) (hx : Noted ok (.start settings now s) x l)
    {p : Int} (hp : 0 ≤ p) :
    (∃ ms, x.services.queue.Ahead settings.markerTopic p (markerOrigin settings s p) ms ∧
      l.passed.filter (·.partition == p) = ms.map (·.toEnvelope.1) ∧
      (∀ n, x.services.cursors.stored settings.markerTopic p = some n →
        n ≤ (markerOrigin settings s p + ms.length : Nat)) ∧
      ∀ m ∈ ms, ∀ marker, Marker.decode m.payload = .ok marker → Text.blank marker.gtid = false →
        m.toEnvelope.1 ∉ l.missed → x.services.store.Holds marker.gtid) ∧
    (l.cursors settings.markerTopic s p).Pairwise (· < ·) ∧
    x.services.cursors.stored settings.markerTopic p = (l.cursors settings.markerTopic s p).getLast? := by
  have hmarked := marked_noted hne hp hx
  have hpassed := (carrying_noted hx).conveyed.of_prefix (List.prefix_append _ _)
  obtain ⟨ms, ha, hf⟩ := hpassed p
  refine ⟨⟨ms, ha, hf, ?_, ?_⟩, hmarked.increasing, hmarked.stored⟩
  · intro n hn
    have hlen : ms.length = Envelope.countOf p l.passed := by
      rw [Envelope.countOf, List.countP_eq_length_filter, hf, List.length_map]
    rw [hlen]
    exact hmarked.bounded n (List.mem_of_getLast? (hmarked.stored.symm.trans hn))
  · intro m hm marker hdec hb hmiss
    have hmem : m.toEnvelope.1 ∈ l.passed := by
      have : m.toEnvelope.1 ∈ l.passed.filter (·.partition == p) := hf ▸ List.mem_map_of_mem hm
      exact (List.mem_filter.1 this).1
    exact (recorded_noted hx _ (List.mem_append_left _ hmem) marker (Message.marker_toEnvelope.2 hdec) hb).resolve_left
      hmiss

namespace SkippedCursor

/-- A message that is no marker, a marker with a blank GTID and one with a GTID; in another partition one more. -/
def services : Services where
  queue := { topics := [("binlog", [[]]), ("tx_info", [
    [Utf8.encode "no marker", Utf8.encode "[\" \",\"c\",3]", Utf8.encode "[\"g\",\"c\",3]"],
    [Utf8.encode "[\"h\",\"c\",3]"]])] }

/-- A single lookup for each marker. -/
def settings : PipelineSettings := { correlator := { maxAttempts := 1 } }

/-- The services with cursor writes that fail, or do not. -/
def failing (puts : Bool) (s : Services) : Services := { s with cursors := { s.cursors with failPuts := puts } }

/-- All messages are read; the correlator goes past the one that is no marker. -/
def first : Option Scene :=
  (steps 10 (.feeder 0) ++ steps 4 (.feeder 1) ++ steps 2 .correlator).foldlM after (.start settings 0 services)

/-- The cursor past the blank marker is lost. -/
def second : Option Scene :=
  first.bind fun x => (steps 4 .correlator).foldlM after { x with services := failing true x.services }

/-- The next marker is deferred and its cursor written, and then the run ends with the last marker in hand. -/
def third : Option Scene :=
  second.bind fun x => (steps 8 .correlator).foldlM after { x with services := failing false x.services }

/-- What comes of it: the cursor is past all three messages, and the transaction of the marker among them is in the store. -/
theorem outcome : third.map (fun x => (x.services.cursors.stored "tx_info" 0, x.services.cursors.stored "tx_info" 1,
    x.services.store.transactions.map (·.gtid), x.carried.length)) = some (some 3, none, ["g"], 1) := by
  decide +kernel

/-- The scene at the end. -/
theorem exists_run : ∃ x, Run (fun _ => True) (.start settings 0 services) x ∧
    x.services.cursors.stored "tx_info" 0 = some 3 := by
  obtain ⟨z, hz, he⟩ := Option.map_eq_some_iff.1 outcome
  obtain ⟨y, hy, hyz⟩ := Option.bind_eq_some_iff.1 hz
  obtain ⟨x, hx, hxy⟩ := Option.bind_eq_some_iff.1 hy
  obtain ⟨hs, -⟩ : _ ∧ _ := by simpa only [Prod.mk.injEq] using he
  have hone : Run (fun _ => True) (.start settings 0 services) { x with services := failing true x.services } :=
    (run_of_afters hx).tail (.outside ⟨rfl, rfl, rfl, .rfl, rfl⟩ trivial)
  have htwo : Run (fun _ => True) (.start settings 0 services) { y with services := failing false y.services } :=
    (hone.trans (run_of_afters hxy)).tail (.outside ⟨rfl, rfl, rfl, .rfl, rfl⟩ trivial)
  exact ⟨z, htwo.trans (run_of_afters hyz), hs⟩

end SkippedCursor

/-- A run in which a cursor write fails and the next one does not: three messages are behind the cursor. -/
theorem marker_cursor_safe_skipped : ∃ x l, Noted (fun _ => True) (.start SkippedCursor.settings 0 SkippedCursor.services) x l ∧
    x.services.cursors.stored "tx_info" 0 = some 3 ∧
    (∃ ms, x.services.queue.Ahead "tx_info" 0 0 ms ∧ l.passed.filter (·.partition == 0) = ms.map (·.toEnvelope.1) ∧
      3 ≤ ms.length) ∧
    (l.cursors "tx_info" SkippedCursor.services 0).Pairwise (· < ·) := by
  obtain ⟨x, hr, hs⟩ := SkippedCursor.exists_run
  obtain ⟨l, hl⟩ := exists_noted hr
  obtain ⟨⟨ms, ha, hf, hn, -⟩, hinc, -⟩ := marker_cursor_safe (fun _ => True) SkippedCursor.settings 0
    SkippedCursor.services (by decide) hl (Int.le_refl 0)
  have hle : (3 : Int) ≤ (0 + ms.length : Nat) := hn 3 hs
  exact ⟨x, l, hl, hs, ⟨ms, ha, hf, by omega⟩, hinc⟩

end Pipeline

end AuditTrail
