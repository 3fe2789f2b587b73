import AuditTrail.Proofs.Writer.Progress

/-!
# Where a flush leaves the cursors

A batch that is dropped holds the partitions of its rows and no others (`Traced.held_iff`). From the flush that drops it on the cursor
of such a partition stays where it is (`Run.stored_of_held`), and no dropped row lies behind it. The cursor of any other partition
is just past the highest offset taken in, or still where it was at first, whenever a flush has ended and every cursor that was to be
written has been.

`Scene.Traced` is a run with the scenes from which the writer took its steps. What a step attempts can be read off such a scene.
-/

namespace AuditTrail

/-- The highest offset of a partition among some items. -/
def Intake.highest? (p : Int) (items : List Intake) : Option Int :=
  ((items.filter (·.partition == p)).map (·.offset)).max?

/-- A partition without items has no highest offset. -/
theorem Intake.highest?_eq_none {p : Int} {items : List Intake} :
    highest? p items = none ↔ ∀ i ∈ items, i.partition ≠ p := by
  simp [highest?]

/-- The highest offset of a partition is that of an item, and no other item of the partition has a higher one. -/
theorem Intake.highest?_eq_some {p o : Int} {items : List Intake} (h : highest? p items = some o) :
    (∃ i ∈ items, i.partition = p ∧ i.offset = o) ∧ ∀ i ∈ items, i.partition = p → i.offset ≤ o := by
  obtain ⟨hmem, hmax⟩ := List.max?_eq_some_iff.1 h
  simp only [List.mem_map, List.mem_filter, beq_iff_eq, and_assoc] at hmem hmax
  exact ⟨hmem, fun i hi hip => hmax _ ⟨i, hi, hip, rfl⟩⟩

namespace Writer

/-- The rows of the batch that the next step of the writer drops. -/
def drops (w : Writer) (s : Services) : List StoredChange := ((w.flushes s).filter (!·.stored)).flatMap (·.rows)

namespace Scene

/-! ## Traces -/

/-- A run with the scenes from which the writer took its steps, the first in front. -/
inductive Traced (owned : Int → Prop) (first : Scene) : Scene → List Scene → Prop where
  | start : Traced owned first first []
  | work {x y : Scene} {zs : List Scene} (hx : Traced owned first x zs) (h : x.Work y) : Traced owned first y (zs ++ [x])
  | aside {x y : Scene} {zs : List Scene} (hx : Traced owned first x zs) (h : x.Aside owned y) : Traced owned first y zs

/-- The next step of the writer ends a flush. -/
def EndsFlush (x : Scene) : Prop := (∃ cause, x.writer.phase = .committing cause) ∧ x.writer.pending = []

/-- If the next step of the writer is to write a cursor, it can. -/
def CanPut (x : Scene) : Prop := ∀ e ∈ x.writer.puts, (x.services.cursors.put x.writer.topic e.1 e.2).toBool = true

variable {owned : Int → Prop} {first x y z : Scene} {zs : List Scene} {p : Int}

/-- Every run has its trace. -/
theorem exists_traced (h : Run owned first x) : ∃ zs, Traced owned first x zs := by
  induction h with
  | refl => exact ⟨_, .start⟩
  | tail hr hs ih =>
    obtain ⟨zs, hx⟩ := ih
    rcases hs.work_or_aside with h | h
    · exact ⟨_, hx.work h⟩
    · exact ⟨_, hx.aside h⟩

namespace Traced

/-- A run with its trace is a run. -/
theorem run (h : Traced owned first x zs) : Run owned first x := by
  induction h with
  | start => exact .refl
  | work hx h ih => exact ih.tail h.step
  | aside hx h ih => exact ih.tail h.step

/-- The attempts to store that a run has made are those of its trace. -/
theorem noted (h : Traced owned first x zs) :
    Noted owned (fun _ _ => True) first x (zs.flatMap fun z => z.writer.flushes z.services) := by
  induction h with
  | start => exact .start
  | work hx h ih =>
    obtain ⟨h⟩ := h
    rw [List.flatMap_append, List.flatMap_singleton]
    exact ih.work h
  | aside hx h ih => exact ih.aside h trivial

/-- A scene of a trace is reached by a run, the writer takes a step from there, and the run goes on. -/
theorem of_mem (h : Traced owned first x zs) (hz : z ∈ zs) : ∃ ys y, Traced owned first z ys ∧ Work z y ∧ Run owned y x := by
  induction h with
  | start => exact absurd hz List.not_mem_nil
  | @work x y zs hx h ih =>
    rcases List.mem_append.1 hz with hz | hz
    · obtain ⟨ys, v, hys, hv, hr⟩ := ih hz
      exact ⟨ys, v, hys, hv, hr.tail h.step⟩
    · obtain rfl := List.mem_singleton.1 hz
      exact ⟨zs, y, hx, h, .refl⟩
  | aside hx h ih =>
    obtain ⟨ys, v, hys, hv, hr⟩ := ih hz
    exact ⟨ys, v, hys, hv, hr.tail h.step⟩

end Traced

end Scene

namespace HoldingAux

open AccountingAux SafeAux

variable {senders : Bool} {w w' : Writer} {c c' : Channel Intake} {s s' : Services} {p : Int}

/-- A writer that makes no attempt to store drops nothing. -/
theorem drops_of_idle (h : w.flushes s = []) : w.drops s = [] := by
  rw [drops, h]
  rfl

/-- What is dropped was in the buffer. -/
theorem mem_buffer_of_drops {r : StoredChange} (h : r ∈ w.drops s) : r ∈ w.buffer := by
  obtain ⟨f, hf, hr⟩ := List.mem_flatMap.1 h
  have hf := (List.mem_filter.1 hf).1
  unfold flushes at hf
  split at hf
  · split at hf
    · exact absurd hf List.not_mem_nil
    · obtain rfl := List.mem_singleton.1 hf
      exact hr
  · exact absurd hf List.not_mem_nil

/-- The partitions that are held after a step of the writer are those held before and those of the rows that it dropped. -/
theorem held_iff_turn (ht : Turn senders w c s w' c' s') :
    p ∈ w'.held ↔ p ∈ w.held ∨ ∃ r ∈ w.drops s, r.partition = p := by
  cases ht with
  | take hp hc =>
    rw [held_take, drops_of_idle (flushes_eq_nil (by simp [hp]))]
    simp
  | pass hp hb =>
    rw [drops_of_idle (flushes_of_empty hb)]
    simp
  | store hp hb hi =>
    have hdrops : w.drops s = [] := by
      rw [drops, flushes_of_storing hp hb, hi]
      rfl
    rw [hdrops]
    simp
  | drop hp hb hi =>
    have hdrops : w.drops s = w.buffer := by
      rw [drops, flushes_of_storing hp hb, hi]
      exact List.append_nil _
    rw [hdrops]
    exact mem_hold
  | _ =>
    rw [drops_of_idle (flushes_eq_nil (by simp_all))]
    simp

/-- Writing a cursor leaves those of other partitions as they are. -/
theorem stored_putCursor_of_ne (s : Services) (topic : String) {q : Int} (n : Int) (h : p ≠ q) :
    (s.putCursor topic q n).cursors.stored topic p = s.cursors.stored topic p := by
  cases hf : s.cursors.failPuts with
  | true => rw [Services.putCursor_of_fail hf, Services.record_cursors]
  | false =>
    rw [Services.putCursor_of_ok hf]
    exact Cursors.stored_set_partition _ _ _ h

/-- A step after which a partition is held leaves its cursor where it is. -/
theorem stored_turn (ht : Turn senders w c s w' c' s') (hp : p ∈ w'.held) :
    s'.cursors.stored w.topic p = s.cursors.stored w.topic p := by
  cases ht with
  | store _ _ hi => rfl
  | put _ _ hh => exact stored_putCursor_of_ne s _ _ fun e => hh (e ▸ hp)
  | _ => rfl

/-- Nothing is pending after a step of the writer that ends a flush. -/
theorem pending_of_ends {x y : Scene} (h : x.Work y) (he : x.EndsFlush) : y.writer.pending = [] := by
  obtain ⟨hw⟩ := h
  obtain ⟨⟨cause, hp⟩, hq⟩ := he
  cases turn_of_step hw with
  | resume ticker _ hq _ => exact hq
  | stop _ hq => exact hq
  | skip _ hq' _ => exact absurd (hq.symm.trans hq') (by simp)
  | put _ hq' _ => exact absurd (hq.symm.trans hq') (by simp)
  | _ => simp_all

end HoldingAux

open HoldingAux ProgressAux

variable {owned : Int → Prop} {settings : WriterSettings} {topic : String} {now capacity : Nat} {s : Services}
  {first x y z : Scene} {zs : List Scene} {taken : List Intake} {p : Int}

/-- A partition that is held stays so on every run, and its cursor stays where it is. -/
theorem Scene.Run.stored_of_held (h : Scene.Run owned x y) (hown : owned p) (hp : p ∈ x.writer.held) :
    p ∈ y.writer.held ∧ y.services.cursors.stored x.writer.topic p = x.services.cursors.stored x.writer.topic p := by
  induction h with
  | refl => exact ⟨hp, rfl⟩
  | @tail y z hr hs ih =>
    obtain ⟨hheld, hstored⟩ := ih
    have htopic : y.writer.topic = x.writer.topic := Scene.Run.topic hr
    cases hs with
    | work hw =>
      have ht := turn_of_step hw
      have hheld' := (held_iff_turn ht).2 (Or.inl hheld)
      exact ⟨hheld', (htopic ▸ stored_turn ht hheld').trans hstored⟩
    | others hu => exact ⟨hheld, (htopic ▸ hu.cursors p hown).trans hstored⟩
    | _ => exact ⟨hheld, hstored⟩

namespace Scene.Traced

/-- The partitions that are held are those of the rows that were dropped, besides those held at first. -/
theorem held_iff (h : Traced owned first x zs) :
    p ∈ x.writer.held ↔ p ∈ first.writer.held ∨ ∃ z ∈ zs, ∃ r ∈ z.writer.drops z.services, r.partition = p := by
  induction h with
  | start => simp
  | work hx h ih =>
    obtain ⟨h⟩ := h
    simp only [held_iff_turn (turn_of_step h), ih, List.mem_append, List.mem_singleton, or_and_right, exists_or,
      exists_eq_left, or_assoc]
  | aside hx h ih => cases h <;> exact ih

/-- Nothing is pending right after a flush. -/
theorem pending_of_ended (h : Traced owned first x zs) (hz : z ∈ zs.getLast?) (he : z.EndsFlush) : x.writer.pending = [] := by
  induction h with
  | start => exact absurd hz (by simp)
  | work hx h ih =>
    rw [List.getLast?_concat] at hz
    obtain rfl := Option.some.inj hz
    exact pending_of_ends h he
  | aside hx h ih => cases h <;> exact ih hz

/-- As long as every cursor can be written that is to be, an item of a partition that the writer owns waits in the channel or is
tracked. -/
theorem waits_or_tracked (h : Traced owned (.start settings topic now capacity s) x zs) (hputs : ∀ z ∈ zs, z.CanPut)
    (hord : Ordered x.accepted) (hlow : ∀ i ∈ x.accepted, ∀ n, s.cursors.stored topic i.partition = some n → n ≤ i.offset)
    {i : Intake} (hi : i ∈ x.accepted) (hown : owned i.partition) : i ∈ x.channel.items ∨ Tracked x.writer x.services i := by
  induction h with
  | start => exact absurd hi List.not_mem_nil
  | @work x y zs hx h ih =>
    obtain ⟨h⟩ := h
    have hput : x.writer.puts ≠ [] → x.services.cursors.failPuts = false := by
      intro hne
      obtain ⟨e, he⟩ := List.exists_mem_of_ne_nil _ hne
      have hcan := hputs x (by simp) e he
      by_contra hfail
      rw [Cursors.put, if_pos (by simpa using hfail)] at hcan
      exact absurd hcan (by decide)
    obtain ⟨taken, hsafe⟩ := safe_run (safe_start owned settings topic now capacity s) hx.run hord
    exact waits_or_tracked_turn hsafe hlow hput hown (turn_of_step h)
      (ih (fun z hz => hputs z (List.mem_append_left _ hz)) hord hlow hi)
  | aside hx h ih =>
    cases h with
    | send hs hc =>
      obtain ⟨-, rfl⟩ := Channel.attempt_sent hc
      rw [Channel.items_push]
      rcases List.mem_append.1 hi with hi | hi
      · have hold := ih hputs (List.pairwise_append.1 hord).1 (fun i hi => hlow i (List.mem_append_left _ hi)) hi
        exact hold.imp_left (List.mem_append_left _)
      · exact Or.inl (List.mem_append_right _ hi)
    | join hc =>
      obtain ⟨-, rfl⟩ := Channel.attempt_joined hc
      exact ih hputs hord hlow hi
    | leave sender => exact ih hputs hord hlow hi
    | release => exact ih hputs hord hlow hi
    | others hu => exact (ih hputs hord hlow hi).imp_right (tracked_others hu hown)

/-- From the flush that drops a row on the cursor of its partition stays where it was before this flush. -/
theorem stored_of_dropped (h : Traced owned first x zs) (hz : z ∈ zs) {r : StoredChange}
    (hr : r ∈ z.writer.drops z.services) (hown : owned r.partition) :
    x.services.cursors.stored first.writer.topic r.partition = z.services.cursors.stored first.writer.topic r.partition := by
  obtain ⟨ys, y, hys, hwork, hrest⟩ := h.of_mem hz
  have htopic : z.writer.topic = first.writer.topic := hys.run.topic
  obtain ⟨hw⟩ := hwork
  have ht := turn_of_step hw
  have hheld := (held_iff_turn ht).2 (Or.inr ⟨r, hr, rfl⟩)
  have hlater := (hrest.stored_of_held hown hheld).2
  rw [ht.topic, htopic] at hlater
  exact hlater.trans (htopic ▸ stored_turn ht hheld)

/-- A row that is dropped does not lie behind the cursor of its partition. -/
theorem le_of_dropped (h : Traced owned (.start settings topic now capacity s) x zs) (hord : Ordered x.accepted)
    (hlow : ∀ i ∈ x.accepted, ∀ n, s.cursors.stored topic i.partition = some n → n ≤ i.offset) {r : StoredChange}
    (hown : owned r.partition) (hr : r ∈ x.writer.drops x.services) {n : Int}
    (hn : x.services.cursors.stored topic r.partition = some n) : n ≤ r.offset := by
  obtain ⟨taken, hsafe⟩ := safe_run (safe_start owned settings topic now capacity s) h.run hord
  have hbooked := booked_noted (booked_start settings topic now capacity s) h.noted
  obtain ⟨haccepted, hfree⟩ := hbooked.of_mem_buffer hord (mem_buffer_of_drops hr)
  by_contra hlt
  exact hfree (hsafe.batched_of_lt hord hlow hown hn haccepted (by omega))

end Scene.Traced

/-- A cursor that is past every item that was taken in of its partition is just past them, and still where it was at first if there
are none. -/
theorem Safe.stored_eq (h : Safe owned s topic x taken)
    (hlow : ∀ i ∈ x.accepted, ∀ n, s.cursors.stored topic i.partition = some n → n ≤ i.offset)
    (hkeep : s.cursors.stored topic p ≠ none → x.services.cursors.stored topic p ≠ none) (hown : owned p)
    (hpast : ∀ i ∈ taken, i.partition = p → ∃ n, x.services.cursors.stored topic p = some n ∧ i.offset < n) :
    x.services.cursors.stored topic p = ((Intake.highest? p taken).map (· + 1)).or (s.cursors.stored topic p) := by
  cases hhigh : Intake.highest? p taken with
  | none =>
    rw [Option.map_none, Option.none_or]
    have hnone := Intake.highest?_eq_none.1 hhigh
    cases hn : x.services.cursors.stored topic p with
    | none =>
      by_contra hsome
      exact hkeep (Ne.symm hsome) hn
    | some n =>
      rcases h.cursors p n hown hn with hfirst | hwritten
      · exact hfirst.symm
      · obtain ⟨i, hi, hip, -⟩ := h.written _ hwritten
        exact absurd hip (hnone i hi)
  | some o =>
    rw [Option.map_some, Option.some_or]
    obtain ⟨⟨i, hi, hip, rfl⟩, hmax⟩ := Intake.highest?_eq_some hhigh
    obtain ⟨n, hn, hlt⟩ := hpast i hi hip
    rcases h.cursors p n hown hn with hfirst | hwritten
    · have hle := hlow i (h.accepted ▸ List.mem_append_left _ hi) n (hip ▸ hfirst)
      omega
    · obtain ⟨j, hj, hjp, hjo⟩ := h.written _ hwritten
      have hle := hmax j hj hjp
      rw [hn]
      exact congrArg some (by simp only at hjo; omega)

/-- On every run of the writer, under any failures of its inserts, a flush leaves each cursor as far as it may get. Right after a
flush the cursor of a partition of which no row has been dropped is just past the highest offset taken in, or where it was at first if
there is none. From the flush that drops a row of a partition on the cursor stays where it was before this flush, and the row does
not lie behind it. The senders keep the offsets of every partition increasing and do not go back behind its cursor; every cursor that
the writer is to write can be written. -/
theorem cursor_held_or_past (owned : Int → Prop) (settings : WriterSettings) (topic : String) (now capacity : Nat) (s : Services)
    {x : Scene} {zs : List Scene} (h : Scene.Traced owned (.start settings topic now capacity s) x zs)
    (hputs : ∀ z ∈ zs, z.CanPut) (hord : Ordered x.accepted)
    (hlow : ∀ i ∈ x.accepted, ∀ n, s.cursors.stored topic i.partition = some n → n ≤ i.offset) :
    ∃ taken, x.accepted = taken ++ x.channel.items ∧
      (∀ p, owned p → (∀ z ∈ zs, ∀ r ∈ z.writer.drops z.services, r.partition ≠ p) →
        (∃ z ∈ zs.getLast?, z.EndsFlush) →
        x.services.cursors.stored topic p = ((Intake.highest? p taken).map (· + 1)).or (s.cursors.stored topic p)) ∧
      ∀ z ∈ zs, ∀ r ∈ z.writer.drops z.services, owned r.partition →
        x.services.cursors.stored topic r.partition = z.services.cursors.stored topic r.partition ∧
        ∀ n, x.services.cursors.stored topic r.partition = some n → n ≤ r.offset := by
  obtain ⟨taken, hsafe⟩ := safe_run (safe_start owned settings topic now capacity s) h.run hord
  refine ⟨taken, hsafe.accepted, ?_, ?_⟩
  · rintro p hown hfree ⟨z, hz, hends⟩
    have hpending := h.pending_of_ended hz hends
    have hheld : p ∉ x.writer.held := by
      intro hp
      rcases h.held_iff.1 hp with hp | ⟨z, hz, r, hr, hrp⟩
      · exact absurd hp List.not_mem_nil
      · exact hfree z hz r hr hrp
    refine hsafe.stored_eq hlow (h.run.keepsCursor hown) hown ?_
    rintro i hi rfl
    have hacc : i ∈ x.accepted := hsafe.accepted ▸ List.mem_append_left _ hi
    rcases h.waits_or_tracked hputs hord hlow hacc hown with hwait | hp | ⟨e, he, -⟩ | hcursor
    · exact absurd (SafeAux.lt_of_ordered (hsafe.accepted ▸ hord) hi hwait rfl) (Int.lt_irrefl _)
    · exact absurd hp hheld
    · exact absurd (hpending ▸ he) List.not_mem_nil
    · exact hsafe.ofTopic ▸ hcursor
  · intro z hz r hr hown
    have hstays := h.stored_of_dropped hz hr hown
    refine ⟨hstays, ?_⟩
    intro n hn
    obtain ⟨ys, y, hys, hwork, hrest⟩ := h.of_mem hz
    have hstep : Scene.Step owned z y := hwork.step
    have hbefore : z.accepted <+: x.accepted := hstep.accepted_prefix.trans hrest.accepted_prefix
    exact hys.le_of_dropped (hord.sublist hbefore.sublist) (fun i hi => hlow i (hbefore.subset hi)) hown hr (hstays ▸ hn)

namespace Scene

instance (x : Scene) : Decidable x.CanPut :=
  inferInstanceAs (Decidable (∀ e ∈ x.writer.puts, (x.services.cursors.put x.writer.topic e.1 e.2).toBool = true))

/-- The scene after something has happened, with the trace until then. -/
def afterTraced (p : Scene × List Scene) (e : Happening) : Option (Scene × List Scene) :=
  (p.1.after e).map fun y =>
    (y, match e with
      | .work _ _ => p.2 ++ [p.1]
      | _ => p.2)

/-- Whatever happens one after the other makes a run with its trace. -/
theorem traced_of_afters {es : List Happening} {ys : List Scene} (hx : Traced owned first x zs)
    (h : es.foldlM afterTraced (x, zs) = some (y, ys)) : Traced owned first y ys := by
  induction es generalizing x zs with
  | nil =>
    obtain ⟨rfl, rfl⟩ := Prod.mk.inj (Option.some.inj h)
    exact hx
  | cons e es ih =>
    obtain ⟨p, hp, hy⟩ := Option.bind_eq_some_iff.1 h
    obtain ⟨z, hz, rfl⟩ := Option.map_eq_some_iff.1 hp
    cases e with
    | work attention now => exact ih (hx.work (work_of_after hz)) hy
    | send sender item => exact ih (hx.aside (aside_of_send hz)) hy
    | release => exact ih (hx.aside (aside_of_release hz)) hy
    | fail inserts puts => exact ih (hx.aside (aside_of_fail hz)) hy

end Scene

/-- A run on which the first batch is dropped and later ones are stored, and which ends with a tick when the buffer is empty. The
partition of the dropped row keeps the cursor that was there at first, though a later row of it is stored; that of another row goes
past this row, and that of an offset that was skipped past this offset. -/
theorem cursor_held_or_past_dropped_stored_skipped :
    let row (p o : Int) : StoredChange := .ofEvent ⟨"d", "t", .insert, "g", ⟨0, 0⟩, .none⟩ p o ⟨0, 0⟩
    let s : Services := { cursors := Cursors.set {} "binlog" 0 3 }
    ∃ x zs, Scene.Traced (fun _ => True) (.start { batchSize := 1 } "binlog" 0 4 s) x zs ∧
      x.accepted = [.row (row 0 3), .row (row 1 0), .row (row 0 4), .skip 2 7] ∧
      x.services.store.rows = [row 1 0, row 0 4] ∧ x.services.cursors.stored "binlog" 0 = some 3 ∧
      x.services.cursors.stored "binlog" 1 = some 1 ∧ x.services.cursors.stored "binlog" 2 = some 8 := by
  intro row s
  let send (item : Intake) : List Scene.Happening := [.send .caller item, .send .caller item]
  let flush : List Scene.Happening := List.replicate 4 (.work .intake 0)
  let events : List Scene.Happening :=
    send (.row (row 0 3)) ++ [.work .intake 0, .fail true false, .work .intake 0, .work .intake 0, .work .intake 0,
      .fail false false] ++ send (.row (row 1 0)) ++ flush ++ send (.row (row 0 4)) ++ flush ++ send (.skip 2 7) ++
      [.work .intake 0, .work .ticker 1000, .work .intake 1000, .work .intake 1000, .work .intake 1000]
  let first : Scene := .start { batchSize := 1 } "binlog" 0 4 s
  obtain ⟨⟨x, zs⟩, hx⟩ : ∃ p, events.foldlM Scene.afterTraced (first, []) = some p :=
    Option.isSome_iff_exists.1 (by decide +kernel)
  have h : Scene.Traced (fun _ => True) first x zs := Scene.traced_of_afters .start hx
  have hlog : (events.foldlM Scene.afterTraced (first, [])).all (fun p => decide (
      p.1.accepted = [.row (row 0 3), .row (row 1 0), .row (row 0 4), .skip 2 7] ∧ p.1.channel.items = [] ∧
        p.1.services.store.rows = [row 1 0, row 0 4] ∧ (∀ z ∈ p.2, z.CanPut) ∧
        (p.2.flatMap fun z => z.writer.drops z.services) = [row 0 3] ∧
        (∀ z ∈ p.2, z.writer.drops z.services ≠ [] → z.services.cursors.stored "binlog" 0 = some 3) ∧
        ∃ z ∈ p.2.getLast?, z.writer.phase = .committing .tick ∧ z.writer.pending = [])) = true := by
    decide +kernel
  rw [hx] at hlog
  obtain ⟨hacc, hitems, hrows, hputs, hdrops, hthree, z, hz, hphase, hpending⟩ := of_decide_eq_true hlog
  have hord : Ordered x.accepted := by rw [hacc]; simp [Ordered, row, Intake.partition, Intake.offset, StoredChange.ofEvent]
  have hlow : ∀ i ∈ x.accepted, ∀ n, s.cursors.stored "binlog" i.partition = some n → n ≤ i.offset := by
    rw [hacc]
    decide +kernel
  obtain ⟨taken, htaken, hpast, hheld⟩ := cursor_held_or_past (fun _ => True) _ _ _ _ _ h hputs hord hlow
  rw [hitems, List.append_nil, hacc] at htaken
  subst htaken
  have hlost : ∀ z ∈ zs, ∀ r ∈ z.writer.drops z.services, r = row 0 3 := by
    intro z hz r hr
    have hmem : r ∈ zs.flatMap fun z => z.writer.drops z.services := List.mem_flatMap.2 ⟨z, hz, hr⟩
    rw [hdrops] at hmem
    exact List.mem_singleton.1 hmem
  have hends : ∃ z ∈ zs.getLast?, z.EndsFlush := ⟨z, hz, ⟨_, hphase⟩, hpending⟩
  refine ⟨x, zs, h, hacc, hrows, ?_, ?_, ?_⟩
  · obtain ⟨y, hy, hr⟩ : ∃ y ∈ zs, row 0 3 ∈ y.writer.drops y.services := by
      refine List.mem_flatMap.1 ?_
      rw [hdrops]
      exact List.mem_singleton_self _
    exact (hheld y hy _ hr trivial).1.trans (hthree y hy (List.ne_nil_of_mem hr))
  · exact hpast 1 trivial (fun z hz r hr => hlost z hz r hr ▸ by decide) hends
  · exact hpast 2 trivial (fun z hz r hr => hlost z hz r hr ▸ by decide) hends

end Writer

end AuditTrail
