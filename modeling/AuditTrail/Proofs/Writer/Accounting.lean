import AuditTrail.Proofs.Record
import AuditTrail.Proofs.Writer.CursorSafety

/-!
# Where the rows go that the writer accepts

A row that is accepted waits in the channel, then in the buffer, and is then in one batch that the writer tries to store. The
batches, the buffer and the channel, one after the other, are the rows in the order in which they were accepted: whatever brings a
flush about, and whether its insert succeeds or not (`Booked`). The rows of each batch are counted once, as flushed or as dropped
(`rowCounts_noted`). A scene keeps only the batches that were stored; `Scene.Noted` is a run with all that the writer tried to store.
-/

namespace AuditTrail

/-- The row of an item, if it has one. -/
def Intake.row? : Intake → Option StoredChange
  | .row r => some r
  | .skip _ _ => none

/-- The rows among some items, in their order. -/
def Intake.rowsOf (items : List Intake) : List StoredChange := items.filterMap Intake.row?

@[simp] theorem Intake.rowsOf_nil : rowsOf [] = [] := rfl

@[simp] theorem Intake.rowsOf_append (items more : List Intake) : rowsOf (items ++ more) = rowsOf items ++ rowsOf more :=
  List.filterMap_append

/-- The rows of a partition are those of its items. -/
theorem Intake.filter_rowsOf (p : Int) (items : List Intake) :
    (rowsOf items).filter (·.partition == p) = rowsOf (items.filter (·.partition == p)) := by
  have hitem : (fun i : Intake => i.row?.filter (·.partition == p)) = fun i => if i.partition == p then i.row? else none := by
    funext i
    cases i with
    | row r => by_cases hp : r.partition = p <;> simp [row?, Intake.partition, hp]
    | skip q o => simp [row?]
  rw [rowsOf, rowsOf, List.filter_filterMap, List.filterMap_filter, hitem]

theorem Intake.mem_rowsOf {items : List Intake} {r : StoredChange} : r ∈ rowsOf items ↔ Intake.row r ∈ items := by
  rw [rowsOf, List.mem_filterMap]
  constructor
  · rintro ⟨i, hi, hr⟩
    cases i with
    | row r' => exact Option.some.inj hr ▸ hi
    | skip p o => exact absurd hr (by simp [row?])
  · intro h
    exact ⟨_, h, rfl⟩

/-- Where the offsets of every partition increase, no two rows have the same place. -/
theorem nodup_places {items : List Intake} (h : Writer.Ordered items) :
    ((Intake.rowsOf items).map StoredChange.place).Nodup := by
  refine List.pairwise_map.2 (List.pairwise_filterMap.2 (h.imp ?_))
  intro i j hij r hr r' hr' hplace
  cases i with
  | skip p o => exact absurd hr (by simp [Intake.row?])
  | row q =>
    cases j with
    | skip p o => exact absurd hr' (by simp [Intake.row?])
    | row q' =>
      obtain rfl := Option.some.inj hr
      obtain rfl := Option.some.inj hr'
      obtain ⟨hp, ho⟩ := Prod.mk.inj hplace
      have hlt : q.offset < q'.offset := hij hp
      omega

namespace Writer

/-- An attempt to store a batch. -/
structure Flush where
  rows : List StoredChange
  /-- Whether the insert succeeded. -/
  stored : Bool
  deriving DecidableEq

/-- The attempt to store a batch that the next step of the writer makes. -/
def flushes (w : Writer) (s : Services) : List Flush :=
  match w.phase with
  | .storing _ => if w.buffer.isEmpty then [] else [⟨w.buffer, (s.store.insert w.buffer).toBool⟩]
  | _ => []

/-- How many rows were in the attempts that ended in one way. -/
def rowsIn (stored : Bool) (fs : List Flush) : Nat := ((fs.filter (·.stored == stored)).flatMap (·.rows)).length

namespace Scene

/-- A run of the writer with the attempts to store that it has made. Others change the services as `ok` allows. -/
inductive Noted (owned : Int → Prop) (ok : Services → Services → Prop) (first : Scene) : Scene → List Flush → Prop where
  | start : Noted owned ok first first []
  | work {x : Scene} {fs : List Flush} {attention : Attention} {now : Nat} {w : Writer} {c : Channel Intake} {s : Services}
      (hx : Noted owned ok first x fs)
      (h : x.writer.step attention now x.handles x.channel x.services = some (w, c, s)) :
      Noted owned ok first { x with
        writer := w, channel := c, services := s
        batches := x.batches ++ x.writer.stores x.services
        written := x.written ++ x.writer.writes x.services } (fs ++ x.writer.flushes x.services)
  | send {x : Scene} {fs : List Flush} {sender : Sender} {item : Intake} {c : Channel Intake}
      (hx : Noted owned ok first x fs) (hs : x.handles = true) (h : x.channel.attempt sender item = .sent c) :
      Noted owned ok first { x with channel := c, accepted := x.accepted ++ [item] } fs
  | join {x : Scene} {fs : List Flush} {sender : Sender} {item : Intake} {c : Channel Intake}
      (hx : Noted owned ok first x fs) (h : x.channel.attempt sender item = .joined c) :
      Noted owned ok first { x with channel := c } fs
  | leave {x : Scene} {fs : List Flush} (sender : Sender) (hx : Noted owned ok first x fs) :
      Noted owned ok first { x with channel := x.channel.leave sender } fs
  | release {x : Scene} {fs : List Flush} (hx : Noted owned ok first x fs) :
      Noted owned ok first { x with handles := false } fs
  | others {x : Scene} {fs : List Flush} {t : Services} (hx : Noted owned ok first x fs)
      (h : Undisturbed owned x.writer.topic x.services t) (hok : ok x.services t) :
      Noted owned ok first { x with services := t } fs

variable {owned : Int → Prop} {ok : Services → Services → Prop} {first x y : Scene} {fs : List Flush}

/-- A step that the writer does not take adds no attempt. -/
theorem Noted.aside (hx : Noted owned ok first x fs) (h : Aside owned x y) (hok : ok x.services y.services) :
    Noted owned ok first y fs := by
  cases h with
  | send hs h => exact hx.send hs h
  | join h => exact hx.join h
  | leave sender => exact hx.leave sender
  | release => exact hx.release
  | others h => exact hx.others h hok

/-- Every run has its attempts, if others may do what they like. -/
theorem exists_noted (h : Run owned first x) : ∃ fs, Noted owned (fun _ _ => True) first x fs := by
  induction h with
  | refl => exact ⟨_, .start⟩
  | tail hr hs ih =>
    obtain ⟨fs, hx⟩ := ih
    rcases hs.work_or_aside with h | h
    · obtain ⟨h⟩ := h
      exact ⟨_, hx.work h⟩
    · exact ⟨_, hx.aside h trivial⟩

/-- A run with its attempts is a run. -/
theorem Noted.run (h : Noted owned ok first x fs) : Run owned first x := by
  induction h with
  | start => exact .refl
  | work hx h ih => exact ih.tail (.work h)
  | send hx hs h ih => exact ih.tail (.send hs h)
  | join hx h ih => exact ih.tail (.join h)
  | leave sender hx ih => exact ih.tail (.leave sender)
  | release hx ih => exact ih.tail .release
  | others hx h hok ih => exact ih.tail (.others h)

end Scene

/-- Where the rows are that a writer has accepted, with the attempts to store that it has made. -/
structure Booked (settings : WriterSettings) (x : Scene) (fs : List Flush) : Prop where
  ofSettings : x.writer.settings = settings
  rows : fs.flatMap (·.rows) ++ x.writer.buffer ++ Intake.rowsOf x.channel.items = Intake.rowsOf x.accepted
  sizes : ∀ f ∈ fs, f.rows ≠ [] ∧ f.rows.length ≤ max 1 settings.batchSize
  bounded : x.writer.buffer.length ≤ max 1 settings.batchSize
  room : x.writer.phase = .taking → x.writer.buffer.length < max 1 settings.batchSize
  emptied : ∀ cause, x.writer.phase = .committing cause → x.writer.buffer = []
  stopped : x.writer.phase = .stopped → x.writer.buffer = []
  closing : Closing x.writer → x.handles = false ∧ x.channel.items = []
  batches : x.batches = (fs.filter (·.stored)).map (·.rows)

/-- The same numbers of rows are counted as flushed and as dropped. -/
def SameRowCounts (s t : Services) : Prop :=
  t.metrics.counts.rowsFlushed = s.metrics.counts.rowsFlushed ∧ t.metrics.counts.rowsDropped = s.metrics.counts.rowsDropped

namespace AccountingAux

variable {settings : WriterSettings} {x : Scene} {fs : List Flush} {w : Writer} {c : Channel Intake} {s : Services}

/-- A writer that is not about to store makes no attempt to. -/
theorem flushes_eq_nil (h : ∀ cause, w.phase ≠ .storing cause) : w.flushes s = [] := by
  unfold flushes
  split
  · rename_i cause hp
    exact absurd hp (h cause)
  · rfl

/-- A writer with an empty buffer makes no attempt to store. -/
theorem flushes_of_empty (hb : w.buffer = []) : w.flushes s = [] := by
  unfold flushes
  split
  · rw [hb]
    rfl
  · rfl

/-- A writer that is about to store, and has something to, tries to. -/
theorem flushes_of_storing {cause : FlushCause} (hp : w.phase = .storing cause) (hb : w.buffer ≠ []) :
    w.flushes s = [⟨w.buffer, (s.store.insert w.buffer).toBool⟩] := by
  simp only [flushes, hp, List.isEmpty_iff, hb, if_false]

/-- The batches that a step stores are those of its attempts that succeed. -/
theorem stores_eq_flushes (w : Writer) (s : Services) : w.stores s = ((w.flushes s).filter (·.stored)).map (·.rows) := by
  by_cases hn : ∀ cause, w.phase ≠ .storing cause
  · rw [stores_eq_nil hn, flushes_eq_nil hn]
    rfl
  obtain ⟨cause, hp⟩ := not_forall_not.1 hn
  by_cases hb : w.buffer = []
  · rw [stores_of_empty hb, flushes_of_empty hb]
    rfl
  rw [flushes_of_storing hp hb]
  cases hi : s.store.insert w.buffer with
  | ok t =>
    rw [stores_of_ok hp hb hi]
    rfl
  | error e =>
    rw [stores_of_error hi]
    rfl

/-- What an item adds to the buffer, in order. -/
theorem buffer_take (w : Writer) (item : Intake) : (w.take item).buffer = w.buffer ++ Intake.rowsOf [item] := by
  cases item with
  | row r => rfl
  | skip p o => exact (List.append_nil _).symm

/-- A writer that goes on taking in after an item has room in its buffer, and one that does not is at its limit. -/
theorem room_take {n : Nat} (item : Intake) (hn : w.settings.batchSize = n) (h : w.buffer.length < max 1 n) :
    (w.take item).buffer.length ≤ max 1 n ∧
      ((w.take item).phase = .taking → (w.take item).buffer.length < max 1 n) := by
  cases item with
  | skip p o => exact ⟨Nat.le_of_lt h, fun _ => h⟩
  | row r =>
    have hlen : (w.buffer ++ [r]).length = w.buffer.length + 1 := List.length_append
    simp only [take, hn, hlen]
    refine ⟨h, ?_⟩
    intro hp
    split at hp
    · exact absurd hp (by simp)
    · rename_i hlt
      omega

/-- Taking an item in keeps the account. -/
theorem booked_take {item : Intake} {rest : List Intake} (h : Booked settings x fs) (hp : x.writer.phase = .taking)
    (hc : x.channel.items = item :: rest) :
    Booked settings { x with writer := x.writer.take item, channel := { x.channel with items := rest } } fs := by
  have hroom := room_take item (congrArg (·.batchSize) h.ofSettings) (h.room hp)
  have hphase := phase_take hp item
  refine
    { h with
      ofSettings := ?_
      rows := ?_
      bounded := hroom.1
      room := hroom.2
      emptied := ?_
      stopped := ?_
      closing := ?_ }
  · cases item <;> exact h.ofSettings
  · have hsplit : x.channel.items = [item] ++ rest := hc
    rw [← h.rows, hsplit, Intake.rowsOf_append, buffer_take]
    simp only [List.append_assoc]
  · intro cause hcause
    rcases hphase with hph | hph <;> simp [hph] at hcause
  · intro hst
    rcases hphase with hph | hph <;> simp [hph] at hst
  · intro hcl
    rcases hphase with hph | hph <;> simp [Closing, hph] at hcl

/-- Going over to another phase keeps the account, if the phase suits the buffer and the channel. -/
theorem booked_phase (phase : Phase) (ticker : Ticker) (pending : List (Int × Int)) (h : Booked settings x fs)
    (hr : phase = .taking → x.writer.buffer.length < max 1 settings.batchSize)
    (he : ∀ cause, phase = .committing cause → x.writer.buffer = []) (hst : phase = .stopped → x.writer.buffer = [])
    (hc : Closing { x.writer with phase := phase } → x.handles = false ∧ x.channel.items = []) :
    Booked settings { x with writer := { x.writer with phase := phase, ticker := ticker, pending := pending } } fs :=
  { h with room := hr, emptied := he, stopped := hst, closing := hc }

/-- An attempt to store keeps the account, however it ends. -/
theorem booked_flush {cause : FlushCause} {held : List Int} (stored : Bool) (h : Booked settings x fs)
    (hp : x.writer.phase = .storing cause) (hb : x.writer.buffer ≠ []) :
    Booked settings { x with
      writer := { x.writer with phase := .committing cause, buffer := [], held := held }
      batches := x.batches ++ if stored then [x.writer.buffer] else [] } (fs ++ [⟨x.writer.buffer, stored⟩]) := by
  refine
    { h with
      rows := ?_
      sizes := ?_
      bounded := Nat.zero_le _
      room := by simp
      emptied := fun _ _ => rfl
      stopped := by simp
      closing := fun hcl => h.closing ?_
      batches := ?_ }
  · rw [← h.rows]
    simp
  · intro f hf
    rcases List.mem_append.1 hf with hf | hf
    · exact h.sizes f hf
    · obtain rfl := List.mem_singleton.1 hf
      exact ⟨hb, h.bounded⟩
  · rcases hcl with hcl | hcl | hcl <;> simp_all [Closing]
  · rw [h.batches, List.filter_append, List.map_append]
    cases stored <;> rfl

/-- A step of the writer in which it does not attempt to store keeps the account. -/
theorem booked_idle (h : Booked settings x fs) (ht : Turn x.handles x.writer x.channel x.services w c s)
    (hn : ∀ cause, x.writer.phase ≠ .storing cause) :
    Booked settings { x with writer := w, channel := c, services := s } fs := by
  cases ht with
  | take hp hc => exact { booked_take h hp hc with }
  | finish hp hc hs => exact { booked_phase _ _ _ h (by simp) (by simp) (by simp) fun _ => ⟨hs, hc⟩ with }
  | tick ticker hp => exact { booked_phase _ ticker _ h (by simp) (by simp) (by simp) (by simp [Closing]) with }
  | pass hp hb => exact absurd hp (hn _)
  | store hp hb hi => exact absurd hp (hn _)
  | drop hp hb hi => exact absurd hp (hn _)
  | skip hp hq hh => exact { h with }
  | put hp hq hh => exact { h with }
  | @resume cause ticker hp hq hc =>
    have hroom : x.writer.buffer.length < max 1 settings.batchSize := by
      rw [h.emptied cause hp, List.length_nil]
      omega
    exact { booked_phase _ ticker _ h (fun _ => hroom) (by simp) (by simp) (by simp [Closing]) with }
  | stop hp hq =>
    obtain ⟨hhandles, hitems⟩ := h.closing (Or.inr (Or.inl hp))
    have hrows := h.rows
    rw [hitems] at hrows
    exact
      { booked_phase .stopped x.writer.ticker x.writer.pending h (by simp) (by simp) (fun _ => h.emptied _ hp)
          (fun _ => ⟨hhandles, hitems⟩) with
        rows := hrows
        closing := fun _ => ⟨hhandles, rfl⟩ }

/-- Every step of the writer keeps the account. -/
theorem booked_turn (h : Booked settings x fs) (ht : Turn x.handles x.writer x.channel x.services w c s) :
    Booked settings { x with
      writer := w, channel := c, services := s
      batches := x.batches ++ x.writer.stores x.services
      written := x.written ++ x.writer.writes x.services } (fs ++ x.writer.flushes x.services) := by
  by_cases hn : ∀ cause, x.writer.phase ≠ .storing cause
  · rw [stores_eq_nil hn, flushes_eq_nil hn, List.append_nil, List.append_nil]
    exact { booked_idle h ht hn with }
  · cases ht with
    | @pass cause hp hb =>
      have hcl : Closing { x.writer with phase := .committing cause } → Closing x.writer := by simp [Closing, hp]
      rw [stores_of_empty hb, flushes_of_empty hb, List.append_nil, List.append_nil]
      exact { booked_phase _ _ _ h (by simp) (fun _ _ => hb) (by simp) fun h' => h.closing (hcl h') with }
    | store hp hb hi =>
      rw [stores_of_ok hp hb hi, flushes_of_storing hp hb, hi]
      exact { booked_flush true h hp hb with }
    | drop hp hb hi =>
      rw [stores_of_error hi, flushes_of_storing hp hb, hi]
      exact { booked_flush false h hp hb with }
    | _ => exact absurd (by simp_all) hn

/-- The rows of one attempt are in the attempts that end as it did. -/
theorem rowsIn_single (stored : Bool) (f : Flush) : rowsIn stored [f] = if f.stored = stored then f.rows.length else 0 := by
  by_cases hf : f.stored = stored <;> simp [rowsIn, hf]

/-- The writer counts the rows of its attempts as flushed or as dropped, and no others. -/
theorem rowCounts_turn {senders : Bool} {w' : Writer} {c' : Channel Intake} {t : Services}
    (ht : Turn senders w c s w' c' t) :
    t.metrics.counts.rowsFlushed = s.metrics.counts.rowsFlushed + rowsIn true (w.flushes s) ∧
      t.metrics.counts.rowsDropped = s.metrics.counts.rowsDropped + rowsIn false (w.flushes s) := by
  cases ht with
  | store hp hb hi =>
    rw [flushes_of_storing hp hb, hi, rowsIn_single, rowsIn_single]
    exact ⟨rfl, rfl⟩
  | drop hp hb hi =>
    rw [flushes_of_storing hp hb, hi, rowsIn_single, rowsIn_single]
    exact ⟨rfl, rfl⟩
  | pass hp hb =>
    rw [flushes_of_empty hb]
    exact ⟨rfl, rfl⟩
  | put hp hq hh =>
    rw [flushes_eq_nil (by simp [hp])]
    cases hf : s.cursors.failPuts with
    | false =>
      rw [Services.putCursor_of_ok hf]
      exact ⟨rfl, rfl⟩
    | true =>
      rw [Services.putCursor_of_fail hf]
      exact ⟨rfl, rfl⟩
  | _ =>
    rw [flushes_eq_nil (by simp_all)]
    exact ⟨rfl, rfl⟩

/-- Attempts that end in one way are counted one after the other. -/
theorem rowsIn_append (stored : Bool) (fs gs : List Flush) : rowsIn stored (fs ++ gs) = rowsIn stored fs + rowsIn stored gs := by
  simp [rowsIn]

end AccountingAux

open AccountingAux

variable {owned : Int → Prop} {ok : Services → Services → Prop} {settings : WriterSettings} {first x : Scene}
  {fs : List Flush}

/-- A writer that starts has accepted nothing. -/
theorem booked_start (settings : WriterSettings) (topic : String) (now capacity : Nat) (s : Services) :
    Booked settings (.start settings topic now capacity s) [] where
  ofSettings := rfl
  rows := rfl
  sizes := by simp
  bounded := Nat.zero_le _
  room := fun _ => Nat.lt_of_lt_of_le Nat.one_pos (Nat.le_max_left _ _)
  emptied := by simp [Scene.start, Writer.start]
  stopped := by simp [Scene.start, Writer.start]
  closing := by simp [Scene.start, Writer.start, Closing]
  batches := rfl

/-- Every run keeps the account. -/
theorem booked_noted (hs : Booked settings first []) (h : Scene.Noted owned ok first x fs) : Booked settings x fs := by
  induction h with
  | start => exact hs
  | work hx hw ih => exact booked_turn ih (turn_of_step hw)
  | @send x fs sender item c hx hh hc ih =>
    obtain ⟨-, rfl⟩ := Channel.attempt_sent hc
    refine { ih with rows := ?_, closing := ?_ }
    · rw [Channel.items_push, Intake.rowsOf_append, Intake.rowsOf_append, ← ih.rows, ← List.append_assoc]
    · intro hcl
      exact absurd (ih.closing hcl).1 (by simp [hh])
  | join hx hc ih =>
    obtain ⟨-, rfl⟩ := Channel.attempt_joined hc
    exact { ih with }
  | leave sender hx ih => exact { ih with }
  | release hx ih => exact { ih with closing := fun hcl => ⟨rfl, (ih.closing hcl).2⟩ }
  | others hx hu hok ih => exact { ih with }

/-- A row that was stored in a batch was accepted. -/
theorem Booked.accepted_of_batched (h : Booked settings x fs) {r : StoredChange} (hr : Batched x.batches r) :
    Intake.row r ∈ x.accepted := by
  obtain ⟨batch, hbatch, hr⟩ := hr
  rw [h.batches] at hbatch
  obtain ⟨f, hf, rfl⟩ := List.mem_map.1 hbatch
  have hmem : r ∈ fs.flatMap (·.rows) := List.mem_flatMap.2 ⟨f, (List.mem_filter.1 hf).1, hr⟩
  rw [← Intake.mem_rowsOf, ← h.rows, List.append_assoc]
  exact List.mem_append_left _ hmem

/-- A row in the buffer was accepted, and is in no batch that was stored. -/
theorem Booked.of_mem_buffer (h : Booked settings x fs) (hord : Ordered x.accepted) {r : StoredChange}
    (hr : r ∈ x.writer.buffer) : Intake.row r ∈ x.accepted ∧ ¬Batched x.batches r := by
  have hrows := h.rows
  have hnodup : (Intake.rowsOf x.accepted).Nodup := (nodup_places hord).of_map
  rw [← hrows] at hnodup
  obtain ⟨-, -, hapart⟩ := List.nodup_append.1 (List.nodup_append.1 hnodup).1
  constructor
  · rw [← Intake.mem_rowsOf, ← hrows]
    exact List.mem_append_left _ (List.mem_append_right _ hr)
  · rintro ⟨batch, hbatch, hmem⟩
    rw [h.batches] at hbatch
    obtain ⟨f, hf, rfl⟩ := List.mem_map.1 hbatch
    exact hapart r (List.mem_flatMap.2 ⟨f, (List.mem_filter.1 hf).1, hmem⟩) r hr rfl

/-- Every run counts the rows of its attempts as flushed or as dropped, as long as others leave these counts alone. -/
theorem rowCounts_noted (h : Scene.Noted owned SameRowCounts first x fs) :
    x.services.metrics.counts.rowsFlushed = first.services.metrics.counts.rowsFlushed + rowsIn true fs ∧
      x.services.metrics.counts.rowsDropped = first.services.metrics.counts.rowsDropped + rowsIn false fs := by
  induction h with
  | start => exact ⟨rfl, rfl⟩
  | work hx hw ih =>
    obtain ⟨hflushed, hdropped⟩ := rowCounts_turn (turn_of_step hw)
    rw [rowsIn_append, rowsIn_append]
    exact ⟨by simp only; omega, by simp only; omega⟩
  | others hx hu hok ih => exact ⟨hok.1.trans ih.1, hok.2.trans ih.2⟩
  | _ => assumption

/-- On every run the rows of the attempts that have succeeded are stored. -/
theorem storedRows_noted (h : Scene.Noted owned ok first x fs) :
    ∀ f ∈ fs, f.stored = true → ∀ r ∈ f.rows, r ∈ x.services.store.rows := by
  induction h with
  | start => simp
  | @work x fs attention now w c s hx hw ih =>
    intro f hf hstored r hr
    rcases List.mem_append.1 hf with hf | hf
    · exact (turn_of_step hw).rows (ih f hf hstored r hr)
    · have hbatch : f.rows ∈ x.writer.stores x.services := by
        rw [stores_eq_flushes]
        exact List.mem_map_of_mem (List.mem_filter.2 ⟨hf, hstored⟩)
      rw [(turn_of_step hw).addsRows]
      exact List.mem_append_right _ (List.mem_flatten_of_mem hbatch hr)
  | others hx hu hok ih =>
    intro f hf hstored r hr
    exact hu.rows r (ih f hf hstored r hr)
  | _ => assumption

/-- Every row of an attempt is counted, as flushed or as dropped. -/
theorem rowsIn_add (fs : List Flush) : rowsIn true fs + rowsIn false fs = (fs.flatMap (·.rows)).length := by
  induction fs with
  | nil => rfl
  | cons f fs ih =>
    have htrue : rowsIn true (f :: fs) = rowsIn true [f] + rowsIn true fs := rowsIn_append true [f] fs
    have hfalse : rowsIn false (f :: fs) = rowsIn false [f] + rowsIn false fs := rowsIn_append false [f] fs
    have hself : rowsIn true [f] + rowsIn false [f] = f.rows.length := by
      cases hf : f.stored <;> simp [rowsIn_single, hf]
    rw [List.flatMap_cons, List.length_append]
    omega

/-- On every run of the writer, whatever brings its flushes about and however its inserts end, the batches that it has tried to
store, its buffer and the rows in its channel are, one after the other, the rows that were accepted: none is lost, none is out of
order, and none is in more attempts than it was accepted. No batch is empty or larger than its limit, which is one at least. The
rows of the attempts that succeeded are stored, and the rows of all attempts are counted as flushed or as dropped, as the insert ended.
A writer that has stopped has nothing left. -/
theorem rows_accounted (owned : Int → Prop) (settings : WriterSettings) (topic : String) (now capacity : Nat) (s : Services)
    {x : Scene} {fs : List Flush}
    (h : Scene.Noted owned SameRowCounts (.start settings topic now capacity s) x fs) :
    fs.flatMap (·.rows) ++ x.writer.buffer ++ Intake.rowsOf x.channel.items = Intake.rowsOf x.accepted ∧
      (∀ f ∈ fs, f.rows ≠ [] ∧ f.rows.length ≤ max 1 settings.batchSize) ∧
      (∀ r, (fs.flatMap (·.rows)).count r ≤ (Intake.rowsOf x.accepted).count r) ∧
      (∀ f ∈ fs, f.stored = true → ∀ r ∈ f.rows, r ∈ x.services.store.rows) ∧
      x.services.metrics.counts.rowsFlushed = s.metrics.counts.rowsFlushed + rowsIn true fs ∧
      x.services.metrics.counts.rowsDropped = s.metrics.counts.rowsDropped + rowsIn false fs ∧
      rowsIn true fs + rowsIn false fs = (fs.flatMap (·.rows)).length ∧
      (x.writer.isStopped = true → x.writer.buffer = [] ∧ x.channel.items = []) := by
  have hbooked := booked_noted (booked_start settings topic now capacity s) h
  obtain ⟨hflushed, hdropped⟩ := rowCounts_noted h
  refine ⟨hbooked.rows, hbooked.sizes, ?_, storedRows_noted h, hflushed, hdropped, rowsIn_add fs, ?_⟩
  · intro r
    rw [← hbooked.rows, List.append_assoc, List.count_append]
    exact Nat.le_add_right _ _
  · intro hst
    have hp : x.writer.phase = .stopped := by simpa [isStopped] using hst
    exact ⟨hbooked.stopped hp, (hbooked.closing (Or.inr (Or.inr hp))).2⟩

namespace Scene

/-- The scene after something has happened, with the attempts to store until then. -/
def afterNoted (p : Scene × List Flush) (e : Happening) : Option (Scene × List Flush) :=
  (p.1.after e).map fun y =>
    (y, match e with
      | .work _ _ => p.2 ++ p.1.writer.flushes p.1.services
      | _ => p.2)

variable {owned : Int → Prop} {first x : Scene} {fs gs : List Flush}

/-- Whatever happens one after the other makes a run with its attempts, in which others count no rows. -/
theorem noted_of_afters {y : Scene} {es : List Happening} (hx : Noted owned SameRowCounts first x fs)
    (h : es.foldlM afterNoted (x, fs) = some (y, gs)) : Noted owned SameRowCounts first y gs := by
  induction es generalizing x fs with
  | nil =>
    obtain ⟨rfl, rfl⟩ := Prod.mk.inj (Option.some.inj h)
    exact hx
  | cons e es ih =>
    obtain ⟨p, hp, hy⟩ := Option.bind_eq_some_iff.1 h
    obtain ⟨z, hz, rfl⟩ := Option.map_eq_some_iff.1 hp
    refine ih ?_ hy
    cases e with
    | work attention now =>
      obtain ⟨⟨w, c, s⟩, hw, hz⟩ := Option.bind_eq_some_iff.1 hz
      obtain rfl := Option.some.inj hz
      exact hx.work hw
    | send sender item =>
      simp only [after] at hz
      split at hz
      · rename_i c hc
        split at hz
        · rename_i hs
          obtain rfl := Option.some.inj hz
          exact hx.send hs hc
        · exact absurd hz (by simp)
      · rename_i c hc
        obtain rfl := Option.some.inj hz
        exact hx.join hc
      · exact absurd hz (by simp)
    | release =>
      obtain rfl := Option.some.inj hz
      exact hx.release
    | fail inserts puts =>
      obtain rfl := Option.some.inj hz
      exact hx.others ⟨fun r hr => hr, fun p hp => rfl⟩ ⟨rfl, rfl⟩

end Scene

/-- A run with batches of two: the first is lost, the third row is stored when the channel is closed, and the writer stops. -/
theorem rows_accounted_lost_batch :
    let row (o : Int) : StoredChange := .ofEvent ⟨"d", "t", .insert, "g", ⟨0, 0⟩, .none⟩ 0 o ⟨0, 0⟩
    ∃ x fs, Scene.Noted (fun _ => True) SameRowCounts (.start { batchSize := 2 } "binlog" 0 4 {}) x fs ∧
      fs = [⟨[row 0, row 2], false⟩, ⟨[row 3], true⟩] ∧ Intake.rowsOf x.accepted = [row 0, row 2, row 3] ∧
      row 3 ∈ x.services.store.rows ∧ x.services.metrics.counts.rowsFlushed = 1 ∧
      x.services.metrics.counts.rowsDropped = 2 ∧ x.writer.buffer = [] ∧ x.channel.items = [] := by
  intro row
  let send (item : Intake) : List Scene.Happening := [.send .caller item, .send .caller item]
  let events : List Scene.Happening :=
    send (.row (row 0)) ++ send (.skip 0 1) ++ send (.row (row 2)) ++ send (.row (row 3)) ++
      [.fail true false, .work .intake 0, .work .intake 0, .work .intake 0, .work .intake 0, .fail false false,
        .work .intake 0, .work .intake 0, .work .intake 0, .release] ++ List.replicate 4 (.work .intake 0)
  obtain ⟨⟨x, fs⟩, hx⟩ : ∃ p, events.foldlM Scene.afterNoted (.start { batchSize := 2 } "binlog" 0 4 {}, []) = some p :=
    Option.isSome_iff_exists.1 (by decide +kernel)
  have hlog : (events.foldlM Scene.afterNoted (.start { batchSize := 2 } "binlog" 0 4 {}, [])).map
      (fun p => (p.2, p.1.writer.isStopped)) = some ([⟨[row 0, row 2], false⟩, ⟨[row 3], true⟩], true) := by
    decide +kernel
  rw [hx] at hlog
  obtain ⟨rfl, hst⟩ := Prod.mk.inj (Option.some.inj hlog)
  have hr : Scene.Noted (fun _ => True) SameRowCounts (.start { batchSize := 2 } "binlog" 0 4 {}) x
      [⟨[row 0, row 2], false⟩, ⟨[row 3], true⟩] := Scene.noted_of_afters .start hx
  obtain ⟨hrows, -, -, hstored, hflushed, hdropped, -, hend⟩ :=
    rows_accounted (fun _ => True) { batchSize := 2 } "binlog" 0 4 {} hr
  obtain ⟨hb, hc⟩ := hend hst
  rw [hb, hc] at hrows
  refine ⟨x, _, hr, rfl, hrows.symm, ?_, hflushed, hdropped, hb, hc⟩
  exact hstored ⟨[row 3], true⟩ (by simp) rfl (row 3) (List.mem_singleton_self _)

end Writer

end AuditTrail
