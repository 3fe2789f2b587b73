import AuditTrail.Proofs.Writer.Run

/-!
# A cursor never passes a row that is not stored

Every item that the writer has taken in is in one of four places: its row is in a batch that was stored, its row is in the buffer,
its partition is held, or it has no row. A cursor is written only while the buffer is empty and only for a partition that is not
held, so that the rows behind it are all stored; items that come later have higher offsets. `Safe` says this together with what
it needs about the offsets that are pending, and every step keeps it.
-/

namespace AuditTrail

namespace Writer

/-- The offsets of every partition increase. -/
def Ordered (items : List Intake) : Prop := items.Pairwise fun i j => i.partition = j.partition → i.offset < j.offset

/-- A row is in one of some batches. -/
def Batched (batches : List (List StoredChange)) (r : StoredChange) : Prop := ∃ batch ∈ batches, r ∈ batch

/-- Whether the writer has found that nothing will come any more. -/
def Closing (w : Writer) : Prop := w.phase = .storing .closed ∨ w.phase = .committing .closed ∨ w.phase = .stopped

/-- What holds of a writer at work, with the items it has taken in and the services it started with. -/
structure Safe (owned : Int → Prop) (first : Services) (topic : String) (x : Scene) (taken : List Intake) : Prop where
  ofTopic : x.writer.topic = topic
  accepted : x.accepted = taken ++ x.channel.items
  emptied : ∀ cause, x.writer.phase = .committing cause → x.writer.buffer = []
  closing : Closing x.writer → x.handles = false ∧ x.channel.items = []
  kept : ∀ r, Intake.row r ∈ taken → Batched x.batches r ∨ r ∈ x.writer.buffer ∨ r.partition ∈ x.writer.held
  batched : ∀ r, Batched x.batches r → r ∈ x.services.store.rows
  pending : ∀ e ∈ x.writer.pending, ∃ i ∈ taken, i.partition = e.1 ∧ i.offset = e.2
  sorted : x.writer.pending.Pairwise fun e f => e.1 < f.1
  written : ∀ e ∈ x.written, ∃ i ∈ taken, i.partition = e.1 ∧ i.offset + 1 = e.2
  behind : ∀ e ∈ x.written, ∀ r, Intake.row r ∈ taken → r.partition = e.1 → r.offset < e.2 → Batched x.batches r
  ahead : ∀ e ∈ x.written, ∀ f ∈ x.writer.pending, f.1 = e.1 → e.2 ≤ f.2
  increasing : x.written.Pairwise fun e f => e.1 = f.1 → e.2 < f.2
  cursors : ∀ p n, owned p → x.services.cursors.stored topic p = some n →
    first.cursors.stored topic p = some n ∨ (p, n) ∈ x.written

namespace SafeAux

/-! ### What is noted of an item -/

/-- Noting an offset adds no entry but its own. -/
theorem mem_mark {p o : Int} {l : List (Int × Int)} {e : Int × Int} (h : e ∈ mark p o l) : e = (p, o) ∨ e ∈ l := by
  induction l with
  | nil => exact Or.inl (by simpa [mark] using h)
  | cons f l ih =>
    obtain ⟨q, m⟩ := f
    simp only [mark] at h
    split at h
    · simpa using h
    · split at h
      · rename_i hpq
        rcases List.mem_cons.1 h with rfl | h
        · rcases Int.le_total m o with hm | hm
          · exact Or.inl (by rw [Int.max_eq_right hm, hpq])
          · exact Or.inr (by simp [Int.max_eq_left hm])
        · exact Or.inr (List.mem_cons_of_mem _ h)
      · rcases List.mem_cons.1 h with rfl | h
        · exact Or.inr List.mem_cons_self
        · exact (ih h).imp_right (List.mem_cons_of_mem _)

/-- The entries stay sorted by partition. -/
theorem sorted_mark (p o : Int) {l : List (Int × Int)} (h : l.Pairwise fun e f => e.1 < f.1) :
    (mark p o l).Pairwise fun e f => e.1 < f.1 := by
  induction l with
  | nil => simp [mark]
  | cons f l ih =>
    obtain ⟨q, m⟩ := f
    obtain ⟨hf, hl⟩ := List.pairwise_cons.1 h
    simp only [mark]
    split
    · rename_i hpq
      refine List.pairwise_cons.2 ⟨?_, h⟩
      intro e he
      rcases List.mem_cons.1 he with rfl | he
      · exact hpq
      · exact Int.lt_trans hpq (hf e he)
    · split
      · rename_i hpq
        exact List.pairwise_cons.2 ⟨fun e he => hpq ▸ hf e he, hl⟩
      · refine List.pairwise_cons.2 ⟨?_, ih hl⟩
        intro e he
        rcases mem_mark he with rfl | he
        · simp only at *
          omega
        · exact hf e he

/-- The partitions held after a failure are those held before and those of the rows that were lost. -/
theorem mem_hold {held : List Int} {rows : List StoredChange} {p : Int} :
    p ∈ hold held rows ↔ p ∈ held ∨ ∃ r ∈ rows, r.partition = p := by
  unfold hold
  induction rows generalizing held with
  | nil => simp
  | cons r rows ih =>
    simp only [List.foldl_cons, ih, List.mem_cons, exists_eq_or_imp]
    split
    · rename_i hr
      have hr' : r.partition ∈ held := by simpa using hr
      constructor
      · rintro (h | h)
        · exact Or.inl h
        · exact Or.inr (Or.inr h)
      · rintro (h | rfl | h)
        · exact Or.inl h
        · exact Or.inl hr'
        · exact Or.inr h
    · simp only [List.mem_append, List.mem_singleton, eq_comm (a := p), or_assoc]

end SafeAux

open SafeAux

variable {owned : Int → Prop} {first : Services} {topic : String} {x : Scene} {taken : List Intake}

namespace SafeAux

/-- A row that has been batched stays so. -/
theorem batched_append {batches : List (List StoredChange)} {r : StoredChange} (h : Batched batches r)
    (more : List (List StoredChange)) : Batched (batches ++ more) r :=
  let ⟨b, hb, hr⟩ := h
  ⟨b, List.mem_append_left _ hb, hr⟩

/-- An item that comes after others of its partition has a higher offset than they have. -/
theorem lt_of_ordered {earlier later : List Intake} (h : Ordered (earlier ++ later)) {i j : Intake}
    (hi : i ∈ earlier) (hj : j ∈ later) (hp : i.partition = j.partition) : i.offset < j.offset :=
  (List.pairwise_append.1 h).2.2 i hi j hj hp

/-- Going over to another phase keeps what holds of the writer, if the phase suits the buffer and the channel. -/
theorem safe_phase (phase : Phase) (ticker : Ticker) (h : Safe owned first topic x taken)
    (he : ∀ cause, phase = .committing cause → x.writer.buffer = [])
    (hc : Closing { x.writer with phase := phase } → x.handles = false ∧ x.channel.items = []) :
    Safe owned first topic { x with writer := { x.writer with phase := phase, ticker := ticker } } taken :=
  { h with emptied := he, closing := hc }

/-- Taking in the foremost item keeps what holds of the writer. -/
theorem safe_take {item : Intake} {rest : List Intake} (h : Safe owned first topic x taken)
    (hord : Ordered x.accepted) (hp : x.writer.phase = .taking) (hc : x.channel.items = item :: rest) :
    Safe owned first topic { x with writer := x.writer.take item, channel := { x.channel with items := rest } }
      (taken ++ [item]) := by
  have hacc : x.accepted = taken ++ [item] ++ rest := by rw [h.accepted, hc, List.append_assoc]; rfl
  have hlt : ∀ i ∈ taken, i.partition = item.partition → i.offset < item.offset := by
    rw [hacc, List.append_assoc] at hord
    exact fun i hi => lt_of_ordered hord hi List.mem_cons_self
  have hphase := phase_take hp item
  refine
    { h with
      ofTopic := by simpa using h.ofTopic
      accepted := hacc
      emptied := ?_
      closing := ?_
      kept := ?_
      pending := ?_
      sorted := by simpa only [pending_take] using sorted_mark _ _ h.sorted
      written := ?_
      behind := ?_
      ahead := ?_ }
  · intro cause hcause
    rcases hphase with hph | hph <;> simp [hph] at hcause
  · intro hcl
    rcases hphase with hph | hph <;> simp [Closing, hph] at hcl
  · intro r hr
    rcases List.mem_append.1 hr with hr | hr
    · rcases h.kept r hr with hb | hb | hh
      · exact Or.inl hb
      · exact Or.inr (Or.inl (mem_buffer_take.2 (Or.inl hb)))
      · exact Or.inr (Or.inr (by simpa using hh))
    · exact Or.inr (Or.inl (mem_buffer_take.2 (Or.inr (List.mem_singleton.1 hr).symm)))
  · intro e he
    rw [pending_take] at he
    rcases mem_mark he with rfl | he
    · exact ⟨item, by simp, rfl, rfl⟩
    · obtain ⟨i, hi, hip⟩ := h.pending e he
      exact ⟨i, List.mem_append_left _ hi, hip⟩
  · intro e he
    obtain ⟨i, hi, hip⟩ := h.written e he
    exact ⟨i, List.mem_append_left _ hi, hip⟩
  · intro e he r hr hrp hro
    rcases List.mem_append.1 hr with hr | hr
    · exact h.behind e he r hr hrp hro
    · -- the row just taken in lies beyond every cursor written for its partition
      obtain ⟨i, hi, hip, hio⟩ := h.written e he
      obtain rfl : Intake.row r = item := List.mem_singleton.1 hr
      have hlow : i.offset < r.offset := hlt i hi (hip.trans hrp.symm)
      omega
  · intro e he f hf hfe
    rw [pending_take] at hf
    rcases mem_mark hf with rfl | hf
    · obtain ⟨i, hi, hip, hio⟩ := h.written e he
      have hlow : i.offset < item.offset := hlt i hi (hip.trans hfe.symm)
      simp only
      omega
    · exact h.ahead e he f hf hfe

/-- Storing the buffer keeps what holds of the writer. -/
theorem safe_store {cause : FlushCause} {t : Store} (h : Safe owned first topic x taken)
    (hp : x.writer.phase = .storing cause) (hi : x.services.store.insert x.writer.buffer = .ok t) :
    Safe owned first topic { x with
      writer := { x.writer with phase := .committing cause, buffer := [] }
      services := { x.services with store := t }.record (.flush x.writer.buffer.length)
      batches := x.batches ++ [x.writer.buffer] } taken := by
  obtain ⟨_, rfl⟩ := Store.insert_eq_ok hi
  refine
    { h with
      emptied := fun _ _ => rfl
      closing := fun hcl => h.closing ?_
      kept := ?_
      batched := ?_
      behind := fun e he r hr hrp hro => batched_append (h.behind e he r hr hrp hro) _ }
  · rcases hcl with hcl | hcl | hcl <;> simp_all [Closing]
  · intro r hr
    rcases h.kept r hr with hb | hb | hh
    · exact Or.inl (batched_append hb _)
    · exact Or.inl ⟨x.writer.buffer, by simp, hb⟩
    · exact Or.inr (Or.inr hh)
  · rintro r ⟨b, hb, hr⟩
    simp only [Services.record_store, List.mem_append]
    rcases List.mem_append.1 hb with hb | hb
    · exact Or.inl (h.batched r ⟨b, hb, hr⟩)
    · exact Or.inr (List.mem_singleton.1 hb ▸ hr)

/-- Dropping the buffer keeps what holds of the writer, since the partitions of its rows are held. -/
theorem safe_drop {cause : FlushCause} (h : Safe owned first topic x taken) (hp : x.writer.phase = .storing cause) :
    Safe owned first topic { x with
      writer := { x.writer with
        phase := .committing cause, buffer := [], held := hold x.writer.held x.writer.buffer }
      services := x.services.record (.flushFailure x.writer.buffer.length) } taken := by
  refine
    { h with
      emptied := fun _ _ => rfl
      closing := fun hcl => h.closing ?_
      kept := ?_ }
  · rcases hcl with hcl | hcl | hcl <;> simp_all [Closing]
  · intro r hr
    rcases h.kept r hr with hb | hb | hh
    · exact Or.inl hb
    · exact Or.inr (Or.inr (mem_hold.2 (Or.inr ⟨r, hb, rfl⟩)))
    · exact Or.inr (Or.inr (mem_hold.2 (Or.inl hh)))

/-- Leaving out a cursor keeps what holds of the writer. -/
theorem safe_skip {e : Int × Int} {rest : List (Int × Int)} (h : Safe owned first topic x taken)
    (hq : x.writer.pending = e :: rest) :
    Safe owned first topic { x with writer := { x.writer with pending := rest } } taken := by
  have hrest : ∀ f ∈ rest, f ∈ x.writer.pending := fun f hf => hq ▸ List.mem_cons_of_mem _ hf
  exact
    { h with
      pending := fun f hf => h.pending f (hrest f hf)
      sorted := (List.pairwise_cons.1 (hq ▸ h.sorted)).2
      ahead := fun f hf g hg => h.ahead f hf g (hrest g hg) }

/-- Writing a cursor keeps what holds of the writer: the buffer is empty and the partition is not held, so that every row behind
the cursor is in a batch. -/
theorem safe_put {cause : FlushCause} {e : Int × Int} {rest : List (Int × Int)} (h : Safe owned first topic x taken)
    (hp : x.writer.phase = .committing cause) (hq : x.writer.pending = e :: rest) (hh : e.1 ∉ x.writer.held) :
    Safe owned first topic { x with
      writer := { x.writer with pending := rest }
      services := { x.services with cursors := x.services.cursors.set topic e.1 (e.2 + 1) }
      written := x.written ++ [(e.1, e.2 + 1)] } taken := by
  have hmem : e ∈ x.writer.pending := hq ▸ List.mem_cons_self
  obtain ⟨hbelow, hsorted⟩ := List.pairwise_cons.1 (hq ▸ h.sorted)
  have hrest : ∀ f ∈ rest, f ∈ x.writer.pending := fun f hf => hq ▸ List.mem_cons_of_mem _ hf
  refine
    { h with
      pending := fun f hf => h.pending f (hrest f hf)
      sorted := hsorted
      written := ?_
      behind := ?_
      ahead := ?_
      increasing := List.pairwise_append.2 ⟨h.increasing, List.pairwise_singleton _ _, ?_⟩
      cursors := ?_ }
  · intro f hf
    rcases List.mem_append.1 hf with hf | hf
    · exact h.written f hf
    · obtain rfl := List.mem_singleton.1 hf
      obtain ⟨i, hi, hip, hio⟩ := h.pending e hmem
      exact ⟨i, hi, hip, by simp only [hio]⟩
  · intro f hf r hr hrp hro
    rcases List.mem_append.1 hf with hf | hf
    · exact h.behind f hf r hr hrp hro
    · obtain rfl := List.mem_singleton.1 hf
      rcases h.kept r hr with hb | hb | hheld
      · exact hb
      · rw [h.emptied cause hp] at hb
        exact absurd hb List.not_mem_nil
      · exact absurd (hrp ▸ hheld) hh
  · intro f hf g hg hgf
    rcases List.mem_append.1 hf with hf | hf
    · exact h.ahead f hf g (hrest g hg) hgf
    · obtain rfl := List.mem_singleton.1 hf
      -- the entries that are left belong to other partitions
      have := hbelow g hg
      simp only at hgf
      omega
  · intro f hf g hg hfg
    obtain rfl := List.mem_singleton.1 hg
    have := h.ahead f hf e hmem hfg.symm
    simp only
    omega
  · intro p n hown hst
    by_cases hpe : p = e.1
    · subst hpe
      rw [Cursors.stored_set_self] at hst
      obtain rfl := Option.some.inj hst
      exact Or.inr (List.mem_append_right _ List.mem_cons_self)
    · rw [Cursors.stored_set_partition _ _ _ hpe] at hst
      exact (h.cursors p n hown hst).imp_right (List.mem_append_left _)

/-- Every step of the writer keeps what holds of it. -/
theorem safe_turn {w : Writer} {c : Channel Intake} {s : Services} (h : Safe owned first topic x taken)
    (hord : Ordered x.accepted) (ht : Turn x.handles x.writer x.channel x.services w c s) :
    ∃ taken, Safe owned first topic { x with
      writer := w, channel := c, services := s
      batches := x.batches ++ x.writer.stores x.services
      written := x.written ++ x.writer.writes x.services } taken := by
  cases ht with
  | @take item rest hp hc =>
    rw [stores_eq_nil (by simp [hp]), writes_eq_nil (by simp [hp]), List.append_nil, List.append_nil]
    exact ⟨taken ++ [item], safe_take h hord hp hc⟩
  | finish hp hc hs =>
    rw [stores_eq_nil (by simp [hp]), writes_eq_nil (by simp [hp]), List.append_nil, List.append_nil]
    exact ⟨taken, safe_phase _ _ h (by simp) fun _ => ⟨hs, hc⟩⟩
  | tick ticker hp =>
    rw [stores_eq_nil (by simp [hp]), writes_eq_nil (by simp [hp]), List.append_nil, List.append_nil]
    exact ⟨taken, safe_phase _ ticker h (by simp) (by simp [Closing])⟩
  | @pass cause hp hb =>
    rw [stores_of_empty hb, writes_eq_nil (by simp [hp]), List.append_nil, List.append_nil]
    have hcl : Closing { x.writer with phase := .committing cause } → Closing x.writer := by simp [Closing, hp]
    exact ⟨taken, safe_phase _ _ h (fun _ _ => hb) fun h' => h.closing (hcl h')⟩
  | store hp hb hi =>
    rw [stores_of_ok hp hb hi, writes_eq_nil (by simp [hp]), List.append_nil]
    exact ⟨taken, safe_store h hp hi⟩
  | drop hp hb hi =>
    rw [stores_of_error hi, writes_eq_nil (by simp [hp]), List.append_nil, List.append_nil]
    exact ⟨taken, safe_drop h hp⟩
  | skip hp hq hh =>
    have hwrites : x.writer.writes x.services = [] := by simp [writes, hp, hq, hh]
    rw [stores_eq_nil (by simp [hp]), hwrites, List.append_nil, List.append_nil]
    exact ⟨taken, safe_skip h hq⟩
  | @put cause e rest hp hq hh =>
    obtain rfl := h.ofTopic
    rw [stores_eq_nil (by simp [hp]), List.append_nil]
    cases hf : x.services.cursors.failPuts with
    | false =>
      have hwrites : x.writer.writes x.services = [(e.1, e.2 + 1)] := by
        simp [writes, hp, hq, hh, Cursors.put, hf]
      rw [hwrites, Services.putCursor_of_ok hf]
      exact ⟨taken, safe_put h hp hq hh⟩
    | true =>
      have hwrites : x.writer.writes x.services = [] := by simp [writes, hp, hq, Cursors.put, hf]
      rw [hwrites, Services.putCursor_of_fail hf, List.append_nil]
      exact ⟨taken, { safe_skip h hq with }⟩
  | resume ticker hp hq hc =>
    have hwrites : x.writer.writes x.services = [] := by simp [writes, hp, hq]
    rw [stores_eq_nil (by simp [hp]), hwrites, List.append_nil, List.append_nil]
    exact ⟨taken, safe_phase _ ticker h (by simp) (by simp [Closing])⟩
  | stop hp hq =>
    have hwrites : x.writer.writes x.services = [] := by simp [writes, hp, hq]
    obtain ⟨hhandles, hitems⟩ := h.closing (Or.inr (Or.inl hp))
    rw [stores_eq_nil (by simp [hp]), hwrites, List.append_nil, List.append_nil]
    exact ⟨taken,
      { safe_phase .stopped x.writer.ticker h (by simp) fun _ => ⟨hhandles, hitems⟩ with
        accepted := by rw [h.accepted, hitems, Channel.items_close]
        closing := fun _ => ⟨hhandles, rfl⟩ }⟩

/-- Every step of a scene keeps what holds of the writer, as long as the offsets of every partition increase. -/
theorem safe_step {y : Scene} (h : Safe owned first topic x taken) (hs : Scene.Step owned x y)
    (hord : Ordered y.accepted) : ∃ taken, Safe owned first topic y taken := by
  cases hs with
  | work hw => exact safe_turn h hord (turn_of_step hw)
  | @send sender item c hh hc =>
    obtain ⟨-, rfl⟩ := Channel.attempt_sent hc
    refine ⟨taken, { h with accepted := ?_, closing := ?_ }⟩
    · rw [h.accepted, Channel.items_push, List.append_assoc]
    · intro hcl
      exact absurd (h.closing hcl).1 (by simp [hh])
  | join hc =>
    obtain ⟨-, rfl⟩ := Channel.attempt_joined hc
    exact ⟨taken, { h with }⟩
  | leave sender => exact ⟨taken, { h with }⟩
  | release => exact ⟨taken, { h with closing := fun hcl => ⟨rfl, (h.closing hcl).2⟩ }⟩
  | others hu =>
    refine ⟨taken, { h with batched := fun r hr => hu.rows r (h.batched r hr), cursors := ?_ }⟩
    intro p n hown hst
    rw [← h.ofTopic, hu.cursors p hown, h.ofTopic] at hst
    exact h.cursors p n hown hst

end SafeAux

/-- A writer that starts is safe. -/
theorem safe_start (owned : Int → Prop) (settings : WriterSettings) (topic : String) (now capacity : Nat)
    (s : Services) : Safe owned s topic (.start settings topic now capacity s) [] where
  ofTopic := rfl
  accepted := rfl
  emptied := by simp [Scene.start, Writer.start]
  closing := by simp [Scene.start, Writer.start, Closing]
  kept := by simp
  batched := by simp [Scene.start, Batched]
  pending := by simp [Scene.start, Writer.start]
  sorted := by simp [Scene.start, Writer.start]
  written := by simp [Scene.start]
  behind := by simp [Scene.start]
  ahead := by simp [Scene.start]
  increasing := by simp [Scene.start]
  cursors := fun _ _ _ h => Or.inl h

/-- Every run keeps a writer safe, as long as the offsets of every partition increase. -/
theorem safe_run {y : Scene} (h : Safe owned first topic x taken) (hr : Scene.Run owned x y) (hord : Ordered y.accepted) :
    ∃ taken, Safe owned first topic y taken := by
  induction hr with
  | refl => exact ⟨taken, h⟩
  | tail hr hs ih =>
    obtain ⟨taken, h⟩ := ih (hord.sublist hs.accepted_prefix.sublist)
    exact safe_step h hs hord

namespace Safe

/-- No cursor that the writer owns passes a row that is not in a batch, if no item lies behind the cursor that was there at
first. -/
theorem batched_of_lt (h : Safe owned first topic x taken) (hord : Ordered x.accepted)
    (hlow : ∀ i ∈ x.accepted, ∀ n, first.cursors.stored topic i.partition = some n → n ≤ i.offset) {n : Int}
    {r : StoredChange} (hown : owned r.partition) (hst : x.services.cursors.stored topic r.partition = some n)
    (hr : Intake.row r ∈ x.accepted) (hro : r.offset < n) : Batched x.batches r := by
  rcases h.cursors r.partition n hown hst with hn | hw
  · have hle : n ≤ r.offset := hlow (.row r) hr n hn
    omega
  · obtain ⟨i, hi, hip, hio⟩ := h.written _ hw
    rw [h.accepted] at hr hord
    rcases List.mem_append.1 hr with hr | hr
    · exact h.behind _ hw r hr rfl hro
    · -- a row that still waits in the channel lies beyond every offset taken in
      have hlt : i.offset < r.offset := lt_of_ordered hord hi hr hip
      simp only at hio
      omega

/-- A cursor that is written lies just above an item that was accepted. -/
theorem exists_of_written (h : Safe owned first topic x taken) {e : Int × Int} (he : e ∈ x.written) :
    ∃ i ∈ x.accepted, i.partition = e.1 ∧ i.offset + 1 = e.2 := by
  obtain ⟨i, hi, hip⟩ := h.written e he
  exact ⟨i, h.accepted ▸ List.mem_append_left _ hi, hip⟩

/-- A cursor that is written lies above the one that was there at first. -/
theorem lt_of_written (h : Safe owned first topic x taken)
    (hlow : ∀ i ∈ x.accepted, ∀ n, first.cursors.stored topic i.partition = some n → n ≤ i.offset) {e : Int × Int}
    (he : e ∈ x.written) {n : Int} (hn : first.cursors.stored topic e.1 = some n) : n < e.2 := by
  obtain ⟨i, hi, hip, hio⟩ := h.exists_of_written he
  have hle : n ≤ i.offset := hlow i hi n (hip ▸ hn)
  omega

end Safe

/-- On every run of the writer, from any cursors and under any failures, a cursor that it owns never passes an accepted row whose
batch was not stored, and the cursors it writes for a partition increase, from above the one that was there at first. All that the
senders have to do is to keep the offsets of every partition increasing and not to go back behind its cursor. -/
theorem cursor_safe (owned : Int → Prop) (settings : WriterSettings) (topic : String) (now capacity : Nat) (s : Services)
    {x : Scene} (hr : Scene.Run owned (.start settings topic now capacity s) x) (hord : Ordered x.accepted)
    (hlow : ∀ i ∈ x.accepted, ∀ n, s.cursors.stored topic i.partition = some n → n ≤ i.offset) :
    (∀ p n, owned p → x.services.cursors.stored topic p = some n →
      ∀ r, Intake.row r ∈ x.accepted → r.partition = p → r.offset < n →
        Batched x.batches r ∧ r ∈ x.services.store.rows) ∧
    (x.written.Pairwise fun e f => e.1 = f.1 → e.2 < f.2) ∧
    ∀ e ∈ x.written, ∀ n, s.cursors.stored topic e.1 = some n → n < e.2 := by
  obtain ⟨taken, h⟩ := safe_run (safe_start owned settings topic now capacity s) hr hord
  refine ⟨?_, h.increasing, fun e he n hn => h.lt_of_written hlow he hn⟩
  intro p n hown hst r hr hrp hro
  subst hrp
  have hb : Batched x.batches r := h.batched_of_lt hord hlow hown hst hr hro
  exact ⟨hb, h.batched r hb⟩

/-- A run in which the batch with the row of one partition is lost, and that with the rows of another partition is stored: only
the second partition gets a cursor. -/
theorem cursor_safe_lost_batch :
    let row (p o : Int) : StoredChange := .ofEvent ⟨"d", "t", .insert, "g", ⟨0, 0⟩, .none⟩ p o ⟨0, 0⟩
    let first := Scene.start { batchSize := 1 } "binlog" 0 4 {}
    ∃ x, Scene.Run (fun _ => True) first x ∧ Ordered x.accepted ∧ x.accepted = [.row (row 0 0), .row (row 1 0)] ∧
      x.written = [(1, 1)] ∧ Batched x.batches (row 1 0) ∧ row 1 0 ∈ x.services.store.rows := by
  intro row first
  let events : List Scene.Happening :=
    [.send .caller (.row (row 0 0)), .send .caller (.row (row 0 0)), .work .intake 0, .fail true false, .work .intake 0,
      .fail false false, .work .intake 0, .work .intake 0, .send .caller (.row (row 1 0)),
      .send .caller (.row (row 1 0)), .work .intake 0, .work .intake 0, .work .intake 0]
  obtain ⟨x, hx⟩ : ∃ x, events.foldlM Scene.after first = some x := Option.isSome_iff_exists.1 (by decide +kernel)
  have hr : Scene.Run (fun _ => True) first x := Scene.run_of_afters hx
  have hlog : (events.foldlM Scene.after first).map (fun x => (x.accepted, x.written)) =
      some ([.row (row 0 0), .row (row 1 0)], [(1, 1)]) := by decide +kernel
  have hcur : (events.foldlM Scene.after first).map (fun x => x.services.cursors.stored "binlog" 1) = some (some 1) := by
    decide +kernel
  rw [hx] at hlog hcur
  obtain ⟨hacc, hwritten⟩ := Prod.mk.inj (Option.some.inj hlog)
  have hord : Ordered x.accepted := by rw [hacc]; simp [Ordered, row, Intake.partition, StoredChange.ofEvent]
  have hlow : ∀ i ∈ x.accepted, ∀ n, (({} : Services).cursors.stored "binlog" i.partition) = some n → n ≤ i.offset := by
    simp [Cursors.stored]
  have hsafe := cursor_safe (fun _ => True) { batchSize := 1 } "binlog" 0 4 {} hr hord hlow
  obtain ⟨hb, hrow⟩ := hsafe.1 1 1 trivial (Option.some.inj hcur) (row 1 0) (by simp [hacc]) rfl (by decide)
  exact ⟨x, hr, hord, hacc, hwritten, hb, hrow⟩

end Writer

end AuditTrail
