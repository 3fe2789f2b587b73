import AuditTrail.Proofs.Writer.Clock
import AuditTrail.Proofs.Writer.Progress

/-!
# What holds of a writer on a clock

Whether something waits for too long depends on when the next tick is due, which ticks and full batches put off. So there is an
invariant of the ticker (`Ticking`), one of the buffer and of what brings a flush about (`Buffering`), and one of the rows and the
offsets that were taken in (`Waiting`), which rests on the others: what waits was taken in after the origin of the next tick, or else
the flush at the origin would have been the end of its waiting. Each is kept by every step (`Beat`) and by waiting.
-/

namespace AuditTrail

namespace Writer

/-! ## The ticker -/

/-- What is done has no part in when the next tick is due. -/
def Event.IsQuiet (e : Event) : Prop := e ≠ .tick ∧ ∀ f, e ≠ .insert .full f

/-- What holds of the ticker of a writer at a time. -/
structure Ticking (settings : WriterSettings) (start : Nat) (w : Writer) (now : Nat) (log : Timeline) : Prop where
  period : w.ticker.period = settings.period
  /-- The next tick is due one period after the origin, but for the time between storing a full batch and going on. -/
  due : w.phase ≠ .committing .full → w.phase ≠ .stopped → w.ticker.due = origin start log + settings.period
  full : w.phase = .storing .full → w.buffer ≠ []
  renewed : w.phase = .committing .full → origin start log = now
  clock : w.phase ≠ .stopped → now ≤ origin start log + settings.period
  begun : origin start log ≤ now
  ticks : ∀ pre t post, log = pre ++ (t, .tick) :: post → t = origin start pre + settings.period
  past : ∀ e ∈ log, e.1 ≤ now
  sorted : log.Pairwise (·.1 ≤ ·.1)

namespace TimingAux

/-- Of a list with one more element each part is a part of the list, or the element is the last. -/
theorem concat_eq_append_cons {α : Type} {l pre post : List α} {a b : α} (h : l ++ [b] = pre ++ a :: post) :
    (pre = l ∧ a = b ∧ post = []) ∨ ∃ post', post = post' ++ [b] ∧ l = pre ++ a :: post' := by
  rcases List.eq_nil_or_concat post with rfl | ⟨post', c, rfl⟩
  · obtain ⟨rfl, hab⟩ := List.append_inj' h rfl
    exact .inl ⟨rfl, (List.singleton_inj.1 hab).symm, rfl⟩
  · rw [List.concat_eq_append, ← List.cons_append, ← List.append_assoc] at h
    obtain ⟨rfl, hcb⟩ := List.append_inj' h rfl
    exact .inr ⟨post', by rw [List.concat_eq_append, List.singleton_inj.1 hcb], rfl⟩

/-- What is quiet leaves the origin. -/
theorem origin_note {e : Option Event} (he : ∀ f ∈ e, f.IsQuiet) (start now : Nat) (log : Timeline) :
    origin start (note now log e) = origin start log := by
  cases e with
  | none => rw [note_none]
  | some f =>
    obtain ⟨htick, hfull⟩ := he f rfl
    rw [note_some, origin_concat]
    cases f with
    | tick => exact absurd rfl htick
    | insert cause f =>
      cases cause with
      | full => exact absurd rfl (hfull f)
      | tick => rfl
      | closed => rfl
    | _ => rfl

end TimingAux

open TimingAux

namespace Ticking

variable {settings : WriterSettings} {start now : Nat} {items : List Intake} {w w' : Writer} {log : Timeline} {e : Option Event}

/-- Whatever is noted now comes last. -/
theorem sorted_note (h : Ticking settings start w now log) (e : Option Event) :
    (∀ f ∈ note now log e, f.1 ≤ now) ∧ (note now log e).Pairwise (·.1 ≤ ·.1) := by
  cases e with
  | none => exact ⟨by simpa using h.past, by simpa using h.sorted⟩
  | some e =>
    rw [note_some]
    constructor
    · intro f hf
      rcases List.mem_append.1 hf with hf | hf
      · exact h.past f hf
      · exact Nat.le_of_eq (congrArg Prod.fst (List.mem_singleton.1 hf))
    · refine List.pairwise_append.2 ⟨h.sorted, List.pairwise_singleton _ _, fun f hf g hg => ?_⟩
      rw [List.mem_singleton.1 hg]
      exact h.past f hf

/-- A tick that is noted comes one period after the origin if the clock says so. -/
theorem ticks_note (h : Ticking settings start w now log) (he : e = some .tick → now = origin start log + settings.period) :
    ∀ pre t post, note now log e = pre ++ (t, .tick) :: post → t = origin start pre + settings.period := by
  intro pre t post hlog
  cases e with
  | none => exact h.ticks pre t post (by simpa using hlog)
  | some f =>
    rcases concat_eq_append_cons hlog with ⟨rfl, htick, -⟩ | ⟨post', -, hlog⟩
    · obtain ⟨rfl, rfl⟩ := Prod.mk.inj htick
      exact he rfl
    · exact h.ticks pre t post' hlog

/-- A step that is quiet and leaves the ticker alone keeps what holds of it. -/
theorem quiet (h : Ticking settings start w now log) (he : ∀ f ∈ e, f.IsQuiet) (hticker : w'.ticker = w.ticker)
    (hrun : w.phase ≠ .stopped) (hfull : w.phase ≠ .committing .full ∨ w'.phase = .committing .full)
    (hrenew : w'.phase = .committing .full → w.phase = .committing .full) (hbuffer : w'.phase = .storing .full → w'.buffer ≠ []) :
    Ticking settings start w' now (note now log e) := by
  obtain ⟨hpast, hsorted⟩ := h.sorted_note e
  have horigin := origin_note he start now log
  refine
    { period := hticker ▸ h.period
      due := fun hc _ => ?_
      full := hbuffer
      renewed := fun hc => horigin.trans (h.renewed (hrenew hc))
      clock := fun _ => horigin ▸ h.clock hrun
      begun := horigin ▸ h.begun
      ticks := h.ticks_note fun htick => absurd rfl (he .tick htick).1
      past := hpast
      sorted := hsorted }
  rw [hticker, horigin]
  exact h.due (hfull.resolve_right hc) hrun

/-- A tick comes when it is due, and the next one is due one period later. -/
theorem tick (h : Ticking settings start w now log) (hp : w.phase = .taking) (hdue : w.ticker.due ≤ now) :
    Ticking settings start { w with phase := .storing .tick, ticker := w.ticker.tick now } now (note now log (some .tick)) := by
  obtain ⟨hpast, hsorted⟩ := h.sorted_note (some .tick)
  have hdue' := h.due (by simp [hp]) (by simp [hp])
  have hclock := h.clock (by simp [hp])
  have hnow : now = origin start log + settings.period := by omega
  have horigin : origin start (note now log (some .tick)) = now := by
    rw [note_some, origin_concat]
    exact Nat.max_eq_right h.begun
  have hnext : (w.ticker.tick now).due = now + settings.period := by
    rw [Ticker.tick, h.period, if_neg (by omega), hdue', ← hnow]
  exact
    { period := h.period
      due := fun _ _ => by rw [horigin, hnext]
      full := by simp
      renewed := by simp
      clock := fun _ => by omega
      begun := by omega
      ticks := h.ticks_note fun _ => hnow
      past := hpast
      sorted := hsorted }

/-- An attempt to store a full batch makes the present the origin. -/
theorem insert_full (h : Ticking settings start w now log) (f : Flush) (held : List Int) :
    Ticking settings start { w with phase := .committing .full, buffer := [], held := held } now
      (note now log (some (.insert .full f))) := by
  obtain ⟨hpast, hsorted⟩ := h.sorted_note (some (.insert .full f))
  have horigin : origin start (note now log (some (.insert .full f))) = now := by
    rw [note_some, origin_concat]
    exact Nat.max_eq_right h.begun
  exact
    { period := h.period
      due := by simp
      full := by simp
      renewed := fun _ => horigin
      clock := fun _ => by omega
      begun := by omega
      ticks := h.ticks_note (by simp)
      past := hpast
      sorted := hsorted }

/-- The ticker has a new period when a full batch is done with. -/
theorem restart (h : Ticking settings start w now log) (hp : w.phase = .committing .full) :
    Ticking settings start { w with phase := .taking, ticker := w.ticker.reset now } now log where
  period := h.period
  due _ _ := by
    rw [Ticker.reset, h.period, h.renewed hp]
  full := by simp
  renewed := by simp
  clock _ := h.clock (by simp [hp])
  begun := h.begun
  ticks := h.ticks
  past := h.past
  sorted := h.sorted

/-- Every step keeps what holds of the ticker. -/
theorem beat (h : Ticking settings start w now log) (hb : Beat now items w w' e) :
    Ticking settings start w' now (note now log e) := by
  cases hb with
  | @take item rest hp hc =>
    have hphase := phase_take hp item
    have hticker : (w.take item).ticker = w.ticker := by cases item <;> rfl
    refine h.quiet (by simp [Event.IsQuiet]) hticker (by simp [hp]) (.inl (by simp [hp])) (fun hc => ?_) (fun hfull => ?_)
    · rcases hphase with hph | hph <;> simp [hph] at hc
    · cases item with
      | row r => simp [Writer.take]
      | skip p o => simp [Writer.take, hp] at hfull
  | finish hp => exact h.quiet (by simp [Event.IsQuiet]) rfl (by simp [hp]) (by simp [hp]) (by simp) (by simp)
  | tick hp hdue => exact h.tick hp hdue
  | pass hp hb =>
    refine h.quiet (by simp) rfl (by simp [hp]) (by simp [hp]) (fun hfull => ?_) (by simp)
    simp only [Phase.committing.injEq] at hfull
    exact absurd hb (h.full (hfull ▸ hp))
  | @insert cause stored held hp hb =>
    cases cause with
    | full => exact h.insert_full _ held
    | tick => exact h.quiet (by simp [Event.IsQuiet]) rfl (by simp [hp]) (by simp [hp]) (by simp) (by simp)
    | closed => exact h.quiet (by simp [Event.IsQuiet]) rfl (by simp [hp]) (by simp [hp]) (by simp) (by simp)
  | settle outcome hp hq =>
    exact h.quiet (by simp [Event.IsQuiet]) rfl (by simp [hp]) (by simp [em']) id (by simp [hp])
  | restart hp hq =>
    rw [note_none]
    exact h.restart hp
  | resume hp hq => exact h.quiet (by simp) rfl (by simp [hp]) (by simp [hp]) (by simp) (by simp)
  | stop hp hq => exact h.quiet (by simp) rfl (by simp [hp]) (by simp [hp]) (by simp) (by simp)

/-- Waiting keeps what holds of the ticker. -/
theorem wait {later : Nat} (h : Ticking settings start w now log) (hp : w.phase = .taking ∨ w.phase = .stopped)
    (hlater : now ≤ later) (hdue : ∀ t ∈ w.due?, later ≤ t) : Ticking settings start w later log := by
  refine { h with renewed := fun hc => ?_, clock := fun hs => ?_, begun := Nat.le_trans h.begun hlater, past := fun e he => ?_ }
  · rcases hp with hp | hp <;> simp [hp] at hc
  · have hp := hp.resolve_right hs
    have hle : later ≤ w.ticker.due := hdue _ (by simp [due?, hp])
    rw [← h.due (by simp [hp]) hs]
    exact hle
  · exact Nat.le_trans (h.past e he) hlater

end Ticking

/-! ## The buffer -/

/-- On a timeline batches are stored as soon as something brings a flush about, and only then. -/
structure Prompt (limit : Nat) (log : Timeline) : Prop where
  inserts : ∀ pre t cause f post, log = pre ++ (t, .insert cause f) :: post →
    flushDue? limit pre = some (t, cause) ∧ f.rows = waitingRows pre ∧ f.rows ≠ [] ∧ (cause = .full → f.rows.length = limit)
  follows : ∀ pre t cause e post, log = pre ++ e :: post → flushDue? limit pre = some (t, cause) → waitingRows pre ≠ [] →
    ∃ stored, e = (t, .insert cause ⟨waitingRows pre, stored⟩)

/-- What holds of the buffer of a writer at a time. -/
structure Buffering (settings : WriterSettings) (w : Writer) (now : Nat) (log : Timeline) : Prop where
  ofSettings : w.settings = settings
  buffer : w.buffer = waitingRows log
  bounded : w.buffer.length ≤ settings.limit
  room : w.phase = .taking → w.buffer.length < settings.limit
  emptied : (∃ cause, w.phase = .committing cause) ∨ w.phase = .stopped → w.buffer = []
  /-- The writer stores because of what it did last, which it did just now. -/
  storing : ∀ cause, w.phase = .storing cause → flushDue? settings.limit log = some (now, cause)
  stores : ∀ t cause, flushDue? settings.limit log = some (t, cause) → w.buffer ≠ [] → w.phase = .storing cause ∧ t = now
  prompt : Prompt settings.limit log

/-- One more event leaves a timeline prompt if it is the attempt that is due, or none is and it is no attempt. -/
theorem Prompt.concat {limit : Nat} {log : Timeline} (h : Prompt limit log) (e : Nat × Event)
    (hinsert : ∀ cause f, e.2 = .insert cause f → flushDue? limit log = some (e.1, cause) ∧ f.rows = waitingRows log ∧
      f.rows ≠ [] ∧ (cause = .full → f.rows.length = limit))
    (hfollow : ∀ t cause, flushDue? limit log = some (t, cause) → waitingRows log ≠ [] →
      ∃ stored, e = (t, .insert cause ⟨waitingRows log, stored⟩)) : Prompt limit (log ++ [e]) where
  inserts pre t cause f post hlog := by
    rcases concat_eq_append_cons hlog with ⟨rfl, rfl, -⟩ | ⟨post', -, hlog⟩
    · exact hinsert cause f rfl
    · exact h.inserts pre t cause f post' hlog
  follows pre t cause e post hlog hdue hne := by
    rcases concat_eq_append_cons hlog with ⟨rfl, rfl, -⟩ | ⟨post', -, hlog⟩
    · exact hfollow t cause hdue hne
    · exact h.follows pre t cause e post' hlog hdue hne

namespace Buffering

variable {settings : WriterSettings} {now : Nat} {items : List Intake} {w w' : Writer} {log : Timeline} {e : Option Event}

/-- What a writer does while it does not store leaves a timeline prompt if it is no attempt to store. -/
theorem prompt_concat (h : Buffering settings w now log) (hp : ∀ cause, w.phase ≠ .storing cause) {f : Event}
    (hf : ∀ cause g, f ≠ .insert cause g) : Prompt settings.limit (log ++ [(now, f)]) :=
  h.prompt.concat (now, f) (fun cause g hg => absurd hg (hf cause g)) fun t cause hdue hne =>
    absurd (h.stores t cause hdue (h.buffer ▸ hne)).1 (hp cause)

/-- Taking an item in keeps what holds of the buffer. -/
theorem take (h : Buffering settings w now log) (hp : w.phase = .taking) (item : Intake) :
    Buffering settings (w.take item) now (log ++ [(now, .took item)]) := by
  have hbuffer : (w.take item).buffer = waitingRows (log ++ [(now, .took item)]) := by
    rw [AccountingAux.buffer_take, waitingRows_concat, h.buffer]
  have hphase := phase_take hp item
  obtain ⟨hbounded, hroom⟩ := AccountingAux.room_take item (congrArg (·.batchSize) h.ofSettings) (h.room hp)
  have hdue (t : Nat) (cause : FlushCause) : flushDue? settings.limit (log ++ [(now, .took item)]) = some (t, cause) ↔
      (w.take item).phase = .storing cause ∧ t = now := by
    rw [flushDue?_concat, ← hbuffer]
    cases item with
    | skip p o => simp [Writer.take, hp]
    | row r =>
      have hlimit : settings.limit ≤ (w.take (.row r)).buffer.length ↔ w.settings.batchSize ≤ (w.buffer ++ [r]).length := by
        simp only [WriterSettings.limit, h.ofSettings, Writer.take, List.length_append, List.length_singleton]
        omega
      change (if settings.limit ≤ (w.take (.row r)).buffer.length then some (now, FlushCause.full) else none) = some (t, cause) ↔
        (if w.settings.batchSize ≤ (w.buffer ++ [r]).length then Phase.storing .full else .taking) = .storing cause ∧ t = now
      by_cases hfull : w.settings.batchSize ≤ (w.buffer ++ [r]).length
      · rw [if_pos (hlimit.2 hfull), if_pos hfull]
        simp [eq_comm, and_comm]
      · rw [if_neg (mt hlimit.1 hfull), if_neg hfull]
        simp
  refine
    { ofSettings := by cases item <;> exact h.ofSettings
      buffer := hbuffer
      bounded := hbounded
      room := hroom
      emptied := fun hc => ?_
      storing := fun cause hc => ?_
      stores := fun t cause hflush _ => ?_
      prompt := h.prompt_concat (by simp [hp]) (by simp) }
  · rcases hphase with hph | hph <;> simp [hph] at hc
  · exact (hdue now cause).2 ⟨hc, rfl⟩
  · exact (hdue t cause).1 hflush

/-- Going over to storing because of what is noted keeps what holds of the buffer. -/
theorem turn (h : Buffering settings w now log) (hp : w.phase = .taking) {f : Event} {cause : FlushCause}
    (hf : ∀ cause g, f ≠ .insert cause g) (hrows : waitingRows (log ++ [(now, f)]) = waitingRows log)
    (hdue : flushDue? settings.limit (log ++ [(now, f)]) = some (now, cause)) (ticker : Ticker) :
    Buffering settings { w with phase := .storing cause, ticker := ticker } now (log ++ [(now, f)]) where
  ofSettings := h.ofSettings
  buffer := h.buffer.trans hrows.symm
  bounded := h.bounded
  room := by simp
  emptied := by simp
  storing cause' hc := by
    rw [hdue, Phase.storing.inj hc]
  stores t cause' hflush _ := by
    obtain ⟨rfl, rfl⟩ := Prod.mk.inj (Option.some.inj (hdue.symm.trans hflush))
    exact ⟨rfl, rfl⟩
  prompt := h.prompt_concat (by simp [hp]) hf

/-- An attempt to store keeps what holds of the buffer. -/
theorem insert (h : Buffering settings w now log) {cause : FlushCause} (stored : Bool) (held : List Int)
    (hp : w.phase = .storing cause) (hb : w.buffer ≠ []) :
    Buffering settings { w with phase := .committing cause, buffer := [], held := held } now
      (log ++ [(now, .insert cause ⟨w.buffer, stored⟩)]) := by
  have hdue := h.storing cause hp
  have hfull : cause = .full → w.buffer.length = settings.limit := by
    rintro rfl
    exact Nat.le_antisymm h.bounded (h.buffer ▸ limit_le_of_full hdue)
  exact
    { ofSettings := h.ofSettings
      buffer := by rw [waitingRows_concat]
      bounded := Nat.zero_le _
      room := by simp
      emptied := fun _ => rfl
      storing := by simp
      stores := fun _ _ _ hne => absurd rfl hne
      prompt := h.prompt.concat _
        (fun cause' f hf => by
          obtain ⟨rfl, rfl⟩ := Event.insert.inj hf
          exact ⟨hdue, h.buffer, hb, hfull⟩)
        fun t cause' hflush _ => by
          obtain ⟨rfl, rfl⟩ := Prod.mk.inj (Option.some.inj (hdue.symm.trans hflush))
          exact ⟨stored, by rw [h.buffer]⟩ }

/-- A step with an empty buffer by which the writer neither stores nor is about to keeps what holds of the buffer. -/
theorem empty (h : Buffering settings w now log) (hb : w.buffer = []) {phase : Phase} (hphase : ∀ cause, phase ≠ .storing cause)
    (ticker : Ticker) : Buffering settings { w with phase := phase, ticker := ticker } now log where
  ofSettings := h.ofSettings
  buffer := h.buffer
  bounded := h.bounded
  room _ := by
    rw [hb]
    exact Nat.lt_of_lt_of_le Nat.one_pos (Nat.le_max_left _ _)
  emptied _ := hb
  storing cause hc := absurd hc (hphase cause)
  stores _ _ _ hne := absurd hb hne
  prompt := h.prompt

/-- Being done with an offset keeps what holds of the buffer. -/
theorem settle (h : Buffering settings w now log) {cause : FlushCause} (hp : w.phase = .committing cause) (p n : Int)
    (outcome : Settling) (rest : List (Int × Int)) :
    Buffering settings { w with pending := rest } now (log ++ [(now, .settle p n outcome)]) where
  ofSettings := h.ofSettings
  buffer := by
    rw [waitingRows_concat]
    exact h.buffer
  bounded := h.bounded
  room := h.room
  emptied := h.emptied
  storing cause' hc := by simp [hp] at hc
  stores _ _ _ hne := absurd (h.emptied (.inl ⟨cause, hp⟩)) hne
  prompt := h.prompt_concat (by simp [hp]) (by simp)

/-- Every step keeps what holds of the buffer. -/
theorem beat (h : Buffering settings w now log) (hb : Beat now items w w' e) :
    Buffering settings w' now (note now log e) := by
  cases hb with
  | take hp hc => exact h.take hp _
  | finish hp => exact h.turn hp (by simp) (waitingRows_concat ..) (flushDue?_concat ..) w.ticker
  | tick hp hdue => exact h.turn hp (by simp) (waitingRows_concat ..) (flushDue?_concat ..) _
  | pass hp hb =>
    rw [note_none]
    exact h.empty hb (by simp) w.ticker
  | insert stored held hp hb => exact h.insert stored held hp hb
  | settle outcome hp hq => exact h.settle hp _ _ outcome _
  | @restart hp hq =>
    rw [note_none]
    exact h.empty (h.emptied (.inl ⟨_, hp⟩)) (by simp) _
  | resume hp hq =>
    rw [note_none]
    exact h.empty (h.emptied (.inl ⟨_, hp⟩)) (by simp) w.ticker
  | stop hp hq =>
    rw [note_none]
    exact h.empty (h.emptied (.inl ⟨_, hp⟩)) (by simp) w.ticker

/-- Waiting keeps what holds of the buffer. -/
theorem wait {later : Nat} (h : Buffering settings w now log) (hp : w.phase = .taking ∨ w.phase = .stopped) :
    Buffering settings w later log := by
  have hnot (cause : FlushCause) : w.phase ≠ .storing cause := by
    rcases hp with hp | hp <;> simp [hp]
  exact { h with
    storing := fun cause hc => absurd hc (hnot cause)
    stores := fun t cause hdue hne => absurd (h.stores t cause hdue hne).1 (hnot cause) }

end Buffering

/-! ## The end of the intake -/

/-- What holds of a writer once nothing will come any more: it takes no tick. -/
structure Ending (w : Writer) (log : Timeline) : Prop where
  closed : ∀ t, (t, .close) ∈ log → Closing w
  last : ∀ pre e post t, log = pre ++ e :: post → (t, .close) ∈ pre → e.2 ≠ .tick

/-- Every step keeps what holds at the end. -/
theorem Ending.beat {now : Nat} {items : List Intake} {w w' : Writer} {log : Timeline} {e : Option Event} (h : Ending w log)
    (hb : Beat now items w w' e) : Ending w' (note now log e) := by
  have hgoes : Closing w → Closing w' ∧ e ≠ some .tick := by
    cases hb <;> simp_all [Closing]
  have hends : e = some .close → Closing w' := by
    cases hb <;> simp [Closing]
  cases e with
  | none => exact ⟨fun t ht => (hgoes (h.closed t (by simpa using ht))).1, by simpa using h.last⟩
  | some f =>
    refine ⟨fun t ht => ?_, fun pre e post t hlog ht => ?_⟩
    · rcases List.mem_append.1 ht with ht | ht
      · exact (hgoes (h.closed t ht)).1
      · exact hends (congrArg some (Prod.mk.inj (List.mem_singleton.1 ht)).2.symm)
    · rcases concat_eq_append_cons hlog with ⟨rfl, rfl, -⟩ | ⟨post', -, hlog⟩
      · exact fun he => (hgoes (h.closed t ht)).2 (congrArg some he)
      · exact h.last pre e post' t hlog ht

/-! ## What waits -/

/-- What was taken in at a time has waited for no more than a period, and since the origin if it can go on waiting. -/
def Fresh (settings : WriterSettings) (start : Nat) (w : Writer) (now : Nat) (log : Timeline) (t : Nat) : Prop :=
  now ≤ t + settings.period ∧ (w.phase = .taking → origin start log ≤ t)

/-- What holds of the rows and the offsets that a writer has taken in. -/
structure Waiting (settings : WriterSettings) (start : Nat) (w : Writer) (now : Nat) (log : Timeline) : Prop where
  /-- A row is in the first attempt to store that follows. -/
  rows : ∀ pre t r post, log = pre ++ (t, .took (.row r)) :: post →
    match firstAttempt? post with
    | some (t', f) => r ∈ f.rows ∧ t' ≤ t + settings.period
    | none => r ∈ w.buffer ∧ Fresh settings start w now log t
  offsets : ∀ pre t item post, log = pre ++ (t, .took item) :: post →
    (∃ t' n outcome, (t', .settle item.partition n outcome) ∈ post ∧ item.offset < n ∧ t' ≤ t + settings.period) ∨
      (∃ e ∈ w.pending, e.1 = item.partition ∧ item.offset ≤ e.2) ∧ Fresh settings start w now log t
  stopped : w.phase = .stopped → w.pending = []

namespace TimingAux

variable {settings : WriterSettings} {start now t : Nat} {items : List Intake} {w w' : Writer} {log : Timeline} {e : Option Event}

/-- A step either stores the buffer or leaves the rows in it. -/
theorem buffer_beat (hb : Beat now items w w' e) :
    (∃ cause stored, e = some (.insert cause ⟨w.buffer, stored⟩)) ∨
      (∀ cause f, e ≠ some (.insert cause f)) ∧ ∀ r ∈ w.buffer, r ∈ w'.buffer := by
  cases hb with
  | take hp hc => exact .inr ⟨by simp, fun r hr => mem_buffer_take.2 (.inl hr)⟩
  | insert stored held hp hb => exact .inl ⟨_, stored, rfl⟩
  | _ => exact .inr ⟨by simp, fun r hr => hr⟩

/-- A step either is done with the first offset that is pending or leaves them all pending, or higher ones. -/
theorem pending_beat (hb : Beat now items w w' e) :
    (∃ q rest outcome, w.pending = q :: rest ∧ w'.pending = rest ∧ e = some (.settle q.1 (q.2 + 1) outcome)) ∨
      ∀ q ∈ w.pending, ∃ q' ∈ w'.pending, q'.1 = q.1 ∧ q.2 ≤ q'.2 := by
  cases hb with
  | @take item rest hp hc =>
    refine .inr fun q hq => ?_
    rw [pending_take]
    exact ProgressAux.exists_mark_of_mem _ _ hq
  | settle outcome hp hq => exact .inl ⟨_, _, outcome, hq, rfl, rfl⟩
  | _ => exact .inr fun q hq => ⟨q, hq, rfl, Int.le_refl _⟩

/-- What waits stays fresh with every step, for a flush does not end before nothing waits. -/
theorem fresh_beat (hb : Beat now items w w' e) (h : Fresh settings start w now log t)
    (hemptied : ∀ cause, w.phase = .committing cause → w.buffer = []) (hne : w.buffer ≠ [] ∨ w.pending ≠ []) :
    Fresh settings start w' now (note now log e) t := by
  refine ⟨h.1, fun hp' => ?_⟩
  cases hb with
  | take hp hc =>
    rw [origin_note (by simp [Event.IsQuiet])]
    exact h.2 hp
  | restart hp hq => exact absurd (hemptied _ hp) (hne.resolve_right (not_not.2 hq))
  | resume hp hq => exact absurd (hemptied _ hp) (hne.resolve_right (not_not.2 hq))
  | settle outcome hp hq => simp [hp] at hp'
  | _ => simp at hp'

end TimingAux

namespace Waiting

variable {settings : WriterSettings} {start now : Nat} {items : List Intake} {w w' : Writer} {log : Timeline} {e : Option Event}

/-- What is taken in waits from then on. -/
theorem beat_took {item : Intake} (hb : Beat now items w w' (some (.took item))) :
    (∀ r, item = .row r → r ∈ w'.buffer) ∧ ∃ q ∈ w'.pending, q.1 = item.partition ∧ item.offset ≤ q.2 := by
  cases hb with
  | take hp hc =>
    refine ⟨fun r hr => mem_buffer_take.2 (.inr hr), ?_⟩
    rw [pending_take]
    exact ProgressAux.exists_mark _ _ _

/-- A row that is taken in now is fresh, and so is an offset. -/
theorem fresh_now (h : Ticking settings start w now log) (item : Intake) :
    Fresh settings start w' now (log ++ [(now, .took item)]) now :=
  ⟨Nat.le_add_right _ _, fun _ => Nat.le_trans (Nat.le_of_eq (origin_concat ..)) h.begun⟩

/-- Every step keeps what holds of the rows. -/
theorem rows_beat (h : Waiting settings start w now log) (ht : Ticking settings start w now log)
    (hemptied : ∀ cause, w.phase = .committing cause → w.buffer = []) (hb : Beat now items w w' e) :
    ∀ pre t r post, note now log e = pre ++ (t, .took (.row r)) :: post →
      match firstAttempt? post with
      | some (t', f) => r ∈ f.rows ∧ t' ≤ t + settings.period
      | none => r ∈ w'.buffer ∧ Fresh settings start w' now (note now log e) t := by
  intro pre t r post hlog
  have hstays (hr : r ∈ w.buffer) (hfresh : Fresh settings start w now log t) (hnot : ∀ cause f, e ≠ some (.insert cause f)) :
      r ∈ w'.buffer ∧ Fresh settings start w' now (note now log e) t := by
    refine ⟨?_, fresh_beat hb hfresh hemptied (.inl (List.ne_nil_of_mem hr))⟩
    rcases buffer_beat hb with ⟨cause, stored, he⟩ | ⟨-, hbuffer⟩
    · exact absurd he (hnot _ _)
    · exact hbuffer r hr
  cases e with
  | none =>
    have hold := h.rows pre t r post (by simpa using hlog)
    split at hold
    · exact hold
    · exact hstays hold.1 hold.2 (by simp)
  | some f =>
    rcases concat_eq_append_cons hlog with ⟨rfl, hf, rfl⟩ | ⟨post', rfl, hbefore⟩
    · obtain ⟨rfl, rfl⟩ := Prod.mk.inj hf
      exact ⟨(beat_took hb).1 r rfl, fresh_now ht _⟩
    · have hold := h.rows pre t r post' hbefore
      rw [firstAttempt?_concat]
      split at hold
      · rename_i hfirst
        rw [hfirst]
        exact hold
      · rename_i hfirst
        rw [hfirst, Option.none_or]
        rcases buffer_beat hb with ⟨cause, stored, he⟩ | ⟨hnot, -⟩
        · obtain rfl := Option.some.inj he
          exact ⟨hold.1, hold.2.1⟩
        · cases f with
          | insert cause g => exact absurd rfl (hnot cause g)
          | _ => exact hstays hold.1 hold.2 hnot

/-- Every step keeps what holds of the offsets. -/
theorem offsets_beat (h : Waiting settings start w now log) (ht : Ticking settings start w now log)
    (hemptied : ∀ cause, w.phase = .committing cause → w.buffer = []) (hb : Beat now items w w' e) :
    ∀ pre t item post, note now log e = pre ++ (t, .took item) :: post →
      (∃ t' n outcome, (t', .settle item.partition n outcome) ∈ post ∧ item.offset < n ∧ t' ≤ t + settings.period) ∨
        (∃ q ∈ w'.pending, q.1 = item.partition ∧ item.offset ≤ q.2) ∧ Fresh settings start w' now (note now log e) t := by
  intro pre t item post hlog
  have hstays (hq : ∃ q ∈ w.pending, q.1 = item.partition ∧ item.offset ≤ q.2) (hfresh : Fresh settings start w now log t) :
      Fresh settings start w' now (note now log e) t := by
    obtain ⟨q, hq, -⟩ := hq
    exact fresh_beat hb hfresh hemptied (.inr (List.ne_nil_of_mem hq))
  cases e with
  | none =>
    refine (h.offsets pre t item post (by simpa using hlog)).imp_right fun ⟨hq, hfresh⟩ => ⟨?_, hstays hq hfresh⟩
    obtain ⟨q, hq, hqi⟩ := hq
    rcases pending_beat hb with ⟨_, _, _, _, _, he⟩ | hpending
    · exact absurd he (by simp)
    · obtain ⟨q', hq', hsame, hle⟩ := hpending q hq
      exact ⟨q', hq', hsame.trans hqi.1, Int.le_trans hqi.2 hle⟩
  | some f =>
    rcases concat_eq_append_cons hlog with ⟨rfl, hf, rfl⟩ | ⟨post', rfl, hbefore⟩
    · obtain ⟨rfl, rfl⟩ := Prod.mk.inj hf
      exact .inr ⟨(beat_took hb).2, fresh_now ht _⟩
    · rcases h.offsets pre t item post' hbefore with ⟨t', n, outcome, hmem, hsettled⟩ | ⟨hq, hfresh⟩
      · exact .inl ⟨t', n, outcome, List.mem_append_left _ hmem, hsettled⟩
      · have hfresh' := hstays hq hfresh
        obtain ⟨q, hq, hqi⟩ := hq
        rcases pending_beat hb with ⟨q', rest, outcome, hpending, hrest, he⟩ | hpending
        · obtain rfl := Option.some.inj he
          rw [hpending] at hq
          rcases List.mem_cons.1 hq with rfl | hq
          · refine .inl ⟨now, q.2 + 1, outcome, ?_, by omega, hfresh.1⟩
            rw [← hqi.1]
            simp
          · exact .inr ⟨⟨q, hrest ▸ hq, hqi⟩, hfresh'⟩
        · obtain ⟨q', hq', hsame, hle⟩ := hpending q hq
          exact .inr ⟨⟨q', hq', hsame.trans hqi.1, Int.le_trans hqi.2 hle⟩, hfresh'⟩

/-- Every step keeps what holds of what waits. -/
theorem beat (h : Waiting settings start w now log) (ht : Ticking settings start w now log)
    (hemptied : ∀ cause, w.phase = .committing cause → w.buffer = []) (hb : Beat now items w w' e) :
    Waiting settings start w' now (note now log e) where
  rows := h.rows_beat ht hemptied hb
  offsets := h.offsets_beat ht hemptied hb
  stopped hs := by
    cases hb with
    | @take item rest hp hc => rcases phase_take hp item with hph | hph <;> simp [hph] at hs
    | settle outcome hp hq => simp [hp] at hs
    | stop hp hq => exact hq
    | _ => cases hs

/-- What waits while time goes by is not kept waiting for longer than a period. -/
theorem fresh_wait {later t : Nat} (ht : Ticking settings start w now log) (h : Fresh settings start w now log t)
    (hp : w.phase = .taking) (hdue : ∀ t ∈ w.due?, later ≤ t) : Fresh settings start w later log t := by
  have hle : later ≤ w.ticker.due := hdue _ (by simp [due?, hp])
  rw [ht.due (by simp [hp]) (by simp [hp])] at hle
  have horigin := h.2 hp
  exact ⟨by omega, h.2⟩

/-- Waiting keeps what holds of what waits. -/
theorem wait {later : Nat} (h : Waiting settings start w now log) (ht : Ticking settings start w now log)
    (hstopped : w.phase = .stopped → w.buffer = []) (hp : w.phase = .taking ∨ w.phase = .stopped)
    (hdue : ∀ t ∈ w.due?, later ≤ t) : Waiting settings start w later log where
  rows pre t r post hlog := by
    have hold := h.rows pre t r post hlog
    split at hold
    · exact hold
    · have hne := mt hstopped (List.ne_nil_of_mem hold.1)
      exact ⟨hold.1, fresh_wait ht hold.2 (hp.resolve_right hne) hdue⟩
  offsets pre t item post hlog := by
    refine (h.offsets pre t item post hlog).imp_right fun ⟨hq, hfresh⟩ => ⟨hq, ?_⟩
    obtain ⟨q, hq, -⟩ := hq
    have hne := mt h.stopped (List.ne_nil_of_mem hq)
    exact fresh_wait ht hfresh (hp.resolve_right hne) hdue
  stopped := h.stopped

end Waiting

/-! ## Runs on a clock -/

/-- All that holds of a writer on a clock. -/
structure Steady (settings : WriterSettings) (start : Nat) (w : Writer) (now : Nat) (log : Timeline) : Prop where
  ticking : Ticking settings start w now log
  buffering : Buffering settings w now log
  ending : Ending w log
  waiting : Waiting settings start w now log

theorem Ticking.start (settings : WriterSettings) (topic : String) (now : Nat) :
    Ticking settings now (.start settings topic now) now [] where
  period := rfl
  due _ _ := rfl
  full := by simp [Writer.start]
  renewed := by simp [Writer.start]
  clock _ := Nat.le_add_right _ _
  begun := Nat.le_refl _
  ticks := by simp
  past := by simp
  sorted := List.Pairwise.nil

theorem Buffering.start (settings : WriterSettings) (topic : String) (now : Nat) :
    Buffering settings (.start settings topic now) now [] where
  ofSettings := rfl
  buffer := rfl
  bounded := Nat.zero_le _
  room _ := Nat.lt_of_lt_of_le Nat.one_pos (Nat.le_max_left _ _)
  emptied _ := rfl
  storing := by simp [Writer.start]
  stores := by simp [flushDue?]
  prompt := ⟨by simp, by simp⟩

/-- Every run keeps all that holds. -/
theorem Scene.Clocked.steady {owned : Int → Prop} {settings : WriterSettings} {topic : String} {start capacity now : Nat}
    {s : Services} {x : Scene} {log : Timeline}
    (h : Scene.Clocked owned (.start settings topic start capacity s) start x now log) :
    Steady settings start x.writer now log := by
  induction h with
  | start =>
    exact ⟨.start settings topic start, .start settings topic start, ⟨by simp, by simp⟩, ⟨by simp, by simp, fun _ => rfl⟩⟩
  | work hx hstep ih =>
    obtain ⟨ht, hbuf, hend, hwait⟩ := ih
    have hb := beat_of_step hstep
    have hemptied cause hc := hbuf.emptied (.inl ⟨cause, hc⟩)
    exact ⟨ht.beat hb, hbuf.beat hb, hend.beat hb, hwait.beat ht hemptied hb⟩
  | aside hx ha ih => cases ha <;> exact ih
  | wait hx hidle hlater hdue ih =>
    obtain ⟨ht, hbuf, hend, hwait⟩ := ih
    have hp := waits_of_idle hidle
    exact ⟨ht.wait hp hlater hdue, hbuf.wait hp, hend, hwait.wait ht (fun hs => hbuf.emptied (.inr hs)) hp hdue⟩

end Writer

end AuditTrail
