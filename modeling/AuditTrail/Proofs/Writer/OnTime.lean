import AuditTrail.Proofs.Writer.Holding
import AuditTrail.Proofs.Writer.Timing
import Mathlib.Data.List.Induction

/-!
# The batch writer is on time

What holds of a writer at each moment says what is on its timeline (`OnTime`). Rows are stored by the row that makes a batch full, by
a tick, or at the end, and by nothing else; a tick comes one period after the latest of the start, the tick before and the full batch
before; and nothing that was taken in waits for longer than a period.

Most of this can be read off the invariants. That two ticks with neither a tick nor a full batch in between enclose just the rows of
one batch needs the order of what is between them: the only attempt to store there is the one that the first tick brings about.
-/

namespace AuditTrail

namespace Writer

/-! ## Parts of a timeline -/

section

variable {limit t₁ t₂ : Nat} {log log' pre mid post : Timeline}

/-- What comes first on a prompt timeline is prompt. -/
theorem Prompt.of_append (h : Prompt limit (log ++ log')) : Prompt limit log where
  inserts pre t cause f post hlog := h.inserts pre t cause f (post ++ log') (by rw [hlog, List.append_assoc, List.cons_append])
  follows pre t cause e post hlog := h.follows pre t cause e (post ++ log') (by rw [hlog, List.append_assoc, List.cons_append])

/-- The rows of the attempts to store and those that wait are the rows that were taken in, in their order. -/
theorem Prompt.rowsTaken (h : Prompt limit log) :
    (attempts log).flatMap (·.rows) ++ waitingRows log = Writer.rowsTaken log := by
  induction log using List.reverseRecOn with
  | nil => rfl
  | append_singleton log e ih =>
    obtain ⟨t, e⟩ := e
    rw [rowsTaken_append, ← ih h.of_append, waitingRows_concat]
    cases e with
    | insert cause f =>
      obtain ⟨-, hrows, -⟩ := h.inserts log t cause f [] rfl
      simp [attempts, Writer.rowsTaken, hrows]
    | _ => simp [attempts, Writer.rowsTaken]

/-- Where no attempt to store is made all rows that are taken in wait. -/
theorem waitingRows_append (log : Timeline) (h : ∀ e ∈ mid, ∀ cause f, e.2 ≠ .insert cause f) :
    waitingRows (log ++ mid) = waitingRows log ++ rowsTaken mid := by
  induction mid using List.reverseRecOn with
  | nil => simp [rowsTaken]
  | append_singleton mid e ih =>
    obtain ⟨t, e⟩ := e
    have hold := ih fun e he => h e (List.mem_append_left _ he)
    rw [← List.append_assoc, waitingRows_concat, hold, rowsTaken_append]
    cases e with
    | insert cause f => exact absurd rfl (h (t, .insert cause f) (by simp) cause f)
    | took item => simp [rowsTaken]
    | _ => simp [rowsTaken]

/-- What is quiet leaves the origin, however much it is. -/
theorem origin_append (start : Nat) (log : Timeline) (h : ∀ e ∈ mid, e.2.IsQuiet) :
    origin start (log ++ mid) = origin start log := by
  induction mid using List.reverseRecOn with
  | nil => rw [List.append_nil]
  | append_singleton mid e ih =>
    rw [← List.append_assoc, ← ih fun e he => h e (List.mem_append_left _ he)]
    refine TimingAux.origin_note (e := some e.2) ?_ start e.1 (log ++ mid)
    simpa using h e (by simp)

/-- After a tick and before the next thing that brings a flush about only the attempt to store at the tick itself is made. -/
theorem Prompt.attempt_first (h : Prompt limit (pre ++ (t₁, .tick) :: mid)) (hquiet : ∀ e ∈ mid, e.2.IsQuiet)
    (hclose : ∀ e ∈ mid, e.2 ≠ .close) (before after : Timeline) (t : Nat) (cause : FlushCause) (f : Flush)
    (hmid : mid = before ++ (t, .insert cause f) :: after) : before = [] := by
  rcases List.eq_nil_or_concat before with hb | ⟨m, ⟨t', e⟩, rfl⟩
  · exact hb
  · rw [List.concat_eq_append] at hmid
    have hlog : pre ++ (t₁, .tick) :: mid = (pre ++ (t₁, .tick) :: m) ++ [(t', e)] ++ (t, .insert cause f) :: after := by
      simp [hmid]
    obtain ⟨hdue, -⟩ := h.inserts _ t cause f after hlog
    have hmem : (t', e) ∈ mid := by simp [hmid]
    rcases cause_of_due hdue with ⟨-, rfl⟩ | ⟨rfl, -⟩ | ⟨rfl, -⟩
    · exact absurd rfl ((hquiet (t, .insert .full f) (by simp [hmid])).2 f)
    · exact absurd rfl (hquiet _ hmem).1
    · exact absurd rfl (hclose _ hmem)

/-- At a tick just the rows wait that were taken in since the tick before, if nothing else has brought a flush about. -/
theorem Prompt.waitingRows_between (h : Prompt limit (pre ++ (t₁, .tick) :: mid ++ (t₂, .tick) :: post))
    (hquiet : ∀ e ∈ mid, e.2.IsQuiet) (hclose : ∀ e ∈ mid, e.2 ≠ .close) :
    waitingRows (pre ++ (t₁, .tick) :: mid) = Writer.rowsTaken mid := by
  have hattempt := h.of_append.attempt_first hquiet hclose
  have hfirst : waitingRows (pre ++ [(t₁, .tick)]) = waitingRows pre := waitingRows_concat ..
  have hdue : flushDue? limit (pre ++ [(t₁, .tick)]) = some (t₁, .tick) := flushDue?_concat ..
  by_cases hwait : waitingRows pre = []
  · have hnone : ∀ e ∈ mid, ∀ cause f, e.2 ≠ .insert cause f := by
      rintro ⟨t, e⟩ he cause f rfl
      obtain ⟨before, after, hmid⟩ := List.append_of_mem he
      obtain rfl := hattempt before after t cause f hmid
      obtain ⟨-, hrows, hne, -⟩ := h.of_append.inserts (pre ++ [(t₁, .tick)]) t cause f after (by simp [hmid])
      exact hne (hrows.trans (hfirst.trans hwait))
    rw [List.append_cons, waitingRows_append _ hnone, hfirst, hwait, List.nil_append]
  · -- The first tick stores what waits, so that nothing waits after what comes next.
    have hfollows := h.follows (pre ++ [(t₁, .tick)]) t₁ .tick
    cases mid with
    | nil =>
      obtain ⟨stored, he⟩ := hfollows (t₂, .tick) post (by simp) hdue (hfirst ▸ hwait)
      exact absurd he (by simp)
    | cons e m =>
      obtain ⟨stored, rfl⟩ := hfollows e (m ++ (t₂, .tick) :: post) (by simp) hdue (hfirst ▸ hwait)
      have hnone : ∀ e ∈ m, ∀ cause f, e.2 ≠ .insert cause f := by
        rintro ⟨t, e⟩ he cause f rfl
        obtain ⟨before, after, hm⟩ := List.append_of_mem he
        exact absurd (hattempt (_ :: before) after t cause f (congrArg (List.cons _) hm)) (List.cons_ne_nil _ _)
      rw [List.append_cons, List.append_cons, waitingRows_append _ hnone, waitingRows_concat]
      rfl

end

/-! ## What the outcomes say -/

/-- What a step settles as written is a cursor that it writes, what it settles as held is held, and where it fails it cannot
write. -/
theorem outcome_of_event {attention : Attention} {w : Writer} {c : Channel Intake} {s : Services} {p n : Int} {outcome : Settling}
    (h : w.event attention c s = some (.settle p n outcome)) :
    (outcome = .written → (p, n) ∈ w.writes s) ∧ (outcome = .held → p ∈ w.held) ∧
      (outcome = .failed → s.cursors.failPuts = true) := by
  unfold event at h
  split at h
  · cases attention with
    | intake =>
      have hevent := Option.some.inj h
      split at hevent <;> exact absurd hevent (by simp)
    | ticker => exact absurd h (by simp)
  · obtain ⟨f, -, hf⟩ := Option.map_eq_some_iff.1 h
    exact absurd hf (by simp)
  · rename_i cause hp
    obtain ⟨q, hq, hsettle⟩ := Option.map_eq_some_iff.1 h
    obtain ⟨rest, hpending⟩ : ∃ rest, w.pending = q :: rest := List.head?_eq_some_iff.1 hq
    obtain ⟨rfl, rfl, rfl⟩ := Event.settle.inj hsettle
    by_cases hheld : q.1 ∈ w.held
    · simp [hheld]
    · cases hfail : s.cursors.failPuts <;> simp [writes, hp, hpending, hheld, Cursors.put, hfail, Except.toBool]
  · exact absurd h (by simp)

/-- A cursor that a step writes is stored after it. -/
theorem stored_of_writes {senders : Bool} {w w' : Writer} {c c' : Channel Intake} {s s' : Services} {p n : Int}
    (ht : Turn senders w c s w' c' s') (h : (p, n) ∈ w.writes s) : s'.cursors.stored w.topic p = some n := by
  cases ht with
  | @put cause e rest hp hq hh =>
    cases hfail : s.cursors.failPuts with
    | true => exact absurd h (by simp [writes, hp, hq, Cursors.put, hfail])
    | false =>
      obtain ⟨rfl, rfl⟩ : p = e.1 ∧ n = e.2 + 1 := by simpa [writes, hp, hq, hh, Cursors.put, hfail] using h
      rw [Services.putCursor_of_ok hfail]
      exact Cursors.stored_set_self ..
  | skip hp hq hh => exact absurd h (by simp [writes, hp, hq, hh])
  | resume ticker hp hq hc => exact absurd h (by simp [writes, hp, hq])
  | stop hp hq => exact absurd h (by simp [writes, hp, hq])
  | _ =>
    rw [writes_eq_nil (by simp_all)] at h
    exact absurd h List.not_mem_nil

/-- What is on a timeline with what may have to be noted is what is noted last, or was there before. -/
theorem eq_append_cons_of_note {now t : Nat} {log pre post : Timeline} {o : Option Event} {e : Event}
    (h : note now log o = pre ++ (t, e) :: post) : (pre = log ∧ t = now ∧ o = some e) ∨ ∃ rest, log = pre ++ (t, e) :: rest := by
  cases o with
  | none => exact .inr ⟨post, note_none now log ▸ h⟩
  | some e' =>
    rcases TimingAux.concat_eq_append_cons h with ⟨hpre, hlast, -⟩ | ⟨rest, -, hrest⟩
    · obtain ⟨rfl, rfl⟩ := Prod.mk.inj hlast
      exact .inl ⟨hpre, rfl, rfl⟩
    · exact .inr ⟨rest, hrest⟩

section

variable {owned : Int → Prop} {first x : Scene} {start now t : Nat} {log pre post : Timeline} {p n : Int}

/-- A run on a clock is a run. -/
theorem Scene.Clocked.run (h : Scene.Clocked owned first start x now log) : Scene.Run owned first x := by
  induction h with
  | start => exact .refl
  | work hx hstep ih => exact ih.tail (.work hstep)
  | aside hx ha ih => exact ih.tail ha.step
  | wait hx hidle hlater hdue ih => exact ih

/-- What is on the timeline of a run was noted at a step of the run. What was written or held then still is. -/
theorem Scene.Clocked.exists_step (h : Scene.Clocked owned first start x now log) {e : Event}
    (hlog : log = pre ++ (t, e) :: post) : ∃ y attention w c s, Scene.Clocked owned first start y t pre ∧
      y.writer.step attention t y.handles y.channel y.services = some (w, c, s) ∧
      y.writer.event attention y.channel y.services = some e ∧
      (∀ q ∈ y.writer.writes y.services, q ∈ x.written) ∧ ∀ p ∈ y.writer.held, p ∈ x.writer.held := by
  induction h generalizing post with
  | start => exact absurd hlog (by simp)
  | @work x now log attention w c s hx hstep ih =>
    have hheld p (hp : p ∈ x.writer.held) : p ∈ w.held := (HoldingAux.held_iff_turn (turn_of_step hstep)).2 (.inl hp)
    rcases eq_append_cons_of_note hlog with ⟨rfl, rfl, hevent⟩ | ⟨rest, hrest⟩
    · exact ⟨x, attention, w, c, s, hx, hstep, hevent, fun q hq => List.mem_append_right _ hq, hheld⟩
    · obtain ⟨y, attention', w', c', s', hy, hstep', hevent, hwrites, hkept⟩ := ih hrest
      exact ⟨y, attention', w', c', s', hy, hstep', hevent, fun q hq => List.mem_append_left _ (hwrites q hq),
        fun p hp => hheld p (hkept p hp)⟩
  | aside hx ha ih => cases ha <;> exact ih hlog
  | wait hx hidle hlater hdue ih => exact ih hlog

/-- What a run settles as written has been written, what it settles as held is held, and where it fails no cursor could be written. -/
theorem Scene.Clocked.settled {outcome : Settling} (h : Scene.Clocked owned first start x now log)
    (he : (t, .settle p n outcome) ∈ log) :
    (outcome = .written → (p, n) ∈ x.written) ∧ (outcome = .held → p ∈ x.writer.held) ∧
      (outcome = .failed → ∃ y pre, Scene.Clocked owned first start y t pre ∧ y.services.cursors.failPuts = true) := by
  obtain ⟨pre, post, hlog⟩ := List.append_of_mem he
  obtain ⟨y, attention, w, c, s, hy, -, hevent, hwrites, hkept⟩ := h.exists_step hlog
  obtain ⟨hwritten, hheld, hfailed⟩ := outcome_of_event hevent
  exact ⟨fun ho => hwrites _ (hwritten ho), fun ho => hkept _ (hheld ho), fun ho => ⟨y, pre, hy, hfailed ho⟩⟩

/-- A cursor that a run settles as written is stored when the run has come to there. -/
theorem Scene.Clocked.stored (h : Scene.Clocked owned first start x now log)
    (hlog : log = pre ++ (t, .settle p n .written) :: post) :
    ∃ y, Scene.Clocked owned first start y t (pre ++ [(t, .settle p n .written)]) ∧
      y.services.cursors.stored first.writer.topic p = some n := by
  obtain ⟨y, attention, w, c, s, hy, hstep, hevent, -, -⟩ := h.exists_step hlog
  have hafter := hy.work hstep
  rw [hevent, note_some] at hafter
  refine ⟨_, hafter, ?_⟩
  rw [← hy.run.topic]
  exact stored_of_writes (turn_of_step hstep) ((outcome_of_event hevent).1 rfl)

end

/-! ## On time -/

/-- What a run of a writer on a clock has done, and when. -/
structure OnTime (owned : Int → Prop) (first : Scene) (start : Nat) (x : Scene) (now : Nat) (log : Timeline) : Prop where
  sorted : log.Pairwise (·.1 ≤ ·.1)
  past : ∀ e ∈ log, e.1 ≤ now
  /-- Every row that was taken in is in one attempt to store, or in the buffer. -/
  accounted : (attempts log).flatMap (·.rows) ++ x.writer.buffer = rowsTaken log
  /-- An attempt to store comes with the row that makes the batch full, with a tick or at the end, and stores all that waits. -/
  prompt : Prompt first.writer.settings.limit log
  /-- No time goes by before a flush that is due. -/
  flush : ∀ t cause, flushDue? first.writer.settings.limit log = some (t, cause) → x.writer.buffer ≠ [] →
    x.writer.phase = .storing cause ∧ t = now
  /-- A tick comes one period after the latest of the start, the last tick and the last full batch. -/
  ticks : ∀ pre t post, log = pre ++ (t, .tick) :: post → t = origin start pre + first.writer.settings.period
  /-- No time goes by before a tick that is due, and it can come just when it is due. -/
  clock : x.writer.phase ≠ .stopped → now ≤ origin start log + first.writer.settings.period
  enabled : x.writer.phase = .taking →
    ((x.writer.step .ticker now x.handles x.channel x.services).isSome ↔ now = origin start log + first.writer.settings.period)
  /-- No row stays in the buffer for longer than a period. -/
  rows : ∀ pre t r post, log = pre ++ (t, .took (.row r)) :: post →
    match firstAttempt? post with
    | some (t', f) => r ∈ f.rows ∧ t' ≤ t + first.writer.settings.period
    | none => r ∈ x.writer.buffer ∧ now ≤ t + first.writer.settings.period
  /-- The writer is done with every offset within a period. -/
  offsets : ∀ pre t item post, log = pre ++ (t, .took item) :: post →
    (∃ t' n outcome, (t', .settle item.partition n outcome) ∈ post ∧ item.offset < n ∧ t' ≤ t + first.writer.settings.period) ∨
      now ≤ t + first.writer.settings.period
  /-- It is done with an offset if the cursor is written, if the partition is held, or if the cursor cannot be written then. -/
  written : ∀ t p n, (t, .settle p n .written) ∈ log → (p, n) ∈ x.written
  /-- A cursor that is written is stored at once. -/
  stored : ∀ pre t p n post, log = pre ++ (t, .settle p n .written) :: post →
    ∃ y, Scene.Clocked owned first start y t (pre ++ [(t, .settle p n .written)]) ∧
      y.services.cursors.stored first.writer.topic p = some n
  held : ∀ t p n, (t, .settle p n .held) ∈ log → p ∈ x.writer.held
  failed : ∀ t p n, (t, .settle p n .failed) ∈ log →
    ∃ y pre, Scene.Clocked owned first start y t pre ∧ y.services.cursors.failPuts = true
  /-- Rows that are taken in between two ticks are all in the attempt to store at the second, if no full batch comes in between. -/
  between : ∀ pre t₁ mid t₂ post, log = pre ++ (t₁, .tick) :: mid ++ (t₂, .tick) :: post → (∀ e ∈ mid, e.2.IsQuiet) →
    t₂ = t₁ + first.writer.settings.period ∧
      (rowsTaken mid ≠ [] → post = [] ∧ now = t₂ ∨
        ∃ stored rest, post = (t₂, .insert .tick ⟨rowsTaken mid, stored⟩) :: rest)
  /-- A tick with an empty buffer stores nothing, nor does the end. -/
  idle : ∀ pre t e t' cause f post, log = pre ++ (t, e) :: (t', .insert cause f) :: post → e = .tick ∨ e = .close →
    waitingRows pre ≠ []

namespace OnTimeAux

variable {owned : Int → Prop} {settings : WriterSettings} {start now : Nat} {x : Scene} {log : Timeline}

/-- A writer that takes in can tick just when a period has gone by since the origin. -/
theorem tick_iff {w : Writer} {senders : Bool} {c : Channel Intake} {s : Services} (h : Ticking settings start w now log)
    (hp : w.phase = .taking) :
    (w.step .ticker now senders c s).isSome ↔ now = origin start log + settings.period := by
  have hdue := h.due (by simp [hp]) (by simp [hp])
  have hclock := h.clock (by simp [hp])
  have hstep : (w.step .ticker now senders c s).isSome ↔ w.ticker.due ≤ now := by
    simp [step, hp, Ticker.isDue, apply_ite]
  rw [hstep]
  omega

/-- Between two ticks with neither a tick nor a full batch in between a period goes by. -/
theorem period_between (h : Ticking settings start x.writer now log) {pre mid post : Timeline} {t₁ t₂ : Nat}
    (hlog : log = pre ++ (t₁, .tick) :: mid ++ (t₂, .tick) :: post) (hquiet : ∀ e ∈ mid, e.2.IsQuiet) :
    t₂ = t₁ + settings.period := by
  have hfirst := h.ticks pre t₁ (mid ++ (t₂, .tick) :: post) (by rw [hlog, List.append_assoc, List.cons_append])
  have hsecond := h.ticks (pre ++ (t₁, .tick) :: mid) t₂ post hlog
  have horigin : origin start (pre ++ (t₁, .tick) :: mid) = t₁ := by
    rw [List.append_cons, origin_append start _ hquiet, origin_concat]
    exact Nat.max_eq_right (by omega)
  rw [hsecond, horigin]

/-- The rows that are taken in between two ticks are stored at the second if no full batch comes in between. -/
theorem stored_between (h : Steady settings start x.writer now log) {pre mid post : Timeline} {t₁ t₂ : Nat}
    (hlog : log = pre ++ (t₁, .tick) :: mid ++ (t₂, .tick) :: post) (hquiet : ∀ e ∈ mid, e.2.IsQuiet)
    (hrows : rowsTaken mid ≠ []) :
    post = [] ∧ now = t₂ ∨ ∃ stored rest, post = (t₂, .insert .tick ⟨rowsTaken mid, stored⟩) :: rest := by
  have hclose : ∀ e ∈ mid, e.2 ≠ .close := by
    rintro ⟨t, e⟩ he rfl
    exact h.ending.last _ (t₂, .tick) post t hlog (by simp [he]) rfl
  have hwait : waitingRows (pre ++ (t₁, .tick) :: mid ++ [(t₂, .tick)]) = rowsTaken mid := by
    rw [waitingRows_concat]
    exact (hlog ▸ h.buffering.prompt).waitingRows_between hquiet hclose
  have hdue : flushDue? settings.limit (pre ++ (t₁, .tick) :: mid ++ [(t₂, .tick)]) = some (t₂, .tick) := flushDue?_concat ..
  cases post with
  | nil =>
    subst hlog
    have hbuffer := h.buffering.buffer.trans hwait
    exact .inl ⟨rfl, (h.buffering.stores t₂ .tick hdue (hbuffer ▸ hrows)).2.symm⟩
  | cons e rest =>
    obtain ⟨stored, he⟩ := h.buffering.prompt.follows _ t₂ .tick e rest (hlog.trans (List.append_cons ..)) hdue (hwait ▸ hrows)
    exact .inr ⟨stored, rest, by rw [he, hwait]⟩

end OnTimeAux

open OnTimeAux

/-- On every run of the writer on a clock, whatever comes in and whenever, and whatever calls fail, everything is done on time: rows
are stored by the row that makes a batch full, by a tick or at the end, ticks come one period after the latest of the start, the last
tick and the last full batch, and nothing that was taken in waits for longer than a period. -/
theorem flushes_on_time (owned : Int → Prop) (settings : WriterSettings) (topic : String) (start capacity : Nat) (s : Services)
    {x : Scene} {now : Nat} {log : Timeline} (h : Scene.Clocked owned (.start settings topic start capacity s) start x now log) :
    OnTime owned (.start settings topic start capacity s) start x now log := by
  have hsteady := h.steady
  obtain ⟨hticking, hbuffering, hending, hwaiting⟩ := h.steady
  refine
    { sorted := hticking.sorted
      past := hticking.past
      accounted := by rw [hbuffering.buffer, hbuffering.prompt.rowsTaken]
      prompt := hbuffering.prompt
      flush := hbuffering.stores
      ticks := hticking.ticks
      clock := hticking.clock
      enabled := tick_iff hticking
      rows := ?_
      offsets := ?_
      written := fun t p n he => (h.settled he).1 rfl
      stored := fun pre t p n post hlog => h.stored hlog
      held := fun t p n he => (h.settled he).2.1 rfl
      failed := fun t p n he => (h.settled he).2.2 rfl
      between := ?_
      idle := ?_ }
  · intro pre t r post hlog
    have hrow := hwaiting.rows pre t r post hlog
    cases hfirst : firstAttempt? post with
    | none =>
      rw [hfirst] at hrow
      exact ⟨hrow.1, hrow.2.1⟩
    | some attempt =>
      rw [hfirst] at hrow
      exact hrow
  · intro pre t item post hlog
    rcases hwaiting.offsets pre t item post hlog with hdone | ⟨-, hfresh⟩
    · exact .inl hdone
    · exact .inr hfresh.1
  · intro pre t₁ mid t₂ post hlog hquiet
    exact ⟨period_between hticking hlog hquiet, stored_between hsteady hlog hquiet⟩
  · intro pre t e t' cause f post hlog he
    obtain ⟨-, hrows, hne, -⟩ := hbuffering.prompt.inserts (pre ++ [(t, e)]) t' cause f post (hlog.trans (List.append_cons ..))
    rw [hrows, waitingRows_concat] at hne
    rcases he with rfl | rfl <;> exact hne

namespace Scene

/-- The writer can take no step now, and need not before a later moment. -/
def Waits (x : Scene) (now later : Nat) : Prop :=
  x.writer.step .intake now x.handles x.channel x.services = none ∧ x.writer.step .ticker now x.handles x.channel x.services = none ∧
    now ≤ later ∧ ∀ t ∈ x.writer.due?, later ≤ t

instance (x : Scene) (now later : Nat) : Decidable (x.Waits now later) :=
  inferInstanceAs (Decidable (_ = none ∧ _ = none ∧ _ ∧ _))

/-- The scene with its time and its timeline after something has happened at a moment, with the time until then going by. -/
def afterClocked (p : Scene × Nat × Timeline) (e : Nat × Happening) : Option (Scene × Nat × Timeline) :=
  if e.1 = p.2.1 ∨ p.1.Waits p.2.1 e.1 then
    match e.2 with
    | .work attention _ => (p.1.after (.work attention e.1)).map fun y =>
      (y, e.1, note e.1 p.2.2 (p.1.writer.event attention p.1.channel p.1.services))
    | h => (p.1.after h).map fun y => (y, e.1, p.2.2)
  else none

variable {owned : Int → Prop} {first x y : Scene} {start now later : Nat} {log log' : Timeline}

/-- Whatever happens one after the other, each at its moment, makes a run on a clock. -/
theorem clocked_of_afters {es : List (Nat × Happening)} (hx : Clocked owned first start x now log)
    (h : es.foldlM afterClocked (x, now, log) = some (y, later, log')) : Clocked owned first start y later log' := by
  induction es generalizing x now log with
  | nil =>
    obtain ⟨rfl, rfl, rfl⟩ : x = y ∧ now = later ∧ log = log' := by simpa using h
    exact hx
  | cons e es ih =>
    obtain ⟨t, e⟩ := e
    obtain ⟨p, hp, hy⟩ := Option.bind_eq_some_iff.1 h
    unfold afterClocked at hp
    split at hp
    · rename_i hwait
      have hx : Clocked owned first start x t log := by
        rcases hwait with rfl | ⟨hintake, hticker, hlater, hdue⟩
        · exact hx
        · refine hx.wait (fun attention => ?_) hlater hdue
          cases attention with
          | intake => exact hintake
          | ticker => exact hticker
      cases e with
      | work attention now' =>
        obtain ⟨z, hz, rfl⟩ := Option.map_eq_some_iff.1 hp
        obtain ⟨⟨w, c, s⟩, hw, hz⟩ := Option.bind_eq_some_iff.1 hz
        obtain rfl := Option.some.inj hz
        exact ih (hx.work hw) hy
      | send sender item =>
        obtain ⟨z, hz, rfl⟩ := Option.map_eq_some_iff.1 hp
        exact ih (hx.aside (aside_of_send hz)) hy
      | release =>
        obtain ⟨z, hz, rfl⟩ := Option.map_eq_some_iff.1 hp
        exact ih (hx.aside (aside_of_release hz)) hy
      | fail inserts puts =>
        obtain ⟨z, hz, rfl⟩ := Option.map_eq_some_iff.1 hp
        exact ih (hx.aside (aside_of_fail hz)) hy
    · exact absurd hp (by simp)

end Scene

/-- A run on which the second row makes a batch full and puts the next tick off, the third is stored at this tick, the fourth at the
tick after it, although an offset is skipped meanwhile, and nothing at the last tick. -/
theorem flushes_on_time_full_ticks :
    let row (o : Int) : StoredChange := .ofEvent ⟨"d", "t", .insert, "g", ⟨0, 0⟩, .none⟩ 0 o ⟨0, 0⟩
    let first : Scene := .start { batchSize := 2, flushInterval := 10 } "binlog" 0 4 {}
    let log : Timeline :=
      [(0, .took (.row (row 0))), (4, .took (.row (row 1))), (4, .insert .full ⟨[row 0, row 1], true⟩), (4, .settle 0 2 .written),
        (6, .took (.row (row 2))), (14, .tick), (14, .insert .tick ⟨[row 2], true⟩), (14, .settle 0 3 .written),
        (17, .took (.row (row 3))), (20, .took (.skip 0 4)), (24, .tick), (24, .insert .tick ⟨[row 3], true⟩),
        (24, .settle 0 5 .written), (34, .tick)]
    ∃ x, Scene.Clocked (fun _ => True) first 0 x 34 log ∧ OnTime (fun _ => True) first 0 x 34 log := by
  intro row first log
  let take (t : Nat) (item : Intake) : List (Nat × Scene.Happening) :=
    [(t, .send .caller item), (t, .send .caller item), (t, .work .intake t)]
  let work (t n : Nat) : List (Nat × Scene.Happening) := List.replicate n (t, .work .intake t)
  let events : List (Nat × Scene.Happening) :=
    take 0 (.row (row 0)) ++ take 4 (.row (row 1)) ++ work 4 3 ++ take 6 (.row (row 2)) ++ [(14, .work .ticker 14)] ++ work 14 3 ++
      take 17 (.row (row 3)) ++ take 20 (.skip 0 4) ++ [(24, .work .ticker 24)] ++ work 24 3 ++ [(34, .work .ticker 34)] ++ work 34 2
  obtain ⟨⟨x, now, log'⟩, hx⟩ : ∃ p, events.foldlM Scene.afterClocked (first, 0, []) = some p :=
    Option.isSome_iff_exists.1 (by decide +kernel)
  have hlog : (events.foldlM Scene.afterClocked (first, 0, [])).map (·.2) = some (34, log) := by
    decide +kernel
  rw [hx] at hlog
  obtain ⟨rfl, rfl⟩ := Prod.mk.inj (Option.some.inj hlog)
  have hrun : Scene.Clocked (fun _ => True) first 0 x 34 log := Scene.clocked_of_afters .start hx
  exact ⟨x, hrun, flushes_on_time (fun _ => True) _ _ _ _ _ hrun⟩

end Writer

end AuditTrail
