import AuditTrail.Proofs.Writer.Accounting

/-!
# A cursor gets as far as it may

Of every item that the writer has taken in the offset is pending or the cursor is past it, unless the partition is held (`Tracked`).
As long as cursors can be written, every step keeps that, and nothing is pending when the writer has stopped. So a writer with
nothing pending has its cursors just behind what it has taken in, wherever it holds none.

As long as rows can be stored, no attempt to store fails and no partition is held: the batches that are stored are then all rows that
have left the buffer.
-/

namespace AuditTrail

namespace Writer

/-- The offset of an item is pending or the cursor of its partition is past it, unless the partition is held. -/
def Tracked (w : Writer) (s : Services) (i : Intake) : Prop :=
  i.partition ∈ w.held ∨ (∃ e ∈ w.pending, e.1 = i.partition ∧ i.offset ≤ e.2) ∨
    ∃ n, s.cursors.stored w.topic i.partition = some n ∧ i.offset < n

/-- The cursor that the next step of the writer tries to write. -/
def puts (w : Writer) : List (Int × Int) :=
  match w.phase, w.pending with
  | .committing _, (partition, offset) :: _ => if w.held.contains partition then [] else [(partition, offset + 1)]
  | _, _ => []

/-- Cursors can be written, and every item that is accepted waits in the channel or is tracked. -/
structure Tracking (x : Scene) : Prop where
  puts : x.services.cursors.failPuts = false
  tracked : ∀ i ∈ x.accepted, i ∈ x.channel.items ∨ Tracked x.writer x.services i
  stopped : x.writer.phase = .stopped → x.writer.pending = []

namespace ProgressAux

/-! ### What is noted of an item -/

/-- An offset that is noted is pending, or a higher one is. -/
theorem exists_mark (p o : Int) (l : List (Int × Int)) : ∃ e ∈ mark p o l, e.1 = p ∧ o ≤ e.2 := by
  induction l with
  | nil => exact ⟨(p, o), List.mem_singleton_self _, rfl, Int.le_refl _⟩
  | cons f l ih =>
    obtain ⟨q, m⟩ := f
    simp only [mark]
    split
    · exact ⟨(p, o), List.mem_cons_self, rfl, Int.le_refl _⟩
    · split
      · rename_i hpq
        exact ⟨(q, max m o), List.mem_cons_self, hpq.symm, Int.le_max_right _ _⟩
      · obtain ⟨e, he, hep⟩ := ih
        exact ⟨e, List.mem_cons_of_mem _ he, hep⟩

/-- What was pending before an offset is noted still is, or a higher offset of its partition. -/
theorem exists_mark_of_mem (p o : Int) {l : List (Int × Int)} {e : Int × Int} (h : e ∈ l) :
    ∃ f ∈ mark p o l, f.1 = e.1 ∧ e.2 ≤ f.2 := by
  induction l with
  | nil => exact absurd h List.not_mem_nil
  | cons f l ih =>
    obtain ⟨q, m⟩ := f
    simp only [mark]
    split
    · exact ⟨e, List.mem_cons_of_mem _ h, rfl, Int.le_refl _⟩
    · split
      · rcases List.mem_cons.1 h with rfl | h
        · exact ⟨(q, max m o), List.mem_cons_self, rfl, Int.le_max_left _ _⟩
        · exact ⟨e, List.mem_cons_of_mem _ h, rfl, Int.le_refl _⟩
      · rcases List.mem_cons.1 h with rfl | h
        · exact ⟨(q, m), List.mem_cons_self, rfl, Int.le_refl _⟩
        · obtain ⟨f, hf, hfe⟩ := ih h
          exact ⟨f, List.mem_cons_of_mem _ hf, hfe⟩

/-! ### Steps -/

variable {senders : Bool} {w w' : Writer} {c c' : Channel Intake} {s s' : Services} {i : Intake}

/-- An item that is taken in is tracked. -/
theorem tracked_take (w : Writer) (s : Services) (i : Intake) : Tracked (w.take i) s i := by
  obtain ⟨e, he, hep⟩ := exists_mark i.partition i.offset w.pending
  exact Or.inr (Or.inl ⟨e, by rwa [pending_take], hep⟩)

/-- Writing the cursor of the first partition that is pending keeps an item tracked, if its cursor does not go back. -/
theorem tracked_put {e : Int × Int} {rest : List (Int × Int)} (h : Tracked w s i) (hq : w.pending = e :: rest)
    (hlow : e.1 = i.partition → ∀ n, s.cursors.stored w.topic e.1 = some n → n ≤ e.2) (hputs : s.cursors.failPuts = false) :
    Tracked { w with pending := rest } (s.putCursor w.topic e.1 (e.2 + 1)) i := by
  rw [Services.putCursor_of_ok hputs]
  have hself : i.partition = e.1 → i.offset ≤ e.2 →
      Tracked { w with pending := rest } { s with cursors := s.cursors.set w.topic e.1 (e.2 + 1) } i := by
    intro hp ho
    refine Or.inr (Or.inr ⟨e.2 + 1, ?_, by omega⟩)
    rw [hp]
    exact Cursors.stored_set_self _ _ _ _
  rcases h with hheld | ⟨f, hf, hfp, hfo⟩ | ⟨n, hn, hlt⟩
  · exact Or.inl hheld
  · rcases List.mem_cons.1 (hq ▸ hf) with rfl | hf
    · exact hself hfp.symm hfo
    · exact Or.inr (Or.inl ⟨f, hf, hfp, hfo⟩)
  · by_cases hp : i.partition = e.1
    · have hle := hlow hp.symm n (hp ▸ hn)
      exact hself hp (by omega)
    · refine Or.inr (Or.inr ⟨n, ?_, hlt⟩)
      rw [← hn]
      exact Cursors.stored_set_partition _ _ _ hp

/-- Every step of the writer keeps an item tracked, if a cursor that it writes can be written and that of the item would not go
back. -/
theorem tracked_turn (h : Tracked w s i) (ht : Turn senders w c s w' c' s') (hputs : w.puts ≠ [] → s.cursors.failPuts = false)
    (hlow : ∀ e ∈ w.pending, e.1 = i.partition → ∀ n, s.cursors.stored w.topic e.1 = some n → n ≤ e.2) : Tracked w' s' i := by
  cases ht with
  | @take item rest hp hc =>
    unfold Tracked
    rw [held_take, pending_take, topic_take]
    rcases h with hheld | ⟨e, he, hep, heo⟩ | hcur
    · exact Or.inl hheld
    · obtain ⟨f, hf, hfe, hef⟩ := exists_mark_of_mem item.partition item.offset he
      exact Or.inr (Or.inl ⟨f, hf, hfe.trans hep, by omega⟩)
    · exact Or.inr (Or.inr hcur)
  | drop hp hb hi => exact h.imp_left fun hheld => SafeAux.mem_hold.2 (Or.inl hheld)
  | @skip cause e rest hp hq hh =>
    rcases h with hheld | ⟨f, hf, hfp, hfo⟩ | hcur
    · exact Or.inl hheld
    · rcases List.mem_cons.1 (hq ▸ hf) with rfl | hf
      · exact Or.inl (hfp ▸ hh)
      · exact Or.inr (Or.inl ⟨f, hf, hfp, hfo⟩)
    · exact Or.inr (Or.inr hcur)
  | put hp hq hh => exact tracked_put h hq (hlow _ (hq ▸ List.mem_cons_self)) (hputs (by simp [puts, hp, hq, hh]))
  | _ => exact h

/-- An item that leaves the channel in a step of the writer is tracked, and others stay where they are. -/
theorem waiting_turn (ht : Turn senders w c s w' c' s') (hstop : w.phase = .committing .closed → c.items = [])
    (hi : i ∈ c.items) : i ∈ c'.items ∨ Tracked w' s' i := by
  cases ht with
  | take hp hc =>
    rcases List.mem_cons.1 (hc ▸ hi) with rfl | hi
    · exact Or.inr (tracked_take w s i)
    · exact Or.inl hi
  | stop hp hq => exact absurd hi (by simp [hstop hp])
  | _ => exact Or.inl hi

/-- A writer that has stopped has nothing pending. -/
theorem pending_of_stopped (ht : Turn senders w c s w' c' s') (hst : w'.phase = .stopped) : w'.pending = [] := by
  cases ht with
  | take hp hc => rcases phase_take hp _ with h | h <;> exact absurd (hst.symm.trans h) (by simp)
  | stop hp hq => exact hq
  | skip hp hq hh => exact absurd (hst.symm.trans hp) (by simp)
  | put hp hq hh => exact absurd (hst.symm.trans hp) (by simp)
  | _ => exact absurd hst (by simp)

/-- While inserts succeed, an attempt to store does. -/
theorem stored_of_flushes (hins : s.store.failInserts = false) : ∀ f ∈ w.flushes s, f.stored = true := by
  intro f hf
  unfold flushes at hf
  split at hf
  · split at hf
    · exact absurd hf List.not_mem_nil
    · obtain rfl := List.mem_singleton.1 hf
      simp [Store.insert, hins]
      rfl
  · exact absurd hf List.not_mem_nil

/-- While inserts succeed, no more partitions are held. -/
theorem held_turn (ht : Turn senders w c s w' c' s') (hins : s.store.failInserts = false) : w'.held = w.held := by
  cases ht with
  | take hp hc => exact held_take w _
  | drop hp hb hi => exact absurd (hins.symm.trans (Store.insert_eq_error hi)) (by decide)
  | _ => rfl

end ProgressAux

open ProgressAux

variable {owned : Int → Prop} {ok : Services → Services → Prop} {settings : WriterSettings} {topic : String}
  {now capacity : Nat} {s : Services} {first x : Scene} {fs : List Flush} {taken : List Intake}

/-- An offset that is pending is not behind the cursor. -/
theorem Safe.le_pending (h : Safe owned s topic x taken)
    (hlow : ∀ i ∈ x.accepted, ∀ n, s.cursors.stored topic i.partition = some n → n ≤ i.offset) {e : Int × Int}
    (he : e ∈ x.writer.pending) (hown : owned e.1) {n : Int} (hn : x.services.cursors.stored topic e.1 = some n) :
    n ≤ e.2 := by
  rcases h.cursors e.1 n hown hn with hfirst | hwritten
  · obtain ⟨i, hi, hip, hio⟩ := h.pending e he
    have hle := hlow i (h.accepted ▸ List.mem_append_left _ hi) n (hip ▸ hfirst)
    omega
  · exact h.ahead _ hwritten e he rfl

namespace ProgressAux

variable {i : Intake} {w : Writer} {c : Channel Intake} {t : Services}

/-- A step of the writer keeps an item of a partition that it owns waiting or tracked, if a cursor that it writes can be written. -/
theorem waits_or_tracked_turn (hsafe : Safe owned s topic x taken)
    (hlow : ∀ i ∈ x.accepted, ∀ n, s.cursors.stored topic i.partition = some n → n ≤ i.offset)
    (hputs : x.writer.puts ≠ [] → x.services.cursors.failPuts = false) (hown : owned i.partition)
    (ht : Turn x.handles x.writer x.channel x.services w c t)
    (h : i ∈ x.channel.items ∨ Tracked x.writer x.services i) : i ∈ c.items ∨ Tracked w t i := by
  rcases h with hwait | htracked
  · exact waiting_turn ht (fun hp => (hsafe.closing (Or.inr (Or.inl hp))).2) hwait
  · refine Or.inr (tracked_turn htracked ht hputs ?_)
    intro e he hei n hn
    exact hsafe.le_pending hlow he (hei ▸ hown) (hsafe.ofTopic ▸ hn)

/-- Others keep an item of a partition that the writer owns tracked. -/
theorem tracked_others {u : Services} (hu : Undisturbed owned w.topic t u) (hown : owned i.partition) (h : Tracked w t i) :
    Tracked w u i := by
  refine h.imp_right (Or.imp_right ?_)
  rintro ⟨n, hn, hlt⟩
  exact ⟨n, (hu.cursors _ hown).trans hn, hlt⟩

end ProgressAux

/-- On every run of the writer on which cursors can be written, every item that it has accepted waits in the channel or is tracked.
The senders keep the offsets of every partition increasing and do not go back behind its cursor. -/
theorem tracking_noted (hok : ∀ s t, ok s t → s.cursors.failPuts = false → t.cursors.failPuts = false)
    (hputs : s.cursors.failPuts = false) (h : Scene.Noted owned ok (.start settings topic now capacity s) x fs)
    (hord : Ordered x.accepted) (hown : ∀ i ∈ x.accepted, owned i.partition)
    (hlow : ∀ i ∈ x.accepted, ∀ n, s.cursors.stored topic i.partition = some n → n ≤ i.offset) : Tracking x := by
  induction h with
  | start => exact ⟨hputs, by simp [Scene.start], by simp [Scene.start, Writer.start]⟩
  | @work x fs attention time w c t hx hw ih =>
    have hold := ih hord hown hlow
    have ht := turn_of_step hw
    obtain ⟨taken, hsafe⟩ := safe_run (safe_start owned settings topic now capacity s) hx.run hord
    refine ⟨ht.sameFaults.puts.trans hold.puts, ?_, pending_of_stopped ht⟩
    intro i hi
    exact waits_or_tracked_turn hsafe hlow (fun _ => hold.puts) (hown i hi) ht (hold.tracked i hi)
  | @send x fs sender item c hx hh hc ih =>
    obtain ⟨-, rfl⟩ := Channel.attempt_sent hc
    have hold := ih (List.pairwise_append.1 hord).1 (fun i hi => hown i (List.mem_append_left _ hi))
      fun i hi => hlow i (List.mem_append_left _ hi)
    refine { hold with tracked := ?_ }
    intro i hi
    rw [Channel.items_push]
    rcases List.mem_append.1 hi with hi | hi
    · exact (hold.tracked i hi).imp_left (List.mem_append_left _)
    · exact Or.inl (List.mem_append_right _ hi)
  | join hx hc ih =>
    obtain ⟨-, rfl⟩ := Channel.attempt_joined hc
    exact { ih hord hown hlow with }
  | leave sender hx ih => exact { ih hord hown hlow with }
  | release hx ih => exact { ih hord hown hlow with }
  | others hx hu hR ih =>
    have hold := ih hord hown hlow
    refine ⟨hok _ _ hR hold.puts, ?_, hold.stopped⟩
    intro i hi
    exact (hold.tracked i hi).imp_right (tracked_others hu (hown i hi))

/-- On every run of the writer on which rows can be stored, no attempt to store fails and no partition is held. -/
theorem stored_noted (hok : ∀ s t, ok s t → s.store.failInserts = false → t.store.failInserts = false)
    (hins : first.services.store.failInserts = false) (h : Scene.Noted owned ok first x fs) :
    x.services.store.failInserts = false ∧ x.writer.held = first.writer.held ∧ ∀ f ∈ fs, f.stored = true := by
  induction h with
  | start => exact ⟨hins, rfl, by simp⟩
  | work hx hw ih =>
    obtain ⟨hins, hheld, hall⟩ := ih
    have ht := turn_of_step hw
    refine ⟨ht.sameFaults.inserts.trans hins, (held_turn ht hins).trans hheld, ?_⟩
    intro f hf
    rcases List.mem_append.1 hf with hf | hf
    · exact hall f hf
    · exact stored_of_flushes hins f hf
  | others hx hu hR ih =>
    obtain ⟨hins, hrest⟩ := ih
    exact ⟨hok _ _ hR hins, hrest⟩
  | _ => assumption

/-- If every attempt to store has succeeded, the batches that are stored, the buffer and the rows in the channel are the rows that
were accepted. -/
theorem Booked.rows_of_stored (h : Booked settings x fs) (hall : ∀ f ∈ fs, f.stored = true) :
    x.batches.flatten ++ x.writer.buffer ++ Intake.rowsOf x.channel.items = Intake.rowsOf x.accepted := by
  rw [← h.rows, h.batches, List.filter_eq_self.2 hall, List.flatMap_def]

end Writer

end AuditTrail
