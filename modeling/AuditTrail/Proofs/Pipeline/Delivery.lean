import AuditTrail.Proofs.Pipeline.Announcing

/-!
# From look-up to handler

The records that have been sent are those that were handed over and those that still wait in the delivery channel, in the order
in which they were sent. Each was made of the rows that the store held at one look-up, and no transaction is processed without
one. What becomes of a transaction in the store therefore tells that its record was sent, but neither that it was handed over nor
that it has rows which were stored after the look-up.
-/

namespace AuditTrail

namespace Pipeline

@[simp] theorem deliverySenders_signal (p : Pipeline) : p.signal.deliverySenders = p.deliverySenders := by
  obtain ⟨_, _, _, _, _, _, _, _, _, _, _, c, x⟩ := p
  cases c <;> cases x <;> rfl

namespace Scene

/-- A record of a transaction has been sent. -/
def Announced (x : Scene) (g : String) : Prop := ∃ r ∈ x.enqueued, r.gtid = g

/-- The next step of the correlator or of the sweeper looks up the rows of a transaction. -/
def LooksUp (x : Scene) (g : String) : Prop :=
  (∃ c e y n, x.pipeline.correlator = some c ∧ c.phase = .correlating e y ∧ y.phase = .looking n ∧ y.marker.gtid = g) ∨
    ∃ v w ts n, x.pipeline.sweeper = some v ∧ v.sweep = some w ∧ w.phase = .fetching ts n ∧ ∃ t ∈ ts, t.gtid = g

/-- The delivery channel of a scene: its records wait in the order they were sent, and nobody sends to it without a receiver, which
leaves none behind. -/
structure Delivering (x : Scene) : Prop where
  enqueued : x.enqueued = x.handled ++ x.pipeline.delivery.items
  emptied : x.pipeline.dispatching = false → x.pipeline.delivery.items = []
  served : x.pipeline.dispatching = false → x.pipeline.deliverySenders = false
  received : x.pipeline.dispatching = true → x.pipeline.delivery.received = true

/-- What has been sent and is about to be sent in a scene has a property, and what has been and is about to be written as
processed has been announced. -/
structure Announcing (P : AuditRecord → Prop) (first : Store) (x : Scene) : Prop where
  sent : ∀ r ∈ x.enqueued, P r
  correlation : ∀ c e y, x.pipeline.correlator = some c → c.phase = .correlating e y → y.Backed P x.Announced
  sweep : ∀ v w, x.pipeline.sweeper = some v → v.sweep = some w → w.Backed P x.Announced
  processed : ∀ g, x.services.store.processed g = true → first.processed g = true ∨ x.Announced g

/-- Of two scenes, in the second nothing more has been sent, correlator and sweeper are where they were, and the transactions are
what they were. -/
structure Quiet (x y : Scene) : Prop where
  enqueued : y.enqueued = x.enqueued
  correlator : ∀ c, y.pipeline.correlator = some c → ∃ c', x.pipeline.correlator = some c' ∧ c.phase = c'.phase
  sweeper : ∀ v, y.pipeline.sweeper = some v → ∃ v', x.pipeline.sweeper = some v' ∧ v.sweep = v'.sweep
  transactions : y.services.store.transactions = x.services.store.transactions

end Scene

namespace DeliveryAux

open Scene

variable {ok : Services → Prop} {x y : Scene} {p : Pipeline} {role : Role} {s : Services}

/-- What a step puts into the delivery channel is all that a step adds to it. -/
theorem items_of_correlation {z z' : Correlation} {sender : Sender} {d d' : Channel AuditRecord} {t : Services}
    (h : Correlation.Turn sender z d s z' d' t) : d'.items = d.items ++ d.entered d' ∧ d'.received = d.received := by
  cases h <;> simp

theorem items_of_sweep {w w' : Sweep} {sender : Sender} {d d' : Channel AuditRecord} {t : Services}
    (h : Sweep.Turn sender w d s w' d' t) : d'.items = d.items ++ d.entered d' ∧ d'.received = d.received := by
  cases h <;> simp

theorem items_of_correlator {c c' : Correlator} {m m' : Channel Envelope} {senders : Bool} {d d' : Channel AuditRecord}
    {t : Services} (h : Correlator.Turn senders c m d s c' m' d' t) :
    d'.items = d.items ++ d.entered d' ∧ d'.received = d.received := by
  cases h with
  | work hp hx => exact items_of_correlation hx
  | _ => simp

theorem items_of_sweeper {v v' : Sweeper} {d d' : Channel AuditRecord} {t : Services} (h : Sweeper.Turn v d s v' d' t) :
    d'.items = d.items ++ d.entered d' ∧ d'.received = d.received := by
  cases h with
  | work hr hw ht => exact items_of_sweep ht
  | _ => simp

/-- While the correlator or the sweeper is at work, somebody receives what it sends. -/
theorem dispatching_of_senders (h : Delivering x) (hs : x.pipeline.deliverySenders = true) :
    x.pipeline.dispatching = true := by
  cases hd : x.pipeline.dispatching with
  | true => rfl
  | false => exact absurd (hs.symm.trans (h.served hd)) (by decide)

/-- The delivery channel of a scene whose dispatcher is at work is in order, if no record is missing and there is a receiver. -/
theorem delivering_of_dispatching (hd : x.pipeline.dispatching = true)
    (he : x.enqueued = x.handled ++ x.pipeline.delivery.items) (hr : x.pipeline.delivery.received = true) :
    Delivering x := by
  refine ⟨he, ?_, ?_, fun _ => hr⟩ <;>
  · intro hnot
    exact absurd (hd.symm.trans hnot) (by decide)

/-- Every step of a task keeps the delivery channel in order. -/
theorem delivering_turn (h : Delivering x) (ht : Turn x.pipeline x.services role p s) :
    Delivering (x.advance role p s) := by
  cases ht with
  | deliver hd hi =>
    refine delivering_of_dispatching hd ?_ (h.received hd)
    simp [advance, hands, hd, hi, h.enqueued, Channel.entered_rest]
  | close hd hi hs =>
    refine ⟨?_, fun _ => rfl, fun _ => hs, ?_⟩
    · simp [advance, hands, hi, h.enqueued]
    · intro hstill
      exact absurd hstill (by simp [advance])
  | writer hw ht => exact ⟨by simpa [advance, hands] using h.enqueued, h.emptied, h.served, h.received⟩
  | worker hr ht => exact ⟨by simpa [advance, hands] using h.enqueued, h.emptied, h.served, h.received⟩
  | feeder hr ht => exact ⟨by simpa [advance, hands] using h.enqueued, h.emptied, h.served, h.received⟩
  | correlator hc ht =>
    have hsend : x.pipeline.deliverySenders = true := by simp [deliverySenders, correlating, hc, ht.running]
    have hd := dispatching_of_senders h hsend
    obtain ⟨hitems, hrec⟩ := items_of_correlator ht
    refine delivering_of_dispatching hd ?_ (hrec.trans (h.received hd))
    simp [advance, hands, h.enqueued, hitems]
  | sweeper hx ht =>
    have hsend : x.pipeline.deliverySenders = true := by simp [deliverySenders, sweeping, hx, ht.running]
    have hd := dispatching_of_senders h hsend
    obtain ⟨hitems, hrec⟩ := items_of_sweeper ht
    refine delivering_of_dispatching hd ?_ (hrec.trans (h.received hd))
    simp [advance, hands, h.enqueued, hitems]

/-- Every move keeps the delivery channel in order. -/
theorem delivering_move (h : Delivering x) (hm : Move ok x y) : Delivering y := by
  cases hm with
  | task hstep => exact delivering_turn h (turn_of_step hstep)
  | signal => exact ⟨h.enqueued, h.emptied, fun hd => (deliverySenders_signal _).trans (h.served hd), h.received⟩
  | outside ho hok => exact ⟨h.enqueued, h.emptied, h.served, h.received⟩

variable {P : AuditRecord → Prop} {first : Store}

/-- A scene in which correlator, sweeper and transactions are the same is quiet. -/
theorem quiet_of_eq (he : y.enqueued = x.enqueued) (hc : y.pipeline.correlator = x.pipeline.correlator)
    (hs : y.pipeline.sweeper = x.pipeline.sweeper)
    (ht : y.services.store.transactions = x.services.store.transactions) : Quiet x y :=
  ⟨he, fun c h => ⟨c, hc ▸ h, rfl⟩, fun v h => ⟨v, hs ▸ h, rfl⟩, ht⟩

/-- Telling the tasks to stop is quiet. -/
theorem quiet_signal (x : Scene) : Quiet x { x with pipeline := x.pipeline.signal } := by
  refine ⟨rfl, ?_, ?_, rfl⟩
  · intro c hc
    obtain ⟨c', hc', rfl⟩ := Option.map_eq_some_iff.1 hc
    exact ⟨c', hc', rfl⟩
  · intro v hv
    obtain ⟨v', hv', rfl⟩ := Option.map_eq_some_iff.1 hv
    exact ⟨v', hv', rfl⟩

/-- A move is quiet, or a step of the correlator or the sweeper. -/
theorem move_cases (hm : Move ok x y) :
    Quiet x y ∨
    (∃ c c' m d t, x.pipeline.correlator = some c ∧
      Correlator.Turn x.pipeline.markerSenders c x.pipeline.markers x.pipeline.delivery x.services c' m d t ∧
      y = x.advance .correlator { x.pipeline with correlator := some c', markers := m, delivery := d } t) ∨
    ∃ v v' d t, x.pipeline.sweeper = some v ∧ Sweeper.Turn v x.pipeline.delivery x.services v' d t ∧
      y = x.advance .sweeper { x.pipeline with sweeper := some v', delivery := d } t := by
  cases hm with
  | task hstep =>
    cases turn_of_step hstep with
    | correlator hc ht => exact Or.inr (Or.inl ⟨_, _, _, _, _, hc, ht, rfl⟩)
    | sweeper hx ht => exact Or.inr (Or.inr ⟨_, _, _, _, hx, ht, rfl⟩)
    | deliver hdis hi => exact Or.inl (quiet_of_eq (by simp [advance, Channel.entered_rest hi]) rfl rfl rfl)
    | close hdis hi hs => exact Or.inl (quiet_of_eq (by simp [advance]) rfl rfl rfl)
    | writer hw ht =>
      exact Or.inl (quiet_of_eq (by simp [advance]) rfl rfl (Writer.turn_of_step ht).transactions)
    | worker hr ht => exact Or.inl (quiet_of_eq (by simp [advance]) rfl rfl (by simp [advance, ht.counted.store]))
    | feeder hr ht => exact Or.inl (quiet_of_eq (by simp [advance]) rfl rfl (by simp [advance, ht.counted.store]))
  | signal => exact Or.inl (quiet_signal x)
  | outside ho hok => exact Or.inl (quiet_of_eq rfl rfl rfl ho.transactions)

/-- What is announced stays so in a quiet move. -/
theorem announcing_quiet (h : Announcing P first x) (hq : Quiet x y) : Announcing P first y := by
  have hann : y.Announced = x.Announced := by unfold Announced; rw [hq.enqueued]
  have hproc : y.services.store.processed = x.services.store.processed := by
    funext g
    simp only [Store.processed, Store.lookup, hq.transactions]
  refine ⟨hq.enqueued ▸ h.sent, ?_, ?_, hproc ▸ hann ▸ h.processed⟩
  · intro c e z hc he
    obtain ⟨c', hc', hp⟩ := hq.correlator c hc
    exact hann ▸ h.correlation c' e z hc' (hp ▸ he)
  · intro v w hv hw
    obtain ⟨v', hv', hp⟩ := hq.sweeper v hv
    exact hann ▸ h.sweep v' w hv' (hp ▸ hw)

/-- A step keeps what is announced, if it sends and writes only what is backed and leaves what it goes on with backed. -/
theorem announcing_advance (h : Announcing P first x)
    (hsent : ∀ r ∈ x.pipeline.delivery.entered p.delivery, P r)
    (hcor : ∀ c e y, p.correlator = some c → c.phase = .correlating e y →
      y.Backed P fun g => x.Announced g ∨ ∃ r ∈ x.pipeline.delivery.entered p.delivery, r.gtid = g)
    (hsweep : ∀ v w, p.sweeper = some v → v.sweep = some w →
      w.Backed P fun g => x.Announced g ∨ ∃ r ∈ x.pipeline.delivery.entered p.delivery, r.gtid = g)
    (hproc : ∀ g, s.store.processed g = true → x.services.store.processed g = true ∨ x.Announced g) :
    Announcing P first (x.advance role p s) := by
  have hann : ∀ g, (x.Announced g ∨ ∃ r ∈ x.pipeline.delivery.entered p.delivery, r.gtid = g) →
      (x.advance role p s).Announced g := by
    rintro g (⟨r, hr, hg⟩ | ⟨r, hr, hg⟩)
    · exact ⟨r, List.mem_append_left _ hr, hg⟩
    · exact ⟨r, List.mem_append_right _ hr, hg⟩
  refine ⟨?_, ?_, ?_, ?_⟩
  · intro r hr
    rcases List.mem_append.1 hr with hr | hr
    · exact h.sent r hr
    · exact hsent r hr
  · intro c e y hc he
    exact (hcor c e y hc he).mono (fun _ => id) hann
  · intro v w hv hw
    exact (hsweep v w hv hw).mono (fun _ => id) hann
  · intro g hg
    rcases hproc g hg with hx | hx
    · exact (h.processed g hx).imp_right fun ha => hann g (Or.inl ha)
    · exact Or.inr (hann g (Or.inl hx))

/-- A step of the correlator keeps what is announced. -/
theorem announcing_correlator {c c' : Correlator} {m : Channel Envelope} {d : Channel AuditRecord} {t : Services}
    (h : Announcing P first x) (hd : Delivering x)
    (hlook : ∀ r, x.LooksUp r.gtid → r.changes = x.services.store.rowsWith r.gtid → r.changes ≠ [] → P r)
    (hc : x.pipeline.correlator = some c)
    (ht : Correlator.Turn x.pipeline.markerSenders c x.pipeline.markers x.pipeline.delivery x.services c' m d t) :
    Announcing P first
      (x.advance .correlator { x.pipeline with correlator := some c', markers := m, delivery := d } t) := by
  have hopen : x.pipeline.delivery.received = true :=
    hd.received (dispatching_of_senders hd (by simp [deliverySenders, correlating, hc, ht.running]))
  have hsweep : ∀ v w, x.pipeline.sweeper = some v → v.sweep = some w →
      w.Backed P fun g => x.Announced g ∨ ∃ r ∈ x.pipeline.delivery.entered d, r.gtid = g := by
    intro v w hv hw
    exact (h.sweep v w hv hw).mono (fun _ => id) fun _ => Or.inl
  cases ht with
  | @work e z z' d' t hp hz =>
    have hb : z.Backed P x.Announced := h.correlation c e z hc hp
    refine announcing_advance h (fun r hr => hz.of_entered hb hr) ?_ hsweep fun g hg => hz.of_processed hb hg
    intro c₁ e₁ y hc₁ he₁
    obtain rfl := Option.some.inj hc₁
    obtain ⟨rfl, rfl⟩ := Correlator.Phase.correlating.inj he₁
    refine hz.backed hb hopen ?_
    intro n hn hne
    exact hlook _ (Or.inl ⟨c, e, z, n, hc, hp, hn, rfl⟩) (recordOrder_recordOrder _)
      (mt recordOrder_eq_nil.1 hne)
  | @take e marker rest hp hm he =>
    refine announcing_advance h (by simp) ?_ hsweep fun g hg => Or.inl hg
    intro c₁ e₁ y hc₁ he₁
    obtain rfl := Option.some.inj hc₁
    obtain ⟨-, rfl⟩ := Correlator.Phase.correlating.inj he₁
    trivial
  | commit hp =>
    refine announcing_advance h (by simp) ?_ hsweep fun g hg => Or.inl (by simpa using hg)
    intro c₁ e₁ y hc₁ he₁
    obtain rfl := Option.some.inj hc₁
    exact absurd he₁ (by simp)
  | _ =>
    refine announcing_advance h (by simp) ?_ hsweep fun g hg => Or.inl hg
    intro c₁ e₁ y hc₁ he₁
    obtain rfl := Option.some.inj hc₁
    exact absurd he₁ (by simp)

/-- A step of the sweeper keeps what is announced. -/
theorem announcing_sweeper {v v' : Sweeper} {d : Channel AuditRecord} {t : Services} (h : Announcing P first x)
    (hlook : ∀ r, x.LooksUp r.gtid → r.changes = x.services.store.rowsWith r.gtid → r.changes ≠ [] → P r)
    (hv : x.pipeline.sweeper = some v) (ht : Sweeper.Turn v x.pipeline.delivery x.services v' d t) :
    Announcing P first (x.advance .sweeper { x.pipeline with sweeper := some v', delivery := d } t) := by
  have hcor : ∀ c e y, x.pipeline.correlator = some c → c.phase = .correlating e y →
      y.Backed P fun g => x.Announced g ∨ ∃ r ∈ x.pipeline.delivery.entered d, r.gtid = g := by
    intro c e y hc he
    exact (h.correlation c e y hc he).mono (fun _ => id) fun _ => Or.inl
  cases ht with
  | @work w w' d' t hr hw ht =>
    have hb : w.Backed P x.Announced := h.sweep v w hv hw
    refine announcing_advance h (fun r hr => ht.of_entered hb hr) hcor ?_ fun g hg => ht.of_processed hb hg
    intro v₁ w₁ hv₁ hw₁
    obtain rfl := Option.some.inj hv₁
    obtain rfl := Option.some.inj hw₁
    refine ht.backed hb ?_
    intro ts n hf u hu hne
    exact hlook _ (Or.inr ⟨v, w, ts, n, hv, hw, hf, u, hu, rfl⟩) (recordOrder_recordOrder _)
      (mt recordOrder_eq_nil.1 hne)
  | start hr hw =>
    refine announcing_advance h (by simp) hcor ?_ fun g hg => Or.inl hg
    intro v₁ w₁ hv₁ hw₁
    obtain rfl := Option.some.inj hv₁
    obtain rfl := Option.some.inj hw₁
    trivial
  | stop hr hw hs =>
    refine announcing_advance h (by simp) hcor ?_ fun g hg => Or.inl hg
    intro v₁ w₁ hv₁ hw₁
    obtain rfl := Option.some.inj hv₁
    exact absurd hw₁ (by simp [hw])
  | finish hr hw hp ht =>
    refine announcing_advance h (by simp) hcor ?_ fun g hg => Or.inl (ht.store ▸ hg)
    intro v₁ w₁ hv₁ hw₁
    obtain rfl := Option.some.inj hv₁
    exact absurd hw₁ (by simp)

/-- Every move keeps what is announced. -/
theorem announcing_move (h : Announcing P first x) (hd : Delivering x) (hm : Move ok x y)
    (hlook : ∀ r, x.LooksUp r.gtid → r.changes = x.services.store.rowsWith r.gtid → r.changes ≠ [] → P r) :
    Announcing P first y := by
  rcases move_cases hm with hq | ⟨c, c', m, d, t, hc, ht, rfl⟩ | ⟨v, v', d, t, hv, ht, rfl⟩
  · exact announcing_quiet h hq
  · exact announcing_correlator h hd hlook hc ht
  · exact announcing_sweeper h hlook hv ht

/-- A pipeline that starts has sent nothing, and is about to send nothing. -/
theorem delivering_start (settings : PipelineSettings) (now : Nat) (s : Services) :
    Delivering (.start settings now s) := by
  have h := started_assemble settings now s
  refine delivering_of_dispatching h.dispatching ?_ ?_ <;> simp [Scene.start, h.delivery]

theorem announcing_start (P : AuditRecord → Prop) (settings : PipelineSettings) (now : Nat) (s : Services) :
    Announcing P s.store (.start settings now s) := by
  have h := started_assemble settings now s
  refine ⟨?_, ?_, ?_, fun g hg => Or.inl hg⟩
  · intro r hr
    exact absurd hr List.not_mem_nil
  · intro c e y hc he
    exact absurd he (h.not_correlating hc e y)
  · intro v w hv hw
    exact absurd hw (h.not_sweeping hv w)

end DeliveryAux

namespace Scene

open DeliveryAux

variable {ok : Services → Prop} {settings : PipelineSettings} {now : Nat} {s : Services} {x y : Scene}

/-- A record was made in the course of a run: of the rows that the store held when they were looked up, and of some. -/
def Joined (ok : Services → Prop) (first last : Scene) (r : AuditRecord) : Prop :=
  ∃ z, Run ok first z ∧ Run ok z last ∧ z.LooksUp r.gtid ∧ r.changes = z.services.store.rowsWith r.gtid ∧ r.changes ≠ []

theorem Announcing.mono {P P' : AuditRecord → Prop} {first : Store} (h : Announcing P first x) (hp : ∀ r, P r → P' r) :
    Announcing P' first x := by
  refine ⟨?_, ?_, ?_, h.processed⟩
  · intro r hr
    exact hp r (h.sent r hr)
  · intro c e y hc he
    exact (h.correlation c e y hc he).mono hp fun _ => id
  · intro v w hv hw
    exact (h.sweep v w hv hw).mono hp fun _ => id

/-- On every run, the records sent are those handed over and those that wait. -/
theorem delivering_run (hr : Run ok (.start settings now s) x) : Delivering x := by
  induction hr with
  | refl => exact delivering_start settings now s
  | tail hr hm ih => exact delivering_move ih hm

/-- On every run, every record sent was made of the rows of one look-up, and no transaction has become processed without one. -/
theorem announcing_run (hr : Run ok (.start settings now s) x) :
    Announcing (Joined ok (.start settings now s) x) s.store x := by
  induction hr with
  | refl => exact announcing_start _ settings now s
  | tail hr hm ih =>
    -- a record that was made before the last move was made in the course of the longer run
    have hlonger := ih.mono fun r ⟨z, hz, hzx, hl⟩ => (⟨z, hz, hzx.tail hm, hl⟩ : Joined ok _ _ r)
    refine announcing_move hlonger (delivering_run hr) hm ?_
    intro r hl hrows hne
    exact ⟨_, hr, .single hm, hl, hrows, hne⟩

end Scene

end Pipeline

end AuditTrail
