import AuditTrail.Proofs.Pipeline.Emission
import AuditTrail.Proofs.Pipeline.Markers

/-!
# One marker, one record

A transaction comes into the store by its marker, and only once the marker is correlated. So as long as no GTID has two markers, a
transaction that is being correlated is not in the store yet, and the sweeper, which has its transactions from the store, does not
have it in hand. Correlator and sweeper never contest a transaction, whichever queries fail, and one record is sent for each at
most (`emitted_once`).
-/

namespace AuditTrail

/-- The marker that a transaction was made of. -/
def Transaction.marker (t : Transaction) : Marker := ⟨t.gtid, t.context, t.commitTime⟩

/-- The marker that a record was made of. -/
def AuditRecord.marker (r : AuditRecord) : Marker := ⟨r.gtid, r.context, r.commitTime⟩

/-- A record of a transaction that has no more than one is the only one. -/
theorem AuditRecord.filter_eq_singleton {g : String} {rs : List AuditRecord} {r : AuditRecord} (h : countOf g rs ≤ 1)
    (hr : r ∈ rs) (hg : r.gtid = g) : rs.filter (·.gtid == g) = [r] := by
  have hmem : r ∈ rs.filter (·.gtid == g) := List.mem_filter.2 ⟨hr, by simpa using hg⟩
  rw [countOf, List.countP_eq_length_filter] at h
  obtain ⟨u, hu⟩ := List.length_eq_one_iff.1 (Nat.le_antisymm h (List.length_pos_of_mem hmem))
  rw [hu] at hmem ⊢
  rw [List.mem_singleton.1 hmem]

namespace Queue

/-- The message at an offset of a partition is a marker. -/
def Marks (q : Queue) (topic : String) (p : Int) (n : Nat) (m : Marker) : Prop :=
  ∃ payload, q.payload? topic p n = some payload ∧ Marker.decode payload = .ok m

/-- No two messages of a topic are markers with the same GTID, unless that is blank. -/
def UniqueMarkers (q : Queue) (topic : String) : Prop :=
  ∀ p n m p' n' m', q.Marks topic p n m → q.Marks topic p' n' m' → m.gtid = m'.gtid → Text.blank m.gtid = false →
    p = p' ∧ n = n'

variable {q r : Queue} {topic : String} {p : Int} {n : Nat} {m : Marker}

theorem Marks.grow (h : q.Marks topic p n m) (hg : q.Grows r) : r.Marks topic p n m := by
  obtain ⟨payload, hp, hd⟩ := h
  exact ⟨payload, hg.payload? hp, hd⟩

/-- Markers that are unique were so before. -/
theorem UniqueMarkers.of_grows (h : r.UniqueMarkers topic) (hg : q.Grows r) : q.UniqueMarkers topic := by
  intro p n m p' n' m' hm hm' he hb
  exact h p n m p' n' m' (hm.grow hg) (hm'.grow hg) he hb

/-- The marker of an envelope is that of the message at its place. -/
theorem Conveys.marks {origin : Int → Nat} {es fs : List Envelope} {e : Envelope}
    (h : q.Conveys topic origin (es ++ e :: fs)) (hm : e.marker = some m) :
    ∃ n : Nat, e.offset = n ∧ q.Marks topic e.partition n m := by
  obtain ⟨payload, hp, he⟩ := h.place
  exact ⟨_, h.offset, payload, hp, Message.marker_toEnvelope.1 (he ▸ hm)⟩

end Queue

namespace Correlation

variable {sender : Sender} {x x' : Correlation} {d d' : Channel AuditRecord} {s t : Services}

/-- After a step of a correlation, a transaction in the store was there before, or is that of its marker, and the correlation is
through. -/
theorem Turn.stored (h : Turn sender x d s x' d' t) {u : Transaction} (hu : u ∈ t.store.transactions) :
    u ∈ s.store.transactions ∨ u.marker = x.marker ∧ x'.isFinished = true := by
  have hwrite : ∀ status, u ∈ (x.write status s).store.transactions → u ∈ s.store.transactions ∨ u.marker = x.marker := by
    intro status hmem
    unfold write at hmem
    split at hmem
    · rename_i stored hup
      refine (Store.mem_upsert hup hmem).imp_right ?_
      intro hw
      rw [List.mem_singleton.1 hw]
      rfl
    · exact Or.inl hmem
  cases h with
  | skip hp hb ht => exact Or.inl (ht.store ▸ hu)
  | known hp hb hk hs ht => exact Or.inl (ht.store ▸ hu)
  | found hp hrows hne ht => exact Or.inl (ht.store ▸ hu)
  | await hp hlt hrows ht => exact Or.inl (ht.store ▸ hu)
  | exhaust hp hle hrows ht => exact Or.inl (ht.store ▸ hu)
  | closed hp hd ht => exact Or.inl (ht.store ▸ hu)
  | settle hp ht => exact (hwrite _ (ht.store ▸ hu)).imp_right fun he => ⟨he, rfl⟩
  | defer hp ht => exact (hwrite _ (ht.store ▸ hu)).imp_right fun he => ⟨he, rfl⟩
  | _ => exact Or.inl hu

/-- The record that a correlation sends is that of its marker. -/
theorem Turn.sent (h : Turn sender x d s x' d' t) {r : AuditRecord} (hr : r ∈ d.entered d') : r.marker = x.marker := by
  cases h with
  | send hp hd =>
    rw [Channel.entered_push] at hr
    rw [List.mem_singleton.1 hr]
    rfl
  | _ => simp at hr

/-- Only a correlation that is not through takes a step. -/
theorem Turn.not_finished (h : Turn sender x d s x' d' t) : x.isFinished = false := by
  cases h <;> simp [isFinished, *]

/-- A correlation that goes on beyond its beginning has a marker whose GTID is not blank. -/
def Named (x : Correlation) : Prop :=
  x.phase = .starting ∨ x.isFinished = true ∨ Text.blank x.marker.gtid = false

theorem Turn.named (h : Turn sender x d s x' d' t) (hn : x.Named) : x'.Named := by
  have hsame : x.phase ≠ .starting → Text.blank x.marker.gtid = false := by
    intro hs
    exact (hn.resolve_left hs).resolve_left (by simp [h.not_finished])
  cases h with
  | skip hp hb ht => exact Or.inr (Or.inl rfl)
  | known hp hb hu hs ht => exact Or.inr (Or.inl rfl)
  | settle hp ht => exact Or.inr (Or.inl rfl)
  | defer hp ht => exact Or.inr (Or.inl rfl)
  | proceed hp hb hu => exact Or.inr (Or.inr hb)
  | join hp hd => exact hn
  | _ => exact Or.inr (Or.inr (hsame (by simp [*])))

/-- A correlation with a share of a transaction is that of its marker, has begun and is not through. -/
theorem of_held {g : String} (h : (x.share g).Held) :
    x.marker.gtid = g ∧ x.phase ≠ .starting ∧ x.isFinished = false := by
  unfold share at h
  by_cases hg : x.marker.gtid = g
  · rw [if_pos hg] at h
    refine ⟨hg, ?_, ?_⟩
    · intro hp
      exact absurd h (by simp [hp, Share.Held])
    · cases hp : x.phase with
      | finished result => exact absurd h (by simp [hp, Share.Held])
      | _ => simp [isFinished, hp]
  · exact absurd h (by simp [hg, Share.Held])

end Correlation

namespace Sweep

/-- The transactions that a sweep has loaded and not yet written. -/
def inHand (x : Sweep) : List Transaction :=
  match x.phase with
  | .fetching candidates _ => candidates
  | .sending _ _ rest done => rest ++ done
  | _ => []

variable {sender : Sender} {x x' : Sweep} {d d' : Channel AuditRecord} {s t : Services}

/-- A sweep with a share of a transaction has it in hand. -/
theorem exists_inHand {g : String} (h : (x.share g).Held) : ∃ t ∈ x.inHand, t.gtid = g := by
  unfold share Share.Held at h
  unfold inHand
  split at h
  · rename_i candidates abandoned hp
    simp only [Nat.add_zero] at h
    simpa only [hp] using Transaction.countOf_pos.1 h
  · rename_i r rows rest done hp
    rw [← Transaction.countOf_append] at h
    simpa only [hp] using Transaction.countOf_pos.1 h
  · exact absurd h (by decide)

/-- A sweep has its transactions from the store. -/
theorem Turn.inHand (h : Turn sender x d s x' d' t) {u : Transaction} (hu : u ∈ x'.inHand) :
    u ∈ x.inHand ∨ u ∈ s.store.transactions := by
  cases h with
  | list hp hc => exact Or.inr (Store.mem_unprocessed hc hu).1
  | fetch hp hr => exact Or.inl (by simpa [Sweep.inHand, hp] using hu)
  | miss hp hl =>
    refine Or.inl ?_
    simp only [Sweep.inHand, hp, List.mem_append, List.mem_cons] at hu ⊢
    exact hu.imp_left Or.inr
  | send hp hl hd =>
    refine Or.inl ?_
    simp only [Sweep.inHand, hp, List.mem_append, List.mem_cons] at hu ⊢
    tauto
  | join hp hl hd => exact Or.inl hu
  | _ => exact absurd hu List.not_mem_nil

/-- After a step of a sweep, a transaction in the store was there before, or is one that the sweep has in hand, written as
processed. -/
theorem Turn.stored (h : Turn sender x d s x' d' t) {u : Transaction} (hu : u ∈ t.store.transactions) :
    u ∈ s.store.transactions ∨ ∃ v ∈ x.inHand, u = v.toProcessed := by
  cases h with
  | begin hp ht => exact Or.inl (ht.store ▸ hu)
  | finish hp ht => exact Or.inl (ht.store ▸ hu)
  | settle hp hd hup ht =>
    rw [ht.store] at hu
    refine (Store.mem_upsert hup hu).imp_right ?_
    intro hw
    obtain ⟨v, hv, rfl⟩ := List.mem_map.1 hw
    exact ⟨v, by simpa [Sweep.inHand, hp] using hv, rfl⟩
  | _ => exact Or.inl hu

/-- The record that a sweep sends is that of a transaction which it has in hand. -/
theorem Turn.sent (h : Turn sender x d s x' d' t) {r : AuditRecord} (hr : r ∈ d.entered d') :
    ∃ u ∈ x.inHand, r.marker = u.marker := by
  cases h with
  | @send rep rows u rest done changes hp hl hd =>
    rw [Channel.entered_push] at hr
    refine ⟨u, by simp [Sweep.inHand, hp], ?_⟩
    rw [List.mem_singleton.1 hr]
    rfl
  | _ => simp at hr

end Sweep

namespace Correlator

/-- The correlator has its envelope in hand after its marker is correlated, too. -/
theorem inHand_of_settled {c : Correlator} {e : Envelope} (h : e ∈ c.settled) : e ∈ c.inHand := by
  unfold settled at h
  unfold inHand
  cases hp : c.phase with
  | correlating f x =>
    simp only [hp] at h
    split at h
    · exact h
    · exact absurd h List.not_mem_nil
  | _ => simpa only [hp] using h

/-- A marker that is correlated stays so. -/
theorem Turn.settled {senders : Bool} {c c' : Correlator} {m m' : Channel Envelope}
    {d d' : Channel AuditRecord} {s t : Services} (h : Turn senders c m d s c' m' d' t) :
    ∀ e ∈ c.settled, e ∈ c.releases ++ c'.settled := by
  intro e he
  cases h with
  | stop hp hs => simp [Correlator.settled, hp] at he
  | take hp hm hmark => simp [Correlator.settled, hp] at he
  | pass hp hm hmark => simp [Correlator.settled, hp] at he
  | work hp hx => simp [Correlator.settled, hp, hx.not_finished] at he
  | done hp hx => exact List.mem_append_right _ (by simpa [Correlator.settled, hp, Correlation.isFinished, hx] using he)
  | commit hp => exact List.mem_append_left _ (by simpa [Correlator.settled, Correlator.releases, hp] using he)

end Correlator

namespace Pipeline

open Scene MarkersAux DeliveryAux

namespace Scene

/-- Whatever a scene knows of transactions it has been told by markers: those in the store and those that the sweeper has in hand
by markers that are correlated, and the records that have been sent by markers of the topic. -/
structure Told (topic : String) (x : Scene) (l : Ledger) : Prop where
  stored : ∀ t ∈ x.services.store.transactions, ∃ e ∈ x.correlated l, e.marker = some t.marker
  held : ∀ v w, x.pipeline.sweeper = some v → v.sweep = some w → ∀ t ∈ w.inHand,
    (∃ e ∈ x.correlated l, e.marker = some t.marker) ∧ x.services.store.Holds t.gtid
  sent : ∀ r ∈ x.enqueued, ∃ p n, x.services.queue.Marks topic p n r.marker
  named : ∀ c e y, x.pipeline.correlator = some c → c.phase = .correlating e y → y.Named

end Scene

namespace UniquenessAux

variable {ok : Services → Prop} {topic : String} {origin : Int → Nat} {x y : Scene} {l : Ledger} {t : Services}

/-- An envelope whose marker is correlated is one of those that were carried. -/
theorem exists_split_of_correlated {e : Envelope} (he : e ∈ x.correlated l) :
    ∃ as bs, l.passed ++ x.carried = as ++ e :: bs := by
  refine List.append_of_mem ?_
  rcases List.mem_append.1 he with hp | hs
  · exact List.mem_append_left _ hp
  · refine List.mem_append_right _ (List.mem_append_left _ ?_)
    cases hc : x.pipeline.correlator with
    | none => simp [hc] at hs
    | some c =>
      simp only [hc, Option.map_some, Option.getD_some] at hs ⊢
      exact Correlator.inHand_of_settled hs

/-- A marker that is correlated is one of the topic. -/
theorem marks_of_correlated {e : Envelope} {m : Marker} (hcarry : Carrying topic origin x l) (he : e ∈ x.correlated l)
    (hm : e.marker = some m) : ∃ n : Nat, e.offset = n ∧ x.services.queue.Marks topic e.partition n m := by
  obtain ⟨as, bs, hsplit⟩ := exists_split_of_correlated he
  exact (hsplit ▸ hcarry.conveyed).marks hm

/-- As long as markers are unique, the transaction of a marker that is not yet correlated is not in the store. -/
theorem not_holds_of_correlating {c : Correlator} {e : Envelope} {z : Correlation} (h : Told topic x l)
    (hcarry : Carrying topic origin x l) (hu : x.services.queue.UniqueMarkers topic) (hc : x.pipeline.correlator = some c)
    (he : c.phase = .correlating e z) (hz : z.isFinished = false) (hb : Text.blank z.marker.gtid = false) :
    ¬x.services.store.Holds z.marker.gtid := by
  rintro ⟨u, hmem, hgtid⟩
  obtain ⟨f, hf, hfm⟩ := h.stored u hmem
  have hpassed : f ∈ l.passed := by
    simpa [correlated, hc, Correlator.settled, he, hz] using hf
  have hcarried : l.passed ++ x.carried = l.passed ++ e :: x.pipeline.markers.items := by
    simp [carried, hc, Correlator.inHand, he]
  have hconveyed := hcarried ▸ hcarry.conveyed
  obtain ⟨n, hn, hmarks⟩ := hconveyed.marks (hcarry.correlating c e z hc he)
  obtain ⟨k, hk, hmarks'⟩ := marks_of_correlated hcarry hf hfm
  -- the two markers are one and the same message, but one envelope is in front of the other
  obtain ⟨hpart, hoff⟩ := hu _ _ _ _ _ _ hmarks hmarks' hgtid.symm hb
  have hlt := hconveyed.lt hpassed hpart.symm
  omega

/-- A quiet move that leaves alone which markers are correlated tells a scene nothing new. -/
theorem told_frame {l' : Ledger} (h : Told topic x l) (hq : Quiet x y) (hg : x.services.queue.Grows y.services.queue)
    (hl : y.correlated l' = x.correlated l) : Told topic y l' := by
  refine ⟨?_, ?_, ?_, ?_⟩
  · intro u hu
    rw [hl]
    exact h.stored u (hq.transactions ▸ hu)
  · intro v w hv hw u hu
    obtain ⟨v', hv', hsame⟩ := hq.sweeper v hv
    rw [hl, Store.Holds, hq.transactions]
    exact h.held v' w hv' (hsame ▸ hw) u hu
  · intro r hr
    obtain ⟨p, n, hm⟩ := h.sent r (hq.enqueued ▸ hr)
    exact ⟨p, n, hm.grow hg⟩
  · intro c e z hc he
    obtain ⟨c', hc', hsame⟩ := hq.correlator c hc
    exact h.named c' e z hc' (hsame ▸ he)

/-- A step of the sweeper sends and writes what it has been told by the store. -/
theorem told_sweeper {v v' : Sweeper} {d : Channel AuditRecord} (h : Told topic x l)
    (hcarry : Carrying topic origin x l) (hv : x.pipeline.sweeper = some v)
    (ht : Sweeper.Turn v x.pipeline.delivery x.services v' d t) :
    Told topic (x.advance .sweeper { x.pipeline with sweeper := some v', delivery := d } t) l := by
  have hgrow : x.services.queue.Grows t.queue := Queue.grows_of_eq ht.updated.queue
  have hold : ∀ w, v.sweep = some w → ∀ u ∈ w.inHand,
      (∃ e ∈ x.correlated l, e.marker = some u.marker) ∧ x.services.store.Holds u.gtid := fun w hw => h.held v w hv hw
  refine ⟨?_, ?_, ?_, h.named⟩
  · intro u hu
    cases ht with
    | work hr hw hs =>
      rcases hs.stored hu with hu | ⟨b, hb, rfl⟩
      · exact h.stored u hu
      · exact (hold _ hw b hb).1
    | finish hr hw hp hc => exact h.stored u (hc.store ▸ hu)
    | _ => exact h.stored u hu
  · intro v₁ w₁ hv₁ hw₁ u hu
    obtain rfl := Option.some.inj hv₁
    cases ht with
    | work hr hw hs =>
      obtain rfl := Option.some.inj hw₁
      rcases hs.inHand hu with hu | hu
      · exact (hold _ hw u hu).imp_right (hs.forward.holds _)
      · exact ⟨h.stored u hu, hs.forward.holds _ ⟨u, hu, rfl⟩⟩
    | start hr hw =>
      obtain rfl := Option.some.inj hw₁
      exact absurd hu List.not_mem_nil
    | stop hr hw hs => exact absurd (hw.symm.trans hw₁) (by simp)
    | finish hr hw hp hc => exact absurd hw₁ (by simp)
  · intro r hr
    rcases List.mem_append.1 hr with hsent | hnew
    · obtain ⟨p, n, hm⟩ := h.sent r hsent
      exact ⟨p, n, hm.grow hgrow⟩
    · cases ht with
      | work hr' hw hs =>
        obtain ⟨b, hb, hmark⟩ := hs.sent hnew
        obtain ⟨⟨e, he, hem⟩, -⟩ := hold _ hw b hb
        obtain ⟨n, -, hm⟩ := marks_of_correlated hcarry he hem
        exact ⟨e.partition, n, hmark ▸ hm.grow hgrow⟩
      | _ => simp at hnew

/-- A step of the correlator sends and writes what it has been told by its marker. -/
theorem told_correlator {c c' : Correlator} {m : Channel Envelope} {d : Channel AuditRecord} (h : Told topic x l)
    (hcarry : Carrying topic origin x l) (hc : x.pipeline.correlator = some c)
    (ht : Correlator.Turn x.pipeline.markerSenders c x.pipeline.markers x.pipeline.delivery x.services c' m d t) :
    Told topic (x.advance .correlator { x.pipeline with correlator := some c', markers := m, delivery := d } t)
      (l.note c x.services) := by
  have hgrow : x.services.queue.Grows t.queue := Queue.grows_of_eq (Turn.correlator hc ht).queue
  have hmono : ∀ e ∈ x.correlated l, e ∈ l.passed ++ (c.releases ++ c'.settled) := by
    intro e he
    rw [correlated_of_some hc] at he
    exact List.mem_append.2 ((List.mem_append.1 he).imp_right (ht.settled e))
  refine ⟨?_, ?_, ?_, ?_⟩
  · intro u hu
    rw [correlated_advance]
    have hold : u ∈ x.services.store.transactions →
        ∃ e ∈ l.passed ++ (c.releases ++ c'.settled), e.marker = some u.marker := by
      intro hu
      obtain ⟨e, he, hem⟩ := h.stored u hu
      exact ⟨e, hmono e he, hem⟩
    cases ht with
    | @work e z z' d' t hp hz =>
      rcases hz.stored hu with hu | ⟨hmark, hfin⟩
      · exact hold hu
      · refine ⟨e, ?_, (hcarry.correlating c e z hc hp).trans (congrArg some hmark.symm)⟩
        simp [Correlator.settled, hfin]
    | commit hp => exact hold (by simpa [advance] using hu)
    | _ => exact hold hu
  · intro v w hv hw u hu
    rw [correlated_advance]
    obtain ⟨⟨e, he, hem⟩, hholds⟩ := h.held v w hv hw u hu
    exact ⟨⟨e, hmono e he, hem⟩, ht.forward.holds _ hholds⟩
  · intro r hr
    rcases List.mem_append.1 hr with hsent | hnew
    · obtain ⟨p, n, hm⟩ := h.sent r hsent
      exact ⟨p, n, hm.grow hgrow⟩
    · cases ht with
      | @work e z z' d' t hp hz =>
        have hcarried : l.passed ++ x.carried = l.passed ++ e :: x.pipeline.markers.items := by
          simp [carried, hc, Correlator.inHand, hp]
        obtain ⟨n, -, hm⟩ := (hcarried ▸ hcarry.conveyed).marks (hcarry.correlating c e z hc hp)
        exact ⟨e.partition, n, hz.sent hnew ▸ hm.grow hgrow⟩
      | _ => simp at hnew
  · intro c₁ e z hc₁ he
    obtain rfl := Option.some.inj hc₁
    cases ht with
    | take hp hm hmark =>
      obtain ⟨-, rfl⟩ := Correlator.Phase.correlating.inj he
      exact Or.inl rfl
    | work hp hz =>
      obtain ⟨rfl, rfl⟩ := Correlator.Phase.correlating.inj he
      exact hz.named (h.named c _ _ hc hp)
    | _ => exact absurd he (by simp)

/-- A correlator with a share of a transaction is correlating its marker, which is not blank. -/
theorem exists_correlating {g : String} (h : Told topic x l) (hs : (x.correlatorShare g).Held) :
    ∃ c e z, x.pipeline.correlator = some c ∧ c.phase = .correlating e z ∧ z.marker.gtid = g ∧
      z.isFinished = false ∧ Text.blank z.marker.gtid = false := by
  unfold correlatorShare at hs
  cases hc : x.pipeline.correlator with
  | none => exact absurd hs (by simp [hc, Share.Held])
  | some c =>
    simp only [hc, Option.map_some, Option.getD_some, Correlator.share] at hs
    cases hp : c.phase with
    | correlating e z =>
      simp only [hp] at hs
      obtain ⟨hmark, hbegun, hfin⟩ := Correlation.of_held hs
      exact ⟨c, e, z, rfl, hp, hmark, hfin, ((h.named c e z hc hp).resolve_left hbegun).resolve_left (by simp [hfin])⟩
    | _ => exact absurd hs (by simp [hp, Share.Held])

/-- A sweeper with a share of a transaction has it in hand. -/
theorem exists_sweeping {g : String} (hs : (x.sweeperShare g).Held) :
    ∃ v w b, x.pipeline.sweeper = some v ∧ v.sweep = some w ∧ b ∈ w.inHand ∧ b.gtid = g := by
  unfold sweeperShare at hs
  cases hv : x.pipeline.sweeper with
  | none => exact absurd hs (by simp [hv, Share.Held])
  | some v =>
    simp only [hv, Option.map_some, Option.getD_some, Sweeper.share] at hs
    cases hw : v.sweep with
    | none => exact absurd hs (by simp [hw, Share.Held])
    | some w =>
      simp only [hw, Option.map_some, Option.getD_some] at hs
      obtain ⟨b, hb, hg⟩ := Sweep.exists_inHand hs
      exact ⟨v, w, b, rfl, hw, hb, hg⟩

end UniquenessAux

open UniquenessAux

section

variable {ok : Services → Prop} {settings : PipelineSettings} {now : Nat} {s : Services} {x : Scene} {l : Ledger}

/-- On every run from a store without transactions, all that a scene knows of transactions it has been told by markers. -/
theorem told_noted (h0 : s.store.transactions = []) (hx : Noted ok (.start settings now s) x l) :
    Told settings.markerTopic x l := by
  refine noted_induction (C := Told settings.markerTopic) ?_ ?_ ?_ ?_ ?_ hx
  · have hstart := started_assemble settings now s
    refine ⟨?_, ?_, ?_, ?_⟩
    · intro u hu
      exact absurd (h0 ▸ hu : u ∈ []) List.not_mem_nil
    · intro v w hv hw
      exact absurd hw (hstart.not_sweeping hv w)
    · intro r hr
      exact absurd hr List.not_mem_nil
    · intro c e z hc he
      exact absurd he (hstart.not_correlating hc e z)
  · intro x y l _ h _ ha hq
    exact told_frame h hq ha.queue (correlated_of_apart ha l)
  · intro x l v v' d t hl h hv ht
    exact told_sweeper h (carrying_noted hl) hv ht
  · intro x l n r r' c t _ h _ ht
    exact told_frame h (quiet_of_eq (by simp [advance]) rfl rfl (by simp [advance, ht.counted.store]))
      (Queue.grows_of_eq ht.counted.queue) rfl
  · intro x l c c' m d t hl h hc ht
    exact told_correlator h (carrying_noted hl) hc ht

/-- As long as no upsert is made to fail, none does. -/
theorem upserting_run (hs : s.store.failUpserts = false)
    (hr : Run (fun t => t.store.failUpserts = false) (.start settings now s) x) : x.services.store.failUpserts = false :=
  hr.of_faults (P := fun t => t.store.failUpserts = false) (fun _ => id) (fun hf h => hf.upserts.trans h) hs

/-- As long as markers are unique, a transaction is not in the store while its marker is being correlated. -/
theorem not_holds_run (h0 : s.store.transactions = []) (hr : Run ok (.start settings now s) x)
    (hu : x.services.queue.UniqueMarkers settings.markerTopic) {c : Correlator} {e : Envelope} {z : Correlation}
    (hc : x.pipeline.correlator = some c) (he : c.phase = .correlating e z) (hz : z.isFinished = false)
    (hb : Text.blank z.marker.gtid = false) : ¬x.services.store.Holds z.marker.gtid := by
  obtain ⟨l, hl⟩ := exists_noted hr
  exact not_holds_of_correlating (told_noted h0 hl) (carrying_noted hl) hu hc he hz hb

/-- As long as markers are unique, every correlation finds its transaction unprocessed. -/
theorem asks_of_unique (h0 : s.store.transactions = []) (hr : Run ok (.start settings now s) x)
    (hu : x.services.queue.UniqueMarkers settings.markerTopic) (g : String) : x.Asks g := by
  intro c e z hc he hz hg hb _
  refine Bool.eq_false_iff.2 fun hp => ?_
  subst hg
  exact not_holds_run h0 hr hu hc he (by simp [Correlation.isFinished, hz]) hb (Store.holds_of_processed hp)

/-- As long as markers are unique, no transaction is contested. -/
theorem not_contested_of_unique (h0 : s.store.transactions = []) (hr : Run ok (.start settings now s) x)
    (hu : x.services.queue.UniqueMarkers settings.markerTopic) (g : String) : ¬x.Contested g := by
  rintro ⟨hcor, hsweep⟩
  obtain ⟨l, hl⟩ := exists_noted hr
  have htold := told_noted h0 hl
  obtain ⟨c, e, z, hc, he, hmark, hfin, hb⟩ := exists_correlating htold hcor
  obtain ⟨v, w, b, hv, hw, hmem, hgtid⟩ := exists_sweeping hsweep
  refine not_holds_run h0 hr hu hc he hfin hb ?_
  rw [hmark, ← hgtid]
  exact (htold.held v w hv hw b hmem).2

/-- As long as markers are unique and upserts do not fail, the tally of every transaction is sound. -/
theorem sound_of_unique (h0 : s.store.transactions = []) (hs : s.store.failUpserts = false)
    (hr : Run (fun t => t.store.failUpserts = false) (.start settings now s) x)
    (hu : x.services.queue.UniqueMarkers settings.markerTopic) (g : String) : (x.tally g).Sound False := by
  induction hr with
  | refl => exact EmissionAux.sound_start False g settings now s
  | tail hr hm ih =>
    have hbefore := hu.of_grows hm.grows
    have hsound := ih hbefore
    have hdist := (forward_run hr).distinct (by simp [Scene.start, h0])
    have hstep := EmissionAux.step_move (g := g) (delivering_run hr) (upserting_run hs hr) hdist
      (asks_of_unique h0 hr hbefore g) hsound.other hm
    exact hsound.step hstep fun hm ho => not_contested_of_unique h0 hr hbefore g ⟨hm, ho⟩

end

/-- As long as no GTID has two markers, and upserts do not fail, whatever else does and however the tasks take turns: from a store
without transactions, one record is sent for each transaction at most, and one for each that is processed, with GTID, context and
commit time of its marker. -/
theorem emitted_once (settings : PipelineSettings) (now : Nat) (s : Services) {x : Scene}
    (h0 : s.store.transactions = []) (hs : s.store.failUpserts = false)
    (hr : Run (fun t => t.store.failUpserts = false) (.start settings now s) x)
    (hu : x.services.queue.UniqueMarkers settings.markerTopic) (g : String) :
    AuditRecord.countOf g x.enqueued ≤ 1 ∧
      (x.services.store.processed g = true → ∃ r p n m, x.enqueued.filter (·.gtid == g) = [r] ∧
        x.services.queue.Marks settings.markerTopic p n m ∧ m.gtid = g ∧ r.gtid = m.gtid ∧ r.context = m.context ∧
        r.commitTime = m.commitTime) := by
  have hsound := sound_of_unique h0 hs hr hu g
  have hone : AuditRecord.countOf g x.enqueued ≤ 1 := by
    by_contra hmore
    refine hsound.of_two ?_ (Nat.lt_of_not_le hmore)
    intro hm ho
    exact not_contested_of_unique h0 hr hu g ⟨hm, ho⟩
  refine ⟨hone, ?_⟩
  intro hp
  obtain ⟨l, hl⟩ := exists_noted hr
  obtain ⟨r, hmem, hg⟩ : x.Announced g := by
    rcases (announcing_run hr).processed g hp with hfirst | hann
    · simp [Store.processed, Store.lookup, h0] at hfirst
    · exact hann
  obtain ⟨p, n, hmarks⟩ := (told_noted h0 hl).sent r hmem
  refine ⟨r, p, n, r.marker, ?_, hmarks, hg, rfl, rfl, rfl⟩
  exact AuditRecord.filter_eq_singleton hone hmem hg

namespace MarkerOnce

/-- A row change, and the marker of its transaction. -/
def services : Services where
  queue := { topics := [
    ("binlog", [[Utf8.encode "[\"d\",\"t\",\"insert\",\"g\",1]"]]), ("tx_info", [[Utf8.encode "[\"g\",\"c\",3]"]])] }

/-- Every row makes a batch, and each marker is looked up once. -/
def settings : PipelineSettings := { writer := { batchSize := 1 }, correlator := { maxAttempts := 1 } }

/-- The marker is deferred. Then the row is stored, and the sweeper sends a record and writes the transaction as processed. -/
def schedule : List (Role × Choice × Nat) :=
  steps 4 (.feeder 0) ++ steps 5 .correlator ++ steps 4 (.worker 0) ++ steps 3 .writer ++ sweeps 7

/-- What comes of it: the transaction is processed. -/
theorem outcome : ((schedule.foldlM after (.start settings 0 services)).map fun x =>
    (x.services.store.processed "g", decide (x.services.queue = services.queue))) = some (true, true) := by
  decide +kernel

/-- The scene at the end. -/
theorem exists_run : ∃ x, Run (fun t => t.store.failUpserts = false) (.start settings 0 services) x ∧
    x.services.store.processed "g" = true ∧ x.services.queue = services.queue := by
  obtain ⟨x, hx, he⟩ := Option.map_eq_some_iff.1 outcome
  obtain ⟨hp, hq⟩ : _ ∧ _ := by simpa only [Prod.mk.injEq] using he
  exact ⟨x, run_of_afters hx, hp, of_decide_eq_true hq⟩

/-- There is one message in the topic of the markers. -/
theorem uniqueMarkers : services.queue.UniqueMarkers "tx_info" := by
  have hfirst : ∀ p n m, services.queue.Marks "tx_info" p n m → p = 0 ∧ n = 0 := by
    rintro p n m ⟨payload, hp, -⟩
    obtain ⟨log, hl, hn⟩ := Option.bind_eq_some_iff.1 hp
    have hlogs : services.queue.topics.lookup "tx_info" = some [[Utf8.encode "[\"g\",\"c\",3]"]] := by decide +kernel
    simp only [Queue.log?, hlogs, Option.bind_eq_bind, Option.bind_some] at hl
    split at hl
    · exact absurd hl (by simp)
    · obtain ⟨hp0, rfl⟩ := by simpa [List.getElem?_singleton] using hl
      obtain ⟨hn0, -⟩ := by simpa [List.getElem?_singleton] using hn
      exact ⟨by omega, hn0⟩
  intro p n m p' n' m' hm hm' _ _
  obtain ⟨rfl, rfl⟩ := hfirst p n m hm
  obtain ⟨rfl, rfl⟩ := hfirst p' n' m' hm'
  exact ⟨rfl, rfl⟩

end MarkerOnce

/-- A run on which a marker is deferred and its transaction resolved by the sweeper: one record is sent. -/
theorem emitted_once_swept : ∃ x, Run (fun t => t.store.failUpserts = false) (.start MarkerOnce.settings 0 MarkerOnce.services) x ∧
    x.services.store.processed "g" = true ∧ AuditRecord.countOf "g" x.enqueued ≤ 1 ∧
    ∃ r p n m, x.enqueued.filter (·.gtid == "g") = [r] ∧ x.services.queue.Marks "tx_info" p n m ∧ m.gtid = "g" ∧
      r.context = m.context ∧ r.commitTime = m.commitTime := by
  obtain ⟨x, hr, hp, hq⟩ := MarkerOnce.exists_run
  obtain ⟨hle, hone⟩ := emitted_once MarkerOnce.settings 0 MarkerOnce.services rfl rfl hr
    (hq ▸ MarkerOnce.uniqueMarkers) "g"
  obtain ⟨r, p, n, m, hfilter, hmarks, hg, -, hc, ht⟩ := hone hp
  exact ⟨x, hr, hp, hle, r, p, n, m, hfilter, hmarks, hg, hc, ht⟩

end Pipeline

end AuditTrail
