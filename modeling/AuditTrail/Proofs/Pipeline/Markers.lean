import AuditTrail.Proofs.Pipeline.Delivery
import AuditTrail.Proofs.Pipeline.Writing

/-!
# The way of the markers

The readers of markers have a partition each and share one channel. The correlator takes the envelopes out of it one at a time, and
is through with one when it has come to write the cursor. A scene does not keep what the correlator is through with; a `Ledger`
does, and `Scene.Noted` is a run with its ledger.

Whatever the readers do and wherever the run stops, the envelopes that the correlator is through with, the one it has in hand and
those that wait are, partition by partition, those of the messages one after the other from where the reader started
(`carrying_noted`).
-/

namespace AuditTrail

/-- An envelope holds the marker that its message decodes to. -/
theorem Message.marker_toEnvelope {m : Message} {marker : Marker} :
    m.toEnvelope.1.marker = some marker ↔ Marker.decode m.payload = .ok marker := by
  unfold toEnvelope
  split
  · rename_i e he
    simp [he]
  · rename_i decoded hd
    simp [hd]

namespace Envelope

/-- How many envelopes of a partition there are. -/
def countOf (p : Int) (es : List Envelope) : Nat := es.countP (·.partition == p)

theorem countOf_append (p : Int) (es fs : List Envelope) : countOf p (es ++ fs) = countOf p es + countOf p fs :=
  List.countP_append

theorem countOf_singleton (p : Int) (e : Envelope) : countOf p [e] = if e.partition = p then 1 else 0 := by
  simp [countOf]

end Envelope

open Envelope

namespace Queue

/-- Envelopes are, partition by partition, those of the messages of a topic from an offset on, one after the other. -/
def Conveys (q : Queue) (topic : String) (origin : Int → Nat) (es : List Envelope) : Prop :=
  ∀ p, ∃ ms, q.Ahead topic p (origin p) ms ∧ es.filter (·.partition == p) = ms.map (·.toEnvelope.1)

variable {q r : Queue} {topic : String} {origin : Int → Nat} {es fs : List Envelope} {e f : Envelope}

theorem conveys_nil : q.Conveys topic origin [] := fun _ => ⟨[], trivial, rfl⟩

theorem Conveys.grow (h : q.Conveys topic origin es) (hg : q.Grows r) : r.Conveys topic origin es := by
  intro p
  obtain ⟨ms, ha, hf⟩ := h p
  exact ⟨ms, ha.grow hg, hf⟩

/-- The first of the envelopes are those of the first messages. -/
theorem Conveys.of_prefix (h : q.Conveys topic origin es) (hp : fs <+: es) : q.Conveys topic origin fs := by
  obtain ⟨gs, rfl⟩ := hp
  intro p
  obtain ⟨ms, ha, hf⟩ := h p
  rw [List.filter_append, eq_comm, List.map_eq_append_iff] at hf
  obtain ⟨ms₁, ms₂, rfl, hf₁, -⟩ := hf
  exact ⟨ms₁, (ahead_append.1 ha).1, hf₁.symm⟩

/-- The envelope of the next message of a partition goes with those of the messages before. -/
theorem Conveys.snoc {payload : Octets} {p : Int} (h : q.Conveys topic origin es)
    (hp : q.payload? topic p (origin p + countOf p es) = some payload)
    (he : e = (⟨topic, p, (origin p + countOf p es : Nat), payload⟩ : Message).toEnvelope.1) :
    q.Conveys topic origin (es ++ [e]) := by
  have hpart : e.partition = p := by rw [he, Message.partition_toEnvelope]
  intro p'
  obtain ⟨ms, ha, hf⟩ := h p'
  by_cases hp' : p = p'
  · subst hp'
    have hlen : ms.length = countOf p es := by
      rw [countOf, List.countP_eq_length_filter, hf, List.length_map]
    refine ⟨ms ++ [⟨topic, p, (origin p + countOf p es : Nat), payload⟩], ahead_append.2 ⟨ha, ?_⟩, ?_⟩
    · rw [hlen]
      exact ⟨⟨payload, hp, rfl⟩, trivial⟩
    · have hself : [e].filter (·.partition == p) = [e] := by simp [hpart]
      rw [List.filter_append, hf, hself, List.map_append, List.map_singleton, ← he]
  · refine ⟨ms, ha, ?_⟩
    simp [List.filter_append, hf, hpart, hp']

/-- An envelope is that of the message that follows those of the envelopes before it. -/
theorem Conveys.place (h : q.Conveys topic origin (es ++ e :: fs)) : ∃ payload,
    q.payload? topic e.partition (origin e.partition + countOf e.partition es) = some payload ∧
      e = (⟨topic, e.partition, (origin e.partition + countOf e.partition es : Nat), payload⟩ : Message).toEnvelope.1 := by
  have hp : es ++ [e] <+: es ++ e :: fs := ⟨fs, by simp⟩
  obtain ⟨ms, ha, hf⟩ := h.of_prefix hp e.partition
  have hself : [e].filter (·.partition == e.partition) = [e] := by simp
  rw [List.filter_append, hself, eq_comm, List.map_eq_append_iff] at hf
  obtain ⟨ms₁, ms₂, rfl, hf₁, hf₂⟩ := hf
  obtain ⟨m, rfl, hm⟩ := List.map_eq_singleton_iff.1 hf₂
  have hlen : ms₁.length = countOf e.partition es := by
    rw [countOf, List.countP_eq_length_filter, ← hf₁, List.length_map]
  obtain ⟨⟨payload, hpay, rfl⟩, -⟩ := (ahead_append.1 ha).2
  rw [hlen] at hpay hm
  exact ⟨payload, hpay, hm.symm⟩

/-- An envelope has the offset that follows those of the envelopes before it. -/
theorem Conveys.offset (h : q.Conveys topic origin (es ++ e :: fs)) :
    e.offset = (origin e.partition + countOf e.partition es : Nat) := by
  obtain ⟨payload, -, he⟩ := h.place
  rw [he, Message.offset_toEnvelope, Message.partition_toEnvelope]

/-- Of two envelopes of one partition, the first has the smaller offset. -/
theorem Conveys.lt (h : q.Conveys topic origin (es ++ e :: fs)) (hf : f ∈ es) (hp : f.partition = e.partition) :
    f.offset < e.offset := by
  obtain ⟨as, bs, rfl⟩ := List.append_of_mem hf
  have he := h.offset
  rw [List.append_assoc, List.cons_append] at h
  have hf := h.offset
  rw [← hp, countOf_append, ← List.singleton_append, countOf_append, countOf_singleton, if_pos rfl] at he
  omega

end Queue

namespace Correlation

/-- Whether a correlation is through. -/
def isFinished (x : Correlation) : Bool :=
  match x.phase with
  | .finished _ => true
  | _ => false

/-- Whether the next step of a correlation writes its transaction. -/
def isWriting (x : Correlation) : Bool :=
  match x.phase with
  | .settling _ | .deferring => true
  | _ => false

end Correlation

namespace Correlator

/-- The envelope that the correlator has in hand. -/
def inHand (c : Correlator) : List Envelope :=
  match c.phase with
  | .correlating e _ | .committing e => [e]
  | _ => []

/-- The envelope that the correlator has in hand, once its marker is correlated. -/
def settled (c : Correlator) : List Envelope :=
  match c.phase with
  | .correlating e x => if x.isFinished then [e] else []
  | .committing e => [e]
  | _ => []

/-- The envelope that the correlator lets go of in its next step. -/
def releases (c : Correlator) : List Envelope :=
  match c.phase with
  | .committing e => [e]
  | _ => []

/-- The cursor that the next step of the correlator writes. -/
def writes (c : Correlator) (s : Services) : List (Int × Int) :=
  match c.phase with
  | .committing e =>
    match s.cursors.put c.topic e.partition (e.offset + 1) with
    | .ok _ => [(e.partition, e.offset + 1)]
    | .error _ => []
  | _ => []

/-- The envelope whose transaction the next step of the correlator fails to write. -/
def misses (c : Correlator) (s : Services) : List Envelope :=
  match c.phase with
  | .correlating e x => if x.isWriting && s.store.failUpserts then [e] else []
  | _ => []

/-- The correlator takes its envelopes off the channel in order and drops none of them, except that those which wait are lost when
it stops. -/
theorem Turn.carried {senders : Bool} {c c' : Correlator} {m m' : Channel Envelope} {d d' : Channel AuditRecord}
    {s t : Services} (h : Turn senders c m d s c' m' d' t) :
    c.releases ++ (c'.inHand ++ m'.items) = c.inHand ++ m.items ∧ m'.received = m.received ∨
      c.releases ++ (c'.inHand ++ m'.items) = [] ∧ m'.received = false := by
  cases h with
  | stop hp hs => exact Or.inr ⟨by simp [releases, inHand, hp], rfl⟩
  | take hp hm he => exact Or.inl ⟨by simp [releases, inHand, hp, hm], rfl⟩
  | pass hp hm he => exact Or.inl ⟨by simp [releases, inHand, hp, hm], rfl⟩
  | work hp hx => exact Or.inl ⟨by simp [releases, inHand, hp], rfl⟩
  | done hp hx => exact Or.inl ⟨by simp [releases, inHand, hp], rfl⟩
  | commit hp => exact Or.inl ⟨by simp [releases, inHand, hp], rfl⟩

end Correlator

namespace Pipeline

/-- What the correlator has done in the course of a run. -/
structure Ledger where
  /-- The envelopes that it is through with, the first in front. -/
  passed : List Envelope := []
  /-- The cursors of the marker topic that it has written, each with its partition. -/
  written : List (Int × Int) := []
  /-- The envelopes whose transactions it failed to write. -/
  missed : List Envelope := []

namespace Ledger

/-- The ledger after a step of the correlator. -/
def note (l : Ledger) (c : Correlator) (s : Services) : Ledger where
  passed := l.passed ++ c.releases
  written := l.written ++ c.writes s
  missed := l.missed ++ c.misses s

/-- The ledger after a step of a task. -/
def after (l : Ledger) (x : Scene) : Role → Ledger
  | .correlator => (x.pipeline.correlator.map fun c => l.note c x.services).getD l
  | _ => l

end Ledger

namespace Scene

/-- A run with its ledger. -/
inductive Noted (ok : Services → Prop) (first : Scene) : Scene → Ledger → Prop where
  | start : Noted ok first first {}
  | task {x : Scene} {l : Ledger} {role : Role} {choice : Choice} {now : Nat} {p : Pipeline} {s : Services}
      (hx : Noted ok first x l) (h : x.pipeline.step role choice now x.services = some (p, s)) :
      Noted ok first (x.advance role p s) (l.after x role)
  | signal {x : Scene} {l : Ledger} (hx : Noted ok first x l) :
      Noted ok first { x with pipeline := x.pipeline.signal } l
  | outside {x : Scene} {l : Ledger} {t : Services} (hx : Noted ok first x l) (h : x.services.Outside t) (hok : ok t) :
      Noted ok first { x with services := t } l

variable {ok : Services → Prop} {first x y : Scene} {l : Ledger}

/-- A run with its ledger is a run. -/
theorem Noted.run (h : Noted ok first x l) : Run ok first x := by
  induction h with
  | start => exact .refl
  | task hx h ih => exact ih.tail (.task h)
  | signal hx ih => exact ih.tail .signal
  | outside hx h hok ih => exact ih.tail (.outside h hok)

/-- Every run has a ledger. -/
theorem exists_noted (h : Run ok first x) : ∃ l, Noted ok first x l := by
  induction h with
  | refl => exact ⟨_, .start⟩
  | tail hr hm ih =>
    obtain ⟨l, hl⟩ := ih
    cases hm with
    | task h => exact ⟨_, hl.task h⟩
    | signal => exact ⟨_, hl.signal⟩
    | outside h hok => exact ⟨_, hl.outside h hok⟩

/-- Of two scenes, in the second the readers of markers, their channel and the correlator are where they were. -/
structure Apart (x y : Scene) : Prop where
  feeders : ∃ told : Feeder → Feeder, y.pipeline.feeders = x.pipeline.feeders.map told ∧
    ∀ r, (told r).feed = r.feed ∧ (told r).phase = r.phase
  markers : y.pipeline.markers = x.pipeline.markers
  correlator : ∃ told : Correlator → Correlator, y.pipeline.correlator = x.pipeline.correlator.map told ∧
    ∀ c, (told c).topic = c.topic ∧ (told c).phase = c.phase
  queue : x.services.queue.Grows y.services.queue

/-- A scene in which these are the same is apart. -/
theorem apart_of_eq (hf : y.pipeline.feeders = x.pipeline.feeders) (hm : y.pipeline.markers = x.pipeline.markers)
    (hc : y.pipeline.correlator = x.pipeline.correlator) (hq : x.services.queue.Grows y.services.queue) : Apart x y :=
  ⟨⟨id, hf.trans (List.map_id _).symm, fun _ => ⟨rfl, rfl⟩⟩, hm, ⟨id, hc.trans Option.map_id_apply.symm, fun _ => ⟨rfl, rfl⟩⟩, hq⟩

/-- What holds of a pipeline that starts, and is kept by the quiet moves apart from the markers, by the steps of the sweeper, of
the readers of markers and of the correlator, holds of every run with its ledger. -/
theorem noted_induction {C : Scene → Ledger → Prop} (start : C first {})
    (quiet : ∀ {x y l}, Noted ok first x l → C x l → Move ok x y → Apart x y → Quiet x y → C y l)
    (sweeper : ∀ {x l v v' d t}, Noted ok first x l → C x l → x.pipeline.sweeper = some v →
      Sweeper.Turn v x.pipeline.delivery x.services v' d t →
      C (x.advance .sweeper { x.pipeline with sweeper := some v', delivery := d } t) l)
    (feeder : ∀ {x l n r r' c t}, Noted ok first x l → C x l → x.pipeline.feeders[n]? = some r →
      Reader.Turn (fun _ => Message.toEnvelope) r x.pipeline.markers x.services r' c t →
      C (x.advance (.feeder n) { x.pipeline with feeders := x.pipeline.feeders.set n r', markers := c } t) l)
    (correlator : ∀ {x l c c' m d t}, Noted ok first x l → C x l → x.pipeline.correlator = some c →
      Correlator.Turn x.pipeline.markerSenders c x.pipeline.markers x.pipeline.delivery x.services c' m d t →
      C (x.advance .correlator { x.pipeline with correlator := some c', markers := m, delivery := d } t)
        (l.note c x.services))
    (h : Noted ok first x l) : C x l := by
  induction h with
  | start => exact start
  | task hx h ih =>
    have hm : Move ok _ _ := .task h
    have hturn := turn_of_step h
    have hq := Queue.grows_of_eq hturn.queue
    cases hturn with
    | feeder hr ht => exact feeder hx ih hr ht
    | sweeper hv ht => exact sweeper hx ih hv ht
    | correlator hc ht =>
      simp only [Ledger.after, hc, Option.map_some, Option.getD_some]
      exact correlator hx ih hc ht
    | deliver hd hi =>
      exact quiet hx ih hm (apart_of_eq rfl rfl rfl hq)
        (DeliveryAux.quiet_of_eq (by simp [advance, Channel.entered_rest hi]) rfl rfl rfl)
    | close hd hi hs =>
      exact quiet hx ih hm (apart_of_eq rfl rfl rfl hq) (DeliveryAux.quiet_of_eq (by simp [advance]) rfl rfl rfl)
    | writer hw ht =>
      exact quiet hx ih hm (apart_of_eq rfl rfl rfl hq)
        (DeliveryAux.quiet_of_eq (by simp [advance]) rfl rfl (Writer.turn_of_step ht).transactions)
    | worker hr ht =>
      exact quiet hx ih hm (apart_of_eq rfl rfl rfl hq)
        (DeliveryAux.quiet_of_eq (by simp [advance]) rfl rfl (by simp [advance, ht.counted.store]))
  | signal hx ih =>
    refine quiet hx ih .signal ⟨⟨_, rfl, fun _ => ⟨rfl, rfl⟩⟩, rfl, ⟨_, rfl, fun _ => ⟨rfl, rfl⟩⟩, .rfl⟩ ?_
    exact DeliveryAux.quiet_signal _
  | outside hx h hok ih =>
    exact quiet hx ih (.outside h hok) (apart_of_eq rfl rfl rfl h.queue) (DeliveryAux.quiet_of_eq rfl rfl rfl h.transactions)

/-- The envelopes that the correlator has in hand and that wait for it, the first in front. -/
def carried (x : Scene) : List Envelope :=
  (x.pipeline.correlator.map (·.inHand)).getD [] ++ x.pipeline.markers.items

/-- The envelopes whose markers are correlated: those that the correlator is through with, and the one in hand if its marker is. -/
def correlated (x : Scene) (l : Ledger) : List Envelope :=
  l.passed ++ (x.pipeline.correlator.map (·.settled)).getD []

/-- The readers of markers have sent the envelopes of their partitions in order and without a gap, each its own partition; the
correlator is through with the first of them, and has the others still to come. -/
structure Carrying (topic : String) (origin : Int → Nat) (x : Scene) (l : Ledger) : Prop where
  distinct : (x.pipeline.feeders.map (·.feed.partition)).Nodup
  feeders : ∀ r ∈ x.pipeline.feeders, r.feed.topic = topic ∧
    r.Sound x.services.queue fun m e => e = m.toEnvelope.1
  conveyed : x.services.queue.Conveys topic origin (l.passed ++ x.carried)
  standing : x.pipeline.markers.received = true → ∀ r ∈ x.pipeline.feeders, r.feed.position.toNat =
    origin r.feed.partition + Envelope.countOf r.feed.partition (l.passed ++ x.carried)
  correlating : ∀ c e y, x.pipeline.correlator = some c → c.phase = .correlating e y → e.marker = some y.marker

end Scene

namespace MarkersAux

open Scene

variable {ok : Services → Prop} {topic : String} {origin : Int → Nat} {x y : Scene} {l : Ledger} {t : Services}

/-- What depends on the phase of the correlator only is the same if that is where it was. -/
theorem map_of_apart {f : Correlator → List Envelope} (h : Apart x y)
    (hf : ∀ c c' : Correlator, c'.phase = c.phase → f c' = f c) :
    y.pipeline.correlator.map f = x.pipeline.correlator.map f := by
  obtain ⟨told, hc, htold⟩ := h.correlator
  rw [hc, Option.map_map]
  exact congrArg (Option.map · _) (funext fun c => hf c (told c) (htold c).2)

/-- A correlator that is where it was has the same envelope in hand. -/
theorem carried_of_apart (h : Apart x y) : y.carried = x.carried := by
  have hsame : y.pipeline.correlator.map (·.inHand) = x.pipeline.correlator.map (·.inHand) :=
    map_of_apart h fun c c' hp => by simp only [Correlator.inHand, hp]
  rw [carried, carried, h.markers, hsame]

/-- A correlator that is where it was is through with the same envelopes. -/
theorem correlated_of_apart (h : Apart x y) (l : Ledger) : y.correlated l = x.correlated l := by
  have hsame : y.pipeline.correlator.map (·.settled) = x.pipeline.correlator.map (·.settled) :=
    map_of_apart h fun c c' hp => by simp only [Correlator.settled, hp]
  rw [correlated, correlated, hsame]

/-- The markers that are correlated in a scene with a correlator. -/
theorem correlated_of_some {c : Correlator} (hc : x.pipeline.correlator = some c) (l : Ledger) :
    x.correlated l = l.passed ++ c.settled := by
  simp [correlated, hc]

/-- The markers that are correlated after a step of the correlator. -/
theorem correlated_advance (l : Ledger) (c' : Correlator) (m : Channel Envelope) (d : Channel AuditRecord) (x : Scene)
    (t : Services) (c : Correlator) :
    (x.advance .correlator { x.pipeline with correlator := some c', markers := m, delivery := d } t).correlated
      (l.note c x.services) = l.passed ++ (c.releases ++ c'.settled) := by
  simp [correlated, advance, Ledger.note]

/-- A move apart from the markers leaves them on their way. -/
theorem carrying_apart (h : Carrying topic origin x l) (ha : Apart x y) : Carrying topic origin y l := by
  obtain ⟨told, hf, htold⟩ := ha.feeders
  have hcarried := carried_of_apart ha
  refine ⟨?_, ?_, ?_, ?_, ?_⟩
  · rw [hf, Reader.partitions_told fun r => (htold r).1]
    exact h.distinct
  · intro r hr
    obtain ⟨r₀, hr₀, rfl⟩ := List.mem_map.1 (hf ▸ hr)
    obtain ⟨htop, hs⟩ := h.feeders r₀ hr₀
    exact ⟨by rw [(htold r₀).1]; exact htop, (hs.grow ha.queue).of_eq (htold r₀).1 (htold r₀).2⟩
  · rw [hcarried]
    exact h.conveyed.grow ha.queue
  · intro hrec r hr
    obtain ⟨r₀, hr₀, rfl⟩ := List.mem_map.1 (hf ▸ hr)
    rw [(htold r₀).1, hcarried]
    exact h.standing (ha.markers ▸ hrec) r₀ hr₀
  · intro c e z hc he
    obtain ⟨told', hc', htold'⟩ := ha.correlator
    obtain ⟨c₀, hc₀, rfl⟩ := Option.map_eq_some_iff.1 (hc'.symm.trans hc)
    exact h.correlating c₀ e z hc₀ ((htold' c₀).2.symm.trans he)

/-- A step of a reader of markers keeps them on their way. -/
theorem carrying_feeder {n : Nat} {r r' : Feeder} {c : Channel Envelope} (h : Carrying topic origin x l)
    (hr : x.pipeline.feeders[n]? = some r)
    (ht : Reader.Turn (fun _ => Message.toEnvelope) r x.pipeline.markers x.services r' c t) :
    Carrying topic origin
      (x.advance (.feeder n) { x.pipeline with feeders := x.pipeline.feeders.set n r', markers := c } t) l := by
  have hmem : r ∈ x.pipeline.feeders := List.mem_of_getElem? hr
  obtain ⟨htop, hs⟩ := h.feeders r hmem
  have hq : t.queue = x.services.queue := ht.counted.queue
  have hafter : l.passed ++ (x.advance (.feeder n) { x.pipeline with
      feeders := x.pipeline.feeders.set n r', markers := c } t).carried =
        l.passed ++ x.carried ++ x.pipeline.markers.entered c := by
    simp [carried, advance, ht.items]
  have hmoves := ht.moves hs
  have hplace : r'.feed.topic = r.feed.topic ∧ r'.feed.partition = r.feed.partition := by
    rcases hmoves with ⟨-, hf⟩ | ⟨_, _, -, -, -, htop', hpart', -⟩
    · exact ⟨hf.topic, hf.partition⟩
    · exact ⟨htop', hpart'⟩
  have hdistinct := Reader.partitions_set hr hplace.2
  refine ⟨?_, ?_, ?_, ?_, h.correlating⟩
  · exact (congrArg List.Nodup hdistinct).mpr h.distinct
  · intro q hq'
    simp only [advance, hq]
    rcases List.mem_or_eq_of_mem_set hq' with hq' | rfl
    · exact h.feeders q hq'
    · exact ⟨hplace.1.trans htop, ht.sound hs fun _ _ => rfl⟩
  · rw [hafter]
    simp only [advance, hq]
    rcases hmoves with ⟨hnone, -⟩ | ⟨e, payload, hsome, hpay, he, -⟩
    · rw [hnone, List.append_nil]
      exact h.conveyed
    · have hopen : x.pipeline.markers.received = true := ht.received_of_mem (hsome ▸ List.mem_singleton_self e)
      have hstand := h.standing hopen r hmem
      rw [hstand, htop] at hpay he
      rw [hsome]
      exact h.conveyed.snoc hpay he
  · intro hopen q hq'
    have hstand := h.standing (ht.received.symm.trans hopen)
    rw [hafter, Envelope.countOf_append]
    rcases Reader.mem_set_cases h.distinct hr hq' with rfl | ⟨hq', hne⟩
    · have hr' := hstand r hmem
      rw [hplace.2]
      rcases hmoves with ⟨hnone, hf⟩ | ⟨e, payload, hsome, -, he, -, -, hpos⟩
      · rw [hnone, hf.position]
        exact hr'
      · have hpart : e.partition = r.feed.partition := by rw [he, Message.partition_toEnvelope]
        rw [hsome, Envelope.countOf_singleton, if_pos hpart, hpos]
        omega
    · -- what is sent is not of the partition of another reader
      rw [hstand q hq']
      rcases hmoves with ⟨hnone, -⟩ | ⟨e, payload, hsome, -, he, -⟩
      · rw [hnone]
        rfl
      · have hpart : e.partition = r.feed.partition := by rw [he, Message.partition_toEnvelope]
        rw [hsome, Envelope.countOf_singleton, if_neg fun hp => hne (hp.symm.trans hpart)]
        rfl

/-- A step of the correlator keeps the markers on their way. -/
theorem carrying_correlator {c c' : Correlator} {m : Channel Envelope} {d : Channel AuditRecord}
    (h : Carrying topic origin x l) (hc : x.pipeline.correlator = some c)
    (ht : Correlator.Turn x.pipeline.markerSenders c x.pipeline.markers x.pipeline.delivery x.services c' m d t) :
    Carrying topic origin
      (x.advance .correlator { x.pipeline with correlator := some c', markers := m, delivery := d } t)
      (l.note c x.services) := by
  have hq : t.queue = x.services.queue := (Turn.correlator hc ht).queue
  have hbefore : l.passed ++ x.carried = l.passed ++ (c.inHand ++ x.pipeline.markers.items) := by
    simp [carried, hc]
  have hafter : (l.note c x.services).passed ++ (x.advance .correlator { x.pipeline with
      correlator := some c', markers := m, delivery := d } t).carried =
        l.passed ++ (c.releases ++ (c'.inHand ++ m.items)) := by
    simp [carried, advance, Ledger.note]
  refine ⟨h.distinct, ?_, ?_, ?_, ?_⟩
  · exact hq ▸ h.feeders
  · rw [hafter]
    have hprefix : l.passed ++ (c.releases ++ (c'.inHand ++ m.items)) <+: l.passed ++ x.carried := by
      rw [hbefore]
      rcases ht.carried with ⟨he, -⟩ | ⟨he, -⟩
      · exact ⟨[], by rw [he, List.append_nil]⟩
      · exact ⟨c.inHand ++ x.pipeline.markers.items, by rw [he, List.append_nil]⟩
    exact (h.conveyed.of_prefix hprefix).grow (Queue.grows_of_eq hq)
  · rcases ht.carried with ⟨he, hrec⟩ | ⟨-, hrec⟩
    · rw [hafter, he, ← hbefore]
      exact fun hopen => h.standing (hrec ▸ hopen)
    · exact fun hopen => absurd (hrec.symm.trans hopen) (by decide)
  · intro c₁ e z hc₁ he
    obtain rfl := Option.some.inj hc₁
    cases ht with
    | take hp hm hmark =>
      obtain ⟨rfl, rfl⟩ := Correlator.Phase.correlating.inj he
      exact hmark
    | work hp hx =>
      obtain ⟨rfl, rfl⟩ := Correlator.Phase.correlating.inj he
      rw [hx.marker]
      exact h.correlating c _ _ hc hp
    | _ => exact absurd he (by simp)

end MarkersAux

open Scene MarkersAux

/-- Where the reader of a partition of markers starts: at the stored cursor, or else where its settings say. -/
def markerOrigin (settings : PipelineSettings) (s : Services) (p : Int) : Nat :=
  ((s.cursors.stored settings.markerTopic p).getD (s.queue.offsetAt settings.markerTopic p settings.feed.start)).toNat

variable {ok : Services → Prop} {settings : PipelineSettings} {now : Nat} {s : Services} {x : Scene} {l : Ledger}

/-- A pipeline that starts carries nothing, and its readers of markers stand where they start. -/
theorem carrying_start (settings : PipelineSettings) (now : Nat) (s : Services) :
    Carrying settings.markerTopic (markerOrigin settings s) (.start settings now s) {} := by
  have h := started_assemble settings now s
  have hcarried : (Scene.start settings now s).carried = [] := by
    rcases h.correlator with hc | hc <;> simp [carried, Scene.start, h.markers, hc, Correlator.inHand]
  refine ⟨?_, ?_, ?_, ?_, fun c e y hc he => absurd he (h.not_correlating hc e y)⟩
  · rcases h.feeders with hf | hopen
    · simp [Scene.start, hf]
    · exact Queue.nodup_partitions (Reader.openAll_eq_ok hopen).1
  · intro r hr
    rcases h.feeders with hf | hopen
    · exact absurd (show r ∈ [] from hf ▸ hr) List.not_mem_nil
    · obtain ⟨hphase, htop, -⟩ := (Reader.openAll_eq_ok hopen).2 r hr
      exact ⟨htop, Reader.sound_of_polling hphase⟩
  · rw [hcarried]
    exact Queue.conveys_nil
  · intro _ r hr
    rcases h.feeders with hf | hopen
    · exact absurd (show r ∈ [] from hf ▸ hr) List.not_mem_nil
    · obtain ⟨-, -, hpos⟩ := (Reader.openAll_eq_ok hopen).2 r hr
      rw [hcarried, hpos]
      rfl

/-- On every run, the envelopes that the correlator is through with, the one it has in hand and those that wait are, partition by
partition, those of the messages from where the reader started to where it stands. -/
theorem carrying_noted (hx : Noted ok (.start settings now s) x l) :
    Carrying settings.markerTopic (markerOrigin settings s) x l := by
  refine noted_induction (C := Carrying settings.markerTopic (markerOrigin settings s)) ?_ ?_ ?_ ?_ ?_ hx
  · exact carrying_start settings now s
  · intro x y l _ h _ ha _
    exact carrying_apart h ha
  · intro x l v v' d t _ h hv ht
    exact carrying_apart h (apart_of_eq rfl rfl rfl (Queue.grows_of_eq ht.updated.queue))
  · intro x l n r r' c t _ h hr ht
    exact carrying_feeder h hr ht
  · intro x l c c' m d t _ h hc ht
    exact carrying_correlator h hc ht

end Pipeline

end AuditTrail
