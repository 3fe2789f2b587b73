import AuditTrail.Flow.Reader
import AuditTrail.Proofs.Channel
import AuditTrail.Proofs.Feed

/-!
# What one step of a reader does

`Reader.Turn` lists everything that a step of a reader can do, as `Writer.Turn` does for the writer. A reader changes nothing of
the services but the metrics, and the place of its feed moves only past an item that has just been sent.
-/

namespace AuditTrail

namespace Reader

variable {α : Type}

/-- What a step of a reader does to the reader, the channel and the services. -/
inductive Turn (decode : Services → Message → α × List Update) (r : Reader α) (c : Channel α) (s : Services) :
    Reader α → Channel α → Services → Prop where
  /-- It stops while it waits for messages. -/
  | stop {p : Polling} {f : Feed} {t : Services} (hp : r.phase = .polling p) (hf : r.feed.SamePlace f)
      (ht : s.Counted t) : Turn decode r c s { r with feed := f, phase := .stopped } c t
  /-- It goes on waiting for messages. -/
  | wait {p q : Polling} {f : Feed} {t : Services} (hp : r.phase = .polling p) (hf : r.feed.SamePlace f)
      (ht : s.Counted t) : Turn decode r c s { r with feed := f, phase := .polling q } c t
  /-- It gets messages. -/
  | fetch {f : Feed} {ms : List Message} (hp : r.phase = .polling .ready) (hf : r.feed.SamePlace f)
      (hms : s.queue.fetch r.feed.topic r.feed.partition r.feed.position r.feed.settings.maxMessages = .ok ms) :
      Turn decode r c s { r with feed := f, phase := .decoding ms } c s
  /-- It is through with its messages. -/
  | poll (hp : r.phase = .decoding []) : Turn decode r c s { r with phase := .polling .ready } c s
  /-- It turns a message into an item. -/
  | decode {m : Message} {rest : List Message} (hp : r.phase = .decoding (m :: rest)) :
      Turn decode r c s { r with phase := .sending (decode s m).1 m.offset rest } c (recordAll s (decode s m).2)
  /-- It finds the channel closed and stops. -/
  | closed {item : α} {offset : Int} {rest : List Message} (hp : r.phase = .sending item offset rest)
      (hc : c.received = false) : Turn decode r c s { r with phase := .stopped } c s
  /-- It joins the queue of the channel. -/
  | join {item : α} {offset : Int} {rest : List Message} (hp : r.phase = .sending item offset rest)
      (hc : c.attempt (.reader r.index) item = .joined (c.join (.reader r.index))) :
      Turn decode r c s r (c.join (.reader r.index)) s
  /-- It sends its item, and its feed moves past the message. -/
  | send {item : α} {offset : Int} {rest : List Message} (hp : r.phase = .sending item offset rest)
      (hc : c.attempt (.reader r.index) item = .sent (c.push (.reader r.index) item)) :
      Turn decode r c s { r with feed := r.feed.advance offset, phase := .decoding rest }
        (c.push (.reader r.index) item) s

/-- Counting what is to be counted changes nothing else. -/
theorem counted_recordAll (s : Services) (us : List Update) : s.Counted (recordAll s us) := by
  induction us generalizing s with
  | nil => exact Services.counted_self s
  | cons u us ih => exact (Services.counted_record s u).trans (ih (s.record u))

namespace TurnAux

/-- What one fetch does. -/
theorem turn_of_fetch (decode : Services → Message → α × List Update) (now : Nat) {r : Reader α} (c : Channel α)
    (s : Services) (hp : r.phase = .polling .ready) :
    Turn decode r c s { r with
      feed := (r.feed.fetch now s).1
      phase := match (r.feed.fetch now s).2.1 with
        | .batch ms => .decoding ms
        | .failed _ => .stopped
        | .wait p => .polling p } c (r.feed.fetch now s).2.2 := by
  have hplace := r.feed.samePlace_fetch now s
  have hcounted := r.feed.counted_fetch now s
  cases hf : (r.feed.fetch now s).2.1 with
  | batch ms =>
    obtain ⟨hms, hs⟩ := Feed.fetch_of_batch hf
    rw [hs]
    exact Turn.fetch hp hplace hms
  | failed e => exact Turn.stop hp hplace hcounted
  | wait q => exact Turn.wait hp hplace hcounted

end TurnAux

open TurnAux

/-- Every step of a reader is in the list. -/
theorem turn_of_step {decode : Services → Message → α × List Update} {heed : Bool} {now : Nat} {r r' : Reader α}
    {c c' : Channel α} {s s' : Services} (h : r.step decode heed now c s = some (r', c', s')) :
    Turn decode r c s r' c' s' := by
  unfold step at h
  split at h
  · rename_i p hp
    split at h
    · simp only [Option.some.injEq, Prod.mk.injEq] at h
      obtain ⟨rfl, rfl, rfl⟩ := h
      exact Turn.stop hp .rfl (Services.counted_self s)
    · split at h
      · split at h
        · simp only [Option.some.injEq, Prod.mk.injEq] at h
          obtain ⟨rfl, rfl, rfl⟩ := h
          exact Turn.wait hp (r.feed.samePlace_wake p) (Services.counted_self s)
        · exact absurd h (by simp)
      · rename_i hdue
        have hready : p = .ready := by cases p <;> simp_all [Polling.due?]
        simp only [Option.some.injEq, Prod.mk.injEq] at h
        obtain ⟨rfl, rfl, rfl⟩ := h
        exact turn_of_fetch decode now c s (hready ▸ hp)
  · rename_i hp
    simp only [Option.some.injEq, Prod.mk.injEq] at h
    obtain ⟨rfl, rfl, rfl⟩ := h
    exact Turn.poll hp
  · rename_i m rest hp
    simp only [Option.some.injEq, Prod.mk.injEq] at h
    obtain ⟨rfl, rfl, rfl⟩ := h
    exact Turn.decode hp
  · rename_i item offset rest hp
    split at h
    · rename_i hc
      simp only [Option.some.injEq, Prod.mk.injEq] at h
      obtain ⟨rfl, rfl, rfl⟩ := h
      exact Turn.closed hp (Channel.attempt_closed hc)
    · rename_i d hc
      obtain ⟨-, rfl⟩ := Channel.attempt_joined hc
      simp only [Option.some.injEq, Prod.mk.injEq] at h
      obtain ⟨rfl, rfl, rfl⟩ := h
      exact Turn.join hp hc
    · rename_i d hc
      obtain ⟨-, rfl⟩ := Channel.attempt_sent hc
      simp only [Option.some.injEq, Prod.mk.injEq] at h
      obtain ⟨rfl, rfl, rfl⟩ := h
      exact Turn.send hp hc
    · exact absurd h (by simp)
  · exact absurd h (by simp)

/-- A reader changes nothing of the services but the metrics. -/
theorem Turn.counted {decode : Services → Message → α × List Update} {r r' : Reader α} {c c' : Channel α}
    {s s' : Services} (h : Turn decode r c s r' c' s') : s.Counted s' := by
  cases h with
  | stop hp hf ht => exact ht
  | wait hp hf ht => exact ht
  | decode hp => exact counted_recordAll s _
  | _ => exact Services.counted_self s

/-- Only a reader that has not stopped takes a step. -/
theorem Turn.running {decode : Services → Message → α × List Update} {r r' : Reader α} {c c' : Channel α}
    {s s' : Services} (h : Turn decode r c s r' c' s') : r.isStopped = false := by
  cases h <;> simp_all [isStopped]

/-- A reader takes nothing out of its channel. -/
theorem Turn.items {decode : Services → Message → α × List Update} {r r' : Reader α} {c c' : Channel α}
    {s s' : Services} (h : Turn decode r c s r' c' s') : c'.items = c.items ++ c.entered c' := by
  cases h <;> simp

/-- A reader neither opens its channel nor closes it. -/
theorem Turn.received {decode : Services → Message → α × List Update} {r r' : Reader α} {c c' : Channel α}
    {s s' : Services} (h : Turn decode r c s r' c' s') : c'.received = c.received := by
  cases h <;> simp

/-- A reader sends only where there is a receiver. -/
theorem Turn.received_of_mem {decode : Services → Message → α × List Update} {r r' : Reader α} {c c' : Channel α}
    {s s' : Services} (h : Turn decode r c s r' c' s') {item : α} (hi : item ∈ c.entered c') : c.received = true := by
  cases h with
  | send hp hc => exact (Channel.attempt_sent hc).1
  | _ => simp at hi

/-! ## Opening all partitions of a topic -/

/-- Feeds that are opened one after the other are those of the partitions. -/
theorem openAts_eq_ok {settings : FeedSettings} {s : Services} {topic : String} {ps : List Int} {fs : List Feed}
    (h : ps.mapM (Feed.openAt settings s topic) = .ok fs) :
    fs.map (·.partition) = ps ∧ ∀ f ∈ fs, f.topic = topic ∧
      f.position = (s.cursors.stored topic f.partition).getD (s.queue.offsetAt topic f.partition settings.start) := by
  induction ps generalizing fs with
  | nil =>
    obtain rfl : [] = fs := Except.ok.inj h
    exact ⟨rfl, fun f hf => absurd hf List.not_mem_nil⟩
  | cons p ps ih =>
    rw [List.mapM_cons] at h
    cases hf : Feed.openAt settings s topic p with
    | error e => exact absurd h (by simp [hf, bind, Except.bind])
    | ok f =>
      cases hfs : ps.mapM (Feed.openAt settings s topic) with
      | error e => exact absurd h (by simp [hf, hfs, bind, Except.bind])
      | ok fs' =>
        obtain rfl : f :: fs' = fs := by simpa [hf, hfs, bind, Except.bind, pure, Except.pure] using h
        obtain ⟨-, ht, hp, hpos⟩ := Feed.openAt_eq_ok hf
        obtain ⟨hps, hall⟩ := ih hfs
        refine ⟨by rw [List.map_cons, hp, hps], ?_⟩
        intro g hg
        rcases List.mem_cons.1 hg with rfl | hg
        · exact ⟨ht, hp ▸ hpos⟩
        · exact hall g hg

/-- The readers of a topic are those of its partitions, and wait for messages at the stored cursors or where their settings say. -/
theorem openAll_eq_ok {settings : FeedSettings} {s : Services} {topic : String} {rs : List (Reader α)}
    (h : openAll settings s topic = .ok rs) :
    s.queue.partitions topic = .ok (rs.map (·.feed.partition)) ∧
      ∀ r ∈ rs, r.phase = .polling .ready ∧ r.feed.topic = topic ∧ r.feed.position =
        (s.cursors.stored topic r.feed.partition).getD (s.queue.offsetAt topic r.feed.partition settings.start) := by
  unfold openAll at h
  cases hps : s.queue.partitions topic with
  | error e => exact absurd h (by simp [hps, bind, Except.bind])
  | ok ps =>
    cases hfs : ps.mapM (Feed.openAt settings s topic) with
    | error e => exact absurd h (by simp [hps, hfs, bind, Except.bind])
    | ok fs =>
      obtain rfl : fs.mapIdx (fun i f => ({ index := i, feed := f } : Reader α)) = rs := by
        simpa [hps, hfs, bind, Except.bind, pure, Except.pure] using h
      obtain ⟨hmap, hall⟩ := openAts_eq_ok hfs
      refine ⟨?_, ?_⟩
      · rw [← hmap]
        refine congrArg Except.ok (List.ext_getElem? ?_)
        intro i
        simp only [List.getElem?_map, List.getElem?_mapIdx, Option.map_map]
        rfl
      · intro r hr
        obtain ⟨i, hi, rfl⟩ := List.mem_mapIdx.1 hr
        exact ⟨rfl, hall _ (List.getElem_mem hi)⟩

/-! ## The place of a reader in its partition -/

/-- What a reader has in hand are the messages of its partition from the place of its feed on. The item that it sends is one of
the first of them. -/
def Sound (q : Queue) (Of : Message → α → Prop) (r : Reader α) : Prop :=
  match r.phase with
  | .decoding rest => q.Ahead r.feed.topic r.feed.partition r.feed.position.toNat rest
  | .sending item offset rest => ∃ m, q.Ahead r.feed.topic r.feed.partition r.feed.position.toNat (m :: rest) ∧
      m.offset = offset ∧ Of m item
  | _ => True

variable {decode : Services → Message → α × List Update} {Of : Message → α → Prop} {q q' : Queue} {r r' : Reader α}
  {c c' : Channel α} {s s' : Services}

/-- Messages in hand stay those of the partition when the queue grows. -/
theorem Sound.grow (h : r.Sound q Of) (hg : q.Grows q') : r.Sound q' Of := by
  unfold Sound at *
  split
  · rename_i rest hp
    simp only [hp] at h
    exact h.grow hg
  · rename_i item offset rest hp
    simp only [hp] at h
    obtain ⟨m, ha, hm⟩ := h
    exact ⟨m, ha.grow hg, hm⟩
  · trivial

/-- What a reader has in hand depends on its place and on what it is doing alone. -/
theorem Sound.of_eq (h : r.Sound q Of) (hf : r'.feed = r.feed) (hp : r'.phase = r.phase) : r'.Sound q Of := by
  unfold Sound at *
  rwa [hf, hp]

/-- A reader that waits has nothing in hand. -/
theorem sound_of_polling {p : Polling} (hp : r.phase = .polling p) : r.Sound q Of := by
  unfold Sound
  rw [hp]
  trivial

/-- Every step of a reader keeps it in its place. -/
theorem Turn.sound (h : Turn decode r c s r' c' s') (hs : r.Sound s.queue Of) (hof : ∀ s m, Of m (decode s m).1) :
    r'.Sound s.queue Of := by
  cases h with
  | fetch hp hf hms =>
    have ha := Queue.ahead_fetch hms
    simp only [Sound, hf.topic, hf.partition, hf.position]
    exact ha
  | @decode m rest hp =>
    simp only [Sound, hp] at hs
    exact ⟨m, hs, rfl, hof s m⟩
  | join hp hc => exact hs
  | send hp hc =>
    simp only [Sound, hp] at hs
    obtain ⟨m, ⟨⟨payload, -, rfl⟩, hrest⟩, rfl, -⟩ := hs
    exact hrest
  | _ => trivial

/-- A step of a reader leaves its feed in its place and sends nothing, or sends the item of the message there and moves the feed
past it. -/
theorem Turn.moves (h : Turn decode r c s r' c' s') (hs : r.Sound s.queue Of) :
    (c.entered c' = [] ∧ r.feed.SamePlace r'.feed) ∨
      ∃ item payload, c.entered c' = [item] ∧
        s.queue.payload? r.feed.topic r.feed.partition r.feed.position.toNat = some payload ∧
        Of ⟨r.feed.topic, r.feed.partition, r.feed.position.toNat, payload⟩ item ∧
        r'.feed.topic = r.feed.topic ∧ r'.feed.partition = r.feed.partition ∧
        r'.feed.position = r.feed.position.toNat + 1 := by
  cases h with
  | stop hp hf ht => exact Or.inl ⟨Channel.entered_self c, hf⟩
  | wait hp hf ht => exact Or.inl ⟨Channel.entered_self c, hf⟩
  | fetch hp hf hms => exact Or.inl ⟨Channel.entered_self c, hf⟩
  | join hp hc => exact Or.inl ⟨Channel.entered_join c _, .rfl⟩
  | @send item offset rest hp hc =>
    simp only [Sound, hp] at hs
    obtain ⟨m, ⟨⟨payload, hpay, rfl⟩, -⟩, rfl, hof⟩ := hs
    exact Or.inr ⟨item, payload, Channel.entered_push c _ _, hpay, hof, rfl, rfl, rfl⟩
  | _ => exact Or.inl ⟨Channel.entered_self c, .rfl⟩

/-- A reader keeps its partition, and what it sends is of that. -/
theorem Turn.partition {part : α → Int} (h : Turn decode r c s r' c' s')
    (hs : r.Sound s.queue fun m a => part a = m.partition) :
    r'.feed.partition = r.feed.partition ∧ ∀ a ∈ c.entered c', part a = r.feed.partition := by
  rcases h.moves hs with ⟨hnone, hf⟩ | ⟨item, payload, hsome, -, hitem, -, hpart, -⟩
  · refine ⟨hf.partition, ?_⟩
    intro a ha
    exact absurd (hnone ▸ ha) List.not_mem_nil
  · refine ⟨hpart, ?_⟩
    intro a ha
    obtain rfl := List.mem_singleton.1 (hsome ▸ ha)
    exact hitem

/-! ## The readers of a topic side by side -/

/-- Readers that are told something still read the same partitions. -/
theorem partitions_told {told : Reader α → Reader α} (h : ∀ r, (told r).feed = r.feed) (rs : List (Reader α)) :
    (rs.map told).map (·.feed.partition) = rs.map (·.feed.partition) := by
  rw [List.map_map]
  refine List.map_congr_left ?_
  intro r _
  rw [Function.comp, h]

/-- Where a reader is put in the place of another, the others stay. -/
theorem mem_set_or_eq {rs : List (Reader α)} {n : Nat} {r r' q : Reader α} (hr : rs[n]? = some r) (hq : q ∈ rs) :
    q = r ∨ q ∈ rs.set n r' := by
  obtain ⟨m, hm, rfl⟩ := List.getElem_of_mem hq
  by_cases hmn : n = m
  · subst hmn
    rw [List.getElem?_eq_getElem hm] at hr
    exact Or.inl (Option.some.inj hr)
  · refine Or.inr (List.mem_iff_getElem.2 ⟨m, by simpa using hm, ?_⟩)
    rw [List.getElem_set_ne hmn]

/-- Where a reader is put in the place of another, those of other partitions stay and no other does. -/
theorem mem_set_cases {rs : List (Reader α)} {n : Nat} {r r' q : Reader α} (hd : (rs.map (·.feed.partition)).Nodup)
    (hr : rs[n]? = some r) (hq : q ∈ rs.set n r') :
    q = r' ∨ q ∈ rs ∧ q.feed.partition ≠ r.feed.partition := by
  obtain ⟨m, hm, rfl⟩ := List.getElem_of_mem hq
  obtain ⟨hn, rfl⟩ := List.getElem?_eq_some_iff.1 hr
  rw [List.length_set] at hm
  by_cases hmn : n = m
  · subst hmn
    exact Or.inl (List.getElem_set_self _)
  · rw [List.getElem_set_ne hmn]
    refine Or.inr ⟨List.getElem_mem hm, ?_⟩
    intro he
    have hsame : (rs.map (·.feed.partition))[n]? = (rs.map (·.feed.partition))[m]? := by
      simp [hn, hm, he]
    exact hmn ((List.getElem?_inj (by simpa using hn) hd).1 hsame)

/-- Where a reader is put in the place of one of the same partition, the partitions stay what they are. -/
theorem partitions_set {rs : List (Reader α)} {n : Nat} {r r' : Reader α} (hr : rs[n]? = some r)
    (hp : r'.feed.partition = r.feed.partition) :
    (rs.set n r').map (·.feed.partition) = rs.map (·.feed.partition) := by
  refine List.ext_getElem? ?_
  intro m
  rw [List.getElem?_map, List.getElem?_map, List.getElem?_set]
  split
  · rename_i hm
    subst hm
    obtain ⟨hlt, rfl⟩ := List.getElem?_eq_some_iff.1 hr
    simp [hlt, hp]
  · rfl

end Reader

end AuditTrail
