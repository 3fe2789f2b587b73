import AuditTrail.Flow.Feed
import AuditTrail.Proofs.Queue
import AuditTrail.Proofs.Services
import Mathlib.Logic.Relation

/-!
# A feed reads its log without a gap

A fetch leaves a feed in its place. What it gives is what the queue returns from there, and only a message that is done with moves
the feed.

A session is a consumer at a feed. It calls for messages, advances over those it is given one after the other, and may let go of the
rest of them and call again; a call may be given up whenever it waits. In the meantime the log grows, fetches fail or do not, and the
queue may be closed. The messages passed and those at hand stay one piece of the log (`Session.InOrder`), which is what
`passes_log_in_order` rests on.
-/

namespace AuditTrail

namespace Feed

/-- Two feeds read the same partition and stand at the same offset. -/
structure SamePlace (f g : Feed) : Prop where
  topic : g.topic = f.topic
  partition : g.partition = f.partition
  position : g.position = f.position

theorem SamePlace.rfl {f : Feed} : SamePlace f f := ⟨Eq.refl _, Eq.refl _, Eq.refl _⟩

/-- Waking up leaves a feed in its place. -/
theorem samePlace_wake (f : Feed) (p : Polling) : SamePlace f (f.wake p) := by
  cases p <;> exact ⟨rfl, rfl, rfl⟩

/-- A feed that is opened stands at the stored cursor, or else where its settings say. -/
theorem openAt_eq_ok {settings : FeedSettings} {s : Services} {topic : String} {p : Int} {f : Feed}
    (h : openAt settings s topic p = .ok f) :
    f.settings = settings ∧ f.topic = topic ∧ f.partition = p ∧
      f.position = (s.cursors.stored topic p).getD (s.queue.offsetAt topic p settings.start) := by
  simp only [openAt, Cursors.get] at h
  split at h
  · exact absurd h (by simp [bind, Except.bind])
  · obtain rfl := Except.ok.inj h
    exact ⟨rfl, rfl, rfl, rfl⟩

/-! ## What one fetch does -/

section

variable (f : Feed) (now : Nat) (s : Services)

/-- A fetch leaves a feed in its place. -/
theorem samePlace_fetch : f.SamePlace (f.fetch now s).1 := by
  unfold fetch receive
  split
  · exact ⟨rfl, rfl, rfl⟩
  · exact ⟨rfl, rfl, rfl⟩
  · dsimp only
    split <;> exact .rfl

/-- A fetch leaves the settings of a feed as they are. -/
theorem settings_fetch : (f.fetch now s).1.settings = f.settings := by
  unfold fetch receive
  split
  · rfl
  · rfl
  · dsimp only
    split <;> rfl

/-- A fetch changes nothing of the services but the metrics. -/
theorem counted_fetch : s.Counted (f.fetch now s).2.2 := by
  unfold fetch receive
  split
  · exact Services.counted_self s
  · exact Services.counted_self s
  · rename_i e _
    dsimp only
    have hcount : s.Counted (if e.isClosed then s else s.record (.fetchError e.code)) := by
      split
      · exact Services.counted_self s
      · exact Services.counted_record s _
    split <;> exact hcount

variable {f now s}

/-- A batch is what the queue returned, and nothing is counted. -/
theorem fetch_of_batch {ms : List Message} (h : (f.fetch now s).2.1 = .batch ms) :
    s.queue.fetch f.topic f.partition f.position f.settings.maxMessages = .ok ms ∧ (f.fetch now s).2.2 = s := by
  unfold fetch receive at h ⊢
  split at h
  · exact absurd h (by simp)
  · rename_i batch _ hms
    rw [hms]
    exact ⟨congrArg Except.ok (Fetched.batch.inj h), rfl⟩
  · dsimp only at h
    split at h <;> exact absurd h (by simp)

/-- A feed ends with the error that the queue returned. -/
theorem fetch_of_failed {e : Error} (h : (f.fetch now s).2.1 = .failed e) :
    s.queue.fetch f.topic f.partition f.position f.settings.maxMessages = .error e := by
  unfold fetch receive at h
  split at h
  · exact absurd h (by simp)
  · exact absurd h (by simp)
  · rename_i e' he
    dsimp only at h
    split at h
    · exact absurd h (by simp)
    · rw [he]
      exact congrArg Except.error (Fetched.failed.inj h)

/-- Messages that the queue returns are a batch. -/
theorem batch_of_fetch {ms : List Message} (h : s.queue.fetch f.topic f.partition f.position f.settings.maxMessages = .ok ms)
    (hms : ms ≠ []) : (f.fetch now s).2.1 = .batch ms := by
  unfold fetch receive
  rw [h]
  cases ms with
  | nil => exact absurd rfl hms
  | cons m ms => rfl

end

/-! ## Sessions -/

/-- A consumer at a feed, with what it has passed. -/
structure Session where
  feed : Feed
  services : Services
  /-- The call for messages, if one is under way. -/
  call : Option Polling := none
  /-- The messages that the consumer has been given and not yet passed. -/
  batch : List Message := []
  /-- The messages that it has advanced over, the first in front. -/
  passed : List Message := []
  deriving DecidableEq, Repr

namespace Session

/-- The session after the call has fetched once. -/
def fetched (x : Session) (now : Nat) : Session :=
  let (feed, got, s) := x.feed.fetch now x.services
  { x with
    feed := feed
    services := s
    call := match got with
      | .wait p => some p
      | _ => none
    batch := match got with
      | .batch ms => ms
      | _ => [] }

/-- One step of a session. -/
inductive Step (x : Session) : Session → Prop where
  /-- The consumer calls for messages, and lets go of those that it has not passed. -/
  | call (hc : x.call = none) : Step x { x with call := some .ready, batch := [] }
  /-- The call fetches. -/
  | fetch (now : Nat) (hc : x.call = some .ready) : Step x (x.fetched now)
  /-- The call has waited. -/
  | wake {p : Polling} {due now : Nat} (hc : x.call = some p) (hd : p.due? = some due) (hn : due ≤ now) :
      Step x { x with feed := x.feed.wake p, call := some .ready }
  /-- The call is given up. -/
  | cancel : Step x { x with call := none }
  /-- The consumer advances over a message. -/
  | advance {m : Message} {rest : List Message} (hc : x.call = none) (hb : x.batch = m :: rest) :
      Step x { x with feed := x.feed.advance m.offset, batch := rest, passed := x.passed ++ [m] }
  /-- Others publish, make fetches fail or succeed, close the queue or change what is not the queue. -/
  | others {t : Services} (h : x.services.queue.Grows t.queue) : Step x { x with services := t }

/-- Any number of steps of a session. -/
def Run : Session → Session → Prop := Relation.ReflTransGen Step

/-- What holds of a session that has begun at an offset of a partition. -/
structure InOrder (settings : FeedSettings) (topic : String) (p first : Int) (x : Session) : Prop where
  ofSettings : x.feed.settings = settings
  ofTopic : x.feed.topic = topic
  ofPartition : x.feed.partition = p
  position : x.feed.position = if x.passed = [] then first else first.toNat + x.passed.length
  passed : x.services.queue.Ahead topic p first.toNat x.passed
  batch : x.services.queue.Ahead topic p (first.toNat + x.passed.length) x.batch

/-- Something that may happen to a session, given by what it needs. -/
inductive Happening where
  | call
  | fetch (now : Nat)
  | wake (now : Nat)
  | cancel
  | advance
  /-- Somebody publishes. -/
  | publish (topic : String) (partition : Int) (payload : Octets)
  /-- From now on fetches fail, or do not. -/
  | fail (fetches : Bool)
  /-- The queue is closed. -/
  | close
  deriving DecidableEq, Repr

/-- The session after something has happened, if it can happen. -/
def after (x : Session) : Happening → Option Session
  | .call => if x.call = none then some { x with call := some .ready, batch := [] } else none
  | .fetch now => if x.call = some .ready then some (x.fetched now) else none
  | .wake now => do
    let p ← x.call
    let due ← p.due?
    if due ≤ now then some { x with feed := x.feed.wake p, call := some .ready } else none
  | .cancel => some { x with call := none }
  | .advance =>
    match x.call, x.batch with
    | none, m :: rest => some { x with feed := x.feed.advance m.offset, batch := rest, passed := x.passed ++ [m] }
    | _, _ => none
  | .publish topic partition payload =>
    match x.services.queue.publish topic partition payload with
    | .ok (queue, _) => some { x with services := { x.services with queue := queue } }
    | .error _ => none
  | .fail fetches =>
    some { x with services := { x.services with queue := { x.services.queue with failFetches := fetches } } }
  | .close => some { x with services := { x.services with queue := { x.services.queue with closed := true } } }

/-- Whatever happens is a step. -/
theorem step_of_after {x y : Session} {e : Happening} (h : x.after e = some y) : Step x y := by
  cases e with
  | call =>
    obtain ⟨hc, hy⟩ := Option.ite_none_right_eq_some.1 h
    obtain rfl := Option.some.inj hy
    exact .call hc
  | fetch now =>
    obtain ⟨hc, hy⟩ := Option.ite_none_right_eq_some.1 h
    obtain rfl := Option.some.inj hy
    exact .fetch now hc
  | wake now =>
    obtain ⟨p, hc, hp⟩ := Option.bind_eq_some_iff.1 h
    obtain ⟨due, hd, hdue⟩ := Option.bind_eq_some_iff.1 hp
    obtain ⟨hn, hy⟩ := Option.ite_none_right_eq_some.1 hdue
    obtain rfl := Option.some.inj hy
    exact .wake hc hd hn
  | cancel =>
    obtain rfl := Option.some.inj h
    exact .cancel
  | advance =>
    simp only [after] at h
    split at h
    · rename_i m rest hc hb
      obtain rfl := Option.some.inj h
      exact .advance hc hb
    · exact absurd h (by simp)
  | publish topic partition payload =>
    simp only [after] at h
    split at h
    · rename_i queue offset hq
      obtain rfl := Option.some.inj h
      exact .others (Queue.grows_of_publish hq)
    · exact absurd h (by simp)
  | fail fetches =>
    obtain rfl := Option.some.inj h
    exact .others fun topic p l hl => ⟨[], by rw [List.append_nil]; exact hl⟩
  | close =>
    obtain rfl := Option.some.inj h
    exact .others fun topic p l hl => ⟨[], by rw [List.append_nil]; exact hl⟩

/-- Whatever happens one after the other makes a run. -/
theorem run_of_afters {x y : Session} {es : List Happening} (h : es.foldlM after x = some y) : Run x y := by
  induction es generalizing x with
  | nil =>
    obtain rfl := Option.some.inj h
    exact .refl
  | cons e es ih =>
    obtain ⟨z, hz, hy⟩ := Option.bind_eq_some_iff.1 h
    exact .head (step_of_after hz) (ih hy)

variable {settings : FeedSettings} {topic : String} {p first : Int} {x y : Session}

namespace InOrder

/-- The feed stands behind the messages that have been passed. -/
theorem toNat_position (h : InOrder settings topic p first x) :
    x.feed.position.toNat = first.toNat + x.passed.length := by
  rw [h.position]
  split
  · rename_i hnil
    rw [hnil, List.length_nil, Nat.add_zero]
  · rfl

/-- A fetch gives messages that follow those passed. -/
theorem fetched (h : InOrder settings topic p first x) (now : Nat) : InOrder settings topic p first (x.fetched now) := by
  have hplace := x.feed.samePlace_fetch now x.services
  have hqueue := (x.feed.counted_fetch now x.services).queue
  refine
    { ofSettings := (x.feed.settings_fetch now x.services).trans h.ofSettings
      ofTopic := hplace.topic.trans h.ofTopic
      ofPartition := hplace.partition.trans h.ofPartition
      position := hplace.position.trans h.position
      passed := ?_
      batch := ?_ }
  · exact hqueue.symm ▸ h.passed
  · simp only [Session.fetched]
    split
    · rename_i ms hms
      have hahead := Queue.ahead_fetch (fetch_of_batch hms).1
      rw [h.ofTopic, h.ofPartition, h.toNat_position] at hahead
      exact hqueue.symm ▸ hahead
    · trivial

/-- Advancing over the first message at hand keeps the order. -/
theorem advance (h : InOrder settings topic p first x) {m : Message} {rest : List Message} (hb : x.batch = m :: rest) :
    InOrder settings topic p first
      { x with feed := x.feed.advance m.offset, batch := rest, passed := x.passed ++ [m] } := by
  have hbatch := h.batch
  rw [hb] at hbatch
  obtain ⟨⟨payload, hp, rfl⟩, hrest⟩ := hbatch
  have hlength : first.toNat + (x.passed ++ [(⟨topic, p, (first.toNat + x.passed.length : Nat), payload⟩ : Message)]).length =
      first.toNat + x.passed.length + 1 := by simp [Nat.add_assoc]
  refine { h with position := ?_, passed := ?_, batch := ?_ }
  · rw [if_neg (by simp)]
    simp only [Feed.advance]
    omega
  · exact Queue.ahead_append.2 ⟨h.passed, ⟨payload, hp, rfl⟩, trivial⟩
  · rw [hlength]
    exact hrest

/-- Every step keeps the order. -/
theorem step (h : InOrder settings topic p first x) (hs : Step x y) : InOrder settings topic p first y := by
  cases hs with
  | call hc => exact { h with batch := trivial }
  | fetch now hc => exact h.fetched now
  | @wake q due now hc hd hn =>
    have hplace := x.feed.samePlace_wake q
    refine
      { h with
        ofSettings := ?_
        ofTopic := hplace.topic.trans h.ofTopic
        ofPartition := hplace.partition.trans h.ofPartition
        position := hplace.position.trans h.position }
    cases q <;> exact h.ofSettings
  | cancel => exact { h with }
  | advance hc hb => exact h.advance hb
  | others hg => exact { h with passed := h.passed.grow hg, batch := h.batch.grow hg }

/-- Every run keeps the order. -/
theorem run (h : InOrder settings topic p first x) (hr : Run x y) : InOrder settings topic p first y := by
  induction hr with
  | refl => exact h
  | tail _ hs ih => exact ih.step hs

/-- The feed stands where it began, or just behind the last message that has been passed. -/
theorem position_eq (h : InOrder settings topic p first x) :
    x.feed.position = (x.passed.getLast?.map (·.offset + 1)).getD first := by
  rw [h.position]
  rcases List.eq_nil_or_concat' x.passed with hnil | ⟨ms, m, hms⟩
  · rw [if_pos hnil, hnil]
    rfl
  · have hpassed := h.passed
    rw [hms] at hpassed
    obtain ⟨⟨payload, -, rfl⟩, -⟩ := (Queue.ahead_append.1 hpassed).2
    rw [hms, if_neg (by simp), List.getLast?_concat, Option.map_some, Option.getD_some, List.length_append, List.length_singleton]
    push_cast
    omega

/-- When the feed is told that the queue is closed, it is, and the whole log has been passed from where the feed began. -/
theorem closed_of_fetch (h : InOrder settings topic p first x) {now : Nat} {name : String}
    (hf : (x.feed.fetch now x.services).2.1 = .failed (.queueClosed name)) :
    x.services.queue.closed = true ∧
      x.passed = x.services.queue.stretch topic p first.toNat (x.services.queue.size topic p) := by
  have hfetch := fetch_of_failed hf
  rw [h.ofTopic, h.ofPartition] at hfetch
  obtain ⟨hclosed, hsize⟩ := Queue.closed_of_fetch hfetch
  rw [h.toNat_position] at hsize
  exact ⟨hclosed, h.passed.eq_stretch.trans (Queue.stretch_of_size_le hsize)⟩

/-- While there is a message after those passed, a fetch that does not fail gives it, and maybe more after it. -/
theorem batch_of_lt (h : InOrder settings topic p first x) (hmax : 0 < settings.maxMessages)
    (hfail : x.services.queue.failFetches = false)
    (hlt : first.toNat + x.passed.length < x.services.queue.size topic p) (now : Nat) :
    ∃ ms, (x.feed.fetch now x.services).2.1 = .batch ms ∧ ms ≠ [] ∧
      x.services.queue.Ahead topic p (first.toNat + x.passed.length) ms := by
  obtain ⟨ms, hms, hne⟩ := Queue.fetch_of_lt hfail hmax (h.toNat_position ▸ hlt)
  refine ⟨ms, batch_of_fetch ?_ hne, hne, h.toNat_position ▸ Queue.ahead_fetch hms⟩
  rw [h.ofTopic, h.ofPartition, h.ofSettings]
  exact hms

end InOrder

/-- A session begins in order. -/
theorem inOrder_of_openAt {s : Services} {f : Feed} (h : openAt settings s topic p = .ok f) :
    InOrder settings topic p ((s.cursors.stored topic p).getD (s.queue.offsetAt topic p settings.start))
      { feed := f, services := s } := by
  obtain ⟨hsettings, htopic, hpartition, hposition⟩ := openAt_eq_ok h
  exact
    { ofSettings := hsettings
      ofTopic := htopic
      ofPartition := hpartition
      position := hposition
      passed := trivial
      batch := trivial }

end Session

/-- A feed reads its partition without a gap, whatever fails, however the log grows, and wherever a call is given up or a batch is
left in the middle. The messages passed are those of the log one after the other from where the feed was opened, and the feed stands
behind the last of them. That the queue is closed it says only when it is, after the whole log has been passed; and while there
is another message, a fetch that does not fail gives the next ones. -/
theorem passes_log_in_order {settings : FeedSettings} {s : Services} {topic : String} {p : Int} {f : Feed}
    (hopen : openAt settings s topic p = .ok f) {x : Session} (hr : Session.Run { feed := f, services := s } x) :
    let first := (s.cursors.stored topic p).getD (s.queue.offsetAt topic p settings.start)
    let log := x.services.queue
    log.Ahead topic p first.toNat x.passed ∧
    x.feed.position = (x.passed.getLast?.map (·.offset + 1)).getD first ∧
    (∀ now name, (x.feed.fetch now x.services).2.1 = .failed (.queueClosed name) →
      log.closed = true ∧ x.passed = log.stretch topic p first.toNat (log.size topic p)) ∧
    (0 < settings.maxMessages → log.failFetches = false → first.toNat + x.passed.length < log.size topic p →
      ∀ now, ∃ ms, (x.feed.fetch now x.services).2.1 = .batch ms ∧ ms ≠ [] ∧
        log.Ahead topic p (first.toNat + x.passed.length) ms) := by
  intro first log
  have h := (Session.inOrder_of_openAt hopen).run hr
  exact ⟨h.passed, h.position_eq, fun now name => h.closed_of_fetch, fun hmax hfail hlt now => h.batch_of_lt hmax hfail hlt now⟩

/-- A session from a stored cursor. A fetch fails and the call is given up; of a batch only the first message is passed; the log
grows; and in the end the queue is closed. -/
theorem passes_log_in_order_interrupted :
    let settings : FeedSettings := { maxMessages := 2 }
    let s : Services :=
      { queue := { topics := [("binlog", [[[97], [98], [99]]])] }, cursors := Cursors.set {} "binlog" 0 1 }
    ∃ f x, openAt settings s "binlog" 0 = .ok f ∧ Session.Run { feed := f, services := s } x ∧
      x.passed = [⟨"binlog", 0, 1, [98]⟩, ⟨"binlog", 0, 2, [99]⟩, ⟨"binlog", 0, 3, [100]⟩] ∧ x.feed.position = 4 ∧
      x.services.queue.closed = true ∧ x.passed = x.services.queue.stretch "binlog" 0 1 4 := by
  intro settings s
  obtain ⟨f, hf⟩ : ∃ f, openAt settings s "binlog" 0 = .ok f := ⟨_, rfl⟩
  let events : List Session.Happening :=
    [.fail true, .call, .fetch 0, .wake 100, .fetch 100, .cancel, .fail false, .call, .fetch 100, .advance, .call,
      .publish "binlog" 0 [100], .fetch 100, .advance, .advance, .close, .call]
  let first : Session := { feed := f, services := s }
  obtain ⟨x, hx⟩ : ∃ x, events.foldlM Session.after first = some x := by
    obtain rfl := Except.ok.inj hf
    exact Option.isSome_iff_exists.1 (by decide +kernel)
  have hr : Session.Run first x := Session.run_of_afters hx
  have hlog : (events.foldlM Session.after first).map (fun x => (x.passed, (x.feed.fetch 100 x.services).2.1,
        x.services.queue.size "binlog" 0)) =
      some ([⟨"binlog", 0, 1, [98]⟩, ⟨"binlog", 0, 2, [99]⟩, ⟨"binlog", 0, 3, [100]⟩],
        .failed (.queueClosed "binlog/0"), 4) := by
    obtain rfl := Except.ok.inj hf
    decide +kernel
  rw [hx] at hlog
  obtain ⟨hpassed, hlog⟩ := Prod.mk.inj (Option.some.inj hlog)
  obtain ⟨hfetch, hsize⟩ := Prod.mk.inj hlog
  obtain ⟨-, hposition, hend, -⟩ := passes_log_in_order hf hr
  obtain ⟨hclosed, hstretch⟩ := hend 100 _ hfetch
  rw [hsize] at hstretch
  refine ⟨f, x, hf, hr, hpassed, ?_, hclosed, hstretch⟩
  rw [hposition, hpassed]
  rfl

end Feed

end AuditTrail
