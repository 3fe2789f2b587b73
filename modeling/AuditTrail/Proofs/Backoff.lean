import AuditTrail.Flow.Reader
import AuditTrail.Proofs.Feed
import AuditTrail.Proofs.Outcome
import Mathlib.Algebra.Group.Nat.Defs

/-!
# How long a feed waits

A call for messages fetches until there are some or an error comes that no further attempt mends, and waits after every other fetch.
The wait after a failed fetch is kept in the feed from one fetch to the next and from one call to the next. It has a closed form: after
the `k`-th failure since the last fetch that succeeded it is the first wait doubled `k - 1` times, but no longer than the longest
(`pause`). What a feed keeps is so told by the answers it has been given since it was opened (`Paced`), whatever the queue is that
answers; `waits_doubled` says this of whole calls, and `Polls.call` that a reader that polls makes such calls.
-/

namespace AuditTrail

namespace Feed

/-- What a queue answers to a fetch. -/
abbrev Answer := Except Error (List Message)

namespace Answer

/-- The fetch succeeded, with messages or without. -/
def succeeds : Answer → Bool
  | .ok _ => true
  | .error _ => false

/-- The fetch failed, and a later attempt may succeed. -/
def isRetriable : Answer → Bool
  | .ok _ => false
  | .error e => e.isRetriable

/-- There are messages, or an error that no further attempt mends. -/
def isFinal : Answer → Bool
  | .ok ms => !ms.isEmpty
  | .error e => !e.isRetriable

/-- The fetch failed, and not because something has been closed. -/
def isCounted : Answer → Bool
  | .ok _ => false
  | .error e => !e.isClosed

end Answer

/-- How many fetches have failed since the last one that succeeded, of those that may succeed later. -/
def failures (answers : List Answer) : Nat := (answers.reverse.takeWhile (!·.succeeds)).countP (·.isRetriable)

/-- How long to wait after the last of the answers, if at all. -/
def pause (settings : FeedSettings) (answers : List Answer) : Option Nat :=
  match answers.getLast? with
  | some (.ok []) => some settings.emptyDelay
  | some (.error e) =>
    if e.isRetriable then some (min (settings.retryInitial * 2 ^ (failures answers - 1)) settings.retryMax) else none
  | _ => none

/-- A fetch: when it is made, and what the queue answers. -/
structure Poll where
  time : Nat
  answer : Answer
  deriving DecidableEq, Repr

/-- A call for messages, as far as it has come. -/
structure Call where
  feed : Feed
  services : Services
  /-- The answers that it has got. -/
  answers : List Answer
  /-- How long it has waited after each of them. -/
  waits : List Nat
  /-- What it has returned, if anything. -/
  result : Option Answer
  deriving DecidableEq, Repr

/-- Calls for messages, with the fetches that there are to come. The call takes as many of them as it needs. -/
def nextBatch (f : Feed) (s : Services) : List Poll → Call
  | [] => ⟨f, s, [], [], none⟩
  | p :: ps =>
    match f.receive p.time s p.answer with
    | (f, .batch ms, s) => ⟨f, s, [p.answer], [], some (.ok ms)⟩
    | (f, .failed e, s) => ⟨f, s, [p.answer], [], some (.error e)⟩
    | (f, .wait w, s) =>
      let c := (f.wake w).nextBatch s ps
      { c with answers := p.answer :: c.answers, waits := (w.due?.getD p.time - p.time) :: c.waits }

/-- Feeds that are not in a call, and none of whose calls has been given up, with the answers they have got since they were
opened. -/
inductive Lives (settings : FeedSettings) : List Answer → Feed → Prop where
  | opened {s : Services} {topic : String} {p : Int} {f : Feed} (h : openAt settings s topic p = .ok f) : Lives settings [] f
  | called {before : List Answer} {f : Feed} (h : Lives settings before f) (s : Services) (polls : List Poll)
      (hresult : (f.nextBatch s polls).result.isSome = true) :
      Lives settings (before ++ (f.nextBatch s polls).answers) (f.nextBatch s polls).feed
  | advanced {before : List Answer} {f : Feed} (h : Lives settings before f) (offset : Int) : Lives settings before (f.advance offset)

/-! ## What the answers so far tell -/

theorem failures_concat (answers : List Answer) (a : Answer) : failures (answers ++ [a]) =
    if a.succeeds then 0 else failures answers + if a.isRetriable then 1 else 0 := by
  cases h : a.succeeds with
  | true => simp [failures, h]
  | false =>
    rw [failures, List.reverse_append, List.reverse_singleton, List.singleton_append, List.takeWhile_cons_of_pos (by simp [h]),
      List.countP_cons]
    rfl

theorem pause_concat (settings : FeedSettings) (answers : List Answer) (a : Answer) : pause settings (answers ++ [a]) =
    match a with
    | .ok ms => if ms = [] then some settings.emptyDelay else none
    | .error e => if e.isRetriable then some (min (settings.retryInitial * 2 ^ failures answers) settings.retryMax) else none := by
  rw [pause, List.getLast?_concat]
  cases a with
  | ok ms => cases ms <;> rfl
  | error e =>
    rw [failures_concat]
    cases h : e.isRetriable <;> simp [h, Answer.succeeds, Answer.isRetriable]

/-- What a feed keeps after some answers. -/
structure Paced (settings : FeedSettings) (answers : List Answer) (f : Feed) : Prop where
  ofSettings : f.settings = settings
  backoff : f.backoff = min (settings.retryInitial * 2 ^ failures answers) settings.retryMax

/-- What an answer adds to the failed fetches that are counted, and to nothing else. -/
def counted (s : Services) (a : Answer) : Services :=
  match a with
  | .ok _ => s
  | .error e => if e.isClosed then s else s.record (.fetchError e.code)

theorem fetchErrors_counted (s : Services) (a : Answer) :
    (counted s a).metrics.counts.fetchErrors = s.metrics.counts.fetchErrors + if a.isCounted then 1 else 0 := by
  cases a with
  | ok ms => rfl
  | error e =>
    cases h : e.isClosed with
    | true => simp [counted, Answer.isCounted, h]
    | false =>
      simp only [counted, Answer.isCounted, h, Bool.false_eq_true, if_false, Bool.not_false, if_true]
      rfl

/-- What a feed does with an answer: it ends the call with it, or keeps the closed form and waits as long as that says. -/
inductive Reception (settings : FeedSettings) (answers : List Answer) (f : Feed) (now : Nat) (s : Services) (a : Answer) :
    Feed × Fetched × Services → Prop where
  | batch {g : Feed} {ms : List Message} (ha : a = .ok ms) (hfinal : a.isFinal = true)
      (hg : Paced settings (answers ++ [a]) g) (hplace : f.SamePlace g) (hpause : pause settings (answers ++ [a]) = none) :
      Reception settings answers f now s a (g, .batch ms, counted s a)
  | failed {g : Feed} {e : Error} (ha : a = .error e) (hfinal : a.isFinal = true)
      (hg : Paced settings (answers ++ [a]) g) (hplace : f.SamePlace g) (hpause : pause settings (answers ++ [a]) = none) :
      Reception settings answers f now s a (g, .failed e, counted s a)
  | wait {g : Feed} {w : Polling} {d : Nat} (hfinal : a.isFinal = false) (hdue : w.due? = some (now + d))
      (hg : Paced settings (answers ++ [a]) (g.wake w)) (hplace : f.SamePlace g)
      (hpause : pause settings (answers ++ [a]) = some d) : Reception settings answers f now s a (g, .wait w, counted s a)

section

variable {settings : FeedSettings} {before : List Answer} {f : Feed}

/-- After a success the first wait is as long as the settings say. -/
theorem min_retryInitial (hle : settings.retryInitial ≤ settings.retryMax) {answers : List Answer} (h : failures answers = 0) :
    settings.retryInitial = min (settings.retryInitial * 2 ^ failures answers) settings.retryMax := by
  rw [h, Nat.pow_zero, Nat.mul_one, Nat.min_eq_left hle]

/-- A wait that is doubled and cut keeps the closed form. -/
theorem min_doubled (initial most k : Nat) : min (min (initial * 2 ^ k) most * 2) most = min (initial * 2 ^ (k + 1)) most := by
  rw [Nat.pow_succ, ← Nat.mul_assoc]
  omega

/-- Whatever the answer is, a feed does with it what the closed form says. -/
theorem Paced.receive (hle : settings.retryInitial ≤ settings.retryMax) (h : Paced settings before f) (now : Nat) (s : Services)
    (a : Answer) : Reception settings before f now s a (f.receive now s a) := by
  have hpause := pause_concat settings before a
  have hfailures := failures_concat before a
  cases a with
  | ok ms =>
    have hg : Paced settings (before ++ [.ok ms]) { f with backoff := f.settings.retryInitial } :=
      ⟨h.ofSettings, h.ofSettings ▸ min_retryInitial (h.ofSettings ▸ hle) hfailures⟩
    cases ms with
    | nil => exact .wait rfl (h.ofSettings ▸ rfl) hg ⟨rfl, rfl, rfl⟩ hpause
    | cons m ms => exact .batch rfl rfl hg ⟨rfl, rfl, rfl⟩ hpause
  | error e =>
    have hreceive : f.receive now s (.error e) =
        if e.isRetriable then (f, .wait (.retrying (now + f.backoff)), counted s (.error e))
        else (f, .failed e, counted s (.error e)) := rfl
    rw [hreceive]
    cases he : e.isRetriable with
    | false =>
      simp only [he, Answer.succeeds, Answer.isRetriable, Bool.false_eq_true, if_false, Nat.add_zero] at hpause hfailures ⊢
      exact .failed rfl (by simp [Answer.isFinal, he]) ⟨h.ofSettings, hfailures ▸ h.backoff⟩ .rfl hpause
    | true =>
      simp only [he, Answer.succeeds, Answer.isRetriable, Bool.false_eq_true, if_false, if_true] at hpause hfailures ⊢
      refine .wait (by simp [Answer.isFinal, he]) rfl ⟨h.ofSettings, ?_⟩ .rfl (h.backoff ▸ hpause)
      simp only [wake]
      rw [h.ofSettings, h.backoff, hfailures, min_doubled]

/-! ## Calls -/

/-- What there is to say of a call of a feed that has been given some answers before. -/
structure Call.Regular (settings : FeedSettings) (before : List Answer) (f : Feed) (s : Services) (polls : List Poll) (c : Call) :
    Prop where
  /-- The answers are those to the first fetches. -/
  answers : c.answers <+: polls.map (·.answer)
  /-- It waits after each answer as the closed form says, so not at all after the one that it returns. -/
  waits : ∀ i < c.answers.length, c.waits[i]? = pause settings (before ++ c.answers.take (i + 1))
  noMore : c.waits.length ≤ c.answers.length
  /-- It returns the first answer that is final, as soon as it has got it. -/
  result : ∀ a, c.result = some a ↔ c.answers.getLast? = some a ∧ a.isFinal = true
  early : ∀ a ∈ c.answers.dropLast, a.isFinal = false
  underWay : c.result = none → c.answers = polls.map (·.answer)
  position : c.feed.position = f.position
  fetchErrors : c.services.metrics.counts.fetchErrors = s.metrics.counts.fetchErrors + c.answers.countP (·.isCounted)

/-- A call without any answer so far. -/
theorem Call.regular_nil (settings : FeedSettings) (before : List Answer) (f : Feed) (s : Services) :
    Call.Regular settings before f s [] ⟨f, s, [], [], none⟩ where
  answers := List.prefix_refl _
  waits := nofun
  noMore := Nat.le_refl _
  result _ := ⟨fun h => absurd h (by simp), fun h => absurd h.1 (by simp)⟩
  early := nofun
  underWay _ := rfl
  position := rfl
  fetchErrors := rfl

/-- A call that ends with its first answer. -/
theorem Call.regular_final {g : Feed} {s : Services} {p : Poll} {ps : List Poll} (hfinal : p.answer.isFinal = true)
    (hplace : f.SamePlace g) (hpause : pause settings (before ++ [p.answer]) = none) :
    Call.Regular settings before f s (p :: ps) ⟨g, counted s p.answer, [p.answer], [], some p.answer⟩ where
  answers := ⟨ps.map (·.answer), rfl⟩
  waits i hi := by
    obtain rfl : i = 0 := by simpa using hi
    exact hpause.symm
  noMore := Nat.zero_le _
  result a := by
    simp only [List.getLast?_singleton, Option.some.injEq]
    constructor
    · rintro rfl
      exact ⟨rfl, hfinal⟩
    · exact fun h => h.1
  early := nofun
  underWay := nofun
  position := hplace.position
  fetchErrors := by
    rw [fetchErrors_counted, List.countP_singleton]

/-- A call that goes on after its first answer. -/
theorem Call.Regular.cons {g : Feed} {s : Services} {p : Poll} {ps : List Poll} {c : Call} {w : Polling} {d : Nat}
    (h : Call.Regular settings (before ++ [p.answer]) (g.wake w) (counted s p.answer) ps c) (hfinal : p.answer.isFinal = false)
    (hplace : f.SamePlace g) (hdue : w.due? = some (p.time + d)) (hpause : pause settings (before ++ [p.answer]) = some d) :
    Call.Regular settings before f s (p :: ps)
      { c with answers := p.answer :: c.answers, waits := (w.due?.getD p.time - p.time) :: c.waits } where
  answers := List.cons_prefix_cons.2 ⟨rfl, h.answers⟩
  waits i hi := by
    cases i with
    | zero =>
      rw [List.getElem?_cons_zero, hdue, Option.getD_some, Nat.add_sub_cancel_left]
      exact hpause.symm
    | succ i =>
      have := h.waits i (Nat.lt_of_succ_lt_succ hi)
      rw [List.append_assoc, List.singleton_append] at this
      exact this
  noMore := Nat.succ_le_succ h.noMore
  result a := by
    rw [h.result a]
    cases hc : c.answers with
    | nil =>
      simp only [List.getLast?_nil, List.getLast?_singleton, Option.some.injEq, reduceCtorEq, false_and, false_iff]
      rintro ⟨rfl, hf⟩
      exact Bool.false_ne_true (hfinal.symm.trans hf)
    | cons b bs => rw [List.getLast?_cons_cons]
  early a ha := by
    cases hc : c.answers with
    | nil => simp [hc] at ha
    | cons b bs =>
      rw [hc, List.dropLast_cons_of_ne_nil (List.cons_ne_nil b bs), ← hc] at ha
      rcases List.mem_cons.1 ha with rfl | ha
      · exact hfinal
      · exact h.early a ha
  underWay hr := by rw [h.underWay hr, List.map_cons]
  position := h.position.trans (((samePlace_wake g w).position).trans hplace.position)
  fetchErrors := by
    rw [h.fetchErrors, fetchErrors_counted, List.countP_cons]
    omega

/-- Every call is regular, and leaves the feed with what the answers so far tell. -/
theorem Paced.nextBatch (hle : settings.retryInitial ≤ settings.retryMax) (h : Paced settings before f) (s : Services)
    (polls : List Poll) : Call.Regular settings before f s polls (f.nextBatch s polls) ∧
      Paced settings (before ++ (f.nextBatch s polls).answers) (f.nextBatch s polls).feed := by
  induction polls generalizing before f s with
  | nil => exact ⟨Call.regular_nil settings before f s, (List.append_nil before).symm ▸ h⟩
  | cons p ps ih =>
    rw [Feed.nextBatch]
    generalize hreceived : f.receive p.time s p.answer = received
    have hreception := h.receive hle p.time s p.answer
    rw [hreceived] at hreception
    cases hreception with
    | batch ha hfinal hg hplace hpause =>
      dsimp only
      rw [← ha]
      exact ⟨Call.regular_final hfinal hplace hpause, hg⟩
    | failed ha hfinal hg hplace hpause =>
      dsimp only
      rw [← ha]
      exact ⟨Call.regular_final hfinal hplace hpause, hg⟩
    | wait hfinal hdue hg hplace hpause =>
      obtain ⟨hregular, hpaced⟩ := ih hg (counted s p.answer)
      rw [List.append_assoc, List.singleton_append] at hpaced
      exact ⟨hregular.cons hfinal hplace hdue hpause, hpaced⟩

/-- What a feed keeps is told by the answers since it was opened. -/
theorem Lives.paced (hle : settings.retryInitial ≤ settings.retryMax) (h : Lives settings before f) : Paced settings before f := by
  induction h with
  | @opened s topic p f h =>
    obtain ⟨hsettings, -⟩ := openAt_eq_ok h
    have hbackoff : f.backoff = settings.retryInitial := by
      simp only [openAt] at h
      obtain ⟨stored, -, h⟩ := Outcome.bind_eq_ok.1 h
      obtain rfl := Except.ok.inj h
      rfl
    exact ⟨hsettings, hbackoff.trans (min_retryInitial hle rfl)⟩
  | called _ s polls _ ih => exact (ih.nextBatch hle s polls).2
  | advanced _ offset ih => exact ⟨ih.ofSettings, ih.backoff⟩

end

/-- However its calls go, a feed waits after every fetch that may succeed later as the closed form says: the `k`-th time since the last
fetch that succeeded for the first wait doubled `k - 1` times, at most for the longest one; and after an empty fetch for the delay of
its own, which starts the count anew. A call returns messages or an error that no further attempt mends, as soon as it gets them and
without waiting after it; it leaves the feed in its place and counts every failure, except that something has been closed. -/
theorem waits_doubled {settings : FeedSettings} (hle : settings.retryInitial ≤ settings.retryMax) {before : List Answer} {f : Feed}
    (hf : Lives settings before f) (s : Services) (polls : List Poll) :
    Call.Regular settings before f s polls (f.nextBatch s polls) :=
  ((hf.paced hle).nextBatch hle s polls).1

/-- A first call ends with a missing partition after one failure, and the count goes on in the second one: the third failure in a row
reaches the longest wait, an empty fetch starts anew, and then there is a message. -/
theorem waits_doubled_two_calls :
    let settings : FeedSettings := { retryInitial := 100, retryMax := 300, emptyDelay := 7 }
    let before : List Answer := [.error (.timeout "t"), .error (.notFound "p")]
    let polls : List Poll := [⟨900, .error (.queue "q")⟩, ⟨1100, .error (.io .timedOut "i")⟩, ⟨1400, .ok []⟩,
      ⟨1407, .error (.store "s")⟩, ⟨1507, .ok [⟨"binlog", 0, 5, [97]⟩]⟩, ⟨1507, .ok []⟩]
    ∃ f, settings.retryInitial ≤ settings.retryMax ∧ Lives settings before f ∧
      Call.Regular settings before f {} polls (f.nextBatch {} polls) ∧
      (f.nextBatch {} polls).waits = [200, 300, 7, 100] ∧
      (f.nextBatch {} polls).result = some (.ok [⟨"binlog", 0, 5, [97]⟩]) ∧
      (f.nextBatch {} polls).services.metrics.counts.fetchErrors = 3 := by
  intro settings before polls
  let first : List Poll := [⟨0, .error (.timeout "t")⟩, ⟨100, .error (.notFound "p")⟩]
  let opened : Feed := ⟨settings, "binlog", 0, 0, 100⟩
  have hopened : Lives settings [] opened := @Lives.opened settings {} "binlog" 0 opened rfl
  have hf : Lives settings before ((opened.nextBatch {} first).feed.advance 4) := (hopened.called {} first rfl).advanced 4
  exact ⟨_, by decide, hf, waits_doubled (by decide) hf {} polls, by decide, by decide, by decide⟩

/-! ## Readers -/

/-- What a feed does with an answer hangs on nothing else. -/
theorem receive_congr (f : Feed) (now : Nat) (s t : Services) (a : Answer) :
    (f.receive now s a).1 = (f.receive now t a).1 ∧ (f.receive now s a).2.1 = (f.receive now t a).2.1 := by
  cases a with
  | ok ms => cases ms <;> exact ⟨rfl, rfl⟩
  | error e =>
    simp only [receive]
    split <;> exact ⟨rfl, rfl⟩

/-- What a call comes to with one more fetch, if it has not ended before. -/
theorem nextBatch_concat {f : Feed} {s : Services} {polls : List Poll} (h : (f.nextBatch s polls).result = none) (p : Poll)
    (t : Services) :
    let received := (f.nextBatch s polls).feed.receive p.time t p.answer
    match received.2.1 with
    | .batch ms => (f.nextBatch s (polls ++ [p])).result = some (.ok ms) ∧ (f.nextBatch s (polls ++ [p])).feed = received.1
    | .failed e => (f.nextBatch s (polls ++ [p])).result = some (.error e) ∧ (f.nextBatch s (polls ++ [p])).feed = received.1
    | .wait w => (f.nextBatch s (polls ++ [p])).result = none ∧ (f.nextBatch s (polls ++ [p])).feed = received.1.wake w := by
  induction polls generalizing f s with
  | nil =>
    obtain ⟨hfeed, hfetched⟩ := receive_congr f p.time t s p.answer
    simp only [nextBatch, List.nil_append]
    rw [hfeed, hfetched]
    rcases f.receive p.time s p.answer with ⟨g, fetched, u⟩
    cases fetched <;> exact ⟨rfl, rfl⟩
  | cons q polls ih =>
    simp only [nextBatch, List.cons_append] at h ⊢
    rcases hq : f.receive q.time s q.answer with ⟨g, fetched, u⟩
    rw [hq] at h
    cases fetched with
    | batch ms => cases h
    | failed e => cases h
    | wait w => exact ih h

end Feed

/-- A reader that polls, with the fetches it has made since it began. In the meantime others may change the services. -/
inductive Reader.Polls {α : Type} (decode : Services → Message → α × List Update) (c : Channel α) (r : Reader α) :
    List Feed.Poll → Reader α → Prop where
  | start : Polls decode c r [] r
  | fetch {polls : List Feed.Poll} {r₁ r₂ : Reader α} {s t : Services} {now : Nat} {heed : Bool} (h : Polls decode c r polls r₁)
      (hp : r₁.phase = .polling .ready) (hheed : (r₁.signalled && heed) = false)
      (hstep : r₁.step decode heed now c s = some (r₂, c, t)) :
      Polls decode c r
        (polls ++ [⟨now, s.queue.fetch r₁.feed.topic r₁.feed.partition r₁.feed.position r₁.feed.settings.maxMessages⟩]) r₂
  | wake {polls : List Feed.Poll} {r₁ r₂ : Reader α} {s t : Services} {now due : Nat} {heed : Bool} {p : Polling}
      (h : Polls decode c r polls r₁) (hp : r₁.phase = .polling p) (hdue : p.due? = some due)
      (hheed : (r₁.signalled && heed) = false) (hstep : r₁.step decode heed now c s = some (r₂, c, t)) : Polls decode c r polls r₂

/-- A reader that polls is in a call of its feed, and has what the call returns as soon as it does. -/
theorem Reader.Polls.call {α : Type} {decode : Services → Message → α × List Update} {c : Channel α} {r r' : Reader α}
    {polls : List Feed.Poll} (h : r.Polls decode c polls r') (hr : r.phase = .polling .ready) (s : Services) :
    match r'.phase with
    | .polling p => (r.feed.nextBatch s polls).result = none ∧ (r.feed.nextBatch s polls).feed = r'.feed.wake p
    | .decoding ms => (r.feed.nextBatch s polls).result = some (.ok ms) ∧ (r.feed.nextBatch s polls).feed = r'.feed
    | .stopped => (∃ e, (r.feed.nextBatch s polls).result = some (.error e)) ∧ (r.feed.nextBatch s polls).feed = r'.feed
    | .sending .. => False := by
  induction h with
  | start =>
    rw [hr]
    exact ⟨rfl, rfl⟩
  | @fetch polls r₁ r₂ s₁ t now heed h hp hheed hstep ih =>
    rw [hp] at ih
    obtain ⟨hresult, hfeed⟩ := ih
    generalize hanswer : s₁.queue.fetch r₁.feed.topic r₁.feed.partition r₁.feed.position r₁.feed.settings.maxMessages = a
    have hconcat := Feed.nextBatch_concat hresult ⟨now, a⟩ s₁
    rw [hfeed] at hconcat
    have hfetch : r₁.feed.fetch now s₁ = r₁.feed.receive now s₁ a := by rw [Feed.fetch, hanswer]
    simp only [step, hp, hheed, Bool.false_eq_true, if_false, Polling.due?, hfetch, Option.some.injEq, Prod.mk.injEq] at hstep
    obtain ⟨rfl, -, -⟩ := hstep
    simp only [Feed.wake] at hconcat
    revert hconcat
    cases (r₁.feed.receive now s₁ a).2.1 with
    | batch ms => exact id
    | failed e => exact fun h => ⟨⟨e, h.1⟩, h.2⟩
    | wait w => exact id
  | @wake polls r₁ r₂ s₁ t now due heed p h hp hdue hheed hstep ih =>
    rw [hp] at ih
    simp only [step, hp, hheed, Bool.false_eq_true, if_false, hdue] at hstep
    split at hstep
    · simp only [Option.some.injEq, Prod.mk.injEq] at hstep
      obtain ⟨rfl, -, -⟩ := hstep
      exact ih
    · exact absurd hstep (by simp)

end AuditTrail
