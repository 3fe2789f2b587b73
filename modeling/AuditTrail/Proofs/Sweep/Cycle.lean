import AuditTrail.Proofs.Sweeper
import Mathlib.Logic.Relation

/-!
# What a sweep has done when it is through

While a sweep is at work the clock goes on and records are taken out of the delivery channel. As long as nobody else writes to the
store, a sweep that ends without an error has resolved the foremost of the unprocessed transactions in its window that have rows,
the newest first and no more than its limit (`resolves_of_finished`): their records have been sent in this order, and they
are processed. It can get so far as long as the store answers and records are taken out of the channel (`getsThrough`).
-/

namespace AuditTrail

/-- The instant since when a sweep looks at transactions. -/
def Services.windowStart (s : Services) (settings : SweeperSettings) : Instant :=
  s.clock.addSeconds (-(settings.lookback : Int))

namespace Store

/-- Whether a transaction has rows. -/
def matched (s : Store) (t : Transaction) : Bool := !(s.rowsWith t.gtid).isEmpty

/-- The record of a transaction with the rows that it has. -/
def joined (s : Store) (t : Transaction) : AuditRecord := .ofTransaction t (s.rowsWith t.gtid)

/-- The transactions that a sweep finds and that have rows, the newest first. -/
def resolvable (s : Store) (since : Instant) (limit : Nat) : List Transaction :=
  ((s.openSince since).take limit).filter s.matched

/-- From one state of the store to another, the transactions that a sweep finds have been resolved, and nothing else has. -/
structure Resolves (s t : Store) (since : Instant) (limit : Nat) : Prop where
  rows : t.rows = s.rows
  transactions : t.transactions =
    ((s.resolvable since limit).map (·.toProcessed)).foldl (fun acc u => put u acc) s.transactions

end Store

namespace Sweep

/-- A sweep at work, with the delivery channel, the services and the records that have been sent so far. -/
structure Scene where
  sweep : Sweep
  channel : Channel AuditRecord
  services : Services
  sent : List AuditRecord := []

/-- What a step of a sweep makes of a scene. -/
def Scene.after (x : Scene) (w : Sweep) (d : Channel AuditRecord) (s : Services) : Scene :=
  ⟨w, d, s, x.sent ++ x.channel.entered d⟩

/-- A step that puts nothing into the channel sends nothing. -/
@[simp] theorem Scene.sent_after_self (x : Scene) (w : Sweep) (s : Services) : (x.after w x.channel s).sent = x.sent := by
  simp [Scene.after]

/-- One move of a scene. Whatever others do, they do not write to the store, and leave the window where `ok` allows. -/
inductive Move (ok : Instant → Prop) (x : Scene) : Scene → Prop where
  /-- The sweep takes a step. -/
  | step {w : Sweep} {d : Channel AuditRecord} {s : Services}
      (h : x.sweep.step .sweeper x.channel x.services = some (w, d, s)) : Move ok x (x.after w d s)
  /-- Others do something. -/
  | others {d : Channel AuditRecord} {s : Services} (hr : s.store.rows = x.services.store.rows)
      (ht : s.store.transactions = x.services.store.transactions) (hok : ok (s.windowStart x.sweep.settings)) :
      Move ok x { x with channel := d, services := s }

/-- Any number of moves of a scene. -/
def Run (ok : Instant → Prop) : Scene → Scene → Prop := Relation.ReflTransGen (Move ok)

/-- How far a sweep has come with the transactions of a store, and what has been sent and written by then. -/
inductive Reached (ok : Instant → Prop) (s : Store) (before : List AuditRecord) (x : Scene) : Prop where
  /-- It has not begun. -/
  | starting (hp : x.sweep.phase = .starting) (ht : x.services.store.transactions = s.transactions)
      (hs : x.sent = before)
  /-- It has fixed its window. -/
  | listing {since : Instant} {abandoned : Option Nat} (hp : x.sweep.phase = .listing since abandoned) (hok : ok since)
      (ht : x.services.store.transactions = s.transactions) (hs : x.sent = before)
  /-- It has its candidates. -/
  | fetching {since : Instant} {abandoned : Option Nat}
      (hp : x.sweep.phase = .fetching ((s.openSince since).take x.sweep.settings.batchLimit) abandoned) (hok : ok since)
      (ht : x.services.store.transactions = s.transactions) (hs : x.sent = before)
  /-- It has gone through the first of its candidates, and sent a record for those that have rows. -/
  | sending {since : Instant} {r : SweepReport} {rows : List (String × List StoredChange)} {taken rest : List Transaction}
      (hp : x.sweep.phase = .sending r rows rest (taken.filter s.matched)) (hok : ok since)
      (hsplit : (s.openSince since).take x.sweep.settings.batchLimit = taken ++ rest)
      (hrows : ∀ t ∈ rest, rows.lookup t.gtid = if s.rowsWith t.gtid = [] then none else some (s.rowsWith t.gtid))
      (ht : x.services.store.transactions = s.transactions)
      (hs : x.sent = before ++ (taken.filter s.matched).map s.joined)
  /-- It is through, and what it has found is resolved. -/
  | finished {since : Instant} {r : SweepReport} (hp : x.sweep.phase = .finished (.ok r)) (hok : ok since)
      (ht : s.Resolves x.services.store since x.sweep.settings.batchLimit)
      (hs : x.sent = before ++ (s.resolvable since x.sweep.settings.batchLimit).map s.joined)
  /-- It has failed. -/
  | failed {e : Error} (hp : x.sweep.phase = .finished (.error e))

/-- A sweep in the course of its work, in the window that is allowed. -/
structure Going (ok : Instant → Prop) (settings : SweeperSettings) (s : Store) (before : List AuditRecord) (x : Scene) :
    Prop where
  unchanged : x.sweep.settings = settings
  window : ok (x.services.windowStart settings)
  rows : x.services.store.rows = s.rows
  reached : Reached ok s before x

namespace CycleAux

variable {ok : Instant → Prop} {settings : SweeperSettings} {s : Store} {before : List AuditRecord} {x y : Scene}

/-- A store with the same rows joins the same. -/
theorem rowsWith_of_eq {s t : Store} (h : t.rows = s.rows) : t.rowsWith = s.rowsWith := by
  funext g
  rw [Store.rowsWith, Store.rowsWith, h]

/-- A store with the same transactions has the same of them unprocessed. -/
theorem openSince_of_eq {s t : Store} (h : t.transactions = s.transactions) (since : Instant) :
    t.openSince since = s.openSince since := by
  rw [Store.openSince, Store.openSince, h]

/-- A sweep keeps its settings. -/
theorem settings_of_turn {w w' : Sweep} {sender : Sender} {d d' : Channel AuditRecord} {t u : Services}
    (h : Turn sender w d t w' d' u) : w'.settings = w.settings := by
  cases h <;> rfl

/-- What others do does not set a sweep back. -/
theorem reached_others {d : Channel AuditRecord} {t : Services} (h : Reached ok s before x)
    (hr : t.store.rows = x.services.store.rows) (ht : t.store.transactions = x.services.store.transactions) :
    Reached ok s before { x with channel := d, services := t } := by
  cases h with
  | starting hp htx hs => exact .starting hp (ht.trans htx) hs
  | listing hp hok htx hs => exact .listing hp hok (ht.trans htx) hs
  | fetching hp hok htx hs => exact .fetching hp hok (ht.trans htx) hs
  | sending hp hok hsplit hrows htx hs => exact .sending hp hok hsplit hrows (ht.trans htx) hs
  | finished hp hok htx hs => exact .finished hp hok ⟨hr.trans htx.rows, ht.trans htx.transactions⟩ hs
  | failed hp => exact .failed hp

/-- A sweep that finds nothing to resolve has resolved all that there is. -/
theorem resolves_nil {t : Store} {since : Instant} {limit : Nat} (h : s.resolvable since limit = [])
    (hr : t.rows = s.rows) (ht : t.transactions = s.transactions) : s.Resolves t since limit :=
  ⟨hr, by rw [h, ht]; rfl⟩

/-- The first step of a sweep fixes its window, or fails. -/
theorem reached_begin (hx : ok (x.services.windowStart x.sweep.settings))
    (ht : x.services.store.transactions = s.transactions) (hs : x.sent = before) :
    Reached ok s before (x.after (x.sweep.begin x.services).1 x.channel (x.sweep.begin x.services).2) := by
  unfold begin
  split
  · exact .failed rfl
  · refine .listing rfl hx ?_ (by rw [Scene.sent_after_self, hs])
    simp only [Scene.after, (TurnAux.counted_countAbandoned _ x.services).store, ht]

/-- The second step of a sweep loads its candidates, or fails, or finds that there are none. -/
theorem reached_list {since : Instant} (abandoned : Option Nat) (hr : x.services.store.rows = s.rows) (hok : ok since)
    (ht : x.services.store.transactions = s.transactions) (hs : x.sent = before) :
    Reached ok s before
      (x.after (x.sweep.list since abandoned x.services).1 x.channel (x.sweep.list since abandoned x.services).2) := by
  have hfound : ∀ candidates, x.services.store.unprocessed since x.sweep.settings.batchLimit = .ok candidates →
      (s.openSince since).take x.sweep.settings.batchLimit = candidates := by
    intro candidates hc
    rw [← openSince_of_eq ht]
    exact Except.ok.inj (Store.checkQueries_bind hc).2
  unfold list
  split
  · exact .failed rfl
  · rename_i hc
    have hnone : s.resolvable since x.sweep.settings.batchLimit = [] := by
      rw [Store.resolvable, hfound _ hc, List.filter_nil]
    have hsent : before = before ++ (s.resolvable since x.sweep.settings.batchLimit).map s.joined := by
      rw [hnone, List.map_nil, List.append_nil]
    exact .finished rfl hok (resolves_nil hnone hr ht) ((x.sent_after_self _ _).trans (hs.trans hsent))
  · rename_i candidates _ hc
    have hphase : Phase.fetching candidates abandoned =
        .fetching ((s.openSince since).take x.sweep.settings.batchLimit) abandoned := by rw [hfound _ hc]
    exact .fetching hphase hok ht ((x.sent_after_self _ _).trans hs)

/-- The third step of a sweep reads the rows of its candidates, or fails. -/
theorem reached_fetch {since : Instant} (abandoned : Option Nat) (hr : x.services.store.rows = s.rows) (hok : ok since)
    (ht : x.services.store.transactions = s.transactions) (hs : x.sent = before) :
    Reached ok s before (x.after
      (x.sweep.fetch ((s.openSince since).take x.sweep.settings.batchLimit) abandoned x.services) x.channel x.services) := by
  unfold fetch
  split
  · exact .failed rfl
  · rename_i rows hrows
    have hnone : (s.openSince since).take x.sweep.settings.batchLimit =
        [] ++ (s.openSince since).take x.sweep.settings.batchLimit := rfl
    refine .sending rfl hok hnone ?_ ht (by simpa using hs)
    intro t ht
    rw [← rowsWith_of_eq hr]
    exact Store.lookup_rowsOfAll hrows (List.mem_map_of_mem ht)

/-- The last step of a sweep writes the transactions that have been sent, or fails. -/
theorem reached_settle {since : Instant} (r : SweepReport) (hr : x.services.store.rows = s.rows) (hok : ok since)
    (ht : x.services.store.transactions = s.transactions)
    (hs : x.sent = before ++ (s.resolvable since x.sweep.settings.batchLimit).map s.joined) :
    Reached ok s before (x.after
      (x.sweep.settle r (s.resolvable since x.sweep.settings.batchLimit) x.services).1 x.channel
      (x.sweep.settle r (s.resolvable since x.sweep.settings.batchLimit) x.services).2) := by
  unfold settle
  split
  · rename_i hnone
    exact .finished rfl hok (resolves_nil (List.isEmpty_iff.1 hnone) hr ht) ((x.sent_after_self _ _).trans hs)
  · split
    · exact .failed rfl
    · rename_i stored hu
      obtain ⟨-, rfl⟩ := Store.upsert_eq_ok hu
      refine .finished rfl hok ⟨hr, ?_⟩ ((x.sent_after_self _ _).trans hs)
      simp only [Scene.after, finish, Services.record_store, ht]

/-- A step in which the sweep passes over a candidate or sends its record brings it past the candidate. -/
theorem reached_next {since : Instant} {r : SweepReport} {rows : List (String × List StoredChange)} {t : Transaction}
    {taken rest done : List Transaction} {d : Channel AuditRecord} (hok : ok since)
    (hsplit : (s.openSince since).take x.sweep.settings.batchLimit = taken ++ t :: rest)
    (hrows : ∀ u ∈ t :: rest, rows.lookup u.gtid = if s.rowsWith u.gtid = [] then none else some (s.rowsWith u.gtid))
    (ht : x.services.store.transactions = s.transactions)
    (hs : x.sent = before ++ (taken.filter s.matched).map s.joined)
    (hdone : done = (taken ++ [t]).filter s.matched) (hd : x.channel.entered d = ([t].filter s.matched).map s.joined) :
    Reached ok s before (x.after { x.sweep with phase := .sending r rows rest done } d x.services) := by
  have hnext : (s.openSince since).take x.sweep.settings.batchLimit = (taken ++ [t]) ++ rest :=
    hsplit.trans (by simp)
  refine .sending (by rw [← hdone]; rfl) hok hnext ?_ ht ?_
  · intro u hu
    exact hrows u (List.mem_cons_of_mem _ hu)
  · simp only [Scene.after, hs, hd, List.filter_append, List.map_append, List.append_assoc]

/-- A step of a sweep while it sends brings it on, or it fails. -/
theorem reached_send {since : Instant} {r : SweepReport} {rows : List (String × List StoredChange)} {t : Transaction}
    {taken rest : List Transaction} {w : Sweep} {d : Channel AuditRecord} {u : Services}
    (h : x.sweep.step .sweeper x.channel x.services = some (w, d, u))
    (hp : x.sweep.phase = .sending r rows (t :: rest) (taken.filter s.matched)) (hok : ok since)
    (hsplit : (s.openSince since).take x.sweep.settings.batchLimit = taken ++ t :: rest)
    (hrows : ∀ u ∈ t :: rest, rows.lookup u.gtid = if s.rowsWith u.gtid = [] then none else some (s.rowsWith u.gtid))
    (ht : x.services.store.transactions = s.transactions)
    (hs : x.sent = before ++ (taken.filter s.matched).map s.joined) : Reached ok s before (x.after w d u) := by
  have hlook := hrows t List.mem_cons_self
  simp only [step, hp] at h
  split at h
  · rename_i hl
    obtain ⟨rfl, rfl, rfl⟩ := by simpa only [Option.some.injEq, Prod.mk.injEq] using h
    have hnone : [t].filter s.matched = [] := by
      rw [hl] at hlook
      split at hlook
      · rename_i hrows
        simp [Store.matched, hrows]
      · exact absurd hlook (by simp)
    refine reached_next hok hsplit hrows ht hs ?_ ?_
    · rw [List.filter_append, hnone, List.append_nil]
    · rw [hnone, Channel.entered_self, List.map_nil]
  · rename_i changes hl
    have hsome : s.rowsWith t.gtid ≠ [] ∧ changes = s.rowsWith t.gtid := by
      rw [hl] at hlook
      split at hlook
      · exact absurd hlook (by simp)
      · rename_i hne
        exact ⟨hne, Option.some.inj hlook⟩
    obtain ⟨hne, rfl⟩ := hsome
    have hself : [t].filter s.matched = [t] := by simp [Store.matched, hne]
    split at h
    · obtain ⟨rfl, rfl, rfl⟩ := by simpa only [Option.some.injEq, Prod.mk.injEq] using h
      exact .failed rfl
    · rename_i c hd
      obtain ⟨-, rfl⟩ := Channel.attempt_joined hd
      obtain ⟨rfl, rfl, rfl⟩ := by simpa only [Option.some.injEq, Prod.mk.injEq] using h
      exact .sending hp hok hsplit hrows ht (by simpa [Scene.after] using hs)
    · rename_i c hd
      obtain ⟨-, rfl⟩ := Channel.attempt_sent hd
      obtain ⟨rfl, rfl, rfl⟩ := by simpa only [Option.some.injEq, Prod.mk.injEq] using h
      refine reached_next hok hsplit hrows ht hs ?_ ?_
      · rw [List.filter_append, hself]
      · rw [hself, Channel.entered_push]
        rfl
    · exact absurd h (by simp)

/-- Every step of a sweep brings it on, or it fails. -/
theorem reached_step {w : Sweep} {d : Channel AuditRecord} {t : Services} (hx : ok (x.services.windowStart x.sweep.settings))
    (hr : x.services.store.rows = s.rows) (h : Reached ok s before x)
    (hstep : x.sweep.step .sweeper x.channel x.services = some (w, d, t)) : Reached ok s before (x.after w d t) := by
  cases h with
  | starting hp ht hs =>
    obtain ⟨rfl, rfl, rfl⟩ := by simpa only [step, hp, Option.some.injEq, Prod.mk.injEq] using hstep
    exact reached_begin hx ht hs
  | listing hp hok ht hs =>
    obtain ⟨rfl, rfl, rfl⟩ := by simpa only [step, hp, Option.some.injEq, Prod.mk.injEq] using hstep
    exact reached_list _ hr hok ht hs
  | fetching hp hok ht hs =>
    obtain ⟨rfl, rfl, rfl⟩ := by simpa only [step, hp, Option.some.injEq, Prod.mk.injEq] using hstep
    exact reached_fetch _ hr hok ht hs
  | @sending since r rows taken rest hp hok hsplit hrows ht hs =>
    cases rest with
    | nil =>
      have hall : s.resolvable since x.sweep.settings.batchLimit = taken.filter s.matched := by
        rw [Store.resolvable, hsplit, List.append_nil]
      rw [← hall] at hp hs
      obtain ⟨rfl, rfl, rfl⟩ := by simpa only [step, hp, Option.some.injEq, Prod.mk.injEq] using hstep
      exact reached_settle r hr hok ht hs
    | cons u rest => exact reached_send hstep hp hok hsplit hrows ht hs
  | finished hp hok ht hs => exact absurd hstep (by simp [step, hp])
  | failed hp => exact absurd hstep (by simp [step, hp])

end CycleAux

open CycleAux

variable {ok : Instant → Prop} {settings : SweeperSettings} {s : Store} {before : List AuditRecord} {x y : Scene}

/-- Every move keeps a sweep going. -/
theorem Going.move (h : Going ok settings s before x) (hm : Move ok x y) : Going ok settings s before y := by
  have hx : ok (x.services.windowStart x.sweep.settings) := h.unchanged.symm ▸ h.window
  cases hm with
  | step hstep =>
    have hturn := turn_of_step hstep
    obtain ⟨ts, n, m, hupd⟩ := hturn.updated
    refine ⟨(settings_of_turn hturn).trans h.unchanged, ?_, hturn.updated.rows.trans h.rows, reached_step hx h.rows h.reached hstep⟩
    simp only [Scene.after, hupd]
    exact h.window
  | others hr ht hok =>
    exact ⟨h.unchanged, h.unchanged ▸ hok, hr.trans h.rows, reached_others h.reached hr ht⟩

/-- A sweep that begins in a window that is allowed is going as long as nobody else writes to the store. -/
theorem going_run (hw : ok (x.services.windowStart settings)) (hr : Run ok { x with sweep := { settings } } y) :
    Going ok settings x.services.store x.sent y := by
  induction hr with
  | refl => exact ⟨rfl, hw, rfl, .starting rfl rfl rfl⟩
  | tail hr hm ih => exact ih.move hm

/-- A sweep that begins in a window that is allowed, and ends without an error, has resolved what it has found in such a window, as
long as nobody else writes to the store. -/
theorem resolves_of_finished {r : SweepReport} (hw : ok (x.services.windowStart settings))
    (hr : Run ok { x with sweep := { settings } } y) (hf : y.sweep.phase = .finished (.ok r)) :
    ∃ since, ok since ∧ x.services.store.Resolves y.services.store since settings.batchLimit ∧
      y.sent = x.sent ++ (x.services.store.resolvable since settings.batchLimit).map x.services.store.joined := by
  have hgoing := going_run hw hr
  cases hgoing.reached with
  | finished hp hok ht hs => exact ⟨_, hok, hgoing.unchanged ▸ ht, hgoing.unchanged ▸ hs⟩
  | starting hp ht hs => exact absurd (hp.symm.trans hf) (by simp)
  | listing hp hok ht hs => exact absurd (hp.symm.trans hf) (by simp)
  | fetching hp hok ht hs => exact absurd (hp.symm.trans hf) (by simp)
  | sending hp hok hsplit hrows ht hs => exact absurd (hp.symm.trans hf) (by simp)
  | failed hp => exact absurd (hp.symm.trans hf) (by simp)

/-! ## That a sweep gets through -/

/-- Nothing keeps a sweep from getting through: the store answers, the lookback can be reckoned with, and there is a receiver who
can make room in the channel. -/
structure Unhindered (ok : Instant → Prop) (settings : SweeperSettings) (x : Scene) : Prop where
  lookback : settings.lookback ≤ greatestLookback
  queries : x.services.store.failQueries = false
  upserts : x.services.store.failUpserts = false
  received : x.channel.received = true
  capacity : 0 < x.channel.capacity
  window : ok (x.services.windowStart settings)

/-- A sweep can get through from a scene, and after it the next one can. -/
def GetsThrough (ok : Instant → Prop) (settings : SweeperSettings) (x : Scene) : Prop :=
  ∃ y r, Run ok x y ∧ y.sweep.phase = .finished (.ok r) ∧ Unhindered ok settings y

namespace CycleAux

/-- A step of the sweep puts nothing in its way. -/
theorem unhindered_step {w : Sweep} {d : Channel AuditRecord} {t : Services} (h : Unhindered ok settings x)
    (hstep : x.sweep.step .sweeper x.channel x.services = some (w, d, t)) : Unhindered ok settings (x.after w d t) := by
  have hturn := turn_of_step hstep
  have hfaults := hturn.updated.sameFaults
  obtain ⟨ts, n, m, hupd⟩ := hturn.updated
  have hchannel : d.received = x.channel.received ∧ d.capacity = x.channel.capacity := by
    cases hturn <;> exact ⟨rfl, rfl⟩
  refine ⟨h.lookback, hfaults.queries.trans h.queries, hfaults.upserts.trans h.upserts, hchannel.1.trans h.received,
    Nat.lt_of_lt_of_eq h.capacity hchannel.2.symm, ?_⟩
  simp only [Scene.after, hupd]
  exact h.window

/-- A sweep gets through if it does so after a step. -/
theorem getsThrough_step {w : Sweep} {d : Channel AuditRecord} {t : Services} (hx : Unhindered ok settings x)
    (hstep : x.sweep.step .sweeper x.channel x.services = some (w, d, t))
    (h : Unhindered ok settings (x.after w d t) → GetsThrough ok settings (x.after w d t)) : GetsThrough ok settings x := by
  obtain ⟨y, r, hr, hp, hy⟩ := h (unhindered_step hx hstep)
  exact ⟨y, r, .head (.step hstep) hr, hp, hy⟩

/-- The write at the end of a sweep does not fail unless upserts do. -/
theorem exists_settled (w : Sweep) (r : SweepReport) (done : List Transaction) {t : Services}
    (hu : t.store.failUpserts = false) : ∃ r', (w.settle r done t).1.phase = .finished (.ok r') := by
  unfold settle
  split
  · exact ⟨_, rfl⟩
  · split
    · rename_i hup
      exact absurd hup (by simp [Store.upsert, hu])
    · exact ⟨_, rfl⟩

/-- The delivery channel with nothing in it and nobody but the sweeper at it. -/
def alone (c : Channel AuditRecord) : Channel AuditRecord := { c with items := [], waiting := [.sweeper] }

/-- With the channel to itself, the sweeper can send. -/
theorem attempt_alone {c : Channel AuditRecord} (hr : c.received = true) (hc : 0 < c.capacity) (r : AuditRecord) :
    (alone c).attempt .sweeper r = .sent ((alone c).push .sweeper r) :=
  Channel.attempt_cleared hr hc .sweeper r

/-- A sweep that sends gets through: whatever waits in the channel is taken out of it. -/
theorem getsThrough_sending {r : SweepReport} {rows : List (String × List StoredChange)} {rest done : List Transaction}
    (hx : Unhindered ok settings x) (hset : x.sweep.settings = settings) (hp : x.sweep.phase = .sending r rows rest done) :
    GetsThrough ok settings x := by
  induction rest generalizing x done with
  | nil =>
    obtain ⟨r', hr'⟩ := exists_settled x.sweep r done hx.upserts
    have hstep : x.sweep.step .sweeper x.channel x.services =
        some ((x.sweep.settle r done x.services).1, x.channel, (x.sweep.settle r done x.services).2) := by
      simp only [step, hp]
    exact getsThrough_step hx hstep fun hy => ⟨_, r', .refl, hr', hy⟩
  | cons t rest ih =>
    cases hl : rows.lookup t.gtid with
    | none =>
      have hstep : x.sweep.step .sweeper x.channel x.services =
          some ({ x.sweep with phase := .sending r rows rest done }, x.channel, x.services) := by
        simp only [step, hp, hl]
      exact getsThrough_step hx hstep fun hy => ih hy hset rfl
    | some changes =>
      -- the receiver empties the channel, and nobody but the sweep waits
      have hclear : Move ok x { x with channel := alone x.channel } := .others rfl rfl (hset.symm ▸ hx.window)
      have hx' : Unhindered ok settings { x with channel := alone x.channel } :=
        ⟨hx.lookback, hx.queries, hx.upserts, hx.received, hx.capacity, hx.window⟩
      have hstep : x.sweep.step .sweeper (alone x.channel) x.services =
          some ({ x.sweep with phase := .sending r rows rest (done ++ [t]) },
            (alone x.channel).push .sweeper (.ofTransaction t changes), x.services) := by
        simp only [step, hp, hl, attempt_alone hx.received hx.capacity]
      obtain ⟨y, r', hr, hp', hy⟩ := getsThrough_step hx' hstep fun hy => ih hy hset rfl
      exact ⟨y, r', .head hclear hr, hp', hy⟩

/-- A sweep that has its candidates gets through. -/
theorem getsThrough_fetching {candidates : List Transaction} {abandoned : Option Nat} (hx : Unhindered ok settings x)
    (hset : x.sweep.settings = settings) (hp : x.sweep.phase = .fetching candidates abandoned) :
    GetsThrough ok settings x := by
  obtain ⟨rows, hrows⟩ : ∃ rows, x.services.store.rowsOfAll (candidates.map (·.gtid)) = .ok rows :=
    ⟨_, Store.rowsOfAll_of_ok hx.queries _⟩
  have hstep : x.sweep.step .sweeper x.channel x.services =
      some ({ x.sweep with phase := .sending ⟨candidates.length, 0, abandoned⟩ rows candidates [] }, x.channel,
        x.services) := by
    simp only [step, hp, fetch, hrows]
  exact getsThrough_step hx hstep fun hy => getsThrough_sending hy hset rfl

/-- A sweep that has fixed its window gets through. -/
theorem getsThrough_listing {since : Instant} {abandoned : Option Nat} (hx : Unhindered ok settings x)
    (hset : x.sweep.settings = settings) (hp : x.sweep.phase = .listing since abandoned) : GetsThrough ok settings x := by
  obtain ⟨candidates, hc⟩ : ∃ ts, x.services.store.unprocessed since x.sweep.settings.batchLimit = .ok ts :=
    ⟨_, Store.unprocessed_of_ok hx.queries _ _⟩
  cases candidates with
  | nil =>
    have hstep : x.sweep.step .sweeper x.channel x.services = some ((x.sweep.finish ⟨0, 0, abandoned⟩ x.services).1,
        x.channel, (x.sweep.finish ⟨0, 0, abandoned⟩ x.services).2) := by
      simp only [step, hp, list, hc]
    exact getsThrough_step hx hstep fun hy => ⟨_, _, .refl, rfl, hy⟩
  | cons t ts =>
    have hstep : x.sweep.step .sweeper x.channel x.services =
        some ({ x.sweep with phase := .fetching (t :: ts) abandoned }, x.channel, x.services) := by
      simp only [step, hp, list, hc]
    exact getsThrough_step hx hstep fun hy => getsThrough_fetching hy hset rfl

end CycleAux

/-- A sweep with nothing in its way gets through, and after it nothing is in the way of the next one. -/
theorem getsThrough (hx : Unhindered ok settings x) : GetsThrough ok settings { x with sweep := { settings } } := by
  have hle : ¬greatestLookback < settings.lookback := Nat.not_lt.2 hx.lookback
  have hx' : Unhindered ok settings { x with sweep := { settings } } :=
    ⟨hx.lookback, hx.queries, hx.upserts, hx.received, hx.capacity, hx.window⟩
  obtain ⟨⟨abandoned, t⟩, hcount⟩ : ∃ counted, countAbandoned (x.services.windowStart settings) x.services = counted :=
    ⟨_, rfl⟩
  have hstep : ({ settings } : Sweep).step .sweeper x.channel x.services =
      some ({ settings, phase := .listing (x.services.windowStart settings) abandoned }, x.channel, t) := by
    simp only [step, begin, if_neg hle]
    rw [← Services.windowStart, hcount]
  exact getsThrough_step hx' hstep fun hy => getsThrough_listing hy rfl rfl

end Sweep

end AuditTrail
