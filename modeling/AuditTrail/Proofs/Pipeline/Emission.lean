import AuditTrail.Proofs.Pipeline.Handover
import Mathlib.Data.List.Nodup

/-!
# How many records a transaction gets

Correlator and sweeper do the same with a transaction: they find it unprocessed, send a record and write it as processed. Between
the first and the last of these steps they have it in hand, and neither looks at what the other has. `Tally` counts for one
transaction the records that have been sent and those that each of the two may yet send or has sent and not yet written, and every
move of a scene is one `Share.Deal` of one of the two.

As long as the two never have a transaction in hand at the same time, one record is sent for it at most, and in no case more than
two (`Tally.Sound`).
-/

namespace AuditTrail

/-- What a task has of the records of one transaction: those that it may yet send, and those that it has sent and whose transaction
it has yet to write as processed. -/
structure Share where
  owed : Nat
  sent : Nat
  deriving DecidableEq, Repr

namespace Share

/-- Whether a task has the transaction in hand. -/
def Held (s : Share) : Prop := 0 < s.owed + s.sent

/-- What a step of a task does to its share, with the number of records that it sends and whether the transaction was processed
before and is so after. -/
inductive Deal (s s' : Share) (n : Nat) (was is : Bool) : Prop where
  /-- It takes a transaction in hand that is unprocessed. -/
  | take (hs : s = ⟨0, 0⟩) (hs' : s' = ⟨1, 0⟩) (hn : n = 0) (hw : was = false) (hi : is = was)
  /-- It sends nothing, and may leave the transaction to others as long as it has sent nothing. -/
  | leave (ho : s'.owed ≤ s.owed) (hs : s'.sent = s.sent) (hn : n = 0) (hi : is = was)
  /-- It sends the record. -/
  | send (hs : s = ⟨1, 0⟩) (hs' : s' = ⟨0, 1⟩) (hn : n = 1) (hi : is = was)
  /-- It writes the transaction as processed. -/
  | settle (hs : s = ⟨0, 1⟩) (hs' : s' = ⟨0, 0⟩) (hn : n = 0) (hi : is = true)

end Share

/-- How it stands with the records of one transaction. -/
structure Tally where
  /-- The number of records that have been sent. -/
  records : Nat
  /-- The share of the task whose step is looked at. -/
  mine : Share
  /-- The share of the other task. -/
  other : Share
  processed : Bool

namespace Tally

/-- The tally seen from the other task. -/
def swap (t : Tally) : Tally := ⟨t.records, t.other, t.mine, t.processed⟩

/-- Of an unprocessed transaction the records sent are those that the tasks have not yet written. There are never more than two,
with those to come. Once it is processed, nobody has it in hand and there is one at most, unless `P` has come about. -/
structure Sound (P : Prop) (t : Tally) : Prop where
  mine : t.mine.owed + t.mine.sent ≤ 1
  other : t.other.owed + t.other.sent ≤ 1
  unprocessed : t.processed = false → t.records = t.mine.sent + t.other.sent
  bounded : t.records + t.mine.owed + t.other.owed ≤ 2
  processed : t.processed = true → P ∨ t.records ≤ 1 ∧ ¬t.mine.Held ∧ ¬t.other.Held

variable {P : Prop} {t : Tally}

theorem Sound.swap (h : t.Sound P) : t.swap.Sound P := by
  refine ⟨h.other, h.mine, ?_, ?_, ?_⟩
  · intro hp
    have := h.unprocessed hp
    simp only [Tally.swap]
    omega
  · have := h.bounded
    simp only [Tally.swap]
    omega
  · intro hp
    exact (h.processed hp).imp_right fun ⟨hr, hm, ho⟩ => ⟨hr, ho, hm⟩

theorem Sound.mono {P' : Prop} (h : t.Sound P) (hP : P → P') : t.Sound P' :=
  ⟨h.mine, h.other, h.unprocessed, h.bounded, fun hp => (h.processed hp).imp_left hP⟩

/-- Whatever a task does keeps the tally sound, where `P` comes about whenever both have the transaction in hand. -/
theorem Sound.deal {s : Share} {n : Nat} {is : Bool} (h : t.Sound P) (hd : t.mine.Deal s n t.processed is)
    (hP : t.mine.Held → t.other.Held → P) : Sound P ⟨t.records + n, s, t.other, is⟩ := by
  obtain ⟨records, mine, other, was⟩ := t
  obtain ⟨hmine, hother, hopen, hbound, hdone⟩ := h
  simp only [Share.Held] at *
  cases hd with
  | take hs hs' hn hw hi =>
    subst hs hs' hn hw hi
    have hrecords := hopen rfl
    simp only at hrecords hbound
    exact ⟨Nat.le_refl 1, hother, fun _ => hrecords, by simp only; omega, fun h => absurd h (by simp)⟩
  | leave hle hs hn hi =>
    subst hn hi
    refine ⟨by simp only; omega, hother, ?_, by simp only; omega, ?_⟩
    · intro hw
      have hrecords := hopen hw
      simp only
      omega
    · intro hw
      refine (hdone hw).imp_right ?_
      rintro ⟨hone, hnone, hrest⟩
      exact ⟨hone, by simp only [Share.Held]; omega, hrest⟩
  | send hs hs' hn hi =>
    subst hs hs' hn hi
    simp only at hopen hbound hdone
    refine ⟨Nat.le_refl 1, hother, ?_, by simp only; omega, ?_⟩
    · intro hw
      have hrecords := hopen hw
      simp only
      omega
    · -- a transaction that is processed is sent only where `P` has come about
      intro hw
      exact Or.inl ((hdone hw).resolve_right fun ⟨_, hnone, _⟩ => hnone Nat.one_pos)
  | settle hs hs' hn hi =>
    subst hs hs' hn hi
    simp only at hopen hbound hdone hP
    refine ⟨Nat.zero_le 1, hother, fun h => absurd h (by simp), by simp only; omega, ?_⟩
    intro _
    rcases Nat.eq_zero_or_pos (other.owed + other.sent) with hfree | hheld
    · cases was with
      | true => exact Or.inl ((hdone rfl).resolve_right fun ⟨_, hnone, _⟩ => hnone Nat.one_pos)
      | false =>
        have hrecords := hopen rfl
        exact Or.inr ⟨by simp only; omega, by simp [Share.Held], by simp only [Share.Held]; omega⟩
    · exact Or.inl (hP Nat.one_pos hheld)

/-- What one step of one of the two tasks does to the tally. -/
inductive Step (t : Tally) : Tally → Prop where
  | mine {s : Share} {n : Nat} {is : Bool} (h : t.mine.Deal s n t.processed is) : Step t ⟨t.records + n, s, t.other, is⟩
  | other {s : Share} {n : Nat} {is : Bool} (h : t.other.Deal s n t.processed is) : Step t ⟨t.records + n, t.mine, s, is⟩

/-- A step in which nothing is done. -/
theorem step_self (t : Tally) : Step t t := .mine (.leave (Nat.le_refl _) rfl rfl rfl)

variable {t' : Tally}

/-- Every step keeps the tally sound, where `P` comes about whenever both tasks have the transaction in hand. -/
theorem Sound.step (h : t.Sound P) (hs : t.Step t') (hP : t.mine.Held → t.other.Held → P) : t'.Sound P := by
  cases hs with
  | mine hd => exact h.deal hd hP
  | other hd => exact (h.swap.deal hd fun hm ho => hP ho hm).swap

/-- The transaction is processed, and nobody has it in hand. -/
structure Closed (t : Tally) : Prop where
  processed : t.processed = true
  mine : ¬t.mine.Held
  other : ¬t.other.Held

/-- A task without a transaction in hand does nothing for one that is processed. -/
theorem free_of_deal {s s' : Share} {n : Nat} {is : Bool} (h : s.Deal s' n true is) (hs : ¬s.Held) :
    n = 0 ∧ is = true ∧ ¬s'.Held := by
  simp only [Share.Held] at *
  cases h with
  | take he he' hn hw hi => exact absurd hw (by decide)
  | leave hle he hn hi => exact ⟨hn, hi, by omega⟩
  | send he he' hn hi => exact absurd (by simp [he]) hs
  | settle he he' hn hi => exact absurd (by simp [he]) hs

/-- Nobody does anything any more for a transaction that is closed. -/
theorem Closed.step (h : t.Closed) (hs : t.Step t') : t'.Closed ∧ t'.records = t.records := by
  cases hs with
  | mine hd =>
    obtain ⟨rfl, hi, hfree⟩ := free_of_deal (h.processed ▸ hd) h.mine
    exact ⟨⟨hi, hfree, h.other⟩, rfl⟩
  | other hd =>
    obtain ⟨rfl, hi, hfree⟩ := free_of_deal (h.processed ▸ hd) h.other
    exact ⟨⟨hi, h.mine, hfree⟩, rfl⟩

/-- Where the tally is sound and more than one record has been sent, `P` has come about. -/
theorem Sound.of_two (h : t.Sound P) (hP : t.mine.Held → t.other.Held → P) (h2 : 1 < t.records) : P := by
  have hmine := h.mine
  have hother := h.other
  simp only [Share.Held] at hP
  cases hp : t.processed with
  | true => exact (h.processed hp).resolve_right fun ⟨hone, _⟩ => absurd hone (by omega)
  | false =>
    have hrecords := h.unprocessed hp
    exact hP (by omega) (by omega)

end Tally

/-- How many of some records are those of a transaction. -/
def AuditRecord.countOf (g : String) (rs : List AuditRecord) : Nat := rs.countP (·.gtid == g)

theorem AuditRecord.countOf_append (g : String) (rs rs' : List AuditRecord) :
    countOf g (rs ++ rs') = countOf g rs + countOf g rs' :=
  List.countP_append

namespace Correlation

/-- The share of a correlation: it has looked at the transaction of its marker and may yet send, or has sent and is about to
write. -/
def share (x : Correlation) (g : String) : Share :=
  if x.marker.gtid = g then
    match x.phase with
    | .looking _ | .waiting _ _ | .sending _ => ⟨1, 0⟩
    | .settling _ => ⟨0, 1⟩
    | _ => ⟨0, 0⟩
  else ⟨0, 0⟩

variable {g : String} {sender : Sender} {x x' : Correlation} {d d' : Channel AuditRecord} {s t : Services}

/-- A correlation has nothing of the records of another transaction. -/
theorem share_of_ne (h : x.marker.gtid ≠ g) : x.share g = ⟨0, 0⟩ := if_neg h

/-- A correlation sends nothing for another transaction. -/
theorem Turn.countOf_of_ne (h : Turn sender x d s x' d' t) (hg : x.marker.gtid ≠ g) :
    AuditRecord.countOf g (d.entered d') = 0 := by
  refine List.countP_eq_zero.2 ?_
  intro r hr he
  exact h.ne_of_entered (g := g) (fun hm => absurd hm hg) hr (by simpa using he)

/-- Every step of a correlation is one of those that a task can do with a transaction, if there is a receiver, upserts do not fail,
and the correlation finds out at its beginning whether the transaction is processed. -/
theorem Turn.deal (h : Turn sender x d s x' d' t) (hopen : d.received = true) (hup : s.store.failUpserts = false)
    (hbegin : x.phase = .starting → x.marker.gtid = g → Text.blank g = false →
      (∀ u, s.store.transaction g = .ok (some u) → u.isProcessed = false) → s.store.processed g = false) :
    (x.share g).Deal (x'.share g) (AuditRecord.countOf g (d.entered d')) (s.store.processed g)
      (t.store.processed g) := by
  by_cases hg : x.marker.gtid = g
  · have hleave : (x'.share g).owed ≤ (x.share g).owed → (x'.share g).sent = (x.share g).sent →
        d.entered d' = [] → (∀ rows, x.phase ≠ .settling rows) → (x.share g).Deal (x'.share g)
          (AuditRecord.countOf g (d.entered d')) (s.store.processed g) (t.store.processed g) := by
      intro ho hs hd hp
      exact .leave ho hs (by rw [hd]; rfl) (h.processed fun _ => hp)
    cases h with
    | proceed hp hb hu =>
      exact .take (by simp [share, hp]) (by simp [share, hg]) (by simp [AuditRecord.countOf])
        (hbegin hp hg (hg ▸ hb) (hg ▸ hu)) rfl
    | send hp hd =>
      exact .send (by simp [share, hp, hg]) (by simp [share, hg])
        (by simp [AuditRecord.countOf, recordOf, AuditRecord.ofChanges, hg]) rfl
    | settle hp ht =>
      exact .settle (by simp [share, hp, hg]) (by simp [share]) (by simp [AuditRecord.countOf])
        (by rw [ht.store, ← hg]; exact processed_write_self x hup)
    | closed hp hd ht => exact absurd (hd.symm.trans hopen) (by decide)
    | skip hp hb ht => exact hleave (by simp [share]) (by simp [share, hp]) (by simp) (by simp [hp])
    | known hp hb hu hs ht => exact hleave (by simp [share]) (by simp [share, hp]) (by simp) (by simp [hp])
    | found hp hrows hne ht => exact hleave (by simp [share, hp]) (by simp [share, hp]) (by simp) (by simp [hp])
    | await hp hlt hrows ht => exact hleave (by simp [share, hp]) (by simp [share, hp]) (by simp) (by simp [hp])
    | exhaust hp hle hrows ht => exact hleave (by simp [share]) (by simp [share, hp, hg]) (by simp) (by simp [hp])
    | again hp => exact hleave (by simp [share, hp]) (by simp [share, hp]) (by simp) (by simp [hp])
    | join hp hd => exact hleave (Nat.le_refl _) rfl (by simp) (by simp [hp])
    | defer hp ht => exact hleave (by simp [share]) (by simp [share, hp]) (by simp) (by simp [hp])
  · have hg' : x'.marker.gtid ≠ g := by rwa [h.marker]
    rw [share_of_ne hg, share_of_ne hg']
    exact .leave (Nat.le_refl _) rfl (h.countOf_of_ne hg) (h.processed fun he => absurd he hg)

end Correlation

/-- How many of some transactions have a GTID. -/
def Transaction.countOf (g : String) (ts : List Transaction) : Nat := ts.countP (·.gtid == g)

namespace Transaction

variable {g : String} {t : Transaction} {ts : List Transaction}

@[simp] theorem countOf_nil (g : String) : countOf g [] = 0 := rfl

theorem countOf_cons (g : String) (t : Transaction) (ts : List Transaction) :
    countOf g (t :: ts) = countOf g ts + if t.gtid = g then 1 else 0 := by
  simp [countOf, List.countP_cons]

theorem countOf_append (g : String) (ts us : List Transaction) : countOf g (ts ++ us) = countOf g ts + countOf g us :=
  List.countP_append

theorem countOf_eq_zero : countOf g ts = 0 ↔ ∀ t ∈ ts, t.gtid ≠ g := by
  simp [countOf, List.countP_eq_zero]

theorem countOf_pos : 0 < countOf g ts ↔ ∃ t ∈ ts, t.gtid = g := by
  simp [countOf, List.countP_pos_iff]

/-- Where all GTIDs are different, each is there once at most. -/
theorem countOf_le_one (h : (ts.map (·.gtid)).Nodup) (g : String) : countOf g ts ≤ 1 := by
  have hle := List.nodup_iff_count_le_one.1 h g
  rwa [List.count, List.countP_map] at hle

end Transaction

namespace Sweep

/-- The share of a sweep: the transactions that it has loaded and may yet send, and those that it has sent and is about to
write. -/
def share (x : Sweep) (g : String) : Share :=
  match x.phase with
  | .fetching candidates _ => ⟨Transaction.countOf g candidates, 0⟩
  | .sending _ _ rest done => ⟨Transaction.countOf g rest, Transaction.countOf g done⟩
  | _ => ⟨0, 0⟩

variable {g : String} {sender : Sender} {x x' : Sweep} {d d' : Channel AuditRecord} {s s' : Services}

/-- What a sweep that has sent nothing for a transaction does to its share, if it does not send anything for it. -/
theorem deal_of_unsent (ht : Turn sender x d s x' d' s') (hs : (x.share g).sent = 0)
    (hle : (x'.share g).owed ≤ (x.share g).owed) (hs' : (x'.share g).sent = 0)
    (hd : AuditRecord.countOf g (d.entered d') = 0) :
    (x.share g).Deal (x'.share g) (AuditRecord.countOf g (d.entered d')) (s.store.processed g)
      (s'.store.processed g) := by
  refine .leave hle (hs'.trans hs.symm) hd (ht.processed ?_)
  intro r rows rest done hp
  simpa only [share, hp, Transaction.countOf_eq_zero] using hs

/-- A sweep takes a transaction in hand when it is among the candidates, and then it is unprocessed. -/
theorem deal_of_list {since : Instant} {abandoned : Option Nat} {candidates : List Transaction}
    (hp : x.phase = .listing since abandoned)
    (hc : s.store.unprocessed since x.settings.batchLimit = .ok candidates)
    (hdist : (s.store.transactions.map (·.gtid)).Nodup) :
    (x.share g).Deal (share { x with phase := .fetching candidates abandoned } g) 0 (s.store.processed g)
      (s.store.processed g) := by
  have hle := Transaction.countOf_le_one (Store.nodup_unprocessed hc hdist) g
  rcases Nat.eq_zero_or_pos (Transaction.countOf g candidates) with hzero | hpos
  · exact .leave (by simp [share, hzero]) (by simp [share, hp]) rfl rfl
  · obtain ⟨u, hu, hug⟩ := Transaction.countOf_pos.1 hpos
    obtain ⟨hmem, hstatus⟩ := Store.mem_unprocessed hc hu
    have hw : s.store.processed g = false := by rw [← hug, Store.processed_of_mem hdist hmem, hstatus]
    have hcount : Transaction.countOf g candidates = 1 := by omega
    exact .take (by simp [share, hp]) (by simp [share, hcount]) rfl hw rfl

/-- A sweep sends the record of the foremost candidate. -/
theorem deal_of_send {r : SweepReport} {rows : List (String × List StoredChange)} {t : Transaction}
    {rest done : List Transaction} (changes : List StoredChange) {b : Bool} (hp : x.phase = .sending r rows (t :: rest) done)
    (hone : (x.share g).owed + (x.share g).sent ≤ 1) :
    (x.share g).Deal (share { x with phase := .sending r rows rest (done ++ [t]) } g)
      (AuditRecord.countOf g [.ofTransaction t changes]) b b := by
  have hcons := Transaction.countOf_cons g t
  have hsnoc : Transaction.countOf g (done ++ [t]) = Transaction.countOf g done + if t.gtid = g then 1 else 0 := by
    rw [Transaction.countOf_append, hcons, Transaction.countOf_nil, Nat.zero_add]
  have hrecord : AuditRecord.countOf g [.ofTransaction t changes] = if t.gtid = g then 1 else 0 := by
    simp [AuditRecord.countOf, AuditRecord.ofTransaction, AuditRecord.ofChanges]
  by_cases hg : t.gtid = g
  · simp only [hg, if_true] at hcons hsnoc hrecord
    simp only [share, hp, hcons] at hone
    have hrest : Transaction.countOf g rest = 0 := by omega
    have hdone : Transaction.countOf g done = 0 := by omega
    exact .send (by simp [share, hp, hcons, hrest, hdone]) (by simp [share, hsnoc, hrest, hdone]) hrecord rfl
  · simp only [hg, if_false] at hcons hsnoc hrecord
    exact .leave (by simp [share, hp, hcons]) (by simp [share, hp, hsnoc]) hrecord rfl

/-- A sweep that ends has written what it has sent. -/
theorem deal_of_finished {result : Except Error SweepReport} (h : x.step sender d s = some (x', d', s'))
    (hf : x'.phase = .finished result) (hd : d.entered d' = []) (hopen : d.received = true)
    (hup : s.store.failUpserts = false) (hone : (x.share g).owed + (x.share g).sent ≤ 1) :
    (x.share g).Deal (x'.share g) (AuditRecord.countOf g (d.entered d')) (s.store.processed g)
      (s'.store.processed g) := by
  have hnone : AuditRecord.countOf g (d.entered d') = 0 := by rw [hd]; rfl
  have hshare : x'.share g = ⟨0, 0⟩ := by simp [share, hf]
  rcases Nat.eq_zero_or_pos (x.share g).sent with hzero | hpos
  · exact deal_of_unsent (turn_of_step h) hzero (by simp [hshare]) (by simp [hshare]) hnone
  · cases hp : x.phase with
    | sending r rows rest done =>
      obtain ⟨rfl, hdone⟩ := processed_of_finished h hp hf hopen hup
      simp only [share, hp] at hpos hone
      obtain ⟨u, hu, rfl⟩ := Transaction.countOf_pos.1 hpos
      have hcount : Transaction.countOf u.gtid done = 1 := by omega
      exact .settle (by simp [share, hp, hcount]) hshare hnone (hdone u hu)
    | _ => simp [share, hp] at hpos

/-- Every step of a sweep is one of those that a task can do with a transaction, if there is a receiver, upserts do not fail, and
all GTIDs are different. -/
theorem deal_of_step (h : x.step sender d s = some (x', d', s')) (hopen : d.received = true)
    (hup : s.store.failUpserts = false) (hdist : (s.store.transactions.map (·.gtid)).Nodup)
    (hone : (x.share g).owed + (x.share g).sent ≤ 1) :
    (x.share g).Deal (x'.share g) (AuditRecord.countOf g (d.entered d')) (s.store.processed g)
      (s'.store.processed g) := by
  cases turn_of_step h with
  | begin hp hc =>
    exact deal_of_unsent (turn_of_step h) (by simp [share, hp]) (by simp [share]) rfl (by simp [AuditRecord.countOf])
  | list hp hc =>
    rw [Channel.entered_self]
    exact deal_of_list hp hc hdist
  | fetch hp hr =>
    exact deal_of_unsent (turn_of_step h) (by simp [share, hp]) (by simp [share, hp]) (by simp [share])
      (by simp [AuditRecord.countOf])
  | miss hp hl =>
    exact .leave (by simp [share, hp, Transaction.countOf_cons]) (by simp [share, hp]) (by simp [AuditRecord.countOf]) rfl
  | join hp hl hd => exact .leave (Nat.le_refl _) rfl (by simp [AuditRecord.countOf]) rfl
  | send hp hl hd =>
    rw [Channel.entered_push]
    exact deal_of_send _ hp hone
  | settle hp hd hu hc => exact deal_of_finished h rfl (Channel.entered_self d) hopen hup hone
  | finish hp hc => exact deal_of_finished h rfl (Channel.entered_self d) hopen hup hone

end Sweep

/-- A correlation that has not begun looks at its transaction before it takes it in hand. -/
def Correlation.Asks (g : String) (s : Services) (x : Correlation) : Prop :=
  x.phase = .starting → x.marker.gtid = g → Text.blank g = false →
    (∀ u, s.store.transaction g = .ok (some u) → u.isProcessed = false) → s.store.processed g = false

/-- The share of the correlator is that of the correlation under way. -/
def Correlator.share (c : Correlator) (g : String) : Share :=
  match c.phase with
  | .correlating _ x => x.share g
  | _ => ⟨0, 0⟩

/-- Every step of the correlator is one of those that a task can do with a transaction. -/
theorem Correlator.Turn.deal {g : String} {senders : Bool} {c c' : Correlator} {m m' : Channel Envelope}
    {d d' : Channel AuditRecord} {s t : Services} (h : Turn senders c m d s c' m' d' t) (hopen : d.received = true)
    (hup : s.store.failUpserts = false) (hasks : ∀ e x, c.phase = .correlating e x → x.Asks g s) :
    (c.share g).Deal (c'.share g) (AuditRecord.countOf g (d.entered d')) (s.store.processed g)
      (t.store.processed g) := by
  have hnone : AuditRecord.countOf g (d.entered d) = 0 := by simp [AuditRecord.countOf]
  cases h with
  | work hp hx =>
    simp only [share, hp]
    exact hx.deal hopen hup (hasks _ _ hp)
  | stop hp hs => exact .leave (by simp [share]) (by simp [share, hp]) hnone rfl
  | take hp hm he => exact .leave (by simp [share, Correlation.share]) (by simp [share, Correlation.share, hp]) hnone rfl
  | pass hp hm he => exact .leave (by simp [share]) (by simp [share, hp]) hnone rfl
  | done hp hx => exact .leave (by simp [share]) (by simp [share, Correlation.share, hp, hx]) hnone rfl
  | commit hp => exact .leave (by simp [share]) (by simp [share, hp]) hnone (by rw [Services.putCursor_store])

/-- The share of the sweeper is that of the sweep under way. -/
def Sweeper.share (x : Sweeper) (g : String) : Share := (x.sweep.map (·.share g)).getD ⟨0, 0⟩

/-- Every step of the sweeper is one of those that a task can do with a transaction. -/
theorem Sweeper.deal_of_step {g : String} {heed : Bool} {now : Nat} {x x' : Sweeper} {d d' : Channel AuditRecord}
    {s s' : Services} (h : x.step heed now d s = some (x', d', s')) (hopen : d.received = true)
    (hup : s.store.failUpserts = false) (hdist : (s.store.transactions.map (·.gtid)).Nodup)
    (hone : (x.share g).owed + (x.share g).sent ≤ 1) :
    (x.share g).Deal (x'.share g) (AuditRecord.countOf g (d.entered d')) (s.store.processed g)
      (s'.store.processed g) := by
  rcases sweep_of_step h with ⟨w, w', hw, hw', hstep⟩ | ⟨hbefore, hafter, rfl, hc⟩
  · simp only [share, hw, hw', Option.map_some, Option.getD_some] at hone ⊢
    exact Sweep.deal_of_step hstep hopen hup hdist hone
  · have hmine : x.share g = ⟨0, 0⟩ := by
      cases hw : x.sweep with
      | none => simp [share, hw]
      | some w =>
        obtain ⟨result, hp⟩ := hbefore w hw
        simp [share, hw, Sweep.share, hp]
    have hnext : x'.share g = ⟨0, 0⟩ := by
      cases hw : x'.sweep with
      | none => simp [share, hw]
      | some w => simp [share, hw, Sweep.share, hafter w hw]
    rw [hmine, hnext]
    exact .leave (Nat.le_refl _) rfl (by simp [AuditRecord.countOf]) (by rw [hc.store])

namespace Pipeline

open Scene DeliveryAux

namespace Scene

/-- The share of the correlator of a scene. -/
def correlatorShare (x : Scene) (g : String) : Share := (x.pipeline.correlator.map (·.share g)).getD ⟨0, 0⟩

/-- The share of the sweeper of a scene. -/
def sweeperShare (x : Scene) (g : String) : Share := (x.pipeline.sweeper.map (·.share g)).getD ⟨0, 0⟩

/-- Correlator and sweeper have a transaction in hand at the same time. -/
def Contested (x : Scene) (g : String) : Prop := (x.correlatorShare g).Held ∧ (x.sweeperShare g).Held

/-- How it stands in a scene with the records of a transaction, seen from the correlator. -/
def tally (x : Scene) (g : String) : Tally where
  records := AuditRecord.countOf g x.enqueued
  mine := x.correlatorShare g
  other := x.sweeperShare g
  processed := x.services.store.processed g

/-- A correlation under way looks at its transaction before it takes it in hand. -/
def Asks (g : String) (x : Scene) : Prop :=
  ∀ c e y, x.pipeline.correlator = some c → c.phase = .correlating e y → y.Asks g x.services

end Scene

namespace EmissionAux

variable {ok : Services → Prop} {x y : Scene} {g : String} {P : Prop}

/-- A move in which shares, records and transactions stay the same is no step of the tally. -/
theorem step_of_eq (he : y.enqueued = x.enqueued) (hc : y.correlatorShare g = x.correlatorShare g)
    (hs : y.sweeperShare g = x.sweeperShare g)
    (ht : y.services.store.transactions = x.services.store.transactions) : (x.tally g).Step (y.tally g) := by
  have hsame : y.tally g = x.tally g := by
    simp only [tally, he, hc, hs, Store.processed, Store.lookup, ht]
  rw [hsame]
  exact Tally.step_self _

/-- A step of the correlator is one of the tally. -/
theorem step_correlator {c c' : Correlator} {m : Channel Envelope} {d : Channel AuditRecord} {t : Services}
    (hopen : x.pipeline.delivery.received = true) (hup : x.services.store.failUpserts = false) (hasks : x.Asks g)
    (hc : x.pipeline.correlator = some c)
    (ht : Correlator.Turn x.pipeline.markerSenders c x.pipeline.markers x.pipeline.delivery x.services c' m d t) :
    (x.tally g).Step ((x.advance .correlator { x.pipeline with
      correlator := some c', markers := m, delivery := d } t).tally g) := by
  have hmine : (x.tally g).mine = c.share g := by simp [tally, correlatorShare, hc]
  have hdeal := ht.deal (g := g) hopen hup fun e y he => hasks c e y hc he
  rw [← hmine] at hdeal
  simpa only [tally, advance, AuditRecord.countOf_append, correlatorShare, sweeperShare, Option.map_some,
    Option.getD_some] using Tally.Step.mine hdeal

/-- A step of the sweeper is one of the tally. -/
theorem step_sweeper {heed : Bool} {now : Nat} {v v' : Sweeper} {d : Channel AuditRecord} {t : Services}
    (hopen : x.pipeline.delivery.received = true) (hup : x.services.store.failUpserts = false)
    (hdist : (x.services.store.transactions.map (·.gtid)).Nodup)
    (hone : (x.sweeperShare g).owed + (x.sweeperShare g).sent ≤ 1) (hv : x.pipeline.sweeper = some v)
    (hstep : v.step heed now x.pipeline.delivery x.services = some (v', d, t)) :
    (x.tally g).Step ((x.advance .sweeper { x.pipeline with sweeper := some v', delivery := d } t).tally g) := by
  have hother : x.sweeperShare g = v.share g := by simp [sweeperShare, hv]
  have hdeal := Sweeper.deal_of_step (g := g) hstep hopen hup hdist (hother ▸ hone)
  rw [← hother] at hdeal
  simpa only [tally, advance, AuditRecord.countOf_append, correlatorShare, sweeperShare, Option.map_some,
    Option.getD_some] using Tally.Step.other (t := x.tally g) hdeal

/-- Telling the tasks to stop leaves their shares. -/
theorem shares_signal (p : Pipeline) (g : String) :
    (p.signal.correlator.map (·.share g)).getD ⟨0, 0⟩ = (p.correlator.map (·.share g)).getD ⟨0, 0⟩ ∧
      (p.signal.sweeper.map (·.share g)).getD ⟨0, 0⟩ = (p.sweeper.map (·.share g)).getD ⟨0, 0⟩ := by
  obtain ⟨_, _, _, _, _, _, _, _, _, _, _, c, v⟩ := p
  cases c <;> cases v <;> exact ⟨rfl, rfl⟩

/-- Every move is a step of the tally of a transaction. -/
theorem step_move (hd : Delivering x) (hup : x.services.store.failUpserts = false)
    (hdist : (x.services.store.transactions.map (·.gtid)).Nodup) (hasks : x.Asks g)
    (hone : (x.sweeperShare g).owed + (x.sweeperShare g).sent ≤ 1) (hm : Move ok x y) :
    (x.tally g).Step (y.tally g) := by
  cases hm with
  | task hstep =>
    cases turn_of_step hstep with
    | correlator hc ht =>
      have hopen := hd.received (dispatching_of_senders hd (by simp [deliverySenders, correlating, hc, ht.running]))
      exact step_correlator hopen hup hasks hc ht
    | sweeper hv ht =>
      have hopen := hd.received (dispatching_of_senders hd (by simp [deliverySenders, sweeping, hv, ht.running]))
      obtain ⟨v, v', d, hv, hwork, hp⟩ := sweeper_of_step hstep
      rw [hp]
      exact step_sweeper hopen hup hdist hone hv hwork
    | deliver hdis hi => exact step_of_eq (by simp [advance, Channel.entered_rest hi]) rfl rfl rfl
    | close hdis hi hs => exact step_of_eq (by simp [advance]) rfl rfl rfl
    | writer hw ht => exact step_of_eq (by simp [advance]) rfl rfl (Writer.turn_of_step ht).transactions
    | worker hr ht => exact step_of_eq (by simp [advance]) rfl rfl (by simp [advance, ht.counted.store])
    | feeder hr ht => exact step_of_eq (by simp [advance]) rfl rfl (by simp [advance, ht.counted.store])
  | signal =>
    obtain ⟨hc, hs⟩ := shares_signal x.pipeline g
    exact step_of_eq rfl hc hs rfl
  | outside ho hok => exact step_of_eq rfl rfl rfl ho.transactions

/-- A pipeline that starts has sent nothing and has no transaction in hand. -/
theorem sound_start (P : Prop) (g : String) (settings : PipelineSettings) (now : Nat) (s : Services) :
    ((Scene.start settings now s).tally g).Sound P := by
  have h := started_assemble settings now s
  have hc : (Scene.start settings now s).correlatorShare g = ⟨0, 0⟩ := by
    rcases h.correlator with hc | hc <;> simp [correlatorShare, Scene.start, hc, Correlator.share]
  have hs : (Scene.start settings now s).sweeperShare g = ⟨0, 0⟩ := by
    rcases h.sweeper with hs | hs <;> simp [sweeperShare, Scene.start, hs, Sweeper.share, Sweeper.start]
  have hn : AuditRecord.countOf g (Scene.start settings now s).enqueued = 0 := rfl
  refine ⟨?_, ?_, ?_, ?_, ?_⟩ <;> simp [tally, hc, hs, hn, Share.Held]

end EmissionAux

end Pipeline

end AuditTrail
