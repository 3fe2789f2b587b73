import AuditTrail.Proofs.Correlator
import Mathlib.Logic.Function.Basic
import Mathlib.Logic.Relation

/-!
# Correlations that are answered by a script

A correlation asks its store three things: for the transaction of the marker, for rows, any number of times, and to write the
transaction. `Script` holds what a store answers, whatever store it is, and a `Deed` is anything that a correlation does.

A step of a correlation is read twice here. `proceed` takes the answers from a script and lists the deeds of the step;
`step_eq_proceed` says that the step itself is this one, with the answers of the store that there is and with the deeds carried
out on the services. As no question is asked twice, the answers that a correlation meets on its way are those of one script, however
its store changes meanwhile (`Shared.exists_script`).
-/

namespace AuditTrail.Correlation

/-! ## Scripts and deeds -/

/-- What a store answers: when it is asked for the transaction, at each look-up, the first of which has the number one, and
whether it can be written. -/
structure Script where
  status : Except Error (Option Transaction)
  rows : Nat → Except Error (List StoredChange)
  written : Bool

namespace Script

/-- The transaction is found, and it is processed. -/
def processed (σ : Script) : Bool :=
  match σ.status with
  | .ok (some t) => t.isProcessed
  | _ => false

/-- A look-up finds rows. -/
def finds (σ : Script) (i : Nat) : Bool :=
  match σ.rows i with
  | .ok rows => !rows.isEmpty
  | .error _ => false

/-- A look-up fails. -/
def fails (σ : Script) (i : Nat) : Bool :=
  match σ.rows i with
  | .ok _ => false
  | .error _ => true

/-- What a store answers about a GTID as long as nothing changes it. -/
def ofStore (s : Store) (g : String) : Script := ⟨s.transaction g, fun _ => s.rowsOf g, !s.failUpserts⟩

end Script

/-- What a correlation does, with what comes of it. -/
inductive Deed where
  /-- It asks for the transaction. -/
  | asked (answer : Except Error (Option Transaction))
  /-- It looks for rows, at some time. -/
  | looked (now : Nat) (answer : Except Error (List StoredChange))
  /-- It begins to wait, until some time. -/
  | waits (due : Nat)
  /-- It offers a record to the delivery channel, which takes it unless it has no receiver. -/
  | offered (r : AuditRecord) (taken : Bool)
  /-- It writes a transaction, with success or without. -/
  | wrote (t : Transaction) (succeeded : Bool)
  /-- It counts something. -/
  | counted (u : Update)

/-- The services after a deed. -/
def carryOut (s : Services) : Deed → Services
  | .counted u => s.record u
  | .wrote t true =>
    match s.store.upsert [t] with
    | .ok stored => { s with store := stored }
    | .error _ => s
  | _ => s

/-- The outcome of a marker, when a deed counts one. -/
def Deed.outcome? : Deed → Option Outcome
  | .counted (.marker o) => some o
  | _ => none

/-- The deeds of a look-up. It is followed by a wait if it finds nothing and is not the last. -/
def lookup (settings : CorrelatorSettings) (σ : Script) (i now : Nat) : List Deed :=
  [.counted .lookupAttempt, .looked now (σ.rows i)] ++ (if σ.fails i then [.counted .lookupError] else []) ++
    (if !σ.finds i ∧ i < max settings.maxAttempts 1 then [.waits (now + settings.retryInterval)] else [])

/-- The deeds of look-ups at some times, the first of which has the number one. -/
def lookups (settings : CorrelatorSettings) (σ : Script) (times : List Nat) : List Deed :=
  (times.zipIdx 1).flatMap fun t => lookup settings σ t.2 t.1

/-- The deeds of offering a record. -/
def offering (r : AuditRecord) (taken : Bool) : List Deed :=
  .offered r taken :: if taken then [] else [.counted (.delivery false)]

/-- The deeds of writing a transaction. -/
def writing (σ : Script) (t : Transaction) : List Deed :=
  .wrote t σ.written :: if σ.written then [] else [.counted .statusWriteError]

/-- One step of a correlation that is answered by a script, if it can take one, with the deeds of the step. -/
def proceed (sender : Sender) (now : Nat) (σ : Script) (c : Correlation) (d : Channel AuditRecord) :
    Option (Correlation × Channel AuditRecord × List Deed) :=
  match c.phase with
  | .starting =>
    if Text.blank c.marker.gtid then some ({ c with phase := .finished .skipped }, d, [.counted (.marker .skipped)])
    else if σ.processed then
      some ({ c with phase := .finished .alreadyProcessed }, d, [.asked σ.status, .counted (.marker .alreadyProcessed)])
    else some ({ c with phase := .looking 1 }, d, [.asked σ.status])
  | .looking i =>
    let next : Phase :=
      match σ.rows i with
      | .ok (r :: rows) => .sending (r :: rows)
      | _ => if i < c.attempts then .waiting (i + 1) (now + c.settings.retryInterval) else .deferring
    some ({ c with phase := next }, d, lookup c.settings σ i now)
  | .waiting i due => if due ≤ now then some ({ c with phase := .looking i }, d, []) else none
  | .sending rows =>
    match d.attempt sender (recordOf c.marker rows) with
    | .closed => some ({ c with phase := .settling rows.length }, d, offering (recordOf c.marker rows) false)
    | .joined d => some (c, d, [])
    | .sent d => some ({ c with phase := .settling rows.length }, d, offering (recordOf c.marker rows) true)
    | .blocked => none
  | .settling rows =>
    some ({ c with phase := .finished (.resolved rows) }, d,
      writing σ (.ofMarker c.marker .processed) ++ [.counted (.marker .resolved)])
  | .deferring =>
    some ({ c with phase := .finished .deferred }, d,
      writing σ (.ofMarker c.marker .unprocessed) ++ [.counted (.marker .deferred)])
  | .finished _ => none

namespace ScriptAux

/-- The deeds of a write are the write. -/
theorem foldl_writing (c : Correlation) (status : Status) (s : Services) :
    (writing (.ofStore s.store c.marker.gtid) (.ofMarker c.marker status)).foldl carryOut s = c.write status s := by
  cases h : s.store.failUpserts <;>
    simp [writing, Script.ofStore, carryOut, write, Store.upsert, h]

/-- The deeds of a look-up change the services as it does. -/
theorem foldl_lookup (c : Correlation) (i now : Nat) (s : Services) :
    (lookup c.settings (.ofStore s.store c.marker.gtid) i now).foldl carryOut s = (c.look i now s).2 := by
  have hwait (t : Services) (p : Prop) [Decidable p] :
      (if p then [Deed.waits (now + c.settings.retryInterval)] else []).foldl carryOut t = t := by split <;> rfl
  rw [lookup, List.foldl_append, hwait, List.foldl_append]
  simp only [look, Services.record_store]
  cases h : s.store.rowsOf c.marker.gtid with
  | ok rows =>
    have hfails : (Script.ofStore s.store c.marker.gtid).fails i = false := by simp [Script.fails, Script.ofStore, h]
    rw [hfails]
    cases rows <;> rfl
  | error e =>
    have hfails : (Script.ofStore s.store c.marker.gtid).fails i = true := by simp [Script.fails, Script.ofStore, h]
    rw [hfails]
    rfl

end ScriptAux

open ScriptAux

/-- A step of a correlation is that of the script which its store is at the time, and does what the deeds of the step are. -/
theorem step_eq_proceed (sender : Sender) (now : Nat) (c : Correlation) (d : Channel AuditRecord) (s : Services) :
    c.step sender now d s = (c.proceed sender now (.ofStore s.store c.marker.gtid) d).map
      fun p => (p.1, p.2.1, p.2.2.foldl carryOut s) := by
  obtain ⟨settings, m, phase⟩ := c
  cases phase with
  | starting =>
    simp only [step, proceed, begin, finish]
    by_cases hb : Text.blank m.gtid = true
    · simp only [hb, if_true]
      rfl
    · have hprocessed : (Script.ofStore s.store m.gtid).processed =
          match s.store.transaction m.gtid with
          | .ok (some t) => t.isProcessed
          | _ => false := rfl
      simp only [hb]
      cases h : s.store.transaction m.gtid with
      | error e =>
        rw [h] at hprocessed
        simp only [hprocessed]
        rfl
      | ok found =>
        cases found with
        | none =>
          rw [h] at hprocessed
          simp only [hprocessed]
          rfl
        | some t =>
          rw [h] at hprocessed
          cases ht : t.isProcessed <;> simp only [hprocessed, ht] <;> rfl
  | looking i =>
    simp only [step, proceed, Option.map_some, foldl_lookup ⟨settings, m, .looking i⟩]
    simp only [look, Script.ofStore, Services.record_store]
    cases s.store.rowsOf m.gtid with
    | error e => rfl
    | ok rows => cases rows <;> rfl
  | waiting i due =>
    simp only [step, proceed]
    split <;> rfl
  | sending rows =>
    simp only [step, proceed]
    cases d.attempt sender (recordOf m rows) <;> rfl
  | settling rows =>
    simp only [step, proceed, finish, Option.map_some, List.foldl_append, foldl_writing ⟨settings, m, .settling rows⟩]
    rfl
  | deferring =>
    simp only [step, proceed, finish, Option.map_some, List.foldl_append, foldl_writing ⟨settings, m, .deferring⟩]
    rfl
  | finished r => rfl

/-! ## The course of a correlation -/

/-- A correlation at work, with the delivery channel, the time, what it has done and the records that it has put into the
channel. -/
structure Course where
  correlation : Correlation
  channel : Channel AuditRecord
  now : Nat
  deeds : List Deed := []
  sent : List AuditRecord := []

/-- The correlation of a marker that starts. -/
def Course.start (settings : CorrelatorSettings) (m : Marker) (d : Channel AuditRecord) (now : Nat) : Course :=
  { correlation := ⟨settings, m, .starting⟩, channel := d, now := now }

/-- One move of a course. Time passes, and others change the delivery channel as `ok` allows. -/
inductive Course.Move (sender : Sender) (σ : Script) (ok : Channel AuditRecord → Channel AuditRecord → Prop) (x : Course) :
    Course → Prop where
  /-- The correlation takes a step. -/
  | step {c : Correlation} {d : Channel AuditRecord} {deeds : List Deed}
      (h : x.correlation.proceed sender x.now σ x.channel = some (c, d, deeds)) :
      Move sender σ ok x ⟨c, d, x.now, x.deeds ++ deeds, x.sent ++ x.channel.entered d⟩
  /-- Others do something. -/
  | others {d : Channel AuditRecord} {now : Nat} (hd : ok x.channel d) (h : x.now ≤ now) :
      Move sender σ ok x { x with channel := d, now := now }

/-- Any number of moves of a course. -/
def Course.Run (sender : Sender) (σ : Script) (ok : Channel AuditRecord → Channel AuditRecord → Prop) :
    Course → Course → Prop :=
  Relation.ReflTransGen (Course.Move sender σ ok)

/-! ## Services that change -/

/-- A correlation at work, with the services that it shares with others. -/
structure Shared where
  course : Course
  services : Services

/-- The deeds of the next step of a correlation on some services. -/
def deedsOf (sender : Sender) (now : Nat) (c : Correlation) (d : Channel AuditRecord) (s : Services) : List Deed :=
  ((c.proceed sender now (.ofStore s.store c.marker.gtid) d).map (·.2.2)).getD []

namespace Shared

/-- The correlation of a marker that starts. -/
def start (settings : CorrelatorSettings) (m : Marker) (d : Channel AuditRecord) (now : Nat) (s : Services) : Shared :=
  ⟨.start settings m d now, s⟩

/-- One move of a correlation on services that change. Time passes, and others change the delivery channel as `ok` allows, and the
services as they like. -/
inductive Move (sender : Sender) (ok : Channel AuditRecord → Channel AuditRecord → Prop) (x : Shared) : Shared → Prop where
  /-- The correlation takes a step. -/
  | step {c : Correlation} {d : Channel AuditRecord} {s : Services}
      (h : x.course.correlation.step sender x.course.now x.course.channel x.services = some (c, d, s)) :
      Move sender ok x ⟨⟨c, d, x.course.now,
        x.course.deeds ++ x.course.correlation.deedsOf sender x.course.now x.course.channel x.services,
        x.course.sent ++ x.course.channel.entered d⟩, s⟩
  /-- Others do something to the delivery channel, or time goes by. -/
  | others {d : Channel AuditRecord} {now : Nat} (hd : ok x.course.channel d) (h : x.course.now ≤ now) :
      Move sender ok x { x with course := { x.course with channel := d, now := now } }
  /-- Others change the services. -/
  | changed (s : Services) : Move sender ok x { x with services := s }

/-- Any number of moves on services that change. -/
def Run (sender : Sender) (ok : Channel AuditRecord → Channel AuditRecord → Prop) : Shared → Shared → Prop :=
  Relation.ReflTransGen (Move sender ok)

end Shared

/-- Two scripts give the same answer to what is asked in a phase. -/
def SameAnswer (σ τ : Script) : Phase → Prop
  | .starting => σ.status = τ.status
  | .looking i => σ.rows i = τ.rows i
  | .settling _ => σ.written = τ.written
  | .deferring => σ.written = τ.written
  | _ => True

/-- Two scripts give the same answers to what has been asked before a phase. -/
def SameBefore (σ τ : Script) : Phase → Prop
  | .starting => True
  | .looking i => σ.status = τ.status ∧ ∀ j < i, σ.rows j = τ.rows j
  | .waiting i _ => σ.status = τ.status ∧ ∀ j < i, σ.rows j = τ.rows j
  | .finished _ => σ = τ
  | _ => σ.status = τ.status ∧ σ.rows = τ.rows

/-- A script with the answer of another one to what is asked in a phase. -/
def Script.answered (σ ρ : Script) : Phase → Script
  | .starting => { σ with status := ρ.status }
  | .looking i => { σ with rows := Function.update σ.rows i (ρ.rows i) }
  | .settling _ => { σ with written := ρ.written }
  | .deferring => { σ with written := ρ.written }
  | _ => σ

section

variable {sender : Sender} {now : Nat} {σ ρ τ : Script} {c c' : Correlation} {d d' : Channel AuditRecord} {deeds : List Deed}

/-- A step hangs on the answer to its question alone. -/
theorem proceed_congr (h : SameAnswer ρ τ c.phase) : c.proceed sender now ρ d = c.proceed sender now τ d := by
  obtain ⟨settings, m, phase⟩ := c
  cases phase with
  | starting =>
    have hstatus : ρ.status = τ.status := h
    have hprocessed : ρ.processed = τ.processed := by rw [Script.processed, Script.processed, hstatus]
    simp only [proceed, hprocessed, hstatus]
  | looking i =>
    have hrows : ρ.rows i = τ.rows i := h
    have hfinds : ρ.finds i = τ.finds i := by rw [Script.finds, Script.finds, hrows]
    have hfails : ρ.fails i = τ.fails i := by rw [Script.fails, Script.fails, hrows]
    simp only [proceed, lookup, hrows, hfinds, hfails]
  | settling rows =>
    have hwritten : ρ.written = τ.written := h
    simp only [proceed, writing, hwritten]
  | deferring =>
    have hwritten : ρ.written = τ.written := h
    simp only [proceed, writing, hwritten]
  | waiting i due => rfl
  | sending rows => rfl
  | finished r => rfl

/-- A script gives the same answers as itself. -/
theorem sameBefore_refl (σ : Script) (phase : Phase) : SameBefore σ σ phase := by
  cases phase with
  | starting => trivial
  | finished r => exact rfl
  | looking i => exact ⟨rfl, fun _ _ => rfl⟩
  | waiting i due => exact ⟨rfl, fun _ _ => rfl⟩
  | sending rows => exact ⟨rfl, rfl⟩
  | settling rows => exact ⟨rfl, rfl⟩
  | deferring => exact ⟨rfl, rfl⟩

/-- What has been asked after a look-up is what had been asked before it and the look-up. -/
theorem sameBefore_of_look {i : Nat} {phase : Phase}
    (hnext : (∃ rows, phase = .sending rows) ∨ (∃ due, phase = .waiting (i + 1) due) ∨ phase = .deferring)
    (hsame : SameBefore (σ.answered ρ (.looking i)) τ phase) :
    SameBefore σ τ (.looking i) ∧ SameAnswer ρ τ (.looking i) := by
  obtain ⟨hstatus, hrows⟩ : σ.status = τ.status ∧ ∀ j ≤ i, Function.update σ.rows i (ρ.rows i) j = τ.rows j := by
    rcases hnext with ⟨rows, rfl⟩ | ⟨due, rfl⟩ | rfl
    · exact ⟨hsame.1, fun j _ => congrFun hsame.2 j⟩
    · exact ⟨hsame.1, fun j hj => hsame.2 j (Nat.lt_succ_of_le hj)⟩
    · exact ⟨hsame.1, fun j _ => congrFun hsame.2 j⟩
  refine ⟨⟨hstatus, ?_⟩, ?_⟩
  · intro j hj
    rw [← hrows j (Nat.le_of_lt hj), Function.update_of_ne (Nat.ne_of_lt hj)]
  · have hlast := hrows i (Nat.le_refl i)
    rwa [Function.update_self] at hlast

/-- What has been asked after a step is what had been asked before it and what is asked in it. -/
theorem sameBefore_of_proceed (h : c.proceed sender now ρ d = some (c', d', deeds))
    (hsame : SameBefore (σ.answered ρ c.phase) τ c'.phase) : SameBefore σ τ c.phase ∧ SameAnswer ρ τ c.phase := by
  obtain ⟨settings, m, phase⟩ := c
  cases phase with
  | starting =>
    refine ⟨trivial, ?_⟩
    simp only [proceed] at h
    split at h
    · cases h
      obtain rfl : σ.answered ρ .starting = τ := hsame
      exact rfl
    · split at h
      · cases h
        obtain rfl : σ.answered ρ .starting = τ := hsame
        exact rfl
      · cases h
        exact hsame.1
  | looking i =>
    cases h
    refine sameBefore_of_look ?_ hsame
    dsimp only
    split
    · exact .inl ⟨_, rfl⟩
    · split
      · exact .inr (.inl ⟨_, rfl⟩)
      · exact .inr (.inr rfl)
  | waiting i due =>
    simp only [proceed] at h
    split at h
    · cases h
      exact ⟨hsame, trivial⟩
    · cases h
  | sending rows =>
    simp only [proceed] at h
    split at h <;> cases h <;> exact ⟨hsame, trivial⟩
  | settling rows =>
    cases h
    obtain rfl : σ.answered ρ (.settling rows) = τ := hsame
    exact ⟨⟨rfl, rfl⟩, rfl⟩
  | deferring =>
    cases h
    obtain rfl : σ.answered ρ .deferring = τ := hsame
    exact ⟨⟨rfl, rfl⟩, rfl⟩
  | finished r => cases h

end

namespace Shared

variable {sender : Sender} {ok : Channel AuditRecord → Channel AuditRecord → Prop} {settings : CorrelatorSettings} {m : Marker}
  {d : Channel AuditRecord} {now : Nat} {s : Services} {x : Shared}

/-- On every run there is a script of the answers so far: whatever is answered like it so far, whatever it says of the rest, takes the
same course. -/
theorem run_of_same (h : Run sender ok (.start settings m d now s) x) : ∃ σ, ∀ τ, SameBefore σ τ x.course.correlation.phase →
    Course.Run sender τ ok (.start settings m d now) x.course := by
  induction h with
  | refl => exact ⟨.ofStore s.store m.gtid, fun τ _ => .refl⟩
  | @tail x y hr hm ih =>
    obtain ⟨σ, hσ⟩ := ih
    cases hm with
    | @step c d s hstep =>
      let ρ : Script := .ofStore x.services.store x.course.correlation.marker.gtid
      obtain ⟨⟨c', d', deeds⟩, hproceed, hafter⟩ := Option.map_eq_some_iff.1 (step_eq_proceed .. ▸ hstep)
      obtain ⟨rfl, rfl, -⟩ : c' = c ∧ d' = d ∧ _ := by simpa using hafter
      have hdeeds : x.course.correlation.deedsOf sender x.course.now x.course.channel x.services = deeds := by
        rw [deedsOf, hproceed]
        rfl
      refine ⟨σ.answered ρ x.course.correlation.phase, ?_⟩
      intro τ hτ
      obtain ⟨hbefore, hanswer⟩ := sameBefore_of_proceed hproceed hτ
      rw [hdeeds]
      exact (hσ τ hbefore).tail (.step ((proceed_congr hanswer).symm.trans hproceed))
    | others hd hle => exact ⟨σ, fun τ hτ => (hσ τ hτ).tail (.others hd hle)⟩
    | changed t => exact ⟨σ, hσ⟩

/-- A run on services that change, however they do, is a course of one script, that of the answers that it has met. -/
theorem exists_script (h : Run sender ok (.start settings m d now s) x) :
    ∃ σ, Course.Run sender σ ok (.start settings m d now) x.course := by
  obtain ⟨σ, hσ⟩ := run_of_same h
  exact ⟨σ, hσ σ (sameBefore_refl σ _)⟩

end Shared

end AuditTrail.Correlation
