import AuditTrail.Proofs.Correlator
import AuditTrail.Proofs.Store.Versions
import AuditTrail.Proofs.Sweep.Cycle

/-!
# The record of a marker on either path

A marker is resolved by the correlator, from a look-up of its rows alone, or after it was deferred by the sweeper, from a look-up of
the rows of all candidates at once. The second look-up answers for each GTID what the first one does (`rowsOf_of_mem`), and so
both paths send one record, which the marker and the stored rows determine (`resolved_alike`).
-/

namespace AuditTrail

/-- The record of a marker with those of some rows that have its GTID. -/
def Marker.joined (m : Marker) (rows : List StoredChange) : AuditRecord :=
  ⟨m.gtid, m.context, m.commitTime, recordOrder (rows.filter (·.gtid == m.gtid))⟩

namespace Store

variable {s : Store} {g : String} {gtids : List String} {groups : List (String × List StoredChange)}

/-- The groups are those of the GTIDs that the store is asked about and has rows of. -/
theorem mem_keys_rowsOfAll (h : s.rowsOfAll gtids = .ok groups) :
    g ∈ groups.map (·.1) ↔ g ∈ gtids ∧ ∃ r ∈ s.rows, r.gtid = g := by
  obtain rfl := Except.ok.inj (checkQueries_bind h).2
  rw [keys_grouped, AuditRecord.mem_distinct, List.mem_map]
  constructor
  · rintro ⟨r, hr, rfl⟩
    obtain ⟨hmem, hasked⟩ := List.mem_filter.1 hr
    exact ⟨List.contains_iff_mem.1 hasked, r, hmem, rfl⟩
  · rintro ⟨hasked, r, hmem, rfl⟩
    exact ⟨r, List.mem_filter.2 ⟨hmem, List.contains_iff_mem.2 hasked⟩, rfl⟩

/-- Each group is what the store answers about its GTID alone. -/
theorem rowsOf_of_mem (h : s.rowsOfAll gtids = .ok groups) {e : String × List StoredChange} (he : e ∈ groups) :
    s.rowsOf e.1 = .ok e.2 := by
  have hasked : e.1 ∈ gtids := ((mem_keys_rowsOfAll h).1 (List.mem_map_of_mem he)).1
  obtain ⟨hq, hgroups⟩ := checkQueries_bind h
  obtain rfl := Except.ok.inj hgroups
  obtain ⟨g, -, rfl⟩ := List.mem_map.1 he
  rw [rowsOf_of_ok hq, rowsWith, filter_contains s.rows hasked]

/-- The record of a stored marker is that of the marker with the rows that are stored. -/
theorem joined_ofMarker (s : Store) (m : Marker) (status : Status) : s.joined (.ofMarker m status) = m.joined s.rows := by
  simp only [joined, Transaction.ofMarker, AuditRecord.ofTransaction, AuditRecord.ofChanges, Marker.joined, rowsWith,
    recordOrder_recordOrder]

end Store

/-! ## Resolved by the correlator -/

namespace Correlation

/-- A correlation at work, with the delivery channel, the services and the records that it has sent so far. -/
structure Scene where
  correlation : Correlation
  channel : Channel AuditRecord
  services : Services
  sent : List AuditRecord := []

/-- The correlation of a marker that starts. -/
def Scene.start (settings : CorrelatorSettings) (m : Marker) (d : Channel AuditRecord) (s : Services) : Scene :=
  { correlation := ⟨settings, m, .starting⟩, channel := d, services := s }

/-- What a step of a correlation makes of a scene. -/
def Scene.after (x : Scene) (c : Correlation) (d : Channel AuditRecord) (s : Services) : Scene :=
  ⟨c, d, s, x.sent ++ x.channel.entered d⟩

/-- One move of a scene. Others change the services as `ok` allows, and what is in the delivery channel, but not whether it has a
receiver. -/
inductive Move (sender : Sender) (ok : Services → Services → Prop) (x : Scene) : Scene → Prop where
  /-- The correlation takes a step. -/
  | step {now : Nat} {c : Correlation} {d : Channel AuditRecord} {s : Services}
      (h : x.correlation.step sender now x.channel x.services = some (c, d, s)) : Move sender ok x (x.after c d s)
  /-- Others do something. -/
  | others {d : Channel AuditRecord} {s : Services} (hd : d.received = x.channel.received) (hok : ok x.services s) :
      Move sender ok x { x with channel := d, services := s }

/-- Any number of moves of a scene. -/
def Run (sender : Sender) (ok : Services → Services → Prop) : Scene → Scene → Prop :=
  Relation.ReflTransGen (Move sender ok)

/-- The rows that are stored stay as they are. -/
def SameRows (s t : Services) : Prop := t.store.rows = s.store.rows

/-- What has been sent in a phase of a correlation, if its rows make one record. -/
def Sent (found : List StoredChange) (r : AuditRecord) : Phase → List AuditRecord → Prop
  | .sending rows, sent => rows = found ∧ sent = []
  | .settling _, sent => sent = [r]
  | .finished (.resolved _), sent => sent = [r]
  | _, sent => sent = []

/-- A correlation in the course of its work, over rows that stay as they are and with a receiver for its record. -/
structure Going (m : Marker) (content : List StoredChange) (x : Scene) : Prop where
  marker : x.correlation.marker = m
  rows : x.services.store.rows = content
  received : x.channel.received = true
  sent : Sent (recordOrder (content.filter (·.gtid == m.gtid))) (m.joined content) x.correlation.phase x.sent

/-- A correlation has resolved its marker, and sent some records. -/
def Resolves (sender : Sender) (settings : CorrelatorSettings) (m : Marker) (d : Channel AuditRecord) (s : Services)
    (sent : List AuditRecord) : Prop :=
  ∃ x n, Run sender SameRows (.start settings m d s) x ∧ x.correlation.phase = .finished (.resolved n) ∧ x.sent = sent

/-- A correlation has written its marker as deferred, with its last step, and this is what it has left. -/
def Deferred (m : Marker) (t : Services) : Prop :=
  ∃ sender settings d s x now c d', Run sender (fun _ _ => True) (.start settings m d s) x ∧
    x.services.store.failUpserts = false ∧ x.services.store.processed m.gtid = false ∧
    x.correlation.step sender now x.channel x.services = some (c, d', t) ∧ c.phase = .finished .deferred

/-- A marker can be resolved at once: some of the rows are its own, it is not processed, the store answers, and there is a receiver
for its record. -/
structure Resolvable (m : Marker) (content : List StoredChange) (d : Channel AuditRecord) (s : Services) : Prop where
  rows : s.store.rows = content
  queries : s.store.failQueries = false
  unprocessed : s.store.processed m.gtid = false
  received : d.received = true
  capacity : 0 < d.capacity

variable {sender : Sender} {settings : CorrelatorSettings} {m : Marker} {content found : List StoredChange} {x y : Scene}

/-- A step of a correlation sends the record of the rows found, once and between the look-up and the write. -/
theorem Turn.keepsSent {c c' : Correlation} {d d' : Channel AuditRecord} {s t : Services} {sent : List AuditRecord}
    (h : Turn sender c d s c' d' t) (hd : d.received = true)
    (hrows : ∀ rows, s.store.rowsOf c.marker.gtid = .ok rows → rows = found)
    (hs : Sent found (recordOf c.marker found) c.phase sent) :
    Sent found (recordOf c.marker found) c'.phase (sent ++ d.entered d') := by
  cases h with
  | closed hp hc ht => exact absurd (hc.symm.trans hd) (by decide)
  | _ => simp_all [Sent]

/-- The record of the rows that a look-up finds. -/
theorem recordOf_recordOrder (m : Marker) (content : List StoredChange) :
    recordOf m (recordOrder (content.filter (·.gtid == m.gtid))) = m.joined content := by
  rw [recordOf, AuditRecord.ofChanges, recordOrder_recordOrder]
  rfl

/-- Every move keeps a correlation going. -/
theorem Going.move (h : Going m content x) (hm : Move sender SameRows x y) : Going m content y := by
  cases hm with
  | others hd hok => exact { h with rows := hok.trans h.rows, received := hd.trans h.received }
  | @step now c d t hstep =>
    have hturn := turn_of_step hstep
    obtain ⟨rfl, rfl, hreceived, hsent⟩ := h
    have hrows : ∀ rows, x.services.store.rowsOf x.correlation.marker.gtid = .ok rows →
        rows = recordOrder (x.services.store.rows.filter (·.gtid == x.correlation.marker.gtid)) := by
      intro rows hlook
      rw [Store.rowsOf_eq_ok hlook, Store.rowsWith]
    have hstill : d.received = true := by
      cases hturn <;> exact hreceived
    rw [← recordOf_recordOrder] at hsent
    refine ⟨hturn.marker, hturn.updated.rows, hstill, ?_⟩
    rw [← recordOf_recordOrder]
    exact hturn.keepsSent hreceived hrows hsent

/-- A correlation that starts goes on over the rows that are stored, if there is a receiver. -/
theorem going_run {d : Channel AuditRecord} {s : Services} (hd : d.received = true)
    (h : Run sender SameRows (.start settings m d s) x) : Going m s.store.rows x := by
  induction h with
  | refl => exact ⟨rfl, rfl, hd, rfl⟩
  | tail _ hm ih => exact ih.move hm

/-- A correlation that resolves its marker has sent one record, with the rows that are stored. -/
theorem sent_of_resolves {d : Channel AuditRecord} {s : Services} {sent : List AuditRecord} (hd : d.received = true)
    (h : Resolves sender settings m d s sent) : sent = [m.joined s.store.rows] := by
  obtain ⟨x, n, hrun, hp, rfl⟩ := h
  have hsent := (going_run hd hrun).sent
  rw [hp] at hsent
  exact hsent

section

variable (sender : Sender) {c : Correlation} (now : Nat) {d : Channel AuditRecord} {s : Services} {rows : List StoredChange}

/-- A correlation whose marker is neither blank nor processed goes on to look for rows. -/
theorem step_starting (hp : c.phase = .starting) (hb : Text.blank c.marker.gtid = false) (hq : s.store.failQueries = false)
    (hopen : s.store.processed c.marker.gtid = false) :
    c.step sender now d s = some ({ c with phase := .looking 1 }, d, s) := by
  simp only [step, hp, begin, hb, Store.transaction_of_ok hq]
  cases hl : s.store.lookup c.marker.gtid with
  | none => rfl
  | some t =>
    have ht : t.isProcessed = false := by simpa [Store.processed, hl] using hopen
    simp [ht]

/-- A look-up finds the rows that there are. -/
theorem step_looking {attempt : Nat} (hp : c.phase = .looking attempt) (hq : s.store.failQueries = false)
    (hne : s.store.rowsWith c.marker.gtid ≠ []) :
    c.step sender now d s =
      some ({ c with phase := .sending (s.store.rowsWith c.marker.gtid) }, d, s.record .lookupAttempt) := by
  obtain ⟨r, rows, hrows⟩ := List.exists_cons_of_ne_nil hne
  simp only [step, hp, look, Services.record_store, Store.rowsOf_of_ok hq, hrows]

/-- With the delivery channel to itself, a correlation sends its record. -/
theorem step_sending (hp : c.phase = .sending rows) (hr : d.received = true) (hc : 0 < d.capacity) :
    c.step sender now (d.cleared sender) s =
      some ({ c with phase := .settling rows.length }, (d.cleared sender).push sender (recordOf c.marker rows), s) := by
  simp only [step, hp, Channel.attempt_cleared hr hc]

/-- A correlation that has sent its record is through after the write. -/
theorem step_settling {n : Nat} (hp : c.phase = .settling n) :
    ∃ t, c.step sender now d s = some ({ c with phase := .finished (.resolved n) }, d, t) :=
  ⟨_, by simp only [step, hp, finish]; rfl⟩

end

/-- A marker that can be resolved at once is so on some run. -/
theorem exists_resolves (sender : Sender) (settings : CorrelatorSettings) {d : Channel AuditRecord} {s : Services}
    (hb : Text.blank m.gtid = false) (hrows : ∃ r ∈ content, r.gtid = m.gtid) (h : Resolvable m content d s) :
    ∃ sent, Resolves sender settings m d s sent := by
  obtain ⟨r, hr, hrg⟩ := hrows
  have hne : s.store.rowsWith m.gtid ≠ [] := List.ne_nil_of_mem (Store.mem_rowsWith.2 ⟨h.rows ▸ hr, hrg⟩)
  let c (phase : Phase) : Correlation := ⟨settings, m, phase⟩
  have hbegin := step_starting sender (c := c .starting) 0 (d := d) rfl hb h.queries h.unprocessed
  have hlook := step_looking sender (c := c (.looking 1)) 0 (d := d) rfl h.queries hne
  have hclear : (d.cleared sender).received = d.received := rfl
  have hsend := step_sending sender (c := c (.sending (s.store.rowsWith m.gtid))) 0 (s := s.record .lookupAttempt) rfl
    h.received h.capacity
  obtain ⟨t, hsettle⟩ := step_settling sender (c := c (.settling (s.store.rowsWith m.gtid).length)) 0
    (d := (d.cleared sender).push sender (recordOf m (s.store.rowsWith m.gtid))) (s := s.record .lookupAttempt) rfl
  exact ⟨_, _, _, .head (.step hbegin) (.head (.step hlook) (.head (.others hclear rfl) (.head (.step hsend)
    (.single (.step hsettle))))), rfl, rfl⟩

/-- A correlation keeps its marker. -/
theorem marker_run {ok : Services → Services → Prop} (h : Run sender ok x y) :
    y.correlation.marker = x.correlation.marker := by
  induction h with
  | refl => rfl
  | tail _ hm ih =>
    cases hm with
    | step hstep => exact (turn_of_step hstep).marker.trans ih
    | others hd hok => exact ih

/-- Unless upserts fail, a marker that is not processed is found as it was written. -/
theorem lookup_write (c : Correlation) (status : Status) {s : Services} (hup : s.store.failUpserts = false)
    (hopen : s.store.processed c.marker.gtid = false) :
    (c.write status s).store.lookup c.marker.gtid = some (.ofMarker c.marker status) := by
  unfold write
  split
  · rename_i stored hu
    obtain ⟨-, rfl⟩ := Store.upsert_eq_ok hu
    simp only [Store.lookup, List.foldl_cons, List.foldl_nil, Store.find?_put, Transaction.ofMarker, if_true]
    cases hl : s.store.transactions.find? (·.gtid == c.marker.gtid) with
    | none => rfl
    | some t =>
      -- what is there is unprocessed, and no status is lower
      have ht : t.isProcessed = false := by simpa [Store.processed, Store.lookup, hl] using hopen
      obtain ⟨g, context, time, st⟩ := t
      cases st with
      | unprocessed => cases status <;> rfl
      | processed => exact absurd ht (by simp [Transaction.isProcessed])
  · rename_i e hu
    exact absurd hu (by simp [Store.upsert, hup])

/-- A deferred marker is found as unprocessed. -/
theorem lookup_of_deferred {t : Services} (h : Deferred m t) :
    t.store.lookup m.gtid = some (.ofMarker m .unprocessed) := by
  obtain ⟨sender, settings, d, s, x, now, c, d', hrun, hup, hopen, hstep, hp⟩ := h
  obtain rfl : x.correlation.marker = m := marker_run hrun
  cases turn_of_step hstep with
  | defer hphase ht => rw [ht.store, lookup_write x.correlation .unprocessed hup hopen]
  | _ => simp_all

end Correlation

/-! ## Resolved by the sweeper -/

namespace Sweep

/-- A sweep has sent some records of a GTID, however far it has come and however it ends. -/
def Retries (ok : Instant → Prop) (settings : SweeperSettings) (g : String) (x : Scene) (sent : List AuditRecord) : Prop :=
  ∃ y, Run ok { x with sweep := { settings } } y ∧ sent = y.sent.filter (·.gtid == g) ∧ sent ≠ []

/-- A deferred marker can be resolved by a sweep: it is stored as it was written then and is among the candidates, and nothing is in
the way of the sweep. -/
structure Retryable (ok : Instant → Prop) (settings : SweeperSettings) (m : Marker) (content : List StoredChange) (x : Scene) :
    Prop where
  rows : x.services.store.rows = content
  unhindered : Unhindered ok settings x
  distinct : (x.services.store.transactions.map (·.gtid)).Nodup
  deferred : ∃ t, Correlation.Deferred m t ∧ x.services.store.lookup m.gtid = t.store.lookup m.gtid
  candidate : ∀ since, ok since → ∃ t ∈ (x.services.store.openSince since).take settings.batchLimit, t.gtid = m.gtid
  unsent : x.sent = []

variable {ok : Instant → Prop} {settings : SweeperSettings} {m : Marker} {content : List StoredChange} {x y : Scene}

/-- A step with which a sweep fails sends nothing. -/
theorem sent_of_fails {w : Sweep} {d : Channel AuditRecord} {s : Services} {e : Error}
    (h : x.sweep.step .sweeper x.channel x.services = some (w, d, s)) (hp : w.phase = .finished (.error e)) :
    (x.after w d s).sent = x.sent := by
  cases turn_of_step h with
  | finish hq ht => exact x.sent_after_self _ _
  | _ => simp_all

/-- However far a sweep has come, it has sent the records of the foremost candidates that have rows. -/
theorem sent_run (hw : ok (x.services.windowStart settings)) (hr : Run ok { x with sweep := { settings } } y) :
    ∃ since taken, ok since ∧ taken <+: (x.services.store.openSince since).take settings.batchLimit ∧
      y.sent = x.sent ++ (taken.filter x.services.store.matched).map x.services.store.joined := by
  induction hr with
  | refl => exact ⟨_, [], hw, List.nil_prefix, by simp⟩
  | @tail y z hr hm ih =>
    have hgoing := (going_run hw hr).move hm
    have hlimit := hgoing.unchanged
    cases hgoing.reached with
    | starting hp ht hs => exact ⟨_, [], hw, List.nil_prefix, by simp [hs]⟩
    | listing hp hok ht hs => exact ⟨_, [], hw, List.nil_prefix, by simp [hs]⟩
    | fetching hp hok ht hs => exact ⟨_, [], hw, List.nil_prefix, by simp [hs]⟩
    | sending hp hok hsplit hrows ht hs =>
      rw [hlimit] at hsplit
      exact ⟨_, _, hok, ⟨_, hsplit.symm⟩, hs⟩
    | finished hp hok ht hs =>
      rw [hlimit] at hs
      exact ⟨_, _, hok, List.prefix_refl _, hs⟩
    | failed hp =>
      -- what it has sent, it had sent before it failed
      cases hm with
      | step hstep => exact sent_of_fails hstep hp ▸ ih
      | others hr ht hok => exact ih

/-- The candidate with the GTID of a deferred marker is the marker as it was written. -/
theorem eq_of_retryable {t : Transaction} (h : Retryable ok settings m content x)
    (ht : t ∈ x.services.store.transactions) (hg : t.gtid = m.gtid) : t = .ofMarker m .unprocessed := by
  obtain ⟨u, hdeferred, hlookup⟩ := h.deferred
  have hfound := hlookup.trans (Correlation.lookup_of_deferred hdeferred)
  have hmem : .ofMarker m .unprocessed ∈ x.services.store.transactions := List.mem_of_find?_eq_some hfound
  exact List.inj_on_of_nodup_map h.distinct ht hmem hg

/-- What a sweep sends of a deferred marker is one record, with the rows that are stored. -/
theorem sent_of_retries {sent : List AuditRecord} (h : Retryable ok settings m content x)
    (hs : Retries ok settings m.gtid x sent) : sent = [m.joined content] := by
  obtain ⟨y, hr, rfl, hne⟩ := hs
  obtain ⟨since, taken, hok, htaken, hsent⟩ := sent_run h.unhindered.window hr
  have hlisted := Store.unprocessed_of_ok h.unhindered.queries since settings.batchLimit
  have hsub : (taken.filter x.services.store.matched).Sublist ((x.services.store.openSince since).take settings.batchLimit) :=
    List.filter_sublist.trans htaken.sublist
  have hdistinct : ((taken.filter x.services.store.matched).map (·.gtid)).Nodup :=
    (Store.nodup_unprocessed hlisted h.distinct).sublist (hsub.map _)
  have hof : y.sent.filter (·.gtid == m.gtid) =
      ((taken.filter x.services.store.matched).filter (·.gtid == m.gtid)).map x.services.store.joined := by
    rw [hsent, h.unsent, List.nil_append, List.filter_map]
    rfl
  rw [hof] at hne ⊢
  obtain ⟨t, ht⟩ := List.exists_mem_of_ne_nil _ (mt (congrArg (List.map x.services.store.joined)) hne)
  obtain ⟨hmem, hg⟩ := List.mem_filter.1 ht
  replace hg : t.gtid = m.gtid := by simpa using hg
  obtain rfl := eq_of_retryable h (Store.mem_unprocessed hlisted (hsub.subset hmem)).1 hg
  have hone : (taken.filter x.services.store.matched).filter (·.gtid == m.gtid) = [.ofMarker m .unprocessed] :=
    Store.filter_eq_singleton hdistinct hmem
  rw [hone, List.map_singleton, Store.joined_ofMarker, h.rows]

/-- A sweep of a deferred marker that has rows sends a record on some run. -/
theorem exists_retries (hrows : ∃ r ∈ content, r.gtid = m.gtid) (h : Retryable ok settings m content x) :
    ∃ sent, Retries ok settings m.gtid x sent := by
  obtain ⟨y, r, hr, hp, -⟩ := getsThrough h.unhindered
  obtain ⟨since, hok, -, hsent⟩ := resolves_of_finished h.unhindered.window hr hp
  obtain ⟨t, ht, htg⟩ := h.candidate since hok
  obtain ⟨row, hrow, hrg⟩ := hrows
  have hmatched : x.services.store.matched t = true := by
    have hmem : row ∈ x.services.store.rowsWith t.gtid := Store.mem_rowsWith.2 ⟨h.rows ▸ hrow, hrg.trans htg.symm⟩
    simpa [Store.matched] using List.ne_nil_of_mem hmem
  have hmem : x.services.store.joined t ∈ y.sent := by
    rw [hsent]
    exact List.mem_append_right _ (List.mem_map_of_mem (List.mem_filter.2 ⟨ht, hmatched⟩))
  exact ⟨_, y, hr, rfl, List.ne_nil_of_mem (List.mem_filter.2 ⟨hmem, beq_iff_eq.2 htg⟩)⟩

end Sweep

/-! ## The two paths -/

/-- Whatever is stored, a look-up of several GTIDs answers about those that have rows, and about each of them what a look-up of it
alone does. And for a marker with rows there is one record: wherever the marker can be resolved at once, the correlator
sends this record and no other when it resolves it, and wherever it can be resolved after it was deferred, a sweep that sends
anything for it sends this record and no other. -/
theorem resolved_alike (content : List StoredChange) :
    (∀ s : Store, s.rows = content → s.failQueries = false → ∀ gtids, ∃ groups, s.rowsOfAll gtids = .ok groups ∧
      (groups.map (·.1)).Nodup ∧ (∀ g, g ∈ groups.map (·.1) ↔ g ∈ gtids ∧ ∃ r ∈ content, r.gtid = g) ∧
      ∀ e ∈ groups, s.rowsOf e.1 = .ok e.2) ∧
    ∀ m : Marker, Text.blank m.gtid = false → (∃ r ∈ content, r.gtid = m.gtid) →
      (∀ sender settings d s, Correlation.Resolvable m content d s → ∀ sent,
        Correlation.Resolves sender settings m d s sent ↔ sent = [m.joined content]) ∧
      ∀ ok settings x, Sweep.Retryable ok settings m content x → ∀ sent,
        Sweep.Retries ok settings m.gtid x sent ↔ sent = [m.joined content] := by
  refine ⟨?_, ?_⟩
  · rintro s rfl hq gtids
    have hall := Store.rowsOfAll_of_ok hq gtids
    refine ⟨_, hall, ?_, fun g => Store.mem_keys_rowsOfAll hall, fun e => Store.rowsOf_of_mem hall⟩
    rw [keys_grouped]
    exact AuditRecord.nodup_distinct _
  · intro m hb hrows
    refine ⟨?_, ?_⟩
    · intro sender settings d s h sent
      have honly : ∀ sent, Correlation.Resolves sender settings m d s sent → sent = [m.joined content] := by
        intro sent hs
        rw [Correlation.sent_of_resolves h.received hs, h.rows]
      obtain ⟨found, hfound⟩ := Correlation.exists_resolves sender settings hb hrows h
      exact ⟨honly sent, fun hs => hs ▸ honly found hfound ▸ hfound⟩
    · intro ok settings x h sent
      obtain ⟨found, hfound⟩ := Sweep.exists_retries hrows h
      exact ⟨Sweep.sent_of_retries h, fun hs => hs ▸ Sweep.sent_of_retries h hfound ▸ hfound⟩

namespace ReplayedRow

/-- A marker. -/
def marker : Marker := ⟨"g", "c", ⟨3, 0⟩⟩

/-- A row of its transaction. -/
def row (offset ingested : Int) : StoredChange := ⟨"g", "d", "t", .insert, ⟨1, 0⟩, ⟨none, none⟩, 0, offset, ⟨ingested, 0⟩⟩

/-- Rows of its transaction, of which one was stored again when it was replayed, and a row of another transaction. -/
def content : List StoredChange := [row 1 5, row 0 5, { row 2 5 with gtid := "other" }, row 0 7]

/-- The rows of the transaction in the order of a record: those of one place stay in the order in which they were stored. -/
theorem recordOrder_rows : recordOrder [row 1 5, row 0 5, row 0 7] = [row 0 5, row 0 7, row 1 5] := by
  have hfirst : (row 1 5).le (row 0 5) = false := by decide +kernel
  have hagain : (row 1 5).le (row 0 7) = false := by decide +kernel
  have hequal : (row 0 5).le (row 0 7) = true := by decide +kernel
  simp [recordOrder, List.mergeSort, hfirst, hagain, hequal]

/-- Nothing but the rows is stored. -/
def services : Services where store := { rows := content }

/-- The marker was deferred before the rows were stored. -/
def later : Sweep.Scene where
  sweep := { settings := {} }
  channel := .ofCapacity 1
  services := { store := { rows := content, transactions := [.ofMarker marker .unprocessed] } }

/-- The correlation of the marker that finds nothing to join. -/
def correlation (phase : Correlation.Phase) : Correlation := ⟨{ maxAttempts := 1 }, marker, phase⟩

/-- The marker is deferred after one look-up in an empty store. -/
theorem deferred : ∃ t, Correlation.Deferred marker t := by
  have hbegin : (correlation .starting).step .correlator 0 (.ofCapacity 1) {} =
      some (correlation (.looking 1), .ofCapacity 1, {}) := by decide +kernel
  have hlook : (correlation (.looking 1)).step .correlator 0 (.ofCapacity 1) {} =
      some (correlation .deferring, .ofCapacity 1, Services.record {} .lookupAttempt) := by decide +kernel
  obtain ⟨t, hdefer⟩ : ∃ t, (correlation .deferring).step .correlator 0 (.ofCapacity 1) (Services.record {} .lookupAttempt) =
      some (correlation (.finished .deferred), .ofCapacity 1, t) := ⟨_, rfl⟩
  exact ⟨t, _, _, _, _, _, _, _, _, .head (.step hbegin) (.single (.step hlook)), rfl, rfl, hdefer, rfl⟩

/-- A sweep can resolve it. -/
theorem retryable : Sweep.Retryable (· ≤ marker.commitTime) {} marker content later := by
  have hlookback : 72 * 3600 ≤ Sweep.greatestLookback := by decide
  have hwindow : later.services.windowStart {} ≤ marker.commitTime := by decide
  obtain ⟨t, ht⟩ := deferred
  refine ⟨rfl, ⟨hlookback, rfl, rfl, rfl, Nat.one_pos, hwindow⟩, by simp [later], ⟨t, ht, ?_⟩, ?_, rfl⟩
  · rw [Correlation.lookup_of_deferred ht]
    rfl
  · intro since hsince
    have hopen : later.services.store.openSince since = [.ofMarker marker .unprocessed] := by
      have hfilter : (later.services.store.transactions.filter fun t => !t.isProcessed && since ≤ t.commitTime) =
          [.ofMarker marker .unprocessed] := by
        simpa [later, Transaction.ofMarker, Transaction.isProcessed] using hsince
      rw [Store.openSince, hfilter, List.mergeSort_singleton]
    exact ⟨.ofMarker marker .unprocessed, by simp [hopen], rfl⟩

end ReplayedRow

/-- A row that was stored twice is twice in the record, in the order in which it was stored, on either path. -/
theorem resolved_alike_replayed :
    let record : AuditRecord :=
      ⟨"g", "c", ⟨3, 0⟩, [ReplayedRow.row 0 5, ReplayedRow.row 0 7, ReplayedRow.row 1 5]⟩
    Correlation.Resolves .correlator {} ReplayedRow.marker (.ofCapacity 1) ReplayedRow.services [record] ∧
      Sweep.Retries (· ≤ ReplayedRow.marker.commitTime) {} "g" ReplayedRow.later [record] := by
  intro record
  have hrecord : ReplayedRow.marker.joined ReplayedRow.content = record := by
    have hof : ReplayedRow.content.filter (·.gtid == ReplayedRow.marker.gtid) =
        [ReplayedRow.row 1 5, ReplayedRow.row 0 5, ReplayedRow.row 0 7] := by decide
    rw [Marker.joined, hof, ReplayedRow.recordOrder_rows]
    rfl
  have hrows : ∃ r ∈ ReplayedRow.content, r.gtid = ReplayedRow.marker.gtid := ⟨_, List.mem_cons_self, rfl⟩
  obtain ⟨hnow, hlater⟩ := (resolved_alike ReplayedRow.content).2 ReplayedRow.marker (by decide) hrows
  rw [← hrecord]
  exact ⟨(hnow .correlator {} (.ofCapacity 1) ReplayedRow.services ⟨rfl, rfl, rfl, rfl, Nat.one_pos⟩ _).2 rfl,
    (hlater _ _ _ ReplayedRow.retryable _).2 rfl⟩

end AuditTrail
