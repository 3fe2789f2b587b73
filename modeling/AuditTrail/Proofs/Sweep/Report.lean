import AuditTrail.Proofs.Sweep.Backlog

/-!
# What a sweep does and reports

A sweep that nobody else's writes come between is determined by what the store holds when it begins and by the clock at that
moment (`swept_exactly`). Its candidates are the newest unprocessed transactions of its window, up to its limit. It sends one
record for each of them that has rows, the newest first, then writes exactly these as processed, with one write or with none,
and it reports their number. If it fails at any point, the store holds what it held.

While a sweep is at work, calls of the store may begin to fail or cease to, records are taken out of the delivery channel or
its receiver goes, and the clock goes on.
-/

namespace AuditTrail

namespace Store

/-- What a store holds, whichever of its calls fail. -/
def content (s : Store) : Store := { s with failInserts := false, failQueries := false, failUpserts := false }

/-- The unprocessed transactions committed at or after an instant. -/
def window (s : Store) (since : Instant) : List Transaction :=
  s.transactions.filter fun t => !t.isProcessed && since ≤ t.commitTime

/-- The unprocessed transactions committed before an instant. -/
def beyond (s : Store) (since : Instant) : List Transaction :=
  s.transactions.filter fun t => !t.isProcessed && t.commitTime < since

/-- The store in which some of its transactions are processed, and nothing else is changed. They are written at once, if there are
any. -/
def settled (s : Store) (done : List Transaction) : Store :=
  { s with
    transactions := s.transactions.map fun t => if t ∈ done then t.toProcessed else t
    upsertBatches := s.upsertBatches + if done = [] then 0 else 1 }

end Store

/-- Some transactions are the newest of a list, up to a number, and the newest of them come first. -/
structure Newest (limit : Nat) (ts chosen : List Transaction) : Prop where
  count : chosen.length = min limit ts.length
  inOrder : chosen.Pairwise fun a b => b.commitTime ≤ a.commitTime
  others : ∃ rest, ts.Perm (chosen ++ rest) ∧ ∀ t ∈ chosen, ∀ u ∈ rest, u.commitTime ≤ t.commitTime

namespace Sweep

/-- One move of a scene in which nobody else writes to the store. -/
inductive Alone (sender : Sender) (x : Scene) : Scene → Prop where
  /-- The sweep takes a step. -/
  | step {w : Sweep} {d : Channel AuditRecord} {s : Services}
      (h : x.sweep.step sender x.channel x.services = some (w, d, s)) : Alone sender x (x.after w d s)
  /-- Others do something. -/
  | others {d : Channel AuditRecord} {s : Services} (h : s.store.content = x.services.store.content) :
      Alone sender x { x with channel := d, services := s }

/-- A sweep begins at once, and goes on with nobody else writing to the store. -/
def Cycle (sender : Sender) (x y : Scene) : Prop :=
  ∃ w d s, x.sweep.step sender x.channel x.services = some (w, d, s) ∧
    Relation.ReflTransGen (Alone sender) (x.after w d s) y

/-- How far a sweep has come, and what has been sent and written by then. It has begun with a store and in a window; `abandoned`
is what it has counted. -/
inductive Stage (s : Store) (since : Instant) (limit : Nat) (abandoned : Option Nat) :
    Phase → List AuditRecord → Store → Prop where
  /-- It is about to load its candidates. -/
  | listing {t : Store} (ht : t.content = s.content) : Stage s since limit abandoned (.listing since abandoned) [] t
  /-- It is about to read their rows. -/
  | fetching {t : Store} (ht : t.content = s.content) :
      Stage s since limit abandoned (.fetching ((s.openSince since).take limit) abandoned) [] t
  /-- It has gone through the first of them, and sent a record for those that have rows. -/
  | sending {t : Store} {rows : List (String × List StoredChange)} {taken rest : List Transaction}
      (ht : t.content = s.content) (hsplit : (s.openSince since).take limit = taken ++ rest)
      (hrows : ∀ u ∈ rest, rows.lookup u.gtid = if s.rowsWith u.gtid = [] then none else some (s.rowsWith u.gtid)) :
      Stage s since limit abandoned
        (.sending ⟨((s.openSince since).take limit).length, 0, abandoned⟩ rows rest (taken.filter s.matched))
        ((taken.filter s.matched).map s.joined) t
  /-- It is through: the transactions are written. -/
  | finished {t : Store} (ht : t.content = (s.settled (s.resolvable since limit)).content) :
      Stage s since limit abandoned
        (.finished (.ok ⟨((s.openSince since).take limit).length, (s.resolvable since limit).length, abandoned⟩))
        ((s.resolvable since limit).map s.joined) t
  /-- It has failed: nothing is written. -/
  | failed {t : Store} {taken : List Transaction} (e : Error) (ht : t.content = s.content)
      (htaken : taken <+: (s.openSince since).take limit) :
      Stage s since limit abandoned (.finished (.error e)) ((taken.filter s.matched).map s.joined) t

namespace ReportAux

/-! ### What a store holds -/

theorem rows_of_content {s t : Store} (h : t.content = s.content) : t.rows = s.rows := congrArg (·.rows) h

theorem transactions_of_content {s t : Store} (h : t.content = s.content) : t.transactions = s.transactions :=
  congrArg (·.transactions) h

/-- What is written of a transaction is its processed version, wherever the transaction is there. -/
theorem put_toProcessed {a : Transaction} {ts : List Transaction} (hd : (ts.map (·.gtid)).Nodup)
    (hmem : a.gtid ∈ ts.map (·.gtid)) (hsame : ∀ u ∈ ts, u.gtid = a.gtid → u.toProcessed = a.toProcessed) :
    Store.put a.toProcessed ts = ts.map fun u => if u.gtid = a.gtid then u.toProcessed else u := by
  induction ts with
  | nil => exact absurd hmem List.not_mem_nil
  | cons u ts ih =>
    rw [List.map_cons, List.nodup_cons] at hd
    rw [Store.put, List.map_cons]
    change (if u.gtid = a.gtid then _ else _) = _
    by_cases hu : u.gtid = a.gtid
    · have hle : ¬a.toProcessed.status.code < u.status.code := by
        cases hs : u.status <;> simp [Transaction.toProcessed, Status.code]
      have hrest : ts.map (fun u => if u.gtid = a.gtid then u.toProcessed else u) = ts := by
        refine (List.map_congr_left fun v hv => if_neg fun hva => ?_).trans ts.map_id
        exact hd.1 (hu.trans hva.symm ▸ List.mem_map_of_mem hv)
      rw [if_pos hu, if_neg hle, if_pos hu, hrest, hsame u List.mem_cons_self hu]
    · rw [if_neg hu, if_neg hu, ih hd.2]
      · rcases List.mem_cons.1 hmem with he | he
        · exact absurd he.symm hu
        · exact he
      · exact fun v hv => hsame v (List.mem_cons_of_mem u hv)

/-- What is written of several transactions are their processed versions, wherever these are there. -/
theorem foldl_put {chosen ts : List Transaction} (hd : (ts.map (·.gtid)).Nodup)
    (hmem : ∀ a ∈ chosen, a.gtid ∈ ts.map (·.gtid))
    (hsame : ∀ a ∈ chosen, ∀ u ∈ ts, u.gtid = a.gtid → u.toProcessed = a.toProcessed) :
    (chosen.map (·.toProcessed)).foldl (fun acc u => Store.put u acc) ts =
      ts.map fun u => if u.gtid ∈ chosen.map (·.gtid) then u.toProcessed else u := by
  induction chosen generalizing ts with
  | nil => simp
  | cons a chosen ih =>
    let written (u : Transaction) : Transaction := if u.gtid = a.gtid then u.toProcessed else u
    have hgtid (u : Transaction) : (written u).gtid = u.gtid := by
      by_cases h : u.gtid = a.gtid <;> simp [written, h, Transaction.toProcessed]
    have hagain (u : Transaction) : (written u).toProcessed = u.toProcessed := by
      by_cases h : u.gtid = a.gtid <;> simp [written, h, Transaction.toProcessed]
    have hgtids : (ts.map written).map (·.gtid) = ts.map (·.gtid) := by
      rw [List.map_map]
      exact List.map_congr_left fun u _ => hgtid u
    rw [List.map_cons, List.foldl_cons,
      put_toProcessed hd (hmem a List.mem_cons_self) (hsame a List.mem_cons_self)]
    change (chosen.map (·.toProcessed)).foldl (fun acc u => Store.put u acc) (ts.map written) = _
    rw [ih (hgtids ▸ hd) (fun b hb => hgtids ▸ hmem b (List.mem_cons_of_mem a hb)), List.map_map]
    · refine List.map_congr_left fun u _ => ?_
      simp only [Function.comp_apply, hgtid, hagain, List.map_cons, List.mem_cons]
      by_cases hc : u.gtid ∈ chosen.map (·.gtid)
      · rw [if_pos hc, if_pos (.inr hc)]
      · simp only [hc, or_false, if_false, written]
    · intro b hb v hv hvb
      obtain ⟨u, hu, rfl⟩ := List.mem_map.1 hv
      rw [hagain]
      exact hsame b (List.mem_cons_of_mem a hb) u hu ((hgtid u).symm.trans hvb)

/-- Writing some of the transactions as processed settles the store. -/
theorem content_upsert {s t : Store} (ht : t.content = s.content) (hd : (s.transactions.map (·.gtid)).Nodup)
    {done : List Transaction} (hsub : ∀ a ∈ done, a ∈ s.transactions) (hne : done ≠ []) {stored : Store}
    (h : t.upsert (done.map (·.toProcessed)) = .ok stored) : stored.content = (s.settled done).content := by
  obtain ⟨-, rfl⟩ := Store.upsert_eq_ok h
  have hmap : s.transactions.map (fun u => if u.gtid ∈ done.map (·.gtid) then u.toProcessed else u) =
      s.transactions.map fun u => if u ∈ done then u.toProcessed else u := by
    refine List.map_congr_left fun u hu => ?_
    have hiff : u.gtid ∈ done.map (·.gtid) ↔ u ∈ done := by
      refine ⟨fun hg => ?_, List.mem_map_of_mem⟩
      obtain ⟨a, ha, hau⟩ := List.mem_map.1 hg
      exact List.inj_on_of_nodup_map hd (hsub a ha) hu hau ▸ ha
    simp only [hiff]
  have hwritten := foldl_put hd (fun a ha => List.mem_map_of_mem (hsub a ha)) fun a ha u hu hg =>
    congrArg _ (List.inj_on_of_nodup_map hd hu (hsub a ha) hg)
  rw [hmap] at hwritten
  have hbatches : t.upsertBatches = s.upsertBatches := congrArg (·.upsertBatches) ht
  have hinserts : t.insertBatches = s.insertBatches := congrArg (·.insertBatches) ht
  simp only [Store.content, Store.settled, hne, if_false, rows_of_content ht, transactions_of_content ht, hbatches, hinserts,
    hwritten]

/-- Where there is nothing to write, the store is settled as it is. -/
theorem content_settled_nil (s : Store) : (s.settled []).content = s.content := by
  simp [Store.settled, Store.content]

/-! ### The candidates -/

/-- What a sweep loads are the newest transactions of its window. -/
theorem newest_take (s : Store) (since : Instant) (limit : Nat) :
    Newest limit (s.window since) ((s.openSince since).take limit) := by
  have hperm : (s.openSince since).Perm (s.window since) := List.mergeSort_perm _ _
  have hsorted := BacklogAux.sorted_openSince s since
  refine ⟨?_, hsorted.sublist (List.take_sublist _ _), (s.openSince since).drop limit, ?_, ?_⟩
  · rw [List.length_take, hperm.length_eq]
  · rw [List.take_append_drop]
    exact hperm.symm
  · rw [← List.take_append_drop limit (s.openSince since)] at hsorted
    exact (List.pairwise_append.1 hsorted).2.2

/-- What a sweep resolves is stored. -/
theorem mem_of_resolvable {s : Store} {since : Instant} {limit : Nat} {t : Transaction}
    (h : t ∈ s.resolvable since limit) : t ∈ s.transactions :=
  List.mem_of_mem_filter (List.mem_mergeSort.1 (List.mem_of_mem_take (List.mem_of_mem_filter h)))

/-! ### The steps -/

variable {sender : Sender} {s : Store} {since : Instant} {limit : Nat} {abandoned : Option Nat} {w w' : Sweep}
  {d d' : Channel AuditRecord} {t u : Services}

/-- A failure before anything is sent. -/
theorem stage_failed (e : Error) (ht : t.store.content = s.content) :
    Stage s since limit abandoned (.finished (.error e)) [] t.store := by
  have hnone : ([] : List Transaction) <+: (s.openSince since).take limit := List.nil_prefix
  exact .failed e ht hnone

/-- Loading the candidates. -/
theorem stage_list (hlimit : w.settings.batchLimit = limit) (ht : t.store.content = s.content) :
    Stage s since limit abandoned (w.list since abandoned t).1.phase [] (w.list since abandoned t).2.store := by
  have hfound : ∀ candidates, t.store.unprocessed since w.settings.batchLimit = .ok candidates →
      (s.openSince since).take limit = candidates := by
    intro candidates hc
    rw [← CycleAux.openSince_of_eq (transactions_of_content ht), ← hlimit]
    exact Except.ok.inj (Store.checkQueries_bind hc).2
  unfold list
  split
  · rename_i e _
    exact stage_failed e ht
  · rename_i hc
    have hnone := hfound _ hc
    have hresolved : s.resolvable since limit = [] := by rw [Store.resolvable, hnone, List.filter_nil]
    have hend : t.store.content = (s.settled (s.resolvable since limit)).content := by
      rw [hresolved, content_settled_nil, ht]
    have h : Stage s since limit abandoned _ _ _ := .finished hend
    rw [hnone, hresolved] at h
    exact h
  · rename_i candidates _ hc
    rw [← hfound _ hc]
    exact .fetching ht

/-- Reading the rows of the candidates. -/
theorem stage_fetch (ht : t.store.content = s.content) :
    Stage s since limit abandoned (w.fetch ((s.openSince since).take limit) abandoned t).phase [] t.store := by
  unfold fetch
  split
  · rename_i e _
    exact stage_failed e ht
  · rename_i rows hrows
    have hall : (s.openSince since).take limit = [] ++ (s.openSince since).take limit := rfl
    refine .sending ht hall fun u hu => ?_
    rw [← CycleAux.rowsWith_of_eq (rows_of_content ht)]
    exact Store.lookup_rowsOfAll hrows (List.mem_map_of_mem hu)

/-- Writing what has been sent. -/
theorem stage_settle (hd : (s.transactions.map (·.gtid)).Nodup) (ht : t.store.content = s.content) :
    Stage s since limit abandoned
      (w.settle ⟨((s.openSince since).take limit).length, 0, abandoned⟩ (s.resolvable since limit) t).1.phase
      ((s.resolvable since limit).map s.joined)
      (w.settle ⟨((s.openSince since).take limit).length, 0, abandoned⟩ (s.resolvable since limit) t).2.store := by
  unfold settle
  split
  · rename_i hnone
    have hresolved : s.resolvable since limit = [] := List.isEmpty_iff.1 hnone
    have hend : t.store.content = (s.settled (s.resolvable since limit)).content := by
      rw [hresolved, content_settled_nil, ht]
    have h : Stage s since limit abandoned _ _ _ := .finished hend
    rw [hresolved] at h ⊢
    exact h
  · rename_i hsome
    split
    · rename_i e _
      exact .failed e ht (List.prefix_refl _)
    · rename_i stored hu
      have hne : s.resolvable since limit ≠ [] := fun h => hsome (List.isEmpty_iff.2 h)
      exact .finished (content_upsert ht hd (fun a => mem_of_resolvable) hne hu)

/-- Passing over a candidate, or sending its record, or failing to. -/
theorem stage_send {x : Scene} {rows : List (String × List StoredChange)} {a : Transaction} {taken rest : List Transaction}
    (hstep : x.sweep.step sender x.channel x.services = some (w, d, u))
    (hp : x.sweep.phase = .sending ⟨((s.openSince since).take limit).length, 0, abandoned⟩ rows (a :: rest)
      (taken.filter s.matched))
    (ht : x.services.store.content = s.content) (hsplit : (s.openSince since).take limit = taken ++ a :: rest)
    (hrows : ∀ u ∈ a :: rest, rows.lookup u.gtid = if s.rowsWith u.gtid = [] then none else some (s.rowsWith u.gtid))
    (hsent : x.sent = (taken.filter s.matched).map s.joined) :
    Stage s since limit abandoned w.phase (x.after w d u).sent u.store := by
  have hnext : (s.openSince since).take limit = (taken ++ [a]) ++ rest := by rw [hsplit, List.append_assoc]; rfl
  have hrest : ∀ u ∈ rest, rows.lookup u.gtid = if s.rowsWith u.gtid = [] then none else some (s.rowsWith u.gtid) :=
    fun u hu => hrows u (List.mem_cons_of_mem a hu)
  have hlook := hrows a List.mem_cons_self
  simp only [step, hp] at hstep
  by_cases hnone : s.rowsWith a.gtid = []
  · have hpast : (taken ++ [a]).filter s.matched = taken.filter s.matched := by simp [Store.matched, hnone]
    rw [if_pos hnone] at hlook
    rw [hlook] at hstep
    cases hstep
    rw [Scene.sent_after_self, hsent, ← hpast]
    exact .sending ht hnext hrest
  · have hpast : (taken ++ [a]).filter s.matched = taken.filter s.matched ++ [a] := by simp [Store.matched, hnone]
    rw [if_neg hnone] at hlook
    rw [hlook] at hstep
    simp only at hstep
    split at hstep
    · cases hstep
      rw [Scene.sent_after_self, hsent]
      exact .failed _ ht ⟨a :: rest, hsplit.symm⟩
    · rename_i c hjoin
      cases hstep
      rw [hp, Scene.after, (Channel.attempt_joined hjoin).2, Channel.entered_join, List.append_nil, hsent]
      exact .sending ht hsplit hrows
    · rename_i c hput
      cases hstep
      have hnow : (x.after { x.sweep with
          phase := .sending ⟨((s.openSince since).take limit).length, 0, abandoned⟩ rows rest
            (taken.filter s.matched ++ [a]) } d x.services).sent = ((taken ++ [a]).filter s.matched).map s.joined := by
        rw [Scene.after, (Channel.attempt_sent hput).2, Channel.entered_push, hsent, hpast, List.map_append]
        rfl
      rw [hnow, ← hpast]
      exact .sending ht hnext hrest
    · cases hstep

end ReportAux

open ReportAux

section

variable {sender : Sender} {s : Store} {since : Instant} {limit : Nat} {abandoned : Option Nat} {x y : Scene}

/-- Every step of a sweep brings it to its next stage. -/
theorem Stage.step {w : Sweep} {d : Channel AuditRecord} {u : Services}
    (h : Stage s since limit abandoned x.sweep.phase x.sent x.services.store)
    (hd : (s.transactions.map (·.gtid)).Nodup) (hlimit : x.sweep.settings.batchLimit = limit)
    (hstep : x.sweep.step sender x.channel x.services = some (w, d, u)) :
    Stage s since limit abandoned w.phase (x.after w d u).sent u.store := by
  generalize hp : x.sweep.phase = phase at h
  generalize hsent : x.sent = sent at h
  generalize hstore : x.services.store = store at h
  cases h with
  | listing ht =>
    subst hstore
    simp only [Sweep.step, hp] at hstep
    cases hstep
    rw [Scene.sent_after_self, hsent]
    exact stage_list hlimit ht
  | fetching ht =>
    subst hstore
    simp only [Sweep.step, hp] at hstep
    cases hstep
    rw [Scene.sent_after_self, hsent]
    exact stage_fetch ht
  | @sending _ rows taken rest ht hsplit hrows =>
    subst hstore
    cases rest with
    | nil =>
      have hall : s.resolvable since limit = taken.filter s.matched := by
        rw [Store.resolvable, hsplit, List.append_nil]
      rw [← hall] at hp hsent
      simp only [Sweep.step, hp] at hstep
      cases hstep
      rw [Scene.sent_after_self, hsent]
      exact stage_settle hd ht
    | cons a rest => exact stage_send hstep hp ht hsplit hrows hsent
  | finished ht => simp [Sweep.step, hp] at hstep
  | failed e ht htaken => simp [Sweep.step, hp] at hstep

/-- What others do leaves a sweep at its stage. -/
theorem Stage.others {phase : Phase} {sent : List AuditRecord} {t u : Store}
    (h : Stage s since limit abandoned phase sent t) (hu : u.content = t.content) :
    Stage s since limit abandoned phase sent u := by
  cases h with
  | listing ht => exact .listing (hu.trans ht)
  | fetching ht => exact .fetching (hu.trans ht)
  | sending ht hsplit hrows => exact .sending (hu.trans ht) hsplit hrows
  | finished ht => exact .finished (hu.trans ht)
  | failed e ht htaken => exact .failed e (hu.trans ht) htaken

end

/-- A sweep that is about to begin. -/
def Scene.start (settings : SweeperSettings) (d : Channel AuditRecord) (t : Services) : Scene :=
  { sweep := { settings }, channel := d, services := t }

/-- How many transactions a sweep counts as too old, if the store answers. -/
def counted (t : Services) (since : Instant) : Option Nat :=
  if t.store.failQueries then none else some (t.store.beyond since).length

namespace ReportAux

variable {sender : Sender} {settings : SweeperSettings} {d : Channel AuditRecord} {t : Services} {x y : Scene}

/-- What a sweep counts at its beginning. -/
theorem countAbandoned_eq (since : Instant) (t : Services) : (countAbandoned since t).1 = counted t since := by
  cases h : t.store.failQueries <;>
    simp [countAbandoned, Store.countBefore, Store.checkQueries, counted, Store.beyond, h, bind, Except.bind, pure, Except.pure]

/-- Fixing the window. -/
theorem stage_begin (w : Sweep) (t : Services) :
    Stage t.store (t.windowStart w.settings) w.settings.batchLimit (counted t (t.windowStart w.settings))
      (w.begin t).1.phase [] (w.begin t).2.store := by
  unfold begin
  split
  · exact stage_failed _ rfl
  · rw [← countAbandoned_eq]
    exact .listing (congrArg Store.content (TurnAux.counted_countAbandoned _ t).store)

/-- Every sweep is at some stage. -/
theorem stage_cycle (hd : (t.store.transactions.map (·.gtid)).Nodup) (h : Cycle sender (.start settings d t) y) :
    y.sweep.settings = settings ∧
      Stage t.store (t.windowStart settings) settings.batchLimit (counted t (t.windowStart settings)) y.sweep.phase y.sent
        y.services.store := by
  obtain ⟨w, d', u, hbegin, hrun⟩ := h
  induction hrun with
  | refl =>
    refine ⟨CycleAux.settings_of_turn (turn_of_step hbegin), ?_⟩
    simp only [Scene.start, step] at hbegin
    cases hbegin
    have hsent := (Scene.start settings d t).sent_after_self (({ settings } : Sweep).begin t).1 (({ settings } : Sweep).begin t).2
    simp only [Scene.start] at hsent
    rw [Scene.start, hsent]
    exact stage_begin { settings } t
  | tail _ hm ih =>
    obtain ⟨hsame, hstage⟩ := ih
    cases hm with
    | step hstep =>
      exact ⟨(CycleAux.settings_of_turn (turn_of_step hstep)).trans hsame, hstage.step hd (hsame ▸ rfl) hstep⟩
    | others hu => exact ⟨hsame, hstage.others hu⟩

/-! ### That a sweep comes to its end -/

/-- Nothing is in the way of a sweep: the store answers and can be written, and there is a receiver for records. -/
structure Clear (x : Scene) : Prop where
  queries : x.services.store.failQueries = false
  upserts : x.services.store.failUpserts = false
  received : x.channel.received = true
  capacity : 0 < x.channel.capacity

/-- A sweep can come to its end without an error. -/
def Ends (sender : Sender) (x : Scene) : Prop :=
  ∃ y r, Relation.ReflTransGen (Alone sender) x y ∧ y.sweep.phase = .finished (.ok r)

/-- What can come to its end after a step can do so before. -/
theorem Ends.of_step {w : Sweep} {d : Channel AuditRecord} {u : Services}
    (hstep : x.sweep.step sender x.channel x.services = some (w, d, u)) (h : Ends sender (x.after w d u)) :
    Ends sender x := by
  obtain ⟨y, r, hr, hp⟩ := h
  exact ⟨y, r, .head (.step hstep) hr, hp⟩

/-- A sweep that sends can come to its end: whatever waits in the channel is taken out of it. -/
theorem ends_sending {r : SweepReport} {rows : List (String × List StoredChange)} {rest done : List Transaction}
    (hx : Clear x) (hp : x.sweep.phase = .sending r rows rest done) : Ends sender x := by
  induction rest generalizing x done with
  | nil =>
    obtain ⟨r', hr'⟩ := CycleAux.exists_settled x.sweep r done hx.upserts
    refine Ends.of_step (by simp only [step, hp]; rfl) ?_
    exact ⟨_, r', .refl, hr'⟩
  | cons a rest ih =>
    cases hl : rows.lookup a.gtid with
    | none =>
      refine Ends.of_step (by simp only [step, hp, hl]; rfl) ?_
      exact ih ⟨hx.queries, hx.upserts, hx.received, hx.capacity⟩ rfl
    | some changes =>
      have hnext : Ends sender { x with channel := x.channel.cleared sender } := by
        refine Ends.of_step
          (by simp only [step, hp, hl, Channel.attempt_cleared hx.received hx.capacity]; rfl) ?_
        exact ih ⟨hx.queries, hx.upserts, hx.received, hx.capacity⟩ rfl
      obtain ⟨y, r', hr, hp'⟩ := hnext
      exact ⟨y, r', .head (.others rfl) hr, hp'⟩

/-- A sweep that has its candidates can come to its end. -/
theorem ends_fetching {candidates : List Transaction} {abandoned : Option Nat} (hx : Clear x)
    (hp : x.sweep.phase = .fetching candidates abandoned) : Ends sender x := by
  refine Ends.of_step (by simp only [step, hp, fetch, Store.rowsOfAll_of_ok hx.queries]; rfl) ?_
  exact ends_sending ⟨hx.queries, hx.upserts, hx.received, hx.capacity⟩ rfl

/-- A sweep that has fixed its window can come to its end. -/
theorem ends_listing {since : Instant} {abandoned : Option Nat} (hx : Clear x)
    (hp : x.sweep.phase = .listing since abandoned) : Ends sender x := by
  have hlist := Store.unprocessed_of_ok hx.queries since x.sweep.settings.batchLimit
  cases hc : (x.services.store.openSince since).take x.sweep.settings.batchLimit with
  | nil =>
    rw [hc] at hlist
    refine Ends.of_step (by simp only [step, hp, list, hlist]; rfl) ?_
    exact ⟨_, _, .refl, rfl⟩
  | cons a candidates =>
    rw [hc] at hlist
    refine Ends.of_step (by simp only [step, hp, list, hlist]; rfl) ?_
    exact ends_fetching ⟨hx.queries, hx.upserts, hx.received, hx.capacity⟩ rfl

/-- A sweep with nothing in its way can come to its end. -/
theorem exists_cycle (hx : Clear (.start settings d t)) (hrange : settings.lookback ≤ greatestLookback) :
    ∃ y r, Cycle sender (.start settings d t) y ∧ y.sweep.phase = .finished (.ok r) := by
  have hle : ¬greatestLookback < settings.lookback := Nat.not_lt.2 hrange
  have hstore := (TurnAux.counted_countAbandoned (t.windowStart settings) t).store
  have hstep : ({ settings } : Sweep).step sender d t =
      some ({ settings, phase := .listing (t.windowStart settings) (countAbandoned (t.windowStart settings) t).1 }, d,
        (countAbandoned (t.windowStart settings) t).2) := by
    simp only [step, begin, if_neg hle]
    rfl
  have hnext : Ends sender ((Scene.start settings d t).after
      { settings, phase := .listing (t.windowStart settings) (countAbandoned (t.windowStart settings) t).1 } d
      (countAbandoned (t.windowStart settings) t).2) := by
    refine ends_listing ⟨?_, ?_, hx.received, hx.capacity⟩ rfl
    · exact (congrArg Store.failQueries hstore).trans hx.queries
    · exact (congrArg Store.failUpserts hstore).trans hx.upserts
  obtain ⟨y, r, hr, hp⟩ := hnext
  exact ⟨y, r, ⟨_, _, _, hstep, hr⟩, hp⟩

/-- The record of a transaction, as the sweep makes it of the rows that were read. -/
theorem joined_eq (s : Store) (c : Transaction) :
    s.joined c = ⟨c.gtid, c.context, c.commitTime, recordOrder (s.rows.filter (·.gtid == c.gtid))⟩ := by
  rw [Store.joined, Store.rowsWith, AuditRecord.ofTransaction, AuditRecord.ofChanges, recordOrder_recordOrder]

/-- A transaction has rows if some row has its GTID. -/
theorem matched_eq (s : Store) : s.matched = fun c => s.rows.any (·.gtid == c.gtid) := by
  funext c
  rw [Store.matched, Store.rowsWith, Bool.eq_iff_iff]
  simp [recordOrder_eq_nil]

/-- An unprocessed transaction is in the window or beyond it, and never both. -/
theorem window_xor_beyond (s : Store) (since : Instant) {c : Transaction} (hc : c ∈ s.transactions)
    (hu : c.isProcessed = false) : Xor (c ∈ s.window since) (c ∈ s.beyond since) := by
  simp only [Store.window, Store.beyond, List.mem_filter, hc, hu, true_and, Bool.not_false, Bool.true_and, decide_eq_true_eq,
    Instant.lt_iff_not_le]
  by_cases h : since ≤ c.commitTime <;> simp [Xor, h]

end ReportAux

open ReportAux

/-- What a sweep does that nobody else's writes come between, for every content of the store, every clock, lookback and limit.
There are candidates, the newest unprocessed transactions of the window up to the limit. When the sweep ends without an error, it
has sent one record for each candidate with rows, in their order, the store is as it was but for these being processed, and the
report tells their numbers and how many unprocessed transactions are too old. When it ends by an error, the store is as it was,
and records have been sent for the first of these candidates only. With nothing in its way it does end without an error. And
every unprocessed transaction is in the window or too old, and never both. -/
theorem swept_exactly (sender : Sender) (settings : SweeperSettings) (d : Channel AuditRecord) (t : Services)
    (hd : (t.store.transactions.map (·.gtid)).Nodup) :
    let s := t.store
    let since := t.windowStart settings
    let record (c : Transaction) : AuditRecord :=
      ⟨c.gtid, c.context, c.commitTime, recordOrder (s.rows.filter (·.gtid == c.gtid))⟩
    (∃ candidates, Newest settings.batchLimit (s.window since) candidates ∧
      let joined := candidates.filter fun c => s.rows.any (·.gtid == c.gtid)
      ∀ y, Cycle sender (.start settings d t) y →
        (∀ r, y.sweep.phase = .finished (.ok r) →
          y.sent = joined.map record ∧ y.services.store.content = (s.settled joined).content ∧
          r.candidates = candidates.length ∧ r.resolved = joined.length ∧
          r.abandoned = if s.failQueries then none else some (s.beyond since).length) ∧
        (∀ e, y.sweep.phase = .finished (.error e) →
          y.services.store.content = s.content ∧ ∃ sent, sent <+: joined ∧ y.sent = sent.map record)) ∧
    (settings.lookback ≤ greatestLookback → s.failQueries = false → s.failUpserts = false → d.received = true →
      0 < d.capacity → ∃ y r, Cycle sender (.start settings d t) y ∧ y.sweep.phase = .finished (.ok r)) ∧
    ∀ c ∈ s.transactions, c.isProcessed = false → Xor (c ∈ s.window since) (c ∈ s.beyond since) := by
  intro s since record
  have hrecord : s.joined = record := funext (joined_eq s)
  refine ⟨⟨(s.openSince since).take settings.batchLimit, newest_take s since settings.batchLimit, fun y hy => ?_⟩, ?_, ?_⟩
  · obtain ⟨-, hstage⟩ := stage_cycle hd hy
    rw [← matched_eq s, ← hrecord]
    refine ⟨fun r hr => ?_, fun e he => ?_⟩
    · rw [hr] at hstage
      generalize hsent : y.sent = sent at hstage
      cases hstage with
      | finished ht => exact ⟨rfl, ht, rfl, rfl, rfl⟩
    · rw [he] at hstage
      generalize hsent : y.sent = sent at hstage
      cases hstage with
      | @failed _ taken _ ht htaken => exact ⟨ht, _, htaken.filter _, rfl⟩
  · exact fun hrange hq hu hr hc => exists_cycle ⟨hq, hu, hr, hc⟩ hrange
  · exact fun c hc hu => window_xor_beyond s since hc hu

namespace OneOfThree

/-- A row of a transaction. -/
def row (g : String) : StoredChange := ⟨g, "d", "t", .insert, ⟨1, 0⟩, ⟨none, none⟩, 0, 0, ⟨5, 0⟩⟩

/-- A transaction that is too old. -/
def old : Transaction := ⟨"a", "x", ⟨50, 0⟩, .unprocessed⟩

/-- A transaction in the window. -/
def newer : Transaction := ⟨"b", "y", ⟨92, 0⟩, .unprocessed⟩

/-- Another transaction in the window. -/
def newest : Transaction := ⟨"c", "z", ⟨98, 0⟩, .unprocessed⟩

/-- All three are stored with a row each. -/
def services : Services where
  store := { rows := [row "a", row "b", row "c"], transactions := [old, newer, newest] }
  clock := ⟨100, 0⟩

/-- Sweeps that look back for ten seconds and take one transaction. -/
def settings : SweeperSettings := { lookback := 10, batchLimit := 1 }

/-- The newest transaction is the only candidate. -/
theorem candidates_eq {candidates : List Transaction}
    (h : Newest 1 (services.store.window (services.windowStart settings)) candidates) : candidates = [newest] := by
  have hwindow : services.store.window (services.windowStart settings) = [newer, newest] := by decide +kernel
  rw [hwindow] at h
  obtain ⟨c, rfl⟩ : ∃ c, candidates = [c] := List.length_eq_one_iff.1 h.count
  obtain ⟨rest, hperm, hnewest⟩ := h.others
  have hc : c ∈ [newer, newest] := hperm.symm.subset List.mem_cons_self
  rcases List.mem_cons.1 hc with rfl | hc
  · -- the other one would be among the rest, and it is newer
    have hrest : newest ∈ [newer] ++ rest := hperm.subset (by simp)
    rcases List.mem_cons.1 hrest with he | he
    · exact absurd he (by decide)
    · exact absurd (hnewest newer List.mem_cons_self newest he) (by decide)
  · rw [List.mem_singleton.1 hc]

end OneOfThree

/-- Of two transactions in the window and one that is too old, a sweep of one takes the newest. -/
theorem swept_exactly_one_of_three :
    (OneOfThree.services.store.transactions.map (·.gtid)).Nodup ∧
    ∃ y r, Cycle .caller (.start OneOfThree.settings (.ofCapacity 1) OneOfThree.services) y ∧
      y.sweep.phase = .finished (.ok r) ∧ r = ⟨1, 1, some 1⟩ ∧
      y.sent = [⟨"c", "z", ⟨98, 0⟩, recordOrder [OneOfThree.row "c"]⟩] ∧
      y.services.store.transactions = [OneOfThree.old, OneOfThree.newer, OneOfThree.newest.toProcessed] := by
  have hd : (OneOfThree.services.store.transactions.map (·.gtid)).Nodup := by decide
  obtain ⟨⟨candidates, hnewest, hall⟩, hends, -⟩ :=
    swept_exactly .caller OneOfThree.settings (.ofCapacity 1) OneOfThree.services hd
  obtain rfl := OneOfThree.candidates_eq hnewest
  obtain ⟨y, ⟨n, m, a⟩, hy, hp⟩ := hends (by decide) rfl rfl rfl Nat.one_pos
  obtain ⟨hsent, hstore, rfl, rfl, rfl⟩ := (hall y hy).1 _ hp
  refine ⟨hd, y, _, hy, hp, by decide +kernel, hsent, ?_⟩
  exact (transactions_of_content hstore).trans (by decide +kernel)

end Sweep

end AuditTrail
