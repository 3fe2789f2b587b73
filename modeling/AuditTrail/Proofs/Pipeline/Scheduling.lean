import AuditTrail.Proofs.Pipeline.Settled

/-!
# Scheduling does not matter

Two runs without failures read the same log from the same places with the same filter into empty stores. Their tasks may take turns in
any order; fetches, batches and channels may have any sizes, ticks may come at any time, and messages may be published while they go
on. Each has left of every partition what its messages make of it (`exists_left`), so that the rows of the two are the same in
another order, apart from the times at which they were taken in. No two rows have the same place, and so a look-up, which puts
rows in order, has one answer (`ingested_alike`).
-/

namespace AuditTrail

/-- Rows that are the same in every partition are the same in another order. -/
theorem perm_of_partitions {rows rows' : List StoredChange}
    (h : ∀ p, rows.filter (·.partition == p) = rows'.filter (·.partition == p)) : rows.Perm rows' := by
  refine List.perm_iff_count.2 ?_
  intro r
  have hown : ∀ rows : List StoredChange, (rows.filter (·.partition == r.partition)).count r = rows.count r :=
    fun rows => List.count_filter (beq_self_eq_true _)
  rw [← hown rows, h, hown rows']

namespace Pipeline

open Scene

namespace SchedulingAux

open SettledAux

variable {filter : Filter} {topic : String} {settings : PipelineSettings} {now : Nat} {s : Services} {x : Scene}

/-- A run that has read a partition to its end has sent all its messages. -/
theorem size_le_of_readToEnd {p : Int} {a b : Nat} (h : Sent topic x p a b) (hread : x.ReadToEnd topic) :
    x.services.queue.size topic p ≤ b := by
  cases hl : x.services.queue.log? topic p with
  | none => simp [Queue.size, hl]
  | some l =>
    obtain ⟨ps, hps, hp⟩ := Queue.partitions_of_log? hl
    obtain ⟨r, hr, hrp, hle⟩ := hread p (by rw [hps]; exact hp)
    have := h.standing r hr hrp
    omega

/-- What a run has left that began with an empty store, has read all and is settled: of every partition the rows of all messages from
where the reader started, and a cursor at the end of the log, if there was anything to read. -/
structure Whole (filter : Filter) (topic : String) (feed : FeedSettings) (s : Services) (x : Scene) : Prop where
  rows : ∀ p, (x.services.store.rows.map StoredChange.unstamped).filter (·.partition == p) =
    (x.services.queue.stretch topic p (outset feed s topic p).toNat (x.services.queue.size topic p)).filterMap
      (Message.row? filter)
  cursor : ∀ p, 0 ≤ p → x.services.cursors.stored topic p =
    if (outset feed s topic p).toNat < x.services.queue.size topic p
      then some (x.services.queue.size topic p : Int) else s.cursors.stored topic p

/-- A run without failures leaves nothing out. -/
theorem whole_of_settled (ht : Takes filter topic settings) (hu : s.Unfailing) (he : s.store.rows = [])
    (hr : Run Services.Unfailing (.start settings now s) x) (hread : x.ReadToEnd topic) (hset : x.Settled) :
    Whole filter topic settings.feed s x := by
  constructor
  · intro p
    obtain ⟨b, hleft⟩ := exists_left ht hu hr hset p
    have hend := size_le_of_readToEnd hleft.toSent hread
    have hrows := hleft.rows
    rw [he, List.filter_nil, List.map_nil, List.nil_append, Queue.stretch_of_size_le hend] at hrows
    rw [List.filter_map]
    exact hrows
  · intro p hp
    obtain ⟨b, hleft⟩ := exists_left ht hu hr hset p
    have hend := size_le_of_readToEnd hleft.toSent hread
    have hwithin := hleft.within
    rw [hleft.cursor hp]
    split
    · rename_i hlt
      have hb : b = x.services.queue.size topic p := Nat.le_antisymm (hwithin hlt) hend
      rw [if_pos (hb ▸ hlt), hb]
    · rename_i hnot
      rw [if_neg (by omega)]

section

variable {feed₁ feed₂ : FeedSettings} {s₁ s₂ : Services} {x₁ x₂ : Scene}

/-- Two runs that read the same log from the same places leave the same rows in some order, apart from the times at which they were
taken in. -/
theorem Whole.perm (h₁ : Whole filter topic feed₁ s₁ x₁) (h₂ : Whole filter topic feed₂ s₂ x₂)
    (hstart : ∀ p, 0 ≤ p → outset feed₁ s₁ topic p = outset feed₂ s₂ topic p)
    (hlog : ∀ p, x₁.services.queue.log? topic p = x₂.services.queue.log? topic p) :
    (x₁.services.store.rows.map StoredChange.unstamped).Perm (x₂.services.store.rows.map StoredChange.unstamped) := by
  refine perm_of_partitions ?_
  intro p
  rw [h₁.rows, h₂.rows]
  rcases Int.lt_or_le p 0 with hneg | hp
  · rw [Queue.stretch_eq_nil (by simp [Queue.size_of_neg hneg]), Queue.stretch_eq_nil (by simp [Queue.size_of_neg hneg])]
  · rw [hstart p hp, Queue.size_of_log (hlog p), Queue.stretch_of_log (hlog p)]

/-- Two runs that read the same log from the same places leave the same cursor, if there was anything to read or it was the same at
first. -/
theorem Whole.cursor_eq (h₁ : Whole filter topic feed₁ s₁ x₁) (h₂ : Whole filter topic feed₂ s₂ x₂) {p : Int} (hp : 0 ≤ p)
    (hstart : outset feed₁ s₁ topic p = outset feed₂ s₂ topic p)
    (hlog : x₁.services.queue.log? topic p = x₂.services.queue.log? topic p)
    (hsame : s₁.cursors.stored topic p = s₂.cursors.stored topic p ∨
      (outset feed₁ s₁ topic p).toNat < x₁.services.queue.size topic p) :
    x₁.services.cursors.stored topic p = x₂.services.cursors.stored topic p := by
  rw [h₁.cursor p hp, h₂.cursor p hp, ← hstart, ← Queue.size_of_log hlog]
  rcases hsame with hsame | hlt
  · rw [hsame]
  · rw [if_pos hlt, if_pos hlt]

end

/-- No two rows of a settled run from an empty store have the same place. -/
theorem nodup_of_settled (ht : Takes filter topic settings) (hu : s.Unfailing) (he : s.store.rows = [])
    (hr : Run Services.Unfailing (.start settings now s) x) (hset : x.Settled) :
    (x.services.store.rows.map StoredChange.place).Nodup := by
  obtain ⟨first, -, hstream⟩ := exists_streaming ht hr
  rw [rows_of_settled ht hu hr hset, he, List.nil_append]
  exact nodup_places hstream.ordered

/-- What a look-up finds, apart from the times at which the rows were taken in. -/
theorem map_unstamped_rowsWith (st : Store) (g : String) : (st.rowsWith g).map StoredChange.unstamped =
    recordOrder ((st.rows.map StoredChange.unstamped).filter (·.gtid == g)) := by
  rw [Store.rowsWith, map_unstamped_recordOrder, List.filter_map]
  rfl

end SchedulingAux

open SchedulingAux

/-- Two runs without failures that read the same log of row changes, from the same places with the same filter into empty stores,
leave the same, once each has read all and is settled: a look-up of any GTID finds the same rows in the same order, apart from the
times at which they were taken in; the same places of the queue are stored, each once; and the cursors are the same, wherever
there was anything to read or they were the same at first. That the readers start at the same place is not enough where there is
nothing to read: a run writes no cursor there, so that of a partition that is read from its beginning the one run may have left the
cursor at the beginning that it found, and the other one none. -/
theorem ingested_alike (filter : Filter) (topic : String) {settings₁ settings₂ : PipelineSettings} {now₁ now₂ : Nat}
    {s₁ s₂ : Services} {x₁ x₂ : Scene} (ht₁ : Takes filter topic settings₁) (ht₂ : Takes filter topic settings₂)
    (hu₁ : s₁.Unfailing) (hu₂ : s₂.Unfailing) (he₁ : s₁.store.rows = []) (he₂ : s₂.store.rows = [])
    (hstart : ∀ p, 0 ≤ p → outset settings₁.feed s₁ topic p = outset settings₂.feed s₂ topic p)
    (hr₁ : Run Services.Unfailing (.start settings₁ now₁ s₁) x₁)
    (hr₂ : Run Services.Unfailing (.start settings₂ now₂ s₂) x₂)
    (hlog : ∀ p, x₁.services.queue.log? topic p = x₂.services.queue.log? topic p)
    (hread₁ : x₁.ReadToEnd topic) (hread₂ : x₂.ReadToEnd topic) (hset₁ : x₁.Settled) (hset₂ : x₂.Settled) :
    (∀ g, ∃ rows₁ rows₂, x₁.services.store.rowsOf g = .ok rows₁ ∧ x₂.services.store.rowsOf g = .ok rows₂ ∧
      rows₁.map StoredChange.unstamped = rows₂.map StoredChange.unstamped) ∧
    ((x₁.services.store.rows.map StoredChange.place).Nodup ∧ (x₂.services.store.rows.map StoredChange.place).Nodup ∧
      ∀ e, e ∈ x₁.services.store.rows.map StoredChange.place ↔ e ∈ x₂.services.store.rows.map StoredChange.place) ∧
    ∀ p, 0 ≤ p →
      s₁.cursors.stored topic p = s₂.cursors.stored topic p ∨
        (outset settings₁.feed s₁ topic p).toNat < x₁.services.queue.size topic p →
      x₁.services.cursors.stored topic p = x₂.services.cursors.stored topic p := by
  have hwhole₁ := whole_of_settled ht₁ hu₁ he₁ hr₁ hread₁ hset₁
  have hwhole₂ := whole_of_settled ht₂ hu₂ he₂ hr₂ hread₂ hset₂
  have hperm := hwhole₁.perm hwhole₂ hstart hlog
  have hnodup₁ := nodup_of_settled ht₁ hu₁ he₁ hr₁ hset₁
  have hnodup₂ := nodup_of_settled ht₂ hu₂ he₂ hr₂ hset₂
  have hbare : ∀ rows : List StoredChange,
      (rows.map StoredChange.unstamped).map StoredChange.place = rows.map StoredChange.place := by
    intro rows
    rw [List.map_map]
    rfl
  refine ⟨?_, ⟨hnodup₁, hnodup₂, ?_⟩, ?_⟩
  · intro g
    refine ⟨_, _, Store.rowsOf_of_ok (hr₁.unfailing hu₁).queries g, Store.rowsOf_of_ok (hr₂.unfailing hu₂).queries g, ?_⟩
    rw [map_unstamped_rowsWith, map_unstamped_rowsWith]
    refine recordOrder_eq_of_perm (hperm.filter _) ?_
    rw [← hbare] at hnodup₁
    exact hnodup₁.sublist (List.filter_sublist.map _)
  · intro e
    rw [← hbare, ← hbare x₂.services.store.rows]
    exact (hperm.map StoredChange.place).mem_iff
  · intro p hp hsame
    exact hwhole₁.cursor_eq hwhole₂ hp (hstart p hp) (hlog p) hsame

namespace TwoOrders

/-- Two row changes of one transaction, in a partition each. -/
def services : Services where
  queue := { topics := [
    ("binlog", [[Utf8.encode "[\"d\",\"t\",\"insert\",\"g\",2]"], [Utf8.encode "[\"d\",\"t\",\"insert\",\"g\",1]"]]),
    ("tx_info", [[]])] }

/-- Every row makes a batch. -/
def eager : PipelineSettings := { writer := { batchSize := 1 } }

/-- The first partition is read and stored, and then the second one. -/
def inTurn : Option Scene :=
  (steps 4 (.worker 0) ++ steps 4 .writer ++ steps 4 (.worker 1) ++ steps 4 .writer).foldlM after
    (.start eager 0 services)

/-- A channel for one item, and batches that are never full. -/
def lazy : PipelineSettings := { writer := { capacity := 1 }, feed := { maxMessages := 1 } }

/-- The same services at another time of day. -/
def later : Services := { services with clock := ⟨5, 0⟩ }

/-- The second partition is read and then the first one. -/
def read : Option Scene :=
  (steps 4 (.worker 1) ++ steps 1 .writer ++ steps 4 (.worker 0) ++ steps 1 .writer).foldlM after (.start lazy 7 later)

/-- The readers are told to stop, and the rows are stored when they have. -/
def atTheEnd : Option Scene :=
  read.bind fun x => (steps 2 (.worker 0) ++ steps 2 (.worker 1) ++ steps 5 .writer).foldlM after
    { x with pipeline := x.pipeline.signal }

/-- What comes of the two runs. -/
theorem outcome : (inTurn.any fun x => atTheEnd.any fun y =>
    decide (x.ReadToEnd "binlog" ∧ y.ReadToEnd "binlog" ∧ x.Settled ∧ y.Settled ∧ x.services.queue = services.queue ∧
      y.services.queue = services.queue ∧ x.services.store.rows.map (·.partition) = [0, 1] ∧
      y.services.store.rows.map (·.partition) = [1, 0])) = true := by
  decide +kernel

/-- The second run is one. -/
theorem run_atTheEnd {y : Scene} (h : atTheEnd = some y) : Run Services.Unfailing (.start lazy 7 later) y := by
  obtain ⟨x, hx, hy⟩ := Option.bind_eq_some_iff.1 h
  have hsignal : Run Services.Unfailing (.start lazy 7 later) { x with pipeline := x.pipeline.signal } :=
    (run_of_afters hx).tail .signal
  exact hsignal.trans (run_of_afters hy)

end TwoOrders

/-- Two runs that store the rows of a transaction one after the other in different orders, with other batches and at other times: a
look-up finds the same. -/
theorem ingested_alike_two_orders : ∃ x y, Run Services.Unfailing (.start TwoOrders.eager 0 TwoOrders.services) x ∧
    Run Services.Unfailing (.start TwoOrders.lazy 7 TwoOrders.later) y ∧
    x.services.store.rows.map (·.partition) = [0, 1] ∧ y.services.store.rows.map (·.partition) = [1, 0] ∧
    (∃ rows rows', x.services.store.rowsOf "g" = .ok rows ∧ y.services.store.rowsOf "g" = .ok rows' ∧
      rows.map StoredChange.unstamped = rows'.map StoredChange.unstamped) ∧
    x.services.cursors.stored "binlog" 0 = y.services.cursors.stored "binlog" 0 := by
  obtain ⟨x, hx, hprop⟩ := (Option.any_eq_true _ _).1 TwoOrders.outcome
  obtain ⟨y, hy, hprop⟩ := (Option.any_eq_true _ _).1 hprop
  obtain ⟨hreadx, hready, hsetx, hsety, hqx, hqy, hrowsx, hrowsy⟩ := of_decide_eq_true hprop
  have hrx : Run Services.Unfailing (.start TwoOrders.eager 0 TwoOrders.services) x := run_of_afters hx
  have hry := TwoOrders.run_atTheEnd hy
  obtain ⟨hlook, -, hcursors⟩ := ingested_alike (.ofConfig .default) "binlog" ⟨rfl, rfl, by decide⟩ ⟨rfl, rfl, by decide⟩
    ⟨rfl, rfl, rfl, rfl, rfl, rfl⟩ ⟨rfl, rfl, rfl, rfl, rfl, rfl⟩ rfl rfl (by intro p _; rfl) hrx hry
    (by intro p; rw [hqx, hqy]) hreadx hready hsetx hsety
  exact ⟨x, y, hrx, hry, hrowsx, hrowsy, hlook "g", hcursors 0 (Int.le_refl 0) (Or.inl rfl)⟩

end Pipeline

end AuditTrail
