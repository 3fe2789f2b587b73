import AuditTrail.Queue
import Mathlib.Data.List.Basic

/-!
# Logs and the messages read from them

A log only grows, so that a message stays at its offset. What a fetch returns are the messages of a log one after the other, from
the offset that was asked for.
-/

namespace AuditTrail

namespace Queue

/-- The payload at an offset of a partition. -/
def payload? (q : Queue) (topic : String) (p : Int) (n : Nat) : Option Octets := (q.log? topic p).bind (·[n]?)

/-- Of two queues, the second has all messages of the first in their places. -/
def Grows (q r : Queue) : Prop := ∀ topic p l, q.log? topic p = some l → ∃ more, r.log? topic p = some (l ++ more)

/-- Messages are those of a partition one after the other, from an offset on. -/
def Ahead (q : Queue) (topic : String) (p : Int) : Nat → List Message → Prop
  | _, [] => True
  | n, m :: rest =>
    (∃ payload, q.payload? topic p n = some payload ∧ m = ⟨topic, p, n, payload⟩) ∧ Ahead q topic p (n + 1) rest

/-- The message at an offset of a partition. -/
def message? (q : Queue) (topic : String) (p : Int) (n : Nat) : Option Message :=
  (q.payload? topic p n).map fun payload => ⟨topic, p, n, payload⟩

/-- The messages of a partition from an offset on that lie before another. -/
def stretch (q : Queue) (topic : String) (p : Int) (a b : Nat) : List Message :=
  (List.range' a (b - a)).filterMap (q.message? topic p)

variable {q r : Queue} {topic : String} {p : Int} {n : Nat}

theorem Grows.rfl : Grows q q := fun _ _ _ h => ⟨[], by rw [h, List.append_nil]⟩

theorem grows_of_eq (h : r = q) : Grows q r := h ▸ .rfl

theorem Grows.trans {t : Queue} (h : Grows q r) (h' : Grows r t) : Grows q t := by
  intro topic p l hl
  obtain ⟨more, hm⟩ := h topic p l hl
  obtain ⟨more', hm'⟩ := h' topic p _ hm
  exact ⟨more ++ more', by rw [hm', List.append_assoc]⟩

/-- The logs of a topic are replaced, and those of the others stay. -/
theorem lookup_replace {ts : List (String × List (List Octets))} {logs : List (List Octets)} (name : String) :
    (ts.map fun t => if t.1 = topic then (topic, logs) else t).lookup name =
      if name = topic then (ts.lookup name).map fun _ => logs else ts.lookup name := by
  induction ts with
  | nil => simp
  | cons t ts ih =>
    obtain ⟨k, ls⟩ := t
    have hkey : (if k = topic then (topic, logs) else (k, ls)).1 = k := by split <;> simp_all
    rw [List.map_cons, List.lookup_cons, List.lookup_cons, ih, hkey]
    by_cases hn : name = k
    · subst hn
      by_cases ht : name = topic <;> simp [ht]
    · rw [beq_eq_false_iff_ne.2 hn]

/-- Publishing appends to one log and leaves the others. -/
theorem grows_of_publish {payload : Octets} {offset : Int} (h : q.publish topic p payload = .ok (r, offset)) : q.Grows r := by
  unfold publish at h
  split at h
  · exact absurd h (by simp)
  · exact absurd h (by simp)
  · rename_i logs log hlogs hlog
    obtain ⟨rfl, -⟩ := Prod.mk.inj (Except.ok.inj h)
    intro topic' p' l hl
    have hlog' := hlog
    simp only [log?, hlogs, Option.bind_eq_bind, Option.bind_some] at hlog'
    by_cases ht : topic' = topic
    · subst ht
      simp only [log?, hlogs, Option.bind_eq_bind, Option.bind_some] at hl
      simp only [log?, lookup_replace, hlogs, if_true, Option.map_some, Option.bind_eq_bind, Option.bind_some]
      split at hl
      · exact absurd hl (by simp)
      · rename_i hp'
        rw [if_neg hp']
        by_cases hpp : p'.toNat = p.toNat
        · split at hlog'
          · exact absurd hlog' (by simp)
          · rw [hpp, hlog'] at hl
            obtain rfl := Option.some.inj hl
            refine ⟨[payload], ?_⟩
            rw [hpp, List.getElem?_set_self (List.getElem?_eq_some_iff.1 hlog').1]
        · exact ⟨[], by rw [List.getElem?_set_ne (Ne.symm hpp), hl, List.append_nil]⟩
    · refine ⟨[], ?_⟩
      simpa only [log?, lookup_replace, if_neg ht, List.append_nil] using hl
/-- A message stays at its offset. -/
theorem Grows.payload? (h : Grows q r) {payload : Octets} (hp : q.payload? topic p n = some payload) :
    r.payload? topic p n = some payload := by
  obtain ⟨l, hl, hn⟩ := Option.bind_eq_some_iff.1 hp
  obtain ⟨more, hm⟩ := h topic p l hl
  refine Option.bind_eq_some_iff.2 ⟨l ++ more, hm, ?_⟩
  have hlt : n < l.length := (List.getElem?_eq_some_iff.1 hn).1
  rw [List.getElem?_append_left hlt]
  exact hn

/-- A log does not become shorter. -/
theorem Grows.size (h : q.Grows r) (topic : String) (p : Int) : q.size topic p ≤ r.size topic p := by
  unfold Queue.size
  cases hl : q.log? topic p with
  | none => exact Nat.zero_le _
  | some l =>
    obtain ⟨more, hm⟩ := h topic p l hl
    simp [hm]

/-- A message lies before the end of its log. -/
theorem lt_size_of_payload? {payload : Octets} (h : q.payload? topic p n = some payload) : n < q.size topic p := by
  obtain ⟨l, hl, hn⟩ := Option.bind_eq_some_iff.1 h
  rw [size, hl, Option.map_some, Option.getD_some]
  exact (List.getElem?_eq_some_iff.1 hn).1

/-- There is a message at every offset before the end of a log. -/
theorem payload?_of_lt (h : n < q.size topic p) : ∃ payload, q.payload? topic p n = some payload := by
  unfold size at h
  cases hl : q.log? topic p with
  | none => exact absurd h (by simp [hl])
  | some l =>
    rw [hl, Option.map_some, Option.getD_some] at h
    exact ⟨l[n], Option.bind_eq_some_iff.2 ⟨l, hl, List.getElem?_eq_getElem h⟩⟩

/-- There is no message at the end of a log or beyond it. -/
theorem message?_of_size_le (h : q.size topic p ≤ n) : q.message? topic p n = none := by
  rw [message?, Option.map_eq_none_iff]
  cases hp : q.payload? topic p n with
  | none => rfl
  | some payload =>
    have := lt_size_of_payload? hp
    omega

/-! ### Stretches of a log -/

section

variable {a b c : Nat}

/-- Two stretches, of which the second begins where the first ends, are one. -/
theorem stretch_append (hab : a ≤ b) (hbc : b ≤ c) :
    q.stretch topic p a b ++ q.stretch topic p b c = q.stretch topic p a c := by
  have hrange : List.range' a (b - a) ++ List.range' b (c - b) = List.range' a (c - a) := by
    obtain ⟨m, rfl⟩ := Nat.le.dest hab
    obtain ⟨n, rfl⟩ := Nat.le.dest hbc
    rw [Nat.add_sub_cancel_left, Nat.add_sub_cancel_left, List.range'_append_1, Nat.add_assoc, Nat.add_sub_cancel_left]
  rw [stretch, stretch, ← List.filterMap_append, hrange, stretch]

/-- A stretch before the end of a log stays as it is when the queue grows. -/
theorem Grows.stretch (h : Grows q r) (hb : b ≤ q.size topic p) : r.stretch topic p a b = q.stretch topic p a b := by
  refine List.filterMap_congr ?_
  intro k hk
  have hlt : k < q.size topic p := by
    rw [List.mem_range'_1] at hk
    omega
  obtain ⟨payload, hp⟩ := payload?_of_lt hlt
  rw [message?, message?, hp, h.payload? hp]

/-- A stretch that begins at the end of a log or beyond it is empty. -/
theorem stretch_eq_nil (h : q.size topic p ≤ a) : q.stretch topic p a b = [] := by
  refine List.filterMap_eq_nil_iff.2 ?_
  intro k hk
  exact message?_of_size_le (Nat.le_trans h (List.mem_range'_1.1 hk).1)

/-- A stretch that goes beyond the end of a log goes to its end. -/
theorem stretch_of_size_le (h : q.size topic p ≤ b) : q.stretch topic p a b = q.stretch topic p a (q.size topic p) := by
  rcases Nat.le_total a (q.size topic p) with ha | ha
  · rw [← stretch_append ha h, stretch_eq_nil (Nat.le_refl _), List.append_nil]
  · rw [stretch_eq_nil ha, stretch_eq_nil ha]

/-- The same log has the same size. -/
theorem size_of_log (h : q.log? topic p = r.log? topic p) : q.size topic p = r.size topic p := by
  rw [size, size, h]

/-- Stretches of the same log are the same. -/
theorem stretch_of_log (h : q.log? topic p = r.log? topic p) : q.stretch topic p a b = r.stretch topic p a b := by
  have hsame : q.message? topic p = r.message? topic p := by
    funext k
    rw [message?, message?, payload?, payload?, h]
  rw [stretch, stretch, hsame]

end

/-- Messages that were read stay those of the log. -/
theorem Ahead.grow {ms : List Message} (h : q.Ahead topic p n ms) (hg : Grows q r) : r.Ahead topic p n ms := by
  induction ms generalizing n with
  | nil => trivial
  | cons m ms ih =>
    obtain ⟨⟨payload, hp, hm⟩, hrest⟩ := h
    exact ⟨⟨payload, hg.payload? hp, hm⟩, ih hrest⟩

/-- Messages one after the other are the first of them, and after these the others. -/
theorem ahead_append {ms ms' : List Message} :
    q.Ahead topic p n (ms ++ ms') ↔ q.Ahead topic p n ms ∧ q.Ahead topic p (n + ms.length) ms' := by
  induction ms generalizing n with
  | nil => simp [Ahead]
  | cons m ms ih =>
    have hn : n + 1 + ms.length = n + (ms.length + 1) := by omega
    simp only [List.cons_append, Ahead, ih, List.length_cons, hn, and_assoc]

/-- Messages one after the other are a stretch of their log. -/
theorem Ahead.eq_stretch {ms : List Message} (h : q.Ahead topic p n ms) : ms = q.stretch topic p n (n + ms.length) := by
  induction ms generalizing n with
  | nil => simp [stretch]
  | cons m ms ih =>
    obtain ⟨⟨payload, hp, rfl⟩, hrest⟩ := h
    have hlen : n + (ms.length + 1) - n = ms.length + 1 := by omega
    have hlen' : n + 1 + ms.length - (n + 1) = ms.length := by omega
    have hrest' := ih hrest
    rw [stretch, hlen'] at hrest'
    rw [stretch, List.length_cons, hlen, List.range'_succ, List.filterMap_cons]
    simp only [message?, hp, Option.map_some]
    exact congrArg _ hrest'

/-- Messages one after the other end before the end of their log. -/
theorem Ahead.le_size {ms : List Message} (h : q.Ahead topic p n ms) (hne : ms ≠ []) :
    n + ms.length ≤ q.size topic p := by
  obtain ⟨ms', m, rfl⟩ := (List.eq_nil_or_concat' ms).resolve_left hne
  obtain ⟨⟨payload, hp, -⟩, -⟩ := (ahead_append.1 h).2
  have := lt_size_of_payload? hp
  rw [List.length_append, List.length_singleton]
  omega

/-- The messages made of a piece of a log are those of the log there. -/
theorem ahead_messagesFrom {ps : List Octets}
    (h : ∀ k payload, ps[k]? = some payload → q.payload? topic p (n + k) = some payload) :
    q.Ahead topic p n (messagesFrom topic p n ps) := by
  induction ps generalizing n with
  | nil => trivial
  | cons o ps ih =>
    refine ⟨⟨o, h 0 o rfl, rfl⟩, ih ?_⟩
    intro k payload hk
    rw [Nat.add_assoc, Nat.add_comm 1 k]
    exact h (k + 1) payload hk

/-- The partitions of a topic are those that have a log. -/
theorem mem_partitions {ps : List Int} (h : q.partitions topic = .ok ps) :
    p ∈ ps ↔ ∃ l, q.log? topic p = some l := by
  unfold partitions at h
  split at h
  · exact absurd h (by simp)
  · rename_i logs hlogs
    obtain rfl := Except.ok.inj h
    simp only [log?, hlogs, Option.bind_eq_bind, Option.bind_some, List.mem_map, List.mem_range]
    constructor
    · rintro ⟨k, hk, rfl⟩
      exact ⟨logs[k], by simp [hk]⟩
    · rintro ⟨l, hl⟩
      split at hl
      · exact absurd hl (by simp)
      · exact ⟨p.toNat, (List.getElem?_eq_some_iff.1 hl).1, by simp; omega⟩

/-- A partition that has a log is listed. -/
theorem partitions_of_log? {l : List Octets} (h : q.log? topic p = some l) :
    ∃ ps, q.partitions topic = .ok ps ∧ p ∈ ps := by
  obtain ⟨logs, hlogs, -⟩ := Option.bind_eq_some_iff.1 h
  have hps : q.partitions topic = .ok ((List.range logs.length).map Int.ofNat) := by rw [partitions, hlogs]
  exact ⟨_, hps, (mem_partitions hps).2 ⟨l, h⟩⟩

/-- The partitions of a topic are all different. -/
theorem nodup_partitions {ps : List Int} (h : q.partitions topic = .ok ps) : ps.Nodup := by
  unfold partitions at h
  split at h
  · exact absurd h (by simp)
  · obtain rfl := Except.ok.inj h
    exact List.Pairwise.map _ (fun a b hab e => hab (Int.ofNat.inj e)) List.nodup_range

/-- A log that there is belongs to a partition with a number. -/
theorem nonneg_of_log? {l : List Octets} (h : q.log? topic p = some l) : 0 ≤ p := by
  obtain ⟨logs, -, hl⟩ := Option.bind_eq_some_iff.1 h
  split at hl
  · exact absurd hl (by simp)
  · omega

/-- A partition with a negative number has no messages. -/
theorem size_of_neg (h : p < 0) : q.size topic p = 0 := by
  cases hl : q.log? topic p with
  | none => rw [size, hl]; rfl
  | some l => exact absurd (nonneg_of_log? hl) (Int.not_le.2 h)

/-- What a fetch returns are the messages of the log, from the offset on that was asked for. -/
theorem ahead_fetch {offset : Int} {most : Nat} {ms : List Message} (h : q.fetch topic p offset most = .ok ms) :
    q.Ahead topic p offset.toNat ms := by
  unfold fetch at h
  split at h
  · exact absurd h (by simp)
  · split at h
    · exact absurd h (by simp)
    · rename_i l hl
      split at h
      · exact absurd h (by simp)
      · obtain rfl := Except.ok.inj h
        refine ahead_messagesFrom fun k payload hk => Option.bind_eq_some_iff.2 ⟨l, hl, ?_⟩
        rw [List.getElem?_take] at hk
        split at hk
        · rwa [List.getElem?_drop] at hk
        · exact absurd hk (by simp)

/-- As many messages are made as there are payloads. -/
@[simp] theorem length_messagesFrom (topic : String) (p : Int) (n : Nat) (ps : List Octets) :
    (messagesFrom topic p n ps).length = ps.length := by
  induction ps generalizing n with
  | nil => rfl
  | cons o ps ih => rw [messagesFrom, List.length_cons, ih, List.length_cons]

/-- A fetch before the end of a log returns a message, unless it is made to fail. -/
theorem fetch_of_lt {offset : Int} {most : Nat} (hf : q.failFetches = false) (hm : 0 < most)
    (hlt : offset.toNat < q.size topic p) : ∃ ms, q.fetch topic p offset most = .ok ms ∧ ms ≠ [] := by
  cases hl : q.log? topic p with
  | none => exact absurd hlt (by simp [size, hl])
  | some l =>
    rw [size, hl, Option.map_some, Option.getD_some] at hlt
    have hopen : ¬(l.length ≤ offset.toNat ∧ q.closed = true) := fun h => Nat.not_le.2 hlt h.1
    refine ⟨messagesFrom topic p offset.toNat ((l.drop offset.toNat).take most), ?_, ?_⟩
    · simp only [fetch, hf, hl, hopen, Bool.false_eq_true, if_false]
    · rw [← List.length_pos_iff, length_messagesFrom, List.length_take, List.length_drop]
      omega

/-- Only of a closed queue, and only at the end of a log, a fetch says that it is closed. -/
theorem closed_of_fetch {offset : Int} {most : Nat} {name : String}
    (h : q.fetch topic p offset most = .error (.queueClosed name)) : q.closed = true ∧ q.size topic p ≤ offset.toNat := by
  unfold fetch at h
  split at h
  · exact absurd h (by simp)
  · split at h
    · exact absurd h (by simp [noPartition])
    · rename_i l hl
      split at h
      · rename_i hend
        exact ⟨hend.2, by simpa [size, hl] using hend.1⟩
      · exact absurd h (by simp)

end Queue

end AuditTrail
