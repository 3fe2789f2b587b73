import AuditTrail.Proofs.Pipeline.Run

/-!
# A transaction is processed only after its record has been sent

Correlator and sweeper each go through look-up, sending and status write in this order. `Backed` says how far a correlation or a
sweep has come with it: what it is going to send has some property, and what it is going to write as processed has been announced
by a record. Every step keeps that, as long as somebody receives the records, and somebody does while anybody can send.
-/

namespace AuditTrail

namespace Correlation

/-- The record that a correlation sends has a property, and the transaction that it writes as processed has another. -/
def Backed (P : AuditRecord → Prop) (Q : String → Prop) (x : Correlation) : Prop :=
  match x.phase with
  | .sending rows => P (recordOf x.marker rows)
  | .settling _ => Q x.marker.gtid
  | _ => True

variable {P P' : AuditRecord → Prop} {Q Q' : String → Prop} {sender : Sender} {x x' : Correlation}
  {d d' : Channel AuditRecord} {s t : Services}

theorem Backed.mono (h : x.Backed P Q) (hp : ∀ r, P r → P' r) (hq : ∀ g, Q g → Q' g) : x.Backed P' Q' := by
  unfold Backed at *
  split
  · exact hp _ (by simp_all)
  · exact hq _ (by simp_all)
  · trivial

/-- A step of a correlation keeps it backed. -/
theorem Turn.backed (h : Turn sender x d s x' d' t) (hb : x.Backed P Q) (hopen : d.received = true)
    (hlook : ∀ attempt, x.phase = .looking attempt → s.store.rowsWith x.marker.gtid ≠ [] →
      P (recordOf x.marker (s.store.rowsWith x.marker.gtid))) :
    x'.Backed P fun g => Q g ∨ ∃ r ∈ d.entered d', r.gtid = g := by
  cases h with
  | found hp hrows hne ht =>
    obtain rfl := Store.rowsOf_eq_ok hrows
    exact hlook _ hp hne
  | closed hp hd ht => exact absurd (hopen.symm.trans hd) (by decide)
  | join hp hd => exact hb.mono (fun _ => id) fun _ => Or.inl
  | send hp hd => exact Or.inr ⟨_, by rw [Channel.entered_push]; exact List.mem_cons_self, rfl⟩
  | _ => trivial

/-- What a correlation sends has the property it is backed by. -/
theorem Turn.of_entered (h : Turn sender x d s x' d' t) (hb : x.Backed P Q) {r : AuditRecord}
    (hr : r ∈ d.entered d') : P r := by
  cases h with
  | send hp hd =>
    rw [Channel.entered_push] at hr
    obtain rfl := List.mem_singleton.1 hr
    simpa only [Backed, hp] using hb
  | _ => simp at hr

/-- A transaction becomes processed by a correlation only when that is backed. -/
theorem Turn.of_processed (h : Turn sender x d s x' d' t) (hb : x.Backed P Q) {g : String}
    (hg : t.store.processed g = true) : s.store.processed g = true ∨ Q g := by
  have hcount : ∀ {u v : Services}, u.Counted v → v.store.processed g = true → u.store.processed g = true :=
    fun hc hv => hc.store ▸ hv
  cases h with
  | skip hp hk ht => exact Or.inl (hcount ht hg)
  | known hp hk hu hs ht => exact Or.inl (hcount ht hg)
  | found hp hrows hne ht => exact Or.inl (hcount ht hg)
  | await hp hlt hrows ht => exact Or.inl (hcount ht hg)
  | exhaust hp hle hrows ht => exact Or.inl (hcount ht hg)
  | closed hp hd ht => exact Or.inl (hcount ht hg)
  | settle hp ht =>
    refine (processed_write (hcount ht hg)).imp_right ?_
    intro h
    simpa only [Backed, hp, h.1] using hb
  | defer hp ht => exact (processed_write (hcount ht hg)).imp_right fun h => absurd h.2 (by decide)
  | _ => exact Or.inl hg

end Correlation

namespace Sweep

/-- The records that a sweep still sends have a property, and the transactions that it writes as processed have another. -/
def Backed (P : AuditRecord → Prop) (Q : String → Prop) (x : Sweep) : Prop :=
  match x.phase with
  | .sending _ rows rest done =>
    (∀ t ∈ rest, ∀ changes, rows.lookup t.gtid = some changes → P (.ofTransaction t changes)) ∧ ∀ t ∈ done, Q t.gtid
  | _ => True

variable {P P' : AuditRecord → Prop} {Q Q' : String → Prop} {sender : Sender} {x x' : Sweep}
  {d d' : Channel AuditRecord} {s t : Services}

theorem Backed.mono (h : x.Backed P Q) (hp : ∀ r, P r → P' r) (hq : ∀ g, Q g → Q' g) : x.Backed P' Q' := by
  unfold Backed at *
  split
  · rename_i r rows rest done hph
    simp only [hph] at h
    exact ⟨fun t ht changes hl => hp _ (h.1 t ht changes hl), fun t ht => hq _ (h.2 t ht)⟩
  · trivial

/-- A step of a sweep keeps it backed. -/
theorem Turn.backed (h : Turn sender x d s x' d' t) (hb : x.Backed P Q)
    (hlook : ∀ candidates abandoned, x.phase = .fetching candidates abandoned → ∀ u ∈ candidates,
      s.store.rowsWith u.gtid ≠ [] → P (.ofTransaction u (s.store.rowsWith u.gtid))) :
    x'.Backed P fun g => Q g ∨ ∃ r ∈ d.entered d', r.gtid = g := by
  cases h with
  | fetch hp hr =>
    refine ⟨?_, fun u hu => absurd hu List.not_mem_nil⟩
    intro u hu changes hl
    rw [Store.lookup_rowsOfAll hr (List.mem_map_of_mem hu)] at hl
    split at hl
    · exact absurd hl (by simp)
    · rename_i hne
      obtain rfl := Option.some.inj hl
      exact hlook _ _ hp u hu hne
  | miss hp hl =>
    simp only [Backed, hp] at hb
    exact ⟨fun u hu => hb.1 u (List.mem_cons_of_mem _ hu), fun u hu => Or.inl (hb.2 u hu)⟩
  | join hp hl hd => exact hb.mono (fun _ => id) fun _ => Or.inl
  | send hp hl hd =>
    simp only [Backed, hp] at hb
    refine ⟨fun u hu => hb.1 u (List.mem_cons_of_mem _ hu), ?_⟩
    intro u hu
    rcases List.mem_append.1 hu with hu | hu
    · exact Or.inl (hb.2 u hu)
    · obtain rfl := List.mem_singleton.1 hu
      exact Or.inr ⟨_, by rw [Channel.entered_push]; exact List.mem_cons_self, rfl⟩
  | _ => trivial

/-- What a sweep sends has the property it is backed by. -/
theorem Turn.of_entered (h : Turn sender x d s x' d' t) (hb : x.Backed P Q) {r : AuditRecord}
    (hr : r ∈ d.entered d') : P r := by
  cases h with
  | send hp hl hd =>
    rw [Channel.entered_push] at hr
    obtain rfl := List.mem_singleton.1 hr
    simp only [Backed, hp] at hb
    exact hb.1 _ List.mem_cons_self _ hl
  | _ => simp at hr

/-- A transaction becomes processed by a sweep only when that is backed. -/
theorem Turn.of_processed (h : Turn sender x d s x' d' t) (hb : x.Backed P Q) {g : String}
    (hg : t.store.processed g = true) : s.store.processed g = true ∨ Q g := by
  cases h with
  | begin hp ht => exact Or.inl (ht.store ▸ hg)
  | settle hp hd hu ht =>
    rw [ht.store, Store.processed_upsert hu, Bool.or_eq_true] at hg
    refine hg.imp_right ?_
    intro hany
    obtain ⟨v, hv, hvg⟩ := List.any_eq_true.1 hany
    obtain ⟨u, hu, rfl⟩ := List.mem_map.1 hv
    simp only [Backed, hp] at hb
    have hgtid : u.gtid = g := by simpa [Transaction.toProcessed] using (Bool.and_eq_true_iff.1 hvg).1
    exact hgtid ▸ hb.2 u hu
  | finish hp ht => exact Or.inl (ht.store ▸ hg)
  | _ => exact Or.inl hg

end Sweep

end AuditTrail
