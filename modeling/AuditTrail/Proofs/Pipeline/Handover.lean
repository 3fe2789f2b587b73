import AuditTrail.Proofs.Pipeline.Delivery
import AuditTrail.Text.Utf8

/-!
# What a crash does to records on their way

A transaction is written as processed once its record is in the delivery channel, and not when it has been handed over. The channel
is lost in a crash, and after a restart neither correlator nor sweeper sends anything for a transaction that is processed
(`not_announced_of_processed`). So a record that waits at a crash is lost for good, and no other record is
(`recovered_iff_handled`); that every processed transaction reaches the handler at least once is false (`at_least_once_false`).
-/

namespace AuditTrail

namespace Correlation

/-- A correlation has nothing to send for a transaction: it is about another one, has not begun, or is through. -/
def Spares (g : String) (x : Correlation) : Prop :=
  x.marker.gtid = g → x.phase = .starting ∨ ∃ result, x.phase = .finished result

variable {g : String} {sender : Sender} {x x' : Correlation} {d d' : Channel AuditRecord} {s t : Services}

/-- As long as queries are answered, a correlation does not begin to send for a transaction that is processed. -/
theorem Turn.spares (h : Turn sender x d s x' d' t) (hx : x.Spares g) (hg : s.store.processed g = true)
    (hq : s.store.failQueries = false) : x'.Spares g := by
  intro hm
  rw [h.marker] at hm
  cases h with
  | skip hp hb ht => exact Or.inr ⟨_, rfl⟩
  | known hp hb hu hs ht => exact Or.inr ⟨_, rfl⟩
  | settle hp ht => exact Or.inr ⟨_, rfl⟩
  | defer hp ht => exact Or.inr ⟨_, rfl⟩
  | proceed hp hb hu =>
    -- the store would have said that the transaction is processed
    obtain ⟨u, hans, hs⟩ := Store.transaction_of_processed hq hg
    exact absurd (hs.symm.trans (hu u (hm ▸ hans))) (by decide)
  | join hp hd => exact hx hm
  | _ => rcases hx hm with hs | ⟨r, hs⟩ <;> simp_all

/-- A correlation that has nothing to send for a transaction sends nothing for it. -/
theorem Turn.ne_of_entered (h : Turn sender x d s x' d' t) (hx : x.Spares g) {r : AuditRecord}
    (hr : r ∈ d.entered d') : r.gtid ≠ g := by
  cases h with
  | send hp hd =>
    rw [Channel.entered_push] at hr
    obtain rfl := List.mem_singleton.1 hr
    intro hg
    rcases hx hg with hs | ⟨r, hs⟩ <;> simp_all
  | _ => simp at hr

end Correlation

namespace Sweep

/-- A sweep has nothing to send for a transaction. -/
def Spares (g : String) (x : Sweep) : Prop :=
  match x.phase with
  | .fetching candidates _ => ∀ t ∈ candidates, t.gtid ≠ g
  | .sending _ _ rest _ => ∀ t ∈ rest, t.gtid ≠ g
  | _ => True

variable {g : String} {sender : Sender} {x x' : Sweep} {d d' : Channel AuditRecord} {s t : Services}

/-- A sweep does not begin to send for a transaction that is processed. -/
theorem Turn.spares (h : Turn sender x d s x' d' t) (hx : x.Spares g) (hg : s.store.processed g = true)
    (hd : (s.store.transactions.map (·.gtid)).Nodup) : x'.Spares g := by
  cases h with
  | list hp hc =>
    intro u hu hug
    obtain ⟨hmem, hproc⟩ := Store.mem_unprocessed hc hu
    have hsame := Store.processed_of_mem hd hmem
    rw [hug, hg, hproc] at hsame
    exact absurd hsame (by decide)
  | fetch hp hr => simpa only [Spares, hp] using hx
  | miss hp hl =>
    simp only [Spares, hp] at hx
    exact fun u hu => hx u (List.mem_cons_of_mem _ hu)
  | join hp hl hd => exact hx
  | send hp hl hd =>
    simp only [Spares, hp] at hx
    exact fun u hu => hx u (List.mem_cons_of_mem _ hu)
  | _ => trivial

/-- A sweep that has nothing to send for a transaction sends nothing for it. -/
theorem Turn.ne_of_entered (h : Turn sender x d s x' d' t) (hx : x.Spares g) {r : AuditRecord}
    (hr : r ∈ d.entered d') : r.gtid ≠ g := by
  cases h with
  | send hp hl hd =>
    rw [Channel.entered_push] at hr
    obtain rfl := List.mem_singleton.1 hr
    simp only [Spares, hp] at hx
    exact hx _ List.mem_cons_self
  | _ => simp at hr

end Sweep

namespace Pipeline

open Scene DeliveryAux

namespace Scene

/-- A transaction is processed, and a scene in which queries are answered has sent nothing for it and is not about to. -/
structure Spared (g : String) (x : Scene) : Prop where
  processed : x.services.store.processed g = true
  distinct : (x.services.store.transactions.map (·.gtid)).Nodup
  queries : x.services.store.failQueries = false
  unannounced : ¬x.Announced g
  correlation : ∀ c e y, x.pipeline.correlator = some c → c.phase = .correlating e y → y.Spares g
  sweep : ∀ v w, x.pipeline.sweeper = some v → v.sweep = some w → w.Spares g

end Scene

namespace HandoverAux

variable {ok : Services → Prop} {x y : Scene} {p : Pipeline} {role : Role} {s t : Services} {g : String}

/-- Every move only ever goes forward with the transactions. -/
theorem forward_move (hm : Move ok x y) : Store.Forward x.services.store y.services.store := by
  rcases move_cases hm with hq | ⟨c, c', m, d, t, hc, ht, rfl⟩ | ⟨v, v', d, t, hv, ht, rfl⟩
  · exact Store.forward_of_eq hq.transactions
  · exact ht.forward
  · exact ht.forward

/-- A step after which correlator and sweeper still have nothing to send for a transaction, and which sends nothing for it, spares
it. -/
theorem spared_advance (h : Spared g x) (hf : Store.Forward x.services.store t.store)
    (hq : t.store.failQueries = false) (hsent : ∀ r ∈ x.pipeline.delivery.entered p.delivery, r.gtid ≠ g)
    (hcor : ∀ c e y, p.correlator = some c → c.phase = .correlating e y → y.Spares g)
    (hsweep : ∀ v w, p.sweeper = some v → v.sweep = some w → w.Spares g) : Spared g (x.advance role p t) := by
  refine ⟨hf.processed g h.processed, hf.distinct h.distinct, hq, ?_, hcor, hsweep⟩
  rintro ⟨r, hr, hg⟩
  rcases List.mem_append.1 hr with hr | hr
  · exact h.unannounced ⟨r, hr, hg⟩
  · exact hsent r hr hg

/-- A step of the correlator spares a transaction that is processed. -/
theorem spared_correlator {c c' : Correlator} {m : Channel Envelope} {d : Channel AuditRecord} (h : Spared g x)
    (hc : x.pipeline.correlator = some c)
    (ht : Correlator.Turn x.pipeline.markerSenders c x.pipeline.markers x.pipeline.delivery x.services c' m d t)
    (hq : t.store.failQueries = false) :
    Spared g (x.advance .correlator { x.pipeline with correlator := some c', markers := m, delivery := d } t) := by
  refine spared_advance h ht.forward hq ?_ ?_ h.sweep
  · intro r hr
    cases ht with
    | work hp hz => exact hz.ne_of_entered (h.correlation c _ _ hc hp) hr
    | _ => simp at hr
  · intro c₁ e₁ y hc₁ he₁
    obtain rfl := Option.some.inj hc₁
    cases ht with
    | work hp hz =>
      obtain ⟨rfl, rfl⟩ := Correlator.Phase.correlating.inj he₁
      exact hz.spares (h.correlation c _ _ hc hp) h.processed h.queries
    | take hp hm he =>
      obtain ⟨-, rfl⟩ := Correlator.Phase.correlating.inj he₁
      exact fun _ => Or.inl rfl
    | _ => exact absurd he₁ (by simp)

/-- A step of the sweeper spares a transaction that is processed. -/
theorem spared_sweeper {v v' : Sweeper} {d : Channel AuditRecord} (h : Spared g x) (hv : x.pipeline.sweeper = some v)
    (ht : Sweeper.Turn v x.pipeline.delivery x.services v' d t) (hq : t.store.failQueries = false) :
    Spared g (x.advance .sweeper { x.pipeline with sweeper := some v', delivery := d } t) := by
  refine spared_advance h ht.forward hq ?_ h.correlation ?_
  · intro r hr
    cases ht with
    | work hs hw hz => exact hz.ne_of_entered (h.sweep v _ hv hw) hr
    | _ => simp at hr
  · intro v₁ w₁ hv₁ hw₁
    obtain rfl := Option.some.inj hv₁
    cases ht with
    | work hs hw hz =>
      obtain rfl := Option.some.inj hw₁
      exact hz.spares (h.sweep v _ hv hw) h.processed h.distinct
    | start hs hw =>
      obtain rfl := Option.some.inj hw₁
      trivial
    | stop hs hw hsig => exact absurd (hw.symm.trans hw₁) (by simp)
    | finish hs hw hp hc => exact absurd hw₁ (by simp)

/-- Every move spares a transaction that is processed. -/
theorem spared_move (hok : ∀ t, ok t → t.store.failQueries = false) (h : Spared g x) (hm : Move ok x y) :
    Spared g y := by
  have hq : y.services.store.failQueries = false :=
    hm.of_faults (P := fun t => t.store.failQueries = false) hok (fun hf hx => hf.queries.trans hx) h.queries
  rcases move_cases hm with hn | ⟨c, c', m, d, t, hc, ht, rfl⟩ | ⟨v, v', d, t, hv, ht, rfl⟩
  · have hf : Store.Forward x.services.store y.services.store := Store.forward_of_eq hn.transactions
    refine ⟨hf.processed g h.processed, hf.distinct h.distinct, hq, ?_, ?_, ?_⟩
    · rintro ⟨r, hr, hg⟩
      exact h.unannounced ⟨r, hn.enqueued ▸ hr, hg⟩
    · intro c e z hc he
      obtain ⟨c', hc', hp⟩ := hn.correlator c hc
      exact h.correlation c' e z hc' (hp ▸ he)
    · intro v w hv hw
      obtain ⟨v', hv', hp⟩ := hn.sweeper v hv
      exact h.sweep v' w hv' (hp ▸ hw)
  · exact spared_correlator h hc ht hq
  · exact spared_sweeper h hv ht hq

/-- A pipeline that starts spares every transaction that is processed. -/
theorem spared_start (settings : PipelineSettings) (now : Nat) (hg : s.store.processed g = true)
    (hd : (s.store.transactions.map (·.gtid)).Nodup) (hq : s.store.failQueries = false) :
    Spared g (.start settings now s) := by
  have h := started_assemble settings now s
  refine ⟨hg, hd, hq, ?_, ?_, ?_⟩
  · rintro ⟨r, hr, -⟩
    exact absurd hr List.not_mem_nil
  · intro c e y hc he
    exact absurd he (h.not_correlating hc e y)
  · intro v w hv hw
    exact absurd hw (h.not_sweeping hv w)

end HandoverAux

open HandoverAux

section

variable {ok : Services → Prop} {settings : PipelineSettings} {now : Nat} {s : Services} {x y : Scene} {g : String}

/-- Every run only ever goes forward with the transactions. -/
theorem forward_run (hr : Run ok x y) : Store.Forward x.services.store y.services.store := by
  induction hr with
  | refl => exact .rfl
  | tail hr hm ih => exact ih.trans (forward_move hm)

/-- On no run that starts with a transaction processed, and on which queries are answered, is a record sent for it. -/
theorem not_announced_of_processed (hok : ∀ t, ok t → t.store.failQueries = false)
    (hr : Run ok (.start settings now s) x) (hg : s.store.processed g = true)
    (hd : (s.store.transactions.map (·.gtid)).Nodup) (hq : s.store.failQueries = false) : ¬x.Announced g := by
  suffices h : Spared g x from h.unannounced
  induction hr with
  | refl => exact spared_start settings now hg hd hq
  | tail hr hm ih => exact spared_move hok ih hm

end

/-- The records sent by a crash are those handed over and those that wait, and a transaction that has become processed is among
them. If its record has been handed over, nothing is lost; else it is lost for good: on no run after the crash, on which the
store answers, is a record sent for the transaction. -/
theorem recovered_iff_handled (ok : Services → Prop) (settings : PipelineSettings) (now : Nat) (s : Services) {x : Scene}
    (hr : Run ok (.start settings now s) x) {g : String} (hd : (s.store.transactions.map (·.gtid)).Nodup)
    (h0 : s.store.processed g = false) (hg : x.services.store.processed g = true)
    (hq : x.services.store.failQueries = false) :
    x.enqueued = x.handled ++ x.pipeline.delivery.items ∧ x.Announced g ∧
      ((∃ r ∈ x.handled, r.gtid = g) ∨
          (∃ settings' now' y, Run (fun t => t.store.failQueries = false) (.start settings' now' x.services) y ∧
            y.Announced g) ↔
        ∃ r ∈ x.handled, r.gtid = g) := by
  have hdistinct := (forward_run hr).distinct hd
  refine ⟨(delivering_run hr).enqueued, ?_, ?_, Or.inl⟩
  · rcases (announcing_run hr).processed g hg with hp | hann
    · exact absurd (h0.symm.trans hp) (by decide)
    · exact hann
  · rintro (hh | ⟨settings', now', y, hy, hann⟩)
    · exact hh
    · exact absurd hann (not_announced_of_processed (fun _ => id) hy hg hdistinct hq)

namespace LostRecord

/-- A row change and the marker of its transaction. -/
def services : Services where
  queue := { topics := [
    ("binlog", [[Utf8.encode "[\"d\",\"t\",\"insert\",\"g\",1]"]]), ("tx_info", [[Utf8.encode "[\"g\",\"c\",3]"]])] }

/-- Every row makes a batch. -/
def settings : PipelineSettings := { writer := { batchSize := 1 } }

/-- The row is stored and the marker is correlated, but the dispatcher has not come to its turn. -/
def schedule : List (Role × Choice × Nat) :=
  steps 4 (.worker 0) ++ steps 3 .writer ++ steps 4 (.feeder 0) ++ steps 7 .correlator

/-- What comes of it: the transaction is processed, its record waits, and the cursor is past its marker. -/
theorem outcome : ((schedule.foldlM after (.start settings 0 services)).map fun x =>
    (x.services.store.processed "g", x.services.store.failQueries, x.handled,
      x.pipeline.delivery.items.map (·.gtid))) = some (true, false, [], ["g"]) := by
  decide +kernel

/-- The scene at the crash. -/
theorem exists_run : ∃ x, Run Services.Unfailing (.start settings 0 services) x ∧
    x.services.store.processed "g" = true ∧ x.services.store.failQueries = false ∧ x.handled = [] := by
  obtain ⟨x, hx, he⟩ := Option.map_eq_some_iff.1 outcome
  obtain ⟨hp, hq, hh, -⟩ : _ ∧ _ ∧ _ ∧ _ := by simpa only [Prod.mk.injEq] using he
  exact ⟨x, run_of_afters hx, hp, hq, hh⟩

end LostRecord

/-- A crash at which a record waits, so that it is lost. -/
theorem recovered_iff_handled_waiting : ∃ x, Run Services.Unfailing (.start LostRecord.settings 0 LostRecord.services) x ∧
    x.services.store.processed "g" = true ∧ (∃ r ∈ x.pipeline.delivery.items, r.gtid = "g") ∧
    ¬((∃ r ∈ x.handled, r.gtid = "g") ∨
      ∃ settings' now' y, Run (fun t => t.store.failQueries = false) (.start settings' now' x.services) y ∧
        y.Announced "g") := by
  obtain ⟨x, hr, hp, hq, hh⟩ := LostRecord.exists_run
  obtain ⟨henq, ⟨r, hmem, hg⟩, hiff⟩ := recovered_iff_handled Services.Unfailing LostRecord.settings 0
    LostRecord.services hr (by decide +kernel) (by decide +kernel) hp hq
  refine ⟨x, hr, hp, ⟨r, ?_, hg⟩, ?_⟩
  · rwa [henq, hh, List.nil_append] at hmem
  · intro h
    obtain ⟨r, hmem, -⟩ := hiff.1 h
    exact absurd (hh ▸ hmem) List.not_mem_nil

/-- That every transaction stored as processed has had its record handed over before a crash or has one sent after the restart, on
every run without failures from an empty store, is false. -/
theorem at_least_once_false :
    ¬∀ (settings : PipelineSettings) (now : Nat) (s : Services) (x : Scene), s.store.rows = [] →
      s.store.transactions = [] → s.Unfailing → Run Services.Unfailing (.start settings now s) x →
      ∀ g, x.services.store.processed g = true → (∃ r ∈ x.handled, r.gtid = g) ∨
        ∃ now' y, Run Services.Unfailing (.start settings now' x.services) y ∧ y.Announced g := by
  intro h
  obtain ⟨x, hr, hp, hq, hh⟩ := LostRecord.exists_run
  have hd : (x.services.store.transactions.map (·.gtid)).Nodup := (forward_run hr).distinct (by decide +kernel)
  rcases h LostRecord.settings 0 LostRecord.services x rfl rfl ⟨rfl, rfl, rfl, rfl, rfl, rfl⟩ hr "g" hp with
    ⟨r, hmem, -⟩ | ⟨now', y, hy, hann⟩
  · exact absurd (hh ▸ hmem) List.not_mem_nil
  · exact not_announced_of_processed (fun t ht => ht.queries) hy hp hd hq hann

end Pipeline

end AuditTrail
