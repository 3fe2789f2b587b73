import AuditTrail.Proofs.Json.Records
import AuditTrail.Stored

/-!
# Payloads survive decoding and encoding

The four records that travel as JSON: row changes and markers on the queue, stored rows and transactions in files. What is decoded
of one is characterised field by field, and a record of that kind is restored from its text if no number in its images is a
binary64 number.
-/

namespace AuditTrail

open Json (Present required_eq_ok)
open Json.Codec (WholeSecond)
open Outcome

/-! ## Images -/

namespace Images

/-- Images that are present nowhere as null and that a reader of that depth keeps. -/
structure Kept (depth : Nat) (i : Images) : Prop where
  before : ∀ v ∈ i.before, Present depth v
  after : ∀ v ∈ i.after, Present depth v

/-- Whether no number in the images is a binary64 number. -/
def floatFree (i : Images) : Bool := i.before.all Json.floatFree && i.after.all Json.floatFree

theorem Kept.mono {depth depth' : Nat} {i : Images} (h : i.Kept depth) (hle : depth ≤ depth') : i.Kept depth' :=
  ⟨fun v hv => ⟨(h.before v hv).1, (h.before v hv).2.mono hle⟩, fun v hv => ⟨(h.after v hv).1, (h.after v hv).2.mono hle⟩⟩

/-- Images that are read are kept one level deeper. -/
theorem yields_codec (depth : Nat) : codec.Yields (depth + 1) (Kept depth) := by
  intro s i rest h
  have hfields : ∀ f ∈ shape.fields, f.Keeps depth fun d : Draft =>
      (∀ o ∈ d.before, ∀ v ∈ o, Present depth v) ∧ ∀ o ∈ d.after, ∀ v ∈ o, Present depth v := by
    intro f hf
    simp only [shape, List.mem_cons, List.not_mem_nil, or_false] at hf
    rcases hf with rfl | rfl
    · refine Json.Field.keeps_ofCodec (Json.Codec.yields_optional depth) ?_
      rintro o d ho ⟨-, hafter⟩
      exact ⟨fun o' ho' => Option.some.inj ho' ▸ ho, hafter⟩
    · refine Json.Field.keeps_ofCodec (Json.Codec.yields_optional depth) ?_
      rintro o d ho ⟨hbefore, -⟩
      exact ⟨hbefore, fun o' ho' => Option.some.inj ho' ▸ ho⟩
  obtain ⟨d, ⟨hbefore, hafter⟩, hfinish⟩ := Json.Shape.exists_draft ⟨nofun, nofun⟩ hfields h
  cases hfinish
  constructor
  · intro v hv
    exact hbefore (some v) (Option.join_eq_some_iff.1 hv) v rfl
  · intro v hv
    exact hafter (some v) (Option.join_eq_some_iff.1 hv) v rfl

/-- Images are restored one level deeper. -/
theorem restores_codec {depth : Nat} {i : Images} (h : i.Kept depth) (hfloat : i.floatFree = true) :
    codec.Restores (depth + 1) i := by
  obtain ⟨before, after⟩ := i
  obtain ⟨hbefore, hafter⟩ := h
  simp only [floatFree, Bool.and_eq_true, Option.all_eq_true] at hfloat
  cases before with
  | none =>
    cases after with
    | none => exact Json.Shape.restores rfl (.nil _) rfl
    | some w =>
      have hw := Json.Codec.restores_optional (hafter w rfl) (hfloat.2 w rfl)
      exact Json.Shape.restores rfl (Json.Shape.takes_field rfl rfl hw (.nil _)) rfl
  | some v =>
    have hv := Json.Codec.restores_optional (hbefore v rfl) (hfloat.1 v rfl)
    cases after with
    | none => exact Json.Shape.restores rfl (Json.Shape.takes_field rfl rfl hv (.nil _)) rfl
    | some w =>
      have hw := Json.Codec.restores_optional (hafter w rfl) (hfloat.2 w rfl)
      exact Json.Shape.restores rfl (Json.Shape.takes_field rfl rfl hv (Json.Shape.takes_field rfl rfl hw (.nil _))) rfl

end Images

/-! ## Row changes -/

namespace RowChange

/-- Row changes whose time is a whole second and whose images a reader of that depth keeps. -/
structure Kept (depth : Nat) (e : RowChange) : Prop where
  time : WholeSecond e.time
  images : e.images.Kept depth

/-- Row changes that are read are kept. -/
theorem yields_codec (depth : Nat) : codec.Yields (depth + 2) (Kept depth) := by
  intro s e rest h
  have hfields : ∀ f ∈ shape.fields, f.Keeps (depth + 1) fun d : Draft =>
      (∀ t ∈ d.time, WholeSecond t) ∧ ∀ i ∈ d.images, i.Kept depth := by
    intro f hf
    simp only [shape, List.mem_cons, List.not_mem_nil, or_false] at hf
    rcases hf with rfl | rfl | rfl | rfl | rfl | rfl
    · exact Json.Field.keeps_ofCodec (Json.Codec.yields_any _ _) fun v d _ hd => hd
    · exact Json.Field.keeps_ofCodec (Json.Codec.yields_any _ _) fun v d _ hd => hd
    · exact Json.Field.keeps_ofCodec (Json.Codec.yields_any _ _) fun v d _ hd => hd
    · exact Json.Field.keeps_ofCodec (Json.Codec.yields_any _ _) fun v d _ hd => hd
    · exact Json.Field.keeps_ofCodec (Json.Codec.yields_seconds _) fun t d ht hd => ⟨fun t' ht' => Option.some.inj ht' ▸ ht, hd.2⟩
    · exact Json.Field.keeps_ofCodec (Images.yields_codec depth) fun i d hi hd => ⟨hd.1, fun i' hi' => Option.some.inj hi' ▸ hi⟩
  obtain ⟨d, ⟨htime, himages⟩, hfinish⟩ := Json.Shape.exists_draft ⟨nofun, nofun⟩ hfields h
  obtain ⟨database, -, hfinish⟩ := bind_eq_ok.1 hfinish
  obtain ⟨table, -, hfinish⟩ := bind_eq_ok.1 hfinish
  obtain ⟨action, -, hfinish⟩ := bind_eq_ok.1 hfinish
  obtain ⟨gtid, -, hfinish⟩ := bind_eq_ok.1 hfinish
  obtain ⟨time, ht, hfinish⟩ := bind_eq_ok.1 hfinish
  cases hfinish
  refine ⟨htime time (required_eq_ok.1 ht), ?_⟩
  cases hi : d.images with
  | none => exact ⟨nofun, nofun⟩
  | some i => exact himages i hi

/-- A row change is restored two levels deeper than its images. -/
theorem restores_codec {depth : Nat} {e : RowChange} (h : e.Kept depth) (hfloat : e.images.floatFree = true) :
    codec.Restores (depth + 2) e := by
  have haction : RowAction.variants.find (RowAction.variants.name e.action) = .ok e.action := by cases e.action <;> rfl
  refine Json.Shape.restores (d := ⟨some e.database, some e.table, some e.action, some e.gtid, some e.time, some e.images⟩) rfl ?_ rfl
  refine Json.Shape.takes_field rfl rfl (Json.Codec.restores_string _ e.database) ?_
  refine Json.Shape.takes_field rfl rfl (Json.Codec.restores_string _ e.table) ?_
  refine Json.Shape.takes_field rfl rfl (Json.Codec.restores_variant haction _) ?_
  refine Json.Shape.takes_field rfl rfl (Json.Codec.restores_string _ e.gtid) ?_
  refine Json.Shape.takes_field rfl rfl (Json.Codec.restores_seconds h.time _) ?_
  exact Json.Shape.takes_field rfl rfl (Images.restores_codec h.images hfloat) (.nil _)

end RowChange

/-! ## Markers -/

namespace Marker

/-- The time of a marker that is read is a whole second. -/
theorem yields_codec (depth : Nat) : codec.Yields (depth + 1) fun m => WholeSecond m.commitTime := by
  intro s m rest h
  have hfields : ∀ f ∈ shape.fields, f.Keeps depth fun d : Draft => ∀ t ∈ d.commitTime, WholeSecond t := by
    intro f hf
    simp only [shape, List.mem_cons, List.not_mem_nil, or_false] at hf
    rcases hf with rfl | rfl | rfl
    · exact Json.Field.keeps_ofCodec (Json.Codec.yields_any _ _) fun v d _ hd => hd
    · exact Json.Field.keeps_ofCodec (Json.Codec.yields_any _ _) fun v d _ hd => hd
    · exact Json.Field.keeps_ofCodec (Json.Codec.yields_seconds _) fun t d ht _ t' ht' => Option.some.inj ht' ▸ ht
  obtain ⟨d, htime, hfinish⟩ := Json.Shape.exists_draft nofun hfields h
  obtain ⟨gtid, -, hfinish⟩ := bind_eq_ok.1 hfinish
  obtain ⟨time, ht, hfinish⟩ := bind_eq_ok.1 hfinish
  cases hfinish
  exact htime time (required_eq_ok.1 ht)

/-- A marker is restored. -/
theorem restores_codec {m : Marker} (h : WholeSecond m.commitTime) (depth : Nat) : codec.Restores (depth + 1) m := by
  refine Json.Shape.restores (d := ⟨some m.gtid, some m.context, some m.commitTime⟩) rfl ?_ rfl
  refine Json.Shape.takes_field rfl rfl (Json.Codec.restores_string _ m.gtid) ?_
  refine Json.Shape.takes_field rfl rfl (Json.Codec.restores_string _ m.context) ?_
  exact Json.Shape.takes_field rfl rfl (Json.Codec.restores_seconds h _) (.nil _)

end Marker

/-! ## Stored rows -/

namespace StoredChange

/-- Stored rows with times that can be written, images that a reader of that depth keeps, and a place of 32 and 64 bits. -/
structure Kept (depth : Nat) (c : StoredChange) : Prop where
  eventTime : c.eventTime.Representable
  images : c.images.Kept depth
  partition : -0x80000000 ≤ c.partition ∧ c.partition ≤ 0x7fffffff
  offset : -0x8000000000000000 ≤ c.offset ∧ c.offset ≤ 0x7fffffffffffffff
  ingestedAt : c.ingestedAt.Representable

/-- What the fields of a row keep of a draft. -/
structure Draft.Kept (depth : Nat) (d : Draft) : Prop where
  eventTime : ∀ t ∈ d.eventTime, t.Representable
  images : ∀ i ∈ d.images, i.Kept depth
  partition : ∀ n ∈ d.partition, -0x80000000 ≤ n ∧ n ≤ 0x7fffffff
  offset : ∀ n ∈ d.offset, -0x8000000000000000 ≤ n ∧ n ≤ 0x7fffffffffffffff
  ingestedAt : ∀ t ∈ d.ingestedAt, t.Representable

/-- Stored rows that are read are kept. -/
theorem yields_codec (depth : Nat) : codec.Yields (depth + 2) (Kept depth) := by
  intro s c rest h
  have hfields : ∀ f ∈ shape.fields, f.Keeps (depth + 1) (Draft.Kept depth) := by
    intro f hf
    simp only [shape, List.mem_cons, List.not_mem_nil, or_false] at hf
    rcases hf with rfl | rfl | rfl | rfl | rfl | rfl | rfl | rfl | rfl
    · exact Json.Field.keeps_ofCodec (Json.Codec.yields_any _ _) fun v d _ hd => ⟨hd.1, hd.2, hd.3, hd.4, hd.5⟩
    · exact Json.Field.keeps_ofCodec (Json.Codec.yields_any _ _) fun v d _ hd => ⟨hd.1, hd.2, hd.3, hd.4, hd.5⟩
    · exact Json.Field.keeps_ofCodec (Json.Codec.yields_any _ _) fun v d _ hd => ⟨hd.1, hd.2, hd.3, hd.4, hd.5⟩
    · exact Json.Field.keeps_ofCodec (Json.Codec.yields_any _ _) fun v d _ hd => ⟨hd.1, hd.2, hd.3, hd.4, hd.5⟩
    · exact Json.Field.keeps_ofCodec (Json.Codec.yields_time _) fun t d ht hd =>
        ⟨fun t' ht' => Option.some.inj ht' ▸ ht, hd.2, hd.3, hd.4, hd.5⟩
    · exact Json.Field.keeps_ofCodec (Images.yields_codec depth) fun i d hi hd =>
        ⟨hd.1, fun i' hi' => Option.some.inj hi' ▸ hi, hd.3, hd.4, hd.5⟩
    · exact Json.Field.keeps_ofCodec (Json.Codec.yields_boundedInt _) fun n d hn hd =>
        ⟨hd.1, hd.2, fun n' hn' => Option.some.inj hn' ▸ hn, hd.4, hd.5⟩
    · exact Json.Field.keeps_ofCodec (Json.Codec.yields_boundedInt _) fun n d hn hd =>
        ⟨hd.1, hd.2, hd.3, fun n' hn' => Option.some.inj hn' ▸ hn, hd.5⟩
    · exact Json.Field.keeps_ofCodec (Json.Codec.yields_time _) fun t d ht hd =>
        ⟨hd.1, hd.2, hd.3, hd.4, fun t' ht' => Option.some.inj ht' ▸ ht⟩
  obtain ⟨d, hd, hfinish⟩ := Json.Shape.exists_draft ⟨nofun, nofun, nofun, nofun, nofun⟩ hfields h
  obtain ⟨gtid, -, hfinish⟩ := bind_eq_ok.1 hfinish
  obtain ⟨database, -, hfinish⟩ := bind_eq_ok.1 hfinish
  obtain ⟨table, -, hfinish⟩ := bind_eq_ok.1 hfinish
  obtain ⟨action, -, hfinish⟩ := bind_eq_ok.1 hfinish
  obtain ⟨eventTime, heventTime, hfinish⟩ := bind_eq_ok.1 hfinish
  obtain ⟨images, himages, hfinish⟩ := bind_eq_ok.1 hfinish
  obtain ⟨partition, hpartition, hfinish⟩ := bind_eq_ok.1 hfinish
  obtain ⟨offset, hoffset, hfinish⟩ := bind_eq_ok.1 hfinish
  obtain ⟨ingestedAt, hingestedAt, hfinish⟩ := bind_eq_ok.1 hfinish
  cases hfinish
  exact ⟨hd.eventTime _ (required_eq_ok.1 heventTime), hd.images _ (required_eq_ok.1 himages),
    hd.partition _ (required_eq_ok.1 hpartition), hd.offset _ (required_eq_ok.1 hoffset),
    hd.ingestedAt _ (required_eq_ok.1 hingestedAt)⟩

/-- A stored row is restored two levels deeper than its images. -/
theorem restores_codec {depth : Nat} {c : StoredChange} (h : c.Kept depth) (hfloat : c.images.floatFree = true) :
    codec.Restores (depth + 2) c := by
  have haction : RowAction.variants.find (RowAction.variants.name c.action) = .ok c.action := by cases c.action <;> rfl
  refine Json.Shape.restores (d := ⟨some c.gtid, some c.database, some c.table, some c.action, some c.eventTime, some c.images,
    some c.partition, some c.offset, some c.ingestedAt⟩) rfl ?_ rfl
  refine Json.Shape.takes_field rfl rfl (Json.Codec.restores_string _ c.gtid) ?_
  refine Json.Shape.takes_field rfl rfl (Json.Codec.restores_string _ c.database) ?_
  refine Json.Shape.takes_field rfl rfl (Json.Codec.restores_string _ c.table) ?_
  refine Json.Shape.takes_field rfl rfl (Json.Codec.restores_variant haction _) ?_
  refine Json.Shape.takes_field rfl rfl (Json.Codec.restores_time h.eventTime _) ?_
  refine Json.Shape.takes_field rfl rfl (Images.restores_codec h.images hfloat) ?_
  refine Json.Shape.takes_field rfl rfl (Json.Codec.restores_boundedInt (by decide) (by decide) h.partition _) ?_
  refine Json.Shape.takes_field rfl rfl (Json.Codec.restores_boundedInt (by decide) (by decide) h.offset _) ?_
  exact Json.Shape.takes_field rfl rfl (Json.Codec.restores_time h.ingestedAt _) (.nil _)

end StoredChange

/-! ## Transactions -/

namespace Transaction

/-- The time of a transaction that is read can be written. -/
theorem yields_codec (depth : Nat) : codec.Yields (depth + 1) fun t => t.commitTime.Representable := by
  intro s t rest h
  have hfields : ∀ f ∈ shape.fields, f.Keeps depth fun d : Draft => ∀ t ∈ d.commitTime, t.Representable := by
    intro f hf
    simp only [shape, List.mem_cons, List.not_mem_nil, or_false] at hf
    rcases hf with rfl | rfl | rfl | rfl
    · exact Json.Field.keeps_ofCodec (Json.Codec.yields_any _ _) fun v d _ hd => hd
    · exact Json.Field.keeps_ofCodec (Json.Codec.yields_any _ _) fun v d _ hd => hd
    · exact Json.Field.keeps_ofCodec (Json.Codec.yields_time _) fun t d ht _ t' ht' => Option.some.inj ht' ▸ ht
    · exact Json.Field.keeps_ofCodec (Json.Codec.yields_any _ _) fun v d _ hd => hd
  obtain ⟨d, htime, hfinish⟩ := Json.Shape.exists_draft nofun hfields h
  obtain ⟨gtid, -, hfinish⟩ := bind_eq_ok.1 hfinish
  obtain ⟨context, -, hfinish⟩ := bind_eq_ok.1 hfinish
  obtain ⟨time, ht, hfinish⟩ := bind_eq_ok.1 hfinish
  obtain ⟨status, -, hfinish⟩ := bind_eq_ok.1 hfinish
  cases hfinish
  exact htime time (required_eq_ok.1 ht)

/-- A transaction is restored. -/
theorem restores_codec {t : Transaction} (h : t.commitTime.Representable) (depth : Nat) : codec.Restores (depth + 1) t := by
  have hstatus : Status.variants.find (Status.variants.name t.status) = .ok t.status := by cases t.status <;> rfl
  refine Json.Shape.restores (d := ⟨some t.gtid, some t.context, some t.commitTime, some t.status⟩) rfl ?_ rfl
  refine Json.Shape.takes_field rfl rfl (Json.Codec.restores_string _ t.gtid) ?_
  refine Json.Shape.takes_field rfl rfl (Json.Codec.restores_string _ t.context) ?_
  refine Json.Shape.takes_field rfl rfl (Json.Codec.restores_time h _) ?_
  exact Json.Shape.takes_field rfl rfl (Json.Codec.restores_variant hstatus _) (.nil _)

end Transaction

/-! ## Encoding undoes decoding -/

/-- What a payload decodes to, in any form the decoder takes, is encoded to a payload that decodes to it again; so the octets of
the second encoding are those of the first. Of a record with images no number in them may be a binary64 number. -/
theorem encode_undoes_decode (payload : Octets) :
    (∀ e, RowChange.decode payload = .ok e → e.images.floatFree = true →
      RowChange.decode e.encode = .ok e ∧ (RowChange.decode e.encode).map RowChange.encode = .ok e.encode) ∧
    (∀ m, Marker.decode payload = .ok m →
      Marker.decode m.encode = .ok m ∧ (Marker.decode m.encode).map Marker.encode = .ok m.encode) ∧
    (∀ c, StoredChange.codec.decode payload = .ok c → c.images.floatFree = true →
      StoredChange.codec.decode (StoredChange.codec.encode c) = .ok c ∧
        (StoredChange.codec.decode (StoredChange.codec.encode c)).map StoredChange.codec.encode = .ok (StoredChange.codec.encode c)) ∧
    ∀ t, Transaction.codec.decode payload = .ok t →
      Transaction.codec.decode (Transaction.codec.encode t) = .ok t ∧
        (Transaction.codec.decode (Transaction.codec.encode t)).map Transaction.codec.encode = .ok (Transaction.codec.encode t) := by
  refine ⟨fun e h hfloat => ?_, fun m h => ?_, fun c h hfloat => ?_, fun t h => ?_⟩
  · obtain ⟨rest, hread⟩ := Json.Codec.read_of_decode (mapError_eq_ok.1 h)
    have hdecode : RowChange.decode e.encode = .ok e :=
      mapError_eq_ok.2 (Json.Codec.decode_encode (RowChange.restores_codec (RowChange.yields_codec 125 hread) hfloat))
    exact ⟨hdecode, by rw [hdecode, map_ok]⟩
  · obtain ⟨rest, hread⟩ := Json.Codec.read_of_decode (mapError_eq_ok.1 h)
    have hdecode : Marker.decode m.encode = .ok m :=
      mapError_eq_ok.2 (Json.Codec.decode_encode (Marker.restores_codec (Marker.yields_codec 126 hread) 126))
    exact ⟨hdecode, by rw [hdecode, map_ok]⟩
  · obtain ⟨rest, hread⟩ := Json.Codec.read_of_decode h
    have hdecode := Json.Codec.decode_encode (StoredChange.restores_codec (StoredChange.yields_codec 125 hread) hfloat)
    exact ⟨hdecode, by rw [hdecode, map_ok]⟩
  · obtain ⟨rest, hread⟩ := Json.Codec.read_of_decode h
    have hdecode := Json.Codec.decode_encode (Transaction.restores_codec (Transaction.yields_codec 126 hread) 126)
    exact ⟨hdecode, by rw [hdecode, map_ok]⟩

/-- A row change and a transaction as objects, with fields in another order, an unknown one, an escape and names that come twice; a
marker and a stored row as arrays, the row with a leap second and offsets from UTC. -/
theorem encode_undoes_decode_forms :
    (∃ e, RowChange.decode (Utf8.encode ("\x7b\"time\":-5, \"x\":[1.5], \"data\":\x7b\"after\":\x7b\"b\":1,\"a\":-9223372036854775808,\"b\":2\x7d\x7d," ++
        "\"gtid\":\"g\\u00e9\\n\",\"action\":\"insert\",\"table\":\"t\",\"db\":\"d\"\x7d")) = .ok e ∧
      RowChange.decode e.encode = .ok e) ∧
    (∃ m, Marker.decode (Utf8.encode "[\"g\",\"c\",-1]") = .ok m ∧ Marker.decode m.encode = .ok m) ∧
    (∃ c, StoredChange.codec.decode (Utf8.encode ("[\"g\",\"d\",\"t\",\"update\",\"2016-12-31T23:59:60.5Z\",[null,[1]],0,9," ++
        "\"2024-02-29 1:2:3.1234567891+05:30\"]")) = .ok c ∧
      StoredChange.codec.decode (StoredChange.codec.encode c) = .ok c) ∧
    ∃ t, Transaction.codec.decode (Utf8.encode ("\x7b\"status\":\"processed\",\"commit_time\":\"-0001-01-01T00:00:00Z\"," ++
        "\"context\":\"\",\"gtid\":\"g\"\x7d")) = .ok t ∧
      Transaction.codec.decode (Transaction.codec.encode t) = .ok t := by
  have change : ∀ p e, RowChange.decode p = .ok e → e.images.floatFree = true →
      ∃ e, RowChange.decode p = .ok e ∧ RowChange.decode e.encode = .ok e :=
    fun p e h hfloat => ⟨e, h, ((encode_undoes_decode p).1 e h hfloat).1⟩
  have marker : ∀ p m, Marker.decode p = .ok m → ∃ m, Marker.decode p = .ok m ∧ Marker.decode m.encode = .ok m :=
    fun p m h => ⟨m, h, ((encode_undoes_decode p).2.1 m h).1⟩
  have row : ∀ p c, StoredChange.codec.decode p = .ok c → c.images.floatFree = true →
      ∃ c, StoredChange.codec.decode p = .ok c ∧ StoredChange.codec.decode (StoredChange.codec.encode c) = .ok c :=
    fun p c h hfloat => ⟨c, h, ((encode_undoes_decode p).2.2.1 c h hfloat).1⟩
  have transaction : ∀ p t, Transaction.codec.decode p = .ok t →
      ∃ t, Transaction.codec.decode p = .ok t ∧ Transaction.codec.decode (Transaction.codec.encode t) = .ok t :=
    fun p t h => ⟨t, h, ((encode_undoes_decode p).2.2.2 t h).1⟩
  refine ⟨change _ ⟨"d", "t", .insert, "gé\n", ⟨-5, 0⟩, none,
      some (.object [("a", .ofInt (-9223372036854775808)), ("b", .ofInt 2)])⟩ ?_ (by decide),
    marker _ ⟨"g", "c", ⟨-1, 0⟩⟩ ?_,
    row _ ⟨"g", "d", "t", .update, ⟨1483228799, 1500000000⟩, ⟨none, some (.array [.ofInt 1])⟩, 0, 9,
      ⟨1709148723, 123456789⟩⟩ ?_ (by decide),
    transaction _ ⟨"g", "", ⟨-62198755200, 0⟩, .processed⟩ ?_⟩
  all_goals exact toOption_eq_some.1 (by decide +kernel)

end AuditTrail
