import AuditTrail.Json.Record
import AuditTrail.Proofs.Json.Values
import AuditTrail.Proofs.Time.Rfc3339

/-!
# Codecs and records survive their JSON text

A codec yields values of some kind (`Yields`) and restores a value from its text (`Restores`). Both are said of one depth, since a
record reads its fields one level deeper. For a record, what each field keeps of a draft the whole record keeps, whether it is
read from an object or from an array (`Shape.exists_draft`), and the members it is written with are taken into the draft one by
one (`Shape.takes_field`).
-/

namespace AuditTrail.Json

open Octets (ofAscii isDigit)
open Outcome

namespace Codec

variable {α : Type}

/-- Whatever the codec reads at that depth has the property. -/
def Yields (c : Codec α) (depth : Nat) (P : α → Prop) : Prop := ∀ ⦃s a rest⦄, c.read depth s = .ok (a, rest) → P a

/-- The text of the value is read back as the value, at that depth and before anything that ends a value. -/
def Restores (c : Codec α) (depth : Nat) (a : α) : Prop :=
  ∀ rest, Ends rest → c.read depth (Utf8.encode (c.write a) ++ rest) = .ok (a, rest)

theorem yields_any (c : Codec α) (depth : Nat) : c.Yields depth fun _ => True := fun _ _ _ _ => trivial

/-- What a whole document holds has been read from its front. -/
theorem read_of_decode {c : Codec α} {payload : Octets} {a : α} (h : c.decode payload = .ok a) :
    ∃ rest, c.read greatestDepth payload = .ok (a, rest) := by
  obtain ⟨⟨b, rest⟩, hread, h⟩ := bind_eq_ok.1 h
  dsimp only at h
  split at h
  · cases h
    exact ⟨rest, hread⟩
  · cases h

/-- A value that is restored is decoded from the document it is encoded in. -/
theorem decode_encode {c : Codec α} {a : α} (h : c.Restores greatestDepth a) : c.decode (c.encode a) = .ok a := by
  have hread := h [] ends_nil
  rw [List.append_nil] at hread
  rw [decode, encode, document, hread, ok_bind]
  rfl

/-! ## Strings -/

/-- A string after blanks is read by its body. -/
theorem readString_renderString (expected s : String) (rest : Octets) :
    readString expected (Utf8.encode (renderString s) ++ rest) = .ok (s, rest) := by
  rw [encode_renderString, List.cons_append, List.append_assoc, readString, skipBlank_cons (by decide)]
  simp only [if_true, List.singleton_append, stringBody_renderString]

/-- A value that its string stands for is restored. -/
theorem restores_viaString {expected : String} {parse : String → Except Fault α} {text : α → String} {a : α}
    (h : parse (text a) = .ok a) (depth : Nat) : (viaString expected parse text).Restores depth a := by
  intro rest _
  simp only [viaString, readString_renderString, ok_bind, h]

/-- A value that is read from a string is what its string stands for. -/
theorem yields_viaString {expected : String} {parse : String → Except Fault α} {text : α → String} (depth : Nat) :
    (viaString expected parse text).Yields depth fun a => ∃ t, parse t = .ok a := by
  intro s a rest h
  obtain ⟨⟨t, s₁⟩, -, h⟩ := bind_eq_ok.1 h
  obtain ⟨b, hparse, h⟩ := bind_eq_ok.1 h
  cases h
  exact ⟨t, hparse⟩

theorem restores_string (depth : Nat) (s : String) : Codec.string.Restores depth s := restores_viaString rfl depth

/-- A time that can be written is restored. -/
theorem restores_time {t : Instant} (h : t.Representable) (depth : Nat) : Codec.time.Restores depth t :=
  restores_viaString (by rw [Instant.parse_render h]) depth

/-- A time that is read can be written. -/
theorem yields_time (depth : Nat) : Codec.time.Yields depth Instant.Representable := by
  intro s t rest h
  obtain ⟨text, hparse⟩ := yields_viaString depth h
  split at hparse
  · cases hparse
    exact Instant.representable_of_parse ‹_›
  · cases hparse

/-! ## Whole numbers -/

/-- A value that its number stands for is restored. -/
theorem restores_viaInt {expected : String} {parse : Int → Except Fault α} {number : α → Int} {a : α}
    (hfits : FitsWhole (number a)) (h : parse (number a) = .ok a) (depth : Nat) :
    (viaInt expected parse number).Restores depth a := by
  intro rest hrest
  obtain ⟨b, t, hb, hlead⟩ := exists_lead_renderInt (number a)
  obtain ⟨hnumber, hblank, -⟩ := lead_number hlead
  have hread := readNumber_renderInt hfits hrest
  simp only [viaInt, hb, List.cons_append] at hread ⊢
  simp only [numberFrom, skipBlank_cons hblank, hnumber, hread, ok_bind, h]

/-- A value that is read from a number is what the number stands for. -/
theorem yields_viaInt {expected : String} {parse : Int → Except Fault α} {number : α → Int} (depth : Nat) :
    (viaInt expected parse number).Yields depth fun a => ∃ n, parse n = .ok a := by
  intro s a rest h
  obtain ⟨⟨n, s₁⟩, -, h⟩ := bind_eq_ok.1 h
  cases n with
  | int n =>
    obtain ⟨b, hparse, h⟩ := bind_eq_ok.1 h
    cases h
    exact ⟨n, hparse⟩
  | float x => cases h

/-- A number within bounds is restored. -/
theorem restores_boundedInt {range : String} {lo hi n : Int} (hlo : -0x8000000000000000 ≤ lo) (hhi : hi ≤ 0xffffffffffffffff)
    (h : lo ≤ n ∧ n ≤ hi) (depth : Nat) : (boundedInt range lo hi).Restores depth n := by
  have hfits : FitsWhole (id n) := ⟨Int.le_trans hlo h.1, Int.le_trans h.2 hhi⟩
  exact restores_viaInt hfits (if_pos h) depth

/-- A number that is read is within its bounds. -/
theorem yields_boundedInt {range : String} {lo hi : Int} (depth : Nat) :
    (boundedInt range lo hi).Yields depth fun n => lo ≤ n ∧ n ≤ hi := by
  intro s n rest h
  obtain ⟨m, hparse⟩ := yields_viaInt depth h
  split at hparse
  · cases hparse
    assumption
  · cases hparse

/-- The instants that whole seconds stand for. -/
def WholeSecond (t : Instant) : Prop := Instant.ofSeconds? t.seconds = some t

/-- A whole second lies in the calendar and has no fraction. -/
theorem WholeSecond.cases {t : Instant} (h : WholeSecond t) :
    (Instant.leastSecond ≤ t.seconds ∧ t.seconds ≤ Instant.greatestSecond) ∧ t.nanos = 0 := by
  unfold WholeSecond Instant.ofSeconds? at h
  split at h
  · rename_i hrange
    exact ⟨hrange, congrArg Instant.nanos (Option.some.inj h).symm⟩
  · cases h

/-- A whole second is restored. -/
theorem restores_seconds {t : Instant} (h : WholeSecond t) (depth : Nat) : Codec.seconds.Restores depth t := by
  obtain ⟨hrange, -⟩ := h.cases
  have hleast : Instant.leastSecond = -8334601228800 := rfl
  have hgreatest : Instant.greatestSecond = 8210266876799 := rfl
  exact restores_viaInt ⟨by omega, by omega⟩ (by rw [h]) depth

/-- A whole second can be written as a time. -/
theorem WholeSecond.representable {t : Instant} (h : WholeSecond t) : t.Representable := by
  obtain ⟨⟨hleast, hgreatest⟩, hnanos⟩ := h.cases
  exact ⟨hleast, hgreatest, by omega, fun hleap => by omega⟩

/-- What is read from seconds is a whole second. -/
theorem yields_seconds (depth : Nat) : Codec.seconds.Yields depth WholeSecond := by
  intro s t rest h
  obtain ⟨n, hparse⟩ := yields_viaInt depth h
  split at hparse
  · rename_i i hi
    cases hparse
    unfold Instant.ofSeconds? at hi
    split at hi
    · cases hi
      exact if_pos ‹_›
    · cases hi
  · cases hparse

/-! ## Optional values -/

/-- A value that is present is restored if none of its numbers is a binary64 number. -/
theorem restores_optional {depth : Nat} {v : Json} (h : Present depth v) (hfloat : v.floatFree = true) :
    Codec.optional.Restores depth (some v) := by
  intro rest hrest
  have hread := (readValue_render h.2 hfloat).2 rest hrest
  simp only [optional, hread, ok_bind, if_neg h.1]

/-- An optional value that is read is absent or present. -/
theorem yields_optional (depth : Nat) : Codec.optional.Yields depth fun o => ∀ v ∈ o, Present depth v := by
  intro s o rest h
  obtain ⟨⟨v, s₁⟩, hread, h⟩ := bind_eq_ok.1 h
  cases h
  intro w hw
  split at hw
  · cases hw
  · cases hw
    exact ⟨‹_›, kept_of_readValue hread⟩

/-! ## Named variants -/

/-- A variant is restored from its name. -/
theorem restores_variant {vs : Variants α} {a : α} (h : vs.find (vs.name a) = .ok a) (depth : Nat) :
    vs.codec.Restores depth a := by
  intro rest _
  simp only [Variants.codec, encode_renderString, List.cons_append, List.append_assoc, List.nil_append,
    skipBlank_cons (show isBlank (ofAscii '\x22') = false by decide), if_true, stringBody_renderString, ok_bind, h]

end Codec

/-! ## Records -/

/-- A codec of another type than the value at the front reads nothing. -/
theorem unexpected_ne_ok {α : Type} {expected : String} {s rest : Octets} {a : α} : unexpected expected s ≠ .ok (a, rest) := by
  intro h
  unfold unexpected at h
  split at h
  · cases h
  split at h
  · cases h
  · obtain ⟨r, -, h⟩ := bind_eq_ok.1 h
    cases h
  · obtain ⟨r, -, h⟩ := bind_eq_ok.1 h
    cases h
  · obtain ⟨r, -, h⟩ := bind_eq_ok.1 h
    cases h
  · obtain ⟨r, -, h⟩ := bind_eq_ok.1 h
    cases h
  · obtain ⟨r, -, h⟩ := bind_eq_ok.1 h
    cases h
  · cases h
  · cases h

/-- What the field sets keeps the property of a draft. -/
def Field.Keeps {δ : Type} (f : Field δ) (depth : Nat) (P : δ → Prop) : Prop :=
  ∀ ⦃s set rest d⦄, f.read depth s = .ok (set, rest) → P d → P (set d)

/-- A field keeps what its setter keeps for every value that its codec yields. -/
theorem Field.keeps_ofCodec {δ τ : Type} {name : String} {c : Codec τ} {get : δ → Option τ} {set : τ → δ → δ} {depth : Nat}
    {P : δ → Prop} {Q : τ → Prop} (hc : c.Yields depth Q) (hset : ∀ a d, Q a → P d → P (set a d)) :
    (Field.ofCodec name c get set).Keeps depth P := by
  intro s set' rest d h hd
  obtain ⟨⟨a, s₁⟩, hread, h⟩ := map_eq_ok.1 h
  cases h
  exact hset _ _ (hc hread) hd

/-- A required field is there. -/
theorem required_eq_ok {τ : Type} {name : String} {o : Option τ} {a : τ} : required name o = .ok a ↔ o = some a := by
  cases o <;> simp [required]

namespace Shape

variable {δ α : Type} {r : Shape δ α}

/-- What every field keeps is kept by the elements of an array, field by field. -/
theorem readElements_keeps {depth : Nat} {P : δ → Prop} {fs : List (Field δ)} (hfs : ∀ f ∈ fs, f.Keeps depth P) {first : Bool}
    {d d' : δ} {s rest : Octets} (hd : P d) (h : readElements depth fs first d s = .ok (d', rest)) : P d' := by
  induction fs generalizing first d s with
  | nil =>
    obtain ⟨⟨u, s₁⟩, -, h⟩ := bind_eq_ok.1 h
    cases h
    exact hd
  | cons f fs ih =>
    rw [readElements] at h
    split at h
    · cases h
    split at h
    · cases h
      exact hd
    have hfield : ∀ s₁, (f.read depth s₁ >>= fun x => readElements depth fs false (x.1 d) x.2) = .ok (d', rest) → P d' := by
      intro s₁ h
      obtain ⟨⟨set, s₂⟩, hread, h⟩ := bind_eq_ok.1 h
      exact ih (fun g hg => hfs g (List.mem_cons_of_mem _ hg)) (hfs f List.mem_cons_self hread hd) h
    split at h
    · obtain ⟨s₁, -, h⟩ := bind_eq_ok.1 h
      exact hfield s₁ h
    split at h
    · cases h
    split at h
    · cases h
    split at h
    · cases h
    · obtain ⟨s₁, -, h⟩ := bind_eq_ok.1 h
      exact hfield s₁ h

/-- What every field keeps is kept by a member, whether it is known or not. -/
theorem readMember_keeps {depth : Nat} {P : δ → Prop} (hfs : ∀ f ∈ r.fields, f.Keeps depth P) {name : String} {d d' : δ}
    {s rest : Octets} (hd : P d) (h : r.readMember depth d name s = .ok (d', rest)) : P d' := by
  unfold readMember at h
  split at h
  · rename_i f hf
    split at h
    · cases h
    obtain ⟨⟨u, s₁⟩, -, h⟩ := bind_eq_ok.1 h
    obtain ⟨⟨set, s₂⟩, hread, h⟩ := bind_eq_ok.1 h
    cases h
    exact hfs f (List.mem_of_find?_eq_some hf) hread hd
  · obtain ⟨⟨u, s₁⟩, -, h⟩ := bind_eq_ok.1 h
    obtain ⟨⟨u', s₂⟩, -, h⟩ := bind_eq_ok.1 h
    cases h
    exact hd

/-- A record that is read is finished from a draft with whatever its fields keep, one level deeper. -/
theorem exists_draft {depth : Nat} {P : δ → Prop} (hempty : P r.empty) (hfs : ∀ f ∈ r.fields, f.Keeps depth P) {s rest : Octets}
    {a : α} (h : r.read (depth + 1) s = .ok (a, rest)) : ∃ d, P d ∧ r.finish d = .ok a := by
  unfold read at h
  split at h
  · cases h
  split at h
  · rename_i heq
    cases heq
  · rename_i heq
    cases heq
  · rename_i heq
    cases heq
    obtain ⟨⟨d, s₁⟩, hread, h⟩ := bind_eq_ok.1 h
    obtain ⟨b, hfinish, h⟩ := bind_eq_ok.1 h
    cases h
    exact ⟨d, readElements_keeps hfs hempty hread, mapError_eq_ok.1 hfinish⟩
  · rename_i heq
    cases heq
    obtain ⟨⟨d, s₁⟩, hread, h⟩ := bind_eq_ok.1 h
    obtain ⟨b, hfinish, h⟩ := bind_eq_ok.1 h
    cases h
    exact ⟨d, foldMembers_keeps (fun hd hmember => readMember_keeps hfs hd hmember) hempty hread, mapError_eq_ok.1 hfinish⟩
  · exact absurd h unexpected_ne_ok

/-- A field that has not been seen takes its member. -/
theorem takes_field {τ : Type} {depth : Nat} {name : String} {c : Codec τ} {get : δ → Option τ} {set : τ → δ → δ} {a : τ} {d d' : δ}
    {ms : List (String × String)} (hfind : r.fields.find? (·.name == name) = some (.ofCodec name c get set)) (hunset : get d = none)
    (hc : c.Restores depth a) (htail : Takes (r.readMember depth) (set a d) ms d') :
    Takes (r.readMember depth) d ((name, c.write a) :: ms) d' := by
  refine .cons (fun rest hrest => ?_) htail
  have hunset' : ¬ (Field.ofCodec name c get set).isSet d = true := by
    simp only [Field.ofCodec, hunset, Option.isSome_none, Bool.false_eq_true, not_false_eq_true]
  have hcolon : colon (ofAscii ':' :: (Utf8.encode (c.write a) ++ rest)) = .ok ((), Utf8.encode (c.write a) ++ rest) := rfl
  have hread : (Field.ofCodec name c get set).read depth (Utf8.encode (c.write a) ++ rest) = .ok (set a, rest) := by
    rw [Field.ofCodec]
    dsimp only
    rw [hc rest hrest, map_ok]
  simp only [readMember, hfind, if_neg hunset', hcolon, ok_bind, hread]

theorem encode_intercalate (ts : List String) : Utf8.encode (String.intercalate "," ts) = joined (ts.map Utf8.encode) := by
  induction ts with
  | nil => rfl
  | cons t ts ih =>
    cases ts with
    | nil => simp [joined]
    | cons u us =>
      rw [String.intercalate_cons_cons, Utf8.encode_append, Utf8.encode_append, ih]
      simp only [List.map_cons, joined, List.flatMap_cons, List.append_assoc, encode_comma, List.cons_append, List.nil_append]

/-- Written members stand between braces. -/
theorem encode_renderFields (fields : List (String × String)) : Utf8.encode (renderFields fields) =
    ofAscii '\x7b' :: (joined (fields.map memberOctets) ++ [ofAscii '\x7d']) := by
  have hopen : Utf8.encode "\x7b" = [ofAscii '\x7b'] := rfl
  have hclose : Utf8.encode "\x7d" = [ofAscii '\x7d'] := rfl
  have hmember : ∀ m : String × String, Utf8.encode (renderString m.1 ++ ":" ++ m.2) = memberOctets m := by
    intro m
    simp only [memberOctets, Utf8.encode_append, encode_colon, List.append_assoc, List.cons_append, List.nil_append]
  rw [renderFields, Utf8.encode_append, Utf8.encode_append, encode_intercalate, List.map_map, hopen, hclose, List.append_assoc,
    List.singleton_append]
  simp only [Function.comp_def, hmember]

/-- A record is restored if its members are taken into a draft that finishes as the record. -/
theorem restores {depth : Nat} {write : α → String} {fields : List (String × String)} {d : δ} {a : α}
    (hwrite : write a = renderFields fields) (htakes : Takes (r.readMember depth) r.empty fields d) (hfinish : r.finish d = .ok a) :
    (r.codec write).Restores (depth + 1) a := by
  intro rest _
  have hread := htakes.all rest ((joined (fields.map memberOctets) ++ ofAscii '\x7d' :: rest).length + 1) (by simp)
  simp only [codec, hwrite, encode_renderFields, List.cons_append, List.append_assoc, List.nil_append, read,
    skipBlank_cons (show isBlank (ofAscii '\x7b') = false by decide), lead_brace, hread, ok_bind,
    ofMembers, hfinish]
  rfl

end Shape

end AuditTrail.Json
