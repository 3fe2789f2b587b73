import AuditTrail.Flow.Reader
import AuditTrail.Proofs.Outcome
import Mathlib.Data.List.Forall2

/-!
# What masking hides

An event that is kept has its images masked and nothing else changed: a hidden column of an object holds the mask text, every other
one what it held, and an image that is no object stays (`Json.Masked`). So masking once more changes nothing, and two events that differ at
most in the values of hidden columns (`RowChange.Alike`) are the same after masking. Nothing of such a value can then be told from what is
stored, counted or sent on (`masked_values_hidden`).
-/

namespace AuditTrail

/-- A column is hidden if its name in lower case is that of a configured one. -/
def Hidden (columns : List String) (column : String) : Prop :=
  ∃ c ∈ columns, Text.lowercase c = Text.lowercase column

/-- The second of two images is the first with its hidden columns masked. -/
inductive Json.Masked (columns : List String) : Json → Json → Prop where
  /-- The members of an object keep their names; a hidden one has the mask text, and every other one its value. -/
  | object {ms ns : List (String × Json)} (names : ns.map Prod.fst = ms.map Prod.fst)
      (hidden : ∀ k v, Hidden columns k → (k, v) ∈ ns → v = .string Filter.mask)
      (shown : ∀ k v, ¬Hidden columns k → ((k, v) ∈ ns ↔ (k, v) ∈ ms)) :
      Masked columns (.object ms) (.object ns)
  /-- What is no object stays. -/
  | other {v : Json} (h : ∀ ms, v ≠ .object ms) : Masked columns v v

/-- Two images differ at most in the values of hidden columns. -/
inductive Json.Alike (columns : List String) : Json → Json → Prop where
  | object {ms ns : List (String × Json)}
      (h : List.Forall₂ (fun m n => m.1 = n.1 ∧ (¬Hidden columns m.1 → m.2 = n.2)) ms ns) :
      Alike columns (.object ms) (.object ns)
  | same (v : Json) : Alike columns v v

/-- Two events differ at most in the values of hidden columns in their images. -/
structure RowChange.Alike (columns : List String) (a b : RowChange) : Prop where
  rest : { a with images := b.images } = b
  before : Option.Rel (Json.Alike columns) a.images.before b.images.before
  after : Option.Rel (Json.Alike columns) a.images.after b.images.after

namespace Filter

variable {f : Filter} {columns : List String}

/-- A filter masks the columns that are hidden. -/
theorem masks_iff (hf : f.masked = columns.map Text.lowercase) (k : String) : f.masks k = true ↔ Hidden columns k := by
  rw [masks, hf, List.contains_iff_mem, List.mem_map]
  rfl

/-- What a filter makes of a member of an object. -/
def maskMember (f : Filter) (m : String × Json) : String × Json := if f.masks m.1 then (m.1, .string mask) else m

@[simp] theorem maskMember_fst (f : Filter) (m : String × Json) : (f.maskMember m).1 = m.1 := by
  unfold maskMember
  split <;> rfl

/-- A member that is hidden has the mask text. -/
theorem maskMember_of_hidden {m : String × Json} (h : f.masks m.1 = true) : f.maskMember m = (m.1, .string mask) :=
  if_pos h

/-- A member that is not hidden stays. -/
theorem maskMember_of_shown {m : String × Json} (h : ¬f.masks m.1 = true) : f.maskMember m = m := if_neg h

/-- A member that is masked stays so. -/
@[simp] theorem maskMember_maskMember (f : Filter) (m : String × Json) : f.maskMember (f.maskMember m) = f.maskMember m := by
  by_cases h : f.masks m.1 = true
  · rw [maskMember_of_hidden h]
    exact maskMember_of_hidden h
  · rw [maskMember_of_shown h, maskMember_of_shown h]

@[simp] theorem maskImage_object (f : Filter) (ms : List (String × Json)) :
    f.maskImage (.object ms) = .object (ms.map f.maskMember) := rfl

/-- Masking makes of an image what it should. -/
theorem masked_maskImage (hf : f.masked = columns.map Text.lowercase) (v : Json) :
    v.Masked columns (f.maskImage v) := by
  cases v with
  | object ms =>
    rw [maskImage_object]
    refine .object ?_ ?_ ?_
    · rw [List.map_map]
      exact List.map_congr_left fun m _ => maskMember_fst f m
    · intro k v hk hv
      obtain ⟨m, -, hm⟩ := List.mem_map.1 hv
      obtain rfl : m.1 = k := by rw [← maskMember_fst f m, hm]
      rw [maskMember_of_hidden ((masks_iff hf _).2 hk)] at hm
      exact (Prod.mk.inj hm).2.symm
    · intro k v hk
      have hshown : ∀ m : String × Json, m.1 = k → f.maskMember m = m := by
        rintro m rfl
        exact maskMember_of_shown (mt (masks_iff hf _).1 hk)
      rw [List.mem_map]
      constructor
      · rintro ⟨m, hm, heq⟩
        have hmk : m.1 = k := by rw [← maskMember_fst f m, heq]
        rwa [← heq, hshown m hmk]
      · intro h
        exact ⟨(k, v), h, hshown (k, v) rfl⟩
  | _ => exact .other nofun

/-- An image that is masked stays as it is when it is masked again. -/
theorem maskImage_maskImage (f : Filter) (v : Json) : f.maskImage (f.maskImage v) = f.maskImage v := by
  cases v with
  | object ms => simp [Function.comp_def]
  | _ => rfl

/-- Images that differ at most in hidden columns are the same once they are masked. -/
theorem maskImage_of_alike (hf : f.masked = columns.map Text.lowercase) {v w : Json} (h : v.Alike columns w) :
    f.maskImage v = f.maskImage w := by
  cases h with
  | same => rfl
  | @object ms ns h =>
    rw [maskImage_object, maskImage_object]
    refine congrArg Json.object ?_
    induction h with
    | nil => rfl
    | @cons m n ms ns hmn _ ih =>
      obtain ⟨hname, hvalue⟩ := hmn
      have hmember : f.maskMember m = f.maskMember n := by
        by_cases hk : f.masks m.1 = true
        · rw [maskMember_of_hidden hk, maskMember_of_hidden (hname ▸ hk), hname]
        · exact congrArg f.maskMember (Prod.ext hname (hvalue (mt (masks_iff hf _).2 hk)))
      rw [List.map_cons, List.map_cons, hmember, ih]

/-- An image that may be absent is masked if it is there. -/
theorem masked_map (hf : f.masked = columns.map Text.lowercase) (v : Option Json) :
    Option.Rel (Json.Masked columns) v (v.map f.maskImage) := by
  cases v with
  | none => exact .none
  | some v => exact .some (masked_maskImage hf v)

/-- The same of images that may be absent. -/
theorem map_of_alike (hf : f.masked = columns.map Text.lowercase) {v w : Option Json}
    (h : Option.Rel (Json.Alike columns) v w) : v.map f.maskImage = w.map f.maskImage := by
  cases h with
  | none => rfl
  | some h => exact congrArg some (maskImage_of_alike hf h)

/-- Masking the images of an event twice is masking them once. -/
theorem maskImages_maskImages (f : Filter) (e : RowChange) : f.maskImages (f.maskImages e) = f.maskImages e := by
  simp [maskImages, Function.comp_def, maskImage_maskImage]

/-- Events that differ at most in hidden columns are the same once they are masked. -/
theorem maskImages_of_alike (hf : f.masked = columns.map Text.lowercase) {a b : RowChange} (h : a.Alike columns b) :
    f.maskImages a = f.maskImages b := by
  rw [← h.rest]
  simp only [maskImages, map_of_alike hf h.before, map_of_alike hf h.after]

/-- A filter keeps an event of an included table, with its images masked. -/
theorem apply_of_included {e : RowChange} (h : f.includesTable e.database e.table = true) :
    f.apply e = (true, f.maskImages e) := if_pos h

/-- A filter drops an event of any other table and leaves it as it is. -/
theorem apply_of_excluded {e : RowChange} (h : f.includesTable e.database e.table = false) : f.apply e = (false, e) :=
  if_neg (by simp [h])

/-- Events that differ at most in hidden columns are both dropped, or kept as the same event. -/
theorem apply_of_alike (hf : f.masked = columns.map Text.lowercase) {a b : RowChange} (h : a.Alike columns b) :
    (f.apply a).1 = (f.apply b).1 ∧ ((f.apply a).1 = true → (f.apply a).2 = (f.apply b).2) := by
  have htable : f.includesTable b.database b.table = f.includesTable a.database a.table := by rw [← h.rest]
  cases hi : f.includesTable a.database a.table with
  | true =>
    rw [apply_of_included hi, apply_of_included (htable.trans hi)]
    exact ⟨rfl, fun _ => maskImages_of_alike hf h⟩
  | false =>
    rw [apply_of_excluded hi, apply_of_excluded (htable.trans hi)]
    exact ⟨rfl, fun hkept => absurd hkept (by simp)⟩

/-- A filter that is configured masks the configured columns. -/
theorem masked_ofConfig (c : FilterConfig) : (ofConfig c).masked = c.maskColumns.map Text.lowercase := rfl

end Filter

/-- Messages in the same place, with events that differ at most in hidden columns, become the same item, and the same is counted. -/
theorem Message.toIntake_of_alike {f : Filter} {columns : List String} (hf : f.masked = columns.map Text.lowercase)
    {m n : Message} {a b : RowChange} (hm : RowChange.decode m.payload = .ok a) (hn : RowChange.decode n.payload = .ok b)
    (h : a.Alike columns b) (hp : m.partition = n.partition) (ho : m.offset = n.offset) (clock : Instant) :
    m.toIntake f clock = n.toIntake f clock := by
  obtain ⟨hkept, hevent⟩ := Filter.apply_of_alike hf h
  simp only [toIntake, hm, hn, hp, ho]
  cases ha : f.apply a with
  | mk kept e =>
    cases hb : f.apply b with
    | mk kept' e' =>
      rw [ha, hb] at hkept hevent
      obtain rfl : kept = kept' := hkept
      cases kept with
      | false => rfl
      | true =>
        obtain rfl : e = e' := hevent rfl
        rfl

/-- A filter that masks some columns, as one that is configured does, keeps the events of the tables it includes and drops the others
as they are. Of an event that is kept only the images change: the members of an object keep their names, the hidden ones have the mask
text and the others their values, and what is no object stays; filtering once more changes nothing. So of two events that differ at
most in the values of hidden columns both are dropped or both are kept as the same event, and from messages in the same place with such
events comes the same row, or none from either. -/
theorem masked_values_hidden {f : Filter} {columns : List String} (hf : f.masked = columns.map Text.lowercase) :
    (∀ e : RowChange,
      (f.apply e).1 = f.includesTable e.database e.table ∧
      ((f.apply e).1 = false → (f.apply e).2 = e) ∧
      ((f.apply e).1 = true → { (f.apply e).2 with images := e.images } = e ∧
        Option.Rel (Json.Masked columns) e.images.before (f.apply e).2.images.before ∧
        Option.Rel (Json.Masked columns) e.images.after (f.apply e).2.images.after) ∧
      f.apply (f.apply e).2 = f.apply e) ∧
    ∀ a b : RowChange, a.Alike columns b →
      (f.apply a).1 = (f.apply b).1 ∧ ((f.apply a).1 = true → (f.apply a).2 = (f.apply b).2) ∧
      ∀ m n : Message, RowChange.decode m.payload = .ok a → RowChange.decode n.payload = .ok b →
        m.partition = n.partition → m.offset = n.offset → ∀ clock, m.toIntake f clock = n.toIntake f clock := by
  constructor
  · intro e
    cases hi : f.includesTable e.database e.table with
    | true =>
      have htwice : f.apply (f.maskImages e) = (true, f.maskImages (f.maskImages e)) := Filter.apply_of_included hi
      rw [Filter.apply_of_included hi]
      refine ⟨rfl, nofun, fun _ => ⟨rfl, Filter.masked_map hf _, Filter.masked_map hf _⟩, ?_⟩
      rw [htwice, Filter.maskImages_maskImages]
    | false =>
      rw [Filter.apply_of_excluded hi]
      exact ⟨rfl, fun _ => rfl, nofun, Filter.apply_of_excluded hi⟩
  · intro a b h
    obtain ⟨hkept, hevent⟩ := Filter.apply_of_alike hf h
    exact ⟨hkept, hevent, fun m n hm hn hp ho clock => Message.toIntake_of_alike hf hm hn h hp ho clock⟩

/-- Two passwords, in a column that is configured in another case: the same row is stored. -/
theorem masked_values_hidden_password :
    let f := Filter.ofConfig ⟨["*"], [], ["Password"]⟩
    let payload (password : String) : Octets := Utf8.encode
      ("[\"d\",\"t\",\"delete\",\"g\",0,[\x7b\"PASSWORD\":\"" ++ password ++ "\",\"id\":1\x7d,null]]")
    Message.toIntake f ⟨5, 0⟩ ⟨"binlog", 0, 7, payload "old"⟩ = Message.toIntake f ⟨5, 0⟩ ⟨"binlog", 0, 7, payload "new"⟩ ∧
      (Message.toIntake f ⟨5, 0⟩ ⟨"binlog", 0, 7, payload "old"⟩).1 =
        .row ⟨"g", "d", "t", .delete, ⟨0, 0⟩, ⟨some (.object [("PASSWORD", .string Filter.mask), ("id", .ofInt 1)]), none⟩,
          0, 7, ⟨5, 0⟩⟩ := by
  intro f payload
  let event (password : String) : RowChange :=
    ⟨"d", "t", .delete, "g", ⟨0, 0⟩, ⟨some (.object [("PASSWORD", .string password), ("id", .ofInt 1)]), none⟩⟩
  have hold : RowChange.decode (payload "old") = .ok (event "old") := Outcome.toOption_eq_some.1 (by decide +kernel)
  have hnew : RowChange.decode (payload "new") = .ok (event "new") := Outcome.toOption_eq_some.1 (by decide +kernel)
  have hhidden : Hidden ["Password"] "PASSWORD" := ⟨"Password", by simp, by decide +kernel⟩
  have halike : (event "old").Alike ["Password"] (event "new") :=
    ⟨rfl, .some (.object (.cons ⟨rfl, fun h => absurd hhidden h⟩ (.cons ⟨rfl, fun _ => rfl⟩ .nil))), .none⟩
  have hf : f.masked = ["Password"].map Text.lowercase := Filter.masked_ofConfig _
  obtain ⟨-, -, hsame⟩ := (masked_values_hidden hf).2 _ _ halike
  have hitem := hsame ⟨"binlog", 0, 7, payload "old"⟩ ⟨"binlog", 0, 7, payload "new"⟩ hold hnew rfl rfl ⟨5, 0⟩
  have hkept : f.apply (event "old") = (true, event Filter.mask) := by decide +kernel
  refine ⟨hitem, ?_⟩
  simp only [Message.toIntake, hold, hkept]
  rfl

end AuditTrail
