import AuditTrail.Proofs.Json.Framing
import AuditTrail.Proofs.Json.Records

/-!
# Codecs by the grammar of values

A codec reads just one value, and what it makes of it does not hang on what follows. Of an object, the reader of a record takes the
members one by one into a draft (`Shape.Fill`), a known member by its value alone and an unknown one whatever its value is.
-/

namespace AuditTrail.Json

open Octets (ofAscii isDigit digit)
open Outcome

section

variable {α β : Type} {R : Reader α}

theorem Exact.map (h : Exact R) (f : α → β) : Exact fun s => (R s).map fun r => (f r.1, r.2) :=
  ⟨fun b s => by rw [h.blanks], fun hv => ((h.frames hv).map f).self⟩

theorem Exact.bind (h : Exact R) (f : α → Except Fault β) : Exact fun s => R s >>= fun r => f r.1 >>= fun b => .ok (b, r.2) :=
  ⟨fun b s => by rw [h.blanks], fun hv => ((h.frames hv).bind f).self⟩

end

/-- A string is read exactly. -/
theorem exact_readString (expected : String) : Exact (readString expected) where
  blanks b s := by
    unfold readString
    rw [skipBlank_append]
  frames hv := by
    obtain ⟨b, t, rfl, hopening⟩ := hv.exists_opening
    by_cases hb : b = ofAscii '\x22'
    · obtain ⟨body, hbody, rfl⟩ := hopening.string hb
      exact ((frames_stringBody hbody).cons fun s => hb ▸ rfl).self
    · refine (Frames.never fun rest a s' h => ?_).self
      rw [List.cons_append, readString, skipBlank_cons hopening.blank] at h
      simp only [if_neg hb] at h
      exact unexpected_ne_ok h

/-- A number is read exactly. -/
theorem exact_numberFrom (expected : String) : Exact (numberFrom expected) where
  blanks b s := by
    unfold numberFrom
    rw [skipBlank_append]
  frames hv := by
    obtain ⟨b, t, rfl, hopening⟩ := hv.exists_opening
    by_cases hlead : lead? b = some .number
    · refine ((frames_readNumber (hopening.number hlead)).of_eq fun rest => ?_).self
      simp only [List.cons_append, numberFrom, skipBlank_cons hopening.blank, hlead]
    · have hrefused : ∀ s, numberFrom expected (b :: s) = unexpected expected (b :: s) := by
        intro s
        simp only [numberFrom, skipBlank_cons hopening.blank]
      exact (Frames.never fun rest a s' => by rw [List.cons_append, hrefused]; exact unexpected_ne_ok).self

namespace Codec

variable {α : Type}

theorem exact_viaString (expected : String) (parse : String → Except Fault α) (text : α → String) (depth : Nat) :
    Exact ((viaString expected parse text).read depth) :=
  (exact_readString expected).bind parse

/-- What a codec for whole numbers makes of a number. -/
def intOf (expected : String) (parse : Int → Except Fault α) : Number → Except Fault α
  | .int n => parse n
  | .float x => wrongType (.number (.float x)) expected

theorem exact_viaInt (expected : String) (parse : Int → Except Fault α) (number : α → Int) (depth : Nat) :
    Exact ((viaInt expected parse number).read depth) := by
  have hbind := (exact_numberFrom expected).bind (intOf expected parse)
  refine cast (congrArg Exact (funext fun s => ?_)) hbind
  simp only [viaInt]
  congr 1
  funext r
  obtain ⟨n, s₁⟩ := r
  cases n <;> rfl

theorem exact_optional (depth : Nat) : Exact (optional.read depth) :=
  (exact_readValue depth).bind fun v => .ok (if v = .null then none else some v)

end Codec

/-! ## Named variants -/

namespace Variants

/-- A null is read exactly. -/
theorem exact_readNull : Exact readNull where
  blanks b s := by
    unfold readNull
    rw [skipBlank_append]
  frames hv := by
    obtain ⟨b, t, rfl, hopening⟩ := hv.exists_opening
    by_cases hb : b = ofAscii 'n'
    · obtain rfl := hopening.null hb
      subst hb
      exact (Frames.always fun rest _ => rfl).self
    · refine (Frames.never fun rest a s' h => ?_).self
      rw [List.cons_append, readNull, skipBlank_cons hopening.blank] at h
      simp only [if_neg hb] at h
      exact unexpected_ne_ok h

/-- A variant in an object, from its colon to the end of its null. -/
def readCase {α : Type} (vs : Variants α) (name : String) : Reader α := fun s =>
  vs.find name >>= fun a => colon s >>= fun x => readNull x.2 >>= fun y => .ok (a, y.2)

section

variable {α : Type} (vs : Variants α)

theorem frames_readCase {m : Member} (hvalue : IsValue m.item.value) (name : String) :
    Frames (vs.readCase name) (m.gap.1 ++ ofAscii ':' :: (m.item.before.1 ++ m.item.value))
      fun a => readNull m.item.value = .ok ((), []) ∧ vs.find name = .ok a := by
  cases hfind : vs.find name with
  | error e =>
    have hrefused : ∀ s, vs.readCase name s = .error e := fun s => by rw [readCase, hfind]; rfl
    exact (Frames.refused fun rest => hrefused _).congr fun a => by simp
  | ok a =>
    have hnull := frames_colon exact_readNull.blanks (exact_readNull.frames hvalue) m.gap m.item.before
    have hfound : ∀ b, (∃ u, readNull m.item.value = .ok (u, []) ∧ a = b) ↔
        readNull m.item.value = .ok ((), []) ∧ (.ok a : Except Fault α) = .ok b := by
      intro b
      rw [Except.ok.injEq]
      exact ⟨fun ⟨_, h⟩ => h, fun h => ⟨(), h⟩⟩
    refine ((hnull.map fun _ => a).of_eq fun rest => ?_).congr hfound
    rw [readCase, hfind, ok_bind]
    generalize m.gap.1 ++ ofAscii ':' :: (m.item.before.1 ++ m.item.value) ++ rest = s
    cases colon s with
    | error e => rfl
    | ok x =>
      simp only [ok_bind]
      cases readNull x.2 <;> rfl

/-- A variant in an object is read by the member of its name, up to the end of the object. -/
theorem read_case (depth : Nat) (m : Member) (tail : Octets) {a : α} {s' : Octets} :
    vs.codec.read (depth + 1) (ofAscii '\x7b' :: (m.text ++ tail)) = .ok (a, s') ↔
      ∃ s, readCore stringBody vs.readCase (m.core ++ (m.item.after.1 ++ tail)) = .ok (a, s) ∧
        skipBlank s = ofAscii '\x7d' :: s' := by
  have hname : readString "variant identifier" (m.text ++ tail) = stringBody (m.core ++ (m.item.after.1 ++ tail)) := by
    rw [readString, skipBlank_member]
    exact if_pos rfl
  simp only [codec, skipBlank_cons (show isBlank (ofAscii '\x7b') = false by decide),
    if_neg (show ofAscii '\x7b' ≠ ofAscii '\x22' by decide), if_true, if_neg (Nat.succ_ne_zero depth), hname, readCore, readCase]
  constructor
  · intro h
    obtain ⟨⟨name, s₁⟩, hstring, h⟩ := bind_eq_ok.1 h
    obtain ⟨b, hfind, h⟩ := bind_eq_ok.1 h
    obtain ⟨⟨⟨⟩, s₂⟩, hcolon, h⟩ := bind_eq_ok.1 h
    obtain ⟨⟨⟨⟩, s₃⟩, hnull, h⟩ := bind_eq_ok.1 h
    dsimp only at hfind hcolon hnull h
    split at h
    · cases h
    split at h
    · rename_i hblank hclose
      cases h
      refine ⟨s₃, ?_, hblank.trans (hclose ▸ rfl)⟩
      simp only [hstring, ok_bind, hfind, hcolon, hnull]
    · cases h
  · rintro ⟨s, h, hblank⟩
    obtain ⟨⟨name, s₁⟩, hstring, h⟩ := bind_eq_ok.1 h
    obtain ⟨b, hfind, h⟩ := bind_eq_ok.1 h
    obtain ⟨⟨⟨⟩, s₂⟩, hcolon, h⟩ := bind_eq_ok.1 h
    obtain ⟨⟨⟨⟩, s₃⟩, hnull, h⟩ := bind_eq_ok.1 h
    cases h
    simp only [hstring, ok_bind, hfind, hcolon, hnull, hblank, if_true]

/-- After a member comes the end of its object, or a comma if there are more members. -/
theorem skipBlank_membersTail (after : Blanks) (ms : List Member) (gap : Blanks) (rest : Octets) :
    ∃ b s, skipBlank (after.1 ++ ((ms.map Member.text).flatMap (ofAscii ',' :: ·) ++ (gap.1 ++ ofAscii '\x7d' :: rest))) = b :: s ∧
      (b = ofAscii '\x7d' ∧ s = rest ∧ ms = [] ∨ b = ofAscii ',' ∧ ms ≠ []) := by
  rw [skipBlank_append]
  cases ms with
  | nil =>
    rw [List.map_nil, List.flatMap_nil, List.nil_append, skipBlank_append]
    exact ⟨_, _, skipBlank_cons (show isBlank (ofAscii '\x7d') = false by decide) rest, .inl ⟨rfl, rfl, rfl⟩⟩
  | cons m ms =>
    rw [List.map_cons, List.flatMap_cons, List.cons_append, List.cons_append]
    exact ⟨_, _, skipBlank_cons (show isBlank (ofAscii ',') = false by decide) _, .inr ⟨rfl, List.cons_ne_nil m ms⟩⟩

/-- A variant is all there is in its object. -/
theorem exists_frames_object {ms : List Member} (hnames : ∀ m ∈ ms, IsBody m.body) (h : ∀ m ∈ ms, IsValue m.item.value)
    (gap : Blanks) (depth : Nat) : ∃ P, Frames (vs.codec.read depth) (objectText ms gap) P := by
  cases depth with
  | zero => exact ⟨_, Frames.refused (e := .malformed) fun rest => rfl⟩
  | succ depth =>
    cases ms with
    | nil =>
      refine ⟨_, Frames.never fun rest a s' hread => ?_⟩
      have htext : objectText [] gap ++ rest = ofAscii '\x7b' :: (gap.1 ++ ofAscii '\x7d' :: rest) := by
        simp only [objectText, List.map_nil, joined, List.nil_append, List.cons_append, List.append_assoc]
      rw [htext] at hread
      simp only [codec, skipBlank_cons (show isBlank (ofAscii '\x7b') = false by decide),
        if_neg (show ofAscii '\x7b' ≠ ofAscii '\x22' by decide), if_true, if_neg (Nat.succ_ne_zero depth)] at hread
      obtain ⟨⟨name, s₁⟩, hname, -⟩ := bind_eq_ok.1 hread
      rw [(exact_readString _).blanks, readString, skipBlank_cons (by decide)] at hname
      simp only [if_neg (show ofAscii '\x7d' ≠ ofAscii '\x22' by decide)] at hname
      exact unexpected_ne_ok hname
    | cons m ms =>
      have hcore := frames_core (hnames m List.mem_cons_self) (vs.frames_readCase (h m List.mem_cons_self))
      refine ⟨fun a => ms = [] ∧ ∃ name, Spells m.body name ∧ readNull m.item.value = .ok ((), []) ∧ vs.find name = .ok a,
        fun rest hrest a s' => ?_⟩
      have htext : objectText (m :: ms) gap ++ rest = ofAscii '\x7b' ::
          (m.text ++ ((ms.map Member.text).flatMap (ofAscii ',' :: ·) ++ (gap.1 ++ ofAscii '\x7d' :: rest))) := by
        simp only [objectText, List.map_cons, joined, List.cons_append, List.append_assoc, List.nil_append]
      have hstops := stops_blanks m.item.after (stops_tail (.inr rfl) (ms.map Member.text) gap rest)
      obtain ⟨b, s, hfront, hend⟩ := skipBlank_membersTail m.item.after ms gap rest
      rw [htext, read_case]
      constructor
      · rintro ⟨s₁, hread, hclosed⟩
        obtain ⟨rfl, ha⟩ := (hcore _ hstops a s₁).1 hread
        rw [hfront] at hclosed
        rcases hend with ⟨rfl, rfl, rfl⟩ | ⟨rfl, -⟩
        · cases hclosed
          exact ⟨rfl, rfl, ha⟩
        · cases hclosed
      · rintro ⟨rfl, rfl, ha⟩
        obtain ⟨rfl, rfl, -⟩ := hend.resolve_right fun h => h.2 rfl
        exact ⟨_, (hcore _ hstops _ _).2 ⟨rfl, ha⟩, hfront⟩

/-- A variant is read exactly. -/
theorem exact_codec (depth : Nat) : Exact (vs.codec.read depth) where
  blanks b s := by
    simp only [codec, skipBlank_append]
  frames hv := by
    obtain ⟨b, t, rfl, hopening⟩ := hv.exists_opening
    by_cases hquote : b = ofAscii '\x22'
    · obtain ⟨body, hbody, rfl⟩ := hopening.string hquote
      exact (((frames_stringBody hbody).bind vs.find).cons fun s => hquote ▸ rfl).self
    by_cases hbrace : b = ofAscii '\x7b'
    · obtain ⟨ms, gap, hnames, h, heq⟩ := hopening.object hbrace
      obtain ⟨P, hP⟩ := vs.exists_frames_object hnames h gap depth
      exact heq ▸ hP.self
    · refine (Frames.never fun rest a s' h => ?_).self
      simp only [codec, List.cons_append, skipBlank_cons hopening.blank, if_neg hquote, if_neg hbrace] at h
      cases h

end

end Variants

/-! ## Records -/

theorem Field.exact_ofCodec {δ τ : Type} {c : Codec τ} {depth : Nat} (h : Exact (c.read depth)) (name : String) (get : δ → Option τ)
    (set : τ → δ → δ) : Exact ((Field.ofCodec name c get set).read depth) :=
  h.map set

/-- The octet that a value other than a number starts with. -/
def Lead.octet? : Lead → Option UInt8
  | .null => some (ofAscii 'n')
  | .true => some (ofAscii 't')
  | .false => some (ofAscii 'f')
  | .number => none
  | .string => some (ofAscii '\x22')
  | .sequence => some (ofAscii '[')
  | .object => some (ofAscii '\x7b')

theorem eq_of_lead {b c : UInt8} {l : Lead} (h : lead? b = some l) (hc : l.octet? = some c) : b = c := by
  unfold lead? at h
  repeat' split at h
  all_goals cases h
  all_goals cases hc
  all_goals assumption

namespace Shape

variable {δ α : Type} {r : Shape δ α} {depth : Nat}

/-- What a member of that name and value makes of a draft. A known one is taken if the draft does not have it yet, and an unknown one
is passed over. -/
def FillAs (r : Shape δ α) (depth : Nat) (name : String) (value : Octets) (d d' : δ) : Prop :=
  match r.fields.find? (·.name == name) with
  | some f => f.isSet d = false ∧ ∃ set, f.read depth value = .ok (set, []) ∧ set d = d'
  | none => d' = d

/-- What a member makes of a draft. -/
def Fill (r : Shape δ α) (depth : Nat) (d : δ) (m : Member) (d' : δ) : Prop :=
  ∃ name, Spells m.body name ∧ r.FillAs depth name m.item.value d d'

/-- A known member is taken by its value, and of an unknown one nothing but its end. -/
theorem frames_readMember (hfields : ∀ f ∈ r.fields, Exact (f.read depth)) {m : Member} (hvalue : IsValue m.item.value) (d : δ)
    (name : String) : Frames (r.readMember depth d name) (m.gap.1 ++ ofAscii ':' :: (m.item.before.1 ++ m.item.value))
      (r.FillAs depth name m.item.value d) := by
  unfold FillAs
  cases hfind : r.fields.find? (·.name == name) with
  | some f =>
    have hf := hfields f (List.mem_of_find?_eq_some hfind)
    cases hset : f.isSet d with
    | true =>
      have hrefused : ∀ s, r.readMember depth d name s = .error (.mismatch (.duplicateField name)) := by
        intro s
        simp only [readMember, hfind, hset, if_true]
      exact (Frames.refused fun rest => hrefused _).congr fun d' =>
        ⟨False.elim, fun h => Bool.false_ne_true (h.1.symm.trans hset)⟩
    | false =>
      have hread := (frames_colon hf.blanks (hf.frames hvalue) m.gap m.item.before).map fun set => set d
      refine (hread.of_eq fun rest => ?_).congr fun d' => ⟨fun h => ⟨hset, h⟩, fun h => h.2⟩
      simp only [readMember, hfind, hset, Bool.false_eq_true, if_false]
      generalize m.gap.1 ++ ofAscii ':' :: (m.item.before.1 ++ m.item.value) ++ rest = s
      cases colon s with
      | error e => rfl
      | ok x =>
        simp only [ok_bind]
        cases f.read depth x.2 <;> rfl
  | none =>
    refine Frames.always fun rest hrest => ?_
    simp only [readMember, hfind, List.append_assoc, List.cons_append, colon_gap, ok_bind, skipValue_value hvalue hrest]

/-- The draft that an object is read into has taken its members one by one. -/
theorem frames_object (hfields : ∀ f ∈ r.fields, Exact (f.read depth)) {ms : List Member} (hnames : ∀ m ∈ ms, IsBody m.body)
    (h : ∀ m ∈ ms, IsValue m.item.value) (gap : Blanks) :
    Frames (r.read (depth + 1)) (objectText ms gap) fun a => ∃ d, Folded (r.Fill depth) r.empty ms d ∧ r.ofMembers d = .ok a := by
  have hms : ∀ m ∈ ms, ∀ d, Frames (readCore stringBody (r.readMember depth d)) m.core (r.Fill depth d m) :=
    fun m hm d => frames_core (hnames m hm) (frames_readMember hfields (h m hm) d)
  exact ((frames_members hms gap r.empty).bind r.ofMembers).cons fun s => rfl

theorem readElements_blanks (fs : List (Field δ)) (first : Bool) (d : δ) (b : Blanks) (s : Octets) :
    readElements depth fs first d (b.1 ++ s) = readElements depth fs first d s := by
  cases fs with
  | nil => rw [readElements, readElements, closeSequence, closeSequence, skipBlank_append]
  | cons f fs => rw [readElements, readElements, skipBlank_append]

/-- An array that ends too early leaves the draft as it is. -/
theorem readElements_close (fs : List (Field δ)) (first : Bool) (d : δ) (gap : Blanks) (rest : Octets) :
    readElements depth fs first d (gap.1 ++ (ofAscii ']' :: rest)) = .ok (d, rest) := by
  rw [readElements_blanks]
  cases fs <;> rfl

/-- An element is taken by the next field. -/
theorem readElements_item (f : Field δ) (fs : List (Field δ)) (d : δ) {i : Item} (hopens : Opens i.value) (tail : Octets) :
    readElements depth (f :: fs) true d (i.text ++ tail) =
      f.read depth (i.value ++ (i.after.1 ++ tail)) >>= fun x => readElements depth fs false (x.1 d) x.2 := by
  obtain ⟨b, s, hfront, hclose, hvalue⟩ := skipBlank_item hopens tail
  rw [readElements, hfront]
  simp only [if_neg hclose, if_true, ok_bind, hvalue]

/-- A comma before an element is passed over. -/
theorem readElements_next (f : Field δ) (fs : List (Field δ)) (d : δ) {i : Item} (hopens : Opens i.value) (tail : Octets) :
    readElements depth (f :: fs) false d (ofAscii ',' :: (i.text ++ tail)) = readElements depth (f :: fs) true d (i.text ++ tail) := by
  obtain ⟨b, s, hfront, hclose, -⟩ := skipBlank_item hopens tail
  rw [readElements, readElements, hfront, skipBlank_cons (by decide)]
  simp only [if_neg hclose, if_neg (show ofAscii ',' ≠ ofAscii ']' by decide), if_true, if_false, ne_eq, not_true_eq_false,
    Bool.false_eq_true, hfront]

/-- The end of an array, after the elements that are left. -/
def elementsTail (items : List Item) (gap : Blanks) : Octets :=
  (items.map Item.text).flatMap (ofAscii ',' :: ·) ++ (gap.1 ++ [ofAscii ']'])

theorem stops_elementsTail (items : List Item) (gap : Blanks) (rest : Octets) : Stops (elementsTail items gap ++ rest) := by
  simp only [elementsTail, List.append_assoc, List.singleton_append]
  exact stops_tail (.inl rfl) _ gap rest

/-- What follows an element is read by the fields that are left. -/
theorem frames_fieldItem {f : Field δ} (hf : Exact (f.read depth)) {fs : List (Field δ)} {i : Item} (hi : IsValue i.value)
    {items : List Item} {gap : Blanks} {P : δ → δ → Prop}
    (h : ∀ d, Frames (readElements depth fs false d) (elementsTail items gap) (P d)) (d : δ) :
    Frames (readElements depth (f :: fs) true d) (i.text ++ elementsTail items gap) fun d' =>
      ∃ set, f.read depth i.value = .ok (set, []) ∧ P (set d) d' := by
  have hstops : ∀ rest, Stops rest → Stops (i.after.1 ++ elementsTail items gap ++ rest) := by
    intro rest _
    rw [List.append_assoc]
    exact stops_blanks i.after (stops_elementsTail items gap rest)
  refine ((hf.frames hi).andThen hstops fun set => (h (set d)).blanks (readElements_blanks fs false (set d)) i.after).of_eq fun rest => ?_
  rw [List.append_assoc, readElements_item f fs d hi.opens]
  simp only [List.append_assoc]

/-- The elements after another one are read by the fields that are left, in their order. -/
theorem exists_frames_elementsTail {fs : List (Field δ)} (hfields : ∀ f ∈ fs, Exact (f.read depth)) {items : List Item}
    (h : ∀ i ∈ items, IsValue i.value) (gap : Blanks) :
    ∃ P : δ → δ → Prop, ∀ d, Frames (readElements depth fs false d) (elementsTail items gap) (P d) := by
  induction items generalizing fs with
  | nil =>
    refine ⟨fun d d' => d' = d, fun d => Frames.always fun rest _ => ?_⟩
    rw [elementsTail, List.map_nil, List.flatMap_nil, List.nil_append, List.append_assoc]
    exact readElements_close fs false d gap rest
  | cons i items ih =>
    cases fs with
    | nil =>
      refine ⟨fun _ _ => False, fun d => Frames.never fun rest a s' hread => ?_⟩
      cases hread
    | cons f fs =>
      obtain ⟨P, hP⟩ := ih (fun g hg => hfields g (List.mem_cons_of_mem _ hg)) fun j hj => h j (List.mem_cons_of_mem _ hj)
      have hitem := fun d => frames_fieldItem (hfields f List.mem_cons_self) (h i List.mem_cons_self) hP d
      refine ⟨_, fun d => (hitem d).of_eq fun rest => ?_⟩
      have htail : elementsTail (i :: items) gap ++ rest = ofAscii ',' :: (i.text ++ (elementsTail items gap ++ rest)) := by
        simp only [elementsTail, List.map_cons, List.flatMap_cons, List.cons_append, List.append_assoc]
      rw [htail, readElements_next f fs d (h i List.mem_cons_self).opens, List.append_assoc]

/-- Elements are read by the fields in their order. -/
theorem exists_frames_elements {fs : List (Field δ)} (hfields : ∀ f ∈ fs, Exact (f.read depth)) {items : List Item}
    (h : ∀ i ∈ items, IsValue i.value) (gap : Blanks) (d : δ) :
    ∃ P, Frames (readElements depth fs true d) (joined (items.map Item.text) ++ (gap.1 ++ [ofAscii ']'])) P := by
  cases items with
  | nil =>
    refine ⟨(· = d), Frames.always fun rest _ => ?_⟩
    rw [List.map_nil, joined, List.nil_append, List.append_assoc]
    exact readElements_close fs true d gap rest
  | cons i items =>
    have hi := h i List.mem_cons_self
    have htext : joined ((i :: items).map Item.text) ++ (gap.1 ++ [ofAscii ']']) = i.text ++ elementsTail items gap := by
      rw [List.map_cons, joined, elementsTail, List.append_assoc]
    rw [htext]
    cases fs with
    | nil =>
      refine ⟨_, Frames.never fun rest a s' hread => ?_⟩
      obtain ⟨b, s, hfront, hclose, -⟩ := skipBlank_item hi.opens (elementsTail items gap ++ rest)
      rw [List.append_assoc, readElements, closeSequence, hfront] at hread
      simp only [if_neg hclose] at hread
      cases hread
    | cons f fs =>
      obtain ⟨P, hP⟩ := exists_frames_elementsTail (fun g hg => hfields g (List.mem_cons_of_mem _ hg))
        (fun j hj => h j (List.mem_cons_of_mem _ hj)) gap
      exact ⟨_, frames_fieldItem (hfields f List.mem_cons_self) hi hP d⟩

/-- A record is read exactly, if its fields are. -/
theorem exact_read (hfields : ∀ depth, ∀ f ∈ r.fields, Exact (f.read depth)) (depth : Nat) : Exact (r.read depth) where
  blanks b s := by
    unfold read
    rw [skipBlank_append]
  frames hv := by
    obtain ⟨b, t, rfl, hopening⟩ := hv.exists_opening
    by_cases hbracket : b = ofAscii '['
    · obtain ⟨items, gap, h, heq⟩ := hopening.sequence hbracket
      rw [heq]
      cases depth with
      | zero => exact (Frames.refused (e := .malformed) fun rest => rfl).self
      | succ depth =>
        obtain ⟨P, hP⟩ := exists_frames_elements (hfields depth) h gap r.empty
        exact ((hP.bind r.ofElements).cons fun s => rfl).self
    by_cases hbrace : b = ofAscii '\x7b'
    · obtain ⟨ms, gap, hnames, h, heq⟩ := hopening.object hbrace
      rw [heq]
      cases depth with
      | zero => exact (Frames.refused (e := .malformed) fun rest => rfl).self
      | succ depth => exact (frames_object (hfields depth) hnames h gap).self
    · have hrefused : ∀ s, r.read depth (b :: s) = unexpected r.expected (b :: s) := by
        intro s
        simp only [read, skipBlank_cons hopening.blank]
        split
        · exact absurd (eq_of_lead ‹_› rfl) hbracket
        · exact absurd (eq_of_lead ‹_› rfl) hbrace
        · exact absurd (eq_of_lead ‹_› rfl) hbracket
        · exact absurd (eq_of_lead ‹_› rfl) hbrace
        · rfl
      exact (Frames.never fun rest a s' => by rw [List.cons_append, hrefused]; exact unexpected_ne_ok).self

end Shape

end AuditTrail.Json
