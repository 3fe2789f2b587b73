import AuditTrail.Proofs.Json.Soundness
import Mathlib.Data.List.Forall2
import Mathlib.Data.List.Pairwise

/-!
# Objects in any order, with more members than are known

Whoever writes the object of a record may order its members freely and add members that the record does not know. The fields of a
record are kept apart in its draft (`Shape.Separate`), so it does not matter which member comes first, and an unknown member leaves
the draft as it is; a known one that comes twice is refused wherever it stands. So one object reads like another one that it extends
(`Object.Extends`), and one that repeats a known member does not read at all (`Object.Repeats`).
-/

namespace AuditTrail.Json

open Octets (ofAscii)
open Outcome

/-! ## Objects -/

/-- A member whose name spells a text and whose value is a value of the grammar. No object with another name is read
(`Shape.exists_payload`). -/
structure Named extends Member where
  name : String
  spells : Spells body name
  isValue : IsValue item.value

/-- An object of such members, with blanks for one that has none. -/
structure Object where
  members : List Named
  gap : Blanks

/-- A member whose name stands for itself, without blanks. -/
def Named.plain (name : String) (value : Octets) (hname : Plain (Utf8.encode name)) (hvalue : IsValue value) : Named where
  before := noBlanks
  body := Utf8.encode name
  gap := noBlanks
  item := ⟨noBlanks, value, noBlanks⟩
  name := name
  spells := ⟨_, means_plain hname, Utf8.decode?_encode name⟩
  isValue := hvalue

/-- Two members say the same, by their name in any spelling and the text of their value. -/
def Named.Same (m m' : Named) : Prop := m'.name = m.name ∧ m'.item.value = m.item.value

namespace Object

def text (o : Object) : Octets := objectText (o.members.map Named.toMember) o.gap

/-- A document of an object, with blanks before and after it. -/
def payload (o : Object) (before after : Blanks) : Octets := before.1 ++ (o.text ++ after.1)

/-- The first object has the members of the second in any order, each of which says the same as there, and anywhere between them more
members, none of which has a known name. -/
def Extends (known : List String) (same : Named → Named → Prop) (o' o : Object) : Prop :=
  ∃ kept added, List.Forall₂ same o.members kept ∧ (∀ m ∈ added, m.name ∉ known) ∧ o'.members.Perm (kept ++ added)

/-- The object has a known member more than once. -/
def Repeats (known : List String) (o : Object) : Prop := ∃ name ∈ known, 2 ≤ (o.members.map (·.name)).count name

theorem isValue_text (o : Object) : IsValue o.text := by
  refine .object (fun m hm => ?_) fun m hm => ?_
  all_goals obtain ⟨n, -, rfl⟩ := List.mem_map.1 hm
  · exact n.spells.isBody
  · exact n.isValue

end Object

/-- The text opens with a brace, after blanks. -/
def OpensObject (s : Octets) : Prop := (skipBlank s).head? = some (ofAscii '\x7b')

instance (s : Octets) : Decidable (OpensObject s) := inferInstanceAs (Decidable (_ = _))

/-- A document opens as its value does. -/
theorem opensObject_document {v : Octets} (hv : IsValue v) (before after : Blanks) :
    OpensObject (before.1 ++ (v ++ after.1)) ↔ OpensObject v := by
  obtain ⟨b, t, rfl, hopening⟩ := hv.exists_opening
  rw [OpensObject, OpensObject, skipBlank_append, List.cons_append, skipBlank_cons hopening.blank, skipBlank_cons hopening.blank,
    List.head?_cons, List.head?_cons]

/-- A value that opens with a brace is an object. -/
theorem IsValue.exists_of_opensObject {v : Octets} (hv : IsValue v) (h : OpensObject v) :
    ∃ ms gap, (∀ m ∈ ms, IsBody m.body) ∧ (∀ m ∈ ms, IsValue m.item.value) ∧ v = objectText ms gap := by
  obtain ⟨b, t, rfl, hopening⟩ := hv.exists_opening
  rw [OpensObject, skipBlank_cons hopening.blank] at h
  exact hopening.object (Option.some.inj h)

/-! ## Folds in any order -/

section

variable {σ ι : Type} {step : σ → ι → σ → Prop}

/-- What is folded one after another is folded as a whole. -/
theorem Folded.append {acc acc' acc'' : σ} {is js : List ι} (h : Folded step acc is acc') (hjs : Folded step acc' js acc'') :
    Folded step acc (is ++ js) acc'' := by
  induction h with
  | nil acc => exact hjs
  | cons h _ ih => exact .cons h (ih hjs)

/-- Items that may change places with their neighbours are folded in any order. -/
theorem Folded.perm (hswap : ∀ {acc i acc' j acc''}, step acc i acc' → step acc' j acc'' → ∃ x, step acc j x ∧ step x i acc'')
    {is js : List ι} (hperm : is.Perm js) {acc acc' : σ} (h : Folded step acc is acc') : Folded step acc js acc' := by
  induction hperm generalizing acc with
  | nil => exact h
  | cons i _ ih =>
    cases h with
    | cons h his => exact .cons h (ih his)
  | swap i j is =>
    cases h with
    | cons hj h =>
      cases h with
      | cons hi his =>
        obtain ⟨x, hi', hj'⟩ := hswap hj hi
        exact .cons hi' (.cons hj' his)
  | trans _ _ ih₁ ih₂ => exact ih₂ (ih₁ h)

/-- Every item that is folded is taken in some step. -/
theorem Folded.exists_step {acc acc' : σ} {is : List ι} (h : Folded step acc is acc') {i : ι} (hi : i ∈ is) :
    ∃ x y, step x i y := by
  induction h with
  | nil => cases hi
  | cons h _ ih =>
    rcases List.mem_cons.1 hi with rfl | hi
    · exact ⟨_, _, h⟩
    · exact ih hi

end

/-! ## Fields of their own -/

namespace Field

variable {δ : Type}

/-- What the field puts into a draft. -/
def Puts (f : Field δ) (set : δ → δ) : Prop := ∃ depth s rest, f.read depth s = .ok (set, rest)

/-- The field reads just the values of the grammar, and is there once it has been put into a draft. -/
structure Sound (f : Field δ) : Prop where
  exact : ∀ depth, Exact (f.read depth)
  takes : ∀ depth, TakesValue (f.read depth)
  isSet : ∀ {set}, f.Puts set → ∀ d, f.isSet (set d) = true

/-- Whichever of two fields is put into a draft first, the draft is the same, and neither is there because the other one is. -/
structure Apart (f g : Field δ) : Prop where
  left : ∀ {set}, g.Puts set → ∀ d, f.isSet (set d) = f.isSet d
  right : ∀ {set}, f.Puts set → ∀ d, g.isSet (set d) = g.isSet d
  commute : ∀ {set set'}, f.Puts set → g.Puts set' → ∀ d, set (set' d) = set' (set d)

instance : Std.Symm (Apart : Field δ → Field δ → Prop) :=
  ⟨fun _ _ h => ⟨h.right, h.left, fun hset hset' d => (h.commute hset' hset d).symm⟩⟩

section

variable {τ υ : Type} {name name' : String} {c : Codec τ} {c' : Codec υ} {get : δ → Option τ} {get' : δ → Option υ}
  {set : τ → δ → δ} {set' : υ → δ → δ}

theorem exists_set_of_puts {put : δ → δ} (h : (Field.ofCodec name c get set).Puts put) : ∃ a, put = set a := by
  obtain ⟨depth, s, rest, h⟩ := h
  obtain ⟨⟨a, s₁⟩, -, h⟩ := map_eq_ok.1 h
  cases h
  exact ⟨a, rfl⟩

/-- A field that keeps what a faithful codec reads is sound. -/
theorem sound_ofCodec (hc : c.Faithful) (hset : ∀ a d, (get (set a d)).isSome = true) : (Field.ofCodec name c get set).Sound where
  exact depth := exact_ofCodec (hc.exact depth) name get set
  takes depth := (hc.takes depth).map set
  isSet h d := by
    obtain ⟨a, rfl⟩ := exists_set_of_puts h
    exact hset a d

/-- Fields with places of their own in the draft are kept apart. -/
theorem apart_ofCodec (hleft : ∀ b d, get (set' b d) = get d) (hright : ∀ a d, get' (set a d) = get' d)
    (hcommute : ∀ a b d, set a (set' b d) = set' b (set a d)) :
    (Field.ofCodec name c get set).Apart (Field.ofCodec name' c' get' set') where
  left h d := by
    obtain ⟨b, rfl⟩ := exists_set_of_puts h
    exact congrArg Option.isSome (hleft b d)
  right h d := by
    obtain ⟨a, rfl⟩ := exists_set_of_puts h
    exact congrArg Option.isSome (hright a d)
  commute h h' d := by
    obtain ⟨a, rfl⟩ := exists_set_of_puts h
    obtain ⟨b, rfl⟩ := exists_set_of_puts h'
    exact hcommute a b d

end

end Field

namespace Shape

variable {δ α : Type} {r : Shape δ α}

/-- The names of the members that are known. -/
def known (r : Shape δ α) : List String := r.fields.map (·.name)

/-- The fields of a record are sound, and each has a place of its own in the draft. -/
structure Separate (r : Shape δ α) : Prop where
  sound : ∀ f ∈ r.fields, f.Sound
  apart : r.fields.Pairwise Field.Apart

theorem Separate.exact (h : r.Separate) (depth : Nat) : ∀ f ∈ r.fields, Exact (f.read depth) :=
  fun f hf => (h.sound f hf).exact depth

/-- A record is read from just the values of the grammar. -/
theorem Separate.faithful (h : r.Separate) (write : α → String) : (r.codec write).Faithful :=
  ⟨exact_read h.exact, takesValue_read fun depth f hf => (h.sound f hf).takes depth⟩

theorem find?_eq_none_iff {name : String} : r.fields.find? (·.name == name) = none ↔ name ∉ r.known := by
  rw [List.find?_eq_none, known, List.mem_map]
  simp only [beq_iff_eq, not_exists, not_and]

/-- An unknown member leaves the draft as it is. -/
theorem fillAs_unknown {depth : Nat} {name : String} (h : name ∉ r.known) {value : Octets} {d d' : δ} :
    r.FillAs depth name value d d' ↔ d' = d := by
  rw [FillAs, find?_eq_none_iff.2 h]

/-- A known member is taken by the field of its name. -/
theorem fillAs_known {depth : Nat} {name : String} {f : Field δ} (h : r.fields.find? (·.name == name) = some f) {value : Octets}
    {d d' : δ} : r.FillAs depth name value d d' ↔ f.isSet d = false ∧ ∃ set, f.read depth value = .ok (set, []) ∧ set d = d' := by
  rw [FillAs, h]

/-- Two members of one name are refused, and others may change places. -/
theorem FillAs.swap (h : r.Separate) {depth : Nat} {name name' : String} {value value' : Octets} {d d₁ d₂ : δ}
    (h₁ : r.FillAs depth name value d d₁) (h₂ : r.FillAs depth name' value' d₁ d₂) :
    (name = name' → name ∉ r.known) ∧ ∃ x, r.FillAs depth name' value' d x ∧ r.FillAs depth name value x d₂ := by
  cases hf : r.fields.find? (·.name == name) with
  | none =>
    have hunknown := find?_eq_none_iff.1 hf
    obtain rfl := (fillAs_unknown hunknown).1 h₁
    exact ⟨fun _ => hunknown, d₂, h₂, (fillAs_unknown hunknown).2 rfl⟩
  | some f =>
    cases hg : r.fields.find? (·.name == name') with
    | none =>
      have hunknown := find?_eq_none_iff.1 hg
      obtain rfl := (fillAs_unknown hunknown).1 h₂
      exact ⟨fun heq => heq ▸ hunknown, d, (fillAs_unknown hunknown).2 rfl, h₁⟩
    | some g =>
      obtain ⟨hunset, set, hset, rfl⟩ := (fillAs_known hf).1 h₁
      obtain ⟨hunset', set', hset', rfl⟩ := (fillAs_known hg).1 h₂
      have hfput : f.Puts set := ⟨_, _, _, hset⟩
      have hgput : g.Puts set' := ⟨_, _, _, hset'⟩
      have hmem := List.mem_of_find?_eq_some hf
      have hmem' := List.mem_of_find?_eq_some hg
      -- the field of one name would be there after the first member
      have hne : f ≠ g := by
        rintro rfl
        exact Bool.false_ne_true (hunset'.symm.trans ((h.sound f hmem).isSet hfput d))
      have hapart : f.Apart g := h.apart.forall hmem hmem' hne
      refine ⟨fun heq => absurd ?_ hne, set' d, (fillAs_known hg).2 ⟨?_, set', hset', rfl⟩,
        (fillAs_known hf).2 ⟨?_, set, hset, hapart.commute hfput hgput d⟩⟩
      · rw [heq, hg] at hf
        exact (Option.some.inj hf).symm
      · rw [← hapart.right hfput d, hunset']
      · rw [hapart.left hgput d, hunset]

/-- A member of that name may be moved to the front. -/
theorem exists_perm_cons {ms : List Named} {name : String} (h : name ∈ ms.map Named.name) :
    ∃ m ms', ms.Perm (m :: ms') ∧ m.name = name := by
  obtain ⟨m, hm, rfl⟩ := List.mem_map.1 h
  obtain ⟨before, after, rfl⟩ := List.append_of_mem hm
  exact ⟨m, before ++ after, List.perm_middle, rfl⟩

/-- A member is taken by its name. -/
theorem fill_iff {depth : Nat} (m : Named) {d d' : δ} :
    r.Fill depth d m.toMember d' ↔ r.FillAs depth m.name m.item.value d d' := by
  constructor
  · rintro ⟨name, hspells, h⟩
    rwa [hspells.unique m.spells] at h
  · intro h
    exact ⟨m.name, m.spells, h⟩

/-- Members may change places, unless they are of one field. -/
theorem fill_swap (h : r.Separate) {depth : Nat} {d d₁ d₂ : δ} {m m' : Member} (h₁ : r.Fill depth d m d₁)
    (h₂ : r.Fill depth d₁ m' d₂) : ∃ x, r.Fill depth d m' x ∧ r.Fill depth x m d₂ := by
  obtain ⟨name, hname, h₁⟩ := h₁
  obtain ⟨name', hname', h₂⟩ := h₂
  obtain ⟨-, x, hx, hx'⟩ := FillAs.swap h h₁ h₂
  exact ⟨x, ⟨name', hname', hx⟩, name, hname, hx'⟩

/-- A member that says the same as another one does the same to a draft. -/
theorem fill_same {depth : Nat} {m m' : Named} (h : m.Same m') {d d' : δ} (hfill : r.Fill depth d m.toMember d') :
    r.Fill depth d m'.toMember d' := by
  rw [fill_iff] at hfill ⊢
  rwa [h.1, h.2]

theorem folded_same {same : Named → Named → Prop} {depth : Nat}
    (hsame : ∀ {m m' d d'}, same m m' → r.Fill depth d m.toMember d' → r.Fill depth d m'.toMember d') {ms ms' : List Named}
    (h : List.Forall₂ same ms ms') {d d' : δ} (hfold : Folded (r.Fill depth) d (ms.map Named.toMember) d') :
    Folded (r.Fill depth) d (ms'.map Named.toMember) d' := by
  induction h generalizing d with
  | nil => exact hfold
  | cons hm _ ih =>
    cases hfold with
    | cons hfill hms => exact .cons (hsame hm hfill) (ih hms)

/-- Unknown members leave the draft as it is. -/
theorem folded_unknown {ms : List Named} (h : ∀ m ∈ ms, m.name ∉ r.known) (depth : Nat) (d : δ) :
    Folded (r.Fill depth) d (ms.map Named.toMember) d := by
  induction ms with
  | nil => exact .nil d
  | cons m ms ih =>
    exact .cons ((fill_iff m).2 ((fillAs_unknown (h m List.mem_cons_self)).2 rfl)) (ih fun n hn => h n (List.mem_cons_of_mem _ hn))

/-- An object that extends another one is taken into a draft as the other one is. -/
theorem folded_extends (h : r.Separate) {same : Named → Named → Prop} {depth : Nat}
    (hsame : ∀ {m m' d d'}, same m m' → r.Fill depth d m.toMember d' → r.Fill depth d m'.toMember d') {o o' : Object}
    (hext : o'.Extends r.known same o) {d d' : δ} (hfold : Folded (r.Fill depth) d (o.members.map Named.toMember) d') :
    Folded (r.Fill depth) d (o'.members.map Named.toMember) d' := by
  obtain ⟨kept, added, hkept, hadded, hperm⟩ := hext
  have hall : Folded (r.Fill depth) d ((kept ++ added).map Named.toMember) d' := by
    rw [List.map_append]
    exact (folded_same hsame hkept hfold).append (folded_unknown hadded depth d')
  exact hall.perm (fill_swap h) (hperm.map Named.toMember).symm

/-- An object that repeats a known member is taken into no draft. -/
theorem not_folded_of_repeats (h : r.Separate) {o : Object} (hrepeats : o.Repeats r.known) {depth : Nat} {d d' : δ} :
    ¬ Folded (r.Fill depth) d (o.members.map Named.toMember) d' := by
  intro hfold
  obtain ⟨name, hknown, hcount⟩ := hrepeats
  obtain ⟨m, ms, hm, rfl⟩ := exists_perm_cons (List.count_pos_iff.1 (Nat.lt_of_lt_of_le Nat.zero_lt_two hcount))
  rw [(hm.map Named.name).count_eq, List.map_cons, List.count_cons_self, Nat.succ_le_succ_iff] at hcount
  obtain ⟨m', ms', hm', hname⟩ := exists_perm_cons (List.count_pos_iff.1 hcount)
  have hfront := hfold.perm (fill_swap h) ((hm.trans (hm'.cons m)).map Named.toMember)
  cases hfront with
  | cons h₁ hrest =>
    cases hrest with
    | cons h₂ =>
      exact (FillAs.swap h ((fill_iff m).1 h₁) ((fill_iff m').1 h₂)).1 hname.symm hknown

/-- The draft of an object. -/
theorem read_text (h : r.Separate) {depth : Nat} {o : Object} {a : α} : r.read (depth + 1) o.text = .ok (a, []) ↔
    ∃ d, Folded (r.Fill depth) r.empty (o.members.map Named.toMember) d ∧ r.ofMembers d = .ok a := by
  refine (frames_object (h.exact depth) (fun m hm => ?_) (fun m hm => ?_) o.gap).alone a
  all_goals obtain ⟨n, -, rfl⟩ := List.mem_map.1 hm
  · exact n.spells.isBody
  · exact n.isValue

/-- Members whose names spell texts are named. -/
theorem exists_named {ms : List Member} (h : ∀ m ∈ ms, (∃ name, Spells m.body name) ∧ IsValue m.item.value) :
    ∃ ns : List Named, ns.map Named.toMember = ms := by
  induction ms with
  | nil => exact ⟨[], rfl⟩
  | cons m ms ih =>
    obtain ⟨ns, rfl⟩ := ih fun n hn => h n (List.mem_cons_of_mem _ hn)
    obtain ⟨⟨name, hspells⟩, hvalue⟩ := h m List.mem_cons_self
    exact ⟨⟨m, name, hspells, hvalue⟩ :: ns, rfl⟩

/-- A value that opens with a brace and is read is an object with a name for each member. -/
theorem exists_object (h : r.Separate) {v : Octets} (hv : IsValue v) (hbrace : OpensObject v) {depth : Nat} {a : α}
    (hread : r.read depth v = .ok (a, [])) : ∃ o : Object, v = o.text := by
  obtain ⟨ms, gap, hnames, hvalues, rfl⟩ := hv.exists_of_opensObject hbrace
  cases depth with
  | zero => cases hread
  | succ depth =>
    obtain ⟨d, hfold, -⟩ := ((frames_object (h.exact depth) hnames hvalues gap).alone a).1 hread
    have hspells : ∀ m ∈ ms, (∃ name, Spells m.body name) ∧ IsValue m.item.value := by
      intro m hm
      obtain ⟨x, y, name, hspells, -⟩ := hfold.exists_step hm
      exact ⟨⟨name, hspells⟩, hvalues m hm⟩
    obtain ⟨ns, rfl⟩ := exists_named hspells
    exact ⟨⟨ns, gap⟩, rfl⟩

/-- A document that opens with a brace and is decoded is that of an object. -/
theorem exists_payload (h : r.Separate) {write : α → String} {s : Octets} {a : α} (hdecode : (r.codec write).decode s = .ok a)
    (hbrace : OpensObject s) : ∃ (o : Object) (before after : Blanks), s = o.payload before after := by
  obtain ⟨before, v, after, hv, rfl⟩ := (h.faithful write).exists_of_decode hdecode
  have hread := ((h.faithful write).decode_eq_ok_iff hv before after).1 hdecode
  obtain ⟨o, rfl⟩ := exists_object h hv ((opensObject_document hv before after).1 hbrace) hread
  exact ⟨o, before, after, rfl⟩

/-- What is read of an object is read of each one that extends it. -/
theorem read_extends (h : r.Separate) {same : Named → Named → Prop}
    (hsame : ∀ {depth m m' d d'}, same m m' → r.Fill depth d m.toMember d' → r.Fill depth d m'.toMember d') {o o' : Object}
    (hext : o'.Extends r.known same o) {depth : Nat} {a : α} (hread : r.read depth o.text = .ok (a, [])) :
    r.read depth o'.text = .ok (a, []) := by
  cases depth with
  | zero => cases hread
  | succ depth =>
    obtain ⟨d, hfold, hd⟩ := (read_text h).1 hread
    exact (read_text h).2 ⟨d, folded_extends h hsame hext hfold, hd⟩

/-- An object that repeats a known member is not read. -/
theorem not_read_of_repeats (h : r.Separate) {o : Object} (hrepeats : o.Repeats r.known) {depth : Nat} {a : α} :
    r.read depth o.text ≠ .ok (a, []) := by
  intro hread
  cases depth with
  | zero => cases hread
  | succ depth =>
    obtain ⟨d, hfold, -⟩ := (read_text h).1 hread
    exact not_folded_of_repeats h hrepeats hfold

end Shape

end AuditTrail.Json
