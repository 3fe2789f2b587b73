import AuditTrail.Proofs.Json.Numbers

/-!
# Values by their grammar

A value that is skipped is passed over, whatever it is (`skipValue_value`). A reader that keeps values may refuse one, but if it does
not, it takes just the text of the value and makes of it the same wherever it stands (`Exact`). The loops over elements and members are
shown to take a list of texts that are framed one by one, and values follow by the structure of their grammar.
-/

namespace AuditTrail.Json

open Octets (ofAscii isDigit digit)
open Outcome

/-! ## Elements and members -/

/-- A list is folded item by item. -/
inductive Folded {σ ι : Type} (step : σ → ι → σ → Prop) : σ → List ι → σ → Prop where
  | nil (acc : σ) : Folded step acc [] acc
  | cons {acc acc' acc'' : σ} {i : ι} {is : List ι} (h : step acc i acc') (his : Folded step acc' is acc'') :
      Folded step acc (i :: is) acc''

section

variable {σ ι : Type} {step : σ → ι → σ → Prop}

theorem folded_nil_iff {acc acc' : σ} : Folded step acc [] acc' ↔ acc' = acc := by
  constructor
  · intro h
    cases h
    rfl
  · rintro rfl
    exact .nil _

theorem and_folded_cons_iff {p : Prop} {acc acc'' : σ} {i : ι} {is : List ι} :
    p ∧ Folded step acc (i :: is) acc'' ↔ ∃ acc', step acc i acc' ∧ p ∧ Folded step acc' is acc'' := by
  constructor
  · rintro ⟨hp, h⟩
    cases h with
    | cons h his => exact ⟨_, h, hp, his⟩
  · rintro ⟨acc', h, hp, his⟩
    exact ⟨hp, .cons h his⟩

end

theorem length_le_joined (texts : List Octets) : texts.length ≤ (joined texts).length + 1 := by
  have htail : ∀ texts : List Octets, texts.length ≤ (texts.flatMap (ofAscii ',' :: ·)).length := by
    intro texts
    induction texts with
    | nil => exact Nat.le_refl 0
    | cons t texts ih =>
      rw [List.flatMap_cons, List.length_append, List.length_cons, List.length_cons]
      omega
  cases texts with
  | nil => exact Nat.zero_le _
  | cons t texts =>
    have := htail texts
    rw [joined, List.length_append, List.length_cons]
    omega

theorem length_le_joined_of_mem {t : Octets} {texts : List Octets} (h : t ∈ texts) : t.length ≤ (joined texts).length := by
  cases texts with
  | nil => cases h
  | cons u texts =>
    rw [joined, List.length_append]
    rcases List.mem_cons.1 h with rfl | h
    · exact Nat.le_add_right _ _
    · obtain ⟨before, after, rfl⟩ := List.append_of_mem h
      rw [List.flatMap_append, List.flatMap_cons, List.length_append, List.length_append, List.length_cons]
      omega

section

variable {σ : Type} {item : σ → Reader σ} {step : σ → Item → σ → Prop}

theorem foldElements_blanks (item : σ → Reader σ) (bound : Nat) (first : Bool) (acc : σ) (b : Blanks) (s : Octets) :
    foldElements item bound first acc (b.1 ++ s) = foldElements item bound first acc s := by
  cases bound with
  | zero => rfl
  | succ bound => rw [foldElements, foldElements, skipBlank_append]

/-- Before an element stand blanks, and it opens with no closing bracket. -/
theorem skipBlank_item {i : Item} (hopens : Opens i.value) (tail : Octets) :
    ∃ b s, skipBlank (i.text ++ tail) = b :: s ∧ b ≠ ofAscii ']' ∧ b :: s = i.value ++ (i.after.1 ++ tail) := by
  obtain ⟨b, t, hb, hblank, hclose⟩ := hopens
  refine ⟨b, t ++ (i.after.1 ++ tail), ?_, hclose, by rw [hb, List.cons_append]⟩
  simp only [Item.text, List.append_assoc]
  rw [skipBlank_append, hb, List.cons_append, skipBlank_cons hblank]

/-- An element is taken from the front. -/
theorem foldElements_item {i : Item} {acc : σ} (hopens : Opens i.value) (h : Frames (item acc) i.value (step acc i)) {tail : Octets}
    (htail : Stops tail) (bound : Nat) {acc'' : σ} {s' : Octets} :
    foldElements item (bound + 1) true acc (i.text ++ tail) = .ok (acc'', s') ↔
      ∃ acc', step acc i acc' ∧ foldElements item bound false acc' tail = .ok (acc'', s') := by
  obtain ⟨b, s, hfront, hclose, hvalue⟩ := skipBlank_item hopens tail
  rw [foldElements, hfront]
  simp only [if_neg hclose, if_true]
  rw [hvalue, bind_eq_ok]
  constructor
  · rintro ⟨⟨acc', s₁⟩, hread, hrest⟩
    obtain ⟨rfl, hstep⟩ := (h _ (stops_blanks i.after htail) _ _).1 hread
    exact ⟨acc', hstep, (foldElements_blanks item bound false acc' i.after tail).symm.trans hrest⟩
  · rintro ⟨acc', hstep, hrest⟩
    exact ⟨(acc', i.after.1 ++ tail), (h _ (stops_blanks i.after htail) _ _).2 ⟨rfl, hstep⟩,
      (foldElements_blanks item bound false acc' i.after tail).trans hrest⟩

/-- A comma before an element is passed over. -/
theorem foldElements_next {i : Item} (hopens : Opens i.value) (acc : σ) (tail : Octets) (bound : Nat) :
    foldElements item (bound + 1) false acc (ofAscii ',' :: (i.text ++ tail)) =
      foldElements item (bound + 1) true acc (i.text ++ tail) := by
  obtain ⟨b, s, hfront, hclose, -⟩ := skipBlank_item hopens tail
  rw [foldElements, foldElements, hfront, skipBlank_cons (by decide)]
  simp only [if_neg hclose, if_neg (show ofAscii ',' ≠ ofAscii ']' by decide), Bool.false_eq_true, if_true, if_false, hfront]

/-- The end of a sequence is taken from the front. -/
theorem foldElements_close (bound : Nat) (first : Bool) (acc : σ) (gap : Blanks) (rest : Octets) {acc' : σ} {s' : Octets} :
    foldElements item (bound + 1) first acc (gap.1 ++ ofAscii ']' :: rest) = .ok (acc', s') ↔
      s' = rest ∧ Folded step acc [] acc' := by
  have hclose : foldElements item (bound + 1) first acc (gap.1 ++ ofAscii ']' :: rest) = .ok (acc, rest) := by
    rw [foldElements_blanks]
    rfl
  rw [hclose, folded_nil_iff, Except.ok.injEq, Prod.mk.injEq, and_comm, @eq_comm _ rest, @eq_comm _ acc]

theorem foldElements_tail {items : List Item} (hopens : ∀ i ∈ items, Opens i.value)
    (h : ∀ i ∈ items, ∀ acc, Frames (item acc) i.value (step acc i)) (gap : Blanks) (rest : Octets) {bound : Nat}
    (hbound : items.length < bound) {acc acc' : σ} {s' : Octets} :
    foldElements item bound false acc ((items.map Item.text).flatMap (ofAscii ',' :: ·) ++ (gap.1 ++ ofAscii ']' :: rest)) =
      .ok (acc', s') ↔ s' = rest ∧ Folded step acc items acc' := by
  induction items generalizing acc bound with
  | nil =>
    obtain ⟨bound, rfl⟩ := Nat.exists_eq_succ_of_ne_zero (Nat.ne_zero_of_lt hbound)
    exact foldElements_close bound false acc gap rest
  | cons i items ih =>
    obtain ⟨bound, rfl⟩ := Nat.exists_eq_succ_of_ne_zero (Nat.ne_zero_of_lt hbound)
    have hi := hopens i List.mem_cons_self
    have hih := fun acc => @ih (fun j hj => hopens j (List.mem_cons_of_mem _ hj)) (fun j hj => h j (List.mem_cons_of_mem _ hj)) bound
      (Nat.lt_of_succ_lt_succ hbound) acc
    rw [List.map_cons, List.flatMap_cons, List.append_assoc, List.cons_append, foldElements_next hi,
      foldElements_item hi (h i List.mem_cons_self acc) (stops_tail (.inl rfl) _ gap rest), and_folded_cons_iff]
    simp only [hih]

/-- A sequence is taken element by element up to its end. -/
theorem frames_elements {items : List Item} (hopens : ∀ i ∈ items, Opens i.value)
    (h : ∀ i ∈ items, ∀ acc, Frames (item acc) i.value (step acc i)) (gap : Blanks) (acc : σ) :
    Frames (fun s => foldElements item (s.length + 1) true acc s) (joined (items.map Item.text) ++ (gap.1 ++ [ofAscii ']']))
      (Folded step acc items) := by
  intro rest _ acc' s'
  generalize hs : joined (items.map Item.text) ++ (gap.1 ++ [ofAscii ']']) ++ rest = s
  simp only [List.append_assoc, List.singleton_append] at hs
  have hlength := length_le_joined (items.map Item.text)
  rw [List.length_map] at hlength
  have hbound : items.length < s.length + 1 := by
    simp only [← hs, List.length_append, List.length_cons]
    omega
  cases items with
  | nil =>
    rw [← hs]
    exact foldElements_close _ true acc gap rest
  | cons i items =>
    have hi := hopens i List.mem_cons_self
    have htail := fun acc => @foldElements_tail _ _ _ items (fun j hj => hopens j (List.mem_cons_of_mem _ hj))
      (fun j hj => h j (List.mem_cons_of_mem _ hj)) gap rest s.length (Nat.lt_of_succ_lt_succ hbound) acc
    rw [List.map_cons, joined, List.append_assoc] at hs
    dsimp only
    generalize s.length = n at htail ⊢
    rw [← hs, foldElements_item hi (h i List.mem_cons_self acc) (stops_tail (.inl rfl) _ gap rest), and_folded_cons_iff]
    simp only [htail]

end

section

variable {σ κ : Type} {name : Reader κ} {member : σ → κ → Reader σ} {step : σ → Member → σ → Prop}

/-- Reads a member from the end of its opening quote on, first its name. -/
def readCore {α : Type} (name : Reader κ) (member : κ → Reader α) : Reader α := fun s => name s >>= fun x => member x.1 x.2

theorem foldMembers_blanks (name : Reader κ) (member : σ → κ → Reader σ) (bound : Nat) (first : Bool) (acc : σ) (b : Blanks)
    (s : Octets) : foldMembers name member bound first acc (b.1 ++ s) = foldMembers name member bound first acc s := by
  cases bound with
  | zero => rfl
  | succ bound => rw [foldMembers, foldMembers, skipBlank_append]

theorem skipBlank_member (m : Member) (tail : Octets) :
    skipBlank (m.text ++ tail) = ofAscii '\x22' :: (m.core ++ (m.item.after.1 ++ tail)) := by
  simp only [Member.text, List.append_assoc, List.cons_append]
  rw [skipBlank_append, skipBlank_cons (by decide)]

/-- A member is taken from the front. -/
theorem foldMembers_core {m : Member} {acc : σ} (h : Frames (readCore name (member acc)) m.core (step acc m)) {tail : Octets}
    (htail : Stops tail) (bound : Nat) {acc'' : σ} {s' : Octets} :
    foldMembers name member (bound + 1) true acc (m.text ++ tail) = .ok (acc'', s') ↔
      ∃ acc', step acc m acc' ∧ foldMembers name member bound false acc' tail = .ok (acc'', s') := by
  have hread : foldMembers name member (bound + 1) true acc (m.text ++ tail) =
      readCore name (member acc) (m.core ++ (m.item.after.1 ++ tail)) >>= fun x => foldMembers name member bound false x.1 x.2 := by
    rw [foldMembers, skipBlank_member]
    simp only [if_neg (show ofAscii '\x22' ≠ ofAscii '\x7d' by decide), if_true, ok_bind, ne_eq, not_true_eq_false, if_false]
    rw [readCore]
    cases name (m.core ++ (m.item.after.1 ++ tail)) <;> rfl
  rw [hread, bind_eq_ok]
  constructor
  · rintro ⟨⟨acc', s₁⟩, hcore, hrest⟩
    obtain ⟨rfl, hstep⟩ := (h _ (stops_blanks m.item.after htail) _ _).1 hcore
    exact ⟨acc', hstep, (foldMembers_blanks name member bound false acc' m.item.after tail).symm.trans hrest⟩
  · rintro ⟨acc', hstep, hrest⟩
    exact ⟨(acc', m.item.after.1 ++ tail), (h _ (stops_blanks m.item.after htail) _ _).2 ⟨rfl, hstep⟩,
      (foldMembers_blanks name member bound false acc' m.item.after tail).trans hrest⟩

/-- A comma before a member is passed over. -/
theorem foldMembers_next (m : Member) (acc : σ) (tail : Octets) (bound : Nat) :
    foldMembers name member (bound + 1) false acc (ofAscii ',' :: (m.text ++ tail)) =
      foldMembers name member (bound + 1) true acc (m.text ++ tail) := by
  rw [foldMembers, foldMembers, skipBlank_member, skipBlank_cons (by decide)]
  simp only [if_neg (show ofAscii '\x22' ≠ ofAscii '\x7d' by decide), if_neg (show ofAscii ',' ≠ ofAscii '\x7d' by decide),
    Bool.false_eq_true, if_true, if_false, ok_bind, skipBlank_member]

/-- The end of an object is taken from the front. -/
theorem foldMembers_close (bound : Nat) (first : Bool) (acc : σ) (gap : Blanks) (rest : Octets) {acc' : σ} {s' : Octets} :
    foldMembers name member (bound + 1) first acc (gap.1 ++ ofAscii '\x7d' :: rest) = .ok (acc', s') ↔
      s' = rest ∧ Folded step acc [] acc' := by
  have hclose : foldMembers name member (bound + 1) first acc (gap.1 ++ ofAscii '\x7d' :: rest) = .ok (acc, rest) := by
    rw [foldMembers_blanks]
    rfl
  rw [hclose, folded_nil_iff, Except.ok.injEq, Prod.mk.injEq, and_comm, @eq_comm _ rest, @eq_comm _ acc]

theorem foldMembers_tail {ms : List Member} (h : ∀ m ∈ ms, ∀ acc, Frames (readCore name (member acc)) m.core (step acc m)) (gap : Blanks)
    (rest : Octets) {bound : Nat} (hbound : ms.length < bound) {acc acc' : σ} {s' : Octets} :
    foldMembers name member bound false acc
      ((ms.map Member.text).flatMap (ofAscii ',' :: ·) ++ (gap.1 ++ ofAscii '\x7d' :: rest)) = .ok (acc', s') ↔
      s' = rest ∧ Folded step acc ms acc' := by
  induction ms generalizing acc bound with
  | nil =>
    obtain ⟨bound, rfl⟩ := Nat.exists_eq_succ_of_ne_zero (Nat.ne_zero_of_lt hbound)
    exact foldMembers_close bound false acc gap rest
  | cons m ms ih =>
    obtain ⟨bound, rfl⟩ := Nat.exists_eq_succ_of_ne_zero (Nat.ne_zero_of_lt hbound)
    have hih := fun acc => @ih (fun n hn => h n (List.mem_cons_of_mem _ hn)) bound (Nat.lt_of_succ_lt_succ hbound) acc
    rw [List.map_cons, List.flatMap_cons, List.append_assoc, List.cons_append, foldMembers_next,
      foldMembers_core (h m List.mem_cons_self acc) (stops_tail (.inr rfl) _ gap rest), and_folded_cons_iff]
    simp only [hih]

/-- An object is taken member by member up to its end. -/
theorem frames_members {ms : List Member} (h : ∀ m ∈ ms, ∀ acc, Frames (readCore name (member acc)) m.core (step acc m)) (gap : Blanks)
    (acc : σ) : Frames (fun s => foldMembers name member (s.length + 1) true acc s)
      (joined (ms.map Member.text) ++ (gap.1 ++ [ofAscii '\x7d'])) (Folded step acc ms) := by
  intro rest _ acc' s'
  generalize hs : joined (ms.map Member.text) ++ (gap.1 ++ [ofAscii '\x7d']) ++ rest = s
  simp only [List.append_assoc, List.singleton_append] at hs
  have hlength := length_le_joined (ms.map Member.text)
  rw [List.length_map] at hlength
  have hbound : ms.length < s.length + 1 := by
    simp only [← hs, List.length_append, List.length_cons]
    omega
  cases ms with
  | nil =>
    rw [← hs]
    exact foldMembers_close _ true acc gap rest
  | cons m ms =>
    have htail := fun acc => @foldMembers_tail _ _ _ _ _ ms (fun n hn => h n (List.mem_cons_of_mem _ hn)) gap rest s.length
      (Nat.lt_of_succ_lt_succ hbound) acc
    rw [List.map_cons, joined, List.append_assoc] at hs
    dsimp only
    generalize s.length = n at htail ⊢
    rw [← hs, foldMembers_core (h m List.mem_cons_self acc) (stops_tail (.inr rfl) _ gap rest), and_folded_cons_iff]
    simp only [htail]

end

/-! ## Values -/

/-- What a number opens with. -/
theorem IsNumber.exists_lead {v : Octets} (h : IsNumber v) : ∃ b t, v = b :: t ∧ (isDigit b = true ∨ b = ofAscii '-') := by
  obtain @⟨sign, whole, fraction, exponent, hsign, hwhole, hfraction, hexponent⟩ := h
  rcases hsign with rfl | rfl
  · cases whole with
    | nil => exact absurd rfl hwhole.1.1
    | cons d ds => exact ⟨d, _, rfl, .inl (hwhole.1.2 d List.mem_cons_self)⟩
  · exact ⟨_, _, rfl, .inr rfl⟩

/-- What a value is told by its first octet. -/
structure Opening (b : UInt8) (t : Octets) : Prop where
  blank : isBlank b = false
  close : b ≠ ofAscii ']'
  null : b = ofAscii 'n' → t = ascii "ull"
  number : lead? b = some .number → IsNumber (b :: t)
  string : b = ofAscii '\x22' → ∃ body, IsBody body ∧ t = body ++ [ofAscii '\x22']
  sequence : b = ofAscii '[' → ∃ items gap, (∀ i ∈ items, IsValue i.value) ∧ b :: t = sequenceText items gap
  object : b = ofAscii '\x7b' → ∃ ms gap, (∀ m ∈ ms, IsBody m.body) ∧ (∀ m ∈ ms, IsValue m.item.value) ∧ b :: t = objectText ms gap

theorem IsValue.exists_opening {v : Octets} (h : IsValue v) : ∃ b t, v = b :: t ∧ Opening b t := by
  cases h with
  | literal h =>
    rcases h with rfl | rfl | rfl
    · exact ⟨_, _, rfl, by decide, by decide, fun _ => rfl, nofun, fun h => absurd h (by decide), fun h => absurd h (by decide),
        fun h => absurd h (by decide)⟩
    all_goals exact ⟨_, _, rfl, by decide, by decide, fun h => absurd h (by decide), nofun, fun h => absurd h (by decide),
      fun h => absurd h (by decide), fun h => absurd h (by decide)⟩
  | number h =>
    obtain ⟨b, t, rfl, hlead⟩ := h.exists_lead
    have hne : ∀ c, isDigit c = false → c ≠ ofAscii '-' → b ≠ c := by
      rintro c hdigit hminus rfl
      rcases hlead with hb | hb
      · exact Bool.false_ne_true (hdigit.symm.trans hb)
      · exact hminus hb
    exact ⟨b, t, rfl, (lead_number hlead).2.1, (lead_number hlead).2.2, fun h => absurd h (hne _ (by decide) (by decide)), fun _ => h,
      fun h => absurd h (hne _ (by decide) (by decide)), fun h => absurd h (hne _ (by decide) (by decide)),
      fun h => absurd h (hne _ (by decide) (by decide))⟩
  | string h => exact ⟨_, _, rfl, by decide, by decide, fun h => absurd h (by decide), nofun, fun _ => ⟨_, h, rfl⟩,
      fun h => absurd h (by decide), fun h => absurd h (by decide)⟩
  | sequence h => exact ⟨_, _, rfl, by decide, by decide, fun h => absurd h (by decide), nofun, fun h => absurd h (by decide),
      fun _ => ⟨_, _, h, rfl⟩, fun h => absurd h (by decide)⟩
  | object hnames h => exact ⟨_, _, rfl, by decide, by decide, fun h => absurd h (by decide), nofun, fun h => absurd h (by decide),
      fun h => absurd h (by decide), fun _ => ⟨_, _, hnames, h, rfl⟩⟩

theorem IsValue.opens {v : Octets} (h : IsValue v) : Opens v := by
  obtain ⟨b, t, rfl, hopening⟩ := h.exists_opening
  exact ⟨b, t, rfl, hopening.blank, hopening.close⟩

theorem colon_gap (gap : Blanks) (s : Octets) : colon (gap.1 ++ ofAscii ':' :: s) = .ok ((), s) := by
  rw [colon, skipBlank_append]
  rfl

/-- A reader that passes over leading blanks, and takes just a value or refuses it, whatever follows. -/
structure Exact {α : Type} (R : Reader α) : Prop where
  blanks : ∀ (b : Blanks) (s : Octets), R (b.1 ++ s) = R s
  frames : ∀ {v : Octets}, IsValue v → Frames R v fun a => R v = .ok (a, [])

/-- A value is taken after its colon. -/
theorem frames_colon {α : Type} {R : Reader α} (hblanks : ∀ (b : Blanks) (s : Octets), R (b.1 ++ s) = R s) {v : Octets}
    {P : α → Prop} (h : Frames R v P) (gap before : Blanks) :
    Frames (fun s => colon s >>= fun x => R x.2) (gap.1 ++ ofAscii ':' :: (before.1 ++ v)) P := by
  refine (h.blanks hblanks before).of_eq fun rest => ?_
  rw [List.append_assoc, List.cons_append, colon_gap, ok_bind]

/-- A member is taken by its name and then by its value. -/
theorem frames_core {α : Type} {member : String → Reader α} {m : Member} (hbody : IsBody m.body) {P : String → α → Prop}
    (h : ∀ name, Frames (member name) (m.gap.1 ++ ofAscii ':' :: (m.item.before.1 ++ m.item.value)) (P name)) :
    Frames (readCore stringBody member) m.core fun a => ∃ name, Spells m.body name ∧ P name a := by
  intro rest hrest a s'
  rw [Member.core, List.append_assoc, List.cons_append, readCore, bind_eq_ok]
  constructor
  · rintro ⟨⟨name, s₁⟩, hname, hmember⟩
    obtain ⟨rfl, hspells⟩ := (stringBody_body hbody).1 hname
    obtain ⟨hs, hP⟩ := (h name rest hrest a s').1 hmember
    exact ⟨hs, name, hspells, hP⟩
  · rintro ⟨rfl, name, hspells, hP⟩
    exact ⟨_, (stringBody_body hbody).2 ⟨rfl, hspells⟩, (h name s' hrest a s').2 ⟨rfl, hP⟩⟩

theorem skipNested_blanks (depth : Nat) (b : Blanks) (s : Octets) : skipNested depth (b.1 ++ s) = skipNested depth s := by
  rw [skipNested.eq_def, skipNested.eq_def depth s]
  simp only [skipBlank_append]

theorem skipNested_sequence (depth : Nat) (s : Octets) : skipNested (depth + 1) (ofAscii '[' :: s) =
    foldElements (fun _ s => skipNested depth s) (s.length + 1) true () s := by
  rw [skipNested.eq_def]
  rfl

theorem skipNested_object (depth : Nat) (s : Octets) : skipNested (depth + 1) (ofAscii '\x7b' :: s) =
    foldMembers skipStringBody (fun _ _ s => colon s >>= fun x => skipNested depth x.2) (s.length + 1) true () s := by
  rw [skipNested.eq_def]
  rfl

/-- Whatever is folded into nothing, nothing comes of it. -/
theorem folded_unit_iff {ι : Type} (is : List ι) (a : Unit) : Folded (fun (_ : Unit) _ x => x = ()) () is a ↔ a = () := by
  induction is with
  | nil => exact folded_nil_iff
  | cons i is ih => exact ⟨fun _ => rfl, fun h => .cons rfl (ih.2 h)⟩

/-- A value that is not kept is passed over, if the reader goes as deep as its text is long. -/
theorem frames_skipNested {v : Octets} (h : IsValue v) {depth : Nat} (hdepth : v.length ≤ depth) :
    Frames (skipNested depth) v (· = ()) := by
  induction h generalizing depth with
  | literal h =>
    refine .always fun rest _ => ?_
    rw [skipNested.eq_def]
    rcases h with rfl | rfl | rfl <;> rfl
  | @number v h =>
    refine .always fun rest hrest => ?_
    obtain ⟨b, t, rfl, hlead⟩ := h.exists_lead
    obtain ⟨hnumber, hblank, -⟩ := lead_number hlead
    rw [List.cons_append, skipNested.eq_def]
    simp only [skipBlank_cons hblank, hnumber]
    exact skipNumber_number h hrest
  | @string body h =>
    refine .always fun rest _ => ?_
    rw [List.cons_append, List.append_assoc, List.singleton_append, skipNested.eq_def]
    exact skipStringBody_body h rest
  | @sequence items gap h ih =>
    obtain ⟨depth, rfl⟩ := Nat.exists_eq_succ_of_ne_zero (Nat.ne_zero_of_lt (Nat.lt_of_lt_of_le (Nat.succ_pos _) hdepth))
    have hitems : ∀ i ∈ items, ∀ acc : Unit, Frames (skipNested depth) i.value (· = ()) := by
      intro i hi _
      have hle := length_le_joined_of_mem (List.mem_map_of_mem (f := Item.text) hi)
      simp only [Item.text, sequenceText, List.length_append, List.length_cons] at hle hdepth
      exact ih i hi (by omega)
    exact ((frames_elements (fun i hi => (h i hi).opens) hitems gap ()).cons (skipNested_sequence depth)).congr (folded_unit_iff items)
  | @object ms gap hnames h ih =>
    obtain ⟨depth, rfl⟩ := Nat.exists_eq_succ_of_ne_zero (Nat.ne_zero_of_lt (Nat.lt_of_lt_of_le (Nat.succ_pos _) hdepth))
    have hms : ∀ m ∈ ms, ∀ _ : Unit,
        Frames (readCore skipStringBody fun _ s => colon s >>= fun x => skipNested depth x.2) m.core (· = ()) := by
      intro m hm _ rest hrest a s'
      have hle := length_le_joined_of_mem (List.mem_map_of_mem (f := Member.text) hm)
      simp only [Member.text, Member.core, objectText, List.length_append, List.length_cons] at hle hdepth
      rw [Member.core, List.append_assoc, List.cons_append, readCore, skipStringBody_body (hnames m hm), ok_bind]
      exact frames_colon (skipNested_blanks depth) (ih m hm (by omega)) m.gap m.item.before rest hrest a s'
    exact ((frames_members hms gap ()).cons (skipNested_object depth)).congr (folded_unit_iff ms)

/-- A value that is skipped is passed over, whatever it is. -/
theorem skipValue_value {v rest : Octets} (h : IsValue v) (hrest : Stops rest) (before : Blanks) :
    skipValue (before.1 ++ (v ++ rest)) = .ok ((), rest) := by
  rw [skipValue, skipNested_blanks]
  have hdepth : v.length ≤ (before.1 ++ (v ++ rest)).length := by
    simp only [List.length_append]
    omega
  exact (frames_skipNested h hdepth rest hrest () rest).2 ⟨rfl, rfl⟩

theorem readValue_blanks (depth : Nat) (b : Blanks) (s : Octets) : readValue depth (b.1 ++ s) = readValue depth s := by
  rw [readValue.eq_def, readValue.eq_def depth s]
  simp only [skipBlank_append]

/-- A string is framed by its body. -/
theorem frames_stringBody {body : Octets} (h : IsBody body) : Frames stringBody (body ++ [ofAscii '\x22']) (Spells body) := by
  intro rest _ text s'
  rw [List.append_assoc, List.singleton_append, stringBody_body h]

/-- A value that is kept is taken or refused by its own text. -/
theorem frames_readValue {v : Octets} (h : IsValue v) (depth : Nat) :
    Frames (readValue depth) v fun a => readValue depth v = .ok (a, []) := by
  induction h generalizing depth with
  | @literal s h =>
    obtain ⟨a, ha⟩ : ∃ a, ∀ rest, readValue depth (s ++ rest) = .ok (a, rest) := by
      rcases h with rfl | rfl | rfl
      · exact ⟨.null, fun rest => by rw [readValue.eq_def]; rfl⟩
      · exact ⟨.bool true, fun rest => by rw [readValue.eq_def]; rfl⟩
      · exact ⟨.bool false, fun rest => by rw [readValue.eq_def]; rfl⟩
    exact (Frames.always fun rest _ => ha rest).self
  | @number v h =>
    obtain ⟨b, t, rfl, hlead⟩ := h.exists_lead
    obtain ⟨hnumber, hblank, -⟩ := lead_number hlead
    refine (((frames_readNumber h).map Json.number).of_eq fun rest => ?_).self
    rw [List.cons_append, readValue.eq_def]
    simp only [skipBlank_cons hblank, hnumber]
  | string h =>
    refine (((frames_stringBody h).map Json.string).cons fun s => ?_).self
    rw [readValue.eq_def]
    rfl
  | @sequence items gap h ih =>
    cases depth with
    | zero =>
      refine (Frames.refused (e := .malformed) fun rest => ?_).self
      rw [sequenceText, List.cons_append, readValue.eq_def]
      rfl
    | succ depth =>
      have hitems : ∀ i ∈ items, ∀ acc : List Json, Frames (fun s => (readValue depth s).map fun r => (r.1 :: acc, r.2)) i.value
          fun acc' => ∃ a, readValue depth i.value = .ok (a, []) ∧ a :: acc = acc' :=
        fun i hi acc => (ih i hi depth).map (· :: acc)
      exact (((frames_elements (fun i hi => (h i hi).opens) hitems gap []).map fun acc => Json.array acc.reverse).cons
        (readValue_sequence depth)).self
  | @object ms gap hnames h ih =>
    cases depth with
    | zero =>
      refine (Frames.refused (e := .malformed) fun rest => ?_).self
      rw [objectText, List.cons_append, readValue.eq_def]
      rfl
    | succ depth =>
      have hms : ∀ m ∈ ms, ∀ acc : List (String × Json), Frames (readCore stringBody (readMember depth acc)) m.core
          fun acc' => ∃ name, Spells m.body name ∧ ∃ a, readValue depth m.item.value = .ok (a, []) ∧ setMember name a acc = acc' := by
        refine fun m hm acc => frames_core (hnames m hm) fun name => ?_
        have hread := (ih m hm depth).map fun a => setMember name a acc
        exact frames_colon (fun b s => by rw [readValue_blanks]) hread m.gap m.item.before
      exact (((frames_members hms gap []).map Json.object).cons (readValue_object depth)).self

theorem exact_readValue (depth : Nat) : Exact (readValue depth) :=
  ⟨readValue_blanks depth, fun h => frames_readValue h depth⟩

end AuditTrail.Json
