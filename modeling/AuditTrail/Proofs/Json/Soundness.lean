import AuditTrail.Proofs.Json.Exact
import AuditTrail.Proofs.Json.Taken

/-!
# What is read is in the grammar

Whatever a reader takes from the front of a text is blanks and a value of the grammar (`TakesValue`), whether it keeps the value or
skips it. With the converse, that each value of the grammar is framed, the readers and the grammar agree on what a value is
(`Codec.Faithful`).
-/

namespace AuditTrail.Json

open Octets (ofAscii)
open Outcome

/-! ## Elements and members -/

/-- The text is a value and what is left of it. -/
def Spans (s rest : Octets) : Prop := ∃ v, IsValue v ∧ s = v ++ rest

/-- A reader takes blanks and a value from the front, or nothing. -/
def TakesValue {α : Type} (R : Reader α) : Prop :=
  ∀ ⦃s a rest⦄, R s = .ok (a, rest) → ∃ before : Blanks, ∃ s', s = before.1 ++ s' ∧ Spans s' rest

section

variable {α β : Type} {R : Reader α}

/-- A reader that takes a value where the blanks end. -/
theorem takesValue_of_skipBlank (h : ∀ ⦃s a rest⦄, R s = .ok (a, rest) → Spans (skipBlank s) rest) : TakesValue R := by
  intro s a rest hread
  obtain ⟨before, hs⟩ := exists_blanks s
  exact ⟨before, _, hs, h hread⟩

/-- What is read may be changed where what is left is not. -/
theorem exists_of_map {x : Except Fault (α × Octets)} {f : α × Octets → β × Octets} {b : β} {rest : Octets}
    (h : x.map f = .ok (b, rest)) (hf : ∀ r, (f r).2 = r.2) : ∃ a, x = .ok (a, rest) := by
  obtain ⟨⟨a, s⟩, ha, heq⟩ := map_eq_ok.1 h
  obtain rfl : rest = s := (congrArg Prod.snd heq).symm.trans (hf (a, s))
  exact ⟨a, ha⟩

/-- A reader that takes what another one does. -/
theorem TakesValue.of_ok (h : TakesValue R) {S : Reader β} (hS : ∀ ⦃s b rest⦄, S s = .ok (b, rest) → ∃ a, R s = .ok (a, rest)) :
    TakesValue S := by
  intro s b rest hread
  obtain ⟨a, ha⟩ := hS hread
  exact h ha

theorem TakesValue.map (h : TakesValue R) (f : α → β) : TakesValue fun s => (R s).map fun r => (f r.1, r.2) :=
  h.of_ok fun _ _ _ hread => exists_of_map hread fun _ => rfl

theorem TakesValue.bind (h : TakesValue R) (f : α → Except Fault β) :
    TakesValue fun s => R s >>= fun r => f r.1 >>= fun b => .ok (b, r.2) := by
  refine h.of_ok fun s b rest hread => ?_
  obtain ⟨⟨a, s₁⟩, ha, hf⟩ := bind_eq_ok.1 hread
  obtain ⟨b', -, heq⟩ := bind_eq_ok.1 hf
  cases heq
  exact ⟨a, ha⟩

end

section

variable {σ κ : Type}

/-- After an element, the text goes on with more of them, each after a comma, up to the end of their sequence. -/
def EndsItems (s rest : Octets) : Prop :=
  ∃ (after : Blanks) (items : List Item) (gap : Blanks), (∀ i ∈ items, IsValue i.value) ∧
    s = after.1 ++ ((items.map Item.text).flatMap (ofAscii ',' :: ·) ++ (gap.1 ++ ofAscii ']' :: rest))

theorem endsItems_close (gap : Blanks) (rest : Octets) : EndsItems (gap.1 ++ ofAscii ']' :: rest) rest :=
  ⟨gap, [], noBlanks, fun _ hi => absurd hi List.not_mem_nil, rfl⟩

/-- A sequence without elements. -/
theorem spans_close (gap : Blanks) (rest : Octets) : Spans (ofAscii '[' :: (gap.1 ++ ofAscii ']' :: rest)) rest := by
  refine ⟨sequenceText [] gap, .sequence fun _ hi => absurd hi List.not_mem_nil, ?_⟩
  simp only [sequenceText, List.map_nil, joined, List.nil_append, List.cons_append, List.append_assoc]

/-- A value that is read is an element with the blanks around it. -/
theorem exists_item {R : Reader σ} (h : TakesValue R) {acc : σ} {s tail : Octets} {after : Blanks}
    (hread : R s = .ok (acc, after.1 ++ tail)) (before : Blanks) : ∃ i : Item, IsValue i.value ∧ before.1 ++ s = i.text ++ tail := by
  obtain ⟨b, s', rfl, v, hv, rfl⟩ := h hread
  refine ⟨⟨before.append b, v, after⟩, hv, ?_⟩
  simp only [Item.text, Blanks.append, List.append_assoc]

/-- A value that is read after a comma is one more element. -/
theorem EndsItems.next {s₁ rest : Octets} (h : EndsItems s₁ rest) {R : Reader σ} (hR : TakesValue R) {acc : σ} {s : Octets}
    (hread : R s = .ok (acc, s₁)) (after before : Blanks) : EndsItems (after.1 ++ ofAscii ',' :: (before.1 ++ s)) rest := by
  obtain ⟨after', items, gap, hitems, rfl⟩ := h
  obtain ⟨i, hi, htext⟩ := exists_item hR hread before
  refine ⟨after, i :: items, gap, List.forall_mem_cons.2 ⟨hi, hitems⟩, ?_⟩
  simp only [htext, List.map_cons, List.flatMap_cons, List.cons_append, List.append_assoc]

/-- A value that is read after the opening bracket is the first element. -/
theorem EndsItems.spans {s₁ rest : Octets} (h : EndsItems s₁ rest) {R : Reader σ} (hR : TakesValue R) {acc : σ} {s : Octets}
    (hread : R s = .ok (acc, s₁)) (before : Blanks) : Spans (ofAscii '[' :: (before.1 ++ s)) rest := by
  obtain ⟨after, items, gap, hitems, rfl⟩ := h
  obtain ⟨i, hi, htext⟩ := exists_item hR hread before
  refine ⟨sequenceText (i :: items) gap, .sequence (List.forall_mem_cons.2 ⟨hi, hitems⟩), ?_⟩
  simp only [htext, sequenceText, List.map_cons, joined, List.cons_append, List.append_assoc, List.nil_append]

/-- The elements that are folded after another one end their sequence. -/
theorem endsItems_of_foldElements {item : σ → Reader σ} (hitem : ∀ acc, TakesValue (item acc)) {bound : Nat} {acc acc' : σ}
    {s rest : Octets} (h : foldElements item bound false acc s = .ok (acc', rest)) : EndsItems s rest := by
  induction bound generalizing acc s with
  | zero => cases h
  | succ bound ih =>
    rw [foldElements] at h
    split at h
    · cases h
    rename_i b t hfront
    obtain ⟨after, rfl⟩ := exists_front hfront
    split at h
    · rename_i hclose
      cases h
      exact hclose ▸ endsItems_close after rest
    rw [if_neg Bool.false_ne_true] at h
    split at h
    · rename_i hcomma
      split at h
      · cases h
      rename_i c t' hfront'
      obtain ⟨before, rfl⟩ := exists_front hfront'
      split at h
      · cases h
      obtain ⟨⟨acc₁, s₁⟩, hread, hrest⟩ := bind_eq_ok.1 h
      exact hcomma ▸ (ih hrest).next (hitem acc) hread after before
    · cases h

/-- The elements that are folded from the first one on are those of a sequence. -/
theorem spans_elements {item : σ → Reader σ} (hitem : ∀ acc, TakesValue (item acc)) {bound : Nat} {acc acc' : σ} {s rest : Octets}
    (h : foldElements item bound true acc s = .ok (acc', rest)) : Spans (ofAscii '[' :: s) rest := by
  cases bound with
  | zero => cases h
  | succ bound =>
    rw [foldElements] at h
    split at h
    · cases h
    rename_i b t hfront
    obtain ⟨before, rfl⟩ := exists_front hfront
    split at h
    · rename_i hclose
      cases h
      exact hclose ▸ spans_close before rest
    rw [if_pos rfl] at h
    obtain ⟨⟨acc₁, s₁⟩, hread, hrest⟩ := bind_eq_ok.1 h
    exact (endsItems_of_foldElements hitem hrest).spans (hitem acc) hread before

/-- A reader takes a colon and a value after it. -/
def TakesRest (member : Reader σ) : Prop :=
  ∀ ⦃s a rest⦄, member s = .ok (a, rest) → ∃ gap before : Blanks, ∃ s', s = gap.1 ++ ofAscii ':' :: (before.1 ++ s') ∧ Spans s' rest

theorem takesRest_colon {R : Reader σ} (h : TakesValue R) : TakesRest fun s => colon s >>= fun x => R x.2 := by
  intro s a rest hread
  obtain ⟨⟨u, s₁⟩, hcolon, hvalue⟩ := bind_eq_ok.1 hread
  obtain ⟨gap, hs⟩ := exists_gap_of_colon hcolon
  obtain ⟨before, s', hs₁, hspans⟩ := h hvalue
  exact ⟨gap, before, s', hs.trans (by rw [← hs₁]), hspans⟩

/-- After a member, the text goes on with more of them, each after a comma, up to the end of their object. -/
def EndsMembers (s rest : Octets) : Prop :=
  ∃ (after : Blanks) (ms : List Member) (gap : Blanks), (∀ m ∈ ms, IsBody m.body ∧ IsValue m.item.value) ∧
    s = after.1 ++ ((ms.map Member.text).flatMap (ofAscii ',' :: ·) ++ (gap.1 ++ ofAscii '\x7d' :: rest))

theorem endsMembers_close (gap : Blanks) (rest : Octets) : EndsMembers (gap.1 ++ ofAscii '\x7d' :: rest) rest :=
  ⟨gap, [], noBlanks, fun _ hm => absurd hm List.not_mem_nil, rfl⟩

section

variable {name : Reader κ} {member : κ → Reader σ} {k : κ} {acc : σ} {s s₁ s₂ rest : Octets}

/-- A name and a value that are read are a member with the blanks around it. -/
theorem exists_member (hname : TakesBody name) (hmember : ∀ k, TakesRest (member k)) {after : Blanks} {tail : Octets}
    (hk : name s = .ok (k, s₁)) (hread : member k s₁ = .ok (acc, after.1 ++ tail)) (before : Blanks) :
    ∃ m : Member, (IsBody m.body ∧ IsValue m.item.value) ∧ before.1 ++ ofAscii '\x22' :: s = m.text ++ tail := by
  obtain ⟨body, hbody, rfl⟩ := hname hk
  obtain ⟨gap, b, s', rfl, v, hv, rfl⟩ := hmember k hread
  refine ⟨⟨before, body, gap, ⟨b, v, after⟩⟩, ⟨hbody, hv⟩, ?_⟩
  simp only [Member.text, Member.core, List.cons_append, List.append_assoc]

/-- A name and a value that are read after a comma are one more member. -/
theorem EndsMembers.next (h : EndsMembers s₂ rest) (hname : TakesBody name) (hmember : ∀ k, TakesRest (member k))
    (hk : name s = .ok (k, s₁)) (hread : member k s₁ = .ok (acc, s₂)) (after before : Blanks) :
    EndsMembers (after.1 ++ ofAscii ',' :: (before.1 ++ ofAscii '\x22' :: s)) rest := by
  obtain ⟨after', ms, gap, hms, rfl⟩ := h
  obtain ⟨m, hm, htext⟩ := exists_member hname hmember hk hread before
  refine ⟨after, m :: ms, gap, List.forall_mem_cons.2 ⟨hm, hms⟩, ?_⟩
  simp only [htext, List.map_cons, List.flatMap_cons, List.cons_append, List.append_assoc]

/-- A name and a value that are read after the opening brace are the first member. -/
theorem EndsMembers.spans (h : EndsMembers s₂ rest) (hname : TakesBody name) (hmember : ∀ k, TakesRest (member k))
    (hk : name s = .ok (k, s₁)) (hread : member k s₁ = .ok (acc, s₂)) (before : Blanks) :
    Spans (ofAscii '\x7b' :: (before.1 ++ ofAscii '\x22' :: s)) rest := by
  obtain ⟨after, ms, gap, hms, rfl⟩ := h
  obtain ⟨m, hm, htext⟩ := exists_member hname hmember hk hread before
  have hall : ∀ n ∈ m :: ms, IsBody n.body ∧ IsValue n.item.value := List.forall_mem_cons.2 ⟨hm, hms⟩
  refine ⟨objectText (m :: ms) gap, .object (fun n hn => (hall n hn).1) fun n hn => (hall n hn).2, ?_⟩
  simp only [htext, objectText, List.map_cons, joined, List.cons_append, List.append_assoc, List.nil_append]

end

section

variable {name : Reader κ} {member : σ → κ → Reader σ} {bound : Nat} {acc acc' : σ} {s rest : Octets}

/-- The members that are folded after another one end their object. -/
theorem endsMembers_of_foldMembers (hname : TakesBody name) (hmember : ∀ acc k, TakesRest (member acc k))
    (h : foldMembers name member bound false acc s = .ok (acc', rest)) : EndsMembers s rest := by
  induction bound generalizing acc s with
  | zero => cases h
  | succ bound ih =>
    rw [foldMembers] at h
    split at h
    · cases h
    rename_i b t hfront
    obtain ⟨after, rfl⟩ := exists_front hfront
    split at h
    · rename_i hclose
      cases h
      exact hclose ▸ endsMembers_close after rest
    rw [if_neg Bool.false_ne_true] at h
    split at h
    · rename_i hcomma
      simp only [ok_bind] at h
      split at h
      · cases h
      rename_i q t' hfront'
      obtain ⟨before, rfl⟩ := exists_front hfront'
      split at h
      · cases h
      rename_i hquote
      obtain ⟨⟨k, s₁⟩, hk, hrest⟩ := bind_eq_ok.1 h
      obtain ⟨⟨acc₁, s₂⟩, hread, hrest⟩ := bind_eq_ok.1 hrest
      rw [hcomma, Decidable.not_not.1 hquote]
      exact (ih hrest).next hname (hmember acc) hk hread after before
    · cases h

/-- The members that are folded from the first one on are those of an object. -/
theorem spans_members (hname : TakesBody name) (hmember : ∀ acc k, TakesRest (member acc k))
    (h : foldMembers name member bound true acc s = .ok (acc', rest)) : Spans (ofAscii '\x7b' :: s) rest := by
  cases bound with
  | zero => cases h
  | succ bound =>
    rw [foldMembers] at h
    split at h
    · cases h
    rename_i b t hfront
    obtain ⟨before, rfl⟩ := exists_front hfront
    split at h
    · rename_i hclose
      cases h
      refine ⟨objectText [] before, .object (fun _ hm => absurd hm List.not_mem_nil) fun _ hm => absurd hm List.not_mem_nil, ?_⟩
      simp only [hclose, objectText, List.map_nil, joined, List.nil_append, List.cons_append, List.append_assoc]
    simp only [if_true, ok_bind] at h
    split at h
    · cases h
    rename_i hquote
    obtain ⟨⟨k, s₁⟩, hk, hrest⟩ := bind_eq_ok.1 h
    obtain ⟨⟨acc₁, s₂⟩, hread, hrest⟩ := bind_eq_ok.1 hrest
    rw [Decidable.not_not.1 hquote]
    exact (endsMembers_of_foldMembers hname hmember hrest).spans hname (hmember acc) hk hread before

end

end

/-! ## Values -/

theorem spans_word {b : UInt8} {w s rest : Octets} {u : Unit} (hv : IsValue (b :: w)) (h : word w s = .ok (u, rest)) :
    Spans (b :: s) rest :=
  ⟨b :: w, hv, congrArg (b :: ·) (eq_append_of_word h)⟩

theorem spans_number {s rest : Octets} (h : ∃ v, IsNumber v ∧ s = v ++ rest) : Spans s rest := by
  obtain ⟨v, hv, hs⟩ := h
  exact ⟨v, .number hv, hs⟩

theorem spans_string {κ : Type} {name : Reader κ} (hname : TakesBody name) {k : κ} {s rest : Octets} (h : name s = .ok (k, rest)) :
    Spans (ofAscii '\x22' :: s) rest := by
  obtain ⟨body, hbody, rfl⟩ := hname h
  refine ⟨_, .string hbody, ?_⟩
  simp only [List.cons_append, List.append_assoc, List.nil_append]

theorem takesValue_skipNested (depth : Nat) : TakesValue (skipNested depth) := by
  induction depth using Nat.strongRecOn with
  | ind depth ih =>
    refine takesValue_of_skipBlank fun s u rest h => ?_
    rw [skipNested.eq_def] at h
    dsimp only at h
    split at h
    · cases h
    rename_i b t hfront
    rw [hfront]
    split at h
    · cases h
    · rename_i hlead
      exact eq_of_lead hlead rfl ▸ spans_word (.literal (.inl rfl)) h
    · rename_i hlead
      exact eq_of_lead hlead rfl ▸ spans_word (.literal (.inr (.inl rfl))) h
    · rename_i hlead
      exact eq_of_lead hlead rfl ▸ spans_word (.literal (.inr (.inr rfl))) h
    · exact spans_number (exists_isNumber_of_skipNumber h)
    · rename_i hlead
      exact eq_of_lead hlead rfl ▸ spans_string takesBody_skipStringBody h
    · rename_i hlead
      split at h
      · cases h
      · exact eq_of_lead hlead rfl ▸ spans_elements (fun _ => ih _ (Nat.lt_succ_self _)) h
    · rename_i hlead
      split at h
      · cases h
      · exact eq_of_lead hlead rfl ▸ spans_members takesBody_skipStringBody (fun _ _ => takesRest_colon (ih _ (Nat.lt_succ_self _))) h

theorem takesValue_skipValue : TakesValue skipValue := fun s _ _ h => takesValue_skipNested s.length h

theorem takesValue_readValue (depth : Nat) : TakesValue (readValue depth) := by
  induction depth using Nat.strongRecOn with
  | ind depth ih =>
    refine takesValue_of_skipBlank fun s v rest h => ?_
    rw [readValue.eq_def] at h
    dsimp only at h
    split at h
    · cases h
    rename_i b t hfront
    rw [hfront]
    split at h
    · cases h
    · rename_i hlead
      obtain ⟨u, h⟩ := exists_of_map h fun _ => rfl
      exact eq_of_lead hlead rfl ▸ spans_word (.literal (.inl rfl)) h
    · rename_i hlead
      obtain ⟨u, h⟩ := exists_of_map h fun _ => rfl
      exact eq_of_lead hlead rfl ▸ spans_word (.literal (.inr (.inl rfl))) h
    · rename_i hlead
      obtain ⟨u, h⟩ := exists_of_map h fun _ => rfl
      exact eq_of_lead hlead rfl ▸ spans_word (.literal (.inr (.inr rfl))) h
    · obtain ⟨n, h⟩ := exists_of_map h fun _ => rfl
      exact spans_number (exists_isNumber_of_readNumber h)
    · rename_i hlead
      obtain ⟨t, h⟩ := exists_of_map h fun _ => rfl
      exact eq_of_lead hlead rfl ▸ spans_string takesBody_stringBody h
    · rename_i hlead
      split at h
      · cases h
      · obtain ⟨vs, h⟩ := exists_of_map h fun _ => rfl
        exact eq_of_lead hlead rfl ▸ spans_elements (fun acc => (ih _ (Nat.lt_succ_self _)).map (· :: acc)) h
    · rename_i hlead
      split at h
      · cases h
      · obtain ⟨ms, h⟩ := exists_of_map h fun _ => rfl
        exact eq_of_lead hlead rfl ▸ spans_members takesBody_stringBody
          (fun acc k => takesRest_colon ((ih _ (Nat.lt_succ_self _)).map fun v => setMember k v acc)) h

/-! ## Codecs -/

theorem exists_of_readString {expected t : String} {s rest : Octets} (h : readString expected s = .ok (t, rest)) :
    ∃ before : Blanks, ∃ s', s = before.1 ++ ofAscii '\x22' :: s' ∧ stringBody s' = .ok (t, rest) := by
  rw [readString] at h
  split at h
  · cases h
  rename_i b s' hfront
  obtain ⟨before, hs⟩ := exists_front hfront
  split at h
  · rename_i hquote
    exact ⟨before, s', hquote ▸ hs, h⟩
  · exact absurd h unexpected_ne_ok

theorem takesValue_readString (expected : String) : TakesValue (readString expected) := by
  intro s t rest h
  obtain ⟨before, s', hs, hbody⟩ := exists_of_readString h
  exact ⟨before, _, hs, spans_string takesBody_stringBody hbody⟩

theorem takesValue_numberFrom (expected : String) : TakesValue (numberFrom expected) := by
  refine takesValue_of_skipBlank fun s n rest h => ?_
  rw [numberFrom] at h
  split at h
  · cases h
  rename_i b s' hfront
  rw [hfront]
  split at h
  · exact spans_number (exists_isNumber_of_readNumber h)
  · exact absurd h unexpected_ne_ok

namespace Codec

variable {α : Type}

theorem takesValue_viaString (expected : String) (parse : String → Except Fault α) (text : α → String) (depth : Nat) :
    TakesValue ((viaString expected parse text).read depth) :=
  (takesValue_readString expected).bind parse

theorem takesValue_viaInt (expected : String) (parse : Int → Except Fault α) (number : α → Int) (depth : Nat) :
    TakesValue ((viaInt expected parse number).read depth) := by
  refine (takesValue_numberFrom expected).of_ok fun s a rest h => ?_
  obtain ⟨⟨n, s₁⟩, hn, hparse⟩ := bind_eq_ok.1 h
  dsimp only at hparse
  split at hparse
  · obtain ⟨a', -, heq⟩ := bind_eq_ok.1 hparse
    cases heq
    exact ⟨_, hn⟩
  · cases hparse

theorem takesValue_optional (depth : Nat) : TakesValue (optional.read depth) :=
  (takesValue_readValue depth).bind fun v => .ok (if v = .null then none else some v)

end Codec

namespace Variants

theorem takesValue_readNull : TakesValue readNull := by
  refine takesValue_of_skipBlank fun s u rest h => ?_
  rw [readNull] at h
  split at h
  · cases h
  rename_i b t hfront
  rw [hfront]
  split at h
  · rename_i hb
    exact hb ▸ spans_word (.literal (.inl rfl)) h
  · exact absurd h unexpected_ne_ok

section

variable {α : Type} (vs : Variants α)

theorem takesRest_readCase (name : String) : TakesRest (vs.readCase name) := by
  intro s a rest h
  obtain ⟨b, -, hcolon⟩ := bind_eq_ok.1 h
  obtain ⟨⟨u, s₁⟩, hgap, hnull⟩ := bind_eq_ok.1 hcolon
  obtain ⟨⟨u', s₂⟩, hread, heq⟩ := bind_eq_ok.1 hnull
  cases heq
  exact takesRest_colon takesValue_readNull (bind_eq_ok.2 ⟨_, hgap, hread⟩)

theorem takesValue_codec (depth : Nat) : TakesValue (vs.codec.read depth) := by
  refine takesValue_of_skipBlank fun s a rest h => ?_
  simp only [codec] at h
  split at h
  · cases h
  rename_i b t hfront
  rw [hfront]
  split at h
  · rename_i hquote
    obtain ⟨⟨name, s₁⟩, hname, hfind⟩ := bind_eq_ok.1 h
    obtain ⟨a', -, heq⟩ := bind_eq_ok.1 hfind
    cases heq
    exact hquote ▸ spans_string takesBody_stringBody hname
  split at h
  · rename_i hbrace
    split at h
    · cases h
    obtain ⟨⟨name, s₁⟩, hname, h⟩ := bind_eq_ok.1 h
    obtain ⟨a', hfind, h⟩ := bind_eq_ok.1 h
    obtain ⟨⟨u, s₂⟩, hcolon, h⟩ := bind_eq_ok.1 h
    obtain ⟨⟨u', s₃⟩, hnull, h⟩ := bind_eq_ok.1 h
    dsimp only at h
    split at h
    · cases h
    rename_i c s₄ hend
    split at h
    · rename_i hclose
      cases h
      obtain ⟨after, rfl⟩ := exists_front hend
      obtain ⟨before, t', rfl, hbody⟩ := exists_of_readString hname
      have hcase : vs.readCase name s₁ = .ok (a, after.1 ++ c :: rest) :=
        bind_eq_ok.2 ⟨a, hfind, bind_eq_ok.2 ⟨_, hcolon, bind_eq_ok.2 ⟨_, hnull, rfl⟩⟩⟩
      have hends : EndsMembers (after.1 ++ c :: rest) rest := hclose ▸ endsMembers_close after rest
      exact hbrace ▸ hends.spans takesBody_stringBody vs.takesRest_readCase hbody hcase before
    · cases h
  · cases h

end

end Variants

/-! ## Records -/

namespace Shape

variable {δ α : Type} {depth : Nat}

theorem exists_gap_of_closeSequence {s rest : Octets} {u : Unit} (h : closeSequence s = .ok (u, rest)) :
    ∃ gap : Blanks, s = gap.1 ++ ofAscii ']' :: rest := by
  rw [closeSequence] at h
  split at h
  · cases h
  rename_i b t hfront
  obtain ⟨gap, hs⟩ := exists_front hfront
  split at h
  · rename_i hclose
    cases h
    exact ⟨gap, hclose ▸ hs⟩
  · cases h

/-- The elements that are read by the fields after another one end their sequence. -/
theorem endsItems_of_readElements {fs : List (Field δ)} (hfields : ∀ f ∈ fs, TakesValue (f.read depth)) {d d' : δ} {s rest : Octets}
    (h : readElements depth fs false d s = .ok (d', rest)) : EndsItems s rest := by
  induction fs generalizing d s with
  | nil =>
    obtain ⟨⟨u, s₁⟩, hclose, heq⟩ := bind_eq_ok.1 h
    cases heq
    obtain ⟨gap, rfl⟩ := exists_gap_of_closeSequence hclose
    exact endsItems_close gap rest
  | cons f fs ih =>
    rw [readElements] at h
    split at h
    · cases h
    rename_i b t hfront
    obtain ⟨after, rfl⟩ := exists_front hfront
    split at h
    · rename_i hclose
      cases h
      exact hclose ▸ endsItems_close after rest
    simp only [Bool.false_eq_true, if_false] at h
    split at h
    · cases h
    rename_i hcomma
    split at h
    · cases h
    rename_i c t' hfront'
    obtain ⟨before, rfl⟩ := exists_front hfront'
    split at h
    · cases h
    rw [ok_bind] at h
    obtain ⟨⟨set, s₁⟩, hread, hrest⟩ := bind_eq_ok.1 h
    have hends := ih (fun g hg => hfields g (List.mem_cons_of_mem _ hg)) hrest
    exact Decidable.not_not.1 hcomma ▸ hends.next (hfields f List.mem_cons_self) hread after before

/-- The elements that are read by the fields are those of a sequence. -/
theorem spans_fields {fs : List (Field δ)} (hfields : ∀ f ∈ fs, TakesValue (f.read depth)) {d d' : δ} {s rest : Octets}
    (h : readElements depth fs true d s = .ok (d', rest)) : Spans (ofAscii '[' :: s) rest := by
  cases fs with
  | nil =>
    obtain ⟨⟨u, s₁⟩, hclose, heq⟩ := bind_eq_ok.1 h
    cases heq
    obtain ⟨gap, rfl⟩ := exists_gap_of_closeSequence hclose
    exact spans_close gap rest
  | cons f fs =>
    rw [readElements] at h
    split at h
    · cases h
    rename_i b t hfront
    obtain ⟨before, rfl⟩ := exists_front hfront
    split at h
    · rename_i hclose
      cases h
      exact hclose ▸ spans_close before rest
    simp only [if_true, ok_bind] at h
    obtain ⟨⟨set, s₁⟩, hread, hrest⟩ := bind_eq_ok.1 h
    have hends := endsItems_of_readElements (fun g hg => hfields g (List.mem_cons_of_mem _ hg)) hrest
    exact hends.spans (hfields f List.mem_cons_self) hread before

theorem takesRest_readMember {r : Shape δ α} (hfields : ∀ f ∈ r.fields, TakesValue (f.read depth)) (d : δ) (name : String) :
    TakesRest (r.readMember depth d name) := by
  intro s d' rest h
  unfold readMember at h
  split at h
  · rename_i f hfind
    split at h
    · cases h
    have hvalue := (hfields f (List.mem_of_find?_eq_some hfind)).map fun set => set d
    obtain ⟨⟨u, s₁⟩, hcolon, hread⟩ := bind_eq_ok.1 h
    obtain ⟨⟨set, s₂⟩, hset, heq⟩ := bind_eq_ok.1 hread
    cases heq
    exact takesRest_colon hvalue (bind_eq_ok.2 ⟨_, hcolon, map_eq_ok.2 ⟨_, hset, rfl⟩⟩)
  · obtain ⟨⟨u, s₁⟩, hcolon, hread⟩ := bind_eq_ok.1 h
    obtain ⟨⟨u', s₂⟩, hskip, heq⟩ := bind_eq_ok.1 hread
    cases heq
    exact takesRest_colon takesValue_skipValue (bind_eq_ok.2 ⟨_, hcolon, hskip⟩)

/-- A record is read from a value. -/
theorem takesValue_read {r : Shape δ α} (hfields : ∀ depth, ∀ f ∈ r.fields, TakesValue (f.read depth)) (depth : Nat) :
    TakesValue (r.read depth) := by
  refine takesValue_of_skipBlank fun s a rest h => ?_
  rw [read] at h
  split at h
  · cases h
  rename_i b t hfront
  rw [hfront]
  split at h
  · cases h
  · cases h
  · rename_i hlead
    obtain ⟨⟨d, s₁⟩, hread, h⟩ := bind_eq_ok.1 h
    obtain ⟨a', -, heq⟩ := bind_eq_ok.1 h
    cases heq
    exact eq_of_lead hlead rfl ▸ spans_fields (hfields _) hread
  · rename_i hlead
    obtain ⟨⟨d, s₁⟩, hread, h⟩ := bind_eq_ok.1 h
    obtain ⟨a', -, heq⟩ := bind_eq_ok.1 h
    cases heq
    exact eq_of_lead hlead rfl ▸ spans_members takesBody_stringBody (fun d name => takesRest_readMember (hfields _) d name) hread
  · exact absurd h unexpected_ne_ok

end Shape

/-! ## Readers and the grammar -/

namespace Codec

variable {α : Type}

/-- A codec reads just the values of the grammar: one of them alone, whatever follows it, or nothing. -/
structure Faithful (c : Codec α) : Prop where
  exact : ∀ depth, Exact (c.read depth)
  takes : ∀ depth, TakesValue (c.read depth)

theorem faithful_string : Codec.string.Faithful := ⟨exact_viaString _ _ _, takesValue_viaString _ _ _⟩

theorem faithful_seconds : Codec.seconds.Faithful := ⟨exact_viaInt _ _ _, takesValue_viaInt _ _ _⟩

theorem faithful_optional : optional.Faithful := ⟨exact_optional, takesValue_optional⟩

theorem faithful_variants (vs : Variants α) : vs.codec.Faithful := ⟨vs.exact_codec, vs.takesValue_codec⟩

/-- A document is decoded by its value, whatever blanks stand around it. -/
theorem Faithful.decode_eq_ok_iff {c : Codec α} (h : c.Faithful) {v : Octets} (hv : IsValue v) (before after : Blanks) {a : α} :
    c.decode (before.1 ++ (v ++ after.1)) = .ok a ↔ c.read greatestDepth v = .ok (a, []) := by
  have hblank : skipBlank after.1 = [] := by
    have := skipBlank_append after []
    rwa [List.append_nil] at this
  have hstops : Stops after.1 := by
    have := stops_blanks after stops_nil
    rwa [List.append_nil] at this
  have hexact := h.exact greatestDepth
  rw [decode, document, hexact.blanks, bind_eq_ok]
  constructor
  · rintro ⟨⟨b, rest⟩, hread, hb⟩
    obtain ⟨rfl, hv⟩ := (hexact.frames hv _ hstops b rest).1 hread
    simp only [hblank, List.isEmpty_nil, if_true] at hb
    cases hb
    exact hv
  · intro hread
    refine ⟨(a, after.1), (hexact.frames hv _ hstops a after.1).2 ⟨rfl, hread⟩, ?_⟩
    simp only [hblank, List.isEmpty_nil, if_true]

/-- A document that is decoded is a value with blanks around it. -/
theorem Faithful.exists_of_decode {c : Codec α} (h : c.Faithful) {s : Octets} {a : α} (hdecode : c.decode s = .ok a) :
    ∃ (before : Blanks) (v : Octets) (after : Blanks), IsValue v ∧ s = before.1 ++ (v ++ after.1) := by
  obtain ⟨⟨a', rest⟩, hread, hend⟩ := bind_eq_ok.1 hdecode
  obtain ⟨before, s', hs, v, hv, hs'⟩ := h.takes greatestDepth hread
  obtain ⟨after, hrest⟩ := exists_blanks rest
  dsimp only at hend
  split at hend
  · rename_i hempty
    rw [List.isEmpty_iff.1 hempty, List.append_nil] at hrest
    exact ⟨before, v, after, hv, by rw [hs, hs', hrest]⟩
  · cases hend

end Codec

end AuditTrail.Json
