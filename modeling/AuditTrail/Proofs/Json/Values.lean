import AuditTrail.Proofs.Json.Tokens

/-!
# Values survive their JSON text

What `readValue` yields is `Kept`: it nests no deeper than the reader allows, its whole numbers fit 64 bits and the names of an
object increase. Of such a value without binary64 numbers the text is read back as the same value. Sequences and objects are read
by folds; `Reads` and `Takes` say what a fold makes of a list of items or members, and the folds over a joined text follow them.
-/

namespace AuditTrail.Json

open Octets (ofAscii isDigit)
open Outcome

/-! ## Joined items -/

/-- Items with a comma between each two. -/
def joined : List Octets → Octets
  | [] => []
  | t :: ts => t ++ ts.flatMap (ofAscii ',' :: ·)

/-- Where the first of several items ends, a comma follows or what closes them. -/
theorem ends_tail {close : UInt8} (h : close = ofAscii ']' ∨ close = ofAscii '\x7d') (texts : List Octets) (rest : Octets) :
    Ends (texts.flatMap (ofAscii ',' :: ·) ++ close :: rest) := by
  cases texts with
  | nil => exact ends_cons (.inr h) rest
  | cons u us => exact ends_cons (.inl rfl) _

theorem skipBlank_cons {b : UInt8} (h : isBlank b = false) (s : Octets) : skipBlank (b :: s) = b :: s := by
  rw [skipBlank, List.dropWhile_cons_of_neg (by rw [h]; exact Bool.false_ne_true)]

/-! ## Sequences -/

/-- What a text opens with goes on with a value: no blank and no closing bracket. -/
def Opens (text : Octets) : Prop := ∃ b rest, text = b :: rest ∧ isBlank b = false ∧ b ≠ ofAscii ']'

/-- Each text in turn is an item for the fold, whatever ends it. -/
inductive Reads {σ : Type} (item : σ → Reader σ) : σ → List Octets → σ → Prop where
  | nil (acc : σ) : Reads item acc [] acc
  | cons {acc acc' acc'' : σ} {text : Octets} {texts : List Octets} : Opens text →
      (∀ rest, Ends rest → item acc (text ++ rest) = .ok (acc', rest)) → Reads item acc' texts acc'' →
      Reads item acc (text :: texts) acc''

/-- The items after the first one are folded up to the closing bracket. -/
theorem Reads.tail {σ : Type} {item : σ → Reader σ} {acc acc' : σ} {texts : List Octets} (h : Reads item acc texts acc')
    (rest : Octets) (bound : Nat) (hbound : (texts.flatMap (ofAscii ',' :: ·)).length < bound) :
    foldElements item bound false acc (texts.flatMap (ofAscii ',' :: ·) ++ ofAscii ']' :: rest) = .ok (acc', rest) := by
  induction h generalizing bound with
  | nil acc =>
    obtain ⟨bound, rfl⟩ := Nat.exists_eq_succ_of_ne_zero (Nat.ne_of_gt (Nat.lt_of_le_of_lt (Nat.zero_le _) hbound))
    rfl
  | @cons acc acc₁ acc₂ text texts hopens hitem htexts ih =>
    obtain ⟨bound, rfl⟩ := Nat.exists_eq_succ_of_ne_zero (Nat.ne_of_gt (Nat.lt_of_le_of_lt (Nat.zero_le _) hbound))
    obtain ⟨b, t, rfl, hblank, hclose⟩ := hopens
    have hread := hitem _ (ends_tail (.inl rfl) texts rest)
    rw [List.flatMap_cons, List.cons_append, List.length_cons, List.length_append] at hbound
    rw [List.flatMap_cons, List.append_assoc, List.cons_append, List.cons_append, foldElements, skipBlank_cons (by decide)]
    simp only [if_neg (show ofAscii ',' ≠ ofAscii ']' by decide), Bool.false_eq_true, if_false, if_true]
    rw [skipBlank_cons hblank]
    simp only [if_neg hclose]
    rw [← List.cons_append, hread, ok_bind]
    exact ih bound (by omega)

/-- A sequence is folded up to its closing bracket. -/
theorem Reads.all {σ : Type} {item : σ → Reader σ} {acc acc' : σ} {texts : List Octets} (h : Reads item acc texts acc')
    (rest : Octets) (bound : Nat) (hbound : (joined texts).length + 1 < bound) :
    foldElements item bound true acc (joined texts ++ ofAscii ']' :: rest) = .ok (acc', rest) := by
  obtain ⟨bound, rfl⟩ := Nat.exists_eq_succ_of_ne_zero (Nat.ne_of_gt (Nat.lt_of_le_of_lt (Nat.zero_le _) hbound))
  cases h with
  | nil acc => rfl
  | @cons _ acc₁ _ text texts hopens hitem htexts =>
    obtain ⟨b, t, rfl, hblank, hclose⟩ := hopens
    have hread := hitem _ (ends_tail (.inl rfl) texts rest)
    rw [joined, List.length_append] at hbound
    rw [joined, List.append_assoc, List.cons_append, foldElements, skipBlank_cons hblank]
    simp only [if_neg hclose, if_true]
    rw [← List.cons_append, hread, ok_bind]
    exact htexts.tail rest bound (by omega)

/-! ## Objects -/

/-- A member with its name and the text of its value. -/
def memberOctets (m : String × String) : Octets := Utf8.encode (renderString m.1) ++ ofAscii ':' :: Utf8.encode m.2

/-- Each member in turn is one for the fold, whatever ends it. -/
inductive Takes {σ : Type} (member : σ → String → Reader σ) : σ → List (String × String) → σ → Prop where
  | nil (acc : σ) : Takes member acc [] acc
  | cons {acc acc' acc'' : σ} {name text : String} {ms : List (String × String)} :
      (∀ rest, Ends rest → member acc name (ofAscii ':' :: (Utf8.encode text ++ rest)) = .ok (acc', rest)) →
      Takes member acc' ms acc'' → Takes member acc ((name, text) :: ms) acc''

/-- A name and its member are read, and the fold goes on after them. -/
theorem foldMembers_member {σ : Type} {member : σ → String → Reader σ} {acc acc' : σ} {name text : String} {tail : Octets}
    (h : member acc name (ofAscii ':' :: (Utf8.encode text ++ tail)) = .ok (acc', tail)) (bound : Nat) :
    foldMembers stringBody member (bound + 1) true acc (memberOctets (name, text) ++ tail) =
      foldMembers stringBody member bound false acc' tail := by
  have hoctets : memberOctets (name, text) ++ tail = ofAscii '\x22' :: (escapedOctets name.toList ++ ofAscii '\x22' ::
      (ofAscii ':' :: (Utf8.encode text ++ tail))) := by
    simp only [memberOctets, encode_renderString, List.cons_append, List.append_assoc, List.nil_append]
  rw [hoctets, foldMembers, skipBlank_cons (by decide)]
  simp only [if_neg (show ofAscii '\x22' ≠ ofAscii '\x7d' by decide), if_true, ok_bind, ne_eq, not_true_eq_false, if_false,
    stringBody_renderString, h]

/-- A comma before a member is passed over. -/
theorem foldMembers_comma {σ : Type} {member : σ → String → Reader σ} {acc : σ} (m : String × String) (tail : Octets) (bound : Nat) :
    foldMembers stringBody member (bound + 1) false acc (ofAscii ',' :: (memberOctets m ++ tail)) =
      foldMembers stringBody member (bound + 1) true acc (memberOctets m ++ tail) := by
  have hoctets : memberOctets m ++ tail = ofAscii '\x22' :: (escapedOctets m.1.toList ++ ofAscii '\x22' ::
      (ofAscii ':' :: (Utf8.encode m.2 ++ tail))) := by
    simp only [memberOctets, encode_renderString, List.cons_append, List.append_assoc, List.nil_append]
  have hquote : isBlank (ofAscii '\x22') = false := by decide
  have hcomma : isBlank (ofAscii ',') = false := by decide
  rw [hoctets, foldMembers, foldMembers, skipBlank_cons hquote, skipBlank_cons hcomma]
  simp only [if_neg (show ofAscii '\x22' ≠ ofAscii '\x7d' by decide), if_neg (show ofAscii ',' ≠ ofAscii '\x7d' by decide),
    Bool.false_eq_true, if_true, if_false, ok_bind, skipBlank_cons hquote]

/-- The members after the first one are folded up to the closing brace. -/
theorem Takes.tail {σ : Type} {member : σ → String → Reader σ} {acc acc' : σ} {ms : List (String × String)}
    (h : Takes member acc ms acc') (rest : Octets) (bound : Nat)
    (hbound : ((ms.map memberOctets).flatMap (ofAscii ',' :: ·)).length < bound) :
    foldMembers stringBody member bound false acc ((ms.map memberOctets).flatMap (ofAscii ',' :: ·) ++ ofAscii '\x7d' :: rest) =
      .ok (acc', rest) := by
  induction h generalizing bound with
  | nil acc =>
    obtain ⟨bound, rfl⟩ := Nat.exists_eq_succ_of_ne_zero (Nat.ne_of_gt (Nat.lt_of_le_of_lt (Nat.zero_le _) hbound))
    rfl
  | @cons acc acc₁ acc₂ name text ms hmember hms ih =>
    obtain ⟨bound, rfl⟩ := Nat.exists_eq_succ_of_ne_zero (Nat.ne_of_gt (Nat.lt_of_le_of_lt (Nat.zero_le _) hbound))
    rw [List.map_cons, List.flatMap_cons, List.length_append, List.length_cons] at hbound
    rw [List.map_cons, List.flatMap_cons, List.cons_append, List.cons_append, List.append_assoc, foldMembers_comma,
      foldMembers_member (hmember _ (ends_tail (.inr rfl) _ rest)), ih bound (by omega)]

/-- An object is folded up to its closing brace. -/
theorem Takes.all {σ : Type} {member : σ → String → Reader σ} {acc acc' : σ} {ms : List (String × String)}
    (h : Takes member acc ms acc') (rest : Octets) (bound : Nat) (hbound : (joined (ms.map memberOctets)).length + 1 < bound) :
    foldMembers stringBody member bound true acc (joined (ms.map memberOctets) ++ ofAscii '\x7d' :: rest) = .ok (acc', rest) := by
  obtain ⟨bound, rfl⟩ := Nat.exists_eq_succ_of_ne_zero (Nat.ne_of_gt (Nat.lt_of_le_of_lt (Nat.zero_le _) hbound))
  cases h with
  | nil acc => rfl
  | @cons _ acc₁ _ name text ms hmember hms =>
    rw [List.map_cons, joined, List.length_append] at hbound
    rw [List.map_cons, joined, List.append_assoc, foldMembers_member (hmember _ (ends_tail (.inr rfl) _ rest)),
      hms.tail rest bound (by omega)]

/-! ## What folds keep -/

/-- What every item keeps, a sequence keeps. -/
theorem foldElements_keeps {σ : Type} {item : σ → Reader σ} {P : σ → Prop}
    (hitem : ∀ {acc acc' s s'}, P acc → item acc s = .ok (acc', s') → P acc') {bound : Nat} {first : Bool} {acc acc' : σ}
    {s s' : Octets} (hacc : P acc) (h : foldElements item bound first acc s = .ok (acc', s')) : P acc' := by
  induction bound generalizing first acc s with
  | zero => cases h
  | succ bound ih =>
    rw [foldElements] at h
    split at h
    · cases h
    split at h
    · simp only [Except.ok.injEq, Prod.mk.injEq] at h
      rw [← h.1]
      exact hacc
    split at h
    · obtain ⟨⟨acc₁, s₁⟩, hread, h⟩ := bind_eq_ok.1 h
      exact ih (hitem hacc hread) h
    split at h
    · split at h
      · cases h
      split at h
      · cases h
      · obtain ⟨⟨acc₁, s₁⟩, hread, h⟩ := bind_eq_ok.1 h
        exact ih (hitem hacc hread) h
    · cases h

/-- What every member keeps, an object keeps. -/
theorem foldMembers_keeps {σ κ : Type} {name : Reader κ} {member : σ → κ → Reader σ} {P : σ → Prop}
    (hmember : ∀ {acc acc' k s s'}, P acc → member acc k s = .ok (acc', s') → P acc') {bound : Nat} {first : Bool} {acc acc' : σ}
    {s s' : Octets} (hacc : P acc) (h : foldMembers name member bound first acc s = .ok (acc', s')) : P acc' := by
  induction bound generalizing first acc s with
  | zero => cases h
  | succ bound ih =>
    rw [foldMembers] at h
    split at h
    · cases h
    split at h
    · simp only [Except.ok.injEq, Prod.mk.injEq] at h
      rw [← h.1]
      exact hacc
    have hquote : ∀ (q : UInt8) (s₁ : Octets), (if q ≠ ofAscii '\x22' then .error .malformed
        else name s₁ >>= fun x => member acc x.1 x.2 >>= fun y => foldMembers name member bound false y.1 y.2) = .ok (acc', s') →
          P acc' := by
      intro q s₁ h
      split at h
      · cases h
      · obtain ⟨⟨k, s₂⟩, -, h⟩ := bind_eq_ok.1 h
        obtain ⟨⟨acc₁, s₃⟩, hread, h⟩ := bind_eq_ok.1 h
        exact ih (hmember hacc hread) h
    split at h
    · obtain ⟨s₁, -, h⟩ := bind_eq_ok.1 h
      cases s₁ with
      | nil => cases h
      | cons q s₁ => exact hquote q s₁ h
    split at h
    · obtain ⟨s₁, -, h⟩ := bind_eq_ok.1 h
      cases s₁ with
      | nil => cases h
      | cons q s₁ => exact hquote q s₁ h
    · cases h

/-! ## Members in order -/

/-- The names of the members increase. -/
def Increasing (ms : List (String × Json)) : Prop := ms.Pairwise fun a b => a.1 < b.1

/-- Setting a member adds no other name. -/
theorem mem_setMember {k : String} {v : Json} {ms : List (String × Json)} {m : String × Json} (h : m ∈ setMember k v ms) :
    m = (k, v) ∨ m ∈ ms := by
  induction ms with
  | nil => exact .inl (List.mem_singleton.1 h)
  | cons n ms ih =>
    simp only [setMember] at h
    split at h
    · exact List.mem_cons.1 h
    split at h
    · exact (List.mem_cons.1 h).imp_right (List.mem_cons_of_mem _)
    · rcases List.mem_cons.1 h with rfl | h
      · exact .inr List.mem_cons_self
      · exact (ih h).imp_right (List.mem_cons_of_mem _)

/-- Setting a member keeps the names increasing. -/
theorem increasing_setMember {k : String} {v : Json} {ms : List (String × Json)} (h : Increasing ms) :
    Increasing (setMember k v ms) := by
  induction ms with
  | nil => exact List.pairwise_singleton _ _
  | cons n ms ih =>
    obtain ⟨hn, hms⟩ := List.pairwise_cons.1 h
    simp only [setMember]
    split
    · rename_i hlt
      refine List.pairwise_cons.2 ⟨fun m hm => ?_, h⟩
      rcases List.mem_cons.1 hm with rfl | hm
      · exact hlt
      · exact String.lt_trans hlt (hn m hm)
    split
    · rename_i hlt heq
      subst heq
      exact List.pairwise_cons.2 ⟨hn, hms⟩
    · rename_i hlt hne
      refine List.pairwise_cons.2 ⟨fun m hm => ?_, ih hms⟩
      rcases mem_setMember hm with rfl | hm
      · exact Std.lt_of_le_of_ne (String.not_lt.1 hlt) fun he => hne he.symm
      · exact hn m hm

/-- A member whose name comes after all others is put at the end. -/
theorem setMember_last {k : String} {v : Json} {ms : List (String × Json)} (h : ∀ m ∈ ms, m.1 < k) :
    setMember k v ms = ms ++ [(k, v)] := by
  induction ms with
  | nil => rfl
  | cons n ms ih =>
    have hn := h n List.mem_cons_self
    have hne : k ≠ n.1 := fun he => String.lt_irrefl k (he ▸ hn)
    simp only [setMember, if_neg (String.lt_asymm hn), if_neg hne, ih fun m hm => h m (List.mem_cons_of_mem _ hm),
      List.cons_append]

/-! ## What is read -/

/-- The values that a reader of that depth keeps. -/
inductive Kept : Nat → Json → Prop where
  | null {depth : Nat} : Kept depth .null
  | bool {depth : Nat} {b : Bool} : Kept depth (.bool b)
  | whole {depth : Nat} {n : Int} : FitsWhole n → Kept depth (.number (.int n))
  | float {depth : Nat} {x : Binary64} : Kept depth (.number (.float x))
  | string {depth : Nat} {s : String} : Kept depth (.string s)
  | array {depth : Nat} {xs : List Json} : (∀ x ∈ xs, Kept depth x) → Kept (depth + 1) (.array xs)
  | object {depth : Nat} {ms : List (String × Json)} : Increasing ms → (∀ m ∈ ms, Kept depth m.2) → Kept (depth + 1) (.object ms)

/-- A reader keeps whatever nests less deep than it allows. -/
theorem Kept.mono {depth depth' : Nat} {v : Json} (h : Kept depth v) (hle : depth ≤ depth') : Kept depth' v := by
  induction h generalizing depth' with
  | null => exact .null
  | bool => exact .bool
  | whole hn => exact .whole hn
  | float => exact .float
  | string => exact .string
  | array _ ih =>
    obtain ⟨depth', rfl⟩ := Nat.exists_eq_succ_of_ne_zero (show depth' ≠ 0 by omega)
    exact .array fun x hx => ih x hx (by omega)
  | object hms _ ih =>
    obtain ⟨depth', rfl⟩ := Nat.exists_eq_succ_of_ne_zero (show depth' ≠ 0 by omega)
    exact .object hms fun m hm => ih m hm (by omega)

/-- A value that is no null and that a reader of that depth keeps. -/
def Present (depth : Nat) (v : Json) : Prop := v ≠ .null ∧ Kept depth v

/-- What is read is a value that the reader keeps. -/
theorem kept_of_readValue {depth : Nat} {s rest : Octets} {v : Json} (h : readValue depth s = .ok (v, rest)) : Kept depth v := by
  induction depth using Nat.strongRecOn generalizing s rest v with
  | ind depth ih =>
    rw [readValue.eq_def] at h
    dsimp only at h
    split at h
    · cases h
    split at h
    · cases h
    · obtain ⟨r, -, h⟩ := map_eq_ok.1 h
      cases h
      exact .null
    · obtain ⟨r, -, h⟩ := map_eq_ok.1 h
      cases h
      exact .bool
    · obtain ⟨r, -, h⟩ := map_eq_ok.1 h
      cases h
      exact .bool
    · obtain ⟨⟨n, s'⟩, hread, h⟩ := map_eq_ok.1 h
      cases h
      cases n with
      | int n => exact .whole (fitsWhole_of_readNumber hread)
      | float x => exact .float
    · obtain ⟨r, -, h⟩ := map_eq_ok.1 h
      cases h
      exact .string
    · split at h
      · cases h
      rename_i depth
      obtain ⟨⟨acc, s'⟩, hread, h⟩ := map_eq_ok.1 h
      cases h
      refine .array fun x hx => ?_
      refine foldElements_keeps (P := fun acc => ∀ x ∈ acc, Kept depth x) ?_ (fun x hx => absurd hx List.not_mem_nil) hread x (List.mem_reverse.1 hx)
      intro acc acc' s s' hacc hitem x hx
      obtain ⟨⟨y, s₁⟩, hread, h⟩ := map_eq_ok.1 hitem
      cases h
      rcases List.mem_cons.1 hx with rfl | hx
      · exact ih depth (Nat.lt_succ_self depth) hread
      · exact hacc x hx
    · split at h
      · cases h
      rename_i depth
      obtain ⟨⟨acc, s'⟩, hread, h⟩ := map_eq_ok.1 h
      cases h
      have hkept : Increasing acc ∧ ∀ m ∈ acc, Kept depth m.2 := by
        refine foldMembers_keeps (P := fun acc => Increasing acc ∧ ∀ m ∈ acc, Kept depth m.2) ?_ ⟨List.Pairwise.nil, nofun⟩ hread
        rintro acc acc' k s s' ⟨hacc, hkept⟩ hmember
        obtain ⟨⟨u, s₁⟩, hcolon, hvalue⟩ := bind_eq_ok.1 hmember
        obtain ⟨⟨y, s₂⟩, hread, h⟩ := map_eq_ok.1 hvalue
        cases h
        refine ⟨increasing_setMember hacc, fun m hm => ?_⟩
        rcases mem_setMember hm with rfl | hm
        · exact ih depth (Nat.lt_succ_self depth) hread
        · exact hkept m hm
      exact .object hkept.1 hkept.2

/-! ## What is written -/

mutual

/-- Whether no number in a value is a binary64 number. -/
def floatFree : Json → Bool
  | .number (.float _) => false
  | .array xs => floatFreeItems xs
  | .object ms => floatFreeMembers ms
  | _ => true

/-- Whether no number in any of the values is a binary64 number. -/
def floatFreeItems : List Json → Bool
  | [] => true
  | x :: xs => floatFree x && floatFreeItems xs

/-- Whether no number in any of the members is a binary64 number. -/
def floatFreeMembers : List (String × Json) → Bool
  | [] => true
  | (_, v) :: ms => floatFree v && floatFreeMembers ms

end

theorem floatFreeItems_iff {xs : List Json} : floatFreeItems xs = true ↔ ∀ x ∈ xs, floatFree x = true := by
  induction xs with
  | nil => simp [floatFreeItems]
  | cons x xs ih => simp [floatFreeItems, ih]

theorem floatFreeMembers_iff {ms : List (String × Json)} : floatFreeMembers ms = true ↔ ∀ m ∈ ms, floatFree m.2 = true := by
  induction ms with
  | nil => simp [floatFreeMembers]
  | cons m ms ih => simp [floatFreeMembers, ih]

theorem encode_comma : Utf8.encode "," = [ofAscii ','] := rfl

theorem encode_colon : Utf8.encode ":" = [ofAscii ':'] := rfl

theorem encode_items (xs : List Json) :
    Utf8.encode (renderItems xs) = (xs.map fun x => Utf8.encode (render x)).flatMap (ofAscii ',' :: ·) := by
  induction xs with
  | nil => rfl
  | cons x xs ih =>
    rw [renderItems, Utf8.encode_append, Utf8.encode_append, ih, List.map_cons, List.flatMap_cons, encode_comma]
    rfl

/-- A sequence is its items with brackets around them. -/
theorem encode_array (xs : List Json) :
    Utf8.encode (render (.array xs)) = ofAscii '[' :: (joined (xs.map fun x => Utf8.encode (render x)) ++ [ofAscii ']']) := by
  cases xs with
  | nil => rfl
  | cons x xs =>
    rw [render, Utf8.encode_append, Utf8.encode_append, Utf8.encode_append, encode_items, List.map_cons, joined]
    rfl

theorem encode_members (ms : List (String × Json)) : Utf8.encode (renderMembers ms) =
    ((ms.map fun m => (m.1, render m.2)).map memberOctets).flatMap (ofAscii ',' :: ·) := by
  induction ms with
  | nil => rfl
  | cons m ms ih =>
    simp only [renderMembers, Utf8.encode_append, ih, List.map_cons, List.flatMap_cons, memberOctets, List.append_assoc,
      encode_comma, encode_colon, List.cons_append, List.nil_append]

/-- An object is its members with braces around them. -/
theorem encode_object (ms : List (String × Json)) : Utf8.encode (render (.object ms)) =
    ofAscii '\x7b' :: (joined ((ms.map fun m => (m.1, render m.2)).map memberOctets) ++ [ofAscii '\x7d']) := by
  cases ms with
  | nil => rfl
  | cons m ms =>
    have hopen : Utf8.encode "\x7b" = [ofAscii '\x7b'] := rfl
    have hclose : Utf8.encode "\x7d" = [ofAscii '\x7d'] := rfl
    simp only [render, Utf8.encode_append, encode_members, List.map_cons, joined, memberOctets, List.append_assoc, encode_colon,
      hopen, hclose, List.cons_append, List.nil_append]

/-- What a number opens with. -/
theorem exists_lead_renderInt (n : Int) : ∃ b rest, Utf8.encode (renderInt n) = b :: rest ∧ (isDigit b = true ∨ b = ofAscii '-') := by
  rcases Int.lt_or_le n 0 with h | h
  · exact ⟨_, _, encode_renderInt_of_neg h, .inr rfl⟩
  · obtain ⟨b, rest, hb, hd⟩ := exists_digit_octet n.natAbs
    exact ⟨b, rest, by rw [encode_renderInt_of_nonneg h, hb], .inl hd⟩

theorem lead_brace : lead? (ofAscii '\x7b') = some .object := by rw [lead?, if_neg (by decide), if_pos rfl]

/-- A digit or a hyphen opens a number, and is no blank and no bracket. -/
theorem lead_number {b : UInt8} (h : isDigit b = true ∨ b = ofAscii '-') :
    lead? b = some .number ∧ isBlank b = false ∧ b ≠ ofAscii ']' := by
  have other : ∀ c : UInt8, isDigit c = false → c ≠ ofAscii '-' → b ≠ c := by
    rintro c hdigit hhyphen rfl
    rcases h with h | h
    · exact Bool.false_ne_true (hdigit.symm.trans h)
    · exact hhyphen h
  refine ⟨?_, ?_, other _ (by decide) (by decide)⟩
  · rw [lead?, if_neg (other _ (by decide) (by decide)), if_neg (other _ (by decide) (by decide)),
      if_neg (other _ (by decide) (by decide)), if_pos h]
  · simp only [isBlank, Bool.or_eq_false_iff, beq_eq_false_iff_ne]
    exact ⟨⟨⟨other _ (by decide) (by decide), other _ (by decide) (by decide)⟩, other _ (by decide) (by decide)⟩,
      other _ (by decide) (by decide)⟩

/-- A member of an object that is being read: its value is set in place. -/
def readMember (depth : Nat) (acc : List (String × Json)) (k : String) : Reader (List (String × Json)) := fun s => do
  let ((), s) ← colon s
  (readValue depth s).map fun r => (setMember k r.1 acc, r.2)

theorem readValue_sequence (depth : Nat) (s : Octets) : readValue (depth + 1) (ofAscii '[' :: s) =
    (foldElements (fun acc s => (readValue depth s).map fun r => (r.1 :: acc, r.2)) (s.length + 1) true [] s).map
      fun r => (.array r.1.reverse, r.2) := by
  rw [readValue.eq_def]
  rfl

theorem readValue_object (depth : Nat) (s : Octets) : readValue (depth + 1) (ofAscii '\x7b' :: s) =
    (foldMembers stringBody (readMember depth) (s.length + 1) true [] s).map fun r => (.object r.1, r.2) := by
  rw [readValue.eq_def]
  rfl

/-- Items that are read back one by one are read in a row. -/
theorem reads_items {depth : Nat} {xs : List Json} (h : ∀ x ∈ xs, Opens (Utf8.encode x.render) ∧
    ∀ rest, Ends rest → readValue depth (Utf8.encode x.render ++ rest) = .ok (x, rest)) (acc : List Json) :
    Reads (fun acc s => (readValue depth s).map fun r => (r.1 :: acc, r.2)) acc (xs.map fun x => Utf8.encode (render x))
      (xs.reverse ++ acc) := by
  induction xs generalizing acc with
  | nil => exact .nil acc
  | cons x xs ih =>
    obtain ⟨hopens, hread⟩ := h x List.mem_cons_self
    rw [List.map_cons, List.reverse_cons, List.append_assoc, List.singleton_append]
    exact .cons hopens (fun rest hrest => by rw [hread rest hrest, map_ok]) (ih (fun y hy => h y (List.mem_cons_of_mem _ hy)) _)

/-- Members that are read back one by one are read in a row, each at the end of those before it. -/
theorem takes_members {depth : Nat} {ms : List (String × Json)} (h : ∀ m ∈ ms,
    ∀ rest, Ends rest → readValue depth (Utf8.encode m.2.render ++ rest) = .ok (m.2, rest)) (acc : List (String × Json))
    (hinc : Increasing (acc ++ ms)) :
    Takes (readMember depth) acc (ms.map fun m => (m.1, render m.2)) (acc ++ ms) := by
  induction ms generalizing acc with
  | nil =>
    rw [List.append_nil]
    exact .nil acc
  | cons m ms ih =>
    have hlast : setMember m.1 m.2 acc = acc ++ [m] := setMember_last fun n hn =>
      (List.pairwise_append.1 hinc).2.2 n hn m List.mem_cons_self
    have hread := h m List.mem_cons_self
    have hacc : acc ++ m :: ms = (acc ++ [m]) ++ ms := by rw [List.append_assoc, List.singleton_append]
    rw [hacc] at hinc ⊢
    refine .cons (fun rest hrest => ?_) (ih (fun n hn => h n (List.mem_cons_of_mem _ hn)) _ hinc)
    have hcolon : colon (ofAscii ':' :: (Utf8.encode (render m.2) ++ rest)) = .ok ((), Utf8.encode (render m.2) ++ rest) := rfl
    rw [readMember, hcolon, ok_bind]
    dsimp only
    rw [hread rest hrest, map_ok, hlast]

/-- A value that a reader keeps is read back from its text if none of its numbers is a binary64 number. -/
theorem readValue_render {depth : Nat} {v : Json} (h : Kept depth v) (hfloat : v.floatFree = true) :
    Opens (Utf8.encode v.render) ∧ ∀ rest, Ends rest → readValue depth (Utf8.encode v.render ++ rest) = .ok (v, rest) := by
  induction h with
  | null =>
    refine ⟨⟨_, _, rfl, by decide, by decide⟩, fun rest _ => ?_⟩
    rw [readValue.eq_def]
    rfl
  | @bool _ b =>
    cases b
    all_goals
      refine ⟨⟨_, _, rfl, by decide, by decide⟩, fun rest _ => ?_⟩
      rw [readValue.eq_def]
      rfl
  | @whole depth n hn =>
    obtain ⟨b, t, hb, hlead⟩ := exists_lead_renderInt n
    obtain ⟨hnumber, hblank, hclose⟩ := lead_number hlead
    have hrender : Utf8.encode (render (.number (.int n))) = b :: t := by rw [render, Number.render, hb]
    refine ⟨⟨b, t, hrender, hblank, hclose⟩, fun rest hrest => ?_⟩
    have hread := readNumber_renderInt hn hrest
    rw [hb, List.cons_append] at hread
    rw [hrender, List.cons_append, readValue.eq_def]
    simp only [skipBlank_cons hblank, hnumber, hread, map_ok]
  | float => cases hfloat
  | @string depth s =>
    have hrender : Utf8.encode (render (.string s)) = ofAscii '\x22' :: (escapedOctets s.toList ++ [ofAscii '\x22']) :=
      encode_renderString s
    refine ⟨⟨_, _, hrender, by decide, by decide⟩, fun rest _ => ?_⟩
    rw [hrender, List.cons_append, List.append_assoc, readValue.eq_def]
    show (stringBody (escapedOctets s.toList ++ ofAscii '\x22' :: rest)).map _ = _
    rw [stringBody_renderString, map_ok]
  | @array depth xs hxs ih =>
    refine ⟨⟨_, _, encode_array xs, by decide, by decide⟩, fun rest _ => ?_⟩
    have hfloat' := floatFreeItems_iff.1 hfloat
    have hreads := reads_items (fun x hx => ih x hx (hfloat' x hx)) []
    rw [encode_array, List.cons_append, List.append_assoc, List.singleton_append, readValue_sequence,
      hreads.all rest _ (by simp), map_ok, List.append_nil, List.reverse_reverse]
  | @object depth ms hms hkept ih =>
    refine ⟨⟨_, _, encode_object ms, by decide, by decide⟩, fun rest _ => ?_⟩
    have hfloat' := floatFreeMembers_iff.1 hfloat
    have htakes := takes_members (fun m hm => (ih m hm (hfloat' m hm)).2) [] hms
    rw [encode_object, List.cons_append, List.append_assoc, List.singleton_append, readValue_object,
      htakes.all rest _ (by simp), map_ok, List.nil_append]

end AuditTrail.Json
