import AuditTrail.Proofs.Json.Values

/-!
# The grammar of JSON

A text is a JSON value by its octets alone (`IsValue`), however deep it nests, however long its numbers are, and whether or not its
strings are well-formed Unicode. Sequences and objects are lists of elements and members, each with the blanks around it, so that what
holds of all elements and members holds of what is made of them. A reader that frames a text (`Frames`) takes just that text,
whatever follows it, and what it makes of it does not hang on that. The loops over elements and members frame a list of texts that
are framed one by one (`Folded`).
-/

namespace AuditTrail.Json

open Octets (ofAscii isDigit digit)
open Outcome

/-! ## Tokens -/

/-- Octets that may stand before or after a token. -/
abbrev Blanks := { s : Octets // ∀ b ∈ s, isBlank b = true }

def noBlanks : Blanks := ⟨[], fun _ h => absurd h List.not_mem_nil⟩

/-- A hexadecimal digit, in either case. -/
def IsHex (b : UInt8) : Prop :=
  ofAscii '0' ≤ b ∧ b ≤ ofAscii '9' ∨ ofAscii 'a' ≤ b ∧ b ≤ ofAscii 'f' ∨ ofAscii 'A' ≤ b ∧ b ≤ ofAscii 'F'

instance (b : UInt8) : Decidable (IsHex b) := inferInstanceAs (Decidable (_ ∨ _))

/-- What stands between the quotes of a string. -/
inductive IsBody : Octets → Prop where
  | nil : IsBody []
  | plain {b : UInt8} {s : Octets} (hquote : b ≠ ofAscii '\x22') (hbackslash : b ≠ ofAscii '\\') (hcontrol : 0x20 ≤ b)
      (h : IsBody s) : IsBody (b :: s)
  | letter {b : UInt8} {s : Octets} (hb : b ∈ ascii "\x22\\/bfnrt") (h : IsBody s) : IsBody (ofAscii '\\' :: b :: s)
  | code {w x y z : UInt8} {s : Octets} (hw : IsHex w) (hx : IsHex x) (hy : IsHex y) (hz : IsHex z) (h : IsBody s) :
      IsBody (ofAscii '\\' :: ofAscii 'u' :: w :: x :: y :: z :: s)

/-- Four hexadecimal digits are those of a number. -/
def IsCode (w x y z : UInt8) (n : Nat) : Prop :=
  ∃ a b c d, Octets.hexDigit? w = some a ∧ Octets.hexDigit? x = some b ∧ Octets.hexDigit? y = some c ∧
    Octets.hexDigit? z = some d ∧ n = ((a * 16 + b) * 16 + c) * 16 + d

/-- The octets that a body stands for. A surrogate stands for nothing by itself, but two of them for one character. -/
inductive Means : Octets → Octets → Prop where
  | nil : Means [] []
  | plain {b : UInt8} {s o : Octets} (hquote : b ≠ ofAscii '\x22') (hbackslash : b ≠ ofAscii '\\') (hcontrol : 0x20 ≤ b)
      (h : Means s o) : Means (b :: s) (b :: o)
  | letter {b c : UInt8} {s o : Octets} (hb : simpleEscape? b = some c) (h : Means s o) : Means (ofAscii '\\' :: b :: s) (c :: o)
  | code {w x y z : UInt8} {n : Nat} {s o : Octets} (hn : IsCode w x y z n) (hsurrogate : n < 0xd800 ∨ 0xdfff < n) (h : Means s o) :
      Means (ofAscii '\\' :: ofAscii 'u' :: w :: x :: y :: z :: s) (codePoint n ++ o)
  | pair {w x y z w' x' y' z' : UInt8} {m n : Nat} {s o : Octets} (hm : IsCode w x y z m) (hhigh : 0xd800 ≤ m ∧ m ≤ 0xdbff)
      (hn : IsCode w' x' y' z' n) (hlow : 0xdc00 ≤ n ∧ n ≤ 0xdfff) (h : Means s o) :
      Means (ofAscii '\\' :: ofAscii 'u' :: w :: x :: y :: z ::
          ofAscii '\\' :: ofAscii 'u' :: w' :: x' :: y' :: z' :: s)
        (codePoint (0x10000 + (m - 0xd800) * 0x400 + (n - 0xdc00)) ++ o)

/-- The text that a body spells. -/
def Spells (body : Octets) (text : String) : Prop := ∃ o, Means body o ∧ Utf8.decode? o = some text

/-- One digit or more. -/
def IsDigits (s : Octets) : Prop := s ≠ [] ∧ ∀ b ∈ s, isDigit b = true

instance (s : Octets) : Decidable (IsDigits s) := inferInstanceAs (Decidable (_ ∧ _))

/-- The digits of a whole number. Only zero itself begins with one. -/
def IsWhole (s : Octets) : Prop := IsDigits s ∧ (s.head? = some (ofAscii '0') → s = [ofAscii '0'])

instance (s : Octets) : Decidable (IsWhole s) := inferInstanceAs (Decidable (_ ∧ _))

/-- A point with digits after it, or nothing. -/
inductive IsFraction : Octets → Prop where
  | none : IsFraction []
  | digits {ds : Octets} (h : IsDigits ds) : IsFraction (ofAscii '.' :: ds)

/-- The letter of an exponent with a sign, if there is any, and digits after it; or nothing. -/
inductive IsExponent : Octets → Prop where
  | none : IsExponent []
  | digits {e : UInt8} {sign ds : Octets} (he : e = ofAscii 'e' ∨ e = ofAscii 'E')
      (hsign : sign = [] ∨ sign = [ofAscii '+'] ∨ sign = [ofAscii '-']) (h : IsDigits ds) : IsExponent (e :: (sign ++ ds))

/-- A number. -/
inductive IsNumber : Octets → Prop where
  | parts {sign whole fraction exponent : Octets} (hsign : sign = [] ∨ sign = [ofAscii '-']) (hwhole : IsWhole whole)
      (hfraction : IsFraction fraction) (hexponent : IsExponent exponent) : IsNumber (sign ++ (whole ++ (fraction ++ exponent)))

/-! ## Values -/

/-- An element of a sequence with the blanks around it. -/
structure Item where
  before : Blanks
  value : Octets
  after : Blanks

def Item.text (i : Item) : Octets := i.before.1 ++ (i.value ++ i.after.1)

/-- A member of an object with the blanks around it and around its colon. -/
structure Member where
  before : Blanks
  /-- What stands between the quotes of its name. -/
  body : Octets
  gap : Blanks
  item : Item

/-- A member from the end of its opening quote to the end of its value. -/
def Member.core (m : Member) : Octets :=
  m.body ++ ofAscii '\x22' :: (m.gap.1 ++ ofAscii ':' :: (m.item.before.1 ++ m.item.value))

def Member.text (m : Member) : Octets := m.before.1 ++ ofAscii '\x22' :: (m.core ++ m.item.after.1)

/-- A sequence of elements, with blanks for one that has none. -/
def sequenceText (items : List Item) (gap : Blanks) : Octets :=
  ofAscii '[' :: (joined (items.map Item.text) ++ (gap.1 ++ [ofAscii ']']))

/-- An object of members, with blanks for one that has none. -/
def objectText (ms : List Member) (gap : Blanks) : Octets :=
  ofAscii '\x7b' :: (joined (ms.map Member.text) ++ (gap.1 ++ [ofAscii '\x7d']))

/-- A value, from its first octet to its last. -/
inductive IsValue : Octets → Prop where
  | literal {s : Octets} (h : s = ascii "null" ∨ s = ascii "true" ∨ s = ascii "false") : IsValue s
  | number {s : Octets} (h : IsNumber s) : IsValue s
  | string {s : Octets} (h : IsBody s) : IsValue (ofAscii '\x22' :: (s ++ [ofAscii '\x22']))
  | sequence {items : List Item} {gap : Blanks} (h : ∀ i ∈ items, IsValue i.value) : IsValue (sequenceText items gap)
  | object {ms : List Member} {gap : Blanks} (hnames : ∀ m ∈ ms, IsBody m.body) (h : ∀ m ∈ ms, IsValue m.item.value) :
      IsValue (objectText ms gap)

/-! ## Blanks -/

theorem skipBlank_append (b : Blanks) (s : Octets) : skipBlank (b.1 ++ s) = skipBlank s :=
  List.dropWhile_append_of_pos b.2

/-- What may follow a value: nothing, a blank, or an octet that ends it. -/
def Stops (rest : Octets) : Prop :=
  ∀ b ∈ rest.head?, isBlank b = true ∨ b = ofAscii ',' ∨ b = ofAscii ']' ∨ b = ofAscii '\x7d'

theorem stops_nil : Stops [] := nofun

theorem stops_cons {b : UInt8} (h : b = ofAscii ',' ∨ b = ofAscii ']' ∨ b = ofAscii '\x7d') (rest : Octets) : Stops (b :: rest) := by
  intro c hc
  cases hc
  exact .inr h

theorem stops_blanks (b : Blanks) {rest : Octets} (h : Stops rest) : Stops (b.1 ++ rest) := by
  obtain ⟨s, hs⟩ := b
  cases s with
  | nil => exact h
  | cons c s =>
    intro d hd
    cases hd
    exact .inl (hs c List.mem_cons_self)

/-- Where an element of several ends, a comma follows or what closes them. -/
theorem stops_tail {close : UInt8} (h : close = ofAscii ']' ∨ close = ofAscii '\x7d') (texts : List Octets) (gap : Blanks)
    (rest : Octets) : Stops (texts.flatMap (ofAscii ',' :: ·) ++ (gap.1 ++ close :: rest)) := by
  cases texts with
  | nil => exact stops_blanks gap (stops_cons (.inr h) rest)
  | cons u us => exact stops_cons (.inl rfl) _

/-- What stops a number goes on with no digit, no point and no exponent. -/
theorem Stops.octet {b : UInt8} {rest : Octets} (h : Stops (b :: rest)) :
    isDigit b = false ∧ b ≠ ofAscii '.' ∧ b ≠ ofAscii 'e' ∧ b ≠ ofAscii 'E' := by
  have hblank : isBlank b = true → b = 0x20 ∨ b = 0x0a ∨ b = 0x09 ∨ b = 0x0d := by
    simp only [isBlank, Bool.or_eq_true, beq_iff_eq, or_assoc, imp_self]
  rcases h b rfl with hb | rfl | rfl | rfl
  · rcases hblank hb with rfl | rfl | rfl | rfl <;> decide
  all_goals decide

/-! ## Framed texts -/

/-- The reader takes just the text, whatever follows it, and makes of it what has the property. -/
def Frames {α : Type} (R : Reader α) (v : Octets) (P : α → Prop) : Prop :=
  ∀ rest, Stops rest → ∀ a s', R (v ++ rest) = .ok (a, s') ↔ s' = rest ∧ P a

section

variable {α β : Type} {R S : Reader α} {v : Octets} {P : α → Prop}

/-- What a reader makes of a framed text it makes of the text alone. -/
theorem Frames.alone (h : Frames R v P) (a : α) : R v = .ok (a, []) ↔ P a := by
  have := h [] stops_nil a []
  rwa [List.append_nil, eq_self, true_and] at this

theorem Frames.self (h : Frames R v P) : Frames R v fun a => R v = .ok (a, []) := by
  intro rest hrest a s'
  rw [h rest hrest]
  exact and_congr_right' (h.alone a).symm

theorem Frames.congr {Q : α → Prop} (h : Frames R v P) (hPQ : ∀ a, P a ↔ Q a) : Frames R v Q := by
  intro rest hrest a s'
  rw [h rest hrest, hPQ]

/-- A reader that does with a text what another one does with its own. -/
theorem Frames.of_eq {w : Octets} (h : Frames S w P) (hRS : ∀ rest, R (v ++ rest) = S (w ++ rest)) : Frames R v P := by
  intro rest hrest a s'
  rw [hRS]
  exact h rest hrest a s'

/-- A reader that goes on as another one does after the first octet. -/
theorem Frames.cons {b : UInt8} (h : Frames S v P) (hRS : ∀ s, R (b :: s) = S s) : Frames R (b :: v) P :=
  h.of_eq fun rest => hRS (v ++ rest)

/-- A reader that passes over leading blanks. -/
theorem Frames.blanks (h : Frames R v P) (hblanks : ∀ (b : Blanks) (s : Octets), R (b.1 ++ s) = R s) (b : Blanks) :
    Frames R (b.1 ++ v) P :=
  h.of_eq fun rest => by rw [List.append_assoc, hblanks]

/-- What a reader makes of a framed text, further on. -/
theorem Frames.map (h : Frames R v P) (f : α → β) :
    Frames (fun s => (R s).map fun r => (f r.1, r.2)) v fun b => ∃ a, P a ∧ f a = b := by
  intro rest hrest b s'
  rw [map_eq_ok]
  constructor
  · rintro ⟨⟨a, s₁⟩, hread, heq⟩
    obtain ⟨rfl, ha⟩ := (h rest hrest a s₁).1 hread
    obtain ⟨hb, rfl⟩ := Prod.mk.inj heq
    exact ⟨rfl, a, ha, hb⟩
  · rintro ⟨rfl, a, ha, rfl⟩
    exact ⟨(a, s'), (h s' hrest a s').2 ⟨rfl, ha⟩, rfl⟩

/-- What a reader makes of a framed text, if that is not refused. -/
theorem Frames.bind (h : Frames R v P) (f : α → Except Fault β) :
    Frames (fun s => R s >>= fun r => f r.1 >>= fun b => .ok (b, r.2)) v fun b => ∃ a, P a ∧ f a = .ok b := by
  intro rest hrest b s'
  rw [bind_eq_ok]
  constructor
  · rintro ⟨⟨a, s₁⟩, hread, hf⟩
    obtain ⟨rfl, ha⟩ := (h rest hrest a s₁).1 hread
    obtain ⟨b', hb, heq⟩ := bind_eq_ok.1 hf
    cases heq
    exact ⟨rfl, a, ha, hb⟩
  · rintro ⟨rfl, a, ha, hf⟩
    exact ⟨(a, s'), (h s' hrest a s').2 ⟨rfl, ha⟩, bind_eq_ok.2 ⟨b, hf, rfl⟩⟩

/-- One framed text after another, where the first one ends. -/
theorem Frames.andThen {S : α → Reader β} {w : Octets} {Q : α → β → Prop} (h : Frames R v P)
    (hw : ∀ rest, Stops rest → Stops (w ++ rest)) (hS : ∀ a, Frames (S a) w (Q a)) :
    Frames (fun s => R s >>= fun x => S x.1 x.2) (v ++ w) fun b => ∃ a, P a ∧ Q a b := by
  intro rest hrest b s'
  rw [List.append_assoc, bind_eq_ok]
  constructor
  · rintro ⟨⟨a, s₁⟩, hread, hnext⟩
    obtain ⟨rfl, ha⟩ := (h _ (hw rest hrest) a s₁).1 hread
    obtain ⟨hs', hb⟩ := (hS a rest hrest b s').1 hnext
    exact ⟨hs', a, ha, hb⟩
  · rintro ⟨rfl, a, ha, hb⟩
    exact ⟨(a, w ++ s'), (h _ (hw s' hrest) _ _).2 ⟨rfl, ha⟩, (hS a s' hrest b s').2 ⟨rfl, hb⟩⟩

/-- A reader that refuses a text. -/
theorem Frames.refused {e : Fault} (h : ∀ rest, R (v ++ rest) = .error e) : Frames R v fun _ => False := by
  intro rest _ a s'
  rw [h rest, and_false, iff_false]
  intro h
  cases h

/-- A reader that makes nothing of a text, whatever its fault is. -/
theorem Frames.never (h : ∀ rest a s', R (v ++ rest) ≠ .ok (a, s')) : Frames R v fun _ => False := by
  intro rest _ a s'
  rw [and_false, iff_false]
  exact h rest a s'

/-- A reader that always makes the same of a text. -/
theorem Frames.always {a : α} (h : ∀ rest, Stops rest → R (v ++ rest) = .ok (a, rest)) : Frames R v (· = a) := by
  intro rest hrest b s'
  rw [h rest hrest, Except.ok.injEq, Prod.mk.injEq, and_comm, eq_comm, @eq_comm _ a b]

end

/-! ## Strings -/

theorem hexDigit?_of_isHex {b : UInt8} (h : IsHex b) : ∃ n, Octets.hexDigit? b = some n := by
  unfold Octets.hexDigit?
  simp only [Bool.and_eq_true, decide_eq_true_eq]
  by_cases hdigit : ofAscii '0' ≤ b ∧ b ≤ ofAscii '9'
  · exact ⟨_, if_pos hdigit⟩
  by_cases hlower : ofAscii 'a' ≤ b ∧ b ≤ ofAscii 'f'
  · exact ⟨_, (if_neg hdigit).trans (if_pos hlower)⟩
  · exact ⟨_, (if_neg hdigit).trans ((if_neg hlower).trans (if_pos ((h.resolve_left hdigit).resolve_left hlower)))⟩

theorem isHex_of_hexDigit? {b : UInt8} {n : Nat} (h : Octets.hexDigit? b = some n) : IsHex b := by
  unfold Octets.hexDigit? at h
  simp only [Bool.and_eq_true, decide_eq_true_eq] at h
  split at h
  · exact .inl ‹_›
  split at h
  · exact .inr (.inl ‹_›)
  split at h
  · exact .inr (.inr ‹_›)
  · cases h

theorem exists_isCode {w x y z : UInt8} (hw : IsHex w) (hx : IsHex x) (hy : IsHex y) (hz : IsHex z) : ∃ n, IsCode w x y z n := by
  obtain ⟨a, ha⟩ := hexDigit?_of_isHex hw
  obtain ⟨b, hb⟩ := hexDigit?_of_isHex hx
  obtain ⟨c, hc⟩ := hexDigit?_of_isHex hy
  obtain ⟨d, hd⟩ := hexDigit?_of_isHex hz
  exact ⟨_, a, b, c, d, ha, hb, hc, hd, rfl⟩

/-- Four hexadecimal digits are read, whatever follows them. -/
theorem IsCode.hexFour {w x y z : UInt8} {n : Nat} (h : IsCode w x y z n) (s : Octets) :
    hexFour (w :: x :: y :: z :: s) = .ok (n, s) := by
  obtain ⟨a, b, c, d, ha, hb, hc, hd, rfl⟩ := h
  rw [Json.hexFour, ha, hb, hc, hd]

/-- A letter of an escape stands for an octet. -/
theorem simpleEscape?_of_mem {b : UInt8} (h : b ∈ ascii "\x22\\/bfnrt") : b ≠ ofAscii 'u' ∧ ∃ c, simpleEscape? b = some c := by
  have all : ∀ b ∈ ascii "\x22\\/bfnrt", b ≠ ofAscii 'u' ∧ (simpleEscape? b).isSome = true := by decide +kernel
  exact ⟨(all b h).1, Option.isSome_iff_exists.1 (all b h).2⟩

theorem mem_of_simpleEscape? {b c : UInt8} (h : simpleEscape? b = some c) : b ∈ ascii "\x22\\/bfnrt" := by
  unfold simpleEscape? at h
  split at h
  · rename_i hself
    rcases hself with rfl | rfl | rfl <;> decide
  iterate 5
    split at h
    · rename_i hb
      rw [hb]
      decide
  cases h

theorem simpleEscape?_u : simpleEscape? (ofAscii 'u') = none := by decide

/-- An escape by a code is read by what the code is. -/
theorem IsCode.escape {w x y z : UInt8} {n : Nat} (h : IsCode w x y z n) (s : Octets) :
    escape (ofAscii 'u' :: w :: x :: y :: z :: s) =
      if 0xdc00 ≤ n ∧ n ≤ 0xdfff then .error .malformed
      else if 0xd800 ≤ n ∧ n ≤ 0xdbff then lowSurrogate n s else .ok (codePoint n, s) := by
  rw [Json.escape, simpleEscape?_u]
  dsimp only
  rw [if_neg (by decide), h.hexFour, ok_bind]

/-- The second half of a pair is read by what its code is. -/
theorem IsCode.lowSurrogate {w x y z : UInt8} {n : Nat} (h : IsCode w x y z n) (high : Nat) (s : Octets) :
    lowSurrogate high (ofAscii '\\' :: ofAscii 'u' :: w :: x :: y :: z :: s) =
      if 0xdc00 ≤ n ∧ n ≤ 0xdfff then .ok (codePoint (0x10000 + (high - 0xd800) * 0x400 + (n - 0xdc00)), s)
      else .error .malformed := by
  rw [Json.lowSurrogate, if_neg (by decide)]
  dsimp only
  rw [if_neg (by decide), h.hexFour, ok_bind]

/-- What a body stands for is made of bodies. -/
theorem Means.isBody {body o : Octets} (h : Means body o) : IsBody body := by
  have hcode : ∀ {w x y z : UInt8} {n : Nat}, IsCode w x y z n → IsHex w ∧ IsHex x ∧ IsHex y ∧ IsHex z := by
    rintro w x y z n ⟨a, b, c, d, ha, hb, hc, hd, -⟩
    exact ⟨isHex_of_hexDigit? ha, isHex_of_hexDigit? hb, isHex_of_hexDigit? hc, isHex_of_hexDigit? hd⟩
  induction h with
  | nil => exact .nil
  | plain hquote hbackslash hcontrol _ ih => exact .plain hquote hbackslash hcontrol ih
  | @letter b c s o hb _ ih =>
    exact .letter (mem_of_simpleEscape? hb) ih
  | code hn _ _ ih =>
    obtain ⟨hw, hx, hy, hz⟩ := hcode hn
    exact .code hw hx hy hz ih
  | pair hm _ hn _ _ ih =>
    obtain ⟨hw, hx, hy, hz⟩ := hcode hm
    obtain ⟨hw', hx', hy', hz'⟩ := hcode hn
    exact .code hw hx hy hz (.code hw' hx' hy' hz' ih)

/-- After a backslash the escape is read, and then what follows it. -/
theorem stringOctets_backslash (esc : Reader Octets) {s x rest : Octets} (h : esc s = .ok (x, rest)) (bound : Nat) :
    stringOctets esc (bound + 1) (ofAscii '\\' :: s) = (stringOctets esc bound rest).map fun r => (x ++ r.1, r.2) := by
  rw [stringOctets, if_neg (by decide), if_pos rfl, h, ok_bind]
  dsimp only
  cases stringOctets esc bound rest <;> rfl

/-- A string that is not kept is passed over. -/
theorem stringOctets_skipEscape {body : Octets} (h : IsBody body) (rest : Octets) {bound : Nat} (hbound : body.length < bound) :
    ∃ o, stringOctets skipEscape bound (body ++ ofAscii '\x22' :: rest) = .ok (o, rest) := by
  induction h generalizing bound with
  | nil =>
    obtain ⟨bound, rfl⟩ := Nat.exists_eq_succ_of_ne_zero (Nat.ne_zero_of_lt hbound)
    exact ⟨[], rfl⟩
  | @plain b s hquote hbackslash hcontrol _ ih =>
    obtain ⟨bound, rfl⟩ := Nat.exists_eq_succ_of_ne_zero (Nat.ne_zero_of_lt hbound)
    obtain ⟨o, ho⟩ := ih (Nat.lt_of_succ_lt_succ hbound)
    refine ⟨b :: o, ?_⟩
    rw [List.cons_append, stringOctets_plain skipEscape hquote hbackslash (UInt8.not_lt.2 hcontrol), ho, map_ok]
  | @letter b s hb _ ih =>
    obtain ⟨bound, rfl⟩ := Nat.exists_eq_succ_of_ne_zero (Nat.ne_zero_of_lt hbound)
    obtain ⟨o, ho⟩ := ih (Nat.lt_of_succ_lt (Nat.lt_of_succ_lt_succ hbound))
    obtain ⟨-, c, hc⟩ := simpleEscape?_of_mem hb
    have hskip : skipEscape (b :: (s ++ ofAscii '\x22' :: rest)) = .ok ([], s ++ ofAscii '\x22' :: rest) := by
      rw [skipEscape, hc]
    refine ⟨o, ?_⟩
    rw [List.cons_append, List.cons_append, stringOctets_backslash skipEscape hskip, ho, map_ok, List.nil_append]
  | @code w x y z s hw hx hy hz _ ih =>
    obtain ⟨bound, rfl⟩ := Nat.exists_eq_succ_of_ne_zero (Nat.ne_zero_of_lt hbound)
    obtain ⟨o, ho⟩ := @ih bound (by simp only [List.length_cons] at hbound; omega)
    obtain ⟨n, hn⟩ := exists_isCode hw hx hy hz
    have hskip : skipEscape (ofAscii 'u' :: w :: x :: y :: z :: (s ++ ofAscii '\x22' :: rest)) =
        .ok ([], s ++ ofAscii '\x22' :: rest) := by
      rw [skipEscape, simpleEscape?_u, hn.hexFour]
      rfl
    refine ⟨o, ?_⟩
    simp only [List.cons_append]
    rw [stringOctets_backslash skipEscape hskip, ho, map_ok, List.nil_append]

/-- The string that is not kept takes just its text. -/
theorem skipStringBody_body {body : Octets} (h : IsBody body) (rest : Octets) :
    skipStringBody (body ++ ofAscii '\x22' :: rest) = .ok ((), rest) := by
  have hbound : body.length < (body ++ ofAscii '\x22' :: rest).length + 1 := by
    rw [List.length_append]
    omega
  obtain ⟨o, ho⟩ := stringOctets_skipEscape h rest hbound
  rw [skipStringBody, ho, ok_bind]

/-- What a body stands for is read. -/
theorem Means.stringOctets {body o : Octets} (h : Means body o) (rest : Octets) {bound : Nat} (hbound : body.length < bound) :
    stringOctets escape bound (body ++ ofAscii '\x22' :: rest) = .ok (o, rest) := by
  induction h generalizing bound with
  | nil =>
    obtain ⟨bound, rfl⟩ := Nat.exists_eq_succ_of_ne_zero (Nat.ne_zero_of_lt hbound)
    rfl
  | plain hquote hbackslash hcontrol _ ih =>
    obtain ⟨bound, rfl⟩ := Nat.exists_eq_succ_of_ne_zero (Nat.ne_zero_of_lt hbound)
    rw [List.cons_append, stringOctets_plain escape hquote hbackslash (UInt8.not_lt.2 hcontrol),
      ih (Nat.lt_of_succ_lt_succ hbound), map_ok]
  | @letter b c s o hb _ ih =>
    obtain ⟨bound, rfl⟩ := Nat.exists_eq_succ_of_ne_zero (Nat.ne_zero_of_lt hbound)
    have hescape : escape (b :: (s ++ ofAscii '\x22' :: rest)) = .ok ([c], s ++ ofAscii '\x22' :: rest) := by rw [escape, hb]
    rw [List.cons_append, List.cons_append, stringOctets_backslash escape hescape,
      ih (Nat.lt_of_succ_lt (Nat.lt_of_succ_lt_succ hbound)), map_ok]
    rfl
  | @code w x y z n s o hn hsurrogate _ ih =>
    obtain ⟨bound, rfl⟩ := Nat.exists_eq_succ_of_ne_zero (Nat.ne_zero_of_lt hbound)
    have hescape : escape (ofAscii 'u' :: w :: x :: y :: z :: (s ++ ofAscii '\x22' :: rest)) =
        .ok (codePoint n, s ++ ofAscii '\x22' :: rest) := by
      rw [hn.escape, if_neg (by omega), if_neg (by omega)]
    simp only [List.cons_append]
    rw [stringOctets_backslash escape hescape, ih (by simp only [List.length_cons] at hbound; omega), map_ok]
  | @pair w x y z w' x' y' z' m n s o hm hhigh hn hlow _ ih =>
    obtain ⟨bound, rfl⟩ := Nat.exists_eq_succ_of_ne_zero (Nat.ne_zero_of_lt hbound)
    have hescape : escape (ofAscii 'u' :: w :: x :: y :: z ::
        ofAscii '\\' :: ofAscii 'u' :: w' :: x' :: y' :: z' :: (s ++ ofAscii '\x22' :: rest)) =
        .ok (codePoint (0x10000 + (m - 0xd800) * 0x400 + (n - 0xdc00)), s ++ ofAscii '\x22' :: rest) := by
      rw [hm.escape, if_neg (by omega), if_pos hhigh, hn.lowSurrogate, if_pos hlow]
    simp only [List.cons_append]
    rw [stringOctets_backslash escape hescape, ih (by simp only [List.length_cons] at hbound; omega), map_ok]

/-- Only an escape by the code of a second half completes a pair. -/
theorem exists_code_of_lowSurrogate {high : Nat} {s rest x s' : Octets} (hs : IsBody s)
    (h : lowSurrogate high (s ++ ofAscii '\x22' :: rest) = .ok (x, s')) :
    ∃ a b c d n t, s = ofAscii '\\' :: ofAscii 'u' :: a :: b :: c :: d :: t ∧ IsCode a b c d n ∧ (0xdc00 ≤ n ∧ n ≤ 0xdfff) ∧
      IsBody t ∧ x = codePoint (0x10000 + (high - 0xd800) * 0x400 + (n - 0xdc00)) ∧ s' = t ++ ofAscii '\x22' :: rest := by
  cases hs with
  | nil =>
    rw [List.nil_append, lowSurrogate.eq_def] at h
    dsimp only at h
    rw [if_pos (by decide)] at h
    cases h
  | plain hquote hbackslash hcontrol hs =>
    rw [List.cons_append, lowSurrogate.eq_def] at h
    dsimp only at h
    rw [if_pos hbackslash] at h
    cases h
  | letter hb hs =>
    rw [List.cons_append, List.cons_append, lowSurrogate, if_neg (by decide)] at h
    dsimp only at h
    rw [if_pos (simpleEscape?_of_mem hb).1] at h
    cases h
  | @code a b c d t ha hb hc hd hs =>
    obtain ⟨n, hn⟩ := exists_isCode ha hb hc hd
    simp only [List.cons_append] at h
    rw [hn.lowSurrogate] at h
    split at h
    · rename_i hlow
      obtain ⟨hx, hs'⟩ := Prod.mk.inj (Except.ok.inj h)
      exact ⟨a, b, c, d, n, t, rfl, hn, hlow, hs, hx.symm, hs'.symm⟩
    · cases h

/-- A string that is read takes just its text, and its octets are those that the text stands for. -/
theorem means_of_stringOctets {body : Octets} (hbody : IsBody body) {rest o s' : Octets} {bound : Nat}
    (h : stringOctets escape bound (body ++ ofAscii '\x22' :: rest) = .ok (o, s')) : s' = rest ∧ Means body o := by
  induction bound generalizing body o with
  | zero => cases h
  | succ bound ih =>
    cases hbody with
    | nil =>
      rw [List.nil_append, stringOctets, if_pos rfl] at h
      cases h
      exact ⟨rfl, .nil⟩
    | plain hquote hbackslash hcontrol hs =>
      rw [List.cons_append, stringOctets_plain escape hquote hbackslash (UInt8.not_lt.2 hcontrol)] at h
      obtain ⟨⟨o', s₁⟩, hread, h⟩ := map_eq_ok.1 h
      cases h
      obtain ⟨rfl, hmeans⟩ := ih hs hread
      exact ⟨rfl, .plain hquote hbackslash hcontrol hmeans⟩
    | @letter b s hb hs =>
      obtain ⟨-, c, hc⟩ := simpleEscape?_of_mem hb
      have hescape : escape (b :: (s ++ ofAscii '\x22' :: rest)) = .ok ([c], s ++ ofAscii '\x22' :: rest) := by rw [escape, hc]
      rw [List.cons_append, List.cons_append, stringOctets_backslash escape hescape] at h
      obtain ⟨⟨o', s₁⟩, hread, h⟩ := map_eq_ok.1 h
      cases h
      obtain ⟨rfl, hmeans⟩ := ih hs hread
      exact ⟨rfl, .letter hc hmeans⟩
    | @code w x y z s hw hx hy hz hs =>
      obtain ⟨n, hn⟩ := exists_isCode hw hx hy hz
      simp only [List.cons_append] at h
      cases hescape : escape (ofAscii 'u' :: w :: x :: y :: z :: (s ++ ofAscii '\x22' :: rest)) with
      | error e =>
        rw [stringOctets, if_neg (by decide), if_pos rfl, hescape] at h
        cases h
      | ok r =>
        obtain ⟨p, s₁⟩ := r
        rw [stringOctets_backslash escape hescape] at h
        obtain ⟨⟨o', s₂⟩, hread, h⟩ := map_eq_ok.1 h
        cases h
        rw [hn.escape] at hescape
        split at hescape
        · cases hescape
        split at hescape
        · rename_i hhigh
          obtain ⟨a, b, c, d, m, t, rfl, hm, hlow, ht, hp, rfl⟩ := exists_code_of_lowSurrogate hs hescape
          obtain ⟨hs', hmeans⟩ := ih ht hread
          rw [hp]
          exact ⟨hs', Means.pair hn hhigh hm hlow hmeans⟩
        · obtain ⟨rfl, rfl⟩ := Prod.mk.inj (Except.ok.inj hescape)
          obtain ⟨rfl, hmeans⟩ := ih hs hread
          exact ⟨rfl, .code hn (by omega) hmeans⟩

/-- A string is read as the text that it spells, and as no other. -/
theorem stringBody_body {body : Octets} (h : IsBody body) {rest : Octets} {text : String} {s' : Octets} :
    stringBody (body ++ ofAscii '\x22' :: rest) = .ok (text, s') ↔ s' = rest ∧ Spells body text := by
  have hbound : body.length < (body ++ ofAscii '\x22' :: rest).length + 1 := by
    rw [List.length_append]
    omega
  constructor
  · intro hread
    obtain ⟨⟨o, s₁⟩, hoctets, htext⟩ := bind_eq_ok.1 hread
    obtain ⟨rfl, hmeans⟩ := means_of_stringOctets h hoctets
    dsimp only at htext
    split at htext
    · rename_i hdecode
      cases htext
      exact ⟨rfl, o, hmeans, hdecode⟩
    · cases htext
  · rintro ⟨rfl, o, hmeans, hdecode⟩
    rw [stringBody, hmeans.stringOctets s' hbound]
    simp only [ok_bind, hdecode]

/-- Octets that stand for themselves. -/
abbrev Plain (s : Octets) : Prop := ∀ b ∈ s, b ≠ ofAscii '\x22' ∧ b ≠ ofAscii '\\' ∧ 0x20 ≤ b

theorem means_plain {s : Octets} (h : Plain s) : Means s s := by
  induction s with
  | nil => exact .nil
  | cons b s ih =>
    obtain ⟨hquote, hbackslash, hcontrol⟩ := h b List.mem_cons_self
    exact .plain hquote hbackslash hcontrol (ih fun c hc => h c (List.mem_cons_of_mem _ hc))

theorem Spells.isBody {body : Octets} {text : String} (h : Spells body text) : IsBody body := by
  obtain ⟨o, hmeans, -⟩ := h
  exact hmeans.isBody

/-- A body spells no two texts. -/
theorem Spells.unique {body : Octets} {t u : String} (ht : Spells body t) (hu : Spells body u) : t = u := by
  have hread : stringBody (body ++ [ofAscii '\x22']) = .ok (t, []) := (stringBody_body ht.isBody).2 ⟨rfl, ht⟩
  rw [(stringBody_body hu.isBody).2 ⟨rfl, hu⟩] at hread
  cases hread
  rfl

end AuditTrail.Json
