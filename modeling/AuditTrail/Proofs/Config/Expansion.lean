import AuditTrail.Config.Expansion
import AuditTrail.Proofs.Text.Utf8
import Mathlib.Data.List.TakeWhile

/-!
# Which references are expanded

The scanner of references agrees with their grammar. What a reference looks like is `Reference.Written`, what it stands for in an
environment of octets `Reference.StandsFor`. A text expands (`Expands`) by its first reference, what comes before it, and what comes
after it: so the references that are replaced are the leftmost ones that do not overlap, and all other text stays. There is just one
way in which a text expands, and `expand` finds it.
-/

namespace AuditTrail.Config

/-- The environment as a system holds it, in octets. What is not valid Unicode counts as not set. -/
def Environment.ofOctets (octets : String → Option Octets) : Environment := fun name => (octets name).bind Utf8.decode?

namespace Reference

/-- A letter of ASCII. -/
def IsLetter (c : Char) : Prop := 'a' ≤ c ∧ c ≤ 'z' ∨ 'A' ≤ c ∧ c ≤ 'Z'

/-- A digit of ASCII. -/
def IsDigit (c : Char) : Prop := '0' ≤ c ∧ c ≤ '9'

/-- A letter or an underscore, and then letters, digits and underscores. -/
inductive IsName : List Char → Prop where
  | cons {c : Char} {cs : List Char} (hc : IsLetter c ∨ c = '_') (hcs : ∀ d ∈ cs, IsLetter d ∨ IsDigit d ∨ d = '_') :
      IsName (c :: cs)

/-- What a reference looks like. A default holds any characters but the closing brace. -/
inductive Written : Reference → List Char → Prop where
  | bare {name : List Char} (hname : IsName name) : Written ⟨.ofList name, none⟩ ('$' :: '\x7b' :: (name ++ ['\x7d']))
  | defaulted {name default : List Char} (hname : IsName name) (hdefault : '\x7d' ∉ default) :
      Written ⟨.ofList name, some (.ofList default)⟩ ('$' :: '\x7b' :: (name ++ ':' :: '-' :: (default ++ ['\x7d'])))

/-- What a reference stands for: the value of its variable if that is set, even to nothing; else its default, if it has one. -/
inductive StandsFor (octets : String → Option Octets) (r : Reference) : List Char → Prop where
  | value {o : Octets} {v : String} (ho : octets r.name = some o) (hv : Utf8.decode? o = some v) : StandsFor octets r v.toList
  | default {d : String} (hunset : ∀ o, octets r.name = some o → Utf8.decode? o = none) (hd : r.default = some d) :
      StandsFor octets r d.toList
  | nothing (hunset : ∀ o, octets r.name = some o → Utf8.decode? o = none) (hd : r.default = none) : StandsFor octets r []

/-- A reference starts at a place of a text. -/
def StartsAt (text : List Char) (i : Nat) : Prop := ∃ r written, Written r written ∧ written <+: text.drop i

end Reference

/-- How a text expands in an environment. -/
inductive Expands (octets : String → Option Octets) : List Char → List Char → Prop where
  /-- A text without references stays as it is. -/
  | plain {text : List Char} (h : ∀ i, ¬ Reference.StartsAt text i) : Expands octets text text
  /-- What precedes the first reference stays, the reference is replaced, and the text after it expands. -/
  | reference {before written after value expanded : List Char} {r : Reference} (hwritten : r.Written written)
      (hfirst : ∀ i < before.length, ¬ Reference.StartsAt (before ++ written ++ after) i) (hvalue : r.StandsFor octets value)
      (hafter : Expands octets after expanded) : Expands octets (before ++ written ++ after) (before ++ value ++ expanded)

namespace Reference

/-! ## Reading a reference -/

theorem isAlpha_iff {c : Char} : c.isAlpha = true ↔ IsLetter c := by
  have hupper : c.isUpper = true ↔ 'A' ≤ c ∧ c ≤ 'Z' := decide_eq_true_iff
  have hlower : c.isLower = true ↔ 'a' ≤ c ∧ c ≤ 'z' :=
    Bool.and_eq_true_iff.trans (and_congr decide_eq_true_iff decide_eq_true_iff)
  rw [IsLetter, or_comm, ← hupper, ← hlower]
  exact Bool.or_eq_true_iff

theorem isDigit_iff {c : Char} : c.isDigit = true ↔ IsDigit c := by
  simp [IsDigit, Char.isDigit, Char.le_def]

theorem isNameStart_iff {c : Char} : isNameStart c = true ↔ IsLetter c ∨ c = '_' := by
  rw [isNameStart, Bool.or_eq_true, decide_eq_true_eq, isAlpha_iff]

theorem isNameChar_iff {c : Char} : isNameChar c = true ↔ IsLetter c ∨ IsDigit c ∨ c = '_' := by
  rw [isNameChar, Bool.or_eq_true, decide_eq_true_eq, Char.isAlphanum, Bool.or_eq_true, isAlpha_iff, isDigit_iff, or_assoc]

/-- A name is read as far as it goes. -/
theorem readName_append {name : List Char} (h : IsName name) {c : Char} (hc : isNameChar c = false) (rest : List Char) :
    readName (name ++ c :: rest) = some (.ofList name, c :: rest) := by
  obtain @⟨d, ds, hd, hds⟩ := h
  have hall : ∀ e ∈ ds, isNameChar e = true := fun e he => isNameChar_iff.2 (hds e he)
  rw [List.cons_append, readName, if_pos (isNameStart_iff.2 hd), List.takeWhile_append_of_pos hall,
    List.dropWhile_append_of_pos hall, List.takeWhile_cons_of_neg (by simp [hc]), List.dropWhile_cons_of_neg (by simp [hc]),
    List.append_nil]

/-- What is read as a name is one. -/
theorem exists_name_of_readName {cs rest : List Char} {s : String} (h : readName cs = some (s, rest)) :
    ∃ name, IsName name ∧ s = .ofList name ∧ cs = name ++ rest := by
  cases cs with
  | nil => cases h
  | cons c cs =>
    rw [readName] at h
    split at h
    · rename_i hc
      obtain ⟨rfl, rfl⟩ := Prod.mk.inj (Option.some.inj h)
      refine ⟨c :: cs.takeWhile isNameChar, ⟨isNameStart_iff.1 hc, fun d hd => ?_⟩, rfl, ?_⟩
      · exact isNameChar_iff.1 (List.mem_takeWhile_imp hd)
      · rw [List.cons_append, List.takeWhile_append_dropWhile]
    · cases h

/-- A reference is read whatever follows it. -/
theorem Written.read {r : Reference} {written : List Char} (h : r.Written written) (after : List Char) :
    Reference.read (written ++ after) = some (r, after) := by
  cases h with
  | @bare name hname =>
    simp only [List.cons_append, List.append_assoc, List.nil_append, Reference.read, readName_append hname (c := '\x7d') rfl after,
      Option.bind_eq_bind, Option.bind_some]
  | @defaulted name default hname hdefault =>
    have hall : ∀ c ∈ default, decide (c ≠ '\x7d') = true := fun c hc => decide_eq_true fun h => hdefault (h ▸ hc)
    simp only [List.cons_append, List.append_assoc, List.nil_append, Reference.read, readName_append hname (c := ':') rfl,
      Option.bind_eq_bind, Option.bind_some, List.takeWhile_append_of_pos hall, List.dropWhile_append_of_pos hall]
    simp

/-- A text up to the first of some characters. -/
theorem takeWhile_append_of_dropWhile {c d : Char} {cs after : List Char} (h : cs.dropWhile (· ≠ c) = d :: after) :
    c ∉ cs.takeWhile (· ≠ c) ∧ cs = cs.takeWhile (· ≠ c) ++ c :: after := by
  have hd := List.head?_dropWhile_not (· ≠ c) cs
  rw [h] at hd
  obtain rfl : d = c := by simpa using hd
  refine ⟨fun hmem => ?_, ?_⟩
  · simpa using List.mem_takeWhile_imp hmem
  · rw [← h, List.takeWhile_append_dropWhile]

/-- What is read as a reference is one. -/
theorem exists_written_of_read {cs after : List Char} {r : Reference} (h : Reference.read cs = some (r, after)) :
    ∃ written, r.Written written ∧ cs = written ++ after := by
  unfold Reference.read at h
  split at h
  · obtain ⟨⟨s, rest⟩, hread, hclose⟩ := Option.bind_eq_some_iff.1 h
    obtain ⟨name, hname, rfl, rfl⟩ := exists_name_of_readName hread
    dsimp only at hclose
    split at hclose
    · obtain ⟨rfl, rfl⟩ := Prod.mk.inj (Option.some.inj hclose)
      exact ⟨_, .bare hname, by simp⟩
    · split at hclose
      · rename_i hdrop
        obtain ⟨rfl, rfl⟩ := Prod.mk.inj (Option.some.inj hclose)
        obtain ⟨hdefault, hrest⟩ := takeWhile_append_of_dropWhile hdrop
        refine ⟨_, .defaulted hname hdefault, ?_⟩
        simp only [List.cons_append, List.append_assoc, List.nil_append]
        rw [← hrest]
      · cases hclose
    · cases hclose
  · cases h

/-- No reference is read just if the text starts with none. -/
theorem read_eq_none_iff {cs : List Char} : Reference.read cs = none ↔ ¬ StartsAt cs 0 := by
  rw [Option.eq_none_iff_forall_ne_some]
  constructor
  · rintro h ⟨r, written, hwritten, after, rfl⟩
    exact h _ (hwritten.read after)
  · rintro h ⟨r, after⟩ hread
    obtain ⟨written, hwritten, rfl⟩ := exists_written_of_read hread
    exact h ⟨r, written, hwritten, after, rfl⟩

/-- A variable that counts as not set. -/
theorem ofOctets_eq_none_iff {octets : String → Option Octets} {name : String} :
    Environment.ofOctets octets name = none ↔ ∀ o, octets name = some o → Utf8.decode? o = none :=
  Option.bind_eq_none_iff

/-- A reference stands for one thing only, and that is its value. -/
theorem standsFor_iff {octets : String → Option Octets} {r : Reference} {value : List Char} :
    r.StandsFor octets value ↔ value = (r.value (.ofOctets octets)).toList := by
  constructor
  · intro h
    cases h with
    | value ho hv => rw [Reference.value, Environment.ofOctets, ho, Option.bind_some, hv, Option.getD_some]
    | default hunset hd => rw [Reference.value, ofOctets_eq_none_iff.2 hunset, hd, Option.getD_none, Option.getD_some]
    | nothing hunset hd =>
      rw [Reference.value, ofOctets_eq_none_iff.2 hunset, hd, Option.getD_none, Option.getD_none, String.toList_empty]
  · rintro rfl
    rw [Reference.value]
    cases hv : Environment.ofOctets octets r.name with
    | some v =>
      obtain ⟨o, ho, hv⟩ := Option.bind_eq_some_iff.1 hv
      exact .value ho hv
    | none =>
      have hunset := ofOctets_eq_none_iff.1 hv
      cases hd : r.default with
      | some d => exact .default hunset hd
      | none => exact .nothing hunset hd

end Reference

/-! ## Expanding a text -/

theorem Reference.Written.length_pos {r : Reference} {written : List Char} (h : r.Written written) : 0 < written.length := by
  cases h <;> exact Nat.succ_pos _

/-- More fuel than a text is long changes nothing. -/
theorem Piece.split_congr {cs : List Char} {m n : Nat} (hm : cs.length ≤ m) (hn : cs.length ≤ n) : split m cs = split n cs := by
  induction m generalizing n cs with
  | zero =>
    obtain rfl := List.length_eq_zero_iff.1 (Nat.le_zero.1 hm)
    cases n <;> rfl
  | succ m ih =>
    cases cs with
    | nil => cases n <;> rfl
    | cons c rest =>
      obtain ⟨n, rfl⟩ := Nat.exists_eq_add_of_lt (Nat.lt_of_lt_of_le (Nat.succ_pos _) hn)
      rw [Nat.zero_add, split, split]
      cases hread : Reference.read (c :: rest) with
      | none => exact congrArg _ (ih (Nat.le_of_succ_le_succ hm) (by simpa using hn))
      | some p =>
        obtain ⟨written, hwritten, heq⟩ := Reference.exists_written_of_read hread
        have hpos := hwritten.length_pos
        have hlength := congrArg List.length heq
        rw [List.length_append] at hlength
        exact congrArg _ (ih (by omega) (by omega))

/-- What characters expand to. -/
def expansion (env : Environment) (cs : List Char) : List Char := (Piece.split cs.length cs).flatMap (Piece.value env)

theorem toList_expand (env : Environment) (s : String) : (expand env s).toList = expansion env s.toList := by
  rw [expand, String.toList_ofList, pieces, expansion]

section

variable {env : Environment} {octets : String → Option Octets}

theorem expansion_cons {c : Char} {cs : List Char} (h : ¬ Reference.StartsAt (c :: cs) 0) :
    expansion env (c :: cs) = c :: expansion env cs := by
  rw [expansion, List.length_cons, Piece.split, Reference.read_eq_none_iff.2 h]
  rfl

theorem expansion_plain {text : List Char} (h : ∀ i, ¬ Reference.StartsAt text i) : expansion env text = text := by
  induction text with
  | nil => rfl
  | cons c text ih => rw [expansion_cons (h 0), ih fun i => h (i + 1)]

theorem expansion_written {r : Reference} {written : List Char} (h : r.Written written) (after : List Char) :
    expansion env (written ++ after) = (r.value env).toList ++ expansion env after := by
  have hread := h.read after
  have hpos := h.length_pos
  cases written with
  | nil => cases hpos
  | cons c written =>
    rw [List.cons_append] at hread
    rw [List.cons_append, expansion, List.length_cons, Piece.split, hread]
    dsimp only
    rw [List.flatMap_cons, @Piece.split_congr after _ after.length (by simp) (Nat.le_refl _)]
    rfl

/-- A text expands in one way only. -/
theorem Expands.eq_expansion {text out : List Char} (h : Expands octets text out) : out = expansion (.ofOctets octets) text := by
  induction h with
  | plain h => exact (expansion_plain h).symm
  | @reference before written after value expanded r hwritten hfirst hvalue _ ih =>
    obtain rfl := Reference.standsFor_iff.1 hvalue
    induction before with
    | nil => rw [List.nil_append, List.nil_append, expansion_written hwritten, ih]
    | cons c before ih' =>
      simp only [List.cons_append] at hfirst ⊢
      rw [expansion_cons (hfirst 0 (Nat.succ_pos _)), ← ih' fun i hi => hfirst (i + 1) (Nat.succ_lt_succ hi)]

/-- A character where no reference starts stays before what follows it. -/
theorem Expands.cons {c : Char} {text out : List Char} (h : Expands octets text out) (hc : ¬ Reference.StartsAt (c :: text) 0) :
    Expands octets (c :: text) (c :: out) := by
  cases h with
  | plain h =>
    refine .plain fun i => ?_
    cases i with
    | zero => exact hc
    | succ i => exact h i
  | @reference before written after value expanded r hwritten hfirst hvalue hafter =>
    refine @Expands.reference octets (c :: before) _ _ _ _ _ hwritten (fun i hi => ?_) hvalue hafter
    cases i with
    | zero => exact hc
    | succ i => exact hfirst i (Nat.lt_of_succ_lt_succ hi)

theorem not_startsAt_nil (i : Nat) : ¬ Reference.StartsAt [] i := by
  rintro ⟨r, written, hwritten, hfront⟩
  rw [List.drop_nil, List.prefix_nil] at hfront
  exact absurd hwritten.length_pos (by simp [hfront])

/-- Every text expands. The induction is on its length, as a reference takes more than a character. -/
theorem expands_expansion (octets : String → Option Octets) (text : List Char) :
    Expands octets text (expansion (.ofOctets octets) text) := by
  induction hn : text.length using Nat.strongRecOn generalizing text with
  | ind n ih =>
    cases text with
    | nil => exact .plain not_startsAt_nil
    | cons c rest =>
      cases hread : Reference.read (c :: rest) with
      | none =>
        have hc := Reference.read_eq_none_iff.1 hread
        rw [expansion_cons hc]
        exact (ih rest.length (by simp [← hn]) rest rfl).cons hc
      | some p =>
        obtain ⟨written, hwritten, heq⟩ := Reference.exists_written_of_read hread
        have hpos := hwritten.length_pos
        rw [heq, List.length_append] at hn
        rw [heq, expansion_written hwritten]
        exact @Expands.reference octets [] _ _ _ _ _ hwritten nofun (Reference.standsFor_iff.2 rfl)
          (ih p.2.length (by omega) p.2 rfl)

end

/-- Every text expands in just one way, which is what `expand` returns: from left to right every reference is replaced by the value
of its variable, even an empty one, by its default if the variable is not set, and else by nothing; and all that is not part of a
reference stays as it is. -/
theorem expands_iff (octets : String → Option Octets) (s : String) (out : List Char) :
    Expands octets s.toList out ↔ out = (expand (.ofOctets octets) s).toList := by
  rw [toList_expand]
  refine ⟨Expands.eq_expansion, ?_⟩
  rintro rfl
  exact expands_expansion octets s.toList

/-- A default goes up to the first closing brace, and neither it nor a value is looked at again. -/
example : expand (.ofOctets fun n => if n = "A" then some (Utf8.encode "$\x7bB\x7d") else if n = "B" then some [0xff] else none)
    "$$\x7bA\x7d $\x7bB:-x$\x7bA\x7d\x7d $\x7b1\x7d $\x7bA:x\x7d $\x7bA" =
    "$$\x7bB\x7d x$\x7bA\x7d $\x7b1\x7d $\x7bA:x\x7d $\x7bA" := by decide

end AuditTrail.Config
