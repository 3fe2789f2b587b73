import AuditTrail.Filter.Glob
import Mathlib.Data.List.Basic

/-!
# What a glob pattern matches

`Glob.Matches` says what a pattern means, one character of the pattern after the other. The rows that the matcher goes through hold
for every suffix of the pattern whether it matches (`tail_row`), and each follows from the one before as the meaning of the pattern
does, so that the matcher answers just that (`isMatch_iff`).
-/

namespace AuditTrail

namespace Glob

/-- A pattern matches a whole text. -/
inductive Matches : List Char → List Char → Prop where
  | nil : Matches [] []
  /-- A star stands for a run of characters, none of them a line feed. -/
  | star {ps run t : List Char} (hr : '\n' ∉ run) (h : Matches ps t) : Matches ('*' :: ps) (run ++ t)
  /-- A question mark stands for one character, no line feed. -/
  | one {ps t : List Char} {c : Char} (hc : c ≠ '\n') (h : Matches ps t) : Matches ('?' :: ps) (c :: t)
  /-- Every other character stands for itself. -/
  | self {ps t : List Char} {p : Char} (hs : p ≠ '*') (hq : p ≠ '?') (h : Matches ps t) : Matches (p :: ps) (p :: t)

variable {ps t : List Char} {p c : Char}

/-! ## The meaning of a pattern by its first character -/

/-- The empty pattern matches the empty text alone. -/
theorem matches_nil : Matches [] t ↔ t = [] := by
  constructor
  · intro h
    cases h
    rfl
  · rintro rfl
    exact .nil

/-- A star matches a run and leaves the rest to the rest of the pattern. -/
theorem matches_star : Matches ('*' :: ps) t ↔ ∃ run rest, t = run ++ rest ∧ '\n' ∉ run ∧ Matches ps rest := by
  constructor
  · intro h
    cases h with
    | star hr h => exact ⟨_, _, rfl, hr, h⟩
    | self hs hq h => exact absurd rfl hs
  · rintro ⟨run, rest, rfl, hr, h⟩
    exact .star hr h

/-- A character that is no star matches one character and leaves the rest to the rest of the pattern. -/
theorem matches_cons (hp : p ≠ '*') :
    Matches (p :: ps) t ↔ ∃ c rest, t = c :: rest ∧ matchesOne p c = true ∧ Matches ps rest := by
  constructor
  · intro h
    cases h with
    | star hr h => exact absurd rfl hp
    | one hc h => exact ⟨_, _, rfl, by simpa [matchesOne] using hc, h⟩
    | self hs hq h => exact ⟨_, _, rfl, by simp [matchesOne, hq], h⟩
  · rintro ⟨c, rest, rfl, hc, h⟩
    by_cases hq : p = '?'
    · subst hq
      exact .one (by simpa [matchesOne] using hc) h
    · obtain rfl : p = c := by simpa [matchesOne, hq] using hc
      exact .self hp hq h

/-- Before the end of a text a star stands for nothing. -/
theorem matches_star_nil : Matches ('*' :: ps) [] ↔ Matches ps [] := by
  rw [matches_star]
  constructor
  · rintro ⟨run, rest, ht, -, h⟩
    obtain ⟨-, rfl⟩ := List.append_eq_nil_iff.1 ht.symm
    exact h
  · intro h
    exact ⟨[], [], rfl, List.not_mem_nil, h⟩

/-- A star stands for nothing, or for a character and what a star stands for. -/
theorem matches_star_cons :
    Matches ('*' :: ps) (c :: t) ↔ Matches ps (c :: t) ∨ c ≠ '\n' ∧ Matches ('*' :: ps) t := by
  constructor
  · intro h
    obtain ⟨run, rest, ht, hr, hrest⟩ := matches_star.1 h
    cases run with
    | nil => exact Or.inl (ht ▸ hrest)
    | cons d run =>
      obtain ⟨rfl, rfl⟩ := List.cons.inj ht
      obtain ⟨hd, hrun⟩ := not_or.1 (mt List.mem_cons.2 hr)
      exact Or.inr ⟨Ne.symm hd, .star hrun hrest⟩
  · rintro (h | ⟨hc, h⟩)
    · exact matches_star.2 ⟨[], c :: t, rfl, List.not_mem_nil, h⟩
    · obtain ⟨run, rest, rfl, hr, h⟩ := matches_star.1 h
      exact matches_star.2 ⟨c :: run, rest, rfl, by simp [hc.symm, hr], h⟩

/-! ## The matcher -/

namespace RowAux

/-- The row of a pattern without its first entry is that of the pattern without its first character. -/
theorem tail_row (p : Char) (ps t : List Char) : (row (p :: ps) t).tail = row ps t := by
  induction t with
  | nil => rfl
  | cons c t ih =>
    rw [row, stepRow, List.tail_cons, ih]
    rfl

/-- Whether a pattern matches, read off the head of its row. -/
def head (ps t : List Char) : Bool := (row ps t).headD false

/-- A star goes on without a character, or takes one more. -/
theorem head_star (ps : List Char) (c : Char) (t : List Char) :
    head ('*' :: ps) (c :: t) = (head ps (c :: t) || (decide (c ≠ '\n') && head ('*' :: ps) t)) := by
  have hrow : row ps (c :: t) = stepRow c ps (row ps t) := rfl
  rw [head, row, stepRow, tail_row, if_pos rfl, ← hrow]
  rfl

/-- Any other character takes one. -/
theorem head_cons (hp : p ≠ '*') (ps : List Char) (c : Char) (t : List Char) :
    head (p :: ps) (c :: t) = (matchesOne p c && head ps t) := by
  rw [head, row, stepRow, tail_row, if_neg hp]
  rfl

/-- The matcher answers what the pattern means. -/
theorem head_iff (ps t : List Char) : head ps t = true ↔ Matches ps t := by
  induction ps generalizing t with
  | nil =>
    cases t with
    | nil => exact ⟨fun _ => .nil, fun _ => rfl⟩
    | cons c t => exact ⟨nofun, fun h => absurd (matches_nil.1 h) (by simp)⟩
  | cons p ps ih =>
    have hnil : head (p :: ps) [] = (p == '*' && head ps []) := rfl
    by_cases hp : p = '*'
    · subst hp
      -- a star takes one character after the other
      induction t with
      | nil => rw [matches_star_nil, ← ih, hnil, beq_self_eq_true, Bool.true_and]
      | cons c t iht => simp [head_star, matches_star_cons, ih, iht]
    · cases t with
      | nil => simp [hnil, hp, matches_cons hp]
      | cons c t => simp [head_cons hp, matches_cons hp, ih]

end RowAux

instance (ps t : List Char) : Decidable (Matches ps t) := decidable_of_iff _ (RowAux.head_iff ps t)

/-- The matcher answers whether the pattern matches the text. -/
theorem isMatch_iff (pattern text : String) : isMatch pattern text = true ↔ Matches pattern.toList text.toList :=
  RowAux.head_iff _ _

/-- A line feed ends what a star stands for. -/
example : Matches "shop.*".toList "shop.a.b".toList ∧ ¬Matches "shop.*".toList "shop.a\nb".toList := by decide

end Glob

end AuditTrail
