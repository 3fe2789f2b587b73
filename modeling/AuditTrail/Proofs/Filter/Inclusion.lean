import AuditTrail.Filter
import AuditTrail.Proofs.Filter.Glob

/-!
# Which tables a filter includes

A table is included as its patterns mean it (`includesTable_iff`). The meaning of a pattern can also be had from a regular expression:
the pattern is escaped as a whole, then every escaped star is replaced by `.*` and every escaped question mark by `.`, and anchors
are put around. The replacing goes by the text alone, and still never takes half of one escape for another, also after other
backslashes, because a character that is replaced always carries a backslash of its own (`replaceEscape_flatMap`). The expression then
finds exactly what the pattern matches (`finds_ofGlob`).
-/

namespace AuditTrail

namespace Expression

/-- A piece of a regular expression. -/
inductive Atom where
  /-- The beginning of the text. -/
  | start
  /-- The end of the text. -/
  | finish
  | char (c : Char)
  /-- Any character but a line feed. -/
  | any
  /-- Any run of characters without a line feed. -/
  | run
  deriving DecidableEq, Repr

/-- The characters that mean something by themselves in the expressions that are read here. -/
def signs : List Char := ['\\', '.', '*', '?', '^', '$']

/-- Reads an expression of anchors, points, points with a star, and characters; after a backslash a character is itself. -/
def read : List Char → List Atom
  | [] => []
  | '^' :: rest => .start :: read rest
  | '$' :: rest => .finish :: read rest
  | '\\' :: c :: rest => .char c :: read rest
  | '.' :: '*' :: rest => .run :: read rest
  | '.' :: rest => .any :: read rest
  | c :: rest => .char c :: read rest

/-- Pieces of an expression match from some place of a text on; before it there is what comes first. -/
inductive Follows : List Atom → List Char → List Char → Prop where
  | nil {b t : List Char} : Follows [] b t
  | start {as : List Atom} {t : List Char} (h : Follows as [] t) : Follows (.start :: as) [] t
  | finish {as : List Atom} {b : List Char} (h : Follows as b []) : Follows (.finish :: as) b []
  | char {as : List Atom} {b t : List Char} {c : Char} (h : Follows as (b ++ [c]) t) : Follows (.char c :: as) b (c :: t)
  | any {as : List Atom} {b t : List Char} {c : Char} (hc : c ≠ '\n') (h : Follows as (b ++ [c]) t) :
      Follows (.any :: as) b (c :: t)
  | run {as : List Atom} {b run t : List Char} (hr : '\n' ∉ run) (h : Follows as (b ++ run) t) :
      Follows (.run :: as) b (run ++ t)

/-- An expression matches at some place of a text. -/
def Finds (expression text : List Char) : Prop := ∃ b t, text = b ++ t ∧ Follows (read expression) b t

/-- A text with a backslash before every special character. -/
def escape (special : Char → Bool) (s : List Char) : List Char := s.flatMap fun c => if special c then ['\\', c] else [c]

/-- Replaces a backslash with a certain character after it wherever it is met, going once through the text. -/
def replaceEscape (c : Char) (new : List Char) : List Char → List Char
  | [] => []
  | [a] => [a]
  | a :: b :: rest =>
    if a = '\\' ∧ b = c then new ++ replaceEscape c new rest else a :: replaceEscape c new (b :: rest)

/-- A glob pattern as a regular expression. -/
def ofGlob (special : Char → Bool) (pattern : List Char) : List Char :=
  '^' :: replaceEscape '?' ['.'] (replaceEscape '*' ['.', '*'] (escape special pattern)) ++ ['$']

namespace ExpressionAux

variable {special : Char → Bool} {c : Char} {new s : List Char}

/-! ### Replacing escapes -/

/-- Where no escape begins, the text stays. -/
theorem replaceEscape_cons {a : Char} (h : a = '\\' → s.head? ≠ some c) :
    replaceEscape c new (a :: s) = a :: replaceEscape c new s := by
  cases s with
  | nil => rfl
  | cons b s =>
    refine if_neg ?_
    rintro ⟨ha, rfl⟩
    exact h ha rfl

/-- Text without a backslash stays. -/
theorem replaceEscape_append {a : List Char} (h : '\\' ∉ a) : replaceEscape c new (a ++ s) = a ++ replaceEscape c new s := by
  induction a with
  | nil => rfl
  | cons x a ih =>
    obtain ⟨hx, ha⟩ := not_or.1 (mt List.mem_cons.2 h)
    rw [List.cons_append, replaceEscape_cons fun hx' => absurd hx'.symm hx, ih ha, List.cons_append]

/-- In a text made of one piece for each character, where the pieces are escapes or have no backslash, and none begins with the
character in question, just the pieces of that character are replaced. -/
theorem replaceEscape_flatMap {f : Char → List Char} (hself : f c = ['\\', c])
    (hpieces : ∀ x, f x = ['\\', x] ∨ '\\' ∉ f x) (hhead : ∀ x, ∃ a rest, f x = a :: rest ∧ a ≠ c) :
    replaceEscape c new (s.flatMap f) = s.flatMap fun x => if x = c then new else f x := by
  have hrest : ∀ s : List Char, (s.flatMap f).head? ≠ some c := by
    intro s
    cases s with
    | nil => simp
    | cons x s =>
      obtain ⟨a, rest, hx, ha⟩ := hhead x
      rw [List.flatMap_cons, hx, List.cons_append, List.head?_cons]
      exact fun h => ha (Option.some.inj h)
  induction s with
  | nil => rfl
  | cons x s ih =>
    rw [List.flatMap_cons, List.flatMap_cons, ← ih]
    by_cases hxc : x = c
    · subst hxc
      rw [if_pos rfl, hself]
      exact if_pos ⟨rfl, rfl⟩
    · rw [if_neg hxc]
      rcases hpieces x with hx | hx
      · -- the escape of another character; if that is a backslash, no escape begins with it
        rw [hx, List.cons_append, List.singleton_append, replaceEscape_cons, replaceEscape_cons]
        · rfl
        · exact fun _ => hrest s
        · intro _ h
          exact hxc (Option.some.inj h)
      · exact replaceEscape_append hx

/-- What stands for a character of a pattern. -/
def piece (special : Char → Bool) (c : Char) : List Char :=
  if c = '?' then ['.'] else if c = '*' then ['.', '*'] else if special c then ['\\', c] else [c]

/-- A pattern becomes one piece after the other, between anchors. -/
theorem ofGlob_eq (hs : ∀ c ∈ signs, special c = true) (pattern : List Char) :
    ofGlob special pattern = '^' :: pattern.flatMap (piece special) ++ ['$'] := by
  have hback : special '\\' = true := hs _ (by decide)
  have hstar : special '*' = true := hs _ (by decide)
  have hone : special '?' = true := hs _ (by decide)
  have hplain : ∀ x, special x = false → x ≠ '\\' ∧ x ≠ '*' ∧ x ≠ '?' := by
    intro x hx
    refine ⟨?_, ?_, ?_⟩ <;> rintro rfl
    · exact absurd hx (by simp [hback])
    · exact absurd hx (by simp [hstar])
    · exact absurd hx (by simp [hone])
  rw [ofGlob, escape, replaceEscape_flatMap (by simp [hstar]), replaceEscape_flatMap (by simp [hone])]
  · rfl
  · intro x
    by_cases hx : x = '*'
    · simp [hx]
    · cases hsp : special x with
      | true => simp [hx]
      | false => exact Or.inr (by simp [hx, (hplain x hsp).1.symm])
  · intro x
    by_cases hx : x = '*'
    · exact ⟨'.', ['*'], by simp [hx], by decide⟩
    · cases hsp : special x with
      | true => exact ⟨'\\', [x], by simp [hx], by decide⟩
      | false => exact ⟨x, [], by simp [hx], (hplain x hsp).2.2⟩
  · intro x
    cases hsp : special x with
    | true => exact Or.inl (by simp)
    | false => exact Or.inr (by simp [(hplain x hsp).1.symm])
  · intro x
    cases hsp : special x with
    | true => exact ⟨'\\', [x], by simp, by decide⟩
    | false => exact ⟨x, [], by simp, (hplain x hsp).2.1⟩

/-! ### Reading the expression -/

/-- What a character of a pattern is read as. -/
def atom (c : Char) : Atom := if c = '?' then .any else if c = '*' then .run else .char c

/-- A character that is not a sign is read as itself. -/
theorem read_plain (hc : c ∉ signs) : read (c :: s) = .char c :: read s := by
  simp only [signs, List.mem_cons, List.not_mem_nil, or_false, not_or] at hc
  obtain ⟨hback, hpoint, -, -, hstart, hfinish⟩ := hc
  rw [read.eq_7] <;> simp_all

/-- A point without a star after it is read as any character. -/
theorem read_point (h : s.head? ≠ some '*') : read ('.' :: s) = .any :: read s := by
  cases s with
  | nil => rfl
  | cons b s =>
    have hb : b ≠ '*' := fun hb => h (congrArg some hb)
    rw [read.eq_6]
    rintro rest ⟨⟩
    exact hb rfl

/-- No piece begins with a star. -/
theorem head_pieces (s : List Char) : (s.flatMap (piece special) ++ ['$']).head? ≠ some '*' := by
  cases s with
  | nil => simp
  | cons c s =>
    rw [List.flatMap_cons, piece]
    split
    · simp
    · split
      · simp
      · rename_i hstar
        split
        · simp
        · simpa using hstar

/-- What stands for a character is read as that, whatever pieces come after it. -/
theorem read_piece (hs : ∀ c ∈ signs, special c = true) (h : s.head? ≠ some '*') :
    read (piece special c ++ s) = atom c :: read s := by
  unfold piece atom
  split
  · exact read_point h
  · split
    · rfl
    · split
      · rfl
      · rename_i hsp
        exact read_plain fun hc => hsp (hs c hc)

/-- The expression of a pattern is read as one atom for each character, between anchors. -/
theorem read_ofGlob (hs : ∀ c ∈ signs, special c = true) (pattern : List Char) :
    read (ofGlob special pattern) = .start :: (pattern.map atom ++ [.finish]) := by
  have hread : read (pattern.flatMap (piece special) ++ ['$']) = pattern.map atom ++ [.finish] := by
    induction pattern with
    | nil => rfl
    | cons c pattern ih =>
      rw [List.flatMap_cons, List.append_assoc, read_piece hs (head_pieces pattern), ih]
      rfl
  rw [ofGlob_eq hs, List.cons_append, ← hread]
  rfl

/-! ### Matching -/

/-- The atoms of a pattern, up to the end of the text, match what the pattern matches. -/
theorem follows_atoms {pattern b t : List Char} :
    Follows (pattern.map atom ++ [.finish]) b t ↔ Glob.Matches pattern t := by
  induction pattern generalizing b t with
  | nil =>
    constructor
    · intro h
      cases h
      exact .nil
    · intro h
      cases h
      exact .finish .nil
  | cons p pattern ih =>
    rw [List.map_cons, List.cons_append]
    by_cases hstar : p = '*'
    · subst hstar
      rw [Glob.matches_star]
      constructor
      · intro h
        cases h with
        | run hr h => exact ⟨_, _, rfl, hr, ih.1 h⟩
      · rintro ⟨run, rest, rfl, hr, h⟩
        exact .run hr (ih.2 h)
    · by_cases hone : p = '?'
      · subst hone
        constructor
        · intro h
          cases h with
          | any hc h => exact .one hc (ih.1 h)
        · intro h
          cases h with
          | one hc h => exact .any hc (ih.2 h)
          | self hs hq h => exact absurd rfl hq
      · rw [atom, if_neg hone, if_neg hstar]
        constructor
        · intro h
          cases h with
          | char h => exact .self hstar hone (ih.1 h)
        · intro h
          cases h with
          | star hr h => exact absurd rfl hstar
          | one hc h => exact absurd rfl hone
          | self hs hq h => exact .char (ih.2 h)

end ExpressionAux

open ExpressionAux

/-- The expression of a pattern finds what the pattern matches, whatever other characters are escaped besides the signs. -/
theorem finds_ofGlob {special : Char → Bool} (hs : ∀ c ∈ signs, special c = true) (pattern text : List Char) :
    Finds (ofGlob special pattern) text ↔ Glob.Matches pattern text := by
  unfold Finds
  rw [read_ofGlob hs]
  constructor
  · rintro ⟨b, t, rfl, h⟩
    cases h with
    | start h => exact follows_atoms.1 h
  · intro h
    exact ⟨[], text, rfl, .start (follows_atoms.2 h)⟩

end Expression

/-- A pattern matches the qualified or the bare name of a table. -/
def Glob.Names (pattern database table : String) : Prop :=
  Matches pattern.toList (database ++ "." ++ table).toList ∨ Matches pattern.toList table.toList

instance (pattern database table : String) : Decidable (Glob.Names pattern database table) :=
  inferInstanceAs (Decidable (_ ∨ _))

/-- The filter asks of a table whether a pattern matches one of its names. -/
theorem Filter.matchesTable_iff (database table pattern : String) :
    matchesTable database table pattern = true ↔ Glob.Names pattern database table := by
  rw [matchesTable, Bool.or_eq_true, Glob.isMatch_iff, Glob.isMatch_iff]
  rfl

/-- A filter includes a table exactly if no excluding pattern matches one of its names and either some including pattern does or there
is none. A pattern matches whole texts: a star stands for any run of characters without a line feed, a question mark for one character
that is no line feed, and every other character for itself. Escaped as a whole and with the escapes of stars and question marks
replaced, every pattern becomes a regular expression that finds the same texts. -/
theorem includesTable_iff (c : FilterConfig) (database table : String) :
    ((Filter.ofConfig c).includesTable database table = true ↔
      (∀ p ∈ c.excludeTables, ¬Glob.Names p database table) ∧
        (c.includeTables = [] ∨ ∃ p ∈ c.includeTables, Glob.Names p database table)) ∧
    ∀ special : Char → Bool, (∀ c ∈ Expression.signs, special c = true) → ∀ pattern text : String,
      (Glob.isMatch pattern text = true ↔ Glob.Matches pattern.toList text.toList) ∧
        (Expression.Finds (Expression.ofGlob special pattern.toList) text.toList ↔
          Glob.Matches pattern.toList text.toList) := by
  constructor
  · simp [Filter.includesTable, Filter.ofConfig, Filter.matchesTable_iff]
  · intro special hs pattern text
    exact ⟨Glob.isMatch_iff pattern text, Expression.finds_ofGlob hs _ _⟩

/-- A pattern with a backslash before a star includes a table whose name has a backslash; an exclusion counts more. -/
theorem includesTable_iff_backslash :
    let f := Filter.ofConfig ⟨["shop.*", "a\\*"], ["*.sessions"], []⟩
    let metas : List Char :=
      ['\\', '.', '+', '*', '?', '(', ')', '|', '[', ']', '{', '}', '^', '$', '#', '&', '-', '~']
    (∀ c ∈ Expression.signs, metas.contains c = true) ∧
      f.includesTable "x" "a\\b" = true ∧ f.includesTable "shop" "sessions" = false ∧
      Expression.Finds (Expression.ofGlob metas.contains "a\\*".toList) "a\\b".toList := by
  intro f metas
  have hs : ∀ c ∈ Expression.signs, metas.contains c = true :=
    List.all_eq_true.1 (by decide : Expression.signs.all metas.contains = true)
  obtain ⟨hincludes, -⟩ := includesTable_iff ⟨["shop.*", "a\\*"], ["*.sessions"], []⟩ "x" "a\\b"
  obtain ⟨hexcludes, hfinds⟩ := includesTable_iff ⟨["shop.*", "a\\*"], ["*.sessions"], []⟩ "shop" "sessions"
  obtain ⟨-, hfound⟩ := hfinds metas.contains hs "a\\*" "a\\b"
  refine ⟨hs, hincludes.2 ?_, ?_, hfound.2 (by decide)⟩
  · exact ⟨by decide, Or.inr ⟨"a\\*", by simp, by decide⟩⟩
  · refine Bool.eq_false_iff.2 fun h => ?_
    exact (hexcludes.1 h).1 "*.sessions" (by simp) (by decide)

end AuditTrail
