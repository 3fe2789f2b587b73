import AuditTrail.Cli
import AuditTrail.Proofs.CursorHistory
import Mathlib.Data.List.Induction

/-!
# Cursors set by command

What the program says and does when cursors are set by hand, one command after the other, and are listed. A step of this is one
command on a disk on which the cursor file can be opened, which leaves such a disk (`Opens.run_sets`).

The key of a negative partition is also the key of a positive one. So what is told and replaced is not always the offset of the very
partition that is named, but that of all partitions that are filed in the same place.
-/

namespace AuditTrail.Cli

/-! ## The disk -/

namespace Disk

variable {d : Disk} {p q : Path} {c : Content}

/-- The file that is written is found, and every other one as before. -/
theorem file?_write (d : Disk) (p q : Path) (c : Content) :
    (d.write p c).file? q = if p.fromRoot = q.fromRoot ∧ p.names = q.names then some c else d.file? q := by
  induction d with
  | nil =>
    by_cases h : p.fromRoot = q.fromRoot ∧ p.names = q.names <;> simp_all [write, file?]
  | cons e rest ih =>
    rw [write]
    by_cases he : e.1.fromRoot = p.fromRoot ∧ e.1.names = p.names
    · rw [if_pos he]
      by_cases h : p.fromRoot = q.fromRoot ∧ p.names = q.names <;> simp_all [file?]
    · rw [if_neg he]
      simp only [file?, List.find?_cons] at ih ⊢
      split
      · rename_i hq
        simp only [Bool.and_eq_true, beq_iff_eq] at hq
        rw [if_neg fun h => he ⟨hq.1.trans h.1.symm, hq.2.trans h.2.symm⟩]
      · exact ih

/-- What a path says about being a directory does not matter for the file that it finds. -/
theorem file?_same (h : p.fromRoot = q.fromRoot ∧ p.names = q.names) : d.file? q = d.file? p := by
  rw [file?, file?, h.1, h.2]

/-- Writing to a file that is there adds no path. -/
theorem paths_write (h : (d.file? p).isSome) : (d.write p c).map Prod.fst = d.map Prod.fst := by
  induction d with
  | nil => simp [file?] at h
  | cons e rest ih =>
    rw [write]
    by_cases he : e.1.fromRoot = p.fromRoot ∧ e.1.names = p.names
    · rw [if_pos he]
      rfl
    · have hrest : (file? rest p).isSome := by simpa [file?, List.find?_cons, he] using h
      rw [if_neg he, List.map_cons, List.map_cons, ih hrest]

variable {d' : Disk}

theorem hasDirectory_congr (h : d'.map Prod.fst = d.map Prod.fst) (p : Path) : d'.hasDirectory p = d.hasDirectory p := by
  have hany (d : Disk) : d.hasDirectory p = (p.names.isEmpty ||
      (d.map Prod.fst).any fun l => l.fromRoot == p.fromRoot && p.names.isPrefixOf l.names && l.names != p.names) := by
    rw [hasDirectory, List.any_map]
    rfl
  rw [hany, hany, h]

theorem isBlocked_congr (h : d'.map Prod.fst = d.map Prod.fst) (p : Path) : d'.isBlocked p = d.isBlocked p := by
  have hany (d : Disk) : d.isBlocked p = (d.map Prod.fst).any fun l =>
      l.fromRoot == p.fromRoot && l.names.isPrefixOf p.names && (l.names != p.names || p.isDirectory) := by
    rw [isBlocked, List.any_map]
    rfl
  rw [hany, hany, h]

/-- A disk with a cursor file that can be opened. -/
structure HasCursors (d : Disk) (path : String) (f : CursorFile) : Prop where
  above : d.makeDirectory (Path.parent path) = .ok ()
  named : path.isEmpty = false
  reached : d.isBlocked (Path.ofString path) = false
  held : d.file? (Path.ofString path) = some (.cursors f)

/-- A cursor file that can be opened is opened and leaves the disk as it is. -/
theorem HasCursors.opened {path : String} {f : CursorFile} (h : d.HasCursors path f) :
    d.openCursors path = .ok (d, f) := by
  simp only [openCursors, h.above, h.named, h.reached, h.held]
  rfl

/-- Where opening leaves the disk as it is, the cursor file is there. -/
theorem hasCursors_of_opened {path : String} {f : CursorFile} (h : d.openCursors path = .ok (d, f)) :
    d.HasCursors path f := by
  have hwritten (hd : d.write (Path.ofString path) (.cursors []) = d) :
      d.file? (Path.ofString path) = some (.cursors []) := by
    have hfile := file?_write d (Path.ofString path) (Path.ofString path) (.cursors [])
    rwa [hd, if_pos ⟨rfl, rfl⟩] at hfile
  rw [openCursors] at h
  cases habove : d.makeDirectory (Path.parent path) with
  | error e =>
    rw [habove] at h
    cases h
  | ok u =>
    simp only [habove, Except.mapError, bind, Except.bind] at h
    split at h
    · cases h
    · rename_i hnamed
      split at h
      · cases h
      · rename_i hreached
        split at h
        · rename_i g hheld
          cases h
          exact ⟨habove, by simpa using hnamed, by simpa using hreached, hheld⟩
        · rename_i t hheld
          split at h
          · simp only [Except.ok.injEq, Prod.mk.injEq] at h
            exact absurd (hheld.symm.trans (hwritten h.1)) (by simp)
          · cases h
        · rename_i hheld
          split at h
          · cases h
          · simp only [Except.ok.injEq, Prod.mk.injEq] at h
            exact absurd (hheld.symm.trans (hwritten h.1)) (by simp)

/-- Writing to a file that is there leaves the other files, and where there are any. -/
theorem isSome_file?_write (h : (d.file? p).isSome) (q : Path) : ((d.write p c).file? q).isSome = (d.file? q).isSome := by
  rw [file?_write]
  split
  · rename_i hq
    rw [file?_same hq, h]
    rfl
  · rfl

namespace HasCursors

variable {path : String} {f : CursorFile}

/-- Another cursor file in place of the one that is there can be opened as well. -/
theorem write (h : d.HasCursors path f) (g : CursorFile) :
    (d.write (Path.ofString path) (.cursors g)).HasCursors path g where
  above := by
    have hthere := Option.isSome_of_mem h.held
    have hpaths := paths_write (c := .cursors g) hthere
    rw [makeDirectory, hasDirectory_congr hpaths, isBlocked_congr hpaths, isSome_file?_write hthere]
    exact h.above
  named := h.named
  reached := (isBlocked_congr (paths_write (Option.isSome_of_mem h.held)) _).trans h.reached
  held := by rw [file?_write, if_pos ⟨rfl, rfl⟩]

/-- Texts are read as before when a cursor file takes the place of another. -/
theorem readText (h : d.HasCursors path f) (g : CursorFile) (s : String) :
    (d.write (Path.ofString path) (.cursors g)).readText s = d.readText s := by
  have hpaths := paths_write (c := .cursors g) (Option.isSome_of_mem h.held)
  have habsence (q : Path) : (d.write (Path.ofString path) (.cursors g)).absence q = d.absence q := by
    rw [absence, hasDirectory_congr hpaths, isBlocked_congr hpaths, absence]
  simp only [Disk.readText, isBlocked_congr hpaths, habsence, file?_write]
  by_cases hs : (Path.ofString path).fromRoot = (Path.ofString s).fromRoot ∧ (Path.ofString path).names = (Path.ofString s).names
  · rw [if_pos hs, file?_same hs, h.held]
  · rw [if_neg hs]

end HasCursors

end Disk

/-! ## The commands -/

/-- Arguments with which the program sets a cursor, under the configuration at a path. -/
def Sets (config : String) (args : List String) (x : Cursor) : Prop :=
  0 ≤ x.offset ∧ ∃ verbose, Request.ofArguments args = .ok (.invoke ⟨config, verbose, .setCursor x.topic x.partition x.offset⟩)

/-- Arguments with which the program lists the cursors, under the configuration at a path. -/
def Lists (config : String) (args : List String) : Prop :=
  ∃ verbose, Request.ofArguments args = .ok (.invoke ⟨config, verbose, .listCursors⟩)

/-- A disk on which the program finds its configuration and the cursor file. -/
structure Ready (env : Config.Environment) (config : String) (c : Config) (d : Disk) (f : CursorFile) : Prop where
  loaded : loadConfig env d config = .ok c
  opened : d.openCursors c.cursor.path = .ok (d, f)
  kept : TableKept (f.table c.cursor.ns)

/-- A disk on which the program finds its configuration and can open the cursor file, even if that has to be made first. From then on
both are found. -/
structure Opens (env : Config.Environment) (config : String) (c : Config) (d : Disk) (f : CursorFile) : Prop where
  loaded : loadConfig env d config = .ok c
  opened : ∃ d', d.openCursors c.cursor.path = .ok (d', f) ∧ Ready env config c d' f

/-- A configuration that is loaded has passed its check. -/
theorem check_of_loaded {env : Config.Environment} {d : Disk} {path : String} {c : Config}
    (h : loadConfig env d path = .ok c) : c.check = .ok () := by
  rw [loadConfig] at h
  cases htext : d.readText path with
  | error e =>
    rw [htext] at h
    cases h
  | ok text =>
    simp only [htext, Except.mapError, bind, Except.bind, Config.ofText] at h
    split at h
    · rename_i c' _
      cases hc : c'.check with
      | error e =>
        rw [hc] at h
        cases h
      | ok u =>
        rw [hc] at h
        cases h
        exact hc
    · cases h

/-- The namespace of a configuration that has passed its check is one under which a file may be opened. -/
theorem checkNamespace_of_check {c : Config} (h : c.check = .ok ()) : CursorFile.checkNamespace c.cursor.ns = .ok () := by
  rw [Config.check] at h
  rw [CursorFile.checkNamespace]
  grind

theorem Ready.opens {env : Config.Environment} {config : String} {c : Config} {d : Disk} {f : CursorFile}
    (h : Ready env config c d f) : Opens env config c d f :=
  ⟨h.loaded, d, h.opened, h⟩

/-- A cursor that is set leaves a disk with the cursor file. -/
theorem Ready.put {env : Config.Environment} {config : String} {c : Config} {d : Disk} {f : CursorFile}
    (h : Ready env config c d f) (x : Cursor) :
    Ready env config c
      (d.write (Path.ofString c.cursor.path) (.cursors (f.put c.cursor.ns x.topic x.partition x.offset)))
      (f.put c.cursor.ns x.topic x.partition x.offset) := by
  have hcursors := Disk.hasCursors_of_opened h.opened
  refine ⟨?_, (hcursors.write _).opened, ?_⟩
  · rw [loadConfig, hcursors.readText]
    exact h.loaded
  · rw [CursorFile.table_put]
    exact h.kept.setEntry x.topic x.partition x.offset

namespace Opens

variable {env : Config.Environment} {config : String} {c : Config} {d : Disk} {f : CursorFile} {args : List String}

theorem kept (h : Opens env config c d f) : TableKept (f.table c.cursor.ns) := by
  obtain ⟨d', -, hready⟩ := h.opened
  exact hready.kept

/-- A task with the cursors is done with the cursor file, which is there from then on. -/
theorem withCursors (h : Opens env config c d f) :
    ∃ d', Ready env config c d' f ∧ ∀ task, withCursors d c task = task d' f := by
  obtain ⟨d', hopen, hready⟩ := h.opened
  refine ⟨d', hready, fun task => ?_⟩
  rw [Cli.withCursors, checkNamespace_of_check (check_of_loaded h.loaded)]
  simp only [Except.bind, hopen]

/-- Listing the cursors lists those of the file. -/
theorem run_lists (h : Opens env config c d f) (hargs : Lists config args) :
    (run env d args).1 = .finished (.success (listing c.cursor.ns (f.list c.cursor.ns))) := by
  obtain ⟨verbose, hargs⟩ := hargs
  obtain ⟨d', -, htask⟩ := h.withCursors
  simp only [run, hargs, h.loaded, perform, listCursors, htask]

/-- Setting a cursor tells the change and sets it in the file. -/
theorem run_sets (h : Opens env config c d f) {x : Cursor} (hargs : Sets config args x) :
    (run env d args).1 =
        .finished (.success [change x.topic x.partition (f.get c.cursor.ns x.topic x.partition) x.offset]) ∧
      Opens env config c (run env d args).2 (f.put c.cursor.ns x.topic x.partition x.offset) := by
  obtain ⟨hoffset, verbose, hargs⟩ := hargs
  obtain ⟨d', hready, htask⟩ := h.withCursors
  simp only [run, hargs, h.loaded, perform, putCursor, htask, if_neg (Int.not_lt.2 hoffset)]
  exact ⟨trivial, (hready.put x).opens⟩

end Opens

/-- The disk after the program has been run with one list of arguments after the other. -/
def afterRuns (env : Config.Environment) (d : Disk) (argss : List (List String)) : Disk :=
  argss.foldl (fun d args => (run env d args).2) d

/-- A cursor file after cursors have been set in it one after the other. -/
def putAll (f : CursorFile) (ns : String) (xs : List Cursor) : CursorFile :=
  xs.foldl (fun f x => f.put ns x.topic x.partition x.offset) f

/-- The offset that was last set where a partition is filed. -/
def lastSet (xs : List Cursor) (place : String × Int) : Option Int :=
  (xs.reverse.find? fun x => Cursor.filed x.topic x.partition == place).map (·.offset)

/-- The last cursor counts if it is filed there. -/
theorem lastSet_append (xs : List Cursor) (x : Cursor) (place : String × Int) :
    lastSet (xs ++ [x]) place = if Cursor.filed x.topic x.partition = place then some x.offset else lastSet xs place := by
  rw [lastSet, List.reverse_append, List.reverse_singleton, List.singleton_append, List.find?_cons]
  by_cases hx : Cursor.filed x.topic x.partition = place
  · simp [hx]
  · rw [beq_eq_false_iff_ne.2 hx, if_neg hx]
    rfl

/-- An offset that is read is the one last set in its place or, if none was, the one that was there. -/
theorem get_putAll (f : CursorFile) (ns : String) (xs : List Cursor) (topic : String) (p : Int) :
    (putAll f ns xs).get ns topic p = (lastSet xs (Cursor.filed topic p)).or (f.get ns topic p) := by
  induction xs using List.reverseRecOn with
  | nil => rfl
  | append_singleton xs x ih =>
    have hput : putAll f ns (xs ++ [x]) = (putAll f ns xs).put ns x.topic x.partition x.offset := by
      rw [putAll, List.foldl_append]
      rfl
    rw [hput, CursorFile.get_put_filed, ih, lastSet_append]
    by_cases hx : Cursor.filed x.topic x.partition = Cursor.filed topic p
    · rw [if_pos hx, if_pos hx.symm]
      rfl
    · rw [if_neg hx, if_neg (Ne.symm hx)]

/-- Cursors that are set one after the other are set in the file. -/
theorem Opens.afterRuns {env : Config.Environment} {config : String} {c : Config} {d : Disk} {f : CursorFile}
    (h : Opens env config c d f) {argss : List (List String)} {xs : List Cursor} (hxs : List.Forall₂ (Sets config) argss xs) :
    Opens env config c (afterRuns env d argss) (putAll f c.cursor.ns xs) := by
  induction hxs generalizing d f with
  | nil => exact h
  | cons hx _ ih => exact ih (h.run_sets hx).2

/-! ## What the program accepts -/

/-- Digits are read as the number that they tell. -/
theorem foldl_digits (cs : List Char) (m : Nat) :
    cs.foldl (fun (n : Int) c => n * 10 + (c.toNat - '0'.toNat : Nat)) m = (Nat.ofDigitChars 10 cs m : Int) := by
  induction cs generalizing m with
  | nil => rfl
  | cons c cs ih =>
    rw [List.foldl_cons, Nat.ofDigitChars_cons, ← ih, Nat.mul_comm]
    push_cast
    rfl

/-- A whole number is read as it is written, if it is between the bounds. -/
theorem int?_renderInt {lo hi n : Int} (h : lo ≤ n ∧ n ≤ hi) : int? lo hi (Json.renderInt n) = some n := by
  have digits := Numeral.toDigits n.natAbs
  have hempty : (Nat.toDigits 10 n.natAbs).isEmpty = false := List.isEmpty_eq_false_iff.2 digits.ne_nil
  have hdigits : (Nat.toDigits 10 n.natAbs).all Char.isDigit = true := List.all_eq_true.2 digits.digits
  have hvalue : (Nat.toDigits 10 n.natAbs).foldl (fun (n : Int) c => n * 10 + (c.toNat - '0'.toNat : Nat)) 0 = n.natAbs :=
    (foldl_digits _ 0).trans (congrArg _ digits.value)
  by_cases hn : n < 0
  · have hsign : -(n.natAbs : Int) = n := by omega
    simp only [int?, Numeral.toList_renderInt_of_neg hn, hempty, hdigits, hvalue, Bool.not_true, Bool.or_self,
      Bool.false_eq_true, if_false, Option.map_some, hsign]
    simp [h]
  · have hsign : (n.natAbs : Int) = n := by omega
    have hminus : ∀ cs, Nat.toDigits 10 n.natAbs ≠ '-' :: cs := fun cs hcs =>
      Numeral.hyphen_not_mem_toDigits n.natAbs (hcs ▸ List.mem_cons_self)
    have hplus : ∀ cs, Nat.toDigits 10 n.natAbs ≠ '+' :: cs := fun cs hcs =>
      absurd (digits.digits '+' (hcs ▸ List.mem_cons_self)) (by decide)
    simp only [int?, Numeral.toList_renderInt_of_nonneg (Int.not_lt.1 hn), hempty, hdigits, hvalue, hsign]
    simp [h]

/-- After a double hyphen every topic, every partition of 32 bits and every offset of 63 bits is accepted. -/
theorem sets_escaped (topic : String) {p n : Int} (hp : -0x80000000 ≤ p ∧ p ≤ 0x7fffffff)
    (hn : 0 ≤ n ∧ n ≤ 0x7fffffffffffffff) :
    Sets "audit.yaml" ["set-cursor", "--", topic, Json.renderInt p, Json.renderInt n] ⟨topic, p, n⟩ := by
  refine ⟨hn.1, false, ?_⟩
  have hpartition : partition? (Json.renderInt p) = some p := int?_renderInt hp
  have hoffset : offset? (Json.renderInt n) = some n := int?_renderInt ⟨by omega, hn.2⟩
  simp [Request.ofArguments, scan, looksLikeOption, Page.ofCommand?, command, setCursor, operands, readable, hpartition, hoffset,
    bind, Except.bind, Options.finish, Options.settle]

/-! ## What a command does -/

/-- A command that sets a cursor tells the offset that was last set where the partition is filed, changes the offset of every
partition that is filed there and of no other, and changes the listing in that one place. A partition that is not negative is
filed as itself, and so is listed as itself and apart from all others that are not negative. A negative one is filed and listed as
the positive one of a topic with a hyphen more, and the lowest one is not listed at all. -/
theorem cursor_set_as_filed {env : Config.Environment} {config : String} {c : Config} {d : Disk} {f : CursorFile}
    (h : Opens env config c d f) {argss : List (List String)} {xs : List Cursor} (hxs : List.Forall₂ (Sets config) argss xs)
    {args : List String} {x : Cursor} (hx : Sets config args x) {largs : List String} (hlist : Lists config largs) :
    let ns := c.cursor.ns
    let place := Cursor.filed x.topic x.partition
    let d₁ := afterRuns env d argss
    let d₂ := (run env d₁ args).2
    (run env d₁ args).1 = .finished (.success
        [change x.topic x.partition ((lastSet xs place).or (f.get ns x.topic x.partition)) x.offset]) ∧
      ∃ f₁ f₂ before after,
        Opens env config c d₁ f₁ ∧ Opens env config c d₂ f₂ ∧
        (∀ topic p, f₂.get ns topic p = if Cursor.filed topic p = place then some x.offset else f₁.get ns topic p) ∧
        (∀ m, m ≠ ns → f₂.table m = f₁.table m) ∧
        (run env d₁ largs).1 = .finished (.success (listing ns before)) ∧
        (run env d₂ largs).1 = .finished (.success (listing ns after)) ∧
        before.Pairwise Cursor.Ahead ∧ after.Pairwise Cursor.Ahead ∧
        ∀ k, k ∈ after ↔ k.place = place ∧ k.offset = x.offset ∧ IsPartition k.partition ∨ k ∈ before ∧ k.place ≠ place := by
  intro ns place d₁ d₂
  have h₁ := h.afterRuns hxs
  obtain ⟨hsaid, h₂⟩ := h₁.run_sets hx
  obtain ⟨hbefore, hmem⟩ := CursorFile.list_kept h₁.kept
  obtain ⟨hafter, hmem'⟩ := CursorFile.list_kept h₂.kept
  refine ⟨?_, _, _, _, _, h₁, h₂, fun topic p => ?_, fun m hm => ?_, h₁.run_lists hlist, h₂.run_lists hlist, hbefore, hafter,
    fun k => ?_⟩
  · rw [hsaid, get_putAll]
  · exact CursorFile.get_put_filed ..
  · exact CursorFile.table_put_of_ne _ hm _ _ _
  · rw [hmem', hmem, CursorFile.get_put_filed]
    by_cases hk : IsPartition k.partition
    · have hplace : Cursor.filed k.topic k.partition = k.place := Cursor.filed_of_nonneg k.topic hk.1
      rw [hplace]
      by_cases hsame : k.place = place
      · simp [hk, hsame, place, eq_comm]
      · simp [hk, hsame, place]
    · simp [hk]

namespace NegativePartition

/-- A disk with a configuration that leaves all as it is by default, and nothing else. -/
def disk : Disk := [(Path.ofString "audit.yaml", .text "\x7b\x7d")]

/-- The disk once the cursor file has been made. -/
def made : Disk := disk.write (Path.ofString "data/cursors.redb") (.cursors [])

/-- No variable is set in the environment. -/
def env : Config.Environment := fun _ => none

/-- What is loaded if the text of the file says so. -/
theorem loaded {d : Disk} (h : (loadConfig env d "audit.yaml").toOption = some {}) : loadConfig env d "audit.yaml" = .ok {} := by
  cases hd : loadConfig env d "audit.yaml" with
  | ok c =>
    rw [hd] at h
    exact congrArg Except.ok (Option.some.inj h)
  | error e =>
    rw [hd] at h
    cases h

/-- The program finds its configuration and makes the cursor file. -/
theorem opens : Opens env "audit.yaml" {} disk [] where
  loaded := loaded (by decide +kernel)
  opened := ⟨made, by decide +kernel, loaded (by decide +kernel), by decide +kernel, .nil⟩

/-- A cursor of a negative partition. -/
def negative : Cursor := ⟨"a", -1, 5⟩

/-- A cursor that is filed in the same place. -/
def positive : Cursor := ⟨"a-", 1, 7⟩

theorem sets_negative : Sets "audit.yaml" ["set-cursor", "--", "a", "-1", "5"] negative :=
  sets_escaped "a" (by decide) (by decide)

theorem sets_positive : Sets "audit.yaml" ["set-cursor", "a-", "1", "7"] positive := ⟨by decide, false, by decide +kernel⟩

theorem lists : Lists "audit.yaml" ["cursors"] := ⟨false, by decide +kernel⟩

end NegativePartition

open NegativePartition in
/-- Partition 1 of `a-` is set after partition -1 of `a`, whose offset is told and replaced. -/
theorem cursor_set_as_filed_negative :
    Opens env "audit.yaml" {} disk [] ∧
    List.Forall₂ (Sets "audit.yaml") [["set-cursor", "--", "a", "-1", "5"]] [negative] ∧
    Sets "audit.yaml" ["set-cursor", "a-", "1", "7"] positive ∧ Lists "audit.yaml" ["cursors"] ∧
    let d₁ := afterRuns env disk [["set-cursor", "--", "a", "-1", "5"]]
    let d₂ := (run env d₁ ["set-cursor", "a-", "1", "7"]).2
    (run env d₁ ["set-cursor", "a-", "1", "7"]).1 = .finished (.success ["✓ a-/1: 5 -> 7"]) ∧
      ∃ after, (run env d₂ ["cursors"]).1 = .finished (.success (listing "kafka" after)) ∧
        ∀ k, k.place = ("a-", 1) → (k ∈ after ↔ k.offset = 7) := by
  have hxs : List.Forall₂ (Sets "audit.yaml") [["set-cursor", "--", "a", "-1", "5"]] [negative] := .cons sets_negative .nil
  refine ⟨opens, hxs, sets_positive, lists, ?_⟩
  obtain ⟨hsaid, f₁, f₂, before, after, -, -, -, -, -, hlisted, -, -, hmem⟩ :=
    cursor_set_as_filed opens hxs sets_positive lists
  refine ⟨hsaid, after, hlisted, fun k hplace => ?_⟩
  have hpartition : IsPartition k.partition := by
    have hp : k.partition = 1 := congrArg Prod.snd hplace
    rw [hp]
    decide
  have hfiled : Cursor.filed positive.topic positive.partition = ("a-", 1) := rfl
  rw [hmem, hfiled]
  simp [hplace, hpartition, positive]

open NegativePartition in
/-- A cursor that is set for a partition is told and replaced where another partition of another topic is set. -/
theorem cursor_set_alone_false :
    ¬∀ (args args' : List String) (x y : Cursor), x.place ≠ y.place → Sets "audit.yaml" args x → Sets "audit.yaml" args' y →
      (run env (run env disk args).2 args').1 = .finished (.success [change y.topic y.partition none y.offset]) := by
  intro h
  have hunset := h _ _ negative positive (by decide) sets_negative sets_positive
  rw [((opens.run_sets sets_negative).2.run_sets sets_positive).1] at hunset
  exact absurd (Result.finished.inj hunset) (by decide +kernel)

end AuditTrail.Cli
