import AuditTrail.Proofs.Filter.Inclusion
import AuditTrail.Proofs.Filter.Masking

/-!
# What is kept without a filter of one's own

The default filter includes every table that a lone star names. A star does not reach over a line feed, so these are the tables
whose own name has none, whatever the name of the database (`Glob.names_star`). Their events are kept as they are, as by the filter
that keeps everything; the events of all other tables are dropped. A table name with a line feed can be written in a message, so there
are events that only the default filter drops.
-/

namespace AuditTrail

/-- A lone star matches what has no line feed. -/
theorem Glob.matches_lone_star {t : List Char} : Matches ['*'] t ↔ '\n' ∉ t := by
  rw [matches_star]
  constructor
  · rintro ⟨run, rest, rfl, hr, h⟩
    rw [matches_nil.1 h, List.append_nil]
    exact hr
  · intro h
    exact ⟨t, [], (List.append_nil t).symm, h, .nil⟩

/-- A lone star names a table by its bare name, or not at all: the qualified name has every line feed of the bare one. -/
theorem Glob.names_star (database table : String) : Names "*" database table ↔ '\n' ∉ table.toList := by
  have hstar : ("*" : String).toList = ['*'] := rfl
  rw [Names, hstar, matches_lone_star, matches_lone_star, or_iff_right_iff_imp]
  intro h hmem
  exact h (by simp [hmem])

namespace Filter

/-- The default filter includes a table exactly if its name has no line feed. -/
theorem includesTable_default (database table : String) :
    (ofConfig .default).includesTable database table = true ↔ '\n' ∉ table.toList := by
  rw [← Glob.names_star database table, ← matchesTable_iff]
  simp [includesTable, ofConfig, FilterConfig.default]

/-- The filter that keeps everything includes every table. -/
theorem includesTable_allowAll (database table : String) : allowAll.includesTable database table = true := rfl

/-- A filter without hidden columns leaves an image as it is. -/
theorem maskImage_of_unmasked {f : Filter} (hf : f.masked = []) (v : Json) : f.maskImage v = v := by
  have hmember : f.maskMember = id := by
    funext m
    exact maskMember_of_shown (by simp [masks, hf])
  cases v with
  | object ms => rw [maskImage_object, hmember, List.map_id]
  | _ => rfl

/-- A filter without hidden columns leaves the images of an event as they are. -/
theorem maskImages_of_unmasked {f : Filter} (hf : f.masked = []) (e : RowChange) : f.maskImages e = e := by
  have himage : f.maskImage = id := funext (maskImage_of_unmasked hf)
  rw [maskImages, himage, Option.map_id_fun, id_eq, id_eq]

/-- A filter without hidden columns keeps the events of included tables as they are and drops the others. -/
theorem apply_of_unmasked {f : Filter} (hf : f.masked = []) (e : RowChange) :
    f.apply e = (f.includesTable e.database e.table, e) := by
  cases hi : f.includesTable e.database e.table with
  | true => rw [apply_of_included hi, maskImages_of_unmasked hf]
  | false => exact apply_of_excluded hi

end Filter

/-- What a filter without hidden columns makes of a message: a row of its event just as it is, unless there is no event or that of a
table which is not included. -/
theorem Message.toIntake_of_unmasked {f : Filter} (hf : f.masked = []) (clock : Instant) (m : Message) :
    m.toIntake f clock = match RowChange.decode m.payload with
      | .error _ => (.skip m.partition m.offset, [.rowChange, .decodeError .rowChange])
      | .ok e => if f.includesTable e.database e.table then (.row (.ofEvent e m.partition m.offset clock), [.rowChange])
          else (.skip m.partition m.offset, [.rowChange, .filtered]) := by
  unfold toIntake
  cases RowChange.decode m.payload with
  | error e => rfl
  | ok e =>
    simp only [Filter.apply_of_unmasked hf]
    cases f.includesTable e.database e.table <;> rfl

/-- The default filter keeps an event, as it is, exactly if the name of its table has no line feed; the filter that keeps everything
keeps all of them, as they are. So a message yields the same with either filter, unless it holds an event of a table whose name has a
line feed: then it is counted as filtered by the default filter, and by this one alone, and only its offset goes on. -/
theorem default_keeps_iff (e : RowChange) (m : Message) (clock : Instant) :
    ((Filter.ofConfig .default).apply e = (decide ('\n' ∉ e.table.toList), e) ∧ Filter.allowAll.apply e = (true, e)) ∧
      .filtered ∉ (m.toIntake .allowAll clock).2 ∧
      (.filtered ∈ (m.toIntake (.ofConfig .default) clock).2 ↔
        ∃ e, RowChange.decode m.payload = .ok e ∧ '\n' ∈ e.table.toList) ∧
      m.toIntake (.ofConfig .default) clock =
        if .filtered ∈ (m.toIntake (.ofConfig .default) clock).2 then
          (.skip m.partition m.offset, [.rowChange, .filtered])
        else m.toIntake .allowAll clock := by
  have hinclude (e : RowChange) :
      (Filter.ofConfig .default).includesTable e.database e.table = decide ('\n' ∉ e.table.toList) := by
    rw [Bool.eq_iff_iff, Filter.includesTable_default, decide_eq_true_iff]
  constructor
  · rw [Filter.apply_of_unmasked rfl, Filter.apply_of_unmasked rfl, hinclude]
    exact ⟨rfl, rfl⟩
  · rw [Message.toIntake_of_unmasked rfl, Message.toIntake_of_unmasked rfl]
    cases RowChange.decode m.payload with
    | error e => simp
    | ok e =>
      by_cases hfeed : '\n' ∈ e.table.toList
      · simp [hinclude, hfeed, Filter.includesTable_allowAll]
      · simp [hinclude, hfeed, Filter.includesTable_allowAll]

/-- A message can hold an event that the default filter drops, though the filter that keeps everything does not. -/
theorem default_keeps_all_false :
    ∃ (payload : Octets) (e : RowChange), RowChange.decode payload = .ok e ∧
      (Filter.ofConfig .default).apply e = (false, e) ∧ Filter.allowAll.apply e = (true, e) := by
  let payload : Octets := Utf8.encode "[\"shop\",\"or\\nders\",\"insert\",\"T1\",1000]"
  let event : RowChange := ⟨"shop", "or\nders", .insert, "T1", ⟨1000, 0⟩, .none⟩
  have hdecode : RowChange.decode payload = .ok event := Outcome.toOption_eq_some.1 (by decide +kernel)
  exact ⟨payload, event, hdecode, by decide +kernel, by decide +kernel⟩

end AuditTrail
