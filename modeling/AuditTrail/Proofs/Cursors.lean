import AuditTrail.Cursors
import AuditTrail.Proofs.Text.Numerals

/-!
# Reading back a cursor

A cursor that is written reads back, and writing it leaves the cursors of other partitions as they are. In memory this is plain.
In a file it rests on the keys: two partitions of one topic never share a key (`Cursor.key_inj`), and two topics share none
among the partitions that are not negative (`Cursor.key_topic`), because the number then holds no hyphen. A negative partition has
the key of a positive one of another topic (`Cursor.key_eq_iff`).
-/

namespace AuditTrail

namespace CursorAux

/-- Two texts that end in parts without a certain character, with that character before them, agree in both parts. -/
theorem split_at_last {α : Type} {a : α} {s t u v : List α} (hu : a ∉ u) (hv : a ∉ v)
    (h : s ++ a :: u = t ++ a :: v) : s = t ∧ u = v := by
  rcases List.append_eq_append_iff.1 h with ⟨w, rfl, hw⟩ | ⟨w, rfl, hw⟩
  · cases w with
    | nil => exact ⟨(List.append_nil _).symm, (List.cons.inj hw).2⟩
    | cons b w =>
      have hmem : a ∈ u := by rw [(List.cons.inj hw).2]; simp
      exact absurd hmem hu
  · cases w with
    | nil => exact ⟨List.append_nil _, (List.cons.inj hw).2.symm⟩
    | cons b w =>
      have hmem : a ∈ v := by rw [(List.cons.inj hw).2]; simp
      exact absurd hmem hv

end CursorAux

open CursorAux Numeral

/-- Two partitions of one topic have different keys. -/
theorem Cursor.key_inj {topic : String} {p q : Int} (h : Cursor.key topic p = Cursor.key topic q) : p = q := by
  have hl : (Cursor.key topic p).toList = (Cursor.key topic q).toList := congrArg String.toList h
  simp only [Cursor.key, String.toList_append, List.append_cancel_left_eq] at hl
  exact renderInt_inj (String.toList_inj.1 hl)

/-- A key of a partition that is not negative tells the topic. -/
theorem Cursor.key_topic {s t : String} {p q : Int} (hp : 0 ≤ p) (hq : 0 ≤ q) (h : Cursor.key s p = Cursor.key t q) :
    s = t := by
  have hl : (Cursor.key s p).toList = (Cursor.key t q).toList := congrArg String.toList h
  have hyphen : ("-" : String).toList = ['-'] := rfl
  simp only [Cursor.key, String.toList_append, hyphen, toList_renderInt_of_nonneg hp, toList_renderInt_of_nonneg hq,
    List.append_assoc, List.singleton_append] at hl
  exact String.toList_inj.1 (split_at_last (hyphen_not_mem_toDigits _) (hyphen_not_mem_toDigits _) hl).1

/-- Where a partition is filed: the sign of a negative one is taken for the end of the topic. -/
def Cursor.filed (topic : String) (p : Int) : String × Int := if p < 0 then (topic ++ "-", -p) else (topic, p)

/-- A partition that is not negative is filed as itself. -/
theorem Cursor.filed_of_nonneg (topic : String) {p : Int} (h : 0 ≤ p) : Cursor.filed topic p = (topic, p) :=
  if_neg (Int.not_lt.2 h)

theorem Cursor.filed_nonneg (topic : String) (p : Int) : 0 ≤ (Cursor.filed topic p).2 := by
  rw [Cursor.filed]
  split
  · exact Int.neg_nonneg_of_nonpos (Int.le_of_lt ‹_›)
  · exact Int.not_lt.1 ‹_›

/-- A key is that of the place where the partition is filed. -/
theorem Cursor.key_filed (topic : String) (p : Int) :
    Cursor.key (Cursor.filed topic p).1 (Cursor.filed topic p).2 = Cursor.key topic p := by
  by_cases h : p < 0
  · have hyphen : ("-" : String).toList = ['-'] := rfl
    have hamount : (Json.renderInt (-p)).toList = Nat.toDigits 10 p.natAbs := by
      rw [toList_renderInt_of_nonneg (by omega), Int.natAbs_neg]
    rw [Cursor.filed, if_pos h, ← String.toList_inj]
    simp only [Cursor.key, String.toList_append, hyphen, hamount, toList_renderInt_of_neg h, List.append_assoc,
      List.cons_append, List.nil_append]
  · rw [Cursor.filed, if_neg h]

/-- Two partitions share a key if they are filed in the same place, and only then. -/
theorem Cursor.key_eq_iff {s t : String} {p q : Int} :
    Cursor.key s p = Cursor.key t q ↔ Cursor.filed s p = Cursor.filed t q := by
  constructor
  · intro h
    rw [← Cursor.key_filed s p, ← Cursor.key_filed t q] at h
    have htopic := Cursor.key_topic (Cursor.filed_nonneg s p) (Cursor.filed_nonneg t q) h
    rw [htopic] at h
    exact Prod.ext htopic (Cursor.key_inj h)
  · intro h
    rw [← Cursor.key_filed s p, h, Cursor.key_filed]

namespace CursorFile

/-- A lookup past an entry with another key. -/
theorem lookup_cons_of_ne {k l : String} (n : Int) (t : CursorTable) (h : l ≠ k) :
    List.lookup l ((k, n) :: t) = List.lookup l t := by
  simp only [List.lookup_cons, beq_eq_false_iff_ne.2 h]

/-- An entry that is set is found, and every other entry is found as before. -/
theorem lookup_setEntry (k l : String) (n : Int) (t : CursorTable) :
    (setEntry k n t).lookup l = if l = k then some n else t.lookup l := by
  induction t with
  | nil =>
    by_cases h : l = k
    · simp [setEntry, h]
    · rw [setEntry, lookup_cons_of_ne n [] h, if_neg h]
  | cons e t ih =>
    obtain ⟨j, m⟩ := e
    by_cases h : l = k
    · subst h
      by_cases hj : l = j
      · simp [setEntry, hj]
      · by_cases hlt : l < j
        · simp [setEntry, hlt]
        · rw [setEntry, if_neg hlt, if_neg hj, lookup_cons_of_ne m _ hj, ih, if_pos rfl, if_pos rfl]
    · rw [if_neg h] at ih ⊢
      by_cases hlt : k < j
      · rw [setEntry, if_pos hlt, lookup_cons_of_ne n _ h]
      · by_cases hj : k = j
        · rw [setEntry, if_neg hlt, if_pos hj, lookup_cons_of_ne n t h, lookup_cons_of_ne m t (hj ▸ h)]
        · rw [setEntry, if_neg hlt, if_neg hj, List.lookup_cons, List.lookup_cons, ih]

/-- Setting a cursor sets one entry in the table of its namespace. -/
theorem table_put (f : CursorFile) (ns topic : String) (p n : Int) :
    (f.put ns topic p n).table ns = setEntry (Cursor.key topic p) n (f.table ns) := by
  induction f with
  | nil => simp [put, table]
  | cons e f ih =>
    obtain ⟨m, t⟩ := e
    simp only [put]
    by_cases h : m = ns
    · subst h
      simp [table]
    · have h' : ns ≠ m := fun e => h e.symm
      simp only [table, if_neg h, List.lookup_cons, beq_eq_false_iff_ne.2 h'] at ih ⊢
      exact ih

/-- The cursor that is set is read, and every cursor with another key is read as before. -/
theorem get_put (f : CursorFile) (ns topic topic' : String) (p q n : Int) :
    (f.put ns topic p n).get ns topic' q =
      if Cursor.key topic' q = Cursor.key topic p then some n else f.get ns topic' q := by
  rw [get, table_put, lookup_setEntry, get]

/-- The cursor that is set is read, and every cursor that is filed elsewhere is read as before. -/
theorem get_put_filed (f : CursorFile) (ns topic topic' : String) (p q n : Int) :
    (f.put ns topic p n).get ns topic' q =
      if Cursor.filed topic' q = Cursor.filed topic p then some n else f.get ns topic' q := by
  simp only [get_put, Cursor.key_eq_iff]

end CursorFile

namespace Cursors

/-- In memory the cursor that is set is found, and every other one is found as before. -/
theorem find?_setCursor (topic topic' : String) (p q n : Int) (cs : List Cursor) :
    ((setCursor topic p n cs).find? fun e => e.topic == topic' && e.partition == q).map (·.offset) =
      if topic' = topic ∧ q = p then some n
      else (cs.find? fun e => e.topic == topic' && e.partition == q).map (·.offset) := by
  induction cs with
  | nil => by_cases h : topic' = topic ∧ q = p <;> grind [setCursor]
  | cons c cs ih => grind [setCursor]

/-- A cursor that is written reads back. -/
theorem stored_set_self (c : Cursors) (topic : String) (p n : Int) : (c.set topic p n).stored topic p = some n := by
  obtain ⟨backing, fg, fp⟩ := c
  cases backing with
  | memory entries => simp only [set, stored, find?_setCursor, and_self, if_true]
  | file ns content => simp only [set, stored, CursorFile.get_put, if_true]

/-- Writing a cursor leaves those of other partitions of its topic as they are. -/
theorem stored_set_partition (c : Cursors) (topic : String) {p q : Int} (n : Int) (h : q ≠ p) :
    (c.set topic p n).stored topic q = c.stored topic q := by
  obtain ⟨backing, fg, fp⟩ := c
  cases backing with
  | memory entries =>
    simp only [set, stored, find?_setCursor, h, and_false, if_false]
  | file ns content =>
    have hne : Cursor.key topic q ≠ Cursor.key topic p := fun e => h (Cursor.key_inj e)
    simp only [set, stored, CursorFile.get_put, if_neg hne]

/-- After several cursors of a topic are set, these are found, and the others as before. -/
theorem stored_sets (c : Cursors) (topic : String) (place : Int → Int) (ps : List Int) (q : Int) :
    (ps.foldl (fun c p => c.set topic p (place p)) c).stored topic q =
      if q ∈ ps then some (place q) else c.stored topic q := by
  induction ps generalizing c with
  | nil => simp
  | cons p ps ih =>
    rw [List.foldl_cons, ih]
    by_cases hq : q ∈ ps
    · rw [if_pos hq, if_pos (List.mem_cons_of_mem p hq)]
    · rw [if_neg hq]
      by_cases hqp : q = p
      · rw [hqp, stored_set_self, if_pos List.mem_cons_self]
      · have hnot : q ∉ p :: ps := by simp [hqp, hq]
        rw [stored_set_partition c topic _ hqp, if_neg hnot]

/-- Writing a cursor leaves those of other topics as they are, as long as no partition is negative. -/
theorem stored_set_topic (c : Cursors) {s t : String} {p q : Int} (n : Int) (h : t ≠ s) (hp : 0 ≤ p) (hq : 0 ≤ q) :
    (c.set s p n).stored t q = c.stored t q := by
  obtain ⟨backing, fg, fp⟩ := c
  cases backing with
  | memory entries =>
    have hne : ¬(t = s ∧ q = p) := fun e => h e.1
    simp only [set, stored, find?_setCursor, if_neg hne]
  | file ns content =>
    have hne : Cursor.key t q ≠ Cursor.key s p := fun e => h (Cursor.key_topic hq hp e)
    simp only [set, stored, CursorFile.get_put, if_neg hne]

end Cursors

end AuditTrail
