import AuditTrail.Proofs.Cursors
import AuditTrail.Proofs.Text.Order
import Mathlib.Data.List.Nodup

/-!
# Cursors in a file answer as cursors in memory

A file is opened under one namespace after another, and each time some calls are made. The calls of one namespace, taken
together, are answered as cursors in memory answer them (`sessions_refine_memory`), whatever was put under other namespaces
in between.

Neither side is compared with the other. An answer is *right* when it is what the calls before it prescribe: the offset last
put, or a listing of one cursor for each partition of a topic ever put, in the order of the octets of the topics and then of
the partitions. Right answers are unique (`Right.unique`), and both sides give them: memory since it holds one entry for each
partition, a file since a key is read back as the partition it was made of (`Cursor.ofKey?_key`) and the table of a namespace
has no other keys.
-/

namespace AuditTrail

/-! ## Calls, answers and sessions -/

/-- What is asked of cursors. -/
inductive CursorCall where
  | get (topic : String) (partition : Int)
  | put (topic : String) (partition offset : Int)
  | list
  deriving DecidableEq

/-- What cursors answer. -/
inductive CursorAnswer where
  | offset (offset : Option Int)
  | kept
  | listing (cursors : List Cursor)
  | refused (e : Error)
  deriving DecidableEq

/-- The numbers that partitions have: those of 32 bits that are not negative. -/
def IsPartition (p : Int) : Prop := 0 ≤ p ∧ p ≤ 0x7fffffff

instance (p : Int) : Decidable (IsPartition p) := inferInstanceAs (Decidable (_ ∧ _))

/-- The partition that a call names, if it names one, is a number that partitions have. -/
def CursorCall.Proper : CursorCall → Prop
  | .get _ p => IsPartition p
  | .put _ p _ => IsPartition p
  | .list => True

/-- The time between opening a file under a namespace and closing it: the calls that are made. -/
structure CursorSession where
  ns : String
  calls : List CursorCall

namespace Cursors

/-- The cursors after a call, and the answer to it. -/
def call (c : Cursors) : CursorCall → Cursors × CursorAnswer
  | .get topic p => match c.get topic p with
    | .ok n => (c, .offset n)
    | .error e => (c, .refused e)
  | .put topic p n => match c.put topic p n with
    | .ok c => (c, .kept)
    | .error e => (c, .refused e)
  | .list => (c, .listing c.list)

/-- The cursors after calls made one after the other, and the answers to them. -/
def calls (c : Cursors) : List CursorCall → Cursors × List CursorAnswer
  | [] => (c, [])
  | q :: qs => (((c.call q).1.calls qs).1, (c.call q).2 :: ((c.call q).1.calls qs).2)

/-- The answers of each session of a file, by its namespace. -/
def sessions (c : Cursors) : List CursorSession → Except Error (List (String × List CursorAnswer))
  | [] => .ok []
  | s :: rest => do
    let opened ← c.reopen s.ns
    let answers ← (opened.calls s.calls).1.sessions rest
    .ok ((s.ns, (opened.calls s.calls).2) :: answers)

end Cursors

/-- The calls made under a namespace, in their order. -/
def callsUnder (ns : String) (history : List CursorSession) : List CursorCall :=
  (history.filter (·.ns = ns)).flatMap (·.calls)

/-- The answers given under a namespace, in their order. -/
def answersUnder (ns : String) (answers : List (String × List CursorAnswer)) : List CursorAnswer :=
  (answers.filter (·.1 = ns)).flatMap (·.2)

/-! ## The right answers -/

/-- One cursor is listed ahead of another: its topic has the lower octets, or it is of the same topic and its partition is
the lower one. -/
def Cursor.Ahead (a b : Cursor) : Prop :=
  Utf8.encode a.topic < Utf8.encode b.topic ∨ a.topic = b.topic ∧ a.partition < b.partition

/-- The offset that was last put for a partition of a topic, if one ever was. -/
def lastPut (calls : List CursorCall) (topic : String) (partition : Int) : Option Int :=
  calls.reverse.findSome? fun q => match q with
    | .put t p n => if t = topic ∧ p = partition then some n else none
    | _ => none

/-- The answer that the calls before prescribe. -/
def CursorAnswer.Right (before : List CursorCall) : CursorCall → CursorAnswer → Prop
  | .get topic p, .offset n => n = lastPut before topic p
  | .put .., .kept => True
  | .list, .listing cs =>
    cs.Pairwise Cursor.Ahead ∧ ∀ c, c ∈ cs ↔ lastPut before c.topic c.partition = some c.offset
  | _, _ => False

/-- The answers to calls are the ones that the calls before each of them prescribe. -/
inductive RightAnswers : List CursorCall → List CursorCall → List CursorAnswer → Prop where
  | nil (before : List CursorCall) : RightAnswers before [] []
  | cons {before qs : List CursorCall} {q : CursorCall} {a : CursorAnswer} {as : List CursorAnswer}
    (first : a.Right before q) (rest : RightAnswers (before ++ [q]) qs as) : RightAnswers before (q :: qs) (a :: as)

namespace CursorAux

/-- A call that is a put is the last one of its partition, any other leaves what was last put. -/
theorem lastPut_append (before : List CursorCall) (q : CursorCall) (topic : String) (p : Int) :
    lastPut (before ++ [q]) topic p = match q with
      | .put t r n => if t = topic ∧ r = p then some n else lastPut before topic p
      | _ => lastPut before topic p := by
  rw [lastPut, List.reverse_append, List.reverse_singleton, List.singleton_append, List.findSome?_cons]
  cases q with
  | put t r n => by_cases h : t = topic ∧ r = p <;> simp [h, lastPut]
  | get t r => rfl
  | list => rfl

/-- Only partitions are ever put. -/
theorem isPartition_of_lastPut {calls : List CursorCall} (h : ∀ q ∈ calls, q.Proper) {topic : String} {p n : Int}
    (hput : lastPut calls topic p = some n) : IsPartition p := by
  obtain ⟨q, hq, hn⟩ := List.exists_of_findSome?_eq_some hput
  cases q with
  | put t r m =>
    by_cases hr : t = topic ∧ r = p
    · exact hr.2 ▸ h _ (List.mem_reverse.1 hq)
    · simp [hr] at hn
  | get t r => simp at hn
  | list => simp at hn

/-- A cursor that is listed ahead of another is not that one. -/
theorem ne_of_ahead {a b : Cursor} (h : a.Ahead b) : a ≠ b := by
  rintro rfl
  rcases h with h | ⟨-, h⟩
  · exact List.lt_irrefl _ h
  · exact Int.lt_irrefl _ h

/-- Of two cursors at most one is listed ahead of the other. -/
theorem not_ahead_of_ahead {a b : Cursor} (h : a.Ahead b) : ¬b.Ahead a := by
  simp only [Cursor.Ahead, Utf8.encode_lt_encode_iff] at h ⊢
  rintro (h' | ⟨he, h'⟩)
  · rcases h with h | ⟨he, -⟩
    · exact lt_asymm h h'
    · exact lt_irrefl _ (he ▸ h')
  · rcases h with h | ⟨-, h⟩
    · exact lt_irrefl _ (he ▸ h)
    · omega

/-- Two listings of the same cursors, each in order, are the same. -/
theorem listing_unique {cs ds : List Cursor} (hc : cs.Pairwise Cursor.Ahead) (hd : ds.Pairwise Cursor.Ahead)
    (h : ∀ c, c ∈ cs ↔ c ∈ ds) : cs = ds := by
  have nodup {cs : List Cursor} (hcs : cs.Pairwise Cursor.Ahead) : cs.Nodup := hcs.imp ne_of_ahead
  refine List.Perm.eq_of_pairwise (fun a b _ _ hab hba => absurd hba (not_ahead_of_ahead hab)) hc hd ?_
  exact (List.perm_ext_iff_of_nodup (nodup hc) (nodup hd)).2 h

end CursorAux

open CursorAux

/-- The calls before and a call prescribe one answer. -/
theorem CursorAnswer.Right.unique {before : List CursorCall} {q : CursorCall} {a b : CursorAnswer}
    (ha : a.Right before q) (hb : b.Right before q) : a = b := by
  cases q with
  | get topic p =>
    cases a <;> cases b <;> simp only [CursorAnswer.Right] at ha hb
    rw [ha, hb]
  | put topic p n =>
    cases a <;> cases b <;> simp only [CursorAnswer.Right] at ha hb
    rfl
  | list =>
    cases a <;> cases b <;> simp only [CursorAnswer.Right] at ha hb
    rw [listing_unique ha.1 hb.1 fun c => (ha.2 c).trans (hb.2 c).symm]

namespace RightAnswers

/-- Calls have one run of right answers. -/
theorem unique {before qs : List CursorCall} {as bs : List CursorAnswer} (ha : RightAnswers before qs as)
    (hb : RightAnswers before qs bs) : as = bs := by
  induction ha generalizing bs with
  | nil => cases hb; rfl
  | cons first _ ih =>
    cases hb with
    | cons first' rest' => rw [first.unique first', ih rest']

/-- Right answers to calls, and to further calls after these, are right answers to all of them. -/
theorem append {before qs rs : List CursorCall} {as bs : List CursorAnswer} (ha : RightAnswers before qs as)
    (hb : RightAnswers (before ++ qs) rs bs) : RightAnswers before (qs ++ rs) (as ++ bs) := by
  induction ha with
  | nil => simpa using hb
  | cons first _ ih => exact .cons first (ih (by simpa using hb))

end RightAnswers

/-! ## What is kept -/

/-- The pair that a cursor is kept under. -/
def Cursor.place (c : Cursor) : String × Int := (c.topic, c.partition)

/-- The entries in memory are what the calls have put: one for each pair, with the offset last put. -/
structure EntriesHold (entries : List Cursor) (calls : List CursorCall) : Prop where
  distinct : (entries.map Cursor.place).Nodup
  found : ∀ topic p,
    (entries.find? fun e => e.topic == topic && e.partition == p).map (·.offset) = lastPut calls topic p

/-- The table of a namespace is what the calls have put: one entry for each pair under its key, with the offset last put. -/
structure TableHolds (t : CursorTable) (calls : List CursorCall) : Prop where
  sorted : t.Pairwise (·.1 < ·.1)
  keyed : ∀ e ∈ t, ∃ topic p, IsPartition p ∧ e.1 = Cursor.key topic p
  found : ∀ topic p, IsPartition p → t.lookup (Cursor.key topic p) = lastPut calls topic p

/-- The cursors are what the calls have put, and none of the next calls is made to fail. -/
structure Cursors.Hold (c : Cursors) (calls : List CursorCall) : Prop where
  sound : c.failGets = false ∧ c.failPuts = false
  kept : match c.backing with
    | .memory entries => EntriesHold entries calls
    | .file ns content => TableHolds (content.table ns) calls

namespace CursorAux

/-- Cursors of different pairs are listed in order. -/
theorem ahead_mergeSort {cs : List Cursor} (h : (cs.map Cursor.place).Nodup) :
    (cs.mergeSort Cursor.le).Pairwise Cursor.Ahead := by
  have htrans (a b c : Cursor) (hab : Cursor.le a b = true) (hbc : Cursor.le b c = true) : Cursor.le a c = true := by
    simp only [Cursor.le, Bool.or_eq_true, Bool.and_eq_true, decide_eq_true_eq, beq_iff_eq] at *
    rcases hab with hab | ⟨hab, hp⟩
    · rcases hbc with hbc | ⟨hbc, -⟩
      · exact .inl (hab.trans hbc)
      · exact .inl (hbc ▸ hab)
    · rcases hbc with hbc | ⟨hbc, hq⟩
      · exact .inl (hab ▸ hbc)
      · exact .inr ⟨hab.trans hbc, hp.trans hq⟩
  have htotal (a b : Cursor) : (Cursor.le a b || Cursor.le b a) = true := by
    simp only [Cursor.le, Bool.or_eq_true, Bool.and_eq_true, decide_eq_true_eq, beq_iff_eq]
    rcases lt_trichotomy a.topic b.topic with h | h | h
    · exact .inl (.inl h)
    · exact (Int.le_total a.partition b.partition).imp (fun hp => .inr ⟨h, hp⟩) fun hp => .inr ⟨h.symm, hp⟩
    · exact .inr (.inl h)
  have hplaces : ((cs.mergeSort Cursor.le).map Cursor.place).Nodup := ((List.mergeSort_perm cs _).map _).nodup_iff.2 h
  refine ((List.pairwise_mergeSort htrans htotal cs).and (List.pairwise_map.1 hplaces)).imp ?_
  rintro a b ⟨hle, hne⟩
  simp only [Cursor.le, Bool.or_eq_true, Bool.and_eq_true, decide_eq_true_eq, beq_iff_eq] at hle
  rw [Cursor.Ahead, Utf8.encode_lt_encode_iff]
  refine hle.imp id fun ⟨ht, hp⟩ => ⟨ht, lt_of_le_of_ne hp fun he => hne ?_⟩
  rw [Cursor.place, Cursor.place, ht, he]

/-! ### In memory -/

/-- Setting a cursor adds a pair unless there is one. -/
theorem place_setCursor (topic : String) (p n : Int) (cs : List Cursor) :
    (Cursors.setCursor topic p n cs).map Cursor.place =
      if (topic, p) ∈ cs.map Cursor.place then cs.map Cursor.place else cs.map Cursor.place ++ [(topic, p)] := by
  induction cs with
  | nil => rfl
  | cons c cs ih =>
    rw [Cursors.setCursor]
    by_cases h : c.topic = topic ∧ c.partition = p
    · rw [if_pos h]
      simp [Cursor.place, h]
    · have hne : ¬(topic, p) = c.place := fun e => h ⟨congrArg Prod.fst e.symm, congrArg Prod.snd e.symm⟩
      rw [if_neg h, List.map_cons, ih]
      by_cases hmem : (topic, p) ∈ cs.map Cursor.place <;> simp [hmem, hne]

end CursorAux

namespace EntriesHold

/-- The entries are the cursors with the offsets last put. -/
theorem mem {entries : List Cursor} {calls : List CursorCall} (h : EntriesHold entries calls) (c : Cursor) :
    c ∈ entries ↔ lastPut calls c.topic c.partition = some c.offset := by
  rw [← h.found, Option.map_eq_some_iff]
  constructor
  · intro hc
    obtain ⟨d, hd⟩ : ∃ d, entries.find? (fun e => e.topic == c.topic && e.partition == c.partition) = some d :=
      Option.isSome_iff_exists.1 (List.find?_isSome.2 ⟨c, hc, by simp⟩)
    have hp := List.find?_some hd
    simp only [Bool.and_eq_true, beq_iff_eq] at hp
    have hdc : d = c :=
      List.inj_on_of_nodup_map h.distinct (List.mem_of_find?_eq_some hd) hc (Prod.ext hp.1 hp.2)
    exact ⟨d, hd, congrArg Cursor.offset hdc⟩
  · rintro ⟨d, hd, hn⟩
    have hp := List.find?_some hd
    simp only [Bool.and_eq_true, beq_iff_eq] at hp
    have hdc : d = c := by
      cases d
      cases c
      simp_all
    exact hdc ▸ List.mem_of_find?_eq_some hd

/-- Memory without entries holds what no calls have put. -/
theorem nil : EntriesHold [] [] := ⟨List.nodup_nil, fun _ _ => rfl⟩

/-- A put is held in memory. -/
theorem put {entries : List Cursor} {calls : List CursorCall} (h : EntriesHold entries calls) (topic : String)
    (p n : Int) : EntriesHold (Cursors.setCursor topic p n entries) (calls ++ [.put topic p n]) := by
  constructor
  · rw [place_setCursor]
    split
    · exact h.distinct
    · rename_i hnew
      exact List.nodup_append_comm.1 (List.nodup_cons.2 ⟨hnew, h.distinct⟩)
  · intro t r
    rw [Cursors.find?_setCursor, lastPut_append, h.found]
    simp only [eq_comm]

end EntriesHold

/-! ### In a file -/

/-- Digits have no plus sign before them. -/
theorem Cursor.unsigned_of_digits {ds : List Char} (h : ∀ c ∈ ds, c.isDigit = true) : Cursor.unsigned ds = ds := by
  unfold unsigned
  split
  · exact absurd (h '+' List.mem_cons_self) (by decide)
  · rfl

/-- A partition that is not negative is read back from its key, if it has at most 32 bits. -/
theorem Cursor.ofKey?_key_of_nonneg {p : Int} (hp : 0 ≤ p) (topic : String) :
    Cursor.ofKey? (Cursor.key topic p) = if p ≤ 0x7fffffff then some (topic, p) else none := by
  have hyphen : ("-" : String).toList = ['-'] := rfl
  have digits := Numeral.toDigits p.natAbs
  have hkey : (Cursor.key topic p).toList.reverse =
      (Nat.toDigits 10 p.natAbs).reverse ++ '-' :: topic.toList.reverse := by
    simp [Cursor.key, hyphen, Numeral.toList_renderInt_of_nonneg hp]
  have hbefore : ∀ c ∈ (Nat.toDigits 10 p.natAbs).reverse, decide (c ≠ '-') = true := by
    intro c hc
    have hne : c ≠ '-' := fun e => Numeral.hyphen_not_mem_toDigits p.natAbs (e ▸ List.mem_reverse.1 hc)
    exact decide_eq_true hne
  have hvalue : (Nat.toDigits 10 p.natAbs).foldl (fun n c => n * 10 + (c.toNat - '0'.toNat)) 0 = p.natAbs := by
    simpa only [Nat.ofDigitChars_eq_foldl, Nat.mul_comm] using digits.value
  have hunsigned := Cursor.unsigned_of_digits digits.digits
  have hempty : (Nat.toDigits 10 p.natAbs).isEmpty = false := List.isEmpty_eq_false_iff.2 digits.ne_nil
  have hdigits : (Nat.toDigits 10 p.natAbs).all Char.isDigit = true := List.all_eq_true.2 digits.digits
  have hrange : 0x7fffffff < p.natAbs ↔ ¬p ≤ 0x7fffffff := by omega
  have hnat : (p.natAbs : Int) = p := Int.natAbs_of_nonneg hp
  simp only [Cursor.ofKey?, hkey, List.takeWhile_append_of_pos hbefore, List.dropWhile_append_of_pos hbefore, ne_eq,
    not_true_eq_false, decide_false, Bool.false_eq_true, List.takeWhile_cons_of_neg, List.dropWhile_cons_of_neg,
    not_false_eq_true, List.append_nil, List.reverse_reverse, hunsigned, hvalue, hempty, hdigits, hrange, hnat, Bool.not_true,
    Bool.or_self, Bool.false_or, decide_eq_true_eq, ite_not, String.ofList_toList]

/-- A partition is read back from its key. -/
theorem Cursor.ofKey?_key {p : Int} (hp : IsPartition p) (topic : String) :
    Cursor.ofKey? (Cursor.key topic p) = some (topic, p) := by
  rw [Cursor.ofKey?_key_of_nonneg hp.1, if_pos hp.2]

namespace CursorAux

/-- The keys of a table in which an entry is set are the ones before and the new one. -/
theorem mem_setEntry {k : String} {n : Int} {t : CursorTable} {e : String × Int} (h : e ∈ CursorFile.setEntry k n t) :
    e = (k, n) ∨ e ∈ t := by
  induction t with
  | nil => exact .inl (List.mem_singleton.1 h)
  | cons d t ih =>
    rw [CursorFile.setEntry] at h
    split at h
    · exact List.mem_cons.1 h
    · split at h
      · exact (List.mem_cons.1 h).imp id fun h => List.mem_cons_of_mem _ h
      · rcases List.mem_cons.1 h with h | h
        · exact .inr (h ▸ List.mem_cons_self)
        · exact (ih h).imp id fun h => List.mem_cons_of_mem _ h

/-- Setting an entry keeps the keys in order. -/
theorem sorted_setEntry (k : String) (n : Int) {t : CursorTable} (h : t.Pairwise (·.1 < ·.1)) :
    (CursorFile.setEntry k n t).Pairwise (·.1 < ·.1) := by
  induction h with
  | nil => exact List.pairwise_singleton _ _
  | @cons e t hlt htail ih =>
    rw [CursorFile.setEntry]
    split
    · rename_i hk
      refine List.Pairwise.cons (fun d hd => ?_) (List.Pairwise.cons hlt htail)
      rcases List.mem_cons.1 hd with rfl | hd
      · exact hk
      · exact hk.trans (hlt d hd)
    · rename_i hk
      split
      · rename_i he
        exact List.Pairwise.cons (fun d hd => he ▸ hlt d hd) htail
      · rename_i he
        refine List.Pairwise.cons (fun d hd => ?_) ih
        rcases mem_setEntry hd with rfl | hd
        · exact lt_of_le_of_ne (not_lt.1 hk) (Ne.symm he)
        · exact hlt d hd

/-- In a table with its keys in order every entry is found. -/
theorem lookup_of_mem {t : CursorTable} (h : t.Pairwise (·.1 < ·.1)) {e : String × Int} (he : e ∈ t) :
    t.lookup e.1 = some e.2 := by
  induction h with
  | nil => exact absurd he List.not_mem_nil
  | cons hlt _ ih =>
    rcases List.mem_cons.1 he with rfl | he
    · exact List.lookup_cons_self
    · rw [CursorFile.lookup_cons_of_ne _ _ (hlt e he).ne']
      exact ih he

/-- The cursor that an entry of a table is listed as. -/
def cursorOf? (e : String × Int) : Option Cursor := (Cursor.ofKey? e.1).map fun k => ⟨k.1, k.2, e.2⟩

end CursorAux

/-- A table as the program keeps it: in the order of its keys, each of which is the key of some partition. -/
structure TableKept (t : CursorTable) : Prop where
  sorted : t.Pairwise (·.1 < ·.1)
  keyed : ∀ e ∈ t, ∃ topic p, e.1 = Cursor.key topic p

namespace TableKept

variable {t : CursorTable}

theorem nil : TableKept [] := ⟨List.Pairwise.nil, fun _ h => absurd h List.not_mem_nil⟩

/-- Setting the entry of a partition keeps a table. -/
theorem setEntry (h : TableKept t) (topic : String) (p n : Int) :
    TableKept (CursorFile.setEntry (Cursor.key topic p) n t) := by
  refine ⟨sorted_setEntry _ _ h.sorted, fun e he => ?_⟩
  rcases mem_setEntry he with rfl | he
  · exact ⟨topic, p, rfl⟩
  · exact h.keyed e he

/-- An entry that is listed is that of the partition under which it is listed. -/
theorem eq_of_cursorOf? (h : TableKept t) {e : String × Int} (he : e ∈ t) {c : Cursor} (hc : cursorOf? e = some c) :
    e = (Cursor.key c.topic c.partition, c.offset) ∧ IsPartition c.partition := by
  obtain ⟨topic, p, hkey⟩ := h.keyed e he
  rw [cursorOf?, hkey, ← Cursor.key_filed, Cursor.ofKey?_key_of_nonneg (Cursor.filed_nonneg topic p)] at hc
  split at hc
  · rename_i hp
    obtain rfl : ⟨_, _, e.2⟩ = c := Option.some.inj hc
    exact ⟨Prod.ext (hkey.trans (Cursor.key_filed topic p).symm) rfl, Cursor.filed_nonneg topic p, hp⟩
  · exact absurd hc (by simp)

/-- The cursors listed of a table are of different pairs. -/
theorem distinct (h : TableKept t) : ((t.filterMap cursorOf?).map Cursor.place).Nodup := by
  refine List.pairwise_map.2 (List.pairwise_filterMap.2 ?_)
  refine h.sorted.imp_of_mem fun {d e} hd he hlt b hb c hc hplace => ?_
  have hkey : d.1 = e.1 := by
    rw [(h.eq_of_cursorOf? hd hb).1, (h.eq_of_cursorOf? he hc).1, show b.topic = c.topic from congrArg Prod.fst hplace,
      show b.partition = c.partition from congrArg Prod.snd hplace]
  exact hlt.ne hkey

/-- The cursors listed of a table are those of the partitions with an offset in it. -/
theorem mem (h : TableKept t) (c : Cursor) :
    c ∈ t.filterMap cursorOf? ↔ IsPartition c.partition ∧ t.lookup (Cursor.key c.topic c.partition) = some c.offset := by
  rw [List.mem_filterMap]
  constructor
  · rintro ⟨e, he, hc⟩
    obtain ⟨heq, hp⟩ := h.eq_of_cursorOf? he hc
    have hfound := lookup_of_mem h.sorted he
    rw [heq] at hfound
    exact ⟨hp, hfound⟩
  · rintro ⟨hp, hfound⟩
    obtain ⟨before, after, rfl, -⟩ := List.lookup_eq_some_iff.1 hfound
    refine ⟨(Cursor.key c.topic c.partition, c.offset), by simp, ?_⟩
    rw [cursorOf?, Cursor.ofKey?_key hp]
    rfl

end TableKept

/-- The cursors listed of a namespace are in order, and are those of the partitions with a stored offset. -/
theorem CursorFile.list_kept {f : CursorFile} {ns : String} (h : TableKept (f.table ns)) :
    (f.list ns).Pairwise Cursor.Ahead ∧
      ∀ c, c ∈ f.list ns ↔ IsPartition c.partition ∧ f.get ns c.topic c.partition = some c.offset :=
  ⟨ahead_mergeSort h.distinct, fun c => List.mem_mergeSort.trans (h.mem c)⟩

namespace TableHolds

/-- A table without entries holds what no calls have put. -/
theorem nil : TableHolds [] [] :=
  ⟨List.Pairwise.nil, fun _ h => absurd h List.not_mem_nil, fun _ _ _ => rfl⟩

/-- A put is held in a table. -/
theorem put {t : CursorTable} {calls : List CursorCall} (h : TableHolds t calls) (topic : String) {p : Int}
    (hp : IsPartition p) (n : Int) :
    TableHolds (CursorFile.setEntry (Cursor.key topic p) n t) (calls ++ [.put topic p n]) := by
  refine ⟨sorted_setEntry _ _ h.sorted, fun e he => ?_, fun u r hr => ?_⟩
  · rcases mem_setEntry he with rfl | he
    · exact ⟨topic, p, hp, rfl⟩
    · exact h.keyed e he
  · have hsame : Cursor.key u r = Cursor.key topic p ↔ topic = u ∧ p = r := by
      constructor
      · intro he
        have hu : u = topic := Cursor.key_topic hr.1 hp.1 he
        subst hu
        exact ⟨rfl, Cursor.key_inj he.symm⟩
      · rintro ⟨rfl, rfl⟩
        rfl
    rw [CursorFile.lookup_setEntry, lastPut_append, h.found u r hr]
    simp only [hsame]

/-- What calls put is kept as the program keeps it. -/
theorem kept {t : CursorTable} {calls : List CursorCall} (h : TableHolds t calls) : TableKept t where
  sorted := h.sorted
  keyed e he := by
    obtain ⟨topic, p, -, hkey⟩ := h.keyed e he
    exact ⟨topic, p, hkey⟩

/-- The cursors listed of a table are those with the offsets last put. -/
theorem mem {t : CursorTable} {calls : List CursorCall} (h : TableHolds t calls) (hq : ∀ q ∈ calls, q.Proper)
    (c : Cursor) : c ∈ t.filterMap cursorOf? ↔ lastPut calls c.topic c.partition = some c.offset := by
  rw [h.kept.mem]
  constructor
  · rintro ⟨hp, hfound⟩
    rw [← h.found _ _ hp, hfound]
  · intro hput
    have hp : IsPartition c.partition := isPartition_of_lastPut hq hput
    exact ⟨hp, (h.found _ _ hp).trans hput⟩

end TableHolds

/-! ## What is answered -/

namespace Cursors

/-- Cursors that hold what was put list exactly that, in order. -/
theorem Hold.list {c : Cursors} {before : List CursorCall} (h : c.Hold before) (hq : ∀ q ∈ before, q.Proper) :
    c.list.Pairwise Cursor.Ahead ∧ ∀ d, d ∈ c.list ↔ lastPut before d.topic d.partition = some d.offset := by
  obtain ⟨backing, fg, fp⟩ := c
  cases backing with
  | memory entries =>
    have hkept : EntriesHold entries before := h.kept
    exact ⟨ahead_mergeSort hkept.distinct, fun d => List.mem_mergeSort.trans (hkept.mem d)⟩
  | file ns content =>
    have hkept : TableHolds (content.table ns) before := h.kept
    exact ⟨ahead_mergeSort hkept.kept.distinct, fun d => List.mem_mergeSort.trans (hkept.mem hq d)⟩

/-- Cursors that hold what was put find exactly that. -/
theorem Hold.stored {c : Cursors} {before : List CursorCall} (h : c.Hold before) (topic : String) {p : Int}
    (hp : IsPartition p) : c.stored topic p = lastPut before topic p := by
  obtain ⟨backing, fg, fp⟩ := c
  cases backing with
  | memory entries => exact EntriesHold.found h.kept topic p
  | file ns content => exact TableHolds.found h.kept topic p hp

/-- A put is held. -/
theorem Hold.set {c : Cursors} {before : List CursorCall} (h : c.Hold before) (topic : String) {p : Int}
    (hp : IsPartition p) (n : Int) : (c.set topic p n).Hold (before ++ [.put topic p n]) := by
  obtain ⟨backing, fg, fp⟩ := c
  cases backing with
  | memory entries => exact ⟨h.sound, EntriesHold.put h.kept topic p n⟩
  | file ns content =>
    refine ⟨h.sound, ?_⟩
    change TableHolds ((content.put ns topic p n).table ns) _
    rw [CursorFile.table_put]
    exact TableHolds.put h.kept topic hp n

/-- A call that puts nothing leaves what is held. -/
theorem Hold.same {c : Cursors} {before : List CursorCall} (h : c.Hold before) {q : CursorCall}
    (hq : ∀ topic p, lastPut (before ++ [q]) topic p = lastPut before topic p) : c.Hold (before ++ [q]) := by
  obtain ⟨backing, fg, fp⟩ := c
  cases backing with
  | memory entries =>
    have hkept : EntriesHold entries before := h.kept
    exact ⟨h.sound, hkept.distinct, fun topic p => (hkept.found topic p).trans (hq topic p).symm⟩
  | file ns content =>
    have hkept : TableHolds (content.table ns) before := h.kept
    exact ⟨h.sound, hkept.sorted, hkept.keyed, fun topic p hp => (hkept.found topic p hp).trans (hq topic p).symm⟩

/-- A call is answered rightly, and what is held afterwards is what the calls have put. -/
theorem Hold.call {c : Cursors} {before : List CursorCall} (h : c.Hold before) (hb : ∀ q ∈ before, q.Proper)
    {q : CursorCall} (hq : q.Proper) : (c.call q).2.Right before q ∧ (c.call q).1.Hold (before ++ [q]) := by
  cases q with
  | get topic p =>
    have hget : c.get topic p = .ok (c.stored topic p) := by rw [Cursors.get, h.sound.1]; rfl
    rw [Cursors.call, hget]
    exact ⟨h.stored topic hq, h.same (lastPut_append before _)⟩
  | put topic p n =>
    have hput : c.put topic p n = .ok (c.set topic p n) := by rw [Cursors.put, h.sound.2]; rfl
    rw [Cursors.call, hput]
    exact ⟨trivial, h.set topic hq n⟩
  | list => exact ⟨h.list hb, h.same (lastPut_append before _)⟩

/-- Calls are answered rightly, one after the other. -/
theorem Hold.calls {c : Cursors} {before : List CursorCall} (h : c.Hold before) (hb : ∀ q ∈ before, q.Proper)
    {qs : List CursorCall} (hq : ∀ q ∈ qs, q.Proper) :
    RightAnswers before qs (c.calls qs).2 ∧ (c.calls qs).1.Hold (before ++ qs) := by
  induction qs generalizing c before with
  | nil => exact ⟨.nil before, by simpa [Cursors.calls] using h⟩
  | cons q qs ih =>
    obtain ⟨hright, hheld⟩ := h.call hb (hq q List.mem_cons_self)
    have hb' : ∀ r ∈ before ++ [q], r.Proper := by
      intro r hr
      rcases List.mem_append.1 hr with hr | hr
      · exact hb r hr
      · exact hq r (List.mem_singleton.1 hr ▸ List.mem_cons_self)
    obtain ⟨hrest, hend⟩ := ih hheld hb' fun r hr => hq r (List.mem_cons_of_mem q hr)
    exact ⟨.cons hright hrest, by simpa [Cursors.calls] using hend⟩

end Cursors

/-- Putting under a namespace leaves the tables of the others as they are. -/
theorem CursorFile.table_put_of_ne (f : CursorFile) {ns m : String} (h : m ≠ ns) (topic : String) (p n : Int) :
    (f.put ns topic p n).table m = f.table m := by
  have hne : (m == ns) = false := beq_eq_false_iff_ne.2 h
  induction f with
  | nil => simp [CursorFile.put, CursorFile.table, List.lookup_cons, hne]
  | cons e f ih =>
    obtain ⟨l, t⟩ := e
    simp only [CursorFile.put, CursorFile.table] at ih ⊢
    split
    · rename_i hl
      simp [List.lookup_cons, hl, hne]
    · rw [List.lookup_cons, List.lookup_cons]
      split
      · rfl
      · exact ih

namespace Cursors

/-- Calls to a file leave it open under its namespace, and the tables of the others as they are. -/
theorem calls_elsewhere (ns : String) (content : CursorFile) (qs : List CursorCall) :
    ∃ content', ((⟨.file ns content, false, false⟩ : Cursors).calls qs).1 = ⟨.file ns content', false, false⟩ ∧
      ∀ m, m ≠ ns → content'.table m = content.table m := by
  induction qs generalizing content with
  | nil => exact ⟨content, rfl, fun _ _ => rfl⟩
  | cons q qs ih =>
    cases q with
    | get topic p => exact ih content
    | put topic p n =>
      obtain ⟨content', hrun, hothers⟩ := ih (content.put ns topic p n)
      exact ⟨content', hrun, fun m hm => (hothers m hm).trans (content.table_put_of_ne hm topic p n)⟩
    | list => exact ih content

/-- A file opens under every name but the empty one. -/
theorem reopen_file (ns : String) {m : String} (content : CursorFile) (h : m ≠ "") :
    (⟨.file ns content, false, false⟩ : Cursors).reopen m = .ok ⟨.file m content, false, false⟩ := by
  have hempty : m.isEmpty = false := by simpa using h
  simp only [reopen, CursorFile.checkNamespace, hempty]
  rfl

/-- From tables that hold what earlier sessions have put, every session is answered rightly. -/
theorem sessions_right (ns₀ : String) {content : CursorFile} {earlier : String → List CursorCall}
    (hheld : ∀ ns, TableHolds (content.table ns) (earlier ns)) (hearlier : ∀ ns, ∀ q ∈ earlier ns, q.Proper)
    {history : List CursorSession} (hns : ∀ s ∈ history, s.ns ≠ "") (hq : ∀ s ∈ history, ∀ q ∈ s.calls, q.Proper) :
    ∃ answers, (⟨.file ns₀ content, false, false⟩ : Cursors).sessions history = .ok answers ∧
      ∀ ns, RightAnswers (earlier ns) (callsUnder ns history) (answersUnder ns answers) := by
  induction history generalizing ns₀ content earlier with
  | nil => exact ⟨[], rfl, fun ns => .nil _⟩
  | cons s history ih =>
    obtain ⟨content', hrun, hothers⟩ := calls_elsewhere s.ns content s.calls
    have hopen : (⟨.file s.ns content, false, false⟩ : Cursors).Hold (earlier s.ns) := ⟨⟨rfl, rfl⟩, hheld s.ns⟩
    obtain ⟨hright, hend⟩ := hopen.calls (hearlier s.ns) (hq s List.mem_cons_self)
    rw [hrun] at hend
    -- what the sessions have put so far: this one adds to the calls of its own namespace
    let later (ns : String) : List CursorCall := if s.ns = ns then earlier ns ++ s.calls else earlier ns
    have hheld' (ns : String) : TableHolds (content'.table ns) (later ns) := by
      by_cases h : s.ns = ns
      · subst h
        simpa [later] using hend.kept
      · simp only [later, if_neg h, hothers ns (Ne.symm h)]
        exact hheld ns
    have hlater (ns : String) : ∀ q ∈ later ns, q.Proper := by
      intro q hmem
      by_cases h : s.ns = ns
      · simp only [later, if_pos h, List.mem_append] at hmem
        exact hmem.elim (hearlier ns q) (hq s List.mem_cons_self q)
      · simp only [later, if_neg h] at hmem
        exact hearlier ns q hmem
    obtain ⟨answers, hanswers, hall⟩ := ih s.ns hheld' hlater (fun r hr => hns r (List.mem_cons_of_mem s hr))
      fun r hr => hq r (List.mem_cons_of_mem s hr)
    refine ⟨(s.ns, ((⟨.file s.ns content, false, false⟩ : Cursors).calls s.calls).2) :: answers, ?_, fun ns => ?_⟩
    · rw [sessions, reopen_file ns₀ content (hns s List.mem_cons_self)]
      simp only [bind, Except.bind, hrun, hanswers]
    · have hrest := hall ns
      by_cases h : s.ns = ns
      · subst h
        simp only [later, if_true] at hrest
        simpa [callsUnder, answersUnder] using hright.append hrest
      · simp only [later, if_neg h] at hrest
        simpa [callsUnder, answersUnder, h] using hrest

end Cursors

open Cursors

/-- A cursor file refines cursors in memory. It is opened any number of times, each time under some namespace, and calls of
all kinds are made, for any topics and for partitions that are not negative. Then the calls of each namespace get exactly the
answers that cursors in memory give to them alone; and these are the right ones. -/
theorem sessions_refine_memory (ns₀ : String) (history : List CursorSession) (hns : ∀ s ∈ history, s.ns ≠ "")
    (hq : ∀ s ∈ history, ∀ q ∈ s.calls, q.Proper) :
    ∃ answers, (⟨.file ns₀ [], false, false⟩ : Cursors).sessions history = .ok answers ∧
      ∀ ns, answersUnder ns answers = ((⟨.memory [], false, false⟩ : Cursors).calls (callsUnder ns history)).2 ∧
        RightAnswers [] (callsUnder ns history) (answersUnder ns answers) := by
  have hfile (ns : String) : TableHolds (CursorFile.table [] ns) [] := TableHolds.nil
  have hmemory : (⟨.memory [], false, false⟩ : Cursors).Hold [] := ⟨⟨rfl, rfl⟩, EntriesHold.nil⟩
  have hnone : ∀ q ∈ ([] : List CursorCall), q.Proper := fun _ h => absurd h List.not_mem_nil
  obtain ⟨answers, hanswers, hright⟩ := sessions_right ns₀ hfile (fun _ => hnone) hns hq
  refine ⟨answers, hanswers, fun ns => ⟨?_, hright ns⟩⟩
  have hproper : ∀ q ∈ callsUnder ns history, q.Proper := by
    intro q hmem
    obtain ⟨s, hs, hsq⟩ := List.mem_flatMap.1 hmem
    exact hq s (List.mem_of_mem_filter hs) q hsq
  exact (hright ns).unique (hmemory.calls hnone hproper).1

namespace TwoNamespaces

/-- Topics that are empty, end in a digit or hold hyphens, put under one namespace, then another, then the first again. -/
def history : List CursorSession :=
  [⟨"kafka", [.put "a-1" 2 7, .put "a" 12 1, .put "" 0 5, .put "a-1" 10 3]⟩,
    ⟨"other", [.get "a-1" 2, .put "a-1" 2 9, .list]⟩,
    ⟨"kafka", [.get "a-1" 2, .put "a-1" 2 8, .get "a" 1, .list]⟩]

end TwoNamespaces

open TwoNamespaces in
/-- Keys that come in another order than their topics and partitions are listed in order, and the namespaces stay apart. -/
theorem sessions_refine_memory_two_namespaces :
    (∀ s ∈ history, s.ns ≠ "") ∧ (∀ s ∈ history, ∀ q ∈ s.calls, q.Proper) ∧
    ∃ answers, (⟨.file "kafka" [], false, false⟩ : Cursors).sessions history = .ok answers ∧
      answersUnder "kafka" answers = [.kept, .kept, .kept, .kept, .offset (some 7), .kept, .offset none,
        .listing [⟨"", 0, 5⟩, ⟨"a", 12, 1⟩, ⟨"a-1", 2, 8⟩, ⟨"a-1", 10, 3⟩]] ∧
      ∀ ns, answersUnder ns answers = ((⟨.memory [], false, false⟩ : Cursors).calls (callsUnder ns history)).2 ∧
        RightAnswers [] (callsUnder ns history) (answersUnder ns answers) := by
  have hns : ∀ s ∈ history, s.ns ≠ "" := by decide
  have hq : ∀ s ∈ history, ∀ q ∈ s.calls, q.Proper := by
    simp [history, CursorCall.Proper, IsPartition]
  obtain ⟨answers, hanswers, hall⟩ := sessions_refine_memory "kafka" history hns hq
  refine ⟨hns, hq, answers, hanswers, ?_, hall⟩
  have hlisting : ([⟨"a-1", 2, 8⟩, ⟨"a", 12, 1⟩, ⟨"", 0, 5⟩, ⟨"a-1", 10, 3⟩] : List Cursor).mergeSort Cursor.le =
      [⟨"", 0, 5⟩, ⟨"a", 12, 1⟩, ⟨"a-1", 2, 8⟩, ⟨"a-1", 10, 3⟩] := by
    simp +decide [List.mergeSort, List.MergeSort.Internal.splitInTwo, Cursor.le]
  rw [(hall "kafka").1, ← hlisting]
  rfl

end AuditTrail
