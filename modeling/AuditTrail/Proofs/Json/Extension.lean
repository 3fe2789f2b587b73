import AuditTrail.Event
import AuditTrail.Proofs.Json.Objects

/-!
# What producers may change in their payloads

A producer may write the members of a row change, of its images or of a marker in any order, and add members that the record does not
have. A payload that is an object decodes to the same row change or marker as each payload whose object extends it, and to none if it
has a member of the record twice. Whatever payload decodes and opens with a brace is such an object.
-/

namespace AuditTrail

open Json
open Outcome

/-! ## The fields of the records -/

theorem Images.separate_shape : Images.shape.Separate where
  sound := by
    simp only [shape, List.forall_mem_cons]
    exact ⟨Field.sound_ofCodec Codec.faithful_optional fun _ _ => rfl, Field.sound_ofCodec Codec.faithful_optional fun _ _ => rfl, nofun⟩
  apart := by
    simp only [shape, List.pairwise_cons, List.forall_mem_cons]
    exact ⟨⟨Field.apart_ofCodec (fun _ _ => rfl) (fun _ _ => rfl) fun _ _ _ => rfl, nofun⟩, ⟨nofun, .nil⟩⟩

theorem Images.faithful_codec : Images.codec.Faithful := Images.separate_shape.faithful write

theorem RowChange.separate_shape : RowChange.shape.Separate where
  sound := by
    simp only [shape, List.forall_mem_cons]
    exact ⟨Field.sound_ofCodec Codec.faithful_string fun _ _ => rfl, Field.sound_ofCodec Codec.faithful_string fun _ _ => rfl,
      Field.sound_ofCodec (Codec.faithful_variants RowAction.variants) fun _ _ => rfl,
      Field.sound_ofCodec Codec.faithful_string fun _ _ => rfl, Field.sound_ofCodec Codec.faithful_seconds fun _ _ => rfl,
      Field.sound_ofCodec Images.faithful_codec fun _ _ => rfl, nofun⟩
  apart := by
    simp only [shape, List.pairwise_cons, List.forall_mem_cons]
    refine ⟨⟨?_, ?_, ?_, ?_, ?_, nofun⟩, ⟨?_, ?_, ?_, ?_, nofun⟩, ⟨?_, ?_, ?_, nofun⟩, ⟨?_, ?_, nofun⟩, ⟨?_, nofun⟩, nofun, .nil⟩
    all_goals exact Field.apart_ofCodec (fun _ _ => rfl) (fun _ _ => rfl) fun _ _ _ => rfl

theorem Marker.separate_shape : Marker.shape.Separate where
  sound := by
    simp only [shape, List.forall_mem_cons]
    exact ⟨Field.sound_ofCodec Codec.faithful_string fun _ _ => rfl, Field.sound_ofCodec Codec.faithful_string fun _ _ => rfl,
      Field.sound_ofCodec Codec.faithful_seconds fun _ _ => rfl, nofun⟩
  apart := by
    simp only [shape, List.pairwise_cons, List.forall_mem_cons]
    refine ⟨⟨?_, ?_, nofun⟩, ⟨?_, nofun⟩, nofun, .nil⟩
    all_goals exact Field.apart_ofCodec (fun _ _ => rfl) (fun _ _ => rfl) fun _ _ _ => rfl

namespace RowChange

/-- Two members say the same, or the object of images in the one extends the object of images in the other. -/
def SameMember (m m' : Named) : Prop :=
  m.Same m' ∨ m.name = "data" ∧ m'.name = "data" ∧
    ∃ i i' : Object, m.item.value = i.text ∧ m'.item.value = i'.text ∧ i'.Extends Images.shape.known Named.Same i

/-- A row change decodes from an object just if its draft does. -/
theorem decode_payload {o : Object} {before after : Blanks} {e : RowChange} :
    decode (o.payload before after) = .ok e ↔ shape.read greatestDepth o.text = .ok (e, []) := by
  rw [decode, mapError_eq_ok, Object.payload]
  exact (separate_shape.faithful write).decode_eq_ok_iff o.isValue_text before after

/-- A member that says the same as another one, by its images too, does the same to a draft. -/
theorem fill_sameMember {depth : Nat} {m m' : Named} {d d' : Draft} (h : SameMember m m') (hfill : shape.Fill depth d m.toMember d') :
    shape.Fill depth d m'.toMember d' := by
  rcases h with h | ⟨hname, hname', i, i', hi, hi', hext⟩
  · exact Shape.fill_same h hfill
  · rw [Shape.fill_iff, hname, Shape.fillAs_known rfl] at hfill
    rw [Shape.fill_iff, hname', Shape.fillAs_known rfl]
    obtain ⟨hunset, set, hset, rfl⟩ := hfill
    refine ⟨hunset, set, ?_, rfl⟩
    obtain ⟨⟨images, s⟩, hread, heq⟩ := map_eq_ok.1 hset
    cases heq
    rw [hi] at hread
    exact map_eq_ok.2 ⟨_, hi' ▸ Shape.read_extends Images.separate_shape (fun h => Shape.fill_same h) hext hread, rfl⟩

/-- The images of an object are read on the way. -/
theorem exists_images {depth : Nat} {o : Object} {e : RowChange} (h : shape.read (depth + 1) o.text = .ok (e, [])) {m : Named}
    (hm : m ∈ o.members) (hname : m.name = "data") : ∃ depth images, Images.shape.read depth m.item.value = .ok (images, []) := by
  obtain ⟨d, hfold, -⟩ := (Shape.read_text separate_shape).1 h
  obtain ⟨x, y, hfill⟩ := hfold.exists_step (List.mem_map_of_mem hm)
  rw [Shape.fill_iff, hname, Shape.fillAs_known rfl] at hfill
  obtain ⟨-, set, hset, -⟩ := hfill
  obtain ⟨⟨images, s⟩, hread, heq⟩ := map_eq_ok.1 hset
  cases heq
  exact ⟨depth, images, hread⟩

/-- A payload that opens with a brace and decodes is that of an object, and so are its images if they open with one. -/
theorem exists_payload {s : Octets} {e : RowChange} (h : decode s = .ok e) (hbrace : OpensObject s) :
    ∃ (o : Object) (before after : Blanks), s = o.payload before after ∧
      ∀ m ∈ o.members, m.name = "data" → OpensObject m.item.value → ∃ i : Object, m.item.value = i.text := by
  obtain ⟨o, before, after, rfl⟩ := Shape.exists_payload separate_shape (mapError_eq_ok.1 h) hbrace
  refine ⟨o, before, after, rfl, fun m hm hname himages => ?_⟩
  obtain ⟨depth, images, hread⟩ := exists_images (decode_payload.1 h) hm hname
  exact Shape.exists_object Images.separate_shape m.isValue himages hread

/-- An object that repeats a known member, or whose images do, decodes to no row change. -/
theorem not_decode_of_repeats {o : Object} (h : o.Repeats shape.known ∨ ∃ m ∈ o.members, m.name = "data" ∧
      ∃ i : Object, m.item.value = i.text ∧ i.Repeats Images.shape.known) (before after : Blanks) (e : RowChange) :
    decode (o.payload before after) ≠ .ok e := by
  rw [ne_eq, decode_payload]
  rcases h with h | ⟨m, hm, hname, i, hi, hrepeats⟩
  · exact Shape.not_read_of_repeats separate_shape h
  · intro hread
    obtain ⟨depth, images, himages⟩ := exists_images hread hm hname
    rw [hi] at himages
    exact Shape.not_read_of_repeats Images.separate_shape hrepeats himages

end RowChange

/-- A marker decodes from an object just if its draft does. -/
theorem Marker.decode_payload {o : Object} {before after : Blanks} {m : Marker} :
    decode (o.payload before after) = .ok m ↔ shape.read greatestDepth o.text = .ok (m, []) := by
  rw [decode, mapError_eq_ok, Object.payload]
  exact (separate_shape.faithful write).decode_eq_ok_iff o.isValue_text before after

/-- Row changes and markers decode from the members of an object in any order, those of its images too, and whatever other members
there are. No object with a known member twice decodes, and no row change from one whose images have such a member. Each payload that
decodes and opens with a brace is that of an object. -/
theorem decode_extends :
    (∀ (s : Octets) (e : RowChange), RowChange.decode s = .ok e → OpensObject s →
      ∃ (o : Object) (before after : Blanks), s = o.payload before after ∧
        ∀ m ∈ o.members, m.name = "data" → OpensObject m.item.value → ∃ i : Object, m.item.value = i.text) ∧
    (∀ (s : Octets) (m : Marker), Marker.decode s = .ok m → OpensObject s →
      ∃ (o : Object) (before after : Blanks), s = o.payload before after) ∧
    (∀ (o o' : Object) (before after before' after' : Blanks) (e : RowChange),
      o'.Extends RowChange.shape.known RowChange.SameMember o → RowChange.decode (o.payload before after) = .ok e →
        RowChange.decode (o'.payload before' after') = .ok e) ∧
    (∀ (o o' : Object) (before after before' after' : Blanks) (m : Marker),
      o'.Extends Marker.shape.known Named.Same o → Marker.decode (o.payload before after) = .ok m →
        Marker.decode (o'.payload before' after') = .ok m) ∧
    (∀ (o : Object) (before after : Blanks),
      (o.Repeats RowChange.shape.known ∨ ∃ m ∈ o.members, m.name = "data" ∧
        ∃ i : Object, m.item.value = i.text ∧ i.Repeats Images.shape.known) →
        ∃ error, RowChange.decode (o.payload before after) = .error error) ∧
    ∀ (o : Object) (before after : Blanks), o.Repeats Marker.shape.known →
      ∃ error, Marker.decode (o.payload before after) = .error error := by
  refine ⟨fun s e => RowChange.exists_payload, fun s m h => Shape.exists_payload Marker.separate_shape (mapError_eq_ok.1 h),
    fun o o' _ _ _ _ e hext h => ?_, fun o o' _ _ _ _ m hext h => ?_, fun o before after h => ?_, fun o _ _ h => ?_⟩
  · rw [RowChange.decode_payload] at h ⊢
    exact Shape.read_extends RowChange.separate_shape RowChange.fill_sameMember hext h
  · rw [Marker.decode_payload] at h ⊢
    exact Shape.read_extends Marker.separate_shape (fun h => Shape.fill_same h) hext h
  · exact exists_error_of_ne_ok (RowChange.not_decode_of_repeats h before after)
  · exact exists_error_of_ne_ok fun m => Marker.decode_payload.not.2 (Shape.not_read_of_repeats Marker.separate_shape h)

/-! ### A payload in two forms -/

namespace Sample

/-- A string of characters that stand for themselves. -/
def quoted (s : String) : Octets := Octets.ofAscii '\x22' :: (Utf8.encode s ++ [Octets.ofAscii '\x22'])

theorem isValue_quoted {s : String} (h : Plain (Utf8.encode s)) : IsValue (quoted s) := .string (means_plain h).isBody

theorem isNumber_one : IsNumber (ascii "1") := @IsNumber.parts [] (ascii "1") [] [] (.inl rfl) (by decide +kernel) .none .none

/-- A number too large for a reader that keeps it. -/
theorem isNumber_huge : IsNumber (ascii "1e999") :=
  @IsNumber.parts [] (ascii "1") [] (ascii "e999") (.inl rfl) (by decide +kernel) .none
    (@IsExponent.digits (Octets.ofAscii 'e') [] (ascii "999") (.inl rfl) (.inl rfl) (by decide +kernel))

/-- A sequence of one string that spells no text. -/
def unspelled : Octets := sequenceText [⟨noBlanks, quoted "\\ud800", noBlanks⟩] noBlanks

theorem isValue_unspelled : IsValue unspelled :=
  .sequence (List.forall_mem_singleton.2 (.string (.code (by decide +kernel) (by decide +kernel) (by decide +kernel) (by decide +kernel) .nil)))

def gtid : Named := .plain "gtid" (quoted "g") (by decide +kernel) (isValue_quoted (by decide +kernel))

/-- The same with an escape in its name and with blanks. -/
def escapedGtid : Named where
  before := ⟨ascii " ", by decide +kernel⟩
  body := ascii "g\\u0074id"
  gap := ⟨ascii " ", by decide +kernel⟩
  item := ⟨noBlanks, quoted "g", noBlanks⟩
  name := "gtid"
  spells := ⟨_, .plain (by decide +kernel) (by decide +kernel) (by decide +kernel)
    (.code ⟨0, 0, 7, 4, by decide +kernel, by decide +kernel, by decide +kernel, by decide +kernel, rfl⟩ (.inl (by decide +kernel)) (means_plain (by decide +kernel))), by decide +kernel⟩
  isValue := isValue_quoted (by decide +kernel)

def images : Object where
  members := [.plain "before" (ascii "null") (by decide +kernel) (.literal (.inl rfl)),
    .plain "after" (ascii "1") (by decide +kernel) (.number isNumber_one)]
  gap := noBlanks

/-- The images in the other order, after a member that they do not have. -/
def imagesReversed : Object where
  members := (images.members ++ [Named.plain "x" unspelled (by decide +kernel) isValue_unspelled]).reverse
  gap := noBlanks

def imagesTwice : Object := ⟨images.members ++ images.members, noBlanks⟩

/-- A row change with the name of its transaction and its images in some form. -/
def change (gtid : Named) (images : Object) : List Named :=
  [.plain "db" (quoted "d") (by decide +kernel) (isValue_quoted (by decide +kernel)),
    .plain "table" (quoted "t") (by decide +kernel) (isValue_quoted (by decide +kernel)),
    .plain "action" (quoted "insert") (by decide +kernel) (isValue_quoted (by decide +kernel)), gtid,
    .plain "time" (ascii "1") (by decide +kernel) (.number isNumber_one),
    .plain "data" images.text (by decide +kernel) images.isValue_text]

/-- A marker with the name of its transaction in some form. -/
def marker (gtid : Named) : List Named :=
  [gtid, .plain "context" (quoted "c") (by decide +kernel) (isValue_quoted (by decide +kernel)),
    .plain "time" (ascii "1") (by decide +kernel) (.number isNumber_one)]

/-- What neither record has. -/
def added : List Named := [.plain "before" (ascii "1e999") (by decide +kernel) (.number isNumber_huge)]

theorem imagesReversed_extends : imagesReversed.Extends Images.shape.known Named.Same images :=
  ⟨images.members, _, .cons ⟨rfl, rfl⟩ (.cons ⟨rfl, rfl⟩ .nil), by decide +kernel, List.reverse_perm _⟩

theorem change_extends : Object.Extends RowChange.shape.known RowChange.SameMember
    ⟨(change escapedGtid imagesReversed ++ added).reverse, noBlanks⟩ ⟨change gtid images, noBlanks⟩ := by
  refine ⟨change escapedGtid imagesReversed, added, ?_, by decide +kernel, List.reverse_perm _⟩
  refine .cons (.inl ⟨rfl, rfl⟩) (.cons (.inl ⟨rfl, rfl⟩) (.cons (.inl ⟨rfl, rfl⟩) (.cons (.inl ⟨rfl, rfl⟩) (.cons (.inl ⟨rfl, rfl⟩) ?_))))
  exact .cons (.inr ⟨rfl, rfl, images, imagesReversed, rfl, rfl, imagesReversed_extends⟩) .nil

theorem marker_extends : Object.Extends Marker.shape.known Named.Same ⟨(marker escapedGtid ++ added).reverse, noBlanks⟩
    ⟨marker gtid, noBlanks⟩ :=
  ⟨marker escapedGtid, added, .cons ⟨rfl, rfl⟩ (.cons ⟨rfl, rfl⟩ (.cons ⟨rfl, rfl⟩ .nil)), by decide +kernel, List.reverse_perm _⟩

/-- A payload of a row change. -/
def changeText : Octets :=
  Utf8.encode ("\x7b\"db\":\"d\",\"table\":\"t\",\"action\":\"insert\",\"gtid\":\"g\",\"time\":1," ++
    "\"data\":\x7b\"before\":null,\"after\":1\x7d\x7d")

/-- The same in the other order and with more members, an escape, blanks, and values that no reader would keep. -/
def reversedText : Octets :=
  Utf8.encode ("\x7b\"before\":1e999,\"data\":\x7b\"x\":[\"\\ud800\"],\"after\":1,\"before\":null\x7d," ++
    "\"time\":1, \"g\\u0074id\" :\"g\",\"action\":\"insert\",\"table\":\"t\",\"db\":\"d\"\x7d")

/-- The same with each image twice. -/
def twiceText : Octets :=
  Utf8.encode ("\x7b\"db\":\"d\",\"table\":\"t\",\"action\":\"insert\",\"gtid\":\"g\",\"time\":1," ++
    "\"data\":\x7b\"before\":null,\"after\":1,\"before\":null,\"after\":1\x7d\x7d")

end Sample

open Sample

/-- Members in the other order and among others, in payloads that are those of objects; and members that come twice. -/
theorem decode_extends_reversed :
    (∃ (o : Object) (before after : Blanks), reversedText = o.payload before after) ∧
    (∃ (o : Object) (before after : Blanks), Utf8.encode " \x7b\"time\":1,\"gtid\":\"g\"\x7d" = o.payload before after) ∧
    (∃ e, RowChange.decode changeText = .ok e ∧ RowChange.decode reversedText = .ok e) ∧
    (∃ m, Marker.decode (Utf8.encode "\x7b\"gtid\":\"g\",\"context\":\"c\",\"time\":1\x7d") = .ok m ∧
      Marker.decode (Utf8.encode "\x7b\"before\":1e999,\"time\":1,\"context\":\"c\", \"g\\u0074id\" :\"g\"\x7d") = .ok m) ∧
    (∃ error, RowChange.decode twiceText = .error error) ∧
    ∃ error, Marker.decode (Utf8.encode "\x7b\"gtid\":\"g\",\"context\":\"c\",\"time\":1, \"g\\u0074id\" :\"g\"\x7d") = .error error := by
  obtain ⟨hchangeObject, hmarkerObject, hchange, hmarker, hchangeTwice, hmarkerTwice⟩ := decode_extends
  have hread : RowChange.decode (Object.payload ⟨change gtid images, noBlanks⟩ noBlanks noBlanks) =
      .ok ⟨"d", "t", .insert, "g", ⟨1, 0⟩, ⟨none, some (.ofInt 1)⟩⟩ := toOption_eq_some.1 (by decide +kernel)
  have hread' : Marker.decode (Object.payload ⟨marker gtid, noBlanks⟩ noBlanks noBlanks) = .ok ⟨"g", "c", ⟨1, 0⟩⟩ :=
    toOption_eq_some.1 (by decide +kernel)
  have hreversed : RowChange.decode reversedText = .ok ⟨"d", "t", .insert, "g", ⟨1, 0⟩, ⟨none, some (.ofInt 1)⟩⟩ :=
    (congrArg RowChange.decode (by decide +kernel)).trans (hchange _ _ _ _ noBlanks noBlanks _ change_extends hread)
  obtain ⟨o, before, after, hpayload, -⟩ := hchangeObject _ _ hreversed (by decide +kernel)
  refine ⟨⟨o, before, after, hpayload⟩,
    hmarkerObject _ ⟨"g", "", ⟨1, 0⟩⟩ (toOption_eq_some.1 (by decide +kernel)) (by decide +kernel),
    ⟨_, (congrArg RowChange.decode (by decide +kernel)).trans hread, hreversed⟩,
    ⟨_, (congrArg Marker.decode (by decide +kernel)).trans hread',
      (congrArg Marker.decode (by decide +kernel)).trans (hmarker _ _ _ _ noBlanks noBlanks _ marker_extends hread')⟩, ?_, ?_⟩
  · obtain ⟨error, h⟩ := hchangeTwice ⟨change gtid imagesTwice, noBlanks⟩ noBlanks noBlanks
      (.inr ⟨_, List.mem_of_getLast? rfl, rfl, imagesTwice, rfl, "after", by decide +kernel, by decide +kernel⟩)
    exact ⟨error, (congrArg RowChange.decode (by decide +kernel)).trans h⟩
  · obtain ⟨error, h⟩ := hmarkerTwice ⟨marker gtid ++ [escapedGtid], noBlanks⟩ noBlanks noBlanks ⟨"gtid", by decide +kernel, by decide +kernel⟩
    exact ⟨error, (congrArg Marker.decode (by decide +kernel)).trans h⟩

end AuditTrail
