import Proctor.Archive
import Proctor.Archive.Image

/-!
# Parts of images

A part of an image is a byte string that stands in it at some place. A part that is put together
stands in an image if and only if its parts do, one after the other. So what is read at a place can
be seen from the way in which the image was put together: numbers, marks and pieces.
-/

namespace Proctor

namespace Archive

@[simp] theorem length_littleEndian (width n : Nat) :
  (littleEndian width n).length = width
  := by
  induction width generalizing n with
  | zero => rfl
  | succ width ih => rw [littleEndian, List.length_cons, ih]

@[simp] theorem length_blockHead (last : Bool) (size : Nat) :
  (blockHead last size).length = 5
  := by simp [blockHead]

end Archive

namespace Image

variable {image : Image} {place : Nat}

/-- A part stands in an image at a place. -/
def Has (image : Image) (place : Nat) (part : Bytes) : Prop :=
  ∃ before after, image.toList = before ++ part ++ after ∧ before.length = place

theorem has_toArray (part : Bytes) :
  Has part.toArray 0 part
  := ⟨[], [], by simp, rfl⟩

theorem has_append_iff {first second : Bytes} :
  image.Has place (first ++ second)
    ↔ image.Has place first ∧ image.Has (place + first.length) second
  := by
  constructor
  · rintro ⟨before, after, himage, rfl⟩
    refine ⟨⟨before, second ++ after, ?_, rfl⟩, before ++ first, after, ?_, ?_⟩
    · simp [himage]
    · simp [himage]
    · rw [List.length_append]
  · rintro ⟨⟨before, rest, himage, rfl⟩, before', after, himage', hlength⟩
    -- What comes before the second part is what comes before the first, and the first.
    rw [himage, List.append_assoc before'] at himage'
    rw [← List.length_append] at hlength
    obtain ⟨rfl, rfl⟩ := List.append_inj himage' hlength.symm
    refine ⟨before, after, ?_, rfl⟩
    simp [himage]

theorem has_cons_iff {b : UInt8} {part : Bytes} :
  image.Has place (b :: part) ↔ image.Has place [b] ∧ image.Has (place + 1) part
  := by rw [← List.singleton_append, has_append_iff, List.length_singleton]

namespace Has

theorem size_le {part : Bytes} (h : image.Has place part) :
  place + part.length ≤ image.size
  := by
  obtain ⟨before, after, himage, rfl⟩ := h
  rw [← Array.length_toList, himage, List.length_append, List.length_append]
  apply Nat.le_add_right

theorem getElem?_eq {b : UInt8} (h : image.Has place [b]) :
  image[place]? = some b
  := by
  obtain ⟨before, after, himage, rfl⟩ := h
  rw [← Array.getElem?_toList, himage, List.append_assoc,
    List.getElem?_append_right (Nat.le_refl _), Nat.sub_self]
  rfl

/-- A piece that is taken out at the place of a part is that part. -/
theorem extract_eq {part : Bytes} (h : image.Has place part) :
  (image.extract place (place + part.length)).toList = part
  := by
  obtain ⟨before, after, himage, rfl⟩ := h
  rw [Array.toList_extract, himage]
  simp

theorem bytesAt_eq {part : Bytes} (h : image.Has place part) :
  image.bytesAt place part.length = part
  := h.extract_eq

/-- A number is read from the bytes that it was written in, if these are enough. -/
theorem number_eq {width n : Nat} (h : image.Has place (Archive.littleEndian width n))
    (hn : n < Nat.pow 256 width) :
  image.number width place = n
  := by
  induction width generalizing place n with
  | zero => rw [number, Nat.lt_one_iff.mp hn]
  | succ width ih =>
      obtain ⟨hfirst, hrest⟩ := has_cons_iff.mp h
      have hdiv : n / 256 < Nat.pow 256 width := (Nat.div_lt_iff_lt_mul (by decide)).mpr hn
      rw [number, ih hrest hdiv, Array.getD_eq_getD_getElem?, hfirst.getElem?_eq, Option.getD_some,
        UInt8.toNat_ofNat']
      apply Nat.mod_add_div

theorem hasMark_eq {mark : Bytes} (h : image.Has place mark) :
  image.hasMark mark place = true
  := by
  induction mark generalizing place with
  | nil => rfl
  | cons b mark ih =>
      obtain ⟨hfirst, hrest⟩ := has_cons_iff.mp h
      simp [hasMark, hfirst.getElem?_eq, ih hrest]

end Has

/-! ### The places of marks -/

theorem placesBelow_eq (mark : Bytes) (bound : Nat) (found : List Nat) :
  image.placesBelow mark bound found = (List.range bound).filter (image.hasMark mark) ++ found
  := by
  induction bound generalizing found with
  | zero => rfl
  | succ bound ih =>
      rw [placesBelow, ih, List.range_succ, List.filter_append, List.append_assoc]
      split <;> simp [*]

theorem places_eq (image : Image) (mark : Bytes) :
  image.places mark = (List.range image.size).filter (image.hasMark mark)
  := by
  rw [places, placesBelow_eq, List.append_nil]

end Image

end Proctor
