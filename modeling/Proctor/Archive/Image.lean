import Proctor.Bytes

/-!
# Images

The bytes of a file, to be read at any place. The formats that are read from an image tell where
their parts are, and mark the beginnings of the parts by certain bytes.
-/

namespace Proctor

/-- The bytes of a file, by place. -/
abbrev Image := Array UInt8

namespace Image

/-- The bytes from a place on, at most `count` of them. -/
def bytesAt (image : Image) (place count : Nat) : Bytes :=
  (image.extract place (place + count)).toList

/-- The number in the `width` bytes from a place on, the least significant byte first. Bytes beyond
the end count as zero. -/
def number (image : Image) : (width place : Nat) → Nat
  | 0, _ => 0
  | width + 1, place => (image.getD place 0).toNat + 256 * image.number width (place + 1)

/-- Whether a mark stands at a place. -/
def hasMark (image : Image) : (mark : Bytes) → (place : Nat) → Bool
  | [], _ => true
  | b :: mark, place =>
    match image[place]? with
    | some c => c = b && image.hasMark mark (place + 1)
    | none => false

/-- The places of a mark below a bound, in their order, before those already found. -/
def placesBelow (image : Image) (mark : Bytes) : (bound : Nat) → (found : List Nat) → List Nat
  | 0, found => found
  | place + 1, found =>
    image.placesBelow mark place (if image.hasMark mark place then place :: found else found)

/-- The places of a mark, in their order. -/
def places (image : Image) (mark : Bytes) : List Nat :=
  image.placesBelow mark image.size []

end Image

end Proctor
