import Proctor.Archive.Image

/-!
# Inflation

The contents of a deflate stream. The stream is a string of bits, the least significant bit of each
byte first, and consists of blocks: stored bytes, or symbols in a prefix code. A symbol is a byte,
the end of the block, or the length of a copy of earlier contents, which the distance to them
follows. The code of a block is fixed, or is given by the lengths of its words at the beginning of
the block.

What is read from a stream is read at a position, the number of bits before it.
-/

namespace Proctor.Inflate

/-- The bit of a stream at a position. -/
def bit? (stream : Image) (position : Nat) : Option Bool :=
  stream[position / 8]?.map fun b => b.toNat.testBit (position % 8)

/-- The number in the next `count` bits, the least significant first. -/
def number? (stream : Image) : (count position : Nat) → Option Nat
  | 0, _ => some 0
  | count + 1, position =>
    match bit? stream position, number? stream count (position + 1) with
    | some bit, some n => some (2 * n + bit.toNat)
    | _, _ => none

/-- The number of bits of a stream. -/
def length (stream : Image) : Nat :=
  8 * stream.size

/-! ### Prefix codes -/

/-- A prefix code: for each length of a word, from one on, the symbols whose words have that length,
in the order of their words. -/
abbrev Code := List (Array Nat)

/-- The greatest length of a word. -/
def wordLimit : Nat := 15

/-- The code in which the symbols have words of the given lengths; those of length zero have
none. -/
def codeOfLengths (lengths : List Nat) : Code :=
  let add (code : Array (Array Nat)) : Nat × Nat → Array (Array Nat)
    | (0, _) => code
    | (n + 1, symbol) => code.modify n (·.push symbol)
  (lengths.zipIdx.foldl add (Array.replicate wordLimit #[])).toList

/-- How much of the possible words a code leaves without meaning, in words of the greatest length;
negative if words get more than one meaning. -/
def gap (code : Code) : Int :=
  code.zipIdx.foldl
    (fun left (symbols, n) => left - symbols.size * Nat.pow 2 (wordLimit - (n + 1)))
    (Nat.pow 2 wordLimit)

/-- Whether every string of bits begins with exactly one word of a code. -/
def isComplete (code : Code) : Bool :=
  gap code = 0

/-- The number of words of a code. -/
def size (code : Code) : Nat :=
  (code.map Array.size).foldl (· + ·) 0

/-- Whether a code can be used in a block: it is complete, or it has no word, or one of a single
bit. -/
def isUsable (code : Code) : Bool :=
  isComplete code || size code = 0 || (size code = 1 && size (code.take 1) = 1)

/-- The symbol of the next word, and the position after it. The words of one length that are symbols
come before the beginnings of longer words; `offset` is the place of the bits read so far among the
latter. -/
def symbol? (stream : Image) : Code → (offset position : Nat) → Option (Nat × Nat)
  | [], _, _ => none
  | symbols :: code, offset, position =>
    match bit? stream position with
    | none => none
    | some bit =>
      let place := 2 * offset + bit.toNat
      match symbols[place]? with
      | some symbol => some (symbol, position + 1)
      | none => symbol? stream code (place - symbols.size) (position + 1)

/-! ### Blocks -/

/-- The two codes of a block: for bytes and lengths, and for distances. -/
structure Codes where
  literals : Code
  distances : Code

/-- The codes of a block that gives none. -/
def fixedCodes : Codes where
  literals := codeOfLengths (List.replicate 144 8 ++ List.replicate 112 9 ++
    List.replicate 24 7 ++ List.replicate 8 8)
  distances := codeOfLengths (List.replicate 30 5)

/-- A range of numbers: its least one, and the number of bits that give what is to be added. -/
abbrev Range := Nat × Nat

/-- The lengths of copies, by symbol from 257 on. -/
def lengthRanges : Array Range :=
  #[(3, 0), (4, 0), (5, 0), (6, 0), (7, 0), (8, 0), (9, 0), (10, 0), (11, 1), (13, 1), (15, 1),
    (17, 1), (19, 2), (23, 2), (27, 2), (31, 2), (35, 3), (43, 3), (51, 3), (59, 3), (67, 4),
    (83, 4), (99, 4), (115, 4), (131, 5), (163, 5), (195, 5), (227, 5), (258, 0)]

/-- The distances of copies, by symbol. -/
def distanceRanges : Array Range :=
  #[(1, 0), (2, 0), (3, 0), (4, 0), (5, 1), (7, 1), (9, 2), (13, 2), (17, 3), (25, 3), (33, 4),
    (49, 4), (65, 5), (97, 5), (129, 6), (193, 6), (257, 7), (385, 7), (513, 8), (769, 8),
    (1025, 9), (1537, 9), (2049, 10), (3073, 10), (4097, 11), (6145, 11), (8193, 12), (12289, 12),
    (16385, 13), (24577, 13)]

/-- The number that a symbol and the bits after it give, and the position after those. -/
def ranged? (stream : Image) (ranges : Array Range) (symbol position : Nat) :
    Option (Nat × Nat) := do
  let (least, extra) ← ranges[symbol]?
  let n ← number? stream extra position
  return (least + n, position + extra)

/-- Contents with a copy of what stands `distance` before their end; the copy may overlap with
itself. Zeros stand before the beginning. -/
def copy (contents : Array UInt8) (distance : Nat) : (length : Nat) → Array UInt8
  | 0 => contents
  | length + 1 =>
    let b := if contents.size < distance then 0 else contents.getD (contents.size - distance) 0
    copy (contents.push b) distance length

/-- The symbol at which a block ends. -/
def endOfBlock : Nat := 256

/-- Read the symbols of a block up to its end, after the contents so far, and give the position
after the block. Each symbol takes at least one bit, so that the number of bits of the stream is
enough for `fuel`. -/
def symbols? (stream : Image) (codes : Codes) : (fuel : Nat) → (contents : Array UInt8) →
    (position : Nat) → Option (Array UInt8 × Nat)
  | 0, _, _ => none
  | fuel + 1, contents, position =>
    match symbol? stream codes.literals 0 position with
    | none => none
    | some (symbol, position) =>
      if symbol < endOfBlock then
        symbols? stream codes fuel (contents.push (UInt8.ofNat symbol)) position
      else if symbol = endOfBlock then some (contents, position)
      else
        match ranged? stream lengthRanges (symbol - endOfBlock - 1) position with
        | none => none
        | some (length, position) =>
          match symbol? stream codes.distances 0 position with
          | none => none
          | some (symbol, position) =>
            match ranged? stream distanceRanges symbol position with
            | none => none
            | some (distance, position) =>
              symbols? stream codes fuel (copy contents distance length) position

/-- The order in which the lengths are given of the words of the code for lengths. -/
def lengthOrder : List Nat :=
  [16, 17, 18, 0, 8, 7, 9, 6, 10, 5, 11, 4, 12, 3, 13, 2, 14, 1, 15]

/-- Some numbers of the same number of bits. -/
def numbers? (stream : Image) (width : Nat) : (count position : Nat) → Option (List Nat)
  | 0, _ => some []
  | count + 1, position => do
    let n ← number? stream width position
    return n :: (← numbers? stream width count (position + width))

/-- Read `count` lengths of words in a code, after those already read, which are in reverse order,
and give the position after them. Three symbols stand for repetitions: of the last length, and of
zeros. Each symbol gives at least one length, so that `count + 1` is enough for `fuel`. -/
def lengths? (stream : Image) (code : Code) (count : Nat) : (fuel : Nat) → (lengths : List Nat) →
    (position : Nat) → Option (List Nat × Nat)
  | 0, _, _ => none
  | fuel + 1, lengths, position =>
    if count ≤ lengths.length then
      if lengths.length = count then some (lengths.reverse, position) else none
    else
      match symbol? stream code 0 position with
      | none => none
      | some (symbol, position) =>
        if symbol < 16 then lengths? stream code count fuel (symbol :: lengths) position
        else
          match do
            let repeated ← if symbol = 16 then lengths.head? else some 0
            let ranges := #[(3, 2), (3, 3), (11, 7)]
            let (times, position) ← ranged? stream ranges (symbol - 16) position
            return (List.replicate times repeated, position) with
          | none => none
          | some (more, position) => lengths? stream code count fuel (more ++ lengths) position

/-- The number of symbols for bytes, the end of a block and lengths. -/
def literalLimit : Nat := endOfBlock + 1 + lengthRanges.size

/-- The codes at the beginning of a block that gives them, and the position after them. -/
def givenCodes? (stream : Image) (position : Nat) : Option (Codes × Nat) := do
  let literals := (← number? stream 5 position) + 257
  let distances := (← number? stream 5 (position + 5)) + 1
  guard (literals ≤ literalLimit && distances ≤ distanceRanges.size)
  let given := (← number? stream 4 (position + 10)) + 4
  let ordered ← numbers? stream 3 given (position + 14)
  let table := lengthOrder.zip ordered
  let code := codeOfLengths ((List.range 19).map fun symbol => (table.lookup symbol).getD 0)
  guard (isComplete code)
  let count := literals + distances
  let (lengths, position) ← lengths? stream code count (count + 1) [] (position + 14 + 3 * given)
  let codes : Codes :=
    ⟨codeOfLengths (lengths.take literals), codeOfLengths (lengths.drop literals)⟩
  guard (isUsable codes.literals && isUsable codes.distances)
  return (codes, position)

/-- Read stored bytes, which begin at the next whole byte with their number and its complement. -/
def stored? (stream : Image) (contents : Array UInt8) (position : Nat) :
    Option (Array UInt8 × Nat) := do
  let place := (position + 7) / 8
  let size ← number? stream 16 (8 * place)
  let complement ← number? stream 16 (8 * place + 16)
  let stop := place + 4 + size
  if size + complement = 0xFFFF ∧ stop ≤ stream.size then
    return (contents ++ stream.extract (place + 4) stop, 8 * stop)
  else none

/-- Read one block, given its kind. -/
def block? (stream : Image) (kind : Nat) (contents : Array UInt8) (position : Nat) :
    Option (Array UInt8 × Nat) :=
  if kind = 0 then stored? stream contents position
  else if kind = 1 then symbols? stream fixedCodes (length stream) contents position
  else if kind = 2 then
    match givenCodes? stream position with
    | some (codes, position) => symbols? stream codes (length stream) contents position
    | none => none
  else none

/-- Read blocks up to the last one. Each takes at least one bit. -/
def blocks? (stream : Image) : (fuel : Nat) → (contents : Array UInt8) → (position : Nat) →
    Option (Array UInt8)
  | 0, _, _ => none
  | fuel + 1, contents, position =>
    match number? stream 1 position, number? stream 2 (position + 1) with
    | some last, some kind =>
      match block? stream kind contents (position + 3) with
      | none => none
      | some (contents, position) =>
        if last = 1 then some contents else blocks? stream fuel contents position
    | _, _ => none

/-- The contents of a deflate stream. -/
def contents? (stream : Image) : Option Bytes :=
  (blocks? stream (length stream) #[] 0).map Array.toList

end Proctor.Inflate
