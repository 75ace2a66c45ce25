import Proctor.IoFault
import Proctor.Path

/-!
# Programs

What makes a file a program that can be started. A binary has a header that says for which machine
it is, and a table of its parts, one of which may name a loader, another binary that brings it into
the memory. A script begins with a mark and names in its first line the program that reads it, its
interpreter. Only the beginning of a script is looked at, so that the first line may be cut off, but
not before the end of the interpreter's name.
-/

namespace Proctor

/-- A program by the way in which it is started. -/
inductive Program where
  /-- A binary, with the path of its loader if it has one. -/
  | binary (loader : Option Path)
  /-- A script, with the path of its interpreter. -/
  | script (interpreter : Path)
  deriving DecidableEq, Repr

namespace Program

/-- The bytes at which a script begins. -/
def scriptMark : Bytes := Bytes.ofString "#!"

/-- The number of bytes at the beginning of a file that are looked at. -/
def headSize : Nat := 256

/-- Whether a byte separates the words of a line. -/
def isBlank (b : UInt8) : Bool :=
  b = 0x20 || b = 0x09

/-- Whether a byte ends the name of an interpreter. -/
def isTerminator (b : UInt8) : Bool :=
  isBlank b || b = 0

/-- The first word of a text, if it has one. -/
def firstWord? (text : Bytes) : Option Path :=
  let rest := text.dropWhile isBlank
  if rest.isEmpty then none else some (rest.takeWhile fun b => !isTerminator b)

/-- The interpreter that a script names. The head of a file that is shorter is filled up with
zeros. A head without a line feed has to show the end of the name. -/
def interpreter? (bytes : Bytes) : Option Path :=
  if scriptMark.isPrefixOf bytes then
    let head := bytes.take headSize
    let body := (head ++ List.replicate (headSize - head.length) 0).drop scriptMark.length
    let line := body.takeWhile fun b => b ≠ 0 && b ≠ 0x0A
    if body[line.length]? = some 0x0A then firstWord? line
    else if (body.dropWhile isBlank).any isTerminator then firstWord? body.dropLast
    else none
  else none

/-! ### Binaries -/

open Bytes (field)

/-- The bytes at which a binary begins. -/
def binaryMark : Bytes := 0x7F :: Bytes.ofString "ELF"

/-- The number of the machine that binaries are for. -/
def machine : Nat := 62

/-- The size of the header of a binary. -/
def headerSize : Nat := 64

/-- The size of a part in the table of parts. -/
def partSize : Nat := 56

/-- The greatest size of the table of parts. -/
def tableLimit : Nat := 65536

/-- The offset from which on no file can be read. -/
def offsetLimit : Nat := Nat.pow 2 63

/-- The table of parts of a binary: at least one part, and all of them within the file. -/
def parts? (bytes : Bytes) : Option (List Bytes) :=
  let header := bytes.take headerSize
  let count := field 2 56 header
  let size := count * partSize
  let table := (bytes.drop (field 8 32 header)).take size
  if field 2 54 header = partSize && 1 ≤ count && size ≤ tableLimit && table.length = size then
    some ((List.range count).map fun i => (table.drop (i * partSize)).take partSize)
  else none

/-- The parts of a file that is a binary for this machine. -/
def binary? (bytes : Bytes) : Option (List Bytes) :=
  if binaryMark.isPrefixOf bytes && field 2 18 (bytes.take headerSize) = machine then parts? bytes
  else none

/-- Whether the header of a binary says that it can be started, and is not only a piece of one. -/
def isWhole (bytes : Bytes) : Bool :=
  let kind := field 2 16 (bytes.take headerSize)
  kind = 2 || kind = 3

/-- Whether a part of a binary names the loader. -/
def namesLoader (part : Bytes) : Bool :=
  field 4 0 part = 3

/-- The greatest length of the name of a loader. -/
def loaderLimit : Nat := 4096

/-- The loader that a part of a binary names, with a zero at the end of the name. -/
def loader (bytes part : Bytes) : Except IoFault Path :=
  let offset := field 8 8 part
  let size := field 8 32 part
  if size < 2 || loaderLimit < size then .error .notAProgram
  else if offsetLimit ≤ offset + size then .error .invalidArgument
  else
    let name := (bytes.drop offset).take size
    if name.length < size then .error .cutOff
    else if name.getLast? ≠ some 0 then .error .notAProgram
    else .ok (name.takeWhile (· ≠ 0))

/-- What is wrong with a file that is to load a binary. -/
def loaderFault? (bytes : Bytes) : Option IoFault :=
  if (bytes.take headerSize).length < headerSize then some .cutOff
  else if (binary? bytes).isNone then some .badLoader
  else none

/-- The program that a file is, or why it is none. -/
def ofBytes (bytes : Bytes) : Except IoFault Program :=
  match if isWhole bytes then binary? bytes else none with
  | some parts =>
    match parts.find? namesLoader with
    | some part => (loader bytes part).map fun path => .binary (some path)
    | none => .ok (.binary none)
  | none =>
    match interpreter? bytes with
    | some path => .ok (.script path)
    | none => .error .notAProgram

/-- The path of the program through which a file is started: the loader of a binary, or the
interpreter of a script. -/
def helper? (bytes : Bytes) : Option Path :=
  match ofBytes bytes with
  | .ok (.binary loader) => loader
  | .ok (.script interpreter) => some interpreter
  | .error _ => none

/-- The least binary: a header, and a table with one part. -/
def leastBinary : Bytes :=
  binaryMark ++ [2, 1, 1, 0, 0, 0, 0, 0, 0, 0, 0, 0, 3, 0, 62, 0, 1, 0, 0, 0] ++
    List.replicate 8 0 ++ [64, 0, 0, 0, 0, 0, 0, 0] ++ List.replicate 12 0 ++
    [64, 0, 56, 0, 1, 0] ++ List.replicate (6 + partSize) 0

end Program

end Proctor
