import Mathlib.Data.Option.Basic
import Proctor.Archive.Directory
import Proctor.Proofs.Archive.Image

/-!
# Directories of encoded archives

In the bytes of an archive, the last mark of an end record that can be meant stands where the end
record is, and it leads to the directory. Line after line, the directory then tells what was written
there about the entries, and where their records begin.
-/

namespace Proctor.Archive

open Image (has_append_iff has_cons_iff)

/-! ### Sizes -/

theorem length_storedBlocks {data : Bytes} (h : data ≠ []) :
  (storedBlocks data).length = data.length + 5 * ((data.length + (blockSize - 1)) / blockSize)
  := by
  have hpos := List.length_pos_iff.mpr h
  fun_induction storedBlocks data with
  | case1 data hlast =>
      rw [blockSize] at *
      rw [List.length_append, length_blockHead]
      omega
  | case2 data hmore ih =>
      have hrest : 0 < (data.drop blockSize).length := by
        rw [List.length_drop]
        omega
      have hlength := ih (List.length_pos_iff.mp hrest) hrest
      rw [List.length_drop] at hlength
      rw [List.length_append, List.length_append, length_blockHead, List.length_take, hlength]
      rw [blockSize] at *
      omega

/-- The size of a deflate stream is the one by which contents are judged to fit. -/
theorem length_deflate (data : Bytes) :
  (deflate data).length = deflatedSize data.length
  := by
  cases data with
  | nil => rfl
  | cons b rest =>
      rw [deflate, List.isEmpty_cons, if_neg Bool.false_ne_true,
        length_storedBlocks (List.cons_ne_nil b rest), deflatedSize, List.length_cons,
        if_neg (Nat.succ_ne_zero _)]

theorem length_le_length_deflate (data : Bytes) :
  data.length ≤ (deflate data).length
  := by
  rw [length_deflate, deflatedSize]
  split <;> omega

theorem length_encode (archive : Archive) :
  archive.encode.length = archive.records.length + (directory 0 archive).length + 22
  := by simp [encode, Nat.add_assoc]

/-- An entry that a line can describe: its name and the numbers for its time are not too large. -/
structure Describable (entry : Entry) : Prop where
  name : entry.name.length < Nat.pow 2 16
  date : entry.modified.date < Nat.pow 2 16
  time : entry.modified.time < Nat.pow 2 16

/-- An archive whose byte form has room for all that it has to tell: the entries can be counted, all
places and sizes can be given, and each entry can be described. -/
structure Encodable (archive : Archive) : Prop where
  count : archive.length < Nat.pow 2 16 - 1
  size : archive.encode.length < Nat.pow 2 32
  entry : ∀ entry ∈ archive, Describable entry

/-! ### Lines -/

/-- What the directory tells about an entry whose record begins at `offset`. -/
def lineOf (offset : Nat) (entry : Entry) : Line where
  system := 3
  isEncrypted := false
  method := 8
  date := entry.modified.date
  time := entry.modified.time
  crc := (Crc32.ofBytes entry.data).toNat
  kept := (deflate entry.data).length
  size := entry.size
  name := ⟨entry.name, (flags entry.name).testBit 11⟩
  comment := ⟨[], (flags entry.name).testBit 11⟩
  attributes := Entry.mode * 65536
  place := offset

section Line

variable {image : Image} {place offset : Nat} {entry : Entry}

/-- The parts of what a header and a line have in common, at their places. -/
theorem has_description_iff {name : Bytes} {modified : Timestamp} {crc compressed size : Nat} :
  image.Has place (description name modified crc compressed size)
    ↔ image.Has place (littleEndian 2 20)
      ∧ image.Has (place + 2) (littleEndian 2 (flags name))
      ∧ image.Has (place + 4) (littleEndian 2 8)
      ∧ image.Has (place + 6) (littleEndian 2 modified.time)
      ∧ image.Has (place + 8) (littleEndian 2 modified.date)
      ∧ image.Has (place + 10) (littleEndian 4 crc)
      ∧ image.Has (place + 14) (littleEndian 4 compressed)
      ∧ image.Has (place + 18) (littleEndian 4 size)
      ∧ image.Has (place + 22) (littleEndian 2 name.length)
      ∧ image.Has (place + 24) (littleEndian 2 0)
  := by
  simp only [description, has_append_iff, List.length_append, length_littleEndian, Nat.reduceAdd,
    and_assoc]

theorem length_description {name : Bytes} {modified : Timestamp} {crc compressed size : Nat} :
  (description name modified crc compressed size).length = 26
  := by simp [description]

theorem length_directoryLine :
  (directoryLine offset entry).length = 46 + entry.name.length
  := by
  simp only [directoryLine, length_description, List.length_append, length_littleEndian,
    List.length_cons, List.length_nil, Nat.reduceAdd]

theorem flags_lt (name : Bytes) :
  flags name < Nat.pow 256 2
  := by
  rw [flags]
  split <;> decide

theorem flags_mod_two (name : Bytes) :
  flags name % 2 = 0
  := by
  rw [flags]
  split <;> decide

/-- A line is read as it was written. -/
theorem at?_directoryLine (h : image.Has place (directoryLine offset entry))
    (hentry : Describable entry) (hkept : (deflate entry.data).length < Nat.pow 2 32)
    (hoffset : offset < Nat.pow 2 32) :
  Line.at? image place = some (lineOf offset entry, place + 46 + entry.name.length)
  := by
  have hend := h.size_le
  rw [length_directoryLine] at hend
  simp only [directoryLine, has_append_iff, has_description_iff, length_description,
    List.length_append, length_littleEndian, List.length_cons, List.length_nil, Nat.add_assoc,
    Nat.reduceAdd, and_assoc] at h
  obtain ⟨hmark, hsystem, -, hflags, hmethod, htime, hdate, hcrc, hcompressed, hsize, hname, hextra,
    hcomment, -, -, hattributes, hplace, hlabel⟩ := h
  replace hmark : image.hasMark Line.mark place = true := hmark.hasMark_eq
  replace hsystem : image.number 1 (place + 5) = 3 :=
    (has_cons_iff.mp hsystem).2.number_eq (by decide)
  replace hflags := hflags.number_eq (flags_lt entry.name)
  replace hmethod := hmethod.number_eq (by decide)
  replace htime := htime.number_eq hentry.time
  replace hdate := hdate.number_eq hentry.date
  replace hcrc := hcrc.number_eq (Crc32.ofBytes entry.data).toNat_lt
  replace hcompressed := hcompressed.number_eq hkept
  replace hsize := hsize.number_eq (Nat.lt_of_le_of_lt (length_le_length_deflate entry.data) hkept)
  replace hname := hname.number_eq hentry.name
  replace hextra := hextra.number_eq (by decide)
  replace hcomment := hcomment.number_eq (by decide)
  replace hattributes := hattributes.number_eq (by decide)
  replace hplace := hplace.number_eq hoffset
  replace hlabel := hlabel.bytesAt_eq
  have hfixed : place + 46 ≤ image.size := by omega
  have hnext : place + 46 + entry.name.length ≤ image.size := by omega
  have hnone : ∀ start, image.bytesAt start 0 = [] := by simp [Image.bytesAt]
  simp [Line.at?, Line.fixedSize, hmark, hsystem, hflags, hmethod, htime, hdate, hcrc, hcompressed,
    hsize, hname, hextra, hcomment, hattributes, hplace, hlabel, hfixed, hnext, hnone,
    Line.addFields, Line.sealedMethod, flags_mod_two, lineOf, guard]

end Line

/-! ### The directory -/

/-- The lines for entries whose records begin at `offset`, with the places of their headers in an
archive that begins with the bytes. -/
def locatedFrom : (offset : Nat) → Archive → List Directory.Located
  | _, [] => []
  | offset, entry :: rest =>
    ⟨lineOf offset entry, offset⟩ :: locatedFrom (offset + (record entry).length) rest

theorem length_deflate_le_length_record (entry : Entry) :
  (deflate entry.data).length < (record entry).length
  := by
  simp only [record, localHeader, length_description, List.length_append, List.length_cons,
    List.length_nil]
  omega

theorem length_records_cons (entry : Entry) (rest : Archive) :
  (records (entry :: rest)).length = (record entry).length + (records rest).length
  := by rw [records, List.flatMap_cons, List.length_append, records]

/-- A directory that ends where records end is read as it was written. -/
theorem linesAux?_directory {image : Image} {told : Directory} {archive : Archive}
    {place offset : Nat} (h : image.Has place (directory offset archive))
    (hentries : ∀ entry ∈ archive, Describable entry) (horigin : told.origin = 0)
    (hstart : offset + archive.records.length ≤ told.start) (hsize : told.start < Nat.pow 2 32)
    (read : List Directory.Located) :
  Directory.linesAux? image told archive.length place read
    = some (read.reverse ++ locatedFrom offset archive)
  := by
  induction archive generalizing place offset read with
  | nil => rw [List.length_nil, Directory.linesAux?, locatedFrom, List.append_nil]
  | cons entry rest ih =>
      obtain ⟨hentry, hrest⟩ := List.forall_mem_cons.mp hentries
      obtain ⟨hline, hlines⟩ := has_append_iff.mp h
      rw [length_directoryLine, ← Nat.add_assoc] at hlines
      rw [length_records_cons, ← Nat.add_assoc] at hstart
      have hkept := length_deflate_le_length_record entry
      have hoffset : offset < told.start := by omega
      have hat := at?_directoryLine hline hentry (by omega) (by omega)
      simp only [List.length_cons, Directory.linesAux?, hat, horigin, Nat.zero_add, lineOf,
        if_pos hoffset]
      rw [← lineOf, ih hlines hrest hstart, List.reverse_cons, List.append_assoc, locatedFrom,
        List.singleton_append]

/-! ### The end record -/

/-- A member of a set of numbers is the least one from itself on. -/
theorem getGE?_of_mem {numbers : Std.TreeSet Nat} {n : Nat} (h : n ∈ numbers) :
  numbers.getGE? n = some n
  := by
  have hgo : ∀ (tree : Std.DTreeMap.Internal.Impl Nat fun _ => Unit) (best : Option Nat),
      tree.contains n = true → Std.DTreeMap.Internal.Impl.getKeyGE?.go n best tree = some n := by
    intro tree
    -- Whether a number is in a tree is decided on the way that the search for it takes.
    induction tree with
    | leaf =>
        intro best hleaf
        cases hleaf
    | inner size key value left right ihleft ihright =>
        intro best hinner
        rw [Std.DTreeMap.Internal.Impl.contains] at hinner
        rw [Std.DTreeMap.Internal.Impl.getKeyGE?.go]
        split at hinner
        · next heq => simp only [heq, ihleft _ hinner]
        · next heq => simp only [heq, ihright _ hinner]
        · next heq => simp [Nat.compare_eq_eq.mp heq]
  exact hgo _ none h

theorem firstLine?_of_has {image : Image} {start stop : Nat} (h : image.Has start Line.mark)
    (hstop : start + 4 ≤ stop) :
  (Directory.Marks.ofImage image).firstLine? start stop = some start
  := by
  have hplaces : start ∈ image.places Line.mark := by
    have hend : start + 4 ≤ image.size := h.size_le
    rw [Image.places_eq, List.mem_filter, List.mem_range]
    exact ⟨by omega, h.hasMark_eq⟩
  have hmem : start ∈ (Directory.Marks.ofImage image).lines :=
    Std.TreeSet.mem_ofList.mpr (List.contains_iff_mem.mpr hplaces)
  rw [Directory.Marks.firstLine?, getGE?_of_mem hmem, Option.filter_some, if_pos]
  exact decide_eq_true hstop

/-- A mark without room for an end record after it is not that of an end record. -/
theorem ofRecord?_eq_none {image : Image} {marks : Directory.Marks} {place : Nat}
    (h : image.size < place + Directory.endSize) :
  Directory.ofRecord? image marks place = none
  := by
  simp only [Directory.ofRecord?, guard, if_neg (Nat.not_le.mpr h)]
  rfl

/-- Where the end record begins in the bytes of an archive. -/
def endPlace (archive : Archive) : Nat :=
  archive.records.length + (directory 0 archive).length

theorem length_records_add_le {archive : Archive} (h : archive ≠ []) :
  archive.records.length + 4 ≤ archive.endPlace
  := by
  obtain ⟨entry, rest, rfl⟩ := List.exists_cons_of_ne_nil h
  rw [endPlace, directory, List.length_append, length_directoryLine]
  omega

/-- An image of the bytes of an archive, with its parts. -/
structure Holds (image : Image) (archive : Archive) : Prop where
  size : image.size = archive.endPlace + Directory.endSize
  records : image.Has 0 archive.records
  directory : image.Has archive.records.length (directory 0 archive)
  mark : image.Has archive.endPlace Directory.endMark
  volume : image.Has (archive.endPlace + 4) (littleEndian 2 0)
  firstVolume : image.Has (archive.endPlace + 6) (littleEndian 2 0)
  countHere : image.Has (archive.endPlace + 8) (littleEndian 2 archive.length)
  count : image.Has (archive.endPlace + 10) (littleEndian 2 archive.length)
  offset : image.Has (archive.endPlace + 16) (littleEndian 4 archive.records.length)
  comment : image.Has (archive.endPlace + 20) (littleEndian 2 0)

theorem holds_encode (archive : Archive) :
  Holds archive.encode.toArray archive
  := by
  have hsize : archive.encode.toArray.size = archive.endPlace + Directory.endSize := by
    rw [List.size_toArray, length_encode, endPlace, Directory.endSize]
  have hend : archive.records.length + (directory 0 archive).length = archive.endPlace := rfl
  have h := Image.has_toArray archive.encode
  generalize archive.encode.toArray = image at h hsize
  simp only [encode, has_append_iff, List.length_append, length_littleEndian, List.length_cons,
    List.length_nil, Nat.reduceAdd, Nat.zero_add, hend, Nat.add_assoc archive.endPlace] at h
  obtain ⟨⟨⟨⟨⟨⟨⟨⟨⟨hrecords, hdirectory⟩, hmark⟩, hvolume⟩, hfirst⟩, hhere⟩, hcount⟩, -⟩, hoffset⟩,
    hcomment⟩ := h
  exact ⟨hsize, hrecords, hdirectory, hmark, hvolume, hfirst, hhere, hcount, hoffset, hcomment⟩

namespace Holds

variable {image : Image} {archive : Archive} (h : Holds image archive)

include h

/-- The directory of an archive that is not empty begins with the mark of a line. -/
theorem firstLine?_eq (hne : archive ≠ []) :
  (Directory.Marks.ofImage image).firstLine? archive.records.length archive.endPlace
    = some archive.records.length
  := by
  apply firstLine?_of_has _ (length_records_add_le hne)
  obtain ⟨entry, rest, rfl⟩ := List.exists_cons_of_ne_nil hne
  have hline := (has_append_iff.mp h.directory).1
  simp only [directoryLine, List.append_assoc] at hline
  apply (has_append_iff.mp hline).1

/-- The end record leads to the directory. -/
theorem ofRecord?_eq (hencodable : Encodable archive) :
  Directory.ofRecord? image (.ofImage image) archive.endPlace
    = some ⟨0, archive.records.length, archive.length, 0, 0⟩
  := by
  have hlength := hencodable.count
  have hsize := hencodable.size
  rw [length_encode, ← endPlace] at hsize
  have hrecords : archive.records.length ≤ archive.endPlace := Nat.le_add_right _ _
  simp only [Nat.pow_eq, Nat.reducePow, Nat.reduceSub] at hlength hsize
  have hcount := h.count.number_eq (Nat.lt_succ_of_lt hlength)
  have hoffset := h.offset.number_eq (show _ < 4294967296 by omega)
  have hnarrow : ¬ (archive.length = 0xFFFF ∨ archive.records.length = wideMark) := by
    rw [wideMark]
    omega
  have hend : Directory.ofEnd? image (.ofImage image) archive.endPlace
      = some ⟨0, archive.records.length, archive.length, 0, 0⟩ := by
    simp only [Directory.ofEnd?, hcount, hoffset, h.countHere.number_eq (Nat.lt_succ_of_lt hlength),
      h.volume.number_eq (by decide), h.firstVolume.number_eq (by decide)]
    by_cases hempty : archive = []
    · subst hempty
      rfl
    · have hne : archive.length ≠ 0 := fun hzero => hempty (List.eq_nil_of_length_eq_zero hzero)
      have hlt : archive.records.length < archive.endPlace := by
        have hmark := length_records_add_le hempty
        omega
      simp [guard, h.firstLine?_eq hempty, hne, hlt]
  simp [Directory.ofRecord?, guard, h.size, h.comment.number_eq, hcount, hoffset, hnarrow, hend]

/-- Among the marks of end records, that of the end record is the last one with room for a record
after it. -/
theorem places_eq :
  ∃ earlier later, image.places Directory.endMark = earlier ++ archive.endPlace :: later
    ∧ ∀ place ∈ later, image.size < place + Directory.endSize
  := by
  have hrange : List.range image.size = List.range archive.endPlace
      ++ archive.endPlace :: (List.range 21).map (archive.endPlace + 1 + ·) := by
    rw [h.size, Directory.endSize, List.range_add, List.range_succ_eq_map, List.map_cons,
      List.map_map]
    simp [Function.comp_def, Nat.add_assoc, Nat.add_comm 1]
  rw [Image.places_eq, hrange, List.filter_append, List.filter_cons_of_pos h.mark.hasMark_eq]
  refine ⟨_, _, rfl, ?_⟩
  intro place hplace
  obtain ⟨n, -, rfl⟩ := List.mem_map.mp (List.mem_filter.mp hplace).1
  rw [h.size]
  omega

/-- The directory of an archive is found and read as it was written. -/
theorem ofImage?_eq (hencodable : Encodable archive) :
  Directory.ofImage? image = some (locatedFrom 0 archive)
  := by
  have hsize := hencodable.size
  rw [length_encode] at hsize
  have hlines : Directory.lines? image ⟨0, archive.records.length, archive.length, 0, 0⟩
      = some (locatedFrom 0 archive) := by
    rw [Directory.lines?, if_pos rfl, Directory.start, Nat.zero_add]
    apply linesAux?_directory h.directory hencodable.entry rfl (Nat.le_refl _)
    simp only [Directory.start]
    omega
  obtain ⟨earlier, later, hplaces, hlater⟩ := h.places_eq
  have hnone : later.reverse.findSome? (fun place =>
      (Directory.ofRecord? image (.ofImage image) place).bind (Directory.lines? image)) = none := by
    rw [List.findSome?_eq_none_iff]
    intro place hplace
    rw [ofRecord?_eq_none (hlater place (List.mem_reverse.mp hplace))]
    rfl
  rw [Directory.ofImage?, hplaces, List.reverse_append, List.reverse_cons, List.append_assoc,
    List.singleton_append]
  cases hreverse : later.reverse ++ archive.endPlace :: earlier.reverse with
  | nil => simp at hreverse
  | cons place places =>
      dsimp only
      rw [← hreverse, List.findSome?_append, hnone, Option.none_or, List.findSome?_cons,
        h.ofRecord?_eq hencodable, Option.bind_some, hlines]

end Holds

end Proctor.Archive
