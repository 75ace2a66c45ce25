import Proctor.Archive.Reader
import Proctor.Proofs.Archive.Directory
import Proctor.Proofs.Archive.Inflation
import Proctor.Proofs.Text.Ascii

/-!
# Reading an archive back

Whoever reads the bytes of an archive sees the members that its entries are. Each line of the
directory leads to the record of its entry, where the contents are found and inflated. The names
have to be told apart as text, since of two lines with the same name only the last one counts.
-/

namespace Proctor.Archive

open Image (has_append_iff)

/-! ### Members -/

/-- The name of an entry reads the same in the code page, if it is not marked as UTF-8. -/
theorem text_name (name : Bytes) :
  Label.text ⟨name, (flags name).testBit 11⟩ = Utf8.lossy name
  := by
  rw [Label.text, flags]
  split
  · next hascii =>
    have hlt : ∀ b ∈ name, b < 0x80 := by simpa using hascii
    have htext := Utf8.lossy_of_forall_lt fun b hb => UInt8.lt_iff_toNat_lt.mp (hlt b hb)
    have hbit : Nat.testBit 0 11 = false := by decide
    rw [hbit, if_neg Bool.false_ne_true, CodePage.decode, htext]
    apply List.map_congr_left
    intro b hb
    rw [CodePage.char, if_pos (hlt b hb)]
  · have hbit : Nat.testBit 0x800 11 = true := by decide
    rw [hbit, if_pos rfl]

/-- The line of an entry leads to its contents. -/
theorem memberOf?_lineOf {image : Image} {offset : Nat} {entry : Entry}
    (h : image.Has offset (record entry)) (hentry : Describable entry) :
  memberOf? image ⟨lineOf offset entry, offset⟩ = some (member entry)
  := by
  have hend := h.size_le
  simp only [record, localHeader, has_append_iff, has_description_iff, length_description,
    List.length_append, List.length_cons, List.length_nil, Nat.add_assoc, Nat.reduceAdd,
    and_assoc] at h hend
  obtain ⟨hmark, -, -, -, -, -, -, -, -, hname, hextra, -, hdata⟩ := h
  replace hmark : image.hasMark headerMark offset = true := hmark.hasMark_eq
  replace hname := hname.number_eq hentry.name
  replace hextra := hextra.number_eq (by decide)
  rw [← Nat.add_assoc] at hdata
  have hfixed : offset + 30 ≤ image.size := by omega
  have hplace : contentsPlace? image offset = some (offset + 30 + entry.name.length) := by
    simp [contentsPlace?, guard, headerSize, hmark, hname, hextra, hfixed]
  have hkept : image.extract (offset + 30 + entry.name.length)
      (offset + 30 + entry.name.length + (deflate entry.data).length)
        = (deflate entry.data).toArray := by
    rw [← Array.toList_inj]
    exact hdata.extract_eq
  have hcontents : contents? 8 (deflate entry.data).toArray = some (.deflated, entry.data) := by
    simp [contents?, Inflate.contents?_deflate]
  have hmode : modeOf? 3 (Entry.mode * 65536) = some Entry.mode := by decide
  simp [memberOf?, guard, lineOf, hplace, hkept, hcontents, text_name, member, hmode]

theorem mapM_memberOf?_locatedFrom {image : Image} {offset : Nat} {archive : Archive}
    (h : image.Has offset archive.records) (hentries : ∀ entry ∈ archive, Describable entry) :
  (locatedFrom offset archive).mapM (memberOf? image) = some (archive.map member)
  := by
  induction archive generalizing offset with
  | nil => rfl
  | cons entry rest ih =>
      obtain ⟨hentry, hrest⟩ := List.forall_mem_cons.mp hentries
      obtain ⟨hrecord, hrecords⟩ := has_append_iff.mp h
      rw [locatedFrom, List.mapM_cons, memberOf?_lineOf hrecord hentry, ih hrecords hrest]
      rfl

/-! ### Lines with different names -/

section Latest

open Directory (Located)

/-- The name in a line, as text. -/
abbrev nameOf (located : Located) : List Char :=
  located.line.name.text

/-- The lines by name, after some others. -/
def lastFrom (last : Std.TreeMap (List Char) Located) (lines : List Located) :
    Std.TreeMap (List Char) Located :=
  lines.foldl (fun last located => last.insert (nameOf located) located) last

variable {last : Std.TreeMap (List Char) Located} {lines : List Located}

theorem getElem?_lastFrom_of_notMem {name : List Char} (h : name ∉ lines.map nameOf) :
  (lastFrom last lines)[name]? = last[name]?
  := by
  induction lines generalizing last with
  | nil => rfl
  | cons located lines ih =>
      rw [List.map_cons, List.mem_cons, not_or] at h
      have hne : ¬ compare (nameOf located) name = .eq := fun heq =>
        h.1 (Std.LawfulEqCmp.eq_of_compare heq).symm
      rw [lastFrom, List.foldl_cons, ← lastFrom, ih h.2, Std.TreeMap.getElem?_insert, if_neg hne]

theorem getElem?_lastFrom (h : (lines.map nameOf).Nodup) {located : Located}
    (hmem : located ∈ lines) :
  (lastFrom last lines)[nameOf located]? = some located
  := by
  induction lines generalizing last with
  | nil => cases hmem
  | cons first lines ih =>
      obtain ⟨hfirst, hrest⟩ := List.nodup_cons.mp h
      rw [lastFrom, List.foldl_cons, ← lastFrom]
      obtain rfl | hmem := List.mem_cons.mp hmem
      · rw [getElem?_lastFrom_of_notMem hfirst, Std.TreeMap.getElem?_insert_self]
      · apply ih hrest hmem

theorem latestAux_eq (h : (lines.map nameOf).Nodup)
    (hlast : ∀ located ∈ lines, last[nameOf located]? = some located) (found : List Located) :
  latestAux last lines found = found.reverse ++ lines
  := by
  induction lines generalizing last found with
  | nil => rw [latestAux, List.append_nil]
  | cons first lines ih =>
      obtain ⟨hfirst, hrest⟩ := List.nodup_cons.mp h
      obtain ⟨hsome, hlast⟩ := List.forall_mem_cons.mp hlast
      rw [latestAux, hsome]
      dsimp only
      rw [ih hrest, List.reverse_cons, List.append_assoc, List.singleton_append]
      intro located hmem
      have hne : ¬ compare (nameOf first) (nameOf located) = .eq := fun heq =>
        hfirst (Std.LawfulEqCmp.eq_of_compare heq ▸ List.mem_map_of_mem hmem)
      rw [Std.TreeMap.getElem?_erase, if_neg hne, hlast located hmem]

/-- If all lines have different names, then all count. -/
theorem latest_eq_self (h : (lines.map nameOf).Nodup) :
  latest lines = lines
  := by
  have hlast : lastLines lines = lastFrom ∅ lines := rfl
  rw [latest, hlast, latestAux_eq h fun located hmem => getElem?_lastFrom h hmem]
  rfl

end Latest

theorem map_nameOf_locatedFrom (offset : Nat) (archive : Archive) :
  (locatedFrom offset archive).map nameOf = archive.map fun entry => Utf8.lossy entry.name
  := by
  induction archive generalizing offset with
  | nil => rfl
  | cons entry rest ih =>
      rw [locatedFrom, List.map_cons, List.map_cons, ih]
      exact congrArg (· :: _) (text_name entry.name)

/-- The bytes of an archive with room for all that they have to tell are read back as the members
that its entries are. -/
theorem members?_encode {archive : Archive} (h : Encodable archive)
    (hnames : (archive.map fun entry => Utf8.lossy entry.name).Nodup) :
  members? archive.encode = some (archive.map member)
  := by
  have hholds := holds_encode archive
  rw [← map_nameOf_locatedFrom 0] at hnames
  simp only [members?, hholds.ofImage?_eq h, Option.bind_some, latest_eq_self hnames]
  apply mapM_memberOf?_locatedFrom hholds.records h.entry

end Proctor.Archive
