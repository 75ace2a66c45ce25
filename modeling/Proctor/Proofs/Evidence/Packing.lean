import Mathlib.Data.List.Forall2
import Proctor.Proofs.Archive.Reading
import Proctor.Proofs.Evidence.Candidates
import Proctor.Proofs.FileSystem.Write
import Proctor.Proofs.Session.Laws
import Proctor.Proofs.Text.Pieces

/-!
# What is packed

While no candidate leads to the place of the archive, the archive that is being written does not
show in what is read: each candidate is skipped or packed as the files stood before, however many
entries have been written. From the single step this follows for all candidates by induction, and
the directory then yields exactly its test cases, in order, and the metadata file if there is one.
-/

namespace Proctor.Evidence

/-- The entry that a candidate gives: its last name and the contents of the file. -/
def taken? (files : FileSystem) (path : Path) : Option Entry :=
  match files.content? path, path.lastName?.filter Utf8.isValid with
  | some content, some name => some ⟨name, content.bytes, entryTime⟩
  | _, _ => none

/-- The entries that candidates give, in order. -/
def taken (files : FileSystem) (paths : List Path) : Archive :=
  paths.filterMap (taken? files)

/-- The candidates that are regular files, in order. -/
def present (files : FileSystem) (paths : List Path) : List Path :=
  paths.filter files.isFile

/-- The candidates that are not regular files, in order. -/
def missing (files : FileSystem) (paths : List Path) : List Path :=
  paths.filter fun path => !files.isFile path

/-- An entry that has the base name of a path, the contents of the file there, and the time that all
entries are given. -/
structure IsEntryOf (files : FileSystem) (path : Path) (entry : Entry) : Prop where
  name : path.lastName? = some entry.name
  data : files.read path = .ok entry.data
  modified : entry.modified = entryTime

/-- The regular files among some paths can be read, and none of them is too large for an entry. -/
def Storable (files : FileSystem) (paths : List Path) : Prop :=
  ∀ path ∈ paths, files.isFile path → ∃ data, files.read path = .ok data
    ∧ Archive.fits data.length

/-- Whether the contents of the file at a path can be read and fit into an entry. -/
def isStorable (files : FileSystem) (path : Path) : Bool :=
  (files.read path).toOption.any fun data => Archive.fits data.length

theorem isStorable_iff {files : FileSystem} {path : Path} :
  isStorable files path ↔ ∃ data, files.read path = .ok data ∧ Archive.fits data.length
  := by
  rw [isStorable]
  cases files.read path <;> simp [Except.toOption]

instance (files : FileSystem) : DecidablePred (Storable files) :=
  fun paths => decidable_of_iff (∀ path ∈ paths, files.isFile path → isStorable files path)
    (forall₃_congr fun _ _ _ => isStorable_iff)

section Cons

variable {files : FileSystem} {path : Path} (rest : List Path)

theorem taken_cons_of_content?_eq_none (h : files.content? path = none) :
  taken files (path :: rest) = taken files rest
  := by
  simp [taken, taken?, h]

theorem taken_cons_of_content?_eq_some {content : Content} {name : Name}
    (h : files.content? path = some content)
    (hname : path.lastName?.filter Utf8.isValid = some name) :
  taken files (path :: rest) = ⟨name, content.bytes, entryTime⟩ :: taken files rest
  := by
  simp [taken, taken?, h, hname]

theorem present_cons_of_content?_eq_none (h : files.content? path = none) :
  present files (path :: rest) = present files rest
  := by
  simp [present, FileSystem.isFile, h]

theorem present_cons_of_content?_eq_some {content : Content}
    (h : files.content? path = some content) :
  present files (path :: rest) = path :: present files rest
  := by
  simp [present, FileSystem.isFile, h]

theorem missing_cons_of_content?_eq_none (h : files.content? path = none) :
  missing files (path :: rest) = path :: missing files rest
  := by
  simp [missing, FileSystem.isFile, h]

theorem missing_cons_of_content?_eq_some {content : Content}
    (h : files.content? path = some content) :
  missing files (path :: rest) = missing files rest
  := by
  simp [missing, FileSystem.isFile, h]

end Cons

section Entries

variable {files : FileSystem} {paths : List Path}

theorem exists_lastName? {path : Path} (h : path.lastName?.any Utf8.isValid) :
  ∃ name, path.lastName?.filter Utf8.isValid = some name
  := by
  rwa [← Option.isSome_filter, Option.isSome_iff_exists] at h

theorem Storable.read_eq {path : Path} {content : Content} (h : Storable files paths)
    (hmem : path ∈ paths) (hcontent : files.content? path = some content) :
  files.read path = .ok content.bytes ∧ Archive.fits content.bytes.length
  := by
  obtain ⟨data, hread, hfits⟩ := h path hmem (Option.isSome_of_eq_some hcontent)
  obtain ⟨-, rfl⟩ := (FileSystem.read_eq_ok_iff hcontent).mp hread
  exact ⟨hread, hfits⟩

/-- An entry is that of a regular file, with its base name, which is text, and a fixed time. -/
theorem of_mem_taken {entry : Entry} (h : entry ∈ taken files paths) :
  ∃ path, files.isFile path ∧ path.lastName? = some entry.name ∧ Utf8.isValid entry.name
    ∧ entry.modified = entryTime
  := by
  obtain ⟨path, -, htaken⟩ := List.mem_filterMap.mp h
  rw [taken?] at htaken
  split at htaken
  · next hcontent hname =>
    cases htaken
    obtain ⟨hname, hvalid⟩ := Option.filter_eq_some_iff.mp hname
    exact ⟨path, Option.isSome_of_eq_some hcontent, hname, hvalid, rfl⟩
  · cases htaken

theorem describable_of_mem_taken {entry : Entry} (h : entry ∈ taken files paths) :
  Archive.Describable entry
  := by
  obtain ⟨path, hfile, hname, -, hmodified⟩ := of_mem_taken h
  have hpath : path.length < 4096 := FileSystem.length_lt_of_isFile hfile
  refine ⟨?_, ?_, ?_⟩
  · have hle := Path.length_le_of_lastName? hname
    show _ < 65536
    omega
  · rw [hmodified]
    decide
  · rw [hmodified]
    decide

/-- From the bytes of a file that holds an archive, the members are read that its entries are, if
these can be counted and all places be given. -/
def ReadsBack (archive : Archive) : Prop :=
  archive.length < Nat.pow 2 16 - 1 → archive.encode.length < Nat.pow 2 32 →
    Archive.members? (Content.archive archive).bytes = some (archive.map Archive.member)

theorem readsBack_taken (h : (taken files paths).names.Nodup) :
  ReadsBack (taken files paths)
  := by
  intro hcount hsize
  apply Archive.members?_encode ⟨hcount, hsize, fun _ => describable_of_mem_taken⟩
  have hvalid : ∀ name ∈ (taken files paths).names, Utf8.isValid name := by
    intro name hname
    obtain ⟨entry, hentry, rfl⟩ := List.mem_map.mp hname
    obtain ⟨-, -, -, hvalid, -⟩ := of_mem_taken hentry
    apply hvalid
  -- Names that are text can be told apart as text.
  have htexts : ((taken files paths).names.map Utf8.lossy).Nodup := by
    apply List.Nodup.map_on _ h
    intro name hname name' hname' heq
    rw [← Utf8.encode_lossy (hvalid name hname), heq, Utf8.encode_lossy (hvalid name' hname')]
  rwa [Archive.names, List.map_map] at htexts

/-- The entries have the base names of the regular files and the contents that these hold. -/
theorem forall₂_taken (h : ∀ path ∈ present files paths, path.lastName?.any Utf8.isValid) :
  List.Forall₂ (fun path entry => path.lastName? = some entry.name
    ∧ (files.content? path).map Content.bytes = some entry.data ∧ entry.modified = entryTime)
    (present files paths) (taken files paths)
  := by
  induction paths with
  | nil => apply List.Forall₂.nil
  | cons path rest ih =>
      cases hcontent : files.content? path with
      | none =>
          rw [present_cons_of_content?_eq_none rest hcontent] at h ⊢
          rw [taken_cons_of_content?_eq_none rest hcontent]
          apply ih h
      | some content =>
          rw [present_cons_of_content?_eq_some rest hcontent] at h ⊢
          obtain ⟨hvalid, hrest⟩ := List.forall_mem_cons.mp h
          obtain ⟨name, hname⟩ := exists_lastName? hvalid
          rw [taken_cons_of_content?_eq_some rest hcontent hname]
          apply List.Forall₂.cons _ (ih hrest)
          refine ⟨(Option.filter_eq_some_iff.mp hname).1, ?_, rfl⟩
          rw [hcontent, Option.map_some]

/-- The entries are those of the regular files, one for each. -/
theorem forall₂_isEntryOf (h : ∀ path ∈ present files paths, path.lastName?.any Utf8.isValid)
    (hstorable : Storable files paths) :
  List.Forall₂ (IsEntryOf files) (present files paths) (taken files paths)
  := by
  have hmem : ∀ path ∈ present files paths, path ∈ paths := fun _ => List.mem_of_mem_filter
  apply ((List.forall₂_and_left _ _).mpr ⟨hmem, forall₂_taken h⟩).imp
  rintro path entry ⟨hpath, hname, hdata, hmodified⟩
  obtain ⟨content, hcontent, hbytes⟩ := Option.map_eq_some_iff.mp hdata
  refine ⟨hname, ?_, hmodified⟩
  rw [(hstorable.read_eq hpath hcontent).1, hbytes]

theorem map_lastName?_eq (h : ∀ path ∈ present files paths, path.lastName?.any Utf8.isValid) :
  (present files paths).map Path.lastName? = (taken files paths).names.map some
  := by
  have hentries := forall₂_taken h
  generalize present files paths = listed, taken files paths = entries at hentries
  induction hentries with
  | nil => rfl
  | cons hentry _ ih =>
      rw [List.map_cons, hentry.1, ih, Archive.names, Archive.names, List.map_cons,
        List.map_cons]

end Entries

/-- The state after one more candidate has been skipped. -/
def Progress.skip (progress : Progress) (path : Path) : Progress :=
  { progress with skipped := path :: progress.skipped }

/-- The state after one more entry has been written at a location. -/
def Progress.pack (progress : Progress) (location : Location) (entry : Entry) : Progress :=
  progress.extend entry (storeArchive progress.files location (entry :: progress.entries) [])

/-- A candidate that is added is skipped or packed. -/
theorem Progress.add_eq_ok {location : Location} {progress progress' : Progress} {path : Path}
    (h : progress.add location path = .ok progress') :
  progress' = progress.skip path ∨ ∃ entry, progress' = progress.pack location entry
  := by
  rw [add] at h
  split at h
  · cases h
    apply Or.inl rfl
  split at h
  · cases h
  split at h
  · cases h
  split at h
  · cases h
  dsimp only at h
  split at h
  · cases h
  split at h
  · cases h
    apply Or.inr ⟨_, rfl⟩
  · cases h

section Steps

variable {files : FileSystem} {location : Location} {progress : Progress} {path : Path}
  (htakes : files.TakesArchive location)

include htakes

/-- A candidate that does not lead to the archive is added as the files stood before. -/
theorem add_eq (hchanges : files.ChangesLeaf location progress.files)
    (hapart : files.place? path ≠ some location) :
  progress.add location path
    = match files.content? path with
      | none => .ok (progress.skip path)
      | some _ =>
        match path.lastName?.filter Utf8.isValid with
        | none => .error (.config (.evidenceName path))
        | some name =>
          if name ∈ progress.entries.names then .error (.archive (.duplicateName name))
          else
            match files.read path with
            | .error fault => .error (.io fault)
            | .ok data =>
              if Archive.fits data.length then .ok (progress.pack location ⟨name, data, entryTime⟩)
              else .error (.archive .unwritable)
  := by
  rw [Progress.add, hchanges.isFile_eq hapart, FileSystem.isFile]
  cases hcontent : files.content? path with
  | none => rfl
  | some content =>
      cases path.lastName?.filter Utf8.isValid with
      | none => rfl
      | some name =>
          have hstored := hchanges.trans (FileSystem.changesLeaf_setContent hchanges.leaf
            (.unfinished progress.entries (Archive.openHeader name entryTime)))
          have hread := hstored.read_eq (Option.isSome_of_eq_some hcontent) hapart
          simp only [hchanges.takesArchive_iff.mpr htakes, Std.TreeSet.contains_iff_mem,
            progress.mem_names, storeArchive, hread]
          rfl

end Steps

/-- Candidates that can all be added to an archive at a location which has some entries already:
none leads to the archive, those that are regular files have valid names and can be stored, and no
name occurs twice among the entries. -/
structure Packable (files : FileSystem) (location : Location) (entries : Archive)
    (paths : List Path) : Prop where
  apart : ∀ path ∈ paths, files.place? path ≠ some location
  named : ∀ path ∈ paths, files.isFile path →
    ∃ name, path.lastName?.filter Utf8.isValid = some name
  storable : Storable files paths
  distinct : (Archive.names (entries.reverse ++ taken files paths)).Nodup

section Run

variable {files : FileSystem} {location : Location} {paths : List Path}
  (htakes : files.TakesArchive location)

include htakes

/-- The archive gets the entries of all candidates, and those that are missing are skipped. -/
theorem addAll_of_packable (progress : Progress)
    (hchanges : files.ChangesLeaf location progress.files)
    (h : Packable files location progress.entries paths) :
  ∃ final, progress.addAll location paths = (final, none)
    ∧ files.ChangesLeaf location final.files
    ∧ final.entries = (taken files paths).reverse ++ progress.entries
    ∧ final.skipped = (missing files paths).reverse ++ progress.skipped
  := by
  -- Every step leaves files that differ at the archive alone, so the next candidate is read as it
  -- stood before.
  induction paths generalizing progress with
  | nil => exact ⟨progress, rfl, hchanges, rfl, rfl⟩
  | cons path rest ih =>
      obtain ⟨hapart, haparts⟩ := List.forall_mem_cons.mp h.apart
      obtain ⟨hnamed, hnames⟩ := List.forall_mem_cons.mp h.named
      obtain ⟨-, hstorable⟩ := List.forall_mem_cons.mp h.storable
      have hadd := add_eq htakes hchanges hapart
      have hdistinct := h.distinct
      cases hcontent : files.content? path with
      | none =>
          rw [hcontent] at hadd
          rw [taken_cons_of_content?_eq_none rest hcontent] at hdistinct ⊢
          rw [Progress.addAll, hadd, missing_cons_of_content?_eq_none rest hcontent,
            List.reverse_cons, List.append_assoc]
          apply ih (progress.skip path) hchanges ⟨haparts, hnames, hstorable, hdistinct⟩
      | some content =>
          obtain ⟨name, hname⟩ := hnamed (Option.isSome_of_eq_some hcontent)
          rw [taken_cons_of_content?_eq_some rest hcontent hname] at hdistinct ⊢
          have hnew : name ∉ progress.entries.names := by
            rw [Archive.names, List.map_append, List.map_cons, List.nodup_middle,
              List.nodup_cons, List.mem_append, List.map_reverse, List.mem_reverse] at hdistinct
            exact fun hmem => hdistinct.1 (.inl hmem)
          have hpacked := hchanges.trans (FileSystem.changesLeaf_setContent hchanges.leaf
            (.unfinished (⟨name, content.bytes, entryTime⟩ :: progress.entries) []))
          obtain ⟨hread, hfits⟩ := h.storable.read_eq List.mem_cons_self hcontent
          simp only [hcontent, hname, if_neg hnew, hread, if_pos hfits] at hadd
          rw [Progress.addAll, hadd, missing_cons_of_content?_eq_some rest hcontent,
            List.reverse_cons, List.append_assoc]
          apply ih (progress.pack location ⟨name, content.bytes, entryTime⟩) hpacked
            ⟨haparts, hnames, hstorable, ?_⟩
          rwa [Progress.pack, Progress.extend, List.reverse_cons, List.append_assoc]

end Run

/-- The records of a bundle that was written: a warning for each candidate that was skipped, and the
number of entries. -/
def writtenRecords (files : FileSystem) (bundle : Bundle) : List Record :=
  (missing files bundle.files).map skipWarning ++ [⟨.info, .evidence,
    s!"Files zipped into {bundle.archive.display} ({(taken files bundle.files).length} entries)"⟩]

/-- A bundle of candidates that can all be added is written into its archive. -/
theorem runIn_writeArchive {bundle : Bundle} {world : World} {location : Location}
    {created : FileSystem} (hcreate : world.files.create bundle.archive = .ok (location, created))
    (htakes : world.files.TakesArchive location)
    (h : Packable world.files location [] bundle.files) :
  ∃ files,
    (writeArchive bundle).runIn world
      = (.ok ⟨bundle.archive, (taken world.files bundle.files).names,
          missing world.files bundle.files⟩,
        { world with files := files }.logged (writtenRecords world.files bundle))
    ∧ world.files.ChangesLeaf location files
    ∧ ((∀ device, world.files.node? location ≠ some (.device device)) →
        files.content? bundle.archive = some (.archive (taken world.files bundle.files)))
  := by
  obtain ⟨hplace, hcreated⟩ := FileSystem.create_eq_ok hcreate
  obtain ⟨progress, hadd, hchanged, hentries, hskipped⟩ :=
    addAll_of_packable htakes (.initial created) hcreated h
  have hreverse : progress.entries.reverse = taken world.files bundle.files := by
    rw [hentries, Progress.initial, List.append_nil, List.reverse_reverse]
  have hreverse' : progress.skipped.reverse = missing world.files bundle.files := by
    rw [hskipped, Progress.initial, List.append_nil, List.reverse_reverse]
  have hwritten := hchanged.trans (FileSystem.changesLeaf_setContent hchanged.leaf
    (.archive (taken world.files bundle.files)))
  refine ⟨_, ?_, hwritten, ?_⟩
  · simp only [writeArchive, Session.runIn_bind, Session.runIn_files, hcreate, hadd,
      Session.runIn_change, Session.runIn_logAll, hcreated.takesArchive_iff.mpr htakes, hreverse,
      hreverse', Bool.false_eq_true, if_false, Session.runIn_log, Session.runIn_pure,
      World.logged_logged, writtenRecords]
  · intro hdevice
    apply hchanged.content?_setContent hplace hdevice

end Proctor.Evidence
