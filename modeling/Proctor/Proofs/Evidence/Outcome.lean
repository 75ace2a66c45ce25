import Mathlib.Data.List.Induction
import Proctor.Proofs.Evidence.Package

/-!
# How writing a bundle ends

A bundle may list any paths, in any order and more than once. Those that lead to regular files
become the entries of its archive, as long as they can be stored and their base names are text and
all different. If the names are not, there is a first file that cannot be added to those before it.
Writing fails there, with the reason that this file gives, and the archive is left with the files
before it.
-/

namespace Proctor.Evidence

/-- Paths that can name the entries of one archive: their base names are text, and all different. -/
structure WellNamed (paths : List Path) : Prop where
  valid : ∀ path ∈ paths, path.lastName?.any Utf8.isValid
  distinct : (paths.map Path.lastName?).Nodup

instance : DecidablePred WellNamed :=
  fun _ => decidable_of_iff (_ ∧ _) ⟨fun h => ⟨h.1, h.2⟩, fun h => ⟨h.valid, h.distinct⟩⟩

/-- The failure of a path that cannot name one more entry after those of other paths: its base name
is no text, or one of the others has it. -/
inductive Refused (earlier : List Path) (path : Path) : Failure → Prop where
  | unnamed (h : ¬ path.lastName?.any Utf8.isValid) :
      Refused earlier path (.config (.evidenceName path))
  | used {name : Name} (hname : path.lastName? = some name) (hvalid : Utf8.isValid name)
      (h : some name ∈ earlier.map Path.lastName?) :
      Refused earlier path (.archive (.duplicateName name))

/-! ### Names -/

theorem wellNamed_nil : WellNamed [] where
  valid := List.forall_mem_nil _
  distinct := List.nodup_nil

/-- A path without which the others are well named, and with which they are not, is refused. -/
theorem exists_refused {earlier : List Path} {path : Path} (h : WellNamed earlier)
    (hlost : ¬ WellNamed (earlier ++ [path])) :
  ∃ failure, Refused earlier path failure
  := by
  by_cases hvalid : path.lastName?.any Utf8.isValid
  · obtain ⟨name, hname⟩ := exists_lastName? hvalid
    obtain ⟨hname, hname'⟩ := Option.filter_eq_some_iff.mp hname
    by_cases hused : some name ∈ earlier.map Path.lastName?
    · exact ⟨_, .used hname hname' hused⟩
    · refine absurd ⟨?_, ?_⟩ hlost
      · rw [List.forall_mem_append, List.forall_mem_singleton]
        exact ⟨h.valid, hvalid⟩
      · rw [List.map_append, List.map_singleton, hname, List.nodup_append_comm]
        exact List.nodup_cons.mpr ⟨hused, h.distinct⟩
  · exact ⟨_, .unnamed hvalid⟩

/-- A list that lacks what the empty list has loses it at one of its elements. -/
theorem exists_loss {α : Type} {p : List α → Prop} (hnil : p []) {list : List α} (h : ¬ p list) :
  ∃ before a after, list = before ++ a :: after ∧ p before ∧ ¬ p (before ++ [a])
  := by
  -- The list is taken apart from its end: either the loss has happened before the last element, or
  -- it happens there.
  induction list using List.reverseRecOn with
  | nil => exact absurd hnil h
  | append_singleton init last ih =>
      by_cases hinit : p init
      · exact ⟨init, last, [], rfl, hinit, h⟩
      · obtain ⟨before, a, after, rfl, hbefore, hlost⟩ := ih hinit
        use before, a, after ++ [last]
        rw [List.append_assoc, List.cons_append]
        exact ⟨rfl, hbefore, hlost⟩

section Present

variable {files : FileSystem} {paths : List Path}

theorem nodup_names_of_wellNamed (h : WellNamed (present files paths)) :
  (taken files paths).names.Nodup
  := by
  have hdistinct := h.distinct
  rw [map_lastName?_eq h.valid] at hdistinct
  apply hdistinct.of_map

/-- Paths whose regular files are well named can all be added to an archive that none of them leads
to, if they can be stored. -/
theorem packable_of_wellNamed {location : Location} (hstorable : Storable files paths)
    (hapart : ∀ path ∈ paths, files.place? path ≠ some location)
    (h : WellNamed (present files paths)) :
  Packable files location [] paths
  where
  apart := hapart
  named path hpath hfile := exists_lastName? (h.valid path (List.mem_filter.mpr ⟨hpath, hfile⟩))
  storable := hstorable
  distinct := nodup_names_of_wellNamed h

/-- Paths whose regular files are not well named have a first one that is refused. -/
theorem exists_first_refused (h : ¬ WellNamed (present files paths)) :
  ∃ earlier path later failure, paths = earlier ++ path :: later ∧ files.isFile path
    ∧ WellNamed (present files earlier) ∧ Refused (present files earlier) path failure
  := by
  obtain ⟨earlier, path, later, rfl, hearlier, hlost⟩ :=
    exists_loss (p := fun paths => WellNamed (present files paths)) wellNamed_nil h
  cases hfile : files.isFile path with
  | false =>
      simp only [present, List.filter_append, List.filter_singleton, hfile, cond_false,
        List.append_nil] at hlost
      exact absurd hearlier hlost
  | true =>
      simp only [present, List.filter_append, List.filter_singleton, hfile, cond_true] at hlost
      obtain ⟨failure, hrefused⟩ := exists_refused hearlier hlost
      exact ⟨earlier, path, later, failure, rfl, hfile, hearlier, hrefused⟩

end Present

/-! ### Adding up to the first failure -/

theorem Progress.addAll_append {location : Location} {progress reached : Progress}
    {first : List Path} (h : progress.addAll location first = (reached, none))
    (second : List Path) :
  progress.addAll location (first ++ second) = reached.addAll location second
  := by
  induction first generalizing progress with
  | nil =>
      cases h
      rfl
  | cons path rest ih =>
      rw [List.cons_append, Progress.addAll]
      rw [Progress.addAll] at h
      cases hadd : progress.add location path with
      | error failure =>
          rw [hadd] at h
          cases h
      | ok progress' =>
          rw [hadd] at h
          apply ih h

section Refusal

variable {files : FileSystem} {location : Location} {earlier : List Path} {path : Path}
  {failure : Failure} (htakes : files.TakesArchive location)

include htakes

/-- A file that is refused after those that have become entries is not added. -/
theorem add_of_refused {progress : Progress}
    (hchanges : files.ChangesLeaf location progress.files)
    (hapart : files.place? path ≠ some location) (hfile : files.isFile path)
    (hnames : ∀ name, some name ∈ earlier.map Path.lastName? → name ∈ progress.entries.names)
    (h : Refused earlier path failure) :
  progress.add location path = .error failure
  := by
  obtain ⟨content, hcontent⟩ := Option.isSome_iff_exists.mp hfile
  have hadd := add_eq htakes hchanges hapart
  cases h with
  | unnamed hinvalid =>
      rw [← Option.isSome_filter, Option.not_isSome_iff_eq_none] at hinvalid
      simpa only [hcontent, hinvalid] using hadd
  | used hname hvalid hused =>
      have hsome := Option.filter_eq_some_iff.mpr ⟨hname, hvalid⟩
      simpa only [hcontent, hsome, if_pos (hnames _ hused)] using hadd

/-- Adding stops at the first file that is refused, with what the paths before it have given. -/
theorem addAll_of_refused {created : FileSystem} (hcreated : files.ChangesLeaf location created)
    (hearlier : WellNamed (present files earlier)) (later : List Path)
    (hstorable : Storable files (earlier ++ path :: later))
    (hapart : ∀ listed ∈ earlier ++ path :: later, files.place? listed ≠ some location)
    (hfile : files.isFile path) (h : Refused (present files earlier) path failure) :
  ∃ reached,
    (Progress.initial created).addAll location (earlier ++ path :: later) = (reached, some failure)
    ∧ files.ChangesLeaf location reached.files
    ∧ reached.entries = (taken files earlier).reverse
    ∧ reached.skipped = (missing files earlier).reverse
  := by
  obtain ⟨haparts, hrest⟩ := List.forall_mem_append.mp hapart
  obtain ⟨hapart, -⟩ := List.forall_mem_cons.mp hrest
  obtain ⟨hstorable, -⟩ := List.forall_mem_append.mp hstorable
  obtain ⟨reached, hadded, hchanges, hentries, hskipped⟩ := addAll_of_packable htakes
    (.initial created) hcreated (packable_of_wellNamed hstorable haparts hearlier)
  rw [Progress.initial, List.append_nil] at hentries hskipped
  have hnames : ∀ name, some name ∈ (present files earlier).map Path.lastName? →
      name ∈ reached.entries.names := by
    intro name hname
    rw [map_lastName?_eq hearlier.valid,
      List.mem_map_of_injective (Option.some_injective _)] at hname
    rwa [hentries, Archive.names, List.map_reverse, List.mem_reverse]
  have hadd := add_of_refused htakes hchanges hapart hfile hnames h
  use reached
  rw [Progress.addAll_append hadded, Progress.addAll, hadd]
  exact ⟨rfl, hchanges, hentries, hskipped⟩

end Refusal

/-! ### The outcome -/

/-- The archive is closed also when a candidate fails, after the warnings about those skipped. -/
theorem runIn_writeArchive_of_failure {world : World} {bundle : Bundle} {location : Location}
    {created : FileSystem} {reached : Progress} {failure : Failure}
    (hcreate : world.files.create bundle.archive = .ok (location, created))
    (hadd : Progress.addAll location (.initial created) bundle.files = (reached, some failure)) :
  (writeArchive bundle).runIn world
    = (.error failure,
      { world with
          files := reached.files.setContent location (.archive reached.entries.reverse) }.logged
        (reached.skipped.reverse.map skipWarning))
  := by
  simp only [writeArchive, Session.runIn_bind, Session.runIn_files, hcreate, hadd,
    Session.runIn_change, Session.runIn_logAll, Session.runIn_throw]

/-- Unless an archive was to be written to a device, it holds the entries of the regular files among
some paths, one for each in order, with the contents that these had before, and it is read back as
such. -/
def HoldsEntries (before after : FileSystem) (archive : Path) (paths : List Path) : Prop :=
  (∀ device, before.nodeAt archive ≠ .ok (.device device)) →
    ∃ entries, after.content? archive = some (.archive entries)
      ∧ List.Forall₂ (IsEntryOf before) (present before paths) entries
      ∧ ReadsBack entries

theorem holdsEntries_of_content? {before after : FileSystem} {archive : Path} {location : Location}
    {paths : List Path} (hplace : before.place? archive = some location)
    (hstorable : Storable before paths) (h : WellNamed (present before paths))
    (hcontent : (∀ device, before.node? location ≠ some (.device device)) →
      after.content? archive = some (.archive (taken before paths))) :
  HoldsEntries before after archive paths
  := by
  intro hdevice
  refine ⟨_, hcontent fun device hnode => ?_, forall₂_isEntryOf h.valid hstorable, ?_⟩
  · apply hdevice device
    apply FileSystem.nodeAt_of_place? hplace hnode
  · apply readsBack_taken (nodup_names_of_wellNamed h)

/-- A bundle whose regular files can be stored, whose archive can be written, and to whose archive
no listed path leads, is written if its regular files are well named. What is packed are the base
names of these files in order, and the other paths are skipped, each with a warning. If the files
are not well named, the first that is refused decides how writing fails, and the archive is left
with the entries of the files before it. -/
theorem writeArchive_outcome {world : World} {bundle : Bundle}
    (hstorable : Storable world.files bundle.files)
    (hwrite : world.files.CanWrite bundle.archive)
    (hapart : ∀ path ∈ bundle.files,
      world.files.place? path ≠ world.files.place? bundle.archive) :
  ∃ result files records,
    (writeArchive bundle).runIn world = (result, { world with files := files }.logged records)
    ∧ (WellNamed (present world.files bundle.files) →
        (∃ packed, packed.map some = (present world.files bundle.files).map Path.lastName?
          ∧ result = .ok ⟨bundle.archive, packed, missing world.files bundle.files⟩)
        ∧ records = writtenRecords world.files bundle
        ∧ HoldsEntries world.files files bundle.archive bundle.files)
    ∧ (¬ WellNamed (present world.files bundle.files) →
        ∃ earlier path later failure, bundle.files = earlier ++ path :: later
          ∧ world.files.isFile path
          ∧ WellNamed (present world.files earlier)
          ∧ Refused (present world.files earlier) path failure
          ∧ result = .error failure
          ∧ (∀ name, failure = .archive (.duplicateName name) → failure.message
              = "Archive error: invalid Zip archive: Duplicate filename: " ++ Utf8.display name)
          ∧ records = (missing world.files earlier).map skipWarning
          ∧ HoldsEntries world.files files bundle.archive earlier)
  := by
  obtain ⟨location, created, hcreate, htakes⟩ := hwrite
  obtain ⟨hplace, hcreated⟩ := FileSystem.create_eq_ok hcreate
  rw [hplace] at hapart
  by_cases hnamed : WellNamed (present world.files bundle.files)
  · have hpackable := packable_of_wellNamed hstorable hapart hnamed
    obtain ⟨files, hrun, -, hcontent⟩ := runIn_writeArchive hcreate htakes hpackable
    refine ⟨_, files, _, hrun, fun _ => ⟨?_, rfl, ?_⟩, fun hnot => absurd hnamed hnot⟩
    · exact ⟨_, (map_lastName?_eq hnamed.valid).symm, rfl⟩
    · apply holdsEntries_of_content? hplace hstorable hnamed hcontent
  · obtain ⟨earlier, path, later, failure, hfiles, hfile, hearlier, hrefused⟩ :=
      exists_first_refused hnamed
    rw [hfiles] at hapart hstorable
    obtain ⟨reached, hadd, hchanges, hentries, hskipped⟩ :=
      addAll_of_refused htakes hcreated hearlier later hstorable hapart hfile hrefused
    rw [← hfiles] at hadd
    have hrun := runIn_writeArchive_of_failure hcreate hadd
    rw [hentries, hskipped, List.reverse_reverse, List.reverse_reverse] at hrun
    refine ⟨_, _, _, hrun, fun hnot => absurd hnot hnamed, fun _ => ?_⟩
    refine ⟨earlier, path, later, failure, hfiles, hfile, hearlier, hrefused, rfl, ?_, rfl, ?_⟩
    · rintro name rfl
      rfl
    · obtain ⟨hstorable, -⟩ := List.forall_mem_append.mp hstorable
      apply holdsEntries_of_content? hplace hstorable hearlier
      intro hdevice
      apply hchanges.content?_setContent hplace hdevice

/-- A directory with a file and a link to it. -/
def aliasWorld : World :=
  worldWith [("a", .file (.data [0x31]) false), ("b", .link (Bytes.ofString "a"))]

/-- A bundle that lists the link, a path that leads nowhere, the link once more and the file. -/
def aliasBundle : Bundle where
  files := ["b", "gone", "./b", "a"].map Bytes.ofString
  archive := Bytes.ofString "out.zip"

/-- The second time that the link is listed is the first at which a file is refused. -/
theorem aliasBundle_split {earlier later : List Path} {path : Path} {failure : Failure}
    (hfiles : aliasBundle.files = earlier ++ path :: later) (hfile : aliasWorld.files.isFile path)
    (hearlier : WellNamed (present aliasWorld.files earlier))
    (h : Refused (present aliasWorld.files earlier) path failure) :
  earlier = ["b", "gone"].map Bytes.ofString ∧ path = Bytes.ofString "./b"
  := by
  rw [aliasBundle] at hfiles
  rcases earlier with _ | ⟨first, _ | ⟨second, _ | ⟨third, rest⟩⟩⟩
  · cases hfiles
    cases h with
    | unnamed hinvalid => exact absurd (by decide) hinvalid
    | used _ _ hused => exact absurd hused List.not_mem_nil
  · cases hfiles
    exact absurd hfile (by decide)
  · cases hfiles
    exact ⟨rfl, rfl⟩
  · rcases rest with _ | ⟨fourth, rest⟩
    · cases hfiles
      exact absurd hearlier (by decide)
    · simp at hfiles

theorem writeArchive_outcome_aliasWorld :
  Storable aliasWorld.files aliasBundle.files
    ∧ aliasWorld.files.CanWrite aliasBundle.archive
    ∧ (∀ path ∈ aliasBundle.files,
        aliasWorld.files.place? path ≠ aliasWorld.files.place? aliasBundle.archive)
    ∧ ¬ WellNamed (present aliasWorld.files aliasBundle.files)
    ∧ ∃ failure files,
        (writeArchive aliasBundle).runIn aliasWorld
          = (.error failure, { aliasWorld with files := files }.logged
              [skipWarning (Bytes.ofString "gone")])
        ∧ failure.message = "Archive error: invalid Zip archive: Duplicate filename: b"
        ∧ files.content? aliasBundle.archive
          = some (.archive [⟨Bytes.ofString "b", [0x31], entryTime⟩])
  := by
  have hstorable : Storable aliasWorld.files aliasBundle.files := by decide
  have hwrite : aliasWorld.files.CanWrite aliasBundle.archive :=
    ⟨aliasWorld.files.workingDirectory.enter (Bytes.ofString "out.zip"), _, rfl, by decide⟩
  have hapart : ∀ path ∈ aliasBundle.files,
      aliasWorld.files.place? path ≠ aliasWorld.files.place? aliasBundle.archive := by decide
  have hnamed : ¬ WellNamed (present aliasWorld.files aliasBundle.files) := by decide
  obtain ⟨result, files, records, hrun, -, hfails⟩ := writeArchive_outcome hstorable hwrite hapart
  obtain ⟨earlier, path, later, failure, hfiles, hfile, hearlier, hrefused, rfl, hmessage, rfl,
    hholds⟩ := hfails hnamed
  obtain ⟨rfl, rfl⟩ := aliasBundle_split hfiles hfile hearlier hrefused
  have hpresent : present aliasWorld.files (["b", "gone"].map Bytes.ofString)
      = [Bytes.ofString "b"] := by decide
  have hmissing : missing aliasWorld.files (["b", "gone"].map Bytes.ofString)
      = [Bytes.ofString "gone"] := by decide
  have hnode : aliasWorld.files.nodeAt aliasBundle.archive = .error .notFound := rfl
  have hread : aliasWorld.files.read (Bytes.ofString "b") = .ok [0x31] := rfl
  obtain ⟨entries, hcontent, hentries, -⟩ := hholds fun device hdevice => by
    rw [hnode] at hdevice
    cases hdevice
  rw [hpresent] at hrefused hentries
  rw [hmissing] at hrun
  refine ⟨hstorable, hwrite, hapart, hnamed, failure, files, hrun, ?_, ?_⟩
  · cases hrefused with
    | unnamed hinvalid => exact absurd (by decide) hinvalid
    | used hname _ _ =>
        cases hname
        apply hmessage _ rfl
  · cases hentries with
    | @cons _ entry _ _ hentry hnone =>
        cases hnone
        obtain ⟨name, data, modified⟩ := entry
        obtain ⟨hname, hdata, hmodified⟩ := hentry
        cases hname
        cases hread.symm.trans hdata
        cases hmodified
        apply hcontent

/-- A bundle of the metadata file, for the archive that is a link to a device. -/
def forgettingBundle : Bundle where
  files := [Bytes.ofString metadataFile]
  archive := Bytes.ofString archiveFile

/-- An archive that is written to a device has no entries afterwards, although all files are well
named and writing succeeds. -/
theorem writeArchive_forgettingWorld :
  Storable forgettingWorld.files forgettingBundle.files
    ∧ forgettingWorld.files.CanWrite forgettingBundle.archive
    ∧ (∀ path ∈ forgettingBundle.files,
        forgettingWorld.files.place? path
          ≠ forgettingWorld.files.place? forgettingBundle.archive)
    ∧ WellNamed (present forgettingWorld.files forgettingBundle.files)
    ∧ ∃ final,
        (writeArchive forgettingBundle).runIn forgettingWorld
          = (.ok ⟨forgettingBundle.archive, [Bytes.ofString metadataFile], []⟩, final)
        ∧ final.files.content? forgettingBundle.archive = none
  := by
  have hcreate : forgettingWorld.files.create forgettingBundle.archive
      = .ok (nullDevice, forgettingWorld.files) := rfl
  have htakes : forgettingWorld.files.TakesArchive nullDevice := by decide
  have hstorable : Storable forgettingWorld.files forgettingBundle.files := by decide
  have hapart : ∀ path ∈ forgettingBundle.files,
      forgettingWorld.files.place? path ≠ some nullDevice := by decide
  have hnamed : WellNamed (present forgettingWorld.files forgettingBundle.files) := by decide
  have hplace := (FileSystem.create_eq_ok hcreate).1
  obtain ⟨files, hrun, hchanges, -⟩ :=
    runIn_writeArchive hcreate htakes (packable_of_wellNamed hstorable hapart hnamed)
  have hnode : files.node? nullDevice = some (.device .null) :=
    (hchanges.device .null).mpr (by decide)
  refine ⟨hstorable, ⟨_, _, hcreate, htakes⟩, hplace ▸ hapart, hnamed, _, hrun, ?_⟩
  rw [World.files_logged, FileSystem.content?,
    FileSystem.nodeAt_of_place? ((hchanges.place?_eq _).trans hplace) hnode]

end Proctor.Evidence
