import Proctor.Proofs.Evidence.Packing

/-!
# Packing a directory

The evidence in a directory is packed whenever the directory can be listed, the candidates can be
stored, the archive can be written and no candidate leads to the archive. Neither a name that is
taken nor one that is not text can then come up, and nothing is lost, repeated or put in another
order: the archive has the test cases as they were discovered and then the metadata file, each with
what it held before.
-/

namespace Proctor.Evidence

section Entries

variable {files : FileSystem} {directory : Path} {names : List Name}

theorem lastName?_filter_isValid {name : Name} (h : Path.IsPlain name ∧ Utf8.isValid name) :
  (directory.join name).lastName?.filter Utf8.isValid = some name
  := by
  rw [Path.lastName?_join h.1, Option.filter_some, if_pos h.2]

/-- The entries in a directory are named as the files are. -/
theorem names_taken (h : ∀ name ∈ names, Path.IsPlain name ∧ Utf8.isValid name) :
  (taken files (names.map directory.join)).names
    = names.filter fun name => files.isFile (directory.join name)
  := by
  have hvalid : ∀ path ∈ present files (names.map directory.join),
      path.lastName?.any Utf8.isValid := by
    intro path hpath
    obtain ⟨name, hname, rfl⟩ := List.mem_map.mp (List.mem_of_mem_filter hpath)
    rw [← Option.isSome_filter, lastName?_filter_isValid (h name hname)]
    rfl
  have hlast : ∀ name ∈ names.filter fun name => files.isFile (directory.join name),
      (directory.join name).lastName? = some name :=
    fun name hname => Path.lastName?_join (h name (List.mem_of_mem_filter hname)).1 directory
  apply List.map_injective_iff.mpr (Option.some_injective Name)
  rw [← map_lastName?_eq hvalid, present, List.filter_map, List.map_map]
  apply List.map_congr_left hlast

theorem read_of_mem_taken (h : ∀ name ∈ names, Path.IsPlain name ∧ Utf8.isValid name)
    (hstorable : Storable files (names.map directory.join)) {entry : Entry}
    (hmem : entry ∈ taken files (names.map directory.join)) :
  files.read (directory.join entry.name) = .ok entry.data
  := by
  obtain ⟨path, hpath, htaken⟩ := List.mem_filterMap.mp hmem
  obtain ⟨name, hname, rfl⟩ := List.mem_map.mp hpath
  rw [taken?, lastName?_filter_isValid (h name hname)] at htaken
  split at htaken
  · next hcontent hsome =>
    cases hsome
    cases htaken
    apply (hstorable.read_eq hpath hcontent).1
  · cases htaken

end Entries

theorem nodup_names_taken {files : FileSystem} {directory : Path} {names : List Name}
    (h : names.Nodup) :
  (taken files (bundle files directory names).files).names.Nodup
  := by
  rw [files_bundle, names_taken fun _ => isPlain_of_mem_candidates]
  apply (nodup_candidates h).filter

/-- The candidates in a directory can all be packed, if they can be stored and none of them leads to
the archive. -/
theorem packable_bundle {files : FileSystem} {directory : Path} {names : List Name}
    {location : Location} (hnames : names.Nodup)
    (hstorable : Storable files (bundle files directory names).files)
    (hapart : ∀ path ∈ (bundle files directory names).files, files.place? path ≠ some location) :
  Packable files location [] (bundle files directory names).files
  where
  apart := hapart
  named path hpath _ := by
    rw [files_bundle] at hpath
    obtain ⟨name, hname, rfl⟩ := List.mem_map.mp hpath
    exact ⟨name, lastName?_filter_isValid (isPlain_of_mem_candidates hname)⟩
  storable := hstorable
  distinct := nodup_names_taken hnames

/-- Packing a directory is noted, and then its bundle is written. -/
theorem runIn_package {world : World} {directory : Path} {names : List Name}
    (h : world.files.list directory = .ok names) :
  (package directory).runIn world
    = (writeArchive (bundle world.files directory names)).runIn (world.note (.packaging directory))
  := by
  simp only [package, collect, Session.runIn_bind, Session.runIn_change, Session.runIn_files,
    World.files_note, discover, h, Session.runIn_liftM]

/-- The path of the archive in a directory. -/
abbrev archivePath (directory : Path) : Path :=
  directory.join (Bytes.ofString archiveFile)

/-- The path of the metadata file in a directory. -/
abbrev metadataPath (directory : Path) : Path :=
  directory.join (Bytes.ofString metadataFile)

/-- The package that comes of a directory with the given entries: the test cases in order, then the
metadata file if it is a regular file. If it is not, it is all that is skipped. -/
def packageOf (files : FileSystem) (directory : Path) (names : List Name) : Package where
  archive := archivePath directory
  packed := (testCases files directory names).map TestCase.name
    ++ if files.isFile (metadataPath directory) then [Bytes.ofString metadataFile] else []
  skipped := if files.isFile (metadataPath directory) then [] else [metadataPath directory]

theorem packageOf_eq (files : FileSystem) (directory : Path) (names : List Name) :
  packageOf files directory names
    = ⟨archivePath directory, (taken files (bundle files directory names).files).names,
        missing files (bundle files directory names).files⟩
  := by
  rw [packageOf, files_bundle, names_taken fun _ => isPlain_of_mem_candidates, filter_candidates,
    missing, List.filter_map, Function.comp_def, filter_not_candidates, apply_ite (List.map _)]
  rfl

/-- A directory whose candidates can be stored and do not lead to the archive is packed, and nothing
else changes than what there is at the location of the archive. -/
theorem runIn_package_of_apart {world : World} {directory : Path} {names : List Name}
    {location : Location} {created : FileSystem}
    (hlist : world.files.list directory = .ok names)
    (hcreate : world.files.create (archivePath directory) = .ok (location, created))
    (htakes : world.files.TakesArchive location)
    (hstorable : Storable world.files (bundle world.files directory names).files)
    (hapart : ∀ path ∈ (bundle world.files directory names).files,
      world.files.place? path ≠ some location) :
  ∃ files,
    (package directory).runIn world
      = (.ok (packageOf world.files directory names),
        { world.note (.packaging directory) with files := files }.logged
          (writtenRecords world.files (bundle world.files directory names)))
    ∧ world.files.ChangesLeaf location files
    ∧ ((∀ device, world.files.node? location ≠ some (.device device)) →
        files.content? (archivePath directory)
          = some (.archive (taken world.files (bundle world.files directory names).files)))
  := by
  have hpackable := packable_bundle (FileSystem.nodup_of_list hlist) hstorable hapart
  rw [runIn_package hlist, packageOf_eq]
  exact runIn_writeArchive hcreate htakes hpackable

/-- The evidence in a directory is packed if the directory can be listed, its candidates can be
stored, the archive can be written and no candidate leads to it. Unless the archive is written to a
device, it then holds the entries of the package, each with what the file held before, and it is
read back as such. -/
theorem package_of_apart {world : World} {directory : Path} {names : List Name}
    (hlist : world.files.list directory = .ok names)
    (hstorable : Storable world.files (bundle world.files directory names).files)
    (hwrite : world.files.CanWrite (archivePath directory))
    (hapart : ∀ path ∈ (bundle world.files directory names).files,
      world.files.place? path ≠ world.files.place? (archivePath directory)) :
  ∃ final,
    (package directory).runIn world = (.ok (packageOf world.files directory names), final)
    ∧ ((∀ device, world.files.nodeAt (archivePath directory) ≠ .ok (.device device)) →
        ∃ entries, final.files.content? (archivePath directory) = some (.archive entries)
          ∧ Archive.names entries = (packageOf world.files directory names).packed
          ∧ (∀ entry ∈ entries, world.files.read (directory.join entry.name) = .ok entry.data)
          ∧ ReadsBack entries)
  := by
  obtain ⟨location, created, hcreate, htakes⟩ := hwrite
  obtain ⟨hplace, -⟩ := FileSystem.create_eq_ok hcreate
  rw [hplace] at hapart
  obtain ⟨files, hrun, -, hcontent⟩ := runIn_package_of_apart hlist hcreate htakes hstorable hapart
  refine ⟨_, hrun, fun hdevice => ⟨_, hcontent fun device hnode => ?_, ?_, ?_, ?_⟩⟩
  · apply hdevice device
    apply FileSystem.nodeAt_of_place? hplace hnode
  · rw [packageOf_eq]
  · intro entry hentry
    rw [files_bundle] at hentry hstorable
    apply read_of_mem_taken (fun _ => isPlain_of_mem_candidates) hstorable hentry
  · apply readsBack_taken (nodup_names_taken (FileSystem.nodup_of_list hlist))

/-- A world whose working directory has the given entries. -/
def worldWith (entries : List (String × Node)) : World where
  files := entries.foldl
    (fun files (name, node) => files.put (files.workingDirectory.enter (Bytes.ofString name)) node)
    (FileSystem.empty [Bytes.ofString "work"])

/-- A directory with two test cases of the same index, one that is a link, one that is no file, and
an archive that is a dangling link. -/
def linkedWorld : World :=
  worldWith [("testcase-1.xml", .directory), ("testcase-02.xml", .file (.data [0x61]) false),
    ("testcase-2.xml", .file (.data [0x62]) false),
    ("testcase-10.xml", .link (Bytes.ofString "testcase-2.xml")),
    ("test-suite.zip", .link (Bytes.ofString "suite"))]

/-- The entries of that directory as they are listed. -/
def linkedNames : List Name :=
  ["test-suite.zip", "testcase-02.xml", "testcase-1.xml", "testcase-10.xml", "testcase-2.xml"].map
    Bytes.ofString

theorem testCases_linkedWorld :
  testCases linkedWorld.files Path.selfName linkedNames
    = [⟨2, Bytes.ofString "testcase-02.xml"⟩, ⟨2, Bytes.ofString "testcase-2.xml"⟩,
      ⟨10, Bytes.ofString "testcase-10.xml"⟩]
  := by
  have h : linkedNames.filterMap (testCase? linkedWorld.files Path.selfName)
      = [⟨2, Bytes.ofString "testcase-02.xml"⟩, ⟨10, Bytes.ofString "testcase-10.xml"⟩,
        ⟨2, Bytes.ofString "testcase-2.xml"⟩] := by decide
  have hle : ¬ Bytes.ofString "testcase-2.xml" < Bytes.ofString "testcase-02.xml" := by decide
  rw [testCases, h]
  simp [List.mergeSort, List.MergeSort.Internal.splitInTwo, TestCase.le, hle]

theorem package_of_apart_linkedWorld :
  linkedWorld.files.list Path.selfName = .ok linkedNames
    ∧ Storable linkedWorld.files (bundle linkedWorld.files Path.selfName linkedNames).files
    ∧ linkedWorld.files.CanWrite (archivePath Path.selfName)
    ∧ (∀ path ∈ (bundle linkedWorld.files Path.selfName linkedNames).files,
        linkedWorld.files.place? path ≠ linkedWorld.files.place? (archivePath Path.selfName))
    ∧ ∃ final entries,
        (package Path.selfName).runIn linkedWorld
          = (.ok ⟨archivePath Path.selfName,
              ["testcase-02.xml", "testcase-2.xml", "testcase-10.xml"].map Bytes.ofString,
              [metadataPath Path.selfName]⟩, final)
        ∧ final.files.content? (archivePath Path.selfName) = some (.archive entries)
        ∧ Archive.names entries
          = ["testcase-02.xml", "testcase-2.xml", "testcase-10.xml"].map Bytes.ofString
        ∧ ∀ entry ∈ entries,
            linkedWorld.files.read (Path.join Path.selfName entry.name) = .ok entry.data
  := by
  have hlist : linkedWorld.files.list Path.selfName = .ok linkedNames := rfl
  have hstorable : Storable linkedWorld.files
      (bundle linkedWorld.files Path.selfName linkedNames).files := by
    rw [bundle, testCases_linkedWorld]
    decide
  have hwrite : linkedWorld.files.CanWrite (archivePath Path.selfName) :=
    ⟨linkedWorld.files.workingDirectory.enter (Bytes.ofString "suite"), _, rfl, by decide⟩
  have hapart : ∀ path ∈ (bundle linkedWorld.files Path.selfName linkedNames).files,
      linkedWorld.files.place? path ≠ linkedWorld.files.place? (archivePath Path.selfName) := by
    rw [bundle, testCases_linkedWorld]
    decide
  have hpackage : packageOf linkedWorld.files Path.selfName linkedNames
      = ⟨archivePath Path.selfName,
        ["testcase-02.xml", "testcase-2.xml", "testcase-10.xml"].map Bytes.ofString,
        [metadataPath Path.selfName]⟩ := by
    rw [packageOf, testCases_linkedWorld]
    rfl
  have hnode : linkedWorld.files.nodeAt (archivePath Path.selfName) = .error .notFound := rfl
  obtain ⟨final, hrun, harchive⟩ := package_of_apart hlist hstorable hwrite hapart
  obtain ⟨entries, hcontent, hnames, hread, -⟩ := harchive fun device hdevice => by
    rw [hnode] at hdevice
    cases hdevice
  rw [hpackage] at hrun hnames
  exact ⟨hlist, hstorable, hwrite, hapart, final, entries, hrun, hcontent, hnames, hread⟩

/-- A directory with a metadata file, whose archive is a link to the device that forgets what is
written to it. -/
def forgettingWorld : World :=
  worldWith [("metadata.xml", .file (.data [0x6D]) false),
    ("test-suite.zip", .link (Bytes.ofString "/dev/null"))]

/-- The location of that device. -/
def nullDevice : Location :=
  Location.ofNames (["dev", "null"].map Bytes.ofString)

/-- The entries of that directory as they are listed. -/
def forgettingNames : List Name :=
  ["metadata.xml", "test-suite.zip"].map Bytes.ofString

/-- An archive that is written to a device cannot be read back, although packing succeeds and tells
what it has packed. -/
theorem package_forgettingWorld :
  forgettingWorld.files.list Path.selfName = .ok forgettingNames
    ∧ Storable forgettingWorld.files
        (bundle forgettingWorld.files Path.selfName forgettingNames).files
    ∧ forgettingWorld.files.CanWrite (archivePath Path.selfName)
    ∧ (∀ path ∈ (bundle forgettingWorld.files Path.selfName forgettingNames).files,
        forgettingWorld.files.place? path
          ≠ forgettingWorld.files.place? (archivePath Path.selfName))
    ∧ ∃ final,
        (package Path.selfName).runIn forgettingWorld
          = (.ok ⟨archivePath Path.selfName, [Bytes.ofString metadataFile], []⟩, final)
        ∧ final.files.content? (archivePath Path.selfName) = none
  := by
  have hlist : forgettingWorld.files.list Path.selfName = .ok forgettingNames := rfl
  have hcreate : forgettingWorld.files.create (archivePath Path.selfName)
      = .ok (nullDevice, forgettingWorld.files) := rfl
  have htakes : forgettingWorld.files.TakesArchive nullDevice := by decide
  have htestCases : testCases forgettingWorld.files Path.selfName forgettingNames = [] := by
    have h : forgettingNames.filterMap (testCase? forgettingWorld.files Path.selfName) = [] := by
      decide
    rw [testCases, h, List.mergeSort_nil]
  have hstorable : Storable forgettingWorld.files
      (bundle forgettingWorld.files Path.selfName forgettingNames).files := by
    rw [bundle, htestCases]
    decide
  have hapart : ∀ path ∈ (bundle forgettingWorld.files Path.selfName forgettingNames).files,
      forgettingWorld.files.place? path ≠ some nullDevice := by
    rw [bundle, htestCases]
    decide
  have hpackage : packageOf forgettingWorld.files Path.selfName forgettingNames
      = ⟨archivePath Path.selfName, [Bytes.ofString metadataFile], []⟩ := by
    rw [packageOf, htestCases]
    rfl
  have hplace := (FileSystem.create_eq_ok hcreate).1
  obtain ⟨files, hrun, hchanges, -⟩ := runIn_package_of_apart hlist hcreate htakes hstorable hapart
  have hnode : files.node? nullDevice = some (.device .null) :=
    (hchanges.device .null).mpr (by decide)
  rw [hpackage] at hrun
  refine ⟨hlist, hstorable, ⟨_, _, hcreate, htakes⟩, hplace ▸ hapart, _, hrun, ?_⟩
  rw [World.files_logged, FileSystem.content?,
    FileSystem.nodeAt_of_place? ((hchanges.place?_eq _).trans hplace) hnode]

end Proctor.Evidence
