import Proctor.Proofs.Evidence.Package

/-!
# What packing leaves alone

However packing ends, the files are those that were there, or they have changed at the location of
the archive and nowhere else. A candidate keeps what it holds unless it leads to that location, and
if it leads there it holds an archive afterwards.
-/

namespace Proctor.Evidence

section Steps

variable {location : Location}

/-- Adding a candidate changes files at the location of the archive only. -/
theorem changesLeaf_add {progress progress' : Progress} {path : Path}
    (hleaf : progress.files.shape? location = some .leaf)
    (h : progress.add location path = .ok progress') :
  progress.files.ChangesLeaf location progress'.files
  := by
  obtain rfl | ⟨entry, rfl⟩ := Progress.add_eq_ok h
  · apply FileSystem.ChangesLeaf.refl hleaf
  · apply FileSystem.changesLeaf_setContent hleaf

theorem changesLeaf_addAll (progress : Progress) (paths : List Path)
    (hleaf : progress.files.shape? location = some .leaf) :
  progress.files.ChangesLeaf location (progress.addAll location paths).1.files
  := by
  induction paths generalizing progress with
  | nil => apply FileSystem.ChangesLeaf.refl hleaf
  | cons path rest ih =>
      rw [Progress.addAll]
      cases hadd : progress.add location path with
      | error failure => apply FileSystem.ChangesLeaf.refl hleaf
      | ok progress' =>
          have hchanges := changesLeaf_add hleaf hadd
          apply hchanges.trans (ih progress' hchanges.leaf)

end Steps

section Writing

variable {world : World} {bundle : Bundle}

theorem files_writeArchive_of_error {fault : IoFault}
    (hcreate : world.files.create bundle.archive = .error fault) :
  ((writeArchive bundle).runIn world).2.files = world.files
  := by
  simp only [writeArchive, Session.runIn_bind, Session.runIn_files, hcreate, Session.runIn_throw]

/-- Once the archive has been opened, the candidates are added to it and whatever happens it is
closed as an archive. -/
theorem runIn_writeArchive_of_ok {location : Location} {created : FileSystem} {progress : Progress}
    {failure? : Option Failure}
    (hcreate : world.files.create bundle.archive = .ok (location, created))
    (hadd : Progress.addAll location (.initial created) bundle.files = (progress, failure?)) :
  ∃ records, (writeArchive bundle).runIn world
    = (match failure? with
        | some failure => .error failure
        | none =>
          if (created.node? location).any Node.refusesArchive then .error (.archive .unwritable)
          else .ok ⟨bundle.archive, Archive.names progress.entries.reverse,
            progress.skipped.reverse⟩,
      { world with
          files := progress.files.setContent location (.archive progress.entries.reverse) }.logged
        records)
  := by
  simp only [writeArchive, Session.runIn_bind, Session.runIn_files, hcreate, hadd,
    Session.runIn_change, Session.runIn_logAll]
  cases failure? with
  | some failure => exact ⟨_, rfl⟩
  | none =>
      dsimp only
      split
      · exact ⟨_, rfl⟩
      · simp only [Session.runIn_bind, Session.runIn_log, Session.runIn_pure, World.logged_logged]
        exact ⟨_, rfl⟩

theorem files_writeArchive_of_ok {location : Location} {created : FileSystem}
    (hcreate : world.files.create bundle.archive = .ok (location, created)) :
  ∃ files entries, world.files.ChangesLeaf location files
    ∧ ((writeArchive bundle).runIn world).2.files = files.setContent location (.archive entries)
  := by
  have hcreated := (FileSystem.create_eq_ok hcreate).2
  have hadded := changesLeaf_addAll (.initial created) bundle.files hcreated.leaf
  cases hadd : Progress.addAll location (.initial created) bundle.files with
  | mk progress failure? =>
      rw [hadd] at hadded
      obtain ⟨records, hrun⟩ := runIn_writeArchive_of_ok hcreate hadd
      use progress.files, progress.entries.reverse, hcreated.trans hadded
      rw [hrun, World.files_logged]

/-- The files are those that were there, or they have changed where the archive leads. -/
theorem files_writeArchive (world : World) (bundle : Bundle) :
  ((writeArchive bundle).runIn world).2.files = world.files
    ∨ ∃ location, world.files.place? bundle.archive = some location
      ∧ world.files.ChangesLeaf location ((writeArchive bundle).runIn world).2.files
  := by
  cases hcreate : world.files.create bundle.archive with
  | error fault =>
      left
      apply files_writeArchive_of_error hcreate
  | ok created =>
      obtain ⟨location, created⟩ := created
      obtain ⟨files, entries, hchanges, hfiles⟩ := files_writeArchive_of_ok hcreate
      right
      use location, (FileSystem.create_eq_ok hcreate).1
      rw [hfiles]
      apply hchanges.trans (FileSystem.changesLeaf_setContent hchanges.leaf _)

/-- A path that does not lead where the archive leads gives what it gave. -/
theorem content?_writeArchive (world : World) {path : Path}
    (hapart : world.files.place? path ≠ world.files.place? bundle.archive) :
  ((writeArchive bundle).runIn world).2.files.content? path = world.files.content? path
  := by
  obtain heq | ⟨location, hplace, hchanges⟩ := files_writeArchive world bundle
  · rw [heq]
  · apply hchanges.content?_eq
    rwa [← hplace]

/-- A regular file that leads where the archive leads is written over once the archive can be
opened. -/
theorem content?_writeArchive_of_place? (world : World) {path : Path}
    {opened : Location × FileSystem}
    (hcreate : world.files.create bundle.archive = .ok opened) (hfile : world.files.isFile path)
    (hplace : world.files.place? path = world.files.place? bundle.archive) :
  ∃ entries, ((writeArchive bundle).runIn world).2.files.content? path = some (.archive entries)
  := by
  obtain ⟨location, created⟩ := opened
  obtain ⟨files, entries, hchanges, hfiles⟩ := files_writeArchive_of_ok hcreate
  rw [(FileSystem.create_eq_ok hcreate).1] at hplace
  have hdevice : ∀ device, world.files.node? location ≠ some (.device device) := by
    intro device hnode
    rw [FileSystem.isFile, FileSystem.content?, FileSystem.nodeAt_of_place? hplace hnode] at hfile
    cases hfile
  use entries
  rw [hfiles]
  apply hchanges.content?_setContent hplace hdevice

end Writing

theorem list_of_discover {files : FileSystem} {directory : Path} {discovered : Bundle}
    (h : discover files directory = .ok discovered) :
  ∃ names, files.list directory = .ok names ∧ discovered = bundle files directory names
  := by
  rw [discover] at h
  split at h
  · next names hlist =>
    cases h
    exact ⟨names, hlist, rfl⟩
  · cases h

/-- However packing ends, each candidate that is a regular file holds what it held, unless it leads
where the archive leads. Such a candidate holds an archive once the archive can be opened. -/
theorem package_keeps_candidates {world : World} {directory : Path} {bundle : Bundle}
    (hdiscover : discover world.files directory = .ok bundle) :
  ∃ result final, (package directory).runIn world = (result, final)
    ∧ ∀ path ∈ bundle.files, world.files.isFile path →
      (world.files.place? path ≠ world.files.place? (archivePath directory) →
        final.files.content? path = world.files.content? path)
      ∧ (world.files.place? path = world.files.place? (archivePath directory) →
        (∃ opened, world.files.create (archivePath directory) = .ok opened) →
        ∃ entries, final.files.content? path = some (.archive entries))
  := by
  obtain ⟨names, hlist, rfl⟩ := list_of_discover hdiscover
  rw [runIn_package hlist]
  refine ⟨_, _, rfl, ?_⟩
  intro path _ hfile
  constructor
  · intro hapart
    exact content?_writeArchive (world.note (.packaging directory)) hapart
  · rintro hplace ⟨opened, hcreate⟩
    exact content?_writeArchive_of_place? (world.note (.packaging directory)) hcreate hfile hplace

theorem package_keeps_candidates_linkedWorld :
  discover linkedWorld.files Path.selfName
      = .ok (bundle linkedWorld.files Path.selfName linkedNames)
    ∧ ∃ result final,
      (package Path.selfName).runIn linkedWorld = (result, final)
      ∧ final.files.content? (Path.join Path.selfName (Bytes.ofString "testcase-10.xml"))
        = some (.data [0x62])
  := by
  have hdiscover : discover linkedWorld.files Path.selfName
      = .ok (bundle linkedWorld.files Path.selfName linkedNames) := rfl
  have hmem : Path.join Path.selfName (Bytes.ofString "testcase-10.xml")
      ∈ (bundle linkedWorld.files Path.selfName linkedNames).files := by
    rw [bundle, testCases_linkedWorld]
    decide
  obtain ⟨result, final, hrun, hkeeps⟩ := package_keeps_candidates hdiscover
  use hdiscover, result, final, hrun
  apply (hkeeps _ hmem rfl).1
  decide

/-- A directory whose archive is a link to the metadata file. -/
def overwritingWorld : World :=
  worldWith [("metadata.xml", .file (.data [0x6D]) false),
    ("test-suite.zip", .link (Bytes.ofString "metadata.xml"))]

/-- The entries of that directory as they are listed. -/
def overwritingNames : List Name :=
  ["metadata.xml", "test-suite.zip"].map Bytes.ofString

/-- The candidates in that directory. -/
def overwritingBundle : Bundle :=
  bundle overwritingWorld.files Path.selfName overwritingNames

/-- Packing that directory puts an archive in the place of what the metadata file held. -/
theorem package_overwritingWorld :
  discover overwritingWorld.files Path.selfName = .ok overwritingBundle
    ∧ metadataPath Path.selfName ∈ overwritingBundle.files
    ∧ overwritingWorld.files.content? (metadataPath Path.selfName) = some (.data [0x6D])
    ∧ ∃ result final entries,
      (package Path.selfName).runIn overwritingWorld = (result, final)
      ∧ final.files.content? (metadataPath Path.selfName) = some (.archive entries)
  := by
  have hlist : overwritingWorld.files.list Path.selfName = .ok overwritingNames := rfl
  have hdiscover : discover overwritingWorld.files Path.selfName = .ok overwritingBundle := by
    rw [discover, hlist]
    rfl
  have hcreate : ∃ opened,
      overwritingWorld.files.create overwritingBundle.archive = .ok opened := ⟨_, rfl⟩
  have hfile : overwritingWorld.files.isFile (metadataPath Path.selfName) := rfl
  have hplace : overwritingWorld.files.place? (metadataPath Path.selfName)
      = overwritingWorld.files.place? overwritingBundle.archive := by decide
  have hmem : metadataPath Path.selfName ∈ overwritingBundle.files :=
    List.mem_append_right _ (List.mem_singleton_self _)
  obtain ⟨opened, hcreate⟩ := hcreate
  obtain ⟨entries, hcontent⟩ := content?_writeArchive_of_place?
    (overwritingWorld.note (.packaging Path.selfName)) hcreate hfile hplace
  exact ⟨hdiscover, hmem, rfl, _, _, entries, runIn_package hlist, hcontent⟩

/-- The location of a file that can be reached by its names only. -/
def sharedPlace : Location :=
  .ofNames [[], Bytes.ofString "file"]

/-- A directory in which a test case and the archive are two names of that file. -/
def sharedFiles : FileSystem :=
  (worldWith [("testcase-1.xml", .hardLink sharedPlace),
    ("test-suite.zip", .hardLink sharedPlace)]).files.put sharedPlace (.file (.data [0x61]) false)

example :
  sharedFiles.list Path.selfName
      = .ok (["test-suite.zip", "testcase-1.xml"].map Bytes.ofString)
    ∧ sharedFiles.isFile (Path.join Path.selfName (Bytes.ofString "testcase-1.xml"))
    ∧ sharedFiles.place? (Path.join Path.selfName (Bytes.ofString "testcase-1.xml"))
      = sharedFiles.place? (archivePath Path.selfName)
  := ⟨rfl, rfl, by decide⟩

end Proctor.Evidence
