import Proctor.Proofs.Evidence.Frame
import Proctor.Proofs.Evidence.Order

/-!
# Packing again

What is packed does not depend on what there was at the location of the archive, as long as no name
of a candidate leads there. Packing a directory a second time therefore packs the same again, and a
previous archive leaves no trace.
-/

namespace Proctor.Evidence

/-! ### Directories that can be packed -/

/-- The names of candidates, whether a directory has them or not. -/
def IsCandidateName (name : Name) : Prop :=
  name = Bytes.ofString metadataFile ∨ (index? name).isSome

instance : DecidablePred IsCandidateName :=
  fun _ => inferInstanceAs (Decidable (_ ∨ _))

/-- A directory with the given entries, in which no name of a candidate leads to a location. -/
structure Separate (files : FileSystem) (directory : Path) (location : Location)
    (names : List Name) : Prop where
  list : files.list directory = .ok names
  apart : ∀ name, IsCandidateName name → files.place? (directory.join name) ≠ some location

/-- A directory can be packed into an archive at a location, to which no name of a candidate
leads. -/
structure Ready (files : FileSystem) (directory : Path) (location : Location) (names : List Name) :
    Prop extends Separate files directory location names where
  storable : Storable files (bundle files directory names).files
  create : ∃ created, files.create (archivePath directory) = .ok (location, created)
  takes : files.TakesArchive location

theorem isCandidateName_of_mem {files : FileSystem} {directory : Path} {names : List Name}
    {name : Name} (h : name ∈ candidates files directory names) :
  IsCandidateName name
  := by
  rw [candidates, List.mem_append, mem_map_name_testCases, List.mem_singleton] at h
  obtain ⟨-, -, hindex, -⟩ | hmetadata := h
  · apply Or.inr hindex
  · apply Or.inl hmetadata

namespace Separate

variable {files files' : FileSystem} {directory : Path} {location : Location}
  {names names' : List Name}

theorem apart_of_mem (h : Separate files directory location names) :
  ∀ path ∈ (bundle files directory names).files, files.place? path ≠ some location
  := by
  rw [files_bundle, List.forall_mem_map]
  intro name hname
  apply h.apart name (isCandidateName_of_mem hname)

section Changes

variable (hchanges : files.ChangesLeaf location files')
  (h : Separate files directory location names) (h' : Separate files' directory location names')

include hchanges h h'

theorem testCases_eq :
  testCases files' directory names' = testCases files directory names
  := by
  apply testCases_congr h.list h'.list
  intro name hindex
  apply hchanges.isFile_eq (h.apart name (.inr hindex))

theorem packageOf_eq :
  packageOf files' directory names' = packageOf files directory names
  := by
  have hmetadata : files'.isFile (metadataPath directory) = files.isFile (metadataPath directory) :=
    hchanges.isFile_eq (h.apart _ (.inl rfl))
  rw [packageOf, testCases_eq hchanges h h', hmetadata, packageOf]

end Changes

end Separate

/-- What an archive holds once entries have been written to it, if it is no device. -/
def archived? (files : FileSystem) (location : Location) (entries : Archive) : Option Content :=
  match files.node? location with
  | some (.device _) => none
  | _ => some (.archive entries)

namespace Ready

variable {files files' : FileSystem} {directory : Path} {location : Location} {names : List Name}

/-- The entries that are packed. -/
abbrev entries (_ : Ready files directory location names) : Archive :=
  taken files (bundle files directory names).files

theorem place?_eq (h : Ready files directory location names) :
  files.place? (archivePath directory) = some location
  := by
  obtain ⟨created, hcreate⟩ := h.create
  apply (FileSystem.create_eq_ok hcreate).1

theorem runIn {world : World} (h : Ready world.files directory location names) :
  ∃ final, (package directory).runIn world
      = (.ok (packageOf world.files directory names), final)
    ∧ world.files.ChangesLeaf location final.files
    ∧ final.files.content? (archivePath directory) = archived? world.files location h.entries
  := by
  obtain ⟨created, hcreate⟩ := h.create
  obtain ⟨files, hrun, hchanges, hcontent⟩ :=
    runIn_package_of_apart h.list hcreate h.takes h.storable h.apart_of_mem
  refine ⟨_, hrun, hchanges, ?_⟩
  rw [World.files_logged, archived?]
  split
  · next device hnode =>
    have hplace := (hchanges.place?_eq _).trans (FileSystem.create_eq_ok hcreate).1
    rw [FileSystem.content?, FileSystem.nodeAt_of_place? hplace ((hchanges.device _).mpr hnode)]
  · next hdevice => apply hcontent hdevice

end Ready

/-! ### What success tells -/

section Again

variable {files files' : FileSystem} {directory : Path} {report : Package}
  {content : Option Content} {location : Location}

end Again

end Proctor.Evidence
