import Proctor.FileSystem.Write
import Proctor.Proofs.FileSystem.Lookup

/-!
# What writing a file changes

Opening a file for writing and filling it change a file system at one location only, where there is
a file afterwards, or the device that was there. What is read through a path that leads elsewhere
stays what it was, and what was opened once can be opened again.
-/

namespace Proctor.FileSystem

/-! ### Nodes and paths -/

section View

variable {fs : FileSystem} {path : Path} {location : Location} {node : Node}

theorem shape?_of_node? (h : fs.node? location = some node) :
  fs.shape? location = some node.shape
  := by
  rw [shape?, h, Option.map_some]

theorem ne_root_of_shape? (h : fs.shape? location = some .leaf) :
  location ≠ .root
  := by
  rintro rfl
  cases h

/-- A path that leads to the location of a node leads to the node. -/
theorem nodeAt_of_place? (hplace : fs.place? path = some location)
    (hnode : fs.node? location = some node) :
  fs.nodeAt path = .ok node
  := by
  simp only [nodeAt, locate]
  cases hfind : fs.find false path with
  | error fault =>
      rw [place?, hfind] at hplace
      cases hplace
  | ok spot =>
      rw [place?, hfind] at hplace
      obtain rfl : spot.location = location := Option.some.inj hplace
      cases spot with
      | found found =>
          rw [Spot.location] at hnode
          simp only [hnode]
      | vacant directory name =>
          have hnone := shape?_of_find_vacant hfind
          have hsome := shape?_of_node? hnode
          rw [Spot.location, hnone] at hsome
          cases hsome

theorem content?_of_place? {content : Content} {executable : Bool}
    (hplace : fs.place? path = some location)
    (hnode : fs.node? location = some (.file content executable)) :
  fs.content? path = some content
  := by
  simp only [content?, nodeAt_of_place? hplace hnode]

/-- A regular file gives what it holds, or it may not be read. -/
theorem read_of_content? {content : Content} (h : fs.content? path = some content) :
  fs.read path = .ok content.bytes ∨ fs.read path = .error .permissionDenied
  := by
  simp only [content?, nodeAt] at h
  rw [read]
  cases hlocate : fs.locate path with
  | error fault => simp [hlocate] at h
  | ok location =>
      dsimp only
      split
      · apply Or.inr rfl
      · cases hnode : fs.node? location with
        | none => simp [hlocate, hnode] at h
        | some node =>
            cases node with
            | file held executable =>
                simp only [hlocate, hnode, Option.some.injEq] at h
                rw [← h]
                apply Or.inl rfl
            | directory | link | hardLink | device => simp [hlocate, hnode] at h

/-- What is read from a regular file is what it holds. -/
theorem read_eq_ok_iff {content : Content} (h : fs.content? path = some content) {data : Bytes} :
  fs.read path = .ok data ↔ (∃ data, fs.read path = .ok data) ∧ data = content.bytes
  := by
  obtain hread | hread := read_of_content? h
  · simp [hread, eq_comm]
  · simp [hread]

end View

/-! ### Places for archives -/

/-- An archive can be written to whatever there is at a location. -/
abbrev TakesArchive (fs : FileSystem) (location : Location) : Prop :=
  (fs.node? location).any Node.refusesArchive = false

theorem takesArchive_of_not_device {fs : FileSystem} {location : Location}
    (h : ∀ device, fs.node? location ≠ some (.device device)) :
  fs.TakesArchive location
  := by
  rw [TakesArchive]
  cases hnode : fs.node? location with
  | none => rfl
  | some node =>
      cases node with
      | device device => exact absurd hnode (h device)
      | file | directory | link | hardLink => rfl

/-! ### A change at one place -/

/-- Two file systems differ at most in the file at one place, which may be missing from the first
one. A device at the place is there in both. -/
structure ChangesLeaf (place : Location) (fs fs' : FileSystem) : Prop where
  workingDirectory : fs'.workingDirectory = fs.workingDirectory
  readable : fs'.readable = fs.readable
  writable : fs'.writable = fs.writable
  was : fs.shape? place = none ∨ fs.shape? place = some .leaf
  leaf : fs'.shape? place = some .leaf
  device : ∀ device,
    fs'.node? place = some (.device device) ↔ fs.node? place = some (.device device)
  elsewhere : ∀ location, location ≠ place → fs'.node? location = fs.node? location

namespace ChangesLeaf

variable {place : Location} {fs fs' fs'' : FileSystem} {path : Path}

theorem refl (h : fs.shape? place = some .leaf) :
  ChangesLeaf place fs fs
  where
  workingDirectory := rfl
  readable := rfl
  writable := rfl
  was := .inr h
  leaf := h
  device _ := Iff.rfl
  elsewhere _ _ := rfl

theorem trans (h : ChangesLeaf place fs fs') (h' : ChangesLeaf place fs' fs'') :
  ChangesLeaf place fs fs''
  where
  workingDirectory := h'.workingDirectory.trans h.workingDirectory
  readable := h'.readable.trans h.readable
  writable := h'.writable.trans h.writable
  was := h.was
  leaf := h'.leaf
  device device := (h'.device device).trans (h.device device)
  elsewhere location hne := (h'.elsewhere location hne).trans (h.elsewhere location hne)

/-- A file is put where there is nothing, or a file. -/
theorem put (hroot : place ≠ .root)
    (h : fs.node? place = none
      ∨ ∃ content executable, fs.node? place = some (.file content executable))
    (content : Content) (executable : Bool) :
  ChangesLeaf place fs (fs.put place (.file content executable))
  where
  workingDirectory := rfl
  readable := rfl
  writable := rfl
  was := by
    obtain hnode | ⟨_, _, hnode⟩ := h
    · apply Or.inl (Option.map_eq_none_iff.mpr hnode)
    · apply Or.inr (shape?_of_node? hnode)
  leaf := shape?_of_node? (node?_put_self fs _ hroot)
  device := by
    obtain hnode | ⟨_, _, hnode⟩ := h <;> simp [hnode, node?_put_self fs _ hroot]
  elsewhere _ hne := node?_put_of_ne fs _ hne

theorem putsLeaf (h : ChangesLeaf place fs fs') :
  Lookup.PutsLeaf place fs.shape? fs'.shape?
  where
  was := h.was
  leaf := h.leaf
  elsewhere location hne := by rw [shape?, h.elsewhere location hne, shape?]

theorem find (h : ChangesLeaf place fs fs') (creating : Bool) (path : Path) :
  Lookup.Filled place (fs.find creating path) (fs'.find creating path)
  := by
  obtain ⟨fault, hfault⟩ | hwalk := find_eq_walk path
  · rw [hfault, hfault]
    apply Lookup.Filled.error
  · rw [hwalk, hwalk, h.workingDirectory]
    apply h.putsLeaf.walk

/-- No path leads to another location than before. -/
theorem place?_eq (h : ChangesLeaf place fs fs') (path : Path) :
  fs'.place? path = fs.place? path
  := by
  have hfind := h.find false path
  rw [place?, place?]
  generalize fs.find false path = outcome, fs'.find false path = outcome' at hfind
  cases hfind with
  | @ok spot _ hspot =>
      rw [← hspot]
      apply congrArg some (spot.location_filled place)
  | error => rfl

/-- A path that leads elsewhere finds the regular file that it found, if there was one. -/
theorem content?_eq (h : ChangesLeaf place fs fs') (hne : fs.place? path ≠ some place) :
  fs'.content? path = fs.content? path
  := by
  have hfind := h.find false path
  rw [place?] at hne
  simp only [content?, nodeAt, locate]
  generalize fs.find false path = outcome, fs'.find false path = outcome' at hfind hne
  cases hfind with
  | @ok spot _ hspot =>
      have hlocation : spot.location ≠ place := fun heq => hne (congrArg some heq)
      rw [← hspot, Spot.filled_of_location_ne spot hlocation]
      cases spot with
      | found location => simp only [h.elsewhere location hlocation]
      | vacant directory name => rfl
  | error => rfl

theorem isFile_eq (h : ChangesLeaf place fs fs') (hne : fs.place? path ≠ some place) :
  fs'.isFile path = fs.isFile path
  := by
  rw [isFile, h.content?_eq hne, isFile]

/-- A regular file that a path leads to elsewhere is read as before. -/
theorem read_eq (h : ChangesLeaf place fs fs') (hfile : fs.isFile path)
    (hne : fs.place? path ≠ some place) :
  fs'.read path = fs.read path
  := by
  have hfind := h.find false path
  rw [place?] at hne
  simp only [isFile, content?, nodeAt, locate] at hfile
  simp only [read, locate, h.readable]
  generalize fs.find false path = outcome, fs'.find false path = outcome' at hfind hne hfile
  cases hfind with
  | @ok spot _ hspot =>
      have hlocation : spot.location ≠ place := fun heq => hne (congrArg some heq)
      rw [← hspot, Spot.filled_of_location_ne spot hlocation]
      cases spot with
      | found location => simp only [h.elsewhere location hlocation]
      | vacant directory name => rfl
  | error => cases hfile

/-- There is a file at the place, unless there was a device. -/
theorem exists_file (h : ChangesLeaf place fs fs')
    (hdevice : ∀ device, fs.node? place ≠ some (.device device)) :
  ∃ content executable, fs'.node? place = some (.file content executable)
  := by
  have hleaf := h.leaf
  rw [shape?, Option.map_eq_some_iff] at hleaf
  obtain ⟨node, hnode, hshape⟩ := hleaf
  cases node with
  | file content executable => exact ⟨content, executable, hnode⟩
  | device device => exact absurd ((h.device device).mp hnode) (hdevice device)
  | directory | link | hardLink => cases hshape

/-- An archive can be written at the place if and only if it could be before. -/
theorem takesArchive_iff (h : ChangesLeaf place fs fs') :
  fs'.TakesArchive place ↔ fs.TakesArchive place
  := by
  by_cases hdevice : ∃ device, fs.node? place = some (.device device)
  · obtain ⟨device, hnode⟩ := hdevice
    rw [TakesArchive, TakesArchive, hnode, (h.device device).mpr hnode]
  · rw [not_exists] at hdevice
    have hdevice' : ∀ device, fs'.node? place ≠ some (.device device) :=
      fun device hnode => hdevice device ((h.device device).mp hnode)
    apply iff_of_true (takesArchive_of_not_device hdevice') (takesArchive_of_not_device hdevice)

end ChangesLeaf

variable {fs fs' : FileSystem} {path : Path} {location : Location}

/-! ### Filling a file -/

theorem changesLeaf_setContent (h : fs.shape? location = some .leaf) (content : Content) :
  ChangesLeaf location fs (fs.setContent location content)
  := by
  rw [setContent]
  split
  · next hnode => apply ChangesLeaf.put (ne_root_of_shape? h) (.inr ⟨_, _, hnode⟩)
  · apply ChangesLeaf.refl h

theorem node?_setContent {content : Content} {executable : Bool}
    (h : fs.node? location = some (.file content executable)) (content' : Content) :
  (fs.setContent location content').node? location = some (.file content' executable)
  := by
  simp only [setContent, h, node?_put_self fs _ (ne_root_of_shape? (shape?_of_node? h))]

/-- What is put into the file at a place is there afterwards, unless the place has a device. -/
theorem ChangesLeaf.content?_setContent (h : ChangesLeaf location fs fs')
    (hplace : fs.place? path = some location)
    (hdevice : ∀ device, fs.node? location ≠ some (.device device)) (content : Content) :
  (fs'.setContent location content).content? path = some content
  := by
  obtain ⟨content', executable, hnode⟩ := h.exists_file hdevice
  have hwritten := h.trans (changesLeaf_setContent h.leaf content)
  apply content?_of_place? ((hwritten.place?_eq path).trans hplace)
  apply node?_setContent hnode

/-! ### Opening a file -/

/-- A file that is opened for writing is one that may be written, at the spot that its path leads
to, and the files change there only. -/
theorem exists_spot_of_create (h : fs.create path = .ok (location, fs')) :
  ∃ spot, fs.find true path = .ok spot ∧ spot.location = location ∧ fs.writable location
    ∧ ChangesLeaf location fs fs'
  := by
  rw [create] at h
  split at h
  · cases h
  · next directory name hfind =>
    have hnone := Option.map_eq_none_iff.mp (shape?_of_find_vacant hfind)
    dsimp only at h
    split at h
    · next hwritable =>
      cases h
      refine ⟨_, hfind, rfl, ((Bool.and_eq_true ..).mp hwritable).2, ?_⟩
      apply ChangesLeaf.put (Location.enter_ne_root directory name) (.inl hnone)
    · cases h
  · next found hfind =>
    split at h
    · next hnode =>
      split at h
      · next hwritable =>
        cases h
        have hroot := ne_root_of_shape? (shape?_of_node? hnode)
        exact ⟨_, hfind, rfl, hwritable, .put hroot (.inr ⟨_, _, hnode⟩) _ _⟩
      · cases h
    · next hnode =>
      split at h
      · next hwritable =>
        cases h
        exact ⟨_, hfind, rfl, hwritable, .refl (shape?_of_node? hnode)⟩
      · cases h
    · cases h

/-- A file that can be opened for writing changes at the location that its path leads to. -/
theorem create_eq_ok (h : fs.create path = .ok (location, fs')) :
  fs.place? path = some location ∧ ChangesLeaf location fs fs'
  := by
  obtain ⟨spot, hfind, rfl, -, hchanges⟩ := exists_spot_of_create h
  refine ⟨?_, hchanges⟩
  rw [place?, find_creating hfind]
  rfl

/-- A file can be opened for writing at a path, and an archive can be written to it. -/
def CanWrite (fs : FileSystem) (path : Path) : Prop :=
  ∃ location fs', fs.create path = .ok (location, fs') ∧ fs.TakesArchive location

/-- A file or a device that may be written can be opened. -/
theorem create_of_leaf (hfind : fs.find true path = .ok (.found location))
    (hleaf : fs.shape? location = some .leaf) (hwritable : fs.writable location) :
  ∃ created, fs.create path = .ok (location, created)
  := by
  rw [shape?, Option.map_eq_some_iff] at hleaf
  obtain ⟨node, hnode, hshape⟩ := hleaf
  cases node with
  | file content executable => simp [create, hfind, hnode, hwritable]
  | device device => simp [create, hfind, hnode, hwritable]
  | directory | link | hardLink => cases hshape

/-- What could be opened at the place of a change can be opened after the change. -/
theorem ChangesLeaf.create (h : ChangesLeaf location fs fs') {created : FileSystem}
    (hcreate : fs.create path = .ok (location, created)) :
  ∃ created, fs'.create path = .ok (location, created)
  := by
  obtain ⟨spot, hspot, hlocation, hwritable, -⟩ := exists_spot_of_create hcreate
  have hfind := h.find true path
  rw [hspot] at hfind
  generalize houtcome : fs'.find true path = outcome at hfind
  cases hfind with
  | ok hfilled =>
      rw [← hfilled, Spot.filled_of_location_eq spot hlocation] at houtcome
      apply create_of_leaf houtcome h.leaf
      rwa [h.writable]

/-! ### File systems with one file more or less -/

section Offers

variable {place : Location}

/-- A path leads to a regular file, or to a name that the directory lacks. -/
inductive Offers (fs : FileSystem) (path : Path) : Location → Prop
  | vacant {parent : Location} {name : Name} :
      fs.find false path = .ok (.vacant parent name) → Offers fs path (parent.enter name)
  | file {location : Location} {content : Content} {executable : Bool} :
      fs.find false path = .ok (.found location) →
      fs.node? location = some (.file content executable) → Offers fs path location

namespace Offers

theorem place? (h : fs.Offers path place) :
  fs.place? path = some place
  := by
  cases h with
  | vacant hfind | file hfind =>
      rw [FileSystem.place?, hfind]
      rfl

end Offers

/-- Two file systems are the same but for a regular file that a path leads to, which may be missing
from either. -/
structure SameButFile (path : Path) (fs fs' : FileSystem) : Prop where
  workingDirectory : fs'.workingDirectory = fs.workingDirectory
  readable : fs'.readable = fs.readable
  writable : fs'.writable = fs.writable
  differ : ∃ place, fs.Offers path place ∧ fs'.Offers path place
    ∧ ∀ location, location ≠ place → fs'.node? location = fs.node? location

namespace SameButFile

theorem symm (h : SameButFile path fs fs') :
  SameButFile path fs' fs
  where
  workingDirectory := h.workingDirectory.symm
  readable := h.readable.symm
  writable := h.writable.symm
  differ := by
    obtain ⟨place, hoffers, hoffers', helsewhere⟩ := h.differ
    exact ⟨place, hoffers', hoffers, fun location hne => (helsewhere location hne).symm⟩

end SameButFile

end Offers

end Proctor.FileSystem
