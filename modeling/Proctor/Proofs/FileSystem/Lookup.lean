import Proctor.FileSystem.Lookup

/-!
# Lookup in a changed file system

Where a path leads depends only on the shapes of the nodes. When a leaf is put where there was
nothing, or another leaf, every path leads to the location it led to before: at that place it finds
something now, and everywhere else it finds what it found. A path that led nowhere leads nowhere
still.
-/

namespace Proctor

namespace Spot

/-- The location of a spot, whether there is something or not. -/
def location : Spot → Location
  | found location => location
  | vacant directory name => directory.enter name

/-- A spot after something has been put at a place. -/
def filled (place : Location) (spot : Spot) : Spot :=
  if spot.location = place then found place else spot

theorem filled_of_location_eq {place : Location} (spot : Spot) (h : spot.location = place) :
  spot.filled place = found place
  := if_pos h

theorem filled_of_location_ne {place : Location} (spot : Spot) (h : spot.location ≠ place) :
  spot.filled place = spot
  := if_neg h

@[simp] theorem filled_found (place location : Location) :
  (found location).filled place = found location
  := by
  by_cases h : location = place
  · rw [filled_of_location_eq (found location) h, h]
  · apply filled_of_location_ne (found location) h

@[simp] theorem location_filled (place : Location) (spot : Spot) :
  (spot.filled place).location = spot.location
  := by
  by_cases h : spot.location = place
  · rw [filled_of_location_eq spot h, h, location]
  · rw [filled_of_location_ne spot h]

end Spot

namespace Lookup

/-- A leaf is put at a place where there was nothing, or a leaf. -/
structure PutsLeaf (place : Location) (shape? shape'? : Location → Option Shape) : Prop where
  was : shape? place = none ∨ shape? place = some .leaf
  leaf : shape'? place = some .leaf
  elsewhere : ∀ location, location ≠ place → shape'? location = shape? location

/-- A location is a directory after a leaf has been put somewhere if and only if it was one. -/
theorem PutsLeaf.directory_iff {place : Location} {shape? shape'? : Location → Option Shape}
    (h : PutsLeaf place shape? shape'?) (location : Location) :
  shape'? location = some .directory ↔ shape? location = some .directory
  := by
  by_cases hplace : location = place
  · obtain hwas | hwas := h.was <;> simp [hplace, h.leaf, hwas]
  · rw [h.elsewhere location hplace]

/-- How the end of a walk changes when something is put at a place. -/
inductive Halt.Filled (place : Location) : Halt → Halt → Prop
  | arrived {spot spot' : Spot} :
      spot.filled place = spot' → Filled place (.arrived spot) (.arrived spot')
  | failed {fault fault' : IoFault} : Filled place (.failed fault) (.failed fault')
  | atLink {target : Path} {directory : Location} {rest : List Path.Step} :
      Filled place (.atLink target directory rest) (.atLink target directory rest)

/-- How the outcome of a walk changes when something is put at a place. -/
inductive Filled (place : Location) : Except IoFault Spot → Except IoFault Spot → Prop
  | ok {spot spot' : Spot} : spot.filled place = spot' → Filled place (.ok spot) (.ok spot')
  | error {fault fault' : IoFault} : Filled place (.error fault) (.error fault')

section PutsLeaf

variable {place : Location} {shape? shape'? : Location → Option Shape}
  (h : PutsLeaf place shape? shape'?) (creating : Bool)

include h

-- The walk meets the place only as a name on its way: there it arrives if no steps are left, and
-- fails otherwise, whether there is a leaf or nothing.
theorem PutsLeaf.advance (directory : Location) (steps : List Path.Step) :
  Halt.Filled place (advance shape? creating directory steps)
    (advance shape'? creating directory steps)
  := by
  induction steps generalizing directory with
  | nil => apply Halt.Filled.arrived (Spot.filled_found place directory)
  | cons step rest ih =>
      cases step with
      | here => apply ih
      | slash => apply ih
      | up => apply ih
      | name name =>
          simp only [Lookup.advance]
          split
          · apply Halt.Filled.failed
          split
          · apply Halt.Filled.failed
          by_cases hplace : directory.enter name = place
          · rw [hplace, h.leaf]
            obtain hwas | hwas := h.was
            · rw [hwas]
              dsimp only
              split
              · apply Halt.Filled.arrived
                apply Spot.filled_of_location_eq (.vacant directory name) hplace
              · apply Halt.Filled.failed
            · rw [hwas]
              dsimp only
              split
              · apply Halt.Filled.arrived (Spot.filled_found place place)
              · apply Halt.Filled.failed
          · rw [h.elsewhere _ hplace]
            split
            · split
              · apply Halt.Filled.arrived
                apply Spot.filled_of_location_ne (.vacant directory name) hplace
              · apply Halt.Filled.failed
            · apply Halt.Filled.atLink
            · simp only [ne_eq, h.directory_iff]
              split
              · apply Halt.Filled.arrived (Spot.filled_found place _)
              · apply Halt.Filled.failed
            · split
              · apply Halt.Filled.arrived (Spot.filled_found place _)
              · apply Halt.Filled.failed
            · apply ih

theorem PutsLeaf.start (location : Location) (steps : List Path.Step) :
  Halt.Filled place (start shape? creating location steps) (start shape'? creating location steps)
  := by
  simp only [Lookup.start]
  by_cases hplace : location = place
  · rw [hplace, h.leaf]
    obtain hwas | hwas := h.was <;> rw [hwas] <;> apply Halt.Filled.failed
  · rw [h.elsewhere _ hplace]
    split
    · apply Halt.Filled.failed
    · apply h.advance
    · apply Halt.Filled.failed

theorem PutsLeaf.walk (links : Nat) (location : Location) (steps : List Path.Step) :
  Filled place (walk shape? creating links location steps)
    (walk shape'? creating links location steps)
  := by
  have hstart := h.start creating
  induction links generalizing location steps with
  | zero =>
      simp only [Lookup.walk]
      generalize Lookup.start shape? creating location steps = halt,
        Lookup.start shape'? creating location steps = halt', hstart location steps = hhalt
      cases hhalt with
      | arrived hspot => apply Filled.ok hspot
      | failed => apply Filled.error
      | atLink => apply Filled.error
  | succ links ih =>
      simp only [Lookup.walk]
      generalize Lookup.start shape? creating location steps = halt,
        Lookup.start shape'? creating location steps = halt', hstart location steps = hhalt
      cases hhalt with
      | arrived hspot => apply Filled.ok hspot
      | failed => apply Filled.error
      | atLink =>
          dsimp only
          split
          · apply Filled.error
          · apply ih

end PutsLeaf

/-! ### Walks on which a file may be created -/

variable (shape? : Location → Option Shape)

/-- A walk on which a file may be created fails, or is the same as any other. -/
theorem advance_creating (directory : Location) (steps : List Path.Step) :
  (∃ fault, advance shape? true directory steps = .failed fault)
    ∨ advance shape? false directory steps = advance shape? true directory steps
  := by
  induction steps generalizing directory with
  | nil =>
      right
      rfl
  | cons step rest ih =>
      cases step with
      | here => apply ih
      | slash => apply ih
      | up => apply ih
      | name name =>
          simp only [advance, Bool.true_and, Bool.false_and, Bool.false_eq_true, if_false]
          split
          · apply Or.inl ⟨_, rfl⟩
          split
          · apply Or.inl ⟨_, rfl⟩
          cases hshape : shape? (directory.enter name) with
          | none => apply Or.inr rfl
          | some shape =>
              cases shape with
              | directory => apply ih
              | link target => apply Or.inr rfl
              | hardLink file => apply Or.inr rfl
              | leaf => apply Or.inr rfl

theorem start_creating (location : Location) (steps : List Path.Step) :
  (∃ fault, start shape? true location steps = .failed fault)
    ∨ start shape? false location steps = start shape? true location steps
  := by
  simp only [start]
  split
  · apply Or.inr rfl
  · apply advance_creating
  · apply Or.inr rfl

theorem walk_creating {links : Nat} {location : Location} {steps : List Path.Step} {spot : Spot}
    (h : walk shape? true links location steps = .ok spot) :
  walk shape? false links location steps = .ok spot
  := by
  induction links generalizing location steps with
  | zero =>
      obtain ⟨fault, hfault⟩ | heq := start_creating shape? location steps
      · simp [walk, hfault] at h
      · rwa [walk, heq]
  | succ links ih =>
      obtain ⟨fault, hfault⟩ | heq := start_creating shape? location steps
      · simp [walk, hfault] at h
      · simp only [walk] at h
        simp only [walk, heq]
        split at h
        · apply h
        · cases h
        · split at h
          · cases h
          · next hempty =>
            rw [if_neg hempty]
            apply ih h

/-! ### Vacant places -/

/-- There is nothing at a vacant place. -/
theorem advance_vacant {creating : Bool} {location directory : Location} {name : Name}
    {steps : List Path.Step}
    (h : advance shape? creating location steps = .arrived (.vacant directory name)) :
  shape? (directory.enter name) = none
  := by
  fun_induction advance shape? creating location steps with
  | case2 _ _ ih | case3 _ _ ih | case4 _ _ ih | case14 _ _ _ _ _ _ ih => apply ih h
  | case7 _ _ _ _ _ hnone =>
      cases h
      apply hnone
  | case1 | case5 | case6 | case8 | case9 | case10 | case11 | case12 | case13 => cases h

theorem walk_vacant {creating : Bool} {links : Nat} {location directory : Location} {name : Name}
    {steps : List Path.Step}
    (h : walk shape? creating links location steps = .ok (.vacant directory name)) :
  shape? (directory.enter name) = none
  := by
  have hstart : ∀ {location steps},
      start shape? creating location steps = .arrived (.vacant directory name) →
        shape? (directory.enter name) = none := by
    intro location steps hstart
    rw [start] at hstart
    split at hstart
    · cases hstart
    · apply advance_vacant shape? hstart
    · cases hstart
  fun_induction walk shape? creating links location steps with
  | case1 _ _ _ hspot | case4 _ _ _ _ hspot =>
      cases h
      apply hstart hspot
  | case2 | case3 | case5 | case6 => cases h
  | case7 _ _ _ _ _ _ _ _ ih => apply ih h

end Lookup

namespace FileSystem

open Lookup

/-- The location that a path leads to, whether there is something or not. -/
def place? (fs : FileSystem) (path : Path) : Option Location :=
  (fs.find false path).toOption.map Spot.location

/-- A path is refused as it is written, or it is walked. -/
theorem find_eq_walk (path : Path) :
  (∃ fault, ∀ fs creating, find fs creating path = .error fault)
    ∨ ∀ fs creating, find fs creating path
        = walk fs.shape? creating linkLimit (origin fs.workingDirectory path) path.steps
  := by
  simp only [find]
  split
  · apply Or.inl ⟨_, fun _ _ => rfl⟩
  split
  · apply Or.inl ⟨_, fun _ _ => rfl⟩
  split
  · apply Or.inl ⟨_, fun _ _ => rfl⟩
  · apply Or.inr fun _ _ => rfl

theorem find_creating {fs : FileSystem} {path : Path} {spot : Spot}
    (h : fs.find true path = .ok spot) :
  fs.find false path = .ok spot
  := by
  obtain ⟨fault, hfault⟩ | hwalk := find_eq_walk path
  · rw [hfault] at h
    cases h
  · rw [hwalk] at h ⊢
    apply walk_creating fs.shape? h

/-- The path of a regular file is not too long. -/
theorem length_lt_of_isFile {fs : FileSystem} {path : Path} (h : fs.isFile path) :
  path.length < pathLimit
  := by
  by_cases hlong : pathLimit ≤ path.length
  · have hfind : ∃ fault, fs.find false path = .error fault := by
      rw [find, if_pos hlong]
      split
      · exact ⟨_, rfl⟩
      · exact ⟨_, rfl⟩
    obtain ⟨fault, hfind⟩ := hfind
    rw [isFile, content?, nodeAt, locate, hfind] at h
    cases h
  · exact Nat.lt_of_not_le hlong

theorem shape?_of_find_vacant {fs : FileSystem} {creating : Bool} {path : Path}
    {directory : Location} {name : Name}
    (h : fs.find creating path = .ok (.vacant directory name)) :
  fs.shape? (directory.enter name) = none
  := by
  obtain ⟨fault, hfault⟩ | hwalk := find_eq_walk path
  · rw [hfault] at h
    cases h
  · rw [hwalk] at h
    apply walk_vacant fs.shape? h

end FileSystem

end Proctor
