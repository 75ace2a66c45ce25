import Proctor.Proofs.Evidence.Candidates
import Proctor.Proofs.FileSystem.Write

/-!
# Entries of a directory

A path into a directory is walked by walking to the directory first. What is found under a name in
a directory is therefore one of the entries that are listed, and a change at one place that is no
directory leaves a directory one.
-/

namespace Proctor

namespace Lookup

/-! ### Walks through a directory -/

variable {shape? : Location → Option Shape}

/-- Steps that stay where they begin, as a slash at the end of a path does. -/
def Stays (shape? : Location → Option Shape) (steps : List Path.Step) : Prop :=
  ∀ location, advance shape? false location steps = .arrived (.found location)

/-- What the end of a walk that stays says about walks that go on instead. If it found a directory,
they start again from there, and if it met a link, so do they. -/
def Halt.Continues (shape? : Location → Option Shape) (stay : List Path.Step)
    (walkOn : List Path.Step → Halt) : Halt → Prop
  | arrived (.found directory) =>
    shape? directory = some .directory → ∀ more, walkOn more = start shape? false directory more
  | atLink target directory rest =>
    ∃ rest', rest = rest' ++ stay ∧ ∀ more, walkOn more = .atLink target directory (rest' ++ more)
  | _ => True

section Stays

variable {stay : List Path.Step} (hstay : Stays shape? stay)

include hstay

theorem Stays.advance (origin : Location) (steps : List Path.Step) :
  (advance shape? false origin (steps ++ stay)).Continues shape? stay
    fun more => advance shape? false origin (steps ++ more)
  := by
  induction steps generalizing origin with
  | nil =>
      rw [List.nil_append, hstay]
      intro hdirectory more
      rw [Lookup.start, hdirectory]
      rfl
  | cons step rest ih =>
      cases step with
      | here => apply ih
      | slash => apply ih
      | up => apply ih
      | name name =>
          simp only [List.cons_append, Lookup.advance, Bool.false_and, Bool.false_eq_true, if_false]
          split
          · trivial
          cases hshape : shape? (origin.enter name) with
          | none =>
              dsimp only
              split <;> trivial
          | some shape =>
              cases shape with
              | directory => apply ih
              | link target => exact ⟨rest, rfl, fun _ => rfl⟩
              | hardLink file =>
                  dsimp only
                  split
                  · next hfile =>
                    intro hdirectory
                    simp [hdirectory] at hfile
                  · trivial
              | leaf =>
                  dsimp only
                  split
                  · intro hdirectory
                    rw [hshape] at hdirectory
                    cases hdirectory
                  · trivial

theorem Stays.start (origin : Location) (steps : List Path.Step) :
  (start shape? false origin (steps ++ stay)).Continues shape? stay
    fun more => start shape? false origin (steps ++ more)
  := by
  simp only [Lookup.start]
  split
  · trivial
  · apply hstay.advance
  · trivial

/-- A walk that leads to a directory can be continued from there. -/
theorem Stays.walk {links : Nat} {origin directory : Location} {steps : List Path.Step}
    (h : walk shape? false links origin (steps ++ stay) = .ok (.found directory))
    (hdirectory : shape? directory = some .directory) (more : List Path.Step) :
  ∃ links', walk shape? false links origin (steps ++ more)
    = walk shape? false links' directory more
  := by
  induction links generalizing origin steps with
  | zero =>
      have hcontinues := hstay.start origin steps
      use 0
      simp only [Lookup.walk] at h ⊢
      split at h
      · next hspot =>
        cases h
        rw [hspot] at hcontinues
        have hon : Lookup.start shape? false origin (steps ++ more)
            = Lookup.start shape? false directory more := hcontinues hdirectory more
        rw [hon]
      · cases h
      · cases h
  | succ links ih =>
      have hcontinues := hstay.start origin steps
      simp only [Lookup.walk] at h
      split at h
      · next hspot =>
        cases h
        rw [hspot] at hcontinues
        have hon : Lookup.start shape? false origin (steps ++ more)
            = Lookup.start shape? false directory more := hcontinues hdirectory more
        use links + 1
        simp only [Lookup.walk, hon]
      · cases h
      · next target link rest hlink =>
        split at h
        · cases h
        · next hempty =>
          rw [hlink] at hcontinues
          obtain ⟨rest', rfl, hon⟩ := hcontinues
          rw [← List.append_assoc] at h
          obtain ⟨links', hwalk⟩ := ih h
          use links'
          simp only [Lookup.walk, hon, if_neg hempty, ← List.append_assoc]
          apply hwalk

end Stays

theorem start_of_none {directory : Location} {name : Name}
    (h : shape? (directory.enter name) = none) :
  (∃ fault, start shape? false directory [.name name] = .failed fault)
    ∨ start shape? false directory [.name name] = .arrived (.vacant directory name)
  := by
  rw [start]
  split
  · apply Or.inl ⟨_, rfl⟩
  · simp only [advance, Bool.false_and, Bool.false_eq_true, if_false, h, List.isEmpty_nil, if_true]
    split
    · apply Or.inl ⟨_, rfl⟩
    · apply Or.inr rfl
  · apply Or.inl ⟨_, rfl⟩

theorem walk_of_none (links : Nat) {directory : Location} {name : Name}
    (h : shape? (directory.enter name) = none) :
  (∃ fault, walk shape? false links directory [.name name] = .error fault)
    ∨ walk shape? false links directory [.name name] = .ok (.vacant directory name)
  := by
  obtain ⟨fault, hstart⟩ | hstart := start_of_none h <;> cases links <;> simp [walk, hstart]

/-- There is something under a name that leads to something. -/
theorem isSome_of_walk {links : Nat} {directory location : Location} {name : Name}
    (h : walk shape? false links directory [.name name] = .ok (.found location)) :
  (shape? (directory.enter name)).isSome
  := by
  rw [Option.isSome_iff_ne_none]
  intro hnone
  obtain ⟨fault, hwalk⟩ | hwalk := walk_of_none links hnone
  all_goals
    rw [hwalk] at h
    cases h

end Lookup

namespace Path

theorem IsPlain.ofName_eq {name : Name} (h : IsPlain name) :
  Step.ofName name = .name name
  := by
  rw [Step.ofName, if_neg h.ne_selfName, if_neg h.ne_parentName]

theorem steps_join {name : Name} (h : IsPlain name) (directory : Path) :
  (directory.join name).steps = directory.names.map Step.ofName ++ [.name name]
  := by
  have hlast : (directory.join name).getLast? ≠ some separator := by
    have hname : name.getLast? ≠ some separator := fun hlast =>
      h.no_separator (List.mem_of_getLast? hlast)
    rw [join]
    split
    · rwa [List.getLast?_append_of_ne_nil _ h.ne_nil]
    · rwa [List.getLast?_append_of_ne_nil _ (List.cons_ne_nil _ _),
        List.getLast?_cons_of_ne_nil h.ne_nil]
  rw [steps, names_join h, List.map_append, List.map_singleton, h.ofName_eq, if_neg,
    List.append_nil]
  rwa [beq_iff_eq]

/-- The steps of a path are those of its names, and one that stays if there is a slash at its
end. -/
theorem exists_stays (path : Path) (shape? : Location → Option Shape) :
  ∃ stay, path.steps = path.names.map Step.ofName ++ stay ∧ Lookup.Stays shape? stay
  := by
  refine ⟨_, rfl, ?_⟩
  intro location
  split <;> rfl

theorem isAbsolute_join {directory : Path} (h : directory ≠ []) (name : Name) :
  (directory.join name).isAbsolute = directory.isAbsolute
  := by
  rw [isAbsolute, isAbsolute, join]
  split <;> rw [List.head?_append_of_ne_nil _ h]

end Path

namespace FileSystem

open Lookup

variable {fs : FileSystem} {directory : Path} {names : List Name}

theorem list_eq_ok_iff :
  fs.list directory = .ok names
    ↔ ∃ location, fs.find false directory = .ok (.found location)
      ∧ fs.node? location = some .directory ∧ fs.readable location
      ∧ fs.children location = names
  := by
  constructor
  · intro h
    simp only [list, locate] at h
    split at h
    · next location hlocate =>
      split at hlocate
      · next hfind =>
        cases hlocate
        split at h
        · next hnode =>
          split at h
          · next hreadable =>
            cases h
            exact ⟨location, hfind, hnode, hreadable, rfl⟩
          · cases h
        · cases h
        · cases h
      · cases hlocate
      · cases hlocate
    · cases h
  · rintro ⟨location, hfind, hnode, hreadable, rfl⟩
    simp only [list, locate, hfind, hnode, hreadable, if_true]

theorem exists_found_of_isFile {path : Path} (h : fs.isFile path) :
  ∃ location, fs.find false path = .ok (.found location)
  := by
  simp only [isFile, content?, nodeAt, locate] at h
  cases hfind : fs.find false path with
  | error fault => simp [hfind] at h
  | ok spot =>
      cases spot with
      | found location => exact ⟨location, rfl⟩
      | vacant parent name => simp [hfind] at h

/-- A path into a directory fails as it is written, or it is walked from the directory. -/
theorem find_join {location : Location} {name : Name}
    (hfind : fs.find false directory = .ok (.found location))
    (hdirectory : fs.shape? location = some .directory) (hname : Path.IsPlain name) :
  (∃ fault, fs.find false (directory.join name) = .error fault)
    ∨ ∃ links, fs.find false (directory.join name)
        = walk fs.shape? false links location [.name name]
  := by
  obtain ⟨fault, hfault⟩ | hjoin := find_eq_walk (directory.join name)
  · apply Or.inl ⟨fault, hfault fs false⟩
  obtain ⟨fault, hfault⟩ | hwalk := find_eq_walk directory
  · rw [hfault] at hfind
    cases hfind
  have hne : directory ≠ [] := by
    rintro rfl
    cases hfind
  obtain ⟨stay, hsteps, hstay⟩ := directory.exists_stays fs.shape?
  rw [hwalk, hsteps] at hfind
  right
  rw [hjoin, Path.steps_join hname, origin, Path.isAbsolute_join hne, ← origin]
  apply hstay.walk hfind hdirectory

/-- What is found under a name in a directory is an entry of the directory. -/
theorem mem_of_isFile {name : Name} (hlist : fs.list directory = .ok names)
    (hname : Path.IsPlain name) (hfile : fs.isFile (directory.join name)) :
  name ∈ names
  := by
  obtain ⟨location, hfind, hnode, -, rfl⟩ := list_eq_ok_iff.mp hlist
  obtain ⟨target, htarget⟩ := exists_found_of_isFile hfile
  rw [mem_children, ← Option.isSome_map (f := Node.shape)]
  obtain ⟨fault, hfault⟩ | ⟨links, hwalk⟩ := find_join hfind (shape?_of_node? hnode) hname
  · rw [hfault] at htarget
    cases htarget
  · rw [hwalk] at htarget
    apply isSome_of_walk htarget

namespace ChangesLeaf

variable {place : Location} {fs' : FileSystem}

end ChangesLeaf

end FileSystem

end Proctor
