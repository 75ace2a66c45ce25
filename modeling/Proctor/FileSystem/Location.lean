import Proctor.Path
import Std.Data.TreeMap

/-!
# Locations

A location is a place in a file system: the names that lead there from the root, without links, `.`
or `..`. The names are kept with the last one first, and their number is kept with them, so that
the way into a directory and back is one step however deep the directory is. Locations are ordered
by depth, so that a deep location is compared in full with those of the same depth only.
-/

namespace Proctor

/-- A place in a file system. -/
structure Location where
  /-- The names that lead there from the root, the last one first. -/
  names : List Name
  /-- The number of names. -/
  depth : Nat
  depth_eq : depth = names.length
  deriving DecidableEq, Repr

namespace Location

/-- The place from which all others are reached. -/
def root : Location := ⟨[], 0, rfl⟩

/-- The place of the entry with a name in a directory. -/
def enter (directory : Location) (name : Name) : Location where
  names := name :: directory.names
  depth := directory.depth + 1
  depth_eq := by rw [directory.depth_eq, List.length_cons]

/-- The directory that has a place as its entry. The root counts as its own. -/
def parent (location : Location) : Location where
  names := location.names.tail
  depth := location.depth - 1
  depth_eq := by rw [location.depth_eq, List.length_tail]

/-- The place that names lead to from the root. -/
def ofNames (names : List Name) : Location :=
  names.foldl enter root

/-- Whether a place is a given directory or below it. -/
def isWithin (directory location : Location) : Bool :=
  directory.depth ≤ location.depth &&
    location.names.drop (location.depth - directory.depth) == directory.names

/-- The name under which a place stands directly in a directory. -/
def nameIn? (directory location : Location) : Option Name :=
  match location.names with
  | [] => none
  | name :: names =>
    if location.depth = directory.depth + 1 && names == directory.names then some name else none

/-- The absolute path of a place. -/
def path (location : Location) : Path :=
  match location.names.reverse with
  | [] => [Path.separator]
  | names => names.flatMap (Path.separator :: ·)

/-- The order of places: those nearer to the root come first. -/
abbrev order : Location → Location → Ordering :=
  compareLex (compareOn depth) (compareOn names)

theorem eq_of_names {a b : Location} (h : a.names = b.names) :
  a = b
  := by
  obtain ⟨names, depth, rfl⟩ := a
  obtain ⟨_, _, rfl⟩ := b
  obtain rfl : names = _ := h
  rfl

instance : Std.LawfulEqCmp order where
  eq_of_compare h := by
    rw [compareLex_eq_eq] at h
    exact eq_of_names (Std.LawfulEqCmp.eq_of_compare h.2)

theorem enter_ne_root (directory : Location) (name : Name) :
  directory.enter name ≠ root
  := by
  intro h
  simpa [enter, root] using congrArg names h

theorem nameIn?_eq_some_iff {directory location : Location} {name : Name} :
  nameIn? directory location = some name ↔ location = directory.enter name
  := by
  obtain ⟨names, depth, hdepth⟩ := location
  constructor
  · intro h
    cases names with
    | nil => simp [nameIn?] at h
    | cons first rest =>
      simp only [nameIn?] at h
      split at h
      · next hcond =>
        obtain rfl := Option.some.inj h
        simp only [Bool.and_eq_true, decide_eq_true_eq, beq_iff_eq] at hcond
        exact eq_of_names (congrArg (first :: ·) hcond.2)
      · simp at h
  · intro h
    rw [h]
    simp [nameIn?, enter]

end Location

end Proctor
