import Proctor.Session
import Std.Data.TreeSet

/-!
# Evidence

The test cases and the metadata that a verifier leaves in a directory are packed into one archive
there. Test cases are the regular files with names `testcase-<digits>.xml`, ordered by the number
that the digits denote and then by name. The metadata file comes last and is a candidate whether it
exists or not: candidates that are not regular files are skipped.
-/

namespace Proctor.Evidence

/-- The beginning of the name of a test case. -/
def testCaseBeginning : String := "testcase-"

/-- The end of the name of a test case. -/
def testCaseEnding : String := ".xml"

/-- The name of the metadata file. -/
def metadataFile : String := "metadata.xml"

/-- The name of the archive. -/
def archiveFile : String := "test-suite.zip"

/-- The time that every entry is given, so that the same evidence makes the same archive. -/
def entryTime : Archive.Timestamp := .first

/-- The greatest index of a test case. -/
def greatestIndex : Nat := Nat.pow 2 64 - 1

/-- The index of a test case of the given name: the number between the beginning and the ending, or
the greatest index if that number is greater. -/
def index? (name : Name) : Option Nat := do
  let rest ← Sequence.dropBeginning? (Bytes.ofString testCaseBeginning) name
  let digits ← Sequence.dropEnding? (Bytes.ofString testCaseEnding) rest
  if digits.isEmpty || !digits.all Bytes.isDigit then none
  else some (Bytes.boundedValue greatestIndex digits)

/-- A test case with its index. -/
structure TestCase where
  index : Nat
  name : Name
  deriving DecidableEq, Repr

/-- The order of test cases: by index, then by name. -/
def TestCase.le (a b : TestCase) : Bool :=
  a.index < b.index || (a.index == b.index && !(b.name < a.name))

/-- What is to be packed, and into which archive. -/
structure Bundle where
  files : List Path
  archive : Path
  deriving DecidableEq, Repr

/-- What has been packed: the names of the entries, and the candidates that were skipped. -/
structure Package where
  archive : Path
  packed : List Name
  skipped : List Path
  deriving DecidableEq, Repr

/-- The test case that a directory entry is, if it is one. -/
def testCase? (files : FileSystem) (directory : Path) (name : Name) : Option TestCase := do
  guard (Utf8.isValid name)
  let index ← index? name
  guard (files.isFile (directory.join name))
  return ⟨index, name⟩

/-- The test cases among the entries of a directory, in order. -/
def testCases (files : FileSystem) (directory : Path) (names : List Name) : List TestCase :=
  (names.filterMap (testCase? files directory)).mergeSort TestCase.le

/-- The candidates in a directory with the given entries. -/
def bundle (files : FileSystem) (directory : Path) (names : List Name) : Bundle where
  files := (testCases files directory names).map (fun testCase => directory.join testCase.name) ++
    [directory.join (Bytes.ofString metadataFile)]
  archive := directory.join (Bytes.ofString archiveFile)

/-- The candidates in a directory. -/
def discover (files : FileSystem) (directory : Path) : Except Failure Bundle :=
  match files.list directory with
  | .ok names => .ok (bundle files directory names)
  | .error fault => .error (.io fault)

/-! ### Writing the archive -/

/-- The state of an archive that is being written. -/
structure Progress where
  files : FileSystem
  /-- The entries that are complete, the last one first. -/
  entries : Archive
  /-- The names of these entries. -/
  names : Std.TreeSet Name
  /-- The candidates that were skipped, the last one first. -/
  skipped : List Path
  mem_names : ∀ name, name ∈ names ↔ name ∈ entries.names

/-- The state in which nothing has been written yet. -/
def Progress.initial (files : FileSystem) : Progress where
  files
  entries := []
  names := ∅
  skipped := []
  mem_names := by simp [Archive.names]

/-- The state after one more entry, with the files that are left by it. -/
def Progress.extend (progress : Progress) (entry : Entry) (files : FileSystem) : Progress where
  files
  entries := entry :: progress.entries
  names := progress.names.insert entry.name
  skipped := progress.skipped
  mem_names name := by
    rw [Std.TreeSet.mem_insert, progress.mem_names, Std.LawfulEqCmp.compare_eq_iff_eq,
      Archive.names, Archive.names, List.map_cons, List.mem_cons, eq_comm]

/-- The files with the archive at a location as far as it has been written: the complete entries,
the last one first, and what there is of the next one. -/
def storeArchive (files : FileSystem) (location : Location) (entries : Archive) (rest : Bytes) :
    FileSystem :=
  files.setContent location (.unfinished entries rest)

/-- Add one candidate to an archive. Its contents are read after the header of its entry has been
written, and they may be too large for an entry. -/
def Progress.add (location : Location) (progress : Progress) (path : Path) :
    Except Failure Progress :=
  if !progress.files.isFile path then .ok { progress with skipped := path :: progress.skipped }
  else
    match path.lastName?.filter Utf8.isValid with
    | none => .error (.config (.evidenceName path))
    | some name =>
      if progress.names.contains name then .error (.archive (.duplicateName name))
      else if (progress.files.node? location).any Node.refusesArchive then
        .error (.archive .unwritable)
      else
        let files := storeArchive progress.files location progress.entries
          (Archive.openHeader name entryTime)
        match files.read path with
        | .error fault => .error (.io fault)
        | .ok data =>
          if Archive.fits data.length then
            let entry : Entry := ⟨name, data, entryTime⟩
            .ok (progress.extend entry
              (storeArchive progress.files location (entry :: progress.entries) []))
          else .error (.archive .unwritable)

/-- Add candidates to an archive in order, up to the first that fails. What was reached before the
failure comes with it. -/
def Progress.addAll (location : Location) : Progress → List Path → Progress × Option Failure
  | progress, [] => (progress, none)
  | progress, path :: rest =>
    match progress.add location path with
    | .ok progress => addAll location progress rest
    | .error failure => (progress, some failure)

/-- The warning about a candidate that is skipped. -/
def skipWarning (path : Path) : Record :=
  ⟨.warn, .evidence, s!"File {path.display} does not exist."⟩

/-- Write a bundle into its archive. The archive is created first, and it is left with the complete
entries also when a candidate fails. -/
def writeArchive (bundle : Bundle) : Session Package := do
  match (← Session.files).create bundle.archive with
  | .error fault => throw (.io fault)
  | .ok (location, files) =>
    let (progress, failure?) := Progress.addAll location (.initial files) bundle.files
    let entries : Archive := progress.entries.reverse
    let skipped := progress.skipped.reverse
    Session.change fun world =>
      { world with files := progress.files.setContent location (.archive entries) }
    Session.logAll (skipped.map skipWarning)
    match failure? with
    | some failure => throw failure
    | none =>
      if (files.node? location).any Node.refusesArchive then throw (.archive .unwritable)
      let count := entries.length
      Session.log .info .evidence s!"Files zipped into {bundle.archive.display} ({count} entries)"
      return ⟨bundle.archive, entries.names, skipped⟩

/-- Find the candidates in a directory and write them into their archive. -/
def collect (directory : Path) : Session Package := do
  let bundle ← discover (← Session.files) directory
  writeArchive bundle

/-- Pack the evidence in a directory. -/
def package (directory : Path) : Session Package := do
  Session.change (·.note (.packaging directory))
  collect directory

end Proctor.Evidence
