import Proctor.Architecture
import Proctor.FileSystem.Lookup
import Proctor.Settings.Fault

/-!
# Failures

Every reason for which a run, or a part of one, has no result, with its text.
-/

namespace Proctor

/-- What is wrong with a configuration. -/
inductive ConfigFault where
  | unknownStrategy (name : String)
  | architecture (fault : Architecture.Fault)
  | settingsUnreadable (path : Path) (fault : IoFault)
  | settingsMalformed (path : Path) (fault : Settings.Fault)
  /-- The last name of a file that is to be archived is not text. -/
  | evidenceName (path : Path)
  deriving DecidableEq, Repr

/-- The text of a configuration fault. -/
def ConfigFault.message : ConfigFault → String
  | unknownStrategy name => s!"Unknown strategy: {name}"
  | architecture fault => fault.message
  | settingsUnreadable path fault =>
    s!"Failed to read settings file {path.display}: {fault.message}"
  | settingsMalformed path fault =>
    s!"Failed to parse settings JSON {path.display}: {fault.message}"
  | evidenceName path => s!"Invalid evidence file name: {path.display}"

/-- An argument that the command line needs. -/
inductive MissingArgument where
  | property
  | benchmark
  deriving DecidableEq, Repr

/-- The request for a missing argument. -/
def MissingArgument.message : MissingArgument → String
  | property => "Please, specify a property file"
  | benchmark => "Please, specify a benchmark to verify"

/-- Why an archive could not be written. -/
inductive ArchiveFault where
  /-- It has an entry of that name already. -/
  | duplicateName (name : Bytes)
  /-- Its bytes could not be written, or an entry is too large for it. -/
  | unwritable
  deriving DecidableEq, Repr

/-- The text of an archive fault. -/
def ArchiveFault.message : ArchiveFault → String
  | duplicateName name => s!"invalid Zip archive: Duplicate filename: {Utf8.display name}"
  | unwritable => "i/o error"

/-- Why there is no result. -/
inductive Failure where
  | io (fault : IoFault)
  | config (fault : ConfigFault)
  | missingArgument (argument : MissingArgument)
  | unsupportedProperty
  | propertyUnreadable (path : Path) (fault : IoFault)
  | benchmarkUnreadable (path : Path) (fault : IoFault)
  | process (message : String)
  | archive (fault : ArchiveFault)
  deriving DecidableEq, Repr

namespace Failure

/-- The text of a failure. -/
def message : Failure → String
  | io fault => s!"IO error: {fault.message}"
  | config fault => s!"Configuration error: {fault.message}"
  | missingArgument argument => argument.message
  | unsupportedProperty => "Unsupported Property"
  | propertyUnreadable path fault =>
    s!"Cannot read property file {path.display}: {fault.message}"
  | benchmarkUnreadable path fault => s!"Cannot read benchmark {path.display}: {fault.message}"
  | process message => s!"Process error: {message}"
  | archive fault => s!"Archive error: {fault.message}"

/-- The fault of the operating system behind a failure. -/
def cause? : Failure → Option IoFault
  | io fault => some fault
  | propertyUnreadable _ fault => some fault
  | benchmarkUnreadable _ fault => some fault
  | _ => none

end Failure

end Proctor
