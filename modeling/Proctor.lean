import Proctor.CommandLine.Program
import Proctor.Main
import Proctor.Proofs.Sequence
import Proctor.Proofs.Text.Ascii
import Proctor.Proofs.Text.Encoding
import Proctor.Proofs.Verdict
import Proctor.Proofs.Session.Laws
import Proctor.Proofs.Session.Silent
import Proctor.Proofs.Run.Stages
import Proctor.Proofs.Run.Ending
import Proctor.Proofs.Session.Say
import Proctor.Proofs.Run.Completion
import Proctor.Proofs.Run.Transcript
import Proctor.Proofs.Run.Effects
import Proctor.Proofs.Session.Limit
import Proctor.Proofs.Run.Limit
import Proctor.Proofs.Session.Alike
import Proctor.Proofs.Run.Influence
import Proctor.Proofs.Run.StateLog
import Proctor.Proofs.Run.Course
import Proctor.Proofs.FileSystem.Lookup
import Proctor.Proofs.FileSystem.Write
import Proctor.Proofs.Evidence.Candidates
import Proctor.Proofs.FileSystem.Directory
import Proctor.Proofs.Evidence.Packing
import Proctor.Proofs.Evidence.Package
import Proctor.Proofs.Evidence.Frame
import Proctor.Proofs.Evidence.Order
import Proctor.Proofs.Evidence.Repetition
import Proctor.Proofs.CommandLine.DryRun
import Proctor.Proofs.Benchmark
import Proctor.Proofs.CommandLine.Decision
import Proctor.Proofs.Verdict.Comparison
import Proctor.Proofs.Evidence.Discovery
import Proctor.Proofs.Evidence.Outcome
import Proctor.Proofs.Policy
import Proctor.Proofs.Text.Numeral
import Proctor.Proofs.Evidence.Index
import Proctor.Proofs.Text.Trimming
import Proctor.Proofs.Architecture
import Proctor.Proofs.Property
import Proctor.Proofs.Settings.Grammar
import Proctor.Proofs.Settings.Objects
import Proctor.Proofs.Version
import Proctor.Proofs.Command.Flags
import Proctor.Proofs.Output
