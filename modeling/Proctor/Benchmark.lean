import Proctor.Session

/-!
# Benchmarks

A benchmark is concurrent if a line of it mentions the function that creates threads.
-/

namespace Proctor.Benchmark

/-- The name of the function that creates threads. -/
def threadToken : String := "pthread_create"

/-- The lines of a benchmark. -/
def lines (bytes : Bytes) : List Bytes :=
  Sequence.splitOn 0x0A bytes

/-- Whether a line mentions the creation of threads. -/
def usesThreads (bytes : Bytes) : Bool :=
  (lines bytes).any (Sequence.occurs (Bytes.ofString threadToken))

/-- Whether the benchmark at a path creates threads. -/
def ofFile (files : FileSystem) (path : Path) : Except Failure Bool :=
  match files.read path with
  | .ok bytes => .ok (usesThreads bytes)
  | .error fault => .error (.benchmarkUnreadable path fault)

/-- Look for the creation of threads in the benchmark at a path. -/
def scan (path : Path) : Session Bool := do
  let threads ← ofFile (← Session.files) path
  if threads then Session.log .debug .benchmark s!"Thread creation found in {path.display}"
  return threads

end Proctor.Benchmark
