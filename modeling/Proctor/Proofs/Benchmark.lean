import Proctor.Proofs.Run.Stages
import Proctor.Proofs.Sequence

/-!
# Threads in benchmarks

A benchmark is scanned line by line for the function that creates threads. The name of the function
has no line feed, so that the scan comes to the same as a search in the whole content. It has no
return either, so that neither the line endings nor the order of the lines matter.
-/

namespace Proctor.Benchmark

theorem lineFeed_notMem_threadToken :
  0x0A ∉ Bytes.ofString threadToken
  := by decide

/-- A line mentions the creation of threads exactly if the content does. -/
theorem usesThreads_iff (content : Bytes) :
  usesThreads content = true ↔ Bytes.ofString "pthread_create" <:+: content
  := by
  rw [usesThreads, List.any_eq_true]
  simp only [Sequence.occurs_iff]
  apply Sequence.exists_mem_splitOn_iff 0x0A lineFeed_notMem_threadToken

/-- What becomes of the content of a benchmark in a scan that has a result. -/
theorem scan_eq_ok_iff (world : World) (path : Path) (threads : Bool) :
  ((scan path).runIn world).1 = .ok threads
    ↔ ∃ content, world.files.read path = .ok content ∧ usesThreads content = threads
  := by
  rw [← Run.benchmark_ofFile_eq_ok_iff, Run.runIn_scan]
  cases ofFile world.files path with
  | error failure => rfl
  | ok found => rfl

/-- A scan of a benchmark that can be read has a result. It finds threads if the name of the
function that creates them stands in the content as one run of bytes, wherever the lines end, and
otherwise it finds none. -/
theorem scan_iff_occurs (world : World) (path : Path) :
  (((scan path).runIn world).1 = .ok true
      ↔ ∃ content, world.files.read path = .ok content
        ∧ Bytes.ofString "pthread_create" <:+: content)
    ∧ (((scan path).runIn world).1 = .ok false
      ↔ ∃ content, world.files.read path = .ok content
        ∧ ¬ Bytes.ofString "pthread_create" <:+: content)
  := by
  constructor
  · rw [scan_eq_ok_iff]
    simp only [usesThreads_iff]
  · rw [scan_eq_ok_iff]
    simp only [← usesThreads_iff, Bool.not_eq_true]

/-- A line feed within the name breaks it, and bytes that are not text do not. -/
example :
  usesThreads (Bytes.ofString "pthread_\ncreate") = false
    ∧ usesThreads (0xFF :: Bytes.ofString "\n\npthread_create" ++ [0]) = true
  := by decide

/-! ### Line endings -/

/-- A content with a return put before every line feed. -/
def withReturns (content : Bytes) : Bytes :=
  content.flatMap fun b => if b = 0x0A then [0x0D, 0x0A] else [b]

/-- A content with a line feed in the place of every return that has a line feed after it. -/
def withoutReturns : Bytes → Bytes
  | [] => []
  | [b] => [b]
  | first :: second :: rest =>
    if first = 0x0D ∧ second = 0x0A then 0x0A :: withoutReturns rest
    else first :: withoutReturns (second :: rest)

/-- Two contents have the same lines, in any order and each any number of times. Empty lines do not
count, and so neither does a line feed at the end. -/
def SameLines (first second : Bytes) : Prop :=
  ∀ line, line ≠ [] → (line ∈ lines first ↔ line ∈ lines second)

theorem replaces_withReturns (content : Bytes) :
  Sequence.Replaces [0x0A] [0x0D, 0x0A] content (withReturns content)
  := by
  induction content with
  | nil => apply Sequence.Replaces.nil
  | cons b rest ih =>
      rw [withReturns, List.flatMap_cons]
      split
      · next hlineFeed =>
        rw [hlineFeed]
        apply Sequence.Replaces.replace ih
      · apply Sequence.Replaces.keep b ih

theorem replaces_withoutReturns (content : Bytes) :
  Sequence.Replaces [0x0D, 0x0A] [0x0A] content (withoutReturns content)
  := by
  fun_induction withoutReturns content with
  | case1 => apply Sequence.Replaces.nil
  | case2 b => apply Sequence.Replaces.keep b .nil
  | case3 first second rest hreturn ih =>
      obtain ⟨rfl, rfl⟩ := hreturn
      apply Sequence.Replaces.replace ih
  | case4 first second rest _ ih => apply Sequence.Replaces.keep first ih

theorem usesThreads_eq_of_replaces {old new content content' : Bytes} (hold : old ≠ [])
    (hnew : new ≠ []) (holds : ∀ b ∈ old, b ∉ Bytes.ofString threadToken)
    (hnews : ∀ b ∈ new, b ∉ Bytes.ofString threadToken)
    (h : Sequence.Replaces old new content content') :
  usesThreads content' = usesThreads content
  := by
  rw [Bool.eq_iff_iff, usesThreads_iff, usesThreads_iff]
  apply h.infix_iff hold hnew _ holds hnews
  decide

theorem usesThreads_eq_of_sameLines {content content' : Bytes} (h : SameLines content' content) :
  usesThreads content' = usesThreads content
  := by
  rw [Bool.eq_iff_iff, usesThreads, List.any_eq_true, usesThreads, List.any_eq_true]
  apply exists_congr
  intro line
  apply and_congr_left
  intro hoccurs
  apply h
  rintro rfl
  revert hoccurs
  decide

/-- The answer of a scan does not depend on the line endings, nor on the order of the lines: it is
the same for a content, for the content with a return before every line feed, for the content
without the returns before its line feeds, and for every content with the same lines. -/
theorem scan_eq_of_lineEndings {world : World} {path : Path} {content : Bytes}
    (hread : world.files.read path = .ok content) :
  ∃ threads, ((scan path).runIn world).1 = .ok threads
    ∧ ∀ (world' : World) (path' : Path) (content' : Bytes),
      world'.files.read path' = .ok content' →
      content' = withReturns content ∨ content' = withoutReturns content
        ∨ SameLines content' content →
      ((scan path').runIn world').1 = .ok threads
  := by
  have hlineFeed : ∀ b ∈ [(0x0A : UInt8)], b ∉ Bytes.ofString threadToken :=
    List.forall_mem_singleton.mpr lineFeed_notMem_threadToken
  have hreturn : ∀ b ∈ [(0x0D : UInt8), 0x0A], b ∉ Bytes.ofString threadToken :=
    List.forall_mem_cons.mpr ⟨by decide, hlineFeed⟩
  use usesThreads content
  constructor
  · apply (scan_eq_ok_iff world path _).mpr ⟨content, hread, rfl⟩
  intro world' path' content' hread' hsame
  apply (scan_eq_ok_iff world' path' _).mpr ⟨content', hread', _⟩
  obtain rfl | rfl | hlines := hsame
  · apply usesThreads_eq_of_replaces (by decide) (by decide) hlineFeed hreturn
      (replaces_withReturns content)
  · apply usesThreads_eq_of_replaces (by decide) (by decide) hreturn hlineFeed
      (replaces_withoutReturns content)
  · apply usesThreads_eq_of_sameLines hlines

namespace Sample

/-- A world whose root has a benchmark of the given content. -/
def worldWith (content : Bytes) : World where
  files := (FileSystem.empty []).put (Location.root.enter (Bytes.ofString "main.c"))
    (.file (.data content) false)

/-- The path of that benchmark. -/
def path : Path :=
  Bytes.ofString "main.c"

/-- A content with returns alone, before a line feed and before another return, next to the name of
the function that creates threads. -/
def mixed : Bytes :=
  Bytes.ofString "\rpthread_create\r\r\n\nf();\r\ng();"

/-- The same lines in another order, with one of them twice and a line feed at the end. -/
def shuffled : Bytes :=
  Bytes.ofString "g();\nf();\r\ng();\n\rpthread_create\r\r\n"

theorem read_worldWith (content : Bytes) :
  (worldWith content).files.read path = .ok content
  := rfl

theorem sameLines_shuffled :
  SameLines shuffled mixed
  := by
  have hshuffled : lines shuffled = ["g();", "f();\r", "g();", "\rpthread_create\r\r", ""].map
      Bytes.ofString := by decide
  have hmixed : lines mixed = ["\rpthread_create\r\r", "", "f();\r", "g();"].map
      Bytes.ofString := by decide
  intro line _
  rw [hshuffled, hmixed]
  simp only [List.map_cons, List.map_nil, List.mem_cons, List.not_mem_nil, or_false]
  grind

end Sample

open Sample in
theorem scan_eq_of_lineEndings_mixed :
  (worldWith mixed).files.read path = .ok mixed
    ∧ ((scan path).runIn (worldWith mixed)).1 = .ok true
    ∧ ((scan path).runIn (worldWith (withReturns mixed))).1 = .ok true
    ∧ ((scan path).runIn (worldWith (withoutReturns mixed))).1 = .ok true
    ∧ ((scan path).runIn (worldWith shuffled)).1 = .ok true
  := by
  obtain ⟨threads, hscan, hsame⟩ := scan_eq_of_lineEndings (read_worldWith mixed)
  have hmixed : ((scan path).runIn (worldWith mixed)).1 = .ok true :=
    (scan_eq_ok_iff _ _ _).mpr ⟨mixed, read_worldWith mixed, by decide⟩
  obtain rfl : threads = true := Except.ok.inj (hscan.symm.trans hmixed)
  refine ⟨read_worldWith mixed, hmixed, ?_, ?_, ?_⟩
  · apply hsame _ _ _ (read_worldWith _) (.inl rfl)
  · apply hsame _ _ _ (read_worldWith _) (.inr (.inl rfl))
  · apply hsame _ _ _ (read_worldWith _) (.inr (.inr sameLines_shuffled))

end Proctor.Benchmark
