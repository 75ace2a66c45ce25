import Proctor.Policy
import Proctor.Log
import Proctor.Output

/-!
# Verdicts

What the output of a verifier says about the benchmark. The output is searched for certain texts,
the markers, and the rules of `Rule.forCategory` are tried in order: the first one that matches
gives the result code. The codes are finer than the verdicts that are announced.
-/

namespace Proctor

/-- What the output of a verifier amounts to. -/
inductive ResultCode where
  | success
  | failReach
  | timedOut
  | memOut
  | forceFloatMode
  | memCleanupFail
  | unwindingAssertion
  | unknown
  deriving DecidableEq, Repr

/-- What is announced about a benchmark. -/
inductive Verdict where
  | holds
  | falseReach
  | timedOut
  | unknown
  deriving DecidableEq, Repr

/-- A verdict as it is announced. -/
def Verdict.text : Verdict → String
  | holds => "TRUE"
  | falseReach => "FALSE_REACH"
  | timedOut => "Timed out"
  | unknown => "Unknown"

namespace ResultCode

/-- The codes in order. -/
def all : List ResultCode :=
  [success, failReach, timedOut, memOut, forceFloatMode, memCleanupFail, unwindingAssertion,
    unknown]

/-- Whether a code says that the property fails. -/
def isFail : ResultCode → Bool
  | failReach => true
  | _ => false

/-- Whether a code says that the verifier ran out of something. -/
def isOut : ResultCode → Bool
  | memOut | timedOut | unknown => true
  | _ => false

/-- The verdict that is announced for a code. -/
def verdict : ResultCode → Verdict
  | success => .holds
  | failReach => .falseReach
  | timedOut => .timedOut
  | _ => .unknown

end ResultCode

namespace Marker

/-- The verifier ran out of time. -/
def timedOut : String := "Timed out"

/-- The verifier ran out of memory. -/
def outOfMemory : String := "Out of memory"

/-- The solver cannot handle floating-point numbers. -/
def noFloatSupport : String := "Chosen solver doesn't support floating-point numbers"

/-- A property was violated. -/
def failed : String := "VERIFICATION FAILED"

/-- The violated property says that a loop was unwound far enough. -/
def unwindingAssertion : String := "unwinding assertion loop"

/-- All properties hold. -/
def successful : String := "VERIFICATION SUCCESSFUL"

/-- The version of the output format in which the markers stand. -/
def formatVersion : Nat := 1

end Marker

/-- A rule: if all of its markers occur in the output, the output amounts to its code. -/
structure Rule where
  name : String
  markers : List String
  code : ResultCode
  deriving DecidableEq, Repr

namespace Rule

/-- Whether a rule applies to an output. -/
def applies (rule : Rule) (text : List Char) : Bool :=
  rule.markers.all fun marker => Sequence.occurs marker.toList text

/-- The code of an output that says that a property was violated. -/
def failureCode : Category → ResultCode
  | .coverage => .failReach
  | .reachability => .failReach

/-- The rules for a category in the order in which they are tried. -/
def forCategory (category : Category) : List Rule :=
  [⟨"timeout", [Marker.timedOut], .timedOut⟩,
    ⟨"memout", [Marker.outOfMemory], .memOut⟩,
    ⟨"no-float-support", [Marker.noFloatSupport], .forceFloatMode⟩,
    ⟨"unwinding-assertion", [Marker.failed, Marker.unwindingAssertion], .unwindingAssertion⟩,
    ⟨"failed", [Marker.failed], failureCode category⟩,
    ⟨"successful", [Marker.successful], .success⟩]

/-- The rules that apply to an output, in order. -/
def matching (category : Category) (text : List Char) : List Rule :=
  (forCategory category).filter (·.applies text)

end Rule

/-- The result code of an output, with the log records on how it was found. -/
def classify (text : List Char) (category : Category) : ResultCode × List Record :=
  match (Rule.forCategory category).find? (·.applies text) with
  | none => (.unknown, [])
  | some rule =>
    let found := ⟨.debug, .verdict, s!"Output matched rule '{rule.name}'"⟩
    let warning := ⟨.warn, .verdict,
      "Verification failed on an unwinding assertion; reporting Unknown"⟩
    (rule.code, if rule.code = .unwindingAssertion then [found, warning] else [found])

end Proctor
