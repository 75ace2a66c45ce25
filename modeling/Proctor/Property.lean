import Proctor.Policy
import Proctor.Session

/-!
# Properties

A property file says what is to be shown of a benchmark. It is recognised by the specifications
that occur in its text; if several occur, the first one in the table counts, wherever they stand in
the file.
-/

namespace Proctor.Property

/-- The known specifications and what they ask for. -/
def specifications : List (String × Category) :=
  [("COVER( init(main()), FQL(COVER EDGES(@DECISIONEDGE)) )", .coverage),
    ("COVER( init(main()), FQL(COVER EDGES(@CONDITIONEDGE)) )", .coverage),
    ("COVER( init(main()), FQL(COVER EDGES(@BASICBLOCKENTRY)) )", .coverage),
    ("COVER( init(main()), FQL(COVER EDGES(@CALL(__VERIFIER_error))) )", .reachability),
    ("CHECK( init(main()), LTL(G ! call(__VERIFIER_error())) )", .reachability)]

/-- What the text of a property file asks for. -/
def category? (text : List Char) : Option Category :=
  (specifications.find? fun entry => Sequence.occurs entry.1.toList text).map Prod.snd

/-- What the text of a property file asks for; a text without a known specification fails. -/
def category (text : List Char) : Except Failure Category :=
  match category? text with
  | some category => .ok category
  | none => .error .unsupportedProperty

/-- What the property file at a path asks for. -/
def ofFile (files : FileSystem) (path : Path) : Except Failure Category :=
  match files.readText path with
  | .ok text => category text
  | .error fault => .error (.propertyUnreadable path fault)

/-- Read the property file at a path. -/
def resolve (path : Path) : Session Category := do
  let category ← ofFile (← Session.files) path
  Session.log .debug .property s!"Property {path.display} resolved to {category.name}"
  return category

end Proctor.Property
