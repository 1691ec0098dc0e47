import Assay.Fixture
import Assay.Outcome

/-!
# Check — a finished program against what was expected of it

Exit code and standard output are judged apart: each gives at most one reason, and neither looks at
what the other needs.
-/

namespace Assay.Check

/-- The exit code must be the expected one; no other ending matches any. -/
def exit (expected : Int) (actual : Exit) : Option Reason :=
  if actual.code? = some expected then none else some (.exitMismatch expected actual)

/-- The bytes must be the same; texts are made of them only to be shown. -/
def stdout (expected actual : Bytes) : Option Reason :=
  if expected == actual then none
  else some (.stdoutMismatch (Text.Utf8.decodeLossy expected) (Text.Utf8.decodeLossy actual))

/-- The reason of one part: its expectation is invalid, or what its judge says. -/
def part {α : Type} (expected : Except Error α) (judge : α → Option Reason) : Option Reason :=
  match expected with
  | .ok e      => judge e
  | .error why => some (.invalidExpectation why.message)

/-- All reasons against an output: at most one for the exit code, then at most one for standard
output. -/
def output (exitExpected : Except Error Int) (stdoutExpected : Except Error Bytes) (o : Output) :
    List Reason :=
  (part exitExpected fun e => exit e o.exit).toList ++
    (part stdoutExpected fun e => stdout e o.stdout).toList

end Assay.Check

namespace Assay

/-- Judges an output by the expectation files of a fixture. -/
def Fixture.check (f : Fixture) (fs : FileSystem) (o : Output) : List Reason :=
  Check.output (f.expectedExit fs) (f.expectedStdout fs) o

end Assay
