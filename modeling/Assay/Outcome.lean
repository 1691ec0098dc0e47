import Assay.Duration
import Assay.Exit
import Assay.Text.Quoted
import Assay.Text.Unprintable

/-!
# Outcome — how a fixture fared and why

A fixture passes, or fails for one or more reasons. A reason has a summary, which leaves out what
was expected and what was seen, and a line that has both.
-/

namespace Assay

/-- One step of a build. -/
inductive Stage where
  /-- From source to intermediate code, by the compiler under test. -/
  | translate
  /-- From intermediate code to an object file. -/
  | codegen
  /-- From the object file to a program. -/
  | link
  deriving DecidableEq, Repr

def Stage.name : Stage → String
  | .translate => "translate"
  | .codegen   => "codegen"
  | .link      => "link"

/-- Why a fixture failed. -/
inductive Reason where
  /-- The scratch directory could not be set up. -/
  | setup (message : String)
  | invalidExpectation (message : String)
  /-- A stage ended without success or, when there is no exit, did not start. -/
  | build (stage : Stage) (exit : Option Exit) (output : String)
  | buildTimedOut (stage : Stage) (after : Duration)
  /-- The program could not be started. -/
  | launch (message : String)
  | exitMismatch (expected : Int) (actual : Exit)
  | stdoutMismatch (expected actual : String)
  | timedOut (after : Duration)
  /-- The fixture's task ended without a result. -/
  | aborted (message : String)
  /-- The scratch directory could not be removed. -/
  | cleanup (message : String)
  deriving DecidableEq, Repr

namespace Reason

def summary : Reason → String
  | .setup _                  => "setup failed"
  | .invalidExpectation _     => "invalid expectation"
  | .build stage (some e) _   => stage.name ++ " stage failed (" ++ e.describe ++ ")"
  | .build stage none _       => stage.name ++ " stage could not start"
  | .buildTimedOut stage d    => stage.name ++ " stage timed out after " ++ d.shortest
  | .launch _                 => "program could not start"
  | .exitMismatch _ _         => "exit code mismatch"
  | .stdoutMismatch _ _       => "stdout mismatch"
  | .timedOut d               => "program timed out after " ++ d.shortest
  | .aborted _                => "run aborted"
  | .cleanup _                => "scratch cleanup failed"

/-- What a reason says beyond its summary, if anything. Expected and actual texts are quoted, with
the `hidden` characters escaped. -/
def detail (hidden : Char → Bool) : Reason → Option String
  | .setup message              => some message
  | .invalidExpectation message => some message
  | .launch message             => some message
  | .aborted message            => some message
  | .cleanup message            => some message
  | .exitMismatch expected actual =>
    some ("expected exit code " ++ toString expected ++ ", got " ++ actual.describe)
  | .stdoutMismatch expected actual =>
    some ("expected " ++ Text.quote hidden expected ++ ", got " ++ Text.quote hidden actual)
  | _                           => none

/-- The line of a reason, for any choice of hidden characters. -/
def displayWith (hidden : Char → Bool) (r : Reason) : String :=
  match r.detail hidden with
  | some d => r.summary ++ ": " ++ d
  | none   => r.summary

/-- The line of a reason. -/
def display : Reason → String := displayWith Text.isUnprintable

end Reason

/-- Passed, or failed with every reason found; a failure may be without any. -/
inductive Outcome where
  | passed
  | failed (reasons : List Reason)
  deriving DecidableEq, Repr

namespace Outcome

/-- No reason is a pass. -/
def ofReasons : List Reason → Outcome
  | [] => .passed
  | rs => .failed rs

/-- One more reason behind the others; a pass becomes a failure. -/
def add : Outcome → Reason → Outcome
  | .passed, r    => .failed [r]
  | .failed rs, r => .failed (rs ++ [r])

def isPass : Outcome → Bool
  | .passed   => true
  | .failed _ => false

def reasons : Outcome → List Reason
  | .passed    => []
  | .failed rs => rs

/-- An outcome has the reasons that it was made of. -/
@[simp] theorem reasons_ofReasons (rs : List Reason) : (ofReasons rs).reasons = rs := by
  cases rs <;> rfl

/-- One reason more comes behind the others, also where there were none. -/
@[simp] theorem reasons_add (o : Outcome) (r : Reason) : (o.add r).reasons = o.reasons ++ [r] := by
  cases o <;> rfl

end Outcome

/-- What became of one fixture. -/
structure FixtureResult where
  suite : String
  identifier : String
  outcome : Outcome
  duration : Duration
  /-- What the program wrote on standard error, if it ran. -/
  diagnostics : String
  deriving DecidableEq, Repr

def FixtureResult.passed (r : FixtureResult) : Bool := r.outcome.isPass

end Assay
