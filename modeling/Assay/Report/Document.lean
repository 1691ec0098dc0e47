import Assay.Error
import Assay.FileSystem.Operations
import Assay.Json.Writer
import Assay.Report.Basic

/-!
# Report — the document form

Results as JSON. A reason carries its kind and then its fields; an exit is an object with a code or
a signal, or the word `unknown`; a duration has whole seconds and the nanoseconds beyond them.
-/

namespace Assay

def Duration.toJson (d : Duration) : Json :=
  .obj [("secs", .nat d.secs), ("nanos", .nat d.nanos)]

def Exit.toJson : Exit → Json
  | .code n   => .obj [("code", .int n)]
  | .signal n => .obj [("signal", .int n)]
  | .unknown  => .str "unknown"

namespace Reason

/-- The word for a kind of reason. -/
def kind : Reason → String
  | .setup _              => "setup"
  | .invalidExpectation _ => "invalid_expectation"
  | .build _ _ _          => "build"
  | .buildTimedOut _ _    => "build_timed_out"
  | .launch _             => "launch"
  | .exitMismatch _ _     => "exit_code_mismatch"
  | .stdoutMismatch _ _   => "stdout_mismatch"
  | .timedOut _           => "timed_out"
  | .aborted _            => "aborted"
  | .cleanup _            => "cleanup"

def fields : Reason → List (String × Json)
  | .setup message              => [("message", .str message)]
  | .invalidExpectation message => [("message", .str message)]
  | .build stage exit output    =>
    [("stage", .str stage.name), ("exit", (exit.map Exit.toJson).getD .null),
     ("output", .str output)]
  | .buildTimedOut stage after  => [("stage", .str stage.name), ("after", after.toJson)]
  | .launch message             => [("message", .str message)]
  | .exitMismatch expected actual => [("expected", .int expected), ("actual", actual.toJson)]
  | .stdoutMismatch expected actual => [("expected", .str expected), ("actual", .str actual)]
  | .timedOut after             => [("after", after.toJson)]
  | .aborted message            => [("message", .str message)]
  | .cleanup message            => [("message", .str message)]

def toJson (r : Reason) : Json := .obj (("kind", .str r.kind) :: r.fields)

end Reason

def Outcome.toJson : Outcome → Json
  | .passed         => .obj [("status", .str "passed")]
  | .failed reasons =>
    .obj [("status", .str "failed"), ("reasons", .arr (reasons.map Reason.toJson))]

def FixtureResult.toJson (r : FixtureResult) : Json :=
  .obj [("suite", .str r.suite), ("identifier", .str r.identifier),
    ("outcome", r.outcome.toJson), ("duration", r.duration.toJson),
    ("diagnostics", .str r.diagnostics)]

def SuiteReport.toJson (s : SuiteReport) : Json :=
  .obj [("name", .str s.name), ("results", .arr (s.results.map FixtureResult.toJson))]

namespace RunReport

/-- The report as a document: the verdict and the counts, then all results. -/
def toJson (r : RunReport) : Json :=
  .obj [("passed", .bool r.passed), ("total", .nat r.total), ("failed", .nat r.failedCount),
    ("duration_ms", .nat r.duration.millis), ("suites", .arr (r.suites.map SuiteReport.toJson))]

/-- The text of the document. -/
def document (r : RunReport) : String := r.toJson.pretty

/-- Writes the document to a file. -/
def writeDocument (r : RunReport) (p : Path) (fs : FileSystem) : Except Error FileSystem :=
  match fs.write p ⟨Text.Utf8.encode r.document, false⟩ with
  | .ok fs     => .ok fs
  | .error why => .error (.report (.unwritable p why))

end RunReport

end Assay
