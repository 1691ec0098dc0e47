import Assay.Json.Reader
import Assay.Report.Document

/-!
# Report — reading the document form back

Each reader undoes the writer of the same type. Nothing of a report is lost in its document but the
part of the run's duration below a millisecond.
-/

namespace Assay

namespace Json

def str? : Json → Option String
  | .str s => some s
  | _      => none

def int? : Json → Option Int
  | .int n => some n
  | _      => none

def nat? : Json → Option Nat
  | .int (.ofNat n) => some n
  | _               => none

def bool? : Json → Option Bool
  | .bool b => some b
  | _       => none

def arr? : Json → Option (List Json)
  | .arr items => some items
  | _          => none

/-- The text under a key. -/
def strAt (j : Json) (key : String) : Option String := do (← j.get? key).str?

def intAt (j : Json) (key : String) : Option Int := do (← j.get? key).int?

def natAt (j : Json) (key : String) : Option Nat := do (← j.get? key).nat?

end Json

/-- A duration; a part that is missing is zero. -/
def Duration.ofJson? (j : Json) : Option Duration := do
  let secs ← ((j.get? "secs").getD (.int 0)).nat?
  let nanos ← ((j.get? "nanos").getD (.int 0)).nat?
  if h : nanos < 1000000000 then some ⟨secs, nanos, h⟩ else none

def Exit.ofJson? (j : Json) : Option Exit :=
  match j with
  | .str "unknown" => some .unknown
  | j =>
    match j.intAt "code", j.intAt "signal" with
    | some n, _      => some (.code n)
    | none, some n   => some (.signal n)
    | none, none     => none

def Stage.ofName? (name : String) : Option Stage :=
  [Stage.translate, .codegen, .link].find? (·.name == name)

def Reason.ofJson? (j : Json) : Option Reason := do
  match ← j.strAt "kind" with
  | "setup"               => .setup <$> j.strAt "message"
  | "invalid_expectation" => .invalidExpectation <$> j.strAt "message"
  | "launch"              => .launch <$> j.strAt "message"
  | "aborted"             => .aborted <$> j.strAt "message"
  | "cleanup"             => .cleanup <$> j.strAt "message"
  | "build"               =>
    let stage ← Stage.ofName? (← j.strAt "stage")
    let exit ←
      match (j.get? "exit").getD .null with
      | .null => some none
      | e     => some <$> Exit.ofJson? e
    pure (.build stage exit (← j.strAt "output"))
  | "build_timed_out"     =>
    let stage ← Stage.ofName? (← j.strAt "stage")
    pure (.buildTimedOut stage (← Duration.ofJson? (← j.get? "after")))
  | "exit_code_mismatch"  =>
    pure (.exitMismatch (← j.intAt "expected") (← Exit.ofJson? (← j.get? "actual")))
  | "stdout_mismatch"     =>
    pure (.stdoutMismatch (← j.strAt "expected") (← j.strAt "actual"))
  | "timed_out"           => .timedOut <$> Duration.ofJson? (← j.get? "after")
  | _                     => none

def Outcome.ofJson? (j : Json) : Option Outcome := do
  match ← j.strAt "status" with
  | "passed" => some .passed
  | "failed" => .failed <$> (← (← j.get? "reasons").arr?).mapM Reason.ofJson?
  | _        => none

def FixtureResult.ofJson? (j : Json) : Option FixtureResult := do
  pure ⟨← j.strAt "suite", ← j.strAt "identifier", ← Outcome.ofJson? (← j.get? "outcome"),
    ← Duration.ofJson? (← j.get? "duration"), ← j.strAt "diagnostics"⟩

def SuiteReport.ofJson? (j : Json) : Option SuiteReport := do
  pure ⟨← j.strAt "name", ← (← (← j.get? "results").arr?).mapM FixtureResult.ofJson?⟩

/-- What a report's document says. -/
structure ReportDocument where
  passed : Bool
  total : Nat
  failed : Nat
  durationMillis : Nat
  suites : List SuiteReport
  deriving DecidableEq, Repr

def ReportDocument.ofJson? (j : Json) : Option ReportDocument := do
  pure ⟨← (← j.get? "passed").bool?, ← j.natAt "total", ← j.natAt "failed",
    ← j.natAt "duration_ms", ← (← (← j.get? "suites").arr?).mapM SuiteReport.ofJson?⟩

/-- The document that a text holds. -/
def ReportDocument.parse? (s : String) : Option ReportDocument :=
  (Json.parse s).bind ReportDocument.ofJson?

end Assay
