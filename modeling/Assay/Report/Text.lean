import Assay.Report.Basic
import Assay.Text.Lines

/-!
# Report — the printed form

One block for each suite, with a line for each fixture, and a last line for the run. Lines of a
failure are indented; text that programs wrote stands behind a bar.
-/

namespace Assay

/-- Captured text, line by line behind a bar. -/
def captured (text : String) : List String :=
  (Text.lines text).map ("      | " ++ ·)

namespace Reason

/-- The lines of a reason: what it says, and for a build what the tool said. -/
def lines (r : Reason) : List String :=
  ("      " ++ r.display) ::
    match r with
    | .build _ _ output => captured output
    | _                 => []

end Reason

namespace FixtureResult

def lines (r : FixtureResult) : List String :=
  let head (verdict : String) :=
    verdict ++ "  " ++ r.identifier ++ " (" ++ r.duration.twoPlaces ++ ")"
  match r.outcome with
  | .passed         => [head "ok  "]
  | .failed reasons =>
    head "FAIL" :: reasons.flatMap Reason.lines ++
      if r.diagnostics.isEmpty then [] else "      stderr:" :: captured r.diagnostics

end FixtureResult

/-- How many passed and how many failed. -/
def countText (passed failed : Nat) : String :=
  toString passed ++ " passed, " ++ toString failed ++ " failed"

def SuiteReport.lines (s : SuiteReport) : List String :=
  ("== " ++ s.name) :: s.results.flatMap FixtureResult.lines ++
    ["-- " ++ s.name ++ ": " ++ countText s.passedCount s.failedCount, ""]

namespace RunReport

/-- The last line. -/
def lastLine (r : RunReport) : String :=
  "== " ++ countText r.passedCount r.failedCount ++ " in " ++ toString r.suites.length ++
    (if r.suites.length = 1 then " suite (" else " suites (") ++ r.duration.twoPlaces ++ "): " ++
    (if r.passed then "OK" else "FAILED")

def lines (r : RunReport) : List String :=
  r.suites.flatMap SuiteReport.lines ++ [r.lastLine]

/-- The printed report. -/
def render (r : RunReport) : String := Text.unlines r.lines

end RunReport

end Assay
