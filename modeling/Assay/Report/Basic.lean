import Assay.Outcome

/-!
# Report — the results of a run and their counts
-/

namespace Assay

/-- The results of one suite, in the order of its fixtures. -/
structure SuiteReport where
  name : String
  results : List FixtureResult
  deriving DecidableEq, Repr

namespace SuiteReport

/-- Whether every fixture passed. -/
def passed (s : SuiteReport) : Bool := s.results.all (·.passed)

def passedCount (s : SuiteReport) : Nat := s.results.countP (·.passed)

def failedCount (s : SuiteReport) : Nat := s.results.length - s.passedCount

end SuiteReport

/-- The results of a run, in the order of discovery. -/
structure RunReport where
  suites : List SuiteReport
  duration : Duration
  deriving DecidableEq, Repr

namespace RunReport

/-- The verdict: every fixture of every suite passed. -/
def passed (r : RunReport) : Bool := r.suites.all (·.passed)

/-- The exit code of the verdict. -/
def exitCode (r : RunReport) : Nat := if r.passed then 0 else 1

/-- The results of all suites. -/
def results (r : RunReport) : List FixtureResult := r.suites.flatMap (·.results)

/-- Number of fixtures, suite by suite. -/
def total (r : RunReport) : Nat := r.suites.foldl (fun n s => n + s.results.length) 0

def passedCount (r : RunReport) : Nat := r.suites.foldl (fun n s => n + s.passedCount) 0

def failedCount (r : RunReport) : Nat := r.total - r.passedCount

end RunReport

end Assay
