import Assay.Report.Basic
import Assay.Run.Cycle
import Assay.Run.Pool

/-!
# Run — all fixtures of all suites

One worker for each fixture, under as many permits as there are jobs. Their results are put back
into the order of the suites, and a fixture without a result counts as aborted.

* `Harness.run`: the report of a run under any schedule.
* `Harness.runInOrder`: the fixtures one after another.
-/

namespace Assay

/-- The most permits that a pool can be made with: one less than the sixty-first power of two. -/
def permitLimit : Nat := 2305843009213693951

namespace Harness

/-- A fixture to run: its seat, the name of its suite, and the fixture. -/
structure Job where
  seat : Seat
  suite : String
  fixture : Fixture
  deriving DecidableEq, Repr

/-- The jobs of some suites, in order. -/
def jobs (suites : List Suite) : List Job :=
  suites.zipIdx.flatMap fun s => s.1.fixtures.zipIdx.map fun f => ⟨⟨s.2, f.2⟩, s.1.name, f.1⟩

/-- The task of a job; `ids` gives each job an id of its own by its number. -/
def task (h : Harness) (ids : Nat → String) (n : Nat) (j : Job) : Task Machine FixtureResult :=
  h.cycle (ids n) j.suite j.fixture

/-- The pool before its first event. -/
def pool (h : Harness) (ids : Nat → String) (suites : List Suite) (m : Machine) :
    Pool Machine FixtureResult where
  shared := m
  free := max h.config.jobs 1
  queue := []
  workers := (jobs suites).zipIdx.map fun j => ⟨j.1.seat, .spawned (h.task ids j.2 j.1)⟩
  channel := []
  board := .ofSizes (suites.map (·.size))

/-- The report of a board: every fixture has the result at its seat. -/
def report (suites : List Suite) (board : Board FixtureResult) : RunReport where
  suites := (suites.zip board.slots).map fun s =>
    ⟨s.1.name, (s.1.fixtures.zip s.2).map fun f => f.2.getD (aborted s.1.name f.1)⟩
  duration := .zero

/-- Runs all fixtures: the events of a schedule first, and then whatever is left. There is no run
with more jobs than a pool has permits. -/
def run (h : Harness) (ids : Nat → String) (schedule : List Pool.Event) (suites : List Suite)
    (m : Machine) : Option (RunReport × Machine) :=
  if permitLimit < max h.config.jobs 1 then none
  else
    let p := ((h.pool ids suites m).play schedule).drain
    some (report suites p.board, p.shared)

/-- The results of fixtures run one after another, the first with the `n`-th id. -/
def runFixtures (h : Harness) (ids : Nat → String) (suite : String) :
    Nat → List Fixture → Machine → List FixtureResult × Machine
  | _, [], m      => ([], m)
  | n, f :: fs, m =>
    let (r, m) := (h.cycle (ids n) suite f).run m
    let (rs, m) := h.runFixtures ids suite (n + 1) fs m
    (r.getD (aborted suite f) :: rs, m)

/-- The reports of suites run one after another. -/
def runSuites (h : Harness) (ids : Nat → String) :
    Nat → List Suite → Machine → List SuiteReport × Machine
  | _, [], m      => ([], m)
  | n, s :: ss, m =>
    let (rs, m) := h.runFixtures ids s.name n s.fixtures m
    let (reports, m) := h.runSuites ids (n + s.size) ss m
    (⟨s.name, rs⟩ :: reports, m)

/-- The report of all fixtures run one after another, in order. -/
def runInOrder (h : Harness) (ids : Nat → String) (suites : List Suite) (m : Machine) :
    RunReport × Machine :=
  let (reports, m) := h.runSuites ids 0 suites m
  (⟨reports, .zero⟩, m)

end Harness

end Assay
