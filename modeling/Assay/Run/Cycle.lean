import Assay.Build.Toolchain
import Assay.Check

/-!
# Run — the cycle of one fixture

Make a scratch directory, build, run the program, judge it, remove the directory. Every problem on
the way becomes a reason of the result, so a cycle always has one, unless a pipeline dies in it.

No clock runs: the duration of every result is zero.
-/

namespace Assay

/-- All that the cycle of a fixture depends on. -/
structure Harness where
  host : Host
  config : Config
  pipeline : Pipeline

namespace Harness

/-- A harness that builds with the toolchain of its configuration. -/
def ofConfig (host : Host) (c : Config) : Harness :=
  ⟨host, c, c.toolchain.pipeline host c.limits.stage⟩

/-- What running a program gave. -/
structure Execution where
  outcome : Outcome
  stderr : String
  deriving DecidableEq, Repr

/-- Runs a built program without arguments and judges it by the expectations of its fixture. They
are read only after it has ended. -/
def execute (host : Host) (limit : Duration) (a : Artifact) (f : Fixture) :
    Task Machine Execution := do
  match ← .act (Invocation.run ⟨a.binary, []⟩ host limit) with
  | .error why            => pure ⟨.failed [.launch why.message], ""⟩
  | .ok (.timedOut after) => pure ⟨.failed [.timedOut after], ""⟩
  | .ok (.completed o)    =>
    let exit ← .look fun m => f.expectedExit m.files
    let stdout ← .look fun m => f.expectedStdout m.files
    pure ⟨.ofReasons (Check.output exit stdout o), o.stderrText⟩

/-- The label of a fixture's scratch directory. -/
def label (suite : String) (f : Fixture) : String := suite ++ "-" ++ f.identifier

/-- Runs and judges what was built, and removes the scratch directory. -/
def conclude (h : Harness) (a : Artifact) (f : Fixture) : Task Machine Execution := do
  let e ← execute h.host h.config.limits.run a f
  match ← a.release with
  | .ok ()     => pure e
  | .error why => pure { e with outcome := e.outcome.add (.cleanup why.message) }

/-- The whole cycle; `id` goes into the name of the scratch directory. -/
def cycle (h : Harness) (id suite : String) (f : Fixture) : Task Machine FixtureResult := do
  let result (e : Execution) : FixtureResult :=
    ⟨suite, f.identifier, e.outcome, .zero, e.stderr⟩
  match ← .act (Scratch.create (h.config.scratchBase h.host.tempDir) (label suite f) id) with
  | .error why  => pure (result ⟨.failed [.setup why.message], ""⟩)
  | .ok scratch =>
    match ← h.pipeline.build f scratch with
    | .error reason => pure (result ⟨.failed [reason], ""⟩)
    | .ok artifact  => result <$> h.conclude artifact f

/-- The result of a fixture whose task ended without one. -/
def aborted (suite : String) (f : Fixture) : FixtureResult :=
  ⟨suite, f.identifier, .failed [.aborted "fixture task ended without a result"], .zero, ""⟩

end Harness

end Assay
