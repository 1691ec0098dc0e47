import Assay.Fixture
import Assay.Outcome
import Assay.Scratch
import Assay.Task

/-!
# Build — from a fixture to a program

A pipeline turns the source of a fixture into a program inside a scratch directory. If it fails it
has dropped the scratch directory; if it succeeds the artifact holds it, until it is released.
-/

namespace Assay

/-- A built program and the scratch directory that it lives in. -/
structure Artifact where
  scratch : Scratch
  binary : Path
  deriving DecidableEq, Repr

namespace Artifact

/-- Removes the scratch directory now. If that fails, the artifact is dropped after it, which tries
once more. -/
def release (a : Artifact) : Task Machine (Except Error Unit) := do
  let (outcome, scratch) ← .act fun m =>
    let (outcome, scratch, m) := a.scratch.cleanup m
    ((outcome, scratch), m)
  if !scratch.removed then
    Task.change scratch.drop
  pure outcome

end Artifact

/-- A way to build fixtures. -/
structure Pipeline where
  name : String
  build : Fixture → Scratch → Task Machine (Except Reason Artifact)

end Assay
