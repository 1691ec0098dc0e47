import Assay.Config.Basic
import Assay.Error
import Assay.FileSystem.Operations

/-!
# Config — what is wrong with one

Problems that forbid a run and warnings that do not, each in the order in which they were found.
-/

namespace Assay

structure Validation where
  errors : List String := []
  warnings : List String := []
  deriving DecidableEq, Repr

namespace Validation

def isValid (v : Validation) : Bool := v.errors.isEmpty

def addError (v : Validation) (text : String) : Validation :=
  { v with errors := v.errors ++ [text] }

def addWarning (v : Validation) (text : String) : Validation :=
  { v with warnings := v.warnings ++ [text] }

/-- The warnings, or all problems at once as one error. -/
def result (v : Validation) : Except Error (List String) :=
  if v.isValid then .ok v.warnings else .error (.config (.invalid v.errors))

end Validation

/-- The text `bad` if a condition holds, else nothing. -/
def complaint (holds : Bool) (bad : String) : List String := if holds then [bad] else []

/-- Each limit must leave some time. -/
def TimeLimits.validate (t : TimeLimits) : Validation where
  errors :=
    complaint (t.stageSecs = 0) "timeouts.stage_secs must be at least 1" ++
    complaint (t.runSecs = 0) "timeouts.run_secs must be at least 1"

namespace Config

/-- Limits and jobs must be positive and the root a directory. A compiler that is missing is only
warned about; a bare name is looked up when it is started. -/
def validate (c : Config) (fs : FileSystem) : Validation where
  errors :=
    c.limits.validate.errors ++
    complaint (c.jobs = 0) "jobs must be at least 1" ++
    complaint (!fs.isDir c.root) ("discovery root " ++ c.root.display ++ " is not a directory")
  warnings :=
    let compiler := c.toolchain.compiler.program
    complaint (compiler.hasDirectory && !fs.exists? compiler)
      ("compiler " ++ compiler.display ++ " does not exist; every fixture will fail to build")

end Config

end Assay
