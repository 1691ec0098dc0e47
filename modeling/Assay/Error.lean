import Assay.Fault
import Assay.Numeral
import Assay.Path
import Assay.Text.Quoted
import Assay.Text.Unprintable
import Assay.Toml.Value

/-!
# Error — why an operation of the harness fails

Each error says which operation could not be done and carries the cause. The wording of a cause
that has been put in words already is kept as it is.
-/

namespace Assay

/-- What is wrong with a configuration. -/
inductive ConfigFault where
  | unreadable (why : Toml.Fault)
  | jobs (why : Numeral.Fault)
  | invalid (problems : List String)
  | stated (text : String)
  deriving DecidableEq, Repr

def ConfigFault.message : ConfigFault → String
  | .unreadable why   => "failed to parse harness.toml: " ++ why.message
  | .jobs why         => "HARNESS_JOBS must be an integer: " ++ why.message
  | .invalid problems => String.intercalate "; " problems
  | .stated text      => text

/-- What is wrong with an expectation file. -/
inductive ExpectationFault where
  | unreadable (why : Fault)
  | notInteger (found : String) (why : Numeral.Fault)
  | stated (text : String)
  deriving DecidableEq, Repr

def ExpectationFault.message : ExpectationFault → String
  | .unreadable why       => why.message
  | .notInteger found why =>
    "expected an integer, found " ++ Text.quote Text.isUnprintable found ++
      " (" ++ why.message ++ ")"
  | .stated text          => text

/-- Why a report was not written. -/
inductive ReportFault where
  | unwritable (path : Path) (why : Fault)
  | stated (text : String)
  deriving DecidableEq, Repr

def ReportFault.message : ReportFault → String
  | .unwritable path why => path.display ++ ": " ++ why.message
  | .stated text         => text

inductive Error where
  /-- A file operation outside of a more specific context. -/
  | file (why : Fault)
  | config (why : ConfigFault)
  /-- The fixture tree could not be enumerated. -/
  | discovery (path : Path) (why : Fault)
  /-- A scratch directory could not be created. -/
  | scratch (path : Path) (why : Fault)
  /-- A program could not be started. -/
  | spawn (program : Path) (why : Fault)
  /-- An expectation file exists but cannot be used. -/
  | invalidExpectation (path : Path) (why : ExpectationFault)
  | report (why : ReportFault)
  deriving DecidableEq, Repr

namespace Error

def message : Error → String
  | .file why             => "IO error: " ++ why.message
  | .config why           => "configuration error: " ++ why.message
  | .discovery path why   =>
    "failed to discover fixtures under " ++ path.display ++ ": " ++ why.message
  | .scratch path why     =>
    "failed to create scratch directory " ++ path.display ++ ": " ++ why.message
  | .spawn program why    => "failed to spawn " ++ program.display ++ ": " ++ why.message
  | .invalidExpectation path why =>
    "invalid expectation in " ++ path.display ++ ": " ++ why.message
  | .report why           => "failed to write report: " ++ why.message

end Error

end Assay
