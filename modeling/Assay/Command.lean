import Assay.Config.Layer
import Assay.Config.Validation
import Assay.Discovery
import Assay.Report.Document
import Assay.Report.Text
import Assay.Run.Basic

/-!
# Command — the command line

One optional argument, the discovery root; without it the root is the working directory. The
configuration is loaded and validated, the fixtures are discovered and run, the report is printed
and, if a path for it is configured, written as a document. The exit code is zero if every fixture
passed and nothing failed, one otherwise.

What is only logged on the way has no place here, the warnings about a configuration among it.
-/

namespace Assay

/-- How the command ended and what it printed. -/
structure Ended where
  code : Nat
  stdout : String := ""
  stderr : String := ""
  deriving DecidableEq, Repr

namespace Command

/-- The help on how to call the program. -/
def usage (program : String) : String :=
  Text.unlines [
    "Usage: " ++ program ++ " [validation-root]",
    "",
    "Builds and runs every fixture below the validation root (default: current directory).",
    "",
    "Environment variables:",
    "  HARNESS_COMPILER=<path>  Compiler under test (default: <root>/../bin/cc)",
    "  HARNESS_JOBS=<n>         Fixtures run in parallel (default: available cores)",
    "  HARNESS_REPORT=<path>    Also write a JSON report"]

/-- All that the command is called with besides its arguments. -/
structure Call where
  host : Host
  env : Env
  cores : Cores
  /-- The name by which the program was called. -/
  program : String
  /-- An id for each scratch directory, by the number of its fixture. -/
  ids : Nat → String
  /-- The order of events of the run, as far as it is laid down. -/
  schedule : List Pool.Event := []

/-- The code of a program that broke off. -/
def brokenOff : Nat := 101

/-- The configuration of a run that may go ahead and the suites it has, or why it may not. -/
def prepare (c : Call) (root : Path) (fs : FileSystem) : Except Error (Config × List Suite) := do
  let config ← Config.load fs c.env c.cores root
  let _ ← (config.validate fs).result
  let suites ← discover fs config.root
  pure (config, suites)

/-- Prints the report and writes the document, if one is wanted. -/
def publish (path : Option Path) (r : RunReport) (m : Machine) : Ended × Machine :=
  match path with
  | none   => (⟨r.exitCode, r.render, ""⟩, m)
  | some p =>
    match r.writeDocument p m.files with
    | .ok fs     => (⟨r.exitCode, r.render, ""⟩, { m with files := fs })
    | .error why => (⟨1, r.render, "Validation run failed: " ++ why.message ++ "\n"⟩, m)

/-- The run at a root. -/
def runAt (c : Call) (root : Path) (m : Machine) : Ended × Machine :=
  match prepare c root m.files with
  | .error why => (⟨1, "", "Validation run failed: " ++ why.message ++ "\n"⟩, m)
  | .ok (config, suites) =>
    match (Harness.ofConfig c.host config).run c.ids c.schedule suites m with
    | none        => (⟨brokenOff, "", ""⟩, m)
    | some (r, m) => publish config.reportPath r m

/-- What is said if the working directory has no path. -/
def noDirectory (why : Fault) : String :=
  "Failed to determine current directory: " ++ why.message ++ "\n"

/-- The root that arguments name: the first, or else the working directory, by its straight path. -/
def rootOf (fs : FileSystem) : List String → Except Fault Path
  | a :: _ => .ok (.ofString a)
  | []     => fs.currentDir

/-- The command with arguments that are text. More than one, or one that starts with a hyphen, asks
for help. -/
def runTexts (c : Call) (args : List String) (m : Machine) : Ended × Machine :=
  if 1 < args.length || args.any fun a => a.toList.head? == some '-' then
    (⟨1, "", usage c.program⟩, m)
  else
    match rootOf m.files args with
    | .error why => (⟨1, "", noDirectory why⟩, m)
    | .ok root   => runAt c root m

/-- The whole command. It breaks off if an argument is no text. -/
def run (c : Call) (args : List Bytes) (m : Machine) : Ended × Machine :=
  match args.mapM Text.Utf8.decode? with
  | none      => (⟨brokenOff, "", ""⟩, m)
  | some args => runTexts c args m

end Command

end Assay
