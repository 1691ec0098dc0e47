import Assay.Error
import Assay.FileSystem.Operations
import Assay.Text.Blank

/-!
# Fixture — one test case and a group of them

A fixture is a directory with a source file and, if wanted, two files that say what is expected of
the program built from it. A suite is a named group of fixtures in the order of their identifiers.
-/

namespace Assay

structure Fixture where
  directory : Path
  deriving DecidableEq, Repr

namespace Fixture

/-- The name of the directory, as text. -/
def identifier (f : Fixture) : String := f.directory.displayName

/-- The file that the program is built from. -/
def source (f : Fixture) : Path := f.directory.child "main.c"

/-- The file with the expected exit code. -/
def exitFile (f : Fixture) : Path := f.directory.child "exit.expected"

/-- The file with the expected standard output. -/
def stdoutFile (f : Fixture) : Path := f.directory.child "stdout.expected"

/-! ### Expectations -/

/-- The bytes of an expectation file, none if there is no such file. One that is there and cannot be
read is invalid. -/
def readOptional (fs : FileSystem) (p : Path) : Except Error (Option Bytes) :=
  match fs.read p with
  | .ok bytes              => .ok (some bytes)
  | .error (.os .notFound) => .ok none
  | .error why             => .error (.invalidExpectation p (.unreadable why))

/-- The exit code that a text asks for, blanks around it apart. -/
def parseExit (p : Path) (bytes : Bytes) : Except Error Int :=
  let text := Text.trimBlank (Text.Utf8.decodeLossy bytes).toList
  match Numeral.parse .int32 text with
  | .ok n      => .ok n
  | .error why => .error (.invalidExpectation p (.notInteger (String.ofList text) why))

/-- The expected exit code, zero if none is stated. -/
def expectedExit (f : Fixture) (fs : FileSystem) : Except Error Int := do
  match ← readOptional fs f.exitFile with
  | none       => pure 0
  | some bytes => parseExit f.exitFile bytes

/-- The expected standard output, empty if none is stated. -/
def expectedStdout (f : Fixture) (fs : FileSystem) : Except Error Bytes :=
  (·.getD []) <$> readOptional fs f.stdoutFile

end Fixture

structure Suite where
  name : String
  fixtures : List Fixture
  deriving DecidableEq, Repr

namespace Suite

/-- A suite of fixtures, put in the order of their identifiers; those with the same one stay in the
order in which they come. -/
def ofFixtures (name : String) (fixtures : List Fixture) : Suite where
  name := name
  fixtures := fixtures.mergeSort fun a b => decide (a.identifier ≤ b.identifier)

/-- Number of fixtures. -/
def size (s : Suite) : Nat := s.fixtures.length

def isEmpty (s : Suite) : Bool := s.fixtures.isEmpty

end Suite

end Assay
