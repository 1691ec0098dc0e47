import Assay.Outcome
import Assay.Process.Course

/-!
# Script — programs whose behaviour is laid down

A scripted program says beforehand what it prints and how it ends. The source of a scripted fixture
lays down how each build tool behaves on it and how the program built from it behaves.

* `Script.perform`: what a script does up to its end.
-/

namespace Assay

/-- One program from its start to its end, and for a tool what becomes of its output. -/
structure Script where
  /-- Whether what it is given to read is printed first. -/
  readsInput : Bool := false
  /-- Whether each argument is printed on a line of its own then. -/
  echoArgs : Bool := false
  stdout : Bytes := []
  stderr : Bytes := []
  /-- How it ends; none if it never does. -/
  ending : Option Exit := some (.code 0)
  /-- Whether a tool writes its output. -/
  writes : Bool := true
  /-- Whether the output may be started. -/
  startable : Bool := true
  deriving DecidableEq, Repr

namespace Script

/-- The arguments, each on a line. -/
def argLines (args : List Bytes) : Bytes := args.flatMap (· ++ [0x0A])

/-- Prints what there is to print. -/
def print (fd : Nat) (data : Bytes) : Code Unit :=
  if data.isEmpty then pure () else Code.print fd data

/-- Does what the script says up to its end; only a script that ends well goes on. -/
def perform (s : Script) (args : List Bytes) : Code Unit := do
  if s.readsInput then
    let _ ← Code.copy 0 1 Code.copyLimit
  print 1 ((if s.echoArgs then argLines args else []) ++ s.stdout)
  print 2 s.stderr
  match s.ending with
  | none             => Code.stuck
  | some (.code 0)   => pure ()
  | some (.signal n) => Code.change fun id sys => sys.send id n.toNat
  | some e           => Code.exit e

/-- What the script does as a program. -/
def course (s : Script) (args : List Bytes) : Course := (s.perform args).course

end Script

/-- The scripts that the source of a fixture lays down. -/
structure SourceScript where
  translate : Script := {}
  codegen : Script := {}
  link : Script := {}
  run : Script := {}
  deriving DecidableEq, Repr

def SourceScript.ofStage (s : SourceScript) : Stage → Script
  | .translate => s.translate
  | .codegen   => s.codegen
  | .link      => s.link

end Assay
