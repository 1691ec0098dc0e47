import Assay.Command
import Assay.Scenario.Reader

/-!
# Main — the command on a described machine

The machine is read from standard input as a document: what stands below the work directory, the
scripted tools and fixtures, the environment and the current directory. The command runs on it with
the arguments of the program.
-/

namespace Assay

/-- The work directory of a description. -/
def workDirOf (j : Json) : Path := ((j.given "work_dir").map Json.path).getD (.ofString "/work")

/-- The number of cores of a description, if it names one. -/
def coresOf (j : Json) : Cores :=
  (j.natAt "cores").bind fun n => if h : 0 < n then some ⟨n, h⟩ else none

/-- The call that a description makes; ids count on from a number. -/
def callOf (j : Json) (firstId : Nat) : Command.Call :=
  { host := (Scenario.ofJson (workDirOf j) j).host
    env := Env.ofJson (j.field "env")
    cores := coresOf j
    program := "assay"
    ids := fun n => Scratch.idOf (firstId + n) }

/-- The machine of a description, in the directory that it names as the current one. -/
def machineOf (j : Json) : Machine :=
  let m := (Scenario.ofJson (workDirOf j) j).machine
  match j.given "cwd" with
  | some d => { m with files := m.files.within d.path }
  | none   => m

/-- The command with some arguments on a described machine. -/
def runDescribed (j : Json) (firstId : Nat) (args : List String) : Ended :=
  (Command.run (callOf j firstId) (args.map Text.Utf8.encode) (machineOf j)).1

/-- All that is left of a stream. -/
partial def readAll (s : IO.FS.Stream) (acc : String) : IO String := do
  let line ← s.getLine
  if line.isEmpty then pure acc else readAll s (acc ++ line)

end Assay

def main (args : List String) : IO UInt32 := do
  let text ← Assay.readAll (← IO.getStdin) ""
  match Assay.Json.parse text with
  | none =>
    IO.eprintln "no description of a machine on standard input"
    pure 1
  | some j =>
    let e := Assay.runDescribed j (← IO.rand 0 0xFFFFFFFFFFFF) args
    IO.print e.stdout
    IO.eprint e.stderr
    pure e.code.toUInt32
