import Assay.Machine.Host
import Assay.Process.World
import Assay.Script.Basic
import Assay.Shell.Start
import Assay.Utility.Program

/-!
# Script — what files stand for when they are started

A file is known by its content: it is a scripted program, the source of a scripted fixture or what was
built from it, a scripted tool, a shell or a utility. A scripted tool acts out what its input lays
down and, if that goes well, writes a copy of it.

* `Program.course`: what a program does.
* `Program.act`: the same, from its start on some files to the end of its time.
-/

namespace Assay

/-- What the content of a file stands for. -/
inductive Program where
  /-- A program of its own. -/
  | script (s : Script)
  /-- The source of a fixture, and all that is built from it. -/
  | source (s : SourceScript)
  | tool (stage : Stage)
  deriving DecidableEq, Repr

namespace ScriptedTool

/-- What a tool says that does not find its input. -/
def missingInput : Bytes := Text.Utf8.encode "fake-tool: missing input\n"

/-- The name under which a tool tells a shell its stage. -/
def stageName : Bytes := Text.Utf8.encode "VH_STAGE"

/-- Starts a program and waits for its end. -/
def call (i : Image) : Code Exit := do
  let pid ← (fun k => .fork (.become i) k : Code Nat)
  Code.await fun id s => (s.reap id (· == pid)).map fun r => (r.1.2, r.2)

/-- Has a shell read an input that is not scripted; whatever goes wrong with it is the end of the tool
too. -/
def readByShell (stage : Stage) (i : Image) (input : Path) : Code Unit := do
  let environment := (stageName, Text.Utf8.encode stage.name) :: i.environment
  let shell ← Code.look fun id s =>
    (s.filesOf id).image (.ofString Shell.Lookup.standardShell)
      (Text.Utf8.encode Shell.Lookup.standardShell) [input.bytes] environment
  match shell with
  | .error _ => Code.exit (.code 127)
  | .ok sh   =>
    match ← call sh with
    | .code 0 => pure ()
    | e       => Code.exit e

/-- Writes a copy of the input. -/
def writeOutput (input output : Path) (s : Script) : Code Unit :=
  if !s.writes then pure ()
  else
    Code.change fun id sys =>
      let fs := sys.filesOf id
      match fs.openFile input with
      | .error _ => sys
      | .ok f    =>
        match fs.write output ⟨f.content, s.startable⟩ with
        | .error _ => sys
        | .ok fs   => { sys with files := { fs with cwd := sys.files.cwd } }

/-- What the tool of a stage does. -/
def perform (scriptOf : File → Option SourceScript) (stage : Stage) (i : Image) : Code Unit := do
  let o := Invocation.operands i.args
  let file ← Code.look fun id s =>
    let fs := s.filesOf id
    o.input.bind fun p => if fs.isFile p then (fs.openFile p).toOption else none
  match o.input, file with
  | some input, some f => do
    let script ←
      match scriptOf f with
      | some s => do
        (s.ofStage stage).perform i.args
        pure (s.ofStage stage)
      | none   => do
        readByShell stage i input
        pure {}
    match o.output with
    | some output => writeOutput input output script
    | none        => pure ()
  | _, _ => do
    Code.print 2 missingInput
    Code.exit (.code 66)

end ScriptedTool

namespace Program

/-- The scripts of a source. -/
def scriptOf (programs : List (Bytes × Program)) (f : File) : Option SourceScript :=
  match programs.lookup f.content with
  | some (.source s) => some s
  | _                => none

/-- The content of the file of a shell. -/
def shellContent : Bytes := Image.native "shell\n"

/-- What a program does: a script what it says, a shell and a utility their jobs. -/
def course (programs : List (Bytes × Program)) (i : Image) : Course :=
  match programs.lookup i.file.content with
  | some (.script s)   => s.course i.args
  | some (.source s)   => s.run.course i.args
  | some (.tool stage) => (ScriptedTool.perform (scriptOf programs) stage i).course
  | none               =>
    if i.file.content = shellContent then Shell.course i
    else
      match Utility.program? i.file with
      | some p =>
        Utility.course p (Text.Octets.ofBytes i.name) (i.args.map Text.Octets.ofBytes)
      | none   => .ended (.code 0)

end Program

/-- What a program does in some time on a machine with given programs besides the utilities. -/
def Program.act (programs : List (Bytes × Program)) (fs : FileSystem) (i : Image)
    (limit : Duration) : Act :=
  let (s, exit) := World.run (course programs) fs i limit.totalNanos
  ⟨s.outBytes, s.errBytes, .ok exit, { s.files with cwd := fs.cwd }, s.started.reverse⟩

end Assay
