import Assay.Build.Pipeline
import Assay.Config.Basic

/-!
# Build — the toolchain pipeline

Three programs in a row: the compiler under test writes intermediate code, the code generator an
object file, the linker a program. Each reads what the one before was told to write, and the first
that does not succeed ends the build.
-/

namespace Assay

/-- A tool about to be called. -/
def Tool.invocation (t : Tool) (args : List Bytes) : Invocation :=
  ⟨t.program, t.args.map Text.Utf8.encode ++ args⟩

/-- The tool of a stage. -/
def Toolchain.tool (t : Toolchain) : Stage → Tool
  | .translate => t.compiler
  | .codegen   => t.codegen
  | .link      => t.linker

/-- The arguments of a stage behind those of its tool. -/
def Stage.args (stage : Stage) (pic : Bool) (input output : Path) : List Bytes :=
  let flag (s : String) := Text.Utf8.encode s
  match stage with
  | .codegen =>
    (if pic then [flag "-relocation-model=pic"] else []) ++
      [input.bytes, flag "-filetype=obj", flag "-o", output.bytes]
  | _ => [input.bytes, flag "-o", output.bytes]

/-- The command line of a stage. -/
def Toolchain.invocation (t : Toolchain) (stage : Stage) (input output : Path) : Invocation :=
  (t.tool stage).invocation (stage.args t.pic input output)

/-- The file that a stage writes into the scratch directory. -/
def Stage.outputName : Stage → String
  | .translate => "program.ll"
  | .codegen   => "program.o"
  | .link      => "program"

namespace Build

/-- The reason why a stage's program did not succeed, if it did not. -/
def stageFailure (stage : Stage) : Except Error Finish → Option Reason
  | .ok (.completed o)   =>
    if o.exit.isSuccess then none else some (.build stage (some o.exit) o.combined)
  | .ok (.timedOut limit) => some (.buildTimedOut stage limit)
  | .error why            => some (.build stage none why.message)

/-- Runs one stage. -/
def stage (host : Host) (t : Toolchain) (limit : Duration) (stage : Stage) (input output : Path) :
    Task Machine (Option Reason) :=
  stageFailure stage <$> .act ((t.invocation stage input output).run host limit)

/-- Runs stages in order, each on the output of the one before, until one does not succeed. -/
def stages (host : Host) (t : Toolchain) (limit : Duration) (scratch : Scratch) :
    List Stage → Path → Task Machine (Option Reason)
  | [], _          => pure none
  | s :: ss, input => do
    let output := scratch.file s.outputName
    match ← stage host t limit s input output with
    | some r => pure (some r)
    | none   => stages host t limit scratch ss output

end Build

/-- The pipeline of a toolchain with a time limit for each stage. -/
def Toolchain.pipeline (host : Host) (t : Toolchain) (limit : Duration) : Pipeline where
  name := "toolchain"
  build f scratch := do
    match ← Build.stages host t limit scratch [.translate, .codegen, .link] f.source with
    | some reason =>
      Task.change scratch.drop
      pure (.error reason)
    | none => pure (.ok ⟨scratch, scratch.file Stage.link.outputName⟩)

end Assay
