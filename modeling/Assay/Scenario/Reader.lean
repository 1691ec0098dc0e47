import Assay.Config.Layer
import Assay.Report.Reader
import Assay.Scenario.Basic
import Assay.Script.Plan

/-!
# Scenario — reading one from a document

Byte strings are written as text, as an object with hexadecimal digits under `hex`, or as one under
`repeat` with a number of `times`. What is missing has its default.
-/

namespace Assay

namespace Json

/-- The bytes of a string of hexadecimal digits; a digit left over counts for nothing. -/
def hexBytes : List Char → Bytes
  | a :: b :: r =>
    UInt8.ofNat ((hexDigit? a).getD 0 * 16 + (hexDigit? b).getD 0) :: hexBytes r
  | _ => []

mutual

/-- A byte string. -/
def bytes : Json → Bytes
  | .str s   => Text.Utf8.encode s
  | .obj fs  =>
    match fs.lookup "hex" with
    | some (.str h) => hexBytes h.toList
    | _ => (List.replicate (((Json.obj fs).natAt "times").getD 0) (repeatedUnit fs)).flatten
  | _        => []

/-- The byte string that an object repeats. -/
def repeatedUnit : List (String × Json) → Bytes
  | []          => []
  | (k, j) :: r => if k = "repeat" then bytes j else repeatedUnit r

end

/-- A byte string as text. -/
def text (j : Json) : String := Text.Utf8.decodeLossy j.bytes

def path (j : Json) : Path := ⟨j.bytes⟩

/-- What stands under a key, null if nothing does. -/
def field (j : Json) (key : String) : Json := (j.get? key).getD .null

/-- The value under a key unless it is missing or null. -/
def given (j : Json) (key : String) : Option Json :=
  match j.get? key with
  | some .null => none
  | v          => v

def items (j : Json) : List Json := j.arr?.getD []

def list (j : Json) (key : String) : List Json := (j.field key).items

/-- Whether `true` stands under a key. -/
def flag (j : Json) (key : String) : Bool := (j.field key).bool? == some true

def number (j : Json) (key : String) (otherwise : Nat) : Nat := (j.natAt key).getD otherwise

/-- The keys and values of an object. -/
def pairs : Json → List (String × Json)
  | .obj fs => fs
  | _       => []

end Json

/-- A span of time; what is missing of it is zero. -/
def Duration.ofDescription (j : Json) : Duration :=
  let nanos := j.number "nanos" 0
  if h : nanos < 1000000000 then ⟨j.number "secs" 0, nanos, h⟩ else .ofSecs (j.number "secs" 0)

/-- How a program ended, if that is told. -/
def Exit.ofDescription? (j : Json) (key : String) : Option Exit :=
  (j.given key).bind Exit.ofJson?

namespace Script

/-- How a described program ends: never, by a signal or with a code. -/
def endingOf (j : Json) : Option Exit :=
  if j.flag "hang" then none
  else
    match j.intAt "signal", j.intAt "exit" with
    | some n, _    => some (.signal n)
    | none, some n => some (.code (n % 256))
    | none, none   => some (.code 0)

def ofJson (j : Json) : Script where
  readsInput := j.flag "read_stdin"
  echoArgs := j.flag "echo_args"
  stdout := (j.field "stdout").bytes
  stderr := (j.field "stderr").bytes
  ending := endingOf j
  writes := j.strAt "out" != some "none"
  startable := j.strAt "out" != some "noexec"

end Script

def SourceScript.ofJson (j : Json) : SourceScript :=
  ⟨.ofJson (j.field "translate"), .ofJson (j.field "codegen"), .ofJson (j.field "link"),
    .ofJson (j.field "run")⟩

def Tool.ofJson (j : Json) : Tool :=
  match j.given "program" with
  | some p => ⟨p.path, (j.list "args").map Json.text⟩
  | none   => .bare j.path

def Toolchain.ofJson (j : Json) : Toolchain :=
  let base : Toolchain := {}
  { compiler := (j.given "compiler").elim base.compiler .ofJson
    codegen := (j.given "codegen").elim base.codegen .ofJson
    linker := (j.given "linker").elim base.linker .ofJson
    pic := ((j.field "pic").bool?).getD base.pic }

def TimeLimits.ofJson (j : Json) : TimeLimits :=
  let base : TimeLimits := {}
  ⟨j.number "stage_secs" base.stageSecs, j.number "run_secs" base.runSecs⟩

/-- An environment; values that are no text count as unset. -/
def Env.ofJson (j : Json) : Env := fun key =>
  (j.given key).bind fun v => Text.Utf8.decode? v.bytes

/-- A reason. Its texts may be described as byte strings; one that is missing is empty. -/
def Reason.ofDescription (j : Json) : Reason :=
  let text (key : String) := (j.field key).text
  let stage := ((j.strAt "stage").bind Stage.ofName?).getD .translate
  let after := Duration.ofDescription (j.field "after")
  match (j.strAt "kind").getD "" with
  | "invalid_expectation" => .invalidExpectation (text "message")
  | "build"               => .build stage (Exit.ofDescription? j "exit") (text "output")
  | "build_timed_out"     => .buildTimedOut stage after
  | "launch"              => .launch (text "message")
  | "exit_code_mismatch"  =>
    .exitMismatch ((j.intAt "expected").getD 0) ((Exit.ofDescription? j "actual").getD .unknown)
  | "stdout_mismatch"     => .stdoutMismatch (text "expected") (text "actual")
  | "timed_out"           => .timedOut after
  | "aborted"             => .aborted (text "message")
  | "cleanup"             => .cleanup (text "message")
  | _                     => .setup (text "message")

/-- An outcome; it is a failure only if it says so. -/
def Outcome.ofDescription (j : Json) : Outcome :=
  if j.strAt "status" = some "failed" then .failed ((j.list "reasons").map Reason.ofDescription)
  else .passed

/-- The file of a described program. -/
def programFile (content : Bytes) (j : Json) : File := ⟨content, !j.flag "noexec"⟩

/-- A plan whose program, if it has one, has a given content. -/
def Plan.ofJson (content : Bytes) (j : Json) : Plan where
  wait := j.natAt "delay_ms"
  dies := j.flag "panic"
  failure := (j.given "fail").map Reason.ofDescription
  program := (j.given "proc").map (programFile content)
  undeletable := j.flag "undeletable"

namespace Scenario

def plantedOf (j : Json) : Planted :=
  match j.strAt "type" with
  | some "dir"     => .dir
  | some "symlink" => .link (j.field "target").path
  | _              => .file (j.field "data").bytes

/-- The tree of a description, below the work directory. -/
def treeOf (workDir : Path) (j : Json) : List (Path × Planted) :=
  (j.list "tree").map fun e => (workDir.join (e.field "path").path, plantedOf e)

def fixtureOf (j : Json) : ScriptedFixture where
  path := (j.field "path").path
  source := (j.given "main").map .ofJson
  exitExpected := (j.given "exit_expected").map Json.bytes
  stdoutExpected := (j.given "stdout_expected").map Json.bytes

/-- The tools that a scenario has by itself. -/
def standardTools : List (String × Stage) :=
  [("cc", .translate), ("llc", .codegen), ("clang", .link)]

def toolsOf (workDir : Path) (j : Json) : List (Path × Stage) :=
  let missing := (j.list "no_tools").map Json.text
  let bin := workDir.child "bin"
  ((standardTools.filter fun t => !missing.contains t.1).map fun t => (bin.child t.1, t.2)) ++
    (j.list "tools").map fun t =>
      (workDir.join (t.field "path").path, ((t.strAt "stage").bind Stage.ofName?).getD .translate)

/-- The names and values of a description, together with those that programs are given in any case. -/
def environmentOf (workDir : Path) (env : Json) : List (Bytes × Bytes) :=
  let name (s : String) : Bytes := Text.Utf8.encode s
  let given := env.pairs.map fun (key, v) => (name key, v)
  let standard := (standardEnvironment workDir).filter fun e => !given.any (·.1 == e.1)
  standard ++ given.filterMap fun (key, v) =>
    match v with
    | .null => none
    | v     => some (key, v.bytes)

/-- A work directory with a tree and nothing else. -/
def ofTree (workDir : Path) (j : Json) : Scenario where
  workDir := workDir
  environment := standardEnvironment workDir
  tree := treeOf workDir j

/-- A whole scenario with tools, settings and fixtures. -/
def ofJson (workDir : Path) (j : Json) : Scenario where
  workDir := workDir
  environment := environmentOf workDir (j.field "env")
  tools := toolsOf workDir j
  tree := treeOf workDir j
  settings := (j.given "toml").map Json.bytes
  fixtures := (j.list "fixtures").map fixtureOf

end Scenario

end Assay
