import Assay.Config.Basic
import Assay.Error
import Assay.FileSystem.Operations
import Assay.Text.Blank
import Assay.Toml.Document

/-!
# Config — where settings come from

A configuration is built in layers: the defaults, then what a settings file says, then three
variables of the environment. Each layer sets some fields and leaves the others.

* `Layer.ofToml`: the fields that a settings file sets.
* `Config.ofLayer`: the defaults with a layer over them.
* `Config.withEnv`: a configuration with the environment's layer over it.
* `Config.load`: all three for a root.
-/

namespace Assay

/-- The fields that a settings file may set. -/
structure Layer where
  compiler : Option Tool := none
  codegen : Option Tool := none
  linker : Option Tool := none
  pic : Option Bool := none
  stageSecs : Option Nat := none
  runSecs : Option Nat := none
  jobs : Option Nat := none
  scratchDir : Option Path := none
  reportPath : Option Path := none
  deriving DecidableEq, Repr

namespace Layer

open Toml (Value Table)

/-! ### Reading fields -/

def text (key : String) : Value → Except Toml.Fault String
  | .text s => .ok s
  | _       => .error (.wrongType key "a string")

def path (key : String) (v : Value) : Except Toml.Fault Path := Path.ofString <$> text key v

def natural (key : String) : Value → Except Toml.Fault Nat
  | .integer (.ofNat n) => .ok n
  | _                   => .error (.wrongType key "an integer of at least zero")

def boolean (key : String) : Value → Except Toml.Fault Bool
  | .boolean b => .ok b
  | _          => .error (.wrongType key "a boolean")

def texts (key : String) : Value → Except Toml.Fault (List String)
  | .array items => items.mapM (text key)
  | _            => .error (.wrongType key "an array of strings")

/-- Reads a value that may be missing. -/
def optional {α : Type} (read : Value → Except Toml.Fault α) :
    Option Value → Except Toml.Fault (Option α)
  | none   => .ok none
  | some v => some <$> read v

/-- A program alone, or a table with the program and its arguments. -/
def tool (key : String) : Value → Except Toml.Fault Tool
  | .text s    => .ok (.bare (.ofString s))
  | .table _ t => do
    match t.lookup "program" with
    | none => throw (.missing "program")
    | some v =>
      let args ← optional (texts "args") (t.lookup "args")
      pure ⟨← path "program" v, args.getD []⟩
  | _          => .error (.wrongType key "a string or a table")

/-- The fields of a group in a fixed order: from a table by their keys, from an array by position.
A date has none of them. -/
def group (key : String) (names : List String) :
    Option Value → Except Toml.Fault (List (Option Value))
  | none                 => .ok (names.map fun _ => none)
  | some (.table _ t)    => .ok (names.map fun n => t.lookup n)
  | some (.array items)  => .ok (names.zipIdx.map fun n => items[n.2]?)
  | some (.tables items) => .ok (names.zipIdx.map fun n => items[n.2]?.map (.table .header))
  | some (.date _)       => .ok (names.map fun _ => none)
  | some _               => .error (.wrongType key "a table")

/-- The fields that a settings file sets; keys it has beyond them count for nothing. -/
def ofToml (t : Table) : Except Toml.Fault Layer := do
  let tools ← group "toolchain" ["compiler", "codegen", "linker", "pic"] (t.lookup "toolchain")
  let limits ← group "timeouts" ["stage_secs", "run_secs"] (t.lookup "timeouts")
  pure {
    compiler := ← optional (tool "compiler") (tools[0]?.join)
    codegen := ← optional (tool "codegen") (tools[1]?.join)
    linker := ← optional (tool "linker") (tools[2]?.join)
    pic := ← optional (boolean "pic") (tools[3]?.join)
    stageSecs := ← optional (natural "stage_secs") (limits[0]?.join)
    runSecs := ← optional (natural "run_secs") (limits[1]?.join)
    jobs := ← optional (natural "jobs") (t.lookup "jobs")
    scratchDir := ← optional (path "scratch_dir") (t.lookup "scratch_dir")
    reportPath := ← optional (path "report_path") (t.lookup "report_path") }

/-- The fields that the text of a settings file sets. -/
def parse (s : String) : Except Error Layer :=
  match Toml.parse s >>= ofToml with
  | .ok l      => .ok l
  | .error why => .error (.config (.unreadable why))

end Layer

/-- The environment: the value of a variable, if it is set to a text. -/
abbrev Env := String → Option String

namespace Config

/-- The defaults with a layer over them, seen from the root. -/
def ofLayer (cores : Cores) (root : Path) (l : Layer) : Config :=
  anchored {
    root := root
    toolchain := {
      compiler := l.compiler.getD ({} : Toolchain).compiler
      codegen := l.codegen.getD ({} : Toolchain).codegen
      linker := l.linker.getD ({} : Toolchain).linker
      pic := l.pic.getD ({} : Toolchain).pic }
    limits := {
      stageSecs := l.stageSecs.getD ({} : TimeLimits).stageSecs
      runSecs := l.runSecs.getD ({} : TimeLimits).runSecs }
    jobs := l.jobs.getD cores.jobs
    scratchDir := l.scratchDir
    reportPath := l.reportPath }

/-- A layer that sets nothing leaves the defaults. -/
theorem ofLayer_empty (cores : Cores) (root : Path) : ofLayer cores root {} = default cores root :=
  rfl

/-- The configuration that the text of a settings file describes at a root. -/
def parse (cores : Cores) (root : Path) (s : String) : Except Error Config :=
  ofLayer cores root <$> Layer.parse s

/-- The number of jobs that a variable asks for. -/
def jobsOf (s : String) : Except Error Nat :=
  match Numeral.parse .nat64 (Text.trimBlank s.toList) with
  | .ok n      => .ok n.toNat
  | .error why => .error (.config (.jobs why))

/-- A configuration with the environment over it: the compiler as a bare program, the number of
jobs, and the path of the report. -/
def withEnv (c : Config) (env : Env) : Except Error Config := do
  let compiler :=
    match env "HARNESS_COMPILER" with
    | some p => Tool.anchoredAt c.root (.bare (.ofString p))
    | none   => c.toolchain.compiler
  let jobs ←
    match env "HARNESS_JOBS" with
    | some s => jobsOf s
    | none   => pure c.jobs
  let report := (env "HARNESS_REPORT").map Path.ofString
  pure { c with
    toolchain := { c.toolchain with compiler := compiler }
    jobs := jobs
    reportPath := report.or c.reportPath }

/-- The name of the settings file in a root. -/
def fileName : String := "harness.toml"

/-- The configuration of a root: defaults, then the settings file if there is one, then the
environment. -/
def load (fs : FileSystem) (env : Env) (cores : Cores) (root : Path) : Except Error Config := do
  let file := root.child fileName
  let c ←
    if fs.isFile file then
      match fs.read file with
      | .error why => throw (.file why)
      | .ok bytes =>
        match Text.Utf8.decode? bytes with
        | none   => throw (.file .notText)
        | some s => parse cores root s
    else pure (default cores root)
  c.withEnv env

end Config

end Assay
