import Assay.Duration
import Assay.Path

/-!
# Config — what a run is told

The settings of a run, their defaults, and the anchoring of the paths among them: a relative path
that names more than a bare program is seen from the discovery root.
-/

namespace Assay

/-- An external program with the arguments that go before a stage's own. -/
structure Tool where
  program : Path
  args : List String
  deriving DecidableEq, Repr

namespace Tool

/-- A program without arguments. -/
def bare (program : Path) : Tool := ⟨program, []⟩

end Tool

namespace Path

/-- Whether a path names more than a single component, and so is no bare program name. -/
def hasDirectory (p : Path) : Bool := 1 < p.components.length

/-- A program seen from `root`: bare names stay, to be looked up where programs are. -/
def anchoredAt (root p : Path) : Path :=
  if p.isRelative && p.hasDirectory then root.join p else p

end Path

def Tool.anchoredAt (root : Path) (t : Tool) : Tool := ⟨root.anchoredAt t.program, t.args⟩

/-- The programs of the three build stages. -/
structure Toolchain where
  compiler : Tool := .bare (.ofString "../bin/cc")
  codegen : Tool := .bare (.ofString "llc")
  linker : Tool := .bare (.ofString "clang")
  /-- Whether code is generated independent of its position. -/
  pic : Bool := true
  deriving DecidableEq, Repr

def Toolchain.anchoredAt (root : Path) (t : Toolchain) : Toolchain :=
  { t with
    compiler := t.compiler.anchoredAt root
    codegen := t.codegen.anchoredAt root
    linker := t.linker.anchoredAt root }

/-- Limits in whole seconds. -/
structure TimeLimits where
  stageSecs : Nat := 60
  runSecs : Nat := 10
  deriving DecidableEq, Repr

namespace TimeLimits

def stage (t : TimeLimits) : Duration := .ofSecs t.stageSecs

def run (t : TimeLimits) : Duration := .ofSecs t.runSecs

end TimeLimits

/-- The number of cores that are available, if the system tells; it is never zero. -/
abbrev Cores := Option {n : Nat // 0 < n}

/-- The number of jobs that nothing else decides: one for each core, and one alone if nothing is
known of them. -/
def Cores.jobs (cores : Cores) : Nat := cores.elim 1 (·.1)

/-- By default there is a job at least. -/
theorem Cores.jobs_ne_zero (cores : Cores) : cores.jobs ≠ 0 := by
  cases cores with
  | none => exact Nat.one_ne_zero
  | some n => exact Nat.ne_of_gt n.2

structure Config where
  /-- The directory whose fixtures are run. -/
  root : Path
  toolchain : Toolchain := {}
  limits : TimeLimits := {}
  /-- Fixtures that may be under way at once. -/
  jobs : Nat
  scratchDir : Option Path := none
  reportPath : Option Path := none
  deriving DecidableEq, Repr

namespace Config

/-- Sees the paths of a configuration from its root, the report's apart. -/
def anchored (c : Config) : Config :=
  { c with
    toolchain := c.toolchain.anchoredAt c.root
    scratchDir := c.scratchDir.map c.root.join }

/-- The defaults at a root. -/
def default (cores : Cores) (root : Path) : Config := anchored { root, jobs := cores.jobs }

/-- Where scratch directories go. -/
def scratchBase (c : Config) (tempDir : Path) : Path := c.scratchDir.getD tempDir

end Config

end Assay
