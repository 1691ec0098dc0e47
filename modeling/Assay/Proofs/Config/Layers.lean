import Assay.Build.Toolchain
import Assay.Config.Layer

/-!
# Config — what a loaded configuration is made of

The settings file of a root describes a layer, an empty one if there is no file. A configuration
that has been loaded is this layer over the defaults, seen from the root, with the environment over
that (`load_eq_ok`, `withEnv_eq_ok`). So its fields can be read off the layer (`fields_of_load`).
-/

namespace Assay.Config

variable {fs : FileSystem} {env : Env} {cores : Cores} {root : Path} {c c' : Config}

/-! ### The layers -/

/-- Whether a layer is what the settings file of a root says; without a file it sets nothing. -/
def IsLayerOf (fs : FileSystem) (root : Path) (l : Layer) : Prop :=
  (fs.isFile (root.child fileName) = false ∧ l = {}) ∨
    (fs.isFile (root.child fileName) = true ∧
      ∃ bytes s, fs.read (root.child fileName) = .ok bytes ∧
        Text.Utf8.decode? bytes = some s ∧ Layer.parse s = .ok l)

/-- A configuration is loaded when the settings file, if there is one, can be read as a layer and
the environment goes over it. -/
theorem load_eq_ok :
    load fs env cores root = .ok c ↔
      ∃ l, IsLayerOf fs root l ∧ (ofLayer cores root l).withEnv env = .ok c := by
  cases hfile : fs.isFile (root.child fileName) with
  | false =>
    have hload : load fs env cores root = (ofLayer cores root {}).withEnv env := by
      rw [load, hfile, ofLayer_empty]
      rfl
    rw [hload]
    constructor
    · exact fun h => ⟨{}, .inl ⟨hfile, rfl⟩, h⟩
    · rintro ⟨l, ⟨-, rfl⟩ | ⟨htrue, -⟩, h⟩
      · exact h
      · cases hfile.symm.trans htrue
  | true =>
    constructor
    · intro h
      rw [load, hfile] at h
      cases hread : fs.read (root.child fileName) with
      | error why => rw [hread] at h; cases h
      | ok bytes =>
        cases htext : Text.Utf8.decode? bytes with
        | none => simp only [hread, htext] at h; cases h
        | some s =>
          cases hparse : Layer.parse s with
          | error why => simp only [hread, htext, parse, hparse] at h; cases h
          | ok l =>
            simp only [hread, htext, parse, hparse] at h
            exact ⟨l, .inr ⟨hfile, bytes, s, hread, htext, hparse⟩, h⟩
    · rintro ⟨l, ⟨hfalse, -⟩ | ⟨-, bytes, s, hread, htext, hparse⟩, h⟩
      · cases hfile.symm.trans hfalse
      · rw [load, hfile]
        simp only [hread, htext, parse, hparse]
        exact h

/-! ### The environment -/

/-- The compiler that the environment names, if it names one, instead of another. -/
def compilerUnder (env : Env) (root : Path) (t : Tool) : Tool :=
  ((env "HARNESS_COMPILER").map fun p => Tool.anchoredAt root (.bare (.ofString p))).getD t

/-- The number of jobs that the environment asks for, if it asks for one, instead of another. -/
def jobsUnder (env : Env) (jobs : Nat) : Except Error Nat :=
  ((env "HARNESS_JOBS").map jobsOf).getD (.ok jobs)

/-- A configuration under an environment, with the number of jobs that this comes to. -/
def underEnv (c : Config) (env : Env) (jobs : Nat) : Config :=
  { c with
    toolchain := { c.toolchain with compiler := compilerUnder env c.root c.toolchain.compiler }
    jobs := jobs
    reportPath := ((env "HARNESS_REPORT").map Path.ofString).or c.reportPath }

/-- Nothing but the number of jobs can fail. -/
theorem withEnv_eq (c : Config) (env : Env) :
    c.withEnv env = c.underEnv env <$> jobsUnder env c.jobs := by
  unfold withEnv underEnv compilerUnder jobsUnder
  cases env "HARNESS_COMPILER" with
  | none | some p =>
    cases env "HARNESS_JOBS" with
    | none => rfl
    | some s => exact (map_eq_pure_bind _ (jobsOf s)).symm

theorem withEnv_eq_ok :
    c.withEnv env = .ok c' ↔ ∃ jobs, jobsUnder env c.jobs = .ok jobs ∧ c' = c.underEnv env jobs := by
  rw [withEnv_eq]
  cases jobsUnder env c.jobs with
  | error why => exact iff_of_false nofun nofun
  | ok jobs =>
    constructor
    · intro h
      exact ⟨jobs, rfl, (Except.ok.inj h).symm⟩
    · rintro ⟨jobs', hjobs, rfl⟩
      rw [Except.ok.inj hjobs]
      rfl

/-! ### The fields -/

/-- The arguments that the tool of a stage is configured with: those that the layer has with it.
A tool that the layer does not set has none, and neither has a compiler from the environment. -/
def configuredArgs (env : Env) (l : Layer) (stage : Stage) : List String :=
  match stage with
  | .translate => if (env "HARNESS_COMPILER").isSome then [] else (l.compiler.map (·.args)).getD []
  | .codegen   => (l.codegen.map (·.args)).getD []
  | .link      => (l.linker.map (·.args)).getD []

/-- What becomes of a layer when it is loaded at a root. -/
theorem fields_of_load (h : load fs env cores root = .ok c) :
    ∃ l, IsLayerOf fs root l ∧ c.root = root ∧ c.scratchDir = l.scratchDir.map root.join ∧
      c.toolchain.pic = l.pic.getD true ∧
      ∀ stage, (c.toolchain.tool stage).args = configuredArgs env l stage := by
  obtain ⟨l, hl, henv⟩ := load_eq_ok.1 h
  obtain ⟨jobs, -, rfl⟩ := withEnv_eq_ok.1 henv
  refine ⟨l, hl, rfl, rfl, rfl, fun stage => ?_⟩
  cases stage with
  | translate =>
    show (compilerUnder env root (Tool.anchoredAt root _)).args = _
    rw [compilerUnder, configuredArgs]
    cases env "HARNESS_COMPILER" with
    | none => cases l.compiler <;> rfl
    | some p => rfl
  | codegen =>
    show (Tool.anchoredAt root _).args = _
    rw [configuredArgs]
    cases l.codegen <;> rfl
  | link =>
    show (Tool.anchoredAt root _).args = _
    rw [configuredArgs]
    cases l.linker <;> rfl

end Assay.Config
