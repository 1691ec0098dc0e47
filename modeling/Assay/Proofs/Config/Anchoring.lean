import Assay.Proofs.Config.Layers
import Assay.Proofs.Config.Settings
import Assay.Proofs.Path.Join

/-!
# Config — tools that are found from anywhere

A program that is neither absolute nor a bare name is put behind the root. With an absolute root it
is absolute then, so that a second time changes nothing (`Path.anchoredAt_anchoredAt`). What is left
as it is has one component at most; the empty path has none.

`Config.anchored_once`: so it is with the tools of every configuration that is made for an absolute
root, from the defaults or from the text of a settings file and under any number of environments
(`Config.Made`), and its scratch directory is absolute.

The environment anchors no tool but the compiler that it names itself, so one that is put in by hand
stays as it is (`Config.left_unanchored`).
-/

namespace Assay

namespace Path

variable {root p : Path}

/-- Whether a program is found the same from every directory: by its path, or by its name. -/
def IsAnchored (p : Path) : Prop := p.isAbsolute = true ∨ p.components.length ≤ 1

/-- An absolute path is not empty. -/
theorem ne_nil_of_isAbsolute (h : p.isAbsolute = true) : p.bytes ≠ [] := by
  intro hp
  rw [isAbsolute, hp] at h
  cases h

/-- Whatever is seen from an absolute path is absolute. -/
theorem isAbsolute_join_of_isAbsolute (h : root.isAbsolute = true) (q : Path) :
    (root.join q).isAbsolute = true := by
  cases hq : q.isAbsolute with
  | true =>
    rw [join, if_pos hq]
    exact hq
  | false =>
    rw [isAbsolute_join_relative root hq]
    exact h

/-- A path that is anchored stays as it is. -/
theorem anchoredAt_of_isAnchored (root : Path) (h : p.IsAnchored) : root.anchoredAt p = p := by
  rw [anchoredAt, isRelative, hasDirectory]
  obtain h | h := h
  · rw [h]
    rfl
  · rw [decide_eq_false (Nat.not_lt.2 h), Bool.and_false]
    rfl

/-- A relative path with a directory in it is joined to the root. -/
theorem anchoredAt_of_relative (root : Path) (habs : p.isAbsolute = false)
    (hdir : 1 < p.components.length) : root.anchoredAt p = root.join p := by
  rw [anchoredAt, isRelative, hasDirectory, habs, decide_eq_true hdir]
  rfl

/-- Below an absolute root every path can be anchored. -/
theorem isAnchored_anchoredAt (h : root.isAbsolute = true) (p : Path) :
    (root.anchoredAt p).IsAnchored := by
  by_cases hp : p.IsAnchored
  · rwa [anchoredAt_of_isAnchored root hp]
  · obtain ⟨habs, hdir⟩ := not_or.1 hp
    rw [anchoredAt_of_relative root (Bool.eq_false_iff.2 habs) (Nat.not_le.1 hdir)]
    exact .inl (isAbsolute_join_of_isAbsolute h p)

/-- To anchor a path twice is to anchor it once. -/
theorem anchoredAt_anchoredAt (h : root.isAbsolute = true) (p : Path) :
    root.anchoredAt (root.anchoredAt p) = root.anchoredAt p :=
  anchoredAt_of_isAnchored root (isAnchored_anchoredAt h p)

end Path

namespace Config

variable {fs : FileSystem} {env : Env} {cores : Cores} {root : Path} {c c' : Config}

/-- Whether all programs of a configuration, and its scratch directory if it has one, are found the
same from every directory. -/
structure IsAnchored (c : Config) : Prop where
  tools : ∀ stage, (c.toolchain.tool stage).program.IsAnchored
  scratchDir : ∀ d, c.scratchDir = some d → d.isAbsolute = true

/-- To anchor a configuration anchors all its paths. -/
theorem isAnchored_anchored (h : c.root.isAbsolute = true) : c.anchored.IsAnchored where
  tools stage := by
    cases stage <;> exact Path.isAnchored_anchoredAt h _
  scratchDir d hd := by
    obtain ⟨q, -, rfl⟩ := Option.map_eq_some_iff.1 hd
    exact Path.isAbsolute_join_of_isAbsolute h q

/-- The environment keeps what is anchored: the compiler that it names is anchored at the same
root, and nothing else that is a tool or the scratch directory changes. -/
theorem IsAnchored.withEnv (hc : c.IsAnchored) (h : c.root.isAbsolute = true)
    (henv : c.withEnv env = .ok c') : c'.IsAnchored := by
  obtain ⟨jobs, -, rfl⟩ := withEnv_eq_ok.1 henv
  refine ⟨fun stage => ?_, hc.scratchDir⟩
  -- Only the compiler can be another one; what it was before has to be anchored already.
  cases stage with
  | translate =>
    show (compilerUnder env c.root c.toolchain.compiler).program.IsAnchored
    rw [compilerUnder]
    cases env "HARNESS_COMPILER" with
    | none => exact hc.tools .translate
    | some s => exact Path.isAnchored_anchoredAt h _
  | codegen => exact hc.tools .codegen
  | link => exact hc.tools .link

/-- The configurations that are made for a root: the defaults, those that texts of settings files
describe, and these under environments. -/
inductive Made (root : Path) : Config → Prop where
  | default (cores : Cores) : Made root (default cores root)
  | parse {cores : Cores} {s : String} {c : Config} (h : parse cores root s = .ok c) : Made root c
  | withEnv {env : Env} {c c' : Config} (hc : Made root c) (h : c.withEnv env = .ok c') :
      Made root c'

/-- What is read from a text is the defaults with a layer over them. -/
theorem exists_layer_of_parse {s : String} (h : parse cores root s = .ok c) :
    ∃ l, c = ofLayer cores root l := by
  rw [parse] at h
  cases hl : Layer.parse s with
  | error why =>
    rw [hl] at h
    cases h
  | ok l =>
    rw [hl] at h
    exact ⟨l, (Except.ok.inj h).symm⟩

/-- No way of making a configuration changes its root. -/
theorem Made.root_eq (hc : Made root c) : c.root = root := by
  induction hc with
  | default => rfl
  | parse h =>
    obtain ⟨l, rfl⟩ := exists_layer_of_parse h
    rfl
  | withEnv _ h ih =>
    obtain ⟨jobs, -, rfl⟩ := withEnv_eq_ok.1 h
    exact ih

/-- However a configuration was made below an absolute root, its paths are anchored. -/
theorem Made.isAnchored (hroot : root.isAbsolute = true) (hc : Made root c) : c.IsAnchored := by
  induction hc with
  | default => exact isAnchored_anchored hroot
  | parse h =>
    obtain ⟨l, rfl⟩ := exists_layer_of_parse h
    exact isAnchored_anchored hroot
  | withEnv hc h ih => exact ih.withEnv (hc.root_eq.symm ▸ hroot) h

/-- What is loaded at a root is made for it. -/
theorem made_of_load (h : load fs env cores root = .ok c) : Made root c := by
  obtain ⟨l, hl, henv⟩ := load_eq_ok.1 h
  refine .withEnv ?_ henv
  obtain ⟨-, rfl⟩ | ⟨-, _, s, -, -, hs⟩ := hl
  · exact .default cores
  · exact .parse (s := s) (by rw [parse, hs]; rfl)

/-- Anchoring at an absolute root leaves what is absolute or has one component at most, and makes
everything else the root with the path behind it; a second time it changes nothing. So the tools of
a configuration made for the root are absolute or have one component at most, and its scratch
directory is absolute. The environment keeps this for every configuration of which it holds. -/
theorem anchored_once (hroot : root.isAbsolute = true) :
    (∀ p : Path,
      (p.isAbsolute = true → root.anchoredAt p = p) ∧
      (p.components.length ≤ 1 → root.anchoredAt p = p) ∧
      (p.isAbsolute = false → 1 < p.components.length →
        root.anchoredAt p = root.join p ∧ (root.join p).isAbsolute = true ∧
          (root.join p).components = root.components ++ p.components.filter (· ≠ .here)) ∧
      root.anchoredAt (root.anchoredAt p) = root.anchoredAt p) ∧
    (∀ c, Made root c → c.root = root ∧ c.IsAnchored) ∧
    (∀ fs env cores c, load fs env cores root = .ok c → Made root c) ∧
    ∀ (c c' : Config) (env : Env), c.root = root → c.IsAnchored → c.withEnv env = .ok c' →
      c'.IsAnchored := by
  refine ⟨fun p => ⟨?_, ?_, ?_, ?_⟩, fun c hc => ⟨hc.root_eq, hc.isAnchored hroot⟩,
    fun _ _ _ _ => made_of_load, ?_⟩
  · exact fun h => Path.anchoredAt_of_isAnchored root (.inl h)
  · exact fun h => Path.anchoredAt_of_isAnchored root (.inr h)
  · intro habs hdir
    exact ⟨Path.anchoredAt_of_relative root habs hdir, Path.isAbsolute_join_of_isAbsolute hroot p,
      Path.components_join_relative (Path.ne_nil_of_isAbsolute hroot) habs⟩
  · exact Path.anchoredAt_anchoredAt hroot p
  · rintro c c' env rfl hc henv
    exact hc.withEnv hroot henv

namespace Scattered

/-- Programs in several spellings, and a scratch directory that is the root itself. -/
def text : String :=
  "scratch_dir = \"\"\n[toolchain]\ncompiler = \"./bin//cc/\"\ncodegen = \"./llc\"\nlinker = \"ld/\"\n"

/-- A compiler outside of the root. -/
def assignment : Env := fun key => if key = "HARNESS_COMPILER" then some "../out/./cc" else none

/-- What is made of both at a root. -/
def config : Config where
  root := .ofString "/v"
  toolchain := {
    compiler := ⟨.ofString "/v/../out/./cc", []⟩
    codegen := ⟨.ofString "/v/./llc", []⟩
    linker := ⟨.ofString "ld/", []⟩ }
  jobs := 1
  scratchDir := some (.ofString "/v/")

end Scattered

/-- Paths of all kinds from a file and a variable: those with a directory in them are seen from the
root, and to anchor them again changes nothing. -/
theorem anchored_once_scattered :
    (Path.ofString "/v").isAbsolute = true ∧
      (∃ c, parse none (.ofString "/v") Scattered.text = .ok c ∧
        c.withEnv Scattered.assignment = .ok Scattered.config) ∧
      Made (.ofString "/v") Scattered.config ∧ Scattered.config.IsAnchored ∧
      (Path.ofString "./bin//cc/").isAbsolute = false ∧
      1 < (Path.ofString "./bin//cc/").components.length ∧
      (Path.ofString "/v").anchoredAt (.ofString "./bin//cc/") =
        (Path.ofString "/v").join (.ofString "./bin//cc/") ∧
      ((Path.ofString "/v").join (.ofString "./bin//cc/")).components =
        (Path.ofString "/v/bin/cc").components ∧
      (Path.ofString "ld/").components.length ≤ 1 ∧
      (Path.ofString "/v").anchoredAt (.ofString "ld/") = .ofString "ld/" := by
  have hroot : (Path.ofString "/v").isAbsolute = true := by decide
  obtain ⟨hpaths, hmade, -, -⟩ := anchored_once hroot
  have hload : (parse none (.ofString "/v") Scattered.text).bind (·.withEnv Scattered.assignment) =
      .ok Scattered.config := by decide +kernel
  obtain ⟨c, hparse, henv⟩ := Layer.bind_eq_ok_iff.1 hload
  have hconfig : Made (.ofString "/v") Scattered.config := .withEnv (.parse hparse) henv
  have hrel : (Path.ofString "./bin//cc/").isAbsolute = false := by decide
  have hdir : 1 < (Path.ofString "./bin//cc/").components.length := by decide
  have hbare : (Path.ofString "ld/").components.length ≤ 1 := by decide
  obtain ⟨-, -, hjoin, -⟩ := hpaths (.ofString "./bin//cc/")
  obtain ⟨hanchored, -, hcomponents⟩ := hjoin hrel hdir
  refine ⟨hroot, ⟨c, hparse, henv⟩, hconfig, (hmade _ hconfig).2, hrel, hdir, hanchored,
    hcomponents.trans (by decide), hbare, (hpaths _).2.1 hbare⟩

/-- The defaults at a root with a compiler put in by hand. -/
def byHand : Config :=
  { default none (.ofString "/v") with
    toolchain := { (default none (.ofString "/v")).toolchain with
      compiler := .bare (.ofString "bin/cc") } }

/-- A program without a name is no single component, and what is put in by hand is not looked at. -/
theorem left_unanchored :
    (Path.ofString "/v").isAbsolute = true ∧
      (∃ c, parse none (.ofString "/v") "toolchain.compiler = \"\"\n" = .ok c ∧
        ¬ (c.toolchain.compiler.program.isAbsolute = true ∨
          c.toolchain.compiler.program.components.length = 1)) ∧
      ∃ c, byHand.root = .ofString "/v" ∧ byHand.withEnv (fun _ => none) = .ok c ∧
        ¬ (c.toolchain.compiler.program.isAbsolute = true ∨
          c.toolchain.compiler.program.components.length = 1) := by
  have hparse : (parse none (.ofString "/v") "toolchain.compiler = \"\"\n").map
      (·.toolchain.compiler.program) = .ok ⟨[]⟩ := by decide +kernel
  refine ⟨by decide, ?_, byHand, rfl, rfl, by decide⟩
  cases h : parse none (.ofString "/v") "toolchain.compiler = \"\"\n" with
  | error why =>
    rw [h] at hparse
    cases hparse
  | ok c =>
    rw [h] at hparse
    have hprogram : c.toolchain.compiler.program = ⟨[]⟩ := Except.ok.inj hparse
    refine ⟨c, rfl, ?_⟩
    rw [hprogram]
    decide

end Config

end Assay
