import Assay.Proofs.Config.Anchoring
import Assay.Proofs.Text.Numeral

/-!
# Config — field by field

Each field of a loaded configuration comes from the first of three places that has it: its variable
in the environment if it has one, the settings file, the defaults (`IsLayered`). Whatever the place,
a path is put behind the root once: a program's if it is relative and no bare name, the scratch
directory's if it is relative.

`load_layered`: this is what loading gives for every file that can be read as settings and for no
file, in every environment. A variable changes its own field only, and nothing can fail behind the
file but the number of jobs.
-/

namespace Assay

namespace Path

/-! ### Paths seen from a root -/

/-- Whether `q` is `p` behind `root`: the bytes of `root`, a slash unless `root` is empty or ends
with one, and the bytes of `p`. -/
def IsBehind (root p q : Path) : Prop :=
  q.bytes = root.bytes ++ (if root.bytes.getLast?.all (· == slash) then [] else [slash]) ++ p.bytes

/-- How a path of the settings is seen from a root: a relative one that is to be anchored behind it,
any other as it is. -/
inductive IsSeen (root : Path) (anchor : Prop) (p : Path) : Path → Prop where
  | behind {q : Path} (h : anchor) (hrel : p.isAbsolute = false) (hq : IsBehind root p q) :
      IsSeen root anchor p q
  | same (h : anchor → p.isAbsolute = true) : IsSeen root anchor p p

/-- A relative path is behind the root once it is joined to it. -/
theorem isBehind_join {p : Path} (root : Path) (h : p.isAbsolute = false) :
    IsBehind root p (root.join p) := by
  rw [IsBehind, bytes_join h]
  split <;> simp

/-- To join a path to the root is to see it from there. -/
theorem isSeen_join (root p : Path) : IsSeen root True p (root.join p) := by
  by_cases h : p.isAbsolute = true
  · rw [join, if_pos h]
    exact .same fun _ => h
  · rw [Bool.not_eq_true] at h
    exact .behind trivial h (isBehind_join root h)

/-- To anchor a path is to see it from the root if it has more than one component. -/
theorem isSeen_anchoredAt (root p : Path) :
    IsSeen root (1 < p.components.length) p (root.anchoredAt p) := by
  by_cases hp : p.IsAnchored
  · rw [anchoredAt_of_isAnchored root hp]
    exact .same fun hdir => hp.resolve_right (Nat.not_le.2 hdir)
  · obtain ⟨habs, hdir⟩ := not_or.1 hp
    rw [Bool.not_eq_true] at habs
    rw [Nat.not_le] at hdir
    rw [anchoredAt_of_relative root habs hdir]
    exact .behind hdir habs (isBehind_join root habs)

end Path

/-- Whether `t'` is the tool `t` of the settings as it is started: with the same arguments, and its
program seen from the root unless it is a bare name. -/
structure Tool.IsSeen (root : Path) (t t' : Tool) : Prop where
  args : t'.args = t.args
  program : Path.IsSeen root (1 < t.program.components.length) t.program t'.program

/-- An anchored tool is the tool as it is started. -/
theorem Tool.isSeen_anchoredAt (root : Path) (t : Tool) : t.IsSeen root (t.anchoredAt root) :=
  ⟨rfl, root.isSeen_anchoredAt t.program⟩

namespace Config

variable {fs : FileSystem} {env env' : Env} {cores : Cores} {root : Path} {t : Toml.Table}
  {l : Layer} {c c' : Config}

/-! ### The number of jobs -/

/-- Whether the text of a variable asks for `n` jobs: it is, but for blanks around it, digits behind
an optional plus sign, and `n` is their value and fits into 64 bits. -/
def Asks (s : String) (n : Nat) : Prop :=
  ∃ ds, Numeral.IsDigits ds ∧ ((Text.trim s).toList = ds ∨ (Text.trim s).toList = '+' :: ds) ∧
    n = Numeral.valueFrom 0 ds ∧ n < 18446744073709551616

/-- The text of the variable is read exactly if it asks for some number of jobs. -/
theorem jobsOf_eq_ok_iff {s : String} {n : Nat} : jobsOf s = .ok n ↔ Asks s n := by
  have hparse : ∀ {m}, Numeral.parse .nat64 (Text.trimBlank s.toList) = .ok m ↔ _ :=
    Numeral.parse_eq_ok_iff (by decide) (by decide)
  rw [Asks, Text.trim, String.toList_ofList]
  unfold jobsOf
  constructor
  · intro h
    split at h
    next m hm =>
      obtain ⟨hdenotes, hholds, hminus⟩ := hparse.1 hm
      have hbound : m ≤ 18446744073709551615 := hholds.2
      rw [← Except.ok.inj h]
      generalize Text.trimBlank s.toList = cs at hdenotes hminus
      cases hdenotes with
      | bare hds => exact ⟨_, hds, .inl rfl, rfl, by simp only [Numeral.signed] at hbound ⊢; omega⟩
      | plus hds => exact ⟨_, hds, .inr rfl, rfl, by simp only [Numeral.signed] at hbound ⊢; omega⟩
      | minus hds => exact absurd (hminus rfl) (by decide)
    next => cases h
  · rintro ⟨ds, hds, htext, rfl, hbound⟩
    have hdenotes : Numeral.Denotes (Text.trimBlank s.toList)
        (Numeral.signed false (Numeral.valueFrom 0 ds)) := by
      obtain htext | htext := htext
      · rw [htext]
        exact .bare hds
      · rw [htext]
        exact .plus hds
    have hminus : (Text.trimBlank s.toList).head? = some '-' → Numeral.Range.nat64.least < 0 := by
      intro hhead
      obtain htext | htext := htext
      · rw [htext] at hhead
        obtain ⟨ds', rfl⟩ := List.head?_eq_some_iff.1 hhead
        exact absurd hds (Numeral.not_isDigits_of_sign rfl ds')
      · rw [htext] at hhead
        cases hhead
    have hholds : Numeral.Range.nat64.Holds (Numeral.signed false (Numeral.valueFrom 0 ds)) := by
      simp only [Numeral.Range.Holds, Numeral.Range.nat64, Numeral.signed, Bool.false_eq_true,
        if_false]
      omega
    rw [hparse.2 ⟨hdenotes, hholds, hminus⟩]
    rfl

/-- The variable decides on the jobs if it is set. -/
theorem jobsUnder_eq_ok_iff {jobs n : Nat} :
    jobsUnder env jobs = .ok n ↔
      (∀ s, env "HARNESS_JOBS" = some s → Asks s n) ∧ (env "HARNESS_JOBS" = none → n = jobs) := by
  unfold jobsUnder
  cases env "HARNESS_JOBS" with
  | none => exact ⟨fun h => ⟨nofun, fun _ => (Except.ok.inj h).symm⟩, fun h => by rw [h.2 rfl]; rfl⟩
  | some s =>
    rw [Option.map_some, Option.getD_some, jobsOf_eq_ok_iff]
    constructor
    · intro h
      refine ⟨?_, nofun⟩
      rintro _ ⟨⟩
      exact h
    · exact fun h => h.1 s rfl

/-! ### The layers of a root -/

/-- Whether a table is that of the settings file of a root; without a file it has no keys. -/
def IsTableOf (fs : FileSystem) (root : Path) (t : Toml.Table) : Prop :=
  (fs.isFile (root.child fileName) = false ∧ t = []) ∨
    (fs.isFile (root.child fileName) = true ∧
      ∃ bytes s, fs.read (root.child fileName) = .ok bytes ∧
        Text.Utf8.decode? bytes = some s ∧ Toml.parse s = .ok t)

/-- The layer of a root is what its settings file says. -/
theorem IsTableOf.isLayerOf (ht : IsTableOf fs root t) (hl : Layer.Says t l) :
    IsLayerOf fs root l := by
  have hread := Layer.ofToml_eq_ok_iff.2 hl
  obtain ⟨hfile, rfl⟩ | ⟨hfile, bytes, s, hbytes, htext, hparse⟩ := ht
  · exact .inl ⟨hfile, (Except.ok.inj hread).symm⟩
  · refine .inr ⟨hfile, bytes, s, hbytes, htext, ?_⟩
    rw [Layer.parse, hparse]
    simp only [bind, Except.bind, hread]

/-- The layer of a root decides what is loaded. -/
theorem IsLayerOf.load_eq (h : IsLayerOf fs root l) :
    load fs env cores root = (ofLayer cores root l).withEnv env := by
  obtain ⟨hfile, rfl⟩ | ⟨hfile, bytes, s, hbytes, htext, hparse⟩ := h
  · rw [load, hfile, ofLayer_empty]
    rfl
  · rw [load, hfile]
    simp only [hbytes, htext, parse, hparse]
    rfl

/-! ### All fields -/

/-- The jobs of a layer over those of the cores: the layer's, else one for each core, else one. -/
theorem getD_jobs (jobs? : Option Nat) (cores : Cores) :
    jobs?.getD cores.jobs = (jobs?.or (cores.map (·.1))).getD 1 := by
  cases jobs? with
  | none => cases cores <;> rfl
  | some n => rfl

/-- Whether each field of a configuration comes from the first place that has it: its variable, if
it has one, the layer of the settings file, the defaults. The default of the jobs is one for each
core that is available, and one alone if the system does not tell. -/
structure IsLayered (env : Env) (cores : Cores) (root : Path) (l : Layer) (c : Config) : Prop where
  root_eq : c.root = root
  compiler : Tool.IsSeen root
    ((((env "HARNESS_COMPILER").map fun s => ⟨.ofString s, []⟩).or l.compiler).getD
      ⟨.ofString "../bin/cc", []⟩) c.toolchain.compiler
  codegen : Tool.IsSeen root (l.codegen.getD ⟨.ofString "llc", []⟩) c.toolchain.codegen
  linker : Tool.IsSeen root (l.linker.getD ⟨.ofString "clang", []⟩) c.toolchain.linker
  pic : c.toolchain.pic = l.pic.getD true
  stageSecs : c.limits.stageSecs = l.stageSecs.getD 60
  runSecs : c.limits.runSecs = l.runSecs.getD 10
  jobs : ∀ s, env "HARNESS_JOBS" = some s → Asks s c.jobs
  jobs_of_none : env "HARNESS_JOBS" = none → c.jobs = (l.jobs.or (cores.map (·.1))).getD 1
  scratchDir : Option.Rel (Path.IsSeen root True) l.scratchDir c.scratchDir
  reportPath : c.reportPath = ((env "HARNESS_REPORT").map Path.ofString).or l.reportPath

/-- Whatever the environment says, each field comes from the layer that is in charge of it. -/
theorem isLayered_of_withEnv (h : (ofLayer cores root l).withEnv env = .ok c) :
    IsLayered env cores root l c := by
  obtain ⟨jobs, hjobs, rfl⟩ := withEnv_eq_ok.1 h
  obtain ⟨hset, hunset⟩ := jobsUnder_eq_ok_iff.1 hjobs
  refine ⟨rfl, ?_, Tool.isSeen_anchoredAt root _, Tool.isSeen_anchoredAt root _, rfl, rfl, rfl,
    hset, fun h => (hunset h).trans (getD_jobs l.jobs cores), ?_, rfl⟩
  · show Tool.IsSeen root _ (compilerUnder env root (Tool.anchoredAt root _))
    rw [compilerUnder]
    cases env "HARNESS_COMPILER" with
    | none => exact Tool.isSeen_anchoredAt root _
    | some s => exact Tool.isSeen_anchoredAt root _
  · show Option.Rel _ l.scratchDir (l.scratchDir.map root.join)
    cases l.scratchDir with
    | none => exact .none
    | some p => exact .some (root.isSeen_join p)

/-- Whether two configurations differ at most in fields of variables in which two environments
differ. -/
structure DiffersByVariables (env env' : Env) (c c' : Config) : Prop where
  rest : c' = { c with
    toolchain := { c.toolchain with compiler := c'.toolchain.compiler }
    jobs := c'.jobs
    reportPath := c'.reportPath }
  compiler : env' "HARNESS_COMPILER" = env "HARNESS_COMPILER" →
    c'.toolchain.compiler = c.toolchain.compiler
  jobs : env' "HARNESS_JOBS" = env "HARNESS_JOBS" → c'.jobs = c.jobs
  reportPath : env' "HARNESS_REPORT" = env "HARNESS_REPORT" → c'.reportPath = c.reportPath

/-- Under two environments a field differs only if the variable in charge of it does. -/
theorem differsByVariables_of_withEnv {c₀ : Config} (h : c₀.withEnv env = .ok c)
    (h' : c₀.withEnv env' = .ok c') : DiffersByVariables env env' c c' := by
  obtain ⟨jobs, hjobs, rfl⟩ := withEnv_eq_ok.1 h
  obtain ⟨jobs', hjobs', rfl⟩ := withEnv_eq_ok.1 h'
  refine ⟨rfl, fun hvar => ?_, fun hvar => ?_, fun hvar => ?_⟩
  · simp only [underEnv, compilerUnder, hvar]
  · rw [jobsUnder, hvar, ← jobsUnder, hjobs] at hjobs'
    exact (Except.ok.inj hjobs').symm
  · simp only [underEnv, hvar]

/-- Nothing but the number of jobs can fail behind the settings file. -/
theorem withEnv_eq_error_iff :
    (∃ why, c.withEnv env = .error why) ↔ ∃ s, env "HARNESS_JOBS" = some s ∧ ¬ ∃ n, Asks s n := by
  rw [withEnv_eq, jobsUnder]
  cases env "HARNESS_JOBS" with
  | none => exact iff_of_false nofun nofun
  | some s =>
    rw [Option.map_some, Option.getD_some]
    constructor
    · rintro ⟨why, h⟩
      refine ⟨s, rfl, ?_⟩
      rintro ⟨n, hn⟩
      rw [jobsOf_eq_ok_iff.2 hn] at h
      cases h
    · rintro ⟨_, ⟨⟩, hno⟩
      cases hjobs : jobsOf s with
      | error why => exact ⟨why, rfl⟩
      | ok n => exact absurd ⟨n, jobsOf_eq_ok_iff.1 hjobs⟩ hno

/-- For every settings file that can be read, and for none, a configuration is loaded in an
environment unless this asks for jobs in another way than by a number of at most 64 bits. Each of
its fields is the variable's, else the file's, else the default, and no variable changes any field
but its own. -/
theorem load_layered (ht : IsTableOf fs root t) (hl : Layer.Says t l) :
    (∀ env cores c, load fs env cores root = .ok c → IsLayered env cores root l c) ∧
      (∀ env cores, (∃ why, load fs env cores root = .error why) ↔
        ∃ s, env "HARNESS_JOBS" = some s ∧ ¬ ∃ n, Asks s n) ∧
      ∀ env env' cores c c', load fs env cores root = .ok c → load fs env' cores root = .ok c' →
        DiffersByVariables env env' c c' := by
  have hload : ∀ env cores, load fs env cores root = (ofLayer cores root l).withEnv env :=
    fun env cores => (ht.isLayerOf hl).load_eq
  refine ⟨fun env cores c h => ?_, fun env cores => ?_, fun env env' cores c c' h h' => ?_⟩
  · exact isLayered_of_withEnv ((hload env cores).symm.trans h)
  · rw [hload env cores]
    exact withEnv_eq_error_iff
  · exact differsByVariables_of_withEnv ((hload env cores).symm.trans h)
      ((hload env' cores).symm.trans h')

namespace Partial

/-- A settings file with some of the keys: a tool in each of its forms, one of the two limits, and
paths that are relative. -/
def text : String :=
  "scratch_dir = \"tmp\"\n[toolchain]\nlinker = \"bin/ld\"\n[toolchain.compiler]\n" ++
    "program = \"bin/cc\"\nargs = [\"-O1\"]\n[timeouts]\nrun_secs = 3\n"

def files : FileSystem :=
  ((FileSystem.empty.makeDirs (.ofString "/v")).2.write (.ofString "/v/harness.toml")
    ⟨Text.Utf8.encode text, false⟩).toOption.getD .empty

def layer : Layer where
  compiler := some ⟨.ofString "bin/cc", ["-O1"]⟩
  linker := some ⟨.ofString "bin/ld", []⟩
  runSecs := some 3
  scratchDir := some (.ofString "tmp")

/-- Another compiler, and a number of jobs with blanks around it and a plus sign. -/
def assignment : Env := fun key =>
  if key = "HARNESS_COMPILER" then some "out/cc"
  else if key = "HARNESS_JOBS" then some " +8\t" else none

/-- No number of jobs at all. -/
def refused : Env := fun key => if key = "HARNESS_JOBS" then some "-1" else none

def manyCores : Cores := some ⟨24, by decide⟩

/-- What is loaded at a root that is itself relative. -/
def config : Config where
  root := .ofString "v"
  toolchain := {
    compiler := ⟨.ofString "v/out/cc", []⟩
    linker := ⟨.ofString "v/bin/ld", []⟩ }
  limits := { runSecs := 3 }
  jobs := 8
  scratchDir := some (.ofString "v/tmp")

end Partial

/-- A file that sets some fields of some tables, two variables and a machine with 24 cores: each
field is what its layer says, and a number of jobs that is none is refused. -/
theorem load_layered_partial :
    ∃ t, IsTableOf Partial.files (.ofString "v") t ∧ Layer.Says t Partial.layer ∧
      load Partial.files Partial.assignment Partial.manyCores (.ofString "v") = .ok Partial.config ∧
      IsLayered Partial.assignment Partial.manyCores (.ofString "v") Partial.layer Partial.config ∧
      (∃ why, load Partial.files Partial.refused Partial.manyCores (.ofString "v") = .error why) ∧
      (∃ s, Partial.refused "HARNESS_JOBS" = some s ∧ ¬ ∃ n, Asks s n) ∧
      ∃ c, load Partial.files (fun _ => none) Partial.manyCores (.ofString "v") = .ok c ∧
        c.jobs = 24 ∧ DiffersByVariables Partial.assignment (fun _ => none) Partial.config c := by
  have hfile : Partial.files.isFile (Path.child (.ofString "v") fileName) = true := by
    decide +kernel
  have hread : Partial.files.read (Path.child (.ofString "v") fileName) =
      .ok (Text.Utf8.encode Partial.text) := by decide +kernel
  have htext : Text.Utf8.decode? (Text.Utf8.encode Partial.text) = some Partial.text := by
    decide +kernel
  have hlayer : Toml.parse Partial.text >>= Layer.ofToml = .ok Partial.layer := by decide +kernel
  obtain ⟨t, hparse, hl⟩ := Layer.bind_eq_ok_iff.1 hlayer
  have ht : IsTableOf Partial.files (.ofString "v") t :=
    .inr ⟨hfile, _, _, hread, htext, hparse⟩
  have hsays := Layer.ofToml_eq_ok_iff.1 hl
  have hload : ∀ env, load Partial.files env Partial.manyCores (.ofString "v") =
      (ofLayer Partial.manyCores (.ofString "v") Partial.layer).withEnv env :=
    fun env => (ht.isLayerOf hsays).load_eq
  obtain ⟨hfields, hfails, hapart⟩ := load_layered ht hsays
  have hok : load Partial.files Partial.assignment Partial.manyCores (.ofString "v") =
      .ok Partial.config := (hload _).trans (by decide +kernel)
  have hnone : load Partial.files (fun _ => none) Partial.manyCores (.ofString "v") =
      .ok (ofLayer Partial.manyCores (.ofString "v") Partial.layer) := (hload _).trans rfl
  have herror : ∃ why, load Partial.files Partial.refused Partial.manyCores (.ofString "v") =
      .error why := ⟨.config (.jobs .invalidDigit), (hload _).trans (by decide +kernel)⟩
  exact ⟨t, ht, hsays, hok, hfields _ _ _ hok, herror, (hfails _ _).1 herror, _, hnone,
    (hfields _ _ _ hnone).jobs_of_none rfl, hapart _ _ _ _ _ hok hnone⟩

end Config

end Assay
