import Assay.Proofs.Command.Session
import Assay.Proofs.Config.Layers
import Assay.Proofs.Discovery.Order
import Assay.Proofs.Run.Commands

/-!
# Command — what tools are called with

Every path that a stage hands to its tool is built by joining onto the root or the directory for
temporary files, so it begins as one of these does or with a slash. Neither begins with a hyphen: no
name in the tree or in the settings is taken for an option.

* `Path.IsOperand`: what such a path has, and what joining keeps.
* `Harness.IsStageCall`: the whole command line of a stage, from the settings on.
* `Command.no_path_is_an_option`: for every command line that asks for a run, all that its fixtures
  start.
-/

namespace Assay

open Text.Utf8 (encode)

/-! ### Paths that are no options -/

namespace Text.Utf8

/-- Only a hyphen begins with the byte of a hyphen. -/
theorem eq_hyphen_of_head? {c : Char} (h : (String.utf8EncodeChar c).head? = some 0x2D) :
    c = '-' := by
  have hbyte : ∀ {n : Nat} {bs : Bytes}, n < 256 →
      (UInt8.ofNat n :: bs).head? = some 0x2D → n = 0x2D := fun hn hb => by
    have hnat := congrArg UInt8.toNat (Option.some.inj hb)
    rwa [UInt8.toNat_ofNat_of_lt' hn] at hnat
  unfold String.utf8EncodeChar at h
  dsimp only at h
  split_ifs at h with hone htwo hthree
  · exact Char.toNat_inj.1 (hbyte (Nat.lt_of_le_of_lt hone (by decide)) h)
  -- the first of several bytes is 0xC0 at least
  · have hlead := hbyte (by omega) h
    omega
  · have hlead := hbyte (by omega) h
    omega
  · have hlead := hbyte (by omega) h
    omega

end Text.Utf8

namespace Path

/-- Whether tools take a path for a file: there is something of it, and it does not begin with a
hyphen. -/
structure IsOperand (p : Path) : Prop where
  ne_nil : p.bytes ≠ []
  not_option : Invocation.isOption p.bytes = false

variable {p : Path}

theorem isOperand_of_isAbsolute (h : p.isAbsolute = true) : p.IsOperand := by
  have hhead : p.bytes.head? = some slash := beq_iff_eq.1 h
  refine ⟨fun hnil => ?_, ?_⟩
  · rw [hnil] at hhead
    cases hhead
  · rw [Invocation.isOption, hhead]
    decide

theorem IsOperand.append (h : p.IsOperand) (b : Bytes) : (⟨p.bytes ++ b⟩ : Path).IsOperand where
  ne_nil := List.append_ne_nil_of_left_ne_nil h.ne_nil b
  not_option := by
    rw [Invocation.isOption, List.head?_append_of_ne_nil _ h.ne_nil]
    exact h.not_option

/-- What is joined onto a path has no say in it: either it goes behind, or it has a slash in
front. -/
theorem IsOperand.join (h : p.IsOperand) (q : Path) : (p.join q).IsOperand := by
  rw [Path.join]
  split
  next hq => exact isOperand_of_isAbsolute hq
  next =>
    split
    · exact h.append q.bytes
    · exact h.append (slash :: q.bytes)

theorem IsOperand.child (h : p.IsOperand) (n : String) : (p.child n).IsOperand :=
  h.join (ofString n)

theorem isOperand_ofString {a : String} (hne : (ofString a).bytes ≠ [])
    (h : a.toList.head? ≠ some '-') : (ofString a).IsOperand := by
  refine ⟨hne, beq_eq_false_iff_ne.2 fun hhead => h ?_⟩
  rw [ofString, Text.Utf8.encode] at hne hhead
  cases hcs : a.toList with
  | nil =>
    rw [hcs] at hne
    exact absurd rfl hne
  | cons c cs =>
    rw [hcs, List.flatMap_cons, List.head?_append_of_ne_nil _ String.utf8EncodeChar_ne_nil] at hhead
    rw [Text.Utf8.eq_hyphen_of_head? hhead, List.head?_cons]

end Path

/-! ### The command line of a stage -/

section

variable {input output : Path}

theorem Path.IsOperand.ne_outputOption (h : input.IsOperand) :
    input.bytes ≠ Invocation.outputOption := by
  intro he
  have hoption := h.not_option
  rw [he] at hoption
  cases hoption

/-- A tool that reads the arguments of a stage finds its input and its output. -/
theorem Stage.operands_args (stage : Stage) (pic : Bool) (h : input.IsOperand) :
    Invocation.operands (stage.args pic input output) = ⟨some input, some output⟩ := by
  have hne := h.ne_outputOption
  have hplain := h.not_option
  have hflag : encode "-o" = Invocation.outputOption := by decide
  have hobj : encode "-filetype=obj" ≠ Invocation.outputOption ∧
      Invocation.isOption (encode "-filetype=obj") = true := by decide
  have hpic : encode "-relocation-model=pic" ≠ Invocation.outputOption ∧
      Invocation.isOption (encode "-relocation-model=pic") = true := by decide
  cases stage with
  | translate | link => simp [args, Invocation.operands, hne, hplain, hflag]
  | codegen => cases pic <;> simp [args, Invocation.operands, hne, hplain, hflag, hobj, hpic]

/-- The flag for code that is independent of its position is among the arguments of the stage that
generates code, if it is wanted, and of no other. -/
theorem Stage.pic_mem_args (stage : Stage) (pic : Bool) (hin : input.IsOperand)
    (hout : output.IsOperand) :
    encode "-relocation-model=pic" ∈ stage.args pic input output ↔
      stage = .codegen ∧ pic = true := by
  have hoption : Invocation.isOption (encode "-relocation-model=pic") = true := by decide
  have hpath : ∀ {p : Path}, p.IsOperand → encode "-relocation-model=pic" ≠ p.bytes :=
    fun hp he => by
      rw [he, hp.not_option] at hoption
      cases hoption
  have hobj : encode "-relocation-model=pic" ≠ encode "-filetype=obj" := by decide
  have hflag : encode "-relocation-model=pic" ≠ encode "-o" := by decide
  cases stage with
  | translate | link => simp [args, hpath hin, hpath hout, hflag]
  | codegen => cases pic <;> simp [args, hpath hin, hpath hout, hobj, hflag]

end

namespace Harness

/-- Whether a command line is that of a stage under some settings, with its input, its output and
its own arguments. -/
structure IsStageCall (env : Env) (l : Layer) (stage : Stage) (input output : Path)
    (own : List Bytes) (i : Invocation) : Prop where
  /-- The arguments that the tool is configured with come first, as they are. -/
  args_eq : i.args = (Config.configuredArgs env l stage).map encode ++ own
  /-- Those of the stage come in a fixed order. -/
  own_eq : own =
    (if stage = .codegen ∧ l.pic.getD true = true then [encode "-relocation-model=pic"] else []) ++
      input.bytes :: (if stage = .codegen then [encode "-filetype=obj"] else []) ++
      [encode "-o", output.bytes]
  isOperand_input : input.IsOperand
  isOperand_output : output.IsOperand
  operands_eq : Invocation.operands own = ⟨some input, some output⟩
  pic_iff : encode "-relocation-model=pic" ∈ own ↔ stage = .codegen ∧ l.pic.getD true = true

/-- Whether a command line is that of some stage, or a program without arguments. -/
def IsCall (env : Env) (l : Layer) (i : Invocation) : Prop :=
  i.args = [] ∨ ∃ stage input output own, IsStageCall env l stage input output own i

theorem isStageCall_invocation {env : Env} {l : Layer} {t : Toolchain} {stage : Stage}
    {input output : Path} (hargs : (t.tool stage).args = Config.configuredArgs env l stage)
    (hpic : t.pic = l.pic.getD true) (hin : input.IsOperand) (hout : output.IsOperand) :
    IsStageCall env l stage input output (stage.args t.pic input output)
      (t.invocation stage input output) where
  args_eq := by
    rw [← hargs]
    rfl
  own_eq := by rw [Stage.args_eq, hpic]
  isOperand_input := hin
  isOperand_output := hout
  operands_eq := stage.operands_args t.pic hin
  pic_iff := by rw [stage.pic_mem_args t.pic hin hout, hpic]

/-! ### Where the paths come from -/

variable {root : Path} {fs : FileSystem} {suites : List Suite} {c : Config} {l : Layer}

/-- A root at which fixtures were found is not empty. -/
theorem ne_nil_of_discover (h : discover fs root = .ok suites) : root.bytes ≠ [] := by
  obtain ⟨d, hd⟩ := Discovery.exists_openDir h
  obtain ⟨⟨-, hempty, -⟩, -⟩ :=
    FileSystem.resolve_eq_ok.1 (FileSystem.lookup_eq_ok.1 (FileSystem.openDir_eq_ok.1 hd))
  exact List.isEmpty_eq_false_iff.1 hempty

/-- The sources of fixtures lie below the root. -/
theorem isOperand_source (h : discover fs root = .ok suites) (hroot : root.IsOperand) {j : Job}
    (hj : j ∈ jobs suites) : j.fixture.source.IsOperand := by
  obtain ⟨s, hs, -, hf⟩ := mem_jobs.1 hj
  obtain ⟨d, n, l, -, -, hfixture, -⟩ :=
    Discovery.place_of_discover h (List.mem_of_getElem? hs) (List.mem_of_getElem? hf)
  rw [hfixture]
  exact (hroot.join (Path.relative (n :: l))).child "main.c"

/-- Scratch directories lie below the root, in the place that the settings name or in that for
temporary files. -/
theorem isOperand_scratchOf {host : Host} (hroot : root.IsOperand)
    (htemp : host.tempDir.isAbsolute = true) (h : c.scratchDir = l.scratchDir.map root.join)
    (suite : String) (f : Fixture) (id : String) :
    (scratchOf host c suite f id).path.IsOperand := by
  have hbase : (c.scratchBase host.tempDir).IsOperand := by
    rw [Config.scratchBase, h]
    cases l.scratchDir with
    | none => exact Path.isOperand_of_isAbsolute htemp
    | some d => exact hroot.join d
  rw [path_scratchOf]
  exact hbase.child _

theorem isCall_of_mem_plan {env : Env} {s : Scratch} {f : Fixture} {i : Invocation}
    {limit : Duration} (hsource : f.source.IsOperand) (hscratch : s.path.IsOperand)
    (hpic : c.toolchain.pic = l.pic.getD true)
    (hargs : ∀ stage, (c.toolchain.tool stage).args = Config.configuredArgs env l stage)
    (h : (i, limit) ∈ plan c s f) : IsCall env l i := by
  obtain ⟨stage, input, he, hin⟩ | he := mem_plan h
  · obtain ⟨rfl, -⟩ := Prod.mk.inj he
    have hinput : input.IsOperand := by
      obtain rfl | ⟨before, rfl⟩ := hin
      · exact hsource
      · exact hscratch.child _
    exact .inr ⟨stage, input, _, _,
      isStageCall_invocation (hargs stage) hpic hinput (hscratch.child _)⟩
  · obtain ⟨rfl, -⟩ := Prod.mk.inj he
    exact .inl rfl

end Harness

/-! ### The whole command -/

namespace Command

/-- The root is an operand if it is not empty: the working directory has an absolute path, and an
argument that asks for a run does not begin with a hyphen. -/
theorem isOperand_rootOf {texts : List String} {fs : FileSystem} {root : Path}
    (hask : AskForRun texts) (hroot : rootOf fs texts = .ok root) (hne : root.bytes ≠ []) :
    root.IsOperand := by
  cases texts with
  | nil =>
    rw [rootOf, FileSystem.currentDir] at hroot
    split at hroot
    · cases hroot
      exact Path.isOperand_of_isAbsolute rfl
    · cases hroot
  | cons a texts =>
    cases hroot
    exact Path.isOperand_ofString hne (hask.2 a List.mem_cons_self)

/-- For every host with an absolute directory for temporary files, every environment, settings file
and tree, and every list of arguments that asks for a run which may go ahead: the command is a run
of the fixtures, each of which runs its plan and nothing else, under any order of events. Each
command line of a plan is that of a program without arguments or that of a stage. The tool of a
stage is given the arguments that it is configured with, then those of the stage, in their order,
and neither its input nor its output begins with a hyphen. -/
theorem no_path_is_an_option {c : Call} {args : List Bytes} {texts : List String} {m : Machine}
    {root : Path} {config : Config} {suites : List Suite}
    (hargs : args.mapM Text.Utf8.decode? = some texts) (hask : AskForRun texts)
    (htemp : c.host.tempDir.isAbsolute = true) (hfound : rootOf m.files texts = .ok root)
    (hready : prepare c root m.files = .ok (config, suites)) :
    run c args m =
      ((Harness.ofConfig c.host config).run c.ids c.schedule suites m).elim
        (⟨brokenOff, "", ""⟩, m) (fun done => publish config.reportPath done.1 done.2) ∧
    ∃ l, Config.IsLayerOf m.files root l ∧
      (∀ n j, (Harness.jobs suites)[n]? = some j →
        Harness.FollowsPlan c.host config j.suite j.fixture (c.ids n) ∧
          ∀ i limit, (i, limit) ∈ Harness.plan config
            (Harness.scratchOf c.host config j.suite j.fixture (c.ids n)) j.fixture →
            Harness.IsCall c.env l i) ∧
      ∀ p q e, Pool.Reachable ((Harness.ofConfig c.host config).pool c.ids suites m) p →
        Pool.Move p e q →
        q.shared.started = p.shared.started ∨
          ∃ i limit, Harness.IsCall c.env l i ∧
            q.shared = (Invocation.run i c.host limit p.shared).2 := by
  obtain ⟨hload, -, hdiscover⟩ := prepare_eq_ok.1 hready
  obtain ⟨l, hl, hroot, hscratch, hpic, htools⟩ := Config.fields_of_load hload
  rw [hroot] at hdiscover
  have hoperand := isOperand_rootOf hask hfound (Harness.ne_nil_of_discover hdiscover)
  -- each command line of a plan is of the kind, by where its paths come from
  have hplan : ∀ n j, (Harness.jobs suites)[n]? = some j → ∀ i limit,
      (i, limit) ∈ Harness.plan config
        (Harness.scratchOf c.host config j.suite j.fixture (c.ids n)) j.fixture →
      Harness.IsCall c.env l i := fun n j hj i limit =>
    Harness.isCall_of_mem_plan
      (Harness.isOperand_source hdiscover hoperand (List.mem_of_getElem? hj))
      (Harness.isOperand_scratchOf hoperand htemp hscratch _ _ _) hpic htools
  refine ⟨?_, l, hl, fun n j hj => ?_, fun p q e hr hm => ?_⟩
  · rw [run_of_askForRun hargs hask hfound, runAt, hready]
    dsimp only
    cases (Harness.ofConfig c.host config).run c.ids c.schedule suites m with
    | none => rfl
    | some done => rfl
  · exact ⟨Harness.followsPlan c.host config j.suite j.fixture (c.ids n), hplan n j hj⟩
  · refine (Harness.started_of_reachable hr hm).imp_right ?_
    rintro ⟨n, j, i, limit, hj, hi, hrun⟩
    exact ⟨i, limit, hplan n j hj i limit hi, hrun⟩

namespace Hyphens

/-- A root with a suite that has the name of an option, and a fixture in it. -/
def machine : Machine where
  files := (FileSystem.empty.makeDirs (.ofString "/v/-o/001--x")).2

def suites : List Suite := [⟨"-o", [⟨.ofString "v/-o/001--x"⟩]⟩]

end Hyphens

/-- A suite that is called `-o`, below a root that is seen from the working directory. -/
theorem no_path_is_an_option_below_hyphens :
    [encode "v"].mapM Text.Utf8.decode? = some ["v"] ∧ AskForRun ["v"] ∧
      Unreadable.call.host.tempDir.isAbsolute = true ∧
      rootOf Hyphens.machine.files ["v"] = .ok (.ofString "v") ∧
      prepare Unreadable.call (.ofString "v") Hyphens.machine.files =
        .ok (Config.default none (.ofString "v"), Hyphens.suites) ∧
      ∃ l, Config.IsLayerOf Hyphens.machine.files (.ofString "v") l ∧
        ∀ n j, (Harness.jobs Hyphens.suites)[n]? = some j →
          ∀ i limit, (i, limit) ∈ Harness.plan (Config.default none (.ofString "v"))
            (Harness.scratchOf Unreadable.call.host (Config.default none (.ofString "v")) j.suite
              j.fixture (Unreadable.call.ids n)) j.fixture →
            Harness.IsCall Unreadable.call.env l i := by
  have hargs : [encode "v"].mapM Text.Utf8.decode? = some ["v"] := by decide
  have hask : AskForRun ["v"] := ⟨Nat.le_refl 1, by decide⟩
  have htemp : Unreadable.call.host.tempDir.isAbsolute = true := by decide
  have hready : prepare Unreadable.call (.ofString "v") Hyphens.machine.files =
      .ok (Config.default none (.ofString "v"), Hyphens.suites) := by decide +kernel
  obtain ⟨-, l, hl, htasks, -⟩ := no_path_is_an_option hargs hask htemp rfl hready
  exact ⟨hargs, hask, htemp, rfl, hready, l, hl, fun n j hj => (htasks n j hj).2⟩

end Command

end Assay
