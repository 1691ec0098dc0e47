import Assay.Command
import Assay.Proofs.Run.Verdict

/-!
# Command — when it ends with zero

The exit code is the verdict on everything that the command does: it is zero exactly if the
arguments are texts, at most one of them and none that starts with a hyphen, they name a root, and
the run there succeeds from its settings to its document (`code_eq_zero_iff`). Warnings have no part
in it.

* `Succeeds`: what it takes for the run at a root.
* `code_publish`, `prepare_eq_ok`, `code_runAt`: the code step by step.
-/

namespace Assay.Command

/-- Whether the run at a root succeeds: the configuration can be loaded and has no errors, the
fixtures are found, they are run and all pass, and the document, if one is wanted, is written. -/
def Succeeds (c : Call) (root : Path) (m : Machine) : Prop :=
  ∃ config suites r m',
    Config.load m.files c.env c.cores root = .ok config ∧
    (config.validate m.files).errors = [] ∧
    discover m.files config.root = .ok suites ∧
    (Harness.ofConfig c.host config).run c.ids c.schedule suites m = some (r, m') ∧
    (Harness.ofConfig c.host config).AllPassed c.ids suites r ∧
    ∀ p, config.reportPath = some p → ∃ fs, r.writeDocument p m'.files = .ok fs

theorem brokenOff_ne_zero : brokenOff ≠ 0 := by decide

/-- A report that is not written spoils the code, however the fixtures fared. -/
theorem code_publish {path : Option Path} {r : RunReport} {m : Machine} :
    (publish path r m).1.code = 0 ↔
      r.passed = true ∧ ∀ p, path = some p → ∃ fs, r.writeDocument p m.files = .ok fs := by
  cases path with
  | none => exact RunReport.exitCode_eq_zero_iff.trans (and_iff_left nofun).symm
  | some p =>
    rw [publish]
    split
    next fs h =>
      refine RunReport.exitCode_eq_zero_iff.trans (and_iff_left fun p' hp => ?_).symm
      obtain rfl := Option.some.inj hp
      exact ⟨fs, h⟩
    next why h =>
      refine iff_of_false Nat.one_ne_zero fun ⟨_, hall⟩ => ?_
      obtain ⟨fs, hfs⟩ := hall p rfl
      cases h.symm.trans hfs

/-- A validation without errors has a result. -/
theorem result_eq_ok {v : Validation} {ws : List String} :
    v.result = .ok ws ↔ v.errors = [] ∧ v.warnings = ws := by
  rw [Validation.result, Validation.isValid]
  split
  next h =>
    rw [and_iff_right (List.isEmpty_iff.1 h)]
    exact ⟨Except.ok.inj, congrArg _⟩
  next h => exact iff_of_false nofun fun hv => h (List.isEmpty_iff.2 hv.1)

/-- A run may go ahead when its settings are loaded and without errors and its fixtures are found,
whatever it is warned of. -/
theorem prepare_eq_ok {c : Call} {root : Path} {fs : FileSystem} {config : Config}
    {suites : List Suite} :
    prepare c root fs = .ok (config, suites) ↔
      Config.load fs c.env c.cores root = .ok config ∧ (config.validate fs).errors = [] ∧
        discover fs config.root = .ok suites := by
  rw [prepare]
  cases Config.load fs c.env c.cores root with
  | error why => exact iff_of_false nofun nofun
  | ok config' =>
    cases hv : (config'.validate fs).result with
    | error why =>
      refine iff_of_false (fun h => ?_) ?_
      · simp only [bind, Except.bind, hv] at h
        cases h
      · rintro ⟨h, herrors, -⟩
        obtain rfl := Except.ok.inj h
        cases hv.symm.trans (result_eq_ok.2 ⟨herrors, rfl⟩)
    | ok ws =>
      have herrors := (result_eq_ok.1 hv).1
      cases hd : discover fs config'.root with
      | error why =>
        refine iff_of_false (fun h => ?_) ?_
        · simp only [bind, Except.bind, hv, hd] at h
          cases h
        · rintro ⟨h, -, hok⟩
          obtain rfl := Except.ok.inj h
          cases hd.symm.trans hok
      | ok suites' =>
        simp only [bind, Except.bind, hv, hd, pure, Except.pure]
        constructor
        · intro h
          cases h
          exact ⟨rfl, herrors, hd⟩
        · rintro ⟨h, -, hok⟩
          obtain rfl := Except.ok.inj h
          obtain rfl := Except.ok.inj (hd.symm.trans hok)
          rfl

/-- A run at a root ends with code zero exactly if all of it succeeds. -/
theorem code_runAt {c : Call} {root : Path} {m : Machine} :
    (runAt c root m).1.code = 0 ↔ Succeeds c root m := by
  rw [runAt]
  split
  next why hp =>
    refine iff_of_false Nat.one_ne_zero ?_
    rintro ⟨config, suites, -, -, hl, hv, hd, -⟩
    cases hp.symm.trans (prepare_eq_ok.2 ⟨hl, hv, hd⟩)
  next config suites hp =>
    obtain ⟨hl, hv, hd⟩ := prepare_eq_ok.1 hp
    -- whatever the run succeeds with, it is this configuration and these suites
    have honly : ∀ {config' suites'}, Config.load m.files c.env c.cores root = .ok config' →
        (config'.validate m.files).errors = [] → discover m.files config'.root = .ok suites' →
        config = config' ∧ suites = suites' := fun hl' hv' hd' =>
      Prod.mk.inj (Except.ok.inj (hp.symm.trans (prepare_eq_ok.2 ⟨hl', hv', hd'⟩)))
    split
    next hr =>
      refine iff_of_false brokenOff_ne_zero ?_
      rintro ⟨config', suites', r, m', hl', hv', hd', hr', -⟩
      obtain ⟨rfl, rfl⟩ := honly hl' hv' hd'
      cases hr.symm.trans hr'
    next r m' hr =>
      rw [code_publish, Harness.passed_iff hr]
      constructor
      · rintro ⟨hall, hwritten⟩
        exact ⟨config, suites, r, m', hl, hv, hd, hr, hall, hwritten⟩
      · rintro ⟨config', suites', r', m'', hl', hv', hd', hr', hall, hwritten⟩
        obtain ⟨rfl, rfl⟩ := honly hl' hv' hd'
        obtain ⟨rfl, rfl⟩ := Prod.mk.inj (Option.some.inj (hr.symm.trans hr'))
        exact ⟨hall, hwritten⟩

/-- Whether arguments ask for a run and not for help. -/
def AskForRun (texts : List String) : Prop :=
  texts.length ≤ 1 ∧ ∀ a ∈ texts, a.toList.head? ≠ some '-'

theorem asksForHelp_iff {texts : List String} :
    (1 < texts.length || texts.any fun a => a.toList.head? == some '-') = true ↔
      ¬ AskForRun texts := by
  rw [AskForRun, Bool.or_eq_true, decide_eq_true_iff, List.any_eq_true, not_and_or, Nat.not_le]
  simp

/-- With arguments that ask for a run the command is the one at their root, if they have one. -/
theorem runTexts_of_askForRun {texts : List String} (h : AskForRun texts) (c : Call) (m : Machine) :
    runTexts c texts m =
      match rootOf m.files texts with
      | .error why => (⟨1, "", noDirectory why⟩, m)
      | .ok root   => runAt c root m := by
  unfold runTexts
  exact if_neg (mt asksForHelp_iff.1 (not_not_intro h))

/-- The command ends with code zero exactly if it is asked for a run, has a root and the run there
succeeds. -/
theorem code_runTexts {c : Call} {texts : List String} {m : Machine} :
    (runTexts c texts m).1.code = 0 ↔
      AskForRun texts ∧ ∃ root, rootOf m.files texts = .ok root ∧ Succeeds c root m := by
  by_cases hask : AskForRun texts
  · rw [runTexts_of_askForRun hask, and_iff_right hask]
    cases rootOf m.files texts with
    | error why => exact iff_of_false Nat.one_ne_zero nofun
    | ok root => simp only [code_runAt, Except.ok.injEq, exists_eq_left']
  · unfold runTexts
    rw [if_pos (asksForHelp_iff.2 hask)]
    exact iff_of_false Nat.one_ne_zero fun h => hask h.1

/-- For every host, environment and order of events, every list of arguments and every tree: the
command ends with zero exactly if all arguments are texts, at most one of them, none starts with a
hyphen, they name a root (without any the working directory is there), the configuration of the root
is loaded and has no errors, its fixtures are found, the run returns a report in which each of them
has a result of its own and passed, and the document, if one is wanted, was written. -/
theorem code_eq_zero_iff (c : Call) (args : List Bytes) (m : Machine) :
    (run c args m).1.code = 0 ↔ ∃ texts, args.mapM Text.Utf8.decode? = some texts ∧
      texts.length ≤ 1 ∧ (∀ a ∈ texts, a.toList.head? ≠ some '-') ∧
      ∃ root, rootOf m.files texts = .ok root ∧ Succeeds c root m := by
  rw [run]
  split
  next h => exact iff_of_false brokenOff_ne_zero fun ⟨_, htexts, _⟩ => nomatch h.symm.trans htexts
  next texts h =>
    rw [code_runTexts, AskForRun, and_assoc]
    refine ⟨fun hrun => ⟨texts, h, hrun⟩, ?_⟩
    rintro ⟨texts', h', hrun⟩
    obtain rfl := Option.some.inj (h.symm.trans h')
    exact hrun

namespace Unreadable

/-- A name that is no text. -/
def name : Bytes := [0xFF]

/-- A directory of that name, and nothing in it. -/
def machine : Machine where
  files := (FileSystem.empty.makeDirs ⟨name⟩).2

/-- A call on a host without programs, in an empty environment. -/
def call : Call where
  host := ⟨[], .ofString "/tmp", [], fun fs _ _ => ⟨[], [], .ok none, fs, []⟩⟩
  env := fun _ => none
  cores := none
  program := "assay"
  ids := Scratch.idOf

end Unreadable

/-- An argument that is no text ends the command before it begins, though it is the only one, does
not start with a hyphen, and names a directory at which a run succeeds. -/
theorem code_of_unreadable_argument :
    [Unreadable.name].length ≤ 1 ∧ (∀ a ∈ [Unreadable.name], a.head? ≠ some 0x2D) ∧
      Succeeds Unreadable.call ⟨Unreadable.name⟩ Unreadable.machine ∧
      (run Unreadable.call [Unreadable.name] Unreadable.machine).1.code ≠ 0 := by
  refine ⟨Nat.le_refl 1, by decide, ?_, by decide⟩
  refine ⟨.default none ⟨Unreadable.name⟩, [], ⟨[], .zero⟩, Unreadable.machine, rfl, by decide,
    by decide +kernel, rfl, ⟨rfl, fun i s hs => nomatch hs⟩, fun p hp => nomatch hp⟩

end Assay.Command
