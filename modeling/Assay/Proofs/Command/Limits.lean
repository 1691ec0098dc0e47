import Assay.Proofs.Command.Verdict

/-!
# Command — how many jobs a run can have

A configuration without errors has at least one job, but may have more than a pool has permits. The
defaults are without errors below any directory (`Config.errors_default_iff`). Up to that limit a
run returns a report on all its fixtures and the command ends with zero or one; beyond it the run
cannot begin, and the command breaks off where it would (`valid_runs_iff`).
-/

namespace Assay

namespace Harness

open Pool (Reachable)

variable {h : Harness} {ids : Nat → String} {suites : List Suite} {m m' : Machine} {r : RunReport}

/-- A report has the suites that were found, each with as many results as it has fixtures. -/
theorem shape_of_run {schedule : List Pool.Event}
    (hr : h.run ids schedule suites m = some (r, m')) :
    r.suites.map (fun s => (s.name, s.results.length)) = suites.map fun s => (s.name, s.size) := by
  obtain ⟨p, hp, hfin, rfl, -⟩ := reachable_of_run hr
  refine List.ext_getElem? fun i => ?_
  rw [List.getElem?_map, List.getElem?_map]
  cases hs : suites[i]? with
  | none =>
    have hnames := congrArg (·[i]?) (names_report hp)
    rw [List.getElem?_map, List.getElem?_map, hs] at hnames
    rw [Option.map_eq_none_iff.1 hnames]
    rfl
  | some s =>
    obtain ⟨rs, hrs, hlen, -⟩ := rows_of_finished hp hfin hs
    rw [hrs]
    exact congrArg (fun n => some (s.name, n)) hlen

end Harness

/-- The problems of a list of complaints are gone when each is. -/
theorem complaint_eq_nil {holds : Bool} {bad : String} :
    complaint holds bad = [] ↔ holds = false := by
  cases holds <;> simp [complaint]

/-- A configuration without errors has a job at least. -/
theorem Config.jobs_ne_zero {c : Config} {fs : FileSystem} (h : (c.validate fs).errors = []) :
    c.jobs ≠ 0 := by
  obtain ⟨⟨-, hjobs⟩, -⟩ := (List.append_eq_nil_iff.trans
    (and_congr_left' List.append_eq_nil_iff)).1 h
  exact of_decide_eq_false (complaint_eq_nil.1 hjobs)

/-- Nothing is wrong with the defaults on any number of cores, if the root is a directory. -/
theorem Config.errors_default_iff {cores : Cores} {root : Path} {fs : FileSystem} :
    ((Config.default cores root).validate fs).errors = [] ↔ fs.isDir root = true := by
  have hlimits : (Config.default cores root).limits.validate.errors = [] := rfl
  have hjobs : ((Config.default cores root).jobs = 0) = False := eq_false cores.jobs_ne_zero
  have hroot : (Config.default cores root).root = root := rfl
  simp only [validate, List.append_eq_nil_iff, complaint_eq_nil, hlimits, hjobs, hroot,
    decide_false, true_and, Bool.not_eq_false']

namespace Command

/-- A report is zero or one to the command, also where it cannot be written. -/
theorem code_publish_le (path : Option Path) (r : RunReport) (m : Machine) :
    (publish path r m).1.code ≤ 1 := by
  have hcode : r.exitCode ≤ 1 := by
    rw [RunReport.exitCode]
    split
    · exact Nat.zero_le 1
    · exact Nat.le_refl 1
  unfold publish
  split
  · exact hcode
  · split
    · exact hcode
    · exact Nat.le_refl 1

theorem brokenOff_not_le : ¬ brokenOff ≤ 1 := by decide

/-- With too many jobs the command breaks off where the run would begin. -/
theorem code_runAt_of_crowded {c : Call} {root : Path} {m : Machine} {config : Config}
    {suites : List Suite} (hp : prepare c root m.files = .ok (config, suites))
    (hlt : permitLimit < config.jobs) : (runAt c root m).1.code = brokenOff := by
  have hrun : (Harness.ofConfig c.host config).run c.ids c.schedule suites m = none :=
    Harness.run_eq_none_iff.2 hlt
  rw [runAt, hp]
  simp only [hrun]

/-- The command breaks off only if all is ready for a run with too many jobs. -/
theorem code_runAt_le_iff {c : Call} {root : Path} {m : Machine} {config : Config}
    (hl : Config.load m.files c.env c.cores root = .ok config)
    (hv : (config.validate m.files).errors = []) :
    (runAt c root m).1.code ≤ 1 ↔
      ((∃ suites, discover m.files config.root = .ok suites) → config.jobs ≤ permitLimit) := by
  constructor
  · rintro hcode ⟨suites, hd⟩
    refine Nat.not_lt.1 fun hlt => brokenOff_not_le ?_
    rwa [← code_runAt_of_crowded (prepare_eq_ok.2 ⟨hl, hv, hd⟩) hlt]
  · intro hjobs
    rw [runAt]
    split
    next why hp => exact Nat.le_refl 1
    next config' suites hp =>
      obtain ⟨hl', -, hd⟩ := prepare_eq_ok.1 hp
      obtain rfl := Except.ok.inj (hl.symm.trans hl')
      split
      next hr => exact absurd (hjobs ⟨suites, hd⟩) (Nat.not_le.2 (Harness.run_eq_none_iff.1 hr))
      next r m' hr => exact code_publish_le _ _ _

/-- For every configuration without errors:

* the pool of its run has as many permits as it has jobs, whatever the suites;
* under every interleaving each result that comes in has an empty slot and a counter above zero;
* with no more jobs than a pool has permits, the run has a report with a result for each fixture of
  each suite, and with more it has none;
* a command that has read the configuration from the settings file and the environment ends with
  zero or one, exactly if that limit is kept or no fixtures are found at all. -/
theorem valid_runs_iff {config : Config} {fs : FileSystem} (h : (config.validate fs).errors = [])
    (host : Host) :
    (∀ (ids : Nat → String) (suites : List Suite) (m : Machine),
      ((Harness.ofConfig host config).pool ids suites m).free = config.jobs ∧
      (∀ p, Pool.Reachable ((Harness.ofConfig host config).pool ids suites m) p →
        ∀ seat r, (seat, r) ∈ p.channel → p.board.slot? seat = some none ∧
          ∃ left, p.board.remaining[seat.suite]? = some (left + 1)) ∧
      ∀ schedule : List Pool.Event,
        (config.jobs ≤ permitLimit → ∃ r m',
          (Harness.ofConfig host config).run ids schedule suites m = some (r, m') ∧
          r.suites.map (fun s => (s.name, s.results.length)) =
            suites.map fun s => (s.name, s.size)) ∧
        (permitLimit < config.jobs →
          (Harness.ofConfig host config).run ids schedule suites m = none)) ∧
    ∀ (c : Call) (args : List Bytes) (texts : List String) (root : Path) (m : Machine),
      c.host = host → m.files = fs → args.mapM Text.Utf8.decode? = some texts → AskForRun texts →
      rootOf fs texts = .ok root → Config.load fs c.env c.cores root = .ok config →
        ((run c args m).1.code = 0 ∨ (run c args m).1.code = 1 ↔
          ((∃ suites, discover fs config.root = .ok suites) → config.jobs ≤ permitLimit)) := by
  refine ⟨fun ids suites m => ⟨?_, fun p hp seat r hm => ?_, fun schedule => ⟨fun hle => ?_, ?_⟩⟩,
    ?_⟩
  · exact Nat.max_eq_left (Nat.one_le_iff_ne_zero.2 (Config.jobs_ne_zero h))
  · have hd := Harness.delivery_of_reachable hp
    have hopen := hd.awaited _ hm
    exact ⟨hopen, hd.counted.pos hopen⟩
  · obtain ⟨p, -, -, hr⟩ := (Harness.ofConfig host config).exists_run hle schedule
    exact ⟨_, _, hr, Harness.shape_of_run hr⟩
  · exact fun hlt => Harness.run_eq_none_iff.2 hlt
  · rintro c args texts root m rfl rfl hargs hask hroot hl
    rw [← Nat.le_one_iff_eq_zero_or_eq_one, ← code_runAt_le_iff hl h, run, hargs]
    simp only [runTexts_of_askForRun hask, hroot]

namespace Crowded

/-- A host without programs. -/
def host : Host := ⟨[], .ofString "/tmp", [], fun fs _ _ => ⟨[], [], .ok none, fs, []⟩⟩

/-- A call with a number of jobs in the environment. -/
def call (jobs : String) : Call where
  host := host
  env := fun name => if name = "HARNESS_JOBS" then some jobs else none
  cores := none
  program := "assay"
  ids := Scratch.idOf

/-- A machine with an empty tree. -/
def machine : Machine := ⟨.empty, [], []⟩

/-- The configuration of the top. -/
def config (jobs : Nat) : Config := { Config.default none (.ofString "/") with jobs := jobs }

end Crowded

/-- With one job the command ends by its own code. -/
theorem valid_runs_with_one_job :
    ((Crowded.config 1).validate .empty).errors = [] ∧
      ((run (Crowded.call "1") [[0x2F]] Crowded.machine).1.code = 0 ∨
        (run (Crowded.call "1") [[0x2F]] Crowded.machine).1.code = 1) := by
  have hvalid : ((Crowded.config 1).validate .empty).errors = [] := by decide
  obtain ⟨-, hcode⟩ := valid_runs_iff hvalid Crowded.host
  have hask : AskForRun ["/"] := ⟨Nat.le_refl 1, by decide⟩
  have hargs : [[0x2F]].mapM Text.Utf8.decode? = some ["/"] := by decide
  refine ⟨hvalid, (hcode (Crowded.call "1") [[0x2F]] ["/"] (.ofString "/") Crowded.machine rfl rfl
    hargs hask rfl rfl).2 fun _ => by decide⟩

/-- One job more than there are permits is read from the environment and found valid, but the run
has no report and the command breaks off. -/
theorem breaks_off_with_too_many_jobs :
    Config.load Crowded.machine.files (Crowded.call "2305843009213693952").env none
        (.ofString "/") = .ok (Crowded.config 2305843009213693952) ∧
      ((Crowded.config 2305843009213693952).validate Crowded.machine.files).errors = [] ∧
      (Harness.ofConfig Crowded.host (Crowded.config 2305843009213693952)).run Scratch.idOf [] []
        Crowded.machine = none ∧
      (run (Crowded.call "2305843009213693952") [[0x2F]] Crowded.machine).1.code = 101 := by
  have hjobs : Config.jobsOf "2305843009213693952" = .ok 2305843009213693952 := by decide +kernel
  have hload : Config.load Crowded.machine.files (Crowded.call "2305843009213693952").env none
      (.ofString "/") = .ok (Crowded.config 2305843009213693952) := by
    show (Config.jobsOf "2305843009213693952" >>= fun jobs => .ok (Crowded.config jobs)) = _
    rw [hjobs]
    rfl
  have hvalid : ((Crowded.config 2305843009213693952).validate
      Crowded.machine.files).errors = [] := by decide
  have hcrowded : permitLimit < (Crowded.config 2305843009213693952).jobs := by decide
  have hsuites : discover Crowded.machine.files (.ofString "/") = .ok [] := by decide +kernel
  have hargs : [[0x2F]].mapM Text.Utf8.decode? = some ["/"] := by decide
  have hcode : (runAt (Crowded.call "2305843009213693952") (.ofString "/") Crowded.machine).1.code =
      brokenOff := code_runAt_of_crowded (prepare_eq_ok.2 ⟨hload, hvalid, hsuites⟩) hcrowded
  refine ⟨hload, hvalid, Harness.run_eq_none_iff.2 hcrowded, ?_⟩
  have hask : AskForRun ["/"] := ⟨Nat.le_refl 1, by decide⟩
  have hrun : run (Crowded.call "2305843009213693952") [[0x2F]] Crowded.machine =
      runAt (Crowded.call "2305843009213693952") (.ofString "/") Crowded.machine := by
    rw [run, hargs]
    exact runTexts_of_askForRun hask _ _
  rw [hrun, hcode]
  rfl

end Command

end Assay
