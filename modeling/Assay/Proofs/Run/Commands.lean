import Assay.Proofs.Pool.Steps
import Assay.Proofs.Run.Isolation
import Assay.Proofs.Run.Seats

/-!
# Run — nothing is run but what is planned

Alone a cycle runs the command lines of its plan in its own scratch directory, and whatever others
do to the machine between its steps, it starts nothing else (`Harness.followsPlan`). So in every run
under any order of events each step that starts something runs a command line of the plan of a job
(`Harness.started_of_reachable`).
-/

namespace Assay

namespace Harness

variable {host : Host} {c : Config} {Q : Invocation → Duration → Prop} {limit : Duration}
  {suite id : String} {f : Fixture}

/-- Whether a step of a task starts nothing, in whatever state, or runs a command line of a kind. -/
def StartsOnly (host : Host) (Q : Invocation → Duration → Prop)
    (effect : Machine → Machine) : Prop :=
  (∀ m, (effect m).started = m.started) ∨
    ∃ i limit, Q i limit ∧ ∀ m, effect m = (Invocation.run i host limit m).2

/-- The scratch directory of a cycle. -/
def scratchOf (host : Host) (c : Config) (suite : String) (f : Fixture) (id : String) : Scratch :=
  ⟨(c.scratchBase host.tempDir).child (Scratch.dirName (label suite f) id), false⟩

/-- The scratch directory of a fixture is named below the base by its label and its id. -/
theorem path_scratchOf (host : Host) (c : Config) (suite : String) (f : Fixture) (id : String) :
    (scratchOf host c suite f id).path =
      (c.scratchBase host.tempDir).child (Scratch.dirName (label suite f) id) := by
  rw [scratchOf]

/-! ### The command lines -/

/-- The command lines of some stages are those of stages among them, each on the first input or on
what one of them was told to write. -/
theorem mem_commands {t : Toolchain} {s : Scratch} {ss : List Stage} {first : Path}
    {command : Invocation × Duration} (h : command ∈ Build.commands t limit s ss first) :
    ∃ stage input, command = (t.invocation stage input (s.file stage.outputName), limit) ∧
      (input = first ∨ ∃ before : Stage, input = s.file before.outputName) := by
  induction ss generalizing first with
  | nil => cases h
  | cons stage ss ih =>
    obtain rfl | h := List.mem_cons.1 h
    · exact ⟨stage, first, rfl, .inl rfl⟩
    · obtain ⟨stage', input, hc, hin⟩ := ih h
      refine ⟨stage', input, hc, .inr ?_⟩
      obtain rfl | hbefore := hin
      · exact ⟨stage, rfl⟩
      · exact hbefore

/-- The command lines of a plan are those of stages and the program. -/
theorem mem_plan {s : Scratch} {command : Invocation × Duration} (h : command ∈ plan c s f) :
    (∃ stage input, command =
        (c.toolchain.invocation stage input (s.file stage.outputName), c.limits.stage) ∧
      (input = f.source ∨ ∃ before : Stage, input = s.file before.outputName)) ∨
    command = (⟨s.file "program", []⟩, c.limits.run) := by
  rw [plan_eq] at h
  exact (List.mem_append.1 h).imp mem_commands List.mem_singleton.1

/-! ### The parts of a cycle -/

/-- To run a command line starts what that is located as, and nothing else. -/
theorem throughout_run {i : Invocation} (h : Q i limit) :
    (Task.act (i.run host limit)).Throughout (StartsOnly host Q) :=
  Task.throughout_act (.inr ⟨i, limit, h, fun _ => rfl⟩)

/-- The stages start nothing but their command lines. -/
theorem throughout_stages {t : Toolchain} {s : Scratch} {ss : List Stage} {input : Path}
    (h : ∀ command ∈ Build.commands t limit s ss input, Q command.1 command.2) :
    (Build.stages host t limit s ss input).Throughout (StartsOnly host Q) := by
  induction ss generalizing input with
  | nil => trivial
  | cons stage ss ih =>
    obtain ⟨hstage, hrest⟩ := List.forall_mem_cons.1 h
    refine Task.throughout_bind_of_forall (Task.throughout_map (throughout_run hstage)) fun o => ?_
    cases o with
    | some r => trivial
    | none => exact ih hrest

/-- To drop the scratch directory starts nothing. -/
theorem throughout_drop (s : Scratch) :
    (Task.change s.drop).Throughout (StartsOnly host Q) :=
  Task.throughout_change (.inl (Scratch.started_drop s))

/-- A build starts nothing but the command lines of its stages. -/
theorem throughout_build {t : Toolchain} {s : Scratch}
    (h : ∀ command ∈ Build.commands t limit s [.translate, .codegen, .link] f.source,
      Q command.1 command.2) :
    ((t.pipeline host limit).build f s).Throughout (StartsOnly host Q) := by
  refine Task.throughout_bind_of_forall (throughout_stages h) fun o => ?_
  cases o with
  | none => trivial
  | some r => exact Task.throughout_bind_of_forall (throughout_drop s) fun _ => trivial

/-- To execute starts nothing but the program that was built. -/
theorem throughout_execute {a : Artifact} (h : Q ⟨a.binary, []⟩ limit) :
    (execute host limit a f).Throughout (StartsOnly host Q) := by
  have hlook : ∀ {α : Type} (g : Machine → α), (Task.look g).Throughout (StartsOnly host Q) :=
    fun g => Task.throughout_look (.inl fun _ => rfl)
  refine Task.throughout_bind_of_forall (throughout_run h) fun fared => ?_
  cases fared with
  | error why => trivial
  | ok finish =>
    cases finish with
    | timedOut after => trivial
    | completed o =>
      exact Task.throughout_bind_of_forall (hlook _) fun exit =>
        Task.throughout_bind_of_forall (hlook _) fun stdout => trivial

/-- To release an artifact starts nothing. -/
theorem throughout_release (a : Artifact) : a.release.Throughout (StartsOnly host Q) := by
  refine Task.throughout_bind_of_forall
    (Task.throughout_act (.inl (Scratch.started_cleanup a.scratch))) ?_
  rintro ⟨outcome, ⟨path, removed⟩⟩
  cases removed with
  | true => trivial
  | false => exact Task.throughout_bind_of_forall (throughout_drop _) fun _ => trivial

/-! ### A cycle and a run -/

/-- A build and the run of its program start what is planned. -/
theorem throughout_plan (host : Host) (c : Config) (s : Scratch) (f : Fixture) :
    ((c.toolchain.pipeline host c.limits.stage).build f s).Throughout
        (StartsOnly host fun i limit => (i, limit) ∈ plan c s f) ∧
      (execute host c.limits.run ⟨s, s.file Stage.link.outputName⟩ f).Throughout
        (StartsOnly host fun i limit => (i, limit) ∈ plan c s f) := by
  have hprogram : (⟨s.file "program", []⟩, c.limits.run) ∈ plan c s f := by
    rw [plan_eq]
    exact List.mem_append_right _ (List.mem_singleton_self _)
  refine ⟨throughout_build fun command hc => ?_, throughout_execute hprogram⟩
  rw [plan_eq]
  exact List.mem_append_left _ hc

/-- Every step of a cycle starts nothing or runs a command line of its plan. -/
theorem throughout_cycle (host : Host) (c : Config) (suite : String) (f : Fixture) (id : String) :
    ((ofConfig host c).cycle id suite f).Throughout
      (StartsOnly host fun i limit => (i, limit) ∈ plan c (scratchOf host c suite f id) f) := by
  obtain ⟨hbuild, hexecute⟩ := throughout_plan host c (scratchOf host c suite f id) f
  -- if there is a scratch directory, it is this one
  have hcreate : (Task.act (Scratch.create (c.scratchBase host.tempDir) (label suite f) id)).Always
      fun made => ∀ s, made = .ok s → s = scratchOf host c suite f id :=
    Task.always_act.2 fun m s hs => Scratch.eq_of_create (Prod.ext hs rfl)
  refine Task.throughout_bind (Task.throughout_act (.inl (Scratch.started_create _ _ _))) hcreate
    fun made hmade => ?_
  cases made with
  | error why => trivial
  | ok s =>
    obtain rfl := hmade s rfl
    refine Task.throughout_bind hbuild
      (Site.always_build host c.toolchain c.limits.stage f _) fun built hbuilt => ?_
    cases built with
    | error reason => trivial
    | ok artifact =>
      obtain rfl := hbuilt artifact rfl
      refine Task.throughout_map (Task.throughout_bind_of_forall hexecute fun e => ?_)
      refine Task.throughout_bind_of_forall (throughout_release _) fun outcome => ?_
      cases outcome <;> exact True.intro

/-- What a cycle does with its plan. -/
structure FollowsPlan (host : Host) (c : Config) (suite : String) (f : Fixture) (id : String) :
    Prop where
  /-- Alone, once its scratch directory is made, it runs the command lines one after another, as
  long as each succeeds. -/
  runs : ∀ m s m₁,
    Scratch.create (c.scratchBase host.tempDir) (label suite f) id m = (.ok s, m₁) →
      s = scratchOf host c suite f id ∧ ∃ ts m₂, Trials host (plan c s f) m₁ ts m₂ ∧
        ((ofConfig host c).cycle id suite f).run m = reference c suite f s ts m₂
  /-- Whatever others do between its steps, it starts nothing else. -/
  only : ((ofConfig host c).cycle id suite f).Throughout
    (StartsOnly host fun i limit => (i, limit) ∈ plan c (scratchOf host c suite f id) f)

/-- A cycle follows its plan, however it ends. -/
theorem followsPlan (host : Host) (c : Config) (suite : String) (f : Fixture) (id : String) :
    FollowsPlan host c suite f id where
  runs _ _ _ h := ⟨Scratch.eq_of_create h, run_cycle h⟩
  only := throughout_cycle host c suite f id

/-- In a run, under any order of events, an event starts nothing or runs a command line of the plan
of a job. -/
theorem started_of_reachable {ids : Nat → String} {suites : List Suite} {m : Machine}
    {p q : Pool Machine FixtureResult} {e : Pool.Event}
    (hr : Pool.Reachable ((ofConfig host c).pool ids suites m) p) (hm : Pool.Move p e q) :
    q.shared.started = p.shared.started ∨ ∃ n j i limit, (jobs suites)[n]? = some j ∧
      (i, limit) ∈ plan c (scratchOf host c j.suite j.fixture (ids n)) j.fixture ∧
      q.shared = (Invocation.run i host limit p.shared).2 := by
  have hworkers : ∀ (n : Nat) (w : Worker Machine FixtureResult),
      ((ofConfig host c).pool ids suites m).workers[n]? = some w →
      w.phase.Throughout fun effect => ∃ j, (jobs suites)[n]? = some j ∧
        StartsOnly host (fun i limit =>
          (i, limit) ∈ plan c (scratchOf host c j.suite j.fixture (ids n)) j.fixture) effect := by
    intro n w hw
    rw [getElem?_pool_workers] at hw
    obtain ⟨j, hj, rfl⟩ := Option.map_eq_some_iff.1 hw
    refine Phase.throughout_spawned.2 ?_
    exact (throughout_cycle host c j.suite j.fixture (ids n)).mono fun _ h => ⟨j, hj, h⟩
  obtain hsame | ⟨n, effect, ⟨j, hj, hstarts | ⟨i, limit, hplan, hrun⟩⟩, hq⟩ :=
    Pool.shared_of_reachable hworkers hr hm
  · exact .inl (congrArg Machine.started hsame)
  · exact .inl (hq ▸ hstarts p.shared)
  · exact .inr ⟨n, j, i, limit, hj, hplan, hq.trans (hrun p.shared)⟩

end Harness

end Assay
