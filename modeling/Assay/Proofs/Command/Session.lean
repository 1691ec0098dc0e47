import Assay.Proofs.Command.Verdict
import Assay.Proofs.Run.Reporting

/-!
# Command — one thing after another

`session` is the command as a task that works on the machine and on what it prints, one step at a
time, in the order in which it does things: it looks at its arguments, at the settings and for the
fixtures; it runs them, event by event; it prints the report; it writes the document. The command is
what this comes to under some order of events (`exists_session`).

* `FailsEarly`: the ways to fail before the run, each with what is said of it; there are no others
  (`failsEarly_iff`).
* `Moment`: what can be seen of a session, from its start to the document at its end.
* `effects_in_order`: a failure before the run comes before any effect, and a report that cannot be
  written comes after all of them.
-/

namespace Assay

/-! ### The states of a task -/

namespace Task

variable {σ α β : Type}

/-- The states that a task alone comes through, from the first to the last. -/
def visited : Task σ α → σ → List σ
  | .step effect next, s => s :: (next s).visited (effect s)
  | .done _, s           => [s]
  | .dead, s             => [s]

@[simp] theorem visited_pure (a : α) (s : σ) : (pure a : Task σ α).visited s = [s] := rfl

@[simp] theorem visited_act_bind (f : σ → α × σ) (g : α → Task σ β) (s : σ) :
    (act f >>= g).visited s = s :: (g (f s).1).visited (f s).2 := rfl

@[simp] theorem visited_look_bind (f : σ → α) (g : α → Task σ β) (s : σ) :
    (look f >>= g).visited s = s :: (g (f s)).visited s := rfl

@[simp] theorem visited_change_bind (f : σ → σ) (g : Unit → Task σ β) (s : σ) :
    (change f >>= g).visited s = s :: (g ()).visited (f s) := rfl

@[simp] theorem run_act_bind (f : σ → α × σ) (g : α → Task σ β) (s : σ) :
    (act f >>= g).run s = (g (f s).1).run (f s).2 := rfl

@[simp] theorem run_look_bind (f : σ → α) (g : α → Task σ β) (s : σ) :
    (look f >>= g).run s = (g (f s)).run s := rfl

@[simp] theorem run_change_bind (f : σ → σ) (g : Unit → Task σ β) (s : σ) :
    (change f >>= g).run s = (g ()).run (f s) := rfl

/-- A sequence of two tasks comes through the states of the first and, if that does not die, of the
second. -/
theorem mem_visited_bind {t : Task σ α} {f : α → Task σ β} {s v : σ}
    (h : v ∈ (t >>= f).visited s) :
    v ∈ t.visited s ∨ ∃ a, (t.run s).1 = some a ∧ v ∈ (f a).visited (t.run s).2 := by
  change v ∈ (t.bind f).visited s at h
  induction t generalizing s with
  | done a => exact .inr ⟨a, rfl, h⟩
  | dead => exact .inl h
  | step effect next ih =>
    rcases List.mem_cons.1 h with rfl | h
    · exact .inl List.mem_cons_self
    · exact (ih s h).imp_left (List.mem_cons_of_mem _)

end Task

namespace Command

/-! ### The command step by step -/

/-- The machine and what has been printed. -/
structure World where
  machine : Machine
  stdout : String := ""
  stderr : String := ""

/-- Prints a text on standard output. -/
def print (text : String) : Task World Unit :=
  .change fun w => { w with stdout := w.stdout ++ text }

/-- Prints a text on standard error. -/
def complain (text : String) : Task World Unit :=
  .change fun w => { w with stderr := w.stderr ++ text }

/-- What is said of an error that ends the command. -/
def failure (why : Error) : String := "Validation run failed: " ++ why.message ++ "\n"

/-- Ends the command with a complaint. -/
def giveUp (text : String) : Task World Nat := do
  complain text
  pure 1

/-- The fixtures of a pool, event by event. An order of events that ends before the fixtures do
shows them only so far. -/
def runPool (suites : List Suite) :
    List Pool.Event → Pool Machine FixtureResult → Task World RunReport
  | [], p      => if p.finished then pure (Harness.report suites p.board) else .dead
  | e :: es, p => do
    let q := (p.apply e).getD p
    .change fun w => { w with machine := q.shared }
    runPool suites es q

/-- Writes the document of a report. -/
def writeReport (path : Path) (r : RunReport) : Task World (Except Error Unit) :=
  .act fun w =>
    match r.writeDocument path w.machine.files with
    | .ok fs     => (.ok (), { w with machine := { w.machine with files := fs } })
    | .error why => (.error why, w)

/-- What is done with a report: it is printed, and then written if a document is wanted. -/
def conclude (path : Option Path) (r : RunReport) : Task World Nat := do
  print r.render
  match path with
  | none   => pure r.exitCode
  | some p =>
    match ← writeReport p r with
    | .ok ()     => pure r.exitCode
    | .error why => giveUp (failure why)

/-- The run of some suites and what comes of it. -/
def sessionOf (c : Call) (order : List Pool.Event) (config : Config) (suites : List Suite) :
    Task World Nat :=
  if permitLimit < max config.jobs 1 then pure brokenOff
  else do
    let p ← .look fun w => (Harness.ofConfig c.host config).pool c.ids suites w.machine
    let r ← runPool suites order p
    conclude config.reportPath r

/-- The command at a root. -/
def sessionAt (c : Call) (order : List Pool.Event) (root : Path) : Task World Nat := do
  match ← .look fun w => prepare c root w.machine.files with
  | .error why           => giveUp (failure why)
  | .ok (config, suites) => sessionOf c order config suites

/-- The whole command, its fixtures run in some order of events. -/
def session (c : Call) (order : List Pool.Event) (args : List Bytes) : Task World Nat :=
  match args.mapM Text.Utf8.decode? with
  | none       => pure brokenOff
  | some texts =>
    if 1 < texts.length || texts.any fun a => a.toList.head? == some '-' then
      giveUp (usage c.program)
    else do
      match ← .look fun w => rootOf w.machine.files texts with
      | .error why => giveUp (noDirectory why)
      | .ok root   => sessionAt c order root

/-- How a session has ended, and the machine that it leaves. -/
def ended (outcome : Option Nat × World) : Ended × Machine :=
  (⟨outcome.1.getD brokenOff, outcome.2.stdout, outcome.2.stderr⟩, outcome.2.machine)

section

variable {c : Call} {args : List Bytes} {texts : List String} {m : Machine} {root : Path}
  {config : Config} {suites : List Suite} {order : List Pool.Event}
  {p q : Pool Machine FixtureResult} {w v : World}

/-- Step by step a pool comes to the report that it has when all its events have been played. -/
theorem run_runPool (hw : w.machine = p.shared) :
    (runPool suites order p).run w =
      (if (p.play order).finished then some (Harness.report suites (p.play order).board) else none,
        { w with machine := (p.play order).shared }) := by
  induction order generalizing p w with
  | nil =>
    obtain ⟨m, stdout, stderr⟩ := w
    obtain rfl : m = p.shared := hw
    rw [runPool, Pool.play, List.foldl_nil]
    split
    · rfl
    · rfl
  | cons e es ih => exact ih rfl

/-- To give up is to end with code one and the text on standard error. -/
theorem ended_giveUp (text : String) (m : Machine) :
    ended ((giveUp text).run ⟨m, "", ""⟩) = (⟨1, "", text⟩, m) := by
  rw [giveUp, complain, Task.run_change_bind, String.empty_append]
  rfl

/-- To conclude is to publish the report. -/
theorem ended_conclude (path : Option Path) (r : RunReport) (m : Machine) :
    ended ((conclude path r).run ⟨m, "", ""⟩) = publish path r m := by
  unfold conclude
  rw [print, Task.run_change_bind, String.empty_append]
  cases path with
  | none => rfl
  | some path =>
    simp only [writeReport, Task.run_act_bind, publish]
    cases r.writeDocument path m.files with
    | ok fs => rfl
    | error why =>
      simp only [giveUp, complain, Task.run_change_bind, String.empty_append]
      rfl

/-- A run under a schedule is a run under some order of events. -/
theorem exists_sessionOf (c : Call) (config : Config) (suites : List Suite) (m : Machine) :
    ∃ order, ended ((sessionOf c order config suites).run ⟨m, "", ""⟩) =
      match (Harness.ofConfig c.host config).run c.ids c.schedule suites m with
      | none        => (⟨brokenOff, "", ""⟩, m)
      | some (r, m) => publish config.reportPath r m := by
  by_cases hlt : permitLimit < max config.jobs 1
  · refine ⟨[], ?_⟩
    have hcrowded : permitLimit < max (Harness.ofConfig c.host config).config.jobs 1 := hlt
    rw [Harness.run, if_pos hcrowded, sessionOf, if_pos hlt]
    rfl
  · have hplay := Pool.reachable_play
      ((Harness.ofConfig c.host config).pool c.ids suites m) c.schedule
    obtain ⟨hdrain, hfin⟩ := Harness.drain_of_reachable hplay
    obtain ⟨order, horder⟩ := Pool.exists_play_of_reachable (hplay.trans hdrain)
    rw [← horder] at hfin
    have hroom : ¬ permitLimit < max (Harness.ofConfig c.host config).config.jobs 1 := hlt
    refine ⟨order, ?_⟩
    rw [Harness.run, if_neg hroom, sessionOf, if_neg hlt, Task.run_look_bind, Task.run_bind,
      run_runPool rfl, if_pos hfin]
    show ended ((conclude _ _).run ⟨_, "", ""⟩) = _
    rw [ended_conclude, horder]

/-- The command at a root is what its steps come to under some order of events. -/
theorem exists_sessionAt (c : Call) (root : Path) (m : Machine) :
    ∃ order, ended ((sessionAt c order root).run ⟨m, "", ""⟩) = runAt c root m := by
  simp only [sessionAt, Task.run_look_bind, runAt]
  cases prepare c root m.files with
  | error why => exact ⟨[], ended_giveUp _ m⟩
  | ok ready => exact exists_sessionOf c ready.1 ready.2 m

/-- The command is what its steps come to under some order of events. -/
theorem exists_session (c : Call) (args : List Bytes) (m : Machine) :
    ∃ order, ended ((session c order args).run ⟨m, "", ""⟩) = run c args m := by
  unfold run session
  cases args.mapM Text.Utf8.decode? with
  | none => exact ⟨[], rfl⟩
  | some texts =>
    dsimp only
    unfold runTexts
    split
    · exact ⟨[], ended_giveUp _ m⟩
    · simp only [Task.run_look_bind]
      cases rootOf m.files texts with
      | error why => exact ⟨[], ended_giveUp _ m⟩
      | ok root => exact exists_sessionAt c root m

/-! ### Failures before the run -/

/-- The ways to fail before the run, and what is said of each: the arguments ask for help, there is
no working directory where they ask for it, the settings cannot be loaded or have errors, or the
fixtures cannot be found. -/
inductive FailsEarly (c : Call) (texts : List String) (m : Machine) : String → Prop where
  | usage (h : ¬ AskForRun texts) : FailsEarly c texts m (usage c.program)
  | directory {why : Fault} (h : AskForRun texts) (hr : rootOf m.files texts = .error why) :
      FailsEarly c texts m (noDirectory why)
  | loading {root : Path} {why : Error} (h : AskForRun texts) (hr : rootOf m.files texts = .ok root)
      (hl : Config.load m.files c.env c.cores root = .error why) :
      FailsEarly c texts m (failure why)
  | validation {root : Path} {config : Config} (h : AskForRun texts)
      (hr : rootOf m.files texts = .ok root)
      (hl : Config.load m.files c.env c.cores root = .ok config)
      (hv : (config.validate m.files).errors ≠ []) :
      FailsEarly c texts m (failure (.config (.invalid (config.validate m.files).errors)))
  | discovery {root : Path} {config : Config} {why : Error} (h : AskForRun texts)
      (hr : rootOf m.files texts = .ok root)
      (hl : Config.load m.files c.env c.cores root = .ok config)
      (hv : (config.validate m.files).errors = [])
      (hd : discover m.files config.root = .error why) : FailsEarly c texts m (failure why)

/-- Errors of a configuration keep the run from going ahead. -/
theorem prepare_of_invalid (hl : Config.load m.files c.env c.cores root = .ok config)
    (hv : (config.validate m.files).errors ≠ []) :
    prepare c root m.files = .error (.config (.invalid (config.validate m.files).errors)) := by
  have hresult : (config.validate m.files).result =
      .error (.config (.invalid (config.validate m.files).errors)) := by
    rw [Validation.result, Validation.isValid, if_neg (mt List.isEmpty_iff.1 hv)]
  simp only [prepare, hl, bind, Except.bind, hresult]

/-- So does a failure to find the fixtures. -/
theorem prepare_of_undiscovered {why : Error}
    (hl : Config.load m.files c.env c.cores root = .ok config)
    (hv : (config.validate m.files).errors = []) (hd : discover m.files config.root = .error why) :
    prepare c root m.files = .error why := by
  have hresult := result_eq_ok.2 ⟨hv, rfl⟩
  simp only [prepare, hl, bind, Except.bind, hresult, hd]

/-- There is no other failure before the run than those. -/
theorem failsEarly_iff {said : String} :
    FailsEarly c texts m said ↔
      (¬ AskForRun texts ∧ said = Command.usage c.program) ∨
        (AskForRun texts ∧ ∃ why, rootOf m.files texts = .error why ∧ said = noDirectory why) ∨
        (AskForRun texts ∧ ∃ root why, rootOf m.files texts = .ok root ∧
          prepare c root m.files = .error why ∧ said = failure why) := by
  constructor
  · intro h
    cases h with
    | usage h => exact .inl ⟨h, rfl⟩
    | directory h hr => exact .inr (.inl ⟨h, _, hr, rfl⟩)
    | @loading root why h hr hl =>
      exact .inr (.inr ⟨h, root, why, hr, by rw [prepare, hl]; rfl, rfl⟩)
    | validation h hr hl hv => exact .inr (.inr ⟨h, _, _, hr, prepare_of_invalid hl hv, rfl⟩)
    | discovery h hr hl hv hd =>
      exact .inr (.inr ⟨h, _, _, hr, prepare_of_undiscovered hl hv hd, rfl⟩)
  · rintro (⟨hhelp, rfl⟩ | ⟨hask, why, hr, rfl⟩ | ⟨hask, root, why, hr, hp, rfl⟩)
    · exact .usage hhelp
    · exact .directory hask hr
    cases hl : Config.load m.files c.env c.cores root with
    | error why' =>
      rw [prepare, hl] at hp
      cases hp
      exact .loading hask hr hl
    | ok config =>
      by_cases hv : (config.validate m.files).errors = []
      · cases hd : discover m.files config.root with
        | error why' =>
          cases (prepare_of_undiscovered hl hv hd).symm.trans hp
          exact .discovery hask hr hl hv hd
        | ok suites => cases (prepare_eq_ok.2 ⟨hl, hv, hd⟩).symm.trans hp
      · cases (prepare_of_invalid hl hv).symm.trans hp
        exact .validation hask hr hl hv

/-- With arguments that ask for a run and have a root the command is the one there. -/
theorem run_of_askForRun (hargs : args.mapM Text.Utf8.decode? = some texts) (h : AskForRun texts)
    (hr : rootOf m.files texts = .ok root) (c : Call) : run c args m = runAt c root m := by
  rw [run, hargs]
  simp only [runTexts_of_askForRun h, hr]

/-- With arguments that ask for a run the session looks for the root first. -/
theorem session_of_askForRun (hargs : args.mapM Text.Utf8.decode? = some texts)
    (h : AskForRun texts) (c : Call) (order : List Pool.Event) :
    session c order args =
      .look (fun w : World => rootOf w.machine.files texts) >>= fun found =>
        match found with
        | .error why => giveUp (noDirectory why)
        | .ok root   => sessionAt c order root := by
  rw [session, hargs]
  dsimp only
  rw [if_neg (mt asksForHelp_iff.1 (not_not_intro h))]

/-- A failure before the run ends the command with one and what is said of it. -/
theorem run_of_failsEarly {said : String} (hargs : args.mapM Text.Utf8.decode? = some texts)
    (h : FailsEarly c texts m said) : run c args m = (⟨1, "", said⟩, m) := by
  rcases failsEarly_iff.1 h with
    ⟨hhelp, rfl⟩ | ⟨hask, why, hr, rfl⟩ | ⟨hask, root, why, hr, hp, rfl⟩
  · rw [run, hargs]
    dsimp only
    unfold runTexts
    rw [if_pos (asksForHelp_iff.2 hhelp)]
  · rw [run, hargs]
    simp only [runTexts_of_askForRun hask, hr]
  · rw [run_of_askForRun hargs hask hr, runAt, hp]
    rfl

/-! ### What can be seen -/

/-- While the command gives up, nothing is printed and the machine stays as it is. -/
theorem mem_visited_giveUp {text : String} (h : v ∈ (giveUp text).visited w) :
    v.machine = w.machine ∧ v.stdout = w.stdout := by
  rw [giveUp, complain, Task.visited_change_bind, Task.visited_pure] at h
  simp only [List.mem_cons, List.not_mem_nil, or_false] at h
  rcases h with rfl | rfl
  · exact ⟨rfl, rfl⟩
  · exact ⟨rfl, rfl⟩

/-- While the pool runs, nothing is printed, and the files are those of a reachable pool. -/
theorem mem_visited_runPool (hw : w.machine = p.shared)
    (h : v ∈ (runPool suites order p).visited w) :
    ∃ q, Pool.Reachable p q ∧ v = { w with machine := q.shared } := by
  have hsame : w = { w with machine := p.shared } := by rw [← hw]
  induction order generalizing p w with
  | nil =>
    have hv : v = w := by
      rw [runPool] at h
      split at h
      · exact List.mem_singleton.1 h
      · exact List.mem_singleton.1 h
    exact ⟨p, .refl, hv.trans hsame⟩
  | cons e es ih =>
    rw [runPool, Task.visited_change_bind] at h
    rcases List.mem_cons.1 h with rfl | h
    · exact ⟨p, .refl, hsame⟩
    · obtain ⟨q, hq, hv⟩ := ih rfl h rfl
      exact ⟨q, (Pool.reachable_play p [e]).trans hq, hv⟩

/-- A report is printed first, and its document is there only after that. -/
theorem mem_visited_conclude {path : Option Path} {r : RunReport}
    (h : v ∈ (conclude path r).visited w) :
    v = w ∨ v.stdout = w.stdout ++ r.render ∧ (v.machine = w.machine ∨
      ∃ p fs, path = some p ∧ r.writeDocument p w.machine.files = .ok fs ∧
        v.machine = { w.machine with files := fs }) := by
  unfold conclude at h
  rw [print, Task.visited_change_bind] at h
  refine (List.mem_cons.1 h).imp_right fun h => ?_
  cases path with
  | none =>
    obtain rfl := List.mem_singleton.1 h
    exact ⟨rfl, .inl rfl⟩
  | some p =>
    simp only [writeReport, Task.visited_act_bind] at h
    rcases List.mem_cons.1 h with rfl | h
    · exact ⟨rfl, .inl rfl⟩
    cases hfs : r.writeDocument p w.machine.files with
    | ok fs =>
      simp only [hfs] at h
      obtain rfl := List.mem_singleton.1 h
      exact ⟨rfl, .inr ⟨p, fs, rfl, hfs, rfl⟩⟩
    | error why =>
      simp only [hfs] at h
      obtain ⟨hm, hs⟩ := mem_visited_giveUp h
      exact ⟨hs, .inl hm⟩

/-- Whether arguments lead to a run that may go ahead, with its configuration and its suites. -/
def Ready (c : Call) (texts : List String) (m : Machine) (config : Config) (suites : List Suite) :
    Prop :=
  ∃ root, rootOf m.files texts = .ok root ∧ prepare c root m.files = .ok (config, suites)

/-- The moments of a command with some arguments: the machine and what is on standard output. -/
inductive Moment (c : Call) (texts : List String) (m : Machine) : Machine → String → Prop where
  /-- The fixtures have not been started. -/
  | before : Moment c texts m m ""
  /-- The fixtures are run, and nothing is printed. -/
  | during {config : Config} {suites : List Suite} {p : Pool Machine FixtureResult}
      (hready : Ready c texts m config suites)
      (hp : Pool.Reachable ((Harness.ofConfig c.host config).pool c.ids suites m) p) :
      Moment c texts m p.shared ""
  /-- All fixtures have finished, and their report is printed. -/
  | printed {config : Config} {suites : List Suite} {p : Pool Machine FixtureResult}
      (hready : Ready c texts m config suites)
      (hp : Pool.Reachable ((Harness.ofConfig c.host config).pool c.ids suites m) p)
      (hfin : p.finished = true) :
      Moment c texts m p.shared (Harness.report suites p.board).render
  /-- All fixtures have finished, their report is printed, and the document is written. -/
  | written {config : Config} {suites : List Suite} {p : Pool Machine FixtureResult}
      {path : Path} {fs : FileSystem}
      (hready : Ready c texts m config suites)
      (hp : Pool.Reachable ((Harness.ofConfig c.host config).pool c.ids suites m) p)
      (hfin : p.finished = true) (hpath : config.reportPath = some path)
      (hfs : (Harness.report suites p.board).writeDocument path p.shared.files = .ok fs) :
      Moment c texts m { p.shared with files := fs } (Harness.report suites p.board).render

/-- Each moment of a session that is ready is one of those that there can be. -/
theorem moment_of_sessionOf
    (hready : Ready c texts m config suites)
    (h : v ∈ (sessionOf c order config suites).visited ⟨m, "", ""⟩) :
    Moment c texts m v.machine v.stdout := by
  rw [sessionOf] at h
  split at h
  · obtain rfl := List.mem_singleton.1 h
    exact .before
  rw [Task.visited_look_bind] at h
  rcases List.mem_cons.1 h with rfl | h
  · exact .before
  rcases Task.mem_visited_bind h with h | ⟨r, hr, h⟩
  · obtain ⟨q, hq, rfl⟩ := mem_visited_runPool rfl h
    exact .during hready hq
  -- the report is that of a pool that has finished
  rw [run_runPool rfl] at hr h
  have hp := Pool.reachable_play ((Harness.ofConfig c.host config).pool c.ids suites m) order
  dsimp only at hr h
  split at hr
  next hfin =>
    obtain rfl := Option.some.inj hr
    rcases mem_visited_conclude h with rfl | ⟨hout, hm⟩
    · exact .during hready hp
    · rw [String.empty_append] at hout
      rcases hm with hm | ⟨path, fs, hpath, hfs, hm⟩
      · rw [hout, hm]
        exact .printed hready hp hfin
      · rw [hout, hm]
        exact .written hready hp hfin hpath hfs
  next => cases hr

/-- At a root nothing changes until the configuration and the suites are known. -/
theorem mem_visited_sessionAt (h : v ∈ (sessionAt c order root).visited ⟨m, "", ""⟩) :
    (v.machine = m ∧ v.stdout = "") ∨
      ∃ config suites, prepare c root m.files = .ok (config, suites) ∧
        v ∈ (sessionOf c order config suites).visited ⟨m, "", ""⟩ := by
  rw [sessionAt, Task.visited_look_bind] at h
  rcases List.mem_cons.1 h with rfl | h
  · exact .inl ⟨rfl, rfl⟩
  dsimp only at h
  cases hp : prepare c root m.files with
  | error why =>
    rw [hp] at h
    exact .inl (mem_visited_giveUp h)
  | ok ready =>
    rw [hp] at h
    exact .inr ⟨ready.1, ready.2, rfl, h⟩

/-- Whatever is seen of a session, either nothing has happened yet or the run may go ahead. -/
theorem mem_visited_session (hargs : args.mapM Text.Utf8.decode? = some texts)
    (h : v ∈ (session c order args).visited ⟨m, "", ""⟩) :
    (v.machine = m ∧ v.stdout = "") ∨ AskForRun texts ∧
      ∃ config suites, Ready c texts m config suites ∧
        v ∈ (sessionOf c order config suites).visited ⟨m, "", ""⟩ := by
  by_cases hask : AskForRun texts
  · rw [session_of_askForRun hargs hask, Task.visited_look_bind] at h
    rcases List.mem_cons.1 h with rfl | h
    · exact .inl ⟨rfl, rfl⟩
    dsimp only at h
    cases hr : rootOf m.files texts with
    | error why =>
      rw [hr] at h
      exact .inl (mem_visited_giveUp h)
    | ok root =>
      rw [hr] at h
      refine (mem_visited_sessionAt h).imp_right ?_
      rintro ⟨config, suites, hp, h⟩
      exact ⟨hask, config, suites, ⟨root, hr, hp⟩, h⟩
  · rw [session, hargs] at h
    dsimp only at h
    rw [if_pos (asksForHelp_iff.2 hask)] at h
    exact .inl (mem_visited_giveUp h)

/-- Each moment of a session is one of those that there can be. -/
theorem moment_of_session (hargs : args.mapM Text.Utf8.decode? = some texts)
    (h : v ∈ (session c order args).visited ⟨m, "", ""⟩) :
    Moment c texts m v.machine v.stdout := by
  rcases mem_visited_session hargs h with ⟨hm, hs⟩ | ⟨-, config, suites, hready, h⟩
  · rw [hm, hs]
    exact .before
  · exact moment_of_sessionOf hready h

/-- A failure before the run leaves the machine as it is all along, and nothing is printed. -/
theorem untouched_of_failsEarly {said : String}
    (hargs : args.mapM Text.Utf8.decode? = some texts) (h : FailsEarly c texts m said)
    (hv : v ∈ (session c order args).visited ⟨m, "", ""⟩) : v.machine = m ∧ v.stdout = "" := by
  rcases mem_visited_session hargs hv with hv | ⟨hask, config, suites, ⟨root, hr, hready⟩, -⟩
  · exact hv
  · rcases failsEarly_iff.1 h with ⟨hhelp, -⟩ | ⟨-, why, hr', -⟩ | ⟨-, root', why, hr', hp, -⟩
    · exact absurd hask hhelp
    · cases hr.symm.trans hr'
    · cases hr.symm.trans hr'
      cases hp.symm.trans hready

/-! ### A report that cannot be written -/

/-- The same command without a document ends by the verdict of the same report. -/
theorem runAt_without_document {c' : Call} {r : RunReport} {m' : Machine}
    (hready : prepare c root m.files = .ok (config, suites))
    (hr : (Harness.ofConfig c.host config).run c.ids c.schedule suites m = some (r, m'))
    (hhost : c'.host = c.host) (hids : c'.ids = c.ids) (hschedule : c'.schedule = c.schedule)
    (hl : Config.load m.files c'.env c'.cores root = .ok { config with reportPath := none }) :
    runAt c' root m = (⟨r.exitCode, r.render, ""⟩, m') := by
  obtain ⟨-, hv, hd⟩ := prepare_eq_ok.1 hready
  have hready' : prepare c' root m.files = .ok ({ config with reportPath := none }, suites) :=
    prepare_eq_ok.2 ⟨hl, hv, hd⟩
  have hr' : (Harness.ofConfig c'.host { config with reportPath := none }).run c'.ids c'.schedule
      suites m = some (r, m') := by
    rw [hhost, hids, hschedule]
    exact hr
  rw [runAt, hready']
  simp only [hr']
  rfl

/-- If the document cannot be written, the report has been printed and the code is one. -/
theorem runAt_of_unwritable {r : RunReport} {m' : Machine} {path : Path} {why : Error}
    (hready : prepare c root m.files = .ok (config, suites))
    (hr : (Harness.ofConfig c.host config).run c.ids c.schedule suites m = some (r, m'))
    (hpath : config.reportPath = some path)
    (hw : r.writeDocument path m'.files = .error why) :
    runAt c root m = (⟨1, r.render, failure why⟩, m') := by
  rw [runAt, hready]
  simp only [hr, hpath, publish, hw]
  rfl

/-- For every call, all arguments and every machine, under every order of events:

* the command comes to what one order makes of its steps;
* with an argument that is no text it breaks off at once;
* with arguments that are texts, a failure of the usage check, of finding the working directory, of
  loading, of validation or of discovery ends it with one, and at no time is anything printed on
  standard output, any program started or any file changed;
* whatever is seen of it is one of the moments: once a document is there all fixtures have finished
  and their report is printed;
* a report that cannot be written ends it with one and a complaint, and what it prints and leaves is
  what it prints and leaves when no document is wanted. -/
theorem effects_in_order (c : Call) (args : List Bytes) (m : Machine) :
    (∃ order, ended ((session c order args).run ⟨m, "", ""⟩) = run c args m) ∧
    (args.mapM Text.Utf8.decode? = none → run c args m = (⟨brokenOff, "", ""⟩, m) ∧
      ∀ order, ∀ w ∈ (session c order args).visited ⟨m, "", ""⟩, w.machine = m ∧ w.stdout = "") ∧
    ∀ texts, args.mapM Text.Utf8.decode? = some texts →
      (∀ said, FailsEarly c texts m said → run c args m = (⟨1, "", said⟩, m) ∧
        ∀ order, ∀ w ∈ (session c order args).visited ⟨m, "", ""⟩,
          w.machine = m ∧ w.stdout = "") ∧
      (∀ order, ∀ w ∈ (session c order args).visited ⟨m, "", ""⟩,
        Moment c texts m w.machine w.stdout) ∧
      ∀ root config suites r m' path why, AskForRun texts → rootOf m.files texts = .ok root →
        prepare c root m.files = .ok (config, suites) →
        (Harness.ofConfig c.host config).run c.ids c.schedule suites m = some (r, m') →
        config.reportPath = some path → r.writeDocument path m'.files = .error why →
        run c args m = (⟨1, r.render, failure why⟩, m') ∧
        ∀ c' : Call, c'.host = c.host → c'.ids = c.ids → c'.schedule = c.schedule →
          Config.load m.files c'.env c'.cores root = .ok { config with reportPath := none } →
          run c' args m = (⟨r.exitCode, r.render, ""⟩, m') := by
  refine ⟨exists_session c args m, fun hargs => ⟨?_, fun order w hw => ?_⟩, fun texts hargs =>
    ⟨fun said h => ⟨run_of_failsEarly hargs h, fun order w => untouched_of_failsEarly hargs h⟩,
      fun order w => moment_of_session hargs, ?_⟩⟩
  · rw [run, hargs]
  · rw [session, hargs] at hw
    obtain rfl := List.mem_singleton.1 hw
    exact ⟨rfl, rfl⟩
  · intro root config suites r m' path why hask hroot hready hr hpath hw
    refine ⟨?_, fun c' hhost hids hschedule hl => ?_⟩
    · rw [run_of_askForRun hargs hask hroot]
      exact runAt_of_unwritable hready hr hpath hw
    · rw [run_of_askForRun hargs hask hroot]
      exact runAt_without_document hready hr hhost hids hschedule hl

end

namespace Unwritten

/-- A call on a host without programs, that wants a document or none. -/
def call (document : Option String) : Call where
  host := ⟨[], .ofString "/tmp", [], fun fs _ _ => ⟨[], [], .ok none, fs, []⟩⟩
  env := fun name => if name = "HARNESS_REPORT" then document else none
  cores := none
  program := "assay"
  ids := Scratch.idOf

/-- A machine with an empty tree. -/
def machine : Machine := ⟨.empty, [], []⟩

/-- A document in a directory that is not there. -/
def config : Config :=
  { Config.default none (.ofString "/") with reportPath := some (.ofString "/none/report.json") }

end Unwritten

/-- On an empty tree a report that cannot be written changes zero into one, and a root that is not
there ends the command before anything is printed. -/
theorem effects_on_empty_tree :
    (∃ why, run (Unwritten.call (some "/none/report.json")) [[0x2F]] Unwritten.machine =
        (⟨1, (⟨[], .zero⟩ : RunReport).render, failure why⟩, Unwritten.machine)) ∧
      run (Unwritten.call none) [[0x2F]] Unwritten.machine =
        (⟨0, (⟨[], .zero⟩ : RunReport).render, ""⟩, Unwritten.machine) ∧
      ∃ said, run (Unwritten.call none) [[0x78]] Unwritten.machine =
        (⟨1, "", said⟩, Unwritten.machine) := by
  have hargs : [[0x2F]].mapM Text.Utf8.decode? = some ["/"] := by decide
  have hask : AskForRun ["/"] := ⟨Nat.le_refl 1, by decide⟩
  have hready : prepare (Unwritten.call (some "/none/report.json")) (.ofString "/")
      Unwritten.machine.files = .ok (Unwritten.config, []) :=
    prepare_eq_ok.2 ⟨rfl, by decide, by decide +kernel⟩
  obtain ⟨-, -, hall⟩ := effects_in_order (Unwritten.call (some "/none/report.json")) [[0x2F]]
    Unwritten.machine
  obtain ⟨-, -, hunwritten⟩ := hall ["/"] hargs
  obtain ⟨hrun, hwithout⟩ := hunwritten (.ofString "/") Unwritten.config [] ⟨[], .zero⟩
    Unwritten.machine (.ofString "/none/report.json") _ hask rfl hready rfl rfl rfl
  refine ⟨⟨_, hrun⟩, hwithout (Unwritten.call none) rfl rfl rfl rfl, ?_⟩
  have hlost : [[0x78]].mapM Text.Utf8.decode? = some ["x"] := by decide
  obtain ⟨-, -, hall⟩ := effects_in_order (Unwritten.call none) [[0x78]] Unwritten.machine
  obtain ⟨hearly, -, -⟩ := hall ["x"] hlost
  exact ⟨_, (hearly _ (.validation ⟨Nat.le_refl 1, by decide⟩ rfl rfl (by decide))).1⟩

/-- Two arguments, the first with a hyphen, do not end the command with one if the second is no
text. -/
theorem code_of_unreadable_help :
    1 < [[0x2D, 0x78], [0xFF]].length ∧
      (∃ a ∈ [[0x2D, 0x78], [0xFF]], a.head? = some (0x2D : UInt8)) ∧
      (run (Unwritten.call none) [[0x2D, 0x78], [0xFF]] Unwritten.machine).1.code ≠ 1 := by
  refine ⟨by decide, ⟨[0x2D, 0x78], by decide, rfl⟩, by decide⟩

end Command

end Assay
