import Assay.Proofs.Run.Trials
import Assay.Proofs.Scratch.Operations

/-!
# Run — what the cycle of a fixture amounts to

The result of a cycle with a toolchain follows from the command lines that it runs and from whether
the scratch directory can be made and removed (`cycle_eq_reference`): the first stage that does not
succeed is the only reason of a failure, and if all succeed the program is run once and judged. A
failure to remove the directory after the program comes behind all other reasons.
-/

namespace Assay

/-! ### The parts of a cycle -/

/-- A scratch directory that is still there is removed once, and once more if that fails. -/
theorem Artifact.run_release {a : Artifact} (h : a.scratch.removed = false) (m : Machine) :
    a.release.run m =
      match m.removeTree a.scratch.path with
      | (.ok (), m')     => (some (.ok ()), m')
      | (.error why, m') =>
        if why = .os .notFound then (some (.ok ()), m')
        else (some (.error (.file why)), a.scratch.drop m') := by
  rw [release, Task.run_bind, Task.run_act, Scratch.cleanup_eq h]
  cases m.removeTree a.scratch.path with
  | mk outcome m' =>
    cases outcome with
    | ok _ => rfl
    | error why =>
      by_cases hwhy : why = .os .notFound
      · simp only [if_pos hwhy]
        rfl
      · simp only [if_neg hwhy, h]
        rfl

/-- The build of a toolchain ends with the reason for its first command line that does not succeed,
and the scratch directory dropped, or with the program of the last. -/
theorem Toolchain.run_build (host : Host) (t : Toolchain) (limit : Duration) (f : Fixture)
    (s : Scratch) (m : Machine) :
    ∃ ts m', Trials host
        (Build.commands t limit s [.translate, .codegen, .link] f.source) m ts m' ∧
      ((t.pipeline host limit).build f s).run m =
        match Build.blame limit [.translate, .codegen, .link] ts with
        | some r => (some (.error r), s.drop m')
        | none   => (some (.ok ⟨s, s.file "program"⟩), m') := by
  obtain ⟨ts, m', hts, hrun⟩ :=
    Build.run_stages host limit t s [.translate, .codegen, .link] f.source m
  refine ⟨ts, m', hts, ?_⟩
  show (Build.stages host t limit s [.translate, .codegen, .link] f.source >>= _).run m = _
  rw [Task.run_bind, hrun]
  cases Build.blame limit [.translate, .codegen, .link] ts with
  | some r => rfl
  | none => rfl

namespace Harness

/-- The reasons for a program that was run, judged by the files that there are then. -/
def judge (limit : Duration) (f : Fixture) (fs : FileSystem) : Except Error Finish → List Reason
  | .error why          => [.launch why.message]
  | .ok (.timedOut _)   => [.timedOut limit]
  | .ok (.completed o)  => f.check fs o

/-- What a program that ended by itself wrote on standard error. -/
def diagnostics : Except Error Finish → String
  | .ok (.completed o) => o.stderrText
  | _                  => ""

theorem run_execute (host : Host) (limit : Duration) (a : Artifact) (f : Fixture) {m m' : Machine}
    {fared : Except Error Finish}
    (h : (⟨a.binary, []⟩ : Invocation).run host limit m = (fared, m')) :
    (execute host limit a f).run m =
      (some ⟨.ofReasons (judge limit f m'.files fared), diagnostics fared⟩, m') := by
  rw [execute, Task.run_bind, Task.run_act, h]
  cases fared with
  | error why => rfl
  | ok finish =>
    cases finish with
    | timedOut after => rw [Invocation.run_timedOut h]; rfl
    | completed o => rfl

/-- A program that was built is run, judged, and removed with its directory. -/
theorem run_conclude (h : Harness) {a : Artifact} (ha : a.scratch.removed = false) (f : Fixture)
    {m m' : Machine} {fared : Except Error Finish}
    (hrun : (⟨a.binary, []⟩ : Invocation).run h.host h.config.limits.run m = (fared, m')) :
    (h.conclude a f).run m =
      let reasons := judge h.config.limits.run f m'.files fared
      match m'.removeTree a.scratch.path with
      | (.ok (), m'')     => (some ⟨.ofReasons reasons, diagnostics fared⟩, m'')
      | (.error why, m'') =>
        if why = .os .notFound then (some ⟨.ofReasons reasons, diagnostics fared⟩, m'')
        else
          (some ⟨.failed (reasons ++ [.cleanup (Error.file why).message]), diagnostics fared⟩,
            a.scratch.drop m'') := by
  rw [conclude, Task.run_bind, run_execute _ _ _ _ hrun]
  simp only
  rw [Task.run_bind, Artifact.run_release ha]
  cases m'.removeTree a.scratch.path with
  | mk outcome m'' =>
    cases outcome with
    | ok _ => rfl
    | error why =>
      by_cases hwhy : why = .os .notFound
      · simp only [if_pos hwhy]
        rfl
      · simp only [if_neg hwhy]
        cases judge h.config.limits.run f m'.files fared <;> rfl

/-- The result and the machine after a cycle that has made its scratch directory, from the command
lines that it ran and the machine after them. -/
def reference (c : Config) (suite : String) (f : Fixture) (s : Scratch) (ts : List Trial)
    (m : Machine) : Option FixtureResult × Machine :=
  let result (o : Outcome) (stderr : String) : Option FixtureResult :=
    some ⟨suite, f.identifier, o, .zero, stderr⟩
  match ts with
  | [t]          => (result (.failed [Build.reason c.limits.stage .translate t.fared]) "", s.drop m)
  | [_, t]       => (result (.failed [Build.reason c.limits.stage .codegen t.fared]) "", s.drop m)
  | [_, _, t]    => (result (.failed [Build.reason c.limits.stage .link t.fared]) "", s.drop m)
  | [_, _, _, t] =>
    let reasons := judge c.limits.run f m.files t.fared
    match m.removeTree s.path with
    | (.ok (), m')     => (result (.ofReasons reasons) (diagnostics t.fared), m')
    | (.error why, m') =>
      if why = .os .notFound then (result (.ofReasons reasons) (diagnostics t.fared), m')
      else
        (result (.failed (reasons ++ [.cleanup (Error.file why).message])) (diagnostics t.fared),
          s.drop m')
  | _ => (none, m)

section

variable {h : Harness} {id suite : String} {f : Fixture} {s : Scratch} {m m₁ m₂ : Machine}

/-- Without a scratch directory nothing is run. -/
theorem run_cycle_of_setup {why : Error}
    (hc : Scratch.create (h.config.scratchBase h.host.tempDir) (label suite f) id m =
      (.error why, m₁)) :
    (h.cycle id suite f).run m =
      (some ⟨suite, f.identifier, .failed [.setup why.message], .zero, ""⟩, m₁) := by
  rw [cycle, Task.run_bind, Task.run_act, hc]
  rfl

theorem run_cycle_of_failed {r : Reason}
    (hc : Scratch.create (h.config.scratchBase h.host.tempDir) (label suite f) id m = (.ok s, m₁))
    (hb : (h.pipeline.build f s).run m₁ = (some (.error r), m₂)) :
    (h.cycle id suite f).run m =
      (some ⟨suite, f.identifier, .failed [r], .zero, ""⟩, m₂) := by
  rw [cycle, Task.run_bind, Task.run_act, hc]
  simp only
  rw [Task.run_bind, hb]
  rfl

theorem run_cycle_of_built {a : Artifact}
    (hc : Scratch.create (h.config.scratchBase h.host.tempDir) (label suite f) id m = (.ok s, m₁))
    (hb : (h.pipeline.build f s).run m₁ = (some (.ok a), m₂)) :
    (h.cycle id suite f).run m =
      (((h.conclude a f).run m₂).1.map fun e =>
        ⟨suite, f.identifier, e.outcome, .zero, e.stderr⟩, ((h.conclude a f).run m₂).2) := by
  rw [cycle, Task.run_bind, Task.run_act, hc]
  simp only
  rw [Task.run_bind, hb]
  exact Task.run_map _ _ _

end

/-- A cycle that has made its scratch directory runs its plan and then has the result of that. -/
theorem run_cycle {host : Host} {c : Config} {id suite : String} {f : Fixture} {s : Scratch}
    {m m₁ : Machine}
    (hc : Scratch.create (c.scratchBase host.tempDir) (label suite f) id m = (.ok s, m₁)) :
    ∃ ts m₂, Trials host (plan c s f) m₁ ts m₂ ∧
      ((ofConfig host c).cycle id suite f).run m = reference c suite f s ts m₂ := by
  obtain ⟨ts, m', hts, hbuild⟩ := c.toolchain.run_build host c.limits.stage f s m₁
  -- the build stops at the first, the second or the third stage, or comes to its end
  obtain ⟨t₁, n₁, ts₁, -, rfl, ⟨h₁, rfl, rfl⟩ | ⟨h₁, hts₁⟩⟩ := hts.cons_inv
  · refine ⟨[t₁], m', plan_eq c s f ▸ hts.stopped ⟨t₁, by simp, h₁⟩ _, ?_⟩
    simp only [Build.blame, h₁] at hbuild
    exact run_cycle_of_failed hc hbuild
  obtain ⟨t₂, n₂, ts₂, -, rfl, ⟨h₂, rfl, rfl⟩ | ⟨h₂, hts₂⟩⟩ := hts₁.cons_inv
  · refine ⟨[t₁, t₂], m', plan_eq c s f ▸ hts.stopped ⟨t₂, by simp, h₂⟩ _, ?_⟩
    simp only [Build.blame, h₁, h₂] at hbuild
    exact run_cycle_of_failed hc hbuild
  obtain ⟨t₃, n₃, ts₃, -, rfl, ⟨h₃, rfl, rfl⟩ | ⟨h₃, hts₃⟩⟩ := hts₂.cons_inv
  · refine ⟨[t₁, t₂, t₃], m', plan_eq c s f ▸ hts.stopped ⟨t₃, by simp, h₃⟩ _, ?_⟩
    simp only [Build.blame, h₁, h₂, h₃] at hbuild
    exact run_cycle_of_failed hc hbuild
  cases hts₃
  simp only [Build.blame, h₁, h₂, h₃] at hbuild
  obtain ⟨fared, m₂, hrun⟩ : ∃ fared m₂,
      (⟨s.file "program", []⟩ : Invocation).run host c.limits.run m' = (fared, m₂) := ⟨_, _, rfl⟩
  have hall : ∀ t ∈ [t₁, t₂, t₃], t.succeeded = true := by simp [h₁, h₂, h₃]
  have hlast := Trials.last (Invocation.run_eq_iff.1 hrun)
  refine ⟨[t₁, t₂, t₃, _], m₂, plan_eq c s f ▸ hts.append hall hlast, ?_⟩
  have hs : s.removed = false := by rw [Scratch.eq_of_create hc]
  have hconclude := run_conclude (ofConfig host c) (a := ⟨s, s.file "program"⟩) hs f hrun
  rw [run_cycle_of_built hc hbuild, hconclude]
  simp only [reference]
  cases m₂.removeTree s.path with
  | mk outcome m₃ =>
    cases outcome with
    | ok _ => rfl
    | error why =>
      by_cases hwhy : why = .os .notFound
      · simp only [if_pos hwhy]
        rfl
      · simp only [if_neg hwhy]
        rfl

/-- A cycle tries one command line at least and four at most. -/
theorem trials_cases {host : Host} {c : Config} {f : Fixture} {s : Scratch} {m m' : Machine}
    {ts : List Trial} (hts : Trials host (plan c s f) m ts m') :
    (∃ a, ts = [a]) ∨ (∃ a b, ts = [a, b]) ∨ (∃ a b c, ts = [a, b, c]) ∨
      ∃ a b c d, ts = [a, b, c, d] := by
  have hpos : 0 < ts.length := (hts.next_iff (k := 0) (Nat.succ_pos _)).2 fun t ht => nomatch ht
  have hlen : ts.length ≤ 4 := List.length_map Trial.command ▸ hts.along.length_le
  rcases ts with _ | ⟨a, _ | ⟨b, _ | ⟨c, _ | ⟨d, _ | ⟨e, l⟩⟩⟩⟩⟩
  · cases hpos
  · exact .inl ⟨a, rfl⟩
  · exact .inr (.inl ⟨a, b, rfl⟩)
  · exact .inr (.inr (.inl ⟨a, b, c, rfl⟩))
  · exact .inr (.inr (.inr ⟨a, b, c, d, rfl⟩))
  · simp only [List.length_cons] at hlen
    omega

/-- A cycle that has made its scratch directory has a result. -/
theorem exists_reference {host : Host} {c : Config} {f : Fixture} {s : Scratch} {m m' : Machine}
    {ts : List Trial} (hts : Trials host (plan c s f) m ts m') (suite : String) :
    ∃ r m'', reference c suite f s ts m' = (some r, m'') := by
  obtain ⟨t₁, rfl⟩ | ⟨t₁, t₂, rfl⟩ | ⟨t₁, t₂, t₃, rfl⟩ | ⟨t₁, t₂, t₃, t₄, rfl⟩ := trials_cases hts
  · exact ⟨_, _, rfl⟩
  · exact ⟨_, _, rfl⟩
  · exact ⟨_, _, rfl⟩
  · rw [reference]
    simp only
    split
    · exact ⟨_, _, rfl⟩
    · split
      · exact ⟨_, _, rfl⟩
      · exact ⟨_, _, rfl⟩

/-- To conclude a cycle starts no program. -/
theorem started_reference (c : Config) (suite : String) (f : Fixture) (s : Scratch)
    (ts : List Trial) (m : Machine) : (reference c suite f s ts m).2.started = m.started := by
  unfold reference
  simp only
  split
  · exact s.started_drop m
  · exact s.started_drop m
  · exact s.started_drop m
  · have hremove := m.started_removeTree s.path
    split
    next h => rw [h] at hremove; exact hremove
    next h =>
      rw [h] at hremove
      split
      · exact hremove
      · exact (s.started_drop _).trans hremove
  · rfl

/-- The cycle of a fixture with a toolchain, for every host and so for whatever its programs do:

* if the scratch directory cannot be made, that is the only reason and no program is started;
* otherwise the command lines that are run are the beginning of the plan, each of them run exactly
  if all before it have ended with code zero, and nothing is started but by them; there is a result,
  and it is that of the reference definition.

Each trial says how its command line fared: by what the host finds for it, and by what the program
does in the time that it has (`Fares`). -/
theorem cycle_eq_reference (host : Host) (c : Config) (id suite : String) (f : Fixture)
    (m : Machine) :
    match Scratch.create (c.scratchBase host.tempDir) (label suite f) id m with
    | (.error why, m₁) =>
      ((ofConfig host c).cycle id suite f).run m =
        (some ⟨suite, f.identifier, .failed [.setup why.message], .zero, ""⟩, m₁) ∧
      m₁.started = m.started
    | (.ok s, m₁) =>
      m₁.started = m.started ∧
      ∃ ts m₂, Trials host (plan c s f) m₁ ts m₂ ∧
        ts.map Trial.command <+: plan c s f ∧
        (∀ k < 4, k < ts.length ↔ ∀ t ∈ ts.take k, t.succeeded = true) ∧
        ((ofConfig host c).cycle id suite f).run m = reference c suite f s ts m₂ ∧
        (∃ r, (((ofConfig host c).cycle id suite f).run m).1 = some r) ∧
        (((ofConfig host c).cycle id suite f).run m).2.started = m₂.started := by
  have hstarted := Scratch.started_create (c.scratchBase host.tempDir) (label suite f) id m
  split
  next why m₁ hc =>
    rw [hc] at hstarted
    exact ⟨run_cycle_of_setup (h := ofConfig host c) hc, hstarted⟩
  next s m₁ hc =>
    rw [hc] at hstarted
    obtain ⟨ts, m₂, hts, hrun⟩ := run_cycle hc
    refine ⟨hstarted, ts, m₂, hts, hts.along, fun k hk => hts.next_iff hk, hrun, ?_, ?_⟩
    · obtain ⟨r, m', hr⟩ := exists_reference hts suite
      exact ⟨r, congrArg Prod.fst (hrun.trans hr)⟩
    · rw [hrun]
      exact started_reference c suite f s ts m₂

end Harness

end Assay
