import Assay.Proofs.FileSystem.Lookup
import Assay.Proofs.Run.Reference
import Assay.Proofs.Run.Results

/-!
# Run — scratch directories that survive

A scratch directory that is still there after the cycle of its fixture is reported exactly if the
build has come to its end and the first removal has not found the directory gone
(`survivor_reported_iff`). After a stage that did not succeed nobody hears of it
(`survivor_unreported`).
-/

namespace Assay

/-- A tree that has been removed is found no more. -/
theorem Machine.lookup_removeTree {p : Path} {m m' : Machine}
    (h : m.removeTree p = (.ok (), m')) : (m'.files.lookup false p).isOk = false := by
  have hattempt : ∀ n : Machine, n.attempt (·.removeTree p) = (.ok (), m') →
      (m'.files.lookup false p).isOk = false := fun n hn => by
    rw [attempt] at hn
    cases hr : n.files.removeTree p with
    | error why => rw [hr] at hn; cases hn
    | ok fs => rw [hr] at hn; cases hn; exact FileSystem.lookup_removeTree hr
  rw [removeTree] at h
  split at h
  · cases h
  · exact hattempt _ h
  · exact hattempt _ h

/-- Whether a reason says that a scratch directory could not be removed. -/
def Outcome.SaysCleanup (o : Outcome) : Prop := ∃ message, Reason.cleanup message ∈ o.reasons

namespace Harness

theorem cleanup_notMem_judge {limit : Duration} {f : Fixture} {fs : FileSystem}
    {fared : Except Error Finish} (message : String) :
    Reason.cleanup message ∉ judge limit f fs fared := by
  intro h
  cases fared with
  | error why => simp [judge] at h
  | ok finish =>
    cases finish with
    | timedOut after => simp [judge] at h
    | completed o => obtain ⟨_, h⟩ | ⟨_, _, h⟩ | ⟨_, _, h⟩ := Check.mem_output h <;> cases h

theorem cleanup_ne_reason {limit : Duration} {stage : Stage} {fared : Except Error Finish}
    (message : String) : Build.reason limit stage fared ≠ .cleanup message := by
  cases fared with
  | error why => exact nofun
  | ok finish => cases finish <;> exact nofun

variable {c : Config} {suite : String} {f : Fixture} {s : Scratch} {m m' : Machine}
  {r : FixtureResult}

/-- A build that comes to no end has its one reason and no other. -/
theorem not_saysCleanup_of_build (limit : Duration) (stage : Stage) (fared : Except Error Finish) :
    ¬ (Outcome.failed [Build.reason limit stage fared]).SaysCleanup :=
  fun ⟨message, hm⟩ => cleanup_ne_reason message (List.mem_singleton.1 hm).symm

/-- If the program is not run, a directory that is still there is not reported, and some stage of
the build has not succeeded. -/
theorem saysCleanup_iff_of_build {ts : List Trial} {limit : Duration} {stage : Stage}
    {fared : Except Error Finish} {said gone : Prop}
    (hlast : 3 < ts.length ↔ ∀ t ∈ ts.take 3, t.succeeded = true) (hlen : ts.length ≤ 3) :
    said ∧ (Outcome.failed [Build.reason limit stage fared]).SaysCleanup ↔
      (∀ t ∈ ts.take 3, t.succeeded = true) ∧ gone := by
  refine iff_of_false (fun h => ?_) fun h => ?_
  · exact not_saysCleanup_of_build limit stage fared h.2
  · exact Nat.not_lt.2 hlen (hlast.2 h.1)

/-- After the program a directory that is still there is reported, unless the removal said that it
was gone. -/
theorem saysCleanup_iff_of_program {t₁ t₂ t₃ t₄ : Trial}
    (h : reference c suite f s [t₁, t₂, t₃, t₄] m = (some r, m'))
    (hs : (m'.files.lookup false s.path).isOk = true) :
    r.passed = false ∧ r.outcome.SaysCleanup ↔
      (m.removeTree s.path).1 ≠ .error (.os .notFound) := by
  rw [reference] at h
  simp only at h
  split at h
  next m'' hr =>
    obtain ⟨-, rfl⟩ := Prod.mk.inj h
    cases hs.symm.trans (Machine.lookup_removeTree hr)
  next why m'' hr =>
    split at h
    next hwhy =>
      obtain ⟨hresult, -⟩ := Prod.mk.inj h
      obtain rfl := Option.some.inj hresult
      have hno : ¬ (Outcome.ofReasons (judge c.limits.run f m.files t₄.fared)).SaysCleanup := by
        rintro ⟨message, hm⟩
        rw [Outcome.reasons_ofReasons] at hm
        exact cleanup_notMem_judge message hm
      refine iff_of_false (fun h => hno h.2) (fun hne => hne ?_)
      rw [hr, hwhy]
    next hwhy =>
      obtain ⟨hresult, -⟩ := Prod.mk.inj h
      obtain rfl := Option.some.inj hresult
      have hsays : (Outcome.failed (judge c.limits.run f m.files t₄.fared ++
          [.cleanup (Error.file why).message])).SaysCleanup :=
        ⟨(Error.file why).message, List.mem_append_right _ List.mem_cons_self⟩
      refine iff_of_true ⟨rfl, hsays⟩ fun he => hwhy ?_
      rw [hr] at he
      exact Except.error.inj he

/-- If something is still at the path of a scratch directory after the cycle of its fixture, then
the result is a failure with a cleanup among its reasons exactly if all stages of the build have
succeeded and the removal after the program did not fail because nothing was there. -/
theorem survivor_reported_iff (host : Host) (c : Config) (id suite : String) (f : Fixture)
    {s : Scratch} {m m₁ : Machine}
    (hc : Scratch.create (c.scratchBase host.tempDir) (label suite f) id m = (.ok s, m₁)) :
    ∃ ts m₂ r m', Trials host (plan c s f) m₁ ts m₂ ∧
      ((ofConfig host c).cycle id suite f).run m = (some r, m') ∧
      ((m'.files.lookup false s.path).isOk = true →
        (r.passed = false ∧ r.outcome.SaysCleanup ↔
          (∀ t ∈ ts.take 3, t.succeeded = true) ∧
            (m₂.removeTree s.path).1 ≠ .error (.os .notFound))) := by
  obtain ⟨ts, m₂, hts, hrun⟩ := run_cycle hc
  -- by the number of command lines that were run: the program is the fourth
  have hlast : 3 < ts.length ↔ ∀ t ∈ ts.take 3, t.succeeded = true :=
    hts.next_iff (Nat.lt_succ_self 3)
  obtain ⟨t₁, rfl⟩ | ⟨t₁, t₂, rfl⟩ | ⟨t₁, t₂, t₃, rfl⟩ | ⟨t₁, t₂, t₃, t₄, rfl⟩ := trials_cases hts
  · exact ⟨_, m₂, _, _, hts, hrun, fun _ => saysCleanup_iff_of_build hlast (by simp)⟩
  · exact ⟨_, m₂, _, _, hts, hrun, fun _ => saysCleanup_iff_of_build hlast (by simp)⟩
  · exact ⟨_, m₂, _, _, hts, hrun, fun _ => saysCleanup_iff_of_build hlast (by simp)⟩
  · obtain ⟨r, m', hr⟩ := exists_reference hts suite
    refine ⟨_, m₂, r, m', hts, hrun.trans hr, fun hs => ?_⟩
    rw [and_iff_right (hlast.1 (Nat.lt_succ_self 3))]
    exact saysCleanup_iff_of_program hr hs

namespace Replaced

def fixture : Fixture := ⟨.ofString "/v/001-x"⟩

def config : Config :=
  { root := .ofString "/v"
    toolchain := ⟨.bare (.ofString "/cc"), .bare (.ofString "/cc"), .bare (.ofString "/cc"), true⟩
    jobs := 1
    scratchDir := some (.ofString "/s") }

def scratch : Scratch := ⟨.ofString "/s/v-001-x-0", false⟩

/-- A tool that puts a file in the place of the scratch directory and ends with a code. -/
def host (code : Int) : Host where
  searchPath := []
  tempDir := .ofString "/tmp"
  environment := []
  act fs i _ :=
    let fs := (fs.removeTree scratch.path).toOption.getD fs
    ⟨[], [], .ok (some (.code code)), (fs.write scratch.path ⟨[], false⟩).toOption.getD fs, [i]⟩

/-- A machine with a file that can be started. -/
def machine : Machine where
  files := (FileSystem.empty.write (.ofString "/cc") ⟨Image.native "", true⟩).toOption.getD .empty

/-- What becomes of the fixture and of the machine. -/
def cycle (code : Int) : Option FixtureResult × Machine :=
  ((ofConfig (host code) config).cycle "0" "v" fixture).run machine

end Replaced

/-- A compiler that puts a file in the place of the scratch directory and fails: the file stays, and
the result does not say so. -/
theorem survivor_unreported :
    (Scratch.create (Replaced.config.scratchBase (Replaced.host 1).tempDir)
        (label "v" Replaced.fixture) "0" Replaced.machine).1 = .ok Replaced.scratch ∧
      ((Replaced.cycle 1).2.files.lookup false Replaced.scratch.path).isOk = true ∧
      ∃ r, (Replaced.cycle 1).1 = some r ∧ ¬ r.outcome.SaysCleanup := by
  refine ⟨rfl, rfl, _, rfl, ?_⟩
  rintro ⟨message, hm⟩
  cases List.mem_singleton.1 hm

/-- If the same tool succeeds, the file is reported. -/
theorem survivor_reported_behind_launch :
    ((Replaced.cycle 0).2.files.lookup false Replaced.scratch.path).isOk = true ∧
      ∃ ts m₁ m₂, Trials (Replaced.host 0) (plan Replaced.config Replaced.scratch Replaced.fixture)
          m₁ ts m₂ ∧
        (∀ t ∈ ts.take 3, t.succeeded = true) ∧
        (m₂.removeTree Replaced.scratch.path).1 ≠ .error (.os .notFound) := by
  have hsurvives :
      ((Replaced.cycle 0).2.files.lookup false Replaced.scratch.path).isOk = true := rfl
  have hc : Scratch.create (Replaced.config.scratchBase (Replaced.host 0).tempDir)
      (label "v" Replaced.fixture) "0" Replaced.machine = (.ok Replaced.scratch, _) :=
    Prod.ext rfl rfl
  obtain ⟨ts, m₂, r, m', hts, hrun, hiff⟩ := survivor_reported_iff _ _ _ _ _ hc
  have hresult : (Replaced.cycle 0).1 = some r := congrArg Prod.fst hrun
  have hmachine : (Replaced.cycle 0).2 = m' := congrArg Prod.snd hrun
  rw [hmachine] at hsurvives
  obtain rfl := Option.some.inj hresult
  obtain ⟨hall, hremove⟩ := (hiff hsurvives).1 ⟨rfl, _, .tail _ (.head _)⟩
  exact ⟨rfl, ts, _, m₂, hts, hall, hremove⟩

end Harness

end Assay
