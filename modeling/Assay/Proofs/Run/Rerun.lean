import Assay.Proofs.Discovery.Added
import Assay.Proofs.Run.Interleaving

/-!
# Run — to run everything again

A run leaves the machine as it was once the directories above the scratch directories were made
(`like_of_finished`). So discovery and a run after it find and report what they would have found and
reported instead of the first exactly if discovery overlooks these (`sweep_again_iff`); a directory
among them that has the name of a fixture is taken for one (`sweep_finds_scratch`).
-/

namespace Assay

open Discovery (Overlooks)

namespace Harness

/-- Discovery, and a run of what was found. -/
def sweep (h : Harness) (ids : Nat → String) (schedule : List Pool.Event) (m : Machine) :
    Option (Except Error (List Suite × RunReport) × Machine) :=
  match discover m.files h.config.root with
  | .error why => some (.error why, m)
  | .ok suites =>
    match h.run ids schedule suites m with
    | none        => none
    | some (r, m) => some (.ok (suites, r), m)

theorem discover_of_sweep {h : Harness} {ids : Nat → String} {schedule : List Pool.Event}
    {m m' : Machine} {suites : List Suite} {r : RunReport}
    (hs : h.sweep ids schedule m = some (.ok (suites, r), m')) :
    discover m.files h.config.root = .ok suites := by
  rw [sweep] at hs
  split at hs
  next => cases hs
  next hd =>
    split at hs
    next => cases hs
    next =>
      cases hs
      exact hd

section

variable {host : Host} {c : Config} {ids : Nat → String} {suites : List Suite} {m m₁ : Machine}
  {alike frame : Nat → Machine → Machine → Prop}

/-- At the end of a run of some jobs the machine is as it was when all cycles could begin. -/
theorem like_of_finished {h : Harness} (hP : Partition (h.tasks ids suites) m₁ alike frame)
    (hstart : ∀ t ∈ h.tasks ids suites, t.StartsAlike m m₁) (hjobs : jobs suites ≠ [])
    {p : Pool Machine FixtureResult} (hp : Pool.Uncut (h.pool ids suites m) p)
    (hfin : p.finished = true) : p.shared.Like m₁ := by
  obtain ⟨hends, hkeeps⟩ := Pool.sent_of_finished hP.isolation (fresh_pool h ids suites m) hstart
    hP.like_self hp hfin
  -- all that was done was within the frame of some task, and each task ended where it does alone
  refine hP.restored _ ?_ fun n t ht => ?_
  · refine hkeeps (by simpa [pool] using hjobs)
      (Relation.ReflTransGen (fun g g' => ∃ n, frame n g g') m₁) ?_ .refl
    exact fun n g g' hframe hg => hg.tail ⟨n, hframe⟩
  · obtain ⟨j, hj, -⟩ := exists_job_of_task ht
    obtain ⟨f, hw⟩ := worker_of_job hp.reachable hj
    obtain ⟨t', ht', -, halike⟩ := hends n _ hw
    obtain rfl := Option.some.inj (ht.symm.trans ht')
    exact halike

/-- Suites with fixtures have jobs. -/
theorem jobs_ne_nil (hne : suites ≠ []) (hf : ∀ s ∈ suites, s.fixtures ≠ []) :
    jobs suites ≠ [] := by
  obtain ⟨s, ss, rfl⟩ := List.exists_cons_of_ne_nil hne
  obtain ⟨f, fs, hs⟩ := List.exists_cons_of_ne_nil (hf s List.mem_cons_self)
  have hjob : (jobs (s :: ss))[firstJob (s :: ss) 0 + 0]? = some ⟨⟨0, 0⟩, s.name, f⟩ :=
    getElem?_jobs rfl (congrArg (·[0]?) hs)
  exact fun hnil => by rw [hnil] at hjob; cases hjob

/-- On machines that the cycles cannot tell apart they come to the same apart. -/
theorem apart_congr {h : Harness} (hP : Partition (h.tasks ids suites) m₁ alike frame) {g : Machine}
    (hg : g.Like m₁) : h.apart ids suites g = h.apart ids suites m₁ := by
  refine congrArg (RunReport.mk · .zero) (List.ext_getElem? fun i => ?_)
  rw [getElem?_apartSuites, getElem?_apartSuites]
  cases hs : suites[i]? with
  | none => rfl
  | some s =>
    refine congrArg some (congrArg (SuiteReport.mk s.name) (List.ext_getElem? fun k => ?_))
    rw [List.getElem?_mapIdx, List.getElem?_mapIdx]
    cases hf : s.fixtures[k]? with
    | none => rfl
    | some f =>
      have htask : (h.tasks ids suites)[firstJob suites i + k]? =
          some (h.cycle (ids (firstJob suites i + k)) s.name f) := task_of_fixture hs hf
      have hrun := (hP.isolation.isolated _ _ htask).run (hP.like _ _ hg (.refl m₁) _)
      rw [Option.map_some, Option.map_some, Nat.zero_add, alone, alone, hrun.1]

/-- What is like a machine on which the directories above are made has the suites that there were
before exactly if discovery overlooks what was made. -/
theorem discover_like_iff (hd : discover m.files c.root = .ok suites) {g : Machine}
    (hg : g.Like (prepared host c m)) : discover g.files c.root = .ok suites ↔
      Overlooks c.root m.files (prepared host c m).files := by
  obtain ⟨hcwd, hget⟩ := FileSystem.agree_iff.1 hg.2
  have hwithin := (FileSystem.adds_of_makeDirs
    (Prod.ext rfl rfl : m.files.makeDirs (c.scratchBase host.tempDir) =
      (_, (prepared host c m).files))).1
  have hwithin' : m.files.Within g.files := by
    refine ⟨hwithin.cwd.trans hcwd.symm, fun l e he => ?_⟩
    rw [hget]
    exact hwithin.get? l e he
  refine (Discovery.discover_iff_overlooks hwithin' hd).trans
    (Discovery.overlooks_congr fun l => ?_)
  rw [FileSystem.isDirAt, FileSystem.isDirAt, hget]

/-- What a sweep comes to where discovery finds some suites. -/
theorem sweep_of_discovered (hI : Isolation ((ofConfig host c).tasks ids suites) alike frame)
    (hm : ∀ n, alike n m₁ m₁)
    (hstart : ∀ t ∈ (ofConfig host c).tasks ids suites, t.StartsAlike m m₁)
    (hjobs : c.jobs ≤ permitLimit) (hd : discover m.files c.root = .ok suites)
    {schedule : List Pool.Event} (hcut : ∀ e ∈ schedule, ¬ e.Cuts) :
    ∃ p, Pool.Uncut ((ofConfig host c).pool ids suites m) p ∧ p.finished = true ∧
      (ofConfig host c).sweep ids schedule m =
        some (.ok (suites, (ofConfig host c).apart ids suites m₁), p.shared) := by
  obtain ⟨m', hr⟩ := run_eq_apart hI hm hstart hjobs hcut
  obtain ⟨p, hp, hfin, -, rfl⟩ := uncut_of_run hcut hr
  have hroot : discover m.files (ofConfig host c).config.root = .ok suites := hd
  refine ⟨p, hp, hfin, ?_⟩
  rw [sweep, hroot]
  simp only [hr]

/-- With confined programs, secret ids and a scratch base that settles, a second sweep comes to what
the first would have come to with the ids and the schedule of the second, to the same error or to
the same suites and the same report, exactly if discovery overlooks the directories that are made
for the scratch base. If no fixture is discovered, then none are made. -/
theorem sweep_again_iff (hc : host.Confined) (c : Config) (hrefusals : m.refusals = [])
    (hjobs : c.jobs ≤ permitLimit) (hbase : m.files.Settles (c.scratchBase host.tempDir))
    {ids ids' : Nat → String}
    (hids : ∀ suites, discover m.files c.root = .ok suites → Secret ids hc c suites m.files)
    (hids' : ∀ suites, discover m.files c.root = .ok suites → Secret ids' hc c suites m.files)
    {schedule schedule' : List Pool.Event} (hcut : ∀ e ∈ schedule, ¬ e.Cuts)
    (hcut' : ∀ e ∈ schedule', ¬ e.Cuts) :
    ∃ a a' m' m₂, (ofConfig host c).sweep ids schedule m = some (a, m') ∧
      (ofConfig host c).sweep ids' schedule' m = some (a', m₂) ∧ (ids' = ids → a' = a) ∧
      ((∃ m₁, (ofConfig host c).sweep ids' schedule' m' = some (a', m₁)) ↔
        ∀ suites, discover m.files c.root = .ok suites → suites ≠ [] →
          Overlooks c.root m.files (prepared host c m).files) := by
  cases hd : discover m.files c.root with
  | error why =>
    have hroot : discover m.files (ofConfig host c).config.root = .error why := hd
    have hsweep : ∀ ids schedule, (ofConfig host c).sweep ids schedule m = some (.error why, m) :=
      fun ids schedule => by rw [sweep, hroot]
    exact ⟨_, _, m, m, hsweep ids schedule, hsweep ids' schedule', fun _ => rfl,
      iff_of_true ⟨m, hsweep ids' schedule'⟩ fun _ h => nomatch h⟩
  | ok suites =>
    obtain ⟨alike, frame, hP⟩ := exists_partition hrefusals (hids suites hd) hbase
    obtain ⟨alike', frame', hP'⟩ := exists_partition hrefusals (hids' suites hd) hbase
    obtain ⟨p, hp, hfin, hfirst⟩ := sweep_of_discovered hP.isolation hP.like_self
      (startsAlike_tasks hbase) hjobs hd hcut
    obtain ⟨p', -, -, hother⟩ := sweep_of_discovered hP'.isolation hP'.like_self
      (startsAlike_tasks hbase) hjobs hd hcut'
    refine ⟨_, _, _, _, hfirst, hother, fun h => h ▸ rfl, ?_⟩
    by_cases hnone : suites = []
    · -- without workers the second sweep finds the machine of the first
      have hsame : p.shared = m := hp.shared_of_nil (by rw [hnone]; rfl)
      rw [hsame]
      exact iff_of_true ⟨_, hother⟩ fun _ h hne => absurd (Except.ok.inj h ▸ hnone) hne
    have hlike := like_of_finished hP (startsAlike_tasks hbase)
      (jobs_ne_nil hnone (Discovery.inhabited_of_discover hd)) hp hfin
    constructor
    · rintro ⟨m₁, hagain⟩ _ _ -
      exact (discover_like_iff hd hlike).1 (discover_of_sweep hagain)
    · -- the second sweep starts where the directories above are made, and its cycles do too
      intro ho
      have hd' := (discover_like_iff hd hlike).2 (ho suites rfl hnone)
      obtain ⟨q, -, -, hq⟩ := sweep_of_discovered hP'.isolation (hP'.like _ _ hlike hlike)
        (startsAlike_self p.shared) hjobs hd' hcut'
      rw [apart_congr hP' hlike] at hq
      exact ⟨_, hq⟩

end

namespace Lone

/-- Tools that copy, and a scratch base that is made on demand. -/
def config (scratch : String) : Config :=
  { Abreast.config 1 with scratchDir := some (.ofString scratch) }

/-- One fixture and a tool. -/
def machine : Machine where
  files :=
    let fs := (FileSystem.empty.makeDirs (.ofString "/v/s/001-a")).2
    Abreast.write "/v/s/001-a/main.c" "a" (Abreast.write "/cc" "" fs)

def suites : List Suite := [⟨"s", [⟨.ofString "/v/s/001-a"⟩]⟩]

def sweep (scratch : String) (m : Machine) :
    Option (Except Error (List Suite × RunReport) × Machine) :=
  (ofConfig Copying.host (config scratch)).sweep Scratch.idOf [] m

/-- What a sweep finds, and the exit code of its run. -/
def verdict (a : Except Error (List Suite × RunReport)) : Option (List Suite × Nat) :=
  a.toOption.map fun found => (found.1, found.2.exitCode)

end Lone

/-- A program is built and run, and built and run again; the directories made for it stay where they
are and are overlooked. -/
theorem sweep_again_lone :
    ∃ a m₁ m₂, Lone.sweep "/v/t/u" Lone.machine = some (a, m₁) ∧
      Lone.sweep "/v/t/u" m₁ = some (a, m₂) ∧ Lone.verdict a = some (Lone.suites, 0) := by
  have hd : discover Lone.machine.files (Lone.config "/v/t/u").root = .ok Lone.suites := by
    decide +kernel
  have hids : ∀ suites, discover Lone.machine.files (Lone.config "/v/t/u").root = .ok suites →
      Secret Scratch.idOf Copying.confined (Lone.config "/v/t/u") suites Lone.machine.files := by
    intro suites hs
    obtain rfl := Except.ok.inj (hd.symm.trans hs)
    exact secret_idOf (by decide +kernel) (by decide +kernel)
  have hcut : ∀ e ∈ ([] : List Pool.Event), ¬ e.Cuts := fun _ he => nomatch he
  obtain ⟨a, a', m₁, -, hfirst, -, hsame, hagain⟩ := sweep_again_iff Copying.confined
    (Lone.config "/v/t/u") (m := Lone.machine) rfl (by decide)
    (FileSystem.settles_of_made (by decide +kernel)) hids hids hcut hcut
  obtain rfl := hsame rfl
  obtain ⟨m₂, hagain⟩ := hagain.2 fun _ _ _ =>
    Discovery.overlooks_of_entries (d := [[0x76]]) (by decide +kernel) (by decide +kernel)
  refine ⟨a', m₁, m₂, hfirst, hagain, ?_⟩
  have hverdict : (Lone.sweep "/v/t/u" Lone.machine).bind (Lone.verdict ·.1) =
      some (Lone.suites, 0) := by
    decide +kernel
  rw [show Lone.sweep "/v/t/u" Lone.machine = some (a', m₁) from hfirst] at hverdict
  exact hverdict

namespace Lone

theorem found_of_verdict {a : Except Error (List Suite × RunReport)} {found : List Suite} {n : Nat}
    (h : verdict a = some (found, n)) : ∃ r, a = .ok (found, r) := by
  cases a with
  | error why => cases h
  | ok a =>
    obtain ⟨rfl, -⟩ := Prod.mk.inj (Option.some.inj h)
    exact ⟨a.2, rfl⟩

/-- What a sweep leaves with a scratch base in the root that has the name of a fixture. -/
def left : Machine := ((sweep "/v/001-scratch" machine).map (·.2)).getD machine

/-- The scratch base is a fixture. -/
theorem isFixtureAt_left : Discovery.IsFixtureAt left.files [[0x76]]
    [Text.Utf8.encode "001-scratch"] :=
  ⟨by decide +kernel, _, [], rfl,
    (isFixtureName_iff (Text.Utf8.encode "001-scratch")).1 (by decide +kernel)⟩

end Lone

/-- The first sweep finds one fixture, which passes, and makes its scratch directory in a directory
that is left; the second takes this for a fixture too. -/
theorem sweep_finds_scratch :
    Secret Scratch.idOf Copying.confined (Lone.config "/v/001-scratch") Lone.suites
        Lone.machine.files ∧
      ∃ a m₁, Lone.sweep "/v/001-scratch" Lone.machine = some (a, m₁) ∧
        Lone.verdict a = some (Lone.suites, 0) ∧
        ∀ m₂, Lone.sweep "/v/001-scratch" m₁ ≠ some (a, m₂) := by
  refine ⟨secret_idOf (by decide +kernel) (by decide +kernel), ?_⟩
  have hverdict : (Lone.sweep "/v/001-scratch" Lone.machine).bind (Lone.verdict ·.1) =
      some (Lone.suites, 0) := by
    decide +kernel
  obtain ⟨⟨a, m₁⟩, hfirst, ha⟩ := Option.bind_eq_some_iff.1 hverdict
  refine ⟨a, m₁, hfirst, ha, fun m₂ hagain => ?_⟩
  obtain ⟨r, rfl⟩ := Lone.found_of_verdict ha
  have hleft : Lone.left = m₁ := by rw [Lone.left, hfirst]; rfl
  have hd := discover_of_sweep hagain
  rw [← hleft] at hd
  have hopen : Lone.left.files.openDir (Lone.config "/v/001-scratch").root = .ok [[0x76]] := by
    decide +kernel
  have hmem := (Discovery.exact_of_discover hopen hd).complete _ Lone.isFixtureAt_left
  exact absurd hmem (by decide +kernel)

end Harness

end Assay
