import Assay.Proofs.Machine.Copying
import Assay.Proofs.Run.Partition

/-!
# Run — fixtures side by side

The report of a run does not depend on the number of jobs nor on the order in which the workers take
their steps: as long as no worker is cut off it is the report of the fixtures one after another
(`run_eq_runInOrder`). This takes confined programs, ids that nobody knows, and a scratch base that
comes to the same when it is made again; the directories that a failed attempt leaves behind can
make the next one fail in another way (`report_depends_on_order`).
-/

namespace Assay

open Text.Utf8 (encode)

namespace Harness

section

variable {host : Host} {c : Config} {ids : Nat → String} {suites : List Suite} {m : Machine}

/-- Without cuts a run is that of a finished pool that was never cut. -/
theorem uncut_of_run {h : Harness} {schedule : List Pool.Event} (hcut : ∀ e ∈ schedule, ¬ e.Cuts)
    {r : RunReport} {m' : Machine} (hr : h.run ids schedule suites m = some (r, m')) :
    ∃ p, Pool.Uncut (h.pool ids suites m) p ∧ p.finished = true ∧ r = report suites p.board ∧
      m' = p.shared := by
  unfold run at hr
  split at hr
  · cases hr
  · cases hr
    have hplay := Pool.uncut_play hcut (h.pool ids suites m)
    exact ⟨_, hplay.trans (Pool.uncut_drain _), (drain_of_reachable hplay.reachable).2, rfl, rfl⟩

theorem run_eq_apart {h : Harness} {m₁ : Machine} {alike frame : Nat → Machine → Machine → Prop}
    (hI : Isolation (h.tasks ids suites) alike frame) (hm : ∀ n, alike n m₁ m₁)
    (hstart : ∀ t ∈ h.tasks ids suites, t.StartsAlike m m₁) (hjobs : h.config.jobs ≤ permitLimit)
    {schedule : List Pool.Event} (hcut : ∀ e ∈ schedule, ¬ e.Cuts) :
    ∃ m', h.run ids schedule suites m = some (h.apart ids suites m₁, m') := by
  have hpermits : max h.config.jobs 1 ≤ permitLimit := Nat.max_le.2 ⟨hjobs, by decide⟩
  obtain ⟨r, m', hr⟩ : ∃ r m', h.run ids schedule suites m = some (r, m') := by
    rw [run, if_neg (Nat.not_lt.2 hpermits)]
    exact ⟨_, _, rfl⟩
  obtain ⟨p, hp, hfin, rfl, rfl⟩ := uncut_of_run hcut hr
  rw [hr, report_eq_apart hI hm hstart hp hfin]
  exact ⟨_, rfl⟩

/-- With confined programs, ids that nobody knows and that no program guesses, and a scratch base
that settles, the report of a run is the same for any two numbers of jobs for which there are
permits and any two orders in which its workers take their steps, and it is the report of the
fixtures one after another. -/
theorem run_eq_runInOrder (hc : host.Confined) (c : Config) (hrefusals : m.refusals = [])
    (hids : Secret ids hc c suites m.files)
    (hbase : m.files.Settles (c.scratchBase host.tempDir)) {j j' : Nat}
    (hj : j ≤ permitLimit) (hj' : j' ≤ permitLimit)
    {schedule schedule' : List Pool.Event} (hcut : ∀ e ∈ schedule, ¬ e.Cuts)
    (hcut' : ∀ e ∈ schedule', ¬ e.Cuts) :
    ∃ r m₁ m₂, (ofConfig host { c with jobs := j }).run ids schedule suites m = some (r, m₁) ∧
      (ofConfig host { c with jobs := j' }).run ids schedule' suites m = some (r, m₂) ∧
      ((ofConfig host c).runInOrder ids suites m).1 = r := by
  obtain ⟨alike, frame, hP⟩ := exists_partition hrefusals hids hbase
  have hm := hP.like_self
  have hstart : ∀ t ∈ (ofConfig host c).tasks ids suites, t.StartsAlike m (prepared host c m) :=
    startsAlike_tasks hbase
  -- the number of jobs is no part of what the cycles are, only of the permits that they wait for
  have hrun : ∀ j, j ≤ permitLimit → ∀ schedule : List Pool.Event,
      (∀ e ∈ schedule, ¬ e.Cuts) → ∃ m',
        (ofConfig host { c with jobs := j }).run ids schedule suites m =
          some ((ofConfig host c).apart ids suites (prepared host c m), m') :=
    fun j hj schedule hcut =>
      run_eq_apart (h := ofConfig host { c with jobs := j }) hP.isolation hm hstart hj hcut
  obtain ⟨m₁, h₁⟩ := hrun j hj schedule hcut
  obtain ⟨m₂, h₂⟩ := hrun j' hj' schedule' hcut'
  exact ⟨_, m₁, m₂, h₁, h₂, runInOrder_eq_apart hP.isolation hm hstart⟩

end

/-- Tools that copy make up no id, so ids that are numbers are secret unless they are known. -/
theorem secret_idOf {c : Config} {suites : List Suite} {fs : FileSystem}
    (hdistinct : ∀ n < (jobs suites).length, ∀ k < (jobs suites).length,
      Scratch.idOf k = Scratch.idOf n → k = n)
    (hunknown : ∀ n < (jobs suites).length, ∀ t ∈ texts Copying.host c suites fs,
      ¬ encode (Scratch.idOf n) <:+: t) :
    Secret Scratch.idOf Copying.confined c suites fs :=
  ⟨⟨fun n _ => ⟨n, rfl⟩, hdistinct, hunknown⟩, fun _ _ => Copying.neverGuesses _⟩

namespace Abreast

/-- Tools that copy, and a scratch base that is made on demand inside the tree. -/
def config (jobs : Nat) : Config where
  root := .ofString "/v"
  toolchain := ⟨⟨.ofString "/cc", [""]⟩, ⟨.ofString "/cc", [""]⟩, ⟨.ofString "/cc", [""]⟩, false⟩
  jobs := jobs
  scratchDir := some (.ofString "/v/t/u")

/-- A file system with one program more. -/
def write (path text : String) (fs : FileSystem) : FileSystem :=
  (fs.write (.ofString path) ⟨Image.native text, true⟩).toOption.getD fs

/-- Two fixtures and a tool. -/
def machine : Machine where
  files :=
    let fs := (FileSystem.empty.makeDirs (.ofString "/v/s/001-a")).2
    let fs := (fs.makeDirs (.ofString "/v/s/002-b")).2
    write "/v/s/002-b/main.c" "b" (write "/v/s/001-a/main.c" "a" (write "/cc" "" fs))

def suites : List Suite := [⟨"s", [⟨.ofString "/v/s/001-a"⟩, ⟨.ofString "/v/s/002-b"⟩]⟩]

/-- The second worker is the first to make its directory, and then they take turns. -/
def schedule : List Pool.Event :=
  [.ask 0, .ask 1, .advance 1, .advance 0, .advance 0, .advance 1, .advance 0, .advance 1]

end Abreast

/-- Two programs that are built and run at the same time, or one after the other. -/
theorem passed_abreast :
    Secret Scratch.idOf Copying.confined (Abreast.config 1) Abreast.suites Abreast.machine.files ∧
      ∃ r m₁ m₂,
        (ofConfig Copying.host (Abreast.config 1)).run Scratch.idOf [] Abreast.suites
          Abreast.machine = some (r, m₁) ∧
        (ofConfig Copying.host (Abreast.config 2)).run Scratch.idOf Abreast.schedule
          Abreast.suites Abreast.machine = some (r, m₂) ∧
        r.passed = true := by
  have hids : Secret Scratch.idOf Copying.confined (Abreast.config 1) Abreast.suites
      Abreast.machine.files := secret_idOf (by decide +kernel) (by decide +kernel)
  have hcut : ∀ e ∈ ([] : List Pool.Event), ¬ e.Cuts := fun _ he => nomatch he
  have hcut' : ∀ e ∈ Abreast.schedule, ¬ e.Cuts := by simp [Abreast.schedule, Pool.Event.Cuts]
  obtain ⟨r, m₁, m₂, h₁, h₂, hr⟩ := run_eq_runInOrder Copying.confined (Abreast.config 1) rfl hids
    (FileSystem.settles_of_made (by decide +kernel)) (show 1 ≤ permitLimit by decide)
    (show 2 ≤ permitLimit by decide) hcut hcut'
  refine ⟨hids, r, m₁, m₂, h₁, h₂, ?_⟩
  rw [← hr]
  decide +kernel

namespace HalfMade

/-- A scratch base with a plain file on the way, behind a directory that can be made. -/
def config (jobs : Nat) : Config :=
  { Abreast.config jobs with scratchDir := some (.ofString "/new/../cc/scratch") }

/-- The report of the fixtures side by side. -/
def report (schedule : List Pool.Event) : Option RunReport :=
  ((ofConfig Copying.host (config 2)).run Scratch.idOf schedule Abreast.suites
    Abreast.machine).map (·.1)

end HalfMade

/-- The first attempt to make the scratch base makes a directory and then fails; the next one comes
further, and fails in another way. So the reports depend on which fixture is the first. -/
theorem report_depends_on_order :
    Secret Scratch.idOf Copying.confined (HalfMade.config 2) Abreast.suites Abreast.machine.files ∧
      HalfMade.report [] = some ((ofConfig Copying.host (HalfMade.config 2)).runInOrder Scratch.idOf
        Abreast.suites Abreast.machine).1 ∧
      HalfMade.report [.ask 0, .ask 1, .advance 1] ≠ HalfMade.report [] :=
  ⟨secret_idOf (by decide +kernel) (by decide +kernel), by decide +kernel, by decide +kernel⟩

end Harness

end Assay
