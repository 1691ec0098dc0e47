import Assay.Proofs.Pool.Isolation
import Assay.Proofs.Run.Reporting

/-!
# Run — each fixture on a machine of its own

`apart` is the report of a run in which each cycle has a copy of the machine for itself. If the
cycles of a run are isolated from each other, then it is the report of the fixtures one after
another (`runInOrder_eq_apart`) and of every finished pool that was never cut (`report_eq_apart`).
-/

namespace Assay.Harness

/-- The tasks of a run, by the numbers of their jobs. -/
def tasks (h : Harness) (ids : Nat → String) (suites : List Suite) :
    List (Task Machine FixtureResult) :=
  (jobs suites).zipIdx.map fun j => h.task ids j.2 j.1

/-- The result of a fixture alone on a machine. -/
def alone (h : Harness) (ids : Nat → String) (m : Machine) (suite : String) (n : Nat)
    (f : Fixture) : FixtureResult :=
  ((h.cycle (ids n) suite f).run m).1.getD (aborted suite f)

/-- The reports of suites with a result for each fixture by its number; the first has the number
`n`. -/
def apartSuites (result : String → Nat → Fixture → FixtureResult) :
    Nat → List Suite → List SuiteReport
  | _, []      => []
  | n, s :: ss =>
    ⟨s.name, s.fixtures.mapIdx fun k f => result s.name (n + k) f⟩ ::
      apartSuites result (n + s.size) ss

/-- The report of all fixtures, each on a copy of the machine. -/
def apart (h : Harness) (ids : Nat → String) (suites : List Suite) (m : Machine) : RunReport :=
  ⟨apartSuites (h.alone ids m) 0 suites, .zero⟩

/-- The number of the first job of a suite. -/
def firstJob (suites : List Suite) (i : Nat) : Nat := ((suites.take i).map Suite.size).sum

variable {h : Harness} {ids : Nat → String} {suites : List Suite} {m m₁ : Machine}

/-- The task of a number is that of the job with the number. -/
theorem getElem?_tasks (h : Harness) (ids : Nat → String) (suites : List Suite) (n : Nat) :
    (h.tasks ids suites)[n]? = ((jobs suites)[n]?).map (h.task ids n) := by
  rw [tasks, List.getElem?_map, List.getElem?_zipIdx, Option.map_map]
  cases (jobs suites)[n]? <;> simp

/-! ### The numbers of jobs -/

/-- The job of a fixture has the number of those before its suite and its place in that. -/
theorem getElem?_flatMap_jobs {i o k : Nat} {s : Suite} {f : Fixture} (hs : suites[i]? = some s)
    (hf : s.fixtures[k]? = some f) :
    ((suites.zipIdx o).flatMap fun s => s.1.fixtures.zipIdx.map fun f =>
      (⟨⟨s.2, f.2⟩, s.1.name, f.1⟩ : Job))[firstJob suites i + k]? =
        some ⟨⟨o + i, k⟩, s.name, f⟩ := by
  induction suites generalizing i o with
  | nil => cases hs
  | cons s₀ ss ih =>
    rw [List.zipIdx_cons, List.flatMap_cons]
    cases i with
    | zero =>
      obtain rfl := Option.some.inj hs
      have hk : k < s₀.fixtures.length := (List.getElem?_eq_some_iff.1 hf).1
      rw [firstJob, List.take_zero, List.map_nil, List.sum_nil, Nat.zero_add,
        List.getElem?_append_left (by simpa using hk), List.getElem?_map, List.getElem?_zipIdx, hf]
      simp
    | succ i =>
      have hlen : (s₀.fixtures.zipIdx.map fun f =>
          (⟨⟨o, f.2⟩, s₀.name, f.1⟩ : Job)).length = s₀.size := by
        rw [List.length_map, List.length_zipIdx, Suite.size]
      have hfirst : firstJob (s₀ :: ss) (i + 1) = s₀.size + firstJob ss i := by
        rw [firstJob, List.take_succ_cons, List.map_cons, List.sum_cons, firstJob]
      rw [hfirst, List.getElem?_append_right (by rw [hlen]; omega), hlen, Nat.add_assoc,
        Nat.add_sub_cancel_left, ih hs, Nat.add_right_comm o 1 i, Nat.add_assoc]

/-- Jobs are numbered suite by suite. -/
theorem getElem?_jobs {i k : Nat} {s : Suite} {f : Fixture} (hs : suites[i]? = some s)
    (hf : s.fixtures[k]? = some f) :
    (jobs suites)[firstJob suites i + k]? = some ⟨⟨i, k⟩, s.name, f⟩ := by
  have hjob := getElem?_flatMap_jobs (o := 0) hs hf
  rwa [Nat.zero_add] at hjob

/-- Each suite keeps its place and its name. -/
theorem getElem?_apartSuites (result : String → Nat → Fixture → FixtureResult) (n i : Nat) :
    (apartSuites result n suites)[i]? = suites[i]?.map fun s =>
      ⟨s.name, s.fixtures.mapIdx fun k f => result s.name (n + firstJob suites i + k) f⟩ := by
  induction suites generalizing n i with
  | nil => rfl
  | cons s ss ih =>
    cases i with
    | zero => rfl
    | succ i =>
      rw [apartSuites, List.getElem?_cons_succ, List.getElem?_cons_succ, ih, firstJob, firstJob,
        List.take_succ_cons, List.map_cons, List.sum_cons, Nat.add_assoc n]

/-! ### One after another -/

section

variable {tasks : List (Task Machine FixtureResult)} {alike frame : Nat → Machine → Machine → Prop}

/-- Whether nothing has been done yet to the machine `m`, or the tasks from the `n`-th on cannot
tell the machine `g` from `m₁`. -/
def Untouched (alike : Nat → Machine → Machine → Prop) (m m₁ : Machine) (n : Nat) (g : Machine) :
    Prop := g = m ∨ ∀ k, n ≤ k → alike k g m₁

/-- The next task has the result that it has on its own, and leaves the tasks behind it untouched.
-/
theorem Untouched.run (hI : Isolation tasks alike frame) (hm : ∀ n, alike n m₁ m₁)
    (hstart : ∀ t ∈ tasks, t.StartsAlike m m₁) {n : Nat} {t : Task Machine FixtureResult}
    (ht : tasks[n]? = some t) {g : Machine} (hg : Untouched alike m m₁ n g) :
    (t.run g).1 = (t.run m₁).1 ∧ Untouched alike m m₁ (n + 1) (t.run g).2 := by
  have hiso := hI.isolated n t ht
  have hkeeps : ∀ g, alike n g m₁ → (∀ k, n + 1 ≤ k → alike k g m₁) →
      Untouched alike m m₁ (n + 1) (t.run g).2 := fun g hg hlater => by
    refine .inr (hiso.keeps hg (R := fun g => ∀ k, n + 1 ≤ k → alike k g m₁) ?_ hlater)
    exact fun g g' hframe hR k hk => hI.apart n k g g' m₁ (by omega) hframe (hR k hk)
  obtain rfl | hg := hg
  · rw [(hstart t (List.mem_of_getElem? ht)).run]
    exact ⟨rfl, hkeeps m₁ (hm n) fun k _ => hm k⟩
  · exact ⟨(hiso.run (hg n (Nat.le_refl n))).1,
      hkeeps g (hg n (Nat.le_refl n)) fun k hk => hg k (by omega)⟩

/-- In order the fixtures of a suite have the results that they have each on its own. -/
theorem runFixtures_eq (hI : Isolation tasks alike frame) (hm : ∀ n, alike n m₁ m₁)
    (hstart : ∀ t ∈ tasks, t.StartsAlike m m₁) {suite : String} {fs : List Fixture} {n : Nat}
    (hfs : ∀ k f, fs[k]? = some f → tasks[n + k]? = some (h.cycle (ids (n + k)) suite f))
    {g : Machine} (hg : Untouched alike m m₁ n g) :
    (h.runFixtures ids suite n fs g).1 = (fs.mapIdx fun k f => h.alone ids m₁ suite (n + k) f) ∧
      Untouched alike m m₁ (n + fs.length) (h.runFixtures ids suite n fs g).2 := by
  induction fs generalizing n g with
  | nil => exact ⟨rfl, hg⟩
  | cons f fs ih =>
    obtain ⟨hresult, hnext⟩ := hg.run hI hm hstart (hfs 0 f rfl)
    have hshift : ∀ k, n + 1 + k = n + (k + 1) := fun k => by omega
    obtain ⟨hrest, hlast⟩ := ih (n := n + 1) (fun k f' hf' => by
      rw [hshift]
      exact hfs (k + 1) f' hf') hnext
    rw [hshift] at hlast
    refine ⟨?_, hlast⟩
    rw [runFixtures, List.mapIdx_cons]
    simp only [hshift] at hrest
    refine congr (congrArg List.cons ?_) hrest
    exact congrArg (·.getD (aborted suite f)) hresult

/-- In order the fixtures of all suites have the results that they have each on its own. -/
theorem runSuites_eq (hI : Isolation tasks alike frame) (hm : ∀ n, alike n m₁ m₁)
    (hstart : ∀ t ∈ tasks, t.StartsAlike m m₁) {n : Nat}
    (hss : ∀ i k s f, suites[i]? = some s → s.fixtures[k]? = some f →
      tasks[n + firstJob suites i + k]? =
        some (h.cycle (ids (n + firstJob suites i + k)) s.name f))
    {g : Machine} (hg : Untouched alike m m₁ n g) :
    (h.runSuites ids n suites g).1 = apartSuites (h.alone ids m₁) n suites := by
  induction suites generalizing n g with
  | nil => rfl
  | cons s ss ih =>
    obtain ⟨hrow, hnext⟩ := runFixtures_eq hI hm hstart (fun k f hf => hss 0 k s f rfl hf) hg
    have hfirst : ∀ i, n + firstJob (s :: ss) (i + 1) = n + s.size + firstJob ss i := fun i => by
      rw [firstJob, List.take_succ_cons, List.map_cons, List.sum_cons, firstJob, Nat.add_assoc]
    have hrest := ih (n := n + s.size) (fun i k s' f hs' hf => by
      rw [← hfirst]
      exact hss (i + 1) k s' f hs' hf) hnext
    rw [runSuites, apartSuites]
    exact congr (congrArg List.cons (congrArg (SuiteReport.mk s.name) hrow)) hrest

end

/-- The task of a fixture is its cycle. -/
theorem task_of_fixture {i k : Nat} {s : Suite} {f : Fixture} (hs : suites[i]? = some s)
    (hf : s.fixtures[k]? = some f) :
    (h.tasks ids suites)[firstJob suites i + k]? =
      some (h.cycle (ids (firstJob suites i + k)) s.name f) := by
  rw [getElem?_tasks, getElem?_jobs hs hf]
  rfl

variable {alike frame : Nat → Machine → Machine → Prop}

/-- One after another, isolated cycles come to what they come to apart. -/
theorem runInOrder_eq_apart (hI : Isolation (h.tasks ids suites) alike frame)
    (hm : ∀ n, alike n m₁ m₁) (hstart : ∀ t ∈ h.tasks ids suites, t.StartsAlike m m₁) :
    (h.runInOrder ids suites m).1 = h.apart ids suites m₁ := by
  refine congrArg (RunReport.mk · .zero) (runSuites_eq hI hm hstart (n := 0) ?_ (.inl rfl))
  intro i k s f hs hf
  rw [Nat.zero_add]
  exact task_of_fixture hs hf

/-! ### Side by side -/

/-- In a new pool no worker has begun. -/
theorem fresh_pool (h : Harness) (ids : Nat → String) (suites : List Suite) (m : Machine) :
    (h.pool ids suites m).Fresh (h.tasks ids suites) := by
  intro n w hw
  rw [getElem?_pool_workers] at hw
  obtain ⟨j, hj, rfl⟩ := Option.map_eq_some_iff.1 hw
  exact ⟨h.task ids n j, by rw [getElem?_tasks, hj]; rfl, rfl⟩

/-- The report of a finished pool, fixture by fixture, by what its workers have sent. -/
theorem report_eq_apartSuites {p : Pool Machine FixtureResult}
    (hp : Pool.Reachable (h.pool ids suites m) p) (hfin : p.finished = true)
    {result : String → Nat → Fixture → FixtureResult}
    (hsent : ∀ i k s f sent, suites[i]? = some s → s.fixtures[k]? = some f →
      p.workers[firstJob suites i + k]? = some ⟨⟨i, k⟩, .ended sent⟩ →
      sent.getD (aborted s.name f) = result s.name (firstJob suites i + k) f) :
    report suites p.board = ⟨apartSuites result 0 suites, .zero⟩ := by
  refine congrArg (RunReport.mk · .zero) (List.ext_getElem? fun i => ?_ :
    (report suites p.board).suites = _)
  rw [getElem?_apartSuites]
  cases hs : suites[i]? with
  | none =>
    have hnames := congrArg (·[i]?) (names_report hp)
    simp only [List.getElem?_map, hs, Option.map_none, Option.map_eq_none_iff] at hnames
    exact hnames
  | some s =>
    obtain ⟨rs, hrs, hlen, hrow⟩ := rows_of_finished hp hfin hs
    rw [hrs]
    refine congrArg some (congrArg (SuiteReport.mk s.name) (List.ext_getElem? fun k => ?_))
    rw [List.getElem?_mapIdx]
    cases hf : s.fixtures[k]? with
    | none =>
      rw [List.getElem?_eq_none_iff, ← hlen] at hf
      exact List.getElem?_eq_none hf
    | some f =>
      obtain ⟨n, sent, hj, hw, hr⟩ := hrow k f hf
      obtain rfl : n = firstJob suites i + k := number_unique hj (getElem?_jobs hs hf) rfl
      rw [hr, Nat.zero_add, hsent i k s f sent hs hf hw]
      rfl

/-- Side by side, in any order of their steps, isolated cycles come to what they come to apart. -/
theorem report_eq_apart (hI : Isolation (h.tasks ids suites) alike frame)
    (hm : ∀ n, alike n m₁ m₁) (hstart : ∀ t ∈ h.tasks ids suites, t.StartsAlike m m₁)
    {p : Pool Machine FixtureResult} (hp : Pool.Uncut (h.pool ids suites m) p)
    (hfin : p.finished = true) : report suites p.board = h.apart ids suites m₁ := by
  obtain ⟨hsent, -⟩ := Pool.sent_of_finished hI (fresh_pool h ids suites m) hstart hm hp hfin
  refine report_eq_apartSuites hp.reachable hfin fun i k s f sent hs hf hw => ?_
  obtain ⟨t, ht, hphase, -⟩ := hsent _ _ hw
  obtain rfl := Option.some.inj (ht.symm.trans (task_of_fixture hs hf))
  cases hphase
  rfl

end Assay.Harness
