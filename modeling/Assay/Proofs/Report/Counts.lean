import Assay.Report.Basic
import Mathlib.Algebra.BigOperators.Group.List.Basic
import Mathlib.Algebra.Ring.Nat

/-!
# Report — verdicts and counts

A suite and a whole run each have a verdict and two counts, and none of these is made from another.
They agree all the same: what failed is what did not pass (`passedCount_add_failedCount`), nothing
failed exactly if the verdict is a pass (`failedCount_eq_zero_iff`), and the counts of a run are the
sums of those of its suites (`RunReport.CountsAddUp`). A result without any reason that is no pass
counts as failed.
-/

namespace Assay

/-- To pass is to have no reasons at all. -/
theorem Outcome.isPass_iff {o : Outcome} : o.isPass = true ↔ o = .passed := by
  cases o with
  | passed => exact iff_of_true rfl rfl
  | failed rs => exact iff_of_false nofun nofun

namespace SuiteReport

theorem passedCount_le (s : SuiteReport) : s.passedCount ≤ s.results.length :=
  List.countP_le_length

/-- Each result of a suite passed or failed. -/
theorem passedCount_add_failedCount (s : SuiteReport) :
    s.passedCount + s.failedCount = s.results.length :=
  Nat.add_sub_of_le s.passedCount_le

/-- A suite passed if all its results did. -/
theorem passed_iff {s : SuiteReport} :
    s.passed = true ↔ ∀ f ∈ s.results, f.outcome = .passed := by
  simp only [passed, List.all_eq_true, FixtureResult.passed, Outcome.isPass_iff]

/-- None failed exactly if the suite passed. -/
theorem failedCount_eq_zero_iff {s : SuiteReport} : s.failedCount = 0 ↔ s.passed = true := by
  have hall : s.passedCount = s.results.length ↔ s.passed = true :=
    List.countP_eq_length.trans List.all_eq_true.symm
  have hadd := s.passedCount_add_failedCount
  rw [← hall]
  omega

/-- Whether the counts of a suite fit each other and its verdict. -/
structure CountsAddUp (s : SuiteReport) : Prop where
  /-- No more passed than there are, so that nothing is taken from less. -/
  le : s.passedCount ≤ s.results.length
  add : s.passedCount + s.failedCount = s.results.length
  verdict : s.failedCount = 0 ↔ s.passed = true

/-- The counts of a suite are those of its results. -/
theorem countsAddUp (s : SuiteReport) : s.CountsAddUp :=
  ⟨s.passedCount_le, s.passedCount_add_failedCount, failedCount_eq_zero_iff⟩

end SuiteReport

namespace RunReport

/-- The exit code says whether the run passed. -/
theorem exitCode_eq_zero_iff {r : RunReport} : r.exitCode = 0 ↔ r.passed = true := by
  rw [exitCode]
  split
  next h => exact iff_of_true rfl h
  next h => exact iff_of_false Nat.one_ne_zero h

/-- A run passed if all results of all its suites did. -/
theorem passed_iff {r : RunReport} :
    r.passed = true ↔ ∀ s ∈ r.suites, ∀ f ∈ s.results, f.outcome = .passed := by
  simp only [passed, List.all_eq_true, SuiteReport.passed_iff]

/-! ### Sums over the suites -/

/-- What is counted suite by suite is the sum of the counts. -/
theorem foldl_add_eq_sum {α : Type} (f : α → Nat) (l : List α) :
    l.foldl (fun n a => n + f a) 0 = (l.map f).sum := by
  rw [List.sum_eq_foldl, List.foldl_map]

theorem total_eq_sum (r : RunReport) : r.total = (r.suites.map (·.results.length)).sum :=
  foldl_add_eq_sum _ _

/-- The run's count of passed results is the sum of the suites' counts. -/
theorem passedCount_eq_sum (r : RunReport) :
    r.passedCount = (r.suites.map SuiteReport.passedCount).sum :=
  foldl_add_eq_sum _ _

/-- The results of a run are those that passed and those that failed in its suites. -/
theorem total_eq_add (r : RunReport) :
    r.total = r.passedCount + (r.suites.map SuiteReport.failedCount).sum := by
  rw [total_eq_sum, passedCount_eq_sum, ← List.sum_map_add]
  simp only [SuiteReport.passedCount_add_failedCount]

/-- The run's count of failed results, which is a difference, is a sum too. -/
theorem failedCount_eq_sum (r : RunReport) :
    r.failedCount = (r.suites.map SuiteReport.failedCount).sum := by
  rw [failedCount, total_eq_add, Nat.add_sub_cancel_left]

theorem passedCount_le (r : RunReport) : r.passedCount ≤ r.total := by
  rw [total_eq_add]
  exact Nat.le_add_right _ _

/-- Each result of a run passed or failed. -/
theorem passedCount_add_failedCount (r : RunReport) : r.passedCount + r.failedCount = r.total :=
  Nat.add_sub_of_le r.passedCount_le

/-- Nothing failed in a run if nothing failed in any suite, which is its verdict. -/
theorem failedCount_eq_zero_iff {r : RunReport} : r.failedCount = 0 ↔ r.passed = true := by
  rw [failedCount_eq_sum, List.sum_eq_zero_iff_forall_eq_nat, List.forall_mem_map, passed,
    List.all_eq_true]
  simp only [SuiteReport.failedCount_eq_zero_iff]

/-- Whether the counts of a run fit each other and are those of its suites put together. -/
structure CountsAddUp (r : RunReport) : Prop where
  /-- No more passed than there are, so that nothing is taken from less. -/
  le : r.passedCount ≤ r.total
  add : r.passedCount + r.failedCount = r.total
  total : r.total = (r.suites.map (·.results.length)).sum
  passed : r.passedCount = (r.suites.map SuiteReport.passedCount).sum
  failed : r.failedCount = (r.suites.map SuiteReport.failedCount).sum

/-- The counts of a run are those of its suites. -/
theorem countsAddUp (r : RunReport) : r.CountsAddUp :=
  ⟨r.passedCount_le, r.passedCount_add_failedCount, r.total_eq_sum, r.passedCount_eq_sum,
    r.failedCount_eq_sum⟩

end RunReport

end Assay
